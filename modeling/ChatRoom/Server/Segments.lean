import ChatRoom.Client.Send
import ChatRoom.Server.Handlers

/-!
# Reads and the stream of a client

`acceptClientConnect` takes what the first `read` returns for the name of the user, and the loop
of `procClientRequest` takes what every later `read` returns for a message.  TCP may return the
stream in any pieces.
-/

namespace ChatRoom

open CString

/-- What a client writes: its name, without a terminator, in `initClientResource`, and then full
records. -/
def clientStream (pSrcName : Name) (records : List MsgData) : Bytes :=
  pSrcName.val.bytes ++ (records.map MsgData.toBytes).flatten

/-- The pieces in which successive calls of `read` return the stream: none is empty, and none is
longer than what the call asks for. -/
structure IsReads (stream : Bytes) (reads : List Bytes) : Prop where
  flatten : reads.flatten = stream
  nonempty : ∀ piece ∈ reads, piece ≠ []
  first : ∀ piece ∈ reads.head?, piece.length ≤ 32
  later : ∀ piece ∈ reads.tail, piece.length ≤ sizeofMsgData

/-- The name under which `acceptClientConnect` registers the client; `behind` is the memory behind
the cleared array that the first piece was read into. -/
def registeredName (behind piece : Bytes) : CStr :=
  cstr ((CharArray.ofBytes 32 piece).bytes ++ behind)

/-- The message for which `procClientRequest` calls a handler after a read. -/
def dispatched (piece : Bytes) : Option MsgData :=
  let pcMsgBuf := MsgData.ofBytes piece
  if pcMsgBuf.pDataStr = lit "exit" then none else some pcMsgBuf

/-- What the server makes of a connection: the registered name and the messages of the handlers
it calls, in order.  The type in the message says which handler. -/
structure ServedConnection where
  clientName : CStr
  handled : List MsgData
deriving DecidableEq

def serveReads (behind : Bytes) : List Bytes → Option ServedConnection
  | [] => none
  | piece :: rest => some ⟨registeredName behind piece, rest.filterMap dispatched⟩

/-- All ways to read the stream have the same effect. -/
def ReadsAgree (behind stream : Bytes) : Prop :=
  ∀ reads reads', IsReads stream reads → IsReads stream reads' →
    serveReads behind reads = serveReads behind reads'

/-- The loop of `procClientRequest` calls a handler with the dispatched message. -/
theorem procClientRequest_dispatched (s : ServerState) (cFd : ℕ) (piece : Bytes) :
    procClientRequest s cFd (MsgData.ofBytes piece) =
      match dispatched piece with
      | none => .skipped
      | some msg =>
          match MsgType.ofCode? msg.stMsgHead.enMsgType with
          | none => .outOfTable
          | some enMsgType =>
              .called enMsgType (astProcClientOptFunc enMsgType s msg msg.desNameStr cFd) := by
  by_cases hexit : (MsgData.ofBytes piece).pDataStr = lit "exit"
  · simp [procClientRequest, dispatched, hexit]
  · rcases htype : MsgType.ofCode? (MsgData.ofBytes piece).stMsgHead.enMsgType with - | enMsgType
    · simp [procClientRequest, dispatched, hexit, htype]
    · simp [procClientRequest, dispatched, hexit, htype]

/-! ## Two ways to read a stream -/

/-- A piece that leaves room in the array is terminated by what was cleared. -/
theorem registeredName_of_lt {piece : Bytes} (h : piece.length < 32) (behind : Bytes) :
    registeredName behind piece = cstr piece := by
  have hzeros : List.replicate (32 - piece.length) (0 : UInt8) =
      0 :: List.replicate (31 - piece.length) 0 := by
    rw [← List.replicate_succ]
    congr 1
    omega
  apply CStr.ext_bytes
  rw [registeredName, CharArray.bytes_ofBytes (by omega), hzeros, bytes_cstr, bytes_cstr,
    List.append_assoc, List.takeWhile_append]
  split_ifs with hlen
  · rw [List.cons_append, List.takeWhile_cons_of_neg (by simp), List.append_nil]
    exact ((List.takeWhile_prefix _).eq_of_length hlen).symm
  · rfl

theorem isReads_whole (pSrcName : Name) (hname : 1 ≤ pSrcName.val.strlen)
    (records : List MsgData) :
    IsReads (clientStream pSrcName records)
      (pSrcName.val.bytes :: records.map MsgData.toBytes) := by
  have hlen : pSrcName.val.bytes.length ≤ 31 := pSrcName.property
  refine ⟨rfl, ?_, ?_, ?_⟩
  · intro piece hpiece hnil
    have hzero := congrArg List.length hnil
    rcases List.mem_cons.mp hpiece with rfl | hpiece
    · rw [CStr.strlen, hzero] at hname
      exact absurd hname (by decide)
    · obtain ⟨msg, -, rfl⟩ := List.mem_map.mp hpiece
      rw [msg.length_toBytes] at hzero
      exact absurd hzero (by decide)
  · intro piece hpiece
    rw [← Option.some.inj hpiece]
    omega
  · intro piece hpiece
    obtain ⟨msg, -, rfl⟩ := List.mem_map.mp hpiece
    rw [msg.length_toBytes]

/-- Read as it was written, the stream gives the name and the messages. -/
theorem serveReads_whole (behind : Bytes) (pSrcName : Name) (records : List MsgData) :
    serveReads behind (pSrcName.val.bytes :: records.map MsgData.toBytes) =
      some ⟨pSrcName.val, records.filter (·.pDataStr ≠ lit "exit")⟩ := by
  have hlen : pSrcName.val.bytes.length ≤ 31 := pSrcName.property
  have hname : registeredName behind pSrcName.val.bytes = pSrcName.val := by
    rw [registeredName_of_lt (by omega)]
    apply CStr.ext_bytes
    rw [bytes_cstr_eq_self_iff]
    exact pSrcName.val.nulFree
  have hhandled : (records.map MsgData.toBytes).filterMap dispatched =
      records.filter (·.pDataStr ≠ lit "exit") := by
    rw [List.filterMap_map, ← List.filterMap_eq_filter]
    congr 1
    funext msg
    by_cases hexit : msg.pDataStr = lit "exit"
    · simp [dispatched, hexit, Option.guard]
    · simp [dispatched, hexit, Option.guard]
  rw [serveReads, hname, hhandled]

/-- A stream can be read byte by byte. -/
theorem isReads_bytewise (stream : Bytes) : IsReads stream (stream.map ([·])) where
  flatten := by
    induction stream with
    | nil => rfl
    | cons b rest ih => rw [List.map_cons, List.flatten_cons, ih, List.singleton_append]
  nonempty piece hpiece := by
    obtain ⟨b, -, rfl⟩ := List.mem_map.mp hpiece
    exact List.cons_ne_nil b []
  first piece hpiece := by
    obtain ⟨b, -, rfl⟩ := List.mem_map.mp (List.mem_of_mem_head? hpiece)
    exact Nat.le_of_ble_eq_true rfl
  later piece hpiece := by
    obtain ⟨b, -, rfl⟩ := List.mem_map.mp (List.mem_of_mem_tail hpiece)
    exact Nat.le_of_ble_eq_true rfl

/-- A single byte is a message without text. -/
theorem dispatched_singleton (b : UInt8) : dispatched [b] = some (MsgData.ofBytes [b]) := by
  have hbody : (MsgData.ofBytes [b]).pData = CharArray.ofBytes 256 [] := rfl
  have htext : (MsgData.ofBytes [b]).pDataStr ≠ lit "exit" := by
    rw [MsgData.pDataStr, hbody]
    decide +kernel
  rw [dispatched, if_neg htext]

/-- Read byte by byte, every byte of the stream but the first is handled on its own. -/
theorem serveReads_bytewise (behind : Bytes) (b : UInt8) (rest : Bytes) :
    serveReads behind ((b :: rest).map ([·])) =
      some ⟨cstr [b], rest.map fun c => MsgData.ofBytes [c]⟩ := by
  have hname : registeredName behind [b] = cstr [b] :=
    registeredName_of_lt (Nat.le_of_ble_eq_true rfl) behind
  have hhandled :
          (rest.map ([·])).filterMap dispatched = rest.map fun c => MsgData.ofBytes [c] := by
    have hsingle : dispatched ∘ ([·]) = some ∘ fun c => MsgData.ofBytes [c] :=
      funext dispatched_singleton
    rw [List.filterMap_map, hsingle, List.filterMap_eq_map]
  rw [List.map_cons, serveReads, hname, hhandled]

/-- There is one way to read a single byte. -/
theorem reads_singleton {b : UInt8} {reads : List Bytes} (h : IsReads [b] reads) :
    reads = [[b]] := by
  have hflatten := h.flatten
  rcases reads with - | ⟨piece, rest⟩
  · cases hflatten
  · rcases piece with - | ⟨c, piece⟩
    · exact absurd rfl (h.nonempty [] List.mem_cons_self)
    · rw [List.flatten_cons, List.cons_append, List.cons.injEq, List.append_eq_nil_iff] at hflatten
      obtain ⟨rfl, rfl, hrest⟩ := hflatten
      have hnone : rest = [] := by
        apply List.eq_nil_iff_forall_not_mem.mpr
        intro q hq
        have hempty : q = [] := List.flatten_eq_nil_iff.mp hrest q hq
        exact h.nonempty q (List.mem_cons_of_mem _ hq) hempty
      rw [hnone]

/-! ## Which streams do not depend on the pieces -/

theorem length_clientStream (pSrcName : Name) (records : List MsgData) :
    (clientStream pSrcName records).length =
      pSrcName.val.strlen + sizeofMsgData * records.length := by
  induction records with
  | nil => simp [clientStream, CStr.strlen]
  | cons msg rest ih =>
      simp only [clientStream, List.length_append, List.map_cons, List.flatten_cons,
        MsgData.length_toBytes, List.length_cons] at ih ⊢
      rw [Nat.mul_succ]
      omega

/-- The pieces of a stream do not matter exactly if it is a name of one byte: a longer name may be
registered in part, and of every record each byte may be taken for a message. -/
theorem readsAgree_iff (behind : Bytes) (pSrcName : Name) (hname : 1 ≤ pSrcName.val.strlen)
    (records : List MsgData) :
    ReadsAgree behind (clientStream pSrcName records) ↔
      pSrcName.val.strlen = 1 ∧ records = [] := by
  constructor
  · intro hagree
    have hlength := length_clientStream pSrcName records
    rcases hstream : clientStream pSrcName records with - | ⟨b, rest⟩
    · rw [hstream, List.length_nil] at hlength
      omega
    · have hsame := hagree _ _ (isReads_whole pSrcName hname records) (isReads_bytewise _)
      rw [hstream, serveReads_whole, serveReads_bytewise, Option.some.injEq,
        ServedConnection.mk.injEq] at hsame
      obtain ⟨hregistered, hhandled⟩ := hsame
      have hone : pSrcName.val.strlen ≤ 1 := by
        rw [hregistered]
        exact strlen_cstr_le [b]
      have hcalls := congrArg List.length hhandled
      have hfew := List.length_filter_le (fun msg => decide (msg.pDataStr ≠ lit "exit")) records
      rw [hstream, List.length_cons] at hlength
      rw [List.length_map] at hcalls
      simp only [sizeofMsgData] at hlength
      refine ⟨by omega, List.eq_nil_of_length_eq_zero ?_⟩
      omega
  · rintro ⟨hone, rfl⟩ reads reads' hreads hreads'
    obtain ⟨b, hb⟩ := List.length_eq_one_iff.mp hone
    have hstream : clientStream pSrcName [] = [b] := by
      rw [clientStream, hb]
      rfl
    rw [hstream] at hreads hreads'
    rw [reads_singleton hreads, reads_singleton hreads']

/-- A client that writes its name "a" and nothing else. -/
theorem readsAgree_name : ReadsAgree [] (clientStream ⟨lit "a", by decide⟩ []) := by
  have hname : 1 ≤ (lit "a").strlen := by decide
  exact (readsAgree_iff [] ⟨lit "a", by decide⟩ hname []).mpr ⟨rfl, rfl⟩

/-- The name "ab", read in one piece or in two. -/
theorem not_readsAgree :
    ¬ ∀ (behind : Bytes) (pSrcName : Name) (records : List MsgData),
      1 ≤ pSrcName.val.strlen → ReadsAgree behind (clientStream pSrcName records) := by
  intro h
  let pSrcName : Name := ⟨lit "ab", by decide⟩
  have hwhole : IsReads (clientStream pSrcName []) [utf8 "ab"] :=
    ⟨by decide, by decide, by decide, by decide⟩
  have hsplit : IsReads (clientStream pSrcName []) [utf8 "a", utf8 "b"] :=
    ⟨by decide, by decide, by decide, by decide⟩
  have hsame := h [] pSrcName [] (by decide) _ _ hwhole hsplit
  exact absurd hsame (by decide +kernel)

end ChatRoom
