import ChatRoom.Server.Friends
import Mathlib.Data.List.Nodup
import Mathlib.Data.List.TakeWhile

/-!
# Group send and private send

`procSendMsg2All` walks through the user list and asks for every node whether it is a friend;
`procSendMsg2One` asks for one name and searches the list for it.  The traffic of one group
message is compared with that of private messages to the registered friends, one after the other.
-/

namespace ChatRoom

open CString

/-- The registered nodes whose names are friends of the sender of the frame. -/
def registeredFriends (s : ServerState) (frame : MsgData) : Linklist :=
  s.g_pList.filter fun p => s.tables.IsFriend frame.srcNameStr p.name

/-- The writes of private messages with the same frame, to the names of the nodes. -/
def sendEachOne (s : ServerState) (frame : MsgData) (srcFd : ℕ) (nodes : Linklist) : List Effect :=
  nodes.flatMap fun p => (procSendMsg2One s frame p.name srcFd).effects

/-- The group message makes the writes of the private messages: the frame, unchanged, once to each
registered friend and to nobody else. -/
structure GroupSendAgrees (s : ServerState) (frame : MsgData) (pcDesName : CStr) (srcFd : ℕ) :
    Prop where
  writes : (procSendMsg2All s frame pcDesName srcFd).effects =
    sendEachOne s frame srcFd (registeredFriends s frame)
  once : (procSendMsg2All s frame pcDesName srcFd).effects =
    (registeredFriends s frame).map (.relay · frame.shortFrame)

/-- The friend check of the node comes back. -/
def checkReturns (s : ServerState) (frame : MsgData) (p : Node) : Bool :=
  (checkReciverIsFriend s.mysql s.tables frame p.name).isSome

/-- The friend check of the node comes back with success. -/
def checkSucceeds (s : ServerState) (frame : MsgData) (p : Node) : Bool :=
  checkReciverIsFriend s.mysql s.tables frame p.name = some .success

/-- The friend check is right on the nodes before the first one on which it ends the process, and
no friend is registered from there on. -/
structure ChecksReach (s : ServerState) (frame : MsgData) : Prop where
  right : ∀ p ∈ s.g_pList.takeWhile (checkReturns s frame),
    checkSucceeds s frame p = true ↔ s.tables.IsFriend frame.srcNameStr p.name
  reach : ∀ p ∈ s.g_pList.dropWhile (checkReturns s frame),
    ¬ s.tables.IsFriend frame.srcNameStr p.name

variable {s : ServerState} {frame : MsgData}

/-! ## One traversal -/

/-- The loop relays to the nodes that its checks confirm, up to the first check that ends the
process. -/
theorem fst_sendMsg2AllLoop (head : Linklist) :
    (sendMsg2AllLoop s frame head).1 =
      ((head.takeWhile (checkReturns s frame)).filter (checkSucceeds s frame)).map
        (.relay · frame.shortFrame) := by
  induction head with
  | nil => rfl
  | cons p next ih =>
      rcases hcheck : checkReciverIsFriend s.mysql s.tables frame p.name with - | - | -
      · have hreturns : checkReturns s frame p = false := by simp [checkReturns, hcheck]
        simp [sendMsg2AllLoop, hcheck, hreturns]
      · have hreturns : checkReturns s frame p = true := by simp [checkReturns, hcheck]
        have hsucceeds : checkSucceeds s frame p = true := by simp [checkSucceeds, hcheck]
        simp [sendMsg2AllLoop, hcheck, hreturns, hsucceeds, ih]
      · have hreturns : checkReturns s frame p = true := by simp [checkReturns, hcheck]
        have hsucceeds : checkSucceeds s frame p = false := by simp [checkSucceeds, hcheck]
        simp [sendMsg2AllLoop, hcheck, hreturns, hsucceeds, ih]

/-- Of a list without repetitions, the beginning with the property `P` and the whole with the
property `Q` are the same exactly if the properties agree on the beginning and `Q` fails behind
it. -/
theorem filter_left_eq_filter_append_iff {α : Type*} {P Q : α → Bool} {xs ys : List α}
    (hnodup : (xs ++ ys).Nodup) :
    xs.filter P = (xs ++ ys).filter Q ↔
      (∀ x ∈ xs, P x = true ↔ Q x = true) ∧ ∀ y ∈ ys, ¬ Q y = true := by
  constructor
  · intro heq
    have hmem : ∀ z, (z ∈ xs ∧ P z = true) ↔ (z ∈ xs ∨ z ∈ ys) ∧ Q z = true := fun z => by
      rw [← List.mem_filter, heq, List.mem_filter, List.mem_append]
    refine ⟨fun x hx => ?_, fun y hy hQ => ?_⟩
    · have hiff := hmem x
      simpa only [hx, true_and, true_or] using hiff
    · have hyxs := ((hmem y).mpr ⟨.inr hy, hQ⟩).1
      exact List.disjoint_of_nodup_append hnodup hyxs hy
  · rintro ⟨hagree, hbehind⟩
    have hys : ys.filter Q = [] := List.filter_eq_nil_iff.mpr hbehind
    rw [List.filter_append, hys, List.append_nil]
    exact List.filter_congr fun x hx => Bool.eq_iff_iff.mpr (hagree x hx)

theorem relay_injective (bytes : Bytes) : Function.Injective (Effect.relay · bytes) := by
  intro p q h
  exact (Effect.relay.inj h).1

/-- Each registered friend gets the group message once, and nobody else does, exactly if the
checks reach all of them. -/
theorem relayedOnce_iff_checksReach (pcDesName : CStr) (srcFd : ℕ)
    (hnames : (s.g_pList.map Node.name).Nodup) :
    (procSendMsg2All s frame pcDesName srcFd).effects =
        (registeredFriends s frame).map (.relay · frame.shortFrame) ↔
      ChecksReach s frame := by
  have hsplit := List.takeWhile_append_dropWhile (p := checkReturns s frame) (l := s.g_pList)
  have hnodup : (s.g_pList.takeWhile (checkReturns s frame) ++
      s.g_pList.dropWhile (checkReturns s frame)).Nodup := by
    rw [hsplit]
    exact hnames.of_map
  have hfriends : registeredFriends s frame =
      (s.g_pList.takeWhile (checkReturns s frame) ++
        s.g_pList.dropWhile (checkReturns s frame)).filter
          fun p => s.tables.IsFriend frame.srcNameStr p.name := by
    rw [hsplit, registeredFriends]
  rw [effects_procSendMsg2All, fst_sendMsg2AllLoop,
    (relay_injective frame.shortFrame).list_map.eq_iff, hfriends,
    filter_left_eq_filter_append_iff hnodup]
  simp only [decide_eq_true_eq]
  exact ⟨fun ⟨hright, hreach⟩ => ⟨hright, hreach⟩, fun h => ⟨h.right, h.reach⟩⟩

/-! ## Repeated searches -/

/-- Among different names the search finds the node that carries the name. -/
theorem searchName_name_of_mem {head : Linklist} (hnames : (head.map Node.name).Nodup) {p : Node}
    (hp : p ∈ head) : searchName head p.name = some p := by
  rcases hfound : searchName head p.name with - | q
  · exact absurd rfl (searchName_eq_none_iff.mp hfound p hp)
  · have hname := name_of_searchName hfound
    rw [List.inj_on_of_nodup_map hnames (mem_of_searchName hfound) hp hname]

/-- A private message to a registered name whose check succeeds is one relay. -/
theorem effects_procSendMsg2One_of_checkSucceeds (srcFd : ℕ)
    (hnames : (s.g_pList.map Node.name).Nodup) {p : Node} (hp : p ∈ s.g_pList)
    (hcheck : checkSucceeds s frame p = true) :
    (procSendMsg2One s frame p.name srcFd).effects = [.relay p frame.shortFrame] := by
  rw [effects_procSendMsg2One, of_decide_eq_true hcheck, searchName_name_of_mem hnames hp]
  rfl

/-- When the checks reach all friends, private messages to them are one relay each. -/
theorem sendEachOne_of_checksReach (srcFd : ℕ) (hnames : (s.g_pList.map Node.name).Nodup)
    (hreach : ChecksReach s frame) :
    sendEachOne s frame srcFd (registeredFriends s frame) =
      (registeredFriends s frame).map (.relay · frame.shortFrame) := by
  have hone : ∀ p ∈ registeredFriends s frame,
      (procSendMsg2One s frame p.name srcFd).effects = [.relay p frame.shortFrame] := by
    intro p hp
    obtain ⟨hmem, hfriend⟩ := List.mem_filter.mp hp
    have hfriend : s.tables.IsFriend frame.srcNameStr p.name := of_decide_eq_true hfriend
    refine effects_procSendMsg2One_of_checkSucceeds srcFd hnames hmem ?_
    rw [← List.takeWhile_append_dropWhile (p := checkReturns s frame) (l := s.g_pList)] at hmem
    rcases List.mem_append.mp hmem with hbefore | hbehind
    · exact (hreach.right p hbefore).mpr hfriend
    · exact absurd hfriend (hreach.reach p hbehind)
  rw [sendEachOne, List.flatMap_congr hone, List.map_eq_flatMap]

/-! ## The two paths -/

/-- A group message makes the writes of the private messages exactly if the checks reach all
registered friends. -/
theorem groupSendAgrees_iff (s : ServerState) (frame : MsgData) (pcDesName : CStr) (srcFd : ℕ)
    (hnames : (s.g_pList.map Node.name).Nodup) :
    GroupSendAgrees s frame pcDesName srcFd ↔ ChecksReach s frame := by
  constructor
  · intro hagrees
    exact (relayedOnce_iff_checksReach pcDesName srcFd hnames).mp hagrees.once
  · intro hreach
    have honce := (relayedOnce_iff_checksReach pcDesName srcFd hnames).mpr hreach
    exact ⟨honce.trans (sendEachOne_of_checksReach srcFd hnames hreach).symm, honce⟩

/-- Exact look-ups reach everybody. -/
theorem checksReach_of_exact (hexact : FriendLookupsExact s frame) : ChecksReach s frame := by
  have hcheck : ∀ p ∈ s.g_pList, checkReciverIsFriend s.mysql s.tables frame p.name =
      some (if s.tables.IsFriend frame.srcNameStr p.name then .success else .failed) :=
    fun p hp => hexact p.name (.inr ⟨p, hp, rfl⟩)
  have hreturns : ∀ p ∈ s.g_pList, checkReturns s frame p = true := fun p hp => by
    rw [checkReturns, hcheck p hp, Option.isSome_some]
  constructor
  · intro p hp
    rw [checkSucceeds, hcheck p (List.takeWhile_subset _ hp)]
    by_cases hfriend : s.tables.IsFriend frame.srcNameStr p.name <;> simp [hfriend]
  · intro p hp
    rw [List.dropWhile_eq_nil_iff.mpr hreturns] at hp
    exact absurd hp List.not_mem_nil

/-- "a" sends to all; "b" is a friend, "c" is not. -/
theorem groupSendAgrees_plain :
    GroupSendAgrees
      ⟨Mysql.reference, ⟨[], [(utf8 "a", utf8 "b")], []⟩, [⟨lit "c", 6⟩, ⟨lit "b", 5⟩], ⟨0, 0, 0⟩⟩
      (MsgData.make .sendAll (lit "a") (lit "") (lit "hello")) (lit "") 4 := by
  refine (groupSendAgrees_iff _ _ _ _ (by decide +kernel)).mpr (checksReach_of_exact ?_)
  exact friendLookupsExact_of_documented Mysql.reference_documented (by decide +kernel)
    (by decide +kernel) (by decide +kernel)

/-- A registered name with a quote makes the check fail in MySQL; the process ends before the
message comes to the friend behind it. -/
theorem not_groupSendAgrees :
    ¬ ∀ (s : ServerState) (frame : MsgData) (pcDesName : CStr) (srcFd : ℕ),
      (s.g_pList.map Node.name).Nodup → GroupSendAgrees s frame pcDesName srcFd := by
  intro h
  let s : ServerState :=
    ⟨Mysql.reference, ⟨[], [(utf8 "a", utf8 "b")], []⟩, [⟨lit "c'", 6⟩, ⟨lit "b", 5⟩], ⟨0, 0, 0⟩⟩
  let frame := MsgData.make .sendAll (lit "a") (lit "") (lit "hello")
  have hagrees := h s frame (lit "") 4 (by decide +kernel)
  have hone : sendEachOne s frame 4 (registeredFriends s frame) =
      [.relay ⟨lit "b", 5⟩ frame.shortFrame] := by
    decide +kernel
  have hall : (procSendMsg2All s frame (lit "") 4).effects = [] := by
    decide +kernel
  have hsame := hall.symm.trans (hagrees.writes.trans hone)
  simp at hsame

end ChatRoom
