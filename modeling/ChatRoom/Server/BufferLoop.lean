import ChatRoom.Server.Faults

/-!
# The message buffer of a session

`procClientRequest` allocates one buffer, clears it, reads a record into it and hands it to the
handler of the record, over and over, and frees it when the stream has ended.  One of the nine
handlers frees it as well.  The buffer carries a flag that the loop owns it, and every access is
recorded with the flag at that time.
-/

namespace ChatRoom

open CString SqlText

/-! ## The buffer and the loop -/

/-- What the loop does with its buffer: it clears it, reads into it, or hands it to the entry of
`astProcClientOptFunc` with the given index. -/
inductive BufferAccess where
  | clear
  | read
  | hand (index : ℕ)
deriving DecidableEq

/-- The buffer `pcMsgBuf` of one session. -/
structure MsgBuf where
  /-- The buffer is allocated, and the loop may use it. -/
  owned : Bool
  /-- How often it was freed. -/
  frees : ℕ
  /-- The accesses so far, each with the flag at that time. -/
  accesses : List (BufferAccess × Bool)
deriving DecidableEq

namespace MsgBuf

/-- The buffer that the session starts with. -/
def malloc : MsgBuf := ⟨true, 0, []⟩

def access (buf : MsgBuf) (a : BufferAccess) : MsgBuf :=
  { buf with accesses := buf.accesses ++ [(a, buf.owned)] }

def free (buf : MsgBuf) : MsgBuf :=
  { buf with owned := false, frees := buf.frees + 1 }

/-- The loop owned the buffer at each access, and each index was inside the table. -/
def Sound (buf : MsgBuf) : Prop :=
  ∀ a owned, (a, owned) ∈ buf.accesses →
    owned = true ∧ ∀ index, a = .hand index → index < 9

/-- All accesses were sound, and the buffer was freed once. -/
def Released (buf : MsgBuf) : Prop := buf.Sound ∧ buf.frees = 1

end MsgBuf

/-- A record that the session receives, with the tables, the user list, the time and the
descriptors without another end that its handler finds. -/
structure ClientRecord where
  tables : Tables
  g_pList : Linklist
  now : Clock
  gone : ℕ → Bool
  pcMsgBuf : MsgData

/-- One record: the buffer afterwards, and whether the loop goes on.  It does not when a handler
ends the process, nor after a call through memory outside the table or a name that was copied
beyond the end of its array. -/
def recordTurn (m : Mysql) (cFd : ℕ) (buf : MsgBuf) (r : ClientRecord) : MsgBuf × Bool :=
  let filled := (buf.access .clear).access .read
  let handed := filled.access (.hand r.pcMsgBuf.stMsgHead.enMsgType.toNat)
  match procClientRequest ⟨m, r.tables, r.g_pList, r.now⟩ cFd r.pcMsgBuf with
  | .skipped => (filled, true)
  | .called enMsgType result =>
      -- the receiver's name is copied before the table is used
      if DesNameFits r.pcMsgBuf then
        (if result.freed then handed.free else handed,
          decide (SrcNameFits r.g_pList r.pcMsgBuf enMsgType ∧ result.exited = false ∧
            ∀ e ∈ result.effects, r.gone e.fd = false))
      else (filled, false)
  | .outOfTable => (if DesNameFits r.pcMsgBuf then handed else filled, false)

/-- The loop on the records, and on the end of the stream after them: `read` returns 0 into the
cleared buffer, the loop is left and the buffer freed. -/
def clientRequestLoop (m : Mysql) (cFd : ℕ) : MsgBuf → List ClientRecord → MsgBuf
  | buf, [] => ((buf.access .clear).access .read).free
  | buf, r :: records =>
      let turn := recordTurn m cFd buf r
      if turn.2 then clientRequestLoop m cFd turn.1 records else turn.1

/-- The record leaves the loop its buffer: its body says "exit", or its type is one of the nine and
it is a harmless request of this type. -/
def ClientRecord.Keeps (m : Mysql) (incomplete : Bytes → Prop) (cFd : ℕ) (r : ClientRecord) :
    Prop :=
  r.pcMsgBuf.pDataStr = lit "exit" ∨
    ∃ enMsgType, MsgType.ofCode? r.pcMsgBuf.stMsgHead.enMsgType = some enMsgType ∧
      HarmlessRequest incomplete ⟨m, r.tables, r.g_pList, r.now⟩ cFd r.gone r.pcMsgBuf enMsgType

/-- The table has nine entries. -/
theorem MsgType.isSome_ofCode?_iff (code : BitVec 32) :
    (MsgType.ofCode? code).isSome ↔ code.toNat < 9 := by
  simp [MsgType.ofCode?]

/-! ## Accesses -/

namespace MsgBuf

@[simp] theorem access_owned (buf : MsgBuf) (a : BufferAccess) :
    (buf.access a).owned = buf.owned := rfl

@[simp] theorem access_frees (buf : MsgBuf) (a : BufferAccess) :
    (buf.access a).frees = buf.frees := rfl

@[simp] theorem access_accesses (buf : MsgBuf) (a : BufferAccess) :
    (buf.access a).accesses = buf.accesses ++ [(a, buf.owned)] := rfl

@[simp] theorem free_owned (buf : MsgBuf) : buf.free.owned = false := rfl

@[simp] theorem free_frees (buf : MsgBuf) : buf.free.frees = buf.frees + 1 := rfl

@[simp] theorem free_accesses (buf : MsgBuf) : buf.free.accesses = buf.accesses := rfl

theorem sound_malloc : malloc.Sound := by
  intro a owned hmem
  simp [malloc] at hmem

/-- An access is sound if those before it were, the loop owns the buffer and an index is in the
table. -/
theorem sound_access_iff {buf : MsgBuf} {a : BufferAccess} :
    (buf.access a).Sound ↔
      buf.Sound ∧ buf.owned = true ∧ ∀ index, a = .hand index → index < 9 := by
  simp only [Sound, access_accesses, List.mem_append, List.mem_singleton, Prod.mk.injEq]
  constructor
  · intro h
    exact ⟨fun b owned hmem => h b owned (.inl hmem), h a buf.owned (.inr ⟨rfl, rfl⟩)⟩
  · rintro ⟨hbefore, hnow⟩ b owned (hmem | ⟨rfl, rfl⟩)
    · exact hbefore b owned hmem
    · exact hnow

@[simp] theorem sound_free_iff {buf : MsgBuf} : buf.free.Sound ↔ buf.Sound := Iff.rfl

/-- Clearing and reading need nothing but the buffer. -/
theorem sound_filled_iff {buf : MsgBuf} :
    ((buf.access .clear).access .read).Sound ↔ buf.Sound ∧ buf.owned = true := by
  simp only [sound_access_iff, access_owned, reduceCtorEq, false_implies, implies_true, and_true,
    and_assoc, and_self]

/-- The buffer is the loop's, was never freed, and all accesses were sound. -/
structure Intact (buf : MsgBuf) : Prop where
  sound : buf.Sound
  owned : buf.owned = true
  frees : buf.frees = 0

theorem intact_malloc : malloc.Intact := ⟨sound_malloc, rfl, rfl⟩

end MsgBuf

/-! ## One record -/

section
variable {m : Mysql} {incomplete : Bytes → Prop} {cFd : ℕ} {buf : MsgBuf} {r : ClientRecord}

theorem recordTurn_skipped (hexit : r.pcMsgBuf.pDataStr = lit "exit") :
    recordTurn m cFd buf r = ((buf.access .clear).access .read, true) := by
  simp only [recordTurn, procClientRequest, if_pos hexit]

theorem recordTurn_outOfTable (hexit : r.pcMsgBuf.pDataStr ≠ lit "exit")
    (htype : MsgType.ofCode? r.pcMsgBuf.stMsgHead.enMsgType = none) :
    let filled := (buf.access .clear).access .read
    recordTurn m cFd buf r =
      (if DesNameFits r.pcMsgBuf then
          filled.access (.hand r.pcMsgBuf.stMsgHead.enMsgType.toNat)
        else filled, false) := by
  simp only [recordTurn, procClientRequest, if_neg hexit, htype]

theorem recordTurn_called {enMsgType : MsgType}
    (hexit : r.pcMsgBuf.pDataStr ≠ lit "exit")
    (htype : MsgType.ofCode? r.pcMsgBuf.stMsgHead.enMsgType = some enMsgType) :
    let filled := (buf.access .clear).access .read
    let handed := filled.access (.hand r.pcMsgBuf.stMsgHead.enMsgType.toNat)
    let result := astProcClientOptFunc enMsgType ⟨m, r.tables, r.g_pList, r.now⟩ r.pcMsgBuf
      r.pcMsgBuf.desNameStr cFd
    recordTurn m cFd buf r =
      if DesNameFits r.pcMsgBuf then
        (if result.freed then handed.free else handed,
          decide (SrcNameFits r.g_pList r.pcMsgBuf enMsgType ∧ result.exited = false ∧
            ∀ e ∈ result.effects, r.gone e.fd = false))
      else (filled, false) := by
  simp only [recordTurn, procClientRequest, if_neg hexit, htype]

/-- Nothing that a record does makes an unsound access undone. -/
theorem sound_of_sound_recordTurn (h : (recordTurn m cFd buf r).1.Sound) :
    buf.Sound ∧ buf.owned = true := by
  rw [← MsgBuf.sound_filled_iff]
  by_cases hexit : r.pcMsgBuf.pDataStr = lit "exit"
  · rw [recordTurn_skipped hexit] at h
    exact h
  · rcases htype : MsgType.ofCode? r.pcMsgBuf.stMsgHead.enMsgType with - | enMsgType
    · rw [recordTurn_outOfTable hexit htype] at h
      split_ifs at h
      · exact (MsgBuf.sound_access_iff.mp h).1
      · exact h
    · rw [recordTurn_called hexit htype] at h
      split_ifs at h
      · exact (MsgBuf.sound_access_iff.mp (MsgBuf.sound_free_iff.mp h)).1
      · exact (MsgBuf.sound_access_iff.mp h).1
      · exact h

/-- The handing over is sound for an index in the table. -/
theorem intact_handed (hbuf : buf.Intact)
    (hindex : r.pcMsgBuf.stMsgHead.enMsgType.toNat < 9) :
    (((buf.access .clear).access .read).access
      (.hand r.pcMsgBuf.stMsgHead.enMsgType.toNat)).Intact where
  sound := MsgBuf.sound_access_iff.mpr ⟨MsgBuf.sound_filled_iff.mpr ⟨hbuf.sound, hbuf.owned⟩,
    hbuf.owned, fun _ h => BufferAccess.hand.inj h ▸ hindex⟩
  owned := hbuf.owned
  frees := hbuf.frees

variable (hm : m.RejectsOnly incomplete)
include hm

/-- A record that keeps the buffer leaves it intact, and the loop goes on. -/
theorem recordTurn_of_keeps (hbuf : buf.Intact) (hkeeps : r.Keeps m incomplete cFd) :
    (recordTurn m cFd buf r).1.Intact ∧ (recordTurn m cFd buf r).2 = true := by
  by_cases hexit : r.pcMsgBuf.pDataStr = lit "exit"
  · rw [recordTurn_skipped hexit]
    exact ⟨⟨MsgBuf.sound_filled_iff.mpr ⟨hbuf.sound, hbuf.owned⟩, hbuf.owned, hbuf.frees⟩, rfl⟩
  · obtain ⟨enMsgType, htype, hrequest⟩ := hkeeps.resolve_left hexit
    have hindex := (MsgType.isSome_ofCode?_iff _).mp (Option.isSome_iff_exists.mpr ⟨_, htype⟩)
    obtain ⟨hdes, hsrc, hreturns, hkept, hopen⟩ := (harmlessRequest_iff hm enMsgType r.tables
      r.g_pList r.now cFd r.gone r.pcMsgBuf).mpr hrequest
    rw [recordTurn_called hexit htype, if_pos hdes, if_neg (by simpa using hkept)]
    exact ⟨intact_handed hbuf hindex, decide_eq_true ⟨hsrc, hreturns, hopen⟩⟩

/-- A record that does not keep the buffer stops the loop before the buffer is freed or with an
index outside the table, or takes the buffer away. -/
theorem recordTurn_of_not_keeps (hbuf : buf.Intact) (hkeeps : ¬ r.Keeps m incomplete cFd) :
    (recordTurn m cFd buf r).2 = false ∧ ¬ (recordTurn m cFd buf r).1.Released ∨
      (recordTurn m cFd buf r).2 = true ∧ (recordTurn m cFd buf r).1.owned = false := by
  have hexit : r.pcMsgBuf.pDataStr ≠ lit "exit" := fun hexit => hkeeps (.inl hexit)
  -- the loop has stopped before anything was freed
  have hunfreed : ∀ {b : MsgBuf}, b.frees = buf.frees → ¬ b.Released := by
    intro b hfrees hreleased
    have hzero := hfrees.trans hbuf.frees
    exact absurd (hreleased.2.symm.trans hzero) (by decide)
  rcases htype : MsgType.ofCode? r.pcMsgBuf.stMsgHead.enMsgType with - | enMsgType
  · rw [recordTurn_outOfTable hexit htype]
    refine .inl ⟨rfl, hunfreed ?_⟩
    dsimp only
    split_ifs <;> rfl
  · have hharm : ¬ HarmlessRequest incomplete ⟨m, r.tables, r.g_pList, r.now⟩ cFd r.gone
        r.pcMsgBuf enMsgType := fun hharmless => hkeeps (.inr ⟨enMsgType, htype, hharmless⟩)
    replace hharm := (harmlessRequest_iff hm enMsgType r.tables r.g_pList r.now cFd r.gone
      r.pcMsgBuf).not.mpr hharm
    rw [recordTurn_called hexit htype]
    by_cases hdes : DesNameFits r.pcMsgBuf
    · rw [if_pos hdes]
      by_cases hkept : (astProcClientOptFunc enMsgType ⟨m, r.tables, r.g_pList, r.now⟩ r.pcMsgBuf
          r.pcMsgBuf.desNameStr cFd).freed = false
      · rw [if_neg (by simpa using hkept)]
        refine .inl ⟨decide_eq_false fun hgoes => ?_, hunfreed rfl⟩
        exact hharm ⟨hdes, hgoes.1, hgoes.2.1, hkept, hgoes.2.2⟩
      · -- the handler of LOGOUT does nothing that could stop the loop
        obtain rfl := (freed_iff enMsgType _ _ _ _).mp (by simpa using hkept)
        have hgoes : SrcNameFits r.g_pList r.pcMsgBuf .logout ∧
            (astProcClientOptFunc .logout ⟨m, r.tables, r.g_pList, r.now⟩ r.pcMsgBuf
              r.pcMsgBuf.desNameStr cFd).exited = false ∧
            ∀ e ∈ (astProcClientOptFunc .logout ⟨m, r.tables, r.g_pList, r.now⟩ r.pcMsgBuf
              r.pcMsgBuf.desNameStr cFd).effects, r.gone e.fd = false :=
          ⟨trivial, rfl, fun e he => absurd he List.not_mem_nil⟩
        rw [if_pos (by simpa using hkept)]
        exact .inr ⟨decide_eq_true hgoes, rfl⟩
    · rw [if_neg hdes]
      exact .inl ⟨rfl, hunfreed rfl⟩

end

/-! ## All records -/

section
variable {m : Mysql} {incomplete : Bytes → Prop} {cFd : ℕ}

/-- A loop that has lost its buffer uses it again at once. -/
theorem sound_of_sound_loop {buf : MsgBuf} {records : List ClientRecord}
    (h : (clientRequestLoop m cFd buf records).Sound) : buf.Sound ∧ buf.owned = true := by
  induction records generalizing buf with
  | nil => exact MsgBuf.sound_filled_iff.mp (MsgBuf.sound_free_iff.mp h)
  | cons r records ih =>
      simp only [clientRequestLoop] at h
      split at h
      · exact sound_of_sound_recordTurn (ih h).1
      · exact sound_of_sound_recordTurn h

variable (hm : m.RejectsOnly incomplete)
include hm

theorem released_loop_iff {buf : MsgBuf} (hbuf : buf.Intact) (records : List ClientRecord) :
    (clientRequestLoop m cFd buf records).Released ↔ ∀ r ∈ records, r.Keeps m incomplete cFd := by
  induction records generalizing buf with
  | nil =>
      have hreleased : (clientRequestLoop m cFd buf []).Released :=
        ⟨MsgBuf.sound_filled_iff.mpr ⟨hbuf.sound, hbuf.owned⟩, by
          simp [clientRequestLoop, hbuf.frees]⟩
      simpa using hreleased
  | cons r records ih =>
      rw [List.forall_mem_cons]
      by_cases hkeeps : r.Keeps m incomplete cFd
      · obtain ⟨hintact, hgoes⟩ := recordTurn_of_keeps hm hbuf hkeeps
        simp only [clientRequestLoop, hgoes, reduceIte, ih hintact, hkeeps, true_and]
      · have hlost : ¬ (clientRequestLoop m cFd buf (r :: records)).Released := by
          intro hreleased
          rcases recordTurn_of_not_keeps hm hbuf hkeeps with
            ⟨hstops, hnot⟩ | ⟨hgoes, howned⟩
          · rw [clientRequestLoop, if_neg (by simp [hstops])] at hreleased
            exact hnot hreleased
          · rw [clientRequestLoop, if_pos hgoes] at hreleased
            have hstill := (sound_of_sound_loop hreleased.1).2
            simp [howned] at hstill
        exact ⟨fun h => absurd h hlost, fun h => absurd h.1 hkeeps⟩

/-- The loop uses a buffer that is its own, inside the table, and frees it once, exactly if every
record keeps the buffer. -/
theorem clientRequestLoop_released_iff (records : List ClientRecord) :
    (clientRequestLoop m cFd MsgBuf.malloc records).Released ↔
      ∀ r ∈ records, r.Keeps m incomplete cFd :=
  released_loop_iff hm MsgBuf.intact_malloc records

end

/-- A session that sends one friend request and goes away. -/
theorem clientRequestLoop_released_addFriend :
    (clientRequestLoop Mysql.reference 5 MsgBuf.malloc [⟨⟨[], [], []⟩, [⟨lit "a", 5⟩], ⟨0, 0, 0⟩,
      fun _ => false, MsgData.make .addFriend (lit "a") (lit "b") (lit "")⟩]).Released := by
  refine (clientRequestLoop_released_iff reference_rejectsOnly _).mpr fun r hr => ?_
  obtain rfl := List.mem_singleton.mp hr
  refine .inr ⟨.addFriend, rfl, by decide, trivial, by decide, fun text htext => ?_,
    fun _ _ => rfl⟩
  rw [List.mem_singleton.mp htext]
  decide +kernel

/-- After a LOGOUT the loop clears, reads into and frees a buffer that is freed already. -/
theorem not_clientRequestLoop_released :
    ¬ ∀ (m : Mysql) (incomplete : Bytes → Prop) (cFd : ℕ) (records : List ClientRecord),
      m.RejectsOnly incomplete →
        (clientRequestLoop m cFd MsgBuf.malloc records).Released := by
  intro h
  let r : ClientRecord := ⟨⟨[], [], []⟩, [⟨lit "a", 5⟩], ⟨0, 0, 0⟩, fun _ => false,
    MsgData.make .logout (lit "a") (lit "") (lit "")⟩
  have htwice : (clientRequestLoop Mysql.reference 5 MsgBuf.malloc [r]).frees = 2 := by
    decide +kernel
  have honce := (h Mysql.reference _ 5 [r] reference_rejectsOnly).2
  exact absurd (htwice.symm.trans honce) (by decide)

end ChatRoom
