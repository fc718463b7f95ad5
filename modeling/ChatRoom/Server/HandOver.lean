import ChatRoom.Support.CString
import ChatRoom.Support.StepSystem

/-!
# Handing a connection over to its thread

`acceptClientConnect` fills a local `USER_INFO_S` and gives its address to the thread that it
creates; every call uses the same place.  The thread reads name and descriptor from there when it
gets to run, and nobody waits for that.
-/

namespace ChatRoom

open CString StepSystem

/-- `USER_INFO_S`. -/
structure UserInfo where
  name : CStr
  fd : ℕ
deriving DecidableEq

/-- How far `acceptClientConnect` has got with a connection. -/
inductive Accepting where
  | idle
  | accepted (user : UserInfo)
  | nameWritten (user : UserInfo)
  | fdWritten (user : UserInfo)

/-- What a thread has read in `procClientRequest`, and so what its loop runs with. -/
inductive Reading where
  | nothing
  | nameRead (clientName : CStr)
  | serving (clientName : CStr) (cFd : ℕ)
deriving DecidableEq

/-- A thread, and the connection that it was created for. -/
structure ClientThread where
  user : UserInfo
  reading : Reading
deriving DecidableEq

/-- The record, the accept loop and the threads in the order in which they were created. -/
structure HandOver where
  stUserInfo : UserInfo
  accepting : Accepting
  threads : List ClientThread

inductive HandOverStep where
  | accept (user : UserInfo)
  | writeName
  | writeFd
  | create
  | readName (k : ℕ)
  | readFd (k : ℕ)

def handOverStep (s : HandOver) : HandOverStep → Option HandOver
  | .accept user =>
      match s.accepting with
      | .idle => some { s with accepting := .accepted user }
      | _ => none
  | .writeName =>
      match s.accepting with
      | .accepted user =>
          some { s with
            stUserInfo := { s.stUserInfo with name := user.name }
            accepting := .nameWritten user }
      | _ => none
  | .writeFd =>
      match s.accepting with
      | .nameWritten user =>
          some { s with
            stUserInfo := { s.stUserInfo with fd := user.fd }
            accepting := .fdWritten user }
      | _ => none
  | .create =>
      match s.accepting with
      | .fdWritten user =>
          some { s with accepting := .idle, threads := s.threads ++ [⟨user, .nothing⟩] }
      | _ => none
  | .readName k =>
      match s.threads[k]? with
      | some ⟨user, .nothing⟩ =>
          some { s with threads := s.threads.set k ⟨user, .nameRead s.stUserInfo.name⟩ }
      | _ => none
  | .readFd k =>
      match s.threads[k]? with
      | some ⟨user, .nameRead clientName⟩ =>
          some { s with threads := s.threads.set k ⟨user, .serving clientName s.stUserInfo.fd⟩ }
      | _ => none

/-- Before the first connection. -/
def HandOver.start (stUserInfo : UserInfo) : HandOver := ⟨stUserInfo, .idle, []⟩

/-- What the thread has read belongs to its own connection. -/
def ClientThread.ReadsOwn (t : ClientThread) : Prop :=
  match t.reading with
  | .nothing => True
  | .nameRead clientName => clientName = t.user.name
  | .serving clientName cFd => clientName = t.user.name ∧ cFd = t.user.fd

/-- Every thread runs with the name and the descriptor of the connection that it was created
for. -/
def HandOver.Separate (s : HandOver) : Prop := ∀ t ∈ s.threads, t.ReadsOwn

/-- The thread has still to read the name. -/
def ClientThread.needsName (t : ClientThread) : Bool :=
  match t.reading with
  | .nothing => true
  | .nameRead _ | .serving _ _ => false

/-- The thread has still to read the descriptor. -/
def ClientThread.needsFd (t : ClientThread) : Bool :=
  match t.reading with
  | .nothing | .nameRead _ => true
  | .serving _ _ => false

/-- A field is written only when every thread that has still to read it belongs to a connection
with the same value in it. -/
def WaitsForReaders (s : HandOver) : HandOverStep → Prop
  | .writeName => ∀ user, s.accepting = .accepted user →
      ∀ t ∈ s.threads, t.needsName = true → t.user.name = user.name
  | .writeFd => ∀ user, s.accepting = .nameWritten user →
      ∀ t ∈ s.threads, t.needsFd = true → t.user.fd = user.fd
  | _ => True

instance (s : HandOver) : (a : HandOverStep) → Decidable (WaitsForReaders s a)
  | .writeName =>
      match h : s.accepting with
      | .accepted user =>
          decidable_of_iff (∀ t ∈ s.threads, t.needsName = true → t.user.name = user.name)
            (by simp [WaitsForReaders, h])
      | .idle | .nameWritten _ | .fdWritten _ => isTrue (by simp [WaitsForReaders, h])
  | .writeFd =>
      match h : s.accepting with
      | .nameWritten user =>
          decidable_of_iff (∀ t ∈ s.threads, t.needsFd = true → t.user.fd = user.fd)
            (by simp [WaitsForReaders, h])
      | .idle | .accepted _ | .fdWritten _ => isTrue (by simp [WaitsForReaders, h])
  | .accept _ | .create | .readName _ | .readFd _ => isTrue trivial

/-! ## The invariant -/

/-- The record holds what has been written for the connection in hand and what the threads have
still to read, and what they have read is their own. -/
structure HandOver.Faithful (s : HandOver) : Prop where
  nameWritten : ∀ user, s.accepting = .nameWritten user → s.stUserInfo.name = user.name
  fdWritten : ∀ user, s.accepting = .fdWritten user → s.stUserInfo = user
  name : ∀ t ∈ s.threads, t.needsName = true → s.stUserInfo.name = t.user.name
  fd : ∀ t ∈ s.threads, t.needsFd = true → s.stUserInfo.fd = t.user.fd
  own : s.Separate

theorem faithful_start (stUserInfo : UserInfo) : (HandOver.start stUserInfo).Faithful where
  nameWritten _ h := by cases h
  fdWritten _ h := by cases h
  name _ ht := absurd ht List.not_mem_nil
  fd _ ht := absurd ht List.not_mem_nil
  own _ ht := absurd ht List.not_mem_nil

/-- What a step needs, and what it does. -/
theorem handOverStep_cases {s s' : HandOver} {a : HandOverStep} (h : handOverStep s a = some s') :
    (∃ user, a = .accept user ∧ s' = { s with accepting := .accepted user }) ∨
    (∃ user, a = .writeName ∧ s.accepting = .accepted user ∧
      s' = { s with
        stUserInfo := { s.stUserInfo with name := user.name }
        accepting := .nameWritten user }) ∨
    (∃ user, a = .writeFd ∧ s.accepting = .nameWritten user ∧
      s' = { s with
        stUserInfo := { s.stUserInfo with fd := user.fd }
        accepting := .fdWritten user }) ∨
    (∃ user, a = .create ∧ s.accepting = .fdWritten user ∧
      s' = { s with accepting := .idle, threads := s.threads ++ [⟨user, .nothing⟩] }) ∨
    (∃ k user, a = .readName k ∧ s.threads[k]? = some ⟨user, .nothing⟩ ∧
      s' = { s with threads := s.threads.set k ⟨user, .nameRead s.stUserInfo.name⟩ }) ∨
    (∃ k user clientName, a = .readFd k ∧ s.threads[k]? = some ⟨user, .nameRead clientName⟩ ∧
      s' = { s with
        threads := s.threads.set k ⟨user, .serving clientName s.stUserInfo.fd⟩ }) := by
  cases a with
  | accept user =>
      simp only [handOverStep] at h
      split at h
      · exact .inl ⟨user, rfl, (Option.some.inj h).symm⟩
      · cases h
  | writeName =>
      simp only [handOverStep] at h
      split at h
      · exact .inr (.inl ⟨_, rfl, ‹_›, (Option.some.inj h).symm⟩)
      · cases h
  | writeFd =>
      simp only [handOverStep] at h
      split at h
      · exact .inr (.inr (.inl ⟨_, rfl, ‹_›, (Option.some.inj h).symm⟩))
      · cases h
  | create =>
      simp only [handOverStep] at h
      split at h
      · exact .inr (.inr (.inr (.inl ⟨_, rfl, ‹_›, (Option.some.inj h).symm⟩)))
      · cases h
  | readName k =>
      simp only [handOverStep] at h
      split at h
      · exact .inr (.inr (.inr (.inr (.inl ⟨k, _, rfl, ‹_›, (Option.some.inj h).symm⟩))))
      · cases h
  | readFd k =>
      simp only [handOverStep] at h
      split at h
      · exact .inr (.inr (.inr (.inr (.inr ⟨k, _, _, rfl, ‹_›, (Option.some.inj h).symm⟩))))
      · cases h

/-! ## The names -/

/-- The connection in hand. -/
def Accepting.user? : Accepting → Option UserInfo
  | .idle => none
  | .accepted user | .nameWritten user | .fdWritten user => some user

/-- The name of a connection has been written into the record. -/
def HandOver.Recorded (s : HandOver) : Prop :=
  s.threads ≠ [] ∨ ∃ user, s.accepting = .nameWritten user ∨ s.accepting = .fdWritten user

/-- The name that a thread has read. -/
def Reading.clientName? : Reading → Option CStr
  | .nothing => none
  | .nameRead clientName | .serving clientName _ => some clientName

/-- The names in hand, in the record and in the threads have the property. -/
structure HandOver.Names (P : CStr → Prop) (s : HandOver) : Prop where
  accepting : ∀ user ∈ s.accepting.user?, P user.name
  record : s.Recorded → P s.stUserInfo.name
  read : ∀ t ∈ s.threads, ∀ clientName ∈ t.reading.clientName?, P clientName

theorem names_start (P : CStr → Prop) (stUserInfo : UserInfo) :
    (HandOver.start stUserInfo).Names P where
  accepting _ h := nomatch h
  record := by
    rintro (h | ⟨user, h | h⟩)
    · exact absurd rfl h
    · cases h
    · cases h
  read _ ht := absurd ht List.not_mem_nil

theorem HandOver.Names.mono {P Q : CStr → Prop} (hPQ : ∀ name, P name → Q name) {s : HandOver}
    (h : s.Names P) : s.Names Q where
  accepting user huser := hPQ _ (h.accepting user huser)
  record hrecorded := hPQ _ (h.record hrecorded)
  read t ht clientName hread := hPQ _ (h.read t ht clientName hread)

/-- Whichever record a thread finds, the names in it have been accepted. -/
theorem names_handOverStep {P : CStr → Prop} {s s' : HandOver} {a : HandOverStep} (h : s.Names P)
    (haccept : ∀ user, a = .accept user → P user.name) (hstep : handOverStep s a = some s') :
    s'.Names P := by
  obtain ⟨user, rfl, rfl⟩ | ⟨user, rfl, haccepted, rfl⟩ | ⟨user, rfl, hwritten, rfl⟩ |
    ⟨user, rfl, hwritten, rfl⟩ | ⟨k, user, rfl, hk, rfl⟩ | ⟨k, user, clientName, rfl, hk, rfl⟩ :=
      handOverStep_cases hstep
  · refine ⟨fun u hu => ?_, fun hrecorded => ?_, h.read⟩
    · obtain rfl := Option.some.inj hu
      exact haccept user rfl
    · rcases hrecorded with hthreads | ⟨u, hu | hu⟩
      · exact h.record (.inl hthreads)
      · cases hu
      · cases hu
  · have huser : P user.name := h.accepting user (by rw [haccepted]; rfl)
    refine ⟨fun u hu => ?_, fun _ => huser, h.read⟩
    obtain rfl := Option.some.inj hu
    exact huser
  · have huser : P user.name := h.accepting user (by rw [hwritten]; rfl)
    refine ⟨fun u hu => ?_, fun _ => h.record (.inr ⟨user, .inl hwritten⟩), h.read⟩
    obtain rfl := Option.some.inj hu
    exact huser
  · refine ⟨nofun, fun _ => h.record (.inr ⟨user, .inr hwritten⟩), fun t ht => ?_⟩
    rcases List.mem_append.mp ht with ht | ht
    · exact h.read t ht
    · rw [List.mem_singleton.mp ht]
      exact nofun
  · have hthreads : s.threads ≠ [] := List.ne_nil_of_mem (List.mem_of_getElem? hk)
    refine ⟨h.accepting, fun _ => h.record (.inl hthreads), fun t ht name hname => ?_⟩
    rcases List.mem_or_eq_of_mem_set ht with ht | rfl
    · exact h.read t ht name hname
    · obtain rfl := Option.some.inj hname
      exact h.record (.inl hthreads)
  · have hmem := List.mem_of_getElem? hk
    refine ⟨h.accepting, fun _ => h.record (.inl (List.ne_nil_of_mem hmem)),
      fun t ht name hname => ?_⟩
    rcases List.mem_or_eq_of_mem_set ht with ht | rfl
    · exact h.read t ht name hname
    · exact h.read _ hmem name hname

/-! ## Each thread with its own connection -/

section
variable {s : HandOver} (h : s.Faithful)
include h

/-- The name of the connection in hand is stored; no thread waits for another one. -/
theorem HandOver.Faithful.writeName {user : UserInfo}
    (hwaits : ∀ t ∈ s.threads, t.needsName = true → t.user.name = user.name) :
    { s with
      stUserInfo := { s.stUserInfo with name := user.name }
      accepting := .nameWritten user }.Faithful where
  nameWritten u hu := by
    cases hu
    rfl
  fdWritten u hu := by cases hu
  name t ht hneeds := (hwaits t ht hneeds).symm
  fd := h.fd
  own := h.own

/-- The descriptor completes the record of the connection in hand. -/
theorem HandOver.Faithful.writeFd {user : UserInfo} (hwritten : s.accepting = .nameWritten user)
    (hwaits : ∀ t ∈ s.threads, t.needsFd = true → t.user.fd = user.fd) :
    { s with
      stUserInfo := { s.stUserInfo with fd := user.fd }
      accepting := .fdWritten user }.Faithful where
  nameWritten u hu := by cases hu
  fdWritten u hu := by
    cases hu
    have hname := h.nameWritten user hwritten
    simp only [hname]
  name := h.name
  fd t ht hneeds := (hwaits t ht hneeds).symm
  own := h.own

/-- A new thread finds its connection in the record. -/
theorem HandOver.Faithful.create {user : UserInfo} (hwritten : s.accepting = .fdWritten user) :
    { s with
      accepting := .idle
      threads := s.threads ++ [ClientThread.mk user .nothing] }.Faithful := by
  have hrecord := h.fdWritten user hwritten
  refine ⟨nofun, nofun, fun t ht hneeds => ?_, fun t ht hneeds => ?_, fun t ht => ?_⟩
  all_goals rcases List.mem_append.mp ht with ht | ht
  · exact h.name t ht hneeds
  · rw [List.mem_singleton.mp ht, hrecord]
  · exact h.fd t ht hneeds
  · rw [List.mem_singleton.mp ht, hrecord]
  · exact h.own t ht
  · rw [List.mem_singleton.mp ht]
    trivial

/-- A thread that has got on, with values of its own. -/
theorem HandOver.Faithful.setThread {k : ℕ} {t' : ClientThread} (hname : t'.needsName = false)
    (hfd : t'.needsFd = true → s.stUserInfo.fd = t'.user.fd) (hown : t'.ReadsOwn) :
    { s with threads := s.threads.set k t' }.Faithful := by
  refine ⟨h.nameWritten, h.fdWritten, fun t ht hneeds => ?_, fun t ht hneeds => ?_, fun t ht => ?_⟩
  all_goals rcases List.mem_or_eq_of_mem_set ht with ht | rfl
  · exact h.name t ht hneeds
  · rw [hname] at hneeds
    cases hneeds
  · exact h.fd t ht hneeds
  · exact hfd hneeds
  · exact h.own t ht
  · exact hown

end

theorem faithful_handOverStep (s : HandOver) (a : HandOverStep) (s' : HandOver) (h : s.Faithful)
    (hwaits : WaitsForReaders s a) (hstep : handOverStep s a = some s') : s'.Faithful := by
  obtain ⟨user, rfl, rfl⟩ | ⟨user, rfl, haccepted, rfl⟩ | ⟨user, rfl, hwritten, rfl⟩ |
    ⟨user, rfl, hwritten, rfl⟩ | ⟨k, user, rfl, hk, rfl⟩ | ⟨k, user, clientName, rfl, hk, rfl⟩ :=
      handOverStep_cases hstep
  · exact ⟨nofun, nofun, h.name, h.fd, h.own⟩
  · exact h.writeName (hwaits user haccepted)
  · exact h.writeFd hwritten (hwaits user hwritten)
  · exact h.create hwritten
  · have hmem := List.mem_of_getElem? hk
    have hname : s.stUserInfo.name = user.name := h.name _ hmem rfl
    have hfd : s.stUserInfo.fd = user.fd := h.fd _ hmem rfl
    exact h.setThread rfl (fun _ => hfd) hname
  · have hmem := List.mem_of_getElem? hk
    have hname : clientName = user.name := h.own _ hmem
    have hfd : s.stUserInfo.fd = user.fd := h.fd _ hmem rfl
    exact h.setThread rfl nofun ⟨hname, hfd⟩

/-! ## All runs -/

/-- Every thread runs with the name and the descriptor of its own connection, in every state of a
run in which no field of the record is overwritten before all threads have read it. -/
theorem everyState_separate (stUserInfo : UserInfo) {steps : List HandOverStep}
    (hwaits : EveryStep handOverStep WaitsForReaders (HandOver.start stUserInfo) steps) :
    EveryState handOverStep HandOver.Separate (HandOver.start stUserInfo) steps :=
  everyState_of_guarded faithful_handOverStep (fun _ h => h.own) (faithful_start stUserInfo) hwaits

/-- A thread that has still to read the name reads a wrong one when it runs next, if the name has
been overwritten with another. -/
theorem not_separate_of_overwritten {s : HandOver} {k : ℕ} {user : UserInfo}
    (hk : s.threads[k]? = some ⟨user, .nothing⟩) (hname : s.stUserInfo.name ≠ user.name) :
    ¬ EveryState handOverStep HandOver.Separate s [.readName k] := by
  intro h
  have hstep : handOverStep s (.readName k) =
      some { s with threads := s.threads.set k ⟨user, .nameRead s.stUserInfo.name⟩ } := by
    simp only [handOverStep, hk]
  obtain ⟨hlt, -⟩ := List.getElem?_eq_some_iff.mp hk
  exact hname ((h.2 _ hstep).head _ (List.mem_set hlt _))

/-- The descriptor that the thread's loop reads from. -/
def ClientThread.servedFd (t : ClientThread) : Option ℕ :=
  match t.reading with
  | .serving _ cFd => some cFd
  | _ => none

theorem ClientThread.ReadsOwn.servedFd {t : ClientThread} (h : t.ReadsOwn) {cFd : ℕ}
    (hserved : t.servedFd = some cFd) : cFd = t.user.fd := by
  obtain ⟨user, reading⟩ := t
  cases reading with
  | nothing | nameRead _ => cases hserved
  | serving clientName fd =>
      rw [← Option.some.inj hserved]
      exact h.2

/-- The descriptors that are served are those of the connections, in order. -/
theorem servedFds_sublist {threads : List ClientThread} (h : ∀ t ∈ threads, t.ReadsOwn) :
    (threads.filterMap ClientThread.servedFd).Sublist (threads.map (·.user.fd)) := by
  induction threads with
  | nil => exact List.Sublist.refl _
  | cons t rest ih =>
      have hrest := ih fun q hq => h q (List.mem_cons_of_mem t hq)
      rcases hserved : t.servedFd with - | cFd
      · rw [List.filterMap_cons_none hserved]
        exact hrest.cons _
      · rw [List.filterMap_cons_some hserved, (h t List.mem_cons_self).servedFd hserved]
        exact hrest.cons_cons _

/-- On connections with different descriptors, no two threads serve the same one. -/
theorem HandOver.Separate.nodup_servedFds {s : HandOver} (h : s.Separate)
    (hfds : (s.threads.map (·.user.fd)).Nodup) :
    (s.threads.filterMap ClientThread.servedFd).Nodup :=
  hfds.sublist (servedFds_sublist h)

/-- "a" connects and its thread reads both fields before "b" connects. -/
theorem everyState_separate_inTurn :
    EveryState handOverStep HandOver.Separate (HandOver.start ⟨lit "", 0⟩)
      [.accept ⟨lit "a", 5⟩, .writeName, .writeFd, .create, .readName 0, .readFd 0,
        .accept ⟨lit "b", 6⟩, .writeName, .writeFd, .create, .readName 1, .readFd 1] := by
  have hwaits : EveryStep handOverStep WaitsForReaders (HandOver.start ⟨lit "", 0⟩)
      [.accept ⟨lit "a", 5⟩, .writeName, .writeFd, .create, .readName 0, .readFd 0,
        .accept ⟨lit "b", 6⟩, .writeName, .writeFd, .create, .readName 1, .readFd 1] := by
    decide +kernel
  exact everyState_separate ⟨lit "", 0⟩ hwaits

/-- "b" connects before the thread of "a" has run. -/
theorem not_everyState_separate :
    ¬ ∀ (stUserInfo : UserInfo) (steps : List HandOverStep),
      EveryState handOverStep HandOver.Separate (HandOver.start stUserInfo) steps := by
  intro h
  have hsecond := h ⟨lit "", 0⟩ [.accept ⟨lit "a", 5⟩, .writeName, .writeFd, .create,
    .accept ⟨lit "b", 6⟩, .writeName, .writeFd, .create, .readName 0, .readFd 0]
  have hserves := hsecond.last rfl ⟨⟨lit "a", 5⟩, .serving (lit "b") 6⟩ List.mem_cons_self
  exact absurd hserves.1 (by decide)

end ChatRoom
