import ChatRoom.Server.Effects
import ChatRoom.Support.StepSystem
import Mathlib.Data.List.Nodup

/-!
# Sessions, descriptors and the list of online users

The main thread accepts a connection, reads the user name and inserts a node; a
handler thread serves the connection, and when the peer has closed it, closes the
descriptor and then removes a node by name.  A descriptor that was closed may be
the result of a later `accept`.
-/

namespace ChatRoom

open CString StepSystem

/-- The server's threads and the user list.  A session is written as the node that
is inserted for it: the user name and the descriptor. -/
structure Sessions where
  g_pList : Linklist
  /-- Accepted by the main thread, not inserted yet. -/
  accepted : Option Node
  /-- Inserted and served by a handler thread, the newest first. -/
  running : List Node
  /-- The `clientName` of the threads that have closed their descriptor and have not
  yet called `delNode`. -/
  closed : List CStr

/-- No connection has been accepted. -/
def Sessions.init : Sessions := ⟨[], none, [], []⟩

/-- The sessions whose descriptor is open. -/
def Sessions.opened (s : Sessions) : List Node := s.accepted.toList ++ s.running

inductive SessionStep where
  | accept (clientName : CStr) (cFd : ℕ)
  | insert
  | close (session : Node)
  | delete (clientName : CStr)
  | handle (session : Node) (mysql : Mysql) (tables : Tables) (now : Clock)
      (pcMsgBuf : MsgData)

/-- One atomic step.  The kernel returns any positive descriptor that is not open. -/
def sessionStep (s : Sessions) : SessionStep → Option Sessions
  | .accept clientName cFd =>
      if s.accepted = none ∧ 0 < cFd ∧ cFd ∉ s.opened.map Node.sfd then
        some { s with accepted := some ⟨clientName, cFd⟩ }
      else none
  | .insert =>
      match s.accepted with
      | none => none
      | some p =>
          some { s with
            g_pList := insertNode s.g_pList p.name p.sfd
            accepted := none
            running := p :: s.running }
  | .close session =>
      if session ∈ s.running then
        some { s with
          running := s.running.erase session
          closed := session.name :: s.closed }
      else none
  | .delete clientName =>
      if clientName ∈ s.closed then
        some { s with
          g_pList := delNode s.g_pList clientName
          closed := s.closed.erase clientName }
      else none
  | .handle session _ _ _ _ => if session ∈ s.running then some s else none

/-- What the handler thread of a session writes for one message. -/
def Sessions.handleEffects (s : Sessions) (session : Node) (mysql : Mysql) (tables : Tables)
    (now : Clock) (pcMsgBuf : MsgData) : List Effect :=
  (procClientRequest ⟨mysql, tables, s.g_pList, now⟩ session.sfd pcMsgBuf).effects

/-- The sessions that receive the bytes of a write: those that own the descriptor at
that moment.  A write to a closed descriptor reaches nobody. -/
def Sessions.receivers (s : Sessions) (e : Effect) : List Node :=
  s.opened.filter (·.sfd = e.fd)

/-! ## One step -/

theorem step_accept {s s' : Sessions} {clientName : CStr} {cFd : ℕ}
    (h : sessionStep s (.accept clientName cFd) = some s') :
    s.accepted = none ∧ cFd ∉ s.opened.map Node.sfd ∧
      s' = { s with accepted := some ⟨clientName, cFd⟩ } := by
  simp only [sessionStep, Option.ite_none_right_eq_some, Option.some.injEq] at h
  obtain ⟨⟨hnone, -, hfree⟩, rfl⟩ := h
  exact ⟨hnone, hfree, rfl⟩

theorem step_insert {s s' : Sessions} (h : sessionStep s .insert = some s') :
    ∃ p, s.accepted = some p ∧
      s' = ⟨insertNode s.g_pList p.name p.sfd, none, p :: s.running, s.closed⟩ := by
  simp only [sessionStep] at h
  split at h
  · exact absurd h (by simp)
  · rename_i p hp
    exact ⟨p, hp, (Option.some.inj h).symm⟩

theorem step_close {s s' : Sessions} {session : Node}
    (h : sessionStep s (.close session) = some s') :
    session ∈ s.running ∧
      s' = ⟨s.g_pList, s.accepted, s.running.erase session, session.name :: s.closed⟩ := by
  simp only [sessionStep, Option.ite_none_right_eq_some, Option.some.injEq] at h
  exact ⟨h.1, h.2.symm⟩

theorem step_delete {s s' : Sessions} {clientName : CStr}
    (h : sessionStep s (.delete clientName) = some s') :
    s' = ⟨delNode s.g_pList clientName, s.accepted, s.running, s.closed.erase clientName⟩ := by
  simp only [sessionStep, Option.ite_none_right_eq_some, Option.some.injEq] at h
  exact h.2.symm

theorem step_handle {s s' : Sessions} {session : Node} {mysql : Mysql} {tables : Tables}
    {now : Clock} {pcMsgBuf : MsgData}
    (h : sessionStep s (.handle session mysql tables now pcMsgBuf) = some s') : s' = s := by
  simp only [sessionStep, Option.ite_none_right_eq_some, Option.some.injEq] at h
  exact h.2.symm

/-! The open sessions after each step. -/

theorem opened_accept {s s' : Sessions} {clientName : CStr} {cFd : ℕ}
    (h : sessionStep s (.accept clientName cFd) = some s') :
    s'.opened = ⟨clientName, cFd⟩ :: s.opened := by
  obtain ⟨hnone, -, rfl⟩ := step_accept h
  simp [Sessions.opened, hnone]

theorem opened_insert {s s' : Sessions} (h : sessionStep s .insert = some s') :
    s'.opened = s.opened := by
  obtain ⟨p, hp, rfl⟩ := step_insert h
  simp [Sessions.opened, hp]

theorem opened_close {s s' : Sessions} {session : Node}
    (h : sessionStep s (.close session) = some s') : s'.opened.Sublist s.opened := by
  obtain ⟨-, rfl⟩ := step_close h
  exact (List.Sublist.refl _).append List.erase_sublist

/-- Open descriptors differ, whatever the threads do. -/
theorem nodup_fds_step {s s' : Sessions} {a : SessionStep}
    (hfds : (s.opened.map Node.sfd).Nodup) (h : sessionStep s a = some s') :
    (s'.opened.map Node.sfd).Nodup := by
  cases a with
  | accept clientName cFd =>
      obtain ⟨-, hfree, -⟩ := step_accept h
      rw [opened_accept h]
      exact List.nodup_cons.mpr ⟨hfree, hfds⟩
  | insert =>
      rw [opened_insert h]
      exact hfds
  | close session => exact hfds.sublist ((opened_close h).map Node.sfd)
  | delete clientName =>
      obtain rfl := step_delete h
      exact hfds
  | handle session mysql tables now pcMsgBuf =>
      obtain rfl := step_handle h
      exact hfds

end ChatRoom
