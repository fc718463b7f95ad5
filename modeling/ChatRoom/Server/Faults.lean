import ChatRoom.Server.Registry

/-!
# Faults of one session

All sessions are served by threads of one process.  An event on a session is a frame, the
end of its stream or an error of `read`; each of the error branches that end in
`handle_error` takes the other sessions with it.  So do a name that is copied beyond the end of
its array, and a `write` to a socket whose other end is gone, whose signal nobody handles.
-/

namespace ChatRoom

open CString SqlText StepSystem

/-! ## Names in arrays -/

/-- The receiver's name fits the array `pcDesName`, which the loop copies it to. -/
def DesNameFits (pstData : MsgData) : Prop := pstData.desNameStr.strlen ≤ maxNameLen

instance (pstData : MsgData) : Decidable (DesNameFits pstData) :=
  inferInstanceAs (Decidable (_ ≤ _))

/-- The sender's name fits the array `srcName` of the look-ups for a friend that the handler
makes. -/
def SrcNameFits (g_pList : Linklist) (pstData : MsgData) : MsgType → Prop
  | .delFriend | .sendOne => pstData.srcNameStr.strlen ≤ maxNameLen
  | .sendAll => ∀ _p ∈ g_pList, pstData.srcNameStr.strlen ≤ maxNameLen
  | .showAll | .showFriend | .addFriend | .sendFile | .banOne | .logout => True

instance (g_pList : Linklist) (pstData : MsgData) :
    (enMsgType : MsgType) → Decidable (SrcNameFits g_pList pstData enMsgType)
  | .delFriend | .sendOne => inferInstanceAs (Decidable (_ ≤ _))
  | .sendAll =>
      inferInstanceAs (Decidable (∀ _p ∈ g_pList, pstData.srcNameStr.strlen ≤ maxNameLen))
  | .showAll | .showFriend | .addFriend | .sendFile | .banOne | .logout => isTrue trivial

/-! ## Events -/

/-- The process is running, or it has ended, gone on with memory that it had freed or written
beyond the end of an array. -/
inductive ServerStatus where
  | up (s : Sessions)
  | down

/-- A frame comes with the tables and the time that its handler finds, and the descriptors on
which a `write` raises SIGPIPE. -/
inductive ServerEvent where
  | connect (clientName : CStr) (cFd : ℕ)
  | frame (session : Node) (tables : Tables) (now : Clock) (gone : ℕ → Bool) (pcMsgBuf : MsgData)
  | endOfStream (session : Node)
  | readError (session : Node)

/-- The session that the event is on. -/
def ServerEvent.session? : ServerEvent → Option Node
  | connect _ _ => none
  | frame session _ _ _ _ => some session
  | endOfStream session => some session
  | readError session => some session

/-- One event; frames carry a known message type. -/
def serverStep (m : Mysql) : ServerStatus → ServerEvent → Option ServerStatus
  | .down, _ => none
  | .up s, .connect clientName cFd =>
      -- the name is copied from `clientName` to arrays of its size
      if clientName.strlen ≤ maxNameLen then (visitStep s (.connect clientName cFd)).map .up
      else some .down
  | .up s, .frame session tables now gone pcMsgBuf =>
      if session ∈ s.running ∧ (MsgType.ofCode? pcMsgBuf.stMsgHead.enMsgType).isSome then
        match procClientRequest ⟨m, tables, s.g_pList, now⟩ session.sfd pcMsgBuf with
        | .skipped => some (.up s)
        | .called enMsgType result =>
            if DesNameFits pcMsgBuf ∧ SrcNameFits s.g_pList pcMsgBuf enMsgType ∧
                result.exited = false ∧ result.freed = false ∧
                ∀ e ∈ result.effects, gone e.fd = false then some (.up s)
            else some .down
        | .outOfTable => some .down
      else none
  | .up s, .endOfStream session => (visitStep s (.disconnect session)).map .up
  | .up s, .readError session => if session ∈ s.running then some .down else none

/-- The process goes on running, and the other sessions stay open, served and registered. -/
def Unaffected (m : Mysql) : ServerStatus → ServerEvent → Prop
  | .down, _ => True
  | .up s, a => ∃ s', serverStep m (.up s) a = some (.up s') ∧
      ∀ q ∈ s.running, a.session? ≠ some q →
        q ∈ s'.running ∧ (q ∈ s.g_pList → q ∈ s'.g_pList)

/-- The database is reachable and rejects incomplete statements, and no others. -/
structure Mysql.RejectsOnly (m : Mysql) (incomplete : Bytes → Prop) : Prop where
  connected : m.connect = true
  rejects : ∀ t text, m.querySelect t text = none ↔ incomplete text

/-- The statements of the look-ups that a handler makes, as they come out of their
buffers. -/
def lookupTexts (g_pList : Linklist) (pstData : MsgData) (pcDesName : CStr) :
    MsgType → List Bytes
  | .addFriend => [snprintf 64 (sql usersSelect [pcDesName.bytes])]
  | .delFriend | .sendOne =>
      [snprintf 128 (sql friendsSelect [pstData.srcNameStr.bytes, pcDesName.bytes])]
  | .sendAll => g_pList.map fun p =>
      snprintf 128 (sql friendsSelect [pstData.srcNameStr.bytes, p.name.bytes])
  | .showAll | .showFriend | .sendFile | .banOne | .logout => []

/-- The descriptors that a handler writes to if its look-ups are answered. -/
def writesTo (s : ServerState) (pstData : MsgData) (pcDesName : CStr) (srcFd : ℕ) :
    MsgType → List ℕ
  | .addFriend =>
      if checkUserIsExist s.mysql s.tables pcDesName = some .failed then [srcFd]
      else (searchName s.g_pList pcDesName).toList.map Node.sfd
  | .sendOne =>
      if checkReciverIsFriend s.mysql s.tables pstData pcDesName = some .failed then [srcFd]
      else (searchName s.g_pList pcDesName).toList.map Node.sfd
  | .sendAll =>
      (s.g_pList.filter fun p =>
        checkReciverIsFriend s.mysql s.tables pstData p.name = some .success).map Node.sfd
  | .sendFile => [((searchName s.g_pList pcDesName).map Node.sfd).getD srcFd]
  | .delFriend | .banOne => [srcFd]
  | .showAll | .showFriend | .logout => []

/-- A request whose handler does its work: the names fit their arrays, the handler is not that of
LOGOUT and has only complete statements to make, and the sockets that it writes to have another
end. -/
structure HarmlessRequest (incomplete : Bytes → Prop) (s : ServerState) (srcFd : ℕ)
    (gone : ℕ → Bool) (pstData : MsgData) (enMsgType : MsgType) : Prop where
  desName : DesNameFits pstData
  srcName : SrcNameFits s.g_pList pstData enMsgType
  notLogout : enMsgType ≠ .logout
  complete : ∀ text ∈ lookupTexts s.g_pList pstData pstData.desNameStr enMsgType,
    ¬ incomplete text
  connected : ∀ fd ∈ writesTo s pstData pstData.desNameStr srcFd enMsgType, gone fd = false

/-- Events that the server survives, and the other sessions with it: a name that fits its array, a
frame that is passed over or a harmless request, and the end of a session that is the newest one
of its user. -/
def Harmless (m : Mysql) (incomplete : Bytes → Prop) : ServerStatus → ServerEvent → Prop
  | .up _, .connect clientName _ => clientName.strlen ≤ maxNameLen
  | .up s, .frame session tables now gone pcMsgBuf =>
      pcMsgBuf.pDataStr = lit "exit" ∨
        ∀ enMsgType, MsgType.ofCode? pcMsgBuf.stMsgHead.enMsgType = some enMsgType →
          HarmlessRequest incomplete ⟨m, tables, s.g_pList, now⟩ session.sfd gone pcMsgBuf
            enMsgType
  | .up s, .endOfStream session => DisconnectsNewest s (.disconnect session)
  | _, .readError _ => False
  | _, _ => True

/-! ## The ends of the handlers -/

theorem lookupCode_eq_none_iff {found : Option (Option (List Row))} :
    lookupCode found = none ↔ found = none := by
  rcases found with - | - | rows
  · simp [lookupCode]
  · simp [lookupCode]
  · by_cases h : rows.length = 0 <;> simp [lookupCode, h]

section
variable {m : Mysql} {incomplete : Bytes → Prop} (hm : m.RejectsOnly incomplete)
include hm

theorem checkUserIsExist_eq_none_iff (t : Tables) (pcDesName : CStr) :
    checkUserIsExist m t pcDesName = none ↔
      incomplete (snprintf 64 (sql usersSelect [pcDesName.bytes])) := by
  rw [checkUserIsExist, if_pos hm.connected, lookupCode_eq_none_iff, hm.rejects]

theorem checkReciverIsFriend_eq_none_iff (t : Tables) (pstData : MsgData) (pcDesName : CStr) :
    checkReciverIsFriend m t pstData pcDesName = none ↔
      incomplete (snprintf 128
        (sql friendsSelect [pstData.srcNameStr.bytes, pcDesName.bytes])) := by
  rw [checkReciverIsFriend, if_pos hm.connected, lookupCode_eq_none_iff, hm.rejects]

/-- The group loop ends the process at the first incomplete statement. -/
theorem exited_sendMsg2AllLoop_iff (t : Tables) (g_pList head : Linklist) (now : Clock)
    (pstData : MsgData) :
    (sendMsg2AllLoop ⟨m, t, g_pList, now⟩ pstData head).2 = true ↔
      ∃ p ∈ head, incomplete (snprintf 128
        (sql friendsSelect [pstData.srcNameStr.bytes, p.name.bytes])) := by
  induction head with
  | nil => simp [sendMsg2AllLoop]
  | cons p next ih =>
      have hp := checkReciverIsFriend_eq_none_iff hm t pstData p.name
      rcases hcheck : checkReciverIsFriend m t pstData p.name with - | code
      · have hcut := hp.mp hcheck
        simp [sendMsg2AllLoop, hcheck, hcut]
      · have hcomplete : ¬ incomplete (snprintf 128
            (sql friendsSelect [pstData.srcNameStr.bytes, p.name.bytes])) := by
          rw [← hp, hcheck]
          simp
        cases code <;> simp [sendMsg2AllLoop, hcheck, hcomplete, ih]

/-- A handler ends the process exactly if one of its look-ups has an incomplete statement. -/
theorem exited_iff (enMsgType : MsgType) (t : Tables) (g_pList : Linklist) (now : Clock)
    (pstData : MsgData) (pcDesName : CStr) (srcFd : ℕ) :
    (astProcClientOptFunc enMsgType ⟨m, t, g_pList, now⟩ pstData pcDesName srcFd).exited = true ↔
      ∃ text ∈ lookupTexts g_pList pstData pcDesName enMsgType, incomplete text := by
  cases enMsgType with
  | showAll | showFriend | banOne | logout =>
      simp [astProcClientOptFunc, lookupTexts, procShowAllMsg, procShowFriendMsg, procBanOne,
        procSendLogoutMsg, returning]
  | sendFile =>
      simp only [astProcClientOptFunc, lookupTexts, procSendFile2One]
      split <;> simp [returning]
  | addFriend =>
      have hlookup := checkUserIsExist_eq_none_iff hm t pcDesName
      simp only [astProcClientOptFunc, lookupTexts, procAddFriendMsg, List.mem_singleton,
        exists_eq_left, ← hlookup]
      rcases checkUserIsExist m t pcDesName with - | - | -
      · simp [exiting]
      · cases searchName g_pList pcDesName <;> simp [returning]
      · simp [returning]
  | delFriend =>
      have hlookup := checkReciverIsFriend_eq_none_iff hm t pstData pcDesName
      simp only [astProcClientOptFunc, lookupTexts, procDelFriendMsg, List.mem_singleton,
        exists_eq_left, ← hlookup]
      rcases checkReciverIsFriend m t pstData pcDesName with - | - | -
      · simp [exiting]
      · simp [deleteFriendFromMysql, hm.connected, returning]
      · simp [returning]
  | sendOne =>
      have hlookup := checkReciverIsFriend_eq_none_iff hm t pstData pcDesName
      simp only [astProcClientOptFunc, lookupTexts, procSendMsg2One, List.mem_singleton,
        exists_eq_left, ← hlookup]
      rcases checkReciverIsFriend m t pstData pcDesName with - | - | -
      · simp [exiting]
      · cases searchName g_pList pcDesName with
        | none => simp [insertUserMsg2Mysql, hm.connected, returning]
        | some p => simp [returning]
      · simp [returning]
  | sendAll =>
      have hloop := exited_sendMsg2AllLoop_iff hm t g_pList g_pList now pstData
      simp only [astProcClientOptFunc, lookupTexts, procSendMsg2All, List.mem_map]
      rw [show (∃ text, (∃ p ∈ g_pList, snprintf 128 (sql friendsSelect
        [pstData.srcNameStr.bytes, p.name.bytes]) = text) ∧ incomplete text) ↔
          ∃ p ∈ g_pList, incomplete (snprintf 128 (sql friendsSelect
            [pstData.srcNameStr.bytes, p.name.bytes])) by simp, ← hloop]
      split <;> simp_all [exiting, returning]

end

/-- Only the handler of LOGOUT frees the buffer of the loop. -/
theorem freed_iff (enMsgType : MsgType) (s : ServerState) (pstData : MsgData)
    (pcDesName : CStr) (srcFd : ℕ) :
    (astProcClientOptFunc enMsgType s pstData pcDesName srcFd).freed = true ↔
      enMsgType = .logout := by
  cases enMsgType with
  | showAll | showFriend | banOne | logout =>
      simp [astProcClientOptFunc, procShowAllMsg, procShowFriendMsg, procBanOne,
        procSendLogoutMsg, returning]
  | addFriend =>
      simp only [astProcClientOptFunc, procAddFriendMsg]
      split <;> (try split) <;> simp [returning, exiting]
  | delFriend =>
      simp only [astProcClientOptFunc, procDelFriendMsg]
      split <;> (try split) <;> simp [returning, exiting]
  | sendOne =>
      simp only [astProcClientOptFunc, procSendMsg2One]
      split <;> (try split) <;> (try split) <;> simp [returning, exiting]
  | sendAll =>
      simp only [astProcClientOptFunc, procSendMsg2All]
      split <;> simp [returning, exiting]
  | sendFile =>
      simp only [astProcClientOptFunc, procSendFile2One]
      split <;> simp [returning]

/-- The group loop writes to the nodes that the look-up confirms. -/
theorem map_fd_sendMsg2AllLoop (s : ServerState) (pstData : MsgData) {head : Linklist}
    (h : (sendMsg2AllLoop s pstData head).2 = false) :
    (sendMsg2AllLoop s pstData head).1.map Effect.fd =
      (head.filter fun p =>
        checkReciverIsFriend s.mysql s.tables pstData p.name = some .success).map Node.sfd := by
  induction head with
  | nil => rfl
  | cons p next ih =>
      rw [sendMsg2AllLoop] at h ⊢
      rcases hcheck : checkReciverIsFriend s.mysql s.tables pstData p.name with - | - | -
      · simp [hcheck] at h
      · simp only [hcheck] at h
        simp [hcheck, ih h, Effect.fd]
      · simp only [hcheck] at h
        simp [hcheck, ih h]

/-- A handler that returns has written to these descriptors. -/
theorem map_fd_effects {m : Mysql} (hconnect : m.connect = true) (enMsgType : MsgType) (t : Tables)
    (g_pList : Linklist) (now : Clock) (pstData : MsgData) (pcDesName : CStr) (srcFd : ℕ)
    (h : (astProcClientOptFunc enMsgType ⟨m, t, g_pList, now⟩ pstData pcDesName srcFd).exited =
      false) :
    (astProcClientOptFunc enMsgType ⟨m, t, g_pList, now⟩ pstData pcDesName srcFd).effects.map
        Effect.fd =
      writesTo ⟨m, t, g_pList, now⟩ pstData pcDesName srcFd enMsgType := by
  cases enMsgType with
  | showAll | showFriend | banOne | logout => rfl
  | addFriend =>
      simp only [astProcClientOptFunc, procAddFriendMsg] at h
      rw [astProcClientOptFunc, effects_procAddFriendMsg, writesTo]
      rcases hcheck : checkUserIsExist m t pcDesName with - | - | -
      · simp [hcheck, exiting] at h
      · cases searchName g_pList pcDesName <;> rfl
      · rfl
  | delFriend =>
      simp only [astProcClientOptFunc, procDelFriendMsg] at h
      rw [astProcClientOptFunc, effects_procDelFriendMsg, writesTo]
      rcases hcheck : checkReciverIsFriend m t pstData pcDesName with - | - | -
      · simp [hcheck, exiting] at h
      · simp [checked, deleteFriendFromMysql, hconnect, Effect.fd]
      · rfl
  | sendOne =>
      simp only [astProcClientOptFunc, procSendMsg2One] at h
      rw [astProcClientOptFunc, effects_procSendMsg2One, writesTo]
      rcases hcheck : checkReciverIsFriend m t pstData pcDesName with - | - | -
      · simp [hcheck, exiting] at h
      · cases searchName g_pList pcDesName <;> rfl
      · rfl
  | sendAll =>
      simp only [astProcClientOptFunc, procSendMsg2All] at h
      rw [astProcClientOptFunc, effects_procSendMsg2All]
      refine map_fd_sendMsg2AllLoop _ _ ?_
      by_contra hexits
      rw [if_pos (by simpa using hexits)] at h
      exact absurd h (by simp [exiting])
  | sendFile =>
      rw [astProcClientOptFunc, effects_procSendFile2One]
      simp only [writesTo]
      cases searchName g_pList pcDesName <;> rfl

/-! ## One event -/

/-- The server is up, and its list is the list of running sessions. -/
def ServerStatus.Tidy (status : ServerStatus) : Prop := ∃ s, status = .up s ∧ s.Settled

section
variable {m : Mysql} {incomplete : Bytes → Prop} (hm : m.RejectsOnly incomplete)
include hm

/-- A handler's call is survived exactly if the request is harmless. -/
theorem harmlessRequest_iff (enMsgType : MsgType) (t : Tables) (g_pList : Linklist) (now : Clock)
    (srcFd : ℕ) (gone : ℕ → Bool) (pstData : MsgData) :
    let result := astProcClientOptFunc enMsgType ⟨m, t, g_pList, now⟩ pstData pstData.desNameStr
      srcFd
    (DesNameFits pstData ∧ SrcNameFits g_pList pstData enMsgType ∧ result.exited = false ∧
        result.freed = false ∧ ∀ e ∈ result.effects, gone e.fd = false) ↔
      HarmlessRequest incomplete ⟨m, t, g_pList, now⟩ srcFd gone pstData enMsgType := by
  intro result
  have hexits : result.exited = false ↔
      ∀ text ∈ lookupTexts g_pList pstData pstData.desNameStr enMsgType, ¬ incomplete text := by
    rw [← Bool.not_eq_true, exited_iff hm]
    simp
  have hfrees : result.freed = false ↔ enMsgType ≠ .logout := by
    rw [← Bool.not_eq_true, freed_iff]
  have hwrites : result.exited = false → ((∀ e ∈ result.effects, gone e.fd = false) ↔
      ∀ fd ∈ writesTo ⟨m, t, g_pList, now⟩ pstData pstData.desNameStr srcFd enMsgType,
        gone fd = false) := by
    intro hreturns
    rw [← map_fd_effects hm.connected enMsgType t g_pList now pstData _ srcFd hreturns,
      List.forall_mem_map]
  constructor
  · rintro ⟨hdes, hsrc, hreturns, hkept, hopen⟩
    exact ⟨hdes, hsrc, hfrees.mp hkept, hexits.mp hreturns, (hwrites hreturns).mp hopen⟩
  · rintro ⟨hdes, hsrc, hlogout, hcomplete, hopen⟩
    have hreturns := hexits.mpr hcomplete
    exact ⟨hdes, hsrc, hreturns, hfrees.mpr hlogout, (hwrites hreturns).mpr hopen⟩

/-- A frame is survived, with nothing changed, exactly if it is harmless. -/
theorem step_frame_iff {s : Sessions} {session : Node} {tables : Tables} {now : Clock}
    {gone : ℕ → Bool} {pcMsgBuf : MsgData} {status : ServerStatus}
    (h : serverStep m (.up s) (.frame session tables now gone pcMsgBuf) = some status) :
    (Harmless m incomplete (.up s) (.frame session tables now gone pcMsgBuf) → status = .up s) ∧
      (¬ Harmless m incomplete (.up s) (.frame session tables now gone pcMsgBuf) →
        status = .down) := by
  simp only [serverStep, Option.ite_none_right_eq_some] at h
  obtain ⟨⟨-, hknown⟩, h⟩ := h
  obtain ⟨enMsgType, htype⟩ := Option.isSome_iff_exists.mp hknown
  by_cases hexit : pcMsgBuf.pDataStr = lit "exit"
  · have hturn : procClientRequest ⟨m, tables, s.g_pList, now⟩ session.sfd pcMsgBuf = .skipped :=
      if_pos hexit
    rw [hturn] at h
    exact ⟨fun _ => (Option.some.inj h).symm, fun hharm => absurd (.inl hexit) hharm⟩
  · have hrequest := harmlessRequest_iff hm enMsgType tables s.g_pList now session.sfd gone pcMsgBuf
    simp only [procClientRequest, if_neg hexit, htype] at h
    simp only [Harmless, hexit, false_or, htype, Option.some.injEq, forall_eq']
    constructor
    · intro hharmless
      rw [if_pos (hrequest.mpr hharmless)] at h
      exact (Option.some.inj h).symm
    · intro hharm
      rw [if_neg (hrequest.not.mpr hharm)] at h
      exact (Option.some.inj h).symm

omit hm in
/-- A frame of a known type on a running session is always an event. -/
theorem exists_step_frame {s : Sessions} {session : Node} (hsession : session ∈ s.running)
    {pcMsgBuf : MsgData} (hknown : (MsgType.ofCode? pcMsgBuf.stMsgHead.enMsgType).isSome)
    (tables : Tables) (now : Clock) (gone : ℕ → Bool) :
    ∃ status, serverStep m (.up s) (.frame session tables now gone pcMsgBuf) = some status := by
  simp only [serverStep, if_pos (And.intro hsession hknown)]
  cases procClientRequest ⟨m, tables, s.g_pList, now⟩ session.sfd pcMsgBuf with
  | skipped | outOfTable => exact ⟨_, rfl⟩
  | called enMsgType result =>
      dsimp only
      split <;> exact ⟨_, rfl⟩

omit hm in
/-- A name that fits its array is registered, any other one is written beyond it. -/
theorem step_connect {s : Sessions} {clientName : CStr} {cFd : ℕ} {status : ServerStatus}
    (h : serverStep m (.up s) (.connect clientName cFd) = some status) :
    (clientName.strlen ≤ maxNameLen →
        ∃ s', visitStep s (.connect clientName cFd) = some s' ∧ status = .up s') ∧
      (¬ clientName.strlen ≤ maxNameLen → status = .down) := by
  rw [serverStep] at h
  constructor
  · intro hfits
    rw [if_pos hfits] at h
    obtain ⟨s', hs', rfl⟩ := Option.map_eq_some_iff.mp h
    exact ⟨s', hs', rfl⟩
  · intro hlong
    rw [if_neg hlong] at h
    exact (Option.some.inj h).symm

omit hm in
theorem step_endOfStream {s : Sessions} {session : Node} {status : ServerStatus}
    (h : serverStep m (.up s) (.endOfStream session) = some status) :
    ∃ s', visitStep s (.disconnect session) = some s' ∧ status = .up s' := by
  obtain ⟨s', hs', rfl⟩ := Option.map_eq_some_iff.mp h
  exact ⟨s', hs', rfl⟩

/-- Harmless events leave a tidy server. -/
theorem tidy_serverStep (status : ServerStatus) (a : ServerEvent) (status' : ServerStatus)
    (htidy : status.Tidy) (hharmless : Harmless m incomplete status a)
    (h : serverStep m status a = some status') : status'.Tidy := by
  obtain ⟨s, rfl, hs⟩ := htidy
  cases a with
  | connect clientName cFd =>
      obtain ⟨s', hs', rfl⟩ := (step_connect h).1 hharmless
      exact ⟨s', rfl, settled_connect hs hs'⟩
  | frame session tables now gone pcMsgBuf =>
      exact ⟨s, (step_frame_iff hm h).1 hharmless, hs⟩
  | endOfStream session =>
      obtain ⟨s', hs', rfl⟩ := step_endOfStream h
      exact ⟨s', rfl, settled_disconnect hs hharmless hs'⟩
  | readError session => exact hharmless.elim

omit hm in
/-- The end of a session leaves the others listed exactly if it is the newest one of its
user. -/
theorem others_listed_iff {s s' : Sessions} {session : Node} (hs : s.Settled)
    (h : visitStep s (.disconnect session) = some s') :
    (∀ q ∈ s.running, q ≠ session → q ∈ s'.running ∧ (q ∈ s.g_pList → q ∈ s'.g_pList)) ↔
      DisconnectsNewest s (.disconnect session) := by
  constructor
  · intro hothers
    obtain ⟨hmem, rfl⟩ := visit_disconnect h
    obtain ⟨newest, hfind⟩ : ∃ p, s.running.find? (·.name = session.name) = some p :=
      Option.isSome_iff_exists.mp (List.find?_isSome.mpr ⟨session, hmem, by simp⟩)
    have hfound : searchName s.g_pList session.name = some newest := by
      rw [searchName_eq_find?, hs.g_pList, hfind]
    have hrunning : newest ∈ s.running := List.mem_of_find?_eq_some hfind
    by_cases heq : newest = session
    · rw [DisconnectsNewest, hfind, heq]
    · have hlisted := (hothers newest hrunning heq).2 (hs.g_pList ▸ hrunning)
      rw [delNode_eq_erase hfound, hs.g_pList] at hlisted
      exact absurd hlisted hs.nodup_running.not_mem_erase
  · intro hnewest q hq hne
    have hsettled := settled_disconnect hs hnewest h
    obtain ⟨-, rfl⟩ := visit_disconnect h
    have hstays : q ∈ s.running.erase session := (List.mem_erase_of_ne hne).mpr hq
    exact ⟨hstays, fun _ => hsettled.g_pList ▸ hstays⟩

/-- An event on a tidy server affects no other session exactly if it is harmless. -/
theorem unaffected_iff_harmless (status : ServerStatus) (a : ServerEvent)
    (status' : ServerStatus) (htidy : status.Tidy) (h : serverStep m status a = some status') :
    Unaffected m status a ↔ Harmless m incomplete status a := by
  obtain ⟨s, rfl, hs⟩ := htidy
  simp only [Unaffected, h, Option.some.injEq]
  cases a with
  | connect clientName cFd =>
      obtain ⟨hregisters, hoverruns⟩ := step_connect h
      constructor
      · rintro ⟨s', hup, -⟩
        by_contra hlong
        exact absurd (hup.symm.trans (hoverruns hlong)) (by simp)
      · intro hfits
        obtain ⟨s', hs', hup⟩ := hregisters hfits
        refine ⟨s', hup, fun q hq _ => ?_⟩
        obtain ⟨-, rfl⟩ := visit_connect hs'
        exact ⟨List.mem_cons_of_mem _ hq, fun hlisted => List.mem_cons_of_mem _ hlisted⟩
  | frame session tables now gone pcMsgBuf =>
      obtain ⟨hsurvives, hends⟩ := step_frame_iff hm h
      constructor
      · rintro ⟨s', hup, -⟩
        by_contra hharm
        exact absurd (hup.symm.trans (hends hharm)) (by simp)
      · intro hharmless
        exact ⟨s, hsurvives hharmless, fun q hq _ => ⟨hq, id⟩⟩
  | endOfStream session =>
      obtain ⟨s', hs', rfl⟩ := step_endOfStream h
      rw [Harmless, ← others_listed_iff hs hs']
      constructor
      · rintro ⟨s'', hup, hothers⟩ q hq hne
        cases hup
        exact hothers q hq fun hsame => hne (Option.some.inj hsame).symm
      · intro hothers
        exact ⟨s', rfl, fun q hq hne => hothers q hq fun heq => hne (heq ▸ rfl)⟩
  | readError session =>
      simp only [serverStep, Option.ite_none_right_eq_some, Option.some.injEq] at h
      rw [← h.2]
      exact ⟨fun ⟨_, hup, _⟩ => absurd hup (by simp), fun hharm => hharm.elim⟩

/-! ## All runs -/

/-- No event of a run affects the sessions of others, exactly if all events are harmless: no
error of `read`, no LOGOUT, no name that its array cannot hold, no look-up statement that its
buffer has cut, no `write` to a socket without another end, and sessions of one user end the
newest first. -/
theorem everyStep_unaffected_iff (events : List ServerEvent) :
    EveryStep (serverStep m) (Unaffected m) (.up Sessions.init) events ↔
      EveryStep (serverStep m) (Harmless m incomplete) (.up Sessions.init) events :=
  everyStep_iff_of_invariant (tidy_serverStep hm) (unaffected_iff_harmless hm)
    ⟨Sessions.init, rfl, settled_init⟩

end

/-- The reference interpreter rejects a text whatever the tables are. -/
theorem reference_rejectsOnly :
    Mysql.reference.RejectsOnly fun text =>
      Mysql.reference.querySelect ⟨[], [], []⟩ text = none where
  connected := rfl
  rejects t text := by
    simp only [Mysql.reference]
    split
    · exact Iff.rfl
    · split <;> simp

/-- The server with one session of "a". -/
theorem connect_first (m : Mysql) :
    serverStep m (.up Sessions.init) (.connect (lit "a") 5) =
      some (.up ⟨[⟨lit "a", 5⟩], none, [⟨lit "a", 5⟩], []⟩) := by
  rfl

/-- The server with sessions of "a" and "b". -/
theorem connect_second (m : Mysql) :
    serverStep m (.up ⟨[⟨lit "a", 5⟩], none, [⟨lit "a", 5⟩], []⟩) (.connect (lit "b") 6) =
      some (.up ⟨[⟨lit "b", 6⟩, ⟨lit "a", 5⟩], none, [⟨lit "b", 6⟩, ⟨lit "a", 5⟩], []⟩) := by
  rfl

/-- "a" and "b" connect, "a" sends a friend request to "b", and "b" goes away. -/
theorem everyStep_unaffected_addFriend :
    EveryStep (serverStep Mysql.reference) (Unaffected Mysql.reference) (.up Sessions.init)
      [.connect (lit "a") 5, .connect (lit "b") 6,
        .frame ⟨lit "a", 5⟩ ⟨[⟨utf8 "b", utf8 "pwd", utf8 "0"⟩], [], []⟩ ⟨0, 0, 0⟩
          (fun fd => fd == 7) (MsgData.make .addFriend (lit "a") (lit "b") (lit "")),
        .endOfStream ⟨lit "b", 6⟩] := by
  let frame := MsgData.make .addFriend (lit "a") (lit "b") (lit "")
  let tables : Tables := ⟨[⟨utf8 "b", utf8 "pwd", utf8 "0"⟩], [], []⟩
  let incomplete : Bytes → Prop := fun text =>
    Mysql.reference.querySelect ⟨[], [], []⟩ text = none
  let both : Sessions :=
    ⟨[⟨lit "b", 6⟩, ⟨lit "a", 5⟩], none, [⟨lit "b", 6⟩, ⟨lit "a", 5⟩], []⟩
  have htype : MsgType.ofCode? frame.stMsgHead.enMsgType = some .addFriend := rfl
  have hcomplete : ¬ incomplete (snprintf 64 (sql usersSelect [frame.desNameStr.bytes])) := by
    unfold incomplete
    decide +kernel
  have hframe : Harmless Mysql.reference incomplete (.up both)
      (.frame ⟨lit "a", 5⟩ tables ⟨0, 0, 0⟩ (fun fd => fd == 7) frame) := by
    refine .inr fun enMsgType h => ?_
    obtain rfl := Option.some.inj (htype.symm.trans h)
    refine ⟨by decide, trivial, by decide, fun text htext => ?_, by decide +kernel⟩
    rw [List.mem_singleton.mp htext]
    exact hcomplete
  have hend : Harmless Mysql.reference incomplete (.up both) (.endOfStream ⟨lit "b", 6⟩) := by
    unfold Harmless DisconnectsNewest
    decide
  have hharmless : EveryStep (serverStep Mysql.reference) (Harmless Mysql.reference incomplete)
      (.up Sessions.init) [.connect (lit "a") 5, .connect (lit "b") 6,
        .frame ⟨lit "a", 5⟩ tables ⟨0, 0, 0⟩ (fun fd => fd == 7) frame,
        .endOfStream ⟨lit "b", 6⟩] := by
    have hnames : (lit "a").strlen ≤ maxNameLen ∧ (lit "b").strlen ≤ maxNameLen := by decide
    refine (everyStep_cons (connect_first _)).mpr ⟨hnames.1, ?_⟩
    refine (everyStep_cons (connect_second _)).mpr ⟨hnames.2, fun status hstatus => ?_⟩
    obtain rfl := (step_frame_iff reference_rejectsOnly hstatus).1 hframe
    exact ⟨hframe, fun _ _ => ⟨hend, trivial⟩⟩
  exact (everyStep_unaffected_iff reference_rejectsOnly _).mpr hharmless

/-- A friend request to a name of 30 bytes ends the server: the look-up statement is cut in
the middle of the name. -/
theorem not_everyStep_unaffected :
    ¬ ∀ (m : Mysql) (incomplete : Bytes → Prop) (events : List ServerEvent),
      m.RejectsOnly incomplete →
        EveryStep (serverStep m) (Unaffected m) (.up Sessions.init) events := by
  intro h
  let session : Node := ⟨lit "a", 5⟩
  let frame := MsgData.make .addFriend (lit "a") (cstr (List.replicate 30 98)) (lit "")
  let gone : ℕ → Bool := fun _ => false
  have hruns := h Mysql.reference _ [.connect (lit "a") 5,
    .frame session ⟨[], [], []⟩ ⟨0, 0, 0⟩ gone frame] reference_rejectsOnly
  obtain ⟨-, hlast⟩ := (everyStep_cons (connect_first _)).mp hruns
  have hknown : (MsgType.ofCode? frame.stMsgHead.enMsgType).isSome := rfl
  have hsession : session ∈ (⟨[session], none, [session], []⟩ : Sessions).running :=
    List.mem_singleton_self session
  obtain ⟨status, hstatus⟩ := exists_step_frame hsession hknown ⟨[], [], []⟩ ⟨0, 0, 0⟩ gone
  obtain ⟨s', hup, -⟩ := (hlast status hstatus).1
  have hcut : Mysql.reference.querySelect ⟨[], [], []⟩
      (snprintf 64 (sql usersSelect [frame.desNameStr.bytes])) = none := by
    decide +kernel
  have hharm : ¬ Harmless Mysql.reference
      (fun text => Mysql.reference.querySelect ⟨[], [], []⟩ text = none)
      (.up ⟨[session], none, [session], []⟩)
      (.frame session ⟨[], [], []⟩ ⟨0, 0, 0⟩ gone frame) := by
    rintro (hexit | hrequest)
    · exact absurd hexit (by decide +kernel)
    · exact (hrequest .addFriend rfl).complete _ (List.mem_singleton_self _) hcut
  have hdown := (step_frame_iff reference_rejectsOnly hstatus).2 hharm
  rw [hup] at hstatus
  rw [← Option.some.inj hstatus] at hdown
  cases hdown

end ChatRoom
