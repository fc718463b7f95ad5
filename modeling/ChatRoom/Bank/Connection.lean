import ChatRoom.Bank.Tcp
import ChatRoom.Bank.Xml

/-!
# A client and its thread of the server

`pthid_main` of `bankserver.cpp` serves one connection: it reads a request, has it processed, sends
the answer, and after it a message for each row of a statement.  The functions of `bankclient.cpp`
send a request and read the answer; the one for a statement reads the rows that the answer
announces.  What is processed and what is printed is what can be seen of the two.
-/

namespace ChatRoom.Bank

open CString Program Duplex StepSystem

/-! ## `pthid_main` -/

/-- What `procmessage` makes of a request: the text in `strSendBuffer`, and the text that is sent
for each row of `vbank`. -/
structure Answer where
  strSendBuffer : CStr
  rows : List CStr

/-- How a turn of a loop ends: the loop goes on, it is left, or a buffer was overrun. -/
inductive Turn where
  | again
  | left
  | overrun
deriving DecidableEq

/-- A buffer of 1024 characters that was cleared before the text was written into it. -/
def buffer (text : CStr) : Bytes := (CharArray.ofBytes 1024 text.bytes).bytes

abbrev ServerProcess := Process UInt8 fun _ : CStr => Answer

/-- A row that cannot be written ends the rows, but not the loop around them. -/
def sendRows : List CStr → ServerProcess Unit
  | [] => return ()
  | row :: rows => do
      if ← TcpWrite (buffer row) 0 then sendRows rows else return ()

/-- A turn of the loop of `pthid_main`, from the call of `procmessage` on. -/
def answerRequest (strRecvBuffer : CStr) : ServerProcess Turn := do
  let answer ← ask strRecvBuffer
  if ← TcpWrite (buffer answer.strSendBuffer) 0 then
    sendRows answer.rows
    return .again
  else return .left

/-- A turn of the loop of `pthid_main`. -/
def pthid_main : ServerProcess Turn := do
  match ← TcpRead 1024 with
  | .failed => return .left
  | .overrun => return .overrun
  | .message strRecvBuffer => answerRequest (cstr strRecvBuffer)

/-- The thread, over what `procmessage` answers. -/
def server (answer : List CStr → CStr → Answer) :
    Surroundings UInt8 (fun _ : CStr => Answer) Turn where
  answer := answer
  resume
    | .again => some pthid_main
    | _ => none

/-! ## `bankclient.cpp` -/

abbrev ClientProcess := Process UInt8 fun _ : CStr => Unit

/-- A function of the client, by the request that it sends, and whether it goes on with rows. -/
structure Call where
  strSendBuffer : CStr
  listing : Bool

/-- `TcpClient.Read` into `strRecvBuffer`, which is then printed. -/
def receive : ClientProcess Received := do
  let received ← TcpRead 1024
  match received with
  | .message strRecvBuffer =>
      ask (cstr strRecvBuffer)
      return received
  | _ => return received

/-- The loop over the rows. -/
def listRows : ℕ → ClientProcess Turn
  | 0 => return .again
  | n + 1 => do
      match ← receive with
      | .message _ => listRows n
      | .failed => return .again
      | .overrun => return .overrun

/-- The body of the functions; `TcpClient.Write` gives the length of the text. -/
def Call.perform (call : Call) : ClientProcess Turn := do
  if ← TcpWrite (buffer call.strSendBuffer) call.strSendBuffer.strlen then
    match ← receive with
    | .message strRecvBuffer =>
        if call.listing then
          listRows (GetXMLBufferInt (cstr strRecvBuffer) (lit "totalcount")).2.toNat
        else return .again
    | .failed => return .again
    | .overrun => return .overrun
  else return .again

def login : Call :=
  ⟨lit "<msgid>1</msgid><oper_id>wucz</oper_id><password>wuczpwd</password>", false⟩

/-- The name of the customer is in the encoding of the source file. -/
def kaihu : Call where
  strSendBuffer := cstr (utf8 "<msgid>2</msgid><oper_id>wucz</oper_id><userid>100000002</userid>" ++
    utf8 "<password>123456</password><cardid>440115675543216252</cardid><username>" ++
    [0xC0, 0xEE, 0xCB, 0xC4] ++ utf8 "</username><tel>13922200001</tel>")
  listing := false

def khlogin : Call :=
  ⟨lit "<msgid>3</msgid><userid>100000001</userid><password>123456</password>", false⟩

def ck : Call :=
  ⟨lit "<msgid>4</msgid><oper_id>wucz</oper_id><userid>100000001</userid><je>10000.02</je>", false⟩

def qk : Call :=
  ⟨lit "<msgid>5</msgid><oper_id>wucz</oper_id><userid>100000001</userid><je>500.01</je>", false⟩

def zz : Call where
  strSendBuffer := cstr (utf8 "<msgid>6</msgid><oper_id>wucz</oper_id><userid>100000001</userid>" ++
    utf8 "<je>10.01</je><userid1>100000002</userid1>")
  listing := false

def cye : Call := ⟨lit "<msgid>7</msgid><userid>100000001</userid>", false⟩

def cls : Call := ⟨lit "<msgid>8</msgid><userid>100000001</userid>", true⟩

/-- `main` of the client, for any sequence of its functions, whose results it ignores. -/
def bankclient : List Call → ClientProcess Unit
  | [] => return ()
  | call :: calls => do
      match ← call.perform with
      | .overrun => return ()
      | _ => bankclient calls

def client : Surroundings UInt8 (fun _ : CStr => Unit) Unit where
  answer _ _ := ()
  resume _ := none

/-! ## Both together -/

abbrev Dialogue := State UInt8 (fun _ : CStr => Unit) (fun _ : CStr => Answer) Unit Turn

/-- A client that has connected and has all its calls before it. -/
def dialogue (calls : List Call) : Dialogue :=
  ⟨⟨bankclient calls, [], []⟩, ⟨pthid_main, [], []⟩, [], []⟩

/-- An answer that a function of the client can take: its texts fit the buffers, and the function
reads as many rows as there are. -/
structure Answer.Fits (answer : Answer) (listing : Bool) : Prop where
  reply : answer.strSendBuffer.strlen < 1024
  rows : ∀ row ∈ answer.rows, row.strlen < 1024
  listed : answer.rows.length =
    if listing then (GetXMLBufferInt answer.strSendBuffer (lit "totalcount")).2.toNat else 0

/-- What is printed for one call. -/
def Answer.texts (answer : Answer) : List CStr := answer.strSendBuffer :: answer.rows

/-- The requests of the calls fit the buffer of the thread, and the answers that they get after
those that came before fit the client. -/
def Suited (answer : List CStr → CStr → Answer) : List CStr → List Call → Prop
  | _, [] => True
  | asked, call :: calls =>
      call.strSendBuffer.strlen < 1024 ∧ (answer asked call.strSendBuffer).Fits call.listing ∧
        Suited answer (asked ++ [call.strSendBuffer]) calls

/-- What the calls print when every one of them gets the answer to its own request. -/
def printed (answer : List CStr → CStr → Answer) : List CStr → List Call → List CStr
  | _, [] => []
  | asked, call :: calls =>
      (answer asked call.strSendBuffer).texts ++
        printed answer (asked ++ [call.strSendBuffer]) calls

/-! ## One call -/

theorem buffer_eq {text : CStr} (h : text.strlen < 1024) :
    buffer text = text.bytes ++ 0 :: List.replicate (1023 - text.strlen) 0 := by
  simp only [CStr.strlen] at h ⊢
  rw [buffer, CharArray.bytes_ofBytes h.le, ← List.replicate_succ]
  congr 2
  omega

theorem cstr_bytes (text : CStr) : cstr text.bytes = text :=
  CStr.ext_bytes (takeWhile_ne_zero_of_nulFree text.nulFree)

section
variable {Q : Type} {A : Q → Type} {β : Type} {env : Surroundings UInt8 A β} {asked : List Q}

theorem works_write {text : CStr} (h : text.strlen < 1024) {buflen : ℕ}
    (hbuflen : buflen = 0 ∨ buflen = text.strlen) (f : Bool → Process UInt8 A β) (inbox : Bytes) :
    Proc.Works env ⟨(TcpWrite (buffer text) buflen).bind f, [], asked⟩ inbox ⟨f true, [], asked⟩
      inbox (frame text.bytes) := by
  rw [buffer_eq h]
  exact works_TcpWrite (h.le.trans (by decide)) hbuflen _ f inbox

theorem works_read {text : CStr} (h : text.strlen < 1024) (f : Received → Process UInt8 A β)
    (rest : Bytes) :
    Proc.Works env ⟨(TcpRead 1024).bind f, [], asked⟩ (frame text.bytes ++ rest)
      ⟨f (.message text.bytes), [], asked⟩ rest [] :=
  works_TcpRead h (h.le.trans (by decide)) f rest

end

/-- The messages of some texts, one after the other. -/
def frames (texts : List CStr) : Bytes := texts.flatMap fun text => frame text.bytes

theorem works_sendRows {env : Surroundings UInt8 (fun _ : CStr => Answer) Turn} {asked : List CStr}
    {rows : List CStr} (hrows : ∀ row ∈ rows, row.strlen < 1024)
    (f : Unit → ServerProcess Turn) (inbox : Bytes) :
    Proc.Works env ⟨(sendRows rows).bind f, [], asked⟩ inbox ⟨f (), [], asked⟩ inbox
      (frames rows) := by
  induction rows with
  | nil => exact .refl _ _
  | cons row rows ih =>
      obtain ⟨hrow, hrest⟩ := List.forall_mem_cons.mp hrows
      simp only [sendRows, Prog.bind_eq, Prog.bind_assoc]
      exact (works_write hrow (.inl rfl) _ inbox).trans (ih hrest)

/-- A turn of the thread: it reads a request, and sends the answer with its rows. -/
theorem works_pthid_main {answer : List CStr → CStr → Answer} {asked : List CStr} {request : CStr}
    {listing : Bool} (hrequest : request.strlen < 1024)
    (hanswer : (answer asked request).Fits listing) :
    Proc.Works (server answer) ⟨pthid_main, [], asked⟩ (frame request.bytes)
      ⟨pthid_main, [], asked ++ [request]⟩ [] (frames (answer asked request).texts) := by
  have hread : Proc.Works (server answer) ⟨pthid_main, [], asked⟩ (frame request.bytes ++ [])
      ⟨answerRequest request, [], asked⟩ [] [] := by
    refine (works_read hrequest _ []).before ?_
    simp only [cstr_bytes]
    exact .refl _ _
  have htexts : frames (answer asked request).texts =
      frame (answer asked request).strSendBuffer.bytes ++
        (frames (answer asked request).rows ++ []) := by
    simp [frames, Answer.texts]
  rw [List.append_nil] at hread
  rw [htexts]
  refine hread.before ((Proc.works_ask []).before ?_)
  simp only [Prog.bind_eq, Prog.ret_bind]
  refine (works_write hanswer.reply (.inl rfl) _ []).trans ?_
  simp only [reduceIte]
  refine (works_sendRows hanswer.rows _ []).trans ?_
  exact Proc.works_resume rfl []

/-- A message is read and printed. -/
theorem works_receive {text : CStr} {printed : List CStr} (h : text.strlen < 1024)
    (f : Received → ClientProcess Unit) (rest : Bytes) :
    Proc.Works client ⟨receive.bind f, [], printed⟩ (frame text.bytes ++ rest)
      ⟨f (.message text.bytes), [], printed ++ [text]⟩ rest [] := by
  simp only [receive, Prog.bind_eq, Prog.bind_assoc]
  refine (works_read h _ rest).before ?_
  simp only [cstr_bytes]
  exact Proc.works_ask rest

/-- The loop over the rows reads and prints as many as there are. -/
theorem works_listRows {rows printed : List CStr} (hrows : ∀ row ∈ rows, row.strlen < 1024)
    (f : Turn → ClientProcess Unit) (rest : Bytes) :
    Proc.Works client ⟨(listRows rows.length).bind f, [], printed⟩ (frames rows ++ rest)
      ⟨f .again, [], printed ++ rows⟩ rest [] := by
  induction rows generalizing printed with
  | nil =>
      rw [List.append_nil]
      exact .refl _ _
  | cons row rows ih =>
      obtain ⟨hrow, hrest⟩ := List.forall_mem_cons.mp hrows
      have hframes : frames (row :: rows) ++ rest =
          frame row.bytes ++ (frames rows ++ rest) := by simp [frames]
      have hprinted : printed ++ row :: rows = (printed ++ [row]) ++ rows := by simp
      rw [hframes, hprinted]
      simp only [List.length_cons, listRows, Prog.bind_eq, Prog.bind_assoc]
      exact (works_receive hrow _ _).before (ih hrest)

/-- The client writes its request. -/
theorem works_request {call : Call} (calls : List Call) (printed : List CStr)
    (hrequest : call.strSendBuffer.strlen < 1024) :
    ∃ waiting, Proc.Works client ⟨bankclient (call :: calls), [], printed⟩ [] waiting []
      (frame call.strSendBuffer.bytes) ∧
        ∀ answer : Answer, answer.Fits call.listing →
          Proc.Works client waiting (frames answer.texts)
            ⟨bankclient calls, [], printed ++ answer.texts⟩ [] [] := by
  simp only [bankclient, Call.perform, Prog.bind_eq, Prog.bind_assoc]
  refine ⟨_, works_write hrequest (.inr rfl) _ [], fun answer hanswer => ?_⟩
  have hframes : frames answer.texts =
      frame answer.strSendBuffer.bytes ++ (frames answer.rows ++ []) := by
    simp [frames, Answer.texts]
  have hprinted : printed ++ answer.texts = (printed ++ [answer.strSendBuffer]) ++ answer.rows := by
    simp [Answer.texts]
  rw [hframes, hprinted]
  simp only [reduceIte, Prog.bind_assoc]
  refine (works_receive hanswer.reply _ _).before ?_
  have hlisted := hanswer.listed
  cases hlisting : call.listing with
  | false =>
      rw [hlisting] at hlisted
      obtain hnone := List.eq_nil_of_length_eq_zero hlisted
      rw [hnone, List.append_nil, List.append_nil]
      exact .refl _ _
  | true =>
      rw [hlisting, if_pos rfl] at hlisted
      simp only [cstr_bytes, ← hlisted, reduceIte]
      exact works_listRows hanswer.rows _ []

/-! ## All calls -/

/-- Where the two are after the calls: the client has ended, and the thread waits. -/
def ended (asked texts : List CStr) : Dialogue :=
  ⟨⟨bankclient [], [], texts⟩, ⟨pthid_main, [], asked⟩, [], []⟩

theorem reaches_ended {answer : List CStr → CStr → Answer} {calls : List Call}
    {asked texts : List CStr} (h : Suited answer asked calls) :
    Reaches client (server answer) ⟨⟨bankclient calls, [], texts⟩, ⟨pthid_main, [], asked⟩, [], []⟩
      (ended (asked ++ calls.map Call.strSendBuffer) (texts ++ printed answer asked calls)) := by
  induction calls generalizing asked texts with
  | nil =>
      simp only [List.map_nil, List.append_nil, printed]
      exact Reaches.refl _
  | cons call calls ih =>
      obtain ⟨hrequest, hanswer, hrest⟩ := h
      obtain ⟨waiting, hsend, hreceive⟩ := works_request calls texts hrequest
      have hserve := works_pthid_main hrequest hanswer
      have hsent : Reaches client (server answer)
          ⟨⟨bankclient (call :: calls), [], texts⟩, ⟨pthid_main, [], asked⟩, [], []⟩
          ⟨waiting, ⟨pthid_main, [], asked⟩, [], frame call.strSendBuffer.bytes⟩ :=
        Proc.Works.reaches_left hsend
      have hserved : Reaches client (server answer)
          ⟨waiting, ⟨pthid_main, [], asked⟩, [], frame call.strSendBuffer.bytes⟩
          ⟨waiting, ⟨pthid_main, [], asked ++ [call.strSendBuffer]⟩,
            frames (answer asked call.strSendBuffer).texts, []⟩ :=
        Proc.Works.reaches_right hserve
      have hread : Reaches client (server answer)
          ⟨waiting, ⟨pthid_main, [], asked ++ [call.strSendBuffer]⟩,
            frames (answer asked call.strSendBuffer).texts, []⟩
          ⟨⟨bankclient calls, [], texts ++ (answer asked call.strSendBuffer).texts⟩,
            ⟨pthid_main, [], asked ++ [call.strSendBuffer]⟩, [], []⟩ :=
        Proc.Works.reaches_left (hreceive _ hanswer)
      have hlast := @ih _ (texts ++ (answer asked call.strSendBuffer).texts) hrest
      rw [List.append_assoc, List.append_assoc] at hlast
      exact hsent.trans (hserved.trans (hread.trans hlast))

/-- After the calls nothing more happens. -/
theorem stuck_ended (answer : List CStr → CStr → Answer) (asked texts : List CStr) :
    Stuck (step client (server answer)) (ended asked texts) := by
  rintro ⟨side, k⟩
  cases side with
  | left => simp [step, ended, bankclient, Proc.advance, client]
  | right =>
      have hwait : Proc.advance (server answer) k ⟨pthid_main, [], asked⟩ [] = none := by
        simp [Proc.advance, pthid_main, TcpRead, readn, tcpHeadLen]
        omega
      simp [step, ended, hwait]

/-- Every run of the two is bounded and can be completed to the same end; what the thread has
processed so far is a beginning of the requests of the calls, and what the client has printed is a
beginning of the answers to them, each with its rows. -/
theorem dialogue_outcome {answer : List CStr → CStr → Answer} {calls : List Call}
    (h : Suited answer [] calls) :
    ∃ bound, ∀ labels s, run (step client (server answer)) (dialogue calls) labels = some s →
      labels.length ≤ bound ∧
        (∃ more, run (step client (server answer)) s more =
          some (ended (calls.map Call.strSendBuffer) (printed answer [] calls))) ∧
        s.left.asked <+: printed answer [] calls ∧
        s.right.asked <+: calls.map Call.strSendBuffer :=
  outcome (reaches_ended h) (stuck_ended answer _ _)

/-- A bank whose statements have one row. -/
def oneRow (_ : List CStr) (strRecvBuffer : CStr) : Answer :=
  if strRecvBuffer = cls.strSendBuffer then
    ⟨lit "<retno>0</retno><retmesg>ok</retmesg><totalcount>1</totalcount>",
      [lit "<opertype>1</opertype><je>0.00</je>"]⟩
  else ⟨lit "<retno>0</retno><retmesg>ok</retmesg>", []⟩

theorem suited_oneRow : Suited oneRow [] [login, cls] := by
  refine ⟨by decide, ⟨?_, ?_, ?_⟩, by decide, ⟨?_, ?_, ?_⟩, trivial⟩ <;> decide

/-- A login and a statement. -/
theorem dialogue_outcome_oneRow :
    ∃ bound, ∀ labels s, run (step client (server oneRow)) (dialogue [login, cls]) labels = some s →
      labels.length ≤ bound ∧ s.left.asked <+: printed oneRow [] [login, cls] := by
  obtain ⟨bound, hbound⟩ := dialogue_outcome suited_oneRow
  refine ⟨bound, fun labels s hrun => ?_⟩
  obtain ⟨hlen, -, hprinted, -⟩ := hbound labels s hrun
  exact ⟨hlen, hprinted⟩

/-! ## When the connection breaks -/

/-- Where the thread goes on after a failure. -/
def LeavesLoop (prog : ServerProcess Turn) : Prop :=
  prog = .ret .left ∨ prog = .ret .again ∨ prog = pthid_main

theorem resigned_server (answer : List CStr → CStr → Answer) :
    Resigned (server answer) LeavesLoop := by
  intro prog asked p' hprog h
  rcases hprog with rfl | rfl | rfl
  · cases h
  · cases h
    exact ⟨.inr (.inr rfl), rfl, rfl⟩
  · cases h
    exact ⟨.inl rfl, rfl, rfl⟩

theorem cautious_TcpWrite {Q : Type} {A : Q → Type} {β : Type} {S : Process UInt8 A β → Prop}
    (strSendBuffer : Bytes) (buflen : ℕ) {f : Bool → Process UInt8 A β}
    (hfalse : S (f false)) (hfalse' : Cautious S (f false)) (htrue : Cautious S (f true)) :
    Cautious S ((TcpWrite strSendBuffer buflen).bind f) := by
  simp only [TcpWrite]
  generalize (if buflen = 0 then (cstr strSendBuffer).strlen else buflen) = ibuflen
  split_ifs
  · exact hfalse'
  · exact ⟨hfalse, htrue⟩

theorem cautious_TcpRead {Q : Type} {A : Q → Type} {β : Type} {S : Process UInt8 A β → Prop}
    (size : ℕ) {f : Received → Process UInt8 A β} (hfailed : S (f .failed))
    (h : ∀ received, Cautious S (f received)) : Cautious S ((TcpRead size).bind f) := by
  refine ⟨hfailed, fun strBufLen => ?_⟩
  simp only [Prog.ret_bind]
  split_ifs
  · exact h .failed
  · refine ⟨hfailed, fun strRecvBuffer => ?_⟩
    simp only [Prog.ret_bind]
    split_ifs
    · exact h (.message strRecvBuffer)
    · exact h .overrun

theorem cautious_sendRows {rows : List CStr} :
    Cautious LeavesLoop ((sendRows rows).bind fun _ => .ret .again) := by
  induction rows with
  | nil => trivial
  | cons row rows ih =>
      simp only [sendRows, Prog.bind_eq, Prog.bind_assoc]
      exact cautious_TcpWrite _ _ (.inr (.inl rfl)) trivial ih

theorem cautious_pthid_main : Cautious LeavesLoop pthid_main := by
  refine cautious_TcpRead 1024 (.inl rfl) fun received => ?_
  cases received with
  | failed => trivial
  | overrun => trivial
  | message text =>
      refine fun answer => cautious_TcpWrite _ _ (.inl rfl) trivial ?_
      exact cautious_sendRows

/-- Where the client goes on after a failure: with its next call. -/
def NextCall (prog : ClientProcess Unit) : Prop :=
  ∃ calls : List Call, prog = bankclient calls

/-- What follows on the result of a function of the client. -/
def afterCall (calls : List Call) : Turn → ClientProcess Unit
  | .overrun => .ret ()
  | _ => bankclient calls

theorem bankclient_cons (call : Call) (calls : List Call) :
    bankclient (call :: calls) = call.perform.bind (afterCall calls) := by
  simp only [bankclient, Prog.bind_eq]
  congr 1

theorem resigned_client : Resigned client NextCall := by
  rintro prog asked p' ⟨calls, rfl⟩ h
  induction calls with
  | nil => cases h
  | cons call calls ih =>
      rw [bankclient_cons, Call.perform] at h
      simp only [Prog.bind_eq, Prog.bind_assoc, TcpWrite] at h
      generalize (if call.strSendBuffer.strlen = 0 then (cstr (buffer call.strSendBuffer)).strlen
        else call.strSendBuffer.strlen) = ibuflen at h
      by_cases hlong : tcpBufLen < ibuflen
      · rw [if_pos hlong] at h
        exact ih h
      · have hblock : header ibuflen ++ (buffer call.strSendBuffer).take ibuflen ≠ [] := by
          intro hnil
          have hlen := congrArg List.length hnil
          rw [List.length_append, length_header] at hlen
          exact absurd hlen (by simp [tcpHeadLen])
        rw [if_neg hlong, writen, Prog.request_bind, Proc.lose_writen client hblock] at h
        cases h
        exact ⟨⟨calls, rfl⟩, rfl, rfl⟩

theorem cautious_receive {f : Received → ClientProcess Unit} (hfailed : NextCall (f .failed))
    (h : ∀ received, Cautious NextCall (f received)) :
    Cautious NextCall (receive.bind f) := by
  simp only [receive, Prog.bind_eq, Prog.bind_assoc]
  refine cautious_TcpRead 1024 hfailed fun received => ?_
  cases received with
  | failed => exact h .failed
  | overrun => exact h .overrun
  | message text => exact fun _ => h (.message text)

theorem cautious_listRows {n : ℕ} {f : Turn → ClientProcess Unit} (hagain : NextCall (f .again))
    (h : ∀ turn, Cautious NextCall (f turn)) : Cautious NextCall ((listRows n).bind f) := by
  induction n with
  | zero => exact h .again
  | succ n ih =>
      simp only [listRows, Prog.bind_eq, Prog.bind_assoc]
      refine cautious_receive hagain fun received => ?_
      cases received with
      | failed => exact h .again
      | overrun => exact h .overrun
      | message text => exact ih

theorem cautious_bankclient (calls : List Call) : Cautious NextCall (bankclient calls) := by
  induction calls with
  | nil => trivial
  | cons call calls ih =>
      have hafter : ∀ turn, Cautious NextCall (afterCall calls turn) := by
        intro turn
        cases turn with
        | again => exact ih
        | left => exact ih
        | overrun => trivial
      rw [bankclient_cons, Call.perform]
      simp only [Prog.bind_eq, Prog.bind_assoc]
      refine cautious_TcpWrite _ _ ⟨calls, rfl⟩ ih ?_
      simp only [reduceIte, Prog.bind_assoc]
      refine cautious_receive ⟨calls, rfl⟩ fun received => ?_
      cases received with
      | failed => exact ih
      | overrun => trivial
      | message text =>
          cases call.listing with
          | false => exact ih
          | true => exact cautious_listRows ⟨calls, rfl⟩ hafter

/-- When the connection breaks, at any moment, the thread still has processed nothing but requests
of the calls, in their order, and the client has printed nothing but their answers, although it goes
on with the calls that are left. -/
theorem dialogue_broken {answer : List CStr → CStr → Answer} {calls : List Call}
    (h : Suited answer [] calls) {labels : List (Side × ℕ)} {s : Dialogue}
    (hrun : run (step client (server answer)) (dialogue calls) labels = some s) {n m : ℕ}
    {p : Proc UInt8 (fun _ : CStr => Unit) Unit} {q : Proc UInt8 (fun _ : CStr => Answer) Turn}
    (hp : s.left.loses client n = some p) (hq : s.right.loses (server answer) m = some q) :
    p.asked <+: printed answer [] calls ∧ q.asked <+: calls.map Call.strSendBuffer := by
  have hresume : ∀ turn prog, (server answer).resume turn = some prog →
      Cautious LeavesLoop prog := by
    intro turn prog hprog
    cases turn <;> cases hprog
    exact cautious_pthid_main
  exact outcome_broken (reaches_ended h) (stuck_ended answer _ _) (cautious_bankclient calls)
    cautious_pthid_main (fun _ _ hprog => by cases hprog) hresume resigned_client
    (resigned_server answer) hrun hp hq

/-- A statement is asked for and answered; of the message for its row the header and three bytes
have been sent and read. -/
def brokenLabels : List (Side × ℕ) :=
  [(.left, 3), (.left, 44), (.left, 0), (.right, 5), (.right, 0), (.right, 42), (.right, 0),
    (.right, 0), (.right, 68), (.right, 0), (.left, 4), (.left, 1), (.left, 0), (.left, 63),
    (.left, 0), (.left, 0), (.right, 8), (.left, 5), (.left, 0), (.left, 3)]

theorem suited_oneRow_login : Suited oneRow [] [cls, login] := by
  refine ⟨by decide, ⟨?_, ?_, ?_⟩, by decide, ⟨?_, ?_, ?_⟩, trivial⟩ <;> decide

/-- The connection breaks within the row, and the client goes on with the login. -/
theorem dialogue_broken_row :
    ∃ s p q, run (step client (server oneRow)) (dialogue [cls, login]) brokenLabels = some s ∧
      s.left.moved = utf8 "<op" ∧ s.left.loses client 2 = some p ∧
        s.right.loses (server oneRow) 2 = some q ∧
        p.asked = [(oneRow [] cls.strSendBuffer).strSendBuffer] ∧
        p.asked <+: printed oneRow [] [cls, login] ∧
        q.asked <+: [cls, login].map Call.strSendBuffer := by
  have hbroken : ((run (step client (server oneRow)) (dialogue [cls, login]) brokenLabels).bind
      fun s => (s.left.loses client 2).bind fun p => (s.right.loses (server oneRow) 2).map
        fun _ => (s.left.moved, p.asked)) =
          some (utf8 "<op", [(oneRow [] cls.strSendBuffer).strSendBuffer]) := by
    decide +kernel
  obtain ⟨s, hrun, hrest⟩ := Option.bind_eq_some_iff.mp hbroken
  obtain ⟨p, hp, hrest⟩ := Option.bind_eq_some_iff.mp hrest
  obtain ⟨q, hq, hpair⟩ := Option.map_eq_some_iff.mp hrest
  obtain ⟨hmoved, hasked⟩ := Prod.mk.inj hpair
  exact ⟨s, p, q, hrun, hmoved, hp, hq, hasked,
    dialogue_broken suited_oneRow_login hrun hp hq⟩

end ChatRoom.Bank
