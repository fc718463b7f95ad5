import ChatRoom.Core.UserList
import ChatRoom.Server.Lookups

/-!
# The request handlers and the receive loop

The functions of `server_proc.c`, the dispatch table of `threadPool.c` and one
turn of the loop of `procClientRequest`.  A handler is given the message in the
loop's buffer, the receiver's name and the descriptor of the sender.  What it
does to sockets is a list of effects, in order.
-/

namespace ChatRoom

open CString

/-- A call of `write`: to the socket of a node of the user list, or to the socket
of the sender. -/
inductive Effect where
  | relay (pDestNode : Node) (bytes : Bytes)
  | reply (srcFd : ℕ) (bytes : Bytes)
deriving DecidableEq

def Effect.fd : Effect → ℕ
  | relay pDestNode _ => pDestNode.sfd
  | reply srcFd _ => srcFd

def Effect.bytes : Effect → Bytes
  | relay _ bytes => bytes
  | reply _ bytes => bytes

/-- What a handler can see: the database, the user list and the time. -/
structure ServerState where
  mysql : Mysql
  tables : Tables
  g_pList : Linklist
  now : Clock

/-- What a handler leaves behind.  `exited` is the end of the process, `freed` that
the message buffer was released; `ulErrCode` is `none` where the function ends
without a return statement.  The loop does not look at it. -/
structure HandlerResult where
  tables : Tables
  effects : List Effect
  exited : Bool
  freed : Bool
  ulErrCode : Option ErrCode

/-- A handler that returns after the given writes. -/
def returning (t : Tables) (effects : List Effect) (ulErrCode : Option ErrCode) :
    HandlerResult :=
  ⟨t, effects, false, false, ulErrCode⟩

/-- A handler that ends the process after the given writes. -/
def exiting (t : Tables) (effects : List Effect) : HandlerResult :=
  ⟨t, effects, true, false, none⟩

/-! ## The handlers -/

/-- The texts `retMsg` of the replies. -/
def addFriendRetMsg : CStr := lit "添加失败, 您要添加的用户不存在"
def delFriendRetMsg : CStr := lit "删除失败,好友列表无此用户"
def delFriendDoneMsg : CStr := lit "删除成功"
def sendMsg2OneRetMsg : CStr := lit "您和对方还不是好友关系,无法通信"
def sendFile2OneRetMsg : CStr := lit "receiver is not online\n"

def procShowAllMsg (s : ServerState) (_pstData : MsgData) (_pcDesName : CStr) (_srcFd : ℕ) :
    HandlerResult :=
  returning s.tables [] none

def procShowFriendMsg (s : ServerState) (_pstData : MsgData) (_pcDesName : CStr)
    (_srcFd : ℕ) : HandlerResult :=
  returning s.tables [] none

def procAddFriendMsg (s : ServerState) (pstData : MsgData) (pcDesName : CStr) (srcFd : ℕ) :
    HandlerResult :=
  match checkUserIsExist s.mysql s.tables pcDesName with
  | none => exiting s.tables []
  | some .failed =>
      returning s.tables [.reply srcFd (pstData.copyText addFriendRetMsg).toBytes]
        (some .failed)
  | some .success =>
      match searchName s.g_pList pcDesName with
      -- storing the request for a receiver that is offline is commented out
      | none => returning s.tables [] (some .success)
      | some pDestNode =>
          returning s.tables [.relay pDestNode pstData.shortFrame] (some .success)

def procDelFriendMsg (s : ServerState) (pstData : MsgData) (pcDesName : CStr) (srcFd : ℕ) :
    HandlerResult :=
  match checkReciverIsFriend s.mysql s.tables pstData pcDesName with
  | none => exiting s.tables []
  | some .failed =>
      returning s.tables [.reply srcFd (pstData.copyText delFriendRetMsg).toBytes]
        (some .failed)
  | some .success =>
      match deleteFriendFromMysql s.mysql s.tables pstData pcDesName with
      | none => exiting s.tables []
      | some t =>
          let reply := pstData.clearBody.copyText delFriendDoneMsg
          returning t [.reply srcFd reply.shortFrame] none

def procSendMsg2One (s : ServerState) (pstData : MsgData) (pcDesName : CStr) (srcFd : ℕ) :
    HandlerResult :=
  match checkReciverIsFriend s.mysql s.tables pstData pcDesName with
  | none => exiting s.tables []
  | some .failed =>
      returning s.tables [.reply srcFd (pstData.copyText sendMsg2OneRetMsg).toBytes]
        (some .failed)
  | some .success =>
      match searchName s.g_pList pcDesName with
      | none =>
          match insertUserMsg2Mysql s.mysql s.tables s.now pstData pcDesName with
          | none => exiting s.tables []
          | some t => returning t [] (some .success)
      | some pDestNode =>
          returning s.tables [.relay pDestNode pstData.shortFrame] (some .success)

/-- The loop of `procSendMsg2All`: the writes to the nodes from `pSearchNode` on, and
whether a look-up ended the process. -/
def sendMsg2AllLoop (s : ServerState) (pstData : MsgData) : Linklist → List Effect × Bool
  | [] => ([], false)
  | pSearchNode :: next =>
      match checkReciverIsFriend s.mysql s.tables pstData pSearchNode.name with
      | none => ([], true)
      | some .success =>
          let rest := sendMsg2AllLoop s pstData next
          (.relay pSearchNode pstData.shortFrame :: rest.1, rest.2)
      | some .failed => sendMsg2AllLoop s pstData next

def procSendMsg2All (s : ServerState) (pstData : MsgData) (_pcDesName : CStr) (_srcFd : ℕ) :
    HandlerResult :=
  let sent := sendMsg2AllLoop s pstData s.g_pList
  if sent.2 then exiting s.tables sent.1
  else returning s.tables sent.1 (some .success)

/-- Alone among the relaying handlers this one asks no table, searches the list by
a loop of its own and relays the whole structure. -/
def procSendFile2One (s : ServerState) (pstData : MsgData) (pcDesName : CStr) (srcFd : ℕ) :
    HandlerResult :=
  match s.g_pList.find? (·.name = pcDesName) with
  | none =>
      let reply := pstData.clearBody.copyText sendFile2OneRetMsg
      returning s.tables [.reply srcFd reply.shortFrame] (some .success)
  | some pSearchNode =>
      returning s.tables [.relay pSearchNode pstData.toBytes] (some .success)

def procBanOne (s : ServerState) (_pstData : MsgData) (_pcDesName : CStr) (srcFd : ℕ) :
    HandlerResult :=
  returning s.tables [.reply srcFd (utf8 "操作成功\n")] (some .success)

def procSendLogoutMsg (s : ServerState) (_pstData : MsgData) (_pcDesName : CStr)
    (_srcFd : ℕ) : HandlerResult :=
  { returning s.tables [] (some .success) with freed := true }

/-- The table `astProcClientOptFunc`. -/
def astProcClientOptFunc : MsgType →
    ServerState → MsgData → CStr → ℕ → HandlerResult
  | .showAll => procShowAllMsg
  | .showFriend => procShowFriendMsg
  | .addFriend => procAddFriendMsg
  | .delFriend => procDelFriendMsg
  | .sendOne => procSendMsg2One
  | .sendAll => procSendMsg2All
  | .sendFile => procSendFile2One
  | .banOne => procBanOne
  | .logout => procSendLogoutMsg

/-! ## One turn of the receive loop -/

/-- What the loop does with a record it has read: it passes over the record, calls
a handler, or indexes the table outside its nine entries. -/
inductive LoopTurn where
  | skipped
  | called (enMsgType : MsgType) (result : HandlerResult)
  | outOfTable

/-- The body of the loop of `procClientRequest` after a `read` that returned the
bytes now in the buffer.  A name that does not fit the array that it is copied to is taken as it
reads here; what it does to the process is in `Server.Faults` and `Server.BufferLoop`. -/
def procClientRequest (s : ServerState) (cFd : ℕ) (pcMsgBuf : MsgData) : LoopTurn :=
  if pcMsgBuf.pDataStr = lit "exit" then .skipped
  else
    match MsgType.ofCode? pcMsgBuf.stMsgHead.enMsgType with
    | none => .outOfTable
    | some enMsgType =>
        .called enMsgType (astProcClientOptFunc enMsgType s pcMsgBuf pcMsgBuf.desNameStr cFd)

/-- The writes of one turn. -/
def LoopTurn.effects : LoopTurn → List Effect
  | called _ result => result.effects
  | _ => []

end ChatRoom
