import ChatRoom.Core.Message
import ChatRoom.Core.Mysql
import ChatRoom.Core.Numbers

/-!
# The server's queries

The functions of `server_mysql.c`.  Each opens a connection of its own, formats
the statement into a buffer of fixed size and runs it.  A result `none` is the
end of the server process through `handle_error`.
-/

namespace ChatRoom

open CString SqlText

/-- The local time of day. -/
structure Clock where
  hour : Fin 24
  minute : Fin 60
  second : Fin 61

def Clock.midnight : Clock := ⟨⟨0, by decide⟩, ⟨0, by decide⟩, ⟨0, by decide⟩⟩

/-- The time as `getMsgTime` writes it into a buffer of 32 bytes. -/
def getMsgTime (now : Clock) : Bytes :=
  snprintf 32 (format (utf8 "%d:%d:%d")
    [decimal now.hour, decimal now.minute, decimal now.second])

/-- What both look-ups make of the outcome of their query: an error ends the
process, an empty result set is a failure, and a NULL result set a success. -/
def lookupCode : Option (Option (List Row)) → Option ErrCode
  | none => none
  | some none => some .success
  | some (some rows) => if rows.length = 0 then some .failed else some .success

def checkReciverIsFriend (m : Mysql) (t : Tables) (pstData : MsgData) (pcDesName : CStr) :
    Option ErrCode :=
  if m.connect then
    lookupCode (m.querySelect t
      (snprintf 128 (sql friendsSelect [pstData.srcNameStr.bytes, pcDesName.bytes])))
  else none

def checkUserIsExist (m : Mysql) (t : Tables) (pcDesName : CStr) : Option ErrCode :=
  if m.connect then
    lookupCode (m.querySelect t (snprintf 64 (sql usersSelect [pcDesName.bytes])))
  else none

/-- The message is stored for a receiver that is offline.  The copy of the body is
not terminated when all of its 255 bytes are used; the statement is cut long
before that end. -/
def insertUserMsg2Mysql (m : Mysql) (t : Tables) (now : Clock) (pstData : MsgData)
    (pcDesName : CStr) : Option Tables :=
  if m.connect then
    some ((m.queryModify t (snprintf 128 (sql messageInsert
      [pstData.srcNameStr.bytes, pcDesName.bytes, pstData.pDataStr.bytes,
        getMsgTime now]))).getD t)
  else none

/-- Both directions of a friendship are deleted, each by a statement of its own. -/
def deleteFriendFromMysql (m : Mysql) (t : Tables) (pstData : MsgData) (pcDesName : CStr) :
    Option Tables :=
  if m.connect then
    let src := pstData.srcNameStr.bytes
    let t₁ := (m.queryModify t (snprintf 128 (sql friendsDelete [src, pcDesName.bytes]))).getD t
    some ((m.queryModify t₁
      (snprintf 128 (sql friendsDelete [pcDesName.bytes, src]))).getD t₁)
  else none

end ChatRoom
