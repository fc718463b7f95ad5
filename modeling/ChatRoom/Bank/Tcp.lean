import ChatRoom.Core.Numbers
import ChatRoom.Support.Duplex

/-!
# Messages on a connection

`TcpWrite` and `TcpRead` of `_public.cpp`.  A message is sent behind a header with its length, in
decimal and filled up with zeros.  The loops `Readn` and `Writen` over `recv` and `send` are the
reads and writes of a process.
-/

namespace ChatRoom.Bank

open CString Program Duplex

/-- `TCPHEADLEN`. -/
def tcpHeadLen : ℕ := 5

/-- `TCPBUFLEN`. -/
def tcpBufLen : ℕ := 10240

/-- The first bytes of `strBufLen`, which is cleared before the length is printed into it. -/
def header (ibuflen : ℕ) : Bytes := (decimal ibuflen ++ List.replicate 11 0).take tcpHeadLen

/-- The bytes of a message on the connection. -/
def frame (message : Bytes) : Bytes := header message.length ++ message

section
variable {Q : Type} {A : Q → Type}

/-- `TcpWrite`, without a time-out; a length of 0 stands for that of the string. -/
def TcpWrite (strSendBuffer : Bytes) (buflen : ℕ) : Process UInt8 A Bool :=
  let ibuflen := if buflen = 0 then (cstr strSendBuffer).strlen else buflen
  if tcpBufLen < ibuflen then return false
  else writen (header ibuflen ++ strSendBuffer.take ibuflen)

/-- What `TcpRead` leaves in a buffer. -/
inductive Received where
  | failed
  | overrun
  | message (text : Bytes)
deriving DecidableEq

/-- `TcpRead` into a buffer of `size` bytes that is used as a string afterwards.  It does not know
the size, and a longer message runs over the end of the buffer. -/
def TcpRead (size : ℕ) : Process UInt8 A Received := do
  match ← readn tcpHeadLen with
  | none => return .failed
  | some strBufLen =>
      let buflen := atoi (strBufLen ++ List.replicate 6 0)
      if tcpBufLen < buflen then return .failed
      else
        -- a negative length is taken for nothing to read
        match ← readn buflen.toNat with
        | none => return .failed
        | some strRecvBuffer =>
            if strRecvBuffer.length < size then return .message strRecvBuffer
            else return .overrun

end

/-! ## Headers -/

theorem length_header (n : ℕ) : (header n).length = tcpHeadLen := by
  rw [header, List.length_take, List.length_append, List.length_replicate, tcpHeadLen]
  omega

/-- The header of a length that `TcpWrite` accepts is its whole decimal number. -/
theorem header_eq {n : ℕ} (h : n ≤ tcpBufLen) :
    header n = decimal n ++ List.replicate (tcpHeadLen - (decimal n).length) 0 := by
  have hlen : (decimal n).length ≤ tcpHeadLen :=
    (length_decimal_le_iff (by decide)).mpr (h.trans_lt (by decide))
  rw [header, List.take_append, List.take_of_length_le hlen, List.take_replicate, tcpHeadLen]
  congr 2
  omega

theorem atoi_header {n : ℕ} (h : n ≤ tcpBufLen) (k : ℕ) :
    atoi (header n ++ List.replicate k 0) = n := by
  rw [header_eq h, List.append_assoc, List.replicate_append_replicate]
  refine atoi_decimal n fun b hb => ?_
  have hzero : b = 0 := List.eq_of_mem_replicate (List.mem_of_mem_head? hb)
  rw [hzero]
  rfl

/-! ## One message -/

section
variable {Q : Type} {A : Q → Type} {β : Type} {env : Surroundings UInt8 A β} {asked : List Q}

theorem works_TcpWrite {message : CStr} (hlen : message.strlen ≤ tcpBufLen) {buflen : ℕ}
    (hbuflen : buflen = 0 ∨ buflen = message.strlen) (k : ℕ) (f : Bool → Process UInt8 A β)
    (inbox : Bytes) :
    Proc.Works env ⟨(TcpWrite (message.bytes ++ 0 :: List.replicate k 0) buflen).bind f, [], asked⟩
      inbox ⟨f true, [], asked⟩ inbox (frame message.bytes) := by
  have hibuflen : (if buflen = 0 then
      (cstr (message.bytes ++ 0 :: List.replicate k 0)).strlen else buflen) = message.strlen := by
    rw [cstr_append_zero]
    split_ifs with hzero
    · rfl
    · exact hbuflen.resolve_left hzero
  have htake : (message.bytes ++ 0 :: List.replicate k 0).take message.strlen = message.bytes :=
    List.take_left' rfl
  rw [TcpWrite]
  simp only [hibuflen, htake]
  rw [if_neg (not_lt.mpr hlen), writen, Prog.request_bind]
  exact Proc.works_writen inbox

theorem works_TcpRead {message : Bytes} {size : ℕ} (hlen : message.length < size)
    (hmax : message.length ≤ tcpBufLen) (f : Received → Process UInt8 A β) (rest : Bytes) :
    Proc.Works env ⟨(TcpRead size).bind f, [], asked⟩ (frame message ++ rest)
      ⟨f (.message message), [], asked⟩ rest [] := by
  have hatoi := atoi_header hmax 6
  have hfits : ¬ (tcpBufLen : ℤ) < message.length := by omega
  rw [frame, List.append_assoc, TcpRead]
  simp only [Prog.bind_eq, readn, Prog.request_bind, Prog.call_bind]
  refine (Proc.works_readn (length_header _) _).before ?_
  simp only [hatoi, if_neg hfits, Prog.call_bind]
  refine (Proc.works_readn (by rw [hatoi, Int.toNat_natCast]) rest).before ?_
  simp only [if_pos hlen]
  exact .refl _ _

end

end ChatRoom.Bank
