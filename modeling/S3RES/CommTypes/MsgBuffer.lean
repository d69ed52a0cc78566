import S3RES.CommTypes.MapUpdate
import S3RES.CommTypes.Messages

/-!
# Messages of any length

A `comm_msg_buffer` goes over a pipe as its length, an `int` as it lies in memory, and as many bytes
of the message. `recv_send`: what `commSendMsgBuffer` writes is what `commRecvMsgBuffer` reads, and
nothing of what follows. The length does not count the zero byte behind a string, which is not sent.
-/

namespace S3RES

/-- `struct comm_msg_buffer`. Behind `message` are the bytes, or it points nowhere. -/
structure MsgBuffer where
  length : BitVec 32
  message : Option (List UInt8)
  deriving DecidableEq

/-- The bytes of an `int` in memory. -/
def intBytes (x : BitVec 32) : List UInt8 := [byteAt x 0, byteAt x 8, byteAt x 16, byteAt x 24]

/-- The `int` that the bytes are. -/
def ofIntBytes (bytes : List UInt8) : BitVec 32 :=
  unpackInt (bytes.getD 3 0) (bytes.getD 2 0) (bytes.getD 1 0) (bytes.getD 0 0)

/-- `sizeof(int)`. -/
def intSize : ℕ := 4

/-- `commSendMsgBuffer`: the bytes that it writes, or `none` where its `memcpy` reads behind the
message, which a negative length lets it do as well. -/
def commSendMsgBuffer (pipe : TypedPipe) (msg : MsgBuffer) : Option (List UInt8) :=
  if pipe.fdOut = 0 ∨ pipe.type ≠ .msgBuffer then some []
  else
    let bytes := msg.message.getD []
    if msg.length.toInt < 0 ∨ bytes.length < msg.length.toNat then none
    else some (intBytes msg.length ++ bytes.take msg.length.toNat)

/-- What a call of `commRecvMsgBuffer` returns and leaves behind. -/
structure ReceivedMsg where
  ret : ℤ
  msg : MsgBuffer
  stream : List UInt8

/-- `commRecvMsgBuffer`, where `stream` is available on the pipe. -/
def commRecvMsgBuffer (pipe : TypedPipe) (msg : MsgBuffer) (stream : List UInt8) : ReceivedMsg :=
  if pipe.fdIn = 0 ∨ pipe.type ≠ .msgBuffer then ⟨0, msg, stream⟩
  else
    let header := stream.take intSize
    let rest := stream.drop intSize
    if header.length = intSize then
      let length := ofIntBytes header
      if 0 < length.toInt then
        let body := rest.take length.toNat
        ⟨body.length, ⟨length, some body⟩, rest.drop length.toNat⟩
      else
        -- there is no memory of a negative size
        ⟨intSize, ⟨length, if length.toInt < 0 then none else some []⟩, rest⟩
    else
      let bytes := header ++ (intBytes msg.length).drop header.length
      ⟨header.length, { msg with length := ofIntBytes bytes }, rest⟩

/-! ### Round trip -/

/-- A pipe that `commRecvMsgBuffer` reads. -/
def Receives (pipe : TypedPipe) : Prop := pipe.fdIn ≠ 0 ∧ pipe.type = .msgBuffer

instance (pipe : TypedPipe) : Decidable (Receives pipe) := inferInstanceAs (Decidable (_ ∧ _))

/-- What is sent of a message. -/
def MsgBuffer.content (msg : MsgBuffer) : List UInt8 :=
  (msg.message.getD []).take msg.length.toNat

/-- A message on the pipe. -/
def frame (content : List UInt8) : List UInt8 :=
  intBytes (BitVec.ofNat 32 content.length) ++ content

@[simp] theorem ofIntBytes_intBytes (x : BitVec 32) : ofIntBytes (intBytes x) = x :=
  unpackInt_byteAt x

@[simp] theorem length_intBytes (x : BitVec 32) : (intBytes x).length = intSize := rfl

theorem frame_ne_nil (content : List UInt8) : frame content ≠ [] := by simp [frame, intBytes]

variable {pipe out : TypedPipe} {msg : MsgBuffer} {bytes : List UInt8}

/-- A length that an `int` holds. -/
theorem toNat_length {content : List UInt8} (h : content.length < 2 ^ 31) :
    (BitVec.ofNat 32 content.length).toNat = content.length ∧
      (BitVec.ofNat 32 content.length).toInt = content.length := by
  have hnat : (BitVec.ofNat 32 content.length).toNat = content.length := by
    rw [BitVec.toNat_ofNat, Nat.mod_eq_of_lt (by omega)]
  refine ⟨hnat, ?_⟩
  rw [BitVec.toInt_eq_toNat_cond, hnat, if_pos (by omega)]

/-- What is sent is as long as the message says, and what is written is its frame. -/
theorem frame_of_send (hout : Sends .msgBuffer out) (hsend : bytes ∈ commSendMsgBuffer out msg) :
    msg.content.length < 2 ^ 31 ∧ msg.length = BitVec.ofNat 32 msg.content.length ∧
      bytes = frame msg.content := by
  rw [commSendMsgBuffer, if_neg (by simp [hout.1, hout.2])] at hsend
  dsimp only at hsend
  split at hsend
  · cases hsend
  · rename_i hlength
    rw [not_or, not_lt, not_lt] at hlength
    have hcontent : msg.content.length = msg.length.toNat := by
      rw [MsgBuffer.content, List.length_take, Nat.min_eq_left hlength.2]
    have hword : BitVec.ofNat 32 msg.content.length = msg.length := by
      rw [hcontent, BitVec.ofNat_toNat, BitVec.setWidth_eq]
    refine ⟨?_, hword.symm, ?_⟩
    · have hint := BitVec.toInt_eq_toNat_cond msg.length
      split_ifs at hint <;> omega
    · rw [frame, hword]
      exact (Option.some.inj hsend).symm

/-- A frame is read as a whole, and nothing behind it. -/
theorem recv_frame {content : List UInt8} (hpipe : Receives pipe) (h : content.length < 2 ^ 31)
    (msg : MsgBuffer) (rest : List UInt8) :
    let received := commRecvMsgBuffer pipe msg (frame content ++ rest)
    received.msg = ⟨BitVec.ofNat 32 content.length, some content⟩ ∧ received.stream = rest := by
  obtain ⟨hnat, hint⟩ := toNat_length h
  have htake : (intBytes (BitVec.ofNat 32 content.length) ++ (content ++ rest)).take intSize =
      intBytes (BitVec.ofNat 32 content.length) := List.take_left' rfl
  have hdrop : (intBytes (BitVec.ofNat 32 content.length) ++ (content ++ rest)).drop intSize =
      content ++ rest := List.drop_left' rfl
  rw [frame, List.append_assoc, commRecvMsgBuffer, if_neg (by simp [hpipe.1, hpipe.2])]
  simp only [htake, hdrop, ofIntBytes_intBytes, length_intBytes, if_true, hnat, hint]
  split
  · rw [List.take_left' rfl, List.drop_left' rfl]
    exact ⟨rfl, rfl⟩
  · have hempty : content = [] := List.length_eq_zero_iff.mp (by omega)
    rw [hempty, if_neg (by simp)]
    exact ⟨rfl, rfl⟩

/-- **Round trip.** -/
theorem recv_send (hout : Sends .msgBuffer out) (hpipe : Receives pipe)
    (hsend : bytes ∈ commSendMsgBuffer out msg) (msg' : MsgBuffer) (rest : List UInt8) :
    let received := commRecvMsgBuffer pipe msg' (bytes ++ rest)
    received.msg = ⟨msg.length, some msg.content⟩ ∧ received.stream = rest := by
  obtain ⟨hlength, hword, rfl⟩ := frame_of_send hout hsend
  rw [hword]
  exact recv_frame hpipe hlength msg' rest

end S3RES
