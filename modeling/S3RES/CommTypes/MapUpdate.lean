import S3RES.Foundations.Loop
import S3RES.Foundations.Memory
import S3RES.CommTypes.SerialPipe

/-!
# Map updates on a pipe

`commSendMapUpdate` packs the pose, the number of obstacles and the obstacles into bytes;
`commRecvMapUpdate` reads a header of twelve bytes and then as many obstacles as it announces.
`recvMapUpdates_send`: messages written back to back are received one by one, with nothing left
over and no access behind the buffer. An `int` is a word of 32 bits.
-/

namespace S3RES

open Loop Memory

/-- `MAX_TYPED_PIPE_BUFF` and `MAX_OBSTACLES`. -/
def maxTypedPipeBuff : ℕ := 4096

def maxObstacles : ℕ := 2042

/-- `struct comm_map_update`. -/
structure MapUpdate where
  poseX : BitVec 32
  poseY : BitVec 32
  obsCount : BitVec 32
  obsX : Mem UInt8
  obsY : Mem UInt8

/-- `(x >> k) & 0xFF`, stored in an `unsigned char`. -/
def byteAt (x : BitVec 32) (k : ℕ) : UInt8 := ⟨((x.sshiftRight k) &&& 0xFF).setWidth 8⟩

/-- An `int` as it is packed. -/
def packInt (x : BitVec 32) : List UInt8 := [byteAt x 24, byteAt x 16, byteAt x 8, byteAt x 0]

/-- `b₀ << 24 | b₁ << 16 | b₂ << 8 | b₃`. -/
def unpackInt (b₀ b₁ b₂ b₃ : UInt8) : BitVec 32 :=
  b₀.toBitVec.setWidth 32 <<< 24 ||| b₁.toBitVec.setWidth 32 <<< 16 |||
    b₂.toBitVec.setWidth 32 <<< 8 ||| b₃.toBitVec.setWidth 32

/-- The number of obstacles that the header of a message announces. -/
def announced (bytes : List UInt8) : BitVec 32 :=
  unpackInt (bytes.getD 8 0) (bytes.getD 9 0) (bytes.getD 10 0) (bytes.getD 11 0)

/-! ### Sending -/

/-- The loop over the obstacles, with `n` of them to go from `index` on: it breaks off behind
`MAX_TYPED_PIPE_BUFF`. -/
def packObstacles (msg : MapUpdate) : ℕ → ℕ → List UInt8 → List UInt8
  | 0, _, buffer => buffer
  | n + 1, index, buffer =>
    let buffer := buffer ++ [msg.obsX index, msg.obsY index]
    if buffer.length > maxTypedPipeBuff then buffer else packObstacles msg n (index + 1) buffer

/-- `commSendMapUpdate`: the bytes it writes. -/
def commSendMapUpdate (pipe : TypedPipe) (msg : MapUpdate) : List UInt8 :=
  if pipe.fdOut = 0 ∨ pipe.type ≠ .mapUpdate then []
  else packObstacles msg msg.obsCount.toInt.toNat 0
    (packInt msg.poseX ++ packInt msg.poseY ++ packInt msg.obsCount)

/-! ### Receiving -/

/-- What a call of `commRecvMapUpdate` returns and leaves behind. -/
structure Received where
  ret : ℤ
  msg : MapUpdate
  stream : List UInt8
  /-- The number of bytes of `recv_msg_buffer` up to the last one that was accessed. -/
  touched : ℕ

/-- The size of the header, `sizeof(int) * header_ints`. -/
def headerSize : ℕ := 12

/-- The loop that takes the obstacles from the buffer. -/
def unpackObstacles (buffer : Mem UInt8) (n : ℕ) (msg : MapUpdate) : MapUpdate :=
  loop (fun index msg =>
    { msg with
      obsX := Function.update msg.obsX index (buffer (headerSize + index * 2))
      obsY := Function.update msg.obsY index (buffer (headerSize + (index * 2 + 1))) }) n msg

/-- `commRecvMapUpdate`, where `stream` is available on the pipe. -/
def commRecvMapUpdate (pipe : TypedPipe) (msg : MapUpdate) (stream : List UInt8) : Received :=
  if pipe.fdIn = 0 ∨ pipe.type ≠ .mapUpdate then ⟨0, msg, stream, 0⟩
  else
    let header := stream.take headerSize
    let rest := stream.drop headerSize
    let buffer := store (fun _ => 0) 0 header
    if header.length = headerSize then
      let msg :=
        { msg with
          poseX := unpackInt (buffer 0) (buffer 1) (buffer 2) (buffer 3)
          poseY := unpackInt (buffer 4) (buffer 5) (buffer 6) (buffer 7)
          obsCount := unpackInt (buffer 8) (buffer 9) (buffer 10) (buffer 11) }
      if 0 < msg.obsCount.toInt then
        let size := ((2 * msg.obsCount).signExtend 64).toNat
        let body := rest.take size
        let buffer := store buffer headerSize body
        if (body.length : ℤ) = (2 * msg.obsCount).toInt then
          ⟨body.length, unpackObstacles buffer msg.obsCount.toInt.toNat msg, rest.drop size,
            headerSize + max body.length (2 * msg.obsCount.toInt.toNat)⟩
        else ⟨body.length, msg, rest.drop size, headerSize + body.length⟩
      else ⟨headerSize, msg, rest, headerSize⟩
    else ⟨header.length, msg, rest, header.length⟩

/-! ### Streams of messages -/

/-- What a message says: the pose, the number of obstacles and so many obstacles. -/
def MapUpdate.content (msg : MapUpdate) :
    BitVec 32 × BitVec 32 × BitVec 32 × List (UInt8 × UInt8) :=
  (msg.poseX, msg.poseY, msg.obsCount,
    (List.range msg.obsCount.toInt.toNat).map fun i => (msg.obsX i, msg.obsY i))

/-- Messages written back to back. -/
def sendMapUpdates (pipe : TypedPipe) (msgs : List MapUpdate) : List UInt8 :=
  msgs.flatMap (commSendMapUpdate pipe)

/-- `n` calls of `commRecvMapUpdate` with one `msg`: what each returned, and what is left on
the pipe. -/
def recvMapUpdates (pipe : TypedPipe) : ℕ → MapUpdate → List UInt8 → List Received × List UInt8
  | 0, _, stream => ([], stream)
  | n + 1, msg, stream =>
    let received := commRecvMapUpdate pipe msg stream
    let (others, stream) := recvMapUpdates pipe n received.msg received.stream
    (received :: others, stream)

variable {msg msg' : MapUpdate} {buffer : Mem UInt8} {n : ℕ}

/-- The bytes of an `int` make up the `int`. -/
theorem unpackInt_byteAt (x : BitVec 32) :
    unpackInt (byteAt x 24) (byteAt x 16) (byteAt x 8) (byteAt x 0) = x := by
  refine BitVec.eq_of_getLsbD_eq fun i hi => ?_
  interval_cases i <;> simp [unpackInt, byteAt, BitVec.getElem_sshiftRight]

/-! ### One message -/

/-- A number of obstacles for which there is room. -/
def MapUpdate.Fits (msg : MapUpdate) : Prop :=
  0 ≤ msg.obsCount.toInt ∧ msg.obsCount.toInt ≤ maxObstacles

/-- The bytes of `n` obstacles, from `index` on. -/
def obstacleBytes (msg : MapUpdate) (index n : ℕ) : List UInt8 :=
  (List.range' index n).flatMap fun i => [msg.obsX i, msg.obsY i]

theorem obstacleBytes_succ (msg : MapUpdate) (index n : ℕ) : obstacleBytes msg index (n + 1) =
    msg.obsX index :: msg.obsY index :: obstacleBytes msg (index + 1) n := rfl

@[simp] theorem length_obstacleBytes (msg : MapUpdate) (index n : ℕ) :
    (obstacleBytes msg index n).length = 2 * n := by
  induction n generalizing index with
  | zero => rfl
  | succ n ih =>
    rw [obstacleBytes_succ, List.length_cons, List.length_cons, ih]
    omega

theorem getElem_obstacleBytes (msg : MapUpdate) (index : ℕ) {i : ℕ} (hi : i < n) :
    (obstacleBytes msg index n)[2 * i]? = some (msg.obsX (index + i)) ∧
      (obstacleBytes msg index n)[2 * i + 1]? = some (msg.obsY (index + i)) := by
  induction n generalizing index i with
  | zero => exact absurd hi i.not_lt_zero
  | succ n ih =>
    rw [obstacleBytes_succ]
    cases i with
    | zero => exact ⟨rfl, rfl⟩
    | succ i =>
      have hnext := ih (index + 1) (Nat.lt_of_succ_lt_succ hi)
      rw [show index + 1 + i = index + (i + 1) by omega] at hnext
      exact hnext

/-- All obstacles are packed if there is room for them. -/
theorem packObstacles_eq {index : ℕ} {bytes : List UInt8}
    (h : bytes.length + 2 * n ≤ maxTypedPipeBuff) :
    packObstacles msg n index bytes = bytes ++ obstacleBytes msg index n := by
  induction n generalizing index bytes with
  | zero => exact (List.append_nil bytes).symm
  | succ n ih =>
    have hroom : (bytes ++ [msg.obsX index, msg.obsY index]).length + 2 * n ≤
        maxTypedPipeBuff := by
      simp only [List.length_append, List.length_cons, List.length_nil]
      omega
    rw [packObstacles, if_neg (by omega), ih hroom, obstacleBytes_succ, List.append_assoc]
    rfl

theorem commSendMapUpdate_eq {pipe : TypedPipe} (hfd : pipe.fdOut ≠ 0)
    (htype : pipe.type = .mapUpdate) (hfits : msg.Fits) :
    commSendMapUpdate pipe msg =
      packInt msg.poseX ++ packInt msg.poseY ++ packInt msg.obsCount ++
        obstacleBytes msg 0 msg.obsCount.toInt.toNat := by
  have hroom : (packInt msg.poseX ++ packInt msg.poseY ++ packInt msg.obsCount).length +
      2 * msg.obsCount.toInt.toNat ≤ maxTypedPipeBuff := by
    have hle := hfits.2
    simp only [packInt, List.length_append, List.length_cons, List.length_nil, maxTypedPipeBuff,
      maxObstacles] at hle ⊢
    omega
  rw [commSendMapUpdate, if_neg (by simp [hfd, htype]), packObstacles_eq hroom]

/-- The loop takes the obstacles out, and leaves the rest of the message as it is. -/
theorem unpackObstacles_spec (buffer : Mem UInt8) (n : ℕ) (msg : MapUpdate) :
    (unpackObstacles buffer n msg).poseX = msg.poseX ∧
    (unpackObstacles buffer n msg).poseY = msg.poseY ∧
    (unpackObstacles buffer n msg).obsCount = msg.obsCount ∧
    ∀ i < n, (unpackObstacles buffer n msg).obsX i = buffer (headerSize + i * 2) ∧
      (unpackObstacles buffer n msg).obsY i = buffer (headerSize + (i * 2 + 1)) := by
  refine loop_induction (fun k (t : MapUpdate) => t.poseX = msg.poseX ∧ t.poseY = msg.poseY ∧
    t.obsCount = msg.obsCount ∧ ∀ i < k, t.obsX i = buffer (headerSize + i * 2) ∧
      t.obsY i = buffer (headerSize + (i * 2 + 1))) ⟨rfl, rfl, rfl, fun i hi => absurd hi
        i.not_lt_zero⟩ ?_
  rintro k - t ⟨hx, hy, hcount, hobs⟩
  refine ⟨hx, hy, hcount, fun i hi => ?_⟩
  rcases Nat.lt_succ_iff_lt_or_eq.mp hi with hlt | rfl
  · simp only [Function.update_of_ne hlt.ne]
    exact hobs i hlt
  · simp only [Function.update_self, and_self]

/-- The number of bytes that the obstacles take up. -/
theorem MapUpdate.Fits.size (h : msg.Fits) :
    (2 * msg.obsCount).toInt = (2 * msg.obsCount.toInt.toNat : ℕ) ∧
      ((2 * msg.obsCount).signExtend 64).toNat = 2 * msg.obsCount.toInt.toNat := by
  obtain ⟨hnonneg, hle⟩ := h
  rw [maxObstacles] at hle
  have hcond := BitVec.toInt_eq_toNat_cond msg.obsCount
  have hlt : msg.obsCount.toNat ≤ 2042 := by
    have := msg.obsCount.isLt
    split at hcond <;> omega
  have hn : msg.obsCount.toInt.toNat = msg.obsCount.toNat := by
    rw [BitVec.toInt_eq_toNat_of_lt (by omega), Int.toNat_natCast]
  have hdouble : (2 * msg.obsCount).toNat = 2 * msg.obsCount.toNat := by
    rw [BitVec.toNat_mul, show (2 : BitVec 32).toNat = 2 from rfl]
    omega
  have hmsb : (2 * msg.obsCount).msb = false :=
    BitVec.msb_eq_false_iff_two_mul_lt.mpr (by omega)
  rw [hn, BitVec.toInt_eq_toNat_of_lt (by omega), hdouble,
    BitVec.signExtend_eq_setWidth_of_msb_false hmsb, BitVec.toNat_setWidth, hdouble]
  omega

/-- **One message.** What was sent is received, and what follows is left on the pipe. -/
theorem commRecvMapUpdate_send {out inward : TypedPipe} (hout : out.fdOut ≠ 0)
    (houtType : out.type = .mapUpdate) (hin : inward.fdIn ≠ 0) (hinType : inward.type = .mapUpdate)
    (hfits : msg.Fits) (msg' : MapUpdate) (rest : List UInt8) :
    let received := commRecvMapUpdate inward msg' (commSendMapUpdate out msg ++ rest)
    0 < received.ret ∧ received.msg.content = msg.content ∧ received.stream = rest ∧
      received.touched ≤ maxTypedPipeBuff := by
  obtain ⟨hnonneg, hle⟩ := hfits
  set n := msg.obsCount.toInt.toNat with hn
  have hheader : ∀ l, (packInt msg.poseX ++ packInt msg.poseY ++ packInt msg.obsCount ++ l).take
      headerSize = packInt msg.poseX ++ packInt msg.poseY ++ packInt msg.obsCount :=
    fun l => List.take_left' rfl
  have hrest : ∀ l, (packInt msg.poseX ++ packInt msg.poseY ++ packInt msg.obsCount ++ l).drop
      headerSize = l := fun l => List.drop_left' rfl
  rw [commSendMapUpdate_eq hout houtType ⟨hnonneg, hle⟩, List.append_assoc, commRecvMapUpdate,
    if_neg (by simp [hin, hinType])]
  simp only [hheader, hrest]
  rw [if_pos (by rfl)]
  have hx := unpackInt_byteAt msg.poseX
  have hy := unpackInt_byteAt msg.poseY
  have hc := unpackInt_byteAt msg.obsCount
  set buffer := store (fun _ => 0) 0 (packInt msg.poseX ++ packInt msg.poseY ++
    packInt msg.obsCount) with hbuffer
  have hx' : unpackInt (buffer 0) (buffer 1) (buffer 2) (buffer 3) = msg.poseX := hx
  have hy' : unpackInt (buffer 4) (buffer 5) (buffer 6) (buffer 7) = msg.poseY := hy
  have hc' : unpackInt (buffer 8) (buffer 9) (buffer 10) (buffer 11) = msg.obsCount := hc
  simp only [hx', hy', hc', ← hn]
  by_cases hpos : 0 < msg.obsCount.toInt
  · obtain ⟨hsize, hbytes⟩ := MapUpdate.Fits.size ⟨hnonneg, hle⟩
    rw [← hn] at hsize hbytes
    have htake : (obstacleBytes msg 0 n ++ rest).take (2 * n) = obstacleBytes msg 0 n :=
      List.take_left' (length_obstacleBytes msg 0 n)
    have hdrop : (obstacleBytes msg 0 n ++ rest).drop (2 * n) = rest :=
      List.drop_left' (length_obstacleBytes msg 0 n)
    rw [if_pos hpos]
    simp only [hbytes, hsize, htake, hdrop, length_obstacleBytes, if_true]
    obtain ⟨hposeX, hposeY, hcount, hobs⟩ := unpackObstacles_spec
      (store buffer headerSize (obstacleBytes msg 0 n)) n
      { msg' with poseX := msg.poseX, poseY := msg.poseY, obsCount := msg.obsCount }
    refine ⟨by omega, ?_, trivial, ?_⟩
    · rw [MapUpdate.content, MapUpdate.content, hposeX, hposeY, hcount]
      refine Prod.ext rfl (Prod.ext rfl (Prod.ext rfl (List.map_congr_left fun i hi => ?_)))
      have hi' : i < n := List.mem_range.mp hi
      obtain ⟨hputX, hputY⟩ := getElem_obstacleBytes msg 0 hi'
      obtain ⟨hobsX, hobsY⟩ := hobs i hi'
      rw [mul_comm i, store_of_getElem? hputX] at hobsX
      rw [mul_comm i, store_of_getElem? hputY] at hobsY
      rw [hobsX, hobsY, zero_add]
    · rw [maxTypedPipeBuff, headerSize]
      rw [maxObstacles] at hle
      omega
  · have hzero : n = 0 := by omega
    rw [if_neg hpos, hzero]
    refine ⟨Nat.cast_pos.mpr (by decide), ?_, rfl, ?_⟩
    · rw [MapUpdate.content, MapUpdate.content, ← hn, hzero]
      rfl
    · simp [headerSize, maxTypedPipeBuff]

/-- **Streams.** Messages that were written back to back are received one by one: each call
succeeds and yields the message that was sent, nothing is left on the pipe after the last, and
no call leaves `recv_msg_buffer`. -/
theorem recvMapUpdates_send {out inward : TypedPipe} (hout : out.fdOut ≠ 0)
    (houtType : out.type = .mapUpdate) (hin : inward.fdIn ≠ 0) (hinType : inward.type = .mapUpdate)
    {msgs : List MapUpdate} (hfits : ∀ msg ∈ msgs, msg.Fits) (msg' : MapUpdate) :
    let (received, stream) := recvMapUpdates inward msgs.length msg' (sendMapUpdates out msgs)
    received.map (·.msg.content) = msgs.map (·.content) ∧ stream = [] ∧
      ∀ x ∈ received, 0 < x.ret ∧ x.touched ≤ maxTypedPipeBuff := by
  induction msgs generalizing msg' with
  | nil => exact ⟨rfl, rfl, fun x hx => absurd hx List.not_mem_nil⟩
  | cons msg msgs ih =>
    obtain ⟨hret, hcontent, hstream, htouched⟩ := commRecvMapUpdate_send hout houtType hin hinType
      (hfits msg List.mem_cons_self) msg' (sendMapUpdates out msgs)
    have hsend : sendMapUpdates out (msg :: msgs) =
        commSendMapUpdate out msg ++ sendMapUpdates out msgs := List.flatMap_cons
    rw [← hsend] at hret hcontent hstream htouched
    set received := commRecvMapUpdate inward msg' (sendMapUpdates out (msg :: msgs)) with hreceived
    have hothers := ih (fun m hm => hfits m (List.mem_cons_of_mem _ hm)) received.msg
    rw [List.length_cons, recvMapUpdates, ← hreceived, hstream]
    obtain ⟨hmap, hempty, hall⟩ := hothers
    refine ⟨?_, hempty, fun x hx => ?_⟩
    · rw [List.map_cons, hcontent, hmap, List.map_cons]
    · rcases List.mem_cons.mp hx with rfl | hx
      · exact ⟨hret, htouched⟩
      · exact hall x hx

/-- An update with the obstacle (1, 2), at a negative position, and one without obstacles. -/
def sampleUpdates : List MapUpdate :=
  [⟨-3, 4, 1, fun _ => 1, fun _ => 2⟩, ⟨5, 6, 0, fun _ => 0, fun _ => 0⟩]

theorem recvMapUpdates_send_sample :
    (recvMapUpdates ⟨.mapUpdate, 3, 0⟩ 2 ⟨0, 0, 0, fun _ => 0, fun _ => 0⟩
      (sendMapUpdates ⟨.mapUpdate, 0, 4⟩ sampleUpdates)).1.map (·.msg.content) =
      [(-3, 4, 1, [(1, 2)]), (5, 6, 0, [])] :=
  (@recvMapUpdates_send ⟨.mapUpdate, 0, 4⟩ ⟨.mapUpdate, 3, 0⟩ (by decide) rfl (by decide) rfl
    sampleUpdates (by simp [sampleUpdates, MapUpdate.Fits, maxObstacles]) _).1

end S3RES
