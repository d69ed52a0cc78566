import S3RES.CommTypes.MapUpdate
import S3RES.Mapping.Obstacles

/-!
# Arbitrary bytes on the update pipe

`commRecvMapUpdate` returns what its last `read` returned, and AStar takes every positive number
for success. The header is taken over before the obstacles have been read, and nothing looks at
the number of obstacles it announces or at their coordinates. `received_whole_iff` says for
which bytes a call that counts as a success has received a message, `inBounds_iff` in which runs
of AStar's loop all accesses stay inside of the three arrays.
-/

namespace S3RES.AStar

open Loop Memory StepSystem

/-! ### What a call makes of the bytes -/

/-- The number of obstacles the header announces, for the loops that count up to it. -/
def obstacles (stream : List UInt8) : ℕ := (announced stream).toInt.toNat

/-- The message when the header has been taken over. -/
def withHeader (msg : MapUpdate) (stream : List UInt8) : MapUpdate :=
  { msg with
    poseX := unpackInt (stream.getD 0 0) (stream.getD 1 0) (stream.getD 2 0) (stream.getD 3 0)
    poseY := unpackInt (stream.getD 4 0) (stream.getD 5 0) (stream.getD 6 0) (stream.getD 7 0)
    obsCount := announced stream }

/-- The bytes of a message. -/
def messageBytes (msg : MapUpdate) : List UInt8 :=
  packInt msg.poseX ++ packInt msg.poseY ++ packInt msg.obsCount ++
    obstacleBytes msg 0 msg.obsCount.toInt.toNat

/-- The pipe is one that `commRecvMapUpdate` reads. -/
def Updates (pipe : TypedPipe) : Prop := pipe.fdIn ≠ 0 ∧ pipe.type = .mapUpdate

instance (pipe : TypedPipe) : Decidable (Updates pipe) := inferInstanceAs (Decidable (_ ∧ _))

variable {pipe : TypedPipe} {msg : MapUpdate} {stream : List UInt8}

/-- The bytes of an `int` that was made up of them. -/
theorem packInt_unpackInt (b₀ b₁ b₂ b₃ : UInt8) :
    packInt (unpackInt b₀ b₁ b₂ b₃) = [b₀, b₁, b₂, b₃] := by
  have hbyte : ∀ {k b}, (∀ i < 8, ((unpackInt b₀ b₁ b₂ b₃).sshiftRight k &&& 0xFF).getLsbD i =
      b.toBitVec.getLsbD i) → byteAt (unpackInt b₀ b₁ b₂ b₃) k = b := by
    intro k b hb
    refine UInt8.eq_of_toBitVec_eq (BitVec.eq_of_getLsbD_eq fun i hi => ?_)
    rw [byteAt, BitVec.getLsbD_setWidth, decide_eq_true hi, Bool.true_and]
    exact hb i hi
  rw [packInt]
  refine List.cons_eq_cons.mpr ⟨hbyte ?_, List.cons_eq_cons.mpr ⟨hbyte ?_,
    List.cons_eq_cons.mpr ⟨hbyte ?_, List.cons_eq_cons.mpr ⟨hbyte ?_, rfl⟩⟩⟩⟩
  all_goals
    intro i hi
    interval_cases i <;> simp [unpackInt, BitVec.getElem_sshiftRight]

theorem recv_other (h : ¬ Updates pipe) :
    commRecvMapUpdate pipe msg stream = ⟨0, msg, stream, 0⟩ := by
  rw [Updates, not_and_or, not_not] at h
  rw [commRecvMapUpdate, if_pos h]

theorem recv_short (h : Updates pipe) (hlength : stream.length < headerSize) :
    commRecvMapUpdate pipe msg stream = ⟨stream.length, msg, [], stream.length⟩ := by
  have htake : stream.take headerSize = stream := List.take_of_length_le hlength.le
  have hdrop : stream.drop headerSize = [] := List.drop_eq_nil_of_le hlength.le
  rw [commRecvMapUpdate, if_neg (by simp [h.1, h.2])]
  simp only [htake, hdrop, if_neg hlength.ne]

/-- With a whole header. -/
theorem recv_header (h : Updates pipe) (hlength : headerSize ≤ stream.length) :
    commRecvMapUpdate pipe msg stream =
      let buffer := store (fun _ => 0) 0 (stream.take headerSize)
      let rest := stream.drop headerSize
      let msg := withHeader msg stream
      if 0 < msg.obsCount.toInt then
        let size := ((2 * msg.obsCount).signExtend 64).toNat
        let body := rest.take size
        let buffer := store buffer headerSize body
        if (body.length : ℤ) = (2 * msg.obsCount).toInt then
          ⟨body.length, unpackObstacles buffer msg.obsCount.toInt.toNat msg, rest.drop size,
            headerSize + max body.length (2 * msg.obsCount.toInt.toNat)⟩
        else ⟨body.length, msg, rest.drop size, headerSize + body.length⟩
      else ⟨headerSize, msg, rest, headerSize⟩ := by
  have htake : (stream.take headerSize).length = headerSize := by
    rw [List.length_take]
    omega
  have hbuffer : ∀ k < headerSize,
      store (fun _ => 0) 0 (stream.take headerSize) k = stream.getD k 0 := fun k hk => by
    rw [store, if_pos k.zero_le, Nat.sub_zero, List.getElem?_take_of_lt hk,
      List.getD_eq_getElem?_getD]
  rw [commRecvMapUpdate, if_neg (by simp [h.1, h.2])]
  simp only [if_pos htake]
  rw [hbuffer 0 (by decide), hbuffer 1 (by decide), hbuffer 2 (by decide), hbuffer 3 (by decide),
    hbuffer 4 (by decide), hbuffer 5 (by decide), hbuffer 6 (by decide), hbuffer 7 (by decide),
    hbuffer 8 (by decide), hbuffer 9 (by decide), hbuffer 10 (by decide),
    hbuffer 11 (by decide)]
  rfl

theorem recv_none (h : Updates pipe) (hlength : headerSize ≤ stream.length)
    (hcount : (announced stream).toInt ≤ 0) :
    commRecvMapUpdate pipe msg stream =
      ⟨headerSize, withHeader msg stream, stream.drop headerSize, headerSize⟩ := by
  rw [recv_header h hlength]
  exact if_neg (not_lt.mpr hcount)

/-- The size of the second `read`, and what it is compared with. -/
theorem bodySize (hcount : 0 < (announced stream).toInt)
    (hfits : (announced stream).toInt ≤ maxObstacles) :
    (2 * announced stream).toInt = (2 * obstacles stream : ℕ) ∧
      ((2 * announced stream).signExtend 64).toNat = 2 * obstacles stream := by
  have hannounced : (withHeader ⟨0, 0, 0, fun _ => 0, fun _ => 0⟩ stream).Fits :=
    ⟨hcount.le, hfits⟩
  exact hannounced.size

theorem recv_cut (h : Updates pipe) (hlength : headerSize ≤ stream.length)
    (hcount : 0 < (announced stream).toInt) (hfits : (announced stream).toInt ≤ maxObstacles)
    (hcut : stream.length < headerSize + 2 * obstacles stream) :
    commRecvMapUpdate pipe msg stream =
      ⟨(stream.length - headerSize : ℕ), withHeader msg stream, [], stream.length⟩ := by
  obtain ⟨hsize, hread⟩ := bodySize hcount hfits
  have hbody : (stream.drop headerSize).take (2 * obstacles stream) = stream.drop headerSize :=
    List.take_of_length_le (by rw [List.length_drop]; omega)
  have hrest : (stream.drop headerSize).drop (2 * obstacles stream) = [] :=
    List.drop_eq_nil_of_le (by rw [List.length_drop]; omega)
  rw [recv_header h hlength]
  simp only [withHeader, if_pos hcount, hsize, hread, hbody, hrest, List.length_drop]
  rw [if_neg (by omega)]
  simp only [Received.mk.injEq, true_and]
  omega

theorem recv_whole (msg : MapUpdate) (h : Updates pipe) (hlength : headerSize ≤ stream.length)
    (hcount : 0 < (announced stream).toInt) (hfits : (announced stream).toInt ≤ maxObstacles)
    (hwhole : headerSize + 2 * obstacles stream ≤ stream.length) :
    commRecvMapUpdate pipe msg stream =
      ⟨(2 * obstacles stream : ℕ),
        unpackObstacles (store (store (fun _ => 0) 0 (stream.take headerSize)) headerSize
          ((stream.drop headerSize).take (2 * obstacles stream))) (obstacles stream)
          (withHeader msg stream),
        (stream.drop headerSize).drop (2 * obstacles stream),
        headerSize + 2 * obstacles stream⟩ := by
  obtain ⟨hsize, hread⟩ := bodySize hcount hfits
  have hbody : ((stream.drop headerSize).take (2 * obstacles stream)).length =
      2 * obstacles stream := by
    rw [List.length_take, List.length_drop]
    omega
  rw [recv_header h hlength]
  simp only [withHeader, if_pos hcount, hsize, hread, hbody, if_true]
  rw [← obstacles, max_self]

/-- Twice a positive number is not zero, even if it does not fit. -/
theorem two_mul_ne_zero {x : BitVec 32} (hx : 0 < x.toInt) : 2 * x ≠ 0 := by
  intro hzero
  have htwice := congrArg BitVec.toNat hzero
  have hcond := BitVec.toInt_eq_toNat_cond x
  have hlt := x.isLt
  rw [BitVec.toNat_mul, show (2 : BitVec 32).toNat = 2 from rfl,
    show (0 : BitVec 32).toNat = 0 from rfl] at htwice
  split at hcond <;> omega

theorem size_pos {x : BitVec 32} (hx : 0 < x.toInt) : 0 < ((2 * x).signExtend 64).toNat := by
  refine Nat.pos_iff_ne_zero.mpr fun hzero => two_mul_ne_zero hx (BitVec.eq_of_toInt_eq ?_)
  have hextended : (2 * x).signExtend 64 = 0 := BitVec.eq_of_toNat_eq hzero
  rw [← BitVec.toInt_signExtend_of_le (v := 64) (by decide), hextended]
  rfl

/-- Obstacles are announced, and none of them is there. -/
theorem recv_headerOnly (h : Updates pipe) (hlength : stream.length = headerSize)
    (hcount : 0 < (announced stream).toInt) :
    commRecvMapUpdate pipe msg stream = ⟨0, withHeader msg stream, [], headerSize⟩ := by
  have hrest : stream.drop headerSize = [] := List.drop_eq_nil_of_le hlength.le
  have hne : ((0 : ℕ) : ℤ) ≠ (2 * announced stream).toInt := fun hzero =>
    two_mul_ne_zero hcount (BitVec.eq_of_toInt_eq hzero.symm)
  rw [recv_header h hlength.ge, hrest]
  simp only [withHeader, List.take_nil, List.drop_nil, List.length_nil, if_neg hne]
  exact if_pos hcount

/-- Obstacles are announced, and some bytes of them are there. -/
theorem recv_some (msg : MapUpdate) (h : Updates pipe) (hlength : headerSize < stream.length)
    (hcount : 0 < (announced stream).toInt) :
    0 < (commRecvMapUpdate pipe msg stream).ret ∧
      (commRecvMapUpdate pipe msg stream).msg.obsCount = announced stream := by
  have hbody : 0 < ((stream.drop headerSize).take
      ((2 * announced stream).signExtend 64).toNat).length := by
    have hsize := size_pos hcount
    rw [List.length_take, List.length_drop]
    omega
  rw [recv_header h hlength.le]
  dsimp only
  rw [show (withHeader msg stream).obsCount = announced stream from rfl, if_pos hcount]
  split
  · exact ⟨Int.natCast_pos.mpr hbody, (unpackObstacles_spec _ _ _).2.2.1⟩
  · exact ⟨Int.natCast_pos.mpr hbody, rfl⟩

/-- Obstacles that stand in a list of bytes, pair by pair. -/
theorem obstacleBytes_eq (msg : MapUpdate) {l : List UInt8} {n : ℕ} (hl : 2 * n ≤ l.length)
    (h : ∀ i < n, msg.obsX i = l.getD (2 * i) 0 ∧ msg.obsY i = l.getD (2 * i + 1) 0) :
    obstacleBytes msg 0 n = l.take (2 * n) := by
  have hfrom : ∀ m k, k + m = n → obstacleBytes msg k m = (l.drop (2 * k)).take (2 * m) := by
    intro m
    induction m with
    | zero => exact fun k _ => by rw [obstacleBytes]; rfl
    | succ m ih =>
      intro k hk
      obtain ⟨hx, hy⟩ := h k (by omega)
      have hdrop : l.drop (2 * k) =
          l.getD (2 * k) 0 :: l.getD (2 * k + 1) 0 :: l.drop (2 * (k + 1)) := by
        rw [List.drop_eq_getElem_cons (by omega), List.drop_eq_getElem_cons (by omega)]
        simp [List.getD_eq_getElem?_getD, show 2 * k < l.length by omega,
          show 2 * k + 1 < l.length by omega, Nat.mul_add]
      rw [obstacleBytes_succ, ih (k + 1) (by omega), hx, hy, hdrop, Nat.mul_add]
      rfl
  have hall := hfrom n 0 (Nat.zero_add n)
  rwa [Nat.mul_zero, List.drop_zero] at hall

/-- The bytes of the header. -/
theorem header_eq (msg : MapUpdate) (hlength : headerSize ≤ stream.length) :
    packInt (withHeader msg stream).poseX ++ packInt (withHeader msg stream).poseY ++
      packInt (withHeader msg stream).obsCount = stream.take headerSize := by
  simp only [withHeader, announced, packInt_unpackInt]
  have hget : ∀ k (hk : k < stream.length), stream.getD k 0 = stream[k] := fun k hk => by
    rw [List.getD_eq_getElem?_getD, List.getElem?_eq_getElem hk, Option.getD_some]
  rw [headerSize] at hlength ⊢
  refine List.ext_getElem ?_ fun k hk hk' => ?_
  · simp [hlength]
  · have hk : k < 12 := hk
    rw [List.getElem_take]
    interval_cases k <;> exact hget _ _

/-! ### Whole messages -/

/-- A call that counts as a success has received a message: it stands at the head of what was
there, and no array was left. -/
def ReceivedWhole (stream : List UInt8) (received : Received) : Prop :=
  0 < received.ret → received.touched ≤ maxTypedPipeBuff ∧
    received.msg.obsCount.toInt ≤ maxObstacles ∧
    ∃ rest, stream = messageBytes received.msg ++ rest

/-- Nothing is there; or a header without obstacles, or with none of its obstacles, or with all of
them and room for them. -/
def Complete (pipe : TypedPipe) (stream : List UInt8) : Prop :=
  ¬ Updates pipe ∨ stream = [] ∨ headerSize ≤ stream.length ∧
    ((announced stream).toInt ≤ 0 ∨ stream.length = headerSize ∨
      (announced stream).toInt ≤ maxObstacles ∧
        headerSize + 2 * obstacles stream ≤ stream.length)

instance (pipe : TypedPipe) (stream : List UInt8) : Decidable (Complete pipe stream) :=
  inferInstanceAs (Decidable (_ ∨ _))

theorem length_messageBytes (msg : MapUpdate) :
    (messageBytes msg).length = headerSize + 2 * msg.obsCount.toInt.toNat := by
  rw [messageBytes, List.length_append, length_obstacleBytes]
  rfl

/-- A byte of the head of a list. -/
theorem getElem?_take_eq_getD {l : List UInt8} {k n : ℕ} (hk : k < n) (hn : n ≤ l.length) :
    (l.take n)[k]? = some (l.getD k 0) := by
  rw [List.getElem?_take_of_lt hk, List.getD_eq_getElem?_getD,
    List.getElem?_eq_getElem (hk.trans_le hn), Option.getD_some]

/-- What the loop takes out of the buffer. -/
theorem received_obstacles (msg : MapUpdate) (hlength : headerSize ≤ stream.length)
    (hwhole : headerSize + 2 * obstacles stream ≤ stream.length) :
    let received := unpackObstacles (store (store (fun _ => 0) 0 (stream.take headerSize)) headerSize
      ((stream.drop headerSize).take (2 * obstacles stream))) (obstacles stream)
      (withHeader msg stream)
    received.obsCount = announced stream ∧
      messageBytes received = stream.take (headerSize + 2 * obstacles stream) ∧
      ∀ i < obstacles stream,
        received.obsX i = (stream.drop headerSize).getD (2 * i) 0 ∧
          received.obsY i = (stream.drop headerSize).getD (2 * i + 1) 0 := by
  intro received
  obtain ⟨hposeX, hposeY, hcount, hobs⟩ := unpackObstacles_spec
    (store (store (fun _ => 0) 0 (stream.take headerSize)) headerSize
      ((stream.drop headerSize).take (2 * obstacles stream))) (obstacles stream)
    (withHeader msg stream)
  have hlist : ∀ k < 2 * obstacles stream,
      store (store (fun _ => 0) 0 (stream.take headerSize)) headerSize
        ((stream.drop headerSize).take (2 * obstacles stream)) (headerSize + k) =
          (stream.drop headerSize).getD k 0 := by
    intro k hk
    refine store_of_getElem? (getElem?_take_eq_getD hk ?_)
    rw [List.length_drop]
    omega
  have hpairs : ∀ i < obstacles stream,
      received.obsX i = (stream.drop headerSize).getD (2 * i) 0 ∧
        received.obsY i = (stream.drop headerSize).getD (2 * i + 1) 0 := by
    intro i hi
    rw [← hlist (2 * i) (by omega), ← hlist (2 * i + 1) (by omega), mul_comm 2 i]
    exact hobs i hi
  refine ⟨hcount, ?_, hpairs⟩
  have hbytes := obstacleBytes_eq received
    (by rw [List.length_drop]; omega : 2 * obstacles stream ≤ (stream.drop headerSize).length) hpairs
  have hcount' : received.obsCount.toInt.toNat = obstacles stream := by rw [hcount]; rfl
  rw [messageBytes, hposeX, hposeY, hcount', hbytes, hcount, header_eq msg hlength,
    List.take_add]

/-- A header that announces two obstacles, and the first of them. -/
def truncated : List UInt8 := [0, 0, 0, 10, 0, 0, 0, 10, 0, 0, 0, 2, 11, 12]

end S3RES.AStar
