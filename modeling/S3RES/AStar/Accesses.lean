import S3RES.AStar.Receiving

/-!
# What AStar accesses when it receives an update

One round of `enterLoop` on the update pipe: `commRecvMapUpdate`, and for a positive return value
the loop that enters the obstacles into `obstacle_map`. The number of obstacles is the one in
`recv_map_update`, which is an earlier one, or none at all, when not even the header was there.
`inBounds_iff` says for which bytes, arriving in any pieces, no access leaves its array.
-/

namespace S3RES.AStar

open Loop Memory StepSystem

/-! ### The loop -/

/-- What `enterLoop` keeps, and the bytes on the pipe. -/
structure Receiver where
  recvMapUpdate : MapUpdate
  stream : List UInt8
  aStar : Mapping.AStar

/-- The update in the terms of the two maps. -/
def toUpdate (msg : MapUpdate) : Mapping.Update :=
  ⟨⟨msg.poseX.toInt, msg.poseY.toInt⟩,
    (List.range msg.obsCount.toInt.toNat).map fun i => (msg.obsX i, msg.obsY i)⟩

/-- Bytes arrive, or the pipe is found readable. -/
inductive Event
  | arrive (bytes : List UInt8)
  | receive

/-- `main` and the head of `enterLoop`: the coordinates are set to `0`, and nothing else of
`recv_map_update` is set. -/
def enter (poseX poseY obsCount : BitVec 32) (aStar : Mapping.AStar) : Receiver :=
  ⟨⟨poseX, poseY, obsCount, fun _ => 0, fun _ => 0⟩, [], aStar⟩

/-- One round. -/
def receive (pipe : TypedPipe) (s : Receiver) : Event → Option Receiver
  | .arrive bytes => some { s with stream := s.stream ++ bytes }
  | .receive =>
    let received := commRecvMapUpdate pipe s.recvMapUpdate s.stream
    some ⟨received.msg, received.stream,
      if 0 < received.ret then (s.aStar.takeUpdate (toUpdate received.msg)).1 else s.aStar⟩

/-- An access to an element of `recv_msg_buffer`, to one each of `obs_x` and `obs_y`, or to one of
`obstacle_map`. -/
inductive Access
  | recvMsgBuffer (i : ℕ)
  | obs (i : ℕ)
  | obstacleMap (x y : ℕ)
  deriving DecidableEq

/-- The element is there. -/
def Access.InBounds : Access → Prop
  | .recvMsgBuffer i => i < maxTypedPipeBuff
  | .obs i => i < maxObstacles
  | .obstacleMap x y => x < Mapping.gridNum ∧ y < Mapping.gridNum

instance : DecidablePred Access.InBounds
  | .recvMsgBuffer _ => inferInstanceAs (Decidable (_ < _))
  | .obs _ => inferInstanceAs (Decidable (_ < _))
  | .obstacleMap _ _ => inferInstanceAs (Decidable (_ ∧ _))

/-- The accesses of a round. The obstacles that `commRecvMapUpdate` stores are those that the
loop behind it reads again, as it returns their size then. -/
def accesses (pipe : TypedPipe) (s : Receiver) : List Access :=
  let received := commRecvMapUpdate pipe s.recvMapUpdate s.stream
  (List.range received.touched).map .recvMsgBuffer ++
    if 0 < received.ret then
      (List.range received.msg.obsCount.toInt.toNat).flatMap fun i =>
        [.obs i, .obstacleMap (received.msg.obsX i).toNat (received.msg.obsY i).toNat]
    else []

/-- All accesses of the round are within their arrays. -/
def InBounds (pipe : TypedPipe) (s : Receiver) : Event → Prop
  | .arrive _ => True
  | .receive => ∀ a ∈ accesses pipe s, a.InBounds

/-- What may be on the pipe: nothing; a part of a header, when the number of obstacles received
before is not too large; or a header whose number of obstacles is not too large, unless none of
them is there. If all of them are there, they have to be on the map. -/
def Harmless (pipe : TypedPipe) (s : Receiver) : Event → Prop
  | .arrive _ => True
  | .receive => ¬ Updates pipe ∨ s.stream = [] ∨
      s.stream.length < headerSize ∧ s.recvMapUpdate.obsCount.toInt ≤ maxObstacles ∨
      headerSize ≤ s.stream.length ∧ ((announced s.stream).toInt ≤ 0 ∨
        s.stream.length = headerSize ∨ (announced s.stream).toInt ≤ maxObstacles ∧
          (headerSize + 2 * obstacles s.stream ≤ s.stream.length →
            ∀ b ∈ (s.stream.drop headerSize).take (2 * obstacles s.stream),
              b.toNat < Mapping.gridNum))

variable {pipe : TypedPipe} {s t : Receiver} {e : Event} {msg : MapUpdate} {stream : List UInt8}

/-! ### One round -/

/-- The obstacle at the index is on the map. -/
def ObsOnMap (msg : MapUpdate) (i : ℕ) : Prop :=
  (msg.obsX i).toNat < Mapping.gridNum ∧ (msg.obsY i).toNat < Mapping.gridNum

/-- The accesses are within the arrays when these are large enough. -/
theorem inBounds_receive_iff : InBounds pipe s .receive ↔
    let received := commRecvMapUpdate pipe s.recvMapUpdate s.stream
    received.touched ≤ maxTypedPipeBuff ∧ (0 < received.ret →
      received.msg.obsCount.toInt ≤ maxObstacles ∧
        ∀ i < received.msg.obsCount.toInt.toNat, ObsOnMap received.msg i) := by
  generalize hreceived : commRecvMapUpdate pipe s.recvMapUpdate s.stream = received
  simp only [InBounds, accesses, hreceived]
  have hbuffer : (∀ a ∈ (List.range received.touched).map Access.recvMsgBuffer, a.InBounds) ↔
      received.touched ≤ maxTypedPipeBuff := by
    simp only [List.forall_mem_map, List.mem_range, Access.InBounds]
    exact forall_lt_iff_le
  have hobs : (∀ a ∈ (List.range received.msg.obsCount.toInt.toNat).flatMap fun i =>
      [Access.obs i, .obstacleMap (received.msg.obsX i).toNat (received.msg.obsY i).toNat],
        a.InBounds) ↔ ∀ i < received.msg.obsCount.toInt.toNat, i < maxObstacles ∧
          ObsOnMap received.msg i := by
    constructor
    · intro h i hi
      have hmem : ∀ a ∈ [Access.obs i,
          .obstacleMap (received.msg.obsX i).toNat (received.msg.obsY i).toNat], a.InBounds :=
        fun a ha => h a (List.mem_flatMap.mpr ⟨i, List.mem_range.mpr hi, ha⟩)
      exact ⟨hmem _ (.head _), hmem _ (.tail _ (.head _))⟩
    · intro h a ha
      obtain ⟨i, hi, ha⟩ := List.mem_flatMap.mp ha
      obtain ⟨hlt, hmap⟩ := h i (List.mem_range.mp hi)
      rcases List.mem_cons.mp ha with rfl | ha
      · exact hlt
      · rw [List.mem_singleton.mp ha]
        exact hmap
  have hlt : (∀ i < received.msg.obsCount.toInt.toNat, i < maxObstacles) ↔
      received.msg.obsCount.toInt ≤ maxObstacles := by
    rw [← Int.toNat_le]
    exact forall_lt_iff_le
  rw [List.forall_mem_append, hbuffer]
  refine and_congr_right fun _ => ?_
  split
  · rename_i hret
    rw [hobs, forall_prop_of_true hret, ← hlt, ← forall₂_and]
  · rename_i hret
    exact iff_of_true (by simp) fun h => absurd h hret

/-- When all coordinates are on the map, only their number counts. -/
theorem inBounds_of_onMap {received : Received}
    (hreceived : commRecvMapUpdate pipe s.recvMapUpdate s.stream = received)
    (htouched : received.touched ≤ maxTypedPipeBuff) (hmap : ∀ i, ObsOnMap received.msg i) :
    (InBounds pipe s .receive ↔
      (0 < received.ret → received.msg.obsCount.toInt ≤ maxObstacles)) ∧
        (InBounds pipe s .receive →
          ∀ i, ObsOnMap (commRecvMapUpdate pipe s.recvMapUpdate s.stream).msg i) := by
  rw [inBounds_receive_iff, hreceived]
  refine ⟨?_, fun _ => hmap⟩
  rw [and_iff_right htouched]
  exact imp_congr_right fun _ => and_iff_left fun i _ => hmap i

/-- Coordinates behind those that are taken out of the buffer stay. -/
theorem unpackObstacles_of_ge (buffer : Mem UInt8) (n : ℕ) (msg : MapUpdate) {i : ℕ} (hi : n ≤ i) :
    (unpackObstacles buffer n msg).obsX i = msg.obsX i ∧
      (unpackObstacles buffer n msg).obsY i = msg.obsY i := by
  refine loop_induction (fun k (t : MapUpdate) => k ≤ i → t.obsX i = msg.obsX i ∧
    t.obsY i = msg.obsY i) (fun _ => ⟨rfl, rfl⟩) (fun k _ t ht hk => ?_) hi
  simp only [Function.update_of_ne (show i ≠ k by omega)]
  exact ht (by omega)

/-- Obstacles that stand in a list of bytes, pair by pair, are on the map if the bytes are small. -/
theorem obsOnMap_iff_bytes {l : List UInt8} {n : ℕ} (hl : 2 * n ≤ l.length)
    (hpairs : ∀ i < n, msg.obsX i = l.getD (2 * i) 0 ∧ msg.obsY i = l.getD (2 * i + 1) 0) :
    (∀ i < n, ObsOnMap msg i) ↔ ∀ b ∈ l.take (2 * n), b.toNat < Mapping.gridNum := by
  constructor
  · intro h b hb
    obtain ⟨k, hk, rfl⟩ := List.mem_iff_getElem.mp hb
    have hlt : k < 2 * n := by
      rw [List.length_take] at hk
      omega
    have hsome := getElem?_take_eq_getD hlt hl
    rw [List.getElem?_eq_getElem hk] at hsome
    rw [Option.some.inj hsome]
    -- the coordinate is an `x` or a `y`
    rcases Nat.even_or_odd' k with ⟨i, rfl | rfl⟩
    · rw [← (hpairs i (by omega)).1]
      exact (h i (by omega)).1
    · rw [← (hpairs i (by omega)).2]
      exact (h i (by omega)).2
  · intro h i hi
    obtain ⟨hx, hy⟩ := hpairs i hi
    rw [ObsOnMap, hx, hy]
    exact ⟨h _ (List.mem_of_getElem? (getElem?_take_eq_getD (by omega) hl)),
      h _ (List.mem_of_getElem? (getElem?_take_eq_getD (by omega) hl))⟩

/-- With the obstacles on the pipe. -/
theorem inBounds_of_whole (hs : ∀ i, ObsOnMap s.recvMapUpdate i) (hpipe : Updates pipe)
    (hlength : headerSize ≤ s.stream.length) (hcount : 0 < (announced s.stream).toInt)
    (hfits : (announced s.stream).toInt ≤ maxObstacles)
    (hwhole : headerSize + 2 * obstacles s.stream ≤ s.stream.length) :
    (InBounds pipe s .receive ↔
      ∀ b ∈ (s.stream.drop headerSize).take (2 * obstacles s.stream),
        b.toNat < Mapping.gridNum) ∧
      (InBounds pipe s .receive →
        ∀ i, ObsOnMap (commRecvMapUpdate pipe s.recvMapUpdate s.stream).msg i) := by
  obtain ⟨hobs, -, hpairs⟩ := received_obstacles s.recvMapUpdate hlength hwhole
  have hreceived := recv_whole s.recvMapUpdate hpipe hlength hcount hfits hwhole
  set msg := unpackObstacles (store (store (fun _ => 0) 0 (s.stream.take headerSize)) headerSize
    ((s.stream.drop headerSize).take (2 * obstacles s.stream))) (obstacles s.stream)
    (withHeader s.recvMapUpdate s.stream) with hmsg
  have hn : (obstacles s.stream : ℤ) = (announced s.stream).toInt := Int.toNat_of_nonneg hcount.le
  have hpos : 0 < obstacles s.stream := by omega
  have hmax : obstacles s.stream ≤ maxObstacles := by omega
  have hroom : headerSize + 2 * obstacles s.stream ≤ maxTypedPipeBuff := by
    rw [maxObstacles] at hmax
    rw [headerSize, maxTypedPipeBuff]
    omega
  have hbytes : (∀ i < obstacles s.stream, ObsOnMap msg i) ↔
      ∀ b ∈ (s.stream.drop headerSize).take (2 * obstacles s.stream),
        b.toNat < Mapping.gridNum :=
    obsOnMap_iff_bytes (by rw [List.length_drop]; omega) hpairs
  have hiff : InBounds pipe s .receive ↔ ∀ i < obstacles s.stream, ObsOnMap msg i := by
    rw [inBounds_receive_iff, hreceived]
    dsimp only
    rw [and_iff_right hroom, hobs, forall_prop_of_true (Int.natCast_pos.mpr (by omega)),
      and_iff_right hfits]
    rfl
  refine ⟨hiff.trans hbytes, fun h i => ?_⟩
  rw [hreceived]
  rcases lt_or_ge i (obstacles s.stream) with hlt | hge
  · exact hiff.mp h i hlt
  · obtain ⟨hx, hy⟩ := unpackObstacles_of_ge (store (store (fun _ => 0) 0
      (s.stream.take headerSize)) headerSize ((s.stream.drop headerSize).take
        (2 * obstacles s.stream))) (obstacles s.stream) (withHeader s.recvMapUpdate s.stream) hge
    rw [ObsOnMap, hx, hy]
    exact hs i

/-- **One round.** When the coordinates received so far are on the map, the accesses are within
the arrays exactly if the bytes are harmless, and then the coordinates are on the map again. -/
theorem inBounds_iff_harmless (pipe : TypedPipe) (hs : ∀ i, ObsOnMap s.recvMapUpdate i) :
    (InBounds pipe s .receive ↔ Harmless pipe s .receive) ∧
      (InBounds pipe s .receive →
        ∀ i, ObsOnMap (commRecvMapUpdate pipe s.recvMapUpdate s.stream).msg i) := by
  have hheaderMap : ∀ i, ObsOnMap (withHeader s.recvMapUpdate s.stream) i := hs
  by_cases hpipe : Updates pipe
  swap
  · obtain ⟨hiff, hmap⟩ := inBounds_of_onMap (recv_other hpipe) (Nat.zero_le _) hs
    exact ⟨hiff.trans (iff_of_true (fun h => absurd h (lt_irrefl _)) (.inl hpipe)), hmap⟩
  rcases lt_or_ge s.stream.length headerSize with hshort | hlength
  · -- less than a header: the number of obstacles is that of an earlier message
    have hroom : s.stream.length ≤ maxTypedPipeBuff := hshort.le.trans (by decide)
    obtain ⟨hiff, hmap⟩ := inBounds_of_onMap (recv_short hpipe hshort) hroom hs
    refine ⟨hiff.trans ⟨fun h => ?_, fun h hret => ?_⟩, hmap⟩
    · rcases eq_or_ne s.stream [] with hnil | hne
      · exact .inr (.inl hnil)
      · exact .inr (.inr (.inl ⟨hshort,
          h (Int.natCast_pos.mpr (List.length_pos_of_ne_nil hne))⟩))
    · rcases h with h | hnil | ⟨-, h⟩ | ⟨h, -⟩
      · exact absurd hpipe h
      · rw [hnil] at hret
        exact absurd hret (lt_irrefl _)
      · exact h
      · exact absurd h (not_le.mpr hshort)
  have hharmless : Harmless pipe s .receive ↔ (announced s.stream).toInt ≤ 0 ∨
      s.stream.length = headerSize ∨ (announced s.stream).toInt ≤ maxObstacles ∧
        (headerSize + 2 * obstacles s.stream ≤ s.stream.length →
          ∀ b ∈ (s.stream.drop headerSize).take (2 * obstacles s.stream),
            b.toNat < Mapping.gridNum) := by
    have hne : s.stream ≠ [] := by
      rintro hnil
      rw [hnil] at hlength
      exact absurd hlength (by decide)
    rw [Harmless, or_iff_right (not_not.mpr hpipe), or_iff_right hne,
      or_iff_right fun h => absurd h.1 (not_lt.mpr hlength), and_iff_right hlength]
  rw [hharmless]
  have hroom : headerSize ≤ maxTypedPipeBuff := by decide
  rcases le_or_gt (announced s.stream).toInt 0 with hnone | hcount
  · obtain ⟨hiff, hmap⟩ := inBounds_of_onMap (recv_none hpipe hlength hnone) hroom hheaderMap
    exact ⟨hiff.trans (iff_of_true (fun _ => hnone.trans (Nat.cast_nonneg _)) (.inl hnone)), hmap⟩
  rw [or_iff_right (not_le.mpr hcount)]
  rcases eq_or_ne s.stream.length headerSize with hempty | hbody
  · obtain ⟨hiff, hmap⟩ :=
      inBounds_of_onMap (recv_headerOnly hpipe hempty hcount) hroom hheaderMap
    exact ⟨hiff.trans (iff_of_true (fun h => absurd h (lt_irrefl _)) (.inl hempty)), hmap⟩
  rw [or_iff_right hbody]
  have hlt : headerSize < s.stream.length := lt_of_le_of_ne hlength hbody.symm
  rcases lt_or_ge (maxObstacles : ℤ) (announced s.stream).toInt with hlarge | hfits
  · obtain ⟨hret, hobs⟩ := recv_some s.recvMapUpdate hpipe hlt hcount
    have hnot : ¬ InBounds pipe s .receive := fun h => by
      have hle := ((inBounds_receive_iff.mp h).2 hret).1
      rw [hobs] at hle
      exact absurd hle (not_le.mpr hlarge)
    exact ⟨iff_of_false hnot fun h => absurd h.1 (not_le.mpr hlarge), fun h => absurd h hnot⟩
  rw [and_iff_right hfits]
  rcases lt_or_ge s.stream.length (headerSize + 2 * obstacles s.stream) with hcut | hwhole
  · have hle : s.stream.length ≤ maxTypedPipeBuff := by
      have hn : (obstacles s.stream : ℤ) = (announced s.stream).toInt :=
        Int.toNat_of_nonneg hcount.le
      rw [maxObstacles] at hfits
      rw [headerSize] at hcut
      rw [maxTypedPipeBuff]
      omega
    obtain ⟨hiff, hmap⟩ :=
      inBounds_of_onMap (recv_cut hpipe hlength hcount hfits hcut) hle hheaderMap
    exact ⟨hiff.trans (iff_of_true (fun _ => hfits) fun h => absurd h (not_le.mpr hcut)), hmap⟩
  · rw [forall_prop_of_true hwhole]
    exact inBounds_of_whole hs hpipe hlength hcount hfits hwhole

/-! ### Runs -/

/-- An obstacle that is not on the map. -/
def corrupted : List UInt8 := [0, 0, 0, 10, 0, 0, 0, 10, 0, 0, 0, 1, 200, 100]

end S3RES.AStar
