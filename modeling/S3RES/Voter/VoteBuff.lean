import S3RES.Foundations.Window

/-!
# The vote buffer

`voter/vote_buff.c`: a `vote_pipe` is a ring of `MAX_VOTE_PIPE_BUFF` bytes with a start
index and a byte count, next to the descriptors of the pipe it belongs to. The functions
below are the ones of the file, with their own wrap tests; a call of `read` is represented
by the chunk of bytes it returned (`[]` when it returned `0` or failed), a call of `write`
by the bytes handed to it.

`VotePipe.content` is the byte queue the ring stands for, and each function gets one lemma
that says what it does to the queue: `pipeToBuff_content`, `buffToPipe_content`,
`fakeToPipe_content`, `compareBuffs_eq_zero_iff`, `copyPipe_content`.
-/

namespace S3RES

open Memory Window

/-- `MAX_VOTE_PIPE_BUFF`. -/
def maxVotePipeBuff : ℕ := 4096

theorem maxVotePipeBuff_pos : 0 < maxVotePipeBuff := by decide

/-- `struct vote_pipe`. -/
structure VotePipe where
  repInfo : String
  fdIn : ℕ
  fdOut : ℕ
  timed : Bool
  buffCount : ℕ
  buffIndex : ℕ
  buffer : Mem UInt8

/-- The difference `memcmp` reports for two bytes. -/
def byteDiff (x y : UInt8) : ℤ := x.toNat - y.toNat

theorem byteDiff_eq_zero_iff (x y : UInt8) : byteDiff x y = 0 ↔ x = y := by
  rw [byteDiff, sub_eq_zero, Nat.cast_inj, UInt8.toNat_inj]

/-- The `temp_buffer` a `read` has filled with `chunk`. -/
def tempBuffer (chunk : List UInt8) : Mem UInt8 := store (fun _ => 0) 0 chunk

/-- Read available bytes into the buffer; `-1` if the read failed or the size is
exceeded. `chunk` is what `read` put in `temp_buffer`. -/
def pipeToBuff (pipe : VotePipe) (chunk : List UInt8) : ℤ × VotePipe :=
  let readCount := chunk.length
  if readCount > 0 then
    if readCount < maxVotePipeBuff - pipe.buffCount then
      let endIndex := (pipe.buffIndex + pipe.buffCount) % maxVotePipeBuff
      let buffer :=
        if endIndex > (endIndex + readCount) % maxVotePipeBuff then
          let partRead := readCount - (endIndex + readCount) % maxVotePipeBuff
          memcpy (memcpy pipe.buffer endIndex (tempBuffer chunk) 0 partRead) 0
            (tempBuffer chunk) partRead (readCount - partRead)
        else
          memcpy pipe.buffer endIndex (tempBuffer chunk) 0 readCount
      (0, { pipe with buffer := buffer, buffCount := pipe.buffCount + readCount })
    else
      (-1, pipe)
  else
    (-1, pipe)

/-- Advance the buffer by `n` bytes without a write. -/
def fakeToPipe (pipe : VotePipe) (n : ℕ) : VotePipe :=
  { pipe with
    buffIndex := (pipe.buffIndex + n) % maxVotePipeBuff
    buffCount := pipe.buffCount - n }

/-- Write `n` bytes: the return value, the bytes handed to `write` (none when the request
is larger than the count), and the pipe afterwards. -/
def buffToPipe (pipe : VotePipe) (n : ℕ) : ℤ × List UInt8 × VotePipe :=
  if n > pipe.buffCount then
    (-1, [], pipe)
  else if pipe.buffIndex + n < maxVotePipeBuff then
    (0, block pipe.buffer pipe.buffIndex n, fakeToPipe pipe n)
  else
    let partWrite := maxVotePipeBuff - pipe.buffIndex
    let temp := memcpy (memcpy (fun _ => 0) 0 pipe.buffer pipe.buffIndex partWrite) partWrite
      pipe.buffer 0 (n - partWrite)
    (0, block temp 0 n, fakeToPipe pipe n)

/-- Check if `n` bytes match: `0` when they do. -/
def compareBuffs (pipeA pipeB : VotePipe) (n : ℕ) : ℤ :=
  if pipeA.buffIndex ≠ pipeB.buffIndex then
    -1
  else if pipeA.buffIndex + n < maxVotePipeBuff then
    memcmp byteDiff pipeA.buffer pipeA.buffIndex pipeB.buffer pipeB.buffIndex n
  else
    let partCmp := maxVotePipeBuff - pipeA.buffIndex
    let result := memcmp byteDiff pipeA.buffer pipeA.buffIndex pipeB.buffer pipeB.buffIndex
      partCmp
    if result ≠ 0 then result
    else memcmp byteDiff pipeA.buffer 0 pipeB.buffer 0 (n - partCmp)

/-- The destination after copying the source's index, count and bytes into it. -/
def copyPipe (destPipe srcPipe : VotePipe) : VotePipe :=
  let dest := { destPipe with buffCount := srcPipe.buffCount, buffIndex := srcPipe.buffIndex }
  if srcPipe.buffIndex + srcPipe.buffCount < maxVotePipeBuff then
    { dest with
      buffer := memcpy dest.buffer dest.buffIndex srcPipe.buffer srcPipe.buffIndex
        srcPipe.buffCount }
  else
    let partCpy := maxVotePipeBuff - srcPipe.buffIndex
    { dest with
      buffer := memcpy (memcpy dest.buffer dest.buffIndex srcPipe.buffer srcPipe.buffIndex
        partCpy) 0 srcPipe.buffer 0 (srcPipe.buffCount - partCpy) }

/-! ### The queue a vote pipe stands for -/

/-- The bytes held, oldest first. -/
def VotePipe.content (pipe : VotePipe) : List UInt8 :=
  window maxVotePipeBuff pipe.buffer pipe.buffIndex pipe.buffCount

/-- The ranges of the two cursors: an index inside the array, and a count that leaves at
least one byte free. -/
structure VotePipe.Valid (pipe : VotePipe) : Prop where
  index_lt : pipe.buffIndex < maxVotePipeBuff
  count_lt : pipe.buffCount < maxVotePipeBuff

@[simp] theorem length_content (pipe : VotePipe) : pipe.content.length = pipe.buffCount :=
  length_window _ _ _

theorem take_content {pipe : VotePipe} {n : ℕ} (hn : n ≤ pipe.buffCount) :
    pipe.content.take n = window maxVotePipeBuff pipe.buffer pipe.buffIndex n :=
  take_window _ _ hn

/-- A stretch of the temporary buffer is the corresponding stretch of the chunk. -/
theorem block_tempBuffer {chunk : List UInt8} {s n : ℕ} (h : s + n ≤ chunk.length) :
    block (tempBuffer chunk) s n = (chunk.drop s).take n := by
  refine List.ext_getElem (by simp; omega) fun k hk hk' => ?_
  have hlt : s + k < chunk.length := by simp at hk; omega
  have hcell : store (fun _ => (0 : UInt8)) 0 chunk (0 + (s + k)) = chunk[s + k] :=
    store_add hlt
  simpa [block, tempBuffer] using hcell

/-! ### `pipeToBuff` -/

/-- The two branches of the copy are one ring store. -/
private theorem pipeToBuff_buffer {buffer : Mem UInt8} {endIndex : ℕ} {chunk : List UInt8}
    (he : endIndex < maxVotePipeBuff) (hpos : 0 < chunk.length)
    (hlt : chunk.length < maxVotePipeBuff) :
    (if endIndex > (endIndex + chunk.length) % maxVotePipeBuff then
        memcpy (memcpy buffer endIndex (tempBuffer chunk) 0
            (chunk.length - (endIndex + chunk.length) % maxVotePipeBuff)) 0 (tempBuffer chunk)
          (chunk.length - (endIndex + chunk.length) % maxVotePipeBuff)
          (chunk.length - (chunk.length - (endIndex + chunk.length) % maxVotePipeBuff))
      else memcpy buffer endIndex (tempBuffer chunk) 0 chunk.length) =
      putRing maxVotePipeBuff buffer endIndex chunk := by
  rcases Nat.lt_or_ge (endIndex + chunk.length) maxVotePipeBuff with h | h
  · rw [if_neg (by rw [Nat.mod_eq_of_lt h]; omega), memcpy, block_tempBuffer (by omega), putRing,
      List.drop_of_length_le (i := maxVotePipeBuff - endIndex) (by omega),
      List.take_of_length_le (i := maxVotePipeBuff - endIndex) (by omega)]
    simp
  · have hmod : (endIndex + chunk.length) % maxVotePipeBuff =
        endIndex + chunk.length - maxVotePipeBuff := by
      rw [Nat.mod_eq_sub_mod h, Nat.mod_eq_of_lt (by omega)]
    -- the first part is what fits before the end, also when the chunk ends exactly there
    have hpart : chunk.length - (endIndex + chunk.length - maxVotePipeBuff) =
        maxVotePipeBuff - endIndex := by omega
    rw [hmod, if_pos (by omega), hpart, memcpy, memcpy, block_tempBuffer (by omega),
      block_tempBuffer (by omega), putRing, List.drop_zero,
      List.take_of_length_le (l := chunk.drop _) (by simp)]

/-- A chunk is accepted exactly when it is not empty and leaves a byte free. -/
theorem pipeToBuff_eq_zero_iff {pipe : VotePipe} {chunk : List UInt8} :
    (pipeToBuff pipe chunk).1 = 0 ↔
      chunk ≠ [] ∧ chunk.length + pipe.buffCount < maxVotePipeBuff := by
  rw [← List.length_pos_iff]
  simp only [pipeToBuff]
  split_ifs <;> simp <;> omega

/-- What `pipeToBuff` leaves behind: the chunk stored behind the content, or the pipe as
it was. -/
theorem pipeToBuff_snd (pipe : VotePipe) (chunk : List UInt8) :
    (pipeToBuff pipe chunk).2 =
      if chunk.length + pipe.buffCount < maxVotePipeBuff then
        { pipe with
          buffer := putRing maxVotePipeBuff pipe.buffer
            ((pipe.buffIndex + pipe.buffCount) % maxVotePipeBuff) chunk
          buffCount := pipe.buffCount + chunk.length }
      else pipe := by
  have he := Nat.mod_lt (pipe.buffIndex + pipe.buffCount) maxVotePipeBuff_pos
  by_cases hfit : chunk.length + pipe.buffCount < maxVotePipeBuff
  · rcases Nat.eq_zero_or_pos chunk.length with hzero | hpos
    · obtain rfl := List.eq_nil_of_length_eq_zero hzero
      simp [pipeToBuff, putRing]
    · simp only [pipeToBuff]
      rw [if_pos hpos, if_pos (by omega), if_pos hfit,
        pipeToBuff_buffer he hpos (by omega)]
  · simp only [pipeToBuff]
    have hroom : ¬ chunk.length < maxVotePipeBuff - pipe.buffCount := by omega
    rw [if_neg hfit, if_neg hroom, ite_self]

/-- An accepted chunk is appended. -/
theorem pipeToBuff_content {pipe : VotePipe} {chunk : List UInt8}
    (hfit : chunk.length + pipe.buffCount < maxVotePipeBuff) :
    (pipeToBuff pipe chunk).2.content = pipe.content ++ chunk := by
  rw [pipeToBuff_snd, if_pos hfit]
  exact window_putRing _ maxVotePipeBuff_pos (by omega)

/-- A rejected chunk is lost. -/
theorem pipeToBuff_of_full {pipe : VotePipe} {chunk : List UInt8}
    (hfull : ¬ chunk.length + pipe.buffCount < maxVotePipeBuff) :
    (pipeToBuff pipe chunk).2 = pipe := by
  rw [pipeToBuff_snd, if_neg hfull]

theorem pipeToBuff_valid {pipe : VotePipe} (hpipe : pipe.Valid) (chunk : List UInt8) :
    (pipeToBuff pipe chunk).2.Valid := by
  rw [pipeToBuff_snd]
  split
  · exact ⟨hpipe.index_lt, by simp only; omega⟩
  · exact hpipe

/-- Nothing is written past the end of the array. -/
theorem pipeToBuff_frame (pipe : VotePipe) (chunk : List UInt8) {k : ℕ}
    (hk : maxVotePipeBuff ≤ k) : (pipeToBuff pipe chunk).2.buffer k = pipe.buffer k := by
  rw [pipeToBuff_snd]
  split
  · exact putRing_frame _ (Nat.mod_lt _ maxVotePipeBuff_pos) (by omega) hk
  · rfl

/-! ### `fakeToPipe` and `buffToPipe` -/

theorem fakeToPipe_content {pipe : VotePipe} {n : ℕ} (hn : n ≤ pipe.buffCount) :
    (fakeToPipe pipe n).content = pipe.content.drop n :=
  (drop_window _ _ hn).symm

theorem fakeToPipe_valid {pipe : VotePipe} (hpipe : pipe.Valid) (n : ℕ) :
    (fakeToPipe pipe n).Valid :=
  ⟨Nat.mod_lt _ maxVotePipeBuff_pos, (Nat.sub_le _ _).trans_lt hpipe.count_lt⟩

/-- The bytes handed to `write` are the first `n` held. -/
theorem buffToPipe_bytes {pipe : VotePipe} (hpipe : pipe.Valid) {n : ℕ}
    (hn : n ≤ pipe.buffCount) : (buffToPipe pipe n).2.1 = pipe.content.take n := by
  have hcount := hpipe.count_lt
  have hindex := hpipe.index_lt
  simp only [buffToPipe]
  rw [if_neg (by omega), take_content hn]
  split_ifs with h
  · exact (window_eq_block _ h.le).symm
  · rw [window_eq_append_block _ hindex (by omega) (by omega)]
    have hsplit : n = (maxVotePipeBuff - pipe.buffIndex) +
        (n - (maxVotePipeBuff - pipe.buffIndex)) := by omega
    dsimp only
    conv_lhs => rw [hsplit]
    rw [block_add, Nat.add_sub_cancel_left]
    congr 1
    · refine block_eq_block_iff.mpr fun k hk => ?_
      rw [memcpy_of_lt (by omega), memcpy_add hk]
    · refine block_eq_block_iff.mpr fun k hk => ?_
      rw [Nat.zero_add, memcpy_add hk]

theorem buffToPipe_content {pipe : VotePipe} {n : ℕ} (hn : n ≤ pipe.buffCount) :
    (buffToPipe pipe n).2.2 = fakeToPipe pipe n := by
  simp only [buffToPipe]
  rw [if_neg (by omega)]
  split <;> rfl

/-! ### `compareBuffs` and `copyPipe` -/

/-- On pipes with one start index the comparison decides equality of the first `n` bytes. -/
theorem compareBuffs_eq_zero_iff {pipeA pipeB : VotePipe} (hA : pipeA.Valid)
    (hindex : pipeA.buffIndex = pipeB.buffIndex) {n : ℕ} (hnA : n ≤ pipeA.buffCount)
    (hnB : n ≤ pipeB.buffCount) :
    compareBuffs pipeA pipeB n = 0 ↔ pipeA.content.take n = pipeB.content.take n := by
  have hcount := hA.count_lt
  have hlt := hA.index_lt
  rw [take_content hnA, take_content hnB]
  simp only [compareBuffs, hindex, ne_eq, not_true_eq_false, if_false]
  rw [hindex] at hlt
  split_ifs with hsimple hpart
  · rw [memcmp_eq_zero_iff byteDiff_eq_zero_iff, window_eq_block _ hsimple.le,
      window_eq_block _ hsimple.le]
  · -- the stretches up to the end of the array already agree
    rw [memcmp_eq_zero_iff byteDiff_eq_zero_iff] at hpart ⊢
    rw [window_eq_append_block _ hlt (by omega) (by omega),
      window_eq_append_block _ hlt (by omega) (by omega), hpart, List.append_cancel_left_eq]
  · refine iff_of_false hpart fun heq => hpart ?_
    rw [window_eq_append_block _ hlt (by omega) (by omega),
      window_eq_append_block _ hlt (by omega) (by omega)] at heq
    rw [memcmp_eq_zero_iff byteDiff_eq_zero_iff]
    exact List.append_inj_left heq (by simp)

theorem copyPipe_content {destPipe srcPipe : VotePipe} (hsrc : srcPipe.Valid) :
    (copyPipe destPipe srcPipe).content = srcPipe.content := by
  have hcount := hsrc.count_lt
  have hindex := hsrc.index_lt
  simp only [copyPipe]
  split_ifs with h
  · simp only [VotePipe.content]
    rw [window_eq_block _ h.le, window_eq_block _ h.le]
    exact block_eq_block_iff.mpr fun k hk => memcpy_add hk
  · simp only [VotePipe.content]
    rw [window_eq_append_block _ hindex (by omega) hcount.le,
      window_eq_append_block _ hindex (by omega) hcount.le]
    congr 1
    · refine block_eq_block_iff.mpr fun k hk => ?_
      rw [memcpy_of_ge (by omega), memcpy_add hk]
    · exact block_eq_block_iff.mpr fun k hk => memcpy_add hk

@[simp] theorem copyPipe_buffCount (destPipe srcPipe : VotePipe) :
    (copyPipe destPipe srcPipe).buffCount = srcPipe.buffCount := by
  simp only [copyPipe]
  split <;> rfl

@[simp] theorem copyPipe_buffIndex (destPipe srcPipe : VotePipe) :
    (copyPipe destPipe srcPipe).buffIndex = srcPipe.buffIndex := by
  simp only [copyPipe]
  split <;> rfl

theorem copyPipe_valid {destPipe srcPipe : VotePipe} (hsrc : srcPipe.Valid) :
    (copyPipe destPipe srcPipe).Valid :=
  ⟨by simpa using hsrc.index_lt, by simpa using hsrc.count_lt⟩

/-- Nothing is written past the end of the destination's array. -/
theorem copyPipe_frame {destPipe srcPipe : VotePipe} (hsrc : srcPipe.Valid) {k : ℕ}
    (hk : maxVotePipeBuff ≤ k) : (copyPipe destPipe srcPipe).buffer k = destPipe.buffer k := by
  have hcount := hsrc.count_lt
  have hindex := hsrc.index_lt
  simp only [copyPipe]
  split_ifs with h
  · exact memcpy_of_ge (by omega)
  · dsimp only
    rw [memcpy_of_ge (by omega), memcpy_of_ge (by omega)]

end S3RES
