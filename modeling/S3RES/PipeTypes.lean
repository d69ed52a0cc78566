import S3RES.PipeArguments
import S3RES.Voter.FdServer

/-!
# The type of a pipe behind the voter

Both voters copy the name of a pipe to a block that is as long as the name, without a zero at its
end, and later compare what is there with `strcmp`. So the type that a replica gets depends on the
byte behind the copy. A block is the memory from its first byte on, with whatever it held before
the name was stored.

`commToEnum_copy`: the type is the declared one if the byte is zero, and `COMM_ERROR` otherwise.
`types_kept_iff` says this for the arguments of both voters, on the way from the command line to
the message of `sendFDS`.
-/

namespace S3RES

open Memory

/-- An argument whose name is that of a type. -/
structure TypedSpec extends PipeSpec where
  type : CommMessage
  name_eq : name = messageT type

namespace PipeTypes

/-! ### Strings in memory -/

/-- `strcmp(&m[s], literal) == 0`. -/
def strcmp (m : Mem UInt8) : ℕ → List UInt8 → Bool
  | s, [] => m s = 0
  | s, b :: l => m s = b && strcmp m (s + 1) l

/-- `commToEnum`, on the memory that `name` points to. -/
def commToEnum (name : Mem UInt8) : CommMessage :=
  if strcmp name 0 (cString "WAY_REQ") then .wayReq
  else if strcmp name 0 (cString "WAY_RES") then .wayRes
  else if strcmp name 0 (cString "MOV_CMD") then .movCmd
  else if strcmp name 0 (cString "RANGE_POSE_DATA") then .rangePoseData
  else if strcmp name 0 (cString "MAP_UPDATE") then .mapUpdate
  else if strcmp name 0 (cString "COMM_ACK") then .commAck
  else if strcmp name 0 (cString "MSG_BUFFER") then .msgBuffer
  else .commError

/-- The loop `rep_info[i] = serial[i]`, in a block that `malloc` returned. -/
def repInfo (heap : Mem UInt8) (name : List UInt8) : Mem UInt8 := store heap 0 name

/-! ### The messages -/

/-- `convertVoteToTyped`, where `repInfo` says what the pointers point to. -/
def convertVoteToTyped (repInfo : ℕ → Mem UInt8) (extPipes : ℕ → VotePipe) (pipeCount : ℕ) :
    List TypedPipe :=
  (List.range pipeCount).map fun i =>
    ⟨commToEnum (repInfo i), (extPipes i).fdIn, (extPipes i).fdOut⟩

/-- The pipes in the message of VoterM's `sendFDS`. -/
def sendFDS (inPipeCount outPipeCount : ℕ) (fdIns fdOuts : ℕ → ℕ)
    (repInfoIn repInfoOut : ℕ → Mem UInt8) : List TypedPipe :=
  ((List.range inPipeCount).map fun i => ⟨commToEnum (repInfoIn i), fdIns i, 0⟩) ++
    (List.range outPipeCount).map fun i => ⟨commToEnum (repInfoOut i), 0, fdOuts i⟩

/-- What the `rep_info` of VoterD's pipes point to. -/
def repInfos (heap : ℕ → Mem UInt8) (extPipes : List VoterD.ExtPipe) (i : ℕ) : Mem UInt8 :=
  repInfo (heap i) ((extPipes[i]?.map VoterD.ExtPipe.repInfo).getD [])

/-- The message for a replica of VoterD, whose pipes have the `rep_info` of the external pipes. -/
def sentD (x : ℕ × List VoterD.ExtPipe) (heap : ℕ → Mem UInt8) (repPipes : ℕ → VotePipe) :
    List TypedPipe :=
  convertVoteToTyped (repInfos heap x.2) repPipes x.1

/-- The message for a replica of VoterM. -/
def sentM (t : VoterM.Table) (heapIn heapOut : ℕ → Mem UInt8) (fdIns fdOuts : ℕ → ℕ) :
    List TypedPipe :=
  sendFDS t.inPipeCount t.outPipeCount fdIns fdOuts (fun i => repInfo (heapIn i) (t.repInfoIn i))
    fun i => repInfo (heapOut i) (t.repInfoOut i)

/-! ### Comparing -/

variable {m : Mem UInt8} {name l : List UInt8}

/-- Equal strings are equal up to the zero. -/
theorem strcmp_iff {s : ℕ} : strcmp m s l = true ↔ block m s l.length = l ∧ m (s + l.length) = 0 := by
  induction l generalizing s with
  | nil => simp [strcmp]
  | cons b l ih =>
    rw [strcmp, Bool.and_eq_true, ih, List.length_cons, block_succ, List.cons.injEq,
      decide_eq_true_eq, and_assoc, add_right_comm, add_assoc]

/-- A copy that is equal to a string is a prefix of it, and the rest of it is in the memory. -/
theorem strcmp_repInfo (hname : 0 ∉ name) :
    strcmp (repInfo m name) 0 l = true ↔
      name <+: l ∧ block (repInfo m name) 0 l.length = l ∧ m l.length = 0 := by
  rw [strcmp_iff, zero_add]
  by_cases hlength : l.length < name.length
  · -- the string would have to end inside the copy
    have hinside : repInfo m name (0 + l.length) = name[l.length] := store_add hlength
    rw [zero_add] at hinside
    refine iff_of_false (fun h => ?_) (fun h => ?_)
    · exact hname (h.2 ▸ hinside ▸ List.getElem_mem hlength)
    · exact absurd h.1.length_le (Nat.not_le.mpr hlength)
  · rw [not_lt] at hlength
    have hbehind : repInfo m name l.length = m l.length := store_of_ge (by omega)
    rw [hbehind]
    refine ⟨fun h => ⟨?_, h⟩, And.right⟩
    obtain ⟨k, hk⟩ := Nat.exists_eq_add_of_le hlength
    have hblock := h.1
    rw [hk, block_add, repInfo, block_store] at hblock
    exact ⟨_, hblock⟩

/-- No name of a type starts another one. -/
theorem eq_of_messageT_starts {s t : CommMessage} (h : messageT s <+: messageT t) : s = t := by
  revert h
  cases s <;> cases t <;> decide

theorem strcmp_messageT (s t : CommMessage) :
    strcmp (repInfo m (messageT s)) 0 (messageT t) = true ↔ s = t ∧ m (messageT s).length = 0 := by
  rw [strcmp_repInfo (zero_notMem_messageT s)]
  constructor
  · rintro ⟨hstart, -, hzero⟩
    obtain rfl := eq_of_messageT_starts hstart
    exact ⟨rfl, hzero⟩
  · rintro ⟨rfl, hzero⟩
    exact ⟨List.prefix_rfl, block_store m 0 _, hzero⟩

/-- **The type of a copied name** is the declared one if the byte behind it is zero. -/
theorem commToEnum_repInfo (m : Mem UInt8) (type : CommMessage) :
    commToEnum (repInfo m (messageT type)) =
      if m (messageT type).length = 0 then type else .commError := by
  have hcompare : ∀ t, strcmp (repInfo m (messageT type)) 0 (messageT t) = true ↔
      type = t ∧ m (messageT type).length = 0 := strcmp_messageT type
  have heq : commToEnum (repInfo m (messageT type)) =
      if strcmp (repInfo m (messageT type)) 0 (messageT .wayReq) then .wayReq
      else if strcmp (repInfo m (messageT type)) 0 (messageT .wayRes) then .wayRes
      else if strcmp (repInfo m (messageT type)) 0 (messageT .movCmd) then .movCmd
      else if strcmp (repInfo m (messageT type)) 0 (messageT .rangePoseData) then .rangePoseData
      else if strcmp (repInfo m (messageT type)) 0 (messageT .mapUpdate) then .mapUpdate
      else if strcmp (repInfo m (messageT type)) 0 (messageT .commAck) then .commAck
      else if strcmp (repInfo m (messageT type)) 0 (messageT .msgBuffer) then .msgBuffer
      else .commError := rfl
  simp only [heq, hcompare]
  by_cases hzero : m (messageT type).length = 0
  · simp only [hzero, and_true, if_true]
    cases type <;> rfl
  · simp only [hzero, and_false, if_false]

/-- With a zero behind each copy, the message is that of `FdServer`. -/
theorem convertVoteToTyped_eq {heap : ℕ → Mem UInt8} {pipes : ℕ → VotePipe} {pipeCount : ℕ}
    {types : ℕ → CommMessage} (hname : ∀ i < pipeCount, cString (pipes i).repInfo = messageT (types i))
    (hzero : ∀ i < pipeCount, heap i (messageT (types i)).length = 0) :
    convertVoteToTyped (fun i => repInfo (heap i) (cString (pipes i).repInfo)) pipes pipeCount =
      FdServer.convertVoteToTyped pipes pipeCount := by
  refine List.map_congr_left fun i hi => ?_
  have hlt := List.mem_range.mp hi
  dsimp only
  rw [hname i hlt, commToEnum_repInfo, if_pos (hzero i hlt), commToEnum_messageT]

/-! ### Both voters -/

/-- The type is what `commToEnum` falls back to, or there is a zero behind its name. -/
def Terminated (type : CommMessage) (heap : Mem UInt8) : Prop :=
  type = .commError ∨ heap (messageT type).length = 0

theorem commToEnum_repInfo_eq_iff (heap : Mem UInt8) (type : CommMessage) :
    commToEnum (repInfo heap (messageT type)) = type ↔ Terminated type heap := by
  rw [commToEnum_repInfo, Terminated]
  split
  · rename_i hzero
    exact iff_of_true rfl (.inr hzero)
  · rename_i hzero
    rw [or_iff_left hzero, eq_comm]

/-- VoterD takes the first arguments alone. -/
theorem parsePipeStrings_take (args : List (List UInt8)) :
    VoterD.parsePipeStrings (args.take VoterD.pipeLimit) = VoterD.parsePipeStrings args := by
  rw [VoterD.parsePipeStrings, VoterD.parsePipeStrings, List.take_take, min_self, List.length_take,
    min_assoc, min_comm args.length, ← min_assoc, min_self, min_comm]

/-- The entries of an array that holds a list. -/
theorem eq_of_block {α : Type*} {m : Mem α} {n k : ℕ} {l : List α} {a : α} (h : block m 0 n = l)
    (ha : l[k]? = some a) : k < n ∧ m k = a := by
  subst h
  obtain ⟨hk, ha⟩ := List.getElem?_eq_some_iff.mp ha
  rw [length_block] at hk
  exact ⟨hk, by simpa [block] using ha⟩

/-- The arguments of one side, as VoterM counts them. -/
def ins (specs : List TypedSpec) : List TypedSpec := specs.filter fun p => p.fdIn ≠ 0

def outs (specs : List TypedSpec) : List TypedSpec := specs.filter fun p => p.fdOut ≠ 0

variable (specs : List TypedSpec)

theorem sentD_iff (heap : ℕ → Mem UInt8) (repPipes : ℕ → VotePipe) :
    ∃ x ∈ VoterD.parsePipeStrings (specs.map (·.format)),
      ∀ i, ∀ p ∈ (specs.take VoterD.pipeLimit)[i]?,
        (∃ pipe ∈ (sentD x heap repPipes)[i]?, pipe.type = p.type) ↔ Terminated p.type (heap i) := by
  have hlength : ((specs.take VoterD.pipeLimit).map TypedSpec.toPipeSpec).length ≤
      VoterD.pipeLimit := by
    rw [List.length_map]
    exact List.length_take_le ..
  have hparse := parsePipeStrings_voterD hlength
  rw [List.map_map, List.map_take, parsePipeStrings_take] at hparse
  refine ⟨_, hparse, fun i p hp => ?_⟩
  have hi : i < ((specs.take VoterD.pipeLimit).map TypedSpec.toPipeSpec).length := by
    rw [List.length_map]
    exact (List.getElem?_eq_some_iff.mp hp).1
  have hsent : commToEnum (repInfos heap (((specs.take VoterD.pipeLimit).map
      TypedSpec.toPipeSpec).map PipeSpec.extPipe) i) = p.type ↔ Terminated p.type (heap i) := by
    rw [← commToEnum_repInfo_eq_iff, ← p.name_eq, repInfos, List.getElem?_map, List.getElem?_map,
      Option.mem_def.mp hp]
    rfl
  rw [← hsent, sentD, convertVoteToTyped, List.getElem?_map, List.getElem?_range hi]
  simp

theorem sentM_iff (memory : VoterM.Table) (heapIn heapOut : ℕ → Mem UInt8) (fdIns fdOuts : ℕ → ℕ) :
    ∃ t ∈ VoterM.parsePipeStrings memory (specs.map (·.format)),
      (∀ k, ∀ p ∈ (ins specs)[k]?,
        (∃ pipe ∈ (sentM t heapIn heapOut fdIns fdOuts)[k]?, pipe.type = p.type) ↔
          Terminated p.type (heapIn k)) ∧
      ∀ k, ∀ p ∈ (outs specs)[k]?,
        (∃ pipe ∈ (sentM t heapIn heapOut fdIns fdOuts)[(ins specs).length + k]?,
          pipe.type = p.type) ↔ Terminated p.type (heapOut k) := by
  obtain ⟨t, ht, hrecovers⟩ := recovers_voterM memory (specs.map TypedSpec.toPipeSpec)
  rw [List.map_map] at ht
  have hins : inputs (specs.map TypedSpec.toPipeSpec) = (ins specs).map TypedSpec.toPipeSpec :=
    List.filter_map
  have houts : outputs (specs.map TypedSpec.toPipeSpec) = (outs specs).map TypedSpec.toPipeSpec :=
    List.filter_map
  have hlength : t.inPipeCount = (ins specs).length := by
    rw [hrecovers.inPipeCount, hins, List.length_map]
  -- the arrays hold as many names as were counted
  have hnamesIn := hrecovers.repInfoIn
  have hnamesOut := hrecovers.repInfoOut
  rw [hrecovers.cInPipe, ← hrecovers.inPipeCount, hins, List.map_map] at hnamesIn
  rw [hrecovers.cOutPipe, ← hrecovers.outPipeCount, houts, List.map_map] at hnamesOut
  refine ⟨t, ht, fun k p hp => ?_, fun k p hp => ?_⟩
  · obtain ⟨hk, hname⟩ := eq_of_block hnamesIn (a := p.name)
      (by rw [List.getElem?_map, Option.mem_def.mp hp]; rfl)
    have hk' : k < ((List.range t.inPipeCount).map fun i => (⟨commToEnum
        (repInfo (heapIn i) (t.repInfoIn i)), fdIns i, 0⟩ : TypedPipe)).length := by simpa using hk
    rw [← commToEnum_repInfo_eq_iff, ← p.name_eq, ← hname, sentM, sendFDS,
      List.getElem?_append_left hk', List.getElem?_map, List.getElem?_range hk]
    simp
  · obtain ⟨hk, hname⟩ := eq_of_block hnamesOut (a := p.name)
      (by rw [List.getElem?_map, Option.mem_def.mp hp]; rfl)
    have hbehind : ((List.range t.inPipeCount).map fun i => (⟨commToEnum
        (repInfo (heapIn i) (t.repInfoIn i)), fdIns i, 0⟩ : TypedPipe)).length =
          (ins specs).length := by
      simpa using hlength
    rw [← commToEnum_repInfo_eq_iff, ← p.name_eq, ← hname, sentM, sendFDS,
      List.getElem?_append_right (by rw [hbehind]; exact Nat.le_add_right _ _), hbehind,
      Nat.add_sub_cancel_left, List.getElem?_map, List.getElem?_range hk]
    simp

/-- **The type of every pipe.** For arguments with names of types, a replica gets a pipe with the
declared type exactly if there is a zero behind the copy of the name, unless the type is
`COMM_ERROR` itself. VoterM sends the inputs before the outputs. -/
theorem types_kept_iff (memory : VoterM.Table) (heap heapIn heapOut : ℕ → Mem UInt8)
    (repPipes : ℕ → VotePipe) (fdIns fdOuts : ℕ → ℕ) :
    (∃ x ∈ VoterD.parsePipeStrings (specs.map (·.format)),
      ∀ i, ∀ p ∈ (specs.take VoterD.pipeLimit)[i]?,
        (∃ pipe ∈ (sentD x heap repPipes)[i]?, pipe.type = p.type) ↔
          Terminated p.type (heap i)) ∧
    ∃ t ∈ VoterM.parsePipeStrings memory (specs.map (·.format)),
      (∀ k, ∀ p ∈ (ins specs)[k]?,
        (∃ pipe ∈ (sentM t heapIn heapOut fdIns fdOuts)[k]?, pipe.type = p.type) ↔
          Terminated p.type (heapIn k)) ∧
      ∀ k, ∀ p ∈ (outs specs)[k]?,
        (∃ pipe ∈ (sentM t heapIn heapOut fdIns fdOuts)[(ins specs).length + k]?,
          pipe.type = p.type) ↔ Terminated p.type (heapOut k) :=
  ⟨sentD_iff specs heap repPipes, sentM_iff specs memory heapIn heapOut fdIns fdOuts⟩

/-- `MOV_CMD:0:5:0`. -/
def moveSpec : TypedSpec where
  name := messageT .movCmd
  fdIn := 0
  fdOut := 5
  timed := 0
  name_colon := by decide
  name_short := by decide
  oneEnd := by decide
  fd_lt := by decide
  timed_le := by decide
  type := .movCmd
  name_eq := rfl

/-- In a block that held other letters before, the type is lost in both voters. -/
theorem move_lost :
    (∃ x ∈ VoterD.parsePipeStrings [moveSpec.format],
      ∃ pipe ∈ (sentD x (fun _ _ => 65) fun _ => ⟨"", 0, 0, false, 0, 0, fun _ => 0⟩)[0]?,
        pipe.type = .commError) ∧
    ∃ t ∈ VoterM.parsePipeStrings ⟨0, 0, fun _ => 0, fun _ => [], fun _ => 0, fun _ => [], 0,
        fun _ => 0, fun _ => 0, 0, 0⟩ [moveSpec.format],
      ∃ pipe ∈ (sentM t (fun _ _ => 65) (fun _ _ => 65) (fun _ => 0) fun _ => 0)[0]?,
        pipe.type = .commError :=
  ⟨⟨_, rfl, _, rfl, rfl⟩, _, rfl, _, rfl, rfl⟩

end PipeTypes

end S3RES
