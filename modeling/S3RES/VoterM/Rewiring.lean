import S3RES.VoterD.Rewiring
import S3RES.VoterM.Machine

/-!
# The descriptors of VoterM

`replicas` has the ends of the pipes that VoterM uses and `for_reps` those that it sends to the
replicas, the inputs first. `killAndClean` closes all of a slot. `startReplicas` makes new pipes
for it and sends their ends to a process, a new one or a fork, whose `restartHandler` has closed
the pipes that it has inherited.

`stays_joined`: in every run, whichever replicas are found faulty, the process in each slot is
connected to VoterM's descriptors of this slot, each at its index. `closes_as_many`: VoterM has as
many descriptors open as behind `initVoterM`, and none above a bound that held there.
-/

namespace S3RES.VoterM.Rewiring

open Descriptors (Counted End Keeper Owns)
open FdServer (Message client install_getElem recoverFd)
open S3RES.Rewiring (allocates_lowestFree endAt restartHandler)
open StepSystem

/-! ### Slots -/

/-- `fd_ins[pipe]` or `fd_outs[pipe]` of `replicas[rep]` or `for_reps[rep]`. -/
structure Slot where
  rep : ℕ
  out : Bool
  pipe : ℕ
  forRep : Bool
  deriving DecidableEq

/-- The descriptors that `killAndClean` closes, in its order. -/
def killSlots (c : Config) (rep : ℕ) : List Slot :=
  ((List.range c.inPipeCount).flatMap fun p => [⟨rep, false, p, false⟩, ⟨rep, false, p, true⟩]) ++
    (List.range c.outPipeCount).flatMap fun p => [⟨rep, true, p, false⟩, ⟨rep, true, p, true⟩]

/-- The pairs for which `startReplicas` makes pipes, `pipe_fds[0]` and `pipe_fds[1]`. -/
def newPairs (c : Config) (repIndex repStartCount : ℕ) : List (Slot × Slot) :=
  ((List.range' repIndex repStartCount).flatMap fun rep =>
    (List.range c.inPipeCount).map fun p => (⟨rep, false, p, true⟩, ⟨rep, false, p, false⟩)) ++
  (List.range' repIndex repStartCount).flatMap fun rep =>
    (List.range c.outPipeCount).map fun p => (⟨rep, true, p, false⟩, ⟨rep, true, p, true⟩)

/-! ### Messages -/

/-- `sendFDS` of `fd_serverm.c` for `for_reps[rep]`. -/
def message (c : Config) (k : Keeper Slot) (rep : ℕ) : Message End where
  pipes :=
    ((List.range c.inPipeCount).map fun i =>
      ⟨commToEnum (cString (c.repInfoIn i)), k.held ⟨rep, false, i, true⟩, 0⟩) ++
    (List.range c.outPipeCount).map fun i =>
      ⟨commToEnum (cString (c.repInfoOut i)), 0, k.held ⟨rep, true, i, true⟩⟩
  pinnedCpu := if controllerPin = quadPinPolicy then rep + 1 else controllerPin
  priority := c.voterPriority - 4
  rights :=
    ((List.range c.inPipeCount).map fun i => k.ends (k.held ⟨rep, false, i, true⟩)) ++
    (List.range c.outPipeCount).map fun i => k.ends (k.held ⟨rep, true, i, true⟩)

/-- `acceptSendFDS`, and `connectRecvFDS` of a process that is given the numbers `fds`. -/
def serve (c : Config) (k : Keeper Slot) (rep : ℕ) (proc : FdServer.Process End) (fds : List ℕ) :
    Option (FdServer.Process End) :=
  (client 0 { proc with stage := .requesting [message c k rep] } (.receive 0 fds)).map fun proc =>
    { proc with stage := .running [] }

/-! ### The voter -/

/-- VoterM, its descriptors and the processes in the slots. -/
structure System where
  state : State
  keeper : Keeper Slot
  procs : ℕ → FdServer.Process End

/-- A process behind `fork` and `execv`. -/
def forked (c : Config) (k : Keeper Slot) : FdServer.Process End where
  stage := .connecting
  pipeCount := c.inPipeCount + c.outPipeCount
  pipes := []
  pinnedCpu := 0
  priority := 0
  table fd := if fd ∈ k.fds then some (k.ends fd) else none

/-- `killAndClean`. -/
def killAndClean (c : Config) (s : System) (repToKill : ℕ) : System :=
  { s with
    state := VoterM.killAndClean s.state repToKill
    keeper := s.keeper.closeAll (killSlots c repToKill) }

/-- The end of `startReplicas` for slot `rep`. -/
def give (c : Config) (forking : Bool) (fds : ℕ → List ℕ) (s : System) (rep : ℕ) : Option System :=
  let proc :=
    if forking then forked c s.keeper
    else restartHandler (s.procs ((s.state.faultIndex + (c.repCount - 1)) % c.repCount))
  (serve c s.keeper rep proc (fds rep)).map fun proc =>
    { s with procs := Function.update s.procs rep proc }

/-- `startReplicas`, where the process of slot `rep` is given the numbers `fds rep`. -/
def startReplicas (c : Config) (s : System) (forking : Bool) (repIndex repStartCount : ℕ)
    (fds : ℕ → List ℕ) : Option System :=
  (List.range' repIndex repStartCount).foldlM (give c forking fds)
    { s with
      state := VoterM.startReplicas c s.state forking repIndex repStartCount
      keeper := s.keeper.pipeAll lowestFree (newPairs c repIndex repStartCount) }

/-- The actions: a replica is found faulty, and a process is given the numbers `fds`. -/
structure Act where
  faultIndex : ℕ
  fds : List ℕ

/-- The step function. -/
def step (c : Config) (s : System) (a : Act) : Option System :=
  if a.faultIndex < c.repCount then
    let s := { s with state := { s.state with faultIndex := a.faultIndex } }
    let s := killAndClean c s a.faultIndex
    if c.repCount = 1 then startReplicas c s true 0 1 fun _ => a.fds
    else startReplicas c s false a.faultIndex 1 fun _ => a.fds
  else none

/-- `initVoterM`. -/
def initVoterM (c : Config) (s : System) (fds : ℕ → List ℕ) : Option System :=
  (startReplicas c s true 0 c.repCount fds).map fun t =>
    { t with state := VoterM.initVoterM c s.state }

/-! ### Which slots there are -/

/-- The arrays have an element for the slot. -/
def Slot.InArray (c : Config) (i : Slot) : Prop :=
  i.pipe < if i.out then c.outPipeCount else c.inPipeCount

/-- The slots of the replicas in `live`. -/
def Live (c : Config) (live : ℕ → Prop) (i : Slot) : Prop := live i.rep ∧ i.InArray c

section Slots

variable {c : Config} {rep a n : ℕ} {i : Slot}

theorem mem_killSlots : i ∈ killSlots c rep ↔ i.rep = rep ∧ i.InArray c := by
  obtain ⟨r, out, p, forRep⟩ := i
  simp only [killSlots, List.mem_append, List.mem_flatMap, List.mem_range, List.mem_pair,
    Slot.mk.injEq, Slot.InArray]
  cases out <;> cases forRep <;> simp <;> tauto

/-- Lists of what belongs to different things have nothing in common. -/
theorem nodup_flatMap_of_key {α β : Type*} {l : List α} {f : α → List β} (key : β → α)
    (hkey : ∀ a ∈ l, ∀ b ∈ f a, key b = a) (hl : l.Nodup) (hf : ∀ a ∈ l, (f a).Nodup) :
    (l.flatMap f).Nodup := by
  refine List.nodup_flatMap.mpr ⟨hf, hl.imp_of_mem fun {a a'} ha ha' hne => ?_⟩
  intro b hb hb'
  exact hne ((hkey a ha b hb).symm.trans (hkey a' ha' b hb'))

theorem nodup_killSlots (c : Config) (rep : ℕ) : (killSlots c rep).Nodup := by
  refine List.Nodup.append ?_ ?_ ?_
  · refine nodup_flatMap_of_key Slot.pipe (fun p _ i hi => ?_) List.nodup_range fun p _ => by simp
    rcases List.mem_pair.mp hi with rfl | rfl <;> rfl
  · refine nodup_flatMap_of_key Slot.pipe (fun p _ i hi => ?_) List.nodup_range fun p _ => by simp
    rcases List.mem_pair.mp hi with rfl | rfl <;> rfl
  · intro i hi hi'
    simp only [List.mem_flatMap, List.mem_pair] at hi hi'
    obtain ⟨p, -, rfl | rfl⟩ := hi <;> simp at hi'

theorem length_killSlots (c : Config) (rep : ℕ) :
    (killSlots c rep).length = 2 * (c.inPipeCount + c.outPipeCount) := by
  simp only [killSlots, List.length_append, List.length_flatMap, List.length_cons, List.length_nil,
    List.map_const', List.length_range, List.sum_replicate, smul_eq_mul]
  ring

/-- The read end and the write end of a pipe. -/
def ofPipe (rep : ℕ) (out : Bool) (pipe : ℕ) : Slot × Slot :=
  (⟨rep, out, pipe, !out⟩, ⟨rep, out, pipe, out⟩)

theorem mem_newPairs {ij : Slot × Slot} : ij ∈ newPairs c a n ↔
    ∃ rep ∈ List.range' a n, ∃ out pipe, pipe < (if out then c.outPipeCount else c.inPipeCount) ∧
      ofPipe rep out pipe = ij := by
  simp only [newPairs, List.mem_append, List.mem_flatMap, List.mem_map, List.mem_range]
  constructor
  · rintro (⟨rep, hrep, p, hp, rfl⟩ | ⟨rep, hrep, p, hp, rfl⟩)
    · exact ⟨rep, hrep, false, p, hp, rfl⟩
    · exact ⟨rep, hrep, true, p, hp, rfl⟩
  · rintro ⟨rep, hrep, out, p, hp, rfl⟩
    cases out with
    | false => exact .inl ⟨rep, hrep, p, hp, rfl⟩
    | true => exact .inr ⟨rep, hrep, p, hp, rfl⟩

theorem mem_slots_newPairs : i ∈ Descriptors.slots (newPairs c a n) ↔
    i.rep ∈ List.range' a n ∧ i.InArray c := by
  simp only [Descriptors.slots, List.mem_flatMap, mem_newPairs, List.mem_pair]
  constructor
  · rintro ⟨ij, ⟨rep, hrep, out, p, hp, rfl⟩, rfl | rfl⟩
    · exact ⟨hrep, hp⟩
    · exact ⟨hrep, hp⟩
  · rintro ⟨hrep, hin⟩
    refine ⟨_, ⟨i.rep, hrep, i.out, i.pipe, hin, rfl⟩, ?_⟩
    obtain ⟨r, out, p, forRep⟩ := i
    cases out <;> cases forRep <;> simp [ofPipe]

theorem nodup_newPairs (c : Config) (a n : ℕ) : (newPairs c a n).Nodup := by
  have hmap : ∀ m rep out, ((List.range m).map (ofPipe rep out)).Nodup := fun m rep out =>
    List.nodup_range.map fun p p' heq => congrArg (Slot.pipe ∘ Prod.fst) heq
  refine List.Nodup.append ?_ ?_ ?_
  · refine nodup_flatMap_of_key (fun ij => ij.1.rep) (fun rep _ ij hij => ?_) List.nodup_range'
      fun rep _ => hmap c.inPipeCount rep false
    obtain ⟨p, -, rfl⟩ := List.mem_map.mp hij
    rfl
  · refine nodup_flatMap_of_key (fun ij => ij.1.rep) (fun rep _ ij hij => ?_) List.nodup_range'
      fun rep _ => hmap c.outPipeCount rep true
    obtain ⟨p, -, rfl⟩ := List.mem_map.mp hij
    rfl
  · intro ij hij hij'
    simp only [List.mem_flatMap, List.mem_map] at hij hij'
    obtain ⟨rep, -, p, -, rfl⟩ := hij
    simp at hij'

theorem nodup_slots_newPairs (c : Config) (a n : ℕ) :
    (Descriptors.slots (newPairs c a n)).Nodup := by
  refine nodup_flatMap_of_key (fun i => ofPipe i.rep i.out i.pipe) (fun ij hij i hi => ?_)
    (nodup_newPairs c a n) fun ij hij => ?_
  · obtain ⟨rep, -, out, p, -, rfl⟩ := mem_newPairs.mp hij
    rcases List.mem_pair.mp hi with rfl | rfl <;> rfl
  · obtain ⟨rep, -, out, p, -, rfl⟩ := mem_newPairs.mp hij
    simp [ofPipe]

theorem length_newPairs (c : Config) (a n : ℕ) :
    (newPairs c a n).length = n * (c.inPipeCount + c.outPipeCount) := by
  simp only [newPairs, List.length_append, List.length_flatMap, List.length_map,
    List.map_const', List.length_range, List.length_range', List.sum_replicate, smul_eq_mul]
  ring

end Slots

/-! ### The pipes -/

/-- The slots of the replicas in `live` hold the ends of different pipes, the one of VoterM and the
one for the replica those of the same pipe. -/
structure Joined (c : Config) (kept : List ℕ) (live : ℕ → Prop) (k : Keeper Slot)
    (ends : Slot → End) : Prop where
  owns : Owns kept (Live c live) k ends
  writes : ∀ r out p, Live c live ⟨r, out, p, false⟩ → (ends ⟨r, out, p, false⟩).writes = !out
  forRep : ∀ r out p, Live c live ⟨r, out, p, false⟩ →
    ends ⟨r, out, p, true⟩ = (ends ⟨r, out, p, false⟩).other

section Joined

variable {c : Config} {kept : List ℕ} {live live' : ℕ → Prop} {k : Keeper Slot} {ends : Slot → End}
  {rep a n : ℕ}

theorem Joined.none (hkept : kept ⊆ k.fds) :
    Joined c kept (fun _ => False) k fun _ => ⟨0, false⟩ where
  owns := {
    kept_open := hkept
    kept_free _ hi := hi.1.elim
    isOpen _ hi := hi.1.elim
    refers _ hi := hi.1.elim
    injective _ _ hi := hi.1.elim
    old _ hi := hi.1.elim }
  writes _ _ _ hi := hi.1.elim
  forRep _ _ _ hi := hi.1.elim

theorem Joined.mono (h : Joined c kept live k ends) (hlive : ∀ r, live' r → live r) :
    Joined c kept live' k ends where
  owns := h.owns.mono fun i hi => ⟨hlive i.rep hi.1, hi.2⟩
  writes r out p hi := h.writes r out p ⟨hlive r hi.1, hi.2⟩
  forRep r out p hi := h.forRep r out p ⟨hlive r hi.1, hi.2⟩

/-- `killAndClean` closes the slot, and nothing else. -/
theorem Joined.kill (h : Joined c kept live k ends) (hrep : live rep) :
    Joined c kept (fun r => live r ∧ r ≠ rep) (k.closeAll (killSlots c rep)) ends where
  owns := by
    have hclosed := h.owns.closeAll (fun i hi => ?_) (nodup_killSlots c rep)
    · refine hclosed.mono fun i hi => ⟨⟨hi.1.1, hi.2⟩, fun hmem => hi.1.2 (mem_killSlots.mp hmem).1⟩
    · obtain ⟨heq, hin⟩ := mem_killSlots.mp hi
      exact ⟨heq ▸ hrep, hin⟩
  writes r out p hi := h.writes r out p ⟨hi.1.1, hi.2⟩
  forRep r out p hi := h.forRep r out p ⟨hi.1.1, hi.2⟩

/-- `startReplicas` makes pipes for the slots, and leaves the others as they are. -/
theorem Joined.newPipes (h : Joined c kept live k ends) (hnew : ∀ r ∈ List.range' a n, ¬ live r) :
    ∃ ends', Joined c kept (fun r => live r ∨ r ∈ List.range' a n)
        (k.pipeAll lowestFree (newPairs c a n)) ends' ∧
      ∀ i, Live c live i → ends' i = ends i := by
  have hfree : ∀ i ∈ Descriptors.slots (newPairs c a n), ¬ Live c live i := fun i hi hlive =>
    hnew i.rep (mem_slots_newPairs.mp hi).1 hlive.1
  obtain ⟨ends', howns, hkeep, hpairs⟩ :=
    h.owns.pipeAll allocates_lowestFree hfree (nodup_slots_newPairs c a n)
  have hpair : ∀ r out p, r ∈ List.range' a n → Slot.InArray c ⟨r, out, p, false⟩ →
      (ends' ⟨r, out, p, !out⟩).writes = false ∧
        ends' ⟨r, out, p, out⟩ = (ends' ⟨r, out, p, !out⟩).other := fun r out p hr hin =>
    hpairs (ofPipe r out p) (mem_newPairs.mpr ⟨r, hr, out, p, hin, rfl⟩)
  refine ⟨ends', ⟨howns.mono fun i hi => ?_, fun r out p hi => ?_, fun r out p hi => ?_⟩, hkeep⟩
  · exact hi.1.imp (fun hlive => ⟨hlive, hi.2⟩) fun hr => mem_slots_newPairs.mpr ⟨hr, hi.2⟩
  · rcases hi.1 with hlive | hr
    · rw [hkeep _ ⟨hlive, hi.2⟩]
      exact h.writes r out p ⟨hlive, hi.2⟩
    · obtain ⟨hread, hother⟩ := hpair r out p hr hi.2
      cases out with
      | false => simpa [End.other, hother] using hread
      | true => exact hread
  · rcases hi.1 with hlive | hr
    · rw [hkeep _ ⟨hlive, hi.2⟩, hkeep ⟨r, out, p, true⟩ ⟨hlive, hi.2⟩]
      exact h.forRep r out p ⟨hlive, hi.2⟩
    · obtain ⟨-, hother⟩ := hpair r out p hr hi.2
      cases out with
      | false => rw [hother, End.other_other]; rfl
      | true => exact hother

end Joined

/-! ### What the processes get -/

/-- The index of a pipe in the array that is sent. -/
def position (c : Config) (out : Bool) (pipe : ℕ) : ℕ := if out then c.inPipeCount + pipe else pipe

/-- A pipe of a replica, under the number `fd`. -/
def replicaPipe (c : Config) (out : Bool) (pipe fd : ℕ) : TypedPipe :=
  if out then ⟨commToEnum (cString (c.repInfoOut pipe)), 0, fd⟩
  else ⟨commToEnum (cString (c.repInfoIn pipe)), fd, 0⟩

/-- The pipes of the process in slot `rep` are those of `for_reps[rep]`. -/
structure Gets (c : Config) (ends : Slot → End) (rep : ℕ) (proc : FdServer.Process End) : Prop where
  length : proc.pipes.length = c.inPipeCount + c.outPipeCount
  pipes : ∀ out p, Slot.InArray c ⟨rep, out, p, true⟩ → ∃ fd ≠ 0,
    proc.pipes[position c out p]? = some (replicaPipe c out p fd) ∧
      proc.table fd = some (ends ⟨rep, out, p, true⟩)

section Gets

variable {c : Config} {kept : List ℕ} {live : ℕ → Prop} {k : Keeper Slot} {ends ends' : Slot → End}
  {rep p q : ℕ} {out : Bool} {proc proc' : FdServer.Process End} {fds : List ℕ}

/-- Every index is that of one pipe. -/
theorem exists_position (rep : ℕ) (hq : q < c.inPipeCount + c.outPipeCount) :
    ∃ out p, Slot.InArray c ⟨rep, out, p, true⟩ ∧ q = position c out p := by
  rcases lt_or_ge q c.inPipeCount with hlt | hge
  · exact ⟨false, q, hlt, rfl⟩
  · refine ⟨true, q - c.inPipeCount, ?_, ?_⟩
    · simp only [Slot.InArray, if_true]
      omega
    · simp only [position, if_true]
      omega

theorem position_lt (h : Slot.InArray c ⟨rep, out, p, true⟩) :
    position c out p < c.inPipeCount + c.outPipeCount := by
  cases out <;> simp only [Slot.InArray, position, if_true, Bool.false_eq_true, if_false] at * <;>
    omega

/-- What `sendFDS` has at an index. -/
theorem message_position (k : Keeper Slot) (h : Slot.InArray c ⟨rep, out, p, true⟩) :
    (message c k rep).pipes[position c out p]? =
        some (replicaPipe c out p (k.held ⟨rep, out, p, true⟩)) ∧
      (message c k rep).rights[position c out p]? =
        some (k.ends (k.held ⟨rep, out, p, true⟩)) := by
  cases out with
  | false =>
    have hp : p < c.inPipeCount := h
    simp [message, position, replicaPipe, List.getElem?_append, hp]
  | true =>
    have hp : p < c.outPipeCount := h
    simp [message, position, replicaPipe, hp]

theorem recoverFd_replicaPipe {old : ℕ} (hold : old ≠ 0) (c : Config) (out : Bool) (p fd : ℕ) :
    recoverFd (replicaPipe c out p old) fd = replicaPipe c out p fd := by
  cases out <;> simp [recoverFd, replicaPipe, hold]

theorem Gets.congr (h : Gets c ends rep proc)
    (hends : ∀ out p, Slot.InArray c ⟨rep, out, p, true⟩ →
      ends' ⟨rep, out, p, true⟩ = ends ⟨rep, out, p, true⟩) : Gets c ends' rep proc where
  length := h.length
  pipes out p hin := by
    rw [hends out p hin]
    exact h.pipes out p hin

theorem Joined.gets (hj : Joined c kept live k ends) (h0 : 0 ∈ kept) (hrep : live rep)
    (hproc : proc' ∈ serve c k rep proc fds) : Gets c ends rep proc' := by
  rw [serve, Option.mem_def, Option.map_eq_some_iff] at hproc
  obtain ⟨got, hgot, rfl⟩ := hproc
  simp only [client, Option.ite_none_right_eq_some, Option.some.injEq] at hgot
  obtain ⟨⟨-, hlength, hnodup, hfree⟩, rfl⟩ := hgot
  have hcount : fds.length = c.inPipeCount + c.outPipeCount := by
    simpa [message] using hlength
  refine ⟨by simp [FdServer.requestFDS, message, hcount], fun out p hin => ?_⟩
  have hlt : position c out p < fds.length := hcount ▸ position_lt hin
  have hfd : fds[position c out p]? = some fds[position c out p] := List.getElem?_eq_getElem hlt
  obtain ⟨hpipe, hright⟩ := message_position k hin
  have hheld : k.held ⟨rep, out, p, true⟩ ≠ 0 := fun heq =>
    hj.owns.kept_free ⟨rep, out, p, true⟩ ⟨hrep, hin⟩ (heq ▸ h0)
  refine ⟨fds[position c out p], (hfree _ (List.getElem_mem hlt)).1, ?_, ?_⟩
  · dsimp only
    rw [FdServer.requestFDS, List.getElem?_zipWith, hpipe, hfd]
    exact congrArg some (recoverFd_replicaPipe hheld c out p _)
  · rw [← hj.owns.refers ⟨rep, out, p, true⟩ ⟨hrep, hin⟩]
    exact install_getElem _ hlength hnodup hfd hright

end Gets

/-! ### Runs -/

/-- What holds between the actions. -/
def Inv (c : Config) (kept : List ℕ) (s : System) : Prop :=
  ∃ ends, Joined c kept (· < c.repCount) s.keeper ends ∧
    ∀ r < c.repCount, Gets c ends r (s.procs r)

section Runs

variable {c : Config} {kept : List ℕ} {live : ℕ → Prop} {ends : Slot → End} {s t s' : System}
  {a n b : ℕ} {forking : Bool} {fds : ℕ → List ℕ}

theorem keeper_give {l : List ℕ} (ht : t ∈ l.foldlM (give c forking fds) s) :
    t.keeper = s.keeper := by
  induction l generalizing s with
  | nil =>
    obtain rfl := Option.some.inj ht
    rfl
  | cons rep l ih =>
    rw [List.foldlM_cons, Option.mem_def] at ht
    obtain ⟨u, hu, ht⟩ := Option.bind_eq_some_iff.mp ht
    obtain ⟨proc, -, rfl⟩ := Option.map_eq_some_iff.mp hu
    exact ih (s := { s with procs := Function.update s.procs rep proc }) ht

theorem keeper_startReplicas (ht : t ∈ startReplicas c s forking a n fds) :
    t.keeper = s.keeper.pipeAll lowestFree (newPairs c a n) :=
  keeper_give ht

/-- The loop at the end of `startReplicas`. -/
theorem gets_give {l : List ℕ} (hj : Joined c kept live s.keeper ends) (h0 : 0 ∈ kept)
    (hl : ∀ r ∈ l, live r) (ht : t ∈ l.foldlM (give c forking fds) s) {r : ℕ}
    (hr : r ∈ l ∨ Gets c ends r (s.procs r)) : Gets c ends r (t.procs r) := by
  induction l generalizing s with
  | nil =>
    obtain rfl := Option.some.inj ht
    exact hr.resolve_left List.not_mem_nil
  | cons rep l ih =>
    obtain ⟨hrep, hl⟩ := List.forall_mem_cons.mp hl
    rw [List.foldlM_cons, Option.mem_def] at ht
    obtain ⟨u, hu, ht⟩ := Option.bind_eq_some_iff.mp ht
    obtain ⟨proc, hproc, rfl⟩ := Option.map_eq_some_iff.mp hu
    have hgets := hj.gets h0 hrep hproc
    refine ih (s := { s with procs := Function.update s.procs rep proc }) hj hl ht ?_
    by_cases heq : r = rep
    · subst heq
      exact .inr (by simpa using hgets)
    · refine (hr.imp_left fun hmem => ?_).imp_right fun h => ?_
      · exact (List.mem_cons.mp hmem).resolve_left heq
      · simpa [heq] using h

theorem joined_startReplicas (hj : Joined c kept live s.keeper ends) (h0 : 0 ∈ kept)
    (hgets : ∀ r, live r → Gets c ends r (s.procs r)) (hnew : ∀ r ∈ List.range' a n, ¬ live r)
    (ht : t ∈ startReplicas c s forking a n fds) :
    ∃ ends', Joined c kept (fun r => live r ∨ r ∈ List.range' a n) t.keeper ends' ∧
      ∀ r, live r ∨ r ∈ List.range' a n → Gets c ends' r (t.procs r) := by
  obtain ⟨ends', hj', hkeep⟩ := hj.newPipes hnew
  refine ⟨ends', keeper_startReplicas ht ▸ hj', fun r hr => ?_⟩
  refine gets_give hj' h0 (fun r hr => .inr hr) ht (hr.symm.imp_right fun hlive => ?_)
  exact (hgets r hlive).congr fun out p hin => hkeep ⟨r, out, p, true⟩ ⟨hlive, hin⟩

/-- **Start.** -/
theorem inv_initVoterM (hkept : kept ⊆ s.keeper.fds) (h0 : 0 ∈ kept)
    (ht : t ∈ initVoterM c s fds) : Inv c kept t := by
  obtain ⟨u, hu, rfl⟩ := Option.map_eq_some_iff.mp ht
  obtain ⟨ends, hj, hgets⟩ := joined_startReplicas (Joined.none hkept) h0
    (fun _ h => h.elim) (fun _ _ h => h) hu
  have hlive : ∀ r < c.repCount, False ∨ r ∈ List.range' 0 c.repCount := fun r hr =>
    .inr (by simpa using hr)
  exact ⟨ends, hj.mono hlive, fun r hr => hgets r (hlive r hr)⟩

/-- Which slots `startReplicas` fills in an action. -/
theorem step_cases {act : Act} (ht : t ∈ step c s act) : act.faultIndex < c.repCount ∧
    ∃ u forking fds, u.keeper = s.keeper.closeAll (killSlots c act.faultIndex) ∧
      u.procs = s.procs ∧ t ∈ startReplicas c u forking act.faultIndex 1 fds := by
  rw [step, Option.mem_def, Option.ite_none_right_eq_some] at ht
  obtain ⟨hlt, ht⟩ := ht
  refine ⟨hlt, killAndClean c { s with state := { s.state with faultIndex := act.faultIndex } }
    act.faultIndex, ?_⟩
  split_ifs at ht with hsmr
  · have hzero : act.faultIndex = 0 := by omega
    rw [← hzero] at ht
    exact ⟨true, _, rfl, rfl, ht⟩
  · exact ⟨false, _, rfl, rfl, ht⟩

/-- **A fault.** -/
theorem inv_step {act : Act} (h0 : 0 ∈ kept) (h : Inv c kept s) (ht : t ∈ step c s act) :
    Inv c kept t := by
  obtain ⟨hlt, u, forking, fds, hkeeper, hprocs, ht⟩ := step_cases ht
  obtain ⟨ends, hj, hgets⟩ := h
  have hkilled := hj.kill hlt
  rw [← hkeeper] at hkilled
  obtain ⟨ends', hj', hgets'⟩ := joined_startReplicas hkilled h0
    (fun r hr => hprocs ▸ hgets r hr.1)
    (fun r hr hlive => hlive.2 (by simpa using hr)) ht
  have hlive : ∀ r < c.repCount,
      (r < c.repCount ∧ r ≠ act.faultIndex) ∨ r ∈ List.range' act.faultIndex 1 := fun r hr =>
    (em (r = act.faultIndex)).symm.imp (fun hne => ⟨hr, hne⟩) fun heq => by simp [heq]
  exact ⟨ends', hj'.mono hlive, fun r hr => hgets' r (hlive r hr)⟩

/-! ### Wiring -/

/-- The end that VoterM uses for a pipe of slot `r`. -/
def System.voterEnd (s : System) (r : ℕ) (out : Bool) (p : ℕ) : End :=
  s.keeper.ends (s.keeper.held ⟨r, out, p, false⟩)

/-- VoterM and the processes are connected as they should be. -/
structure Wired (c : Config) (kept : List ℕ) (s : System) : Prop where
  /-- What VoterM writes or reads is read or written in the same slot at the index of the pipe, and
  nowhere else. -/
  meets : ∀ r < c.repCount, ∀ out p, Slot.InArray c ⟨r, out, p, false⟩ → ∀ r' < c.repCount, ∀ q,
    (endAt (s.procs r') q = some (s.voterEnd r out p).other ↔ r' = r ∧ q = position c out p)
  writes : ∀ r < c.repCount, ∀ out p, Slot.InArray c ⟨r, out, p, false⟩ →
    (s.voterEnd r out p).writes = !out
  /-- The pipes have the types and the directions of the external ones. -/
  pipes : ∀ r < c.repCount, ∀ out p, Slot.InArray c ⟨r, out, p, false⟩ →
    ∃ fd ≠ 0, (s.procs r).pipes[position c out p]? = some (replicaPipe c out p fd)
  kept_open : kept ⊆ s.keeper.fds

theorem Gets.endAt {r p : ℕ} {out : Bool} {proc : FdServer.Process End} (h : Gets c ends r proc)
    (hin : Slot.InArray c ⟨r, out, p, true⟩) :
    endAt proc (position c out p) = some (ends ⟨r, out, p, true⟩) := by
  obtain ⟨fd, hfd, hpipe, htable⟩ := h.pipes out p hin
  rw [S3RES.Rewiring.endAt, hpipe, Option.bind_some]
  cases out with
  | false => simpa [replicaPipe, hfd] using htable
  | true => simpa [replicaPipe] using htable

theorem Inv.wired (h : Inv c kept s) : Wired c kept s := by
  obtain ⟨ends, hj, hgets⟩ := h
  have hvoter : ∀ r < c.repCount, ∀ out p, Slot.InArray c ⟨r, out, p, false⟩ →
      s.voterEnd r out p = ends ⟨r, out, p, false⟩ := fun r hr out p hin =>
    hj.owns.refers ⟨r, out, p, false⟩ ⟨hr, hin⟩
  refine ⟨fun r hr out p hin r' hr' q => ?_, fun r hr out p hin => ?_, fun r hr out p hin => ?_,
    hj.owns.kept_open⟩
  · rw [hvoter r hr out p hin, ← hj.forRep r out p ⟨hr, hin⟩]
    constructor
    · intro heq
      have hq : q < c.inPipeCount + c.outPipeCount := by
        by_contra hge
        have hnone : (s.procs r').pipes[q]? = none :=
          List.getElem?_eq_none (by rw [(hgets r' hr').length]; omega)
        rw [S3RES.Rewiring.endAt, hnone] at heq
        exact absurd heq (Option.some_ne_none _).symm
      obtain ⟨out', p', hin', rfl⟩ := exists_position r' hq
      rw [(hgets r' hr').endAt hin'] at heq
      have hslot := hj.owns.injective ⟨r', out', p', true⟩ ⟨r, out, p, true⟩ ⟨hr', hin'⟩ ⟨hr, hin⟩
        (Option.some.inj heq)
      obtain ⟨rfl, rfl, rfl, -⟩ := Slot.mk.inj hslot
      exact ⟨rfl, rfl⟩
    · rintro ⟨rfl, rfl⟩
      exact (hgets r' hr').endAt hin
  · rw [hvoter r hr out p hin]
    exact hj.writes r out p ⟨hr, hin⟩
  · obtain ⟨fd, hfd, hpipe, -⟩ := (hgets r hr).pipes out p hin
    exact ⟨fd, hfd, hpipe⟩

/-- **The replicas stay connected.** Started with the descriptors `kept` open, 0 among them,
whichever replicas are found faulty in whatever order and whatever numbers the kernel gives: the
process in each slot is connected to VoterM's pipes of the slot, each at its index, and `kept` stay
open. -/
theorem stays_joined (hkept : kept ⊆ s.keeper.fds) (h0 : 0 ∈ kept) (ht : t ∈ initVoterM c s fds)
    (hreach : Reaches (step c) (fun _ _ => True) t s') : Wired c kept s' := by
  have hinv : Inv c kept s' := hreach.invariant (inv_initVoterM hkept h0 ht)
    fun _ _ _ h _ hu => inv_step h0 h hu
  exact hinv.wired

/-! ### What is open -/

theorem counted_startReplicas {m : ℕ} (hcounted : Counted m b s.keeper.fds)
    (hb : m + 2 * (n * (c.inPipeCount + c.outPipeCount)) ≤ b)
    (ht : t ∈ startReplicas c s forking a n fds) :
    Counted (m + 2 * (n * (c.inPipeCount + c.outPipeCount))) b t.keeper.fds := by
  rw [keeper_startReplicas ht]
  rw [← length_newPairs c a n] at hb ⊢
  exact hcounted.pipeAll allocates_lowestFree hb

/-- As many are closed as are opened. -/
theorem counted_step {m : ℕ} {act : Act}
    (hm : 2 * (c.inPipeCount + c.outPipeCount) ≤ m) (h : Inv c kept s)
    (hcounted : Counted m b s.keeper.fds) (ht : t ∈ step c s act) :
    Counted m b t.keeper.fds := by
  obtain ⟨hlt, u, forking, fds, hkeeper, -, ht⟩ := step_cases ht
  obtain ⟨ends, hj, -⟩ := h
  obtain ⟨m, rfl⟩ := Nat.exists_eq_add_of_le' hm
  have hle := hcounted.le
  have hkilled : Counted m b u.keeper.fds := by
    rw [hkeeper]
    refine Counted.closeAll ?_ hj.owns (fun i hi => ?_) (nodup_killSlots c act.faultIndex)
    · rwa [length_killSlots]
    · obtain ⟨heq, hin⟩ := mem_killSlots.mp hi
      exact ⟨heq ▸ hlt, hin⟩
  have hopened := counted_startReplicas (n := 1) hkilled (by omega) ht
  rwa [one_mul] at hopened

/-- **Nothing is left open.** Where `m` descriptors are open before `initVoterM`, and `b` bounds
their numbers and leaves room for those of the pipes, as many are open after every fault as after
`initVoterM`, and none has a number from `b` on. -/
theorem closes_as_many {m : ℕ} (hcounted : Counted m b s.keeper.fds) (hkept : 0 ∈ s.keeper.fds)
    (hb : m + 2 * (c.repCount * (c.inPipeCount + c.outPipeCount)) ≤ b)
    (ht : t ∈ initVoterM c s fds) (hreach : Reaches (step c) (fun _ _ => True) t s') :
    Counted (m + 2 * (c.repCount * (c.inPipeCount + c.outPipeCount))) b s'.keeper.fds := by
  have hstart : Counted (m + 2 * (c.repCount * (c.inPipeCount + c.outPipeCount))) b
      t.keeper.fds := by
    obtain ⟨u, hu, rfl⟩ := Option.map_eq_some_iff.mp ht
    exact counted_startReplicas (t := u) hcounted hb hu
  have hsub : [0] ⊆ s.keeper.fds := List.cons_subset.mpr ⟨hkept, List.nil_subset _⟩
  have h0 : 0 ∈ [0] := List.mem_singleton_self 0
  refine (hreach.invariant (I := fun s' => Inv c [0] s' ∧ Counted _ b s'.keeper.fds)
    ⟨inv_initVoterM hsub h0 ht, hstart⟩ fun u act v hu _ hv => ⟨inv_step h0 hu.1 hv, ?_⟩).2
  refine counted_step ?_ hu.1 hu.2 hv
  have hpos : 1 ≤ c.repCount := Nat.one_le_of_lt (step_cases hv).1
  have hle := Nat.le_mul_of_pos_left (c.inPipeCount + c.outPipeCount) hpos
  omega

end Runs

/-- Three replicas with a pipe in and a pipe out. -/
def rangerConfig : Config :=
  parseArgs "TMR" 500 25 [⟨"RANGE_POSE_DATA", 3, 0, 1⟩, ⟨"MOV_CMD", 0, 4, 1⟩]

/-- VoterM has the external pipes open. -/
def rangerBoot : System where
  state := boot
  keeper := ⟨[0, 1, 2, 3, 4], fun fd => ⟨fd, false⟩, 5, fun _ => 0⟩
  procs _ := ⟨.connecting, 0, [], 0, 0, fun _ => none⟩

def rangerSystem : System :=
  (initVoterM rangerConfig rangerBoot fun _ => [20, 21]).get (by decide +kernel)

/-- The second replica is found faulty, and then the third. -/
def rangerRestarted : System :=
  follow (step rangerConfig) [⟨1, [20, 21]⟩, ⟨2, [30, 31]⟩] rangerSystem

theorem reaches_rangerRestarted :
    Reaches (step rangerConfig) (fun _ _ => True) rangerSystem rangerRestarted :=
  reaches_follow (allSteps_true _ _) (by decide +kernel)

theorem stays_joined_twoFaults : Wired rangerConfig [0, 3, 4] rangerRestarted :=
  stays_joined (by decide) (by decide) (Option.get_mem _) reaches_rangerRestarted

theorem closes_as_many_twoFaults : Counted 17 17 rangerRestarted.keeper.fds :=
  closes_as_many ⟨by decide, rfl, by decide⟩ (by decide) (by decide) (Option.get_mem _)
    reaches_rangerRestarted

end S3RES.VoterM.Rewiring
