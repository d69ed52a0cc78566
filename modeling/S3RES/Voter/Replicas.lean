import S3RES.Foundations.Loop
import S3RES.Voter.VoteBuff

/-!
# Replicas and their pipes

`src/replicas.c`: the voter's record of each replica, the choices it makes between them
(`bytesReady`, `aheadRep`, `behindRep`, `balanceReps`) and the making and closing of their
pipes (`initReplica`, `cleanupReplica`, `createPipes`). Arrays are functions of the index.
The descriptors a process holds are a list, and `pipe` hands out the lowest numbers that
are free. Whether a call of `sched_set_policy` succeeds is the caller's argument `sched`:
it fails for a replica that is already dead.
-/

namespace S3RES

open Loop

/-- `replication_t`. -/
inductive ReplicationT
  | none
  | smr
  | dmr
  | tmr
  | repTypeError
  deriving DecidableEq

def reptypeToEnum (type : String) : ReplicationT :=
  if type = "NONE" then .none
  else if type = "SMR" then .smr
  else if type = "DMR" then .dmr
  else if type = "TMR" then .tmr
  else .repTypeError

def reptypeToCount : ReplicationT → ℕ
  | .smr => 1
  | .dmr => 2
  | .tmr => 3
  | _ => 0

/-- `struct replica`. -/
structure Replica where
  priority : ℤ
  pinnedCpu : ℤ
  pipeCount : ℕ
  votPipes : ℕ → VotePipe
  voterRepInCopy : ℕ → ℕ
  repPipes : ℕ → VotePipe

/-- The same replica with vote pipe `p` replaced. -/
def Replica.setVot (rep : Replica) (p : ℕ) (pipe : VotePipe) : Replica :=
  { rep with votPipes := Function.update rep.votPipes p pipe }

/-! ### Choosing between replicas -/

/-- The number of bytes every replica has on a pipe. -/
def bytesReady (reps : ℕ → Replica) (num pipeNum : ℕ) : ℕ :=
  loop (fun r min =>
    if ((reps r).votPipes pipeNum).buffCount < min then ((reps r).votPipes pipeNum).buffCount
    else min) num maxVotePipeBuff

/-- The index of the replica furthest ahead on a pipe. -/
def aheadRep (reps : ℕ → Replica) (num pipeNum : ℕ) : ℕ :=
  loop (fun r mostAhead =>
    if ((reps r).votPipes pipeNum).buffCount > ((reps mostAhead).votPipes pipeNum).buffCount
    then r else mostAhead) num 0

/-- The index of the replica furthest behind on a pipe, among those the one of highest
priority. -/
def behindRep (reps : ℕ → Replica) (num pipeNum : ℕ) : ℕ :=
  loop (fun i mostBehind =>
    let r := i + 1
    if ((reps r).votPipes pipeNum).buffCount < ((reps mostBehind).votPipes pipeNum).buffCount
    then r
    else if ((reps r).votPipes pipeNum).buffCount =
        ((reps mostBehind).votPipes pipeNum).buffCount then
      if (reps r).priority > (reps mostBehind).priority then r else mostBehind
    else mostBehind) (num - 1) 0

/-- How far a replica lags behind the furthest one, summed over the out pipes. -/
def repGap (reps : ℕ → Replica) (num repNum : ℕ) : ℤ :=
  loop (fun p gap =>
    if ((reps 0).votPipes p).fdIn ≠ 0 then
      gap + (((reps (aheadRep reps num p)).votPipes p).buffCount -
        ((reps repNum).votPipes p).buffCount : ℤ)
    else gap) (reps 0).pipeCount 0

/-- The two replicas `balanceReps` raises, the one that gets the data first and the one up
next. -/
def balanceChoice (reps : ℕ → Replica) (num : ℕ) : ℕ × ℕ :=
  loop (fun index (choice : ℕ × ℕ) =>
    if repGap reps num index > repGap reps num choice.1 then (index, choice.2)
    else if repGap reps num index > repGap reps num choice.2 then
      if index ≠ choice.1 then (choice.1, index) else choice
    else choice) num (0, 1)

/-- Set the priorities of the replicas whose scheduler call succeeds. -/
def balanceReps (reps : ℕ → Replica) (num : ℕ) (defaultPriority : ℤ) (sched : ℕ → Bool) :
    ℕ → Replica :=
  if num < 2 then reps
  else
    let choice := balanceChoice reps num
    loop (fun index reps =>
      let priority :=
        if index = choice.1 then defaultPriority + 2
        else if index = choice.2 then defaultPriority + 1
        else defaultPriority
      if sched index then
        Function.update reps index { reps index with priority := priority }
      else reps) num reps

/-! ### Descriptors and pipes -/

/-- The lowest descriptor number that is not open. -/
def lowestFree (fds : List ℕ) : ℕ :=
  ((List.range (fds.length + 1)).find? (· ∉ fds)).getD 0

/-- `pipe(pipe_fds)`: the read end, the write end and the descriptors open afterwards. -/
def pipeFds (fds : List ℕ) : (ℕ × ℕ) × List ℕ :=
  let a := lowestFree fds
  let b := lowestFree (a :: fds)
  ((a, b), b :: a :: fds)

/-- `close(fd)`. -/
def close (fd : ℕ) (fds : List ℕ) : List ℕ := fds.filter (· ≠ fd)

/-- `close(fd)` behind a test that the descriptor is set. -/
def closeSet (fd : ℕ) (fds : List ℕ) : List ℕ := if fd ≠ 0 then close fd fds else fds

def resetVotePipe (pipe : VotePipe) : VotePipe :=
  { pipe with fdIn := 0, fdOut := 0, buffCount := 0, buffIndex := 0 }

/-- Close the four ends the voter holds of each of a replica's pipes. -/
def closePipes (rep : Replica) (fds : List ℕ) : List ℕ :=
  loop (fun i fds =>
    closeSet (rep.repPipes i).fdOut (closeSet (rep.repPipes i).fdIn
      (closeSet (rep.votPipes i).fdOut (closeSet (rep.votPipes i).fdIn fds))))
    rep.pipeCount fds

/-- `cleanupReplica`, next to the `kill`: the descriptors open afterwards. -/
def cleanupReplica (rep : Replica) (fds : List ℕ) : List ℕ := closePipes rep fds

/-- `QUAD_PIN_POLICY` and `CONTROLLER_PIN` of the checked-in configuration. -/
def quadPinPolicy : ℤ := -2

def controllerPin : ℤ := quadPinPolicy

/-- One round of `initReplicas`: the record of replica `index`, its old pipes reset and
closed. -/
def initReplica (rep : Replica) (index : ℕ) (priority : ℤ) (fds : List ℕ) :
    Replica × List ℕ :=
  ({ rep with
      priority := priority
      pinnedCpu := if controllerPin = quadPinPolicy then index + 1 else controllerPin
      pipeCount := 0
      votPipes := fun j =>
        if j < rep.pipeCount then resetVotePipe (rep.votPipes j) else rep.votPipes j
      repPipes := fun j =>
        if j < rep.pipeCount then resetVotePipe (rep.repPipes j) else rep.repPipes j },
    closePipes rep fds)

/-- One pipe of `createPipes`, for the external pipe `extPipe` at index `p`. -/
def createPipe (extPipe : VotePipe) (p : ℕ) (r : Replica × List ℕ) : Replica × List ℕ :=
  let ((readEnd, writeEnd), fds) := pipeFds r.2
  let vot := { r.1.votPipes p with repInfo := extPipe.repInfo }
  let rep := { r.1.repPipes p with repInfo := extPipe.repInfo }
  if extPipe.fdIn ≠ 0 then -- This pipe is incoming
    ({ r.1 with
        votPipes := Function.update r.1.votPipes p { vot with fdIn := 0, fdOut := writeEnd }
        repPipes := Function.update r.1.repPipes p { rep with fdIn := readEnd, fdOut := 0 }
        voterRepInCopy := Function.update r.1.voterRepInCopy p readEnd
        pipeCount := p + 1 }, fds)
  else -- This pipe is outgoing
    ({ r.1 with
        votPipes := Function.update r.1.votPipes p { vot with fdIn := readEnd, fdOut := 0 }
        repPipes := Function.update r.1.repPipes p { rep with fdIn := 0, fdOut := writeEnd }
        voterRepInCopy := Function.update r.1.voterRepInCopy p 0
        pipeCount := p + 1 }, fds)

/-- `createPipes` for one replica. -/
def createPipes (extPipes : ℕ → VotePipe) (pipeCount : ℕ) (rep : Replica) (fds : List ℕ) :
    Replica × List ℕ :=
  loop (fun p r => createPipe (extPipes p) p r) pipeCount (rep, fds)

/-! ### What the choices look at -/

/-- `balanceReps` touches priorities only. -/
theorem balanceReps_proj {β : Type*} (π : Replica → β)
    (hπ : ∀ rep priority, π { rep with priority := priority } = π rep) (reps : ℕ → Replica)
    (num : ℕ) (defaultPriority : ℤ) (sched : ℕ → Bool) (r : ℕ) :
    π (balanceReps reps num defaultPriority sched r) = π (reps r) := by
  simp only [balanceReps]
  split
  · rfl
  · refine loop_induction (fun _ (t : ℕ → Replica) => π (t r) = π (reps r)) rfl
      fun i _ t ht => ?_
    split
    · rcases eq_or_ne r i with rfl | hne
      · rw [Function.update_self, hπ, ht]
      · rw [Function.update_of_ne hne, ht]
    · exact ht

@[simp] theorem balanceReps_votPipes (reps : ℕ → Replica) (num : ℕ) (defaultPriority : ℤ)
    (sched : ℕ → Bool) (r : ℕ) :
    (balanceReps reps num defaultPriority sched r).votPipes = (reps r).votPipes :=
  balanceReps_proj Replica.votPipes (fun _ _ => rfl) ..

/-- No replica has fewer bytes than are ready. -/
theorem bytesReady_le (reps : ℕ → Replica) {num r : ℕ} (pipeNum : ℕ) (hr : r < num) :
    bytesReady reps num pipeNum ≤ ((reps r).votPipes pipeNum).buffCount := by
  refine loop_induction
    (fun k min => ∀ r < k, min ≤ ((reps r).votPipes pipeNum).buffCount)
    (fun r hr => absurd hr r.not_lt_zero) (fun i _ min hmin r hr => ?_) r hr
  rcases Nat.lt_succ_iff_lt_or_eq.mp hr with h | rfl
  · have := hmin r h
    split <;> omega
  · split <;> omega

/-- Some replica has exactly the bytes that are ready, once one has less than the size of
the array. -/
theorem exists_bytesReady_eq (reps : ℕ → Replica) {num : ℕ} (pipeNum : ℕ) (hnum : 0 < num)
    (hlt : ∀ r < num, ((reps r).votPipes pipeNum).buffCount < maxVotePipeBuff) :
    ∃ r < num, bytesReady reps num pipeNum = ((reps r).votPipes pipeNum).buffCount := by
  have hloop : bytesReady reps num pipeNum = maxVotePipeBuff ∨
      ∃ r < num, bytesReady reps num pipeNum = ((reps r).votPipes pipeNum).buffCount := by
    refine loop_induction (fun k min => min = maxVotePipeBuff ∨
      ∃ r < k, min = ((reps r).votPipes pipeNum).buffCount) (.inl rfl) fun i _ min hmin => ?_
    split
    · exact .inr ⟨i, i.lt_succ_self, rfl⟩
    · exact hmin.imp_right fun ⟨r, hr, h⟩ => ⟨r, hr.trans i.lt_succ_self, h⟩
  refine hloop.resolve_left fun hmax => ?_
  have h₁ := bytesReady_le reps pipeNum hnum
  have h₂ := hlt 0 hnum
  omega

/-- The number of ready bytes depends on the counts only. -/
theorem bytesReady_congr {reps reps' : ℕ → Replica} {num pipeNum : ℕ}
    (h : ∀ r < num, ((reps r).votPipes pipeNum).buffCount =
      ((reps' r).votPipes pipeNum).buffCount) :
    bytesReady reps num pipeNum = bytesReady reps' num pipeNum := by
  induction num with
  | zero => rfl
  | succ n ih =>
    have hn := ih fun r hr => h r (hr.trans n.lt_succ_self)
    simp only [bytesReady, loop_succ] at hn ⊢
    rw [hn, h n n.lt_succ_self]

/-- The replica behind is one of the replicas. -/
theorem behindRep_lt (reps : ℕ → Replica) {num : ℕ} (pipeNum : ℕ) (hnum : 0 < num) :
    behindRep reps num pipeNum < num := by
  refine loop_induction (fun _ mostBehind => mostBehind < num) hnum fun i hi t ht => ?_
  have hi' : i + 1 < num := by omega
  dsimp only
  split_ifs <;> assumption

/-! ### Which descriptors are open -/

/-- The descriptors the voter holds for the pipes of a replica. -/
structure Plumbing where
  pipeCount : ℕ
  votIn : ℕ → ℕ
  votOut : ℕ → ℕ
  repIn : ℕ → ℕ
  repOut : ℕ → ℕ
  repInCopy : ℕ → ℕ

def Replica.plumbing (rep : Replica) : Plumbing where
  pipeCount := rep.pipeCount
  votIn p := (rep.votPipes p).fdIn
  votOut p := (rep.votPipes p).fdOut
  repIn p := (rep.repPipes p).fdIn
  repOut p := (rep.repPipes p).fdOut
  repInCopy := rep.voterRepInCopy

/-- `fd` is one of the four descriptors the voter holds for some pipe. -/
def Plumbing.Holds (pl : Plumbing) (fd : ℕ) : Prop :=
  fd ≠ 0 ∧ ∃ i < pl.pipeCount,
    fd = pl.votIn i ∨ fd = pl.votOut i ∨ fd = pl.repIn i ∨ fd = pl.repOut i

theorem mem_closeSet {fd fd' : ℕ} {fds : List ℕ} :
    fd' ∈ closeSet fd fds ↔ fd' ∈ fds ∧ (fd' = fd → fd' = 0) := by
  rw [closeSet]
  split
  · simp only [close, List.mem_filter, decide_eq_true_eq]
    grind
  · grind

/-- Closing a replica's pipes closes exactly what is held for it. -/
theorem mem_closePipes {rep : Replica} {fd : ℕ} {fds : List ℕ} :
    fd ∈ closePipes rep fds ↔ fd ∈ fds ∧ ¬ rep.plumbing.Holds fd := by
  have hloop := loop_induction (s := fds) (n := rep.pipeCount)
    (f := fun i fds => closeSet (rep.repPipes i).fdOut (closeSet (rep.repPipes i).fdIn
      (closeSet (rep.votPipes i).fdOut (closeSet (rep.votPipes i).fdIn fds))))
    (fun k t => fd ∈ t ↔ fd ∈ fds ∧ ¬ (fd ≠ 0 ∧ ∃ i < k, fd = (rep.votPipes i).fdIn ∨
      fd = (rep.votPipes i).fdOut ∨ fd = (rep.repPipes i).fdIn ∨ fd = (rep.repPipes i).fdOut))
    (by simp) fun i _ t ht => ?_
  · exact hloop
  · simp only [mem_closeSet, ht, Nat.lt_succ_iff_lt_or_eq]
    grind

/-- The number handed out was free. -/
theorem lowestFree_not_mem (fds : List ℕ) : lowestFree fds ∉ fds := by
  have hex : ∃ n ∈ List.range (fds.length + 1), n ∉ fds := by
    by_contra hall
    push Not at hall
    have hle := (List.nodup_range (n := fds.length + 1)).length_le_of_subset hall
    simp at hle
  rw [lowestFree]
  rcases h : (List.range (fds.length + 1)).find? (· ∉ fds) with _ | n
  · obtain ⟨n, hn, hfree⟩ := hex
    simpa [hfree] using List.find?_eq_none.mp h n hn
  · simpa using List.find?_some h

/-! ### Making pipes -/

/-- `createPipes` touches the pipes of a replica only. -/
theorem createPipes_proj {β : Type*} (π : Replica → β)
    (hπ : ∀ rep vots copy reps count, π { rep with
      votPipes := vots, voterRepInCopy := copy, repPipes := reps, pipeCount := count } = π rep)
    (extPipes : ℕ → VotePipe) (n : ℕ) (rep : Replica) (fds : List ℕ) :
    π (createPipes extPipes n rep fds).1 = π rep := by
  refine loop_proj (fun r : Replica × List ℕ => π r.1) (fun p r => ?_) n (rep, fds)
  simp only [createPipe]
  split
  · exact hπ ..
  · exact hπ ..

/-- How `createPipes` connects the `n` pipes of a replica: the voter reads exactly the
pipes whose external end it does not read, keeps a copy of the read end of the others, and
no two read ends are one descriptor. -/
structure Plumbing.Wired (extPipes : ℕ → VotePipe) (n : ℕ) (pl : Plumbing) : Prop where
  count : pl.pipeCount = n
  out : ∀ p < n, (extPipes p).fdIn = 0 → pl.votIn p ≠ 0 ∧ pl.repInCopy p = 0
  inward : ∀ p < n, (extPipes p).fdIn ≠ 0 → pl.votIn p = 0 ∧ pl.repInCopy p ≠ 0
  injective : ∀ p < n, ∀ q < n, pl.votIn p ≠ 0 → pl.votIn p = pl.votIn q → p = q

/-- The plumbing with pipe `p` connected, the last one so far. -/
def Plumbing.connect (pl : Plumbing) (p vi vo ri ro copy : ℕ) : Plumbing where
  pipeCount := p + 1
  votIn := Function.update pl.votIn p vi
  votOut := Function.update pl.votOut p vo
  repIn := Function.update pl.repIn p ri
  repOut := Function.update pl.repOut p ro
  repInCopy := Function.update pl.repInCopy p copy

theorem Plumbing.Holds.of_connect {pl : Plumbing} {vi vo ri ro copy fd : ℕ}
    (h : (pl.connect pl.pipeCount vi vo ri ro copy).Holds fd) :
    pl.Holds fd ∨ fd ≠ 0 ∧ (fd = vi ∨ fd = vo ∨ fd = ri ∨ fd = ro) := by
  obtain ⟨hfd, i, hi, h⟩ := h
  rcases Nat.lt_succ_iff_lt_or_eq.mp hi with hlt | rfl
  · simp only [connect, ne_eq, hlt.ne, not_false_eq_true, Function.update_of_ne] at h
    exact .inl ⟨hfd, i, hlt, h⟩
  · simp only [connect, Function.update_self] at h
    exact .inr ⟨hfd, h⟩

/-- Connecting one pipe more keeps the wiring, if its read end is new. -/
theorem Plumbing.Wired.connect {extPipes : ℕ → VotePipe} {k : ℕ} {pl : Plumbing}
    (h : pl.Wired extPipes k) {vi vo ri ro copy : ℕ}
    (hout : (extPipes k).fdIn = 0 → vi ≠ 0 ∧ copy = 0)
    (hin : (extPipes k).fdIn ≠ 0 → vi = 0 ∧ copy ≠ 0)
    (hnew : vi ≠ 0 → ∀ p < k, pl.votIn p ≠ vi) :
    (pl.connect k vi vo ri ro copy).Wired extPipes (k + 1) := by
  have hlt : ∀ p < k + 1, p ≠ k → p < k := fun p hp hpk => by omega
  refine ⟨rfl, fun p hp hp0 => ?_, fun p hp hp0 => ?_, fun p hp q hq hp0 heq => ?_⟩
  · rcases eq_or_ne p k with rfl | hpk
    · simpa [Plumbing.connect] using hout hp0
    · simpa [Plumbing.connect, hpk] using h.out p (hlt p hp hpk) hp0
  · rcases eq_or_ne p k with rfl | hpk
    · simpa [Plumbing.connect] using hin hp0
    · simpa [Plumbing.connect, hpk] using h.inward p (hlt p hp hpk) hp0
  · simp only [Plumbing.connect] at hp0 heq
    rcases eq_or_ne p k with hpk | hpk
    · rcases eq_or_ne q k with hqk | hqk
      · rw [hpk, hqk]
      · rw [hpk, Function.update_self] at hp0 heq
        rw [Function.update_of_ne hqk] at heq
        exact absurd heq.symm (hnew hp0 q (hlt q hq hqk))
    · rw [Function.update_of_ne hpk] at hp0 heq
      rcases eq_or_ne q k with hqk | hqk
      · rw [hqk, Function.update_self] at heq
        exact absurd heq (hnew (heq ▸ hp0) p (hlt p hp hpk))
      · rw [Function.update_of_ne hqk] at heq
        exact h.injective p (hlt p hp hpk) q (hlt q hq hqk) hp0 heq

/-- The plumbing `createPipe` leaves: one end of the new pipe for each side. -/
theorem createPipe_plumbing (extPipe : VotePipe) (p : ℕ) (r : Replica × List ℕ) :
    (createPipe extPipe p r).1.plumbing =
      if extPipe.fdIn ≠ 0 then
        r.1.plumbing.connect p 0 (lowestFree (lowestFree r.2 :: r.2)) (lowestFree r.2) 0
          (lowestFree r.2)
      else
        r.1.plumbing.connect p (lowestFree r.2) 0 0 (lowestFree (lowestFree r.2 :: r.2)) 0 := by
  simp only [createPipe, pipeFds]
  split <;>
  · simp only [Replica.plumbing, Plumbing.connect, Plumbing.mk.injEq, true_and, and_true]
    refine ⟨?_, ?_, ?_, ?_⟩ <;>
    · funext q
      rcases eq_or_ne q p with rfl | hq
      · simp
      · simp [hq]

@[simp] theorem createPipe_snd (extPipe : VotePipe) (p : ℕ) (r : Replica × List ℕ) :
    (createPipe extPipe p r).2 = lowestFree (lowestFree r.2 :: r.2) :: lowestFree r.2 :: r.2 := by
  simp only [createPipe, pipeFds]
  split <;> rfl

/-- `createPipes` wires the replica with descriptors that were not open before. -/
theorem createPipes_wired (extPipes : ℕ → VotePipe) (n : ℕ) {rep : Replica} {fds : List ℕ}
    (h0 : 0 ∈ fds) (hrep : rep.pipeCount = 0) :
    (createPipes extPipes n rep fds).1.plumbing.Wired extPipes n ∧
      fds ⊆ (createPipes extPipes n rep fds).2 ∧
      ∀ fd, (createPipes extPipes n rep fds).1.plumbing.Holds fd →
        fd ∉ fds ∧ fd ∈ (createPipes extPipes n rep fds).2 := by
  refine loop_induction (fun k (t : Replica × List ℕ) => t.1.plumbing.Wired extPipes k ∧
    fds ⊆ t.2 ∧ ∀ fd, t.1.plumbing.Holds fd → fd ∉ fds ∧ fd ∈ t.2) ?_ fun k _ t ht => ?_
  · refine ⟨⟨hrep, ?_, ?_, ?_⟩, fun _ => id, fun fd hfd => ?_⟩
    · exact fun p hp => absurd hp p.not_lt_zero
    · exact fun p hp => absurd hp p.not_lt_zero
    · exact fun p hp => absurd hp p.not_lt_zero
    · obtain ⟨-, i, hi, -⟩ := hfd
      exact absurd (hrep ▸ hi) i.not_lt_zero
  · obtain ⟨hwired, hsub, hheld⟩ := ht
    have ha := lowestFree_not_mem t.2
    have hb := lowestFree_not_mem (lowestFree t.2 :: t.2)
    have hold : ∀ p < k, t.1.plumbing.votIn p ≠ 0 → t.1.plumbing.votIn p ∈ t.2 :=
      fun p hp hne => (hheld _ ⟨hne, p, hwired.count ▸ hp, .inl rfl⟩).2
    rw [createPipe_plumbing, createPipe_snd]
    generalize lowestFree t.2 = a at *
    generalize lowestFree (a :: t.2) = b at *
    have ha0 : a ≠ 0 := fun h => ha (h ▸ hsub h0)
    have hnew : ∀ p < k, t.1.plumbing.votIn p ≠ a := fun p hp h =>
      ha (h ▸ hold p hp (h ▸ ha0))
    have hfresh : ∀ fd, (fd = a ∨ fd = b) → fd ∉ fds ∧ fd ∈ b :: a :: t.2 := by
      rintro fd (rfl | rfl)
      · exact ⟨fun h => ha (hsub h), by simp⟩
      · exact ⟨fun h => hb (List.mem_cons_of_mem _ (hsub h)), by simp⟩
    have hmem : t.2 ⊆ b :: a :: t.2 := fun x hx => by simp [hx]
    refine ⟨?_, fun x hx => hmem (hsub hx), fun fd hfd => ?_⟩
    · split
      · rename_i hext
        exact hwired.connect (fun h => absurd h hext) (fun _ => ⟨rfl, ha0⟩)
          fun h => absurd rfl h
      · rename_i hext
        exact hwired.connect (fun _ => ⟨ha0, rfl⟩) (fun h => absurd h hext) fun _ => hnew
    · rw [← hwired.count] at hfd
      have hcases : t.1.plumbing.Holds fd ∨ fd = a ∨ fd = b := by
        split at hfd
        · rcases hfd.of_connect with h | ⟨h0, h⟩
          · exact .inl h
          · omega
        · rcases hfd.of_connect with h | ⟨h0, h⟩
          · exact .inl h
          · omega
      rcases hcases with h | h
      · exact ⟨(hheld fd h).1, hmem (hheld fd h).2⟩
      · exact hfresh fd h

/-- What a vote pipe holds is not touched by making its descriptors. -/
theorem createPipes_votPipes {β : Type*} (π : VotePipe → β)
    (hπ : ∀ pipe repInfo fdIn fdOut,
      π { pipe with repInfo := repInfo, fdIn := fdIn, fdOut := fdOut } = π pipe)
    (extPipes : ℕ → VotePipe) (n : ℕ) (rep : Replica) (fds : List ℕ) (p : ℕ) :
    π ((createPipes extPipes n rep fds).1.votPipes p) = π (rep.votPipes p) := by
  refine loop_proj (fun t : Replica × List ℕ => π (t.1.votPipes p)) (fun k t => ?_) n (rep, fds)
  simp only [createPipe]
  split <;>
  · rcases eq_or_ne p k with rfl | hpk
    · simp [hπ]
    · simp [hpk]

end S3RES
