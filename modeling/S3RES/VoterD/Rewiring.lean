import S3RES.Foundations.Descriptors
import S3RES.Voter.FdServer
import S3RES.VoterD.Wiring

/-!
# What the pipes of the replicas are connected to

`startReplicas` starts all replicas, and `restartReplica` fills a slot with a fork of another one,
whose `restartHandler` closes the pipes that it has inherited and gets those of the slot from the
fd server. Here these run next to a kernel that numbers the pipes it makes: `Host.ends` says which
end of which pipe a descriptor of the voter refers to, and the table of a process the same.

`stays_wired`: in every run, whichever replicas are restarted from which others, what the voter
writes into a pipe of a slot is read by the process in the slot at that index and at no other, and
the other way round for what it reads, and the pipes of every process have the types and the
directions of the external pipes.

The voter waits in `acceptSendFDS` until the process has answered, so a restart is one step.
-/

namespace S3RES.Rewiring

open FdServer (Belongs Matches Process Sendable Slots Stage client forked message sentFd)
open Descriptors (Allocates End)
open Loop StepSystem
open VoterD (Config PlumbedAt)

/-! ### Pipes of the kernel -/

theorem allocates_lowestFree : Allocates lowestFree where
  fresh := lowestFree_not_mem
  le fds := by
    rw [lowestFree]
    cases hfind : (List.range (fds.length + 1)).find? (· ∉ fds) with
    | none => exact Nat.zero_le _
    | some fd => exact Nat.le_of_lt_succ (List.mem_range.mp (List.mem_of_find?_eq_some hfind))

/-- What the descriptors refer to behind `pipe(pipe_fds)`, which makes pipe `id`. -/
def pipeEnds (fds : List ℕ) (id : ℕ) (ends : ℕ → End) : ℕ → End :=
  let ((readEnd, writeEnd), _) := pipeFds fds
  Function.update (Function.update ends readEnd ⟨id, false⟩) writeEnd ⟨id, true⟩

/-- What is open behind `createPipes` for one replica and what it refers to, with numbers from
`next` on. -/
def createEnds (pipeCount next : ℕ) (fds : List ℕ) (ends : ℕ → End) : List ℕ × (ℕ → End) :=
  loop (fun p t => ((pipeFds t.1).2, pipeEnds t.1 (next + p) t.2)) pipeCount (fds, ends)

/-- The descriptor that the voter uses for a pipe. -/
def voterFd (extPipe : VotePipe) (pl : Plumbing) (p : ℕ) : ℕ :=
  if extPipe.fdIn ≠ 0 then pl.votOut p else pl.votIn p

/-- The descriptor that it sends to the replica. -/
def repFd (extPipe : VotePipe) (pl : Plumbing) (p : ℕ) : ℕ :=
  if extPipe.fdIn ≠ 0 then pl.repIn p else pl.repOut p

/-- Pipe `p` of a replica is pipe `id` of the kernel, and the voter writes into it where it reads
the external pipe. -/
structure Joins (ends : ℕ → End) (extPipe : VotePipe) (pl : Plumbing) (p id : ℕ) : Prop where
  voter_ne : voterFd extPipe pl p ≠ 0
  rep_ne : repFd extPipe pl p ≠ 0
  voter : ends (voterFd extPipe pl p) = ⟨id, extPipe.fdIn ≠ 0⟩
  rep : ends (repFd extPipe pl p) = ⟨id, extPipe.fdIn = 0⟩
  oneEnd : (if extPipe.fdIn ≠ 0 then pl.repOut p else pl.repIn p) = 0
  voterOneEnd : (if extPipe.fdIn ≠ 0 then pl.votIn p else pl.votOut p) = 0

section Joins

variable {ends ends' : ℕ → End} {extPipe : VotePipe} {pl : Plumbing} {p id : ℕ}

theorem holds_voterFd (hp : p < pl.pipeCount) (hne : voterFd extPipe pl p ≠ 0) :
    pl.Holds (voterFd extPipe pl p) := by
  refine ⟨hne, p, hp, ?_⟩
  rw [voterFd]
  split
  · exact .inr (.inl rfl)
  · exact .inl rfl

theorem holds_repFd (hp : p < pl.pipeCount) (hne : repFd extPipe pl p ≠ 0) :
    pl.Holds (repFd extPipe pl p) := by
  refine ⟨hne, p, hp, ?_⟩
  rw [repFd]
  split
  · exact .inr (.inr (.inl rfl))
  · exact .inr (.inr (.inr rfl))

/-- Only what is held matters. -/
theorem Joins.congr (h : Joins ends extPipe pl p id) (hp : p < pl.pipeCount)
    (hends : ∀ fd, pl.Holds fd → ends' fd = ends fd) : Joins ends' extPipe pl p id where
  voter_ne := h.voter_ne
  rep_ne := h.rep_ne
  voter := (hends _ (holds_voterFd hp h.voter_ne)).trans h.voter
  rep := (hends _ (holds_repFd hp h.rep_ne)).trans h.rep
  oneEnd := h.oneEnd
  voterOneEnd := h.voterOneEnd

/-- Another pipe that is connected does not matter. -/
theorem Joins.connect (h : Joins ends extPipe pl p id) {k vi vo ri ro copy : ℕ} (hpk : p ≠ k) :
    Joins ends extPipe (pl.connect k vi vo ri ro copy) p id := by
  have hvoter : voterFd extPipe (pl.connect k vi vo ri ro copy) p = voterFd extPipe pl p := by
    simp [voterFd, Plumbing.connect, hpk]
  have hrep : repFd extPipe (pl.connect k vi vo ri ro copy) p = repFd extPipe pl p := by
    simp [repFd, Plumbing.connect, hpk]
  refine ⟨hvoter ▸ h.voter_ne, hrep ▸ h.rep_ne, hvoter ▸ h.voter, hrep ▸ h.rep, ?_, ?_⟩
  · simpa [Plumbing.connect, hpk] using h.oneEnd
  · simpa [Plumbing.connect, hpk] using h.voterOneEnd

end Joins

/-- A new pipe, where the descriptor 0 is open. -/
theorem joins_createPipe {fds : List ℕ} (h0 : 0 ∈ fds) (ends : ℕ → End) (extPipe : VotePipe)
    (p id : ℕ) (rep : Replica) :
    Joins (pipeEnds fds id ends) extPipe (createPipe extPipe p (rep, fds)).1.plumbing p id := by
  have ha := lowestFree_not_mem fds
  have hb := lowestFree_not_mem (lowestFree fds :: fds)
  rw [createPipe_plumbing, pipeEnds, pipeFds]
  dsimp only
  generalize lowestFree fds = a at *
  generalize lowestFree (a :: fds) = b at *
  have ha0 : a ≠ 0 := fun h => ha (h ▸ h0)
  have hb0 : b ≠ 0 := fun h => hb (h ▸ List.mem_cons_of_mem _ h0)
  have hab : a ≠ b := fun h => hb (h ▸ List.mem_cons_self)
  split
  · rename_i hext
    constructor <;> simp [voterFd, repFd, Plumbing.connect, hext, ha0, hb0, hab]
  · rename_i hext
    rw [ne_eq, not_not] at hext
    constructor <;> simp [voterFd, repFd, Plumbing.connect, hext, ha0, hb0, hab]

/-- **The pipes of `createPipes`.** What was open refers to what it referred to. -/
theorem createEnds_spec (extPipes : ℕ → VotePipe) (n next : ℕ) {rep : Replica} {fds : List ℕ}
    (ends : ℕ → End) (h0 : 0 ∈ fds) (hrep : rep.pipeCount = 0) :
    (createEnds n next fds ends).1 = (createPipes extPipes n rep fds).2 ∧
      (∀ fd ∈ fds, (createEnds n next fds ends).2 fd = ends fd) ∧
      ∀ p < n, Joins (createEnds n next fds ends).2 (extPipes p)
        (createPipes extPipes n rep fds).1.plumbing p (next + p) := by
  induction n with
  | zero => exact ⟨rfl, fun _ _ => rfl, fun p hp => absurd hp p.not_lt_zero⟩
  | succ k ih =>
    obtain ⟨hopen, hkeep, hjoins⟩ := ih
    obtain ⟨hwired, hsub, hheld⟩ := createPipes_wired extPipes k h0 hrep
    set r := createPipes extPipes k rep fds with hr
    set t := createEnds k next fds ends with ht
    have hnext : createPipes extPipes (k + 1) rep fds = createPipe (extPipes k) k r := rfl
    have hends : createEnds (k + 1) next fds ends =
        ((pipeFds t.1).2, pipeEnds t.1 (next + k) t.2) := rfl
    rw [hnext, hends, hopen]
    have ha := lowestFree_not_mem r.2
    have hb := lowestFree_not_mem (lowestFree r.2 :: r.2)
    have hsame : ∀ fd ∈ r.2, pipeEnds r.2 (next + k) t.2 fd = t.2 fd := by
      intro fd hfd
      have hfda : fd ≠ lowestFree r.2 := fun h => ha (h ▸ hfd)
      have hfdb : fd ≠ lowestFree (lowestFree r.2 :: r.2) := fun h =>
        hb (h ▸ List.mem_cons_of_mem _ hfd)
      simp [pipeEnds, pipeFds, hfda, hfdb]
    refine ⟨(createPipe_snd ..).symm, fun fd hfd => ?_, fun p hp => ?_⟩
    · exact (hsame fd (hsub hfd)).trans (hkeep fd hfd)
    · rcases eq_or_ne p k with rfl | hpk
      · exact joins_createPipe (hsub h0) t.2 (extPipes p) p (next + p) r.1
      · have hpk' : p < k := by omega
        have hold := (hjoins p hpk').congr (hwired.count.symm ▸ hpk') fun fd hfd =>
          hsame fd (hheld fd hfd).2
        rw [createPipe_plumbing]
        split
        · exact hold.connect hpk
        · exact hold.connect hpk

/-! ### The voter -/

/-- The voter and the kernel. -/
structure Host where
  voter : VoterD.State
  ends : ℕ → End
  /-- The number of the next pipe. -/
  next : ℕ

/-- `createPipes` for slot `v`. -/
def Host.newPipes (c : Config) (h : Host) (v pipeCount : ℕ) : Host where
  voter := VoterD.newPipes c h.voter v pipeCount
  ends := (createEnds pipeCount h.next h.voter.fds h.ends).2
  next := h.next + pipeCount

/-- `restartReplica` up to `acceptSendFDS`. -/
def Host.refill (c : Config) (h : Host) (restarter restartee : ℕ) (sched : ℕ → Bool) : Host :=
  let s := { h.voter with fds := cleanupReplica (h.voter.replicas restartee) h.voter.fds }
  let s := { s with replicas := VoterD.favour c restarter restartee sched s.replicas }
  let s := VoterD.reinit c s restartee 0
  Host.newPipes c { h with voter := s } restartee (s.replicas restarter).pipeCount

/-- `startReplicas` before it forks. -/
def Host.fill (c : Config) (h : Host) : Host :=
  let s := loop (fun r s => VoterD.reinit c s r r) c.repCount h.voter
  loop (fun r h => h.newPipes c r c.pipeCount) c.repCount { h with voter := s }

/-- The slots in `live` have pipes of the kernel, each its own: pipe `p` of slot `r` is number
`ids r p`. -/
structure Joined (c : Config) (live : ℕ → Prop) (h : Host) (ids : ℕ → ℕ → ℕ) : Prop where
  plumbed : PlumbedAt c.extPipes c.pipeCount live h.voter.fds h.voter.plumbing
  joins : ∀ r, live r → ∀ p < c.pipeCount,
    Joins h.ends (c.extPipes p) (h.voter.plumbing r) p (ids r p)
  repInfo : ∀ r, live r → ∀ p < c.pipeCount,
    ((h.voter.replicas r).repPipes p).repInfo = (c.extPipes p).repInfo
  old : ∀ r, live r → ∀ p < c.pipeCount, ids r p < h.next
  injective : ∀ r r' p p', live r → live r' → p < c.pipeCount → p' < c.pipeCount →
    ids r p = ids r' p' → r = r' ∧ p = p'

section Joined

variable {c : Config} {live live' : ℕ → Prop} {h h' : Host} {ids : ℕ → ℕ → ℕ} {v : ℕ}

/-- Only the live slots and their pipes matter. -/
theorem Joined.congr (hj : Joined c live h ids) (hlive : ∀ r, live' r → live r)
    (hplumbed : PlumbedAt c.extPipes c.pipeCount live' h'.voter.fds h'.voter.plumbing)
    (hrep : ∀ r, live' r → h'.voter.plumbing r = h.voter.plumbing r ∧
      (h'.voter.replicas r).repPipes = (h.voter.replicas r).repPipes)
    (hends : h'.ends = h.ends) (hnext : h'.next = h.next) : Joined c live' h' ids where
  plumbed := hplumbed
  joins r hr p hp := by
    rw [(hrep r hr).1, hends]
    exact hj.joins r (hlive r hr) p hp
  repInfo r hr p hp := by
    rw [(hrep r hr).2]
    exact hj.repInfo r (hlive r hr) p hp
  old r hr p hp := hnext ▸ hj.old r (hlive r hr) p hp
  injective r r' p p' hr hr' := hj.injective r r' p p' (hlive r hr) (hlive r' hr')

/-- **A slot is given new pipes.** -/
theorem Joined.newPipes (hj : Joined c live h ids) (hv : ¬ live v)
    (hrep : (h.voter.replicas v).pipeCount = 0) :
    Joined c (fun r => live r ∨ r = v) (h.newPipes c v c.pipeCount)
      (Function.update ids v fun p => h.next + p) := by
  have hne : ∀ r, live r → r ≠ v := fun r hr heq => hv (heq ▸ hr)
  have hother : ∀ r, live r →
      (VoterD.newPipes c h.voter v c.pipeCount).replicas r = h.voter.replicas r := fun r hr =>
    Function.update_of_ne (hne r hr) _ _
  obtain ⟨-, hkeep, hjoins⟩ :=
    createEnds_spec c.extPipes c.pipeCount h.next h.ends hj.plumbed.zero_open hrep
  refine ⟨hj.plumbed.newPipes hv hrep, ?_, ?_, ?_, ?_⟩
  · rintro r (hr | rfl) p hp
    · rw [Function.update_of_ne (hne r hr), Host.newPipes]
      dsimp only
      rw [VoterD.State.plumbing, hother r hr]
      have hcount : p < (h.voter.plumbing r).pipeCount := (hj.plumbed.wired r hr).count.symm ▸ hp
      exact (hj.joins r hr p hp).congr hcount fun fd hfd =>
        hkeep fd (hj.plumbed.held_open r hr fd hfd)
    · simpa [Host.newPipes, VoterD.newPipes, VoterD.State.plumbing] using hjoins p hp
  · rintro r (hr | rfl) p hp
    · rw [Host.newPipes]
      dsimp only
      rw [hother r hr]
      exact hj.repInfo r hr p hp
    · simpa [Host.newPipes, VoterD.newPipes] using
        (FdServer.repPipes_createPipes c.extPipes c.pipeCount (h.voter.replicas r)
          hj.plumbed.zero_open hp).1
  · rintro r (hr | rfl) p hp
    · rw [Function.update_of_ne (hne r hr)]
      exact (hj.old r hr p hp).trans_le (Nat.le_add_right _ _)
    · rw [Function.update_self]
      exact Nat.add_lt_add_left hp _
  · rintro r r' p p' (hr | rfl) (hr' | rfl) hp hp' heq
    · rw [Function.update_of_ne (hne r hr), Function.update_of_ne (hne r' hr')] at heq
      exact hj.injective r r' p p' hr hr' hp hp' heq
    · rw [Function.update_of_ne (hne r hr), Function.update_self] at heq
      have := hj.old r hr p hp
      omega
    · rw [Function.update_of_ne (hne r' hr'), Function.update_self] at heq
      have := hj.old r' hr' p' hp'
      omega
    · rw [Function.update_self] at heq
      exact ⟨rfl, Nat.add_left_cancel heq⟩

/-- `restartReplica` behind `initReplicas`: a slot is emptied. -/
theorem Joined.drop (hj : Joined c (· < c.repCount) h ids) (u : ℕ) (hv : v < c.repCount)
    (sched : ℕ → Bool) :
    let s := { h.voter with fds := cleanupReplica (h.voter.replicas v) h.voter.fds }
    let s := { s with replicas := VoterD.favour c u v sched s.replicas }
    Joined c (fun r => r < c.repCount ∧ r ≠ v) { h with voter := VoterD.reinit c s v 0 } ids := by
  intro s₁ s
  have hplumbing : s.plumbing = h.voter.plumbing := by
    funext r
    exact VoterD.favour_proj Replica.plumbing (fun _ _ => rfl) ..
  have hother : ∀ r ≠ v, (VoterD.reinit c s v 0).replicas r = s.replicas r := fun r hr => by
    simp [VoterD.reinit, hr]
  have hsame : ∀ r, r < c.repCount ∧ r ≠ v →
      (VoterD.reinit c s v 0).plumbing r = h.voter.plumbing r := fun r hr => by
    rw [← hplumbing]
    exact congrArg Replica.plumbing (hother r hr.2)
  refine hj.congr (fun r hr => hr.1) ?_ (fun r hr => ⟨hsame r hr, ?_⟩) rfl rfl
  · refine (PlumbedAt.drop hj.plumbed hv fun fd => ?_).congr (fun _ => id) hsame
    have hheld : (s.replicas v).plumbing = h.voter.plumbing v := congrFun hplumbing v
    rw [VoterD.reinit_fds, mem_closePipes, hheld]
    simp only [s, s₁, cleanupReplica, mem_closePipes, VoterD.State.plumbing, and_assoc, and_self]
  · exact (congrArg Replica.repPipes (hother r hr.2)).trans
      (VoterD.favour_proj Replica.repPipes (fun _ _ => rfl) ..)

/-- **A slot is refilled.** -/
theorem Joined.refill (hj : Joined c (· < c.repCount) h ids) {u : ℕ} (hu : u < c.repCount)
    (hv : v < c.repCount) (huv : u ≠ v) (sched : ℕ → Bool) :
    Joined c (· < c.repCount) (h.refill c u v sched)
      (Function.update ids v fun p => h.next + p) := by
  have hdrop := hj.drop u hv sched
  dsimp only at hdrop
  have hcount := (hdrop.plumbed.wired u ⟨hu, huv⟩).count
  have hnew := hdrop.newPipes (v := v) (fun hlive => hlive.2 rfl)
    (by simp [VoterD.reinit, initReplica])
  rw [Host.refill]
  dsimp only
  rw [show ((VoterD.reinit c _ v 0).replicas u).pipeCount = c.pipeCount from hcount]
  have hlive : ∀ r, r < c.repCount → (r < c.repCount ∧ r ≠ v) ∨ r = v := fun r hr =>
    (eq_or_ne r v).symm.imp_left fun hrv => ⟨hr, hrv⟩
  exact hnew.congr hlive (hnew.plumbed.congr hlive fun _ _ => rfl) (fun _ _ => ⟨rfl, rfl⟩) rfl rfl

/-- **All slots are filled.** -/
theorem joined_fill (h0 : 0 ∈ h.voter.fds)
    (hext : ∀ p < c.pipeCount, (c.extPipes p).fdIn ∈ h.voter.fds)
    (hfree : ∀ r < c.repCount, ∀ p < c.pipeCount,
      ¬ (h.voter.plumbing r).Holds (c.extPipes p).fdIn) :
    ∃ ids, Joined c (· < c.repCount) (h.fill c) ids := by
  obtain ⟨reps, fds, heq, h0', hext', hreps⟩ := VoterD.loop_reinit h0 hext hfree
  rw [Host.fill, heq]
  refine (loop_induction (fun k (t : Host) => (∀ r, k ≤ r → t.voter.replicas r = reps r) ∧
    ∃ ids, Joined c (· < k) t ids) ⟨fun _ _ => rfl, fun _ _ => 0, ?_⟩ ?_).2
  · exact ⟨⟨h0', hext', by simp, by simp, by simp, by simp⟩, by simp, by simp, by simp, by simp⟩
  · rintro k hk t ⟨hrest, ids, ht⟩
    refine ⟨fun r hr => ?_, Function.update ids k fun p => t.next + p, ?_⟩
    · have hrk : r ≠ k := by omega
      exact (Function.update_of_ne hrk _ _).trans (hrest r (by omega))
    · have hempty : (t.voter.replicas k).pipeCount = 0 := by
        rw [hrest k le_rfl]
        exact (hreps k hk).1
      have hnew := ht.newPipes (lt_irrefl k) hempty
      have hlive : ∀ r, r < k + 1 → r < k ∨ r = k := fun r => Nat.lt_succ_iff_lt_or_eq.mp
      exact hnew.congr hlive (hnew.plumbed.congr hlive fun _ _ => rfl) (fun _ _ => ⟨rfl, rfl⟩)
        rfl rfl

end Joined

/-! ### The processes -/

/-- `close(fd)` in a process, behind a test that the descriptor is set. -/
def closeFd (fd : ℤ) (table : ℕ → Option End) : ℕ → Option End :=
  if fd ≠ 0 then Function.update table fd.toNat none else table

/-- The child in `restartHandler` behind `resetPipe` for all its pipes. -/
def restartHandler (proc : Process End) : Process End :=
  { proc with
    stage := .connecting
    pipes := proc.pipes.map fun _ => ⟨.commError, 0, 0⟩
    table := proc.pipes.foldl
      (fun table pipe => closeFd pipe.fdOut (closeFd pipe.fdIn table)) proc.table }

/-- Slot `r` alone. -/
def slot (h : Host) (r : ℕ) : Slots where
  num := 1
  pipeCount := (h.voter.replicas r).pipeCount
  reps _ := h.voter.replicas r
  fds := h.voter.fds
  count _ _ := rfl

/-- `acceptSendFDS` for slot `r`, and `connectRecvFDS` of a process that is given the numbers
`fds`. -/
def serve (h : Host) (r : ℕ) (proc : Process End) (fds : List ℕ) : Option (Process End) :=
  (client 0 { proc with stage := .requesting [message (slot h r) h.ends 0] }
    (.receive 0 fds)).map fun proc => { proc with stage := .running [] }

structure System extends Host where
  /-- The process in each slot. -/
  procs : ℕ → Process End

/-- `startReplicas`, where the process of slot `r` is given the numbers `fds r`. -/
def startReplicas (c : Config) (h : Host) (fds : ℕ → List ℕ) : Option System :=
  let filled := h.fill c
  let fork := fun r => forked (slot filled r) filled.ends 0
  if ∀ r < c.repCount, (serve filled r (fork r) (fds r)).isSome then
    some { filled with
      voter := VoterD.startReplicas c h.voter
      procs := fun r => (serve filled r (fork r) (fds r)).getD (fork r) }
  else none

/-- The actions. -/
inductive Act
  /-- The process in slot `restarter` is forked into slot `restartee`. -/
  | restart (restarter restartee : ℕ) (sched : ℕ → ℕ → Bool) (fds : List ℕ)
  /-- The only replica is killed and started again. -/
  | coldRestart (fds : ℕ → List ℕ)

/-- The step function. -/
def step (c : Config) (s : System) : Act → Option System
  | .restart restarter restartee sched fds =>
    if restarter < c.repCount ∧ restartee < c.repCount ∧ restarter ≠ restartee then
      let filled := s.toHost.refill c restarter restartee (sched 1)
      (serve filled restartee (restartHandler (s.procs restarter)) fds).map fun proc =>
        { filled with
          voter := VoterD.restartReplica c s.voter restarter restartee sched
          procs := Function.update s.procs restartee proc }
    else none
  | .coldRestart fds =>
    if c.repType = .smr then
      startReplicas c { s.toHost with
        voter := { s.voter with fds := cleanupReplica (s.voter.replicas 0) s.voter.fds } } fds
    else none

/-! ### What the processes get -/

/-- Pipe `p` of a replica, under the number `fd`. -/
def replicaPipe (c : Config) (p fd : ℕ) : TypedPipe where
  type := commToEnum (cString (c.extPipes p).repInfo)
  fdIn := if (c.extPipes p).fdIn ≠ 0 then fd else 0
  fdOut := if (c.extPipes p).fdIn ≠ 0 then 0 else fd

/-- The pipes of the process are the pipes `ids` of the kernel. -/
def Gets (c : Config) (ids : ℕ → ℕ) (proc : Process End) : Prop :=
  ∀ p < c.pipeCount, ∃ fd ≠ 0, proc.pipes[p]? = some (replicaPipe c p fd) ∧
    proc.table fd = some ⟨ids p, (c.extPipes p).fdIn = 0⟩

/-- The external pipes have names of types. -/
def Named (c : Config) : Prop := ∀ p < c.pipeCount,
  messageT (commToEnum (cString (c.extPipes p).repInfo)) = cString (c.extPipes p).repInfo

instance (c : Config) : Decidable (Named c) := inferInstanceAs (Decidable (∀ p < c.pipeCount, _))

section Gets

variable {c : Config} {live : ℕ → Prop} {h : Host} {ids : ℕ → ℕ → ℕ} {r : ℕ}
  {proc proc' : Process End} {fds : List ℕ}

theorem sendable (hnamed : Named c) (hj : Joined c live h ids) (hr : live r) {p : ℕ}
    (hp : p < c.pipeCount) : Sendable ((h.voter.replicas r).repPipes p) := by
  have hjoins := hj.joins r hr p hp
  have hne := hjoins.rep_ne
  have hend := hjoins.oneEnd
  refine ⟨?_, by rw [hj.repInfo r hr p hp]; exact hnamed p hp⟩
  rw [repFd] at hne
  split_ifs at hne hend
  · exact .inl ⟨hne, hend⟩
  · exact .inr ⟨hend, hne⟩

theorem gets_of_serve (hnamed : Named c) (hj : Joined c live h ids) (hr : live r)
    (hproc : proc' ∈ serve h r proc fds) : Gets c (ids r) proc' := by
  rw [serve, Option.mem_def, Option.map_eq_some_iff] at hproc
  obtain ⟨got, hgot, rfl⟩ := hproc
  have hcount : (h.voter.replicas r).pipeCount = c.pipeCount := (hj.plumbed.wired r hr).count
  obtain ⟨-, hbelongs⟩ := FdServer.belongs_receive (c := slot h r) rfl
    (fun p hp => sendable hnamed hj hr (hcount ▸ hp)) hgot
  intro p hp
  have hjoins := hj.joins r hr p hp
  have hzero := hjoins.oneEnd
  obtain ⟨⟨type, fdIn, fdOut⟩, hpipe, htype, fd, hfd, hend⟩ :=
    hbelongs.pipes p (hcount.symm ▸ hp)
  have htype' : type = commToEnum (cString (c.extPipes p).repInfo) := by
    rw [← hj.repInfo r hr p hp]
    exact (commToEnum_messageT type).symm.trans (congrArg commToEnum htype)
  have hfields : fdIn = (if (c.extPipes p).fdIn ≠ 0 then (fd : ℤ) else 0) ∧
      fdOut = (if (c.extPipes p).fdIn ≠ 0 then 0 else (fd : ℤ)) ∧
      got.table fd = some (h.ends (repFd (c.extPipes p) (h.voter.plumbing r) p)) := by
    rw [repFd]
    split_ifs at hzero ⊢
    · exact (hend.resolve_right fun h => h.1 hzero).2
    · exact (hend.resolve_left fun h => h.1 hzero).2
  obtain ⟨rfl, rfl, htable⟩ := hfields
  exact ⟨fd, hfd, hpipe.trans (by rw [htype', replicaPipe]),
    htable.trans (congrArg some hjoins.rep)⟩

end Gets

/-! ### Runs -/

/-- What holds between the actions. -/
def Inv (c : Config) (s : System) : Prop :=
  ∃ ids, Joined c (· < c.repCount) s.toHost ids ∧
    (Named c → ∀ r < c.repCount, Gets c (ids r) (s.procs r))

section Runs

variable {c : Config} {s s' : System}

theorem replicas_startReplicas (c : Config) (h : Host) :
    (VoterD.startReplicas c h.voter).replicas = (h.fill c).voter.replicas := by
  have hvoter : (h.fill c).voter =
      loop (fun r s => VoterD.newPipes c s r c.pipeCount) c.repCount
        (loop (fun r s => VoterD.reinit c s r r) c.repCount h.voter) := by
    refine loop_induction (fun k (t : Host) => t.voter =
      loop (fun r s => VoterD.newPipes c s r c.pipeCount) k _) rfl fun k _ t ht => ?_
    rw [loop_succ, ← ht]
    rfl
  rw [VoterD.startReplicas, hvoter]
  refine loop_proj VoterD.State.replicas (fun _ _ => ?_) _ _
  rfl

/-- `balanceReps`, at the end of `restartReplica`, leaves the pipes as they are. -/
theorem pipes_restartReplica (c : Config) (h : Host) (u v : ℕ) (sched : ℕ → ℕ → Bool) (r : ℕ) :
    (VoterD.restartReplica c h.voter u v sched).plumbing r =
        (h.refill c u v (sched 1)).voter.plumbing r ∧
      ((VoterD.restartReplica c h.voter u v sched).replicas r).repPipes =
        ((h.refill c u v (sched 1)).voter.replicas r).repPipes := by
  have hreps : (VoterD.restartReplica c h.voter u v sched).replicas =
      balanceReps (h.refill c u v (sched 1)).voter.replicas c.repCount c.replicaPriority
        (sched 2) := rfl
  rw [VoterD.State.plumbing, hreps]
  exact ⟨balanceReps_proj Replica.plumbing (fun _ _ => rfl) ..,
    balanceReps_proj Replica.repPipes (fun _ _ => rfl) ..⟩

/-- **Start.** -/
theorem inv_startReplicas {h : Host} {fds : ℕ → List ℕ} (h0 : 0 ∈ h.voter.fds)
    (hext : ∀ p < c.pipeCount, (c.extPipes p).fdIn ∈ h.voter.fds)
    (hfree : ∀ r < c.repCount, ∀ p < c.pipeCount,
      ¬ (h.voter.plumbing r).Holds (c.extPipes p).fdIn)
    (hs : s ∈ startReplicas c h fds) : Inv c s := by
  rw [startReplicas, Option.mem_def, Option.ite_none_right_eq_some] at hs
  obtain ⟨hserved, hs⟩ := hs
  obtain rfl := Option.some.inj hs
  obtain ⟨ids, hj⟩ := joined_fill h0 hext hfree
  have hreps := replicas_startReplicas c h
  refine ⟨ids, hj.congr (fun _ => id) (VoterD.restarted_startReplicas h0 hext hfree).plumbed
    (fun r _ => ⟨?_, ?_⟩) rfl rfl, fun hnamed r hr => ?_⟩
  · simp only [VoterD.State.plumbing, hreps]
  · simp only [hreps]
  · obtain ⟨proc, hproc⟩ := Option.isSome_iff_exists.mp (hserved r hr)
    dsimp only at hproc ⊢
    rw [hproc, Option.getD_some]
    exact gets_of_serve hnamed hj hr hproc

/-- **A restart.** -/
theorem Inv.restart {u v : ℕ} {sched : ℕ → ℕ → Bool} {fds : List ℕ} (h : Inv c s)
    (hs : s' ∈ step c s (.restart u v sched fds)) : Inv c s' := by
  rw [step, Option.mem_def, Option.ite_none_right_eq_some] at hs
  obtain ⟨⟨hu, hv, huv⟩, hs⟩ := hs
  obtain ⟨proc, hproc, rfl⟩ := Option.map_eq_some_iff.mp hs
  obtain ⟨ids, hj, hgets⟩ := h
  have hnew := hj.refill hu hv huv (sched 1)
  have hplumbed := (VoterD.forked_restartReplica hj.plumbed hu hv huv sched).plumbed
  refine ⟨_, hnew.congr (fun _ => id) hplumbed
    (fun r _ => pipes_restartReplica c s.toHost u v sched r) rfl rfl, fun hnamed r hr => ?_⟩
  rcases eq_or_ne r v with rfl | hrv
  · have hserved := gets_of_serve hnamed hnew hr hproc
    simpa only [Function.update_self] using hserved
  · dsimp only
    rw [Function.update_of_ne hrv, Function.update_of_ne hrv]
    exact hgets hnamed r hr

theorem inv_step {a : Act} (h : Inv c s) (hs : s' ∈ step c s a) : Inv c s' := by
  cases a with
  | restart u v sched fds => exact h.restart hs
  | coldRestart fds =>
    rw [step, Option.mem_def, Option.ite_none_right_eq_some] at hs
    obtain ⟨hsmr, hs⟩ := hs
    obtain ⟨ids, hj, -⟩ := h
    have hcount : 0 < c.repCount := by
      rw [Config.repCount, hsmr]
      exact Nat.one_pos
    have hfds : ∀ fd, fd ∈ cleanupReplica (s.voter.replicas 0) s.voter.fds ↔
        fd ∈ s.voter.fds ∧ ¬ (s.voter.plumbing 0).Holds fd := fun fd => mem_closePipes
    refine inv_startReplicas ?_ (fun p hp => ?_) ?_ (Option.mem_def.mpr hs)
    · exact (hfds 0).mpr ⟨hj.plumbed.zero_open, fun hheld => hheld.1 rfl⟩
    · exact (hfds (c.extPipes p).fdIn).mpr
        ⟨hj.plumbed.ext_open p hp, hj.plumbed.ext_free 0 hcount p hp⟩
    · exact hj.plumbed.ext_free

/-! ### Wiring -/

/-- The end that the voter uses for pipe `p` of slot `r`. -/
def Host.voterEnd (c : Config) (h : Host) (r p : ℕ) : End :=
  h.ends (voterFd (c.extPipes p) (h.voter.plumbing r) p)

/-- The end that a process uses at index `p`. -/
def endAt (proc : Process End) (p : ℕ) : Option End :=
  proc.pipes[p]?.bind fun pipe =>
    proc.table (if pipe.fdIn ≠ 0 then pipe.fdIn else pipe.fdOut).toNat

def System.processEnd (s : System) (r p : ℕ) : Option End := endAt (s.procs r) p

/-- Voter and processes are connected as they should be. -/
structure Wired (c : Config) (s : System) : Prop where
  /-- What the voter writes or reads is read or written in the same slot at the same index, and
  nowhere else. -/
  meets : ∀ r < c.repCount, ∀ p < c.pipeCount, ∀ r' < c.repCount, ∀ p' < c.pipeCount,
    (s.processEnd r' p' = some (s.voterEnd c r p).other ↔ r' = r ∧ p' = p)
  writes : ∀ r < c.repCount, ∀ p < c.pipeCount,
    ((s.voterEnd c r p).writes = true ↔ (c.extPipes p).fdIn ≠ 0)
  /-- The pipes have the types and the directions of the external ones. -/
  pipes : ∀ r < c.repCount, ∀ p < c.pipeCount,
    ∃ fd ≠ 0, (s.procs r).pipes[p]? = some (replicaPipe c p fd)

theorem Inv.wired (h : Inv c s) (hnamed : Named c) : Wired c s := by
  obtain ⟨ids, hj, hgets⟩ := h
  replace hgets := hgets hnamed
  have hvoter : ∀ r < c.repCount, ∀ p < c.pipeCount,
      s.voterEnd c r p = ⟨ids r p, (c.extPipes p).fdIn ≠ 0⟩ := fun r hr p hp =>
    (hj.joins r hr p hp).voter
  have hprocess : ∀ r < c.repCount, ∀ p < c.pipeCount,
      s.processEnd r p = some ⟨ids r p, (c.extPipes p).fdIn = 0⟩ := by
    intro r hr p hp
    obtain ⟨fd, hfd, hpipe, htable⟩ := hgets r hr p hp
    rw [System.processEnd, endAt, hpipe, Option.bind_some, replicaPipe]
    by_cases hext : (c.extPipes p).fdIn ≠ 0
    · simpa [hext, hfd] using htable
    · simpa [hext] using htable
  refine ⟨fun r hr p hp r' hr' p' hp' => ?_, fun r hr p hp => ?_, fun r hr p hp => ?_⟩
  · rw [hvoter r hr p hp, hprocess r' hr' p' hp', End.other]
    constructor
    · intro heq
      exact hj.injective r' r p' p hr' hr hp' hp (congrArg End.pipe (Option.some.inj heq))
    · rintro ⟨rfl, rfl⟩
      simp
  · rw [hvoter r hr p hp]
    exact decide_eq_true_iff
  · obtain ⟨fd, hfd, hpipe, -⟩ := hgets r hr p hp
    exact ⟨fd, hfd, hpipe⟩

/-- **The replicas stay connected.** Started with 0 and the external pipes open and names of types,
in every sequence of restarts, whichever slot is filled from which and whatever numbers the kernel
gives: the process in each slot is connected to the voter's pipes of the slot, each at its index. -/
theorem stays_wired {h : Host} {fds : ℕ → List ℕ} (hnamed : Named c) (h0 : 0 ∈ h.voter.fds)
    (hext : ∀ p < c.pipeCount, (c.extPipes p).fdIn ∈ h.voter.fds)
    (hfree : ∀ r < c.repCount, ∀ p < c.pipeCount,
      ¬ (h.voter.plumbing r).Holds (c.extPipes p).fdIn)
    (hs : s ∈ startReplicas c h fds) (hreach : Reaches (step c) (fun _ _ => True) s s') :
    Wired c s' := by
  have hinv : Inv c s' := hreach.invariant (inv_startReplicas h0 hext hfree hs)
    fun _ _ _ h _ ht => inv_step h ht
  exact hinv.wired hnamed

end Runs

/-- A voter over a pipe in and a pipe out. -/
def rangerConfig : Config := ⟨500, .tmr, 2, FdServer.rangerPipes, fun _ => 0, fun _ => 1, 25⟩

/-- It has just been started. -/
def rangerHost : Host where
  voter := {
    point := .update
    timerStarted := false
    currentTimer := 0
    watchdog := 0
    replicas := fun _ => ⟨0, 0, 0, fun _ => ⟨"", 0, 0, false, 0, 0, fun _ => 0⟩, fun _ => 0,
      fun _ => ⟨"", 0, 0, false, 0, 0, fun _ => 0⟩⟩
    extData := fun _ => []
    fds := [0, 1, 2, 3, 4]
    queue := fun _ _ => []
    extIn := fun _ => []
    extOut := fun _ => []
    now := 0
    procs := fun _ => ⟨false, fun _ => []⟩
    log := [] }
  ends fd := ⟨fd, false⟩
  next := 5

/-- Its replicas are started. -/
def rangerSystem : System :=
  (startReplicas rangerConfig rangerHost fun _ => [20, 21]).get (by decide +kernel)

/-- Slot 2 is filled from slot 0, and slot 0 from that. -/
def rangerRestarted : System :=
  follow (step rangerConfig)
    [.restart 0 2 (fun _ _ => true) [20, 21], .restart 2 0 (fun _ _ => true) [30, 31]] rangerSystem

theorem reaches_rangerRestarted :
    Reaches (step rangerConfig) (fun _ _ => True) rangerSystem rangerRestarted :=
  reaches_follow (allSteps_true _ _) (by decide +kernel)

theorem rangerHost_free : ∀ r < rangerConfig.repCount, ∀ p < rangerConfig.pipeCount,
    ¬ (rangerHost.voter.plumbing r).Holds (rangerConfig.extPipes p).fdIn := by
  rintro r - p - ⟨-, i, hi, -⟩
  exact Nat.not_lt_zero i hi

theorem stays_wired_twoRestarts : Wired rangerConfig rangerRestarted :=
  stays_wired (by decide +kernel) (by decide) (by decide) rangerHost_free (Option.get_mem _)
    reaches_rangerRestarted

end S3RES.Rewiring
