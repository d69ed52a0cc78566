import S3RES.Foundations.Recorder
import S3RES.VoterM.Machine
import S3RES.VoterM.Voting

/-!
# Where the output comes from

Buffers and counts belong to a slot, not to a process. A `History` follows which process runs
in which slot and records every read, kill and call of `sendData`, with what was written.
`Performs` is what one action of the voter does to a state in these terms; both builds of the
program perform nothing else, and what follows here holds of any system that does.

`provenance` says of every such system: each call of `sendData` writes exactly what was last
read in its round, if and only if the counts of the pipes that were not read before the first
call were 0 at start-up; and nothing a killed process wrote is sent behind the kill, if and only
if output of a lone replica that was restarted is read again wherever that of its predecessor
was read.
-/

namespace S3RES.VoterM

open Loop Memory StepSystem

variable {c : Config} {s t : State} {u p r f k : ℕ}

/-- The memory of the process before `initVoterM`: the globals are zero, and the replicas are
what `malloc` gave. -/
def bootFrom (memory : ℕ → ReplicaR) : State := { boot with replicas := memory }

/-! ### Histories -/

/-- What is recorded of a run. -/
inductive Record
  /-- `bytes` were read from process `pid`, on out pipe `p` of slot `r`. -/
  | read (r p pid : ℕ) (bytes : List UInt8)
  /-- Process `pid` was killed. -/
  | killed (pid : ℕ)
  /-- `sendData(u)` wrote `written p` to external out pipe `p`. -/
  | sent (u : ℕ) (written : ℕ → List UInt8)

/-- The processes in the slots, the first process number that is free, and the records, latest
first. -/
structure History where
  pid : ℕ → ℕ
  next : ℕ
  records : List Record

/-- One process in each slot. -/
def History.start (c : Config) : History := ⟨fun r => r, c.repCount, []⟩

/-- What the voter does to the outputs and the processes. -/
inductive Op
  /-- Out pipe `p` of slot `r` is read. -/
  | read (r p : ℕ)
  /-- The process of slot `f` is killed and another one started. -/
  | replace (f : ℕ)
  /-- `sendData(u)`. -/
  | send (u : ℕ)

/-- Record an operation of an action that starts in state `s`. -/
def History.note (s : State) (h : History) : Op → History
  | .read r p =>
    { h with records := .read r p (h.pid r) ((s.outQueue r p).take maxPipeBuff) :: h.records }
  | .replace f => ⟨Function.update h.pid f h.next, h.next + 1, .killed (h.pid f) :: h.records⟩
  | .send u => { h with records := .sent u (s.held u) :: h.records }

/-- The process and the bytes of the last read of out pipe `p` of slot `u`, if there was one
since the last call of `sendData`. -/
def lastRead (u p : ℕ) : List Record → Option (ℕ × List UInt8)
  | [] => none
  | .read r q pid bytes :: l => if r = u ∧ q = p then some (pid, bytes) else lastRead u p l
  | .killed _ :: l => lastRead u p l
  | .sent _ _ :: _ => none

/-- The process and the bytes of the last read of out pipe `p` of slot `u`. -/
def lastReadEver (u p : ℕ) : List Record → Option (ℕ × List UInt8)
  | [] => none
  | .read r q pid bytes :: l => if r = u ∧ q = p then some (pid, bytes) else lastReadEver u p l
  | .killed _ :: l | .sent _ _ :: l => lastReadEver u p l

/-- The first call of `sendData`: the slot, and the records before it. -/
def firstSent : List Record → Option (ℕ × List Record)
  | [] => none
  | .sent u _ :: l => some ((firstSent l).getD (u, l))
  | .read _ _ _ _ :: l | .killed _ :: l => firstSent l

/-- Out pipe `p` of slot `u` was read since the last call of `sendData`, but not since a kill. -/
def LeftOver (u p : ℕ) : List Record → Prop
  | [] => False
  | .read r q _ _ :: l => ¬ (r = u ∧ q = p) ∧ LeftOver u p l
  | .killed _ :: l => lastRead u p l ≠ none
  | .sent _ _ :: _ => False

/-- The bytes written to external out pipe `p`. -/
def writtenTo (p : ℕ) : List Record → List UInt8
  | [] => []
  | .sent _ written :: l => writtenTo p l ++ written p
  | .read _ _ _ _ :: l | .killed _ :: l => writtenTo p l

/-! ### Properties of histories -/

/-- Every call of `sendData` writes exactly the bytes of the last read in its round. -/
def Faithful (c : Config) : List Record → Prop
  | [] => True
  | .sent u written :: l => Faithful c l ∧
    ∀ p < c.outPipeCount, written p = ((lastRead u p l).map Prod.snd).getD []
  | .read _ _ _ _ :: l | .killed _ :: l => Faithful c l

/-- What a call of `sendData` writes was read from a process that was not killed before, or is
none of what was read. -/
def NoneFromKilled (c : Config) : List Record → Prop
  | [] => True
  | .sent u written :: l => NoneFromKilled c l ∧ ∀ p < c.outPipeCount,
    written p = [] ∨ lastReadEver u p l = none ∨
      ∃ pid, lastReadEver u p l = some (pid, written p) ∧ .killed pid ∉ l
  | .read _ _ _ _ :: l | .killed _ :: l => NoneFromKilled c l

/-- At every call of `sendData`, where output was read before a kill, output was read again. -/
def ReadAgain (c : Config) : List Record → Prop
  | [] => True
  | .sent u _ :: l => ReadAgain c l ∧ ∀ p < c.outPipeCount, ¬ LeftOver u p l
  | .read _ _ _ _ :: l | .killed _ :: l => ReadAgain c l

instance decidableLeftOver (u p : ℕ) : ∀ l : List Record, Decidable (LeftOver u p l)
  | [] => inferInstanceAs (Decidable False)
  | .read _ _ _ _ :: l =>
    have := decidableLeftOver u p l
    inferInstanceAs (Decidable (_ ∧ LeftOver u p l))
  | .killed _ :: l => inferInstanceAs (Decidable (lastRead u p l ≠ none))
  | .sent _ _ :: _ => inferInstanceAs (Decidable False)

instance decidableFaithful (c : Config) : ∀ l : List Record, Decidable (Faithful c l)
  | [] => inferInstanceAs (Decidable True)
  | .read _ _ _ _ :: l | .killed _ :: l => decidableFaithful c l
  | .sent _ written :: l =>
    have := decidableFaithful c l
    inferInstanceAs (Decidable (Faithful c l ∧ ∀ p < c.outPipeCount, written p = _))

instance decidableReadAgain (c : Config) : ∀ l : List Record, Decidable (ReadAgain c l)
  | [] => inferInstanceAs (Decidable True)
  | .read _ _ _ _ :: l | .killed _ :: l => decidableReadAgain c l
  | .sent u _ :: l =>
    have := decidableReadAgain c l
    inferInstanceAs (Decidable (ReadAgain c l ∧ ∀ p < c.outPipeCount, ¬ LeftOver u p l))

theorem lastReadEver_of_lastRead {x : ℕ × List UInt8} {l : List Record}
    (h : lastRead u p l = some x) : lastReadEver u p l = some x := by
  induction l with
  | nil => simp [lastRead] at h
  | cons e l ih =>
    cases e with
    | read r q pid bytes =>
      rw [lastRead] at h
      rw [lastReadEver]
      split
      · rwa [if_pos ‹_›] at h
      · rw [if_neg ‹_›] at h
        exact ih h
    | killed pid => exact ih h
    | sent u' w => simp [lastRead] at h

/-- As long as nothing was sent, the round has lasted from the start. -/
theorem lastReadEver_of_firstSent {l : List Record} (h : firstSent l = none) :
    lastReadEver u p l = lastRead u p l := by
  induction l with
  | nil => rfl
  | cons e l ih =>
    cases e with
    | read r q pid bytes => rw [lastReadEver, lastRead, ih h]
    | killed pid => exact ih h
    | sent u' w => simp [firstSent] at h

theorem LeftOver.lastRead_ne {l : List Record} (h : LeftOver u p l) : lastRead u p l ≠ none := by
  induction l with
  | nil => exact h.elim
  | cons e l ih =>
    cases e with
    | read r q pid bytes =>
      rw [lastRead, if_neg h.1]
      exact ih h.2
    | killed pid => exact h
    | sent u' w => exact h.elim

/-! ### What an action does -/

/-- An action performs the given operations. The two flags say whether a lone replica was
restarted and has not answered yet, before and after. -/
inductive Performs (c : Config) : Bool → State → List Op → Bool → State → Prop
  | quiet {b : Bool} {s t : State} (hheld : ∀ r < c.repCount, ∀ p < c.outPipeCount,
      t.held r p = s.held r p) (hout : ∀ p < c.outPipeCount, t.extOut p = s.extOut p) :
      Performs c b s [] b t
  | read {b : Bool} {s t : State} {r p : ℕ} (hr : r < c.repCount) (hp : p < c.outPipeCount)
      (hne : s.outQueue r p ≠ [])
      (hread : t.held r p = (s.outQueue r p).take maxPipeBuff)
      (hheld : ∀ r' < c.repCount, ∀ p' < c.outPipeCount, ¬ (r' = r ∧ p' = p) →
        t.held r' p' = s.held r' p') (hout : ∀ p < c.outPipeCount, t.extOut p = s.extOut p) :
      Performs c b s [.read r p] b t
  | send {b : Bool} {s t : State} {u : ℕ} (hu : u < c.repCount)
      (hheld : ∀ r < c.repCount, ∀ p < c.outPipeCount, t.held r p = [])
      (hout : ∀ p < c.outPipeCount, t.extOut p = s.extOut p ++ s.held u p) :
      Performs c b s [.send u] false t
  | replaceSend {s t : State} {f u : ℕ} (hf : f < c.repCount) (hu : u < c.repCount) (huf : u ≠ f)
      (hheld : ∀ r < c.repCount, ∀ p < c.outPipeCount, t.held r p = [])
      (hout : ∀ p < c.outPipeCount, t.extOut p = s.extOut p ++ s.held u p) :
      Performs c false s [.replace f, .send u] false t
  | replace {s t : State} {f : ℕ} (hone : c.repCount = 1) (hf : f < c.repCount)
      (hheld : ∀ r < c.repCount, ∀ p < c.outPipeCount, t.held r p = s.held r p)
      (hout : ∀ p < c.outPipeCount, t.extOut p = s.extOut p) :
      Performs c false s [.replace f] true t

/-- What a slot holds, by the records: what was last read, and before anything was sent what was
there from the start. -/
def heldOf (held₀ : ℕ → ℕ → List UInt8) (r p : ℕ) (l : List Record) : List UInt8 :=
  match lastRead r p l, firstSent l with
  | some x, _ => x.2
  | none, none => held₀ r p
  | none, some _ => []

/-- The history tells what the state holds. -/
structure Tracks (c : Config) (held₀ : ℕ → ℕ → List UInt8) (b : Bool) (s : State) (h : History) :
    Prop where
  out : ∀ p < c.outPipeCount, s.extOut p = writtenTo p h.records
  held : ∀ r < c.repCount, ∀ p < c.outPipeCount, s.held r p = heldOf held₀ r p h.records
  injective : ∀ r < c.repCount, ∀ r' < c.repCount, h.pid r = h.pid r' → r = r'
  pid_lt : ∀ r < c.repCount, h.pid r < h.next
  killed_lt : ∀ pid, .killed pid ∈ h.records → pid < h.next
  alive : ∀ r < c.repCount, .killed (h.pid r) ∉ h.records
  /-- What was read in the round is not empty, and its process is alive unless it is left over. -/
  source : ∀ r < c.repCount, ∀ p < c.outPipeCount, ∀ x, lastRead r p h.records = some x →
    x.2 ≠ [] ∧ (LeftOver r p h.records → .killed x.1 ∈ h.records) ∧
      (¬ LeftOver r p h.records → x.1 = h.pid r)
  lone : b = true → c.repCount = 1
  settled : b = false → ∀ r < c.repCount, ∀ p < c.outPipeCount, ¬ LeftOver r p h.records

section Steps

variable {held₀ : ℕ → ℕ → List UInt8} {b b' : Bool} {h : History} {ops : List Op} {l : List Record}

theorem Tracks.read {r p : ℕ} (htracks : Tracks c held₀ b s h)
    (hne : s.outQueue r p ≠ []) (hread : t.held r p = (s.outQueue r p).take maxPipeBuff)
    (hheld : ∀ r' < c.repCount, ∀ p' < c.outPipeCount, ¬ (r' = r ∧ p' = p) →
      t.held r' p' = s.held r' p') (hout : ∀ p < c.outPipeCount, t.extOut p = s.extOut p) :
    Tracks c held₀ b t (h.note s (.read r p)) := by
  have hlast : ∀ r' p', lastRead r' p' (h.note s (.read r p)).records =
      if r = r' ∧ p = p' then some (h.pid r, (s.outQueue r p).take maxPipeBuff)
      else lastRead r' p' h.records := fun _ _ => rfl
  have hleft : ∀ r' p', LeftOver r' p' (h.note s (.read r p)).records ↔
      ¬ (r = r' ∧ p = p') ∧ LeftOver r' p' h.records := fun _ _ => Iff.rfl
  have hkilled : ∀ pid, .killed pid ∈ (h.note s (.read r p)).records ↔ .killed pid ∈ h.records := by
    simp [History.note]
  have hbytes : (s.outQueue r p).take maxPipeBuff ≠ [] := by
    rw [Ne, List.take_eq_nil_iff, not_or]
    exact ⟨by decide, hne⟩
  refine ⟨fun q hq => (hout q hq).trans (htracks.out q hq), fun r' hr' p' hp' => ?_,
    htracks.injective, htracks.pid_lt,
    fun pid hpid => htracks.killed_lt pid ((hkilled pid).mp hpid),
    fun r' hr' hpid => htracks.alive r' hr' ((hkilled _).mp hpid), fun r' hr' p' hp' x hx => ?_,
    htracks.lone,
    fun hb r' hr' p' hp' hl => htracks.settled hb r' hr' p' hp' ((hleft r' p').mp hl).2⟩
  · rw [heldOf, hlast]
    by_cases hsame : r = r' ∧ p = p'
    · obtain ⟨rfl, rfl⟩ := hsame
      rw [if_pos ⟨rfl, rfl⟩, hread]
    · rw [if_neg hsame, hheld r' hr' p' hp' fun heq => hsame ⟨heq.1.symm, heq.2.symm⟩]
      exact htracks.held r' hr' p' hp'
  · rw [hlast] at hx
    rw [hleft, hkilled]
    by_cases hsame : r = r' ∧ p = p'
    · rw [if_pos hsame, Option.some.injEq] at hx
      subst hx
      refine ⟨hbytes, fun hl => absurd hsame hl.1, fun _ => ?_⟩
      exact congrArg h.pid hsame.1
    · rw [if_neg hsame] at hx
      obtain ⟨hx₀, hx₁, hx₂⟩ := htracks.source r' hr' p' hp' x hx
      exact ⟨hx₀, fun hl => hx₁ hl.2, fun hl => hx₂ fun hl' => hl ⟨hsame, hl'⟩⟩

/-- The process of a slot is replaced. -/
theorem Tracks.processes (htracks : Tracks c held₀ b s h) (hf : f < c.repCount) :
    (∀ r < c.repCount, ∀ r' < c.repCount, (h.note s (.replace f)).pid r =
      (h.note s (.replace f)).pid r' → r = r') ∧
    (∀ r < c.repCount, (h.note s (.replace f)).pid r < h.next + 1) ∧
    (∀ pid, .killed pid ∈ (h.note s (.replace f)).records → pid < h.next + 1) ∧
    ∀ r < c.repCount,
      .killed ((h.note s (.replace f)).pid r) ∉ (h.note s (.replace f)).records := by
  have hpid : ∀ r, (h.note s (.replace f)).pid r = if r = f then h.next else h.pid r := by
    intro r
    rcases eq_or_ne r f with rfl | hrf
    · simp [History.note]
    · simp [History.note, hrf]
  have hkilled : ∀ pid, .killed pid ∈ (h.note s (.replace f)).records ↔
      pid = h.pid f ∨ .killed pid ∈ h.records := by
    simp [History.note]
  have hlt := htracks.pid_lt
  refine ⟨fun r hr r' hr' heq => ?_, fun r hr => ?_, fun pid hk => ?_, fun r hr hk => ?_⟩
  · rw [hpid, hpid] at heq
    have h₁ := hlt r hr
    have h₂ := hlt r' hr'
    split at heq <;> split at heq
    · omega
    · omega
    · omega
    · exact htracks.injective r hr r' hr' heq
  · rw [hpid]
    have h₁ := hlt r hr
    split <;> omega
  · have h₁ := hlt f hf
    rcases (hkilled pid).mp hk with rfl | hk
    · omega
    · exact (htracks.killed_lt pid hk).trans h.next.lt_succ_self
  · rw [hpid, hkilled] at hk
    have h₁ := hlt f hf
    split at hk
    · rcases hk with hk | hk
      · omega
      · exact (htracks.killed_lt _ hk).false
    · rename_i hrf
      rcases hk with hk | hk
      · exact hrf (htracks.injective r hr f hf hk)
      · exact htracks.alive r hr hk

/-- Output is sent, possibly behind a kill. -/
theorem Tracks.send {h' : History} (htracks : Tracks c held₀ b s h)
    (hpids : (∀ r < c.repCount, ∀ r' < c.repCount, h'.pid r = h'.pid r' → r = r') ∧
      (∀ r < c.repCount, h'.pid r < h'.next) ∧ (∀ pid, .killed pid ∈ h'.records → pid < h'.next) ∧
      ∀ r < c.repCount, .killed (h'.pid r) ∉ h'.records)
    (hwritten : ∀ p, writtenTo p h'.records = writtenTo p h.records)
    (hheld : ∀ r < c.repCount, ∀ p < c.outPipeCount, t.held r p = [])
    (hout : ∀ p < c.outPipeCount, t.extOut p = s.extOut p ++ s.held u p) :
    Tracks c held₀ false t (h'.note s (.send u)) := by
  obtain ⟨hinj, hlt, hkilled, halive⟩ := hpids
  have hmem : ∀ pid, .killed pid ∈ (h'.note s (.send u)).records ↔ .killed pid ∈ h'.records := by
    simp [History.note]
  refine ⟨fun p hp => ?_, hheld, hinj, hlt, fun pid hpid => hkilled pid ((hmem pid).mp hpid),
    fun r hr hpid => halive r hr ((hmem _).mp hpid), fun r _ p _ x hx => ?_,
    fun hb => absurd hb (by decide), fun _ r _ p _ => id⟩
  · have hnote : writtenTo p (h'.note s (.send u)).records = writtenTo p h'.records ++ s.held u p :=
      rfl
    rw [hnote, hwritten, hout p hp, htracks.out p hp]
  · exact absurd hx (by simp [History.note, lastRead])

/-- A lone replica is restarted: what is held of the old process is left over. -/
theorem Tracks.replace (htracks : Tracks c held₀ false s h) (hone : c.repCount = 1)
    (hf : f < c.repCount)
    (hheld : ∀ r < c.repCount, ∀ p < c.outPipeCount, t.held r p = s.held r p)
    (hout : ∀ p < c.outPipeCount, t.extOut p = s.extOut p) :
    Tracks c held₀ true t (h.note s (.replace f)) := by
  obtain ⟨hinj, hlt, hkilled, halive⟩ := htracks.processes (s := s) hf
  refine ⟨fun p hp => (hout p hp).trans (htracks.out p hp),
    fun r hr p hp => (hheld r hr p hp).trans (htracks.held r hr p hp), hinj, hlt, hkilled, halive,
    fun r hr p hp x hx => ?_, fun _ => hone, fun hb => absurd hb (by decide)⟩
  have hlast : lastRead r p h.records = some x := hx
  obtain ⟨hne, -, hpid⟩ := htracks.source r hr p hp x hlast
  have hsource := hpid (htracks.settled rfl r hr p hp)
  obtain rfl : r = f := by omega
  refine ⟨hne, fun _ => ?_, fun hl => ?_⟩
  · rw [hsource]
    exact List.mem_cons_self
  · have hleft : LeftOver r p (h.note s (.replace r)).records := by
      change lastRead r p h.records ≠ none
      simp [hlast]
    exact absurd hleft hl

/-- **One action.** -/
theorem Tracks.performs (htracks : Tracks c held₀ b s h) (hperforms : Performs c b s ops b' t) :
    Tracks c held₀ b' t (ops.foldl (History.note s) h) := by
  cases hperforms with
  | quiet hheld hout =>
    exact ⟨fun p hp => (hout p hp).trans (htracks.out p hp),
      fun r hr p hp => (hheld r hr p hp).trans (htracks.held r hr p hp), htracks.injective,
      htracks.pid_lt, htracks.killed_lt, htracks.alive, htracks.source, htracks.lone,
      htracks.settled⟩
  | read _ _ hne hread hheld hout => exact htracks.read hne hread hheld hout
  | send _ hheld hout =>
    exact htracks.send ⟨htracks.injective, htracks.pid_lt, htracks.killed_lt, htracks.alive⟩
      (fun _ => rfl) hheld hout
  | replaceSend hf _ _ hheld hout =>
    exact htracks.send (htracks.processes (s := s) hf) (fun _ => rfl) hheld hout
  | replace hone hf hheld hout => exact htracks.replace hone hf hheld hout

/-! ### Faithful sending -/

/-- The pipes of the first sender that were not read before held nothing at start-up. -/
def FirstRound (c : Config) (held₀ : ℕ → ℕ → List UInt8) (l : List Record) : Prop :=
  ∀ u before, firstSent l = some (u, before) → ∀ p < c.outPipeCount,
    lastRead u p before = none → held₀ u p = []

theorem faithful_sent_iff {w : ℕ → List UInt8}
    (hw : ∀ p < c.outPipeCount, w p = heldOf held₀ u p l)
    (hiff : Faithful c l ↔ FirstRound c held₀ l) :
    Faithful c (.sent u w :: l) ↔ FirstRound c held₀ (.sent u w :: l) := by
  have hfirst : firstSent (.sent u w :: l) = some ((firstSent l).getD (u, l)) := rfl
  rw [Faithful, hiff]
  cases hl : firstSent l with
  | none =>
    -- this is the first call
    have hvacuous : FirstRound c held₀ l := fun u' before h' => by simp [hl] at h'
    have hsent : FirstRound c held₀ (.sent u w :: l) ↔
        ∀ p < c.outPipeCount, lastRead u p l = none → held₀ u p = [] := by
      constructor
      · exact fun h' => h' u l (by rw [hfirst, hl]; rfl)
      · rintro h' u' before heq
        rw [hfirst, hl, Option.getD_none, Option.some.injEq, Prod.mk.injEq] at heq
        obtain ⟨rfl, rfl⟩ := heq
        exact h'
    rw [hsent, and_iff_right hvacuous]
    refine forall₂_congr fun p hp => ?_
    rw [hw p hp, heldOf, hl]
    cases lastRead u p l with
    | none => simp
    | some x => simp
  | some y =>
    have hsame : FirstRound c held₀ (.sent u w :: l) ↔ FirstRound c held₀ l := by
      simp only [FirstRound, hfirst, hl, Option.getD_some]
    rw [hsame, and_iff_left]
    intro p hp
    rw [hw p hp, heldOf, hl]
    cases lastRead u p l with
    | none => rfl
    | some x => rfl

theorem faithful_performs (htracks : Tracks c held₀ b s h) (hperforms : Performs c b s ops b' t)
    (hiff : Faithful c h.records ↔ FirstRound c held₀ h.records) :
    Faithful c (ops.foldl (History.note s) h).records ↔
      FirstRound c held₀ (ops.foldl (History.note s) h).records := by
  cases hperforms with
  | quiet => exact hiff
  | read => exact hiff
  | send hu => exact faithful_sent_iff (htracks.held _ hu) hiff
  | replaceSend _ hu => exact faithful_sent_iff (htracks.held _ hu) hiff
  | replace => exact hiff

/-! ### Output of killed processes -/

/-- What is sent is judged by whether it is left over. -/
theorem noneFromKilled_sent_iff (hu : u < c.repCount) (htracks : Tracks c held₀ b s h)
    {l : List Record} (hl : ∀ p, lastRead u p l = lastRead u p h.records ∧
      heldOf held₀ u p l = heldOf held₀ u p h.records)
    (hkilled : ∀ p < c.outPipeCount, ∀ x, lastRead u p l = some x →
      (.killed x.1 ∈ l ↔ LeftOver u p h.records)) (hp : p < c.outPipeCount) :
    (s.held u p = [] ∨ lastReadEver u p l = none ∨
      ∃ pid, lastReadEver u p l = some (pid, s.held u p) ∧ .killed pid ∉ l) ↔
    ¬ LeftOver u p h.records := by
  have hheld : s.held u p = heldOf held₀ u p l := (htracks.held u hu p hp).trans (hl p).2.symm
  cases hlast : lastRead u p l with
  | none =>
    have hnot : ¬ LeftOver u p h.records := fun h' => h'.lastRead_ne ((hl p).1 ▸ hlast)
    refine ⟨fun _ => hnot, fun _ => ?_⟩
    cases hfirst : firstSent l with
    | none => exact .inr (.inl ((lastReadEver_of_firstSent hfirst).trans hlast))
    | some y =>
      refine .inl ?_
      rw [hheld, heldOf, hlast, hfirst]
  | some x =>
    have hbytes : s.held u p = x.2 := by rw [hheld, heldOf, hlast]
    have hne := (htracks.source u hu p hp x ((hl p).1 ▸ hlast)).1
    rw [← hkilled p hp x hlast, hbytes, lastReadEver_of_lastRead hlast]
    constructor
    · rintro (hnil | hnone | ⟨pid, heq, hpid⟩)
      · exact absurd hnil hne
      · simp at hnone
      · rw [Option.some.injEq] at heq
        rwa [heq]
    · exact fun hpid => .inr (.inr ⟨x.1, rfl, hpid⟩)

theorem noneFromKilled_performs (htracks : Tracks c held₀ b s h)
    (hperforms : Performs c b s ops b' t)
    (hiff : NoneFromKilled c h.records ↔ (c.repCount = 1 → ReadAgain c h.records)) :
    NoneFromKilled c (ops.foldl (History.note s) h).records ↔
      (c.repCount = 1 → ReadAgain c (ops.foldl (History.note s) h).records) := by
  have hsource : ∀ u < c.repCount, ∀ p < c.outPipeCount, ∀ x, lastRead u p h.records = some x →
      (.killed x.1 ∈ h.records ↔ LeftOver u p h.records) := by
    intro u hu p hp x hx
    obtain ⟨-, hleft, hnot⟩ := htracks.source u hu p hp x hx
    refine ⟨fun hk => ?_, hleft⟩
    by_contra hl
    exact htracks.alive u hu (hnot hl ▸ hk)
  cases hperforms with
  | quiet => exact hiff
  | read => exact hiff
  | @send _ _ _ u hu =>
    have hclause := fun p (hp : p < c.outPipeCount) => noneFromKilled_sent_iff hu htracks
      (l := h.records) (fun _ => ⟨rfl, rfl⟩) (hsource u hu) hp
    change (NoneFromKilled c h.records ∧ ∀ p < c.outPipeCount, _) ↔
      (c.repCount = 1 → ReadAgain c h.records ∧ ∀ p < c.outPipeCount, ¬ LeftOver u p h.records)
    rw [hiff, forall₂_congr hclause]
    cases b with
    | true =>
      have hone := htracks.lone rfl
      exact ⟨fun h' _ => ⟨h'.1 hone, h'.2⟩, fun h' => ⟨fun _ => (h' hone).1, (h' hone).2⟩⟩
    | false =>
      have hsettled := htracks.settled rfl u hu
      exact ⟨fun h' hone => ⟨h'.1 hone, hsettled⟩, fun h' => ⟨fun hone => (h' hone).1, hsettled⟩⟩
  | @replaceSend _ _ f u hf hu huf =>
    -- two slots: the process that is killed is not the sender's
    have hone : c.repCount ≠ 1 := by omega
    have hpid : h.pid u ≠ h.pid f := fun heq => huf (htracks.injective u hu f hf heq)
    have hclause := fun p (hp : p < c.outPipeCount) => noneFromKilled_sent_iff hu htracks
      (l := .killed (h.pid f) :: h.records) (fun _ => ⟨rfl, rfl⟩) (fun p hp x hx => by
        have hx' : lastRead u p h.records = some x := hx
        have hpid' := (htracks.source u hu p hp x hx').2.2 (htracks.settled rfl u hu p hp)
        rw [← hsource u hu p hp x hx', List.mem_cons, or_iff_right]
        rw [hpid']
        exact fun heq => hpid (Record.killed.inj heq)) hp
    change (NoneFromKilled c h.records ∧ ∀ p < c.outPipeCount,
      (s.held u p = [] ∨ lastReadEver u p (.killed (h.pid f) :: h.records) = none ∨
        ∃ pid, lastReadEver u p (.killed (h.pid f) :: h.records) = some (pid, s.held u p) ∧
          .killed pid ∉ .killed (h.pid f) :: h.records)) ↔ _
    rw [hiff, forall₂_congr hclause]
    exact ⟨fun _ hone' => absurd hone' hone,
      fun _ => ⟨fun hone' => absurd hone' hone, htracks.settled rfl u hu⟩⟩
  | replace => exact hiff

end Steps

/-! ### Runs -/

/-- **Every system whose actions perform operations.** What the recorded history says of a run:
what was written, when it was what was read, and when it came from a killed process. -/
theorem provenance {σ : Type*} {step : σ → Act → Option σ} {toState : σ → State}
    {ops : σ → Act → List Op} {lone : σ → Bool} {Sound : σ → Prop} {m₀ m : σ} {h : History}
    (hstep : ∀ m a m', Sound m → m' ∈ step m a →
      Sound m' ∧ Performs c (lone m) (toState m) (ops m a) (lone m') (toState m'))
    (hsound : Sound m₀) (hlone : lone m₀ = false)
    (hout : ∀ p < c.outPipeCount, (toState m₀).extOut p = [])
    (hreach : Reaches (record step fun m a h => (ops m a).foldl (History.note (toState m)) h)
      (fun _ _ => True) (m₀, History.start c) (m, h)) :
    (∀ p < c.outPipeCount, (toState m).extOut p = writtenTo p h.records) ∧
      (Faithful c h.records ↔ FirstRound c (toState m₀).held h.records) ∧
      (NoneFromKilled c h.records ↔ (c.repCount = 1 → ReadAgain c h.records)) := by
  have hstart : Tracks c (toState m₀).held (lone m₀) (toState m₀) (History.start c) := by
    rw [hlone]
    exact ⟨hout, fun _ _ _ _ => rfl, fun _ _ _ _ heq => heq, fun _ hr => hr,
      fun _ hk => absurd hk List.not_mem_nil, fun _ _ => List.not_mem_nil,
      fun _ _ _ _ _ hx => absurd hx (by simp [History.start, lastRead]),
      fun hb => absurd hb (by decide), fun _ _ _ _ _ => id⟩
  have hinv := hreach.invariant
    (I := fun x => Sound x.1 ∧ Tracks c (toState m₀).held (lone x.1) (toState x.1) x.2 ∧
      (Faithful c x.2.records ↔ FirstRound c (toState m₀).held x.2.records) ∧
      (NoneFromKilled c x.2.records ↔ (c.repCount = 1 → ReadAgain c x.2.records)))
    ⟨hsound, hstart, by simp [History.start, Faithful, FirstRound, firstSent],
      by simp [History.start, NoneFromKilled, ReadAgain]⟩ ?_
  · obtain ⟨-, htracks, hfaithful, hnone⟩ := hinv
    exact ⟨htracks.out, hfaithful, hnone⟩
  · rintro ⟨m, h⟩ a ⟨m', h'⟩ ⟨hsound, htracks, hfaithful, hnone⟩ - hu
    obtain ⟨hu, rfl⟩ := mem_record.mp hu
    obtain ⟨hsound', hperforms⟩ := hstep m a m' hsound hu
    exact ⟨hsound', htracks.performs hperforms, faithful_performs htracks hperforms hfaithful,
      noneFromKilled_performs htracks hperforms hnone⟩

end S3RES.VoterM
