import S3RES.VoterM.Machine
import S3RES.VoterM.Voting

/-!
# What checkSDC finds, and whose output is sent

`checkSDC` goes over the out pipes, twice in TMR, and keeps one `fault_index`: the replica
that differs on the last pipe with a difference (`verdict_of_three`). `checkSDC_diagnoses`: a
fault is found exactly if there is a difference, and a single deviating replica is the one
that is killed. `majority_sent_iff`: what is sent is a majority on every pipe exactly if the
replica before the blamed one deviates nowhere.
-/

namespace S3RES.VoterM

open Loop Memory

variable {c : Config} {s t : State} {f p q r : ℕ}

/-! ### The replica that differs -/

/-- The replica `checkTmr` blames. -/
def blame (differ : ℕ → ℕ → Bool) : Option ℕ :=
  if differ 0 1 then if differ 0 2 then some 0 else some 1
  else if differ 0 2 then some 2
  else none

theorem checkTmr_eq (differ : ℕ → ℕ → Bool) (v : Verdict) :
    checkTmr differ v = ((blame differ).map (Verdict.mk true)).getD v := by
  rw [checkTmr, blame]
  split_ifs <;> rfl

section Blame

variable {β : Type*} [DecidableEq β] {X : ℕ → β}

/-- Nobody is blamed exactly if all agree. -/
theorem blame_eq_none_iff :
    blame (fun a b => decide (X a ≠ X b)) = none ↔ ∀ r < 3, X r = X 0 := by
  constructor
  · intro h
    have h1 : X 1 = X 0 := by
      by_contra hne
      simp only [blame, decide_eq_true_eq, if_pos (Ne.symm hne)] at h
      split at h <;> simp at h
    have h2 : X 2 = X 0 := by
      by_contra hne
      simp [blame, h1, Ne.symm hne] at h
    intro r hr
    obtain rfl | rfl | rfl : r = 0 ∨ r = 1 ∨ r = 2 := by omega
    · rfl
    · exact h1
    · exact h2
  · intro h
    simp [blame, h 1 (by omega), h 2 (by omega)]

/-- Where two of three agree, it is the third that is blamed. -/
theorem deviates_of_blame (h : blame (fun a b => decide (X a ≠ X b)) = some f)
    (htwo : ∃ a < 3, ∃ b < 3, a ≠ b ∧ X a = X b) : f < 3 ∧ ∀ r < 3, r ≠ f → X r ≠ X f := by
  obtain ⟨a, ha, b, hb, hab, heq⟩ := htwo
  -- the two that agree, in order
  have hpair : X 0 = X 1 ∨ X 0 = X 2 ∨ X 1 = X 2 := by
    obtain rfl | rfl | rfl : a = 0 ∨ a = 1 ∨ a = 2 := by omega
    all_goals obtain rfl | rfl | rfl : b = 0 ∨ b = 1 ∨ b = 2 := by omega
    all_goals simp_all
  simp only [blame, decide_eq_true_eq, ne_eq, ite_not] at h
  have hcases : (X 0 = X 1 ∧ X 0 ≠ X 2 ∧ f = 2) ∨ (X 0 = X 2 ∧ X 0 ≠ X 1 ∧ f = 1) ∨
      (X 0 ≠ X 1 ∧ X 0 ≠ X 2 ∧ f = 0) := by
    split_ifs at h <;> simp_all
  rcases hcases with ⟨h1, h2, rfl⟩ | ⟨h1, h2, rfl⟩ | ⟨h1, h2, rfl⟩
  · refine ⟨by omega, fun r hr hne => ?_⟩
    obtain rfl | rfl : r = 0 ∨ r = 1 := by omega
    · exact h2
    · exact h1 ▸ h2
  · refine ⟨by omega, fun r hr hne => ?_⟩
    obtain rfl | rfl : r = 0 ∨ r = 2 := by omega
    · exact h2
    · exact h1 ▸ h2
  · refine ⟨by omega, fun r hr hne => ?_⟩
    obtain rfl | rfl : r = 1 ∨ r = 2 := by omega
    · exact Ne.symm h1
    · exact Ne.symm h2

end Blame

/-! ### The pipe that decides -/

/-- The counts agree on pipe `p`. -/
def CountsAgree (s : State) (p : ℕ) : Prop :=
  ∀ r < 3, (s.replicas r).buffCounts p = (s.replicas 0).buffCounts p

/-- What is held agrees on pipe `p`. -/
def HeldAgree (s : State) (p : ℕ) : Prop := ∀ r < 3, s.held r p = s.held 0 p

/-- The last pipe with different counts, or, where there is none, the last with different
contents. -/
def Decides (c : Config) (s : State) (q : ℕ) : Prop :=
  q < c.outPipeCount ∧
    ((¬ CountsAgree s q ∧ ∀ p < c.outPipeCount, q < p → CountsAgree s p) ∨
      ((∀ p < c.outPipeCount, CountsAgree s p) ∧ ¬ HeldAgree s q ∧
        ∀ p < c.outPipeCount, q < p → HeldAgree s p))

/-- Replica `f` differs from both others on pipe `p`. -/
def Deviates (s : State) (p f : ℕ) : Prop := ∀ r < 3, r ≠ f → s.held r p ≠ s.held f p

instance (s : State) (p : ℕ) : Decidable (CountsAgree s p) :=
  inferInstanceAs (Decidable (∀ r < 3, _))

instance (s : State) (p : ℕ) : Decidable (HeldAgree s p) :=
  inferInstanceAs (Decidable (∀ r < 3, _))

instance (c : Config) (s : State) (q : ℕ) : Decidable (Decides c s q) :=
  inferInstanceAs (Decidable (q < c.outPipeCount ∧ _))

instance (s : State) (p f : ℕ) : Decidable (Deviates s p f) :=
  inferInstanceAs (Decidable (∀ r < 3, _))

/-- At least two of three hold `bytes` on pipe `p`. -/
def TwoHold (s : State) (p : ℕ) (bytes : List UInt8) : Prop :=
  ∃ a < 3, ∃ b < 3, a ≠ b ∧ s.held a p = bytes ∧ s.held b p = bytes

instance (s : State) (p : ℕ) (bytes : List UInt8) : Decidable (TwoHold s p bytes) :=
  inferInstanceAs (Decidable (∃ a < 3, ∃ b < 3, _))

theorem length_held (s : State) (r p : ℕ) :
    (s.held r p).length = (s.replicas r).buffCounts p := by
  rw [State.held, length_block]

/-- Where the counts agree, the contents are compared as a whole. -/
theorem contentsDiffer_of_count (h : (s.replicas r).buffCounts p = (s.replicas 0).buffCounts p) :
    contentsDiffer s p 0 r = decide (s.held 0 p ≠ s.held r p) := by
  rw [contentsDiffer_eq, block_eq_held rfl,
    block_eq_held ((length_held s r p).trans (h.trans (length_held s 0 p).symm))]

theorem HeldAgree.countsAgree (h : HeldAgree s p) : CountsAgree s p := by
  intro r hr
  rw [← length_held, ← length_held, h r hr]

theorem Decides.unique (hp : Decides c s p) (hq : Decides c s q) : p = q := by
  obtain ⟨hpn, ⟨hp, hafterp⟩ | ⟨hpall, hp, hafterp⟩⟩ := hp
  all_goals obtain ⟨hqn, ⟨hq, hafterq⟩ | ⟨hqall, hq, hafterq⟩⟩ := hq
  · exact le_antisymm (not_lt.mp fun h => hp (hafterq p hpn h))
      (not_lt.mp fun h => hq (hafterp q hqn h))
  · exact absurd (hqall p hpn) hp
  · exact absurd (hpall q hqn) hq
  · exact le_antisymm (not_lt.mp fun h => hp (hafterq p hpn h))
      (not_lt.mp fun h => hq (hafterp q hqn h))

/-- Where two agree, the others' deviation is one's own business. -/
theorem Deviates.unique {f' : ℕ} {bytes : List UInt8} (htwo : TwoHold s p bytes)
    (h : Deviates s p f) (h' : Deviates s p f') (hf : f < 3) (hf' : f' < 3) : f = f' := by
  by_contra hne
  obtain ⟨a, ha, b, hb, hab, hheld, hheld'⟩ := htwo
  have heq : s.held a p = s.held b p := hheld.trans hheld'.symm
  -- one of the two that agree is the one or the other
  have hnot : ∀ g, Deviates s p g → a ≠ g ∧ b ≠ g := by
    intro g hg
    refine ⟨fun hag => ?_, fun hbg => ?_⟩
    · subst hag
      exact hg b hb (Ne.symm hab) heq.symm
    · subst hbg
      exact hg a ha hab heq
  have hf₁ := hnot f h
  have hf₂ := hnot f' h'
  omega

/-- A replica holds a majority exactly if it does not deviate. -/
theorem twoHold_held_iff (hf : f < 3) :
    TwoHold s p (s.held f p) ↔ ¬ Deviates s p f := by
  constructor
  · rintro ⟨a, ha, b, hb, hab, hheld, hheld'⟩ hdev
    rcases eq_or_ne a f with rfl | haf
    · exact hdev b hb (Ne.symm hab) hheld'
    · exact hdev a ha haf hheld
  · intro hdev
    simp only [Deviates, not_forall, not_not] at hdev
    obtain ⟨r, hr, hrf, hheld⟩ := hdev
    exact ⟨r, hr, f, hf, hrf, hheld, rfl⟩

/-! ### The verdict -/

theorem verdict_three (hthree : c.repCount = 3) : verdict c s =
    if (loop (fun p => checkTmr (countsDiffer s p)) c.outPipeCount ⟨false, s.faultIndex⟩).fault
    then loop (fun p => checkTmr (countsDiffer s p)) c.outPipeCount ⟨false, s.faultIndex⟩
    else loop (fun p => checkTmr (contentsDiffer s p)) c.outPipeCount
      (loop (fun p => checkTmr (countsDiffer s p)) c.outPipeCount ⟨false, s.faultIndex⟩) := by
  simp only [verdict, hthree]

/-- **The verdict in TMR.** Nobody is blamed where all agree. Otherwise the pipe that decides
has the replica to blame, by its count or by its contents. -/
theorem verdict_of_three (hthree : c.repCount = 3) :
    ((∀ p < c.outPipeCount, HeldAgree s p) ∧ verdict c s = ⟨false, s.faultIndex⟩) ∨
      ∃ q f, Decides c s q ∧ verdict c s = ⟨true, f⟩ ∧
        (blame (fun a b => decide ((s.replicas a).buffCounts q ≠ (s.replicas b).buffCounts q)) =
            some f ∨ blame (fun a b => decide (s.held a q ≠ s.held b q)) = some f) := by
  have hset : ∀ (differ : ℕ → ℕ → ℕ → Bool) p v, checkTmr (differ p) v =
      ((fun p => (blame (differ p)).map (Verdict.mk true)) p).getD v :=
    fun differ p v => checkTmr_eq (differ p) v
  have hcounts : ∀ p, blame (countsDiffer s p) = none ↔ CountsAgree s p := fun p =>
    blame_eq_none_iff (X := fun r => (s.replicas r).buffCounts p)
  rcases loop_last (hset (countsDiffer s)) c.outPipeCount ⟨false, s.faultIndex⟩ with
    ⟨hnone, hloop⟩ | ⟨q, hq, hafter, hblame⟩
  · -- all counts agree: the contents decide
    have hagree : ∀ p < c.outPipeCount, CountsAgree s p := fun p hp =>
      (hcounts p).mp (by simpa using hnone p hp)
    have hdiffer : ∀ p < c.outPipeCount, blame (contentsDiffer s p) =
        blame fun a b => decide (s.held a p ≠ s.held b p) := by
      intro p hp
      rw [blame, blame, contentsDiffer_of_count (hagree p hp 1 (by omega)),
        contentsDiffer_of_count (hagree p hp 2 (by omega))]
    have hheld : ∀ p < c.outPipeCount, (blame (contentsDiffer s p) = none ↔ HeldAgree s p) := by
      intro p hp
      rw [hdiffer p hp]
      exact blame_eq_none_iff (X := fun r => s.held r p)
    rw [verdict_three hthree, hloop, if_neg (by simp)]
    rcases loop_last (hset (contentsDiffer s)) c.outPipeCount ⟨false, s.faultIndex⟩ with
      ⟨hnone', hloop'⟩ | ⟨q, hq, hafter, hblame⟩
    · exact .inl ⟨fun p hp => (hheld p hp).mp (by simpa using hnone' p hp), hloop'⟩
    · obtain ⟨f, hf, hv⟩ := Option.map_eq_some_iff.mp hblame
      refine .inr ⟨q, f, ⟨hq, .inr ⟨hagree, fun hsame => ?_, fun p hp hqp => ?_⟩⟩, hv.symm, .inr ?_⟩
      · rw [(hheld q hq).mpr hsame] at hf
        exact absurd hf (by simp)
      · exact (hheld p hp).mp (by simpa using hafter p hp hqp)
      · rw [← hdiffer q hq]
        exact hf
  · obtain ⟨f, hf, hv⟩ := Option.map_eq_some_iff.mp hblame
    rw [verdict_three hthree, ← hv, if_pos rfl]
    refine .inr ⟨q, f, ⟨hq, .inl ⟨fun hsame => ?_, fun p hp hqp => ?_⟩⟩, rfl, .inl hf⟩
    · rw [(hcounts q).mpr hsame] at hf
      exact absurd hf (by simp)
    · exact (hcounts p).mp (by simpa using hafter p hp hqp)

/-- Where two of three agree on the deciding pipe, the third is blamed. -/
theorem verdict_of_decides (hthree : c.repCount = 3) (hdecides : Decides c s q)
    {bytes : List UInt8} (htwo : TwoHold s q bytes) :
    ∃ f < 3, Deviates s q f ∧ verdict c s = ⟨true, f⟩ := by
  rcases verdict_of_three (s := s) hthree with ⟨hall, -⟩ | ⟨q', f, hdecides', hverdict, hblame⟩
  · -- nothing decides where all agree
    obtain ⟨hq, ⟨hnot, -⟩ | ⟨-, hnot, -⟩⟩ := hdecides
    · exact absurd (hall q hq).countsAgree hnot
    · exact absurd (hall q hq) hnot
  · obtain rfl := hdecides'.unique hdecides
    obtain ⟨a, ha, b, hb, hab, hheld, hheld'⟩ := htwo
    have heq : s.held a q' = s.held b q' := hheld.trans hheld'.symm
    rcases hblame with hblame | hblame
    · obtain ⟨hf, hdev⟩ := deviates_of_blame (X := fun r => (s.replicas r).buffCounts q') hblame
        ⟨a, ha, b, hb, hab, by rw [← length_held, ← length_held, heq]⟩
      refine ⟨f, hf, fun r hr hne hsame => hdev r hr hne ?_, hverdict⟩
      rw [← length_held, ← length_held, hsame]
    · obtain ⟨hf, hdev⟩ := deviates_of_blame (X := fun r => s.held r q') hblame
        ⟨a, ha, b, hb, hab, heq⟩
      exact ⟨f, hf, hdev, hverdict⟩

/-! ### Detection -/

theorem verdict_two (htwo : c.repCount = 2) :
    verdict c s = loop (checkDmr s) c.outPipeCount ⟨false, s.faultIndex⟩ := by
  simp only [verdict, htwo]

/-- **The verdict in DMR.** -/
theorem fault_of_two (htwo : c.repCount = 2) :
    (verdict c s).fault = true ↔ ∃ p < c.outPipeCount, s.held 0 p ≠ s.held 1 p := by
  rw [verdict_two htwo]
  refine loop_induction (fun k (v : Verdict) => v.fault = true ↔ ∃ p < k, s.held 0 p ≠ s.held 1 p)
    (by simp) fun k _ v hv => ?_
  have hsucc : (∃ p < k + 1, s.held 0 p ≠ s.held 1 p) ↔
      (∃ p < k, s.held 0 p ≠ s.held 1 p) ∨ s.held 0 k ≠ s.held 1 k := by
    simp only [Nat.lt_succ_iff_lt_or_eq, or_and_right, exists_or, exists_eq_left]
  rw [hsucc, ← hv, checkDmr, countsDiffer_eq]
  by_cases hcount : (s.held 0 k).length = (s.held 1 k).length
  · have hsame : (s.replicas 1).buffCounts k = (s.replicas 0).buffCounts k := by
      rw [← length_held, ← length_held, hcount]
    rw [if_neg (by simpa using hcount), contentsDiffer_of_count hsame]
    by_cases hsame : s.held 0 k = s.held 1 k
    · simp [hsame]
    · simp [hsame]
  · have hne : s.held 0 k ≠ s.held 1 k := fun h => hcount (congrArg List.length h)
    rw [if_pos (by simpa using hcount)]
    split <;> simp [hne]

theorem fault_of_three (hthree : c.repCount = 3) :
    (verdict c s).fault = true ↔ ∃ p < c.outPipeCount, ¬ HeldAgree s p := by
  rcases verdict_of_three (s := s) hthree with ⟨hall, hverdict⟩ | ⟨q, f, hdecides, hverdict, -⟩
  · rw [hverdict]
    refine ⟨fun h => absurd h (by simp), fun ⟨p, hp, hnot⟩ => absurd (hall p hp) hnot⟩
  · rw [hverdict]
    refine ⟨fun _ => ⟨q, hdecides.1, fun hsame => ?_⟩, fun _ => rfl⟩
    obtain ⟨-, ⟨hnot, -⟩ | ⟨-, hnot, -⟩⟩ := hdecides
    · exact hnot hsame.countsAgree
    · exact hnot hsame

/-- The first pass finds nothing exactly if all counts agree. -/
theorem fault_countsDiffer (c : Config) (s : State) :
    (loop (fun p => checkTmr (countsDiffer s p)) c.outPipeCount ⟨false, s.faultIndex⟩).fault =
      false ↔ ∀ p < c.outPipeCount, CountsAgree s p := by
  have hcounts : ∀ p, blame (countsDiffer s p) = none ↔ CountsAgree s p := fun p =>
    blame_eq_none_iff (X := fun r => (s.replicas r).buffCounts p)
  rcases loop_last (fun p v => checkTmr_eq (countsDiffer s p) v) c.outPipeCount
    ⟨false, s.faultIndex⟩ with ⟨hnone, hloop⟩ | ⟨q, hq, -, hblame⟩
  · rw [hloop]
    exact ⟨fun _ p hp => (hcounts p).mp (by simpa using hnone p hp), fun _ => rfl⟩
  · obtain ⟨f, hf, hv⟩ := Option.map_eq_some_iff.mp hblame
    rw [← hv]
    refine ⟨fun h => absurd h (by simp), fun h => ?_⟩
    rw [(hcounts q).mpr (h q hq)] at hf
    exact absurd hf (by simp)

/-- The verdict depends on what is held, and on nothing behind the counts. -/
theorem verdict_congr (hheld : ∀ r < c.repCount, ∀ p < c.outPipeCount, t.held r p = s.held r p)
    (hindex : t.faultIndex = s.faultIndex) : verdict c t = verdict c s := by
  have hcount : ∀ r < c.repCount, ∀ p < c.outPipeCount,
      (t.replicas r).buffCounts p = (s.replicas r).buffCounts p := fun r hr p hp => by
    rw [← length_held, ← length_held, hheld r hr p hp]
  have hcounts : ∀ p < c.outPipeCount, ∀ a < c.repCount, ∀ b < c.repCount,
      countsDiffer t p a b = countsDiffer s p a b := fun p hp a ha b hb => by
    rw [countsDiffer, countsDiffer, hcount a ha p hp, hcount b hb p hp]
  -- the contents are compared where the counts are the same
  have hcontents : ∀ p < c.outPipeCount, ∀ r < c.repCount,
      (s.replicas r).buffCounts p = (s.replicas 0).buffCounts p →
        contentsDiffer t p 0 r = contentsDiffer s p 0 r := by
    intro p hp r hr hsame
    have hsame' : (t.replicas r).buffCounts p = (t.replicas 0).buffCounts p := by
      rw [hcount r hr p hp, hcount 0 (by omega) p hp, hsame]
    rw [contentsDiffer_of_count hsame, contentsDiffer_of_count hsame', hheld 0 (by omega) p hp,
      hheld r hr p hp]
  by_cases htwo : c.repCount = 2
  · rw [verdict_two htwo, verdict_two htwo, hindex]
    refine loop_congr (fun p hp v => ?_) _
    rw [checkDmr, checkDmr, hcounts p hp 0 (by omega) 1 (by omega), hcount 0 (by omega) p hp,
      hcount 1 (by omega) p hp]
    split
    · rfl
    · rename_i hsame
      have hcount' : (s.replicas 0).buffCounts p = (s.replicas 1).buffCounts p := by
        simpa [countsDiffer] using hsame
      rw [hcontents p hp 1 (by omega) hcount'.symm]
  · by_cases hthree : c.repCount = 3
    · have hfirst : loop (fun p => checkTmr (countsDiffer t p)) c.outPipeCount
          ⟨false, t.faultIndex⟩ = loop (fun p => checkTmr (countsDiffer s p)) c.outPipeCount
          ⟨false, s.faultIndex⟩ := by
        rw [hindex]
        refine loop_congr (fun p hp v => ?_) _
        rw [checkTmr, checkTmr, hcounts p hp 0 (by omega) 1 (by omega),
          hcounts p hp 0 (by omega) 2 (by omega)]
      rw [verdict_three hthree, verdict_three hthree, hfirst]
      split
      · rfl
      · rename_i hnofault
        have hagree := (fault_countsDiffer c s).mp (by simpa using hnofault)
        refine loop_congr (fun p hp v => ?_) _
        rw [checkTmr, checkTmr, hcontents p hp 1 (by omega) (hagree p hp 1 (by omega)),
          hcontents p hp 2 (by omega) (hagree p hp 2 (by omega))]
    · rw [verdict.eq_def, verdict.eq_def, hindex]
      split <;> simp_all

/-! ### A state to look at -/

/-- The pipes of ArtPot: the request of a waypoint is not timed. -/
def artPotArgs : List PipeArg :=
  [⟨"RANGE_POSE_DATA", 3, 0, 1⟩, ⟨"WAY_REQ", 0, 4, 0⟩, ⟨"WAY_RES", 5, 0, 0⟩, ⟨"MOV_CMD", 0, 6, 1⟩]

/-- ArtPot under VoterM. -/
def artPotConfig (type : String) : Config := parseArgs type 1200 30 artPotArgs

/-- The voter holds `h r p` of out pipe `p` of replica `r`. -/
def holding (h : ℕ → ℕ → List UInt8) : State :=
  { boot with
    replicas := fun r => ⟨26, fun p => (h r p).length, fun p => store (fun _ => 0) 0 (h r p)⟩ }

@[simp]
theorem held_holding (h : ℕ → ℕ → List UInt8) (r p : ℕ) : (holding h).held r p = h r p :=
  block_store (fun _ => 0) 0 (h r p)

/-! ### Detection and diagnosis -/

/-- **What `checkSDC` finds.** In DMR and TMR a fault is found exactly if on some out pipe the
replicas do not all hold the same, in SMR never. If one of three differs from two that agree
everywhere, it is the one that is killed. And nothing behind the counts matters. -/
theorem checkSDC_diagnoses (c : Config) (s : State) :
    (c.repCount = 2 ∨ c.repCount = 3 → ((checkSDC c s).1 = true ↔ ∃ p < c.outPipeCount,
      ∃ a < c.repCount, ∃ b < c.repCount, s.held a p ≠ s.held b p)) ∧
    (c.repCount = 1 → (checkSDC c s).1 = false) ∧
    (c.repCount = 3 → ∀ f < 3,
      (∀ a < 3, ∀ b < 3, a ≠ f → b ≠ f → ∀ p < c.outPipeCount, s.held a p = s.held b p) →
      (∃ p < c.outPipeCount, ∃ a < 3, a ≠ f ∧ s.held a p ≠ s.held f p) →
      checkSDC c s = (true, killAndClean { s with faultIndex := f } f)) ∧
    ∀ t : State, t.faultIndex = s.faultIndex →
      (∀ r < c.repCount, ∀ p < c.outPipeCount, t.held r p = s.held r p) →
      (checkSDC c t).1 = (checkSDC c s).1 ∧
        (checkSDC c t).2.faultIndex = (checkSDC c s).2.faultIndex ∧
        ∃ l, (checkSDC c t).2.log = l ++ t.log ∧ (checkSDC c s).2.log = l ++ s.log := by
  have hfirst : ∀ s, (checkSDC c s).1 = (verdict c s).fault := by
    intro s
    rw [checkSDC]
    cases (verdict c s).fault <;> rfl
  have hindex : ∀ s, (checkSDC c s).2.faultIndex = (verdict c s).faultIndex := by
    intro s
    rw [checkSDC]
    cases (verdict c s).fault <;> rfl
  have hlog : ∀ s, (checkSDC c s).2.log =
      (if (verdict c s).fault then [.killed (verdict c s).faultIndex] else []) ++ s.log := by
    intro s
    rw [checkSDC]
    cases (verdict c s).fault <;> rfl
  refine ⟨fun hcount => ?_, fun hone => ?_, fun hthree f hf hagree hdiffer => ?_,
    fun t ht hheld => ?_⟩
  · rw [hfirst]
    rcases hcount with htwo | hthree
    · rw [fault_of_two htwo, htwo]
      refine exists_congr fun p => and_congr_right fun _ => ?_
      constructor
      · intro h
        exact ⟨0, by omega, 1, by omega, h⟩
      · rintro ⟨a, ha, b, hb, hne⟩ hsame
        have hall : ∀ r < 2, s.held r p = s.held 0 p := by
          intro r hr
          obtain rfl | rfl : r = 0 ∨ r = 1 := by omega
          · rfl
          · exact hsame.symm
        exact hne ((hall a ha).trans (hall b hb).symm)
    · rw [fault_of_three hthree, hthree]
      refine exists_congr fun p => and_congr_right fun _ => ?_
      constructor
      · intro h
        simp only [HeldAgree, not_forall] at h
        obtain ⟨r, hr, hne⟩ := h
        exact ⟨r, hr, 0, by omega, hne⟩
      · rintro ⟨a, ha, b, hb, hne⟩ hsame
        exact hne ((hsame a ha).trans (hsame b hb).symm)
  · rw [hfirst]
    simp only [verdict, hone]
  · -- the pipe that decides blames the one that deviates, and there is one
    obtain ⟨p, hp, a, ha, haf, hne⟩ := hdiffer
    have htwo : ∀ q < c.outPipeCount, ∃ bytes, TwoHold s q bytes := by
      intro q hq
      exact ⟨s.held ((f + 1) % 3) q, (f + 1) % 3, by omega, (f + 2) % 3, by omega, by omega, rfl,
        hagree _ (by omega) _ (by omega) (by omega) (by omega) q hq⟩
    rcases verdict_of_three (s := s) hthree with ⟨hall, -⟩ | ⟨q, -, hdecides, -, -⟩
    · exact absurd ((hall p hp a ha).trans (hall p hp f hf).symm) hne
    · obtain ⟨bytes, hbytes⟩ := htwo q hdecides.1
      obtain ⟨f', hf', hdev, hverdict⟩ := verdict_of_decides hthree hdecides hbytes
      have hff' : f' = f := by
        by_contra hne'
        -- another would deviate from one that agrees with it
        obtain ⟨r, hr, hrf, hrf'⟩ : ∃ r < 3, r ≠ f ∧ r ≠ f' :=
          ⟨3 - f - f', by omega, by omega, by omega⟩
        exact hdev r hr hrf' (hagree r hr f' hf' hrf hne' q hdecides.1)
      rw [checkSDC, hverdict, hff']
      rfl
  · have hverdict := verdict_congr hheld ht
    refine ⟨?_, ?_, _, ?_, hlog s⟩
    · rw [hfirst, hfirst, hverdict]
    · rw [hindex, hindex, hverdict]
    · rw [hlog t, hverdict]

/-- Replica 2 has a wrong command. -/
def wrongCommand (r p : ℕ) : List UInt8 := if p = 1 then if r = 2 then [6] else [5] else [1]

theorem checkSDC_diagnoses_wrongCommand :
    (checkSDC (artPotConfig "TMR") (holding wrongCommand)).2.log = [.killed 2] := by
  obtain ⟨-, -, hthree, -⟩ := checkSDC_diagnoses (artPotConfig "TMR") (holding wrongCommand)
  have hagree : ∀ a < 3, ∀ b < 3, a ≠ 2 → b ≠ 2 → ∀ p < (artPotConfig "TMR").outPipeCount,
      (holding wrongCommand).held a p = (holding wrongCommand).held b p := by
    intro a _ b _ ha hb p _
    simp [wrongCommand, ha, hb]
  rw [hthree rfl 2 (by decide) hagree (by decide +kernel)]
  rfl

/-! ### Whose output is sent -/

/-- The slot whose output `vote` sends. -/
def voted (c : Config) (s : State) : ℕ :=
  if (verdict c s).fault then ((verdict c s).faultIndex + (c.repCount - 1)) % c.repCount else 0

theorem extOut_vote (c : Config) (s : State) (hp : p < c.outPipeCount) :
    (vote c s).extOut p = s.extOut p ++ s.held (voted c s) p := by
  rw [vote, checkSDC, voted]
  cases hfault : (verdict c s).fault with
  | true => exact ((sent_sendData c _ _).extOut p).trans (if_pos hp)
  | false => exact ((sent_sendData c _ _).extOut p).trans (if_pos hp)

/-- **TMR.** Where on every pipe two of three hold the same, what is sent is a majority on every
pipe if and only if the replica before the one that deviates on the deciding pipe deviates on
no pipe. -/
theorem majority_sent_iff (hthree : c.repCount = 3)
    (hmajority : ∀ p < c.outPipeCount, ∃ bytes, TwoHold s p bytes) :
    (∃ sent : ℕ → List UInt8, ∀ p < c.outPipeCount,
      (vote c s).extOut p = s.extOut p ++ sent p ∧ TwoHold s p (sent p)) ↔
    ∀ q f, Decides c s q → f < 3 → Deviates s q f →
      ∀ p < c.outPipeCount, ¬ Deviates s p ((f + 2) % 3) := by
  have hvoted : (∃ sent : ℕ → List UInt8, ∀ p < c.outPipeCount,
      (vote c s).extOut p = s.extOut p ++ sent p ∧ TwoHold s p (sent p)) ↔
      ∀ p < c.outPipeCount, TwoHold s p (s.held (voted c s) p) := by
    constructor
    · rintro ⟨sent, hsent⟩ p hp
      obtain ⟨hout, htwo⟩ := hsent p hp
      rw [extOut_vote c s hp] at hout
      rwa [List.append_cancel_left hout]
    · exact fun h => ⟨s.held (voted c s), fun p hp => ⟨extOut_vote c s hp, h p hp⟩⟩
  rw [hvoted]
  rcases verdict_of_three (s := s) hthree with ⟨hall, hverdict⟩ | ⟨q, -, hdecides, -, -⟩
  · -- nobody is blamed, as all agree
    have hzero : voted c s = 0 := by rw [voted, hverdict]; rfl
    rw [hzero]
    constructor
    · rintro - q f ⟨hq, ⟨hnot, -⟩ | ⟨-, hnot, -⟩⟩ -
      · exact absurd (hall q hq).countsAgree hnot
      · exact absurd (hall q hq) hnot
    · exact fun _ p hp => ⟨0, by omega, 1, by omega, by omega, rfl, hall p hp 1 (by omega)⟩
  · obtain ⟨bytes, hbytes⟩ := hmajority q hdecides.1
    obtain ⟨f, hf, hdev, hverdict⟩ := verdict_of_decides hthree hdecides hbytes
    have hslot : voted c s = (f + 2) % 3 := by rw [voted, hverdict, hthree]; rfl
    rw [hslot]
    have hiff : (∀ p < c.outPipeCount, TwoHold s p (s.held ((f + 2) % 3) p)) ↔
        ∀ p < c.outPipeCount, ¬ Deviates s p ((f + 2) % 3) :=
      forall₂_congr fun p hp => twoHold_held_iff (by omega)
    rw [hiff]
    constructor
    · intro h q' f' hdecides' hf' hdev'
      obtain rfl := hdecides'.unique hdecides
      obtain rfl := hdev'.unique hbytes hdev hf' hf
      exact h
    · exact fun h => h q f hdecides hf hdev

theorem majority_sent_wrongCommand : ∃ sent : ℕ → List UInt8, ∀ p < 2,
    (vote (artPotConfig "TMR") (holding wrongCommand)).extOut p = [] ++ sent p ∧
      TwoHold (holding wrongCommand) p (sent p) := by
  refine (majority_sent_iff (c := artPotConfig "TMR") rfl fun p hp => ?_).mpr ?_
  · exact ⟨_, (by decide +kernel : ∀ p < (artPotConfig "TMR").outPipeCount,
      TwoHold (holding wrongCommand) p ((holding wrongCommand).held 0 p)) p hp⟩
  · intro q f hdecides
    revert f
    exact (by decide +kernel : ∀ q < (artPotConfig "TMR").outPipeCount, _ → ∀ f < 3,
      Deviates (holding wrongCommand) q f → ∀ p < (artPotConfig "TMR").outPipeCount,
        ¬ Deviates (holding wrongCommand) p ((f + 2) % 3)) q hdecides.1 hdecides

/-- Replica 1 has a wrong request, and replica 2 a wrong command. -/
def wrongTwice (r p : ℕ) : List UInt8 :=
  if p = 1 then if r = 2 then [6] else [5] else if r = 1 then [2] else [1]

/-- Two deviate, on different pipes: the wrong request is sent. -/
theorem majority_not_sent : (artPotConfig "TMR").repCount = 3 ∧
    (∀ p < (artPotConfig "TMR").outPipeCount,
      TwoHold (holding wrongTwice) p ((holding wrongTwice).held 0 p)) ∧
    (vote (artPotConfig "TMR") (holding wrongTwice)).extOut 0 = [2] ∧
    ¬ TwoHold (holding wrongTwice) 0 [2] := by
  decide +kernel

/-! ### Whom a timeout is blamed on -/

/-- The number of out pipes other than `q` on which replica `r` has output. -/
def otherOutputs (c : Config) (s : State) (q r : ℕ) : ℕ :=
  ((List.range c.outPipeCount).filter fun p => p ≠ q ∧ s.held r p ≠ []).length

/-- The awaited pipe counts like any other. -/
theorem repScore_eq_otherOutputs (s : State) (r : ℕ) (hq : q < c.outPipeCount) :
    repScore c s r = otherOutputs c s q r + if s.held r q = [] then 0 else 1 := by
  have hcount : ∀ n, ((List.range n).filter fun p => s.held r p ≠ []).length =
      ((List.range n).filter fun p => p ≠ q ∧ s.held r p ≠ []).length +
        if q < n ∧ s.held r q ≠ [] then 1 else 0 := by
    intro n
    induction n with
    | zero => simp
    | succ n ih =>
      rw [List.range_succ, List.filter_append, List.filter_append, List.length_append,
        List.length_append, ih]
      rcases eq_or_ne n q with rfl | hne
      · by_cases hheld : s.held r n = [] <;> simp [hheld]
      · have hlt : q < n + 1 ↔ q < n := by omega
        by_cases hheld : s.held r n = []
        · simp [hheld, hlt]
        · simp only [hne, hheld, hlt, ne_eq, not_false_eq_true, and_self, decide_true,
            List.filter_cons_of_pos, List.filter_nil, List.length_singleton]
          omega
  rw [repScore_eq, hcount, otherOutputs]
  by_cases hheld : s.held r q = [] <;> simp [hheld, hq]

/-- The lowest score is found, at the first replica that has it. -/
theorem findFaultReplica_eq_iff (hf : f < c.repCount) (hlt : repScore c s f < c.outPipeCount) :
    (findFaultReplica c s).faultIndex = f ↔ ∀ r < c.repCount,
      (r < f → repScore c s f < repScore c s r) ∧ (f < r → repScore c s f ≤ repScore c s r) := by
  have hinv := loop_induction (n := c.repCount) (s := (0, c.outPipeCount))
    (f := fun r (lowest : ℕ × ℕ) =>
      if repScore c s r < lowest.2 then (r, repScore c s r) else lowest)
    (fun k lowest => (∀ r < k, lowest.2 ≤ repScore c s r) ∧
      (lowest.2 < c.outPipeCount → lowest.1 < k ∧ lowest.2 = repScore c s lowest.1 ∧
        ∀ r < lowest.1, lowest.2 < repScore c s r)) ?_ ?_
  · set lowest := loop (fun r (lowest : ℕ × ℕ) =>
      if repScore c s r < lowest.2 then (r, repScore c s r) else lowest) c.repCount
      (0, c.outPipeCount) with hlowest
    have hindex : (findFaultReplica c s).faultIndex = lowest.1 := rfl
    obtain ⟨hle, hfirst⟩ := hinv
    obtain ⟨hbound, hscore, hbelow⟩ := hfirst ((hle f hf).trans_lt hlt)
    rw [hindex]
    constructor
    · rintro rfl r hr
      rw [← hscore]
      exact ⟨hbelow r, fun _ => hle r hr⟩
    · intro h
      rcases lt_trichotomy lowest.1 f with hcase | hcase | hcase
      · have h₁ := (h _ hbound).1 hcase
        have h₂ := hle f hf
        omega
      · exact hcase
      · have h₁ := (h _ hbound).2 hcase
        have h₂ := hbelow f hcase
        omega
  · exact ⟨fun r hr => absurd hr r.not_lt_zero, fun h => absurd h (lt_irrefl _)⟩
  · rintro k _ lowest ⟨hle, hfirst⟩
    split
    · rename_i hlower
      refine ⟨fun r hr => ?_, fun _ => ⟨k.lt_succ_self, rfl, fun r hr => ?_⟩⟩
      · rcases Nat.lt_succ_iff_lt_or_eq.mp hr with hrk | rfl
        · exact hlower.le.trans (hle r hrk)
        · exact le_rfl
      · exact hlower.trans_le (hle r hr)
    · rename_i hnot
      refine ⟨fun r hr => ?_, fun h => ?_⟩
      · rcases Nat.lt_succ_iff_lt_or_eq.mp hr with hrk | rfl
        · exact hle r hrk
        · exact not_lt.mp hnot
      · obtain ⟨hbound, hrest⟩ := hfirst h
        exact ⟨hbound.trans k.lt_succ_self, hrest⟩

/-- **Timeouts.** Where replica `f` alone has nothing on the awaited pipe, it is found if and
only if no replica before it has output on fewer other pipes, and none after it on at least two
fewer. -/
theorem findFaultReplica_silent_iff (hq : c.timerStopIndex s.activePipeIndex < c.outPipeCount)
    (hf : f < c.repCount) (hsilent : s.held f (c.timerStopIndex s.activePipeIndex) = [])
    (hothers : ∀ r < c.repCount, r ≠ f → s.held r (c.timerStopIndex s.activePipeIndex) ≠ []) :
    (findFaultReplica c s).faultIndex = f ↔ ∀ r < c.repCount,
      (r < f → otherOutputs c s (c.timerStopIndex s.activePipeIndex) f ≤
        otherOutputs c s (c.timerStopIndex s.activePipeIndex) r) ∧
      (f < r → otherOutputs c s (c.timerStopIndex s.activePipeIndex) f ≤
        otherOutputs c s (c.timerStopIndex s.activePipeIndex) r + 1) := by
  set q := c.timerStopIndex s.activePipeIndex with hawaited
  have hscore : repScore c s f = otherOutputs c s q f := by
    rw [repScore_eq_otherOutputs s f hq, if_pos hsilent, Nat.add_zero]
  have hscores : ∀ r < c.repCount, r ≠ f → repScore c s r = otherOutputs c s q r + 1 := by
    intro r hr hne
    rw [repScore_eq_otherOutputs s r hq, if_neg (hothers r hr hne)]
  have hlt : repScore c s f < c.outPipeCount := by
    -- the awaited pipe itself does not count
    have hsub : otherOutputs c s q f < ((List.range c.outPipeCount)).length := by
      refine List.length_filter_lt_length_iff_exists.mpr ⟨q, List.mem_range.mpr hq, by simp⟩
    rw [hscore]
    simpa using hsub
  rw [findFaultReplica_eq_iff hf hlt]
  refine forall₂_congr fun r hr => and_congr (imp_congr_right fun hrf => ?_)
    (imp_congr_right fun hrf => ?_)
  · rw [hscore, hscores r hr hrf.ne, Nat.lt_succ_iff]
  · rw [hscore, hscores r hr hrf.ne']

/-- Replica 2 has sent no command. -/
def noCommand (r p : ℕ) : List UInt8 := if p = 1 ∧ r ≠ 2 then [5] else []

theorem findFaultReplica_noCommand :
    (findFaultReplica (artPotConfig "TMR") (holding noCommand)).faultIndex = 2 :=
  (findFaultReplica_silent_iff (c := artPotConfig "TMR") (f := 2) (by decide +kernel)
    (by decide +kernel) (by decide +kernel) (by decide +kernel)).mpr (by decide +kernel)

/-- Replica 1 has sent a request and no command. -/
def requestOnly (r p : ℕ) : List UInt8 :=
  if p = 1 then if r = 1 then [] else [5] else if r = 1 then [7] else []

/-- The request counts as much as the commands: replica 0 is found instead. -/
theorem findFaultReplica_requestOnly :
    (artPotConfig "TMR").timerStopIndex (holding requestOnly).activePipeIndex = 1 ∧
    (holding requestOnly).held 1 1 = [] ∧
    (∀ r < 3, r ≠ 1 → (holding requestOnly).held r 1 ≠ []) ∧
    (findFaultReplica (artPotConfig "TMR") (holding requestOnly)).faultIndex = 0 := by
  decide +kernel

end S3RES.VoterM
