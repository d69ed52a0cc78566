import S3RES.Voter.Replicas

/-!
# Whom `balanceReps` favours

`balanceReps` looks in one pass for the replica that lags most and for the next one, starting
from replicas 0 and 1. When it meets one that lags more than all before, the one that lagged most
so far is forgotten, and the second choice stays. `favours_iff` says when the two choices are the
right ones.
-/

namespace S3RES

open Loop

/-- Two replicas are raised, the one that lags most and the one that lags most of the others. -/
def Favours (reps reps' : ℕ → Replica) (num : ℕ) (defaultPriority : ℤ) : Prop :=
  ∃ first < num, ∃ second < num, first ≠ second ∧
    (reps' first).priority = defaultPriority + 2 ∧
    (reps' second).priority = defaultPriority + 1 ∧
    (∀ r < num, r ≠ first → r ≠ second → (reps' r).priority = defaultPriority) ∧
    (∀ r < num, repGap reps num r ≤ repGap reps num first) ∧
    ∀ r < num, r ≠ first → repGap reps num r ≤ repGap reps num second

instance (reps reps' : ℕ → Replica) (num : ℕ) (defaultPriority : ℤ) :
    Decidable (Favours reps reps' num defaultPriority) :=
  inferInstanceAs (Decidable (∃ first < num, ∃ second < num, _))

/-- The first replica that lags most is replica 0; or it is not replica 1, and a replica that lags
most of the others, and is not replica 0, is replica 1 or behind one that lags as much. -/
def OnePassFinds (reps : ℕ → Replica) (num : ℕ) : Prop :=
  ∃ first < num, (∀ r < num, repGap reps num r ≤ repGap reps num first) ∧
    (∀ r < first, repGap reps num r < repGap reps num first) ∧
    (first = 0 ∨ first ≠ 1 ∧ ∃ j < num, 0 < j ∧ j ≠ first ∧
      (∀ r < num, r ≠ first → repGap reps num r ≤ repGap reps num j) ∧
      (j = 1 ∨ ∃ i < j, repGap reps num j ≤ repGap reps num i))

instance (reps : ℕ → Replica) (num : ℕ) : Decidable (OnePassFinds reps num) :=
  inferInstanceAs (Decidable (∃ first < num, _))

variable {reps : ℕ → Replica} {num n : ℕ} {choice : ℕ × ℕ}

/-- What is known of the choices after the first `n` replicas. -/
structure Chosen (reps : ℕ → Replica) (num n : ℕ) (choice : ℕ × ℕ) : Prop where
  lt : choice.1 < max 1 n
  most : ∀ r < n, repGap reps num r ≤ repGap reps num choice.1
  first : ∀ r < choice.1, repGap reps num r < repGap reps num choice.1
  second : choice.2 = 1 ∨ repGap reps num 1 < repGap reps num choice.2 ∧ 1 < choice.2 ∧
    choice.2 < n ∧ ∃ i < choice.2, repGap reps num choice.2 ≤ repGap reps num i
  one : repGap reps num 1 ≤ repGap reps num choice.2
  passed : ∀ r < n, 1 < r → (∃ i < r, repGap reps num r ≤ repGap reps num i) →
    repGap reps num r ≤ repGap reps num choice.2

theorem chosen_balanceChoice (reps : ℕ → Replica) (num : ℕ) :
    Chosen reps num num (balanceChoice reps num) := by
  refine loop_induction (fun n choice => Chosen reps num n choice) ?_ ?_
  · exact ⟨Nat.zero_lt_one, fun r hr => absurd hr r.not_lt_zero,
      fun r hr => absurd hr r.not_lt_zero, .inl rfl, le_rfl, fun r hr => absurd hr r.not_lt_zero⟩
  · rintro n - ⟨a, b⟩ ⟨hlt, hmost, hfirst, hsecond, hone, hpassed⟩
    dsimp only at hlt hmost hfirst hsecond hone hpassed ⊢
    have hsplit : ∀ r < n + 1, r = n ∨ r < n := fun r hr => by omega
    split_ifs with hmore hnext hother
    · -- replica `n` lags more than all before: nobody before it lags as much
      refine ⟨lt_max_of_lt_right n.lt_succ_self, fun r hr => ?_, fun r hr => ?_, ?_, hone,
        fun r hr hr1 hpass => ?_⟩
      · rcases hsplit r hr with rfl | hr
        · exact le_rfl
        · exact ((hmost r hr).trans_lt hmore).le
      · exact (hmost r hr).trans_lt hmore
      · exact hsecond.imp_right fun h => ⟨h.1, h.2.1, h.2.2.1.trans n.lt_succ_self, h.2.2.2⟩
      · rcases hsplit r hr with rfl | hr
        · obtain ⟨i, hi, hle⟩ := hpass
          exact absurd (hle.trans (hmost i hi)) (not_le.mpr hmore)
        · exact hpassed r hr hr1 hpass
    · -- it lags more than the second choice, so it is neither replica 0 nor replica 1
      have hn : 1 < n := by
        have h0 : n ≠ 0 := fun h => hother (by omega)
        have h1 : n ≠ 1 := fun h => absurd hnext (not_lt.mpr (h ▸ hone))
        omega
      refine ⟨by omega, fun r hr => ?_, hfirst, .inr ⟨hone.trans_lt hnext, hn, n.lt_succ_self, a,
        by omega, not_lt.mp hmore⟩, (hone.trans_lt hnext).le, fun r hr hr1 hpass => ?_⟩
      · rcases hsplit r hr with rfl | hr
        · exact not_lt.mp hmore
        · exact hmost r hr
      · rcases hsplit r hr with rfl | hr
        · exact le_rfl
        · exact (hpassed r hr hr1 hpass).trans hnext.le
    · refine ⟨by omega, fun r hr => ?_, hfirst, ?_, hone, fun r hr hr1 hpass => ?_⟩
      · rcases hsplit r hr with rfl | hr
        · exact not_lt.mp hmore
        · exact hmost r hr
      · exact hsecond.imp_right fun h => ⟨h.1, h.2.1, h.2.2.1.trans n.lt_succ_self, h.2.2.2⟩
      · exact hpassed r (by omega) hr1 hpass
    · refine ⟨by omega, fun r hr => ?_, hfirst, ?_, hone, fun r hr hr1 hpass => ?_⟩
      · rcases hsplit r hr with rfl | hr
        · exact not_lt.mp hmore
        · exact hmost r hr
      · exact hsecond.imp_right fun h => ⟨h.1, h.2.1, h.2.2.1.trans n.lt_succ_self, h.2.2.2⟩
      · rcases hsplit r hr with rfl | hr
        · exact not_lt.mp hnext
        · exact hpassed r hr hr1 hpass

/-- The priorities when all calls of `sched_set_policy` succeed. -/
theorem priority_balanceReps (hnum : 2 ≤ num) (defaultPriority : ℤ) {r : ℕ} (hr : r < num) :
    (balanceReps reps num defaultPriority (fun _ => true) r).priority =
      if r = (balanceChoice reps num).1 then defaultPriority + 2
      else if r = (balanceChoice reps num).2 then defaultPriority + 1
      else defaultPriority := by
  simp only [balanceReps, if_neg (not_lt.mpr hnum), if_true]
  refine loop_induction (fun n (t : ℕ → Replica) => ∀ r < n, (t r).priority =
    if r = (balanceChoice reps num).1 then defaultPriority + 2
    else if r = (balanceChoice reps num).2 then defaultPriority + 1
    else defaultPriority) (fun r hr => absurd hr r.not_lt_zero) (fun n _ t ht r hr => ?_) r hr
  rcases Nat.lt_succ_iff_lt_or_eq.mp hr with hlt | rfl
  · rw [Function.update_of_ne hlt.ne]
    exact ht r hlt
  · rw [Function.update_self]

/-- Who is raised by how much can be read off the priorities. -/
theorem raised_iff {a b r : ℕ} (d : ℤ) :
    ((if r = a then d + 2 else if r = b then d + 1 else d) = d + 2 ↔ r = a) ∧
      ((if r = a then d + 2 else if r = b then d + 1 else d) = d + 1 ↔ r ≠ a ∧ r = b) := by
  constructor
  · split_ifs <;> omega
  · split_ifs <;> omega

/-- **Balancing.** With two replicas or more, and all calls of `sched_set_policy` succeeding, the
two that `balanceReps` raises are the one that lags most and the one that lags most of the others,
if and only if the one pass finds them. -/
theorem favours_iff (hnum : 2 ≤ num) (reps : ℕ → Replica) (defaultPriority : ℤ) :
    Favours reps (balanceReps reps num defaultPriority fun _ => true) num defaultPriority ↔
      OnePassFinds reps num := by
  have hchosen := chosen_balanceChoice reps num
  have hpriority : ∀ r < num, (balanceReps reps num defaultPriority (fun _ => true) r).priority =
      if r = (balanceChoice reps num).1 then defaultPriority + 2
      else if r = (balanceChoice reps num).2 then defaultPriority + 1
      else defaultPriority := fun r hr => priority_balanceReps hnum defaultPriority hr
  obtain ⟨hlt, hmost, hfirst, hsecond, hone, hpassed⟩ := hchosen
  generalize (balanceChoice reps num).1 = a at *
  generalize (balanceChoice reps num).2 = b at *
  have ha : a < num := by omega
  have hb : b < num := by omega
  constructor
  · rintro ⟨first, hf, second, hs, hne, hprioF, hprioS, -, -, hnext⟩
    rw [hpriority first hf] at hprioF
    rw [hpriority second hs] at hprioS
    have hfa : first = a := (raised_iff defaultPriority).1.mp hprioF
    obtain ⟨hsa, hsb⟩ : second ≠ a ∧ second = b := (raised_iff defaultPriority).2.mp hprioS
    subst hfa hsb
    refine ⟨first, hf, hmost, hfirst, ?_⟩
    by_cases hzero : first = 0
    · exact .inl hzero
    · refine .inr ⟨?_, second, hs, by omega, hsa, hnext,
        hsecond.imp_right fun h => h.2.2.2⟩
      -- a second choice behind replica 1 lags more than it
      rintro rfl
      rcases hsecond with rfl | ⟨hmore, -⟩
      · exact hsa rfl
      · exact absurd (hmost second hs) (not_le.mpr hmore)
  · rintro ⟨first, hf, hmost', hfirst', hcase⟩
    have hfa : first = a := by
      rcases lt_trichotomy first a with h | h | h
      · exact absurd (hmost' a ha) (not_le.mpr (hfirst first h))
      · exact h
      · exact absurd (hmost first hf) (not_le.mpr (hfirst' a h))
    subst hfa
    have hne : first ≠ b := by
      rcases hsecond with rfl | ⟨-, hb1, -, i, hi, hle⟩
      · rcases hcase with rfl | ⟨h1, -⟩
        · exact Nat.zero_ne_one
        · exact h1
      · rintro rfl
        exact absurd hle (not_le.mpr (hfirst i hi))
    refine ⟨first, hf, b, hb, hne, ?_, ?_, fun r hr hrf hrb => ?_, hmost, fun r hr hrf => ?_⟩
    · rw [hpriority first hf, if_pos rfl]
    · rw [hpriority b hb, if_neg hne.symm, if_pos rfl]
    · rw [hpriority r hr, if_neg hrf, if_neg hrb]
    · have hbehind : ∀ j < num, 0 < j → (j = 1 ∨ ∃ i < j, repGap reps num j ≤ repGap reps num i) →
          repGap reps num j ≤ repGap reps num b := by
        rintro j hj hpos (rfl | hpass)
        · exact hone
        · rcases eq_or_ne j 1 with rfl | hj1
          · exact hone
          · exact hpassed j hj (by omega) hpass
      rcases hcase with rfl | ⟨-, j, hj, hpos, -, hmostOther, hpass⟩
      · exact hbehind r hr (by omega) (.inr ⟨0, by omega, hmost r hr⟩)
      · exact (hmostOther r hr hrf).trans (hbehind j hj hpos hpass)

/-- Replicas with so many votes on one out pipe. -/
def withVotes (counts : ℕ → ℕ) (r : ℕ) : Replica where
  priority := 20
  pinnedCpu := r + 1
  pipeCount := 1
  votPipes _ := ⟨"MOV_CMD", 10 + r, 0, true, counts r, 0, fun _ => 0⟩
  voterRepInCopy _ := 0
  repPipes _ := ⟨"MOV_CMD", 0, 20 + r, false, 0, 0, fun _ => 0⟩

/-- The first replica lags most, the last one less. -/
theorem favours_firstLags : Favours (withVotes ([4, 9, 7].getD · 0))
    (balanceReps (withVotes ([4, 9, 7].getD · 0)) 3 20 fun _ => true) 3 20 :=
  (favours_iff (by decide) _ 20).mpr (by decide +kernel)

/-- The last of three lags most and the first one less, but the second, which does not lag, is
raised next; and if the second of two lags most, nobody is raised next. -/
theorem not_favours_lastLags :
    (let reps := withVotes ([7, 9, 4].getD · 0)
      let reps' := balanceReps reps 3 20 fun _ => true
      (List.range 3).map (repGap reps 3) = [2, 0, 5] ∧
        (List.range 3).map (fun r => (reps' r).priority) = [20, 21, 22] ∧
        ¬ Favours reps reps' 3 20) ∧
      let reps := withVotes ([5, 3].getD · 0)
      let reps' := balanceReps reps 2 20 fun _ => true
      (List.range 2).map (fun r => (reps' r).priority) = [20, 22] ∧ ¬ Favours reps reps' 2 20 := by
  decide +kernel

end S3RES
