import Mathlib

/-!
# Counted loops

`loop f n s` is the state after `for (i = 0; i < n; i++) s = f(i, s)`. Its rule is
`loop_induction`: a statement about `i` finished rounds that holds before the first and is
preserved by each holds after the last. `loop_last` is for loops whose rounds either set the state
or leave it, `loop_sum` for rounds that each add to a number.
-/

namespace Loop

variable {σ : Type*}

/-- The state after rounds `0, …, n - 1`. -/
def loop (f : ℕ → σ → σ) : ℕ → σ → σ
  | 0, s => s
  | n + 1, s => f n (loop f n s)

@[simp] theorem loop_zero (f : ℕ → σ → σ) (s : σ) : loop f 0 s = s := rfl

theorem loop_succ (f : ℕ → σ → σ) (n : ℕ) (s : σ) : loop f (n + 1) s = f n (loop f n s) := rfl

/-- **Loop rule.** -/
theorem loop_induction {f : ℕ → σ → σ} {n : ℕ} {s : σ} (P : ℕ → σ → Prop) (h₀ : P 0 s)
    (hstep : ∀ i < n, ∀ t, P i t → P (i + 1) (f i t)) : P n (loop f n s) := by
  induction n with
  | zero => exact h₀
  | succ n ih =>
    exact hstep n n.lt_succ_self _ (ih fun i hi => hstep i (hi.trans n.lt_succ_self))

/-- A projection that no round changes is not changed by the loop. -/
theorem loop_proj {β : Type*} {f : ℕ → σ → σ} (π : σ → β) (h : ∀ i s, π (f i s) = π s)
    (n : ℕ) (s : σ) : π (loop f n s) = π s :=
  loop_induction (fun _ t => π t = π s) rfl fun i _ t ht => (h i t).trans ht

/-- Where each round adds to a number what depends on the round only, the loop adds the sum. -/
theorem loop_sum {f : ℕ → σ → σ} {n : ℕ} {s : σ} (P : σ → Prop) (μ : σ → ℕ) (w : ℕ → ℕ) (h₀ : P s)
    (hstep : ∀ i < n, ∀ t, P t → P (f i t) ∧ μ (f i t) = μ t + w i) :
    P (loop f n s) ∧ μ (loop f n s) = μ s + ∑ i ∈ Finset.range n, w i := by
  refine loop_induction (fun k t => P t ∧ μ t = μ s + ∑ i ∈ Finset.range k, w i) ⟨h₀, rfl⟩ ?_
  rintro k hk t ⟨ht, hsum⟩
  obtain ⟨hnext, hadded⟩ := hstep k hk t ht
  exact ⟨hnext, by rw [hadded, hsum, Finset.sum_range_succ, add_assoc]⟩

/-- Where each round either sets the state or leaves it, the last that sets it decides. -/
theorem loop_last {f : ℕ → σ → σ} {g : ℕ → Option σ} (hf : ∀ p s, f p s = (g p).getD s) (n : ℕ)
    (s : σ) : ((∀ p < n, g p = none) ∧ loop f n s = s) ∨
      ∃ q < n, (∀ p < n, q < p → g p = none) ∧ g q = some (loop f n s) := by
  refine loop_induction (fun k t => ((∀ p < k, g p = none) ∧ t = s) ∨
    ∃ q < k, (∀ p < k, q < p → g p = none) ∧ g q = some t) (.inl ⟨by omega, rfl⟩) ?_
  intro k _ t ht
  rw [hf]
  cases hk : g k with
  | some w => exact .inr ⟨k, k.lt_succ_self, fun p hp hkp => by omega, hk⟩
  | none =>
    have hbelow : ∀ p < k + 1, p ≠ k → p < k := fun p hp hne => by omega
    rw [Option.getD_none]
    refine ht.imp (fun h => ⟨fun p hp => ?_, h.2⟩) fun ⟨q, hq, hafter, hset⟩ =>
      ⟨q, by omega, fun p hp hqp => ?_, hset⟩
    · rcases eq_or_ne p k with rfl | hne
      · exact hk
      · exact h.1 p (hbelow p hp hne)
    · rcases eq_or_ne p k with rfl | hne
      · exact hk
      · exact hafter p (hbelow p hp hne) hqp

/-- Loops over rounds that do the same are the same. -/
theorem loop_congr {f g : ℕ → σ → σ} {n : ℕ} (h : ∀ i < n, ∀ s, f i s = g i s) (s : σ) :
    loop f n s = loop g n s := by
  induction n with
  | zero => rfl
  | succ n ih =>
    rw [loop_succ, loop_succ, ih fun i hi => h i (hi.trans n.lt_succ_self), h n n.lt_succ_self]

end Loop
