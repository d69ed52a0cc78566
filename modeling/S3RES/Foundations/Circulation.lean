import Mathlib

/-!
# Numbers that go round

A party sends messages with a number, and the messages, or answers with their numbers, come back to
it. It goes on from the number that came back. On the way messages can be lost or be repeated, but
none overtakes another (`Move`).

`Ordered.moves`: then the numbers that are under way never go down, and there are at most two of
them, the next one and the one before, so that whoever sees them go by never misses one
(`Ordered.next_or_same`).
-/

namespace Circulation

/-- The numbers under way, the oldest first, and the one that the party sends next. -/
structure Ring where
  sent : List ℤ
  next : ℤ

/-- What happens to the numbers. -/
inductive Move : Ring → Ring → Prop
  | send {l : List ℤ} {n : ℤ} : Move ⟨l, n⟩ ⟨l ++ [n], n⟩
  | lose {l l' : List ℤ} {n : ℤ} (h : l'.Sublist l) : Move ⟨l, n⟩ ⟨l', n⟩
  | echo {l l' : List ℤ} {x n : ℤ} : Move ⟨l ++ x :: l', n⟩ ⟨l ++ x :: x :: l', n⟩
  | back {l : List ℤ} {x n : ℤ} : Move ⟨x :: l, n⟩ ⟨l, x + 1⟩

/-- Any number of moves. -/
abbrev Moves : Ring → Ring → Prop := Relation.ReflTransGen Move

variable {lo x y : ℤ} {l l' : List ℤ} {r r' : Ring}

/-- The numbers are in order, at most one behind the next, and none is below `lo`. -/
structure Ordered (lo : ℤ) (r : Ring) : Prop where
  sorted : r.sent.Pairwise (· ≤ ·)
  le_next : ∀ x ∈ r.sent, x ≤ r.next
  recent : ∀ x ∈ r.sent, r.next ≤ x + 1
  above : ∀ x ∈ r.sent, lo ≤ x
  above_next : lo ≤ r.next

theorem Ordered.move (h : Ordered lo r) (hmove : Move r r') : Ordered lo r' := by
  cases hmove with
  | @send l n =>
    have hall : ∀ {P : ℤ → Prop}, (∀ x ∈ l, P x) → P n → ∀ x ∈ l ++ [n], P x := fun hl hn =>
      List.forall_mem_append.mpr ⟨hl, List.forall_mem_singleton.mpr hn⟩
    refine ⟨List.pairwise_append.mpr ⟨h.sorted, List.pairwise_singleton _ _, fun x hx y hy => ?_⟩,
      hall h.le_next le_rfl, hall h.recent (by simp), hall h.above h.above_next, h.above_next⟩
    obtain rfl := List.mem_singleton.mp hy
    exact h.le_next x hx
  | lose hsub =>
    exact ⟨h.sorted.sublist hsub, fun x hx => h.le_next x (hsub.subset hx),
      fun x hx => h.recent x (hsub.subset hx), fun x hx => h.above x (hsub.subset hx),
      h.above_next⟩
  | @echo l l' x n =>
    have hmem : ∀ y ∈ l ++ x :: x :: l', y ∈ l ++ x :: l' := by simp
    refine ⟨?_, fun y hy => h.le_next y (hmem y hy), fun y hy => h.recent y (hmem y hy),
      fun y hy => h.above y (hmem y hy), h.above_next⟩
    obtain ⟨hl, hxl', hbefore⟩ := List.pairwise_append.mp h.sorted
    refine List.pairwise_append.mpr ⟨hl, List.pairwise_cons.mpr ⟨?_, hxl'⟩, fun y hy z hz => ?_⟩
    · exact List.forall_mem_cons.mpr ⟨le_rfl, (List.pairwise_cons.mp hxl').1⟩
    · exact hbefore y hy z (by simpa using hz)
  | @back l x n =>
    obtain ⟨hx, hl⟩ := List.pairwise_cons.mp h.sorted
    have hxn := h.le_next x List.mem_cons_self
    have hlo := h.above x List.mem_cons_self
    refine ⟨hl, fun y hy => ?_, fun y hy => ?_,
      fun y hy => h.above y (List.mem_cons_of_mem _ hy), by dsimp only; omega⟩
    · -- the oldest is at most one behind
      have hrecent := h.recent x List.mem_cons_self
      have hy' := h.le_next y (List.mem_cons_of_mem _ hy)
      dsimp only at hrecent hy' ⊢
      omega
    · have hxy := hx y hy
      dsimp only
      omega

/-- **The numbers stay in order.** -/
theorem Ordered.moves (h : Ordered lo r) (hmoves : Moves r r') : Ordered lo r' := by
  induction hmoves with
  | refl => exact h
  | tail _ hmove ih => exact ih.move hmove

/-- Of two numbers the one that was sent later is the same or the next. -/
theorem Ordered.next_or_same (h : Ordered lo r) (hr : r.sent = l ++ x :: l') (hy : y ∈ l') :
    y = x ∨ y = x + 1 := by
  have hx : x ∈ r.sent := by simp [hr]
  have hy' : y ∈ r.sent := by simp [hr, hy]
  have hxy : x ≤ y := by
    have hsorted := h.sorted
    rw [hr] at hsorted
    exact (List.pairwise_cons.mp (List.pairwise_append.mp hsorted).2.1).1 y hy
  have hnext := h.le_next y hy'
  have hrecent := h.recent x hx
  omega

/-- A number that comes back is the next one or the one before. -/
theorem Ordered.mem_cases (h : Ordered lo r) (hx : x ∈ r.sent) : x = r.next ∨ x + 1 = r.next := by
  have hnext := h.le_next x hx
  have hrecent := h.recent x hx
  omega

/-- A party with a counter sees a number go by: it is in the counter then. -/
theorem moves_pass (l l' : List ℤ) (c x n : ℤ) :
    Moves ⟨l ++ c :: x :: l', n⟩ ⟨l ++ x :: x :: l', n⟩ :=
  (Relation.ReflTransGen.single (.lose (by simp))).tail .echo

end Circulation
