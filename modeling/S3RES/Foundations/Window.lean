import S3RES.Foundations.Memory

/-!
# Circular windows

A window of length `n` at index `i` of a memory used as a ring of `N` cells is the list of
the cells at `i, i + 1, …, i + n - 1` modulo `N`. A window that does not reach the end of
the ring is one block (`window_eq_block`); one that does is two (`window_eq_append_block`).
`putRing` stores a list behind a window, cut where it runs over the end of the ring, and
`window_putRing` is the statement that this appends the list to the window.
-/

namespace Window

open Memory

variable {α : Type*} {N : ℕ}

/-- The `n` cells at ring positions `i, i + 1, …`. -/
def window (N : ℕ) (m : Mem α) (i n : ℕ) : List α :=
  (List.range n).map fun k => m ((i + k) % N)

@[simp] theorem window_zero (m : Mem α) (i : ℕ) : window N m i 0 = [] := rfl

@[simp] theorem length_window (m : Mem α) (i n : ℕ) : (window N m i n).length = n := by
  simp [window]

theorem window_add (m : Mem α) (i a b : ℕ) :
    window N m i (a + b) = window N m i a ++ window N m ((i + a) % N) b := by
  simp [window, List.range_add, Nat.add_assoc]

/-- The first `a` cells of a window. -/
theorem take_window (m : Mem α) (i : ℕ) {a n : ℕ} (h : a ≤ n) :
    (window N m i n).take a = window N m i a := by
  obtain ⟨b, rfl⟩ := Nat.exists_eq_add_of_le h
  rw [window_add, List.take_left' (length_window m i a)]

/-- Advancing the index drops cells from the front. -/
theorem drop_window (m : Mem α) (i : ℕ) {a n : ℕ} (h : a ≤ n) :
    (window N m i n).drop a = window N m ((i + a) % N) (n - a) := by
  obtain ⟨b, rfl⟩ := Nat.exists_eq_add_of_le h
  rw [window_add, List.drop_left' (length_window m i a), Nat.add_sub_cancel_left]

theorem window_congr {m m' : Mem α} {i n : ℕ}
    (h : ∀ k < n, m ((i + k) % N) = m' ((i + k) % N)) : window N m i n = window N m' i n :=
  List.map_congr_left fun k hk => h k (List.mem_range.mp hk)

/-- A window that stays below the end of the ring is a block. -/
theorem window_eq_block (m : Mem α) {i n : ℕ} (h : i + n ≤ N) :
    window N m i n = block m i n := by
  refine List.map_congr_left fun k hk => ?_
  rw [Nat.mod_eq_of_lt]
  have := List.mem_range.mp hk
  omega

/-- A window that reaches the end of the ring is the block up to the end followed by the
block from the start. -/
theorem window_eq_append_block (m : Mem α) {i n : ℕ} (hi : i < N) (h : N ≤ i + n)
    (hn : n ≤ N) :
    window N m i n = block m i (N - i) ++ block m 0 (n - (N - i)) := by
  have hsplit : n = (N - i) + (n - (N - i)) := by omega
  conv_lhs => rw [hsplit]
  rw [window_add, window_eq_block m (by omega), Nat.add_sub_cancel' hi.le, Nat.mod_self,
    window_eq_block m (by omega)]

/-! ### Appending to a window -/

/-- Store `l` at ring position `e`, the part that does not fit before the end at the
start of the ring. -/
def putRing (N : ℕ) (m : Mem α) (e : ℕ) (l : List α) : Mem α :=
  store (store m e (l.take (N - e))) 0 (l.drop (N - e))

/-- The stored cells, in order. -/
theorem window_putRing_self (m : Mem α) {e : ℕ} {l : List α} (he : e < N) (hl : l.length ≤ N) :
    window N (putRing N m e l) e l.length = l := by
  refine List.ext_getElem (by simp) fun k hk hk' => ?_
  simp only [window, List.getElem_map, List.getElem_range, putRing]
  rcases Nat.lt_or_ge (e + k) N with h | h
  · have hlen : (l.drop (N - e)).length ≤ e := by simp; omega
    rw [Nat.mod_eq_of_lt h, store_of_ge (by omega),
      store_add (by simp; omega), List.getElem_take]
  · have hmod : (e + k) % N = 0 + (e + k - N) := by
      rw [Nat.mod_eq_sub_mod h, Nat.mod_eq_of_lt (by omega), Nat.zero_add]
    rw [hmod, store_add (by simp; omega), List.getElem_drop]
    congr 1
    omega

/-- Cells outside the stored stretch keep their value. -/
theorem putRing_of_ge (m : Mem α) {e k : ℕ} {l : List α} (he : e < N) (hk : k < N)
    (hl : l.length ≤ k) : putRing N m e l ((e + k) % N) = m ((e + k) % N) := by
  simp only [putRing]
  rcases Nat.lt_or_ge (e + k) N with h | h
  · rw [Nat.mod_eq_of_lt h, store_of_ge (by simp; omega), store_of_ge (by simp; omega)]
  · have hmod : (e + k) % N = e + k - N := by
      rw [Nat.mod_eq_sub_mod h, Nat.mod_eq_of_lt (by omega)]
    rw [hmod, store_of_ge (by simp; omega), store_of_lt (by omega)]

/-- **Appending.** Storing `l` right behind a window of length `n` leaves the window as it
was and continues it with `l`, as long as both fit in the ring together. -/
theorem window_putRing (m : Mem α) {i n : ℕ} {l : List α} (hN : 0 < N)
    (hfit : n + l.length ≤ N) :
    window N (putRing N m ((i + n) % N) l) i (n + l.length) = window N m i n ++ l := by
  rw [window_add, window_putRing_self m (Nat.mod_lt _ hN) (by omega)]
  congr 1
  refine window_congr fun k hk => ?_
  -- offset `k` from `i` is offset `k + (N - n)` from the end of the window
  have hshift : (i + k) % N = ((i + n) % N + (k + (N - n))) % N := by
    rw [Nat.mod_add_mod, show i + n + (k + (N - n)) = i + k + N by omega, Nat.add_mod_right]
  rw [hshift]
  exact putRing_of_ge m (Nat.mod_lt _ hN) (by omega) (by omega)

/-- `putRing` writes below `N` only. -/
theorem putRing_frame (m : Mem α) {e i : ℕ} {l : List α} (he : e < N) (hl : l.length ≤ N)
    (hi : N ≤ i) : putRing N m e l i = m i := by
  rw [putRing, store_of_ge (by simp; omega), store_of_ge (by simp; omega)]

end Window
