import Mathlib

/-!
# Flat memory: blocks, copies and comparisons

A memory is a total map from addresses to cells. `store` writes a list of cells at an
address, `block` reads one back, and the two C library calls on buffers are phrased with
them: `memcpy` stores a block, `memcmp` compares two blocks cell by cell.

`memcmp` is stated over an arbitrary difference `d` on cells; the only fact its callers
use is `memcmp_eq_zero_iff`, for which `d x y = 0` has to mean `x = y`.
-/

namespace Memory

variable {α : Type*}

/-- A memory: every address holds a cell. -/
abbrev Mem (α : Type*) := ℕ → α

/-- The `n` cells from address `s` on. -/
def block (m : Mem α) (s n : ℕ) : List α := (List.range n).map fun k => m (s + k)

/-- Write the cells of `l` from address `d` on. -/
def store (m : Mem α) (d : ℕ) (l : List α) : Mem α :=
  fun i => if d ≤ i then (l[i - d]?).getD (m i) else m i

/-- `memcpy(&dst[d], &src[s], n)`. -/
def memcpy (dst : Mem α) (d : ℕ) (src : Mem α) (s n : ℕ) : Mem α :=
  store dst d (block src s n)

/-- `memcmp(&a[s], &b[t], n)`: the first non-zero difference, `0` when there is none. -/
def memcmp (d : α → α → ℤ) (a : Mem α) (s : ℕ) (b : Mem α) (t : ℕ) : ℕ → ℤ
  | 0 => 0
  | n + 1 => if d (a s) (b t) = 0 then memcmp d a (s + 1) b (t + 1) n else d (a s) (b t)

/-! ### Blocks -/

@[simp] theorem block_zero (m : Mem α) (s : ℕ) : block m s 0 = [] := rfl

@[simp] theorem length_block (m : Mem α) (s n : ℕ) : (block m s n).length = n := by
  simp [block]

theorem block_add (m : Mem α) (s a b : ℕ) :
    block m s (a + b) = block m s a ++ block m (s + a) b := by
  simp [block, List.range_add, Nat.add_assoc]

theorem block_succ (m : Mem α) (s n : ℕ) : block m s (n + 1) = m s :: block m (s + 1) n := by
  rw [Nat.add_comm, block_add]
  rfl

/-- Two blocks are equal exactly when they agree cell by cell. -/
theorem block_eq_block_iff {a b : Mem α} {s t n : ℕ} :
    block a s n = block b t n ↔ ∀ k < n, a (s + k) = b (t + k) := by
  simp [block, List.map_inj_left]

/-! ### Stores -/

theorem store_of_lt {m : Mem α} {d i : ℕ} {l : List α} (h : i < d) : store m d l i = m i :=
  if_neg (by omega)

theorem store_of_ge {m : Mem α} {d i : ℕ} {l : List α} (h : d + l.length ≤ i) :
    store m d l i = m i := by
  have hnone : l[i - d]? = none := List.getElem?_eq_none (by omega)
  simp [store, hnone]

theorem store_add {m : Mem α} {d k : ℕ} {l : List α} (h : k < l.length) :
    store m d l (d + k) = l[k] := by
  simp [store, h]

theorem store_of_getElem? {m : Mem α} {d k : ℕ} {l : List α} {a : α} (h : l[k]? = some a) :
    store m d l (d + k) = a := by
  simp [store, h]

@[simp] theorem store_nil (m : Mem α) (d : ℕ) : store m d [] = m := by
  funext i
  simp [store]

/-- What was stored is read back. -/
@[simp] theorem block_store (m : Mem α) (d : ℕ) (l : List α) :
    block (store m d l) d l.length = l := by
  refine List.ext_getElem (by simp) fun k h₁ h₂ => ?_
  simp [block, store_add h₂]

/-! ### Copies and comparisons -/

theorem memcpy_of_lt {dst src : Mem α} {d s n i : ℕ} (h : i < d) :
    memcpy dst d src s n i = dst i := store_of_lt h

theorem memcpy_of_ge {dst src : Mem α} {d s n i : ℕ} (h : d + n ≤ i) :
    memcpy dst d src s n i = dst i := store_of_ge (by simpa using h)

theorem memcpy_add {dst src : Mem α} {d s n k : ℕ} (h : k < n) :
    memcpy dst d src s n (d + k) = src (s + k) := by
  rw [memcpy, store_add (by simpa using h)]
  simp [block]

/-- A comparison is zero exactly on equal blocks. -/
theorem memcmp_eq_zero_iff {d : α → α → ℤ} (hd : ∀ x y, d x y = 0 ↔ x = y)
    (a : Mem α) (s : ℕ) (b : Mem α) (t n : ℕ) :
    memcmp d a s b t n = 0 ↔ block a s n = block b t n := by
  induction n generalizing s t with
  | zero => simp [memcmp]
  | succ n ih =>
    rw [memcmp, block_succ, block_succ, List.cons.injEq, ← ih, ← hd]
    split <;> simp_all

end Memory
