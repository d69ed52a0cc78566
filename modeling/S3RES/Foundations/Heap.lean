import Mathlib

/-!
# Objects on a heap

A heap holds objects of one type by their addresses. The address of an object is the number of
its allocation: an address that was freed is not given out again, so that an access through a
stale pointer finds nothing instead of another object. `alloc`, `set` and `free` are the three
operations, `freeAll` frees a list of addresses, and for each one lemma says what is at an address
afterwards.

`Owns h first l` accounts for all objects that were allocated from an address on: they are those
at the addresses of `l`, each there once.
-/

/-- The objects that are there, by address, and the address of the next one. -/
structure Heap (α : Type*) where
  next : ℕ
  object : ℕ → Option α
  /-- What has not been allocated is not there. -/
  fresh : ∀ a, next ≤ a → object a = none

namespace Heap

variable {α : Type*} {h : Heap α} {a b : ℕ} {x y : α}

/-- A heap without objects. -/
def empty : Heap α := ⟨0, fun _ => none, fun _ _ => rfl⟩

/-- An object is allocated at the next address. -/
def alloc (h : Heap α) (x : α) : Heap α where
  next := h.next + 1
  object := Function.update h.object h.next (some x)
  fresh := by
    intro a ha
    rw [Function.update_of_ne (by omega)]
    exact h.fresh a (by omega)

/-- An object that is there gets another value. -/
def set (h : Heap α) (a : ℕ) (x : α) : Heap α where
  next := h.next
  object b := if b = a then (h.object b).map fun _ => x else h.object b
  fresh := by
    intro b hb
    rw [h.fresh b hb, Option.map_none, ite_self]

/-- An object is freed. -/
def free (h : Heap α) (a : ℕ) : Heap α where
  next := h.next
  object := Function.update h.object a none
  fresh := by
    intro b hb
    rcases eq_or_ne b a with rfl | hne
    · exact Function.update_self ..
    · rw [Function.update_of_ne hne]
      exact h.fresh b hb

/-- The objects at these addresses are freed, from the first on. -/
def freeAll (h : Heap α) (as : List ℕ) : Heap α := as.foldl free h

/-! ### What is at an address -/

theorem lt_next (hx : h.object a = some x) : a < h.next := by
  by_contra hle
  rw [h.fresh a (not_lt.mp hle)] at hx
  cases hx

theorem lt_next_of_isSome (hx : (h.object a).isSome) : a < h.next :=
  lt_next (Option.eq_some_of_isSome hx)

@[simp] theorem next_alloc (h : Heap α) (x : α) : (h.alloc x).next = h.next + 1 := rfl

@[simp] theorem next_set (h : Heap α) (a : ℕ) (x : α) : (h.set a x).next = h.next := rfl

@[simp] theorem next_free (h : Heap α) (a : ℕ) : (h.free a).next = h.next := rfl

@[simp] theorem object_alloc_next (h : Heap α) (x : α) : (h.alloc x).object h.next = some x :=
  Function.update_self ..

theorem object_alloc_of_ne (x : α) (hne : a ≠ h.next) : (h.alloc x).object a = h.object a :=
  Function.update_of_ne hne ..

/-- What was there is there after an allocation. -/
theorem object_alloc (y : α) (hx : h.object a = some x) : (h.alloc y).object a = some x := by
  rw [object_alloc_of_ne y (lt_next hx).ne, hx]

theorem object_set (h : Heap α) (a : ℕ) (x : α) (b : ℕ) : (h.set a x).object b =
    if b = a then (h.object b).map fun _ => x else h.object b := rfl

theorem object_set_self (y : α) (hx : h.object a = some x) : (h.set a y).object a = some y := by
  rw [object_set, if_pos rfl, hx, Option.map_some]

theorem object_set_of_ne (x : α) (hne : b ≠ a) : (h.set a x).object b = h.object b := if_neg hne

theorem isSome_object_set (h : Heap α) (a : ℕ) (x : α) (b : ℕ) :
    ((h.set a x).object b).isSome = (h.object b).isSome := by
  rw [object_set]
  split
  · exact Option.isSome_map
  · rfl

@[simp] theorem object_free_self (h : Heap α) (a : ℕ) : (h.free a).object a = none :=
  Function.update_self ..

theorem object_free_of_ne (h : Heap α) (hne : b ≠ a) : (h.free a).object b = h.object b :=
  Function.update_of_ne hne ..

theorem object_free (h : Heap α) (a b : ℕ) :
    (h.free a).object b = if b = a then none else h.object b := Function.update_apply ..

@[simp] theorem freeAll_nil (h : Heap α) : h.freeAll [] = h := rfl

@[simp] theorem freeAll_cons (h : Heap α) (a : ℕ) (as : List ℕ) :
    h.freeAll (a :: as) = (h.free a).freeAll as := rfl

@[simp] theorem next_freeAll (h : Heap α) (as : List ℕ) : (h.freeAll as).next = h.next := by
  induction as generalizing h with
  | nil => rfl
  | cons a as ih => rw [freeAll_cons, ih, next_free]

/-- What is left is what was there at the other addresses. -/
theorem object_freeAll (h : Heap α) (as : List ℕ) (b : ℕ) :
    (h.freeAll as).object b = if b ∈ as then none else h.object b := by
  induction as generalizing h with
  | nil => rw [freeAll_nil, if_neg List.not_mem_nil]
  | cons a as ih =>
    rw [freeAll_cons, ih, object_free]
    by_cases hb : b = a <;> simp [hb]

theorem object_freeAll_of_notMem (h : Heap α) {as : List ℕ} (hb : b ∉ as) :
    (h.freeAll as).object b = h.object b := by
  rw [object_freeAll, if_neg hb]

/-! ### Accounting -/

/-- The objects from the address `first` on are those at the addresses of the list. -/
structure Owns (h : Heap α) (first : ℕ) (l : List ℕ) : Prop where
  nodup : l.Nodup
  le : ∀ a ∈ l, first ≤ a
  isSome_iff : ∀ a, first ≤ a → ((h.object a).isSome ↔ a ∈ l)

variable {first : ℕ} {l l' : List ℕ}

theorem owns_next (h : Heap α) : h.Owns h.next [] where
  nodup := List.nodup_nil
  le := by
    intro a ha
    cases ha
  isSome_iff := by
    intro a ha
    rw [h.fresh a ha]
    exact iff_of_false Bool.false_ne_true List.not_mem_nil

theorem Owns.isSome (ho : h.Owns first l) (ha : a ∈ l) : (h.object a).isSome :=
  (ho.isSome_iff a (ho.le a ha)).mpr ha

theorem Owns.lt_next (ho : h.Owns first l) (ha : a ∈ l) : a < h.next :=
  lt_next_of_isSome (ho.isSome ha)

theorem Owns.perm (ho : h.Owns first l) (hl : l.Perm l') : h.Owns first l' where
  nodup := hl.nodup_iff.mp ho.nodup
  le a ha := ho.le a (hl.mem_iff.mpr ha)
  isSome_iff a ha := (ho.isSome_iff a ha).trans hl.mem_iff

theorem Owns.alloc (ho : h.Owns first l) (hfirst : first ≤ h.next) (x : α) :
    (h.alloc x).Owns first (h.next :: l) where
  nodup := List.nodup_cons.mpr ⟨fun hmem => (ho.lt_next hmem).ne rfl, ho.nodup⟩
  le := List.forall_mem_cons.mpr ⟨hfirst, ho.le⟩
  isSome_iff := by
    intro a ha
    rw [List.mem_cons]
    rcases eq_or_ne a h.next with rfl | hne
    · exact iff_of_true (by rw [object_alloc_next]; rfl) (.inl rfl)
    · rw [object_alloc_of_ne x hne, ho.isSome_iff a ha, or_iff_right hne]

theorem Owns.set (ho : h.Owns first l) (a : ℕ) (x : α) : (h.set a x).Owns first l where
  nodup := ho.nodup
  le := ho.le
  isSome_iff b hb := by rw [isSome_object_set, ho.isSome_iff b hb]

theorem Owns.free (ho : h.Owns first (a :: l)) : (h.free a).Owns first l where
  nodup := ho.nodup.of_cons
  le b hb := ho.le b (.tail a hb)
  isSome_iff := by
    intro b hb
    rcases eq_or_ne b a with rfl | hne
    · rw [object_free_self]
      exact iff_of_false Bool.false_ne_true (List.nodup_cons.mp ho.nodup).1
    · rw [object_free_of_ne h hne, ho.isSome_iff b hb, List.mem_cons, or_iff_right hne]

/-- All is freed but the objects at some of the addresses. -/
theorem Owns.keep {h' : Heap α} {as : List ℕ} (ho : h.Owns first l) (has : as ⊆ l)
    (hnodup : as.Nodup) (hobject : ∀ a, first ≤ a →
      h'.object a = if a ∈ l ∧ a ∉ as then none else h.object a) : h'.Owns first as where
  nodup := hnodup
  le a ha := ho.le a (has ha)
  isSome_iff := by
    intro a ha
    rw [hobject a ha]
    split_ifs with hfreed
    · exact iff_of_false Bool.false_ne_true hfreed.2
    · rw [ho.isSome_iff a ha]
      exact ⟨fun hl => by_contra fun hnot => hfreed ⟨hl, hnot⟩, fun ha => has ha⟩

end Heap
