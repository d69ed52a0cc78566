import Mathlib

/-!
# Descriptors and who keeps them

A process has numbers for the ends of pipes, its descriptors, and keeps some of these numbers in
variables, the slots (`Keeper`). It makes pipes and puts the two descriptors into slots (`pipe`), and
closes the descriptor in a slot (`close`). `alloc` chooses the number of a descriptor; all that is
assumed of it is that it is in use by no other one (`Allocates`).

`Owns` says which slots hold a descriptor and what that refers to. It is kept by `closeAll` and
`pipeAll`, and `Counted` counts what is open before and after.
-/

namespace Descriptors

/-- An end of a pipe of the kernel. -/
structure End where
  pipe : ℕ
  writes : Bool
  deriving DecidableEq

def End.other (e : End) : End := ⟨e.pipe, !e.writes⟩

@[simp] theorem End.other_other (e : End) : e.other.other = e := by
  simp [End.other]

/-- `n` descriptors are open, each listed once and below `b`. -/
structure Counted (n b : ℕ) (fds : List ℕ) : Prop where
  nodup : fds.Nodup
  length : fds.length = n
  lt : ∀ fd ∈ fds, fd < b

/-- New descriptors have numbers that are not in use, and not more than that are in use. -/
structure Allocates (alloc : List ℕ → ℕ) : Prop where
  fresh : ∀ fds, alloc fds ∉ fds
  le : ∀ fds, alloc fds ≤ fds.length

section Counted

variable {n b : ℕ} {fds fds' held : List ℕ} {alloc : List ℕ → ℕ}

theorem Counted.le (h : Counted n b fds) : n ≤ b := by
  have hsub : fds ⊆ List.range b := fun fd hfd => List.mem_range.mpr (h.lt fd hfd)
  have hle := h.nodup.length_le_of_subset hsub
  rwa [List.length_range, h.length] at hle

theorem Counted.new (h : Counted n b fds) (halloc : Allocates alloc) (hlt : n < b) :
    Counted (n + 1) b (alloc fds :: fds) where
  nodup := List.nodup_cons.mpr ⟨halloc.fresh fds, h.nodup⟩
  length := by rw [List.length_cons, h.length]
  lt := by
    have hnew : alloc fds < b := (halloc.le fds).trans_lt (h.length.symm ▸ hlt)
    exact List.forall_mem_cons.mpr ⟨hnew, h.lt⟩

/-- What is held is closed. -/
theorem Counted.close (h : Counted (n + held.length) b fds) (hheld : held.Nodup)
    (hopen : held ⊆ fds) (hnodup : fds'.Nodup) (hmem : ∀ fd, fd ∈ fds' ↔ fd ∈ fds ∧ fd ∉ held) :
    Counted n b fds' where
  nodup := hnodup
  length := by
    have hdisjoint : fds'.Disjoint held := fun fd hfd => ((hmem fd).mp hfd).2
    have hperm : (fds' ++ held).Perm fds := by
      refine (List.perm_ext_iff_of_nodup (hnodup.append hheld hdisjoint) h.nodup).mpr fun fd => ?_
      rw [List.mem_append, hmem]
      constructor
      · rintro (hfd | hfd)
        · exact hfd.1
        · exact hopen hfd
      · intro hfd
        exact (em' (fd ∈ held)).imp_left fun hout => ⟨hfd, hout⟩
    have hlength := hperm.length_eq
    rw [List.length_append, h.length] at hlength
    omega
  lt fd hfd := h.lt fd ((hmem fd).mp hfd).1

end Counted

/-! ### Slots -/

/-- The descriptors that are open, what they refer to, the number of the next pipe, and what is in
the slots. -/
structure Keeper (ι : Type*) where
  fds : List ℕ
  ends : ℕ → End
  next : ℕ
  held : ι → ℕ

section Keeper

variable {ι : Type*} [DecidableEq ι]

/-- The descriptor in the slot is closed, and the slot is set to 0. -/
def Keeper.close (k : Keeper ι) (i : ι) : Keeper ι :=
  { k with fds := k.fds.filter (· ≠ k.held i), held := Function.update k.held i 0 }

/-- A pipe is made, with its read end in the slot `i` and its write end in the slot `j`. -/
def Keeper.pipe (alloc : List ℕ → ℕ) (k : Keeper ι) (i j : ι) : Keeper ι :=
  let r := alloc k.fds
  let w := alloc (r :: k.fds)
  { fds := w :: r :: k.fds
    ends := Function.update (Function.update k.ends r ⟨k.next, false⟩) w ⟨k.next, true⟩
    next := k.next + 1
    held := Function.update (Function.update k.held i r) j w }

def Keeper.closeAll (k : Keeper ι) (l : List ι) : Keeper ι := l.foldl Keeper.close k

def Keeper.pipeAll (alloc : List ℕ → ℕ) (k : Keeper ι) (l : List (ι × ι)) : Keeper ι :=
  l.foldl (fun k ij => k.pipe alloc ij.1 ij.2) k

/-- The slots in `live` hold open descriptors, of different ends of pipes. Those in `kept` are open
and in no slot. -/
structure Owns (kept : List ℕ) (live : ι → Prop) (k : Keeper ι) (ends : ι → End) : Prop where
  kept_open : kept ⊆ k.fds
  kept_free : ∀ i, live i → k.held i ∉ kept
  isOpen : ∀ i, live i → k.held i ∈ k.fds
  refers : ∀ i, live i → k.ends (k.held i) = ends i
  injective : ∀ i j, live i → live j → ends i = ends j → i = j
  old : ∀ i, live i → (ends i).pipe < k.next

variable {kept : List ℕ} {live live' : ι → Prop} {k : Keeper ι} {ends ends' : ι → End} {i j : ι}
  {alloc : List ℕ → ℕ} {n b : ℕ}

omit [DecidableEq ι] in
theorem Owns.mono (h : Owns kept live k ends) (hlive : ∀ i, live' i → live i) :
    Owns kept live' k ends where
  kept_open := h.kept_open
  kept_free i hi := h.kept_free i (hlive i hi)
  isOpen i hi := h.isOpen i (hlive i hi)
  refers i hi := h.refers i (hlive i hi)
  injective i j hi hj := h.injective i j (hlive i hi) (hlive j hj)
  old i hi := h.old i (hlive i hi)

omit [DecidableEq ι] in
/-- No two slots hold one descriptor. -/
theorem Owns.held_ne (h : Owns kept live k ends) (hi : live i) (hj : live j) (hne : i ≠ j) :
    k.held i ≠ k.held j := fun heq =>
  hne (h.injective i j hi hj ((h.refers i hi).symm.trans (heq ▸ h.refers j hj)))

theorem Owns.close (h : Owns kept live k ends) (hi : live i) :
    Owns kept (fun j => live j ∧ j ≠ i) (k.close i) ends where
  kept_open fd hfd := by
    rw [Keeper.close, List.mem_filter, decide_eq_true_iff]
    exact ⟨h.kept_open hfd, fun heq => h.kept_free i hi (heq ▸ hfd)⟩
  kept_free j hj := by
    rw [Keeper.close]
    dsimp only
    rw [Function.update_of_ne hj.2]
    exact h.kept_free j hj.1
  isOpen j hj := by
    rw [Keeper.close]
    dsimp only
    rw [Function.update_of_ne hj.2, List.mem_filter, decide_eq_true_iff]
    exact ⟨h.isOpen j hj.1, h.held_ne hj.1 hi hj.2⟩
  refers j hj := by
    rw [Keeper.close]
    dsimp only
    rw [Function.update_of_ne hj.2]
    exact h.refers j hj.1
  injective j j' hj hj' := h.injective j j' hj.1 hj'.1
  old j hj := h.old j hj.1

/-- A pipe that is made is another one. -/
theorem Owns.pipe (h : Owns kept live k ends) (halloc : Allocates alloc) (hi : ¬ live i)
    (hj : ¬ live j) (hij : i ≠ j) :
    Owns kept (fun l => live l ∨ l = i ∨ l = j) (k.pipe alloc i j)
      (Function.update (Function.update ends i ⟨k.next, false⟩) j ⟨k.next, true⟩) := by
  have hr := halloc.fresh k.fds
  have hw := halloc.fresh (alloc k.fds :: k.fds)
  have hne : ∀ l, live l → l ≠ i ∧ l ≠ j := fun l hl => ⟨fun h => hi (h ▸ hl), fun h => hj (h ▸ hl)⟩
  simp only [Keeper.pipe]
  generalize alloc k.fds = r at *
  generalize alloc (r :: k.fds) = w at *
  have hrw : r ≠ w := fun h => hw (h ▸ List.mem_cons_self)
  have hold : ∀ l, live l → k.held l ≠ r ∧ k.held l ≠ w := fun l hl =>
    ⟨fun heq => hr (heq ▸ h.isOpen l hl),
      fun heq => hw (heq ▸ List.mem_cons_of_mem _ (h.isOpen l hl))⟩
  refine ⟨fun fd hfd => by simp [h.kept_open hfd], ?_, ?_, ?_, ?_, ?_⟩
  · rintro l (hl | rfl | rfl)
    · simpa [hne l hl] using h.kept_free l hl
    · simpa [hij] using fun hmem => hr (h.kept_open hmem)
    · simpa using fun hmem => hw (List.mem_cons_of_mem _ (h.kept_open hmem))
  · rintro l (hl | rfl | rfl)
    · simp [hne l hl, h.isOpen l hl]
    · simp [hij]
    · simp
  · rintro l (hl | rfl | rfl)
    · simp [hne l hl, hold l hl, h.refers l hl]
    · simp [hij, hrw]
    · simp
  · have hnew : ∀ l b, live l → ends l ≠ ⟨k.next, b⟩ := fun l b hl heq =>
      (h.old l hl).ne (congrArg End.pipe heq)
    rintro l l' (hl | rfl | rfl) (hl' | rfl | rfl) heq
    · exact h.injective l l' hl hl' (by simpa [hne l hl, hne l' hl'] using heq)
    · exact absurd (by simpa [hne l hl, hij] using heq) (hnew l false hl)
    · exact absurd (by simpa [hne l hl] using heq) (hnew l true hl)
    · exact absurd (by simpa [hne l' hl', hij] using heq.symm) (hnew l' false hl')
    · rfl
    · simp [hij] at heq
    · exact absurd (by simpa [hne l' hl'] using heq.symm) (hnew l' true hl')
    · simp [hij] at heq
    · rfl
  · rintro l (hl | rfl | rfl)
    · simpa [hne l hl] using (h.old l hl).trans (Nat.lt_succ_self _)
    · simp [hij]
    · simp

/-! ### Several at once -/

theorem Owns.closeAll {l : List ι} (h : Owns kept live k ends) (hl : ∀ i ∈ l, live i)
    (hnodup : l.Nodup) :
    Owns kept (fun j => live j ∧ j ∉ l) (k.closeAll l) ends := by
  induction l generalizing live k with
  | nil => exact h.mono fun _ hi => hi.1
  | cons i l ih =>
    obtain ⟨hi, hl⟩ := List.forall_mem_cons.mp hl
    obtain ⟨hfirst, hnodup⟩ := List.nodup_cons.mp hnodup
    have hrest : ∀ j ∈ l, live j ∧ j ≠ i := fun j hj => ⟨hl j hj, fun heq => hfirst (heq ▸ hj)⟩
    refine (ih (h.close hi) hrest hnodup).mono fun j hj => ?_
    exact ⟨⟨hj.1, fun heq => hj.2 (heq ▸ List.mem_cons_self)⟩,
      fun hmem => hj.2 (List.mem_cons_of_mem _ hmem)⟩

/-- Each slot that is closed closes one descriptor. -/
theorem Counted.closeAll {l : List ι} (hcounted : Counted (n + l.length) b k.fds)
    (h : Owns kept live k ends) (hl : ∀ i ∈ l, live i) (hnodup : l.Nodup) :
    Counted n b (k.closeAll l).fds := by
  induction l generalizing live k with
  | nil => exact hcounted
  | cons i l ih =>
    obtain ⟨hi, hl⟩ := List.forall_mem_cons.mp hl
    obtain ⟨hfirst, hnodup⟩ := List.nodup_cons.mp hnodup
    have hrest : ∀ j ∈ l, live j ∧ j ≠ i := fun j hj => ⟨hl j hj, fun heq => hfirst (heq ▸ hj)⟩
    refine ih ?_ (h.close hi) hrest hnodup
    have hone : Counted (n + l.length + [k.held i].length) b k.fds := hcounted
    refine hone.close (List.nodup_singleton _) ?_ ?_ fun fd => ?_
    · exact List.cons_subset.mpr ⟨h.isOpen i hi, List.nil_subset _⟩
    · exact hcounted.nodup.filter _
    · simp [Keeper.close]

/-- The slots of pairs. -/
def slots (l : List (ι × ι)) : List ι := l.flatMap fun ij => [ij.1, ij.2]

/-- **Pipes for pairs of slots.** Each pair holds the two ends of one, the read end first. -/
theorem Owns.pipeAll {l : List (ι × ι)} (h : Owns kept live k ends) (halloc : Allocates alloc)
    (hl : ∀ i ∈ slots l, ¬ live i) (hnodup : (slots l).Nodup) :
    ∃ ends', Owns kept (fun i => live i ∨ i ∈ slots l) (k.pipeAll alloc l) ends' ∧
      (∀ i, live i → ends' i = ends i) ∧
      ∀ ij ∈ l, (ends' ij.1).writes = false ∧ ends' ij.2 = (ends' ij.1).other := by
  induction l generalizing live k ends with
  | nil => exact ⟨ends, h.mono fun i hi => by simpa [slots] using hi, fun _ _ => rfl, by simp⟩
  | cons ij l ih =>
    obtain ⟨i, j⟩ := ij
    have hslots : slots ((i, j) :: l) = i :: j :: slots l := rfl
    rw [hslots] at hl hnodup
    obtain ⟨hi, hl⟩ := List.forall_mem_cons.mp hl
    obtain ⟨hj, hl⟩ := List.forall_mem_cons.mp hl
    obtain ⟨hfirst, hnodup⟩ := List.nodup_cons.mp hnodup
    obtain ⟨hsecond, hnodup⟩ := List.nodup_cons.mp hnodup
    obtain ⟨hij, hfirst⟩ := not_or.mp (mt List.mem_cons.mpr hfirst)
    have hrest : ∀ m ∈ slots l, ¬ (live m ∨ m = i ∨ m = j) := by
      rintro m hm (hlive | rfl | rfl)
      · exact hl m hm hlive
      · exact hfirst hm
      · exact hsecond hm
    obtain ⟨ends', hends', hkeep, hpairs⟩ := ih (h.pipe halloc hi hj hij) hrest hnodup
    refine ⟨ends', hends'.mono fun m hm => ?_, fun m hm => ?_, ?_⟩
    · rw [hslots, List.mem_cons, List.mem_cons] at hm
      tauto
    · have hmi : m ≠ i := fun heq => hi (heq ▸ hm)
      have hmj : m ≠ j := fun heq => hj (heq ▸ hm)
      rw [hkeep m (.inl hm), Function.update_of_ne hmj, Function.update_of_ne hmi]
    · refine List.forall_mem_cons.mpr ⟨?_, hpairs⟩
      rw [hkeep i (.inr (.inl rfl)), hkeep j (.inr (.inr rfl)), Function.update_self,
        Function.update_of_ne hij, Function.update_self]
      exact ⟨rfl, rfl⟩

/-- Each pair opens two. -/
theorem Counted.pipeAll {l : List (ι × ι)} (hcounted : Counted n b k.fds) (halloc : Allocates alloc)
    (hle : n + 2 * l.length ≤ b) :
    Counted (n + 2 * l.length) b (k.pipeAll alloc l).fds := by
  induction l generalizing n k with
  | nil => exact hcounted
  | cons ij l ih =>
    rw [List.length_cons] at hle ⊢
    have hpipe : Counted (n + 2) b (k.pipe alloc ij.1 ij.2).fds :=
      (hcounted.new halloc (by omega)).new halloc (by omega)
    have hrest := ih hpipe (by omega)
    rwa [show n + 2 * (l.length + 1) = n + 2 + 2 * l.length by ring]

end Keeper

end Descriptors
