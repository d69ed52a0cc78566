import S3RES.AStar.Addresses

/-!
# Which nodes the search links to and which it frees

At the head of the loop every node of a call is in exactly one of the two sets, or is
`goal_node`. A node that is removed from `open_set` is linked to by none, as back links lead into
`closed_set`, and to a node that was allocated before (`Tree`). So the back links of the node at
the goal lead to the first node of the call, along nodes that are all there, and since the cells
of the nodes differ, `eraseAllButList` finds exactly these by their cells.
-/

namespace S3RES.NodeHeap

open AStar StepSystem

variable {R : Type} {heap heap' : Heap (Node R)} {first a b : ℕ} {opened closed es : List (ℕ × R)}
  {n m : Node R} {e : ℕ × R} {v : R}

/-! ### What is in the lists -/

/-- The nodes of the two sets. -/
def both (opened closed : List (ℕ × R)) : List ℕ := opened.map (·.1) ++ closed.map (·.1)

/-- A node that is found is the one that is removed. -/
theorem perm_without (h : found heap es a = some e) : es.Perm (e :: without heap es a) := by
  induction es with
  | nil => cases h
  | cons e' es ih =>
    rw [found, List.find?_cons] at h
    rw [without, List.eraseP_cons]
    by_cases hsame : cellAt heap a = cellAt heap e'.1
    · simp only [hsame, decide_true, Option.some.injEq] at h ⊢
      rw [h]
      exact .refl _
    · simp only [hsame, decide_false, cond_false] at h ⊢
      exact ((ih h).cons e').trans (.swap e e' _)

theorem without_of_found_none (h : found heap es a = none) : without heap es a = es :=
  List.eraseP_of_forall_not (List.find?_eq_none.mp h)

theorem cellAt_of_found (h : found heap es a = some e) : cellAt heap a = cellAt heap e.1 := by
  simpa using List.find?_some h

/-- When the cells differ, none of the nodes that are left is for the cell. -/
theorem notMem_cells_without (hes : (es.map fun e => cellAt heap e.1).Nodup) :
    cellAt heap a ∉ (without heap es a).map fun e => cellAt heap e.1 := by
  cases h : found heap es a with
  | none =>
    rw [without_of_found_none h, ← isSome_found, h]
    exact Bool.false_ne_true
  | some e =>
    have hnodup := ((perm_without h).map fun e => cellAt heap e.1).nodup_iff.mp hes
    rw [cellAt_of_found h]
    exact (List.nodup_cons.mp hnodup).1

/-- The score and the back link of a node say nothing about its cell. -/
theorem cellAt_set (hn : heap.object a = some n) {back : Option ℕ} {g : R} (b : ℕ) :
    cellAt (heap.set a { n with backLink := back, gScore := g }) b = cellAt heap b := by
  rw [cellAt, Heap.object_set]
  split_ifs with hb
  · rw [hb, hn, cellAt, hn]
    rfl
  · rfl

variable [LinearOrder R]

theorem perm_map_insertAddr (es : List (ℕ × R)) (a : ℕ) (v : R) :
    ((insertAddr es a v).map (·.1)).Perm (a :: es.map (·.1)) :=
  (perm_insertAddr es a v).map (·.1)

theorem sorted_insertAddr (h : es.Pairwise fun e e' => e.2 ≤ e'.2) :
    (insertAddr es a v).Pairwise fun e e' => e.2 ≤ e'.2 := by
  induction es with
  | nil => exact List.pairwise_singleton _ _
  | cons e es ih =>
    obtain ⟨hle, hes⟩ := List.pairwise_cons.mp h
    rw [insertAddr_cons]
    split_ifs with hlt
    · refine List.pairwise_cons.mpr ⟨List.forall_mem_cons.mpr ⟨hlt.le, fun e' he' => ?_⟩, h⟩
      exact hlt.le.trans (hle e' he')
    · refine List.pairwise_cons.mpr ⟨fun e' he' => ?_, ih hes⟩
      rcases List.mem_cons.mp ((perm_insertAddr es a v).mem_iff.mp he') with rfl | he'
      · exact not_lt.mp hlt
      · exact hle e' he'

/-! ### The tree of the back links -/

variable [Add R] {c : Config R}

/-- The back link of a node leads to a node of `closed_set`, from which its score was computed, and
which was allocated before. -/
def LinkedTo (c : Config R) (heap : Heap (Node R)) (closed : List (ℕ × R)) (a : ℕ) (n : Node R) :
    Prop :=
  ∃ b m, n.backLink = some b ∧ b ∈ closed.map (·.1) ∧ heap.object b = some m ∧
    n.gScore = m.gScore + c.estDistance n.x n.y m.x m.y ∧ b < a

/-- The nodes of the two sets. All but the one at `first` are linked to another. -/
structure Tree (c : Config R) (heap : Heap (Node R)) (first : ℕ)
    (opened closed : List (ℕ × R)) : Prop where
  live : Live heap (both opened closed)
  distinct : ((both opened closed).map (cellAt heap)).Nodup
  sorted : opened.Pairwise fun e e' => e.2 ≤ e'.2
  value : ∀ e ∈ opened, e.1 ≠ first → ∀ n ∈ heap.object e.1,
    e.2 = n.gScore + c.estDistanceG n.x n.y
  alone : first ∈ opened.map (·.1) → closed = [] ∧ opened.length = 1
  linked : ∀ a ∈ both opened closed, a ≠ first → ∀ n ∈ heap.object a, LinkedTo c heap closed a n
  first_mem : first ∈ both opened closed
  root : ∀ n ∈ heap.object first, n.backLink = none

omit [LinearOrder R] in
theorem LinkedTo.congr {closed' : List (ℕ × R)} (h : LinkedTo c heap closed a n)
    (hclosed : ∀ b ∈ closed.map (·.1), b ∈ closed'.map (·.1) ∧ heap'.object b = heap.object b) :
    LinkedTo c heap' closed' a n := by
  obtain ⟨b, m, hback, hb, hm, hscore⟩ := h
  exact ⟨b, m, hback, (hclosed b hb).1, (hclosed b hb).2.trans hm, hscore⟩

/-- Other nodes than those of the two sets do not count. -/
theorem Tree.congr (h : Tree c heap first opened closed)
    (hsame : ∀ a ∈ both opened closed, heap'.object a = heap.object a) :
    Tree c heap' first opened closed where
  live a ha := by
    rw [hsame a ha]
    exact h.live a ha
  distinct := by
    have hcells : (both opened closed).map (cellAt heap') = (both opened closed).map (cellAt heap) :=
      List.map_congr_left fun a ha => by rw [cellAt, hsame a ha, cellAt]
    rw [hcells]
    exact h.distinct
  sorted := h.sorted
  value e he := by
    rw [hsame e.1 (List.mem_append_left _ (List.mem_map_of_mem he))]
    exact h.value e he
  alone := h.alone
  linked a ha hne := by
    rw [hsame a ha]
    exact fun n hn => (h.linked a ha hne n hn).congr fun b hb =>
      ⟨hb, hsame b (List.mem_append_right _ hb)⟩
  first_mem := h.first_mem
  root := by
    rw [hsame first h.first_mem]
    exact h.root

theorem Tree.nodup (h : Tree c heap first opened closed) : (both opened closed).Nodup :=
  List.Nodup.of_map _ h.distinct

/-- The first node of `open_set` is put into `closed_set`. -/
theorem Tree.expand (h : Tree c heap first (e :: opened) closed) (v : R) :
    Tree c heap first opened (insertAddr closed e.1 v) := by
  have hperm : (both opened (insertAddr closed e.1 v)).Perm (both (e :: opened) closed) :=
    ((perm_map_insertAddr closed e.1 v).append_left _).trans List.perm_middle
  refine ⟨fun a ha => h.live a (hperm.mem_iff.mp ha), (hperm.map _).nodup_iff.mpr h.distinct,
    h.sorted.of_cons, fun e' he' => h.value e' (.tail e he'), fun hfirst => ?_,
    fun a ha hne n hn => ?_, hperm.mem_iff.mpr h.first_mem, h.root⟩
  · -- it would have been the only one
    obtain ⟨-, hlength⟩ := h.alone (List.mem_cons_of_mem _ hfirst)
    obtain rfl := List.length_eq_zero_iff.mp (Nat.succ.inj hlength)
    cases hfirst
  · refine (h.linked a (hperm.mem_iff.mp ha) hne n hn).congr fun b hb => ⟨?_, rfl⟩
    exact (perm_map_insertAddr closed e.1 v).mem_iff.mpr (.tail _ hb)

/-- Once something is closed, the first node is. -/
theorem Tree.first_closed (h : Tree c heap first opened closed) (hclosed : closed ≠ []) :
    first ∈ closed.map (·.1) :=
  (List.mem_append.mp h.first_mem).resolve_left fun hfirst => hclosed (h.alone hfirst).1

/-- Nodes are removed from `open_set`. -/
theorem Tree.sublist (h : Tree c heap first opened closed) (hclosed : closed ≠ [])
    {opened' : List (ℕ × R)} (hsub : opened'.Sublist opened) :
    Tree c heap first opened' closed := by
  have hboth : (both opened' closed).Sublist (both opened closed) :=
    (hsub.map _).append_right _
  refine ⟨fun a ha => h.live a (hboth.mem ha), h.distinct.sublist (hboth.map _),
    h.sorted.sublist hsub, fun e he => h.value e (hsub.mem he), fun hfirst => ?_,
    fun a ha => h.linked a (hboth.mem ha), List.mem_append_right _ (h.first_closed hclosed), h.root⟩
  exact absurd (h.alone ((hsub.map _).mem hfirst)).1 hclosed

/-- A node is put into `open_set` that is for another cell than all others. -/
theorem Tree.insert (h : Tree c heap first opened closed) (hclosed : closed ≠ [])
    (hn : heap.object a = some n) (hlinked : LinkedTo c heap closed a n)
    (hcell : cellAt heap a ∉ (both opened closed).map (cellAt heap)) :
    Tree c heap first (insertAddr opened a (n.gScore + c.estDistanceG n.x n.y)) closed := by
  have hperm : (both (insertAddr opened a (n.gScore + c.estDistanceG n.x n.y)) closed).Perm
      (a :: both opened closed) := (perm_map_insertAddr opened a _).append_right _
  have hne : a ≠ first := by
    rintro rfl
    exact hcell (List.mem_map_of_mem h.first_mem)
  refine ⟨fun b hb => ?_, (hperm.map _).nodup_iff.mpr (List.nodup_cons.mpr ⟨hcell, h.distinct⟩),
    sorted_insertAddr h.sorted, fun e he hfirst m hm => ?_, fun hfirst => ?_,
    fun b hb hfirst m hm => ?_, hperm.mem_iff.mpr (.tail a h.first_mem), h.root⟩
  · rcases List.mem_cons.mp (hperm.mem_iff.mp hb) with rfl | hb
    · rw [hn]
      rfl
    · exact h.live b hb
  · rcases List.mem_cons.mp ((perm_insertAddr opened a _).mem_iff.mp he) with rfl | he
    · rw [hn] at hm
      obtain rfl := Option.some.inj hm
      rfl
    · exact h.value e he hfirst m hm
  · rcases List.mem_cons.mp ((perm_map_insertAddr opened a _).mem_iff.mp hfirst) with heq | hfirst
    · exact absurd heq.symm hne
    · exact absurd (h.alone hfirst).1 hclosed
  · rcases List.mem_cons.mp (hperm.mem_iff.mp hb) with rfl | hb
    · rw [hn] at hm
      obtain rfl := Option.some.inj hm
      exact hlinked
    · exact h.linked b hb hfirst m hm

/-- The heap when a neighbour has been entered, in the place of the open node of its cell if there
is one. -/
def entered (heap : Heap (Node R)) (opened : List (ℕ × R)) (a : ℕ) (n : Node R) : Heap (Node R) :=
  (found heap opened a).elim (heap.set a n) fun e => (heap.set a n).free e.1

omit [LinearOrder R] [Add R] in
/-- Other nodes than the new one and the one that it replaces stay as they are. -/
theorem object_entered (hb : b ≠ a) (hfound : ∀ e ∈ found heap opened a, b ≠ e.1) :
    (entered heap opened a n).object b = heap.object b := by
  rw [entered]
  cases h : found heap opened a with
  | none => exact Heap.object_set_of_ne n hb
  | some e =>
    rw [Option.elim_some, Heap.object_free_of_ne _ (hfound e h), Heap.object_set_of_ne n hb]

omit [LinearOrder R] [Add R] in
theorem object_entered_self (hm : heap.object a = some m) (ha : a ∉ opened.map (·.1)) :
    (entered heap opened a n).object a = some n := by
  have hset : (heap.set a n).object a = some n := Heap.object_set_self n hm
  rw [entered]
  cases h : found heap opened a with
  | none => exact hset
  | some e =>
    have hne : a ≠ e.1 := by
      rintro rfl
      exact ha (List.mem_map_of_mem (List.mem_of_find?_eq_some h))
    rw [Option.elim_some, Heap.object_free_of_ne _ hne, hset]

/-- Neither the neighbour nor the node it replaces is among those that are left. -/
theorem Tree.object_entered (h : Tree c heap first opened closed) (ha : a ∉ both opened closed)
    (n : Node R) (hb : b ∈ both (without heap opened a) closed) :
    (entered heap opened a n).object b = heap.object b := by
  have hsub : (both (without heap opened a) closed).Sublist (both opened closed) :=
    (List.eraseP_sublist.map _).append_right _
  refine NodeHeap.object_entered (fun heq => ha (heq ▸ hsub.mem hb)) fun e he heq => ?_
  have hperm : (both opened closed).Perm (e.1 :: both (without heap opened a) closed) :=
    ((perm_without he).map (·.1)).append_right _
  exact (List.nodup_cons.mp (hperm.nodup_iff.mp h.nodup)).1 (heq ▸ hb)

/-- A neighbour is entered. -/
theorem Tree.enter (h : Tree c heap first opened closed) {current : ℕ}
    (hcurrent : current ∈ closed.map (·.1)) (hm : heap.object current = some m)
    (hn : heap.object a = some n) (ha : a ∉ both opened closed) (hlt : current < a)
    (hcell : cellAt heap a ∉ closed.map fun e => cellAt heap e.1) {n' : Node R}
    (hn' : n' = { n with
      backLink := some current
      gScore := m.gScore + c.estDistance n.x n.y m.x m.y }) :
    Tree c (entered heap opened a n') first
      (insertAddr (without heap opened a) a (n'.gScore + c.estDistanceG n'.x n'.y)) closed := by
  have hclosed : closed ≠ [] := by
    rintro rfl
    cases hcurrent
  have hopen : a ∉ opened.map (·.1) := fun hmem => ha (List.mem_append_left _ hmem)
  have hsub : (without heap opened a).Sublist opened := List.eraseP_sublist
  have hsame : ∀ b ∈ both (without heap opened a) closed,
      (entered heap opened a n').object b = heap.object b := fun b hb =>
    h.object_entered ha n' hb
  have hself : (entered heap opened a n').object a = some n' := object_entered_self hn hopen
  have hcells : ∀ b ∈ both (without heap opened a) closed,
      cellAt (entered heap opened a n') b = cellAt heap b := by
    intro b hb
    rw [cellAt, hsame b hb, cellAt]
  have hcell' : cellAt (entered heap opened a n') a = cellAt heap a := by
    rw [cellAt, hself, cellAt, hn, hn']
    rfl
  refine ((h.sublist hclosed hsub).congr hsame).insert hclosed hself ⟨current, m, ?_⟩ ?_
  · rw [hsame current (List.mem_append_right _ hcurrent)]
    exact ⟨by rw [hn'], hcurrent, hm, by rw [hn'], hlt⟩
  · rw [List.map_congr_left hcells, hcell', both, List.map_append, List.map_map, List.map_map,
      List.mem_append, not_or]
    refine ⟨notMem_cells_without ?_, hcell⟩
    have hnodup := h.distinct
    rw [both, List.map_append, List.map_map] at hnodup
    exact hnodup.of_append_left

/-! ### The path along the back links -/

variable [Zero R]

/-- The back links lead to the first node, downwards, along nodes that are closed. -/
theorem extractPath_of_tree (h : Tree c heap first opened closed)
    (hsame : ∀ a ∈ both opened closed, heap'.object a = heap.object a) (k : ℕ)
    (ha : a ∈ both opened closed) (hk : a < k) (as : List ℕ) :
    ∃ path, extractPath heap' k (pushed as) (some a) = .ok (pushed (path ++ as)) ∧
      a ∈ path ∧ (∀ b ∈ path, b = a ∨ b ∈ closed.map (·.1)) ∧ (∀ b ∈ path, b ≤ a) ∧
        path.Nodup := by
  induction k generalizing a as with
  | zero => exact absurd hk (Nat.not_lt_zero a)
  | succ k ih =>
    obtain ⟨n, hn⟩ := Option.isSome_iff_exists.mp (h.live a ha)
    have hnode : node heap' a = .ok n := node_of_object ((hsame a ha).trans hn)
    have hpush : push (pushed as : NodeList R) a = pushed (a :: as) := rfl
    rcases eq_or_ne a first with rfl | hne
    · refine ⟨[a], ?_, List.mem_singleton_self a, fun b hb => .inl (List.mem_singleton.mp hb),
        fun b hb => (List.mem_singleton.mp hb).le, List.nodup_singleton a⟩
      rw [extractPath, hnode, ok_bind, h.root n hn, hpush]
      cases k <;> rfl
    · obtain ⟨b, m, hback, hb, -, -, hlt⟩ := h.linked a ha hne n hn
      obtain ⟨path, hpath, hmem, hclosed, hle, hnodup⟩ :=
        ih (List.mem_append_right _ hb) (by omega) (a :: as)
      have hnot : ∀ d ∈ path, d < a := fun d hd => (hle d hd).trans_lt hlt
      refine ⟨path ++ [a], ?_, List.mem_append_right _ (List.mem_singleton_self a), ?_, ?_, ?_⟩
      · rw [extractPath, hnode, ok_bind, hback, hpush, hpath, List.append_assoc]
        rfl
      · intro d hd
        rcases List.mem_append.mp hd with hd | hd
        · rcases hclosed d hd with rfl | hd
          · exact .inr hb
          · exact .inr hd
        · exact .inl (List.mem_singleton.mp hd)
      · intro d hd
        rcases List.mem_append.mp hd with hd | hd
        · exact (hnot d hd).le
        · exact (List.mem_singleton.mp hd).le
      · refine List.nodup_append.mpr ⟨hnodup, List.nodup_singleton a, fun d hd d' hd' => ?_⟩
        rw [List.mem_singleton.mp hd']
        exact (hnot d hd).ne

/-! ### What is freed in the end -/

omit [Zero R] in
/-- The strays of `closed_set`: since the cells differ, they are the nodes that are not on the
path. -/
theorem mem_strays_iff (h : Tree c heap first opened closed) {as : List ℕ}
    (has : ∀ b ∈ as, b ∈ both opened closed)
    (hsame : ∀ b, b ∈ as ∨ b ∈ closed.map (·.1) → cellAt heap' b = cellAt heap b) :
    b ∈ strays heap' as (closed.map (·.1)) ↔ b ∈ closed.map (·.1) ∧ b ∉ as := by
  rw [strays, List.mem_filter, decide_eq_true_eq, List.mem_map (f := cellAt heap')]
  refine and_congr_right fun hb => not_congr ⟨?_, fun hmem => ⟨b, hmem, rfl⟩⟩
  rintro ⟨d, hd, hcell⟩
  have hbmem : b ∈ both opened closed := List.mem_append_right _ hb
  rw [hsame d (.inl hd), hsame b (.inr hb)] at hcell
  rwa [← List.inj_on_of_nodup_map h.distinct (has d hd) hbmem hcell]

/-- When the path has been extracted, the two sets are freed but for the nodes on it. -/
theorem erase_of_tree {rest : List (ℕ × R)} (h : Tree c heap first (e :: rest) closed)
    (hsame : ∀ b ∈ both (e :: rest) closed, heap'.object b = heap.object b) {as : List ℕ}
    (hhead : e.1 ∈ as) (has : ∀ b ∈ as, b = e.1 ∨ b ∈ closed.map (·.1)) :
    ∃ heap₁ heap₂, eraseList heap' (ofAddrs rest) = .ok (heap₁, newList) ∧
      eraseAllButList heap₁ (pushed as) (ofAddrs closed) = .ok heap₂ ∧
      ∀ b, heap₂.object b =
        if b ∈ both (e :: rest) closed ∧ b ∉ as then none else heap'.object b := by
  obtain ⟨hopened, hclosed, hdisjoint⟩ := List.nodup_append.mp h.nodup
  obtain ⟨he, hrest⟩ := List.nodup_cons.mp hopened
  have hboth : ∀ b, b ∈ both (e :: rest) closed ↔
      b = e.1 ∨ b ∈ rest.map (·.1) ∨ b ∈ closed.map (·.1) := by
    intro b
    rw [both, List.map_cons, List.cons_append, List.mem_cons, List.mem_append]
  have hmem : ∀ b ∈ as, b ∈ both (e :: rest) closed := fun b hb =>
    (hboth b).mpr ((has b hb).imp_right .inr)
  have hlive : ∀ b ∈ both (e :: rest) closed, (heap'.object b).isSome := by
    intro b hb
    rw [hsame b hb]
    exact h.live b hb
  -- the rest of the open set is neither closed nor on the path
  have hclosedRest : ∀ b ∈ closed.map (·.1), b ∉ rest.map (·.1) := fun b hb hmem =>
    hdisjoint b (.tail _ hmem) b hb rfl
  have hasRest : ∀ b ∈ as, b ∉ rest.map (·.1) := by
    intro b hb
    rcases has b hb with rfl | hb
    · exact he
    · exact hclosedRest b hb
  have hleft : ∀ b, b ∈ as ∨ b ∈ closed.map (·.1) →
      (heap'.freeAll (rest.map (·.1))).object b = heap'.object b := by
    rintro b (hb | hb)
    · exact Heap.object_freeAll_of_notMem heap' (hasRest b hb)
    · exact Heap.object_freeAll_of_notMem heap' (hclosedRest b hb)
  have hleftLive : ∀ b, b ∈ as ∨ b ∈ closed.map (·.1) →
      ((heap'.freeAll (rest.map (·.1))).object b).isSome := by
    intro b hb
    rw [hleft b hb]
    exact hlive b (hb.elim (hmem b) fun hb => (hboth b).mpr (.inr (.inr hb)))
  refine ⟨_, _, eraseList_ofAddrs (fun b hb => hlive b ((hboth b).mpr (.inr (.inl hb)))) hrest,
    eraseAllButList_ofAddrs (fun b hb => hleftLive b (.inl hb)) (fun b hb => hleftLive b (.inr hb))
      hclosed, fun b => ?_⟩
  have hcells : ∀ b, b ∈ as ∨ b ∈ closed.map (·.1) →
      cellAt (heap'.freeAll (rest.map (·.1))) b = cellAt heap b := by
    intro b hb
    rw [cellAt, hleft b hb, hsame b (hb.elim (hmem b) fun hb => (hboth b).mpr (.inr (.inr hb))),
      cellAt]
  have hstrays := mem_strays_iff (b := b) h hmem hcells
  have hiff : b ∈ both (e :: rest) closed ∧ b ∉ as ↔
      b ∈ strays (heap'.freeAll (rest.map (·.1))) as (closed.map (·.1)) ∨ b ∈ rest.map (·.1) := by
    rw [hboth, hstrays]
    constructor
    · rintro ⟨rfl | hb | hb, hnot⟩
      · exact absurd hhead hnot
      · exact .inr hb
      · exact .inl ⟨hb, hnot⟩
    · rintro (⟨hb, hnot⟩ | hb)
      · exact ⟨.inr (.inr hb), hnot⟩
      · exact ⟨.inr (.inl hb), fun hbas => hasRest b hbas hb⟩
  rw [Heap.object_freeAll, Heap.object_freeAll, ← ite_or, if_congr hiff rfl rfl]

end S3RES.NodeHeap
