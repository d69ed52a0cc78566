import S3RES.Plumber.Plumbing

/-!
# The graph the plumber builds

A config describes a graph: its components, and a link for each relationship. `Obeys` says of one
line that the plumber does what the line describes, or rejects it. `obeys_iff` gives the condition
under which it does, and `builds_iff` lifts this to configs: where every line meets the condition,
the pipes of every node are those that the config describes, in the order of its lines.
-/

namespace S3RES.Plumber

open StepSystem

variable {e : Setup} {s t : State} {nodes nodes' : List Node} {current : Pointer} {name : Text}
  {joint : Joint} {d : Component}

/-! ### What a config describes -/

/-- An end of a link. -/
inductive End
  | bench
  /-- A component, and how its pipe is timed. -/
  | component (name : Text) (timed : ℕ)
  deriving DecidableEq

def RepName.toEnd (n : RepName) : End := .component n.name n.index

/-- The end that writes. -/
def Relationship.source : Relationship → End
  | .benchVar _ _ | .benchRep _ _ => .bench
  | .varBench a _ | .varVar a _ _ | .varRep a _ _ => .component a 0
  | .repBench a _ | .repRep a _ _ | .repVar a _ _ => a.toEnd

/-- The end that reads. -/
def Relationship.target : Relationship → End
  | .varBench _ _ | .repBench _ _ => .bench
  | .benchVar _ b | .varVar _ _ b | .repVar _ _ b => .component b 0
  | .benchRep _ b | .repRep _ _ b | .varRep _ _ b => b.toEnd

/-- The name of the type of the messages. -/
def Relationship.type : Relationship → Text
  | .benchVar arrow _ | .benchRep arrow _ | .varBench _ arrow | .repBench _ arrow
  | .varVar _ arrow _ | .repRep _ arrow _ | .varRep _ arrow _ | .repVar _ arrow _ => arrow

/-- No end is at Bench. -/
def Relationship.Internal (r : Relationship) : Prop := r.source ≠ .bench ∧ r.target ≠ .bench

instance (r : Relationship) : Decidable r.Internal := inferInstanceAs (Decidable (_ ∧ _))

/-- The pipe of an end for the component `name`. -/
def End.joints (joint : ℕ → Joint) (name : Text) : End → List Joint
  | .bench => []
  | .component n timed => if n = name then [joint timed] else []

/-- The pipes a link of this type with these ends gives to the component `name`. -/
def Relationship.joints (r : Relationship) (type : CommMessage) (readEnd writeEnd : ℤ)
    (name : Text) : List Joint :=
  r.source.joints (Joint.mk ⟨type, 0, writeEnd⟩) name ++
    r.target.joints (Joint.mk ⟨type, readEnd, 0⟩) name

/-- The names at an end. -/
def End.names : End → List Text
  | .bench => []
  | .component name _ => [name]

/-- The components a relationship names. -/
def Relationship.names (r : Relationship) : List Text := r.source.names ++ r.target.names

/-- The pipes of the first node with this name. -/
def pipesOf : List Node → Text → List Joint
  | [], _ => []
  | n :: nodes, name => if name = n.name then n.pipes else pipesOf nodes name

/-- The declared components. -/
def State.components (s : State) : List Component := s.nodes.map Node.toComponent

/-- The names declared so far. -/
def State.names (s : State) : List Text := s.nodes.map fun n => n.name

/-- A declaration adds a component, unless its name is declared already. -/
def declare (components : List Component) (d : Declaration) : List Component :=
  if d.component.name ∈ components.map Component.name then components
  else components ++ [d.component]

/-- The line can be applied: it names declared components, and they have room for its pipes. -/
def Accepts (s : State) (r : Relationship) : Prop :=
  ∀ name ∈ r.names, name ∈ s.names ∧ (pipesOf s.nodes name).length + r.names.count name ≤ pipeLimit

instance (s : State) (r : Relationship) : Decidable (Accepts s r) :=
  inferInstanceAs (Decidable (∀ name ∈ r.names, name ∈ s.names ∧ _ ≤ pipeLimit))

/-- The ends are those of a pipe that was made on the way from `s` to `t`, or what Bench gave. -/
def FreshEnds (e : Setup) (s t : State) (r : Relationship) (readEnd writeEnd : ℤ) : Prop :=
  (r.source = .bench → readEnd = e.dataIn) ∧ (r.target = .bench → writeEnd = e.cmdOut) ∧
    (r.Internal → ∃ i o : ℕ, readEnd = i ∧ writeEnd = o ∧ i ≠ o ∧ i ∉ s.fds ∧ o ∉ s.fds ∧
      i ∈ t.fds ∧ o ∈ t.fds)

/-- The line adds a link of its type. -/
def Links (e : Setup) (s t : State) (r : Relationship) : Prop :=
  ∃ type readEnd writeEnd, type ≠ .commError ∧ messageT type = r.type ∧
    FreshEnds e s t r readEnd writeEnd ∧
    ∀ name, pipesOf t.nodes name = pipesOf s.nodes name ++ r.joints type readEnd writeEnd name

/-- What the line is to do. -/
def Does (e : Setup) (s t : State) : Line → Prop
  | .empty => t = s
  | .declaration d =>
    t.status = .parsing ∧ t.components = declare s.components d ∧
      ∀ name, pipesOf t.nodes name = pipesOf s.nodes name
  | .relationship r =>
    t.components = s.components ∧
      if Accepts s r then t.status = .parsing ∧ Links e s t r
      else t.status ≠ .undefined ∧ ∀ name, pipesOf t.nodes name = pipesOf s.nodes name

/-- The line is reached and does what it is to do. -/
def Obeys (e : Setup) (s : State) (line : Line) : Prop := ∃ t ∈ step e s line, Does e s t line

/-! ### The condition -/

/-- The kernel has two descriptors left. -/
def Descriptors (e : Setup) (s : State) : Prop := (pipe e s.fds).isSome

instance (e : Setup) (s : State) : Decidable (Descriptors e s) :=
  inferInstanceAs (Decidable ((pipe e s.fds).isSome = true))

/-- Bench is linked to an end in `[]`. -/
def Relationship.benchI2 : Relationship → Prop
  | .benchRep _ (.i2 _) | .repBench (.i2 _) _ => True
  | _ => False

instance : ∀ r : Relationship, Decidable r.benchI2
  | .benchRep _ (.i2 _) | .repBench (.i2 _) _ => .isTrue trivial
  | .benchRep _ (.vote _) | .repBench (.vote _) _ | .benchVar _ _ | .varBench _ _ | .varVar _ _ _
  | .repRep _ _ _ | .varRep _ _ _ | .repVar _ _ _ => .isFalse not_false

/-- The condition on a line that is parsed. A line that is not to be applied is rejected only
between two components, where its type or the kernel stops it. -/
def Fine (e : Setup) (s : State) : Line → Prop
  | .empty => True
  | .declaration d => d.component.name ∈ s.names ∨ s.current = .null ∧ d.component.Fits e
  | .relationship r =>
    if Accepts s r then
      commToEnum r.type ≠ .commError ∧ ¬ r.benchI2 ∧ (r.Internal → Descriptors e s)
    else
      r.Internal ∧ (s.current = .null ∨ ∀ name ∈ r.names, name ∈ s.names) ∧
        (commToEnum r.type = .commError ∨ ¬ Descriptors e s)

instance (e : Setup) (s : State) : ∀ line : Line, Decidable (Fine e s line)
  | .empty => inferInstanceAs (Decidable True)
  | .declaration _ => inferInstanceAs (Decidable (_ ∨ _ ∧ _))
  | .relationship r => inferInstanceAs (Decidable (if Accepts s r then _ ∧ _ ∧ (_ → _)
      else _ ∧ (_ ∨ ∀ name ∈ r.names, name ∈ s.names) ∧ (_ ∨ _)))

/-! ### The list of nodes -/

/-- A declared component with room for one more pipe. -/
def Room (nodes : List Node) (name : Text) : Prop :=
  name ∈ nodes.map (fun n => n.name) ∧ (pipesOf nodes name).length < pipeLimit

/-- The component `name` has one more pipe. -/
structure Appended (nodes nodes' : List Node) (name : Text) (joint : Joint) : Prop where
  components : nodes'.map Node.toComponent = nodes.map Node.toComponent
  pipes : ∀ n, pipesOf nodes' n = pipesOf nodes n ++ if name = n then [joint] else []

theorem getNode_eq_stray_iff :
    getNode nodes current name = .stray ↔
      name ∉ nodes.map (fun n => n.name) ∧ current = .stray := by
  induction nodes with
  | nil => cases current <;> simp [getNode]
  | cons n nodes ih =>
    rw [getNode]
    split
    · rename_i hname
      simp [hname]
    · rename_i hname
      have hnext : (getNode nodes current name).next = .stray ↔
          getNode nodes current name = .stray := by
        cases getNode nodes current name <;> simp [NodePointer.next]
      rw [hnext, ih]
      simp [hname]

/-- What is found depends on the names only. -/
theorem getNode_congr (h : nodes'.map Node.toComponent = nodes.map Node.toComponent) :
    getNode nodes' current name = getNode nodes current name := by
  induction nodes generalizing nodes' with
  | nil => rw [List.map_eq_nil_iff.mp h]
  | cons n nodes ih =>
    obtain ⟨n', rest, rfl, hn, hrest⟩ := List.map_eq_cons_iff.mp h
    rw [getNode, getNode, ih hrest, hn]

theorem store_next (n : Node) (nodes : List Node) (p : NodePointer) (joint : Joint) :
    store (n :: nodes) p.next joint = (store nodes p joint).map (n :: ·) := by
  cases p with
  | node i =>
    simp only [NodePointer.next, store, List.getElem?_cons_succ, Option.map_map]
    rfl
  | null => rfl
  | stray => rfl

theorem Node.add_isSome_iff {n : Node} : (n.add joint).isSome ↔ n.pipes.length < pipeLimit := by
  rw [Node.add]
  split
  · rename_i hlt
    exact iff_of_true rfl hlt
  · rename_i hge
    exact iff_of_false (by simp) hge

theorem Node.add_spec {n n' : Node} (h : n' ∈ n.add joint) :
    n'.toComponent = n.toComponent ∧ n'.pipes = n.pipes ++ [joint] := by
  rw [Node.add, Option.mem_def] at h
  split at h
  · obtain rfl := Option.some.inj h
    exact ⟨rfl, rfl⟩
  · simp at h

/-- `get_node` and the storing of a pipe. -/
theorem store_isSome_iff :
    (store nodes (getNode nodes current name) joint).isSome ↔ Room nodes name := by
  induction nodes with
  | nil => cases current <;> simp [getNode, store, Room]
  | cons n nodes ih =>
    rw [getNode]
    split
    · rename_i hname
      simp [store, Node.add_isSome_iff, Room, pipesOf, hname]
    · rename_i hname
      rw [store_next, Option.isSome_map, ih]
      simp [Room, pipesOf, hname]

theorem store_eq_none (hroom : ¬ Room nodes name) :
    store nodes (getNode nodes current name) joint = none :=
  Option.not_isSome_iff_eq_none.mp (mt store_isSome_iff.mp hroom)

theorem appended_store (h : nodes' ∈ store nodes (getNode nodes current name) joint) :
    Appended nodes nodes' name joint := by
  induction nodes generalizing nodes' with
  | nil => cases current <;> simp [getNode, store] at h
  | cons n nodes ih =>
    rw [getNode] at h
    split at h
    · rename_i hname
      simp only [store, List.getElem?_cons_zero, Option.bind_some, List.set_cons_zero,
        Option.mem_def, Option.map_eq_some_iff] at h
      obtain ⟨n', hn', rfl⟩ := h
      obtain ⟨hcomponent, hpipes⟩ := Node.add_spec hn'
      refine ⟨by rw [List.map_cons, List.map_cons, hcomponent], fun q => ?_⟩
      rw [pipesOf, pipesOf, hcomponent, hpipes, hname]
      by_cases hq : q = n.name
      · rw [if_pos hq, if_pos hq, if_pos hq.symm]
      · rw [if_neg hq, if_neg hq, if_neg (Ne.symm hq), List.append_nil]
    · rename_i hname
      rw [store_next, Option.mem_def, Option.map_eq_some_iff] at h
      obtain ⟨rest, hrest, rfl⟩ := h
      obtain ⟨hcomponents, hpipes⟩ := ih hrest
      refine ⟨by rw [List.map_cons, List.map_cons, hcomponents], fun q => ?_⟩
      rw [pipesOf, pipesOf]
      by_cases hq : q = n.name
      · rw [if_pos hq, if_pos hq, if_neg (fun heq => hname (heq.trans hq)), List.append_nil]
      · rw [if_neg hq, if_neg hq, hpipes q]

/-- `add_node` in one step. -/
theorem addNode_eq (k : ℕ) :
    addNode e d k nodes current =
      if d.name ∈ nodes.map (fun n => n.name) then some (false, nodes, current)
      else if current = .null ∧ d.Fits e then
        some (true, nodes ++ [d.toNode], e.current (k + nodes.length))
      else none := by
  induction nodes generalizing k with
  | nil =>
    cases current with
    | null => simp [addNode]
    | stray => simp [addNode]
  | cons n nodes ih =>
    rw [addNode, ih]
    by_cases hname : d.name = n.name
    · simp [hname]
    · have hcons : d.name ∈ (n :: nodes).map (fun n => n.name) ↔
          d.name ∈ nodes.map fun n => n.name := by simp [hname]
      rw [if_neg hname]
      simp only [hcons]
      split
      · rfl
      · split
        · simp only [Option.map_some, List.cons_append, List.length_cons, Nat.add_assoc,
            Nat.add_comm 1]
        · rfl

theorem pipesOf_append (nodes : List Node) (d : Component) (name : Text) :
    pipesOf (nodes ++ [d.toNode]) name = pipesOf nodes name := by
  induction nodes with
  | nil => simp [pipesOf, Component.toNode]
  | cons n nodes ih => rw [List.cons_append, pipesOf, pipesOf, ih]

/-! ### Two pipes -/

variable {a b : Text} {jointA jointB : Joint}

/-- The components `a` and `b` have one more pipe each. -/
structure Linked (nodes nodes' : List Node) (a b : Text) (jointA jointB : Joint) : Prop where
  components : nodes'.map Node.toComponent = nodes.map Node.toComponent
  pipes : ∀ n, pipesOf nodes' n = pipesOf nodes n ++
    ((if a = n then [jointA] else []) ++ if b = n then [jointB] else [])

theorem room_congr (h : Appended nodes nodes' a joint) :
    Room nodes' b ↔ b ∈ nodes.map (fun n => n.name) ∧
      (pipesOf nodes b).length + (if a = b then 1 else 0) < pipeLimit := by
  have hnames : nodes'.map (fun n => n.name) = nodes.map fun n => n.name := by
    have hmap := congrArg (List.map Component.name) h.components
    rwa [List.map_map, List.map_map] at hmap
  have hlength : (if a = b then [joint] else []).length = if a = b then 1 else 0 := by
    split <;> rfl
  rw [Room, hnames, h.pipes, List.length_append, hlength]

theorem stores_isSome_iff :
    ((store nodes (getNode nodes current a) jointA).bind fun nodes' =>
        store nodes' (getNode nodes current b) jointB).isSome ↔
      Room nodes a ∧ b ∈ nodes.map (fun n => n.name) ∧
        (pipesOf nodes b).length + (if a = b then 1 else 0) < pipeLimit := by
  by_cases hroom : Room nodes a
  · obtain ⟨nodes', hstore⟩ := Option.isSome_iff_exists.mp (store_isSome_iff.mpr hroom)
    have happended := appended_store hstore
    rw [hstore, Option.bind_some, ← getNode_congr happended.components, store_isSome_iff,
      room_congr happended]
    exact (and_iff_right hroom).symm
  · rw [store_eq_none hroom]
    exact iff_of_false (by simp) fun h => hroom h.1

theorem linked_stores (h : nodes' ∈ (store nodes (getNode nodes current a) jointA).bind
    fun nodes' => store nodes' (getNode nodes current b) jointB) :
    Linked nodes nodes' a b jointA jointB := by
  obtain ⟨between, hstore, hstore'⟩ := Option.bind_eq_some_iff.mp h
  have hfirst := appended_store hstore
  rw [← getNode_congr hfirst.components] at hstore'
  have hsecond := appended_store hstore'
  refine ⟨hsecond.components.trans hfirst.components, fun n => ?_⟩
  rw [hsecond.pipes, hfirst.pipes, List.append_assoc]

/-- The ends of a new pipe. -/
theorem pipe_spec {fds fds' : List ℕ} {ends : ℕ × ℕ} (h : (ends, fds') ∈ pipe e fds) :
    ends.1 ≠ ends.2 ∧ ends.1 ∉ fds ∧ ends.2 ∉ fds ∧ ends.1 ∈ fds' ∧ ends.2 ∈ fds' ∧
      fds ⊆ fds' := by
  rw [pipe, Option.mem_def, Option.ite_none_right_eq_some] at h
  obtain ⟨-, heq⟩ := h
  have hread := lowestFree_not_mem fds
  have hwrite := lowestFree_not_mem (lowestFree fds :: fds)
  rw [List.mem_cons, not_or] at hwrite
  simp only [pipeFds, Option.some.injEq, Prod.mk.injEq] at heq
  obtain ⟨rfl, rfl⟩ := heq
  refine ⟨fun heq => hwrite.1 heq.symm, hread, hwrite.2, ?_, ?_, ?_⟩
  · exact List.mem_cons_of_mem _ List.mem_cons_self
  · exact List.mem_cons_self
  · exact fun fd hfd => List.mem_cons_of_mem _ (List.mem_cons_of_mem _ hfd)

/-! ### One line -/

variable {r : Relationship} {type : CommMessage} {readEnd writeEnd : ℤ}

/-- The type that is found has the name. -/
theorem messageT_commToEnum {arrow : Text} (h : commToEnum arrow ≠ .commError) :
    messageT (commToEnum arrow) = arrow := by
  revert h
  simp only [commToEnum]
  split_ifs <;> simp_all [messageT]

theorem map_name_components (s : State) : s.components.map Component.name = s.names := by
  rw [State.components, List.map_map, State.names]
  rfl

theorem does_addAction (d : Declaration) (hparsing : s.status = .parsing) :
    Does e s (addAction e s d.component) (.declaration d) ↔ Fine e s (.declaration d) := by
  simp only [Does, Fine, declare, map_name_components, addAction, addNode_eq]
  by_cases hdeclared : d.component.name ∈ s.names
  · have hmem : d.component.name ∈ s.nodes.map fun n => n.name := hdeclared
    rw [if_pos hmem, if_pos hdeclared]
    exact iff_of_true ⟨hparsing, rfl, fun _ => rfl⟩ (.inl hdeclared)
  · have hnotMem : d.component.name ∉ s.nodes.map fun n => n.name := hdeclared
    rw [if_neg hnotMem, if_neg hdeclared]
    by_cases hroom : s.current = .null ∧ d.component.Fits e
    · rw [if_pos hroom]
      refine iff_of_true ⟨hparsing, ?_, fun name => pipesOf_append ..⟩ (.inr hroom)
      exact List.map_append
    · rw [if_neg hroom]
      exact iff_of_false (fun h => absurd h.1 (by simp)) fun h => hroom (h.resolve_left hdeclared)

/-- At Bench, only the given descriptor matters. -/
theorem joints_bench (hr : ¬ r.Internal) (hends : FreshEnds e s t r readEnd writeEnd) :
    r.joints type readEnd writeEnd name = r.joints type e.dataIn e.cmdOut name := by
  obtain ⟨hsource, htarget, -⟩ := hends
  by_cases hbench : r.source = .bench
  · rw [hsource hbench, Relationship.joints, Relationship.joints, hbench]
    rfl
  · have hbench' : r.target = .bench := by
      by_contra htarget
      exact hr ⟨hbench, htarget⟩
    rw [htarget hbench', Relationship.joints, Relationship.joints, hbench']
    rfl

theorem freshEnds_bench (hr : ¬ r.Internal) : FreshEnds e s t r e.dataIn e.cmdOut :=
  ⟨fun _ => rfl, fun _ => rfl, fun h => absurd h hr⟩

/-- A line with Bench at one end, whose other end is the component `name`, timed `k`. -/
theorem does_benchAction {fdIn fdOut : ℤ} {timed : Bool} {k : ℕ} (hparsing : s.status = .parsing)
    (hr : ¬ r.Internal) (hnames : r.names = [name])
    (hjoints : ∀ type n, r.joints type e.dataIn e.cmdOut n =
      if name = n then [⟨⟨type, fdIn, fdOut⟩, k⟩] else [])
    (hk : r.benchI2 ↔ k ≠ timed.toNat) :
    Does e s (benchAction s name r.type fdIn fdOut timed) (.relationship r) ↔
      Fine e s (.relationship r) := by
  have haccepts : Accepts s r ↔ Room s.nodes name := by
    simp only [Accepts, hnames, List.mem_singleton, forall_eq, List.count_singleton_self]
    rfl
  simp only [Does, Fine, benchAction, linkBench]
  by_cases hroom : Room s.nodes name
  · have hsome : (store s.nodes (getNode s.nodes s.current name)
        ⟨⟨commToEnum r.type, fdIn, fdOut⟩, timed.toNat⟩).isSome := store_isSome_iff.mpr hroom
    obtain ⟨nodes, hstore⟩ := Option.isSome_iff_exists.mp hsome
    obtain ⟨hcomponents, hpipes⟩ := appended_store hstore
    rw [hstore, if_pos (haccepts.mpr hroom), if_pos (haccepts.mpr hroom)]
    constructor
    · rintro ⟨-, -, type, i, o, htype, hname, hends, hlinks⟩
      have hjoint := hlinks name
      rw [hpipes, joints_bench hr hends, hjoints, if_pos rfl, if_pos rfl,
        List.append_cancel_left_eq, List.singleton_inj, Joint.mk.injEq,
        TypedPipe.mk.injEq] at hjoint
      obtain ⟨⟨hcomm, -⟩, htimed⟩ := hjoint
      refine ⟨hcomm ▸ htype, fun hi2 => hk.mp hi2 htimed.symm, fun h => absurd h hr⟩
    · rintro ⟨htype, hi2, -⟩
      refine ⟨hcomponents, hparsing, _, _, _, htype, messageT_commToEnum htype,
        freshEnds_bench hr, fun n => ?_⟩
      have hkt : k = timed.toNat := by_contra fun hne => hi2 (hk.mpr hne)
      rw [hjoints, hkt]
      exact hpipes n
  · have hnot := mt haccepts.mp hroom
    rw [store_eq_none hroom, if_neg hnot, if_neg hnot]
    exact iff_of_false (fun h => h.2.1 rfl) fun h => hr h.1

/-- Room for the two pipes of a link between `a` and `b`. -/
theorem accepts_iff (hnames : r.names = [a, b]) :
    Accepts s r ↔ Room s.nodes a ∧ b ∈ s.nodes.map (fun n => n.name) ∧
      (pipesOf s.nodes b).length + (if a = b then 1 else 0) < pipeLimit := by
  simp only [Accepts, hnames, List.forall_mem_cons, List.not_mem_nil, false_imp_iff, forall_const,
    and_true, List.count_cons, List.count_nil, State.names, Room, beq_iff_eq]
  by_cases hab : a = b
  · subst hab
    simp only [if_true]
    grind
  · simp only [if_neg hab, if_neg (Ne.symm hab), if_true]
    grind

/-- The mark at the end of the list is followed where it is stray and a name is not declared. -/
theorem getNode_stray_iff (hnames : r.names = [a, b]) :
    getNode s.nodes s.current a = .stray ∨ getNode s.nodes s.current b = .stray ↔
      ¬ (s.current = .null ∨ ∀ name ∈ r.names, name ∈ s.names) := by
  have hmark : s.current = .stray ↔ s.current ≠ .null := by
    cases s.current <;> simp
  simp only [getNode_eq_stray_iff, hnames, List.forall_mem_cons, List.not_mem_nil, false_imp_iff,
    forall_const, and_true, not_or, not_and_or, hmark, ← or_and_right]
  exact and_comm

/-- Without descriptors nothing happens. -/
theorem linkNode_of_none {fds : List ℕ} {fromNode toNode : NodePointer} {fromTimed toTimed : ℕ}
    (hpipe : pipe e fds = none) :
    linkNode e nodes fds type fromNode fromTimed toNode toTimed = some (nodes, fds) := by
  rw [linkNode, hpipe]

/-- With a pipe, one end is stored after the other. -/
theorem linkNode_of_some {fds fds' : List ℕ} {ends : ℕ × ℕ} {fromNode toNode : NodePointer}
    {fromTimed toTimed : ℕ} (hpipe : pipe e fds = some (ends, fds')) :
    linkNode e nodes fds type fromNode fromTimed toNode toTimed =
      ((store nodes fromNode ⟨⟨type, 0, ends.2⟩, fromTimed⟩).bind fun nodes =>
        store nodes toNode ⟨⟨type, ends.1, 0⟩, toTimed⟩).map fun nodes => (nodes, fds') := by
  simp only [linkNode, hpipe, Option.map_bind]
  rfl

theorem joints_nodes {aTimed bTimed : ℕ} (ha : r.source = .component a aTimed)
    (hb : r.target = .component b bTimed) (name : Text) :
    r.joints type readEnd writeEnd name =
      (if a = name then [⟨⟨type, 0, writeEnd⟩, aTimed⟩] else []) ++
        if b = name then [⟨⟨type, readEnd, 0⟩, bTimed⟩] else [] := by
  rw [Relationship.joints, ha, hb]
  rfl

/-- With descriptors and a type that is known, a line between `a` and `b` is applied if it can
be, and else nodes that are not there are written to. -/
theorem does_linkNode {aTimed bTimed : ℕ} {ends : ℕ × ℕ} {fds : List ℕ}
    (hparsing : s.status = .parsing) (ha : r.source = .component a aTimed)
    (hb : r.target = .component b bTimed) (htype : commToEnum r.type ≠ .commError)
    (hpipe : pipe e s.fds = some (ends, fds)) :
    Does e s (match linkNode e s.nodes s.fds (commToEnum r.type) (getNode s.nodes s.current a)
          aTimed (getNode s.nodes s.current b) bTimed with
        | some (nodes, fds) => { s with nodes := nodes, fds := fds }
        | none => { s with status := .undefined }) (.relationship r) ↔ Accepts s r := by
  have hinternal : r.Internal := by simp [Relationship.Internal, ha, hb]
  have hnames : r.names = [a, b] := by simp [Relationship.names, ha, hb, End.names]
  rw [linkNode_of_some hpipe]
  by_cases haccepts : Accepts s r
  · obtain ⟨hne, hread, hwrite, hread', hwrite', -⟩ := pipe_spec hpipe
    have hsome : ((store s.nodes (getNode s.nodes s.current a)
        ⟨⟨commToEnum r.type, 0, ends.2⟩, aTimed⟩).bind fun nodes => store nodes
          (getNode s.nodes s.current b) ⟨⟨commToEnum r.type, ends.1, 0⟩, bTimed⟩).isSome :=
      stores_isSome_iff.mpr ((accepts_iff hnames).mp haccepts)
    obtain ⟨nodes, hstores⟩ := Option.isSome_iff_exists.mp hsome
    obtain ⟨hcomponents, hpipes⟩ := linked_stores hstores
    rw [hstores, Option.map_some]
    simp only [Does]
    rw [if_pos haccepts]
    refine iff_of_true ⟨hcomponents, hparsing, _, ends.1, ends.2, htype,
      messageT_commToEnum htype, ⟨?_, ?_, fun _ => ?_⟩, fun n => ?_⟩ haccepts
    · exact fun h => absurd h hinternal.1
    · exact fun h => absurd h hinternal.2
    · exact ⟨_, _, rfl, rfl, hne, hread, hwrite, hread', hwrite'⟩
    · rw [joints_nodes ha hb]
      exact hpipes n
  · have hnone : ((store s.nodes (getNode s.nodes s.current a)
        ⟨⟨commToEnum r.type, 0, ends.2⟩, aTimed⟩).bind fun nodes => store nodes
          (getNode s.nodes s.current b) ⟨⟨commToEnum r.type, ends.1, 0⟩, bTimed⟩) = none :=
      Option.not_isSome_iff_eq_none.mp
        (mt stores_isSome_iff.mp (mt (accepts_iff hnames).mpr haccepts))
    rw [hnone, Option.map_none]
    simp only [Does]
    rw [if_neg haccepts]
    exact iff_of_false (fun h => h.2.1 rfl) haccepts

/-- A line between the components `a` and `b`. -/
theorem does_nodeAction {aTimed bTimed : ℕ} (hparsing : s.status = .parsing)
    (ha : r.source = .component a aTimed) (hb : r.target = .component b bTimed)
    (hi2 : ¬ r.benchI2) :
    Does e s (nodeAction e s a aTimed r.type b bTimed) (.relationship r) ↔
      Fine e s (.relationship r) := by
  have hinternal : r.Internal := by simp [Relationship.Internal, ha, hb]
  have hnames : r.names = [a, b] := by simp [Relationship.names, ha, hb, End.names]
  have hstray := getNode_stray_iff (s := s) hnames
  have hdeclared : Accepts s r → ∀ name ∈ r.names, name ∈ s.names :=
    fun h name hname => (h name hname).1
  rw [nodeAction]
  by_cases hfound : s.current = .null ∨ ∀ name ∈ r.names, name ∈ s.names
  swap
  · -- the mark at the end of the list is followed
    have hnot : ¬ Accepts s r := fun h => hfound (.inr (hdeclared h))
    rw [if_pos (hstray.mpr hfound), Does, Fine, if_neg hnot, if_neg hnot]
    exact iff_of_false (fun h => h.2.1 rfl) fun h => hfound h.2.1
  rw [if_neg (mt hstray.mp (not_not.mpr hfound))]
  by_cases htype : commToEnum r.type = .commError
  · -- the parse stops
    rw [if_pos htype, Does, Fine]
    by_cases haccepts : Accepts s r
    · rw [if_pos haccepts, if_pos haccepts]
      exact iff_of_false (fun h => absurd h.2.1 (by simp)) fun h => h.1 htype
    · rw [if_neg haccepts, if_neg haccepts]
      exact iff_of_true ⟨rfl, by simp, fun _ => rfl⟩ ⟨hinternal, hfound, .inl htype⟩
  rw [if_neg htype]
  cases hpipe : pipe e s.fds with
  | none =>
    -- there is no pipe, and nothing happens
    have hdescriptors : ¬ Descriptors e s := by simp [Descriptors, hpipe]
    rw [linkNode_of_none hpipe, Does, Fine]
    by_cases haccepts : Accepts s r
    · rw [if_pos haccepts, if_pos haccepts]
      refine iff_of_false ?_ fun h => hdescriptors (h.2.2 hinternal)
      rintro ⟨-, -, type, i, o, -, -, -, hlinks⟩
      have hjoint := hlinks a
      rw [joints_nodes ha hb, if_pos rfl, List.self_eq_append_right] at hjoint
      exact absurd hjoint (by simp)
    · rw [if_neg haccepts, if_neg haccepts]
      exact iff_of_true ⟨rfl, by simp [hparsing], fun _ => rfl⟩
        ⟨hinternal, hfound, .inr hdescriptors⟩
  | some made =>
    have hdescriptors : Descriptors e s := by simp [Descriptors, hpipe]
    refine (does_linkNode hparsing ha hb htype hpipe).trans ?_
    rw [Fine]
    by_cases haccepts : Accepts s r
    · rw [if_pos haccepts]
      exact iff_of_true haccepts ⟨htype, hi2, fun _ => hdescriptors⟩
    · rw [if_neg haccepts]
      exact iff_of_false haccepts fun h => h.2.2.elim htype fun hnot => hnot hdescriptors

theorem does_relationshipAction (r : Relationship) (hparsing : s.status = .parsing) :
    Does e s (relationshipAction e s r) (.relationship r) ↔ Fine e s (.relationship r) := by
  have hsource : r.source = .bench → ¬ r.Internal := fun h hinternal => hinternal.1 h
  have htarget : r.target = .bench → ¬ r.Internal := fun h hinternal => hinternal.2 h
  cases r with
  | benchVar arrow b =>
    exact does_benchAction (r := .benchVar arrow b) (k := 0) hparsing (hsource rfl) rfl
      (fun _ _ => rfl) (iff_of_false not_false (by decide))
  | benchRep arrow b =>
    refine does_benchAction (r := .benchRep arrow b) (k := b.index) hparsing (hsource rfl) rfl
      (fun _ _ => rfl) ?_
    cases b with
    | vote name => exact iff_of_false not_false (by simp [RepName.index])
    | i2 name => exact iff_of_true trivial (by simp [RepName.index])
  | varBench a arrow =>
    exact does_benchAction (r := .varBench a arrow) (k := 0) hparsing (htarget rfl) rfl
      (fun _ _ => List.append_nil _) (iff_of_false not_false (by decide))
  | repBench a arrow =>
    refine does_benchAction (r := .repBench a arrow) (k := a.index) hparsing (htarget rfl) rfl
      (fun _ _ => List.append_nil _) ?_
    cases a with
    | vote name => exact iff_of_false not_false (by simp [RepName.index])
    | i2 name => exact iff_of_true trivial (by simp [RepName.index])
  | varVar a arrow b =>
    exact does_nodeAction (r := .varVar a arrow b) hparsing rfl rfl not_false
  | repRep a arrow b => exact does_nodeAction (r := .repRep a arrow b) hparsing rfl rfl not_false
  | varRep a arrow b => exact does_nodeAction (r := .varRep a arrow b) hparsing rfl rfl not_false
  | repVar a arrow b => exact does_nodeAction (r := .repVar a arrow b) hparsing rfl rfl not_false

/-- **One line.** It is reached and does what it is to do if and only if it meets the condition. -/
theorem obeys_iff (line : Line) : Obeys e s line ↔ s.status = .parsing ∧ Fine e s line := by
  by_cases hparsing : s.status = .parsing
  · have hstep : Obeys e s line ↔ Does e s (lineAction e s line) line := by
      simp only [Obeys, step, if_pos hparsing, Option.mem_def, Option.some.injEq, exists_eq_left']
    rw [hstep, and_iff_right hparsing]
    cases line with
    | relationship r => exact does_relationshipAction r hparsing
    | declaration d => exact does_addAction d hparsing
    | empty => exact iff_of_true rfl trivial
  · refine iff_of_false ?_ fun h => hparsing h.1
    rintro ⟨t, ht, -⟩
    rw [step, if_neg hparsing] at ht
    exact Option.not_mem_none t ht

/-! ### Configs -/

theorem allSteps_obeys_iff (config : List Line) :
    AllSteps (step e) (Obeys e) config s ↔
      AllSteps (step e) (fun s line => s.status = .parsing ∧ Fine e s line) config s := by
  have hobeys : Obeys e = fun s line => s.status = .parsing ∧ Fine e s line :=
    funext₂ fun s line => propext (obeys_iff line)
  rw [hobeys]

def Line.relationships : Line → List Relationship
  | .relationship r => [r]
  | _ => []

def Line.declarations : Line → List Declaration
  | .declaration d => [d]
  | _ => []

/-- The condition on a line, and that it is to be applied. -/
def Applies (e : Setup) (s : State) (line : Line) : Prop :=
  s.status = .parsing ∧ Fine e s line ∧ ∀ r ∈ line.relationships, Accepts s r

instance (e : Setup) (s : State) (line : Line) : Decidable (Applies e s line) :=
  inferInstanceAs (Decidable (_ ∧ _ ∧ ∀ r ∈ line.relationships, Accepts s r))

/-- A link of the graph. -/
structure Link where
  relationship : Relationship
  type : CommMessage
  readEnd : ℤ
  writeEnd : ℤ

/-- The pipes it gives to a component. -/
def Link.joints (l : Link) (name : Text) : List Joint :=
  l.relationship.joints l.type l.readEnd l.writeEnd name

/-- The descriptors that were made for it. -/
def Link.made (l : Link) : List ℤ :=
  if l.relationship.Internal then [l.readEnd, l.writeEnd] else []

/-- The links are those of the config, in the order of its lines, of its types, each with the
descriptor that Bench gave or with the two ends of a pipe of its own. -/
structure Described (e : Setup) (fds : List ℕ) (config : List Line) (links : List Link) : Prop where
  relationships : links.map Link.relationship = config.flatMap Line.relationships
  types : ∀ l ∈ links, l.type ≠ .commError ∧ messageT l.type = l.relationship.type
  bench : ∀ l ∈ links, (l.relationship.source = .bench → l.readEnd = e.dataIn) ∧
    (l.relationship.target = .bench → l.writeEnd = e.cmdOut)
  distinct : (links.flatMap Link.made).Nodup
  fresh : ∀ fd ∈ fds, (fd : ℤ) ∉ links.flatMap Link.made

/-- What is open stays open. -/
theorem fds_subset_step {line : Line} (ht : t ∈ step e s line) : s.fds ⊆ t.fds := by
  have hbench : ∀ name arrow fdIn fdOut timed,
      s.fds ⊆ (benchAction s name arrow fdIn fdOut timed).fds := by
    intro name arrow fdIn fdOut timed
    rw [benchAction]
    split <;> exact List.Subset.refl _
  have hnode : ∀ a aTimed arrow b bTimed, s.fds ⊆ (nodeAction e s a aTimed arrow b bTimed).fds := by
    intro a aTimed arrow b bTimed
    simp only [nodeAction]
    split
    · exact List.Subset.refl _
    split
    · exact List.Subset.refl _
    split
    · rename_i nodes fds hlink
      rw [linkNode] at hlink
      split at hlink
      · rw [Option.some.injEq, Prod.mk.injEq] at hlink
        exact hlink.2 ▸ List.Subset.refl _
      · rename_i ends fds' hpipe
        obtain ⟨between, -, hstore⟩ := Option.bind_eq_some_iff.mp hlink
        obtain ⟨last, -, heq⟩ := Option.map_eq_some_iff.mp hstore
        rw [Prod.mk.injEq] at heq
        exact heq.2 ▸ (pipe_spec hpipe).2.2.2.2.2
    · exact List.Subset.refl _
  rw [step, Option.mem_def, Option.ite_none_right_eq_some, Option.some.injEq] at ht
  obtain ⟨-, rfl⟩ := ht
  cases line with
  | relationship r =>
    cases r with
    | benchVar | benchRep | varBench | repBench => exact hbench ..
    | varVar | repRep | varRep | repVar => exact hnode ..
  | declaration d =>
    simp only [lineAction, addAction]
    split <;> exact List.Subset.refl _
  | empty => exact List.Subset.refl _

theorem length_pipesOf_le (nodes : List Node) (name : Text) :
    (pipesOf nodes name).length ≤ pipeLimit := by
  induction nodes with
  | nil => exact Nat.zero_le _
  | cons n nodes ih =>
    rw [pipesOf]
    split
    · exact n.length_le
    · exact ih

theorem Described.skip {line : Line} {config : List Line} {links : List Link}
    (h : Described e t.fds config links) (hline : line.relationships = []) (hfds : s.fds ⊆ t.fds) :
    Described e s.fds (line :: config) links := by
  refine ⟨?_, h.types, h.bench, h.distinct, fun fd hfd => h.fresh fd (hfds hfd)⟩
  rw [List.flatMap_cons, hline, List.nil_append]
  exact h.relationships

theorem Described.cons {config : List Line} {links : List Link} (h : Described e t.fds config links)
    (hfds : s.fds ⊆ t.fds) (htype : type ≠ .commError) (hname : messageT type = r.type)
    (hends : FreshEnds e s t r readEnd writeEnd) :
    Described e s.fds (.relationship r :: config) (⟨r, type, readEnd, writeEnd⟩ :: links) := by
  obtain ⟨hsource, htarget, hmade⟩ := hends
  -- the ends are new, and the later links do not have them
  have hnew : (Link.mk r type readEnd writeEnd).made.Nodup ∧
      (∀ x ∈ (Link.mk r type readEnd writeEnd).made, x ∉ links.flatMap Link.made) ∧
      ∀ fd ∈ s.fds, (fd : ℤ) ∉ (Link.mk r type readEnd writeEnd).made := by
    rw [Link.made]
    split
    · rename_i hinternal
      obtain ⟨i, o, rfl, rfl, hne, hi, ho, hi', ho'⟩ := hmade hinternal
      refine ⟨by simpa using hne, fun x hx => ?_, fun fd hfd => ?_⟩
      · rw [List.mem_cons, List.mem_singleton] at hx
        rcases hx with rfl | rfl
        · exact h.fresh i hi'
        · exact h.fresh o ho'
      · rw [List.mem_cons, List.mem_singleton, not_or, Nat.cast_inj, Nat.cast_inj]
        exact ⟨fun heq => hi (heq ▸ hfd), fun heq => ho (heq ▸ hfd)⟩
    · exact ⟨List.nodup_nil, fun x hx => absurd hx List.not_mem_nil, fun _ _ => List.not_mem_nil⟩
  refine ⟨congrArg (r :: ·) h.relationships, ?_, ?_, ?_, fun fd hfd => ?_⟩
  · exact List.forall_mem_cons.mpr ⟨⟨htype, hname⟩, h.types⟩
  · exact List.forall_mem_cons.mpr ⟨⟨hsource, htarget⟩, h.bench⟩
  · exact hnew.1.append h.distinct hnew.2.1
  · rw [List.flatMap_cons, List.mem_append, not_or]
    exact ⟨hnew.2.2 fd hfd, h.fresh fd (hfds hfd)⟩

/-- **The graph.** Where every line is to be applied and meets the condition, the parse comes to
its end, and the nodes are those of the graph. -/
theorem described_of_applies {config : List Line} (hparsing : s.status = .parsing)
    (hall : AllSteps (step e) (Applies e) config s) :
    ∃ t ∈ run (step e) config s, t.status = .parsing ∧
      t.components = (config.flatMap Line.declarations).foldl declare s.components ∧
      ∃ links, Described e s.fds config links ∧
        ∀ name, pipesOf t.nodes name =
          pipesOf s.nodes name ++ links.flatMap fun l => l.joints name := by
  induction config generalizing s with
  | nil =>
    exact ⟨s, rfl, hparsing, rfl, [], ⟨rfl, by simp, by simp, List.nodup_nil, by simp⟩,
      fun _ => (List.append_nil _).symm⟩
  | cons line config ih =>
    obtain ⟨⟨-, hfine, haccepts⟩, hrest⟩ := hall
    obtain ⟨u, hstep, hdoes⟩ := (obeys_iff line).mpr ⟨hparsing, hfine⟩
    have hfds := fds_subset_step hstep
    have hrun : ∀ t, t ∈ run (step e) config u → t ∈ run (step e) (line :: config) s := by
      intro t ht
      rw [run_cons, Option.mem_def.mp hstep]
      exact ht
    cases line with
    | relationship r =>
      obtain ⟨hcomponents, hlinks⟩ := hdoes
      rw [if_pos (haccepts r (List.mem_singleton.mpr rfl))] at hlinks
      obtain ⟨hstatus, type, i, o, htype, hname, hends, hpipes⟩ := hlinks
      obtain ⟨t, ht, hend, hdeclared, links, hdescribed, hjoints⟩ := ih hstatus (hrest u hstep)
      refine ⟨t, hrun t ht, hend, hcomponents ▸ hdeclared, _,
        hdescribed.cons hfds htype hname hends, fun name => ?_⟩
      rw [hjoints, hpipes, List.append_assoc, List.flatMap_cons]
      rfl
    | declaration d =>
      obtain ⟨hstatus, hcomponents, hpipes⟩ := hdoes
      obtain ⟨t, ht, hend, hdeclared, links, hdescribed, hjoints⟩ := ih hstatus (hrest u hstep)
      refine ⟨t, hrun t ht, hend, ?_, links, hdescribed.skip rfl hfds, fun name => ?_⟩
      · rw [hdeclared, hcomponents]
        rfl
      · rw [hjoints, hpipes]
    | empty =>
      obtain rfl : u = s := hdoes
      obtain ⟨t, ht, hend, hdeclared, links, hdescribed, hjoints⟩ := ih hparsing (hrest u hstep)
      exact ⟨t, hrun t ht, hend, hdeclared, links, hdescribed.skip rfl hfds, hjoints⟩

/-- **What the plumber builds.** Every line of a config does what it is to do, or is rejected, if
and only if every line meets the condition; and where all of them are to be applied, the nodes are
those of the graph: the first declarations, each with the pipes of its links in the order of the
lines. -/
theorem builds_iff (e : Setup) (fds : List ℕ) (config : List Line) :
    (AllSteps (step e) (Obeys e) config (start fds) ↔
      AllSteps (step e) (fun s line => s.status = .parsing ∧ Fine e s line) config (start fds)) ∧
    (AllSteps (step e) (Applies e) config (start fds) →
      ∃ t ∈ run (step e) config (start fds), t.status = .parsing ∧
        t.components = (config.flatMap Line.declarations).foldl declare [] ∧
        ∃ links, Described e fds config links ∧
          ∀ name, pipesOf t.nodes name = links.flatMap (fun l => l.joints name) ∧
            (pipesOf t.nodes name).length ≤ pipeLimit) := by
  refine ⟨allSteps_obeys_iff config, fun hall => ?_⟩
  obtain ⟨t, ht, hend, hdeclared, links, hdescribed, hjoints⟩ := described_of_applies rfl hall
  exact ⟨t, ht, hend, hdeclared, links, hdescribed,
    fun name => ⟨hjoints name, length_pipesOf_le t.nodes name⟩⟩

/-- The plumber of Bench on memory in which `malloc` leaves `mark` in list cells, with blocks of 24,
40, 56 bytes and so on. -/
def setup (mark : Pointer) : Setup where
  dataIn := 3
  cmdOut := 4
  current _ := mark
  usable n := max 24 ((n + 23) / 16 * 16 - 8)
  openMax := 1024

/-- A logger, and a filter under a voter. -/
def components : List Line :=
  [.declaration (.plain (cString "log") (cString "Logger") (cString "20")),
    .declaration (.voted (cString "phil") (cString "VoterR") (cString "Filter") .tmr
      (cString "400") (cString "80"))]

/-- `Bench --RANGE_POSE_DATA-> (phil)` and `phil --RANGE_POSE_DATA-> log`. -/
def filterConfig : List Line :=
  components ++
    [.relationship (.benchRep (cString "RANGE_POSE_DATA") (.vote (cString "phil"))), .empty,
      .relationship (.varVar (cString "phil") (cString "RANGE_POSE_DATA") (cString "log"))]

theorem builds_filterConfig :
    AllSteps (step (setup .null)) (Obeys (setup .null)) filterConfig (start (List.range 5)) ∧
    ∃ t ∈ run (step (setup .null)) filterConfig (start (List.range 5)), t.status = .parsing := by
  obtain ⟨hobeys, hgraph⟩ := builds_iff (setup .null) (List.range 5) filterConfig
  refine ⟨hobeys.mpr (by decide +kernel), ?_⟩
  obtain ⟨t, ht, hend, -⟩ := hgraph (by decide +kernel)
  exact ⟨t, ht, hend⟩

/-- On memory that is not zero, the second declaration follows a stray pointer. A link between Bench
and `[phil]` is timed 1. The eleventh pipe of a node and a component that is not declared are
written to. -/
theorem not_builds :
    ((follow (step (setup .stray)) components (start (List.range 5))).status = .undefined ∧
      ¬ AllSteps (step (setup .stray)) (Obeys (setup .stray)) components (start (List.range 5))) ∧
    ∀ lines ∈ [[Line.relationship (.benchRep (cString "RANGE_POSE_DATA") (.i2 (cString "phil")))],
        List.replicate 11 (.relationship (.benchVar (cString "RANGE_POSE_DATA") (cString "log"))),
        [.relationship (.benchVar (cString "RANGE_POSE_DATA") (cString "map"))]],
      ¬ AllSteps (step (setup .null)) (Obeys (setup .null)) (components ++ lines)
        (start (List.range 5)) := by
  refine ⟨⟨by decide +kernel, fun h => ?_⟩, fun lines hlines h => ?_⟩
  · revert h
    rw [allSteps_obeys_iff]
    decide +kernel
  · rw [allSteps_obeys_iff] at h
    revert lines
    decide +kernel

end S3RES.Plumber
