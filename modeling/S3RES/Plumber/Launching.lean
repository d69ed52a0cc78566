import S3RES.Plumber.Graph
import S3RES.Plumber.Parsing
import S3RES.PipeArguments

/-!
# What the plumber starts

`main` of `plumber/pb.y`, which parses the config file and goes on to `launch_node` whatever
`yyparse` has returned: after a syntax error and after an unknown message type the components that
are there by then are started. Only where an action follows the `NULL` that `get_node` returns,
the plumber is killed before.

`Promised` says of one run of the plumber that a bad config starts nothing, and that the components
are launched when all lines have been applied, each of them once. `promised_iff` is the condition
for it.
-/

namespace S3RES.Plumber

open StepSystem

/-! ### The end of the parse -/

/-- The action follows a `NULL` that `get_node` has returned: at once if Bench is at the other end,
else when there is a pipe to be stored. -/
def Relationship.kills (e : Setup) (s : State) (r : Relationship) : Bool :=
  match r.names with
  | [name] => getNode s.nodes s.current name = .null
  | [a, b] =>
    let nodeA := getNode s.nodes s.current a
    let nodeB := getNode s.nodes s.current b
    nodeA ≠ .stray && nodeB ≠ .stray && commToEnum r.type ≠ .commError && (pipe e s.fds).isSome &&
      (nodeA = .null || nodeB = .null && (pipesOf s.nodes a).length < pipeLimit)
  | _ => false

def Line.kills (e : Setup) (s : State) : Line → Bool
  | .relationship r => r.kills e s
  | .declaration _ | .empty => false

/-- How `yyparse` ends: it returns, by itself or by an action, or the plumber is killed. -/
inductive Parsed
  | returned (s : State)
  | killed
  | undefined

/-- The actions of `yyparse`. -/
def yyparse (e : Setup) (s : State) : List Line → Parsed
  | [] => .returned s
  | line :: lines =>
    if line.kills e s then .killed
    else
      match (lineAction e s line).status with
      | .parsing => yyparse e (lineAction e s line) lines
      | .returned => .returned (lineAction e s line)
      | .undefined => .undefined

/-! ### `launch_node` -/

/-- Whether the `i`th `fork` succeeds, and an `execv` with these arguments, and what `malloc`
returns for the text of a pipe. -/
structure Kernel where
  fork : ℕ → Bool
  execv : List Text → Bool
  memory : ℤ → UInt8

/-- `REP_TYPE_T`. -/
def repTypeT : ReplicationT → Text
  | .none => cString "NONE"
  | .smr => cString "SMR"
  | .dmr => cString "DMR"
  | .tmr => cString "TMR"
  | .repTypeError => cString "REP_TYPE_ERROR"

/-- `rep_argv`, without the `NULL` at its end, unless `serializePipe` writes behind its block. -/
def Node.repArgv (k : Kernel) (n : Node) : Option (List Text) :=
  if ∀ joint ∈ n.pipes, (serializePipe k.memory joint.pipe).inBounds then
    some (if n.repStrat = .none then
      [n.value, n.priority, decimal n.pipes.length] ++
        n.pipes.map fun joint => (serializePipe k.memory joint.pipe).block.takeWhile (· ≠ 0)
    else
      [n.voterName.getD [], n.value, repTypeT n.repStrat, n.voterTimer.getD [], n.priority] ++
        n.pipes.map fun joint => launchArg k.memory joint.pipe joint.timed)
  else none

/-- `launch_node`, from the node with index `i` on: the nodes that are started. A child whose
`execv` fails returns to `main`; after a `fork` that fails there is no other. -/
def launchNode (k : Kernel) (current : Pointer) : ℕ → List Node → Option (List Node)
  | _, [] => if current = .null then some [] else none
  | i, n :: nodes =>
    (n.repArgv k).bind fun repArgv =>
      if k.fork i then
        (launchNode k current (i + 1) nodes).map fun started =>
          if k.execv repArgv then n :: started else started
      else some []

/-- How the plumber ends. -/
inductive Outcome
  | launched (started : List Node)
  | killed
  | undefined

/-- `main`, with the config file; what `yyparse` returns is not looked at. -/
def main (e : Setup) (k : Kernel) (fds : List ℕ) (file : Text) : Outcome :=
  match yyparse e (Plumber.start fds) (parse (lex file)).1 with
  | .returned s =>
    match launchNode k s.current 0 s.nodes with
    | some started => .launched started
    | none => .undefined
  | .killed => .killed
  | .undefined => .undefined

/-! ### What is promised -/

/-- No component is started. -/
def Outcome.StartsNothing : Outcome → Prop
  | .launched started => started = []
  | .killed => True
  | .undefined => False

/-- The components that lines declare. -/
def declaredComponents (lines : List Line) : List Component :=
  (lines.flatMap Line.declarations).map Declaration.component

/-- A syntax error, an unknown message type on any line, or a relationship that names a component
that no line before it declares. -/
def Bad (config : List Line × Bool) : Prop :=
  config.2 = false ∨
    (∃ r ∈ config.1.flatMap Line.relationships, commToEnum r.type = .commError) ∨
      ∃ before r after, config.1 = before ++ .relationship r :: after ∧
        ∃ name ∈ r.names, name ∉ (declaredComponents before).map Component.name

/-- The types of the pipes of a component. -/
def typesOf (s : State) (name : Text) : List CommMessage :=
  (pipesOf s.nodes name).map fun joint => joint.pipe.type

/-- What a line that is applied does: it adds a component, or to each component that it names a
pipe of its type. -/
def Applied (s t : State) : Line → Prop
  | .empty => True
  | .declaration d => t.components = s.components ++ [d.component]
  | .relationship r =>
    t.components = s.components ∧ ∃ type, type ≠ .commError ∧ messageT type = r.type ∧
      ∀ name, typesOf t name = typesOf s name ++ List.replicate (r.names.count name) type

/-- The parser goes over the line and applies it. -/
def Goes (e : Setup) (s : State) (line : Line) : Prop :=
  ∃ t ∈ step e s line, t.status = .parsing ∧ Applied s t line

/-- Every line has been parsed and applied. -/
def AllApplied (e : Setup) (fds : List ℕ) (config : List Line × Bool) : Prop :=
  config.2 = true ∧ AllSteps (step e) (Goes e) config.1 (Plumber.start fds)

/-- A bad config starts nothing, `launch_node` runs only when every line has been parsed and
applied, and then every declared component is started exactly once. -/
structure Promised (e : Setup) (k : Kernel) (fds : List ℕ) (file : Text) : Prop where
  bad : Bad (parse (lex file)) → (main e k fds file).StartsNothing
  applied : main e k fds file ≠ .killed → AllApplied e fds (parse (lex file))
  starts : AllApplied e fds (parse (lex file)) → ∃ started, main e k fds file = .launched started ∧
    started.map Node.toComponent = declaredComponents (parse (lex file)).1 ∧
      (started.map fun n => n.name).Nodup

/-! ### The condition -/

/-- The condition on a line that is to be applied. -/
def Applicable (e : Setup) (s : State) : Line → Prop
  | .empty => True
  | .declaration d => d.component.name ∉ s.names ∧ s.current = .null ∧ d.component.Fits e
  | .relationship r =>
    Accepts s r ∧ commToEnum r.type ≠ .commError ∧ (r.Internal → Descriptors e s)

/-- The condition for the parser to go on behind the line. -/
def Passable (e : Setup) (s : State) : Line → Prop
  | .empty => True
  | .declaration d => d.component.name ∈ s.names ∨ s.current = .null ∧ d.component.Fits e
  | .relationship r =>
    if r.Internal then
      (s.current = .null ∨ ∀ name ∈ r.names, name ∈ s.names) ∧
        commToEnum r.type ≠ .commError ∧ (Descriptors e s → Accepts s r)
    else Accepts s r

/-- The `i`th node can be started. -/
def Starts (k : Kernel) (i : ℕ) (n : Node) : Prop :=
  k.fork i ∧ ∃ repArgv ∈ n.repArgv k, k.execv repArgv

/-- Nothing hinders `launch_node`. -/
def Launchable (k : Kernel) (t : State) : Prop :=
  t.current = .null ∧ ∀ i n, t.nodes[i]? = some n → Starts k i n

/-- The file has no syntax error, every line can be applied, and all that is there then can be
started. -/
def Whole (e : Setup) (k : Kernel) (fds : List ℕ) (config : List Line × Bool) : Prop :=
  config.2 = true ∧ AllSteps (step e) (Applicable e) config.1 (Plumber.start fds) ∧
    ∃ t ∈ run (step e) config.1 (Plumber.start fds), Launchable k t

/-- A line kills the plumber, behind lines that the parser goes over. -/
def Stopped (e : Setup) (fds : List ℕ) (lines : List Line) : Prop :=
  ∃ before line after s, lines = before ++ line :: after ∧
    AllSteps (step e) (Passable e) before (Plumber.start fds) ∧
      s ∈ run (step e) before (Plumber.start fds) ∧ line.kills e s

/-! ### One relationship -/

variable {e : Setup} {s t u : State} {r : Relationship} {line : Line} {lines : List Line}
  {name : Text}

/-- What the action of a relationship can do. -/
inductive RelationshipCase (e : Setup) (s : State) (r : Relationship) (t : State) : Prop
  /-- A stray pointer is followed. -/
  | stray (hinternal : r.Internal)
      (hstray : ¬ (s.current = .null ∨ ∀ name ∈ r.names, name ∈ s.names))
      (ht : t = { s with status := .undefined })
  /-- The message type is not known. -/
  | unknown (hinternal : r.Internal) (htype : commToEnum r.type = .commError)
      (ht : t = { s with status := .returned })
  /-- There are no descriptors left. -/
  | noPipe (hinternal : r.Internal)
      (hfound : s.current = .null ∨ ∀ name ∈ r.names, name ∈ s.names)
      (htype : commToEnum r.type ≠ .commError) (hpipe : ¬ Descriptors e s) (ht : t = s)
  /-- The pipes are stored. -/
  | linked (hknown : r.Internal → commToEnum r.type ≠ .commError ∧ Descriptors e s)
      (haccepts : Accepts s r) (hstatus : t.status = s.status) (hcurrent : t.current = s.current)
      (hcomponents : t.components = s.components)
      (htypes : ∀ name, typesOf t name =
        typesOf s name ++ List.replicate (r.names.count name) (commToEnum r.type))
  /-- A pipe is stored in a node that is not there, or that has no room for it. -/
  | overrun (hknown : r.Internal → Descriptors e s) (haccepts : ¬ Accepts s r)
      (ht : t = { s with status := .undefined })

theorem benchAction_cases {fdIn fdOut : ℤ} {timed : Bool} (hr : ¬ r.Internal)
    (hnames : r.names = [name]) :
    RelationshipCase e s r (benchAction s name r.type fdIn fdOut timed) := by
  have haccepts : Accepts s r ↔ Room s.nodes name := by
    simp only [Accepts, hnames, List.mem_singleton, forall_eq, List.count_singleton_self]
    rfl
  rw [benchAction, linkBench]
  by_cases hroom : Room s.nodes name
  · have hsome : (store s.nodes (getNode s.nodes s.current name)
        ⟨⟨commToEnum r.type, fdIn, fdOut⟩, timed.toNat⟩).isSome := store_isSome_iff.mpr hroom
    obtain ⟨nodes, hstore⟩ := Option.isSome_iff_exists.mp hsome
    obtain ⟨hcomponents, hpipes⟩ := appended_store hstore
    rw [hstore]
    refine .linked (fun h => absurd h hr) (haccepts.mpr hroom) rfl rfl hcomponents fun n => ?_
    rw [typesOf, hpipes, List.map_append, typesOf, hnames, List.count_singleton]
    by_cases hn : name = n <;> simp [hn]
  · rw [store_eq_none hroom]
    exact .overrun (fun h => absurd h hr) (mt haccepts.mp hroom) rfl

theorem nodeAction_cases {a b : Text} {aTimed bTimed : ℕ} (hr : r.Internal)
    (hnames : r.names = [a, b]) :
    RelationshipCase e s r (nodeAction e s a aTimed r.type b bTimed) := by
  have hstray := getNode_stray_iff (s := s) hnames
  rw [nodeAction]
  by_cases hfound : s.current = .null ∨ ∀ name ∈ r.names, name ∈ s.names
  swap
  · rw [if_pos (hstray.mpr hfound)]
    exact .stray hr hfound rfl
  rw [if_neg (mt hstray.mp (not_not.mpr hfound))]
  by_cases htype : commToEnum r.type = .commError
  · rw [if_pos htype]
    exact .unknown hr htype rfl
  rw [if_neg htype]
  cases hpipe : pipe e s.fds with
  | none =>
    rw [linkNode_of_none hpipe]
    exact .noPipe hr hfound htype (by simp [Descriptors, hpipe]) rfl
  | some made =>
    obtain ⟨ends, fds⟩ := made
    have hdescriptors : Descriptors e s := by simp [Descriptors, hpipe]
    rw [linkNode_of_some hpipe]
    by_cases haccepts : Accepts s r
    · have hsome : ((store s.nodes (getNode s.nodes s.current a)
          ⟨⟨commToEnum r.type, 0, ends.2⟩, aTimed⟩).bind fun nodes => store nodes
            (getNode s.nodes s.current b) ⟨⟨commToEnum r.type, ends.1, 0⟩, bTimed⟩).isSome :=
        stores_isSome_iff.mpr ((accepts_iff hnames).mp haccepts)
      obtain ⟨nodes, hstores⟩ := Option.isSome_iff_exists.mp hsome
      obtain ⟨hcomponents, hpipes⟩ := linked_stores hstores
      rw [hstores, Option.map_some]
      refine .linked (fun _ => ⟨htype, hdescriptors⟩) haccepts rfl rfl hcomponents fun n => ?_
      rw [typesOf, hpipes, List.map_append, typesOf, hnames]
      by_cases ha : a = n <;> by_cases hb : b = n <;> simp [ha, hb]
    · have hnone : ((store s.nodes (getNode s.nodes s.current a)
          ⟨⟨commToEnum r.type, 0, ends.2⟩, aTimed⟩).bind fun nodes => store nodes
            (getNode s.nodes s.current b) ⟨⟨commToEnum r.type, ends.1, 0⟩, bTimed⟩) = none :=
        Option.not_isSome_iff_eq_none.mp
          (mt stores_isSome_iff.mp (mt (accepts_iff hnames).mpr haccepts))
      rw [hnone, Option.map_none]
      exact .overrun (fun _ => hdescriptors) haccepts rfl

/-- **What a relationship does.** -/
theorem relationshipAction_cases (e : Setup) (s : State) (r : Relationship) :
    RelationshipCase e s r (relationshipAction e s r) := by
  have hsource : r.source = .bench → ¬ r.Internal := fun h hinternal => hinternal.1 h
  have htarget : r.target = .bench → ¬ r.Internal := fun h hinternal => hinternal.2 h
  cases r with
  | benchVar | benchRep => exact benchAction_cases (hsource rfl) rfl
  | varBench | repBench => exact benchAction_cases (htarget rfl) rfl
  | varVar | repRep | varRep | repVar =>
    exact nodeAction_cases ⟨End.noConfusion, End.noConfusion⟩ rfl

/-! ### One line -/

theorem getNode_eq_null_iff {nodes : List Node} {current : Pointer} :
    getNode nodes current name = .null ↔
      name ∉ nodes.map (fun n => n.name) ∧ current = .null := by
  induction nodes with
  | nil => cases current <;> simp [getNode]
  | cons n nodes ih =>
    rw [getNode]
    split
    · rename_i hname
      simp [hname]
    · rename_i hname
      have hnext : (getNode nodes current name).next = .null ↔
          getNode nodes current name = .null := by
        cases getNode nodes current name <;> simp [NodePointer.next]
      rw [hnext, ih]
      simp [hname]

theorem Relationship.names_ne_nil (r : Relationship) : r.names ≠ [] := by
  cases r <;> exact List.cons_ne_nil _ _

/-- What kills the plumber is a name that is not declared. -/
theorem not_accepts_of_kills (h : r.kills e s) : ¬ Accepts s r := by
  intro haccepts
  have hdeclared : ∀ name ∈ r.names, getNode s.nodes s.current name ≠ .null :=
    fun name hname hnull => (getNode_eq_null_iff.mp hnull).1 (haccepts name hname).1
  rw [Relationship.kills] at h
  split at h
  · rename_i name hnames
    exact hdeclared name (by simp [hnames]) (of_decide_eq_true h)
  · rename_i a b hnames
    simp only [Bool.and_eq_true, Bool.or_eq_true, decide_eq_true_eq] at h
    rcases h.2 with hnull | ⟨hnull, -⟩
    · exact hdeclared a (by simp [hnames]) hnull
    · exact hdeclared b (by simp [hnames]) hnull
  · exact Bool.false_ne_true h

/-- Between two components it takes a pipe. -/
theorem descriptors_of_kills (h : r.kills e s) (hr : r.Internal) : Descriptors e s := by
  have hnames : ∃ a b, r.names = [a, b] := by
    cases r with
    | benchVar | benchRep => exact absurd rfl hr.1
    | varBench | repBench => exact absurd rfl hr.2
    | varVar | repRep | varRep | repVar => exact ⟨_, _, rfl⟩
  obtain ⟨a, b, hnames⟩ := hnames
  rw [Relationship.kills, hnames] at h
  simp only [Bool.and_eq_true] at h
  exact h.1.2

theorem kills_of_passable (h : Passable e s line) : line.kills e s = false := by
  cases line with
  | declaration | empty => rfl
  | relationship r =>
    refine Bool.eq_false_iff.mpr fun hkills => ?_
    rw [Passable] at h
    split at h
    · rename_i hr
      exact not_accepts_of_kills hkills (h.2.2 (descriptors_of_kills hkills hr))
    · exact not_accepts_of_kills hkills h

theorem Applicable.passable (h : Applicable e s line) : Passable e s line := by
  cases line with
  | empty => trivial
  | declaration d => exact .inr h.2
  | relationship r =>
    obtain ⟨haccepts, htype, -⟩ := h
    rw [Passable]
    split
    · exact ⟨.inr fun name hname => (haccepts name hname).1, htype, fun _ => haccepts⟩
    · exact haccepts

/-- The parser goes on behind a line exactly if the line meets the condition. -/
theorem status_lineAction_iff (hs : s.status = .parsing) :
    (lineAction e s line).status = .parsing ↔ Passable e s line := by
  cases line with
  | empty => exact iff_of_true hs trivial
  | declaration d =>
    rw [lineAction, addAction, addNode_eq, Passable]
    split_ifs with hdeclared hroom
    · exact iff_of_true hs (.inl hdeclared)
    · exact iff_of_true hs (.inr hroom)
    · exact iff_of_false not_false fun h => hroom (h.resolve_left hdeclared)
  | relationship r =>
    rw [lineAction, Passable]
    cases relationshipAction_cases e s r with
    | stray hr hstray ht =>
      rw [ht, if_pos hr]
      exact iff_of_false Status.noConfusion fun h => hstray h.1
    | unknown hr htype ht =>
      rw [ht, if_pos hr]
      exact iff_of_false Status.noConfusion fun h => h.2.1 htype
    | noPipe hr hfound htype hpipe ht =>
      rw [ht, if_pos hr]
      exact iff_of_true hs ⟨hfound, htype, fun h => absurd h hpipe⟩
    | linked hknown haccepts hstatus =>
      refine iff_of_true (hstatus.trans hs) ?_
      split_ifs with hr
      · exact ⟨.inr fun name hname => (haccepts name hname).1, (hknown hr).1, fun _ => haccepts⟩
      · exact haccepts
    | overrun hknown haccepts ht =>
      rw [ht]
      refine iff_of_false Status.noConfusion fun h => haccepts ?_
      split_ifs at h with hr
      · exact h.2.2 (hknown hr)
      · exact h

/-- A line is applied exactly if it is applicable. -/
theorem applied_lineAction_iff (hs : s.status = .parsing) :
    (lineAction e s line).status = .parsing ∧ Applied s (lineAction e s line) line ↔
      Applicable e s line := by
  cases line with
  | empty => exact iff_of_true ⟨hs, trivial⟩ trivial
  | declaration d =>
    rw [lineAction, addAction, addNode_eq, Applicable]
    by_cases hdeclared : d.component.name ∈ s.names
    · have hmem : d.component.name ∈ s.nodes.map fun n => n.name := hdeclared
      rw [if_pos hmem]
      refine iff_of_false (fun h => ?_) fun h => h.1 hdeclared
      have hsame : s.components = s.components ++ [d.component] := h.2
      exact List.cons_ne_nil _ _ (List.self_eq_append_right.mp hsame)
    · have hnotMem : d.component.name ∉ s.nodes.map fun n => n.name := hdeclared
      rw [if_neg hnotMem]
      split_ifs with hroom
      · exact iff_of_true ⟨hs, List.map_append⟩ ⟨hdeclared, hroom⟩
      · exact iff_of_false (fun h => h.1) fun h => hroom h.2
  | relationship r =>
    rw [lineAction, Applicable]
    cases relationshipAction_cases e s r with
    | stray hr hstray ht =>
      rw [ht]
      exact iff_of_false (fun h => Status.noConfusion h.1) fun h =>
        hstray (.inr fun name hname => (h.1 name hname).1)
    | unknown hr htype ht =>
      rw [ht]
      exact iff_of_false (fun h => Status.noConfusion h.1) fun h => h.2.1 htype
    | noPipe hr hfound htype hpipe ht =>
      rw [ht]
      refine iff_of_false ?_ fun h => hpipe (h.2.2 hr)
      rintro ⟨-, -, type, -, -, htypes⟩
      obtain ⟨name, hname⟩ := List.exists_mem_of_ne_nil _ r.names_ne_nil
      have hnil := List.self_eq_append_right.mp (htypes name)
      rw [List.replicate_eq_nil_iff, List.count_eq_zero] at hnil
      exact hnil hname
    | linked hknown haccepts hstatus _ hcomponents htypes =>
      constructor
      · rintro ⟨-, -, type, htype, -, htypes'⟩
        refine ⟨haccepts, fun herror => htype ?_, fun hr => (hknown hr).2⟩
        -- a pipe of an unknown type is not one of the type of the line
        obtain ⟨name, hname⟩ := List.exists_mem_of_ne_nil _ r.names_ne_nil
        have heq := List.append_cancel_left ((htypes' name).symm.trans (htypes name))
        rw [List.replicate_inj] at heq
        exact (heq.2.resolve_left (List.count_pos_iff.mpr hname).ne').trans herror
      · rintro ⟨-, htype, -⟩
        exact ⟨hstatus.trans hs, hcomponents, _, htype, messageT_commToEnum htype, htypes⟩
    | overrun hknown haccepts ht =>
      rw [ht]
      exact iff_of_false (fun h => Status.noConfusion h.1) fun h => haccepts h.1

theorem goes_iff : Goes e s line ↔ s.status = .parsing ∧ Applicable e s line := by
  rw [Goes, step]
  by_cases hs : s.status = .parsing
  · rw [if_pos hs, and_iff_right hs, ← applied_lineAction_iff hs]
    simp only [Option.mem_def, Option.some.injEq, exists_eq_left']
  · rw [if_neg hs]
    refine iff_of_false ?_ fun h => hs h.1
    rintro ⟨t, ht, -⟩
    exact Option.not_mem_none t ht

/-! ### Configs -/

theorem step_of_passable (hs : s.status = .parsing) (h : Passable e s line) :
    ∃ t ∈ step e s line, t.status = .parsing ∧
      ∀ lines, yyparse e s (line :: lines) = yyparse e t lines := by
  have hstatus := (status_lineAction_iff hs).mpr h
  refine ⟨lineAction e s line, if_pos hs, hstatus, fun lines => ?_⟩
  have hkills : ¬ (line.kills e s = true) := Bool.eq_false_iff.mp (kills_of_passable h)
  rw [yyparse, if_neg hkills, hstatus]

/-- The parser goes over lines that meet the condition. -/
theorem yyparse_append (hs : s.status = .parsing) (hall : AllSteps (step e) (Passable e) lines s) :
    ∃ t ∈ run (step e) lines s, t.status = .parsing ∧
      ∀ rest, yyparse e s (lines ++ rest) = yyparse e t rest := by
  induction lines generalizing s with
  | nil => exact ⟨s, rfl, hs, fun _ => rfl⟩
  | cons line lines ih =>
    obtain ⟨t, ht, htparsing, hcons⟩ := step_of_passable hs hall.1
    obtain ⟨u, hu, huparsing, happend⟩ := ih htparsing (hall.2 t ht)
    refine ⟨u, Option.bind_eq_some_iff.mpr ⟨t, ht, hu⟩, huparsing, fun rest => ?_⟩
    rw [List.cons_append, hcons, happend]

/-- **The plumber is killed** where a line does that behind lines that it goes over. -/
theorem yyparse_eq_killed_iff (hs : s.status = .parsing) :
    yyparse e s lines = .killed ↔ ∃ before line after t, lines = before ++ line :: after ∧
      AllSteps (step e) (Passable e) before s ∧ t ∈ run (step e) before s ∧ line.kills e t := by
  constructor
  · intro h
    induction lines generalizing s with
    | nil => cases h
    | cons line lines ih =>
      rw [yyparse] at h
      by_cases hkills : line.kills e s = true
      · exact ⟨[], line, lines, s, rfl, trivial, rfl, hkills⟩
      · rw [if_neg hkills] at h
        cases hstatus : (lineAction e s line).status with
        | returned | undefined =>
          rw [hstatus] at h
          cases h
        | parsing =>
          rw [hstatus] at h
          obtain ⟨before, line', after, t, rfl, hall, ht, hkills'⟩ := ih hstatus h
          have hstep : step e s line = some (lineAction e s line) := if_pos hs
          refine ⟨line :: before, line', after, t, rfl, ⟨(status_lineAction_iff hs).mp hstatus, ?_⟩,
            ?_, hkills'⟩
          · intro u hu
            rw [hstep, Option.mem_some_iff] at hu
            exact hu ▸ hall
          · rw [run_cons, hstep]
            exact ht
  · rintro ⟨before, line, after, t, rfl, hall, ht, hkills⟩
    obtain ⟨u, hu, -, happend⟩ := yyparse_append hs hall
    obtain rfl := Option.mem_unique ht hu
    rw [happend, yyparse, if_pos hkills]

/-- What an applicable line does. -/
theorem step_of_applicable (hs : s.status = .parsing) (h : Applicable e s line) :
    ∃ t ∈ step e s line, t.status = .parsing ∧
      t.components = s.components ++ declaredComponents [line] ∧ (s.names.Nodup → t.names.Nodup) := by
  obtain ⟨hstatus, happlied⟩ := (applied_lineAction_iff hs).mpr h
  refine ⟨lineAction e s line, if_pos hs, hstatus, ?_⟩
  cases line with
  | empty => exact ⟨(List.append_nil _).symm, id⟩
  | declaration d =>
    have hcomponents : (lineAction e s (.declaration d)).components =
        s.components ++ [d.component] := happlied
    refine ⟨hcomponents, fun hnodup => ?_⟩
    rw [← map_name_components, hcomponents, List.map_append, map_name_components]
    exact hnodup.append (List.nodup_singleton _) (List.disjoint_singleton.mpr h.1)
  | relationship r =>
    have hcomponents : (lineAction e s (.relationship r)).components = s.components := happlied.1
    refine ⟨hcomponents.trans (List.append_nil _).symm, fun hnodup => ?_⟩
    rwa [← map_name_components, hcomponents, map_name_components]

theorem run_of_applicable (hs : s.status = .parsing)
    (hall : AllSteps (step e) (Applicable e) lines s) :
    ∃ t ∈ run (step e) lines s, t.status = .parsing ∧
      t.components = s.components ++ declaredComponents lines ∧ (s.names.Nodup → t.names.Nodup) := by
  induction lines generalizing s with
  | nil => exact ⟨s, rfl, hs, (List.append_nil _).symm, id⟩
  | cons line lines ih =>
    obtain ⟨t, ht, htparsing, hcomponents, hnames⟩ := step_of_applicable hs hall.1
    obtain ⟨u, hu, huparsing, hcomponents', hnames'⟩ := ih htparsing (hall.2 t ht)
    refine ⟨u, Option.bind_eq_some_iff.mpr ⟨t, ht, hu⟩, huparsing, ?_, hnames' ∘ hnames⟩
    rw [hcomponents', hcomponents, List.append_assoc, declaredComponents, declaredComponents,
      declaredComponents, ← List.map_append, ← List.flatMap_append, List.singleton_append]

theorem allSteps_goes_iff (hs : s.status = .parsing) :
    AllSteps (step e) (Goes e) lines s ↔ AllSteps (step e) (Applicable e) lines s := by
  induction lines generalizing s with
  | nil => exact Iff.rfl
  | cons line lines ih =>
    rw [AllSteps, AllSteps, goes_iff, and_iff_right hs]
    refine and_congr_right fun h => forall₂_congr fun t ht => ih ?_
    obtain ⟨u, hu, huparsing, -⟩ := step_of_applicable hs h
    exact Option.mem_unique ht hu ▸ huparsing

/-- A config whose lines are all applicable is not bad. -/
theorem not_bad {config : List Line × Bool} {fds : List ℕ} (hok : config.2 = true)
    (hall : AllSteps (step e) (Applicable e) config.1 (Plumber.start fds)) : ¬ Bad config := by
  -- a relationship is reached after the lines before it
  have hreached : ∀ before r after, config.1 = before ++ .relationship r :: after →
      ∃ t, t.components = declaredComponents before ∧ Applicable e t (.relationship r) := by
    intro before r after heq
    rw [heq, allSteps_append] at hall
    obtain ⟨t, ht, -, hcomponents, -⟩ := run_of_applicable rfl hall.1
    exact ⟨t, hcomponents, (hall.2 t ht).1⟩
  rintro (hmistake | ⟨r, hr, htype⟩ | ⟨before, r, after, heq, name, hname, hundeclared⟩)
  · exact Bool.false_ne_true (hmistake.symm.trans hok)
  · obtain ⟨line, hline, hr⟩ := List.mem_flatMap.mp hr
    obtain ⟨before, after, heq⟩ := List.append_of_mem hline
    cases line with
    | declaration | empty => cases hr
    | relationship r' =>
      obtain rfl := List.mem_singleton.mp hr
      obtain ⟨t, -, -, hknown, -⟩ := hreached before r after heq
      exact hknown htype
  · obtain ⟨t, hcomponents, haccepts, -⟩ := hreached before r after heq
    refine hundeclared ?_
    have hmem : name ∈ t.names := (haccepts name hname).1
    rwa [← map_name_components, hcomponents] at hmem

/-! ### `launch_node` -/

variable {k : Kernel} {current : Pointer} {nodes started : List Node} {i : ℕ}

theorem launchNode_eq_self (hcurrent : current = .null)
    (h : ∀ j n, nodes[j]? = some n → Starts k (i + j) n) :
    launchNode k current i nodes = some nodes := by
  induction nodes generalizing i with
  | nil => rw [launchNode, if_pos hcurrent]
  | cons n nodes ih =>
    obtain ⟨hfork, repArgv, hargv, hexecv⟩ := h 0 n rfl
    have hfork' : k.fork i = true := hfork
    have hrest : ∀ j m, nodes[j]? = some m → Starts k (i + 1 + j) m := fun j m hm => by
      have hstarts := h (j + 1) m hm
      rwa [Nat.add_comm j, ← Nat.add_assoc] at hstarts
    rw [launchNode, Option.mem_def.mp hargv, Option.bind_some, if_pos hfork', ih hrest,
      Option.map_some, if_pos hexecv]

/-- All are started only where nothing hinders it. -/
theorem launchNode_eq_some (h : launchNode k current i nodes = some started) :
    started.length ≤ nodes.length ∧ (started.length = nodes.length →
      current = .null ∧ ∀ j n, nodes[j]? = some n → Starts k (i + j) n) := by
  induction nodes generalizing i started with
  | nil =>
    rw [launchNode] at h
    split_ifs at h with hcurrent
    obtain rfl := Option.some.inj h
    exact ⟨le_rfl, fun _ => ⟨hcurrent, fun j n hn => by simp at hn⟩⟩
  | cons n nodes ih =>
    rw [launchNode] at h
    obtain ⟨repArgv, hargv, h⟩ := Option.bind_eq_some_iff.mp h
    split_ifs at h with hfork hexecv
    · obtain ⟨started', hstarted, rfl⟩ := Option.map_eq_some_iff.mp h
      obtain ⟨hle, hall⟩ := ih hstarted
      refine ⟨Nat.succ_le_succ hle, fun hlength => ?_⟩
      obtain ⟨hcurrent, hstarts⟩ := hall (Nat.succ.inj hlength)
      refine ⟨hcurrent, fun j m hm => ?_⟩
      cases j with
      | zero =>
        obtain rfl := Option.some.inj hm
        exact ⟨hfork, repArgv, hargv, hexecv⟩
      | succ j =>
        have hstart := hstarts j m hm
        rwa [Nat.add_assoc, Nat.add_comm 1] at hstart
    · -- the node is missing
      obtain ⟨started', hstarted, rfl⟩ := Option.map_eq_some_iff.mp h
      have hle : started'.length ≤ nodes.length := (ih hstarted).1
      rw [List.length_cons]
      exact ⟨Nat.le_succ_of_le hle, fun hlength => by omega⟩
    · obtain rfl := Option.some.inj h
      exact ⟨Nat.zero_le _, fun hlength => by simp at hlength⟩

/-! ### The plumber -/

theorem main_eq_killed_iff {fds : List ℕ} {file : Text} :
    main e k fds file = .killed ↔ Stopped e fds (parse (lex file)).1 := by
  rw [Stopped, ← yyparse_eq_killed_iff rfl, main]
  cases yyparse e (Plumber.start fds) (parse (lex file)).1 with
  | killed | undefined => simp
  | returned s =>
    cases hlaunch : launchNode k s.current 0 s.nodes <;> simp [hlaunch]

/-- Where all lines are applicable, `launch_node` gets all that they declare. -/
theorem main_of_applicable {fds : List ℕ} {file : Text}
    (hall : AllSteps (step e) (Applicable e) (parse (lex file)).1 (Plumber.start fds)) :
    ∃ t ∈ run (step e) (parse (lex file)).1 (Plumber.start fds),
      t.components = declaredComponents (parse (lex file)).1 ∧ t.names.Nodup ∧
      main e k fds file =
        match launchNode k t.current 0 t.nodes with
        | some started => .launched started
        | none => .undefined := by
  obtain ⟨t, ht, -, hcomponents, hnames⟩ := run_of_applicable rfl hall
  obtain ⟨u, hu, -, happend⟩ := yyparse_append rfl (hall.imp fun _ _ h => h.passable)
  obtain rfl := Option.mem_unique ht hu
  refine ⟨t, ht, hcomponents, hnames List.nodup_nil, ?_⟩
  have hparse := happend []
  rw [List.append_nil] at hparse
  rw [main, hparse, yyparse]

/-- **What the plumber starts.** A bad config starts nothing, `launch_node` runs only when every line
has been applied, and then every component is started once, if and only if the config is without a
syntax error, each of its lines can be applied and what they declare can be started, or a line kills
the plumber. -/
theorem promised_iff (e : Setup) (k : Kernel) (fds : List ℕ) (file : Text) :
    Promised e k fds file ↔
      Whole e k fds (parse (lex file)) ∨ Stopped e fds (parse (lex file)).1 := by
  constructor
  · intro h
    by_cases hkilled : main e k fds file = .killed
    · exact .inr (main_eq_killed_iff.mp hkilled)
    left
    have hgoes := h.applied hkilled
    have hall := (allSteps_goes_iff rfl).mp hgoes.2
    obtain ⟨started, hmain, hstarted, -⟩ := h.starts hgoes
    obtain ⟨t, ht, hcomponents, -, hlaunched⟩ := main_of_applicable (k := k) hall
    refine ⟨hgoes.1, hall, t, ht, ?_⟩
    rw [hmain] at hlaunched
    cases hlaunch : launchNode k t.current 0 t.nodes with
    | none =>
      rw [hlaunch] at hlaunched
      cases hlaunched
    | some started' =>
      rw [hlaunch] at hlaunched
      obtain rfl := Outcome.launched.inj hlaunched
      -- as many are started as there are nodes
      have hlength := congrArg List.length (hstarted.trans hcomponents.symm)
      rw [List.length_map, State.components, List.length_map] at hlength
      obtain ⟨hcurrent, hstarts⟩ := (launchNode_eq_some hlaunch).2 hlength
      exact ⟨hcurrent, fun i n hn => i.zero_add ▸ hstarts i n hn⟩
  · rintro (⟨hok, hall, t, ht, hcurrent, hstarts⟩ | hstopped)
    · obtain ⟨u, hu, hcomponents, hnames, hmain⟩ := main_of_applicable (k := k) hall
      obtain rfl := Option.mem_unique ht hu
      rw [launchNode_eq_self hcurrent fun i n hn => i.zero_add.symm ▸ hstarts i n hn] at hmain
      exact {
        bad hbad := absurd hbad (not_bad hok hall)
        applied _ := ⟨hok, (allSteps_goes_iff rfl).mpr hall⟩
        starts _ := ⟨t.nodes, hmain, hcomponents, hnames⟩ }
    · have hkilled : main e k fds file = .killed := main_eq_killed_iff.mpr hstopped
      refine ⟨fun _ => hkilled ▸ trivial, fun h => absurd hkilled h, fun hgoes => ?_⟩
      -- the line that kills it has not been applied
      obtain ⟨before, line, after, t, heq, -, ht, hkills⟩ := hstopped
      have hsteps := hgoes.2
      rw [heq, allSteps_append] at hsteps
      have happlicable := (goes_iff.mp (hsteps.2 t ht).1).2
      rw [kills_of_passable happlicable.passable] at hkills
      exact absurd hkills Bool.false_ne_true

instance (o : Outcome) : Decidable o.StartsNothing :=
  match o with
  | .launched started => inferInstanceAs (Decidable (started = []))
  | .killed => inferInstanceAs (Decidable True)
  | .undefined => inferInstanceAs (Decidable False)

/-- Every `fork` and every `execv` succeeds. -/
def kernel : Kernel where
  fork _ := true
  execv _ := true
  memory _ := 0

/-- A logger, and a line that is not one. -/
def syntaxError : Text := cString "log := Logger 20\nlog -> log\n"

/-- The type of a pipe is not known. -/
def unknownType : Text := cString "log := Logger 20\nlog --NO_SUCH-> log\n"

/-- The logger of a bad config is started, behind a syntax error and behind an unknown type. -/
theorem not_promised :
    (Bad (parse (lex syntaxError)) ∧
      ¬ (main (setup .null) kernel (List.range 5) syntaxError).StartsNothing) ∧
    (Bad (parse (lex unknownType)) ∧
      ¬ (main (setup .null) kernel (List.range 5) unknownType).StartsNothing) ∧
    ¬ Promised (setup .null) kernel (List.range 5) syntaxError := by
  have hmistake : Bad (parse (lex syntaxError)) := .inl (by decide +kernel)
  have hstarts : ¬ (main (setup .null) kernel (List.range 5) syntaxError).StartsNothing := by
    decide +kernel
  refine ⟨⟨hmistake, hstarts⟩, ⟨.inr (.inl ?_), by decide +kernel⟩,
    fun h => hstarts (h.bad hmistake)⟩
  exact ⟨.varVar (cString "log") (cString "NO_SUCH") (cString "log"), by decide +kernel,
    by decide +kernel⟩

end S3RES.Plumber
