import S3RES.Foundations.StepSystem
import S3RES.CommTypes.SerialPipe
import S3RES.Voter.Replicas

/-!
# The plumber

`plumber/plumbing.c` and the grammar actions of `plumber/pb.y`: a config is read line by line, and
each declaration and each relationship changes the list of nodes. A line is given by the way the
grammar derives it.

The list ends in a cell that `malloc` returned, and its `current` is tested for `NULL` although
nothing sets it. `Setup.current` says what `malloc` leaves there, and `Setup.usable` how much room
its blocks really have: the strings of a node are copied to blocks that are one byte too short.
Where C leaves the behaviour undefined, the state is `undefined`.
-/

namespace S3RES.Plumber

open StepSystem

/-- `PIPE_LIMIT`. -/
def pipeLimit : ℕ := 10

/-- The bytes of a string, without the zero at its end. -/
abbrev Text := List UInt8

/-! ### The grammar -/

/-- `rep_strat`. -/
inductive RepStrat
  | smr
  | dmr
  | tmr
  deriving DecidableEq

def RepStrat.repType : RepStrat → ReplicationT
  | .smr => .smr
  | .dmr => .dmr
  | .tmr => .tmr

/-- `declaration`. -/
inductive Declaration
  /-- `VAR_NAME ASSIGN NAMED_OB NUMBER_VAL`. -/
  | plain (name value priority : Text)
  /-- `VAR_NAME ASSIGN NAMED_OB rep_comp rep_strat DELIM NUMBER_VAL NUMBER_VAL`. -/
  | voted (name voter value : Text) (repStrat : RepStrat) (timer priority : Text)
  deriving DecidableEq

/-- `rep_name`. -/
inductive RepName
  /-- `START_VOTE VAR_NAME END_VOTE`. -/
  | vote (name : Text)
  /-- `START_I2 VAR_NAME END_I2`. -/
  | i2 (name : Text)
  deriving DecidableEq

def RepName.index : RepName → ℕ
  | .vote _ => 1
  | .i2 _ => 2

def RepName.name : RepName → Text
  | .vote name | .i2 name => name

/-- `relationship`, with the message type of its `arrow`. -/
inductive Relationship
  | benchVar (arrow b : Text)
  | benchRep (arrow : Text) (b : RepName)
  | varBench (a arrow : Text)
  | repBench (a : RepName) (arrow : Text)
  | varVar (a arrow b : Text)
  | repRep (a : RepName) (arrow : Text) (b : RepName)
  | varRep (a arrow : Text) (b : RepName)
  | repVar (a : RepName) (arrow b : Text)
  deriving DecidableEq

/-- `line`. -/
inductive Line
  | relationship (r : Relationship)
  | declaration (d : Declaration)
  | empty
  deriving DecidableEq

/-! ### Nodes -/

/-- What `struct node` says of a component. -/
structure Component where
  name : Text
  value : Text
  priority : Text
  repStrat : ReplicationT
  voterName : Option Text
  voterTimer : Option Text
  deriving DecidableEq

/-- `pipes[i]` and `timed[i]` of a node. -/
structure Joint where
  pipe : TypedPipe
  timed : ℕ
  deriving DecidableEq

/-- `struct node`; `pipe_count` is the number of its pipes. -/
structure Node extends Component where
  pipes : List Joint
  length_le : pipes.length ≤ pipeLimit
  deriving DecidableEq

/-- One more pipe; past the end of the arrays there is no such node. -/
def Node.add (n : Node) (joint : Joint) : Option Node :=
  if h : n.pipes.length < pipeLimit then
    some { n with
      pipes := n.pipes ++ [joint]
      length_le := by simpa using h }
  else none

/-- The `current` of a cell behind the nodes. -/
inductive Pointer
  | null
  | stray
  deriving DecidableEq

/-- A `struct node*`. -/
inductive NodePointer
  | node (i : ℕ)
  | null
  | stray
  deriving DecidableEq

/-- What does not depend on the config. -/
structure Setup where
  /-- `data_in.fd_in` and `cmd_out.fd_out`. -/
  dataIn : ℤ
  cmdOut : ℤ
  /-- The `current` of the list cell that is allocated behind the node with this index. -/
  current : ℕ → Pointer
  /-- The room in the block that `malloc` returns for this many bytes. -/
  usable : ℕ → ℕ
  /-- Descriptors are below this number. -/
  openMax : ℕ

inductive Status
  | parsing
  /-- `yyparse` has returned `-1`. -/
  | returned
  | undefined
  deriving DecidableEq

structure State where
  nodes : List Node
  /-- The `current` of the last cell. -/
  current : Pointer
  fds : List ℕ
  status : Status

/-- `all_nodes` is a global, so that its `current` is `NULL`. -/
def start (fds : List ℕ) : State := ⟨[], .null, fds, .parsing⟩

/-! ### The functions of `plumbing.c` -/

/-- The component of a new node. -/
def newComponent (name value : Text) (repType : ReplicationT) (voterName voterTimer : Option Text)
    (priority : Text) : Component where
  name := name
  value := value
  priority := priority
  repStrat := repType
  voterName := if repType ≠ .none then voterName else none
  voterTimer := if repType ≠ .none then voterTimer else none

/-- The strings that are copied. -/
def Component.texts (d : Component) : List Text :=
  [d.name, d.value] ++ d.voterName.toList ++ d.voterTimer.toList ++ [d.priority]

/-- There is room for the zeros behind the strings. -/
def Component.Fits (e : Setup) (d : Component) : Prop :=
  ∀ text ∈ d.texts, text.length < e.usable text.length

instance (e : Setup) (d : Component) : Decidable (d.Fits e) :=
  inferInstanceAs (Decidable (∀ text ∈ d.texts, text.length < e.usable text.length))

/-- A node without pipes. -/
def Component.toNode (d : Component) : Node := ⟨d, [], Nat.zero_le _⟩

/-- `add_node`, from the node with index `k` on: what it returns, the nodes and the `current` of
the last cell. -/
def addNode (e : Setup) (d : Component) :
    ℕ → List Node → Pointer → Option (Bool × List Node × Pointer)
  | k, [], .null => if d.Fits e then some (true, [d.toNode], e.current k) else none
  | _, [], .stray => none
  | k, n :: nodes, current =>
    if d.name = n.name then some (false, n :: nodes, current)
    else (addNode e d (k + 1) nodes current).map fun r => (r.1, n :: r.2.1, r.2.2)

/-- The pointer to the node behind this one. -/
def NodePointer.next : NodePointer → NodePointer
  | .node i => .node (i + 1)
  | .null => .null
  | .stray => .stray

/-- `get_node`; `stray` says that it has followed a stray pointer. -/
def getNode : List Node → Pointer → Text → NodePointer
  | [], .null, _ => .null
  | [], .stray, _ => .stray
  | n :: nodes, current, name =>
    if name = n.name then .node 0 else (getNode nodes current name).next

/-- The next element of `pipes` and `timed`. -/
def store (nodes : List Node) (n : NodePointer) (joint : Joint) : Option (List Node) :=
  match n with
  | .node i => (nodes[i]?.bind (Node.add · joint)).map (nodes.set i)
  | .null | .stray => none

/-- `link_bench`. -/
def linkBench (nodes : List Node) (n : NodePointer) (type : CommMessage) (fdIn fdOut : ℤ)
    (timed : Bool) : Option (List Node) :=
  store nodes n ⟨⟨type, fdIn, fdOut⟩, timed.toNat⟩

/-- `pipe(pipe_fds)`, which fails when there are no descriptors left. -/
def pipe (e : Setup) (fds : List ℕ) : Option ((ℕ × ℕ) × List ℕ) :=
  if (pipeFds fds).1.1 < e.openMax ∧ (pipeFds fds).1.2 < e.openMax then some (pipeFds fds)
  else none

/-- `link_node`: the nodes and the open descriptors. -/
def linkNode (e : Setup) (nodes : List Node) (fds : List ℕ) (type : CommMessage)
    (fromNode : NodePointer) (fromTimed : ℕ) (toNode : NodePointer) (toTimed : ℕ) :
    Option (List Node × List ℕ) :=
  match pipe e fds with
  | none => some (nodes, fds)
  | some (ends, fds) =>
    (store nodes fromNode ⟨⟨type, 0, ends.2⟩, fromTimed⟩).bind fun nodes =>
      (store nodes toNode ⟨⟨type, ends.1, 0⟩, toTimed⟩).map fun nodes => (nodes, fds)

/-! ### The grammar actions -/

/-- `add_node(&all_nodes, ...)`; what it returns is ignored. -/
def addAction (e : Setup) (s : State) (d : Component) : State :=
  match addNode e d 0 s.nodes s.current with
  | some (_, nodes, current) => { s with nodes := nodes, current := current }
  | none => { s with status := .undefined }

/-- The actions with one end at Bench. -/
def benchAction (s : State) (name arrow : Text) (fdIn fdOut : ℤ) (timed : Bool) : State :=
  match linkBench s.nodes (getNode s.nodes s.current name) (commToEnum arrow) fdIn fdOut timed with
  | some nodes => { s with nodes := nodes }
  | none => { s with status := .undefined }

/-- The actions between two components. -/
def nodeAction (e : Setup) (s : State) (a : Text) (aTimed : ℕ) (arrow b : Text) (bTimed : ℕ) :
    State :=
  let nodeA := getNode s.nodes s.current a
  let nodeB := getNode s.nodes s.current b
  if nodeA = .stray ∨ nodeB = .stray then { s with status := .undefined }
  else if commToEnum arrow = .commError then { s with status := .returned }
  else
    match linkNode e s.nodes s.fds (commToEnum arrow) nodeA aTimed nodeB bTimed with
    | some (nodes, fds) => { s with nodes := nodes, fds := fds }
    | none => { s with status := .undefined }

/-- The component that a declaration declares. -/
def Declaration.component : Declaration → Component
  | .plain name value priority => newComponent name value .none none none priority
  | .voted name voter value repStrat timer priority =>
    newComponent name value repStrat.repType (some voter) (some timer) priority

def relationshipAction (e : Setup) (s : State) : Relationship → State
  | .benchVar arrow b => benchAction s b arrow e.dataIn 0 false
  | .benchRep arrow b => benchAction s b.name arrow e.dataIn 0 true
  | .varBench a arrow => benchAction s a arrow 0 e.cmdOut false
  | .repBench a arrow => benchAction s a.name arrow 0 e.cmdOut true
  | .varVar a arrow b => nodeAction e s a 0 arrow b 0
  | .repRep a arrow b => nodeAction e s a.name a.index arrow b.name b.index
  | .varRep a arrow b => nodeAction e s a 0 arrow b.name b.index
  | .repVar a arrow b => nodeAction e s a.name a.index arrow b 0

def lineAction (e : Setup) (s : State) : Line → State
  | .relationship r => relationshipAction e s r
  | .declaration d => addAction e s d.component
  | .empty => s

/-- `yyparse` goes on to the next line. -/
def step (e : Setup) (s : State) (line : Line) : Option State :=
  if s.status = .parsing then some (lineAction e s line) else none

end S3RES.Plumber
