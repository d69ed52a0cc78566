import S3RES.CommTypes.Messages
import S3RES.Foundations.Loop

/-!
# ArtPot

`art_pot.c` drives the robot: the goal pulls, the obstacles that the ranger sees push, and the
command is what comes out of both. When the goal is reached, the next one that the planner has
named takes its place and a new pair is asked for.

`N` stands for `double`, read as an ordered field, and `Libm` for the functions of `math.h`. An
element of `pipes` with a negative index is the memory in front of the array. The flags of the
fault injection are left out.
-/

namespace S3RES.ArtPot

open Loop

/-- The functions of `math.h`. -/
structure Libm (N : Type*) where
  sqrt : N → N
  atan2 : N → N → N
  cos : N → N
  sin : N → N
  pi : N

/-- The parameters for `GRID_NUM` 48: `VEL_SCALE`, `DIST_EPSILON` and those of the goal and of the
obstacles. -/
def velScale : ℚ := 13 / 10

def distEpsilon : ℚ := 3 / 10

def goalRadius : ℚ := 0

def goalExtent : ℚ := 2 / 10

def goalScale : ℚ := 1

def obstRadius : ℚ := 3 / 10

def obstExtent : ℚ := 5 / 10

def obstScale : ℚ := 2

/-- `PIPE_COUNT`. -/
def pipeCountMax : ℕ := 4

/-! ### Pipes -/

/-- The indexes of the pipes. -/
structure Indexes where
  data : ℤ
  out : ℤ
  wayReq : ℤ
  wayRes : ℤ
  deriving DecidableEq

/-- The body of the loop of `setPipeIndexes`. -/
def setIndex (pipes : ℤ → TypedPipe) (i : ℕ) (ix : Indexes) : Indexes :=
  match (pipes i).type with
  | .rangePoseData => { ix with data := i }
  | .movCmd => { ix with out := i }
  | .wayRes => { ix with wayRes := i }
  | .wayReq => { ix with wayReq := i }
  | _ => ix

/-- `setPipeIndexes`. -/
def setPipeIndexes (pipes : ℤ → TypedPipe) (pipeCount : ℕ) (ix : Indexes) : Indexes :=
  loop (setIndex pipes) pipeCount { ix with wayReq := -1, wayRes := -1 }

/-! ### The command -/

variable {N : Type*} [Field N] [LinearOrder N]

/-- The globals of ArtPot. -/
structure Globals (N : Type*) where
  goal : Fin 3 → N
  nextGoal : Fin 3 → N
  seqCount : ℤ
  pos : Fin 3 → N
  ranges : Fin rangerCount → N
  wayPending : Bool

/-- The position that is part of a pose. -/
def poseX {N : Type*} (pose : Fin 3 → N) : N := pose 0

def poseY {N : Type*} (pose : Fin 3 → N) : N := pose 1

/-- `dist` and `theta`: where the goal is. -/
def toGoal (m : Libm N) (a : Globals N) : N × N :=
  (m.sqrt ((a.goal 0 - a.pos 0) ^ 2 + (a.goal 1 - a.pos 1) ^ 2),
    m.atan2 (a.goal 1 - a.pos 1) (a.goal 0 - a.pos 0) - a.pos 2)

/-- `delta_x`, `delta_y` and `total_factors`. -/
structure Deltas (N : Type*) where
  x : N
  y : N
  factors : ℕ

/-- The pull of the goal. -/
def pull (m : Libm N) (dist theta : N) : Deltas N :=
  if dist < goalRadius then ⟨0, 0, 0⟩
  else if goalRadius ≤ dist ∧ dist ≤ goalExtent + goalRadius then
    let v := goalScale * (dist - goalRadius)
    ⟨v * m.cos theta, v * m.sin theta, 1⟩
  else ⟨goalScale * m.cos theta, goalScale * m.sin theta, 1⟩

/-- The body of the loop over the ranges: the push of an obstacle. -/
def push (m : Libm N) (ranges : Fin rangerCount → N) (d : Deltas N) (i : Fin rangerCount) :
    Deltas N :=
  let tao := 2 * m.pi * i / rangerCount
  let obsX := ranges i * m.cos tao
  let obsY := ranges i * m.sin tao
  let dist := m.sqrt (obsX ^ 2 + obsY ^ 2)
  let theta := m.atan2 obsY obsX
  if dist ≤ obstExtent + obstRadius then
    ⟨d.x + -obstScale * (obstExtent + obstRadius - dist) * m.cos theta,
      d.y + -obstScale * (obstExtent + obstRadius - dist) * m.sin theta, d.factors + 1⟩
  else d

/-- The pull and all pushes. -/
def deltas (m : Libm N) (ranges : Fin rangerCount → N) (dist theta : N) : Deltas N :=
  (List.finRange rangerCount).foldl (push m ranges) (pull m dist theta)

/-- `vel_cmd`. It only goes forward if mostly pointed at the goal. -/
def velCmd (m : Libm N) (ranges : Fin rangerCount → N) (dist theta : N) : N × N :=
  if dist > distEpsilon then
    let d := deltas m ranges dist theta
    let deltaX := d.x / d.factors
    let deltaY := d.y / d.factors
    let speed := m.sqrt (deltaX ^ 2 + deltaY ^ 2)
    let turn := m.atan2 deltaY deltaX
    (if |turn| < 1 then velScale * speed else 0, velScale * turn)
  else (0, 0)

/-- What a call of `command` writes, and the elements of `pipes` it looks at. -/
structure Sent (N : Type*) where
  wayReqs : List WayReq
  movCmds : List (MovCmd N)
  accessed : List ℤ

/-- Where the goal is reached, the next one takes its place. -/
def tryNext (m : Libm N) (a : Globals N) : Globals N × Bool :=
  if (toGoal m a).1 ≤ distEpsilon then ({ a with goal := a.nextGoal }, true) else (a, false)

/-- The part of `command` that asks for waypoints. -/
def request (pipes : ℤ → TypedPipe) (ix : Indexes) (requestWay : Bool) (a : Globals N) :
    Globals N × Sent N :=
  if a.wayPending then (a, ⟨[], [], []⟩)
  else
    ({ a with wayPending := true },
      ⟨commSendWaypointRequest (pipes ix.wayReq) (if requestWay then 1 else 0), [], [ix.wayReq]⟩)

/-- `command`. -/
def command (m : Libm N) (pipes : ℤ → TypedPipe) (ix : Indexes) (a : Globals N) :
    Globals N × Sent N :=
  let (a, requestWay) := tryNext m a
  let (dist, theta) := toGoal m a
  let vel := velCmd m a.ranges dist theta
  let (a, sent) := request pipes ix requestWay a
  (a, { sent with
    movCmds := commSendMoveCommand (pipes ix.out) a.seqCount vel.1 vel.2
    accessed := sent.accessed ++ [ix.out] })

/-! ### The loop -/

/-- `enterLoop` reads waypoints. -/
def takeWaypoints (a : Globals N) (msg : WayRes N) : Globals N :=
  { a with wayPending := false, goal := msg.point, nextGoal := msg.nPoint }

/-- `commCopyRanger`. -/
def copyRanger (a : Globals N) (msg : RangePoseData N) : Globals N :=
  { a with seqCount := msg.seqCount, ranges := msg.ranges, pos := msg.pose }

/-- `enterLoop` reads range and pose data. -/
def takeData (m : Libm N) (pipes : ℤ → TypedPipe) (ix : Indexes) (a : Globals N)
    (msg : RangePoseData N) : Globals N × Sent N :=
  command m pipes ix (copyRanger a msg)

/-- The complaint about the data. -/
def seqError (a : Globals N) (msg : RangePoseData N) : Bool := a.seqCount + 1 ≠ msg.seqCount

/-- Where the robot stands at first. -/
def startPosition : Fin 3 → N := ![-7, -7, 0]

/-- The globals when `main` enters the loop. -/
def start : Globals N where
  goal := startPosition
  nextGoal := 0
  seqCount := -1
  pos := 0
  ranges := 0
  wayPending := false

end S3RES.ArtPot
