import S3RES.CommTypes.SerialPipe

/-!
# Messages of a fixed size

The `struct`s of `commtypes.h` that go over a pipe as they lie in memory. Such a message is
shorter than `PIPE_BUF`, so it is in a pipe as a whole or not at all, and a pipe of them is a list
of messages. `N` stands for `double`.

A `commSend` function looks at its pipe before it writes. What all of them have in common is
`sendOn`; a pipe of which it is known that it passes is `Sends`.
-/

namespace S3RES

variable {M N : Type*}

/-- `RANGER_COUNT`. -/
def rangerCount : ℕ := 16

/-- `struct comm_way_req`. -/
structure WayReq where
  padding : ℤ
  deriving DecidableEq

/-- `struct comm_way_res`. -/
structure WayRes (N : Type*) where
  point : Fin 3 → N
  nPoint : Fin 3 → N
  deriving DecidableEq

/-- `struct comm_mov_cmd`. -/
structure MovCmd (N : Type*) where
  seqCount : ℤ
  velCmd : Fin 2 → N
  deriving DecidableEq

/-- `struct comm_range_pose_data`. -/
structure RangePoseData (N : Type*) where
  seqCount : ℤ
  ranges : Fin rangerCount → N
  pose : Fin 3 → N
  deriving DecidableEq

/-! ### Sending -/

/-- A pipe on which messages of the type can be sent. -/
def Sends (type : CommMessage) (pipe : TypedPipe) : Prop := pipe.fdOut ≠ 0 ∧ pipe.type = type

instance (type : CommMessage) (pipe : TypedPipe) : Decidable (Sends type pipe) :=
  inferInstanceAs (Decidable (_ ∧ _))

/-- What a `commSend` function writes. -/
def sendOn (type : CommMessage) (pipe : TypedPipe) (msg : M) : List M :=
  if pipe.fdOut = 0 ∨ pipe.type ≠ type then [] else [msg]

theorem sendOn_of_sends {type : CommMessage} {pipe : TypedPipe} (h : Sends type pipe) (msg : M) :
    sendOn type pipe msg = [msg] := by
  rw [sendOn, if_neg (by simp [h.1, h.2])]

/-- `commSendWaypoints`. -/
def commSendWaypoints (pipe : TypedPipe) (wayX wayY wayA nWayX nWayY nWayA : N) :
    List (WayRes N) :=
  sendOn .wayRes pipe ⟨![wayX, wayY, wayA], ![nWayX, nWayY, nWayA]⟩

/-- `commSendWaypointRequest`. -/
def commSendWaypointRequest (pipe : TypedPipe) (padding : ℤ) : List WayReq :=
  sendOn .wayReq pipe ⟨padding⟩

/-- `commSendMoveCommand`. -/
def commSendMoveCommand (pipe : TypedPipe) (seqCount : ℤ) (vel₀ vel₁ : N) : List (MovCmd N) :=
  sendOn .movCmd pipe ⟨seqCount, ![vel₀, vel₁]⟩

/-- `commSendRanger`. -/
def commSendRanger (pipe : TypedPipe) (seqCount : ℤ) (rangerData : Fin rangerCount → N)
    (poseData : Fin 3 → N) : List (RangePoseData N) :=
  sendOn .rangePoseData pipe ⟨seqCount, rangerData, poseData⟩

end S3RES
