import S3RES.Foundations.Delivery
import S3RES.VoterM.Machine

/-!
# The out pipes of a replica

What the voter holds of the out pipes of replica `r`, what is unread in them and what the
process wrote since the last input are the channels of one party (`State.channels`). A read
and a write act on the channels of one replica (`channels_readOut`, `channels_replicaWrite`)
and everything else leaves them alone.
-/

namespace S3RES.VoterM

open Loop Memory Delivery

variable {c : Config} {s t u : State} {p q r : ℕ}

/-- The out pipes. -/
def Config.outs (c : Config) : Set ℕ := {p | p < c.outPipeCount}

@[simp]
theorem mem_outs : p ∈ c.outs ↔ p < c.outPipeCount := Iff.rfl

/-- The out pipes of replica `r` as channels. -/
def State.channels (s : State) (r : ℕ) : Channels ℕ UInt8 :=
  ⟨s.held r, s.outQueue r, (s.procs r).wrote⟩

@[simp]
theorem channels_held (s : State) (r : ℕ) : (s.channels r).held = s.held r := rfl

@[simp]
theorem channels_queue (s : State) (r : ℕ) : (s.channels r).queue = s.outQueue r := rfl

@[simp]
theorem channels_wrote (s : State) (r : ℕ) : (s.channels r).wrote = (s.procs r).wrote := rfl

/-- Nothing that a round is judged by has changed, but possibly some channels. -/
structure Steady (s t : State) : Prop where
  activePipeIndex : t.activePipeIndex = s.activePipeIndex
  timeoutOccurred : t.timeoutOccurred = s.timeoutOccurred
  faultIndex : t.faultIndex = s.faultIndex
  extOut : t.extOut = s.extOut
  log : t.log = s.log

theorem Steady.refl (s : State) : Steady s s := ⟨rfl, rfl, rfl, rfl, rfl⟩

theorem Steady.trans (h : Steady s t) (h' : Steady t u) : Steady s u :=
  ⟨h'.activePipeIndex.trans h.activePipeIndex, h'.timeoutOccurred.trans h.timeoutOccurred,
    h'.faultIndex.trans h.faultIndex, h'.extOut.trans h.extOut, h'.log.trans h.log⟩

theorem checkWaitOnInput_congr (h : t.activePipeIndex = s.activePipeIndex) :
    checkWaitOnInput c t = checkWaitOnInput c s := by
  rw [checkWaitOnInput, checkWaitOnInput, h]

theorem buffCounts_eq_zero_iff : (s.replicas r).buffCounts p = 0 ↔ s.held r p = [] := by
  rw [← List.length_eq_zero_iff, State.held, length_block]

/-! ### Reads -/

theorem steady_readOut (s : State) (r p : ℕ) : Steady s (readOut s r p) :=
  ⟨rfl, rfl, rfl, rfl, rfl⟩

/-- The voter reads a pipe: what is unread, if it fits into the buffer. -/
theorem channels_readOut (hlength : (s.outQueue r p).length ≤ maxPipeBuff) :
    (readOut s r p).channels r = (s.channels r).read p := by
  have hheld : (readOut s r p).held r = Function.update (s.held r) p (s.outQueue r p) := by
    funext p'
    rcases eq_or_ne p' p with rfl | hp
    · simp only [State.held, readOut, Function.update_self, List.take_of_length_le hlength,
        block_store]
    · simp [State.held, readOut, hp]
  have hqueue : (readOut s r p).outQueue r = Function.update (s.outQueue r) p [] := by
    simp [readOut, List.drop_of_length_le hlength]
  simp only [State.channels, Channels.read, hheld, hqueue]
  rfl

theorem channels_readOut_ne {r' : ℕ} (hr : r' ≠ r) :
    (readOut s r p).channels r' = s.channels r' := by
  have hheld : (readOut s r p).held r' = s.held r' := by
    funext p'
    simp [State.held, readOut, hr]
  have hqueue : (readOut s r p).outQueue r' = s.outQueue r' := by simp [readOut, hr]
  simp only [State.channels, hheld, hqueue]
  rfl

theorem held_readOut {r' p' : ℕ} (h : ¬ (r' = r ∧ p' = p)) :
    (readOut s r p).held r' p' = s.held r' p' := by
  rcases eq_or_ne r' r with rfl | hr
  · have hp : p' ≠ p := fun hp => h ⟨rfl, hp⟩
    simp [State.held, readOut, hp]
  · exact congrFun (congrArg Channels.held (channels_readOut_ne hr)) p'

/-- What was read is not empty. -/
theorem held_readOut_self (hne : s.outQueue r p ≠ []) : (readOut s r p).held r p ≠ [] := by
  have hpos : 0 < (s.outQueue r p).length := List.length_pos_iff.mpr hne
  rw [Ne, ← buffCounts_eq_zero_iff]
  simp only [readOut, Function.update_self, List.length_take, maxPipeBuff]
  omega

theorem mem_readyOf {x : ℕ × ℕ} :
    x ∈ readyOf c s r ↔ x.1 = r ∧ x.2 < c.outPipeCount ∧ s.outQueue r x.2 ≠ [] := by
  obtain ⟨r', p⟩ := x
  simp only [readyOf, List.mem_map, List.mem_filter, List.mem_range, decide_eq_true_eq,
    Prod.mk.injEq]
  constructor
  · rintro ⟨p', hp, rfl, rfl⟩
    exact ⟨rfl, hp⟩
  · rintro ⟨rfl, hp⟩
    exact ⟨p, hp, rfl, rfl⟩

theorem nodup_readyOf (c : Config) (s : State) (r : ℕ) : (readyOf c s r).Nodup :=
  (List.nodup_range.filter _).map fun _ _ h => (Prod.mk.inj h).2

theorem mem_readyOuts {x : ℕ × ℕ} : x ∈ readyOuts c s ↔
    x.1 < c.repCount ∧ x.2 < c.outPipeCount ∧ s.outQueue x.1 x.2 ≠ [] := by
  simp only [readyOuts, List.mem_flatMap, List.mem_range, mem_readyOf]
  constructor
  · rintro ⟨r, hr, rfl, hp⟩
    exact ⟨hr, hp⟩
  · rintro ⟨hr, hp⟩
    exact ⟨x.1, hr, rfl, hp⟩

theorem nodup_readyOuts (c : Config) (s : State) : (readyOuts c s).Nodup := by
  refine List.nodup_flatMap.mpr ⟨fun r _ => nodup_readyOf c s r, ?_⟩
  refine List.nodup_range.imp fun {r r'} hne x hx hx' => hne ?_
  rw [← (mem_readyOf.mp hx).1, ← (mem_readyOf.mp hx').1]

/-! ### Writes and other actions -/

/-- A replica writes. -/
theorem channels_replicaWrite (s : State) (r p : ℕ) (bytes : List UInt8) :
    (replicaWrite s r p bytes).channels r = (s.channels r).write p bytes := by
  simp only [State.channels, Channels.write, replicaWrite, Function.update_self]
  rfl

theorem channels_replicaWrite_ne {r' : ℕ} (hr : r' ≠ r) (bytes : List UInt8) :
    (replicaWrite s r p bytes).channels r' = s.channels r' := by
  simp only [State.channels, replicaWrite, Function.update_of_ne hr]
  rfl

/-- What the others do: a replica writes, or the channels stay as they are. -/
inductive OtherCase (c : Config) (s : State) : Act → State → Prop
  | write {r p : ℕ} {bytes : List UInt8} (hr : r < c.repCount) (hp : p < c.outPipeCount)
      (hne : bytes ≠ []) : OtherCase c s (.replicaWrites r p bytes) (replicaWrite s r p bytes)
  | quiet {a : Act} {t : State} (hchannels : t.channels = s.channels) (hsteady : Steady s t) :
      OtherCase c s a t

theorem environment_cases {a : Act} (ht : t ∈ environment c s a) : OtherCase c s a t := by
  cases a with
  | voter => simp [environment] at ht
  | replicaWrites r p bytes =>
    simp only [environment, Option.mem_def, Option.ite_none_right_eq_some, Option.some.injEq] at ht
    obtain ⟨⟨hr, hp, hne⟩, rfl⟩ := ht
    exact .write hr hp hne
  | replicaReads | externalWrites =>
    simp only [environment, Option.mem_def, Option.ite_none_right_eq_some, Option.some.injEq] at ht
    obtain ⟨-, rfl⟩ := ht
    exact .quiet rfl ⟨rfl, rfl, rfl, rfl, rfl⟩
  | tick =>
    simp only [environment, Option.mem_def, Option.some.injEq] at ht
    subst ht
    exact .quiet rfl ⟨rfl, rfl, rfl, rfl, rfl⟩

theorem OtherCase.steady {a : Act} (h : OtherCase c s a t) : Steady s t := by
  cases h with
  | write => exact ⟨rfl, rfl, rfl, rfl, rfl⟩
  | quiet _ hsteady => exact hsteady

theorem OtherCase.held {a : Act} (h : OtherCase c s a t) : t.held = s.held := by
  cases h with
  | write => rfl
  | quiet hchannels _ => exact funext fun r => congrArg Channels.held (congrFun hchannels r)

end S3RES.VoterM
