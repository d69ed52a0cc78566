import S3RES.Foundations.StepSystem
import S3RES.Voter.VoteBuff

/-!
# Bytes that a vote pipe loses

What goes through a vote pipe, call by call: `pipeToBuff` takes from the input pipe what one
`read` returns, `buffToPipe` hands bytes to a `write` that may accept all, some or none of them.
`pipeToBuff` reads before it looks for room, and `buffToPipe` advances by `n` whatever the
`write` returned. `conserved_iff`: over any sequence of calls, what was taken is what was
accepted and what is still held if and only if no call was one of those that lose bytes
(`Lossless`).
-/

namespace S3RES

open StepSystem

/-- A call, with what the kernel does in it. -/
inductive Transfer
  /-- `pipeToBuff`, where `waiting` is in the input pipe. -/
  | pipeToBuff (waiting : List UInt8)
  /-- `buffToPipe` of `n` bytes: the `write` fails, or has room for so many. -/
  | buffToPipe (n : ℕ) (room : Option ℕ)

/-- A vote pipe, the bytes taken from its input pipe and those the external pipe accepted. -/
structure Line where
  pipe : VotePipe
  taken : List UInt8
  accepted : List UInt8

/-- Before the first call. -/
def Line.start (pipe : VotePipe) : Line := ⟨pipe, [], []⟩

/-- One call. -/
def Line.step (s : Line) : Transfer → Option Line
  | .pipeToBuff waiting =>
    let chunk := waiting.take maxVotePipeBuff
    some { s with pipe := (S3RES.pipeToBuff s.pipe chunk).2, taken := s.taken ++ chunk }
  | .buffToPipe n room =>
    let written := S3RES.buffToPipe s.pipe n
    some { s with
      pipe := written.2.2
      accepted := s.accepted ++ written.2.1.take (room.getD 0) }

/-- What was held and what was taken is what was accepted and what is held. -/
def Line.Conserved (held : List UInt8) (s : Line) : Prop :=
  held ++ s.taken = s.accepted ++ s.pipe.content

instance (held : List UInt8) (s : Line) : Decidable (s.Conserved held) :=
  inferInstanceAs (Decidable (_ = _))

/-- The call loses nothing: what it reads fits, and a `write` it makes accepts all bytes. -/
def Lossless (s : Line) : Transfer → Prop
  | .pipeToBuff waiting =>
    waiting = [] ∨ min maxVotePipeBuff waiting.length < maxVotePipeBuff - s.pipe.buffCount
  | .buffToPipe n room => s.pipe.buffCount < n ∨ n ≤ room.getD 0

instance (s : Line) : DecidablePred (Lossless s)
  | .pipeToBuff _ => inferInstanceAs (Decidable (_ ∨ _))
  | .buffToPipe _ _ => inferInstanceAs (Decidable (_ ∨ _))

variable {s t : Line} {a : Transfer} {held : List UInt8}

/-- How many bytes are neither held nor accepted. -/
def Line.deficit (s : Line) : ℤ := s.taken.length - s.accepted.length - s.pipe.buffCount

/-- A request for more than is held is refused. -/
theorem buffToPipe_of_lt {pipe : VotePipe} {n : ℕ} (h : pipe.buffCount < n) :
    buffToPipe pipe n = (-1, [], pipe) := if_pos h

theorem Line.step_valid (hvalid : s.pipe.Valid) (ht : t ∈ s.step a) : t.pipe.Valid := by
  cases a with
  | pipeToBuff waiting =>
    obtain rfl := Option.some.inj ht
    exact pipeToBuff_valid hvalid _
  | buffToPipe n room =>
    obtain rfl := Option.some.inj ht
    rcases lt_or_ge s.pipe.buffCount n with hlt | hle
    · simpa only [buffToPipe_of_lt hlt] using hvalid
    · simpa only [buffToPipe_content hle] using fakeToPipe_valid hvalid n

/-- A call that loses nothing keeps the account. -/
theorem Line.step_conserved (hvalid : s.pipe.Valid) (h : s.Conserved held) (hok : Lossless s a)
    (ht : t ∈ s.step a) : t.Conserved held := by
  rw [Line.Conserved] at h ⊢
  cases a with
  | pipeToBuff waiting =>
    obtain rfl := Option.some.inj ht
    have hfit : (waiting.take maxVotePipeBuff).length + s.pipe.buffCount < maxVotePipeBuff := by
      have hcount := hvalid.count_lt
      rw [List.length_take]
      rcases hok with rfl | hok
      · simpa using hcount
      · omega
    simp only [pipeToBuff_content hfit]
    rw [← List.append_assoc, h, List.append_assoc]
  | buffToPipe n room =>
    obtain rfl := Option.some.inj ht
    rcases lt_or_ge s.pipe.buffCount n with hlt | hle
    · simpa only [buffToPipe_of_lt hlt, List.take_nil, List.append_nil] using h
    · have hroom : n ≤ room.getD 0 := hok.resolve_left (not_lt.mpr hle)
      simp only [buffToPipe_content hle, buffToPipe_bytes hvalid hle, fakeToPipe_content hle]
      rw [List.take_take, min_eq_right hroom, List.append_assoc, List.take_append_drop]
      exact h

/-- No call makes up for what was lost, and one that is not lossless loses something. -/
theorem Line.step_deficit (hvalid : s.pipe.Valid) (ht : t ∈ s.step a) :
    s.deficit ≤ t.deficit ∧ (¬ Lossless s a → s.deficit < t.deficit) := by
  have hcount := hvalid.count_lt
  cases a with
  | pipeToBuff waiting =>
    obtain rfl := Option.some.inj ht
    have hpipe := congrArg VotePipe.buffCount
      (pipeToBuff_snd s.pipe (waiting.take maxVotePipeBuff))
    have hzero : waiting.length = 0 ↔ waiting = [] := List.length_eq_zero_iff
    simp only [Lossless, deficit, ← hzero]
    rw [hpipe, List.length_append, List.length_take]
    split
    · simp only
      omega
    · omega
  | buffToPipe n room =>
    obtain rfl := Option.some.inj ht
    simp only [Lossless, deficit]
    rcases lt_or_ge s.pipe.buffCount n with hlt | hle
    · simp only [buffToPipe_of_lt hlt, List.take_nil, List.append_nil]
      omega
    · simp only [buffToPipe_content hle, buffToPipe_bytes hvalid hle, fakeToPipe,
        List.length_append, List.length_take, length_content]
      omega

/-- The deficit of a run: it only grows, and grows if one of the calls is not lossless. -/
theorem Line.run_deficit {as : List Transfer} (hvalid : s.pipe.Valid)
    (hrun : run Line.step as s = some t) :
    s.deficit ≤ t.deficit ∧ (¬ AllSteps Line.step Lossless as s → s.deficit < t.deficit) := by
  induction as generalizing s with
  | nil =>
    obtain rfl : s = t := by simpa using hrun
    exact ⟨le_rfl, fun hnot => absurd trivial hnot⟩
  | cons a as ih =>
    obtain ⟨u, hu, hrest⟩ := Option.bind_eq_some_iff.mp hrun
    obtain ⟨hle, hlt⟩ := step_deficit hvalid hu
    obtain ⟨hle', hlt'⟩ := ih (step_valid hvalid hu) hrest
    refine ⟨hle.trans hle', fun hnot => ?_⟩
    by_cases hok : Lossless s a
    · refine hle.trans_lt (hlt' fun hall => hnot ⟨hok, fun v hv => ?_⟩)
      obtain rfl : u = v := Option.some.inj (hu.symm.trans hv)
      exact hall
    · exact (hlt hok).trans_le hle'

/-- **Conservation.** After any sequence of calls, what the pipe held and what was taken from the
input pipe is what the external pipe accepted and what the pipe holds, if and only if none of the
calls read more than there was room for or had a `write` that did not accept all bytes. -/
theorem conserved_iff {pipe : VotePipe} (hvalid : pipe.Valid) {as : List Transfer}
    (hrun : run Line.step as (.start pipe) = some t) :
    t.Conserved pipe.content ↔ AllSteps Line.step Lossless as (.start pipe) := by
  constructor
  · intro h
    by_contra hnot
    have hlt := (Line.run_deficit hvalid hrun).2 hnot
    have hlength := congrArg List.length h
    simp only [List.length_append, length_content] at hlength
    simp only [Line.deficit, Line.start, List.length_nil] at hlt
    omega
  · intro hall
    have hreach := reaches_of_run hall hrun
    have hinv := hreach.invariant
      (I := fun s => s.pipe.Valid ∧ s.Conserved pipe.content) ⟨hvalid, List.append_nil _⟩
      fun s a u hs hok hu => ⟨Line.step_valid hs.1 hu, Line.step_conserved hs.1 hs.2 hok hu⟩
    exact hinv.2

/-- A vote pipe that was just reset. -/
def emptyPipe : VotePipe := ⟨"MOV_CMD", 3, 0, false, 0, 0, fun _ => 0⟩

/-- Three bytes are read, two are written, and a request for five is refused. -/
theorem conserved_refusal :
    (follow Line.step [.pipeToBuff [1, 2, 3], .buffToPipe 2 (some 2), .buffToPipe 5 none]
      (.start emptyPipe)).Conserved emptyPipe.content :=
  (conserved_iff ⟨by decide, by decide⟩ (run_eq_follow rfl)).mpr (by decide)

/-- Of three bytes the external pipe accepts one, and the others are gone; and so is all of a
`read` that returns as many bytes as the buffer has. -/
theorem not_conserved_shortWrite :
    (∃ t, run Line.step [.pipeToBuff [1, 2, 3], .buffToPipe 3 (some 1)] (.start emptyPipe) =
        some t ∧ t.taken = [1, 2, 3] ∧ t.accepted = [1] ∧ t.pipe.content = [] ∧
        ¬ t.Conserved emptyPipe.content) ∧
      ∃ t, run Line.step [.pipeToBuff (List.replicate 4096 1)] (.start emptyPipe) = some t ∧
        t.taken.length = 4096 ∧ t.accepted = [] ∧ t.pipe.content = [] ∧
        ¬ t.Conserved emptyPipe.content :=
  ⟨⟨_, rfl, by decide +kernel⟩, ⟨_, rfl, by decide +kernel⟩⟩

end S3RES
