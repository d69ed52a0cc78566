import S3RES.Foundations.StepSystem
import S3RES.Voter.VoteBuff

/-!
# The vote buffer refines a bounded byte queue

The vote buffer functions run over a bank of vote pipes; next to it stands the bank of
byte queues they are meant to be. `BuffOp.exec` performs one call on the pipes and records
what the caller sees of it, `BuffOp.spec` performs it on the queues. A call outside its
contract (an empty chunk, a request for more bytes than are held, a comparison of pipes
whose start indexes differ) is not enabled.

The main theorem, `run_exec_refines_spec`: every sequence of calls on valid pipes keeps
them valid, leaves in each the bytes the queues hold, shows its caller exactly what the
queues would have shown, and writes nothing past the end of an array. That nothing is read
there either is part of the refinement: the queues do not know those cells.
-/

namespace S3RES

open StepSystem

/-- The calls of `vote_buff.c`, each naming the pipes of the bank it works on. -/
inductive BuffOp
  | pipeToBuff (i : ℕ) (chunk : List UInt8)
  | buffToPipe (i n : ℕ)
  | fakeToPipe (i n : ℕ)
  | compareBuffs (i j n : ℕ)
  | copyPipe (dest src : ℕ)

/-- What a caller sees of a call. -/
inductive BuffReply
  | accepted (ok : Bool)
  | written (bytes : List UInt8)
  | equal (same : Bool)
  | done
  deriving DecidableEq

/-- A bank and the replies given so far, the latest first. -/
structure Bank (Pipe : Type) where
  pipes : ℕ → Pipe
  replies : List BuffReply

/-- Replace pipe `i` and record a reply. -/
def Bank.reply {Pipe : Type} (b : Bank Pipe) (i : ℕ) (pipe : Pipe) (r : BuffReply) :
    Bank Pipe :=
  ⟨Function.update b.pipes i pipe, r :: b.replies⟩

/-- The contract of a call: the chunk of a successful `read` is not empty, no more bytes
are asked for than are held, and compared pipes have one start index. -/
def BuffOp.Legal (pipes : ℕ → VotePipe) : BuffOp → Prop
  | .pipeToBuff _ chunk => chunk ≠ []
  | .buffToPipe i n => n ≤ (pipes i).buffCount
  | .fakeToPipe i n => n ≤ (pipes i).buffCount
  | .compareBuffs i j n =>
      (pipes i).buffIndex = (pipes j).buffIndex ∧ n ≤ (pipes i).buffCount ∧
        n ≤ (pipes j).buffCount
  | .copyPipe _ _ => True

instance (pipes : ℕ → VotePipe) : DecidablePred (BuffOp.Legal pipes)
  | .pipeToBuff _ chunk => inferInstanceAs (Decidable (chunk ≠ []))
  | .buffToPipe i n => inferInstanceAs (Decidable (n ≤ (pipes i).buffCount))
  | .fakeToPipe i n => inferInstanceAs (Decidable (n ≤ (pipes i).buffCount))
  | .compareBuffs i j n =>
      inferInstanceAs (Decidable ((pipes i).buffIndex = (pipes j).buffIndex ∧
        n ≤ (pipes i).buffCount ∧ n ≤ (pipes j).buffCount))
  | .copyPipe _ _ => inferInstanceAs (Decidable True)

/-- The effect of a call on the vote pipes. -/
def BuffOp.effect (b : Bank VotePipe) : BuffOp → Bank VotePipe
  | .pipeToBuff i chunk =>
      let r := S3RES.pipeToBuff (b.pipes i) chunk
      b.reply i r.2 (.accepted (r.1 = 0))
  | .buffToPipe i n =>
      let r := S3RES.buffToPipe (b.pipes i) n
      b.reply i r.2.2 (.written r.2.1)
  | .fakeToPipe i n => b.reply i (S3RES.fakeToPipe (b.pipes i) n) .done
  | .compareBuffs i j n =>
      b.reply i (b.pipes i) (.equal (S3RES.compareBuffs (b.pipes i) (b.pipes j) n = 0))
  | .copyPipe dest src => b.reply dest (S3RES.copyPipe (b.pipes dest) (b.pipes src)) .done

/-- One call on the vote pipes, enabled when its contract holds. -/
def BuffOp.exec (b : Bank VotePipe) (op : BuffOp) : Option (Bank VotePipe) :=
  if op.Legal b.pipes then some (op.effect b) else none

/-- One call on a bank of byte queues of capacity `MAX_VOTE_PIPE_BUFF - 1`. -/
def BuffOp.spec (b : Bank (List UInt8)) : BuffOp → Option (Bank (List UInt8))
  | .pipeToBuff i chunk =>
      if chunk.length + (b.pipes i).length < maxVotePipeBuff then
        some (b.reply i (b.pipes i ++ chunk) (.accepted true))
      else some (b.reply i (b.pipes i) (.accepted false))
  | .buffToPipe i n => some (b.reply i ((b.pipes i).drop n) (.written ((b.pipes i).take n)))
  | .fakeToPipe i n => some (b.reply i ((b.pipes i).drop n) .done)
  | .compareBuffs i j n =>
      some (b.reply i (b.pipes i) (.equal ((b.pipes i).take n = (b.pipes j).take n)))
  | .copyPipe dest src => some (b.reply dest (b.pipes src) .done)

/-- The queues a bank of vote pipes stands for. -/
def Bank.content (b : Bank VotePipe) : Bank (List UInt8) :=
  ⟨fun i => (b.pipes i).content, b.replies⟩

/-- The refinement relation: the pipes are valid, hold what the queues hold, and past
their arrays the cells are those of `rest`. -/
structure Refines (rest : ℕ → ℕ → UInt8) (b : Bank VotePipe) (q : Bank (List UInt8)) :
    Prop where
  valid : ∀ i, (b.pipes i).Valid
  content : b.content = q
  frame : ∀ i k, maxVotePipeBuff ≤ k → (b.pipes i).buffer k = rest i k

/-- Replacing one pipe on both sides. -/
theorem Refines.reply {rest : ℕ → ℕ → UInt8} {b : Bank VotePipe} {q : Bank (List UInt8)}
    (h : Refines rest b q) (i : ℕ) {pipe : VotePipe} (hpipe : pipe.Valid)
    (hframe : ∀ k, maxVotePipeBuff ≤ k → pipe.buffer k = (b.pipes i).buffer k)
    {bytes : List UInt8} (hbytes : pipe.content = bytes) (r : BuffReply) :
    Refines rest (b.reply i pipe r) (q.reply i bytes r) := by
  obtain ⟨hvalid, rfl, hrest⟩ := h
  subst hbytes
  refine ⟨fun j => ?_, ?_, fun j k hk => ?_⟩
  · rcases eq_or_ne j i with rfl | hne
    · simpa [Bank.reply] using hpipe
    · simpa [Bank.reply, hne] using hvalid j
  rotate_left
  · rcases eq_or_ne j i with rfl | hne
    · simpa [Bank.reply, hrest _ _ hk] using hframe k hk
    · simpa [Bank.reply, hne] using hrest j k hk
  · simp only [Bank.content, Bank.reply, Bank.mk.injEq, and_true]
    funext j
    rcases eq_or_ne j i with rfl | hne
    · simp
    · simp [hne]

/-- **One call.** The queues can follow every enabled call on the pipes. -/
theorem exec_refines_spec {rest : ℕ → ℕ → UInt8} (b : Bank VotePipe)
    (q : Bank (List UInt8)) (op : BuffOp) (b' : Bank VotePipe) (h : Refines rest b q)
    (hb : b' ∈ op.exec b) : ∃ q' ∈ op.spec q, Refines rest b' q' := by
  have hlen : ∀ i, (b.pipes i).buffCount = (q.pipes i).length := fun i => by
    rw [← h.content, Bank.content, length_content]
  have hq : ∀ i, (b.pipes i).content = q.pipes i := fun i => by rw [← h.content]; rfl
  simp only [BuffOp.exec, Option.mem_def, Option.ite_none_right_eq_some,
    Option.some.injEq] at hb
  obtain ⟨hlegal, rfl⟩ := hb
  cases op with
  | pipeToBuff i chunk =>
    simp only [BuffOp.effect, BuffOp.spec, pipeToBuff_eq_zero_iff, Option.mem_def]
    by_cases hfit : chunk.length + (q.pipes i).length < maxVotePipeBuff
    · have hfit' : chunk.length + (b.pipes i).buffCount < maxVotePipeBuff := by
        rwa [hlen]
      refine ⟨_, if_pos hfit, ?_⟩
      rw [decide_eq_true ⟨hlegal, hfit'⟩]
      exact h.reply i (pipeToBuff_valid (h.valid i) chunk)
        (fun _ hk => pipeToBuff_frame _ _ hk) (by rw [pipeToBuff_content hfit', hq]) _
    · have hfull : ¬ chunk.length + (b.pipes i).buffCount < maxVotePipeBuff := by
        rwa [hlen]
      refine ⟨_, if_neg hfit, ?_⟩
      rw [decide_eq_false (fun hacc => hfull hacc.2)]
      exact h.reply i (pipeToBuff_valid (h.valid i) chunk)
        (fun _ hk => pipeToBuff_frame _ _ hk) (by rw [pipeToBuff_of_full hfull, hq]) _
  | buffToPipe i n =>
    refine ⟨_, rfl, ?_⟩
    simp only [BuffOp.effect, buffToPipe_bytes (h.valid i) hlegal, buffToPipe_content hlegal,
      ← hq]
    exact h.reply i (fakeToPipe_valid (h.valid i) n) (fun _ _ => rfl)
      (fakeToPipe_content hlegal) _
  | fakeToPipe i n =>
    refine ⟨_, rfl, h.reply i (fakeToPipe_valid (h.valid i) n) (fun _ _ => rfl) ?_ _⟩
    rw [fakeToPipe_content hlegal, hq]
  | compareBuffs i j n =>
    obtain ⟨hindex, hi, hj⟩ := hlegal
    refine ⟨_, rfl, ?_⟩
    simp only [BuffOp.effect, compareBuffs_eq_zero_iff (h.valid i) hindex hi hj, ← hq]
    exact h.reply i (h.valid i) (fun _ _ => rfl) rfl _
  | copyPipe dest src =>
    refine ⟨_, rfl, h.reply dest (copyPipe_valid (h.valid src))
      (fun _ hk => copyPipe_frame (h.valid src) hk) ?_ _⟩
    rw [copyPipe_content (h.valid src), hq]

/-- **Refinement.** Over any sequence of calls, the vote pipes stay within their ranges,
hold what the byte queues hold, give the replies the byte queues give, and leave the cells
past their arrays alone. -/
theorem run_exec_refines_spec (b b' : Bank VotePipe) (ops : List BuffOp)
    (hvalid : ∀ i, (b.pipes i).Valid) (hrun : run BuffOp.exec ops b = some b') :
    (∀ i, (b'.pipes i).Valid) ∧ run BuffOp.spec ops b.content = some b'.content ∧
      ∀ i k, maxVotePipeBuff ≤ k → (b'.pipes i).buffer k = (b.pipes i).buffer k := by
  have hstart : Refines (fun i => (b.pipes i).buffer) b b.content :=
    ⟨hvalid, rfl, fun _ _ _ => rfl⟩
  obtain ⟨q, hq, hR⟩ := run_simulation exec_refines_spec hstart hrun
  exact ⟨hR.valid, by rw [hq, hR.content], hR.frame⟩

/-- Six bytes that end exactly at the end of the array, twice, compared, copied, and
written out. -/
theorem run_exec_refines_spec_at_wrap :
    let b : Bank VotePipe := ⟨fun _ => ⟨"MOV_CMD", 0, 0, false, 0, 4090, fun _ => 0⟩, []⟩
    let chunk : List UInt8 := [1, 2, 3, 4, 5, 6]
    let ops : List BuffOp := [.pipeToBuff 0 chunk, .pipeToBuff 1 chunk, .compareBuffs 0 1 6,
      .copyPipe 2 1, .fakeToPipe 1 2, .buffToPipe 2 6]
    ∃ b', run BuffOp.exec ops b = some b' ∧
      run BuffOp.spec ops b.content = some b'.content ∧
      b'.replies.head? = some (.written chunk) := by
  intro b chunk ops
  have hrun : run BuffOp.exec ops b = some ((run BuffOp.exec ops b).get (by decide)) := by
    rw [Option.some_get]
  have hvalid : ∀ i, (b.pipes i).Valid := fun _ =>
    ⟨show 4090 < maxVotePipeBuff by decide, maxVotePipeBuff_pos⟩
  exact ⟨_, hrun, (run_exec_refines_spec b _ ops hvalid hrun).2.1, by decide⟩

end S3RES
