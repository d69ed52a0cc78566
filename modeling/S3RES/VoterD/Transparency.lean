import S3RES.VoterD.Ledger

/-!
# VoterD without faults

When all replicas write the same streams, nothing expires and every read fits, the voter
only passes bytes on: `transparent`. The invariant is `InStep`: every replica keeps its
ledger on every out pipe, what was taken from it is what was forwarded and what the voter
still holds for it, and between votes some replica has nothing left to vote on.
-/

namespace S3RES.VoterD

open Lockstep StepSystem

variable {c : Config} {s t : State} {S : ℕ → List UInt8} {r u p : ℕ}

/-- The bytes taken from replica `r` on pipe `p`, oldest first; the log is latest first. -/
def taken (r p : ℕ) : List Event → List UInt8
  | [] => []
  | .taken r' p' bytes :: log =>
    if r' = r ∧ p' = p then taken r p log ++ bytes else taken r p log
  | _ :: log => taken r p log

/-- The steps of a run without faults: what a replica writes continues the stream of the
pipe, no timer has run out, and every read fits. -/
def Undisturbed (S : ℕ → List UInt8) (c : Config) (s : State) : Act → Prop
  | .replicaWrites r p bytes => (s.procs r).written p ++ bytes <+: S p
  | .update _ => ¬ Expired c s
  | a => ∀ x ∈ reads s a, Fits s x.1 x.2

instance (S : ℕ → List UInt8) (c : Config) (s : State) : ∀ a, Decidable (Undisturbed S c s a)
  | .replicaWrites _ _ _ => inferInstanceAs (Decidable (_ <+: _))
  | .update _ => inferInstanceAs (Decidable (¬ _))
  | .select | .external _ | .scan | .wake | .vote _ | .replicaReads _ _ _ | .externalWrites _ _
  | .tick _ => inferInstanceAs (Decidable (∀ x ∈ reads s _, Fits s x.1 x.2))

theorem Undisturbed.fits {a : Act} (h : Undisturbed S c s a) (hreads : reads s a = some (r, p)) :
    Fits s r p := by
  rcases reads_eq_some hreads with rfl | rfl
  · exact h (r, p) hreads
  · exact h (r, p) hreads

/-- The invariant of a run without faults, `s₀` being its first state. -/
structure InStep (S : ℕ → List UInt8) (c : Config) (s₀ s : State) : Prop where
  wellFormed : WellFormed c s
  stream : ∀ r < c.repCount, ∀ p < c.pipeCount, c.IsOut p → (s.procs r).written p <+: S p
  ledger : ∀ r < c.repCount, ∀ p < c.pipeCount, c.IsOut p → Ledger s r p
  received : ∀ r < c.repCount, ∀ p < c.pipeCount, c.IsOut p →
    taken r p s.log = s.extOut p ++ (s.vot r p).content
  settled : ∀ p < c.pipeCount, c.IsOut p → s.voting ≠ some p → ready c s p = 0
  log : ∃ l, s.log = l ++ s₀.log ∧ ∀ r now, .started r now ∉ l

theorem taken_append_of_quiet {l log : List Event}
    (h : ∀ e ∈ l, (∃ p now, e = .delivered p now) ∨ e = .selected) :
    taken r p (l ++ log) = taken r p log := by
  induction l with
  | nil => rfl
  | cons e l ih =>
    have hl := ih fun e he => h e (List.mem_cons_of_mem _ he)
    rcases h e List.mem_cons_self with ⟨q, now, rfl⟩ | rfl
    · exact hl
    · exact hl

/-- Two replicas in step agree on what both have. -/
theorem take_content_eq {n : ℕ} {r' : ℕ} (h : Ledger s r p) (h' : Ledger s r' p)
    (hS : (s.procs r).written p <+: S p) (hS' : (s.procs r').written p <+: S p)
    (hn : n ≤ (s.vot r p).buffCount) (hn' : n ≤ (s.vot r' p).buffCount) :
    (s.vot r p).content.take n = (s.vot r' p).content.take n := by
  have hlength : ∀ r, (s.vot r p).buffCount ≤ (ahead s r p).length := fun r => by
    simp [ahead]
  have htake := h.take_eq h' hS hS' (hn.trans (hlength r)) (hn'.trans (hlength r'))
  rwa [take_ahead hn, take_ahead hn'] at htake

/-- Forwarding moves bytes from the voter to the external pipe. -/
theorem Forwarded.held {n : ℕ} (h : Forwarded c s t p u n) (hr : r < c.repCount)
    (hn : n ≤ (s.vot r p).buffCount)
    (hagree : (s.vot r p).content.take n = (s.vot u p).content.take n) :
    t.extOut p ++ (t.vot r p).content = s.extOut p ++ (s.vot r p).content := by
  rw [h.extOut, h.content hr hn, ← hagree, List.append_assoc, List.take_append_drop]

/-- After a vote that forwarded, some replica has nothing left. -/
theorem ready_sendPipe (hs : Synced c s p) (hu : u < c.repCount) :
    ready c (sendPipe c s p u) p = 0 := by
  obtain ⟨r, hr, heq⟩ := hs.exists_ready_eq (Nat.zero_lt_of_lt hu)
  have hle := ready_le c (sendPipe c s p u) p hr
  rw [(forwarded_sendPipe hs hu).vot r hr, fakeToPipe, ← heq, Nat.sub_self] at hle
  exact Nat.le_zero.mp hle

/-- A vote between replicas in step forwards. -/
theorem InStep.vote {s₀ s' t' : State} (h : InStep S c s₀ s) (hp : p < c.pipeCount)
    (hout : c.IsOut p) (hvoting : s.voting = some p) {sched : ℕ → Bool}
    (hs' : s' = balance c s sched) (hvote : Vote c s' t' p) (ht : t = { t' with point := t.point })
    (hwf : WellFormed c t) : InStep S c s₀ t := by
  have hquiet : Quiet c s s' := hs' ▸ quiet_balance s sched
  have hpos := h.wellFormed.pos
  have hsynced : Synced c s' p := hquiet.synced (h.wellFormed.synced p hp hout)
  have hledger : ∀ r < c.repCount, ∀ q < c.pipeCount, c.IsOut q → Ledger s' r q :=
    fun r hr q hq hqout => hquiet.ledger hqout (h.ledger r hr q hq hqout)
  have hstream : ∀ r < c.repCount, ∀ q < c.pipeCount, c.IsOut q →
      (s'.procs r).written q <+: S q := fun r hr q hq hqout => by
    rw [hquiet.procs]
    exact h.stream r hr q hq hqout
  have hlog : s'.log = s.log := by rw [hs']; rfl
  have hagree : ∀ r < c.repCount, ∀ r' < c.repCount,
      (s'.vot r p).content.take (ready c s' p) = (s'.vot r' p).content.take (ready c s' p) :=
    fun r hr r' hr' => take_content_eq (hledger r hr p hp hout) (hledger r' hr' p hp hout)
      (hstream r hr p hp hout) (hstream r' hr' p hp hout) (ready_le c s' p hr)
      (ready_le c s' p hr')
  cases hvote with
  | outvoted u v _ _ hu hv _ _ _ hdiffer => exact absurd (hagree v hv u hu) hdiffer
  | tied htype _ hdiffer =>
    have hcount : c.repCount = 3 := by rw [Config.repCount, htype]; rfl
    exact absurd (hagree 0 (by omega) 1 (by omega)) (hdiffer 0 (by omega) 1 (by omega) (by omega))
  | sent u hu ht' _ =>
    have hsame := samePipes_sendPipe hsynced hu
    have hforwarded := forwarded_sendPipe hsynced hu
    have hlane := fun q (hq : q ≠ p) => sameLane_sendPipe hsynced hu hq
    have hlog' := log_sendPipe hsynced hu
    have hready := ready_sendPipe hsynced hu
    have hledger' := fun r hr q hq hqout => ledger_sendPipe hsynced hu hr (hagree r hr u hu)
      (hledger r hr q hq hqout)
    rw [← ht'] at hsame hforwarded hlane hlog' hready hledger'
    have hvot : ∀ r q, t.vot r q = t'.vot r q := fun r q => by rw [ht]; rfl
    refine ⟨hwf, fun r hr q hq hqout => ?_, fun r hr q hq hqout => ?_, fun r hr q hq hqout => ?_,
      fun q hq hqout _ => ?_, ?_⟩
    · have hprocs : t.procs = s'.procs := by rw [ht]; exact hsame.procs
      rw [hprocs]
      exact hstream r hr q hq hqout
    · rw [ht]
      exact hledger' r hr q hq hqout
    · have htaken : taken r q t.log = taken r q s.log := by
        rw [ht, ← hlog]
        dsimp only
        rw [hlog']
        split <;> rfl
      have hextOut : t.extOut = t'.extOut := by rw [ht]
      rw [htaken, h.received r hr q hq hqout, hvot, hextOut, ← hquiet.extOut, ← hquiet.vot]
      rcases eq_or_ne q p with rfl | hqp
      · exact (hforwarded.held hr (ready_le c s' q hr) (hagree r hr u hu)).symm
      · rw [(hlane q hqp).extOut, (hlane q hqp).vot]
    · have hcongr : ready c t q = ready c t' q := ready_congr fun r _ => by rw [hvot]
      rw [hcongr]
      rcases eq_or_ne q p with rfl | hqp
      · exact hready
      · have hsame' : ready c t' q = ready c s q := ready_congr fun r _ => by
          rw [(hlane q hqp).vot, hquiet.vot]
        rw [hsame']
        refine h.settled q hq hqout ?_
        rw [hvoting]
        exact fun heq => hqp (Option.some.inj heq).symm
    · obtain ⟨l, hl, hstarted⟩ := h.log
      have ht'log : t.log = t'.log := by rw [ht]
      rw [ht'log, hlog', hlog, hl]
      split
      · exact ⟨l, rfl, hstarted⟩
      · exact ⟨.forwarded p :: l, rfl, fun r now hmem => hstarted r now (by simpa using hmem)⟩

/-- One undisturbed step keeps the replicas in step. -/
theorem inStep_step {s₀ : State} {a : Act} (h : InStep S c s₀ s) (hok : Undisturbed S c s a)
    (ht : t ∈ step c s a) : InStep S c s₀ t := by
  have hwf := wellFormed_step h.wellFormed ht
  obtain ⟨l, hl, hstarted⟩ := h.log
  cases step_cases h.wellFormed ht with
  | quiet hquiet hvoting _ _ =>
    obtain ⟨l', hl', hquietLog⟩ := hquiet.log
    refine ⟨hwf, fun r hr p hp hout => ?_, fun r hr p hp hout => ?_, fun r hr p hp hout => ?_,
      fun p hp hout hne => ?_, l' ++ l, by rw [hl', hl, List.append_assoc], fun r now hmem => ?_⟩
    · rw [hquiet.procs]
      exact h.stream r hr p hp hout
    · exact hquiet.ledger hout (h.ledger r hr p hp hout)
    · rw [hl', taken_append_of_quiet hquietLog, hquiet.extOut, hquiet.vot]
      exact h.received r hr p hp hout
    · have hsame : ready c t p = ready c s p := ready_congr fun r _ => by rw [hquiet.vot]
      rw [hsame]
      exact h.settled p hp hout (hvoting ▸ hne)
    · rcases List.mem_append.mp hmem with hmem | hmem
      · rcases hquietLog _ hmem with ⟨q, now', heq⟩ | heq <;> cases heq
      · exact hstarted r now hmem
  | @write r p bytes hr hp hout =>
    refine ⟨hwf, fun r' hr' p' hp' hout' => ?_, fun r' hr' p' hp' hout' => ?_, h.received,
      h.settled, l, hl, hstarted⟩
    · rcases eq_or_ne r' r with rfl | hrr
      · rcases eq_or_ne p' p with rfl | hpp
        · simpa using show (s.procs r').written p' ++ bytes <+: S p' from hok
        · simpa [hpp] using h.stream r' hr' p' hp' hout'
      · simpa [hrr] using h.stream r' hr' p' hp' hout'
    · exact ledger_write bytes (h.ledger r' hr' p' hp' hout') rfl
  | @read _ _ r p hreads hr hp hout _ hread hvoting hstored _ _ =>
    have hfit := hok.fits hreads
    refine ⟨hwf, fun r' hr' p' hp' hout' => ?_, fun r' hr' p' hp' hout' => ?_,
      fun r' hr' p' hp' hout' => ?_, fun q hq hqout hne => ?_, .taken r p (chunk s r p) :: l, ?_,
      fun r' now hmem => hstarted r' now (by simpa using hmem)⟩
    · rw [hread.procs]
      exact h.stream r' hr' p' hp' hout'
    · exact hread.ledger hfit (h.ledger r' hr' p' hp' hout')
    · rw [hread.log hfit, hread.extOut, hread.vot]
      by_cases heq : r' = r ∧ p' = p
      · obtain ⟨rfl, rfl⟩ := heq
        rw [if_pos ⟨rfl, rfl⟩, pipeToBuff_content hfit, ← List.append_assoc,
          ← h.received r' hr' p' hp' hout']
        exact if_pos ⟨rfl, rfl⟩
      · rw [if_neg heq, ← h.received r' hr' p' hp' hout']
        exact if_neg fun h => heq ⟨h.1.symm, h.2.symm⟩
    · have hqp : q ≠ p := fun heq => hne (heq ▸ hstored hfit)
      have hsame : ready c t q = ready c s q := ready_congr fun r' _ => by
        rw [hread.vot, if_neg fun h => hqp h.2]
      rw [hsame]
      exact h.settled q hq hqout (by simp [hvoting])
    · rw [hread.log hfit, hl, List.cons_append]
  | vote hvoting hp hout hs' hvote _ _ ht' => exact h.vote hp hout hvoting hs' hvote ht' hwf
  | expired _ hexpired _ _ _ _ => exact absurd hexpired hok

/-- **Transparency.** Without faults, what was read from a replica is at every moment what
was forwarded followed by what the voter holds for it; between votes as much was forwarded
as was read from the slowest replica; and no replica is ever restarted. -/
theorem transparent {s₀ : State} (hinit : Initial c s₀)
    (hreach : Reaches (step c) (Undisturbed S c) s₀ s) :
    (∀ r < c.repCount, ∀ p < c.pipeCount, c.IsOut p →
      taken r p s.log = s.extOut p ++ (s.vot r p).content) ∧
    (∀ p < c.pipeCount, c.IsOut p → s.voting ≠ some p →
      IsLeast {n | ∃ r < c.repCount, n = (taken r p s.log).length} (s.extOut p).length) ∧
    ∃ l, s.log = l ++ s₀.log ∧ ∀ r now, .started r now ∉ l := by
  have hstart : InStep S c s₀ s₀ := by
    have hwritten : ∀ r p, (s₀.procs r).written p <+: S p := fun r p => by
      rw [hinit.written]
      exact List.nil_prefix
    refine ⟨hinit.wellFormed, fun r _ p _ _ => hwritten r p,
      fun r hr p hp hout => hinit.ledger hr hp hout, fun r hr p hp hout => ?_,
      fun p hp hout _ => ?_, [], rfl, by simp⟩
    · have hcontent : (s₀.vot r p).content = [] :=
        List.eq_nil_of_length_eq_zero (by rw [length_content, hinit.empty r hr p hp hout])
      rw [hinit.extOut, hcontent]
      have hstarted : ∀ l : List Event, (∀ e ∈ l, ∃ r, e = .started r s₀.now) →
          taken r p l = [] := by
        intro l hl
        induction l with
        | nil => rfl
        | cons e l ih =>
          obtain ⟨r', rfl⟩ := hl e List.mem_cons_self
          exact ih fun e he => hl e (List.mem_cons_of_mem _ he)
      exact hstarted s₀.log hinit.log
    · have hle := ready_le c s₀ p hinit.pos
      rw [hinit.empty 0 hinit.pos p hp hout] at hle
      exact Nat.le_zero.mp hle
  have h : InStep S c s₀ s := hreach.invariant hstart fun _ _ _ hs hok hu => inStep_step hs hok hu
  refine ⟨h.received, fun p hp hout hvoting => ⟨?_, ?_⟩, h.log⟩
  · obtain ⟨r, hr, heq⟩ := (h.wellFormed.synced p hp hout).exists_ready_eq h.wellFormed.pos
    rw [h.settled p hp hout hvoting] at heq
    refine ⟨r, hr, ?_⟩
    rw [h.received r hr p hp hout, List.length_append, length_content, ← heq, Nat.add_zero]
  · rintro n ⟨r, hr, rfl⟩
    rw [h.received r hr p hp hout, List.length_append]
    exact Nat.le_add_right _ _

/-- Three replicas that write the same two bytes, one of them in two chunks. -/
def twoChunks : List Act :=
  [.replicaWrites 0 1 [65, 66], .replicaWrites 1 1 [65], .replicaWrites 2 1 [65, 66],
    .update granted, .select, .external granted, .scan, .scan, .scan, .scan, .vote granted, .scan,
    .vote granted, .scan, .vote granted, .replicaWrites 1 1 [66]]

theorem transparent_twoChunks :
    taken 0 1 (follow (step rangerConfig) twoChunks (start rangerConfig 6)).log = [65] ++ [66] :=
  ((transparent (S := fun _ => [65, 66]) initial_ranger
    (reaches_follow (by decide +kernel) (by decide +kernel))).1 0 (by decide +kernel) 1
      (by decide +kernel) (by decide +kernel)).trans (by decide +kernel)

end S3RES.VoterD
