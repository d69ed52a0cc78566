import S3RES.VoterD.Transparency

/-!
# Masking one faulty replica

In TMR two replicas write prefixes of the streams `S p` and the third anything at any
moment. `masked`: what is forwarded is a prefix of `S p`, as long as every restart the timer
causes has a sound parent, and does not lose output while the third replica is unsound
(`SafeRestart`). The vote itself never chooses wrongly.

The invariant is `Masked`: all replicas but at most one are sound, that is fault-free and
with a ledger on every out pipe. A fork of a sound parent is sound exactly if nothing of the
parent was unread.
-/

namespace S3RES.VoterD

open Lockstep StepSystem

variable {c : Config} {s t : State} {S : ℕ → List UInt8} {r u v p : ℕ}

/-- Replica `r` is fault-free and none of its output was lost, doubled or changed. -/
def Sound (c : Config) (s : State) (r : ℕ) : Prop :=
  (s.procs r).faulty = false ∧ ∀ p < c.pipeCount, c.IsOut p → Ledger s r p

instance (c : Config) (s : State) (r : ℕ) : Decidable (Sound c s r) :=
  inferInstanceAs (Decidable (_ ∧ _))

/-- What the surroundings of the voter are trusted with: a fault-free replica continues the
stream of the pipe, and every read fits. -/
def Lawful (S : ℕ → List UInt8) (s : State) : Act → Prop
  | .replicaWrites r p bytes =>
    (s.procs r).faulty = false → (s.procs r).written p ++ bytes <+: S p
  | a => ∀ x ∈ reads s a, Fits s x.1 x.2

instance (S : ℕ → List UInt8) (s : State) : ∀ a, Decidable (Lawful S s a)
  | .replicaWrites _ _ _ => inferInstanceAs (Decidable (_ → _ <+: _))
  | .update _ | .select | .external _ | .scan | .wake | .vote _ | .replicaReads _ _ _
  | .externalWrites _ _ | .tick _ => inferInstanceAs (Decidable (∀ x ∈ reads s _, Fits s x.1 x.2))

theorem Lawful.fits {a : Act} (h : Lawful S s a) (hreads : reads s a = some (r, p)) :
    Fits s r p := by
  rcases reads_eq_some hreads with rfl | rfl
  · exact h (r, p) hreads
  · exact h (r, p) hreads

/-- The replica that is replaced when the timer runs out, and its parent. -/
def victim (c : Config) (s : State) : ℕ :=
  behindRep s.replicas c.repCount (c.timerStopIndex s.currentTimer)

def parent (c : Config) (s : State) : ℕ := (victim c s + (c.repCount - 1)) % c.repCount

/-- If this step handles an expired timer, the parent it chooses is sound, and so is the
remaining replica unless nothing of the parent is unread. -/
def SafeRestart (c : Config) (s : State) : Act → Prop
  | .update _ =>
    s.point = .update → Expired c s → Sound c s (parent c s) ∧
      ((∀ r < c.repCount, r ≠ victim c s → Sound c s r) ∨
        ∀ p < c.pipeCount, c.IsOut p → s.queue (parent c s) p = [])
  | _ => True

instance (c : Config) (s : State) : ∀ a, Decidable (SafeRestart c s a)
  | .update _ => inferInstanceAs (Decidable (_ → _ → _ ∧ (_ ∨ _)))
  | .select | .external _ | .scan | .wake | .vote _ | .replicaWrites _ _ _
  | .replicaReads _ _ _ | .externalWrites _ _ | .tick _ => inferInstanceAs (Decidable True)

/-- The invariant: fault-free replicas write the streams, and at most one is not sound. -/
structure Masked (S : ℕ → List UInt8) (c : Config) (s : State) : Prop where
  stream : ∀ r < c.repCount, (s.procs r).faulty = false → ∀ p < c.pipeCount, c.IsOut p →
    (s.procs r).written p <+: S p
  sound : ∃ b, ∀ r < c.repCount, r ≠ b → Sound c s r

/-- Two sound replicas agree on what both have. -/
theorem Masked.take_eq (h : Masked S c s) {r' n : ℕ} (hr : r < c.repCount) (hr' : r' < c.repCount)
    (hs : Sound c s r) (hs' : Sound c s r') (hp : p < c.pipeCount) (hout : c.IsOut p)
    (hn : n ≤ (s.vot r p).buffCount) (hn' : n ≤ (s.vot r' p).buffCount) :
    (s.vot r p).content.take n = (s.vot r' p).content.take n :=
  take_content_eq (hs.2 p hp hout) (hs'.2 p hp hout) (h.stream r hr hs.1 p hp hout)
    (h.stream r' hr' hs'.1 p hp hout) hn hn'

/-- What was forwarded is a prefix of the stream. -/
theorem Masked.isPrefix_extOut (h : Masked S c s) (htwo : 2 ≤ c.repCount) (hp : p < c.pipeCount)
    (hout : c.IsOut p) : s.extOut p <+: S p := by
  obtain ⟨b, hb⟩ := h.sound
  have hother : ∃ r < c.repCount, r ≠ b := by
    rcases eq_or_ne b 0 with rfl | hb0
    · exact ⟨1, by omega, by omega⟩
    · exact ⟨0, by omega, hb0.symm⟩
  obtain ⟨r, hr, hrb⟩ := hother
  obtain ⟨hfaulty, hledger⟩ := hb r hr hrb
  exact (hledger p hp hout).isPrefix_done (h.stream r hr hfaulty p hp hout)

/-- A restart from a sound parent leaves at most one replica unsound. -/
theorem Masked.refork (h : Masked S c s) (hr : Reforked c s t u v)
    (hsynced : ∀ p < c.pipeCount, c.IsOut p → Synced c s p) (hu : u < c.repCount)
    (hv : v < c.repCount) (huv : u ≠ v) (hparent : Sound c s u)
    (hsafe : (∀ r < c.repCount, r ≠ v → Sound c s r) ∨
      ∀ p < c.pipeCount, c.IsOut p → s.queue u p = []) (hthree : c.repCount = 3) :
    Masked S c t := by
  have hother : ∀ r ≠ v, t.procs r = s.procs r := fun r hrv => by
    rw [hr.procs, Function.update_of_ne hrv]
  have hfork : t.procs v = s.procs u := by rw [hr.procs, Function.update_self]
  -- whoever was sound and is not replaced stays sound, as it agrees with the parent
  have hkeep : ∀ r < c.repCount, r ≠ v → Sound c s r → Sound c t r := by
    intro r hrlt hrv hsound
    refine ⟨by rw [hother r hrv]; exact hsound.1, fun p hp hout => ?_⟩
    exact hr.ledger hp hout hu huv hrlt hrv (h.take_eq hrlt hu hsound hparent hp hout
      (forkReady_le c s u v p hrlt hrv) (forkReady_le c s u v p hu huv)) (hsound.2 p hp hout)
  refine ⟨fun r hrlt hfaulty p hp hout => ?_, ?_⟩
  · rcases eq_or_ne r v with rfl | hrv
    · rw [hfork] at hfaulty ⊢
      exact h.stream u hu hfaulty p hp hout
    · rw [hother r hrv] at hfaulty ⊢
      exact h.stream r hrlt hfaulty p hp hout
  · rcases hsafe with hall | hqueue
    · exact ⟨v, fun r hrlt hrv => hkeep r hrlt hrv (hall r hrlt hrv)⟩
    · -- the third replica may be unsound, but parent and fork are sound
      refine ⟨3 - u - v, fun r hrlt hrb => ?_⟩
      rcases eq_or_ne r v with rfl | hrv
      · refine ⟨by rw [hfork]; exact hparent.1, fun p hp hout => ?_⟩
        exact hr.ledger_fork hp hout hu huv (hsynced p hp hout)
          (hparent.2 p hp hout) (hqueue p hp hout)
      · have hru : r = u := by omega
        rw [hru]
        exact hkeep u hu huv hparent

/-- The invariant looks at the output of the replicas only. -/
theorem Masked.quiet (h : Masked S c s) (hquiet : Quiet c s t) : Masked S c t := by
  refine ⟨fun r hr hfaulty p hp hout => ?_, ?_⟩
  · rw [hquiet.procs] at hfaulty ⊢
    exact h.stream r hr hfaulty p hp hout
  · obtain ⟨b, hb⟩ := h.sound
    refine ⟨b, fun r hr hrb =>
      ⟨?_, fun p hp hout => hquiet.ledger hout ((hb r hr hrb).2 p hp hout)⟩⟩
    rw [hquiet.procs]
    exact (hb r hr hrb).1

theorem quiet_setPoint (s : State) (point : Point) : Quiet c s { s with point := point } :=
  (Quiet.refl s).setPoint point

/-- The vote never chooses wrongly: the replica it replaces is not sound. -/
theorem Masked.vote (h : Masked S c s) (hvote : Vote c s t p) (hplumbed : Plumbed c s)
    (hsynced : ∀ p < c.pipeCount, c.IsOut p → Synced c s p) (hthree : c.repCount = 3)
    (htype : c.repType = .tmr) (hp : p < c.pipeCount) (hout : c.IsOut p) : Masked S c t := by
  obtain ⟨b, hb⟩ := h.sound
  cases hvote with
  | tied _ ht _ =>
    rw [ht]
    exact h
  | sent u hu ht hagree =>
    have hsame := samePipes_sendPipe (hsynced p hp hout) hu
    rw [← ht] at hsame
    refine ⟨fun r hr hfaulty q hq hqout => ?_, b, fun r hr hrb => ⟨?_, fun q hq hqout => ?_⟩⟩
    · rw [hsame.procs] at hfaulty ⊢
      exact h.stream r hr hfaulty q hq hqout
    · rw [hsame.procs]
      exact (hb r hr hrb).1
    · rw [ht]
      exact ledger_sendPipe (hsynced p hp hout) hu hr (hagree htype r hr)
        ((hb r hr hrb).2 q hq hqout)
  | outvoted u v sched _ hu hv huv ht hagree hdiffer =>
    have hreforked := reforked_restartPrep hplumbed
      (fun q hq hqout => (hsynced q hq hqout).but v) hu hv huv sched
    rw [← ht] at hreforked
    -- were slot `v` sound, it would agree with a sound one of the two others
    have hunsound : ¬ Sound c s v := by
      intro hsound
      have hother : ∃ r < c.repCount, r ≠ v ∧ Sound c s r := by
        rcases eq_or_ne u b with rfl | hub
        · exact ⟨3 - u - v, by omega, by omega, hb _ (by omega) (by omega)⟩
        · exact ⟨u, hu, huv, hb u hu hub⟩
      obtain ⟨r, hr, hrv, hsound'⟩ := hother
      refine hdiffer ((h.take_eq hv hr hsound hsound' hp hout (ready_le c s p hv)
        (ready_le c s p hr)).trans (hagree r hr hrv))
    have hvb : v = b := by
      by_contra hvb
      exact hunsound (hb v hv hvb)
    rw [← hvb] at hb
    exact h.refork hreforked hsynced hu hv huv (hb u hu huv) (.inl hb) hthree

/-- One lawful step with a safe restart keeps the invariant. -/
theorem masked_step {a : Act} (hwf : WellFormed c s) (h : Masked S c s)
    (htype : c.repType = .tmr) (hlawful : Lawful S s a) (hsafe : SafeRestart c s a)
    (ht : t ∈ step c s a) : Masked S c t := by
  have hthree : c.repCount = 3 := by rw [Config.repCount, htype]; rfl
  cases step_cases hwf ht with
  | quiet hquiet _ _ _ => exact h.quiet hquiet
  | @write r p bytes hr hp hout =>
    obtain ⟨b, hb⟩ := h.sound
    have hfaulty : ∀ r', (Function.update s.procs r { s.procs r with
        written := Function.update (s.procs r).written p ((s.procs r).written p ++ bytes) }
          r').faulty = (s.procs r').faulty := by
      intro r'
      rcases eq_or_ne r' r with rfl | hrr
      · simp
      · simp [hrr]
    refine ⟨fun r' hr' hfault p' hp' hout' => ?_, b, fun r' hr' hrb => ⟨?_, fun p' hp' hout' => ?_⟩⟩
    · rw [hfaulty] at hfault
      rcases eq_or_ne r' r with rfl | hrr
      · rcases eq_or_ne p' p with rfl | hpp
        · simpa using show (s.procs r').written p' ++ bytes <+: S p' from hlawful hfault
        · simpa [hpp] using h.stream r' hr' hfault p' hp' hout'
      · simpa [hrr] using h.stream r' hr' hfault p' hp' hout'
    · exact (hfaulty r').trans (hb r' hr' hrb).1
    · exact ledger_write bytes ((hb r' hr' hrb).2 p' hp' hout') rfl
  | read hreads _ _ _ _ hread _ _ _ _ =>
    obtain ⟨b, hb⟩ := h.sound
    have hfits := hlawful.fits hreads
    refine ⟨fun r hr hfaulty p hp hout => ?_, b, fun r hr hrb => ⟨?_, fun p hp hout => ?_⟩⟩
    · rw [hread.procs] at hfaulty ⊢
      exact h.stream r hr hfaulty p hp hout
    · rw [hread.procs]
      exact (hb r hr hrb).1
    · exact hread.ledger hfits ((hb r hr hrb).2 p hp hout)
  | @vote sched s' _ _ _ _ hp hout hs' hvote _ _ ht' =>
    have hquiet : Quiet c s s' := hs' ▸ quiet_balance s (sched 0)
    rw [ht']
    exact ((h.quiet hquiet).vote hvote (hquiet.plumbed hwf.plumbed)
      (fun q hq hqout => hquiet.synced (hwf.synced q hq hqout)) hthree htype hp hout).quiet
      (quiet_setPoint _ _)
  | expired hpoint hexpired hhandled _ _ ht' =>
    rw [ht']
    refine Masked.quiet ?_ (quiet_setPoint _ _)
    cases hhandled with
    | cold hsmr _ => simp [htype] at hsmr
    | behind u v sched hu huv _ hv hparent ht'' =>
      have hlt : v < c.repCount := by
        rw [hv]
        exact behindRep_lt _ _ hwf.pos
      have hreforked := reforked_restartPrep hwf.plumbed
        (fun q hq hqout => (hwf.synced q hq hqout).but v) hu hlt huv sched
      rw [← ht''] at hreforked
      obtain ⟨hsound, hrest⟩ := hsafe hpoint hexpired
      have hv' : v = victim c s := hv
      have hu' : u = parent c s := by rw [hparent, hv']; rfl
      rw [← hu', ← hv'] at hrest
      rw [← hu'] at hsound
      exact h.refork hreforked hwf.synced hu hlt huv hsound hrest hthree

/-- **Masking.** In every run of TMR with at most one faulty replica, lawful surroundings and
safe restarts on expired timers, what was forwarded is at every moment a prefix of the
stream. -/
theorem masked {s₀ : State} (htype : c.repType = .tmr) (hinit : Initial c s₀)
    (hone : ∃ b, ∀ r < c.repCount, r ≠ b → (s₀.procs r).faulty = false)
    (hreach : Reaches (step c) (fun s a => Lawful S s a ∧ SafeRestart c s a) s₀ s) :
    ∀ p < c.pipeCount, c.IsOut p → s.extOut p <+: S p := by
  have hthree : c.repCount = 3 := by rw [Config.repCount, htype]; rfl
  have hstart : WellFormed c s₀ ∧ Masked S c s₀ := by
    obtain ⟨b, hb⟩ := hone
    refine ⟨hinit.wellFormed, fun r _ _ p _ _ => ?_, b, fun r hr hrb => ⟨hb r hr hrb, ?_⟩⟩
    · rw [hinit.written]
      exact List.nil_prefix
    · exact fun p hp hout => hinit.ledger hr hp hout
  have h := hreach.invariant (I := fun s => WellFormed c s ∧ Masked S c s) hstart
    fun s a t hs hok ht =>
      ⟨wellFormed_step hs.1 ht, masked_step hs.1 hs.2 htype hok.1 hok.2 ht⟩
  exact fun p hp hout => h.2.isPrefix_extOut (by omega) hp hout

/-! ### Runs with a faulty replica -/

/-- The process of slot `r` is faulty. -/
def State.withFault (s : State) (r : ℕ) : State :=
  { s with procs := Function.update s.procs r { s.procs r with faulty := true } }

theorem Initial.withFault (h : Initial c s) (r : ℕ) : Initial c (s.withFault r) := by
  refine ⟨h.pos, h.point, h.timer, h.plumbed, fun p hp hout => (h.index p hp hout).congr
    fun _ _ => rfl, h.empty, h.queue, h.extOut, fun r' p => ?_, h.log⟩
  rcases eq_or_ne r' r with rfl | hr
  · simpa [State.withFault] using h.written r' p
  · simpa [State.withFault, hr] using h.written r' p

/-- Replica 0 of `rangerConfig` is faulty. -/
def rangerFault : State := (start rangerConfig 6).withFault 0

/-- One round of the replica loop over both pipes, with a vote behind the reads of replicas
in `rs` on pipe 1. -/
def pass (rs : List ℕ) : List Act :=
  [Act.update granted, .select, .external granted, .scan, .scan, .scan] ++
    ((List.range 3).flatMap fun r => if r ∈ rs then [Act.scan, .vote granted] else [.scan]) ++
    [Act.scan]

/-- Replica 0 writes a wrong byte and is outvoted. -/
theorem masked_wrong_byte :
    (follow (step rangerConfig) ([Act.replicaWrites 0 1 [88], .replicaWrites 1 1 [65],
      .replicaWrites 2 1 [65]] ++ pass [0, 1, 2]) rangerFault).extOut 1 <+: [65, 66] :=
  masked (S := fun _ => [65, 66]) (by decide +kernel) (initial_ranger.withFault 0)
    ⟨0, by decide +kernel⟩ (reaches_follow (by decide +kernel) (by decide +kernel)) 1
    (by decide +kernel) (by decide +kernel)

/-- Replica 0 writes unasked and starts the timer. When it runs out the two others, of whom
nothing was expected, are behind: one of them is replaced by a fork of replica 0, and the
other is outvoted as soon as it writes. -/
def unsolicited : List Act :=
  [Act.replicaWrites 0 1 [88]] ++ pass [0] ++ [Act.tick 2302000, .update granted,
    .replicaWrites 2 1 [65], .select, .external granted, .scan, .scan, .scan, .scan, .scan, .scan,
    .vote granted]

/-- The event is a delivery of input. -/
def Event.isInput : Event → Bool
  | .delivered _ _ => true
  | _ => false

theorem not_masked_unsolicited : Initial rangerConfig rangerFault ∧
    (∀ r < rangerConfig.repCount, r ≠ 0 → (rangerFault.procs r).faulty = false) ∧
    ∃ s, Reaches (step rangerConfig) (Lawful fun _ => [65]) rangerFault s ∧
      (∀ e ∈ s.log, e.isInput = false) ∧ ¬ s.extOut 1 <+: [65] :=
  ⟨initial_ranger.withFault 0, by decide +kernel,
    follow (step rangerConfig) unsolicited rangerFault,
    reaches_follow (by decide +kernel) (by decide +kernel), by decide +kernel, by decide +kernel⟩

end S3RES.VoterD
