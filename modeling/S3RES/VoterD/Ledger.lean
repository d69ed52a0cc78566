import S3RES.Foundations.Lockstep
import S3RES.VoterD.Alignment

/-!
# The ledger of a replica

`Ledger s r p`: what replica `r` has written to out pipe `p` is what was forwarded there,
then what the voter holds for `r`, then what is still unread. The lemmas say which steps
keep it; a vote does for every replica that agrees with the sender, and a restart passes the
parent's ledger on if nothing of the parent was unread.
-/

namespace S3RES.VoterD

open Lockstep StepSystem

variable {c : Config} {s t : State} {r u v p : ℕ}

/-- What replica `r` has written to `p` and was not forwarded yet. -/
def ahead (s : State) (r p : ℕ) : List UInt8 := (s.vot r p).content ++ s.queue r p

/-- Nothing that replica `r` wrote to `p` was lost, doubled or changed. -/
def Ledger (s : State) (r p : ℕ) : Prop :=
  Accounts (s.extOut p) (ahead s r p) ((s.procs r).written p)

instance (s : State) (r p : ℕ) : Decidable (Ledger s r p) := inferInstanceAs (Decidable (_ = _))

theorem take_ahead {n : ℕ} (hn : n ≤ (s.vot r p).buffCount) :
    (ahead s r p).take n = (s.vot r p).content.take n :=
  List.take_append_of_le_length (by rwa [length_content])

theorem drop_ahead {n : ℕ} (hn : n ≤ (s.vot r p).buffCount) :
    (ahead s r p).drop n = (s.vot r p).content.drop n ++ s.queue r p :=
  List.drop_append_of_le_length (by rwa [length_content])

theorem Initial.ledger (h : Initial c s) (hr : r < c.repCount) (hp : p < c.pipeCount)
    (hout : c.IsOut p) : Ledger s r p := by
  have hcontent : (s.vot r p).content = [] :=
    List.eq_nil_of_length_eq_zero (by rw [length_content, h.empty r hr p hp hout])
  simp [Ledger, Accounts, ahead, hcontent, h.extOut, h.queue, h.written]

theorem Quiet.ahead_eq (h : Quiet c s t) (hout : c.IsOut p) : ahead t r p = ahead s r p := by
  rw [ahead, h.vot, h.queue p hout, ahead]

theorem Quiet.ledger (h : Quiet c s t) (hout : c.IsOut p) (hs : Ledger s r p) :
    Ledger t r p := by
  rw [Ledger, h.extOut, h.ahead_eq hout, h.procs]
  exact hs

/-- A read moves bytes from the kernel to the voter. -/
theorem ReadFrom.ahead_eq {r' p' : ℕ} (h : ReadFrom s t r p) (hfits : Fits s r p) :
    ahead t r' p' = ahead s r' p' := by
  rw [ahead, h.vot, h.queue, ahead]
  split
  · rename_i heq
    obtain ⟨rfl, rfl⟩ := heq
    rw [pipeToBuff_content hfits, List.append_assoc, chunk, List.take_append_drop]
  · rfl

theorem ReadFrom.ledger {r' p' : ℕ} (h : ReadFrom s t r p) (hfits : Fits s r p)
    (hs : Ledger s r' p') : Ledger t r' p' := by
  rw [Ledger, h.extOut, h.ahead_eq hfits, h.procs]
  exact hs

/-- A replica enters what it writes. -/
theorem ledger_write {r' p' : ℕ} (bytes : List UInt8) (hs : Ledger s r' p')
    (ht : t = { s.setQueue r p (s.queue r p ++ bytes) with
      procs := Function.update s.procs r { s.procs r with
        written := Function.update (s.procs r).written p ((s.procs r).written p ++ bytes) } }) :
    Ledger t r' p' := by
  have hqueue : t.queue r' p' =
      if r' = r ∧ p' = p then s.queue r p ++ bytes else s.queue r' p' := by
    rw [ht]
    exact queue_setQueue s r p _ r' p'
  have hvot : t.vot r' p' = s.vot r' p' := by rw [ht]; rfl
  have hextOut : t.extOut = s.extOut := by rw [ht]; rfl
  have hwritten : (t.procs r').written p' =
      if r' = r ∧ p' = p then (s.procs r).written p ++ bytes else (s.procs r').written p' := by
    rw [ht]
    rcases eq_or_ne r' r with rfl | hr
    · rcases eq_or_ne p' p with rfl | hp
      · simp
      · simp [hp]
    · simp [hr]
  rw [Ledger, ahead, hqueue, hvot, hextOut, hwritten]
  split
  · rename_i heq
    obtain ⟨rfl, rfl⟩ := heq
    rw [← List.append_assoc]
    exact hs.write bytes
  · exact hs

/-- Forwarding keeps the ledgers of the replicas that agree with the sender. -/
theorem Forwarded.ledger {n : ℕ} (h : Forwarded c s t p u n) (hqueue : t.queue = s.queue)
    (hprocs : t.procs = s.procs) (hr : r < c.repCount) (hn : n ≤ (s.vot r p).buffCount)
    (hnu : n ≤ (s.vot u p).buffCount)
    (hagree : (s.vot r p).content.take n = (s.vot u p).content.take n) (hs : Ledger s r p) :
    Ledger t r p := by
  have htake : (ahead s r p).take n = (ahead s u p).take n := by
    rw [take_ahead hn, take_ahead hnu, hagree]
  have hforward := hs.forward htake
  rw [take_ahead hnu, drop_ahead hn] at hforward
  rw [Ledger, ahead, h.content hr hn, h.extOut, hqueue, hprocs]
  exact hforward

/-- The other pipes are not concerned. -/
theorem SameLane.ledger (h : SameLane s t p) (hqueue : t.queue = s.queue)
    (hprocs : t.procs = s.procs) (hs : Ledger s r p) : Ledger t r p := by
  rw [Ledger, ahead, h.vot, h.extOut, hqueue, hprocs]
  exact hs

theorem ledger_sendPipe {q : ℕ} (hsynced : Synced c s p) (hu : u < c.repCount)
    (hr : r < c.repCount) (hagree : (s.vot r p).content.take (ready c s p) =
      (s.vot u p).content.take (ready c s p)) (hs : Ledger s r q) :
    Ledger (sendPipe c s p u) r q := by
  have hsame := samePipes_sendPipe hsynced hu
  rcases eq_or_ne q p with rfl | hq
  · exact (forwarded_sendPipe hsynced hu).ledger hsame.queue hsame.procs hr (ready_le c s q hr)
      (ready_le c s q hu) hagree hs
  · exact (sameLane_sendPipe hsynced hu hq).ledger hsame.queue hsame.procs hs

section Reforked

variable (h : Reforked c s t u v) (hp : p < c.pipeCount) (hout : c.IsOut p)
  (hu : u < c.repCount) (huv : u ≠ v)
include h hp hout hu huv

/-- A restart keeps the ledgers of the other replicas that agree with the parent. -/
theorem Reforked.ledger (hr : r < c.repCount) (hrv : r ≠ v)
    (hagree : (s.vot r p).content.take (forkReady c s u v p) =
      (s.vot u p).content.take (forkReady c s u v p)) (hs : Ledger s r p) : Ledger t r p := by
  have hn := forkReady_le c s u v p hr hrv
  have hnu := forkReady_le c s u v p hu huv
  have hreplaced := h.replaced p hp hout
  have htake : (ahead s r p).take (forkReady c s u v p) =
      (ahead s u p).take (forkReady c s u v p) := by
    rw [take_ahead hn, take_ahead hnu, hagree]
  have hforward := hs.forward htake
  rw [take_ahead hnu, drop_ahead hn] at hforward
  rw [Ledger, ahead, hreplaced.content hr hrv, hreplaced.extOut, h.queue p hp hout, if_neg hrv,
    h.procs, Function.update_of_ne hrv]
  exact hforward

/-- The fork takes over the parent's ledger, if nothing of the parent is unread. -/
theorem Reforked.ledger_fork (hsynced : Synced c s p) (hs : Ledger s u p)
    (hqueue : s.queue u p = []) : Ledger t v p := by
  have hparent : Ledger t u p := h.ledger hp hout hu huv hu huv rfl hs
  have haligned : Aligned t u v p := (h.aligned_iff hsynced hp hout hu huv).mpr hqueue
  have hprocs : t.procs v = t.procs u := by
    rw [h.procs, Function.update_self, Function.update_of_ne huv]
  rw [Ledger, ahead, hprocs, show _ = _ from haligned]
  exact hparent

end Reforked

end S3RES.VoterD
