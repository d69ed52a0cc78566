import Mathlib

/-!
# An answer over several channels

A party answers a request over the channels in `D`: at most one write per channel, the write
on channel `q` last. What it writes waits in the queue of the channel until a reader takes
it. The reader works in passes: it finds out which channels are readable (`Sound.snapshot`)
and reads these one after the other (`Sound.read`), while the party goes on writing
(`Sound.write`). `Sound.complete`: when a pass is over and something was read on `q`, the
whole answer was read, on every channel.
-/

namespace Delivery

variable {ι α : Type*}

/-- What the reader holds of each channel, what is unread, and what was written at all. -/
structure Channels (ι α : Type*) where
  held : ι → List α
  queue : ι → List α
  wrote : ι → List α

variable {D : Set ι} {A : ι → List α} {p q : ι} {x : Channels ι α} {due due' : ι → Prop}

/-- A write that is the next part of the answer `A`. -/
structure Turn (D : Set ι) (A : ι → List α) (q : ι) (x : Channels ι α) (p : ι)
    (bytes : List α) : Prop where
  fresh : x.wrote p = []
  before : x.wrote q = []
  bytes : bytes = A p
  last : p = q → ∀ p' ∈ D, p' ≠ q → x.wrote p' = A p'

/-- The state of an answer, with the channels that are still `due` in this pass. -/
structure Sound (D : Set ι) (A : ι → List α) (q : ι) (x : Channels ι α) (due : ι → Prop) :
    Prop where
  account : ∀ p ∈ D, x.held p ++ x.queue p = x.wrote p
  once : ∀ p ∈ D, x.held p = [] ∨ x.queue p = []
  plan : ∀ p ∈ D, x.wrote p = [] ∨ x.wrote p = A p
  order : x.wrote q ≠ [] → ∀ p ∈ D, x.wrote p = A p
  readable : ∀ p ∈ D, due p → x.queue p ≠ []
  pass : x.held q ≠ [] ∨ due q → ∀ p ∈ D, x.held p = A p ∨ due p

/-- Nothing was written yet. -/
theorem sound_start (hheld : ∀ p ∈ D, x.held p = []) (hqueue : ∀ p ∈ D, x.queue p = [])
    (hwrote : ∀ p ∈ D, x.wrote p = []) (hq : q ∈ D) : Sound D A q x fun _ => False where
  account p hp := by rw [hheld p hp, hqueue p hp, hwrote p hp, List.append_nil]
  once p hp := .inl (hheld p hp)
  plan p hp := .inl (hwrote p hp)
  order h := absurd (hwrote q hq) h
  readable _ _ h := h.elim
  pass h := absurd (hheld q hq) (h.resolve_right id)

theorem Sound.congr (h : Sound D A q x due) (hdue : ∀ p, due' p ↔ due p) :
    Sound D A q x due' := by
  obtain rfl : due' = due := funext fun p => propext (hdue p)
  exact h

/-- What is unread was written, and nothing else of the channel was read. -/
theorem Sound.queue_eq (h : Sound D A q x due) (hp : p ∈ D) (hne : x.queue p ≠ []) :
    x.held p = [] ∧ x.queue p = A p := by
  have hheld : x.held p = [] := (h.once p hp).resolve_right hne
  have hqueue : x.queue p = x.wrote p := by simpa [hheld] using h.account p hp
  refine ⟨hheld, ?_⟩
  rcases h.plan p hp with hnil | hplan
  · exact absurd (hqueue.trans hnil) hne
  · exact hqueue.trans hplan

/-- What was read is the answer. -/
theorem Sound.held_eq (h : Sound D A q x due) (hp : p ∈ D) (hne : x.held p ≠ []) :
    x.held p = A p := by
  have hqueue : x.queue p = [] := (h.once p hp).resolve_left hne
  have hheld : x.held p = x.wrote p := by simpa [hqueue] using h.account p hp
  rcases h.plan p hp with hnil | hplan
  · exact absurd (hheld.trans hnil) hne
  · exact hheld.trans hplan

theorem Sound.length_queue_le (h : Sound D A q x due) (hp : p ∈ D) :
    (x.queue p).length ≤ (A p).length := by
  by_cases hne : x.queue p = []
  · simp [hne]
  · rw [(h.queue_eq hp hne).2]

/-- A new pass begins: what is unread becomes due. -/
theorem Sound.snapshot (h : Sound D A q x fun _ => False) (hq : q ∈ D)
    (hdue : ∀ p ∈ D, due p ↔ x.queue p ≠ []) : Sound D A q x due := by
  refine ⟨h.account, h.once, h.plan, h.order, fun p hp => (hdue p hp).mp, fun hpass p hp => ?_⟩
  rcases hpass with hheld | hd
  · exact .inl ((h.pass (.inl hheld) p hp).resolve_right id)
  · -- what is unread on `q` was written last
    have hwrote : x.wrote p = A p := by
      refine h.order ?_ p hp
      rw [← h.account q hq]
      simp [(hdue q hq).mp hd]
    by_cases hqueue : x.queue p = []
    · have haccount := h.account p hp
      rw [hqueue, List.append_nil, hwrote] at haccount
      exact .inl haccount
    · exact .inr ((hdue p hp).mpr hqueue)

/-- **Complete answers.** -/
theorem Sound.complete (h : Sound D A q x fun _ => False) (hne : x.held q ≠ []) (hp : p ∈ D) :
    x.held p = A p ∧ x.queue p = [] := by
  have hheld : x.held p = A p := (h.pass (.inl hne) p hp).resolve_right id
  refine ⟨hheld, ?_⟩
  rcases h.once p hp with hnil | hqueue
  · rw [hnil] at hheld
    by_contra hne
    exact hne ((h.queue_eq hp hne).2.trans hheld.symm)
  · exact hqueue

/-! ### Writing and reading -/

variable [DecidableEq ι]

/-- The party writes to channel `p`. -/
def Channels.write (x : Channels ι α) (p : ι) (bytes : List α) : Channels ι α :=
  ⟨x.held, Function.update x.queue p (x.queue p ++ bytes),
    Function.update x.wrote p (x.wrote p ++ bytes)⟩

/-- The reader takes what is unread on channel `p`, and forgets what it held of it. -/
def Channels.read (x : Channels ι α) (p : ι) : Channels ι α :=
  ⟨Function.update x.held p (x.queue p), Function.update x.queue p [], x.wrote⟩

/-- The party writes the next part of its answer. -/
theorem Sound.write (h : Sound D A q x due) (hp : p ∈ D) {bytes : List α}
    (hturn : Turn D A q x p bytes) : Sound D A q (x.write p bytes) due := by
  have hheld : x.held p = [] := by
    have haccount := h.account p hp
    rw [hturn.fresh] at haccount
    exact (List.append_eq_nil_iff.mp haccount).1
  refine ⟨fun p' hp' => ?_, fun p' hp' => ?_, fun p' hp' => ?_, fun hne p' hp' => ?_,
    fun p' hp' hdue => ?_, h.pass⟩
  · rcases eq_or_ne p' p with rfl | hpp
    · simp [Channels.write, ← h.account p' hp', hheld]
    · simpa [Channels.write, hpp] using h.account p' hp'
  · rcases eq_or_ne p' p with rfl | hpp
    · exact .inl hheld
    · simpa [Channels.write, hpp] using h.once p' hp'
  · rcases eq_or_ne p' p with rfl | hpp
    · exact .inr (by simp [Channels.write, hturn.fresh, hturn.bytes])
    · simpa [Channels.write, hpp] using h.plan p' hp'
  · -- the last write of the answer is the one on `q`
    obtain rfl : p = q := by
      by_contra hpq
      exact hne (by simpa [Channels.write, Ne.symm hpq] using hturn.before)
    rcases eq_or_ne p' p with rfl | hpp
    · simp [Channels.write, hturn.fresh, hturn.bytes]
    · simpa [Channels.write, hpp] using hturn.last rfl p' hp' hpp
  · rcases eq_or_ne p' p with rfl | hpp
    · simp [Channels.write, h.readable p' hp' hdue]
    · simpa [Channels.write, hpp] using h.readable p' hp' hdue

/-- The reader reads a channel that is due. -/
theorem Sound.read (h : Sound D A q x due) (hp : p ∈ D) (hdue : due p)
    (hdue' : ∀ p', due' p' ↔ due p' ∧ p' ≠ p) : Sound D A q (x.read p) due' := by
  have hne := h.readable p hp hdue
  obtain ⟨hheld, hqueue⟩ := h.queue_eq hp hne
  refine ⟨fun p' hp' => ?_, fun p' hp' => ?_, h.plan, h.order, fun p' hp' hd => ?_,
    fun hpass p' hp' => ?_⟩
  · rcases eq_or_ne p' p with rfl | hpp
    · simp [Channels.read, ← h.account p' hp', hheld]
    · simpa [Channels.read, hpp] using h.account p' hp'
  · rcases eq_or_ne p' p with rfl | hpp
    · exact .inr (by simp [Channels.read])
    · simpa [Channels.read, hpp] using h.once p' hp'
  · obtain ⟨hd, hpp⟩ := (hdue' p').mp hd
    simpa [Channels.read, hpp] using h.readable p' hp' hd
  · have hold : x.held q ≠ [] ∨ due q := by
      rcases eq_or_ne q p with rfl | hqp
      · exact .inr hdue
      · rcases hpass with hq | hq
        · exact .inl (by simpa [Channels.read, hqp] using hq)
        · exact .inr ((hdue' q).mp hq).1
    rcases eq_or_ne p' p with rfl | hpp
    · exact .inl (by simp [Channels.read, hqueue])
    · rcases h.pass hold p' hp' with hA | hd
      · exact .inl (by simpa [Channels.read, hpp] using hA)
      · exact .inr ((hdue' p').mpr ⟨hd, hpp⟩)

end Delivery
