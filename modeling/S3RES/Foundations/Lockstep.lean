import Mathlib

/-!
# Streams in lockstep

Several writers produce one stream, each at its own pace; a reader forwards what they agree
on. `Accounts done rest written`: of what a writer has written, `done` was forwarded and
`rest` is still ahead. Two writers with the same `done` whose output are prefixes of one
stream agree wherever both have output ahead (`Accounts.take_eq`), and forwarding what
writers agree on keeps the accounts of all of them (`Accounts.forward`).
-/

namespace Lockstep

variable {α : Type*} {done rest rest' written written' stream : List α} {n : ℕ}

/-- Of `written`, `done` was forwarded and `rest` is still ahead. -/
def Accounts (done rest written : List α) : Prop := done ++ rest = written

theorem Accounts.write (h : Accounts done rest written) (new : List α) :
    Accounts done (rest ++ new) (written ++ new) := by
  rw [Accounts, ← List.append_assoc, show done ++ rest = written from h]

/-- Forwarding what some writer has ahead keeps the accounts of those that agree with it. -/
theorem Accounts.forward (h : Accounts done rest written) (hagree : rest.take n = rest'.take n) :
    Accounts (done ++ rest'.take n) (rest.drop n) written := by
  rw [Accounts, ← hagree, List.append_assoc, List.take_append_drop]
  exact h

theorem Accounts.isPrefix_done (h : Accounts done rest written) (hwritten : written <+: stream) :
    done <+: stream :=
  List.IsPrefix.trans ⟨rest, h⟩ hwritten

/-- Writers of one stream agree on what both have ahead. -/
theorem Accounts.take_eq (h : Accounts done rest written) (h' : Accounts done rest' written')
    (hwritten : written <+: stream) (hwritten' : written' <+: stream) (hn : n ≤ rest.length)
    (hn' : n ≤ rest'.length) : rest.take n = rest'.take n := by
  have htake : ∀ {r w : List α}, Accounts done r w → w <+: stream → n ≤ r.length →
      r.take n = (stream.drop done.length).take n := by
    intro r w hr hw hlen
    obtain ⟨tail, rfl⟩ := hw
    rw [← show done ++ r = w from hr, List.append_assoc, List.drop_left,
      List.take_append_of_le_length hlen]
  rw [htake h hwritten hn, htake h' hwritten' hn']

end Lockstep
