import S3RES.CommTypes.SerialPipe

/-!
# The arguments of a replica

`forkReplicas` of VoterM writes the priority and the number of pipes by hand, with a byte for the
tens and one for the units, and the controllers read them back with `atoi`. A byte that is more than
a digit stands for the tens of a larger number, and the units of a number below 0 are subtracted
from the digit 0, so `argumentsRead_iff`: both arrive exactly if they are numbers from 0 to 99.
-/

namespace S3RES.VoterM

/-- An `int` in a `char`. -/
def toChar (n : ℤ) : UInt8 := UInt8.ofNat (n % 256).toNat

/-- The tens, of a number above 0, and the units. -/
def tensAndUnits (n : ℤ) : List UInt8 :=
  (if 0 < n then [toChar (48 + n.tdiv 10)] else []) ++ [toChar (48 + n.tmod 10)]

/-- `rep_argv[1]`, as it arrives: up to the first 0. -/
def priorityArgument (priority : ℤ) : List UInt8 :=
  ((if priority < 0 then [45] else []) ++ tensAndUnits priority).takeWhile (· ≠ 0)

/-- `rep_argv[2]`. -/
def pipeCountArgument (pipeCount : ℤ) : List UInt8 := (tensAndUnits pipeCount).takeWhile (· ≠ 0)

/-- The controller reads what VoterM wrote. -/
def ArgumentsRead (priority pipeCount : ℤ) : Prop :=
  atoi (priorityArgument priority) = priority ∧ atoi (pipeCountArgument pipeCount) = pipeCount

/-! ### What `atoi` makes of few bytes -/

theorem digitsValue_lt {l : List UInt8} (hl : ∀ b ∈ l, isDigit b = true) :
    digitsValue l < 10 ^ l.length := by
  induction l using List.reverseRecOn with
  | nil => exact Nat.one_pos
  | append_singleton l b ih =>
    have hb := hl b (by simp)
    have hlast : digitsValue (l ++ [b]) = 10 * digitsValue l + (b.toNat - 48) := by
      simp [digitsValue]
    have hrest := ih fun c hc => hl c (by simp [hc])
    have hb' : b.toNat ≤ 57 := by
      simp only [isDigit, Bool.and_eq_true, decide_eq_true_eq, UInt8.le_iff_toNat_le] at hb
      exact hb.2
    rw [hlast, List.length_append, List.length_singleton, pow_succ]
    omega

theorem digitsValue_takeWhile_lt (l : List UInt8) :
    digitsValue (l.takeWhile isDigit) < 10 ^ l.length := by
  refine (digitsValue_lt fun b hb => List.mem_takeWhile_imp hb).trans_le ?_
  exact Nat.pow_le_pow_right (by norm_num) (List.takeWhile_sublist _).length_le

/-- Two bytes are at most two digits. -/
theorem atoi_lt {l : List UInt8} {n : ℕ} (hl : l.length ≤ n) : atoi l < 10 ^ n := by
  have hdrop : (l.dropWhile isSpace).length ≤ n := (List.dropWhile_sublist _).length_le.trans hl
  have hpos : (0 : ℤ) < 10 ^ n := by positivity
  have hdigits : ∀ m : List UInt8, m.length ≤ n →
      (digitsValue (m.takeWhile isDigit) : ℤ) < 10 ^ n := fun m hm => by
    exact_mod_cast (digitsValue_takeWhile_lt m).trans_le (Nat.pow_le_pow_right (by norm_num) hm)
  rw [atoi]
  split
  · exact hpos
  · rename_i b m heq
    rw [heq, List.length_cons] at hdrop
    split_ifs
    · omega
    · exact hdigits m (by omega)
    · exact hdigits (b :: m) hdrop

/-! ### Both arguments -/

theorem atoi_tensAndUnits_iff {n : ℤ} (hn : 0 ≤ n) :
    atoi ((tensAndUnits n).takeWhile (· ≠ 0)) = n ↔ n ≤ 99 := by
  constructor
  · intro h
    have hlength : ((tensAndUnits n).takeWhile (· ≠ 0)).length ≤ 2 := by
      refine (List.takeWhile_sublist _).length_le.trans ?_
      rw [tensAndUnits, List.length_append]
      split_ifs <;> simp
    have hlt := atoi_lt hlength
    omega
  · intro h
    lift n to ℕ using hn
    have hall : ∀ k < 100, atoi ((tensAndUnits (k : ℕ)).takeWhile (· ≠ 0)) = k := by
      decide +kernel
    exact hall n (by omega)

/-- A minus, and a byte that is no digit or the digit 0. -/
theorem atoi_priorityArgument_of_neg {n : ℤ} (hn : n < 0) : atoi (priorityArgument n) = 0 := by
  have hlower : -10 < n.tmod 10 := Int.lt_tmod_of_pos n (by norm_num)
  have hupper : n.tmod 10 ≤ 0 := by
    rw [← neg_neg n, Int.neg_tmod]
    have := Int.tmod_nonneg 10 (a := -n) (by omega)
    omega
  have hall : ∀ k < 10, atoi ([45, toChar (48 - (k : ℕ))].takeWhile (· ≠ 0)) = 0 := by
    decide +kernel
  have hk := hall (-n.tmod 10).toNat (by omega)
  rw [Int.toNat_of_nonneg (by omega), sub_neg_eq_add] at hk
  rw [priorityArgument, if_pos hn, tensAndUnits, if_neg (by omega)]
  exact hk

/-- **The arguments arrive** exactly if both are numbers from 0 to 99. -/
theorem argumentsRead_iff (priority : ℤ) (pipeCount : ℕ) :
    ArgumentsRead priority pipeCount ↔ 0 ≤ priority ∧ priority ≤ 99 ∧ pipeCount ≤ 99 := by
  have hcount : atoi (pipeCountArgument pipeCount) = pipeCount ↔ pipeCount ≤ 99 := by
    rw [pipeCountArgument, atoi_tensAndUnits_iff (by omega)]
    omega
  rw [ArgumentsRead, hcount]
  rcases lt_or_ge priority 0 with hneg | hpos
  · rw [atoi_priorityArgument_of_neg hneg]
    omega
  · rw [priorityArgument, if_neg (by omega), List.nil_append, atoi_tensAndUnits_iff hpos]
    omega

end S3RES.VoterM
