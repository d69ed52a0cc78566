import Mathlib

/-!
# Typed pipes as strings

`serializePipe` writes a typed pipe as `TYPE:fd_in:fd_out`, `deserializePipe` reads it back.
A string is a block of allocated bytes; `Serial` records in addition whether all writes were
inside the block. The digits of a descriptor are counted up to the first `0` above the units,
so the block is too short for the others: `roundTrips_iff` says that the two functions are
inverse, with all writes inside the block, exactly for the descriptors that have no such `0`.
-/

namespace S3RES

/-! ### Types of messages -/

/-- `comm_message_t`. -/
inductive CommMessage
  | commError
  | wayReq
  | wayRes
  | movCmd
  | rangePoseData
  | mapUpdate
  | commAck
  | msgBuffer
  deriving DecidableEq

/-- The bytes of a string, without the zero at its end. -/
def cString (s : String) : List UInt8 := s.toList.map fun c => c.toNat.toUInt8

/-- `MESSAGE_T`. -/
def messageT : CommMessage → List UInt8
  | .commError => cString "COMM_ERROR"
  | .wayReq => cString "WAY_REQ"
  | .wayRes => cString "WAY_RES"
  | .movCmd => cString "MOV_CMD"
  | .rangePoseData => cString "RANGE_POSE_DATA"
  | .mapUpdate => cString "MAP_UPDATE"
  | .commAck => cString "COMM_ACK"
  | .msgBuffer => cString "MSG_BUFFER"

/-- `commToEnum`. -/
def commToEnum (name : List UInt8) : CommMessage :=
  if name = cString "WAY_REQ" then .wayReq
  else if name = cString "WAY_RES" then .wayRes
  else if name = cString "MOV_CMD" then .movCmd
  else if name = cString "RANGE_POSE_DATA" then .rangePoseData
  else if name = cString "MAP_UPDATE" then .mapUpdate
  else if name = cString "COMM_ACK" then .commAck
  else if name = cString "MSG_BUFFER" then .msgBuffer
  else .commError

/-- `struct typed_pipe`. -/
structure TypedPipe where
  type : CommMessage
  fdIn : ℤ
  fdOut : ℤ
  deriving DecidableEq

/-- `:` and `0`. -/
def colon : UInt8 := 58

def zero : UInt8 := 48

/-! ### `serializePipe` -/

/-- An allocated block of `length` bytes, and whether all writes so far were inside it. -/
structure Serial where
  length : ℕ
  bytes : ℤ → UInt8
  inBounds : Bool

/-- `serial[i] = b`. -/
def Serial.set (s : Serial) (i : ℤ) (b : UInt8) : Serial :=
  { s with
    bytes := Function.update s.bytes i b
    inBounds := s.inBounds && decide (0 ≤ i ∧ i < s.length) }

/-- Bytes written one after the other, from `i` on. -/
def Serial.puts (s : Serial) (i : ℤ) : List UInt8 → Serial
  | [] => s
  | b :: l => (s.set i b).puts (i + 1) l

/-- The block. -/
def Serial.block (s : Serial) : List UInt8 := (List.range s.length).map fun i : ℕ => s.bytes i

theorem pos_of_tmod_pos {a b : ℤ} (h : 0 < a.tmod b) : 0 < a := by
  by_contra hle
  obtain ⟨n, rfl⟩ := Int.exists_eq_neg_ofNat (not_lt.mp hle)
  rw [Int.neg_tmod] at h
  have := Int.tmod_nonneg b (Int.natCast_nonneg n)
  omega

theorem pos_of_tdiv_pos {a b : ℤ} (hb : 0 ≤ b) (h : 0 < a.tdiv b) : 0 < a := by
  by_contra hle
  obtain ⟨n, rfl⟩ := Int.exists_eq_neg_ofNat (not_lt.mp hle)
  rw [Int.neg_tdiv] at h
  have := Int.tdiv_nonneg (Int.natCast_nonneg n) hb
  omega

theorem toNat_tdiv_lt {temp : ℤ} (h : 0 < temp.tdiv 10) : (temp.tdiv 10).toNat < temp.toNat := by
  have hpos := pos_of_tdiv_pos (by decide) h
  rw [Int.tdiv_eq_ediv_of_nonneg hpos.le] at h ⊢
  omega

/-- The loop that counts the digits of `temp`, from `num_len` on. -/
def countDigits (temp numLen : ℤ) : ℤ :=
  if 0 < (temp.tdiv 10).tmod 10 then countDigits (temp.tdiv 10) (numLen + 1) else numLen + 1
termination_by temp.toNat
decreasing_by exact toNat_tdiv_lt (pos_of_tmod_pos ‹_›)

/-- The loop that writes the digits of `temp`, the last one first: position `index + num_len`
moves to the left while `index` moves to the right. -/
def putDigits (s : Serial) (temp index numLen : ℤ) : Serial × ℤ :=
  let t := s.set (index + numLen) (UInt8.ofNat (48 + temp.tmod 10).toNat)
  if 0 < temp.tdiv 10 then putDigits t (temp.tdiv 10) (index + 1) (numLen - 2)
  else (t, index + 1)
termination_by temp.toNat
decreasing_by exact toNat_tdiv_lt ‹_›

/-- `serializePipe`; `memory` is what `malloc` returned. -/
def serializePipe (memory : ℤ → UInt8) (pipe : TypedPipe) : Serial :=
  let name := messageT pipe.type
  let numLen := countDigits (if pipe.fdIn = 0 then pipe.fdOut else pipe.fdIn) 0
  let s : Serial := ⟨(name.length + 4 + numLen).toNat, memory, true⟩
  let s := s.puts 0 name
  let index : ℤ := name.length
  if pipe.fdIn = 0 then
    let s := s.set index colon
    let s := s.set (index + 1) zero
    let s := s.set (index + 2) colon
    let (s, index) := putDigits s pipe.fdOut (index + 3) (numLen - 1)
    s.set index 0
  else
    let s := s.set index colon
    let (s, index) := putDigits s pipe.fdIn (index + 1) (numLen - 1)
    let s := s.set index colon
    let s := s.set (index + 1) zero
    s.set (index + 2) 0

/-! ### `deserializePipe` -/

/-- The loop `while (serial[index] != ':')`: the bytes before the colon and those after it, if
there is one. -/
def scanColon : List UInt8 → Option (List UInt8 × List UInt8)
  | [] => none
  | b :: l => if b = colon then some ([], l) else (scanColon l).map fun x => (b :: x.1, x.2)

def isSpace (b : UInt8) : Bool := b = 32 || (9 ≤ b && b ≤ 13)

def isDigit (b : UInt8) : Bool := 48 ≤ b && b ≤ 57

/-- The value of a string of digits. -/
def digitsValue (l : List UInt8) : ℕ := l.foldl (fun n b => 10 * n + (b.toNat - 48)) 0

/-- `atoi`, up to the first byte that is not part of the number. -/
def atoi (l : List UInt8) : ℤ :=
  match l.dropWhile isSpace with
  | [] => 0
  | b :: l =>
    if b = 45 then -(digitsValue (l.takeWhile isDigit) : ℤ)
    else if b = 43 then digitsValue (l.takeWhile isDigit)
    else digitsValue ((b :: l).takeWhile isDigit)

/-- `deserializePipe`, on the bytes from `serial` on: `none` if it runs past their end, or past
the array `digit`, which has room for nine digits and the zero. The type is compared up to its
first zero. -/
def deserializePipe (serial : List UInt8) : Option TypedPipe := do
  let (type, rest) ← scanColon serial
  let (digit, rest) ← scanColon rest
  if digit.length < 10 then
    some ⟨commToEnum (type.takeWhile (· ≠ 0)), atoi digit, atoi rest⟩
  else none

/-! ### Writing -/

@[simp] theorem length_set (s : Serial) (i : ℤ) (b : UInt8) : (s.set i b).length = s.length := rfl

@[simp] theorem length_puts (s : Serial) (i : ℤ) (l : List UInt8) :
    (s.puts i l).length = s.length := by
  induction l generalizing s i with
  | nil => rfl
  | cons b l ih => exact ih _ _

theorem puts_append (s : Serial) (i : ℤ) (l l' : List UInt8) :
    s.puts i (l ++ l') = (s.puts i l).puts (i + l.length) l' := by
  induction l generalizing s i with
  | nil => simp [Serial.puts]
  | cons b l ih =>
    rw [List.cons_append, Serial.puts, ih, Serial.puts, List.length_cons, Nat.cast_succ,
      add_assoc, add_comm 1]

theorem set_comm (s : Serial) {i j : ℤ} (h : i ≠ j) (b b' : UInt8) :
    (s.set i b).set j b' = (s.set j b').set i b := by
  have hbytes := Function.update_comm h b b' s.bytes
  simp only [Serial.set, hbytes, Bool.and_assoc]
  rw [Bool.and_comm (decide (0 ≤ i ∧ i < s.length))]
  rfl

theorem set_puts (s : Serial) {i j : ℤ} {l : List UInt8} (h : i + l.length ≤ j) (b : UInt8) :
    (s.set j b).puts i l = (s.puts i l).set j b := by
  induction l generalizing s i with
  | nil => rfl
  | cons b' l ih =>
    rw [List.length_cons] at h
    rw [Serial.puts, set_comm s (by omega : j ≠ i), ih _ (by omega), Serial.puts]

theorem puts_set (s : Serial) (i : ℤ) (b : UInt8) (l : List UInt8) :
    (s.puts i l).set (i + l.length) b = s.puts i (l ++ [b]) := by
  rw [puts_append]
  rfl

/-- Nothing is written before `i`. -/
theorem bytes_puts_of_lt (s : Serial) {i k : ℤ} (h : k < i) (l : List UInt8) :
    (s.puts i l).bytes k = s.bytes k := by
  induction l generalizing s i with
  | nil => rfl
  | cons b l ih =>
    rw [Serial.puts, ih _ (by omega)]
    exact Function.update_of_ne h.ne _ _

/-- What was written from `i` on is read back. -/
theorem bytes_puts_add (s : Serial) (i : ℤ) {l : List UInt8} {k : ℕ} (hk : k < l.length) :
    (s.puts i l).bytes (i + k) = l[k] := by
  induction l generalizing s i k with
  | nil => simp at hk
  | cons b l ih =>
    cases k with
    | zero =>
      rw [Serial.puts, Nat.cast_zero, add_zero, bytes_puts_of_lt _ (by omega)]
      exact Function.update_self ..
    | succ k =>
      have hnext := ih (s.set i b) (i + 1) (Nat.lt_of_succ_lt_succ hk)
      rw [Serial.puts, Nat.cast_succ, add_comm (k : ℤ), ← add_assoc, hnext]
      rfl

/-- A block that was filled from its start to its end. -/
theorem block_puts (s : Serial) {l : List UInt8} (h : l.length = s.length) :
    (s.puts 0 l).block = l := by
  refine List.ext_getElem (by simp [Serial.block, h]) fun k h₁ h₂ => ?_
  have hk := bytes_puts_add s 0 h₂
  rw [zero_add] at hk
  simpa [Serial.block] using hk

theorem inBounds_puts (s : Serial) {i : ℤ} (hi : 0 ≤ i) {l : List UInt8}
    (h : i + l.length ≤ s.length) : (s.puts i l).inBounds = s.inBounds := by
  induction l generalizing s i with
  | nil => rfl
  | cons b l ih =>
    rw [List.length_cons] at h
    rw [Serial.puts, ih _ (by omega) (by rw [length_set]; omega), Serial.set,
      decide_eq_true (by omega), Bool.and_true]

/-- A write past the end. -/
theorem inBounds_set_of_ge (s : Serial) {i : ℤ} (h : s.length ≤ i) (b : UInt8) :
    (s.set i b).inBounds = false := by
  rw [Serial.set, decide_eq_false (by omega), Bool.and_false]

/-! ### Digits -/

/-- A number in decimal. -/
def numeral (n : ℕ) : List UInt8 := ((Nat.digits 10 n).map fun d => UInt8.ofNat (48 + d)).reverse

theorem numeral_eq {n : ℕ} (hn : 0 < n) :
    numeral n = numeral (n / 10) ++ [UInt8.ofNat (48 + n % 10)] := by
  rw [numeral, Nat.digits_def' (by decide) hn, List.map_cons, List.reverse_cons]
  rfl

/-- The loop writes the number, its last digit to `index + num_len`. -/
theorem putDigits_eq (s : Serial) {n : ℕ} (hn : 0 < n) (index numLen : ℤ) :
    putDigits s n index numLen =
      (s.puts (index + numLen + 1 - (numeral n).length) (numeral n),
        index + (numeral n).length) := by
  induction n using Nat.strong_induction_on generalizing s index numLen with
  | h n ih =>
    have hdiv : (n : ℤ).tdiv 10 = (n / 10 : ℕ) := (Int.ofNat_tdiv n 10).symm
    have hmod : (48 + (n : ℤ).tmod 10).toNat = 48 + n % 10 := by
      rw [show (n : ℤ).tmod 10 = (n % 10 : ℕ) from (Int.ofNat_tmod n 10).symm]
      omega
    rw [putDigits, hdiv, hmod]
    rcases Nat.eq_zero_or_pos (n / 10) with hzero | hpos
    · have hlast : numeral n = [UInt8.ofNat (48 + n % 10)] := by
        rw [numeral_eq hn, hzero]
        rfl
      rw [if_neg (by omega), hlast]
      simp [Serial.puts]
    · rw [if_pos (by omega), ih (n / 10) (by omega) _ hpos, numeral_eq hn, List.length_append,
        List.length_singleton]
      refine Prod.ext ?_ ?_
      · -- the digits before the last are to the left of it
        have hset := puts_set s (index + numLen - (numeral (n / 10)).length)
          (UInt8.ofNat (48 + n % 10)) (numeral (n / 10))
        have hleft : index + 1 + (numLen - 2) + 1 - ((numeral (n / 10)).length : ℤ) =
            index + numLen - (numeral (n / 10)).length := by ring
        have hright : index + numLen + 1 - (((numeral (n / 10)).length + 1 : ℕ) : ℤ) =
            index + numLen - (numeral (n / 10)).length := by
          push_cast
          ring
        rw [sub_add_cancel] at hset
        simp only [hleft, hright]
        rw [set_puts _ (by omega), hset]
      · push_cast
        ring

/-! ### Counting -/

/-- No digit of `n` above the units is `0`. -/
def NoInnerZero (n : ℕ) : Prop := ∀ d ∈ (Nat.digits 10 n).tail, d ≠ 0

instance (n : ℕ) : Decidable (NoInnerZero n) := inferInstanceAs (Decidable (∀ d ∈ _, _))

/-- The loop counts the units and the digits above them, up to the first `0`. -/
theorem countDigits_eq (n : ℕ) (numLen : ℤ) : countDigits n numLen =
    numLen + 1 + ((Nat.digits 10 n).tail.takeWhile (· ≠ 0)).length := by
  induction n using Nat.strong_induction_on generalizing numLen with
  | h n ih =>
    have hdiv : (n : ℤ).tdiv 10 = (n / 10 : ℕ) := (Int.ofNat_tdiv n 10).symm
    have hmod : ((n / 10 : ℕ) : ℤ).tmod 10 = (n / 10 % 10 : ℕ) := (Int.ofNat_tmod (n / 10) 10).symm
    have htail : (Nat.digits 10 n).tail = Nat.digits 10 (n / 10) := by
      rcases Nat.eq_zero_or_pos n with rfl | hn
      · rfl
      · rw [Nat.digits_def' (by decide) hn, List.tail_cons]
    rw [countDigits, hdiv, hmod, htail]
    split
    · rename_i hpos
      have hn : 0 < n / 10 := by omega
      rw [ih (n / 10) (by omega), Nat.digits_def' (by decide) hn, List.tail_cons,
        List.takeWhile_cons_of_pos (by simpa using (by omega : n / 10 % 10 ≠ 0)), List.length_cons]
      push_cast
      ring
    · rename_i hzero
      rcases Nat.eq_zero_or_pos (n / 10) with hn | hn
      · simp [hn]
      · rw [Nat.digits_def' (by decide) hn, List.takeWhile_cons_of_neg
          (by simpa using (by omega : n / 10 % 10 = 0))]
        simp

theorem length_numeral {n : ℕ} (hn : 0 < n) :
    (numeral n).length = 1 + (Nat.digits 10 n).tail.length := by
  rw [numeral, List.length_reverse, List.length_map, Nat.digits_def' (by decide) hn]
  rw [List.length_cons, List.tail_cons, Nat.add_comm]

/-- The count is right exactly if no inner digit is `0`, and too small otherwise. -/
theorem countDigits_le {n : ℕ} (hn : 0 < n) : countDigits n 0 ≤ (numeral n).length := by
  have := (List.takeWhile_prefix (p := (· ≠ 0)) (l := (Nat.digits 10 n).tail)).length_le
  rw [countDigits_eq, length_numeral hn]
  omega

theorem countDigits_eq_length_iff {n : ℕ} (hn : 0 < n) :
    countDigits n 0 = (numeral n).length ↔ NoInnerZero n := by
  have hpre := List.takeWhile_prefix (p := (· ≠ 0)) (l := (Nat.digits 10 n).tail)
  have hall : (Nat.digits 10 n).tail.takeWhile (· ≠ 0) = (Nat.digits 10 n).tail ↔
      NoInnerZero n := by
    rw [List.takeWhile_eq_self_iff]
    simp [NoInnerZero]
  rw [countDigits_eq, length_numeral hn, ← hall, zero_add]
  constructor
  · intro heq
    exact hpre.eq_of_length (by omega)
  · intro heq
    rw [heq]
    push_cast
    rfl

/-! ### Reading -/

theorem scanColon_append {l : List UInt8} (h : colon ∉ l) (r : List UInt8) :
    scanColon (l ++ colon :: r) = some (l, r) := by
  induction l with
  | nil => simp [scanColon]
  | cons b l ih =>
    rw [List.mem_cons, not_or] at h
    rw [List.cons_append, scanColon, if_neg (Ne.symm h.1), ih h.2]
    rfl

theorem exists_of_mem_numeral {n : ℕ} {b : UInt8} (h : b ∈ numeral n) :
    ∃ d < 10, UInt8.ofNat (48 + d) = b := by
  rw [numeral, List.mem_reverse, List.mem_map] at h
  obtain ⟨d, hd, rfl⟩ := h
  exact ⟨d, Nat.digits_lt_base (by decide) hd, rfl⟩

/-- A digit is no space, no sign and no colon. -/
theorem digit_of_mem_numeral {n : ℕ} {b : UInt8} (h : b ∈ numeral n) :
    isDigit b = true ∧ isSpace b = false ∧ b ≠ 45 ∧ b ≠ 43 ∧ b ≠ colon := by
  obtain ⟨d, hd, rfl⟩ := exists_of_mem_numeral h
  interval_cases d <;> decide

theorem colon_notMem_numeral (n : ℕ) : colon ∉ numeral n :=
  fun h => (digit_of_mem_numeral h).2.2.2.2 rfl

theorem digitsValue_numeral (n : ℕ) : digitsValue (numeral n) = n := by
  induction n using Nat.strong_induction_on with
  | h n ih =>
    rcases Nat.eq_zero_or_pos n with rfl | hn
    · rfl
    · have hdigit : (UInt8.ofNat (48 + n % 10)).toNat = 48 + n % 10 := by
        rw [UInt8.toNat_ofNat']
        omega
      have hhead := ih (n / 10) (by omega)
      rw [digitsValue] at hhead
      rw [numeral_eq hn, digitsValue, List.foldl_append, hhead, List.foldl_cons, List.foldl_nil,
        hdigit]
      omega

theorem atoi_numeral {n : ℕ} (hn : 0 < n) {r : List UInt8} (hr : ∀ b ∈ r.head?, isDigit b = false) :
    atoi (numeral n ++ r) = n := by
  obtain ⟨b, l, hl⟩ : ∃ b l, numeral n = b :: l := by
    rw [numeral_eq hn]
    cases numeral (n / 10) with
    | nil => exact ⟨_, _, rfl⟩
    | cons b l => exact ⟨_, _, rfl⟩
  obtain ⟨-, hspace, hminus, hplus, -⟩ := digit_of_mem_numeral (n := n) (b := b) (by simp [hl])
  have htake : (numeral n ++ r).takeWhile isDigit = numeral n := by
    rw [List.takeWhile_append_of_pos fun b hb => (digit_of_mem_numeral hb).1]
    cases r with
    | nil => simp
    | cons b r => simp [hr b rfl]
  rw [hl, List.cons_append] at htake
  rw [hl, List.cons_append, atoi, List.dropWhile_cons_of_neg (by simp [hspace])]
  simp only [if_neg hminus, if_neg hplus, htake]
  rw [← hl, digitsValue_numeral]

theorem colon_notMem_messageT (type : CommMessage) : colon ∉ messageT type := by
  cases type <;> decide

theorem zero_notMem_messageT (type : CommMessage) : (0 : UInt8) ∉ messageT type := by
  cases type <;> decide

/-- A type is found again by its name. -/
@[simp] theorem commToEnum_messageT (type : CommMessage) : commToEnum (messageT type) = type := by
  cases type <;> decide

/-- The string of a type and two fields is read back. -/
theorem deserializePipe_append (type : CommMessage) {l r : List UInt8} (hl : colon ∉ l)
    (hlength : l.length < 10) :
    deserializePipe (messageT type ++ colon :: (l ++ colon :: r)) =
      some ⟨type, atoi l, atoi r⟩ := by
  have hname : (messageT type).takeWhile (· ≠ 0) = messageT type := by
    refine List.takeWhile_eq_self_iff.mpr fun b hb => ?_
    simpa using fun h : b = 0 => zero_notMem_messageT type (h ▸ hb)
  rw [deserializePipe, scanColon_append (colon_notMem_messageT type)]
  simp only [Option.bind_eq_bind, Option.bind_some, scanColon_append hl, if_pos hlength, hname,
    commToEnum_messageT]

/-! ### Round trip -/

/-- `%d` of a number that is not negative. -/
def decimal (n : ℕ) : List UInt8 := if n = 0 then [zero] else numeral n

/-- `TYPE:fd_in:fd_out`. -/
def pipeText (pipe : TypedPipe) : List UInt8 :=
  messageT pipe.type ++ colon :: (decimal pipe.fdIn.toNat ++ colon :: decimal pipe.fdOut.toNat)

/-- A pipe with one end, a descriptor of at most nine digits. -/
def OneEnd (pipe : TypedPipe) (n : ℕ) : Prop :=
  0 < n ∧ n < 10 ^ 9 ∧ (pipe.fdIn = 0 ∧ pipe.fdOut = n ∨ pipe.fdIn = n ∧ pipe.fdOut = 0)

/-- `serializePipe` writes inside the block it allocated, and `deserializePipe` reads the same
pipe back. -/
def RoundTrips (memory : ℤ → UInt8) (pipe : TypedPipe) : Prop :=
  (serializePipe memory pipe).inBounds = true ∧
    deserializePipe (serializePipe memory pipe).block = some pipe

variable {memory : ℤ → UInt8} {pipe : TypedPipe} {n : ℕ}

theorem length_numeral_lt (hn : n < 10 ^ 9) : (numeral n).length < 10 := by
  have := (Nat.digits_length_le_iff (k := 9) (by decide) n).mpr hn
  rw [numeral, List.length_reverse, List.length_map]
  omega

/-- What is written: the name, the fields before the number, the number, its last digit where
the count put it, and then the rest. -/
theorem serializePipe_eq (memory : ℤ → UInt8) (h : OneEnd pipe n) : ∃ a b : List UInt8,
    a.length + b.length = 3 ∧ messageT pipe.type ++ a ++ numeral n ++ b = pipeText pipe ∧
    deserializePipe (messageT pipe.type ++ a ++ numeral n ++ b ++ [0]) = some pipe ∧
    serializePipe memory pipe =
      (((Serial.puts ⟨((messageT pipe.type).length + 4 + countDigits n 0).toNat, memory, true⟩ 0
          (messageT pipe.type ++ a)).puts
        ((messageT pipe.type ++ a).length + countDigits n 0 - (numeral n).length) (numeral n)).puts
        ((messageT pipe.type ++ a).length + (numeral n).length) b).set
        ((messageT pipe.type).length + 3 + (numeral n).length) 0 := by
  obtain ⟨hn, hlt, hfd⟩ := h
  have hnine := length_numeral_lt hlt
  have hdecimal : decimal n = numeral n := if_neg hn.ne'
  rcases pipe with ⟨type, fdIn, fdOut⟩
  rcases hfd with ⟨rfl, rfl⟩ | ⟨rfl, rfl⟩
  · refine ⟨[colon, zero, colon], [], rfl, ?_, ?_, ?_⟩
    · rw [pipeText, Int.toNat_natCast, hdecimal, List.append_nil, List.append_assoc]
      rfl
    · have hread := deserializePipe_append type (l := [zero]) (r := numeral n ++ [0])
        (by decide) (by decide)
      have hvalue := atoi_numeral hn (r := [0]) fun b hb => by
        obtain rfl := Option.some.inj hb
        rfl
      have hzero : atoi [zero] = 0 := by decide
      rw [hvalue, hzero] at hread
      simpa using hread
    · have hstart : ((messageT type).length + 3 + (countDigits n 0 - 1) + 1 : ℤ) =
          (messageT type).length + 3 + countDigits n 0 := by ring
      have hlength : ((messageT type ++ [colon, zero, colon]).length : ℤ) =
          (messageT type).length + 3 := by simp
      rw [serializePipe, puts_append, hlength]
      simp only [if_true, putDigits_eq _ hn, hstart, Serial.puts, zero_add]
      rw [add_assoc ((messageT type).length : ℤ) 1 1]
      rfl
  · refine ⟨[colon], [colon, zero], rfl, ?_, ?_, ?_⟩
    · rw [pipeText, Int.toNat_natCast, hdecimal, List.append_assoc, List.append_assoc]
      rfl
    · have hread := deserializePipe_append type (l := numeral n) (r := [zero, 0])
        (colon_notMem_numeral n) hnine
      have hvalue := atoi_numeral hn (r := []) fun b hb => by simp at hb
      rw [List.append_nil] at hvalue
      have hzero : atoi [zero, 0] = 0 := by decide
      rw [hvalue, hzero] at hread
      simpa using hread
    · have hne : (n : ℤ) ≠ 0 := by omega
      have hstart : ((messageT type).length + 1 + (countDigits n 0 - 1) + 1 : ℤ) =
          (messageT type).length + 1 + countDigits n 0 := by ring
      have hend : ((messageT type).length + 3 + (numeral n).length : ℤ) =
          (messageT type).length + 1 + (numeral n).length + 2 := by ring
      have hlength : ((messageT type ++ [colon]).length : ℤ) = (messageT type).length + 1 := by
        simp
      rw [serializePipe, puts_append, hlength, hend]
      simp only [if_neg hne, putDigits_eq _ hn, hstart, Serial.puts, zero_add]

/-- The block has room for as many digits as were counted. -/
theorem length_serializePipe (memory : ℤ → UInt8) (h : OneEnd pipe n) :
    (serializePipe memory pipe).length =
      ((messageT pipe.type).length + 4 + countDigits n 0).toNat := by
  obtain ⟨a, b, -, -, -, heq⟩ := serializePipe_eq memory h
  rw [heq]
  simp only [length_set, length_puts]

/-- With too few digits counted, the zero at the end is written behind the block. -/
theorem inBounds_serializePipe_of_lt (memory : ℤ → UInt8) (h : OneEnd pipe n)
    (hlt : countDigits n 0 < (numeral n).length) :
    (serializePipe memory pipe).inBounds = false := by
  obtain ⟨a, b, -, -, -, heq⟩ := serializePipe_eq memory h
  rw [heq]
  refine inBounds_set_of_ge _ ?_ _
  simp only [length_puts]
  omega

/-- With all digits counted, all is written one after the other and fills the block. -/
theorem serializePipe_eq_puts (memory : ℤ → UInt8) (h : OneEnd pipe n) (hzero : NoInnerZero n) :
    deserializePipe (pipeText pipe ++ [0]) = some pipe ∧ serializePipe memory pipe =
      Serial.puts ⟨(pipeText pipe ++ [0]).length, memory, true⟩ 0 (pipeText pipe ++ [0]) := by
  obtain ⟨a, b, hab, htext, hread, heq⟩ := serializePipe_eq memory h
  have hcount := (countDigits_eq_length_iff h.1).mpr hzero
  have hnumber : ((messageT pipe.type ++ a).length + countDigits n 0 - (numeral n).length : ℤ) =
      0 + (messageT pipe.type ++ a).length := by omega
  have hrest : ((messageT pipe.type ++ a).length + (numeral n).length : ℤ) =
      0 + (messageT pipe.type ++ a ++ numeral n).length := by
    simp only [List.length_append]
    push_cast
    ring
  have hend : ((messageT pipe.type).length + 3 + (numeral n).length : ℤ) =
      0 + (messageT pipe.type ++ a ++ numeral n ++ b).length := by
    simp only [List.length_append]
    push_cast
    omega
  rw [htext] at hread hend
  rw [heq, hnumber, hrest, hend, ← puts_append, ← puts_append, htext, puts_set]
  have hlength : (pipeText pipe).length = (messageT pipe.type).length + 3 + (numeral n).length := by
    omega
  have hfills : ((messageT pipe.type).length + 4 + countDigits n 0).toNat =
      (pipeText pipe ++ [0]).length := by
    rw [List.length_append, List.length_singleton]
    omega
  rw [hfills]
  exact ⟨hread, rfl⟩

/-- The block then holds the text and the zero at its end. -/
theorem block_serializePipe (memory : ℤ → UInt8) (h : OneEnd pipe n) (hzero : NoInnerZero n) :
    (serializePipe memory pipe).block = pipeText pipe ++ [0] := by
  rw [(serializePipe_eq_puts memory h hzero).2, block_puts _ rfl]

/-- **Round trip.** The two functions are inverse, with all writes inside the block, exactly for
the descriptors without an inner `0`. -/
theorem roundTrips_iff (memory : ℤ → UInt8) (h : OneEnd pipe n) :
    RoundTrips memory pipe ↔ NoInnerZero n := by
  have hle := countDigits_le h.1
  constructor
  · rintro ⟨hin, -⟩
    rw [← countDigits_eq_length_iff h.1]
    by_contra hne
    rw [inBounds_serializePipe_of_lt memory h (by omega)] at hin
    cases hin
  · intro hzero
    obtain ⟨hread, heq⟩ := serializePipe_eq_puts memory h hzero
    rw [RoundTrips, block_serializePipe memory h hzero, heq]
    exact ⟨inBounds_puts _ le_rfl (by simp), hread⟩

/-- Descriptor 17 survives. -/
theorem roundTrips_seventeen : RoundTrips (fun _ => 0) ⟨.wayReq, 17, 0⟩ :=
  (roundTrips_iff (n := 17) (fun _ => 0) ⟨by decide, by decide, .inr ⟨rfl, rfl⟩⟩).mpr (by decide)

/-- Of the digits of 100 one is counted. -/
theorem not_roundTrips_hundred :
    OneEnd ⟨.wayReq, 0, 100⟩ 100 ∧ (serializePipe (fun _ => 0) ⟨.wayReq, 0, 100⟩).length = 12 ∧
      ¬ RoundTrips (fun _ => 0) ⟨.wayReq, 0, 100⟩ := by
  have hend : OneEnd ⟨.wayReq, 0, 100⟩ 100 := ⟨by decide, by decide, .inl ⟨rfl, rfl⟩⟩
  have hcount : countDigits (100 : ℕ) 0 = 1 := by
    rw [countDigits_eq 100 0]
    decide
  refine ⟨hend, ?_, ?_⟩
  · rw [length_serializePipe _ hend, hcount]
    rfl
  · rintro ⟨hin, -⟩
    rw [inBounds_serializePipe_of_lt _ hend (by rw [hcount]; decide)] at hin
    cases hin

end S3RES
