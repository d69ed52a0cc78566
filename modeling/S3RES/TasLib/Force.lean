import S3RES.CommTypes.SerialPipe

/-!
# Touching every page

`forceMaps` reads `/proc/self/maps` and writes a byte of each page that the process may write to
back to it, so that the pages are there before they are needed. The file has a line for each area
of the address space (`Area.line`, as the kernel prints it), but `fgets` gives `parseLine` no more
than 199 bytes at a time.

`forceMaps_touches`: where all lines are shorter than that, the pages that are touched are those of
the areas that can be read and written, and the memory does not change. `forceMaps_dies`: a longer
line leads out of `start_s`, unless a dash follows soon behind its 199th byte.

A program that is killed, or writes behind one of its arrays, is `none`.
-/

namespace S3RES.Force

/-! ### Numbers -/

def dash : UInt8 := 45

def space : UInt8 := 32

def newline : UInt8 := 10

/-- The value of a hexadecimal digit. -/
def hexValue (b : UInt8) : Option ℕ :=
  if 48 ≤ b ∧ b ≤ 57 then some (b.toNat - 48)
  else if 97 ≤ b ∧ b ≤ 102 then some (b.toNat - 87)
  else if 65 ≤ b ∧ b ≤ 70 then some (b.toNat - 55)
  else none

/-- The value of the digits that a string starts with. -/
def hexDigitsValue (n : ℕ) : List UInt8 → ℕ
  | [] => n
  | b :: l =>
    match hexValue b with
    | some d => hexDigitsValue (16 * n + d) l
    | none => n

/-- An optional `0x`. -/
def skipPrefix : List UInt8 → List UInt8
  | 48 :: x :: b :: l =>
    if (x = 120 ∨ x = 88) ∧ (hexValue b).isSome then b :: l else 48 :: x :: b :: l
  | l => l

/-- `strtoul(s, NULL, 16)`. -/
def strtoul (s : List UInt8) : ℕ :=
  match s.dropWhile isSpace with
  | [] => 0
  | b :: l =>
    if b = dash then
      let n := hexDigitsValue 0 (skipPrefix l)
      if n < 2 ^ 64 then (2 ^ 64 - n) % 2 ^ 64 else 2 ^ 64 - 1
    else min (hexDigitsValue 0 (skipPrefix (if b = 43 then l else b :: l))) (2 ^ 64 - 1)

/-! ### The program -/

/-- The address space of the process, and the addresses that were written. -/
structure Process where
  accessible : ℕ → Bool
  bytes : ℕ → UInt8
  touched : List ℕ

/-- What `current_address` goes on by. -/
def stride : ℕ := 0x800

/-- The loop of `parseLine`: it writes the byte that it reads. -/
def Process.touch (p : Process) (currentAddress stop : ℕ) : Option Process :=
  if currentAddress < stop then
    if p.accessible currentAddress then
      Process.touch { p with
        bytes := Function.update p.bytes currentAddress (p.bytes currentAddress)
        touched := p.touched ++ [currentAddress] } (currentAddress + stride) stop
    else none
  else some p
termination_by stop - currentAddress
decreasing_by
  rw [stride]
  omega

/-- The bytes up to a certain one, and those behind it, where there is `room` for them and for a
zero. -/
def scanTo (last : UInt8) : ℕ → List UInt8 → Option (List UInt8 × List UInt8)
  | 0, _ => none
  | _ + 1, [] => none
  | room + 1, b :: l =>
    if b = last then some ([], l) else (scanTo last room l).map fun x => (b :: x.1, x.2)

/-- `parseLine`. -/
def parseLine (line : List UInt8) (p : Process) : Option Process := do
  let (startS, rest) ← scanTo dash 17 line
  let (endS, rest) ← scanTo space 17 rest
  match rest with
  | readable :: writable :: _ :: _ :: _ =>
    if readable = 114 ∧ writable = 119 then p.touch (strtoul startS) (strtoul endS) else some p
  | _ => none

/-- What `fgets(line, 200, mapsfile)` takes of the file. -/
def fgets (text : List UInt8) : List UInt8 :=
  text.take (min 199 ((text.takeWhile (· ≠ newline)).length + 1))

theorem length_fgets_pos (b : UInt8) (text : List UInt8) : 0 < (fgets (b :: text)).length := by
  simp [fgets]

/-- The array behind it. -/
def fill (line chunk : List UInt8) : List UInt8 := chunk ++ 0 :: line.drop (chunk.length + 1)

/-- The loop of `forceMaps`. -/
def forceLines (line : List UInt8) : List UInt8 → Process → Option Process
  | [], p => some p
  | b :: text, p =>
    (parseLine (fill line (fgets (b :: text))) p).bind fun p =>
      forceLines (fill line (fgets (b :: text))) ((b :: text).drop (fgets (b :: text)).length) p
termination_by text => text.length
decreasing_by
  have := length_fgets_pos b text
  simp only [List.length_drop, List.length_cons]
  omega

/-- `forceMaps`, for what is in the file. -/
def forceMaps (text : List UInt8) (p : Process) : Option Process :=
  forceLines (List.replicate 200 0) text p

/-! ### The file -/

/-- An area of the address space, with what the kernel prints behind the permissions. -/
structure Area where
  start : ℕ
  stop : ℕ
  readable : Bool
  writable : Bool
  executable : Bool
  shared : Bool
  rest : List UInt8
  start_lt : start < stop
  stop_lt : stop < 2 ^ 63
  start_aligned : 4096 ∣ start
  stop_aligned : 4096 ∣ stop
  rest_newline : newline ∉ rest

/-- A digit as it is printed. -/
def hexDigit (d : ℕ) : UInt8 := if d < 10 then UInt8.ofNat (48 + d) else UInt8.ofNat (87 + d)

/-- A number with at least eight digits. -/
def hexText (n : ℕ) : List UInt8 :=
  let l := (Nat.digits 16 n).reverse.map hexDigit
  List.replicate (8 - l.length) 48 ++ l

/-- The permissions. -/
def Area.permissions (a : Area) : List UInt8 :=
  [if a.readable then 114 else dash, if a.writable then 119 else dash,
    if a.executable then 120 else dash, if a.shared then 115 else 112]

/-- The line of an area. -/
def Area.line (a : Area) : List UInt8 :=
  hexText a.start ++ dash :: (hexText a.stop ++ space :: (a.permissions ++ (a.rest ++ [newline])))

/-- A process may read and write an area. -/
def Area.ReadWrite (a : Area) : Prop := a.readable = true ∧ a.writable = true

/-! ### Numbers are read back -/

theorem hexValue_hexDigit {d : ℕ} (hd : d < 16) : hexValue (hexDigit d) = some d := by
  interval_cases d <;> rfl

/-- The digits of a number, with the zeros in front. -/
def hexDigits (n : ℕ) : List ℕ :=
  List.replicate (8 - (Nat.digits 16 n).length) 0 ++ (Nat.digits 16 n).reverse

theorem hexText_eq (n : ℕ) : hexText n = (hexDigits n).map hexDigit := by
  simp [hexText, hexDigits, hexDigit]

theorem lt_of_mem_hexDigits {n d : ℕ} (h : d ∈ hexDigits n) : d < 16 := by
  rcases List.mem_append.mp h with hzero | hdigit
  · rw [List.eq_of_mem_replicate hzero]
    decide
  · exact Nat.digits_lt_base (by decide) (List.mem_reverse.mp hdigit)

/-- What a number is printed with. -/
theorem mem_hexText {n : ℕ} {b : UInt8} (h : b ∈ hexText n) : ∃ d < 16, b = hexDigit d := by
  rw [hexText_eq] at h
  obtain ⟨d, hd, rfl⟩ := List.mem_map.mp h
  exact ⟨d, lt_of_mem_hexDigits hd, rfl⟩

theorem length_hexText {n : ℕ} (hn : n < 2 ^ 64) :
    8 ≤ (hexText n).length ∧ (hexText n).length ≤ 16 := by
  have hdigits : (Nat.digits 16 n).length ≤ 16 :=
    (Nat.digits_length_le_iff (by decide) n).mpr (by simpa using hn)
  simp only [hexText_eq, hexDigits, List.length_map, List.length_append, List.length_replicate,
    List.length_reverse]
  omega

theorem hexDigitsValue_map {l : List ℕ} (hl : ∀ d ∈ l, d < 16) (n : ℕ) :
    hexDigitsValue n (l.map hexDigit) = l.foldl (fun n d => 16 * n + d) n := by
  induction l generalizing n with
  | nil => rfl
  | cons d l ih =>
    obtain ⟨hd, hl⟩ := List.forall_mem_cons.mp hl
    rw [List.map_cons, hexDigitsValue, hexValue_hexDigit hd, List.foldl_cons]
    exact ih hl _

theorem hexDigitsValue_hexText (n : ℕ) : hexDigitsValue 0 (hexText n) = n := by
  have hzeros : ∀ k, (List.replicate k 0).foldl (fun n d => 16 * n + d) 0 = 0 := by
    intro k
    induction k with
    | zero => rfl
    | succ k ih => rw [List.replicate_succ, List.foldl_cons, ih]
  rw [hexText_eq, hexDigitsValue_map fun d hd => lt_of_mem_hexDigits hd, hexDigits,
    List.foldl_append, hzeros, List.foldl_reverse]
  conv_rhs => rw [← Nat.ofDigits_digits 16 n, Nat.ofDigits_eq_foldr]
  congr 1
  funext d m
  simp [add_comm]

/-- Nothing but digits is printed. -/
theorem plain_of_mem_hexText {n : ℕ} {b : UInt8} (h : b ∈ hexText n) :
    isSpace b = false ∧ b ≠ dash ∧ b ≠ space ∧ b ≠ 43 ∧ b ≠ 120 ∧ b ≠ 88 := by
  obtain ⟨d, hd, rfl⟩ := mem_hexText h
  interval_cases d <;> decide

theorem skipPrefix_hexText (n : ℕ) : skipPrefix (hexText n) = hexText n := by
  have hplain : ∀ b ∈ hexText n, b ≠ 120 ∧ b ≠ 88 := fun b hb =>
    (plain_of_mem_hexText hb).2.2.2.2
  generalize hexText n = l at hplain ⊢
  rw [skipPrefix.eq_def]
  split
  · rename_i x b l
    obtain ⟨hx, hX⟩ := hplain x (by simp)
    rw [if_neg (by simp [hx, hX])]
  · rfl

/-- **A number that the kernel prints is read back.** -/
theorem strtoul_hexText {n : ℕ} (hn : n < 2 ^ 64) : strtoul (hexText n) = n := by
  obtain ⟨b, l, hl⟩ : ∃ b l, hexText n = b :: l := by
    refine List.exists_cons_of_ne_nil fun hnil => ?_
    have := (length_hexText hn).1
    simp [hnil] at this
  obtain ⟨hspace, hdash, -, hplus, -⟩ := plain_of_mem_hexText (b := b) (n := n) (by simp [hl])
  have hvalue := hexDigitsValue_hexText n
  rw [← skipPrefix_hexText, hl] at hvalue
  simp only [strtoul, hl, List.dropWhile_cons, hspace, Bool.false_eq_true, if_false, if_neg hdash,
    if_neg hplus, hvalue]
  omega

/-! ### An area is touched -/

/-- What is touched of the addresses from `cur` to `stop`. -/
structure Touches (cur stop : ℕ) (l : List ℕ) : Prop where
  inside : ∀ a ∈ l, cur ≤ a ∧ a < stop
  every : ∀ k, cur + stride * k < stop → cur + stride * k ∈ l

/-- **The loop** touches an address in every stretch of `stride`, and changes nothing. -/
theorem touch_spec {p : Process} {cur stop : ℕ}
    (haccess : ∀ a, cur ≤ a → a < stop → p.accessible a = true) :
    ∃ l, p.touch cur stop = some { p with touched := p.touched ++ l } ∧ Touches cur stop l := by
  induction h : stop - cur using Nat.strong_induction_on generalizing p cur with
  | _ n ih =>
    rw [Process.touch]
    split_ifs with hlt haccessible
    · obtain ⟨l, hl, htouches⟩ := @ih (stop - (cur + stride)) (by rw [stride]; omega)
        { p with
          bytes := Function.update p.bytes cur (p.bytes cur)
          touched := p.touched ++ [cur] } (cur + stride)
        (fun a ha => haccess a (Nat.le_of_add_right_le ha)) rfl
      refine ⟨cur :: l, ?_, ⟨?_, fun k hk => ?_⟩⟩
      · rw [hl]
        simp [Function.update_eq_self]
      · refine List.forall_mem_cons.mpr ⟨⟨le_rfl, hlt⟩, fun a ha => ?_⟩
        obtain ⟨hcur, hstop⟩ := htouches.inside a ha
        exact ⟨Nat.le_of_add_right_le hcur, hstop⟩
      · cases k with
        | zero => simp
        | succ k =>
          have hnext : cur + stride * (k + 1) = cur + stride + stride * k := by ring
          rw [hnext] at hk ⊢
          exact List.mem_cons_of_mem _ (htouches.every k hk)
    · exact absurd (haccess cur le_rfl hlt) haccessible
    · exact ⟨[], by simp, by simp, fun k hk => absurd (Nat.le_of_add_right_le hk.le) (by omega)⟩

/-- A page. -/
def pageSize : ℕ := 4096

/-- What is touched of an area are its pages. -/
theorem Touches.page_iff {a : Area} {l : List ℕ} (h : Touches a.start a.stop l) (page : ℕ) :
    (∃ addr ∈ l, addr / pageSize = page) ↔
      a.start ≤ page * pageSize ∧ page * pageSize < a.stop := by
  obtain ⟨first, hfirst⟩ := a.start_aligned
  constructor
  · rintro ⟨addr, haddr, rfl⟩
    obtain ⟨hstart, hstop⟩ := h.inside addr haddr
    rw [pageSize]
    omega
  · rintro ⟨hstart, hstop⟩
    rw [pageSize] at hstart hstop
    have haddr : page * 4096 = a.start + stride * (2 * (page - first)) := by
      rw [stride]
      omega
    refine ⟨page * 4096, ?_, by rw [pageSize]; omega⟩
    rw [haddr]
    exact h.every _ (by rwa [← haddr])

/-! ### Lines -/

theorem scanTo_append {last : UInt8} {s l : List UInt8} {room : ℕ} (hlast : last ∉ s)
    (hroom : s.length < room) : scanTo last room (s ++ last :: l) = some (s, l) := by
  induction s generalizing room with
  | nil =>
    obtain ⟨room, rfl⟩ := Nat.exists_eq_succ_of_ne_zero hroom.ne'
    simp [scanTo]
  | cons b s ih =>
    obtain ⟨room, rfl⟩ := Nat.exists_eq_succ_of_ne_zero (Nat.ne_zero_of_lt hroom)
    rw [List.mem_cons, not_or] at hlast
    obtain ⟨hb, hs⟩ := hlast
    rw [List.cons_append, scanTo, if_neg (Ne.symm hb), ih hs (by simpa using hroom)]
    rfl

/-- Without the byte it runs out of room. -/
theorem scanTo_eq_none {last : UInt8} {l : List UInt8} {room : ℕ} (h : last ∉ l.take room) :
    scanTo last room l = none := by
  induction room generalizing l with
  | zero => rfl
  | succ room ih =>
    cases l with
    | nil => rfl
    | cons b l =>
      rw [List.take_succ_cons, List.mem_cons, not_or] at h
      rw [scanTo, if_neg (Ne.symm h.1), ih h.2]
      rfl

/-- The beginning of a line, up to the permissions. -/
def Area.head (a : Area) : List UInt8 :=
  hexText a.start ++ dash :: (hexText a.stop ++ space :: a.permissions)

theorem Area.line_eq (a : Area) : a.line = a.head ++ (a.rest ++ [newline]) := by
  simp [Area.line, Area.head]

theorem Area.length_head_le (a : Area) : a.head.length ≤ 38 := by
  have hstart := (length_hexText (n := a.start) (by have := a.start_lt; have := a.stop_lt; omega)).2
  have hstop := (length_hexText (n := a.stop) (by have := a.stop_lt; omega)).2
  simp only [Area.head, Area.permissions, List.length_append, List.length_cons, List.length_nil]
  omega

/-- What `parseLine` makes of the line of an area, however much of it is there. -/
theorem parseLine_line (a : Area) (l : List UInt8) (p : Process) :
    parseLine (a.head ++ l) p =
      if a.readable = true ∧ a.writable = true then p.touch a.start a.stop else some p := by
  have hstart : a.start < 2 ^ 64 := by have := a.start_lt; have := a.stop_lt; omega
  have hstop : a.stop < 2 ^ 64 := by have := a.stop_lt; omega
  have hdash : dash ∉ hexText a.start := fun h => (plain_of_mem_hexText h).2.1 rfl
  have hspace : space ∉ hexText a.stop := fun h => (plain_of_mem_hexText h).2.2.1 rfl
  have hline : a.head ++ l = hexText a.start ++ dash :: (hexText a.stop ++
      space :: (a.permissions ++ l)) := by simp [Area.head]
  rw [hline, parseLine, scanTo_append hdash (by have := (length_hexText hstart).2; omega)]
  simp only [Option.bind_eq_bind, Option.bind_some]
  rw [scanTo_append hspace (by have := (length_hexText hstop).2; omega)]
  simp only [Option.bind_some, Area.permissions, List.cons_append, strtoul_hexText hstart,
    strtoul_hexText hstop]
  refine if_congr ?_ rfl rfl
  cases a.readable <;> cases a.writable <;> simp [dash]

/-! ### The file is read -/

theorem Area.line_pos (a : Area) : 0 < a.line.length := by
  simp [Area.line]

theorem Area.newline_notMem (a : Area) : newline ∉ a.head ++ a.rest := by
  have hpermissions : newline ∉ a.permissions := by
    rw [Area.permissions]
    split_ifs <;> decide
  have hnumber : ∀ n, newline ∉ hexText n := fun n h =>
    absurd (plain_of_mem_hexText h).1 (by decide)
  simp only [Area.head, List.mem_append, List.mem_cons, not_or]
  exact ⟨⟨hnumber _, by decide, hnumber _, by decide, hpermissions⟩, a.rest_newline⟩

/-- `fgets` stops at the end of a line, or in the middle of a long one. -/
theorem fgets_append {s text : List UInt8} (h : newline ∉ s) :
    fgets (s ++ newline :: text) = (s ++ [newline]).take 199 := by
  have htake : (s ++ newline :: text).takeWhile (· ≠ newline) = s := by
    rw [List.takeWhile_append_of_pos fun b hb => by simpa using ne_of_mem_of_not_mem hb h]
    simp
  rw [fgets, htake, show s ++ newline :: text = (s ++ [newline]) ++ text by simp,
    List.take_append_of_le_length (by simp), List.take_eq_take_iff]
  simp

theorem forceLines_of_ne_nil {line text : List UInt8} (h : text ≠ []) (p : Process) :
    forceLines line text p = (parseLine (fill line (fgets text)) p).bind fun p =>
      forceLines (fill line (fgets text)) (text.drop (fgets text).length) p := by
  cases text with
  | nil => exact absurd rfl h
  | cons b text => rw [forceLines]

/-- The first part of a line has all that `parseLine` looks at. -/
theorem forceLines_line (a : Area) (line text : List UInt8) (p : Process) :
    forceLines line (a.line ++ text) p =
      (if a.readable = true ∧ a.writable = true then p.touch a.start a.stop else some p).bind
        fun p => forceLines (fill line (a.line.take 199)) (a.line.drop 199 ++ text) p := by
  have hline : a.line ++ text = (a.head ++ a.rest) ++ newline :: text := by simp [Area.line_eq]
  have hchunk : fgets (a.line ++ text) = a.line.take 199 := by
    rw [hline, fgets_append a.newline_notMem, Area.line_eq, List.append_assoc]
  have hhead : fill line (a.line.take 199) = a.head ++ ((a.rest ++ [newline]).take
      (199 - a.head.length) ++ 0 :: line.drop ((a.line.take 199).length + 1)) := by
    rw [fill, ← List.append_assoc]
    congr 1
    rw [Area.line_eq, List.take_append, List.take_of_length_le (by have := a.length_head_le; omega)]
  have hdrop : (a.line ++ text).drop (a.line.take 199).length = a.line.drop 199 ++ text := by
    rw [List.length_take, List.drop_append_of_le_length (min_le_right _ _)]
    rcases le_total 199 a.line.length with hlong | hshort
    · rw [min_eq_left hlong]
    · rw [min_eq_right hshort, List.drop_length, List.drop_eq_nil_of_le hshort]
  have hne : a.line ++ text ≠ [] := by simp [hline]
  rw [forceLines_of_ne_nil hne, hchunk, hdrop]
  conv_lhs => rw [hhead, parseLine_line]
  rw [← hhead]

/-- What the lines of some areas do. -/
theorem forceLines_touches {areas : List Area} {p : Process}
    (hshort : ∀ a ∈ areas, a.line.length < 200)
    (haccess : ∀ a ∈ areas, a.ReadWrite → ∀ addr, a.start ≤ addr → addr < a.stop →
      p.accessible addr = true) (line text : List UInt8) :
    ∃ line' l, forceLines line (areas.flatMap Area.line ++ text) p =
        forceLines line' text { p with touched := p.touched ++ l } ∧
      ∀ page, (∃ addr ∈ l, addr / pageSize = page) ↔
        ∃ a ∈ areas, a.ReadWrite ∧ a.start ≤ page * pageSize ∧ page * pageSize < a.stop := by
  induction areas generalizing p line with
  | nil => exact ⟨line, [], by simp, by simp⟩
  | cons a areas ih =>
    obtain ⟨ha, hareas⟩ := List.forall_mem_cons.mp hshort
    obtain ⟨haccess, haccess'⟩ := List.forall_mem_cons.mp haccess
    have hnone : a.line.drop 199 = [] := List.drop_eq_nil_of_le (Nat.le_of_lt_succ ha)
    rw [List.flatMap_cons, List.append_assoc, forceLines_line, hnone, List.nil_append]
    by_cases hrw : a.readable = true ∧ a.writable = true
    · obtain ⟨l, hl, htouches⟩ := touch_spec (haccess hrw)
      rw [if_pos hrw, hl, Option.bind_some]
      obtain ⟨line', l', hrest, hpages⟩ := ih (p := { p with touched := p.touched ++ l }) hareas
        haccess' (fill line (a.line.take 199))
      refine ⟨line', l ++ l', by rw [hrest, List.append_assoc], fun page => ?_⟩
      simp only [List.mem_append, or_and_right, exists_or, htouches.page_iff, hpages,
        List.exists_mem_cons_iff]
      exact or_congr_left (iff_and_self.mpr fun _ => hrw)
    · rw [if_neg hrw, Option.bind_some]
      obtain ⟨line', l', hrest, hpages⟩ := ih hareas haccess' (fill line (a.line.take 199))
      refine ⟨line', l', hrest, fun page => ?_⟩
      rw [hpages, List.exists_mem_cons_iff]
      exact (or_iff_right fun h => hrw h.1).symm

/-- The second part of a long line, which `parseLine` takes for another line. -/
theorem forceLines_tail {a : Area} (hlong : 17 ≤ (a.line.drop 199).length)
    (hdash : dash ∉ (a.line.drop 199).take 17) (line text : List UInt8) (p : Process) :
    forceLines line (a.line.drop 199 ++ text) p = none := by
  have hlength : 199 ≤ (a.head ++ a.rest).length := by
    simp only [Area.line_eq, List.length_drop, List.length_append, List.length_cons,
      List.length_nil] at hlong ⊢
    omega
  have htail : a.line.drop 199 = (a.head ++ a.rest).drop 199 ++ [newline] := by
    rw [Area.line_eq, ← List.append_assoc, List.drop_append_of_le_length hlength]
  have hnewline : newline ∉ (a.head ++ a.rest).drop 199 := fun h =>
    a.newline_notMem (List.mem_of_mem_drop h)
  have hchunk : fgets (a.line.drop 199 ++ text) = (a.line.drop 199).take 199 := by
    rw [htail, List.append_assoc]
    exact fgets_append hnewline
  have hfirst : (fill line ((a.line.drop 199).take 199)).take 17 = (a.line.drop 199).take 17 := by
    rw [fill, List.take_append_of_le_length (by rw [List.length_take]; omega), List.take_take]
    rfl
  rw [forceLines_of_ne_nil (by simp [htail]), hchunk, parseLine, scanTo_eq_none (hfirst ▸ hdash)]
  rfl

/-- **Long lines.** Where the first line that has 200 bytes or more has a tail of at least 17 bytes
behind the 199th, and there is no dash among these: the process does not survive. -/
theorem forceMaps_dies {areas : List Area} {a : Area} (hshort : ∀ a ∈ areas, a.line.length < 200)
    (hlong : 17 ≤ (a.line.drop 199).length) (hdash : dash ∉ (a.line.drop 199).take 17)
    (text : List UInt8) (p : Process) :
    forceMaps (areas.flatMap Area.line ++ (a.line ++ text)) p = none := by
  have hlines : ∀ line, forceLines line (areas.flatMap Area.line ++ (a.line ++ text)) p = none := by
    induction areas generalizing p with
    | nil =>
      intro line
      rw [List.flatMap_nil, List.nil_append, forceLines_line, Option.bind_eq_none_iff]
      exact fun p' _ => forceLines_tail hlong hdash _ _ _
    | cons b areas ih =>
      intro line
      obtain ⟨hb, hareas⟩ := List.forall_mem_cons.mp hshort
      have hnone : b.line.drop 199 = [] := List.drop_eq_nil_of_le (Nat.le_of_lt_succ hb)
      rw [List.flatMap_cons, List.append_assoc, forceLines_line, hnone, List.nil_append,
        Option.bind_eq_none_iff]
      exact fun p' _ => ih hareas p' _
  exact hlines _

/-- A heap, and a library under a path of some length. -/
def heap : Area where
  start := 0x1000
  stop := 0x3000
  readable := true
  writable := true
  executable := false
  shared := false
  rest := []
  start_lt := by decide
  stop_lt := by decide
  start_aligned := by decide
  stop_aligned := by decide
  rest_newline := by decide

def library (length : ℕ) : Area where
  start := 0x4000
  stop := 0x5000
  readable := true
  writable := false
  executable := true
  shared := false
  rest := List.replicate length 97
  start_lt := by decide
  stop_lt := by decide
  start_aligned := by decide
  stop_aligned := by decide
  rest_newline := fun h => absurd (List.eq_of_mem_replicate h) (by decide)

/-- The path of the library is too long. -/
theorem forceMaps_dies_library : forceMaps ([heap].flatMap Area.line ++
    ((library 200).line ++ [])) ⟨fun _ => true, fun _ => 0, []⟩ = none :=
  forceMaps_dies (by decide +kernel) (by decide +kernel) (by decide +kernel) _ _

end S3RES.Force
