import S3RES.Plumber.Parsing

/-!
# How config files are written

`Spells tokens file`: the file is made of the texts of the tokens, none of which could be longer,
with comments in place of ends of lines, and with bytes between them at which no token begins, such
as blanks. This is what the rules of `plumber/pb.l` say, where the longest match is taken and the
first rule of those with the longest; `lex_eq_iff` says that it is what the scanner does.

`accepted_iff`: the plumber finds no syntax error exactly in the files that spell lines.
-/

namespace S3RES.Plumber

/-! ### Tokens -/

/-- The text of a token. -/
def Token.text : Token → Text
  | .bench => cString "Bench"
  | .rep .smr => cString "SMR"
  | .rep .dmr => cString "DMR"
  | .rep .tmr => cString "TMR"
  | .startPipe => cString "--"
  | .endPipe => cString "->"
  | .startVote => cString "("
  | .endVote => cString ")"
  | .startI2 => cString "["
  | .endI2 => cString "]"
  | .assign => cString ":="
  | .delim => cString ","
  | .varName text | .namedOb text | .numberVal text => text
  | .eol => cString "\n"

/-- `[a-z][a-zA-Z_]+` and `[A-Z][a-zA-Z_]+`. -/
def IsName (first : UInt8 → Bool) (text : Text) : Prop :=
  ∃ b word, text = b :: word ∧ first b = true ∧ word ≠ [] ∧ ∀ c ∈ word, isWord c = true

/-- `-?[0-9]+`. -/
def IsNumber (text : Text) : Prop :=
  ∃ digits, digits ≠ [] ∧ (∀ d ∈ digits, isDigit d = true) ∧ (text = digits ∨ text = 45 :: digits)

/-- The text is matched by the rule of the token, and by none before it. -/
def Token.Valid : Token → Prop
  | .varName text => IsName isLower text
  | .namedOb text => IsName isUpper text ∧ capital text = .namedOb text
  | .numberVal text => IsNumber text
  | _ => True

/-- The token does not go on into what is behind it. -/
def Token.Ends : Token → Text → Prop
  | .bench, file | .rep _, file | .varName _, file | .namedOb _, file =>
    ∀ b ∈ file.head?, isWord b = false
  | .numberVal _, file => ∀ b ∈ file.head?, isDigit b = false
  | _, _ => True

/-- A token or a comment begins the file. -/
def Begins (file : Text) : Prop :=
  (∃ token : Token, token.Valid ∧ token.text <+: file) ∨ cString "//" <+: file

/-- **The rules.** -/
inductive Spells : List Token → Text → Prop
  | nil : Spells [] []
  | token {token : Token} {tokens : List Token} {file : Text} (hvalid : token.Valid)
      (hends : token.Ends file) (h : Spells tokens file) :
      Spells (token :: tokens) (token.text ++ file)
  | comment {tokens : List Token} {comment file : Text} (hcomment : ∀ b ∈ comment, b ≠ 10)
      (hends : ∀ b ∈ file.head?, b = 10) (h : Spells tokens file) :
      Spells (.eol :: tokens) (cString "//" ++ comment ++ file)
  | skip {tokens : List Token} {b : UInt8} {file : Text} (hnone : ¬ Begins (b :: file))
      (h : Spells tokens file) : Spells tokens (b :: file)

/-! ### One match -/

variable {b : UInt8} {rest file word : Text} {p : UInt8 → Bool}

/-- The longest match of a rule that goes on with a class of bytes. -/
theorem takeWhile_append_file (hword : ∀ c ∈ word, p c = true)
    (hends : ∀ c ∈ file.head?, p c = false) :
    (word ++ file).takeWhile p = word ∧ (word ++ file).dropWhile p = file := by
  rw [List.takeWhile_append_of_pos hword, List.dropWhile_append_of_pos hword]
  cases file with
  | nil => simp
  | cons c file =>
    have hc := hends c rfl
    simp [hc]

theorem scan_lower {text : Text} (hname : IsName isLower text)
    (hends : ∀ c ∈ file.head?, isWord c = false) :
    ∃ b rest, text ++ file = b :: rest ∧ scan b rest = (some (.varName text), file) := by
  obtain ⟨b, word, rfl, hb, hne, hword⟩ := hname
  obtain ⟨htake, hdrop⟩ := takeWhile_append_file hword hends
  refine ⟨b, word ++ file, rfl, ?_⟩
  simp only [scan, hb, htake, hdrop, hne, if_true, if_false]

theorem not_isLower_of_isUpper (hb : isUpper b = true) : isLower b = false := by
  simp only [isUpper, isLower, Bool.and_eq_true, decide_eq_true_eq, Bool.and_eq_false_iff,
    decide_eq_false_iff_not, UInt8.le_iff_toNat_le] at hb ⊢
  have h90 : (90 : UInt8).toNat = 90 := rfl
  have h97 : (97 : UInt8).toNat = 97 := rfl
  omega

theorem not_letter_of_isDigit (hb : isDigit b = true) : isLower b = false ∧ isUpper b = false := by
  simp only [isDigit, isUpper, isLower, Bool.and_eq_true, decide_eq_true_eq, Bool.and_eq_false_iff,
    decide_eq_false_iff_not, UInt8.le_iff_toNat_le] at hb ⊢
  have h57 : (57 : UInt8).toNat = 57 := rfl
  have h65 : (65 : UInt8).toNat = 65 := rfl
  have h97 : (97 : UInt8).toNat = 97 := rfl
  omega

theorem scan_upper {text : Text} (hname : IsName isUpper text)
    (hends : ∀ c ∈ file.head?, isWord c = false) :
    ∃ b rest, text ++ file = b :: rest ∧ scan b rest = (some (capital text), file) := by
  obtain ⟨b, word, rfl, hb, hne, hword⟩ := hname
  obtain ⟨htake, hdrop⟩ := takeWhile_append_file hword hends
  refine ⟨b, word ++ file, rfl, ?_⟩
  simp only [scan, hb, not_isLower_of_isUpper hb, htake, hdrop, hne, if_true, if_false,
    Bool.false_eq_true]

/-- A minus before neither a minus nor an arrow. -/
theorem scan_minus (hminus : ∀ l, rest ≠ 45 :: l) (harrow : ∀ l, rest ≠ 62 :: l) :
    scan 45 rest =
      if rest.takeWhile isDigit = [] then (none, rest)
      else (some (.numberVal (45 :: rest.takeWhile isDigit)), rest.dropWhile isDigit) := by
  fun_cases scan 45 rest with
  | case12 _ _ _ rest => exact absurd rfl (hminus rest)
  | case13 _ _ _ rest => exact absurd rfl (harrow rest)
  | case14 _ _ _ _ _ _ _ digits hnone => exact (if_pos hnone).symm
  | case15 _ _ _ _ _ _ _ digits hsome => exact (if_neg hsome).symm
  | _ => simp_all +decide

theorem scan_minus_digit {d : UInt8} (hd : isDigit d = true) :
    scan 45 (d :: rest) =
      (some (.numberVal (45 :: d :: rest.takeWhile isDigit)), rest.dropWhile isDigit) := by
  have hfirst : ∀ c, isDigit c = false → ∀ l, d :: rest ≠ c :: l := by
    rintro c hc l heq
    rw [← (List.cons.inj heq).1, hd] at hc
    cases hc
  rw [scan_minus (hfirst 45 rfl) (hfirst 62 rfl)]
  simp [hd]

theorem scan_number {text : Text} (hnumber : IsNumber text)
    (hends : ∀ c ∈ file.head?, isDigit c = false) :
    ∃ b rest, text ++ file = b :: rest ∧ scan b rest = (some (.numberVal text), file) := by
  obtain ⟨digits, hne, hdigits, htext⟩ := hnumber
  obtain ⟨d, digits, rfl⟩ := List.exists_cons_of_ne_nil hne
  obtain ⟨hd, hdigits⟩ := List.forall_mem_cons.mp hdigits
  obtain ⟨htake, hdrop⟩ := takeWhile_append_file hdigits hends
  obtain rfl | rfl := htext
  · obtain ⟨hlower, hupper⟩ := not_letter_of_isDigit hd
    refine ⟨d, digits ++ file, rfl, ?_⟩
    simp only [scan, hd, hlower, hupper, htake, hdrop, if_true, if_false, Bool.false_eq_true]
  · refine ⟨45, d :: (digits ++ file), rfl, ?_⟩
    rw [scan_minus_digit hd, htake, hdrop]

/-- The words that have a rule of their own would be names otherwise. -/
theorem isName_bench : IsName isUpper Token.bench.text :=
  ⟨66, _, rfl, rfl, by decide, List.all_eq_true.mp rfl⟩

theorem isName_rep (s : RepStrat) : IsName isUpper (Token.rep s).text := by
  cases s with
  | smr => exact ⟨83, _, rfl, rfl, by decide, List.all_eq_true.mp rfl⟩
  | dmr => exact ⟨68, _, rfl, rfl, by decide, List.all_eq_true.mp rfl⟩
  | tmr => exact ⟨84, _, rfl, rfl, by decide, List.all_eq_true.mp rfl⟩

/-- **A token is matched.** -/
theorem scan_text {token : Token} (hvalid : token.Valid) (hends : token.Ends file) :
    ∃ b rest, token.text ++ file = b :: rest ∧ scan b rest = (some token, file) := by
  cases token with
  | bench => exact scan_upper isName_bench hends
  | rep s =>
    cases s with
    | smr | dmr | tmr => exact scan_upper (isName_rep _) hends
  | varName text => exact scan_lower hvalid hends
  | namedOb text =>
    obtain ⟨b, rest, hfile, hscan⟩ := scan_upper hvalid.1 hends
    exact ⟨b, rest, hfile, hscan.trans (by rw [hvalid.2])⟩
  | numberVal text => exact scan_number hvalid hends
  | startPipe | endPipe | startVote | endVote | startI2 | endI2 | assign | delim | eol =>
    exact ⟨_, _, rfl, rfl⟩

theorem scan_comment {comment : Text} (hcomment : ∀ b ∈ comment, b ≠ 10)
    (hends : ∀ b ∈ file.head?, b = 10) :
    scan 47 (47 :: (comment ++ file)) = (some .eol, file) := by
  have hdrop := (takeWhile_append_file (p := fun b => b ≠ 10) (by simpa using hcomment)
    (by simpa using hends)).2
  have hscan : scan 47 (47 :: (comment ++ file)) =
      (some .eol, (comment ++ file).dropWhile fun b => b ≠ 10) := rfl
  rw [hscan, hdrop]

/-- Where a token or a comment begins, something is matched. -/
theorem isSome_scan_of_name {text : Text} {first : UInt8 → Bool}
    (hfirst : ∀ b, first b = true → isLower b = true ∨ isUpper b = true)
    (hname : IsName first text) (h : text ++ file = b :: rest) : (scan b rest).1.isSome := by
  obtain ⟨_, word, rfl, hb, hne, hword⟩ := hname
  obtain ⟨rfl, rfl⟩ := List.cons.inj h
  obtain ⟨c, word, rfl⟩ := List.exists_cons_of_ne_nil hne
  have hc := hword c List.mem_cons_self
  rcases hfirst _ hb with hlower | hupper
  · simp [scan, hlower, hc]
  · simp [scan, hupper, not_isLower_of_isUpper hupper, hc]

theorem isSome_scan_of_begins (h : Begins (b :: rest)) : (scan b rest).1.isSome := by
  have hletter : ∀ b, isUpper b = true → isLower b = true ∨ isUpper b = true := fun _ => .inr
  obtain ⟨token, hvalid, file, hfile⟩ | ⟨file, hfile⟩ := h
  · cases token with
    | varName text => exact isSome_scan_of_name (fun _ => .inl) hvalid hfile
    | namedOb text => exact isSome_scan_of_name hletter hvalid.1 hfile
    | bench => exact isSome_scan_of_name hletter isName_bench hfile
    | rep s => exact isSome_scan_of_name hletter (isName_rep s) hfile
    | numberVal text =>
      obtain ⟨digits, hne, hdigits, htext⟩ := hvalid
      obtain ⟨d, digits, rfl⟩ := List.exists_cons_of_ne_nil hne
      have hd := hdigits d List.mem_cons_self
      obtain rfl | rfl := htext
      · obtain ⟨rfl, rfl⟩ := List.cons.inj hfile
        obtain ⟨hlower, hupper⟩ := not_letter_of_isDigit hd
        simp [scan, hd, hlower, hupper]
      · obtain ⟨rfl, rfl⟩ := List.cons.inj hfile
        exact congrArg (fun r => r.1.isSome) (scan_minus_digit hd)
    | startPipe | endPipe | startVote | endVote | startI2 | endI2 | assign | delim | eol =>
      obtain ⟨rfl, rfl⟩ := List.cons.inj hfile
      rfl
  · obtain ⟨rfl, rfl⟩ := List.cons.inj hfile
    rfl

/-- Where nothing is matched, one byte is skipped. -/
theorem scan_eq_none (h : (scan b rest).1 = none) :
    ¬ Begins (b :: rest) ∧ (scan b rest).2 = rest := by
  refine ⟨fun hbegins => ?_, ?_⟩
  · have hsome := isSome_scan_of_begins hbegins
    rw [h] at hsome
    cases hsome
  · revert h
    fun_cases scan b rest with
    | case1 | case3 | case14 | case18 => exact fun _ => rfl
    | _ =>
      intro h
      cases h

theorem capital_spec {text : Text} (hname : IsName isUpper text) :
    (capital text).Valid ∧ (capital text).text = text ∧
      ∀ file : Text, (∀ b ∈ file.head?, isWord b = false) → (capital text).Ends file := by
  rw [capital]
  split_ifs with hbench hsmr hdmr htmr
  · exact ⟨trivial, hbench.symm, fun _ => id⟩
  · exact ⟨trivial, hsmr.symm, fun _ => id⟩
  · exact ⟨trivial, hdmr.symm, fun _ => id⟩
  · exact ⟨trivial, htmr.symm, fun _ => id⟩
  · refine ⟨⟨hname, ?_⟩, rfl, fun _ => id⟩
    rw [capital, if_neg hbench, if_neg hsmr, if_neg hdmr, if_neg htmr]

/-- What is matched is a token, or a comment. -/
theorem scan_spec (b : UInt8) (rest : Text) : ∀ token ∈ (scan b rest).1,
    (token.Valid ∧ token.Ends (scan b rest).2 ∧ b :: rest = token.text ++ (scan b rest).2) ∨
      token = .eol ∧ ∃ comment : Text, (∀ c ∈ comment, c ≠ 10) ∧
        (∀ c ∈ (scan b rest).2.head?, c = 10) ∧
        b :: rest = cString "//" ++ comment ++ (scan b rest).2 := by
  have hends : ∀ (p : UInt8 → Bool) (l : Text), ∀ c ∈ (l.dropWhile p).head?, p c = false := by
    intro p l c hc
    have hhead := List.head?_dropWhile_not p l
    rw [Option.mem_def.mp hc] at hhead
    exact hhead
  have hall : ∀ (p : UInt8 → Bool) (l : Text), ∀ c ∈ l.takeWhile p, p c = true := fun p l c hc =>
    List.mem_takeWhile_imp hc
  have hsplit : ∀ (p : UInt8 → Bool) (l : Text), l = l.takeWhile p ++ l.dropWhile p :=
    fun p l => List.takeWhile_append_dropWhile.symm
  intro token h
  revert h
  fun_cases scan b rest with
  | case1 | case3 | case14 | case18 =>
    intro h
    cases h
  | case2 _ word hb hne =>
    intro h
    obtain rfl := Option.some.inj h
    exact .inl ⟨⟨b, _, rfl, hb, hne, hall _ _⟩, hends _ _, congrArg _ (hsplit isWord rest)⟩
  | case4 _ word hlower hb hne =>
    intro h
    obtain rfl := Option.some.inj h
    obtain ⟨hvalid, htext, hcapital⟩ := capital_spec ⟨b, _, rfl, hb, hne, hall _ _⟩
    refine .inl ⟨hvalid, hcapital _ (hends _ _), ?_⟩
    rw [htext]
    exact congrArg _ (hsplit isWord rest)
  | case5 _ digits hlower hupper hb =>
    intro h
    obtain rfl := Option.some.inj h
    refine .inl ⟨⟨b :: digits, List.cons_ne_nil _ _, ?_, .inl rfl⟩, hends _ _,
      congrArg _ (hsplit isDigit rest)⟩
    exact List.forall_mem_cons.mpr ⟨hb, hall _ _⟩
  | case15 =>
    rename_i hminus _ _ digits hne
    intro h
    obtain rfl := Option.some.inj h
    obtain rfl : b = 45 := UInt8.toNat_inj.mp hminus
    exact .inl ⟨⟨digits, hne, hall _ _, .inr rfl⟩, hends _ _, congrArg _ (hsplit isDigit rest)⟩
  | case17 _ _ _ rest hslash =>
    intro h
    obtain rfl := Option.some.inj h
    obtain rfl : b = 47 := UInt8.toNat_inj.mp hslash
    refine .inr ⟨rfl, rest.takeWhile (· ≠ 10), fun c hc => ?_, fun c hc => ?_, ?_⟩
    · simpa using hall (fun c => c ≠ 10) rest c hc
    · simpa using hends (fun c => c ≠ 10) rest c hc
    · exact congrArg (fun l => 47 :: 47 :: l) (hsplit (fun c => c ≠ 10) rest)
  | case6 | case7 | case8 | case9 | case10 | case11 =>
    rename_i hbyte
    intro h
    obtain rfl := Option.some.inj h
    refine .inl ⟨trivial, trivial, congrArg (· :: rest) (UInt8.toNat_inj.mp hbyte)⟩
  | case12 | case13 =>
    rename_i hbyte
    intro h
    obtain rfl := Option.some.inj h
    obtain rfl : b = 45 := UInt8.toNat_inj.mp hbyte
    exact .inl ⟨trivial, trivial, rfl⟩
  | case16 _ _ _ _ hbyte =>
    intro h
    obtain rfl := Option.some.inj h
    obtain rfl : b = 58 := UInt8.toNat_inj.mp hbyte
    exact .inl ⟨trivial, trivial, rfl⟩

/-! ### Files -/

theorem lex_cons (b : UInt8) (rest : Text) :
    lex (b :: rest) = (scan b rest).1.toList ++ lex (scan b rest).2 := by
  rw [lex, List.length_cons, lexFrom, lexFrom_of_le (length_scan_le b rest)]

/-- **The scanner follows the rules.** -/
theorem lex_eq_iff {tokens : List Token} : lex file = tokens ↔ Spells tokens file := by
  constructor
  · rintro rfl
    induction h : file.length using Nat.strong_induction_on generalizing file with
    | _ n ih =>
      cases file with
      | nil => exact .nil
      | cons b rest =>
        subst h
        have hrest : Spells (lex (scan b rest).2) (scan b rest).2 :=
          ih _ (Nat.lt_succ_of_le (length_scan_le b rest)) rfl
        rw [lex_cons]
        cases hscan : (scan b rest).1 with
        | none =>
          obtain ⟨hnone, hskip⟩ := scan_eq_none hscan
          rw [hskip] at hrest ⊢
          exact hrest.skip hnone
        | some token =>
          obtain ⟨hvalid, hends, hfile⟩ | ⟨rfl, comment, hcomment, hends, hfile⟩ :=
            scan_spec b rest token hscan
          · rw [hfile]
            exact hrest.token hvalid hends
          · rw [hfile]
            exact hrest.comment hcomment hends
  · intro h
    induction h with
    | nil => rfl
    | token hvalid hends _ ih =>
      obtain ⟨b, rest, hfile, hscan⟩ := scan_text hvalid hends
      rw [hfile, lex_cons, hscan, ih]
      rfl
    | @comment tokens comment file hcomment hends _ ih =>
      have hfile : cString "//" ++ comment ++ file = 47 :: 47 :: (comment ++ file) := rfl
      rw [hfile, lex_cons, scan_comment hcomment hends, ih]
      rfl
    | @skip tokens b file hnone _ ih =>
      have hscan : (scan b file).1 = none := by
        by_contra hsome
        obtain ⟨token, htoken⟩ := Option.ne_none_iff_exists'.mp hsome
        refine hnone ?_
        obtain ⟨hvalid, -, hfile⟩ | ⟨-, comment, -, -, hfile⟩ := scan_spec b file token htoken
        · exact .inl ⟨token, hvalid, _, hfile.symm⟩
        · exact .inr ⟨_, (hfile.trans (List.append_assoc _ _ _)).symm⟩
      rw [lex_cons, hscan, (scan_eq_none hscan).2, ih]
      rfl

/-- **Accepted files.** The plumber finds no syntax error, and gets the lines, exactly in the files
that spell the tokens of the lines. -/
theorem accepted_iff {lines : List Line} :
    parse (lex file) = (lines, true) ↔ Spells (lines.flatMap Line.tokens) file :=
  parse_eq_true_iff.trans lex_eq_iff

/-- A comment ends its line, and then the end of the line is another one. -/
example : parse (lex (cString "log := Logger 15 // above\nphil --MSG_BUFFER->log\n")) =
    ([.declaration (.plain (cString "log") (cString "Logger") (cString "15")), .empty,
      .relationship (.varVar (cString "phil") (cString "MSG_BUFFER") (cString "log"))], true) := by
  decide +kernel

end S3RES.Plumber
