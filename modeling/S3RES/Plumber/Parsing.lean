import S3RES.Plumber.Plumbing

/-!
# The config file

The scanner of `plumber/pb.l` and the grammar of `plumber/pb.y`. The parser runs the action of a
relationship or of a declaration when its last token is read, before it looks for the end of the
line. So a line that goes on where it should end is an error, but its action has been run. `parse`
gives the lines whose actions are run, and whether the file is one the grammar derives.

`parse_eq_true_iff`: these are the files that consist of lines, each with an `EOL` behind it, and
then the lines are those that are parsed.
-/

namespace S3RES.Plumber

/-- The tokens. The names of bison are those of the constructors, but for `P_SMR`, `P_DMR` and
`P_TMR`. -/
inductive Token
  | bench
  | rep (s : RepStrat)
  | startPipe
  | endPipe
  | startVote
  | endVote
  | startI2
  | endI2
  | assign
  | delim
  | varName (text : Text)
  | namedOb (text : Text)
  | numberVal (text : Text)
  | eol
  deriving DecidableEq

/-! ### The scanner -/

/-- `[a-z]`. -/
def isLower (b : UInt8) : Bool := 97 ≤ b && b ≤ 122

/-- `[A-Z]`. -/
def isUpper (b : UInt8) : Bool := 65 ≤ b && b ≤ 90

/-- `[a-zA-Z_]`. -/
def isWord (b : UInt8) : Bool := isLower b || isUpper b || b = 95

/-- `[0-9]`. -/
def isDigit (b : UInt8) : Bool := 48 ≤ b && b ≤ 57

/-- A word that starts with a capital. The rules of the four keywords come before that of
`NAMED_OB`. -/
def capital (text : Text) : Token :=
  if text = cString "Bench" then .bench
  else if text = cString "SMR" then .rep .smr
  else if text = cString "DMR" then .rep .dmr
  else if text = cString "TMR" then .rep .tmr
  else .namedOb text

/-- The longest match at the first byte, if it is a token, and what is left. Blanks and bytes that
no rule begins with are skipped one by one. -/
def scan (b : UInt8) (rest : Text) : Option Token × Text :=
  let word := rest.takeWhile isWord
  let digits := rest.takeWhile isDigit
  if isLower b then
    if word = [] then (none, rest) else (some (.varName (b :: word)), rest.dropWhile isWord)
  else if isUpper b then
    if word = [] then (none, rest) else (some (capital (b :: word)), rest.dropWhile isWord)
  else if isDigit b then (some (.numberVal (b :: digits)), rest.dropWhile isDigit)
  else
    match b.toNat, rest with
    | 40, rest => (some .startVote, rest)
    | 41, rest => (some .endVote, rest)
    | 91, rest => (some .startI2, rest)
    | 93, rest => (some .endI2, rest)
    | 44, rest => (some .delim, rest)
    | 10, rest => (some .eol, rest)
    | 45, 45 :: rest => (some .startPipe, rest)
    | 45, 62 :: rest => (some .endPipe, rest)
    | 45, rest =>
      if digits = [] then (none, rest)
      else (some (.numberVal (b :: digits)), rest.dropWhile isDigit)
    | 58, 61 :: rest => (some .assign, rest)
    -- a comment, up to the end of the line
    | 47, 47 :: rest => (some .eol, rest.dropWhile (· ≠ 10))
    | _, rest => (none, rest)

/-- `yylex` until the file is at its end; every match takes a byte. -/
def lexFrom : ℕ → Text → List Token
  | 0, _ | _, [] => []
  | k + 1, b :: rest => (scan b rest).1.toList ++ lexFrom k (scan b rest).2

def lex (file : Text) : List Token := lexFrom file.length file

/-! ### The grammar -/

/-- An end of a `relationship`. -/
inductive Side
  | bench
  | var (name : Text)
  | rep (n : RepName)

/-- `BENCH`, `VAR_NAME` or `rep_name`, and the tokens behind it. -/
def parseSide : List Token → Option (Side × List Token)
  | .bench :: rest => some (.bench, rest)
  | .varName name :: rest => some (.var name, rest)
  | .startVote :: .varName name :: .endVote :: rest => some (.rep (.vote name), rest)
  | .startI2 :: .varName name :: .endI2 :: rest => some (.rep (.i2 name), rest)
  | _ => none

/-- `arrow`. -/
def parseArrow : List Token → Option (Text × List Token)
  | .startPipe :: .namedOb type :: .endPipe :: rest => some (type, rest)
  | _ => none

/-- The relationship with these ends; Bench has none with itself. -/
def mkRelationship : Side → Text → Side → Option Relationship
  | .bench, _, .bench => none
  | .bench, arrow, .var b => some (.benchVar arrow b)
  | .bench, arrow, .rep b => some (.benchRep arrow b)
  | .var a, arrow, .bench => some (.varBench a arrow)
  | .rep a, arrow, .bench => some (.repBench a arrow)
  | .var a, arrow, .var b => some (.varVar a arrow b)
  | .rep a, arrow, .rep b => some (.repRep a arrow b)
  | .var a, arrow, .rep b => some (.varRep a arrow b)
  | .rep a, arrow, .var b => some (.repVar a arrow b)

/-- `relationship`. -/
def parseRelationship (tokens : List Token) : Option (Relationship × List Token) := do
  let (a, tokens) ← parseSide tokens
  let (arrow, tokens) ← parseArrow tokens
  let (b, tokens) ← parseSide tokens
  let r ← mkRelationship a arrow b
  return (r, tokens)

/-- `declaration`. -/
def parseDeclaration : List Token → Option (Declaration × List Token)
  | .varName name :: .assign :: .namedOb value :: .numberVal priority :: rest =>
    some (.plain name value priority, rest)
  | .varName name :: .assign :: .namedOb voter :: .startVote :: .namedOb value :: .endVote ::
      .rep s :: .delim :: .numberVal timer :: .numberVal priority :: rest =>
    some (.voted name voter value s timer priority, rest)
  | _ => none

/-- A declaration, which is known by its second token, or a relationship. -/
def parseItem : List Token → Option (Line × List Token)
  | .varName name :: .assign :: rest =>
    (parseDeclaration (.varName name :: .assign :: rest)).map fun p => (.declaration p.1, p.2)
  | tokens => (parseRelationship tokens).map fun p => (.relationship p.1, p.2)

/-- `line`: the lines whose actions are run, and whether there was no syntax error. -/
def parseFrom : ℕ → List Token → List Line × Bool
  | _, [] => ([], true)
  | 0, _ :: _ => ([], false)
  | k + 1, .eol :: rest => (.empty :: (parseFrom k rest).1, (parseFrom k rest).2)
  | k + 1, tokens =>
    match parseItem tokens with
    | none => ([], false)
    | some (line, .eol :: rest) => (line :: (parseFrom k rest).1, (parseFrom k rest).2)
    | some (line, _) => ([line], false)

/-- `yyparse`, apart from its actions. -/
def parse (tokens : List Token) : List Line × Bool := parseFrom tokens.length tokens

/-! ### What is accepted -/

/-- The tokens of a side. -/
def Side.tokens : Side → List Token
  | .bench => [.bench]
  | .var name => [.varName name]
  | .rep (.vote name) => [.startVote, .varName name, .endVote]
  | .rep (.i2 name) => [.startI2, .varName name, .endI2]

def arrowTokens (type : Text) : List Token := [.startPipe, .namedOb type, .endPipe]

/-- The sides of a relationship, with its arrow. -/
def Relationship.sides : Relationship → Side × Text × Side
  | .benchVar arrow b => (.bench, arrow, .var b)
  | .benchRep arrow b => (.bench, arrow, .rep b)
  | .varBench a arrow => (.var a, arrow, .bench)
  | .repBench a arrow => (.rep a, arrow, .bench)
  | .varVar a arrow b => (.var a, arrow, .var b)
  | .repRep a arrow b => (.rep a, arrow, .rep b)
  | .varRep a arrow b => (.var a, arrow, .rep b)
  | .repVar a arrow b => (.rep a, arrow, .var b)

def Relationship.tokens (r : Relationship) : List Token :=
  r.sides.1.tokens ++ arrowTokens r.sides.2.1 ++ r.sides.2.2.tokens

def Declaration.tokens : Declaration → List Token
  | .plain name value priority => [.varName name, .assign, .namedOb value, .numberVal priority]
  | .voted name voter value s timer priority =>
    [.varName name, .assign, .namedOb voter, .startVote, .namedOb value, .endVote, .rep s, .delim,
      .numberVal timer, .numberVal priority]

/-- The tokens of a line, up to its end. -/
def Line.body : Line → List Token
  | .relationship r => r.tokens
  | .declaration d => d.tokens
  | .empty => []

/-- The tokens of a line. -/
def Line.tokens (line : Line) : List Token := line.body ++ [.eol]

variable {tokens rest : List Token} {line : Line} {lines : List Line}

theorem parseSide_tokens (a : Side) (rest : List Token) :
    parseSide (a.tokens ++ rest) = some (a, rest) := by
  cases a with
  | bench => rfl
  | var name => rfl
  | rep n =>
    cases n with
    | vote name => rfl
    | i2 name => rfl

theorem parseSide_eq_some {a : Side} (h : parseSide tokens = some (a, rest)) :
    tokens = a.tokens ++ rest := by
  revert h
  fun_cases parseSide tokens with
  | case1 | case2 | case3 | case4 =>
    intro h
    obtain ⟨rfl, rfl⟩ := Prod.mk.inj (Option.some.inj h)
    rfl
  | case5 =>
    intro h
    cases h

theorem parseArrow_eq_some {type : Text} (h : parseArrow tokens = some (type, rest)) :
    tokens = arrowTokens type ++ rest := by
  revert h
  fun_cases parseArrow tokens with
  | case1 =>
    intro h
    obtain ⟨rfl, rfl⟩ := Prod.mk.inj (Option.some.inj h)
    rfl
  | case2 =>
    intro h
    cases h

theorem mkRelationship_sides (r : Relationship) :
    mkRelationship r.sides.1 r.sides.2.1 r.sides.2.2 = some r := by
  cases r <;> rfl

theorem mkRelationship_eq_some {a b : Side} {type : Text} {r : Relationship}
    (h : mkRelationship a type b = some r) : r.sides = (a, type, b) := by
  cases a <;> cases b <;> cases h <;> rfl

theorem parseRelationship_tokens (r : Relationship) (rest : List Token) :
    parseRelationship (r.tokens ++ rest) = some (r, rest) := by
  rw [parseRelationship, Relationship.tokens, List.append_assoc, List.append_assoc,
    parseSide_tokens]
  have harrow : parseArrow (arrowTokens r.sides.2.1 ++ (r.sides.2.2.tokens ++ rest)) =
      some (r.sides.2.1, r.sides.2.2.tokens ++ rest) := rfl
  simp only [Option.bind_eq_bind, Option.bind_some, harrow, parseSide_tokens, mkRelationship_sides]
  rfl

theorem parseRelationship_eq_some {r : Relationship} (h : parseRelationship tokens = some (r, rest)) :
    tokens = r.tokens ++ rest := by
  simp only [parseRelationship, Option.bind_eq_bind, Option.bind_eq_some_iff] at h
  obtain ⟨⟨a, tokens₁⟩, ha, ⟨type, tokens₂⟩, harrow, ⟨b, tokens₃⟩, hb, r', hr, heq⟩ := h
  obtain ⟨rfl, rfl⟩ := Prod.mk.inj (Option.some.inj heq)
  dsimp only at harrow hb hr ⊢
  rw [parseSide_eq_some ha, parseArrow_eq_some harrow, parseSide_eq_some hb, Relationship.tokens,
    mkRelationship_eq_some hr, List.append_assoc, List.append_assoc]

theorem parseDeclaration_eq_some {d : Declaration} (h : parseDeclaration tokens = some (d, rest)) :
    tokens = d.tokens ++ rest := by
  revert h
  fun_cases parseDeclaration tokens with
  | case1 | case2 =>
    intro h
    obtain ⟨rfl, rfl⟩ := Prod.mk.inj (Option.some.inj h)
    rfl
  | case3 =>
    intro h
    cases h

/-- The first two tokens of a relationship are not those of a declaration. -/
theorem parseItem_relationship (r : Relationship) (rest : List Token) :
    parseItem (r.tokens ++ rest) = some (.relationship r, rest) := by
  have hparse := parseRelationship_tokens r rest
  have hitem : parseItem (r.tokens ++ rest) =
      (parseRelationship (r.tokens ++ rest)).map fun p => (.relationship p.1, p.2) := by
    cases r with
    | benchVar | varBench | varVar | varRep => rfl
    | benchRep _ b => rfl
    | repBench a | repVar a =>
      cases a with
      | vote | i2 => rfl
    | repRep a _ b =>
      cases a with
      | vote | i2 => rfl
  rw [hitem, hparse]
  rfl

/-- A line that is not empty is parsed from its tokens, whatever comes behind it. -/
theorem parseItem_body (hline : line ≠ .empty) (rest : List Token) :
    parseItem (line.body ++ rest) = some (line, rest) := by
  cases line with
  | relationship r => exact parseItem_relationship r rest
  | declaration d =>
    cases d with
    | plain | voted => rfl
  | empty => exact absurd rfl hline

theorem parseItem_eq_some (h : parseItem tokens = some (line, rest)) :
    line ≠ .empty ∧ tokens = line.body ++ rest := by
  revert h
  fun_cases parseItem tokens with
  | case1 name rest' =>
    intro h
    obtain ⟨⟨d, rest''⟩, hd, heq⟩ := Option.map_eq_some_iff.mp h
    obtain ⟨rfl, rfl⟩ := Prod.mk.inj heq
    exact ⟨Line.noConfusion, parseDeclaration_eq_some hd⟩
  | case2 =>
    intro h
    obtain ⟨⟨r, rest''⟩, hr, heq⟩ := Option.map_eq_some_iff.mp h
    obtain ⟨rfl, rfl⟩ := Prod.mk.inj heq
    exact ⟨Line.noConfusion, parseRelationship_eq_some hr⟩

/-! ### Files -/

/-- A token that is not `EOL` begins an item. -/
theorem parseFrom_succ {k : ℕ} (hne : tokens ≠ []) (heol : ∀ rest, tokens ≠ .eol :: rest) :
    parseFrom (k + 1) tokens =
      match parseItem tokens with
      | none => ([], false)
      | some (line, .eol :: rest) => (line :: (parseFrom k rest).1, (parseFrom k rest).2)
      | some (line, _) => ([line], false) := by
  cases tokens with
  | nil => exact absurd rfl hne
  | cons token rest =>
    cases token with
    | eol => exact absurd rfl (heol rest)
    | _ => rfl

theorem parseFrom_line (k : ℕ) (line : Line) (rest : List Token) :
    parseFrom (k + 1) (line.tokens ++ rest) =
      (line :: (parseFrom k rest).1, (parseFrom k rest).2) := by
  by_cases hline : line = .empty
  · rw [hline]
    rfl
  · have hparse := parseItem_body hline (.eol :: rest)
    have htokens : line.tokens ++ rest = line.body ++ .eol :: rest := by
      rw [Line.tokens, List.append_assoc]
      rfl
    rw [htokens, parseFrom_succ ?_ ?_, hparse]
    · exact List.append_ne_nil_of_right_ne_nil _ (List.cons_ne_nil _ _)
    · intro rest' heq
      rw [heq] at hparse
      cases hparse

/-- The lines of a file whose lines are all complete. -/
theorem parseFrom_flatMap {k : ℕ} (hk : lines.length ≤ k) :
    parseFrom k (lines.flatMap Line.tokens) = (lines, true) := by
  induction lines generalizing k with
  | nil => cases k <;> rfl
  | cons line lines ih =>
    obtain ⟨k, rfl⟩ : ∃ j, k = j + 1 := ⟨k - 1, by rw [List.length_cons] at hk; omega⟩
    rw [List.flatMap_cons, parseFrom_line, ih (Nat.le_of_succ_le_succ hk)]

/-- What the tokens begin with: nothing, a line, or what the parser stops at. -/
theorem parseFrom_cases (tokens : List Token) : tokens = [] ∨
    (∃ (line : Line) (rest : List Token), tokens = line.tokens ++ rest) ∨
      tokens ≠ [] ∧ ∃ lines, ∀ k, parseFrom (k + 1) tokens = (lines, false) := by
  by_cases hnil : tokens = []
  · exact .inl hnil
  by_cases heol : ∃ rest, tokens = .eol :: rest
  · obtain ⟨rest, rfl⟩ := heol
    exact .inr (.inl ⟨.empty, rest, rfl⟩)
  have hsucc := fun k => parseFrom_succ (k := k) hnil fun rest hrest => heol ⟨rest, hrest⟩
  cases hitem : parseItem tokens with
  | none =>
    refine .inr (.inr ⟨hnil, [], fun k => ?_⟩)
    rw [hsucc, hitem]
  | some p =>
    obtain ⟨line, tokens'⟩ := p
    obtain ⟨-, htokens⟩ := parseItem_eq_some hitem
    by_cases hend : ∃ rest, tokens' = .eol :: rest
    · obtain ⟨rest, rfl⟩ := hend
      refine .inr (.inl ⟨line, rest, ?_⟩)
      rw [htokens, Line.tokens, List.append_assoc]
      rfl
    · -- the line does not end there
      refine .inr (.inr ⟨hnil, [line], fun k => ?_⟩)
      rw [hsucc, hitem]
      cases tokens' with
      | nil => rfl
      | cons token rest =>
        cases token with
        | eol => exact absurd ⟨rest, rfl⟩ hend
        | _ => rfl

/-- What is parsed without an error consists of the lines. -/
theorem parseFrom_eq_true {k : ℕ} (h : parseFrom k tokens = (lines, true)) :
    tokens = lines.flatMap Line.tokens := by
  induction k generalizing tokens lines with
  | zero =>
    cases tokens with
    | nil =>
      obtain ⟨rfl, -⟩ := Prod.mk.inj h
      rfl
    | cons => cases h
  | succ k ih =>
    obtain rfl | ⟨line, rest, rfl⟩ | ⟨-, lines', hstop⟩ := parseFrom_cases tokens
    · obtain ⟨rfl, -⟩ := Prod.mk.inj h
      rfl
    · rw [parseFrom_line] at h
      obtain ⟨rfl, htrue⟩ := Prod.mk.inj h
      rw [List.flatMap_cons, ← ih (Prod.ext rfl htrue)]
    · rw [hstop k] at h
      cases h

/-- **Files without a syntax error** are those that consist of lines. -/
theorem parse_eq_true_iff :
    parse tokens = (lines, true) ↔ tokens = lines.flatMap Line.tokens := by
  refine ⟨parseFrom_eq_true, ?_⟩
  rintro rfl
  refine parseFrom_flatMap ?_
  rw [List.length_flatMap]
  refine (List.length_le_sum_of_one_le (lines.map fun line => line.tokens.length) ?_).trans' ?_
  · intro n hn
    obtain ⟨line, -, rfl⟩ := List.mem_map.mp hn
    rw [Line.tokens, List.length_append]
    exact Nat.le_add_left 1 _
  · rw [List.length_map]

/-- No match gives bytes back. -/
theorem length_scan_le (b : UInt8) (rest : Text) : (scan b rest).2.length ≤ rest.length := by
  have hdrop : ∀ (p : UInt8 → Bool) (l : Text), (l.dropWhile p).length ≤ l.length :=
    fun p l => l.length_dropWhile_le p
  -- one byte has been taken, or two, or what the rule matches behind them
  fun_cases scan b rest
  all_goals
    first
      | exact le_rfl
      | exact hdrop _ _
      | exact Nat.le_succ _
      | exact (hdrop _ _).trans (Nat.le_succ _)

/-- The scanner comes to the end of the file. -/
theorem lexFrom_of_le {k : ℕ} {file : Text} (hk : file.length ≤ k) :
    lexFrom k file = lex file := by
  have hstep : ∀ (k j : ℕ) (file : Text), file.length ≤ k → file.length ≤ j →
      lexFrom k file = lexFrom j file := by
    intro k
    induction k with
    | zero =>
      intro j file hk _
      obtain rfl := List.eq_nil_of_length_eq_zero (Nat.le_zero.mp hk)
      cases j <;> rfl
    | succ k ih =>
      intro j file hk hj
      cases file with
      | nil => cases j <;> rfl
      | cons b rest =>
        obtain ⟨j, rfl⟩ : ∃ i, j = i + 1 := ⟨j - 1, by rw [List.length_cons] at hj; omega⟩
        have hle := length_scan_le b rest
        rw [lexFrom, lexFrom, ih j _ (hle.trans (Nat.le_of_succ_le_succ hk))
          (hle.trans (Nat.le_of_succ_le_succ hj))]
  exact hstep k file.length file hk le_rfl

/-- The parser comes to the end of the tokens or to an error. -/
theorem parseFrom_of_le {k : ℕ} (hk : tokens.length ≤ k) : parseFrom k tokens = parse tokens := by
  have hstep : ∀ (k j : ℕ) (tokens : List Token), tokens.length ≤ k → tokens.length ≤ j →
      parseFrom k tokens = parseFrom j tokens := by
    intro k
    induction k with
    | zero =>
      intro j tokens hk _
      obtain rfl := List.eq_nil_of_length_eq_zero (Nat.le_zero.mp hk)
      cases j <;> rfl
    | succ k ih =>
      intro j tokens hk hj
      obtain rfl | ⟨line, rest, rfl⟩ | ⟨hne, lines, hstop⟩ := parseFrom_cases tokens
      · cases j <;> rfl
      · rw [Line.tokens, List.length_append, List.length_append, List.length_singleton] at hk hj
        obtain ⟨j, rfl⟩ : ∃ i, j = i + 1 := ⟨j - 1, by omega⟩
        rw [parseFrom_line, parseFrom_line, ih j rest (by omega) (by omega)]
      · obtain ⟨j, rfl⟩ : ∃ i, j = i + 1 :=
          ⟨j - 1, by have := List.length_pos_of_ne_nil hne; omega⟩
        rw [hstop k, hstop j]
  exact hstep k tokens.length tokens hk le_rfl

end S3RES.Plumber
