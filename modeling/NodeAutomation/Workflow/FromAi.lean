import Mathlib
import NodeAutomation.Workflow.ExtractReferences

/-! The check that an expression is one `$fromAI()` call with literal arguments
(`packages/workflow/src/from-ai-parse-utils.ts`): a scan of its characters
against the grammar of such calls. -/

namespace NodeAutomation.FromAi

open ExtractReferences (isSpace trim)

abbrev Text := List Char

def FROM_AI_AUTO_GENERATED_MARKER : Text := "/*n8n-auto-generated-fromAI-override*/".toList

def isQuote (c : Char) : Bool := c = '"' || c = '\'' || c = '`'

def isWordChar (c : Char) : Bool := c.isAlphanum || c = '.' || c = '-'

/-- `[a-zA-Z0-9.,\s-]`. -/
def isBareChar (c : Char) : Bool := isWordChar c || c = ',' || isSpace c

/-- What is left when prefix, braces and marker are off. -/
def stripped (expr : Text) : Text :=
  let str := trim (if expr.head? = some '=' then expr.tail else expr)
  let str := if "\x7b\x7b".toList.isPrefixOf str ∧ "\x7d\x7d".toList.isSuffixOf str then
    trim ((str.drop 2).take (str.length - 4)) else str
  if FROM_AI_AUTO_GENERATED_MARKER.isPrefixOf str then
    trim (str.drop FROM_AI_AUTO_GENERATED_MARKER.length) else str

/-- What stands behind a match of `/^\$fromAI\s*\(/i`. -/
def afterCallee (str : Text) : Option Text :=
  let behind := (str.drop 7).dropWhile isSpace
  if (str.take 7).map Char.toLower = "$fromai".toList ∧ behind.head? = some '(' then some behind.tail
  else none

/-- The loop from behind the opening parenthesis, inside the quotes `quoteChar` or outside
of any, up to what stands behind the closing one. -/
def walk : Option Char → Option Char → Text → Option Text
  | _, _, [] => none
  | some quoteChar, lastOutsideChar, '\\' :: _ :: str => walk (some quoteChar) lastOutsideChar str
  | some quoteChar, lastOutsideChar, char :: str =>
    if quoteChar = '`' ∧ char = '$' ∧ str.head? = some '{' then none
    else walk (if char = quoteChar then none else some quoteChar) lastOutsideChar str
  | none, lastOutsideChar, char :: str =>
    if isQuote char then
      -- a word before the backtick makes it a tagged template
      if char = '`' ∧ lastOutsideChar.any (fun c => c.isAlphanum || c = '_') then none
      else walk (some char) (some char) str
    else if char = ')' then some str
    else if isBareChar char then
      walk none (if isSpace char then lastOutsideChar else some char) str
    else none

def isFromAIOnlyExpression (expr : Text) : Bool :=
  (afterCallee (stripped expr)).any fun arguments =>
    (walk none none arguments).any fun remainder => (trim remainder).isEmpty

inductive Lexeme where
  | bare (char : Char)
  | quoted (quoteChar : Char) (body : Text)
  deriving DecidableEq

namespace Lexeme

def text : Lexeme → Text
  | bare char => [char]
  | quoted quoteChar body => quoteChar :: body ++ [quoteChar]

end Lexeme

open Lexeme

def closed (quoteChar : Char) : Text → Bool
  | [] => true
  | '\\' :: _ :: body => closed quoteChar body
  | char :: body => char ≠ quoteChar && char ≠ '\\' &&
      !(quoteChar = '`' ∧ char = '$' ∧ body.head? = some '{') && closed quoteChar body

/-- A line ends inside, without a backslash in front. -/
def breaks : Text → Bool
  | [] => false
  | '\\' :: _ :: body => breaks body
  | char :: body => char = '\n' || char = '\r' || breaks body

def WellFormed : Lexeme → Prop
  | bare char => isBareChar char
  | quoted quoteChar body => isQuote quoteChar ∧ closed quoteChar body

def digits (isDigit : Char → Bool) (text : Text) : Bool := !text.isEmpty && text.all isDigit

def isDecimal (text : Text) : Bool :=
  let whole := text.takeWhile Char.isDigit
  let fraction := text.dropWhile Char.isDigit
  digits Char.isDigit text ||
    (fraction.head? = some '.' && fraction.tail.all Char.isDigit && !(whole ++ fraction.tail).isEmpty)

def isNumber (text : Text) : Bool :=
  let text := if text.head? = some '-' then text.tail else text
  let mantissa := text.takeWhile fun c => c ≠ 'e' && c ≠ 'E'
  let exponent := text.drop (mantissa.length + 1)
  let rest := text.drop 2
  isDecimal text ||
    (mantissa.length < text.length && isDecimal mantissa &&
      digits Char.isDigit (if exponent.head? = some '-' then exponent.tail else exponent)) ||
    (text.head? = some '0' && match text[1]? with
      | some 'x' | some 'X' => digits (fun c => c.isDigit || "abcdefABCDEF".toList.contains c) rest
      | some 'o' | some 'O' => digits "01234567".toList.contains rest
      | some 'b' | some 'B' => digits "01".toList.contains rest
      | _ => false)

def isLiteral : List Lexeme → Bool
  | [quoted quoteChar body] => isQuote quoteChar && closed quoteChar body && (quoteChar = '`' || !breaks body)
  | lexemes => lexemes.all (fun lexeme => lexeme matches bare _) &&
      let word := lexemes.flatMap text
      word.all isWordChar && (word = "true".toList || word = "false".toList || isNumber word)

def isBlank (lexeme : Lexeme) : Bool := lexeme matches bare _ && lexeme.text.all isSpace

/-- A literal between blanks. -/
def IsArgument (lexemes : List Lexeme) : Prop :=
  ∃ before literal after, isLiteral literal ∧ before.all isBlank ∧ after.all isBlank ∧
    lexemes = before ++ literal ++ after

/-- Arguments between commas. Behind the last comma there may be none. -/
def IsArguments (lexemes : List Lexeme) : Prop :=
  ∃ arguments last, (∀ argument ∈ arguments, IsArgument argument) ∧
    (IsArgument last ∨ last.all isBlank) ∧ lexemes = [bare ','].intercalate (arguments ++ [last])

def IsLiteralCall (str : Text) : Prop :=
  ∃ lexemes remainder, afterCallee str = some (lexemes.flatMap text ++ ')' :: remainder) ∧
    (∀ lexeme ∈ lexemes, WellFormed lexeme) ∧ IsArguments lexemes ∧ remainder.all isSpace

def read : Option (Char × Text) → Text → List Lexeme
  | _, [] => []
  | some (quoteChar, body), '\\' :: char :: str => read (some (quoteChar, body ++ ['\\', char])) str
  | some (quoteChar, body), char :: str =>
    if char = quoteChar then quoted quoteChar body :: read none str
    else read (some (quoteChar, body ++ [char])) str
  | none, char :: str =>
    if isQuote char then read (some (char, [])) str
    else if char = ')' then []
    else bare char :: read none str

/-- What stands between two commas, without the blanks around it. -/
def token (lexemes : List Lexeme) : List Lexeme :=
  ((lexemes.dropWhile isBlank).reverse.dropWhile isBlank).reverse

/-- Between any two commas outside of quotes there is one token, which is a text in quotes or
a word that is `true`, `false` or a number. -/
def oneLiteralEach (arguments : Text) : Bool :=
  let pieces := (read none arguments).splitOn (bare ',')
  pieces.dropLast.all (fun piece => isLiteral (token piece)) &&
    (pieces.getLast?.all fun last => token last = [] || isLiteral (token last))

variable {quoteChar : Char} {str remainder : Text} {lexemes : List Lexeme}

theorem bare_not_special {c : Char} (h : isBareChar c = true) : isQuote c = false ∧ c ≠ ')' := by
  refine ⟨Bool.eq_false_iff.2 fun quote => ?_, ?_⟩
  · simp only [isQuote, Bool.or_eq_true, decide_eq_true_eq] at quote
    obtain (rfl | rfl) | rfl := quote <;> exact absurd h (by decide)
  · rintro rfl
    exact absurd h (by decide)

theorem walk_inside {mode last : Option Char} (inside : mode = some quoteChar)
    (went : walk mode last str = some remainder) :
    ∃ body rest, closed quoteChar body = true ∧ str = body ++ quoteChar :: rest ∧
      walk none last rest = some remainder := by
  fun_induction walk mode last str with
  | case1 => cases went
  | case2 last q c str ih =>
    cases inside
    obtain ⟨body, rest, shut, split, later⟩ := ih rfl went
    exact ⟨'\\' :: c :: body, rest, by simpa [closed] using shut, by simp [split], later⟩
  | case3 => cases went
  | case4 last q c str notEscape noTemplate ih =>
    cases inside
    by_cases ends : c = quoteChar
    · rw [if_pos ends] at went
      exact ⟨[], str, rfl, by simp [ends], went⟩
    · rw [if_neg ends] at ih went
      obtain ⟨body, rest, shut, split, later⟩ := ih rfl went
      refine ⟨c :: body, rest, ?_, by simp [split], later⟩
      have plain : c ≠ '\\' := by
        rintro rfl
        cases str with
        | nil => simp at split
        | cons next str => exact notEscape next str rfl rfl
      have opens (brace : body.head? = some '{') : str.head? = some '{' := by
        cases body with
        | nil => cases brace
        | cons next body => rw [split]; exact brace
      rw [closed]
      · have free : ¬ (quoteChar = '`' ∧ c = '$' ∧ body.head? = some '{') := fun template =>
          noTemplate ⟨template.1, template.2.1, opens template.2.2⟩
        simp only [ne_eq, ends, plain, shut, decide_eq_false free, not_false_eq_true, decide_true,
          Bool.not_false, Bool.and_true]
      · exact fun _ _ same => absurd same plain
  | case5 => cases inside
  | case6 => cases inside
  | case7 => cases inside
  | case8 => cases inside
  | case9 => cases inside

theorem lexemes_of_walk {last : Option Char} (went : walk none last str = some remainder) :
    ∃ lexemes : List Lexeme, (∀ lexeme ∈ lexemes, WellFormed lexeme) ∧
      str = lexemes.flatMap text ++ ')' :: remainder := by
  induction size : str.length using Nat.strong_induction_on generalizing str last with
  | _ size ih =>
    cases str with
    | nil => simp [walk] at went
    | cons char str =>
      rw [walk] at went
      split at went
      case isTrue quote =>
        split at went
        case isTrue => cases went
        case isFalse =>
          obtain ⟨body, rest, shut, rfl, later⟩ := walk_inside rfl went
          obtain ⟨lexemes, formed, rfl⟩ := ih _ (by simp at size; omega) later rfl
          exact ⟨quoted char body :: lexemes, List.forall_mem_cons.2 ⟨⟨quote, shut⟩, formed⟩, by simp [text]⟩
      case isFalse =>
        split at went
        case isTrue ends =>
          cases went
          exact ⟨[], nofun, by simp [ends]⟩
        case isFalse =>
          split at went
          case isTrue plain =>
            obtain ⟨lexemes, formed, rfl⟩ := ih _ (by simp at size; omega) went rfl
            exact ⟨bare char :: lexemes, List.forall_mem_cons.2 ⟨plain, formed⟩, by simp [text]⟩
          case isFalse => cases went

theorem read_closed {body : Text} (quote : isQuote quoteChar = true)
    (shut : closed quoteChar body = true) (front : Text) :
    read (some (quoteChar, front)) (body ++ quoteChar :: str) =
      quoted quoteChar (front ++ body) :: read none str := by
  have plain : quoteChar ≠ '\\' := by
    rintro rfl
    exact absurd quote (by decide)
  fun_induction closed quoteChar body generalizing front with
  | case1 =>
    rw [List.nil_append, read]
    · simp
    · exact fun _ _ same => absurd same plain
  | case2 c body ih =>
    rw [List.cons_append, List.cons_append, read, ih shut]
    simp
  | case3 c body notEscape ih =>
    simp only [Bool.and_eq_true, decide_eq_true_eq] at shut
    rw [List.cons_append, read, if_neg shut.1.1.1, ih shut.2]
    · simp
    · exact fun _ _ same => absurd same shut.1.1.2

theorem read_lexemes (formed : ∀ lexeme ∈ lexemes, WellFormed lexeme) :
    read none (lexemes.flatMap text ++ ')' :: remainder) = lexemes := by
  induction lexemes with
  | nil => simp [read, isQuote]
  | cons lexeme lexemes ih =>
    obtain ⟨here, later⟩ := List.forall_mem_cons.1 formed
    cases lexeme with
    | bare c =>
      obtain ⟨noQuote, noEnd⟩ := bare_not_special here
      simp [text, read, noQuote, noEnd, ih later]
    | quoted q body =>
      simp only [List.flatMap_cons, text, List.append_assoc, List.cons_append, List.nil_append]
      rw [read, if_pos here.1, read_closed here.1 here.2, ih later, List.nil_append]

theorem isSpace_of_isWordChar {c : Char} (word : isWordChar c = true) : isSpace c = false := by
  have ascii : c.val.toNat < 128 := by
    simp only [isWordChar, Char.isAlphanum, Char.isAlpha, Char.isUpper, Char.isLower, Char.isDigit,
      Bool.or_eq_true, Bool.and_eq_true, decide_eq_true_eq, UInt32.le_iff_toNat_le] at word
    rcases word with (((h | h) | h) | rfl) | rfl
    · exact lt_of_le_of_lt h.2 (by decide)
    · exact lt_of_le_of_lt h.2 (by decide)
    · exact lt_of_le_of_lt h.2 (by decide)
    · decide
    · decide
  refine Bool.eq_false_iff.2 fun space => ?_
  simp only [isSpace, List.mem_cons, List.not_mem_nil, or_false, Bool.or_eq_true, decide_eq_true_eq,
    Bool.and_eq_true, Char.le_def, UInt32.le_iff_toNat_le] at space
  rcases space with listed | range
  · rcases listed with rfl | rfl | rfl | rfl | rfl | rfl | rfl | rfl | rfl | rfl | rfl | rfl | rfl | rfl
    all_goals exact absurd word (by decide)
  · exact absurd (lt_of_le_of_lt range.1 ascii) (by decide)

theorem literal_solid (literal : isLiteral lexemes = true) :
    lexemes ≠ [] ∧ ∀ lexeme ∈ lexemes, isBlank lexeme = false ∧ lexeme ≠ bare ',' := by
  unfold isLiteral at literal
  split at literal
  case h_1 quoteChar body => exact ⟨by simp, by simp [isBlank]⟩
  case h_2 =>
    simp only [Bool.and_eq_true, List.all_eq_true] at literal
    obtain ⟨bares, chars, word⟩ := literal
    refine ⟨?_, fun lexeme member => ?_⟩
    · rintro rfl
      exact absurd word (by decide)
    · have isBare := bares lexeme member
      cases lexeme with
      | quoted quoteChar body => simp at isBare
      | bare c =>
        have wordChar := chars c (List.mem_flatMap.2 ⟨_, member, by simp [text]⟩)
        refine ⟨by simp [isBlank, text, isSpace_of_isWordChar wordChar], ?_⟩
        rintro ⟨⟩
        exact absurd wordChar (by decide)

theorem token_spec (piece : List Lexeme) : ∃ before after : List Lexeme, before.all isBlank = true ∧
    after.all isBlank = true ∧ piece = before ++ token piece ++ after := by
  refine ⟨piece.takeWhile isBlank, ((piece.dropWhile isBlank).reverse.takeWhile isBlank).reverse, ?_, ?_, ?_⟩
  · exact List.all_takeWhile
  · rw [List.all_reverse]
    exact List.all_takeWhile
  · rw [token, List.append_assoc, ← List.reverse_append, List.takeWhile_append_dropWhile,
      List.reverse_reverse, List.takeWhile_append_dropWhile]

theorem dropWhile_blanks {before rest : List Lexeme} (blank : before.all isBlank = true) :
    (before ++ rest).dropWhile isBlank = rest.dropWhile isBlank := by
  rw [List.dropWhile_append_of_pos (List.all_eq_true.1 blank)]

theorem dropWhile_solid {rest : List Lexeme} (solid : ∀ lexeme ∈ lexemes, isBlank lexeme = false)
    (some_ : lexemes ≠ []) : (lexemes ++ rest).dropWhile isBlank = lexemes ++ rest := by
  cases lexemes with
  | nil => exact absurd rfl some_
  | cons lexeme lexemes => simp [solid lexeme List.mem_cons_self]

theorem token_blanks (blank : lexemes.all isBlank = true) : token lexemes = [] := by
  have dropped : lexemes.dropWhile isBlank = [] := by
    rw [List.dropWhile_eq_nil_iff]
    exact List.all_eq_true.1 blank
  simp [token, dropped]

theorem isArgument_iff (piece : List Lexeme) : IsArgument piece ↔ isLiteral (token piece) = true := by
  constructor
  · rintro ⟨before, literal, after, isLit, blankBefore, blankAfter, rfl⟩
    obtain ⟨some_, solid⟩ := literal_solid isLit
    have backwards : token (before ++ literal ++ after) = literal := by
      rw [token, List.append_assoc, dropWhile_blanks blankBefore,
        dropWhile_solid (fun lexeme member => (solid lexeme member).1) some_, List.reverse_append,
        dropWhile_blanks (by rw [List.all_reverse]; exact blankAfter)]
      have same := @dropWhile_solid literal.reverse [] (fun lexeme member => (solid lexeme (by simpa using member)).1)
        (by simpa using some_)
      rw [List.append_nil] at same
      rw [same, List.reverse_reverse]
    rw [backwards]
    exact isLit
  · intro literal
    obtain ⟨before, after, blankBefore, blankAfter, eq⟩ := token_spec piece
    exact ⟨before, token piece, after, literal, blankBefore, blankAfter, eq⟩

theorem IsArgument.no_comma {piece : List Lexeme} (argument : IsArgument piece) : bare ',' ∉ piece := by
  obtain ⟨before, literal, after, isLit, blankBefore, blankAfter, rfl⟩ := argument
  have comma : isBlank (bare ',') = false := by decide
  intro member
  rcases List.mem_append.1 member with member | member
  · rcases List.mem_append.1 member with member | member
    · simp [List.all_eq_true.1 blankBefore _ member] at comma
    · exact ((literal_solid isLit).2 _ member).2 rfl
  · simp [List.all_eq_true.1 blankAfter _ member] at comma

theorem isArguments_iff (lexemes : List Lexeme) :
    IsArguments lexemes ↔
      ((lexemes.splitOn (bare ',')).dropLast.all (fun piece => isLiteral (token piece)) &&
        ((lexemes.splitOn (bare ',')).getLast?.all
          fun last => token last = [] || isLiteral (token last))) = true := by
  simp only [Bool.and_eq_true, List.all_eq_true, ← isArgument_iff]
  constructor
  · rintro ⟨arguments, last, each, ends, rfl⟩
    have apart : ∀ piece ∈ arguments ++ [last], bare ',' ∉ piece := by
      intro piece member comma
      rcases List.mem_append.1 member with inside | rest
      · exact (each piece inside).no_comma comma
      · rw [List.mem_singleton.1 rest] at comma
        rcases ends with argument | blank
        · exact argument.no_comma comma
        · exact absurd (List.all_eq_true.1 blank _ comma) (by decide)
    rw [List.splitOn_intercalate _ apart (by simp), List.dropLast_concat, List.getLast?_concat]
    refine ⟨each, ?_⟩
    rcases ends with argument | blank
    · simp [(isArgument_iff last).1 argument]
    · simp [token_blanks blank]
  · intro h
    cases pieces : (lexemes.splitOn (bare ',')).getLast? with
    | none => simp at pieces
    | some last =>
      obtain ⟨front, split⟩ := List.getLast?_eq_some_iff.1 pieces
      rw [split, List.dropLast_concat, List.getLast?_concat] at h
      refine ⟨front, last, h.1, ?_, ?_⟩
      · have ends := h.2
        simp only [Option.all_some, Bool.or_eq_true, decide_eq_true_eq] at ends
        rcases ends with empty | literal
        · obtain ⟨before, after, blankBefore, blankAfter, eq⟩ := token_spec last
          rw [empty, List.append_nil] at eq
          exact .inr (by rw [eq, List.all_append, blankBefore, blankAfter]; rfl)
        · exact .inl ((isArgument_iff last).2 literal)
      · rw [← split, List.intercalate_splitOn]

theorem all_isSpace_of_trim (empty : (trim str).isEmpty = true) : str.all isSpace = true := by
  rw [trim, List.isEmpty_iff, List.reverse_eq_nil_iff, List.dropWhile_eq_nil_iff] at empty
  rw [List.all_eq_true, ← @List.takeWhile_append_dropWhile _ isSpace str]
  intro c member
  rcases List.mem_append.1 member with front | rest
  · exact List.mem_takeWhile_imp front
  · exact empty c (List.mem_reverse.2 rest)

theorem IsLiteralCall.oneLiteralEach (call : IsLiteralCall str) :
    (afterCallee str).all oneLiteralEach = true := by
  obtain ⟨lexemes, remainder, callee, formed, isArguments, -⟩ := call
  rw [callee, Option.all_some, FromAi.oneLiteralEach, read_lexemes formed]
  exact (isArguments_iff lexemes).1 isArguments

/-- A string is accepted for a literal call only, exactly where it is not accepted or there is
one literal between any two commas outside of quotes. -/
theorem acceptsOnlyLiterals_iff (expr : Text) :
    (isFromAIOnlyExpression expr = true → IsLiteralCall (stripped expr)) ↔
      (isFromAIOnlyExpression expr = true →
        (afterCallee (stripped expr)).all oneLiteralEach = true) := by
  refine imp_congr_right fun accepted => ⟨IsLiteralCall.oneLiteralEach, fun each => ?_⟩
  rw [isFromAIOnlyExpression, Option.any_eq_true] at accepted
  obtain ⟨arguments, callee, accepted⟩ := accepted
  obtain ⟨remainder, went, empty⟩ := (Option.any_eq_true _ _).1 accepted
  obtain ⟨lexemes, formed, rfl⟩ := lexemes_of_walk went
  rw [callee, Option.all_some, oneLiteralEach, read_lexemes formed] at each
  exact ⟨lexemes, remainder, callee, formed, (isArguments_iff lexemes).2 each,
    all_isSpace_of_trim empty⟩

/-- A property of an identifier is no literal. -/
theorem processEnv_accepted :
    isFromAIOnlyExpression "=\x7b\x7b $fromAI(process.env) \x7d\x7d".toList = true ∧
      ¬ IsLiteralCall (stripped "=\x7b\x7b $fromAI(process.env) \x7d\x7d".toList) :=
  ⟨by decide, fun call => absurd call.oneLiteralEach (by decide)⟩

end NodeAutomation.FromAi
