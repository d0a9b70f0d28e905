import Mathlib.Data.List.Induction
import NodeAutomation.Workflow.AccessPatterns

/-! The two splitters of an expression into text and code: the one extensions
are applied with (`packages/workflow/src/extensions/expression-parser.ts`) and
the one expressions are evaluated with
(`packages/@n8n/tournament/src/ExpressionSplitter.ts`). Both loops are reduced to
one reading of the text from the left, `scan`. -/

namespace NodeAutomation.ExpressionSplitter
open AccessPatterns

inductive ExpressionChunk where
  | text (text : Text)
  | code (text : Text) (hasClosingBrackets : Bool)
  deriving DecidableEq

inductive SearchingFor where
  | openBracket
  | closeBracket
  deriving DecidableEq

namespace SearchingFor

def char : SearchingFor → Char
  | openBracket => '{'
  | closeBracket => '}'

def brackets (bracket : SearchingFor) : Text := [bracket.char, bracket.char]

def other : SearchingFor → SearchingFor
  | openBracket => closeBracket
  | closeBracket => openBracket

end SearchingFor

open SearchingFor

def escapeCode : Text → Text
  | '\\' :: '}' :: '}' :: rest => '}' :: '}' :: rest
  | [] => []
  | c :: rest => c :: escapeCode rest

def normalizeBackslashes : Text → Text
  | '\\' :: '\\' :: rest => '\\' :: normalizeBackslashes rest
  | [] => []
  | c :: rest => c :: normalizeBackslashes rest

def lastChunk (searchingFor : SearchingFor) (buffer : Text) : ExpressionChunk :=
  match searchingFor with
  | openBracket => .text buffer
  | closeBracket => .code (escapeCode buffer) false

/-! `n8n-workflow`: one backslash before the brackets escapes them -/

namespace ExpressionParser

/-- The leftmost match of `(?<escape>\\|)(?<brackets>..)`: its index and whether
the group `escape` is a backslash. -/
def exec (activeRegex : SearchingFor) : Text → Option (Nat × Bool)
  | [] => none
  | c :: rest =>
    if (startsWith? ('\\' :: activeRegex.brackets) (c :: rest)).isSome then some (0, true)
    else if (startsWith? activeRegex.brackets (c :: rest)).isSome then some (0, false)
    else (exec activeRegex rest).map fun (index, escape) => (index + 1, escape)

/-- The loop over `expr = expression.slice(index)`. -/
def splitFrom : (fuel : Nat) → SearchingFor → (buffer expr : Text) → List ExpressionChunk
  | 0, _, _, _ => []
  | fuel + 1, searchingFor, buffer, expr =>
    if expr.length = 0 then []
    else match exec searchingFor expr with
      | none => [lastChunk searchingFor (buffer ++ expr)]
      | some (index, true) =>
        splitFrom fuel searchingFor (buffer ++ expr.take (index + 3)) (expr.drop (index + 3))
      | some (index, false) =>
        (match searchingFor with
          | openBracket => .text (buffer ++ expr.take index)
          | closeBracket => .code (escapeCode (buffer ++ expr.take index)) true) ::
        splitFrom fuel searchingFor.other [] (expr.drop (index + 2))

def splitExpression (expression : Text) : List ExpressionChunk :=
  if expression = [] then [.text []]
  else splitFrom (expression.length + 1) openBracket [] expression

end ExpressionParser

/-! `@n8n/tournament`: an odd number of backslashes escapes them -/

namespace Tournament

/-- The index of the leftmost match of the brackets. -/
def exec (activeRegex : SearchingFor) : Text → Option Nat
  | [] => none
  | c :: rest =>
    if (startsWith? activeRegex.brackets (c :: rest)).isSome then some 0
    else (exec activeRegex rest).map (· + 1)

/-- The length of the match of `\\*$`. -/
def backslashCount (beforeMatch : Text) : Nat :=
  (beforeMatch.reverse.takeWhile (· = '\\')).length

def splitFrom : (fuel : Nat) → SearchingFor → (buffer expr : Text) → List ExpressionChunk
  | 0, _, _, _ => []
  | fuel + 1, searchingFor, buffer, expr =>
    if expr.length = 0 then []
    else match exec searchingFor expr with
      | none => [lastChunk searchingFor (buffer ++ expr)]
      | some index =>
        let isEscaped := backslashCount (expr.take index) % 2 = 1
        if isEscaped then
          splitFrom fuel searchingFor (buffer ++ expr.take (index + 2)) (expr.drop (index + 2))
        else
          (match searchingFor with
            | openBracket => .text (normalizeBackslashes (buffer ++ expr.take index))
            | closeBracket => .code (escapeCode (buffer ++ expr.take index)) true) ::
          splitFrom fuel searchingFor.other [] (expr.drop (index + 2))

def splitExpression (expression : Text) : List ExpressionChunk :=
  if expression = [] then [.text []]
  else splitFrom (expression.length + 1) openBracket [] expression

end Tournament

example : ExpressionParser.splitExpression "a\\\\{{ b }}".toList = [.text "a\\\\{{ b }}".toList] := by
  decide

example : Tournament.splitExpression "a\\\\{{ b }}".toList =
    [.text "a\\".toList, .code " b ".toList true] := by decide

/-- What the splitters have to agree on: the text of a code, and for a text only
that it is one. -/
def ExpressionChunk.region : ExpressionChunk → Option Text
  | .text _ => none
  | .code content _ => some content

def SearchingFor.region : SearchingFor → (buffer : Text) → Option Text
  | .openBracket, _ => none
  | .closeBracket, buffer => some (escapeCode buffer)

/-- Whether brackets are escaped after one more character; the splitters differ
in what a backslash makes of it. -/
def escapes (onBackslash : Bool → Bool) (escaped : Bool) (c : Char) : Bool :=
  if c = '\\' then onBackslash escaped else false

def onBrackets (bracket searchingFor : SearchingFor) (escaped : Bool)
    (continued : (searchingFor : SearchingFor) → (fresh : Bool) → (buffer : Text) → List (Option Text))
    (buffer : Text) : List (Option Text) :=
  if bracket = searchingFor then
    if escaped then continued searchingFor true (buffer ++ bracket.brackets)
    else searchingFor.region buffer :: continued searchingFor.other true []
  else continued searchingFor false (buffer ++ bracket.brackets)

/-- The regions of a text. `fresh` says that brackets have just been dealt with:
a text that ends there gives no last chunk. -/
def scan (onBackslash : Bool → Bool) :
    SearchingFor → (escaped fresh : Bool) → (buffer : Text) → Text → List (Option Text)
  | searchingFor, _, fresh, buffer, [] => if fresh then [] else [searchingFor.region buffer]
  | searchingFor, escaped, _, buffer, '{' :: '{' :: rest =>
    onBrackets openBracket searchingFor escaped
      (fun searchingFor fresh buffer => scan onBackslash searchingFor false fresh buffer rest) buffer
  | searchingFor, escaped, _, buffer, '}' :: '}' :: rest =>
    onBrackets closeBracket searchingFor escaped
      (fun searchingFor fresh buffer => scan onBackslash searchingFor false fresh buffer rest) buffer
  | searchingFor, escaped, _, buffer, c :: rest =>
    scan onBackslash searchingFor (escapes onBackslash escaped c) false (buffer ++ [c]) rest

def NoBrackets (c : Char) (rest : Text) : Prop :=
  ∀ (bracket : SearchingFor) (tail : Text), c :: rest ≠ bracket.brackets ++ tail

theorem bracket_induction {P : Text → Prop} (nil : P [])
    (brackets : ∀ (bracket : SearchingFor) rest, P rest → P (bracket.brackets ++ rest))
    (char : ∀ c rest, NoBrackets c rest → P rest → P (c :: rest)) : ∀ text, P text
  | [] => nil
  | c :: rest => by
    by_cases found : ∃ (bracket : SearchingFor) (tail : Text), c :: rest = bracket.brackets ++ tail
    · obtain ⟨bracket, tail, same⟩ := found
      rw [same]
      have two : bracket.brackets.length = 2 := by cases bracket <;> rfl
      have shorter : tail.length ≤ rest.length := by
        have lengths := congrArg List.length same
        rw [List.length_cons, List.length_append, two] at lengths
        omega
      exact brackets bracket tail (bracket_induction nil brackets char tail)
    · exact char c rest (fun bracket tail same => found ⟨bracket, tail, same⟩)
        (bracket_induction nil brackets char rest)
termination_by text => text.length

variable (onBackslash : Bool → Bool) (searchingFor : SearchingFor) (escaped fresh : Bool)
  (buffer rest : Text)

@[simp] theorem scan_nil : scan onBackslash searchingFor escaped fresh buffer [] =
    if fresh then [] else [searchingFor.region buffer] := rfl

theorem scan_brackets (bracket : SearchingFor) :
    scan onBackslash searchingFor escaped fresh buffer (bracket.brackets ++ rest) =
      onBrackets bracket searchingFor escaped
        (fun searchingFor fresh buffer => scan onBackslash searchingFor false fresh buffer rest)
        buffer := by
  cases bracket with
  | openBracket => exact scan.eq_2 ..
  | closeBracket => exact scan.eq_3 ..

theorem scan_char {c : Char} (plain : NoBrackets c rest) :
    scan onBackslash searchingFor escaped fresh buffer (c :: rest) =
      scan onBackslash searchingFor (escapes onBackslash escaped c) false (buffer ++ [c]) rest :=
  scan.eq_4 _ _ _ _ _ _ _
    (fun tail isOpen same => plain openBracket tail (by rw [isOpen, same]; rfl))
    (fun tail isClose same => plain closeBracket tail (by rw [isClose, same]; rfl))

theorem startsWith?_isSome {word text : Text} :
    (startsWith? word text).isSome = true ↔ ∃ rest, text = word ++ rest := by
  induction word generalizing text with
  | nil => simp [startsWith?]
  | cons c word ih =>
    cases text with
    | nil => simp [startsWith?]
    | cons d text =>
      rw [startsWith?]
      split
      case isTrue same => simp [same, ih]
      case isFalse differ => simp [Ne.symm differ]

theorem brackets_inj {bracket other : SearchingFor} {rest tail : Text}
    (same : bracket.brackets ++ rest = other.brackets ++ tail) : bracket = other := by
  cases bracket <;> cases other <;> simp_all [SearchingFor.brackets, SearchingFor.char]

namespace Tournament

theorem exec_searchedFor : exec searchingFor (searchingFor.brackets ++ rest) = some 0 := by
  have found : (startsWith? searchingFor.brackets (searchingFor.brackets ++ rest)).isSome = true :=
    startsWith?_isSome.2 ⟨rest, rfl⟩
  exact if_pos found

theorem exec_other {bracket : SearchingFor} (differ : bracket ≠ searchingFor) :
    exec searchingFor (bracket.brackets ++ rest) = (exec searchingFor rest).map (· + 2) := by
  have first : (startsWith? searchingFor.brackets (bracket.brackets ++ rest)).isSome ≠ true :=
    fun found => differ (brackets_inj (startsWith?_isSome.1 found).choose_spec)
  have second : (startsWith? searchingFor.brackets (bracket.char :: rest)).isSome ≠ true := by
    intro found
    obtain ⟨tail, same⟩ := startsWith?_isSome.1 found
    cases bracket <;> cases searchingFor <;>
      simp_all [SearchingFor.brackets, SearchingFor.char]
  calc exec searchingFor (bracket.brackets ++ rest)
      = (exec searchingFor (bracket.char :: rest)).map (· + 1) := if_neg first
    _ = ((exec searchingFor rest).map (· + 1)).map (· + 1) := by rw [exec, if_neg second]
    _ = (exec searchingFor rest).map (· + 2) := by rw [Option.map_map]; rfl

theorem exec_char {c : Char} (plain : NoBrackets c rest) :
    exec searchingFor (c :: rest) = (exec searchingFor rest).map (· + 1) := by
  have none : (startsWith? searchingFor.brackets (c :: rest)).isSome ≠ true := by
    intro found
    obtain ⟨tail, same⟩ := startsWith?_isSome.1 found
    exact plain searchingFor tail same
  rw [exec, if_neg none]

end Tournament

def escapesAfter (escaped : Bool) (read : Text) : Bool :=
  read.foldl (escapes onBackslash) escaped

theorem escapesAfter_brackets (bracket : SearchingFor) :
    escapesAfter onBackslash escaped (bracket.brackets ++ rest) =
      escapesAfter onBackslash false rest := by
  cases bracket <;> rfl

theorem scan_exec (text : Text) (escaped fresh : Bool) (buffer : Text)
    (nonempty : text = [] → fresh = false) :
    scan onBackslash searchingFor escaped fresh buffer text =
      match Tournament.exec searchingFor text with
      | none => [searchingFor.region (buffer ++ text)]
      | some index =>
        if escapesAfter onBackslash escaped (text.take index) then
          scan onBackslash searchingFor false true (buffer ++ text.take (index + 2))
            (text.drop (index + 2))
        else searchingFor.region (buffer ++ text.take index) ::
          scan onBackslash searchingFor.other false true [] (text.drop (index + 2)) := by
  induction text using bracket_induction generalizing escaped fresh buffer with
  | nil => simp [Tournament.exec, nonempty rfl]
  | brackets bracket rest ih =>
    rw [scan_brackets, onBrackets]
    by_cases searched : bracket = searchingFor
    · rw [if_pos searched, searched, Tournament.exec_searchedFor]
      simp only [List.take_zero, List.append_nil]
      rfl
    · rw [if_neg searched, Tournament.exec_other _ _ searched,
        ih false false _ fun _ => rfl]
      cases Tournament.exec searchingFor rest with
      | none => simp
      | some index =>
        have taken (count : Nat) :
            (bracket.brackets ++ rest).take (count + 2) = bracket.brackets ++ rest.take count := rfl
        have dropped (count : Nat) :
            (bracket.brackets ++ rest).drop (count + 2) = rest.drop count := rfl
        simp only [Option.map_some, taken, dropped, escapesAfter_brackets, List.append_assoc]
  | char c rest plain ih =>
    rw [scan_char _ _ _ _ _ _ plain, Tournament.exec_char _ _ plain, ih _ _ _ fun _ => rfl]
    cases Tournament.exec searchingFor rest with
    | none => simp
    | some index => simp [escapesAfter]

@[simp] theorem region_lastChunk :
    (lastChunk searchingFor buffer).region = searchingFor.region buffer := by
  cases searchingFor <;> rfl

namespace Tournament

theorem backslashCount_odd (beforeMatch : Text) :
    backslashCount beforeMatch % 2 = 1 ↔ escapesAfter not false beforeMatch = true := by
  induction beforeMatch using List.reverseRecOn with
  | nil => decide
  | append_singleton before c ih =>
    have count : backslashCount (before ++ [c]) =
        if c = '\\' then backslashCount before + 1 else 0 := by
      by_cases backslash : c = '\\' <;> simp [backslashCount, backslash]
    have escaped : escapesAfter not false (before ++ [c]) =
        if c = '\\' then !escapesAfter not false before else false := by
      simp [escapesAfter, escapes]
    rw [count, escaped]
    split
    case isTrue =>
      rw [Bool.not_eq_true', ← Bool.not_eq_true, ← ih]
      omega
    case isFalse => simp

theorem splitFrom_region (fuel : Nat) (searchingFor : SearchingFor) (buffer expr : Text)
    (enough : expr.length < fuel) :
    (splitFrom fuel searchingFor buffer expr).map ExpressionChunk.region =
      scan not searchingFor false true buffer expr := by
  induction fuel generalizing searchingFor buffer expr with
  | zero => exact absurd enough (Nat.not_lt_zero _)
  | succ fuel ih =>
    rw [splitFrom]
    split
    case isTrue empty =>
      rw [List.eq_nil_of_length_eq_zero empty]
      rfl
    case isFalse nonempty =>
      rw [scan_exec _ _ _ _ _ _ fun empty => absurd (by rw [empty]; rfl) nonempty]
      have shorter (index : Nat) : (expr.drop (index + 2)).length < fuel := by
        rw [List.length_drop]
        omega
      cases exec searchingFor expr with
      | none => simp
      | some index =>
        simp only [backslashCount_odd]
        split
        case isTrue => exact ih _ _ _ (shorter index)
        case isFalse =>
          rw [List.map_cons, ih _ _ _ (shorter index)]
          cases searchingFor <;> rfl

end Tournament

namespace ExpressionParser

theorem escapesAfter_cons (c : Char) (nonempty : rest ≠ []) :
    escapesAfter (fun _ => true) escaped (c :: rest) = escapesAfter (fun _ => true) false rest := by
  cases rest with
  | nil => exact absurd rfl nonempty
  | cons d rest => rfl

/-- The group `escape` takes in the backslash before the brackets, where there is one. -/
theorem exec_eq (text : Text) : exec searchingFor text =
    (Tournament.exec searchingFor text).map fun index =>
      if escapesAfter (fun _ => true) false (text.take index) then (index - 1, true)
      else (index, false) := by
  induction text with
  | nil => rfl
  | cons c rest ih =>
    rw [exec, Tournament.exec]
    by_cases escaped : (startsWith? ('\\' :: searchingFor.brackets) (c :: rest)).isSome = true
    · obtain ⟨tail, same⟩ := startsWith?_isSome.1 escaped
      obtain ⟨backslash, found⟩ := List.cons.inj same
      have differ : (startsWith? searchingFor.brackets ('\\' :: rest)).isSome ≠ true := by
        cases searchingFor <;> simp [SearchingFor.brackets, SearchingFor.char, startsWith?]
      rw [if_pos escaped, backslash, if_neg differ, found, List.append_eq,
        Tournament.exec_searchedFor]
      rfl
    · rw [if_neg escaped]
      split
      case isTrue => rfl
      case isFalse =>
        rw [ih]
        cases found : Tournament.exec searchingFor rest with
        | none => rfl
        | some index =>
          simp only [Option.map_some, List.take_succ_cons]
          cases index with
          | zero =>
            have notBackslash : c ≠ '\\' := by
              intro backslash
              refine escaped (startsWith?_isSome.2 ?_)
              cases rest with
              | nil => cases found
              | cons d rest =>
                rw [Tournament.exec] at found
                split at found
                case isTrue brackets =>
                  obtain ⟨tail, same⟩ := startsWith?_isSome.1 brackets
                  exact ⟨tail, by rw [backslash, same]; rfl⟩
                case isFalse => simp at found
            simp [escapesAfter, escapes, notBackslash]
          | succ index =>
            have nonempty : rest.take (index + 1) ≠ [] := by
              intro empty
              cases rest with
              | nil => cases found
              | cons d rest => cases empty
            simp only [escapesAfter_cons _ _ _ nonempty]
            split <;> rfl

theorem splitFrom_region (fuel : Nat) (searchingFor : SearchingFor) (buffer expr : Text)
    (enough : expr.length < fuel) :
    (splitFrom fuel searchingFor buffer expr).map ExpressionChunk.region =
      scan (fun _ => true) searchingFor false true buffer expr := by
  induction fuel generalizing searchingFor buffer expr with
  | zero => exact absurd enough (Nat.not_lt_zero _)
  | succ fuel ih =>
    rw [splitFrom]
    split
    case isTrue empty =>
      rw [List.eq_nil_of_length_eq_zero empty]
      rfl
    case isFalse nonempty =>
      rw [scan_exec _ _ _ _ _ _ fun empty => absurd (by rw [empty]; rfl) nonempty, exec_eq]
      have shorter (index : Nat) : (expr.drop (index + 2)).length < fuel := by
        rw [List.length_drop]
        omega
      cases Tournament.exec searchingFor expr with
      | none => simp
      | some index =>
        simp only [Option.map_some]
        cases escaped : escapesAfter (fun _ => true) false (expr.take index) with
        | false =>
          simp only [Bool.false_eq_true, if_false]
          rw [List.map_cons, ih _ _ _ (shorter index)]
          cases searchingFor <;> rfl
        | true =>
          have positive : index - 1 + 3 = index + 2 := by
            cases index with
            | zero => cases escaped
            | succ index => rfl
          simp only [if_true, positive]
          exact ih _ _ _ (shorter index)

end ExpressionParser

end NodeAutomation.ExpressionSplitter
