import NodeAutomation.Workflow.ExpressionSplitter

/-! Joining the chunks of an expression and splitting it again
(`packages/workflow/src/extensions/expression-parser.ts`). Both directions replace only the
first closing brackets of a code; what that leaves is told by one reading of the text up to
the first brackets that are not escaped. -/

namespace NodeAutomation.ExpressionSplitter
open AccessPatterns SearchingFor

/-- `part.replace('}}', '\\}}')`: the first of them. -/
def escapeTmplExpression : Text → Text
  | '}' :: '}' :: rest => '\\' :: '}' :: '}' :: rest
  | [] => []
  | c :: rest => c :: escapeTmplExpression rest

def joinChunk : ExpressionChunk → Text
  | .code text hasClosingBrackets =>
    openBracket.brackets ++ escapeTmplExpression text ++
      (if hasClosingBrackets then closeBracket.brackets else [])
  | .text text => text

def joinExpression (parts : List ExpressionChunk) : Text := (parts.map joinChunk).flatten

/-- What a reading comes to. Where it finds nothing, `fresh` says that escaped brackets stand at
the very end, or that there is no text at all. -/
inductive Reading where
  | nothing (fresh : Bool)
  | brackets (before rest : Text)
  deriving DecidableEq

def Reading.behind (read : Text) : Reading → Reading
  | nothing fresh => nothing fresh
  | brackets before rest => brackets (read ++ before) rest

section

variable (searchingFor : SearchingFor)

def read : (escaped fresh : Bool) → Text → Reading
  | _, fresh, [] => .nothing fresh
  | _, _, [_] => .nothing false
  | escaped, _, c :: d :: rest =>
    if c = searchingFor.char ∧ d = searchingFor.char then
      if escaped then (read false true rest).behind [c, d] else .brackets [] rest
    else (read (c = '\\') false (d :: rest)).behind [c]

theorem read_found {c d : Char} {rest : Text} (found : c = searchingFor.char ∧ d = searchingFor.char)
    (escaped fresh : Bool) : read searchingFor escaped fresh (c :: d :: rest) =
      if escaped then (read searchingFor false true rest).behind [c, d] else .brackets [] rest := by
  rw [read, if_pos found]

theorem read_other {c d : Char} {rest : Text} (other : ¬ (c = searchingFor.char ∧ d = searchingFor.char))
    (escaped fresh : Bool) : read searchingFor escaped fresh (c :: d :: rest) =
      (read searchingFor (c = '\\') false (d :: rest)).behind [c] := by
  rw [read, if_neg other]

theorem Reading.behind_brackets {reading : Reading} {head before rest : Text}
    (same : reading.behind head = .brackets before rest) :
    ∃ tail, reading = .brackets tail rest ∧ before = head ++ tail := by
  cases reading with
  | nothing fresh => cases same
  | brackets tail rest' =>
    injection same with first second
    exact ⟨tail, by rw [second], first.symm⟩

@[simp] theorem Reading.behind_nothing {reading : Reading} {head : Text} {fresh : Bool} :
    reading.behind head = .nothing fresh ↔ reading = .nothing fresh := by
  cases reading <;> simp [Reading.behind]

@[simp] theorem startsWith?_brackets {c d : Char} {rest : Text} :
    (startsWith? searchingFor.brackets (c :: d :: rest)).isSome = true ↔
      c = searchingFor.char ∧ d = searchingFor.char := by
  rw [startsWith?_isSome]
  constructor
  · rintro ⟨tail, same⟩
    injection same with first second
    injection second with second
    exact ⟨first, second⟩
  · rintro ⟨rfl, rfl⟩
    exact ⟨rest, rfl⟩

theorem Reading.behind_behind (reading : Reading) (first second : Text) :
    (reading.behind second).behind first = reading.behind (first ++ second) := by
  cases reading <;> simp [Reading.behind]

theorem read_exec (escaped fresh : Bool) (text : Text) : read searchingFor escaped fresh text =
    match Tournament.exec searchingFor text with
    | none => .nothing (fresh && text.isEmpty)
    | some index =>
      if escapesAfter (fun _ => true) escaped (text.take index) then
        (read searchingFor false true (text.drop (index + 2))).behind (text.take (index + 2))
      else .brackets (text.take index) (text.drop (index + 2)) := by
  induction escaped, fresh, text using read.induct searchingFor with
  | case1 escaped fresh => simp [read, Tournament.exec]
  | case2 escaped fresh c =>
    have none : ¬ (startsWith? searchingFor.brackets [c]).isSome = true := by
      intro found
      obtain ⟨rest, same⟩ := startsWith?_isSome.1 found
      have lengths := congrArg List.length same
      simp [SearchingFor.brackets] at lengths
    rw [Tournament.exec, if_neg none]
    simp [read, Tournament.exec]
  | case3 fresh c d rest found =>
    rw [read_found searchingFor found, Tournament.exec, if_pos ((startsWith?_brackets searchingFor).2 found)]
    rfl
  | case4 fresh escaped c d rest found unescaped =>
    rw [read_found searchingFor found, Tournament.exec, if_pos ((startsWith?_brackets searchingFor).2 found),
      if_neg unescaped]
    simp [escapesAfter, unescaped]
  | case5 fresh escaped c d rest other ih =>
    have step : Tournament.exec searchingFor (c :: d :: rest) =
        (Tournament.exec searchingFor (d :: rest)).map (· + 1) :=
      if_neg fun found => other ((startsWith?_brackets searchingFor).1 found)
    rw [read_other searchingFor other, ih, step]
    cases Tournament.exec searchingFor (d :: rest) with
    | none => simp [Reading.behind]
    | some index =>
      have next : escapesAfter (fun _ => true) escaped (c :: (d :: rest).take index) =
          escapesAfter (fun _ => true) (c = '\\') ((d :: rest).take index) := by
        by_cases backslash : c = '\\' <;> simp [escapesAfter, escapes, backslash]
      simp only [Option.map_some, List.take_succ_cons, List.drop_succ_cons, next]
      split
      · rw [Reading.behind_behind]
        rfl
      · rfl

variable {searchingFor}

theorem cons_of_append_brackets {d : Char} {tail rest rest' : Text}
    (same : d :: rest = tail ++ searchingFor.brackets ++ rest') (other : Text) :
    ∃ more, tail ++ searchingFor.brackets ++ other = d :: more := by
  cases tail with
  | nil =>
    injection same with first second
    exact ⟨searchingFor.char :: other, by rw [first]; rfl⟩
  | cons c tail =>
    injection same with first second
    exact ⟨tail ++ searchingFor.brackets ++ other, by rw [first]; rfl⟩

theorem read_brackets {escaped fresh : Bool} {text before rest : Text}
    (found : read searchingFor escaped fresh text = .brackets before rest) :
    text = before ++ searchingFor.brackets ++ rest ∧
      ∀ other, read searchingFor escaped fresh (before ++ searchingFor.brackets ++ other) =
        .brackets before other := by
  induction escaped, fresh, text using read.induct searchingFor generalizing before with
  | case1 | case2 => cases found
  | case3 fresh c d text brackets ih =>
    rw [read_found searchingFor brackets, if_pos rfl] at found
    obtain ⟨tail, inner, rfl⟩ := Reading.behind_brackets found
    obtain ⟨rfl, onward⟩ := ih inner
    refine ⟨rfl, fun other => ?_⟩
    exact (read_found searchingFor brackets true fresh).trans (congrArg (Reading.behind [c, d]) (onward other))
  | case4 fresh escaped c d text brackets unescaped =>
    rw [read_found searchingFor brackets, if_neg unescaped] at found
    injection found with first second
    subst first second
    refine ⟨by rw [brackets.1, brackets.2]; rfl, fun other => ?_⟩
    exact (read_found searchingFor ⟨rfl, rfl⟩ escaped fresh).trans (if_neg unescaped)
  | case5 fresh escaped c d text other ih =>
    rw [read_other searchingFor other] at found
    obtain ⟨tail, inner, rfl⟩ := Reading.behind_brackets found
    obtain ⟨same, onward⟩ := ih inner
    refine ⟨by rw [same]; rfl, fun rest' => ?_⟩
    obtain ⟨more, starts⟩ := cons_of_append_brackets same rest'
    have again := onward rest'
    rw [starts] at again
    have cons : [c] ++ tail ++ searchingFor.brackets ++ rest' = c :: d :: more := by
      rw [← starts]
      rfl
    rw [cons, read_other searchingFor other, again]
    rfl

theorem read_before {escaped fresh : Bool} {text before rest : Text}
    (found : read searchingFor escaped fresh text = .brackets before rest) :
    ∃ fresh', read searchingFor escaped fresh before = .nothing fresh' := by
  induction escaped, fresh, text using read.induct searchingFor generalizing before with
  | case1 | case2 => cases found
  | case3 fresh c d text brackets ih =>
    rw [read_found searchingFor brackets, if_pos rfl] at found
    obtain ⟨tail, inner, rfl⟩ := Reading.behind_brackets found
    obtain ⟨fresh', nothing⟩ := ih inner
    exact ⟨fresh', (read_found searchingFor brackets true fresh).trans
      (congrArg (Reading.behind [c, d]) nothing)⟩
  | case4 fresh escaped c d text brackets unescaped =>
    rw [read_found searchingFor brackets, if_neg unescaped] at found
    injection found with first second
    subst first
    exact ⟨fresh, by rw [read]⟩
  | case5 fresh escaped c d text other ih =>
    rw [read_other searchingFor other] at found
    obtain ⟨tail, inner, rfl⟩ := Reading.behind_brackets found
    obtain ⟨same, -⟩ := read_brackets inner
    cases tail with
    | nil => exact ⟨false, rfl⟩
    | cons e tail =>
      obtain ⟨fresh', nothing⟩ := ih inner
      injection same with first second
      subst first
      refine ⟨fresh', (read_other searchingFor other escaped fresh).trans ?_⟩
      rw [nothing]
      rfl

def SearchingFor.escapedBrackets (bracket : SearchingFor) : Text := '\\' :: bracket.brackets

theorem escapedBrackets_suffix_cons {c : Char} {text : Text} (plain : c ≠ '\\') :
    searchingFor.escapedBrackets <:+ c :: text ↔ searchingFor.escapedBrackets <:+ text := by
  rw [List.suffix_cons_iff, or_iff_right]
  intro same
  exact plain (List.cons.inj same).1.symm

theorem not_escapedBrackets_suffix {text : Text} (short : text.length < 3) :
    ¬ searchingFor.escapedBrackets <:+ text := by
  intro suffix
  exact Nat.not_lt.2 suffix.length_le short

/-- A reading without brackets ends fresh where there is nothing, or an escaped pair at the end. -/
theorem read_nothing_iff {escaped fresh fresh' : Bool} {text : Text}
    (nothing : read searchingFor escaped fresh text = .nothing fresh') :
    fresh' = true ↔ text = [] ∧ fresh = true ∨
      searchingFor.escapedBrackets <:+ (if escaped then '\\' :: text else text) := by
  induction escaped, fresh, text using read.induct searchingFor with
  | case1 escaped fresh =>
    rw [read, Reading.nothing.injEq] at nothing
    have short : ¬ searchingFor.escapedBrackets <:+ (if escaped then ['\\'] else []) :=
      not_escapedBrackets_suffix (by cases escaped <;> decide)
    simp [nothing, short]
  | case2 escaped fresh c =>
    rw [read, Reading.nothing.injEq] at nothing
    have short : ¬ searchingFor.escapedBrackets <:+ (if escaped then ['\\', c] else [c]) :=
      not_escapedBrackets_suffix (by cases escaped <;> simp)
    simp [← nothing, short]
  | case3 fresh c d text brackets ih =>
    rw [read_found searchingFor brackets, if_pos rfl, Reading.behind_nothing] at nothing
    obtain ⟨rfl, rfl⟩ := brackets
    have plain : searchingFor.char ≠ '\\' := by cases searchingFor <;> decide
    have here : searchingFor.escapedBrackets = '\\' :: searchingFor.char :: searchingFor.char :: text ↔
        text = [] := by
      simp [SearchingFor.escapedBrackets, SearchingFor.brackets, eq_comm]
    rw [ih nothing, if_pos rfl, List.suffix_cons_iff, here, escapedBrackets_suffix_cons plain,
      escapedBrackets_suffix_cons plain]
    simp
  | case4 fresh escaped c d text brackets unescaped =>
    simp [read_found searchingFor brackets, if_neg unescaped] at nothing
  | case5 fresh escaped c d text other ih =>
    rw [read_other searchingFor other, Reading.behind_nothing] at nothing
    have behind : searchingFor.escapedBrackets <:+ (if escaped then '\\' :: c :: d :: text else c :: d :: text) ↔
        searchingFor.escapedBrackets <:+ c :: d :: text := by
      cases escaped with
      | false => rfl
      | true =>
        rw [if_pos rfl, List.suffix_cons_iff, or_iff_right]
        intro same
        injection same with first second
        injection second with second third
        injection third with third fourth
        exact other ⟨second.symm, third.symm⟩
    rw [ih nothing, behind]
    by_cases backslash : c = '\\'
    · simp [backslash]
    · simp [backslash, escapedBrackets_suffix_cons backslash]

end

def closable : (escaped : Bool) → Text → Bool
  | escaped, [] => !escaped
  | _, [c] => c ≠ '}' ∧ c ≠ '\\'
  | escaped, c :: d :: rest =>
    if c = '}' ∧ d = '}' then escaped && closable false rest else closable (c = '\\') (d :: rest)

theorem Reading.behind_eq_brackets {reading : Reading} {head before rest : Text} :
    reading.behind head = .brackets (head ++ before) rest ↔ reading = .brackets before rest := by
  cases reading <;> simp [Reading.behind]

theorem read_closing_iff (escaped fresh : Bool) (code rest : Text) :
    read closeBracket escaped fresh (code ++ closeBracket.brackets ++ rest) = .brackets code rest ↔
      closable escaped code := by
  induction escaped, code using closable.induct generalizing fresh with
  | case1 escaped =>
    refine Eq.congr_left (read_found closeBracket ⟨rfl, rfl⟩ escaped fresh) |>.trans ?_
    cases escaped with
    | false => exact iff_of_true rfl rfl
    | true =>
      refine iff_of_false (fun same => ?_) nofun
      obtain ⟨tail, -, nothing⟩ := Reading.behind_brackets same
      cases nothing
  | case2 escaped c =>
    by_cases brace : c = '}'
    · refine Eq.congr_left (read_found closeBracket ⟨brace, rfl⟩ escaped fresh) |>.trans ?_
      refine iff_of_false (fun same => ?_) (by simp [closable, brace])
      cases escaped with
      | false => cases same
      | true =>
        obtain ⟨tail, -, long⟩ := Reading.behind_brackets same
        cases long
    · refine Eq.congr_left (read_other closeBracket (fun both => brace both.1) escaped fresh) |>.trans ?_
      refine (@Reading.behind_eq_brackets _ [c] [] rest).trans ?_
      refine Eq.congr_left (read_found closeBracket ⟨rfl, rfl⟩ _ false) |>.trans ?_
      by_cases backslash : c = '\\'
      · refine iff_of_false (fun same => ?_) (by simp [closable, backslash])
        rw [if_pos (decide_eq_true backslash)] at same
        obtain ⟨tail, -, nothing⟩ := Reading.behind_brackets same
        cases nothing
      · exact iff_of_true (if_neg (by simpa using backslash)) (by simp [closable, brace, backslash])
  | case3 escaped c d code both ih =>
    refine Eq.congr_left (read_found closeBracket both escaped fresh) |>.trans ?_
    rw [closable, if_pos both]
    cases escaped with
    | false => exact iff_of_false nofun nofun
    | true => exact (@Reading.behind_eq_brackets _ [c, d] code rest).trans (ih true)
  | case4 escaped c d code other ih =>
    refine Eq.congr_left (read_other closeBracket other escaped fresh) |>.trans ?_
    rw [closable, if_neg other]
    exact (@Reading.behind_eq_brackets _ [c] (d :: code) rest).trans (ih false)

theorem escapeTmplExpression_cons {c : Char} {rest : Text} (plain : ∀ tail, c :: rest ≠ '}' :: '}' :: tail) :
    escapeTmplExpression (c :: rest) = c :: escapeTmplExpression rest :=
  escapeTmplExpression.eq_3 c rest fun tail first second => plain tail (by rw [first, second])

theorem escapeCode_cons {c : Char} {rest : Text} (plain : ∀ tail, c :: rest ≠ '\\' :: '}' :: '}' :: tail) :
    escapeCode (c :: rest) = c :: escapeCode rest :=
  escapeCode.eq_3 c rest fun tail first second => plain tail (by rw [first, second])

theorem escapeTmplExpression_head {code tail : Text} (same : escapeTmplExpression code = '}' :: tail) :
    ∃ rest, code = '}' :: rest ∧ ∀ rest', rest ≠ '}' :: rest' := by
  cases code with
  | nil => cases same
  | cons c rest =>
    by_cases brackets : ∃ rest', c :: rest = '}' :: '}' :: rest'
    · obtain ⟨rest', eq⟩ := brackets
      rw [eq] at same
      cases same
    · rw [escapeTmplExpression_cons fun rest' eq => brackets ⟨rest', eq⟩] at same
      injection same with first second
      exact ⟨rest, by rw [first], fun rest' eq => brackets ⟨rest', by rw [first, eq]⟩⟩

theorem escapeTmplExpression_ne (code tail : Text) : escapeTmplExpression code ≠ '}' :: '}' :: tail := by
  intro same
  obtain ⟨rest, rfl, single⟩ := escapeTmplExpression_head same
  rw [escapeTmplExpression_cons fun rest' eq => single rest' (List.cons.inj eq).2] at same
  obtain ⟨rest', rfl, -⟩ := escapeTmplExpression_head (List.cons.inj same).2
  exact single rest' rfl

theorem escapeCode_escapeTmplExpression (code : Text) : escapeCode (escapeTmplExpression code) = code := by
  induction code using escapeTmplExpression.induct with
  | case1 rest => rfl
  | case2 => rfl
  | case3 c rest plain ih =>
    rw [escapeTmplExpression.eq_3 c rest plain, escapeCode_cons, ih]
    intro tail same
    exact escapeTmplExpression_ne rest tail (List.cons.inj same).2

theorem escapeTmplExpression_of_start {code rest : Text} (before : code <+: escapeTmplExpression code ++ rest) :
    escapeTmplExpression code = code := by
  induction code using escapeTmplExpression.induct with
  | case1 code => cases (List.cons_prefix_cons.1 before).1
  | case2 => rfl
  | case3 c code plain ih =>
    rw [escapeTmplExpression.eq_3 c code plain] at before ⊢
    rw [ih (List.cons_prefix_cons.1 before).2]

theorem escapeTmplExpression_grows_cons {c : Char} {code : Text}
    (grows : (escapeTmplExpression code).length = code.length + 1) :
    (escapeTmplExpression (c :: code)).length = (c :: code).length + 1 := by
  by_cases brackets : ∃ tail, c :: code = '}' :: '}' :: tail
  · obtain ⟨tail, same⟩ := brackets
    rw [same]
    rfl
  · rw [escapeTmplExpression_cons fun tail same => brackets ⟨tail, same⟩]
    exact congrArg (· + 1) grows

theorem escapeCode_length (source : Text) : escapeCode source = source ∨
    (escapeCode source).length + 1 = source.length ∧
      (escapeTmplExpression (escapeCode source)).length = (escapeCode source).length + 1 := by
  induction source using escapeCode.induct with
  | case1 rest => exact .inr ⟨rfl, rfl⟩
  | case2 => exact .inl rfl
  | case3 c rest plain ih =>
    rw [escapeCode.eq_3 c rest plain]
    rcases ih with whole | ⟨shorter, grows⟩
    · exact .inl (congrArg (c :: ·) whole)
    · exact .inr ⟨congrArg (· + 1) shorter, escapeTmplExpression_grows_cons grows⟩

theorem source_eq {code before rest rest' : Text} (same : escapeTmplExpression code ++ rest = before ++ rest')
    (unescaped : escapeCode before = code) : before = escapeTmplExpression code := by
  subst unescaped
  rcases escapeCode_length before with whole | ⟨shorter, grows⟩
  · rw [whole] at same ⊢
    exact (escapeTmplExpression_of_start ⟨rest', same.symm⟩).symm
  · exact (List.append_inj same (by omega)).1.symm

/-- The first closing brackets have others right behind them. -/
def crowded : Text → Bool
  | '}' :: '}' :: rest => (startsWith? closeBracket.brackets rest).isSome
  | [] => false
  | _ :: rest => crowded rest

theorem crowded_cons {c : Char} {rest : Text} (plain : ∀ tail, c :: rest ≠ '}' :: '}' :: tail) :
    crowded (c :: rest) = crowded rest :=
  crowded.eq_3 c rest fun tail first second => plain tail (by rw [first, second])

variable {text : Text}

theorem read_fresh (nonempty : text ≠ []) (searchingFor : SearchingFor) (escaped fresh fresh' : Bool) :
    read searchingFor escaped fresh text = read searchingFor escaped fresh' text := by
  match text with
  | [] => exact absurd rfl nonempty
  | [c] => rfl
  | c :: d :: rest => rw [read, read]

theorem read_escaped {searchingFor : SearchingFor} (plain : ∀ tail, text ≠ searchingFor.brackets ++ tail)
    (escaped fresh : Bool) : read searchingFor escaped fresh text = read searchingFor false fresh text := by
  match text with
  | [] => rfl
  | [c] => rfl
  | c :: d :: rest =>
    have other : ¬ (c = searchingFor.char ∧ d = searchingFor.char) := fun both =>
      plain rest (by rw [both.1, both.2]; rfl)
    rw [read_other searchingFor other, read_other searchingFor other]

theorem read_cons_iff {c : Char} {searchingFor : SearchingFor}
    (plain : c = '\\' → ∀ tail, text ≠ searchingFor.brackets ++ tail)
    (apart : ∀ tail, c :: text ≠ searchingFor.brackets ++ tail) (fresh fresh' : Bool) :
    read searchingFor false fresh (c :: text) = .nothing fresh' ↔
      read searchingFor false false text = .nothing fresh' := by
  cases text with
  | nil => rfl
  | cons d text =>
    have other : ¬ (c = searchingFor.char ∧ d = searchingFor.char) := fun both =>
      apart text (by rw [both.1, both.2]; rfl)
    rw [read_other searchingFor other, Reading.behind_nothing]
    by_cases backslash : c = '\\'
    · rw [read_escaped (plain backslash)]
    · rw [decide_eq_false backslash]

theorem escapeCode_head {source tail : Text} (same : escapeCode source = '}' :: tail) :
    (∃ rest, source = '}' :: rest) ∨ ∃ rest, source = '\\' :: '}' :: '}' :: rest := by
  cases source with
  | nil => cases same
  | cons c rest =>
    by_cases escaped : ∃ rest', c :: rest = '\\' :: '}' :: '}' :: rest'
    · exact .inr escaped
    · rw [escapeCode_cons fun rest' eq => escaped ⟨rest', eq⟩] at same
      exact .inl ⟨rest, by rw [(List.cons.inj same).1]⟩

/-- A code that was read to the end of the text is read to the end again, when its first closing
brackets stand apart. -/
theorem read_rejoined_iff {source : Text} {fresh : Bool}
    (ends : read closeBracket false fresh source = .nothing false) :
    read closeBracket false fresh (escapeTmplExpression (escapeCode source)) = .nothing false ↔
      crowded (escapeCode source) = false := by
  induction source using escapeCode.induct generalizing fresh with
  | case1 rest =>
    refine iff_of_true ends ?_
    by_contra behind
    obtain ⟨tail, same⟩ := startsWith?_isSome.1 (Bool.not_eq_false _ ▸ behind)
    rw [same] at ends
    cases ends
  | case2 => exact iff_of_true ends rfl
  | case3 c rest plain ih =>
    rw [escapeCode.eq_3 c rest plain]
    by_cases before : c = '}' ∧ ∃ tail, rest = '\\' :: '}' :: '}' :: tail
    · -- the backslash comes back one brace earlier
      obtain ⟨rfl, tail, rfl⟩ := before
      have inner : read closeBracket false true tail = .nothing false := by
        have steps : (((read closeBracket false true tail).behind ['}', '}']).behind ['\\']).behind ['}'] =
          .nothing false := ends
        simpa using steps
      have goal : read closeBracket false fresh
          (escapeTmplExpression ('}' :: escapeCode ('\\' :: '}' :: '}' :: tail))) = .nothing false ↔
          read closeBracket false true ('}' :: tail) = .nothing false :=
        Reading.behind_nothing.trans Reading.behind_nothing
      have crowd : crowded ('}' :: escapeCode ('\\' :: '}' :: '}' :: tail)) =
        (startsWith? closeBracket.brackets ('}' :: tail)).isSome := rfl
      rw [goal, crowd]
      cases tail with
      | nil => cases inner
      | cons d tail =>
        by_cases brace : d = '}'
        · subst brace
          refine iff_of_false ?_ nofun
          rw [read_found (c := '}') (d := '}') closeBracket ⟨rfl, rfl⟩]
          nofun
        · have other : ¬ ('}' = closeBracket.char ∧ d = closeBracket.char) := fun both => brace both.2
          refine iff_of_true ?_ ?_
          · rw [read_other closeBracket other, Reading.behind_nothing]
            exact (read_fresh (List.cons_ne_nil d tail) _ _ _ _).trans inner
          · exact Bool.not_eq_true _ ▸ mt (startsWith?_brackets closeBracket).1 other
    · have apart : ∀ tail, c :: escapeCode rest ≠ '}' :: '}' :: tail := by
        intro tail same
        injection same with first second
        rcases escapeCode_head second with ⟨more, rfl⟩ | ⟨more, rfl⟩
        · subst first
          cases ends
        · exact before ⟨first, more, rfl⟩
      have whole : ∀ tail, c :: rest ≠ closeBracket.brackets ++ tail := by
        intro tail same
        rw [same] at ends
        cases ends
      have inner := (read_cons_iff (fun backslash tail same => plain tail backslash same) whole fresh false).1 ends
      rw [escapeTmplExpression_cons apart, crowded_cons apart, read_cons_iff, ih inner]
      · exact fun _ tail => escapeTmplExpression_ne _ tail
      · intro tail same
        injection same with first second
        obtain ⟨more, eq, -⟩ := escapeTmplExpression_head second
        exact apart more (by rw [first, eq]; rfl)

def chunk (unescape : Text → Text) : SearchingFor → Text → (hasClosingBrackets : Bool) → ExpressionChunk
  | openBracket, buffer, _ => .text buffer
  | closeBracket, buffer, hasClosingBrackets => .code (unescape buffer) hasClosingBrackets

inductive Splits (unescape : Text → Text) : SearchingFor → Text → List ExpressionChunk → Prop where
  | done (ends : read searchingFor false true expr = .nothing true) : Splits unescape searchingFor expr []
  | last (ends : read searchingFor false true expr = .nothing false) :
      Splits unescape searchingFor expr [chunk unescape searchingFor expr false]
  | next (found : read searchingFor false true expr = .brackets before rest)
      (onward : Splits unescape searchingFor.other rest chunks) :
      Splits unescape searchingFor expr (chunk unescape searchingFor before true :: chunks)

theorem lastChunk_eq (searchingFor : SearchingFor) (buffer : Text) :
    lastChunk searchingFor buffer = chunk escapeCode searchingFor buffer false := by
  cases searchingFor <;> rfl

variable {unescape : Text → Text} {searchingFor : SearchingFor} {expr : Text} {chunks chunks' : List ExpressionChunk}

theorem Splits.unique (h : Splits unescape searchingFor expr chunks)
    (h' : Splits unescape searchingFor expr chunks') : chunks = chunks' := by
  induction h generalizing chunks' with
  | done ends =>
    cases h' with
    | done => rfl
    | last ends' => cases ends.symm.trans ends'
    | next found => cases ends.symm.trans found
  | last ends =>
    cases h' with
    | done ends' => cases ends.symm.trans ends'
    | last => rfl
    | next found => cases ends.symm.trans found
  | next found onward ih =>
    cases h' with
    | done ends => cases found.symm.trans ends
    | last ends => cases found.symm.trans ends
    | next found' onward' =>
      cases found.symm.trans found'
      rw [ih onward']

def Given (reading : Reading) (searchingFor : SearchingFor) (buffer expr : Text) (chunks : List ExpressionChunk) :
    Prop :=
  match reading with
  | .nothing fresh => chunks = if fresh then [] else [chunk escapeCode searchingFor (buffer ++ expr) false]
  | .brackets before rest => ∃ onward, Splits escapeCode searchingFor.other rest onward ∧
      chunks = chunk escapeCode searchingFor (buffer ++ before) true :: onward

theorem Given.splits (given : Given (read searchingFor false true expr) searchingFor [] expr chunks) :
    Splits escapeCode searchingFor expr chunks := by
  cases there : read searchingFor false true expr with
  | nothing fresh =>
    rw [there, Given] at given
    cases fresh with
    | true => exact given ▸ .done there
    | false => exact given ▸ .last there
  | brackets before rest =>
    rw [there] at given
    obtain ⟨onward, splits, rfl⟩ := given
    exact .next there splits

theorem Given.behind {reading : Reading} {head tail buffer : Text}
    (given : Given reading searchingFor (buffer ++ head) tail chunks) :
    Given (reading.behind head) searchingFor buffer (head ++ tail) chunks := by
  cases reading with
  | nothing fresh => simpa [Given, Reading.behind] using given
  | brackets before rest => simpa [Given, Reading.behind] using given

namespace ExpressionParser

theorem splitFrom_given (fuel : Nat) (searchingFor : SearchingFor) (buffer expr : Text)
    (enough : expr.length < fuel) :
    Given (read searchingFor false true expr) searchingFor buffer expr
      (splitFrom fuel searchingFor buffer expr) := by
  induction fuel generalizing searchingFor buffer expr with
  | zero => exact absurd enough (Nat.not_lt_zero _)
  | succ fuel ih =>
    rw [splitFrom]
    by_cases empty : expr.length = 0
    · rw [if_pos empty, List.eq_nil_of_length_eq_zero empty]
      rfl
    have shorter (index : Nat) : (expr.drop (index + 2)).length < fuel := by
      rw [List.length_drop]
      omega
    have filled : expr.isEmpty = false := by
      cases expr with
      | nil => exact absurd rfl empty
      | cons => rfl
    rw [if_neg empty, read_exec, exec_eq]
    cases Tournament.exec searchingFor expr with
    | none => simp [Given, filled, lastChunk_eq]
    | some index =>
      simp only [Option.map_some]
      cases escaped : escapesAfter (fun _ => true) false (expr.take index) with
      | true =>
        have positive : index - 1 + 3 = index + 2 := by
          cases index with
          | zero => cases escaped
          | succ index => rfl
        have given := (ih searchingFor (buffer ++ expr.take (index + 2)) _ (shorter index)).behind
        rw [List.take_append_drop] at given
        simpa only [if_true, positive] using given
      | false =>
        refine ⟨_, (ih searchingFor.other [] _ (shorter index)).splits, ?_⟩
        cases searchingFor <;> rfl

theorem splitExpression_splits (nonempty : expr ≠ []) :
    Splits escapeCode openBracket expr (splitExpression expr) := by
  rw [splitExpression, if_neg nonempty]
  exact (splitFrom_given _ openBracket [] expr (Nat.lt_succ_self _)).splits

end ExpressionParser

def onCode (f : Text → Text) : ExpressionChunk → ExpressionChunk
  | .text text => .text text
  | .code text hasClosingBrackets => .code (f text) hasClosingBrackets

/-- Every escaped pair of closing brackets without its backslash. -/
def unescapeAll : Text → Text
  | '\\' :: '}' :: '}' :: rest => '}' :: '}' :: unescapeAll rest
  | [] => []
  | c :: rest => c :: unescapeAll rest

def escapedPairs : Text → Nat
  | '\\' :: '}' :: '}' :: rest => escapedPairs rest + 1
  | [] => 0
  | _ :: rest => escapedPairs rest

theorem unescapeAll_length (source : Text) :
    (unescapeAll source).length + escapedPairs source = source.length := by
  induction source using unescapeAll.induct with
  | case1 rest ih =>
    simp only [unescapeAll, escapedPairs, List.length_cons]
    omega
  | case2 => rfl
  | case3 c rest plain ih =>
    rw [unescapeAll.eq_3 c rest plain, escapedPairs.eq_3 c rest plain, List.length_cons, List.length_cons]
    omega

theorem unescapeAll_eq_self_iff (source : Text) : unescapeAll source = source ↔ escapedPairs source = 0 := by
  constructor
  · intro same
    have length := unescapeAll_length source
    rw [same] at length
    omega
  · induction source using unescapeAll.induct with
    | case1 rest ih => nofun
    | case2 => exact fun _ => rfl
    | case3 c rest plain ih =>
      rw [unescapeAll.eq_3 c rest plain, escapedPairs.eq_3 c rest plain]
      exact fun none => congrArg (c :: ·) (ih none)

theorem escapeCode_eq_unescapeAll_iff (source : Text) :
    escapeCode source = unescapeAll source ↔ escapedPairs source ≤ 1 := by
  induction source using unescapeAll.induct with
  | case1 rest ih =>
    rw [unescapeAll, escapedPairs, escapeCode]
    simp only [List.cons.injEq, true_and]
    rw [eq_comm, unescapeAll_eq_self_iff]
    omega
  | case2 => exact iff_of_true rfl (Nat.zero_le 1)
  | case3 c rest plain ih =>
    rw [unescapeAll.eq_3 c rest plain, escapedPairs.eq_3 c rest plain, escapeCode.eq_3 c rest plain, ← ih]
    exact ⟨fun same => (List.cons.inj same).2, congrArg (c :: ·)⟩

theorem Splits.onCode (h : Splits id searchingFor expr chunks) (f : Text → Text) :
    Splits f searchingFor expr (chunks.map (onCode f)) := by
  induction h with
  | done ends => exact .done ends
  | @last searchingFor expr ends =>
    cases searchingFor with
    | openBracket => exact .last ends
    | closeBracket => exact .last ends
  | @next searchingFor expr before rest chunks found onward ih =>
    cases searchingFor with
    | openBracket => exact .next found ih
    | closeBracket => exact .next found ih

theorem splits_total (unescape : Text → Text) (searchingFor : SearchingFor) (expr : Text) :
    ∃ chunks, Splits unescape searchingFor expr chunks := by
  induction size : expr.length using Nat.strongRecOn generalizing searchingFor expr with
  | ind size' ih =>
    cases there : read searchingFor false true expr with
    | nothing fresh =>
      cases fresh with
      | true => exact ⟨_, .done there⟩
      | false => exact ⟨_, .last there⟩
    | brackets before rest =>
      have whole := congrArg List.length (read_brackets there).1
      rw [List.length_append, List.length_append] at whole
      have two : searchingFor.brackets.length = 2 := rfl
      obtain ⟨chunks, onward⟩ := ih rest.length (by omega) searchingFor.other rest rfl
      exact ⟨_, .next there onward⟩

/-- In the text of every code chunk, each escaped pair of closing brackets is unescaped. -/
def Unescapes (expression : Text) : Prop :=
  ∃ sources, Splits id openBracket expression sources ∧
    ∀ (index : Nat) (source : Text) (hasClosingBrackets : Bool),
      sources[index]? = some (ExpressionChunk.code source hasClosingBrackets) →
        (ExpressionParser.splitExpression expression)[index]? =
          some (ExpressionChunk.code (unescapeAll source) hasClosingBrackets)

theorem unescapes_iff (expression : Text) : Unescapes expression ↔
    ∀ sources, Splits id openBracket expression sources →
      ∀ source hasClosingBrackets, ExpressionChunk.code source hasClosingBrackets ∈ sources →
        escapedPairs source ≤ 1 := by
  have given {sources : List ExpressionChunk} (h : Splits id openBracket expression sources) {index : Nat}
      {source : Text} {closed : Bool} (at_ : sources[index]? = some (ExpressionChunk.code source closed)) :
      (ExpressionParser.splitExpression expression)[index]? =
        some (ExpressionChunk.code (escapeCode source) closed) := by
    have nonempty : expression ≠ [] := by
      rintro rfl
      cases h.unique (.done rfl)
      cases at_
    rw [(ExpressionParser.splitExpression_splits nonempty).unique (h.onCode escapeCode), List.getElem?_map, at_]
    rfl
  constructor
  · rintro ⟨sources, h, unescaped⟩ sources' h' source closed member
    cases h.unique h'
    obtain ⟨index, at_⟩ := List.mem_iff_getElem?.1 member
    have same := (given h at_).symm.trans (unescaped index source closed at_)
    exact (escapeCode_eq_unescapeAll_iff source).1 (ExpressionChunk.code.inj (Option.some.inj same)).1
  · intro single
    obtain ⟨sources, h⟩ := splits_total id openBracket expression
    refine ⟨sources, h, fun index source closed at_ => ?_⟩
    have once := single sources h source closed (List.mem_of_getElem? at_)
    rw [given h at_, (escapeCode_eq_unescapeAll_iff source).2 once]

def rewritten (codes : Nat → Text) (chunks : List ExpressionChunk) : List ExpressionChunk :=
  chunks.mapIdx fun index chunk => match chunk with
    | .code _ true => .code (codes index) true
    | chunk => chunk

def Rejoins : List ExpressionChunk → Prop
  | [] => True
  | [.text text] => text ≠ [] ∧ ¬ openBracket.escapedBrackets <:+ text
  | .text _ :: chunks => Rejoins chunks
  | .code text true :: chunks => closable false (escapeTmplExpression text) ∧ Rejoins chunks
  | .code text false :: chunks => crowded text = false ∧ Rejoins chunks

def Returns : SearchingFor → List ExpressionChunk → Prop
  | openBracket, chunks => Splits escapeCode openBracket (joinExpression chunks) chunks
  | closeBracket, chunks => chunks = [] ∨
      ∃ text, joinExpression chunks = openBracket.brackets ++ text ∧ Splits escapeCode closeBracket text chunks

variable {first : ExpressionChunk} {more : List ExpressionChunk}

theorem splits_cons_iff :
    Splits unescape searchingFor expr (first :: more) ↔
      read searchingFor false true expr = .nothing false ∧ first = chunk unescape searchingFor expr false ∧ more = [] ∨
      ∃ before rest, read searchingFor false true expr = .brackets before rest ∧
        first = chunk unescape searchingFor before true ∧ Splits unescape searchingFor.other rest more := by
  constructor
  · intro h
    generalize same : first :: more = all at h
    cases h with
    | done => cases same
    | last ends =>
      injection same with head tail
      exact .inl ⟨ends, head, tail⟩
    | next found onward =>
      injection same with head tail
      exact .inr ⟨_, _, found, head, tail ▸ onward⟩
  · rintro (⟨ends, rfl, rfl⟩ | ⟨before, rest, found, rfl, onward⟩)
    · exact .last ends
    · exact .next found onward

@[simp] theorem joinExpression_cons (first : ExpressionChunk) (more : List ExpressionChunk) :
    joinExpression (first :: more) = joinChunk first ++ joinExpression more := by
  simp [joinExpression]

theorem splits_text_iff :
    Splits escapeCode openBracket text [.text text] ↔ read openBracket false true text = .nothing false := by
  rw [splits_cons_iff]
  constructor
  · rintro (⟨ends, -⟩ | ⟨before, rest, found, same, -⟩)
    · exact ends
    · cases same
      have length := congrArg List.length (read_brackets found).1
      simp [SearchingFor.brackets] at length
  · exact fun ends => .inl ⟨ends, rfl, rfl⟩

theorem returns_closing_cons :
    Returns closeBracket (first :: more) ↔ ∃ text, joinExpression (first :: more) = openBracket.brackets ++ text ∧
      Splits escapeCode closeBracket text (first :: more) :=
  or_iff_right (List.cons_ne_nil first more)

theorem splits_text_cons_iff {before rest : Text}
    (found : read openBracket false true expr = .brackets before rest) :
    Splits escapeCode openBracket (before ++ joinExpression (first :: more)) (.text before :: first :: more) ↔
      Returns closeBracket (first :: more) := by
  rw [splits_cons_iff, returns_closing_cons]
  constructor
  · rintro (⟨-, -, none⟩ | ⟨before', rest', found', same, onward⟩)
    · cases none
    · cases same
      have whole := (read_brackets found').1
      rw [List.append_assoc, List.append_cancel_left_eq] at whole
      exact ⟨rest', whole, onward⟩
  · rintro ⟨text, joined, onward⟩
    refine .inr ⟨before, text, ?_, rfl, onward⟩
    rw [joined, ← List.append_assoc]
    exact (read_brackets found).2 text

theorem returns_closed_iff (code : Text) (more : List ExpressionChunk) :
    Returns closeBracket (.code code true :: more) ↔
      closable false (escapeTmplExpression code) ∧ Returns openBracket more := by
  have joined : joinExpression (.code code true :: more) = openBracket.brackets ++
      (escapeTmplExpression code ++ closeBracket.brackets ++ joinExpression more) := by
    simp [joinChunk]
  rw [returns_closing_cons, joined]
  simp only [List.append_cancel_left_eq, exists_eq_left', splits_cons_iff]
  constructor
  · rintro (⟨-, same, -⟩ | ⟨before, rest, found, same, onward⟩)
    · exact absurd (ExpressionChunk.code.inj same).2.symm Bool.false_ne_true
    · obtain ⟨whole, -⟩ := read_brackets found
      have source := source_eq (by simpa only [List.append_assoc] using whole)
        (ExpressionChunk.code.inj same).1.symm
      rw [source, List.append_cancel_left_eq] at whole
      subst whole
      rw [source] at found
      exact ⟨(read_closing_iff false true _ _).1 found, onward⟩
  · rintro ⟨closes, onward⟩
    exact .inr ⟨_, _, (read_closing_iff false true _ _).2 closes,
      by rw [chunk, escapeCode_escapeTmplExpression], onward⟩

theorem returns_unclosed_iff {source : Text} (ends : read closeBracket false true source = .nothing false) :
    Returns closeBracket [.code (escapeCode source) false] ↔ crowded (escapeCode source) = false := by
  have joined : joinExpression [.code (escapeCode source) false] = openBracket.brackets ++
      escapeTmplExpression (escapeCode source) := by
    simp [joinChunk, joinExpression]
  rw [returns_closing_cons, joined, ← read_rejoined_iff ends]
  simp only [List.append_cancel_left_eq, exists_eq_left', splits_cons_iff]
  constructor
  · rintro (⟨ends', -⟩ | ⟨before, rest, -, same, -⟩)
    · exact ends'
    · exact absurd (ExpressionChunk.code.inj same).2 Bool.false_ne_true
  · intro ends'
    exact .inl ⟨ends', by rw [chunk, escapeCode_escapeTmplExpression], trivial⟩

theorem read_nothing_false_iff {fresh : Bool}
    (nothing : read openBracket false true text = .nothing fresh) :
    read openBracket false true text = .nothing false ↔ text ≠ [] ∧ ¬ openBracket.escapedBrackets <:+ text := by
  have ends := read_nothing_iff nothing
  rw [nothing, Reading.nothing.injEq, ← Bool.not_eq_true, ends]
  simp

theorem returns_rewritten_iff (h : Splits escapeCode searchingFor expr chunks) (codes : Nat → Text) :
    Returns searchingFor (rewritten codes chunks) ↔ Rejoins (rewritten codes chunks) := by
  induction h generalizing codes with
  | @done searchingFor expr ends =>
    cases searchingFor with
    | openBracket => exact iff_of_true (.done rfl) trivial
    | closeBracket => exact iff_of_true (.inl rfl) trivial
  | @last searchingFor expr ends =>
    cases searchingFor with
    | openBracket =>
      have joined : joinExpression [.text expr] = expr := by simp [joinExpression, joinChunk]
      have same : Returns openBracket [.text expr] ↔ Rejoins [.text expr] := by
        rw [Returns, joined, splits_text_iff, read_nothing_false_iff ends, Rejoins]
      exact same
    | closeBracket =>
      exact (returns_unclosed_iff ends).trans (and_iff_left trivial).symm
  | @next searchingFor expr before rest chunks found onward ih =>
    cases searchingFor with
    | openBracket =>
      have inner := ih fun index => codes (index + 1)
      have cons : rewritten codes (chunk escapeCode openBracket before true :: chunks) =
          .text before :: rewritten (fun index => codes (index + 1)) chunks := by
        rw [rewritten, List.mapIdx_cons]
        rfl
      rw [cons]
      cases behind : rewritten (fun index => codes (index + 1)) chunks with
      | nil =>
        obtain ⟨fresh, nothing⟩ := read_before found
        have joined : joinExpression [.text before] = before := by simp [joinExpression, joinChunk]
        rw [Returns, joined, splits_text_iff, read_nothing_false_iff nothing, Rejoins]
      | cons first more =>
        rw [behind] at inner
        exact (splits_text_cons_iff found).trans inner
    | closeBracket =>
      have cons : rewritten codes (chunk escapeCode closeBracket before true :: chunks) =
          .code (codes 0) true :: rewritten (fun index => codes (index + 1)) chunks := by
        rw [rewritten, List.mapIdx_cons]
        rfl
      rw [cons, returns_closed_iff, Rejoins]
      exact and_congr_right fun _ => ih _

theorem splitExpression_eq_iff :
    ExpressionParser.splitExpression text = chunks ↔
      text = [] ∧ chunks = [.text []] ∨ text ≠ [] ∧ Splits escapeCode openBracket text chunks := by
  by_cases empty : text = []
  · simp [empty, ExpressionParser.splitExpression, eq_comm]
  · have splits := ExpressionParser.splitExpression_splits empty
    simp only [empty, false_and, ne_eq, not_false_eq_true, true_and, false_or]
    constructor
    · rintro rfl
      exact splits
    · exact splits.unique

/-- The chunks, with new texts for the codes, come back, and the codes are unescaped. -/
theorem joinExpression_inverse_iff (expression : Text) (codes : Nat → Text) :
    ExpressionParser.splitExpression (joinExpression (rewritten codes (ExpressionParser.splitExpression expression))) =
        rewritten codes (ExpressionParser.splitExpression expression) ∧ Unescapes expression ↔
      (rewritten codes (ExpressionParser.splitExpression expression) = [.text []] ∨
        rewritten codes (ExpressionParser.splitExpression expression) ≠ [] ∧
          Rejoins (rewritten codes (ExpressionParser.splitExpression expression))) ∧
      ∀ sources, Splits id openBracket expression sources →
        ∀ source hasClosingBrackets, ExpressionChunk.code source hasClosingBrackets ∈ sources →
          escapedPairs source ≤ 1 := by
  rw [unescapes_iff]
  refine and_congr_left fun _ => ?_
  rw [splitExpression_eq_iff]
  by_cases empty : expression = []
  · subst empty
    exact iff_of_true (.inl ⟨rfl, rfl⟩) (.inl rfl)
  have splits := ExpressionParser.splitExpression_splits empty
  have returns := returns_rewritten_iff splits codes
  rw [Returns] at returns
  rw [returns]
  constructor
  · rintro (⟨-, same⟩ | ⟨joined, rejoins⟩)
    · exact .inl same
    · refine .inr ⟨fun none => joined ?_, rejoins⟩
      rw [none]
      rfl
  · rintro (same | ⟨some_, rejoins⟩)
    · refine .inl ⟨?_, same⟩
      rw [same]
      rfl
    · refine .inr ⟨fun joined => some_ ?_, rejoins⟩
      have again := returns.2 rejoins
      rw [joined] at again
      exact again.unique (.done rfl)

def twoClosings : Text := 'x' :: closeBracket.brackets ++ 'y' :: closeBracket.brackets ++ ['z']

/-- The second pair of closing brackets ends the code. -/
theorem twoClosings_not_returned :
    ¬ (ExpressionParser.splitExpression (joinExpression
        (rewritten (fun _ => twoClosings) (ExpressionParser.splitExpression "{{a}}".toList))) =
      rewritten (fun _ => twoClosings) (ExpressionParser.splitExpression "{{a}}".toList) ∧
    Unescapes "{{a}}".toList) := by
  rintro ⟨same, -⟩
  exact absurd same (by decide)

end NodeAutomation.ExpressionSplitter
