import NodeAutomation.Workflow.ExpressionSplitter

/-! Where the two splitters of an expression find the same regions. They part at
the first brackets they look for that have an even number of backslashes before
them, and from there on one of them has a chunk more, or a longer code. -/

namespace NodeAutomation.ExpressionSplitter
open AccessPatterns SearchingFor

/-- The scan of `n8n-workflow`. -/
abbrev scanEscaped : SearchingFor → (escaped fresh : Bool) → (buffer : Text) → Text →
    List (Option Text) := scan fun _ => true

/-- The scan of `@n8n/tournament`. -/
abbrev scanOdd : SearchingFor → (escaped fresh : Bool) → (buffer : Text) → Text →
    List (Option Text) := scan not

/-- Every `}}` has an odd number of backslashes before it, and the last one ends
the text. -/
def swallowed : (atEnd : Bool) → (backslashes : Nat) → Text → Bool
  | atEnd, _, [] => atEnd
  | _, backslashes, '}' :: '}' :: rest => backslashes % 2 = 1 && swallowed true 0 rest
  | _, backslashes, c :: rest => swallowed false (if c = '\\' then backslashes + 1 else 0) rest

/-- Brackets that are looked for have no backslash before them, or an odd number;
or the first others open a code in which nothing closes, up to an escaped `}}` that
ends the text. -/
def splitAlike : SearchingFor → (backslashes : Nat) → Text → Bool
  | _, _, [] => true
  | openBracket, backslashes, '{' :: '{' :: rest =>
    if backslashes = 0 then splitAlike closeBracket 0 rest
    else if backslashes % 2 = 1 then splitAlike openBracket 0 rest
    else swallowed false 0 rest
  | closeBracket, backslashes, '}' :: '}' :: rest =>
    if backslashes = 0 then splitAlike openBracket 0 rest
    else backslashes % 2 = 1 && splitAlike closeBracket 0 rest
  | searchingFor, backslashes, c :: rest =>
    splitAlike searchingFor (if c = '\\' then backslashes + 1 else 0) rest

variable {searchingFor : SearchingFor} {rest : Text}

section

variable (atEnd : Bool) (backslashes : Nat)

theorem swallowed_brackets (bracket : SearchingFor) :
    swallowed atEnd backslashes (bracket.brackets ++ rest) =
      if bracket = closeBracket then backslashes % 2 = 1 && swallowed true 0 rest
      else swallowed false 0 rest := by
  cases bracket with
  | openBracket =>
    have first : swallowed atEnd backslashes ('{' :: '{' :: rest) = swallowed false 0 ('{' :: rest) :=
      swallowed.eq_3 _ _ _ _ fun _ isClose => absurd isClose (by decide)
    have second : swallowed false 0 ('{' :: rest) = swallowed false 0 rest :=
      swallowed.eq_3 _ _ _ _ fun _ isClose => absurd isClose (by decide)
    exact first.trans second
  | closeBracket => exact swallowed.eq_2 ..

theorem swallowed_char {c : Char} (plain : NoBrackets c rest) :
    swallowed atEnd backslashes (c :: rest) =
      swallowed false (if c = '\\' then backslashes + 1 else 0) rest :=
  swallowed.eq_3 _ _ _ _ fun tail isClose same =>
    plain closeBracket tail (by rw [isClose, same]; rfl)

theorem splitAlike_searchedFor : splitAlike searchingFor backslashes (searchingFor.brackets ++ rest) =
    if backslashes = 0 then splitAlike searchingFor.other 0 rest
    else if backslashes % 2 = 1 then splitAlike searchingFor 0 rest
    else decide (searchingFor = openBracket) && swallowed false 0 rest := by
  cases searchingFor with
  | openBracket => exact splitAlike.eq_2 ..
  | closeBracket =>
    refine (splitAlike.eq_3 ..).trans ?_
    by_cases odd : backslashes % 2 = 1 <;> simp [odd, SearchingFor.other]

theorem splitAlike_other {bracket : SearchingFor} (differ : bracket ≠ searchingFor) :
    splitAlike searchingFor backslashes (bracket.brackets ++ rest) = splitAlike searchingFor 0 rest := by
  have passed (count : Nat) (tail : Text) :
      splitAlike searchingFor count (bracket.char :: tail) = splitAlike searchingFor 0 tail := by
    have noBackslash : bracket.char ≠ '\\' := by cases bracket <;> decide
    refine (splitAlike.eq_4 _ _ _ _ (fun _ searched isOpen _ => differ ?_)
      fun _ searched isClose _ => differ ?_).trans (by rw [if_neg noBackslash])
    all_goals rw [searched]; cases bracket <;> simp_all [SearchingFor.char]
  exact (passed _ _).trans (passed _ _)

theorem splitAlike_char {c : Char} (plain : NoBrackets c rest) :
    splitAlike searchingFor backslashes (c :: rest) =
      splitAlike searchingFor (if c = '\\' then backslashes + 1 else 0) rest :=
  splitAlike.eq_4 _ _ _ _
    (fun tail _ isOpen same => plain openBracket tail (by rw [isOpen, same]; rfl))
    (fun tail _ isClose same => plain closeBracket tail (by rw [isClose, same]; rfl))

end

variable {escaped odd fresh freshOdd : Bool} {buffer bufferOdd : Text} {backslashes : Nat}

theorem escapes_of_odd {c : Char} (here : escapes not odd c = true) : escapes (fun _ => true) escaped c = true := by
  rw [escapes] at here ⊢
  split at here
  case isTrue backslash => rw [if_pos backslash]
  case isFalse => cases here

theorem other_eq_iff {searched other : SearchingFor} (differ : searched ≠ other) :
    searched.other = other ∧ other.other = searched := by
  cases searched <;> cases other
  case openBracket.openBracket | closeBracket.closeBracket => exact absurd rfl differ
  all_goals exact ⟨rfl, rfl⟩

variable (text : Text)

/-- `@n8n/tournament` ends chunks at more brackets, so it falls behind by the last
chunk at most. -/
theorem length_scanEscaped_le (searched other : SearchingFor)
    (weaker : odd = true → escaped = true) :
    (scanEscaped searched escaped fresh buffer text).length ≤
      (scanOdd other odd freshOdd bufferOdd text).length + if searched = other then 1 else 2 := by
  induction text using bracket_induction
    generalizing searched other escaped odd fresh freshOdd buffer bufferOdd with
  | nil =>
    have one : (scanEscaped searched escaped fresh buffer []).length ≤ 1 := by
      rw [scanEscaped, scan_nil]
      split <;> simp
    split <;> omega
  | char c rest plain ih =>
    rw [scanEscaped, scanOdd, scan_char _ _ _ _ _ _ plain, scan_char _ _ _ _ _ _ plain]
    exact ih searched other escapes_of_odd
  | brackets bracket rest ih =>
    have passed (searched other : SearchingFor) (fresh freshOdd : Bool) (buffer bufferOdd : Text) :=
      @ih false false fresh freshOdd buffer bufferOdd searched other id
    rw [scanEscaped, scanOdd, scan_brackets, scan_brackets, onBrackets, onBrackets]
    by_cases same : searched = other
    · rw [if_pos same, ← same]
      have apart : searched ≠ searched.other := by cases searched <;> decide
      have here := passed searched searched
      have ahead := passed searched searched.other
      have both := passed searched.other searched.other
      rw [if_pos rfl] at here both
      rw [if_neg apart] at ahead
      split
      case isFalse => exact here ..
      case isTrue =>
        cases escaped with
        | true =>
          cases odd with
          | true => exact here ..
          | false => exact Nat.le_trans (ahead _ true _ []) (by simp)
        | false =>
          rw [Bool.eq_false_iff.2 fun isOdd => absurd (weaker isOdd) (by decide)]
          exact Nat.succ_le_succ (both ..)
    · rw [if_neg same]
      obtain ⟨toOther, toSearched⟩ := other_eq_iff same
      have here := passed searched other
      have caught := passed other other
      have ahead := passed searched searched
      rw [if_neg same] at here
      rw [if_pos rfl] at caught ahead
      split
      case isTrue found =>
        rw [if_neg fun isOther => same (found.symm.trans isOther), toOther]
        cases escaped with
        | true => exact here ..
        | false => exact Nat.succ_le_succ (caught ..)
      case isFalse =>
        split
        case isTrue =>
          rw [toSearched]
          cases odd with
          | true => exact here ..
          | false => exact Nat.le_trans (ahead _ true _ []) (by simp)
        case isFalse => exact here ..

/-- The rest is swallowed when the scan of `@n8n/tournament` gives no chunk for it. -/
theorem scanOdd_eq_nil_iff (parity : odd = decide (backslashes % 2 = 1)) :
    scanOdd closeBracket odd fresh buffer text = [] ↔ swallowed fresh backslashes text = true := by
  induction text using bracket_induction generalizing odd fresh buffer backslashes with
  | nil =>
    rw [scanOdd, scan_nil, swallowed]
    split <;> simp_all
  | char c rest plain ih =>
    rw [scanOdd, scan_char _ _ _ _ _ _ plain, swallowed_char _ _ plain]
    refine ih ?_
    rw [escapes, parity]
    split
    case isFalse => rfl
    case isTrue =>
      have alternate := Nat.mod_two_eq_zero_or_one backslashes
      cases alternate with
      | inl even => simp [even, Nat.add_mod]
      | inr isOdd => simp [isOdd, Nat.add_mod]
  | brackets bracket rest ih =>
    have passed (fresh : Bool) (buffer : Text) :
        scanOdd closeBracket false fresh buffer rest = [] ↔ swallowed fresh 0 rest = true := ih rfl
    rw [scanOdd, scan_brackets, swallowed_brackets, onBrackets]
    split
    case isFalse => exact passed ..
    case isTrue =>
      rw [← parity]
      cases odd with
      | true => simpa using passed ..
      | false => simp

theorem scanEscaped_eq_nil (weaker : odd = true → escaped = true)
    (fresher : freshOdd = true → fresh = true)
    (none : scanOdd closeBracket odd freshOdd bufferOdd text = []) :
    scanEscaped closeBracket escaped fresh buffer text = [] := by
  induction text using bracket_induction
    generalizing escaped odd fresh freshOdd buffer bufferOdd with
  | nil =>
    rw [scanOdd, scan_nil] at none
    split at none
    case isTrue ended => rw [scanEscaped, scan_nil, if_pos (fresher ended)]
    case isFalse => cases none
  | char c rest plain ih =>
    rw [scanOdd, scan_char _ _ _ _ _ _ plain] at none
    rw [scanEscaped, scan_char _ _ _ _ _ _ plain]
    exact ih escapes_of_odd id none
  | brackets bracket rest ih =>
    rw [scanOdd, scan_brackets, onBrackets] at none
    rw [scanEscaped, scan_brackets, onBrackets]
    split at none
    case isFalse differ => rw [if_neg differ]; exact ih id id none
    case isTrue found =>
      split at none
      case isTrue isOdd => rw [if_pos found, if_pos (weaker isOdd)]; exact ih id id none
      case isFalse => cases none

/-! Codes that cannot be the same

A code is told apart by its pairs `{{` without a backslash before them. -/

/-- A reading of a text: whether its last character is a backslash, whether it is
one `{` of its own and then whether that is escaped, and the pairs `{{` so far. -/
structure Mark where
  escaped : Bool
  pending : Option Bool
  pairs : Nat

def Mark.read (mark : Mark) (c : Char) : Mark :=
  if c = '{' then
    match mark.pending with
    | none => { mark with escaped := false, pending := some mark.escaped }
    | some true => { mark with escaped := false, pending := none }
    | some false => { escaped := false, pending := none, pairs := mark.pairs + 1 }
  else { mark with escaped := c = '\\', pending := none }

def marked (text : Text) : Mark := text.foldl Mark.read ⟨false, none, 0⟩

theorem foldl_read_escapeCode (mark : Mark) :
    (escapeCode text).foldl Mark.read mark = text.foldl Mark.read mark := by
  induction text using escapeCode.induct generalizing mark with
  | case1 rest => simp [escapeCode, Mark.read]
  | case2 => rfl
  | case3 c rest other ih =>
    rw [escapeCode.eq_3 _ _ other, List.foldl_cons, ih, List.foldl_cons]

theorem marked_escapeCode : marked (escapeCode text) = marked text :=
  foldl_read_escapeCode text _

/-- The buffer of a scan: brackets in front of the text are escaped when its last
character is a backslash, and do not continue a `{` of its own. -/
structure Buffered (buffer : Text) (escaped : Bool) (text : Text) : Prop where
  escaped_eq : (marked buffer).escaped = escaped
  pending_eq : (marked buffer).pending = none ∨ text.head? ≠ some '{'

theorem buffered_nil : Buffered [] false text := ⟨rfl, .inl rfl⟩

theorem Buffered.pending_none {text : Text} (reads : Buffered buffer escaped text)
    (isOpen : text.head? = some '{') : (marked buffer).pending = none := by
  cases reads.pending_eq with
  | inl alone => exact alone
  | inr other => exact absurd isOpen other

theorem Buffered.brackets {bracket : SearchingFor}
    (reads : Buffered buffer escaped (bracket.brackets ++ rest)) :
    Buffered (buffer ++ bracket.brackets) false rest ∧
      (marked (buffer ++ bracket.brackets)).pairs = (marked buffer).pairs +
        if bracket = openBracket ∧ escaped = false then 1 else 0 := by
  have read : marked (buffer ++ bracket.brackets) =
      ((marked buffer).read bracket.char).read bracket.char := by
    simp [marked, SearchingFor.brackets]
  cases bracket with
  | closeBracket =>
    have closed : marked (buffer ++ closeBracket.brackets) = ⟨false, none, (marked buffer).pairs⟩ := by
      rw [read]
      simp [Mark.read, SearchingFor.char]
    exact ⟨⟨by rw [closed], .inl (by rw [closed])⟩, by simp [closed]⟩
  | openBracket =>
    have alone := reads.pending_none rfl
    have opened : marked (buffer ++ openBracket.brackets) =
        ⟨false, none, (marked buffer).pairs + if escaped = false then 1 else 0⟩ := by
      rw [read, ← reads.escaped_eq]
      cases here : (marked buffer).escaped <;> simp [Mark.read, SearchingFor.char, alone, here]
    exact ⟨⟨by rw [opened], .inl (by rw [opened])⟩, by simp [opened]⟩

theorem Buffered.char {c : Char} (reads : Buffered buffer escaped (c :: rest))
    (plain : NoBrackets c rest) :
    Buffered (buffer ++ [c]) (escapes (fun _ => true) escaped c) rest ∧
      (marked (buffer ++ [c])).pairs = (marked buffer).pairs := by
  have read : marked (buffer ++ [c]) = (marked buffer).read c := by simp [marked]
  by_cases isOpen : c = '{'
  · have alone := reads.pending_none (by rw [isOpen]; rfl)
    have single : rest.head? ≠ some '{' := by
      intro second
      cases rest with
      | nil => cases second
      | cons d rest => exact plain openBracket rest (by rw [isOpen, Option.some.inj second]; rfl)
    have opened : marked (buffer ++ [c]) =
        ⟨false, some (marked buffer).escaped, (marked buffer).pairs⟩ := by
      rw [read]
      simp [Mark.read, isOpen, alone]
    exact ⟨⟨by rw [opened, isOpen]; rfl, .inr single⟩, by rw [opened]⟩
  · have went : marked (buffer ++ [c]) = ⟨c = '\\', none, (marked buffer).pairs⟩ := by
      rw [read]
      simp [Mark.read, isOpen]
    exact ⟨⟨by simp [went, escapes], .inl (by rw [went])⟩, by rw [went]⟩

/-- `@n8n/tournament` has closed a code with more pairs than the code
`n8n-workflow` is still reading: pairs it reads now open another code for the other. -/
theorem differ_of_closed {code : Text} (weaker : odd = true → escaped = true)
    (reads : Buffered buffer escaped text)
    (more : (marked buffer).pairs < (marked code).pairs) :
    scanEscaped closeBracket escaped fresh buffer text ≠
      some code :: scanOdd openBracket odd freshOdd bufferOdd text := by
  have notCode {tail tailOdd : List (Option Text)} {buffer : Text}
      (more : (marked buffer).pairs < (marked code).pairs) :
      closeBracket.region buffer :: tail ≠ some code :: tailOdd := by
    intro same
    have codes := Option.some.inj (List.cons.inj same).1
    rw [← codes, marked_escapeCode] at more
    exact Nat.lt_irrefl _ more
  induction text using bracket_induction
    generalizing escaped odd fresh freshOdd buffer bufferOdd with
  | nil =>
    rw [scanEscaped, scan_nil]
    split
    case isTrue => exact fun same => nomatch same
    case isFalse => exact notCode more
  | char c rest plain ih =>
    rw [scanEscaped, scanOdd, scan_char _ _ _ _ _ _ plain, scan_char _ _ _ _ _ _ plain]
    obtain ⟨kept, same⟩ := reads.char plain
    exact ih escapes_of_odd kept (by rwa [same])
  | brackets bracket rest ih =>
    obtain ⟨kept, count⟩ := reads.brackets
    rw [scanEscaped, scanOdd, scan_brackets, scan_brackets, onBrackets, onBrackets]
    cases bracket with
    | closeBracket =>
      rw [if_pos rfl, if_neg (show closeBracket ≠ openBracket by decide)]
      cases escaped with
      | true => exact ih id kept (by rwa [count])
      | false => exact notCode more
    | openBracket =>
      rw [if_neg (show openBracket ≠ closeBracket by decide), if_pos rfl]
      cases odd with
      | true =>
        rw [weaker rfl] at count
        exact ih id kept (by rwa [count])
      | false =>
        intro same
        have lengths := congrArg List.length same
        have bound := @length_scanEscaped_le false false false true (buffer ++ openBracket.brackets) []
          rest closeBracket closeBracket id
        simp only [Bool.false_eq_true, if_false, List.length_cons] at lengths
        rw [if_pos rfl] at bound
        have enough := Nat.succ_le_succ_iff.1 (Nat.le_trans (Nat.le_of_eq lengths.symm) bound)
        exact Nat.not_succ_le_self _ enough

/-- Both read a code, that of `@n8n/tournament` with more pairs: only codes that
neither ends are the same. -/
theorem scanOdd_eq_nil_of_eq (weaker : odd = true → escaped = true)
    (reads : Buffered buffer escaped text) (readsOdd : Buffered bufferOdd escaped text)
    (more : (marked buffer).pairs < (marked bufferOdd).pairs)
    (same : scanEscaped closeBracket escaped fresh buffer text =
      scanOdd closeBracket odd freshOdd bufferOdd text) :
    scanOdd closeBracket odd freshOdd bufferOdd text = [] := by
  have notCode {tail tailOdd : List (Option Text)} {buffer bufferOdd : Text}
      (more : (marked buffer).pairs < (marked bufferOdd).pairs)
      (same : closeBracket.region buffer :: tail = closeBracket.region bufferOdd :: tailOdd) :
      False := by
    have codes := congrArg marked (Option.some.inj (List.cons.inj same).1)
    rw [marked_escapeCode, marked_escapeCode] at codes
    rw [codes] at more
    exact Nat.lt_irrefl _ more
  induction text using bracket_induction
    generalizing escaped odd fresh freshOdd buffer bufferOdd with
  | nil =>
    rw [scanEscaped, scanOdd, scan_nil, scan_nil] at same
    rw [scanOdd, scan_nil]
    split
    case isTrue => rfl
    case isFalse unfinished =>
      rw [if_neg unfinished] at same
      split at same
      case isTrue => cases same
      case isFalse => exact (notCode more same).elim
  | char c rest plain ih =>
    rw [scanEscaped, scanOdd, scan_char _ _ _ _ _ _ plain, scan_char _ _ _ _ _ _ plain] at same
    rw [scanOdd, scan_char _ _ _ _ _ _ plain]
    obtain ⟨kept, count⟩ := reads.char plain
    obtain ⟨keptOdd, countOdd⟩ := readsOdd.char plain
    exact ih escapes_of_odd kept keptOdd (by rwa [count, countOdd]) same
  | brackets bracket rest ih =>
    obtain ⟨kept, count⟩ := reads.brackets
    obtain ⟨keptOdd, countOdd⟩ := readsOdd.brackets
    have stillMore : (marked (buffer ++ bracket.brackets)).pairs <
        (marked (bufferOdd ++ bracket.brackets)).pairs := by omega
    rw [scanEscaped, scanOdd, scan_brackets, scan_brackets, onBrackets, onBrackets] at same
    rw [scanOdd, scan_brackets, onBrackets]
    split
    case isFalse other =>
      rw [if_neg other, if_neg other] at same
      exact ih id kept keptOdd stillMore same
    case isTrue closes =>
      rw [if_pos closes, if_pos closes] at same
      cases odd with
      | true =>
        rw [weaker rfl] at same
        exact ih id kept keptOdd stillMore same
      | false =>
        cases escaped with
        | false => exact (notCode more same).elim
        | true =>
          have fewer : (marked (buffer ++ bracket.brackets)).pairs < (marked (escapeCode bufferOdd)).pairs := by
            rw [marked_escapeCode, count, if_neg fun opens => absurd opens.2 (by decide)]
            exact more
          exact absurd same (differ_of_closed rest id kept fewer)

theorem length_le_escapeCode (code : Text) : code.length ≤ (escapeCode code).length + 1 := by
  induction code using escapeCode.induct with
  | case1 rest => simp [escapeCode]
  | case2 => simp
  | case3 c rest other ih =>
    rw [escapeCode.eq_3 _ _ other]
    exact Nat.succ_le_succ ih

theorem escapeCode_length_le (code : Text) : (escapeCode code).length ≤ code.length := by
  induction code using escapeCode.induct with
  | case1 rest => simp [escapeCode]
  | case2 => simp [escapeCode]
  | case3 c rest other ih =>
    rw [escapeCode.eq_3 _ _ other]
    exact Nat.succ_le_succ ih

/-- A code that is being read gets no shorter, but for the backslash taken out in the end. -/
theorem buffer_length_le {code : Text} {tail : List (Option Text)}
    (gives : scanEscaped closeBracket escaped fresh buffer text = some code :: tail) :
    buffer.length ≤ code.length + 1 := by
  have ended {tailHere : List (Option Text)} {buffer : Text}
      (gives : closeBracket.region buffer :: tailHere = some code :: tail) :
      buffer.length ≤ code.length + 1 := by
    rw [← Option.some.inj (List.cons.inj gives).1]
    exact length_le_escapeCode buffer
  induction text using bracket_induction generalizing escaped fresh buffer with
  | nil =>
    rw [scanEscaped, scan_nil] at gives
    split at gives
    case isTrue => cases gives
    case isFalse => exact ended gives
  | char c rest plain ih =>
    rw [scanEscaped, scan_char _ _ _ _ _ _ plain] at gives
    have bound := ih gives
    rw [List.length_append] at bound
    omega
  | brackets bracket rest ih =>
    rw [scanEscaped, scan_brackets, onBrackets] at gives
    split at gives
    case isTrue =>
      split at gives
      case isTrue =>
        have bound := ih gives
        rw [List.length_append] at bound
        omega
      case isFalse => exact ended gives
    case isFalse =>
      have bound := ih gives
      rw [List.length_append] at bound
      omega

/-- `@n8n/tournament` has opened a code where `n8n-workflow` reads on in the text:
they find the same only if that code is swallowed. -/
theorem behind_iff (weaker : odd = true → escaped = true)
    (readsOdd : Buffered bufferOdd escaped text) (notBoth : freshOdd = true → fresh = false) :
    scanEscaped openBracket escaped fresh buffer text =
        none :: scanOdd closeBracket odd freshOdd bufferOdd text ↔
      scanOdd closeBracket odd freshOdd bufferOdd text = [] := by
  induction text using bracket_induction
    generalizing escaped odd fresh freshOdd buffer bufferOdd with
  | nil =>
    rw [scanEscaped, scanOdd, scan_nil, scan_nil]
    cases freshOdd with
    | true => simp [notBoth rfl, SearchingFor.region]
    | false => cases fresh <;> simp
  | char c rest plain ih =>
    rw [scanEscaped, scanOdd, scan_char _ _ _ _ _ _ plain, scan_char _ _ _ _ _ _ plain]
    exact ih escapes_of_odd (readsOdd.char plain).1 fun isFresh => absurd isFresh Bool.false_ne_true
  | brackets bracket rest ih =>
    obtain ⟨keptOdd, countOdd⟩ := readsOdd.brackets
    rw [scanEscaped, scanOdd, scan_brackets, scan_brackets, onBrackets, onBrackets]
    cases bracket with
    | closeBracket =>
      rw [if_neg (show closeBracket ≠ openBracket by decide), if_pos rfl]
      cases odd with
      | true => exact ih id keptOdd fun _ => rfl
      | false =>
        refine ⟨fun same => ?_, fun none => absurd none (List.cons_ne_nil _ _)⟩
        have lengths := congrArg List.length same
        simp only [Bool.false_eq_true, if_false, List.length_cons] at lengths
        have bound := @length_scanEscaped_le false false false true (buffer ++ closeBracket.brackets) []
          rest openBracket openBracket id
        rw [if_pos rfl] at bound
        have enough := Nat.succ_le_succ_iff.1 (Nat.le_trans (Nat.le_of_eq lengths.symm) bound)
        exact (Nat.not_succ_le_self _ enough).elim
    | openBracket =>
      rw [if_pos rfl, if_neg (show openBracket ≠ closeBracket by decide)]
      cases escaped with
      | true => exact ih id keptOdd fun isFresh => absurd isFresh Bool.false_ne_true
      | false =>
        have more : (marked []).pairs < (marked (bufferOdd ++ openBracket.brackets)).pairs := by
          rw [countOdd, if_pos ⟨rfl, rfl⟩]
          exact Nat.succ_pos _
        refine ⟨fun same => ?_, fun none => ?_⟩
        · exact scanOdd_eq_nil_of_eq rest id (buffered_nil rest) keptOdd more (List.cons.inj same).2
        · have nothing : scanEscaped closeBracket false true [] rest = [] :=
            scanEscaped_eq_nil rest id (fun _ => rfl) none
          rw [none, if_neg (by decide)]
          exact congrArg _ nothing

theorem scan_fresh {onBackslash : Bool → Bool} {text : Text} (nonempty : text ≠ []) (fresh' : Bool) :
    scan onBackslash searchingFor escaped fresh buffer text =
      scan onBackslash searchingFor escaped fresh' buffer text := by
  have same := scan_exec onBackslash searchingFor text escaped
  rw [same fresh buffer fun empty => absurd empty nonempty,
    same fresh' buffer fun empty => absurd empty nonempty]

theorem odd_succ (count : Nat) : (!decide (count % 2 = 1)) = decide ((count + 1) % 2 = 1) := by
  cases Nat.mod_two_eq_zero_or_one count with
  | inl even => simp [even, Nat.add_mod]
  | inr isOdd => simp [isOdd, Nat.add_mod]

theorem opened_iff :
    scanEscaped openBracket false true (buffer ++ openBracket.brackets) rest =
        none :: scanOdd closeBracket false true [] rest ↔ swallowed false 0 rest = true := by
  by_cases empty : rest = []
  · rw [empty, scanEscaped, scan_nil]
    simp [swallowed]
  · rw [scanOdd, scan_fresh empty false]
    have behind := @behind_iff false false true false (buffer ++ openBracket.brackets) [] rest id
      (buffered_nil rest) fun isFresh => absurd isFresh Bool.false_ne_true
    rw [behind]
    exact scanOdd_eq_nil_iff rest rfl

theorem closed_ne : scanEscaped closeBracket false true (buffer ++ closeBracket.brackets) rest ≠
    some (escapeCode buffer) :: scanOdd openBracket false true [] rest := by
  intro same
  have bound := buffer_length_le rest same
  have same := escapeCode_length_le buffer
  rw [List.length_append] at bound
  have two : closeBracket.brackets.length = 2 := rfl
  omega

/-- Both read on from the same brackets, in the same way. -/
theorem scans_eq_iff (some_iff : escaped = decide (backslashes ≠ 0))
    (parity : odd = decide (backslashes % 2 = 1)) :
    scanEscaped searchingFor escaped fresh buffer text = scanOdd searchingFor odd fresh buffer text ↔
      splitAlike searchingFor backslashes text = true := by
  induction text using bracket_induction
    generalizing searchingFor escaped odd fresh buffer backslashes with
  | nil =>
    rw [scanEscaped, scanOdd, scan_nil, scan_nil]
    simp [splitAlike]
  | char c rest plain ih =>
    rw [scanEscaped, scanOdd, scan_char _ _ _ _ _ _ plain, scan_char _ _ _ _ _ _ plain,
      splitAlike_char _ plain]
    refine ih ?_ ?_
    · by_cases backslash : c = '\\' <;> simp [escapes, backslash]
    · rw [escapes, parity, odd_succ]
      split <;> rfl
  | brackets bracket rest ih =>
    have passed (searchingFor : SearchingFor) (fresh : Bool) (buffer : Text) :
        scanEscaped searchingFor false fresh buffer rest = scanOdd searchingFor false fresh buffer rest ↔
          splitAlike searchingFor 0 rest = true := ih rfl rfl
    rw [scanEscaped, scanOdd, scan_brackets, scan_brackets, onBrackets, onBrackets]
    by_cases searched : bracket = searchingFor
    · rw [if_pos searched, if_pos searched, searched, splitAlike_searchedFor]
      by_cases zero : backslashes = 0
      · rw [some_iff, parity, zero, if_pos rfl]
        simpa using passed searchingFor.other true []
      · rw [some_iff, parity, if_neg zero, decide_eq_true zero, if_pos rfl]
        by_cases isOdd : backslashes % 2 = 1
        · rw [decide_eq_true isOdd, if_pos rfl, if_pos isOdd]
          exact passed ..
        · rw [decide_eq_false isOdd, if_neg (by decide), if_neg isOdd]
          cases searchingFor with
          | openBracket => exact opened_iff
          | closeBracket => exact ⟨fun same => absurd same closed_ne, fun never => absurd never Bool.false_ne_true⟩
    · rw [if_neg searched, if_neg searched, splitAlike_other _ searched]
      exact passed ..

/-- The splitters find the same regions exactly where no brackets they look for have
an even number of backslashes before them, but for a code that is swallowed. -/
theorem splitExpression_regions_iff (expression : Text) :
    (ExpressionParser.splitExpression expression).map ExpressionChunk.region =
        (Tournament.splitExpression expression).map ExpressionChunk.region ↔
      splitAlike openBracket 0 expression = true := by
  rw [ExpressionParser.splitExpression, Tournament.splitExpression]
  by_cases empty : expression = []
  · rw [if_pos empty, if_pos empty, empty]
    simp [splitAlike]
  · rw [if_neg empty, if_neg empty,
      ExpressionParser.splitFrom_region _ _ _ _ (Nat.lt_succ_self _),
      Tournament.splitFrom_region _ _ _ _ (Nat.lt_succ_self _)]
    exact scans_eq_iff expression rfl rfl

/-- Behind two backslashes `@n8n/tournament` runs the code that `n8n-workflow` takes for text. -/
theorem code_behind_two_backslashes :
    (ExpressionParser.splitExpression "\\\\{{ $json.a }}".toList).map ExpressionChunk.region ≠
      (Tournament.splitExpression "\\\\{{ $json.a }}".toList).map ExpressionChunk.region := by
  decide

end NodeAutomation.ExpressionSplitter
