import NodeAutomation.Workflow.ReferencePieces

/-! The passes of a rename (`applyAccessPatterns`) over the pieces of the expression. The patterns replace
one after the other what they find of the old name, and the callback of `$node.` whatever reads like the
new name behind a character; where they find nothing else, the passes change the references only. -/

namespace NodeAutomation.AccessPatterns

inductive Divided (matcher : Text → Option (Nat × Text)) : Text → Text → Prop where
  | nil : Divided matcher [] []
  | skip (none : matcher (c :: text) = none) (h : Divided matcher text result) :
      Divided matcher (c :: text) (c :: result)
  | block (found : matcher (c :: block ++ text) = some (block.length + 1, new)) (h : Divided matcher text result) :
      Divided matcher (c :: block ++ text) (new ++ result)

section

variable {matcher : Text → Option (Nat × Text)} {text result : Text}

theorem replaceFrom_skip (matcher : Text → Option (Nat × Text)) (block text : Text) :
    replaceFrom matcher block.length (block ++ text) = replaceFrom matcher 0 text := by
  induction block with
  | nil => rfl
  | cons c block ih => exact ih

theorem Divided.replaceFrom_eq (h : Divided matcher text result) : replaceFrom matcher 0 text = result := by
  induction h with
  | nil => rfl
  | skip none h ih => rw [replaceFrom, none, ih]
  | @block c block text new result found h ih =>
    rw [List.cons_append, replaceFrom, ← List.cons_append, found]
    dsimp only
    rw [Nat.add_sub_cancel, replaceFrom_skip, ih]

theorem Divided.keep {front : Text} (quiet : ∀ back, back ≠ [] → back <:+ front → matcher (back ++ text) = none)
    (h : Divided matcher text result) : Divided matcher (front ++ text) (front ++ result) := by
  induction front with
  | nil => exact h
  | cons c front ih =>
    exact .skip (quiet (c :: front) (List.cons_ne_nil c front) List.suffix_rfl)
      (ih fun back some_ suffix => quiet back some_ (suffix.trans (List.suffix_cons c front)))

theorem divided_of_quiet (quiet : ∀ back, back ≠ [] → back <:+ text → matcher back = none) :
    Divided matcher text text := by
  have h := @Divided.keep matcher [] [] text (by simpa using quiet) .nil
  rwa [List.append_nil] at h

end

/-- A character, or a place where a pattern finds the old name, with the text that stands there now. -/
inductive Piece where
  | kept (c : Char)
  | reference (pattern : AccessPattern) (found : AccessMatch) (now : Text)

def Piece.before : Piece → Text
  | kept c => [c]
  | reference _ found _ => found.text

def Piece.now : Piece → Text
  | kept c => [c]
  | reference _ _ now => now

def before (pieces : List Piece) : Text := pieces.flatMap Piece.before

def after (pieces : List Piece) : Text := pieces.flatMap Piece.now

@[simp] theorem before_cons (piece : Piece) (pieces : List Piece) :
    before (piece :: pieces) = piece.before ++ before pieces := List.flatMap_cons ..

@[simp] theorem after_cons (piece : Piece) (pieces : List Piece) :
    after (piece :: pieces) = piece.now ++ after pieces := List.flatMap_cons ..

theorem before_append (pieces more : List Piece) : before (pieces ++ more) = before pieces ++ before more :=
  List.flatMap_append

theorem after_append (pieces more : List Piece) : after (pieces ++ more) = after pieces ++ after more :=
  List.flatMap_append

theorem before_kept (text : Text) : before (text.map .kept) = text := by
  induction text with
  | nil => rfl
  | cons c text ih => exact congrArg (c :: ·) ih

theorem after_kept (text : Text) : after (text.map .kept) = text := by
  induction text with
  | nil => rfl
  | cons c text ih => exact congrArg (c :: ·) ih

def findName (name text : Text) : Option (AccessPattern × AccessMatch) :=
  ACCESS_PATTERNS.findSome? fun pattern => (pattern.exec (namesOf name) text).map (pattern, ·)

def piecesFrom (name : Text) : (skip : Nat) → Text → List Piece
  | _, [] => []
  | skip + 1, _ :: text => piecesFrom name skip text
  | 0, c :: text => match findName name (c :: text) with
    | none => .kept c :: piecesFrom name 0 text
    | some (pattern, found) => .reference pattern found found.text :: piecesFrom name (found.text.length - 1) text

def piecesOf (name expression : Text) : List Piece := piecesFrom name 0 expression

inductive Scanned (name : Text) : List Piece → Prop where
  | nil : Scanned name []
  | kept (none : ∀ pattern ∈ ACCESS_PATTERNS, pattern.exec (namesOf name) (c :: before pieces) = none)
      (h : Scanned name pieces) : Scanned name (.kept c :: pieces)
  | reference (member : pattern ∈ ACCESS_PATTERNS)
      (there : pattern.exec (namesOf name) (found.text ++ before pieces) = some found) (h : Scanned name pieces) :
      Scanned name (.reference pattern found now :: pieces)

theorem piecesFrom_skip (name block text : Text) :
    piecesFrom name block.length (block ++ text) = piecesFrom name 0 text := by
  induction block with
  | nil => rfl
  | cons c block ih => exact ih

theorem piecesOf_spec (name expression : Text) : before (piecesOf name expression) = expression ∧
    after (piecesOf name expression) = expression ∧ Scanned name (piecesOf name expression) := by
  induction size : expression.length using Nat.strongRecOn generalizing expression with
  | ind size' ih =>
    subst size
    cases expression with
    | nil => exact ⟨rfl, rfl, .nil⟩
    | cons c text =>
      rw [piecesOf, piecesFrom]
      cases there : findName name (c :: text) with
      | none =>
        obtain ⟨first, second, scanned⟩ := ih text.length (Nat.lt_succ_self _) text rfl
        have none : ∀ pattern ∈ ACCESS_PATTERNS, pattern.exec (namesOf name) (c :: text) = none :=
          fun pattern member => Option.map_eq_none_iff.1 (List.findSome?_eq_none_iff.1 there pattern member)
        refine ⟨congrArg (c :: ·) first, congrArg (c :: ·) second, .kept ?_ scanned⟩
        rwa [show before (piecesFrom name 0 text) = text from first]
      | some entry =>
        obtain ⟨pattern, member, here⟩ := List.exists_of_findSome?_eq_some there
        obtain ⟨found, matched, rfl⟩ := Option.map_eq_some_iff.1 here
        obtain ⟨block, whole⟩ := exec_text_cons member matched
        have split := exec_text matched
        rw [whole, List.cons_append] at split
        obtain ⟨rfl, rfl⟩ := List.cons.inj split
        have onward : piecesFrom name (found.text.length - 1) (block ++ found.rest) = piecesOf name found.rest := by
          rw [whole, List.length_cons, Nat.add_sub_cancel]
          exact piecesFrom_skip name block found.rest
        dsimp only
        rw [onward]
        obtain ⟨first, second, scanned⟩ := ih found.rest.length
          (by rw [List.length_cons, List.length_append]; omega) found.rest rfl
        refine ⟨?_, ?_, .reference member ?_ scanned⟩
        · rw [before_cons, first, Piece.before, whole]
          rfl
        · rw [after_cons, second, Piece.now, whole]
          rfl
        · rw [first, whole]
          exact matched

def Piece.original : Piece → Piece
  | kept c => kept c
  | reference pattern found _ => reference pattern found found.text

theorem before_original (pieces : List Piece) : before (pieces.map Piece.original) = before pieces := by
  rw [before, List.flatMap_map]
  exact congrArg (List.flatMap · pieces) (funext fun piece => by cases piece <;> rfl)

theorem Scanned.original (h : Scanned name pieces) : Scanned name (pieces.map Piece.original) := by
  induction h with
  | nil => exact .nil
  | kept missing h ih => exact .kept (by rwa [before_original]) ih
  | reference member there h ih => exact .reference member (by rwa [before_original]) ih

theorem Scanned.of_original (h : Scanned name (pieces.map Piece.original)) : Scanned name pieces := by
  induction pieces with
  | nil => exact .nil
  | cons piece pieces ih =>
    cases piece with
    | kept c =>
      cases h with
      | kept missing h => exact .kept (by rwa [before_original] at missing) (ih h)
    | reference pattern found now =>
      cases h with
      | reference member there h => exact .reference member (by rwa [before_original] at there) (ih h)

theorem original_piecesFrom (name : Text) (skip : Nat) (text : Text) :
    (piecesFrom name skip text).map Piece.original = piecesFrom name skip text := by
  fun_induction piecesFrom name skip text with
  | case1 => rfl
  | case2 skip c text ih => exact ih
  | case3 c text missing ih => exact congrArg (_ :: ·) ih
  | case4 c text pattern found there ih => exact congrArg (_ :: ·) ih

theorem original_piecesOf (name expression : Text) :
    (piecesOf name expression).map Piece.original = piecesOf name expression := original_piecesFrom name 0 expression

theorem now_piecesOf {now : Text} (member : .reference pattern found now ∈ piecesOf name expression) :
    now = found.text := by
  rw [← original_piecesOf] at member
  obtain ⟨piece, -, same⟩ := List.mem_map.1 member
  cases piece with
  | kept c => cases same
  | reference pattern found now =>
    cases same
    rfl

section

variable {pattern : AccessPattern} {oldName newName : Text} {done : List AccessPattern} {pieces : List Piece}

def renamedText (newName : Text) (found : AccessMatch) : Text :=
  found.opening ++ prepareNewNodeName newName ++ found.closing

/-- What the callback makes of a renamed `$node.` reference. -/
def bracketedText (newName : Text) (found : AccessMatch) : Text :=
  ['$', 'n', 'o', 'd', 'e', '[', '"'] ++ prepareNewNodeName newName ++ (['"', ']'] ++ found.closing)

def Standing (done : List AccessPattern) (newName : Text) (pattern : AccessPattern) (found : AccessMatch)
    (now : Text) : Prop :=
  pattern ∉ done ∧ now = found.text ∨
    pattern ∈ done ∧ (now = renamedText newName found ∨ pattern = nodeDotPattern ∧ now = bracketedText newName found)

/-- At each reference stands what the passes so far have left there. -/
def AllStanding (done : List AccessPattern) (newName : Text) (pieces : List Piece) : Prop :=
  ∀ pattern found now, .reference pattern found now ∈ pieces → Standing done newName pattern found now

theorem AllStanding.tail {piece : Piece} (h : AllStanding done newName (piece :: pieces)) :
    AllStanding done newName pieces := fun pattern found now member =>
  h pattern found now (List.mem_cons_of_mem piece member)

theorem exec_member (h : pattern.exec (namesOf oldName) text = some found) :
    found.opening ∈ pattern.openings ∧ found.closing ∈ pattern.closings ∧ Writes oldName found.name :=
  have ⟨opened, writes, closed⟩ := exec_eq_some_iff.1 h
  ⟨(firstOf_eq_some opened).1, (firstOf_eq_some closed).1, writes⟩

theorem Standing.dollar {now : Text} (h : Standing done newName pattern found now) (member : pattern ∈ ACCESS_PATTERNS)
    (there : pattern.exec (namesOf oldName) text = some found) : ∃ rest, now = '$' :: rest := by
  obtain ⟨tail, opening⟩ := List.head?_eq_some_iff.1 (opening_tail pattern member _ (exec_member there).1).1
  rcases h with ⟨-, rfl⟩ | ⟨-, rfl | ⟨-, rfl⟩⟩
  · exact exec_text_cons member there
  · exact ⟨tail ++ prepareNewNodeName newName ++ found.closing, by rw [renamedText, opening]; rfl⟩
  · exact ⟨_, rfl⟩

theorem head?_before (scanned : Scanned oldName pieces) (standing : AllStanding done newName pieces)
    (dot : (after pieces).head? = some '.') : (before pieces).head? = some '.' := by
  cases scanned with
  | nil => exact dot
  | kept missing h => exact dot
  | @reference pattern pieces found now member there h =>
    obtain ⟨rest, rfl⟩ := (standing pattern found now List.mem_cons_self).dollar member there
    cases dot

theorem exec_after (member : pattern ∈ ACCESS_PATTERNS) (scanned : Scanned oldName pieces)
    (standing : AllStanding done newName pieces)
    (there : pattern.exec (namesOf oldName) (found.text ++ before pieces) = some found) :
    pattern.exec (namesOf oldName) (found.text ++ after pieces) = some { found with rest := after pieces } := by
  refine exec_change member there _ fun empty dot => ?_
  have isDot : pattern = nodeDotPattern := empty_closing pattern member (empty ▸ (exec_member there).2.1)
  subst isDot
  obtain ⟨tail, starts⟩ := List.head?_eq_some_iff.1 (head?_before scanned standing dot)
  have closed := (exec_eq_some_iff.1 there).2.2
  have behind : found.rest = before pieces := (List.append_cancel_left (exec_text there)).symm
  rw [empty, behind, starts] at closed
  cases closed

def passMatch (oldName newName : Text) (pattern : AccessPattern) (text : Text) : Option (Nat × Text) :=
  (pattern.exec (namesOf oldName) text).map fun found => (found.text.length, renamedText newName found)

def Piece.rename (newName : Text) (pattern : AccessPattern) : Piece → Piece
  | kept c => kept c
  | reference other found now => reference other found (if other = pattern then renamedText newName found else now)

theorem original_rename (newName : Text) (pattern : AccessPattern) (pieces : List Piece) :
    (pieces.map (Piece.rename newName pattern)).map Piece.original = pieces.map Piece.original := by
  rw [List.map_map]
  exact congrArg (List.map · pieces) (funext fun piece => by cases piece <;> rfl)

def Piece.isOf (pattern : AccessPattern) (piece : Piece) : Prop := ∃ found now, piece = reference pattern found now

/-- What the matcher finds in the text of the pieces it finds behind `front` of a piece of the kind. -/
def FindsOnly (matcher : Text → Option β) (front : Text) (kind : Piece → Prop) (pieces : List Piece) : Prop :=
  ∀ ahead piece behind start back, pieces = ahead ++ piece :: behind → piece.now = start ++ back → back ≠ [] →
    matcher (back ++ after behind) ≠ none → start = front ∧ kind piece

section

variable {matcher : Text → Option β} {front : Text} {kind : Piece → Prop} {piece : Piece}

theorem FindsOnly.tail (h : FindsOnly matcher front kind (piece :: pieces)) : FindsOnly matcher front kind pieces :=
  fun ahead other behind start back split => h (piece :: ahead) other behind start back (congrArg (piece :: ·) split)

theorem findsOnly_cons (h : FindsOnly matcher front kind pieces)
    (first : ∀ start back, piece.now = start ++ back → back ≠ [] → matcher (back ++ after pieces) ≠ none →
      start = front ∧ kind piece) : FindsOnly matcher front kind (piece :: pieces) := by
  intro ahead other behind start back split now some_ there
  cases ahead with
  | nil =>
    obtain ⟨rfl, rfl⟩ := List.cons.inj split
    exact first start back now some_ there
  | cons _ ahead => exact h ahead other behind start back (List.cons.inj split).2 now some_ there

theorem FindsOnly.quiet (h : FindsOnly matcher front kind (piece :: pieces)) (differs : ¬ kind piece) {back : Text}
    (some_ : back ≠ []) (suffix : back <:+ piece.now) : matcher (back ++ after pieces) = none := by
  obtain ⟨start, split⟩ := suffix
  by_contra there
  exact differs (h [] piece pieces start back rfl split.symm some_ there).2

theorem FindsOnly.quiet_kept {c : Char} (h : FindsOnly matcher front (Piece.isOf pattern) (.kept c :: pieces)) :
    matcher (c :: after pieces) = none := by
  have missing := h.quiet (fun ⟨_, _, same⟩ => nomatch same) (List.cons_ne_nil c []) List.suffix_rfl
  exact missing

end

theorem divided_rename (scanned : Scanned oldName pieces) (standing : AllStanding done newName pieces)
    (undone : pattern ∉ done) (only : FindsOnly (passMatch oldName newName pattern) [] (Piece.isOf pattern) pieces) :
    Divided (passMatch oldName newName pattern) (after pieces) (after (pieces.map (Piece.rename newName pattern))) := by
  induction scanned with
  | nil => exact .nil
  | @kept c pieces missing h ih =>
    refine .skip ?_ (ih standing.tail only.tail)
    exact only.quiet_kept
  | @reference other pieces found now member there h ih =>
    have onward := ih standing.tail only.tail
    rw [List.map_cons, after_cons, after_cons, Piece.rename, Piece.now, Piece.now]
    by_cases own : other = pattern
    · subst own
      rcases standing other found now List.mem_cons_self with ⟨-, rfl⟩ | ⟨inside, -⟩
      · have here := exec_after member h standing.tail there
        obtain ⟨block, whole⟩ := exec_text_cons member there
        have matched : passMatch oldName newName other (found.text ++ after pieces) =
            some (block.length + 1, renamedText newName found) := by
          rw [passMatch, here, Option.map_some, ← List.length_cons, ← whole]
          rfl
        rw [if_pos rfl]
        rw [whole] at matched ⊢
        exact .block matched onward
      · exact absurd inside undone
    · rw [if_neg own]
      refine onward.keep fun back some_ suffix => only.quiet ?_ some_ suffix
      rintro ⟨_, _, same⟩
      exact own (Piece.reference.inj same).1

theorem standing_rename (standing : AllStanding done newName pieces) :
    AllStanding (pattern :: done) newName (pieces.map (Piece.rename newName pattern)) := by
  intro other found now member
  obtain ⟨piece, inside, same⟩ := List.mem_map.1 member
  cases piece with
  | kept c => cases same
  | reference other' found' now' =>
    cases same
    have stood := standing _ _ _ inside
    by_cases own : other = pattern
    · rw [if_pos own, own]
      exact .inr ⟨List.mem_cons_self, .inl rfl⟩
    · rw [if_neg own]
      rcases stood with ⟨outside, now⟩ | ⟨inside, now⟩
      · exact .inl ⟨fun there => (List.mem_cons.1 there).elim own outside, now⟩
      · exact .inr ⟨List.mem_cons_of_mem _ inside, now⟩

theorem now_rename {now : Text} (member : .reference pattern found now ∈ pieces.map (Piece.rename newName pattern)) :
    now = renamedText newName found := by
  obtain ⟨piece, -, same⟩ := List.mem_map.1 member
  cases piece with
  | kept c => cases same
  | reference pattern found now =>
    cases same
    exact if_pos rfl

theorem scanned_rename (scanned : Scanned oldName pieces) :
    Scanned oldName (pieces.map (Piece.rename newName pattern)) := by
  refine Scanned.of_original ?_
  rw [original_rename]
  exact scanned.original

def callbackMatch (newName : Text) : Text → Option (Nat × Text)
  | [] => none
  | c :: text =>
    if c ∈ ['\n', '\r', '\u2028', '\u2029'] then none
    else ((startsWith? newName text).bind (firstOf [[' '], ['.']])).map fun (closing, _) =>
      (newName.length + 2, "[\"".toList ++ prepareNewNodeName newName ++ "\"]".toList ++ closing)

theorem nodeDotCallback_eq (expression newName : Text) : nodeDotCallback expression newName =
    if hasDotNotationBannedChar newName then replaceFrom (callbackMatch newName) 0 expression else expression := rfl

theorem prepareNewNodeName_eq {name : Text} {slashes : Nat} {back rest : Text}
    (same : List.replicate slashes '\\' ++ (prepareNewNodeName name ++ back) = name ++ rest)
    (plain : rest.head? ≠ some '\\') : slashes = 0 ∧ prepareNewNodeName name = name := by
  induction name generalizing slashes with
  | nil =>
    cases slashes with
    | zero => exact ⟨rfl, rfl⟩
    | succ slashes =>
      rw [List.nil_append] at same
      exact absurd (by rw [← same]; rfl) plain
  | cons c name ih =>
    have whole : prepareNewNodeName (c :: name) =
        (if c = '\\' ∨ c = '"' ∨ c = '\'' then ['\\', c] else [c]) ++ prepareNewNodeName name := List.flatMap_cons ..
    rw [whole, List.append_assoc] at same
    by_cases backslash : c = '\\'
    · subst backslash
      have slashed : '\\' :: (List.replicate (slashes + 1) '\\' ++ (prepareNewNodeName name ++ back)) =
          '\\' :: (name ++ rest) := by
        rw [if_pos (.inl rfl), ← List.append_assoc, show ['\\', '\\'] = List.replicate 2 '\\' from rfl,
          List.replicate_append_replicate] at same
        exact same
      exact absurd (ih (List.cons.inj slashed).2).1 (Nat.succ_ne_zero slashes)
    cases slashes with
    | succ slashes => exact absurd (List.cons.inj same).1.symm backslash
    | zero =>
      by_cases quote : c = '"' ∨ c = '\''
      · rw [if_pos (.inr quote)] at same
        exact absurd (List.cons.inj same).1.symm backslash
      · rw [if_neg (by simp [backslash, quote])] at same
        have onward : List.replicate 0 '\\' ++ (prepareNewNodeName name ++ back) = name ++ rest :=
          (List.cons.inj same).2
        refine ⟨rfl, ?_⟩
        rw [whole, if_neg (by simp [backslash, quote]), (ih onward).2]
        rfl

theorem callbackMatch_ne_none {c : Char} {text : Text} (there : callbackMatch newName (c :: text) ≠ none) :
    ∃ closing rest, (closing = ' ' ∨ closing = '.') ∧ text = newName ++ closing :: rest ∧
      callbackMatch newName (c :: text) = some (newName.length + 2,
        ['[', '"'] ++ prepareNewNodeName newName ++ ['"', ']'] ++ [closing]) := by
  rw [callbackMatch] at there ⊢
  split at there
  case isTrue => exact absurd rfl there
  case isFalse plain =>
    rw [if_neg plain]
    obtain ⟨found, same⟩ := Option.ne_none_iff_exists'.1 there
    obtain ⟨⟨closing, rest⟩, matched, -⟩ := Option.map_eq_some_iff.1 same
    obtain ⟨behind, starts, closes⟩ := Option.bind_eq_some_iff.1 matched
    obtain ⟨member, whole⟩ := firstOf_eq_some closes
    have split := startsWith?_eq_some_iff.1 starts
    rw [matched]
    rcases List.mem_cons.1 member with rfl | member
    · exact ⟨' ', rest, .inl rfl, by rw [split, whole]; rfl, rfl⟩
    · obtain rfl := List.mem_singleton.1 member
      exact ⟨'.', rest, .inr rfl, by rw [split, whole]; rfl, rfl⟩

def bracketed (newName : Text) : List Piece → List Piece
  | [] => []
  | .kept c :: pieces => .kept c :: bracketed newName pieces
  | .reference pattern found now :: pieces =>
    .reference pattern found
        (if pattern = nodeDotPattern ∧
            callbackMatch newName ('.' :: prepareNewNodeName newName ++ found.closing ++ after pieces) ≠ none then
          bracketedText newName found else now) :: bracketed newName pieces

theorem original_bracketed (newName : Text) (pieces : List Piece) :
    (bracketed newName pieces).map Piece.original = pieces.map Piece.original := by
  induction pieces with
  | nil => rfl
  | cons piece pieces ih => cases piece <;> exact congrArg (_ :: ·) ih

theorem standing_bracketed (standing : AllStanding done newName pieces) (inside : nodeDotPattern ∈ done) :
    AllStanding done newName (bracketed newName pieces) := by
  induction pieces with
  | nil => exact standing
  | cons piece pieces ih =>
    intro pattern found now member
    cases piece with
    | kept c =>
      rcases List.mem_cons.1 member with same | member
      · cases same
      · exact ih standing.tail pattern found now member
    | reference pattern' found' now' =>
      rcases List.mem_cons.1 member with same | member
      · cases same
        split
        case isTrue dot =>
          rw [dot.1]
          exact .inr ⟨inside, .inr ⟨rfl, rfl⟩⟩
        case isFalse => exact standing _ _ _ List.mem_cons_self
      · exact ih standing.tail pattern found now member

theorem Divided.of_cons {matcher : Text → Option (Nat × Text)} {c : Char} (h : Divided matcher (c :: text) result)
    (missing : matcher (c :: text) = none) : ∃ more, result = c :: more ∧ Divided matcher text more := by
  generalize same : c :: text = whole at h
  cases h with
  | nil => cases same
  | skip _ h =>
    obtain ⟨rfl, rfl⟩ := List.cons.inj same
    exact ⟨_, rfl, h⟩
  | block found h =>
    simp [← same, missing] at found

theorem callbackMatch_behind (scanned : Scanned oldName pieces) (standing : AllStanding done newName pieces)
    (only : FindsOnly (callbackMatch newName) front (Piece.isOf nodeDotPattern) pieces) {c : Char}
    (starts : after pieces = c :: text) (ordinary : c ≠ '$') : callbackMatch newName (c :: text) = none := by
  cases scanned with
  | nil => cases starts
  | kept missing h =>
    obtain ⟨rfl, rfl⟩ := List.cons.inj starts
    exact only.quiet_kept
  | @reference pattern pieces found now member there h =>
    obtain ⟨rest, rfl⟩ := (standing pattern found now List.mem_cons_self).dollar member there
    exact absurd (List.cons.inj starts).1.symm ordinary

theorem divided_dot {closing more : Text} (closings : closing = ['.'] ∨ closing = [])
    (onward : Divided (callbackMatch newName) text more)
    (called : callbackMatch newName ('.' :: (prepareNewNodeName newName ++ (closing ++ text))) ≠ none)
    (behind : ∀ c rest, text = c :: rest → c ≠ '$' → callbackMatch newName (c :: rest) = none) :
    Divided (callbackMatch newName) ('.' :: (prepareNewNodeName newName ++ (closing ++ text)))
      (['[', '"'] ++ prepareNewNodeName newName ++ ['"', ']'] ++ (closing ++ more)) := by
  obtain ⟨d, rest, isClosing, split, matched⟩ := callbackMatch_ne_none called
  have plain : (d :: rest).head? ≠ some '\\' := by rcases isClosing with rfl | rfl <;> nofun
  have prepared : prepareNewNodeName newName = newName :=
    (@prepareNewNodeName_eq newName 0 _ _ split plain).2
  rw [prepared] at split matched ⊢
  have length : newName.length + 2 = (newName ++ [d]).length + 1 := by rw [List.length_append, List.length_singleton]
  rw [length] at matched
  have onward' : ∃ more', closing ++ more = d :: more' ∧ Divided (callbackMatch newName) rest more' := by
    rcases closings with rfl | rfl
    · obtain ⟨rfl, rfl⟩ := List.cons.inj (List.append_cancel_left split)
      exact ⟨more, rfl, onward⟩
    · have starts : text = d :: rest := List.append_cancel_left split
      subst starts
      exact onward.of_cons (behind d rest rfl (by rcases isClosing with rfl | rfl <;> decide))
  obtain ⟨more', same, onward'⟩ := onward'
  rw [split, same] at *
  have whole : '.' :: (newName ++ d :: rest) = '.' :: (newName ++ [d]) ++ rest := by
    simp only [List.cons_append, List.append_assoc, List.nil_append]
  rw [whole] at matched ⊢
  have h := Divided.block matched onward'
  simpa only [List.append_assoc, List.cons_append, List.nil_append] using h

theorem quiet_before {matcher : Text → Option β} {kind : Piece → Prop} {now back dotted : Text}
    (only : FindsOnly matcher front kind (.reference pattern found now :: pieces)) (whole : now = front ++ dotted)
    (some_ : back ≠ []) (suffix : back <:+ front) : matcher (back ++ (dotted ++ after pieces)) = none := by
  obtain ⟨start, split⟩ := suffix
  by_contra there
  have here := only [] _ pieces start (back ++ dotted) rfl (by rw [Piece.now, whole, ← split, List.append_assoc])
    (List.append_ne_nil_of_left_ne_nil some_ dotted) (by rwa [List.append_assoc])
  rw [here.1] at split
  exact some_ (List.append_right_eq_self.1 split)

theorem divided_bracketed (scanned : Scanned oldName pieces) (standing : AllStanding done newName pieces)
    (renamed : ∀ found now, .reference nodeDotPattern found now ∈ pieces → now = renamedText newName found)
    (only : FindsOnly (callbackMatch newName) "$node".toList (Piece.isOf nodeDotPattern) pieces) :
    Divided (callbackMatch newName) (after pieces) (after (bracketed newName pieces)) := by
  induction scanned with
  | nil => exact .nil
  | @kept c pieces missing h ih =>
    refine .skip ?_ (ih standing.tail (fun found now inside => ?_) only.tail)
    · exact only.quiet_kept
    · exact renamed found now (List.mem_cons_of_mem _ inside)
  | @reference pattern pieces found now member there h ih =>
    have onward := ih standing.tail (fun found now inside => renamed found now (List.mem_cons_of_mem _ inside))
      only.tail
    rw [bracketed, after_cons, after_cons, Piece.now, Piece.now]
    by_cases own : pattern = nodeDotPattern
    · subst own
      obtain rfl := renamed found now List.mem_cons_self
      have opening : found.opening = "$node".toList ++ ['.'] := List.mem_singleton.1 (exec_member there).1
      have whole : renamedText newName found =
          "$node".toList ++ ('.' :: prepareNewNodeName newName ++ found.closing) := by
        rw [renamedText, opening]
        simp only [List.append_assoc, List.cons_append, List.nil_append]
      by_cases called :
          callbackMatch newName ('.' :: prepareNewNodeName newName ++ found.closing ++ after pieces) ≠ none
      · rw [if_pos ⟨rfl, called⟩, whole]
        have dotted := divided_dot (nodeDot_closing (exec_eq_some_iff.1 there).2.2) onward
          (by simpa only [List.cons_append, List.append_assoc] using called) fun c rest starts ordinary =>
            callbackMatch_behind h standing.tail only.tail starts ordinary
        rw [← List.append_assoc, ← List.cons_append, ← List.cons_append, ← List.append_assoc] at dotted
        have result := dotted.keep fun back some_ inDollar => quiet_before only whole some_ inDollar
        simp only [bracketedText, List.append_assoc] at result ⊢
        exact result
      · rw [if_neg fun both => called both.2]
        refine onward.keep fun back some_ ⟨start, split⟩ => ?_
        by_contra here
        obtain ⟨rfl, -⟩ := only [] _ pieces start back rfl split.symm some_ here
        rw [whole] at split
        rw [List.append_cancel_left split] at here
        exact called here
    · rw [if_neg fun both => own both.1]
      refine onward.keep fun back some_ suffix => only.quiet ?_ some_ suffix
      rintro ⟨_, _, same⟩
      exact own (Piece.reference.inj same).1

def Calls (newName : Text) (pattern : AccessPattern) (pieces : List Piece) : Prop :=
  pattern = nodeDotPattern ∧ hasDotNotationBannedChar newName = true ∧
    includes (after pieces) pattern.checkPattern = true

instance : Decidable (Calls newName pattern pieces) := instDecidableAnd

def passed (newName : Text) (pieces : List Piece) (pattern : AccessPattern) : List Piece :=
  let renamed := pieces.map (Piece.rename newName pattern)
  if Calls newName pattern pieces then bracketed newName renamed else renamed

/-- Each pattern finds the old name at its references only, and the callback the new name only
from the dot of a renamed `$node.` reference. -/
def Undisturbed (oldName newName : Text) : List AccessPattern → List Piece → Prop
  | [], _ => True
  | pattern :: patterns, pieces =>
    FindsOnly (pattern.exec (namesOf oldName)) [] (Piece.isOf pattern) pieces ∧
      (Calls newName pattern pieces →
        FindsOnly (callbackMatch newName) "$node".toList (Piece.isOf nodeDotPattern)
          (pieces.map (Piece.rename newName pattern))) ∧
      Undisturbed oldName newName patterns (passed newName pieces pattern)

theorem original_passed (newName : Text) (pieces : List Piece) (pattern : AccessPattern) :
    (passed newName pieces pattern).map Piece.original = pieces.map Piece.original := by
  rw [passed]
  split
  · rw [original_bracketed, original_rename]
  · exact original_rename newName pattern pieces

theorem scanned_passed (scanned : Scanned oldName pieces) : Scanned oldName (passed newName pieces pattern) := by
  refine Scanned.of_original ?_
  rw [original_passed]
  exact scanned.original

theorem standing_passed (standing : AllStanding done newName pieces) :
    AllStanding (pattern :: done) newName (passed newName pieces pattern) := by
  rw [passed]
  split
  case isTrue calls => exact standing_bracketed (standing_rename standing) (calls.1 ▸ List.mem_cons_self)
  case isFalse => exact standing_rename standing

theorem checkPattern_starts : ∀ pattern ∈ ACCESS_PATTERNS, ∀ opening ∈ pattern.openings,
    pattern.checkPattern <+: opening := by decide

theorem exec_of_not_includes (member : pattern ∈ ACCESS_PATTERNS) (missing : includes text pattern.checkPattern ≠ true)
    {back : Text} (suffix : back <:+ text) : pattern.exec (namesOf oldName) back = none := by
  by_contra there
  obtain ⟨found, matched⟩ := Option.ne_none_iff_exists'.1 there
  obtain ⟨more, opening⟩ := checkPattern_starts pattern member _ (exec_member matched).1
  have starts : startsWith? pattern.checkPattern back = some (more ++ (found.name ++ found.closing ++ found.rest)) := by
    rw [startsWith?_eq_some_iff, ← List.append_assoc, opening, exec_text matched, AccessMatch.text]
    simp only [List.append_assoc]
  refine missing (List.any_eq_true.2 ⟨back, (List.mem_tails back text).2 suffix, ?_⟩)
  rw [starts]
  rfl

theorem findsOnly_passMatch (only : FindsOnly (pattern.exec (namesOf oldName)) [] kind pieces) :
    FindsOnly (passMatch oldName newName pattern) [] kind pieces :=
  fun ahead piece behind start back split now some_ there =>
    only ahead piece behind start back split now some_ fun missing => there (by rw [passMatch, missing]; rfl)

theorem applyAccessPattern_after (member : pattern ∈ ACCESS_PATTERNS) (scanned : Scanned oldName pieces)
    (standing : AllStanding done newName pieces) (undone : pattern ∉ done)
    (only : FindsOnly (pattern.exec (namesOf oldName)) [] (Piece.isOf pattern) pieces)
    (called : Calls newName pattern pieces →
      FindsOnly (callbackMatch newName) "$node".toList (Piece.isOf nodeDotPattern)
        (pieces.map (Piece.rename newName pattern))) :
    applyAccessPattern oldName newName (after pieces) pattern = after (passed newName pieces pattern) := by
  have pass := divided_rename scanned standing undone (findsOnly_passMatch only)
  rw [applyAccessPattern, passed]
  by_cases checked : includes (after pieces) pattern.checkPattern = true
  · have renamed : replaceFrom (passMatch oldName newName pattern) 0 (after pieces) =
        after (pieces.map (Piece.rename newName pattern)) := pass.replaceFrom_eq
    rw [if_pos checked]
    change (if pattern = nodeDotPattern then
        nodeDotCallback (replaceFrom (passMatch oldName newName pattern) 0 (after pieces)) newName
      else replaceFrom (passMatch oldName newName pattern) 0 (after pieces)) = _
    rw [renamed, nodeDotCallback_eq]
    by_cases calls : Calls newName pattern pieces
    · obtain ⟨rfl, banned, -⟩ := id calls
      have bracket := divided_bracketed (scanned_rename scanned) (standing_rename standing)
        (fun found now => now_rename) (called calls)
      rw [if_pos calls, if_pos rfl, if_pos banned, bracket.replaceFrom_eq]
    · rw [if_neg calls]
      by_cases dot : pattern = nodeDotPattern
      · rw [if_pos dot, if_neg fun banned => calls ⟨dot, banned, checked⟩]
      · rw [if_neg dot]
  · rw [if_neg checked, if_neg fun calls => checked calls.2.2, ← pass.replaceFrom_eq]
    refine ((divided_of_quiet fun back some_ suffix => ?_).replaceFrom_eq).symm
    rw [passMatch, exec_of_not_includes member checked suffix]
    rfl

theorem foldl_applyAccessPattern (patterns : List AccessPattern) (members : patterns ⊆ ACCESS_PATTERNS)
    (undone : ∀ pattern ∈ patterns, pattern ∉ done) (distinct : patterns.Nodup) (scanned : Scanned oldName pieces)
    (standing : AllStanding done newName pieces) (undisturbed : Undisturbed oldName newName patterns pieces) :
    patterns.foldl (applyAccessPattern oldName newName) (after pieces) =
        after (patterns.foldl (passed newName) pieces) ∧
      (patterns.foldl (passed newName) pieces).map Piece.original = pieces.map Piece.original := by
  induction patterns generalizing pieces done with
  | nil => exact ⟨rfl, rfl⟩
  | cons pattern patterns ih =>
    obtain ⟨only, called, later⟩ := undisturbed
    have undone' : ∀ other ∈ patterns, other ∉ pattern :: done := fun other there inside =>
      (List.mem_cons.1 inside).elim (fun same => (List.nodup_cons.1 distinct).1 (same ▸ there))
        (undone other (List.mem_cons_of_mem _ there))
    obtain ⟨text, original⟩ := ih (fun other there => members (List.mem_cons_of_mem _ there)) undone'
      (List.nodup_cons.1 distinct).2 (scanned_passed scanned) (standing_passed standing) later
    rw [List.foldl_cons, List.foldl_cons, applyAccessPattern_after (members List.mem_cons_self) scanned standing
      (undone pattern List.mem_cons_self) only called]
    exact ⟨text, original.trans (original_passed newName pieces pattern)⟩

def renamedPieces (oldName newName expression : Text) : List Piece :=
  ACCESS_PATTERNS.foldl (passed newName) (piecesOf oldName expression)

theorem standing_piecesOf (name newName expression : Text) : AllStanding [] newName (piecesOf name expression) :=
  fun _ _ _ member => .inl ⟨List.not_mem_nil, now_piecesOf member⟩

theorem applyAccessPatterns_after {expression : Text}
    (undisturbed : Undisturbed oldName newName ACCESS_PATTERNS (piecesOf oldName expression)) :
    applyAccessPatterns expression oldName newName = after (renamedPieces oldName newName expression) ∧
      (renamedPieces oldName newName expression).map Piece.original = piecesOf oldName expression := by
  obtain ⟨-, same, scanned⟩ := piecesOf_spec oldName expression
  have standing := standing_piecesOf oldName newName expression
  obtain ⟨text, original⟩ := foldl_applyAccessPattern ACCESS_PATTERNS (fun _ => id)
    (fun _ _ => List.not_mem_nil) (by decide) scanned standing undisturbed
  rw [same] at text
  exact ⟨text, original.trans (original_piecesOf oldName expression)⟩

end

end NodeAutomation.AccessPatterns
