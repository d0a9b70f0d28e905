import NodeAutomation.Workflow.ClearNames
import NodeAutomation.Workflow.ExtractReferences

/-! Which references a rename touches. A text is a reference to a node when one of the access patterns
finds the name there and what it finds is that name and no more: between two quotes of one kind, or behind
`$node.` up to the end of the identifier. The patterns themselves look at neither. -/

namespace NodeAutomation.AccessPatterns
open ExtractReferences (isSpace)

def isNameChar (c : Char) : Bool :=
  c.isAlphanum || c = '_' || c = '$' || (128 ≤ c.toNat && !isSpace c)

def isIdentifier (name : Text) : Bool :=
  match name with
  | [] => false
  | c :: _ => !c.isDigit && name.all isNameChar

def hasBare (quote : Char) : Text → Bool
  | '\\' :: _ :: text => hasBare quote text
  | c :: text => c == quote || hasBare quote text
  | [] => false

def AccessMatch.here (found : AccessMatch) : Text := found.text ++ found.rest

structure IsReference (name : Text) (pattern : AccessPattern) (found : AccessMatch) : Prop where
  member : pattern ∈ ACCESS_PATTERNS
  there : pattern.exec (namesOf name) found.here = some found
  identifier : pattern = nodeDotPattern →
    isIdentifier name = true ∧ (found.closing = [] → found.rest.head?.any isNameChar = false)
  quoted : pattern ≠ nodeDotPattern →
    ∃ quote, found.opening.getLast? = some quote ∧ found.closing.head? = some quote ∧ hasBare quote found.name = false

/-- The match begins where no identifier goes on. -/
def Standalone (expression : Text) (found : AccessMatch) : Prop :=
  ∀ front, expression = front ++ found.here → front.getLast?.any isNameChar = false

structure TouchesReferences (name : Text) (pieces : List Piece) : Prop where
  own : ∀ ahead pattern found now behind, pieces = ahead ++ .reference pattern found now :: behind →
    IsReference name pattern found ∧ Standalone (before pieces) found ∧ found.rest = before behind
  others : ∀ other, other ≠ name → ∀ pattern found, IsReference other pattern found → found.here <:+ before pieces →
    ∃ ahead behind, pieces = ahead ++ found.text.map .kept ++ behind ∧ before behind = found.rest

def TouchesOnly (name expression result : Text) : Prop :=
  ∃ pieces, before pieces = expression ∧ after pieces = result ∧ TouchesReferences name pieces

/-- What the patterns find of the old name are references to the node, each of which stands apart from the
references to others, and the passes find nothing else. -/
structure FindsReferences (oldName newName expression : Text) : Prop where
  references : ∀ pattern found now, .reference pattern found now ∈ piecesOf oldName expression →
    IsReference oldName pattern found ∧ Standalone expression found
  apart : ∀ pattern found now, .reference pattern found now ∈ piecesOf oldName expression →
    ∀ other, other ≠ oldName → ∀ pattern' found', IsReference other pattern' found' → found'.here <:+ expression →
      found'.here <:+ found.rest ∨ found.here <:+ found'.rest
  undisturbed : Undisturbed oldName newName ACCESS_PATTERNS (piecesOf oldName expression)

section

variable {name other : Text} {pattern pattern' : AccessPattern} {found found' : AccessMatch}

theorem hasBare_cons {quote c : Char} (plain : c ≠ '\\') (text : Text) :
    hasBare quote (c :: text) = (c == quote || hasBare quote text) := by
  rw [hasBare]
  rintro d more same -
  exact plain same

theorem WritesChar.unique {c d : Char} {writing writing' more more' : Text} (h : WritesChar c writing)
    (h' : WritesChar d writing') (same : writing ++ more = writing' ++ more') : c = d ∧ more = more' := by
  rcases h.forms with ⟨rfl, rfl⟩ | ⟨quote, rfl⟩ | ⟨plain, rfl⟩ <;>
    rcases h'.forms with ⟨rfl, rfl⟩ | ⟨quote', rfl⟩ | ⟨plain', rfl⟩ <;>
    simp only [List.cons_append, List.nil_append, List.cons.injEq, true_and] at same
  · exact ⟨rfl, same⟩
  · exact absurd same.1 (by rcases quote' with rfl | rfl <;> decide)
  · exact absurd same.1.symm plain'
  · exact absurd same.1 (by rcases quote with rfl | rfl <;> decide)
  · exact same
  · exact absurd same.1.symm plain'
  · exact absurd same.1 plain
  · exact absurd same.1 plain
  · exact same

theorem hasBare_behind {quote c : Char} {writing more : Text} (h : WritesChar c writing)
    (closed : hasBare quote (writing ++ more) = false) : hasBare quote more = false := by
  rcases h.forms with ⟨rfl, rfl⟩ | ⟨-, rfl⟩ | ⟨plain, rfl⟩
  · exact closed
  · exact closed
  · rw [List.singleton_append, hasBare_cons plain, Bool.or_eq_false_iff] at closed
    exact closed.2

theorem hasBare_of_ends {quote c : Char} (special : quote ≠ '\\') {writing more rest : Text} (h : WritesChar c writing)
    (same : quote :: rest = writing ++ more) (closed : hasBare quote (writing ++ more') = false) : False := by
  rcases h.forms with ⟨rfl, rfl⟩ | ⟨-, rfl⟩ | ⟨plain, rfl⟩
  · exact special (List.cons.inj same).1
  · exact special (List.cons.inj same).1
  · rw [List.singleton_append, hasBare_cons plain, ← (List.cons.inj same).1] at closed
    simp at closed

theorem Writes.unique {quote : Char} (special : quote ≠ '\\') {writing writing' rest rest' : Text}
    (h : Writes name writing) (h' : Writes other writing') (closed : hasBare quote writing = false)
    (closed' : hasBare quote writing' = false) (same : writing ++ quote :: rest = writing' ++ quote :: rest') :
    name = other := by
  induction h generalizing other writing' with
  | nil =>
    cases h' with
    | nil => rfl
    | cons first h' =>
      rw [List.nil_append, List.append_assoc] at same
      exact (hasBare_of_ends special first same closed').elim
  | @cons c writing name more first h ih =>
    rw [List.append_assoc] at same
    cases h' with
    | nil => exact (hasBare_of_ends special first same.symm closed).elim
    | cons first' h' =>
      rw [List.append_assoc] at same
      obtain ⟨rfl, onward⟩ := first.unique first' same
      rw [ih h' (hasBare_behind first closed) (hasBare_behind first' closed') onward]

theorem Writes.eq_of_plain {writing : Text} (h : Writes name writing) (plain : ∀ c ∈ name, isSpecial c = false) :
    writing = name := by
  induction h with
  | nil => rfl
  | @cons c writing name more first h ih =>
    rw [ih fun d member => plain d (List.mem_cons_of_mem c member)]
    rcases first.cases with ⟨-, rfl⟩ | ⟨special, -⟩
    · rfl
    · simp [plain c List.mem_cons_self] at special

theorem isIdentifier_chars (h : isIdentifier name = true) : ∀ c ∈ name, isNameChar c = true := by
  cases name with
  | nil => nofun
  | cons c name => exact List.all_eq_true.1 (Bool.and_eq_true_iff.1 h).2

theorem takeWhile_identifier (h : isIdentifier name = true) {rest : Text} (ends : rest.head?.any isNameChar = false) :
    (name ++ rest).takeWhile isNameChar = name := by
  rw [List.takeWhile_append_of_pos (isIdentifier_chars h)]
  cases rest with
  | nil => exact List.append_nil name
  | cons c rest =>
    rw [List.takeWhile_cons_of_neg (by rw [show isNameChar c = false from ends]; exact Bool.false_ne_true)]
    exact List.append_nil name

theorem isSpecial_of_isNameChar {c : Char} (h : isNameChar c = true) : isSpecial c = false := by
  have plain : ['\\', '"', '\''].all (!isNameChar ·) = true := by decide
  by_contra special
  rw [Bool.not_eq_false, isSpecial, Bool.or_eq_true, Bool.or_eq_true] at special
  have member : c ∈ ['\\', '"', '\''] := by simpa [or_assoc] using special
  have outside := List.all_eq_true.1 plain c member
  simp [h] at outside

theorem IsReference.identifier_ends (h : IsReference name nodeDotPattern found) :
    found.name = name ∧ (found.closing ++ found.rest).head?.any isNameChar = false := by
  obtain ⟨isName, ends⟩ := h.identifier rfl
  have writes := (exec_member h.there).2.2
  refine ⟨writes.eq_of_plain fun c member => isSpecial_of_isNameChar (isIdentifier_chars isName c member), ?_⟩
  rcases nodeDot_closing (exec_eq_some_iff.1 h.there).2.2 with dot | empty
  · rw [dot]
    exact (by decide : isNameChar '.' = false)
  · rw [empty]
    exact ends empty

theorem closing_head : ∀ pattern ∈ ACCESS_PATTERNS, ∀ closing ∈ pattern.closings, closing.head? ≠ some '\\' := by decide

theorem IsReference.name_unique (h : IsReference name pattern found) (h' : IsReference other pattern' found')
    (same : found.here = found'.here) : name = other := by
  obtain ⟨opened, writes, closed⟩ := exec_eq_some_iff.1 h.there
  obtain ⟨opened', writes', closed'⟩ := exec_eq_some_iff.1 h'.there
  rw [same] at opened
  have patterns : pattern = pattern' := by
    by_contra differ
    have starts : found.opening <+: found'.here := ⟨_, (firstOf_eq_some opened).2.symm⟩
    have starts' : found'.opening <+: found'.here := ⟨_, (firstOf_eq_some opened').2.symm⟩
    exact openings_differ pattern' h'.member pattern h.member differ _ (firstOf_eq_some opened').1 _
      (firstOf_eq_some opened).1 (List.prefix_or_prefix_of_prefix starts' starts)
  subst patterns
  rw [opened] at opened'
  obtain ⟨opening, onward⟩ := Prod.mk.inj (Option.some.inj opened')
  simp only [List.append_assoc] at onward
  by_cases dot : pattern = nodeDotPattern
  · subst dot
    obtain ⟨written, ends⟩ := h.identifier_ends
    obtain ⟨written', ends'⟩ := h'.identifier_ends
    rw [written, written'] at onward
    rw [← takeWhile_identifier (h.identifier rfl).1 ends, onward, takeWhile_identifier (h'.identifier rfl).1 ends']
  · obtain ⟨quote, first, last, bare⟩ := h.quoted dot
    obtain ⟨quote', first', last', bare'⟩ := h'.quoted dot
    rw [opening, first'] at first
    obtain rfl := Option.some.inj first
    obtain ⟨more, closing⟩ := List.head?_eq_some_iff.1 last
    obtain ⟨more', closing'⟩ := List.head?_eq_some_iff.1 last'
    rw [closing, closing'] at onward
    have special : quote' ≠ '\\' := by
      rintro rfl
      exact closing_head pattern h.member _ (firstOf_eq_some closed).1 last
    exact Writes.unique special writes writes' bare bare' onward

end

section

variable {pieces : List Piece} {word rest : Text}

def Apart (word rest : Text) (pieces : List Piece) : Prop :=
  ∀ ahead pattern found now behind, pieces = ahead ++ .reference pattern found now :: behind →
    found.text ≠ [] ∧ (word ++ rest <:+ before behind ∨ found.text ++ before behind <:+ rest)

theorem Apart.tail {piece : Piece} (h : Apart word rest (piece :: pieces)) : Apart word rest pieces :=
  fun ahead pattern found now behind split => h (piece :: ahead) pattern found now behind (congrArg (piece :: ·) split)

theorem kept_front (same : before pieces = word ++ rest) (apart : Apart word rest pieces) :
    ∃ behind, pieces = word.map .kept ++ behind ∧ before behind = rest := by
  induction word generalizing pieces with
  | nil => exact ⟨pieces, rfl, same⟩
  | cons c word ih =>
    cases pieces with
    | nil => cases same
    | cons piece pieces =>
      cases piece with
      | kept d =>
        obtain ⟨rfl, onward⟩ := List.cons.inj same
        have apart' : Apart word rest pieces := by
          intro ahead pattern found now behind split
          obtain ⟨some_, places⟩ := apart.tail ahead pattern found now behind split
          exact ⟨some_, places.imp_left fun suffix => (List.suffix_cons d (word ++ rest)).trans suffix⟩
        obtain ⟨behind, rfl, ends⟩ := ih onward apart'
        exact ⟨behind, rfl, ends⟩
      | reference pattern found now =>
        obtain ⟨some_, places⟩ := apart [] pattern found now pieces rfl
        have lengths := congrArg List.length same
        have long := List.length_pos_iff.2 some_
        rw [before_cons, Piece.before, List.length_append, List.length_append, List.length_cons] at lengths
        rcases places with suffix | suffix
        · have short := suffix.length_le
          rw [List.length_append, List.length_cons] at short
          omega
        · have short := suffix.length_le
          rw [List.length_append] at short
          omega

/-- A word that no reference overlaps stands in the pieces as it is. -/
theorem kept_of_apart (some_ : word ≠ []) (place : word ++ rest <:+ before pieces) (apart : Apart word rest pieces) :
    ∃ ahead behind, pieces = ahead ++ word.map .kept ++ behind ∧ before behind = rest := by
  induction pieces with
  | nil => exact absurd (List.append_eq_nil_iff.1 (List.suffix_nil.1 place)).1 some_
  | cons piece pieces ih =>
    rw [before_cons] at place
    rcases suffix_append_cases place with inside | ⟨part, nonempty, within, same⟩
    · obtain ⟨ahead, behind, rfl, ends⟩ := ih inside apart.tail
      exact ⟨piece :: ahead, behind, rfl, ends⟩
    · cases piece with
      | kept c =>
        have whole : part = [c] := by
          rcases List.suffix_cons_iff.1 within with whole | empty
          · exact whole
          · exact absurd (List.suffix_nil.1 empty) nonempty
        subst whole
        obtain ⟨behind, split, ends⟩ := @kept_front (.kept c :: pieces) word rest same.symm apart
        exact ⟨[], behind, split, ends⟩
      | reference pattern found now =>
        obtain ⟨-, places⟩ := apart [] pattern found now pieces rfl
        have lengths := congrArg List.length same
        have long := List.length_pos_iff.2 nonempty
        have wide := List.length_pos_iff.2 some_
        have short := within.length_le
        rw [List.length_append, List.length_append] at lengths
        rcases places with suffix | suffix
        · have less := suffix.length_le
          rw [List.length_append] at less
          omega
        · have less := suffix.length_le
          rw [List.length_append] at less
          rw [Piece.before] at short
          omega

end

section

variable {oldName newName expression : Text}

theorem Scanned.rest {pieces : List Piece} (scanned : Scanned name pieces) {ahead behind : List Piece}
    (split : pieces = ahead ++ .reference pattern found now :: behind) : found.rest = before behind := by
  induction scanned generalizing ahead with
  | nil => exact absurd split.symm (List.append_ne_nil_of_right_ne_nil ahead (List.cons_ne_nil _ behind))
  | kept missing h ih =>
    cases ahead with
    | nil => cases split
    | cons piece ahead => exact ih (List.cons.inj split).2
  | reference member there h ih =>
    cases ahead with
    | nil =>
      cases split
      exact (List.append_cancel_left (exec_text there)).symm
    | cons piece ahead => exact ih (List.cons.inj split).2

theorem mem_of_original {pieces : List Piece} {name : Text}
    (same : pieces.map Piece.original = piecesOf name expression)
    (member : .reference pattern found now ∈ pieces) : .reference pattern found found.text ∈ piecesOf name expression :=
  same ▸ List.mem_map_of_mem member

end

/-! A name that begins another: the quotes keep them apart, the dot does not. -/

def callExpression : Text := "$('A') + $('AB')".toList

def callFound : AccessMatch := ⟨"$('".toList, ['A'], "')".toList, " + $('AB')".toList⟩

theorem piecesOf_callExpression : piecesOf ['A'] callExpression =
    .reference callPattern callFound callFound.text :: callFound.rest.map .kept := rfl

theorem mem_callExpression (member : .reference pattern found now ∈ piecesOf ['A'] callExpression) :
    pattern = callPattern ∧ found = callFound := by
  rw [piecesOf_callExpression] at member
  rcases List.mem_cons.1 member with same | kept
  · cases same
    exact ⟨rfl, rfl⟩
  · obtain ⟨_, -, same⟩ := List.mem_map.1 kept
    cases same

theorem callFound_isReference : IsReference ['A'] callPattern callFound where
  member := by decide
  there := by decide
  identifier := fun same => absurd same (by decide)
  quoted := fun _ => ⟨'\'', by decide⟩

theorem callExpression_finds : FindsReferences ['A'] ['B', 'C'] callExpression where
  references := by
    intro pattern found now member
    obtain ⟨rfl, rfl⟩ := mem_callExpression member
    refine ⟨callFound_isReference, ?_⟩
    intro front split
    have empty : front = [] := List.append_left_eq_self.1 split.symm
    rw [empty]
    rfl
  apart := by
    intro pattern found now member other differ pattern' found' isReference place
    obtain ⟨rfl, rfl⟩ := mem_callExpression member
    obtain ⟨front, split⟩ := place
    obtain ⟨block, starts⟩ := exec_text_cons isReference.member isReference.there
    have here : found'.here = callExpression.drop front.length := by rw [← split, List.drop_left]
    have dollar : (callExpression.drop front.length).head? = some '$' := by
      rw [← here, AccessMatch.here, starts]
      rfl
    have short : front.length < 16 := by
      have lengths := congrArg List.length split
      rw [AccessMatch.here, starts, List.length_append, List.length_append, List.length_cons,
        show callExpression.length = 16 from rfl] at lengths
      omega
    have places : ∀ n < 16, (callExpression.drop n).head? = some '$' → n = 0 ∨ n = 9 := by decide
    rcases places front.length short dollar with first | second
    · rw [first] at here
      exact absurd (isReference.name_unique callFound_isReference here) differ
    · rw [here, second]
      exact .inl (by decide)
  undisturbed := undisturbed_of_clear (clear_of_dollarless (fun _ => id) (by decide))
    (clear_of_dollarless (List.subset_cons_self _ laterWords) (by decide)) (by decide)

def dotExpression : Text := "$node.AB.json".toList

def dotFound : AccessMatch := ⟨"$node.".toList, ['A', 'B'], ['.'], "json".toList⟩

end NodeAutomation.AccessPatterns
