import NodeAutomation.Workflow.RenamedPieces

/-! Names that do not disturb a rename: in which none of the words that the access patterns begin with
begins. No pattern then finds the old name anywhere but where it stood before the passes. -/

namespace NodeAutomation.AccessPatterns

def Begins (word text : Text) : Prop := word <+: text ∨ text <+: word

def Clear (words : List Text) (name : Text) : Prop :=
  ∀ part, part ≠ [] → part <:+ name → ∀ word ∈ words, ¬ Begins word part

def Plain (words : List Text) : Prop :=
  ∀ word ∈ words, word ≠ [] ∧ ∀ c ∈ word, isSpecial c = false

theorem begins_cons_cons {c d : Char} {word text : Text} :
    Begins (c :: word) (d :: text) ↔ c = d ∧ Begins word text := by
  simp only [Begins, List.cons_prefix_cons]
  constructor
  · rintro (⟨rfl, starts⟩ | ⟨rfl, starts⟩)
    · exact ⟨rfl, .inl starts⟩
    · exact ⟨rfl, .inr starts⟩
  · rintro ⟨rfl, starts | starts⟩
    · exact .inl ⟨rfl, starts⟩
    · exact .inr ⟨rfl, starts⟩

theorem Writes.begins {name writing word : Text} (h : Writes name writing)
    (plain : ∀ c ∈ word, isSpecial c = false) (begins : Begins word writing) : Begins word name := by
  induction h generalizing word with
  | nil => exact begins
  | @cons c writing name more first h ih =>
    cases word with
    | nil => exact .inl (List.nil_prefix)
    | cons d word =>
      rcases first.cases with ⟨-, rfl⟩ | ⟨special, e, rest, specialE, rfl, -⟩
      · obtain ⟨same, onward⟩ := begins_cons_cons.1 begins
        exact begins_cons_cons.2 ⟨same, ih (fun c member => plain c (List.mem_cons_of_mem d member)) onward⟩
      · obtain ⟨rfl, -⟩ := begins_cons_cons.1 begins
        simp [plain d List.mem_cons_self] at specialE

theorem Writes.clear {name writing : Text} {words : List Text} (h : Writes name writing) (plain : Plain words)
    (clear : Clear words name) : Clear words writing := by
  induction h with
  | nil => exact clear
  | @cons c writing name more first h ih =>
    have behind : Clear words name := fun part some_ suffix =>
      clear part some_ (suffix.trans (List.suffix_cons c name))
    intro part some_ suffix word member begins
    rcases first.cases with ⟨-, rfl⟩ | ⟨special, e, rest, specialE, rfl, specials⟩
    · rcases List.suffix_cons_iff.1 suffix with whole | inside
      · subst whole
        exact clear (c :: name) (List.cons_ne_nil c name) List.suffix_rfl word member
          ((Writes.cons first h).begins (plain word member).2 begins)
      · exact ih behind part some_ inside word member begins
    · rcases suffix_append_cases suffix with inside | ⟨tail, nonempty, within, rfl⟩
      · exact ih behind part some_ inside word member begins
      · obtain ⟨b, tail, rfl⟩ := List.exists_cons_of_ne_nil nonempty
        obtain ⟨a, word, rfl⟩ := List.exists_cons_of_ne_nil (plain word member).1
        obtain ⟨rfl, -⟩ := begins_cons_cons.1 begins
        have ordinary := (plain _ member).2 a List.mem_cons_self
        rcases List.mem_cons.1 (within.subset List.mem_cons_self) with rfl | inRest
        · simp [specialE] at ordinary
        · simp [specials a inRest] at ordinary

section

variable {pattern : AccessPattern} {name text : Text} {found : AccessMatch}

/-- What the openings of the patterns begin with. -/
def laterWords : List Text := ["$node".toList, "$items".toList]

def startWords : List Text := "$(".toList :: laterWords

theorem plain_startWords : Plain startWords := by
  have plain : ∀ word ∈ startWords, word ≠ [] ∧ word.all (!isSpecial ·) = true := by decide
  intro word member
  obtain ⟨some_, ordinary⟩ := plain word member
  exact ⟨some_, fun c inside => by simpa using List.all_eq_true.1 ordinary c inside⟩

theorem plain_laterWords : Plain laterWords := fun word member =>
  plain_startWords word (List.mem_cons_of_mem _ member)

def startOf (pattern : AccessPattern) : Text :=
  if pattern = callPattern then "$(".toList
  else if pattern = itemsPattern then "$items".toList
  else "$node".toList

theorem startOf_starts : ∀ pattern ∈ ACCESS_PATTERNS, ∀ opening ∈ pattern.openings, startOf pattern <+: opening := by
  decide

theorem startOf_mem : ∀ pattern ∈ ACCESS_PATTERNS, startOf pattern ∈ startWords := by decide

theorem closing_plain : ∀ pattern ∈ ACCESS_PATTERNS, ∀ closing ∈ pattern.closings, '$' ∉ closing := by decide

theorem exec_starts (member : pattern ∈ ACCESS_PATTERNS) (h : pattern.exec (namesOf name) text = some found) :
    startOf pattern <+: text := by
  obtain ⟨opened, -, -⟩ := exec_eq_some_iff.1 h
  obtain ⟨opening, whole⟩ := firstOf_eq_some opened
  rw [whole]
  exact (startOf_starts pattern member _ opening).trans (List.prefix_append _ _)

theorem exec_inside (member : pattern ∈ ACCESS_PATTERNS) (h : pattern.exec (namesOf name) text = some found)
    {front back : Text} (nonempty : front ≠ []) (split : found.text = front ++ '$' :: back) :
    ∃ part, part ≠ [] ∧ part <:+ found.name ∧ '$' :: back = part ++ found.closing := by
  obtain ⟨opened, -, closed⟩ := exec_eq_some_iff.1 h
  have opening := (firstOf_eq_some opened).1
  have closing := (firstOf_eq_some closed).1
  have suffix : '$' :: back <:+ found.opening ++ (found.name ++ found.closing) :=
    ⟨front, by rw [← split, AccessMatch.text, List.append_assoc]⟩
  rcases suffix_append_cases suffix with inside | ⟨part, some_, within, same⟩
  · rcases suffix_append_cases inside with behind | ⟨part, some_, within, same⟩
    · exact absurd (behind.subset List.mem_cons_self) (closing_plain pattern member _ closing)
    · exact ⟨part, some_, within, same⟩
  · obtain ⟨before, whole⟩ := within
    obtain ⟨c, part, rfl⟩ := List.exists_cons_of_ne_nil some_
    obtain ⟨rfl, -⟩ := List.cons.inj same
    cases before with
    | nil =>
      have lengths := congrArg List.length split
      rw [AccessMatch.text, List.append_assoc, ← whole, List.length_append, same] at lengths
      have long := List.length_pos_iff.2 nonempty
      simp only [List.nil_append, List.length_append, List.length_cons] at lengths
      omega
    | cons d before =>
      have inTail := (opening_tail pattern member _ opening).2
      rw [← whole] at inTail
      exact absurd (List.mem_append_right before List.mem_cons_self) inTail

end

section

variable {pattern other : AccessPattern} {oldName newName : Text} {found : AccessMatch} {done : List AccessPattern}
  {pieces : List Piece}

theorem clear_startOf {words : List Text} {body : Text} (clear : Clear words body) (member : startOf pattern ∈ words)
    {part behind : Text} (some_ : part ≠ []) (suffix : part <:+ body) : ¬ startOf pattern <+: part ++ behind :=
  fun starts => clear part some_ suffix _ member
    (List.prefix_or_prefix_of_prefix starts (List.prefix_append part behind))

/-- A pattern finds nothing in a text with another opening in front, in which none of its openings begins. -/
theorem quiet (member : pattern ∈ ACCESS_PATTERNS) {head body foot : Text}
    (differ : ∀ opening ∈ pattern.openings, ¬ Begins opening head) (single : '$' ∉ head.tail)
    {words : List Text} (clear : Clear words body) (starts : startOf pattern ∈ words) (plain : '$' ∉ foot)
    {part : Text} (some_ : part ≠ []) (suffix : part <:+ head ++ body ++ foot) (behind : Text) :
    pattern.exec (namesOf oldName) (part ++ behind) = none := by
  by_contra there
  obtain ⟨found, matched⟩ := Option.ne_none_iff_exists'.1 there
  have word := exec_starts member matched
  have opened := exec_member matched
  have whole := exec_text matched
  have dollar : ∃ rest, part = '$' :: rest := by
    obtain ⟨c, part, rfl⟩ := List.exists_cons_of_ne_nil some_
    obtain ⟨block, same⟩ := exec_text_cons member matched
    rw [same] at whole
    exact ⟨part, by rw [(List.cons.inj whole).1]⟩
  obtain ⟨rest, rfl⟩ := dollar
  rcases suffix_append_cases suffix with inFoot | ⟨middle, some_, within, same⟩
  · exact plain (inFoot.subset List.mem_cons_self)
  rcases suffix_append_cases within with inBody | ⟨front, some_, inHead, same'⟩
  · rw [same, List.append_assoc] at word
    exact clear_startOf clear starts some_ inBody word
  · obtain ⟨before_, split⟩ := inHead
    rw [same', List.append_assoc] at same
    cases before_ with
    | nil =>
      rw [List.nil_append] at split
      rw [same, AccessMatch.text, split] at whole
      simp only [List.append_assoc] at whole
      exact differ _ opened.1 (List.prefix_or_prefix_of_prefix ⟨_, whole.symm⟩ (List.prefix_append head _))
    | cons d before_ =>
      obtain ⟨c, front, rfl⟩ := List.exists_cons_of_ne_nil some_
      obtain ⟨rfl, -⟩ := List.cons.inj same
      rw [← split] at single
      exact single (List.mem_append_right before_ List.mem_cons_self)

theorem openings_differ : ∀ pattern ∈ ACCESS_PATTERNS, ∀ other ∈ ACCESS_PATTERNS, other ≠ pattern →
    ∀ opening ∈ pattern.openings, ∀ head ∈ other.openings, ¬ Begins opening head := by
  unfold Begins
  decide +kernel

theorem bracketed_differ : ∀ pattern ∈ ACCESS_PATTERNS, pattern ≠ nodeBracketPattern →
    ∀ opening ∈ pattern.openings, ¬ Begins opening ['$', 'n', 'o', 'd', 'e', '[', '"'] := by
  unfold Begins
  decide +kernel

theorem later_startOf : ∀ pattern ∈ ACCESS_PATTERNS, pattern ≠ callPattern → startOf pattern ∈ laterWords := by decide

theorem Standing.quiet {done : List AccessPattern} {now : Text} (h : Standing done newName other found now)
    (member : pattern ∈ ACCESS_PATTERNS) (otherMember : other ∈ ACCESS_PATTERNS) (differ : other ≠ pattern)
    (there : other.exec (namesOf oldName) text = some found) (clearOld : Clear startWords oldName)
    (clearNew : Clear laterWords newName) (later : done ≠ [] → pattern ≠ callPattern)
    (order : other = nodeDotPattern → other ∈ done → pattern ≠ nodeBracketPattern) {part : Text} (some_ : part ≠ [])
    (suffix : part <:+ now) (behind : Text) : pattern.exec (namesOf oldName) (part ++ behind) = none := by
  obtain ⟨opening, closing, writes⟩ := exec_member there
  have head := openings_differ pattern member other otherMember differ
  have plain := closing_plain other otherMember _ closing
  have single := (opening_tail other otherMember _ opening).2
  have clear := (writes_prepareNewNodeName newName).clear plain_laterWords clearNew
  rcases h with ⟨-, rfl⟩ | ⟨inside, rfl | ⟨isDot, rfl⟩⟩
  · exact AccessPatterns.quiet member (fun o mem => head o mem _ opening) single
      (writes.clear plain_startWords clearOld) (startOf_mem pattern member) plain some_ suffix behind
  · exact AccessPatterns.quiet member (fun o mem => head o mem _ opening) single clear
      (later_startOf pattern member (later (List.ne_nil_of_mem inside))) plain some_ suffix behind
  · have foot : '$' ∉ ['"', ']'] ++ found.closing := by
      rw [List.mem_append, not_or]
      exact ⟨by decide, plain⟩
    exact AccessPatterns.quiet member (bracketed_differ pattern member (order isDot inside)) (by decide) clear
      (later_startOf pattern member (later (List.ne_nil_of_mem inside))) foot some_ suffix behind

theorem Standing.word {pattern : AccessPattern} {found : AccessMatch} {now : Text}
    (h : Standing done newName pattern found now) (member : pattern ∈ ACCESS_PATTERNS)
    (there : pattern.exec (namesOf oldName) text = some found) : ∃ word ∈ startWords, word <+: now := by
  obtain ⟨opening, -, -⟩ := exec_member there
  have word := startOf_starts pattern member _ opening
  rcases h with ⟨-, rfl⟩ | ⟨-, rfl | ⟨-, rfl⟩⟩
  · refine ⟨_, startOf_mem pattern member, word.trans ?_⟩
    rw [AccessMatch.text, List.append_assoc]
    exact List.prefix_append _ _
  · refine ⟨_, startOf_mem pattern member, word.trans ?_⟩
    rw [renamedText, List.append_assoc]
    exact List.prefix_append _ _
  · exact ⟨"$node".toList, by decide, _, rfl⟩

theorem startWords_cons : ∀ word ∈ startWords, ∃ rest, word = '$' :: rest := by
  intro word member
  have head : ∀ word ∈ startWords, word.head? = some '$' := by decide
  obtain ⟨rest, same⟩ := List.head?_eq_some_iff.1 (head word member)
  exact ⟨rest, same⟩

section

variable (member : pattern ∈ ACCESS_PATTERNS)
include member

/-- What a pattern does not find before the passes it does not find between them: a match would have to go
through the place of a reference, and none of their words begins in the old name. -/
theorem exec_between (clearOld : Clear startWords oldName)
    (scanned : Scanned oldName pieces) (standing : AllStanding done newName pieces) {front : Text}
    (nonempty : front ≠ []) (missing : pattern.exec (namesOf oldName) (front ++ before pieces) = none) :
    pattern.exec (namesOf oldName) (front ++ after pieces) = none := by
  induction scanned generalizing front with
  | nil => exact missing
  | @kept c pieces _ h ih =>
    have cons {text : Text} : front ++ c :: text = front ++ [c] ++ text := by simp
    rw [before_cons, Piece.before, List.singleton_append, cons] at missing
    rw [after_cons, Piece.now, List.singleton_append, cons]
    exact ih standing.tail (by simp) missing
  | @reference other pieces found now otherMember there h ih =>
    obtain ⟨word, inWords, starts⟩ := (standing other found now List.mem_cons_self).word otherMember there
    by_contra somewhere
    obtain ⟨matched, same⟩ := Option.ne_none_iff_exists'.1 somewhere
    have whole := exec_text same
    rw [after_cons, Piece.now] at whole
    rcases List.append_eq_append_iff.1 whole with ⟨back, split, onward⟩ | ⟨back, split, -⟩
    · by_cases ends : back = []
      · rw [ends, List.append_nil] at split
        rw [← split] at missing
        exact exec_isSome_change member same _ missing
      · obtain ⟨c, back, rfl⟩ := List.exists_cons_of_ne_nil ends
        have begins : word <+: (c :: back) ++ matched.rest := onward ▸ starts.trans (List.prefix_append now _)
        obtain ⟨rest, rfl⟩ := startWords_cons word inWords
        obtain ⟨rfl, -⟩ := List.cons_prefix_cons.1 begins
        obtain ⟨part, some_, suffix, cut⟩ := exec_inside member same nonempty split
        rw [cut, List.append_assoc] at begins
        have clear := (exec_member same).2.2.clear plain_startWords clearOld
        exact clear part some_ suffix _ inWords
          (List.prefix_or_prefix_of_prefix begins (List.prefix_append part _))
    · rw [split, List.append_assoc] at missing
      exact exec_isSome_change member same _ missing

theorem start_of_own (clearOld : Clear startWords oldName)
    (there : pattern.exec (namesOf oldName) text = some found) {start back behind : Text}
    (split : found.text = start ++ back) (some_ : back ≠ [])
    (here : pattern.exec (namesOf oldName) (back ++ behind) ≠ none) : start = [] := by
  by_contra nonempty
  obtain ⟨matched, same⟩ := Option.ne_none_iff_exists'.1 here
  have starts := exec_starts member same
  obtain ⟨block, whole⟩ := exec_text_cons member same
  obtain ⟨c, back, rfl⟩ := List.exists_cons_of_ne_nil some_
  have head := exec_text same
  rw [whole] at head
  obtain ⟨rfl, -⟩ := List.cons.inj head
  obtain ⟨part, some_, suffix, cut⟩ := exec_inside member there nonempty split
  rw [cut, List.append_assoc] at starts
  exact (exec_member there).2.2.clear plain_startWords clearOld part some_ suffix _ (startOf_mem pattern member)
    (List.prefix_or_prefix_of_prefix starts (List.prefix_append part _))

theorem findsOnly_of_clear (undone : pattern ∉ done)
    (clearOld : Clear startWords oldName) (clearNew : Clear laterWords newName)
    (later : done ≠ [] → pattern ≠ callPattern) (order : nodeDotPattern ∈ done → pattern ≠ nodeBracketPattern)
    (scanned : Scanned oldName pieces) (standing : AllStanding done newName pieces) :
    FindsOnly (pattern.exec (namesOf oldName)) [] (Piece.isOf pattern) pieces := by
  induction scanned with
  | nil =>
    intro ahead piece behind start back split
    exact absurd split.symm (List.append_ne_nil_of_right_ne_nil ahead (List.cons_ne_nil piece behind))
  | @kept c pieces missing h ih =>
    refine findsOnly_cons (ih standing.tail) fun start back split some_ there => ?_
    have whole : [c] = back := by
      rcases List.append_eq_singleton_iff.1 split.symm with ⟨-, whole⟩ | ⟨-, empty⟩
      · exact whole.symm
      · exact absurd empty some_
    subst whole
    exact absurd (exec_between member clearOld h standing.tail (List.cons_ne_nil c [])
      (missing pattern member)) there
  | @reference other pieces found now otherMember there h ih =>
    refine findsOnly_cons (ih standing.tail) fun start back split some_ here => ?_
    have stood := standing other found now List.mem_cons_self
    by_cases own : other = pattern
    · subst own
      rcases stood with ⟨-, rfl⟩ | ⟨inside, -⟩
      · exact ⟨start_of_own member clearOld there split some_ here, found, _, rfl⟩
      · exact absurd inside undone
    · exact absurd (stood.quiet member otherMember own there clearOld clearNew later
        (fun same inside => order (same ▸ inside)) some_ ⟨start, split.symm⟩ _) here

end

theorem undisturbed_cons {patterns : List AccessPattern} (clearOld : Clear startWords oldName)
    (clearNew : Clear laterWords newName) (allowed : hasDotNotationBannedChar newName = false)
    (member : pattern ∈ ACCESS_PATTERNS) (undone : pattern ∉ done) (later : done ≠ [] → pattern ≠ callPattern)
    (order : nodeDotPattern ∈ done → pattern ≠ nodeBracketPattern) (scanned : Scanned oldName pieces)
    (standing : AllStanding done newName pieces)
    (onward : Undisturbed oldName newName patterns (passed newName pieces pattern)) :
    Undisturbed oldName newName (pattern :: patterns) pieces := by
  refine ⟨findsOnly_of_clear member undone clearOld clearNew later order scanned standing, fun calls => ?_, onward⟩
  simp [calls.2.1] at allowed

theorem clear_of_dollarless {words : List Text} {name : Text} (among : words ⊆ startWords) (plain : '$' ∉ name) :
    Clear words name := by
  intro part some_ suffix word member begins
  obtain ⟨rest, rfl⟩ := startWords_cons word (among member)
  obtain ⟨c, part, rfl⟩ := List.exists_cons_of_ne_nil some_
  obtain ⟨rfl, -⟩ := begins_cons_cons.1 begins
  exact plain (suffix.subset List.mem_cons_self)

theorem undisturbed_of_clear {expression : Text} (clearOld : Clear startWords oldName)
    (clearNew : Clear laterWords newName) (allowed : hasDotNotationBannedChar newName = false) :
    Undisturbed oldName newName ACCESS_PATTERNS (piecesOf oldName expression) := by
  have scanned := (piecesOf_spec oldName expression).2.2
  have standing := standing_piecesOf oldName newName expression
  have call := @standing_passed callPattern newName [] _ standing
  have bracket := @standing_passed nodeBracketPattern newName _ _ call
  have dot := @standing_passed nodeDotPattern newName _ _ bracket
  refine undisturbed_cons clearOld clearNew allowed (by decide) (by decide) (by decide) (by decide) scanned standing ?_
  refine undisturbed_cons clearOld clearNew allowed (by decide) (by decide) (by decide) (by decide)
    (scanned_passed scanned) call ?_
  refine undisturbed_cons clearOld clearNew allowed (by decide) (by decide) (by decide) (by decide)
    (scanned_passed (scanned_passed scanned)) bracket ?_
  exact undisturbed_cons clearOld clearNew allowed (by decide) (by decide) (by decide) (by decide)
    (scanned_passed (scanned_passed (scanned_passed scanned))) dot trivial

end

end NodeAutomation.AccessPatterns
