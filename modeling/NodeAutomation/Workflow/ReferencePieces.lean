import NodeAutomation.Workflow.AccessPatterns
import Mathlib.Data.List.Infix

/-! The pieces of an expression between which a rename has to tell: the places where one of the
access patterns finds a name, and the characters around them. What a pattern finds does not
depend on what comes behind it. -/

namespace NodeAutomation.AccessPatterns

theorem startsWith?_eq_some_iff {word text rest : Text} :
    startsWith? word text = some rest ↔ text = word ++ rest := by
  induction word generalizing text with
  | nil => simp [startsWith?]
  | cons c word ih =>
    cases text with
    | nil => simp [startsWith?]
    | cons d text =>
      rw [startsWith?]
      split
      case isTrue same => simp [same, ih]
      case isFalse differ => simp [Ne.symm differ]

theorem firstOf_eq_some {words : List Text} {text word rest : Text}
    (found : firstOf words text = some (word, rest)) : word ∈ words ∧ text = word ++ rest := by
  obtain ⟨w, member, here⟩ := List.exists_of_findSome?_eq_some found
  obtain ⟨r, starts, same⟩ := Option.map_eq_some_iff.1 here
  cases same
  exact ⟨member, startsWith?_eq_some_iff.1 starts⟩

theorem firstOf_append {words : List Text} {word : Text} (member : word ∈ words)
    (lengths : ∀ other ∈ words, other.length = word.length) (rest : Text) :
    firstOf words (word ++ rest) = some (word, rest) := by
  induction words with
  | nil => cases member
  | cons first words ih =>
    rw [firstOf, List.findSome?_cons]
    by_cases same : first = word
    · rw [same, startsWith?_eq_some_iff.2 rfl]
      rfl
    · have missing : startsWith? first (word ++ rest) = none := by
        by_contra there
        obtain ⟨tail, starts⟩ := Option.ne_none_iff_exists'.1 there
        have whole := startsWith?_eq_some_iff.1 starts
        exact same (List.append_inj whole.symm (lengths first List.mem_cons_self)).1
      rw [missing]
      exact ih ((List.mem_cons.1 member).resolve_left fun eq => same eq.symm)
        fun other there => lengths other (List.mem_cons_of_mem first there)

theorem suffix_append_cases {part front back : Text} (suffix : part <:+ front ++ back) :
    part <:+ back ∨ ∃ rest, rest ≠ [] ∧ rest <:+ front ∧ part = rest ++ back := by
  obtain ⟨before, whole⟩ := suffix
  rcases List.append_eq_append_iff.1 whole with ⟨rest, inside, same⟩ | ⟨rest, outside, same⟩
  · by_cases empty : rest = []
    · exact .inl ⟨[], by rw [same, empty]; rfl⟩
    · exact .inr ⟨rest, empty, ⟨before, inside.symm⟩, same⟩
  · exact .inl ⟨rest, same.symm⟩

def isSpecial (c : Char) : Bool := c = '\\' || c = '"' || c = '\''

def WritesChar (c : Char) (writing : Text) : Prop :=
  if c = '\\' then writing = ['\\', '\\']
  else if c = '"' ∨ c = '\'' then writing = ['\\', c] ∨ writing = [c]
  else writing = [c]

inductive Writes : (name writing : Text) → Prop where
  | nil : Writes [] []
  | cons (first : WritesChar c writing) (h : Writes name more) : Writes (c :: name) (writing ++ more)

theorem bind_startsWith?_iff {word text rest : Text} {next : Text → Option Text} :
    (startsWith? word text).bind next = some rest ↔ ∃ behind, text = word ++ behind ∧ next behind = some rest := by
  simp only [Option.bind_eq_some_iff, startsWith?_eq_some_iff]

theorem matchOldName_cons_iff {c : Char} {name text rest : Text} :
    matchOldName (c :: name) text = some rest ↔
      ∃ writing behind, WritesChar c writing ∧ text = writing ++ behind ∧ matchOldName name behind = some rest := by
  rw [matchOldName]
  unfold WritesChar
  by_cases backslash : c = '\\'
  · simp only [backslash, if_true, bind_startsWith?_iff, exists_and_left, exists_eq_left]
  rw [if_neg backslash]
  by_cases quote : c = '"' ∨ c = '\''
  · simp only [backslash, quote, if_true, if_false]
    cases escaped : startsWith? ['\\', c] text with
    | some behind =>
      rw [startsWith?_eq_some_iff] at escaped
      subst escaped
      constructor
      · exact fun onward => ⟨_, behind, .inl rfl, rfl, onward⟩
      · rintro ⟨_, behind', rfl | rfl, same, onward⟩
        · rwa [List.append_cancel_left same]
        · exact absurd (List.cons.inj same).1.symm backslash
    | none =>
      rw [bind_startsWith?_iff]
      constructor
      · rintro ⟨behind, starts, onward⟩
        exact ⟨_, behind, .inr rfl, starts, onward⟩
      · rintro ⟨_, behind, rfl | rfl, starts, onward⟩
        · simp [startsWith?_eq_some_iff.2 starts] at escaped
        · exact ⟨behind, starts, onward⟩
  · simp only [backslash, quote, if_false, bind_startsWith?_iff, exists_and_left, exists_eq_left]

theorem matchOldName_iff {name text rest : Text} :
    matchOldName name text = some rest ↔ ∃ writing, Writes name writing ∧ text = writing ++ rest := by
  induction name generalizing text with
  | nil =>
    constructor
    · intro found
      cases found
      exact ⟨[], .nil, rfl⟩
    · rintro ⟨writing, writes, rfl⟩
      cases writes
      rfl
  | cons c name ih =>
    rw [matchOldName_cons_iff]
    constructor
    · rintro ⟨writing, behind, first, rfl, onward⟩
      obtain ⟨more, writes, rfl⟩ := ih.1 onward
      exact ⟨writing ++ more, .cons first writes, by rw [List.append_assoc]⟩
    · rintro ⟨whole, writes, rfl⟩
      cases writes with
      | @cons _ writing _ more first onward =>
        exact ⟨writing, more ++ rest, first, by rw [List.append_assoc], ih.2 ⟨more, onward, rfl⟩⟩

theorem writes_prepareNewNodeName (name : Text) : Writes name (prepareNewNodeName name) := by
  induction name with
  | nil => exact .nil
  | cons c name ih =>
    rw [prepareNewNodeName, List.flatMap_cons]
    refine .cons ?_ ih
    unfold WritesChar
    by_cases backslash : c = '\\'
    · simp [backslash]
    by_cases quote : c = '"' ∨ c = '\''
    · simp [backslash, quote]
    · simp [backslash, quote]

theorem WritesChar.forms {c : Char} {writing : Text} (h : WritesChar c writing) :
    c = '\\' ∧ writing = ['\\', '\\'] ∨ (c = '"' ∨ c = '\'') ∧ writing = ['\\', c] ∨
      c ≠ '\\' ∧ writing = [c] := by
  unfold WritesChar at h
  by_cases backslash : c = '\\'
  · rw [if_pos backslash] at h
    exact .inl ⟨backslash, h⟩
  rw [if_neg backslash] at h
  by_cases quote : c = '"' ∨ c = '\''
  · rw [if_pos quote] at h
    exact h.elim (fun escaped => .inr (.inl ⟨quote, escaped⟩)) fun bare => .inr (.inr ⟨backslash, bare⟩)
  · rw [if_neg quote] at h
    exact .inr (.inr ⟨backslash, h⟩)

theorem WritesChar.cases {c : Char} {writing : Text} (h : WritesChar c writing) :
    isSpecial c = false ∧ writing = [c] ∨
      isSpecial c = true ∧ ∃ d rest, isSpecial d = true ∧ writing = d :: rest ∧ ∀ e ∈ rest, isSpecial e = true := by
  rcases h.forms with ⟨rfl, rfl⟩ | ⟨quote, rfl⟩ | ⟨-, rfl⟩
  · exact .inr ⟨rfl, '\\', ['\\'], rfl, rfl, List.forall_mem_singleton.2 rfl⟩
  · have special : isSpecial c = true := by rcases quote with rfl | rfl <;> rfl
    exact .inr ⟨special, '\\', [c], rfl, rfl, by simpa using special⟩
  · by_cases special : isSpecial c = true
    · exact .inr ⟨special, c, [], special, rfl, nofun⟩
    · exact .inl ⟨Bool.not_eq_true _ ▸ special, rfl⟩

def namesOf (name text : Text) : List (Text × Text) :=
  ((matchOldName name text).map fun rest => (text.take (text.length - rest.length), rest)).toList

variable {pattern : AccessPattern} {name text : Text} {found : AccessMatch}

theorem mem_namesOf_iff {writing rest : Text} :
    (writing, rest) ∈ namesOf name text ↔ Writes name writing ∧ text = writing ++ rest := by
  rw [namesOf, Option.mem_toList, Option.map_eq_some_iff]
  constructor
  · rintro ⟨tail, matched, same⟩
    obtain ⟨front, writes, rfl⟩ := matchOldName_iff.1 matched
    cases same
    simpa using writes
  · rintro ⟨writes, rfl⟩
    exact ⟨rest, matchOldName_iff.2 ⟨writing, writes, rfl⟩, by simp⟩

theorem namesOf_eq_singleton {entry : Text × Text} (member : entry ∈ namesOf name text) :
    namesOf name text = [entry] := by
  rw [namesOf, Option.mem_toList] at member
  rw [namesOf, member]
  rfl

theorem exec_eq_some_iff : pattern.exec (namesOf name) text = some found ↔
    firstOf pattern.openings text = some (found.opening, found.name ++ found.closing ++ found.rest) ∧
      Writes name found.name ∧
      firstOf pattern.closings (found.closing ++ found.rest) = some (found.closing, found.rest) := by
  rw [AccessPattern.exec]
  constructor
  · intro h
    cases opened : firstOf pattern.openings text with
    | none =>
      simp [opened] at h
    | some entry =>
      rw [opened] at h
      obtain ⟨⟨writing, rest⟩, member, closed⟩ := List.exists_of_findSome?_eq_some h
      obtain ⟨writes, whole⟩ := mem_namesOf_iff.1 member
      obtain ⟨⟨closing, behind⟩, closes, same⟩ := Option.map_eq_some_iff.1 closed
      cases same
      obtain ⟨-, rest_⟩ := firstOf_eq_some closes
      refine ⟨?_, writes, rest_ ▸ closes⟩
      rw [List.append_assoc, ← rest_, ← whole]
  · rintro ⟨opened, writes, closed⟩
    have member : (found.name, found.closing ++ found.rest) ∈
        namesOf name (found.name ++ found.closing ++ found.rest) :=
      mem_namesOf_iff.2 ⟨writes, List.append_assoc ..⟩
    rw [opened]
    dsimp only
    rw [namesOf_eq_singleton member, List.findSome?_singleton, closed]
    rfl

theorem exec_text (h : pattern.exec (namesOf name) text = some found) : text = found.text ++ found.rest := by
  rw [(firstOf_eq_some (exec_eq_some_iff.1 h).1).2, AccessMatch.text]
  simp only [List.append_assoc]

theorem openings_length : ∀ pattern ∈ ACCESS_PATTERNS, ∀ opening ∈ pattern.openings,
    ∀ other ∈ pattern.openings, other.length = opening.length := by decide

theorem closings_length : ∀ pattern ∈ ACCESS_PATTERNS, pattern ≠ nodeDotPattern →
    ∀ closing ∈ pattern.closings, ∀ other ∈ pattern.closings, other.length = closing.length := by decide

theorem nodeDot_closing {text closing rest : Text}
    (found : firstOf nodeDotPattern.closings text = some (closing, rest)) :
    closing = ['.'] ∨ closing = [] := by
  have member : closing ∈ [['.'], []] := (firstOf_eq_some found).1
  simpa using member

theorem empty_closing : ∀ pattern ∈ ACCESS_PATTERNS, [] ∈ pattern.closings → pattern = nodeDotPattern := by decide

section

variable (member : pattern ∈ ACCESS_PATTERNS)
include member

theorem closing_change {closing rest : Text}
    (found : firstOf pattern.closings (closing ++ rest) = some (closing, rest)) (other : Text)
    (dotless : closing = [] → other.head? ≠ some '.') :
    firstOf pattern.closings (closing ++ other) = some (closing, other) := by
  by_cases dot : pattern = nodeDotPattern
  · subst dot
    rcases nodeDot_closing found with rfl | rfl
    · rfl
    · cases other with
      | nil => rfl
      | cons c other =>
        have plain : '.' ≠ c := fun same => dotless rfl (by rw [← same]; rfl)
        change firstOf [['.'], []] (c :: other) = _
        simp [firstOf, startsWith?, plain]
  · have closes := (firstOf_eq_some found).1
    exact firstOf_append closes (closings_length pattern member dot closing closes) other

theorem exec_change (h : pattern.exec (namesOf name) text = some found)
    (other : Text) (dotless : found.closing = [] → other.head? ≠ some '.') :
    pattern.exec (namesOf name) (found.text ++ other) = some { found with rest := other } := by
  obtain ⟨opened, writes, closed⟩ := exec_eq_some_iff.1 h
  have opening := (firstOf_eq_some opened).1
  refine exec_eq_some_iff.2 ⟨?_, writes, closing_change member closed other dotless⟩
  rw [AccessMatch.text, List.append_assoc, List.append_assoc]
  simpa only [List.append_assoc] using firstOf_append opening (openings_length pattern member _ opening) _

theorem exec_isSome_change (h : pattern.exec (namesOf name) text = some found)
    (other : Text) : pattern.exec (namesOf name) (found.text ++ other) ≠ none := by
  by_cases dotless : found.closing = [] → other.head? ≠ some '.'
  · rw [exec_change member h other dotless]
    nofun
  · obtain ⟨empty, dot⟩ := Classical.not_imp.1 dotless
    obtain ⟨tail, rfl⟩ := List.head?_eq_some_iff.1 (not_not.1 dot)
    obtain ⟨opened, writes, closed⟩ := exec_eq_some_iff.1 h
    have opening := (firstOf_eq_some opened).1
    have isDot : pattern = nodeDotPattern :=
      empty_closing pattern member (empty ▸ (firstOf_eq_some closed).1)
    subst isDot
    have longer : nodeDotPattern.exec (namesOf name) (found.text ++ '.' :: tail) =
        some ⟨found.opening, found.name, ['.'], tail⟩ := by
      refine exec_eq_some_iff.2 ⟨?_, writes, rfl⟩
      rw [AccessMatch.text, empty, List.append_nil, List.append_assoc]
      simpa only [List.append_assoc, List.singleton_append] using
        firstOf_append opening (openings_length _ member _ opening) (found.name ++ '.' :: tail)
    rw [longer]
    nofun

end

theorem opening_tail : ∀ pattern ∈ ACCESS_PATTERNS, ∀ opening ∈ pattern.openings,
    opening.head? = some '$' ∧ '$' ∉ opening.tail := by decide

theorem exec_text_cons (member : pattern ∈ ACCESS_PATTERNS) (h : pattern.exec (namesOf name) text = some found) :
    ∃ block, found.text = '$' :: block := by
  obtain ⟨opened, -, -⟩ := exec_eq_some_iff.1 h
  obtain ⟨tail, whole⟩ := List.head?_eq_some_iff.1 (opening_tail pattern member _ (firstOf_eq_some opened).1).1
  exact ⟨tail ++ found.name ++ found.closing, by rw [AccessMatch.text, whole]; rfl⟩

end NodeAutomation.AccessPatterns
