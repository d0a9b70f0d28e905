import NodeAutomation.Lib.FreshSearch
import NodeAutomation.Workflow.WorkflowDiff
import Mathlib

/-! The variable names of generated code (`packages/@n8n/workflow-sdk/src/codegen/variable-names.ts`), and the
words that a variable must not be named. -/

namespace NodeAutomation.VariableNames

open FreshSearch

abbrev Text := List Char

def RESERVED_KEYWORDS : List Text :=
  ["break", "case", "catch", "class", "const", "continue", "debugger", "default", "delete", "do", "else",
    "export", "extends", "finally", "for", "function", "if", "import", "in", "instanceof", "let", "new",
    "return", "static", "super", "switch", "this", "throw", "try", "typeof", "var", "void", "while", "with",
    "yield", "null", "true", "false", "undefined", "workflow", "trigger", "node", "merge", "ifElse",
    "switchCase", "splitInBatches", "sticky", "languageModel", "tool", "memory", "outputParser",
    "textSplitter", "embeddings", "vectorStore", "retriever", "document", "eval", "Function", "require",
    "process", "global", "globalThis", "window", "setTimeout", "setInterval", "setImmediate", "clearTimeout",
    "clearInterval", "clearImmediate", "module", "exports", "Buffer", "Reflect", "Proxy"].map String.toList

def ecmaScriptReservedWords : List Text :=
  ["await", "break", "case", "catch", "class", "const", "continue", "debugger", "default", "delete", "do",
    "else", "enum", "export", "extends", "false", "finally", "for", "function", "if", "implements", "import",
    "in", "instanceof", "interface", "let", "new", "null", "package", "private", "protected", "public",
    "return", "static", "super", "switch", "this", "throw", "true", "try", "typeof", "var", "void", "while",
    "with", "yield"].map String.toList

def sdkFunctions : List Text :=
  ["workflow", "node", "trigger", "sticky", "placeholder", "newCredential", "ifElse", "switchCase", "merge",
    "splitInBatches", "nextBatch", "languageModel", "memory", "tool", "outputParser", "embedding",
    "embeddings", "vectorStore", "retriever", "documentLoader", "textSplitter", "reranker", "fromAi", "expr",
    "nodeJson"].map String.toList

/-- `nodeName.replace(/[^a-zA-Z0-9]/g, '_')`, for each code unit. -/
def replaceOthers (nodeName : Text) : Text :=
  nodeName.flatMap fun c => if c.isAlphanum then [c] else if c.toNat < 0x10000 then ['_'] else ['_', '_']

/-- `.replace(/_+/g, '_')`, behind an underscore or not. -/
def collapseUnderscores : (behind : Bool) → Text → Text
  | _, [] => []
  | behind, c :: rest =>
    if c = '_' then (if behind then [] else ['_']) ++ collapseUnderscores true rest
    else c :: collapseUnderscores false rest

/-- `.replace(/_$/g, '')`. -/
def removeTrailing (text : Text) : Text := if text.getLast? = some '_' then text.dropLast else text

/-- `.replace(/^([A-Z])/, (c) => c.toLowerCase())`. -/
def lowerFirst : Text → Text
  | [] => []
  | c :: rest => if c.isUpper then c.toLower :: rest else c :: rest

def toInt32 (number : Int) : Int := number.bmod (2 ^ 32)

def digit36 (digit : Nat) : Char := if digit < 10 then .ofNat ('0'.toNat + digit) else .ofNat ('a'.toNat + digit - 10)

/-- `number.toString(36)`. -/
def toString36 (number : Nat) : Text :=
  if number = 0 then ['0'] else ((Nat.digits 36 number).reverse).map digit36

def hashFallbackName (nodeName : Text) : Text :=
  let hash := (WorkflowDiff.codeUnits (String.ofList nodeName)).foldl (fun (hash : Int) code =>
    toInt32 (toInt32 (hash * 2 ^ 5) - hash + code)) 0
  ['n', 'o', 'd', 'e', '_'] ++ toString36 hash.natAbs

/-- A digit in front gets an underscore, and a letter loses the one in front of it. -/
def fixFirst (varName : Text) : Text :=
  let varName := if (varName.head?.any Char.isDigit) then '_' :: varName else varName
  match varName with
  | '_' :: c :: rest => if c.isAlpha then c :: rest else varName
  | _ => varName

def toVarName (nodeName : Text) : Text :=
  let varName := lowerFirst (removeTrailing (collapseUnderscores false (replaceOthers nodeName)))
  if varName = [] ∨ varName = ['_'] then hashFallbackName nodeName
  else
    let varName := fixFirst varName
    if varName ∈ RESERVED_KEYWORDS then varName ++ ['_', 'n', 'o', 'd', 'e'] else varName

structure VarNameContext where
  nodeNameToVarName : OrderedMap Text Text := ∅
  usedVarNames : OrderedSet Text := ∅

def numbered (baseVarName : Text) (counter : Nat) : Text :=
  if counter = 0 then baseVarName else baseVarName ++ Nat.toDigits 10 counter

def getUniqueVarName (nodeName : Text) (ctx : VarNameContext) : Text × VarNameContext :=
  match ctx.nodeNameToVarName.get nodeName with
  | some varName => (varName, ctx)
  | none =>
    let baseVarName := toVarName nodeName
    let counter := skipTaken (fun counter => ctx.usedVarNames.contains (numbered baseVarName counter)) (· + 1)
      ctx.usedVarNames.size 0
    let varName := numbered baseVarName counter
    (varName,
      { usedVarNames := ctx.usedVarNames.add varName
        nodeNameToVarName := ctx.nodeNameToVarName.set nodeName varName })

def assignVarNames (ctx : VarNameContext) : (nodeNames : List Text) → List Text
  | [] => []
  | nodeName :: nodeNames =>
    let (varName, ctx) := getUniqueVarName nodeName ctx
    varName :: assignVarNames ctx nodeNames

def IsIdentifierStart (c : Char) : Prop := c.isAlpha ∨ c = '_' ∨ c = '$'

def IsIdentifierPart (c : Char) : Prop := c.isAlphanum ∨ c = '_' ∨ c = '$'

/-- An identifier of letters, digits, `_` and `$`. -/
def IsIdentifier : Text → Prop
  | [] => False
  | c :: rest => IsIdentifierStart c ∧ ∀ d ∈ rest, IsIdentifierPart d

/-- Words have neither digits nor underscores. -/
def PlainWord (word : Text) : Prop := word ≠ [] ∧ ∀ c ∈ word, c.isAlpha = true

def forbiddenWords : List Text := ecmaScriptReservedWords ++ sdkFunctions ++ [['w', 'f']]

theorem isAlphanum_of_isAlpha {c : Char} (letter : c.isAlpha = true) : c.isAlphanum = true := by
  rw [Char.isAlphanum, letter, Bool.true_or]

variable {text word nodeName : Text}

abbrev AlphanumOrUnderscore (text : Text) : Prop := ∀ c ∈ text, c.isAlphanum = true ∨ c = '_'

theorem chars_of_all (checked : text.all (fun c => c.isAlphanum || c == '_') = true) : AlphanumOrUnderscore text := by
  simpa [AlphanumOrUnderscore] using checked

theorem replaceOthers_chars (nodeName : Text) : AlphanumOrUnderscore (replaceOthers nodeName) := by
  intro c member
  obtain ⟨d, _, inside⟩ := List.mem_flatMap.1 member
  split at inside
  · next alphanum =>
    rw [List.mem_singleton] at inside
    exact .inl (inside ▸ alphanum)
  · right
    split at inside <;> simpa using inside

theorem collapseUnderscores_subset (behind : Bool) (text : Text) : collapseUnderscores behind text ⊆ text := by
  induction text generalizing behind with
  | nil => exact List.Subset.refl _
  | cons c rest ih =>
    rw [collapseUnderscores]
    split
    · next underscore =>
      refine List.append_subset.2 ⟨?_, List.subset_cons_of_subset c (ih true)⟩
      cases behind <;> simp [underscore]
    · exact List.cons_subset_cons c (ih false)

theorem removeTrailing_subset (text : Text) : removeTrailing text ⊆ text := by
  rw [removeTrailing]
  split
  · exact List.dropLast_subset text
  · exact List.Subset.refl _

theorem lowerFirst_chars (chars : AlphanumOrUnderscore text) : AlphanumOrUnderscore (lowerFirst text) := by
  cases text with
  | nil => exact chars
  | cons c rest =>
    rw [lowerFirst]
    split
    · next upper =>
      rw [AlphanumOrUnderscore, List.forall_mem_cons]
      have letter : c.toLower.isAlpha = true := by
        rw [Char.isAlpha_toLower_eq_isAlpha, Char.isAlpha, upper, Bool.true_or]
      exact ⟨.inl (isAlphanum_of_isAlpha letter), fun d member => chars d (.tail _ member)⟩
    · exact chars

theorem isIdentifier_cons {c : Char} {rest : Text} (start : c.isAlpha = true ∨ c = '_')
    (chars : AlphanumOrUnderscore rest) : IsIdentifier (c :: rest) :=
  ⟨start.imp_right .inl, fun d member => (chars d member).imp_right .inl⟩

theorem isIdentifier_append {more : Text} (identifier : IsIdentifier text) (chars : AlphanumOrUnderscore more) :
    IsIdentifier (text ++ more) := by
  cases text with
  | nil => exact identifier.elim
  | cons c rest =>
    refine ⟨identifier.1, fun d member => ?_⟩
    cases List.mem_append.1 member with
    | inl inside => exact identifier.2 d inside
    | inr after => exact (chars d after).imp_right .inl

theorem isAlpha_of_not_isDigit {c : Char} (alphanum : c.isAlphanum = true) (no_digit : ¬ c.isDigit = true) :
    c.isAlpha = true := by
  rw [Char.isAlphanum, Bool.or_eq_true] at alphanum
  exact alphanum.resolve_right no_digit

theorem not_isAlpha_of_isDigit {c : Char} (digit : c.isDigit = true) : ¬ c.isAlpha = true := by
  simp [Char.isDigit, Char.isAlpha, Char.isUpper, Char.isLower, UInt32.le_iff_toNat_le] at digit ⊢
  omega

theorem fixFirst_isIdentifier (some_char : text ≠ []) (chars : AlphanumOrUnderscore text) :
    IsIdentifier (fixFirst text) := by
  obtain ⟨c, rest, rfl⟩ := List.exists_cons_of_ne_nil some_char
  have rest_chars : AlphanumOrUnderscore rest := fun d member => chars d (.tail _ member)
  by_cases digit : c.isDigit = true
  · have no_letter : ¬ c.isAlpha = true := not_isAlpha_of_isDigit digit
    have same : fixFirst (c :: rest) = '_' :: c :: rest := by simp [fixFirst, digit, no_letter]
    rw [same]
    exact isIdentifier_cons (.inr rfl) chars
  · have unchanged : (if ((c :: rest).head?.any Char.isDigit) then '_' :: c :: rest else c :: rest) = c :: rest := by
      simp [digit]
    unfold fixFirst
    rw [unchanged]
    dsimp only
    split
    · next d rest' same =>
      cases same
      rw [AlphanumOrUnderscore, List.forall_mem_cons] at rest_chars
      split
      · next letter => exact isIdentifier_cons (.inl letter) rest_chars.2
      · exact isIdentifier_cons (.inr rfl) (List.forall_mem_cons.2 rest_chars)
    · exact isIdentifier_cons ((chars c List.mem_cons_self).imp_left (isAlpha_of_not_isDigit · digit)) rest_chars

theorem digit36_isAlphanum {digit : Nat} (small : digit < 36) : (digit36 digit).isAlphanum = true := by
  have checked : (List.range 36).all (fun digit => (digit36 digit).isAlphanum) = true := by decide +kernel
  exact List.all_eq_true.1 checked digit (List.mem_range.2 small)

theorem toString36_chars (number : Nat) : AlphanumOrUnderscore (toString36 number) := by
  intro c member
  left
  rw [toString36] at member
  split at member
  · rw [List.mem_singleton.1 member]
    decide
  · obtain ⟨digit, among, rfl⟩ := List.mem_map.1 member
    exact digit36_isAlphanum (Nat.digits_lt_base (by decide) (List.mem_reverse.1 among))

theorem hashFallbackName_isIdentifier (nodeName : Text) : IsIdentifier (hashFallbackName nodeName) := by
  have front : IsIdentifier ['n', 'o', 'd', 'e', '_'] :=
    isIdentifier_cons (.inl (by decide)) (chars_of_all (by decide))
  exact isIdentifier_append front (toString36_chars _)

theorem toVarName_isIdentifier (nodeName : Text) : IsIdentifier (toVarName nodeName) := by
  have chars : AlphanumOrUnderscore
      (lowerFirst (removeTrailing (collapseUnderscores false (replaceOthers nodeName)))) :=
    lowerFirst_chars fun c member => replaceOthers_chars nodeName c
      (collapseUnderscores_subset _ _ (removeTrailing_subset _ member))
  unfold toVarName
  dsimp only
  split
  · exact hashFallbackName_isIdentifier nodeName
  · next some_char =>
    have identifier := fixFirst_isIdentifier (fun empty => some_char (.inl empty)) chars
    split
    · exact isIdentifier_append identifier (chars_of_all (by decide))
    · exact identifier

theorem numbered_injective (baseVarName : Text) : Function.Injective (numbered baseVarName) := by
  intro i j same
  have nonempty (n : Nat) : Nat.toDigits 10 n ≠ [] := by simp
  simp only [numbered] at same
  split at same <;> split at same
  · next zero zero' => rw [zero, zero']
  · exact absurd (List.self_eq_append_right.1 same) (nonempty j)
  · exact absurd (List.append_right_eq_self.1 same) (nonempty i)
  · have digits := congrArg (fun digits => Nat.ofDigitChars 10 digits 0) (List.append_cancel_left same)
    simpa using digits

variable {ctx : VarNameContext} {nodeNames : List Text}

theorem getUniqueVarName_new (new : ctx.nodeNameToVarName.get nodeName = none) :
    let (varName, ctx') := getUniqueVarName nodeName ctx
    varName ∉ ctx.usedVarNames ∧ (∃ counter, varName = numbered (toVarName nodeName) counter) ∧
      (toVarName nodeName ∉ ctx.usedVarNames → varName = toVarName nodeName) ∧
      ctx'.usedVarNames = ctx.usedVarNames.add varName ∧
      ctx'.nodeNameToVarName = ctx.nodeNameToVarName.set nodeName varName := by
  let taken (counter : Nat) : Bool := ctx.usedVarNames.contains (numbered (toVarName nodeName) counter)
  unfold getUniqueVarName
  rw [new]
  refine ⟨?_, ⟨_, rfl⟩, ?_, rfl, rfl⟩
  · have free : taken (skipTaken taken (· + 1) ctx.usedVarNames.size 0) = false :=
      skipTaken_free id (numbered (toVarName nodeName)) ctx.usedVarNames.elems
        (fun counter => Nat.lt_succ_self counter)
        (fun counter is_taken => (OrderedSet.contains_iff _ _).1 is_taken) (numbered_injective _) (Nat.le_refl _)
    intro member
    rw [← OrderedSet.contains_iff] at member
    exact absurd (free.symm.trans member) (by decide)
  · intro base_free
    have free : taken 0 = false := by
      rw [Bool.eq_false_iff, ne_eq]
      exact fun is_taken => base_free ((OrderedSet.contains_iff _ _).1 is_taken)
    exact congrArg (numbered (toVarName nodeName)) (skipTaken_of_free free ctx.usedVarNames.size)

theorem assignVarNames_spec (new : ∀ nodeName ∈ nodeNames, ctx.nodeNameToVarName.get nodeName = none)
    (distinct : nodeNames.Nodup) :
    (assignVarNames ctx nodeNames).Nodup ∧
      (∀ varName ∈ assignVarNames ctx nodeNames, varName ∉ ctx.usedVarNames ∧
        ∃ nodeName ∈ nodeNames, ∃ counter, varName = numbered (toVarName nodeName) counter) ∧
      ∀ nodeName ∈ nodeNames, toVarName nodeName ∈ ctx.usedVarNames ∨
        toVarName nodeName ∈ assignVarNames ctx nodeNames := by
  induction nodeNames generalizing ctx with
  | nil => simp [assignVarNames]
  | cons nodeName nodeNames ih =>
    rw [List.forall_mem_cons] at new
    rw [List.nodup_cons] at distinct
    have here := getUniqueVarName_new new.1
    rw [assignVarNames]
    generalize getUniqueVarName nodeName ctx = result at here ⊢
    obtain ⟨varName, ctx'⟩ := result
    obtain ⟨unused, ⟨counter, is_numbered⟩, base, used', names'⟩ := here
    have new' : ∀ other ∈ nodeNames, ctx'.nodeNameToVarName.get other = none := by
      intro other member
      rw [names', OrderedMap.get_set_of_ne _ _ fun same => distinct.1 (by rw [← same]; exact member)]
      exact new.2 other member
    obtain ⟨nodup, later, bases⟩ := ih new' distinct.2
    rw [used'] at later bases
    refine ⟨List.nodup_cons.2 ⟨fun member => ?_, nodup⟩, ?_, ?_⟩
    · exact (later varName member).1 ((OrderedSet.mem_add _ _ _).2 (.inr rfl))
    · rw [List.forall_mem_cons]
      refine ⟨⟨unused, nodeName, List.mem_cons_self, counter, is_numbered⟩, fun other member => ?_⟩
      obtain ⟨fresh, source, source_mem, numbered⟩ := later other member
      exact ⟨fun used => fresh ((OrderedSet.mem_add _ _ _).2 (.inl used)), source, .tail _ source_mem, numbered⟩
    · rw [List.forall_mem_cons]
      constructor
      · by_cases taken : toVarName nodeName ∈ ctx.usedVarNames
        · exact .inl taken
        · rw [← base taken]
          exact .inr List.mem_cons_self
      · intro other member
        rcases bases other member with used | assigned
        · rcases (OrderedSet.mem_add _ _ _).1 used with before | same
          · exact .inl before
          · exact .inr (by rw [same]; exact List.mem_cons_self)
        · exact .inr (.tail _ assigned)

abbrev Separators (text : Text) : Prop := ∀ c ∈ text, c.isAlphanum = false

abbrev Alphanum (text : Text) : Prop := ∀ c ∈ text, c.isAlphanum = true

variable {front back : Text}

theorem ne_underscore {c : Char} (alphanum : c.isAlphanum = true) : c ≠ '_' := by
  rintro rfl
  exact absurd alphanum (by decide)

theorem collapse_separators (separators : Separators front) (behind : Bool) (rest : Text) :
    collapseUnderscores behind (replaceOthers (front ++ rest)) =
      if front = [] then collapseUnderscores behind (replaceOthers rest)
      else (if behind then [] else ['_']) ++ collapseUnderscores true (replaceOthers rest) := by
  induction front generalizing behind with
  | nil => rfl
  | cons c front ih =>
    rw [Separators, List.forall_mem_cons] at separators
    have onward : collapseUnderscores true (replaceOthers (front ++ rest)) =
        collapseUnderscores true (replaceOthers rest) := by
      rw [ih separators.2 true]
      split <;> rfl
    have here : replaceOthers (c :: (front ++ rest)) =
        (if c.toNat < 0x10000 then ['_'] else ['_', '_']) ++ replaceOthers (front ++ rest) := by
      rw [replaceOthers, List.flatMap_cons, separators.1, if_neg Bool.false_ne_true]
      rfl
    rw [List.cons_append, here, if_neg (List.cons_ne_nil c front), ← onward]
    split <;> simp [collapseUnderscores]

theorem collapse_alphanum (alphanum : Alphanum text) (some_char : text ≠ []) (behind : Bool) (rest : Text) :
    collapseUnderscores behind (replaceOthers (text ++ rest)) =
      text ++ collapseUnderscores false (replaceOthers rest) := by
  induction text generalizing behind with
  | nil => exact absurd rfl some_char
  | cons c text ih =>
    rw [Alphanum, List.forall_mem_cons] at alphanum
    have here : replaceOthers (c :: (text ++ rest)) = c :: replaceOthers (text ++ rest) := by
      rw [replaceOthers, List.flatMap_cons, if_pos alphanum.1]
      rfl
    rw [List.cons_append, here, collapseUnderscores, if_neg (ne_underscore alphanum.1), List.cons_append]
    by_cases empty : text = []
    · rw [empty]
      rfl
    · rw [ih alphanum.2 empty]

theorem mem_collapse {c : Char} (alphanum : c.isAlphanum = true) (behind : Bool) (member : c ∈ text) :
    c ∈ collapseUnderscores behind (replaceOthers text) := by
  induction text generalizing behind with
  | nil => exact member
  | cons d text ih =>
    by_cases letter : d.isAlphanum = true
    · have here := collapse_alphanum (List.forall_mem_singleton.2 letter) (List.cons_ne_nil d []) behind text
      rw [List.singleton_append] at here
      rw [here, List.mem_append]
      exact (List.mem_cons.1 member).imp (fun same => by rw [same]; exact .head _) (ih false)
    · have here := collapse_separators (List.forall_mem_singleton.2 (Bool.eq_false_iff.2 letter)) behind text
      rw [List.singleton_append, if_neg (List.cons_ne_nil d [])] at here
      rw [here, List.mem_append]
      refine .inr (ih true ((List.mem_cons.1 member).resolve_left ?_))
      rintro rfl
      exact letter alphanum

theorem collapse_back (separators : Separators back) :
    collapseUnderscores false (replaceOthers back) = if back = [] then [] else ['_'] := by
  have here := collapse_separators separators false []
  rw [List.append_nil] at here
  rw [here]
  split <;> rfl

abbrev Stops (text : Text) : Prop := text.head?.all (!Char.isAlphanum ·) = true

theorem takeWhile_word {after : Text} (alphanum : Alphanum word) (stops : Stops after) :
    (word ++ after).takeWhile Char.isAlphanum = word := by
  rw [List.takeWhile_append_of_pos alphanum]
  cases after with
  | nil => exact List.append_nil _
  | cons c rest =>
    have other : ¬ c.isAlphanum = true := by simpa [Stops] using stops
    rw [List.takeWhile_cons_of_neg other, List.append_nil]

theorem stops_collapse (stops : Stops text) : Stops (collapseUnderscores false (replaceOthers text)) := by
  cases text with
  | nil => rfl
  | cons c rest =>
    have other : c.isAlphanum = false := by simpa [Stops] using stops
    have here := collapse_separators (List.forall_mem_singleton.2 other) false rest
    rw [List.singleton_append, if_neg (List.cons_ne_nil c [])] at here
    rw [here]
    rfl

theorem marked_iff {marked : Bool} :
    (if text = [] then [] else ['_']) = (if marked then ['_'] else [] : Text) ↔ (text ≠ [] ↔ marked = true) := by
  by_cases empty : text = [] <;> cases marked <;> simp [empty]

theorem exists_first_word (text : Text) : ∃ front word after, text = front ++ (word ++ after) ∧
    Separators front ∧ Alphanum word ∧ Stops after ∧ (word = [] → after = []) := by
  induction text with
  | nil => exact ⟨[], [], [], rfl, List.forall_mem_nil _, List.forall_mem_nil _, rfl, fun _ => rfl⟩
  | cons c text ih =>
    obtain ⟨front, word, after, rfl, separators, alphanum, stops, nothing⟩ := ih
    by_cases letter : c.isAlphanum = true
    · cases front with
      | nil =>
        exact ⟨[], c :: word, after, rfl, List.forall_mem_nil _, List.forall_mem_cons.2 ⟨letter, alphanum⟩, stops,
          nofun⟩
      | cons d front =>
        refine ⟨[], [c], d :: front ++ (word ++ after), rfl, List.forall_mem_nil _,
          List.forall_mem_singleton.2 letter, ?_, nofun⟩
        simp [Stops, separators d List.mem_cons_self]
    · exact ⟨c :: front, word, after, rfl, List.forall_mem_cons.2 ⟨by simpa using letter, separators⟩, alphanum, stops,
        nothing⟩

/-- The collapsed name is a word with underscores around it exactly if the name is with other characters. -/
theorem collapse_word_iff (alphanum : Alphanum word) (some_char : word ≠ []) (first last : Bool) :
    collapseUnderscores false (replaceOthers nodeName) =
        (if first then ['_'] else []) ++ (word ++ if last then ['_'] else []) ↔
      ∃ front back, Separators front ∧ Separators back ∧ (front ≠ [] ↔ first = true) ∧ (back ≠ [] ↔ last = true) ∧
        nodeName = front ++ (word ++ back) := by
  constructor
  · intro collapsed
    obtain ⟨c, word_rest, rfl⟩ := List.exists_cons_of_ne_nil some_char
    have letter := alphanum c List.mem_cons_self
    obtain ⟨front, middle, after, rfl, separators, middle_alphanum, stops, nothing⟩ := exists_first_word nodeName
    by_cases empty : middle = []
    · rw [empty, nothing empty, List.append_nil, collapse_separators separators] at collapsed
      have among : c ∈ (if front = [] then collapseUnderscores false (replaceOthers []) else
          (if false then [] else ['_']) ++ collapseUnderscores true (replaceOthers [])) := by
        rw [collapsed]
        simp
      split at among
      · cases among
      · exact absurd (List.mem_singleton.1 among) (ne_underscore letter)
    have split_off : collapseUnderscores false (replaceOthers (front ++ (middle ++ after))) =
        (if front = [] then [] else ['_']) ++ (middle ++ collapseUnderscores false (replaceOthers after)) := by
      rw [collapse_separators separators, collapse_alphanum middle_alphanum empty,
        collapse_alphanum middle_alphanum empty]
      split <;> rfl
    rw [split_off] at collapsed
    -- The underscore in front stands for the characters in front.
    have same_front : (if front = [] then [] else ['_']) = (if first then ['_'] else [] : Text) := by
      by_cases no_front : front = [] <;> cases first
      · rw [if_pos no_front]
        rfl
      · obtain ⟨d, rest, rfl⟩ := List.exists_cons_of_ne_nil empty
        rw [if_pos no_front] at collapsed
        exact absurd (List.cons.inj collapsed).1 (ne_underscore (middle_alphanum d List.mem_cons_self))
      · rw [if_neg no_front] at collapsed
        exact absurd (List.cons.inj collapsed).1.symm (ne_underscore letter)
      · rw [if_neg no_front]
        rfl
    rw [same_front] at collapsed
    have behind := List.append_cancel_left collapsed
    have same_word := congrArg (List.takeWhile Char.isAlphanum) behind
    rw [takeWhile_word middle_alphanum (stops_collapse stops),
      takeWhile_word alphanum (by cases last <;> rfl)] at same_word
    subst same_word
    have same_back := List.append_cancel_left behind
    have back_separators : Separators after := by
      intro d member
      by_contra letter
      rw [Bool.not_eq_false] at letter
      have kept := mem_collapse letter false member
      rw [same_back] at kept
      split at kept
      · exact ne_underscore letter (List.mem_singleton.1 kept)
      · cases kept
    rw [collapse_back back_separators] at same_back
    exact ⟨front, after, separators, back_separators, marked_iff.1 same_front, marked_iff.1 same_back, rfl⟩
  · rintro ⟨front, back, front_separators, back_separators, is_first, is_last, rfl⟩
    rw [collapse_separators front_separators, collapse_alphanum alphanum some_char,
      collapse_alphanum alphanum some_char, collapse_back back_separators]
    by_cases front_empty : front = [] <;> by_cases back_empty : back = [] <;>
      simp [front_empty, back_empty] at is_first is_last ⊢ <;> simp [is_first, is_last]

theorem removeTrailing_eq_iff (ends : word.getLast? ≠ some '_') :
    removeTrailing text = word ↔ text = word ∨ text = word ++ ['_'] := by
  constructor
  · intro removed
    rw [removeTrailing] at removed
    split at removed
    · next last =>
      have whole := List.dropLast_append_getLast? '_' last
      rw [removed] at whole
      exact .inr whole.symm
    · exact .inl removed
  · rintro (rfl | rfl)
    · rw [removeTrailing, if_neg ends]
    · simp [removeTrailing]

abbrev squash (nodeName : Text) : Text := removeTrailing (collapseUnderscores false (replaceOthers nodeName))

theorem squash_word_iff (alphanum : Alphanum word) (some_char : word ≠ []) (first : Bool) :
    squash nodeName = (if first then ['_'] else []) ++ word ↔
      ∃ front back, Separators front ∧ Separators back ∧ (front ≠ [] ↔ first = true) ∧
        nodeName = front ++ (word ++ back) := by
  have ends : ((if first then ['_'] else []) ++ word).getLast? ≠ some '_' := by
    rw [List.getLast?_append_of_ne_nil _ some_char]
    intro last
    exact ne_underscore (alphanum '_' (List.mem_of_getLast? last)) rfl
  have without := @collapse_word_iff _ nodeName alphanum some_char first false
  have behind := @collapse_word_iff _ nodeName alphanum some_char first true
  simp only [Bool.false_eq_true, if_false, List.append_nil, iff_false, not_not, if_true, iff_true] at without behind
  rw [removeTrailing_eq_iff ends, List.append_assoc, without, behind]
  constructor
  · rintro (⟨front, back, separators, back_separators, is_first, _, same⟩ |
      ⟨front, back, separators, back_separators, is_first, _, same⟩)
    · exact ⟨front, back, separators, back_separators, is_first, same⟩
    · exact ⟨front, back, separators, back_separators, is_first, same⟩
  · rintro ⟨front, back, separators, back_separators, is_first, same⟩
    by_cases empty : back = []
    · exact .inl ⟨front, back, separators, back_separators, is_first, empty, same⟩
    · exact .inr ⟨front, back, separators, back_separators, is_first, empty, same⟩

def capitalized : Text → Text
  | [] => []
  | c :: rest => c.toUpper :: rest

/-- The name is the word, between characters that are neither letters nor digits; with none in front the first letter
may be a capital. -/
def Spells (nodeName word : Text) : Prop :=
  ∃ front back, Separators front ∧ Separators back ∧
    (nodeName = front ++ (word ++ back) ∨ front = [] ∧ nodeName = capitalized word ++ back)

/-- A word as the parser's functions and the reserved words are: letters, the first of them small. -/
structure LowerWord (word : Text) : Prop where
  plain : PlainWord word
  lower : ∀ c, word.head? = some c → c.isLower = true

theorem lowerWord_of_chars (chars : List Char)
    (checked : (!chars.isEmpty && chars.all Char.isAlpha && chars.head?.all Char.isLower) = true) :
    LowerWord (String.ofList chars).toList := by
  rw [String.toList_ofList]
  simp only [Bool.and_eq_true, Bool.not_eq_true', List.isEmpty_eq_false_iff, List.all_eq_true] at checked
  refine ⟨checked.1, fun c first => ?_⟩
  rw [first] at checked
  exact checked.2

theorem forbidden_lower : ∀ word ∈ forbiddenWords, LowerWord word := by
  have wf : [['w', 'f']] = ["wf"].map String.toList := rfl
  simp only [forbiddenWords, ecmaScriptReservedWords, sdkFunctions, wf, ← List.map_append, List.forall_mem_map,
    List.cons_append, List.nil_append, List.forall_mem_cons]
  -- the characters are read off the words, not decoded
  repeat' apply And.intro
  all_goals first | exact lowerWord_of_chars _ rfl | exact nofun

theorem PlainWord.alphanum (plain : PlainWord word) : Alphanum word := fun c member =>
  isAlphanum_of_isAlpha (plain.2 c member)

theorem PlainWord.capitalized (plain : PlainWord word) : PlainWord (capitalized word) := by
  obtain ⟨c, rest, rfl⟩ := List.exists_cons_of_ne_nil plain.1
  refine ⟨List.cons_ne_nil _ _, List.forall_mem_cons.2 ⟨?_, fun d member => plain.2 d (.tail _ member)⟩⟩
  rw [Char.isAlpha_toUpper_eq_isAlpha]
  exact plain.2 c List.mem_cons_self

theorem spells_iff (plain : PlainWord word) : Spells nodeName word ↔
    squash nodeName = '_' :: word ∨ squash nodeName = word ∨ squash nodeName = capitalized word := by
  have behind := @squash_word_iff _ nodeName plain.alphanum plain.1 true
  have alone := @squash_word_iff _ nodeName plain.alphanum plain.1 false
  have capital := @squash_word_iff _ nodeName plain.capitalized.alphanum plain.capitalized.1 false
  simp only [if_true, Bool.false_eq_true, if_false, iff_true, iff_false, not_not, List.nil_append,
    List.singleton_append] at behind alone capital
  rw [behind, alone, capital]
  constructor
  · rintro ⟨front, back, separators, back_separators, same | ⟨rfl, same⟩⟩
    · by_cases empty : front = []
      · exact .inr (.inl ⟨front, back, separators, back_separators, empty, same⟩)
      · exact .inl ⟨front, back, separators, back_separators, empty, same⟩
    · exact .inr (.inr ⟨[], back, separators, back_separators, rfl, same⟩)
  · rintro (⟨front, back, separators, back_separators, _, same⟩ | ⟨front, back, separators, back_separators, _, same⟩ |
      ⟨front, back, separators, back_separators, rfl, same⟩)
    · exact ⟨front, back, separators, back_separators, .inl same⟩
    · exact ⟨front, back, separators, back_separators, .inl same⟩
    · exact ⟨[], back, separators, back_separators, .inr ⟨rfl, same⟩⟩

theorem lowerFirst_eq_iff (lower : LowerWord word) : lowerFirst text = word ↔
    text = word ∨ text = capitalized word := by
  obtain ⟨w, word, rfl⟩ := List.exists_cons_of_ne_nil lower.plain.1
  have small : w.isLower = true := lower.lower w rfl
  have no_capital : ¬ w.isUpper = true := Char.not_isUpper_of_isLower small
  cases text with
  | nil => simp [lowerFirst, capitalized]
  | cons c rest =>
    simp only [lowerFirst, capitalized]
    by_cases upper : c.isUpper = true
    · have differs : c ≠ w := fun same => no_capital (same ▸ upper)
      have casing : c.toLower = w ↔ c = w.toUpper := by
        constructor
        · rintro rfl
          rw [Char.toUpper_toLower_eq_toUpper, Char.toUpper_eq_of_not_isLower (Char.not_isLower_of_isUpper upper)]
        · rintro rfl
          rw [Char.toLower_toUpper_eq_toLower, Char.toLower_eq_of_not_isUpper no_capital]
      simp [upper, differs, casing]
    · have differs : c ≠ w.toUpper := by
        rintro rfl
        rw [Char.isUpper_toUpper_eq_isAlpha] at upper
        exact upper (lower.plain.2 w List.mem_cons_self)
      simp [upper, differs]

theorem underscore_not_mem (plain : PlainWord word) : '_' ∉ word := fun member =>
  ne_underscore (plain.alphanum '_' member) rfl

theorem fixFirst_eq_iff (plain : PlainWord word) : fixFirst text = word ↔ text = word ∨ text = '_' :: word := by
  have no_underscore := underscore_not_mem plain
  cases text with
  | nil => simp [fixFirst, plain.1.symm]
  | cons c rest =>
    by_cases digit : c.isDigit = true
    · have no_letter := not_isAlpha_of_isDigit digit
      have same : fixFirst (c :: rest) = '_' :: c :: rest := by simp [fixFirst, digit, no_letter]
      rw [same]
      refine iff_of_false ?_ ?_
      · rintro rfl
        exact no_underscore List.mem_cons_self
      · rintro (rfl | same)
        · exact no_letter (plain.2 c List.mem_cons_self)
        · rw [(List.cons.inj same).1] at digit
          exact absurd digit (by decide)
    · have unchanged : (if ((c :: rest).head?.any Char.isDigit) then '_' :: c :: rest else c :: rest) = c :: rest := by
        simp [digit]
      unfold fixFirst
      rw [unchanged]
      dsimp only
      split
      · next d rest' same =>
        cases same
        have not_word : '_' :: d :: rest' ≠ word := by
          rintro rfl
          exact no_underscore List.mem_cons_self
        rw [or_iff_right not_word, List.cons_inj_right]
        split
        · exact Iff.rfl
        · next no_letter =>
          refine iff_of_false not_word ?_
          rintro rfl
          exact no_letter (plain.2 d List.mem_cons_self)
      · next other =>
        refine (or_iff_left ?_).symm
        intro same
        obtain ⟨d, word, rfl⟩ := List.exists_cons_of_ne_nil plain.1
        exact other d word same

theorem lowerFirst_underscore_iff {rest : Text} : lowerFirst text = '_' :: rest ↔ text = '_' :: rest := by
  cases text with
  | nil => exact Iff.rfl
  | cons c other =>
    rw [lowerFirst]
    split
    · next upper =>
      have letter : c.toLower.isAlpha = true := by
        rw [Char.isAlpha_toLower_eq_isAlpha, Char.isAlpha, upper, Bool.true_or]
      refine iff_of_false (fun same => ?_) (fun same => ?_)
      · exact ne_underscore (isAlphanum_of_isAlpha letter) (List.cons.inj same).1
      · rw [(List.cons.inj same).1] at upper
        exact absurd upper (by decide)
    · exact Iff.rfl

theorem toVarName_eq_iff (lower : LowerWord word) :
    toVarName nodeName = word ↔ word ∉ RESERVED_KEYWORDS ∧ Spells nodeName word := by
  have no_underscore := underscore_not_mem lower.plain
  have named : fixFirst (lowerFirst (squash nodeName)) = word ↔ Spells nodeName word := by
    rw [fixFirst_eq_iff lower.plain, lowerFirst_eq_iff lower, lowerFirst_underscore_iff, spells_iff lower.plain]
    tauto
  unfold toVarName
  dsimp only
  split
  · next nothing =>
    refine iff_of_false ?_ fun spells => ?_
    · rintro rfl
      exact no_underscore (by simp [hashFallbackName])
    · have fixed := (fixFirst_eq_iff lower.plain).1 (named.2 spells.2)
      rcases nothing with empty | underscore
      · rw [empty] at fixed
        simp [lower.plain.1.symm] at fixed
      · rw [underscore] at fixed
        rcases fixed with same | same
        · exact no_underscore (same ▸ List.mem_cons_self)
        · exact lower.plain.1 (List.cons.inj same).2.symm
  · split
    · next reserved =>
      refine iff_of_false ?_ fun spells => ?_
      · rintro rfl
        exact no_underscore (by simp)
      · exact spells.1 (named.2 spells.2 ▸ reserved)
    · next free =>
      constructor
      · intro same
        exact ⟨same ▸ free, named.1 same⟩
      · exact fun spells => named.2 spells.2

def unguardedWords : List Text :=
  ["await", "enum", "implements", "interface", "package", "private", "protected", "public", "placeholder",
    "newCredential", "nextBatch", "embedding", "documentLoader", "reranker", "fromAi", "expr", "nodeJson",
    "wf"].map String.toList

theorem spelled_cons (chars : Text) {words : List String} {spelled : List Text}
    (rest : words.map String.toList = spelled) :
    (String.ofList chars :: words).map String.toList = chars :: spelled := by
  rw [List.map_cons, String.toList_ofList, rest]

/-- What `unguardedWords` are, for words that may be spelled out. -/
def Unguarded (unguarded forbidden reserved : List Text) : Prop :=
  (unguarded.all fun word => forbidden.elem word && !reserved.elem word) = true ∧
    (forbidden.all fun word => unguarded.elem word || reserved.elem word) = true

instance (unguarded forbidden reserved : List Text) : Decidable (Unguarded unguarded forbidden reserved) :=
  inferInstanceAs (Decidable (_ ∧ _))

theorem Unguarded.of_spelled {U F R unguarded forbidden reserved : List Text} (u : U = unguarded) (f : F = forbidden)
    (r : R = reserved) (checked : Unguarded unguarded forbidden reserved) : Unguarded U F R := by
  rwa [u, f, r]

theorem unguarded_iff : ∀ word, word ∈ unguardedWords ↔ word ∈ forbiddenWords ∧ word ∉ RESERVED_KEYWORDS := by
  have checked : Unguarded unguardedWords forbiddenWords RESERVED_KEYWORDS := by
    have wf : [['w', 'f']] = ["wf"].map String.toList := rfl
    simp only [unguardedWords, forbiddenWords, RESERVED_KEYWORDS, ecmaScriptReservedWords, sdkFunctions, wf,
      ← List.map_append, List.cons_append, List.nil_append]
    apply Unguarded.of_spelled
    iterate 3
      · repeat apply spelled_cons
        rfl
    decide +kernel
  obtain ⟨forbidden, guarded⟩ := checked
  intro word
  constructor
  · intro member
    simpa using List.all_eq_true.1 forbidden word member
  · rintro ⟨member, free⟩
    have here := List.all_eq_true.1 guarded word member
    simp only [Bool.or_eq_true, List.elem_iff] at here
    exact here.resolve_right free

theorem toVarName_forbidden_iff : toVarName nodeName ∈ forbiddenWords ↔
    ∃ word ∈ unguardedWords, Spells nodeName word := by
  constructor
  · intro forbidden
    obtain ⟨free, spells⟩ := (toVarName_eq_iff (forbidden_lower _ forbidden)).1 rfl
    exact ⟨_, (unguarded_iff _).2 ⟨forbidden, free⟩, spells⟩
  · rintro ⟨word, unguarded, spells⟩
    obtain ⟨forbidden, free⟩ := (unguarded_iff word).1 unguarded
    rw [(toVarName_eq_iff (forbidden_lower word forbidden)).2 ⟨free, spells⟩]
    exact forbidden

theorem numbered_forbidden {baseVarName : Text} {counter : Nat}
    (forbidden : numbered baseVarName counter ∈ forbiddenWords) : numbered baseVarName counter = baseVarName := by
  rw [numbered] at forbidden ⊢
  split
  · rfl
  · next counted =>
    rw [if_neg counted] at forbidden
    obtain ⟨digit, among⟩ := List.exists_mem_of_ne_nil _ (Nat.toDigits_ne_nil (b := 10) (n := counter))
    have letter := (forbidden_lower _ forbidden).plain.2 digit (List.mem_append_right _ among)
    exact absurd letter (not_isAlpha_of_isDigit (Nat.isDigit_of_mem_toDigits (by decide) (by decide) among))

theorem numbered_isIdentifier (nodeName : Text) (counter : Nat) :
    IsIdentifier (numbered (toVarName nodeName) counter) := by
  rw [numbered]
  split
  · exact toVarName_isIdentifier nodeName
  · refine isIdentifier_append (toVarName_isIdentifier nodeName) fun digit among => .inl ?_
    rw [Char.isAlphanum, Nat.isDigit_of_mem_toDigits (by decide) (by decide) among, Bool.or_true]

/-- Names that a program can declare beside each other. -/
structure Usable (varNames : List Text) : Prop where
  distinct : varNames.Nodup
  identifier : ∀ varName ∈ varNames, IsIdentifier varName
  unreserved : ∀ varName ∈ varNames, varName ∉ ecmaScriptReservedWords
  no_function : ∀ varName ∈ varNames, varName ∉ sdkFunctions
  no_workflow : ∀ varName ∈ varNames, varName ≠ ['w', 'f']

/-- The assigned names are usable, if and only if no node's name spells one of the words that names are not kept
from. -/
theorem assignVarNames_usable_iff (nodeNames : List Text) (distinct : nodeNames.Nodup) :
    Usable (assignVarNames {} nodeNames) ↔
      ∀ nodeName ∈ nodeNames, ∀ word ∈ unguardedWords, ¬ Spells nodeName word := by
  obtain ⟨nodup, assigned, bases⟩ := @assignVarNames_spec {} nodeNames (fun _ _ => rfl) distinct
  constructor
  · intro usable nodeName member word unguarded spells
    have base := (bases nodeName member).resolve_left (OrderedSet.not_mem_empty _)
    have forbidden := toVarName_forbidden_iff.2 ⟨word, unguarded, spells⟩
    rw [forbiddenWords, List.mem_append, List.mem_append, List.mem_singleton] at forbidden
    rcases forbidden with (reserved | function) | workflow
    · exact usable.unreserved _ base reserved
    · exact usable.no_function _ base function
    · exact usable.no_workflow _ base workflow
  · intro unspelled
    have allowed : ∀ varName ∈ assignVarNames {} nodeNames, varName ∉ forbiddenWords := by
      intro varName member forbidden
      obtain ⟨-, nodeName, among, counter, rfl⟩ := assigned varName member
      have same := numbered_forbidden forbidden
      rw [same] at forbidden
      obtain ⟨word, unguarded, spells⟩ := toVarName_forbidden_iff.1 forbidden
      exact unspelled nodeName among word unguarded spells
    refine ⟨nodup, fun varName member => ?_, fun varName member reserved => ?_, fun varName member function => ?_,
      fun varName member workflow => ?_⟩
    · obtain ⟨-, nodeName, -, counter, rfl⟩ := assigned varName member
      exact numbered_isIdentifier nodeName counter
    · exact allowed varName member (List.mem_append_left _ (List.mem_append_left _ reserved))
    · exact allowed varName member (List.mem_append_left _ (List.mem_append_right _ function))
    · exact allowed varName member (List.mem_append_right _ (List.mem_singleton.2 workflow))

def collidingNames : List Text := ["Get Item", "Get-Item", "get Item1"].map String.toList

theorem collidingNames_usable : Usable (assignVarNames {} collidingNames) := by
  refine (assignVarNames_usable_iff collidingNames (by decide +kernel)).2 ?_
  intro nodeName member word unguarded spells
  have mixed : collidingNames.all (fun nodeName => !(toVarName nodeName).all Char.isAlpha) = true := by decide +kernel
  have here := List.all_eq_true.1 mixed nodeName member
  have forbidden := toVarName_forbidden_iff.2 ⟨word, unguarded, spells⟩
  rw [List.all_eq_true.2 (forbidden_lower _ forbidden).plain.2] at here
  cases here

/-- A node named like a reserved word, like a function of the parser, or like the variable of the workflow. -/
theorem enum_not_usable : ¬ Usable (assignVarNames {} ["Enum".toList]) ∧
    ¬ Usable (assignVarNames {} ["Embedding".toList]) ∧ ¬ Usable (assignVarNames {} ["Wf".toList]) := by
  refine ⟨fun usable => ?_, fun usable => ?_, fun usable => ?_⟩
  · exact usable.unreserved "enum".toList (by decide +kernel) (List.mem_map_of_mem (by simp))
  · exact usable.no_function "embedding".toList (by decide +kernel) (List.mem_map_of_mem (by simp))
  · exact usable.no_workflow ['w', 'f'] (by decide +kernel) rfl

end NodeAutomation.VariableNames
