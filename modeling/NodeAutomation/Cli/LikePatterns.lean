import NodeAutomation.Lib.Wildcards

/-! The like filter of data tables (`packages/cli/src/modules/data-table/utils/sql-utils.ts`): a
pattern in which only `%` is a wildcard, as a `GLOB` pattern for SQLite and as a `LIKE` pattern with
the escape character `\` for Postgres. The operators are the documented ones. -/

namespace NodeAutomation.DataTableFilters
open Wildcards

abbrev Text := List Char

structure GlobSet where
  negated : Bool
  ranges : List (Char × Char) := []

def GlobSet.add (set : GlobSet) (low high : Char) : GlobSet :=
  { set with ranges := set.ranges ++ [(low, high)] }

def GlobSet.accepts (set : GlobSet) (c : Char) : Bool :=
  (set.ranges.any fun (low, high) => low ≤ c && c ≤ high) != set.negated

/-- The tokens of a `GLOB` pattern, behind a bracket with the set that it began. In a set a `]` in
front is a letter; a set that does not end matches nothing. -/
def globTokens : Option GlobSet → Text → Option (List (Token Char))
  | none, [] => some []
  | none, '*' :: rest => (globTokens none rest).map (.any :: ·)
  | none, '?' :: rest => (globTokens none rest).map (.one (fun _ => true) :: ·)
  | none, '[' :: '^' :: ']' :: rest => globTokens (some ⟨true, [(']', ']')]⟩) rest
  | none, '[' :: '^' :: rest => globTokens (some ⟨true, []⟩) rest
  | none, '[' :: ']' :: rest => globTokens (some ⟨false, [(']', ']')]⟩) rest
  | none, '[' :: rest => globTokens (some ⟨false, []⟩) rest
  | none, c :: rest => (globTokens none rest).map (.one (· == c) :: ·)
  | some _, [] => none
  | some set, ']' :: rest => (globTokens none rest).map (.one set.accepts :: ·)
  | some set, low :: '-' :: ']' :: rest =>
    (globTokens none rest).map (.one ((set.add low low).add '-' '-').accepts :: ·)
  | some set, low :: '-' :: high :: rest => globTokens (some (set.add low high)) rest
  | some set, c :: rest => globTokens (some (set.add c c)) rest

/-- `text GLOB pattern`. -/
def glob (text pattern : Text) : Bool :=
  match globTokens none pattern with
  | none => false
  | some tokens => matchTokens tokens text

def likeToken (c : Char) : Token Char :=
  if c = '%' then .any else if c = '_' then .one fun _ => true else .one (· == c)

/-- The tokens of a `LIKE` pattern; it must not end with the escape character. -/
def likeTokens (escape : Char) : Text → Option (List (Token Char))
  | [] => some []
  | c :: rest =>
    if c = escape then
      match rest with
      | [] => none
      | d :: rest => (likeTokens escape rest).map (.one (· == d) :: ·)
    else (likeTokens escape rest).map (likeToken c :: ·)

/-- `text LIKE pattern ESCAPE escape`, where case counts. -/
def like (escape : Char) (text pattern : Text) : Option Bool :=
  (likeTokens escape pattern).map (matchTokens · text)

def toSqliteGlobFromPercent (input : Text) : Text :=
  input.flatMap fun ch =>
    if ch = '%' then ['*']
    else if ch = '[' then ['[', '[', ']']
    else if ch = ']' then ['[', ']', ']']
    else if ch = '*' then ['[', '*', ']']
    else if ch = '?' then ['[', '?', ']']
    else [ch]

def escapeLikeSpecials (input : Text) : Text :=
  (input.flatMap fun c => if c = '\\' then ['\\', '\\'] else [c]).flatMap fun c =>
    if c = '_' then ['\\', '_'] else [c]

theorem accepts_single (c d : Char) : (⟨false, [(c, c)]⟩ : GlobSet).accepts d = true ↔ d = c := by
  simp only [GlobSet.accepts, List.any_cons, List.any_nil, Bool.or_false, Bool.bne_false, Bool.and_eq_true,
    decide_eq_true_iff]
  constructor
  · rintro ⟨low, high⟩
    exact Char.le_antisymm high low
  · rintro rfl
    exact ⟨Char.le_refl _, Char.le_refl _⟩

theorem reads_self {c : Char} (plain : c ≠ '%') : Reads '%' c (.one (· == c)) :=
  .one plain fun _ => beq_iff_eq

theorem reads_single {c : Char} (plain : c ≠ '%') : Reads '%' c (.one (⟨false, [(c, c)]⟩ : GlobSet).accepts) :=
  .one plain (accepts_single c)

theorem reads_globTokens (pattern : Text) : ∃ tokens,
    globTokens none (toSqliteGlobFromPercent pattern) = some tokens ∧
      List.Forall₂ (Reads '%') pattern tokens := by
  induction pattern with
  | nil => exact ⟨[], rfl, .nil⟩
  | cons c pattern ih =>
    obtain ⟨tokens, read, reads⟩ := ih
    rw [toSqliteGlobFromPercent, List.flatMap_cons]
    change ∃ tokens, globTokens none (_ ++ toSqliteGlobFromPercent pattern) = _ ∧ _
    by_cases wild : c = '%'
    · subst wild
      exact ⟨_, by simp [globTokens, read], .cons .any reads⟩
    by_cases opening : c = '['
    · subst opening
      exact ⟨_, by simp [globTokens, read, GlobSet.add], .cons (reads_single wild) reads⟩
    by_cases closing : c = ']'
    · subst closing
      exact ⟨_, by simp [globTokens, read], .cons (reads_single wild) reads⟩
    by_cases star : c = '*'
    · subst star
      exact ⟨_, by simp [globTokens, read, GlobSet.add], .cons (reads_single wild) reads⟩
    by_cases question : c = '?'
    · subst question
      exact ⟨_, by simp [globTokens, read, GlobSet.add], .cons (reads_single wild) reads⟩
    · exact ⟨_, by simp [globTokens, read, wild, opening, closing, star, question], .cons (reads_self wild) reads⟩

theorem escapeLikeSpecials_cons (c : Char) (pattern : Text) : escapeLikeSpecials (c :: pattern) =
    (if c = '\\' then ['\\', '\\'] else if c = '_' then ['\\', '_'] else [c]) ++ escapeLikeSpecials pattern := by
  rw [escapeLikeSpecials, List.flatMap_cons, List.flatMap_append]
  by_cases backslash : c = '\\'
  · rw [if_pos backslash, if_pos backslash]
    rfl
  · rw [if_neg backslash, if_neg backslash, List.flatMap_singleton]
    rfl

theorem reads_likeTokens (pattern : Text) : ∃ tokens,
    likeTokens '\\' (escapeLikeSpecials pattern) = some tokens ∧ List.Forall₂ (Reads '%') pattern tokens := by
  induction pattern with
  | nil => exact ⟨[], rfl, .nil⟩
  | cons c pattern ih =>
    obtain ⟨tokens, read, reads⟩ := ih
    rw [escapeLikeSpecials_cons]
    by_cases backslash : c = '\\'
    · subst backslash
      exact ⟨_, by simp [likeTokens, read], .cons (reads_self (by decide)) reads⟩
    by_cases underscore : c = '_'
    · subst underscore
      exact ⟨_, by simp [likeTokens, read], .cons (reads_self (by decide)) reads⟩
    have onward : likeTokens '\\' (c :: escapeLikeSpecials pattern) = some (likeToken c :: tokens) := by
      unfold likeTokens
      rw [if_neg backslash, read]
      rfl
    rw [if_neg backslash, if_neg underscore]
    refine ⟨_, onward, .cons ?_ reads⟩
    by_cases wild : c = '%'
    · subst wild
      exact .any
    · rw [likeToken, if_neg wild, if_neg underscore]
      exact reads_self wild

theorem glob_iff_denotes (pattern text : Text) :
    glob text (toSqliteGlobFromPercent pattern) = true ↔ Denotes '%' pattern text := by
  obtain ⟨tokens, read, reads⟩ := reads_globTokens pattern
  rw [glob, read]
  exact matchTokens_iff_denotes reads

theorem like_iff_denotes (pattern text : Text) :
    like '\\' text (escapeLikeSpecials pattern) = some true ↔ Denotes '%' pattern text := by
  obtain ⟨tokens, read, reads⟩ := reads_likeTokens pattern
  rw [like, read, Option.map_some, Option.some.injEq]
  exact matchTokens_iff_denotes reads

/-- Both patterns match the same texts: those in which `%` stands for any string and each other
character for itself. -/
theorem like_eq_glob (pattern text : Text) :
    (glob text (toSqliteGlobFromPercent pattern) = true ↔
        like '\\' text (escapeLikeSpecials pattern) = some true) ∧
      (glob text (toSqliteGlobFromPercent pattern) = true ↔ Denotes '%' pattern text) :=
  ⟨(glob_iff_denotes pattern text).trans (like_iff_denotes pattern text).symm, glob_iff_denotes pattern text⟩

example : glob "a_*[b]".toList (toSqliteGlobFromPercent "%_*[b]".toList) = true := by decide

end NodeAutomation.DataTableFilters
