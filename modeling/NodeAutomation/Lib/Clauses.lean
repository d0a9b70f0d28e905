import Mathlib.Data.List.Basic

/-! Conditions with three truth values that are joined by `AND` and `OR` without parentheses: `AND` is
evaluated before `OR`, so a condition joined by `AND` belongs to the conditions behind the last `OR`. -/

namespace NodeAutomation.Clauses

abbrev Truth := Option Bool

namespace Truth

def and : Truth → Truth → Truth
  | some false, _ => some false
  | some true, other => other
  | none, some false => some false
  | none, _ => none

def or : Truth → Truth → Truth
  | some true, _ => some true
  | some false, other => other
  | none, some true => some true
  | none, _ => none

def not : Truth → Truth := Option.map (! ·)

def all (truths : List Truth) : Truth := truths.foldr and (some true)

def any (truths : List Truth) : Truth := truths.foldr or (some false)

theorem and_eq_true_iff (a b : Truth) : and a b = some true ↔ a = some true ∧ b = some true := by
  rcases a with _ | _ | _ <;> rcases b with _ | _ | _ <;> decide

theorem or_eq_true_iff (a b : Truth) : or a b = some true ↔ a = some true ∨ b = some true := by
  rcases a with _ | _ | _ <;> rcases b with _ | _ | _ <;> decide

theorem all_eq_true_iff (truths : List Truth) : all truths = some true ↔ ∀ truth ∈ truths, truth = some true := by
  induction truths with
  | nil => simp [all]
  | cons truth truths ih =>
    rw [List.forall_mem_cons, ← ih]
    exact and_eq_true_iff truth (all truths)

theorem any_eq_true_iff (truths : List Truth) : any truths = some true ↔ some true ∈ truths := by
  induction truths with
  | nil => simp [any]
  | cons truth truths ih =>
    rw [List.mem_cons, ← ih, @eq_comm _ (some true)]
    exact or_eq_true_iff truth (any truths)

end Truth

inductive Connector where
  | and
  | or
  deriving DecidableEq

section

variable {γ : Type*}

/-- The conditions between two `OR`s; the connector of the first condition is not written. -/
def groups : List (Connector × γ) → List (List γ)
  | [] => []
  | (_, condition) :: [] => [[condition]]
  | (_, condition) :: (.or, next) :: clauses => [condition] :: groups ((.or, next) :: clauses)
  | (_, condition) :: (.and, next) :: clauses =>
    match groups ((.and, next) :: clauses) with
    | [] => [[condition]]
    | group :: rest => (condition :: group) :: rest

def truth (eval : γ → Truth) (clauses : List (Connector × γ)) : Truth :=
  if clauses.isEmpty then some true
  else Truth.any ((groups clauses).map fun group => Truth.all (group.map eval))

variable {eval : γ → Truth} {clauses : List (Connector × γ)}

def Holds (eval : γ → Truth) (condition : γ) : Prop := eval condition = some true

theorem truth_iff : truth eval clauses = some true ↔
    clauses = [] ∨ ∃ group ∈ groups clauses, ∀ condition ∈ group, Holds eval condition := by
  cases clauses with
  | nil => simp [truth]
  | cons clause clauses =>
    rw [truth, if_neg (by simp), Truth.any_eq_true_iff, List.mem_map]
    simp only [Truth.all_eq_true_iff, List.forall_mem_map, Holds, reduceCtorEq, false_or]

theorem groups_and (connector : Connector) (condition : γ) (conditions : List γ) :
    groups ((connector, condition) :: conditions.map (.and, ·)) = [condition :: conditions] := by
  induction conditions generalizing connector condition with
  | nil => rfl
  | cons next conditions ih =>
    rw [List.map_cons, groups, ih .and next]

theorem groups_or (conditions : List γ) (last : γ) :
    groups ((conditions ++ [last]).map (.or, ·)) = (conditions ++ [last]).map ([·]) := by
  induction conditions with
  | nil => rfl
  | cons condition conditions ih => cases conditions <;> exact congrArg ([condition] :: ·) ih

theorem groups_or_and (conditions : List γ) (last more : γ) :
    groups (conditions.map (.or, ·) ++ [(.or, last), (.and, more)]) = conditions.map ([·]) ++ [[last, more]] := by
  induction conditions with
  | nil => rfl
  | cons condition conditions ih => cases conditions <;> exact congrArg ([condition] :: ·) ih

theorem truth_and (conditions : List γ) :
    truth eval (conditions.map (.and, ·)) = some true ↔ ∀ condition ∈ conditions, Holds eval condition := by
  cases conditions with
  | nil => simp [truth]
  | cons condition conditions => simp [truth_iff, groups_and]

theorem truth_or {conditions : List γ} (some_condition : conditions ≠ []) :
    truth eval (conditions.map (.or, ·)) = some true ↔ ∃ condition ∈ conditions, Holds eval condition := by
  obtain ⟨front, last, rfl⟩ := List.eq_nil_or_concat' conditions |>.resolve_left some_condition
  rw [truth_iff, groups_or]
  simp

theorem truth_or_and (conditions : List γ) (last more : γ) :
    truth eval (conditions.map (.or, ·) ++ [(.or, last), (.and, more)]) = some true ↔
      (∃ condition ∈ conditions, Holds eval condition) ∨ Holds eval last ∧ Holds eval more := by
  rw [truth_iff, groups_or_and]
  simp

end

end NodeAutomation.Clauses
