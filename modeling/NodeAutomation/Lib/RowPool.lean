import NodeAutomation.Lib.OrderedMap
import Mathlib.Data.List.Sort
import Mathlib.Data.List.FinRange
import Mathlib.Algebra.Order.Group.Multiset
import Mathlib.Algebra.BigOperators.Group.Multiset.Basic

/-! A pool of rows, each with a place for every one of `k` inputs. A token goes
to the first row that lacks it at its input, or else to a new row, whose number
is the count of rows; a full row leaves the pool. Tokens are conserved unless
that number is in use. -/

namespace NodeAutomation.RowPool

variable {k : Nat} {τ : Type}

abbrev Row (k : Nat) (τ : Type) := Fin k → Option τ

namespace Row

def vacant : Row k τ := fun _ => none

def put (row : Row k τ) (i : Fin k) (x : τ) : Row k τ := Function.update row i (some x)

def Full (row : Row k τ) : Prop := ∀ i, row i ≠ none

instance (row : Row k τ) : Decidable row.Full :=
  inferInstanceAs (Decidable (∀ i, row i ≠ none))

def tokenAt (row : Row k τ) (i : Fin k) : Option (Fin k × τ) := (row i).map (i, ·)

def tokens (row : Row k τ) : Multiset (Fin k × τ) := ((List.finRange k).filterMap row.tokenAt)

end Row

abbrev Pool (k : Nat) (τ : Type) := OrderedMap Nat (Row k τ)

namespace Pool

def order (pool : Pool k τ) : List Nat := pool.keys.insertionSort (· ≤ ·)

def Lacks (pool : Pool k τ) (i : Fin k) (number : Nat) : Prop :=
  (pool.get number).bind (· i) = none

instance (pool : Pool k τ) (i : Fin k) (number : Nat) : Decidable (pool.Lacks i number) :=
  match h : (pool.get number).bind (· i) with
  | none => isTrue h
  | some _ => isFalse fun lacks => by
    simp [Lacks, h] at lacks

/-- The first row without a token at the input. -/
def lacking (pool : Pool k τ) (i : Fin k) : Option Nat :=
  pool.order.find? fun number => decide (pool.Lacks i number)

def target (pool : Pool k τ) (i : Fin k) : Nat := (pool.lacking i).getD pool.size

def taker (pool : Pool k τ) (i : Fin k) : Row k τ :=
  match pool.lacking i with
  | none => Row.vacant
  | some number => (pool.get number).getD Row.vacant

def deliver (pool : Pool k τ) (i : Fin k) (x : τ) : Pool k τ × Option (Row k τ) :=
  let row := (pool.taker i).put i x
  if row.Full then ((pool.set (pool.target i) row).delete (pool.target i), some row)
  else (pool.set (pool.target i) row, none)

/-- A new row is needed and its number is taken. -/
def Collides (pool : Pool k τ) (i : Fin k) : Prop :=
  pool.lacking i = none ∧ pool.size ∈ pool.keys

def tokens (pool : Pool k τ) : Multiset (Fin k × τ) :=
  (Multiset.ofList (pool.entries.map fun entry => entry.2.tokens)).sum

def released (result : Pool k τ × Option (Row k τ)) : Multiset (Fin k × τ) :=
  (result.2.map Row.tokens).getD 0

end Pool

theorem filterMap_update {ι α : Type} [DecidableEq ι] {indices : List ι} (nodup : indices.Nodup)
    {i : ι} (member : i ∈ indices) {f g : ι → Option α} {a : α} (others : ∀ j ≠ i, g j = f j)
    (before : f i = none) (after : g i = some a) :
    (Multiset.ofList (indices.filterMap g)) = a ::ₘ Multiset.ofList (indices.filterMap f) := by
  induction indices with
  | nil => cases member
  | cons j indices ih =>
    rw [List.nodup_cons] at nodup
    by_cases same : j = i
    · subst same
      have rest : indices.filterMap g = indices.filterMap f :=
        List.filterMap_congr fun x inside => others x fun eq => nodup.1 (eq ▸ inside)
      rw [List.filterMap_cons_some after, List.filterMap_cons_none before, rest]
      rfl
    · have later := ih nodup.2 ((List.mem_cons.1 member).resolve_left (Ne.symm same))
      cases value : f j with
      | none =>
        rw [List.filterMap_cons_none value, List.filterMap_cons_none ((others j same).trans value)]
        exact later
      | some b =>
        rw [List.filterMap_cons_some value, List.filterMap_cons_some ((others j same).trans value)]
        rw [← Multiset.cons_coe, ← Multiset.cons_coe, later, Multiset.cons_swap]

namespace Row

theorem tokens_put (row : Row k τ) {i : Fin k} (x : τ) (vacant : row i = none) :
    (row.put i x).tokens = (i, x) ::ₘ row.tokens := by
  apply filterMap_update (List.nodup_finRange k) (List.mem_finRange i)
  · intro j away
    simp only [tokenAt, put, Function.update_of_ne away]
  · simp only [tokenAt, vacant, Option.map_none]
  · simp only [tokenAt, put, Function.update_self, Option.map_some]

@[simp] theorem tokens_vacant : (vacant : Row k τ).tokens = 0 := by
  have none_ : ∀ indices : List (Fin k), indices.filterMap (vacant : Row k τ).tokenAt = [] := by
    intro indices
    exact List.filterMap_eq_nil_iff.2 fun i _ => rfl
  rw [tokens, none_]
  rfl

theorem tokens_ne_zero (row : Row k τ) {i : Fin k} (present : row i ≠ none) : row.tokens ≠ 0 := by
  cases value : row i with
  | none => exact absurd value present
  | some x =>
    have member : (i, x) ∈ row.tokens := by
      change (i, x) ∈ (List.finRange k).filterMap row.tokenAt
      refine List.mem_filterMap.2 ⟨i, List.mem_finRange i, ?_⟩
      simp only [tokenAt, value, Option.map_some]
    intro empty
    rw [empty] at member
    exact Multiset.notMem_zero _ member

end Row

namespace Pool

theorem tokens_of_get (pool : Pool k τ) {number : Nat} {row : Row k τ}
    (stored : pool.get number = some row) :
    pool.tokens = row.tokens + tokens (pool.delete number) := by
  have perm := (pool.perm_of_get stored).map fun entry => entry.2.tokens
  rw [tokens, Multiset.coe_eq_coe.2 perm, List.map_cons, ← Multiset.cons_coe, Multiset.sum_cons]
  rfl

theorem tokens_set (pool : Pool k τ) (number : Nat) (row : Row k τ) :
    tokens (pool.set number row) = row.tokens + tokens (pool.delete number) := by
  have perm := (pool.set_perm number row).map fun entry => entry.2.tokens
  rw [tokens, Multiset.coe_eq_coe.2 perm, List.map_cons, ← Multiset.cons_coe, Multiset.sum_cons]
  rfl

theorem delete_set (pool : Pool k τ) (number : Nat) (row : Row k τ) :
    tokens ((pool.set number row).delete number) = tokens (pool.delete number) := by
  have both := tokens_of_get (pool.set number row) (pool.get_set_self number row)
  rw [tokens_set] at both
  exact (add_left_cancel both).symm

theorem deliver_total (pool : Pool k τ) (i : Fin k) (x : τ) :
    tokens (pool.deliver i x).1 + released (pool.deliver i x) =
      ((pool.taker i).put i x).tokens + tokens (pool.delete (pool.target i)) := by
  simp only [deliver]
  split
  · rw [released, delete_set, add_comm]
    rfl
  · rw [released, tokens_set]
    exact add_zero _

theorem lacking_some {pool : Pool k τ} {i : Fin k} {number : Nat}
    (found : pool.lacking i = some number) :
    ∃ row, pool.get number = some row ∧ row i = none := by
  have lacks : pool.Lacks i number := of_decide_eq_true
    (List.find?_some (p := fun n => decide (pool.Lacks i n)) found)
  have listed : number ∈ pool.keys := by
    have member := List.mem_of_find?_eq_some found
    exact (List.perm_insertionSort _ _).subset member
  obtain ⟨row, stored⟩ := (pool.mem_keys_iff number).1 listed
  refine ⟨row, stored, ?_⟩
  rw [Lacks, stored] at lacks
  exact lacks

theorem lacking_none {pool : Pool k τ} {i : Fin k} (nowhere : pool.lacking i = none) {number : Nat}
    {row : Row k τ} (stored : pool.get number = some row) : row i ≠ none := by
  intro vacant
  have listed : number ∈ pool.order :=
    (List.perm_insertionSort _ _).symm.subset ((pool.mem_keys_iff number).2 ⟨row, stored⟩)
  have missed := List.find?_eq_none.1 nowhere number listed
  apply missed
  rw [decide_eq_true_eq, Lacks, stored]
  exact vacant

theorem taker_vacant (pool : Pool k τ) (i : Fin k) : pool.taker i i = none := by
  unfold taker
  cases found : pool.lacking i with
  | none => rfl
  | some number =>
    obtain ⟨row, stored, vacant⟩ := lacking_some found
    simp only [stored, Option.getD_some, vacant]

theorem deliver_conserves_iff (pool : Pool k τ) (i : Fin k) (x : τ) :
    tokens (pool.deliver i x).1 + released (pool.deliver i x) = (i, x) ::ₘ pool.tokens ↔
      ¬ pool.Collides i := by
  rw [deliver_total, Row.tokens_put _ _ (taker_vacant pool i), Multiset.cons_add,
    Multiset.cons_inj_right]
  cases found : pool.lacking i with
  | some number =>
    obtain ⟨row, stored, _⟩ := lacking_some found
    have free : ¬ pool.Collides i := by
      intro collides
      simp [collides.1] at found
    have same : (pool.taker i).tokens + tokens (pool.delete (pool.target i)) = pool.tokens := by
      rw [tokens_of_get pool stored]
      simp only [taker, target, found, stored, Option.getD_some]
    exact ⟨fun _ => free, fun _ => same⟩
  | none =>
    simp only [taker, target, found, Option.getD_none, Row.tokens_vacant, zero_add, Collides,
      true_and]
    cases stored : pool.get pool.size with
    | none =>
      have absent := (pool.get_eq_none_iff _).1 stored
      simp only [absent, not_false_eq_true, iff_true]
      rw [pool.delete_of_get_none stored]
    | some row =>
      have present := (pool.mem_keys_iff _).2 ⟨row, stored⟩
      simp only [present, not_true_eq_false, iff_false]
      intro same
      rw [tokens_of_get pool stored] at same
      exact row.tokens_ne_zero (lacking_none found stored) (right_eq_add.1 same)

end Pool
end NodeAutomation.RowPool
