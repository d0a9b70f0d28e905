import Mathlib.Data.List.Perm.Subperm
import Mathlib.Logic.Relation

/-! A search with a queue, which meets every place at most once: it meets the places
that can be reached, and no others. -/

namespace NodeAutomation.QueueSearch

variable {α : Type*} [DecidableEq α]

/-- What is met when the queue is empty. -/
def visit (next : α → List α) : (fuel : Nat) → (queue visited : List α) → List α
  | 0, _, visited => visited
  | _ + 1, [], visited => visited
  | fuel + 1, place :: queue, visited =>
    let new := (next place).filter (· ∉ visited)
    visit next fuel (queue ++ new) (visited ++ new)

variable {next : α → List α} {pool queue visited : List α} {start : α}

/-- What has left the queue leads to visited places only. -/
structure Met (next : α → List α) (pool : List α) (start : α) (queue visited : List α) : Prop where
  begun : start ∈ visited
  nodup : visited.Nodup
  inside : ∀ a ∈ visited, a ∈ pool
  reached : ∀ a ∈ visited, Relation.ReflTransGen (fun a b => b ∈ next a) start a
  queued : ∀ a ∈ queue, a ∈ visited
  closed : ∀ a ∈ visited, a ∈ queue ∨ ∀ b ∈ next a, b ∈ visited

theorem Met.step {place : α} (nodup : (next place).Nodup) (inside : ∀ b ∈ next place, b ∈ pool)
    (met : Met next pool start (place :: queue) visited) :
    Met next pool start (queue ++ (next place).filter (· ∉ visited))
      (visited ++ (next place).filter (· ∉ visited)) := by
  have here := met.queued place List.mem_cons_self
  refine ⟨List.mem_append_left _ met.begun, ?_, fun a member => ?_, fun a member => ?_, fun a member => ?_,
    fun a member => ?_⟩
  · refine List.nodup_append.2 ⟨met.nodup, nodup.filter _, fun a old b new same => ?_⟩
    exact absurd (same ▸ old) (by simpa using (List.mem_filter.1 new).2)
  · cases List.mem_append.1 member with
    | inl old => exact met.inside a old
    | inr new => exact inside a (List.mem_filter.1 new).1
  · cases List.mem_append.1 member with
    | inl old => exact met.reached a old
    | inr new => exact (met.reached place here).tail (List.mem_filter.1 new).1
  · cases List.mem_append.1 member with
    | inl old => exact List.mem_append_left _ (met.queued a (List.mem_cons_of_mem place old))
    | inr new => exact List.mem_append_right _ new
  · have followed : ∀ b ∈ next place, b ∈ visited ++ (next place).filter (· ∉ visited) := by
      intro b follows
      by_cases old : b ∈ visited
      · exact List.mem_append_left _ old
      · exact List.mem_append_right _ (List.mem_filter.2 ⟨follows, by simpa using old⟩)
    cases List.mem_append.1 member with
    | inr new => exact .inl (List.mem_append_right _ new)
    | inl old =>
      cases met.closed a old with
      | inr follows => exact .inr fun b step => List.mem_append_left _ (follows b step)
      | inl queued =>
        cases List.mem_cons.1 queued with
        | inl same => exact .inr (same ▸ followed)
        | inr later => exact .inl (List.mem_append_left _ later)

omit [DecidableEq α] in
theorem Met.length_le (met : Met next pool start queue visited) : visited.length ≤ pool.length :=
  (List.subperm_of_subset met.nodup met.inside).length_le

theorem Met.visit (nodup : ∀ a, (next a).Nodup) (inside : ∀ a, ∀ b ∈ next a, b ∈ pool) (fuel : Nat)
    (met : Met next pool start queue visited) (enough : queue.length + pool.length ≤ fuel + visited.length) :
    Met next pool start [] (visit next fuel queue visited) := by
  induction fuel generalizing queue visited with
  | zero =>
    have short := met.length_le
    have empty : queue = [] := List.eq_nil_of_length_eq_zero (by omega)
    exact empty ▸ met
  | succ fuel ih =>
    cases queue with
    | nil => exact met
    | cons place queue =>
      refine ih (met.step (nodup place) (inside place)) ?_
      rw [List.length_cons] at enough
      rw [List.length_append, List.length_append]
      omega

variable (next) in
theorem mem_visit_iff (nodup : ∀ a, (next a).Nodup) (inside : ∀ a, ∀ b ∈ next a, b ∈ pool)
    (initial : start ∈ pool) :
    (visit next pool.length [start] [start]).Nodup ∧ ∀ a, a ∈ visit next pool.length [start] [start] ↔
      Relation.ReflTransGen (fun a b => b ∈ next a) start a := by
  have first : Met next pool start [start] [start] := by
    refine ⟨List.mem_cons_self, by simp, by simpa using initial, ?_, fun a member => member,
      fun a member => .inl member⟩
    simpa using Relation.ReflTransGen.refl
  have last := first.visit nodup inside pool.length (by simp [Nat.add_comm])
  refine ⟨last.nodup, fun a => ⟨last.reached a, fun path => ?_⟩⟩
  induction path with
  | refl => exact last.begun
  | tail _ step ih => exact (last.closed _ ih).resolve_left List.not_mem_nil _ step

end NodeAutomation.QueueSearch
