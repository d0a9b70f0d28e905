import NodeAutomation.Lib.OrderedMap

/-! Maps whose iteration is live. A key keeps the place that it got when it was added, and an
iteration goes on from a place it has reached: it meets what has been added meanwhile, and not
what has been deleted. -/

namespace NodeAutomation

structure LiveMap (κ ν : Type*) where
  stored : OrderedMap κ (Nat × ν)
  next : Nat
  sorted : (stored.entries.map fun entry => entry.2.1).Pairwise (· < ·)
  below : ∀ place ∈ stored.entries.map fun entry => entry.2.1, place < next

namespace LiveMap

variable {κ ν : Type*}

def empty : LiveMap κ ν where
  stored := ∅
  next := 0
  sorted := List.Pairwise.nil
  below := by simp

instance : EmptyCollection (LiveMap κ ν) := ⟨empty⟩

def isEmpty (m : LiveMap κ ν) : Bool := m.stored.entries.isEmpty

def firstFrom (m : LiveMap κ ν) (place : Nat) (p : ν → Bool) : Option (κ × Nat × ν) :=
  m.stored.entries.find? fun entry => place ≤ entry.2.1 && p entry.2.2

variable [DecidableEq κ]

/-- The place and the value of a key. -/
def get (m : LiveMap κ ν) (k : κ) : Option (Nat × ν) := m.stored.get k

theorem places_insert {k : κ} {place : Nat} {v w : ν} {entries : List (κ × Nat × ν)}
    (found : OrderedMap.lookup k entries = some (place, w)) :
    (OrderedMap.insert k (place, v) entries).map (fun entry => entry.2.1) =
      entries.map fun entry => entry.2.1 := by
  induction entries with
  | nil => exact absurd found (by simp [OrderedMap.lookup])
  | cons entry rest ih =>
    obtain ⟨k', place', w'⟩ := entry
    by_cases same : k' = k
    · simp only [OrderedMap.lookup, same, if_true, Option.some.injEq, Prod.mk.injEq] at found
      simp only [OrderedMap.insert, same, if_true, List.map_cons, found.1]
    · simp only [OrderedMap.lookup, same, if_false] at found
      simp only [OrderedMap.insert, same, if_false, List.map_cons, ih found]

/-- The value of a key is written; a key that is missing is added at the end. -/
def put (m : LiveMap κ ν) (k : κ) (v : ν) : LiveMap κ ν :=
  match found : m.get k with
  | some (place, _) =>
    { stored := m.stored.set k (place, v)
      next := m.next
      sorted := by
        rw [OrderedMap.set, places_insert found]
        exact m.sorted
      below := by
        rw [OrderedMap.set, places_insert found]
        exact m.below }
  | none =>
    have appended : (m.stored.set k (m.next, v)).entries = m.stored.entries ++ [(k, m.next, v)] :=
      m.stored.entries_set_of_not_mem _ ((m.stored.get_eq_none_iff k).1 found)
    { stored := m.stored.set k (m.next, v)
      next := m.next + 1
      sorted := by
        rw [appended, List.map_append, List.pairwise_append]
        refine ⟨m.sorted, List.pairwise_singleton _ _, fun place member last isLast => ?_⟩
        rw [List.mem_singleton.1 isLast]
        exact m.below place member
      below := by
        intro place member
        rw [appended, List.map_append, List.mem_append] at member
        cases member with
        | inl old => exact Nat.lt_succ_of_lt (m.below place old)
        | inr new => exact List.mem_singleton.1 new ▸ Nat.lt_succ_self _ }

def delete (m : LiveMap κ ν) (k : κ) : LiveMap κ ν where
  stored := m.stored.delete k
  next := m.next
  sorted := m.sorted.sublist (List.filter_sublist.map _)
  below place member := m.below place ((List.filter_sublist.map _).subset member)

@[simp] theorem get_empty (k : κ) : (∅ : LiveMap κ ν).get k = none := rfl

variable {m : LiveMap κ ν} {k j : κ} {place : Nat} {v : ν} {p : ν → Bool}

theorem get_lt_next (found : m.get k = some (place, v)) : place < m.next :=
  m.below place (List.mem_map.2 ⟨(k, place, v), (m.stored.get_eq_some_iff _ _).1 found, rfl⟩)

theorem get_put (m : LiveMap κ ν) (k : κ) (v : ν) (j : κ) : (m.put k v).get j =
    if j = k then some (((m.get k).map Prod.fst).getD m.next, v) else m.get j := by
  rw [put]
  split
  case h_1 place w found =>
    have here : ((m.get k).map Prod.fst).getD m.next = place := by rw [found, Option.map_some, Option.getD_some]
    rw [here]
    exact OrderedMap.get_set m.stored k j (place, v)
  case h_2 absent =>
    have here : ((m.get k).map Prod.fst).getD m.next = m.next := by rw [absent, Option.map_none, Option.getD_none]
    rw [here]
    exact OrderedMap.get_set m.stored k j (m.next, v)

theorem next_le_put (m : LiveMap κ ν) (k : κ) (v : ν) : m.next ≤ (m.put k v).next := by
  rw [put]
  split
  · exact Nat.le_refl _
  · exact Nat.le_succ _

theorem get_delete (m : LiveMap κ ν) (k j : κ) : (m.delete k).get j = if j = k then none else m.get j :=
  OrderedMap.get_delete m.stored k j

theorem get_of_isEmpty (nothing : m.isEmpty = true) (k : κ) : m.get k = none := by
  rw [isEmpty, List.isEmpty_iff] at nothing
  rw [get, OrderedMap.get, nothing]
  rfl

theorem lt_of_firstFrom_none {start : Nat} (finished : m.firstFrom start p = none)
    (found : m.get k = some (place, v)) (passes : p v = true) : place < start := by
  have member := (m.stored.get_eq_some_iff _ _).1 found
  have passed := List.find?_eq_none.1 finished _ member
  simp only [passes, Bool.and_true, decide_eq_true_eq] at passed
  exact Nat.lt_of_not_le passed

theorem firstFrom_some {start : Nat} (met : m.firstFrom start p = some (k, place, v)) :
    m.get k = some (place, v) ∧ p v = true ∧ ∀ j place' w, m.get j = some (place', w) →
      p w = true → start ≤ place' → j = k ∨ place < place' := by
  obtain ⟨passes, before, after, split, failed⟩ := List.find?_eq_some_iff_append.1 met
  simp only [Bool.and_eq_true, decide_eq_true_eq] at passes
  have member : (k, place, v) ∈ m.stored.entries := by
    rw [split]
    exact List.mem_append_right _ List.mem_cons_self
  refine ⟨(m.stored.get_eq_some_iff _ _).2 member, passes.2, fun j place' w found passes' ahead => ?_⟩
  have member' := (m.stored.get_eq_some_iff _ _).1 found
  rw [split] at member'
  cases List.mem_append.1 member' with
  | inl earlier =>
    have passed := failed _ earlier
    simp [passes', ahead] at passed
  | inr rest =>
    cases List.mem_cons.1 rest with
    | inl here => exact .inl (congrArg Prod.fst here)
    | inr later =>
      have sorted := m.sorted
      rw [split, List.map_append, List.map_cons] at sorted
      have ordered := (List.pairwise_cons.1 (List.pairwise_append.1 sorted).2.1).1
      exact .inr (ordered place' (List.mem_map.2 ⟨(j, place', w), later, rfl⟩))

end LiveMap
end NodeAutomation
