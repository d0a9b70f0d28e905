import NodeAutomation.Lib.OrderedMap
import Mathlib.Order.Lattice

/-! Tables of a database: rows under ids that a sequence assigns, and a partial unique index,
which no two of the rows it covers agree on. A statement that would break the index is refused. -/

namespace NodeAutomation

structure IndexedTable {ν β : Type*} (index : ν → Option β) where
  rows : OrderedMap Nat ν
  sequence : Nat
  below : ∀ id row, rows.get id = some row → id < sequence
  unique : ∀ id id' row row' key, rows.get id = some row → rows.get id' = some row' →
    index row = some key → index row' = some key → id = id'

namespace IndexedTable

variable {ν β : Type*} {index : ν → Option β}

def empty : IndexedTable index where
  rows := ∅
  sequence := 0
  below id row found := absurd found (by simp)
  unique id id' row row' key found := absurd found (by simp)

instance : EmptyCollection (IndexedTable index) := ⟨empty⟩

def get (table : IndexedTable index) (id : Nat) : Option ν := table.rows.get id

@[simp] theorem get_empty (id : Nat) : (∅ : IndexedTable index).get id = none := rfl

def Taken (table : IndexedTable index) (id : Nat) (key : β) : Prop :=
  ∃ entry ∈ table.rows.entries, entry.1 ≠ id ∧ index entry.2 = some key

instance [DecidableEq β] (table : IndexedTable index) (id : Nat) (key : β) : Decidable (table.Taken id key) :=
  inferInstanceAs (Decidable (∃ entry ∈ table.rows.entries, entry.1 ≠ id ∧ index entry.2 = some key))

def Free (table : IndexedTable index) (id : Nat) (row : ν) : Prop :=
  ∀ key ∈ index row, ¬ table.Taken id key

instance [DecidableEq β] (table : IndexedTable index) (id : Nat) (row : ν) : Decidable (table.Free id row) :=
  inferInstanceAs (Decidable (∀ key ∈ index row, ¬ table.Taken id key))

theorem taken_iff {table : IndexedTable index} {id : Nat} {key : β} :
    table.Taken id key ↔ ∃ other row, table.get other = some row ∧ other ≠ id ∧ index row = some key := by
  refine ⟨fun h => ?_, fun h => ?_⟩
  · obtain ⟨entry, member, apart, covered⟩ := h
    exact ⟨entry.1, entry.2, (table.rows.get_eq_some_iff _ _).2 member, apart, covered⟩
  · obtain ⟨other, row, found, apart, covered⟩ := h
    exact ⟨(other, row), (table.rows.get_eq_some_iff _ _).1 found, apart, covered⟩

theorem get_sequence (table : IndexedTable index) : table.get table.sequence = none := by
  rw [Option.eq_none_iff_forall_ne_some]
  intro row found
  exact Nat.lt_irrefl _ (table.below _ row found)

theorem unique_get {table : IndexedTable index} {id id' : Nat} {row row' : ν} {key : β}
    (found : table.get id = some row) (found' : table.get id' = some row')
    (covered : index row = some key) (covered' : index row' = some key) : id = id' :=
  table.unique id id' row row' key found found' covered covered'

def put (table : IndexedTable index) (id : Nat) (row : ν) (reached : id ≤ table.sequence)
    (free : table.Free id row) : IndexedTable index where
  rows := table.rows.set id row
  sequence := max table.sequence (id + 1)
  below other row' found := by
    rw [OrderedMap.get_set] at found
    split at found
    case isTrue same => omega
    case isFalse apart =>
      have := table.below other row' found
      omega
  unique first second row₁ row₂ key found₁ found₂ covered₁ covered₂ := by
    rw [OrderedMap.get_set] at found₁ found₂
    by_cases here : first = id
    · by_cases there : second = id
      · rw [here, there]
      · rw [if_pos here, Option.some.injEq] at found₁
        rw [if_neg there] at found₂
        rw [← found₁] at covered₁
        exact absurd (taken_iff.2 ⟨second, row₂, found₂, there, covered₂⟩) (free key covered₁)
    · rw [if_neg here] at found₁
      by_cases there : second = id
      · rw [if_pos there, Option.some.injEq] at found₂
        rw [← found₂] at covered₂
        exact absurd (taken_iff.2 ⟨first, row₁, found₁, here, covered₁⟩) (free key covered₂)
      · rw [if_neg there] at found₂
        exact table.unique first second row₁ row₂ key found₁ found₂ covered₁ covered₂

structure Puts (table table' : IndexedTable index) (id : Nat) (row : ν) : Prop where
  sequence : table.sequence ≤ table'.sequence
  get : ∀ other, table'.get other = if other = id then some row else table.get other

theorem puts_put {table : IndexedTable index} {id : Nat} {row : ν} (reached : id ≤ table.sequence)
    (free : table.Free id row) : table.Puts (table.put id row reached free) id row where
  sequence := le_max_left _ _
  get other := OrderedMap.get_set table.rows id other row

theorem Puts.self {table table' : IndexedTable index} {id : Nat} {row : ν} (h : table.Puts table' id row) :
    table'.get id = some row := by
  rw [h.get, if_pos rfl]

theorem Puts.of_ne {table table' : IndexedTable index} {id other : Nat} {row : ν} (h : table.Puts table' id row)
    (apart : other ≠ id) : table'.get other = table.get other := by
  rw [h.get, if_neg apart]

/-- `UPDATE` of the row under an id, where it passes; it is refused with `none`. -/
def update [DecidableEq β] (table : IndexedTable index) (id : Nat) (passes : ν → Bool) (change : ν → ν) :
    Option (IndexedTable index × Nat) :=
  match found : table.get id with
  | none => some (table, 0)
  | some row =>
    if passes row then
      if free : table.Free id (change row) then
        some (table.put id (change row) (Nat.le_of_lt (table.below id row found)) free, 1)
      else none
    else some (table, 0)

theorem update_cases [DecidableEq β] (table : IndexedTable index) (id : Nat) (passes : ν → Bool) (change : ν → ν) :
    (table.update id passes change = some (table, 0) ∧
        ∀ row, table.get id = some row → passes row = false) ∨
      ∃ row, table.get id = some row ∧ passes row = true ∧
        ((∃ table', table.update id passes change = some (table', 1) ∧ table.Free id (change row) ∧
            table.Puts table' id (change row)) ∨
          (table.update id passes change = none ∧ ¬ table.Free id (change row))) := by
  rw [update]
  split
  case h_1 absent =>
    refine .inl ⟨rfl, fun row found => ?_⟩
    rw [absent] at found
    exact absurd found (by simp)
  case h_2 row found =>
    by_cases pass : passes row = true
    · rw [if_pos pass]
      refine .inr ⟨row, found, pass, ?_⟩
      by_cases free : table.Free id (change row)
      · rw [dif_pos free]
        exact .inl ⟨_, rfl, free, puts_put _ free⟩
      · rw [dif_neg free]
        exact .inr ⟨rfl, free⟩
    · rw [if_neg pass]
      refine .inl ⟨rfl, fun other known => ?_⟩
      rw [found, Option.some.injEq] at known
      rw [← known]
      exact Bool.eq_false_iff.2 pass

def find [DecidableEq β] (table : IndexedTable index) (key : β) : Option (Nat × ν) :=
  table.rows.entries.find? fun entry => index entry.2 = some key

theorem find_some [DecidableEq β] {table : IndexedTable index} {key : β} {entry : Nat × ν}
    (found : table.find key = some entry) : table.get entry.1 = some entry.2 ∧ index entry.2 = some key :=
  ⟨(table.rows.get_eq_some_iff _ _).2 (List.mem_of_find?_eq_some found),
    by simpa using List.find?_some found⟩

theorem find_none [DecidableEq β] {table : IndexedTable index} {key : β}
    (absent : table.find key = none) (id : Nat) : ¬ table.Taken id key := by
  intro taken
  obtain ⟨entry, member, -, covered⟩ := taken
  exact absurd covered (by simpa using List.find?_eq_none.1 absent entry member)

theorem free_of_found [DecidableEq β] {table : IndexedTable index} {key : β} {entry : Nat × ν} {row : ν}
    (found : table.find key = some entry) (covered : index row = index entry.2) : table.Free entry.1 row := by
  intro key' covers taken
  obtain ⟨other, row', known, apart, covered'⟩ := taken_iff.1 taken
  rw [Option.mem_def, covered, (find_some found).2] at covers
  rw [← covers] at covered'
  exact apart (unique_get known (find_some found).1 covered' (find_some found).2)

theorem free_of_absent [DecidableEq β] {table : IndexedTable index} {key : β} {row : ν}
    (absent : table.find key = none) (covered : index row = some key) (id : Nat) : table.Free id row := by
  intro key' covers taken
  rw [Option.mem_def, covered, Option.some.injEq] at covers
  exact find_none absent id (covers ▸ taken)

section

variable [DecidableEq β] (table : IndexedTable index) (key : β) (fresh : ν) (change : ν → ν)
  (covered : index fresh = some key) (keeps : ∀ row, index (change row) = index row)

/-- `INSERT … ON CONFLICT DO UPDATE`: the row that has the key is changed, or there is none and
the fresh one comes under the next id of the sequence. -/
def upsert : IndexedTable index × Nat :=
  match found : table.find key with
  | some entry =>
    (table.put entry.1 (change entry.2) (Nat.le_of_lt (table.below _ _ (find_some found).1))
      (free_of_found found (keeps entry.2)), entry.1)
  | none =>
    (table.put table.sequence fresh (Nat.le_refl _) (free_of_absent found covered _), table.sequence)

theorem upsert_cases : ∃ row,
    table.Puts (table.upsert key fresh change covered keeps).1
      (table.upsert key fresh change covered keeps).2 row ∧
    ((∃ old, table.get (table.upsert key fresh change covered keeps).2 = some old ∧
        index old = some key ∧ row = change old) ∨
      (table.upsert key fresh change covered keeps).2 = table.sequence ∧ row = fresh) := by
  rw [upsert]
  split
  case h_1 entry found =>
    exact ⟨change entry.2, puts_put (Nat.le_of_lt (table.below _ _ (find_some found).1)) (free_of_found found (keeps entry.2)),
      .inl ⟨entry.2, (find_some found).1, (find_some found).2, rfl⟩⟩
  case h_2 absent =>
    exact ⟨fresh, puts_put (Nat.le_refl _) (free_of_absent absent covered _), .inr ⟨rfl, rfl⟩⟩

variable {table key fresh change covered keeps}

theorem eq_upsert {id : Nat} {other : ν} (found : table.get id = some other) (covered' : index other = some key) :
    id = (table.upsert key fresh change covered keeps).2 := by
  rw [upsert]
  split
  case h_1 entry known => exact unique_get found (find_some known).1 covered' (find_some known).2
  case h_2 absent =>
    exact absurd (taken_iff.2 ⟨id, other, found, Nat.ne_of_lt (table.below id other found), covered'⟩)
      (find_none absent table.sequence)

end

/-- `DELETE` of the rows under these ids that pass. -/
def deleteWhere (table : IndexedTable index) (passes : Nat → ν → Bool) : IndexedTable index where
  rows := ⟨table.rows.entries.filter fun entry => !passes entry.1 entry.2,
    table.rows.nodup.sublist (List.filter_sublist.map Prod.fst)⟩
  sequence := table.sequence
  below id row found := by
    rw [OrderedMap.get_eq_some_iff] at found
    exact table.below id row ((table.rows.get_eq_some_iff _ _).2 (List.mem_of_mem_filter found))
  unique id id' row row' key found found' := by
    rw [OrderedMap.get_eq_some_iff] at found found'
    exact table.unique id id' row row' key ((table.rows.get_eq_some_iff _ _).2 (List.mem_of_mem_filter found))
      ((table.rows.get_eq_some_iff _ _).2 (List.mem_of_mem_filter found'))

theorem get_deleteWhere {table : IndexedTable index} {passes : Nat → ν → Bool} {id : Nat} {row : ν} :
    (table.deleteWhere passes).get id = some row ↔ table.get id = some row ∧ passes id row = false := by
  rw [get, get, OrderedMap.get_eq_some_iff, OrderedMap.get_eq_some_iff, deleteWhere]
  simp only [List.mem_filter, Bool.not_eq_eq_eq_not, Bool.not_true]

end IndexedTable
end NodeAutomation
