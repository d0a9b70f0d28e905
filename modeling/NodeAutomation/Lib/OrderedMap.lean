import Mathlib.Algebra.GroupWithZero.Nat
import Mathlib.Data.List.Nodup
import Mathlib.Data.List.Perm.Basic

/-! Finite maps that remember insertion order: a write to a present key keeps
its place, a write to an absent key appends, a deletion closes the gap. The
entries carry the proof that no key is stored twice. -/

namespace NodeAutomation

structure OrderedMap (κ ν : Type*) where
  entries : List (κ × ν)
  nodup : (entries.map Prod.fst).Nodup

namespace OrderedMap

variable {κ ν μ : Type*}

@[ext] theorem ext {m n : OrderedMap κ ν} (h : m.entries = n.entries) : m = n := by
  cases m
  cases n
  congr

def keys (m : OrderedMap κ ν) : List κ := m.entries.map Prod.fst

def values (m : OrderedMap κ ν) : List ν := m.entries.map Prod.snd

def size (m : OrderedMap κ ν) : Nat := m.entries.length

def empty : OrderedMap κ ν := ⟨[], List.nodup_nil⟩

instance : EmptyCollection (OrderedMap κ ν) := ⟨empty⟩

def mapValues (m : OrderedMap κ ν) (f : ν → μ) : OrderedMap κ μ :=
  ⟨m.entries.map fun entry => (entry.1, f entry.2), by
    simpa [List.map_map, Function.comp_def] using m.nodup⟩

@[simp] theorem entries_empty : (∅ : OrderedMap κ ν).entries = [] := rfl

variable (m : OrderedMap κ ν)

theorem size_eq_zero_iff : m.size = 0 ↔ m = ∅ := by
  constructor
  · intro h
    exact ext (List.length_eq_zero_iff.mp h)
  · rintro rfl
    rfl

@[simp] theorem keys_mapValues (f : ν → μ) : (m.mapValues f).keys = m.keys := by
  simp [keys, mapValues, List.map_map, Function.comp_def]

@[simp] theorem size_mapValues (f : ν → μ) : (m.mapValues f).size = m.size := by
  simp [size, mapValues]

@[simp] theorem values_mapValues (f : ν → μ) :
    (m.mapValues f).values = m.values.map f := by
  simp [values, mapValues, List.map_map, Function.comp_def]

theorem mapValues_mapValues {ρ : Type*} (f : ν → μ) (g : μ → ρ) :
    (m.mapValues f).mapValues g = m.mapValues fun v => g (f v) := by
  apply OrderedMap.ext
  simp [mapValues, List.map_map, Function.comp_def]

theorem mapValues_eq_iff {f g : ν → μ} :
    m.mapValues f = m.mapValues g ↔ ∀ v ∈ m.values, f v = g v := by
  rw [OrderedMap.ext_iff]
  simp only [mapValues, values, List.map_inj_left, List.mem_map, Prod.mk.injEq, true_and]
  constructor
  · rintro h v ⟨entry, member, rfl⟩
    exact h entry member
  · intro h entry member
    exact h entry.2 ⟨entry, member, rfl⟩

variable [DecidableEq κ]

instance [DecidableEq ν] : DecidableEq (OrderedMap κ ν) := fun m n =>
  decidable_of_iff (m.entries = n.entries) ⟨ext, congrArg entries⟩

def lookup (k : κ) : List (κ × ν) → Option ν
  | [] => none
  | (k', v) :: rest => if k' = k then some v else lookup k rest

def insert (k : κ) (v : ν) : List (κ × ν) → List (κ × ν)
  | [] => [(k, v)]
  | (k', v') :: rest => if k' = k then (k, v) :: rest else (k', v') :: insert k v rest

theorem mem_fst_insert (k : κ) (v : ν) (entries : List (κ × ν)) (j : κ) :
    j ∈ (insert k v entries).map Prod.fst ↔ j = k ∨ j ∈ entries.map Prod.fst := by
  induction entries with
  | nil => simp [insert]
  | cons entry rest ih =>
    obtain ⟨k', v'⟩ := entry
    by_cases same : k' = k
    · simp [insert, same]
    · simp only [insert, same, if_false, List.map_cons, List.mem_cons, ih]
      tauto

theorem nodup_insert (k : κ) (v : ν) (entries : List (κ × ν))
    (h : (entries.map Prod.fst).Nodup) : ((insert k v entries).map Prod.fst).Nodup := by
  induction entries with
  | nil => simp [insert]
  | cons entry rest ih =>
    obtain ⟨k', v'⟩ := entry
    simp only [List.map_cons, List.nodup_cons] at h
    by_cases same : k' = k
    · subst same
      simpa [insert] using h
    · simp only [insert, same, if_false, List.map_cons, List.nodup_cons]
      refine ⟨?_, ih h.2⟩
      rw [mem_fst_insert]
      rintro (rfl | present)
      · exact same rfl
      · exact h.1 present

def get (m : OrderedMap κ ν) (k : κ) : Option ν := lookup k m.entries

def set (m : OrderedMap κ ν) (k : κ) (v : ν) : OrderedMap κ ν :=
  ⟨insert k v m.entries, nodup_insert k v m.entries m.nodup⟩

def delete (m : OrderedMap κ ν) (k : κ) : OrderedMap κ ν :=
  ⟨m.entries.filter (fun entry => entry.1 ≠ k),
    m.nodup.sublist (List.filter_sublist.map Prod.fst)⟩

/-- The entries whose key passes. -/
def filterKeys (m : OrderedMap κ ν) (p : κ → Bool) : OrderedMap κ ν :=
  ⟨m.entries.filter fun entry => p entry.1, m.nodup.sublist (List.filter_sublist.map Prod.fst)⟩

def filterValues (m : OrderedMap κ ν) (p : ν → Bool) : OrderedMap κ ν :=
  ⟨m.entries.filter fun entry => p entry.2,
    m.nodup.sublist (List.filter_sublist.map Prod.fst)⟩

def deleteMany (m : OrderedMap κ ν) (ks : List κ) : OrderedMap κ ν := ks.foldl delete m

def contains (m : OrderedMap κ ν) (k : κ) : Bool := (m.get k).isSome

def ofList (entries : List (κ × ν)) : OrderedMap κ ν :=
  entries.foldl (fun m entry => m.set entry.1 entry.2) ∅

def groupBy {α : Type*} (f : α → κ) (elements : List α) : OrderedMap κ (List α) :=
  elements.foldl (fun m x => m.set (f x) ((m.get (f x)).getD [] ++ [x])) ∅

@[simp] theorem get_empty (k : κ) : (∅ : OrderedMap κ ν).get k = none := rfl

theorem lookup_insert (k : κ) (v : ν) (entries : List (κ × ν)) (j : κ) :
    lookup j (insert k v entries) = if j = k then some v else lookup j entries := by
  induction entries with
  | nil => simp [insert, lookup, eq_comm]
  | cons entry rest ih =>
    obtain ⟨k', v'⟩ := entry
    by_cases same : k' = k
    · subst same
      by_cases hit : j = k'
      · simp [insert, lookup, hit]
      · simp [insert, lookup, hit, Ne.symm hit]
    · simp only [insert, same, if_false, lookup, ih]
      by_cases hit : k' = j
      · subst hit
        simp [same]
      · simp [hit]

theorem get_set (k j : κ) (v : ν) :
    (m.set k v).get j = if j = k then some v else m.get j :=
  lookup_insert k v m.entries j

@[simp] theorem get_set_self (k : κ) (v : ν) :
    (m.set k v).get k = some v := by
  rw [get_set, if_pos rfl]

theorem get_set_of_ne {k j : κ} (v : ν) (h : j ≠ k) :
    (m.set k v).get j = m.get j := by
  rw [get_set, if_neg h]

theorem lookup_filter (k : κ) (entries : List (κ × ν)) (j : κ) :
    lookup j (entries.filter (fun entry => entry.1 ≠ k)) =
      if j = k then none else lookup j entries := by
  induction entries with
  | nil => simp [lookup]
  | cons entry rest ih =>
    obtain ⟨k', v'⟩ := entry
    by_cases same : k' = k
    · subst same
      rw [List.filter_cons_of_neg (by simp), ih]
      by_cases hit : j = k'
      · simp [hit]
      · simp [hit, lookup, Ne.symm hit]
    · rw [List.filter_cons_of_pos (by simpa using same)]
      simp only [lookup, ih]
      by_cases hit : k' = j
      · subst hit
        simp [same]
      · simp [hit]

theorem get_filterKeys (p : κ → Bool) (k : κ) :
    (m.filterKeys p).get k = if p k then m.get k else none := by
  change lookup k (m.entries.filter fun entry => p entry.1) = if p k then lookup k m.entries else none
  induction m.entries with
  | nil => simp [lookup]
  | cons entry rest ih =>
    by_cases pass : p entry.1
    · rw [List.filter_cons_of_pos (by simpa using pass), lookup, lookup, ih]
      by_cases same : entry.1 = k
      · rw [if_pos same, if_pos same, ← same, if_pos pass]
      · rw [if_neg same, if_neg same]
    · rw [List.filter_cons_of_neg (by simpa using pass), ih, lookup]
      by_cases same : entry.1 = k
      · rw [← same, if_neg pass, if_neg pass]
      · rw [if_neg same]

theorem get_delete (k j : κ) :
    (m.delete k).get j = if j = k then none else m.get j :=
  lookup_filter k m.entries j

@[simp] theorem get_delete_self (k : κ) : (m.delete k).get k = none := by
  rw [get_delete, if_pos rfl]

theorem get_delete_of_ne {k j : κ} (h : j ≠ k) :
    (m.delete k).get j = m.get j := by
  rw [get_delete, if_neg h]

theorem get_deleteMany (ks : List κ) (j : κ) :
    (m.deleteMany ks).get j = if j ∈ ks then none else m.get j := by
  rw [deleteMany]
  induction ks generalizing m with
  | nil => rw [List.foldl_nil, if_neg List.not_mem_nil]
  | cons k ks ih =>
    rw [List.foldl_cons, ih, get_delete]
    by_cases later : j ∈ ks
    · rw [if_pos later, if_pos (List.mem_cons_of_mem k later)]
    · rw [if_neg later]
      by_cases here : j = k
      · rw [if_pos here, if_pos (List.mem_cons.2 (.inl here))]
      · rw [if_neg here, if_neg fun member => (List.mem_cons.1 member).elim here later]

theorem insert_insert (k : κ) (v w : ν) (entries : List (κ × ν)) :
    insert k w (insert k v entries) = insert k w entries := by
  induction entries with
  | nil => simp only [insert, if_true]
  | cons entry rest ih =>
    obtain ⟨k', v'⟩ := entry
    by_cases same : k' = k
    · simp only [insert, same, if_true]
    · simp only [insert, same, if_false, ih]

theorem set_set (k : κ) (v w : ν) : (m.set k v).set k w = m.set k w :=
  ext (insert_insert k v w m.entries)

theorem get_foldl_groupBy {α : Type*} (f : α → κ) (elements : List α) (m : OrderedMap κ (List α)) (k : κ) :
    (elements.foldl (fun m x => m.set (f x) ((m.get (f x)).getD [] ++ [x])) m).get k =
      if elements.filter (f · = k) = [] then m.get k
      else some ((m.get k).getD [] ++ elements.filter (f · = k)) := by
  induction elements generalizing m with
  | nil => rfl
  | cons x elements ih =>
    rw [List.foldl_cons, ih, get_set]
    by_cases same : k = f x
    · rw [if_pos same, List.filter_cons_of_pos (by simp [same]), if_neg (List.cons_ne_nil _ _), same]
      split
      case isTrue none => rw [none]
      case isFalse => rw [Option.getD_some, List.append_assoc, List.singleton_append]
    · rw [if_neg same, List.filter_cons_of_neg (by simpa using Ne.symm same)]

theorem get_groupBy {α : Type*} (f : α → κ) (elements : List α) (k : κ) :
    (groupBy f elements).get k =
      if elements.filter (f · = k) = [] then none else some (elements.filter (f · = k)) := by
  rw [groupBy, get_foldl_groupBy, get_empty, Option.getD_none, List.nil_append]

variable {entries : List (κ × ν)}

theorem lookup_eq_some_iff (h : (entries.map Prod.fst).Nodup)
    (k : κ) (v : ν) : lookup k entries = some v ↔ (k, v) ∈ entries := by
  induction entries with
  | nil => simp [lookup]
  | cons entry rest ih =>
    obtain ⟨k', v'⟩ := entry
    simp only [List.map_cons, List.nodup_cons] at h
    by_cases same : k' = k
    · subst same
      simp only [lookup, if_true, Option.some.injEq, List.mem_cons, Prod.mk.injEq, true_and]
      constructor
      · exact fun eq => Or.inl eq.symm
      · rintro (eq | later)
        · exact eq.symm
        · exact absurd (List.mem_map_of_mem (f := Prod.fst) later) h.1
    · simp [lookup, same, Ne.symm same, ih h.2]

theorem get_eq_some_iff (k : κ) (v : ν) :
    m.get k = some v ↔ (k, v) ∈ m.entries :=
  lookup_eq_some_iff m.nodup k v

theorem lookup_eq_none_iff (k : κ) :
    lookup k entries = none ↔ k ∉ entries.map Prod.fst := by
  induction entries with
  | nil => simp [lookup]
  | cons entry rest ih =>
    obtain ⟨k', v'⟩ := entry
    by_cases same : k' = k
    · simp [lookup, same]
    · simp only [lookup, same, if_false, ih, List.map_cons, List.mem_cons]
      tauto

theorem get_eq_none_iff (k : κ) : m.get k = none ↔ k ∉ m.keys :=
  lookup_eq_none_iff k

theorem mem_keys_iff (k : κ) : k ∈ m.keys ↔ ∃ v, m.get k = some v := by
  rw [← Option.isSome_iff_exists, Option.isSome_iff_ne_none, ne_eq, get_eq_none_iff, not_not]

theorem mem_values_iff (v : ν) : v ∈ m.values ↔ ∃ k, m.get k = some v := by
  simp only [values, List.mem_map, get_eq_some_iff, Prod.exists]
  constructor
  · rintro ⟨k, _, stored, rfl⟩
    exact ⟨k, stored⟩
  · rintro ⟨k, stored⟩
    exact ⟨k, v, stored, rfl⟩

theorem size_eq_zero_iff_get : m.size = 0 ↔ ∀ k, m.get k = none := by
  rw [size_eq_zero_iff]
  refine ⟨fun empty k => by rw [empty, get_empty], fun absent => ext ?_⟩
  rw [entries_empty, List.eq_nil_iff_forall_not_mem]
  intro entry member
  exact nomatch (absent entry.1).symm.trans ((get_eq_some_iff m entry.1 entry.2).2 member)

theorem mem_keys_set (k j : κ) (v : ν) :
    j ∈ (m.set k v).keys ↔ j = k ∨ j ∈ m.keys :=
  mem_fst_insert k v m.entries j

theorem mem_keys_delete (k j : κ) :
    j ∈ (m.delete k).keys ↔ j ≠ k ∧ j ∈ m.keys := by
  simp only [mem_keys_iff, get_delete]
  by_cases same : j = k <;> simp [same]

theorem get_filterValues_eq_some_iff (p : ν → Bool) (k : κ) (v : ν) :
    (m.filterValues p).get k = some v ↔ m.get k = some v ∧ p v = true := by
  simp only [get_eq_some_iff, filterValues, List.mem_filter]

theorem mem_values_filterValues (p : ν → Bool) (v : ν) :
    v ∈ (m.filterValues p).values ↔ v ∈ m.values ∧ p v = true := by
  simp only [mem_values_iff, get_filterValues_eq_some_iff, exists_and_right]

variable {k : κ}

theorem insert_of_not_mem (v : ν)
    (absent : k ∉ entries.map Prod.fst) : insert k v entries = entries ++ [(k, v)] := by
  induction entries with
  | nil => rfl
  | cons entry rest ih =>
    simp only [List.map_cons, List.mem_cons, not_or] at absent
    simp only [insert, if_neg (Ne.symm absent.1), ih absent.2, List.cons_append]

theorem entries_set_of_not_mem (v : ν) (absent : k ∉ m.keys) :
    (m.set k v).entries = m.entries ++ [(k, v)] :=
  insert_of_not_mem v absent

theorem ofList_entries : ofList m.entries = m := by
  have grow : ∀ (rest : List (κ × ν)) (done : OrderedMap κ ν),
      ((done.entries ++ rest).map Prod.fst).Nodup →
      (rest.foldl (fun m entry => m.set entry.1 entry.2) done).entries = done.entries ++ rest := by
    intro rest
    induction rest with
    | nil => simp
    | cons entry rest ih =>
      intro done distinct
      have absent : entry.1 ∉ done.keys := by
        rw [List.map_append, List.map_cons, List.nodup_append] at distinct
        intro stored
        exact distinct.2.2 entry.1 stored entry.1 List.mem_cons_self rfl
      have appended : (done.set entry.1 entry.2).entries = done.entries ++ [entry] :=
        entries_set_of_not_mem done entry.2 absent
      rw [List.foldl_cons, ih, appended, List.append_assoc, List.singleton_append]
      rwa [appended, List.append_assoc, List.singleton_append]
  apply ext
  have whole := grow m.entries ∅ (by simpa using m.nodup)
  simpa [ofList] using whole

theorem get_foldl_set (entries : List (κ × ν)) (m : OrderedMap κ ν) (k : κ) :
    (∃ v, (k, v) ∈ entries ∧ (entries.foldl (fun m entry => m.set entry.1 entry.2) m).get k = some v) ∨
      (∀ v, (k, v) ∉ entries) ∧
        (entries.foldl (fun m entry => m.set entry.1 entry.2) m).get k = m.get k := by
  induction entries generalizing m with
  | nil => exact Or.inr ⟨fun _ => List.not_mem_nil, rfl⟩
  | cons entry entries ih =>
    rw [List.foldl_cons]
    cases ih (m.set entry.1 entry.2) with
    | inl later =>
      obtain ⟨v, member, found⟩ := later
      exact Or.inl ⟨v, List.mem_cons_of_mem entry member, found⟩
    | inr kept =>
      rw [get_set] at kept
      by_cases same : k = entry.1
      · rw [if_pos same] at kept
        exact Or.inl ⟨entry.2, same ▸ List.mem_cons_self, kept.2⟩
      · rw [if_neg same] at kept
        refine Or.inr ⟨fun v member => ?_, kept.2⟩
        cases List.mem_cons.1 member with
        | inl here => exact same (congrArg Prod.fst here)
        | inr after => exact kept.1 v after

theorem mem_of_get_ofList {v : ν}
    (found : (ofList entries).get k = some v) : (k, v) ∈ entries := by
  cases get_foldl_set entries ∅ k with
  | inl given =>
    obtain ⟨w, member, found'⟩ := given
    rw [ofList, found'] at found
    exact Option.some.inj found ▸ member
  | inr absent =>
    simp [ofList, absent.2] at found

theorem get_ofList_of_mem {v : ν} (member : (k, v) ∈ entries)
    (only : ∀ w, (k, w) ∈ entries → w = v) : (ofList entries).get k = some v := by
  cases get_foldl_set entries ∅ k with
  | inl given =>
    obtain ⟨w, member', found⟩ := given
    rw [ofList, found, only w member']
  | inr absent => exact absurd member (absent.1 v)

/-! The entries as a collection: a write adds one entry next to the others, or
replaces the one under its key. -/

theorem perm_of_lookup {v : ν}
    (h : lookup k entries = some v) (nodup : (entries.map Prod.fst).Nodup) :
    entries.Perm ((k, v) :: entries.filter (fun entry => entry.1 ≠ k)) := by
  induction entries with
  | nil => simp [lookup] at h
  | cons entry rest ih =>
    obtain ⟨k', v'⟩ := entry
    simp only [List.map_cons, List.nodup_cons] at nodup
    by_cases same : k' = k
    · subst same
      have absent : rest.filter (fun entry => entry.1 ≠ k') = rest := by
        rw [List.filter_eq_self]
        intro entry member
        have := List.mem_map_of_mem (f := Prod.fst) member
        simp only [ne_eq, decide_not, Bool.not_eq_eq_eq_not, Bool.not_true, decide_eq_false_iff_not]
        rintro rfl
        exact nodup.1 this
      simp only [lookup, if_true, Option.some.injEq] at h
      rw [List.filter_cons_of_neg (by simp), absent, h]
    · simp only [lookup, same, if_false] at h
      rw [List.filter_cons_of_pos (by simpa using same)]
      exact ((ih h nodup.2).cons _).trans (List.Perm.swap _ _ _)

theorem perm_of_get {v : ν} (h : m.get k = some v) :
    m.entries.Perm ((k, v) :: (m.delete k).entries) :=
  perm_of_lookup h m.nodup

theorem size_of_get {v : ν} (h : m.get k = some v) :
    m.size = (m.delete k).size + 1 :=
  (m.perm_of_get h).length_eq

theorem sum_values_of_get (f : ν → Nat) {v : ν}
    (h : m.get k = some v) :
    (m.values.map f).sum = f v + ((m.delete k).values.map f).sum := by
  have whole := (((m.perm_of_get h).map Prod.snd).map f).sum_nat
  simpa only [values, List.map_cons, List.sum_cons] using whole

theorem delete_set (k : κ) (v : ν) : (m.set k v).delete k = m.delete k := by
  apply ext
  change (insert k v m.entries).filter _ = m.entries.filter _
  induction m.entries with
  | nil => simp [insert]
  | cons entry rest ih =>
    obtain ⟨k', v'⟩ := entry
    by_cases same : k' = k
    · simp [insert, same]
    · simp only [insert, same, if_false]
      rw [List.filter_cons_of_pos (by simpa using same),
        List.filter_cons_of_pos (by simpa using same), ih]

theorem set_perm (k : κ) (v : ν) :
    (m.set k v).entries.Perm ((k, v) :: (m.delete k).entries) := by
  rw [← delete_set m k v]
  exact perm_of_get _ (get_set_self m k v)

theorem size_delete_le (k : κ) : (m.delete k).size ≤ m.size := List.length_filter_le _ _

theorem size_set_le (k : κ) (v : ν) : (m.set k v).size ≤ m.size + 1 := by
  have added : (m.set k v).size = (m.delete k).size + 1 := (m.set_perm k v).length_eq
  rw [added]
  exact Nat.succ_le_succ (m.size_delete_le k)

theorem delete_of_get_none (h : m.get k = none) :
    m.delete k = m := by
  apply ext
  rw [get_eq_none_iff] at h
  change m.entries.filter _ = m.entries
  rw [List.filter_eq_self]
  intro entry member
  have := List.mem_map_of_mem (f := Prod.fst) member
  simp only [ne_eq, decide_not, Bool.not_eq_eq_eq_not, Bool.not_true, decide_eq_false_iff_not]
  rintro rfl
  exact h this

/-! Changing the values commutes with every operation. -/

theorem get_mapValues (f : ν → μ) (k : κ) :
    (m.mapValues f).get k = (m.get k).map f := by
  change lookup k (m.entries.map _) = (lookup k m.entries).map f
  induction m.entries with
  | nil => rfl
  | cons entry rest ih =>
    obtain ⟨k', v'⟩ := entry
    by_cases same : k' = k <;> simp [lookup, same, ih]

theorem mapValues_set (f : ν → μ) (k : κ) (v : ν) :
    (m.set k v).mapValues f = (m.mapValues f).set k (f v) := by
  apply ext
  change (insert k v m.entries).map _ = insert k (f v) (m.entries.map _)
  induction m.entries with
  | nil => rfl
  | cons entry rest ih =>
    obtain ⟨k', v'⟩ := entry
    by_cases same : k' = k <;> simp [insert, same, ih]

theorem mapValues_delete (f : ν → μ) (k : κ) :
    (m.delete k).mapValues f = (m.mapValues f).delete k := by
  apply ext
  change (m.entries.filter _).map _ = (m.entries.map _).filter _
  rw [List.filter_map]
  rfl

end OrderedMap
end NodeAutomation
