import Mathlib.Algebra.GroupWithZero.Nat
import Mathlib.Data.List.Basic
import Mathlib.Logic.Relation

/-! A search for a place, with a stack of the places to go to and a list of those
already seen: it ends, and finds the place where it can be reached. -/

namespace NodeAutomation.StackSearch

variable {α : Type*} [DecidableEq α] (next : α → List α) (goal : α)

/-- The top of the stack is the head of the list. A place may be on the stack more
than once; only places not yet seen are put there. -/
def search : (fuel : Nat) → (stack seen : List α) → Option Bool
  | 0, _, _ => none
  | _ + 1, [], _ => some false
  | fuel + 1, place :: stack, seen =>
    if place = goal then some true
    else search fuel (((next place).filter (· ∉ place :: seen)).reverse ++ stack) (place :: seen)

def Reaches : α → α → Prop := Relation.ReflTransGen fun a b => b ∈ next a

def ahead (pool seen : List α) : Nat :=
  ((pool.filter (· ∉ seen)).map fun place => (next place).length).sum

variable {next goal} {stack seen pool : List α} {place : α}

theorem ahead_cons (nodup : pool.Nodup) (fresh : place ∉ seen) (covered : place ∈ pool) :
    ahead next pool (place :: seen) + (next place).length = ahead next pool seen := by
  induction pool with
  | nil => cases covered
  | cons first pool ih =>
    obtain ⟨absent, nodup⟩ := List.nodup_cons.1 nodup
    have step (seen : List α) : ahead next (first :: pool) seen =
        (if first ∉ seen then (next first).length else 0) + ahead next pool seen := by
      by_cases here : first ∈ seen <;> simp [ahead, here]
    rw [step, step]
    by_cases same : first = place
    · have rest : ahead next pool (place :: seen) = ahead next pool seen := by
        have filtered : pool.filter (· ∉ place :: seen) = pool.filter (· ∉ seen) := by
          refine List.filter_congr fun other member => ?_
          have differ : other ≠ place := fun equal => absent (by rwa [same, ← equal])
          simp [differ]
        rw [ahead, filtered, ahead]
      rw [if_neg (by simp [same]), if_pos (by rwa [same]), rest, same]
      omega
    · have later := ih nodup ((List.mem_cons.1 covered).resolve_left (Ne.symm same))
      have seenAlike : first ∉ place :: seen ↔ first ∉ seen := by simp [same]
      by_cases here : first ∈ seen
      · rw [if_neg (not_not.2 here), if_neg fun missing => (seenAlike.1 missing) here]
        omega
      · rw [if_pos here, if_pos (seenAlike.2 here)]
        omega

theorem ahead_cons_of_mem (known : place ∈ seen) :
    ahead next pool (place :: seen) = ahead next pool seen := by
  have filtered : pool.filter (· ∉ place :: seen) = pool.filter (· ∉ seen) := by
    refine List.filter_congr fun other _ => ?_
    by_cases same : other = place <;> simp [same, known]
  rw [ahead, filtered, ahead]

theorem ahead_cons_le (nodup : pool.Nodup) (covers : ∀ place, next place ≠ [] → place ∈ pool)
    (fresh : place ∉ seen) :
    ahead next pool (place :: seen) + (next place).length ≤ ahead next pool seen := by
  by_cases covered : place ∈ pool
  · exact Nat.le_of_eq (ahead_cons nodup fresh covered)
  · have final : next place = [] := not_not.1 fun more => covered (covers place more)
    have filtered : pool.filter (· ∉ place :: seen) = pool.filter (· ∉ seen) := by
      refine List.filter_congr fun other member => ?_
      have differ : other ≠ place := fun equal => covered (equal ▸ member)
      simp [differ]
    rw [ahead, filtered, ahead, final]
    exact Nat.le_refl _

/-- Where a place that has been seen is on the stack again, what follows it has been
seen or lies above it. -/
def Settled (next : α → List α) (stack seen : List α) : Prop :=
  ∀ above place below, stack = above ++ place :: below → place ∈ seen →
    ∀ y ∈ next place, y ∈ seen ∨ y ∈ above

theorem Settled.nothing_new (settled : Settled next (place :: stack) seen) (known : place ∈ seen) :
    (next place).filter (· ∉ place :: seen) = [] := by
  refine List.filter_eq_nil_iff.2 fun y follows => ?_
  have ended := settled [] place stack rfl known y follows
  simp [ended.resolve_right List.not_mem_nil]

theorem Settled.step (settled : Settled next (place :: stack) seen) :
    Settled next (((next place).filter (· ∉ place :: seen)).reverse ++ stack) (place :: seen) := by
  intro above other below split known y follows
  by_cases seenNow : y ∈ place :: seen
  · exact .inl seenNow
  cases List.append_eq_append_iff.1 split with
  | inl later =>
    obtain ⟨between, aboveIs, stackIs⟩ := later
    cases List.mem_cons.1 known with
    | inl same =>
      refine .inr ?_
      rw [aboveIs, List.mem_append, List.mem_reverse, List.mem_filter]
      exact .inl ⟨same ▸ follows, by simpa using seenNow⟩
    | inr before =>
      have earlier := settled (place :: between) other below (by rw [stackIs]; rfl) before y follows
      cases earlier with
      | inl seen => exact absurd (List.mem_cons_of_mem place seen) seenNow
      | inr above =>
        cases List.mem_cons.1 above with
        | inl same => exact absurd (same ▸ List.mem_cons_self) seenNow
        | inr between => exact .inr (by rw [aboveIs]; exact List.mem_append_right _ between)
  | inr pushed =>
    obtain ⟨between, pushedIs, restIs⟩ := pushed
    cases between with
    | nil =>
      -- the place found is the first of the old stack
      rw [List.append_nil] at pushedIs
      rw [List.nil_append] at restIs
      cases List.mem_cons.1 known with
      | inl same =>
        refine .inr ?_
        rw [← pushedIs, List.mem_reverse, List.mem_filter]
        exact ⟨same ▸ follows, by simpa using seenNow⟩
      | inr before =>
        have earlier := settled [place] other below (by rw [← restIs]; rfl) before y follows
        cases earlier with
        | inl seen => exact absurd (List.mem_cons_of_mem place seen) seenNow
        | inr above =>
          rw [List.mem_singleton.1 above] at seenNow
          exact absurd List.mem_cons_self seenNow
    | cons first between =>
      have isFirst := (List.cons.inj restIs).1
      have member : other ∈ ((next place).filter (· ∉ place :: seen)).reverse := by
        rw [pushedIs, isFirst]
        simp
      rw [List.mem_reverse, List.mem_filter] at member
      exact absurd known (by simpa using member.2)

omit [DecidableEq α] in
theorem settled_start (start : α) : Settled next [start] [] :=
  fun _ _ _ _ known => nomatch known

theorem search_isSome (fuel : Nat) (nodup : pool.Nodup)
    (covers : ∀ place, next place ≠ [] → place ∈ pool) (stack seen : List α)
    (settled : Settled next stack seen) (enough : stack.length + ahead next pool seen < fuel) :
    (search next goal fuel stack seen).isSome = true := by
  induction fuel generalizing stack seen with
  | zero => exact absurd enough (Nat.not_lt_zero _)
  | succ fuel ih =>
    cases stack with
    | nil => rfl
    | cons place stack =>
      rw [search]
      split
      case isTrue => rfl
      case isFalse =>
        refine ih _ _ settled.step ?_
        rw [List.length_cons] at enough
        by_cases known : place ∈ seen
        · rw [settled.nothing_new known, ahead_cons_of_mem known]
          simp only [List.reverse_nil, List.nil_append]
          omega
        · have pushed : ((next place).filter (· ∉ place :: seen)).length ≤ (next place).length :=
            List.length_filter_le _ _
          rw [List.length_append, List.length_reverse]
          have taken := ahead_cons_le nodup covers known
          omega

theorem reaches_of_search (fuel : Nat) (stack seen : List α)
    (found : search next goal fuel stack seen = some true) :
    ∃ place ∈ stack, Reaches next place goal := by
  induction fuel generalizing stack seen with
  | zero => cases found
  | succ fuel ih =>
    cases stack with
    | nil => cases found
    | cons place stack =>
      rw [search] at found
      split at found
      case isTrue here => exact ⟨place, List.mem_cons_self, here ▸ .refl⟩
      case isFalse =>
        obtain ⟨other, member, reaches⟩ := ih _ _ found
        cases List.mem_append.1 member with
        | inl pushed =>
          have follows := (List.mem_filter.1 (List.mem_reverse.1 pushed)).1
          exact ⟨place, List.mem_cons_self, .head follows reaches⟩
        | inr member => exact ⟨other, List.mem_cons_of_mem place member, reaches⟩

/-- A search that ends without the place has closed what it has seen. -/
theorem not_reaches_of_search (fuel : Nat) (stack seen : List α)
    (missed : search next goal fuel stack seen = some false) (absent : goal ∉ seen)
    (closed : ∀ x ∈ seen, ∀ y ∈ next x, y ∈ seen ∨ y ∈ stack) (place : α)
    (member : place ∈ seen ∨ place ∈ stack) : ¬ Reaches next place goal := by
  induction fuel generalizing stack seen with
  | zero => cases missed
  | succ fuel ih =>
    cases stack with
    | nil =>
      intro reaches
      have stays : ∀ x, Reaches next place x → x ∈ seen := by
        intro x went
        induction went with
        | refl => exact member.resolve_right List.not_mem_nil
        | tail _ follows ih => exact (closed _ ih _ follows).resolve_right List.not_mem_nil
      exact absent (stays goal reaches)
    | cons top stack =>
      rw [search] at missed
      split at missed
      case isTrue => cases missed
      case isFalse differ =>
        refine ih _ _ missed ?_ ?_ ?_
        · exact fun known => (List.mem_cons.1 known).elim (fun same => differ same.symm) absent
        · intro x known y follows
          by_cases seenNow : y ∈ top :: seen
          · exact .inl seenNow
          refine .inr (List.mem_append.2 ?_)
          cases List.mem_cons.1 known with
          | inl same =>
            exact .inl (List.mem_reverse.2 (List.mem_filter.2 ⟨same ▸ follows, by simpa using seenNow⟩))
          | inr before =>
            cases closed x before y follows with
            | inl known => exact absurd (List.mem_cons_of_mem top known) seenNow
            | inr onStack =>
              cases List.mem_cons.1 onStack with
              | inl same => exact absurd (same ▸ List.mem_cons_self) seenNow
              | inr below => exact .inr below
        · cases member with
          | inl known => exact .inl (List.mem_cons_of_mem top known)
          | inr onStack =>
            cases List.mem_cons.1 onStack with
            | inl same => exact .inl (same ▸ List.mem_cons_self)
            | inr below => exact .inr (List.mem_append_right _ below)

theorem search_eq_some_true_iff {start : α} (nodup : pool.Nodup)
    (covers : ∀ place, next place ≠ [] → place ∈ pool) (fuel : Nat)
    (enough : 1 + ahead next pool [] < fuel) :
    (search next goal fuel [start] []).isSome = true ∧
      (search next goal fuel [start] [] = some true ↔ Reaches next start goal) := by
  have ended := @search_isSome α _ next goal pool fuel nodup covers [start] [] (settled_start start) enough
  refine ⟨ended, fun found => ?_, fun reaches => ?_⟩
  · obtain ⟨place, member, reaches⟩ := reaches_of_search fuel _ _ found
    rwa [List.mem_singleton.1 member] at reaches
  · cases result : search next goal fuel [start] [] with
    | none => rw [result] at ended; cases ended
    | some found =>
      cases found with
      | true => rfl
      | false =>
        exact absurd reaches (not_reaches_of_search fuel _ _ result List.not_mem_nil
          (fun _ known => nomatch known) start (.inr List.mem_cons_self))

end NodeAutomation.StackSearch
