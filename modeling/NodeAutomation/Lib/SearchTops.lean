import NodeAutomation.Lib.DepthFirst

/-! A depth-first search that gathers good places: where the search goes on and finds
no good place, it takes the place it went on from. Places without steps of their own
are not marked as met, and may be found again. What it gathers depends on the order
in which places are met. -/

namespace NodeAutomation.SearchTops
open Relation DepthFirst

variable {α : Type*}

section

variable [DecidableEq α] (good : α → Bool)

/-- One step of the search: what was gathered so far, and the places met so far. -/
def visitTop (gather : α → List α → List α × List α) (found : List α × List α) (b : α) :
    List α × List α :=
  if b ∈ found.2 then found
  else
    let above := gather b found.2
    let added := if above.1.isEmpty ∧ good b = true then [b] else above.1
    (found.1 ++ added.filter (· ∉ found.1), above.2)

variable (next : α → List α) (branches : α → Bool)

/-- The search from a place that has not been met. -/
def tops : Nat → α → List α → List α × List α
  | 0, _, met => ([], met)
  | fuel + 1, a, met =>
    if branches a then (next a).foldl (visitTop good (tops fuel)) ([], met ++ [a])
    else (if good a then [a] else [], met)

end

variable (good : α → Bool) (next : α → List α) (branches : α → Bool)

def StepWithin (places : List α) (a b : α) : Prop := b ∈ next a ∧ b ∈ places

/-- `b` is found by going on from `a` over the given places only. -/
def Onward (places : List α) (a b : α) : Prop :=
  TransGen (StepWithin next places) a b ∨
    branches b = false ∧ ∃ c, ReflTransGen (StepWithin next places) a c ∧ b ∈ next c

/-- From `a` the search does not go on to a good place that was not met before. -/
def Top (met : List α) (a : α) : Prop :=
  ∃ before after, met = before ++ a :: after ∧ ¬ ∃ b, good b = true ∧ Onward next branches after a b

/-- What the steps to `targets` meet and gather. -/
structure Gleaned (targets met new gathered : List α) : Prop where
  once : (met ++ new).Nodup
  branching : ∀ a ∈ met ++ new, branches a = true
  closed : ∀ a ∈ new, ∀ b ∈ next a, branches b = true → b ∈ met ++ new
  come : ∀ b ∈ targets, branches b = true → b ∈ met ++ new
  reached : ∀ a ∈ new, ∃ t ∈ targets, t ∈ new ∧ ReflTransGen (StepWithin next new) t a
  nodup : gathered.Nodup
  mem : ∀ a, a ∈ gathered ↔ good a = true ∧
    (Top good next branches new a ∨ branches a = false ∧ (a ∈ targets ∨ ∃ b ∈ new, a ∈ next b))

variable {good next branches}

theorem stepWithin_le {places more : List α} (sub : places ⊆ more) :
    StepWithin next places ≤ StepWithin next more := fun _ _ step => ⟨step.1, sub step.2⟩

theorem mem_of_transGen {places : List α} {a b : α} (h : TransGen (StepWithin next places) a b) :
    b ∈ places := by
  cases h with
  | single step => exact step.2
  | tail _ step => exact step.2

theorem mem_of_reflTransGen {places : List α} {a b : α}
    (h : ReflTransGen (StepWithin next places) a b) : b = a ∨ b ∈ places := by
  cases reflTransGen_iff_eq_or_transGen.1 h with
  | inl same => exact .inl same
  | inr path => exact .inr (mem_of_transGen path)

theorem onward_append {met new before after more : List α} {a b : α}
    (split : new = before ++ a :: after) (once : (met ++ new ++ more).Nodup)
    (closed : ∀ a ∈ new, ∀ b ∈ next a, branches b = true → b ∈ met ++ new)
    (branching : ∀ a ∈ more, branches a = true) :
    Onward next branches (after ++ more) a b ↔ Onward next branches after a b := by
  have inside : a :: after ⊆ new := split ▸ List.subset_append_right _ _
  have apart : ∀ c ∈ met ++ new, c ∉ more := fun c first second =>
    (List.nodup_append.1 once).2.2 c first c second rfl
  have kept {c : α} (path : ReflTransGen (StepWithin next (after ++ more)) a c) :
      ReflTransGen (StepWithin next after) a c := by
    induction path with
    | refl => exact .refl
    | tail _ step ih =>
      refine ih.tail ⟨step.1, (List.mem_append.1 step.2).resolve_right fun later => ?_⟩
      have here := inside (List.mem_cons.2 (mem_of_reflTransGen ih))
      exact apart _ (closed _ here _ step.1 (branching _ later)) later
  have wider {c : α} (path : ReflTransGen (StepWithin next after) a c) :
      ReflTransGen (StepWithin next (after ++ more)) a c :=
    ReflTransGen.mono (stepWithin_le (List.subset_append_left _ _)) _ _ path
  constructor
  · rintro (path | ⟨leaf, c, path, step⟩)
    · obtain ⟨c, path, step⟩ := TransGen.tail'_iff.1 path
      refine .inl (.tail' (kept path) ⟨step.1, (List.mem_append.1 step.2).resolve_right fun later => ?_⟩)
      have here := inside (List.mem_cons.2 (mem_of_reflTransGen (kept path)))
      exact apart _ (closed _ here _ step.1 (branching _ later)) later
    · exact .inr ⟨leaf, c, kept path, step⟩
  · rintro (path | ⟨leaf, c, path, step⟩)
    · exact .inl (TransGen.mono (stepWithin_le (List.subset_append_left _ _)) _ _ path)
    · exact .inr ⟨leaf, c, wider path, step⟩

theorem top_append {met new more : List α} {a : α} (once : (met ++ new ++ more).Nodup)
    (closed : ∀ a ∈ new, ∀ b ∈ next a, branches b = true → b ∈ met ++ new)
    (branching : ∀ a ∈ more, branches a = true) :
    Top good next branches (new ++ more) a ↔
      Top good next branches new a ∨ Top good next branches more a := by
  constructor
  · rintro ⟨before, after, split, none_⟩
    rcases List.append_eq_append_iff.1 split with ⟨middle, -, split'⟩ | ⟨middle, split', rest⟩
    · exact .inr ⟨middle, after, split', none_⟩
    · cases middle with
      | nil => exact .inr ⟨[], after, rest.symm, none_⟩
      | cons first middle =>
        rw [List.cons_append] at rest
        obtain ⟨rfl, rfl⟩ := List.cons.inj rest
        refine .inl ⟨before, middle, split', ?_⟩
        simpa only [onward_append split' once closed branching] using none_
  · rintro (⟨before, after, split, none_⟩ | ⟨before, after, split, none_⟩)
    · refine ⟨before, after ++ more, by rw [split]; simp, ?_⟩
      simpa only [onward_append split once closed branching] using none_
    · exact ⟨new ++ before, after, by rw [split]; simp, none_⟩

theorem top_cons {new : List α} {a b : α} :
    Top good next branches (b :: new) a ↔
      (a = b ∧ ¬ ∃ c, good c = true ∧ Onward next branches new b c) ∨ Top good next branches new a := by
  constructor
  · rintro ⟨before, after, split, none_⟩
    cases before with
    | nil =>
      obtain ⟨rfl, rfl⟩ := List.cons.inj split
      exact .inl ⟨rfl, none_⟩
    | cons first before => exact .inr ⟨before, after, (List.cons.inj split).2, none_⟩
  · rintro (⟨rfl, none_⟩ | ⟨before, after, split, none_⟩)
    · exact ⟨[], new, rfl, none_⟩
    · exact ⟨b :: before, after, by rw [split]; rfl, none_⟩

theorem Top.mem {met : List α} {a : α} (h : Top good next branches met a) : a ∈ met := by
  obtain ⟨before, after, split, -⟩ := h
  rw [split]
  exact List.mem_append_right _ List.mem_cons_self

theorem exists_last {l : List α} {p : α → Prop} (h : ∃ a ∈ l, p a) :
    ∃ before a after, l = before ++ a :: after ∧ p a ∧ ∀ b ∈ after, ¬ p b := by
  induction l with
  | nil => simp at h
  | cons first l ih =>
    by_cases later : ∃ a ∈ l, p a
    · obtain ⟨before, a, after, split, here, none_⟩ := ih later
      exact ⟨first :: before, a, after, by rw [split]; rfl, here, none_⟩
    · obtain ⟨a, member, holds⟩ := h
      cases List.mem_cons.1 member with
      | inl same => exact ⟨[], first, l, rfl, same ▸ holds, fun b there here => later ⟨b, there, here⟩⟩
      | inr there => exact absurd ⟨a, there, holds⟩ later

theorem Gleaned.ne_nil_iff {targets met new gathered : List α}
    (h : Gleaned good next branches targets met new gathered) : gathered ≠ [] ↔
      ∃ a, good a = true ∧ (a ∈ new ∨ branches a = false ∧ (a ∈ targets ∨ ∃ b ∈ new, a ∈ next b)) := by
  constructor
  · intro some_
    obtain ⟨a, member⟩ := List.exists_mem_of_ne_nil _ some_
    obtain ⟨holds, place⟩ := (h.mem a).1 member
    exact ⟨a, holds, place.imp_left Top.mem⟩
  · rintro ⟨a, holds, inNew | leaf⟩
    · obtain ⟨before, b, after, split, holds, last⟩ := exists_last (p := fun b => good b = true) ⟨a, inNew, holds⟩
      by_cases further : ∃ c, good c = true ∧ Onward next branches after b c
      · obtain ⟨c, good_, path | ⟨leaf, d, path, step⟩⟩ := further
        · exact absurd good_ (last c (mem_of_transGen path))
        · have here : d ∈ new := by
            rw [split]
            exact List.mem_append_right _ (List.mem_cons.2 (mem_of_reflTransGen path))
          exact List.ne_nil_of_mem ((h.mem c).2 ⟨good_, .inr ⟨leaf, .inr ⟨d, here, step⟩⟩⟩)
      · exact List.ne_nil_of_mem ((h.mem b).2 ⟨holds, .inl ⟨before, after, split, further⟩⟩)
    · exact List.ne_nil_of_mem ((h.mem a).2 ⟨holds, .inr leaf⟩)

theorem Gleaned.onward_iff {met new gathered : List α} {a : α}
    (h : Gleaned good next branches (next a) met new gathered) :
    (∃ b, good b = true ∧ Onward next branches new a b) ↔ gathered ≠ [] := by
  rw [h.ne_nil_iff]
  constructor
  · rintro ⟨b, holds, path | ⟨leaf, c, path, step⟩⟩
    · exact ⟨b, holds, .inl (mem_of_transGen path)⟩
    · refine ⟨b, holds, .inr ⟨leaf, ?_⟩⟩
      cases mem_of_reflTransGen path with
      | inl same => exact .inl (same ▸ step)
      | inr there => exact .inr ⟨c, there, step⟩
  · have onward {c : α} (there : c ∈ new) : TransGen (StepWithin next new) a c := by
      obtain ⟨t, target, met, path⟩ := h.reached c there
      exact .head' ⟨target, met⟩ path
    rintro ⟨b, holds, there | ⟨leaf, target | ⟨c, there, step⟩⟩⟩
    · exact ⟨b, holds, .inl (onward there)⟩
    · exact ⟨b, holds, .inr ⟨leaf, a, .refl, target⟩⟩
    · exact ⟨b, holds, .inr ⟨leaf, c, (onward there).to_reflTransGen, step⟩⟩

theorem Gleaned.found {targets met new gathered : List α} {t a : α}
    (h : Gleaned good next branches targets met new gathered)
    (bare : ∀ a, branches a = false → next a = []) (target : t ∈ targets) (off : t ∉ met)
    (path : ReflTransGen (fun x y => y ∈ next x ∧ y ∉ met) t a) :
    a ∈ new ∨ branches a = false ∧ (a ∈ targets ∨ ∃ b ∈ new, a ∈ next b) := by
  induction path with
  | refl =>
    cases steps : branches t with
    | true => exact .inl ((List.mem_append.1 (h.come t target steps)).resolve_left off)
    | false => exact .inr ⟨rfl, .inl target⟩
  | @tail b c path step ih =>
    have here : b ∈ new := by
      refine ih.resolve_right fun leaf => ?_
      have step := step.1
      simp [bare b leaf.1] at step
    cases steps : branches c with
    | true => exact .inl ((List.mem_append.1 (h.closed b here c step.1 steps)).resolve_left step.2)
    | false => exact .inr ⟨rfl, .inr ⟨b, here, step.1⟩⟩

theorem gleaned_nil {met : List α} (once : met.Nodup) (branching : ∀ a ∈ met, branches a = true) :
    Gleaned good next branches [] met [] [] where
  once := by simpa using once
  branching := by simpa using branching
  closed := by simp
  come := by simp
  reached := by simp
  nodup := List.nodup_nil
  mem a := by
    have none_ : ¬ Top good next branches [] a := fun top => List.not_mem_nil top.mem
    simp [none_]

variable {done met new gathered : List α} {b : α}

theorem Gleaned.known (h : Gleaned good next branches done met new gathered) (known : b ∈ met ++ new) :
    Gleaned good next branches (done ++ [b]) met new gathered where
  once := h.once
  branching := h.branching
  closed := h.closed
  come c target branching := by
    cases List.mem_append.1 target with
    | inl before => exact h.come c before branching
    | inr here => exact List.mem_singleton.1 here ▸ known
  reached a member := by
    obtain ⟨t, target, rest⟩ := h.reached a member
    exact ⟨t, List.mem_append_left _ target, rest⟩
  nodup := h.nodup
  mem a := by
    have other : branches a = false → a ≠ b := by
      rintro leaf rfl
      simp [h.branching a known] at leaf
    rw [h.mem a, List.mem_append, List.mem_singleton]
    constructor
    · rintro ⟨holds, place⟩
      exact ⟨holds, place.imp_right fun leaf => ⟨leaf.1, leaf.2.imp_left .inl⟩⟩
    · rintro ⟨holds, top | ⟨leaf, place⟩⟩
      · exact ⟨holds, .inl top⟩
      · exact ⟨holds, .inr ⟨leaf, place.imp_left fun target => target.resolve_right (other leaf)⟩⟩

theorem Gleaned.mem_added {met more above : List α}
    (sub : Gleaned good next branches (next b) met more above) (a : α) :
    a ∈ (if above.isEmpty ∧ good b = true then [b] else above) ↔
      good a = true ∧ (Top good next branches (b :: more) a ∨
        branches a = false ∧ ∃ c ∈ b :: more, a ∈ next c) := by
  have empty : above = [] ↔ ¬ ∃ c, good c = true ∧ Onward next branches more b c := by
    rw [sub.onward_iff, not_not]
  have leaf : (a ∈ next b ∨ ∃ c ∈ more, a ∈ next c) ↔ ∃ c ∈ b :: more, a ∈ next c := by simp
  rw [top_cons, ← leaf, ← empty]
  by_cases nothing : above = []
  · have none_ := (sub.mem a).not.1 (by simp [nothing])
    have only : good a = true ∧ (((a = b ∧ above = []) ∨ Top good next branches more a) ∨
        branches a = false ∧ (a ∈ next b ∨ ∃ c ∈ more, a ∈ next c)) ↔ good a = true ∧ a = b := by
      constructor
      · rintro ⟨holds, (⟨same, -⟩ | top) | leaf⟩
        · exact ⟨holds, same⟩
        · exact absurd ⟨holds, .inl top⟩ none_
        · exact absurd ⟨holds, .inr leaf⟩ none_
      · exact fun h => ⟨h.1, .inl (.inl ⟨h.2, nothing⟩)⟩
    rw [only, nothing]
    by_cases holds : good b = true
    · rw [if_pos ⟨rfl, holds⟩, List.mem_singleton]
      exact ⟨fun same => ⟨same ▸ holds, same⟩, And.right⟩
    · rw [if_neg fun both => holds both.2]
      exact ⟨nofun, fun h => absurd (h.2 ▸ h.1) holds⟩
  · have filled : ¬ (above.isEmpty = true ∧ good b = true) := fun both =>
      nothing (List.isEmpty_iff.1 both.1)
    rw [if_neg filled, sub.mem a]
    simp [nothing]

variable [DecidableEq α]

theorem nodup_append_new {added : List α} (nodup : gathered.Nodup) (once : added.Nodup) :
    (gathered ++ added.filter (· ∉ gathered)).Nodup := by
  refine List.nodup_append.2 ⟨nodup, once.filter _, fun a first c second same => ?_⟩
  subst same
  simp [first] at second

theorem mem_append_new {added : List α} (a : α) :
    a ∈ gathered ++ added.filter (· ∉ gathered) ↔ a ∈ gathered ∨ a ∈ added := by
  by_cases member : a ∈ gathered <;> simp [member]

theorem Gleaned.leaf (h : Gleaned good next branches done met new gathered) (leaf : branches b = false) :
    Gleaned good next branches (done ++ [b]) met new
      (gathered ++ (if good b = true then [b] else []).filter (· ∉ gathered)) where
  once := h.once
  branching := h.branching
  closed := h.closed
  come c target branching := by
    cases List.mem_append.1 target with
    | inl before => exact h.come c before branching
    | inr here =>
      simp [List.mem_singleton.1 here, leaf] at branching
  reached a member := by
    obtain ⟨t, target, rest⟩ := h.reached a member
    exact ⟨t, List.mem_append_left _ target, rest⟩
  nodup := by
    refine nodup_append_new h.nodup ?_
    split <;> simp
  mem a := by
    have added : a ∈ (if good b = true then [b] else []) ↔ good a = true ∧ a = b := by
      by_cases holds : good b = true
      · rw [if_pos holds, List.mem_singleton]
        exact ⟨fun same => ⟨same ▸ holds, same⟩, And.right⟩
      · rw [if_neg holds]
        exact ⟨nofun, fun here => absurd (here.2 ▸ here.1) holds⟩
    rw [mem_append_new, added, h.mem a, List.mem_append, List.mem_singleton, ← and_or_left]
    refine and_congr_right fun _ => ?_
    constructor
    · rintro ((top | ⟨leaf', place⟩) | rfl)
      · exact .inl top
      · exact .inr ⟨leaf', place.imp_left .inl⟩
      · exact .inr ⟨leaf, .inl (.inr rfl)⟩
    · rintro (top | ⟨leaf', (target | same) | place⟩)
      · exact .inl (.inl top)
      · exact .inl (.inr ⟨leaf', .inl target⟩)
      · exact .inr same
      · exact .inl (.inr ⟨leaf', .inr place⟩)

/-- A place with steps is searched; if nothing is gathered there, it is taken itself. -/
theorem Gleaned.fresh {more above : List α} (h : Gleaned good next branches done met new gathered)
    (branching : branches b = true)
    (sub : Gleaned good next branches (next b) (met ++ new ++ [b]) more above) :
    Gleaned good next branches (done ++ [b]) met (new ++ b :: more)
      (gathered ++ (if above.isEmpty ∧ good b = true then [b] else above).filter (· ∉ gathered)) := by
  have whole : met ++ (new ++ b :: more) = met ++ new ++ [b] ++ more := by simp
  have once : (met ++ new ++ (b :: more)).Nodup := by
    have once := sub.once
    rwa [List.append_assoc _ [b]] at once
  have branchingMore : ∀ a ∈ b :: more, branches a = true := fun a member =>
    sub.branching a (by
      cases List.mem_cons.1 member with
      | inl same => simp [same]
      | inr later => simp [later])
  have inMore : b :: more ⊆ new ++ b :: more := List.subset_append_right _ _
  refine ⟨by rw [whole]; exact sub.once, by rw [whole]; exact sub.branching, ?_, ?_, ?_, ?_, ?_⟩
  · intro a member c step branchingC
    rw [whole]
    rcases List.mem_append.1 member with old | new_
    · have known := h.closed a old c step branchingC
      rw [List.append_assoc]
      exact List.mem_append_left _ known
    · cases List.mem_cons.1 new_ with
      | inl same => exact sub.come c (same ▸ step) branchingC
      | inr later => exact sub.closed a later c step branchingC
  · intro c target branchingC
    rcases List.mem_append.1 target with before | here
    · have known := h.come c before branchingC
      rw [whole, List.append_assoc]
      exact List.mem_append_left _ known
    · rw [List.mem_singleton.1 here]
      simp
  · intro a member
    rcases List.mem_append.1 member with old | new_
    · obtain ⟨t, target, there, path⟩ := h.reached a old
      exact ⟨t, List.mem_append_left _ target, List.mem_append_left _ there,
        ReflTransGen.mono (stepWithin_le (List.subset_append_left _ _)) _ _ path⟩
    · refine ⟨b, by simp, by simp, ?_⟩
      cases List.mem_cons.1 new_ with
      | inl same => rw [same]
      | inr later =>
        obtain ⟨t, step, there, path⟩ := sub.reached a later
        have there' : t ∈ new ++ b :: more := inMore (List.mem_cons_of_mem _ there)
        exact .head ⟨step, there'⟩ (ReflTransGen.mono
          (stepWithin_le fun c member => inMore (List.mem_cons_of_mem _ member)) _ _ path)
  · refine nodup_append_new h.nodup ?_
    split
    · exact List.nodup_singleton b
    · exact sub.nodup
  · intro a
    have target : branches a = false → (a ∈ done ++ [b] ↔ a ∈ done) := by
      intro leaf
      have other : a ≠ b := by
        rintro rfl
        simp [branching] at leaf
      simp [other]
    have from_ : (∃ c ∈ new ++ b :: more, a ∈ next c) ↔
        (∃ c ∈ new, a ∈ next c) ∨ ∃ c ∈ b :: more, a ∈ next c := by
      simp only [List.mem_append, or_and_right, exists_or]
    rw [mem_append_new, sub.mem_added, h.mem a, top_append once h.closed branchingMore, ← and_or_left,
      from_]
    refine and_congr_right fun _ => ?_
    constructor
    · rintro ((top | ⟨leaf, place | place⟩) | top | ⟨leaf, place⟩)
      · exact .inl (.inl top)
      · exact .inr ⟨leaf, .inl (List.mem_append_left _ place)⟩
      · exact .inr ⟨leaf, .inr (.inl place)⟩
      · exact .inl (.inr top)
      · exact .inr ⟨leaf, .inr (.inr place)⟩
    · rintro ((top | top) | ⟨leaf, place | place | place⟩)
      · exact .inl (.inl top)
      · exact .inr (.inl top)
      · exact .inl (.inr ⟨leaf, .inl ((target leaf).1 place)⟩)
      · exact .inl (.inr ⟨leaf, .inr place⟩)
      · exact .inr (.inr ⟨leaf, place⟩)

section

variable {pool : List α} {gather : α → List α → List α × List α}

def Searches (good : α → Bool) (next : α → List α) (branches : α → Bool) (pool : List α)
    (gather : α → List α → List α × List α) (fuel : Nat) : Prop :=
  ∀ b ∈ pool, ∀ met : List α, b ∉ met → met.Nodup → (∀ a ∈ met, branches a = true) →
    unmet pool met < fuel →
    if branches b then ∃ new, (gather b met).2 = met ++ [b] ++ new ∧
      Gleaned good next branches (next b) (met ++ [b]) new (gather b met).1
    else gather b met = (if good b then [b] else [], met)

theorem foldl_gleaned {fuel : Nat} (searches : Searches good next branches pool gather fuel)
    (targets : List α) (within : ∀ b ∈ targets, b ∈ pool) (found : List α × List α)
    (enough : unmet pool met < fuel) (split : found.2 = met ++ new)
    (h : Gleaned good next branches done met new found.1) :
    ∃ new', (targets.foldl (visitTop good gather) found).2 = met ++ new' ∧
      Gleaned good next branches (done ++ targets) met new'
        (targets.foldl (visitTop good gather) found).1 := by
  induction targets generalizing done new found with
  | nil => exact ⟨new, split, by simpa using h⟩
  | cons b targets ih =>
    rw [List.forall_mem_cons] at within
    rw [List.foldl_cons, List.append_cons]
    have less : unmet pool (met ++ new) < fuel := Nat.lt_of_le_of_lt (unmet_append_le pool met new) enough
    by_cases known : b ∈ found.2
    · rw [visitTop, if_pos known]
      exact ih within.2 found split (h.known (split ▸ known))
    · have spec := searches b within.1 found.2 known (split ▸ h.once) (split ▸ h.branching) (split ▸ less)
      rw [visitTop, if_neg known]
      by_cases branching : branches b = true
      · rw [if_pos branching] at spec
        obtain ⟨more, met', sub⟩ := spec
        refine ih within.2 _ ?_ (h.fresh branching (by rwa [← split]))
        rw [met', split]
        simp
      · rw [if_neg branching] at spec
        rw [spec]
        have leaf := h.leaf (b := b) (by simpa using branching)
        have same : (if (if good b then [b] else ([] : List α)).isEmpty ∧ good b = true then [b]
            else if good b then [b] else []) = if good b = true then [b] else [] := by
          cases good b <;> rfl
        dsimp only
        rw [same]
        exact ih within.2 _ split leaf

theorem tops_searches (within : ∀ a ∈ pool, ∀ b ∈ next a, b ∈ pool) (fuel : Nat) :
    Searches good next branches pool (tops good next branches fuel) fuel := by
  induction fuel with
  | zero => exact fun _ _ _ _ _ _ less => absurd less (Nat.not_lt_zero _)
  | succ fuel ih =>
    intro b member met fresh once branching enough
    rw [tops]
    by_cases here : branches b = true
    · rw [if_pos here, if_pos here]
      have entered := unmet_enter_lt member fresh
      have once' : (met ++ [b]).Nodup := by
        rw [List.nodup_append]
        exact ⟨once, List.nodup_singleton b, fun a there c here same =>
          fresh (List.mem_singleton.1 here ▸ same ▸ there)⟩
      have branching' : ∀ a ∈ met ++ [b], branches a = true := by
        simpa [or_imp, forall_and, here] using branching
      exact foldl_gleaned ih (next b) (within b member) ([], met ++ [b]) (by omega) (by simp)
        (gleaned_nil once' branching')
    · rw [if_neg here, if_neg here]

variable (good) in
theorem tops_met (fuel : Nat) (w : Walk α) (fresh : b ∉ w.met) (branching : branches b = true) :
    (tops good next branches fuel b w.met).2 =
      (visit (fun a => (next a).filter branches) fuel w b).met := by
  induction fuel generalizing w b with
  | zero => rfl
  | succ fuel ih =>
    have loop (targets : List α) (found : List α × List α) (w : Walk α) (same : found.2 = w.met) :
        (targets.foldl (visitTop good (tops good next branches fuel)) found).2 =
          ((targets.filter branches).foldl
            (fun w c => (visit (fun a => (next a).filter branches) fuel w c).leave b c) w).met := by
      induction targets generalizing found w with
      | nil => exact same
      | cons c targets ihTargets =>
        rw [List.foldl_cons, visitTop, same]
        by_cases steps : branches c = true
        · rw [List.filter_cons_of_pos steps, List.foldl_cons]
          by_cases known : c ∈ w.met
          · rw [if_pos known, visit_of_mem fuel known]
            exact ihTargets found _ same
          · rw [if_neg known]
            exact ihTargets _ _ (ih w known steps)
        · rw [List.filter_cons_of_neg steps]
          split
          · exact ihTargets found w same
          · refine ihTargets _ w ?_
            cases fuel with
            | zero => rfl
            | succ fuel => simp [tops, steps]
    rw [tops, if_pos branching, visit, if_neg fresh]
    exact loop (next b) ([], w.met ++ [b]) (w.enter b) rfl

end

/-- The places that are met once `a` has been. -/
def metAfter (met : List α) (a : α) : List α := met.drop (met.idxOf a + 1)

theorem top_iff {met : List α} (once : met.Nodup) {a : α} :
    Top good next branches met a ↔
      a ∈ met ∧ ¬ ∃ b, good b = true ∧ Onward next branches (metAfter met a) a b := by
  have after {before after : List α} (once : (before ++ a :: after).Nodup) :
      metAfter (before ++ a :: after) a = after := by
    have fresh : a ∉ before := fun member =>
      (List.nodup_append.1 once).2.2 a member a List.mem_cons_self rfl
    rw [metAfter, List.idxOf_append_of_notMem fresh, List.idxOf_cons_self, Nat.add_zero,
      List.drop_append]
    simp
  constructor
  · rintro ⟨before, rest, rfl, none_⟩
    refine ⟨List.mem_append_right _ List.mem_cons_self, ?_⟩
    rwa [after once]
  · rintro ⟨member, none_⟩
    obtain ⟨before, rest, rfl⟩ := List.append_of_mem member
    rw [after once] at none_
    exact ⟨before, rest, rfl, none_⟩

end NodeAutomation.SearchTops
