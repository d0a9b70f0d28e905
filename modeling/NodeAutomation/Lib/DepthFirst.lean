import Mathlib.Data.List.Nodup
import Mathlib.Logic.Relation

/-! A recursive depth-first search: the order in which it meets places, and the order in which it
comes back from the steps between them. -/

namespace NodeAutomation.DepthFirst

variable {α : Type*}

/-- `left` holds the steps that the search has come back from, the latest first. -/
structure Walk (α : Type*) where
  met : List α := []
  left : List (α × α) := []
  deriving DecidableEq

namespace Walk

def enter (w : Walk α) (a : α) : Walk α := { w with met := w.met ++ [a] }

def leave (w : Walk α) (a b : α) : Walk α := { w with left := (a, b) :: w.left }

end Walk

def visit [DecidableEq α] (next : α → List α) : Nat → Walk α → α → Walk α
  | 0, w, _ => w
  | fuel + 1, w, a =>
    if a ∈ w.met then w
    else (next a).foldl (fun w b => (visit next fuel w b).leave a b) (w.enter a)

def Reaches (next : α → List α) : α → α → Prop := Relation.ReflTransGen fun a b => b ∈ next a

/-- The strongly connected components are the classes of this equivalence. -/
def Mutual (next : α → List α) (a b : α) : Prop := Reaches next a b ∧ Reaches next b a

def IsPath : α → List (α × α) → α → Prop
  | a, [], b => a = b
  | a, step :: path, b => a = step.1 ∧ IsPath step.2 path b

/-- A path whose steps the search has left one after the other, the first one last. -/
def Retraces (left : List (α × α)) (a b : α) : Prop := ∃ path, path.Sublist left ∧ IsPath a path b

def Earliest (P : α → Prop) (places : List α) (a : α) : Prop :=
  ∃ before after, places = before ++ a :: after ∧ P a ∧ ∀ b ∈ before, ¬P b

variable {next : α → List α} {a b c : α}

theorem mutual_refl (a : α) : Mutual next a a := ⟨.refl, .refl⟩

theorem Mutual.symm (h : Mutual next a b) : Mutual next b a := ⟨h.2, h.1⟩

theorem Mutual.trans (h : Mutual next a b) (h' : Mutual next b c) : Mutual next a c :=
  ⟨h.1.trans h'.1, h'.2.trans h.2⟩

theorem reaches_next (step : b ∈ next a) : Reaches next a b := .single step

theorem leaves {P : α → Prop} (h : Reaches next a b) (inside : P a) :
    P b ∨ ∃ c d, P c ∧ d ∈ next c ∧ ¬P d ∧ Reaches next a c ∧ Reaches next d b := by
  induction h using Relation.ReflTransGen.head_induction_on with
  | refl => exact .inl inside
  | @head a c step path ih =>
    by_cases there : P c
    · refine (ih there).imp_right fun exit => ?_
      obtain ⟨e, d, holds, leaving, outside, before, behind⟩ := exit
      exact ⟨e, d, holds, leaving, outside, .head step before, behind⟩
    · exact .inr ⟨a, c, inside, step, there, .refl, path⟩

section

variable {left more : List (α × α)} {step : α × α}

theorem retraces_refl (left : List (α × α)) (a : α) : Retraces left a a := ⟨[], List.nil_sublist _, rfl⟩

theorem retraces_cons : Retraces (step :: left) a b ↔
    Retraces left a b ∨ a = step.1 ∧ Retraces left step.2 b := by
  constructor
  · intro h
    obtain ⟨path, sublist, leads⟩ := h
    cases List.sublist_cons_iff.1 sublist with
    | inl before => exact .inl ⟨path, before, leads⟩
    | inr through =>
      obtain ⟨rest, rfl, before⟩ := through
      exact .inr ⟨leads.1, rest, before, leads.2⟩
  · intro h
    cases h with
    | inl before =>
      obtain ⟨path, sublist, leads⟩ := before
      exact ⟨path, sublist.trans (List.sublist_cons_self _ _), leads⟩
    | inr through =>
      obtain ⟨here, path, sublist, leads⟩ := through
      exact ⟨step :: path, sublist.cons_cons step, here, leads⟩

theorem Retraces.mono (h : Retraces left a b) (more : List (α × α)) : Retraces (more ++ left) a b := by
  obtain ⟨path, sublist, leads⟩ := h
  exact ⟨path, sublist.trans (List.sublist_append_right _ _), leads⟩

theorem retraces_append (apart : ∀ step ∈ more, a ≠ step.1) :
    Retraces (more ++ left) a b ↔ Retraces left a b := by
  induction more with
  | nil => exact Iff.rfl
  | cons step more ih =>
    have later := ih fun other member => apart other (List.mem_cons_of_mem _ member)
    rw [List.cons_append, retraces_cons, later]
    exact or_iff_left fun through => apart step List.mem_cons_self through.1

theorem Retraces.reaches (h : Retraces left a b) (steps : ∀ step ∈ left, step.2 ∈ next step.1) :
    Reaches next a b := by
  induction left generalizing a with
  | nil =>
    obtain ⟨path, sublist, leads⟩ := h
    rw [List.sublist_nil.1 sublist] at leads
    exact leads ▸ .refl
  | cons step left ih =>
    have before := fun other member => steps other (List.mem_cons_of_mem _ member)
    cases retraces_cons.1 h with
    | inl earlier => exact ih earlier before
    | inr through =>
      rw [through.1]
      exact .head (steps step List.mem_cons_self) (ih through.2 before)

end

theorem Earliest.append {P : α → Prop} {places : List α} (h : Earliest P places a) (more : List α) :
    Earliest P (places ++ more) a := by
  obtain ⟨before, after, rfl, here, none⟩ := h
  exact ⟨before, after ++ more, by rw [List.append_assoc, List.cons_append], here, none⟩

theorem Earliest.congr {P Q : α → Prop} {places : List α} (h : Earliest P places a) (same : ∀ b, P b ↔ Q b) :
    Earliest Q places a := by
  obtain ⟨before, after, split, here, none⟩ := h
  exact ⟨before, after, split, (same a).1 here, fun b member holds => none b member ((same b).2 holds)⟩

theorem exists_earliest {P : α → Prop} {places : List α} (member : b ∈ places) (holds : P b) :
    ∃ a, Earliest P places a := by
  induction places with
  | nil => cases member
  | cons first places ih =>
    by_cases here : P first
    · exact ⟨first, [], places, rfl, here, fun _ never => absurd never List.not_mem_nil⟩
    · have later : b ∈ places := (List.mem_cons.1 member).resolve_left fun same => here (same ▸ holds)
      obtain ⟨a, before, after, rfl, there, none⟩ := ih later
      refine ⟨a, first :: before, after, rfl, there, fun other among => ?_⟩
      cases List.mem_cons.1 among with
      | inl same => exact same ▸ here
      | inr inside => exact none other inside

theorem Earliest.eq {P : α → Prop} {places : List α} (h : Earliest P places a) (h' : Earliest P places b) :
    a = b := by
  obtain ⟨before, after, split, here, none⟩ := h
  obtain ⟨before', after', split', here', none'⟩ := h'
  rw [split] at split'
  cases List.append_eq_append_iff.1 split' with
  | inl longer =>
    obtain ⟨middle, same, rest⟩ := longer
    cases middle with
    | nil => exact (List.cons.inj rest).1
    | cons first middle =>
      have first_eq := (List.cons.inj rest).1
      exact absurd here (none' a (by rw [same, first_eq]; simp))
  | inr shorter =>
    obtain ⟨middle, same, rest⟩ := shorter
    cases middle with
    | nil => exact (List.cons.inj rest).1.symm
    | cons first middle =>
      have first_eq := (List.cons.inj rest).1
      exact absurd here' (none b (by rw [same, first_eq]; simp))

def unmet [DecidableEq α] (pool met : List α) : Nat := (pool.filter (· ∉ met)).length

structure Explored (next : α → List α) (w : Walk α) (a : α) (new : List α) (w' : Walk α) : Prop where
  met : w'.met = w.met ++ new
  self : ∃ rest, new = a :: rest
  once : w'.met.Nodup
  reached : ∀ b ∈ new, Reaches next a b
  closed : ∀ b ∈ new, ∀ c ∈ next b, c ∈ w'.met
  left : ∃ steps, w'.left = steps ++ w.left ∧ ∀ step ∈ steps, step.1 ∈ new ∧ step.2 ∈ next step.1
  back : ∀ b ∈ new, ∀ c ∈ next b, Retraces w'.left a c

/-- A visit on its way: it has come back from some of the steps. -/
structure Exploring (next : α → List α) (w : Walk α) (a : α) (done new : List α) (w' : Walk α) : Prop where
  met : w'.met = w.met ++ a :: new
  once : w'.met.Nodup
  reached : ∀ b ∈ new, Reaches next a b
  closed : ∀ b ∈ new, ∀ c ∈ next b, c ∈ w'.met
  come : ∀ c ∈ done, c ∈ w'.met
  left : ∃ steps, w'.left = steps ++ w.left ∧ ∀ step ∈ steps, step.1 ∈ a :: new ∧ step.2 ∈ next step.1
  back : ∀ c ∈ done, Retraces w'.left a c
  backNew : ∀ b ∈ new, ∀ c ∈ next b, Retraces w'.left a c

variable {w w' : Walk α} {new : List α}

theorem Exploring.explored (h : Exploring next w a (next a) new w') : Explored next w a (a :: new) w' where
  met := h.met
  self := ⟨new, rfl⟩
  once := h.once
  reached b member := by
    cases List.mem_cons.1 member with
    | inl same => exact same ▸ .refl
    | inr later => exact h.reached b later
  closed b member := by
    cases List.mem_cons.1 member with
    | inl same => exact same ▸ h.come
    | inr later => exact h.closed b later
  left := h.left
  back b member := by
    cases List.mem_cons.1 member with
    | inl same => exact same ▸ h.back
    | inr later => exact h.backNew b later

theorem exploring_enter (fresh : a ∉ w.met) (once : w.met.Nodup) : Exploring next w a [] [] (w.enter a) where
  met := rfl
  once := by
    rw [Walk.enter, List.nodup_append]
    refine ⟨once, List.nodup_singleton _, fun b member c there => ?_⟩
    rw [List.mem_singleton.1 there]
    exact fun same => fresh (same ▸ member)
  reached _ never := absurd never List.not_mem_nil
  closed _ never := absurd never List.not_mem_nil
  come _ never := absurd never List.not_mem_nil
  left := ⟨[], rfl, fun _ never => absurd never List.not_mem_nil⟩
  back _ never := absurd never List.not_mem_nil
  backNew _ never := absurd never List.not_mem_nil

theorem Exploring.known {done : List α} (h : Exploring next w a done new w') (step : b ∈ next a)
    (met : b ∈ w'.met) : Exploring next w a (done ++ [b]) new (w'.leave a b) where
  met := h.met
  once := h.once
  reached := h.reached
  closed := h.closed
  come c member := by
    cases List.mem_append.1 member with
    | inl before => exact h.come c before
    | inr here => exact List.mem_singleton.1 here ▸ met
  left := by
    obtain ⟨steps, split, known⟩ := h.left
    refine ⟨(a, b) :: steps, by rw [Walk.leave, split, List.cons_append], fun other among => ?_⟩
    cases List.mem_cons.1 among with
    | inl same => exact same ▸ ⟨List.mem_cons_self, step⟩
    | inr before => exact known other before
  back c member := by
    cases List.mem_append.1 member with
    | inl before => exact (h.back c before).mono [(a, b)]
    | inr here =>
      rw [List.mem_singleton.1 here]
      exact retraces_cons.2 (.inr ⟨rfl, retraces_refl _ _⟩)
  backNew c member d there := (h.backNew c member d there).mono [(a, b)]

/-- The next step leads to a place that is visited on the way. -/
theorem Exploring.fresh {done more : List α} {w'' : Walk α} (h : Exploring next w a done new w')
    (step : b ∈ next a) (visited : Explored next w' b more w'') :
    Exploring next w a (done ++ [b]) (new ++ more) (w''.leave a b) where
  met := by
    rw [Walk.leave, visited.met, h.met, List.append_assoc, List.cons_append]
  once := visited.once
  reached c member := by
    cases List.mem_append.1 member with
    | inl before => exact h.reached c before
    | inr later => exact .head step (visited.reached c later)
  closed c member d there := by
    cases List.mem_append.1 member with
    | inl before =>
      rw [Walk.leave, visited.met]
      exact List.mem_append_left _ (h.closed c before d there)
    | inr later => exact visited.closed c later d there
  come c member := by
    rw [Walk.leave, visited.met]
    cases List.mem_append.1 member with
    | inl before => exact List.mem_append_left _ (h.come c before)
    | inr here =>
      obtain ⟨rest, rfl⟩ := visited.self
      rw [List.mem_singleton.1 here]
      exact List.mem_append_right _ List.mem_cons_self
  left := by
    obtain ⟨steps, split, known⟩ := h.left
    obtain ⟨later, split', known'⟩ := visited.left
    refine ⟨(a, b) :: (later ++ steps), by rw [Walk.leave, split', split, List.cons_append, List.append_assoc], ?_⟩
    intro other among
    cases List.mem_cons.1 among with
    | inl same => exact same ▸ ⟨List.mem_cons_self, step⟩
    | inr inside =>
      cases List.mem_append.1 inside with
      | inl new' =>
        exact ⟨List.mem_cons_of_mem _ (List.mem_append_right _ (known' other new').1), (known' other new').2⟩
      | inr before =>
        refine ⟨?_, (known other before).2⟩
        cases List.mem_cons.1 (known other before).1 with
        | inl same => exact same ▸ List.mem_cons_self
        | inr inside => exact List.mem_cons_of_mem _ (List.mem_append_left _ inside)
  back c member := by
    obtain ⟨later, split, _⟩ := visited.left
    cases List.mem_append.1 member with
    | inl before =>
      rw [Walk.leave, split]
      exact ((h.back c before).mono later).mono [(a, b)]
    | inr here =>
      rw [List.mem_singleton.1 here]
      exact retraces_cons.2 (.inr ⟨rfl, retraces_refl _ _⟩)
  backNew c member d there := by
    obtain ⟨later, split, _⟩ := visited.left
    cases List.mem_append.1 member with
    | inl before =>
      rw [Walk.leave, split]
      exact ((h.backNew c before d there).mono later).mono [(a, b)]
    | inr after => exact retraces_cons.2 (.inr ⟨rfl, visited.back c after d there⟩)

variable [DecidableEq α] {pool : List α}

theorem visit_of_mem (fuel : Nat) (met : a ∈ w.met) : visit next fuel w a = w := by
  cases fuel with
  | zero => rfl
  | succ fuel => rw [visit, if_pos met]

theorem unmet_le_length (pool met : List α) : unmet pool met ≤ pool.length := List.length_filter_le _ _

theorem unmet_append (pool met more : List α) :
    unmet pool (met ++ more) = ((pool.filter (· ∉ met)).filter (· ∉ more)).length := by
  rw [unmet, List.filter_filter]
  congr 2
  funext b
  simp [not_or, Bool.and_comm]

theorem unmet_append_le (pool met more : List α) : unmet pool (met ++ more) ≤ unmet pool met := by
  rw [unmet_append]
  exact List.length_filter_le _ _

theorem unmet_enter_lt {met : List α} (member : a ∈ pool) (fresh : a ∉ met) :
    unmet pool (met ++ [a]) < unmet pool met := by
  rw [unmet_append]
  exact List.length_filter_lt_length_iff_exists.2 ⟨a, List.mem_filter.2 ⟨member, by simpa using fresh⟩, by simp⟩

theorem unmet_pos {met : List α} (member : a ∈ pool) (fresh : a ∉ met) : 0 < unmet pool met :=
  Nat.lt_of_le_of_lt (Nat.zero_le _) (unmet_enter_lt member fresh)

/-- What the steps from a place keep, one after the other, holds behind all of them, provided that
each step to a place that has not been met explores. -/
theorem visit_steps {fuel : Nat} (member : a ∈ pool) (fresh : a ∉ w.met) (once : w.met.Nodup)
    (enough : unmet pool w.met ≤ fuel + 1)
    (explores : ∀ (w' : Walk α) (b : α), b ∈ next a → b ∉ w'.met → w'.met.Nodup → unmet pool w'.met ≤ fuel →
      ∃ more, Explored next w' b more (visit next fuel w' b))
    {P : List α → List α → Walk α → Prop} (entered : P [] [] (w.enter a))
    (known : ∀ done new w' b, Exploring next w a done new w' → P done new w' → b ∈ next a → b ∈ w'.met →
      unmet pool w'.met < unmet pool w.met → P (done ++ [b]) new (w'.leave a b))
    (visited : ∀ done new more w' b, Exploring next w a done new w' → P done new w' → b ∈ next a → b ∉ w'.met →
      unmet pool w'.met < unmet pool w.met → Explored next w' b more (visit next fuel w' b) →
      P (done ++ [b]) (new ++ more) ((visit next fuel w' b).leave a b)) :
    ∃ new, Exploring next w a (next a) new (visit next (fuel + 1) w a) ∧
      P (next a) new (visit next (fuel + 1) w a) := by
  rw [visit, if_neg fresh]
  have loop (rest : List α) : ∀ (done new : List α) (w' : Walk α), next a = done ++ rest →
      Exploring next w a done new w' → P done new w' → ∃ new', Exploring next w a (next a) new'
        (rest.foldl (fun w b => (visit next fuel w b).leave a b) w') ∧
        P (next a) new' (rest.foldl (fun w b => (visit next fuel w b).leave a b) w') := by
    induction rest with
    | nil =>
      intro done new w' split exploring holds
      rw [split, List.append_nil]
      exact ⟨new, exploring, holds⟩
    | cons b rest ihRest =>
      intro done new w' split exploring holds
      have step : b ∈ next a := by rw [split]; exact List.mem_append_right _ List.mem_cons_self
      have further : next a = (done ++ [b]) ++ rest := by rw [split, List.append_assoc]; rfl
      have less : unmet pool w'.met < unmet pool w.met := by
        have entering := unmet_enter_lt member fresh
        have fewer := unmet_append_le pool (w.met ++ [a]) new
        rw [exploring.met, ← List.singleton_append, ← List.append_assoc]
        omega
      rw [List.foldl_cons]
      by_cases met : b ∈ w'.met
      · rw [visit_of_mem fuel met]
        exact ihRest (done ++ [b]) new _ further (exploring.known step met)
          (known done new w' b exploring holds step met less)
      · obtain ⟨more, explored⟩ := explores w' b step met exploring.once (by omega)
        exact ihRest (done ++ [b]) (new ++ more) _ further (exploring.fresh step explored)
          (visited done new more w' b exploring holds step met less explored)
  exact loop (next a) [] [] _ rfl (exploring_enter fresh once) entered

theorem visit_explored (within : ∀ a ∈ pool, ∀ b ∈ next a, b ∈ pool) {fuel : Nat} (member : a ∈ pool)
    (fresh : a ∉ w.met) (once : w.met.Nodup) (enough : unmet pool w.met ≤ fuel) :
    ∃ new, Explored next w a new (visit next fuel w a) := by
  induction fuel generalizing w a with
  | zero => exact absurd (unmet_pos member fresh) (by omega)
  | succ fuel ih =>
    obtain ⟨new, exploring, _⟩ := visit_steps (P := fun _ _ _ => True) member fresh once enough
      (fun _ b step => ih (within a member b step)) trivial (fun _ _ _ _ _ _ _ _ _ => trivial)
      fun _ _ _ _ _ _ _ _ _ _ _ => trivial
    exact ⟨a :: new, exploring.explored⟩

end NodeAutomation.DepthFirst
