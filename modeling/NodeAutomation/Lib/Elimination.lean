import Mathlib.Data.List.Basic

/-! Eliminating vertices from a graph whose edges leave by a port and enter by
a port. Eliminating a vertex joins every edge into it with every edge out of
it; eliminating several, one after another, leaves between the other vertices
exactly the chains through the eliminated ones. -/

namespace NodeAutomation.Elimination

variable {N P Q : Type*}

/-- From a vertex, by a leaving port, to an entering port of a vertex. -/
abbrev Edges (N P Q : Type*) := N → P → Q → N → Prop

/-- A walk whose inner vertices are passed as `pass` allows: entered by the
port it names second and left by the port it names third. -/
inductive Chain (R : Edges N P Q) (pass : N → Q → P → Prop) : Edges N P Q
  | edge {u p q v} : R u p q v → Chain R pass u p q v
  | through {u p q d p' q' v} :
      Chain R pass u p q d → pass d q p' → R d p' q' v → Chain R pass u p q' v

def anyPort (inner : N → Prop) : N → Q → P → Prop := fun d _ _ => inner d

/-- Joins every edge into `d` with every edge out of `d`. An edge from `d` to
itself survives, being joined with itself. -/
def eliminate (R : Edges N P Q) (d : N) : Edges N P Q := fun u p q v =>
  (R u p q v ∧ u ≠ d ∧ v ≠ d) ∨ ∃ q' p', R u p q' d ∧ R d p' q v

def eliminateAll (R : Edges N P Q) (ds : List N) : Edges N P Q := ds.foldl eliminate R

@[simp] theorem eliminateAll_nil (R : Edges N P Q) : eliminateAll R [] = R := rfl

@[simp] theorem eliminateAll_cons (R : Edges N P Q) (d : N) (ds : List N) :
    eliminateAll R (d :: ds) = eliminateAll (eliminate R d) ds := rfl

variable {R S : Edges N P Q} {pass pass' : N → Q → P → Prop} {inner rest : N → Prop}

theorem Chain.trans {u p q d p' q' v} (first : Chain R pass u p q d) (passed : pass d q p')
    (second : Chain R pass d p' q' v) : Chain R pass u p q' v := by
  induction second with
  | edge e => exact .through first passed e
  | through _ passed' e ih => exact .through (ih first passed) passed' e

theorem chain_none {u p q v} : Chain R (anyPort fun _ => False) u p q v ↔ R u p q v := by
  refine ⟨fun chain => ?_, .edge⟩
  cases chain with
  | edge e => exact e
  | through _ passed _ => exact passed.elim

theorem chain_of_eliminate {d : N} (here : inner d) (more : ∀ x, rest x → inner x) {u p q v}
    (chain : Chain (eliminate R d) (anyPort rest) u p q v) :
    Chain R (anyPort inner) u p q v := by
  have expand : ∀ {u p q v}, eliminate R d u p q v → Chain R (anyPort inner) u p q v := by
    intro u p q v e
    cases e with
    | inl kept => exact .edge kept.1
    | inr joined =>
      obtain ⟨_, _, into, out⟩ := joined
      exact .through (.edge into) here out
  induction chain with
  | edge e => exact expand e
  | through _ passed e ih => exact ih.trans (more _ passed) (expand e)

theorem eliminate_of_chain {d : N} (cover : ∀ x, inner x → x = d ∨ rest x) {u p q v}
    (hu : u ≠ d) (chain : Chain R (anyPort inner) u p q v) :
    (v ≠ d → Chain (eliminate R d) (anyPort rest) u p q v) ∧
    (v = d → ∀ p' q' w, R d p' q' w → w ≠ d →
      Chain (eliminate R d) (anyPort rest) u p q' w) := by
  induction chain with
  | @edge u p q v e =>
    refine ⟨fun hv => .edge (.inl ⟨e, hu, hv⟩), fun hv p' q' w out _ => ?_⟩
    subst hv
    exact .edge (.inr ⟨q, p', e, out⟩)
  | @through u p q x p' q' v _ passed e ih =>
    obtain ⟨away, arrived⟩ := ih hu
    by_cases hx : x = d
    · subst hx
      refine ⟨fun hv => arrived rfl p' q' v e hv, fun hv => ?_⟩
      subst hv
      exact arrived rfl
    · have on : rest x := (cover x passed).resolve_left hx
      refine ⟨fun hv => .through (away hx) on (.inl ⟨e, hx, hv⟩), fun hv p₂ q₂ w out _ => ?_⟩
      subst hv
      exact .through (away hx) on (.inr ⟨q', p₂, e, out⟩)

theorem chain_eliminate_iff {d : N} (cover : ∀ x, inner x ↔ x = d ∨ rest x) {u p q v}
    (hu : u ≠ d) (hv : v ≠ d) :
    Chain (eliminate R d) (anyPort rest) u p q v ↔ Chain R (anyPort inner) u p q v :=
  ⟨chain_of_eliminate ((cover d).2 (.inl rfl)) (fun x hx => (cover x).2 (.inr hx)),
    fun chain => (eliminate_of_chain (fun x => (cover x).1) hu chain).1 hv⟩

theorem eliminateAll_iff (R : Edges N P Q) (ds : List N) {u p q v} (hu : u ∉ ds) (hv : v ∉ ds) :
    eliminateAll R ds u p q v ↔ Chain R (anyPort (· ∈ ds)) u p q v := by
  induction ds generalizing R with
  | nil => simpa [eliminateAll_nil] using (chain_none (R := R)).symm
  | cons d ds ih =>
    simp only [List.mem_cons, not_or] at hu hv
    rw [eliminateAll_cons, ih _ hu.2 hv.2]
    exact chain_eliminate_iff (fun x => List.mem_cons) hu.1 hv.1

theorem chain_of_eliminateAll {ds : List N} (more : ∀ x ∈ ds, inner x) {u p q v}
    (e : eliminateAll R ds u p q v) : Chain R (anyPort inner) u p q v := by
  induction ds generalizing R with
  | nil => exact .edge e
  | cons d ds ih =>
    have chain := ih (fun x hx => more x (List.mem_cons_of_mem d hx)) e
    exact chain_of_eliminate (more d List.mem_cons_self) (fun _ hx => hx) chain

/-! An eliminated vertex keeps an edge exactly when it lay on a cycle of
eliminated vertices. -/

def Acyclic (R : Edges N P Q) (inner : N → Prop) : Prop :=
  ∀ d, inner d → ∀ p q, ¬ Chain R (anyPort inner) d p q d

/-- No edge starts or ends at `d`. -/
def Avoids (R : Edges N P Q) (d : N) : Prop := ∀ u p q v, R u p q v → u ≠ d ∧ v ≠ d

theorem acyclic_of_rank (rank : N → Nat)
    (climbs : ∀ u p q v, inner u → inner v → R u p q v → rank u < rank v) : Acyclic R inner := by
  have rises : ∀ {u p q v}, Chain R (anyPort inner) u p q v → inner u → inner v →
      rank u < rank v := by
    intro u p q v chain hu
    induction chain with
    | edge e => exact fun hv => climbs _ _ _ _ hu hv e
    | through _ passed e ih => exact fun hv => Nat.lt_trans (ih hu passed) (climbs _ _ _ _ passed hv e)
  intro d hd p q chain
  exact Nat.lt_irrefl _ (rises chain hd hd)

theorem acyclic_eliminate {d : N} (cover : ∀ x, inner x ↔ x = d ∨ rest x)
    (acyclic : Acyclic R inner) : Acyclic (eliminate R d) rest := by
  intro x hx p q chain
  have unfolded := chain_of_eliminate ((cover d).2 (.inl rfl)) (fun y hy => (cover y).2 (.inr hy))
    chain
  exact acyclic x ((cover x).2 (.inr hx)) p q unfolded

theorem acyclic_of_eliminate {d : N} (cover : ∀ x, inner x ↔ x = d ∨ rest x)
    (noLoop : ∀ p q, ¬ R d p q d) (acyclic : Acyclic (eliminate R d) rest) :
    Acyclic R inner := by
  have others : ∀ x, inner x → x ≠ d → ∀ p q, ¬ Chain R (anyPort inner) x p q x := by
    intro x hx away p q chain
    exact acyclic x (((cover x).1 hx).resolve_left away) p q
      ((chain_eliminate_iff cover away away).2 chain)
  intro x hx p q chain
  by_cases same : x = d
  · subst same
    cases chain with
    | edge e => exact noLoop p q e
    | @through _ _ q' y p' _ _ first passed e =>
      by_cases back : y = x
      · subst back
        exact noLoop _ _ e
      · exact others y passed back p' q' ((Chain.edge e).trans hx first)
  · exact others x hx same p q chain

theorem avoids_eliminate {d e : N} (h : Avoids R d) : Avoids (eliminate R e) d := by
  intro u p q v edge
  cases edge with
  | inl kept => exact h u p q v kept.1
  | inr joined =>
    obtain ⟨_, _, into, out⟩ := joined
    exact ⟨(h _ _ _ _ into).1, (h _ _ _ _ out).2⟩

theorem avoids_eliminateAll {d : N} {ds : List N} (h : Avoids R d) :
    Avoids (eliminateAll R ds) d := by
  induction ds generalizing R with
  | nil => exact h
  | cons e ds ih => exact ih (avoids_eliminate h)

theorem avoids_of_noLoop {d : N} (noLoop : ∀ p q, ¬ R d p q d) : Avoids (eliminate R d) d := by
  intro u p q v edge
  cases edge with
  | inl kept => exact kept.2
  | inr joined =>
    obtain ⟨_, _, into, out⟩ := joined
    constructor
    · intro hu
      subst hu
      exact noLoop _ _ into
    · intro hv
      subst hv
      exact noLoop _ _ out

theorem loop_persists {d : N} {p : P} {q : Q} {ds : List N} (loop : R d p q d) :
    eliminateAll R ds d p q d := by
  induction ds generalizing R with
  | nil => exact loop
  | cons e ds ih =>
    apply ih
    by_cases same : d = e
    · subst same
      exact .inr ⟨q, p, loop, loop⟩
    · exact .inl ⟨loop, same, same⟩

theorem closed_iff_acyclic (R : Edges N P Q) (ds : List N) :
    (∀ d ∈ ds, Avoids (eliminateAll R ds) d) ↔ Acyclic R (· ∈ ds) := by
  induction ds generalizing R with
  | nil => simp [Acyclic]
  | cons d ds ih =>
    have cover : ∀ x, x ∈ d :: ds ↔ x = d ∨ x ∈ ds := fun x => List.mem_cons
    constructor
    · intro closed
      have noLoop : ∀ p q, ¬ R d p q d := fun p q loop =>
        (closed d List.mem_cons_self d p q d (loop_persists loop)).1 rfl
      have later := (ih (eliminate R d)).1 fun x hx => closed x (List.mem_cons_of_mem d hx)
      exact acyclic_of_eliminate cover noLoop later
    · intro acyclic x hx
      have noLoop : ∀ p q, ¬ R d p q d := fun p q loop =>
        acyclic d List.mem_cons_self p q (.edge loop)
      cases List.mem_cons.1 hx with
      | inl same =>
        subst same
        exact avoids_eliminateAll (R := eliminate R x) (avoids_of_noLoop noLoop)
      | inr later => exact (ih (eliminate R d)).2 (acyclic_eliminate cover acyclic) x later

end NodeAutomation.Elimination
