import Mathlib.Data.List.Nodup

/-! Walks in a graph whose edges are things of their own, each with a source and a target: a walk is the
list of its edges. -/

namespace NodeAutomation.EdgeWalks

variable {ε α : Type*}

def Leads (source target : ε → α) : α → List ε → α → Prop
  | a, [], b => a = b
  | a, edge :: rest, b => source edge = a ∧ Leads source target (target edge) rest b

def decideLeads [DecidableEq α] (source target : ε → α) :
    (a : α) → (walk : List ε) → (b : α) → Decidable (Leads source target a walk b)
  | a, [], b => inferInstanceAs (Decidable (a = b))
  | a, edge :: rest, b =>
    have := decideLeads source target (target edge) rest b
    inferInstanceAs (Decidable (source edge = a ∧ Leads source target (target edge) rest b))

instance [DecidableEq α] (source target : ε → α) (a b : α) (walk : List ε) :
    Decidable (Leads source target a walk b) := decideLeads source target a walk b

variable {source target : ε → α} {a b c : α} {walk rest : List ε} {edge : ε}

theorem leads_append : Leads source target a (walk ++ rest) b ↔
    ∃ c, Leads source target a walk c ∧ Leads source target c rest b := by
  induction walk generalizing a with
  | nil => simp [Leads]
  | cons edge walk ih => simp only [List.cons_append, Leads, ih, exists_and_left, and_assoc]

theorem leads_concat : Leads source target a (walk ++ [edge]) b ↔
    Leads source target a walk (source edge) ∧ target edge = b := by
  simp only [leads_append, Leads]
  constructor
  · intro h
    obtain ⟨c, first, rfl, last⟩ := h
    exact ⟨first, last⟩
  · exact fun h => ⟨_, h.1, rfl, h.2⟩

theorem Leads.onward (h : Leads source target a walk b) (met : c ∈ a :: walk.map target) :
    ∃ before after, walk = before ++ after ∧ Leads source target c after b ∧
      (c :: after.map target).Sublist (a :: walk.map target) := by
  induction walk generalizing a with
  | nil =>
    obtain rfl := List.mem_singleton.1 met
    exact ⟨[], [], rfl, h, .refl _⟩
  | cons edge walk ih =>
    cases List.mem_cons.1 met with
    | inl same =>
      cases same
      exact ⟨[], edge :: walk, rfl, h, .refl _⟩
    | inr later =>
      obtain ⟨before, after, whole, leads, part⟩ := ih h.2 later
      exact ⟨edge :: before, after, by rw [whole, List.cons_append], leads, part.cons _⟩

theorem Leads.shortcut (h : Leads source target a walk b) :
    ∃ short, Leads source target a short b ∧ (∀ edge ∈ short, edge ∈ walk) ∧ (a :: short.map target).Nodup := by
  induction walk generalizing a with
  | nil => exact ⟨[], h, fun _ member => member, List.nodup_singleton a⟩
  | cons edge walk ih =>
    obtain ⟨short, leads, members, once⟩ := ih h.2
    have inside : ∀ e ∈ short, e ∈ edge :: walk := fun e member => List.mem_cons_of_mem edge (members e member)
    by_cases met : a ∈ target edge :: short.map target
    · obtain ⟨before, after, whole, onward, part⟩ := leads.onward met
      refine ⟨after, onward, fun e member => inside e ?_, part.nodup once⟩
      rw [whole]
      exact List.mem_append_right before member
    · refine ⟨edge :: short, ⟨h.1, leads⟩, fun e member => ?_, List.nodup_cons.2 ⟨met, once⟩⟩
      cases List.mem_cons.1 member with
      | inl same => exact same ▸ List.mem_cons_self
      | inr later => exact inside e later

end NodeAutomation.EdgeWalks
