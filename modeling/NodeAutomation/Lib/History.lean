import NodeAutomation.Lib.Runs

/-! Logs, the newest entry last. What is said of an entry may speak of those before it. -/

namespace NodeAutomation.History

open Runs (Along)

variable {α : Type*} {P Q : List α → α → Prop} {log before : List α} {entry : α}

def push (before : List α) (entry : α) : List α := before ++ [entry]

/-- Every entry of the log, with the entries before it. -/
def Each (P : List α → α → Prop) (log : List α) : Prop := Along push P [] log

instance [∀ before entry, Decidable (P before entry)] : Decidable (Each P log) :=
  inferInstanceAs (Decidable (Along push P [] log))

theorem along_push_iff {first : List α} :
    Along push P first log ↔
      ∀ before entry later, log = before ++ entry :: later → P (first ++ before) entry := by
  induction log generalizing first with
  | nil =>
    refine ⟨fun _ before entry later same => ?_, fun _ => trivial⟩
    exact absurd same (by simp)
  | cons head rest ih =>
    refine ⟨fun h before entry later same => ?_, fun h => ⟨?_, ih.2 fun before entry later same => ?_⟩⟩
    · cases before with
      | nil =>
        have heads := (List.cons.inj same).1
        rw [List.append_nil, ← heads]
        exact h.1
      | cons head' before =>
        have heads := (List.cons.inj same).1
        have here := ih.1 h.2 before entry later (List.cons.inj same).2
        rw [push, List.append_assoc, List.singleton_append, heads] at here
        exact here
    · have here := h [] head rest rfl
      rwa [List.append_nil] at here
    · rw [push, List.append_assoc, List.singleton_append]
      exact h (head :: before) entry later (by rw [same, List.cons_append])

theorem each_iff :
    Each P log ↔ ∀ before entry later, log = before ++ entry :: later → P before entry := along_push_iff

theorem each_nil : Each P [] := trivial

theorem Each.at_ (h : Each P log) {later : List α} (split : log = before ++ entry :: later) :
    P before entry := each_iff.1 h before entry later split

theorem Each.of_mem (h : Each P log) (member : entry ∈ log) :
    ∃ before later, log = before ++ entry :: later ∧ P before entry := by
  obtain ⟨before, later, split⟩ := List.append_of_mem member
  exact ⟨before, later, split, h.at_ split⟩

theorem Each.concat (h : Each P log) (here : P log entry) : Each P (log ++ [entry]) := by
  rw [each_iff]
  intro before other later same
  cases List.append_eq_append_iff.1 same with
  | inl longer =>
    obtain ⟨more, split, last⟩ := longer
    cases more with
    | nil =>
      rw [List.append_nil] at split
      rw [split, ← (List.cons.inj last).1]
      exact here
    | cons head tail => exact absurd last (by simp)
  | inr shorter =>
    obtain ⟨middle, split, last⟩ := shorter
    cases middle with
    | nil =>
      rw [List.append_nil] at split
      rw [(List.cons.inj last).1, ← split]
      exact here
    | cons head tail =>
      rw [← (List.cons.inj last).1] at split
      exact h.at_ split

theorem Each.of_append {later : List α} (h : Each P (log ++ later)) : Each P log := by
  rw [each_iff]
  intro before entry rest split
  refine h.at_ (?_ : log ++ later = before ++ entry :: (rest ++ later))
  rw [split, List.append_assoc, List.cons_append]

end NodeAutomation.History
