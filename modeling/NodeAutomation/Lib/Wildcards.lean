import Mathlib.Data.List.Infix

/-! Patterns with a wildcard for any string. A matcher reads a pattern as tokens, each of which
accepts single letters or stands for a string; what such tokens denote does not depend on the
language they were written in. -/

namespace NodeAutomation.Wildcards

variable {α : Type*}

inductive Token (α : Type*) where
  | any
  | one (accepts : α → Bool)

def matchTokens : List (Token α) → List α → Bool
  | [], text => text.isEmpty
  | .any :: tokens, text => text.tails.any fun rest => matchTokens tokens rest
  | .one _ :: _, [] => false
  | .one accepts :: tokens, c :: text => accepts c && matchTokens tokens text

/-- The texts of a pattern in which one letter stands for any string, and every other for itself. -/
inductive Denotes (wild : α) : List α → List α → Prop where
  | nil : Denotes wild [] []
  | any (block : List α) (h : Denotes wild pattern text) : Denotes wild (wild :: pattern) (block ++ text)
  | one (plain : c ≠ wild) (h : Denotes wild pattern text) : Denotes wild (c :: pattern) (c :: text)

inductive Reads (wild : α) : α → Token α → Prop where
  | any : Reads wild wild .any
  | one (plain : c ≠ wild) (only : ∀ d, accepts d = true ↔ d = c) : Reads wild c (.one accepts)

variable {wild : α} {pattern text : List α} {tokens : List (Token α)}

theorem matchTokens_any_iff : matchTokens (.any :: tokens) text = true ↔
    ∃ rest, rest <:+ text ∧ matchTokens tokens rest = true := by
  rw [matchTokens, List.any_eq_true]
  simp only [List.mem_tails]

theorem matchTokens_one_iff {accepts : α → Bool} : matchTokens (.one accepts :: tokens) text = true ↔
    ∃ c rest, text = c :: rest ∧ accepts c = true ∧ matchTokens tokens rest = true := by
  cases text with
  | nil => simp [matchTokens]
  | cons c rest => simp [matchTokens]

theorem denotes_any_iff : Denotes wild (wild :: pattern) text ↔ ∃ rest, rest <:+ text ∧ Denotes wild pattern rest := by
  constructor
  · intro h
    cases h with
    | any block h => exact ⟨_, List.suffix_append block _, h⟩
    | one plain h => exact absurd rfl plain
  · rintro ⟨rest, ⟨block, rfl⟩, h⟩
    exact .any block h

theorem denotes_one_iff {c : α} (plain : c ≠ wild) : Denotes wild (c :: pattern) text ↔
    ∃ rest, text = c :: rest ∧ Denotes wild pattern rest := by
  constructor
  · intro h
    cases h with
    | any block h => exact absurd rfl plain
    | one _ h => exact ⟨_, rfl, h⟩
  · rintro ⟨rest, rfl, h⟩
    exact .one plain h

theorem denotes_front_iff (plain : wild ∉ pattern) : Denotes wild (pattern ++ [wild]) text ↔ pattern <+: text := by
  induction pattern generalizing text with
  | nil =>
    rw [List.nil_append, denotes_any_iff]
    exact iff_of_true ⟨[], List.nil_suffix, .nil⟩ List.nil_prefix
  | cons c pattern ih =>
    rw [List.mem_cons, not_or] at plain
    rw [List.cons_append, denotes_one_iff (Ne.symm plain.1), List.cons_prefix_iff]
    exact exists_congr fun rest => and_congr_right fun _ => ih plain.2

theorem denotes_enclosed_iff (plain : wild ∉ pattern) :
    Denotes wild (wild :: (pattern ++ [wild])) text ↔ pattern <:+: text := by
  rw [denotes_any_iff, List.infix_iff_prefix_suffix]
  constructor
  · rintro ⟨rest, behind, h⟩
    exact ⟨rest, (denotes_front_iff plain).1 h, behind⟩
  · rintro ⟨rest, h, behind⟩
    exact ⟨rest, behind, (denotes_front_iff plain).2 h⟩

theorem matchTokens_iff_denotes (reads : List.Forall₂ (Reads wild) pattern tokens) :
    matchTokens tokens text = true ↔ Denotes wild pattern text := by
  induction reads generalizing text with
  | nil =>
    rw [matchTokens, List.isEmpty_iff]
    constructor
    · rintro rfl
      exact .nil
    · intro h
      cases h
      rfl
  | @cons c token pattern tokens here reads ih =>
    cases here with
    | any =>
      rw [matchTokens_any_iff, denotes_any_iff]
      exact exists_congr fun rest => and_congr_right fun _ => ih
    | @one _ accepts plain only =>
      rw [matchTokens_one_iff, denotes_one_iff plain]
      constructor
      · rintro ⟨d, rest, rfl, accepted, matched⟩
        exact ⟨rest, by rw [(only d).1 accepted], ih.1 matched⟩
      · rintro ⟨rest, rfl, h⟩
        exact ⟨c, rest, rfl, (only c).2 rfl, ih.2 h⟩

end NodeAutomation.Wildcards
