import Mathlib.Logic.Function.Basic

/-! A cache beside a table. Who changes the table calls the cache afterwards, and a key is owed
while such a call is still to come. -/

namespace NodeAutomation.CacheAside

variable {κ ν : Type*} {table table' cache : κ → Option ν} {owed owed' : κ → Prop}

def Coherent (table cache : κ → Option ν) : Prop := ∀ key value, cache key = some value → table key = some value

def Covered (table cache : κ → Option ν) (owed : κ → Prop) : Prop :=
  ∀ key value, cache key = some value → table key = some value ∨ owed key

section

variable (h : Covered table cache owed)
include h

theorem Covered.mono (more : ∀ key, owed key → owed' key) :
    Covered table cache owed' :=
  fun key value cached => (h key value cached).imp_right (more key)

theorem Covered.coherent (settled : ∀ key, ¬ owed key) :
    Coherent table cache :=
  fun key value cached => (h key value cached).resolve_right (settled key)

theorem Covered.write (more : ∀ key, owed key → owed' key)
    (changed : ∀ key, table' key = table key ∨ owed' key ∨ cache key = none) :
    Covered table' cache owed' := by
  intro key value cached
  cases changed key with
  | inl same =>
    rw [same]
    exact (h key value cached).imp_right (more key)
  | inr rest =>
    cases rest with
    | inl now => exact .inr now
    | inr absent => exact absurd (cached.symm.trans absent) (by simp)

theorem Covered.refill [DecidableEq κ] {key : κ} {value : ν}
    (others : ∀ other, other ≠ key → owed other → owed' other)
    (current : table key = some value ∨ owed' key) :
    Covered table (Function.update cache key (some value)) owed' := by
  intro other cachedValue cached
  by_cases same : other = key
  · rw [same, Function.update_self] at cached
    rw [same, ← Option.some.inj cached]
    exact current
  · rw [Function.update_of_ne same] at cached
    exact (h other cachedValue cached).imp_right (others other same)

theorem Covered.invalidate {cache' : κ → Option ν}
    (shrunk : ∀ key value, cache' key = some value → cache key = some value ∧ (owed key → owed' key)) :
    Covered table cache' owed' := by
  intro key value cached
  have before := shrunk key value cached
  exact (h key value before.1).imp_right before.2

end

end NodeAutomation.CacheAside
