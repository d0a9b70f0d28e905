import NodeAutomation.Workflow.ExtractReferences

/-! What `resolveDuplicates` guarantees: under one prefix no two expressions get
the same name, and the names under a prefix depend on the references with that
prefix only. -/

namespace NodeAutomation.ExtractReferences
open AccessPatterns FreshSearch NodeReferences

theorem key_inj {p q name other : Text} (undotted : '.' ∉ name) (undotted' : '.' ∉ other)
    (same : key p name = key q other) : p = q ∧ name = other := by
  cases List.append_eq_append_iff.1 same with
  | inl longer =>
    obtain ⟨middle, first, second⟩ := longer
    cases middle with
    | nil => exact ⟨by rw [first, List.append_nil], (List.cons.inj second).2⟩
    | cons c middle =>
      rw [(List.cons.inj second).2] at undotted
      exact absurd (List.mem_append_right middle List.mem_cons_self) undotted
  | inr shorter =>
    obtain ⟨middle, first, second⟩ := shorter
    cases middle with
    | nil => exact ⟨by rw [first, List.append_nil], (List.cons.inj second).2.symm⟩
    | cons c middle =>
      rw [(List.cons.inj second).2] at undotted'
      exact absurd (List.mem_append_right middle List.mem_cons_self) undotted'

theorem key_injective (replacementPrefix : Text) : Function.Injective (key replacementPrefix) :=
  fun _ _ same => (List.cons.inj (List.append_cancel_left same)).2

section

variable {allNodeNames : List Text} {triggers : OrderedMap Text ExpressionMapping}
  {mapping : ExpressionMapping}

theorem hasKeyAndCollides_eq_false_iff {name : Text} :
    hasKeyAndCollides triggers mapping name = false ↔
      ∀ value, triggers.get (key mapping.replacementPrefix name) = some value → value = mapping := by
  rw [hasKeyAndCollides]
  cases triggers.get (key mapping.replacementPrefix name) with
  | none => exact ⟨fun _ _ present => (nomatch present), fun _ => rfl⟩
  | some stored =>
    refine ⟨fun h value present => ?_, fun h => ?_⟩
    · rw [← Option.some.inj present]
      simpa only [ne_eq, decide_not, Bool.not_eq_false', decide_eq_true_eq] using h
    · rw [h stored rfl]
      simp only [ne_eq, not_true_eq_false, decide_false]

variable (allNodeNames triggers mapping) in
theorem resolvedName_free :
    hasKeyAndCollides triggers mapping (resolvedName allNodeNames triggers mapping) = false := by
  refine skipTaken_free List.length (key mapping.replacementPrefix) triggers.keys
    (fun name => ?_) (fun name taken => ?_)
    (key_injective _) ?_
  · rw [List.length_append]
    exact Nat.lt_add_of_pos_right (by decide)
  · cases stored : triggers.get (key mapping.replacementPrefix name) with
    | some value => exact (triggers.mem_keys_iff _).2 ⟨value, stored⟩
    | none =>
      simp [hasKeyAndCollides, stored] at taken
  · rw [OrderedMap.keys, List.length_map]
    exact Nat.le_refl _

theorem undotted_nameWithNode (undotted : '.' ∉ mapping.replacementName) :
    '.' ∉ nameWithNode allNodeNames triggers mapping := by
  rw [nameWithNode]
  split
  · exact undotted
  split
  · exact not_mem_append (dot_not_mem_convertToUniqueJsDotName _ _) (not_mem_underscore undotted)
  · exact undotted

theorem undotted_resolvedName (undotted : '.' ∉ mapping.replacementName) :
    '.' ∉ resolvedName allNodeNames triggers mapping :=
  skipTaken_keeps (P := fun name => '.' ∉ name) (fun _ h => not_mem_append h (by decide))
    (undotted_nameWithNode undotted) _

end

/-- Each mapping is stored under its own key, and each expression leads to one of
its mappings. -/
structure Keyed (resolved : Resolved) : Prop where
  keyed : ∀ k mapping, resolved.triggerArgumentMap.get k = some mapping →
    k = key mapping.replacementPrefix mapping.replacementName
  readable : ∀ k mapping, resolved.triggerArgumentMap.get k = some mapping → mapping.Readable
  stored : ∀ e k, resolved.originalExpressionMap.get e = some k →
    ∃ mapping, resolved.triggerArgumentMap.get k = some mapping ∧ mapping.originalExpression = e

theorem keyed_empty : Keyed ⟨∅, ∅⟩ where
  keyed _ _ found := nomatch found
  readable _ _ found := nomatch found
  stored _ _ found := nomatch found

section

variable {allNodeNames : List Text} {resolved : Resolved} {mapping : ExpressionMapping}

theorem get_resolve_of_get (keyed : Keyed resolved) {k : Text} {stored : ExpressionMapping}
    (found : resolved.triggerArgumentMap.get k = some stored) :
    (resolve allNodeNames resolved mapping).triggerArgumentMap.get k = some stored := by
  simp only [resolve, OrderedMap.get_set]
  split
  · rename_i here
    have same := hasKeyAndCollides_eq_false_iff.1 (resolvedName_free allNodeNames _ mapping)
      stored (here ▸ found)
    have own := keyed.keyed k stored found
    rw [same, here] at own
    rw [key_injective _ own, same]
  · exact found

theorem keyed_resolve (keyed : Keyed resolved) (readable : mapping.Readable) :
    Keyed (resolve allNodeNames resolved mapping) where
  keyed k stored found := by
    simp only [resolve, OrderedMap.get_set] at found
    split at found
    · rename_i here
      rw [here, ← Option.some.inj found]
    · exact keyed.keyed k stored found
  readable k stored found := by
    simp only [resolve, OrderedMap.get_set] at found
    split at found
    · rw [← Option.some.inj found]
      exact ⟨undotted_resolvedName readable.undotted, readable.nonempty⟩
    · exact keyed.readable k stored found
  stored e k found := by
    simp only [resolve, OrderedMap.get_set] at found
    split at found
    · rename_i here
      rw [← Option.some.inj found, here]
      simp only [resolve, OrderedMap.get_set, if_pos]
      exact ⟨_, rfl, rfl⟩
    · obtain ⟨stored, present, eq⟩ := keyed.stored e k found
      exact ⟨stored, get_resolve_of_get keyed present, eq⟩

end

theorem keyed_foldl {allNodeNames : List Text} {data : List ExpressionMapping}
    (readable : ∀ mapping ∈ data, mapping.Readable) {resolved : Resolved} (keyed : Keyed resolved) :
    Keyed (data.foldl (resolve allNodeNames) resolved) := by
  induction data generalizing resolved with
  | nil => exact keyed
  | cons mapping data ih =>
    obtain ⟨here, later⟩ := List.forall_mem_cons.1 readable
    exact ih later (keyed_resolve keyed here)

theorem keyed_resolveDuplicates {allNodeNames : List Text} {data : List ExpressionMapping}
    (readable : ∀ mapping ∈ data, mapping.Readable) :
    Keyed (resolveDuplicates data allNodeNames) := keyed_foldl readable keyed_empty

section

variable {resolved : Resolved} {e e' : Text} {mapping mapping' : ExpressionMapping}

theorem getCanonicalData_eq_some (keyed : Keyed resolved)
    (found : getCanonicalData resolved e = some mapping) :
    mapping.originalExpression = e ∧ mapping.Readable ∧
      resolved.originalExpressionMap.get e =
        some (key mapping.replacementPrefix mapping.replacementName) ∧
      resolved.triggerArgumentMap.get (key mapping.replacementPrefix mapping.replacementName) =
        some mapping := by
  obtain ⟨k, original, present⟩ := Option.bind_eq_some_iff.1 found
  obtain ⟨stored, there, eq⟩ := keyed.stored e k original
  have own := keyed.keyed k mapping present
  rw [present] at there
  rw [← Option.some.inj there] at eq
  rw [own] at original present
  exact ⟨eq, keyed.readable _ _ present, original, present⟩

theorem getCanonicalData_inj (keyed : Keyed resolved)
    (found : getCanonicalData resolved e = some mapping)
    (found' : getCanonicalData resolved e' = some mapping')
    (samePrefix : mapping.replacementPrefix = mapping'.replacementPrefix)
    (sameName : mapping.replacementName = mapping'.replacementName) : mapping = mapping' := by
  obtain ⟨_, _, _, present⟩ := getCanonicalData_eq_some keyed found
  obtain ⟨_, _, _, present'⟩ := getCanonicalData_eq_some keyed found'
  rw [samePrefix, sameName, present'] at present
  exact (Option.some.inj present).symm

end

def withPrefix (replacementPrefix : Text) (data : List ExpressionMapping) :
    List ExpressionMapping :=
  data.filter fun mapping => mapping.replacementPrefix = replacementPrefix

/-- The name an expression gets when the references with the prefix are the only
ones. -/
def nameAmong (replacementPrefix : Text) (data : List ExpressionMapping)
    (allNodeNames : List Text) (e : Text) : Option Text :=
  (getCanonicalData (resolveDuplicates (withPrefix replacementPrefix data) allNodeNames) e).map
    ExpressionMapping.replacementName

/-- Seen from one prefix the two states are the same. -/
structure Aligned (replacementPrefix : Text) (whole alone : Resolved) : Prop where
  triggers : ∀ name, '.' ∉ name →
    whole.triggerArgumentMap.get (key replacementPrefix name) =
      alone.triggerArgumentMap.get (key replacementPrefix name)
  originals : ∀ e name, '.' ∉ name →
    whole.originalExpressionMap.get e = some (key replacementPrefix name) →
      alone.originalExpressionMap.get e = some (key replacementPrefix name)

section

variable {allNodeNames : List Text} {whole alone : Resolved} {mapping : ExpressionMapping}

theorem resolvedName_congr (aligned : Aligned mapping.replacementPrefix whole alone)
    (undotted : '.' ∉ mapping.replacementName) :
    resolvedName allNodeNames whole.triggerArgumentMap mapping =
      resolvedName allNodeNames alone.triggerArgumentMap mapping := by
  have agree : ∀ name, '.' ∉ name → hasKeyAndCollides whole.triggerArgumentMap mapping name =
      hasKeyAndCollides alone.triggerArgumentMap mapping name := by
    intro name free
    rw [hasKeyAndCollides, hasKeyAndCollides, aligned.triggers name free]
  have start : nameWithNode allNodeNames whole.triggerArgumentMap mapping =
      nameWithNode allNodeNames alone.triggerArgumentMap mapping := by
    rw [nameWithNode, nameWithNode, agree _ undotted]
  have free := resolvedName_free allNodeNames whole.triggerArgumentMap mapping
  have free' := resolvedName_free allNodeNames alone.triggerArgumentMap mapping
  rw [resolvedName] at free free' ⊢
  rw [start] at free ⊢
  exact skipTaken_congr (P := fun name => '.' ∉ name) (fun _ h => not_mem_append h (by decide))
    (undotted_nameWithNode undotted) agree free free'

theorem aligned_resolve (aligned : Aligned mapping.replacementPrefix whole alone)
    (undotted : '.' ∉ mapping.replacementName) :
    Aligned mapping.replacementPrefix (resolve allNodeNames whole mapping)
      (resolve allNodeNames alone mapping) where
  triggers name free := by
    simp only [resolve, OrderedMap.get_set, resolvedName_congr aligned undotted,
      aligned.triggers name free]
  originals e name free found := by
    simp only [resolve, OrderedMap.get_set, resolvedName_congr aligned undotted] at found ⊢
    split at found
    · rename_i here
      rw [if_pos here, found]
    · rename_i other
      rw [if_neg other]
      exact aligned.originals e name free found

theorem aligned_resolve_of_ne {replacementPrefix : Text}
    (aligned : Aligned replacementPrefix whole alone)
    (other : mapping.replacementPrefix ≠ replacementPrefix)
    (undotted : '.' ∉ mapping.replacementName) :
    Aligned replacementPrefix (resolve allNodeNames whole mapping) alone where
  triggers name free := by
    simp only [resolve, OrderedMap.get_set]
    split
    · rename_i same
      exact absurd (key_inj free (undotted_resolvedName undotted) same).1.symm other
    · exact aligned.triggers name free
  originals e name free found := by
    simp only [resolve, OrderedMap.get_set] at found
    split at found
    · exact absurd (key_inj (undotted_resolvedName undotted) free (Option.some.inj found)).1 other
    · exact aligned.originals e name free found

theorem aligned_foldl {replacementPrefix : Text} {data : List ExpressionMapping}
    (readable : ∀ mapping ∈ data, mapping.Readable)
    (aligned : Aligned replacementPrefix whole alone) :
    Aligned replacementPrefix (data.foldl (resolve allNodeNames) whole)
      ((withPrefix replacementPrefix data).foldl (resolve allNodeNames) alone) := by
  induction data generalizing whole alone with
  | nil => exact aligned
  | cons mapping data ih =>
    obtain ⟨here, later⟩ := List.forall_mem_cons.1 readable
    rw [List.foldl_cons, withPrefix, List.filter_cons]
    split
    · rename_i same
      rw [decide_eq_true_eq] at same
      rw [List.foldl_cons]
      rw [← same] at aligned ih ⊢
      exact ih later (aligned_resolve aligned here.undotted)
    · rename_i other
      rw [decide_eq_true_eq] at other
      exact ih later (aligned_resolve_of_ne aligned other here.undotted)

end

theorem nameAmong_eq {data : List ExpressionMapping} {allNodeNames : List Text} {e : Text}
    {mapping : ExpressionMapping} (readable : ∀ mapping ∈ data, mapping.Readable)
    (found : getCanonicalData (resolveDuplicates data allNodeNames) e = some mapping) :
    nameAmong mapping.replacementPrefix data allNodeNames e = some mapping.replacementName := by
  obtain ⟨_, legible, original, present⟩ :=
    getCanonicalData_eq_some (keyed_resolveDuplicates readable) found
  have aligned : Aligned mapping.replacementPrefix (resolveDuplicates data allNodeNames)
      (resolveDuplicates (withPrefix mapping.replacementPrefix data) allNodeNames) :=
    aligned_foldl readable ⟨fun _ _ => rfl, fun _ _ _ h => nomatch h⟩
  rw [nameAmong, getCanonicalData, aligned.originals e _ legible.undotted original,
    Option.bind_some, ← aligned.triggers _ legible.undotted, present]
  rfl

end NodeAutomation.ExtractReferences
