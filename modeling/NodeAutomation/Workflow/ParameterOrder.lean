import NodeAutomation.Interfaces
import NodeAutomation.Lib.Places
import Mathlib.Data.List.Count
import Mathlib.Logic.Relation
import Mathlib.Tactic.Linarith

/-! The order in which the parameters of a node are resolved
(`packages/workflow/src/node-helpers.ts`). A property whose dependencies are missing is put
at the end of the list once more for each of them, and is added all the same. -/

namespace NodeAutomation.NodeHelpers
open Places

/-- A property: its name, and the parameters that each rule of its `displayOptions` looks at. -/
structure INodeProperties where
  name : String
  displayOptions : Option (OrderedMap String (List String)) := none

abbrev IParameterDependencies := OrderedMap String (List String)

/-- `text.charAt(0)`. -/
def firstChar (text : String) : Option Char := text.toList.head?

def addDependency (dependencies : List String) (parameterName : String) : List String :=
  if parameterName ∈ dependencies then dependencies
  else if firstChar parameterName = some '@' then dependencies
  else dependencies ++ [parameterName]

def ruleParameters (nodeProperties : INodeProperties) : List String :=
  match nodeProperties.displayOptions with
  | none => []
  | some displayOptions => displayOptions.values.flatten

def addDependencies (dependencies : IParameterDependencies) (nodeProperties : INodeProperties) :
    IParameterDependencies :=
  dependencies.set nodeProperties.name
    ((ruleParameters nodeProperties).foldl addDependency ((dependencies.get nodeProperties.name).getD []))

def getParameterDependencies (nodePropertiesArray : List INodeProperties) : IParameterDependencies :=
  nodePropertiesArray.foldl addDependencies ∅

/-- The variables of the loop. -/
structure Resolving where
  indexToResolve : List Nat
  executionOrder : List Nat := []
  resolvedParameters : List String := []
  lastIndexLength : Nat
  lastIndexReduction : Int := -1
  iterations : Nat := 0

def missing (dependencies resolvedParameters : List String) : List String :=
  dependencies.filter fun dependency =>
    dependency ∉ resolvedParameters ∧ firstChar dependency ≠ some '/'

def maxIterations : JsError :=
  .userError ("Could not resolve parameter dependencies. Max iterations reached! Hint: If " ++
    "`displayOptions` are specified in any child parameter of a parent `collection` or " ++
    "`fixedCollection`, remove the `displayOptions` from the child parameter.") none

section

variable (nodePropertiesArray : List INodeProperties) (parameterDependencies : IParameterDependencies)

def resolveIndex (s : Resolving) (index : Nat) (rest : List Nat) : Except JsError Resolving :=
  match nodePropertiesArray[index]? with
  | none => .error .typeError
  | some property =>
    match parameterDependencies.get property.name with
    | none => .error .typeError
    | some dependencies =>
      let iterations := s.iterations + 1
      let executionOrder := s.executionOrder ++ [index]
      let resolvedParameters := s.resolvedParameters ++ [property.name]
      if dependencies.length = 0 then
        .ok { s with indexToResolve := rest, executionOrder, resolvedParameters, iterations }
      else
        -- the inner `continue` goes on with the next dependency
        let indexToResolve := rest ++ List.replicate (missing dependencies s.resolvedParameters).length index
        let lastIndexReduction :=
          if indexToResolve.length < s.lastIndexLength then (iterations : Int) else s.lastIndexReduction
        if iterations > lastIndexReduction + nodePropertiesArray.length then .error maxIterations
        else .ok { indexToResolve, executionOrder, resolvedParameters, lastIndexReduction, iterations
                   lastIndexLength := indexToResolve.length }

/-- The loop, as far as the fuel goes. -/
def resolveAll : Nat → Resolving → Option (Except JsError (List Nat))
  | fuel, s => match s.indexToResolve with
    | [] => some (.ok s.executionOrder)
    | index :: rest => match fuel with
      | 0 => none
      | fuel + 1 => match resolveIndex nodePropertiesArray parameterDependencies s index rest with
        | .error error => some (.error error)
        | .ok s => resolveAll fuel s

def startResolving : Resolving where
  indexToResolve := List.range nodePropertiesArray.length
  lastIndexLength := nodePropertiesArray.length

def getParameterResolveOrder (fuel : Nat) : Option (Except JsError (List Nat)) :=
  resolveAll nodePropertiesArray parameterDependencies fuel (startResolving nodePropertiesArray)

end

section

variable (nodePropertiesArray : List INodeProperties) (parameterDependencies : IParameterDependencies)

def Yields (s : Resolving) (result : Except JsError (List Nat)) : Prop :=
  ∃ fuel, resolveAll nodePropertiesArray parameterDependencies fuel s = some result

variable {nodePropertiesArray parameterDependencies} {s s' : Resolving} {index : Nat} {rest : List Nat}
  {result result' : Except JsError (List Nat)}

theorem yields_done (done : s.indexToResolve = []) :
    Yields nodePropertiesArray parameterDependencies s (.ok s.executionOrder) := by
  refine ⟨0, ?_⟩
  rw [resolveAll, done]

theorem yields_error {error : JsError} (left : s.indexToResolve = index :: rest)
    (thrown : resolveIndex nodePropertiesArray parameterDependencies s index rest = .error error) :
    Yields nodePropertiesArray parameterDependencies s (.error error) := by
  refine ⟨1, ?_⟩
  rw [resolveAll, left]
  simp only [thrown]

theorem yields_next (left : s.indexToResolve = index :: rest)
    (went : resolveIndex nodePropertiesArray parameterDependencies s index rest = .ok s')
    (h : Yields nodePropertiesArray parameterDependencies s' result) :
    Yields nodePropertiesArray parameterDependencies s result := by
  obtain ⟨fuel, ended⟩ := h
  refine ⟨fuel + 1, ?_⟩
  rw [resolveAll, left]
  simp only [went, ended]

theorem resolveAll_more {fuel : Nat}
    (h : resolveAll nodePropertiesArray parameterDependencies fuel s = some result) (more : Nat) :
    resolveAll nodePropertiesArray parameterDependencies (fuel + more) s = some result := by
  induction fuel generalizing s with
  | zero =>
    rw [resolveAll] at h ⊢
    cases left : s.indexToResolve with
    | nil => simpa [left] using h
    | cons index rest => simp [left] at h
  | succ fuel ih =>
    rw [resolveAll] at h
    rw [Nat.succ_add, resolveAll]
    cases left : s.indexToResolve with
    | nil => simpa [left] using h
    | cons index rest =>
      simp only [left] at h ⊢
      cases went : resolveIndex nodePropertiesArray parameterDependencies s index rest with
      | error error => simpa [went] using h
      | ok s' =>
        simp only [went] at h ⊢
        exact ih h

theorem Yields.unique (h : Yields nodePropertiesArray parameterDependencies s result)
    (h' : Yields nodePropertiesArray parameterDependencies s result') : result = result' := by
  obtain ⟨fuel, ended⟩ := h
  obtain ⟨fuel', ended'⟩ := h'
  have first := resolveAll_more ended fuel'
  have second := resolveAll_more ended' fuel
  rw [Nat.add_comm, first] at second
  exact Option.some.inj second

end

/-- One parameter's name is looked at by a rule of another, special names and those of the root apart. -/
def DependsOn (nodePropertiesArray : List INodeProperties) (name dependency : String) : Prop :=
  (∃ property ∈ nodePropertiesArray, property.name = name ∧ dependency ∈ ruleParameters property) ∧
    firstChar dependency ≠ some '@' ∧ firstChar dependency ≠ some '/'

theorem mem_foldl_addDependency (parameters dependencies : List String) (d : String) :
    d ∈ parameters.foldl addDependency dependencies ↔
      d ∈ dependencies ∨ d ∈ parameters ∧ firstChar d ≠ some '@' := by
  induction parameters generalizing dependencies with
  | nil => simp
  | cons first parameters ih =>
    rw [List.foldl_cons, ih, addDependency]
    by_cases known : first ∈ dependencies
    · rw [if_pos known, List.mem_cons]
      by_cases same : d = first
      · simp [same, known]
      · simp [same]
    · rw [if_neg known]
      by_cases special : firstChar first = some '@'
      · rw [if_pos special, List.mem_cons]
        by_cases same : d = first
        · simp [same, special]
        · simp [same]
      · rw [if_neg special, List.mem_append, List.mem_singleton, List.mem_cons]
        by_cases same : d = first
        · simp [same, special]
        · simp [same]

theorem get_foldl_addDependencies (properties : List INodeProperties) (dependencies : IParameterDependencies)
    (name d : String) :
    (d ∈ (((properties.foldl addDependencies dependencies).get name).getD [])) ↔
      d ∈ ((dependencies.get name).getD []) ∨
        (∃ property ∈ properties, property.name = name ∧ d ∈ ruleParameters property) ∧
          firstChar d ≠ some '@' := by
  induction properties generalizing dependencies with
  | nil => simp
  | cons first properties ih =>
    rw [List.foldl_cons, ih, addDependencies, OrderedMap.get_set]
    by_cases same : name = first.name
    · subst same
      rw [if_pos rfl, Option.getD_some, mem_foldl_addDependency]
      simp only [List.mem_cons, exists_eq_or_imp, true_and]
      tauto
    · rw [if_neg same]
      have other : ¬ first.name = name := fun eq => same eq.symm
      simp [other]

theorem isSome_foldl_addDependencies (properties : List INodeProperties)
    (dependencies : IParameterDependencies) (name : String) :
    ((properties.foldl addDependencies dependencies).get name).isSome ↔
      (dependencies.get name).isSome ∨ name ∈ properties.map (·.name) := by
  induction properties generalizing dependencies with
  | nil => simp
  | cons first properties ih =>
    rw [List.foldl_cons, ih, addDependencies, OrderedMap.get_set]
    by_cases same : name = first.name
    · simp [same]
    · simp [same]

section

variable (properties : List INodeProperties)

def dependenciesAt (index : Nat) : List String :=
  ((properties[index]?.bind fun property => (getParameterDependencies properties).get property.name)).getD []

def namesBefore (index : Nat) : List String := (properties.take index).map (·.name)

def lacking (index : Nat) : List String := missing (dependenciesAt properties index) (namesBefore properties index)

def freeBefore : Nat → Nat
  | 0 => 0
  | index + 1 => if dependenciesAt properties index = [] then freeBefore index + 1 else 0

def putBack (count : Nat) : List Nat :=
  (List.range count).flatMap fun index => List.replicate (lacking properties index).length index

/-- Each property with dependencies lacks more of them than there are properties without dependencies
right before it, and the last property has dependencies. -/
def NeverShrinks : Prop :=
  (∃ last, properties.length = last + 1 ∧ dependenciesAt properties last ≠ []) ∧
    ∀ index < properties.length, dependenciesAt properties index ≠ [] →
      freeBefore properties index < (lacking properties index).length

structure FirstPass (count : Nat) (s : Resolving) : Prop where
  le : count ≤ properties.length
  order : s.executionOrder = List.range count
  left : s.indexToResolve = List.range' count (properties.length - count) ++ putBack properties count
  names : s.resolvedParameters = namesBefore properties count
  counted : s.iterations = count
  length : s.lastIndexLength = s.indexToResolve.length + freeBefore properties count
  reduced :
    (s.lastIndexReduction = -1 ∧ ∀ index < count, dependenciesAt properties index ≠ [] →
      freeBefore properties index < (lacking properties index).length) ∨
    (1 ≤ s.lastIndexReduction ∧ s.lastIndexReduction ≤ count ∧ ∃ index < count,
      dependenciesAt properties index ≠ [] ∧
        (lacking properties index).length ≤ freeBefore properties index)

variable {properties} {s : Resolving} {index : Nat} {rest : List Nat}

theorem get_getParameterDependencies {property : INodeProperties} (at_ : properties[index]? = some property) :
    (getParameterDependencies properties).get property.name = some (dependenciesAt properties index) := by
  have known : ((getParameterDependencies properties).get property.name).isSome := by
    rw [getParameterDependencies, isSome_foldl_addDependencies]
    exact .inr (List.mem_map_of_mem (List.mem_of_getElem? at_))
  obtain ⟨dependencies, stored⟩ := Option.isSome_iff_exists.1 known
  rw [dependenciesAt, at_, Option.bind_some, stored]
  rfl

theorem resolveIndex_free (inside : index < properties.length) (free : dependenciesAt properties index = []) :
    resolveIndex properties (getParameterDependencies properties) s index rest =
      .ok { s with
        indexToResolve := rest
        executionOrder := s.executionOrder ++ [index]
        resolvedParameters := s.resolvedParameters ++ [properties[index].name]
        iterations := s.iterations + 1 } := by
  rw [resolveIndex, List.getElem?_eq_getElem inside]
  simp only [get_getParameterDependencies (List.getElem?_eq_getElem inside), free, List.length_nil, if_true]

def visited (properties : List INodeProperties) (s : Resolving) (index : Nat) (rest : List Nat)
    (name : String) : Resolving where
  indexToResolve := rest ++
    List.replicate (missing (dependenciesAt properties index) s.resolvedParameters).length index
  executionOrder := s.executionOrder ++ [index]
  resolvedParameters := s.resolvedParameters ++ [name]
  lastIndexLength := rest.length + (missing (dependenciesAt properties index) s.resolvedParameters).length
  lastIndexReduction :=
    if rest.length + (missing (dependenciesAt properties index) s.resolvedParameters).length <
      s.lastIndexLength then ((s.iterations + 1 : Nat) : Int) else s.lastIndexReduction
  iterations := s.iterations + 1

theorem resolveIndex_dependent (inside : index < properties.length)
    (dependent : dependenciesAt properties index ≠ []) :
    resolveIndex properties (getParameterDependencies properties) s index rest =
      if ((s.iterations + 1 : Nat) : Int) > (visited properties s index rest
        properties[index].name).lastIndexReduction + properties.length then .error maxIterations
      else .ok (visited properties s index rest properties[index].name) := by
  rw [resolveIndex, List.getElem?_eq_getElem inside]
  have filled : ¬ (dependenciesAt properties index).length = 0 := by simpa using dependent
  simp only [get_getParameterDependencies (List.getElem?_eq_getElem inside), filled, if_false, visited,
    List.length_append, List.length_replicate]
  rfl

theorem namesBefore_succ (inside : index < properties.length) :
    namesBefore properties (index + 1) = namesBefore properties index ++ [properties[index].name] := by
  rw [namesBefore, namesBefore, List.take_add_one, List.getElem?_eq_getElem inside, List.map_append]
  rfl

theorem putBack_succ (count : Nat) : putBack properties (count + 1) =
    putBack properties count ++ List.replicate (lacking properties count).length count := by
  simp [putBack, List.range_succ]

variable (properties) in
theorem firstPass_start : FirstPass properties 0 (startResolving properties) where
  le := Nat.zero_le _
  order := rfl
  left := by simp [startResolving, putBack, List.range_eq_range']
  names := rfl
  counted := rfl
  length := by simp [startResolving, freeBefore]
  reduced := .inl ⟨rfl, by simp⟩

variable {count : Nat}

section

variable (h : FirstPass properties count s) (inside : count < properties.length)
include h inside

theorem FirstPass.left_cons :
    s.indexToResolve =
      count :: (List.range' (count + 1) (properties.length - (count + 1)) ++ putBack properties count) := by
  obtain ⟨more, eq⟩ : ∃ more, properties.length - count = more + 1 := ⟨properties.length - count - 1, by omega⟩
  have eq' : properties.length - (count + 1) = more := by omega
  rw [h.left, eq, eq', List.range'_succ, List.cons_append]

theorem FirstPass.free
    (free : dependenciesAt properties count = []) (left : s.indexToResolve = count :: rest) :
    ∃ s', resolveIndex properties (getParameterDependencies properties) s count rest = .ok s' ∧
      FirstPass properties (count + 1) s' := by
  refine ⟨_, resolveIndex_free inside free, inside, ?_, ?_, ?_, ?_, ?_, ?_⟩
  · rw [h.order, List.range_succ]
  · have whole := h.left_cons inside
    rw [left] at whole
    rw [(List.cons.inj whole).2, putBack_succ]
    simp [lacking, missing, free]
  · rw [h.names, namesBefore_succ inside]
  · rw [h.counted]
  · have length := h.length
    rw [left, List.length_cons] at length
    rw [freeBefore, if_pos free]
    dsimp only
    omega
  · have other {i : Nat} (below : i < count + 1) (dependent : dependenciesAt properties i ≠ []) : i < count := by
      refine Nat.lt_of_le_of_ne (Nat.le_of_lt_succ below) ?_
      rintro rfl
      exact dependent free
    rcases h.reduced with ⟨none_, all⟩ | ⟨from_, to_, i, below, found⟩
    · exact .inl ⟨none_, fun i below dependent => all i (other below dependent) dependent⟩
    · exact .inr ⟨from_, by push_cast; omega, i, by omega, found⟩

theorem FirstPass.dependent
    (dependent : dependenciesAt properties count ≠ []) (left : s.indexToResolve = count :: rest) :
    (count + 1 = properties.length ∧ NeverShrinks properties ∧
      resolveIndex properties (getParameterDependencies properties) s count rest = .error maxIterations) ∨
    (¬ (count + 1 = properties.length ∧ NeverShrinks properties) ∧ ∃ s',
      resolveIndex properties (getParameterDependencies properties) s count rest = .ok s' ∧
        FirstPass properties (count + 1) s') := by
  have lacked : missing (dependenciesAt properties count) s.resolvedParameters = lacking properties count := by
    rw [h.names, lacking]
  have shorter : rest.length + (lacking properties count).length < s.lastIndexLength ↔
      (lacking properties count).length ≤ freeBefore properties count := by
    have length := h.length
    rw [left, List.length_cons] at length
    omega
  have reduced : (visited properties s count rest properties[count].name).lastIndexReduction =
      if (lacking properties count).length ≤ freeBefore properties count then ((count + 1 : Nat) : Int)
      else s.lastIndexReduction := by
    simp only [visited, lacked, shorter, h.counted]
  have next : FirstPass properties (count + 1) (visited properties s count rest properties[count].name) := by
    refine ⟨inside, ?_, ?_, ?_, ?_, ?_, ?_⟩
    · rw [visited, h.order, List.range_succ]
    · have whole := h.left_cons inside
      rw [left] at whole
      simp only [visited, lacked, (List.cons.inj whole).2, putBack_succ, List.append_assoc]
    · rw [visited, h.names, namesBefore_succ inside]
    · rw [visited, h.counted]
    · simp [visited, freeBefore, dependent]
    · rw [reduced]
      by_cases shrinks : (lacking properties count).length ≤ freeBefore properties count
      · rw [if_pos shrinks]
        exact .inr ⟨by push_cast; omega, le_refl _, count, Nat.lt_succ_self _, dependent, shrinks⟩
      · rw [if_neg shrinks]
        rcases h.reduced with ⟨none_, all⟩ | ⟨from_, to_, i, below, found⟩
        · refine .inl ⟨none_, fun i below dependent => ?_⟩
          rcases Nat.lt_succ_iff_lt_or_eq.1 below with earlier | same
          · exact all i earlier dependent
          · rw [same]
            omega
        · exact .inr ⟨from_, by push_cast; omega, i, by omega, found⟩
  rw [resolveIndex_dependent inside dependent, h.counted, reduced]
  by_cases shrinks : (lacking properties count).length ≤ freeBefore properties count
  · have apart : ¬ (count + 1 = properties.length ∧ NeverShrinks properties) := fun both =>
      absurd (both.2.2 count inside dependent) (Nat.not_lt.2 shrinks)
    rw [if_pos shrinks, if_neg (by omega)]
    exact .inr ⟨apart, _, rfl, next⟩
  · rw [if_neg shrinks]
    rcases h.reduced with ⟨none_, all⟩ | ⟨from_, -, i, below, dependent', shrinks'⟩
    · by_cases last : count + 1 = properties.length
      · rw [none_, if_pos (by omega)]
        refine .inl ⟨last, ⟨⟨count, last.symm, dependent⟩, fun i below dependent' => ?_⟩, rfl⟩
        rcases Nat.lt_or_ge i count with earlier | later
        · exact all i earlier dependent'
        · have same : i = count := by omega
          rw [same]
          omega
      · rw [none_, if_neg (by omega)]
        exact .inr ⟨fun both => last both.1, _, rfl, next⟩
    · have apart : ¬ (count + 1 = properties.length ∧ NeverShrinks properties) := fun both =>
        absurd (both.2.2 i (by omega) dependent') (Nat.not_lt.2 shrinks')
      rw [if_neg (by omega)]
      exact .inr ⟨apart, _, rfl, next⟩

end

variable (properties) in
/-- Either the list never shrinks, and this ends with the error, or the first pass is completed. -/
def Passes (s : Resolving) : Prop :=
  (NeverShrinks properties ∧
    Yields properties (getParameterDependencies properties) s (.error maxIterations)) ∨
  (¬ NeverShrinks properties ∧ ∃ last, FirstPass properties properties.length last ∧ ∀ result,
    Yields properties (getParameterDependencies properties) last result →
      Yields properties (getParameterDependencies properties) s result)

theorem Passes.of_next {s' : Resolving} (left : s.indexToResolve = index :: rest)
    (went : resolveIndex properties (getParameterDependencies properties) s index rest = .ok s')
    (h : Passes properties s') : Passes properties s := by
  rcases h with ⟨never, thrown⟩ | ⟨shrinks, last, passed, ends⟩
  · exact .inl ⟨never, yields_next left went thrown⟩
  · exact .inr ⟨shrinks, last, passed, fun result further => yields_next left went (ends result further)⟩

theorem FirstPass.passes (h : FirstPass properties count s)
    (unfinished : ¬ (count = properties.length ∧ NeverShrinks properties)) : Passes properties s := by
  induction remaining : properties.length - count generalizing count s with
  | zero =>
    have all : count = properties.length := by
      have le := h.le
      omega
    subst all
    exact .inr ⟨fun never => unfinished ⟨rfl, never⟩, s, h, fun _ ends => ends⟩
  | succ remaining ih =>
    have inside : count < properties.length := by omega
    have left := h.left_cons inside
    by_cases free : dependenciesAt properties count = []
    · obtain ⟨s', went, next⟩ := h.free inside free left
      refine .of_next left went (ih next (fun both => ?_) (by omega))
      obtain ⟨⟨last, length, dependent⟩, -⟩ := both.2
      have same : last = count := by omega
      exact dependent (same ▸ free)
    · rcases h.dependent inside free left with ⟨-, never, thrown⟩ | ⟨unfinished', s', went, next⟩
      · exact .inl ⟨never, yields_error left thrown⟩
      · exact .of_next left went (ih next unfinished' (by omega))

end

section

variable {properties : List INodeProperties} {s : Resolving}

theorem missing_of_subset {dependencies resolved more : List String} (sub : resolved ⊆ more)
    (nothing : missing dependencies resolved = []) : missing dependencies more = [] := by
  rw [missing, List.filter_eq_nil_iff] at nothing ⊢
  intro d member
  have found := nothing d member
  simp only [decide_eq_true_eq, not_and] at found ⊢
  exact fun fresh => found fun known => fresh (sub known)

theorem missing_congr {dependencies resolved resolved' : List String}
    (same : ∀ d, d ∈ resolved ↔ d ∈ resolved') : missing dependencies resolved = missing dependencies resolved' := by
  simp only [missing, same]

theorem yields_rest (inside : ∀ index ∈ s.indexToResolve, index < properties.length)
    (nothing : ∀ index ∈ s.indexToResolve,
      missing (dependenciesAt properties index) s.resolvedParameters = [])
    (bound : s.indexToResolve.length ≤ s.lastIndexLength) :
    Yields properties (getParameterDependencies properties) s
      (.ok (s.executionOrder ++ s.indexToResolve)) := by
  induction left : s.indexToResolve generalizing s with
  | nil =>
    rw [List.append_nil]
    exact yields_done left
  | cons index rest ih =>
    rw [left, List.forall_mem_cons] at inside nothing
    rw [left, List.length_cons] at bound
    have kept {name : String} : ∀ i ∈ rest,
        missing (dependenciesAt properties i) (s.resolvedParameters ++ [name]) = [] := fun i member =>
      missing_of_subset (List.subset_append_left _ _) (nothing.2 i member)
    rw [List.append_cons]
    by_cases free : dependenciesAt properties index = []
    · exact yields_next left (resolveIndex_free inside.1 free)
        (ih inside.2 kept (by dsimp only; omega) rfl)
    · have reduced : (visited properties s index rest properties[index].name).lastIndexReduction =
          ((s.iterations + 1 : Nat) : Int) := by
        rw [visited]
        rw [nothing.1, List.length_nil, if_pos (by omega)]
      have went := @resolveIndex_dependent properties s index rest inside.1 free
      rw [reduced, if_neg (by omega)] at went
      have queue : (visited properties s index rest properties[index].name).indexToResolve = rest := by
        simp [visited, nothing.1]
      refine yields_next left went (ih ?_ ?_ ?_ queue)
      · rw [queue]
        exact inside.2
      · rw [queue]
        exact kept
      · simp [visited]

/-- Every name is resolved, and a property is left that depends on something else. -/
structure Stuck (properties : List INodeProperties) (s : Resolving) : Prop where
  resolved : ∀ d, d ∈ s.resolvedParameters ↔ d ∈ properties.map (·.name)
  entries : ∀ index ∈ s.indexToResolve, index < properties.length ∧ dependenciesAt properties index ≠ []
  dangling : ∃ index ∈ s.indexToResolve,
    missing (dependenciesAt properties index) (properties.map (·.name)) ≠ []

variable {index : Nat} {rest : List Nat}

theorem Stuck.visited (h : Stuck properties s) (left : s.indexToResolve = index :: rest)
    (inside : index < properties.length) :
    Stuck properties (visited properties s index rest properties[index].name) := by
  have lacks := @missing_congr (dependenciesAt properties index) _ _ h.resolved
  have entries := h.entries
  rw [left, List.forall_mem_cons] at entries
  refine ⟨fun d => ?_, fun i member => ?_, ?_⟩
  · have known : properties[index].name ∈ properties.map (·.name) :=
      List.mem_map_of_mem (List.getElem_mem inside)
    rw [NodeHelpers.visited]
    simp only [List.mem_append, h.resolved, List.mem_singleton]
    exact ⟨fun found => found.elim id (· ▸ known), .inl⟩
  · rcases List.mem_append.1 member with old | again
    · exact entries.2 i old
    · rw [List.eq_of_mem_replicate again]
      exact entries.1
  · obtain ⟨i, member, dangling⟩ := h.dangling
    refine ⟨i, List.mem_append.2 ?_, dangling⟩
    rw [left] at member
    cases List.mem_cons.1 member with
    | inl same =>
      subst same
      refine .inr (List.mem_replicate.2 ⟨?_, rfl⟩)
      rw [lacks]
      simpa using dangling
    | inr there => exact .inl there

/-- How many indexes are left that will not be put back. -/
def finite (properties : List INodeProperties) (s : Resolving) : Nat :=
  s.indexToResolve.countP fun index =>
    missing (dependenciesAt properties index) (properties.map (·.name)) = []

theorem Stuck.step (h : Stuck properties s) (length : s.lastIndexLength = s.indexToResolve.length)
    (left : s.indexToResolve = index :: rest) :
    resolveIndex properties (getParameterDependencies properties) s index rest = .error maxIterations ∨
    ∃ s', resolveIndex properties (getParameterDependencies properties) s index rest = .ok s' ∧
      Stuck properties s' ∧ s'.lastIndexLength = s'.indexToResolve.length ∧
      (finite properties s' < finite properties s ∨
        finite properties s' = finite properties s ∧ s'.lastIndexReduction = s.lastIndexReduction ∧
          s'.iterations = s.iterations + 1 ∧ s'.iterations ≤ s.lastIndexReduction + properties.length) := by
  obtain ⟨inside, dependent⟩ := h.entries index (left ▸ List.mem_cons_self)
  have lacks := @missing_congr (dependenciesAt properties index) _ _ h.resolved
  rw [resolveIndex_dependent inside dependent]
  by_cases thrown : ((s.iterations + 1 : Nat) : Int) > (NodeHelpers.visited properties s index rest
      properties[index].name).lastIndexReduction + properties.length
  · exact .inl (if_pos thrown)
  rw [if_neg thrown]
  refine .inr ⟨_, rfl, h.visited left inside, by simp [NodeHelpers.visited], ?_⟩
  by_cases last : missing (dependenciesAt properties index) (properties.map (·.name)) = []
  · left
    simp [finite, NodeHelpers.visited, lacks, last, left]
  · right
    have longer : ¬ rest.length + (missing (dependenciesAt properties index)
        s.resolvedParameters).length < s.lastIndexLength := by
      have some_ := List.length_pos_iff.2 last
      rw [lacks, length, left, List.length_cons]
      omega
    have kept : (NodeHelpers.visited properties s index rest properties[index].name).lastIndexReduction =
        s.lastIndexReduction := if_neg longer
    rw [kept] at thrown
    refine ⟨?_, kept, rfl, Int.not_lt.1 thrown⟩
    simp [finite, NodeHelpers.visited, left, List.countP_replicate, last]

theorem Stuck.throws (h : Stuck properties s) (length : s.lastIndexLength = s.indexToResolve.length) :
    Yields properties (getParameterDependencies properties) s (.error maxIterations) := by
  induction finiteLeft : finite properties s using Nat.strong_induction_on generalizing s with
  | _ z ih =>
    obtain ⟨budget, enough⟩ : ∃ budget : Nat,
        s.lastIndexReduction + properties.length < s.iterations + budget :=
      ⟨(s.lastIndexReduction + properties.length + 1).toNat, by omega⟩
    induction budget generalizing s with
    | zero =>
      obtain ⟨index, rest, left⟩ := List.exists_cons_of_ne_nil (List.ne_nil_of_mem h.dangling.choose_spec.1)
      rcases h.step length left with thrown | ⟨s', went, stuck, length', fewer | ⟨-, -, later, within⟩⟩
      · exact yields_error left thrown
      · exact yields_next left went (ih _ (finiteLeft ▸ fewer) stuck length' rfl)
      · omega
    | succ budget ihBudget =>
      obtain ⟨index, rest, left⟩ := List.exists_cons_of_ne_nil (List.ne_nil_of_mem h.dangling.choose_spec.1)
      rcases h.step length left with thrown | ⟨s', went, stuck, length', fewer | ⟨same, kept, later, -⟩⟩
      · exact yields_error left thrown
      · exact yields_next left went (ih _ (finiteLeft ▸ fewer) stuck length' rfl)
      · exact yields_next left went (ihBudget stuck length' (same.trans finiteLeft) (by omega))

end

section

variable (properties : List INodeProperties)

/-- Every name something depends on is the name of a property. -/
def Listed : Prop :=
  ∀ name dependency, DependsOn properties name dependency → dependency ∈ properties.map (·.name)

def Cyclic : Prop := ∃ name, Relation.TransGen (DependsOn properties) name name

/-- Each property comes after a property of every name it depends on. -/
def InOrder (order : List Nat) : Prop :=
  ∀ before index after, order = before ++ index :: after →
    ∀ property, properties[index]? = some property → ∀ dependency, DependsOn properties property.name dependency →
      ∃ earlier ∈ before, properties[earlier]?.map (·.name) = some dependency

variable {properties}

theorem mem_missing_iff {index : Nat} {property : INodeProperties} (at_ : properties[index]? = some property)
    (resolved : List String) (d : String) :
    d ∈ missing (dependenciesAt properties index) resolved ↔
      DependsOn properties property.name d ∧ d ∉ resolved := by
  have stored := get_getParameterDependencies at_
  have members := get_foldl_addDependencies properties ∅ property.name d
  rw [← getParameterDependencies, stored] at members
  simp only [Option.getD_some, OrderedMap.get_empty, Option.getD_none, List.not_mem_nil, false_or] at members
  simp only [missing, List.mem_filter, members, DependsOn, decide_eq_true_eq]
  tauto

theorem mem_namesBefore_iff (index : Nat) (d : String) : d ∈ namesBefore properties index ↔
    ∃ earlier < index, properties[earlier]?.map (·.name) = some d := by
  simp only [namesBefore, List.mem_iff_getElem?, List.getElem?_map, List.getElem?_take]
  constructor
  · rintro ⟨earlier, found⟩
    split at found
    · exact ⟨earlier, by assumption, found⟩
    · cases found
  · rintro ⟨earlier, before, found⟩
    exact ⟨earlier, by rwa [if_pos before]⟩

theorem namesBefore_length : namesBefore properties properties.length = properties.map (·.name) := by
  rw [namesBefore, List.take_length]

theorem lacking_eq_nil_iff {index : Nat} {property : INodeProperties}
    (at_ : properties[index]? = some property) :
    lacking properties index = [] ↔ ∀ d, DependsOn properties property.name d →
      ∃ earlier < index, properties[earlier]?.map (·.name) = some d := by
  rw [List.eq_nil_iff_forall_not_mem]
  simp only [lacking, mem_missing_iff at_, mem_namesBefore_iff, not_and, not_not]

theorem mem_putBack_iff (count index : Nat) :
    index ∈ putBack properties count ↔ index < count ∧ lacking properties index ≠ [] := by
  simp only [putBack, List.mem_flatMap, List.mem_range, List.mem_replicate, ne_eq, List.length_eq_zero_iff]
  constructor
  · rintro ⟨i, below, lacks, rfl⟩
    exact ⟨below, lacks⟩
  · exact fun h => ⟨index, h.1, h.2, rfl⟩

theorem putBack_eq_nil_iff : putBack properties properties.length = [] ↔
    InOrder properties (List.range properties.length) := by
  rw [List.eq_nil_iff_forall_not_mem]
  simp only [mem_putBack_iff, not_and, not_not]
  constructor
  · intro nothing before index after split property at_ d depends
    obtain ⟨inside, same, -⟩ := range_eq_append_cons_iff.1 split
    obtain ⟨earlier, below, found⟩ := (lacking_eq_nil_iff at_).1 (nothing index inside) d depends
    exact ⟨earlier, same ▸ List.mem_range.2 below, found⟩
  · intro inOrder index inside
    refine (lacking_eq_nil_iff (List.getElem?_eq_getElem inside)).2 fun d depends => ?_
    obtain ⟨earlier, member, found⟩ := inOrder (List.range index) index _
      (range_eq_append_cons_iff.2 ⟨inside, rfl, rfl⟩) _ (List.getElem?_eq_getElem inside) d depends
    exact ⟨earlier, List.mem_range.1 member, found⟩

theorem dependent_of_lacking {index : Nat} (lacks : lacking properties index ≠ []) :
    dependenciesAt properties index ≠ [] := by
  intro free
  exact lacks (by rw [lacking, free]; rfl)

theorem missing_names_of_listed (listed : Listed properties) {index : Nat} (inside : index < properties.length) :
    missing (dependenciesAt properties index) (properties.map (·.name)) = [] := by
  rw [List.eq_nil_iff_forall_not_mem]
  intro d member
  obtain ⟨depends, unlisted⟩ := (mem_missing_iff (List.getElem?_eq_getElem inside) _ d).1 member
  exact unlisted (listed _ d depends)

variable (properties)

abbrev Ends (result : Except JsError (List Nat)) : Prop :=
  Yields properties (getParameterDependencies properties) (startResolving properties) result

theorem passes_start : Passes properties (startResolving properties) := by
  refine (firstPass_start properties).passes fun both => ?_
  obtain ⟨last, length, -⟩ := both.2.1
  omega

theorem ends_ok (listed : Listed properties) (shrinks : ¬ NeverShrinks properties) :
    Ends properties (.ok (List.range properties.length ++ putBack properties properties.length)) := by
  obtain ⟨-, last, passed, ends⟩ := (passes_start properties).resolve_left fun never => shrinks never.1
  have left : last.indexToResolve = putBack properties properties.length := by
    simpa using passed.left
  refine ends _ ?_
  rw [← passed.order, ← left]
  refine yields_rest (fun index member => ?_) (fun index member => ?_) (by rw [passed.length]; omega)
  · rw [left, mem_putBack_iff] at member
    exact member.1
  · rw [left, mem_putBack_iff] at member
    rw [passed.names, namesBefore_length]
    exact missing_names_of_listed listed member.1

theorem ends_error_of_never (never : NeverShrinks properties) : Ends properties (.error maxIterations) :=
  ((passes_start properties).resolve_right fun shrinks => shrinks.1 never).2

theorem ends_error_of_dangling (unlisted : ¬ Listed properties) : Ends properties (.error maxIterations) := by
  rcases passes_start properties with ⟨-, thrown⟩ | ⟨-, last, passed, ends⟩
  · exact thrown
  refine ends _ ?_
  obtain ⟨name, d, ⟨⟨property, member, rfl, looked⟩, plain⟩, missing_⟩ :
      ∃ name d, DependsOn properties name d ∧ d ∉ properties.map (·.name) := by
    simpa [Listed] using unlisted
  have depends : DependsOn properties property.name d := ⟨⟨property, member, rfl, looked⟩, plain⟩
  obtain ⟨index, at_⟩ := List.mem_iff_getElem?.1 member
  have left : last.indexToResolve = putBack properties properties.length := by
    simpa using passed.left
  have stuck : Stuck properties last := by
    refine ⟨fun d => by rw [passed.names, namesBefore_length], fun i there => ?_, index, ?_, ?_⟩
    · rw [left, mem_putBack_iff] at there
      exact ⟨there.1, dependent_of_lacking there.2⟩
    · rw [left, mem_putBack_iff]
      refine ⟨(List.getElem?_eq_some_iff.1 at_).1, List.ne_nil_of_mem ((mem_missing_iff at_ _ d).2
        ⟨depends, fun before => missing_ ?_⟩)⟩
      exact List.map_subset _ (List.take_subset _ _) before
    · exact List.ne_nil_of_mem ((mem_missing_iff at_ _ d).2 ⟨depends, missing_⟩)
  -- behind the first visit the length that is remembered is that of the list
  obtain ⟨first, rest, cons⟩ := List.exists_cons_of_ne_nil (List.ne_nil_of_mem stuck.dangling.choose_spec.1)
  obtain ⟨inside, dependent⟩ := stuck.entries first (cons ▸ List.mem_cons_self)
  have went := @resolveIndex_dependent properties last first rest inside dependent
  split at went
  · exact yields_error cons went
  · exact yields_next cons went ((stuck.visited cons inside).throws (by simp [visited]))

theorem listed_of_inOrder (inOrder : InOrder properties (List.range properties.length)) :
    Listed properties ∧ ¬ Cyclic properties := by
  have falls {a d : String} (depends : DependsOn properties a d) : d ∈ properties.map (·.name) ∧
      (properties.map (·.name)).idxOf d < (properties.map (·.name)).idxOf a := by
    have member : a ∈ properties.map (·.name) := by
      obtain ⟨⟨property, member, rfl, -⟩, -⟩ := depends
      exact List.mem_map_of_mem member
    have inside := List.idxOf_lt_length_of_mem member
    have named := List.getElem_idxOf inside
    rw [List.length_map] at inside
    rw [List.getElem_map] at named
    obtain ⟨earlier, before, found⟩ := inOrder _ _ _
      (range_eq_append_cons_iff.2 ⟨inside, rfl, rfl⟩) _ (List.getElem?_eq_getElem inside) d (by rwa [named])
    rw [← List.getElem?_map] at found
    obtain ⟨below, same⟩ := List.getElem?_eq_some_iff.1 found
    have first : (properties.map (·.name)).idxOf d ≤ earlier := by
      by_contra later
      have other := List.not_of_lt_findIdx (Nat.lt_of_not_le later)
      simp [same] at other
    exact ⟨List.mem_of_getElem? found, first.trans_lt (List.mem_range.1 before)⟩
  refine ⟨fun a d depends => (falls depends).1, ?_⟩
  rintro ⟨name, path⟩
  have falling {a d : String} (path : Relation.TransGen (DependsOn properties) a d) :
      (properties.map (·.name)).idxOf d < (properties.map (·.name)).idxOf a := by
    induction path with
    | single depends => exact (falls depends).2
    | tail _ depends ih => exact (falls depends).2.trans ih
  exact Nat.lt_irrefl _ (falling path)

/-- The function resolves in order, and throws where there is no order, exactly when the properties are
listed in order, or some name is not listed, or the names depend on each other in a circle and the list
never shrinks in the first pass. -/
theorem getParameterResolveOrder_sorts_iff :
    ((Listed properties ∧ ¬ Cyclic properties → ∃ order, Ends properties (.ok order) ∧
        order.Perm (List.range properties.length) ∧ InOrder properties order) ∧
      (¬ (Listed properties ∧ ¬ Cyclic properties) → ∃ error, Ends properties (.error error))) ↔
    InOrder properties (List.range properties.length) ∨ ¬ Listed properties ∨
      Cyclic properties ∧ NeverShrinks properties := by
  constructor
  · rintro ⟨sorts, throws⟩
    by_cases listed : Listed properties
    · by_cases cyclic : Cyclic properties
      · obtain ⟨error, thrown⟩ := throws fun both => both.2 cyclic
        refine .inr (.inr ⟨cyclic, ?_⟩)
        by_contra shrinks
        cases thrown.unique (ends_ok properties listed shrinks)
      · obtain ⟨order, ends, once, -⟩ := sorts ⟨listed, cyclic⟩
        have shrinks : ¬ NeverShrinks properties := fun never => by
          cases ends.unique (ends_error_of_never properties never)
        have same := Except.ok.inj (ends.unique (ends_ok properties listed shrinks))
        have length := once.length_eq
        rw [same, List.length_append, Nat.add_eq_left, List.length_eq_zero_iff] at length
        exact .inl (putBack_eq_nil_iff.1 length)
    · exact .inr (.inl listed)
  · rintro (inOrder | unlisted | ⟨cyclic, never⟩)
    · have both := listed_of_inOrder properties inOrder
      have nothing := putBack_eq_nil_iff.2 inOrder
      have shrinks : ¬ NeverShrinks properties := by
        rintro ⟨⟨last, length, dependent⟩, grows⟩
        have lacks : lacking properties last ≠ [] := fun empty => by
          have more := grows last (by omega) dependent
          rw [empty] at more
          exact Nat.not_lt_zero _ more
        exact List.not_mem_nil (nothing ▸ (mem_putBack_iff properties.length last).2 ⟨by omega, lacks⟩)
      have ends := ends_ok properties both.1 shrinks
      rw [nothing, List.append_nil] at ends
      exact ⟨fun _ => ⟨_, ends, List.Perm.refl _, inOrder⟩, fun neither => absurd both neither⟩
    · exact ⟨fun both => absurd both.1 unlisted, fun _ => ⟨_, ends_error_of_dangling properties unlisted⟩⟩
    · exact ⟨fun both => absurd cyclic both.2, fun _ => ⟨_, ends_error_of_never properties never⟩⟩

end

def dependentFirst : List INodeProperties :=
  [{ name := "operation", displayOptions := some (OrderedMap.set ∅ "show" ["resource"]) }, { name := "resource" }]

/-- The property is resolved before the one it looks at, and once more behind it. -/
theorem dependentFirst_not_sorted :
    ¬ ((Listed dependentFirst ∧ ¬ Cyclic dependentFirst → ∃ order, Ends dependentFirst (.ok order) ∧
        order.Perm (List.range dependentFirst.length) ∧ InOrder dependentFirst order) ∧
      (¬ (Listed dependentFirst ∧ ¬ Cyclic dependentFirst) → ∃ error, Ends dependentFirst (.error error))) := by
  have only {name d : String} (depends : DependsOn dependentFirst name d) :
      name = "operation" ∧ d = "resource" := by
    obtain ⟨⟨property, member, rfl, looked⟩, -⟩ := depends
    simp only [dependentFirst, List.mem_cons, List.not_mem_nil, or_false] at member
    rcases member with rfl | rfl
    · exact ⟨rfl, List.mem_singleton.1 looked⟩
    · cases looked
  have listed : Listed dependentFirst := by
    intro name d depends
    rw [(only depends).2]
    decide
  have acyclic : ¬ Cyclic dependentFirst := by
    rintro ⟨name, path⟩
    obtain ⟨next, -, depends⟩ := Relation.TransGen.tail'_iff.1 path
    obtain ⟨next', depends', -⟩ := Relation.TransGen.head'_iff.1 path
    have same := (only depends').1.symm.trans (only depends).2
    exact absurd same (by decide)
  rintro ⟨sorts, -⟩
  obtain ⟨order, ends, once, -⟩ := sorts ⟨listed, acyclic⟩
  have twice : Ends dependentFirst (.ok [0, 1, 0]) := ⟨4, by rfl⟩
  cases ends.unique twice
  exact absurd once.length_eq (by decide)

end NodeAutomation.NodeHelpers
