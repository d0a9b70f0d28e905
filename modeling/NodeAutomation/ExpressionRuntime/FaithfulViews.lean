import NodeAutomation.ExpressionRuntime.LazyProxy
import NodeAutomation.Lib.Runs

/-! Lazy proxies as views of host data: where every operation of a run answers as the plain value
would. -/

namespace NodeAutomation.ExpressionRuntime
open NodeAutomation.Runs

section

variable (shows : Nat → Json → Prop)

def Value.Agrees : Value Nat → Value Json → Prop
  | .undefined, .undefined => True
  | .data x, .data y => x = y
  | .view number, .view value => shows number value
  | .inherited x, .inherited y => x = y
  | _, _ => False

/-- Descriptors agree up to `writable`: views are read-only. -/
def PropertyDescriptor.Agrees (x : PropertyDescriptor Nat) (y : PropertyDescriptor Json) : Prop :=
  x.configurable = y.configurable ∧ x.enumerable = y.enumerable ∧ x.value.Agrees shows y.value

def Answer.Agrees : Answer Nat → Answer Json → Prop
  | .value x, .value y => x.Agrees shows y
  | .has x, .has y => x = y
  | .keys x, .keys y => x = y
  | .descriptor none, .descriptor none => True
  | .descriptor (some x), .descriptor (some y) => x.Agrees shows y
  | _, _ => False

end

/-- A proxy is a view of the value that its path leads to, an array of arrays only. -/
def Shows (data : Json) (s : State) (number : Nat) (value : Json) : Prop :=
  ∃ proxy, s.proxies[number]? = some proxy ∧ navigate data proxy.basePath = some value ∧
    proxy.isArray = value.isArray

/-- The operation is answered as by the value that the proxy is a view of. -/
def AsHost (data : Json) (s : State) (action : Action) : Prop :=
  ∀ proxy value, s.proxies[action.number]? = some proxy → navigate data proxy.basePath = some value →
    ∃ answer later, s.answer data action.number proxy action.operation = .ok (answer, later) ∧
      answer.Agrees (Shows data later) (value.answer action.operation)

/-- Views of objects are not read at own keys that are names of `Object.prototype`, not asked for
missing keys that they keep as `undefined`, and not asked for descriptors of own keys. -/
def Avoids (data : Json) (s : State) (action : Action) : Prop :=
  ∀ proxy value, s.proxies[action.number]? = some proxy → navigate data proxy.basePath = some value →
    proxy.isArray = false →
      match action.operation with
      | .get prop => (value.own prop).isSome → prop ∉ objectPrototype
      | .has prop => value.own prop = none → prop ∉ objectPrototype → proxy.target.get prop = none
      | .ownKeys => True
      | .getOwnPropertyDescriptor prop => value.own prop = none

def ProxyMeta.Fits : ProxyMeta → Json → Prop
  | .array length, .array values => length = values.length
  | .object keys, .object fields => keys = none ∨ keys = some (Json.keys fields)
  | _, _ => False

theorem navigate_append {data value : Json} {path : List String} (prop : String)
    (leads : navigate data path = some value) (composite : value.composite = true) :
    navigate data (path ++ [prop]) = value.own prop := by
  induction path generalizing data with
  | nil =>
    cases leads
    simp only [List.nil_append, navigate]
    cases value.own prop with
    | none => rfl
    | some member => cases member <;> rfl
  | cons key path ih =>
    simp only [List.cons_append, navigate] at leads ⊢
    cases found : data.own key with
    | none => simp [found] at leads
    | some member =>
      rw [found] at leads
      cases member with
      | null => cases leads; cases composite
      | bool | number | string | array | object => exact ih leads

theorem metadataKeys_metadata (fields : List (String × Json)) :
    (metadata (.object fields)).metadataKeys = Json.keys fields := by
  simp [metadata, Json.metadataKeys, Json.field, OrderedMap.lookup, List.filterMap_map]

theorem metadataLength_metadata (values : List Json) :
    (metadata (.array values)).metadataLength = values.length := by
  simp [metadata, Json.metadataLength, Json.field, OrderedMap.lookup]

def child (basePath : List String) (prop : String) : Option Json → Value Proxy
  | none => .undefined
  | some (.array values) => .view (createDeepLazyProxy (basePath ++ [prop]) (.array values.length))
  | some (.object fields) =>
    .view (createDeepLazyProxy (basePath ++ [prop]) (.object (some (Json.keys fields))))
  | some member => .data member

def shownBy : Option Json → Value Json
  | none => .undefined
  | some member => member.read

theorem get_of_not_inherited {value : Json} {prop : String} (missing : value.inherits prop = false) :
    value.get prop = shownBy (value.own prop) := by
  unfold Json.get
  cases value.own prop with
  | none => simp [missing, shownBy]
  | some member => rfl

theorem materializeChild_metadata (basePath : List String) (prop : String) (member : Option Json) :
    materializeChild basePath prop (member.map metadata) = .ok (child basePath prop member) := by
  cases member with
  | none => rfl
  | some member =>
    cases member with
    | null | bool | number | string => rfl
    | array values =>
      have length := metadataLength_metadata values
      simp only [metadata] at length
      simp [materializeChild, metadata, Json.throwIfErrorSentinel, Json.isErrorSentinel, Json.isMarked,
        Json.field, OrderedMap.lookup, Json.isArrayMetadata, child, bind, Except.bind, pure, Except.pure, length]
    | object fields =>
      have keys := metadataKeys_metadata fields
      simp only [metadata] at keys
      simp [materializeChild, metadata, Json.throwIfErrorSentinel, Json.isErrorSentinel, Json.isMarked,
        Json.field, OrderedMap.lookup, Json.isArrayMetadata, Json.isObjectMetadata, child, bind, Except.bind,
        pure, Except.pure, keys]

theorem arrayIndex_eq_some {length idx : Nat} {prop : String} (found : arrayIndex length prop = some idx) :
    idx < length ∧ toString idx = prop := by
  have member := List.mem_of_find?_eq_some found
  have spelled := List.find?_some found
  exact ⟨List.mem_range.1 member, by simpa using spelled⟩

theorem arrayIndex_of_inherited {prop : String} (length : Nat) (inherited : prop ∈ inheritedNames true) :
    arrayIndex length prop = none := by
  cases found : arrayIndex length prop with
  | none => rfl
  | some idx =>
    have letters : ∀ name ∈ inheritedNames true, name.toList.any (fun c => !c.isDigit) = true := by
      simp only [inheritedNames, if_true, arrayPrototype, objectPrototype, List.cons_append, List.nil_append,
        List.forall_mem_cons]
      -- the characters are read off the names, not decoded
      repeat' apply And.intro
      all_goals first | exact (congrArg (List.any · _) String.toList_ofList).trans rfl | exact nofun
    obtain ⟨c, member, other⟩ := List.any_eq_true.1 (letters prop inherited)
    rw [← (arrayIndex_eq_some found).2] at member
    have digit : c.isDigit = true :=
      Nat.isDigit_of_mem_toDigits (b := 10) (by decide) (by decide) (by simpa [Nat.repr] using member)
    simp [digit] at other

/-- Proxies stay, with their paths and shapes. -/
def State.Grows (s later : State) : Prop :=
  ∀ (number : Nat) (proxy : Proxy), s.proxies[number]? = some proxy →
    ∃ same, later.proxies[number]? = some same ∧ same.basePath = proxy.basePath ∧ same.shape = proxy.shape

theorem Proxy.isArray_of_shape {x y : Proxy} (shape : x.shape = y.shape) : x.isArray = y.isArray := by
  simp only [isArray, shape]

theorem Shows.mono {data value : Json} {s later : State} {number : Nat} (grows : s.Grows later)
    (shows : Shows data s number value) : Shows data later number value := by
  obtain ⟨proxy, found, leads, kind⟩ := shows
  obtain ⟨same, found, path, shape⟩ := grows number proxy found
  exact ⟨same, found, path ▸ leads, (Proxy.isArray_of_shape shape).trans kind⟩

theorem Value.Agrees.mono {p q : Nat → Json → Prop} (weaker : ∀ number value, p number value → q number value)
    {x : Value Nat} {y : Value Json} (agrees : x.Agrees p y) : x.Agrees q y := by
  cases x <;> cases y <;> first | exact weaker _ _ agrees | exact agrees

theorem grows_modify (s : State) (number : Nat) (change : Proxy → Proxy)
    (same : ∀ proxy, (change proxy).basePath = proxy.basePath ∧ (change proxy).shape = proxy.shape) :
    s.Grows ⟨s.proxies.modify number change⟩ := by
  intro other proxy found
  refine ⟨if number = other then change proxy else proxy, by simp [List.getElem?_modify, found], ?_⟩
  split
  · exact same proxy
  · exact ⟨rfl, rfl⟩

theorem grows_allocate (s : State) (child : Value Proxy) : s.Grows (s.allocate child).2 := by
  intro number proxy found
  refine ⟨proxy, ?_, rfl, rfl⟩
  cases child with
  | undefined | data | inherited => exact found
  | view added => exact List.getElem?_append_left (List.getElem?_eq_some_iff.1 found).1 ▸ found

structure Views (data : Json) (s : State) (proxy : Proxy) (value : Json) : Prop where
  leads : navigate data proxy.basePath = some value
  fits : proxy.shape.Fits value
  fetched : ∀ keys, proxy.fetchedKeys = some keys → keys = value.ownKeys
  kept : ∀ prop kept, proxy.target.get prop = some kept →
    prop ∉ inheritedNames proxy.isArray ∧ kept.Agrees (Shows data s) (value.get prop) ∧
      (proxy.isArray = true → (value.own prop).isSome)

def Faithful (data : Json) (s : State) : Prop :=
  ∀ (number : Nat) (proxy : Proxy), s.proxies[number]? = some proxy → ∃ value, Views data s proxy value

theorem Views.mono {data value : Json} {s later : State} {proxy : Proxy} (grows : s.Grows later)
    (views : Views data s proxy value) : Views data later proxy value where
  leads := views.leads
  fits := views.fits
  fetched := views.fetched
  kept prop kept found := by
    obtain ⟨fresh, agrees, own⟩ := views.kept prop kept found
    exact ⟨fresh, agrees.mono fun _ _ => Shows.mono grows, own⟩

theorem ProxyMeta.Fits.composite {shape : ProxyMeta} {value : Json} (fits : shape.Fits value) :
    value.composite = true := by
  cases shape <;> cases value <;> first | rfl | cases fits

theorem Views.isArray {data value : Json} {s : State} {proxy : Proxy} (views : Views data s proxy value) :
    proxy.isArray = value.isArray := by
  have fits := views.fits
  unfold Proxy.isArray
  cases shape : proxy.shape <;> cases value <;> rw [shape] at fits <;> first | rfl | cases fits

theorem views_create {data value : Json} (s : State) {basePath : List String} {shape : ProxyMeta}
    (leads : navigate data basePath = some value) (fits : shape.Fits value) :
    Views data s (createDeepLazyProxy basePath shape) value where
  leads := leads
  fits := fits
  fetched _ told := by cases told
  kept _ _ found := by cases found

theorem faithful_modify {data : Json} {s : State} {number : Nat} {change : Proxy → Proxy}
    (faithful : Faithful data s)
    (same : ∀ proxy, (change proxy).basePath = proxy.basePath ∧ (change proxy).shape = proxy.shape)
    (changed : ∀ proxy value, s.proxies[number]? = some proxy → Views data s proxy value →
      Views data s (change proxy) value) :
    Faithful data ⟨s.proxies.modify number change⟩ := by
  intro other proxy found
  have grows := grows_modify s number change same
  simp only [List.getElem?_modify] at found
  cases before : s.proxies[other]? with
  | none => simp [before] at found
  | some old =>
    obtain ⟨value, views⟩ := faithful other old before
    rw [before] at found
    by_cases here : number = other
    · subst here
      have : change old = proxy := by simpa using found
      exact ⟨value, this ▸ (changed old value before views).mono grows⟩
    · have : old = proxy := by simpa [here] using found
      exact ⟨value, this ▸ views.mono grows⟩

theorem faithful_allocate {data value : Json} {s : State} {basePath : List String} (prop : String)
    (faithful : Faithful data s) (leads : navigate data basePath = some value)
    (composite : value.composite = true) :
    Faithful data (s.allocate (child basePath prop (value.own prop))).2 ∧
      (s.allocate (child basePath prop (value.own prop))).1.Agrees
        (Shows data (s.allocate (child basePath prop (value.own prop))).2)
        (shownBy (value.own prop)) := by
  have deeper := navigate_append prop leads composite
  have grows := grows_allocate s (child basePath prop (value.own prop))
  have added : ∀ (shape : ProxyMeta) (member : Json), value.own prop = some member → shape.Fits member →
      Faithful data ⟨s.proxies ++ [createDeepLazyProxy (basePath ++ [prop]) shape]⟩ ∧
        Shows data ⟨s.proxies ++ [createDeepLazyProxy (basePath ++ [prop]) shape]⟩ s.proxies.length member := by
    intro shape member own fits
    have made := views_create ⟨s.proxies ++ [createDeepLazyProxy (basePath ++ [prop]) shape]⟩
      (deeper.trans own) fits
    refine ⟨fun number proxy found => ?_, _, by simp, deeper.trans own, made.isArray⟩
    have grows := grows_allocate s (.view (createDeepLazyProxy (basePath ++ [prop]) shape))
    rcases List.getElem?_eq_some_iff.1 found with ⟨bound, rfl⟩
    simp only [List.getElem_append] at found ⊢
    split
    · rename_i before
      obtain ⟨value, views⟩ := faithful number _ (List.getElem?_eq_getElem before)
      exact ⟨value, views.mono grows⟩
    · exact ⟨member, by simpa using made⟩
  cases own : value.own prop with
  | none => exact ⟨faithful, trivial⟩
  | some member =>
    cases member with
    | null | bool | number | string => exact ⟨faithful, rfl⟩
    | array values => exact added (.array values.length) (.array values) own rfl
    | object fields => exact added (.object (some (Json.keys fields))) (.object fields) own (.inr rfl)

theorem Views.inherits_eq {data value : Json} {s : State} {proxy : Proxy} (views : Views data s proxy value)
    (prop : String) : value.inherits prop = (inheritedNames proxy.isArray).contains prop := by
  rw [Json.inherits, views.isArray]

/-- What is fetched for a name that is not inherited is what the value has there. -/
theorem faithful_keep {data value : Json} {s : State} {number : Nat} {proxy : Proxy} (prop : String)
    (faithful : Faithful data s) (found : s.proxies[number]? = some proxy)
    (views : Views data s proxy value) (fresh : prop ∉ inheritedNames proxy.isArray)
    (own : proxy.isArray = true → (value.own prop).isSome) :
    Faithful data (s.keep number prop (child proxy.basePath prop (value.own prop))).2 ∧
      (s.keep number prop (child proxy.basePath prop (value.own prop))).1.Agrees
        (Shows data (s.keep number prop (child proxy.basePath prop (value.own prop))).2) (value.get prop) := by
  obtain ⟨made, agrees⟩ := faithful_allocate prop faithful views.leads views.fits.composite
  have grows := grows_allocate s (child proxy.basePath prop (value.own prop))
  have missing : value.inherits prop = false := by rw [views.inherits_eq]; simpa using fresh
  rw [← get_of_not_inherited missing] at agrees
  have changed : Faithful data (s.keep number prop (child proxy.basePath prop (value.own prop))).2 := by
    refine faithful_modify made (fun _ => ⟨rfl, rfl⟩) fun same other here there => ?_
    obtain ⟨still, here', path, shape⟩ := grows number proxy found
    obtain rfl : still = same := Option.some.inj (here'.symm.trans here)
    obtain rfl : other = value := by
      have := there.leads.symm.trans (path ▸ views.leads)
      exact Option.some.inj this
    have kind := Proxy.isArray_of_shape shape
    refine ⟨there.leads, there.fits, there.fetched, fun key kept at_ => ?_⟩
    rw [OrderedMap.get_set] at at_
    by_cases same : key = prop
    · rw [if_pos same] at at_
      subst same
      cases at_
      exact ⟨by simpa [Proxy.isArray, shape] using fresh, agrees, fun array => own (kind ▸ array)⟩
    · rw [if_neg same] at at_
      exact there.kept key kept at_
  refine ⟨changed, Value.Agrees.mono (fun _ _ shows => Shows.mono ?_ shows) agrees⟩
  exact grows_modify _ number _ fun _ => ⟨rfl, rfl⟩

theorem Views.array {data : Json} {s : State} {proxy : Proxy} {value : Json}
    (views : Views data s proxy value) (kind : proxy.isArray = true) :
    ∃ values, value = .array values ∧ proxy.arrayLength = values.length := by
  have fits := views.fits
  unfold Proxy.isArray at kind
  unfold Proxy.arrayLength
  cases shape : proxy.shape with
  | object keys => rw [shape] at kind; cases kind
  | array length =>
    rw [shape] at fits
    cases value with
    | array values => exact ⟨values, rfl, fits⟩
    | null | bool | number | string | object => cases fits

theorem Views.object {data : Json} {s : State} {proxy : Proxy} {value : Json}
    (views : Views data s proxy value) (kind : proxy.isArray = false) :
    ∃ fields, value = .object fields ∧
      (proxy.objectKeys = none ∨ proxy.objectKeys = some (Json.keys fields)) := by
  have fits := views.fits
  unfold Proxy.isArray at kind
  unfold Proxy.objectKeys
  cases shape : proxy.shape with
  | array length => rw [shape] at kind; cases kind
  | object keys =>
    rw [shape] at fits
    cases value with
    | object fields => exact ⟨fields, rfl, fits⟩
    | null | bool | number | string | array => cases fits

theorem own_array_of_index {values : List Json} {prop : String} {idx : Nat}
    (index : arrayIndex values.length prop = some idx) (other : prop ≠ "length") :
    (Json.array values).own prop = values[idx]? := by
  simp [Json.own, other, index]

theorem own_array_eq_none {values : List Json} {prop : String} (other : prop ≠ "length") :
    (Json.array values).own prop = none ↔ arrayIndex values.length prop = none := by
  cases index : arrayIndex values.length prop with
  | none => simp [Json.own, other, index]
  | some idx => simp [own_array_of_index index other, (arrayIndex_eq_some index).1]

theorem inTarget_eq_none {proxy : Proxy} {prop : String} (missing : proxy.inTarget prop = none) :
    proxy.target.get prop = none ∧ prop ∉ inheritedNames proxy.isArray := by
  unfold Proxy.inTarget at missing
  cases held : proxy.target.get prop with
  | some value => simp [held] at missing
  | none => exact ⟨rfl, by simpa [held] using missing⟩

theorem inTarget_eq_some {proxy : Proxy} {prop : String} {answer : Value Nat}
    (here : proxy.inTarget prop = some answer) :
    proxy.target.get prop = some answer ∨
      proxy.target.get prop = none ∧ prop ∈ inheritedNames proxy.isArray ∧ answer = .inherited prop := by
  unfold Proxy.inTarget at here
  cases held : proxy.target.get prop with
  | some value => exact .inl (by simpa [held] using here)
  | none =>
    simp only [held] at here
    split at here
    · rename_i inherited
      cases here
      exact .inr ⟨rfl, by simpa using inherited, rfl⟩
    · cases here

section

variable {data value : Json} {s : State} {number : Nat} {proxy : Proxy}

/-- Own keys aside that an object shares with its prototype, reading is as reading the value. -/
theorem get_spec (prop : String) (faithful : Faithful data s) (found : s.proxies[number]? = some proxy)
    (views : Views data s proxy value) :
    ∃ answer later, s.get data number proxy prop = .ok (answer, later) ∧ Faithful data later ∧
      ((proxy.isArray = false → (value.own prop).isSome → prop ∉ objectPrototype) ↔
        answer.Agrees (Shows data later) (value.get prop)) := by
  by_cases length : proxy.isArray = true ∧ prop = "length"
  · obtain ⟨array, rfl⟩ := length
    obtain ⟨values, rfl, size⟩ := views.array array
    refine ⟨.data (.number proxy.arrayLength), s, by simp [State.get, array, pure, Except.pure], faithful, ?_⟩
    simp [array, Json.get, Json.own, Json.read, Json.composite, Value.Agrees, size]
  · cases here : proxy.inTarget prop with
    | some answer =>
      refine ⟨answer, s, by simp [State.get, length, here, pure, Except.pure], faithful, ?_⟩
      rcases inTarget_eq_some here with held | ⟨-, inherited, rfl⟩
      · obtain ⟨fresh, agrees, -⟩ := views.kept prop answer held
        refine iff_of_true (fun object _ => ?_) agrees
        rw [object] at fresh
        exact fresh
      · have known : value.inherits prop = true := by rw [views.inherits_eq]; simpa using inherited
        cases own : value.own prop with
        | none => simp [Json.get, own, known, Value.Agrees]
        | some member =>
          refine iff_of_false (fun avoids => ?_) (fun agrees => ?_)
          · cases kind : proxy.isArray with
            | true =>
              obtain ⟨values, rfl, -⟩ := views.array kind
              have other : prop ≠ "length" := fun same => length ⟨kind, same⟩
              rw [kind] at inherited
              simp [(own_array_eq_none other).2 (arrayIndex_of_inherited _ inherited)] at own
            | false =>
              rw [kind] at inherited
              exact avoids kind rfl inherited
          · simp only [Json.get, own, Json.read] at agrees
            split at agrees <;> cases agrees
    | none =>
      obtain ⟨-, fresh⟩ := inTarget_eq_none here
      cases kind : proxy.isArray with
      | true =>
        obtain ⟨values, rfl, size⟩ := views.array kind
        have other : prop ≠ "length" := fun same => length ⟨kind, same⟩
        cases index : arrayIndex values.length prop with
        | none =>
          have missing := (own_array_eq_none other).2 index
          have unknown : (Json.array values).inherits prop = false := by
            rw [views.inherits_eq]; simpa using fresh
          refine ⟨.undefined, s, ?_, faithful, ?_⟩
          · simp [State.get, kind, other, here, Proxy.isInArrayBounds, size, index, pure, Except.pure]
          · simp [Json.get, missing, unknown, Value.Agrees]
        | some idx =>
          have own := own_array_of_index index other
          have spelled := (arrayIndex_eq_some index).2
          have fetched : getArrayElement data proxy.basePath idx = ((Json.array values).own prop).map metadata := by
            simp only [getArrayElement, views.leads, own]
          obtain ⟨later, agrees⟩ := faithful_keep prop faithful found views fresh fun _ => by
            simp [own, (arrayIndex_eq_some index).1]
          refine ⟨_, _, ?_, later, iff_of_true (fun object => by cases object) agrees⟩
          have made := materializeChild_metadata proxy.basePath prop ((Json.array values).own prop)
          have spell : toString idx = prop := spelled
          simp only [State.get, kind, other, here, Proxy.isInArrayBounds, size, index, and_false, if_false,
            if_true, fetched, spell, made, bind, Except.bind, pure, Except.pure]
      | false =>
        have fetched : getValueAtPath data (proxy.basePath ++ [prop]) = (value.own prop).map metadata := by
          rw [getValueAtPath, navigate_append prop views.leads views.fits.composite]
        obtain ⟨later, agrees⟩ := faithful_keep prop faithful found views fresh fun array => by
          rw [kind] at array; cases array
        refine ⟨_, _, ?_, later, iff_of_true (fun _ _ => ?_) agrees⟩
        · have made := materializeChild_metadata proxy.basePath prop (value.own prop)
          simp [State.get, kind, here, fetched, made, bind, Except.bind, pure, Except.pure]
        · rw [kind] at fresh
          exact fresh

theorem inTarget_isSome (prop : String) (kept : Views data s proxy value) :
    (proxy.inTarget prop).isSome = true ↔
      (proxy.target.get prop).isSome = true ∨ value.inherits prop = true := by
  rw [kept.inherits_eq]
  unfold Proxy.inTarget
  cases proxy.target.get prop with
  | some value => simp
  | none => simp

/-- Missing keys aside that are kept, asking for a key is as asking the value. -/
theorem has_spec (prop : String) (views : Views data s proxy value) :
    ∃ there, State.has data proxy prop = .ok there ∧
      ((proxy.isArray = false → value.own prop = none → prop ∉ objectPrototype →
          proxy.target.get prop = none) ↔ there = value.has prop) := by
  have target := inTarget_isSome prop views
  cases kind : proxy.isArray with
  | true =>
    obtain ⟨values, rfl, size⟩ := views.array kind
    refine ⟨(Json.array values).has prop, ?_, by simp⟩
    by_cases length : prop = "length"
    · subst length
      simp [State.has, kind, Json.has, Json.own, pure, Except.pure]
    · cases here : (proxy.inTarget prop).isSome with
      | true =>
        have there : (Json.array values).has prop = true := by
          rcases target.1 here with held | inherited
          · obtain ⟨kept, held⟩ := Option.isSome_iff_exists.1 held
            simp [Json.has, (views.kept prop kept held).2.2 kind]
          · simp [Json.has, inherited]
        simp [State.has, kind, length, here, there, pure, Except.pure]
      | false =>
        have unknown : (Json.array values).inherits prop = false := by
          cases inherited : (Json.array values).inherits prop with
          | false => rfl
          | true => exact absurd (target.2 (.inr inherited)) (by simp [here])
        have index : (arrayIndex values.length prop).isSome = ((Json.array values).own prop).isSome := by
          have missing : (Json.array values).own prop = none ↔ arrayIndex values.length prop = none :=
            own_array_eq_none length
          cases index : arrayIndex values.length prop with
          | none => simp [missing.2 index]
          | some idx => simp [own_array_of_index index length, (arrayIndex_eq_some index).1]
        simp [State.has, kind, length, here, Json.has, unknown, Proxy.isInArrayBounds, size, index, pure,
          Except.pure]
  | false =>
    obtain ⟨fields, rfl, -⟩ := views.object kind
    have known : (Json.object fields).inherits prop = true ↔ prop ∈ objectPrototype := by
      simp [Json.inherits, Json.isArray, inheritedNames]
    cases here : (proxy.inTarget prop).isSome with
    | true =>
      refine ⟨true, by simp [State.has, kind, here, pure, Except.pure], ?_⟩
      rw [here] at target
      cases own : (Json.object fields).own prop with
      | some member => simp [Json.has, own]
      | none =>
        by_cases inherited : prop ∈ objectPrototype
        · simp [Json.has, own, known.2 inherited, inherited]
        · have held : (proxy.target.get prop).isSome = true :=
            (target.1 rfl).resolve_right fun h => inherited (known.1 h)
          have absent : (Json.object fields).inherits prop = false := by
            cases h : (Json.object fields).inherits prop with
            | false => rfl
            | true => exact absurd (known.1 h) inherited
          refine iff_of_false (fun avoids => ?_) (by simp [Json.has, own, absent])
          simp [avoids rfl rfl inherited] at held
    | false =>
      have fetched : getValueAtPath data (proxy.basePath ++ [prop]) =
          ((Json.object fields).own prop).map metadata := by
        rw [getValueAtPath, navigate_append prop views.leads views.fits.composite]
      have absent : ¬((proxy.target.get prop).isSome = true ∨ (Json.object fields).inherits prop = true) := by
        rw [← target, here]; simp
      have unknown : (Json.object fields).inherits prop = false := by simpa using fun h => absent (.inr h)
      have free : proxy.target.get prop = none := by simpa using fun h => absent (.inl h)
      cases own : (Json.object fields).own prop with
      | none =>
        rw [own] at fetched
        refine ⟨false, by simp [State.has, kind, here, fetched, pure, Except.pure], ?_⟩
        exact iff_of_true (fun _ _ _ => free) (by simp [Json.has, own, unknown])
      | some member =>
        rw [own] at fetched
        have quiet : (metadata member).throwIfErrorSentinel = .ok () := by
          cases member <;> rfl
        refine ⟨true, ?_, iff_of_true (fun _ missing => by cases missing) (by simp [Json.has, own])⟩
        simp [State.has, kind, here, fetched, quiet, bind, Except.bind, pure, Except.pure]

theorem resolveObjectKeys_spec (faithful : Faithful data s) (found : s.proxies[number]? = some proxy)
    (views : Views data s proxy value) (kind : proxy.isArray = false) :
    ∃ later, s.resolveObjectKeys data number proxy = .ok (value.ownKeys, later) ∧ Faithful data later := by
  obtain ⟨fields, rfl, keys⟩ := views.object kind
  rcases keys with unknown | told
  · cases fetched : proxy.fetchedKeys with
    | some keys =>
      have same := views.fetched keys fetched
      subst same
      exact ⟨s, by simp [State.resolveObjectKeys, unknown, fetched, pure, Except.pure], faithful⟩
    | none =>
      have crossed : getValueAtPath data proxy.basePath = some (metadata (.object fields)) := by
        rw [getValueAtPath, views.leads, Option.map_some]
      have quiet : (metadata (.object fields)).throwIfErrorSentinel = .ok () := rfl
      have marked : (metadata (.object fields)).isObjectMetadata = true := rfl
      have keys := metadataKeys_metadata fields
      refine ⟨⟨s.proxies.modify number fun proxy => { proxy with fetchedKeys := some (Json.keys fields) }⟩,
        ?_, ?_⟩
      · simp [State.resolveObjectKeys, unknown, fetched, crossed, quiet, marked, keys, bind, Except.bind, pure,
          Except.pure, Json.ownKeys]
      · refine faithful_modify faithful (fun _ => ⟨rfl, rfl⟩) fun same other here there => ?_
        obtain rfl : proxy = same := Option.some.inj (found.symm.trans here)
        obtain rfl : Json.object fields = other := Option.some.inj (views.leads.symm.trans there.leads)
        exact ⟨there.leads, there.fits, fun keys told => by cases told; rfl, there.kept⟩
  · exact ⟨s, by simp [State.resolveObjectKeys, told, pure, Except.pure, Json.ownKeys], faithful⟩

theorem ownKeys_spec (faithful : Faithful data s) (found : s.proxies[number]? = some proxy)
    (views : Views data s proxy value) :
    ∃ later, s.ownKeys data number proxy = .ok (value.ownKeys, later) ∧ Faithful data later := by
  cases kind : proxy.isArray with
  | true =>
    obtain ⟨values, rfl, size⟩ := views.array kind
    exact ⟨s, by simp [State.ownKeys, kind, size, Json.ownKeys], faithful⟩
  | false =>
    obtain ⟨later, resolved, kept⟩ := resolveObjectKeys_spec faithful found views kind
    exact ⟨later, by simpa [State.ownKeys, kind] using resolved, kept⟩

theorem lookup_eq_none_iff (fields : List (String × Json)) (prop : String) :
    OrderedMap.lookup prop fields = none ↔ prop ∉ Json.keys fields := by
  induction fields with
  | nil => simp [OrderedMap.lookup, Json.keys]
  | cons field fields ih =>
    by_cases same : field.1 = prop
    · simp [OrderedMap.lookup, Json.keys, same]
    · simp only [OrderedMap.lookup, same, if_false, ih, Json.keys, List.map_cons, List.mem_cons, not_or]
      exact ⟨fun h => ⟨fun eq => same eq.symm, h⟩, And.right⟩

/-- Own keys of objects aside, descriptors are those of the value. -/
theorem getOwnPropertyDescriptor_spec (prop : String) (faithful : Faithful data s)
    (found : s.proxies[number]? = some proxy) (views : Views data s proxy value) :
    ∃ answer later, s.getOwnPropertyDescriptor data number proxy prop = .ok (answer, later) ∧
      Faithful data later ∧ ((proxy.isArray = false → value.own prop = none) ↔
        Answer.Agrees (Shows data later) (.descriptor answer)
          (.descriptor (value.getOwnPropertyDescriptor prop))) := by
  cases kind : proxy.isArray with
  | true =>
    obtain ⟨values, rfl, size⟩ := views.array kind
    by_cases length : prop = "length"
    · subst length
      refine ⟨_, s, by simp [State.getOwnPropertyDescriptor, kind, pure, Except.pure]; rfl, faithful, ?_⟩
      simp [Json.getOwnPropertyDescriptor, Json.own, Json.isArray, Json.read, Json.composite, Answer.Agrees,
        PropertyDescriptor.Agrees, Value.Agrees, size]
    · cases index : arrayIndex values.length prop with
      | none =>
        have missing := (own_array_eq_none length).2 index
        refine ⟨none, s, ?_, faithful, ?_⟩
        · simp [State.getOwnPropertyDescriptor, kind, length, Proxy.isInArrayBounds, size, index, pure,
            Except.pure]
        · simp [Json.getOwnPropertyDescriptor, missing, Answer.Agrees]
      | some idx =>
        obtain ⟨answer, later, read, kept, agrees⟩ := get_spec prop faithful found views
        have agrees := agrees.1 fun object => by rw [kind] at object; cases object
        refine ⟨some ⟨true, true, false, answer⟩, later, ?_, kept, iff_of_true (fun h => by cases h) ?_⟩
        · simp [State.getOwnPropertyDescriptor, kind, length, Proxy.isInArrayBounds, size, index, read, bind,
            Except.bind, pure, Except.pure]
        · have own : ∃ member, (Json.array values).own prop = some member := by
            rw [own_array_of_index index length]
            exact ⟨_, List.getElem?_eq_getElem (arrayIndex_eq_some index).1⟩
          obtain ⟨member, own⟩ := own
          simp only [Json.get, own] at agrees
          simp only [Json.getOwnPropertyDescriptor, own, Option.map_some, length, and_false, if_false]
          exact ⟨rfl, rfl, agrees⟩
  | false =>
    obtain ⟨later, resolved, kept⟩ := resolveObjectKeys_spec faithful found views kind
    obtain ⟨fields, rfl, -⟩ := views.object kind
    have known := lookup_eq_none_iff fields prop
    cases own : (Json.object fields).own prop with
    | none =>
      have absent : prop ∉ (Json.object fields).ownKeys := known.1 own
      refine ⟨none, later, ?_, kept, ?_⟩
      · simp [State.getOwnPropertyDescriptor, kind, resolved, absent, bind, Except.bind, pure, Except.pure]
      · simp [Json.getOwnPropertyDescriptor, own, Answer.Agrees]
    | some member =>
      have there : prop ∈ (Json.object fields).ownKeys := by
        by_contra absent
        simp [show (Json.object fields).own prop = none from known.2 absent] at own
      refine ⟨some ⟨true, true, false, .undefined⟩, later, ?_, kept, iff_of_false (by simp) fun agrees => ?_⟩
      · simp [State.getOwnPropertyDescriptor, kind, resolved, there, bind, Except.bind, pure, Except.pure]
      · simp only [Json.getOwnPropertyDescriptor, own, Option.map_some, Json.isArray] at agrees
        simp only [Bool.false_eq_true, false_and, if_false] at agrees
        have shown := agrees.2.2
        simp only [Json.read] at shown
        split at shown <;> cases shown

end

variable (data : Json)

theorem answer_spec {s : State} {action : Action} {proxy : Proxy} (faithful : Faithful data s)
    (found : s.proxies[action.number]? = some proxy) {value : Json} (views : Views data s proxy value) :
    ∃ answer later, s.answer data action.number proxy action.operation = .ok (answer, later) ∧
      Faithful data later ∧
        (Avoids data s action ↔ answer.Agrees (Shows data later) (value.answer action.operation)) := by
  have here : ∀ P : Proxy → Json → Prop, (∀ other shown, s.proxies[action.number]? = some other →
      navigate data other.basePath = some shown → P other shown) ↔ P proxy value := by
    refine fun P => ⟨fun h => h proxy value found views.leads, fun h other shown at_ leads => ?_⟩
    obtain rfl : proxy = other := Option.some.inj (found.symm.trans at_)
    obtain rfl : value = shown := Option.some.inj (views.leads.symm.trans leads)
    exact h
  unfold Avoids
  rw [here]
  obtain ⟨number, operation⟩ := action
  cases operation with
  | get prop =>
    obtain ⟨answer, later, read, kept, agrees⟩ := get_spec prop faithful found views
    exact ⟨.value answer, later, by simp [State.answer, read, Except.map], kept, agrees⟩
  | has prop =>
    obtain ⟨there, asked, agrees⟩ := has_spec prop views
    exact ⟨.has there, s, by simp [State.answer, asked, Except.map], faithful, agrees⟩
  | ownKeys =>
    obtain ⟨later, listed, kept⟩ := ownKeys_spec faithful found views
    exact ⟨.keys value.ownKeys, later, by simp [State.answer, listed, Except.map], kept, by
      simp [Answer.Agrees, Json.answer]⟩
  | getOwnPropertyDescriptor prop =>
    obtain ⟨answer, later, told, kept, agrees⟩ := getOwnPropertyDescriptor_spec prop faithful found views
    exact ⟨.descriptor answer, later, by simp [State.answer, told, Except.map], kept, agrees⟩

theorem asHost_iff {s : State} (faithful : Faithful data s) (action : Action) :
    AsHost data s action ↔ Avoids data s action := by
  cases found : s.proxies[action.number]? with
  | none =>
    refine iff_of_true (fun proxy value here => ?_) fun proxy value here => ?_ <;>
      rw [found] at here <;> cases here
  | some proxy =>
    obtain ⟨value, views⟩ := faithful action.number proxy found
    obtain ⟨answer, later, answered, -, agrees⟩ := answer_spec data faithful found views
    rw [agrees]
    constructor
    · intro asHost
      obtain ⟨other, after, again, same⟩ := asHost proxy value found views.leads
      cases answered.symm.trans again
      exact same
    · intro same other shown here leads
      obtain rfl : proxy = other := Option.some.inj (found.symm.trans here)
      obtain rfl : value = shown := Option.some.inj (views.leads.symm.trans leads)
      exact ⟨answer, later, answered, same⟩

theorem faithful_next {s : State} (faithful : Faithful data s) (action : Action) :
    Faithful data (s.next data action) := by
  unfold State.next
  cases found : s.proxies[action.number]? with
  | none => exact faithful
  | some proxy =>
    obtain ⟨value, views⟩ := faithful action.number proxy found
    obtain ⟨answer, later, answered, kept, -⟩ := answer_spec data faithful found views
    simpa only [answered] using kept

theorem faithful_createRoot {basePath : List String} {shape : Option ProxyMeta} {value : Json}
    (leads : navigate data basePath = some value) (fits : (shape.getD (.object none)).Fits value) :
    Faithful data (createRoot basePath shape) := by
  intro number proxy found
  have made := views_create (createRoot basePath shape) leads fits
  obtain ⟨rfl, rfl⟩ : number = 0 ∧ createDeepLazyProxy basePath (shape.getD (.object none)) = proxy := by
    simpa [createRoot, List.getElem?_singleton] using found
  exact ⟨value, made⟩

/-- In a run over a value, all operations are answered as by the value where they avoid what the
views of objects keep and inherit. -/
theorem along_asHost_iff (basePath : List String) (shape : Option ProxyMeta) (value : Json)
    (leads : navigate data basePath = some value) (fits : (shape.getD (.object none)).Fits value)
    (actions : List Action) :
    Along (State.next data) (AsHost data) (createRoot basePath shape) actions ↔
      Along (State.next data) (Avoids data) (createRoot basePath shape) actions :=
  along_iff (W := fun _ _ => True) (fun _ action faithful _ => asHost_iff data faithful action)
    (fun _ action faithful _ _ => faithful_next data faithful action)
    (faithful_createRoot data leads fits) (along_of_forall fun _ _ => trivial)

theorem along_asHost_name :
    let data : Json := .object [("$json", .object [("name", .string "n8n"), ("tags", .array [.null])])]
    Along (State.next data) (AsHost data) (createRoot ["$json"] none)
      [⟨0, .get "tags"⟩, ⟨1, .has "length"⟩, ⟨0, .has "missing"⟩, ⟨0, .get "missing"⟩] := by
  intro data
  refine (along_asHost_iff data ["$json"] none _ rfl (.inl rfl) _).2 ⟨?_, ?_, ?_, ?_, trivial⟩
  · rintro proxy value - - -
    exact fun _ => by decide
  · rintro proxy value here - object
    cases here
    cases object
  · rintro proxy value here - -
    cases here
    exact fun _ _ => rfl
  · rintro proxy value - - -
    exact fun _ => by decide

/-- A missing key is there once it was read. -/
theorem not_along_asHost_missing :
    ¬∀ (data : Json) (basePath : List String) (shape : Option ProxyMeta) (value : Json)
      (actions : List Action), navigate data basePath = some value →
        (shape.getD (.object none)).Fits value →
          Along (State.next data) (AsHost data) (createRoot basePath shape) actions := by
  intro faithful
  have run := faithful (.object [("$json", .object [])]) ["$json"] (some (.object (some []))) (.object [])
    [⟨0, .get "missing"⟩, ⟨0, .has "missing"⟩] rfl (.inr rfl)
  obtain ⟨answer, later, answered, agrees⟩ := run.2.1 _ _ rfl rfl
  cases answered
  cases agrees

end NodeAutomation.ExpressionRuntime
