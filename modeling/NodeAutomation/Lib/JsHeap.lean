import NodeAutomation.Lib.OrderedMap

/-! Values and objects of JavaScript: own properties, prototypes, and what is found along them. An object
is known by the order in which it was made. -/

namespace NodeAutomation.JsHeap

/-- `ν` are the numbers. -/
inductive Primitive (ν : Type) where
  | undefined
  | null
  | boolean (value : Bool)
  | number (value : ν)
  | bigint (value : Int)
  | string (value : String)
  deriving DecidableEq

inductive Value (ν : Type) where
  | primitive (value : Primitive ν)
  | object (ref : Nat)
  deriving DecidableEq

namespace Value

variable {ν : Type}

abbrev undefined : Value ν := primitive .undefined

abbrev boolean (value : Bool) : Value ν := primitive (.boolean value)

abbrev string (value : String) : Value ν := primitive (.string value)

/-- The value is `undefined` or `null`. -/
def isNullish : Value ν → Bool
  | primitive .undefined | primitive .null => true
  | _ => false

end Value

inductive Property (ν : Type) where
  | data (value : Value ν) (writable : Bool := true) (enumerable : Bool := true)
  | accessor (get set : Option Nat) (enumerable : Bool := false)
  deriving DecidableEq

def Property.enumerable {ν : Type} : Property ν → Bool
  | data _ _ enumerable => enumerable
  | accessor _ _ enumerable => enumerable

def Property.isData {ν : Type} : Property ν → Bool
  | data .. => true
  | accessor .. => false

theorem Property.exists_of_isData {ν : Type} {property : Property ν} (isData : property.isData = true) :
    ∃ value writable enumerable, property = .data value writable enumerable := by
  cases property with
  | data value writable enumerable => exact ⟨value, writable, enumerable, rfl⟩
  | accessor => cases isData

/-- Who made an object: the program, the code that runs the program, for it or for itself, or the engine. -/
inductive Origin where
  | program | host | internal | builtIn
  deriving DecidableEq

/-- Only an array has a length. -/
structure Object (ν : Type) where
  origin : Origin
  proto : Option Nat
  properties : OrderedMap String (Property ν) := ∅
  length : Option Nat := none
  callable : Bool := false
  extensible : Bool := true
  deriving DecidableEq

abbrev Heap (ν : Type) : Type := List (Object ν)

variable {ν : Type}

/-- The keys of elements are the canonical texts of numbers below `2 ^ 32 - 1`. -/
def arrayIndex? (key : String) : Option Nat :=
  key.toNat?.filter fun index => toString index = key ∧ index < 2 ^ 32 - 1

namespace Object

/-- Elements come first, in the order of their numbers. -/
def ownKeys (o : Object ν) : List String :=
  (((o.properties.keys.filterMap arrayIndex?).mergeSort (· ≤ ·)).map toString) ++
    o.properties.keys.filter fun key => (arrayIndex? key).isNone

def enumerableKeys (o : Object ν) : List String :=
  o.ownKeys.filter fun key => (o.properties.get key).any Property.enumerable

variable [NatCast ν]

def own (o : Object ν) (key : String) : Option (Property ν) :=
  match o.length with
  | none => o.properties.get key
  | some length =>
    if key = "length" then some (.data (.primitive (.number length)) true false) else o.properties.get key

/-- A property that is there keeps whether it is enumerated. A new length drops the elements behind it, and
a new element may make the array longer. An array refuses a length that is none. -/
def put (lengthOf : Primitive ν → Option Nat) (o : Object ν) (key : String) (value : Value ν) :
    Option (Object ν) :=
  let stored := o.properties.set key (.data value true ((o.properties.get key).all Property.enumerable))
  match o.length with
  | none => some { o with properties := stored }
  | some length =>
    if key = "length" then
      match value with
      | .primitive p => (lengthOf p).map fun length =>
        { o with
          length := some length
          properties := o.properties.filterKeys fun key => (arrayIndex? key).all (· < length) }
      | .object _ => none
    else
      some { o with
        length := some (((arrayIndex? key).map (· + 1)).elim length (max length))
        properties := stored }

variable {lengthOf : Primitive ν → Option Nat} {o o' : Object ν} {key : String} {value : Value ν}

omit [NatCast ν] in
theorem put_same (stored : o.put lengthOf key value = some o') :
    o'.origin = o.origin ∧ o'.proto = o.proto ∧ o'.callable = o.callable := by
  unfold put at stored
  split at stored
  · cases stored
    exact ⟨rfl, rfl, rfl⟩
  · split at stored
    · split at stored
      · obtain ⟨_, _, rfl⟩ := Option.map_eq_some_iff.1 stored
        exact ⟨rfl, rfl, rfl⟩
      · cases stored
    · cases stored
      exact ⟨rfl, rfl, rfl⟩

/-- What an object has after a write: what it had, what was written, or its length. -/
theorem own_put {k : String} {property : Property ν} (stored : o.put lengthOf key value = some o')
    (found : o'.own k = some property) :
    o.own k = some property ∨ (k = key ∧ ∃ enumerable, property = .data value true enumerable) ∨
      ∃ p, property = .data (.primitive p) true false := by
  have written (m : OrderedMap String (Property ν)) (enumerable : Bool)
      (found : (m.set key (.data value true enumerable)).get k = some property) :
      m.get k = some property ∨ k = key ∧ ∃ enumerable, property = .data value true enumerable := by
    rw [OrderedMap.get_set] at found
    split at found
    · case isTrue same =>
      exact .inr ⟨same, enumerable, (Option.some.inj found).symm⟩
    · exact .inl found
  unfold put at stored
  split at stored
  · case h_1 none =>
    cases stored
    simp only [own, none] at found ⊢
    exact (written _ _ found).imp_right .inl
  · case h_2 length some =>
    split at stored
    · split at stored
      · obtain ⟨length', _, rfl⟩ := Option.map_eq_some_iff.1 stored
        simp only [own, some] at found ⊢
        split at found
        · exact .inr (.inr ⟨_, (Option.some.inj found).symm⟩)
        · rename_i other
          rw [OrderedMap.get_filterKeys] at found
          rw [if_neg other]
          split at found
          · exact .inl found
          · cases found
      · cases stored
    · cases stored
      simp only [own, some] at found ⊢
      split at found
      · exact .inr (.inr ⟨_, (Option.some.inj found).symm⟩)
      · rename_i other
        rw [if_neg other]
        exact (written _ _ found).imp_right .inl

end Object

namespace Heap

variable [NatCast ν]

def lookupFrom (heap : Heap ν) (key : String) : (steps : Nat) → Option Nat → Option (Property ν)
  | 0, _ => none
  | _ + 1, none => none
  | steps + 1, some ref => match heap[ref]? with
    | none => none
    | some o => (o.own key).or (lookupFrom heap key steps o.proto)

/-- No object comes twice among the prototypes of another. -/
def lookup (heap : Heap ν) (ref : Option Nat) (key : String) : Option (Property ν) :=
  heap.lookupFrom key heap.length ref

variable {heap : Heap ν} {ref : Option Nat} {key : String} {property : Property ν}

theorem lookup_own {first : Nat} {o : Object ν} (there : heap[first]? = some o) (own : o.own key = some property) :
    heap.lookup (some first) key = some property := by
  have bound := (List.getElem?_eq_some_iff.1 there).1
  obtain ⟨steps, length⟩ := Nat.exists_eq_add_one_of_ne_zero (Nat.ne_zero_of_lt bound)
  rw [lookup, length, lookupFrom, there]
  dsimp only
  rw [own, Option.some_or]

theorem lookup_of {C : Nat → Prop} {P : Property ν → Prop}
    (closed : ∀ ref o proto, C ref → heap[ref]? = some o → o.proto = some proto → C proto)
    (each : ∀ ref o property, C ref → heap[ref]? = some o → o.own key = some property → P property)
    (start : ∀ first, ref = some first → C first) (found : heap.lookup ref key = some property) : P property := by
  unfold lookup at found
  generalize heap.length = steps at found
  induction steps generalizing ref with
  | zero => cases found
  | succ steps ih =>
    match ref with
    | none => cases found
    | some first =>
      rw [lookupFrom] at found
      split at found
      · cases found
      · case h_2 o there =>
        cases here : o.own key with
        | some own =>
          rw [here, Option.some_or] at found
          exact each first o property (start first rfl) there (here.trans found)
        | none =>
          rw [here, Option.none_or] at found
          exact ih (fun proto above => closed first o proto (start first rfl) there above) found

end Heap

end NodeAutomation.JsHeap
