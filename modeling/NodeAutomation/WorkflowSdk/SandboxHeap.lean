import NodeAutomation.WorkflowSdk.Interpreter

/-! What programs of the SDK may hold and do, and what they find on the objects that they may hold. -/

namespace NodeAutomation.SDKInterpreter

open JsHeap GuardedRuns

variable {ν : Type}

/-- The object was made by the program, by the SDK for it or for itself, or by the engine. -/
def IsOf (heap : Heap ν) (origin : Origin) (ref : Nat) : Prop := heap[ref]?.map Object.origin = some origin

instance (heap : Heap ν) (origin : Origin) (ref : Nat) : Decidable (IsOf heap origin ref) :=
  inferInstanceAs (Decidable (_ = _))

section

variable [NatCast ν] (setting : Setting ν)

def Provided (function : Nat) : Prop := function ∈ setting.sdkFunctions.values

def safeNames (table : Nat) : List String :=
  if table = setting.realm.safeJsonMethods then ["stringify"] else ["repeat", "trim"]

def Listed (heap : Heap ν) (table : Nat) (name : String) (function : Nat) : Prop :=
  table ∈ [setting.realm.safeJsonMethods, setting.realm.safeStringMethods] ∧ name ∈ safeNames setting table ∧
    ∃ (o : Object ν) (writable enumerable : Bool), heap[table]? = some o ∧ o.origin = .builtIn ∧
      o.own name = some (.data (.object function) writable enumerable)

def Converts (heap : Heap ν) (name : String) (function : Nat) : Prop :=
  ∃ (ref : Nat) (o : Object ν) (writable enumerable : Bool), heap[ref]? = some o ∧ o.origin = .builtIn ∧
    name ∈ ["toString", "valueOf"] ∧ o.own name = some (.data (.object function) writable enumerable)

/-- What the interpreter may do. The engine itself calls accessors, and methods that convert operands: these
have to be functions of the SDK, or the engine's own. -/
def Event.Closed : Event ν → Prop
  | .reads _ _ key | .fetches key | .copies _ _ key | .writes _ _ key | .defines key => key ∉ dangerousNames
  | .calls _ (.named _) function _ => Provided setting function
  | .calls heap (.method name) function thisArg => Provided setting function ∨
      name ∈ ALLOWED_METHODS ∧ IsOf heap .host function ∧ ∃ ref, thisArg = .object ref ∧ IsOf heap .host ref
  | .calls heap (.safeMethod table name) function _ => Listed setting heap table name function
  | .calls heap (.conversion name) function _ => Provided setting function ∨ IsOf heap .host function ∨
      Converts heap name function
  | .calls heap (.accessor _) function _ => IsOf heap .host function
  | .gives heap value => ∀ ref, value = .object ref → ¬ IsOf heap .builtIn ref

/-- Everything that was done is allowed, and no object of the engine has changed. -/
structure Sandboxed (s s' : State ν) : Prop where
  closed : ∀ event ∈ s'.events, event.Closed setting
  unchanged : ∀ (ref : Nat) (o : Object ν), s.heap[ref]? = some o → o.origin = .builtIn → s'.heap[ref]? = some o

/-- What a program may hold: primitives, objects that it made or that the SDK made for it, and the provided
functions. -/
def Tame (heap : Heap ν) : Value ν → Prop
  | .primitive _ => True
  | .object ref => ∃ o : Object ν, heap[ref]? = some o ∧ (o.origin = .program ∨ o.origin = .host) ∧
      (o.callable = true → Provided setting ref)

/-- The program may hold the value of the property, or the SDK has a getter for it. -/
def Readable (heap : Heap ν) : Option (Property ν) → Prop
  | some (.data value _ _) => Tame setting heap value
  | some (.accessor (some get) _ _) => IsOf heap .host get
  | _ => True

/-- What is read is a value that the program may hold. -/
abbrev Found (heap : Heap ν) (target : Value ν) (key : String) : Prop :=
  Readable setting heap (findProperty setting heap target key)

def Writable (heap : Heap ν) : Option (Property ν) → Prop
  | some (.accessor _ (some set) _) => IsOf heap .host set
  | _ => True

/-- The places where the interpreter checks nothing: what a member holds, which keys are written down or
spread, and whether a table of safe methods has a method itself. -/
def Event.Careful : Event ν → Prop
  | .reads heap target key => Found setting heap target key
  | .copies heap source key => key ∉ dangerousNames ∧ Found setting heap source key
  | .writes heap target key => Writable heap (findProperty setting heap target key)
  | .defines key => key ∉ dangerousNames
  | .calls _ (.safeMethod table name) _ _ => name ∈ safeNames setting table
  | _ => True

instance (function : Nat) : Decidable (Provided setting function) := inferInstanceAs (Decidable (_ ∈ _))

instance (heap : Heap ν) : (value : Value ν) → Decidable (Tame setting heap value)
  | .primitive _ => .isTrue trivial
  | .object ref => decidable_of_iff
    (∃ o ∈ heap[ref]?, (o.origin = .program ∨ o.origin = .host) ∧ (o.callable = true → Provided setting ref)) .rfl

instance (heap : Heap ν) : (property : Option (Property ν)) → Decidable (Readable setting heap property)
  | some (.data value _ _) => inferInstanceAs (Decidable (Tame setting heap value))
  | some (.accessor (some get) _ _) => inferInstanceAs (Decidable (IsOf heap .host get))
  | some (.accessor none _ _) | none => .isTrue trivial

instance (heap : Heap ν) : (property : Option (Property ν)) → Decidable (Writable heap property)
  | some (.accessor _ (some set) _) => inferInstanceAs (Decidable (IsOf heap .host set))
  | some (.accessor _ none _) | some (.data _ _ _) | none => .isTrue trivial

instance : (event : Event ν) → Decidable (event.Careful setting)
  | .reads heap target key => inferInstanceAs (Decidable (Found setting heap target key))
  | .copies heap source key => inferInstanceAs (Decidable (key ∉ dangerousNames ∧ Found setting heap source key))
  | .writes heap target key => inferInstanceAs (Decidable (Writable heap (findProperty setting heap target key)))
  | .defines key => inferInstanceAs (Decidable (key ∉ dangerousNames))
  | .calls _ (.safeMethod table name) _ _ => inferInstanceAs (Decidable (name ∈ safeNames setting table))
  | .calls _ (.named _) _ _ | .calls _ (.method _) _ _ | .calls _ (.conversion _) _ _
  | .calls _ (.accessor _) _ _ | .fetches _ | .gives _ _ => .isTrue trivial

/-- What a built-in prototype has: no method under an allowed name, and no accessor where values are converted. -/
structure Bare (o : Object ν) : Prop where
  builtIn : o.origin = .builtIn
  methods : ∀ name ∈ ALLOWED_METHODS, o.own name = none
  conversions : ∀ name ∈ ["toString", "valueOf"], ∀ property, o.own name = some property →
    ∃ value writable enumerable, property = .data value writable enumerable

def Setterless (o : Object ν) : Prop :=
  ∀ key get set enumerable, o.own key = some (.accessor get (some set) enumerable) → key ∈ dangerousNames

/-- An object of the engine and its prototypes; where `setters` is false, they have none. -/
inductive Inert (heap : Heap ν) (setters : Prop) : Nat → Prop where
  | intro {ref : Nat} {o : Object ν} : heap[ref]? = some o → Bare o → setters ∨ Setterless o →
    (∀ proto, o.proto = some proto → Inert heap setters proto) → Inert heap setters ref

/-- No property of an SDK object under a name that is called leads to the engine. -/
def Known (heap : Heap ν) : Property ν → Prop
  | .data value _ _ => ∀ ref, value = .object ref → IsOf heap .program ref ∨ IsOf heap .host ref
  | .accessor get _ _ => ∀ function, get = some function → IsOf heap .host function

structure Sound (heap : Heap ν) : Prop where
  provided : ∀ function, Provided setting function → IsOf heap .host function
  program : ∀ (ref : Nat) (o : Object ν), heap[ref]? = some o → o.origin = .program → o.callable = false ∧
    (∀ proto, o.proto = some proto → Inert heap False proto) ∧
    ∀ key property, o.own key = some property →
      ∃ value writable enumerable, property = .data value writable enumerable ∧ Tame setting heap value
  host : ∀ (ref : Nat) (o : Object ν), heap[ref]? = some o → o.origin = .host →
    (∀ proto, o.proto = some proto → Inert heap True proto ∨ IsOf heap .program proto ∨ IsOf heap .host proto) ∧
    ∀ name ∈ ALLOWED_METHODS ++ ["toString", "valueOf"], ∀ property, o.own name = some property → Known heap property
  arrayPrototype : Inert heap False setting.realm.arrayPrototype
  regExpPrototype : Inert heap False setting.realm.regExpPrototype
  objectPrototype : Inert heap False setting.realm.objectPrototype
  plain : ∀ o : Object ν, heap[setting.realm.objectPrototype]? = some o → o.proto = none ∧
    ∀ key get set enumerable, o.own key = some (.accessor get set enumerable) → key ∈ dangerousNames
  tables : ∀ table ∈ [setting.realm.safeJsonMethods, setting.realm.safeStringMethods], ∃ o : Object ν,
    heap[table]? = some o ∧ o.origin = .builtIn ∧ o.proto = some setting.realm.objectPrototype ∧
    (∀ key property, o.own key = some property →
      ∃ value writable enumerable, property = .data value writable enumerable) ∧
    ∀ name ∈ safeNames setting table, ∃ function writable enumerable,
      o.own name = some (.data (.object function) writable enumerable)

/-- The heap has grown and objects were written to, but those of the engine are the same. -/
structure Later (heap heap' : Heap ν) : Prop where
  grown : ∀ (ref : Nat) (o : Object ν), heap[ref]? = some o →
    ∃ o' : Object ν, heap'[ref]? = some o' ∧ o'.origin = o.origin ∧ o'.callable = o.callable
  builtIn : ∀ (ref : Nat) (o : Object ν), heap'[ref]? = some o → o.origin = .builtIn → heap[ref]? = some o

def MayCall (heap : Heap ν) (function : Nat) : Prop :=
  Provided setting function ∨ IsOf heap .host function ∨ (∃ name, Converts heap name function) ∨
    ∃ table name, Listed setting heap table name function

/-- The functions of the SDK, and those of the engine that may be called, keep what belongs to the engine to
themselves, wherever a program that starts from the heap may call them. -/
def Harmless (initial : Heap ν) : Prop :=
  ∀ heap function thisArg args, Later initial heap → Sound setting heap → MayCall setting heap function →
    Tame setting heap thisArg → (∀ arg ∈ args, Tame setting heap arg) →
    Sound setting (setting.apply heap function thisArg args).2 ∧
      Later heap (setting.apply heap function thisArg args).2 ∧
      ∀ value, (setting.apply heap function thisArg args).1 = .ok value →
        Tame setting (setting.apply heap function thisArg args).2 value

end

section

variable {setting : Setting ν} {heap heap' : Heap ν} {origin : Origin} {ref function : Nat} {value : Value ν}
  {o o' : Object ν} {key name : String}

theorem later_refl (heap : Heap ν) : Later heap heap where
  grown _ o there := ⟨o, there, rfl, rfl⟩
  builtIn _ _ there _ := there

theorem Later.trans {heap'' : Heap ν} (first : Later heap heap') (second : Later heap' heap'') : Later heap heap'' where
  grown ref o there := by
    obtain ⟨o', there', origin, callable⟩ := first.grown ref o there
    obtain ⟨o'', there'', origin', callable'⟩ := second.grown ref o' there'
    exact ⟨o'', there'', origin'.trans origin, callable'.trans callable⟩
  builtIn ref o there builtIn := first.builtIn ref o (second.builtIn ref o there builtIn) builtIn

theorem Later.kept (later : Later heap heap') (there : heap[ref]? = some o) (builtIn : o.origin = .builtIn) :
    heap'[ref]? = some o := by
  obtain ⟨o', there', origin, _⟩ := later.grown ref o there
  cases there.symm.trans (later.builtIn ref o' there' (origin.trans builtIn))
  exact there'

theorem isOf_iff : IsOf heap origin ref ↔ ∃ o : Object ν, heap[ref]? = some o ∧ o.origin = origin :=
  Option.map_eq_some_iff

theorem IsOf.later (h : IsOf heap origin ref) (later : Later heap heap') : IsOf heap' origin ref := by
  obtain ⟨o, there, here⟩ := isOf_iff.1 h
  obtain ⟨o', there', same, _⟩ := later.grown ref o there
  exact isOf_iff.2 ⟨o', there', same.trans here⟩

theorem Tame.later (tame : Tame setting heap value) (later : Later heap heap') : Tame setting heap' value := by
  cases value with
  | primitive => trivial
  | object ref =>
    obtain ⟨o, there, origin, callable⟩ := tame
    obtain ⟨o', there', origin', callable'⟩ := later.grown ref o there
    exact ⟨o', there', origin' ▸ origin, callable' ▸ callable⟩

theorem Tame.isOf (tame : Tame setting heap (.object ref)) : IsOf heap .program ref ∨ IsOf heap .host ref := by
  obtain ⟨o, there, origin, _⟩ := tame
  exact origin.imp (fun program => isOf_iff.2 ⟨o, there, program⟩) fun host => isOf_iff.2 ⟨o, there, host⟩

theorem Tame.not_builtIn (tame : Tame setting heap (.object ref)) : ¬ IsOf heap .builtIn ref := by
  intro builtIn
  cases tame.isOf with
  | inl program => cases builtIn.symm.trans program
  | inr host => cases builtIn.symm.trans host

theorem Tame.known (tame : Tame setting heap value) (writable enumerable : Bool) :
    Known heap (.data value writable enumerable) := by
  intro ref same
  subst same
  exact tame.isOf

theorem functionOf_iff : functionOf heap value = some function ↔
    value = .object function ∧ ∃ o : Object ν, heap[function]? = some o ∧ o.callable = true := by
  cases value with
  | primitive => simp [functionOf]
  | object ref =>
    rw [functionOf, Option.ite_none_right_eq_some, Option.any_eq_true, Value.object.injEq, Option.some.injEq]
    constructor
    · rintro ⟨callable, rfl⟩
      exact ⟨rfl, callable⟩
    · rintro ⟨rfl, callable⟩
      exact ⟨callable, rfl⟩

theorem Tame.provided (tame : Tame setting heap value) (called : functionOf heap value = some function) :
    Provided setting function := by
  obtain ⟨rfl, o, there, callable⟩ := functionOf_iff.1 called
  obtain ⟨_, there', _, provided⟩ := tame
  cases there.symm.trans there'
  exact provided callable

theorem Known.later {property : Property ν} (known : Known heap property) (later : Later heap heap') :
    Known heap' property := by
  cases property with
  | data => exact fun ref same => (known ref same).imp (·.later later) (·.later later)
  | accessor => exact fun function same => (known function same).later later

variable [NatCast ν]

theorem Inert.later {setters : Prop} (inert : Inert heap setters ref) (later : Later heap heap') :
    Inert heap' setters ref := by
  induction inert with
  | intro there bare setters _ ih => exact .intro (later.kept there bare.builtIn) bare setters ih

theorem Inert.mono {setters setters' : Prop} (inert : Inert heap setters ref) (more : setters → setters') :
    Inert heap setters' ref := by
  induction inert with
  | intro there bare setters _ ih => exact .intro there bare (setters.imp_left more) ih

theorem Sound.of_later (sound : Sound setting heap) (later : Later heap heap')
    (program : ∀ (ref : Nat) (o : Object ν), heap'[ref]? = some o → heap[ref]? ≠ some o →
      o.origin = .program → o.callable = false ∧
      (∀ proto, o.proto = some proto → Inert heap' False proto) ∧
      ∀ key property, o.own key = some property →
        ∃ value writable enumerable, property = .data value writable enumerable ∧ Tame setting heap' value)
    (host : ∀ (ref : Nat) (o : Object ν), heap'[ref]? = some o → heap[ref]? ≠ some o → o.origin = .host →
      (∀ proto, o.proto = some proto → Inert heap' True proto ∨ IsOf heap' .program proto ∨ IsOf heap' .host proto) ∧
      ∀ name ∈ ALLOWED_METHODS ++ ["toString", "valueOf"], ∀ property, o.own name = some property →
        Known heap' property) : Sound setting heap' where
  provided function given := (sound.provided function given).later later
  program ref o there own := by
    by_cases same : heap[ref]? = some o
    · obtain ⟨function, protos, held⟩ := sound.program ref o same own
      refine ⟨function, fun p above => (protos p above).later later, fun k property here => ?_⟩
      obtain ⟨v, w, e, rfl, known⟩ := held k property here
      exact ⟨v, w, e, rfl, known.later later⟩
    · exact program ref o there same own
  host ref o there own := by
    by_cases same : heap[ref]? = some o
    · obtain ⟨protos, held⟩ := sound.host ref o same own
      exact ⟨fun p above => (protos p above).imp (·.later later) (Or.imp (·.later later) (·.later later)),
        fun name member property here => (held name member property here).later later⟩
    · exact host ref o there same own
  arrayPrototype := sound.arrayPrototype.later later
  regExpPrototype := sound.regExpPrototype.later later
  objectPrototype := sound.objectPrototype.later later
  plain o there := by
    cases sound.objectPrototype with
    | @intro _ o₀ there₀ bare _ _ =>
      cases there.symm.trans (later.kept there₀ bare.builtIn)
      exact sound.plain o there₀
  tables table member := by
    obtain ⟨o, there, builtIn, rest⟩ := sound.tables table member
    exact ⟨o, later.kept there builtIn, builtIn, rest⟩

/-- The properties that the interpreter writes lead to values that the program holds. -/
theorem Sound.put (sound : Sound setting heap) (tame : Tame setting heap (.object ref)) (there : heap[ref]? = some o)
    (put : o.put setting.primitives.lengthOf key value = some o') (written : Tame setting heap value) :
    Later heap (heap.set ref o') ∧ Sound setting (heap.set ref o') := by
  obtain ⟨origin, proto, callable⟩ := Object.put_same put
  have bound := (List.getElem?_eq_some_iff.1 there).1
  have own : o.origin = .program ∨ o.origin = .host := by
    obtain ⟨_, there', own, _⟩ := tame
    cases there.symm.trans there'
    exact own
  have at_ (i : Nat) (x : Object ν) (h : (heap.set ref o')[i]? = some x) :
      i = ref ∧ x = o' ∨ i ≠ ref ∧ heap[i]? = some x := by
    by_cases same : i = ref
    · rw [same, List.getElem?_set_self bound] at h
      exact .inl ⟨same, (Option.some.inj h).symm⟩
    · rw [List.getElem?_set_ne (Ne.symm same)] at h
      exact .inr ⟨same, h⟩
  have later : Later heap (heap.set ref o') := by
    refine ⟨fun i x found => ?_, fun i x found builtIn => ?_⟩
    · by_cases same : i = ref
      · rw [same] at found ⊢
        cases there.symm.trans found
        exact ⟨o', List.getElem?_set_self bound, origin, callable⟩
      · exact ⟨x, by rw [List.getElem?_set_ne (Ne.symm same)]; exact found, rfl, rfl⟩
    · obtain ⟨rfl, rfl⟩ | ⟨_, found⟩ := at_ i x found
      · rw [← origin, builtIn] at own
        exact own.elim (fun never => by cases never) fun never => by cases never
      · exact found
  refine ⟨later, sound.of_later later (fun i x found changed program => ?_) fun i x found changed host => ?_⟩
  · obtain ⟨rfl, rfl⟩ := (at_ i x found).resolve_right fun kept => changed kept.2
    obtain ⟨function, protos, held⟩ := sound.program i o there (origin.symm.trans program)
    refine ⟨callable.trans function, fun p above => (protos p (proto ▸ above)).later later, fun k property here => ?_⟩
    obtain before | ⟨_, enumerable, rfl⟩ | ⟨p, rfl⟩ := Object.own_put put here
    · obtain ⟨v, w, e, rfl, known⟩ := held k property before
      exact ⟨v, w, e, rfl, known.later later⟩
    · exact ⟨value, true, enumerable, rfl, written.later later⟩
    · exact ⟨.primitive p, true, false, rfl, trivial⟩
  · obtain ⟨rfl, rfl⟩ := (at_ i x found).resolve_right fun kept => changed kept.2
    obtain ⟨protos, held⟩ := sound.host i o there (origin.symm.trans host)
    refine ⟨fun p above => (protos p (proto ▸ above)).imp (·.later later) (Or.imp (·.later later) (·.later later)),
      fun name member property here => ?_⟩
    obtain before | ⟨_, enumerable, rfl⟩ | ⟨p, rfl⟩ := Object.own_put put here
    · exact (held name member property before).later later
    · exact (written.later later).known true enumerable
    · exact fun _ never => by cases never

theorem Sound.allocate (sound : Sound setting heap) (program : o.origin = .program) (plain : o.callable = false)
    (protos : ∀ proto, o.proto = some proto → Inert heap False proto)
    (held : ∀ key property, o.own key = some property →
      ∃ value writable enumerable, property = .data value writable enumerable ∧ Tame setting heap value) :
    Later heap (heap ++ [o]) ∧ Sound setting (heap ++ [o]) := by
  have at_ (i : Nat) (x : Object ν) (h : (heap ++ [o])[i]? = some x) : x = o ∨ heap[i]? = some x := by
    by_cases old : i < heap.length
    · rw [List.getElem?_append_left old] at h
      exact .inr h
    · rw [List.getElem?_append_right (Nat.le_of_not_lt old)] at h
      exact .inl (List.mem_singleton.1 (List.mem_of_getElem? h))
  have later : Later heap (heap ++ [o]) := by
    refine ⟨fun i x found => ?_, fun i x found builtIn => ?_⟩
    · exact ⟨x, (List.getElem?_append_left (List.getElem?_eq_some_iff.1 found).1).trans found, rfl, rfl⟩
    · obtain rfl | found := at_ i x found
      · cases program.symm.trans builtIn
      · exact found
  refine ⟨later, sound.of_later later (fun i x found changed _ => ?_) fun i x found changed host => ?_⟩
  · obtain rfl := (at_ i x found).resolve_right changed
    refine ⟨plain, fun p above => (protos p above).later later, fun k property here => ?_⟩
    obtain ⟨v, w, e, rfl, known⟩ := held k property here
    exact ⟨v, w, e, rfl, known.later later⟩
  · obtain rfl := (at_ i x found).resolve_right changed
    cases program.symm.trans host

/-! What is found on objects of the program and the SDK -/

/-- The objects to which lookups come: none of the SDK, where they start from an object of the program. -/
def Beyond (heap : Heap ν) (hosts : Prop) (ref : Nat) : Prop :=
  IsOf heap .program ref ∨ (hosts ∧ IsOf heap .host ref) ∨ Inert heap hosts ref

variable {property : Property ν} {hosts : Prop}

theorem Sound.lookup {P : Property ν → Prop} (sound : Sound setting heap)
    (program : ∀ value writable enumerable, Tame setting heap value → P (.data value writable enumerable))
    (host : hosts → ∀ property,
      (key ∈ ALLOWED_METHODS ++ ["toString", "valueOf"] → Known heap property) → P property)
    (inert : ∀ (ref : Nat) (o : Object ν) property, heap[ref]? = some o → Bare o → hosts ∨ Setterless o →
      o.own key = some property → P property)
    (start : Beyond heap hosts ref) (found : heap.lookup (some ref) key = some property) : P property := by
  refine Heap.lookup_of (C := Beyond heap hosts) (fun ref o proto beyond there above => ?_)
    (fun ref o property beyond there own => ?_) (fun _ same => Option.some.inj same ▸ start) found
  · obtain here | ⟨hosts, here⟩ | ⟨there', _, _, protos⟩ := beyond
    · obtain ⟨_, there', here⟩ := isOf_iff.1 here
      cases there.symm.trans there'
      exact .inr (.inr (((sound.program ref o there here).2.1 proto above).mono False.elim))
    · obtain ⟨_, there', here⟩ := isOf_iff.1 here
      cases there.symm.trans there'
      obtain inert | program | host := (sound.host ref o there here).1 proto above
      · exact .inr (.inr (inert.mono fun _ => hosts))
      · exact .inl program
      · exact .inr (.inl ⟨hosts, host⟩)
    · cases there.symm.trans there'
      exact .inr (.inr (protos proto above))
  · obtain here | ⟨hosts, here⟩ | ⟨there', bare, setters, _⟩ := beyond
    · obtain ⟨_, there', here⟩ := isOf_iff.1 here
      cases there.symm.trans there'
      obtain ⟨value, writable, enumerable, rfl, tame⟩ := (sound.program ref o there here).2.2 key property own
      exact program value writable enumerable tame
    · obtain ⟨_, there', here⟩ := isOf_iff.1 here
      cases there.symm.trans there'
      exact host hosts property fun member => (sound.host ref o there here).2 key member property own
    · cases there.symm.trans there'
      exact inert ref o property there bare setters own

theorem Known.isOf {writable enumerable : Bool} (known : Known heap (.data value writable enumerable))
    (sound : Sound setting heap) (called : functionOf heap value = some function) : IsOf heap .host function := by
  obtain ⟨rfl, o, there, callable⟩ := functionOf_iff.1 called
  refine (known function rfl).resolve_left fun program => ?_
  obtain ⟨_, there', origin⟩ := isOf_iff.1 program
  cases there.symm.trans there'
  cases callable.symm.trans (sound.program function o there origin).1

/-- What a property brings to a call: as a value, functions that may be called, and as an accessor one of the
SDK. -/
def Brings (heap : Heap ν) (called : Nat → Prop) : Property ν → Prop
  | .data value _ _ => ∀ function, functionOf heap value = some function → called function
  | .accessor get _ _ => ∀ function, get = some function → IsOf heap .host function

section

variable (sound : Sound setting heap)
include sound

theorem Sound.found_method (allowed : key ∈ ALLOWED_METHODS)
    (start : Beyond heap hosts ref) (found : heap.lookup (some ref) key = some property) :
    Brings heap (fun function => Provided setting function ∨ hosts ∧ IsOf heap .host function) property := by
  refine sound.lookup (fun value writable enumerable tame function called => .inl (tame.provided called))
    (fun hosts property known => ?_) (fun _ o property _ bare _ own => ?_) start found
  · have known := known (List.mem_append_left _ allowed)
    cases property with
    | data => exact fun function called => .inr ⟨hosts, known.isOf sound called⟩
    | accessor => exact known
  · simp [bare.methods key allowed] at own

theorem Sound.found_conversion (conversion : key ∈ ["toString", "valueOf"])
    (start : Beyond heap True ref) (found : heap.lookup (some ref) key = some property) :
    Brings heap (fun function => Provided setting function ∨ IsOf heap .host function ∨ Converts heap key function)
      property := by
  refine sound.lookup (fun value writable enumerable tame function called => .inl (tame.provided called))
    (fun _ property known => ?_) (fun ref o property there bare _ own => ?_) start found
  · have known := known (List.mem_append_right _ conversion)
    cases property with
    | data => exact fun function called => .inr (.inl (known.isOf sound called))
    | accessor => exact known
  · obtain ⟨value, writable, enumerable, rfl⟩ := bare.conversions key conversion property own
    intro function called
    obtain ⟨rfl, _⟩ := functionOf_iff.1 called
    exact .inr (.inr ⟨ref, o, writable, enumerable, there, bare.builtIn, conversion, own⟩)

theorem Sound.found_setter {get : Option Nat} {set : Nat} {enumerable : Bool}
    (start : IsOf heap .program ref) (found : heap.lookup (some ref) key = some (.accessor get (some set) enumerable)) :
    key ∈ dangerousNames := by
  refine @Sound.lookup ν setting heap ref key _ _ False
    (fun property => ∀ get set enumerable, property = .accessor get (some set) enumerable → key ∈ dangerousNames)
    sound (fun _ _ _ _ _ _ _ never => by cases never) False.elim (fun _ o property _ _ setters own => ?_)
    (.inl start) found get set enumerable rfl
  rintro get set enumerable rfl
  exact setters.elim False.elim fun setterless => setterless key get set enumerable own

theorem Sound.found_entry {table : Nat}
    (member : table ∈ [setting.realm.safeJsonMethods, setting.realm.safeStringMethods]) (safe : key ∉ dangerousNames)
    (found : heap.lookup (some table) key = some property) :
    ∃ value writable enumerable, property = .data value writable enumerable ∧
      (key ∈ safeNames setting table → ∃ function, value = .object function ∧
        Listed setting heap table key function) := by
  obtain ⟨o, there, builtIn, proto, data, names⟩ := sound.tables table member
  have isData : ∃ value writable enumerable, property = .data value writable enumerable := by
    refine Heap.lookup_of (C := fun ref => ref = table ∨ ref = setting.realm.objectPrototype)
      (P := fun property => ∃ value writable enumerable, property = .data value writable enumerable)
      (fun ref x p first there' above => ?_) (fun ref x property first there' own => ?_)
      (fun _ same => .inl (Option.some.inj same).symm) found
    · obtain rfl | rfl := first
      · cases there.symm.trans there'
        exact .inr (Option.some.inj (above.symm.trans proto))
      · simp [(sound.plain x there').1] at above
    · obtain rfl | rfl := first
      · cases there.symm.trans there'
        exact data key property own
      · cases property with
        | data value writable enumerable => exact ⟨value, writable, enumerable, rfl⟩
        | accessor get set enumerable => exact absurd ((sound.plain x there').2 key get set enumerable own) safe
  obtain ⟨value, writable, enumerable, rfl⟩ := isData
  refine ⟨value, writable, enumerable, rfl, fun named => ?_⟩
  obtain ⟨function, writable', enumerable', own⟩ := names key named
  cases found.symm.trans (Heap.lookup_own there own)
  exact ⟨function, rfl, member, named, o, writable, enumerable, there, builtIn, own⟩

end

end

end NodeAutomation.SDKInterpreter
