import NodeAutomation.WorkflowSdk.SandboxHeap

/-! Where the interpreter of SDK programs is a closed sandbox. Member reads hand out whatever an object holds
or inherits, and objects that are written down take every key; in a run in which neither happens, a program
calls nothing but the SDK and gets hold of nothing that belongs to the engine. -/

namespace NodeAutomation.SDKInterpreter

open JsHeap GuardedRuns

variable {ν : Type}

section

variable {setting : Setting ν} {way : Way} {function : Nat} {thisArg : Value ν} {args : List (Value ν)}

theorem applyFunction_cases (s : State ν) :
    (applyFunction setting function thisArg args s).2 =
        { s with heap := (setting.apply s.heap function thisArg args).2 } ∧
      ∀ value, (applyFunction setting function thisArg args s).1 = .ok value →
        (setting.apply s.heap function thisArg args).1 = .ok value := by
  unfold applyFunction
  split
  · case h_1 value heap went =>
    rw [went]
    exact ⟨rfl, fun _ same => by cases same; rfl⟩
  · case h_2 value heap went =>
    rw [went]
    exact ⟨rfl, fun _ never => by cases never⟩

theorem callFunction_eq (s : State ν) : callFunction setting way function thisArg args s =
    applyFunction setting function thisArg args (s.record (.calls s.heap way function thisArg)) := rfl

end

section

variable {setting : Setting ν} {property : Expression ν} {computed : Bool} {message name : String}

theorem methodNameOf_safe (valid : validateMemberExpression property computed = .ok ())
    (named : methodNameOf property = .ok name) : name ∉ dangerousNames := by
  unfold methodNameOf at named
  split at named
  · cases named
    exact safe_of_validateMemberExpression valid (.inl rfl)
  · cases named
    exact safe_of_validateMemberExpression valid (.inr rfl)
  · cases named

theorem propertyNameOf_safe (valid : validateMemberExpression property computed = .ok ())
    (named : propertyNameOf setting computed message property = .ok name) : name ∉ dangerousNames := by
  unfold propertyNameOf at named
  split at named
  · split at named
    · cases named
    · cases named
      exact safe_of_validateMemberExpression valid (.inl rfl)
  · case h_2 value =>
    cases named
    by_cases string : ∃ name, value = .primitive (.string name)
    · obtain ⟨name, rfl⟩ := string
      exact safe_of_validateMemberExpression valid (.inr rfl)
    · exact Literal.text_safe _ fun name same => string ⟨name, same⟩
  · cases named

end

section

open Contract

variable [NatCast ν]

structure Kept (setting : Setting ν) (initial : Heap ν) (s : State ν) : Prop where
  later : Later initial s.heap
  sound : Sound setting s.heap
  vars : ∀ name value, s.vars.get name = some value → Tame setting s.heap value
  closed : ∀ event ∈ s.events, event.Closed setting

def contract (setting : Setting ν) (initial : Heap ν) : Contract (State ν) (Event ν) where
  log := State.events
  allowed := Event.Careful setting
  keeps := Kept setting initial
  later s s' := Later s.heap s'.heap
  refl s := later_refl s.heap
  trans first second := first.trans second

/-- The result of a computation is a value that the program may hold. -/
abbrev Gives (setting : Setting ν) (initial : Heap ν) (before : State ν → Prop) (run : Run ν (Value ν)) : Prop :=
  (contract setting initial).Holds before run fun value s => Tame setting s.heap value

/-- A computation without a result does no harm. -/
abbrev Runs (setting : Setting ν) (initial : Heap ν) (before : State ν → Prop) (run : Run ν Unit) : Prop :=
  (contract setting initial).Holds before run fun _ _ => True

variable {setting : Setting ν} {initial : Heap ν} {α β : Type} {before : State ν → Prop} {last : β → State ν → Prop}

theorem stable_tame (value : Value ν) : (contract setting initial).Stable fun s => Tame setting s.heap value :=
  fun _ _ later tame => tame.later later

theorem stable_tames (values : List (Value ν)) :
    (contract setting initial).Stable fun s => ∀ value ∈ values, Tame setting s.heap value :=
  Stable.forall_mem stable_tame values

theorem Kept.of_heap {s : State ν} (kept : Kept setting initial s) {heap : Heap ν} (later : Later s.heap heap)
    (sound : Sound setting heap) : Kept setting initial { s with heap := heap } where
  later := kept.later.trans later
  sound := sound
  vars name value stored := (kept.vars name value stored).later later
  closed := kept.closed

theorem Kept.record {s : State ν} (kept : Kept setting initial s) {event : Event ν} (closed : event.Closed setting) :
    Kept setting initial (s.record event) where
  later := kept.later
  sound := kept.sound
  vars := kept.vars
  closed e member := by
    cases List.mem_append.1 member with
    | inl old => exact kept.closed e old
    | inr new => exact List.mem_singleton.1 new ▸ closed

theorem holds_check {check : Except (InterpreterError ν) α} {next : α → Run ν β}
    (each : ∀ a, check = .ok a → (contract setting initial).Holds before (next a) last) :
    (contract setting initial).Holds before (ofExcept check >>= next) last := by
  cases check with
  | ok a => exact each a rfl
  | error e => exact holds_fail e

theorem holds_record {event : Heap ν → Event ν}
    (closed : ∀ s, Kept setting initial s → before s → (event s.heap).Careful setting → (event s.heap).Closed setting) :
    (contract setting initial).Holds before (record event) fun _ s => (event s.heap).Careful setting := by
  refine holds_change (fun s => List.subset_append_left _ _) fun s kept pre careful => ?_
  have here : (event s.heap).Careful setting := careful _ (List.mem_append_right _ List.mem_cons_self)
  exact ⟨kept.record (closed s kept pre here), later_refl _, here⟩

/-- The object was made by the program. -/
def Fresh (setting : Setting ν) (heap : Heap ν) (value : Value ν) : Prop :=
  Tame setting heap value ∧ ∃ ref, value = .object ref ∧ IsOf heap .program ref

theorem stable_fresh (value : Value ν) : (contract setting initial).Stable fun s => Fresh setting s.heap value := by
  intro s s' later fresh
  obtain ⟨tame, ref, same, program⟩ := fresh
  exact ⟨tame.later later, ref, same, program.later later⟩

theorem holds_allocate {o : Object ν} (program : o.origin = .program) (plain : o.callable = false)
    (protos : ∀ s, Kept setting initial s → before s → ∀ proto, o.proto = some proto → Inert s.heap False proto)
    (held : ∀ s, Kept setting initial s → before s → ∀ key property, o.own key = some property →
      ∃ value writable enumerable, property = .data value writable enumerable ∧ Tame setting s.heap value) :
    (contract setting initial).Holds before (allocate o) fun value s => Fresh setting s.heap value := by
  refine holds_change (fun _ => List.Subset.refl _) fun s kept pre _ => ?_
  obtain ⟨later, sound⟩ := kept.sound.allocate program plain (protos s kept pre) (held s kept pre)
  have there : (s.heap ++ [o])[s.heap.length]? = some o := List.getElem?_concat_length
  refine ⟨kept.of_heap later sound, later, ⟨o, there, .inl program, fun function => ?_⟩, _, rfl,
    isOf_iff.2 ⟨o, there, program⟩⟩
  cases plain.symm.trans function

variable {way : Way} {function : Nat} {target thisArg value : Value ν} {args : List (Value ν)} {key name : String}
  {after : Value ν → State ν → Prop}

theorem holds_callFunction (harmless : Harmless setting initial)
    (tame : ∀ s, Kept setting initial s → before s → Tame setting s.heap thisArg)
    (tames : ∀ s, before s → ∀ arg ∈ args, Tame setting s.heap arg)
    (may : ∀ s, Kept setting initial s → before s → (Event.calls s.heap way function thisArg).Careful setting →
      MayCall setting s.heap function ∧ (Event.calls s.heap way function thisArg).Closed setting) :
    Gives setting initial before (callFunction setting way function thisArg args) where
  logs s := by
    rw [callFunction_eq, (applyFunction_cases _).1]
    exact List.subset_append_left _ _
  keeps s kept pre careful := by
    obtain ⟨after, result⟩ := @applyFunction_cases ν setting function thisArg args
      (s.record (.calls s.heap way function thisArg))
    rw [callFunction_eq] at careful ⊢
    rw [after] at careful ⊢
    obtain ⟨called, closed⟩ := may s kept pre (careful _ (List.mem_append_right _ List.mem_cons_self))
    obtain ⟨sound, later, given⟩ :=
      harmless s.heap function thisArg args kept.later kept.sound called (tame s kept pre) (tames s pre)
    exact ⟨(kept.record closed).of_heap later sound, later, fun value same => given value (result value same)⟩

theorem holds_getProperty (harmless : Harmless setting initial)
    (undefined : ∀ s, before s → after .undefined s)
    (data : ∀ s value writable enumerable, Kept setting initial s → before s →
      findProperty setting s.heap target key = some (.data value writable enumerable) → after value s)
    (accessor : ∀ s get set enumerable, Kept setting initial s → before s →
      findProperty setting s.heap target key = some (.accessor (some get) set enumerable) →
        IsOf s.heap .host get ∧ Tame setting s.heap target)
    (given : (∃ s get set enumerable, Kept setting initial s ∧ before s ∧
      findProperty setting s.heap target key = some (.accessor (some get) set enumerable)) →
        ∀ s value, Kept setting initial s → Tame setting s.heap value → after value s) :
    (contract setting initial).Holds before (getProperty setting target key) after := by
  refine holds_read_bind fun found => ?_
  match found with
  | none => exact holds_pure fun s _ here => undefined s here.1
  | some (.data value writable enumerable) =>
    exact holds_pure fun s kept here => data s value writable enumerable kept here.1 here.2
  | some (.accessor none set enumerable) => exact holds_pure fun s _ here => undefined s here.1
  | some (.accessor (some get) set enumerable) =>
    have known (s : State ν) (kept : Kept setting initial s) (here : before s ∧
        findProperty setting s.heap target key = some (.accessor (some get) set enumerable)) :=
      accessor s get set enumerable kept here.1 here.2
    have called : Gives setting initial (fun s => before s ∧
        findProperty setting s.heap target key = some (.accessor (some get) set enumerable))
        (callFunction setting (.accessor key) get target []) :=
      holds_callFunction harmless (fun s kept here => (known s kept here).2)
        (fun _ _ _ never => absurd never List.not_mem_nil)
        fun s kept here _ => ⟨.inr (.inl (known s kept here).1), (known s kept here).1⟩
    by_cases reached : ∃ s get set enumerable, Kept setting initial s ∧ before s ∧
      findProperty setting s.heap target key = some (.accessor (some get) set enumerable)
    · exact called.weaken (fun _ _ => id) fun value s kept => given reached s value kept
    · exact called.of_never fun s kept here => reached ⟨s, get, set, enumerable, kept, here⟩

theorem holds_putProperty (tame : ∀ s, before s → Tame setting s.heap target)
    (written : ∀ s, before s → Tame setting s.heap value) :
    Runs setting initial before (putProperty setting target key value) := by
  unfold putProperty
  cases target with
  | primitive => exact holds_fail _
  | object ref =>
    refine holds_read_bind fun found => ?_
    cases found with
    | none => exact holds_fail _
    | some o =>
      dsimp only
      split
      · split
        · exact holds_fail _
        · case h_2 o' put =>
          refine holds_change (fun _ => List.Subset.refl _) fun s kept here _ => ?_
          obtain ⟨later, sound⟩ := kept.sound.put (tame s here.1) here.2 put (written s here.1)
          exact ⟨kept.of_heap later sound, later, trivial⟩
      · exact holds_fail _

theorem holds_setProperty (harmless : Harmless setting initial) (tame : ∀ s, before s → Tame setting s.heap target)
    (written : ∀ s, before s → Tame setting s.heap value)
    (accessor : ∀ s get set enumerable, Kept setting initial s → before s →
      findProperty setting s.heap target key = some (.accessor get (some set) enumerable) → IsOf s.heap .host set) :
    Runs setting initial before (setProperty setting target key value) := by
  refine holds_read_bind fun found => ?_
  have putting : Runs setting initial (fun s => before s ∧ findProperty setting s.heap target key = found)
      (putProperty setting target key value) :=
    holds_putProperty (fun s here => tame s here.1) fun s here => written s here.1
  match found with
  | none => exact putting
  | some (.data _ true _) => exact putting
  | some (.data _ false _) => exact holds_fail _
  | some (.accessor _ none _) => exact holds_fail _
  | some (.accessor get (some set) enumerable) =>
    refine ((holds_callFunction harmless (fun s _ here => tame s here.1)
      (fun s here arg member => List.mem_singleton.1 member ▸ written s here.1) fun s kept here _ => ?_).weaken
      (fun _ _ => id) fun _ _ _ _ => trivial).map
    have host := accessor s get set enumerable kept here.1 here.2
    exact ⟨.inr (.inl host), host⟩

theorem Tame.beyond {heap : Heap ν} {ref : Nat} (tame : Tame setting heap (.object ref)) : Beyond heap True ref :=
  tame.isOf.imp_right fun host => .inl ⟨trivial, host⟩

theorem holds_convertBy (harmless : Harmless setting initial) (stable : (contract setting initial).Stable before)
    {ref : Nat} (tame : ∀ s, before s → Tame setting s.heap (.object ref)) {names : List String}
    (conversions : ∀ name ∈ names, name ∈ ["toString", "valueOf"]) :
    (contract setting initial).Holds before (convertBy setting (.object ref) names) fun _ _ => True := by
  induction names with
  | nil => exact holds_fail _
  | cons name names ih =>
    obtain ⟨conversion, rest⟩ := List.forall_mem_cons.1 conversions
    have further {more : State ν → Prop} :
        (contract setting initial).Holds (fun s => before s ∧ more s) (convertBy setting (.object ref) names)
          fun _ _ => True :=
      (ih rest).of_imp fun _ => And.left
    have found (s : State ν) (property : Property ν) (kept : Kept setting initial s) (pre : before s)
        (here : findProperty setting s.heap (.object ref) name = some property) :=
      kept.sound.found_conversion conversion (tame s pre).beyond here
    have method : (contract setting initial).Holds before (getProperty setting (.object ref) name) fun method s =>
        ∀ function, functionOf s.heap method = some function →
          Provided setting function ∨ IsOf s.heap .host function ∨ Converts s.heap name function :=
      holds_getProperty harmless (fun _ _ _ never => by cases never)
        (fun s value writable enumerable kept pre here function called => found s _ kept pre here function called)
        (fun s get set enumerable kept pre here => ⟨found s _ kept pre here get rfl, tame s pre⟩)
        fun _ s value _ tame function called => .inl (tame.provided called)
    rw [convertBy]
    refine method.bind stable fun method => holds_read_bind fun function => ?_
    cases function with
    | none => exact further.of_imp fun _ => And.left
    | some function =>
      refine Holds.bind_of (holds_callFunction harmless (fun s _ here => tame s here.1.1)
        (fun _ _ _ never => absurd never List.not_mem_nil) fun s _ here _ => ?_) stable (fun _ _ here => here.1.1)
        fun result => ?_
      · have called := here.1.2 function here.2
        exact ⟨called.imp_right (Or.imp_right fun converts => .inl ⟨name, converts⟩), called⟩
      · cases result with
        | primitive => exact holds_pure fun _ _ _ => trivial
        | object => exact further

theorem holds_toPrimitive (harmless : Harmless setting initial) (stable : (contract setting initial).Stable before)
    (hint : Hint) (tame : ∀ s, before s → Tame setting s.heap value) :
    (contract setting initial).Holds before (toPrimitive setting hint value) fun _ _ => True := by
  cases value with
  | primitive => exact holds_pure fun _ _ _ => trivial
  | object ref =>
    refine holds_convertBy harmless stable tame ?_
    split <;> decide

theorem holds_toText (harmless : Harmless setting initial) (stable : (contract setting initial).Stable before)
    (tame : ∀ s, before s → Tame setting s.heap value) :
    (contract setting initial).Holds before (toText setting value) fun _ _ => True :=
  (holds_toPrimitive harmless stable .string tame).map

theorem gives_primitive {value : Primitive ν} : Gives setting initial before (pure (.primitive value)) :=
  holds_pure fun _ _ _ => trivial

theorem gives_primitiveOr (result : Option (Primitive ν)) : Gives setting initial before (primitiveOr result) := by
  cases result with
  | none => exact holds_fail _
  | some => exact gives_primitive

theorem gives_operator (harmless : Harmless setting initial) (stable : (contract setting initial).Stable before)
    (operator : String) {left right : Value ν}
    (tames : ∀ s, before s → Tame setting s.heap left ∧ Tame setting s.heap right) :
    Gives setting initial before (do
      let l ← toPrimitive setting .number left
      let r ← toPrimitive setting .number right
      primitiveOr (setting.primitives.binary operator l r)) := by
  refine (holds_toPrimitive harmless stable .number fun s here => (tames s here).1).bind stable fun l => ?_
  have more : (contract setting initial).Stable fun s => before s ∧ True := stable.and stable_true
  refine (holds_toPrimitive harmless more .number fun s here => (tames s here.1).2).bind more fun r => ?_
  exact gives_primitiveOr _

theorem gives_visitUnaryExpression (harmless : Harmless setting initial)
    (stable : (contract setting initial).Stable before) (operator : String)
    (tame : ∀ s, before s → Tame setting s.heap value) :
    Gives setting initial before (visitUnaryExpression setting operator value) := by
  unfold visitUnaryExpression
  split
  · refine (holds_toPrimitive harmless stable .number tame).bind stable fun _ => gives_primitiveOr _
  · split
    · exact gives_primitive
    · split
      · exact holds_read_bind fun _ => gives_primitive
      · split
        · exact gives_primitive
        · exact holds_fail _

theorem gives_strictEquals (left right : Value ν) : Gives setting initial before (strictEquals setting left right) := by
  unfold strictEquals
  split
  · exact gives_primitiveOr _
  · exact gives_primitive
  · exact gives_primitive

theorem gives_looseEquals (harmless : Harmless setting initial) (stable : (contract setting initial).Stable before)
    {left right : Value ν} (tames : ∀ s, before s → Tame setting s.heap left ∧ Tame setting s.heap right) :
    Gives setting initial before (looseEquals setting left right) := by
  unfold looseEquals
  split
  · exact gives_primitive
  · split
    · exact gives_primitive
    · exact gives_operator harmless stable _ tames

theorem gives_visitBinaryExpression (harmless : Harmless setting initial)
    (stable : (contract setting initial).Stable before)
    (operator : String) {left right : Value ν}
    (tames : ∀ s, before s → Tame setting s.heap left ∧ Tame setting s.heap right) :
    Gives setting initial before (visitBinaryExpression setting operator left right) := by
  have more : (contract setting initial).Stable fun s => before s ∧ True := stable.and stable_true
  unfold visitBinaryExpression
  split
  · split
    · refine (holds_toText harmless stable fun s here => (tames s here).1).bind stable fun l => ?_
      exact ((holds_toText harmless more fun s here => (tames s here.1).2).bind more fun r => gives_primitive)
    · exact gives_operator harmless stable _ tames
  split
  · exact gives_operator harmless stable _ tames
  split
  · exact gives_looseEquals harmless stable tames
  split
  · exact ((gives_looseEquals harmless stable tames).weaken (fun _ _ => id) fun _ _ _ _ => trivial).map
  split
  · exact gives_strictEquals _ _
  split
  · exact ((gives_strictEquals _ _).weaken (fun _ _ => id) fun _ _ _ _ => trivial).map
  · exact holds_fail _

theorem gives_found (harmless : Harmless setting initial) (tame : ∀ s, before s → Tame setting s.heap target) :
    Gives setting initial (fun s => before s ∧ Found setting s.heap target key) (getProperty setting target key) := by
  refine holds_getProperty harmless (fun _ _ => trivial)
    (fun s value writable enumerable _ here there => ?_) (fun s get set enumerable _ here there => ?_) fun _ _ _ _ => id
  · exact (there ▸ here.2 : Readable setting s.heap (some (.data value writable enumerable)))
  · exact ⟨(there ▸ here.2 : Readable setting s.heap (some (.accessor (some get) set enumerable))), tame s here.1⟩

theorem gives_readMember (harmless : Harmless setting initial) (stable : (contract setting initial).Stable before)
    (safe : key ∉ dangerousNames) (tame : ∀ s, before s → Tame setting s.heap target) :
    Gives setting initial before (readMember setting target key) := by
  have read : (contract setting initial).Holds before (record (.reads · target key))
      fun _ s => Found setting s.heap target key :=
    holds_record fun _ _ _ _ => safe
  exact read.bind stable fun _ => gives_found harmless tame

theorem runs_writeMember (harmless : Harmless setting initial) (stable : (contract setting initial).Stable before)
    (safe : key ∉ dangerousNames) (tame : ∀ s, before s → Tame setting s.heap target)
    (written : ∀ s, before s → Tame setting s.heap value) :
    Runs setting initial before (writeMember setting target key value) := by
  have writes : (contract setting initial).Holds before (record (.writes · target key)) fun _ s =>
      (Event.writes s.heap target key).Careful setting := holds_record fun _ _ _ _ => safe
  refine writes.bind stable fun _ => ?_
  exact holds_setProperty harmless (fun s here => tame s here.1) (fun s here => written s here.1)
    fun s get set enumerable _ here there =>
      (there ▸ here.2 : Writable s.heap (some (.accessor get (some set) enumerable)))

theorem runs_defineMember (harmless : Harmless setting initial) (stable : (contract setting initial).Stable before)
    (fresh : ∀ s, before s → Fresh setting s.heap target) (written : ∀ s, before s → Tame setting s.heap value) :
    Runs setting initial before (defineMember setting target key value) := by
  have defines : (contract setting initial).Holds before (record fun _ => .defines key)
      fun _ _ => key ∉ dangerousNames :=
    holds_record fun _ _ _ => id
  refine defines.bind stable fun _ => ?_
  refine holds_setProperty harmless (fun s here => (fresh s here.1).1) (fun s here => written s here.1)
    fun s get set enumerable kept here there => ?_
  obtain ⟨_, ref, rfl, program⟩ := fresh s here.1
  exact absurd (kept.sound.found_setter program there) here.2

theorem runs_copyMembers (harmless : Harmless setting initial) (stable : (contract setting initial).Stable before)
    {source : Value ν} (fresh : ∀ s, before s → Fresh setting s.heap target)
    (tame : ∀ s, before s → Tame setting s.heap source) (keys : List String) :
    Runs setting initial before (copyMembers setting target source keys) := by
  induction keys with
  | nil => exact holds_pure fun _ _ _ => trivial
  | cons key keys ih =>
    rw [copyMembers]
    have copies : (contract setting initial).Holds before (record (.copies · source key)) fun _ s =>
        key ∉ dangerousNames ∧ Found setting s.heap source key := holds_record fun _ _ _ careful => careful.1
    have copied : Gives setting initial (fun s => before s ∧ key ∉ dangerousNames ∧ Found setting s.heap source key)
        (getProperty setting source key) :=
      (gives_found harmless tame).of_imp fun _ => And.imp_right And.right
    refine copies.bind stable fun _ => ?_
    refine copied.bind_of stable (fun _ _ => And.left) fun value => ?_
    have more := stable.and (@stable_tame ν _ setting initial value)
    exact (runs_defineMember harmless more (fun s here => fresh s here.1) fun s here => here.2).bind_of stable
      (fun _ _ => And.left) fun _ => ih.of_imp fun _ => And.left

theorem runs_spreadInto (harmless : Harmless setting initial) (stable : (contract setting initial).Stable before)
    {source : Value ν} (fresh : ∀ s, before s → Fresh setting s.heap target)
    (tame : ∀ s, before s → Tame setting s.heap source) :
    Runs setting initial before (spreadInto setting target source) := by
  unfold spreadInto
  cases source with
  | primitive => exact holds_pure fun _ _ _ => trivial
  | object ref =>
    refine holds_read_bind fun found => ?_
    cases found with
    | none => exact holds_pure fun _ _ _ => trivial
    | some o =>
      dsimp only
      split
      · exact holds_pure fun _ _ _ => trivial
      · exact (runs_copyMembers harmless stable fresh tame _).of_imp fun _ => And.left

/-- The values of a list are such that the program may hold them. -/
abbrev GivesAll (setting : Setting ν) (initial : Heap ν) (before : State ν → Prop)
    (run : Run ν (List (Value ν))) : Prop :=
  (contract setting initial).Holds before run fun values s => ∀ value ∈ values, Tame setting s.heap value

theorem gives_readElements (harmless : Harmless setting initial) (stable : (contract setting initial).Stable before)
    (tame : ∀ s, before s → Tame setting s.heap target) (index left : Nat) :
    GivesAll setting initial before (readElements setting target index left) := by
  induction left generalizing index before with
  | zero => exact holds_pure fun _ _ _ _ never => absurd never List.not_mem_nil
  | succ left ih =>
    rw [readElements]
    refine (gives_readMember harmless stable (toString_safe index) tame).bind stable fun item => ?_
    have more := stable.and (@stable_tame ν _ setting initial item)
    refine (ih more (fun s here => tame s here.1) (index + 1)).bind more fun items => ?_
    exact holds_pure fun s _ here => List.forall_mem_cons.2 ⟨here.1.2, here.2⟩

theorem gives_spreadItems (harmless : Harmless setting initial) (stable : (contract setting initial).Stable before)
    (tame : ∀ s, before s → Tame setting s.heap value) :
    GivesAll setting initial before (spreadItems setting value) := by
  unfold spreadItems
  cases value with
  | primitive => exact holds_pure fun _ _ _ _ never => absurd never List.not_mem_nil
  | object ref =>
    refine holds_read_bind fun found => ?_
    cases found with
    | none => exact holds_pure fun _ _ _ _ never => absurd never List.not_mem_nil
    | some length => exact (gives_readElements harmless stable tame 0 length).of_imp fun _ => And.left

theorem gives_emptyObject :
    (contract setting initial).Holds before (allocate (emptyObject setting))
      fun value s => Fresh setting s.heap value := by
  refine holds_allocate rfl rfl (fun s kept _ proto same => ?_) fun _ _ _ _ _ never => by cases never
  cases same
  exact kept.sound.objectPrototype

theorem gives_arrayOf {items : List (Value ν)} (tames : ∀ s, before s → ∀ item ∈ items, Tame setting s.heap item) :
    Gives setting initial before (allocate (arrayOf setting items)) := by
  refine (holds_allocate rfl rfl (fun s kept _ proto same => ?_) fun s kept pre key property own => ?_).weaken
    (fun _ _ => id) fun _ _ _ => And.left
  · cases same
    exact kept.sound.arrayPrototype
  · rw [Object.own, arrayOf] at own
    dsimp only at own
    split at own
    · cases own
      exact ⟨_, _, _, rfl, trivial⟩
    · obtain ⟨entry, member, same⟩ := List.mem_map.1 (OrderedMap.mem_of_get_ofList own)
      cases same
      exact ⟨_, _, _, rfl, tames s pre entry.1 (List.fst_mem_of_mem_zipIdx member)⟩

theorem gives_regExpObject : Gives setting initial before (allocate (regExpObject setting)) := by
  refine (holds_allocate rfl rfl (fun s kept _ proto same => ?_) fun s kept pre key property own => ?_).weaken
    (fun _ _ => id) fun _ _ _ => And.left
  · cases same
    exact kept.sound.regExpPrototype
  · have member := OrderedMap.mem_of_get_ofList own
    cases List.mem_singleton.1 member
    exact ⟨_, _, _, rfl, trivial⟩

omit [NatCast ν] in
theorem provided_of_get (found : setting.sdkFunctions.get name = some function) : Provided setting function :=
  (OrderedMap.mem_values_iff _ _).2 ⟨name, found⟩

theorem Provided.tame {heap : Heap ν} (given : Provided setting function) (sound : Sound setting heap) :
    Tame setting heap (.object function) := by
  obtain ⟨o, there, host⟩ := isOf_iff.1 (sound.provided function given)
  exact ⟨o, there, .inr host, fun _ => given⟩

theorem holds_calledFunction {after : Nat → State ν → Prop}
    (called : ∀ s function, Kept setting initial s → before s → functionOf s.heap value = some function →
      after function s) :
    (contract setting initial).Holds before (calledFunction value) after := by
  refine holds_read_bind fun heap => ?_
  split
  · case h_1 function found =>
    exact holds_pure fun s kept here => called s function kept here.1 (here.2 ▸ found)
  · exact holds_fail _

theorem gives_namedCallee (name : String) : Gives setting initial before (namedCallee setting name) := by
  unfold namedCallee
  split
  · case h_1 function found => exact holds_pure fun s kept _ => (provided_of_get found).tame kept.sound
  · refine holds_read_bind fun resolved => holds_read_bind fun found => ?_
    cases found with
    | none => exact holds_fail _
    | some value => exact holds_pure fun s kept here => kept.vars _ value here.2

theorem gives_visitIdentifier (name : String) : Gives setting initial before (visitIdentifier setting name) := by
  refine holds_read_bind fun resolved => holds_read_bind fun found => ?_
  cases found with
  | some value => exact holds_pure fun s kept here => kept.vars _ value here.2
  | none =>
    refine holds_check fun _ _ => ?_
    split
    · case h_1 function found => exact holds_pure fun s kept _ => (provided_of_get found).tame kept.sound
    · split
      · exact gives_primitive
      · exact holds_fail _

def InTable (setting : Setting ν) (heap : Heap ν) (table : Nat) (name : String) (method : Value ν) : Prop :=
  name ∈ safeNames setting table → ∃ function, method = .object function ∧ Listed setting heap table name function

theorem stable_inTable (table : Nat) (name : String) (method : Value ν) :
    (contract setting initial).Stable fun s => InTable setting s.heap table name method := by
  intro s s' later inTable named
  obtain ⟨function, same, member, named, o, writable, enumerable, there, builtIn, own⟩ := inTable named
  exact ⟨function, same, member, named, o, writable, enumerable, later.kept there builtIn, builtIn, own⟩

abbrev GivesEntry (setting : Setting ν) (initial : Heap ν) (before : State ν → Prop) (table : Nat) (name : String)
    (run : Run ν (Option (Value ν))) : Prop :=
  (contract setting initial).Holds before run
    fun entry s => ∀ method, entry = some method → InTable setting s.heap table name method

theorem gives_safeMethod (harmless : Harmless setting initial) {table : Nat}
    (stable : (contract setting initial).Stable before)
    (member : table ∈ [setting.realm.safeJsonMethods, setting.realm.safeStringMethods]) (safe : name ∉ dangerousNames) :
    GivesEntry setting initial before table name (safeMethod setting table name) := by
  have entry {s : State ν} {property : Property ν} (kept : Kept setting initial s)
      (found : findProperty setting s.heap (.object table) name = some property) :=
    kept.sound.found_entry member safe found
  have fetches : (contract setting initial).Holds before (record fun _ => .fetches name) fun _ _ =>
      (Event.fetches name : Event ν).Careful setting := holds_record fun _ _ _ _ => safe
  have fetched : (contract setting initial).Holds before (getProperty setting (.object table) name) fun method s =>
      isTrue setting method = true → InTable setting s.heap table name method := by
    refine holds_getProperty harmless (fun _ _ never => by cases never) (fun s value _ _ kept _ found _ named => ?_)
      (fun s get set enumerable kept _ found => ?_) fun reached => ?_
    · obtain ⟨_, _, _, same, listed⟩ := entry kept found
      cases same
      exact listed named
    · obtain ⟨_, _, _, never, _⟩ := entry kept found
      cases never
    · obtain ⟨s, _, _, _, kept, _, found⟩ := reached
      obtain ⟨_, _, _, never, _⟩ := entry kept found
      cases never
  refine fetches.bind stable fun _ => Holds.map ?_
  refine fetched.weaken (fun _ _ here => here.1) fun method s _ listed value same => ?_
  obtain ⟨isTrue, same⟩ := Option.ite_none_right_eq_some.1 same
  cases same
  exact listed isTrue

theorem gives_getSafeJSONMethod (harmless : Harmless setting initial)
    (stable : (contract setting initial).Stable before)
    (safe : name ∉ dangerousNames) (object : Expression ν) :
    GivesEntry setting initial before setting.realm.safeJsonMethods name (getSafeJSONMethod setting object name) := by
  unfold getSafeJSONMethod
  split
  · exact gives_safeMethod harmless stable List.mem_cons_self safe
  · exact holds_pure fun _ _ _ _ never => by cases never

theorem gives_getSafeStringMethod (harmless : Harmless setting initial)
    (stable : (contract setting initial).Stable before)
    (safe : name ∉ dangerousNames) (value : Value ν) :
    GivesEntry setting initial before setting.realm.safeStringMethods name
      (getSafeStringMethod setting value name) := by
  unfold getSafeStringMethod
  split
  · exact gives_safeMethod harmless stable (List.mem_cons_of_mem _ List.mem_cons_self) safe
  · exact holds_pure fun _ _ _ _ never => by cases never

theorem gives_callSafeMethod (harmless : Harmless setting initial) {table : Nat} {method : Value ν}
    (entry : ∀ s, before s → InTable setting s.heap table name method)
    (tames : ∀ s, before s → ∀ arg ∈ args, Tame setting s.heap arg) :
    Gives setting initial before (callSafeMethod setting table name method args) := by
  refine holds_read_bind fun heap => ?_
  split
  · case h_1 function found =>
    refine holds_callFunction harmless (fun _ _ _ => trivial) (fun s here => tames s here.1) fun s _ here named => ?_
    obtain ⟨listed, same, inTable⟩ := entry s here.1 named
    cases same.symm.trans (functionOf_iff.1 found).1
    exact ⟨.inr (.inr (.inr ⟨table, name, inTable⟩)), inTable⟩
  · exact holds_fail _

/-- A method of an object is a provided function, or one of the SDK on an object of the SDK. -/
def MethodOf (setting : Setting ν) (heap : Heap ν) (thisArg : Value ν) (function : Nat) : Prop :=
  Provided setting function ∨ IsOf heap .host function ∧ ∃ ref, thisArg = .object ref ∧ IsOf heap .host ref

theorem stable_methodOf (thisArg : Value ν) (function : Nat) :
    (contract setting initial).Stable fun s => MethodOf setting s.heap thisArg function := by
  rintro s s' later (provided | ⟨host, ref, same, here⟩)
  · exact .inl provided
  · exact .inr ⟨host.later later, ref, same, here.later later⟩

theorem allowed_safe : ∀ name ∈ ALLOWED_METHODS, name ∉ dangerousNames := by decide

theorem holds_fetchMethod (harmless : Harmless setting initial) (stable : (contract setting initial).Stable before)
    (allowed : name ∈ ALLOWED_METHODS) (tame : ∀ s, before s → Tame setting s.heap thisArg) :
    (contract setting initial).Holds before (fetchMethod setting thisArg name) fun method s => ∀ function,
      functionOf s.heap method = some function → MethodOf setting s.heap thisArg function := by
  have fetches : (contract setting initial).Holds before (record fun _ => .fetches name) fun _ _ =>
      (Event.fetches name : Event ν).Careful setting := holds_record fun _ _ _ _ => allowed_safe name allowed
  refine holds_read_bind fun heap => ?_
  split
  · case isTrue isObject =>
    refine (fetches.of_imp fun s here => here.1).bind_of stable (fun _ _ => And.left) fun _ => ?_
    cases thisArg with
    | primitive p => cases p <;> simp [typeOf, isTrue] at isObject
    | object ref =>
      have found (s : State ν) (property : Property ν) (kept : Kept setting initial s) (pre : before s)
          (here : findProperty setting s.heap (.object ref) name = some property) :=
        kept.sound.found_method allowed ((tame s pre).isOf.imp_right fun host => .inl ⟨host, host⟩) here
      refine holds_getProperty harmless (fun _ _ _ never => by cases never)
        (fun s value writable enumerable kept here there function called => ?_)
        (fun s get set enumerable kept here there => ⟨found s _ kept here.1 there get rfl, tame s here.1⟩)
        fun _ s value _ tame function called => .inl (tame.provided called)
      exact (found s _ kept here.1 there function called).imp_right fun both => ⟨both.2, ref, rfl, both.1⟩
  · exact holds_pure fun _ _ _ _ never => by cases never

/-- The values are such that the program may hold them, whatever else is known. -/
abbrev Evaluates (setting : Setting ν) (initial : Heap ν) (run : Run ν (List (Value ν))) : Prop :=
  ∀ {before : State ν → Prop}, (contract setting initial).Stable before → GivesAll setting initial before run

theorem gives_namedCall (harmless : Harmless setting initial) (stable : (contract setting initial).Stable before)
    {run : Run ν (List (Value ν))} (evaluates : Evaluates setting initial run) (name : String) :
    Gives setting initial before (do
      let function ← calledFunction (← namedCallee setting name)
      callFunction setting (.named name) function .undefined (← run)) := by
  refine (gives_namedCallee name).bind_of stable (fun _ _ => id) fun func => ?_
  have called : (contract setting initial).Holds (fun s => before s ∧ Tame setting s.heap func) (calledFunction func)
      fun function _ => Provided setting function :=
    holds_calledFunction fun s function kept here found => here.2.provided found
  refine called.bind_of stable (fun _ _ => And.left) fun function => ?_
  have provided : (contract setting initial).Stable fun _ => Provided setting function := fun _ _ _ => id
  refine (evaluates (stable.and provided)).bind (stable.and provided) fun args => ?_
  exact holds_callFunction harmless (fun _ _ _ => trivial) (fun s here => here.2)
    fun s _ here _ => ⟨.inl here.1.2, here.1.2⟩

theorem gives_entryCall (harmless : Harmless setting initial) (stable : (contract setting initial).Stable before)
    {run : Run ν (List (Value ν))} (evaluates : Evaluates setting initial run) {table : Nat} {method : Value ν}
    (entry : ∀ s, before s → InTable setting s.heap table name method) {arguments : List (Value ν) → List (Value ν)}
    (tames : ∀ s values, before s → (∀ value ∈ values, Tame setting s.heap value) →
      ∀ arg ∈ arguments values, Tame setting s.heap arg) :
    Gives setting initial before (do callSafeMethod setting table name method (arguments (← run))) := by
  refine (evaluates stable).bind stable fun args => ?_
  exact gives_callSafeMethod harmless (fun s here => entry s here.1) fun s here => tames s args here.1 here.2

theorem gives_methodCall (harmless : Harmless setting initial) (stable : (contract setting initial).Stable before)
    {run : Run ν (List (Value ν))} (evaluates : Evaluates setting initial run) (allowed : name ∈ ALLOWED_METHODS)
    (tame : ∀ s, before s → Tame setting s.heap thisArg) :
    Gives setting initial before (do
      let function ← calledFunction (← fetchMethod setting thisArg name)
      callFunction setting (.method name) function thisArg (← run)) := by
  refine (holds_fetchMethod harmless stable allowed tame).bind_of stable (fun _ _ => id) fun func => ?_
  have called : (contract setting initial).Holds
      (fun s => before s ∧ ∀ function, functionOf s.heap func = some function →
        MethodOf setting s.heap thisArg function)
      (calledFunction func) fun function s => MethodOf setting s.heap thisArg function :=
    holds_calledFunction fun s function kept here found => here.2 function found
  refine called.bind_of stable (fun _ _ => And.left) fun function => ?_
  have more := stable.and (@stable_methodOf ν _ setting initial thisArg function)
  refine (evaluates more).bind more fun args => ?_
  refine holds_callFunction harmless (fun s _ here => tame s here.1.1) (fun s here => here.2) fun s _ here _ => ?_
  obtain provided | method := here.1.2
  · exact ⟨.inl provided, .inl provided⟩
  · exact ⟨.inr (.inl method.1), .inr ⟨allowed, method⟩⟩

theorem gives_cons (stable : (contract setting initial).Stable before) {first : Run ν (Value ν)}
    {others : Run ν (List (Value ν))} (gives : Gives setting initial before first)
    (evaluates : Evaluates setting initial others) :
    GivesAll setting initial before (do
      let value ← first
      let values ← others
      return value :: values) := by
  refine gives.bind stable fun value => ?_
  have more := stable.and (@stable_tame ν _ setting initial value)
  refine (evaluates more).bind more fun values => ?_
  exact holds_pure fun s _ here => List.forall_mem_cons.2 ⟨here.1.2, here.2⟩

theorem gives_visit (depth : Nat) (node : Expression ν) {run : Run ν (Value ν)}
    (gives : Gives setting initial before run) :
    Gives setting initial before (visit depth node run) := by
  unfold visit
  split
  · exact holds_fail _
  · refine holds_check fun _ _ => ?_
    refine gives.bind_of stable_true (fun _ _ _ => trivial) fun value => ?_
    have recorded : (contract setting initial).Holds (fun s => Tame setting s.heap value) (record (.gives · value))
        fun _ s => (Event.gives s.heap value).Careful setting := by
      refine holds_record fun s _ tame _ ref same => ?_
      exact (same ▸ tame : Tame setting s.heap (.object ref)).not_builtIn
    exact (recorded.bind (stable_tame value) fun _ => holds_pure fun s _ here => here.1).of_imp fun _ => And.right

mutual

theorem gives_evaluate (harmless : Harmless setting initial) {before : State ν → Prop}
    (stable : (contract setting initial).Stable before) (depth : Nat) (node : Expression ν) :
    Gives setting initial before (evaluate setting depth node) := by
  match node with
  | .call callee args =>
    cases callee with
    | identifier name =>
      rw [evaluate]
      refine gives_visit depth _ (holds_check fun _ _ => ?_)
      exact gives_namedCall harmless stable (fun stable => gives_evaluateAll harmless stable (depth + 1) args) name
    | member object property computed =>
      rw [evaluate]
      refine gives_visit depth _ (holds_check fun _ _ => holds_check fun _ valid => ?_)
      split
      · exact holds_fail _
      refine holds_check fun name named => ?_
      have safe := methodNameOf_safe valid named
      refine (gives_getSafeJSONMethod harmless stable safe object).bind stable fun entry => ?_
      cases entry with
      | some method =>
        have inTable := @stable_inTable ν _ setting initial setting.realm.safeJsonMethods name method
        have called := gives_entryCall harmless (stable.and inTable)
          (fun stable => gives_evaluateAll harmless stable (depth + 1) args) (fun s here => here.2) fun _ _ _ => id
        exact called.of_imp fun s here => ⟨here.1, here.2 _ rfl⟩
      | none =>
        refine Holds.of_imp ?_ fun _ => And.left
        refine (gives_evaluate harmless stable (depth + 1) object).bind stable fun thisArg => ?_
        have more := stable.and (@stable_tame ν _ setting initial thisArg)
        refine (gives_getSafeStringMethod harmless more safe thisArg).bind more fun entry => ?_
        cases entry with
        | some method =>
          have inTable := @stable_inTable ν _ setting initial setting.realm.safeStringMethods name method
          have called := gives_entryCall harmless (more.and inTable)
            (fun stable => gives_evaluateAll harmless stable (depth + 1) args) (fun s here => here.2)
            fun s values here tames => List.forall_mem_cons.2 ⟨here.1.2, tames⟩
          exact called.of_imp fun s here => ⟨here.1, here.2 _ rfl⟩
        | none =>
          dsimp only
          split
          · case isTrue allowed =>
            have called := gives_methodCall harmless more
              (fun stable => gives_evaluateAll harmless stable (depth + 1) args) allowed fun s here => here.2
            exact called.of_imp fun _ => And.left
          · exact holds_fail _
    | _ => exact gives_visit depth _ (holds_fail _)
  | .literal (.primitive value) =>
    rw [evaluate]
    exact gives_visit depth _ gives_primitive
  | .literal (.regExp _ _) =>
    rw [evaluate]
    exact gives_visit depth _ gives_regExpObject
  | .member object property computed =>
    rw [evaluate]
    refine gives_visit depth _ (holds_check fun _ valid => ?_)
    split
    · exact holds_fail _
    refine (gives_evaluate harmless stable (depth + 1) object).bind stable fun obj => ?_
    split
    · exact holds_fail _
    refine holds_check fun name named => ?_
    exact gives_readMember harmless (stable.and (stable_tame obj)) (propertyNameOf_safe valid named)
      fun s here => here.2
  | .object properties =>
    rw [evaluate]
    refine gives_visit depth _ (gives_emptyObject.bind stable fun result => ?_)
    have more := stable.and (@stable_fresh ν _ setting initial result)
    refine (runs_evaluateProperties harmless more (depth + 1) (fun s here => here.2) properties).bind more fun _ => ?_
    exact holds_pure fun s _ here => here.1.2.1
  | .array elements =>
    rw [evaluate]
    refine gives_visit depth _
      ((gives_evaluateElements harmless stable (depth + 1) elements).bind stable fun items => ?_)
    exact gives_arrayOf fun s here => here.2
  | .identifier name =>
    rw [evaluate]
    exact gives_visit depth _ (gives_visitIdentifier name)
  | .template quasis expressions =>
    rw [evaluate]
    exact gives_visit depth _ (holds_evaluateTemplate harmless stable (depth + 1) quasis expressions).map
  | .spread argument =>
    rw [evaluate]
    exact gives_visit depth _ (gives_evaluate harmless stable (depth + 1) argument)
  | .unary operator argument =>
    rw [evaluate]
    refine gives_visit depth _ ((gives_evaluate harmless stable (depth + 1) argument).bind stable fun arg => ?_)
    exact gives_visitUnaryExpression harmless (stable.and (stable_tame arg)) operator fun s here => here.2
  | .binary operator left right =>
    rw [evaluate]
    refine gives_visit depth _ ((gives_evaluate harmless stable (depth + 1) left).bind stable fun l => ?_)
    have more := stable.and (@stable_tame ν _ setting initial l)
    refine (gives_evaluate harmless more (depth + 1) right).bind more fun r => ?_
    exact gives_visitBinaryExpression harmless (more.and (stable_tame r)) operator fun s here => ⟨here.1.2, here.2⟩
  | .logical operator left right =>
    rw [evaluate]
    refine gives_visit depth _ ((gives_evaluate harmless stable (depth + 1) left).bind stable fun l => ?_)
    have more := stable.and (@stable_tame ν _ setting initial l)
    refine holds_check fun takes _ => ?_
    split
    · exact gives_evaluate harmless more (depth + 1) right
    · exact holds_pure fun s _ here => here.2
  | .conditional test consequent alternate =>
    rw [evaluate]
    refine gives_visit depth _ ((gives_evaluate harmless stable (depth + 1) test).bind stable fun value => ?_)
    have more := stable.and (@stable_tame ν _ setting initial value)
    split
    · exact gives_evaluate harmless more (depth + 1) consequent
    · exact gives_evaluate harmless more (depth + 1) alternate
  | .assignment operator left right =>
    cases left with
    | member object property computed =>
      rw [evaluate]
      refine gives_visit depth _ ?_
      split
      · exact holds_fail _
      refine holds_check fun _ valid => ?_
      split
      · exact holds_fail _
      refine (gives_evaluate harmless stable (depth + 1) object).bind stable fun obj => ?_
      split
      · exact holds_fail _
      refine holds_check fun name named => ?_
      have more := stable.and (@stable_tame ν _ setting initial obj)
      refine (gives_evaluate harmless more (depth + 1) right).bind more fun value => ?_
      have both := more.and (@stable_tame ν _ setting initial value)
      refine (runs_writeMember harmless both (propertyNameOf_safe valid named) (fun s here => here.1.2)
        fun s here => here.2).bind both fun _ => ?_
      exact holds_pure fun s _ here => here.1.2
    | _ =>
      rw [evaluate]
      · refine gives_visit depth _ ?_
        split <;> exact holds_fail _
      · nofun
  | .property _ _ | .hole | .super | .other _ => exact gives_visit depth _ (holds_fail _)

theorem gives_evaluateAll (harmless : Harmless setting initial) {before : State ν → Prop}
    (stable : (contract setting initial).Stable before) (depth : Nat) (nodes : List (Expression ν)) :
    GivesAll setting initial before (evaluateAll setting depth nodes) := by
  match nodes with
  | [] => exact holds_pure fun _ _ _ _ never => absurd never List.not_mem_nil
  | node :: nodes =>
    rw [evaluateAll]
    exact gives_cons stable (gives_evaluate harmless stable depth node)
      fun stable => gives_evaluateAll harmless stable depth nodes

theorem runs_evaluateProperties (harmless : Harmless setting initial) {before : State ν → Prop}
    (stable : (contract setting initial).Stable before) (depth : Nat) {result : Value ν}
    (fresh : ∀ s, before s → Fresh setting s.heap result) (nodes : List (Expression ν)) :
    Runs setting initial before (evaluateProperties setting depth result nodes) := by
  match nodes with
  | [] => exact holds_pure fun _ _ _ => trivial
  | node :: nodes =>
    have rest := runs_evaluateProperties harmless stable depth fresh nodes
    cases node with
    | spread argument =>
      rw [evaluateProperties]
      refine (gives_evaluate harmless stable depth argument).bind stable fun source => ?_
      have more := stable.and (@stable_tame ν _ setting initial source)
      exact (runs_spreadInto harmless more (fun s here => fresh s here.1) fun s here => here.2).bind_of stable
        (fun _ _ here => here.1) fun _ => rest.of_imp fun _ => And.left
    | property key value =>
      rw [evaluateProperties]
      refine holds_check fun key _ => (gives_evaluate harmless stable depth value).bind stable fun value => ?_
      have more := stable.and (@stable_tame ν _ setting initial value)
      exact (runs_defineMember harmless more (fun s here => fresh s here.1) fun s here => here.2).bind_of stable
        (fun _ _ here => here.1) fun _ => rest.of_imp fun _ => And.left
    | _ => exact rest

theorem gives_evaluateElements (harmless : Harmless setting initial) {before : State ν → Prop}
    (stable : (contract setting initial).Stable before) (depth : Nat) (nodes : List (Expression ν)) :
    GivesAll setting initial before (evaluateElements setting depth nodes) := by
  match nodes with
  | [] => exact holds_pure fun _ _ _ _ never => absurd never List.not_mem_nil
  | node :: nodes =>
    have plain := gives_cons stable (gives_evaluate harmless stable depth node)
      fun stable => gives_evaluateElements harmless stable depth nodes
    cases node with
    | hole =>
      rw [evaluateElements]
      refine (gives_evaluateElements harmless stable depth nodes).bind stable fun values => ?_
      exact holds_pure fun s _ here => List.forall_mem_cons.2 ⟨trivial, here.2⟩
    | spread argument =>
      rw [evaluateElements]
      refine (gives_evaluate harmless stable depth argument).bind stable fun source => ?_
      have held := stable.and (@stable_tame ν _ setting initial source)
      refine (gives_spreadItems harmless held fun s here => here.2).bind_of stable (fun _ _ => And.left) fun items => ?_
      have more := stable.and (@stable_tames ν _ setting initial items)
      refine (gives_evaluateElements harmless more depth nodes).bind more fun values => ?_
      exact holds_pure fun s _ here => List.forall_mem_append.2 ⟨here.1.2, here.2⟩
    | _ => exact plain

theorem holds_evaluateTemplate (harmless : Harmless setting initial) {before : State ν → Prop}
    (stable : (contract setting initial).Stable before) (depth : Nat) (quasis : List String)
    (nodes : List (Expression ν)) :
    (contract setting initial).Holds before (evaluateTemplate setting depth quasis nodes) fun _ _ => True := by
  match quasis, nodes with
  | quasis, [] =>
    cases quasis <;> exact holds_pure fun _ _ _ => trivial
  | [], _ :: _ => exact holds_pure fun _ _ _ => trivial
  | quasi :: quasis, node :: nodes =>
    rw [evaluateTemplate]
    have evaluated := gives_evaluate harmless stable depth node
    have text : (contract setting initial).Holds before (textOf setting node (evaluate setting depth node))
        fun _ _ => True := by
      unfold textOf
      split
      · exact holds_pure fun _ _ _ => trivial
      · refine evaluated.bind stable fun value => ?_
        exact holds_toText harmless (stable.and (stable_tame value)) fun s here => here.2
    refine text.bind stable fun _ => ?_
    exact ((holds_evaluateTemplate harmless stable depth quasis nodes).of_imp fun _ => And.left).map

end

theorem gives_evaluateInit (harmless : Harmless setting initial) (stable : (contract setting initial).Stable before)
    (init : Option (Expression ν)) : Gives setting initial before (evaluateInit setting init) := by
  cases init with
  | none => exact gives_primitive
  | some node => exact gives_evaluate harmless stable 0 node

theorem runs_declare (renamed : State ν → OrderedMap String String) (name : String)
    (tame : ∀ s, before s → Tame setting s.heap value) :
    Runs setting initial before (.update fun s => { s with
      renamedVariables := renamed s
      vars := s.vars.set name value }) := by
  refine holds_change (fun _ => List.Subset.refl _) fun s kept pre _ => ?_
  refine ⟨⟨kept.later, kept.sound, fun other v stored => ?_, kept.closed⟩, later_refl _, trivial⟩
  rw [OrderedMap.get_set] at stored
  split at stored
  · exact Option.some.inj stored ▸ tame s pre
  · exact kept.vars other v stored

theorem runs_visitDeclarator (harmless : Harmless setting initial) (declarator : Declarator ν) :
    Runs setting initial (fun _ => True) (visitDeclarator setting declarator) := by
  unfold visitDeclarator
  cases declarator.id with
  | none => exact holds_fail _
  | some name =>
    dsimp only
    split
    · split
      · refine holds_read_bind fun safeName => Holds.of_imp ?_ fun _ _ => trivial
        refine (gives_evaluateInit harmless stable_true declarator.init).bind stable_true fun value => ?_
        exact runs_declare _ _ fun s here => here.2
      · exact holds_fail _
    · refine (gives_evaluateInit harmless stable_true declarator.init).bind stable_true fun value => ?_
      exact runs_declare _ _ fun s here => here.2

theorem runs_visitVariableDeclaration (harmless : Harmless setting initial) (kind : String)
    (declarations : List (Declarator ν)) :
    Runs setting initial (fun _ => True) (visitVariableDeclaration setting kind declarations) := by
  unfold visitVariableDeclaration
  split
  · exact holds_fail _
  · induction declarations with
    | nil => exact holds_pure fun _ _ _ => trivial
    | cons declarator declarations ih =>
      exact (runs_visitDeclarator harmless declarator).bind stable_true fun _ => ih.of_imp fun _ _ => trivial

theorem gives_interpretFrom (harmless : Harmless setting initial) (body : List (Statement ν)) (result : Value ν) :
    Gives setting initial (fun s => Tame setting s.heap result) (interpretFrom setting result body) := by
  induction body generalizing result with
  | nil => exact holds_pure fun s _ here => here
  | cons statement body ih =>
    cases statement with
    | declaration kind declarations =>
      rw [interpretFrom]
      refine holds_check fun _ _ => ?_
      refine ((runs_visitVariableDeclaration harmless kind declarations).of_imp fun _ _ => trivial).bind
        (stable_tame result) fun _ => ?_
      exact (ih result).of_imp fun _ => And.left
    | expression expression =>
      rw [interpretFrom]
      refine holds_check fun _ _ => ?_
      refine (gives_evaluate harmless (stable_tame result) 0 expression).bind (stable_tame result) fun value => ?_
      exact (ih value).of_imp fun _ => And.right
    | exportDefault declaration =>
      rw [interpretFrom]
      exact holds_check fun _ _ => gives_evaluate harmless (stable_tame result) 0 declaration
    | other type =>
      rw [interpretFrom]
      exact holds_check fun _ _ => holds_fail _

/-- A run that is careful at the places where nothing is checked stays in the sandbox. -/
theorem interpret_sandboxed {heap : Heap ν} (harmless : Harmless setting heap) (sound : Sound setting heap)
    (body : List (Statement ν))
    (careful : ∀ event ∈ (interpret setting body { heap }).2.events, event.Careful setting) :
    Sandboxed setting { heap } (interpret setting body { heap }).2 := by
  have kept : Kept setting heap { heap } := by
    refine ⟨later_refl heap, sound, fun name value stored => ?_, fun _ never => absurd never List.not_mem_nil⟩
    cases (OrderedMap.get_empty name).symm.trans stored
  obtain ⟨kept', later, _⟩ := (gives_interpretFrom harmless body .undefined).keeps { heap } kept trivial careful
  exact ⟨kept'.closed, fun ref o there builtIn => later.kept there builtIn⟩

end

namespace Escape

def builtIn (properties : List (String × Property Nat)) : Object Nat where
  origin := .builtIn
  proto := some 0
  properties := OrderedMap.ofList properties

def function (origin : Origin) : Object Nat where
  origin := origin
  proto := some 3
  callable := true

/-- The prototypes of objects, arrays, regular expressions, functions and primitives, the two tables, and
functions: `__lookupGetter__`, the getter and the setter of `__proto__`, those of the tables, and `placeholder`. -/
def engine : Heap Nat :=
  [{ builtIn [("__lookupGetter__", .data (.object 7) true false), ("__proto__", .accessor (some 8) (some 9))] with
      proto := none },
    builtIn [], builtIn [], builtIn [], builtIn [], builtIn [("stringify", .data (.object 10))],
    builtIn [("repeat", .data (.object 11)), ("trim", .data (.object 12))]] ++
  List.replicate 6 (function .builtIn) ++ [function .host]

def apply (heap : Heap Nat) (function : Nat) (thisArg : Value Nat) (args : List (Value Nat)) :
    Except (Value Nat) (Value Nat) × Heap Nat :=
  match function, thisArg, args with
  | 7, .object ref, .primitive (.string key) :: _ => match heap.lookup (some ref) key with
    | some (.accessor (some get) _ _) => (.ok (.object get), heap)
    | _ => (.ok .undefined, heap)
  | 8, .object ref, _ => (.ok (((heap[ref]?.bind Object.proto).map .object).getD (.primitive .null)), heap)
  | 13, _, .primitive (.string hint) :: _ => (.ok (.string ("<__PLACEHOLDER_VALUE__" ++ hint ++ "__>")), heap)
  | _, _, _ => (.ok .undefined, heap)

def setting : Setting Nat where
  primitives :=
    { nan := 0, infinity := 0, isTrue := (· ≠ 0), text := toString, unary := fun _ _ => none
      binary := fun _ _ _ => none, ownOfString := fun _ _ => none, lengthOf := fun _ => none
      text_harmless := toString_safe }
  realm :=
    { objectPrototype := 0, arrayPrototype := 1, regExpPrototype := 2, booleanPrototype := 4, numberPrototype := 4
      bigintPrototype := 4, stringPrototype := 4, safeJsonMethods := 5, safeStringMethods := 6 }
  sdkFunctions := OrderedMap.ofList [("placeholder", 13)]
  apply := apply
  sourceText := fun _ => ""

/-- `const o = {}; o.add = o.__lookupGetter__; o.to = o.add('__proto__'); const p = o.to(); p.polluted = true;
export default p;` -/
def escape : List (Statement Nat) :=
  let o : Expression Nat := .identifier "o"
  let member (object : Expression Nat) (name : String) : Expression Nat := .member object (.identifier name) false
  [.declaration "const" [⟨some "o", some (.object [])⟩],
    .expression (.assignment "=" (member o "add") (member o "__lookupGetter__")),
    .expression (.assignment "=" (member o "to")
      (.call (member o "add") [.literal (.primitive (.string "__proto__"))])),
    .declaration "const" [⟨some "p", some (.call (member o "to") [])⟩],
    .expression (.assignment "=" (member (.identifier "p") "polluted") (.literal (.primitive (.boolean true)))),
    .exportDefault (.identifier "p")]

/-- `const o = { hint: 'a' }; o.hint = placeholder('x'); export default o.hint;` -/
def confined : List (Statement Nat) :=
  let member : Expression Nat := .member (.identifier "o") (.identifier "hint") false
  let text (text : String) : Expression Nat := .literal (.primitive (.string text))
  [.declaration "const" [⟨some "o", some (.object [.property (.identifier "hint") (text "a")])⟩],
    .expression (.assignment "=" member (.call (.identifier "placeholder") [text "x"])),
    .exportDefault member]

theorem engine_data : ∀ o ∈ engine, ∀ name ∈ ["toString", "valueOf"], o.own name = none := by decide

theorem engine_methods : ∀ o ∈ engine, ∀ name ∈ ALLOWED_METHODS, o.own name = none := by decide

theorem engine_accessors : ∀ o ∈ engine, ∀ key get set enumerable, o.own key = some (.accessor get set enumerable) →
    key ∈ dangerousNames := by
  have entries : ∀ o ∈ engine, o.length = none ∧
      ∀ entry ∈ o.properties.entries, entry.1 ∈ dangerousNames ∨ entry.2.isData = true := by decide
  intro o member key get set enumerable own
  obtain ⟨length, each⟩ := entries o member
  rw [Object.own, length] at own
  exact (each _ ((OrderedMap.get_eq_some_iff _ _ _).1 own)).resolve_right (by simp [Property.isData])

theorem engine_inert {ref : Nat} {o : Object Nat} {setters : Prop} (there : engine[ref]? = some o)
    (builtIn : o.origin = .builtIn) (protos : ∀ proto, o.proto = some proto → Inert engine setters proto) :
    Inert engine setters ref := by
  have member := List.mem_of_getElem? there
  refine .intro there ⟨builtIn, engine_methods o member, fun name named property own => ?_⟩
    (.inr fun key get set enumerable => engine_accessors o member key get (some set) enumerable) protos
  cases (engine_data o member name named).symm.trans own

theorem engine_objectPrototype (setters : Prop) : Inert engine setters 0 :=
  engine_inert rfl rfl nofun

theorem engine_tables : ∀ table ∈ [5, 6], ∃ o ∈ engine[table]?, o.origin = .builtIn ∧ o.proto = some 0 ∧
    o.length = none ∧ (∀ entry ∈ o.properties.entries, entry.2.isData = true) ∧
    ∀ name ∈ safeNames setting table, ∃ function ∈ [10, 11, 12], o.own name = some (.data (.object function)) := by
  decide

theorem engine_sound : Sound setting engine where
  provided function provided := by
    have host : ∀ function ∈ setting.sdkFunctions.values, IsOf engine .host function := by decide
    exact host function provided
  program ref o there program := by
    have none : ∀ o ∈ engine, o.origin ≠ .program := by decide
    exact absurd program (none o (List.mem_of_getElem? there))
  host ref o there host := by
    have protos : ∀ o ∈ engine, o.origin = .host → o.proto = some 3 := by decide
    have member := List.mem_of_getElem? there
    refine ⟨fun proto above => .inl ?_, fun name named property own => ?_⟩
    · cases (protos o member host).symm.trans above
      exact engine_inert rfl rfl fun proto above => Option.some.inj above ▸ engine_objectPrototype True
    · cases List.mem_append.1 named with
      | inl method => cases (engine_methods o member name method).symm.trans own
      | inr conversion => cases (engine_data o member name conversion).symm.trans own
  arrayPrototype := engine_inert rfl rfl fun proto above => Option.some.inj above ▸ engine_objectPrototype False
  regExpPrototype := engine_inert rfl rfl fun proto above => Option.some.inj above ▸ engine_objectPrototype False
  objectPrototype := engine_objectPrototype False
  plain o there := by
    refine ⟨?_, engine_accessors o (List.mem_of_getElem? there)⟩
    cases there
    rfl
  tables table member := by
    obtain ⟨o, there, builtIn, proto, length, data, names⟩ := engine_tables table member
    refine ⟨o, there, builtIn, proto, fun key property own => ?_, fun name named => ?_⟩
    · rw [Object.own, length] at own
      exact Property.exists_of_isData (data _ ((OrderedMap.get_eq_some_iff _ _ _).1 own))
    · obtain ⟨function, _, own⟩ := names name named
      exact ⟨function, true, true, own⟩

theorem apply_safe {heap : Heap Nat} {function : Nat} (other : function ∉ [7, 8]) (thisArg : Value Nat)
    (args : List (Value Nat)) : ∃ p, apply heap function thisArg args = (.ok (.primitive p), heap) := by
  unfold apply
  split
  · exact absurd List.mem_cons_self other
  · exact absurd (List.mem_cons_of_mem _ List.mem_cons_self) other
  · exact ⟨_, rfl⟩
  · exact ⟨_, rfl⟩

theorem setting_harmless : Harmless setting engine := by
  intro heap called thisArg args later sound may tame tames
  have engines : ∀ f ∈ [7, 8], engine[f]? = some (function .builtIn) := by decide
  have provided : ∀ f ∈ setting.sdkFunctions.values, f ∉ [7, 8] := by decide
  have other : called ∉ [7, 8] := by
    intro member
    obtain given | host | ⟨name, ref, o, writable, enumerable, there, builtIn, named, own⟩ |
      ⟨table, name, inTables, named, o, writable, enumerable, there, builtIn, own⟩ := may
    · exact provided called given member
    · obtain ⟨o, there, host⟩ := isOf_iff.1 host
      cases (later.kept (engines called member) rfl).symm.trans there
      cases host
    · have there := later.builtIn ref o there builtIn
      cases (engine_data o (List.mem_of_getElem? there) name named).symm.trans own
    · obtain ⟨o', there', _, _, _, _, names⟩ := engine_tables table inTables
      cases (later.builtIn table o there builtIn).symm.trans there'
      obtain ⟨function, tabled, own'⟩ := names name named
      cases own'.symm.trans own
      have apart : ∀ f ∈ [10, 11, 12], f ∉ [7, 8] := by decide
      exact apart _ tabled member
  obtain ⟨p, applied⟩ := apply_safe other thisArg args
  rw [show setting.apply heap called thisArg args = _ from applied]
  exact ⟨sound, later_refl heap, fun value same => by cases same; trivial⟩

end Escape

open Escape in
theorem interpret_sandboxed_confined :
    Sandboxed setting { heap := engine } (interpret setting confined { heap := engine }).2 :=
  interpret_sandboxed setting_harmless engine_sound confined (by decide)

open Escape in
/-- The program gets hold of `Object.prototype` and changes it. -/
theorem interpret_escapes :
    Harmless setting engine ∧ Sound setting engine ∧
      (interpret setting escape { heap := engine }).1 = .ok (.object setting.realm.objectPrototype) ∧
      ¬ Sandboxed setting { heap := engine } (interpret setting escape { heap := engine }).2 := by
  refine ⟨setting_harmless, engine_sound, rfl, fun sandboxed => ?_⟩
  have same := sandboxed.unchanged setting.realm.objectPrototype _ rfl rfl
  have polluted : ((interpret setting escape { heap := engine }).2.heap[0]?.bind fun o => o.own "polluted") =
      some (.data (.boolean true)) := rfl
  have clean : (engine[0]?.bind fun o => o.own "polluted") = none := by decide
  rw [show (interpret setting escape { heap := engine }).2.heap[0]? = _ from same] at polluted
  cases clean.symm.trans polluted

end NodeAutomation.SDKInterpreter
