import Mathlib.Data.List.Basic
import NodeAutomation.Interfaces

/-! Values at paths of CRDT documents (`packages/@n8n/crdt/src/utils.ts`). -/

namespace NodeAutomation.NestedValues

/-- `index` says which element of an array its `get` reads under a string. -/
inductive CrdtValue where
  | plain (value : JsValue)
  | map (entries : List (String × CrdtValue))
  | array (index : String → Option Nat) (items : List CrdtValue)

namespace CrdtValue

def undefined : CrdtValue := plain .undefined

/-- It has a method `get`. -/
def isContainer : CrdtValue → Bool
  | plain _ => false
  | map _ | array _ _ => true

def isNullish : CrdtValue → Bool
  | plain .undefined | plain .null => true
  | _ => false

end CrdtValue

open CrdtValue

def getEntry (key : String) : List (String × CrdtValue) → Option CrdtValue
  | [] => none
  | (name, value) :: entries => if name = key then some value else getEntry key entries

def setEntry (key : String) (value : CrdtValue) :
    List (String × CrdtValue) → List (String × CrdtValue)
  | [] => [(key, value)]
  | (name, old) :: entries =>
    if name = key then (name, value) :: entries else (name, old) :: setEntry key value entries

/-- `parseInt(key, 10)`. -/
def parseInt (key : String) : Option Int :=
  let text := key.toList.dropWhile Char.isWhitespace
  let digits := (if text.head? = some '-' ∨ text.head? = some '+' then text.tail else text).takeWhile
    Char.isDigit
  let size : Int := digits.foldl (fun size digit => 10 * size + (digit.toNat - '0'.toNat : Nat)) 0
  if digits = [] then none else some (if text.head? = some '-' then -size else size)

def plainChild (key : String) : JsValue → JsValue
  | .array values => ((parseInt key).bind fun index =>
      if index < 0 then none else values[index.toNat]?).getD .undefined
  | .object fields => ((fields.find? (·.1 = key)).map Prod.snd).getD .undefined
  | _ => .undefined

/-- One turn of the loop of `getNestedValue`. -/
def getChild (current : CrdtValue) (key : String) : CrdtValue :=
  match current with
  | plain value => plain (plainChild key value)
  | map entries => (getEntry key entries).getD undefined
  | array index items => ((index key).bind (items[·]?)).getD undefined

def getNestedValue (root : CrdtValue) (path : List String) : CrdtValue := path.foldl getChild root

/-- `newIndex` says how an array that was just filled is read. -/
structure Doc where
  newIndex : List CrdtValue → String → Option Nat

mutual

def seedValueDeep (doc : Doc) : JsValue → CrdtValue
  | .array values => array (doc.newIndex (seedItems doc values)) (seedItems doc values)
  | .object fields => map (seedFields doc fields [])
  | value => plain value

def seedItems (doc : Doc) : List JsValue → List CrdtValue
  | [] => []
  | value :: values => seedValueDeep doc value :: seedItems doc values

def seedFields (doc : Doc) : List (String × JsValue) → List (String × CrdtValue) →
    List (String × CrdtValue)
  | [], entries => entries
  | (name, value) :: fields, entries =>
    seedFields doc fields (setEntry name (seedValueDeep doc value) entries)

end

/-- `current.set(key, value)`: arrays have no such method. -/
def set (current : CrdtValue) (key : String) (value : CrdtValue) : Except JsError CrdtValue :=
  match current with
  | map entries => .ok (map (setEntry key value entries))
  | array _ _ | plain _ => .error .typeError

def withChild (current : CrdtValue) (key : String) (child : CrdtValue) : CrdtValue :=
  match current with
  | map entries => map (setEntry key child entries)
  | array index items => array index ((index key).elim items (items.set · child))
  | plain value => plain value

def setNestedValue (doc : Doc) : CrdtValue → List String → JsValue → Except JsError CrdtValue
  | current, [], _ => .ok current
  | current, [finalKey], value => set current finalKey (seedValueDeep doc value)
  | current, key :: next :: path, value =>
    let child := getChild current key
    if child.isNullish then
      setNestedValue doc (map []) (next :: path) value >>= set current key
    else if child.isContainer then
      (setNestedValue doc child (next :: path) value).map (withChild current key)
    else .ok current

/-- Two keys read one child: they are equal, or name one element of an array. -/
def SameChild (current : CrdtValue) (key other : String) : Prop :=
  key = other ∨ ∃ index items element, current = array index items ∧ index key = some element ∧
    index other = some element

/-- The paths part before either of them ends. -/
def Apart : CrdtValue → List String → List String → Prop
  | current, key :: path, other :: others =>
    ¬ SameChild current key other ∨ Apart (getChild current key) path others
  | _, _, _ => False

/-- A value that is no container stands in the way. -/
def Blocked (root : CrdtValue) (path : List String) : Prop :=
  ∃ front key rest, path = front ++ key :: rest ∧ rest ≠ [] ∧
    (getNestedValue root (front ++ [key])).isContainer = false ∧
    (getNestedValue root (front ++ [key])).isNullish = false

/-- The path ends in an array, or at a missing or null element of it that would become a map. -/
def WritesArray (root : CrdtValue) (path : List String) : Prop :=
  ∃ front key rest index items, path = front ++ key :: rest ∧
    getNestedValue root front = array index items ∧
    (rest = [] ∨ (getNestedValue root (front ++ [key])).isNullish = true)

/-- The write succeeds. The value is read back and nothing changes elsewhere, or the
path is blocked and nothing changes at all. -/
def LensLaws (doc : Doc) (root : CrdtValue) (path : List String) (value : JsValue) : Prop :=
  ∃ after, setNestedValue doc root path value = .ok after ∧
    ((getNestedValue after path = seedValueDeep doc value ∧
        ∀ other, Apart root path other → getNestedValue after other = getNestedValue root other) ∨
      Blocked root path ∧ after = root)

theorem getEntry_setEntry (key other : String) (value : CrdtValue)
    (entries : List (String × CrdtValue)) :
    getEntry other (setEntry key value entries) =
      if other = key then some value else getEntry other entries := by
  induction entries with
  | nil => simp [setEntry, getEntry, eq_comm]
  | cons entry entries ih =>
    obtain ⟨name, old⟩ := entry
    by_cases here : name = key
    · simp only [setEntry, here, if_true, getEntry]
      by_cases same : other = key
      · simp [same]
      · simp [same, Ne.symm same]
    · simp only [setEntry, here, if_false, getEntry, ih]
      by_cases same : other = key
      · simp [same, here]
      · simp [same]

theorem setEntry_self (key : String) (value : CrdtValue) (entries : List (String × CrdtValue))
    (there : getEntry key entries = some value) : setEntry key value entries = entries := by
  induction entries with
  | nil => simp [getEntry] at there
  | cons entry entries ih =>
    obtain ⟨name, old⟩ := entry
    by_cases here : name = key
    · simp_all [setEntry, getEntry]
    · simp_all [setEntry, getEntry]

theorem getNestedValue_cons (root : CrdtValue) (key : String) (path : List String) :
    getNestedValue root (key :: path) = getNestedValue (getChild root key) path := rfl

theorem getNestedValue_undefined (path : List String) : getNestedValue undefined path = undefined := by
  induction path with
  | nil => rfl
  | cons key path ih => exact ih

theorem getChild_of_isNullish {current : CrdtValue} (nullish : current.isNullish = true) (key : String) :
    getChild current key = undefined := by
  cases current with
  | plain value => cases value <;> first | rfl | simp [isNullish] at nullish
  | map entries => simp [isNullish] at nullish
  | array index items => simp [isNullish] at nullish

theorem getChild_withChild {current : CrdtValue} {key : String} (child : CrdtValue)
    (container : (getChild current key).isContainer = true) (other : String) :
    (SameChild current key other → getChild (withChild current key child) other = child ∧
      getChild current other = getChild current key) ∧
    (¬ SameChild current key other →
      getChild (withChild current key child) other = getChild current other) := by
  cases current with
  | plain value => simp [getChild, isContainer] at container
  | map entries =>
    simp only [withChild, getChild, getEntry_setEntry]
    refine ⟨fun same => ?_, fun apart => ?_⟩
    · obtain rfl | ⟨index, items, element, eq, -⟩ := same
      · simp
      · cases eq
    · simp [show other ≠ key from fun same => apart (.inl same.symm)]
  | array index items =>
    cases element : index key with
    | none => simp [getChild, element, isContainer, undefined] at container
    | some i =>
      have bound : i < items.length := by
        by_contra out
        have gone : items[i]? = none := List.getElem?_eq_none (by omega)
        simp [getChild, element, gone, isContainer, undefined] at container
      refine ⟨fun same => ?_, fun apart => ?_⟩
      · have read : index other = some i := by
          obtain rfl | ⟨_, _, _, eq, here, there⟩ := same
          · exact element
          · cases eq
            rw [there, ← here, element]
        simp [withChild, getChild, element, read, bound]
      · simp only [withChild, getChild, element, Option.elim_some]
        cases read : index other with
        | none => rfl
        | some j =>
          have ne : i ≠ j := by
            rintro rfl
            exact apart (.inr ⟨index, items, i, rfl, element, read⟩)
          simp [List.getElem?_set_ne ne]

theorem withChild_self {current : CrdtValue} {key : String}
    (container : (getChild current key).isContainer = true) :
    withChild current key (getChild current key) = current := by
  cases current with
  | plain value => rfl
  | map entries =>
    cases there : getEntry key entries with
    | none => simp [getChild, there, isContainer, undefined] at container
    | some child => simp [withChild, getChild, there, setEntry_self key child entries there]
  | array index items =>
    cases element : index key with
    | none => simp [withChild, element]
    | some i =>
      simp only [withChild, getChild, element, Option.elim_some, Option.bind_some]
      cases there : items[i]? with
      | none => simp [getChild, element, there, isContainer, undefined] at container
      | some child =>
        obtain ⟨bound, eq⟩ := List.getElem?_eq_some_iff.1 there
        simp [← eq]

theorem apart_of_nullish {current : CrdtValue} (nullish : current.isNullish = true)
    {path others : List String} (apart : Apart current path others) : Apart (map []) path others := by
  have plainOnly (key other : String) : SameChild current key other → key = other := by
    rintro (same | ⟨_, _, _, rfl, -⟩)
    · exact same
    · simp [isNullish] at nullish
  cases path with
  | nil => exact apart
  | cons key path =>
    cases others with
    | nil => exact apart
    | cons other others =>
      rw [Apart, getChild_of_isNullish nullish] at apart
      refine apart.imp (fun ne same => ?_) id
      obtain rfl | ⟨_, _, _, eq, -⟩ := same
      · exact ne (.inl rfl)
      · cases eq

theorem getChild_set_map (key other : String) (entries : List (String × CrdtValue)) (value : CrdtValue) :
    getChild (map (setEntry key value entries)) other =
      if other = key then value else getChild (map entries) other := by
  simp only [getChild, getEntry_setEntry]
  split <;> rfl

theorem WritesArray.cons {root : CrdtValue} {key : String} {path : List String}
    (writes : WritesArray (getChild root key) path) : WritesArray root (key :: path) := by
  obtain ⟨front, other, rest, index, items, rfl, here, last⟩ := writes
  exact ⟨key :: front, other, rest, index, items, rfl, here, last⟩

theorem Blocked.cons {root : CrdtValue} {key : String} {path : List String}
    (blocked : Blocked (getChild root key) path) : Blocked root (key :: path) := by
  obtain ⟨front, other, rest, rfl, more, container, nullish⟩ := blocked
  exact ⟨key :: front, other, rest, rfl, more, container, nullish⟩

theorem getNestedValue_empty (key : String) (path : List String) :
    getNestedValue (map []) (key :: path) = undefined := getNestedValue_undefined path

theorem empty_free (path : List String) : ¬ WritesArray (map []) path ∧ ¬ Blocked (map []) path := by
  refine ⟨?_, ?_⟩
  · rintro ⟨front, key, rest, index, items, -, here, -⟩
    cases front with
    | nil => cases here
    | cons first front =>
      rw [getNestedValue_empty] at here
      cases here
  · rintro ⟨front, key, rest, -, -, -, nullish⟩
    cases front with
    | nil => simp [getNestedValue, getChild, getEntry, undefined, isNullish] at nullish
    | cons first front =>
      rw [List.cons_append, getNestedValue_empty] at nullish
      cases nullish

/-- Where the walk of a path comes upon no array that it would have to write, a
write obeys the lens laws. By induction on the path, from the root down. -/
theorem lensLaws_of_not_writesArray (doc : Doc) (root : CrdtValue) (path : List String)
    (value : JsValue) (container : root.isContainer = true) (nonempty : path ≠ [])
    (free : ¬ WritesArray root path) : LensLaws doc root path value := by
  induction path generalizing root with
  | nil => exact absurd rfl nonempty
  | cons key path ih =>
    have isMap (last : path = [] ∨ (getChild root key).isNullish = true) :
        ∃ entries, root = map entries := by
      cases root with
      | plain value => simp [isContainer] at container
      | map entries => exact ⟨entries, rfl⟩
      | array index items => exact absurd ⟨[], key, path, index, items, rfl, rfl, last⟩ free
    have other_of_map (entries : List (String × CrdtValue)) (other : String) :
        SameChild (map entries) key other ↔ key = other := by
      refine ⟨fun same => ?_, .inl⟩
      obtain same | ⟨_, _, _, eq, -⟩ := same
      · exact same
      · cases eq
    cases path with
    | nil =>
      obtain ⟨entries, rfl⟩ := isMap (.inl rfl)
      refine ⟨_, rfl, .inl ⟨?_, fun others apart => ?_⟩⟩
      · simp [getNestedValue, getChild_set_map]
      · cases others with
        | nil => exact apart.elim
        | cons other others =>
          have ne := apart.resolve_right (by simp [Apart])
          rw [other_of_map] at ne
          rw [getNestedValue_cons, getNestedValue_cons, getChild_set_map, if_neg (Ne.symm ne)]
    | cons next path =>
      rw [LensLaws, setNestedValue]
      by_cases nullish : (getChild root key).isNullish = true
      · -- the rest of the path is written into a new map
        obtain ⟨entries, rfl⟩ := isMap (.inr nullish)
        obtain ⟨inner, went, written⟩ := ih (map []) rfl (List.cons_ne_nil _ _) (empty_free _).1
        obtain ⟨read, frame⟩ := written.resolve_right fun blocked => (empty_free _).2 blocked.1
        refine ⟨map (setEntry key inner entries), by simp [nullish, went, set, bind, Except.bind], .inl ⟨?_, ?_⟩⟩
        · rw [getNestedValue_cons, getChild_set_map, if_pos rfl, read]
        · intro others apart
          cases others with
          | nil => exact apart.elim
          | cons other others =>
            rw [getNestedValue_cons, getNestedValue_cons, getChild_set_map]
            by_cases same : other = key
            · have inside := apart.resolve_left fun ne => ne (.inl same.symm)
              rw [if_pos same, same, frame others (apart_of_nullish nullish inside)]
              cases others with
              | nil => exact inside.elim
              | cons other others =>
                rw [getNestedValue_empty, getNestedValue_cons, getChild_of_isNullish nullish,
                  getNestedValue_undefined]
            · rw [if_neg same]
      · by_cases inside : (getChild root key).isContainer = true
        · -- the child is written, and stays where it is
          obtain ⟨inner, went, written⟩ := ih (getChild root key) inside (List.cons_ne_nil _ _)
            fun writes => free writes.cons
          refine ⟨withChild root key inner, by simp [nullish, inside, went, Except.map], ?_⟩
          have children := getChild_withChild inner inside
          refine written.imp (fun h => ⟨?_, ?_⟩) fun h => ⟨h.1.cons, ?_⟩
          · rw [getNestedValue_cons, ((children key).1 (.inl rfl)).1, h.1]
          · intro others apart
            cases others with
            | nil => exact apart.elim
            | cons other others =>
              rw [getNestedValue_cons, getNestedValue_cons]
              by_cases same : SameChild root key other
              · rw [((children other).1 same).1, ((children other).1 same).2]
                exact h.2 others (apart.resolve_left fun ne => ne same)
              · rw [(children other).2 same]
          · rw [h.2, withChild_self inside]
        · refine ⟨root, by simp [nullish, inside], .inr ⟨⟨[], key, next :: path, rfl, ?_, ?_, ?_⟩, rfl⟩⟩
          · exact List.cons_ne_nil _ _
          · simpa [getNestedValue] using inside
          · simpa [getNestedValue] using nullish

theorem setNestedValue_lensLaws (doc : Doc) (entries : List (String × CrdtValue))
    (path : List String) (value : JsValue) (nonempty : path ≠ [])
    (free : ¬ WritesArray (map entries) path) : LensLaws doc (map entries) path value :=
  lensLaws_of_not_writesArray doc (map entries) path value rfl nonempty free

/-- The name in a user's profile, which is not there yet. -/
theorem profile_lensLaws :
    LensLaws ⟨fun _ _ => none⟩ (map [("user", map [])]) ["user", "profile", "name"] (.string "Bob") := by
  refine setNestedValue_lensLaws _ _ _ _ (by simp) ?_
  rintro ⟨front, key, rest, index, items, path, here, -⟩
  rcases front with _ | ⟨first, _ | ⟨second, _ | ⟨third, front⟩⟩⟩
  · cases here
  · cases path
    cases here
  · cases path
    cases here
  · simp at path

/-- Nothing is written at the empty path, and nothing is in its way. -/
theorem emptyPath_not_lensLaws :
    ¬ LensLaws ⟨fun _ _ => none⟩ (map []) [] (.string "value") := by
  rintro ⟨after, went, ⟨read, -⟩ | ⟨blocked, -⟩⟩
  · cases went
    rw [seedValueDeep] at read
    · cases read
    · exact fun _ => by simp
    · exact fun _ => by simp
  · exact (empty_free []).2 blocked

end NodeAutomation.NestedValues
