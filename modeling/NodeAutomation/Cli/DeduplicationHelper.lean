import Mathlib.Data.List.Count
import Mathlib.Data.List.Induction
import Mathlib.Order.WithBot
import NodeAutomation.Lib.Fallible
import NodeAutomation.Lib.Runs
import NodeAutomation.Lib.StableSort

/-! Items that earlier executions have seen (`packages/cli/src/deduplication/deduplication-helper.ts`):
the largest of them, or hashes of all of them, are kept for a context. -/

namespace NodeAutomation.Deduplication
open Fallible Runs

inductive DeduplicationMode where
  | entries
  | latestIncrementalKey
  | latestDate
  deriving DecidableEq

structure DeduplicationError where
  message : String
  deriving DecidableEq

/-- What items are converted to: their numbers, unless they are not a number, their dates, if they
are valid, and texts that are hashed. -/
structure Conversions (Item κ Hash : Type) where
  number : Item → Option κ
  date : Item → Option κ
  toString : Item → String
  md5 : String → Hash

inductive Data (Item Hash : Type) where
  | entries (hashes : List Hash)
  | latest (item : Option Item)
  deriving DecidableEq

structure ProcessedData (Item Hash : Type) where
  mode : DeduplicationMode
  data : Data Item Hash
  deriving DecidableEq

structure IDeduplicationOutput (Item : Type) where
  new : List Item := []
  processed : List Item := []
  deriving DecidableEq

structure ICheckProcessedOptions where
  mode : DeduplicationMode
  maxEntries : Option Nat := none

section

variable {Item κ Hash : Type} (convert : Conversions Item κ Hash)

section

variable [LinearOrder κ]

def measure (mode : DeduplicationMode) (item : Item) : Option κ :=
  match mode with
  | .latestIncrementalKey => convert.number item
  | .latestDate => convert.date item
  | .entries => none

def invalidValue : DeduplicationMode → DeduplicationError
  | .latestIncrementalKey => ⟨"Invalid value. Only numbers are supported in mode \"latestIncrementalKey\""⟩
  | .latestDate => ⟨"Invalid value. Only valid dates are supported in mode \"latestDate\""⟩
  | .entries => ⟨"Invalid mode. Only 'latestIncrementalKey' and 'latestDate' are supported."⟩

/-- A value that is undefined is no number and no date. Two dates are two objects, never the same one. -/
def compareValues (mode : DeduplicationMode) (value1 value2 : Option Item) :
    Except DeduplicationError Ordering :=
  match value1.bind (measure convert mode), value2.bind (measure convert mode) with
  | some first, some second =>
    .ok (if mode = .latestIncrementalKey ∧ first = second then .eq else if first > second then .gt else .lt)
  | some _, none | none, some _ | none, none => .error (invalidValue mode)

/-- A list of at most one item is sorted without a comparison. Equal dates are less than each other, so
that their order is left to the engine; here they keep it. -/
def sortEntries (items : List Item) (mode : DeduplicationMode) : Except DeduplicationError (List Item) :=
  if 1 < items.length ∧ ∃ item ∈ items, measure convert mode item = none then .error (invalidValue mode)
  else .ok (items.insertionSort fun a b => compareValues convert mode (some a) (some b) ≠ .ok .gt)

/-- What the loop does with an item: it is compared with the value that is stored, and, when it is
new, with the largest so far. -/
def sortOut (mode : DeduplicationMode) (stored : Option Item)
    (state : IDeduplicationOutput Item × Option Item) (item : Item) :
    Except DeduplicationError (IDeduplicationOutput Item × Option Item) := do
  let (returnData, largestValue) := state
  if (← compareValues convert mode (some item) stored) = .gt then
    let larger ← compareValues convert mode (some item) largestValue
    .ok ({ returnData with new := returnData.new ++ [item] }, if larger = .gt then some item else largestValue)
  else .ok ({ returnData with processed := returnData.processed ++ [item] }, largestValue)

def handleLatestModes (items : List Item) (options : ICheckProcessedOptions)
    (processedData : Option (ProcessedData Item Hash)) :
    Except DeduplicationError (IDeduplicationOutput Item × ProcessedData Item Hash) := do
  let incomingItems ← sortEntries convert items options.mode
  match processedData with
  | none => .ok ({ new := items }, ⟨options.mode, .latest incomingItems.getLast?⟩)
  | some processedData =>
    match processedData.data with
    | .entries _ => .ok ({}, processedData)
    | .latest stored => do
      let (returnData, largestValue) ← incomingItems.foldlM (sortOut convert options.mode stored) ({}, stored)
      .ok (returnData, { processedData with data := .latest largestValue })

def Greater (mode : DeduplicationMode) (item other : Item) : Prop :=
  ∃ a b, measure convert mode item = some a ∧ measure convert mode other = some b ∧ b < a

def Valid (mode : DeduplicationMode) (items : List Item) : Prop :=
  ∀ item ∈ items, ∃ a, measure convert mode item = some a

variable {convert} {mode : DeduplicationMode} {items : List Item} {item other : Item}

theorem greater_iff {a b : κ} (first : measure convert mode item = some a)
    (second : measure convert mode other = some b) : Greater convert mode item other ↔ b < a := by
  constructor
  · rintro ⟨a', b', eq, eq', less⟩
    rw [first] at eq
    rw [second] at eq'
    rwa [Option.some.inj eq, Option.some.inj eq']
  · intro less
    exact ⟨a, b, first, second, less⟩

theorem compareValues_of_valid {a b : κ} (first : measure convert mode item = some a)
    (second : measure convert mode other = some b) :
    ∃ order, compareValues convert mode (some item) (some other) = .ok order ∧
      (order = .gt ↔ Greater convert mode item other) := by
  refine ⟨_, by rw [compareValues, Option.bind_some, Option.bind_some, first, second], ?_⟩
  rw [greater_iff first second]
  by_cases equal : mode = .latestIncrementalKey ∧ a = b
  · rw [if_pos equal]
    simp [equal.2]
  · rw [if_neg equal]
    by_cases less : a > b
    · rw [if_pos less]
      exact iff_of_true rfl less
    · rw [if_neg less]
      exact iff_of_false Ordering.noConfusion less

theorem Greater.asymm (greater : Greater convert mode item other) : ¬ Greater convert mode other item := by
  obtain ⟨a, b, first, second, less⟩ := greater
  rw [greater_iff second first]
  exact lt_asymm less

theorem not_greater_trans {a b c : Item} (valid : Valid convert mode items) (among : a ∈ items) (among' : b ∈ items)
    (among'' : c ∈ items) (h : ¬ Greater convert mode a b) (h' : ¬ Greater convert mode b c) :
    ¬ Greater convert mode a c := by
  obtain ⟨x, first⟩ := valid a among
  obtain ⟨y, second⟩ := valid b among'
  obtain ⟨z, third⟩ := valid c among''
  rw [greater_iff first second] at h
  rw [greater_iff second third] at h'
  rw [greater_iff first third]
  exact not_lt.2 (le_trans (not_lt.1 h) (not_lt.1 h'))

theorem greatest_stays {largest : Item} (most : ∀ other ∈ items, ¬ Greater convert mode other largest)
    (larger : ¬ Greater convert mode item largest) :
    ∀ other ∈ items ++ [item], ¬ Greater convert mode other largest := by
  intro other among
  rcases List.mem_append.1 among with earlier | same
  · exact most other earlier
  · exact List.mem_singleton.1 same ▸ larger

theorem greatest_replaced {largest : Item} (valid : Valid convert mode (items ++ [item])) (member : largest ∈ items)
    (most : ∀ other ∈ items, ¬ Greater convert mode other largest) (larger : Greater convert mode item largest) :
    ∀ other ∈ items ++ [item], ¬ Greater convert mode other item := by
  intro other among
  rcases List.mem_append.1 among with earlier | same
  · exact not_greater_trans valid among (List.mem_append_left _ member) (by simp) (most other earlier) larger.asymm
  · rw [List.mem_singleton.1 same]
    exact fun more => more.asymm more

/-- Sorted, the last of valid items is the greatest. -/
theorem sortEntries_of_valid (valid : Valid convert mode items) :
    ∃ sorted, sortEntries convert items mode = .ok sorted ∧ sorted.Perm items ∧
      ∀ largest, sorted.getLast? = some largest → ∀ item ∈ items, ¬ Greater convert mode item largest := by
  have checked : ¬ (1 < items.length ∧ ∃ item ∈ items, measure convert mode item = none) := by
    rintro ⟨-, item, among, none_⟩
    obtain ⟨a, some_⟩ := valid item among
    simp [none_] at some_
  -- on valid items the comparison is that of their measures, which is total
  let key (item : Item) : WithBot κ := measure convert mode item
  let le (a b : Item) : Prop := key a ≤ key b
  have below_iff {a b : Item} {x y : κ} (first : measure convert mode a = some x)
      (second : measure convert mode b = some y) : le a b ↔ x ≤ y := by
    have whole : key a = x := first
    have whole' : key b = y := second
    show key a ≤ key b ↔ x ≤ y
    rw [whole, whole']
    exact WithBot.coe_le_coe
  have agrees : ∀ a ∈ items, ∀ b ∈ items,
      (compareValues convert mode (some a) (some b) ≠ .ok .gt ↔ le a b) := by
    intro a among b among'
    obtain ⟨x, first⟩ := valid a among
    obtain ⟨y, second⟩ := valid b among'
    obtain ⟨order, compared, greater⟩ := compareValues_of_valid first second
    rw [greater_iff first second] at greater
    rw [compared, Ne, Except.ok.injEq, greater, not_lt]
    exact (below_iff first second).symm
  have total : Std.Total le := ⟨fun a b => le_total (key a) (key b)⟩
  have trans : IsTrans Item le := ⟨fun a b c => @le_trans _ _ (key a) (key b) (key c)⟩
  refine ⟨_, by rw [sortEntries, if_neg checked], List.perm_insertionSort _ _, ?_⟩
  rw [StableSort.insertionSort_congr agrees]
  intro largest last item among
  have perm := List.perm_insertionSort le items
  have sorted := List.pairwise_insertionSort le items
  obtain ⟨front, split⟩ := List.getLast?_eq_some_iff.1 last
  obtain ⟨x, first⟩ := valid item among
  obtain ⟨y, second⟩ := valid largest (perm.mem_iff.1 (by rw [split]; simp))
  rw [greater_iff first second, not_lt]
  rw [split] at perm sorted
  rcases List.mem_append.1 (perm.mem_iff.2 among) with earlier | same
  · have below : le item largest := (List.pairwise_append.1 sorted).2.2 item earlier largest (by simp)
    exact (below_iff first second).1 below
  · rw [List.mem_singleton.1 same, second] at first
    exact le_of_eq (Option.some.inj first).symm

variable (convert) in
structure SortedOut (mode : DeduplicationMode) (stored : Item) (visited : List Item)
    (state : IDeduplicationOutput Item × Option Item) : Prop where
  perm : (state.1.new ++ state.1.processed).Perm visited
  new : ∀ item ∈ state.1.new, Greater convert mode item stored
  processed : ∀ item ∈ state.1.processed, ¬ Greater convert mode item stored
  largest : ∃ largest ∈ stored :: visited, state.2 = some largest ∧
    ∀ item ∈ stored :: visited, ¬ Greater convert mode item largest

theorem sortOut_step {stored : Item} {visited : List Item} {state : IDeduplicationOutput Item × Option Item}
    (valid : Valid convert mode (stored :: (visited ++ [item])))
    (sorted : SortedOut convert mode stored visited state) :
    ∃ next, sortOut convert mode (some stored) state item = .ok next ∧
      SortedOut convert mode stored (visited ++ [item]) next := by
  obtain ⟨output, largest?⟩ := state
  obtain ⟨largest, member, rfl, most⟩ := sorted.largest
  have inside {other : Item} (there : other ∈ stored :: visited) : other ∈ stored :: (visited ++ [item]) :=
    List.mem_append_left [item] there
  have here : item ∈ stored :: (visited ++ [item]) := by simp
  obtain ⟨a, measured⟩ := valid item here
  obtain ⟨b, measured'⟩ := valid stored List.mem_cons_self
  obtain ⟨c, measured''⟩ := valid largest (inside member)
  obtain ⟨order, compared, greater⟩ := compareValues_of_valid measured measured'
  obtain ⟨order', compared', greater'⟩ := compareValues_of_valid measured measured''
  by_cases new : order = .gt
  · have went : sortOut convert mode (some stored) (output, some largest) item =
        .ok ({ output with new := output.new ++ [item] }, if order' = .gt then some item else some largest) := by
      simp only [sortOut, compared, compared', ok_bind, if_pos new]
    refine ⟨_, went, ?_, ?_, sorted.processed, ?_⟩
    · have moved : (output.new ++ [item] ++ output.processed).Perm (output.new ++ output.processed ++ [item]) := by
        rw [List.append_assoc, List.append_assoc]
        exact (List.perm_append_comm).append_left _
      exact moved.trans (sorted.perm.append_right [item])
    · intro other among
      rcases List.mem_append.1 among with earlier | same
      · exact sorted.new other earlier
      · exact List.mem_singleton.1 same ▸ greater.1 new
    · by_cases larger : order' = .gt
      · exact ⟨item, here, if_pos larger, greatest_replaced valid member most (greater'.1 larger)⟩
      · exact ⟨largest, inside member, if_neg larger, greatest_stays most fun more => larger (greater'.2 more)⟩
  · have went : sortOut convert mode (some stored) (output, some largest) item =
        .ok ({ output with processed := output.processed ++ [item] }, some largest) := by
      simp only [sortOut, compared, ok_bind, if_neg new]
    have old : ¬ Greater convert mode item stored := fun more => new (greater.2 more)
    refine ⟨_, went, ?_, sorted.new, ?_, ?_⟩
    · show (output.new ++ (output.processed ++ [item])).Perm (visited ++ [item])
      rw [← List.append_assoc]
      exact sorted.perm.append_right [item]
    · intro other among
      rcases List.mem_append.1 among with earlier | same
      · exact sorted.processed other earlier
      · exact List.mem_singleton.1 same ▸ old
    · have larger := not_greater_trans valid here List.mem_cons_self (inside member) old
        (most stored List.mem_cons_self)
      exact ⟨largest, inside member, rfl, greatest_stays most larger⟩

theorem sortOut_fold {stored : Item} (valid : Valid convert mode (stored :: items)) :
    ∃ state, items.foldlM (sortOut convert mode (some stored)) ({}, some stored) = .ok state ∧
      SortedOut convert mode stored items state := by
  have start : SortedOut convert mode stored [] ({}, some stored) := by
    refine ⟨.refl _, fun _ never => (by cases never), fun _ never => (by cases never), stored, by simp, rfl, ?_⟩
    intro item among
    obtain ⟨a, measured⟩ := valid stored List.mem_cons_self
    rw [List.mem_singleton.1 among, greater_iff measured measured]
    exact lt_irrefl a
  have loop (rest visited : List Item) (state : IDeduplicationOutput Item × Option Item)
      (whole : items = visited ++ rest) (sorted : SortedOut convert mode stored visited state) :
      ∃ next, rest.foldlM (sortOut convert mode (some stored)) state = .ok next ∧
        SortedOut convert mode stored items next := by
    induction rest generalizing visited state with
    | nil =>
      rw [List.append_nil] at whole
      exact ⟨state, rfl, whole ▸ sorted⟩
    | cons item rest ih =>
      have split : items = (visited ++ [item]) ++ rest := by rw [whole, List.append_assoc]; rfl
      have valid_ : Valid convert mode (stored :: (visited ++ [item])) := by
        intro other among
        refine valid other ?_
        rw [split]
        exact List.mem_append_left rest among
      obtain ⟨next, went, sorted'⟩ := sortOut_step valid_ sorted
      obtain ⟨last, rest_, whole_⟩ := ih _ next split sorted'
      exact ⟨last, by rw [List.foldlM_cons, went, ok_bind, rest_], whole_⟩
  exact loop items [] _ rfl start

end

def createValueHash (value : Item) : Hash := convert.md5 (convert.toString value)

theorem mem_map_hash_iff {convert : Conversions Item κ Hash} (injective : Function.Injective convert.md5)
    (items : List Item) (item : Item) :
    convert.toString item ∈ items.map convert.toString ↔
      createValueHash convert item ∈ items.map (createValueHash convert) := by
  rw [List.mem_map, List.mem_map]
  constructor
  · rintro ⟨other, among, same⟩
    exact ⟨other, among, congrArg convert.md5 same⟩
  · rintro ⟨other, among, same⟩
    exact ⟨other, among, injective same⟩

def limit (maxEntries : Option Nat) (hashes : List Hash) : List Hash :=
  match maxEntries with
  | none | some 0 => hashes
  | some (maximum + 1) => hashes.drop (hashes.length - (maximum + 1))

theorem length_limit {maximum : Nat} (positive : maximum ≠ 0) (hashes : List Hash) :
    (limit (some maximum) hashes).length ≤ maximum := by
  cases maximum with
  | zero => exact absurd rfl positive
  | succ maximum =>
    rw [limit, List.length_drop]
    omega

section

variable [DecidableEq Hash]

def handleHashedItems (items : List Item) (options : ICheckProcessedOptions)
    (processedData : Option (ProcessedData Item Hash)) :
    IDeduplicationOutput Item × ProcessedData Item Hash :=
  match processedData with
  | none =>
    ({ new := items }, ⟨options.mode, .entries (limit options.maxEntries (items.map (createValueHash convert)))⟩)
  | some processedData =>
    match processedData.data with
    | .latest _ => ({}, processedData)
    | .entries hashes =>
      -- an item that comes twice is new twice: only the entries from before are looked at
      let known (item : Item) : Bool := createValueHash convert item ∈ hashes
      let added := items.filter fun item => !known item
      ({ new := added, processed := items.filter known },
        { processedData with
          data := .entries (limit options.maxEntries (hashes ++ added.map (createValueHash convert))) })

def incompatibleMode : DeduplicationError :=
  ⟨"Deduplication data was originally saved with an incompatible setting of the ‘Keep Items Where’ parameter. Try ’Clean Database’ operation to reset."⟩

def validateMode (processedData : Option (ProcessedData Item Hash)) (options : ICheckProcessedOptions) :
    Except DeduplicationError Unit :=
  match processedData with
  | none => .ok ()
  | some processedData => if processedData.mode ≠ options.mode then .error incompatibleMode else .ok ()

def checkProcessedAndRecord [LinearOrder κ] (items : List Item) (options : ICheckProcessedOptions)
    (processedData : Option (ProcessedData Item Hash)) :
    Except DeduplicationError (IDeduplicationOutput Item × ProcessedData Item Hash) := do
  validateMode processedData options
  match options.mode with
  | .latestIncrementalKey | .latestDate => handleLatestModes convert items options processedData
  | .entries => .ok (handleHashedItems convert items options processedData)

def removeProcessed (items : List Item) (options : ICheckProcessedOptions)
    (processedData : Option (ProcessedData Item Hash)) :
    Except DeduplicationError (Option (ProcessedData Item Hash)) :=
  match options.mode with
  | .latestIncrementalKey | .latestDate => .error ⟨"Removing processed data is not possible in mode \"latest\""⟩
  | .entries =>
    match processedData with
    | none => .ok none
    | some processedData =>
      match processedData.data with
      | .latest _ => .ok (some processedData)
      | .entries hashes =>
        -- the first entry with the hash goes, for each item
        .ok (some { processedData with
          data := .entries ((items.map (createValueHash convert)).foldl List.erase hashes) })

def getProcessedDataCount (options : ICheckProcessedOptions)
    (processedData : Option (ProcessedData Item Hash)) : Nat :=
  match options.mode, processedData with
  | .entries, some ⟨_, .entries hashes⟩ => hashes.length
  | .entries, some ⟨_, .latest _⟩ | .entries, none => 0
  | .latestIncrementalKey, _ | .latestDate, _ => 0

theorem remove_entries {convert : Conversions Item κ Hash} (items : List Item) (hashes : List Hash) :
    removeProcessed convert items ⟨.entries, none⟩ (some ⟨.entries, .entries hashes⟩) =
      .ok (some ⟨.entries, .entries (hashes.diff (items.map (createValueHash convert)))⟩) := by
  rw [List.diff_eq_foldl]
  rfl

end

section

variable [LinearOrder κ]

def HoldsMaximum (mode : DeduplicationMode) (seen : List Item) (stored : ProcessedData Item Hash) : Prop :=
  seen ≠ [] → ∃ item ∈ seen, stored = ⟨mode, .latest (some item)⟩ ∧
    ∀ other ∈ seen, ¬ Greater convert mode other item

def TellsApart (mode : DeduplicationMode) (seen items : List Item)
    (result : IDeduplicationOutput Item × ProcessedData Item Hash) : Prop :=
  (result.1.new ++ result.1.processed).Perm items ∧
    (∀ item ∈ result.1.new, ∀ other ∈ seen, Greater convert mode item other) ∧
    (∀ item ∈ result.1.processed, ∃ other ∈ seen, ¬ Greater convert mode item other) ∧
    HoldsMaximum convert mode (seen ++ items) result.2

def Stands (mode : DeduplicationMode) (before : List (List Item))
    (stored : Option (ProcessedData Item Hash)) : Prop :=
  (before = [] ∧ stored = none) ∨
    (before ≠ [] ∧ before.flatten = [] ∧ stored = some ⟨mode, .latest none⟩) ∨
    ∃ item ∈ before.flatten, stored = some ⟨mode, .latest (some item)⟩ ∧
      ∀ other ∈ before.flatten, ¬ Greater convert mode other item

variable [DecidableEq Hash]

def recordAll (options : ICheckProcessedOptions) (lists : List (List Item)) :
    Except DeduplicationError (Option (ProcessedData Item Hash)) :=
  lists.foldlM (fun stored items => (checkProcessedAndRecord convert items options stored).map (some ·.2)) none

/-- No call throws, and every call tells its items apart. -/
def RunningMaximum (options : ICheckProcessedOptions) (lists : List (List Item)) : Prop :=
  ∀ before items later, lists = before ++ items :: later →
    ∃ stored result, recordAll convert options before = .ok stored ∧
      checkProcessedAndRecord convert items options stored = .ok result ∧
      TellsApart convert options.mode before.flatten items result

variable {convert} {options : ICheckProcessedOptions} {items : List Item} {before lists : List (List Item)}
  {stored : Option (ProcessedData Item Hash)}

section

variable (latest : options.mode ≠ .entries)
include latest

theorem check_latest
    (same : ∀ processedData, stored = some processedData → processedData.mode = options.mode) :
    checkProcessedAndRecord convert items options stored = handleLatestModes convert items options stored := by
  have compatible : validateMode stored options = .ok () := by
    cases stored with
    | none => rfl
    | some processedData => exact if_neg (not_not.2 (same processedData rfl))
  rw [checkProcessedAndRecord, compatible, ok_bind]
  cases mode : options.mode with
  | entries => exact absurd mode latest
  | latestIncrementalKey => rfl
  | latestDate => rfl

theorem check_first (valid : Valid convert options.mode items) :
    ∃ result, checkProcessedAndRecord convert items options none = .ok result ∧
      TellsApart convert options.mode [] items result ∧ Stands convert options.mode [items] (some result.2) := by
  obtain ⟨sorted, went, perm, greatest⟩ := sortEntries_of_valid valid
  have result : checkProcessedAndRecord convert items options none =
      .ok ({ new := items }, (⟨options.mode, .latest sorted.getLast?⟩ : ProcessedData Item Hash)) := by
    rw [check_latest latest fun _ never => (by cases never), handleLatestModes, went, ok_bind]
  have flat : [items].flatten = items := by simp
  cases last : sorted.getLast? with
  | none =>
    have empty : items = [] := by
      rw [List.getLast?_eq_none_iff.1 last] at perm
      exact perm.nil_eq.symm
    rw [last] at result
    refine ⟨_, result, ⟨?_, fun _ _ _ never => (by cases never), fun _ never => (by cases never), ?_⟩, ?_⟩
    · rw [List.append_nil]
    · exact fun there => absurd empty there
    · exact .inr (.inl ⟨List.cons_ne_nil _ _, flat.trans empty, rfl⟩)
  | some largest =>
    have among : largest ∈ items := perm.mem_iff.1 (List.mem_of_getLast? last)
    rw [last] at result
    refine ⟨_, result, ⟨?_, fun _ _ _ never => (by cases never), fun _ never => (by cases never), ?_⟩, ?_⟩
    · rw [List.append_nil]
    · exact fun _ => ⟨largest, among, rfl, greatest largest last⟩
    · exact .inr (.inr ⟨largest, flat.symm ▸ among, rfl, flat.symm ▸ greatest largest last⟩)

theorem check_later {item : Item}
    (valid : Valid convert options.mode (before.flatten ++ items)) (member : item ∈ before.flatten)
    (greatest : ∀ other ∈ before.flatten, ¬ Greater convert options.mode other item) :
    ∃ result, checkProcessedAndRecord convert items options (some ⟨options.mode, .latest (some item)⟩) =
        .ok result ∧
      TellsApart convert options.mode before.flatten items result ∧
      Stands convert options.mode (before ++ [items]) (some result.2) := by
  have validItems : Valid convert options.mode items := fun other among =>
    valid other (List.mem_append_right _ among)
  obtain ⟨sorted, went, perm, -⟩ := sortEntries_of_valid validItems
  have validSorted : Valid convert options.mode (item :: sorted) := by
    intro other among
    rcases List.mem_cons.1 among with rfl | among
    · exact valid _ (List.mem_append_left _ member)
    · exact validItems other (perm.mem_iff.1 among)
  obtain ⟨⟨output, largest?⟩, folded, out⟩ := sortOut_fold validSorted
  obtain ⟨largest, among, rfl, most⟩ := out.largest
  have result : checkProcessedAndRecord convert items options (some ⟨options.mode, .latest (some item)⟩) =
      .ok (output, (⟨options.mode, .latest (some largest)⟩ : ProcessedData Item Hash)) := by
    have same : ∀ processedData : ProcessedData Item Hash,
        some ⟨options.mode, .latest (some item)⟩ = some processedData → processedData.mode = options.mode := by
      rintro _ ⟨⟩
      rfl
    rw [check_latest latest same, handleLatestModes, went, ok_bind]
    simp only [folded, ok_bind]
  have measured {other : Item} (there : other ∈ before.flatten ++ items) := valid other there
  have here : item ∈ before.flatten ++ items := List.mem_append_left _ member
  have inside : largest ∈ before.flatten ++ items := by
    rcases List.mem_cons.1 among with rfl | among
    · exact here
    · exact List.mem_append_right _ (perm.mem_iff.1 among)
  have maximum : ∀ other ∈ before.flatten ++ items, ¬ Greater convert options.mode other largest := by
    intro other there
    rcases List.mem_append.1 there with earlier | now
    · exact not_greater_trans valid there here inside (greatest other earlier) (most item List.mem_cons_self)
    · exact most other (List.mem_cons_of_mem _ (perm.mem_iff.2 now))
  have flat : (before ++ [items]).flatten = before.flatten ++ items := by simp
  refine ⟨_, result, ⟨out.perm.trans perm, ?_, ?_, ?_⟩, ?_⟩
  · intro x new other earlier
    have more := out.new x new
    obtain ⟨a, first⟩ := measured (List.mem_append_right _ (perm.mem_iff.1
      (out.perm.mem_iff.1 (List.mem_append_left _ new))))
    obtain ⟨b, second⟩ := measured here
    obtain ⟨c, third⟩ := measured (List.mem_append_left items earlier)
    have below := greatest other earlier
    rw [greater_iff first second] at more
    rw [greater_iff third second, not_lt] at below
    exact (greater_iff first third).2 (lt_of_le_of_lt below more)
  · intro x processed
    exact ⟨item, member, out.processed x processed⟩
  · exact fun _ => ⟨largest, inside, rfl, maximum⟩
  · exact .inr (.inr ⟨largest, flat ▸ inside, rfl, flat ▸ maximum⟩)

theorem check_undefined (valid : Valid convert options.mode items)
    {result : IDeduplicationOutput Item × ProcessedData Item Hash}
    (went : checkProcessedAndRecord convert items options (some ⟨options.mode, .latest none⟩) = .ok result) :
    items = [] ∧ result = ({}, ⟨options.mode, .latest none⟩) := by
  have same : ∀ processedData : ProcessedData Item Hash,
      some ⟨options.mode, .latest none⟩ = some processedData → processedData.mode = options.mode := by
    rintro _ ⟨⟩
    rfl
  obtain ⟨sorted, ordered, perm, -⟩ := sortEntries_of_valid valid
  rw [check_latest latest same, handleLatestModes, ordered, ok_bind] at went
  cases sorted with
  | nil => exact ⟨perm.nil_eq.symm, (Except.ok.inj went).symm⟩
  | cons item sorted =>
    -- nothing can be compared with a value that is undefined
    obtain ⟨a, measured⟩ := valid item (perm.mem_iff.1 List.mem_cons_self)
    have thrown : compareValues convert options.mode (some item) none = .error (invalidValue options.mode) := by
      rw [compareValues, Option.bind_some, measured, Option.bind_none]
    simp only [List.foldlM_cons, sortOut, thrown, error_bind] at went
    cases went

theorem recordAll_undefined
    (valid : ∀ items ∈ lists, Valid convert options.mode items)
    (first : lists.head? = some []) (went : recordAll convert options lists = .ok stored) :
    stored = some ⟨options.mode, .latest none⟩ := by
  cases lists with
  | nil => cases first
  | cons items rest =>
    cases first
    rw [List.forall_mem_cons] at valid
    obtain ⟨result, recorded, -, stands⟩ := check_first latest valid.1
    have start : some result.2 = some (⟨options.mode, .latest none⟩ : ProcessedData Item Hash) := by
      rcases stands with ⟨never, -⟩ | ⟨-, -, same⟩ | ⟨item, among, -⟩
      · cases never
      · exact same
      · cases among
    rw [recordAll, List.foldlM_cons, recorded] at went
    refine foldlM_kept (P := fun _ stored => stored = some ⟨options.mode, .latest none⟩) went start ?_
    rintro visited items _ t among rfl step
    cases checked : checkProcessedAndRecord convert items options (some ⟨options.mode, .latest none⟩) with
    | error e =>
      rw [checked] at step
      cases step
    | ok result =>
      rw [checked] at step
      rw [← Except.ok.inj step, (check_undefined latest (valid.2 items among) checked).2]

theorem check_stands
    (valid : ∀ items ∈ before, Valid convert options.mode items) (valid' : Valid convert options.mode items)
    (stands : Stands convert options.mode before stored)
    (begun : before ≠ [] → before.flatten = [] → items = []) :
    ∃ result, checkProcessedAndRecord convert items options stored = .ok result ∧
      TellsApart convert options.mode before.flatten items result ∧
      Stands convert options.mode (before ++ [items]) (some result.2) := by
  have validAll : Valid convert options.mode (before.flatten ++ items) := by
    intro item among
    rcases List.mem_append.1 among with earlier | now
    · obtain ⟨list, member, there⟩ := List.mem_flatten.1 earlier
      exact valid list member item there
    · exact valid' item now
  rcases stands with ⟨rfl, rfl⟩ | ⟨some_, empty, rfl⟩ | ⟨item, member, rfl, greatest⟩
  · exact check_first latest valid'
  · obtain rfl := begun some_ empty
    have same : ∀ processedData : ProcessedData Item Hash,
        some ⟨options.mode, .latest none⟩ = some processedData → processedData.mode = options.mode := by
      rintro _ ⟨⟩
      rfl
    have result : checkProcessedAndRecord convert [] options (some ⟨options.mode, .latest none⟩) =
        .ok ({}, (⟨options.mode, .latest none⟩ : ProcessedData Item Hash)) := by
      rw [check_latest latest same]
      rfl
    refine ⟨_, result, ⟨.refl _, fun _ never => (by cases never), fun _ never => (by cases never), ?_⟩, ?_⟩
    · exact fun there => absurd (by rw [empty]; rfl) there
    · exact .inr (.inl ⟨by simp, by simp [empty], rfl⟩)
  · exact check_later latest validAll member greatest

end

theorem recordAll_concat : recordAll convert options (before ++ [items]) = (do
    let stored ← recordAll convert options before
    (checkProcessedAndRecord convert items options stored).map (some ·.2)) := by
  rw [recordAll, List.foldlM_append, recordAll]
  refine bind_congr fun stored => ?_
  rw [List.foldlM_cons]
  cases (checkProcessedAndRecord convert items options stored).map (some ·.2) <;> rfl

theorem stands_recordAll (latest : options.mode ≠ .entries)
    (valid : ∀ items ∈ lists, Valid convert options.mode items)
    (begun : lists.head? = some [] → ∀ items ∈ lists, items = []) :
    ∃ stored, recordAll convert options lists = .ok stored ∧ Stands convert options.mode lists stored := by
  induction lists using List.reverseRecOn with
  | nil => exact ⟨none, rfl, .inl ⟨rfl, rfl⟩⟩
  | append_singleton before items ih =>
    have head (some_ : before ≠ []) : (before ++ [items]).head? = before.head? := by
      rw [List.head?_append_of_ne_nil _ some_]
    obtain ⟨stored, went, stands⟩ := ih
      (fun list among => valid list (List.mem_append_left _ among)) (fun first list among =>
        begun (by rw [head (List.ne_nil_of_mem among), first]) list (List.mem_append_left _ among))
    obtain ⟨result, checked, -, next⟩ := check_stands latest
      (fun list among => valid list (List.mem_append_left _ among))
      (valid items (by simp)) stands fun some_ empty => by
        refine begun ?_ items (by simp)
        obtain ⟨first, rest, rfl⟩ := List.exists_cons_of_ne_nil some_
        have nothing := List.flatten_eq_nil_iff.1 empty first List.mem_cons_self
        rw [nothing]
        rfl
    exact ⟨some result.2, by rw [recordAll_concat, went, ok_bind, checked]; rfl, next⟩

/-- Deduplication by the latest item is a running maximum unless an empty list comes before all others. -/
theorem runningMaximum_iff (latest : options.mode ≠ .entries)
    (valid : ∀ items ∈ lists, Valid convert options.mode items) :
    RunningMaximum convert options lists ↔ (lists.head? = some [] → ∀ items ∈ lists, items = []) := by
  constructor
  · intro maximum first items among
    obtain ⟨before, later, split⟩ := List.append_of_mem among
    obtain ⟨stored, result, went, checked, -⟩ := maximum before items later split
    cases before with
    | nil =>
      rw [split] at first
      exact Option.some.inj first
    | cons head rest =>
      have valid' : ∀ list ∈ head :: rest, Valid convert options.mode list := fun list member =>
        valid list (by rw [split]; exact List.mem_append_left _ member)
      have first' : (head :: rest).head? = some [] := by
        rw [split] at first
        exact first
      rw [recordAll_undefined latest valid' first' went] at checked
      exact (check_undefined latest (valid items among) checked).1
  · intro begun before items later split
    have inside {list : List Item} (member : list ∈ before ++ [items]) : list ∈ lists := by
      rw [split]
      rcases List.mem_append.1 member with earlier | same
      · exact List.mem_append_left _ earlier
      · rw [List.mem_singleton.1 same]
        simp
    have empty : before ≠ [] → before.flatten = [] → ∀ list ∈ lists, list = [] := by
      intro some_ nothing
      refine begun ?_
      obtain ⟨first, rest, rfl⟩ := List.exists_cons_of_ne_nil some_
      rw [split, List.flatten_eq_nil_iff.1 nothing first List.mem_cons_self]
      rfl
    obtain ⟨stored, went, stands⟩ := stands_recordAll latest
      (fun list member => valid list (inside (List.mem_append_left _ member))) fun first list member => by
        cases before with
        | nil => cases first
        | cons head rest =>
          refine begun ?_ list (inside (List.mem_append_left _ member))
          rw [split]
          exact first
    obtain ⟨result, checked, apart, -⟩ := check_stands latest
      (fun list member => valid list (inside (List.mem_append_left _ member)))
      (valid items (inside (by simp))) stands fun some_ nothing => empty some_ nothing items (inside (by simp))
    exact ⟨stored, result, went, checked, apart⟩

def numbers : Conversions Int Int String where
  number := some
  date := some
  toString := toString
  md5 := id

theorem runningMaximum_numbers :
    RunningMaximum numbers ⟨.latestIncrementalKey, none⟩ [[3, 1], [], [2, 5]] ↔
      (([[3, 1], [], [2, 5]] : List (List Int)).head? = some [] →
        ∀ items ∈ ([[3, 1], [], [2, 5]] : List (List Int)), items = []) :=
  runningMaximum_iff (by decide) fun _ _ item _ => ⟨item, rfl⟩

/-- After an empty list, a number is compared with a value that is undefined, which throws. -/
theorem not_runningMaximum_after_empty :
    (∀ items ∈ ([[], [1]] : List (List Int)), Valid numbers .latestIncrementalKey items) ∧
      ¬ RunningMaximum numbers ⟨.latestIncrementalKey, none⟩ [[], [1]] := by
  refine ⟨fun _ _ item _ => ⟨item, rfl⟩, fun maximum => ?_⟩
  obtain ⟨stored, result, went, checked, -⟩ := maximum [[]] [1] [] rfl
  have undefined : recordAll numbers ⟨.latestIncrementalKey, none⟩ [[]] =
      .ok (some ⟨.latestIncrementalKey, .latest none⟩) := rfl
  rw [undefined] at went
  obtain rfl := Except.ok.inj went
  have thrown : checkProcessedAndRecord numbers [1] ⟨.latestIncrementalKey, none⟩
      (some ⟨.latestIncrementalKey, .latest none⟩) = .error (invalidValue .latestIncrementalKey) := rfl
  simp [thrown] at checked

end

section

variable [LinearOrder κ] [DecidableEq Hash]

inductive Call (Item : Type) where
  | check (items : List Item) (maxEntries : Option Nat)
  | remove (items : List Item)

def next (stored : Option (ProcessedData Item Hash)) : Call Item → Option (ProcessedData Item Hash)
  | .check items maxEntries =>
    match checkProcessedAndRecord convert items ⟨.entries, maxEntries⟩ stored with
    | .ok (_, recorded) => some recorded
    | .error _ => stored
  | .remove items =>
    match removeProcessed convert items ⟨.entries, none⟩ stored with
    | .ok left => left
    | .error _ => stored

def hashesOf (stored : Option (ProcessedData Item Hash)) : List Hash :=
  match stored with
  | some ⟨_, .entries hashes⟩ => hashes
  | some ⟨_, .latest _⟩ | none => []

def Reports (stored : Option (ProcessedData Item Hash)) (items : List Item) (maxEntries : Option Nat)
    (item : Item) (new : Bool) : Prop :=
  ∃ result, checkProcessedAndRecord convert items ⟨.entries, maxEntries⟩ stored = .ok result ∧
    (item ∈ result.1.new ↔ new = true) ∧ (item ∈ result.1.processed ↔ new = false)

/-- A check keeps the maximum. After a removal, the next check reports the items that were removed as
new, and every other recorded item as processed. Items with the same text are the same. -/
def Undoes (stored : Option (ProcessedData Item Hash)) : Call Item → Prop
  | .check items maxEntries => ∀ maximum, maxEntries = some maximum →
      getProcessedDataCount ⟨.entries, maxEntries⟩ (next convert stored (.check items maxEntries)) ≤ maximum
  | .remove items =>
      getProcessedDataCount ⟨.entries, none⟩ (next convert stored (.remove items)) ≤
        getProcessedDataCount ⟨.entries, none⟩ stored ∧
      ∀ given maxEntries, ∀ item ∈ given,
        (convert.toString item ∈ items.map convert.toString →
          Reports convert (next convert stored (.remove items)) given maxEntries item true) ∧
        (convert.toString item ∉ items.map convert.toString → createValueHash convert item ∈ hashesOf stored →
          Reports convert (next convert stored (.remove items)) given maxEntries item false)

/-- A check whose maximum is zero has nothing to store. No hash of an item to remove is stored more
often than the item is among those to remove. -/
def Undoable (stored : Option (ProcessedData Item Hash)) : Call Item → Prop
  | .check items maxEntries => maxEntries = some 0 → items = [] ∧ hashesOf stored = []
  | .remove items => ∀ item ∈ items, (hashesOf stored).count (createValueHash convert item) ≤
      (items.map (createValueHash convert)).count (createValueHash convert item)

def KeepsEntries (stored : Option (ProcessedData Item Hash)) : Prop :=
  stored = none ∨ ∃ hashes, stored = some ⟨.entries, .entries hashes⟩

variable {convert} {stored : Option (ProcessedData Item Hash)} {items : List Item} {maxEntries : Option Nat}

section

variable (keeps : KeepsEntries stored)
include keeps

theorem check_entries (items : List Item) (maxEntries : Option Nat) :
    checkProcessedAndRecord convert items ⟨.entries, maxEntries⟩ stored =
      .ok ({ new := items.filter fun item => !decide (createValueHash convert item ∈ hashesOf stored)
             processed := items.filter fun item => createValueHash convert item ∈ hashesOf stored },
        ⟨.entries, .entries (limit maxEntries (hashesOf stored ++
          (items.filter fun item => !decide (createValueHash convert item ∈ hashesOf stored)).map
            (createValueHash convert)))⟩) := by
  rcases keeps with rfl | ⟨hashes, rfl⟩
  · have all : (items.filter fun item => !decide (createValueHash convert item ∈
        hashesOf (none : Option (ProcessedData Item Hash)))) = items :=
      List.filter_eq_self.2 fun item _ => by simp [hashesOf]
    have nothing : (items.filter fun item => decide (createValueHash convert item ∈
        hashesOf (none : Option (ProcessedData Item Hash)))) = [] :=
      List.filter_eq_nil_iff.2 fun item _ => by simp [hashesOf]
    rw [all, nothing]
    rfl
  · rfl

theorem keepsEntries_next (call : Call Item) :
    KeepsEntries (next convert stored call) := by
  cases call with
  | check items maxEntries =>
    rw [next, check_entries keeps items maxEntries]
    exact .inr ⟨_, rfl⟩
  | remove items =>
    rcases keeps with rfl | ⟨hashes, rfl⟩
    · exact .inl rfl
    · rw [next, remove_entries]
      exact .inr ⟨_, rfl⟩

theorem reports_iff {item : Item} {new : Bool} (among : item ∈ items) :
    Reports convert stored items maxEntries item new ↔
      (createValueHash convert item ∈ hashesOf stored ↔ new = false) := by
  have went := @check_entries _ _ _ convert _ _ _ keeps items maxEntries
  rw [Reports, went]
  constructor
  · rintro ⟨result, eq, -, processed⟩
    rw [← Except.ok.inj eq, List.mem_filter, decide_eq_true_iff] at processed
    exact ⟨fun there => processed.1 ⟨among, there⟩, fun old => (processed.2 old).2⟩
  · intro h
    refine ⟨_, rfl, ?_, ?_⟩
    · rw [List.mem_filter, Bool.not_eq_true', decide_eq_false_iff_not, h]
      simp [among]
    · rw [List.mem_filter, decide_eq_true_iff, h]
      simp [among]

theorem undoes_check_iff :
    Undoes convert stored (.check items maxEntries) ↔ Undoable convert stored (.check items maxEntries) := by
  have went : next convert stored (.check items maxEntries) = some ⟨.entries, .entries (limit maxEntries
      (hashesOf stored ++ (items.filter fun item => !decide (createValueHash convert item ∈ hashesOf stored)).map
        (createValueHash convert)))⟩ := by
    rw [next, check_entries keeps items maxEntries]
  rw [Undoes, Undoable, went]
  constructor
  · rintro bounded rfl
    have none_ := List.eq_nil_of_length_eq_zero (Nat.le_zero.1 (bounded 0 rfl))
    obtain ⟨nothing, unstored⟩ := List.append_eq_nil_iff.1 none_
    refine ⟨List.eq_nil_iff_forall_not_mem.2 fun item among => ?_, nothing⟩
    rw [List.map_eq_nil_iff, List.filter_eq_nil_iff] at unstored
    refine unstored item among ?_
    rw [nothing]
    rfl
  · rintro undoable maximum rfl
    cases maximum with
    | zero =>
      obtain ⟨rfl, nothing⟩ := undoable rfl
      rw [nothing]
      exact Nat.le_refl 0
    | succ maximum => exact length_limit (Nat.succ_ne_zero maximum) _

end

theorem undoes_remove_iff (injective : Function.Injective convert.md5) (keeps : KeepsEntries stored) :
    Undoes convert stored (.remove items) ↔ Undoable convert stored (.remove items) := by
  have left : hashesOf (next convert stored (.remove items)) =
      (hashesOf stored).diff (items.map (createValueHash convert)) := by
    rcases keeps with rfl | ⟨hashes, rfl⟩
    · exact (List.nil_diff _).symm
    · rw [next, remove_entries]
      rfl
  have count {data : Option (ProcessedData Item Hash)} (keeps : KeepsEntries data) :
      getProcessedDataCount ⟨.entries, none⟩ data = (hashesOf data).length := by
    rcases keeps with rfl | ⟨hashes, rfl⟩
    · rfl
    · rfl
  have keeps' := @keepsEntries_next _ _ _ convert _ _ _ keeps (.remove items)
  have stays {item : Item} : createValueHash convert item ∈ hashesOf (next convert stored (.remove items)) ↔
      ¬ (hashesOf stored).count (createValueHash convert item) ≤
        (items.map (createValueHash convert)).count (createValueHash convert item) := by
    rw [left, ← List.count_pos_iff, List.count_diff]
    omega
  have reports {given : List Item} {item : Item} {new : Bool} {maxEntries : Option Nat} (among : item ∈ given) :
      Reports convert (next convert stored (.remove items)) given maxEntries item new ↔ _ :=
    reports_iff keeps' among
  rw [Undoes, Undoable]
  constructor
  · rintro ⟨-, undone⟩ item among
    have new := (undone [item] none item List.mem_cons_self).1 (List.mem_map_of_mem among)
    rw [reports List.mem_cons_self] at new
    by_contra more
    exact Bool.noConfusion (new.1 (stays.2 more))
  · intro removed
    refine ⟨?_, fun given maxEntries item among => ⟨fun there => ?_, fun other recorded => ?_⟩⟩
    · rw [count keeps, count keeps', left]
      exact (List.diff_sublist _ _).length_le
    · obtain ⟨twin, member, same⟩ := List.mem_map.1 there
      have hash : createValueHash convert twin = createValueHash convert item := congrArg convert.md5 same
      refine (reports among).2 (iff_of_false ?_ Bool.noConfusion)
      rw [stays, not_not, ← hash]
      exact removed twin member
    · refine (reports among).2 (iff_of_true ?_ rfl)
      rw [mem_map_hash_iff injective] at other
      rw [stays, List.count_eq_zero_of_not_mem other, Nat.le_zero, List.count_eq_zero, not_not]
      exact recorded

theorem undoes_iff (injective : Function.Injective convert.md5) (keeps : KeepsEntries stored) (call : Call Item) :
    Undoes convert stored call ↔ Undoable convert stored call := by
  cases call with
  | check items maxEntries => exact undoes_check_iff keeps
  | remove items => exact undoes_remove_iff injective keeps

/-- In a run, every call undoes the recording, and keeps the maximum, exactly when every removal
removes all copies of its items. -/
theorem along_undoes_iff (injective : Function.Injective convert.md5) (calls : List (Call Item)) :
    Along (next convert) (Undoes convert) none calls ↔ Along (next convert) (Undoable convert) none calls :=
  along_iff (fun _ call keeps _ => undoes_iff injective keeps call)
    (fun _ call keeps _ _ => keepsEntries_next keeps call) (.inl rfl)
    (along_of_forall (R := fun _ => True) fun _ _ => trivial)

def texts : Conversions String Int String where
  number := fun _ => none
  date := fun _ => none
  toString := id
  md5 := id

theorem along_undoes_texts :
    Along (next texts) (Undoes texts) none
        [.check ["a", "b"] (some 1), .remove ["b"], .check ["b", "b"] none, .remove ["b", "c", "b"]] ↔
      Along (next texts) (Undoable texts) none
        [.check ["a", "b"] (some 1), .remove ["b"], .check ["b", "b"] none, .remove ["b", "c", "b"]] :=
  along_undoes_iff (fun _ _ same => same) _

/-- A text that came twice in one list is stored twice, and removing it leaves one of the two. -/
theorem not_along_undoes_twice :
    ¬ Along (next texts) (Undoes texts) none [.check ["a", "a"] none, .remove ["a"]] := by
  rintro ⟨-, ⟨-, undone⟩, -⟩
  obtain ⟨result, went, new, -⟩ := (undone ["a"] none "a" List.mem_cons_self).1 (by decide)
  have processed : checkProcessedAndRecord texts ["a"] ⟨.entries, none⟩
      (next texts (next texts none (.check ["a", "a"] none)) (.remove ["a"])) =
      .ok ({ new := [], processed := ["a"] }, ⟨.entries, .entries ["a"]⟩) := rfl
  rw [processed] at went
  obtain rfl := Except.ok.inj went
  cases new.2 rfl

end

end

end NodeAutomation.Deduplication
