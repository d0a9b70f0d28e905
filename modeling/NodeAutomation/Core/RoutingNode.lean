import NodeAutomation.Lib.Loops
import Mathlib.Data.List.Basic

/-! The offset pagination of declarative requests (`packages/core/src/execution-engine/routing-node.ts`):
pages are requested and processed one by one, until one does not have the length of a page. -/

namespace NodeAutomation.RoutingNode

open Loops

variable {α : Type}

/-- An item of the server's list, the array of a page, or an object that has it under a property. -/
inductive Json (α : Type) where
  | item (content : α)
  | array (items : List α)
  | object (property : String) (items : List α)

structure INodeExecutionData (α : Type) where
  json : Json α

/-- A filter action, as what its `pass` says of the item that it is evaluated for. -/
structure PostReceiveFilter (α : Type) where
  pass : Json α → Bool

structure PostReceive (α : Type) where
  actions : List (PostReceiveFilter α)

structure OffsetPagination where
  pageSize : Nat
  rootProperty : Option String := none

structure ResultOptions (α : Type) where
  pagination : OffsetPagination
  maxResults : Option Nat := none
  postReceive : List (PostReceive α) := []

inductive RoutingError where
  | typeError
  | nodeOperationError (message : String)
  deriving DecidableEq

abbrev Server (α : Type) := (offset limit : Nat) → Json α

def runPostReceiveAction (action : PostReceiveFilter α) (inputData : List (INodeExecutionData α)) :
    List (INodeExecutionData α) :=
  inputData.filter fun item => action.pass item.json

/-- With any `postReceive` the whole body is one item, which the actions are run on. -/
def postProcessResponseData (requestData : ResultOptions α) (body : Json α) : List (INodeExecutionData α) :=
  let returnData : List (INodeExecutionData α) := [{ json := body }]
  if requestData.postReceive.isEmpty then
    match body with
    | .array items => items.map fun item => { json := .item item }
    | .item _ | .object _ _ => returnData
  else
    requestData.postReceive.foldl (fun returnData postReceiveMethod =>
      postReceiveMethod.actions.foldl (fun returnData action => runPostReceiveAction action returnData)
        returnData) returnData

/-- `get(json, rootProperty)`, where it is the array of a page. -/
def Json.get (rootProperty : String) : Json α → Option (List α)
  | .object property items => if property = rootProperty then some items else none
  | .item _ | .array _ => none

def tempResponse (requestData : ResultOptions α) (body : Json α) :
    Except RoutingError (List (INodeExecutionData α)) :=
  let tempResponseData := postProcessResponseData requestData body
  match requestData.pagination.rootProperty with
  | none => .ok tempResponseData
  | some rootProperty =>
    match tempResponseData with
    | [] => .error .typeError
    | first :: _ =>
      match first.json.get rootProperty with
      | none => .error (.nodeOperationError s!"The rootProperty \"{rootProperty}\" could not be found on item.")
      | some tempResponseValue => .ok (tempResponseValue.map fun item => { json := .item item })

/-- The offset of the next request, and the items so far. -/
structure Pages (α : Type) where
  offset : Nat := 0
  responseData : List (INodeExecutionData α) := []

/-- `maxResults`, where it is truthy. -/
def ResultOptions.limitResults (requestData : ResultOptions α) : Option Nat :=
  requestData.maxResults.filter (· ≠ 0)

/-- A pass of the loop, to the next one or to what `makeRequest` ends with. -/
def requestPage (server : Server α) (requestData : ResultOptions α) (pages : Pages α) :
    Pages α ⊕ Except RoutingError (List (INodeExecutionData α)) :=
  let pageSize := requestData.pagination.pageSize
  if requestData.limitResults.any fun maxResults => maxResults ≤ pages.responseData.length then
    .inr (.ok pages.responseData)
  else
    let limit := requestData.limitResults.elim pageSize fun maxResults =>
      min pageSize (maxResults - pages.responseData.length)
    match tempResponse requestData (server pages.offset limit) with
    | .error error => .inr (.error error)
    | .ok tempResponseData =>
      let responseData := pages.responseData ++ tempResponseData
      if tempResponseData.length ≠ 0 ∧ tempResponseData.length = pageSize then
        .inl { offset := pages.offset + pageSize, responseData }
      else .inr (.ok responseData)

/-- `makeRequest`, unless it takes more requests. -/
def makeRequest (server : Server α) (requestData : ResultOptions α) (requests : Nat) :
    Option (Except RoutingError (List (INodeExecutionData α))) :=
  loop (requestPage server requestData) requests {}

/-- `responseData.value.splice(maxResults)` in `runNode`. -/
def cutToMaxResults (requestData : ResultOptions α) (responseData : List (INodeExecutionData α)) :
    List (INodeExecutionData α) :=
  requestData.limitResults.elim responseData fun maxResults => responseData.take maxResults

def listServer (rootProperty : Option String) (list : List α) : Server α := fun offset limit =>
  let items := (list.drop offset).take limit
  rootProperty.elim (.array items) fun property => .object property items

def ResultOptions.passes (requestData : ResultOptions α) (json : Json α) : Bool :=
  requestData.postReceive.all fun postReceiveMethod => postReceiveMethod.actions.all fun action => action.pass json

def itemsOf (list : List α) : List (INodeExecutionData α) := list.map fun item => { json := .item item }

def ResultOptions.firstResults (requestData : ResultOptions α) (list : List β) : List β :=
  requestData.maxResults.elim list fun maxResults => list.take maxResults

def expectedResults (requestData : ResultOptions α) (list : List α) : List (INodeExecutionData α) :=
  itemsOf (requestData.firstResults (list.filter fun item => requestData.passes (.item item)))

/-- `makeRequest` ends, and what is kept of its result are the items that are expected. -/
def ReturnsWholeList (requestData : ResultOptions α) (list : List α) : Prop :=
  ∃ requests responseData,
    makeRequest (listServer requestData.pagination.rootProperty list) requestData requests =
        some (.ok responseData) ∧
      cutToMaxResults requestData responseData = expectedResults requestData list

variable {requestData : ResultOptions α} {list : List α}

theorem foldl_runPostReceiveAction (actions : List (PostReceiveFilter α)) (inputData : List (INodeExecutionData α)) :
    actions.foldl (fun returnData action => runPostReceiveAction action returnData) inputData =
      inputData.filter fun item => actions.all fun action => action.pass item.json := by
  induction actions generalizing inputData with
  | nil => simp
  | cons action actions ih =>
    rw [List.foldl_cons, ih, runPostReceiveAction, List.filter_filter]
    simp only [List.all_cons, Bool.and_comm]

theorem foldl_postReceive (postReceive : List (PostReceive α)) (inputData : List (INodeExecutionData α)) :
    postReceive.foldl (fun returnData postReceiveMethod =>
        postReceiveMethod.actions.foldl (fun returnData action => runPostReceiveAction action returnData)
          returnData) inputData =
      inputData.filter fun item => postReceive.all fun postReceiveMethod =>
        postReceiveMethod.actions.all fun action => action.pass item.json := by
  induction postReceive generalizing inputData with
  | nil => simp
  | cons postReceiveMethod postReceive ih =>
    rw [List.foldl_cons, foldl_runPostReceiveAction, ih, List.filter_filter]
    simp only [List.all_cons, Bool.and_comm]

theorem postProcessResponseData_filters (filters : requestData.postReceive ≠ []) (body : Json α) :
    postProcessResponseData requestData body = if requestData.passes body then [{ json := body }] else [] := by
  unfold postProcessResponseData
  rw [if_neg (by simpa using filters), foldl_postReceive, List.filter_singleton, Bool.cond_eq_ite]
  rfl

def pageAt (requestData : ResultOptions α) (list : List α) (offset : Nat) : List α :=
  (list.drop offset).take (requestData.limitResults.elim requestData.pagination.pageSize fun maxResults =>
    min requestData.pagination.pageSize (maxResults - offset))

def bodyAt (requestData : ResultOptions α) (list : List α) (offset : Nat) : Json α :=
  requestData.pagination.rootProperty.elim (.array (pageAt requestData list offset)) fun property =>
    .object property (pageAt requestData list offset)

def BringsPage (requestData : ResultOptions α) (list : List α) (offset : Nat) : Prop :=
  tempResponse requestData (bodyAt requestData list offset) = .ok (itemsOf (pageAt requestData list offset))

theorem bringsPage_of_no_filters (none : requestData.postReceive = []) (offset : Nat) :
    BringsPage requestData list offset := by
  cases root : requestData.pagination.rootProperty <;>
    simp [BringsPage, tempResponse, bodyAt, postProcessResponseData, none, root, itemsOf, Json.get]

theorem tempResponse_filters (filters : requestData.postReceive ≠ []) {property : String}
    (root : requestData.pagination.rootProperty = some property) (offset : Nat) :
    tempResponse requestData (bodyAt requestData list offset) =
      if requestData.passes (bodyAt requestData list offset) then .ok (itemsOf (pageAt requestData list offset))
      else .error .typeError := by
  unfold tempResponse
  rw [postProcessResponseData_filters filters, root]
  by_cases passes : requestData.passes (bodyAt requestData list offset)
  · rw [if_pos passes, if_pos passes]
    simp only [bodyAt, root, Option.elim_some, Json.get, if_true, itemsOf]
  · rw [if_neg passes, if_neg passes]

def pagesBefore (list : List α) (offset : Nat) : Pages α := ⟨offset, itemsOf (list.take offset)⟩

/-- The request at the offset is made, when all before it brought whole pages. -/
def Requested (requestData : ResultOptions α) (list : List α) (offset : Nat) : Prop :=
  offset ≤ list.length ∧ ∀ maxResults, requestData.limitResults = some maxResults → offset < maxResults

def Whole (requestData : ResultOptions α) (list : List α) (offset : Nat) : Prop :=
  offset + requestData.pagination.pageSize ≤ list.length ∧
    ∀ maxResults, requestData.limitResults = some maxResults →
      offset + requestData.pagination.pageSize ≤ maxResults

abbrev requestAt (requestData : ResultOptions α) (list : List α) (offset : Nat) :=
  requestPage (listServer requestData.pagination.rootProperty list) requestData (pagesBefore list offset)

theorem length_itemsOf (list : List α) : (itemsOf list).length = list.length := List.length_map _

theorem requestAt_enough {offset : Nat} (inside : offset ≤ list.length)
    (enough : requestData.limitResults = some offset) :
    requestAt requestData list offset = .inr (.ok (itemsOf (list.take offset))) := by
  simp [requestPage, enough, pagesBefore, length_itemsOf, inside]

theorem requestAt_requested {offset : Nat} (requested : Requested requestData list offset) :
    requestAt requestData list offset =
      match tempResponse requestData (bodyAt requestData list offset) with
      | .error error => .inr (.error error)
      | .ok tempResponseData =>
        if tempResponseData.length ≠ 0 ∧ tempResponseData.length = requestData.pagination.pageSize then
          .inl ⟨offset + requestData.pagination.pageSize, itemsOf (list.take offset) ++ tempResponseData⟩
        else .inr (.ok (itemsOf (list.take offset) ++ tempResponseData)) := by
  obtain ⟨inside, more⟩ := requested
  have length : (pagesBefore list offset).responseData.length = offset := by
    rw [pagesBefore, length_itemsOf, List.length_take, min_eq_left inside]
  have missing : (requestData.limitResults.any fun maxResults =>
      maxResults ≤ (pagesBefore list offset).responseData.length) = false := by
    rw [length]
    cases limit : requestData.limitResults with
    | none => rfl
    | some maxResults => simpa using more maxResults limit
  unfold requestAt requestPage
  rw [missing, length]
  rfl

theorem itemsOf_append (first second : List α) : itemsOf (first ++ second) = itemsOf first ++ itemsOf second :=
  List.map_append

theorem take_append_page {offset limit : Nat} : list.take offset ++ (list.drop offset).take limit =
    list.take (offset + limit) := List.take_add.symm

theorem pageAt_whole {offset : Nat} (whole : Whole requestData list offset) :
    pageAt requestData list offset = (list.drop offset).take requestData.pagination.pageSize := by
  rw [pageAt]
  cases limit : requestData.limitResults with
  | none => rfl
  | some maxResults =>
    have bound := whole.2 maxResults limit
    rw [Option.elim_some, min_eq_left (by omega)]

theorem requestAt_whole {offset : Nat} (positive : 1 ≤ requestData.pagination.pageSize)
    (brings : BringsPage requestData list offset) (whole : Whole requestData list offset) :
    requestAt requestData list offset = .inl (pagesBefore list (offset + requestData.pagination.pageSize)) := by
  have requested : Requested requestData list offset :=
    ⟨by have := whole.1; omega, fun maxResults limit => by have := whole.2 maxResults limit; omega⟩
  have page := pageAt_whole whole
  have length : (itemsOf (pageAt requestData list offset)).length = requestData.pagination.pageSize := by
    have bound := whole.1
    rw [length_itemsOf, page, List.length_take, List.length_drop]
    omega
  rw [requestAt_requested requested, brings]
  dsimp only
  rw [if_pos ⟨by omega, length⟩, ← itemsOf_append, page, take_append_page]
  rfl

/-- The page that is not whole ends where the list or the results end. -/
theorem take_pageAt_short {offset : Nat} (requested : Requested requestData list offset)
    (short : ¬ Whole requestData list offset) :
    list.take offset ++ pageAt requestData list offset =
        (requestData.limitResults.elim list fun maxResults => list.take maxResults) ∧
      (pageAt requestData list offset).length < requestData.pagination.pageSize := by
  obtain ⟨inside, more⟩ := requested
  rw [pageAt, take_append_page, List.length_take, List.length_drop]
  cases limit : requestData.limitResults with
  | none =>
    have beyond : list.length < offset + requestData.pagination.pageSize := by
      by_contra within
      exact short ⟨Nat.le_of_not_lt within, by simp [limit]⟩
    exact ⟨List.take_of_length_le (Nat.le_of_lt beyond), by simp only [Option.elim_none]; omega⟩
  | some maxResults =>
    have before := more maxResults limit
    have beyond : list.length < offset + requestData.pagination.pageSize ∨
        maxResults < offset + requestData.pagination.pageSize := by
      by_contra within
      rw [not_or, Nat.not_lt, Nat.not_lt] at within
      refine short ⟨within.1, fun other same => ?_⟩
      rw [limit] at same
      exact Option.some.inj same ▸ within.2
    simp only [Option.elim_some]
    by_cases cut : maxResults < offset + requestData.pagination.pageSize
    · have remaining : min requestData.pagination.pageSize (maxResults - offset) = maxResults - offset := by omega
      rw [remaining, Nat.add_sub_cancel' (Nat.le_of_lt before)]
      exact ⟨rfl, by omega⟩
    · have ended : list.length < offset + requestData.pagination.pageSize := beyond.resolve_right cut
      have remaining : min requestData.pagination.pageSize (maxResults - offset) = requestData.pagination.pageSize := by
        omega
      rw [remaining, List.take_of_length_le (Nat.le_of_lt ended), List.take_of_length_le (by omega)]
      exact ⟨rfl, by omega⟩

theorem requestAt_last {offset : Nat} (requested : Requested requestData list offset)
    (brings : BringsPage requestData list offset) (short : ¬ Whole requestData list offset) :
    requestAt requestData list offset =
      .inr (.ok (itemsOf (requestData.limitResults.elim list fun maxResults => list.take maxResults))) := by
  obtain ⟨all, fewer⟩ := take_pageAt_short requested short
  rw [requestAt_requested requested, brings]
  dsimp only
  rw [length_itemsOf, if_neg (fun whole => Nat.ne_of_lt fewer whole.2), ← itemsOf_append, all]

/-- What the loop ends with when every response brings its page. -/
def wholeResults (requestData : ResultOptions α) (list : List α) : List (INodeExecutionData α) :=
  itemsOf (requestData.limitResults.elim list fun maxResults => list.take maxResults)

abbrev EndsFrom (requestData : ResultOptions α) (list : List α) (offset : Nat)
    (result : Except RoutingError (List (INodeExecutionData α))) : Prop :=
  Ends (requestPage (listServer requestData.pagination.rootProperty list) requestData) (pagesBefore list offset) result

theorem ends_whole (positive : 1 ≤ requestData.pagination.pageSize) {offset : Nat}
    (inside : offset ≤ list.length)
    (limit : ∀ maxResults, requestData.limitResults = some maxResults → offset ≤ maxResults)
    (brings : ∀ later pages, later = offset + pages * requestData.pagination.pageSize →
      Requested requestData list later → BringsPage requestData list later) :
    EndsFrom requestData list offset (.ok (wholeResults requestData list)) := by
  induction remaining : list.length - offset using Nat.strong_induction_on generalizing offset with
  | _ remaining ih =>
    by_cases enough : requestData.limitResults = some offset
    · rw [EndsFrom, ends_of_inr (requestAt_enough inside enough), wholeResults, enough]
      rfl
    have requested : Requested requestData list offset := by
      refine ⟨inside, fun maxResults same => lt_of_le_of_ne (limit maxResults same) ?_⟩
      rintro rfl
      exact enough same
    have here := brings offset 0 (by omega) requested
    by_cases whole : Whole requestData list offset
    · rw [EndsFrom, ends_of_inl (requestAt_whole positive here whole)]
      have bound := whole.1
      refine ih _ ?_ bound whole.2 (fun later pages at_later => ?_) rfl
      · omega
      · exact brings later (pages + 1) (by rw [at_later, Nat.add_mul]; omega)
    · rw [EndsFrom, ends_of_inr (requestAt_last requested here whole)]
      rfl

theorem returns_iff : ReturnsWholeList requestData list ↔ ∃ responseData,
    EndsFrom requestData list 0 (.ok responseData) ∧
      cutToMaxResults requestData responseData = expectedResults requestData list := by
  constructor
  · rintro ⟨requests, responseData, ended, same⟩
    exact ⟨responseData, ⟨requests, ended⟩, same⟩
  · rintro ⟨responseData, ⟨requests, ended⟩, same⟩
    exact ⟨requests, responseData, ended, same⟩

theorem returns_iff_of_ends {responseData : List (INodeExecutionData α)}
    (ended : EndsFrom requestData list 0 (.ok responseData)) : ReturnsWholeList requestData list ↔
      cutToMaxResults requestData responseData = expectedResults requestData list := by
  rw [returns_iff]
  refine ⟨?_, fun same => ⟨responseData, ended, same⟩⟩
  rintro ⟨other, also_ended, same⟩
  cases ended.unique also_ended
  exact same

theorem requested_zero : Requested requestData list 0 := by
  refine ⟨Nat.zero_le _, fun maxResults limit => ?_⟩
  have nonzero := (Option.filter_eq_some_iff.1 limit).2
  exact Nat.pos_of_ne_zero (of_decide_eq_true nonzero)

theorem itemsOf_inj {first second : List α} : itemsOf first = itemsOf second ↔ first = second := by
  refine List.map_inj_right fun item other same => ?_
  cases same
  rfl

theorem limitResults_zero (zero : requestData.maxResults = some 0) : requestData.limitResults = none := by
  rw [ResultOptions.limitResults, zero]
  rfl

theorem limitResults_of_ne (nonzero : requestData.maxResults ≠ some 0) :
    requestData.limitResults = requestData.maxResults := by
  rw [ResultOptions.limitResults]
  cases limit : requestData.maxResults with
  | none => rfl
  | some maxResults =>
    have positive : maxResults ≠ 0 := fun zero => nonzero (by rw [limit, zero])
    simp [Option.filter, positive]

theorem cut_whole : cutToMaxResults requestData (wholeResults requestData list) = wholeResults requestData list := by
  rw [cutToMaxResults, wholeResults]
  cases requestData.limitResults with
  | none => rfl
  | some maxResults =>
    rw [Option.elim_some, Option.elim_some, itemsOf, ← List.map_take, List.take_take, min_self]

theorem take_filter_eq {p : α → Bool} {count : Nat} :
    list.take count = (list.filter p).take count ↔ ∀ item ∈ list.take count, p item = true := by
  constructor
  · intro same item member
    rw [same] at member
    exact List.of_mem_filter (List.mem_of_mem_take member)
  · intro all
    induction list generalizing count with
    | nil => rfl
    | cons first list ih =>
      cases count with
      | zero => rfl
      | succ count =>
        rw [List.take_succ_cons, List.forall_mem_cons] at all
        rw [List.filter_cons_of_pos all.1, List.take_succ_cons, List.take_succ_cons, ← ih all.2]

theorem whole_eq_expected_iff : wholeResults requestData list = expectedResults requestData list ↔
    (requestData.maxResults = some 0 → list = []) ∧
      ∀ item ∈ requestData.firstResults list, requestData.passes (.item item) = true := by
  rw [wholeResults, expectedResults, itemsOf_inj]
  by_cases zero : requestData.maxResults = some 0
  · simp [limitResults_zero zero, ResultOptions.firstResults, zero]
  · rw [limitResults_of_ne zero, and_iff_right (absurd · zero), ResultOptions.firstResults]
    cases limit : requestData.maxResults with
    | none =>
      rw [Option.elim_none, ResultOptions.firstResults, limit, @eq_comm _ list]
      exact List.filter_eq_self
    | some maxResults =>
      rw [ResultOptions.firstResults, limit]
      exact take_filter_eq

theorem requested_pass (positive : 1 ≤ requestData.pagination.pageSize) (filters : requestData.postReceive ≠ [])
    {property : String} (root : requestData.pagination.rootProperty = some property)
    {responseData : List (INodeExecutionData α)} (ended : EndsFrom requestData list 0 (.ok responseData))
    (pages : Nat) (requested : Requested requestData list (pages * requestData.pagination.pageSize)) :
    requestData.passes (bodyAt requestData list (pages * requestData.pagination.pageSize)) = true := by
  -- A response that does not pass ends the loop with an error.
  have passes_at (offset : Nat) (requested : Requested requestData list offset)
      (here : EndsFrom requestData list offset (.ok responseData)) :
      requestData.passes (bodyAt requestData list offset) = true := by
    by_contra dropped
    have step := requestAt_requested requested
    rw [tempResponse_filters filters root, if_neg dropped] at step
    cases (ends_of_inr step).1 here
  have reached (pages : Nat) (requested : Requested requestData list (pages * requestData.pagination.pageSize)) :
      EndsFrom requestData list (pages * requestData.pagination.pageSize) (.ok responseData) := by
    induction pages with
    | zero => rwa [Nat.zero_mul]
    | succ pages ih =>
      rw [Nat.succ_mul] at requested ⊢
      have whole : Whole requestData list (pages * requestData.pagination.pageSize) :=
        ⟨requested.1, fun maxResults limit => Nat.le_of_lt (requested.2 maxResults limit)⟩
      have before : Requested requestData list (pages * requestData.pagination.pageSize) :=
        ⟨by have := whole.1; omega, fun maxResults limit => by have := whole.2 maxResults limit; omega⟩
      have here := ih before
      have brings : BringsPage requestData list (pages * requestData.pagination.pageSize) := by
        rw [BringsPage, tempResponse_filters filters root, if_pos (passes_at _ before here)]
      exact (ends_of_inl (requestAt_whole positive brings whole)).1 here
  exact passes_at _ requested (reached pages requested)

theorem tempResponse_body (filters : requestData.postReceive ≠ [])
    (root : requestData.pagination.rootProperty = none) (body : Json α) :
    tempResponse requestData body = .ok (if requestData.passes body then [{ json := body }] else []) := by
  unfold tempResponse
  rw [postProcessResponseData_filters filters, root]

theorem requestPage_grows (server : Server α) (pages : Pages α) :
    (∀ next, requestPage server requestData pages = .inl next →
        ∃ more, next.responseData = pages.responseData ++ more) ∧
      ∀ responseData, requestPage server requestData pages = .inr (.ok responseData) →
        ∃ more, responseData = pages.responseData ++ more := by
  unfold requestPage
  dsimp only
  split
  · exact ⟨fun _ => nofun, by rintro _ ⟨⟩; exact ⟨[], (List.append_nil _).symm⟩⟩
  split
  · exact ⟨fun _ => nofun, fun _ => nofun⟩
  split
  · exact ⟨by rintro _ ⟨⟩; exact ⟨_, rfl⟩, fun _ => nofun⟩
  · exact ⟨fun _ => nofun, by rintro _ ⟨⟩; exact ⟨_, rfl⟩⟩

theorem body_first (filters : requestData.postReceive ≠ [])
    (root : requestData.pagination.rootProperty = none)
    (passes : requestData.passes (bodyAt requestData list 0) = true)
    {responseData : List (INodeExecutionData α)} (ended : EndsFrom requestData list 0 (.ok responseData)) :
    responseData.head? = some { json := bodyAt requestData list 0 } := by
  have step := requestAt_requested (@requested_zero _ requestData list)
  rw [tempResponse_body filters root, if_pos passes] at step
  dsimp only at step
  split at step
  · refine ((ends_of_inl step).1 ended).of_invariant
      (I := fun pages => pages.responseData.head? = some { json := bodyAt requestData list 0 })
      (Q := fun result => ∀ responseData, result = .ok responseData →
        responseData.head? = some { json := bodyAt requestData list 0 }) ?_ ?_ rfl responseData rfl
    · intro pages next here again
      obtain ⟨more, grown⟩ := (requestPage_grows _ pages).1 next again
      rw [grown, List.head?_append, here, Option.some_or]
    · rintro pages result here last responseData rfl
      obtain ⟨more, grown⟩ := (requestPage_grows _ pages).2 responseData last
      rw [grown, List.head?_append, here, Option.some_or]
  · cases (ends_of_inr step).1 ended
    rfl

theorem returns_body_iff (filters : requestData.postReceive ≠ [])
    (root : requestData.pagination.rootProperty = none) : ReturnsWholeList requestData list ↔
      requestData.passes (bodyAt requestData list 0) = false ∧
        (requestData.maxResults = some 0 ∨ ∀ item ∈ list, requestData.passes (.item item) = false) := by
  cases passes : requestData.passes (bodyAt requestData list 0) with
  | true =>
    refine iff_of_false (fun returns => ?_) (fun dropped => absurd dropped.1 (by simp))
    obtain ⟨responseData, ended, same⟩ := returns_iff.1 returns
    have first := body_first filters root passes ended
    have kept : (cutToMaxResults requestData responseData).head? = some { json := bodyAt requestData list 0 } := by
      rw [cutToMaxResults]
      cases limit : requestData.limitResults with
      | none => exact first
      | some maxResults =>
        have positive := (@requested_zero _ requestData list).2 maxResults limit
        rw [Option.elim_some, List.head?_take, if_neg (Nat.ne_of_gt positive), first]
    rw [same] at kept
    obtain ⟨item, _, is_item⟩ := List.mem_map.1 (List.mem_of_mem_head? kept)
    simp [bodyAt, root] at is_item
  | false =>
    have step := requestAt_requested (@requested_zero _ requestData list)
    rw [tempResponse_body filters root, if_neg (by simp [passes])] at step
    have ended : EndsFrom requestData list 0 (.ok []) := (ends_of_inr step).2 rfl
    have nothing : cutToMaxResults requestData ([] : List (INodeExecutionData α)) = [] := by
      rw [cutToMaxResults]
      cases requestData.limitResults <;> simp
    rw [returns_iff_of_ends ended, nothing, @eq_comm _ [], expectedResults, itemsOf, List.map_eq_nil_iff,
      ResultOptions.firstResults]
    cases requestData.maxResults <;> simp

/-- The filters, which are run on whole responses, make no difference: there are none, or the first response is
dropped like all items of the list, or it is the responses under a root property that pass, and so do the
items that are asked for. -/
def FiltersHarmless (requestData : ResultOptions α) (list : List α) : Prop :=
  if requestData.postReceive.isEmpty then requestData.maxResults = some 0 → list = []
  else
    match requestData.pagination.rootProperty with
    | none => requestData.passes (bodyAt requestData list 0) = false ∧
        (requestData.maxResults = some 0 ∨ ∀ item ∈ list, requestData.passes (.item item) = false)
    | some _ =>
      (∀ pages, Requested requestData list (pages * requestData.pagination.pageSize) →
          requestData.passes (bodyAt requestData list (pages * requestData.pagination.pageSize)) = true) ∧
        (requestData.maxResults = some 0 → list = []) ∧
        ∀ item ∈ requestData.firstResults list, requestData.passes (.item item) = true

theorem returnsWholeList_iff (requestData : ResultOptions α) (list : List α)
    (positive : 1 ≤ requestData.pagination.pageSize) :
    ReturnsWholeList requestData list ↔ FiltersHarmless requestData list := by
  have within : ∀ maxResults, requestData.limitResults = some maxResults → 0 ≤ maxResults := fun _ _ => Nat.zero_le _
  rw [FiltersHarmless]
  by_cases empty : requestData.postReceive = []
  · rw [if_pos (by rw [empty]; rfl)]
    have ended := ends_whole positive (Nat.zero_le list.length) within
      fun later _ _ _ => bringsPage_of_no_filters empty later
    rw [returns_iff_of_ends ended, cut_whole, whole_eq_expected_iff]
    exact and_iff_left fun item _ => by simp [ResultOptions.passes, empty]
  rw [if_neg (by simpa using empty)]
  cases root : requestData.pagination.rootProperty with
  | none => exact returns_body_iff empty root
  | some property =>
    have whole_ended (pass : ∀ pages, Requested requestData list (pages * requestData.pagination.pageSize) →
        requestData.passes (bodyAt requestData list (pages * requestData.pagination.pageSize)) = true) :
        EndsFrom requestData list 0 (.ok (wholeResults requestData list)) :=
      ends_whole positive (Nat.zero_le list.length) within fun later pages at_later requested => by
        rw [Nat.zero_add] at at_later
        rw [at_later] at requested ⊢
        rw [BringsPage, tempResponse_filters empty root, if_pos (pass pages requested)]
    rw [← whole_eq_expected_iff]
    constructor
    · intro returns
      obtain ⟨responseData, ended, -⟩ := returns_iff.1 returns
      have pass := requested_pass positive empty root ended
      rw [returns_iff_of_ends (whole_ended pass), cut_whole] at returns
      exact ⟨pass, returns⟩
    · rintro ⟨pass, same⟩
      rwa [returns_iff_of_ends (whole_ended pass), cut_whole]

/-- Five items under `items`, of which three are asked for in pages of two. -/
theorem returnsWholeList_pages :
    let requestData : ResultOptions Nat := { pagination := ⟨2, some "items"⟩, maxResults := some 3 }
    (ReturnsWholeList requestData [1, 2, 3, 4, 5] ↔ FiltersHarmless requestData [1, 2, 3, 4, 5]) ∧
      FiltersHarmless requestData [1, 2, 3, 4, 5] :=
  ⟨returnsWholeList_iff _ _ (by decide), by simp [FiltersHarmless]⟩

def evenItems : PostReceive Nat where
  actions := [{ pass := fun
    | .item content => content % 2 == 0
    | .array _ | .object _ _ => false }]

/-- The filter drops the page of an even item. -/
theorem evenItems_not_returned :
    ¬ ReturnsWholeList { pagination := ⟨2, none⟩, postReceive := [evenItems] } [1, 2, 3] := by
  rw [returns_body_iff (by simp) rfl]
  rintro ⟨_, zero | none⟩
  · cases zero
  · exact absurd (none 2 (by decide)) (by decide)

end NodeAutomation.RoutingNode
