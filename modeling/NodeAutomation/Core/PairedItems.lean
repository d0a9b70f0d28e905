import Mathlib.Logic.Relation
import NodeAutomation.Core.ErrorOutput

/-! What `getPairedItem` (`packages/workflow/src/workflow-data-proxy.ts`) comes to, against the
branches by which an item goes back to the items of an earlier node. -/

namespace NodeAutomation.ErrorOutput

/-- A source record and a paired item, as `getPairedItem` is called with. -/
abbrev PairedCall := Option ISourceData × IPairedItemData

def PairedCall.source (call : PairedCall) : Option ISourceData := call.2.sourceOverwrite.or call.1

section

variable (that : WorkflowDataProxy) (destinationNodeName : String)

def pairedItemOf (call : PairedCall) : Option StoredItem :=
  call.source.bind fun source => (getNodeOutput (getTaskData that source) source).toOption.bind (·[call.2.item]?)

def callsOf (source : ISourceData) (item : StoredItem) : List PairedCall :=
  let sourceArray := (getTaskData that source).elim [] ITaskData.source
  let reachable := (normalizePairedItem item.item.pairedItem).filter fun nextPairedItem =>
    nextPairedItem.input.getD 0 < sourceArray.length
  reachable.map fun nextPairedItem =>
    let inputIndex := nextPairedItem.input.getD 0
    (nextPairedItem.sourceOverwrite.or (Slot.at_ sourceArray inputIndex).value?,
      { nextPairedItem with input := some inputIndex })

/-- A call makes another one unless it has come to the destination node. -/
def Makes (call next : PairedCall) : Prop :=
  ∃ source item, call.source = some source ∧ source.previousNode ≠ destinationNodeName ∧
    pairedItemOf that call = some item ∧ next ∈ callsOf that source item

inductive Leads : PairedCall → Nat → Prop where
  | here {call : PairedCall} {source : ISourceData} {item : StoredItem} (reaches : call.source = some source)
      (destination : source.previousNode = destinationNodeName) (found : pairedItemOf that call = some item) :
      Leads call item.ref
  | next {call next : PairedCall} {ref : Nat} (makes : Makes that destinationNodeName call next)
      (leads : Leads next ref) : Leads call ref

def LeadsTo (call : PairedCall) (ref : Nat) : Prop := ∀ other, Leads that destinationNodeName call other ↔ other = ref

def Diverges (call : PairedCall) : Prop :=
  ∃ first second, Leads that destinationNodeName call first ∧ Leads that destinationNodeName call second ∧ first ≠ second

/-- All but a `TypeError` and the `RangeError` of a stack that overflows. -/
def PairedItemError.isExpressionError : PairedItemError → Bool
  | .pairedItemNotFound | .missingOutput | .missingPairedItem | .multipleItemsFound => true
  | .typeError | .rangeError => false

/-- The call returns the one item that its branches lead to, or throws an `ExpressionError` when there
is no such item. -/
def ResolvesOn (stack : Nat) (call : PairedCall) : Prop :=
  (∃ item, getPairedItem that destinationNodeName stack call.1 call.2 = .ok item ∧
    LeadsTo that destinationNodeName call item.ref) ∨
  ((¬ ∃ ref, LeadsTo that destinationNodeName call ref) ∧
    ∃ error, getPairedItem that destinationNodeName stack call.1 call.2 = .error error ∧ error.isExpressionError)

/-- On every stack that is deep enough. -/
def Resolves (call : PairedCall) : Prop := ∃ depth, ∀ stack ≥ depth, ResolvesOn that destinationNodeName stack call

/-- Branches behind one link lead to different items, and the links that lead to one item each agree. -/
def Swallows (calls : List PairedCall) : Prop :=
  (∃ next ∈ calls, Diverges that destinationNodeName next) ∧
    ∃ ref, (∃ next ∈ calls, LeadsTo that destinationNodeName next ref) ∧
      ∀ next ∈ calls, ∀ other, LeadsTo that destinationNodeName next other → other = ref

/-- On the way to the destination node the item is there, has a link that can be followed if it has
any, and its links do not hide that branches diverge. -/
def Linked (call : PairedCall) : Prop :=
  ∀ source outputData, call.source = some source → source.previousNode ≠ destinationNodeName →
    getNodeOutput (getTaskData that source) source = .ok outputData →
    ∃ item, outputData[call.2.item]? = some item ∧
      (normalizePairedItem item.item.pairedItem ≠ [] → callsOf that source item ≠ []) ∧
      ¬ Swallows that destinationNodeName (callsOf that source item)

abbrev Reaches : PairedCall → PairedCall → Prop := Relation.ReflTransGen (Makes that destinationNodeName)

/-- Sources, those that overwrite others too, refer to runs that were executed earlier. -/
def EarlierBy (executionIndex : String → Nat → Nat) : Prop :=
  ∀ node runs run task, that.runData.get node = some runs → runs[run]? = some task →
    (∀ source, Slot.value source ∈ task.source →
      executionIndex source.previousNode (source.previousNodeRun.getD 0) < executionIndex node run) ∧
    ∀ outputs ∈ task.main, ∀ outputData, some outputData ∈ outputs → ∀ item ∈ outputData,
      ∀ paired ∈ normalizePairedItem item.item.pairedItem, ∀ source ∈ paired.sourceOverwrite,
        executionIndex source.previousNode (source.previousNodeRun.getD 0) < executionIndex node run

def RefersToEarlier : Prop := ∃ executionIndex, EarlierBy that executionIndex

end

variable {that : WorkflowDataProxy} {destinationNodeName : String} {call next : PairedCall} {source : ISourceData}
variable {item : StoredItem} {outputData : List StoredItem} {stack ref : Nat}

section

variable {results : List (Except PairedItemError StoredItem)}

theorem mem_filterMap_toOption {item : StoredItem} : item ∈ results.filterMap Except.toOption ↔ .ok item ∈ results := by
  rw [List.mem_filterMap]
  constructor
  · rintro ⟨result, member, here⟩
    cases result with
    | error error => cases here
    | ok known =>
      cases here
      exact member
  · exact fun member => ⟨_, member, rfl⟩

theorem matchedItem_of_errors (some : results ≠ [])
    (errors : ∀ result ∈ results, ∃ error : PairedItemError, result = .error error ∧ error.isExpressionError) :
    ∃ error, matchedItem results = .error error ∧ error.isExpressionError := by
  have none : results.filterMap Except.toOption = [] := by
    refine List.filterMap_eq_nil_iff.2 fun result member => ?_
    obtain ⟨error, rfl, -⟩ := errors result member
    rfl
  unfold matchedItem
  rw [none]
  cases results with
  | nil => exact absurd rfl some
  | cons first rest =>
    obtain ⟨error, rfl, isExpression⟩ := errors first List.mem_cons_self
    exact ⟨error, rfl, isExpression⟩

theorem matchedItem_of_agree {known : StoredItem} (member : .ok known ∈ results)
    (agree : ∀ other, .ok other ∈ results → other.ref = ref) :
    ∃ item, .ok item ∈ results ∧ matchedItem results = .ok item := by
  unfold matchedItem
  cases matched : results.filterMap Except.toOption with
  | nil =>
    have never := mem_filterMap_toOption.2 member
    rw [matched] at never
    exact absurd never List.not_mem_nil
  | cons first rest =>
    have among (other : StoredItem) (listed : other ∈ first :: rest) : .ok other ∈ results :=
      mem_filterMap_toOption.1 (matched ▸ listed)
    have same : (rest.any fun item => item.ref ≠ first.ref) = false := by
      refine List.any_eq_false.2 fun other listed => ?_
      rw [agree other (among other (List.mem_cons_of_mem _ listed)), agree first (among first List.mem_cons_self)]
      simp
    refine ⟨first, among first List.mem_cons_self, ?_⟩
    simp only [same]
    rfl

theorem matchedItem_of_differ {first second : StoredItem} (member : .ok first ∈ results) (member' : .ok second ∈ results)
    (apart : first.ref ≠ second.ref) : matchedItem results = .error .multipleItemsFound := by
  rw [← mem_filterMap_toOption] at member member'
  unfold matchedItem
  cases matched : results.filterMap Except.toOption with
  | nil =>
    rw [matched] at member
    exact absurd member List.not_mem_nil
  | cons head rest =>
    rw [matched] at member member'
    have differ : (rest.any fun item => item.ref ≠ head.ref) = true := by
      by_contra same
      have all : ∀ item ∈ head :: rest, item.ref = head.ref := by
        intro item listed
        rcases List.mem_cons.1 listed with rfl | later
        · rfl
        · by_contra unlike
          exact same (List.any_eq_true.2 ⟨item, later, decide_eq_true unlike⟩)
      exact apart ((all first member).trans (all second member').symm)
    simp only [differ]
    rfl

end

theorem pairedItemOf_eq (reaches : call.source = some source)
    (output : getNodeOutput (getTaskData that source) source = .ok outputData) :
    pairedItemOf that call = outputData[call.2.item]? := by
  rw [pairedItemOf, reaches, Option.bind_some, output]
  rfl

theorem getPairedItem_unknown (unknown : call.source = none) :
    getPairedItem that destinationNodeName (stack + 1) call.1 call.2 = .error .pairedItemNotFound := by
  rw [PairedCall.source] at unknown
  rw [getPairedItem, unknown]

section

variable (reaches : call.source = some source)
include reaches

theorem getPairedItem_noOutput {error : PairedItemError}
    (output : getNodeOutput (getTaskData that source) source = .error error) :
    getPairedItem that destinationNodeName (stack + 1) call.1 call.2 = .error error := by
  rw [PairedCall.source] at reaches
  rw [getPairedItem, reaches]
  simp only [output]

section

variable (output : getNodeOutput (getTaskData that source) source = .ok outputData)
include output

theorem getPairedItem_destination
    (destination : source.previousNode = destinationNodeName) :
    getPairedItem that destinationNodeName (stack + 1) call.1 call.2 =
      outputData[call.2.item]?.elim (.error .missingPairedItem) .ok := by
  rw [PairedCall.source] at reaches
  rw [getPairedItem, reaches]
  simp only [output, if_pos destination]
  cases outputData[call.2.item]? with
  | none => rfl
  | some item => rfl

theorem getPairedItem_dangling
    (away : source.previousNode ≠ destinationNodeName) (missing : outputData[call.2.item]? = none) :
    getPairedItem that destinationNodeName (stack + 1) call.1 call.2 = .error .typeError := by
  rw [PairedCall.source] at reaches
  rw [getPairedItem, reaches]
  simp only [output, if_neg away, missing]

theorem getPairedItem_unpaired
    (away : source.previousNode ≠ destinationNodeName) (found : outputData[call.2.item]? = some item)
    (unpaired : normalizePairedItem item.item.pairedItem = []) :
    getPairedItem that destinationNodeName (stack + 1) call.1 call.2 = .error .missingPairedItem := by
  rw [PairedCall.source] at reaches
  rw [getPairedItem, reaches]
  simp only [output, if_neg away, found, unpaired]
  rfl

theorem getPairedItem_links
    (away : source.previousNode ≠ destinationNodeName) (found : outputData[call.2.item]? = some item)
    (paired : normalizePairedItem item.item.pairedItem ≠ []) :
    getPairedItem that destinationNodeName (stack + 1) call.1 call.2 =
      matchedItem ((callsOf that source item).map fun next =>
        getPairedItem that destinationNodeName stack next.1 next.2) := by
  have linked : (normalizePairedItem item.item.pairedItem).isEmpty = false := by simpa using paired
  rw [PairedCall.source] at reaches
  rw [getPairedItem, reaches]
  simp only [output, if_neg away, found, linked, callsOf, List.map_map]
  rfl

end

end

theorem LeadsTo.leads (h : LeadsTo that destinationNodeName call ref) : Leads that destinationNodeName call ref :=
  (h ref).2 rfl

section

variable (reaches : call.source = some source)
include reaches

theorem leads_destination (destination : source.previousNode = destinationNodeName) :
    Leads that destinationNodeName call ref ↔ ∃ item, pairedItemOf that call = some item ∧ item.ref = ref := by
  constructor
  · intro leads
    cases leads with
    | here reaches' destination' found => exact ⟨_, found, rfl⟩
    | next makes leads =>
      obtain ⟨source', item, reaches', away, -⟩ := makes
      rw [reaches] at reaches'
      exact absurd (Option.some.inj reaches' ▸ destination) away
  · rintro ⟨item, found, rfl⟩
    exact .here reaches destination found

theorem leads_away (away : source.previousNode ≠ destinationNodeName) :
    Leads that destinationNodeName call ref ↔
      ∃ next, Makes that destinationNodeName call next ∧ Leads that destinationNodeName next ref := by
  constructor
  · intro leads
    cases leads with
    | here reaches' destination found =>
      rw [reaches] at reaches'
      exact absurd (Option.some.inj reaches' ▸ destination) away
    | next makes leads => exact ⟨_, makes, leads⟩
  · rintro ⟨next, makes, leads⟩
    exact .next makes leads

theorem makes_iff (away : source.previousNode ≠ destinationNodeName)
    (found : pairedItemOf that call = some item) :
    Makes that destinationNodeName call next ↔ next ∈ callsOf that source item := by
  constructor
  · rintro ⟨source', item', reaches', -, found', member⟩
    rw [reaches, Option.some.injEq] at reaches'
    rw [found, Option.some.injEq] at found'
    rwa [reaches', found']
  · exact fun member => ⟨source, item, reaches, away, found, member⟩

end

theorem not_leads_of_no_item (missing : pairedItemOf that call = none) : ¬ Leads that destinationNodeName call ref := by
  intro leads
  cases leads with
  | here reaches destination found =>
    simp [missing] at found
  | next makes leads =>
    obtain ⟨source, item, -, -, found, -⟩ := makes
    simp [missing] at found

theorem leads_to_of_not_diverges (agrees : ¬ Diverges that destinationNodeName call)
    (leads : Leads that destinationNodeName call ref) : LeadsTo that destinationNodeName call ref := by
  intro other
  constructor
  · intro elsewhere
    by_contra apart
    exact agrees ⟨other, ref, elsewhere, leads, apart⟩
  · rintro rfl
    exact leads

theorem resolves_of_error {error : PairedItemError} (isExpression : error.isExpressionError)
    (throws : ∀ stack, getPairedItem that destinationNodeName (stack + 1) call.1 call.2 = .error error)
    (nowhere : ∀ ref, ¬ Leads that destinationNodeName call ref) : Resolves that destinationNodeName call := by
  refine ⟨1, fun stack deep => .inr ⟨fun leads => ?_, ?_⟩⟩
  · obtain ⟨ref, leadsTo⟩ := leads
    exact nowhere ref leadsTo.leads
  · obtain ⟨below, rfl⟩ := Nat.exists_eq_add_of_le' deep
    exact ⟨error, throws below, isExpression⟩

theorem not_resolves_of_typeError
    (throws : ∀ stack, getPairedItem that destinationNodeName (stack + 1) call.1 call.2 = .error .typeError) :
    ¬ Resolves that destinationNodeName call := by
  rintro ⟨depth, resolves⟩
  rcases resolves (depth + 1) (Nat.le_succ _) with ⟨item, went, -⟩ | ⟨-, error, went, isExpression⟩
  · simp [throws] at went
  · rw [throws] at went
    cases went
    cases isExpression

theorem resolves_destination (reaches : call.source = some source)
    (output : getNodeOutput (getTaskData that source) source = .ok outputData)
    (destination : source.previousNode = destinationNodeName) : Resolves that destinationNodeName call := by
  have went (stack : Nat) : getPairedItem that destinationNodeName (stack + 1) call.1 call.2 =
      outputData[call.2.item]?.elim (.error .missingPairedItem) .ok :=
    getPairedItem_destination reaches output destination
  have item := pairedItemOf_eq reaches output
  cases found : outputData[call.2.item]? with
  | none =>
    rw [found] at item
    have throws (stack : Nat) :
        getPairedItem that destinationNodeName (stack + 1) call.1 call.2 = .error .missingPairedItem := by
      rw [went, found]
      rfl
    exact resolves_of_error rfl throws fun ref => not_leads_of_no_item item
  | some known =>
    refine ⟨1, fun stack deep => .inl ⟨known, ?_, fun other => ?_⟩⟩
    · obtain ⟨below, rfl⟩ := Nat.exists_eq_add_of_le' deep
      rw [went, found]
      rfl
    · rw [leads_destination reaches destination, item, found]
      simp [eq_comm]

theorem common_depth {calls : List PairedCall} (resolve : ∀ next ∈ calls, Resolves that destinationNodeName next) :
    ∃ depth, ∀ next ∈ calls, ∀ stack ≥ depth, ResolvesOn that destinationNodeName stack next := by
  induction calls with
  | nil => exact ⟨0, fun _ never => absurd never List.not_mem_nil⟩
  | cons first calls ih =>
    obtain ⟨depth, here⟩ := resolve first List.mem_cons_self
    obtain ⟨depth', later⟩ := ih fun next member => resolve next (List.mem_cons_of_mem _ member)
    refine ⟨max depth depth', fun next member stack deep => ?_⟩
    rcases List.mem_cons.1 member with rfl | other
    · exact here stack (Nat.le_trans (Nat.le_max_left _ _) deep)
    · exact later next other stack (Nat.le_trans (Nat.le_max_right _ _) deep)

theorem ResolvesOn.returns (h : ResolvesOn that destinationNodeName stack call)
    (leadsTo : LeadsTo that destinationNodeName call ref) :
    ∃ item, getPairedItem that destinationNodeName stack call.1 call.2 = .ok item ∧ item.ref = ref := by
  rcases h with ⟨item, went, same⟩ | ⟨never, -⟩
  · exact ⟨item, went, (leadsTo item.ref).1 same.leads⟩
  · exact absurd ⟨ref, leadsTo⟩ never

theorem ResolvesOn.leadsTo (h : ResolvesOn that destinationNodeName stack call)
    (went : getPairedItem that destinationNodeName stack call.1 call.2 = .ok item) :
    LeadsTo that destinationNodeName call item.ref := by
  rcases h with ⟨known, went', same⟩ | ⟨-, error, went', -⟩
  · rw [went] at went'
    cases went'
    exact same
  · rw [went] at went'
    cases went'

structure Follows (that : WorkflowDataProxy) (destinationNodeName : String) (call : PairedCall)
    (calls : List PairedCall) : Prop where
  some : calls ≠ []
  went : ∀ stack, getPairedItem that destinationNodeName (stack + 1) call.1 call.2 =
    matchedItem (calls.map fun next => getPairedItem that destinationNodeName stack next.1 next.2)
  leads : ∀ ref, Leads that destinationNodeName call ref ↔ ∃ next ∈ calls, Leads that destinationNodeName next ref
  resolve : ∀ next ∈ calls, Resolves that destinationNodeName next

variable {calls : List PairedCall}

section

variable (h : Follows that destinationNodeName call calls)
include h

theorem Follows.returns
    (resolved : ∀ next ∈ calls, ResolvesOn that destinationNodeName stack next)
    (some : ∃ next ∈ calls, LeadsTo that destinationNodeName next ref)
    (agree : ∀ next ∈ calls, ∀ other, LeadsTo that destinationNodeName next other → other = ref) :
    ∃ item, getPairedItem that destinationNodeName (stack + 1) call.1 call.2 = .ok item ∧ item.ref = ref := by
  obtain ⟨next, member, leadsTo⟩ := some
  obtain ⟨known, here, -⟩ := (resolved next member).returns leadsTo
  have same (other : StoredItem) (among : .ok other ∈ calls.map fun next =>
      getPairedItem that destinationNodeName stack next.1 next.2) : other.ref = ref := by
    obtain ⟨next', member', went⟩ := List.mem_map.1 among
    exact agree next' member' other.ref ((resolved next' member').leadsTo went)
  obtain ⟨item, among, matched⟩ := matchedItem_of_agree (List.mem_map.2 ⟨next, member, here⟩) same
  exact ⟨item, (h.went stack).trans matched, same item among⟩

section

variable (here : ∀ next ∈ calls, ResolvesOn that destinationNodeName stack next)
include here

theorem Follows.resolvesOn_agree
    (some : ∃ next ∈ calls, LeadsTo that destinationNodeName next ref)
    (agree : ∀ next ∈ calls, ∀ other, LeadsTo that destinationNodeName next other → other = ref)
    (shows : ¬ Swallows that destinationNodeName calls) :
    ResolvesOn that destinationNodeName (stack + 1) call := by
  left
  obtain ⟨item, went, same⟩ := h.returns here some agree
  refine ⟨item, went, fun other => ?_⟩
  rw [h.leads, same]
  constructor
  · rintro ⟨next, member, leads⟩
    refine agree next member other (leads_to_of_not_diverges (fun diverges => shows ?_) leads)
    exact ⟨⟨next, member, diverges⟩, ref, some, agree⟩
  · rintro rfl
    obtain ⟨known, member, leadsTo⟩ := some
    exact ⟨known, member, leadsTo.leads⟩

theorem Follows.resolvesOn_differ {known next : PairedCall} {other : Nat}
    (member : known ∈ calls) (leadsTo : LeadsTo that destinationNodeName known ref)
    (member' : next ∈ calls) (leadsTo' : LeadsTo that destinationNodeName next other) (apart : other ≠ ref) :
    ResolvesOn that destinationNodeName (stack + 1) call := by
  right
  obtain ⟨first, went, same⟩ := (here known member).returns leadsTo
  obtain ⟨second, went', same'⟩ := (here next member').returns leadsTo'
  refine ⟨fun one => ?_, .multipleItemsFound, (h.went _).trans ?_, rfl⟩
  · obtain ⟨only, leadsToOnly⟩ := one
    have isFirst := (leadsToOnly ref).1 ((h.leads ref).2 ⟨known, member, leadsTo.leads⟩)
    exact apart (((leadsToOnly other).1 ((h.leads other).2 ⟨next, member', leadsTo'.leads⟩)).trans isFirst.symm)
  · refine matchedItem_of_differ (List.mem_map.2 ⟨known, member, went⟩) (List.mem_map.2 ⟨next, member', went'⟩) ?_
    rw [same, same']
    exact fun equal => apart equal.symm

theorem Follows.resolvesOn_nowhere
    (none : ∀ ref, ¬ ∃ next ∈ calls, LeadsTo that destinationNodeName next ref) :
    ResolvesOn that destinationNodeName (stack + 1) call := by
  right
  refine ⟨fun one => ?_, ?_⟩
  · obtain ⟨ref, leadsTo⟩ := one
    obtain ⟨next, member, leads⟩ := (h.leads ref).1 leadsTo.leads
    refine none ref ⟨next, member, fun other => ⟨fun elsewhere => ?_, fun same => same ▸ leads⟩⟩
    exact (leadsTo other).1 ((h.leads other).2 ⟨next, member, elsewhere⟩)
  · have errors : ∀ result ∈ calls.map fun next => getPairedItem that destinationNodeName stack next.1 next.2,
        ∃ error : PairedItemError, result = .error error ∧ error.isExpressionError := by
      intro result among
      obtain ⟨next, member, rfl⟩ := List.mem_map.1 among
      rcases here next member with ⟨item, -, leadsTo⟩ | ⟨-, error, went, isExpression⟩
      · exact absurd ⟨next, member, leadsTo⟩ (none item.ref)
      · exact ⟨error, went, isExpression⟩
    obtain ⟨error, went, isExpression⟩ := matchedItem_of_errors (by simpa using h.some) errors
    exact ⟨error, (h.went _).trans went, isExpression⟩

end

theorem Follows.resolves_iff :
    Resolves that destinationNodeName call ↔ ¬ Swallows that destinationNodeName calls := by
  obtain ⟨depth, resolved⟩ := common_depth h.resolve
  constructor
  · rintro ⟨depth', resolves⟩ ⟨⟨next, member, first, second, leads, leads', apart⟩, ref, some, agree⟩
    let stack := max depth depth'
    obtain ⟨item, went, -⟩ := h.returns
      (fun next member => resolved next member stack (Nat.le_max_left _ _)) some agree
    have leadsTo := (resolves (stack + 1) (Nat.le_trans (Nat.le_max_right _ _) (Nat.le_succ _))).leadsTo went
    have one := (leadsTo first).1 ((h.leads first).2 ⟨next, member, leads⟩)
    exact apart (one.trans ((leadsTo second).1 ((h.leads second).2 ⟨next, member, leads'⟩)).symm)
  · intro shows
    refine ⟨depth + 1, fun stack deep => ?_⟩
    obtain ⟨above, rfl⟩ := Nat.exists_eq_add_of_le deep
    have here (next : PairedCall) (member : next ∈ calls) :
        ResolvesOn that destinationNodeName (depth + above) next := resolved next member _ (Nat.le_add_right _ _)
    rw [show depth + 1 + above = depth + above + 1 by omega]
    by_cases some : ∃ ref, ∃ next ∈ calls, LeadsTo that destinationNodeName next ref
    · obtain ⟨ref, known, member, leadsTo⟩ := some
      by_cases agree : ∀ next ∈ calls, ∀ other, LeadsTo that destinationNodeName next other → other = ref
      · exact h.resolvesOn_agree here ⟨known, member, leadsTo⟩ agree shows
      · simp only [not_forall] at agree
        obtain ⟨next, member', other, leadsTo', apart⟩ := agree
        exact h.resolvesOn_differ here member leadsTo member' leadsTo' apart
    · exact h.resolvesOn_nowhere here (not_exists.1 some)

end

theorem resolves_noSource (none : call.source = none) :
    Resolves that destinationNodeName call ↔ Linked that destinationNodeName call := by
  have nowhere (ref : Nat) : ¬ Leads that destinationNodeName call ref :=
    not_leads_of_no_item (by rw [pairedItemOf, none]; rfl)
  refine ⟨fun _ source _ reaches => ?_, fun _ => resolves_of_error (by rfl)
    (fun stack => getPairedItem_unknown none) nowhere⟩
  simp [none] at reaches

theorem resolves_noOutput {error : PairedItemError} (reaches : call.source = some source)
    (output : getNodeOutput (getTaskData that source) source = .error error) :
    Resolves that destinationNodeName call ↔ Linked that destinationNodeName call := by
  have isExpression : error.isExpressionError := by
    unfold getNodeOutput at output
    split at output
    · cases output
      rfl
    · cases output
  have nowhere (ref : Nat) : ¬ Leads that destinationNodeName call ref :=
    not_leads_of_no_item (by rw [pairedItemOf, reaches, Option.bind_some, output]; rfl)
  refine ⟨fun _ source' _ reaches' _ output' => ?_, fun _ => resolves_of_error isExpression
    (fun stack => getPairedItem_noOutput reaches output) nowhere⟩
  rw [reaches, Option.some.injEq] at reaches'
  rw [← reaches', output] at output'
  cases output'

/-- With an item at hand the call resolves through the calls that the links of the item make. -/
theorem resolves_item {outputData : List StoredItem} {item : StoredItem} (reaches : call.source = some source)
    (output : getNodeOutput (getTaskData that source) source = .ok outputData)
    (destination : source.previousNode ≠ destinationNodeName) (found : outputData[call.2.item]? = some item)
    (resolve : ∀ next, Makes that destinationNodeName call next → Resolves that destinationNodeName next) :
    Resolves that destinationNodeName call ↔
      (normalizePairedItem item.item.pairedItem ≠ [] → callsOf that source item ≠ []) ∧
        ¬ Swallows that destinationNodeName (callsOf that source item) := by
  have itemOf := pairedItemOf_eq reaches output
  rw [found] at itemOf
  have makes (next : PairedCall) :
      Makes that destinationNodeName call next ↔ next ∈ callsOf that source item :=
    makes_iff reaches destination itemOf
  by_cases paired : normalizePairedItem item.item.pairedItem = []
  · have none : callsOf that source item = [] := by
      rw [callsOf, paired]
      rfl
    refine iff_of_true (resolves_of_error (by rfl) (fun stack =>
      getPairedItem_unpaired reaches output destination found paired) fun ref leads => ?_)
      ⟨fun some => absurd paired some, ?_⟩
    · obtain ⟨next, made, -⟩ := (leads_away reaches destination).1 leads
      rw [makes, none] at made
      exact List.not_mem_nil made
    · rintro ⟨⟨next, member, -⟩, -⟩
      rw [none] at member
      exact List.not_mem_nil member
  · have went (stack : Nat) : getPairedItem that destinationNodeName (stack + 1) call.1 call.2 =
      matchedItem ((callsOf that source item).map fun next =>
        getPairedItem that destinationNodeName stack next.1 next.2) :=
      getPairedItem_links reaches output destination found paired
    by_cases none : callsOf that source item = []
    · refine iff_of_false (not_resolves_of_typeError fun stack => ?_) fun linked => linked.1 paired none
      rw [went, none]
      rfl
    · have follows : Follows that destinationNodeName call (callsOf that source item) :=
        { some := none
          went := went
          leads := fun ref => by simp only [leads_away reaches destination, makes]
          resolve := fun next member => resolve next ((makes next).2 member) }
      rw [follows.resolves_iff]
      exact ⟨fun shows => ⟨fun _ => none, shows⟩, fun linked => linked.2⟩

theorem resolves_iff_linked (resolve : ∀ next, Makes that destinationNodeName call next → Resolves that destinationNodeName next) :
    Resolves that destinationNodeName call ↔ Linked that destinationNodeName call := by
  cases reaches : call.source with
  | none => exact resolves_noSource reaches
  | some source =>
    cases output : getNodeOutput (getTaskData that source) source with
    | error error => exact resolves_noOutput reaches output
    | ok outputData =>
      by_cases destination : source.previousNode = destinationNodeName
      · refine ⟨fun _ source' _ reaches' away => ?_, fun _ => resolves_destination reaches output destination⟩
        rw [reaches, Option.some.injEq] at reaches'
        exact absurd (reaches' ▸ destination) away
      · cases found : outputData[call.2.item]? with
        | none =>
          refine iff_of_false (not_resolves_of_typeError fun stack =>
            getPairedItem_dangling reaches output destination found) fun linked => ?_
          obtain ⟨item, here, -⟩ := linked source outputData reaches destination output
          simp [found] at here
        | some item =>
          rw [resolves_item reaches output destination found resolve]
          constructor
          · rintro rest source' outputData' reaches' - output'
            rw [reaches, Option.some.injEq] at reaches'
            rw [← reaches', output, Except.ok.injEq] at output'
            exact ⟨item, output' ▸ found, reaches' ▸ rest⟩
          · intro linked
            obtain ⟨item', here, rest⟩ := linked source outputData reaches destination output
            rw [found, Option.some.injEq] at here
            rwa [here]

theorem value_of_at_ {slots : List (Slot ISourceData)} {index : Nat}
    (here : (Slot.at_ slots index).value? = some source) : Slot.value source ∈ slots := by
  rw [Slot.at_, List.getD_eq_getElem?_getD] at here
  cases found : slots[index]? with
  | none =>
    rw [found] at here
    cases here
  | some slot =>
    rw [found] at here
    cases slot with
    | value known =>
      cases here
      exact List.mem_of_getElem? found
    | hole => cases here
    | null => cases here

theorem task_of_sources {source : ISourceData} (some_ : (getTaskData that source).elim [] ITaskData.source ≠ []) :
    ∃ runs task, that.runData.get source.previousNode = some runs ∧ runs[source.previousNodeRun.getD 0]? = some task ∧
      getTaskData that source = some task := by
  cases ran : (that.runData.get source.previousNode).bind fun runs => runs[source.previousNodeRun.getD 0]? with
  | none =>
    rw [getTaskData, ran, Option.none_or] at some_
    cases pinned : getPinDataIfManualExecution that source.previousNode with
    | none =>
      rw [pinned] at some_
      exact absurd rfl some_
    | some pinData =>
      rw [pinned] at some_
      exact absurd rfl some_
  | some task =>
    obtain ⟨runs, node, run⟩ := Option.bind_eq_some_iff.1 ran
    refine ⟨runs, task, node, run, ?_⟩
    rw [getTaskData, ran]
    rfl

theorem makes_earlier {executionIndex : String → Nat → Nat} (earlier : EarlierBy that executionIndex)
    (makes : Makes that destinationNodeName call next) :
    next.source.elim 0 (fun source => executionIndex source.previousNode (source.previousNodeRun.getD 0) + 1) <
      call.source.elim 0 (fun source => executionIndex source.previousNode (source.previousNodeRun.getD 0) + 1) := by
  obtain ⟨source, item, reaches, -, found, member⟩ := makes
  obtain ⟨paired, linked, rfl⟩ := List.mem_map.1 member
  obtain ⟨isPaired, inside⟩ := List.mem_filter.1 linked
  have some_ : (getTaskData that source).elim [] ITaskData.source ≠ [] := by
    intro none
    rw [none] at inside
    exact Nat.not_lt_zero _ (of_decide_eq_true inside)
  obtain ⟨runs, task, node, run, isTask⟩ := task_of_sources some_
  obtain ⟨bySource, byItem⟩ := earlier _ runs _ task node run
  rw [reaches]
  simp only [PairedCall.source, Option.elim_some]
  cases overwrites : paired.sourceOverwrite with
  | some overwrite =>
    rw [pairedItemOf, reaches, Option.bind_some] at found
    obtain ⟨outputData, output, there⟩ := Option.bind_eq_some_iff.1 found
    unfold getNodeOutput at output
    split at output
    · cases output
    · rename_i outputs isOutput
      cases output
      obtain ⟨main, isMain, isSlot⟩ := Option.bind_eq_some_iff.1 isOutput
      rw [isTask, Option.bind_some] at isMain
      have listed : some outputData ∈ main := List.mem_of_getElem? (Option.join_eq_some_iff.1 isSlot)
      exact Nat.succ_lt_succ (byItem main isMain outputData listed item (List.mem_of_getElem? there) paired isPaired
        overwrite overwrites)
  | none =>
    rw [Option.none_or, Option.none_or]
    cases slot : (Slot.at_ ((getTaskData that source).elim [] ITaskData.source) (paired.input.getD 0)).value? with
    | none => exact Nat.succ_pos _
    | some previous =>
      have listed := value_of_at_ slot
      rw [isTask] at listed
      exact Nat.succ_lt_succ (bySource previous listed)

/-- In a resolution, a call and all that it makes, every call returns the one item that its branches
lead to, or throws an `ExpressionError` when there is none, exactly where every call is linked. -/
theorem resolves_all_iff (that : WorkflowDataProxy) (earlier : RefersToEarlier that) (destinationNodeName : String)
    (call : PairedCall) :
    (∀ next, Reaches that destinationNodeName call next → Resolves that destinationNodeName next) ↔
      ∀ next, Reaches that destinationNodeName call next → Linked that destinationNodeName next := by
  constructor
  · intro resolve next reached
    exact (resolves_iff_linked fun following makes => resolve following (reached.tail makes)).1 (resolve next reached)
  · intro linked
    obtain ⟨executionIndex, earlier⟩ := earlier
    have resolve (bound : Nat) : ∀ next, Reaches that destinationNodeName call next →
        next.source.elim 0 (fun source => executionIndex source.previousNode (source.previousNodeRun.getD 0) + 1) < bound →
        Resolves that destinationNodeName next := by
      induction bound with
      | zero => exact fun _ _ never => absurd never (Nat.not_lt_zero _)
      | succ bound ih =>
        intro next reached below
        refine (resolves_iff_linked fun following makes => ?_).2 (linked next reached)
        exact ih following (reached.tail makes) (Nat.lt_of_lt_of_le (makes_earlier earlier makes) (Nat.le_of_lt_succ below))
    exact fun next reached => resolve _ next reached (Nat.lt_succ_self _)

def triggerItem : StoredItem := { ref := 0, item := { json := ∅ } }

def setItem (input : Nat) : StoredItem :=
  { ref := 1, item := { json := ∅, pairedItem := some (.one { item := 0, input := some input }) } }

def ofTrigger : ISourceData := { previousNode := "Trigger" }

def ofSet : ISourceData := { previousNode := "Set" }

def twoNodes (input : Nat) : WorkflowDataProxy where
  runData := ⟨[("Trigger", [{ main := some [some [triggerItem]], source := [] }]),
    ("Set", [{ main := some [some [setItem input]], source := [.value ofTrigger] }])], by simp⟩
  pinData := ∅
  manual := false

theorem twoNodes_earlier (input : Nat) : RefersToEarlier (twoNodes input) := by
  refine ⟨fun node _ => if node = "Set" then 1 else 0, fun node runs run task ran here => ?_⟩
  have listed := (OrderedMap.get_eq_some_iff _ _ _).1 ran
  simp only [twoNodes, List.mem_cons, List.not_mem_nil, or_false, Prod.mk.injEq] at listed
  rcases listed with ⟨rfl, rfl⟩ | ⟨rfl, rfl⟩
  · rw [List.mem_singleton.1 (List.mem_of_getElem? here)]
    simp [normalizePairedItem, triggerItem]
  · rw [List.mem_singleton.1 (List.mem_of_getElem? here)]
    simp [normalizePairedItem, setItem, ofTrigger]

def fromSet : PairedCall := (some ofSet, { item := 0 })

theorem fromSet_makes (input : Nat) {next : PairedCall} :
    Makes (twoNodes input) "Trigger" fromSet next ↔ next ∈ callsOf (twoNodes input) ofSet (setItem input) :=
  makes_iff rfl (by decide) rfl

theorem resolves_fromSet : Resolves (twoNodes 0) "Trigger" fromSet := by
  refine (resolves_all_iff (twoNodes 0) (twoNodes_earlier 0) "Trigger" fromSet).2 (fun next reached => ?_) fromSet .refl
  have made {next : PairedCall} (member : next ∈ callsOf (twoNodes 0) ofSet (setItem 0)) :
      next.source = some ofTrigger := by
    rw [List.mem_singleton.1 member]
    rfl
  have place : next = fromSet ∨ next.source = some ofTrigger := by
    induction reached with
    | refl => exact .inl rfl
    | tail _ makes ih =>
      right
      rcases ih with rfl | destination
      · exact made ((fromSet_makes 0).1 makes)
      · obtain ⟨source, item, reaches, away, -⟩ := makes
        rw [destination] at reaches
        exact absurd (congrArg ISourceData.previousNode (Option.some.inj reaches)).symm away
  intro source outputData reaches away output
  rcases place with rfl | destination
  · have isSet : ofSet = source := Option.some.inj reaches
    have isItem : [setItem 0] = outputData := by
      rw [← isSet] at output
      exact Except.ok.inj output
    rw [← isSet, ← isItem]
    refine ⟨setItem 0, rfl, fun _ => List.cons_ne_nil _ _, fun swallows => ?_⟩
    obtain ⟨⟨next, member, first, second, leads, leads', apart⟩, -⟩ := swallows
    obtain ⟨item, found, rfl⟩ := (leads_destination (made member) rfl).1 leads
    obtain ⟨item', found', rfl⟩ := (leads_destination (made member) rfl).1 leads'
    rw [found, Option.some.injEq] at found'
    exact apart (congrArg StoredItem.ref found')
  · rw [destination] at reaches
    exact absurd (congrArg ISourceData.previousNode (Option.some.inj reaches)).symm away

/-- An item that comes from an input that its run does not have is met with a `TypeError`. -/
theorem not_resolves_missingInput : ¬ ∀ (that : WorkflowDataProxy) (destinationNodeName : String) (call : PairedCall),
    RefersToEarlier that → Resolves that destinationNodeName call := by
  intro resolves
  refine not_resolves_of_typeError (fun stack => ?_) (resolves (twoNodes 1) "Trigger" fromSet (twoNodes_earlier 1))
  have links := @getPairedItem_links (twoNodes 1) "Trigger" fromSet ofSet (setItem 1) [setItem 1] stack rfl rfl
    (by decide) rfl (List.cons_ne_nil _ _)
  exact links

end NodeAutomation.ErrorOutput
