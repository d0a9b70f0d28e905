import NodeAutomation.Core.RetryLoop

/-! What the attempts of a resumed node are given (the retry loops of
`WorkflowExecute.processRunExecutionData`). The results of the actions the node asked for are collected
within the outer loop, into one response for all its passes, and handed to the first call of a pass only. -/

namespace NodeAutomation.ExecutionLoop

structure ExecuteNodeResult where
  action : ExecuteNodeAction
  data : ITaskData
  deriving DecidableEq

structure EngineResponse where
  actionResponses : List ExecuteNodeResult
  metadata : List (String × JsValue)
  deriving DecidableEq

def makeEngineResponse : EngineResponse := ⟨[], []⟩

def responsesOf (actions : List SubNodeExecutionDataAction) (runData : IRunData) : List ExecuteNodeResult :=
  actions.filterMap fun subNode =>
    (((runData.get subNode.nodeName).getD [])[subNode.runIndex]?).map fun data => ⟨subNode.action, data⟩

section

variable {α : Type} (maxTries : Nat) (runNode : Nat → Except String NodeResult)
  (settle : Nat → NodeResult → Except String α) (pinned : Option (Nat → Except String α))
  (subNodeExecutionData : Option SubNodeExecutionData) (runData : Nat → IRunData)

/-- `runData n` is what has been run when `n` calls have been made. -/
def collectResults (calls : Nat) (subNodeExecutionResults : EngineResponse) : EngineResponse :=
  match subNodeExecutionData with
  | none => subNodeExecutionResults
  | some subNodeExecutionData =>
    { metadata := subNodeExecutionData.metadata
      actionResponses := subNodeExecutionResults.actionResponses ++
        responsesOf subNodeExecutionData.actions (runData calls) }

/-- `runAgain`, with what its calls are given: nothing. -/
def resumeAgain (tryIndex : Nat) (inside : tryIndex < maxTries) (calls : Nat) (runNodeData : NodeResult) :
    Tried α tryIndex × List (Option EngineResponse) :=
  if again : checkFailure runNodeData = true ∧ tryIndex ≠ maxTries - 1 then
    match runNode calls with
    | .error message => (⟨.error message, tryIndex, calls + 1, le_rfl⟩, [none])
    | .ok runNodeData =>
      let (tried, given) := resumeAgain (tryIndex + 1) (by omega) (calls + 1) runNodeData
      (⟨tried.outcome, tried.last, tried.calls, (Nat.le_succ tryIndex).trans tried.later⟩, none :: given)
  else (⟨settle (calls - 1) runNodeData, tryIndex, calls, le_rfl⟩, [])
termination_by maxTries - tryIndex

/-- `oneTry`, with the response as it leaves it and what its calls are given. -/
def resumeTry (tryIndex : Nat) (inside : tryIndex < maxTries) (calls : Nat)
    (subNodeExecutionResults : EngineResponse) :
    Tried α tryIndex × EngineResponse × List (Option EngineResponse) :=
  match pinned with
  | some settlePinned => (⟨settlePinned tryIndex, tryIndex, calls, le_rfl⟩, subNodeExecutionResults, [])
  | none =>
    let results := collectResults subNodeExecutionData runData calls subNodeExecutionResults
    match runNode calls with
    | .error message => (⟨.error message, tryIndex, calls + 1, le_rfl⟩, results, [some results])
    | .ok runNodeData =>
      let (tried, given) := resumeAgain maxTries runNode settle tryIndex inside (calls + 1) runNodeData
      (tried, results, some results :: given)

/-- `retryFrom`, with what each call is given, in order. -/
def resumeFrom (tryIndex : Nat) (inside : tryIndex < maxTries) (calls : Nat)
    (subNodeExecutionResults : EngineResponse) : (Except String α × Nat) × List (Option EngineResponse) :=
  let (tried, results, given) := resumeTry maxTries runNode settle pinned subNodeExecutionData runData
    tryIndex inside calls subNodeExecutionResults
  match tried.outcome with
  | .ok value => ((.ok value, tried.calls), given)
  | .error message =>
    if more : tried.last + 1 < maxTries then
      let (ended, later) := resumeFrom (tried.last + 1) more tried.calls results
      (ended, given ++ later)
    else ((.error message, tried.calls), given)
termination_by maxTries - tryIndex
decreasing_by
  have later := tried.later
  omega

end

/-- The tries of one stack entry, and what each call of `runNode` is given. -/
def resumeLoop {α : Type} (settings : RetrySettings) (isResumedError : Bool)
    (runNode : Nat → Except String NodeResult) (settle : Nat → NodeResult → Except String α)
    (pinned : Option (Nat → Except String α)) (subNodeExecutionData : Option SubNodeExecutionData)
    (runData : Nat → IRunData) : (Except String α × Nat) × List (Option EngineResponse) :=
  resumeFrom (settings.tries isResumedError) runNode settle pinned subNodeExecutionData runData 0
    (settings.tries_pos isResumedError) 0 makeEngineResponse

section

variable {α : Type} {maxTries : Nat} {runNode : Nat → Except String NodeResult}
  {settle : Nat → NodeResult → Except String α} {pinned : Option (Nat → Except String α)}
  {subNodeExecutionData : Option SubNodeExecutionData} {runData : Nat → IRunData}

theorem resumeAgain_tried {tryIndex : Nat} (inside : tryIndex < maxTries) (calls : Nat)
    (runNodeData : NodeResult) : (resumeAgain maxTries runNode settle tryIndex inside calls runNodeData).1 =
      runAgain maxTries runNode settle tryIndex inside calls runNodeData := by
  induction remaining : maxTries - tryIndex generalizing tryIndex calls runNodeData with
  | zero => omega
  | succ remaining ih =>
    rw [resumeAgain, runAgain]
    split
    · cases runNode calls with
      | error message => rfl
      | ok runNodeData => simp only [@ih (tryIndex + 1) (by omega) (calls + 1) runNodeData (by omega)]
    · rfl

theorem resumeTry_tried {tryIndex : Nat} (inside : tryIndex < maxTries) (calls : Nat)
    (results : EngineResponse) :
    (resumeTry maxTries runNode settle pinned subNodeExecutionData runData tryIndex inside calls results).1 =
      oneTry maxTries runNode settle pinned tryIndex inside calls := by
  cases pinned with
  | some settlePinned => rfl
  | none =>
    simp only [resumeTry, oneTry]
    cases runNode calls with
    | error message => rfl
    | ok runNodeData => exact resumeAgain_tried inside (calls + 1) runNodeData

theorem resumeFrom_ended {tryIndex : Nat} (inside : tryIndex < maxTries) (calls : Nat)
    (results : EngineResponse) :
    (resumeFrom maxTries runNode settle pinned subNodeExecutionData runData tryIndex inside calls results).1 =
      retryFrom maxTries runNode settle pinned tryIndex inside calls := by
  induction remaining : maxTries - tryIndex using Nat.strong_induction_on generalizing tryIndex calls results with
  | _ remaining ih =>
    have same := @resumeTry_tried α maxTries runNode settle pinned subNodeExecutionData runData tryIndex inside
      calls results
    rw [resumeFrom, retryFrom, ← same]
    have later := (resumeTry maxTries runNode settle pinned subNodeExecutionData runData tryIndex inside calls
      results).1.later
    generalize resumeTry maxTries runNode settle pinned subNodeExecutionData runData tryIndex inside calls
      results = passed at later ⊢
    obtain ⟨⟨outcome, last, made, _⟩, results, given⟩ := passed
    cases outcome with
    | ok value => rfl
    | error message =>
      by_cases more : last + 1 < maxTries
      · simp only [more, dif_pos]
        exact ih _ (by omega) _ _ _ rfl
      · simp only [more, dif_neg, not_false_eq_true]

end

theorem resumeLoop_ended {α : Type} (settings : RetrySettings) (isResumedError : Bool)
    (runNode : Nat → Except String NodeResult) (settle : Nat → NodeResult → Except String α)
    (pinned : Option (Nat → Except String α)) (subNodeExecutionData : Option SubNodeExecutionData)
    (runData : Nat → IRunData) :
    (resumeLoop settings isResumedError runNode settle pinned subNodeExecutionData runData).1 =
      retryLoop settings isResumedError runNode settle pinned :=
  resumeFrom_ended _ _ _

section

variable {α : Type} {maxTries : Nat} (runNode : Nat → Except String NodeResult)
  {settle : Nat → NodeResult → Except String α} (subNodeExecutionData : SubNodeExecutionData)
  (runData : Nat → IRunData)

def responsesAt (calls : Nat) : List ExecuteNodeResult :=
  responsesOf subNodeExecutionData.actions (runData calls)

/-- A call begins a pass of the outer loop unless the call before gave an error. -/
def startsPass : Nat → Bool
  | 0 => true
  | call + 1 => !fails runNode call

/-- What the passes that began with the first calls have put into the response. -/
def collected : Nat → List ExecuteNodeResult
  | 0 => []
  | call + 1 => collected call ++
      if startsPass runNode call then responsesAt subNodeExecutionData runData call else []

def handed (call : Nat) : Option EngineResponse :=
  if startsPass runNode call then
    some ⟨collected runNode subNodeExecutionData runData (call + 1), subNodeExecutionData.metadata⟩
  else none

variable {runNode subNodeExecutionData runData}

theorem handed_again {call : Nat} {result : NodeResult} (answered : runNode call = .ok result)
    (failed : checkFailure result = true) :
    handed runNode subNodeExecutionData runData (call + 1) = none ∧
      collected runNode subNodeExecutionData runData (call + 2) =
        collected runNode subNodeExecutionData runData (call + 1) := by
  have inner : startsPass runNode (call + 1) = false := by
    rw [startsPass, fails_of_ok answered, failed]
    rfl
  rw [handed, collected, inner]
  exact ⟨rfl, List.append_nil _⟩

theorem resumeAgain_given {tryIndex call : Nat} {result : NodeResult} (inside : tryIndex < maxTries)
    (answered : runNode call = .ok result) :
    let ended := resumeAgain maxTries runNode settle tryIndex inside (call + 1) result
    ∃ more, ended.1.calls = call + 1 + more ∧
      ended.2 = (List.range' (call + 1) more).map (handed runNode subNodeExecutionData runData) ∧
      collected runNode subNodeExecutionData runData ended.1.calls =
        collected runNode subNodeExecutionData runData (call + 1) := by
  induction remaining : maxTries - tryIndex generalizing tryIndex call result with
  | zero => omega
  | succ remaining ih =>
    rw [resumeAgain]
    by_cases again : checkFailure result = true ∧ tryIndex ≠ maxTries - 1
    · obtain ⟨nothing, kept⟩ := @handed_again runNode subNodeExecutionData runData call result answered again.1
      rw [dif_pos again]
      split
      case h_1 message thrown =>
        refine ⟨1, rfl, ?_, kept⟩
        rw [List.range'_one, List.map_singleton, nothing]
      case h_2 result' answered' =>
        obtain ⟨more, calls, given, kept'⟩ := @ih (tryIndex + 1) (call + 1) result' (by omega) answered' (by omega)
        refine ⟨more + 1, ?_, ?_, kept'.trans kept⟩
        · change (resumeAgain maxTries runNode settle (tryIndex + 1) _ (call + 1 + 1) result').1.calls = _
          omega
        · rw [List.range'_succ, List.map_cons, nothing]
          exact congrArg (none :: ·) given
    · rw [dif_neg again]
      exact ⟨0, rfl, rfl, rfl⟩

theorem resumeTry_given {tryIndex calls : Nat} (inside : tryIndex < maxTries) (results : EngineResponse)
    (starts : startsPass runNode calls = true)
    (soFar : results.actionResponses = collected runNode subNodeExecutionData runData calls) :
    let passed := resumeTry maxTries runNode settle none (some subNodeExecutionData) runData tryIndex inside calls
      results
    ∃ more, passed.1.calls = calls + more ∧
      passed.2.2 = (List.range' calls more).map (handed runNode subNodeExecutionData runData) ∧
      passed.2.1.actionResponses = collected runNode subNodeExecutionData runData passed.1.calls := by
  have next : collected runNode subNodeExecutionData runData (calls + 1) =
      results.actionResponses ++ responsesOf subNodeExecutionData.actions (runData calls) := by
    rw [collected, starts, soFar]
    rfl
  have first : handed runNode subNodeExecutionData runData calls =
      some (collectResults (some subNodeExecutionData) runData calls results) := by
    rw [handed, starts, next]
    rfl
  rw [resumeTry]
  split
  case h_1 message thrown =>
    refine ⟨1, rfl, ?_, next.symm⟩
    rw [List.range'_one, List.map_singleton, first]
  case h_2 result answered =>
    obtain ⟨more, made, given, kept⟩ := @resumeAgain_given α maxTries runNode settle subNodeExecutionData runData
      tryIndex calls result inside answered
    refine ⟨more + 1, ?_, ?_, (kept.trans next).symm⟩
    · change (resumeAgain maxTries runNode settle tryIndex inside (calls + 1) result).1.calls = _
      omega
    rw [List.range'_succ, List.map_cons, first]
    exact congrArg (_ :: ·) given

/-- Every pass hands over what all passes so far have collected, to its first call. -/
theorem resumeFrom_given {tryIndex calls : Nat} (inside : tryIndex < maxTries) (results : EngineResponse)
    (begins : Begins maxTries runNode settle tryIndex calls)
    (soFar : results.actionResponses = collected runNode subNodeExecutionData runData calls) :
    let ended := resumeFrom maxTries runNode settle none (some subNodeExecutionData) runData tryIndex inside calls
      results
    ∃ more, ended.1.2 = calls + more ∧
      ended.2 = (List.range' calls more).map (handed runNode subNodeExecutionData runData) := by
  induction remaining : maxTries - tryIndex using Nat.strong_induction_on generalizing tryIndex calls results with
  | _ remaining ih =>
    have starts : startsPass runNode calls = true := by
      cases calls with
      | zero => rfl
      | succ before => rw [startsPass, begins.ended before rfl, Bool.not_false]
    have passed := oneTry_passed inside begins
    have given := @resumeTry_given α maxTries runNode settle subNodeExecutionData runData tryIndex calls inside
      results starts soFar
    rw [← @resumeTry_tried α maxTries runNode settle none (some subNodeExecutionData) runData tryIndex inside calls
      results] at passed
    have later := (resumeTry maxTries runNode settle none (some subNodeExecutionData) runData tryIndex inside
      calls results).1.later
    rw [resumeFrom]
    generalize resumeTry maxTries runNode settle none (some subNodeExecutionData) runData tryIndex inside calls
      results = pass at passed given later ⊢
    obtain ⟨tried, results', received⟩ := pass
    obtain ⟨more, made, log, soFar'⟩ := given
    dsimp only at passed made log soFar' later ⊢
    split
    case h_1 value settled => exact ⟨more, made, log⟩
    case h_2 message failed =>
      by_cases again : tried.last + 1 < maxTries
      · rw [dif_pos again]
        obtain ⟨more', made', log'⟩ := ih _ (by omega) again results'
          (passed.begins ⟨message, failed⟩ again) soFar' rfl
        dsimp only at made' log' ⊢
        refine ⟨more + more', by omega, ?_⟩
        rw [log, log', made, ← List.map_append, ← List.range'_append_1]
      · rw [dif_neg again]
        exact ⟨more, made, log⟩

theorem Stopped.lt_iff_made {calls call : Nat} (stopped : Stopped maxTries runNode settle calls) :
    call < calls ↔ Made maxTries runNode settle (call + 1) := by
  constructor
  · intro less
    exact ⟨fun earlier before => stopped.made.unsettled earlier (by omega),
      fun earlier before => stopped.made.within earlier (by omega)⟩
  · intro made
    by_contra beyond
    cases stopped.last with
    | inl ended =>
      obtain ⟨last, same, settled⟩ := ended
      exact settled (made.unsettled last (by omega))
    | inr used =>
      have within := made.within calls (by omega)
      omega

theorem collected_eq_nil_iff (calls : Nat) :
    collected runNode subNodeExecutionData runData calls = [] ↔ ∀ call < calls, startsPass runNode call = true →
      responsesAt subNodeExecutionData runData call = [] := by
  induction calls with
  | zero => simp [collected]
  | succ calls ih =>
    rw [collected, List.append_eq_nil_iff, ih]
    constructor
    · intro h
      exact forall_lt_succ h.1 fun starts => by simpa [starts] using h.2
    · intro h
      refine ⟨fun call less => h call (less.trans (Nat.lt_succ_self _)), ?_⟩
      cases starts : startsPass runNode calls with
      | false => rfl
      | true => exact h calls (Nat.lt_succ_self _) starts

variable (maxTries runNode settle subNodeExecutionData runData) in
/-- A call after an error that was returned finds nothing there to be given; a call after one that threw
finds that no pass before its own had collected anything. -/
def NothingHandedBefore : Prop :=
  ∀ call, Made maxTries runNode settle (call + 2) →
    if fails runNode call then responsesAt subNodeExecutionData runData (call + 1) = []
    else ∀ earlier < call + 1, startsPass runNode earlier = true →
      responsesAt subNodeExecutionData runData earlier = []

theorem handed_succ_iff (call : Nat) :
    ((handed runNode subNodeExecutionData runData (call + 1)).map (·.actionResponses)).getD [] =
        responsesAt subNodeExecutionData runData (call + 1) ↔
      if fails runNode call then responsesAt subNodeExecutionData runData (call + 1) = []
      else ∀ earlier < call + 1, startsPass runNode earlier = true →
        responsesAt subNodeExecutionData runData earlier = [] := by
  rw [handed, startsPass]
  cases failed : fails runNode call with
  | true => exact eq_comm
  | false =>
    have starts : startsPass runNode (call + 1) = true := by rw [startsPass, failed]; rfl
    have whole : collected runNode subNodeExecutionData runData (call + 2) =
        collected runNode subNodeExecutionData runData (call + 1) ++
          responsesAt subNodeExecutionData runData (call + 1) := by
      rw [collected, starts]
      rfl
    change collected runNode subNodeExecutionData runData (call + 2) = _ ↔ _
    rw [whole, List.append_left_eq_self]
    exact collected_eq_nil_iff (call + 1)

theorem handed_zero :
    ((handed runNode subNodeExecutionData runData 0).map (·.actionResponses)).getD [] =
      responsesAt subNodeExecutionData runData 0 := rfl

end

theorem resumeFrom_pinned {α : Type} {maxTries : Nat} (runNode : Nat → Except String NodeResult)
    (settle : Nat → NodeResult → Except String α) (settlePinned : Nat → Except String α)
    (subNodeExecutionData : Option SubNodeExecutionData) (runData : Nat → IRunData) {tryIndex : Nat}
    (inside : tryIndex < maxTries) (calls : Nat) (results : EngineResponse) :
    (resumeFrom maxTries runNode settle (some settlePinned) subNodeExecutionData runData tryIndex inside calls
      results).2 = [] := by
  induction remaining : maxTries - tryIndex using Nat.strong_induction_on generalizing tryIndex with
  | _ remaining ih =>
    rw [resumeFrom]
    cases settled : settlePinned tryIndex with
    | ok value => simp [resumeTry, settled]
    | error message =>
      simp only [resumeTry, settled]
      by_cases more : tryIndex + 1 < maxTries
      · rw [dif_pos more]
        exact ih _ (by omega) more rfl
      · rw [dif_neg more]

section

variable {α : Type} (settings : RetrySettings) (isResumedError : Bool) (runNode : Nat → Except String NodeResult)
  (settle : Nat → NodeResult → Except String α) (subNodeExecutionData : SubNodeExecutionData)
  (runData : Nat → IRunData)

theorem resumeLoop_given :
    (resumeLoop settings isResumedError runNode settle none (some subNodeExecutionData) runData).2 =
      (List.range (retryLoop settings isResumedError runNode settle none).2).map
        (handed runNode subNodeExecutionData runData) := by
  obtain ⟨calls, made, given⟩ := @resumeFrom_given α _ runNode settle subNodeExecutionData runData 0 0
    (settings.tries_pos isResumedError) makeEngineResponse ⟨nofun, nofun, rfl, nofun⟩ rfl
  rw [Nat.zero_add] at made
  rw [← resumeLoop_ended settings isResumedError runNode settle none (some subNodeExecutionData) runData,
    List.range_eq_range']
  change _ = (List.range' 0 (resumeFrom _ _ _ _ _ _ _ _ _ _).1.2).map _
  rw [made]
  exact given

theorem resumeLoop_given_getElem (call : Nat) (response : Option EngineResponse) :
    (resumeLoop settings isResumedError runNode settle none (some subNodeExecutionData) runData).2[call]? =
        some response ↔
      Made (settings.tries isResumedError) runNode settle (call + 1) ∧
        response = handed runNode subNodeExecutionData runData call := by
  rw [resumeLoop_given, ← (retryLoop_stopped settings isResumedError runNode settle).lt_iff_made,
    List.getElem?_map]
  by_cases less : call < (retryLoop settings isResumedError runNode settle none).2
  · rw [List.getElem?_range less]
    simp [less, eq_comm]
  · rw [List.getElem?_eq_none (by simpa using Nat.le_of_not_lt less)]
    simp [less]

/-- Every call is given what the requested actions have by then, in the order of the request, exactly when
nothing was handed over before the last call. -/
theorem resumeLoop_gives_all_iff (pinned : Option (Nat → Except String α)) :
    (∀ call response,
        (resumeLoop settings isResumedError runNode settle pinned (some subNodeExecutionData)
          runData).2[call]? = some response →
        (response.map (·.actionResponses)).getD [] = responsesAt subNodeExecutionData runData call) ↔
      pinned.isSome ∨ NothingHandedBefore (settings.tries isResumedError) runNode settle subNodeExecutionData
        runData := by
  cases pinned with
  | some settlePinned =>
    have nothing : (resumeLoop settings isResumedError runNode settle (some settlePinned)
        (some subNodeExecutionData) runData).2 = [] :=
      resumeFrom_pinned _ _ _ _ _ _ _ _
    simp [nothing]
  | none =>
    simp only [resumeLoop_given_getElem, Option.isSome_none, Bool.false_eq_true, false_or]
    constructor
    · intro given call made
      rw [← handed_succ_iff]
      exact given (call + 1) _ ⟨made, rfl⟩
    · rintro before call response ⟨made, rfl⟩
      cases call with
      | zero => exact handed_zero
      | succ call => exact (handed_succ_iff call).2 (before call made)

end

def askedForTool : SubNodeExecutionData := ⟨[⟨{ nodeName := "Tool" }, "Tool", 0⟩], []⟩

def toolHasRun (_ : Nat) : IRunData := .ofList [("Tool", [{}])]

def throwsOnce : Nat → Except String NodeResult
  | 0 => .error "no connection"
  | _ => .ok (.data (some [.value [{}]]))

/-- The second attempt is given the one result twice. -/
theorem throwsOnce_given_twice :
    ¬ ∀ call response,
      (resumeLoop { retryOnFail := true, maxTries := some 2 } false throwsOnce (fun _ result => .ok result) none
        (some askedForTool) toolHasRun).2[call]? = some response →
      (response.map (·.actionResponses)).getD [] = responsesAt askedForTool toolHasRun call := by
  intro given
  have two : RetrySettings.tries { retryOnFail := true, maxTries := some 2 } false = 2 := by decide
  have second : Made 2 throwsOnce (fun _ result => Except.ok result) 2 := by
    refine ⟨fun call less => ?_, fun call less => ?_⟩
    · have first : call = 0 := by omega
      rw [first]
      trivial
    · omega
  have same := given 1 _ ((resumeLoop_given_getElem _ _ _ _ _ _ _ _).2 ⟨two ▸ second, rfl⟩)
  revert same
  decide +kernel

end NodeAutomation.ExecutionLoop
