import NodeAutomation.Core.ExecutionLoop

/-! How often a node is run for one stack entry (the retry loops of
`WorkflowExecute.processRunExecutionData`). One loop goes on after errors that are thrown, another one
within it after results that hold an error, and both count in `tryIndex`. -/

namespace NodeAutomation.ExecutionLoop

/-- The fields of a node that say when it is run again. -/
structure RetrySettings where
  retryOnFail : Bool := false
  maxTries : Option Int := none

namespace RetrySettings

/-- `node.maxTries || 3`. -/
def wanted (settings : RetrySettings) : Int :=
  match settings.maxTries with
  | none | some 0 => 3
  | some maxTries => maxTries

def tries (settings : RetrySettings) (isResumedError : Bool) : Nat :=
  if settings.retryOnFail ∧ isResumedError = false then (min 5 (max 2 settings.wanted)).toNat else 1

theorem tries_pos (settings : RetrySettings) (isResumedError : Bool) : 0 < settings.tries isResumedError := by
  rw [tries]
  split
  · omega
  · exact Nat.one_pos

end RetrySettings

/-- What `runNode` returns. -/
inductive NodeResult where
  | data (nodeSuccessData : Option Outputs)
  | request (request : EngineRequest)

def isErrorValue : JsValue → Bool
  | .undefined | .null | .bool false => false
  | _ => true

def checkFailure : NodeResult → Bool
  | .data (some (.value (item :: _) :: _)) => isErrorValue ((item.json.lookup "error").getD .undefined)
  | _ => false

/-- How one pass of the outer loop ends, the try it has come to, and how often the node was run so far. -/
structure Tried (α : Type) (tryIndex : Nat) where
  outcome : Except String α
  last : Nat
  calls : Nat
  later : tryIndex ≤ last

section

variable {α : Type} (maxTries : Nat) (runNode : Nat → Except String NodeResult)
  (settle : Nat → NodeResult → Except String α) (pinned : Option (Nat → Except String α))

/-- `while (nodeFailed && tryIndex !== maxTries - 1)` and the rest of the try. The call before gave
`runNodeData`; `runNode n` is what the call after `n` others gives, `settle n` what the try makes of it. -/
def runAgain (tryIndex : Nat) (inside : tryIndex < maxTries) (calls : Nat) (runNodeData : NodeResult) :
    Tried α tryIndex :=
  if again : checkFailure runNodeData = true ∧ tryIndex ≠ maxTries - 1 then
    match runNode calls with
    | .error message => ⟨.error message, tryIndex, calls + 1, le_rfl⟩
    | .ok runNodeData =>
      let tried := runAgain (tryIndex + 1) (by omega) (calls + 1) runNodeData
      ⟨tried.outcome, tried.last, tried.calls, (Nat.le_succ tryIndex).trans tried.later⟩
  else ⟨settle (calls - 1) runNodeData, tryIndex, calls, le_rfl⟩
termination_by maxTries - tryIndex

/-- The body of `for (let tryIndex = 0; tryIndex < maxTries; tryIndex++)`. With pinned data the node is
not run. -/
def oneTry (tryIndex : Nat) (inside : tryIndex < maxTries) (calls : Nat) : Tried α tryIndex :=
  match pinned with
  | some settlePinned => ⟨settlePinned tryIndex, tryIndex, calls, le_rfl⟩
  | none => match runNode calls with
    | .error message => ⟨.error message, tryIndex, calls + 1, le_rfl⟩
    | .ok runNodeData => runAgain maxTries runNode settle tryIndex inside (calls + 1) runNodeData

def retryFrom (tryIndex : Nat) (inside : tryIndex < maxTries) (calls : Nat) : Except String α × Nat :=
  let tried := oneTry maxTries runNode settle pinned tryIndex inside calls
  match tried.outcome with
  | .ok value => (.ok value, tried.calls)
  | .error message =>
    if more : tried.last + 1 < maxTries then retryFrom (tried.last + 1) more tried.calls
    else (.error message, tried.calls)
termination_by maxTries - tryIndex
decreasing_by
  have later := (oneTry maxTries runNode settle pinned tryIndex inside calls).later
  omega

end

/-- The tries of one stack entry. -/
def retryLoop {α : Type} (settings : RetrySettings) (isResumedError : Bool)
    (runNode : Nat → Except String NodeResult) (settle : Nat → NodeResult → Except String α)
    (pinned : Option (Nat → Except String α)) : Except String α × Nat :=
  retryFrom (settings.tries isResumedError) runNode settle pinned 0 (settings.tries_pos isResumedError) 0

section

variable {α : Type} (maxTries : Nat) (runNode : Nat → Except String NodeResult)
  (settle : Nat → NodeResult → Except String α)

def throws (call : Nat) : Bool :=
  match runNode call with
  | .error _ => true
  | .ok _ => false

def fails (call : Nat) : Bool :=
  match runNode call with
  | .error _ => false
  | .ok result => checkFailure result

/-- The call did not end the tries: it threw or gave an error, or the rest of the try threw. -/
def Unsettled (call : Nat) : Prop :=
  match runNode call with
  | .error _ => True
  | .ok result => checkFailure result = true ∨ ∃ message, settle call result = .error message

/-- How many of the first calls were not counted: such a call came from the inner loop and threw. -/
def uncounted : Nat → Nat
  | 0 => 0
  | 1 => 0
  | calls + 2 => uncounted (calls + 1) + if fails runNode calls ∧ throws runNode (calls + 1) then 1 else 0

variable {maxTries runNode settle}

theorem uncounted_succ (call : Nat) (counted : throws runNode call = false ∨ ∀ before, call = before + 1 → fails runNode before = false) :
    uncounted runNode (call + 1) = uncounted runNode call := by
  cases call with
  | zero => rfl
  | succ before =>
    rw [uncounted]
    cases counted with
    | inl went => simp [went]
    | inr settled => simp [settled before rfl]

theorem uncounted_pos_iff (calls : Nat) : 0 < uncounted runNode calls ↔
    ∃ call, call + 1 < calls ∧ fails runNode call = true ∧ throws runNode (call + 1) = true := by
  induction calls with
  | zero => simp [uncounted]
  | succ calls ih =>
    cases calls with
    | zero => simp [uncounted]
    | succ calls =>
      rw [uncounted]
      constructor
      · intro positive
        by_cases here : fails runNode calls = true ∧ throws runNode (calls + 1) = true
        · exact ⟨calls, Nat.lt_succ_self _, here⟩
        · rw [if_neg here, Nat.add_zero] at positive
          obtain ⟨call, less, found⟩ := ih.1 positive
          exact ⟨call, less.trans (Nat.lt_succ_self _), found⟩
      · intro h
        obtain ⟨call, less, found⟩ := h
        by_cases last : call = calls
        · rw [← last, if_pos found]
          exact Nat.succ_pos _
        · exact Nat.add_pos_left (ih.2 ⟨call, by omega, found⟩) _

structure Made (maxTries : Nat) (runNode : Nat → Except String NodeResult)
    (settle : Nat → NodeResult → Except String α) (calls : Nat) : Prop where
  unsettled : ∀ call, call + 1 < calls → Unsettled runNode settle call
  within : ∀ call < calls, call < maxTries + uncounted runNode call

structure Begins (maxTries : Nat) (runNode : Nat → Except String NodeResult)
    (settle : Nat → NodeResult → Except String α) (tryIndex calls : Nat) : Prop where
  unsettled : ∀ call < calls, Unsettled runNode settle call
  within : ∀ call < calls, call < maxTries + uncounted runNode call
  counted : tryIndex + uncounted runNode calls = calls
  ended : ∀ before, calls = before + 1 → fails runNode before = false

structure Passed (maxTries : Nat) (runNode : Nat → Except String NodeResult)
    (settle : Nat → NodeResult → Except String α) {tryIndex : Nat} (tried : Tried α tryIndex) : Prop where
  made : Made maxTries runNode settle tried.calls
  counted : tried.last + 1 + uncounted runNode tried.calls = tried.calls
  inside : tried.last < maxTries
  settled : ∀ call, tried.calls = call + 1 → (∃ value, tried.outcome = .ok value) →
    ¬ Unsettled runNode settle call ∨ tried.last + 1 = maxTries
  thrown : ∀ call, tried.calls = call + 1 → (∃ message, tried.outcome = .error message) →
    Unsettled runNode settle call ∧ (fails runNode call = false ∨ tried.last + 1 = maxTries)

theorem unsettled_of_fails {call : Nat} {result : NodeResult} (answered : runNode call = .ok result)
    (failed : checkFailure result = true) : Unsettled runNode settle call := by
  rw [Unsettled, answered]
  exact .inl failed

theorem throws_of_ok {call : Nat} {result : NodeResult} (answered : runNode call = .ok result) :
    throws runNode call = false := by rw [throws, answered]

theorem fails_of_ok {call : Nat} {result : NodeResult} (answered : runNode call = .ok result) :
    fails runNode call = checkFailure result := by rw [fails, answered]

theorem forall_lt_succ {P : Nat → Prop} {n : Nat} (before : ∀ i < n, P i) (here : P n) : ∀ i < n + 1, P i := by
  intro i less
  cases Nat.lt_succ_iff_lt_or_eq.1 less with
  | inl earlier => exact before i earlier
  | inr same => exact same ▸ here

/-- The inner loop, from a call that was answered and counted on. -/
theorem runAgain_passed {tryIndex call : Nat} {result : NodeResult} (inside : tryIndex < maxTries)
    (answered : runNode call = .ok result) (unsettled : ∀ earlier < call, Unsettled runNode settle earlier)
    (within : ∀ made < call + 1, made < maxTries + uncounted runNode made)
    (counted : tryIndex + 1 + uncounted runNode (call + 1) = call + 1) :
    Passed maxTries runNode settle (runAgain maxTries runNode settle tryIndex inside (call + 1) result) := by
  induction remaining : maxTries - tryIndex generalizing tryIndex call result with
  | zero => omega
  | succ remaining ih =>
    rw [runAgain]
    by_cases again : checkFailure result = true ∧ tryIndex ≠ maxTries - 1
    · have here : Unsettled runNode settle call := unsettled_of_fails answered again.1
      have next : call + 1 < maxTries + uncounted runNode (call + 1) := by omega
      rw [dif_pos again]
      split
      case h_1 message thrown =>
        -- the one call that `tryIndex` does not count
        have threw : throws runNode (call + 1) = true := by rw [throws, thrown]
        have lost : uncounted runNode (call + 2) = uncounted runNode (call + 1) + 1 := by
          rw [uncounted, if_pos ⟨(fails_of_ok answered).trans again.1, threw⟩]
        refine ⟨⟨fun c less => forall_lt_succ unsettled here c (Nat.lt_of_succ_lt_succ less), forall_lt_succ within next⟩, ?_, inside,
          fun _ _ ended => ?_, fun c last _ => ?_⟩
        · change tryIndex + 1 + uncounted runNode (call + 2) = call + 2
          omega
        · obtain ⟨_, same⟩ := ended
          cases same
        · cases Nat.succ.inj last
          exact ⟨by rw [Unsettled, thrown]; trivial, .inl (by rw [fails, thrown])⟩
      case h_2 result' answered' =>
        have kept : uncounted runNode (call + 1 + 1) = uncounted runNode (call + 1) :=
          uncounted_succ (call + 1) (.inl (throws_of_ok answered'))
        have passed := ih (by omega : tryIndex + 1 < maxTries) answered' (forall_lt_succ unsettled here)
          (forall_lt_succ within next) (by omega) (by omega)
        exact ⟨passed.made, passed.counted, passed.inside, passed.settled, passed.thrown⟩
    · rw [dif_neg again, Nat.add_sub_cancel]
      have final : checkFailure result = false ∨ tryIndex + 1 = maxTries := by
        cases failed : checkFailure result with
        | false => exact .inl rfl
        | true => exact .inr (by by_contra other; exact again ⟨failed, by omega⟩)
      refine ⟨⟨fun c less => unsettled c (Nat.lt_of_succ_lt_succ less), within⟩, counted, inside, fun c last ended => ?_,
        fun c last ended => ?_⟩
      · cases Nat.succ.inj last
        obtain ⟨value, settled⟩ : ∃ value, settle call result = .ok value := ended
        refine final.imp_left fun succeeded => ?_
        rw [Unsettled, answered]
        simp [succeeded, settled]
      · cases Nat.succ.inj last
        refine ⟨?_, (fails_of_ok answered).symm ▸ final⟩
        rw [Unsettled, answered]
        exact .inr ended

theorem oneTry_passed {tryIndex calls : Nat} (inside : tryIndex < maxTries)
    (begins : Begins maxTries runNode settle tryIndex calls) :
    Passed maxTries runNode settle (oneTry maxTries runNode settle none tryIndex inside calls) := by
  have kept : uncounted runNode (calls + 1) = uncounted runNode calls := uncounted_succ calls (.inr begins.ended)
  have counted := begins.counted
  have next : calls < maxTries + uncounted runNode calls := by omega
  rw [oneTry]
  split
  case h_1 message thrown =>
    refine ⟨⟨fun c less => begins.unsettled c (Nat.lt_of_succ_lt_succ less), forall_lt_succ begins.within next⟩, ?_, inside,
      fun _ _ ended => ?_, fun c last _ => ?_⟩
    · change tryIndex + 1 + uncounted runNode (calls + 1) = calls + 1
      omega
    · obtain ⟨_, same⟩ := ended
      cases same
    · cases Nat.succ.inj last
      exact ⟨by rw [Unsettled, thrown]; trivial, .inl (by rw [fails, thrown])⟩
  case h_2 result answered =>
    exact runAgain_passed inside answered begins.unsettled (forall_lt_succ begins.within next) (by omega)

theorem Passed.begins {tryIndex : Nat} {tried : Tried α tryIndex} (passed : Passed maxTries runNode settle tried)
    (failed : ∃ message, tried.outcome = .error message) (more : tried.last + 1 < maxTries) :
    Begins maxTries runNode settle (tried.last + 1) tried.calls := by
  have counted := passed.counted
  obtain ⟨call, calls⟩ : ∃ call, tried.calls = call + 1 := ⟨tried.calls - 1, by omega⟩
  obtain ⟨here, ended⟩ := passed.thrown call calls failed
  refine ⟨?_, passed.made.within, counted, fun before same => ?_⟩
  · rw [calls]
    exact forall_lt_succ (fun c less => passed.made.unsettled c (by omega)) here
  · have equal : call = before := by omega
    exact equal ▸ ended.resolve_right (by omega)

structure Stopped (maxTries : Nat) (runNode : Nat → Except String NodeResult)
    (settle : Nat → NodeResult → Except String α) (calls : Nat) : Prop where
  made : Made maxTries runNode settle calls
  last : (∃ call, calls = call + 1 ∧ ¬ Unsettled runNode settle call) ∨ calls = maxTries + uncounted runNode calls

theorem retryFrom_stopped {tryIndex calls : Nat} (inside : tryIndex < maxTries)
    (begins : Begins maxTries runNode settle tryIndex calls) :
    Stopped maxTries runNode settle (retryFrom maxTries runNode settle none tryIndex inside calls).2 := by
  induction remaining : maxTries - tryIndex using Nat.strong_induction_on generalizing tryIndex calls with
  | _ remaining ih =>
    have passed := oneTry_passed inside begins
    have later := (oneTry maxTries runNode settle none tryIndex inside calls).later
    have counted := passed.counted
    have usedUp : (oneTry maxTries runNode settle none tryIndex inside calls).last + 1 = maxTries →
        (oneTry maxTries runNode settle none tryIndex inside calls).calls = maxTries +
          uncounted runNode (oneTry maxTries runNode settle none tryIndex inside calls).calls := by omega
    rw [retryFrom]
    split
    case h_1 value settled =>
      refine ⟨passed.made, ?_⟩
      obtain ⟨call, last⟩ := Nat.exists_eq_succ_of_ne_zero (Nat.ne_of_gt (by omega :
        0 < (oneTry maxTries runNode settle none tryIndex inside calls).calls))
      cases passed.settled call last ⟨value, settled⟩ with
      | inl ended => exact .inl ⟨call, last, ended⟩
      | inr used => exact .inr (usedUp used)
    case h_2 message failed =>
      split
      case isTrue more => exact ih _ (by omega) more (passed.begins ⟨message, failed⟩ more) rfl
      case isFalse =>
        have less := passed.inside
        exact ⟨passed.made, .inr (usedUp (by omega))⟩

variable (maxTries runNode settle) in
/-- None of the first calls ends the tries, and among them one that gives an error is followed by one
that throws. -/
def Overruns : Prop :=
  (∀ call < maxTries, Unsettled runNode settle call) ∧
    ∃ call, call + 1 < maxTries ∧ fails runNode call = true ∧ throws runNode (call + 1) = true

theorem Stopped.le_iff {calls : Nat} (stopped : Stopped maxTries runNode settle calls) :
    calls ≤ maxTries ↔ ¬ Overruns maxTries runNode settle := by
  constructor
  · intro few overruns
    obtain ⟨unsettled, pair⟩ := overruns
    have lost := (uncounted_pos_iff maxTries).2 pair
    cases stopped.last with
    | inl ended =>
      obtain ⟨call, last, settled⟩ := ended
      exact settled (unsettled call (by omega))
    | inr used =>
      have all : calls = maxTries := by omega
      rw [all] at used
      omega
  · intro bounded
    by_contra many
    have within := stopped.made.within maxTries (by omega)
    refine bounded ⟨fun call less => stopped.made.unsettled call (by omega), ?_⟩
    exact (uncounted_pos_iff maxTries).1 (by omega)

theorem retryFrom_pinned (settlePinned : Nat → Except String α) {tryIndex : Nat} (inside : tryIndex < maxTries)
    (calls : Nat) : (retryFrom maxTries runNode settle (some settlePinned) tryIndex inside calls).2 = calls := by
  induction remaining : maxTries - tryIndex using Nat.strong_induction_on generalizing tryIndex with
  | _ remaining ih =>
    rw [retryFrom]
    cases settled : settlePinned tryIndex with
    | ok value => simp [oneTry, settled]
    | error message =>
      simp only [oneTry, settled]
      by_cases more : tryIndex + 1 < maxTries
      · rw [dif_pos more]
        exact ih _ (by omega) more rfl
      · rw [dif_neg more]

end

variable {α : Type} (settings : RetrySettings) (isResumedError : Bool) (runNode : Nat → Except String NodeResult)
  (settle : Nat → NodeResult → Except String α)

theorem retryLoop_stopped : Stopped (settings.tries isResumedError) runNode settle
    (retryLoop settings isResumedError runNode settle none).2 :=
  retryFrom_stopped (settings.tries_pos isResumedError)
    ⟨nofun, nofun, rfl, nofun⟩

/-- The node is run as often as it may be at most, unless the tries overrun. -/
theorem retryLoop_bounded_iff (pinned : Option (Nat → Except String α)) :
    (retryLoop settings isResumedError runNode settle pinned).2 ≤ settings.tries isResumedError ↔
      pinned.isSome ∨ ¬ Overruns (settings.tries isResumedError) runNode settle := by
  cases pinned with
  | none =>
    rw [(retryLoop_stopped settings isResumedError runNode settle).le_iff]
    simp
  | some settlePinned =>
    rw [retryLoop, retryFrom_pinned]
    simp

def failsThenThrows : Nat → Except String NodeResult
  | 0 => .ok (.data (some [.value [{ json := [("error", .string "no answer")] }]]))
  | 1 => .error "no connection"
  | _ => .ok (.data (some [.value [{}]]))

/-- Of two tries, three are made. -/
theorem failsThenThrows_not_bounded :
    ¬ (retryLoop { retryOnFail := true, maxTries := some 2 } false failsThenThrows (fun _ result => .ok result) none).2 ≤
      RetrySettings.tries { retryOnFail := true, maxTries := some 2 } false := by
  rw [(retryLoop_stopped _ _ _ _).le_iff, not_not]
  refine ⟨fun call less => ?_, 0, by decide, rfl, rfl⟩
  have two : RetrySettings.tries { retryOnFail := true, maxTries := some 2 } false = 2 := by decide
  rw [two] at less
  cases call with
  | zero => exact unsettled_of_fails rfl rfl
  | succ call =>
    have first : call = 0 := by omega
    rw [first]
    trivial

end NodeAutomation.ExecutionLoop
