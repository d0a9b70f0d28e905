import NodeAutomation.Cli.TaskRequester

/-! What becomes of the calls of `startTask`: which messages and cancellations reach the call
that they are for. -/

namespace NodeAutomation.TaskRequester

open Runs

variable {ρ ε : Type*}

/-- A call keeps its execution, and what has once been decided of it. -/
structure Call.Evolves (c c' : Call ρ ε) : Prop where
  executionId : c'.executionId = c.executionId
  taskId : ∀ taskId, c.stage.taskId = some taskId → c'.stage.taskId = some taskId
  settled : c.stage.settled → c'.stage.settled
  cancelled : c.stage.cancelled → c'.stage.cancelled

theorem Call.Evolves.refl (c : Call ρ ε) : c.Evolves c := ⟨rfl, fun _ => id, id, id⟩

theorem Call.Evolves.trans {c c' c'' : Call ρ ε} (h : c.Evolves c') (h' : c'.Evolves c'') : c.Evolves c'' where
  executionId := h'.executionId.trans h.executionId
  taskId taskId has := h'.taskId taskId (h.taskId taskId has)
  settled was := h'.settled (h.settled was)
  cancelled was := h'.cancelled (h.cancelled was)

/-- The calls evolve, and none that is settled sends settings. -/
structure Moves (s s' : State ρ ε) : Prop where
  calls : ∀ (n : Nat) c, s.calls[n]? = some c → ∃ c' : Call ρ ε, s'.calls[n]? = some c' ∧ c.Evolves c'
  sent : ∃ new, s'.sent = s.sent ++ new ∧
    ∀ (n : Nat) c, s.calls[n]? = some c → c.stage.settled → ∀ taskId, .tasksettings taskId n ∉ new

theorem Moves.refl (s : State ρ ε) : Moves s s where
  calls _ c here := ⟨c, here, .refl c⟩
  sent := ⟨[], (List.append_nil _).symm, fun _ _ _ _ _ => List.not_mem_nil⟩

theorem Moves.trans {s s' s'' : State ρ ε} (h : Moves s s') (h' : Moves s' s'') : Moves s s'' where
  calls n c here := by
    obtain ⟨c', here', evolves⟩ := h.calls n c here
    obtain ⟨c'', here'', evolves'⟩ := h'.calls n c' here'
    exact ⟨c'', here'', evolves.trans evolves'⟩
  sent := by
    obtain ⟨new, sent, silent⟩ := h.sent
    obtain ⟨new', sent', silent'⟩ := h'.sent
    refine ⟨new ++ new', by rw [sent', sent, List.append_assoc], fun n c here settled taskId member => ?_⟩
    obtain ⟨c', here', evolves⟩ := h.calls n c here
    cases List.mem_append.1 member with
    | inl first => exact silent n c here settled taskId first
    | inr second => exact silent' n c' here' (evolves.settled settled) taskId second

/-- A call that awaits its result can be found, by its task and by its execution. -/
structure Handled (s : State ρ ε) (n : Nat) (c : Call ρ ε) (taskId : String) : Prop where
  taskAcceptRejects : s.taskAcceptRejects.get taskId = some n
  tasks : s.tasks.get taskId = some n
  execution : ∀ executionId, c.executionId = some executionId → executionId ≠ "" →
    taskId ∈ s.getTaskIds executionId

structure Tracked (s : State ρ ε) : Prop where
  requests : ∀ n ∈ s.requestAcceptRejects, ∃ c, s.calls[n]? = some c ∧ c.stage = .requested
  requested : ∀ (n : Nat) c, s.calls[n]? = some c → c.stage = .requested → n ∈ s.requestAcceptRejects
  running : ∀ (n : Nat) c taskId, s.calls[n]? = some c → c.stage = .running taskId → Handled s n c taskId
  handlers : ∀ taskId n, s.taskAcceptRejects.get taskId = some n →
    ∃ c, s.calls[n]? = some c ∧ c.stage = .running taskId
  blank : ∀ taskId, taskId ∉ s.getTaskIds ""
  unique : ∀ (n m : Nat) c d taskId, s.calls[n]? = some c → s.calls[m]? = some d →
    c.stage.taskId = some taskId → d.stage.taskId = some taskId → n = m

theorem tracked_initial : Tracked ({} : State ρ ε) where
  requests n member := absurd member (OrderedSet.not_mem_empty n)
  requested n c here := by cases here
  running n c taskId here := by cases here
  handlers taskId n found := by cases found
  blank := OrderedSet.not_mem_empty
  unique n m c d taskId here := by cases here

namespace State

theorem getTaskIds_addTaskId (s : State ρ ε) (executionId : Option String) (taskId e t : String) :
    t ∈ (s.addTaskId executionId taskId).getTaskIds e ↔
      t ∈ s.getTaskIds e ∨ executionId = some e ∧ e ≠ "" ∧ t = taskId := by
  unfold addTaskId
  split
  case h_1 id =>
    split
    case isTrue blank =>
      refine ⟨.inl, fun h => h.elim (fun before => before) fun new => absurd ?_ new.2.1⟩
      rw [← Option.some.inj new.1, blank]
    case isFalse filled =>
      rw [getTaskIds, OrderedMap.get_set]
      by_cases same : e = id
      · subst same
        simp [filled]
      · simp [same, Ne.symm same, getTaskIds]
  case h_2 => simp

theorem getTaskIds_clearExecutionsMap {s : State ρ ε} {taskId e t : String} (other : t ≠ taskId)
    (member : t ∈ s.getTaskIds e) : t ∈ (s.clearExecutionsMap taskId).getTaskIds e := by
  unfold clearExecutionsMap
  split
  case h_1 id taskIds found =>
    dsimp only
    have stored : s.executionIdsToTaskIds.get id = some taskIds :=
      (OrderedMap.get_eq_some_iff _ _ _).2 (List.mem_of_find?_eq_some found)
    by_cases same : e = id
    · subst same
      rw [getTaskIds, stored, Option.getD_some] at member
      have kept : t ∈ taskIds.delete taskId := (OrderedSet.mem_delete taskIds taskId t).2 ⟨member, other⟩
      rw [getTaskIds, if_neg fun none => (OrderedSet.size_eq_zero_iff _).1 none t kept,
        OrderedMap.get_set_self, Option.getD_some]
      exact kept
    · rw [getTaskIds] at member ⊢
      split
      case isTrue => rwa [OrderedMap.get_delete_of_ne _ same]
      case isFalse => rwa [OrderedMap.get_set_of_ne _ _ same]
  case h_2 => exact member

theorem of_getTaskIds_clearExecutionsMap {s : State ρ ε} {taskId e t : String}
    (member : t ∈ (s.clearExecutionsMap taskId).getTaskIds e) : t ∈ s.getTaskIds e := by
  unfold clearExecutionsMap at member
  split at member
  case h_1 id taskIds found =>
    have stored : s.executionIdsToTaskIds.get id = some taskIds :=
      (OrderedMap.get_eq_some_iff _ _ _).2 (List.mem_of_find?_eq_some found)
    dsimp only [getTaskIds] at member
    by_cases same : e = id
    · subst same
      split at member
      case isTrue =>
        rw [OrderedMap.get_delete_self] at member
        exact absurd member (OrderedSet.not_mem_empty t)
      case isFalse =>
        rw [OrderedMap.get_set_self, Option.getD_some] at member
        rw [getTaskIds, stored]
        exact ((OrderedSet.mem_delete _ _ _).1 member).1
    · split at member
      case isTrue => rwa [OrderedMap.get_delete_of_ne _ same] at member
      case isFalse => rwa [OrderedMap.get_set_of_ne _ _ same] at member
  case h_2 => exact member

theorem getElem?_startTask {s : State ρ ε} {executionId : Option String} {taskType : String} {n : Nat}
    {c : Call ρ ε} (here : (s.startTask executionId taskType).calls[n]? = some c) :
    s.calls[n]? = some c ∨ n = s.calls.length ∧ c = { executionId, taskType, stage := .requested } := by
  rw [startTask] at here
  rcases Nat.lt_trichotomy n s.calls.length with below | last | above
  · rw [List.getElem?_append_left below] at here
    exact .inl here
  · rw [last, List.getElem?_concat_length] at here
    exact .inr ⟨last, (Option.some.inj here).symm⟩
  · rw [List.getElem?_eq_none (by simp; omega)] at here
    cases here

end State

variable {s : State ρ ε}

theorem tracked_startTask (tracked : Tracked s) (executionId : Option String) (taskType : String) :
    Tracked (s.startTask executionId taskType) where
  requests n member := by
    cases (OrderedSet.mem_add _ _ _).1 member with
    | inl before =>
      obtain ⟨c, here, stage⟩ := tracked.requests n before
      have below : n < s.calls.length := (List.getElem?_eq_some_iff.1 here).1
      exact ⟨c, (List.getElem?_append_left below).trans here, stage⟩
    | inr new =>
      subst new
      exact ⟨_, List.getElem?_concat_length, rfl⟩
  requested n c here stage := by
    refine (OrderedSet.mem_add _ _ _).2 ?_
    cases State.getElem?_startTask here with
    | inl before => exact .inl (tracked.requested n c before stage)
    | inr new => exact .inr new.1
  running n c taskId here stage := by
    cases State.getElem?_startTask here with
    | inl before =>
      have handled := tracked.running n c taskId before stage
      exact ⟨handled.taskAcceptRejects, handled.tasks, handled.execution⟩
    | inr new =>
      simp [new.2] at stage
  handlers taskId n found := by
    obtain ⟨c, here, stage⟩ := tracked.handlers taskId n found
    have below : n < s.calls.length := (List.getElem?_eq_some_iff.1 here).1
    exact ⟨c, (List.getElem?_append_left below).trans here, stage⟩
  blank := tracked.blank
  unique n m c d taskId here here' has has' := by
    cases State.getElem?_startTask here with
    | inl before =>
      cases State.getElem?_startTask here' with
      | inl before' => exact tracked.unique n m c d taskId before before' has has'
      | inr new =>
        rw [new.2] at has'
        cases has'
    | inr new =>
      rw [new.2] at has
      cases has

structure Changes (s s' : State ρ ε) (call : Nat) (old new : Stage ρ ε) : Prop where
  before : ∃ c, s.calls[call]? = some c ∧ c.stage = old
  calls : ∀ (n : Nat) c, s.calls[n]? = some c →
    s'.calls[n]? = some (if n = call then { c with stage := new } else c)
  only : s'.calls.length = s.calls.length

namespace Changes

variable {s' : State ρ ε} {call : Nat} {old new : Stage ρ ε}

section

variable (h : Changes s s' call old new)
include h

theorem here : ∃ c, s.calls[call]? = some c ∧ c.stage = old ∧
    s'.calls[call]? = some { c with stage := new } := by
  obtain ⟨c, found, stage⟩ := h.before
  have after := h.calls call c found
  rw [if_pos rfl] at after
  exact ⟨c, found, stage, after⟩

theorem other {n : Nat} (other : n ≠ call) : s'.calls[n]? = s.calls[n]? := by
  cases found : s.calls[n]? with
  | none =>
    rw [List.getElem?_eq_none_iff] at found ⊢
    rwa [h.only]
  | some c => rw [h.calls n c found, if_neg other]

theorem tracked (tracked : Tracked s)
    (pending : new ≠ .requested) (requestsKept : ∀ n, n ≠ call → (n ∈ s'.requestAcceptRejects ↔ n ∈ s.requestAcceptRejects))
    (requestGone : call ∉ s'.requestAcceptRejects)
    (taskId : ∀ taskId, new.taskId = some taskId → old.taskId = some taskId ∨
      ∀ (n : Nat) d, s.calls[n]? = some d → d.stage.taskId ≠ some taskId)
    (handled : ∀ c taskId, s.calls[call]? = some c → new = .running taskId →
      Handled s' call { c with stage := new } taskId)
    (handledKept : ∀ n c taskId, old.taskId ≠ some taskId → new.taskId ≠ some taskId →
      Handled s n c taskId → Handled s' n c taskId)
    (handlers : ∀ taskId n, s'.taskAcceptRejects.get taskId = some n →
      (n ≠ call ∧ s.taskAcceptRejects.get taskId = some n) ∨ n = call ∧ new = .running taskId)
    (blank : ∀ taskId, taskId ∉ s'.getTaskIds "") : Tracked s' where
  requests n member := by
    have other : n ≠ call := fun same => requestGone (same ▸ member)
    rw [h.other other]
    exact tracked.requests n ((requestsKept n other).1 member)
  requested n c found stage := by
    by_cases same : n = call
    · obtain ⟨d, _, _, after⟩ := h.here
      rw [same, after] at found
      rw [← Option.some.inj found] at stage
      exact absurd stage pending
    · rw [h.other same] at found
      exact (requestsKept n same).2 (tracked.requested n c found stage)
  running n c t found stage := by
    obtain ⟨d, here, was, after⟩ := h.here
    by_cases same : n = call
    · rw [same, after] at found
      rw [← Option.some.inj found] at stage ⊢
      rw [same]
      exact handled d t here stage
    · rw [h.other same] at found
      have mine : c.stage.taskId = some t := by rw [stage]; rfl
      have apart : old.taskId ≠ some t := fun theirs =>
        same (tracked.unique n call c d t found here mine (was ▸ theirs))
      refine handledKept n c t apart (fun theirs => ?_) (tracked.running n c t found stage)
      cases taskId t theirs with
      | inl kept => exact apart kept
      | inr fresh => exact fresh n c found mine
  handlers t n found := by
    cases handlers t n found with
    | inl kept =>
      rw [h.other kept.1]
      exact tracked.handlers t n kept.2
    | inr registered =>
      obtain ⟨d, _, _, after⟩ := h.here
      rw [registered.1]
      exact ⟨_, after, registered.2⟩
  blank := blank
  unique := by
    obtain ⟨d, here, was, after⟩ := h.here
    have apart : ∀ (n : Nat) c t, n ≠ call → s.calls[n]? = some c → c.stage.taskId = some t → new.taskId ≠ some t := by
      intro n c t other found mine theirs
      cases taskId t theirs with
      | inl kept => exact other (tracked.unique n call c d t found here mine (was ▸ kept))
      | inr fresh => exact fresh n c found mine
    intro n m c c' t found found' mine theirs
    by_cases first : n = call
    · by_cases second : m = call
      · rw [first, second]
      · rw [first, after] at found
        rw [h.other second] at found'
        rw [← Option.some.inj found] at mine
        exact absurd mine (apart m c' t second found' theirs)
    · rw [h.other first] at found
      by_cases second : m = call
      · rw [second, after] at found'
        rw [← Option.some.inj found'] at theirs
        exact absurd theirs (apart n c t first found mine)
      · rw [h.other second] at found'
        exact tracked.unique n m c c' t found found' mine theirs

theorem moves (sent : List ToBroker) (log : s'.sent = s.sent ++ sent)
    (taskId : ∀ taskId, old.taskId = some taskId → new.taskId = some taskId)
    (settled : old.settled → new.settled) (cancelled : old.cancelled → new.cancelled)
    (silent : ∀ taskId n, .tasksettings taskId n ∈ sent → n = call ∧ old.settled = false) : Moves s s' where
  calls n c found := by
    refine ⟨_, h.calls n c found, ?_⟩
    by_cases same : n = call
    · rw [if_pos same]
      obtain ⟨d, here, was, _⟩ := h.here
      rw [same, here] at found
      cases found
      subst was
      exact ⟨rfl, taskId, settled, cancelled⟩
    · rw [if_neg same]
      exact .refl c
  sent := by
    refine ⟨sent, log, fun n c found ended t member => ?_⟩
    obtain ⟨same, pending⟩ := silent t n member
    obtain ⟨d, here, was, _⟩ := h.here
    rw [same, here] at found
    cases found
    rw [was, pending] at ended
    cases ended

end

end Changes

theorem changes_modifyStage {call : Nat} {c : Call ρ ε} {old : Stage ρ ε} (here : s.calls[call]? = some c)
    (stage : c.stage = old) (f : Stage ρ ε → Stage ρ ε) (s' : State ρ ε)
    (calls : s'.calls = (s.modifyStage call f).calls) : Changes s s' call old (f old) where
  before := ⟨c, here, stage⟩
  calls n d found := by
    rw [calls, State.modifyStage, List.getElem?_modify, found]
    by_cases same : n = call
    · subst same
      rw [here] at found
      cases found
      simp [stage]
    · simp [same, Ne.symm same]
  only := by rw [calls, State.modifyStage, List.length_modify]

theorem requests_of_stage (tracked : Tracked s) {call : Nat} {c : Call ρ ε} (here : s.calls[call]? = some c)
    (stage : c.stage ≠ .requested) : call ∉ s.requestAcceptRejects := by
  intro member
  obtain ⟨d, found, requested⟩ := tracked.requests call member
  rw [here] at found
  cases found
  exact stage requested

theorem handlers_of_stage (tracked : Tracked s) {call : Nat} {c : Call ρ ε} (here : s.calls[call]? = some c)
    (stage : c.stage.awaited = none) {taskId : String} {n : Nat}
    (found : s.taskAcceptRejects.get taskId = some n) : n ≠ call ∧ s.taskAcceptRejects.get taskId = some n := by
  refine ⟨fun shared => ?_, found⟩
  obtain ⟨d, there, running⟩ := tracked.handlers taskId n found
  rw [shared, here] at there
  cases there
  rw [running] at stage
  cases stage

theorem moves_startTask (s : State ρ ε) (executionId : Option String) (taskType : String) :
    Moves s (s.startTask executionId taskType) where
  calls n c found := by
    have below : n < s.calls.length := (List.getElem?_eq_some_iff.1 found).1
    exact ⟨c, (List.getElem?_append_left below).trans found, .refl c⟩
  sent := ⟨_, rfl, fun _ _ _ _ _ member => by cases List.mem_singleton.1 member⟩

theorem changes_settleTask (tracked : Tracked s) {taskId : String} {call : Nat}
    (handler : s.taskAcceptRejects.get taskId = some call) (answer : Answer ρ ε) :
    Changes s (s.settleTask taskId answer) call (.running taskId) (.answered taskId answer) := by
  obtain ⟨c, here, stage⟩ := tracked.handlers taskId call handler
  refine changes_modifyStage here stage (Stage.settle answer) _ ?_
  simp only [State.settleTask, handler]

theorem settleTask_unhandled {taskId : String} (unhandled : s.taskAcceptRejects.get taskId = none)
    (answer : Answer ρ ε) : s.settleTask taskId answer = s := by
  simp only [State.settleTask, unhandled]

theorem tracked_settleTask (tracked : Tracked s) (taskId : String) (answer : Answer ρ ε) :
    Tracked (s.settleTask taskId answer) := by
  cases handler : s.taskAcceptRejects.get taskId with
  | none => rwa [settleTask_unhandled handler]
  | some call =>
    have changes := changes_settleTask tracked handler answer
    obtain ⟨c, here, stage, _⟩ := changes.here
    have state : s.settleTask taskId answer =
        { s.modifyStage call (Stage.settle answer) with
          taskAcceptRejects := s.taskAcceptRejects.delete taskId } := by
      simp only [State.settleTask, handler]
    refine changes.tracked tracked (by simp) (fun n _ => by rw [state]; rfl) (fun member => ?_)
      (fun t has => .inl has) (fun _ _ _ impossible => by cases impossible) (fun n d t other _ kept => ?_)
      (fun t n found => ?_) (by rw [state]; exact tracked.blank)
    · rw [state] at member
      obtain ⟨d, found, requested⟩ := tracked.requests call member
      rw [here] at found
      cases found
      rw [stage] at requested
      cases requested
    · rw [state]
      refine ⟨?_, kept.tasks, kept.execution⟩
      exact (OrderedMap.get_delete_of_ne _ fun same => other (congrArg some same.symm)).trans
        kept.taskAcceptRejects
    · rw [state] at found
      by_cases same : t = taskId
      · simp [same, OrderedMap.get_delete_self] at found
      · rw [OrderedMap.get_delete_of_ne _ same] at found
        refine .inl ⟨fun shared => ?_, found⟩
        obtain ⟨d, there, running⟩ := tracked.handlers t n found
        rw [shared, here] at there
        cases there
        rw [stage] at running
        exact same (Stage.running.inj running).symm

theorem moves_settleTask (tracked : Tracked s) (taskId : String) (answer : Answer ρ ε) :
    Moves s (s.settleTask taskId answer) := by
  cases handler : s.taskAcceptRejects.get taskId with
  | none =>
    rw [settleTask_unhandled handler]
    exact .refl s
  | some call =>
    refine (changes_settleTask tracked handler answer).moves [] ?_ (fun _ => id) (fun _ => rfl)
      (fun impossible => by cases impossible) (fun _ _ member => absurd member List.not_mem_nil)
    simp only [State.settleTask, handler, State.modifyStage, List.append_nil]

theorem not_running (tracked : Tracked s) {taskId : String} (unhandled : s.taskAcceptRejects.get taskId = none)
    {n : Nat} {c : Call ρ ε} (here : s.calls[n]? = some c) : c.stage ≠ .running taskId := by
  intro running
  simp [(tracked.running n c taskId here running).taskAcceptRejects] at unhandled

theorem unhandled_settleTask (s : State ρ ε) (taskId : String) (answer : Answer ρ ε) :
    (s.settleTask taskId answer).taskAcceptRejects.get taskId = none := by
  unfold State.settleTask
  split
  case h_1 => exact OrderedMap.get_delete_self _ taskId
  case h_2 unhandled => exact unhandled

theorem cancelTask_eq (s : State ρ ε) (taskId reason : String) :
    s.cancelTask taskId reason = match s.tasks.get taskId with
      | some _ => { s.settleTask taskId (.cancelled reason) with
          tasks := s.tasks.delete taskId, sent := s.sent ++ [.taskcancel taskId reason] }
      | none => s := by
  unfold State.cancelTask
  cases s.tasks.get taskId with
  | none => rfl
  | some n =>
    unfold State.settleTask State.sendMessage State.modifyStage
    dsimp only
    cases s.taskAcceptRejects.get taskId <;> rfl

section

variable (tracked : Tracked s)
include tracked

theorem tracked_cancelTask (taskId reason : String) :
    Tracked (s.cancelTask taskId reason) := by
  rw [cancelTask_eq]
  split
  case h_1 =>
    have settled := tracked_settleTask tracked taskId (.cancelled reason)
    have gone := unhandled_settleTask s taskId (.cancelled reason)
    refine ⟨settled.requests, settled.requested, fun n c t here running => ?_, settled.handlers, settled.blank,
      settled.unique⟩
    have handled := settled.running n c t here running
    refine ⟨handled.taskAcceptRejects, ?_, handled.execution⟩
    have other : t ≠ taskId := fun same => not_running settled gone here (same ▸ running)
    have stored : s.tasks.get t = some n := by
      rw [← handled.tasks]
      unfold State.settleTask
      split <;> rfl
    exact (OrderedMap.get_delete_of_ne _ other).trans stored
  case h_2 => exact tracked

theorem moves_cancelTask (taskId reason : String) :
    Moves s (s.cancelTask taskId reason) := by
  rw [cancelTask_eq]
  split
  case h_1 =>
    refine ⟨(moves_settleTask tracked taskId (.cancelled reason)).calls, _, rfl, fun _ _ _ _ _ member => ?_⟩
    cases List.mem_singleton.1 member
  case h_2 => exact .refl s

theorem cancelTask_running {n : Nat} {c : Call ρ ε} {taskId : String}
    (here : s.calls[n]? = some c) (running : c.stage = .running taskId) (other reason : String) :
    ∃ c', (s.cancelTask other reason).calls[n]? = some c' ∧
      (other = taskId ∧ c'.stage.cancelled ∨ other ≠ taskId ∧ c'.stage = .running taskId) := by
  have handled := tracked.running n c taskId here running
  have calls : ∀ m, (s.tasks.get other = some m) →
      (s.cancelTask other reason).calls = (s.settleTask other (.cancelled reason)).calls := by
    intro m stored
    rw [cancelTask_eq, stored]
  by_cases same : other = taskId
  · subst same
    have changes := changes_settleTask tracked handled.taskAcceptRejects (.cancelled reason)
    obtain ⟨_, _, _, after⟩ := changes.here
    rw [calls n handled.tasks]
    exact ⟨_, after, .inl ⟨rfl, rfl⟩⟩
  · cases stored : s.tasks.get other with
    | none =>
      rw [cancelTask_eq, stored]
      exact ⟨c, here, .inr ⟨same, running⟩⟩
    | some m =>
      rw [calls m stored]
      cases handler : s.taskAcceptRejects.get other with
      | none =>
        rw [settleTask_unhandled handler]
        exact ⟨c, here, .inr ⟨same, running⟩⟩
      | some k =>
        have changes := changes_settleTask tracked handler (.cancelled reason)
        obtain ⟨d, there, stage, _⟩ := changes.here
        have apart : n ≠ k := by
          intro shared
          rw [← shared, here] at there
          cases there
          rw [running] at stage
          exact same (Stage.running.inj stage).symm
        exact ⟨c, (changes.other apart).trans here, .inr ⟨same, running⟩⟩

theorem cancelTask_other {n : Nat} {c : Call ρ ε} (here : s.calls[n]? = some c)
    (awaited : c.stage.awaited = none) (taskId reason : String) :
    (s.cancelTask taskId reason).calls[n]? = some c := by
  rw [cancelTask_eq]
  split
  case h_1 =>
    change (s.settleTask taskId (.cancelled reason)).calls[n]? = some c
    cases handler : s.taskAcceptRejects.get taskId with
    | none => rwa [settleTask_unhandled handler]
    | some m =>
      have changes := changes_settleTask tracked handler (.cancelled reason)
      have other := (handlers_of_stage tracked here awaited handler).1
      exact (changes.other (Ne.symm other)).trans here
  case h_2 => exact here

theorem cancel_each (taskIds : List String) :
    let s' := taskIds.foldl (fun s taskId => s.cancelTask taskId) s
    Tracked s' ∧ Moves s s' ∧ (∀ (n : Nat) c taskId, s.calls[n]? = some c →
      c.stage = .running taskId → taskId ∈ taskIds → ∃ c' : Call ρ ε, s'.calls[n]? = some c' ∧ c'.stage.cancelled) ∧
      ∀ (n : Nat) c, s.calls[n]? = some c → c.stage.awaited = none → s'.calls[n]? = some c := by
  induction taskIds generalizing s with
  | nil => exact ⟨tracked, .refl s, fun _ _ _ _ _ member => absurd member List.not_mem_nil, fun _ _ here _ => here⟩
  | cons first taskIds ih =>
    have moves := moves_cancelTask tracked first "Task cancelled by user"
    obtain ⟨tracked', moves', cancelled, kept⟩ := ih (tracked_cancelTask tracked first "Task cancelled by user")
    refine ⟨tracked', moves.trans moves', fun n c taskId here running member => ?_, fun n c here awaited =>
      kept n c (cancelTask_other tracked here awaited first "Task cancelled by user") awaited⟩
    obtain ⟨d, there, stage⟩ := cancelTask_running tracked here running first "Task cancelled by user"
    rcases stage with ⟨rfl, stopped⟩ | ⟨other, stage⟩
    · obtain ⟨c', after, evolves⟩ := moves'.calls n d there
      exact ⟨c', after, evolves.cancelled stopped⟩
    · exact cancelled n d taskId there stage ((List.mem_cons.1 member).resolve_left (Ne.symm other))

theorem changes_request {requestId : Nat} (waiting : requestId ∈ s.requestAcceptRejects)
    (new : Stage ρ ε) (s' : State ρ ε)
    (state : s' = { s.modifyStage requestId (fun _ => new) with
      requestAcceptRejects := s.requestAcceptRejects.delete requestId }) :
    Changes s s' requestId .requested new ∧ Moves s s' ∧
      (new.awaited = none → new ≠ .requested →
        (∀ taskId, new.taskId = some taskId → ∀ (n : Nat) d, s.calls[n]? = some d → d.stage.taskId ≠ some taskId) →
        Tracked s') := by
  obtain ⟨c, here, stage⟩ := tracked.requests requestId waiting
  have changes : Changes s s' requestId .requested new := by
    rw [state]
    exact changes_modifyStage here stage (fun _ => new) _ rfl
  refine ⟨changes, ?_, fun awaited pending fresh => ?_⟩
  · refine changes.moves [] (by rw [state, List.append_nil]; rfl) (fun _ impossible => ?_)
      (fun impossible => ?_) (fun impossible => ?_) (fun _ _ member => absurd member List.not_mem_nil)
    · cases impossible
    · cases impossible
    · cases impossible
  · subst state
    refine changes.tracked tracked pending (fun n other => ?_) (fun member => ?_)
      (fun taskId has => .inr (fresh taskId has)) (fun _ taskId _ running => ?_) (fun _ _ _ _ _ kept => ?_)
      (fun taskId n found => .inl (handlers_of_stage tracked here (by rw [stage]; rfl) found)) tracked.blank
    · exact (OrderedSet.mem_delete _ _ _).trans (and_iff_left other)
    · exact ((OrderedSet.mem_delete _ _ _).1 member).2 rfl
    · rw [running] at awaited
      cases awaited
    · exact ⟨kept.taskAcceptRejects, kept.tasks, kept.execution⟩

end

theorem register_eq (s : State ρ ε) (call : Nat) (executionId : Option String) (taskId : String) :
    s.register call executionId taskId =
      { s with
        calls := s.calls.modify call fun c => { c with stage := .running taskId }
        taskAcceptRejects := s.taskAcceptRejects.set taskId call
        tasks := s.tasks.set taskId call
        executionIdsToTaskIds := (s.addTaskId executionId taskId).executionIdsToTaskIds
        sent := s.sent ++ [.tasksettings taskId call] } := by
  unfold State.register State.addTaskId
  cases executionId with
  | none => rfl
  | some executionId => by_cases blank : executionId = "" <;> simp only [blank, if_true, if_false] <;> rfl

theorem register_spec (tracked : Tracked s) {call : Nat} {c : Call ρ ε} {taskId : String}
    (here : s.calls[call]? = some c) (stage : c.stage = .accepted taskId) :
    Moves s (s.register call c.executionId taskId) ∧ Tracked (s.register call c.executionId taskId) := by
  rw [register_eq]
  have changes := changes_modifyStage here stage (fun _ => .running taskId)
    ({ s with
        calls := s.calls.modify call fun c => { c with stage := .running taskId }
        taskAcceptRejects := s.taskAcceptRejects.set taskId call
        tasks := s.tasks.set taskId call
        executionIdsToTaskIds := (s.addTaskId c.executionId taskId).executionIdsToTaskIds
        sent := s.sent ++ [.tasksettings taskId call] }) rfl
  refine ⟨changes.moves _ rfl (fun _ => id) (fun impossible => by cases impossible)
    (fun impossible => by cases impossible) (fun t n member => ?_), ?_⟩
  · cases List.mem_singleton.1 member
    exact ⟨rfl, rfl⟩
  refine changes.tracked tracked (by simp) (fun _ _ => Iff.rfl) (requests_of_stage tracked here (by simp [stage]))
    (fun _ => .inl) (fun d t found running => ?_) (fun n d t other _ kept => ?_) (fun t n found => ?_)
    (fun t member => ?_)
  · rw [here] at found
    cases found
    cases running
    exact ⟨OrderedMap.get_set_self _ _ _, OrderedMap.get_set_self _ _ _, fun e mine filled =>
      (State.getTaskIds_addTaskId s c.executionId taskId e taskId).2 (.inr ⟨mine, filled, rfl⟩)⟩
  · have apart : t ≠ taskId := fun same => other (congrArg some same.symm)
    exact ⟨(OrderedMap.get_set_of_ne _ _ apart).trans kept.taskAcceptRejects,
      (OrderedMap.get_set_of_ne _ _ apart).trans kept.tasks, fun e mine filled =>
      (State.getTaskIds_addTaskId s c.executionId taskId e t).2 (.inl (kept.execution e mine filled))⟩
  · by_cases same : t = taskId
    · rw [same, OrderedMap.get_set_self] at found
      exact .inr ⟨(Option.some.inj found).symm, by rw [same]⟩
    · rw [OrderedMap.get_set_of_ne _ _ same] at found
      exact .inl (handlers_of_stage tracked here (by rw [stage]; rfl) found)
  · exact ((State.getTaskIds_addTaskId s c.executionId taskId "" t).1 member).elim (tracked.blank t)
      fun new => new.2.1 rfl

theorem finish_eq (s : State ρ ε) (call : Nat) (taskId : String) (answer : Answer ρ ε) :
    s.finish call taskId answer =
      { s with
        calls := s.calls.modify call fun c => { c with stage := .returned taskId answer }
        tasks := s.tasks.delete taskId
        executionIdsToTaskIds := (s.clearExecutionsMap taskId).executionIdsToTaskIds } := by
  unfold State.finish State.clearExecutionsMap State.modifyStage
  cases s.executionIdsToTaskIds.entries.find? fun entry => entry.2.contains taskId <;> rfl

theorem finish_spec (tracked : Tracked s) {call : Nat} {c : Call ρ ε} {taskId : String} {answer : Answer ρ ε}
    (here : s.calls[call]? = some c) (stage : c.stage = .answered taskId answer) :
    Moves s (s.finish call taskId answer) ∧ Tracked (s.finish call taskId answer) := by
  rw [finish_eq]
  have changes := changes_modifyStage here stage (fun _ => .returned taskId answer)
    ({ s with
        calls := s.calls.modify call fun c => { c with stage := .returned taskId answer }
        tasks := s.tasks.delete taskId
        executionIdsToTaskIds := (s.clearExecutionsMap taskId).executionIdsToTaskIds }) rfl
  refine ⟨changes.moves [] (List.append_nil _).symm (fun _ => id) (fun _ => rfl) (fun stopped => ?_)
    (fun _ _ member => absurd member List.not_mem_nil), ?_⟩
  · cases answer with
    | cancelled reason => rfl
    | result result => cases stopped
    | error error => cases stopped
  refine changes.tracked tracked (by simp) (fun _ _ => Iff.rfl) (requests_of_stage tracked here (by simp [stage]))
    (fun _ => .inl) (fun _ _ _ impossible => by cases impossible) (fun n d t other _ kept => ?_)
    (fun t n found => .inl (handlers_of_stage tracked here (by rw [stage]; rfl) found))
    (fun t member => tracked.blank t (State.of_getTaskIds_clearExecutionsMap member))
  have apart : t ≠ taskId := fun same => other (congrArg some same.symm)
  exact ⟨kept.taskAcceptRejects, (OrderedMap.get_delete_of_ne _ apart).trans kept.tasks,
    fun e mine filled => State.getTaskIds_clearExecutionsMap apart (kept.execution e mine filled)⟩

theorem thrown_spec (tracked : Tracked s) {call : Nat} {c : Call ρ ε} (here : s.calls[call]? = some c)
    (stage : c.stage = .expired) :
    Moves s (s.modifyStage call fun _ => .thrown) ∧ Tracked (s.modifyStage call fun _ => .thrown) := by
  have changes := changes_modifyStage here stage (fun _ => .thrown) (s.modifyStage call fun _ => .thrown) rfl
  refine ⟨changes.moves [] (List.append_nil _).symm (fun _ => id) (fun _ => rfl)
    (fun impossible => by cases impossible) (fun _ _ member => absurd member List.not_mem_nil), ?_⟩
  exact changes.tracked tracked (by simp) (fun _ _ => Iff.rfl) (requests_of_stage tracked here (by simp [stage]))
    (fun _ => .inl) (fun _ _ _ impossible => by cases impossible)
    (fun _ _ _ _ _ kept => ⟨kept.taskAcceptRejects, kept.tasks, kept.execution⟩)
    (fun t n found => .inl (handlers_of_stage tracked here (by rw [stage]; rfl) found)) tracked.blank

theorem sent_cancelTasks (s : State ρ ε) (executionId : String) :
    ∃ new, (s.cancelTasks executionId).sent = s.sent ++ new ∧ ∀ taskId n, .tasksettings taskId n ∉ new := by
  unfold State.cancelTasks
  generalize (s.getTaskIds executionId).elems = taskIds
  induction taskIds generalizing s with
  | nil => exact ⟨[], (List.append_nil _).symm, fun _ _ => List.not_mem_nil⟩
  | cons taskId taskIds ih =>
    obtain ⟨new, sent, silent⟩ := ih (s.cancelTask taskId)
    rw [List.foldl_cons, sent, cancelTask_eq]
    split
    case h_1 =>
      refine ⟨[.taskcancel taskId "Task cancelled by user"] ++ new, by rw [← List.append_assoc], fun t n member => ?_⟩
      cases List.mem_append.1 member with
      | inl cancel => cases List.mem_singleton.1 cancel
      | inr later => exact silent t n later
    case h_2 => exact ⟨new, rfl, silent⟩

theorem resume_spec (tracked : Tracked s) (call : Nat) : Moves s (s.resume call) ∧ Tracked (s.resume call) := by
  unfold State.resume
  split
  case h_1 executionId taskType stage here =>
    cases stage with
    | expired => exact thrown_spec tracked here rfl
    | accepted taskId => exact register_spec tracked here rfl
    | answered taskId answer => exact finish_spec tracked here rfl
    | requested | thrown | running taskId | returned taskId answer => exact ⟨.refl s, tracked⟩
  case h_2 => exact ⟨.refl s, tracked⟩

/-- The task that becomes ready is that of no other call. -/
def Fresh (s : State ρ ε) (action : Action ρ ε) : Prop :=
  ∀ requestId taskId, action = .taskReady requestId taskId →
    ∀ (n : Nat) c, s.calls[n]? = some c → c.stage.taskId ≠ some taskId

theorem next_spec (tracked : Tracked s) (action : Action ρ ε) :
    Moves s (s.next action) ∧ (Fresh s action → Tracked (s.next action)) := by
  cases action with
  | startTask executionId taskType =>
    exact ⟨moves_startTask s executionId taskType, fun _ => tracked_startTask tracked executionId taskType⟩
  | resume call => exact ⟨(resume_spec tracked call).1, fun _ => (resume_spec tracked call).2⟩
  | taskReady requestId taskId =>
    change Moves s (s.taskReady requestId taskId) ∧ (_ → Tracked (s.taskReady requestId taskId))
    by_cases waiting : requestId ∈ s.requestAcceptRejects
    · obtain ⟨_, moves, kept⟩ := changes_request tracked waiting (.accepted taskId)
        (s.taskReady requestId taskId) (by rw [State.taskReady, if_pos waiting]; rfl)
      refine ⟨moves, fun fresh => kept rfl (by simp) fun t same => ?_⟩
      cases same
      exact fresh requestId taskId rfl
    · rw [State.taskReady, if_neg waiting]
      refine ⟨⟨(Moves.refl s).calls, _, rfl, fun _ _ _ _ _ member => ?_⟩, fun _ => ?_⟩
      · cases List.mem_singleton.1 member
      · exact ⟨tracked.requests, tracked.requested, fun n c t here running =>
          ⟨(tracked.running n c t here running).1, (tracked.running n c t here running).2,
            (tracked.running n c t here running).3⟩, tracked.handlers, tracked.blank, tracked.unique⟩
  | taskDone taskId data =>
    exact ⟨moves_settleTask tracked taskId _, fun _ => tracked_settleTask tracked taskId _⟩
  | taskError taskId error =>
    exact ⟨moves_settleTask tracked taskId _, fun _ => tracked_settleTask tracked taskId _⟩
  | requestExpired requestId =>
    change Moves s (s.requestExpired requestId) ∧ (_ → Tracked (s.requestExpired requestId))
    by_cases waiting : requestId ∈ s.requestAcceptRejects
    · obtain ⟨_, moves, kept⟩ := changes_request tracked waiting .expired
        (s.requestExpired requestId) (by rw [State.requestExpired, if_pos waiting]; rfl)
      exact ⟨moves, fun _ => kept rfl (by simp) fun _ impossible => by cases impossible⟩
    · rw [State.requestExpired, if_neg waiting]
      exact ⟨.refl s, fun _ => tracked⟩
  | cancelTasks executionId =>
    obtain ⟨tracked', moves, _⟩ := cancel_each tracked (s.getTaskIds executionId).elems
    exact ⟨moves, fun _ => tracked'⟩

def Ends (n : Nat) (c : Call ρ ε) : Action ρ ε → Prop
  | .taskDone taskId _ | .taskError taskId _ => c.stage.taskId = some taskId
  | .requestExpired requestId => requestId = n
  | .startTask _ _ | .resume _ | .taskReady _ _ | .cancelTasks _ => False

/-- From any action of the run on, in every state reached: a call whose request or task the
action has ended is settled; and where the action has cancelled its execution, it is settled
as cancelled, if it was not settled before, and has sent no settings since. -/
def LosesNoOutcome (actions : List (Action ρ ε)) : Prop :=
  ∀ before action later rest, actions = before ++ action :: (later ++ rest) →
    let s := after State.next {} before
    let s' := after State.next s (action :: later)
    ∀ (n : Nat) c c', s.calls[n]? = some c → s'.calls[n]? = some c' →
      (Ends n c' action → c'.stage.settled) ∧
        ∀ executionId, action = .cancelTasks executionId → c'.executionId = some executionId →
          (c.stage.settled = false → c'.stage.cancelled) ∧
            ∀ taskId, .tasksettings taskId n ∉ s'.sent.drop s.sent.length

/-- A task that becomes ready has an id that no message has mentioned. -/
def Announced (actions : List (Action ρ ε)) : Prop :=
  actions.Pairwise fun earlier later => ∀ requestId taskId, later = .taskReady requestId taskId →
    earlier.taskId ≠ some taskId

/-- A message about a task meets no call that has still to register for it, the expiry of a
request none that has got its task, and a cancellation only calls that are settled or await
their result. -/
def Orderly (s : State ρ ε) : Action ρ ε → Prop
  | .taskDone taskId _ | .taskError taskId _ => ∀ c ∈ s.calls, c.stage.starting ≠ some taskId
  | .requestExpired requestId => ∀ c ∈ s.calls[requestId]?, c.stage.starting = none ∧ c.stage.awaited = none
  | .cancelTasks executionId => ∀ c ∈ s.calls, c.executionId = some executionId → c.stage.settled = false →
      executionId ≠ "" ∧ c.stage.awaited ≠ none
  | .startTask _ _ | .resume _ | .taskReady _ _ => True

instance decidableOrderly (s : State ρ ε) : (action : Action ρ ε) → Decidable (Orderly s action)
  | .taskDone taskId _ | .taskError taskId _ =>
    inferInstanceAs (Decidable (∀ c ∈ s.calls, c.stage.starting ≠ some taskId))
  | .requestExpired requestId =>
    inferInstanceAs (Decidable (∀ c ∈ s.calls[requestId]?, c.stage.starting = none ∧ c.stage.awaited = none))
  | .cancelTasks executionId =>
    inferInstanceAs (Decidable (∀ c ∈ s.calls, c.executionId = some executionId → c.stage.settled = false →
      executionId ≠ "" ∧ c.stage.awaited ≠ none))
  | .startTask _ _ | .resume _ | .taskReady _ _ => isTrue trivial

/-- What the action itself must bring about. -/
def Reaches (s : State ρ ε) (action : Action ρ ε) : Prop :=
  ∀ (n : Nat) c c', s.calls[n]? = some c → (s.next action).calls[n]? = some c' →
    (Ends n c action → c'.stage.settled) ∧
      ∀ executionId, action = .cancelTasks executionId → c.executionId = some executionId →
        c.stage.settled = false → c'.stage.cancelled

theorem Stage.pending_cases {stage : Stage ρ ε} (pending : stage.settled = false) :
    stage = .requested ∨ ∃ taskId, stage = .accepted taskId ∨ stage = .running taskId := by
  cases stage with
  | requested => exact .inl rfl
  | accepted taskId => exact .inr ⟨taskId, .inl rfl⟩
  | running taskId => exact .inr ⟨taskId, .inr rfl⟩
  | expired | thrown | answered taskId answer | returned taskId answer => cases pending

theorem Stage.settled_of_cancelled {stage : Stage ρ ε} (stopped : stage.cancelled) : stage.settled := by
  cases stage with
  | answered taskId answer => rfl
  | returned taskId answer => rfl
  | requested | expired | thrown | accepted taskId | running taskId => cases stopped

theorem settleTask_settles (tracked : Tracked s) (taskId : String) (answer : Answer ρ ε) :
    (∀ (n : Nat) c c', s.calls[n]? = some c → (s.settleTask taskId answer).calls[n]? = some c' →
      c.stage.taskId = some taskId → c'.stage.settled) ↔ ∀ c ∈ s.calls, c.stage.starting ≠ some taskId := by
  have starting : ∀ {stage : Stage ρ ε}, stage.starting = some taskId ↔ stage = .accepted taskId := by
    intro stage
    cases stage <;> simp [Stage.starting]
  refine ⟨fun settles c member waits => ?_, fun apart n c c' here after mine => ?_⟩
  · obtain ⟨n, here⟩ := List.mem_iff_getElem?.1 member
    have stage := starting.1 waits
    have kept : (s.settleTask taskId answer).calls[n]? = some c := by
      cases handler : s.taskAcceptRejects.get taskId with
      | none => rwa [settleTask_unhandled handler]
      | some m =>
        have changes := changes_settleTask tracked handler answer
        obtain ⟨d, there, running, _⟩ := changes.here
        have other : n ≠ m := by
          intro same
          rw [← same, here] at there
          cases there
          rw [stage] at running
          cases running
        exact (changes.other other).trans here
    have settled := settles n c c here kept (by rw [stage]; rfl)
    rw [stage] at settled
    cases settled
  · obtain ⟨d, there, evolves⟩ := (moves_settleTask tracked taskId answer).calls n c here
    rw [after] at there
    cases there
    cases pending : c.stage.settled with
    | true => exact evolves.settled pending
    | false =>
      rcases Stage.pending_cases pending with stage | ⟨t, stage | stage⟩
      · rw [stage] at mine
        cases mine
      · rw [stage] at mine
        cases mine
        exact absurd (starting.2 stage) (apart c (List.mem_of_getElem? here))
      · rw [stage] at mine
        cases mine
        have handled := tracked.running n c taskId here stage
        obtain ⟨e, _, _, answered⟩ := (changes_settleTask tracked handled.taskAcceptRejects answer).here
        rw [after] at answered
        cases answered
        rfl

theorem requestExpired_settles (tracked : Tracked s) (requestId : Nat) :
    (∀ c c', s.calls[requestId]? = some c → (s.requestExpired requestId).calls[requestId]? = some c' →
      c'.stage.settled) ↔
      ∀ c ∈ s.calls[requestId]?, c.stage.starting = none ∧ c.stage.awaited = none := by
  refine ⟨fun settles c here => ?_, fun apart c c' here after => ?_⟩
  · by_cases waiting : requestId ∈ s.requestAcceptRejects
    · obtain ⟨d, there, stage⟩ := tracked.requests requestId waiting
      rw [Option.mem_def.1 here] at there
      cases there
      rw [stage]
      exact ⟨rfl, rfl⟩
    · have settled := settles c c here (by rw [State.requestExpired, if_neg waiting]; exact here)
      revert settled
      cases c.stage <;> simp [Stage.settled, Stage.starting, Stage.awaited]
  · obtain ⟨_, evolves⟩ := (next_spec tracked (.requestExpired requestId)).1.calls requestId c here
    rw [State.next, after] at evolves
    obtain ⟨same, evolves⟩ := evolves
    cases same
    cases pending : c.stage.settled with
    | true => exact evolves.settled pending
    | false =>
      rcases Stage.pending_cases pending with stage | ⟨t, stage | stage⟩
      · have waiting := tracked.requested requestId c here stage
        obtain ⟨_, _, _, expired⟩ := (changes_request tracked waiting .expired
          (s.requestExpired requestId) (by rw [State.requestExpired, if_pos waiting]; rfl)).1.here
        rw [after] at expired
        cases expired
        rfl
      · have none := (apart c here).1
        rw [stage] at none
        cases none
      · have none := (apart c here).2
        rw [stage] at none
        cases none

theorem cancelTasks_cancels (tracked : Tracked s) (executionId : String) :
    (∀ (n : Nat) c c', s.calls[n]? = some c → (s.cancelTasks executionId).calls[n]? = some c' →
      c.executionId = some executionId → c.stage.settled = false → c'.stage.cancelled) ↔
      ∀ c ∈ s.calls, c.executionId = some executionId → c.stage.settled = false →
        executionId ≠ "" ∧ c.stage.awaited ≠ none := by
  obtain ⟨_, moves, cancelled, kept⟩ := cancel_each tracked (s.getTaskIds executionId).elems
  refine ⟨fun cancels c member mine pending => ⟨fun blank => ?_, fun awaited => ?_⟩,
    fun apart n c c' here after mine pending => ?_⟩
  · obtain ⟨n, here⟩ := List.mem_iff_getElem?.1 member
    have empty : (s.getTaskIds executionId).elems = [] := by
      rw [blank, List.eq_nil_iff_forall_not_mem]
      exact tracked.blank
    have ends := cancels n c c here (by rw [State.cancelTasks, empty]; exact here) mine pending
    revert ends pending
    cases c.stage <;> simp [Stage.settled, Stage.cancelled]
  · obtain ⟨n, here⟩ := List.mem_iff_getElem?.1 member
    have ends := cancels n c c here (kept n c here awaited) mine pending
    revert ends pending
    cases c.stage <;> simp [Stage.settled, Stage.cancelled]
  · obtain ⟨filled, awaited⟩ := apart c (List.mem_of_getElem? here) mine pending
    rcases Stage.pending_cases pending with stage | ⟨taskId, stage | stage⟩
    · rw [stage] at awaited
      exact absurd rfl awaited
    · rw [stage] at awaited
      exact absurd rfl awaited
    · have handled := tracked.running n c taskId here stage
      obtain ⟨d, there, stopped⟩ := cancelled n c taskId here stage (handled.execution executionId mine filled)
      change (s.cancelTasks executionId).calls[n]? = some d at there
      rw [after] at there
      cases there
      exact stopped

theorem reaches_iff (tracked : Tracked s) (action : Action ρ ε) : Reaches s action ↔ Orderly s action := by
  cases action with
  | startTask executionId taskType =>
    exact iff_of_true (fun _ _ _ _ _ => ⟨(fun never => by cases never), (fun _ never => by cases never)⟩) trivial
  | resume call =>
    exact iff_of_true (fun _ _ _ _ _ => ⟨(fun never => by cases never), (fun _ never => by cases never)⟩) trivial
  | taskReady requestId taskId =>
    exact iff_of_true (fun _ _ _ _ _ => ⟨(fun never => by cases never), (fun _ never => by cases never)⟩) trivial
  | taskDone taskId data =>
    refine Iff.trans ?_ (settleTask_settles tracked taskId (.result data))
    exact ⟨fun h n c c' here after mine => (h n c c' here after).1 mine,
      fun h n c c' here after => ⟨h n c c' here after, fun _ never => by cases never⟩⟩
  | taskError taskId error =>
    refine Iff.trans ?_ (settleTask_settles tracked taskId (.error error))
    exact ⟨fun h n c c' here after mine => (h n c c' here after).1 mine,
      fun h n c c' here after => ⟨h n c c' here after, fun _ never => by cases never⟩⟩
  | requestExpired requestId =>
    refine Iff.trans ?_ (requestExpired_settles tracked requestId)
    refine ⟨fun h c c' here after => (h requestId c c' here after).1 rfl,
      fun h n c c' here after => ⟨fun same => ?_, fun _ never => by cases never⟩⟩
    cases same
    exact h c c' here after
  | cancelTasks executionId =>
    refine Iff.trans ?_ (cancelTasks_cancels tracked executionId)
    refine ⟨fun h n c c' here after mine => (h n c c' here after).2 executionId rfl mine,
      fun h n c c' here after => ⟨(fun never => by cases never), fun e same => ?_⟩⟩
    cases same
    exact h n c c' here after

def Mentions (s : State ρ ε) (taskId : String) : Prop := ∃ c ∈ s.calls, c.stage.taskId = some taskId

theorem mentions_modifyStage {call : Nat} {f : Stage ρ ε → Stage ρ ε} {taskId : String}
    (kept : ∀ c, s.calls[call]? = some c → (f c.stage).taskId = some taskId → c.stage.taskId = some taskId)
    (mentions : Mentions (s.modifyStage call f) taskId) : Mentions s taskId := by
  obtain ⟨c', member, has⟩ := mentions
  obtain ⟨n, here⟩ := List.mem_iff_getElem?.1 member
  rw [State.modifyStage, List.getElem?_modify, Option.map_eq_map, Option.map_eq_some_iff] at here
  obtain ⟨c, found, rfl⟩ := here
  refine ⟨c, List.mem_of_getElem? found, ?_⟩
  by_cases same : call = n
  · rw [if_pos same] at has
    rw [← same] at found
    exact kept c found has
  · rwa [if_neg same] at has

theorem mentions_settleTask {taskId t : String} {answer : Answer ρ ε}
    (mentions : Mentions (s.settleTask taskId answer) t) : Mentions s t := by
  unfold State.settleTask at mentions
  split at mentions
  case h_1 =>
    refine mentions_modifyStage (fun c _ has => ?_) mentions
    cases stage : c.stage <;> rw [stage] at has <;> exact has
  case h_2 => exact mentions

theorem mentions_cancelTask {taskId reason t : String} (mentions : Mentions (s.cancelTask taskId reason) t) :
    Mentions s t := by
  rw [cancelTask_eq] at mentions
  split at mentions
  case h_1 => exact mentions_settleTask mentions
  case h_2 => exact mentions

theorem mentions_resume {call : Nat} {t : String} (mentions : Mentions (s.resume call) t) : Mentions s t := by
  unfold State.resume at mentions
  split at mentions
  case h_1 executionId taskType stage here =>
    have kept : ∀ {new : Stage ρ ε} {c : Call ρ ε}, new.taskId = stage.taskId → s.calls[call]? = some c →
        new.taskId = some t → c.stage.taskId = some t := by
      intro new c same found has
      rw [here] at found
      cases found
      exact same.symm.trans has
    cases stage with
    | expired => exact mentions_modifyStage (fun c found has => kept rfl found has) mentions
    | accepted taskId =>
      simp only [register_eq] at mentions
      exact mentions_modifyStage (f := fun _ => .running taskId) (fun c found has => kept rfl found has) mentions
    | answered taskId answer =>
      simp only [finish_eq] at mentions
      exact mentions_modifyStage (f := fun _ => .returned taskId answer)
        (fun c found has => kept rfl found has) mentions
    | requested | thrown | running taskId | returned taskId answer => exact mentions
  case h_2 => exact mentions

theorem mentions_next {action : Action ρ ε} {t : String} (mentions : Mentions (s.next action) t) :
    Mentions s t ∨ ∃ requestId, action = .taskReady requestId t := by
  cases action with
  | startTask executionId taskType =>
    obtain ⟨c, member, has⟩ := mentions
    cases List.mem_append.1 member with
    | inl old => exact .inl ⟨c, old, has⟩
    | inr new =>
      cases List.mem_singleton.1 new
      cases has
  | resume call => exact .inl (mentions_resume mentions)
  | taskReady requestId taskId =>
    change Mentions (s.taskReady requestId taskId) t at mentions
    by_cases same : taskId = t
    · exact .inr ⟨requestId, by rw [same]⟩
    · unfold State.taskReady at mentions
      split at mentions
      case isTrue =>
        refine .inl (mentions_modifyStage (f := fun _ => .accepted taskId) (fun c _ has => ?_) mentions)
        exact absurd (Option.some.inj has) same
      case isFalse => exact .inl mentions
  | taskDone taskId data => exact .inl (mentions_settleTask mentions)
  | taskError taskId error => exact .inl (mentions_settleTask mentions)
  | requestExpired requestId =>
    change Mentions (s.requestExpired requestId) t at mentions
    unfold State.requestExpired at mentions
    split at mentions
    case isTrue => exact .inl (mentions_modifyStage (f := fun _ => .expired) (fun c _ has => by cases has) mentions)
    case isFalse => exact .inl mentions
  | cancelTasks executionId =>
    change Mentions ((s.getTaskIds executionId).elems.foldl (fun s taskId => s.cancelTask taskId) s) t at mentions
    generalize (s.getTaskIds executionId).elems = taskIds at mentions
    induction taskIds generalizing s with
    | nil => exact .inl mentions
    | cons taskId taskIds ih =>
      cases ih mentions with
      | inl before => exact .inl (mentions_cancelTask before)
      | inr announced => exact .inr announced

theorem mentions_after {actions : List (Action ρ ε)} {t : String} (mentions : Mentions (after State.next s actions) t) :
    Mentions s t ∨ ∃ requestId, .taskReady requestId t ∈ actions := by
  induction actions generalizing s with
  | nil => exact .inl mentions
  | cons action actions ih =>
    cases ih mentions with
    | inl before =>
      cases mentions_next before with
      | inl earlier => exact .inl earlier
      | inr announced =>
        obtain ⟨requestId, here⟩ := announced
        exact .inr ⟨requestId, here ▸ List.mem_cons_self⟩
    | inr announced =>
      obtain ⟨requestId, member⟩ := announced
      exact .inr ⟨requestId, List.mem_cons_of_mem action member⟩

theorem along_fresh {actions : List (Action ρ ε)} (announced : Announced actions)
    (new : ∀ t, Mentions s t → ∀ requestId, .taskReady requestId t ∉ actions) :
    Along State.next Fresh s actions := by
  induction actions generalizing s with
  | nil => trivial
  | cons action actions ih =>
    obtain ⟨here, announced⟩ := List.pairwise_cons.1 announced
    refine ⟨fun requestId taskId same n c found has => ?_, ih announced fun t mentions requestId member => ?_⟩
    · exact new taskId ⟨c, List.mem_of_getElem? found, has⟩ requestId (same ▸ List.mem_cons_self)
    · cases mentions_next mentions with
      | inl before => exact new t before requestId (List.mem_cons_of_mem action member)
      | inr ready =>
        obtain ⟨other, same⟩ := ready
        exact here _ member requestId t rfl (by rw [same]; rfl)

theorem after_spec {actions : List (Action ρ ε)} (tracked : Tracked s) (fresh : Along State.next Fresh s actions) :
    Moves s (after State.next s actions) ∧ Tracked (after State.next s actions) := by
  induction actions generalizing s with
  | nil => exact ⟨.refl s, tracked⟩
  | cons action actions ih =>
    obtain ⟨moves, kept⟩ := next_spec tracked action
    obtain ⟨moves', tracked'⟩ := ih (kept fresh.1) fresh.2
    exact ⟨moves.trans moves', tracked'⟩

theorem taskId_before {actions : List (Action ρ ε)} {t : String} {n : Nat} {c c' : Call ρ ε} (tracked : Tracked s)
    (fresh : Along State.next Fresh s actions) (silent : ∀ requestId, .taskReady requestId t ∉ actions)
    (here : s.calls[n]? = some c) (there : (after State.next s actions).calls[n]? = some c')
    (has : c'.stage.taskId = some t) : c.stage.taskId = some t := by
  obtain ⟨moves, tracked'⟩ := after_spec tracked fresh
  cases mentions_after ⟨c', List.mem_of_getElem? there, has⟩ with
  | inl before =>
    obtain ⟨e, member, same⟩ := before
    obtain ⟨m, found⟩ := List.mem_iff_getElem?.1 member
    obtain ⟨e', there', evolves⟩ := moves.calls m e found
    have one := tracked'.unique n m c' e' t there there' has (evolves.taskId t same)
    rw [← one, here] at found
    cases found
    exact same
  | inr ready =>
    obtain ⟨requestId, member⟩ := ready
    exact absurd member (silent requestId)

theorem silent_of_cancelTasks {s' : State ρ ε} {executionId : String} {n : Nat} {d : Call ρ ε}
    (next : (s.next (.cancelTasks executionId)).calls[n]? = some d) (settled : d.stage.settled)
    (moves : Moves (s.next (.cancelTasks executionId)) s') (taskId : String) :
    .tasksettings taskId n ∉ s'.sent.drop s.sent.length := by
  intro member
  obtain ⟨new, sent, silent⟩ := sent_cancelTasks s executionId
  obtain ⟨new', sent', silent'⟩ := moves.sent
  change (s.next (.cancelTasks executionId)).sent = _ at sent
  rw [sent', sent, List.append_assoc, List.drop_left] at member
  cases List.mem_append.1 member with
  | inl during => exact silent taskId n during
  | inr since => exact silent' n d next settled taskId since

/-- In a run in which every task is announced first, no outcome is lost if and only if every
message and every cancellation meets the calls where it can reach them. -/
theorem losesNoOutcome_iff {actions : List (Action ρ ε)} (announced : Announced actions) :
    LosesNoOutcome actions ↔ Along State.next Orderly {} actions := by
  have fresh : Along State.next Fresh {} actions := by
    refine along_fresh announced fun t mentions => ?_
    obtain ⟨c, member, _⟩ := mentions
    exact absurd member List.not_mem_nil
  have tracked : ∀ {before later : List (Action ρ ε)}, actions = before ++ later →
      Tracked (after State.next {} before) := by
    intro before later split
    rw [split, along_append] at fresh
    exact (after_spec tracked_initial fresh.1).2
  rw [← along_iff (I := Tracked) (W := Fresh) (fun s action known _ => reaches_iff known action)
    (fun s action known fresh _ => (next_spec known action).2 fresh) tracked_initial fresh,
    along_iff_forall_split]
  constructor
  · intro loses before action later split n c c' here after
    obtain ⟨ends, cancels⟩ := loses before action [] later split n c c' here after
    obtain ⟨_, found, evolves⟩ := (next_spec (tracked split) action).1.calls n c here
    rw [after] at found
    cases found
    refine ⟨fun mine => ends ?_, fun executionId same mine pending => ?_⟩
    · cases action with
      | taskDone taskId data => exact evolves.taskId taskId mine
      | taskError taskId error => exact evolves.taskId taskId mine
      | requestExpired requestId => exact mine
      | startTask | resume | taskReady | cancelTasks => cases mine
    · exact (cancels executionId same (evolves.executionId.trans mine)).1 pending
  · intro reaches before action later rest split
    dsimp only
    intro n c c' here there
    have known := tracked split
    have reached := reaches before action (later ++ rest) split n c
    have runs : Along State.next Fresh (after State.next {} before) (action :: (later ++ rest)) := by
      rw [split, along_append] at fresh
      exact fresh.2
    have kept := (next_spec known action).2 runs.1
    obtain ⟨d, next, evolves⟩ := (next_spec known action).1.calls n c here
    obtain ⟨moves, known'⟩ := after_spec kept (along_append.1 runs.2).1
    obtain ⟨_, found, evolves'⟩ := moves.calls n d next
    change (after State.next ((after State.next {} before).next action) later).calls[n]? = some c' at there
    rw [there] at found
    cases found
    obtain ⟨ends, cancels⟩ := reached d here next
    have had : ∀ t, action.taskId = some t → (∀ requestId, action ≠ .taskReady requestId t) →
        c'.stage.taskId = some t → c.stage.taskId = some t := by
      intro t about other
      have whole : Along State.next Fresh (after State.next {} before) (action :: later) :=
        ⟨runs.1, (along_append.1 runs.2).1⟩
      refine taskId_before known whole (fun requestId member => ?_) here there
      cases List.mem_cons.1 member with
      | inl same => exact other requestId same.symm
      | inr since =>
        rw [Announced, split, List.pairwise_append, List.pairwise_cons] at announced
        exact absurd about (announced.2.1.1 _ (List.mem_append_left rest since) requestId t rfl)
    refine ⟨fun mine => evolves'.settled (ends ?_), fun executionId same mine => ?_⟩
    · cases action with
      | taskDone taskId data => exact had taskId rfl (fun _ never => by cases never) mine
      | taskError taskId error => exact had taskId rfl (fun _ never => by cases never) mine
      | requestExpired requestId => exact mine
      | startTask | resume | taskReady | cancelTasks => cases mine
    · subst same
      have execution : c.executionId = some executionId := by
        rw [← evolves.executionId, ← evolves'.executionId, mine]
      have stopped := cancels executionId rfl execution
      have settled : d.stage.settled := by
        cases pending : c.stage.settled with
        | true => exact evolves.settled pending
        | false => exact Stage.settled_of_cancelled (stopped pending)
      exact ⟨fun pending => evolves'.cancelled (stopped pending), silent_of_cancelTasks next settled moves⟩

/-- A task whose execution is cancelled while it runs. -/
theorem losesNoOutcome_cancelled : LosesNoOutcome (ρ := Unit) (ε := Unit)
    [.startTask (some "1") "javascript", .taskReady 0 "t", .resume 0, .cancelTasks "1", .resume 0] := by
  refine (losesNoOutcome_iff ?_).2 ?_
  · simp [Announced, Action.taskId]
  · exact ⟨trivial, trivial, trivial, by decide, trivial, trivial⟩

/-- A task whose execution is cancelled before it is ready. -/
theorem not_losesNoOutcome_cancelledEarly : ¬ LosesNoOutcome (ρ := Unit) (ε := Unit)
    [.startTask (some "1") "javascript", .cancelTasks "1", .taskReady 0 "t", .resume 0] := by
  intro loses
  have cancelled := loses [.startTask (some "1") "javascript"] (.cancelTasks "1") [.taskReady 0 "t", .resume 0] []
    rfl 0 _ _ rfl rfl
  exact absurd ((cancelled.2 "1" rfl rfl).1 rfl) (by decide)

end NodeAutomation.TaskRequester
