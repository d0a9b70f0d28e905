import NodeAutomation.TaskRunner.TaskRunner

/-! The runner keeps to its capacity, answers each task once and, when it drains, takes on
nothing more. -/

namespace NodeAutomation.TaskRunner

open Runs

variable {π : Type*}

def ToBroker.answers (taskId : String) : ToBroker π → Bool
  | .taskdone id _ | .taskerror id _ => id = taskId
  | .info _ _ | .taskoffer _ _ _ | .taskaccepted _ | .taskrejected _ _ => false

def ToBroker.isOffer : ToBroker π → Bool
  | .taskoffer _ _ _ => true
  | .info _ _ | .taskaccepted _ | .taskrejected _ _ | .taskdone _ _ | .taskerror _ _ => false

def ToBroker.isAccept : ToBroker π → Bool
  | .taskaccepted _ => true
  | .info _ _ | .taskoffer _ _ _ | .taskrejected _ _ | .taskdone _ _ | .taskerror _ _ => false

def State.answers (s : State π) (taskId : String) : Nat := s.sent.countP (·.answers taskId)

def State.load (s : State π) : Nat := s.openOffers.size + s.runningTasks.size

structure OnlyOffers (setting : Setting π) (s s' : State π) : Prop where
  rest : s' = { s with openOffers := s'.openOffers, offers := s'.offers, sent := s'.sent }
  sent : ∃ new, s'.sent = s.sent ++ new ∧ (∀ message ∈ new, message.isOffer) ∧
    (s.canSendOffers = false → new = [])
  load : s.load ≤ setting.maxConcurrency → s'.load ≤ setting.maxConcurrency

theorem onlyOffers_deleteStaleOffers (setting : Setting π) (s : State π) :
    OnlyOffers setting s s.deleteStaleOffers where
  rest := rfl
  sent := ⟨[], (List.append_nil _).symm, fun _ member => absurd member List.not_mem_nil, fun _ => rfl⟩
  load within := by
    have smaller : s.deleteStaleOffers.openOffers.size ≤ s.openOffers.size := List.length_filter_le _ _
    unfold State.load at within ⊢
    change s.deleteStaleOffers.openOffers.size + s.runningTasks.size ≤ setting.maxConcurrency
    omega

theorem sendEach_spec (setting : Setting π) (count : Nat) (s : State π) :
    (State.sendEach setting count s =
      { s with
        openOffers := (State.sendEach setting count s).openOffers
        offers := (State.sendEach setting count s).offers
        sent := (State.sendEach setting count s).sent }) ∧
      (∃ new, (State.sendEach setting count s).sent = s.sent ++ new ∧ ∀ message ∈ new, message.isOffer) ∧
      (State.sendEach setting count s).openOffers.size ≤ s.openOffers.size + count := by
  induction count generalizing s with
  | zero => exact ⟨rfl, ⟨[], (List.append_nil _).symm, fun _ member => absurd member List.not_mem_nil⟩, Nat.le_refl _⟩
  | succ count ih =>
    obtain ⟨rest, ⟨new, sent, offers⟩, size⟩ := ih (s.sendOffer setting)
    refine ⟨rest, ?_, ?_⟩
    · refine ⟨[.taskoffer setting.taskType s.offers (offerValidTimeMs + setting.randomInt s.offers)] ++ new, ?_, ?_⟩
      · rw [← List.append_assoc]
        exact sent
      · intro message member
        cases List.mem_append.1 member with
        | inl first => rw [List.mem_singleton.1 first]; rfl
        | inr later => exact offers message later
    · have grown : (s.sendOffer setting).openOffers.size ≤ s.openOffers.size + 1 := OrderedMap.size_set_le _ _ _
      exact Nat.le_trans size (by omega)

theorem onlyOffers_sendOffers (setting : Setting π) (s : State π) : OnlyOffers setting s (s.sendOffers setting) := by
  have stale := onlyOffers_deleteStaleOffers setting s
  unfold State.sendOffers
  dsimp only
  split
  case isTrue can =>
    generalize fresh : s.deleteStaleOffers = s' at *
    obtain ⟨rest, ⟨new, sent, offers⟩, size⟩ :=
      sendEach_spec setting (setting.maxConcurrency - (s'.openOffers.size + s'.runningTasks.size)) s'
    have same : s'.sent = s.sent := by rw [← fresh]; rfl
    have sending : s'.canSendOffers = s.canSendOffers := by rw [← fresh]; rfl
    refine ⟨?_, ⟨new, ?_, offers, fun never => ?_⟩, fun within => ?_⟩
    · rw [rest, ← fresh]
      rfl
    · rw [sent, same]
    · simp [sending, never] at can
    · have running := congrArg State.runningTasks rest
      dsimp only at running
      unfold State.load
      rw [running]
      have before := stale.load within
      unfold State.load at before
      omega
  case isFalse => exact stale

/-- A task by how far its execution has come: how often it has been answered, and whether the
runner still runs it. -/
def Fits (s : State π) (k : Nat) (t : TaskState) : Prop :=
  let answers := s.answers t.taskId
  let runs := s.runningTasks.get t.taskId = some k
  match t.execution with
  | .notStarted => t.status = .waitingForSettings ∧ (runs ∧ answers = 0 ∨ ¬runs ∧ answers ≤ 1)
  | .executing => t.status ≠ .waitingForSettings ∧ runs ∧ answers = 0
  | .answered => t.status ≠ .waitingForSettings ∧ answers ≤ 1 ∧ (t.status ≠ .abortingCancelled → answers = 1)
  | .unsendable => t.status ≠ .waitingForSettings ∧ runs ∧ answers = 0
  | .failing => t.status ≠ .waitingForSettings ∧ ¬runs ∧ answers = 0
  | .unsendableError => False
  | .ended => t.status ≠ .waitingForSettings ∧ ¬runs ∧ answers ≤ 1 ∧ (t.status ≠ .abortingCancelled → answers = 1)

/-- The runner keeps to its capacity, and offers nothing while it drains. -/
structure Within (setting : Setting π) (s : State π) : Prop where
  capacity : s.load ≤ setting.maxConcurrency
  draining : s.isDraining → s.canSendOffers = false

structure Kept (setting : Setting π) (s : State π) : Prop where
  within : Within setting s
  fits : ∀ k t, s.tasks[k]? = some t → Fits s k t
  timers : ∀ (k : Nat) t, s.tasks[k]? = some t → t.status = .abortingTimeout → t.timeoutTimer = false
  running : ∀ taskId k, s.runningTasks.get taskId = some k → ∃ t, s.tasks[k]? = some t ∧ t.taskId = taskId
  unique : ∀ (j k : Nat) t u, s.tasks[j]? = some t → s.tasks[k]? = some u → t.taskId = u.taskId → j = k
  unknown : ∀ taskId, (∀ t ∈ s.tasks, t.taskId ≠ taskId) → s.answers taskId = 0
  exited : s.exited → ∀ (k : Nat) t, s.tasks[k]? = some t → t.execution ≠ .notStarted →
    t.status ≠ .abortingCancelled → s.answers t.taskId = 1

theorem kept_initial (setting : Setting π) : Kept setting ({} : State π) where
  within := ⟨Nat.zero_le _, fun never => by cases never⟩
  fits k t here := by cases here
  timers k t here := by cases here
  running taskId k stored := by cases stored
  unique j k t u here := by cases here
  unknown _ _ := rfl
  exited never := by cases never

variable {setting : Setting π} {s s' : State π}

theorem answers_append (new : List (ToBroker π)) (sent : s'.sent = s.sent ++ new) (taskId : String) :
    s'.answers taskId = s.answers taskId + new.countP (·.answers taskId) := by
  rw [State.answers, State.answers, sent, List.countP_append]

theorem answers_silent {new : List (ToBroker π)} (sent : s'.sent = s.sent ++ new) {taskId : String}
    (silent : ∀ message ∈ new, message.answers taskId = false) : s'.answers taskId = s.answers taskId := by
  rw [answers_append new sent, List.countP_eq_zero.2 fun message member => by simp [silent message member]]
  rfl

theorem silent_of_isOffer {message : ToBroker π} (offer : message.isOffer) (taskId : String) :
    message.answers taskId = false := by
  cases message with
  | taskoffer => rfl
  | info | taskaccepted | taskrejected | taskdone | taskerror => cases offer

/-- Nothing changes of the tasks, and nothing is said of them. -/
structure Leaves (s s' : State π) : Prop where
  tasks : s'.tasks = s.tasks
  runningTasks : s'.runningTasks = s.runningTasks
  answers : ∀ taskId, s'.answers taskId = s.answers taskId
  exited : s'.exited = s.exited

variable {k : Nat} {t : TaskState}

theorem Leaves.fits (h : Leaves s s') (fits : Fits s k t) : Fits s' k t := by
  unfold Fits
  rw [h.answers, h.runningTasks]
  exact fits

theorem Leaves.kept (h : Leaves s s') (kept : Kept setting s) (within : Within setting s') : Kept setting s' where
  within := within
  fits k t here := h.fits (kept.fits k t (h.tasks ▸ here))
  timers k t here := kept.timers k t (h.tasks ▸ here)
  running taskId k stored := by
    rw [h.runningTasks] at stored
    rw [h.tasks]
    exact kept.running taskId k stored
  unique j k t u here here' := kept.unique j k t u (h.tasks ▸ here) (h.tasks ▸ here')
  unknown taskId absent := by
    rw [h.answers]
    exact kept.unknown taskId (h.tasks ▸ absent)
  exited ended k t here := by
    rw [h.answers]
    rw [h.exited] at ended
    exact kept.exited ended k t (h.tasks ▸ here)

theorem OnlyOffers.leaves (h : OnlyOffers setting s s') : Leaves s s' where
  tasks := by rw [h.rest]
  runningTasks := by rw [h.rest]
  answers taskId := by
    obtain ⟨new, sent, offers, _⟩ := h.sent
    exact answers_silent sent fun message member => silent_of_isOffer (offers message member) taskId
  exited := by rw [h.rest]

theorem OnlyOffers.within (h : OnlyOffers setting s s') (within : Within setting s) : Within setting s' := by
  refine ⟨h.load within.capacity, ?_⟩
  rw [h.rest]
  exact within.draining

structure Touches (s s' : State π) (k : Nat) (t t' : TaskState) : Prop where
  before : s.tasks[k]? = some t
  after : s'.tasks[k]? = some t'
  taskId : t'.taskId = t.taskId
  others : ∀ j, j ≠ k → s'.tasks[j]? = s.tasks[j]?
  runningTasks : ∀ taskId, taskId ≠ t.taskId → s'.runningTasks.get taskId = s.runningTasks.get taskId
  answers : ∀ taskId, taskId ≠ t.taskId → s'.answers taskId = s.answers taskId
  exited : s'.exited = s.exited

theorem Touches.kept {t t' : TaskState} (h : Touches s s' k t t') (kept : Kept setting s)
    (alive : s.exited = false) (within : Within setting s') (fits : Fits s' k t')
    (timer : t'.status = .abortingTimeout → t'.timeoutTimer = false)
    (running : ∀ j, s'.runningTasks.get t.taskId = some j → j = k) : Kept setting s' where
  within := within
  fits j u here := by
    by_cases same : j = k
    · rw [same, h.after] at here
      rw [← Option.some.inj here, same]
      exact fits
    · rw [h.others j same] at here
      have apart : u.taskId ≠ t.taskId := fun equal => same (kept.unique j k u t here h.before equal)
      have before := kept.fits j u here
      unfold Fits at before ⊢
      rwa [h.answers _ apart, h.runningTasks _ apart]
  timers j u here := by
    by_cases same : j = k
    · rw [same, h.after] at here
      rw [← Option.some.inj here]
      exact timer
    · rw [h.others j same] at here
      exact kept.timers j u here
  running taskId j stored := by
    by_cases mine : taskId = t.taskId
    · rw [mine] at stored ⊢
      rw [running j stored]
      exact ⟨t', h.after, h.taskId⟩
    · rw [h.runningTasks _ mine] at stored
      obtain ⟨u, here, same⟩ := kept.running taskId j stored
      refine ⟨u, (h.others j fun shared => mine ?_).trans here, same⟩
      rw [shared, h.before] at here
      rw [← same, Option.some.inj here]
  unique i j u v here here' equal := by
    have back : ∀ (i : Nat) u, s'.tasks[i]? = some u → ∃ v : TaskState, s.tasks[i]? = some v ∧ v.taskId = u.taskId := by
      intro i u here
      by_cases same : i = k
      · rw [same, h.after] at here
        rw [same, ← Option.some.inj here]
        exact ⟨t, h.before, h.taskId.symm⟩
      · rw [h.others i same] at here
        exact ⟨u, here, rfl⟩
    obtain ⟨u', found, same⟩ := back i u here
    obtain ⟨v', found', same'⟩ := back j v here'
    exact kept.unique i j u' v' found found' (by rw [same, same', equal])
  unknown taskId absent := by
    have other : taskId ≠ t.taskId := fun same =>
      absent t' (List.mem_of_getElem? h.after) (h.taskId.trans same.symm)
    rw [h.answers _ other]
    refine kept.unknown taskId fun u member equal => ?_
    obtain ⟨j, here⟩ := List.mem_iff_getElem?.1 member
    by_cases same : j = k
    · rw [same, h.before] at here
      exact other (by rw [← equal, Option.some.inj here])
    · exact absent u (List.mem_of_getElem? ((h.others j same).trans here)) equal
  exited ended := by
    simp [h.exited, alive] at ended

theorem Touches.trans {s'' : State π} {t t' t'' : TaskState} (h : Touches s s' k t t')
    (h' : Touches s' s'' k t' t'') : Touches s s'' k t t'' where
  before := h.before
  after := h'.after
  taskId := h'.taskId.trans h.taskId
  others j other := (h'.others j other).trans (h.others j other)
  runningTasks taskId other :=
    (h'.runningTasks taskId (h.taskId ▸ other)).trans (h.runningTasks taskId other)
  answers taskId other := (h'.answers taskId (h.taskId ▸ other)).trans (h.answers taskId other)
  exited := h'.exited.trans h.exited

theorem leaves_send (s : State π) (message : ToBroker π) (silent : ∀ taskId, message.answers taskId = false) :
    Leaves s (s.send message) where
  tasks := rfl
  runningTasks := rfl
  answers taskId := answers_silent rfl fun m member => by
    rw [List.mem_singleton.1 member]
    exact silent taskId
  exited := rfl

theorem Leaves.touches (h : Leaves s s') (here : s.tasks[k]? = some t) :
    Touches s s' k t t where
  before := here
  after := by rwa [h.tasks]
  taskId := rfl
  others j _ := by rw [h.tasks]
  runningTasks taskId _ := by rw [h.runningTasks]
  answers taskId _ := h.answers taskId
  exited := h.exited

theorem touches_modifyTask (here : s.tasks[k]? = some t) (f : TaskState → TaskState)
    (taskId : (f t).taskId = t.taskId) : Touches s (s.modifyTask k f) k t (f t) where
  before := here
  after := by simp [State.modifyTask, here]
  taskId := taskId
  others j other := by simp [State.modifyTask, Ne.symm other]
  runningTasks _ _ := rfl
  answers _ _ := rfl
  exited := rfl

theorem touches_send (here : s.tasks[k]? = some t) (message : ToBroker π)
    (silent : ∀ taskId, taskId ≠ t.taskId → message.answers taskId = false) :
    Touches s (s.send message) k t t where
  before := here
  after := here
  taskId := rfl
  others _ _ := rfl
  runningTasks _ _ := rfl
  answers taskId other := answers_silent rfl fun m member => by
    rw [List.mem_singleton.1 member]
    exact silent taskId other
  exited := rfl

theorem touches_delete (here : s.tasks[k]? = some t) :
    Touches s { s with runningTasks := s.runningTasks.delete t.taskId } k t t where
  before := here
  after := here
  taskId := rfl
  others _ _ := rfl
  runningTasks _ other := OrderedMap.get_delete_of_ne _ other
  answers _ _ := rfl
  exited := rfl

variable (setting) in
theorem finishTask_spec (here : s.tasks[k]? = some t) :
    let s' := s.finishTask setting k t.taskId
    Touches s s' k t { t with timeoutTimer := false } ∧ s'.runningTasks.get t.taskId = none ∧
      s'.answers t.taskId = s.answers t.taskId ∧ (Within setting s → Within setting s') := by
  have modified := touches_modifyTask here (fun t => { t with timeoutTimer := false }) rfl
  have deleted := touches_delete modified.after
  have offers := onlyOffers_sendOffers setting
    { s.modifyTask k fun t => { t with timeoutTimer := false } with
      runningTasks := s.runningTasks.delete t.taskId }
  refine ⟨(modified.trans deleted).trans (offers.leaves.touches deleted.after), ?_, ?_, fun within => ?_⟩
  · exact (congrArg (OrderedMap.get · t.taskId) offers.leaves.runningTasks).trans (OrderedMap.get_delete_self _ _)
  · exact offers.leaves.answers t.taskId
  · refine offers.within ⟨Nat.le_trans ?_ within.capacity, within.draining⟩
    exact Nat.add_le_add_left (OrderedMap.size_delete_le _ _) _

theorem runningTask_spec {taskId : String}
    (found : s.runningTask taskId = some (k, t)) : s.runningTasks.get taskId = some k ∧ s.tasks[k]? = some t := by
  unfold State.runningTask at found
  simp only [Option.bind_eq_bind, Option.pure_def, Option.bind_eq_some_iff, Option.some.injEq,
    Prod.mk.injEq] at found
  obtain ⟨j, stored, u, here, rfl, rfl⟩ := found
  exact ⟨stored, here⟩

theorem Kept.of_runningTask (kept : Kept setting s) {taskId : String} {k : Nat} {t : TaskState}
    (found : s.runningTask taskId = some (k, t)) : s.runningTasks.get t.taskId = some k ∧ s.tasks[k]? = some t := by
  obtain ⟨stored, here⟩ := runningTask_spec found
  obtain ⟨u, there, same⟩ := kept.running taskId k stored
  cases here.symm.trans there
  rw [same]
  exact ⟨stored, here⟩

theorem Fits.of_status {k : Nat} {t : TaskState} (fits : Fits s k t) (u : TaskState) (taskId : u.taskId = t.taskId)
    (execution : u.execution = t.execution)
    (waiting : u.status = .waitingForSettings ↔ t.status = .waitingForSettings)
    (cancelled : t.status = .abortingCancelled → u.status = .abortingCancelled) : Fits s k u := by
  unfold Fits at fits ⊢
  rw [taskId, execution]
  have counted : ∀ {n : Nat}, (t.status ≠ .abortingCancelled → n = 1) → u.status ≠ .abortingCancelled → n = 1 :=
    fun once stays => once fun was => stays (cancelled was)
  cases stage : t.execution with
  | notStarted =>
    rw [stage] at fits
    exact ⟨waiting.2 fits.1, fits.2⟩
  | executing | unsendable | failing =>
    rw [stage] at fits
    exact ⟨fun waits => fits.1 (waiting.1 waits), fits.2⟩
  | answered =>
    rw [stage] at fits
    exact ⟨fun waits => fits.1 (waiting.1 waits), fits.2.1, counted fits.2.2⟩
  | ended =>
    rw [stage] at fits
    exact ⟨fun waits => fits.1 (waiting.1 waits), fits.2.1, fits.2.2.1, counted fits.2.2.2⟩
  | unsendableError =>
    rw [stage] at fits
    exact fits

theorem Fits.of_leaves {k : Nat} {t : TaskState} (fits : Fits s k t)
    (runs : s'.runningTasks.get t.taskId = s.runningTasks.get t.taskId)
    (answers : s'.answers t.taskId = s.answers t.taskId) : Fits s' k t := by
  unfold Fits
  rw [runs, answers]
  exact fits

theorem Fits.waiting {k : Nat} {t : TaskState} (fits : Fits s k t) (status : t.status = .waitingForSettings) :
    t.execution = .notStarted ∧ (s.runningTasks.get t.taskId = some k → s.answers t.taskId = 0) := by
  unfold Fits at fits
  cases execution : t.execution with
  | notStarted =>
    rw [execution] at fits
    refine ⟨rfl, fun runs => ?_⟩
    cases fits.2 with
    | inl running => exact running.2
    | inr gone => exact absurd runs gone.1
  | executing | answered | unsendable | failing | ended =>
    rw [execution] at fits
    exact absurd status fits.1
  | unsendableError =>
    rw [execution] at fits
    exact fits.elim

theorem Fits.givenUp (status : t.status = .waitingForSettings)
    (execution : t.execution = .notStarted) (gone : s.runningTasks.get t.taskId = none)
    (answers : s.answers t.taskId ≤ 1) : Fits s k t := by
  unfold Fits
  rw [execution]
  exact ⟨status, .inr ⟨by simp [gone], answers⟩⟩

theorem kept_taskCancelled (kept : Kept setting s) (alive : s.exited = false) (taskId : String) :
    Kept setting (s.taskCancelled setting taskId) := by
  unfold State.taskCancelled
  split
  case h_1 => exact kept
  case h_2 k t found =>
    obtain ⟨runs, here⟩ := kept.of_runningTask found
    have fits := kept.fits k t here
    split
    case h_1 waiting =>
      obtain ⟨touches, gone, answers, within⟩ := finishTask_spec setting here
      have unanswered := (fits.waiting waiting).2 runs
      refine touches.kept kept alive (within kept.within) ?_ (fun _ => rfl) (fun j stored => ?_)
      · exact .givenUp waiting (fits.waiting waiting).1 gone (by rw [answers, unanswered]; exact Nat.zero_le 1)
      · simp [gone] at stored
    case h_2 | h_3 => exact kept
    case h_4 status =>
      refine (touches_modifyTask here _ rfl).kept kept alive ⟨kept.within.capacity, kept.within.draining⟩ ?_
        (fun aborting => by cases aborting) (fun j stored => ?_)
      · exact (fits.of_status { t with status := .abortingCancelled } rfl rfl (by simp [status]) fun _ => rfl).of_leaves rfl rfl
      · exact Option.some.inj (stored.symm.trans runs)

theorem kept_timerFires (kept : Kept setting s) (alive : s.exited = false) (k : Nat) :
    Kept setting (s.timerFires setting k) := by
  unfold State.timerFires
  split
  case h_1 => exact kept
  case h_2 t here =>
    split
    case isFalse => exact kept
    case isTrue armed =>
      have cleared := touches_modifyTask here (fun t => { t with timeoutTimer := false }) rfl
      have kept' : Kept setting (s.modifyTask k fun t => { t with timeoutTimer := false }) := by
        refine cleared.kept kept alive ⟨kept.within.capacity, kept.within.draining⟩ ?_ (fun _ => rfl) fun j stored => ?_
        · exact ((kept.fits k t here).of_status { t with timeoutTimer := false } rfl rfl Iff.rfl id).of_leaves rfl rfl
        · obtain ⟨u, there, same⟩ := kept.running t.taskId j stored
          exact kept.unique j k u t there here same
      have status : t.status ≠ .abortingTimeout := fun aborting => by
        simp [kept.timers k t here aborting] at armed
      generalize s.modifyTask k (fun t => { t with timeoutTimer := false }) = s' at cleared kept'
      have alive' : s'.exited = false := cleared.exited.trans alive
      unfold State.taskTimedOut
      split
      case h_1 => exact kept'
      case h_2 j u found =>
        obtain ⟨runs, there⟩ := kept'.of_runningTask found
        obtain ⟨stored, _⟩ := runningTask_spec found
        have one : j = k := by
          obtain ⟨v, here', same⟩ := kept'.running t.taskId j stored
          exact kept'.unique j k v _ here' cleared.after same
        subst one
        cases cleared.after.symm.trans there
        have fits := kept'.fits j _ there
        split
        case h_1 waiting =>
          have sent := touches_send there (.taskerror t.taskId (.timeoutError setting.taskTimeout))
            fun taskId other => by simpa [ToBroker.answers] using Ne.symm other
          obtain ⟨touches, gone, answers, within⟩ := finishTask_spec setting sent.after
          have unanswered := (fits.waiting waiting).2 runs
          refine (sent.trans touches).kept kept' alive'
            (within ⟨kept'.within.capacity, kept'.within.draining⟩) ?_ (fun _ => rfl) (fun i stored => ?_)
          · refine .givenUp waiting (fits.waiting waiting).1 gone ?_
            rw [answers, answers_append [.taskerror t.taskId (.timeoutError setting.taskTimeout)] rfl,
              unanswered]
            simp [ToBroker.answers]
          · simp [gone] at stored
        case h_2 aborting => exact absurd aborting status
        case h_3 running =>
          refine (touches_modifyTask there _ rfl).kept kept' alive'
            ⟨kept'.within.capacity, kept'.within.draining⟩ ?_ (fun _ => rfl) (fun i stored => ?_)
          · change t.status = .running at running
            have aborted := fits.of_status { t with status := .abortingTimeout, timeoutTimer := false } rfl rfl
              (by simp [running]) (by simp [running])
            exact aborted.of_leaves rfl rfl
          · exact Option.some.inj (stored.symm.trans runs)
        case h_4 => exact kept'

/-- What the runner owes an answer to: a task that has its settings, has not been cancelled and
has not been answered. -/
def TaskState.owed (t : TaskState) : Prop :=
  t.execution ≠ .notStarted ∧ t.status ≠ .abortingCancelled ∧ t.execution ≠ .answered ∧ t.execution ≠ .ended

instance (t : TaskState) : Decidable t.owed :=
  inferInstanceAs (Decidable (t.execution ≠ .notStarted ∧ t.status ≠ .abortingCancelled ∧
    t.execution ≠ .answered ∧ t.execution ≠ .ended))

/-- The broker does not register a runner that drains, and gives each task an id of its own.
Settings that come for a task that has its settings do not end the process while an answer is
owed. An error with which a task fails can be serialized, unless the task was cancelled. -/
def Orderly (setting : Setting π) (s : State π) : Action π → Prop
  | .runnerregistered => s.isDraining = false
  | .taskofferaccept offerId taskId => s.openOffers.get offerId ≠ none → ∀ t ∈ s.tasks, t.taskId ≠ taskId
  | .tasksettings taskId => ∀ found ∈ s.runningTask taskId, found.2.status ≠ .waitingForSettings →
      setting.exitOnUnhandledRejection = true → ∀ t ∈ s.tasks, ¬t.owed
  | .executed task (.error error) => ∀ t ∈ s.tasks[task]?, t.execution = .executing →
      t.status ≠ .abortingCancelled → setting.serializable error = true
  | .executed _ (.ok _) | .inforequest | .taskcancel _ _ | .drain | .offerInterval | .timePasses _ | .timeout _
  | .continued _ | .stop _ | .graceElapsed _ | .stopGoesOn _ => True

instance decidableOrderly (setting : Setting π) (s : State π) : (action : Action π) → Decidable (Orderly setting s action)
  | .runnerregistered => inferInstanceAs (Decidable (s.isDraining = false))
  | .taskofferaccept offerId taskId =>
    inferInstanceAs (Decidable (s.openOffers.get offerId ≠ none → ∀ t ∈ s.tasks, t.taskId ≠ taskId))
  | .tasksettings taskId =>
    inferInstanceAs (Decidable (∀ found ∈ s.runningTask taskId, found.2.status ≠ .waitingForSettings →
      setting.exitOnUnhandledRejection = true → ∀ t ∈ s.tasks, ¬t.owed))
  | .executed task (.error error) =>
    inferInstanceAs (Decidable (∀ t ∈ s.tasks[task]?, t.execution = .executing →
      t.status ≠ .abortingCancelled → setting.serializable error = true))
  | .executed _ (.ok _) | .inforequest | .taskcancel _ _ | .drain | .offerInterval | .timePasses _ | .timeout _
  | .continued _ | .stop _ | .graceElapsed _ | .stopGoesOn _ => isTrue trivial

theorem Fits.of_not_owed {k : Nat} {t : TaskState} (fits : Fits s k t) (owed : ¬t.owed)
    (started : t.execution ≠ .notStarted) (stays : t.status ≠ .abortingCancelled) : s.answers t.taskId = 1 := by
  unfold Fits at fits
  cases execution : t.execution with
  | notStarted => exact absurd execution started
  | executing | unsendable | failing =>
    exact absurd ⟨started, stays, by simp [execution], by simp [execution]⟩ owed
  | answered =>
    rw [execution] at fits
    exact fits.2.2 stays
  | ended =>
    rw [execution] at fits
    exact fits.2.2.2 stays
  | unsendableError =>
    rw [execution] at fits
    exact fits.elim

section

variable (kept : Kept setting s)
include kept

theorem kept_unhandledRejection
    (answered : setting.exitOnUnhandledRejection = true → ∀ t ∈ s.tasks, ¬t.owed) :
    Kept setting (s.unhandledRejection setting) where
  within := ⟨kept.within.capacity, kept.within.draining⟩
  fits := kept.fits
  timers := kept.timers
  running := kept.running
  unique := kept.unique
  unknown := kept.unknown
  exited ended k t here started stays := by
    cases Bool.or_eq_true _ _ ▸ ended with
    | inl before => exact kept.exited before k t here started stays
    | inr exits =>
      exact (kept.fits k t here).of_not_owed (answered exits t (List.mem_of_getElem? here)) started stays

section

variable (alive : s.exited = false)
include alive

theorem kept_receivedSettings {taskId : String}
    (orderly : Orderly setting s (.tasksettings taskId)) : Kept setting (s.receivedSettings setting taskId) := by
  unfold State.receivedSettings
  split
  case h_1 => exact kept
  case h_2 k t found =>
    have again := orderly (k, t) found
    obtain ⟨runs, here⟩ := kept.of_runningTask found
    have fits := kept.fits k t here
    split
    case h_1 status | h_2 status | h_3 status => exact kept_unhandledRejection kept (again (by simp [status]))
    case h_4 waiting =>
      refine (touches_modifyTask here _ rfl).kept kept alive ⟨kept.within.capacity, kept.within.draining⟩ ?_
        (fun impossible => by cases impossible) (fun j stored => Option.some.inj (stored.symm.trans runs))
      exact ⟨by simp, runs, (fits.waiting waiting).2 runs⟩

theorem kept_setExecution {k : Nat} {t : TaskState}
    (here : s.tasks[k]? = some t) (execution : Execution)
    (fits : Fits s k { t with execution := execution }) : Kept setting (s.setExecution k execution) := by
  refine (touches_modifyTask here _ rfl).kept kept alive ⟨kept.within.capacity, kept.within.draining⟩ fits
    (kept.timers k t here) fun j stored => ?_
  obtain ⟨u, there, same⟩ := kept.running t.taskId j stored
  exact kept.unique j k u t there here same

theorem kept_answer {k : Nat} {t : TaskState}
    (here : s.tasks[k]? = some t) (status : t.status ≠ .waitingForSettings)
    (unanswered : s.answers t.taskId = 0) {message : ToBroker π}
    (answer : ∀ taskId, message.answers taskId = decide (t.taskId = taskId)) :
    Kept setting ((s.send message).setExecution k .answered) := by
  have sent := touches_send here message fun taskId other => by rw [answer]; simpa using Ne.symm other
  refine (sent.trans (touches_modifyTask sent.after _ rfl)).kept kept alive
    ⟨kept.within.capacity, kept.within.draining⟩ ?_ (kept.timers k t here) fun j stored => ?_
  case refine_2 =>
    obtain ⟨u, there, same⟩ := kept.running t.taskId j stored
    exact kept.unique j k u t there here same
  have once : (s.send message).answers t.taskId = 1 := by
    rw [answers_append [message] rfl, unanswered]
    simp [answer]
  exact ⟨status, Nat.le_of_eq once, fun _ => once⟩

theorem kept_executed {k : Nat} {outcome : Except π π}
    (orderly : Orderly setting s (.executed k outcome)) : Kept setting (s.executed setting k outcome) := by
  unfold State.executed
  split
  case h_1 => exact kept
  case h_2 t here =>
    split
    case isFalse => exact kept
    case isTrue executing =>
      have fits := kept.fits k t here
      unfold Fits at fits
      rw [executing] at fits
      obtain ⟨status, runs, unanswered⟩ := fits
      have passedOver : t.status = .abortingCancelled → Kept setting (s.setExecution k .answered) := fun cancelled =>
        kept_setExecution kept alive here .answered
          ⟨status, by rw [unanswered]; exact Nat.zero_le 1, fun stays => absurd cancelled stays⟩
      cases outcome with
      | ok data =>
        dsimp only
        unfold State.taskExecutionSucceeded
        have unsendable := kept_setExecution kept alive here .unsendable ⟨status, runs, unanswered⟩
        split
        case h_1 waiting => exact absurd waiting status
        case h_2 cancelled => exact passedOver cancelled
        case h_3 | h_4 =>
          split
          case isTrue => exact kept_answer kept alive here status unanswered fun _ => rfl
          case isFalse => exact unsendable
      | error error =>
        dsimp only
        unfold State.taskExecutionFailed
        split
        case h_1 waiting => exact absurd waiting status
        case h_2 cancelled => exact passedOver cancelled
        case h_3 stays | h_4 stays =>
          have sendable : (Failure.thrown error).serializable setting = true :=
            orderly t here executing (by simp [stays])
          rw [if_pos sendable]
          exact kept_answer kept alive here status unanswered fun _ => rfl

theorem kept_continued (k : Nat) :
    Kept setting (s.continued setting k) := by
  unfold State.continued
  split
  case h_1 => exact kept
  case h_2 t here =>
    have fits := kept.fits k t here
    unfold Fits at fits
    obtain ⟨touches, gone, answers, within⟩ := finishTask_spec setting here
    -- the task is given up, and its execution goes on to a stage that fits
    have finished : ∀ execution, Fits (s.finishTask setting k t.taskId) k { t with timeoutTimer := false, execution } →
        Kept setting ((s.finishTask setting k t.taskId).setExecution k execution) := by
      intro execution fits
      refine (touches.trans (touches_modifyTask touches.after _ rfl)).kept kept alive
        ⟨(within kept.within).capacity, (within kept.within).draining⟩ fits (fun _ => rfl) fun j stored => ?_
      cases gone.symm.trans stored
    split
    case h_1 execution =>
      rw [execution] at fits
      obtain ⟨status, once, counted⟩ := fits
      refine finished .ended ⟨status, by simp [gone], ?_, fun stays => ?_⟩
      · exact answers ▸ once
      · exact answers ▸ counted stays
    case h_2 execution =>
      rw [execution] at fits
      exact finished .failing ⟨fits.1, by simp [gone], answers ▸ fits.2.2⟩
    case h_3 execution =>
      rw [execution] at fits
      obtain ⟨status, _, unanswered⟩ := fits
      unfold State.taskExecutionFailed
      split
      case h_1 waiting => exact absurd waiting status
      case h_2 cancelled =>
        exact kept_setExecution kept alive here .answered
          ⟨status, by rw [unanswered]; exact Nat.zero_le 1, fun stays => absurd cancelled stays⟩
      case h_3 | h_4 =>
        have sendable : (Failure.notSerializable : Failure π).serializable setting = true := rfl
        rw [if_pos sendable]
        exact kept_answer kept alive here status unanswered fun _ => rfl
    case h_4 execution =>
      rw [execution] at fits
      exact fits.elim
    case h_5 | h_6 | h_7 => exact kept

theorem kept_offerAccepted {offerId : Nat} {taskId : String}
    (orderly : Orderly setting s (.taskofferaccept offerId taskId)) :
    Kept setting (s.offerAccepted setting offerId taskId) := by
  have rejected : ∀ reason, Kept setting (s.send (.taskrejected taskId reason)) := fun reason =>
    (leaves_send s _ fun _ => rfl).kept kept ⟨kept.within.capacity, kept.within.draining⟩
  unfold State.offerAccepted
  split
  case isTrue => exact rejected _
  case isFalse calm =>
    split
    case isTrue =>
      have said := leaves_send s (.taskrejected taskId "No open task slots - runner already at capacity")
        fun _ => rfl
      refine Leaves.kept (s := s) ⟨rfl, rfl, said.answers, rfl⟩ kept ⟨?_, kept.within.draining⟩
      exact Nat.le_trans (Nat.add_le_add_right (OrderedMap.size_delete_le _ _) _) kept.within.capacity
    case isFalse =>
      split
      case h_1 => exact rejected _
      case h_2 validUntil stored =>
        have new := orderly (by simp [stored])
        have answers : ∀ id, (({ s with
            openOffers := s.openOffers.delete offerId
            tasks := s.tasks ++ [TaskState.new taskId]
            runningTasks := s.runningTasks.set taskId s.tasks.length }).send (.taskaccepted taskId)).answers id =
            s.answers id := (leaves_send s (.taskaccepted taskId) fun _ => rfl).answers
        have older : ∀ (k : Nat) t, (s.tasks ++ [TaskState.new taskId])[k]? = some t →
            s.tasks[k]? = some t ∨ k = s.tasks.length ∧ t = TaskState.new taskId := by
          intro k t here
          rcases Nat.lt_trichotomy k s.tasks.length with below | last | above
          · rw [List.getElem?_append_left below] at here
            exact .inl here
          · rw [last, List.getElem?_concat_length] at here
            exact .inr ⟨last, (Option.some.inj here).symm⟩
          · rw [List.getElem?_eq_none (by rw [List.length_append, List.length_singleton]; omega)] at here
            cases here
        refine ⟨⟨?_, kept.within.draining⟩, fun k t here => ?_, fun k t here => ?_, fun id k stored => ?_,
          fun j k t u here here' equal => ?_, fun id absent => ?_, fun ended => ?_⟩
        · have size := s.openOffers.size_of_get stored
          have grown := OrderedMap.size_set_le s.runningTasks taskId s.tasks.length
          have before := kept.within.capacity
          unfold State.load at before ⊢
          change (s.openOffers.delete offerId).size + (s.runningTasks.set taskId s.tasks.length).size ≤ _
          omega
        · cases older k t here with
          | inl old =>
            have other : t.taskId ≠ taskId := new t (List.mem_of_getElem? old)
            refine (kept.fits k t old).of_leaves ?_ (answers _)
            exact OrderedMap.get_set_of_ne _ _ other
          | inr added =>
            obtain ⟨rfl, rfl⟩ := added
            refine ⟨rfl, .inl ⟨OrderedMap.get_set_self _ _ _, ?_⟩⟩
            rw [answers]
            exact kept.unknown taskId new
        · cases older k t here with
          | inl old => exact kept.timers k t old
          | inr added =>
            rw [added.2]
            exact fun impossible => by cases impossible
        · by_cases same : id = taskId
          · rw [same] at stored ⊢
            have last : s.tasks.length = k := Option.some.inj ((OrderedMap.get_set_self _ _ _).symm.trans stored)
            exact ⟨TaskState.new taskId, last ▸ List.getElem?_concat_length, rfl⟩
          · have before := (OrderedMap.get_set_of_ne _ _ same).symm.trans stored
            obtain ⟨t, here, mine⟩ := kept.running id k before
            exact ⟨t, (List.getElem?_append_left (List.getElem?_eq_some_iff.1 here).1).trans here, mine⟩
        · cases older j t here with
          | inl old =>
            cases older k u here' with
            | inl old' => exact kept.unique j k t u old old' equal
            | inr added =>
              rw [added.2] at equal
              exact absurd equal (new t (List.mem_of_getElem? old))
          | inr added =>
            cases older k u here' with
            | inl old' =>
              rw [added.2] at equal
              exact absurd equal.symm (new u (List.mem_of_getElem? old'))
            | inr added' => rw [added.1, added'.1]
        · rw [answers]
          exact kept.unknown id fun t member => absent t (List.mem_append_left _ member)
        · change s.exited = true at ended
          simp [alive] at ended

end

theorem kept_next {action : Action π} (orderly : Orderly setting s action) :
    Kept setting (s.next setting action) := by
  unfold State.next
  split
  case isTrue => exact kept
  case isFalse live =>
    have alive : s.exited = false := Bool.eq_false_iff.2 live
    have within := kept.within
    have smaller : ∀ {offers : OrderedMap Nat Nat}, offers.size ≤ s.openOffers.size →
        offers.size + s.runningTasks.size ≤ setting.maxConcurrency :=
      fun less => Nat.le_trans (Nat.add_le_add_right less _) within.capacity
    -- the steps that leave the tasks alone
    have left : ∀ {s' : State π}, s'.tasks = s.tasks → s'.runningTasks = s.runningTasks → s'.sent = s.sent →
        s'.exited = s.exited → s'.openOffers.size ≤ s.openOffers.size →
        (s'.isDraining → s'.canSendOffers = false) → Kept setting s' := by
      intro s' tasks running sent exited less draining
      refine Leaves.kept ⟨tasks, running, fun id => by rw [State.answers, State.answers, sent], exited⟩ kept ⟨?_, draining⟩
      unfold State.load
      rw [running]
      exact smaller less
    cases action with
    | inforequest => exact (leaves_send s _ fun _ => rfl).kept kept ⟨within.capacity, within.draining⟩
    | runnerregistered =>
      exact left rfl rfl rfl rfl (Nat.le_refl _) fun draining => by
        cases (show s.isDraining = false from orderly).symm.trans draining
    | taskofferaccept offerId taskId => exact kept_offerAccepted kept alive orderly
    | taskcancel taskId reason => exact kept_taskCancelled kept alive taskId
    | tasksettings taskId => exact kept_receivedSettings kept alive orderly
    | drain =>
      change Kept setting s.onBrokerDrain
      unfold State.onBrokerDrain State.releaseBrokerDrainWait
      split <;> exact left rfl rfl rfl rfl (Nat.le_refl _) fun _ => rfl
    | offerInterval =>
      change Kept setting (s.offerIntervalFires setting)
      unfold State.offerIntervalFires
      split
      case isTrue =>
        have offers := onlyOffers_sendOffers setting s
        exact offers.leaves.kept kept (offers.within within)
      case isFalse => exact kept
    | timePasses ns => exact left rfl rfl rfl rfl (Nat.le_refl _) within.draining
    | timeout task => exact kept_timerFires kept alive task
    | executed task outcome => exact kept_executed kept alive orderly
    | continued task => exact kept_continued kept alive task
    | stop deferToBrokerDrain =>
      change Kept setting (s.stop setting deferToBrokerDrain)
      unfold State.stop
      dsimp only
      split
      case isTrue => split <;> exact left rfl rfl rfl rfl (Nat.le_refl _) within.draining
      case isFalse => exact left rfl rfl rfl rfl (Nat.zero_le _) fun _ => rfl
    | graceElapsed stop =>
      change Kept setting (s.graceElapsed stop)
      unfold State.graceElapsed
      split
      case h_1 => exact left rfl rfl rfl rfl (Nat.le_refl _) within.draining
      case h_2 | h_3 | h_4 => exact kept
    | stopGoesOn stop =>
      change Kept setting (s.stopGoesOn stop)
      unfold State.stopGoesOn
      split
      case h_1 => exact left rfl rfl rfl rfl (Nat.zero_le _) fun _ => rfl
      case h_2 | h_3 | h_4 => exact kept

end

/-- No message is an offer, or accepts a task. -/
def Quiet (s s' : State π) : Prop :=
  ∃ new, s'.sent = s.sent ++ new ∧ ∀ message ∈ new, message.isOffer = false ∧ message.isAccept = false

theorem quiet_of_sent (same : s'.sent = s.sent) : Quiet s s' :=
  ⟨[], by rw [same, List.append_nil], fun _ member => absurd member List.not_mem_nil⟩

theorem Quiet.trans {s'' : State π} (h : Quiet s s') (h' : Quiet s' s'') : Quiet s s'' := by
  obtain ⟨new, sent, quiet⟩ := h
  obtain ⟨new', sent', quiet'⟩ := h'
  refine ⟨new ++ new', by rw [sent', sent, List.append_assoc], fun message member => ?_⟩
  exact (List.mem_append.1 member).elim (quiet message) (quiet' message)

theorem quiet_send (s : State π) (message : ToBroker π) (offer : message.isOffer = false)
    (accept : message.isAccept = false) : Quiet s (s.send message) :=
  ⟨[message], rfl, fun m member => by rw [List.mem_singleton.1 member]; exact ⟨offer, accept⟩⟩

theorem quiet_sendOffers (calm : s.canSendOffers = false) : Quiet s (s.sendOffers setting) := by
  obtain ⟨new, sent, _, none⟩ := (onlyOffers_sendOffers setting s).sent
  exact ⟨new, sent, by rw [none calm]; exact fun _ member => absurd member List.not_mem_nil⟩

theorem quiet_finishTask (calm : s.canSendOffers = false) (k : Nat) (taskId : String) :
    Quiet s (s.finishTask setting k taskId) :=
  quiet_sendOffers (s := { s.modifyTask k fun t => { t with timeoutTimer := false } with
    runningTasks := s.runningTasks.delete taskId }) calm

theorem quiet_taskExecutionFailed (k : Nat) (t : TaskState) (error : Failure π) :
    Quiet s (s.taskExecutionFailed setting k t error) := by
  unfold State.taskExecutionFailed
  split
  case h_1 | h_2 => exact quiet_of_sent rfl
  case h_3 | h_4 =>
    split
    case isTrue => exact (quiet_send s _ rfl rfl).trans (quiet_of_sent rfl)
    case isFalse => exact quiet_of_sent rfl

theorem quiet_taskCancelled (calm : s.canSendOffers = false) (taskId : String) :
    Quiet s (s.taskCancelled setting taskId) := by
  unfold State.taskCancelled
  split
  case h_1 => exact quiet_of_sent rfl
  case h_2 =>
    split
    case h_1 => exact quiet_finishTask calm _ _
    case h_2 | h_3 | h_4 => exact quiet_of_sent rfl

theorem quiet_timerFires (calm : s.canSendOffers = false) (task : Nat) : Quiet s (s.timerFires setting task) := by
  unfold State.timerFires
  split
  case h_1 => exact quiet_of_sent rfl
  case h_2 =>
    split
    case isFalse => exact quiet_of_sent rfl
    case isTrue =>
      unfold State.taskTimedOut
      split
      case h_1 => exact quiet_of_sent rfl
      case h_2 =>
        split
        case h_1 =>
          have cleared : Quiet s (s.modifyTask task fun t => { t with timeoutTimer := false }) := quiet_of_sent rfl
          exact cleared.trans ((quiet_send _ _ rfl rfl).trans (quiet_finishTask (by exact calm) _ _))
        case h_2 | h_3 | h_4 => exact quiet_of_sent rfl

theorem quiet_executed (task : Nat) (outcome : Except π π) :
    Quiet s (s.executed setting task outcome) := by
  unfold State.executed
  split
  case h_1 => exact quiet_of_sent rfl
  case h_2 =>
    split
    case isFalse => exact quiet_of_sent rfl
    case isTrue =>
      cases outcome with
      | error error => exact quiet_taskExecutionFailed _ _ _
      | ok data =>
        dsimp only
        unfold State.taskExecutionSucceeded
        split
        case h_1 | h_2 => exact quiet_of_sent rfl
        case h_3 | h_4 =>
          split
          case isTrue => exact (quiet_send s _ rfl rfl).trans (quiet_of_sent rfl)
          case isFalse => exact quiet_of_sent rfl

theorem quiet_continued (calm : s.canSendOffers = false) (task : Nat) : Quiet s (s.continued setting task) := by
  unfold State.continued
  split
  case h_1 => exact quiet_of_sent rfl
  case h_2 =>
    split
    case h_1 | h_2 | h_4 => exact (quiet_finishTask calm _ _).trans (quiet_of_sent rfl)
    case h_3 => exact quiet_taskExecutionFailed _ _ _
    case h_5 | h_6 | h_7 => exact quiet_of_sent rfl

theorem quiet_next (calm : s.canSendOffers = false) (draining : s.isDraining = true) (action : Action π) :
    Quiet s (s.next setting action) := by
  unfold State.next
  split
  case isTrue => exact quiet_of_sent rfl
  case isFalse =>
    cases action with
    | inforequest => exact quiet_send s _ rfl rfl
    | runnerregistered | timePasses => exact quiet_of_sent rfl
    | taskofferaccept offerId taskId =>
      change Quiet s (s.offerAccepted setting offerId taskId)
      rw [State.offerAccepted, if_pos draining]
      exact quiet_send s _ rfl rfl
    | taskcancel taskId reason => exact quiet_taskCancelled calm taskId
    | tasksettings taskId =>
      change Quiet s (s.receivedSettings setting taskId)
      unfold State.receivedSettings
      split
      case h_1 => exact quiet_of_sent rfl
      case h_2 => split <;> exact quiet_of_sent rfl
    | drain =>
      refine quiet_of_sent ?_
      change s.onBrokerDrain.sent = s.sent
      unfold State.onBrokerDrain State.releaseBrokerDrainWait
      split <;> rfl
    | offerInterval =>
      change Quiet s (s.offerIntervalFires setting)
      unfold State.offerIntervalFires
      split
      case isTrue => exact quiet_sendOffers calm
      case isFalse => exact quiet_of_sent rfl
    | timeout task => exact quiet_timerFires calm task
    | executed task outcome => exact quiet_executed task outcome
    | continued task => exact quiet_continued calm task
    | stop deferToBrokerDrain =>
      refine quiet_of_sent ?_
      change (s.stop setting deferToBrokerDrain).sent = s.sent
      unfold State.stop
      dsimp only
      split
      case isTrue => split <;> rfl
      case isFalse => rfl
    | graceElapsed stop =>
      refine quiet_of_sent ?_
      change (s.graceElapsed stop).sent = s.sent
      unfold State.graceElapsed
      split <;> rfl
    | stopGoesOn stop =>
      refine quiet_of_sent ?_
      change (s.stopGoesOn stop).sent = s.sent
      unfold State.stopGoesOn
      split <;> rfl

/-- What a step leaves behind: the capacity is kept; no task has been answered twice; a task
that has got its settings, and has not been cancelled, has been answered where its execution
has ended or the process has, and is not run any more where its execution has ended; and no
offer and no acceptance has been sent if the runner was draining. -/
structure Contract (setting : Setting π) (s : State π) (action : Action π) : Prop where
  capacity : (s.next setting action).openOffers.size + (s.next setting action).runningTasks.size ≤
    setting.maxConcurrency
  atMostOnce : ∀ t ∈ (s.next setting action).tasks, (s.next setting action).answers t.taskId ≤ 1
  answered : ∀ t ∈ (s.next setting action).tasks, t.execution ≠ .notStarted → t.status ≠ .abortingCancelled →
    t.execution = .ended ∨ (s.next setting action).exited → (s.next setting action).answers t.taskId = 1
  removed : ∀ t ∈ (s.next setting action).tasks, t.execution = .ended →
    (s.next setting action).runningTasks.get t.taskId = none
  draining : s.isDraining → ∀ message ∈ (s.next setting action).sent.drop s.sent.length,
    message.isOffer = false ∧ message.isAccept = false

theorem Fits.atMostOnce {k : Nat} {t : TaskState} (fits : Fits s k t) : s.answers t.taskId ≤ 1 := by
  unfold Fits at fits
  cases execution : t.execution with
  | notStarted =>
    rw [execution] at fits
    exact fits.2.elim (fun runs => Nat.le_trans (Nat.le_of_eq runs.2) (Nat.zero_le 1)) (fun gone => gone.2)
  | executing | unsendable | failing =>
    rw [execution] at fits
    exact Nat.le_trans (Nat.le_of_eq fits.2.2) (Nat.zero_le 1)
  | answered =>
    rw [execution] at fits
    exact fits.2.1
  | ended =>
    rw [execution] at fits
    exact fits.2.2.1
  | unsendableError =>
    rw [execution] at fits
    exact fits.elim

theorem contract_of_kept (kept : Kept setting s) {action : Action π} (orderly : Orderly setting s action) :
    Contract setting s action := by
  have kept' := kept_next kept orderly
  generalize after : s.next setting action = s' at kept'
  have fits : ∀ {t}, t ∈ s'.tasks → ∃ k : Nat, s'.tasks[k]? = some t ∧ Fits s' k t := by
    intro t member
    obtain ⟨k, here⟩ := List.mem_iff_getElem?.1 member
    exact ⟨k, here, kept'.fits k t here⟩
  constructor
  case capacity => exact after ▸ kept'.within.capacity
  all_goals rw [after]
  case atMostOnce =>
    intro t member
    obtain ⟨k, _, fits⟩ := fits member
    exact fits.atMostOnce
  case answered =>
    intro t member started stays ends
    obtain ⟨k, here, fits⟩ := fits member
    cases ends with
    | inl ended =>
      unfold Fits at fits
      rw [ended] at fits
      exact fits.2.2.2 stays
    | inr exited => exact kept'.exited exited k t here started stays
  case removed =>
    intro t member ended
    obtain ⟨k, here, fits⟩ := fits member
    unfold Fits at fits
    rw [ended] at fits
    cases stored : s'.runningTasks.get t.taskId with
    | none => rfl
    | some j =>
      obtain ⟨u, there, same⟩ := kept'.running t.taskId j stored
      rw [kept'.unique j k u t there here same] at stored
      exact absurd stored fits.2.1
  case draining =>
    intro draining
    obtain ⟨new, sent, quiet⟩ := quiet_next (kept.within.draining draining) draining action
    rw [← after, sent, List.drop_left]
    exact quiet

def State.execution (s : State π) (k : Nat) : Option Execution := s.tasks[k]?.map (·.execution)

theorem execution_modifyTask {j k : Nat} {f : TaskState → TaskState}
    (same : ∀ t, s.tasks[k]? = some t → j = k → (f t).execution = t.execution) :
    (s.modifyTask j f).execution k = s.execution k := by
  unfold State.execution State.modifyTask
  rw [List.getElem?_modify]
  cases here : s.tasks[k]? with
  | none => rfl
  | some t =>
    by_cases mine : j = k
    · simp [mine, same t here mine]
    · simp [mine]

theorem execution_finishTask (j : Nat) (taskId : String) (k : Nat) :
    (s.finishTask setting j taskId).execution k = s.execution k := by
  have offers := (onlyOffers_sendOffers setting { s.modifyTask j fun t => { t with timeoutTimer := false } with
    runningTasks := s.runningTasks.delete taskId }).leaves.tasks
  have same : (s.finishTask setting j taskId).tasks = (s.modifyTask j fun t => { t with timeoutTimer := false }).tasks :=
    offers
  unfold State.execution
  rw [same]
  exact execution_modifyTask fun _ _ _ => rfl

theorem execution_setExecution_of_ne {j k : Nat} (other : j ≠ k) (execution : Execution) :
    (s.setExecution j execution).execution k = s.execution k :=
  execution_modifyTask fun _ _ same => absurd same other

theorem execution_setExecution {before : Execution} (here : s.execution k = some before)
    (execution : Execution) : (s.setExecution k execution).execution k = some execution := by
  obtain ⟨t, found, _⟩ := Option.map_eq_some_iff.1 here
  unfold State.execution State.setExecution State.modifyTask
  simp [found]

theorem execution_taskExecutionFailed_of_ne {j k : Nat} (other : j ≠ k) (t : TaskState) (error : Failure π) :
    (s.taskExecutionFailed setting j t error).execution k = s.execution k := by
  unfold State.taskExecutionFailed
  split
  case h_1 | h_2 => exact execution_setExecution_of_ne other _
  case h_3 | h_4 => split <;> exact execution_setExecution_of_ne other _

variable {execution : Execution}

theorem execution_offerAccepted (here : s.execution k = some execution)
    (offerId : Nat) (taskId : String) : (s.offerAccepted setting offerId taskId).execution k = s.execution k := by
  obtain ⟨t, found, _⟩ := Option.map_eq_some_iff.1 here
  unfold State.offerAccepted
  split
  case isTrue => rfl
  case isFalse =>
    split
    case isTrue => rfl
    case isFalse =>
      split
      case h_1 => rfl
      case h_2 =>
        have added : (s.tasks ++ [TaskState.new taskId])[k]? = s.tasks[k]? :=
          List.getElem?_append_left (List.getElem?_eq_some_iff.1 found).1
        exact congrArg (Option.map (·.execution)) added

theorem execution_taskCancelled (taskId : String) (k : Nat) :
    (s.taskCancelled setting taskId).execution k = s.execution k := by
  unfold State.taskCancelled
  split
  case h_1 => rfl
  case h_2 =>
    split
    case h_1 => exact execution_finishTask _ _ k
    case h_2 | h_3 => rfl
    case h_4 => exact execution_modifyTask fun _ _ _ => rfl

theorem execution_receivedSettings {k : Nat} {execution : Execution} (here : s.execution k = some execution)
    (started : execution ≠ .notStarted) (kept : Kept setting s) (taskId : String) :
    (s.receivedSettings setting taskId).execution k = s.execution k := by
  unfold State.receivedSettings
  split
  case h_1 => rfl
  case h_2 j t found =>
    split
    case h_1 | h_2 | h_3 => rfl
    case h_4 waiting =>
      refine execution_modifyTask fun u there same => ?_
      obtain ⟨_, found⟩ := kept.of_runningTask found
      rw [same] at found
      rw [State.execution, found] at here
      exact absurd ((Option.some.inj here).symm.trans ((kept.fits k t found).waiting waiting).1) started

theorem execution_timerFires (task k : Nat) : (s.timerFires setting task).execution k = s.execution k := by
  unfold State.timerFires
  split
  case h_1 => rfl
  case h_2 =>
    split
    case isFalse => rfl
    case isTrue =>
      have cleared : (s.modifyTask task fun t => { t with timeoutTimer := false }).execution k = s.execution k :=
        execution_modifyTask fun _ _ _ => rfl
      rw [← cleared]
      unfold State.taskTimedOut
      split
      case h_1 => rfl
      case h_2 =>
        split
        case h_1 => exact execution_finishTask _ _ k
        case h_2 | h_4 => rfl
        case h_3 => exact execution_modifyTask fun _ _ _ => rfl

theorem execution_executed_of_ne (here : s.execution k = some execution)
    (executed : execution ≠ .executing) (task : Nat) (outcome : Except π π) :
    (s.executed setting task outcome).execution k = s.execution k := by
  unfold State.executed
  split
  case h_1 => rfl
  case h_2 t found =>
    split
    case isFalse => rfl
    case isTrue executing =>
      have apart : task ≠ k := by
        intro same
        rw [same] at found
        rw [State.execution, found] at here
        exact executed ((Option.some.inj here).symm.trans executing)
      cases outcome with
      | error error => exact execution_taskExecutionFailed_of_ne apart _ _
      | ok data =>
        dsimp only
        unfold State.taskExecutionSucceeded
        split
        case h_1 | h_2 => exact execution_setExecution_of_ne apart _
        case h_3 | h_4 => split <;> exact execution_setExecution_of_ne apart _

theorem execution_continued_of_ne {task k : Nat} (apart : task ≠ k) :
    (s.continued setting task).execution k = s.execution k := by
  unfold State.continued
  split
  case h_1 => rfl
  case h_2 =>
    split
    case h_1 | h_2 | h_4 =>
      exact (execution_setExecution_of_ne apart _).trans (execution_finishTask _ _ k)
    case h_3 => exact execution_taskExecutionFailed_of_ne apart _ _
    case h_5 | h_6 | h_7 => rfl

/-- An execution that has ended goes on at its own awaits only. -/
theorem execution_next (here : s.execution k = some execution)
    (waits : execution ≠ .notStarted ∧ execution ≠ .executing) (kept : Kept setting s) {action : Action π}
    (other : action ≠ .continued k) : (s.next setting action).execution k = some execution := by
  rw [← here]
  unfold State.next
  split
  case isTrue => rfl
  case isFalse =>
    cases action with
    | inforequest | runnerregistered | timePasses => rfl
    | taskofferaccept offerId taskId => exact execution_offerAccepted here offerId taskId
    | taskcancel taskId reason => exact execution_taskCancelled taskId k
    | tasksettings taskId => exact execution_receivedSettings here waits.1 kept taskId
    | drain =>
      change s.onBrokerDrain.execution k = _
      unfold State.onBrokerDrain State.releaseBrokerDrainWait
      split <;> rfl
    | offerInterval =>
      change (s.offerIntervalFires setting).execution k = _
      unfold State.offerIntervalFires
      split
      case isTrue => exact congrArg (·[k]?.map (·.execution)) (onlyOffers_sendOffers setting s).leaves.tasks
      case isFalse => rfl
    | timeout task => exact execution_timerFires task k
    | executed task outcome => exact execution_executed_of_ne here waits.2 task outcome
    | continued task => exact execution_continued_of_ne fun same => other (by rw [same])
    | stop deferToBrokerDrain =>
      change (s.stop setting deferToBrokerDrain).execution k = _
      unfold State.stop
      dsimp only
      split
      case isTrue => split <;> rfl
      case isFalse => rfl
    | graceElapsed stop =>
      change (s.graceElapsed stop).execution k = _
      unfold State.graceElapsed
      split <;> rfl
    | stopGoesOn stop =>
      change (s.stopGoesOn stop).execution k = _
      unfold State.stopGoesOn
      split <;> rfl

/-- How many awaits stand between an execution that has come to its result and its end. -/
def Execution.remaining : Execution → Nat
  | .notStarted | .executing | .ended => 0
  | .answered | .unsendableError => 1
  | .failing => 2
  | .unsendable => 3

theorem execution_continued (here : s.execution k = some execution)
    (waits : execution ≠ .notStarted ∧ execution ≠ .executing) (kept : Kept setting s) (alive : s.exited = false) :
    ∃ after, (s.next setting (.continued k)).execution k = some after ∧
      (after ≠ .notStarted ∧ after ≠ .executing) ∧ after.remaining = execution.remaining - 1 := by
  obtain ⟨t, found, same⟩ := Option.map_eq_some_iff.1 here
  have fits := kept.fits k t found
  rw [State.next, alive, if_neg Bool.false_ne_true]
  change ∃ after, (s.continued setting k).execution k = some after ∧ _
  unfold State.continued
  rw [found]
  have finished : ∀ stage, ((s.finishTask setting k t.taskId).setExecution k stage).execution k = some stage :=
    fun stage => execution_setExecution ((execution_finishTask k t.taskId k).trans here) stage
  dsimp only
  split
  case h_1 stage =>
    refine ⟨.ended, finished .ended, by simp, ?_⟩
    rw [← same, stage]
    rfl
  case h_2 stage =>
    refine ⟨.failing, finished .failing, by simp, ?_⟩
    rw [← same, stage]
    rfl
  case h_3 stage =>
    refine ⟨.answered, ?_, by simp, by rw [← same, stage]; rfl⟩
    unfold Fits at fits
    rw [stage] at fits
    unfold State.taskExecutionFailed
    split
    case h_1 waiting => exact absurd waiting fits.1
    case h_2 => exact execution_setExecution here _
    case h_3 | h_4 =>
      have sendable : (Failure.notSerializable : Failure π).serializable setting = true := rfl
      rw [if_pos sendable]
      exact execution_setExecution (s := s.send _) here _
  case h_4 stage =>
    unfold Fits at fits
    rw [stage] at fits
    exact fits.elim
  case h_5 stage => exact absurd (same.symm.trans stage) waits.1
  case h_6 stage => exact absurd (same.symm.trans stage) waits.2
  case h_7 stage =>
    refine ⟨execution, here, waits, ?_⟩
    rw [← same, stage]
    rfl

def Action.continues (k : Nat) : Action π → Bool
  | .continued task => task = k
  | _ => false

variable (setting) in
theorem after_exited (ended : s.exited = true) (actions : List (Action π)) :
    after (State.next setting) s actions = s := by
  induction actions with
  | nil => rfl
  | cons action actions ih =>
    change after (State.next setting) (s.next setting action) actions = s
    rw [State.next, if_pos ended]
    exact ih

theorem execution_after {k : Nat} {execution : Execution} {actions : List (Action π)}
    (here : s.execution k = some execution) (waits : execution ≠ .notStarted ∧ execution ≠ .executing)
    (kept : Kept setting s) (orderly : Along (State.next setting) (Orderly setting) s actions)
    (alive : (after (State.next setting) s actions).exited = false) :
    ∃ stage, (after (State.next setting) s actions).execution k = some stage ∧
      (stage ≠ .notStarted ∧ stage ≠ .executing) ∧
      stage.remaining = execution.remaining - actions.countP (·.continues k) := by
  induction actions generalizing s execution with
  | nil => exact ⟨execution, here, waits, rfl⟩
  | cons action actions ih =>
    have live : s.exited = false := by
      by_contra ended
      have stopped := after_exited setting (Bool.not_eq_false _ ▸ ended) (action :: actions)
      rw [stopped] at alive
      exact ended alive
    have kept' := kept_next kept orderly.1
    by_cases mine : action = .continued k
    · subst mine
      obtain ⟨stage, next, waits', remaining⟩ := execution_continued here waits kept live
      obtain ⟨last, found, waits'', left⟩ := ih next waits' kept' orderly.2 alive
      refine ⟨last, found, waits'', ?_⟩
      rw [left, remaining, List.countP_cons_of_pos (by simp [Action.continues])]
      omega
    · have passed : action.continues k = false := by
        cases action with
        | continued task => simpa [Action.continues] using mine
        | inforequest | runnerregistered | taskofferaccept | taskcancel | tasksettings | drain | offerInterval
          | timePasses | timeout | executed | stop | graceElapsed | stopGoesOn => rfl
      obtain ⟨last, found, waits', left⟩ := ih (execution_next here waits kept mine) waits kept' orderly.2 alive
      refine ⟨last, found, waits', ?_⟩
      rw [left, List.countP_cons_of_neg (by simp [passed])]

theorem execution_executed {outcome : Except π π} (here : s.execution k = some .executing)
    (alive : s.exited = false) : ∃ stage, (s.next setting (.executed k outcome)).execution k = some stage ∧
      stage ≠ .notStarted ∧ stage ≠ .executing := by
  obtain ⟨t, found, executing⟩ := Option.map_eq_some_iff.1 here
  rw [State.next, alive, if_neg Bool.false_ne_true]
  change ∃ stage, (s.executed setting k outcome).execution k = some stage ∧ _
  unfold State.executed
  rw [found]
  dsimp only
  rw [if_pos executing]
  have set : ∀ stage, (s.setExecution k stage).execution k = some stage := execution_setExecution here
  have sent : ∀ message stage, ((s.send message).setExecution k stage).execution k = some stage :=
    fun message => execution_setExecution (s := s.send message) here
  cases outcome with
  | ok data =>
    dsimp only
    unfold State.taskExecutionSucceeded
    split
    case h_1 => exact ⟨_, set _, by simp⟩
    case h_2 => exact ⟨_, set _, by simp⟩
    case h_3 | h_4 =>
      split
      case isTrue => exact ⟨_, sent _ _, by simp⟩
      case isFalse => exact ⟨_, set _, by simp⟩
  | error error =>
    dsimp only
    unfold State.taskExecutionFailed
    split
    case h_1 => exact ⟨_, set _, by simp⟩
    case h_2 => exact ⟨_, set _, by simp⟩
    case h_3 | h_4 =>
      split
      case isTrue => exact ⟨_, sent _ _, by simp⟩
      case isFalse => exact ⟨_, set _, by simp⟩

/-- Every step of the run keeps the contract; and an execution that has come to its result has
ended behind its awaits, so that the contract says how often its task has been answered. -/
def Serves (setting : Setting π) (actions : List (Action π)) : Prop :=
  Along (State.next setting) (Contract setting) {} actions ∧
    ∀ before task outcome later, actions = before ++ .executed task outcome :: later →
      (after (State.next setting) {} before).execution task = some .executing →
      (after (State.next setting) {} actions).exited = false → 3 ≤ later.countP (·.continues task) →
      (after (State.next setting) {} actions).execution task = some .ended

theorem serves_of_orderly {actions : List (Action π)}
    (orderly : Along (State.next setting) (Orderly setting) {} actions) : Serves setting actions := by
  refine ⟨along_of_invariant (fun s action kept orderly => ⟨contract_of_kept kept orderly, kept_next kept orderly⟩)
    (kept_initial setting) orderly, fun before task outcome later split executing alive enough => ?_⟩
  rw [split, along_append] at orderly
  have kept := holds_after (I := Kept setting) (fun s action kept orderly => kept_next kept orderly) (kept_initial setting) orderly.1
  have ends : after (State.next setting) {} actions = after (State.next setting)
      ((after (State.next setting) {} before).next setting (.executed task outcome)) later := by
    rw [split, after, List.foldl_append, List.foldl_cons]
    rfl
  rw [ends] at alive ⊢
  have live : (after (State.next setting) {} before).exited = false := by
    by_contra ended
    have stopped := after_exited setting (Bool.not_eq_false _ ▸ ended) (.executed task outcome :: later)
    change after (State.next setting) ((after (State.next setting) {} before).next setting _) later = _ at stopped
    rw [stopped] at alive
    exact ended alive
  obtain ⟨stage, next, waits⟩ := execution_executed executing live
  obtain ⟨last, found, waits', left⟩ := execution_after next waits (kept_next kept orderly.2.1) orderly.2.2 alive
  have done : last.remaining = 0 := by
    have most : stage.remaining ≤ 3 := by cases stage <;> decide
    omega
  rw [found]
  cases last with
  | ended => rfl
  | notStarted => exact absurd rfl waits'.1
  | executing => exact absurd rfl waits'.2
  | answered | unsendable | failing | unsendableError => cases done

def smallSetting : Setting Unit where
  name := "runner"
  taskType := "javascript"
  maxConcurrency := 1
  taskTimeout := 60
  gracefulShutdownTimeout := 0
  serializable _ := true
  randomInt _ := 0
  exitOnUnhandledRejection := true

/-- One task from its offer to its answer, and a drain. -/
theorem serves_oneTask : Serves smallSetting
    [.runnerregistered, .offerInterval, .taskofferaccept 0 "t", .tasksettings "t", .drain, .executed 0 (.ok ()),
      .continued 0] :=
  serves_of_orderly (by decide)

/-- A runner that drains, and is registered once more. -/
theorem not_serves_registeredAgain :
    ¬ Serves smallSetting [.runnerregistered, .drain, .runnerregistered, .offerInterval] := by
  intro serves
  obtain ⟨_, _, _, contract, _⟩ := serves.1
  exact absurd (contract.draining rfl (.taskoffer "javascript" 0 5000) (by decide)).1 (by decide)

end NodeAutomation.TaskRunner
