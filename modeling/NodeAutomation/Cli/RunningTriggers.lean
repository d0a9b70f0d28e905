import NodeAutomation.Cli.PublicationLifecycle
import NodeAutomation.Lib.Interleaving

/-! When nothing is in progress, the non-webhook triggers that run are those of the published
version, and none run on a follower. -/

namespace NodeAutomation.PublicationLifecycle

open WorkflowPublication Runs Interleaving

variable {setting : Setting}

/-- Nothing is registered that was not, and no cron is new. -/
structure Fewer (after before : Memory) : Prop where
  registered : ∀ id ∈ after.registered, id ∈ before.registered
  crons : ∀ id ∈ after.crons, id ∈ before.crons

variable (memory : Memory)

theorem Fewer.refl : Fewer memory memory := ⟨fun _ same => same, fun _ same => same⟩

theorem Fewer.trans {after between before : Memory} (h : Fewer after between) (h' : Fewer between before) :
    Fewer after before :=
  ⟨fun id here => h'.registered id (h.registered id here), fun id here => h'.crons id (h.crons id here)⟩

theorem fewer_closing (closing : List String) : Fewer { memory with closing } memory :=
  ⟨fun _ same => same, fun _ same => same⟩

theorem fewer_removeTriggers (ids : List String) : Fewer (memory.removeTriggers ids) memory :=
  ⟨fun _ after => (Memory.mem_removeTriggers.1 after).1, fun _ after => (List.mem_filter.1 after).1⟩

theorem fewer_delete (id : String) : Fewer (memory.delete id) memory :=
  ⟨fun _ after => (Memory.mem_delete.1 after).1, fun _ same => same⟩

theorem fewer_rollBack (id : String) (polls : Bool) : Fewer (memory.rollBack id polls) memory :=
  ⟨fun _ after => Memory.mem_rollBack after, fun _ after => (List.mem_filter.1 after).1⟩

/-- The task that starts registers its node. -/
def Registers (s : State) (action : Action) (id : String) (registration : Registration) : Prop :=
  ∃ index, action = .triggerTask index (.started registration) ∧
    ∃ task ∈ s.stage.triggerTasks[index]?, task.result = none ∧ task.nodeId = id

section

variable {s : State} {plan : Plan}

theorem memory_settleDeactivation {phase : WebhookPhase} {closing : List String} {rejected : Option ActivationError} :
    Fewer (s.settleDeactivation plan phase closing rejected).memory s.memory := by
  unfold State.settleDeactivation
  split
  case h_1 =>
    split
    case isTrue => exact Fewer.refl _
    case isFalse =>
      split
      case h_1 => exact Fewer.refl _
      case h_2 => exact fewer_closing _ _
  case h_2 | h_3 => exact Fewer.refl _

theorem memory_proceed (error : Option ActivationError) : Fewer (s.proceedStep setting error).memory s.memory := by
  unfold State.proceedStep
  split
  case h_1 =>
    rw [State.resolved]
    split
    case h_1 => exact Fewer.refl _
    case h_2 => split <;> exact Fewer.refl _
    case h_3 => split <;> exact Fewer.refl _
  case h_3 => exact fewer_removeTriggers _ _
  case h_5 =>
    rw [State.writePublishedVersion]
    split
    case isTrue => exact Fewer.refl _
    case isFalse => split <;> exact Fewer.refl _
  case h_6 =>
    rw [State.advanced]
    split
    case isTrue => exact Fewer.refl _
    case isFalse => split <;> exact Fewer.refl _
  all_goals exact Fewer.refl _

theorem memory_triggerTask (index : Nat) (reply : TriggerReply) :
    Fewer (s.triggerTaskStep index reply).memory s.memory ∨
      ∃ id registration, Registers s (.triggerTask index reply) id registration ∧
        (s.triggerTaskStep index reply).memory = s.memory.addTrigger id registration := by
  rw [State.triggerTaskStep]
  split
  case h_1 plan webhookTasks triggerTasks rejected stage =>
    split
    case h_1 => exact .inl (Fewer.refl _)
    case h_2 task found =>
      unfold TriggerTask.step
      split
      case h_1 => exact .inl (Fewer.refl _)
      case h_2 registration running =>
        refine .inr ⟨task.nodeId, registration, ⟨index, rfl, task, ?_, running, rfl⟩, rfl⟩
        rw [stage]
        exact found
      case h_3 => exact .inl (fewer_rollBack _ _ _)
  case h_2 => exact .inl (Fewer.refl _)

variable (setting s) in
/-- A step of a record registers no node but that of a trigger that has started. -/
theorem memory_next (action : Action) :
    Fewer (s.next setting action).memory s.memory ∨ ∃ id registration, Registers s action id registration ∧
      (s.next setting action).memory = s.memory.addTrigger id registration := by
  rw [State.next]
  generalize silently : { s with reported := none } = s'
  have memory : s.memory = s'.memory := by rw [← silently]
  have stage : s.stage = s'.stage := by rw [← silently]
  unfold Registers
  rw [memory, stage]
  cases action with
  | claim record =>
    refine .inl ?_
    change Fewer (s'.claimStep record).memory s'.memory
    rw [State.claimStep]
    split <;> exact Fewer.refl _
  | proceed error => exact .inl (memory_proceed error)
  | webhookPhase error =>
    refine .inl ?_
    change Fewer (s'.webhookPhaseStep setting error).memory s'.memory
    rw [State.webhookPhaseStep]
    split
    case h_1 =>
      split
      case h_1 => exact Fewer.refl _
      case h_2 => exact memory_settleDeactivation
    case h_2 =>
      split
      case h_1 => exact memory_settleDeactivation.trans (Fewer.refl _)
      case h_2 => exact memory_settleDeactivation
    case h_3 => exact Fewer.refl _
  | closed index closed =>
    refine .inl ?_
    change Fewer (s'.closedStep index closed).memory s'.memory
    rw [State.closedStep]
    split
    case h_1 =>
      split
      case h_1 => exact Fewer.refl _
      case h_2 id _ => exact memory_settleDeactivation.trans (fewer_delete _ id)
      case h_3 | h_4 => exact memory_settleDeactivation
    case h_2 => exact Fewer.refl _
  | closedLate index closed =>
    refine .inl ?_
    change Fewer (s'.closedLateStep index closed).memory s'.memory
    unfold State.closedLateStep
    split
    case h_1 => exact Fewer.refl _
    case h_2 id _ => exact (fewer_closing _ _).trans (fewer_delete _ id)
    case h_3 | h_4 => exact fewer_closing _ _
  | activate webhookError triggerError =>
    refine .inl ?_
    change Fewer (s'.activateStep setting webhookError triggerError).memory s'.memory
    rw [State.activateStep]
    split <;> exact Fewer.refl _
  | webhookTask index error =>
    refine .inl ?_
    change Fewer (s'.webhookTaskStep setting index error).memory s'.memory
    rw [State.webhookTaskStep]
    split
    case h_1 => split <;> exact Fewer.refl _
    case h_2 => exact Fewer.refl _
  | triggerTask index reply => exact memory_triggerTask index reply
  | settle webhooksFirst =>
    refine .inl ?_
    change Fewer (s'.settleStep setting webhooksFirst).memory s'.memory
    rw [State.settleStep]
    split
    case h_1 =>
      split
      case isTrue => exact Fewer.refl _
      case isFalse => split <;> exact Fewer.refl _
    case h_2 => exact Fewer.refl _
  | crash => exact .inl ⟨fun _ never => absurd never List.not_mem_nil, fun _ never => absurd never List.not_mem_nil⟩
  | environment event => exact .inl ((environmentStep_same setting s' event).2.1 ▸ Fewer.refl _)

end

section

variable {m : Main} {teardowns : List Teardown} {crons crons' : List String} {id : String}

/-- What is registered is a trigger that the published version leaves, or doomed; on a follower
all of it is doomed. -/
structure Sound (setting : Setting) (m : Main) : Prop where
  within : Within setting (Doomed m.teardowns m.memory.crons) m.publication
  leader : m.isLeader = false → ∀ id ∈ m.memory.registered, Doomed m.teardowns m.memory.crons id

theorem Teardown.Dooms.of_crons {teardown : Teardown} (dooms : teardown.Dooms crons id)
    (fewer : id ∈ crons' → id ∈ crons) : teardown.Dooms crons' id := by
  cases teardown with
  | removing locked => exact fun cron => dooms (fewer cron)
  | _ => exact dooms

theorem Doomed.of_crons (doomed : Doomed teardowns crons id) (fewer : id ∈ crons' → id ∈ crons) :
    Doomed teardowns crons' id := by
  obtain ⟨teardown, member, dooms⟩ := doomed
  exact ⟨teardown, member, dooms.of_crons fewer⟩

theorem allows_of_crons {published : Option String} {stage : Stage} (allowed : stage.Allows setting published crons id)
    (fewer : id ∈ crons' → id ∈ crons) : stage.Allows setting published crons' id := by
  cases stage with
  | deactivating plan phase closing rejected =>
    exact ⟨allowed.1, fun none removed => (allowed.2 none removed).imp_right fun noCron cron => noCron (fewer cron)⟩
  | _ => exact allowed

theorem doomed_set {number : Nat} {teardown teardown' : Teardown} (found : teardowns[number]? = some teardown)
    (still : teardown.Dooms crons id → teardown'.Dooms crons id) (doomed : Doomed teardowns crons id) :
    Doomed (teardowns.set number teardown') crons id :=
  (someCall_set found).2 (((someCall_iff found).1 doomed).imp_left still)

theorem Main.Safe.doomed (safe : m.Safe setting teardowns crons id) (follower : m.isLeader = false) :
    Doomed teardowns crons id := by
  refine safe.resolve_right fun leads => ?_
  rw [follower] at leads
  cases leads.1

theorem Sound.of_memory (h : Sound setting m) (memory : Memory) (teardowns : List Teardown)
    (each : ∀ id ∈ memory.registered,
      (id ∈ m.memory.registered ∧ (id ∈ memory.crons → id ∈ m.memory.crons) ∧
        (Doomed m.teardowns memory.crons id → Doomed teardowns memory.crons id)) ∨
      m.Safe setting teardowns memory.crons id) :
    Sound setting { m.setMemory memory with teardowns } := by
  refine ⟨h.within.of_memory memory fun id after => ?_, fun follower id after => ?_⟩
  · cases each id after with
    | inl kept =>
      obtain ⟨before, crons, doomed⟩ := kept
      exact (h.within.registered id before).imp (allows_of_crons · crons) fun was => doomed (was.of_crons crons)
    | inr safe => exact safe.symm.imp_left And.right
  · cases each id after with
    | inl kept =>
      obtain ⟨before, crons, doomed⟩ := kept
      exact doomed ((h.leader follower id before).of_crons crons)
    | inr safe => exact safe.doomed follower

theorem Sound.of_fewer (h : Sound setting m) {memory : Memory} (fewer : Fewer memory m.memory) :
    Sound setting (m.setMemory memory) :=
  h.of_memory memory m.teardowns fun id after =>
    .inl ⟨fewer.registered id after, fewer.crons id, fun doomed => doomed⟩

variable {registration : Registration}

theorem crons_addTrigger {memory : Memory} {other : String} (apart : other ≠ id)
    (cron : other ∈ (memory.addTrigger id registration).crons) : other ∈ memory.crons := by
  rw [Memory.addTrigger] at cron
  dsimp only at cron
  split_ifs at cron
  · exact (List.mem_append.1 cron).resolve_right fun new => apart (List.mem_singleton.1 new)
  · exact cron

theorem addTrigger_of_not_registers {memory : Memory}
    (nothing : registration.registers = false) : memory.addTrigger id registration = memory := by
  rw [Registration.registers, Bool.or_eq_false_iff, Option.isSome_eq_false_iff, Option.isNone_iff_eq_none] at nothing
  rw [Memory.addTrigger, nothing.1, nothing.2]
  rfl

theorem Sound.addTrigger (h : Sound setting m) (registration : Registration)
    (safe : m.Registrable setting id registration) :
    Sound setting (m.setMemory (m.memory.addTrigger id registration)) := by
  refine h.of_memory _ m.teardowns fun other after => ?_
  cases registers : registration.registers with
  | false =>
    rw [addTrigger_of_not_registers registers] at after ⊢
    exact .inl ⟨after, fun cron => cron, fun doomed => doomed⟩
  | true =>
    by_cases same : other = id
    · exact .inr (same ▸ safe registers)
    · refine .inl ⟨?_, crons_addTrigger same, fun doomed => doomed⟩
      exact (Memory.mem_addTrigger.1 after).resolve_right fun new => same new.1

theorem Sound.of_queue (h : Sound setting m) (queue : List Holder) : Sound setting { m with queue } :=
  ⟨h.within, h.leader⟩

theorem Sound.of_recoveries (h : Sound setting m) (recoveries : List Recovery) : Sound setting { m with recoveries } :=
  ⟨h.within, h.leader⟩

theorem allows_of_registers {doomed : String → Prop} {s : State} {action : Action}
    (h : Within setting doomed s) (registers : Registers s action id registration) (crons : List String) :
    s.stage.Allows setting s.database.publishedVersion crons id := by
  obtain ⟨index, -, task, found, -, same⟩ := registers
  obtain ⟨-, planFits, -, wanted⟩ := h
  rw [← same]
  cases stage : s.stage with
  | activating plan webhookTasks triggerTasks rejected =>
    rw [stage] at found planFits wanted
    exact ⟨plan.record, planFits, wanted task (List.mem_of_getElem? found)⟩
  | _ => rw [stage] at found; cases found

theorem Sound.applyStep (h : Sound setting m) (action : Action)
    (distinct : action = .proceed none → ∀ record ∈ m.publication.publishes, setting.DistinctIds record)
    (dropped : ∀ index, action = .closed index .dropped → ∀ id ∈ m.publication.stage.closing[index]?,
      id ∈ m.memory.registered → Doomed m.teardowns m.memory.crons id)
    (registrable : ∀ id registration, Registers m.publication action id registration →
      m.Registrable setting id registration) : Sound setting (m.applyStep setting action) := by
  cases memory_next setting m.publication action with
  | inl fewer =>
    have within := h.within.next action distinct dropped
    refine ⟨⟨within.published, within.stage, fun id after => ?_, within.registers⟩, fun follower id after => ?_⟩
    · exact (within.registered id after).imp_right (·.of_crons (fewer.crons id))
    · exact (h.leader follower id (fewer.registered id after)).of_crons (fewer.crons id)
  | inr added =>
    obtain ⟨started, registration, registers, memory⟩ := added
    have allowed := allows_of_registers h.within registers
    have safe := registrable started registration registers
    have after : (m.applyStep setting action).memory = m.memory.addTrigger started registration := memory
    -- the crons of the node that has started are new, and it belongs to the published version
    have before : Within setting (Doomed m.teardowns (m.memory.addTrigger started registration).crons) m.publication := by
      refine ⟨h.within.published, h.within.stage, fun id registered => ?_, h.within.registers⟩
      by_cases same : id = started
      · exact .inl (same ▸ allowed _)
      · exact (h.within.registered id registered).imp_right (·.of_crons (crons_addTrigger same))
    have within := before.next action distinct fun index closes => ?_
    · refine ⟨?_, fun follower id here => ?_⟩
      · rw [after]
        exact within
      · rw [after] at here ⊢
        cases nothing : registration.registers with
        | false =>
          rw [addTrigger_of_not_registers nothing] at here ⊢
          exact h.leader follower id here
        | true =>
          by_cases same : id = started
          · exact same ▸ (safe nothing).doomed follower
          · refine (h.leader follower id ?_).of_crons (crons_addTrigger same)
            exact (Memory.mem_addTrigger.1 here).resolve_right fun new => same new.1
    · obtain ⟨_, starts, -⟩ := registers
      simp [closes] at starts

theorem Sound.recordStep (h : Sound setting m) : Sound setting (m.recordStep setting) := by
  rw [Main.recordStep]
  split
  case h_1 record rest queue =>
    split
    case isTrue =>
      refine (h.applyStep (.claim record) (fun never => by cases never) (fun _ never => by cases never) ?_).of_queue _
      intro id registration registers
      obtain ⟨_, starts, -⟩ := registers
      cases starts
    case isFalse => exact h.of_queue _
  case h_2 | h_3 => exact h.of_queue _
  case h_4 => exact h

theorem Sound.publicationStep (h : Sound setting m) (action : Action)
    (orderly : Orderly setting m (.publication action)) : Sound setting (m.publicationStep setting action) := by
  have applied : Sound setting (m.applyStep setting action) := by
    refine h.applyStep action (fun proceeds => ?_) (fun index closes => ?_) fun id registration registers => ?_
    · rw [proceeds] at orderly
      exact orderly
    · rw [closes] at orderly
      exact orderly
    · obtain ⟨index, starts, task, found, running, same⟩ := registers
      rw [starts] at orderly
      exact same ▸ orderly task found running
  unfold Main.publicationStep
  split
  case h_1 | h_2 => exact h
  case h_3 | h_4 => exact applied
  case h_5 =>
    split
    case h_1 =>
      dsimp only
      split
      case isTrue => exact applied.of_queue _
      case isFalse => exact applied
    case h_2 => exact h

theorem Sound.triggerFailed (h : Sound setting m) (version nodeId : String) :
    Sound setting (m.triggerFailed setting version nodeId) := by
  rw [Main.triggerFailed]
  split
  case isTrue => exact (h.of_fewer (fewer_removeTriggers _ _)).of_recoveries _
  case isFalse => exact h

theorem Sound.recoveryStep (h : Sound setting m) (number : Nat) (reply : RecoveryReply)
    (orderly : Orderly setting m (.recovery number reply)) : Sound setting (m.recoveryStep number reply) := by
  rw [Main.recoveryStep]
  split
  case h_1 => exact h
  case h_2 recovery found =>
    split
    case h_1 => exact (h.of_fewer (fewer_delete _ _)).of_recoveries _
    case h_7 registration attempting =>
      have registrable := orderly recovery found (by rw [attempting]; rfl)
      exact h.addTrigger registration registrable
    case h_8 registration attempting =>
      have registrable := orderly recovery found (by rw [attempting]; rfl)
      exact (h.addTrigger registration registrable).of_recoveries _
    case h_9 => exact (h.of_fewer (fewer_rollBack _ _ _)).of_recoveries _
    case h_14 => exact h
    all_goals exact h.of_recoveries _

theorem Sound.stepDown (h : Sound setting m) (registering : Bool) : Sound setting (m.stepDown registering) := by
  rw [Main.stepDown]
  split
  case isTrue leads =>
    split
    case isTrue none =>
      simp only [Bool.and_eq_true, List.isEmpty_iff] at none
      refine ⟨h.within, fun _ id registered => ?_⟩
      rw [show m.memory.registered = [] from none.1.1] at registered
      exact absurd registered List.not_mem_nil
    case isFalse =>
      have doomed : ∀ id, Doomed (m.teardowns ++ [.listed]) m.memory.crons id := fun id =>
        someCall_concat.2 (.inr trivial)
      exact ⟨⟨h.within.published, h.within.stage, fun id _ => .inr (doomed id), h.within.registers⟩,
        fun _ id _ => doomed id⟩
  case isFalse => exact h

theorem Sound.beginRemove (h : Sound setting m) {number : Nat} {teardown : Teardown}
    (found : m.teardowns[number]? = some teardown) (locked : Bool) : Sound setting (m.beginRemove number locked) := by
  refine h.of_memory _ _ fun id after => .inl ⟨?_, fun never => absurd never List.not_mem_nil, fun _ => ?_⟩
  · exact List.mem_append_right _ after
  · exact (someCall_set found).2 (.inl List.not_mem_nil)

theorem Sound.teardownStep (h : Sound setting m) (number : Nat) (reply : TeardownReply)
    (orderly : Orderly setting m (.teardown number reply)) : Sound setting (m.teardownStep number reply) := by
  unfold Main.teardownStep
  split
  case h_1 found =>
    refine Sound.of_queue (h.of_memory m.memory _ fun id registered => .inl ⟨registered, fun cron => cron, ?_⟩) _
    exact doomed_set found fun _ => trivial
  case h_2 found =>
    split
    case isTrue => exact h.beginRemove found true
    case isFalse => exact h
  case h_3 found =>
    split
    case isTrue => exact h
    case isFalse => exact (h.beginRemove found false).of_queue _
  case h_4 locked found =>
    refine Sound.of_queue (h.of_memory { m.memory with triggers := ∅ } _ fun id after => .inl ?_) _
    have cron : id ∈ m.memory.crons := (List.mem_append.1 after).resolve_right List.not_mem_nil
    exact ⟨List.mem_append_left _ cron, fun cron => cron, doomed_set found fun deletes => absurd cron deletes⟩
  -- what the teardown has failed to delete is safe without it
  case h_5 locked found =>
    refine Sound.of_queue (h.of_memory m.memory _ fun id registered => .inr ?_) _
    exact orderly (by rw [found]; simp) id registered
  case h_6 found =>
    refine h.of_memory m.memory _ fun id registered => .inr ?_
    exact orderly (by rw [found]; simp) id registered
  case h_7 => exact h

theorem Sound.next (h : Sound setting m) (action : MainAction) (orderly : Orderly setting m action) :
    Sound setting (m.next setting action) := by
  cases action with
  | takeover => exact ⟨h.within, fun never => by cases never⟩
  | stepDown registering => exact h.stepDown registering
  | processRecord record => exact h.of_queue _
  | record => exact h.recordStep
  | publication action => exact h.publicationStep action orderly
  | triggerFailed version nodeId => exact h.triggerFailed version nodeId
  | recovery number reply => exact h.recoveryStep number reply orderly
  | teardown number reply => exact h.teardownStep number reply orderly

theorem Sound.initial : Sound setting {} where
  within := ⟨fun _ never => absurd never (Option.not_mem_none _), trivial,
    fun _ never => absurd never List.not_mem_nil, trivial⟩
  leader _ _ never := absurd never List.not_mem_nil

theorem Sound.runningMatches (h : Sound setting m) : RunningMatches setting m := by
  intro quiescent
  obtain ⟨-, -, finished⟩ := quiescent
  have never : ∀ id, ¬ Doomed m.teardowns m.memory.crons id := by
    intro id doomed
    obtain ⟨teardown, member, dooms⟩ := doomed
    rw [finished teardown member] at dooms
    exact dooms
  refine ⟨fun id member => ?_, fun follower => List.eq_nil_iff_forall_not_mem.2 fun id member => ?_⟩
  · exact (h.within.running id member).resolve_right (never id)
  · exact never id (h.leader follower id member)

end

/-- Whenever no record, recovery or teardown is in progress, only triggers of the published version
run, and none on a follower, in every run whose steps are all orderly. -/
theorem running_run (setting : Setting) (actions : List MainAction)
    (orderly : Along (Main.next setting) (Orderly setting) {} actions) :
    Along (Main.next setting) (fun m action => RunningMatches setting (m.next setting action)) {} actions :=
  along_of_invariant
    (fun m action (sound : Sound setting m) allowed =>
      ⟨(sound.next action allowed).runningMatches, sound.next action allowed⟩)
    Sound.initial orderly

/-- The second version leaves the queue trigger out. -/
def kafkaSetting : Setting where
  workflowId := "w"
  types :=
    { getByNameAndVersion := fun type _ =>
        if type = "kafkaTrigger" ∨ type = "scheduleTrigger" then some { trigger := true } else none
      nodeWebhooks := fun _ _ => [] }
  version id :=
    if id = "v1" then
      [{ name := "Kafka", type := "kafkaTrigger", id := "k" },
        { name := "Schedule", type := "scheduleTrigger", id := "s" }]
    else if id = "v2" then [{ name := "Schedule", type := "scheduleTrigger", id := "s" }]
    else []

def firstRecord : List MainAction :=
  [.publication (.environment (.versionSaved "v1")), .publication (.environment (.versionSaved "v2")),
    .publication (.environment (.workflow (some (some "v1")))), .takeover, .processRecord "v1", .record,
    .publication (.proceed none), .publication (.proceed none), .publication (.proceed none),
    .publication (.proceed none), .publication (.proceed none), .publication (.activate none none),
    .publication (.triggerTask 0 (.started ⟨some true, false⟩)), .publication (.triggerTask 1 (.started ⟨some true, true⟩)),
    .publication (.settle true), .publication (.proceed none), .record]

/-- A trigger fails and is registered again. While the second version is published the main is
demoted, and its teardown waits for the record. -/
def steppedDownRun : List MainAction :=
  firstRecord ++
  [.triggerFailed "v1" "k", .recovery 0 .completed, .recovery 0 .completed, .recovery 0 .completed,
    .recovery 0 (.started ⟨some true, false⟩), .recovery 0 .completed,
    .processRecord "v2", .record, .publication (.proceed none), .publication (.proceed none), .stepDown true,
    .teardown 0 .completed, .publication (.proceed none), .publication (.webhookPhase none),
    .publication (.closed 0 .deleted), .publication (.webhookPhase none), .publication (.proceed none),
    .publication (.proceed none), .publication (.proceed none), .publication (.proceed none), .record,
    .teardown 0 .completed, .teardown 0 .completed]

theorem running_steppedDownRun :
    Along (Main.next kafkaSetting) (fun m action => RunningMatches kafkaSetting (m.next kafkaSetting action)) {}
      steppedDownRun := running_run kafkaSetting steppedDownRun (by decide)

/-- While the activation error of a failed trigger is saved, the second version, which leaves the
trigger out, is published. -/
def removedMeanwhileRun : List MainAction :=
  firstRecord ++
  [.triggerFailed "v1" "k", .recovery 0 .completed,
    .processRecord "v2", .record, .publication (.proceed none), .publication (.proceed none),
    .publication (.proceed none), .publication (.webhookPhase none), .publication (.webhookPhase none),
    .publication (.proceed none), .publication (.proceed none), .publication (.proceed none),
    .publication (.proceed none), .record,
    .recovery 0 .completed, .recovery 0 .completed, .recovery 0 (.started ⟨some true, false⟩)]

/-- The recovery registers a trigger that the published version does not have. -/
theorem not_running_removedMeanwhileRun : ∃ setting actions,
    ¬ Along (Main.next setting) (fun m action => RunningMatches setting (m.next setting action)) {} actions := by
  refine ⟨kafkaSetting, removedMeanwhileRun ++ [.recovery 0 .completed], fun along => ?_⟩
  have rests : ((after (Main.next kafkaSetting) {} removedMeanwhileRun).next kafkaSetting
      (.recovery 0 .completed)).Quiescent := by decide
  obtain ⟨triggers, -⟩ := along.here rests
  obtain ⟨version, published, wanted⟩ := triggers "k" (by decide)
  have second : ((after (Main.next kafkaSetting) {} removedMeanwhileRun).next kafkaSetting
      (.recovery 0 .completed)).publication.database.publishedVersion = some "v2" := by decide
  rw [second, Option.mem_some_iff] at published
  rw [← published] at wanted
  revert wanted
  decide

end NodeAutomation.PublicationLifecycle
