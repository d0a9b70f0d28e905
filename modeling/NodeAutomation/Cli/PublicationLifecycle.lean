import NodeAutomation.Cli.PlannedTriggers

/-! The non-webhook triggers of one workflow on one main: publication records, runtime failures of
triggers and leader step-down
(`packages/cli/src/workflows/publication/workflow-publication-outbox-consumer.ts`,
`published-workflow-trigger-deactivator.ts`, `workflow-publication-lifecycle-lock.ts` and
`recoverFromRuntimeTriggerFailure` of `workflow-trigger-activator.ts`). -/

namespace NodeAutomation.PublicationLifecycle

open WorkflowPublication

/-- What `processRecord` is suspended at: the lock, `returnToPending`, `apply` or the report. -/
inductive RecordStage where
  | waiting
  | returning
  | applying
  | reporting
  deriving DecidableEq

inductive Holder where
  | record (record : String) (stage : RecordStage)
  | teardown (number : Nat)
  deriving DecidableEq

/-- What the teardown of the workflow is suspended at: that of the workflows listed before it, the
lock, or the close functions of `remove`, with the lock or without. -/
inductive Teardown where
  | listed
  | waiting
  | removing (locked : Bool)
  | finished
  deriving DecidableEq

/-- What `recoverFromRuntimeTriggerFailure` is suspended at: `deregister`, which may be closing the
trigger's response, the activation error, what precedes an attempt to register the node again, the
attempt, or what follows. -/
inductive RecoveryStage where
  | deregistering (closing : Bool)
  | surfacing
  | preparing (attempts : Nat)
  | attempting (attempts : Nat)
  | saving
  | finished
  deriving DecidableEq

structure Recovery where
  nodeId : String
  stage : RecoveryStage
  deriving DecidableEq

/-- `queue` is the holder of the lock with the waiters behind it. -/
structure Main where
  publication : State := {}
  isLeader : Bool := false
  queue : List Holder := []
  teardowns : List Teardown := []
  recoveries : List Recovery := []

/-- An attempt may register something before it has started. -/
inductive RecoveryReply where
  | completed
  | dropped
  | registered (registration : Registration)
  | started (registration : Registration)
  | threw (error : ActivationError) (polls : Bool)

inductive TeardownReply where
  | completed
  | threw
  | timedOut

/-- `record` ends what the record that holds the lock waits for outside `apply`; `publication` is
a step of `apply` or of what is around it. At a step-down a registration in progress may have its
state object still listed. -/
inductive MainAction where
  | takeover
  | stepDown (registering : Bool)
  | processRecord (record : String)
  | record
  | publication (action : Action)
  | triggerFailed (version nodeId : String)
  | recovery (number : Nat) (reply : RecoveryReply)
  | teardown (number : Nat) (reply : TeardownReply)

variable (setting : Setting)

abbrev Main.memory (m : Main) : Memory := m.publication.memory

def Main.setMemory (m : Main) (memory : Memory) : Main := { m with publication := { m.publication with memory } }

def Main.processRecord (m : Main) (record : String) : Main := { m with queue := m.queue ++ [.record record .waiting] }

def Main.recordStep (m : Main) : Main :=
  match m.queue with
  | .record record .waiting :: rest =>
    if m.isLeader then
      { m with publication := m.publication.next setting (.claim record), queue := .record record .applying :: rest }
    else { m with queue := .record record .returning :: rest }
  | .record _ .returning :: rest | .record _ .reporting :: rest => { m with queue := rest }
  | _ => m

def Main.applyStep (m : Main) (action : Action) : Main := { m with publication := m.publication.next setting action }

/-- Deregistrations that were left in progress and what happens around go on at any time, the
steps of `apply` while a record is applied; its result is then reported. -/
def Main.publicationStep (m : Main) (action : Action) : Main :=
  match action with
  | .claim _ | .crash => m
  | .closedLate _ _ | .environment _ => m.applyStep setting action
  | action =>
    match m.queue with
    | .record record .applying :: rest =>
      let applied := m.applyStep setting action
      if applied.publication.reported.isSome then { applied with queue := .record record .reporting :: rest }
      else applied
    | _ => m

/-- A trigger of some version reports an error: its recovery starts with `removeTriggers`. -/
def Main.triggerFailed (m : Main) (version nodeId : String) : Main :=
  if nodeId ∈ setting.nonWebhookIds version then
    { m.setMemory (m.memory.removeTriggers [nodeId]) with
      recoveries := m.recoveries ++ [{ nodeId, stage := .deregistering (m.memory.triggers.get nodeId = some true) }] }
  else m

def Main.setRecovery (m : Main) (number : Nat) (recovery : Recovery) : Main :=
  { m with recoveries := m.recoveries.set number recovery }

/-- `retryTriggerActivation`, after an error. -/
def RecoveryStage.retry (attempts : Nat) (error : ActivationError) : RecoveryStage :=
  if givesUp attempts error then .finished else .preparing (attempts + 1)

def Main.recoveryStep (m : Main) (number : Nat) (reply : RecoveryReply) : Main :=
  match m.recoveries[number]? with
  | none => m
  | some recovery =>
    let go := fun (m : Main) stage => m.setRecovery number { recovery with stage }
    match recovery.stage, reply with
    | .deregistering true, .completed => go (m.setMemory (m.memory.delete recovery.nodeId)) .surfacing
    | .deregistering false, .completed | .deregistering _, .dropped => go m .surfacing
    | .surfacing, .completed => go m (.preparing 0)
    | .preparing attempts, .completed => go m (.attempting attempts)
    | .preparing attempts, .threw error _ => go m (.retry attempts error)
    | .attempting _, .registered registration => m.setMemory (m.memory.addTrigger recovery.nodeId registration)
    | .attempting _, .started registration => go (m.setMemory (m.memory.addTrigger recovery.nodeId registration)) .saving
    | .attempting attempts, .threw error polls =>
      go (m.setMemory (m.memory.rollBack recovery.nodeId polls)) (.retry attempts error)
    | .saving, .completed | .saving, .threw _ _ | .deregistering _, .threw _ _ | .surfacing, .threw _ _ => go m .finished
    | _, _ => m

def RecoveryStage.isAttempting : RecoveryStage → Bool
  | .attempting _ => true
  | .deregistering _ | .surfacing | .preparing _ | .saving | .finished => false

/-- `markAsFollower`; then `deactivateAllNonWebhookTriggers` lists the workflow if something of it
is registered or being registered, or its lock is held. -/
def Main.stepDown (m : Main) (registering : Bool) : Main :=
  if m.isLeader then
    { m with
      isLeader := false
      teardowns :=
        if m.memory.registered.isEmpty && m.queue.isEmpty &&
            !(registering && m.recoveries.any fun recovery => recovery.stage.isAttempting) then m.teardowns
        else m.teardowns ++ [.listed] }
  else m

def Main.setTeardown (m : Main) (number : Nat) (teardown : Teardown) : Main :=
  { m with teardowns := m.teardowns.set number teardown }

/-- `remove` deregisters the crons, and at its end deletes the state object, with what has been
registered in it meanwhile. -/
def Main.beginRemove (m : Main) (number : Nat) (locked : Bool) : Main :=
  (m.setTeardown number (.removing locked)).setMemory { m.memory with crons := [] }

/-- `runExclusiveOrTimeout` of `remove`; an error of a workflow listed before ends the teardown. -/
def Main.teardownStep (m : Main) (number : Nat) (reply : TeardownReply) : Main :=
  match m.teardowns[number]?, reply with
  | some .listed, .completed => { m.setTeardown number .waiting with queue := m.queue ++ [.teardown number] }
  | some .waiting, .completed => if m.queue.head? = some (.teardown number) then m.beginRemove number true else m
  | some .waiting, .timedOut =>
    if m.queue.head? = some (.teardown number) then m
    else { m.beginRemove number false with queue := m.queue.erase (.teardown number) }
  | some (.removing locked), .completed =>
    { (m.setTeardown number .finished).setMemory { m.memory with triggers := ∅ } with
      queue := if locked then m.queue.tail else m.queue }
  | some (.removing locked), .threw =>
    { m.setTeardown number .finished with queue := if locked then m.queue.tail else m.queue }
  | some .listed, .threw => m.setTeardown number .finished
  | _, _ => m

def Main.next (m : Main) : MainAction → Main
  | .takeover => { m with isLeader := true }
  | .stepDown registering => m.stepDown registering
  | .processRecord record => m.processRecord record
  | .record => m.recordStep setting
  | .publication action => m.publicationStep setting action
  | .triggerFailed version nodeId => m.triggerFailed setting version nodeId
  | .recovery number reply => m.recoveryStep number reply
  | .teardown number reply => m.teardownStep number reply

/-- No record, recovery or teardown is in progress. -/
def Main.Quiescent (m : Main) : Prop :=
  m.queue = [] ∧ (∀ recovery ∈ m.recoveries, recovery.stage = .finished) ∧
    ∀ teardown ∈ m.teardowns, teardown = .finished

instance : DecidablePred Main.Quiescent := fun m =>
  inferInstanceAs (Decidable (m.queue = [] ∧ (∀ recovery ∈ m.recoveries, recovery.stage = .finished) ∧
    ∀ teardown ∈ m.teardowns, teardown = .finished))

/-- At rest the registered nodes are triggers of the published version, and on a follower there
are none. -/
def RunningMatches (m : Main) : Prop :=
  m.Quiescent →
    (∀ id ∈ m.memory.registered, ∃ version ∈ m.publication.database.publishedVersion,
      id ∈ setting.nonWebhookIds version) ∧
    (m.isLeader = false → m.memory.registered = [])

def Teardown.Dooms (crons : List String) (id : String) : Teardown → Prop
  | .listed | .waiting => True
  | .removing _ => id ∉ crons
  | .finished => False

instance (crons : List String) (id : String) : DecidablePred (Teardown.Dooms crons id)
  | .listed | .waiting => inferInstanceAs (Decidable True)
  | .removing _ => inferInstanceAs (Decidable (id ∉ crons))
  | .finished => inferInstanceAs (Decidable False)

/-- Some teardown is still to delete the node. -/
def Doomed (teardowns : List Teardown) (crons : List String) (id : String) : Prop :=
  ∃ teardown ∈ teardowns, teardown.Dooms crons id

instance (teardowns : List Teardown) (crons : List String) : DecidablePred (Doomed teardowns crons) := fun id =>
  inferInstanceAs (Decidable (∃ teardown ∈ teardowns, teardown.Dooms crons id))

/-- The node is doomed; or the main is the leader, and the published version has it as a trigger,
which a record in progress leaves or is closing. -/
def Main.Safe (m : Main) (teardowns : List Teardown) (crons : List String) (id : String) : Prop :=
  Doomed teardowns crons id ∨
    m.isLeader = true ∧ m.publication.stage.Allows setting m.publication.database.publishedVersion crons id

instance (m : Main) (teardowns : List Teardown) (crons : List String) : DecidablePred (m.Safe setting teardowns crons) :=
  fun id => inferInstanceAs (Decidable (Doomed teardowns crons id ∨
    m.isLeader = true ∧ m.publication.stage.Allows setting m.publication.database.publishedVersion crons id))

def Main.Registrable (m : Main) (id : String) (registration : Registration) : Prop :=
  registration.registers = true → m.Safe setting m.teardowns (m.memory.addTrigger id registration).crons id

instance (m : Main) (id : String) (registration : Registration) : Decidable (m.Registrable setting id registration) :=
  inferInstanceAs (Decidable (registration.registers = true →
    m.Safe setting m.teardowns (m.memory.addTrigger id registration).crons id))

/-- The versions that are diffed have distinct ids; a record or a recovery registers a node where
that is safe; a close function that ends with its state object dropped leaves its node doomed, if
it is registered again; and where a teardown fails what is registered is safe without it. -/
def Orderly (m : Main) : MainAction → Prop
  | .publication (.proceed none) => ∀ record ∈ m.publication.publishes, setting.DistinctIds record
  | .publication (.closed index .dropped) =>
    ∀ id ∈ m.publication.stage.closing[index]?, id ∈ m.memory.registered → Doomed m.teardowns m.memory.crons id
  | .publication (.triggerTask index (.started registration)) =>
    ∀ task ∈ m.publication.stage.triggerTasks[index]?, task.result = none →
      m.Registrable setting task.nodeId registration
  | .recovery number (.registered registration) | .recovery number (.started registration) =>
    ∀ recovery ∈ m.recoveries[number]?, recovery.stage.isAttempting = true →
      m.Registrable setting recovery.nodeId registration
  | .teardown number .threw =>
    m.teardowns[number]? ≠ some .waiting →
      ∀ id ∈ m.memory.registered, m.Safe setting (m.teardowns.set number .finished) m.memory.crons id
  | _ => True

instance (m : Main) : DecidablePred (Orderly setting m)
  | .publication (.proceed none) =>
    inferInstanceAs (Decidable (∀ record ∈ m.publication.publishes, setting.DistinctIds record))
  | .publication (.closed index .dropped) =>
    inferInstanceAs (Decidable (∀ id ∈ m.publication.stage.closing[index]?,
      id ∈ m.memory.registered → Doomed m.teardowns m.memory.crons id))
  | .publication (.triggerTask index (.started registration)) =>
    inferInstanceAs (Decidable (∀ task ∈ m.publication.stage.triggerTasks[index]?, task.result = none →
      m.Registrable setting task.nodeId registration))
  | .recovery number (.registered registration) | .recovery number (.started registration) =>
    inferInstanceAs (Decidable (∀ recovery ∈ m.recoveries[number]?, recovery.stage.isAttempting = true →
      m.Registrable setting recovery.nodeId registration))
  | .teardown number .threw =>
    inferInstanceAs (Decidable (m.teardowns[number]? ≠ some .waiting →
      ∀ id ∈ m.memory.registered, m.Safe setting (m.teardowns.set number .finished) m.memory.crons id))
  | .publication (.proceed (some _)) | .publication (.claim _) | .publication (.webhookPhase _)
  | .publication (.closed _ .deleted) | .publication (.closed _ (.threw _)) | .publication (.closedLate _ _)
  | .publication (.activate _ _) | .publication (.webhookTask _ _) | .publication (.triggerTask _ (.threw _ _))
  | .publication (.settle _) | .publication .crash | .publication (.environment _)
  | .recovery _ .completed | .recovery _ .dropped | .recovery _ (.threw _ _)
  | .teardown _ .completed | .teardown _ .timedOut | .takeover | .stepDown _
  | .processRecord _ | .record | .triggerFailed _ _ => inferInstanceAs (Decidable True)

end NodeAutomation.PublicationLifecycle
