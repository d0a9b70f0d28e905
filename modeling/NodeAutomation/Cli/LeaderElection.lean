import NodeAutomation.Lib.Interleaving
import Mathlib.Logic.Function.Basic

/-! Leader election among mains (`packages/cli/src/scaling/multi-main-setup.ee.ts`) by a key in
Redis that expires (`packages/cli/src/scaling/leader-election-client.ts`). -/

namespace NodeAutomation.LeaderElection

open Interleaving

variable {ι : Type} [DecidableEq ι]

structure LeaderKey (ι : Type) where
  value : ι
  ttl : Nat
  deriving DecidableEq

/-- A check in progress, and `init`, are known by the numbers of their calls. -/
structure Instance where
  isLeader : Bool := false
  leaderCheckInterval : Bool := false
  leaderCheckInProgress : Option Nat := none
  initCall : Option Nat := none
  deriving DecidableEq

inductive TtlRenewalResult (ι : Type) where
  | success
  | keyMissing
  | otherHostIsLeader (currentLeaderId : ι)
  deriving DecidableEq

inductive Command where
  | getLeader
  | setLeaderIfNotExists
  | tryRenewLeaderTtl
  | clearLeader
  deriving DecidableEq

/-- `SET key hostId EX ttl NX`. -/
def setLeaderIfNotExists (leaderKeyTtl : Nat) (hostId : ι) :
    Option (LeaderKey ι) → Option (LeaderKey ι) × Bool
  | none => (some { value := hostId, ttl := leaderKeyTtl }, true)
  | some key => (some key, false)

def tryRenewLeaderTtl (leaderKeyTtl : Nat) (hostId : ι) :
    Option (LeaderKey ι) → Option (LeaderKey ι) × TtlRenewalResult ι
  | none => (none, .keyMissing)
  | some key =>
    if key.value ≠ hostId then (some key, .otherHostIsLeader key.value)
    else (some { key with ttl := leaderKeyTtl }, .success)

def Command.execute (leaderKeyTtl : Nat) (hostId : ι) (key : Option (LeaderKey ι)) :
    Command → Option (LeaderKey ι)
  | getLeader => key
  | setLeaderIfNotExists => (LeaderElection.setLeaderIfNotExists leaderKeyTtl hostId key).1
  | tryRenewLeaderTtl => (LeaderElection.tryRenewLeaderTtl leaderKeyTtl hostId key).1
  | clearLeader => none

/-- `late` are commands whose callers have given up, and that Redis may still execute. -/
structure Shared (ι : Type) where
  key : Option (LeaderKey ι) := none
  instances : ι → Instance := fun _ => {}
  late : List (ι × Command) := []

/-- What becomes of a command: it is executed and answered, executed with the answer lost,
not executed, or given up before it is executed. -/
inductive Reply where
  | answered
  | answerLost
  | failed
  | givenUp
  deriving DecidableEq

namespace Shared

def modify (s : Shared ι) (hostId : ι) (f : Instance → Instance) : Shared ι :=
  { s with instances := Function.update s.instances hostId (f (s.instances hostId)) }

def send (leaderKeyTtl : Nat) (s : Shared ι) (hostId : ι) (command : Command) : Reply → Shared ι
  | .answered | .answerLost => { s with key := command.execute leaderKeyTtl hostId s.key }
  | .failed => s
  | .givenUp => { s with late := s.late ++ [(hostId, command)] }

def takeOverAsLeader (s : Shared ι) (hostId : ι) : Shared ι := s.modify hostId ({ · with isLeader := true })

/-- `markAsFollower`, and the rest of `stepDownToFollower`. -/
def stepDownToFollower (s : Shared ι) (hostId : ι) : Shared ι :=
  s.modify hostId ({ · with isLeader := false })

/-- The `finally` of `checkLeader`. -/
def endCheck (s : Shared ι) (hostId : ι) : Shared ι :=
  s.modify hostId ({ · with leaderCheckInProgress := none })

def startInterval (s : Shared ι) (hostId : ι) : Shared ι :=
  s.modify hostId ({ · with leaderCheckInterval := true })

end Shared

inductive Invocation (ι : Type) where
  | init (hostId : ι)
  | checkLeader (hostId : ι)
  | shutdown (hostId : ι)
  deriving DecidableEq

/-- The command a call waits for: `init`; `checkAreWeStillLeader`, which renews and may claim
the key again; `checkCanBecomeLeader`; `shutdown`. -/
inductive Stage (ι : Type) where
  | initializing (hostId : ι)
  | renewing (hostId : ι)
  | reclaiming (hostId : ι)
  | getting (hostId : ι)
  | claiming (hostId : ι)
  | clearing (hostId : ι)
  | finished
  deriving DecidableEq

inductive Event where
  | timePasses (elapsed : Nat)
  | lateExecuted (index : Nat)
  deriving DecidableEq

def invoke (s : Shared ι) (number : Nat) : Invocation ι → Shared ι × Stage ι
  | .init hostId =>
    -- once in the life of a process
    if (s.instances hostId).initCall.isSome then (s, .finished)
    else (s.modify hostId ({ · with initCall := some number }), .initializing hostId)
  | .checkLeader hostId =>
    let self := s.instances hostId
    if !self.leaderCheckInterval || self.leaderCheckInProgress.isSome then (s, .finished)
    else
      let started := s.modify hostId ({ · with leaderCheckInProgress := some number })
      if self.isLeader then (started, .renewing hostId) else (started, .getting hostId)
  | .shutdown hostId =>
    let stopped := s.modify hostId ({ · with leaderCheckInterval := false })
    if (s.instances hostId).isLeader then (stopped, .clearing hostId) else (stopped, .finished)

def proceed (leaderKeyTtl : Nat) (s : Shared ι) (_ : Nat) (stage : Stage ι) (reply : Reply) :
    Shared ι × Stage ι :=
  let answered : Bool := reply = .answered
  match stage with
  | .initializing hostId =>
    let sent := s.send leaderKeyTtl hostId .setLeaderIfNotExists reply
    if answered && (setLeaderIfNotExists leaderKeyTtl hostId s.key).2 then
      ((sent.takeOverAsLeader hostId).startInterval hostId, .finished)
    else ((sent.stepDownToFollower hostId).startInterval hostId, .finished)
  | .renewing hostId =>
    let sent := s.send leaderKeyTtl hostId .tryRenewLeaderTtl reply
    if answered then
      match (tryRenewLeaderTtl leaderKeyTtl hostId s.key).2 with
      | .success => (sent.endCheck hostId, .finished)
      | .otherHostIsLeader _ => ((sent.stepDownToFollower hostId).endCheck hostId, .finished)
      | .keyMissing => (sent, .reclaiming hostId)
    else (sent.endCheck hostId, .finished)
  | .reclaiming hostId =>
    let sent := s.send leaderKeyTtl hostId .setLeaderIfNotExists reply
    if answered && (setLeaderIfNotExists leaderKeyTtl hostId s.key).2 then
      (sent.endCheck hostId, .finished)
    else ((sent.stepDownToFollower hostId).endCheck hostId, .finished)
  | .getting hostId =>
    let sent := s.send leaderKeyTtl hostId .getLeader reply
    if answered then
      match s.key with
      | none => (sent, .claiming hostId)
      | some key =>
        if key.value = hostId then ((sent.takeOverAsLeader hostId).endCheck hostId, .finished)
        else (sent.endCheck hostId, .finished)
    else (sent.endCheck hostId, .finished)
  | .claiming hostId =>
    let sent := s.send leaderKeyTtl hostId .setLeaderIfNotExists reply
    if answered && (setLeaderIfNotExists leaderKeyTtl hostId s.key).2 then
      ((sent.takeOverAsLeader hostId).endCheck hostId, .finished)
    else (sent.endCheck hostId, .finished)
  | .clearing hostId => (s.send leaderKeyTtl hostId .clearLeader reply, .finished)
  | .finished => (s, .finished)

def environment (leaderKeyTtl : Nat) (s : Shared ι) : Event → Shared ι
  | .timePasses elapsed =>
    { s with
      key := s.key.bind fun key =>
        if key.ttl ≤ elapsed then none else some { key with ttl := key.ttl - elapsed } }
  | .lateExecuted index =>
    match s.late[index]? with
    | none => s
    | some (hostId, command) =>
      { s with
        key := command.execute leaderKeyTtl hostId s.key
        late := s.late.eraseIdx index }

def system (leaderKeyTtl : Nat) : System (Shared ι) (Stage ι) (Invocation ι) Reply Event where
  invoke := invoke
  proceed := proceed leaderKeyTtl
  environment := environment leaderKeyTtl

def Stage.command : Stage ι → Option (ι × Command)
  | .initializing hostId | .reclaiming hostId | .claiming hostId => some (hostId, .setLeaderIfNotExists)
  | .renewing hostId => some (hostId, .tryRenewLeaderTtl)
  | .getting hostId => some (hostId, .getLeader)
  | .clearing hostId => some (hostId, .clearLeader)
  | .finished => none

/-- The instance that makes a step. -/
def actor (config : Config (Shared ι) (Stage ι)) : Action (Invocation ι) Reply Event → Option ι
  | .invoke (.init hostId) | .invoke (.checkLeader hostId) | .invoke (.shutdown hostId) => some hostId
  | .proceed number _ => config.calls[number]?.bind fun stage => stage.command.map Prod.fst
  | .environment (.lateExecuted index) => config.shared.late[index]?.map Prod.fst
  | .environment (.timePasses _) => none

def executed (config : Config (Shared ι) (Stage ι)) :
    Action (Invocation ι) Reply Event → Option (ι × Command)
  | .proceed number .answered | .proceed number .answerLost => config.calls[number]?.bind Stage.command
  | .environment (.lateExecuted index) => config.shared.late[index]?
  | .proceed _ .failed | .proceed _ .givenUp | .invoke _ | .environment (.timePasses _) => none

def KeepsOthersKey (leaderKeyTtl : Nat) (config : Config (Shared ι) (Stage ι))
    (action : Action (Invocation ι) Reply Event) : Prop :=
  ∀ hostId ∈ actor config action, ∀ key ∈ config.shared.key, key.value ≠ hostId →
    ((system leaderKeyTtl).next config action).shared.key = some key

/-- The call of `checkLeader` that reads the key here. -/
def Stage.readsKey : Stage ι → Option ι
  | .renewing hostId | .getting hostId => some hostId
  | .initializing _ | .reclaiming _ | .claiming _ | .clearing _ | .finished => none

/-- A check that has read the id of another instance has ended, with this one a follower. -/
def StepsDown (leaderKeyTtl : Nat) (config : Config (Shared ι) (Stage ι))
    (action : Action (Invocation ι) Reply Event) : Prop :=
  ∀ number, action = .proceed number .answered → ∀ stage ∈ config.calls[number]?,
    ∀ hostId ∈ stage.readsKey, ∀ key ∈ config.shared.key, key.value ≠ hostId →
      ((system leaderKeyTtl).next config action).calls[number]? = some .finished ∧
        (((system leaderKeyTtl).next config action).shared.instances hostId).isLeader = false

def OwnerOnly (leaderKeyTtl : Nat) (config : Config (Shared ι) (Stage ι))
    (action : Action (Invocation ι) Reply Event) : Prop :=
  KeepsOthersKey leaderKeyTtl config action ∧ StepsDown leaderKeyTtl config action

/-- Where the key is deleted it is missing, or has the id of the instance that shuts down. -/
def ClearsOwn (config : Config (Shared ι) (Stage ι)) (action : Action (Invocation ι) Reply Event) : Prop :=
  ∀ entry ∈ executed config action, entry.2 = .clearLeader →
    ∀ key ∈ config.shared.key, key.value = entry.1

variable {leaderKeyTtl : Nat} {s : Shared ι} {hostId : ι} {command : Command} {key : LeaderKey ι}
  {stage : Stage ι} {reply : Reply} {number : Nat}

theorem execute_other (apart : key.value ≠ hostId) (notClear : command ≠ .clearLeader) :
    command.execute leaderKeyTtl hostId (some key) = some key := by
  cases command with
  | getLeader => rfl
  | setLeaderIfNotExists => rfl
  | tryRenewLeaderTtl => rw [Command.execute, tryRenewLeaderTtl, if_pos apart]
  | clearLeader => exact absurd rfl notClear

theorem proceed_key (stage : Stage ι) : (proceed leaderKeyTtl s number stage reply).1.key =
    match stage.command with
    | none => s.key
    | some (hostId, command) => (s.send leaderKeyTtl hostId command reply).key := by
  cases stage with
  | initializing hostId | reclaiming hostId | claiming hostId =>
    simp only [proceed]
    split
    · rfl
    · rfl
  | renewing hostId =>
    simp only [proceed]
    split
    · split
      · rfl
      · rfl
      · rfl
    · rfl
  | getting hostId =>
    simp only [proceed]
    split
    · split
      · rfl
      · split
        · rfl
        · rfl
    · rfl
  | clearing hostId => rfl
  | finished => rfl

theorem invoke_key (call : Invocation ι) : (invoke s number call).1.key = s.key := by
  cases call with
  | init hostId =>
    rw [invoke]
    split
    · rfl
    · rfl
  | checkLeader hostId =>
    rw [invoke]
    split
    · rfl
    · split
      · rfl
      · rfl
  | shutdown hostId =>
    rw [invoke]
    split
    · rfl
    · rfl

theorem next_key {config : Config (Shared ι) (Stage ι)} {action : Action (Invocation ι) Reply Event}
    (acts : hostId ∈ actor config action) :
    (executed config action = none ∧
        ((system leaderKeyTtl).next config action).shared.key = config.shared.key) ∨
      ∃ command, executed config action = some (hostId, command) ∧
        ((system leaderKeyTtl).next config action).shared.key =
          command.execute leaderKeyTtl hostId config.shared.key := by
  cases action with
  | invoke call => exact .inl ⟨rfl, invoke_key call⟩
  | proceed number reply =>
    obtain ⟨stage, found, known⟩ := Option.bind_eq_some_iff.1 acts
    obtain ⟨entry, isCommand, same⟩ := Option.map_eq_some_iff.1 known
    have step : ((system leaderKeyTtl).next config (.proceed number reply)).shared.key =
        (config.shared.send leaderKeyTtl hostId entry.2 reply).key := by
      rw [System.next, found]
      refine (proceed_key stage).trans ?_
      rw [isCommand, ← same]
    have command : config.calls[number]?.bind Stage.command = some (hostId, entry.2) := by
      rw [found, ← same]
      exact isCommand
    rw [step]
    cases reply with
    | answered => exact .inr ⟨entry.2, command, rfl⟩
    | answerLost => exact .inr ⟨entry.2, command, rfl⟩
    | failed => exact .inl ⟨rfl, rfl⟩
    | givenUp => exact .inl ⟨rfl, rfl⟩
  | environment event =>
    cases event with
    | timePasses elapsed => exact absurd acts (by simp [actor])
    | lateExecuted index =>
      obtain ⟨entry, found, same⟩ := Option.map_eq_some_iff.1 acts
      refine .inr ⟨entry.2, ?_, ?_⟩
      · rw [executed, found, ← same]
      · change (environment leaderKeyTtl config.shared (.lateExecuted index)).key = _
        rw [environment, found, ← same]

omit [DecidableEq ι] in
theorem actor_of_executed {config : Config (Shared ι) (Stage ι)}
    {action : Action (Invocation ι) Reply Event}
    (found : executed config action = some (hostId, command)) : hostId ∈ actor config action := by
  cases action with
  | invoke call => exact absurd found (by simp [executed])
  | proceed number reply =>
    have issued : config.calls[number]?.bind Stage.command = some (hostId, command) := by
      cases reply with
      | answered => exact found
      | answerLost => exact found
      | failed => exact absurd found (by simp [executed])
      | givenUp => exact absurd found (by simp [executed])
    obtain ⟨stage, known, isCommand⟩ := Option.bind_eq_some_iff.1 issued
    refine Option.bind_eq_some_iff.2 ⟨stage, known, ?_⟩
    rw [isCommand]
    rfl
  | environment event =>
    cases event with
    | timePasses elapsed => exact absurd found (by simp [executed])
    | lateExecuted index =>
      refine Option.map_eq_some_iff.2 ⟨(hostId, command), found, rfl⟩

theorem keepsOthersKey_iff (config : Config (Shared ι) (Stage ι))
    (action : Action (Invocation ι) Reply Event) :
    KeepsOthersKey leaderKeyTtl config action ↔ ClearsOwn config action := by
  refine ⟨fun keeps entry found isClear key known => ?_, fun clears hostId acts key known apart => ?_⟩
  · by_contra apart
    have acts : entry.1 ∈ actor config action := actor_of_executed found
    have kept := keeps entry.1 acts key known apart
    cases next_key acts with
    | inl none => exact absurd (none.1.symm.trans found) (by simp)
    | inr some =>
      obtain ⟨command, same, after⟩ := some
      rw [found] at same
      have clear : command = .clearLeader := by rw [← isClear, Option.some.inj same]
      rw [after, clear] at kept
      exact absurd kept (by simp [Command.execute])
  · cases next_key acts with
    | inl none => rw [none.2, known]
    | inr some =>
      obtain ⟨command, found, after⟩ := some
      rw [after, known]
      exact execute_other apart fun isClear => apart (clears _ found isClear key known)

@[simp] theorem modify_self (s : Shared ι) (hostId : ι) (f : Instance → Instance) :
    (s.modify hostId f).instances hostId = f (s.instances hostId) := Function.update_self ..

theorem modify_other (s : Shared ι) {hostId other : ι} (apart : other ≠ hostId) (f : Instance → Instance) :
    (s.modify hostId f).instances other = s.instances other := Function.update_of_ne apart ..

@[simp] theorem send_instances (s : Shared ι) (hostId : ι) (command : Command) (reply : Reply) :
    (s.send leaderKeyTtl hostId command reply).instances = s.instances := by
  cases reply <;> rfl

def Stage.host (stage : Stage ι) : Option ι := stage.command.map Prod.fst

/-- Only the state of this instance changes, and not whether its `init` has been called. -/
structure Changes (hostId : ι) (s s' : Shared ι) : Prop where
  other : ∀ other, other ≠ hostId → s'.instances other = s.instances other
  initCall : (s'.instances hostId).initCall = (s.instances hostId).initCall

namespace Changes

omit [DecidableEq ι] in
theorem of_eq {s s' : Shared ι} (same : s'.instances = s.instances) (hostId : ι) : Changes hostId s s' :=
  ⟨fun other _ => congrFun same other, by rw [same]⟩

omit [DecidableEq ι] in
theorem trans {first second third : Shared ι} (h : Changes hostId first second)
    (h' : Changes hostId second third) : Changes hostId first third :=
  ⟨fun other apart => (h'.other other apart).trans (h.other other apart), h'.initCall.trans h.initCall⟩

theorem send (leaderKeyTtl : Nat) (s : Shared ι) (hostId : ι) (command : Command) (reply : Reply) :
    Changes hostId s (s.send leaderKeyTtl hostId command reply) := of_eq (send_instances ..) hostId

theorem modify (s : Shared ι) {f : Instance → Instance} (keeps : ∀ self, (f self).initCall = self.initCall) :
    Changes hostId s (s.modify hostId f) :=
  ⟨fun _ apart => modify_other s apart f, by rw [modify_self, keeps]⟩

theorem takeOverAsLeader (s : Shared ι) : Changes hostId s (s.takeOverAsLeader hostId) :=
  modify s fun _ => rfl

theorem stepDownToFollower (s : Shared ι) : Changes hostId s (s.stepDownToFollower hostId) :=
  modify s fun _ => rfl

theorem endCheck (s : Shared ι) : Changes hostId s (s.endCheck hostId) := modify s fun _ => rfl

theorem startInterval (s : Shared ι) : Changes hostId s (s.startInterval hostId) := modify s fun _ => rfl

end Changes

theorem proceed_changes (leaderKeyTtl : Nat) (s : Shared ι) (number : Nat) (reply : Reply)
    (acts : hostId ∈ stage.host) : Changes hostId s (proceed leaderKeyTtl s number stage reply).1 := by
  cases stage with
  | initializing hostId' =>
    rw [← Option.some.inj acts]
    have sent := Changes.send leaderKeyTtl s hostId' .setLeaderIfNotExists reply
    simp only [proceed]
    split
    · exact (sent.trans (.takeOverAsLeader _)).trans (.startInterval _)
    · exact (sent.trans (.stepDownToFollower _)).trans (.startInterval _)
  | renewing hostId' =>
    rw [← Option.some.inj acts]
    have sent := Changes.send leaderKeyTtl s hostId' .tryRenewLeaderTtl reply
    simp only [proceed]
    split
    · split
      · exact sent.trans (.endCheck _)
      · exact (sent.trans (.stepDownToFollower _)).trans (.endCheck _)
      · exact sent
    · exact sent.trans (.endCheck _)
  | reclaiming hostId' =>
    rw [← Option.some.inj acts]
    have sent := Changes.send leaderKeyTtl s hostId' .setLeaderIfNotExists reply
    simp only [proceed]
    split
    · exact sent.trans (.endCheck _)
    · exact (sent.trans (.stepDownToFollower _)).trans (.endCheck _)
  | getting hostId' =>
    rw [← Option.some.inj acts]
    have sent := Changes.send leaderKeyTtl s hostId' .getLeader reply
    simp only [proceed]
    split
    · split
      · exact sent
      · split
        · exact (sent.trans (.takeOverAsLeader _)).trans (.endCheck _)
        · exact sent.trans (.endCheck _)
    · exact sent.trans (.endCheck _)
  | claiming hostId' =>
    rw [← Option.some.inj acts]
    have sent := Changes.send leaderKeyTtl s hostId' .setLeaderIfNotExists reply
    simp only [proceed]
    split
    · exact (sent.trans (.takeOverAsLeader _)).trans (.endCheck _)
    · exact sent.trans (.endCheck _)
  | clearing hostId' =>
    rw [← Option.some.inj acts]
    exact .send leaderKeyTtl s hostId' .clearLeader reply
  | finished => exact absurd acts (by simp [Stage.host, Stage.command])

/-- An instance whose `init` has not been called is as it was made. -/
def Started (s : Shared ι) (_ : Nat) : Prop :=
  ∀ hostId, (s.instances hostId).initCall = none →
    (s.instances hostId).leaderCheckInterval = false ∧
      (s.instances hostId).leaderCheckInProgress = none ∧ (s.instances hostId).isLeader = false

/-- An instance makes one check at a time, after its `init`, and is no leader where it may become one. -/
def CallKnown (s : Shared ι) (number : Nat) : Stage ι → Prop
  | .initializing hostId =>
    (s.instances hostId).initCall = some number ∧ (s.instances hostId).leaderCheckInterval = false ∧
      (s.instances hostId).leaderCheckInProgress = none
  | .renewing hostId | .reclaiming hostId => (s.instances hostId).leaderCheckInProgress = some number
  | .getting hostId | .claiming hostId =>
    (s.instances hostId).leaderCheckInProgress = some number ∧ (s.instances hostId).isLeader = false
  | .clearing _ | .finished => True

omit [DecidableEq ι] in
theorem CallKnown.congr {s' : Shared ι} (known : CallKnown s number stage)
    (same : ∀ hostId ∈ stage.host, s'.instances hostId = s.instances hostId) :
    CallKnown s' number stage := by
  cases stage with
  | clearing hostId => trivial
  | finished => trivial
  | _ =>
    rw [CallKnown, same _ rfl]
    exact known

omit [DecidableEq ι] in
theorem CallKnown.working (known : CallKnown s number stage) (acts : hostId ∈ stage.host)
    (working : ∀ hostId, stage ≠ .clearing hostId) :
    (s.instances hostId).leaderCheckInProgress = some number ∨
      (s.instances hostId).leaderCheckInProgress = none ∧
        (s.instances hostId).initCall = some number ∧
          (s.instances hostId).leaderCheckInterval = false := by
  cases stage with
  | initializing hostId' =>
    rw [← Option.some.inj acts]
    exact .inr ⟨known.2.2, known.1, known.2.1⟩
  | renewing hostId' | reclaiming hostId' =>
    rw [← Option.some.inj acts]
    exact .inl known
  | getting hostId' | claiming hostId' =>
    rw [← Option.some.inj acts]
    exact .inl known.1
  | clearing hostId' => exact absurd rfl (working hostId')
  | finished => exact absurd acts (by simp [Stage.host, Stage.command])

omit [DecidableEq ι] in
theorem CallKnown.apart {other : Nat} {otherStage : Stage ι} (known : CallKnown s number stage)
    (known' : CallKnown s other otherStage) (distinct : number ≠ other)
    (working : ∀ hostId, stage ≠ .clearing hostId) (working' : ∀ hostId, otherStage ≠ .clearing hostId)
    (acts : hostId ∈ stage.host) : hostId ∉ otherStage.host := by
  intro acts'
  cases known.working acts working with
  | inl checks =>
    cases known'.working acts' working' with
    | inl checks' => exact distinct (Option.some.inj (checks.symm.trans checks'))
    | inr starts' => exact absurd (checks.symm.trans starts'.1) (by simp)
  | inr starts =>
    cases known'.working acts' working' with
    | inl checks' => exact absurd (starts.1.symm.trans checks') (by simp)
    | inr starts' => exact distinct (Option.some.inj (starts.2.1.symm.trans starts'.2.1))

theorem proceed_known (known : CallKnown s number stage) :
    CallKnown (proceed leaderKeyTtl s number stage reply).1 number
      (proceed leaderKeyTtl s number stage reply).2 := by
  cases stage with
  | initializing hostId =>
    simp only [proceed]
    split
    · trivial
    · trivial
  | renewing hostId =>
    simp only [proceed]
    split
    · split
      · trivial
      · trivial
      · rw [CallKnown, send_instances]
        exact known
    · trivial
  | reclaiming hostId =>
    simp only [proceed]
    split
    · trivial
    · trivial
  | getting hostId =>
    simp only [proceed]
    split
    · split
      · rw [CallKnown, send_instances]
        exact known
      · split
        · trivial
        · trivial
    · trivial
  | claiming hostId =>
    simp only [proceed]
    split
    · trivial
    · trivial
  | clearing hostId => trivial
  | finished => trivial

theorem proceed_started {made : Nat} (started : Started s made) (known : CallKnown s number stage) :
    Started (proceed leaderKeyTtl s number stage reply).1 made := by
  intro hostId fresh
  have same : (proceed leaderKeyTtl s number stage reply).1.instances hostId = s.instances hostId := by
    cases host : stage.host with
    | none =>
      cases stage with
      | finished => rfl
      | _ => exact absurd host (by simp [Stage.host, Stage.command])
    | some actor =>
      have changes := proceed_changes leaderKeyTtl s number reply host
      by_cases acts : hostId = actor
      · rw [acts, changes.initCall] at fresh
        by_cases working : ∀ hostId, stage ≠ .clearing hostId
        · cases known.working host working with
          | inl checks => exact absurd (checks.symm.trans (started actor fresh).2.1) (by simp)
          | inr starts => exact absurd (starts.2.1.symm.trans fresh) (by simp)
        · obtain ⟨clearing, isClearing⟩ := not_forall_not.1 working
          rw [isClearing]
          exact congrFun (send_instances s clearing .clearLeader reply) hostId
      · exact changes.other hostId acts
  rw [same] at fresh ⊢
  exact started hostId fresh

theorem proceed_known_other {other : Nat} {otherStage : Stage ι} (known : CallKnown s number stage)
    (known' : CallKnown s other otherStage) (distinct : number ≠ other) :
    CallKnown (proceed leaderKeyTtl s number stage reply).1 other otherStage := by
  by_cases working' : ∀ hostId, otherStage ≠ .clearing hostId
  · refine known'.congr fun hostId acts' => ?_
    by_cases working : ∀ hostId, stage ≠ .clearing hostId
    · cases host : stage.host with
      | none =>
        cases stage with
        | finished => rfl
        | _ => exact absurd host (by simp [Stage.host, Stage.command])
      | some actor =>
        refine (proceed_changes leaderKeyTtl s number reply host).other hostId fun same => ?_
        rw [same] at acts'
        exact known.apart known' distinct working working' host acts'
    · obtain ⟨clearing, isClearing⟩ := not_forall_not.1 working
      rw [isClearing]
      exact congrFun (send_instances s clearing .clearLeader reply) hostId
  · obtain ⟨clearing, isClearing⟩ := not_forall_not.1 working'
    rw [isClearing]
    trivial

theorem CallKnown.modify {other : Nat} {otherStage : Stage ι} (known : CallKnown s other otherStage)
    (unchecked : (s.instances hostId).leaderCheckInProgress = none)
    (idle : (s.instances hostId).initCall = none ∨ (s.instances hostId).leaderCheckInterval = true)
    (f : Instance → Instance) : CallKnown (s.modify hostId f) other otherStage := by
  by_cases working : ∀ hostId, otherStage ≠ .clearing hostId
  · refine known.congr fun actor acts => modify_other s (fun same => ?_) f
    rw [same] at acts
    cases known.working acts working with
    | inl checks => exact absurd (unchecked.symm.trans checks) (by simp)
    | inr starts =>
      cases idle with
      | inl fresh => exact absurd (fresh.symm.trans starts.2.1) (by simp)
      | inr running => exact absurd (running.symm.trans starts.2.2) (by simp)
  · obtain ⟨clearing, isClearing⟩ := not_forall_not.1 working
    rw [isClearing]
    trivial

theorem CallKnown.stopInterval {other : Nat} {otherStage : Stage ι} (known : CallKnown s other otherStage)
    (hostId : ι) :
    CallKnown (s.modify hostId ({ · with leaderCheckInterval := false })) other otherStage := by
  cases otherStage with
  | clearing actor => trivial
  | finished => trivial
  | initializing actor =>
    by_cases same : actor = hostId
    · rw [CallKnown, same, modify_self]
      rw [CallKnown, same] at known
      exact ⟨known.1, rfl, known.2.2⟩
    · rw [CallKnown, modify_other s same]
      exact known
  | renewing actor | reclaiming actor | getting actor | claiming actor =>
    by_cases same : actor = hostId
    · rw [CallKnown, same, modify_self]
      rw [CallKnown, same] at known
      exact known
    · rw [CallKnown, modify_other s same]
      exact known

theorem Started.modify {made made' : Nat} (started : Started s made) {f : Instance → Instance}
    (fresh : (f (s.instances hostId)).initCall = none →
      (f (s.instances hostId)).leaderCheckInterval = false ∧
        (f (s.instances hostId)).leaderCheckInProgress = none ∧ (f (s.instances hostId)).isLeader = false) :
    Started (s.modify hostId f) made' := by
  intro other unused
  by_cases same : other = hostId
  · rw [same, modify_self] at unused ⊢
    exact fresh unused
  · rw [modify_other s same] at unused ⊢
    exact started other unused

theorem invoke_sound {made : Nat} (started : Started s made) (call : Invocation ι) :
    Started (invoke s made call).1 (made + 1) ∧ CallKnown (invoke s made call).1 made (invoke s made call).2 ∧
      ∀ other otherStage, CallKnown s other otherStage → CallKnown (invoke s made call).1 other otherStage := by
  have idle : Started s (made + 1) ∧ CallKnown s made .finished ∧
      ∀ other otherStage, CallKnown s other otherStage → CallKnown s other otherStage :=
    ⟨started, trivial, fun _ _ known => known⟩
  cases call with
  | init hostId =>
    rw [invoke]
    split
    case isTrue => exact idle
    case isFalse unset =>
      have fresh : (s.instances hostId).initCall = none := by simpa using unset
      have before := started hostId fresh
      have begun : Started (s.modify hostId ({ · with initCall := some made })) (made + 1) :=
        started.modify fun never => absurd never (by simp)
      refine ⟨begun, ?_, fun other otherStage known => ?_⟩
      · rw [CallKnown, modify_self]
        exact ⟨rfl, before.1, before.2.1⟩
      · exact CallKnown.modify known before.2.1 (.inl fresh) ({ · with initCall := some made })
  | checkLeader hostId =>
    rw [invoke]
    split
    case isTrue => exact idle
    case isFalse may =>
      have running : (s.instances hostId).leaderCheckInterval = true ∧
          (s.instances hostId).leaderCheckInProgress = none := by simpa using may
      have begun : Started (s.modify hostId ({ · with leaderCheckInProgress := some made })) (made + 1) := by
        refine started.modify fun fresh => absurd (started hostId fresh).1 ?_
        rw [running.1]
        decide
      have others : ∀ other otherStage, CallKnown s other otherStage →
          CallKnown (s.modify hostId ({ · with leaderCheckInProgress := some made })) other otherStage :=
        fun other otherStage known => known.modify running.2 (.inr running.1) _
      split
      case isTrue =>
        refine ⟨begun, ?_, others⟩
        rw [CallKnown, modify_self]
      case isFalse follower =>
        refine ⟨begun, ?_, others⟩
        rw [CallKnown, modify_self]
        exact ⟨rfl, Bool.eq_false_iff.2 follower⟩
  | shutdown hostId =>
    have stopped : Started (s.modify hostId ({ · with leaderCheckInterval := false })) (made + 1) :=
      started.modify fun fresh => ⟨rfl, (started hostId fresh).2⟩
    rw [invoke]
    split
    · exact ⟨stopped, trivial, fun other otherStage known => known.stopInterval hostId⟩
    · exact ⟨stopped, trivial, fun other otherStage known => known.stopInterval hostId⟩

theorem environment_instances (event : Event) :
    (environment leaderKeyTtl s event).instances = s.instances := by
  cases event with
  | timePasses elapsed => rfl
  | lateExecuted index =>
    rw [environment]
    split
    · rfl
    · rfl

theorem keeps_callKnown (leaderKeyTtl : Nat) :
    Keeps (system leaderKeyTtl : System (Shared ι) _ _ _ _) Started CallKnown where
  invoke s made call started := ⟨(invoke_sound started call).1, (invoke_sound started call).2.1⟩
  invoke_other s made call other otherCall started _ known := (invoke_sound started call).2.2 other otherCall known
  proceed s made number call reply started _ known := ⟨proceed_started started known, proceed_known known⟩
  proceed_other s made number call reply other otherCall _ known apart known' :=
    proceed_known_other known known' apart
  environment s made event started := by
    intro hostId
    have same : ((system leaderKeyTtl).environment s event).instances = s.instances :=
      environment_instances event
    rw [same]
    exact started hostId
  environment_call s made event number call _ known := known.congr fun hostId _ =>
    congrFun (environment_instances event) hostId

abbrev Sound (config : Config (Shared ι) (Stage ι)) : Prop := Holds Started CallKnown config

theorem stepsDown {config : Config (Shared ι) (Stage ι)} (sound : Sound config)
    (action : Action (Invocation ι) Reply Event) : StepsDown leaderKeyTtl config action := by
  intro number isAnswer stage found hostId reads key known apart
  have bound := (List.getElem?_eq_some_iff.1 found).1
  have next : (system leaderKeyTtl).next config action =
      ⟨(proceed leaderKeyTtl config.shared number stage .answered).1,
        config.calls.set number (proceed leaderKeyTtl config.shared number stage .answered).2⟩ := by
    rw [isAnswer, System.next, found]
    rfl
  rw [next, List.getElem?_set_self bound]
  cases stage with
  | renewing hostId' =>
    rw [← Option.some.inj reads] at apart ⊢
    have read : (tryRenewLeaderTtl leaderKeyTtl hostId' config.shared.key).2 = .otherHostIsLeader key.value := by
      rw [Option.mem_def.1 known, tryRenewLeaderTtl, if_pos apart]
    simp only [proceed, read, decide_true, if_true, true_and]
    rw [Shared.endCheck, modify_self, Shared.stepDownToFollower, modify_self]
  | getting hostId' =>
    rw [← Option.some.inj reads] at apart ⊢
    have follower := (sound.call number _ found).2
    simp only [proceed, Option.mem_def.1 known, if_neg apart, decide_true, if_true, true_and]
    rw [Shared.endCheck, modify_self, send_instances]
    exact follower
  | _ => exact absurd reads (by simp [Stage.readsKey])

theorem ownerOnly_along_iff (leaderKeyTtl : Nat) (actions : List (Action (Invocation ι) Reply Event)) :
    Runs.Along (system leaderKeyTtl).next (OwnerOnly leaderKeyTtl) { shared := {} } actions ↔
      Runs.Along (system leaderKeyTtl).next ClearsOwn { shared := {} } actions := by
  have initial : Sound ({ shared := {} } : Config (Shared ι) (Stage ι)) :=
    Holds.initial fun hostId _ => ⟨rfl, rfl, rfl⟩
  refine Runs.along_iff (I := Sound) (W := fun _ _ => True) (fun config action sound _ => ?_)
    (fun config action sound _ _ => sound.next (keeps_callKnown leaderKeyTtl) action) initial
    (Runs.along_of_forall (R := fun _ => True) fun _ _ => trivial)
  exact ⟨fun only => (keepsOthersKey_iff config action).1 only.1,
    fun clears => ⟨(keepsOthersKey_iff config action).2 clears, stepsDown sound action⟩⟩

/-- The first main is paused until its key has expired and the second one leads; then it is
shut down. -/
def lateShutdown : List (Action (Invocation Nat) Reply Event) :=
  [.invoke (.init 0), .proceed 0 .answered, .environment (.timePasses 10),
    .invoke (.init 1), .proceed 1 .answered, .invoke (.shutdown 0), .proceed 2 .answered]

theorem shutdown_clears_other_key :
    ¬ Runs.Along (system 10).next (OwnerOnly 10) ({ shared := {} } : Config (Shared Nat) (Stage Nat))
      lateShutdown := by
  intro along
  have last := along.2.2.2.2.2.2.1.1
  exact absurd (last 0 rfl ⟨1, 10⟩ rfl (by decide)) (by decide)

end NodeAutomation.LeaderElection
