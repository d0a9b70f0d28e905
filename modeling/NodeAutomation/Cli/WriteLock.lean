import NodeAutomation.Lib.History
import NodeAutomation.Lib.Interleaving
import Mathlib.Data.List.Induction

/-! The write lock of one workflow (`packages/cli/src/collaboration/collaboration.service.ts` and
`collaboration.state.ts`): a cache entry that the handlers of messages read, and set or delete
at a later await. A client is a connection, which belongs to one user. -/

namespace NodeAutomation.WriteLock

open History Interleaving

variable {κ υ : Type} [DecidableEq κ]

inductive Message where
  | writeAccessRequested (force : Bool)
  | writeAccessReleaseRequested
  | writeAccessHeartbeat
  | workflowClosed
  deriving DecidableEq

/-- What a handler is suspended at. `readAt` is how much had happened when it read the lock. -/
inductive Stage (κ : Type) where
  | checkingAccess (client : κ) (message : Message)
  | readingLock (client : κ) (message : Message)
  | settingLock (client : κ) (force : Bool) (readAt : Nat)
  | renewingLock (client : κ) (readAt : Nat)
  | releasingLock (client : κ) (readAt : Nat)
  | sendingAcquired (client : κ)
  | finished
  deriving DecidableEq

/-- `held` is the lock that a client has found when it released or renewed its own. -/
inductive Event (κ : Type) where
  | acquired (handler : Nat) (client : κ) (force : Bool)
  | told (handler : Nat)
  | renewed (client : κ) (held : Option κ)
  | released (client : κ) (held : Option κ)
  | expired (client : κ)
  deriving DecidableEq

/-- The cached lock, and a log of what has happened to it. -/
structure Shared (κ : Type) where
  lock : Option κ := none
  log : List (Event κ) := []
  deriving DecidableEq

/-- A query or cache command that has succeeded; or has thrown, found no access or found no
collaborators. -/
inductive Reply where
  | ok
  | refused
  deriving DecidableEq

inductive EnvironmentEvent where
  | lockExpires
  deriving DecidableEq

/-- `handleUserMessage`. -/
def invoke (s : Shared κ) (_ : Nat) (call : κ × Message) : Shared κ × Stage κ :=
  match call.2 with
  | .writeAccessRequested _ | .workflowClosed => (s, .checkingAccess call.1 call.2)
  | .writeAccessReleaseRequested | .writeAccessHeartbeat => (s, .readingLock call.1 call.2)

def proceed [DecidableEq υ] (userOf : κ → υ) (s : Shared κ) (number : Nat) (stage : Stage κ) (reply : Reply) : Shared κ × Stage κ :=
  match reply with
  | .refused => (s, .finished)
  | .ok =>
    match stage with
    | .checkingAccess client message => (s, .readingLock client message)
    | .readingLock client message =>
      match message with
      | .writeAccessRequested false =>
        if s.lock.all fun currentLock => currentLock = client then
          (s, .settingLock client false s.log.length)
        else (s, .finished)
      | .writeAccessRequested true =>
        -- `acquireWriteLockForce`
        if s.lock.all fun currentLock => userOf currentLock = userOf client then
          (s, .settingLock client true s.log.length)
        else (s, .finished)
      | .writeAccessReleaseRequested | .workflowClosed =>
        if s.lock = some client then (s, .releasingLock client s.log.length) else (s, .finished)
      | .writeAccessHeartbeat =>
        if s.lock = some client then (s, .renewingLock client s.log.length) else (s, .finished)
    | .settingLock client force _ =>
      ({ lock := some client, log := s.log ++ [.acquired number client force] }, .sendingAcquired client)
    | .renewingLock client _ =>
      ({ lock := some client, log := s.log ++ [.renewed client s.lock] }, .finished)
    | .releasingLock client _ =>
      ({ lock := none, log := s.log ++ [.released client s.lock] }, .finished)
    | .sendingAcquired _ => ({ s with log := s.log ++ [.told number] }, .finished)
    | .finished => (s, .finished)

def environment (s : Shared κ) : EnvironmentEvent → Shared κ
  | .lockExpires =>
    match s.lock with
    | none => s
    | some client => { lock := none, log := s.log ++ [.expired client] }

def system [DecidableEq υ] (userOf : κ → υ) : System (Shared κ) (Stage κ) (κ × Message) Reply EnvironmentEvent where
  invoke := invoke
  proceed := proceed userOf
  environment := environment

variable (userOf : κ → υ)

/-- The client's lock is released by it, expires, or is taken over by its user's forced request. -/
def Event.Ends (client : κ) : Event κ → Prop
  | .released other _ => other = client
  | .expired other => other = client
  | .acquired _ other force => force = true ∧ userOf other = userOf client
  | .told _ | .renewed _ _ => False

/-- Of two clients told that they acquired the lock, the first had lost it in between. -/
def Exclusive (log : List (Event κ)) : Prop :=
  ∀ before handler client force between handler' client' force' later,
    log = before ++ .acquired handler client force ::
      (between ++ .acquired handler' client' force' :: later) →
    client ≠ client' → .told handler ∈ log → .told handler' ∈ log →
    ∃ event ∈ between ++ [.acquired handler' client' force'], event.Ends userOf client

def OwnLock : Event κ → Prop
  | .released client held | .renewed client held => ∀ other ∈ held, other = client
  | .acquired _ _ _ | .told _ | .expired _ => True

def Event.AcquiredBy (allowed : κ → Prop) : Event κ → Prop
  | .acquired _ client _ => allowed client
  | .told _ | .renewed _ _ | .released _ _ | .expired _ => True

/-- Since the handler has read the lock no other client has acquired it; where the request is
forced, no client of another user. -/
def Stage.UndisturbedIn (log : List (Event κ)) : Stage κ → Prop
  | .settingLock client force readAt =>
    ∀ event ∈ log.drop readAt,
      event.AcquiredBy fun other => other = client ∨ force = true ∧ userOf other = userOf client
  | .renewingLock client readAt | .releasingLock client readAt =>
    ∀ event ∈ log.drop readAt, event.AcquiredBy fun other => other = client
  | .checkingAccess _ _ | .readingLock _ _ | .sendingAcquired _ | .finished => True

def Undisturbed (config : Config (Shared κ) (Stage κ)) :
    Action (κ × Message) Reply EnvironmentEvent → Prop
  | .proceed number .ok =>
    ∀ stage ∈ config.calls[number]?, stage.UndisturbedIn userOf config.shared.log
  | .proceed _ .refused | .invoke _ | .environment _ => True

instance (allowed : κ → Prop) [DecidablePred allowed] : DecidablePred (Event.AcquiredBy allowed)
  | .acquired _ client _ => inferInstanceAs (Decidable (allowed client))
  | .told _ | .renewed _ _ | .released _ _ | .expired _ => isTrue trivial

instance [DecidableEq υ] (log : List (Event κ)) : DecidablePred (Stage.UndisturbedIn userOf log)
  | .settingLock _ _ readAt => inferInstanceAs (Decidable (∀ event ∈ log.drop readAt, event.AcquiredBy _))
  | .renewingLock _ readAt | .releasingLock _ readAt =>
    inferInstanceAs (Decidable (∀ event ∈ log.drop readAt, event.AcquiredBy _))
  | .checkingAccess _ _ | .readingLock _ _ | .sendingAcquired _ | .finished => isTrue trivial

instance [DecidableEq υ] (config : Config (Shared κ) (Stage κ)) : DecidablePred (Undisturbed userOf config)
  | .proceed number .ok =>
    inferInstanceAs (Decidable
      (∀ stage ∈ config.calls[number]?, stage.UndisturbedIn userOf config.shared.log))
  | .proceed _ .refused | .invoke _ | .environment _ => isTrue trivial

def holderStep (holder : Option κ) : Event κ → Option κ
  | .acquired _ client _ => some client
  | .released client _ | .expired client => if holder = some client then none else holder
  | .told _ | .renewed _ _ => holder

/-- The last client that acquired the lock and has not lost it. -/
def holder (log : List (Event κ)) : Option κ := log.foldl holderStep none

def lastStep (last : Option κ) : Event κ → Option κ
  | .acquired _ client _ => some client
  | .told _ | .renewed _ _ | .released _ _ | .expired _ => last

def lastAcquired (log : List (Event κ)) : Option κ := log.foldl lastStep none

variable {userOf} {s s' : Shared κ} {log before later : List (Event κ)} {event : Event κ}
  {client : κ} {number made : Nat} {stage : Stage κ}

theorem holder_concat : holder (log ++ [event]) = holderStep (holder log) event := by
  rw [holder, List.foldl_append, List.foldl_cons, List.foldl_nil, holder]

omit [DecidableEq κ] in
theorem lastAcquired_concat : lastAcquired (log ++ [event]) = lastStep (lastAcquired log) event := by
  rw [lastAcquired, List.foldl_append, List.foldl_cons, List.foldl_nil, lastAcquired]

theorem holder_mem_append {p : κ → Prop} (first : ∀ h ∈ holder log, p h)
    (acquired : ∀ event ∈ later, ∀ handler client force, event = .acquired handler client force → p client) :
    ∀ h ∈ holder (log ++ later), p h := by
  induction later generalizing log with
  | nil =>
    rw [List.append_nil]
    exact first
  | cons event later ih =>
    have split : log ++ event :: later = (log ++ [event]) ++ later := by
      rw [List.append_assoc, List.singleton_append]
    rw [split]
    refine ih (fun h held => ?_) fun other member => acquired other (List.mem_cons_of_mem event member)
    rw [holder_concat] at held
    cases event with
    | acquired handler client force =>
      rw [← Option.some.inj held]
      exact acquired _ List.mem_cons_self handler client force rfl
    | told handler => exact first h held
    | renewed client found => exact first h held
    | released client found | expired client =>
      rw [holderStep] at held
      split at held
      · exact absurd held (by simp)
      · exact first h held

omit [DecidableEq κ] in
theorem lastAcquired_append (first : lastAcquired log = some client)
    (acquired : ∀ event ∈ later, ∀ handler other force, event = .acquired handler other force → other = client) :
    lastAcquired (log ++ later) = some client := by
  induction later generalizing log with
  | nil => rwa [List.append_nil]
  | cons event later ih =>
    have split : log ++ event :: later = (log ++ [event]) ++ later := by
      rw [List.append_assoc, List.singleton_append]
    rw [split]
    refine ih ?_ fun other member => acquired other (List.mem_cons_of_mem event member)
    rw [lastAcquired_concat]
    cases event with
    | acquired handler other force =>
      exact congrArg some (acquired _ List.mem_cons_self handler other force rfl)
    | told handler => exact first
    | renewed other found => exact first
    | released other found => exact first
    | expired other => exact first

theorem holder_last (held : holder log = some client) : lastAcquired log = some client := by
  induction log using List.reverseRecOn with
  | nil => exact absurd held (by simp [holder])
  | append_singleton log event ih =>
    rw [holder_concat] at held
    rw [lastAcquired_concat]
    cases event with
    | acquired handler other force => exact held
    | told handler => exact ih held
    | renewed other found => exact ih held
    | released other found | expired other =>
      rw [holderStep] at held
      split at held
      · exact absurd held (by simp)
      · exact ih held

/-- A client acquires a lock that is free or its own, or its user's by force, and releases or
renews only its own. -/
def Legit (userOf : κ → υ) (before : List (Event κ)) : Event κ → Prop
  | .acquired _ client force =>
    ∀ h ∈ holder before, h = client ∨ force = true ∧ userOf h = userOf client
  | event => OwnLock event

structure Sound (userOf : κ → υ) (s : Shared κ) (_ : Nat) : Prop where
  last : ∀ client, s.lock = some client → lastAcquired s.log = some client
  holder : ∀ client, holder s.log = some client → s.lock = some client
  legit : Each (Legit userOf) s.log

def HandlerKnows (userOf : κ → υ) (s : Shared κ) (_ : Nat) : Stage κ → Prop
  | .settingLock client force readAt =>
    readAt ≤ s.log.length ∧
      ∀ h ∈ WriteLock.holder (s.log.take readAt), h = client ∨ force = true ∧ userOf h = userOf client
  | .renewingLock client readAt | .releasingLock client readAt =>
    readAt ≤ s.log.length ∧ lastAcquired (s.log.take readAt) = some client
  | _ => True

theorem HandlerKnows.grow (known : HandlerKnows userOf s number stage) (grown : s'.log = s.log ++ later) :
    HandlerKnows userOf s' number stage := by
  have longer : s.log.length ≤ s'.log.length := by
    rw [grown, List.length_append]
    exact Nat.le_add_right _ _
  cases stage with
  | settingLock client force readAt =>
    refine ⟨Nat.le_trans known.1 longer, ?_⟩
    rw [grown, List.take_append_of_le_length known.1]
    exact known.2
  | renewingLock client readAt | releasingLock client readAt =>
    refine ⟨Nat.le_trans known.1 longer, ?_⟩
    rw [grown, List.take_append_of_le_length known.1]
    exact known.2
  | _ => trivial

section

variable (sound : Sound userOf s made)
include sound

theorem Sound.told (handler : Nat) :
    Sound userOf { s with log := s.log ++ [.told handler] } made where
  last client locked := by
    rw [lastAcquired_concat]
    exact sound.last client locked
  holder client held := by
    rw [holder_concat] at held
    exact sound.holder client held
  legit := sound.legit.concat trivial

theorem Sound.acquire {force : Bool}
    (legit : ∀ h ∈ WriteLock.holder s.log, h = client ∨ force = true ∧ userOf h = userOf client) :
    Sound userOf ⟨some client, s.log ++ [.acquired number client force]⟩ made where
  last other locked := by
    rw [lastAcquired_concat]
    exact locked
  holder other held := by
    rw [holder_concat] at held
    exact held
  legit := sound.legit.concat legit

section

variable (last : lastAcquired s.log = some client)
include last

theorem Sound.ownLock :
    ∀ other ∈ s.lock, other = client :=
  fun other locked => Option.some.inj ((sound.last other locked).symm.trans last)

theorem Sound.renew :
    Sound userOf ⟨some client, s.log ++ [.renewed client s.lock]⟩ made where
  last other locked := by
    rw [lastAcquired_concat, ← Option.some.inj locked]
    exact last
  holder other held := by
    rw [holder_concat] at held
    rw [← last]
    exact holder_last held
  legit := sound.legit.concat (sound.ownLock last)

theorem Sound.release :
    Sound userOf ⟨none, s.log ++ [.released client s.lock]⟩ made where
  last other locked := absurd locked (by simp)
  holder other held := by
    rw [holder_concat, holderStep] at held
    split at held
    case isTrue => exact absurd held (by simp)
    case isFalse free =>
      rw [holder_last held] at last
      rw [← Option.some.inj last] at free
      exact absurd held free
  legit := sound.legit.concat (sound.ownLock last)

end

theorem Sound.expire (locked : s.lock = some client) :
    Sound userOf ⟨none, s.log ++ [.expired client]⟩ made where
  last other now := absurd now (by simp)
  holder other held := by
    rw [holder_concat, holderStep] at held
    split at held
    case isTrue => exact absurd held (by simp)
    case isFalse free =>
      have same := sound.holder other held
      rw [locked] at same
      rw [same] at free
      exact absurd held free
  legit := sound.legit.concat trivial

end

omit [DecidableEq κ] in
theorem undisturbed_last {readAt : Nat} (known : lastAcquired (log.take readAt) = some client)
    (undisturbed : ∀ event ∈ log.drop readAt, event.AcquiredBy fun other => other = client) :
    lastAcquired log = some client := by
  have whole := lastAcquired_append known fun event member handler other force same => by
    have here := undisturbed event member
    rw [same] at here
    exact here
  rwa [List.take_append_drop] at whole

theorem Sound.settingLock {force : Bool} (sound : Sound userOf s made)
    (found : ∀ h, s.lock = some h → h = client ∨ force = true ∧ userOf h = userOf client) :
    HandlerKnows userOf s number (.settingLock client force s.log.length) := by
  refine ⟨Nat.le_refl _, fun h held => ?_⟩
  rw [List.take_length] at held
  exact found h (sound.holder h held)

theorem Sound.ownRead (sound : Sound userOf s made) (own : s.lock = some client) :
    s.log.length ≤ s.log.length ∧ lastAcquired (s.log.take s.log.length) = some client := by
  rw [List.take_length]
  exact ⟨Nat.le_refl _, sound.last client own⟩

variable [DecidableEq υ]

theorem proceed_grown (userOf : κ → υ) (s : Shared κ) (number : Nat) (stage : Stage κ) (reply : Reply) :
    ∃ later, (proceed userOf s number stage reply).1.log = s.log ++ later := by
  have same : ∃ later, s.log = s.log ++ later := ⟨[], (List.append_nil _).symm⟩
  cases reply with
  | refused => exact same
  | ok =>
    cases stage with
    | checkingAccess client message => exact same
    | readingLock client message =>
      simp only [proceed]
      split
      all_goals
        split
        · exact same
        · exact same
    | settingLock client force readAt => exact ⟨_, rfl⟩
    | renewingLock client readAt => exact ⟨_, rfl⟩
    | releasingLock client readAt => exact ⟨_, rfl⟩
    | sendingAcquired client => exact ⟨_, rfl⟩
    | finished => exact same

theorem proceed_sound {reply : Reply} (sound : Sound userOf s made)
    (known : HandlerKnows userOf s number stage)
    (undisturbed : reply = .ok → stage.UndisturbedIn userOf s.log) :
    Sound userOf (proceed userOf s number stage reply).1 made ∧
      HandlerKnows userOf (proceed userOf s number stage reply).1 number
        (proceed userOf s number stage reply).2 := by
  cases reply with
  | refused => exact ⟨sound, trivial⟩
  | ok =>
    have here := undisturbed rfl
    cases stage with
    | checkingAccess client message => exact ⟨sound, trivial⟩
    | readingLock client message =>
      simp only [proceed]
      split
      case h_1 =>
        split
        case isTrue free =>
          refine ⟨sound, sound.settingLock fun h locked => .inl ?_⟩
          rw [locked] at free
          exact of_decide_eq_true free
        case isFalse => exact ⟨sound, trivial⟩
      case h_2 =>
        split
        case isTrue free =>
          refine ⟨sound, sound.settingLock fun h locked => .inr ⟨rfl, ?_⟩⟩
          rw [locked] at free
          exact of_decide_eq_true free
        case isFalse => exact ⟨sound, trivial⟩
      case h_3 | h_4 =>
        split
        case isTrue own => exact ⟨sound, sound.ownRead own⟩
        case isFalse => exact ⟨sound, trivial⟩
      case h_5 =>
        split
        case isTrue own => exact ⟨sound, sound.ownRead own⟩
        case isFalse => exact ⟨sound, trivial⟩
    | settingLock client force readAt =>
      refine ⟨sound.acquire ?_, trivial⟩
      have whole := holder_mem_append known.2 fun event member handler other force' same => by
        have acquired := here event member
        rw [same] at acquired
        exact acquired
      rwa [List.take_append_drop] at whole
    | renewingLock client readAt => exact ⟨sound.renew (undisturbed_last known.2 here), trivial⟩
    | releasingLock client readAt => exact ⟨sound.release (undisturbed_last known.2 here), trivial⟩
    | sendingAcquired client => exact ⟨sound.told number, trivial⟩
    | finished => exact ⟨sound, trivial⟩

abbrev SoundConfig (userOf : κ → υ) (config : Config (Shared κ) (Stage κ)) : Prop :=
  Holds (Sound userOf) (HandlerKnows userOf) config

theorem sound_step (userOf : κ → υ) (config : Config (Shared κ) (Stage κ))
    (action : Action (κ × Message) Reply EnvironmentEvent) (sound : SoundConfig userOf config)
    (undisturbed : Undisturbed userOf config action) :
    SoundConfig userOf ((system userOf).next config action) := by
  cases action with
  | invoke call =>
    have same : ((system userOf).invoke config.shared config.calls.length call).1 = config.shared := by
      change (invoke config.shared config.calls.length call).1 = config.shared
      rw [invoke]
      split <;> rfl
    refine Holds.invoke call ⟨?_, ?_⟩ fun other stage found => ?_
    · rw [same]
      exact ⟨sound.shared.last, sound.shared.holder, sound.shared.legit⟩
    · change HandlerKnows userOf (invoke config.shared config.calls.length call).1 _
        (invoke config.shared config.calls.length call).2
      rw [invoke]
      split <;> trivial
    · rw [same]
      exact sound.call other stage found
  | proceed number reply =>
    refine sound.proceed number reply (fun stage found => ?_) fun stage other otherStage _ _ known => ?_
    · refine proceed_sound sound.shared (sound.call number stage found) fun ok => ?_
      rw [ok] at undisturbed
      exact undisturbed stage found
    · obtain ⟨later, grown⟩ := proceed_grown userOf config.shared number stage reply
      exact (sound.call other otherStage known).grow grown
  | environment event =>
    cases event with
    | lockExpires =>
      refine ⟨?_, fun number stage found => ?_⟩
      · change Sound userOf (environment config.shared .lockExpires) _
        rw [environment]
        split
        case h_1 => exact sound.shared
        case h_2 client locked => exact sound.shared.expire locked
      · have known := sound.call number stage found
        change HandlerKnows userOf (environment config.shared .lockExpires) number stage
        rw [environment]
        split
        · exact known
        · exact known.grow rfl

omit [DecidableEq υ] in
theorem holder_between {between : List (Event κ)} (held : holder before = some client)
    (legit : Each (Legit userOf) (before ++ between))
    (kept : ∀ event ∈ between, ¬ event.Ends userOf client) : holder (before ++ between) = some client := by
  induction between generalizing before with
  | nil => rwa [List.append_nil]
  | cons event between ih =>
    have here := legit.at_ rfl
    have split : before ++ event :: between = (before ++ [event]) ++ between := by
      rw [List.append_assoc, List.singleton_append]
    rw [split] at legit ⊢
    refine ih ?_ legit fun other member => kept other (List.mem_cons_of_mem event member)
    have free := kept event List.mem_cons_self
    rw [holder_concat, held]
    cases event with
    | acquired handler other force =>
      cases here client held with
      | inl same => exact congrArg some same.symm
      | inr forced => exact absurd ⟨forced.1, forced.2.symm⟩ free
    | told handler => rfl
    | renewed other found => rfl
    | released other found | expired other =>
      rw [holderStep, if_neg fun same => free (Option.some.inj same).symm]

omit [DecidableEq υ] in
theorem exclusive_of_legit (legit : Each (Legit userOf) log) : Exclusive userOf log := by
  intro before handler client force between handler' client' force' later split apart _ _
  by_contra never
  have kept : ∀ event ∈ between ++ [.acquired handler' client' force'], ¬ event.Ends userOf client :=
    fun event member ends => never ⟨event, member, ends⟩
  have whole : log = ((before ++ [.acquired handler client force]) ++ between) ++
      .acquired handler' client' force' :: later := by
    simp only [split, List.append_assoc, List.cons_append, List.nil_append]
  have second := legit.at_ whole
  rw [whole] at legit
  have held : holder ((before ++ [.acquired handler client force]) ++ between) = some client := by
    refine holder_between ?_ legit.of_append fun event member => kept event (List.mem_append_left _ member)
    rw [holder_concat]
    rfl
  cases second client held with
  | inl same => exact apart same
  | inr forced => exact kept _ (List.mem_append_right _ List.mem_cons_self) ⟨forced.1, forced.2.symm⟩

theorem exclusive_run (userOf : κ → υ) (actions : List (Action (κ × Message) Reply EnvironmentEvent))
    (undisturbed : Runs.Along (system userOf).next (Undisturbed userOf) { shared := {} } actions) :
    Exclusive userOf ((system userOf).run { shared := {} } actions).shared.log ∧
      ∀ event ∈ ((system userOf).run { shared := {} } actions).shared.log, OwnLock event := by
  have initial : SoundConfig userOf { shared := {} } :=
    Holds.initial ⟨fun client locked => absurd locked (by simp),
      fun client held => absurd held (by simp [holder]), each_nil⟩
  have legit := (Runs.holds_after (sound_step userOf) initial undisturbed).shared.legit
  refine ⟨exclusive_of_legit legit, fun event member => ?_⟩
  obtain ⟨before, later, -, here⟩ := legit.of_mem member
  cases event with
  | acquired handler client force => trivial
  | told handler => trivial
  | renewed client held => exact here
  | released client held => exact here
  | expired client => trivial

def exampleUser (client : Nat) : Nat := if client < 2 then 0 else 1

/-- The lock is acquired, renewed, taken over by force, released and acquired by another user. -/
def orderlyRun : List (Action (Nat × Message) Reply EnvironmentEvent) :=
  [.invoke (0, .writeAccessRequested false), .proceed 0 .ok, .proceed 0 .ok, .proceed 0 .ok, .proceed 0 .ok,
    .invoke (0, .writeAccessHeartbeat), .proceed 1 .ok, .proceed 1 .ok,
    .invoke (1, .writeAccessRequested true), .proceed 2 .ok, .proceed 2 .ok, .proceed 2 .ok, .proceed 2 .ok,
    .invoke (1, .writeAccessReleaseRequested), .proceed 3 .ok, .proceed 3 .ok,
    .invoke (2, .writeAccessRequested false), .proceed 4 .ok, .proceed 4 .ok, .proceed 4 .ok, .proceed 4 .ok]

theorem exclusive_orderlyRun :
    Exclusive exampleUser ((system exampleUser).run { shared := {} } orderlyRun).shared.log ∧
      ∀ event ∈ ((system exampleUser).run { shared := {} } orderlyRun).shared.log, OwnLock event :=
  exclusive_run exampleUser orderlyRun (by decide)

def bothAcquire : List (Action (Nat × Message) Reply EnvironmentEvent) :=
  [.invoke (0, .writeAccessRequested false), .invoke (2, .writeAccessRequested false),
    .proceed 0 .ok, .proceed 1 .ok, .proceed 0 .ok, .proceed 1 .ok,
    .proceed 0 .ok, .proceed 0 .ok, .proceed 1 .ok, .proceed 1 .ok]

/-- The lock expires after its client has read it to release it, and another client acquires it. -/
def lateRelease : List (Action (Nat × Message) Reply EnvironmentEvent) :=
  [.invoke (0, .writeAccessRequested false), .proceed 0 .ok, .proceed 0 .ok, .proceed 0 .ok, .proceed 0 .ok,
    .invoke (0, .writeAccessReleaseRequested), .proceed 1 .ok, .environment .lockExpires,
    .invoke (2, .writeAccessRequested false), .proceed 2 .ok, .proceed 2 .ok, .proceed 2 .ok, .proceed 1 .ok]

theorem lock_not_exclusive :
    ¬ Exclusive exampleUser ((system exampleUser).run { shared := {} } bothAcquire).shared.log ∧
      ¬ ∀ event ∈ ((system exampleUser).run { shared := {} } lateRelease).shared.log, OwnLock event := by
  refine ⟨fun exclusive => ?_, fun own => ?_⟩
  · obtain ⟨event, member, ends⟩ := exclusive [] 0 0 false [.told 0] 1 2 false [.told 1]
      (by decide) (by decide) (by decide) (by decide)
    cases List.mem_cons.1 member with
    | inl told =>
      rw [told] at ends
      exact ends
    | inr acquired =>
      rw [List.mem_singleton.1 acquired] at ends
      exact absurd ends.1 (by decide)
  · exact absurd (own (.released 0 (some 2)) (by decide) 2 rfl) (by decide)

end NodeAutomation.WriteLock
