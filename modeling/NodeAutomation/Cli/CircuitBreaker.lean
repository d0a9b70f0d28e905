import Mathlib.Data.List.Count
import Mathlib.Order.Nat
import NodeAutomation.Lib.Runs

/-! A circuit breaker (`packages/cli/src/utils/circuit-breaker.ts`) and the window of its failures
(`packages/cli/src/utils/sliding-window.ts`). Calls end some time after they were started, when the
breaker may be in another state. -/

namespace NodeAutomation.CircuitBreaker
open Runs

inductive CircuitBreakerState where
  | CLOSED
  | OPEN
  | HALF_OPEN
  deriving DecidableEq

/-- Times are in milliseconds. -/
structure CircuitBreakerOptions where
  timeout : Nat
  maxFailures : Nat
  halfOpenRequests : Nat
  failureWindow : Nat
  maxConcurrentHalfOpenRequests : Nat := 1
  deriving DecidableEq

namespace SlidingWindow

/-- A slice from the end that is to keep nothing keeps everything. -/
def addEvent (maxEvents : Nat) (eventTimestamps : List Nat) (timestamp : Nat) : List Nat :=
  let pushed := eventTimestamps ++ [timestamp]
  if maxEvents * 2 < pushed.length ∧ maxEvents ≠ 0 then pushed.drop (pushed.length - maxEvents * 2) else pushed

def inWindow (durationMs now timestamp : Nat) : Bool := now ≤ timestamp + durationMs

/-- The events that are left, which `getCount` counts. -/
def current (durationMs now : Nat) (eventTimestamps : List Nat) : List Nat :=
  eventTimestamps.filter (inWindow durationMs now)

end SlidingWindow

open SlidingWindow

inductive Handler where
  | closed
  | halfOpen
  deriving DecidableEq

structure Call where
  handler : Handler
  ended : Bool := false
  deriving DecidableEq

/-- What has happened: a failure was recorded, a success was counted, the state has changed. -/
inductive Entry where
  | failed (time : Nat)
  | succeeded
  | became (state : CircuitBreakerState)
  deriving DecidableEq

structure Breaker where
  state : CircuitBreakerState := .CLOSED
  halfOpenCount : Nat := 0
  lastFailureTime : Nat := 0
  pendingHalfOpenRequests : Nat := 0
  eventTimestamps : List Nat := []
  now : Nat
  calls : List Call := []
  log : List Entry := []
  deriving DecidableEq

section

variable (options : CircuitBreakerOptions)

namespace Breaker

def recordFailure (b : Breaker) : Breaker :=
  { b with
    lastFailureTime := b.now
    eventTimestamps := addEvent options.maxFailures b.eventTimestamps b.now
    log := .failed b.now :: b.log }

def changeToState (b : Breaker) (newState : CircuitBreakerState) : Breaker :=
  if newState = b.state then b else { b with state := newState, log := .became newState :: b.log }

/-- Whether the call is let through, too. -/
def handleHalfOpenState (b : Breaker) : Breaker × Bool :=
  if options.maxConcurrentHalfOpenRequests ≤ b.pendingHalfOpenRequests then (b, false)
  else ({ b with
    pendingHalfOpenRequests := b.pendingHalfOpenRequests + 1
    calls := b.calls ++ [⟨.halfOpen, false⟩] }, true)

def handleOpenState (b : Breaker) : Breaker × Bool :=
  if b.lastFailureTime + options.timeout ≤ b.now then
    (({ b with halfOpenCount := 0 } : Breaker).changeToState .HALF_OPEN).handleHalfOpenState options
  else (b, false)

/-- A call up to where its function is awaited. -/
def execute (b : Breaker) : Breaker × Bool :=
  match b.state with
  | .OPEN => b.handleOpenState options
  | .HALF_OPEN => b.handleHalfOpenState options
  | .CLOSED => ({ b with calls := b.calls ++ [⟨.closed, false⟩] }, true)

def succeedHalfOpen (b : Breaker) : Breaker :=
  let counted := { b with halfOpenCount := b.halfOpenCount + 1, log := .succeeded :: b.log }
  if options.halfOpenRequests ≤ counted.halfOpenCount then
    { counted.changeToState .CLOSED with eventTimestamps := [] }
  else counted

def failHalfOpen (b : Breaker) : Breaker := (b.recordFailure options).changeToState .OPEN

def failClosed (b : Breaker) : Breaker :=
  let recorded := b.recordFailure options
  let pruned := { recorded with
    eventTimestamps := current options.failureWindow b.now recorded.eventTimestamps }
  if options.maxFailures ≤ pruned.eventTimestamps.length then pruned.changeToState .OPEN else pruned

def settle (b : Breaker) (call : Nat) (ok : Bool) : Breaker :=
  match b.calls[call]? with
  | none | some ⟨_, true⟩ => b
  | some ⟨handler, false⟩ =>
    let ended := { b with calls := b.calls.set call ⟨handler, true⟩ }
    match handler, ok with
    | .closed, true => ended
    | .closed, false => ended.failClosed options
    | .halfOpen, true =>
      let after := ended.succeedHalfOpen options
      { after with pendingHalfOpenRequests := after.pendingHalfOpenRequests - 1 }
    | .halfOpen, false =>
      let after := ended.failHalfOpen options
      { after with pendingHalfOpenRequests := after.pendingHalfOpenRequests - 1 }

end Breaker

inductive Action where
  | execute
  | settle (call : Nat) (ok : Bool)
  | pass (milliseconds : Nat)

def next (b : Breaker) : Action → Breaker
  | .execute => (b.execute options).1
  | .settle call ok => b.settle options call ok
  | .pass milliseconds => { b with now := b.now + milliseconds }

def Entry.failedAt : Entry → Option Nat
  | .failed time => some time
  | .succeeded | .became _ => none

def lastFailure (log : List Entry) : Option Nat := (log.filterMap Entry.failedAt).head?

def since (state : CircuitBreakerState) (log : List Entry) : List Entry := log.takeWhile (· ≠ .became state)

def failures (log : List Entry) : List Nat := (since .CLOSED log).filterMap Entry.failedAt

/-- A step changes the state only for cause. -/
structure ForCause (b after : Breaker) : Prop where
  direct : b.state = .OPEN → after.state ≠ .CLOSED
  halfOpens : b.state = .OPEN → after.state = .HALF_OPEN →
    ∃ time, lastFailure b.log = some time ∧ time + options.timeout ≤ b.now
  closes : b.state = .HALF_OPEN → after.state = .CLOSED →
    options.halfOpenRequests ≤ (since .HALF_OPEN after.log).count .succeeded ∧
      ∀ time, .failed time ∉ since .HALF_OPEN after.log
  opens : b.state = .CLOSED → (after.state = .OPEN ↔
    options.maxFailures ≤ (current options.failureWindow after.now (failures after.log)).length)

/-- With one more failure now, there would be enough of them in the window. -/
def Breaker.AtLimit (b : Breaker) : Prop :=
  options.maxFailures ≤
    (current options.failureWindow b.now (addEvent options.maxFailures b.eventTimestamps b.now)).length

def Breaker.Harmless (b : Breaker) : Handler → Bool → Prop
  | .closed, true => True
  | .closed, false => b.state = .HALF_OPEN → b.AtLimit options
  | .halfOpen, true => options.halfOpenRequests ≤ b.halfOpenCount + 1 →
      b.state ≠ .OPEN ∧ (b.state = .CLOSED → current options.failureWindow b.now b.eventTimestamps = [])
  | .halfOpen, false => b.state = .CLOSED → b.AtLimit options

def InTime (b : Breaker) : Action → Prop
  | .execute | .pass _ => 0 < options.maxFailures
  | .settle call ok => 0 < options.maxFailures ∧
      ∀ handler, b.calls[call]? = some ⟨handler, false⟩ → b.Harmless options handler ok

end

section

variable {α : Type*} {p : α → Bool} {events : List α}

theorem filter_of_imp {q : α → Bool} (less : ∀ a, q a = true → p a = true) :
    (events.filter p).filter q = events.filter q := by
  rw [List.filter_filter]
  refine List.filter_congr fun a _ => ?_
  cases holds : q a with
  | false => rfl
  | true => simp [less a holds]

theorem filter_drop_of_sorted [Preorder α] (sorted : events.Pairwise (· ≤ ·))
    (upward : ∀ a b, a ≤ b → p a = true → p b = true) {kept : Nat} (enough : (events.filter p).length ≤ kept) :
    (events.drop (events.length - kept)).filter p = events.filter p := by
  have split := List.take_append_drop (events.length - kept) events
  have parts : (events.take (events.length - kept)).filter p ++ (events.drop (events.length - kept)).filter p =
      events.filter p := by
    rw [← List.filter_append, split]
  have nothing : (events.take (events.length - kept)).filter p = [] := by
    rw [List.filter_eq_nil_iff]
    intro a front pass
    -- then everything behind it is in the window, and that is too much
    rw [← split] at sorted
    have behind : (events.drop (events.length - kept)).filter p = events.drop (events.length - kept) :=
      List.filter_eq_self.2 fun b back => upward a b ((List.pairwise_append.1 sorted).2.2 a front b back) pass
    have some_ : 0 < ((events.take (events.length - kept)).filter p).length :=
      List.length_pos_of_mem (List.mem_filter.2 ⟨front, pass⟩)
    have dropped : events.length - kept ≠ 0 := by
      intro none_
      simp [none_, List.take_zero] at front
    rw [← parts, List.length_append, behind, List.length_drop] at enough
    omega
  rw [← parts, nothing, List.nil_append]

end

section

variable {maxEvents durationMs now timestamp : Nat} {events : List Nat}

theorem addEvent_sublist : (addEvent maxEvents events timestamp).Sublist (events ++ [timestamp]) := by
  rw [addEvent]
  split
  · exact List.drop_sublist _ _
  · exact List.Sublist.refl _

theorem current_now_self : current durationMs now [now] = [now] :=
  List.filter_eq_self.2 fun event among => by
    rw [List.mem_singleton.1 among, inWindow, decide_eq_true_iff]
    omega

theorem current_addEvent (sorted : events.Pairwise (· ≤ ·)) (past : ∀ event ∈ events, event ≤ now)
    (few : (current durationMs now events).length < maxEvents) :
    current durationMs now (addEvent maxEvents events now) = current durationMs now events ++ [now] := by
  have whole : current durationMs now (events ++ [now]) = current durationMs now events ++ [now] := by
    rw [current, List.filter_append]
    exact congrArg _ current_now_self
  rw [addEvent]
  split
  · have sorted' : (events ++ [now]).Pairwise (· ≤ ·) := List.pairwise_append.2
      ⟨sorted, List.pairwise_singleton _ _, fun event among last same => List.mem_singleton.1 same ▸ past event among⟩
    have enough : (current durationMs now (events ++ [now])).length ≤ maxEvents * 2 := by
      rw [whole, List.length_append, List.length_singleton]
      omega
    rw [← whole]
    refine filter_drop_of_sorted sorted' (fun a b less holds => ?_) enough
    rw [inWindow, decide_eq_true_iff] at holds ⊢
    omega
  · exact whole

end

variable {options : CircuitBreakerOptions} {b b' : Breaker} {handler : Handler} {ok : Bool}

/-- What the breaker keeps agrees with what has happened. -/
structure Sound (options : CircuitBreakerOptions) (b : Breaker) : Prop where
  lastFailure : b.state = .OPEN → lastFailure b.log = some b.lastFailureTime
  halfOpen : b.state = .HALF_OPEN → (since .HALF_OPEN b.log).count .succeeded = b.halfOpenCount ∧
    ∀ time, .failed time ∉ since .HALF_OPEN b.log
  sorted : b.eventTimestamps.Pairwise (· ≤ ·)
  past : ∀ timestamp ∈ b.eventTimestamps, timestamp ≤ b.now
  window : b.state = .CLOSED → current options.failureWindow b.now b.eventTimestamps =
    (current options.failureWindow b.now (failures b.log)).reverse
  few : b.state = .CLOSED → (current options.failureWindow b.now b.eventTimestamps).length < options.maxFailures

namespace Sound

theorem length_failures (sound : Sound options b) (closed : b.state = .CLOSED) :
    (current options.failureWindow b.now (failures b.log)).length =
      (current options.failureWindow b.now b.eventTimestamps).length := by
  rw [sound.window closed, List.length_reverse]

theorem sorted_recordFailure (sound : Sound options b) :
    (b.recordFailure options).eventTimestamps.Pairwise (· ≤ ·) ∧
      ∀ timestamp ∈ (b.recordFailure options).eventTimestamps, timestamp ≤ b.now := by
  have past : ∀ timestamp ∈ b.eventTimestamps ++ [b.now], timestamp ≤ b.now := by
    intro timestamp among
    rcases List.mem_append.1 among with old | new
    · exact sound.past timestamp old
    · exact Nat.le_of_eq (List.mem_singleton.1 new)
  refine ⟨List.Pairwise.sublist addEvent_sublist ?_, fun timestamp among => past timestamp (addEvent_sublist.subset among)⟩
  exact List.pairwise_append.2 ⟨sound.sorted, List.pairwise_singleton _ _, fun timestamp among last same =>
    List.mem_singleton.1 same ▸ sound.past timestamp among⟩

theorem window_recordFailure (sound : Sound options b) (closed : b.state = .CLOSED) :
    current options.failureWindow b.now (b.recordFailure options).eventTimestamps =
      (current options.failureWindow b.now (failures (b.recordFailure options).log)).reverse := by
  have more : failures (b.recordFailure options).log = b.now :: failures b.log := by
    rw [failures, since, Breaker.recordFailure, List.takeWhile_cons_of_pos (by simp)]
    rfl
  have inside : current options.failureWindow b.now (b.now :: failures b.log) =
      b.now :: current options.failureWindow b.now (failures b.log) :=
    List.filter_cons_of_pos (by rw [inWindow, decide_eq_true_iff]; omega)
  rw [more, inside, List.reverse_cons]
  exact (current_addEvent sound.sorted sound.past (sound.few closed)).trans
    (congrArg (· ++ [b.now]) (sound.window closed))

end Sound

def Fine (options : CircuitBreakerOptions) (b after : Breaker) : Prop := Sound options after ∧ ForCause options b after

theorem forCause_of_same (sound' : Sound options b') (same : b'.state = b.state) : ForCause options b b' where
  direct opened := by
    rw [same, opened]
    exact CircuitBreakerState.noConfusion
  halfOpens opened half := by
    simp [same, opened] at half
  closes half closed := by
    simp [same, half] at closed
  opens closed := by
    have closed' := same.trans closed
    rw [closed', sound'.length_failures closed']
    exact iff_of_false CircuitBreakerState.noConfusion (Nat.not_le.2 (sound'.few closed'))

theorem fine_pass (sound : Sound options b) (milliseconds : Nat) :
    Fine options b { b with now := b.now + milliseconds } := by
  have less (event : Nat) (inside : inWindow options.failureWindow (b.now + milliseconds) event = true) :
      inWindow options.failureWindow b.now event = true := by
    rw [inWindow, decide_eq_true_iff] at inside ⊢
    omega
  have later (events : List Nat) : current options.failureWindow (b.now + milliseconds) events =
      (current options.failureWindow b.now events).filter
        (inWindow options.failureWindow (b.now + milliseconds)) := (filter_of_imp less).symm
  have sound' : Sound options { b with now := b.now + milliseconds } := by
    refine ⟨sound.lastFailure, sound.halfOpen, sound.sorted, ?_, fun closed => ?_, fun closed => ?_⟩
    · exact fun timestamp among => Nat.le_add_right_of_le (sound.past timestamp among)
    · show current _ _ b.eventTimestamps = (current _ _ (failures b.log)).reverse
      rw [later, later, sound.window closed, List.filter_reverse]
    · show (current _ _ b.eventTimestamps).length < _
      rw [later]
      exact Nat.lt_of_le_of_lt (List.length_filter_le _ _) (sound.few closed)
  exact ⟨sound', forCause_of_same sound' rfl⟩

theorem Sound.of_calls (sound : Sound options b) (calls : List Call) (pendingHalfOpenRequests : Nat) :
    Sound options { b with calls, pendingHalfOpenRequests } :=
  ⟨sound.lastFailure, sound.halfOpen, sound.sorted, sound.past, sound.window, sound.few⟩

theorem fine_handleHalfOpenState {before : Breaker} (fine : Fine options before b) :
    Fine options before (b.handleHalfOpenState options).1 := by
  rw [Breaker.handleHalfOpenState]
  split
  · exact fine
  · exact ⟨fine.1.of_calls _ _, fine.2.direct, fine.2.halfOpens, fine.2.closes, fine.2.opens⟩

section

variable (sound : Sound options b)
include sound

theorem fine_self : Fine options b b := ⟨sound, forCause_of_same sound rfl⟩

theorem fine_execute : Fine options b (b.execute options).1 := by
  rw [Breaker.execute]
  cases state : b.state with
  | CLOSED =>
    have sound' := sound.of_calls (b.calls ++ [⟨.closed, false⟩]) b.pendingHalfOpenRequests
    rw [state] at sound'
    exact ⟨sound', forCause_of_same sound' state.symm⟩
  | HALF_OPEN => exact fine_handleHalfOpenState (fine_self sound)
  | OPEN =>
    simp only [Breaker.handleOpenState]
    split
    case isFalse => exact fine_self sound
    case isTrue passed =>
      have changed : ({ b with halfOpenCount := 0 } : Breaker).changeToState .HALF_OPEN =
          { b with halfOpenCount := 0, state := .HALF_OPEN, log := .became .HALF_OPEN :: b.log } := by
        rw [Breaker.changeToState, if_neg (by rw [state]; exact CircuitBreakerState.noConfusion)]
      have entered : since .HALF_OPEN (.became .HALF_OPEN :: b.log) = [] :=
        List.takeWhile_cons_of_neg (by simp)
      rw [changed]
      refine fine_handleHalfOpenState ⟨⟨CircuitBreakerState.noConfusion, fun _ => ?_, sound.sorted, sound.past,
        CircuitBreakerState.noConfusion, CircuitBreakerState.noConfusion⟩,
        ⟨fun _ => CircuitBreakerState.noConfusion, fun _ _ => ?_, fun half => ?_, fun closed => ?_⟩⟩
      · rw [entered]
        exact ⟨rfl, fun _ never => (by cases never)⟩
      · exact ⟨b.lastFailureTime, sound.lastFailure state, passed⟩
      · simp [state] at half
      · simp [state] at closed

/-- A failure that opens the breaker, or finds it open. -/
theorem fine_open {events : List Nat}
    (among : events.Sublist (b.recordFailure options).eventTimestamps)
    (enough : b.state = .CLOSED → b.AtLimit options) :
    Fine options b (({ b.recordFailure options with eventTimestamps := events } : Breaker).changeToState .OPEN) := by
  obtain ⟨sorted, past⟩ := sound.sorted_recordFailure
  have opened : (({ b.recordFailure options with eventTimestamps := events } : Breaker).changeToState .OPEN).state =
      .OPEN := by
    rw [Breaker.changeToState]
    split
    case isTrue same => exact same.symm
    case isFalse => rfl
  have frame : ∀ after, after = ({ b.recordFailure options with eventTimestamps := events } : Breaker).changeToState
      .OPEN → after.lastFailureTime = b.now ∧ after.eventTimestamps = events ∧ after.now = b.now ∧
        lastFailure after.log = some b.now ∧
        (b.state = .CLOSED → failures after.log = failures (b.recordFailure options).log) := by
    rintro after rfl
    rw [Breaker.changeToState]
    split
    case isTrue same => exact ⟨rfl, rfl, rfl, rfl, fun _ => rfl⟩
    case isFalse =>
      refine ⟨rfl, rfl, rfl, rfl, fun _ => ?_⟩
      rw [failures, since, List.takeWhile_cons_of_pos (by simp)]
      rfl
  obtain ⟨time, kept, clock, last, recorded⟩ := frame _ rfl
  generalize ({ b.recordFailure options with eventTimestamps := events } : Breaker).changeToState .OPEN = after at *
  refine ⟨⟨fun _ => ?_, fun half => ?_, ?_, ?_, fun closed => ?_, fun closed => ?_⟩,
    ⟨fun _ => ?_, fun _ half => ?_, fun _ closed => ?_, fun closed => ?_⟩⟩
  · rw [last, time]
  · simp [opened] at half
  · rw [kept]
    exact sorted.sublist among
  · rw [kept, clock]
    exact fun timestamp member => past timestamp (among.subset member)
  · simp [opened] at closed
  · simp [opened] at closed
  · rw [opened]
    exact CircuitBreakerState.noConfusion
  · simp [opened] at half
  · simp [opened] at closed
  · refine iff_of_true opened ?_
    have window := congrArg List.length (sound.window_recordFailure closed)
    rw [List.length_reverse] at window
    rw [clock, recorded closed, ← window]
    exact enough closed

theorem fine_failHalfOpen (harmless : b.Harmless options .halfOpen false) :
    Fine options b (b.failHalfOpen options) := fine_open sound (List.Sublist.refl _) harmless

theorem fine_failClosed (harmless : b.Harmless options .closed false) :
    Fine options b (b.failClosed options) := by
  rw [Breaker.failClosed]
  simp only
  split
  case isTrue enough => exact fine_open sound List.filter_sublist fun _ => enough
  case isFalse few =>
    obtain ⟨sorted, past⟩ := sound.sorted_recordFailure
    have sound' : Sound options { b.recordFailure options with
        eventTimestamps := current options.failureWindow b.now (b.recordFailure options).eventTimestamps } := by
      refine ⟨fun _ => rfl, fun half => absurd (harmless half) few, sorted.sublist List.filter_sublist,
        fun timestamp among => past timestamp (List.mem_of_mem_filter among), fun closed => ?_, fun closed => ?_⟩
      · have window := sound.window_recordFailure closed
        show current options.failureWindow b.now (current options.failureWindow b.now
          (b.recordFailure options).eventTimestamps) =
            (current options.failureWindow b.now (failures (b.recordFailure options).log)).reverse
        rw [← window]
        exact filter_of_imp fun _ => id
      · have again : current options.failureWindow b.now (current options.failureWindow b.now
            (b.recordFailure options).eventTimestamps) =
            current options.failureWindow b.now (b.recordFailure options).eventTimestamps :=
          filter_of_imp fun _ => id
        show (current options.failureWindow b.now (current options.failureWindow b.now
          (b.recordFailure options).eventTimestamps)).length < _
        rw [again]
        exact Nat.lt_of_not_le few
    exact ⟨sound', forCause_of_same sound' rfl⟩

end

theorem since_succeeded (state : CircuitBreakerState) (log : List Entry) :
    since state (.succeeded :: log) = .succeeded :: since state log :=
  List.takeWhile_cons_of_pos (by simp)

theorem failures_succeeded (log : List Entry) : failures (.succeeded :: log) = failures log := by
  rw [failures, since_succeeded]
  rfl

theorem fine_counted (sound : Sound options b) :
    Fine options b { b with halfOpenCount := b.halfOpenCount + 1, log := .succeeded :: b.log } := by
  have sound' : Sound options { b with halfOpenCount := b.halfOpenCount + 1, log := .succeeded :: b.log } := by
    refine ⟨sound.lastFailure, fun half => ?_, sound.sorted, sound.past, fun closed => ?_, sound.few⟩
    · obtain ⟨count, none_⟩ := sound.halfOpen half
      rw [since_succeeded, List.count_cons_self, count]
      refine ⟨rfl, fun time among => ?_⟩
      rcases List.mem_cons.1 among with never | old
      · cases never
      · exact none_ time old
    · rw [failures_succeeded]
      exact sound.window closed
  exact ⟨sound', forCause_of_same sound' rfl⟩

section

variable (positive : 0 < options.maxFailures) (sound : Sound options b)
include positive sound

theorem fine_cleared (closed : b.state = .CLOSED)
    (empty : current options.failureWindow b.now b.eventTimestamps = []) :
    Fine options b
      { b with halfOpenCount := b.halfOpenCount + 1, log := .succeeded :: b.log, eventTimestamps := [] } := by
  have sound' : Sound options { b with
      halfOpenCount := b.halfOpenCount + 1, log := .succeeded :: b.log, eventTimestamps := [] } := by
    refine ⟨sound.lastFailure, fun half => ?_, List.Pairwise.nil, fun _ never => (by cases never), fun _ => ?_,
      fun _ => positive⟩
    · simp [closed] at half
    · rw [failures_succeeded, ← sound.window closed, empty]
      rfl
  exact ⟨sound', forCause_of_same sound' rfl⟩

theorem fine_closed (half : b.state = .HALF_OPEN)
    (enough : options.halfOpenRequests ≤ b.halfOpenCount + 1) :
    Fine options b { b with
      state := .CLOSED
      halfOpenCount := b.halfOpenCount + 1
      log := .became .CLOSED :: .succeeded :: b.log
      eventTimestamps := [] } := by
  obtain ⟨count, none_⟩ := sound.halfOpen half
  have since_ : since .HALF_OPEN (.became .CLOSED :: .succeeded :: b.log) =
      .became .CLOSED :: .succeeded :: since .HALF_OPEN b.log := by
    rw [since, List.takeWhile_cons_of_pos (by simp), ← since_succeeded]
    rfl
  refine ⟨⟨CircuitBreakerState.noConfusion, CircuitBreakerState.noConfusion, List.Pairwise.nil,
    fun _ never => (by cases never), fun _ => ?_, fun _ => positive⟩,
    ⟨fun opened => ?_, fun _ never => (by cases never), fun _ _ => ?_, fun closed => ?_⟩⟩
  · have cleared : failures (.became .CLOSED :: .succeeded :: b.log) = [] := by
      rw [failures, since, List.takeWhile_cons_of_neg (by simp)]
      rfl
    rw [cleared]
    rfl
  · simp [half] at opened
  · rw [since_, List.count_cons_of_ne (by simp), List.count_cons_self, count]
    refine ⟨enough, fun time among => ?_⟩
    simp only [List.mem_cons, reduceCtorEq, false_or] at among
    exact none_ time among
  · simp [half] at closed

theorem fine_succeedHalfOpen
    (harmless : b.Harmless options .halfOpen true) : Fine options b (b.succeedHalfOpen options) := by
  rw [Breaker.succeedHalfOpen]
  simp only
  split
  case isFalse few => exact fine_counted sound
  case isTrue enough =>
    obtain ⟨notOpen, empty⟩ := harmless enough
    rw [Breaker.changeToState]
    split
    case isTrue same => exact fine_cleared positive sound same.symm (empty same.symm)
    case isFalse other =>
      have half : b.state = .HALF_OPEN := by
        cases state : b.state with
        | CLOSED => exact absurd state.symm other
        | OPEN => exact absurd state notOpen
        | HALF_OPEN => rfl
      exact fine_closed positive sound half enough

theorem fine_settle (call : Nat) (ok : Bool)
    (harmless : ∀ handler, b.calls[call]? = some ⟨handler, false⟩ → b.Harmless options handler ok) :
    Fine options b (b.settle options call ok) := by
  rw [Breaker.settle]
  cases here : b.calls[call]? with
  | none => exact fine_self sound
  | some known =>
    obtain ⟨handler, ended⟩ := known
    cases ended with
    | true => exact fine_self sound
    | false =>
      have harmless_ := harmless handler here
      have sound_ := sound.of_calls (b.calls.set call ⟨handler, true⟩) b.pendingHalfOpenRequests
      cases handler with
      | closed =>
        cases ok with
        | true => exact ⟨sound_, forCause_of_same sound_ rfl⟩
        | false =>
          have fine := fine_failClosed sound_ harmless_
          exact ⟨fine.1, fine.2.direct, fine.2.halfOpens, fine.2.closes, fine.2.opens⟩
      | halfOpen =>
        cases ok with
        | true =>
          have fine := fine_succeedHalfOpen positive sound_ harmless_
          exact ⟨fine.1.of_calls _ _, fine.2.direct, fine.2.halfOpens, fine.2.closes, fine.2.opens⟩
        | false =>
          have fine := fine_failHalfOpen sound_ harmless_
          exact ⟨fine.1.of_calls _ _, fine.2.direct, fine.2.halfOpens, fine.2.closes, fine.2.opens⟩

end

theorem fine_next (sound : Sound options b) (action : Action) (inTime : InTime options b action) :
    Fine options b (next options b action) := by
  cases action with
  | execute => exact fine_execute sound
  | settle call ok => exact fine_settle inTime.1 sound call ok inTime.2
  | pass milliseconds => exact fine_pass sound milliseconds

theorem sound_start (positive : 0 < options.maxFailures) (now : Nat) : Sound options { now } where
  lastFailure := fun never => by cases never
  halfOpen := fun never => by cases never
  sorted := List.Pairwise.nil
  past := fun _ never => by cases never
  window := fun _ => rfl
  few := fun _ => positive

theorem InTime.positive {action : Action} (inTime : InTime options b action) : 0 < options.maxFailures := by
  cases action with
  | execute => exact inTime
  | settle call ok => exact inTime.1
  | pass milliseconds => exact inTime

/-- In a run in which results come in time, the breaker changes its state only for cause. -/
theorem along_forCause (options : CircuitBreakerOptions) (now : Nat) (actions : List Action)
    (inTime : Along (next options) (InTime options) { now } actions) :
    Along (next options) (fun b action => ForCause options b (next options b action)) { now } actions := by
  cases actions with
  | nil => trivial
  | cons action actions =>
    have step (b : Breaker) (action : Action) (sound : Sound options b) (inTime : InTime options b action) :
        ForCause options b (next options b action) ∧ Sound options (next options b action) :=
      (fine_next sound action inTime).symm
    exact along_of_invariant step (sound_start inTime.1.positive now) inTime

def brief : CircuitBreakerOptions where
  timeout := 1000
  maxFailures := 1
  halfOpenRequests := 1
  failureWindow := 5000

theorem along_forCause_brief : Along (next brief) (fun b action => ForCause brief b (next brief b action)) { now := 0 }
    [.execute, .settle 0 false, .pass 1000, .execute, .settle 1 true, .execute] := by
  have positive : 0 < brief.maxFailures := Nat.zero_lt_one
  refine along_forCause brief 0 _ ⟨positive, ⟨positive, ?_⟩, positive, positive, ⟨positive, ?_⟩, positive, trivial⟩
  · rintro handler ⟨⟩ never
    cases never
  · rintro handler ⟨⟩ _
    exact ⟨fun never => (by cases never), fun never => (by cases never)⟩

/-- A call from before fails while the breaker is half open and opens it; then the call that tests it succeeds. -/
theorem not_forCause_stale :
    ¬ Along (next brief) (fun b action => ForCause brief b (next brief b action)) { now := 0 }
      ([.execute, .execute, .settle 0 false, .pass 1000, .execute, .settle 1 false] ++ [.settle 2 true]) :=
  fun along => (Along.here along).direct (by decide) (by decide)

end NodeAutomation.CircuitBreaker
