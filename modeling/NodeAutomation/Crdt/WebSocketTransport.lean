import Mathlib.Logic.Function.Basic
import NodeAutomation.Lib.Runs

/-! The WebSocket transport (`packages/@n8n/crdt/src/transports/websocket.ts`): one
socket field, one promise and several timers, shared by all attempts to connect. -/

namespace NodeAutomation.WebSocketTransport

inductive ReadyState where
  | connecting | opened | closing | closed
  deriving DecidableEq

def ReadyState.close : ReadyState → ReadyState
  | .connecting | .opened => .closing
  | state => state

inductive PromiseState where
  | pending | resolved | rejected
  deriving DecidableEq

def PromiseState.settle (promise result : PromiseState) : PromiseState :=
  if promise = .pending then result else promise

/-- One call of `doConnect`: whether its timeout runs, its socket and whether that
has its handlers, and its promise. -/
structure Attempt where
  timeoutRuns : Bool := false
  readyState : ReadyState := .closed
  handlers : Bool := false
  promise : PromiseState := .pending

structure WebSocketTransportConfig where
  /-- Whether `new WebSocket(url)` goes through. -/
  urlAccepted : Bool := true
  reconnect : Bool := true
  /-- None is `Infinity`. -/
  maxReconnectAttempts : Option Nat := none

/-- The fields of the transport, the first seven, and what the runtime holds for it:
its attempts by number, the reconnect timers that run, and for each call of `connect`
the attempt whose promise it returned, none where it returned a resolved one. -/
structure Transport where
  ws : Option Nat := none
  connected : Bool := false
  reconnectAttempts : Nat := 0
  reconnectTimeout : Option Nat := none
  shouldReconnect : Bool := false
  isConnecting : Bool := false
  connectionPromise : Option Nat := none
  attempts : Nat → Attempt := fun _ => {}
  attemptCount : Nat := 0
  timers : List Nat := []
  timerCount : Nat := 0
  calls : List (Option Nat) := []

/-- What happens to a transport; the numbers are those of attempts and of timers. -/
inductive Action where
  | connect
  | disconnect
  | onopen (attempt : Nat)
  | onclose (attempt : Nat)
  | onerror (attempt : Nat)
  | connectionTimeout (attempt : Nat)
  | reconnectTimer (timer : Nat)
  deriving DecidableEq

def Transport.update (t : Transport) (id : Nat) (change : Attempt → Attempt) : Transport :=
  { t with attempts := Function.update t.attempts id (change (t.attempts id)) }

/-- `this.ws.close()`, where there is a socket. -/
def Transport.closeSocket (t : Transport) : Transport :=
  t.ws.elim t fun id => t.update id fun a => { a with readyState := a.readyState.close }

def clearReconnectTimeout (t : Transport) : Transport :=
  t.reconnectTimeout.elim t fun timer =>
    { t with timers := t.timers.filter (· ≠ timer), reconnectTimeout := none }

variable (config : WebSocketTransportConfig)

/-- Where the socket cannot be made, the field keeps the one before. -/
def doConnect (t : Transport) : Transport :=
  let id := t.attemptCount
  let t := { t with isConnecting := true, attemptCount := id + 1 }
  if config.urlAccepted then
    { t.update id fun _ => { timeoutRuns := true, readyState := .connecting, handlers := true } with
      ws := some id }
  else { t.update id fun _ => { promise := .rejected } with isConnecting := false }

def connect (t : Transport) : Transport :=
  let t := clearReconnectTimeout t
  if t.connected then { t with calls := t.calls ++ [none] }
  else if t.isConnecting ∧ t.connectionPromise.isSome then
    { t with calls := t.calls ++ [t.connectionPromise] }
  else
    let id := t.attemptCount
    let t := doConnect config { t with shouldReconnect := config.reconnect }
    { t with connectionPromise := some id, calls := t.calls ++ [some id] }

def disconnect (t : Transport) : Transport :=
  let t := clearReconnectTimeout { t with shouldReconnect := false }
  let t := t.ws.elim t fun id =>
    { t.update id fun a => { a with handlers := false, readyState := a.readyState.close } with ws := none }
  { t with connected := false, isConnecting := false, connectionPromise := none }

def scheduleReconnect (t : Transport) : Transport :=
  if !t.shouldReconnect then t
  else if config.maxReconnectAttempts.any (· ≤ t.reconnectAttempts) then t
  else
    { t with
      reconnectAttempts := t.reconnectAttempts + 1
      reconnectTimeout := some t.timerCount
      timers := t.timerCount :: t.timers
      timerCount := t.timerCount + 1 }

def onopen (id : Nat) (t : Transport) : Transport :=
  if (t.attempts id).handlers then
    { t.update id fun a => { a with
        readyState := .opened, timeoutRuns := false, promise := a.promise.settle .resolved } with
      connected := true, isConnecting := false, reconnectAttempts := 0 }
  else t.update id fun a => { a with readyState := .opened }

def onclose (id : Nat) (t : Transport) : Transport :=
  if (t.attempts id).handlers then
    let t := { t.update id fun a => { a with readyState := .closed, timeoutRuns := false } with
      connected := false, isConnecting := false }
    if t.shouldReconnect then scheduleReconnect config t else t
  else t.update id fun a => { a with readyState := .closed }

def onerror (id : Nat) (t : Transport) : Transport :=
  if (t.attempts id).handlers then
    let t := t.update id fun a => { a with timeoutRuns := false }
    if t.isConnecting then
      { t.update id fun a => { a with promise := a.promise.settle .rejected } with isConnecting := false }
    else t
  else t

def connectionTimeout (id : Nat) (t : Transport) : Transport :=
  (t.update id fun a => { a with timeoutRuns := false }).closeSocket.update id
    fun a => { a with promise := a.promise.settle .rejected }

def reconnectTimer (timer : Nat) (t : Transport) : Transport :=
  doConnect config { t with timers := t.timers.filter (· ≠ timer), reconnectTimeout := none }

/-- A socket opens only while it is connecting, and raises nothing once it is closed;
a timer fires only while it runs. -/
def possible (t : Transport) : Action → Bool
  | .connect | .disconnect => true
  | .onopen id => (t.attempts id).readyState = .connecting
  | .onclose id | .onerror id => (t.attempts id).readyState ≠ .closed
  | .connectionTimeout id => (t.attempts id).timeoutRuns
  | .reconnectTimer timer => timer ∈ t.timers

def perform (t : Transport) : Action → Transport
  | .connect => connect config t
  | .disconnect => disconnect t
  | .onopen id => onopen id t
  | .onclose id => onclose config id t
  | .onerror id => onerror id t
  | .connectionTimeout id => connectionTimeout id t
  | .reconnectTimer timer => reconnectTimer config timer t

/-- Each action runs to its end, and the promises it settles have been followed
before the next one. -/
def next (t : Transport) (action : Action) : Transport :=
  if possible t action then perform config t action else t

def Transport.callResolved (t : Transport) (call : Nat) : Bool :=
  t.calls[call]?.any fun followed => followed.all fun id => (t.attempts id).promise = .resolved

/-- The socket is open, and delivers to the transport. -/
def Transport.Delivers (t : Transport) (id : Nat) : Prop :=
  (t.attempts id).readyState = .opened ∧ (t.attempts id).handlers = true

/-- A step of one honest connection. -/
structure Honest (t : Transport) (action : Action) : Prop where
  resolves : ∀ call, (next config t action).callResolved call = true → t.callResolved call = false →
    (next config t action).connected = true
  timeouts : ∀ id, action = .connectionTimeout id → ∀ other, other ≠ id →
    ((next config t action).attempts other).readyState = (t.attempts other).readyState
  oneSocket : ∀ id other, (next config t action).Delivers id → (next config t action).Delivers other →
    id = other

/-- `connect` is not called while a reconnect is under way after a promise that was
resolved, nor between the error of a socket and its close; and the timeout of an
abandoned attempt does not fire while the socket of another one is on its way or open. -/
def Careful (t : Transport) : Action → Prop
  | .connect => t.connected = false →
    if t.isConnecting then ∀ id, t.connectionPromise = some id → t.ws ≠ some id →
      (t.attempts id).promise ≠ .resolved
    else ∀ id, t.ws = some id → (t.attempts id).handlers = true → (t.attempts id).readyState = .closed
  | .connectionTimeout id => (t.attempts id).timeoutRuns = true → (t.attempts id).handlers = false →
    ∀ other, t.ws = some other → other ≠ id →
      (t.attempts other).readyState.close = (t.attempts other).readyState
  | _ => True

/-- The socket has its handlers and may still raise events. -/
def Transport.Live (t : Transport) (id : Nat) : Prop :=
  (t.attempts id).handlers = true ∧ (t.attempts id).readyState ≠ .closed

structure Sound (t : Transport) : Prop where
  live : ∀ id, t.Live id → t.ws = some id
  timeout : ∀ id, (t.attempts id).timeoutRuns = true → (t.attempts id).handlers = true → t.Live id
  promised : t.shouldReconnect = true → t.connectionPromise ≠ none
  underWay : t.isConnecting = true → t.connectionPromise ≠ none ∧
    ∀ id, t.ws = some id → (t.attempts id).promise ≠ .resolved
  timers : ∀ timer ∈ t.timers, t.reconnectTimeout = some timer ∧ t.shouldReconnect = true ∧
    ∀ id, ¬ t.Live id

variable {config} {t : Transport} {id : Nat}

theorem attempts_update (id : Nat) (change : Attempt → Attempt) (other : Nat) : (t.update id change).attempts other =
    if other = id then change (t.attempts id) else t.attempts other :=
  Function.update_apply ..

theorem Sound.update (sound : Sound t) (id : Nat) (change : Attempt → Attempt)
    (live : (change (t.attempts id)).handlers = true → (change (t.attempts id)).readyState ≠ .closed →
      t.Live id)
    (handlers : (change (t.attempts id)).handlers = true → (t.attempts id).handlers = true)
    (timeout : (change (t.attempts id)).handlers = true → (change (t.attempts id)).timeoutRuns = true →
      (t.attempts id).timeoutRuns = true ∧
        ((t.attempts id).readyState ≠ .closed → (change (t.attempts id)).readyState ≠ .closed))
    (promise : t.isConnecting = true → (change (t.attempts id)).promise = .resolved →
      (t.attempts id).promise = .resolved) : Sound (t.update id change) := by
  have liveBefore (other : Nat) (h : (t.update id change).Live other) : t.Live other := by
    rw [Transport.Live, attempts_update] at h
    split at h
    case isTrue same => exact same ▸ live h.1 h.2
    case isFalse => exact h
  refine ⟨fun other h => sound.live other (liveBefore other h), fun other runs has => ?_, sound.promised,
    fun connecting => ⟨(sound.underWay connecting).1, fun other here => ?_⟩, fun timer runs => ?_⟩
  · rw [attempts_update] at runs has
    rw [Transport.Live, attempts_update]
    split at runs
    case isTrue same =>
      rw [if_pos same] at has ⊢
      obtain ⟨ran, stays⟩ := timeout has runs
      exact ⟨has, stays (sound.timeout id ran (handlers has)).2⟩
    case isFalse differ =>
      rw [if_neg differ] at has ⊢
      exact sound.timeout other runs has
  · rw [attempts_update]
    split
    case isTrue same =>
      have unresolved := (sound.underWay connecting).2 other here
      exact fun resolved => unresolved (same ▸ promise connecting resolved)
    case isFalse => exact (sound.underWay connecting).2 other here
  · obtain ⟨kept, reconnects, idle⟩ := sound.timers timer runs
    exact ⟨kept, reconnects, fun other h => idle other (liveBefore other h)⟩

theorem ReadyState.close_eq_closed {state : ReadyState} : state.close = .closed ↔ state = .closed := by
  cases state <;> decide

theorem PromiseState.settle_rejected {promise : PromiseState} :
    promise.settle .rejected = .resolved ↔ promise = .resolved := by
  cases promise <;> decide

section

variable (sound : Sound t)
include sound

theorem Sound.closeSocket : Sound t.closeSocket := by
  rw [Transport.closeSocket]
  cases t.ws with
  | none => exact sound
  | some id =>
    refine sound.update id (fun a => { a with readyState := a.readyState.close })
      (fun has notClosed => ⟨has, fun same => ?_⟩) (fun has => has)
      (fun _ runs => ⟨runs, fun notClosed same => ?_⟩) (fun _ resolved => resolved)
    · exact notClosed (ReadyState.close_eq_closed.2 same)
    · exact notClosed (ReadyState.close_eq_closed.1 same)

/-- Where nothing is under way, whether the transport is connected does not matter. -/
theorem Sound.settled (connected : Bool) (reconnectAttempts : Nat) :
    Sound { t with
      connected := connected, isConnecting := false, reconnectAttempts := reconnectAttempts } :=
  ⟨sound.live, sound.timeout, sound.promised, fun connecting => absurd connecting Bool.false_ne_true,
    sound.timers⟩

theorem Sound.stopTimeout (id : Nat) :
    Sound (t.update id fun a => { a with timeoutRuns := false }) := by
  refine sound.update _ _ (fun has notClosed => ⟨has, notClosed⟩) (fun has => has) (fun _ runs => ?_)
    (fun _ resolved => resolved)
  exact absurd runs Bool.false_ne_true

theorem Sound.onopen (opens : (t.attempts id).readyState = .connecting) :
    Sound (onopen id t) := by
  have notClosed : (t.attempts id).readyState ≠ .closed := by simp [opens]
  rw [WebSocketTransport.onopen]
  split
  case isTrue has =>
    have opened := (sound.settled true 0).update id fun a => { a with
      readyState := .opened, timeoutRuns := false, promise := a.promise.settle .resolved }
    exact opened (fun _ _ => ⟨has, notClosed⟩) (fun has => has) (by simp) (by simp)
  case isFalse none =>
    exact sound.update _ _ (fun has _ => ⟨has, notClosed⟩) (fun has => has) (by simp)
      (fun _ resolved => resolved)

theorem Sound.onerror : Sound (onerror id t) := by
  have stopped := sound.stopTimeout id
  rw [WebSocketTransport.onerror]
  split
  case isTrue =>
    dsimp only
    split
    case isTrue =>
      have rejected := (stopped.settled t.connected t.reconnectAttempts).update id
        fun a => { a with promise := a.promise.settle .rejected }
      exact rejected (fun has notClosed => ⟨has, notClosed⟩) (fun has => has)
        (fun _ runs => ⟨runs, fun notClosed => notClosed⟩) (by simp)
    case isFalse => exact stopped
  case isFalse => exact sound

theorem Sound.connectionTimeout : Sound (connectionTimeout id t) := by
  refine (sound.stopTimeout id).closeSocket.update _ _ (fun has notClosed => ⟨has, notClosed⟩)
    (fun has => has) (fun _ runs => ⟨runs, fun notClosed => notClosed⟩) (fun _ resolved => ?_)
  exact PromiseState.settle_rejected.1 resolved

theorem Sound.scheduleReconnect (idle : ∀ id, ¬ t.Live id) (still : t.timers = []) :
    Sound (scheduleReconnect config t) := by
  rw [WebSocketTransport.scheduleReconnect]
  split
  case isTrue => exact sound
  case isFalse reconnects =>
    split
    case isTrue => exact sound
    case isFalse =>
      refine ⟨sound.live, sound.timeout, sound.promised, sound.underWay, fun timer runs => ?_⟩
      simp only [still, List.mem_singleton] at runs
      exact ⟨by rw [runs], by simpa using reconnects, idle⟩

/-- Reconnect timers run only while no socket is live. -/
theorem Sound.still (live : t.Live id) : t.timers = [] := by
  refine List.eq_nil_iff_forall_not_mem.2 fun timer runs => ?_
  exact (sound.timers timer runs).2.2 id live

theorem Sound.onclose (raised : (t.attempts id).readyState ≠ .closed) :
    Sound (onclose config id t) := by
  rw [WebSocketTransport.onclose]
  split
  case isTrue has =>
    have closed := (sound.settled false t.reconnectAttempts).update id
      (fun a => { a with readyState := .closed, timeoutRuns := false })
      (by simp) (fun has => has) (by simp) (by simp)
    have idle (other : Nat) : ¬ (t.update id fun a =>
        { a with readyState := .closed, timeoutRuns := false }).Live other := by
      -- the only live socket was the one that closes
      rw [Transport.Live, attempts_update]
      split
      case isTrue => exact fun h => h.2 rfl
      case isFalse differ =>
        intro h
        have same := (sound.live other h).symm.trans (sound.live id ⟨has, raised⟩)
        exact differ (Option.some.inj same)
    have still := sound.still ⟨has, raised⟩
    dsimp only
    split
    · exact closed.scheduleReconnect idle still
    · exact closed
  case isFalse none =>
    exact sound.update _ _ (fun has => absurd has none) (fun has => has) (fun has => absurd has none)
      (fun _ resolved => resolved)

theorem Sound.clearReconnectTimeout : Sound (clearReconnectTimeout t) := by
  rw [WebSocketTransport.clearReconnectTimeout]
  cases kept : t.reconnectTimeout with
  | none => exact sound
  | some timer =>
    refine ⟨sound.live, sound.timeout, sound.promised, sound.underWay, fun other runs => ?_⟩
    obtain ⟨runs, differ⟩ := List.mem_filter.1 runs
    have same := kept.symm.trans (sound.timers other runs).1
    exact absurd (Option.some.inj same).symm (by simpa using differ)

theorem Sound.timers_clearReconnectTimeout :
    (WebSocketTransport.clearReconnectTimeout t).timers = [] := by
  refine List.eq_nil_iff_forall_not_mem.2 fun timer runs => ?_
  have none := (sound.clearReconnectTimeout.timers timer runs).1
  rw [WebSocketTransport.clearReconnectTimeout] at none
  cases kept : t.reconnectTimeout <;> simp [kept] at none

/-- A new attempt, where no socket is live: it is the only one. -/
theorem Sound.doConnect (idle : ∀ id, ¬ t.Live id) (still : t.timers = [])
    (promised : t.connectionPromise ≠ none) : Sound (doConnect config t) := by
  have noTimer (timer : Nat) (runs : timer ∈ t.timers) : False := by simp [still] at runs
  rw [WebSocketTransport.doConnect]
  split
  case isTrue =>
    refine ⟨fun id live => ?_, fun id runs has => ?_, fun _ => promised, fun _ => ⟨promised, fun id here => ?_⟩,
      fun timer runs => (noTimer timer runs).elim⟩
    · rw [Transport.Live, attempts_update] at live
      split at live
      case isTrue same => exact congrArg some same.symm
      case isFalse => exact absurd live (idle id)
    · rw [attempts_update] at runs has
      rw [Transport.Live, attempts_update]
      split at runs
      case isTrue same => simp [same]
      case isFalse differ =>
        rw [if_neg differ] at has
        exact absurd (sound.timeout id runs has) (idle id)
    · rw [attempts_update, if_pos (Option.some.inj here).symm]
      simp
  case isFalse =>
    have counted : Sound { t with isConnecting := false, attemptCount := t.attemptCount + 1 } :=
      ⟨sound.live, sound.timeout, sound.promised, fun connecting => absurd connecting Bool.false_ne_true,
        sound.timers⟩
    exact counted.update t.attemptCount (fun _ => { promise := .rejected }) (by simp) (by simp) (by simp) (by simp)

end

/-- The attempts, and what decides about `connect`, are not touched. -/
theorem clearReconnectTimeout_eq (t : Transport) : clearReconnectTimeout t =
    { t with
      timers := (clearReconnectTimeout t).timers
      reconnectTimeout := (clearReconnectTimeout t).reconnectTimeout } := by
  rw [clearReconnectTimeout]
  cases t.reconnectTimeout <;> rfl

theorem doConnect_promised (t : Transport) (promise : Option Nat) (calls : List (Option Nat)) :
    { doConnect config t with connectionPromise := promise, calls := calls } =
      doConnect config { t with connectionPromise := promise, calls := calls } := by
  rw [doConnect, doConnect]
  split <;> rfl

section

variable (sound : Sound t)
include sound

theorem Sound.stop (still : t.timers = []) (ws : Option Nat)
    (live : ∀ id, t.Live id → ws = some id) : Sound { t with
      ws := ws, shouldReconnect := false, connected := false, isConnecting := false,
      connectionPromise := none } where
  live := live
  timeout := sound.timeout
  promised := fun reconnects => absurd reconnects Bool.false_ne_true
  underWay := fun connecting => absurd connecting Bool.false_ne_true
  timers := fun timer runs => by simp [still] at runs

theorem Sound.disconnect : Sound (disconnect t) := by
  have still := sound.timers_clearReconnectTimeout
  have cleared := sound.clearReconnectTimeout
  have commutes : WebSocketTransport.clearReconnectTimeout { t with shouldReconnect := false } =
      { WebSocketTransport.clearReconnectTimeout t with shouldReconnect := false } := by
    cases kept : t.reconnectTimeout <;> simp [WebSocketTransport.clearReconnectTimeout, kept]
  rw [WebSocketTransport.disconnect, commutes]
  generalize WebSocketTransport.clearReconnectTimeout t = t at still cleared
  dsimp only
  cases here : t.ws with
  | none => exact cleared.stop still none fun id live => here.symm.trans (cleared.live id live)
  | some id =>
    have closed := cleared.update id
      (fun a => { a with handlers := false, readyState := a.readyState.close })
      (by simp) (by simp) (by simp) (fun _ resolved => resolved)
    refine closed.stop still none fun other live => ?_
    have same := Option.some.inj (here.symm.trans (closed.live other live))
    rw [Transport.Live, attempts_update, if_pos same.symm] at live
    exact absurd live.1 Bool.false_ne_true

theorem Sound.connect (careful : Careful t .connect) : Sound (connect config t) := by
  have still := sound.timers_clearReconnectTimeout
  have cleared := sound.clearReconnectTimeout
  have careful : Careful (WebSocketTransport.clearReconnectTimeout t) .connect := by
    rw [clearReconnectTimeout_eq]
    exact careful
  rw [WebSocketTransport.connect]
  generalize WebSocketTransport.clearReconnectTimeout t = t at still cleared careful
  split
  case isTrue => exact ⟨cleared.live, cleared.timeout, cleared.promised, cleared.underWay, cleared.timers⟩
  case isFalse disconnected =>
    have careful := careful (by simpa using disconnected)
    split
    case isTrue => exact ⟨cleared.live, cleared.timeout, cleared.promised, cleared.underWay, cleared.timers⟩
    case isFalse idle =>
      have notConnecting : t.isConnecting = false := by
        by_contra connecting
        have connecting : t.isConnecting = true := by simpa using connecting
        exact idle ⟨connecting, Option.isSome_iff_ne_none.2 (cleared.underWay connecting).1⟩
      rw [notConnecting, if_neg Bool.false_ne_true] at careful
      rw [doConnect_promised]
      refine Sound.doConnect ⟨cleared.live, cleared.timeout, fun _ => ?_, fun connecting => ?_,
        fun timer runs => ?_⟩ (fun id live => live.2 (careful id (cleared.live id live) live.1)) still ?_
      · simp
      · exact absurd (connecting.symm.trans notConnecting) (by decide)
      · simp [still] at runs
      · simp

theorem Sound.reconnectTimer {timer : Nat} (runs : timer ∈ t.timers) :
    Sound (reconnectTimer config timer t) := by
  obtain ⟨kept, reconnects, idle⟩ := sound.timers timer runs
  have still : t.timers.filter (· ≠ timer) = [] := by
    refine List.filter_eq_nil_iff.2 fun other runs => ?_
    have same := (sound.timers other runs).1.symm.trans kept
    simpa using Option.some.inj same
  rw [WebSocketTransport.reconnectTimer, still]
  refine Sound.doConnect ⟨sound.live, sound.timeout, sound.promised, sound.underWay, fun other runs => ?_⟩
    idle rfl (sound.promised reconnects)
  cases runs

theorem Sound.next (action : Action) (careful : Careful t action) :
    Sound (next config t action) := by
  rw [WebSocketTransport.next]
  split
  case isFalse => exact sound
  case isTrue happens =>
    cases action with
    | connect => exact sound.connect careful
    | disconnect => exact sound.disconnect
    | onopen id => exact sound.onopen (of_decide_eq_true happens)
    | onclose id => exact sound.onclose (of_decide_eq_true happens)
    | onerror id => exact sound.onerror
    | connectionTimeout id => exact sound.connectionTimeout
    | reconnectTimer timer => exact sound.reconnectTimer (of_decide_eq_true happens)

end

/-- The calls of before, and at most one more, which follows a promise that is not
resolved. -/
def CallsKept (before after : Transport) : Prop :=
  after.calls = before.calls ∨ ∃ followed, after.calls = before.calls ++ [some followed] ∧
    (after.attempts followed).promise ≠ .resolved

theorem CallsKept.callResolved {after : Transport} {call : Nat} (kept : CallsKept t after)
    (promises : ∀ id, (after.attempts id).promise = .resolved → (t.attempts id).promise = .resolved)
    (resolved : after.callResolved call = true) : t.callResolved call = true := by
  simp only [Transport.callResolved, Option.any_eq_true, Option.all_eq_true, decide_eq_true_eq] at *
  obtain ⟨call, made, followed⟩ := resolved
  cases kept with
  | inl same => exact ⟨call, by rwa [← same], fun id here => promises id (followed id here)⟩
  | inr more =>
    obtain ⟨last, more, unresolved⟩ := more
    rw [more, List.getElem?_append] at made
    split at made
    case isTrue => exact ⟨call, made, fun id here => promises id (followed id here)⟩
    case isFalse =>
      have isLast := List.mem_singleton.1 (List.mem_of_getElem? made)
      exact absurd (followed last isLast) unresolved

theorem attempts_closeSocket (other : Nat) : t.closeSocket.attempts other =
    if t.ws = some other then { t.attempts other with readyState := (t.attempts other).readyState.close }
    else t.attempts other := by
  rw [Transport.closeSocket]
  cases here : t.ws with
  | none => rfl
  | some id =>
    simp only [Option.elim, attempts_update]
    grind

theorem quiet_doConnect (config : WebSocketTransportConfig) (t : Transport) : (doConnect config t).calls = t.calls ∧ ∀ id,
    ((doConnect config t).attempts id).promise = .resolved →
      id ≠ t.attemptCount ∧ (t.attempts id).promise = .resolved := by
  rw [doConnect]
  refine ⟨by split <;> rfl, fun id resolved => ?_⟩
  split at resolved <;> rw [attempts_update] at resolved <;> grind

theorem quiet_disconnect : (disconnect t).calls = t.calls ∧ ∀ id,
    ((disconnect t).attempts id).promise = (t.attempts id).promise := by
  rw [disconnect, clearReconnectTimeout_eq]
  cases t.ws with
  | none => exact ⟨rfl, fun _ => rfl⟩
  | some ws =>
    refine ⟨rfl, fun id => ?_⟩
    dsimp only [Option.elim]
    rw [attempts_update]
    grind

theorem quiet_onclose : (onclose config id t).calls = t.calls ∧ ∀ other,
    ((onclose config id t).attempts other).promise = (t.attempts other).promise := by
  simp only [onclose, scheduleReconnect]
  refine ⟨by grind [Transport.update], fun other => ?_⟩
  have closed := attempts_update (t := t) id
    (fun a => { a with readyState := .closed, timeoutRuns := false }) other
  grind [attempts_update]

theorem quiet_onerror : (onerror id t).calls = t.calls ∧ ∀ other,
    ((onerror id t).attempts other).promise = .resolved → (t.attempts other).promise = .resolved := by
  rw [onerror]
  split
  case isTrue =>
    dsimp only
    split <;> refine ⟨rfl, fun other => ?_⟩ <;> simp only [attempts_update] <;> grind [PromiseState.settle]
  case isFalse => exact ⟨rfl, fun _ resolved => resolved⟩

theorem quiet_connectionTimeout : (connectionTimeout id t).calls = t.calls ∧ ∀ other,
    ((connectionTimeout id t).attempts other).promise = .resolved →
      (t.attempts other).promise = .resolved := by
  simp only [connectionTimeout, attempts_update, attempts_closeSocket]
  refine ⟨?_, fun other => ?_⟩
  · rw [Transport.closeSocket]
    cases (t.update id _).ws <;> rfl
  · grind [PromiseState.settle]

/-- A call that returns a promise resolved already is made while connected. -/
theorem connect_resolves (sound : Sound t) (careful : Careful t .connect) {call : Nat}
    (resolved : (connect config t).callResolved call = true) (before : t.callResolved call = false) :
    (connect config t).connected = true := by
  have notBefore : ¬ t.callResolved call = true := by simp [before]
  rw [connect, clearReconnectTimeout_eq] at resolved ⊢
  dsimp only at resolved ⊢
  split at resolved
  case isTrue connected => rw [if_pos connected]; exact connected
  case isFalse disconnected =>
    have careful := careful (by simpa using disconnected)
    split at resolved
    case isTrue waits =>
      rw [if_pos waits.1] at careful
      obtain ⟨id, promised⟩ := Option.isSome_iff_exists.1 waits.2
      have unresolved : (t.attempts id).promise ≠ .resolved := by
        by_cases here : t.ws = some id
        · exact (sound.underWay waits.1).2 id here
        · exact careful id promised here
      have kept : CallsKept t { t with calls := t.calls ++ [t.connectionPromise] } :=
        .inr ⟨id, by rw [promised], unresolved⟩
      exact absurd (kept.callResolved (fun _ resolved => resolved) resolved) notBefore
    case isFalse =>
      obtain ⟨calls, promises⟩ := quiet_doConnect config { t with
        timers := (clearReconnectTimeout t).timers
        reconnectTimeout := (clearReconnectTimeout t).reconnectTimeout
        shouldReconnect := config.reconnect }
      refine absurd (CallsKept.callResolved ?_ ?_ resolved) notBefore
      · exact .inr ⟨t.attemptCount, congrArg (· ++ [some t.attemptCount]) calls,
          fun resolved => (promises _ resolved).1 rfl⟩
      · exact fun id resolved => (promises id resolved).2

/-- A call resolves at a step only while connected. -/
theorem perform_resolves (sound : Sound t) (action : Action) (careful : Careful t action) {call : Nat}
    (resolved : (perform config t action).callResolved call = true) (before : t.callResolved call = false) :
    (perform config t action).connected = true := by
  have old (calls : (perform config t action).calls = t.calls) (promises : ∀ id,
      ((perform config t action).attempts id).promise = .resolved →
        (t.attempts id).promise = .resolved) : (perform config t action).connected = true :=
    absurd (CallsKept.callResolved (.inl calls) promises resolved) (by simp [before])
  cases action with
  | connect => exact connect_resolves sound careful resolved before
  | disconnect => exact old quiet_disconnect.1 fun id resolved => quiet_disconnect.2 id ▸ resolved
  | onopen id =>
    rw [perform, onopen] at old ⊢
    split at old
    case isTrue has => rw [if_pos has]
    case isFalse none =>
      rw [if_neg none]
      refine old rfl fun other resolved => ?_
      rw [attempts_update] at resolved
      grind
  | onclose id => exact old quiet_onclose.1 fun id resolved => quiet_onclose.2 id ▸ resolved
  | onerror id => exact old quiet_onerror.1 quiet_onerror.2
  | connectionTimeout id => exact old quiet_connectionTimeout.1 quiet_connectionTimeout.2
  | reconnectTimer timer =>
    exact old (quiet_doConnect config _).1 fun id resolved => (quiet_doConnect config _ |>.2 id resolved).2

/-- The timeout of an attempt that still has its handlers finds its own socket. -/
theorem connectionTimeout_other {other : Nat} (sound : Sound t) (careful : Careful t (.connectionTimeout id))
    (runs : (t.attempts id).timeoutRuns = true) (differ : other ≠ id) :
    ((connectionTimeout id t).attempts other).readyState = (t.attempts other).readyState := by
  simp only [connectionTimeout, attempts_update, attempts_closeSocket, if_neg differ]
  split
  case isTrue here =>
    cases has : (t.attempts id).handlers with
    | false => exact careful runs has other here differ
    | true =>
      have same := here.symm.trans (sound.live id (sound.timeout id runs has))
      exact absurd (Option.some.inj same) differ
  case isFalse => rfl

theorem honest_next (sound : Sound t) (action : Action) (careful : Careful t action) :
    Honest config t action := by
  have sound' : Sound (next config t action) := sound.next action careful
  refine ⟨fun call resolved before => ?_, fun id fires other differ => ?_, fun id other first second => ?_⟩
  · rw [next] at resolved ⊢
    split at resolved
    case isTrue happens => rw [if_pos happens]; exact perform_resolves sound action careful resolved before
    case isFalse => exact absurd resolved (by simp [before])
  · rw [fires] at careful
    rw [fires, next]
    split
    case isTrue runs => exact connectionTimeout_other sound careful runs differ
    case isFalse => rfl
  · have first := sound'.live id ⟨first.2, by simp [first.1]⟩
    have second := sound'.live other ⟨second.2, by simp [second.1]⟩
    exact Option.some.inj (first.symm.trans second)

theorem sound_initial : Sound {} where
  live := fun id live => absurd live.1 Bool.false_ne_true
  timeout := fun id runs => absurd runs Bool.false_ne_true
  promised := fun reconnects => absurd reconnects Bool.false_ne_true
  underWay := fun connecting => absurd connecting Bool.false_ne_true
  timers := fun timer runs => by cases runs

/-- A run whose steps are all careful keeps one honest connection. -/
theorem honest_of_careful (config : WebSocketTransportConfig) (actions : List Action)
    (careful : Runs.Along (next config) Careful {} actions) :
    Runs.Along (next config) (Honest config) {} actions :=
  Runs.along_of_invariant (I := Sound)
    (fun _ action sound careful => ⟨honest_next sound action careful, sound.next action careful⟩)
    sound_initial careful

/-- A lost connection, a reconnect that fails, an attempt that is given up, and one more. -/
theorem reconnecting_honest : Runs.Along (next {}) (Honest {}) {}
    [.connect, .connect, .onopen 0, .onclose 0, .reconnectTimer 0, .onerror 1, .onclose 1, .connect,
      .disconnect, .onclose 2, .connectionTimeout 2, .connect, .onopen 3, .connect] := by
  refine honest_of_careful {} _ ?_
  simp [Runs.Along, Careful, next, possible, perform, connect, clearReconnectTimeout, doConnect, disconnect,
    onopen, onclose, onerror, connectionTimeout, reconnectTimer, scheduleReconnect, Transport.update,
    Transport.closeSocket, ReadyState.close, PromiseState.settle, Function.update_apply]

/-- `connect` during a reconnect returns the old promise, the timeout of an attempt
that was given up closes an open socket, and after an error before its close there
come to be two sockets. -/
theorem not_honest :
    ¬ Runs.Along (next {}) (Honest {}) {} [.connect, .onopen 0, .onclose 0, .reconnectTimer 0, .connect] ∧
    ¬ Runs.Along (next {}) (Honest {}) {}
      [.connect, .disconnect, .connect, .onopen 1, .connectionTimeout 0] ∧
    ¬ Runs.Along (next {}) (Honest {}) {}
      [.connect, .onerror 0, .connect, .onclose 0, .onopen 1, .reconnectTimer 0, .onopen 2] := by
  refine ⟨fun h => ?_, fun h => ?_, fun h => ?_⟩
  · have connected := h.2.2.2.2.1.resolves 1 (by decide) (by decide)
    exact absurd connected (by decide)
  · have same := h.2.2.2.2.1.timeouts 0 rfl 1 (by decide)
    exact absurd same (by decide)
  · have same := h.2.2.2.2.2.2.1.oneSocket 1 2 ⟨by decide, by decide⟩ ⟨by decide, by decide⟩
    exact absurd same (by decide)

end NodeAutomation.WebSocketTransport
