import NodeAutomation.Lib.Interleaving
import Mathlib.Data.Finset.SDiff
import Mathlib.Data.Finset.Union

/-! Two documents and their sync providers (`packages/@n8n/crdt/src/sync/base-sync-provider.ts`)
over linked transports (`packages/@n8n/crdt/src/transports/mock.ts`). A document is the set of
updates it has applied. A message that is sent is delivered at a later step; the runs in which
it is delivered at the next one are those of `MockTransport`. -/

namespace NodeAutomation.SyncProvider

open Interleaving

variable {α : Type} [DecidableEq α]

inductive Side where
  | left
  | right
  deriving DecidableEq

def Side.peer : Side → Side
  | left => right
  | right => left

/-- A document, its transport and its provider. Each subscription is a handler of the
transport's data with one of the document's updates; `unsubscribe` tells that the provider can
end the last of them. -/
structure Peer (α : Type) where
  doc : Finset α := ∅
  connected : Bool := false
  subscriptions : Nat := 0
  unsubscribe : Bool := false
  syncing : Bool := false
  deriving DecidableEq

/-- Messages are in flight to a side. -/
structure Shared (α : Type) where
  left : Peer α := {}
  right : Peer α := {}
  inFlight : List (Side × Finset α) := []
  deriving DecidableEq

namespace Shared

def get (s : Shared α) : Side → Peer α
  | .left => s.left
  | .right => s.right

def modify (s : Shared α) (side : Side) (f : Peer α → Peer α) : Shared α :=
  match side with
  | .left => { s with left := f s.left }
  | .right => { s with right := f s.right }

/-- `transport.send`, which throws where it is not connected. -/
def send (s : Shared α) (side : Side) (data : Finset α) : Option (Shared α) :=
  if (s.get side).connected then some { s with inFlight := s.inFlight ++ [(side.peer, data)] } else none

/-- The handlers of `onUpdate`, one for each subscription. -/
def sendUpdate (s : Shared α) (side : Side) (update : Finset α) : Shared α :=
  (List.range (s.get side).subscriptions).foldl
    (fun s _ => if (s.get side).connected then (s.send side update).getD s else s) s

def applyUpdate (s : Shared α) (side : Side) (update : Finset α) : Shared α :=
  let new := update \ (s.get side).doc
  let applied := s.modify side ({ · with doc := (s.get side).doc ∪ update })
  if new = ∅ then applied else applied.sendUpdate side new

/-- `deliver`: to each receive handler. -/
def receive (s : Shared α) (side : Side) (data : Finset α) : Shared α :=
  (List.range (s.get side).subscriptions).foldl (fun s _ => s.applyUpdate side data) s

end Shared

inductive Invocation (α : Type) where
  | start (side : Side)
  | stop (side : Side)
  | edit (side : Side) (update : Finset α)
  deriving DecidableEq

/-- `start` waits for its transport to connect. -/
inductive Stage where
  | connecting (side : Side)
  | finished
  deriving DecidableEq

inductive Event where
  | deliver (index : Nat)
  deriving DecidableEq

def invoke (s : Shared α) (_ : Nat) : Invocation α → Shared α × Stage
  | .start side =>
    if (s.get side).syncing then (s, .finished)
    else (s.modify side ({ · with connected := true }), .connecting side)
  | .stop side =>
    if (s.get side).syncing then
      (s.modify side fun peer =>
        { peer with
          subscriptions := if peer.unsubscribe then peer.subscriptions - 1 else peer.subscriptions
          unsubscribe := false
          connected := false
          syncing := false }, .finished)
    else (s, .finished)
  | .edit side update => (s.applyUpdate side update, .finished)

def proceed (s : Shared α) (_ : Nat) (stage : Stage) (_ : Unit) : Shared α × Stage :=
  match stage with
  | .connecting side =>
    let subscribed := s.modify side fun peer =>
      { peer with subscriptions := peer.subscriptions + 1, unsubscribe := true }
    match subscribed.send side (s.get side).doc with
    | some sent => (sent.modify side ({ · with syncing := true }), .finished)
    | none => (subscribed, .finished)
  | .finished => (s, .finished)

def environment (s : Shared α) : Event → Shared α
  | .deliver index =>
    match s.inFlight[index]? with
    | none => s
    | some (side, data) => { s with inFlight := s.inFlight.eraseIdx index }.receive side data

def system : System (Shared α) Stage (Invocation α) Unit Event where
  invoke := invoke
  proceed := proceed
  environment := environment

omit [DecidableEq α] in
/-- Once both are syncing and no message is in flight, both documents have applied the same
updates. -/
def Converged (s : Shared α) : Prop :=
  s.left.syncing = true → s.right.syncing = true → s.inFlight = [] → s.left.doc = s.right.doc

/-- A message that reaches a side without a handler has nothing that the side has not applied. -/
def Lossless (config : Config (Shared α) Stage) : Action (Invocation α) Unit Event → Prop
  | .environment (.deliver index) =>
    ∀ message ∈ config.shared.inFlight[index]?, (config.shared.get message.1).subscriptions = 0 →
      message.2 ⊆ (config.shared.get message.1).doc
  | .invoke _ | .proceed _ _ => True

instance (config : Config (Shared α) Stage) : DecidablePred (Lossless config)
  | .environment (.deliver index) =>
    inferInstanceAs (Decidable (∀ message ∈ config.shared.inFlight[index]?,
      (config.shared.get message.1).subscriptions = 0 → message.2 ⊆ (config.shared.get message.1).doc))
  | .invoke _ | .proceed _ _ => inferInstanceAs (Decidable True)

/-- What a side has applied, its peer has applied, or it is on its way to the peer. -/
def Covered (s : Shared α) (side : Side) : Prop :=
  ∀ x ∈ (s.get side).doc, x ∈ (s.get side.peer).doc ∨ ∃ message ∈ s.inFlight, message.1 = side.peer ∧ x ∈ message.2

structure Synced (s : Shared α) (side : Side) : Prop where
  connected : (s.get side).connected = true
  subscribed : 0 < (s.get side).subscriptions
  covered : Covered s side

def Sound (s : Shared α) : Prop := ∀ side, (s.get side).syncing = true → Synced s side

variable {s s' : Shared α} {side other : Side} {data : Finset α} {f : Peer α → Peer α}

theorem Side.eq_or_peer (side other : Side) : other = side ∨ other = side.peer := by
  cases side <;> cases other <;> decide

theorem Side.peer_peer (side : Side) : side.peer.peer = side := by
  cases side <;> rfl

theorem Side.peer_ne (side : Side) : side.peer ≠ side := by
  cases side <;> decide

omit [DecidableEq α] in
@[simp] theorem get_modify_self (s : Shared α) (side : Side) (f : Peer α → Peer α) :
    (s.modify side f).get side = f (s.get side) := by
  cases side <;> rfl

omit [DecidableEq α] in
@[simp] theorem get_modify_peer (s : Shared α) (side : Side) (f : Peer α → Peer α) :
    (s.modify side f).get side.peer = s.get side.peer := by
  cases side <;> rfl

omit [DecidableEq α] in
@[simp] theorem inFlight_modify (s : Shared α) (side : Side) (f : Peer α → Peer α) :
    (s.modify side f).inFlight = s.inFlight := by
  cases side <;> rfl

omit [DecidableEq α] in
@[simp] theorem get_inFlight (s : Shared α) (inFlight : List (Side × Finset α)) (side : Side) :
    ({ s with inFlight } : Shared α).get side = s.get side := by
  cases side <;> rfl

omit [DecidableEq α] in
theorem sendUpdate_eq (s : Shared α) (side : Side) (update : Finset α) :
    s.sendUpdate side update =
      { s with
        inFlight := s.inFlight ++
          if (s.get side).connected then List.replicate (s.get side).subscriptions (side.peer, update) else [] } := by
  rw [Shared.sendUpdate]
  generalize (s.get side).subscriptions = subscriptions
  induction subscriptions with
  | zero => simp
  | succ subscriptions ih =>
    rw [List.range_succ, List.foldl_append, ih, List.foldl_cons, List.foldl_nil, get_inFlight]
    cases connected : (s.get side).connected with
    | false => rfl
    | true => simp [Shared.send, connected, List.replicate_succ']

structure Applies (s s' : Shared α) (side : Side) (data : Finset α) : Prop where
  peer : s'.get side.peer = s.get side.peer
  self : s'.get side = { s.get side with doc := (s.get side).doc ∪ data }
  inFlight : ∀ message ∈ s.inFlight, message ∈ s'.inFlight
  told : (s.get side).connected = true → 0 < (s.get side).subscriptions → ∀ x ∈ data,
    x ∈ (s.get side).doc ∨ ∃ message ∈ s'.inFlight, message.1 = side.peer ∧ x ∈ message.2

theorem applies_applyUpdate (s : Shared α) (side : Side) (update : Finset α) :
    Applies s (s.applyUpdate side update) side update := by
  rw [Shared.applyUpdate]
  by_cases nothing : update \ (s.get side).doc = ∅
  · simp only [nothing, if_true]
    refine ⟨get_modify_peer s side _, get_modify_self s side _, fun message member => ?_, fun _ _ x member => ?_⟩
    · rwa [inFlight_modify]
    · exact .inl (Finset.sdiff_eq_empty_iff_subset.1 nothing member)
  · simp only [if_neg nothing]
    rw [sendUpdate_eq]
    refine ⟨?_, ?_, fun message member => ?_, fun connected subscribed x member => ?_⟩
    · rw [get_inFlight, get_modify_peer]
    · rw [get_inFlight, get_modify_self]
    · rw [inFlight_modify]
      exact List.mem_append_left _ member
    · by_cases known : x ∈ (s.get side).doc
      · exact .inl known
      · refine .inr ⟨(side.peer, update \ (s.get side).doc), List.mem_append_right _ ?_, rfl,
          Finset.mem_sdiff.2 ⟨member, known⟩⟩
        rw [get_modify_self, if_pos connected]
        exact List.mem_replicate.2 ⟨Nat.ne_of_gt subscribed, rfl⟩

theorem Applies.again {s'' : Shared α} (first : Applies s s' side data) (second : Applies s' s'' side data) :
    Applies s s'' side data where
  peer := second.peer.trans first.peer
  self := by
    rw [second.self, first.self, Finset.union_assoc, Finset.union_idempotent]
  inFlight message member := second.inFlight message (first.inFlight message member)
  told connected subscribed x member := by
    cases first.told connected subscribed x member with
    | inl known => exact .inl known
    | inr sent =>
      obtain ⟨message, inFlight, rest⟩ := sent
      exact .inr ⟨message, second.inFlight message inFlight, rest⟩

theorem applies_receive (s : Shared α) (side : Side) (data : Finset α)
    (known : (s.get side).subscriptions = 0 → data ⊆ (s.get side).doc) :
    Applies s (s.receive side data) side data := by
  rw [Shared.receive]
  cases handlers : (s.get side).subscriptions with
  | zero =>
    refine ⟨rfl, ?_, fun _ member => member, fun _ subscribed => absurd handlers (Nat.ne_of_gt subscribed)⟩
    rw [List.range_zero, List.foldl_nil, Finset.union_eq_left.2 (known handlers)]
  | succ count =>
    clear handlers known
    induction count with
    | zero => exact applies_applyUpdate s side data
    | succ count ih =>
      rw [List.range_succ, List.foldl_append]
      exact ih.again (applies_applyUpdate _ side data)

/-- Whatever is lost in transit has to be in what is applied. -/
theorem Applies.sound (applies : Applies s s' side data)
    (before : ∀ other, (s.get other).syncing = true →
      (s.get other).connected = true ∧ 0 < (s.get other).subscriptions ∧ ∀ x ∈ (s.get other).doc,
        x ∈ (s.get other.peer).doc ∨ (∃ message ∈ s.inFlight, message.1 = other.peer ∧ x ∈ message.2) ∨
          (other.peer = side ∧ x ∈ data)) : Sound s' := by
  intro other syncing
  cases Side.eq_or_peer side other with
  | inl own =>
    rw [own] at syncing ⊢
    rw [applies.self] at syncing
    obtain ⟨connected, subscribed, covered⟩ := before side syncing
    refine ⟨by rwa [applies.self], by rwa [applies.self], fun x member => ?_⟩
    rw [applies.self, Finset.mem_union] at member
    rw [applies.peer]
    have inFlight : (∃ message ∈ s.inFlight, message.1 = side.peer ∧ x ∈ message.2) →
        ∃ message ∈ s'.inFlight, message.1 = side.peer ∧ x ∈ message.2 := by
      intro sent
      obtain ⟨message, member, rest⟩ := sent
      exact ⟨message, applies.inFlight message member, rest⟩
    have old : x ∈ (s.get side).doc → x ∈ (s.get side.peer).doc ∨
        ∃ message ∈ s'.inFlight, message.1 = side.peer ∧ x ∈ message.2 := by
      intro known
      cases covered x known with
      | inl there => exact .inl there
      | inr h =>
        cases h with
        | inl sent => exact .inr (inFlight sent)
        | inr lost => exact absurd lost.1 side.peer_ne
    cases member with
    | inl known => exact old known
    | inr new =>
      cases applies.told connected subscribed x new with
      | inl known => exact old known
      | inr sent => exact .inr sent
  | inr away =>
    rw [away] at syncing ⊢
    rw [applies.peer] at syncing
    obtain ⟨connected, subscribed, covered⟩ := before side.peer syncing
    refine ⟨by rwa [applies.peer], by rwa [applies.peer], fun x member => ?_⟩
    rw [applies.peer] at member
    rw [Side.peer_peer, applies.self, Finset.mem_union]
    rw [Side.peer_peer] at covered
    cases covered x member with
    | inl there => exact .inl (.inl there)
    | inr h =>
      cases h with
      | inl sent =>
        obtain ⟨message, inFlight, rest⟩ := sent
        exact .inr ⟨message, applies.inFlight message inFlight, rest⟩
      | inr lost => exact .inl (.inr lost.2)

theorem Sound.edit (sound : Sound s) (side : Side) (update : Finset α) : Sound (s.applyUpdate side update) := by
  refine (applies_applyUpdate s side update).sound fun other syncing => ?_
  obtain ⟨connected, subscribed, covered⟩ := sound other syncing
  refine ⟨connected, subscribed, fun x member => ?_⟩
  cases covered x member with
  | inl there => exact .inl there
  | inr sent => exact .inr (.inl sent)

theorem Sound.deliver (sound : Sound s) {index : Nat} {message : Side × Finset α}
    (found : s.inFlight[index]? = some message)
    (known : (s.get message.1).subscriptions = 0 → message.2 ⊆ (s.get message.1).doc) :
    Sound ({ s with inFlight := s.inFlight.eraseIdx index }.receive message.1 message.2) := by
  refine (applies_receive _ message.1 message.2 (by rwa [get_inFlight])).sound fun other syncing => ?_
  rw [get_inFlight] at syncing
  rw [get_inFlight, get_inFlight]
  obtain ⟨connected, subscribed, covered⟩ := sound other syncing
  refine ⟨connected, subscribed, fun x member => ?_⟩
  cases covered x member with
  | inl there => exact .inl there
  | inr sent =>
    obtain ⟨sent, inFlight, towards, carries⟩ := sent
    by_cases delivered : sent = message
    · exact .inr (.inr ⟨by rw [← towards, delivered], delivered ▸ carries⟩)
    · refine .inr (.inl ⟨sent, ?_, towards, carries⟩)
      obtain ⟨place, here⟩ := List.mem_iff_getElem?.1 inFlight
      refine List.mem_eraseIdx_iff_getElem?.2 ⟨place, fun same => delivered ?_, here⟩
      rw [same, found, Option.some.injEq] at here
      exact here.symm

omit [DecidableEq α] in
theorem Sound.modify (sound : Sound s) (side : Side) (f : Peer α → Peer α)
    (doc : (f (s.get side)).doc = (s.get side).doc) (idle : (f (s.get side)).syncing = false) :
    Sound (s.modify side f) := by
  intro other syncing
  cases Side.eq_or_peer side other with
  | inl own =>
    rw [own, get_modify_self, idle] at syncing
    exact absurd syncing (by decide)
  | inr away =>
    rw [away, get_modify_peer] at syncing
    rw [away]
    obtain ⟨connected, subscribed, covered⟩ := sound side.peer syncing
    refine ⟨by rwa [get_modify_peer], by rwa [get_modify_peer], fun x member => ?_⟩
    rw [get_modify_peer] at member
    rw [Side.peer_peer, get_modify_self, doc, inFlight_modify]
    have here := covered x member
    rwa [Side.peer_peer] at here

omit [DecidableEq α] in
theorem Sound.begin (sound : Sound s) (side : Side) (connected : (s.get side).connected = true)
    (f : Peer α → Peer α) (doc : (f (s.get side)).doc = (s.get side).doc)
    (connected' : (f (s.get side)).connected = (s.get side).connected)
    (subscribed : 0 < (f (s.get side)).subscriptions) :
    Sound ({ s with inFlight := s.inFlight ++ [(side.peer, (s.get side).doc)] }.modify side f) := by
  intro other syncing
  cases Side.eq_or_peer side other with
  | inl own =>
    rw [own]
    refine ⟨?_, ?_, fun x member => .inr ⟨(side.peer, (s.get side).doc), ?_, rfl, ?_⟩⟩
    · rw [get_modify_self, get_inFlight, connected', connected]
    · rwa [get_modify_self, get_inFlight]
    · rw [inFlight_modify]
      exact List.mem_append_right _ List.mem_cons_self
    · rwa [get_modify_self, get_inFlight, doc] at member
  | inr away =>
    rw [away, get_modify_peer, get_inFlight] at syncing
    rw [away]
    obtain ⟨connected, subscribed, covered⟩ := sound side.peer syncing
    refine ⟨by rwa [get_modify_peer, get_inFlight], by rwa [get_modify_peer, get_inFlight], fun x member => ?_⟩
    rw [get_modify_peer, get_inFlight] at member
    rw [Side.peer_peer, get_modify_self, get_inFlight, doc, inFlight_modify]
    have here := covered x member
    rw [Side.peer_peer] at here
    cases here with
    | inl there => exact .inl there
    | inr sent =>
      obtain ⟨message, inFlight, rest⟩ := sent
      exact .inr ⟨message, List.mem_append_left _ inFlight, rest⟩

theorem invoke_sound (sound : Sound s) (number : Nat) (call : Invocation α) : Sound (invoke s number call).1 := by
  cases call with
  | start side =>
    rw [invoke]
    split
    · exact sound
    case isFalse idle => exact sound.modify side _ rfl (Bool.eq_false_iff.2 idle)
  | stop side =>
    rw [invoke]
    split
    · exact sound.modify side _ rfl rfl
    · exact sound
  | edit side update => exact sound.edit side update

omit [DecidableEq α] in
theorem proceed_sound (sound : Sound s) (number : Nat) (stage : Stage) (reply : Unit) :
    Sound (proceed s number stage reply).1 := by
  cases stage with
  | finished => exact sound
  | connecting side =>
    by_cases connected : (s.get side).connected = true
    · have begun := sound.begin side connected
        (fun peer => { peer with subscriptions := peer.subscriptions + 1, unsubscribe := true, syncing := true })
        rfl rfl (Nat.succ_pos _)
      simp only [proceed, Shared.send, get_modify_self, if_pos connected]
      cases side with
      | left => exact begun
      | right => exact begun
    · -- the provider has been stopped meanwhile
      have idle : (s.get side).syncing = false :=
        Bool.eq_false_iff.2 fun syncing => connected (sound side syncing).connected
      simp only [proceed, Shared.send, get_modify_self, if_neg connected]
      exact sound.modify side _ rfl idle

theorem next_sound {config : Config (Shared α) Stage} (action : Action (Invocation α) Unit Event)
    (sound : Sound config.shared) (lossless : Lossless config action) : Sound (system.next config action).shared := by
  cases action with
  | invoke call => exact invoke_sound sound config.calls.length call
  | proceed number reply =>
    rw [System.next]
    split
    · exact sound
    case h_2 stage found => exact proceed_sound sound number stage reply
  | environment event =>
    cases event with
    | deliver index =>
      change Sound (environment config.shared (.deliver index))
      rw [environment]
      split
      · exact sound
      case h_2 side data found => exact sound.deliver found (lossless (side, data) found)

omit [DecidableEq α] in
theorem converged_of_sound (sound : Sound s) : Converged s := by
  intro left right quiet
  have told : ∀ side, (s.get side).syncing = true → (s.get side).doc ⊆ (s.get side.peer).doc := by
    intro side syncing x member
    cases (sound side syncing).covered x member with
    | inl there => exact there
    | inr sent =>
      obtain ⟨message, inFlight, -⟩ := sent
      rw [quiet] at inFlight
      exact absurd inFlight List.not_mem_nil
  exact Finset.Subset.antisymm (told .left left) (told .right right)

/-- Where no message is lost on a side that lacks what it brings, the documents converge. -/
theorem converged_run (left right : Finset α) (actions : List (Action (Invocation α) Unit Event))
    (lossless : Runs.Along system.next Lossless
      { shared := { left := { doc := left }, right := { doc := right } } } actions) :
    Converged (system.run { shared := { left := { doc := left }, right := { doc := right } } } actions).shared := by
  refine converged_of_sound (Runs.holds_after (I := fun config => Sound config.shared)
    (fun config action sound here => next_sound action sound here) (fun side syncing => ?_) lossless)
  cases side with
  | left => exact absurd syncing Bool.false_ne_true
  | right => exact absurd syncing Bool.false_ne_true

def emptyFirst : List (Action (Invocation Nat) Unit Event) :=
  [.invoke (.start .right), .proceed 0 (), .environment (.deliver 0),
    .invoke (.start .left), .proceed 1 (), .environment (.deliver 0), .environment (.deliver 0)]

theorem converged_emptyFirst :
    Converged (system.run { shared := { left := { doc := {0} }, right := { doc := ∅ } } } emptyFirst).shared :=
  converged_run {0} ∅ emptyFirst (by decide)

def fullFirst : List (Action (Invocation Nat) Unit Event) :=
  [.invoke (.start .left), .proceed 0 (), .environment (.deliver 0),
    .invoke (.start .right), .proceed 1 (), .environment (.deliver 0)]

theorem not_converged_fullFirst :
    ¬ Converged (system.run { shared := { left := { doc := {0} }, right := { doc := ∅ } } } fullFirst).shared := by
  rw [Converged]
  decide

end NodeAutomation.SyncProvider
