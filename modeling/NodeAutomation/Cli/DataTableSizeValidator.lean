import NodeAutomation.Interfaces
import NodeAutomation.Lib.Interleaving

/-! The cached size of all data tables
(`packages/cli/src/modules/data-table/data-table-size-validator.service.ts`). A call that refreshes it
shares the pending fetch with the calls that come in meanwhile. -/

namespace NodeAutomation.DataTableSizeValidator

open Interleaving

variable {δ : Type}

structure SizeData (δ : Type) where
  fetch : Nat
  data : δ
  deriving DecidableEq

structure Fetch (δ : Type) where
  caller : Nat
  outcome : Option (Except JsError δ) := none

structure Shared (δ : Type) where
  lastCheck : Option Int := none
  cachedSizeData : Option (SizeData δ) := none
  pendingCheck : Option Nat := none
  fetches : List (Fetch δ) := []
  /-- How many fetches had begun when the cache was last reset. -/
  begunAtReset : Nat := 0

inductive Stage (δ : Type) where
  | fetching (fetch : Nat) (now : Int)
  | waiting (fetch : Nat)
  | returned (sizeData : Option (SizeData δ))
  | thrown (error : JsError)

structure Call (δ : Type) where
  /-- How many fetches had begun at the last reset before the call. -/
  begunBefore : Nat
  stage : Stage δ

inductive EnvironmentEvent (δ : Type) where
  | settle (fetch : Nat) (outcome : Except JsError δ)
  | reset

def shouldRefresh (sizeCheckCacheDuration : Int) (s : Shared δ) (now : Int) : Bool :=
  match s.lastCheck with
  | none => true
  | some lastCheck => s.cachedSizeData.isNone || sizeCheckCacheDuration ≤ now - lastCheck

/-- `getCachedSizeData` up to its await. -/
def invoke (sizeCheckCacheDuration : Int) (s : Shared δ) (number : Nat) (now : Int) : Shared δ × Call δ :=
  match s.pendingCheck with
  | some fetch => (s, ⟨s.begunAtReset, .waiting fetch⟩)
  | none =>
    if shouldRefresh sizeCheckCacheDuration s now then
      ({ s with pendingCheck := some s.fetches.length, fetches := s.fetches ++ [{ caller := number }] },
        ⟨s.begunAtReset, .fetching s.fetches.length now⟩)
    else (s, ⟨s.begunAtReset, .returned s.cachedSizeData⟩)

def Shared.outcome (s : Shared δ) (fetch : Nat) : Option (Except JsError δ) :=
  s.fetches[fetch]?.bind Fetch.outcome

/-- `getCachedSizeData` behind its await, once the fetch has settled. -/
def proceed (s : Shared δ) (_ : Nat) (call : Call δ) (_ : Unit) : Shared δ × Call δ :=
  match call.stage with
  | .fetching fetch now =>
    match s.outcome fetch with
    | none => (s, call)
    | some (.ok data) =>
      ({ s with cachedSizeData := some ⟨fetch, data⟩, lastCheck := some now, pendingCheck := none },
        { call with stage := .returned (some ⟨fetch, data⟩) })
    | some (.error error) => ({ s with pendingCheck := none }, { call with stage := .thrown error })
  | .waiting fetch =>
    match s.outcome fetch with
    | none => (s, call)
    | some (.ok data) =>
      ({ s with cachedSizeData := some ⟨fetch, data⟩ }, { call with stage := .returned (some ⟨fetch, data⟩) })
    | some (.error error) => (s, { call with stage := .thrown error })
  | .returned _ | .thrown _ => (s, call)

def reset (s : Shared δ) : Shared δ :=
  { s with
    lastCheck := none
    cachedSizeData := none
    pendingCheck := none
    begunAtReset := s.fetches.length }

def environment (s : Shared δ) : EnvironmentEvent δ → Shared δ
  | .reset => reset s
  | .settle fetch outcome =>
    { s with
      fetches := s.fetches.modify fetch fun promise =>
        { promise with outcome := promise.outcome.or (some outcome) } }

def system (sizeCheckCacheDuration : Int) : System (Shared δ) (Call δ) Int Unit (EnvironmentEvent δ) where
  invoke := invoke sizeCheckCacheDuration
  proceed := proceed
  environment := environment

def Shared.Pending (s : Shared δ) (fetch : Nat) : Prop := fetch < s.fetches.length ∧ s.outcome fetch = none

/-- A call returns data that was fetched since the last reset before it, at most one fetch begun since the
last reset is pending, and no call returns undefined. -/
structure ResetHonoured (config : Config (Shared δ) (Call δ)) : Prop where
  fresh : ∀ call ∈ config.calls, ∀ sizeData, call.stage = .returned (some sizeData) →
    call.begunBefore ≤ sizeData.fetch
  single : ∀ fetch other, config.shared.begunAtReset ≤ fetch → config.shared.begunAtReset ≤ other →
    config.shared.Pending fetch → config.shared.Pending other → fetch = other
  defined : ∀ call ∈ config.calls, call.stage ≠ .returned none

/-- No call goes on with a fetch that began before the last reset, except one whose own fetch has failed while
none is pending, and one that has only waited for it while nothing has been stored since. -/
def Orderly (config : Config (Shared δ) (Call δ)) : Action Int Unit (EnvironmentEvent δ) → Prop
  | .proceed number _ =>
    ∀ call ∈ config.calls[number]?,
      match call.stage with
      | .fetching fetch _ =>
        match config.shared.outcome fetch with
        | some (.ok _) => config.shared.begunAtReset ≤ fetch
        | some (.error _) => config.shared.begunAtReset ≤ fetch ∨ config.shared.pendingCheck = none
        | none => True
      | .waiting fetch =>
        match config.shared.outcome fetch with
        | some (.ok _) => config.shared.begunAtReset ≤ fetch ∨ config.shared.lastCheck = none
        | some (.error _) | none => True
      | .returned _ | .thrown _ => True
  | .invoke _ | .environment _ => True

variable {duration : Int} {s s' : Shared δ} {made number : Nat} {call : Call δ} {fetch : Nat}

/-- What is cached and may be used, and what is shared, has begun since the last reset, and so has no other
pending fetch. -/
structure Sound (s : Shared δ) (_ : Nat) : Prop where
  begun : s.begunAtReset ≤ s.fetches.length
  awaited : ∀ fetch, s.pendingCheck = some fetch → s.begunAtReset ≤ fetch
  stored : ∀ sizeData, s.cachedSizeData = some sizeData → s.lastCheck ≠ none → s.begunAtReset ≤ sizeData.fetch
  pending : ∀ fetch, s.begunAtReset ≤ fetch → s.Pending fetch → s.pendingCheck = some fetch

def CallKnows (s : Shared δ) (number : Nat) (call : Call δ) : Prop :=
  call.begunBefore ≤ s.begunAtReset ∧
    match call.stage with
    | .fetching fetch _ => call.begunBefore ≤ fetch ∧ (s.fetches[fetch]?.map Fetch.caller) = some number ∧
        (s.begunAtReset ≤ fetch → s.pendingCheck = some fetch)
    | .waiting fetch => call.begunBefore ≤ fetch
    | .returned sizeData => ∃ held, sizeData = some held ∧ call.begunBefore ≤ held.fetch
    | .thrown _ => True

theorem refreshed_or_stored {now : Int} (fresh : ¬ shouldRefresh duration s now = true) :
    s.lastCheck ≠ none ∧ ∃ sizeData, s.cachedSizeData = some sizeData := by
  unfold shouldRefresh at fresh
  split at fresh
  · exact absurd rfl fresh
  · next lastCheck checked =>
    rw [checked]
    cases cached : s.cachedSizeData with
    | none => simp [cached] at fresh
    | some sizeData => exact ⟨by simp, sizeData, rfl⟩

theorem invoke_sound (now : Int) (sound : Sound s made) :
    Sound (invoke duration s made now).1 (made + 1) ∧
      CallKnows (invoke duration s made now).1 made (invoke duration s made now).2 := by
  unfold invoke
  split
  · next fetch awaited =>
    exact ⟨⟨sound.begun, sound.awaited, sound.stored, sound.pending⟩, Nat.le_refl _, sound.awaited fetch awaited⟩
  · next free =>
    split
    · refine ⟨⟨?_, ?_, sound.stored, ?_⟩, Nat.le_refl _, sound.begun, ?_, fun _ => rfl⟩
      · rw [List.length_append]
        exact Nat.le_trans sound.begun (Nat.le_add_right _ _)
      · rintro fetch ⟨⟩
        exact sound.begun
      · rintro fetch since ⟨bound, pending⟩
        rw [List.length_append, List.length_singleton] at bound
        by_cases old : fetch < s.fetches.length
        · rw [Shared.outcome, List.getElem?_append_left old] at pending
          have known := sound.pending fetch since ⟨old, pending⟩
          simp [free] at known
        · exact congrArg some (by omega)
      · simp
    · next fresh =>
      obtain ⟨checked, sizeData, cached⟩ := refreshed_or_stored fresh
      exact ⟨⟨sound.begun, sound.awaited, sound.stored, sound.pending⟩, Nat.le_refl _, sizeData, cached,
        sound.stored sizeData cached checked⟩

theorem invoke_other (now : Int) {other : Nat} {otherCall : Call δ} (known : CallKnows s other otherCall) :
    CallKnows (invoke duration s number now).1 other otherCall := by
  unfold invoke
  split
  · exact known
  · next free =>
    split
    · refine ⟨known.1, ?_⟩
      have later := known.2
      cases stage : otherCall.stage with
      | fetching fetch now =>
        simp only [stage, free] at later ⊢
        obtain ⟨fresh, caller, awaited⟩ := later
        have bound : fetch < s.fetches.length := by
          by_contra beyond
          simp [List.getElem?_eq_none (Nat.le_of_not_lt beyond)] at caller
        rw [List.getElem?_append_left bound]
        exact ⟨fresh, caller, fun since => absurd (awaited since) (by simp)⟩
      | waiting fetch => simpa only [stage] using later
      | returned sizeData => simpa only [stage] using later
      | thrown error => trivial
    · exact known

theorem Sound.none_pending (sound : Sound s made) (settled : s.outcome fetch ≠ none)
    (shared : s.pendingCheck = some fetch ∨ s.pendingCheck = none) {other : Nat}
    (since : s.begunAtReset ≤ other) : ¬ s.Pending other := by
  intro pending
  have known := sound.pending other since pending
  cases shared with
  | inl same =>
    rw [same] at known
    cases known
    exact settled pending.2
  | inr free =>
    simp [free] at known

variable {config : Config (Shared δ) (Call δ)}

theorem orderly_proceed
    (orderly : Orderly config (.proceed number ())) (found : config.calls[number]? = some call) :
    (∀ fetch now data, call.stage = .fetching fetch now → config.shared.outcome fetch = some (.ok data) →
        config.shared.begunAtReset ≤ fetch) ∧
      (∀ fetch now error, call.stage = .fetching fetch now → config.shared.outcome fetch = some (.error error) →
        config.shared.begunAtReset ≤ fetch ∨ config.shared.pendingCheck = none) ∧
      (∀ fetch data, call.stage = .waiting fetch → config.shared.outcome fetch = some (.ok data) →
        config.shared.begunAtReset ≤ fetch ∨ config.shared.lastCheck = none) := by
  have here := orderly call found
  refine ⟨fun fetch now data stage outcome => ?_, fun fetch now error stage outcome => ?_,
    fun fetch data stage outcome => ?_⟩
  all_goals simpa only [stage, outcome] using here

theorem proceed_sound (sound : Sound config.shared made)
    (orderly : Orderly config (.proceed number ())) (found : config.calls[number]? = some call)
    (known : CallKnows config.shared number call) :
    Sound (proceed config.shared number call ()).1 made ∧
      CallKnows (proceed config.shared number call ()).1 number (proceed config.shared number call ()).2 := by
  obtain ⟨fetched, failed, waited⟩ := orderly_proceed orderly found
  have later := known.2
  unfold proceed
  cases stage : call.stage with
  | fetching fetch now =>
    simp only [stage] at later ⊢
    obtain ⟨fresh, _, awaited⟩ := later
    split
    · exact ⟨sound, known⟩
    · next data outcome =>
      have since := fetched fetch now data stage outcome
      have settled : config.shared.outcome fetch ≠ none := by simp [outcome]
      refine ⟨⟨sound.begun, fun _ => nofun, ?_, fun other begun pending => ?_⟩, known.1, _, rfl, fresh⟩
      · rintro sizeData ⟨⟩ _
        exact since
      · exact absurd pending (sound.none_pending settled (.inl (awaited since)) begun)
    · next error outcome =>
      have settled : config.shared.outcome fetch ≠ none := by simp [outcome]
      have shared := (failed fetch now error stage outcome).imp_left awaited
      exact ⟨⟨sound.begun, fun _ => nofun, sound.stored,
        fun other begun pending => absurd pending (sound.none_pending settled shared begun)⟩, known.1, trivial⟩
  | waiting fetch =>
    simp only [stage] at later ⊢
    split
    · exact ⟨sound, known⟩
    · next data outcome =>
      refine ⟨⟨sound.begun, sound.awaited, ?_, sound.pending⟩, known.1, _, rfl, later⟩
      rintro sizeData ⟨⟩ checked
      exact (waited fetch data stage outcome).resolve_right checked
    · exact ⟨sound, known.1, trivial⟩
  | returned sizeData => exact ⟨sound, known⟩
  | thrown error => exact ⟨sound, known⟩

theorem CallKnows.keep (known : CallKnows s number call) (begun : s'.begunAtReset = s.begunAtReset)
    (callers : ∀ fetch : Nat, s'.fetches[fetch]?.map Fetch.caller = s.fetches[fetch]?.map Fetch.caller)
    (shared : ∀ fetch : Nat, s.begunAtReset ≤ fetch → s.fetches[fetch]?.map Fetch.caller = some number →
      s.pendingCheck = some fetch → s'.pendingCheck = some fetch) : CallKnows s' number call := by
  refine ⟨by rw [begun]; exact known.1, ?_⟩
  have later := known.2
  cases stage : call.stage with
  | fetching fetch now =>
    simp only [stage] at later ⊢
    obtain ⟨fresh, caller, awaited⟩ := later
    rw [begun]
    exact ⟨fresh, (callers fetch).trans caller, fun since => shared fetch since caller (awaited since)⟩
  | waiting fetch => simpa only [stage] using later
  | returned sizeData => simpa only [stage] using later
  | thrown error => trivial

theorem proceed_other {other : Nat} {otherCall : Call δ}
    (orderly : Orderly config (.proceed number ())) (found : config.calls[number]? = some call)
    (known : CallKnows config.shared number call) (apart : number ≠ other)
    (otherKnown : CallKnows config.shared other otherCall) :
    CallKnows (proceed config.shared number call ()).1 other otherCall := by
  obtain ⟨fetched, failed, waited⟩ := orderly_proceed orderly found
  have later := known.2
  unfold proceed
  cases stage : call.stage with
  | fetching fetch now =>
    simp only [stage] at later ⊢
    obtain ⟨_, caller, awaited⟩ := later
    -- The shared fetch is the call's own, or there is none.
    have own (otherFetch : Nat) (shared : config.shared.begunAtReset ≤ fetch ∨ config.shared.pendingCheck = none)
        (otherCaller : config.shared.fetches[otherFetch]?.map Fetch.caller = some other)
        (otherShared : config.shared.pendingCheck = some otherFetch) : False := by
      cases shared with
      | inl since =>
        rw [awaited since] at otherShared
        cases otherShared
        rw [caller] at otherCaller
        exact apart (Option.some.inj otherCaller)
      | inr free =>
        simp [free] at otherShared
    split
    · exact otherKnown
    · next data outcome =>
      exact otherKnown.keep rfl (fun _ => rfl) fun otherFetch _ otherCaller otherShared =>
        (own otherFetch (.inl (fetched fetch now data stage outcome)) otherCaller otherShared).elim
    · next error outcome =>
      exact otherKnown.keep rfl (fun _ => rfl) fun otherFetch _ otherCaller otherShared =>
        (own otherFetch (failed fetch now error stage outcome) otherCaller otherShared).elim
  | waiting fetch =>
    simp only
    split
    · exact otherKnown
    · exact otherKnown.keep rfl (fun _ => rfl) fun _ _ _ shared => shared
    · exact otherKnown
  | returned sizeData => exact otherKnown
  | thrown error => exact otherKnown

theorem pending_settle {outcome : Except JsError δ} {other : Nat}
    (pending : (environment s (.settle fetch outcome)).Pending other) : s.Pending other := by
  obtain ⟨bound, unsettled⟩ := pending
  simp only [environment, List.length_modify] at bound
  refine ⟨bound, ?_⟩
  simp only [environment, Shared.outcome, List.getElem?_modify, List.getElem?_eq_getElem bound,
    Option.bind_some] at unsettled ⊢
  split at unsettled
  · exact (Option.or_eq_none_iff.1 unsettled).1
  · exact unsettled

theorem environment_sound (event : EnvironmentEvent δ) (sound : Sound s made) :
    Sound (environment s event) made := by
  cases event with
  | reset =>
    refine ⟨Nat.le_refl _, fun _ => nofun, fun _ => nofun, fun fetch since pending => ?_⟩
    exact absurd pending.1 (Nat.not_lt_of_le since)
  | settle fetch outcome =>
    refine ⟨?_, sound.awaited, sound.stored,
      fun other since pending => sound.pending other since (pending_settle pending)⟩
    simp only [environment, List.length_modify]
    exact sound.begun

theorem environment_call (event : EnvironmentEvent δ) (sound : Sound s made) (known : CallKnows s number call) :
    CallKnows (environment s event) number call := by
  cases event with
  | reset =>
    refine ⟨Nat.le_trans known.1 sound.begun, ?_⟩
    have later := known.2
    cases stage : call.stage with
    | fetching fetch now =>
      simp only [stage] at later ⊢
      obtain ⟨fresh, caller, _⟩ := later
      refine ⟨fresh, caller, fun since => ?_⟩
      change s.fetches.length ≤ fetch at since
      simp [List.getElem?_eq_none since] at caller
    | waiting fetch => simpa only [stage] using later
    | returned sizeData => simpa only [stage] using later
    | thrown error => trivial
  | settle fetch outcome =>
    refine known.keep rfl (fun other => ?_) fun _ _ _ shared => shared
    simp only [environment, List.getElem?_modify]
    cases s.fetches[other]? with
    | none => rfl
    | some promise =>
      simp only [Option.map_eq_map, Option.map_some]
      split <;> rfl

theorem sound_step (duration : Int) (config : Config (Shared δ) (Call δ))
    (action : Action Int Unit (EnvironmentEvent δ)) (sound : Holds Sound CallKnows config)
    (orderly : Orderly config action) : Holds Sound CallKnows ((system duration).next config action) := by
  cases action with
  | invoke now =>
    exact Holds.invoke now (invoke_sound now sound.shared) fun other otherCall found =>
      invoke_other now (sound.call other otherCall found)
  | proceed number reply =>
    refine sound.proceed number reply (fun call found => ?_) fun call other otherCall found apart known => ?_
    · exact proceed_sound sound.shared orderly found (sound.call number call found)
    · exact proceed_other orderly found (sound.call number call found) apart (sound.call other otherCall known)
  | environment event =>
    exact Holds.environment event (environment_sound event sound.shared) fun number call found =>
      environment_call event sound.shared (sound.call number call found)

theorem resetHonoured_of_sound (sound : Holds Sound CallKnows config) :
    ResetHonoured config := by
  have returned (call : Call δ) (member : call ∈ config.calls) (sizeData : Option (SizeData δ))
      (stage : call.stage = .returned sizeData) :
      ∃ held, sizeData = some held ∧ call.begunBefore ≤ held.fetch := by
    obtain ⟨number, found⟩ := List.mem_iff_getElem?.1 member
    have later := (sound.call number call found).2
    simpa only [stage] using later
  refine ⟨fun call member sizeData stage => ?_, fun fetch other since otherSince pending otherPending => ?_,
    fun call member stage => ?_⟩
  · obtain ⟨held, same, fresh⟩ := returned call member _ stage
    cases same
    exact fresh
  · have known := sound.shared.pending fetch since pending
    rw [sound.shared.pending other otherSince otherPending] at known
    exact (Option.some.inj known).symm
  · obtain ⟨held, same, _⟩ := returned call member _ stage
    cases same

/-- In every run in which no call goes on with a fetch from before a reset, resets are honoured throughout. -/
theorem resetHonoured_run (duration : Int) (actions : List (Action Int Unit (EnvironmentEvent δ)))
    (orderly : Runs.Along (system duration).next Orderly { shared := {} } actions) :
    ResetHonoured ((system duration).run { shared := {} } actions) := by
  have initial : Holds Sound CallKnows ({ shared := {} } : Config (Shared δ) (Call δ)) :=
    Holds.initial ⟨Nat.le_refl _, fun _ => nofun, fun _ => nofun,
      fun _ _ pending => absurd pending.1 (Nat.not_lt_zero _)⟩
  exact resetHonoured_of_sound (Runs.holds_after (sound_step duration) initial orderly)

def resetBetween : List (Action Int Unit (EnvironmentEvent Nat)) :=
  [.invoke 0, .environment (.settle 0 (.ok 10)), .proceed 0 (), .environment .reset,
    .invoke 5, .environment (.settle 1 (.ok 20)), .proceed 1 (), .invoke 6]

theorem resetBetween_honoured : ResetHonoured ((system 1000).run { shared := {} } resetBetween) := by
  refine resetHonoured_run 1000 resetBetween ⟨trivial, trivial, ?_, trivial, trivial, trivial, ?_, trivial, trivial⟩
  · rintro call ⟨⟩
    exact Nat.le_refl 0
  · rintro call ⟨⟩
    exact Nat.le_refl 1

def resetDuringFetch : List (Action Int Unit (EnvironmentEvent Nat)) :=
  [.invoke 0, .environment .reset, .environment (.settle 0 (.ok 10)), .proceed 0 (), .invoke 1]

def failureAfterReset : List (Action Int Unit (EnvironmentEvent Nat)) :=
  [.invoke 0, .environment .reset, .invoke 1, .environment (.settle 0 (.error .typeError)), .proceed 0 (), .invoke 2]

theorem reset_not_honoured : ¬ ResetHonoured ((system 1000).run { shared := {} } resetDuringFetch) ∧
    ¬ ResetHonoured ((system 1000).run { shared := {} } failureAfterReset) := by
  constructor
  · intro honoured
    exact absurd (honoured.fresh ⟨1, .returned (some ⟨0, 10⟩)⟩ (.tail _ (.head _)) ⟨0, 10⟩ rfl) (by decide)
  · intro honoured
    have pending (fetch : Nat) (h : fetch = 1 ∨ fetch = 2) :
        ((system 1000).run { shared := {} } failureAfterReset).shared.Pending fetch := by
      obtain rfl | rfl := h
      · exact ⟨by decide, rfl⟩
      · exact ⟨by decide, rfl⟩
    have same := honoured.single 1 2 (by decide) (by decide) (pending 1 (.inl rfl)) (pending 2 (.inr rfl))
    exact absurd same (by decide)
end NodeAutomation.DataTableSizeValidator
