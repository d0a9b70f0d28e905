import NodeAutomation.Lib.OrderedMap
import NodeAutomation.Lib.Places
import NodeAutomation.Lib.Runs

/-! The lock of each workflow for the publication of its triggers
(`packages/cli/src/workflows/publication/workflow-publication-lifecycle-lock.ts`). Its callers wait in a
line; a caller may give up and go on without the lock. -/

namespace NodeAutomation.LifecycleLock
open Runs Places

/-- The waiters are known by the numbers of their calls. -/
structure WorkflowLockState where
  locked : Bool := false
  waiters : List Nat := []
  deriving DecidableEq

/-- Where a call is. With the lock or without it, the callback starts some time after the wait is over. -/
inductive Phase where
  | waiting
  | acquired
  | running
  | timedOut
  | runningWithoutLock
  | returned
  | threw
  deriving DecidableEq

/-- The caller has the lock. -/
def Phase.holds : Phase → Bool
  | .acquired | .running => true
  | .waiting | .timedOut | .runningWithoutLock | .returned | .threw => false

/-- A call of `runExclusive`, or of `runExclusiveOrTimeout`, with the lock state it has found. -/
structure Caller where
  workflowId : String
  orTimeout : Bool
  state : Nat
  phase : Phase
  timedOut : Bool := false
  deriving DecidableEq

structure State where
  stateByWorkflowId : OrderedMap String Nat := ∅
  states : List WorkflowLockState := []
  callers : List Caller := []
  deriving DecidableEq

namespace State

def isLocked (s : State) (workflowId : String) : Bool := s.stateByWorkflowId.contains workflowId

def setPhase (s : State) (caller : Nat) (phase : Phase) : State :=
  { s with callers := s.callers.modify caller fun c => { c with phase } }

def getOrCreateState (s : State) (workflowId : String) : State × Nat :=
  match s.stateByWorkflowId.get workflowId with
  | some state => (s, state)
  | none => ({ s with
      stateByWorkflowId := s.stateByWorkflowId.set workflowId s.states.length
      states := s.states ++ [{}] }, s.states.length)

/-- `acquire` and `acquireWithTimeout`, up to the end of the wait. -/
def acquire (s : State) (workflowId : String) (orTimeout : Bool) : State :=
  let (s, state) := s.getOrCreateState workflowId
  if (s.states[state]?).all (!·.locked) then
    { s with
      states := s.states.modify state fun lock => { lock with locked := true }
      callers := s.callers ++ [{ workflowId, orTimeout, state, phase := .acquired }] }
  else
    { s with
      states := s.states.modify state fun lock => { lock with waiters := lock.waiters ++ [s.callers.length] }
      callers := s.callers ++ [{ workflowId, orTimeout, state, phase := .waiting }] }

def wake (s : State) (caller : Nat) : State :=
  match s.callers[caller]? with
  | none => s
  | some c => if c.phase = .waiting then s.setPhase caller .acquired else s

def release (s : State) (workflowId : String) : State :=
  match s.stateByWorkflowId.get workflowId with
  | none => s
  | some state =>
    match (s.states[state]?).map WorkflowLockState.waiters with
    | none | some [] => { s with stateByWorkflowId := s.stateByWorkflowId.delete workflowId }
    | some (next :: waiters) =>
      ({ s with states := s.states.modify state fun lock => { lock with waiters } } : State).wake next

def giveUp (s : State) (caller : Nat) : State :=
  match s.callers[caller]? with
  | none => s
  | some c =>
    if c.orTimeout ∧ c.phase = .waiting then
      { s with
        states := s.states.modify c.state fun lock => { lock with waiters := lock.waiters.erase caller }
        callers := s.callers.modify caller fun c => { c with phase := .timedOut, timedOut := true } }
    else s

def start (s : State) (caller : Nat) : State :=
  match (s.callers[caller]?).map Caller.phase with
  | some .acquired => s.setPhase caller .running
  | some .timedOut => s.setPhase caller .runningWithoutLock
  | some .waiting | some .running | some .runningWithoutLock | some .returned | some .threw | none => s

def finish (s : State) (caller : Nat) (ended : Phase) : State :=
  match s.callers[caller]? with
  | none => s
  | some c =>
    match c.phase with
    | .running => (s.setPhase caller ended).release c.workflowId
    | .runningWithoutLock => s.setPhase caller ended
    | .waiting | .acquired | .timedOut | .returned | .threw => s

end State

inductive Action where
  | runExclusive (workflowId : String)
  | runExclusiveOrTimeout (workflowId : String)
  | giveUp (caller : Nat)
  | start (caller : Nat)
  | returns (caller : Nat)
  | throws (caller : Nat)

def next (s : State) : Action → State
  | .runExclusive workflowId => s.acquire workflowId false
  | .runExclusiveOrTimeout workflowId => s.acquire workflowId true
  | .giveUp caller => s.giveUp caller
  | .start caller => s.start caller
  | .returns caller => s.finish caller .returned
  | .throws caller => s.finish caller .threw

def Caller.InLine (c : Caller) : Prop := c.phase.holds = true ∨ c.phase = .waiting

/-- At most one caller of a workflow has the lock, none that came later than one who waits; who timed
out never has it; a workflow is locked while a caller has or awaits its lock. -/
structure Excludes (s : State) : Prop where
  alone : ∀ (i j : Nat) (c d : Caller), s.callers[i]? = some c → s.callers[j]? = some d →
    c.workflowId = d.workflowId → c.phase.holds = true → d.phase.holds = true → i = j
  order : ∀ (i j : Nat) (c d : Caller), s.callers[i]? = some c → s.callers[j]? = some d →
    c.workflowId = d.workflowId → i < j → d.phase.holds = true → c.phase ≠ .waiting
  timedOut : ∀ c ∈ s.callers, c.timedOut = true → ¬ c.InLine
  isLocked : ∀ workflowId, s.isLocked workflowId = false ↔
    ∀ c ∈ s.callers, c.workflowId = workflowId → ¬ c.InLine
  empty : (∀ c ∈ s.callers, ¬ c.InLine) → s.stateByWorkflowId = ∅

def Caller.Runs (c : Caller) : Prop := c.phase = .running ∨ c.phase = .runningWithoutLock

/-- No two callbacks of a workflow run at once, and none of a caller that timed out. -/
structure NeverWithoutLock (s : State) : Prop where
  alone : ∀ (i j : Nat) (c d : Caller), s.callers[i]? = some c → s.callers[j]? = some d →
    c.workflowId = d.workflowId → c.Runs → d.Runs → i = j
  timedOut : ∀ c ∈ s.callers, c.timedOut = true → ¬ c.Runs

structure Lined (s : State) (workflowId : String) (line : List Nat) : Prop where
  sorted : line.Pairwise (· < ·)
  known : ∀ i ∈ line, ∃ c : Caller, s.callers[i]? = some c ∧ c.workflowId = workflowId
  holds : ∀ (i : Nat) (c : Caller), s.callers[i]? = some c → c.workflowId = workflowId →
    (c.phase.holds = true ↔ line.head? = some i)
  waits : ∀ (i : Nat) (c : Caller), s.callers[i]? = some c → c.workflowId = workflowId → (c.phase = .waiting ↔ i ∈ line.tail)
  state : ∀ (i : Nat) (c : Caller), s.callers[i]? = some c → c.workflowId = workflowId → c.phase = .waiting →
    s.stateByWorkflowId.get workflowId = some c.state
  locked : ∀ holder waiters, line = holder :: waiters →
    ∃ state, s.stateByWorkflowId.get workflowId = some state ∧ s.states[state]? = some ⟨true, waiters⟩
  unlocked : line = [] → s.stateByWorkflowId.get workflowId = none
  apart : ∀ other state, s.stateByWorkflowId.get workflowId = some state →
    s.stateByWorkflowId.get other = some state → other = workflowId
  timedOut : ∀ (i : Nat) (c : Caller), s.callers[i]? = some c → c.workflowId = workflowId → c.timedOut = true → ¬ c.InLine

def Orderly (s : State) : Prop := ∀ workflowId, ∃ line, Lined s workflowId line

variable {s s' : State} {workflowId : String} {line : List Nat} {i j : Nat} {c : Caller}

namespace Lined

section

variable (h : Lined s workflowId line)
include h

theorem nodup : line.Nodup := h.sorted.imp Nat.ne_of_lt

theorem get_iff : s.stateByWorkflowId.get workflowId = none ↔ line = [] := by
  refine ⟨fun absent => ?_, h.unlocked⟩
  cases line with
  | nil => rfl
  | cons holder waiters =>
    obtain ⟨state, there, -⟩ := h.locked holder waiters rfl
    simp [absent] at there

theorem inLine_iff (here : s.callers[i]? = some c)
    (of : c.workflowId = workflowId) : c.InLine ↔ i ∈ line := by
  rw [Caller.InLine, h.holds i c here of, h.waits i c here of]
  cases line with
  | nil => simp
  | cons holder waiters => simp [eq_comm]

theorem of_same
    (callers : ∀ (j : Nat) (c : Caller), c.workflowId = workflowId → (s'.callers[j]? = some c ↔ s.callers[j]? = some c))
    (map : s'.stateByWorkflowId.get workflowId = s.stateByWorkflowId.get workflowId)
    (states : ∀ state, s.stateByWorkflowId.get workflowId = some state → s'.states[state]? = s.states[state]?)
    (apart : ∀ other state, s'.stateByWorkflowId.get workflowId = some state →
      s'.stateByWorkflowId.get other = some state → other = workflowId) :
    Lined s' workflowId line where
  sorted := h.sorted
  known i among := by
    obtain ⟨c, here, of⟩ := h.known i among
    exact ⟨c, (callers i c of).2 here, of⟩
  holds i c here of := h.holds i c ((callers i c of).1 here) of
  waits i c here of := h.waits i c ((callers i c of).1 here) of
  state i c here of waiting := map.trans (h.state i c ((callers i c of).1 here) of waiting)
  locked holder waiters split := by
    obtain ⟨state, there, lock⟩ := h.locked holder waiters split
    exact ⟨state, map.trans there, (states state there).trans lock⟩
  unlocked empty := map.trans (h.unlocked empty)
  apart := apart
  timedOut i c here of := h.timedOut i c ((callers i c of).1 here) of

end

end Lined

theorem getElem?_modify_other {callers : List Caller} {f : Caller → Caller} {d : Caller}
    (keeps : ∀ c, (f c).workflowId = c.workflowId) (here : callers[i]? = some c)
    (other : c.workflowId ≠ d.workflowId) : (callers.modify i f)[j]? = some d ↔ callers[j]? = some d := by
  by_cases same : i = j
  · refine iff_of_false (fun there => ?_) fun there => ?_
    · obtain ⟨e, before, rfl⟩ := getElem?_modify_eq_some there
      rw [← same, here] at before
      cases before
      rw [if_pos same] at other
      exact other (keeps c).symm
    · rw [← same, here] at there
      cases there
      exact other rfl
  · rw [List.getElem?_modify_ne _ _ same]

theorem modified_cases {callers : List Caller} {f : Caller → Caller} {d : Caller} (here : callers[i]? = some c)
    (found : (callers.modify i f)[j]? = some d) : (j = i ∧ d = f c) ∨ (j ≠ i ∧ callers[j]? = some d) := by
  by_cases same : i = j
  · subst same
    rw [List.getElem?_modify_eq, here] at found
    exact .inl ⟨rfl, (Option.some.inj found).symm⟩
  · rw [List.getElem?_modify_ne _ _ same] at found
    exact .inr ⟨Ne.symm same, found⟩

theorem orderly_setPhase (h : Orderly s) (here : s.callers[i]? = some c) {phase : Phase}
    (holds : phase.holds = c.phase.holds) (waits : phase = .waiting ↔ c.phase = .waiting) :
    Orderly (s.setPhase i phase) := by
  have back {j : Nat} {d : Caller} (there : (s.setPhase i phase).callers[j]? = some d) :
      ∃ e, s.callers[j]? = some e ∧ d.workflowId = e.workflowId ∧ d.state = e.state ∧ d.timedOut = e.timedOut ∧
        d.phase.holds = e.phase.holds ∧ (d.phase = .waiting ↔ e.phase = .waiting) := by
    rcases modified_cases here there with ⟨rfl, rfl⟩ | ⟨-, old⟩
    · exact ⟨c, here, rfl, rfl, rfl, holds, waits⟩
    · exact ⟨d, old, rfl, rfl, rfl, rfl, Iff.rfl⟩
  intro workflowId
  obtain ⟨line, lined⟩ := h workflowId
  refine ⟨line, lined.sorted, fun j among => ?_, ?_, ?_, ?_, lined.locked, lined.unlocked, lined.apart, ?_⟩
  · obtain ⟨d, there, of⟩ := lined.known j among
    refine ⟨if i = j then { d with phase } else d, ?_, ?_⟩
    · rw [State.setPhase, List.getElem?_modify, there]
      split <;> simp_all
    · split
      · exact of
      · exact of
  · intro j d there of
    obtain ⟨e, before, workflow, -, -, same, -⟩ := back there
    rw [same]
    exact lined.holds j e before (workflow ▸ of)
  · intro j d there of
    obtain ⟨e, before, workflow, -, -, -, same⟩ := back there
    rw [same]
    exact lined.waits j e before (workflow ▸ of)
  · intro j d there of waiting
    obtain ⟨e, before, workflow, state, -, -, same⟩ := back there
    rw [state]
    exact lined.state j e before (workflow ▸ of) (same.1 waiting)
  · intro j d there of timedOut
    obtain ⟨e, before, workflow, -, flag, same, same'⟩ := back there
    rw [Caller.InLine, same, same']
    exact lined.timedOut j e before (workflow ▸ of) (flag ▸ timedOut)

theorem Lined.states_ne (h : Lined s workflowId line) {other : String} (different : other ≠ workflowId)
    {state otherState : Nat}
    (there : s.stateByWorkflowId.get workflowId = some state)
    (there' : s.stateByWorkflowId.get other = some otherState) : state ≠ otherState := by
  rintro rfl
  exact different (h.apart other state there there')

theorem Lined.state_lt (h : Lined s workflowId line) {state : Nat}
    (there : s.stateByWorkflowId.get workflowId = some state) : state < s.states.length := by
  cases line with
  | nil =>
    simp [h.unlocked rfl] at there
  | cons holder waiters =>
    obtain ⟨other, there', lock⟩ := h.locked holder waiters rfl
    rw [there] at there'
    cases there'
    exact (List.getElem?_eq_some_iff.1 lock).1

theorem Lined.lt_length (h : Lined s workflowId line) (among : i ∈ line) : i < s.callers.length := by
  obtain ⟨c, here, -⟩ := h.known i among
  exact (List.getElem?_eq_some_iff.1 here).1

theorem getElem?_concat_other {callers : List Caller} {more d : Caller} (other : d.workflowId ≠ more.workflowId) :
    (callers ++ [more])[j]? = some d ↔ callers[j]? = some d := by
  refine ⟨fun there => ?_, fun there => getElem?_append_of_some there _⟩
  rcases getElem?_concat there with old | ⟨-, rfl⟩
  · exact old
  · exact absurd rfl other

theorem acquire_unlocked {orTimeout : Bool} (absent : s.stateByWorkflowId.get workflowId = none) :
    s.acquire workflowId orTimeout = { s with
      stateByWorkflowId := s.stateByWorkflowId.set workflowId s.states.length
      states := s.states ++ [⟨true, []⟩]
      callers := s.callers ++ [{ workflowId, orTimeout, state := s.states.length, phase := .acquired }] } := by
  have last : (s.states ++ [({} : WorkflowLockState)]).modify s.states.length
      (fun lock => { lock with locked := true }) = s.states ++ [⟨true, []⟩] := by
    rw [List.modify_eq_set_getElem?, List.getElem?_concat_length]
    simp
  rw [State.acquire, State.getOrCreateState, absent]
  simp [last]

theorem acquire_locked {orTimeout : Bool} {state : Nat} {waiters : List Nat}
    (present : s.stateByWorkflowId.get workflowId = some state)
    (lock : s.states[state]? = some ⟨true, waiters⟩) :
    s.acquire workflowId orTimeout = { s with
      states := s.states.modify state fun lock => { lock with waiters := lock.waiters ++ [s.callers.length] }
      callers := s.callers ++ [{ workflowId, orTimeout, state, phase := .waiting }] } := by
  rw [State.acquire, State.getOrCreateState, present]
  simp [lock]

theorem Lined.acquired (h : Orderly s) (lined : Lined s workflowId []) (orTimeout : Bool) :
    Lined (s.acquire workflowId orTimeout) workflowId [s.callers.length] := by
  have outside {j : Nat} {d : Caller} (there : s.callers[j]? = some d) (of : d.workflowId = workflowId) :
      ¬ d.InLine := fun inLine => List.not_mem_nil ((lined.inLine_iff there of).1 inLine)
  rw [acquire_unlocked (lined.unlocked rfl)]
  refine ⟨List.pairwise_singleton _ _, ?_, ?_, ?_, ?_, ?_, ?_, ?_, ?_⟩
  · intro j among
    rw [List.mem_singleton.1 among]
    exact ⟨_, List.getElem?_concat_length, rfl⟩
  · intro j d there of
    rcases getElem?_concat there with old | ⟨rfl, rfl⟩
    · refine iff_of_false (fun holds => outside old of (.inl holds)) fun first => ?_
      have last := Option.some.inj first
      have bound := (List.getElem?_eq_some_iff.1 old).1
      omega
    · exact iff_of_true rfl rfl
  · intro j d there of
    rcases getElem?_concat there with old | ⟨rfl, rfl⟩
    · exact iff_of_false (fun waits => outside old of (.inr waits)) List.not_mem_nil
    · exact iff_of_false Phase.noConfusion List.not_mem_nil
  · intro j d there of waits
    rcases getElem?_concat there with old | ⟨rfl, rfl⟩
    · exact absurd (.inr waits) (outside old of)
    · exact OrderedMap.get_set_self _ _ _
  · rintro holder waiters ⟨⟩
    exact ⟨_, OrderedMap.get_set_self _ _ _, List.getElem?_concat_length⟩
  · exact fun never => (by cases never)
  · intro third state there there'
    rw [OrderedMap.get_set_self] at there
    rw [← Option.some.inj there, OrderedMap.get_set] at there'
    by_contra different
    rw [if_neg different] at there'
    obtain ⟨line', lined'⟩ := h third
    exact Nat.lt_irrefl _ (lined'.state_lt there')
  · intro j d there of timedOut
    rcases getElem?_concat there with old | ⟨rfl, rfl⟩
    · exact outside old of
    · cases timedOut

theorem Lined.enqueued {holder : Nat} {waiters : List Nat} (lined : Lined s workflowId (holder :: waiters))
    (orTimeout : Bool) :
    Lined (s.acquire workflowId orTimeout) workflowId (holder :: (waiters ++ [s.callers.length])) := by
  obtain ⟨state, present, lock⟩ := lined.locked holder waiters rfl
  rw [acquire_locked present lock]
  refine ⟨?_, ?_, ?_, ?_, ?_, ?_, ?_, lined.apart, ?_⟩
  · refine List.pairwise_append.2 ⟨lined.sorted, List.pairwise_singleton _ _, fun j among k last => ?_⟩
    rw [List.mem_singleton.1 last]
    exact lined.lt_length among
  · intro j among
    rcases List.mem_append.1 (show j ∈ holder :: waiters ++ [s.callers.length] from among) with old | new
    · obtain ⟨d, there, of⟩ := lined.known j old
      exact ⟨d, getElem?_append_of_some there _, of⟩
    · rw [List.mem_singleton.1 new]
      exact ⟨_, List.getElem?_concat_length, rfl⟩
  · intro j d there of
    rcases getElem?_concat there with old | ⟨rfl, rfl⟩
    · exact lined.holds j d old of
    · refine iff_of_false Bool.false_ne_true fun first => ?_
      have bound := lined.lt_length (List.mem_cons_self (a := holder))
      have last := Option.some.inj first
      omega
  · intro j d there of
    rcases getElem?_concat there with old | ⟨rfl, rfl⟩
    · rw [lined.waits j d old of]
      refine ⟨fun among => List.mem_append_left _ among, fun among => ?_⟩
      refine (List.mem_append.1 among).resolve_right fun new => ?_
      have bound := (List.getElem?_eq_some_iff.1 old).1
      have last := List.mem_singleton.1 new
      omega
    · exact iff_of_true rfl (List.mem_append_right _ (List.mem_singleton_self _))
  · intro j d there of waits
    rcases getElem?_concat there with old | ⟨rfl, rfl⟩
    · exact lined.state j d old of waits
    · exact present
  · rintro holder' waiters' split
    obtain ⟨rfl, rfl⟩ := List.cons.inj split
    refine ⟨state, present, ?_⟩
    rw [List.getElem?_modify, lock]
    simp
  · exact fun never => (by cases never)
  · intro j d there of timedOut
    rcases getElem?_concat there with old | ⟨rfl, rfl⟩
    · exact lined.timedOut j d old of timedOut
    · cases timedOut

theorem orderly_acquire (h : Orderly s) (workflowId : String) (orTimeout : Bool) :
    Orderly (s.acquire workflowId orTimeout) := by
  obtain ⟨line, lined⟩ := h workflowId
  intro other
  by_cases same : other = workflowId
  · subst same
    cases line with
    | nil => exact ⟨_, lined.acquired h orTimeout⟩
    | cons holder waiters => exact ⟨_, lined.enqueued orTimeout⟩
  obtain ⟨line', lined'⟩ := h other
  refine ⟨line', ?_⟩
  cases line with
  | nil =>
    rw [acquire_unlocked (lined.unlocked rfl)]
    refine lined'.of_same (fun j d of => getElem?_concat_other (of ▸ same)) (OrderedMap.get_set_of_ne _ _ same) ?_ ?_
    · intro state there
      exact List.getElem?_append_left (lined'.state_lt there)
    · intro third state there there'
      rw [OrderedMap.get_set_of_ne _ _ same] at there
      by_cases created : third = workflowId
      · subst created
        rw [OrderedMap.get_set_self] at there'
        rw [← Option.some.inj there'] at there
        exact absurd (lined'.state_lt there) (Nat.lt_irrefl _)
      · rw [OrderedMap.get_set_of_ne _ _ created] at there'
        exact lined'.apart third state there there'
  | cons holder waiters =>
    obtain ⟨state, present, lock⟩ := lined.locked holder waiters rfl
    rw [acquire_locked present lock]
    refine lined'.of_same (fun j d of => getElem?_concat_other (of ▸ same)) rfl ?_ lined'.apart
    intro otherState there
    exact List.getElem?_modify_ne _ _ (lined.states_ne same present there)

theorem orderly_start (h : Orderly s) (caller : Nat) : Orderly (s.start caller) := by
  rw [State.start]
  cases here : s.callers[caller]? with
  | none => exact h
  | some c =>
    rw [Option.map_some]
    cases phase : c.phase with
    | acquired => exact orderly_setPhase h here (by rw [phase]; rfl) (by rw [phase]; decide)
    | timedOut => exact orderly_setPhase h here (by rw [phase]; rfl) (by rw [phase]; decide)
    | waiting => exact h
    | running => exact h
    | runningWithoutLock => exact h
    | returned => exact h
    | threw => exact h

/-- Who gives up leaves the line, and the holder and the order of the others stay. -/
theorem Lined.gaveUp {holder : Nat} {waiters : List Nat} (lined : Lined s c.workflowId (holder :: waiters))
    (here : s.callers[i]? = some c) (waiting : c.orTimeout ∧ c.phase = .waiting) :
    Lined (s.giveUp i) c.workflowId (holder :: waiters.erase i) := by
  have among := (lined.waits i c here rfl).1 waiting.2
  have present := lined.state i c here rfl waiting.2
  obtain ⟨state, there, lock⟩ := lined.locked holder waiters rfl
  rw [present] at there
  cases there
  have nodup := List.nodup_cons.1 lined.nodup
  rw [State.giveUp, here]
  simp only [waiting, and_self, if_true]
  refine ⟨?_, ?_, ?_, ?_, ?_, ?_, ?_, lined.apart, ?_⟩
  · exact lined.sorted.sublist (List.erase_sublist.cons_cons holder)
  · intro j among'
    obtain ⟨d, there, of⟩ := lined.known j
      (List.mem_cons.2 ((List.mem_cons.1 among').imp_right List.mem_of_mem_erase))
    by_cases same : i = j
    · subst same
      rw [here] at there
      cases there
      refine ⟨{ c with phase := .timedOut, timedOut := true }, ?_, rfl⟩
      show (s.callers.modify i _)[i]? = _
      rw [List.getElem?_modify_eq, here]
      rfl
    · exact ⟨d, (List.getElem?_modify_ne _ _ same).trans there, of⟩
  · intro j d found of
    rcases modified_cases here found with ⟨rfl, rfl⟩ | ⟨-, old⟩
    · refine iff_of_false Bool.false_ne_true fun first => ?_
      cases first
      exact nodup.1 among
    · exact lined.holds j d old of
  · intro j d found of
    rcases modified_cases here found with ⟨rfl, rfl⟩ | ⟨different, old⟩
    · exact iff_of_false Phase.noConfusion (List.Nodup.not_mem_erase nodup.2)
    · rw [lined.waits j d old of, List.tail_cons, List.tail_cons, List.mem_erase_of_ne different]
  · intro j d found of waits
    rcases modified_cases here found with ⟨rfl, rfl⟩ | ⟨different, old⟩
    · cases waits
    · exact lined.state j d old of waits
  · rintro holder' waiters' split
    obtain ⟨rfl, rfl⟩ := List.cons.inj split
    refine ⟨c.state, present, ?_⟩
    show (s.states.modify c.state _)[c.state]? = _
    rw [List.getElem?_modify_eq, lock]
    rfl
  · exact fun never => (by cases never)
  · intro j d found of timedOut
    rcases modified_cases here found with ⟨rfl, rfl⟩ | ⟨different, old⟩
    · rintro (holds | waits)
      · cases holds
      · cases waits
    · exact lined.timedOut j d old of timedOut

theorem orderly_giveUp (h : Orderly s) (caller : Nat) : Orderly (s.giveUp caller) := by
  cases here : s.callers[caller]? with
  | none =>
    rw [State.giveUp, here]
    exact h
  | some c =>
    by_cases waiting : c.orTimeout ∧ c.phase = .waiting
    · obtain ⟨line, lined⟩ := h c.workflowId
      have among := (lined.waits caller c here rfl).1 waiting.2
      cases line with
      | nil => cases among
      | cons holder waiters =>
        intro other
        by_cases same : other = c.workflowId
        · subst same
          exact ⟨_, lined.gaveUp here waiting⟩
        · obtain ⟨line', lined'⟩ := h other
          have present := lined.state caller c here rfl waiting.2
          rw [State.giveUp, here]
          simp only [waiting, and_self, if_true]
          refine ⟨line', lined'.of_same ?_ rfl ?_ lined'.apart⟩
          · intro j d of
            exact getElem?_modify_other (fun _ => rfl) here (of ▸ Ne.symm same)
          · intro otherState there
            exact List.getElem?_modify_ne _ _ (lined.states_ne same present there)
    · rw [State.giveUp, here]
      simp only [waiting, if_false]
      exact h

/-! A release, by the caller that has the lock as it ends. -/

section

variable {ended : Phase} {rest : List Nat} {next state : Nat} {d : Caller}

theorem release_last (there : s.stateByWorkflowId.get c.workflowId = some state)
    (lock : s.states[state]? = some ⟨true, []⟩) :
    (s.setPhase i ended).release c.workflowId =
      { s.setPhase i ended with stateByWorkflowId := s.stateByWorkflowId.delete c.workflowId } := by
  rw [State.release, State.setPhase, there]
  simp only [lock, Option.map_some]

theorem release_next (there : s.stateByWorkflowId.get c.workflowId = some state)
    (lock : s.states[state]? = some ⟨true, next :: rest⟩) (different : i ≠ next)
    (found : s.callers[next]? = some d) (waiting : d.phase = .waiting) :
    (s.setPhase i ended).release c.workflowId =
      { s with
        states := s.states.modify state fun lock => { lock with waiters := rest }
        callers := (s.setPhase i ended).callers.modify next fun c => { c with phase := .acquired } } := by
  have found' : (s.callers.modify i fun c => { c with phase := ended })[next]? = some d := by
    rw [List.getElem?_modify_ne _ _ different, found]
  simp only [State.release, State.setPhase, there, lock, Option.map_some, State.wake, found', waiting, if_true]

theorem Lined.released (lined : Lined s c.workflowId [i]) (here : s.callers[i]? = some c)
    (holds : ended.holds = false) (waits : ended ≠ .waiting) :
    Lined ((s.setPhase i ended).release c.workflowId) c.workflowId [] := by
  obtain ⟨state, there, lock⟩ := lined.locked i [] rfl
  have outside {j : Nat} {d : Caller} (found : (s.setPhase i ended).callers[j]? = some d)
      (of : d.workflowId = c.workflowId) : ¬ d.InLine := by
    rcases modified_cases here found with ⟨rfl, rfl⟩ | ⟨different, old⟩
    · rintro (holds' | waits')
      · exact Bool.false_ne_true (holds.symm.trans holds')
      · exact waits waits'
    · rw [lined.inLine_iff old of, List.mem_singleton]
      exact different
  rw [release_last there lock]
  refine ⟨List.Pairwise.nil, fun _ never => (by cases never), ?_, ?_, ?_, fun _ _ never => (by cases never),
    fun _ => OrderedMap.get_delete_self _ _, ?_, ?_⟩
  · intro j d found of
    exact iff_of_false (fun holds' => outside found of (.inl holds')) fun never => (by cases never)
  · intro j d found of
    exact iff_of_false (fun waits' => outside found of (.inr waits')) List.not_mem_nil
  · intro j d found of waits'
    exact absurd (.inr waits') (outside found of)
  · intro third state' there'
    rw [OrderedMap.get_delete_self] at there'
    cases there'
  · intro j d found of _
    exact outside found of

theorem Lined.passedOn (lined : Lined s c.workflowId (i :: next :: rest)) (here : s.callers[i]? = some c)
    (notTimedOut : c.timedOut = false) (holds : ended.holds = false) (waits : ended ≠ .waiting) :
    Lined ((s.setPhase i ended).release c.workflowId) c.workflowId (next :: rest) := by
  obtain ⟨state, there, lock⟩ := lined.locked i (next :: rest) rfl
  have nodup := List.nodup_cons.1 lined.nodup
  have different : i ≠ next := fun same => nodup.1 (same ▸ List.mem_cons_self)
  obtain ⟨d, found, of⟩ := lined.known next (List.mem_cons_of_mem _ List.mem_cons_self)
  have waiting : d.phase = .waiting := (lined.waits next d found of).2 List.mem_cons_self
  have found' : (s.setPhase i ended).callers[next]? = some d := by
    rw [State.setPhase, List.getElem?_modify_ne _ _ different, found]
  -- The one that has ended, the one that has the lock now, and those that nothing happened to.
  have split {j : Nat} {e : Caller} (known : ((s.setPhase i ended).callers.modify next fun c =>
      { c with phase := .acquired })[j]? = some e) :
      (j = i ∧ e = { c with phase := ended }) ∨ (j = next ∧ e = { d with phase := .acquired }) ∨
        j ≠ i ∧ j ≠ next ∧ s.callers[j]? = some e := by
    rcases modified_cases found' known with acquired | ⟨notNext, known⟩
    · exact .inr (.inl acquired)
    · rcases modified_cases here known with ended | ⟨notEnded, old⟩
      · exact .inl ended
      · exact .inr (.inr ⟨notEnded, notNext, old⟩)
  rw [release_next there lock different found waiting]
  refine ⟨(List.pairwise_cons.1 lined.sorted).2, ?_, ?_, ?_, ?_, ?_, fun never => (by cases never),
    lined.apart, ?_⟩
  · intro j among
    by_cases same : next = j
    · subst same
      refine ⟨{ d with phase := .acquired }, ?_, of⟩
      show ((s.setPhase i ended).callers.modify next _)[next]? = _
      rw [List.getElem?_modify_eq, found']
      rfl
    · obtain ⟨e, old, of'⟩ := lined.known j (List.mem_cons_of_mem _ among)
      have different' : i ≠ j := fun same' => nodup.1 (same' ▸ among)
      refine ⟨e, ?_, of'⟩
      show ((s.setPhase i ended).callers.modify next _)[j]? = _
      rw [List.getElem?_modify_ne _ _ same, State.setPhase, List.getElem?_modify_ne _ _ different', old]
  · intro j e known of'
    rcases split known with ⟨rfl, rfl⟩ | ⟨rfl, rfl⟩ | ⟨notEnded, notNext, old⟩
    · exact iff_of_false (fun holds' => Bool.false_ne_true (holds.symm.trans holds'))
        fun head => different (Option.some.inj head).symm
    · exact iff_of_true rfl rfl
    · refine iff_of_false (fun holds' => notEnded ?_) fun head => notNext (Option.some.inj head).symm
      exact (Option.some.inj ((lined.holds j e old of').1 holds')).symm
  · intro j e known of'
    have nextOut := (List.nodup_cons.1 nodup.2).1
    rcases split known with ⟨rfl, rfl⟩ | ⟨rfl, rfl⟩ | ⟨notEnded, notNext, old⟩
    · exact iff_of_false waits fun among => nodup.1 (List.mem_cons_of_mem _ among)
    · exact iff_of_false Phase.noConfusion nextOut
    · rw [lined.waits j e old of', List.tail_cons, List.tail_cons, List.mem_cons, or_iff_right notNext]
  · intro j e known of' waits'
    rcases split known with ⟨rfl, rfl⟩ | ⟨rfl, rfl⟩ | ⟨notEnded, notNext, old⟩
    · exact absurd waits' waits
    · cases waits'
    · exact lined.state j e old of' waits'
  · rintro holder' waiters' same
    obtain ⟨rfl, rfl⟩ := List.cons.inj same
    refine ⟨state, there, ?_⟩
    show (s.states.modify state _)[state]? = _
    rw [List.getElem?_modify_eq, lock]
    rfl
  · intro j e known of' timedOut
    rcases split known with ⟨rfl, rfl⟩ | ⟨rfl, rfl⟩ | ⟨notEnded, notNext, old⟩
    · exact absurd timedOut (Bool.eq_false_iff.1 notTimedOut)
    · exact absurd (.inr waiting) (lined.timedOut _ d found of timedOut)
    · exact lined.timedOut j e old of' timedOut

/-- The caller that has the lock ends, and the next in line has it. -/
theorem orderly_release (h : Orderly s) (here : s.callers[i]? = some c) (running : c.phase = .running)
    (holds : ended.holds = false) (waits : ended ≠ .waiting) :
    Orderly ((s.setPhase i ended).release c.workflowId) := by
  obtain ⟨line, lined⟩ := h c.workflowId
  have first := (lined.holds i c here rfl).1 (by rw [running]; rfl)
  have notTimedOut : c.timedOut = false := by
    rw [← Bool.not_eq_true]
    exact fun timedOut => lined.timedOut i c here rfl timedOut (.inl (by rw [running]; rfl))
  cases line with
  | nil => cases first
  | cons holder waiters =>
    cases first
    obtain ⟨state, there, lock⟩ := lined.locked i waiters rfl
    intro other
    by_cases same : other = c.workflowId
    · subst same
      cases waiters with
      | nil => exact ⟨_, lined.released here holds waits⟩
      | cons next rest => exact ⟨_, lined.passedOn here notTimedOut holds waits⟩
    obtain ⟨line', lined'⟩ := h other
    refine ⟨line', ?_⟩
    cases waiters with
    | nil =>
      rw [release_last there lock]
      refine lined'.of_same ?_ ?_ (fun _ _ => rfl) ?_
      · intro j d of
        exact getElem?_modify_other (fun _ => rfl) here (of ▸ Ne.symm same)
      · exact OrderedMap.get_delete_of_ne _ same
      · intro third state' there' there''
        rw [OrderedMap.get_delete_of_ne _ same] at there'
        rw [OrderedMap.get_delete] at there''
        split at there''
        · cases there''
        · exact lined'.apart third state' there' there''
    | cons next rest =>
      have different : i ≠ next := fun same => (List.nodup_cons.1 lined.nodup).1 (same ▸ List.mem_cons_self)
      obtain ⟨d, found, of⟩ := lined.known next (List.mem_cons_of_mem _ List.mem_cons_self)
      have found' : (s.setPhase i ended).callers[next]? = some d := by
        rw [State.setPhase, List.getElem?_modify_ne _ _ different, found]
      rw [release_next there lock different found ((lined.waits next d found of).2 List.mem_cons_self)]
      refine lined'.of_same ?_ rfl ?_ lined'.apart
      · intro j e of'
        have ofD : d.workflowId ≠ e.workflowId := by
          rw [of, of']
          exact Ne.symm same
        have ended_iff := getElem?_modify_other (j := j) (f := fun c => { c with phase := ended }) (fun _ => rfl) here
          (of' ▸ Ne.symm same)
        have next_iff := getElem?_modify_other (j := j) (f := fun c => { c with phase := .acquired }) (fun _ => rfl)
          found' ofD
        exact next_iff.trans ended_iff
      · intro otherState there'
        exact List.getElem?_modify_ne _ _ (lined.states_ne same there there')

end

theorem orderly_finish (h : Orderly s) (caller : Nat) {ended : Phase} (holds : ended.holds = false)
    (waits : ended ≠ .waiting) : Orderly (s.finish caller ended) := by
  rw [State.finish]
  cases here : s.callers[caller]? with
  | none => exact h
  | some c =>
    cases phase : c.phase with
    | running =>
      simp only [phase]
      exact orderly_release h here phase holds waits
    | runningWithoutLock =>
      simp only [phase]
      exact orderly_setPhase h here (by rw [phase, holds]; rfl)
        (iff_of_false waits (by rw [phase]; exact Phase.noConfusion))
    | waiting => simpa only [phase] using h
    | acquired => simpa only [phase] using h
    | timedOut => simpa only [phase] using h
    | returned => simpa only [phase] using h
    | threw => simpa only [phase] using h

theorem orderly_next (h : Orderly s) (action : Action) : Orderly (next s action) := by
  cases action with
  | runExclusive workflowId => exact orderly_acquire h workflowId false
  | runExclusiveOrTimeout workflowId => exact orderly_acquire h workflowId true
  | giveUp caller => exact orderly_giveUp h caller
  | start caller => exact orderly_start h caller
  | returns caller => exact orderly_finish h caller rfl Phase.noConfusion
  | throws caller => exact orderly_finish h caller rfl Phase.noConfusion

theorem orderly_start_state : Orderly {} := by
  intro workflowId
  refine ⟨[], List.Pairwise.nil, ?_, ?_, ?_, ?_, ?_, fun _ => rfl, ?_, ?_⟩
  · exact fun _ never => (by cases never)
  · exact fun _ _ never => (by cases never)
  · exact fun _ _ never => (by cases never)
  · exact fun _ _ never => (by cases never)
  · exact fun _ _ never => (by cases never)
  · exact fun _ _ never => (by cases never)
  · exact fun _ _ never => (by cases never)

theorem Orderly.excludes (h : Orderly s) : Excludes s := by
  have locked (workflowId : String) : s.isLocked workflowId = false ↔
      ∀ c ∈ s.callers, c.workflowId = workflowId → ¬ c.InLine := by
    obtain ⟨line, lined⟩ := h workflowId
    rw [State.isLocked, OrderedMap.contains, Option.isSome_eq_false_iff, Option.isNone_iff_eq_none, lined.get_iff]
    constructor
    · rintro rfl c among of inLine
      obtain ⟨i, here⟩ := List.mem_iff_getElem?.1 among
      exact List.not_mem_nil ((lined.inLine_iff here of).1 inLine)
    · intro nobody
      refine List.eq_nil_iff_forall_not_mem.2 fun i among => ?_
      obtain ⟨c, here, of⟩ := lined.known i among
      exact nobody c (List.mem_of_getElem? here) of ((lined.inLine_iff here of).2 among)
  refine ⟨?_, ?_, ?_, locked, ?_⟩
  · intro i j c d here there same holds holds'
    obtain ⟨line, lined⟩ := h d.workflowId
    have first := (lined.holds i c here same).1 holds
    have second := (lined.holds j d there rfl).1 holds'
    rw [first] at second
    exact Option.some.inj second
  · intro i j c d here there same earlier holds waiting
    obtain ⟨line, lined⟩ := h d.workflowId
    have first := (lined.holds j d there rfl).1 holds
    have behind := (lined.waits i c here same).1 waiting
    cases line with
    | nil => cases first
    | cons holder waiters =>
      cases first
      have later := (List.pairwise_cons.1 lined.sorted).1 i behind
      omega
  · intro c among timedOut
    obtain ⟨i, here⟩ := List.mem_iff_getElem?.1 among
    obtain ⟨line, lined⟩ := h c.workflowId
    exact lined.timedOut i c here rfl timedOut
  · intro nobody
    refine (OrderedMap.size_eq_zero_iff _).1 ((OrderedMap.size_eq_zero_iff_get _).2 fun workflowId => ?_)
    have free := (locked workflowId).2 fun c among _ => nobody c among
    rwa [State.isLocked, OrderedMap.contains, Option.isSome_eq_false_iff, Option.isNone_iff_eq_none] at free

/-- Nobody waits for a lock that no caller before it has. -/
def Attended (s : State) : Prop :=
  ∀ (i : Nat) (c : Caller), s.callers[i]? = some c → c.phase = .waiting → ∃ (j : Nat) (d : Caller),
    j < i ∧ s.callers[j]? = some d ∧ d.workflowId = c.workflowId ∧ d.phase.holds = true

theorem Orderly.attended (h : Orderly s) : Attended s := by
  intro i c here waiting
  obtain ⟨line, lined⟩ := h c.workflowId
  have behind := (lined.waits i c here rfl).1 waiting
  cases line with
  | nil => cases behind
  | cons holder waiters =>
    obtain ⟨d, there, of⟩ := lined.known holder List.mem_cons_self
    have earlier := (List.pairwise_cons.1 lined.sorted).1 i behind
    exact ⟨holder, d, earlier, there, of, (lined.holds holder d there of).2 rfl⟩

/-- No release, time-out or throw leaves a waiting caller behind without one that will wake it. -/
theorem attended_after (actions : List Action) : Attended (after next {} actions) :=
  (holds_after (I := Orderly) (W := fun _ _ => True) (fun _ action h _ => orderly_next h action) orderly_start_state
    (along_of_forall (R := fun _ => True) fun _ _ => trivial)).attended

/-- In every state of a run the lock excludes, whatever throws and whenever timers fire. -/
theorem excludes_after (actions : List Action) : Excludes (after next {} actions) :=
  (holds_after (I := Orderly) (W := fun _ _ => True) (fun _ action h _ => orderly_next h action) orderly_start_state
    (along_of_forall (R := fun _ => True) fun _ _ => trivial)).excludes

/-- A caller that times out runs its callback beside the one that has the lock. -/
theorem not_neverWithoutLock :
    ¬ ∀ actions, Excludes (after next {} actions) ∧ NeverWithoutLock (after next {} actions) := by
  intro never
  have both := (never [.runExclusive "workflow", .start 0, .runExclusiveOrTimeout "workflow", .giveUp 1, .start 1]).2
  have same := both.alone 0 1 ⟨"workflow", false, 0, .running, false⟩
    ⟨"workflow", true, 0, .runningWithoutLock, true⟩ (by decide) (by decide) rfl (.inl rfl) (.inr rfl)
  cases same

end NodeAutomation.LifecycleLock
