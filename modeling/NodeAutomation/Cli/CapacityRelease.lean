import NodeAutomation.Cli.ActiveExecutions
import NodeAutomation.Lib.Places

/-! Why every reservation is released: an execution whose promise is pending is the one
that its id stands for, so its run finalises no other, and the callback of the promise
removes no other. -/

namespace NodeAutomation.ActiveExecutions

open Places

def ConcurrencyCapacityReservation.Held (r : ConcurrencyCapacityReservation) : Prop :=
  r.released = 0 ∧ r.reserved = r.acquiredReservation.toNat

def ConcurrencyCapacityReservation.Returned (r : ConcurrencyCapacityReservation) : Prop :=
  r.released = r.reserved ∧ r.reserved ≤ 1

theorem ConcurrencyCapacityReservation.Held.release {r : ConcurrencyCapacityReservation}
    (held : r.Held) : r.release.Returned := by
  obtain ⟨released, reserved⟩ := held
  rw [ConcurrencyCapacityReservation.release]
  split
  case isTrue acquired => simp [Returned, released, reserved, acquired]
  case isFalse idle => simp [Returned, released, reserved, idle]

namespace Execution

structure Sound (e : Execution) : Prop where
  finished : e.postExecutePromise ≠ .pending → e.ended = true ∨ e.stopped = true
  settled : e.ended = true ∨ e.stopped = true ∨ e.removed = true → e.postExecutePromise ≠ .pending
  held : e.removed = false → e.capacityReservation.Held
  returned : e.removed = true → e.capacityReservation.Returned

theorem Sound.of_new {e : Execution} (pending : e.postExecutePromise = .pending)
    (running : e.ended = false) (unstopped : e.stopped = false) (unremoved : e.removed = false)
    (held : e.capacityReservation.Held) : e.Sound where
  finished settled := absurd pending settled
  settled finished := absurd finished (by simp [running, unstopped, unremoved])
  held _ := held
  returned removed := absurd removed (by simp [unremoved])

theorem Sound.toSettled {e : Execution} (sound : e.Sound) : e.Settled where
  once := by
    cases removed : e.removed with
    | false =>
      obtain ⟨released, reserved⟩ := sound.held removed
      have bit := Bool.toNat_le e.capacityReservation.acquiredReservation
      omega
    | true =>
      obtain ⟨released, reserved⟩ := sound.returned removed
      omega
  notBefore released := by
    cases removed : e.removed with
    | false => exact absurd (sound.held removed).1 (by omega)
    | true => exact sound.finished (sound.settled (.inr (.inr removed)))
  released finished :=
    ⟨sound.settled (finished.elim .inl fun stopped => .inr (.inl stopped)),
      fun removed => (sound.returned removed).1⟩
  waiters ended := sound.settled (.inl ended)

/-- The callback of its promise is yet to come, and will find the execution by its id. -/
def Current (e : Execution) : Prop :=
  e.postExecutePromise = .pending ∨ e.removed = false ∧ e.status ≠ .waiting

/-- Its run has been finalised, and the callback of its promise takes no id out. -/
def Past (e : Execution) : Prop := e.ended = true ∧ (e.removed = true ∨ e.status = .waiting)

end Execution

structure AddCall.Sound (c : AddCall) : Prop where
  fresh : c.stage = .creating ∨ c.stage = .reserving → c.capacityReservation = {}
  held : c.stage ≠ .thrown → c.capacityReservation.Held
  thrown : c.stage = .thrown → c.capacityReservation.Returned

/-- The map and its objects: an id stands for an execution of that id, for each one whose
callback is yet to find it, and all others of an id are past. -/
structure Book (active : OrderedMap String Nat) (executions : List Execution) : Prop where
  each : ∀ e ∈ executions, e.Sound
  listed : ∀ executionId i, active.get executionId = some i →
    ∃ e, executions[i]? = some e ∧ e.executionId = executionId
  current : ∀ i e, executions[i]? = some e → e.Current → active.get e.executionId = some i
  past : ∀ i j e f, i ≠ j → executions[i]? = some e → executions[j]? = some f →
    e.executionId = f.executionId → e.Past ∧ active.get e.executionId ≠ some i ∨
      f.Past ∧ active.get f.executionId ≠ some j

def State.Sound (s : State) : Prop :=
  Book s.activeExecutions s.executions ∧ ∀ call ∈ s.calls, call.Sound

namespace Book

variable {active active' : OrderedMap String Nat} {executions : List Execution} {i : Nat}
  {e : Execution} {f : Execution → Execution}

/-- One execution changes, and its id may cease to stand for it. -/
theorem modify (h : Book active executions) (here : executions[i]? = some e)
    (map : active' = active ∨
      active.get e.executionId = some i ∧ active' = active.delete e.executionId)
    (same : (f e).executionId = e.executionId) (sound : (f e).Sound)
    (current : (f e).Current → active'.get e.executionId = some i)
    (past : active.get e.executionId ≠ some i → e.Past → (f e).Past) :
    Book active' (executions.modify i f) := by
  have fewer (executionId : String) (j : Nat) (there : active'.get executionId = some j) :
      active.get executionId = some j := by
    cases map with
    | inl same => rwa [same] at there
    | inr gone =>
      rw [gone.2, OrderedMap.get_delete] at there
      split at there
      case isTrue => exact absurd there (by simp)
      case isFalse => exact there
  have keepsId {j : Nat} {was : Execution} (before : executions[j]? = some was) :
      (if i = j then f was else was).executionId = was.executionId := by
    split
    case isTrue at_ =>
      rw [← at_, here] at before
      rw [← Option.some.inj before]
      exact same
    case isFalse => rfl
  have keepsPast {j : Nat} {was : Execution} (before : executions[j]? = some was)
      (old : was.Past ∧ active.get was.executionId ≠ some j) :
      (if i = j then f was else was).Past ∧
        active'.get (if i = j then f was else was).executionId ≠ some j := by
    refine ⟨?_, fun there => old.2 (fewer _ j (keepsId before ▸ there))⟩
    split
    case isTrue at_ =>
      rw [← at_, here] at before
      rw [← Option.some.inj before] at old ⊢
      exact past (at_ ▸ old.2) old.1
    case isFalse => exact old.1
  refine ⟨fun g member => ?_, fun executionId j there => ?_, fun j g atJ isCurrent => ?_,
    fun j k g g' apart atJ atK sameId => ?_⟩
  · cases mem_modify member with
    | inl old => exact h.each g old
    | inr new =>
      obtain ⟨was, atI, equal⟩ := new
      rw [equal, Option.some.inj (atI.symm.trans here)]
      exact sound
  · obtain ⟨g, atJ, its⟩ := h.listed executionId j (fewer executionId j there)
    refine ⟨if i = j then f g else g, by rw [List.getElem?_modify, atJ]; split <;> rfl, ?_⟩
    split
    case isTrue equal =>
      rw [equal, atJ] at here
      rw [Option.some.inj here] at its ⊢
      exact same.trans its
    case isFalse => exact its
  · obtain ⟨was, before, equal⟩ := getElem?_modify_eq_some atJ
    split at equal
    case isTrue at_ =>
      rw [← at_, here] at before
      rw [equal, ← Option.some.inj before] at isCurrent ⊢
      rw [same, ← at_]
      exact current isCurrent
    case isFalse other =>
      rw [equal] at isCurrent ⊢
      have standing := h.current j was before isCurrent
      cases map with
      | inl unchanged => rwa [unchanged]
      | inr gone =>
        rw [gone.2, OrderedMap.get_delete, if_neg]
        · exact standing
        · intro sameId
          rw [← sameId, standing] at gone
          exact other (Option.some.inj gone.1).symm
  · obtain ⟨was, before, equal⟩ := getElem?_modify_eq_some atJ
    obtain ⟨was', before', equal'⟩ := getElem?_modify_eq_some atK
    rw [equal, equal', keepsId before, keepsId before'] at sameId
    rw [equal, equal']
    exact (h.past j k was was' apart before before' sameId).imp (keepsPast before) (keepsPast before')

/-- An execution is added under an id that is free. -/
theorem register {executionId : String} (h : Book active executions)
    (named : e.executionId = executionId) (sound : e.Sound)
    (free : ∀ old ∈ executions, old.executionId = executionId → old.Past) :
    Book (active.set executionId executions.length) (executions ++ [e]) := by
  subst named
  have bounded {executionId : String} {i : Nat} (there : active.get executionId = some i) :
      i < executions.length := by
    obtain ⟨old, here, _⟩ := h.listed executionId i there
    exact (List.getElem?_eq_some_iff.1 here).1
  have replaced {i : Nat} {old : Execution} (here : executions[i]? = some old)
      (sameId : old.executionId = e.executionId) :
      old.Past ∧ (active.set e.executionId executions.length).get old.executionId ≠ some i := by
    refine ⟨free old (List.mem_of_getElem? here) sameId, fun there => ?_⟩
    rw [sameId, OrderedMap.get_set_self] at there
    exact absurd (List.getElem?_eq_some_iff.1 here).1 (Nat.not_lt.2 (Option.some.inj there).le)
  refine ⟨fun g member => ?_, fun executionId j there => ?_, fun j g atJ isCurrent => ?_,
    fun j k g g' apart atJ atK sameId => ?_⟩
  · cases List.mem_append.1 member with
    | inl old => exact h.each g old
    | inr new =>
      rw [List.mem_singleton.1 new]
      exact sound
  · rw [OrderedMap.get_set] at there
    split at there
    case isTrue same =>
      rw [← Option.some.inj there]
      exact ⟨e, List.getElem?_concat_length, same.symm⟩
    case isFalse other =>
      obtain ⟨g, atJ, its⟩ := h.listed executionId j there
      exact ⟨g, getElem?_append_of_some atJ [e], its⟩
  · cases getElem?_concat atJ with
    | inr new =>
      rw [new.1, new.2]
      exact OrderedMap.get_set_self _ _ _
    | inl old =>
      cases eq_or_ne g.executionId e.executionId with
      | inl same =>
        have finished := free g (List.mem_of_getElem? old) same
        have settled := (h.each g (List.mem_of_getElem? old)).settled (.inl finished.1)
        cases isCurrent with
        | inl pending => exact absurd pending settled
        | inr unremoved => exact absurd finished.2 (by simp [unremoved])
      | inr other =>
        rw [OrderedMap.get_set_of_ne _ _ other]
        exact h.current j g old isCurrent
  · cases getElem?_concat atJ with
    | inr new =>
      cases getElem?_concat atK with
      | inr new' => exact absurd (new.1.trans new'.1.symm) apart
      | inl old' => exact .inr (replaced old' (sameId.symm.trans (by rw [new.2])))
    | inl old =>
      cases getElem?_concat atK with
      | inr new' => exact .inl (replaced old (sameId.trans (by rw [new'.2])))
      | inl old' =>
        cases eq_or_ne g.executionId e.executionId with
        | inl same => exact .inl (replaced old same)
        | inr other =>
          rw [OrderedMap.get_set_of_ne _ _ other, OrderedMap.get_set_of_ne _ _ (sameId ▸ other)]
          exact h.past j k g g' apart old old' sameId

end Book

theorem PostExecutePromise.settle_ne_pending (p result : PostExecutePromise)
    (finished : result ≠ .pending) : p.settle result ≠ .pending := by
  cases p with
  | pending => exact finished
  | resolved => exact nofun
  | rejected => exact nofun

namespace AddCall

variable {executions : ExecutionsMode} {c : AddCall} {stage : AddStage}

/-- What may be waited for with the reservation there is. -/
def Reaches (c : AddCall) (stage : AddStage) : Prop :=
  stage = .updating ∨ stage = .settingRunning ∨ stage = .reserving ∧ c.capacityReservation = {}

theorem reaches_of_stageReserved (next : c.stageReserved executions = some stage) : c.Reaches stage := by
  rw [stageReserved] at next
  split at next
  case isTrue => exact .inl (Option.some.inj next).symm
  case isFalse =>
    split at next
    case isTrue => exact .inr (.inl (Option.some.inj next).symm)
    case isFalse => exact nomatch next

theorem reaches_of_stageCreated (empty : c.capacityReservation = {})
    (next : c.stageCreated executions = some stage) : c.Reaches stage := by
  rw [stageCreated] at next
  split at next
  case isTrue => exact .inr (.inr ⟨(Option.some.inj next).symm, empty⟩)
  case isFalse => exact reaches_of_stageReserved next

theorem sound_of_reaches (held : c.capacityReservation.Held) (reaches : c.Reaches stage) :
    AddCall.Sound { c with stage } where
  fresh early := by
    cases reaches with
    | inl updating => exact absurd early (by simp [updating])
    | inr rest => exact rest.elim (fun setting => absurd early (by simp [setting])) And.right
  held _ := held
  thrown thrown := by
    cases reaches with
    | inl updating => exact nomatch updating.symm.trans thrown
    | inr rest =>
      exact rest.elim (fun setting => nomatch setting.symm.trans thrown)
        fun reserving => nomatch reserving.1.symm.trans thrown

end AddCall

namespace State

variable {s : State} {executionId : String} {i : Nat} {e : Execution}

theorem get_of_active (here : s.active executionId = some (i, e)) :
    s.activeExecutions.get executionId = some i ∧ s.executions[i]? = some e := by
  obtain ⟨j, atJ, rest⟩ := Option.bind_eq_some_iff.1 here
  obtain ⟨g, its, same⟩ := Option.bind_eq_some_iff.1 rest
  obtain ⟨sameJ, sameG⟩ := Prod.mk.inj (Option.some.inj same)
  exact ⟨sameJ ▸ atJ, sameG ▸ sameJ ▸ its⟩

namespace Sound

variable (h : s.Sound)

include h

theorem executionId_of_active (here : s.active executionId = some (i, e)) :
    e.executionId = executionId := by
  obtain ⟨there, its⟩ := get_of_active here
  obtain ⟨g, its', same⟩ := h.1.listed executionId i there
  rwa [Option.some.inj (its.symm.trans its')]

theorem modifyActive (here : s.active executionId = some (i, e)) {f : Execution → Execution}
    (same : (f e).executionId = e.executionId) (sound : e.Sound → (f e).Sound) :
    (s.modifyExecution i f).Sound := by
  obtain ⟨there, its⟩ := get_of_active here
  rw [← h.executionId_of_active here] at there
  exact ⟨h.1.modify its (.inl rfl) same (sound (h.1.each e (List.mem_of_getElem? its)))
    (fun _ => there) (fun elsewhere => absurd there elsewhere), h.2⟩

theorem setStatus (status : ExecutionStatus) : (s.setStatus executionId status).Sound := by
  rw [State.setStatus]
  split
  case h_1 => exact h
  case h_2 i e here =>
    exact h.modifyActive here rfl fun sound => ⟨sound.finished, sound.settled, sound.held, sound.returned⟩

theorem attachWorkflowExecution : (s.attachWorkflowExecution executionId).Sound := by
  rw [State.attachWorkflowExecution]
  split
  case h_1 => exact h
  case h_2 i e here =>
    exact h.modifyActive here rfl fun sound => ⟨sound.finished, sound.settled, sound.held, sound.returned⟩

theorem attachResponsePromise (responsePromise : Nat) :
    (s.attachResponsePromise executionId responsePromise).Sound := by
  rw [State.attachResponsePromise]
  split
  case h_1 => exact h
  case h_2 i e here =>
    exact h.modifyActive here rfl fun sound => ⟨sound.finished, sound.settled, sound.held, sound.returned⟩

theorem stopExecution
    (finished : ∀ i e, s.active executionId = some (i, e) → e.status = .waiting →
      e.postExecutePromise ≠ .pending) : (s.stopExecution executionId).Sound := by
  rw [State.stopExecution]
  split
  case h_1 => exact h
  case h_2 i e here =>
    obtain ⟨there, its⟩ := get_of_active here
    have sameId := h.executionId_of_active here
    have sound := h.1.each e (List.mem_of_getElem? its)
    split
    case isTrue waiting =>
      have settled := finished i e here waiting
      refine ⟨h.1.modify its (.inr ⟨sameId.symm ▸ there, by rw [sameId]; rfl⟩) rfl
        ⟨fun _ => .inr rfl, fun _ => settled, sound.held, sound.returned⟩ (fun isCurrent => ?_)
        (fun elsewhere => absurd (sameId.symm ▸ there) elsewhere), h.2⟩
      exact isCurrent.elim (fun pending => absurd pending settled)
        fun unremoved => absurd waiting unremoved.2
    case isFalse =>
      have settled := e.postExecutePromise.settle_ne_pending .rejected (by decide)
      refine modifyActive (s := { s with effects := _ }) h here rfl fun _ => ?_
      exact ⟨fun _ => .inr rfl, fun _ => settled, sound.held, sound.returned⟩

theorem runEnds : (s.runEnds i).Sound := by
  rw [State.runEnds]
  split
  case h_1 => exact h
  case h_2 e its =>
    have sound := h.1.each e (List.mem_of_getElem? its)
    split
    case isTrue => exact h
    case isFalse running =>
      cases there : s.activeExecutions.get e.executionId with
      | none =>
        have inactive : (s.modifyExecution i fun e => { e with ended := true }).active e.executionId = none := by
          simp [active, modifyExecution, there]
        have settled : e.postExecutePromise ≠ .pending := fun pending =>
          absurd (h.1.current i e its (.inl pending)) (by simp [there])
        rw [finalizeExecution, inactive]
        exact ⟨h.1.modify its (.inl rfl) rfl ⟨fun _ => .inl rfl, fun _ => settled, sound.held,
          sound.returned⟩ (fun isCurrent => h.1.current i e its isCurrent)
          (fun _ past => ⟨rfl, past.2⟩), h.2⟩
      | some k =>
        obtain ⟨g, atK, sameId⟩ := h.1.listed e.executionId k there
        have own : k = i := by
          by_contra apart
          cases h.1.past i k e g (Ne.symm apart) its atK sameId.symm with
          | inl past => exact running past.1.1
          | inr past => exact past.2 (sameId.symm ▸ there)
        subst own
        have active : (s.modifyExecution k fun e => { e with ended := true }).active e.executionId =
            some (k, { e with ended := true }) := by
          simp [active, modifyExecution, there, its]
        have settled := e.postExecutePromise.settle_ne_pending .resolved (by decide)
        rw [finalizeExecution, active]
        simp only [modifyExecution, List.modify_modify_eq]
        exact ⟨h.1.modify its (.inl rfl) rfl ⟨fun _ => .inl rfl, fun _ => settled, sound.held,
          sound.returned⟩ (fun _ => there) (fun elsewhere => absurd there elsewhere), h.2⟩

theorem postExecuted : (s.postExecuted i).Sound := by
  rw [State.postExecuted]
  split
  case h_1 => exact h
  case h_2 e its =>
    have sound := h.1.each e (List.mem_of_getElem? its)
    split
    case isFalse => exact h
    case isTrue due =>
      have returned := (sound.held due.2).release
      split
      case isTrue waiting =>
        refine ⟨h.1.modify its (.inl rfl) rfl ⟨sound.finished, fun _ => due.1, nofun, fun _ => returned⟩
          (fun isCurrent => ?_) (fun _ past => ⟨past.1, .inl rfl⟩), h.2⟩
        exact isCurrent.elim (fun pending => absurd pending due.1) fun unremoved => nomatch unremoved.1
      case isFalse awake =>
        refine ⟨h.1.modify its (.inr ⟨h.1.current i e its (.inr ⟨due.2, awake⟩), rfl⟩) rfl
          ⟨sound.finished, fun _ => due.1, nofun, fun _ => returned⟩
          (fun isCurrent => ?_) (fun _ past => ⟨past.1, .inl rfl⟩), h.2⟩
        exact isCurrent.elim (fun pending => absurd pending due.1) fun unremoved => nomatch unremoved.1

theorem setCall {call : Nat} {new : AddCall} (sound : new.Sound) : (s.setCall call new).Sound := by
  refine ⟨h.1, fun c member => ?_⟩
  cases List.mem_or_eq_of_mem_set member with
  | inl old => exact h.2 c old
  | inr same => exact same ▸ sound

theorem throwAdd {call : Nat} {c : AddCall} (held : c.capacityReservation.Held) :
    (s.throwAdd call c).Sound :=
  h.setCall ⟨nofun, fun other => absurd rfl other, fun _ => held.release⟩

theorem register {call : Nat} {c : AddCall} (held : c.capacityReservation.Held)
    (free : s.Free executionId) : (s.register call c executionId).Sound := by
  have returned : AddCall.Sound { c with stage := .returned, capacityReservation := {} } :=
    ⟨nofun, fun _ => ⟨rfl, rfl⟩, nofun⟩
  rw [State.register]
  exact ⟨h.1.register rfl (.of_new rfl rfl rfl rfl held) free, (h.setCall returned).2⟩

theorem goOn {call : Nat} {c : AddCall} {stage : Option AddStage} (held : c.capacityReservation.Held)
    (reaches : ∀ next, stage = some next → c.Reaches next) (free : stage = none → s.Free executionId) :
    (s.goOn call c executionId stage).Sound := by
  cases stage with
  | none => exact h.register held (free rfl)
  | some stage => exact h.setCall (AddCall.sound_of_reaches held (reaches stage rfl))

theorem created {executions : ExecutionsMode} {call : Nat}
    (free : (registers executions s (.created call executionId)).all fun id => s.Free id) :
    (s.created executions call executionId).Sound := by
  rw [State.created]
  split
  case h_1 => exact h
  case h_2 c its =>
    split
    case isFalse => exact h
    case isTrue creating =>
      have empty := (h.2 c (List.mem_of_getElem? its)).fresh (.inl creating)
      refine h.goOn (empty ▸ ⟨rfl, rfl⟩) (fun next => AddCall.reaches_of_stageCreated empty)
        (fun direct => ?_)
      have registered : registers executions s (.created call executionId) = some executionId := by
        have direct' : c.stageCreated executions = none := direct
        simp [registers, its, creating, direct']
      simpa [registered] using free

theorem ends {executions : ExecutionsMode} {call : Nat} {ok : Bool} {c : AddCall}
    (its : s.calls[call]? = some c) (known : c.executionId = some executionId)
    (last : c.stage = .settingRunning ∨ c.stage = .updating)
    (free : (registers executions s (.resumeAdd call ok)).all fun id => s.Free id) :
    (if ok then s.register call c executionId else s.throwAdd call c).Sound := by
  have unthrown : c.stage ≠ .thrown := by
    intro thrown
    simp [thrown] at last
  have held := (h.2 c (List.mem_of_getElem? its)).held unthrown
  split
  case isFalse => exact h.throwAdd held
  case isTrue succeeds =>
    have registered : registers executions s (.resumeAdd call ok) = some executionId := by
      simp [registers, its, last, known, succeeds]
    exact h.register held (by simpa [registered] using free)

theorem resumeAdd {executions : ExecutionsMode} {call : Nat} {ok : Bool}
    (free : (registers executions s (.resumeAdd call ok)).all fun id => s.Free id) :
    (s.resumeAdd executions call ok).Sound := by
  rw [State.resumeAdd]
  split
  case h_1 => exact h
  case h_2 c its =>
    have sound := h.2 c (List.mem_of_getElem? its)
    split
    case h_1 creating =>
      split
      case isTrue => exact h
      case isFalse => exact h.throwAdd (sound.held (by simp [creating]))
    case h_2 id reserving known =>
      have empty := sound.fresh (.inr reserving)
      split
      case isFalse => exact h.throwAdd (empty ▸ ⟨rfl, rfl⟩)
      case isTrue succeeds =>
        refine h.goOn (empty ▸ ⟨rfl, rfl⟩) (fun next => AddCall.reaches_of_stageReserved) (fun direct => ?_)
        have direct' : c.stageReserved executions = none := direct
        have registered : registers executions s (.resumeAdd call ok) = some id := by
          simp [registers, its, reserving, direct', known, succeeds]
        simpa [registered] using free
    case h_3 id setting known => exact h.ends its known (.inl setting) free
    case h_4 id updating known => exact h.ends its known (.inr updating) free
    case h_5 => exact h

theorem append {c : AddCall} (sound : c.Sound) : State.Sound { s with calls := s.calls ++ [c] } := by
  refine ⟨h.1, fun other member => ?_⟩
  cases List.mem_append.1 member with
  | inl old => exact h.2 other old
  | inr new => exact List.mem_singleton.1 new ▸ sound

theorem addResuming {mode : WorkflowExecuteMode} {httpResponse : Option Nat} :
    (s.addResuming executionId mode httpResponse).Sound := by
  refine h.append ⟨fun _ => rfl, fun _ => ⟨rfl, rfl⟩, fun thrown => ?_⟩
  dsimp only at thrown
  split at thrown
  · exact nomatch thrown
  · exact nomatch thrown

theorem step {executions : ExecutionsMode} {action : Action}
    (orderly : Orderly executions s action) : (step executions s action).Sound := by
  cases action with
  | addNew mode httpResponse => exact h.append ⟨fun _ => rfl, fun _ => ⟨rfl, rfl⟩, nofun⟩
  | addResuming executionId mode httpResponse =>
    exact h.addResuming
  | created call executionId => exact h.created orderly.2
  | resumeAdd call ok => exact h.resumeAdd orderly.2
  | postExecuted execution => exact h.postExecuted
  | attachWorkflowExecution executionId => exact h.attachWorkflowExecution
  | attachResponsePromise executionId responsePromise => exact h.attachResponsePromise responsePromise
  | setStatus executionId status => exact h.setStatus status
  | stopExecution executionId =>
    refine h.stopExecution fun i e here waiting pending => ?_
    have stops := orderly.1
    simp [stopsWaitingRun, here, waiting, pending] at stops
  | runEnds execution => exact h.runEnds

end Sound

theorem sound_empty : State.Sound {} := by
  refine ⟨⟨fun _ member => (nomatch member), fun _ _ there => ?_, fun _ _ here => ?_,
    fun _ _ _ _ _ here => ?_⟩, fun _ member => (nomatch member)⟩
  · rw [OrderedMap.get_empty] at there
    exact nomatch there
  · exact nomatch here
  · exact nomatch here

theorem Sound.toSettled (h : s.Sound) : s.Settled where
  executions e member := (h.1.each e member).toSettled
  thrown call member thrown := (h.2 call member).thrown thrown

end State

/-- Where no waiting execution is stopped under its run, and no id is added again before
its executions are over, every reservation is released once and every waiter hears. -/
theorem settled_of_orderly {executions : ExecutionsMode} {actions : List Action}
    (orderly : Runs.Along (step executions) (Orderly executions) {} actions) :
    (Runs.after (step executions) {} actions).Settled :=
  (Runs.holds_after (I := State.Sound) (fun _ _ sound => State.Sound.step sound) State.sound_empty orderly).toSettled

/-- An execution that waits, is resumed and then stopped. -/
theorem settled_after_resumption :
    (Runs.after (step .regular) {}
      [.addNew .webhook none, .created 0 "1", .resumeAdd 0 true, .resumeAdd 0 true,
        .setStatus "1" .waiting, .runEnds 0, .postExecuted 0,
        .addResuming "1" .webhook none, .resumeAdd 1 true, .resumeAdd 1 true,
        .stopExecution "1", .postExecuted 1]).Settled :=
  settled_of_orderly (by decide)

/-- Stopped between `setStatus` and the end of its run, an execution is forgotten. -/
theorem stopped_while_waiting_unsettled :
    ¬ (Runs.after (step .regular) {}
      [.addNew .webhook none, .created 0 "1", .resumeAdd 0 true, .resumeAdd 0 true,
        .setStatus "1" .waiting, .stopExecution "1", .runEnds 0]).Settled := by
  intro settled
  have leaked : ∃ e ∈ (Runs.after (step .regular) {}
      [.addNew .webhook none, .created 0 "1", .resumeAdd 0 true, .resumeAdd 0 true,
        .setStatus "1" .waiting, .stopExecution "1", .runEnds 0]).executions,
      e.ended = true ∧ e.postExecutePromise = .pending := by decide
  obtain ⟨e, member, ended, pending⟩ := leaked
  exact (settled.executions e member).waiters ended pending

end NodeAutomation.ActiveExecutions
