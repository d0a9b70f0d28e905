import NodeAutomation.Cli.PublicationApplier

/-! The triggers that run while records of a workflow are applied: whatever a record is
suspended at, they are among those that it leaves to run. -/

namespace NodeAutomation.WorkflowPublication

open WorkflowDiff

section

variable {types : NodeTypes} {version : Version} {node other : VersionNode} {name id : String}

theorem getNode_eq_some_iff : getNode version name = some node ↔ node ∈ workflowNodes version ∧ node.name = name := by
  rw [workflowNodes, OrderedMap.mem_values_iff]
  constructor
  · intro found
    refine ⟨⟨name, found⟩, ?_⟩
    obtain ⟨known, -, same⟩ := List.mem_map.1 (OrderedMap.mem_of_get_ofList found)
    obtain ⟨names, nodes⟩ := Prod.mk.inj same
    rw [← nodes, names]
  · rintro ⟨⟨known, found⟩, names⟩
    obtain ⟨listed, -, same⟩ := List.mem_map.1 (OrderedMap.mem_of_get_ofList found)
    obtain ⟨names', nodes⟩ := Prod.mk.inj same
    rw [← names', nodes, names] at found
    exact found

theorem eq_of_name_eq (member : node ∈ workflowNodes version) (member' : other ∈ workflowNodes version)
    (same : node.name = other.name) : node = other := by
  have found := getNode_eq_some_iff.2 ⟨member, rfl⟩
  rw [same, getNode_eq_some_iff.2 ⟨member', rfl⟩, Option.some.injEq] at found
  exact found.symm

def IsTrigger (types : NodeTypes) (node : VersionNode) : Prop :=
  (types.getByNameAndVersion node.type node.typeVersion).any (fun nodeType => nodeType.trigger || nodeType.poll) = true

theorem mem_queryNodes {check : INodeType → Bool} : node ∈ queryNodes types version check ↔
    node ∈ workflowNodes version ∧ node.disabled = false ∧
      (types.getByNameAndVersion node.type node.typeVersion).any check = true := by
  rw [queryNodes, List.mem_filter, Bool.and_eq_true, Bool.not_eq_true']

theorem mem_getTriggerNodeIds : id ∈ getTriggerNodeIds types version ↔
    ∃ node ∈ getEnabledTriggerNodes types version, node.id = id ∧ IsTrigger types node := by
  simp only [getTriggerNodeIds, getEnabledTriggerNodes, List.mem_map, List.mem_append, mem_queryNodes, IsTrigger]
  constructor
  · rintro ⟨node, ⟨member, active, trigger⟩ | ⟨member, active, poll⟩, same⟩
    · refine ⟨node, ⟨member, active, ?_⟩, same, ?_⟩ <;> revert trigger <;>
        cases types.getByNameAndVersion node.type node.typeVersion <;> simp +contextual
    · refine ⟨node, ⟨member, active, ?_⟩, same, ?_⟩ <;> revert poll <;>
        cases types.getByNameAndVersion node.type node.typeVersion <;> simp +contextual
  · rintro ⟨node, ⟨member, active, -⟩, same, trigger⟩
    refine ⟨node, ?_, same⟩
    cases found : types.getByNameAndVersion node.type node.typeVersion with
    | none => rw [found] at trigger; cases trigger
    | some nodeType =>
      rw [found, Option.any_some, Bool.or_eq_true] at trigger
      cases trigger with
      | inl trigger => exact .inl ⟨member, active, trigger⟩
      | inr poll => exact .inr ⟨member, active, poll⟩

theorem mem_workflowNodes_of_enabled (member : node ∈ getEnabledTriggerNodes types version) :
    node ∈ workflowNodes version ∧ node.disabled = false :=
  ⟨(mem_queryNodes.1 member).1, (mem_queryNodes.1 member).2.1⟩

theorem diffable_property (property : String) (member : property ∈ propsToCompare)
    (compared : compareNodes node.diffable other.diffable = true) :
    sameProperty node.diffable other.diffable property = true :=
  List.all_eq_true.1 (Bool.and_eq_true_iff.1 compared).1 property member

theorem diffable_get (node : VersionNode) :
    node.diffable.properties.get "name" = some (.string node.name) ∧
      node.diffable.properties.get "type" = some (.string node.type) ∧
      node.diffable.properties.get "typeVersion" = some (.number node.typeVersion) := by
  refine ⟨?_, ?_, ?_⟩ <;>
    refine OrderedMap.get_ofList_of_mem (by simp) fun value member => ?_ <;>
    simpa using member

theorem compared_types (compared : compareNodes node.diffable other.diffable = true) :
    node.name = other.name ∧ node.type = other.type ∧ node.typeVersion = other.typeVersion := by
  obtain ⟨name, type, typeVersion⟩ := diffable_get node
  obtain ⟨name', type', typeVersion'⟩ := diffable_get other
  have names := diffable_property "name" (by simp [propsToCompare]) compared
  have nodeTypes := diffable_property "type" (by simp [propsToCompare]) compared
  have versions := diffable_property "typeVersion" (by simp [propsToCompare]) compared
  rw [sameProperty, name, name'] at names
  rw [sameProperty, type, type'] at nodeTypes
  rw [sameProperty, typeVersion, typeVersion'] at versions
  simp only [isEqual, decide_eq_true_eq] at names nodeTypes versions
  exact ⟨names, nodeTypes, Int.ofNat.inj versions⟩

theorem IsTrigger.of_compared (trigger : IsTrigger types node)
    (compared : compareNodes node.diffable other.diffable = true) : IsTrigger types other := by
  obtain ⟨-, sameType, sameVersion⟩ := compared_types compared
  rw [IsTrigger, ← sameType, ← sameVersion]
  exact trigger

end

namespace Memory

variable {memory : Memory} {id other : String}

theorem mem_registered : id ∈ memory.registered ↔ id ∈ memory.crons ∨ memory.triggers.contains id = true := by
  rw [registered, List.mem_append, OrderedMap.mem_keys_iff, OrderedMap.contains, Option.isSome_iff_exists]

theorem mem_addTrigger {registration : Registration} :
    other ∈ (memory.addTrigger id registration).registered ↔
      other ∈ memory.registered ∨ other = id ∧ registration.registers = true := by
  obtain ⟨entry, crons⟩ := registration
  rw [mem_registered, mem_registered, addTrigger]
  by_cases same : other = id
  · cases entry <;> cases crons <;> simp [same, OrderedMap.contains, Registration.registers]
  · cases entry <;> cases crons <;> simp [same, OrderedMap.contains, OrderedMap.get_set]

theorem mem_rollBack_of_ne {polls : Bool} (apart : other ≠ id) :
    other ∈ (memory.rollBack id polls).registered ↔ other ∈ memory.registered := by
  rw [mem_registered, mem_registered, rollBack]
  cases polls <;> simp [apart, OrderedMap.contains, OrderedMap.get_delete]

theorem mem_rollBack {polls : Bool} (after : other ∈ (memory.rollBack id polls).registered) :
    other ∈ memory.registered := by
  by_cases same : other = id
  · rw [mem_registered, rollBack] at after
    refine mem_registered.2 (.inr ?_)
    cases polls with
    | false => simpa [same] using after
    | true => simp [same, OrderedMap.contains] at after
  · exact (mem_rollBack_of_ne same).1 after

theorem mem_removeTriggers {ids : List String} :
    id ∈ (memory.removeTriggers ids).registered ↔
      id ∈ memory.registered ∧ (id ∈ ids → memory.triggers.get id = some true) := by
  rw [mem_registered, mem_registered, removeTriggers]
  by_cases removed : id ∈ ids
  · by_cases responds : memory.triggers.get id = some true
    · simp [removed, responds, OrderedMap.contains, OrderedMap.get_deleteMany]
    · simp [removed, responds, OrderedMap.contains, OrderedMap.get_deleteMany]
  · simp [removed, OrderedMap.contains, OrderedMap.get_deleteMany]

theorem mem_delete : other ∈ (memory.delete id).registered ↔
    other ∈ memory.registered ∧ (other = id → other ∈ memory.crons) := by
  rw [mem_registered, mem_registered, delete]
  by_cases same : other = id
  · simp [same, OrderedMap.contains]
    tauto
  · simp [same, OrderedMap.contains, OrderedMap.get_delete]

end Memory

variable {setting : Setting} {version : String} {node other : VersionNode}

theorem mem_activeNodes_of_trigger (member : node ∈ setting.triggerNodes version) :
    node ∈ setting.activeNodes version := by
  obtain ⟨inVersion, active⟩ := mem_workflowNodes_of_enabled member
  exact List.mem_filter.2 ⟨inVersion, by rw [active, Bool.not_false]⟩

theorem eq_of_id_eq (distinct : setting.DistinctIds version) (member : node ∈ setting.activeNodes version)
    (member' : other ∈ setting.activeNodes version) (same : node.id = other.id) : node = other :=
  List.inj_on_of_nodup_map distinct.1 member member' same

theorem triggerNodes_nodup (distinct : setting.DistinctIds version) :
    ((setting.triggerNodes version).map VersionNode.id).Nodup := by
  have whole := distinct.1
  refine whole.sublist (List.Sublist.map _ ?_)
  have filtered : setting.triggerNodes version = (setting.activeNodes version).filter fun node =>
      (setting.types.getByNameAndVersion node.type node.typeVersion).any fun nodeType =>
        nodeType.trigger || nodeType.poll || nodeType.webhook := by
    rw [Setting.activeNodes, List.filter_filter, Setting.triggerNodes, getEnabledTriggerNodes, queryNodes]
    exact List.filter_congr fun node _ => Bool.and_comm _ _
  rw [filtered]
  exact List.filter_sublist

/-- The plan removes every node that the record does not leave as it is. -/
structure Plan.Fits (setting : Setting) (plan : Plan) : Prop where
  record : plan.unpublishing = false → setting.DistinctIds plan.record
  removable : plan.oldVersion = none → plan.toRemove = []
  left : plan.unpublishing = false → ∀ old ∈ plan.oldVersion, ∀ node ∈ setting.triggerNodes old,
    node.id ∉ plan.toRemove → ∃ newNode ∈ setting.triggerNodes plan.record,
      node.id = newNode.id ∧ compareNodes node.diffable newNode.diffable = true
  all : plan.unpublishing = true → ∀ old ∈ plan.oldVersion, ∀ node ∈ setting.triggerNodes old, node.id ∈ plan.toRemove

/-- A non-webhook trigger of the old version that is not removed. -/
def Plan.Leaves (setting : Setting) (plan : Plan) (id : String) : Prop :=
  ∃ old ∈ plan.oldVersion, id ∈ setting.nonWebhookIds old ∧ id ∉ plan.toRemove

theorem fits_publishPlan {s : State} {record : String} (distinct : setting.DistinctIds record)
    (oldDistinct : ∀ old ∈ s.database.publishedVersion, setting.DistinctIds old) :
    (s.publishPlan setting record s.database.publishedVersion).Fits setting where
  record _ := distinct
  removable := by
    intro (missing : s.database.publishedVersion = none)
    have nodup := triggerNodes_nodup distinct
    rw [missing]
    refine List.eq_nil_iff_forall_not_mem.2 fun id member => ?_
    obtain ⟨⟨_, never, _⟩, _⟩ := (mem_toRemove (by simp) nodup).1 member
    exact absurd never List.not_mem_nil
  left := by
    intro _ old (published : old ∈ s.database.publishedVersion) node member kept
    have nodup := triggerNodes_nodup (oldDistinct old published)
    rw [Option.mem_def.1 published] at kept
    have unchanged := not_not.1 fun changed =>
      kept ((mem_toRemove nodup (triggerNodes_nodup distinct)).2 ⟨⟨node, member, rfl⟩, changed⟩)
    obtain ⟨known, inOld, newNode, inNew, ids, ids', compared⟩ := unchanged
    rw [List.inj_on_of_nodup_map nodup inOld member ids] at compared
    exact ⟨newNode, inNew, ids'.symm, compared⟩
  all never := by cases never

theorem fits_unpublishPlan (record old : String) : (State.unpublishPlan setting record old).Fits setting where
  record never := by cases never
  removable never := by cases never
  left never := by cases never
  all _ old' same node member := by
    rw [← Option.some.inj same] at member
    exact List.mem_map_of_mem member

theorem Plan.Fits.of_toAdd {plan : Plan} (fits : plan.Fits setting) (toAdd : List String) :
    { plan with toAdd }.Fits setting := ⟨fits.record, fits.removable, fits.left, fits.all⟩

theorem Plan.Fits.leaves_new {plan : Plan} {id : String} (fits : plan.Fits setting) (publishing : plan.unpublishing = false)
    (leaves : plan.Leaves setting id) : id ∈ setting.nonWebhookIds plan.record := by
  obtain ⟨old, isOld, wanted, kept⟩ := leaves
  obtain ⟨node, member, same, trigger⟩ := mem_getTriggerNodeIds.1 wanted
  obtain ⟨newNode, member', same', compared⟩ := fits.left publishing old isOld node member (same ▸ kept)
  exact mem_getTriggerNodeIds.2 ⟨newNode, member', same'.symm.trans same, trigger.of_compared compared⟩

theorem Plan.Fits.not_leaves {plan : Plan} {id : String} (fits : plan.Fits setting) (unpublishing : plan.unpublishing = true) :
    ¬ plan.Leaves setting id := by
  rintro ⟨old, isOld, wanted, kept⟩
  obtain ⟨node, member, same, -⟩ := mem_getTriggerNodeIds.1 wanted
  exact kept (same ▸ fits.all unpublishing old isOld node member)

/-- The plan of a record fits, and is against the version that is published, or once that is
written the record's is. -/
def Stage.Fits (setting : Setting) (published : Option String) : Stage → Prop
  | .idle | .resolvingVersions _ => True
  | .readingWebhooks plan => plan.oldVersion = published ∧ plan.Fits setting ∧ plan.unpublishing = false
  | .beginningDeactivation plan | .deactivating plan _ _ _ | .invalidatingCache plan | .writingPublishedVersion plan =>
    plan.oldVersion = published ∧ plan.Fits setting
  | .refreshingCache plan | .beginningActivation plan | .activating plan _ _ _ | .savingTriggerCount plan _
  | .updatingTriggerCount plan => published = some plan.record

/-- A non-webhook trigger of the published version. -/
def Running (setting : Setting) (published : Option String) (id : String) : Prop :=
  ∃ version ∈ published, id ∈ setting.nonWebhookIds version

/-- The nodes that may be registered: between the two versions only what is left, and of those to
remove what is being closed, without crons. -/
def Stage.Allows (setting : Setting) (published : Option String) (crons : List String) (id : String) : Stage → Prop
  | .invalidatingCache plan | .writingPublishedVersion plan => plan.Leaves setting id
  | .deactivating plan _ closing rejected =>
    Running setting published id ∧ (rejected = none → id ∈ plan.toRemove → id ∈ closing ∧ id ∉ crons)
  | .idle | .resolvingVersions _ | .readingWebhooks _ | .beginningDeactivation _ | .refreshingCache _
  | .beginningActivation _ | .activating _ _ _ _ | .savingTriggerCount _ _ | .updatingTriggerCount _ =>
    Running setting published id

instance (published : Option String) (id : String) : Decidable (Running setting published id) :=
  inferInstanceAs (Decidable (∃ version ∈ published, id ∈ setting.nonWebhookIds version))

instance (plan : Plan) (id : String) : Decidable (plan.Leaves setting id) :=
  inferInstanceAs (Decidable (∃ old ∈ plan.oldVersion, id ∈ setting.nonWebhookIds old ∧ id ∉ plan.toRemove))

instance (published : Option String) (crons : List String) (id : String) :
    DecidablePred (Stage.Allows setting published crons id)
  | .invalidatingCache plan | .writingPublishedVersion plan => inferInstanceAs (Decidable (plan.Leaves setting id))
  | .deactivating plan _ closing rejected =>
    inferInstanceAs (Decidable (Running setting published id ∧
      (rejected = none → id ∈ plan.toRemove → id ∈ closing ∧ id ∉ crons)))
  | .idle | .resolvingVersions _ | .readingWebhooks _ | .beginningDeactivation _ | .refreshingCache _
  | .beginningActivation _ | .activating _ _ _ _ | .savingTriggerCount _ _ | .updatingTriggerCount _ =>
    inferInstanceAs (Decidable (Running setting published id))

def Stage.Registers (setting : Setting) : Stage → Prop
  | .activating plan _ triggerTasks _ => ∀ task ∈ triggerTasks, task.nodeId ∈ setting.nonWebhookIds plan.record
  | .idle | .resolvingVersions _ | .readingWebhooks _ | .beginningDeactivation _ | .deactivating _ _ _ _
  | .invalidatingCache _ | .writingPublishedVersion _ | .refreshingCache _ | .beginningActivation _
  | .savingTriggerCount _ _ | .updatingTriggerCount _ => True

/-- Every registered node is allowed, or bound to be deleted by something else. -/
structure Within (setting : Setting) (doomed : String → Prop) (s : State) : Prop where
  published : ∀ version ∈ s.database.publishedVersion, setting.DistinctIds version
  stage : s.stage.Fits setting s.database.publishedVersion
  registered : ∀ id ∈ s.memory.registered,
    s.stage.Allows setting s.database.publishedVersion s.memory.crons id ∨ doomed id
  registers : s.stage.Registers setting

section

variable {doomed : String → Prop} {s : State} {plan : Plan} {record : String}

theorem Plan.Leaves.running {published : Option String} {id : String} (leaves : plan.Leaves setting id)
    (isPublished : plan.oldVersion = published) : Running setting published id := by
  obtain ⟨old, isOld, wanted, -⟩ := leaves
  exact ⟨old, isPublished ▸ isOld, wanted⟩

section

variable (h : Within setting doomed s)
include h

theorem Within.running (id : String) (registered : id ∈ s.memory.registered) :
    Running setting s.database.publishedVersion id ∨ doomed id := by
  refine (h.registered id registered).imp_left ?_
  have planFits := h.stage
  revert planFits
  cases s.stage with
  | invalidatingCache plan => exact fun planFits leaves => Plan.Leaves.running leaves planFits.1
  | writingPublishedVersion plan => exact fun planFits leaves => Plan.Leaves.running leaves planFits.1
  | deactivating plan phase closing rejected => exact fun _ allowed => allowed.1
  | _ => exact fun _ running => running

theorem Within.report (record : String) (result : PublicationResult) :
    Within setting doomed (s.report record result) := ⟨h.published, trivial, h.running, trivial⟩

theorem Within.throw (record : String) (error : ActivationError) :
    Within setting doomed (s.throw record error) := h.report record _

theorem Within.resolved (stage : s.stage = .resolvingVersions record)
    (distinct : ∀ record ∈ s.publishes, setting.DistinctIds record) : Within setting doomed (s.resolved setting record) := by
  rw [State.resolved]
  split
  case h_1 => exact h.report record _
  case h_2 =>
    split
    case h_1 => exact h.report record _
    case h_2 old published =>
      have fits : (State.unpublishPlan setting record old).Fits setting := fits_unpublishPlan record old
      have same : (State.unpublishPlan setting record old).oldVersion = s.database.publishedVersion := published.symm
      by_cases none : (State.unpublishPlan setting record old).toRemove.isEmpty = true
      · simp only [none, if_true]
        refine ⟨h.published, ⟨same, fits⟩, fun id registered => (h.running id registered).imp_left fun running => ?_, trivial⟩
        obtain ⟨version, isPublished, wanted⟩ := running
        refine ⟨version, same ▸ isPublished, wanted, ?_⟩
        rw [List.isEmpty_iff.1 none]
        exact List.not_mem_nil
      · simp only [none]
        exact ⟨h.published, ⟨same, fits⟩, h.running, trivial⟩
  case h_3 _ _ active =>
    by_cases missing : record ∉ s.database.history
    · rw [if_pos missing]
      exact h.report record _
    · rw [if_neg missing]
      have publishes : s.publishes = some record := by
        rw [State.publishes, stage, active]
        exact if_pos (not_not.1 missing)
      exact ⟨h.published, ⟨rfl, fits_publishPlan (distinct record publishes) h.published, rfl⟩, h.running, trivial⟩

theorem Within.planned (stage : s.stage = .readingWebhooks plan) :
    Within setting doomed (s.planned setting plan) := by
  have planFits := h.stage
  rw [stage] at planFits
  obtain ⟨same, fits, -⟩ := planFits
  rw [State.planned]
  by_cases removes : (!plan.toRemove.isEmpty && plan.oldVersion.isSome) = true
  · simp only [removes, if_true]
    exact ⟨h.published, ⟨same, fits.of_toAdd _⟩, h.running, trivial⟩
  · simp only [removes]
    refine ⟨h.published, ⟨same, fits.of_toAdd _⟩,
      fun id registered => (h.running id registered).imp_left fun running => ?_, trivial⟩
    obtain ⟨version, isPublished, wanted⟩ := running
    have isOld : version ∈ plan.oldVersion := same ▸ isPublished
    refine ⟨version, isOld, wanted, ?_⟩
    rw [Option.mem_def.1 isOld] at removes
    have none : plan.toRemove = [] := by simpa using removes
    intro (removed : id ∈ plan.toRemove)
    rw [none] at removed
    exact List.not_mem_nil removed

theorem Within.beginDeactivation (stage : s.stage = .beginningDeactivation plan) :
    Within setting doomed (s.beginDeactivation setting plan) := by
  have planFits := h.stage
  rw [stage] at planFits
  refine ⟨h.published, planFits, fun id registered => ?_, trivial⟩
  obtain ⟨before, responding⟩ := Memory.mem_removeTriggers.1 registered
  refine (h.running id before).imp_left fun running => ⟨running, fun _ removed => ?_⟩
  obtain ⟨version, isPublished, wanted⟩ := running
  have isOld : State.oldNodes setting plan = setting.version version := by
    rw [State.oldNodes, planFits.1, show s.database.publishedVersion = some version from isPublished]
    rfl
  have listed : id ∈ (getTriggerNodeIds setting.types (State.oldNodes setting plan)).filter (· ∈ plan.toRemove) :=
    List.mem_filter.2 ⟨isOld ▸ wanted, decide_eq_true removed⟩
  refine ⟨List.mem_filter.2 ⟨listed, decide_eq_true (responding listed)⟩, fun cron => ?_⟩
  exact of_decide_eq_true (List.mem_filter.1 cron).2 listed

end

/-- What holds while the two parts of `deactivate` run. -/
structure Deactivating (setting : Setting) (doomed : String → Prop) (s : State) (plan : Plan) (closing : List String)
    (rejected : Option ActivationError) : Prop where
  published : ∀ version ∈ s.database.publishedVersion, setting.DistinctIds version
  stage : plan.oldVersion = s.database.publishedVersion ∧ plan.Fits setting
  registered : ∀ id ∈ s.memory.registered, Running setting s.database.publishedVersion id ∧
    (rejected = none → id ∈ plan.toRemove → id ∈ closing ∧ id ∉ s.memory.crons) ∨ doomed id

theorem Within.deactivating {phase : WebhookPhase} {closing : List String} {rejected : Option ActivationError}
    (h : Within setting doomed s) (stage : s.stage = .deactivating plan phase closing rejected) :
    Deactivating setting doomed s plan closing rejected := by
  obtain ⟨published, planFits, registered, -⟩ := h
  rw [stage] at planFits registered
  exact ⟨published, planFits, registered⟩

theorem Deactivating.settle {closing : List String} {rejected : Option ActivationError}
    (h : Deactivating setting doomed s plan closing rejected) (phase : WebhookPhase) :
    Within setting doomed (s.settleDeactivation plan phase closing rejected) := by
  have waiting : Within setting doomed { s with stage := .deactivating plan phase closing rejected } :=
    ⟨h.published, h.stage, h.registered, trivial⟩
  cases phase with
  | deregistering => exact waiting
  | clearing => exact waiting
  | settled error =>
    rw [State.settleDeactivation]
    by_cases wait : (rejected.isNone && !closing.isEmpty) = true
    · rw [if_pos wait]
      exact waiting
    · rw [if_neg wait]
      cases settled : error <|> rejected with
      | some error => exact ⟨h.published, trivial, fun id registered => (h.registered id registered).imp_left And.left, trivial⟩
      | none =>
        have resolved : rejected = none := by
          cases error with
          | none => exact settled
          | some error => cases settled
        have closed : closing = [] := by
          rw [resolved] at wait
          simpa using wait
        refine ⟨h.published, h.stage, fun id registered => (h.registered id registered).imp_left fun allowed => ?_, trivial⟩
        obtain ⟨⟨version, isPublished, wanted⟩, remains⟩ := allowed
        refine ⟨version, h.stage.1 ▸ isPublished, wanted, fun removed => ?_⟩
        obtain ⟨remaining, -⟩ := remains resolved removed
        rw [closed] at remaining
        exact List.not_mem_nil remaining

theorem Deactivating.reject {closing : List String} {rejected : Option ActivationError}
    (h : Deactivating setting doomed s plan closing rejected) (closing' : List String) (error : ActivationError) :
    Deactivating setting doomed s plan closing' (rejected <|> some error) :=
  ⟨h.published, h.stage, fun id registered => (h.registered id registered).imp_left fun allowed =>
    ⟨allowed.1, fun never => by cases rejected <;> cases never⟩⟩

theorem mem_eraseIdx_of_ne {closing : List String} {index : Nat} {id other : String} (found : closing[index]? = some id)
    (member : other ∈ closing) (apart : other ≠ id) : other ∈ closing.eraseIdx index := by
  obtain ⟨place, known⟩ := List.mem_iff_getElem?.1 member
  refine List.mem_eraseIdx_iff_getElem?.2 ⟨place, fun same => apart ?_, known⟩
  rw [same, found, Option.some.injEq] at known
  exact known.symm

theorem Deactivating.close {closing : List String} {rejected : Option ActivationError} {index : Nat} {id : String}
    (h : Deactivating setting doomed s plan closing rejected) (found : closing[index]? = some id) :
    Deactivating setting doomed { s with memory := s.memory.delete id } plan (closing.eraseIdx index) rejected := by
  refine ⟨h.published, h.stage, fun other registered => ?_⟩
  obtain ⟨before, cron⟩ := Memory.mem_delete.1 registered
  refine (h.registered other before).imp_left fun allowed => ⟨allowed.1, fun none removed => ?_⟩
  obtain ⟨remaining, noCron⟩ := allowed.2 none removed
  exact ⟨mem_eraseIdx_of_ne found remaining fun same => noCron (cron same), noCron⟩

theorem Deactivating.drop {closing : List String} {rejected : Option ActivationError} {index : Nat} {id : String}
    (h : Deactivating setting doomed s plan closing rejected) (found : closing[index]? = some id)
    (gone : id ∈ s.memory.registered → doomed id) :
    Deactivating setting doomed s plan (closing.eraseIdx index) rejected := by
  refine ⟨h.published, h.stage, fun other registered => ?_⟩
  by_cases same : other = id
  · exact .inr (same ▸ gone (same ▸ registered))
  · refine (h.registered other registered).imp_left fun allowed => ⟨allowed.1, fun none removed => ?_⟩
    obtain ⟨remaining, noCron⟩ := allowed.2 none removed
    exact ⟨mem_eraseIdx_of_ne found remaining same, noCron⟩

section

variable (h : Within setting doomed s)
include h

theorem Within.webhookPhase (error : Option ActivationError) :
    Within setting doomed (s.webhookPhaseStep setting error) := by
  rw [State.webhookPhaseStep]
  split
  case h_1 plan closing rejected stage =>
    have deactivating := h.deactivating stage
    cases error with
    | none => exact ⟨h.published, deactivating.stage, deactivating.registered, trivial⟩
    | some error => exact deactivating.settle _
  case h_2 plan closing rejected stage =>
    have deactivating := h.deactivating stage
    cases error with
    | none =>
      refine Deactivating.settle ?_ _
      exact ⟨deactivating.published, deactivating.stage, deactivating.registered⟩
    | some error => exact deactivating.settle _
  case h_3 => exact h

theorem Within.closed (index : Nat) (closed : Closed)
    (dropped : closed = .dropped → ∀ id ∈ s.stage.closing[index]?, id ∈ s.memory.registered → doomed id) :
    Within setting doomed (s.closedStep index closed) := by
  rw [State.closedStep]
  split
  case h_1 plan webhooks closing rejected stage =>
    have deactivating := h.deactivating stage
    rw [stage] at dropped
    split
    case h_1 => exact h
    case h_2 found => exact (deactivating.close found).settle webhooks
    case h_3 id found => exact (deactivating.drop found (dropped rfl id found)).settle webhooks
    case h_4 error found => exact (deactivating.reject _ error).settle webhooks
  case h_2 => exact h

theorem Within.of_memory {doomed' : String → Prop} (memory : Memory)
    (registered : ∀ id ∈ memory.registered,
      s.stage.Allows setting s.database.publishedVersion memory.crons id ∨ doomed' id) :
    Within setting doomed' { s with memory } := ⟨h.published, h.stage, registered, h.registers⟩

theorem Within.closedLate (index : Nat) (closed : Closed) :
    Within setting doomed (s.closedLateStep index closed) := by
  unfold State.closedLateStep
  split
  case h_1 => exact h
  case h_2 => exact h.of_memory _ fun id kept => h.registered id (Memory.mem_delete.1 kept).1
  case h_3 | h_4 => exact h.of_memory _ h.registered

theorem Within.writePublishedVersion (stage : s.stage = .writingPublishedVersion plan) :
    Within setting doomed (s.writePublishedVersion plan) := by
  have registered := h.registered
  have planFits := h.stage
  rw [stage] at registered planFits
  obtain ⟨same, fits⟩ := planFits
  rw [State.writePublishedVersion]
  cases unpublishing : plan.unpublishing with
  | true =>
    rw [if_pos rfl]
    exact ⟨fun _ never => absurd never (Option.not_mem_none _), trivial, fun id here =>
      (registered id here).imp_left fun leaves => absurd leaves (fits.not_leaves unpublishing), trivial⟩
  | false =>
    rw [if_neg Bool.false_ne_true]
    by_cases missing : plan.record ∉ s.database.history
    · rw [if_pos missing]
      exact h.throw _ _
    · rw [if_neg missing]
      refine ⟨fun version isPublished => ?_, rfl, fun id here =>
        (registered id here).imp_left fun leaves => ⟨plan.record, rfl, fits.leaves_new unpublishing leaves⟩, trivial⟩
      rw [← Option.some.inj isPublished]
      exact fits.record unpublishing

theorem Within.advanced (stage : s.stage = .refreshingCache plan) :
    Within setting doomed (s.advanced setting plan) := by
  have published := h.stage
  rw [stage] at published
  rw [State.advanced]
  split
  case isTrue => exact ⟨h.published, published, h.running, trivial⟩
  case isFalse =>
    split
    case isTrue => exact ⟨h.published, published, h.running, trivial⟩
    case isFalse => exact h.report _ _

theorem Within.activate (webhookError triggerError : Option ActivationError) :
    Within setting doomed (s.activateStep setting webhookError triggerError) := by
  rw [State.activateStep]
  split
  case h_1 plan stage =>
    have published := h.stage
    rw [stage] at published
    refine ⟨h.published, published, h.running, fun task member => ?_⟩
    split at member
    case isTrue => exact absurd member List.not_mem_nil
    case isFalse =>
      obtain ⟨id, wanted, same⟩ := List.mem_map.1 member
      rw [← same]
      exact (List.mem_filter.1 wanted).1
  case h_2 => exact h

theorem Within.webhookTask (index : Nat) (error : Option ActivationError) :
    Within setting doomed (s.webhookTaskStep setting index error) := by
  rw [State.webhookTaskStep]
  split
  case h_1 plan webhookTasks triggerTasks rejected stage =>
    split
    case h_1 => exact h
    case h_2 =>
      obtain ⟨published, planFits, registered, registers⟩ := h
      rw [stage] at planFits registered registers
      exact ⟨published, planFits, registered, registers⟩
  case h_2 => exact h

end

theorem TriggerTask.step_nodeId (memory : Memory) (task : TriggerTask) (reply : TriggerReply) :
    (task.step memory reply).2.nodeId = task.nodeId := by
  unfold TriggerTask.step
  split
  case h_1 | h_2 => rfl
  case h_3 =>
    rw [TriggerTask.failed]
    split <;> rfl

theorem TriggerTask.step_registered {memory : Memory} {task : TriggerTask} {reply : TriggerReply} {id : String}
    (after : id ∈ (task.step memory reply).1.registered) : id = task.nodeId ∨ id ∈ memory.registered := by
  unfold TriggerTask.step at after
  split at after
  case h_1 => exact .inr after
  case h_2 => exact (Memory.mem_addTrigger.1 after).symm.imp_left And.left
  case h_3 => exact .inr (Memory.mem_rollBack after)

section

variable (h : Within setting doomed s)
include h

theorem Within.triggerTask (index : Nat) (reply : TriggerReply) :
    Within setting doomed (s.triggerTaskStep index reply) := by
  rw [State.triggerTaskStep]
  split
  case h_1 plan webhookTasks triggerTasks rejected stage =>
    split
    case h_1 => exact h
    case h_2 task found =>
      obtain ⟨published, planFits, registered, registers⟩ := h
      rw [stage] at planFits registered registers
      have wanted := registers task (List.mem_of_getElem? found)
      refine ⟨published, planFits, fun id after => ?_, fun other member => ?_⟩
      · cases TriggerTask.step_registered after with
        | inl same => exact .inl ⟨plan.record, planFits, same ▸ wanted⟩
        | inr before => exact registered id before
      · cases List.mem_or_eq_of_mem_set member with
        | inl old => exact registers other old
        | inr new =>
          rw [new, TriggerTask.step_nodeId]
          exact wanted
  case h_2 => exact h

theorem Within.settle (webhooksFirst : Bool) :
    Within setting doomed (s.settleStep setting webhooksFirst) := by
  rw [State.settleStep]
  split
  case h_1 plan webhookTasks triggerTasks rejected stage =>
    split
    case isTrue => exact h
    case isFalse =>
      have published := h.stage
      rw [stage] at published
      split
      case h_1 => exact h.report _ _
      case h_2 => exact ⟨h.published, published, h.running, trivial⟩
  case h_2 => exact h

theorem Within.proceed (error : Option ActivationError)
    (distinct : error = none → ∀ record ∈ s.publishes, setting.DistinctIds record) :
    Within setting doomed (s.proceedStep setting error) := by
  unfold State.proceedStep
  split
  case h_1 stage => exact h.resolved stage (distinct rfl)
  case h_2 stage => exact h.planned stage
  case h_3 stage => exact h.beginDeactivation stage
  case h_4 stage =>
    obtain ⟨published, planFits, registered, -⟩ := h
    rw [stage] at planFits registered
    exact ⟨published, planFits, registered, trivial⟩
  case h_5 stage => exact h.writePublishedVersion stage
  case h_6 stage => exact h.advanced stage
  case h_7 | h_8 => exact h.report _ _
  case h_9 | h_10 | h_11 | h_12 | h_13 | h_14 => exact h.throw _ _
  case h_15 | h_16 | h_17 => exact h.report _ _
  all_goals exact h

theorem Within.claim (record : String) : Within setting doomed (s.claimStep record) := by
  rw [State.claimStep]
  split
  case h_1 => exact ⟨h.published, trivial, h.running, trivial⟩
  case h_2 => exact h

theorem Within.crashed : Within setting doomed s.crashed :=
  ⟨h.published, trivial, fun _ never => absurd never List.not_mem_nil, trivial⟩

end

variable (setting s) in
theorem environmentStep_same (event : Event) :
    (s.environmentStep setting event).database.publishedVersion = s.database.publishedVersion ∧
      (s.environmentStep setting event).memory = s.memory ∧ (s.environmentStep setting event).stage = s.stage ∧
      (s.environmentStep setting event).reported = s.reported := by
  cases event with
  | workflow row => exact ⟨rfl, rfl, rfl, rfl⟩
  | versionSaved version => exact ⟨rfl, rfl, rfl, rfl⟩
  | versionDeleted version => rw [State.environmentStep]; split <;> exact ⟨rfl, rfl, rfl, rfl⟩
  | webhookStored key row => rw [State.environmentStep]; split <;> exact ⟨rfl, rfl, rfl, rfl⟩
  | webhookDeleted key =>
    rw [State.environmentStep]
    split
    case h_1 => exact ⟨rfl, rfl, rfl, rfl⟩
    case h_2 => split <;> exact ⟨rfl, rfl, rfl, rfl⟩

theorem Within.of_same {s' : State} (h : Within setting doomed s)
    (database : s'.database.publishedVersion = s.database.publishedVersion) (memory : s'.memory = s.memory)
    (stage : s'.stage = s.stage) : Within setting doomed s' := by
  obtain ⟨published, planFits, registered, registers⟩ := h
  refine ⟨?_, ?_, ?_, ?_⟩
  · rwa [database]
  · rwa [database, stage]
  · rwa [database, memory, stage]
  · rwa [stage]

theorem Within.next (h : Within setting doomed s) (action : Action)
    (distinct : action = .proceed none → ∀ record ∈ s.publishes, setting.DistinctIds record)
    (dropped : ∀ index, action = .closed index .dropped →
      ∀ id ∈ s.stage.closing[index]?, id ∈ s.memory.registered → doomed id) :
    Within setting doomed (s.next setting action) := by
  have h' : Within setting doomed { s with reported := none } := ⟨h.published, h.stage, h.registered, h.registers⟩
  rw [State.next]
  cases action with
  | claim record => exact h'.claim record
  | proceed error => exact h'.proceed error fun completed => distinct (completed ▸ rfl)
  | webhookPhase error => exact h'.webhookPhase error
  | closed index closed => exact h'.closed index closed fun isDropped => dropped index (isDropped ▸ rfl)
  | closedLate index closed => exact h'.closedLate index closed
  | activate webhookError triggerError => exact h'.activate webhookError triggerError
  | webhookTask index error => exact h'.webhookTask index error
  | triggerTask index reply => exact h'.triggerTask index reply
  | settle webhooksFirst => exact h'.settle webhooksFirst
  | crash => exact h'.crashed
  | environment event =>
    obtain ⟨database, memory, stage, -⟩ := environmentStep_same setting { s with reported := none } event
    exact h'.of_same database memory stage

end

end NodeAutomation.WorkflowPublication
