import Mathlib.Algebra.Order.Ring.Nat
import NodeAutomation.Cli.WebhookCache

/-! Webhooks of manual executions (`packages/cli/src/webhooks/test-webhooks.ts`): calls register them
in a cache that all users share, under their paths. -/

namespace NodeAutomation.TestWebhooks
open Runs
open WebhookCache (IHttpRequestMethods)

structure IWebhookData where
  httpMethod : IHttpRequestMethods
  node : String
  path : String
  webhookId : Option String := none
  restartWebhook : Bool := false
  workflowId : String
  userId : Option String := none
  isTest : Bool := false
  deriving DecidableEq

def IWebhookData.isStatic (webhook : IWebhookData) : Bool := webhook.webhookId.getD "" = ""

/-- The nodes are given by name and type. -/
structure IWorkflowBase where
  id : String
  nodes : List (String × String)
  deriving DecidableEq

def IWorkflowBase.nodeType (workflow : IWorkflowBase) (node : String) : Option String :=
  (workflow.nodes.find? (·.1 = node)).map Prod.snd

structure TestWebhookRegistration where
  workflowEntity : IWorkflowBase
  webhook : IWebhookData
  deriving DecidableEq

abbrev Registrations := OrderedMap String TestWebhookRegistration

inductive Failure where
  | workflowMissingId
  | singleWebhookTrigger (triggerName : String)
  | webhookPathTaken (nodeName : String)
  | workflowTooBig
  | webhookMethod
  deriving DecidableEq

inductive Outcome where
  | returned (listening : Bool)
  | thrown (failure : Failure)
  deriving DecidableEq

def removeTrailingSlash (path : String) : String :=
  if path.toList.getLast? = some '/' then String.ofList path.toList.dropLast else path

def cutPath (webhookId path : String) : List Char :=
  if webhookId.toList.isPrefixOf path.toList ∧ '/' ∈ path.toList then (path.toList.dropWhile (· ≠ '/')).drop 1
  else path.toList

def toKey (webhook : IWebhookData) : String :=
  if webhook.isStatic then webhook.httpMethod.text ++ "|" ++ webhook.path
  else
    let webhookId := webhook.webhookId.getD ""
    webhook.httpMethod.text ++ "|" ++ webhookId ++ "|" ++ toString ((cutPath webhookId webhook.path).count '/' + 1)

/-- A webhook of the workflow, with what comes of registering it, of creating it at the service it
listens to, and of registering it again. -/
structure Listening where
  webhook : IWebhookData
  cached : Bool := true
  created : Bool := true
  cachedAgain : Bool := true
  deriving DecidableEq

structure Trigger where
  name : String
  data : Bool

/-- The webhooks are those that are found in the workflow, `deletes` says whether the service that a
webhook listens to lets go of it. -/
structure Options where
  userId : String
  workflowEntity : IWorkflowBase
  webhooks : List Listening
  deletes : TestWebhookRegistration → Bool
  runData : List String := []
  triggerToStartFrom : Option Trigger := none
  chatSessionId : Option String := none
  workflowIsActive : Bool := false
  ofWorkflow : ∀ listening ∈ webhooks, listening.webhook.workflowId = workflowEntity.id

def chatTrigger : String := "@n8n/n8n-nodes-langchain.chatTrigger"

def singleWebhookTriggers : List String :=
  ["n8n-nodes-base.telegramTrigger", "n8n-nodes-base.slackTrigger", "n8n-nodes-base.facebookLeadAdsTrigger"]

def Options.locate (options : Options) (webhook : IWebhookData) : IWebhookData :=
  let sessionId := options.chatSessionId.getD ""
  let chat : Bool := sessionId ≠ "" ∧ webhook.node ≠ "" ∧
    options.workflowEntity.nodeType webhook.node = some chatTrigger
  { webhook with
    path := if chat then options.workflowEntity.id ++ "/" ++ sessionId else removeTrailingSlash webhook.path }

def Options.keyOf (options : Options) (listening : Listening) : String := toKey (options.locate listening.webhook)

def Options.registration (options : Options) (listening : Listening) : TestWebhookRegistration where
  workflowEntity := options.workflowEntity
  webhook := { options.locate listening.webhook with isTest := true, userId := some options.userId }

def deactivateWebhooks (registrations : Registrations) (workflowId : String)
    (deletes : TestWebhookRegistration → Bool) : Registrations × Bool :=
  let own := registrations.values.filter fun registration => registration.webhook.workflowId = workflowId
  (registrations.deleteMany ((own.takeWhile deletes).map fun registration => toKey registration.webhook),
    own.all deletes)

def cleanUp (options : Options) (registrations : Registrations) (failure : Failure) :
    Registrations × Option Outcome :=
  let (left, deactivated) := deactivateWebhooks registrations options.workflowEntity.id options.deletes
  (left, some (.thrown (if deactivated then failure else .webhookMethod)))

/-- One turn of the loop; it goes on when there is no outcome. When the registrations do not fit into
the cache, they are all gone. -/
def registerWebhook (options : Options) (registrations : Registrations) (listening : Listening) :
    Registrations × Option Outcome :=
  let webhook := options.locate listening.webhook
  let key := toKey webhook
  let registrationByKey := registrations.get key
  if webhook.node ∈ options.runData then (registrations, some (.returned false))
  else if registrationByKey.any fun existing => webhook.isStatic && !existing.webhook.isTest &&
      existing.webhook.userId ≠ some options.userId &&
      existing.webhook.workflowId ≠ options.workflowEntity.id then
    (registrations, some (.thrown (.webhookPathTaken webhook.node)))
  else
    let registered := registrations.set key (options.registration listening)
    if !listening.cached then cleanUp options ∅ .workflowTooBig
    else if !listening.created then cleanUp options registered .webhookMethod
    else if !listening.cachedAgain then cleanUp options ∅ .workflowTooBig
    else (registered.set key (options.registration listening), none)

def registerAll (options : Options) (registrations : Registrations) :
    List Listening → Registrations × Option Outcome
  | [] => (registrations, none)
  | listening :: rest =>
    match registerWebhook options registrations listening with
    | (registered, none) => registerAll options registered rest
    | (left, some outcome) => (left, some outcome)

def Options.preferred (options : Options) : List Listening :=
  match options.triggerToStartFrom with
  | none => options.webhooks
  | some trigger => options.webhooks.filter (·.webhook.node = trigger.name)

def Options.toRegister (options : Options) : Except Outcome (List Listening) :=
  if options.workflowEntity.id = "" then .error (.thrown .workflowMissingId)
  else if options.triggerToStartFrom.any (·.data) then .error (.returned false)
  else
    let webhooks := options.preferred
    if ¬ webhooks.any (!·.webhook.restartWebhook) then .error (.returned false)
    else
      let single := webhooks.find? fun listening =>
        (options.workflowEntity.nodeType listening.webhook.node).getD "" ∈ singleWebhookTriggers
      match single, options.workflowIsActive with
      | some listening, true => .error (.thrown (.singleWebhookTrigger listening.webhook.node))
      | some _, false | none, true | none, false => .ok webhooks

def needsWebhook (options : Options) (registrations : Registrations) : Registrations × Outcome :=
  match options.toRegister with
  | .error outcome => (registrations, outcome)
  | .ok webhooks =>
    match registerAll options registrations webhooks with
    | (registered, none) => (registered, .returned true)
    | (left, some outcome) => (left, outcome)

def cancelWebhook (registrations : Registrations) (workflowId : String)
    (deletes : TestWebhookRegistration → Bool) : Registrations :=
  if registrations.values.any (·.workflowEntity.id = workflowId) then
    (deactivateWebhooks registrations workflowId deletes).1
  else registrations

/-- A timeout cancels, and a webhook that was called is deactivated. The cache may expire as a whole. -/
inductive Action where
  | needsWebhook (options : Options)
  | cancelWebhook (workflowId : String) (deletes : TestWebhookRegistration → Bool)
  | called (workflowId : String) (deletes : TestWebhookRegistration → Bool)
  | expired

def next (registrations : Registrations) : Action → Registrations
  | .needsWebhook options => (needsWebhook options registrations).1
  | .cancelWebhook workflowId deletes => cancelWebhook registrations workflowId deletes
  | .called workflowId deletes => (deactivateWebhooks registrations workflowId deletes).1
  | .expired => ∅

/-- A registration belongs to another user or another workflow. -/
def Options.Foreign (options : Options) (registration : TestWebhookRegistration) : Prop :=
  registration.webhook.userId ≠ some options.userId ∨
    registration.webhook.workflowId ≠ options.workflowEntity.id

def Options.ComesTo (options : Options) (registrations : Registrations) (listening : Listening)
    (reached : Registrations) : Prop :=
  ∃ before later, options.toRegister = .ok (before ++ listening :: later) ∧
    registerAll options registrations before = (reached, none) ∧ listening.webhook.node ∉ options.runData

/-- Where a static webhook is to be registered under the key of another user or workflow, the call
throws and leaves the registration. -/
def Respects (registrations : Registrations) : Action → Prop
  | .needsWebhook options => ∀ listening reached registration,
      options.ComesTo registrations listening reached → listening.webhook.isStatic →
      reached.get (options.keyOf listening) = some registration → options.Foreign registration →
        needsWebhook options registrations =
          (reached, .thrown (.webhookPathTaken listening.webhook.node))
  | .cancelWebhook _ _ | .called _ _ | .expired => True

/-- A webhook is registered when its node has no run data and nothing fails. -/
def Options.Passes (options : Options) (listening : Listening) : Prop :=
  listening.webhook.node ∉ options.runData ∧ listening.cached ∧ listening.created ∧ listening.cachedAgain

def Unclaimed (registrations : Registrations) : Action → Prop
  | .needsWebhook options => ∀ before listening later registration,
      options.toRegister = .ok (before ++ listening :: later) → listening.webhook.isStatic →
      (∀ other ∈ before, options.Passes other ∧ options.keyOf other ≠ options.keyOf listening) →
      listening.webhook.node ∉ options.runData →
      registrations.get (options.keyOf listening) = some registration → ¬ options.Foreign registration
  | .cancelWebhook _ _ | .called _ _ | .expired => True

def OnlyTests (registrations : Registrations) : Prop :=
  ∀ key registration, registrations.get key = some registration → registration.webhook.isTest

variable {options : Options} {registrations reached : Registrations} {listening : Listening}
  {webhooks : List Listening}

theorem onlyTests_empty : OnlyTests ∅ := by
  intro key registration there
  cases there

section

variable (only : OnlyTests registrations)
include only

theorem onlyTests_set (key : String) :
    OnlyTests (registrations.set key (options.registration listening)) := by
  intro other registration there
  rw [OrderedMap.get_set] at there
  by_cases same : other = key
  · rw [if_pos same] at there
    rw [← Option.some.inj there]
    rfl
  · rw [if_neg same] at there
    exact only other registration there

theorem onlyTests_deleteMany (keys : List String) :
    OnlyTests (registrations.deleteMany keys) := by
  intro other registration there
  rw [OrderedMap.get_deleteMany] at there
  by_cases deleted : other ∈ keys
  · simp [if_pos deleted] at there
  · rw [if_neg deleted] at there
    exact only other registration there

theorem registerWebhook_eq :
    registerWebhook options registrations listening =
      if listening.webhook.node ∈ options.runData then (registrations, some (.returned false))
      else if !listening.cached then cleanUp options ∅ .workflowTooBig
      else if !listening.created then
        cleanUp options (registrations.set (options.keyOf listening) (options.registration listening)) .webhookMethod
      else if !listening.cachedAgain then cleanUp options ∅ .workflowTooBig
      else (registrations.set (options.keyOf listening) (options.registration listening), none) := by
  have node : (options.locate listening.webhook).node = listening.webhook.node := rfl
  have free : ((registrations.get (toKey (options.locate listening.webhook))).any fun existing =>
      (options.locate listening.webhook).isStatic && !existing.webhook.isTest &&
        existing.webhook.userId ≠ some options.userId &&
        existing.webhook.workflowId ≠ options.workflowEntity.id) = false := by
    cases there : registrations.get (toKey (options.locate listening.webhook)) with
    | none => rfl
    | some existing => simp [only _ existing there]
  simp only [registerWebhook, node, free, Bool.false_eq_true, if_false, OrderedMap.set_set]
  rfl

theorem onlyTests_deactivate (workflowId : String)
    (deletes : TestWebhookRegistration → Bool) :
    OnlyTests (deactivateWebhooks registrations workflowId deletes).1 :=
  onlyTests_deleteMany only _

theorem onlyTests_registerWebhook :
    OnlyTests (registerWebhook options registrations listening).1 := by
  rw [registerWebhook_eq only]
  split
  · exact only
  split
  · exact onlyTests_deactivate onlyTests_empty _ _
  split
  · exact onlyTests_deactivate (onlyTests_set only _) _ _
  split
  · exact onlyTests_deactivate onlyTests_empty _ _
  · exact onlyTests_set only _

end

theorem registerWebhook_thrown_ne (options : Options) (listening : Listening) (only : OnlyTests registrations)
    (nodeName : String) :
    (registerWebhook options registrations listening).2 ≠ some (.thrown (.webhookPathTaken nodeName)) := by
  rw [registerWebhook_eq only]
  have cleaned (left : Registrations) {failure : Failure} (other : failure ≠ .webhookPathTaken nodeName) :
      (cleanUp options left failure).2 ≠ some (.thrown (.webhookPathTaken nodeName)) := by
    intro same
    have thrown := Outcome.thrown.inj (Option.some.inj same)
    split at thrown
    · exact other thrown
    · cases thrown
  split
  · exact fun same => (by cases same)
  split
  · exact cleaned _ Failure.noConfusion
  split
  · exact cleaned _ Failure.noConfusion
  split
  · exact cleaned _ Failure.noConfusion
  · exact fun same => (by cases same)

theorem registerWebhook_passes_iff (only : OnlyTests registrations) :
    registerWebhook options registrations listening = (reached, none) ↔
      options.Passes listening ∧
        reached = registrations.set (options.keyOf listening) (options.registration listening) := by
  rw [registerWebhook_eq only, Options.Passes]
  by_cases run : listening.webhook.node ∈ options.runData
  · rw [if_pos run]
    exact iff_of_false (fun same => (by cases same)) fun h => h.1.1 run
  rw [if_neg run]
  cases cached : listening.cached with
  | false => exact iff_of_false (fun same => (by cases same)) fun h => Bool.noConfusion h.1.2.1
  | true =>
    cases created : listening.created with
    | false => exact iff_of_false (fun same => (by cases same)) fun h => Bool.noConfusion h.1.2.2.1
    | true =>
      cases again : listening.cachedAgain with
      | false => exact iff_of_false (fun same => (by cases same)) fun h => Bool.noConfusion h.1.2.2.2
      | true =>
        constructor
        · intro same
          exact ⟨⟨run, rfl, rfl, rfl⟩, (Prod.mk.inj same).1.symm⟩
        · rintro ⟨-, rfl⟩
          rfl

theorem onlyTests_registerAll (only : OnlyTests registrations) :
    OnlyTests (registerAll options registrations webhooks).1 := by
  induction webhooks generalizing registrations with
  | nil => exact only
  | cons listening rest ih =>
    have registered : OnlyTests (registerWebhook options registrations listening).1 :=
      onlyTests_registerWebhook only
    rw [registerAll]
    cases turn : registerWebhook options registrations listening with
    | mk left outcome =>
      rw [turn] at registered
      cases outcome with
      | none => exact ih registered
      | some outcome => exact registered

theorem registerAll_thrown_ne (options : Options) (webhooks : List Listening) (only : OnlyTests registrations)
    (nodeName : String) :
    (registerAll options registrations webhooks).2 ≠ some (.thrown (.webhookPathTaken nodeName)) := by
  induction webhooks generalizing registrations with
  | nil => exact fun never => (by cases never)
  | cons listening rest ih =>
    have registered : OnlyTests (registerWebhook options registrations listening).1 :=
      onlyTests_registerWebhook only
    have free := registerWebhook_thrown_ne options listening only nodeName
    rw [registerAll]
    cases turn : registerWebhook options registrations listening with
    | mk left outcome =>
      rw [turn] at registered free
      cases outcome with
      | none => exact ih registered
      | some outcome => exact free

theorem registerAll_passes_iff (options : Options) (only : OnlyTests registrations) :
    registerAll options registrations webhooks = (reached, none) ↔
      (∀ listening ∈ webhooks, options.Passes listening) ∧
        reached = webhooks.foldl
          (fun registrations listening => registrations.set (options.keyOf listening) (options.registration listening))
          registrations := by
  induction webhooks generalizing registrations with
  | nil =>
    rw [registerAll, Prod.mk.injEq]
    exact ⟨fun same => ⟨fun _ never => (by cases never), same.1.symm⟩, fun h => ⟨h.2.symm, rfl⟩⟩
  | cons listening rest ih =>
    rw [registerAll, List.forall_mem_cons, List.foldl_cons]
    cases turn : registerWebhook options registrations listening with
    | mk left outcome =>
      cases outcome with
      | none =>
        obtain ⟨passes, rfl⟩ := (registerWebhook_passes_iff only).1 turn
        rw [ih (onlyTests_set only _)]
        exact and_congr_left fun _ => (and_iff_right passes).symm
      | some outcome =>
        refine iff_of_false (fun same => (by cases same)) fun h => ?_
        simp [(registerWebhook_passes_iff only).2 ⟨h.1.1, rfl⟩] at turn

theorem get_foldl_set (options : Options) (registrations : Registrations) (webhooks : List Listening) (key : String) :
    (∃ listening ∈ webhooks, options.keyOf listening = key ∧
      (webhooks.foldl (fun registrations listening =>
        registrations.set (options.keyOf listening) (options.registration listening)) registrations).get key =
          some (options.registration listening)) ∨
    (∀ listening ∈ webhooks, options.keyOf listening ≠ key) ∧
      (webhooks.foldl (fun registrations listening =>
        registrations.set (options.keyOf listening) (options.registration listening)) registrations).get key =
          registrations.get key := by
  induction webhooks generalizing registrations with
  | nil => exact .inr ⟨fun _ never => (by cases never), rfl⟩
  | cons listening rest ih =>
    rw [List.foldl_cons]
    rcases @ih (registrations.set (options.keyOf listening) (options.registration listening)) with
      ⟨other, among, same, there⟩ | ⟨others, there⟩
    · exact .inl ⟨other, List.mem_cons_of_mem _ among, same, there⟩
    · by_cases same : options.keyOf listening = key
      · refine .inl ⟨listening, List.mem_cons_self, same, ?_⟩
        rw [there, ← same, OrderedMap.get_set_self]
      · refine .inr ⟨List.forall_mem_cons.2 ⟨same, others⟩, ?_⟩
        rw [there, OrderedMap.get_set_of_ne _ _ (Ne.symm same)]

theorem needsWebhook_eq (toRegister : options.toRegister = .ok webhooks) :
    needsWebhook options registrations = ((registerAll options registrations webhooks).1,
      (registerAll options registrations webhooks).2.getD (.returned true)) := by
  rw [needsWebhook, toRegister]
  simp only
  cases registerAll options registrations webhooks with
  | mk left outcome =>
    cases outcome with
    | none => rfl
    | some outcome => rfl

theorem preferred_subset : options.preferred ⊆ options.webhooks := by
  rw [Options.preferred]
  cases options.triggerToStartFrom with
  | none => exact List.Subset.refl _
  | some trigger => exact fun _ among => (List.mem_filter.1 among).1

theorem toRegister_eq_preferred (toRegister : options.toRegister = .ok webhooks) :
    webhooks = options.preferred := by
  rw [Options.toRegister] at toRegister
  split at toRegister
  · cases toRegister
  split at toRegister
  · cases toRegister
  simp only at toRegister
  split at toRegister
  · cases toRegister
  split at toRegister
  · cases toRegister
  all_goals exact (Except.ok.inj toRegister).symm

theorem not_foreign_registration (toRegister : options.toRegister = .ok webhooks) (among : listening ∈ webhooks) :
    ¬ options.Foreign (options.registration listening) := by
  have inside : listening ∈ options.webhooks := preferred_subset (toRegister_eq_preferred toRegister ▸ among)
  rintro (other | other)
  · exact other rfl
  · exact other (options.ofWorkflow listening inside)

theorem onlyTests_next (only : OnlyTests registrations) (action : Action) :
    OnlyTests (next registrations action) := by
  cases action with
  | needsWebhook options =>
    rw [next]
    cases toRegister : options.toRegister with
    | error outcome =>
      rw [needsWebhook, toRegister]
      exact only
    | ok webhooks =>
      rw [needsWebhook_eq toRegister]
      exact onlyTests_registerAll only
  | cancelWebhook workflowId deletes =>
    rw [next, cancelWebhook]
    split
    · exact onlyTests_deactivate only _ _
    · exact only
  | called workflowId deletes => exact onlyTests_deactivate only _ _
  | expired => exact onlyTests_empty

theorem respects_iff (only : OnlyTests registrations) (action : Action) :
    Respects registrations action ↔ Unclaimed registrations action := by
  cases action with
  | needsWebhook options =>
    constructor
    · intro respects before listening later registration toRegister static_ passed run there foreign
      have went := (registerAll_passes_iff options only).2
        ⟨fun other among => (passed other among).1, rfl⟩
      have kept : ((before.foldl (fun registrations listening =>
          registrations.set (options.keyOf listening) (options.registration listening)) registrations)).get
            (options.keyOf listening) = some registration := by
        rcases get_foldl_set options registrations before
          (options.keyOf listening) with ⟨other, among, same, -⟩ | ⟨-, kept⟩
        · exact absurd same (passed other among).2
        · rw [kept, there]
      have thrown := respects listening _ registration ⟨before, later, toRegister, went, run⟩ static_ kept foreign
      have free := registerAll_thrown_ne options (before ++ listening :: later) only
        listening.webhook.node
      rw [needsWebhook_eq toRegister] at thrown
      have outcome := (Prod.mk.inj thrown).2
      cases result : (registerAll options registrations (before ++ listening :: later)).2 with
      | none =>
        simp [result] at outcome
      | some other =>
        rw [result] at outcome free
        exact free (congrArg some outcome)
    · intro unclaimed listening reached registration comes static_ there foreign
      obtain ⟨before, later, toRegister, went, run⟩ := comes
      obtain ⟨passed, rfl⟩ := (registerAll_passes_iff options only).1 went
      rcases get_foldl_set options registrations before
        (options.keyOf listening) with ⟨other, among, -, own⟩ | ⟨others, kept⟩
      · rw [own] at there
        refine absurd foreign ?_
        rw [← Option.some.inj there]
        exact not_foreign_registration toRegister (List.mem_append_left _ among)
      · rw [kept] at there
        exact absurd foreign (unclaimed before listening later registration toRegister static_
          (fun other among => ⟨passed other among, others other among⟩) run there)
  | cancelWebhook workflowId deletes => exact Iff.rfl
  | called workflowId deletes => exact Iff.rfl
  | expired => exact Iff.rfl

/-- In a run, test webhooks of others are respected exactly when no call comes upon one: the check
that should refuse it never does. -/
theorem along_respects_iff (actions : List Action) :
    Along next Respects ∅ actions ↔ Along next Unclaimed ∅ actions :=
  along_iff (fun _ action only _ => respects_iff only action)
    (fun _ action only _ _ => onlyTests_next only action) onlyTests_empty
    (along_of_forall (R := fun _ => True) fun _ _ => trivial)

/-- One webhook at the path `orders`, of a workflow and a user. -/
def ordersOf (userId workflowId : String) : Options where
  userId := userId
  workflowEntity := ⟨workflowId, [("Webhook", "n8n-nodes-base.webhook")]⟩
  webhooks := [{ webhook := { httpMethod := .POST, node := "Webhook", path := "orders", workflowId := workflowId } }]
  deletes := fun _ => true
  ofWorkflow := fun _ among => by rw [List.mem_singleton.1 among]

/-- A second user takes the path of the first one's test webhook. -/
theorem not_respects_taken : ¬ Along next Respects ∅
    [.needsWebhook (ordersOf "user1" "workflow1"), .needsWebhook (ordersOf "user2" "workflow2")] := by
  rintro ⟨-, respects, -⟩
  have first : next ∅ (.needsWebhook (ordersOf "user1" "workflow1")) =
      (∅ : Registrations).set "POST|orders" ((ordersOf "user1" "workflow1").registration
        { webhook := { httpMethod := .POST, node := "Webhook", path := "orders", workflowId := "workflow1" } }) := by
    decide
  rw [first] at respects
  have thrown := respects
    { webhook := { httpMethod := .POST, node := "Webhook", path := "orders", workflowId := "workflow2" } } _ _
    ⟨[], [], by decide, rfl, by decide⟩ (by decide) (OrderedMap.get_set_self _ _ _) (.inl (by decide))
  have taken : (needsWebhook (ordersOf "user2" "workflow2")
      ((∅ : Registrations).set "POST|orders" ((ordersOf "user1" "workflow1").registration
        { webhook := { httpMethod := .POST, node := "Webhook", path := "orders", workflowId := "workflow1" } }))).2 =
      .returned true := by
    decide
  simp [thrown] at taken

abbrev TestRegistrations := {registrations : Registrations // OnlyTests registrations}

inductive Stored where
  | stored
  | tooBig
  | notStored
  | storedAndFailed
  deriving DecidableEq

/-- What comes of the calls of one turn: reading the cache, storing, creating, storing again. -/
structure Turn where
  read : Bool := true
  registered : Stored := .stored
  created : Bool := true
  registeredAgain : Stored := .stored

/-- `pending` are the timers that have neither fired nor been cleared. -/
structure Listens where
  registrations : TestRegistrations := ⟨∅, onlyTests_empty⟩
  timeouts : OrderedMap String Nat := ∅
  pending : List Nat := []
  nextTimer : Nat := 0
  fresh : ∀ timer ∈ pending, timer < nextTimer := by simp

/-- How a call ends; the cache may fail by itself. -/
inductive Ended where
  | outcome (outcome : Outcome)
  | cacheFailed
  deriving DecidableEq

def register (options : Options) (registrations : TestRegistrations) (listening : Listening)
    (result : Stored) : TestRegistrations × Option Ended :=
  let registered : TestRegistrations :=
    ⟨registrations.1.set (options.keyOf listening) (options.registration listening),
      onlyTests_set registrations.2 _⟩
  match result with
  | .stored => (registered, none)
  | .tooBig => (⟨∅, onlyTests_empty⟩, some (.outcome (.thrown .workflowTooBig)))
  | .notStored => (registrations, some .cacheFailed)
  | .storedAndFailed => (registered, some .cacheFailed)

/-- The calls inside `try`, as far as they come. -/
def tryToListen (options : Options) (registrations : TestRegistrations) (listening : Listening)
    (turn : Turn) : TestRegistrations × Option Ended :=
  match register options registrations listening turn.registered with
  | (left, some error) => (left, some error)
  | (registered, none) =>
    if turn.created then register options registered listening turn.registeredAgain
    else (registered, some (.outcome (.thrown .webhookMethod)))

def Options.taken (options : Options) (registrations : Registrations) (listening : Listening) : Bool :=
  (registrations.get (options.keyOf listening)).any fun existing =>
    (options.locate listening.webhook).isStatic && !existing.webhook.isTest &&
      existing.webhook.userId ≠ some options.userId &&
      existing.webhook.workflowId ≠ options.workflowEntity.id

/-- `timeouts` names the timer under every key that is registered, and no longer under the one
that failed. -/
def listen (options : Options) (timeout : Nat) (state : Listens) (listening : Listening) (turn : Turn) :
    Listens × Option Ended :=
  if !turn.read then (state, some .cacheFailed)
  else if listening.webhook.node ∈ options.runData then (state, some (.outcome (.returned false)))
  else if options.taken state.registrations.1 listening then
    (state, some (.outcome (.thrown (.webhookPathTaken listening.webhook.node))))
  else
    match tryToListen options state.registrations listening turn with
    | (registered, none) =>
      ({ state with
          registrations := registered
          timeouts := state.timeouts.set (options.keyOf listening) timeout }, none)
    | (left, some error) =>
      let deactivated := deactivateWebhooks left.1 options.workflowEntity.id options.deletes
      ({ state with
          registrations := ⟨deactivated.1, onlyTests_deactivate left.2 _ _⟩
          timeouts :=
            if deactivated.2 then state.timeouts.delete (options.keyOf listening) else state.timeouts },
        some (if deactivated.2 then error else .outcome (.thrown .webhookMethod)))

def listenAll (options : Options) (turns : Nat → Turn) (timeout : Nat) :
    Nat → Listens → List Listening → Listens × Option Ended
  | _, state, [] => (state, none)
  | position, state, listening :: rest =>
    match listen options timeout state listening (turns position) with
    | (state, none) => listenAll options turns timeout (position + 1) state rest
    | (state, some ended) => (state, some ended)

def setTimeout (state : Listens) : Listens :=
  { state with
    pending := state.nextTimer :: state.pending
    nextTimer := state.nextTimer + 1
    fresh := by
      intro timer member
      rcases List.mem_cons.1 member with rfl | old
      · omega
      · have bound := state.fresh timer old
        omega }

/-- `needsWebhook` with its timer, which is set before the loop. -/
def startListening (options : Options) (turns : Nat → Turn) (state : Listens) : Listens × Ended :=
  match options.toRegister with
  | .error outcome => (state, .outcome outcome)
  | .ok webhooks =>
    match listenAll options turns state.nextTimer 0 (setTimeout state) webhooks with
    | (reached, none) => (reached, .outcome (.returned true))
    | (reached, some ended) => (reached, ended)

/-- Unless it returns true, the call leaves no registration and no pending timer that was not
there before. -/
def AllOrNothing (options : Options) (turns : Nat → Turn) (state : Listens) : Prop :=
  (startListening options turns state).2 ≠ .outcome (.returned true) →
    (∀ key registration,
      (startListening options turns state).1.registrations.1.get key = some registration →
        state.registrations.1.get key = some registration) ∧
    ∀ timer ∈ (startListening options turns state).1.pending, timer ∈ state.pending

/-- Nothing fails in the turn, and the node has no run data. -/
def Options.Succeeds (options : Options) (listening : Listening) (turn : Turn) : Prop :=
  turn.read ∧ listening.webhook.node ∉ options.runData ∧ turn.registered = .stored ∧ turn.created ∧
    turn.registeredAgain = .stored

theorem tryToListen_spec (options : Options) (registrations : TestRegistrations)
    (listening : Listening) (turn : Turn) :
    ((tryToListen options registrations listening turn).2 = none ↔
      turn.registered = .stored ∧ turn.created ∧ turn.registeredAgain = .stored) ∧
    (tryToListen options registrations listening turn).2 ≠ some (.outcome (.returned true)) := by
  rw [tryToListen]
  cases turn.registered with
  | stored =>
    cases turn.created with
    | false => simp [register]
    | true => cases turn.registeredAgain <;> simp [register]
  | tooBig => simp [register]
  | notStored => simp [register]
  | storedAndFailed => simp [register]

theorem listen_spec (options : Options) (timeout : Nat) (state : Listens) (listening : Listening)
    (turn : Turn) : (listen options timeout state listening turn).1.pending = state.pending ∧
      ((listen options timeout state listening turn).2 = none ↔ options.Succeeds listening turn) ∧
      (listen options timeout state listening turn).2 ≠ some (.outcome (.returned true)) := by
  have free : options.taken state.registrations.1 listening = false := by
    rw [Options.taken]
    cases there : state.registrations.1.get (options.keyOf listening) with
    | none => rfl
    | some existing => simp [state.registrations.2 _ existing there]
  obtain ⟨passes, never⟩ := tryToListen_spec options state.registrations listening turn
  rw [listen, free, Options.Succeeds, ← passes]
  by_cases read : turn.read
  · by_cases run : listening.webhook.node ∈ options.runData
    · simp [read, run]
    · cases tried : tryToListen options state.registrations listening turn with
      | mk left error =>
        rw [tried] at never
        cases error with
        | none => simp [read, run]
        | some error =>
          refine ⟨by simp [read, run], by simp [read, run], ?_⟩
          simp only [read, run, Bool.not_true, Bool.false_eq_true, if_false]
          split
          · exact never
          · simp
  · simp [read]

theorem listenAll_spec (options : Options) (turns : Nat → Turn) (timeout position : Nat)
    (state : Listens) (webhooks : List Listening) :
    (listenAll options turns timeout position state webhooks).1.pending = state.pending ∧
      ((listenAll options turns timeout position state webhooks).2 = none ↔
        ∀ i listening, webhooks[i]? = some listening →
          options.Succeeds listening (turns (position + i))) ∧
      (listenAll options turns timeout position state webhooks).2 ≠ some (.outcome (.returned true)) := by
  induction webhooks generalizing position state with
  | nil => simp [listenAll]
  | cons listening rest ih =>
    obtain ⟨pending, passes, never⟩ := listen_spec options timeout state listening (turns position)
    have positions : (∀ i other, (listening :: rest)[i]? = some other →
        options.Succeeds other (turns (position + i))) ↔
          options.Succeeds listening (turns position) ∧ ∀ i other, rest[i]? = some other →
            options.Succeeds other (turns (position + 1 + i)) := by
      have shift : ∀ i, position + 1 + i = position + (i + 1) := by omega
      simp only [shift]
      refine ⟨fun h => ⟨h 0 listening rfl, fun i other there => h (i + 1) other there⟩, fun h i other there => ?_⟩
      cases i with
      | zero => exact Option.some.inj there ▸ h.1
      | succ i => exact h.2 i other there
    rw [listenAll, positions]
    cases turned : listen options timeout state listening (turns position) with
    | mk reached ended =>
      rw [turned] at pending passes never
      cases ended with
      | none =>
        obtain ⟨pendingRest, passesRest, neverRest⟩ := ih (position + 1) reached
        refine ⟨pendingRest.trans pending, ?_, neverRest⟩
        exact passesRest.trans (and_iff_right (passes.1 rfl)).symm
      | some ended =>
        exact ⟨pending, iff_of_false (by simp) fun h => by simpa using passes.2 h.1, never⟩

/-- A call is all or nothing exactly when it ends before its loop or no turn of the loop fails:
in between, the timer stays. -/
theorem allOrNothing_iff (options : Options) (turns : Nat → Turn) (state : Listens) :
    AllOrNothing options turns state ↔ ∀ webhooks, options.toRegister = .ok webhooks →
      ∀ i listening, webhooks[i]? = some listening → options.Succeeds listening (turns i) := by
  rw [AllOrNothing, startListening]
  cases toRegister : options.toRegister with
  | error outcome => simp
  | ok webhooks =>
    obtain ⟨pending, passes, never⟩ :=
      listenAll_spec options turns state.nextTimer 0 (setTimeout state) webhooks
    simp only [Nat.zero_add] at passes
    simp only [Except.ok.injEq, forall_eq', ← passes]
    cases went : listenAll options turns state.nextTimer 0 (setTimeout state) webhooks with
    | mk reached ended =>
      rw [went] at pending never
      cases ended with
      | none => simp
      | some ended =>
        refine iff_of_false (fun h => ?_) (by simp)
        have held : state.nextTimer ∈ reached.pending := by
          rw [show reached.pending = (setTimeout state).pending from pending]
          exact List.mem_cons_self
        have left := (h fun same => never (congrArg some same)).2 state.nextTimer held
        exact absurd (state.fresh _ left) (by omega)

/-- The service refuses the webhook: its registration is taken back, the timer is not. -/
theorem refused_not_allOrNothing :
    ¬ AllOrNothing (ordersOf "user1" "workflow1") (fun _ => { created := false }) {} := by
  intro h
  have left := (h (by decide)).2 0 (by decide)
  exact absurd left List.not_mem_nil

end NodeAutomation.TestWebhooks
