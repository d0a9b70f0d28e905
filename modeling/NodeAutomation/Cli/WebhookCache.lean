import NodeAutomation.Lib.CacheAside
import NodeAutomation.Lib.Interleaving
import NodeAutomation.Lib.OrderedMap

/-! Lookups, registrations and removals of webhooks (`packages/cli/src/webhooks/webhook.service.ts`)
with the table of webhooks and the cache beside it. -/

namespace NodeAutomation.WebhookCache

open CacheAside Interleaving

inductive IHttpRequestMethods where
  | DELETE | GET | HEAD | PATCH | POST | PUT
  deriving DecidableEq

def IHttpRequestMethods.text : IHttpRequestMethods → String
  | DELETE => "DELETE"
  | GET => "GET"
  | HEAD => "HEAD"
  | PATCH => "PATCH"
  | POST => "POST"
  | PUT => "PUT"

structure WebhookEntity where
  workflowId : String
  webhookPath : String
  method : IHttpRequestMethods
  node : String
  webhookId : Option String := none
  deriving DecidableEq

namespace WebhookEntity

def hasColon (webhook : WebhookEntity) : Bool := webhook.webhookPath.toList.contains ':'

def uniquePath (webhook : WebhookEntity) : String :=
  if webhook.hasColon then webhook.webhookId.getD "" ++ "/" ++ webhook.webhookPath
  else webhook.webhookPath

def cacheKey (webhook : WebhookEntity) : String :=
  "webhook:" ++ webhook.method.text ++ "-" ++ webhook.uniquePath

def primaryKey (webhook : WebhookEntity) : IHttpRequestMethods × String :=
  (webhook.method, webhook.webhookPath)

/-- `update(criteria, webhook)` leaves a column alone whose value is undefined. -/
def refreshedBy (existing webhook : WebhookEntity) : WebhookEntity :=
  { webhook with webhookId := webhook.webhookId.or existing.webhookId }

end WebhookEntity

/-- The key under which `findCachedStaticWebhook` looks. -/
def lookupKey (method : IHttpRequestMethods) (path : String) : String :=
  "webhook:" ++ method.text ++ "-" ++ path

structure Shared where
  rows : OrderedMap (IHttpRequestMethods × String) WebhookEntity := ∅
  cache : OrderedMap String WebhookEntity := ∅

inductive WebhookError where
  | queryFailed
  | insertFailed
  | webhookPathTaken (message : String)
  deriving DecidableEq

def webhookPathTakenError (nodeName : String) : WebhookError :=
  .webhookPathTaken ("The URL path that the \"" ++ nodeName ++
    "\" node uses is already taken. Please change it to something else.")

/-- `nodeNames` are those of `deleteWorkflowWebhooksForNodes`. -/
inductive Invocation where
  | findCachedStaticWebhook (method : IHttpRequestMethods) (path : String)
  | storeWebhook (webhook : WebhookEntity)
  | deleteWorkflowWebhooks (workflowId : String) (nodeNames : Option (List String))
  deriving DecidableEq

/-- What a call is suspended at. A lookup that refills the cache has already returned; a
deletion waits for the table and has a call to the cache in flight, in any order. -/
inductive Stage where
  | gettingCached (method : IHttpRequestMethods) (path : String)
  | findingInDb (method : IHttpRequestMethods) (path : String)
  | refilling (method : IHttpRequestMethods) (path : String) (webhook : WebhookEntity)
  | inserting (webhook : WebhookEntity)
  | findingExisting (webhook : WebhookEntity)
  | updating (webhook : WebhookEntity)
  | caching (webhook : WebhookEntity)
  | findingByWorkflow (workflowId : String) (nodeNames : Option (List String))
  | deleting (webhooks : List WebhookEntity) (cacheCall tableCall : Bool)
  | returned (webhook : Option WebhookEntity)
  | thrown (error : WebhookError)
  deriving DecidableEq

def Stage.finished : Stage → Bool
  | .deleting _ cacheCall tableCall => !cacheCall && !tableCall
  | .returned _ | .thrown _ => true
  | _ => false

/-- What answers: the statement or cache call the code waits for, or the call to the cache
that a deletion does not wait for. -/
inductive Reply where
  | ok
  | failed
  | cacheOk
  | cacheFailed
  deriving DecidableEq

inductive Event where
  | cacheEntryExpires (key : String)
  deriving DecidableEq

def invoke (s : Shared) (_ : Nat) : Invocation → Shared × Stage
  | .findCachedStaticWebhook method path => (s, .gettingCached method path)
  | .storeWebhook webhook => (s, .inserting webhook)
  | .deleteWorkflowWebhooks workflowId nodeNames =>
    if nodeNames = some [] then (s, .returned none) else (s, .findingByWorkflow workflowId nodeNames)

def proceed (s : Shared) (_ : Nat) (stage : Stage) (reply : Reply) : Shared × Stage :=
  let answered : Bool := reply = .ok
  match stage with
  | .gettingCached method path =>
    -- a query of the cache that fails counts as a miss
    match if answered then s.cache.get (lookupKey method path) else none with
    | some cached => (s, .returned (some cached))
    | none => (s, .findingInDb method path)
  | .findingInDb method path =>
    if answered then
      match s.rows.get (method, path) with
      | some webhook => (s, .refilling method path webhook)
      | none => (s, .returned none)
    else (s, .thrown .queryFailed)
  | .refilling method path webhook =>
    if answered then
      ({ s with cache := s.cache.set (lookupKey method path) webhook }, .returned (some webhook))
    else (s, .returned (some webhook))
  | .inserting webhook =>
    if answered ∧ s.rows.get webhook.primaryKey = none then
      ({ s with rows := s.rows.set webhook.primaryKey webhook }, .caching webhook)
    else (s, .findingExisting webhook)
  | .findingExisting webhook =>
    if answered then
      match s.rows.get webhook.primaryKey with
      | none => (s, .thrown .insertFailed)
      | some existing =>
        if existing.workflowId ≠ webhook.workflowId then
          (s, .thrown (webhookPathTakenError webhook.node))
        else (s, .updating webhook)
    else (s, .thrown .queryFailed)
  | .updating webhook =>
    if answered then
      match s.rows.get webhook.primaryKey with
      | none => (s, .caching webhook)
      | some existing =>
        ({ s with rows := s.rows.set webhook.primaryKey (existing.refreshedBy webhook) },
          .caching webhook)
    else (s, .thrown .queryFailed)
  | .caching webhook =>
    -- a failure is logged
    if answered then ({ s with cache := s.cache.set webhook.cacheKey webhook }, .returned none)
    else (s, .returned none)
  | .findingByWorkflow workflowId nodeNames =>
    let webhooks := s.rows.values.filter fun webhook =>
      webhook.workflowId = workflowId ∧ nodeNames.all fun names => names.contains webhook.node
    if answered then (s, .deleting webhooks true true) else (s, .thrown .queryFailed)
  | .deleting webhooks cacheCall tableCall =>
    match reply with
    | .ok =>
      if tableCall then
        ({ s with rows := s.rows.deleteMany (webhooks.map WebhookEntity.primaryKey) },
          .deleting webhooks cacheCall false)
      else (s, stage)
    | .failed => (s, .deleting webhooks cacheCall false)
    | .cacheOk =>
      if cacheCall then
        ({ s with cache := s.cache.deleteMany (webhooks.map WebhookEntity.cacheKey) },
          .deleting webhooks false tableCall)
      else (s, stage)
    | .cacheFailed => (s, .deleting webhooks false tableCall)
  | .returned _ | .thrown _ => (s, stage)

def environment (s : Shared) : Event → Shared
  | .cacheEntryExpires key => { s with cache := s.cache.delete key }

def system : System Shared Stage Invocation Reply Event where
  invoke := invoke
  proceed := proceed
  environment := environment

end NodeAutomation.WebhookCache
