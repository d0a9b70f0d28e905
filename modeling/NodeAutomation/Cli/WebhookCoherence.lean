import NodeAutomation.Cli.WebhookCache

/-! When the cache of webhooks says what the table says. -/

namespace NodeAutomation.WebhookCache

open CacheAside Interleaving

theorem lookupKey_inj {method method' : IHttpRequestMethods} {path path' : String}
    (same : lookupKey method path = lookupKey method' path') : (method, path) = (method', path') := by
  have chars := congrArg String.toList same
  rw [Prod.mk.injEq, ← String.toList_inj]
  cases method <;> cases method' <;> simp [lookupKey, IHttpRequestMethods.text] at chars ⊢
  all_goals exact chars

variable {webhook : WebhookEntity}

theorem cacheKey_eq (plain : webhook.hasColon = false) :
    webhook.cacheKey = lookupKey webhook.method webhook.webhookPath := by
  rw [WebhookEntity.cacheKey, WebhookEntity.uniquePath, plain]
  rfl

namespace Shared

variable (s : Shared)

def table (key : IHttpRequestMethods × String) : Option WebhookEntity := s.rows.get key

def cached (key : IHttpRequestMethods × String) : Option WebhookEntity :=
  s.cache.get (lookupKey key.1 key.2)

end Shared

variable {s s' : Shared} {config : Config Shared Stage} {number : Nat} {stage : Stage} {reply : Reply}

theorem cached_set {method : IHttpRequestMethods} {path : String}
    (set : s'.cache = s.cache.set (lookupKey method path) webhook) :
    s'.cached = Function.update s.cached (method, path) (some webhook) := by
  funext key
  rw [Shared.cached, set, OrderedMap.get_set, Function.update_apply]
  by_cases same : key = (method, path)
  · rw [if_pos same, if_pos (by rw [same])]
  · rw [if_neg same, if_neg fun equal => same (lookupKey_inj equal)]
    rfl

/-- Which entries a call has changed in the table without having called the cache yet. -/
def Stage.owes (key : IHttpRequestMethods × String) : Stage → Bool
  | .caching webhook => webhook.primaryKey = key
  | .deleting webhooks cacheCall _ => cacheCall && (webhooks.map WebhookEntity.primaryKey).contains key
  | _ => false

/-- Another call than this one has still to call the cache. -/
abbrev OwedByOther (config : Config Shared Stage) (number : Nat) (key : IHttpRequestMethods × String) :
    Prop :=
  OtherCall config.calls number fun stage => stage.owes key

/-- The cache is written with the row of the table, and rows leave the table before they
leave the cache or with nothing cached since. No registered path has a colon. -/
def Stage.OrderlyAt (config : Config Shared Stage) (number : Nat) (reply : Reply) : Stage → Prop
  | .refilling method path webhook =>
    reply = .ok →
      config.shared.rows.get (method, path) = some webhook ∨ OwedByOther config number (method, path)
  | .inserting webhook | .updating webhook => reply = .ok → webhook.hasColon = false
  | .caching webhook =>
    (if reply = .ok then config.shared.rows.get webhook.primaryKey = some webhook
      else config.shared.cache.get webhook.cacheKey = none) ∨
      OwedByOther config number webhook.primaryKey
  | .deleting webhooks cacheCall tableCall =>
    (reply = .ok ∧ tableCall = true ∧ cacheCall = false) ∨ (reply = .cacheFailed ∧ cacheCall = true) →
      ∀ webhook ∈ webhooks, config.shared.cache.get webhook.cacheKey = none ∨
        OwedByOther config number webhook.primaryKey
  | _ => True

def Orderly (config : Config Shared Stage) : Action Invocation Reply Event → Prop
  | .proceed number reply => ∀ stage ∈ config.calls[number]?, stage.OrderlyAt config number reply
  | .invoke _ | .environment _ => True

instance (config : Config Shared Stage) (number : Nat) (reply : Reply) :
    DecidablePred (Stage.OrderlyAt config number reply)
  | .refilling _ _ _ => inferInstanceAs (Decidable (_ → _ ∨ _))
  | .inserting _ | .updating _ => inferInstanceAs (Decidable (_ → _))
  | .caching webhook =>
    inferInstanceAs (Decidable
      ((if reply = .ok then config.shared.rows.get webhook.primaryKey = some webhook
        else config.shared.cache.get webhook.cacheKey = none) ∨ _))
  | .deleting webhooks _ _ => inferInstanceAs (Decidable (_ → ∀ webhook ∈ webhooks, _))
  | .gettingCached _ _ | .findingInDb _ _ | .findingExisting _ | .findingByWorkflow _ _
  | .returned _ | .thrown _ => isTrue trivial

instance (config : Config Shared Stage) : DecidablePred (Orderly config)
  | .proceed number reply =>
    inferInstanceAs (Decidable (∀ stage ∈ config.calls[number]?, stage.OrderlyAt config number reply))
  | .invoke _ | .environment _ => isTrue trivial

/-- What a call is about to cache or to delete has no colon in its path. -/
def Stage.Plain : Stage → Prop
  | .caching webhook => webhook.hasColon = false
  | .deleting webhooks _ _ => ∀ webhook ∈ webhooks, webhook.hasColon = false
  | _ => True

structure Sound (config : Config Shared Stage) : Prop where
  rows : ∀ key webhook, config.shared.rows.get key = some webhook →
    webhook.primaryKey = key ∧ webhook.hasColon = false
  plain : ∀ stage ∈ config.calls, stage.Plain
  covered : Covered config.shared.table config.shared.cached fun key =>
    SomeCall config.calls fun stage => stage.owes key

variable {stage' : Stage}

theorem Sound.plain_set (sound : Sound config) (plain : stage'.Plain) :
    ∀ other ∈ config.calls.set number stage', other.Plain := by
  intro other member
  cases List.mem_or_eq_of_mem_set member with
  | inl old => exact sound.plain other old
  | inr same =>
    rw [same]
    exact plain

variable {key : IHttpRequestMethods × String}

theorem owed_set
    (found : config.calls[number]? = some stage) (free : stage.owes key → stage'.owes key)
    (owed : SomeCall config.calls fun call => call.owes key) :
    SomeCall (config.calls.set number stage') fun call => call.owes key := by
  rw [someCall_set found]
  exact ((someCall_iff found).1 owed).imp_left free

section

variable (sound : Sound config)
include sound

section

variable (found : config.calls[number]? = some stage)
include found

theorem Sound.idle
    (free : ∀ key, stage.owes key → stage'.owes key) (plain : stage'.Plain) :
    Sound { config with calls := config.calls.set number stage' } where
  rows := sound.rows
  plain := sound.plain_set plain
  covered := sound.covered.mono fun key => owed_set found (free key)

theorem Sound.write {value : WebhookEntity}
    (free : ∀ other, stage.owes other → stage'.owes other) (owes : stage'.owes key)
    (plain : stage'.Plain) (own : value.primaryKey = key ∧ value.hasColon = false) :
    Sound ⟨{ config.shared with rows := config.shared.rows.set key value },
      config.calls.set number stage'⟩ where
  rows := fun other webhook known => by
    rw [OrderedMap.get_set] at known
    by_cases same : other = key
    · rw [if_pos same] at known
      rw [same, ← Option.some.inj known]
      exact own
    · rw [if_neg same] at known
      exact sound.rows other webhook known
  plain := sound.plain_set plain
  covered := by
    refine sound.covered.write (fun other => owed_set found (free other)) fun other => ?_
    by_cases same : other = key
    · rw [same]
      exact .inr (.inl ((someCall_set found).2 (.inl owes)))
    · refine .inl ?_
      rw [Shared.table, Shared.table, OrderedMap.get_set_of_ne _ _ same]

theorem Sound.refill {method : IHttpRequestMethods} {path : String}
    {value : WebhookEntity}
    (free : ∀ other, other ≠ (method, path) → stage.owes other → stage'.owes other)
    (plain : stage'.Plain)
    (current : config.shared.rows.get (method, path) = some value ∨ OwedByOther config number (method, path)) :
    Sound ⟨{ config.shared with cache := config.shared.cache.set (lookupKey method path) value },
      config.calls.set number stage'⟩ where
  rows := sound.rows
  plain := sound.plain_set plain
  covered := by
    rw [cached_set rfl]
    refine sound.covered.refill (fun other apart => owed_set found (free other apart)) ?_
    exact current.imp_right fun others => (someCall_set found).2 (.inr others)

theorem Sound.drop {cache : OrderedMap String WebhookEntity}
    (shrunk : ∀ method path value, cache.get (lookupKey method path) = some value →
      config.shared.cache.get (lookupKey method path) = some value ∧
        (stage.owes (method, path) → stage'.owes (method, path) ∨ OwedByOther config number (method, path)))
    (plain : stage'.Plain) :
    Sound ⟨{ config.shared with cache }, config.calls.set number stage'⟩ where
  rows := sound.rows
  plain := sound.plain_set plain
  covered := by
    refine sound.covered.invalidate fun key value known => ?_
    have before := shrunk key.1 key.2 value known
    refine ⟨before.1, fun owed => ?_⟩
    rw [someCall_set found]
    cases (someCall_iff found).1 owed with
    | inl own => exact before.2 own
    | inr others => exact .inr others

theorem Sound.remove {keys : List (IHttpRequestMethods × String)} (free : ∀ key, stage.owes key → stage'.owes key)
    (plain : stage'.Plain)
    (uncached : ∀ key ∈ keys, stage'.owes key ∨ config.shared.cached key = none ∨
      OwedByOther config number key) :
    Sound ⟨{ config.shared with rows := config.shared.rows.deleteMany keys },
      config.calls.set number stage'⟩ where
  rows := fun key webhook known => by
    rw [OrderedMap.get_deleteMany] at known
    split at known
    · exact absurd known (by simp)
    · exact sound.rows key webhook known
  plain := sound.plain_set plain
  covered := by
    refine sound.covered.write (fun key => owed_set found (free key)) fun key => ?_
    rw [Shared.table, OrderedMap.get_deleteMany]
    by_cases removed : key ∈ keys
    · refine .inr ?_
      rw [someCall_set found]
      cases uncached key removed with
      | inl own => exact .inl (.inl own)
      | inr rest => exact rest.symm.imp_left .inr
    · rw [if_neg removed]
      exact .inl rfl

end

theorem mem_values_rows
    (member : webhook ∈ config.shared.rows.values) : webhook.hasColon = false := by
  obtain ⟨key, known⟩ := (OrderedMap.mem_values_iff _ webhook).1 member
  exact (sound.rows key webhook known).2

end

theorem cached_primaryKey (plain : webhook.hasColon = false) :
    s.cached webhook.primaryKey = s.cache.get webhook.cacheKey := by
  rw [cacheKey_eq plain]
  rfl

theorem owes_deleting_iff {webhooks : List WebhookEntity} {cacheCall tableCall : Bool} :
    (Stage.deleting webhooks cacheCall tableCall).owes key ↔
      cacheCall = true ∧ ∃ webhook ∈ webhooks, webhook.primaryKey = key := by
  rw [Stage.owes, Bool.and_eq_true, List.contains_iff_mem, List.mem_map]

/-- The steps of a deletion: its two calls are answered in any order. -/
theorem sound_deleting (sound : Sound config) {webhooks : List WebhookEntity} {cacheCall tableCall : Bool}
    (found : config.calls[number]? = some (.deleting webhooks cacheCall tableCall))
    (orderly : (Stage.deleting webhooks cacheCall tableCall).OrderlyAt config number reply) :
    Sound ⟨(proceed config.shared number (.deleting webhooks cacheCall tableCall) reply).1,
      config.calls.set number (proceed config.shared number (.deleting webhooks cacheCall tableCall) reply).2⟩ := by
  have plain : ∀ webhook ∈ webhooks, webhook.hasColon = false :=
    sound.plain _ (List.mem_of_getElem? found)
  have same : Sound { config with calls := config.calls.set number (.deleting webhooks cacheCall tableCall) } :=
    sound.idle found (fun _ owes => owes) plain
  simp only [proceed]
  cases reply with
  | ok =>
    cases tableCall with
    | false => exact same
    | true =>
      refine sound.remove found (fun _ owes => owes) plain fun key member => ?_
      obtain ⟨webhook, known, isKey⟩ := List.mem_map.1 member
      cases cacheCall with
      | true => exact .inl (owes_deleting_iff.2 ⟨rfl, webhook, known, isKey⟩)
      | false =>
        have here := orderly (.inl ⟨rfl, rfl, rfl⟩) webhook known
        rw [← cached_primaryKey (plain webhook known), isKey] at here
        exact .inr here
  | failed => exact sound.idle found (fun _ owes => owes) plain
  | cacheOk =>
    cases cacheCall with
    | false => exact same
    | true =>
      refine sound.drop found (fun method path value known => ?_) plain
      rw [OrderedMap.get_deleteMany] at known
      split at known
      case isTrue => exact absurd known (by simp)
      case isFalse kept =>
        refine ⟨known, fun owes => ?_⟩
        obtain ⟨-, webhook, member, isKey⟩ := owes_deleting_iff.1 owes
        refine absurd (List.mem_map.2 ⟨webhook, member, ?_⟩) kept
        rw [cacheKey_eq (plain webhook member), ← (Prod.mk.inj isKey).1, ← (Prod.mk.inj isKey).2]
  | cacheFailed =>
    refine sound.drop found (fun method path value known => ⟨known, fun owes => ?_⟩) plain
    obtain ⟨pending, webhook, member, isKey⟩ := owes_deleting_iff.1 owes
    have here := orderly (.inr ⟨rfl, pending⟩) webhook member
    rw [← cached_primaryKey (plain webhook member), isKey] at here
    exact .inr (here.resolve_left fun absent => absurd (absent.symm.trans known) (by simp))

theorem sound_proceed (sound : Sound config) (found : config.calls[number]? = some stage)
    (orderly : stage.OrderlyAt config number reply) :
    Sound ⟨(proceed config.shared number stage reply).1,
      config.calls.set number (proceed config.shared number stage reply).2⟩ := by
  have plain := sound.plain stage (List.mem_of_getElem? found)
  have idle : (∀ key, stage.owes key = false) → ∀ stage' : Stage, stage'.Plain →
      Sound { config with calls := config.calls.set number stage' } :=
    fun free stage' plain' => sound.idle found (fun key owes => absurd owes (by rw [free key]; decide)) plain'
  cases stage with
  | gettingCached method path =>
    have here := idle fun _ => rfl
    simp only [proceed]
    split
    · exact here _ trivial
    · exact here _ trivial
  | findingInDb method path =>
    have here := idle fun _ => rfl
    simp only [proceed]
    split
    · split
      · exact here _ trivial
      · exact here _ trivial
    · exact here _ trivial
  | refilling method path webhook =>
    simp only [proceed]
    split
    case isTrue answered =>
      exact sound.refill found (fun _ _ owes => absurd owes Bool.false_ne_true) trivial
        (orderly (of_decide_eq_true answered))
    case isFalse => exact idle (fun _ => rfl) _ trivial
  | inserting webhook =>
    simp only [proceed]
    split
    case isTrue inserted =>
      have noColon := orderly (of_decide_eq_true inserted.1)
      exact sound.write found (fun _ owes => absurd owes Bool.false_ne_true) (decide_eq_true rfl)
        noColon ⟨rfl, noColon⟩
    case isFalse => exact idle (fun _ => rfl) _ trivial
  | findingExisting webhook =>
    have here := idle fun _ => rfl
    simp only [proceed]
    split
    · split
      · exact here _ trivial
      · split
        · exact here _ trivial
        · exact here _ trivial
    · exact here _ trivial
  | updating webhook =>
    simp only [proceed]
    split
    case isTrue answered =>
      have noColon := orderly (of_decide_eq_true answered)
      split
      case h_1 => exact idle (fun _ => rfl) _ noColon
      case h_2 existing _ =>
        exact sound.write found (fun _ owes => absurd owes Bool.false_ne_true) (decide_eq_true rfl)
          noColon ⟨rfl, noColon⟩
    case isFalse => exact idle (fun _ => rfl) _ trivial
  | caching webhook =>
    have own : ∀ key, key ≠ webhook.primaryKey → ¬ (Stage.caching webhook).owes key :=
      fun key apart owes => apart (of_decide_eq_true owes).symm
    simp only [proceed]
    split
    case isTrue answered =>
      rw [cacheKey_eq plain]
      refine sound.refill found (fun key apart owes => absurd owes (own key apart)) trivial ?_
      rw [Stage.OrderlyAt, if_pos (of_decide_eq_true answered)] at orderly
      exact orderly
    case isFalse failed =>
      refine sound.drop found (fun method path value known => ⟨known, fun owes => ?_⟩) trivial
      rw [Stage.OrderlyAt, if_neg fun ok => failed (decide_eq_true ok)] at orderly
      have same : webhook.primaryKey = (method, path) := of_decide_eq_true owes
      rw [← same]
      refine .inr (orderly.resolve_left fun absent => ?_)
      rw [← cached_primaryKey plain, same] at absent
      exact absurd (absent.symm.trans known) (by simp)
  | findingByWorkflow workflowId nodeNames =>
    simp only [proceed]
    split
    · refine idle (fun _ => rfl) _ fun webhook member => ?_
      exact mem_values_rows sound (List.mem_of_mem_filter member)
    · exact idle (fun _ => rfl) _ trivial
  | deleting webhooks cacheCall tableCall => exact sound_deleting sound found orderly
  | returned webhook => exact idle (fun _ => rfl) _ trivial
  | thrown error => exact idle (fun _ => rfl) _ trivial

theorem sound_invoke (sound : Sound config) (call : Invocation) :
    Sound (system.next config (.invoke call)) := by
  have idle : ∀ stage : Stage, stage.Plain → (∀ key, stage.owes key = false) →
      Sound ⟨config.shared, config.calls ++ [stage]⟩ := fun stage plain free =>
    { rows := sound.rows
      plain := fun other member => by
        cases List.mem_append.1 member with
        | inl old => exact sound.plain other old
        | inr new =>
          rw [List.mem_singleton.1 new]
          exact plain
      covered := sound.covered.mono fun key owed => someCall_concat.2 (.inl owed) }
  cases call with
  | findCachedStaticWebhook method path => exact idle _ trivial fun _ => rfl
  | storeWebhook webhook => exact idle _ trivial fun _ => rfl
  | deleteWorkflowWebhooks workflowId nodeNames =>
    simp only [System.next, system, invoke]
    split
    · exact idle _ trivial fun _ => rfl
    · exact idle _ trivial fun _ => rfl

theorem sound_step (config : Config Shared Stage) (action : Action Invocation Reply Event)
    (sound : Sound config) (orderly : Orderly config action) : Sound (system.next config action) := by
  cases action with
  | invoke call => exact sound_invoke sound call
  | proceed number reply =>
    rw [System.next]
    split
    case h_1 => exact sound
    case h_2 stage found => exact sound_proceed sound found (orderly stage found)
  | environment event =>
    cases event with
    | cacheEntryExpires key =>
      refine ⟨sound.rows, sound.plain, sound.covered.invalidate fun other value known => ?_⟩
      change (config.shared.cache.delete key).get (lookupKey other.1 other.2) = some value at known
      rw [OrderedMap.get_delete] at known
      split at known
      · exact absurd known (by simp)
      · exact ⟨known, fun owed => owed⟩

/-- Every cached webhook that a lookup for a method and path reads is the row for them. -/
def CoherentWebhooks (s : Shared) : Prop :=
  ∀ method path webhook, s.cache.get (lookupKey method path) = some webhook →
    s.rows.get (method, path) = some webhook

theorem coherent_of_finished (sound : Sound config) (finished : ∀ stage ∈ config.calls, stage.finished) :
    CoherentWebhooks config.shared := by
  intro method path webhook cached
  refine sound.covered.coherent (fun key owed => ?_) (method, path) webhook cached
  obtain ⟨stage, member, owes⟩ := owed
  have done := finished stage member
  cases stage with
  | deleting webhooks cacheCall tableCall =>
    rw [Stage.finished, (owes_deleting_iff.1 owes).1] at done
    exact absurd done Bool.false_ne_true
  | caching webhook => exact absurd done Bool.false_ne_true
  | _ => exact absurd owes Bool.false_ne_true

theorem coherent_run (actions : List (Action Invocation Reply Event))
    (orderly : Runs.Along system.next Orderly { shared := {} } actions)
    (finished : ∀ stage ∈ (system.run { shared := {} } actions).calls, stage.finished) :
    CoherentWebhooks (system.run { shared := {} } actions).shared := by
  have initial : Sound { shared := {} } :=
    { rows := fun key webhook known => absurd known (by simp)
      plain := fun stage member => absurd member List.not_mem_nil
      covered := fun key webhook known => absurd known (by simp [Shared.cached]) }
  exact coherent_of_finished (Runs.holds_after sound_step initial orderly) finished

def webhookAt (webhookPath : String) : WebhookEntity :=
  { workflowId := "1", webhookPath, method := .GET, node := "Webhook" }

/-- A webhook is stored, found again once its entry has expired, and deleted. -/
def orderlyRun : List (Action Invocation Reply Event) :=
  [.invoke (.storeWebhook (webhookAt "a")), .proceed 0 .ok, .proceed 0 .ok,
    .environment (.cacheEntryExpires "webhook:GET-a"),
    .invoke (.findCachedStaticWebhook .GET "a"), .proceed 1 .ok, .proceed 1 .ok, .proceed 1 .ok,
    .invoke (.deleteWorkflowWebhooks "1" none), .proceed 2 .ok, .proceed 2 .ok, .proceed 2 .cacheOk]

theorem coherent_orderlyRun : CoherentWebhooks (system.run { shared := {} } orderlyRun).shared :=
  coherent_run orderlyRun (by decide) (by decide)

/-- One after the other: the lookup caches a path with a colon under a key that no deletion uses. -/
def colonRun : List (Action Invocation Reply Event) :=
  [.invoke (.storeWebhook (webhookAt "a:b")), .proceed 0 .ok, .proceed 0 .ok,
    .invoke (.findCachedStaticWebhook .GET "a:b"), .proceed 1 .ok, .proceed 1 .ok, .proceed 1 .ok,
    .invoke (.deleteWorkflowWebhooks "1" none), .proceed 2 .ok, .proceed 2 .cacheOk, .proceed 2 .ok]

/-- The lookup has read the row before the webhook is deleted, and caches it afterwards. -/
def lateRefillRun : List (Action Invocation Reply Event) :=
  [.invoke (.storeWebhook (webhookAt "a")), .proceed 0 .ok,
    .invoke (.findCachedStaticWebhook .GET "a"), .proceed 1 .ok, .proceed 1 .ok, .proceed 0 .ok,
    .invoke (.deleteWorkflowWebhooks "1" none), .proceed 2 .ok, .proceed 2 .cacheOk, .proceed 2 .ok,
    .proceed 1 .ok]

theorem deleted_webhooks_cached :
    ((∀ stage ∈ (system.run { shared := {} } colonRun).calls, stage.finished) ∧
      ¬ CoherentWebhooks (system.run { shared := {} } colonRun).shared) ∧
    (∀ stage ∈ (system.run { shared := {} } lateRefillRun).calls, stage.finished) ∧
      ¬ CoherentWebhooks (system.run { shared := {} } lateRefillRun).shared := by
  refine ⟨⟨by decide, fun coherent => ?_⟩, by decide, fun coherent => ?_⟩
  · exact absurd (coherent .GET "a:b" (webhookAt "a:b") (by decide)) (by decide)
  · exact absurd (coherent .GET "a" (webhookAt "a") (by decide)) (by decide)

end NodeAutomation.WebhookCache
