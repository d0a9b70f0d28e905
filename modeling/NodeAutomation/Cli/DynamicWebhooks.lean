import Mathlib.Data.List.Induction
import Mathlib.Data.List.MinMax
import NodeAutomation.Cli.WebhookCache

/-! Lookups of webhooks with dynamic path segments
(`findDynamicWebhook` of `packages/cli/src/webhooks/webhook.service.ts`). The code
compares static segments as a set; a route matches segment by segment. -/

namespace NodeAutomation.DynamicWebhooks

open WebhookCache

abbrev Segment := List Char

def segments (path : String) : List Segment := path.toList.splitOn '/'

def Segment.isDynamic (segment : Segment) : Bool := segment.head? = some ':'

structure DynamicWebhook extends WebhookEntity where
  pathLength : Nat
  registered : webhookId.isSome ∧ (segments webhookPath).any Segment.isDynamic ∧
    pathLength = (segments webhookPath).length
  deriving DecidableEq

namespace DynamicWebhook

def staticSegments (webhook : DynamicWebhook) : List Segment :=
  (segments webhook.webhookPath).filter (!·.isDynamic)

end DynamicWebhook

def findBy (table : List DynamicWebhook) (webhookId : Segment)
    (method : Option IHttpRequestMethods) (pathLength : Nat) : List DynamicWebhook :=
  table.filter fun webhook => webhook.webhookId = some (String.ofList webhookId) ∧
    method.all (· = webhook.method) ∧ webhook.pathLength = pathLength

structure Best where
  webhook : Option DynamicWebhook := none
  maxMatches : Nat := 0

def allStaticSegmentsMatch (requestSegments : List Segment) (dw : DynamicWebhook) : Bool :=
  dw.staticSegments.all (requestSegments.contains ·)

def consider (requestSegments : List Segment) (acc : Best) (dw : DynamicWebhook) : Best :=
  if allStaticSegmentsMatch requestSegments dw ∧ dw.staticSegments.length > acc.maxMatches then
    ⟨some dw, dw.staticSegments.length⟩
  else if dw.staticSegments.length = 0 ∧ acc.webhook = none then
    -- if path is `:var`, match on anything
    { acc with webhook := some dw }
  else acc

def uuidSegment (path : String) : Segment := (segments path).headD []

def otherSegments (path : String) : List Segment := (segments path).tail

def findDynamicWebhook (table : List DynamicWebhook) (path : String)
    (method : Option IHttpRequestMethods) : Option DynamicWebhook :=
  ((findBy table (uuidSegment path) method (otherSegments path).length).foldl
    (consider (otherSegments path)) {}).webhook

def candidates (table : List DynamicWebhook) (path : String)
    (method : Option IHttpRequestMethods) : List DynamicWebhook :=
  (findBy table (uuidSegment path) method (otherSegments path).length).filter
    (allStaticSegmentsMatch (otherSegments path))

def staticCount (webhook : DynamicWebhook) : Nat := webhook.staticSegments.length

theorem foldl_consider (requestSegments : List Segment) (rows : List DynamicWebhook) :
    rows.foldl (consider requestSegments) {} =
      ⟨(rows.filter (allStaticSegmentsMatch requestSegments)).argmax staticCount,
        (((rows.filter (allStaticSegmentsMatch requestSegments)).argmax staticCount).map
          staticCount).getD 0⟩ := by
  induction rows using List.reverseRecOn with
  | nil => rfl
  | append_singleton rows row ih =>
    rw [List.foldl_concat, ih, List.filter_append]
    by_cases occurs : allStaticSegmentsMatch requestSegments row
    · simp only [List.filter_cons, occurs, if_true, List.filter_nil, List.argmax_concat, consider]
      cases (rows.filter (allStaticSegmentsMatch requestSegments)).argmax staticCount with
      | none =>
        by_cases zero : row.staticSegments.length = 0
        · simp [zero, staticCount]
        · simp [Nat.pos_of_ne_zero zero, staticCount]
      | some best =>
        by_cases more : best.staticSegments.length < row.staticSegments.length
        · simp [more, staticCount]
        · simp [more, staticCount]
    · have some_left : row.staticSegments.length ≠ 0 := by
        intro zero
        simp [allStaticSegmentsMatch, List.length_eq_zero_iff.1 zero] at occurs
      simp [occurs, consider, some_left]

theorem findDynamicWebhook_eq (table : List DynamicWebhook) (path : String)
    (method : Option IHttpRequestMethods) :
    findDynamicWebhook table path method = (candidates table path method).argmax staticCount := by
  rw [findDynamicWebhook, foldl_consider]
  rfl

def MatchesSegment (pattern segment : Segment) : Prop := pattern.isDynamic ∨ pattern = segment

instance (pattern segment : Segment) : Decidable (MatchesSegment pattern segment) :=
  inferInstanceAs (Decidable (_ ∨ _))

def Matches (path : String) (webhook : DynamicWebhook) : Prop :=
  List.Forall₂ MatchesSegment (segments webhook.webhookPath) (otherSegments path)

instance (path : String) (webhook : DynamicWebhook) : Decidable (Matches path webhook) :=
  inferInstanceAs (Decidable (List.Forall₂ ..))

def Serves (path : String) (method : Option IHttpRequestMethods) (webhook : DynamicWebhook) : Prop :=
  webhook.webhookId = some (String.ofList (uuidSegment path)) ∧ method.all (· = webhook.method)

theorem mem_candidates_iff {table : List DynamicWebhook} {path : String}
    {method : Option IHttpRequestMethods} {webhook : DynamicWebhook} :
    webhook ∈ candidates table path method ↔ webhook ∈ table ∧ Serves path method webhook ∧
      webhook.pathLength = (otherSegments path).length ∧
        ∀ segment ∈ webhook.staticSegments, segment ∈ otherSegments path := by
  simp only [candidates, findBy, Serves, List.mem_filter, allStaticSegmentsMatch, List.all_eq_true,
    decide_eq_true_eq, List.contains_iff_mem, and_assoc]

theorem mem_of_matches {patterns request : List Segment}
    (h : List.Forall₂ MatchesSegment patterns request) {segment : Segment}
    (member : segment ∈ patterns.filter (!·.isDynamic)) : segment ∈ request := by
  induction h with
  | nil => simp at member
  | @cons pattern here patterns request first rest ih =>
    have split : (segment = pattern ∨ segment ∈ patterns) ∧ segment.isDynamic = false := by
      simpa using member
    rcases split.1 with rfl | later
    · have same : segment = here := first.resolve_left (by simp [split.2])
      simp [same]
    · exact List.mem_cons_of_mem _ (ih (by simp [later, split.2]))

theorem mem_candidates_of_matches {table : List DynamicWebhook} {path : String}
    {method : Option IHttpRequestMethods} {webhook : DynamicWebhook} (member : webhook ∈ table)
    (serves : Serves path method webhook) (found : Matches path webhook) :
    webhook ∈ candidates table path method := by
  refine mem_candidates_iff.2 ⟨member, serves, ?_, fun segment static => mem_of_matches found static⟩
  rw [webhook.registered.2.2]
  exact List.Forall₂.length_eq found

/-- The lookup returns a match with the most static segments, whenever there is one. -/
structure RespectsPositions (table : List DynamicWebhook) (path : String)
    (method : Option IHttpRequestMethods) : Prop where
  sound : ∀ found, findDynamicWebhook table path method = some found →
    found ∈ table ∧ Serves path method found ∧ Matches path found
  complete : ∀ webhook ∈ table, Serves path method webhook → Matches path webhook →
    (findDynamicWebhook table path method).isSome
  maximal : ∀ found, findDynamicWebhook table path method = some found →
    ∀ webhook ∈ table, Serves path method webhook → Matches path webhook →
      webhook.staticSegments.length ≤ found.staticSegments.length

/-- Positions are respected exactly where every candidate that has its static
segments at other places of the request comes after a match: one with more static
segments, or with as many and earlier among the candidates. -/
theorem respectsPositions_iff (table : List DynamicWebhook) (path : String)
    (method : Option IHttpRequestMethods) :
    RespectsPositions table path method ↔
      ∀ misplaced ∈ candidates table path method, ¬ Matches path misplaced →
        ∃ better ∈ candidates table path method, Matches path better ∧
          (misplaced.staticSegments.length < better.staticSegments.length ∨
            misplaced.staticSegments.length = better.staticSegments.length ∧
              (candidates table path method).idxOf better <
                (candidates table path method).idxOf misplaced) := by
  constructor
  · intro respects misplaced member away
    cases best : (candidates table path method).argmax staticCount with
    | none =>
      rw [List.argmax_eq_none.1 best] at member
      exact absurd member List.not_mem_nil
    | some found =>
      have matched := (respects.sound found (by rw [findDynamicWebhook_eq, best])).2.2
      have most : staticCount misplaced ≤ staticCount found := List.le_of_mem_argmax member best
      refine ⟨found, List.argmax_mem best, matched, most.lt_or_eq.imp_right fun same => ⟨same, ?_⟩⟩
      have early := List.index_of_argmax best member same.ge
      refine lt_of_le_of_ne early fun place => away ?_
      rw [← (List.idxOf_inj (List.argmax_mem best)).1 place]
      exact matched
  · intro beaten
    have sound : ∀ found, findDynamicWebhook table path method = some found →
        found ∈ candidates table path method ∧ Matches path found := by
      intro found best
      rw [findDynamicWebhook_eq] at best
      have member := List.argmax_mem best
      refine ⟨member, by_contra fun away => ?_⟩
      obtain ⟨better, other, -, more | ⟨same, early⟩⟩ := beaten found member away
      · have most : staticCount better ≤ staticCount found := List.le_of_mem_argmax other best
        exact absurd more most.not_gt
      · exact absurd early (List.index_of_argmax best other same.le).not_gt
    constructor
    · intro found best
      have candidate := mem_candidates_iff.1 (sound found best).1
      exact ⟨candidate.1, candidate.2.1, (sound found best).2⟩
    · intro webhook member serves matched
      rw [Option.isSome_iff_ne_none, findDynamicWebhook_eq, ne_eq, List.argmax_eq_none]
      exact List.ne_nil_of_mem (mem_candidates_of_matches member serves matched)
    · intro found best webhook member serves matched
      rw [findDynamicWebhook_eq] at best
      exact List.le_of_mem_argmax (f := staticCount) (mem_candidates_of_matches member serves matched) best

/-- `GET` webhook `user/:id` of the webhook id `uuid`. -/
def userRoute : DynamicWebhook where
  workflowId := "1"
  webhookPath := "user/:id"
  method := .GET
  node := "Webhook"
  webhookId := some "uuid"
  pathLength := 2
  registered := by decide

/-- The request has the static segment in the place of the parameter. -/
theorem userRoute_not_respectsPositions :
    ¬ RespectsPositions [userRoute] "uuid/profile/user" (some .GET) := by
  intro respects
  exact absurd (respects.sound userRoute (by decide)).2.2 (by decide)

end NodeAutomation.DynamicWebhooks
