import NodeAutomation.Db.PublicationOutbox

/-! One record per state, exclusive claims, and no version lost, whatever operations the
consumers of the outbox interleave. -/

namespace NodeAutomation.PublicationOutbox

open Interleaving

variable {ω υ : Type} [DecidableEq ω]

def Status.IsActive (status : Status) : Prop := status = .pending ∨ status = .inProgress

/-- A workflow has at most one pending record, and at most one in progress. -/
def OnePerStatus (table : Table ω υ) : Prop :=
  ∀ id id' record record', table.get id = some record → table.get id' = some record' →
    record.workflowId = record'.workflowId → record.status = record'.status → record.status.IsActive → id = id'

/-- A claim made now returns no record whose workflow has one in progress under a live lease. -/
def ClaimsFree (leaseSeconds : Nat) (table : Table ω υ) : Prop :=
  ∀ now locked id record,
    (claimNextPendingRecord table leaseSeconds now locked).2 = .ok (some (id, record)) →
    ∀ other record', table.get other = some record' → record'.workflowId = record.workflowId →
      record'.status = .inProgress → record'.updatedAt + leaseSeconds * 1000 < now

/-- The record that the latest enqueue of a workflow has written, and its version, until the
record has been finished. -/
def awaits (workflowId : ω) (awaited : Option (Nat × υ)) : Event ω υ → Option (Nat × υ)
  | .enqueued id workflowId' publishedVersionId =>
    if workflowId' = workflowId then some (id, publishedVersionId) else awaited
  | .finished id => awaited.filter fun entry => entry.1 ≠ id

def awaited (log : List (Event ω υ)) (workflowId : ω) : Option (Nat × υ) :=
  log.foldl (awaits workflowId) none

def VersionsCarried (s : Shared ω υ) : Prop :=
  ∀ workflowId id publishedVersionId, awaited s.log workflowId = some (id, publishedVersionId) →
    ∃ record, s.table.get id = some record ∧ record.workflowId = workflowId ∧
      record.publishedVersionId = publishedVersionId ∧ record.status.IsActive

variable {table table' : Table ω υ} {id other now : Nat} {record record' : Record ω υ}
  {workflowId : ω} {publishedVersionId : υ} {log : List (Event ω υ)}

theorem awaited_concat (log : List (Event ω υ)) (event : Event ω υ) (workflowId : ω) :
    awaited (log ++ [event]) workflowId = awaits workflowId (awaited log workflowId) event := by
  rw [awaited, List.foldl_append]
  rfl

omit [DecidableEq ω] in
theorem activeWorkflowStatus_of_isActive (active : record.status.IsActive) :
    activeWorkflowStatus record = some (record.workflowId, record.status) := by
  rw [activeWorkflowStatus]
  cases active with
  | inl pending => rw [pending]
  | inr inProgress => rw [inProgress]

omit [DecidableEq ω] in
theorem isActive_of_activeWorkflowStatus {key : ω × Status} (covered : activeWorkflowStatus record = some key) :
    record.status.IsActive ∧ key = (record.workflowId, record.status) := by
  rw [activeWorkflowStatus] at covered
  split at covered
  case h_1 pending => exact ⟨.inl pending, (Option.some.inj covered).symm⟩
  case h_2 inProgress => exact ⟨.inr inProgress, (Option.some.inj covered).symm⟩
  all_goals exact absurd covered (by simp)

omit [DecidableEq ω] in
theorem onePerStatus (table : Table ω υ) : OnePerStatus table := by
  intro id id' record record' found found' sameWorkflow sameStatus active
  have covered' : activeWorkflowStatus record' = some (record.workflowId, record.status) := by
    rw [activeWorkflowStatus_of_isActive (sameStatus ▸ active), sameWorkflow, sameStatus]
  exact IndexedTable.unique_get found found' (activeWorkflowStatus_of_isActive active) covered'

omit [DecidableEq ω] in
theorem free_iff (active : record.status.IsActive) :
    table.Free id record ↔ ∀ other record', table.get other = some record' → other ≠ id →
      record'.workflowId = record.workflowId → record'.status ≠ record.status := by
  refine ⟨fun free other record' found apart sameWorkflow sameStatus => ?_, fun h key covers taken => ?_⟩
  · refine free _ (activeWorkflowStatus_of_isActive active) (IndexedTable.taken_iff.2 ⟨other, record', found, apart, ?_⟩)
    rw [activeWorkflowStatus_of_isActive (sameStatus ▸ active), sameWorkflow, sameStatus]
  · obtain ⟨other, record', found, apart, covered⟩ := IndexedTable.taken_iff.1 taken
    have key' := (isActive_of_activeWorkflowStatus covers).2
    have same := (isActive_of_activeWorkflowStatus covered).2
    rw [key', Prod.mk.injEq] at same
    exact h other record' found apart same.1.symm same.2.symm

omit [DecidableEq ω] in
theorem claimable_iff {leaseSeconds : Nat} : claimable table leaseSeconds now record ↔
    (record.status = .pending ∧ ∀ other record', table.get other = some record' →
      record'.workflowId = record.workflowId → record'.status ≠ .inProgress) ∨
    (record.status = .inProgress ∧ record.updatedAt + leaseSeconds * 1000 < now) := by
  refine or_congr (and_congr_right fun _ => ⟨fun h other record' found same inProgress => ?_, fun h exist => ?_⟩) Iff.rfl
  · exact h ⟨(other, record'), (table.rows.get_eq_some_iff _ _).1 found, same, inProgress⟩
  · obtain ⟨entry, member, same, inProgress⟩ := exist
    exact h entry.1 entry.2 ((table.rows.get_eq_some_iff _ _).2 member) same inProgress

theorem nextClaimable_spec {leaseSeconds : Nat} {locked : List Nat} {entry : Nat × Record ω υ}
    (chosen : nextClaimable table leaseSeconds now locked = some entry) :
    table.get entry.1 = some entry.2 ∧ claimable table leaseSeconds now entry.2 := by
  have member := List.argmin_mem (Option.mem_def.2 chosen)
  rw [List.mem_filter] at member
  refine ⟨(table.rows.get_eq_some_iff _ _).2 member.1, ?_⟩
  exact (of_decide_eq_true member.2).2

omit [DecidableEq ω] in
theorem claim_free {leaseSeconds : Nat} (found : table.get id = some record)
    (may : claimable table leaseSeconds now record) :
    table.Free id { record with status := .inProgress, updatedAt := now } := by
  rw [free_iff (.inr rfl)]
  intro other record' known apart same inProgress
  cases claimable_iff.1 may with
  | inl pending => exact pending.2 other record' known same inProgress
  | inr expired =>
    exact apart (onePerStatus table other id record' record known found same
      (inProgress.trans expired.1.symm) (.inr inProgress))

theorem claim_cases (table : Table ω υ) (leaseSeconds now : Nat) (locked : List Nat) :
    claimNextPendingRecord table leaseSeconds now locked = (table, .ok none) ∨
      ∃ id record table', table.get id = some record ∧ claimable table leaseSeconds now record ∧
        claimNextPendingRecord table leaseSeconds now locked =
          (table', .ok (some (id, { record with status := .inProgress, updatedAt := now }))) ∧
        table.Puts table' id { record with status := .inProgress, updatedAt := now } := by
  rw [claimNextPendingRecord]
  split
  case h_1 => exact .inl rfl
  case h_2 entry chosen =>
    obtain ⟨found, may⟩ := nextClaimable_spec chosen
    refine .inr ⟨entry.1, entry.2, ?_⟩
    cases table.update_cases entry.1 (fun _ => true) ({ · with status := .inProgress, updatedAt := now }) with
    | inl missing => exact absurd (missing.2 entry.2 found) (by simp)
    | inr h =>
      obtain ⟨record, known, -, outcome⟩ := h
      rw [found, Option.some.injEq] at known
      rw [← known] at outcome
      cases outcome with
      | inl done =>
        obtain ⟨table', updated, -, puts⟩ := done
        refine ⟨table', found, may, ?_, puts⟩
        simp only [updated, puts.self, Option.map_some]
      | inr refused => exact absurd (claim_free found may) refused.2

theorem updateInProgress_cases (table : Table ω υ) (now id : Nat) (status : Status) (errorMessage : Option String) :
    updateInProgress table now id status errorMessage = some (table, 0) ∨
      ∃ record, table.get id = some record ∧ record.status = .inProgress ∧
        ((∃ table', updateInProgress table now id status errorMessage = some (table', 1) ∧
            table.Free id { record with status, errorMessage, updatedAt := now } ∧
            table.Puts table' id { record with status, errorMessage, updatedAt := now }) ∨
          (updateInProgress table now id status errorMessage = none ∧
            ¬ table.Free id { record with status, errorMessage, updatedAt := now })) := by
  cases table.update_cases id (·.status = .inProgress) ({ · with status, errorMessage, updatedAt := now }) with
  | inl missing => exact .inl missing.1
  | inr h =>
    obtain ⟨record, found, passes, outcome⟩ := h
    exact .inr ⟨record, found, of_decide_eq_true passes, outcome⟩

structure Enqueues (table table' : Table ω υ) (id : Nat) (workflowId : ω) (publishedVersionId : υ)
    (record : Record ω υ) : Prop where
  puts : table.Puts table' id record
  workflow : record.workflowId = workflowId
  version : record.publishedVersionId = publishedVersionId
  status : record.status = .pending
  before : ∀ old, table.get id = some old → old.workflowId = workflowId ∧ old.status = .pending
  fresh : table.get id = none → id = table.sequence
  only : ∀ other record', table.get other = some record' → record'.workflowId = workflowId →
    record'.status = .pending → other = id

theorem enqueue_spec (table : Table ω υ) (now : Nat) (workflowId : ω) (publishedVersionId : υ) :
    ∃ record, Enqueues table (enqueue table now workflowId publishedVersionId).1
      (enqueue table now workflowId publishedVersionId).2 workflowId publishedVersionId record := by
  obtain ⟨record, puts, place⟩ := table.upsert_cases (workflowId, .pending)
    { workflowId, publishedVersionId, status := .pending, updatedAt := now }
    (fun record => { record with publishedVersionId, updatedAt := now }) rfl fun _ => rfl
  have only : ∀ other record', table.get other = some record' → record'.workflowId = workflowId →
      record'.status = .pending → other = (enqueue table now workflowId publishedVersionId).2 := by
    intro other record' found same pending
    refine IndexedTable.eq_upsert found ?_
    rw [activeWorkflowStatus_of_isActive (.inl pending), same, pending]
  refine ⟨record, ?_⟩
  cases place with
  | inl held =>
    obtain ⟨old, found, covered, same⟩ := held
    have key := (isActive_of_activeWorkflowStatus covered).2
    rw [Prod.mk.injEq] at key
    rw [same] at puts ⊢
    refine ⟨puts, key.1.symm, rfl, key.2.symm, fun old' found' => ?_, fun absent => ?_, only⟩
    · rw [← Option.some.inj (found.symm.trans found')]
      exact ⟨key.1.symm, key.2.symm⟩
    · exact absurd (found.symm.trans absent) (by simp)
  | inr new =>
    rw [new.2] at puts ⊢
    refine ⟨puts, rfl, rfl, rfl, fun old found => ?_, fun _ => new.1, only⟩
    rw [enqueue, new.1, IndexedTable.get_sequence] at found
    exact absurd found (by simp)

/-- A workflow whose latest enqueue is finished has no active record. Otherwise its record is
active and carries the version, and no other one is pending. -/
def Awaits (table : Table ω υ) (workflowId : ω) : Option (Nat × υ) → Prop
  | none => ∀ id record, table.get id = some record → record.workflowId = workflowId → ¬ record.status.IsActive
  | some (id, publishedVersionId) =>
    (∃ record, table.get id = some record ∧ record.workflowId = workflowId ∧
      record.publishedVersionId = publishedVersionId ∧ record.status.IsActive) ∧
    ∀ other record', table.get other = some record' → record'.workflowId = workflowId →
      record'.status = .pending → other = id

def Sound (s : Shared ω υ) : Prop := ∀ workflowId, Awaits s.table workflowId (awaited s.log workflowId)

omit [DecidableEq ω] in
theorem Awaits.congr {entry : Option (Nat × υ)} (h : Awaits table workflowId entry)
    (keeps : ∀ id record, record.workflowId = workflowId →
      (table'.get id = some record ↔ table.get id = some record)) : Awaits table' workflowId entry := by
  cases entry with
  | none =>
    intro id record found same
    exact h id record ((keeps id record same).1 found) same
  | some entry =>
    refine ⟨?_, fun other record' found same => h.2 other record' ((keeps other record' same).1 found) same⟩
    obtain ⟨record, found, same, rest⟩ := h.1
    exact ⟨record, (keeps entry.1 record same).2 found, same, rest⟩

omit [DecidableEq ω] in
theorem Awaits.puts_other {entry : Option (Nat × υ)} (h : Awaits table workflowId entry)
    (puts : table.Puts table' id record) (apart : record.workflowId ≠ workflowId)
    (before : ∀ old, table.get id = some old → old.workflowId ≠ workflowId) :
    Awaits table' workflowId entry := by
  refine h.congr fun other known same => ?_
  by_cases here : other = id
  · rw [here, puts.self]
    refine ⟨fun found => ?_, fun found => ?_⟩
    · rw [← Option.some.inj found] at same
      exact absurd same apart
    · exact absurd same (before known found)
  · rw [puts.of_ne here]

omit [DecidableEq ω] in
theorem Awaits.restatus {entry : Option (Nat × υ)} {old : Record ω υ} (h : Awaits table workflowId entry)
    (found : table.get id = some old) (active : old.status.IsActive) (puts : table.Puts table' id record)
    (sameWorkflow : record.workflowId = old.workflowId)
    (sameVersion : record.publishedVersionId = old.publishedVersionId) (active' : record.status.IsActive)
    (alone : record.status = .pending → ∀ other record', table.get other = some record' →
      record'.workflowId = old.workflowId → record'.status ≠ .pending) :
    Awaits table' workflowId entry := by
  by_cases concerned : old.workflowId = workflowId
  · cases entry with
    | none => exact absurd active (h id old found concerned)
    | some entry =>
      obtain ⟨carrier, known, ofWorkflow, version, carries⟩ := h.1
      refine ⟨?_, fun other record' known' ofWorkflow' pending => ?_⟩
      · by_cases here : entry.1 = id
        · rw [here, found, Option.some.injEq] at known
          exact ⟨record, here ▸ puts.self, sameWorkflow.trans concerned, by rw [sameVersion, known, version],
            active'⟩
        · exact ⟨carrier, (puts.of_ne here).trans known, ofWorkflow, version, carries⟩
      · by_cases here : other = id
        · -- the record that has become pending is the only active one of its workflow
          rw [here, puts.self, Option.some.injEq] at known'
          rw [← known'] at pending
          have oldInProgress : old.status = .inProgress := active.resolve_left (alone pending id old found rfl)
          have carrierInProgress : carrier.status = .inProgress :=
            carries.resolve_left (alone pending entry.1 carrier known (ofWorkflow.trans concerned.symm))
          rw [here]
          exact onePerStatus table id entry.1 old carrier found known (concerned.trans ofWorkflow.symm)
            (oldInProgress.trans carrierInProgress.symm) active
        · rw [puts.of_ne here] at known'
          exact h.2 other record' known' ofWorkflow' pending
  · refine h.puts_other puts (sameWorkflow ▸ concerned) fun old' known => ?_
    rw [found, Option.some.injEq] at known
    exact known ▸ concerned

omit [DecidableEq ω] in
theorem Awaits.finish {entry : Option (Nat × υ)} {old : Record ω υ} (h : Awaits table workflowId entry)
    (found : table.get id = some old) (inProgress : old.status = .inProgress)
    (puts : table.Puts table' id record) (finished : ¬ record.status.IsActive) :
    Awaits table' workflowId (entry.filter fun entry => entry.1 ≠ id) := by
  cases entry with
  | none =>
    intro other record' known ofWorkflow
    by_cases here : other = id
    · rw [here, puts.self, Option.some.injEq] at known
      exact known ▸ finished
    · exact h other record' ((puts.of_ne here).symm.trans known) ofWorkflow
  | some entry =>
    obtain ⟨carrier, known, ofWorkflow, version, carries⟩ := h.1
    by_cases here : entry.1 = id
    · rw [Option.filter_some, if_neg (by simpa using here)]
      rw [here, found, Option.some.injEq] at known
      intro other record' known' ofWorkflow' active
      by_cases own : other = id
      · rw [own, puts.self, Option.some.injEq] at known'
        exact finished (known' ▸ active)
      · rw [puts.of_ne own] at known'
        cases active with
        | inl pending => exact own ((h.2 other record' known' ofWorkflow' pending).trans here)
        | inr inProgress' =>
          exact own (onePerStatus table other id record' old known' found
            (ofWorkflow'.trans (known ▸ ofWorkflow).symm) (inProgress'.trans inProgress.symm) (.inr inProgress'))
    · rw [Option.filter_some, if_pos (by simpa using here)]
      refine ⟨⟨carrier, (puts.of_ne here).trans known, ofWorkflow, version, carries⟩, ?_⟩
      intro other record' known' ofWorkflow' pending
      by_cases own : other = id
      · rw [own, puts.self, Option.some.injEq] at known'
        exact absurd (Or.inl (known' ▸ pending)) finished
      · exact h.2 other record' ((puts.of_ne own).symm.trans known') ofWorkflow' pending

omit [DecidableEq ω] in
theorem Awaits.sublist {entry : Option (Nat × υ)} (h : Awaits table workflowId entry)
    (fewer : ∀ id record, table'.get id = some record → table.get id = some record)
    (kept : ∀ entry' ∈ entry, ∀ record, table.get entry'.1 = some record → record.workflowId = workflowId →
      record.status.IsActive → table'.get entry'.1 = some record) : Awaits table' workflowId entry := by
  cases entry with
  | none =>
    intro id record found
    exact h id record (fewer id record found)
  | some entry =>
    refine ⟨?_, fun other record' found => h.2 other record' (fewer other record' found)⟩
    obtain ⟨record, found, same, version, active⟩ := h.1
    exact ⟨record, kept entry rfl record found same active, same, version, active⟩

theorem Sound.enqueue {s : Shared ω υ} (sound : Sound s) (now : Nat) (workflowId : ω) (publishedVersionId : υ) :
    Sound (s.enqueue now workflowId publishedVersionId) := by
  intro workflowId'
  rw [Shared.enqueue, awaited_concat]
  obtain ⟨record, enqueues⟩ := enqueue_spec s.table now workflowId publishedVersionId
  rw [awaits]
  by_cases same : workflowId = workflowId'
  · rw [if_pos same]
    refine ⟨⟨record, enqueues.puts.self, enqueues.workflow.trans same, enqueues.version, .inl enqueues.status⟩, ?_⟩
    intro other record' found ofWorkflow pending
    by_contra apart
    rw [enqueues.puts.of_ne apart] at found
    exact apart (enqueues.only other record' found (ofWorkflow.trans same.symm) pending)
  · rw [if_neg same]
    refine (sound workflowId').puts_other enqueues.puts (enqueues.workflow ▸ same) fun old found => ?_
    exact (enqueues.before old found).1 ▸ same

/-- Such a record, while it is in progress, has been superseded by a pending one. -/
def Superseded (table : Table ω υ) (id : Nat) : Prop :=
  id < table.sequence ∧ ∀ record, table.get id = some record →
    record.status ≠ .pending ∧ (record.status = .inProgress →
      ∃ other pending, table.get other = some pending ∧ pending.workflowId = record.workflowId ∧
        pending.status = .pending)

omit [DecidableEq ω] in
theorem Superseded.congr (h : Superseded table id) (grows : table.sequence ≤ table'.sequence)
    (fewer : ∀ record, table'.get id = some record → table.get id = some record)
    (kept : ∀ record, table.get id = some record → record.status = .inProgress →
      ∀ other pending, table.get other = some pending → pending.workflowId = record.workflowId →
        pending.status = .pending → ∃ pending', table'.get other = some pending' ∧
          pending'.workflowId = record.workflowId ∧ pending'.status = .pending) :
    Superseded table' id := by
  refine ⟨Nat.lt_of_lt_of_le h.1 grows, fun record found' => ?_⟩
  have found := fewer record found'
  refine ⟨(h.2 record found).1, fun inProgress => ?_⟩
  obtain ⟨other, pending, known, same, isPending⟩ := (h.2 record found).2 inProgress
  obtain ⟨pending', known'⟩ := kept record found inProgress other pending known same isPending
  exact ⟨other, pending', known'⟩

theorem Superseded.enqueue (h : Superseded table id) (now : Nat) (workflowId : ω) (publishedVersionId : υ) :
    Superseded (enqueue table now workflowId publishedVersionId).1 id := by
  obtain ⟨record, enqueues⟩ := enqueue_spec table now workflowId publishedVersionId
  have apart : id ≠ (PublicationOutbox.enqueue table now workflowId publishedVersionId).2 := by
    intro here
    rw [here] at h
    cases place : table.get (PublicationOutbox.enqueue table now workflowId publishedVersionId).2 with
    | none => exact Nat.ne_of_lt h.1 (enqueues.fresh place)
    | some old => exact (h.2 old place).1 (enqueues.before old place).2
  refine h.congr enqueues.puts.sequence (fun record' found => ?_) ?_
  · rwa [enqueues.puts.of_ne apart] at found
  · intro record' found inProgress other pending known same isPending
    by_cases here : other = (PublicationOutbox.enqueue table now workflowId publishedVersionId).2
    · rw [here] at known ⊢
      refine ⟨record, enqueues.puts.self, ?_, enqueues.status⟩
      rw [enqueues.workflow, ← same, (enqueues.before pending known).1]
    · exact ⟨pending, (enqueues.puts.of_ne here).trans known, same, isPending⟩

omit [DecidableEq ω] in
theorem Superseded.puts {place : Nat} {old : Record ω υ} (h : Superseded table id)
    (found : table.get place = some old) (puts : table.Puts table' place record)
    (sameWorkflow : record.workflowId = old.workflowId)
    (notReopened : place = id → record.status ≠ .pending ∧ (record.status = .inProgress → old.status = .inProgress))
    (alone : old.status = .pending → ∀ other record', table.get other = some record' →
      record'.workflowId = old.workflowId → record'.status ≠ .inProgress) : Superseded table' id := by
  by_cases here : place = id
  · rw [here] at found puts
    refine ⟨Nat.lt_of_lt_of_le h.1 puts.sequence, fun record' found' => ?_⟩
    rw [puts.self, Option.some.injEq] at found'
    rw [← found']
    refine ⟨(notReopened here).1, fun inProgress => ?_⟩
    have oldInProgress := (notReopened here).2 inProgress
    obtain ⟨other, pending, known, same, isPending⟩ := (h.2 old found).2 oldInProgress
    refine ⟨other, pending, (puts.of_ne fun own => ?_).trans known, same.trans sameWorkflow.symm, isPending⟩
    rw [own, found, Option.some.injEq] at known
    rw [known, isPending] at oldInProgress
    exact absurd oldInProgress (by decide)
  · refine h.congr puts.sequence (fun record' found' => ?_) ?_
    · rwa [puts.of_ne (Ne.symm here)] at found'
    · intro record' found' inProgress other pending known same isPending
      refine ⟨pending, (puts.of_ne fun own => ?_).trans known, same, isPending⟩
      rw [own, found, Option.some.injEq] at known
      rw [← known] at same isPending
      exact alone isPending id record' found' same.symm inProgress

omit [DecidableEq ω] in
theorem Superseded.sublist (h : Superseded table id) (grows : table.sequence ≤ table'.sequence)
    (fewer : ∀ other record, table'.get other = some record → table.get other = some record)
    (kept : ∀ other record, table.get other = some record → record.status = .pending → table'.get other = some record) :
    Superseded table' id :=
  h.congr grows (fewer id) fun _ _ _ other pending known same isPending =>
    ⟨pending, kept other pending known isPending, same, isPending⟩

def StageSound (s : Shared ω υ) (_ : Nat) : Stage ω υ → Prop
  | .superseded id => Superseded s.table id
  | .issued _ | .returned _ => True

variable {s : Shared ω υ} {leaseSeconds : Nat}

theorem enqueueAll_sound (sound : Sound s) (now : Nat) : Sound (s.enqueueAllActiveWorkflows now) := by
  rw [Shared.enqueueAllActiveWorkflows]
  generalize s.workflows = workflows
  induction workflows generalizing s with
  | nil => exact sound
  | cons workflow workflows ih =>
    rw [List.foldl_cons]
    refine ih ?_
    split
    · exact sound.enqueue now _ _
    · exact sound

theorem Superseded.enqueueAll (h : Superseded s.table id) (now : Nat) :
    Superseded (s.enqueueAllActiveWorkflows now).table id := by
  rw [Shared.enqueueAllActiveWorkflows]
  generalize s.workflows = workflows
  induction workflows generalizing s with
  | nil => exact h
  | cons workflow workflows ih =>
    rw [List.foldl_cons]
    refine ih ?_
    split
    · exact h.enqueue now _ _
    · exact h

omit [DecidableEq ω] in
theorem free_of_not_isActive (ended : ¬ record.status.IsActive) : table.Free id record :=
  fun _ covers => absurd (isActive_of_activeWorkflowStatus covers).1 ended

variable (table id now) in
theorem mark_spec {target : Status} (ended : ¬ target.IsActive) (errorMessage : Option String) :
    (∃ failure, mark table now id target errorMessage = (table, .error failure)) ∨
      ∃ old table', table.get id = some old ∧ old.status = .inProgress ∧
        table.Puts table' id { old with status := target, errorMessage, updatedAt := now } ∧
        mark table now id target errorMessage = (table', .ok ()) := by
  rw [mark]
  cases updateInProgress_cases table now id target errorMessage with
  | inl missing =>
    rw [missing]
    exact .inl ⟨_, rfl⟩
  | inr h =>
    obtain ⟨old, found, inProgress, outcome⟩ := h
    cases outcome with
    | inl done =>
      obtain ⟨table', updated, -, puts⟩ := done
      refine .inr ⟨old, table', found, inProgress, puts, ?_⟩
      rw [updated]
      rfl
    | inr refused => exact absurd (free_of_not_isActive ended) refused.2

theorem mark_cases (s : Shared ω υ) (now id : Nat) (outcome : Outcome) :
    (s.mark now id outcome).1 = s ∨
      ∃ old record table', s.table.get id = some old ∧ old.status = .inProgress ∧
        s.table.Puts table' id record ∧ record.workflowId = old.workflowId ∧ ¬ record.status.IsActive ∧
        (s.mark now id outcome).1 = { s with table := table', log := s.log ++ [.finished id] } := by
  have marked : ∃ target errorMessage, ¬ target.IsActive ∧
      markAs s.table now id outcome = mark s.table now id target errorMessage := by
    cases outcome with
    | completed => exact ⟨.completed, none, by simp [Status.IsActive], rfl⟩
    | failed errorMessage => exact ⟨.failed, some errorMessage, by simp [Status.IsActive], rfl⟩
    | partialSuccess errorMessage => exact ⟨.partialSuccess, some errorMessage, by simp [Status.IsActive], rfl⟩
  obtain ⟨target, errorMessage, ended, same⟩ := marked
  rw [Shared.mark, same]
  cases mark_spec s.table id now ended errorMessage with
  | inl refused =>
    obtain ⟨failure, refused⟩ := refused
    rw [refused]
    exact .inl rfl
  | inr done =>
    obtain ⟨old, table', found, inProgress, puts, done⟩ := done
    rw [done]
    exact .inr ⟨old, _, table', found, inProgress, puts, rfl, ended, rfl⟩

omit [DecidableEq ω] in
theorem get_deleteInProgress {other : Nat} {record : Record ω υ} :
    (deleteInProgress table id).get other = some record ↔
      table.get other = some record ∧ ¬ (other = id ∧ record.status = .inProgress) := by
  rw [deleteInProgress, IndexedTable.get_deleteWhere]
  simp

omit [DecidableEq ω] in
theorem not_terminal {completedRetentionSeconds failedRetentionSeconds : Nat} (active : record.status.IsActive) :
    ¬ record.terminalOlderThan now completedRetentionSeconds failedRetentionSeconds := by
  intro terminal
  cases terminal with
  | inl completed => exact absurd active (by simp [Status.IsActive, completed.1])
  | inr failed =>
    cases failed.1 with
    | inl failed => exact absurd active (by simp [Status.IsActive, failed])
    | inr failed => exact absurd active (by simp [Status.IsActive, failed])

omit [DecidableEq ω] in
theorem get_deleteTerminalOlderThan {completedRetentionSeconds failedRetentionSeconds batchSize : Nat}
    {picked : List Nat} {other : Nat} {record : Record ω υ} (active : record.status.IsActive)
    (found : table.get other = some record) :
    (deleteTerminalOlderThan table now completedRetentionSeconds failedRetentionSeconds batchSize picked).get other =
      some record := by
  rw [deleteTerminalOlderThan, IndexedTable.get_deleteWhere]
  refine ⟨found, ?_⟩
  rw [decide_eq_false (not_terminal active), Bool.and_false]

theorem returnToPending_cases (table : Table ω υ) (now id : Nat) :
    updateInProgress table now id .pending none = some (table, 0) ∨
      (∃ old table', table.get id = some old ∧ old.status = .inProgress ∧
        updateInProgress table now id .pending none = some (table', 1) ∧
        table.Puts table' id { old with status := .pending, errorMessage := none, updatedAt := now } ∧
        ∀ other record', table.get other = some record' → record'.workflowId = old.workflowId →
          record'.status ≠ .pending) ∨
      (updateInProgress table now id .pending none = none ∧ Superseded table id) := by
  cases updateInProgress_cases table now id .pending none with
  | inl missing => exact .inl missing
  | inr h =>
    obtain ⟨old, found, inProgress, outcome⟩ := h
    cases outcome with
    | inl done =>
      obtain ⟨table', updated, free, puts⟩ := done
      refine .inr (.inl ⟨old, table', found, inProgress, updated, puts, ?_⟩)
      intro other record' known same pending
      by_cases own : other = id
      · rw [own, found, Option.some.injEq] at known
        rw [known, pending] at inProgress
        exact absurd inProgress (by decide)
      · exact (free_iff (.inl rfl)).1 free other record' known own same pending
    | inr refused =>
      refine .inr (.inr ⟨refused.1, table.below id old found, fun record' known => ?_⟩)
      rw [found, Option.some.injEq] at known
      rw [← known, inProgress]
      refine ⟨by decide, fun _ => ?_⟩
      by_contra none
      refine refused.2 ((free_iff (.inl rfl)).2 fun other pending known' _ same isPending => ?_)
      exact none ⟨other, pending, known', same, isPending⟩

theorem execute_sound (sound : Sound s) (leaseSeconds now : Nat) (locked picked : List Nat)
    (operation : Operation ω υ) : Sound (execute leaseSeconds s now locked picked operation).1 := by
  cases operation with
  | enqueue workflowId publishedVersionId => exact sound.enqueue now workflowId publishedVersionId
  | enqueueAllActiveWorkflows => exact enqueueAll_sound sound now
  | claimNextPendingRecord =>
    rw [execute]
    cases claim_cases s.table leaseSeconds now locked with
    | inl nothing =>
      rw [nothing]
      exact sound
    | inr claimed =>
      obtain ⟨id, old, table', found, may, result, puts⟩ := claimed
      have active : old.status.IsActive := (claimable_iff.1 may).imp And.left And.left
      rw [result]
      exact fun workflowId => (sound workflowId).restatus found active puts rfl rfl (.inr rfl)
        fun pending => absurd pending (by simp)
  | returnToPending id =>
    rw [execute]
    cases returnToPending_cases s.table now id with
    | inl missing =>
      rw [missing]
      exact sound
    | inr h =>
      cases h with
      | inl returned =>
        obtain ⟨old, table', found, inProgress, result, puts, alone⟩ := returned
        rw [result]
        exact fun workflowId => (sound workflowId).restatus found (.inr inProgress) puts rfl rfl (.inl rfl)
          fun _ => alone
      | inr superseded =>
        rw [superseded.1]
        exact sound
  | mark id outcome =>
    rw [execute]
    cases mark_cases s now id outcome with
    | inl refused =>
      rw [refused]
      exact sound
    | inr marked =>
      obtain ⟨old, record, table', found, inProgress, puts, -, ended, result⟩ := marked
      rw [result]
      intro workflowId
      rw [awaited_concat]
      exact (sound workflowId).finish found inProgress puts ended
  | deleteTerminalOlderThan completedRetentionSeconds failedRetentionSeconds batchSize =>
    intro workflowId
    refine (sound workflowId).sublist (fun id record found => ?_) fun entry _ record found _ active => ?_
    · exact (IndexedTable.get_deleteWhere.1 found).1
    · exact get_deleteTerminalOlderThan active found

theorem Superseded.execute (h : Superseded s.table id) (leaseSeconds now : Nat) (locked picked : List Nat)
    (operation : Operation ω υ) :
    Superseded (PublicationOutbox.execute leaseSeconds s now locked picked operation).1.table id := by
  cases operation with
  | enqueue workflowId publishedVersionId => exact h.enqueue now workflowId publishedVersionId
  | enqueueAllActiveWorkflows => exact h.enqueueAll now
  | claimNextPendingRecord =>
    rw [PublicationOutbox.execute]
    cases claim_cases s.table leaseSeconds now locked with
    | inl nothing =>
      rw [nothing]
      exact h
    | inr claimed =>
      obtain ⟨place, old, table', found, may, result, puts⟩ := claimed
      rw [result]
      refine h.puts found puts rfl (fun own => ⟨by simp, fun _ => ?_⟩) fun pending => ?_
      · cases claimable_iff.1 may with
        | inl pending => exact absurd pending.1 (h.2 old (own ▸ found)).1
        | inr expired => exact expired.1
      · cases claimable_iff.1 may with
        | inl free => exact free.2
        | inr expired => exact absurd (pending.symm.trans expired.1) (by decide)
  | returnToPending place =>
    rw [PublicationOutbox.execute]
    cases returnToPending_cases s.table now place with
    | inl missing =>
      rw [missing]
      exact h
    | inr cases' =>
      cases cases' with
      | inl returned =>
        obtain ⟨old, table', found, inProgress, result, puts, alone⟩ := returned
        rw [result]
        refine h.puts found puts rfl (fun own => ?_) fun pending => absurd (pending.symm.trans inProgress) (by decide)
        obtain ⟨other, pending, known, same, isPending⟩ := (h.2 old (own ▸ found)).2 inProgress
        exact absurd isPending (alone other pending known same)
      | inr superseded =>
        rw [superseded.1]
        exact h
  | mark place outcome =>
    rw [PublicationOutbox.execute]
    cases mark_cases s now place outcome with
    | inl refused =>
      rw [refused]
      exact h
    | inr marked =>
      obtain ⟨old, record, table', found, inProgress, puts, same, ended, result⟩ := marked
      rw [result]
      refine h.puts found puts same (fun _ => ⟨fun pending => ended (.inl pending), fun _ => inProgress⟩)
        fun pending => absurd (pending.symm.trans inProgress) (by decide)
  | deleteTerminalOlderThan completedRetentionSeconds failedRetentionSeconds batchSize =>
    refine h.sublist (Nat.le_refl _) (fun other record found => ?_) fun other record found pending => ?_
    · exact (IndexedTable.get_deleteWhere.1 found).1
    · exact get_deleteTerminalOlderThan (.inl pending) found

theorem execute_stage (leaseSeconds : Nat) (s : Shared ω υ) (now : Nat) (locked picked : List Nat)
    (operation : Operation ω υ) (number : Nat) :
    StageSound (execute leaseSeconds s now locked picked operation).1 number
      (execute leaseSeconds s now locked picked operation).2 := by
  cases operation with
  | returnToPending id =>
    rw [execute]
    cases returnToPending_cases s.table now id with
    | inl missing =>
      rw [missing]
      trivial
    | inr h =>
      cases h with
      | inl returned =>
        obtain ⟨old, table', -, -, result, -⟩ := returned
        rw [result]
        trivial
      | inr superseded =>
        rw [superseded.1]
        exact superseded.2
  | _ => trivial

theorem deleteInProgress_sound (sound : Sound s) (superseded : Superseded s.table id) :
    Sound { s with table := deleteInProgress s.table id } := by
  intro workflowId
  have awaitsHere := sound workflowId
  revert awaitsHere
  cases awaited s.log workflowId with
  | none => exact fun h => h.sublist (fun other record found => (get_deleteInProgress.1 found).1) (by simp)
  | some entry =>
    intro h
    refine h.sublist (fun other record found => (get_deleteInProgress.1 found).1) ?_
    intro entry' member record found same active
    rw [← Option.some.inj member] at found ⊢
    refine get_deleteInProgress.2 ⟨found, fun own => ?_⟩
    -- a pending record of the workflow is the awaited one, which is not in progress
    obtain ⟨other, pending, known, same', isPending⟩ := (superseded.2 record (own.1 ▸ found)).2 own.2
    rw [h.2 other pending known (same'.trans same) isPending, found, Option.some.injEq] at known
    rw [known, isPending] at own
    exact absurd own.2 (by decide)

theorem Superseded.deleteInProgress {place : Nat} (h : Superseded s.table id) :
    Superseded (deleteInProgress s.table place) id :=
  h.sublist (Nat.le_refl _) (fun other record found => (get_deleteInProgress.1 found).1)
    fun other record found pending => get_deleteInProgress.2 ⟨found, fun own => by
      rw [pending] at own
      exact absurd own.2 (by decide)⟩

theorem proceed_sound (sound : Sound s) (number : Nat) {stage : Stage ω υ} (here : StageSound s number stage)
    (reply : Reply) :
    Sound (proceed leaseSeconds s number stage reply).1 ∧
      StageSound (proceed leaseSeconds s number stage reply).1 number
        (proceed leaseSeconds s number stage reply).2 := by
  cases stage with
  | returned result => exact ⟨sound, trivial⟩
  | issued operation =>
    cases reply with
    | failed => exact ⟨sound, trivial⟩
    | executed now locked picked answered =>
      refine ⟨execute_sound sound leaseSeconds now locked picked operation, ?_⟩
      rw [proceed]
      split
      · exact execute_stage leaseSeconds s now locked picked operation number
      · trivial
  | superseded id =>
    cases reply with
    | failed => exact ⟨sound, trivial⟩
    | executed now locked picked answered => exact ⟨deleteInProgress_sound sound here, trivial⟩

theorem proceed_other (number other : Nat) (stage : Stage ω υ) (reply : Reply) {otherStage : Stage ω υ}
    (there : StageSound s other otherStage) :
    StageSound (proceed leaseSeconds s number stage reply).1 other otherStage := by
  cases otherStage with
  | superseded id =>
    cases stage with
    | returned result => exact there
    | issued operation =>
      cases reply with
      | failed => exact there
      | executed now locked picked answered =>
        exact Superseded.execute there leaseSeconds now locked picked operation
    | superseded place =>
      cases reply with
      | failed => exact there
      | executed now locked picked answered => exact Superseded.deleteInProgress there
  | issued operation => trivial
  | returned result => trivial

theorem keeps_sound (leaseSeconds : Nat) :
    Keeps (system leaseSeconds : System (Shared ω υ) _ _ _ _) (fun s _ => Sound s) StageSound where
  invoke s made operation sound := ⟨sound, trivial⟩
  invoke_other s made operation other otherStage _ _ there := there
  proceed s made number stage reply sound _ here := proceed_sound sound number here reply
  proceed_other s made number stage reply other otherStage _ _ _ there := proceed_other number other stage reply there
  environment s made event sound := sound
  environment_call s made event number stage _ here := by
    cases stage with
    | superseded id => exact here
    | issued operation => trivial
    | returned result => trivial

theorem claimsFree (leaseSeconds : Nat) (table : Table ω υ) : ClaimsFree leaseSeconds table := by
  intro now locked id record claimed other record' found same inProgress
  cases claim_cases table leaseSeconds now locked with
  | inl nothing =>
    rw [nothing] at claimed
    exact absurd claimed (by simp)
  | inr h =>
    obtain ⟨place, old, table', known, may, result, -⟩ := h
    rw [result] at claimed
    have claimed' : (place, { old with status := .inProgress, updatedAt := now }) = (id, record) :=
      Option.some.inj (Except.ok.inj claimed)
    have ofWorkflow : record'.workflowId = old.workflowId :=
      same.trans (congrArg (·.2.workflowId) claimed').symm
    cases claimable_iff.1 may with
    | inl pending => exact absurd inProgress (pending.2 other record' found ofWorkflow)
    | inr expired =>
      have here : other = place :=
        onePerStatus table other place record' old found known ofWorkflow (inProgress.trans expired.1.symm) (.inr inProgress)
      rw [here, known, Option.some.injEq] at found
      exact found ▸ expired.2

theorem versionsCarried_of_sound (sound : Sound s) : VersionsCarried s := by
  intro workflowId id publishedVersionId latest
  have h := sound workflowId
  rw [latest] at h
  exact h.1

/-- Whatever the consumers do: one record per state, exclusive claims, and the version of the
latest enqueue in an active record until it is finished. -/
theorem outbox_run (leaseSeconds : Nat)
    (actions : List (Action (Operation ω υ) Reply (EnvironmentEvent ω υ))) :
    let s := ((system leaseSeconds).run { shared := {} } actions).shared
    OnePerStatus s.table ∧ ClaimsFree leaseSeconds s.table ∧ VersionsCarried s := by
  have initial : Holds (fun s _ => Sound s) StageSound
      ({ shared := {} } : Config (Shared ω υ) (Stage ω υ)) :=
    Holds.initial fun workflowId id record found => absurd found (by simp)
  have sound := (initial.run (keeps_sound leaseSeconds) actions).shared
  exact ⟨onePerStatus _, claimsFree leaseSeconds _, versionsCarried_of_sound sound⟩

end NodeAutomation.PublicationOutbox
