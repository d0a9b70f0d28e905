import NodeAutomation.Lib.Runs

/-! The queue behind the limit on concurrent executions
(`packages/cli/src/concurrency/concurrency-queue.ts`). One counter stands for the free
slots while it is positive, and for the queue while it is negative. -/

namespace NodeAutomation.Concurrency

/-- A queued execution; the promise that `resolve` settles is known by its number. -/
structure Item where
  executionId : String
  resolve : Nat
  deriving DecidableEq

structure ConcurrencyQueue where
  capacity : Int
  queue : List Item := []
  deriving DecidableEq

namespace ConcurrencyQueue

def has (q : ConcurrencyQueue) (executionId : String) : Bool :=
  q.queue.any fun item => item.executionId = executionId

def enqueue (q : ConcurrencyQueue) (executionId : String) (promise : Nat) : ConcurrencyQueue × Bool :=
  let capacity := q.capacity - 1
  if capacity < 0 then ({ capacity, queue := q.queue ++ [⟨executionId, promise⟩] }, false)
  else ({ q with capacity }, true)

def resolveNext (q : ConcurrencyQueue) : ConcurrencyQueue × Option Item :=
  match q.queue with
  | [] => (q, none)
  | item :: queue => ({ q with queue }, some item)

def dequeue (q : ConcurrencyQueue) : ConcurrencyQueue × Option Item :=
  resolveNext { q with capacity := q.capacity + 1 }

def remove (q : ConcurrencyQueue) (executionId : String) : ConcurrencyQueue × Option Item :=
  if q.has executionId then
    resolveNext
      { capacity := q.capacity + 1
        queue := q.queue.eraseP fun item => item.executionId = executionId }
  else (q, none)

end ConcurrencyQueue

/-- The queue, the executions that were admitted and neither released nor removed, those
that were removed and not released, and the promises settled in their order, of all that
were made. -/
structure State where
  queue : ConcurrencyQueue
  admitted : List String := []
  removed : List String := []
  settled : List Nat := []
  promises : Nat := 0
  deriving DecidableEq

inductive Action where
  | enqueue (executionId : String)
  /-- an execution that was admitted has finished -/
  | dequeue (executionId : String)
  | remove (executionId : String)

namespace State

def letThrough (s : State) : Option Item → State
  | none => s
  | some item =>
    { s with admitted := s.admitted ++ [item.executionId], settled := s.settled ++ [item.resolve] }

def enqueue (s : State) (executionId : String) : State :=
  let (queue, settled) := s.queue.enqueue executionId s.promises
  ({ s with queue, promises := s.promises + 1 } : State).letThrough
    (if settled then some ⟨executionId, s.promises⟩ else none)

def dequeue (s : State) : State :=
  let (queue, item) := s.queue.dequeue
  ({ s with queue } : State).letThrough item

def remove (s : State) (executionId : String) : State :=
  let (queue, item) := s.queue.remove executionId
  let s := if s.queue.has executionId || executionId ∉ s.admitted then s else
    { s with
      admitted := s.admitted.erase executionId
      removed := s.removed ++ [executionId] }
  ({ s with queue } : State).letThrough item

end State

def step (s : State) : Action → State
  | .enqueue executionId => s.enqueue executionId
  | .dequeue executionId =>
    if executionId ∈ s.admitted then
      ({ s with admitted := s.admitted.erase executionId } : State).dequeue
    else if executionId ∈ s.removed then
      ({ s with removed := s.removed.erase executionId } : State).dequeue
    else s
  | .remove executionId => s.remove executionId

def start (limit : Nat) : State := { queue := { capacity := limit } }

/-- At most `limit` executions are admitted, the counter says so, none waits while there
is a free slot, and promises are settled in the order in which they were made. -/
structure Limited (limit : Nat) (s : State) : Prop where
  few : s.admitted.length ≤ limit
  capacity : s.queue.capacity = limit - s.admitted.length - s.queue.queue.length
  prompt : s.queue.queue ≠ [] → limit ≤ s.admitted.length
  order : (s.settled ++ s.queue.queue.map Item.resolve).Pairwise (· < ·)

instance (limit : Nat) (s : State) : Decidable (Limited limit s) :=
  decidable_of_iff
    (s.admitted.length ≤ limit ∧ s.queue.capacity = limit - s.admitted.length - s.queue.queue.length ∧
      (s.queue.queue ≠ [] → limit ≤ s.admitted.length) ∧
      (s.settled ++ s.queue.queue.map Item.resolve).Pairwise (· < ·))
    ⟨fun ⟨few, capacity, prompt, order⟩ => ⟨few, capacity, prompt, order⟩,
      fun h => ⟨h.few, h.capacity, h.prompt, h.order⟩⟩

def RemovesAlone (s : State) : Action → Prop
  | .remove executionId =>
    if s.queue.has executionId then s.queue.queue.length = 1 else executionId ∉ s.admitted
  | _ => True

/-- What runs keep besides: nothing was removed while it ran, and promises are numbered in
the order in which they are made. -/
structure Orderly (limit : Nat) (s : State) : Prop where
  limited : Limited limit s
  removed : s.removed = []
  promises : ∀ promise ∈ s.settled ++ s.queue.queue.map Item.resolve, promise < s.promises

namespace Orderly

variable {limit : Nat} {s : State} {executionId : String}

section

variable (h : Orderly limit s)
include h

theorem order_concat :
    (s.settled ++ s.queue.queue.map Item.resolve ++ [s.promises]).Pairwise (· < ·) := by
  refine List.pairwise_append.2 ⟨h.limited.order, List.pairwise_singleton _ _, fun p member q last => ?_⟩
  rw [List.mem_singleton.1 last]
  exact h.promises p member

theorem lt_of_mem_concat (promise : Nat)
    (member : promise ∈ s.settled ++ s.queue.queue.map Item.resolve ++ [s.promises]) :
    promise < s.promises + 1 := by
  cases List.mem_append.1 member with
  | inl old => exact Nat.lt_succ_of_lt (h.promises promise old)
  | inr last =>
    rw [List.mem_singleton.1 last]
    exact Nat.lt_succ_self _

theorem enqueue (executionId : String) : Orderly limit (s.enqueue executionId) := by
  have few := h.limited.few
  have capacity := h.limited.capacity
  have prompt := h.limited.prompt
  by_cases full : s.queue.capacity - 1 < 0
  · have state : s.enqueue executionId = { s with
        queue := { capacity := s.queue.capacity - 1, queue := s.queue.queue ++ [⟨executionId, s.promises⟩] }
        promises := s.promises + 1 } := by
      simp [State.enqueue, ConcurrencyQueue.enqueue, full, State.letThrough]
    have numbers :
        s.settled ++ (s.queue.queue ++ [(⟨executionId, s.promises⟩ : Item)]).map Item.resolve =
        s.settled ++ s.queue.queue.map Item.resolve ++ [s.promises] := by simp
    rw [state]
    refine ⟨⟨few, ?_, fun _ => ?_, ?_⟩, h.removed, ?_⟩
    · simp only [List.length_append, List.length_singleton]
      omega
    · by_cases empty : s.queue.queue = []
      · rw [empty, List.length_nil] at capacity
        have room : limit ≤ s.admitted.length := by omega
        exact room
      · exact prompt empty
    · exact numbers ▸ h.order_concat
    · exact numbers ▸ h.lt_of_mem_concat
  · have state : s.enqueue executionId = { s with
        queue := { s.queue with capacity := s.queue.capacity - 1 }
        admitted := s.admitted ++ [executionId]
        settled := s.settled ++ [s.promises]
        promises := s.promises + 1 } := by
      simp [State.enqueue, ConcurrencyQueue.enqueue, full, State.letThrough]
    -- a free slot means that nobody waits
    have empty : s.queue.queue = [] := by
      refine Classical.byContradiction fun waiting => ?_
      have some := List.length_pos_iff.2 waiting
      have busy := prompt waiting
      omega
    have order := h.order_concat
    have bound := h.lt_of_mem_concat
    rw [empty, List.length_nil] at capacity
    rw [empty, List.map_nil, List.append_nil] at order bound
    rw [state]
    refine ⟨⟨?_, ?_, fun waiting => absurd empty waiting, ?_⟩, h.removed, ?_⟩
    · simp only [List.length_append, List.length_singleton]
      omega
    · simp only [List.length_append, List.length_singleton, empty, List.length_nil]
      omega
    · simp only [empty, List.map_nil, List.append_nil]
      exact order
    · simp only [empty, List.map_nil, List.append_nil]
      exact bound

theorem dequeue (member : executionId ∈ s.admitted) :
    Orderly limit ({ s with admitted := s.admitted.erase executionId } : State).dequeue := by
  have few := h.limited.few
  have capacity := h.limited.capacity
  have prompt := h.limited.prompt
  have order := h.limited.order
  have promises := h.promises
  have some := List.length_pos_of_mem member
  have erased := List.length_erase_of_mem member
  cases queue : s.queue.queue with
  | nil =>
    have state : ({ s with admitted := s.admitted.erase executionId } : State).dequeue = { s with
        queue := { s.queue with capacity := s.queue.capacity + 1 }
        admitted := s.admitted.erase executionId } := by
      simp [State.dequeue, ConcurrencyQueue.dequeue, ConcurrencyQueue.resolveNext, queue, State.letThrough]
    rw [queue, List.length_nil] at capacity
    rw [state]
    refine ⟨⟨?_, ?_, fun waiting => absurd queue waiting, order⟩, h.removed, promises⟩
    · simp only [erased]
      omega
    · simp only [erased, queue, List.length_nil]
      omega
  | cons item rest =>
    have state : ({ s with admitted := s.admitted.erase executionId } : State).dequeue = { s with
        queue := { capacity := s.queue.capacity + 1, queue := rest }
        admitted := s.admitted.erase executionId ++ [item.executionId]
        settled := s.settled ++ [item.resolve] } := by
      simp [State.dequeue, ConcurrencyQueue.dequeue, ConcurrencyQueue.resolveNext, queue, State.letThrough]
    have busy := prompt (by simp [queue])
    have numbers : s.settled ++ [item.resolve] ++ rest.map Item.resolve =
        s.settled ++ s.queue.queue.map Item.resolve := by simp [queue]
    rw [queue, List.length_cons] at capacity
    rw [state]
    refine ⟨⟨?_, ?_, fun _ => ?_, numbers ▸ order⟩, h.removed, numbers ▸ promises⟩
    · simp only [List.length_append, List.length_singleton, erased]
      omega
    · simp only [List.length_append, List.length_singleton, erased]
      omega
    · simp only [List.length_append, List.length_singleton, erased]
      omega

theorem remove (alone : RemovesAlone s (.remove executionId)) :
    Orderly limit (s.remove executionId) := by
  rw [RemovesAlone] at alone
  split at alone
  case isTrue queued =>
    obtain ⟨item, single⟩ := List.length_eq_one_iff.1 alone
    have its : item.executionId = executionId := by
      simpa [ConcurrencyQueue.has, single] using queued
    have state : s.remove executionId = { s with
        queue := { capacity := s.queue.capacity + 1, queue := [] } } := by
      simp [State.remove, ConcurrencyQueue.remove, ConcurrencyQueue.resolveNext, queued, single, its,
        State.letThrough]
    have capacity := h.limited.capacity
    have order := h.limited.order
    rw [alone] at capacity
    rw [state]
    refine ⟨⟨h.limited.few, ?_, fun waiting => absurd rfl waiting, ?_⟩, h.removed, ?_⟩
    · simp only [List.length_nil]
      omega
    · exact order.sublist (List.Sublist.append_left (List.nil_sublist _) s.settled)
    · exact fun promise member => h.promises promise (by simp at member; simp [member])
  case isFalse absent =>
    have state : s.remove executionId = s := by
      simp [State.remove, ConcurrencyQueue.remove, absent, alone, State.letThrough]
    rw [state]
    exact h

/-- Another removal admits one too many, or takes an execution out that holds its slot. -/
theorem not_limited_remove (alone : ¬ RemovesAlone s (.remove executionId)) :
    ¬ Limited limit (s.remove executionId) := by
  have few := h.limited.few
  have capacity := h.limited.capacity
  intro limited
  rw [RemovesAlone] at alone
  split at alone
  case isTrue queued =>
    have shorter : (s.queue.queue.eraseP fun item => item.executionId = executionId).length + 1 =
        s.queue.queue.length := by
      obtain ⟨item, member, _⟩ := List.any_eq_true.1 queued
      have some := List.length_pos_of_mem member
      rw [List.length_eraseP, if_pos (show s.queue.queue.any _ = true from queued)]
      omega
    cases rest : s.queue.queue.eraseP fun item => item.executionId = executionId with
    | nil => exact alone (by rw [← shorter, rest, List.length_nil])
    | cons item rest =>
      have admitted : (s.remove executionId).admitted = s.admitted ++ [item.executionId] := by
        simp [State.remove, ConcurrencyQueue.remove, ConcurrencyQueue.resolveNext, queued, rest,
          State.letThrough]
      have busy := h.limited.prompt (by intro empty; simp [empty] at shorter)
      have more := limited.few
      rw [admitted, List.length_append, List.length_singleton] at more
      omega
  case isFalse absent =>
    have member : executionId ∈ s.admitted := Classical.not_not.1 alone
    have some := List.length_pos_of_mem member
    have queue : (s.remove executionId).queue = s.queue := by
      simp [State.remove, ConcurrencyQueue.remove, absent, member, State.letThrough]
    have admitted : (s.remove executionId).admitted = s.admitted.erase executionId := by
      simp [State.remove, ConcurrencyQueue.remove, absent, member, State.letThrough]
    have fewer := limited.capacity
    rw [queue, admitted, List.length_erase_of_mem member] at fewer
    omega

theorem step {action : Action} (alone : RemovesAlone s action) :
    Orderly limit (step s action) := by
  cases action with
  | enqueue executionId => exact h.enqueue executionId
  | dequeue executionId =>
    rw [Concurrency.step]
    split
    case isTrue member => exact h.dequeue member
    case isFalse =>
      rw [h.removed, if_neg List.not_mem_nil]
      exact h
  | remove executionId => exact h.remove alone

theorem limited_step_iff (action : Action) :
    Limited limit (Concurrency.step s action) ↔ RemovesAlone s action := by
  refine ⟨fun limited => ?_, fun alone => (h.step alone).limited⟩
  cases action with
  | enqueue => trivial
  | dequeue => trivial
  | remove executionId =>
    exact Classical.byContradiction fun other => h.not_limited_remove other limited

end

end Orderly

theorem limited_start (limit : Nat) : Orderly limit (start limit) where
  limited := ⟨Nat.zero_le _, by simp [start], fun waiting => absurd rfl waiting, List.Pairwise.nil⟩
  removed := rfl
  promises := by simp [start]

/-- The limit holds in every state of a run exactly when nothing is removed in it that
others wait behind, or that was admitted. -/
theorem limited_along_iff (limit : Nat) (actions : List Action) :
    Runs.Along step (fun s action => Limited limit (step s action)) (start limit) actions ↔
      Runs.Along step RemovesAlone (start limit) actions :=
  Runs.along_iff (fun _ action h _ => h.limited_step_iff action)
    (fun _ action h _ limited => h.step ((h.limited_step_iff action).1 limited))
    (limited_start limit) (Runs.along_of_forall (R := fun _ => True) fun _ _ => trivial)

/-- The first of two that wait is removed, and the other one proceeds. -/
theorem removed_admits_next : ¬ ∀ (limit : Nat) (actions : List Action), 0 < limit →
    Runs.Along step (fun s action => Limited limit (step s action)) (start limit) actions :=
  fun limited => absurd
    (limited 1 [.enqueue "1", .enqueue "2", .enqueue "3", .remove "2"] (by decide)) (by decide)

end NodeAutomation.Concurrency
