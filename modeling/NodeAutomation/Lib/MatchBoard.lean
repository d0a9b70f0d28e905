import Mathlib.Logic.Relation
import Mathlib.Data.List.Nodup
import NodeAutomation.Lib.Places

/-! A board on which offers and requests are matched one to one. An offer is matched
with a request of its kind, which is busy for as long as the deal may still be broken
off; an answered request leaves the board. Everything is numbered in the order in which
it came. -/

namespace NodeAutomation

namespace MatchBoard

structure Request (ι κ : Type*) where
  id : ι
  kind : κ
  busy : Bool

structure Deal where
  offer : Nat
  request : Nat
  closed : Bool

end MatchBoard

/-- The numbers of what is open, all that ever was offered (as its kind) and requested,
the deals, and the ids of the requests that were answered. -/
structure MatchBoard (ι κ : Type*) where
  openOffers : List Nat
  openRequests : List Nat
  offers : List κ
  requests : List (MatchBoard.Request ι κ)
  deals : List MatchBoard.Deal
  answered : List ι

namespace MatchBoard

open Places

variable {ι κ : Type*} {b c : MatchBoard ι κ}

def setBusy (request : Nat) (busy : Bool) (requests : List (Request ι κ)) : List (Request ι κ) :=
  requests.modify request fun r => { r with busy := busy }

def close (deal : Nat) (deals : List Deal) : List Deal :=
  deals.modify deal fun d => { d with closed := true }

inductive Change (b : MatchBoard ι κ) : MatchBoard ι κ → Prop
  | withdraw {rest : List Nat} (sublist : rest.Sublist b.openOffers) :
      Change b { b with openOffers := rest }
  | offer (kind : κ) : Change b
      { b with offers := b.offers ++ [kind], openOffers := b.openOffers ++ [b.offers.length] }
  | turnDown (r : Request ι κ) : Change b { b with requests := b.requests ++ [r] }
  | request (r : Request ι κ) : Change b
      { b with
        requests := b.requests ++ [r]
        openRequests := b.openRequests ++ [b.requests.length] }
  | deal {offer request : Nat} {rest : List Nat} {r : Request ι κ}
      (taken : b.openOffers.Perm (offer :: rest)) (here : b.requests[request]? = some r)
      (idle : r.busy = false) (kind : b.offers[offer]? = some r.kind) : Change b
      { b with
        openOffers := rest
        requests := setBusy request true b.requests
        deals := b.deals ++ [⟨offer, request, false⟩] }
  | breakOff {i : Nat} {d : Deal} (here : b.deals[i]? = some d) (pending : d.closed = false) :
      Change b
        { b with requests := setBusy d.request false b.requests, deals := close i b.deals }
  | close (i : Nat) : Change b { b with deals := close i b.deals }
  | answer {request : Nat} {rest : List Nat} {r : Request ι κ} {said : List ι}
      (taken : b.openRequests.Perm (request :: rest)) (here : b.requests[request]? = some r)
      (told : said = [] ∨ said = [r.id]) : Change b
      { b with openRequests := rest, answered := b.answered ++ said }

def Unique (b : MatchBoard ι κ) (id : ι) : Prop :=
  ∀ (i j : Nat) (r s : Request ι κ), b.requests[i]? = some r → b.requests[j]? = some s →
    r.id = id → s.id = id → i = j

/-- No offer is open and dealt, or dealt twice; a request has at most one deal that is not
closed, and is busy then; kinds agree; and an id that one request has is answered once at
most, when its request is no longer open. -/
structure OneToOne [DecidableEq ι] (b : MatchBoard ι κ) : Prop where
  offers : (b.openOffers ++ b.deals.map Deal.offer).Nodup
  offered : ∀ offer ∈ b.openOffers ++ b.deals.map Deal.offer, offer < b.offers.length
  requests : b.openRequests.Nodup
  requested : ∀ request ∈ b.openRequests, request < b.requests.length
  busy : ∀ d ∈ b.deals, d.closed = false → ∃ r, b.requests[d.request]? = some r ∧ r.busy = true
  single : ∀ (i j : Nat) (d e : Deal), b.deals[i]? = some d → b.deals[j]? = some e →
    d.closed = false → e.closed = false → d.request = e.request → i = j
  kinds : ∀ d ∈ b.deals, ∃ r, b.requests[d.request]? = some r ∧ b.offers[d.offer]? = some r.kind
  known : ∀ id ∈ b.answered, ∃ r ∈ b.requests, r.id = id
  once : ∀ id, b.Unique id → b.answered.count id ≤ 1
  answered : ∀ id ∈ b.answered, b.Unique id →
    ∀ request ∈ b.openRequests, ∀ r, b.requests[request]? = some r → r.id ≠ id

@[simp] theorem length_setBusy (request : Nat) (busy : Bool) (requests : List (Request ι κ)) :
    (setBusy request busy requests).length = requests.length := by
  rw [setBusy, List.length_modify]

theorem getElem?_setBusy {request i : Nat} {busy : Bool} {requests : List (Request ι κ)}
    {r : Request ι κ} (here : requests[i]? = some r) :
    (setBusy request busy requests)[i]? =
      some (if request = i then { r with busy := busy } else r) := by
  rw [setBusy, List.getElem?_modify, here]
  split <;> rfl

theorem getElem?_setBusy_eq_some {request i : Nat} {busy : Bool} {requests : List (Request ι κ)}
    {r : Request ι κ} (here : (setBusy request busy requests)[i]? = some r) :
    ∃ was, requests[i]? = some was ∧ r.id = was.id := by
  obtain ⟨was, before, same⟩ := getElem?_modify_eq_some here
  refine ⟨was, before, ?_⟩
  rw [same]
  split <;> rfl

theorem known_setBusy {request : Nat} {busy : Bool} {requests : List (Request ι κ)} {id : ι}
    (known : ∃ r ∈ requests, r.id = id) : ∃ r ∈ setBusy request busy requests, r.id = id := by
  obtain ⟨r, member, same⟩ := known
  obtain ⟨i, here⟩ := List.mem_iff_getElem?.1 member
  refine ⟨_, List.mem_of_getElem? (getElem?_setBusy here), ?_⟩
  split <;> exact same

theorem Unique.of_setBusy {request : Nat} {busy : Bool} {id : ι}
    (unique : ({ b with requests := setBusy request busy b.requests } : MatchBoard ι κ).Unique id) :
    b.Unique id := by
  intro i j r s atI atJ sameR sameS
  refine unique i j _ _ (getElem?_setBusy atI) (getElem?_setBusy atJ) ?_ ?_
  · split <;> exact sameR
  · split <;> exact sameS

@[simp] theorem map_offer_close (deal : Nat) (deals : List Deal) :
    (close deal deals).map Deal.offer = deals.map Deal.offer := by
  refine List.ext_getElem? fun i => ?_
  simp only [close, List.getElem?_map, List.getElem?_modify]
  split <;> cases deals[i]? <;> rfl

theorem getElem?_close {i j : Nat} {deals : List Deal} {d : Deal}
    (here : (close i deals)[j]? = some d) :
    ∃ was, deals[j]? = some was ∧ d.offer = was.offer ∧ d.request = was.request ∧
      (d.closed = false → i ≠ j ∧ d = was) := by
  obtain ⟨was, before, same⟩ := getElem?_modify_eq_some here
  refine ⟨was, before, ?_⟩
  rw [same]
  split
  case isTrue => exact ⟨rfl, rfl, fun pending => absurd pending (by simp)⟩
  case isFalse other => exact ⟨rfl, rfl, fun _ => ⟨other, rfl⟩⟩

theorem getElem?_close_of_pending {i j : Nat} {deals : List Deal} {d : Deal}
    (here : (close i deals)[j]? = some d) (pending : d.closed = false) :
    i ≠ j ∧ deals[j]? = some d := by
  obtain ⟨was, before, _, _, same⟩ := getElem?_close here
  obtain ⟨other, same⟩ := same pending
  exact ⟨other, same ▸ before⟩

theorem Unique.of_append {more : List (Request ι κ)} {id : ι}
    (unique : ({ b with requests := b.requests ++ more } : MatchBoard ι κ).Unique id) :
    b.Unique id := fun i j r s atI atJ =>
  unique i j r s (getElem?_append_of_some atI more) (getElem?_append_of_some atJ more)

namespace OneToOne

variable [DecidableEq ι]

section

variable (h : b.OneToOne)
include h

theorem withdraw {rest : List Nat} (sublist : rest.Sublist b.openOffers) :
    ({ b with openOffers := rest } : MatchBoard ι κ).OneToOne := by
  have sublist := sublist.append_right (b.deals.map Deal.offer)
  exact { h with
    offers := h.offers.sublist sublist
    offered := fun offer member => h.offered offer (sublist.subset member) }

theorem offer (kind : κ) : ({ b with
    offers := b.offers ++ [kind]
    openOffers := b.openOffers ++ [b.offers.length] } : MatchBoard ι κ).OneToOne := by
  have perm : (b.openOffers ++ [b.offers.length] ++ b.deals.map Deal.offer).Perm
      (b.offers.length :: (b.openOffers ++ b.deals.map Deal.offer)) := by
    rw [List.append_assoc]
    exact List.perm_middle
  refine { h with
    offers := perm.nodup_iff.2 (List.nodup_cons.2 ⟨fun member => ?_, h.offers⟩)
    offered := fun offer member => ?_
    kinds := fun d member => ?_ }
  · exact absurd (h.offered _ member) (Nat.lt_irrefl _)
  · rw [List.length_append, List.length_singleton]
    cases List.mem_cons.1 (perm.mem_iff.1 member) with
    | inl new => omega
    | inr old => exact Nat.lt_succ_of_lt (h.offered offer old)
  · obtain ⟨r, here, kind⟩ := h.kinds d member
    exact ⟨r, here, getElem?_append_of_some kind _⟩

theorem turnDown (r : Request ι κ) :
    ({ b with requests := b.requests ++ [r] } : MatchBoard ι κ).OneToOne := by
  refine { h with
    requested := fun request member => ?_
    busy := fun d member pending => ?_
    kinds := fun d member => ?_
    known := fun id member => ?_
    once := fun id unique => h.once id unique.of_append
    answered := fun id member unique request isOpen other here => ?_ }
  · rw [List.length_append, List.length_singleton]
    exact Nat.lt_succ_of_lt (h.requested request member)
  · obtain ⟨r, here, busy⟩ := h.busy d member pending
    exact ⟨r, getElem?_append_of_some here _, busy⟩
  · obtain ⟨r, here, kind⟩ := h.kinds d member
    exact ⟨r, getElem?_append_of_some here _, kind⟩
  · obtain ⟨r, member, same⟩ := h.known id member
    exact ⟨r, List.mem_append_left _ member, same⟩
  · rw [List.getElem?_append_left (h.requested request isOpen)] at here
    exact h.answered id member unique.of_append request isOpen other here

theorem request (r : Request ι κ) :
    ({ b with
      requests := b.requests ++ [r]
      openRequests := b.openRequests ++ [b.requests.length] } : MatchBoard ι κ).OneToOne := by
  have added := h.turnDown r
  have new : (b.requests ++ [r])[b.requests.length]? = some r := List.getElem?_concat_length
  refine { added with
    requests := ?_
    requested := fun request member => ?_
    answered := fun id member unique request isOpen other here => ?_ }
  · rw [← List.concat_eq_append]
    exact h.requests.concat fun member => absurd (h.requested _ member) (Nat.lt_irrefl _)
  · cases List.mem_append.1 member with
    | inl old => exact added.requested request old
    | inr new =>
      rw [List.mem_singleton.1 new, List.length_append, List.length_singleton]
      exact Nat.lt_succ_self _
  · cases List.mem_append.1 isOpen with
    | inl old => exact added.answered id member unique request old other here
    | inr last =>
      -- an answered id is that of an earlier request, so the new one shares it with none
      rw [List.mem_singleton.1 last, new] at here
      obtain ⟨earlier, known, same⟩ := h.known id member
      obtain ⟨i, atI⟩ := List.mem_iff_getElem?.1 known
      intro shared
      rw [← Option.some.inj here] at shared
      have equal := unique i _ earlier r (getElem?_append_of_some atI _) new same shared
      have short := (List.getElem?_eq_some_iff.1 atI).1
      omega

theorem deal {offer request : Nat} {rest : List Nat} {r : Request ι κ}
    (taken : b.openOffers.Perm (offer :: rest)) (here : b.requests[request]? = some r)
    (idle : r.busy = false) (kind : b.offers[offer]? = some r.kind) :
    ({ b with
      openOffers := rest
      requests := setBusy request true b.requests
      deals := b.deals ++ [⟨offer, request, false⟩] } : MatchBoard ι κ).OneToOne := by
  have perm : (rest ++ (b.deals ++ [(⟨offer, request, false⟩ : Deal)]).map Deal.offer).Perm
      (b.openOffers ++ b.deals.map Deal.offer) := by
    rw [List.map_append, ← List.append_assoc]
    refine List.Perm.trans ?_ (taken.symm.append_right _)
    exact List.perm_append_singleton offer (rest ++ b.deals.map Deal.offer)
  -- the request was not busy, so no deal of it is pending
  have other (d : Deal) (member : d ∈ b.deals) (pending : d.closed = false) : d.request ≠ request := by
    intro same
    obtain ⟨was, there, busy⟩ := h.busy d member pending
    rw [same, here] at there
    rw [← Option.some.inj there, idle] at busy
    exact absurd busy (by decide)
  refine { h with
    offers := perm.nodup_iff.2 h.offers
    offered := fun offer member => h.offered offer (perm.mem_iff.1 member)
    requested := fun request member => by rw [length_setBusy]; exact h.requested request member
    busy := fun d member pending => ?_
    single := fun i j d e atI atJ pendingI pendingJ same => ?_
    kinds := fun d member => ?_
    known := fun id member => known_setBusy (h.known id member)
    once := fun id unique => h.once id unique.of_setBusy
    answered := fun id member unique request isOpen found there => ?_ }
  · cases List.mem_append.1 member with
    | inl old =>
      obtain ⟨was, there, busy⟩ := h.busy d old pending
      exact ⟨_, getElem?_setBusy there, by rw [if_neg (other d old pending).symm]; exact busy⟩
    | inr new =>
      rw [List.mem_singleton.1 new]
      exact ⟨_, getElem?_setBusy here, by rw [if_pos rfl]⟩
  · cases getElem?_concat atI with
    | inl oldI =>
      cases getElem?_concat atJ with
      | inl oldJ => exact h.single i j d e oldI oldJ pendingI pendingJ same
      | inr newJ =>
        rw [newJ.2] at same
        exact absurd same (other d (List.mem_of_getElem? oldI) pendingI)
    | inr newI =>
      cases getElem?_concat atJ with
      | inl oldJ =>
        rw [newI.2] at same
        exact absurd same.symm (other e (List.mem_of_getElem? oldJ) pendingJ)
      | inr newJ => rw [newI.1, newJ.1]
  · cases List.mem_append.1 member with
    | inl old =>
      obtain ⟨was, there, kind⟩ := h.kinds d old
      exact ⟨_, getElem?_setBusy there, by split <;> exact kind⟩
    | inr new =>
      rw [List.mem_singleton.1 new]
      exact ⟨_, getElem?_setBusy here, by rw [if_pos rfl]; exact kind⟩
  · obtain ⟨was, before, same⟩ := getElem?_setBusy_eq_some there
    rw [same]
    exact h.answered id member unique.of_setBusy request isOpen was before

theorem close (i : Nat) :
    ({ b with deals := MatchBoard.close i b.deals } : MatchBoard ι κ).OneToOne := by
  refine { h with
    offers := by rw [map_offer_close]; exact h.offers
    offered := by rw [map_offer_close]; exact h.offered
    busy := fun d member pending => ?_
    single := fun j k d e atJ atK pendingJ pendingK same => ?_
    kinds := fun d member => ?_ }
  · obtain ⟨j, here⟩ := List.mem_iff_getElem?.1 member
    have before := (getElem?_close_of_pending here pending).2
    exact h.busy d (List.mem_of_getElem? before) pending
  · have beforeJ := (getElem?_close_of_pending atJ pendingJ).2
    have beforeK := (getElem?_close_of_pending atK pendingK).2
    exact h.single j k d e beforeJ beforeK pendingJ pendingK same
  · obtain ⟨j, here⟩ := List.mem_iff_getElem?.1 member
    obtain ⟨was, before, offer, request, _⟩ := getElem?_close here
    rw [offer, request]
    exact h.kinds was (List.mem_of_getElem? before)

theorem breakOff {i : Nat} {d : Deal} (here : b.deals[i]? = some d)
    (pending : d.closed = false) :
    ({ b with
      requests := setBusy d.request false b.requests
      deals := MatchBoard.close i b.deals } : MatchBoard ι κ).OneToOne := by
  have closed := h.close i
  refine { closed with
    requested := fun request member => by rw [length_setBusy]; exact h.requested request member
    busy := fun e member pendingE => ?_
    kinds := fun e member => ?_
    known := fun id member => known_setBusy (h.known id member)
    once := fun id unique => h.once id unique.of_setBusy
    answered := fun id member unique request isOpen found there => ?_ }
  · obtain ⟨j, atJ⟩ := List.mem_iff_getElem?.1 member
    obtain ⟨other, before⟩ := getElem?_close_of_pending atJ pendingE
    obtain ⟨r, there, busy⟩ := h.busy e (List.mem_of_getElem? before) pendingE
    have apart : d.request ≠ e.request := fun same => other (h.single i j d e here before pending pendingE same)
    exact ⟨_, getElem?_setBusy there, by rw [if_neg apart]; exact busy⟩
  · obtain ⟨r, there, kind⟩ := closed.kinds e member
    exact ⟨_, getElem?_setBusy there, by split <;> exact kind⟩
  · obtain ⟨was, before, same⟩ := getElem?_setBusy_eq_some there
    rw [same]
    exact h.answered id member unique.of_setBusy request isOpen was before

theorem answer {request : Nat} {rest : List Nat} {r : Request ι κ} {said : List ι}
    (taken : b.openRequests.Perm (request :: rest)) (here : b.requests[request]? = some r)
    (told : said = [] ∨ said = [r.id]) :
    ({ b with openRequests := rest, answered := b.answered ++ said } : MatchBoard ι κ).OneToOne := by
  obtain ⟨gone, nodup⟩ := List.nodup_cons.1 (taken.nodup_iff.1 h.requests)
  have wasOpen : request ∈ b.openRequests := taken.mem_iff.2 List.mem_cons_self
  have before (other : Nat) (member : other ∈ rest) : other ∈ b.openRequests :=
    taken.mem_iff.2 (List.mem_cons_of_mem request member)
  have its (id : ι) (member : id ∈ said) : id = r.id := by
    cases told with
    | inl none => simp [none] at member
    | inr one => simpa [one] using member
  have silent (unique : b.Unique r.id) : b.answered.count r.id = 0 :=
    List.count_eq_zero.2 fun member => h.answered r.id member unique request wasOpen r here rfl
  refine { h with
    requests := nodup
    requested := fun other member => h.requested other (before other member)
    known := fun id member => ?_
    once := fun id unique => ?_
    answered := fun id member unique => ?_ }
  · cases List.mem_append.1 member with
    | inl old => exact h.known id old
    | inr new => exact ⟨r, List.mem_of_getElem? here, (its id new).symm⟩
  · rw [List.count_append]
    by_cases same : id = r.id
    · have none : b.answered.count id = 0 := same ▸ silent (same ▸ unique)
      have few : said.count id ≤ said.length := List.count_le_length
      have short : said.length ≤ 1 := by cases told <;> simp_all
      omega
    · have none : said.count id = 0 := List.count_eq_zero.2 fun member => same (its id member)
      rw [none]
      exact h.once id unique
  · cases List.mem_append.1 member with
    | inl old => exact fun other member => h.answered id old unique other (before other member)
    | inr new =>
      intro other member s there same
      rw [unique request other r s here there (its id new).symm same] at gone
      exact gone member

theorem of_change (change : Change b c) : c.OneToOne := by
  cases change with
  | withdraw sublist => exact h.withdraw sublist
  | offer kind => exact h.offer kind
  | turnDown r => exact h.turnDown r
  | request r => exact h.request r
  | deal taken here idle kind => exact h.deal taken here idle kind
  | breakOff here pending => exact h.breakOff here pending
  | close i => exact h.close i
  | answer taken here told => exact h.answer taken here told

theorem of_changes (changes : Relation.ReflTransGen Change b c) : c.OneToOne := by
  induction changes with
  | refl => exact h
  | tail _ change ih => exact ih.of_change change

end

end OneToOne

end MatchBoard

end NodeAutomation
