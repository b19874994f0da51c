/-
This file is the abstract account of a negotiation: a session is about at most
one offer, the seller is asked about it or has answered, and an offer that is
over stays over. A deal moves by a few moves; the shape it keeps and what the
moves can do to an approval are proved here once, and the transactions of the
services are shown to be moves in the file after this one.
-/

import SecondhandAgent.Approval

namespace Negotiation

open Store

/-- The part of a session that the negotiation is about. -/
structure Deal where
  status : NegotiationStatus
  currentOfferId : Option Nat
  roundCount : Nat
  offers : Table Offer.id
  approvals : Table ApprovalRequest.id

/-- The deal of a database. -/
def Db.deal (db : Db) : Deal where
  status := db.session.status
  currentOfferId := db.session.currentOfferId
  roundCount := db.session.roundCount
  offers := db.offers
  approvals := db.approvals

namespace Deal

/-- The session still negotiates. -/
def Open (deal : Deal) : Prop := deal.status = .active ∨ deal.status = .waitingApproval

/-- The session is over. -/
def Over (deal : Deal) : Prop := deal.status = .agreed ∨ deal.status = .closed

theorem Over.not_open {deal : Deal} (isOver : deal.Over) : ¬ deal.Open := by
  rintro (active | waiting) <;> rcases isOver with agreed | closed <;> simp_all

/-! ### The shape -/

/-- How far an approval has come, against the offer it is about. -/
inductive Standing (approval : ApprovalRequest) (offer : Offer) : Prop
  | waiting (open_ : approval.status = .pending ∨ approval.status = .approved)
      (effect : approval.effectStatus = .notApplied) (revision : approval.effectRevision = 0)
      (proposed : offer.status = .proposed)
  | applied (approved : approval.status = .approved) (effect : approval.effectStatus = .applied)
      (revision : approval.effectRevision = 1) (accepted : offer.status = .accepted)
  | refused (rejected : approval.status = .rejected) (effect : approval.effectStatus = .applied)
      (revision : approval.effectRevision = 1) (dead : ¬ offer.status.IsLive)
  | ended (closed : approval.status ≠ .pending) (effect : approval.effectStatus = .invalidated)
      (revision : approval.effectRevision = 1 ∨ approval.effectRevision = 2)
      (dead : ¬ offer.status.IsLive)

/-- The shape of a deal: the current offer is the only one that can be acted on, the session
waits exactly while the current offer is a buyer's that is not answered, every such offer has
its approval, and every approval stands as its offer does. -/
structure Shape (deal : Deal) : Prop where
  current : ∀ id, deal.currentOfferId = some id →
    ∃ offer ∈ deal.offers, offer.id = id ∧ offer.status.IsLive
  live : ∀ offer ∈ deal.offers, offer.status.IsLive → deal.currentOfferId = some offer.id
  closed : deal.status = .closed → deal.currentOfferId = none
  waiting : deal.status = .waitingApproval ↔
    ∃ offer ∈ deal.offers, offer.proposer = .buyer ∧ offer.status = .proposed
  asked : ∀ offer ∈ deal.offers, offer.proposer = .buyer → offer.status = .proposed →
    ∃ approval ∈ deal.approvals, approval.offerId = offer.id
  single : ∀ one ∈ deal.approvals, ∀ two ∈ deal.approvals, one.offerId = two.offerId → one = two
  standing : ∀ approval ∈ deal.approvals, ∃ offer ∈ deal.offers, offer.id = approval.offerId ∧
    offer.proposer = .buyer ∧ Standing approval offer

/-! ### The moves -/

/-- The deal without an offer that ended. -/
def without (deal : Deal) (offer : Offer) (reason : InvalidReason) : Deal :=
  { deal with
    offers := deal.offers.put (offer.invalidated reason)
    currentOfferId := none
    status := if deal.status = .waitingApproval then .active else deal.status }

/-- A live offer ends, and the effect of its approval with it. -/
inductive Ends (before : Deal) : Deal → Prop
  | alone {offer : Offer} {reason : InvalidReason} (open_ : before.Open)
      (member : offer ∈ before.offers) (live : offer.status.IsLive)
      (unasked : ∀ approval ∈ before.approvals, approval.offerId ≠ offer.id) :
      Ends before (before.without offer reason)
  | together {offer : Offer} {approval : ApprovalRequest} {reason : InvalidReason}
      {expired : Bool} (open_ : before.Open) (member : offer ∈ before.offers)
      (live : offer.status.IsLive) (asked : approval ∈ before.approvals)
      (same : approval.offerId = offer.id) :
      Ends before
        { before.without offer reason with
          approvals := before.approvals.put (approval.invalidated reason expired) }

/-- A new buyer offer, which costs a round. -/
inductive Places (before : Deal) : Deal → Prop
  /-- It is turned down, and the current offer stays. -/
  | refused {offer : Offer} (free : before.offers.get offer.id = none) (open_ : before.Open)
      (dead : offer.status = .rejected) :
      Places before
        { before with
          offers := before.offers.push offer free, roundCount := before.roundCount + 1 }
  | accepted {offer : Offer} (free : before.offers.get offer.id = none)
      (active : before.status = .active) (vacant : before.currentOfferId = none)
      (accepted : offer.status = .accepted) :
      Places before
        { before with
          offers := before.offers.push offer free
          currentOfferId := some offer.id
          roundCount := before.roundCount + 1 }
  /-- The seller is asked. -/
  | asked {offer : Offer} {approval : ApprovalRequest}
      (free : before.offers.get offer.id = none)
      (unused : before.approvals.get approval.id = none)
      (active : before.status = .active) (vacant : before.currentOfferId = none)
      (buyer : offer.proposer = .buyer) (proposed : offer.status = .proposed)
      (about : approval.offerId = offer.id) (pending : approval.status = .pending)
      (effect : approval.effectStatus = .notApplied) (revision : approval.effectRevision = 0) :
      Places before
        { before with
          offers := before.offers.push offer free
          approvals := before.approvals.push approval unused
          currentOfferId := some offer.id
          status := .waitingApproval
          roundCount := before.roundCount + 1 }
  /-- It is turned down and answered with an offer of the agent. -/
  | countered {offer counter : Offer} (free : before.offers.get offer.id = none)
      (next : (before.offers.push offer free).get counter.id = none)
      (active : before.status = .active) (vacant : before.currentOfferId = none)
      (dead : offer.status = .rejected) (agent : counter.proposer = .agent)
      (proposed : counter.status = .proposed) :
      Places before
        { before with
          offers := (before.offers.push offer free).push counter next
          currentOfferId := some counter.id
          roundCount := before.roundCount + 1 }

/-- An approval gets another end. -/
inductive Limits (before : Deal) : Deal → Prop
  | limited {approval : ApprovalRequest} {expiresAt : Time}
      (member : approval ∈ before.approvals) :
      Limits before { before with approvals := before.approvals.put { approval with expiresAt } }

/-- The session is closed. -/
inductive Closes (before : Deal) : Deal → Prop
  | closed (open_ : before.Open) (vacant : before.currentOfferId = none) :
      Closes before { before with status := .closed }

/-- The buyer confirms the current offer. -/
inductive Agrees (before : Deal) : Deal → Prop
  | agreed {offer : Offer} (active : before.status = .active) (member : offer ∈ before.offers)
      (live : offer.status.IsLive) :
      Agrees before
        { before with
          offers := before.offers.put { offer with status := .accepted }, status := .agreed }

/-- The seller decides, or the seller's consent is applied. -/
inductive Answers (before : Deal) : Deal → Prop
  | approved {approval decided : ApprovalRequest} (member : approval ∈ before.approvals)
      (pending : approval.status = .pending)
      (same : decided.id = approval.id ∧ decided.offerId = approval.offerId)
      (status : decided.status = .approved)
      (effect : decided.effectStatus = approval.effectStatus ∧
        decided.effectRevision = approval.effectRevision) :
      Answers before { before with approvals := before.approvals.put decided }
  | rejected {offer ended : Offer} {approval decided : ApprovalRequest}
      (member : approval ∈ before.approvals) (pending : approval.status = .pending)
      (found : offer ∈ before.offers) (about : offer.id = approval.offerId)
      (same : decided.id = approval.id ∧ decided.offerId = approval.offerId)
      (status : decided.status = .rejected)
      (effect : decided.effectStatus = .applied ∧
        decided.effectRevision = approval.effectRevision + 1)
      (key : ended.id = offer.id) (proposer : ended.proposer = offer.proposer)
      (dead : ended.status = .rejected) :
      Answers before
        { before with
          offers := before.offers.put ended
          approvals := before.approvals.put decided
          currentOfferId := none
          status := .active }
  | applied {offer : Offer} {approval applied : ApprovalRequest}
      (member : approval ∈ before.approvals) (approved : approval.status = .approved)
      (waiting : approval.effectStatus = .notApplied)
      (found : offer ∈ before.offers) (about : offer.id = approval.offerId)
      (result : applied =
        { approval with effectStatus := .applied, effectRevision := approval.effectRevision + 1 }) :
      Answers before
        { before with
          offers := before.offers.put { offer with status := .accepted }
          approvals := before.approvals.put applied
          status := .active }

/-- The current offer, if there is one, is out of the way. -/
def Cleared (before after : Deal) : Prop := after = before ∨ Ends before after

/-- What a transaction that is not a confirmation does to a deal. -/
inductive Move (before after : Deal) : Prop
  | idle (same : after = before)
  | ended (ends : Ends before after)
  | proposed {cleared placed : Deal} (clears : Cleared before cleared)
      (places : Places cleared placed) (limits : after = placed ∨ Limits placed after)
  | limited (open_ : before.Open) (limits : Limits before after)
  | closed {cleared : Deal} (clears : Cleared before cleared) (closes : Closes cleared after)
  | answered (answers : Answers before after)

/-- What the review of an approval, its application or a reconciliation does to a deal. -/
inductive Handles (before after : Deal) : Prop
  | idle (same : after = before)
  | ended (ends : Ends before after)
  | answered (answers : Answers before after)

/-- What one transaction does to a deal. -/
inductive Op (before after : Deal) : Prop
  | moved (move : Move before after)
  | agreed (agrees : Agrees before after)

/-! ### The shape is kept -/

section

variable {before after : Deal}

/-- A status in which an offer cannot be acted on. -/
theorem not_live_iff {status : OfferStatus} :
    ¬ status.IsLive ↔ status = .rejected ∨ status = .withdrawn := by
  cases status <;> simp [OfferStatus.IsLive]

theorem invalidated_not_live (offer : Offer) (reason : InvalidReason) :
    ¬ (offer.invalidated reason).status.IsLive := by
  rw [not_live_iff]
  unfold Offer.invalidated
  by_cases buyer : offer.proposer = .buyer <;> simp [buyer]

theorem Shape.no_live (shape : Shape before) (vacant : before.currentOfferId = none)
    {offer : Offer} (member : offer ∈ before.offers) : ¬ offer.status.IsLive := by
  intro live
  have current := shape.live offer member live
  rw [vacant] at current
  cases current

/-- Two offers that can be acted on are one. -/
theorem Shape.live_unique (shape : Shape before) {one two : Offer} (first : one ∈ before.offers)
    (second : two ∈ before.offers) (oneLive : one.status.IsLive) (twoLive : two.status.IsLive) :
    one = two := by
  have same := (shape.live one first oneLive).symm.trans (shape.live two second twoLive)
  exact Table.eq_of_key first second (Option.some.inj same)

/-- The offer of an approval, with its standing. -/
theorem Shape.offer_of (shape : Shape before) {approval : ApprovalRequest} {offer : Offer}
    (asked : approval ∈ before.approvals) (member : offer ∈ before.offers)
    (about : offer.id = approval.offerId) : offer.proposer = .buyer ∧ Standing approval offer := by
  obtain ⟨other, found, same, buyer, standing⟩ := shape.standing approval asked
  obtain rfl := Table.eq_of_key found member (same.trans about.symm)
  exact ⟨buyer, standing⟩

/-- An approval that is not at its end has its offer in the session. -/
theorem Shape.waiting_of (shape : Shape before) {offer : Offer} (member : offer ∈ before.offers)
    (buyer : offer.proposer = .buyer) (proposed : offer.status = .proposed) :
    before.status = .waitingApproval :=
  shape.waiting.mpr ⟨offer, member, buyer, proposed⟩

/-- At most one approval of each offer, also after an approval was written back. -/
theorem single_put {approvals : Table ApprovalRequest.id} {approval changed : ApprovalRequest}
    (single : ∀ one ∈ approvals, ∀ two ∈ approvals, one.offerId = two.offerId → one = two)
    (member : approval ∈ approvals) (key : changed.id = approval.id)
    (about : changed.offerId = approval.offerId) :
    ∀ one ∈ approvals.put changed, ∀ two ∈ approvals.put changed,
      one.offerId = two.offerId → one = two := by
  intro one first two second same
  rcases Table.mem_put.mp first with ⟨oneOld, oneKey⟩ | ⟨rfl, _⟩ <;>
    rcases Table.mem_put.mp second with ⟨twoOld, twoKey⟩ | ⟨rfl, _⟩
  · exact single one oneOld two twoOld same
  · have clash := single one oneOld approval member (same.trans about)
    exact absurd (clash ▸ key.symm) oneKey
  · have clash := single two twoOld approval member (same.symm.trans about)
    exact absurd (clash ▸ key.symm) twoKey
  · rfl

/-- The approvals of the other offers stand as before when an approval and its offer are
written back together. -/
theorem standing_put (shape : Shape before) {approval changed : ApprovalRequest}
    {offer ended : Offer} (asked : approval ∈ before.approvals) (key : changed.id = approval.id)
    (about : changed.offerId = approval.offerId) (member : offer ∈ before.offers)
    (same : offer.id = approval.offerId) (offerKey : ended.id = offer.id)
    (buyer : ended.proposer = .buyer) (stands : Standing changed ended) :
    ∀ other ∈ before.approvals.put changed, ∃ row ∈ before.offers.put ended,
      row.id = other.offerId ∧ row.proposer = .buyer ∧ Standing other row := by
  intro other found
  rcases Table.mem_put.mp found with ⟨old, otherKey⟩ | ⟨rfl, _⟩
  · obtain ⟨row, rowMember, rowId, rowBuyer, rowStands⟩ := shape.standing other old
    refine ⟨row, Table.mem_put_of_mem rowMember (fun clash => ?_), rowId, rowBuyer, rowStands⟩
    have sameOffer : other.offerId = approval.offerId := by
      rw [← rowId, clash, offerKey, same]
    have clash := shape.single other old approval asked sameOffer
    exact otherKey (clash ▸ key.symm)
  · exact ⟨ended, Table.mem_put_self member offerKey.symm, by rw [offerKey, same, about], buyer, stands⟩

/-! #### An offer ends -/

theorem without_current (shape : Shape before) {offer : Offer} {reason : InvalidReason}
    (member : offer ∈ before.offers) (live : offer.status.IsLive) {other : Offer}
    (found : other ∈ (before.without offer reason).offers) : ¬ other.status.IsLive := by
  rcases Table.mem_put.mp found with ⟨old, different⟩ | ⟨rfl, _⟩
  · intro otherLive
    have same : other.id = offer.id :=
      congrArg Offer.id (shape.live_unique old member otherLive live)
    exact different same
  · exact invalidated_not_live offer reason

theorem without_status (offer : Offer) (reason : InvalidReason) :
    (before.without offer reason).status ≠ .waitingApproval := by
  show (if before.status = .waitingApproval then NegotiationStatus.active else before.status) ≠ _
  by_cases waiting : before.status = .waitingApproval
  · rw [if_pos waiting]
    exact nofun
  · rw [if_neg waiting]
    exact waiting

theorem without_waiting (shape : Shape before) {offer : Offer} {reason : InvalidReason}
    (member : offer ∈ before.offers) (live : offer.status.IsLive) :
    (before.without offer reason).status = .waitingApproval ↔
      ∃ other ∈ (before.without offer reason).offers,
        other.proposer = .buyer ∧ other.status = .proposed := by
  constructor
  · intro waiting
    exact absurd waiting (without_status offer reason)
  · rintro ⟨other, found, _, proposed⟩
    exact absurd (.inl proposed) (without_current shape member live found)

/-- The effect that an ended approval is left with. -/
theorem ended_standing {approval : ApprovalRequest} {offer : Offer} {reason : InvalidReason}
    {expired : Bool} (stands : Standing approval offer) (live : offer.status.IsLive) :
    Standing (approval.invalidated reason expired) (offer.invalidated reason) := by
  have closed : (approval.invalidated reason expired).status ≠ .pending := by
    show (if approval.status = .pending then
      (if expired then ApprovalStatus.expired else .cancelled) else approval.status) ≠ _
    by_cases pending : approval.status = .pending
    · rw [if_pos pending]
      cases expired <;> exact nofun
    · rw [if_neg pending]
      exact pending
  have dead := invalidated_not_live offer reason
  cases stands with
  | waiting _ _ revision _ =>
    exact .ended closed rfl (.inl (congrArg (· + 1) revision)) dead
  | applied _ _ revision _ =>
    exact .ended closed rfl (.inr (congrArg (· + 1) revision)) dead
  | refused _ _ _ gone => exact absurd live gone
  | ended _ _ _ gone => exact absurd live gone

theorem Ends.shape (shape : Shape before) (ends : Ends before after) : Shape after := by
  cases ends with
  | @alone offer reason _ member live unasked =>
    have dead := @without_current before shape offer reason member live
    refine ⟨nofun, fun other found otherLive => absurd otherLive (dead found), fun _ => rfl,
      without_waiting shape member live,
      fun other found _ proposed => absurd (.inl proposed) (dead found), shape.single,
      fun approval asked => ?_⟩
    obtain ⟨other, found, about, buyer, stands⟩ := shape.standing approval asked
    refine ⟨other, Table.mem_put_of_mem found (fun clash => ?_), about, buyer, stands⟩
    exact unasked approval asked (about.symm.trans clash)
  | @together offer approval reason expired _ member live asked same =>
    have dead := @without_current before shape offer reason member live
    obtain ⟨buyer, stands⟩ := shape.offer_of asked member same.symm
    exact ⟨nofun, fun other found otherLive => absurd otherLive (dead found), fun _ => rfl,
      without_waiting shape member live,
      fun other found _ proposed => absurd (.inl proposed) (dead found),
      single_put shape.single asked rfl rfl,
      standing_put shape asked rfl rfl member same.symm rfl buyer (ended_standing stands live)⟩

theorem Ends.vacant (ends : Ends before after) : after.currentOfferId = none := by
  cases ends <;> rfl

theorem Cleared.shape (shape : Shape before) (clears : Cleared before after) : Shape after := by
  rcases clears with rfl | ends
  · exact shape
  · exact ends.shape shape

/-! #### A new offer -/

theorem fresh_offer (shape : Shape before) {offer : Offer}
    (free : before.offers.get offer.id = none) :
    ∀ approval ∈ before.approvals, approval.offerId ≠ offer.id := by
  intro approval asked clash
  obtain ⟨other, found, about, _, _⟩ := shape.standing approval asked
  exact Table.get_eq_none.mp free other found (about.trans clash)

theorem standing_push (shape : Shape before) {offer : Offer}
    (free : before.offers.get offer.id = none) {approval : ApprovalRequest}
    (asked : approval ∈ before.approvals) :
    ∃ other ∈ before.offers.push offer free, other.id = approval.offerId ∧
      other.proposer = .buyer ∧ Standing approval other := by
  obtain ⟨other, found, rest⟩ := shape.standing approval asked
  exact ⟨other, Table.mem_push_of_mem free found, rest⟩

theorem Places.shape (shape : Shape before) (places : Places before after) : Shape after := by
  cases places with
  | @refused offer free open_ dead =>
    have gone : ¬ offer.status.IsLive := not_live_iff.mpr (.inl dead)
    refine ⟨fun id current => ?_, fun other found live => ?_, shape.closed, ?_,
      fun other found buyer proposed => ?_, shape.single, fun _ => standing_push shape free⟩
    · obtain ⟨other, found, rest⟩ := shape.current id current
      exact ⟨other, Table.mem_push_of_mem free found, rest⟩
    · rcases (Table.mem_push free).mp found with rfl | old
      · exact absurd live gone
      · exact shape.live other old live
    · refine shape.waiting.trans ⟨?_, ?_⟩
      · rintro ⟨other, found, asks⟩
        exact ⟨other, Table.mem_push_of_mem free found, asks⟩
      · rintro ⟨other, found, buyer, proposed⟩
        rcases (Table.mem_push free).mp found with rfl | old
        · exact absurd (.inl proposed) gone
        · exact ⟨other, old, buyer, proposed⟩
    · rcases (Table.mem_push free).mp found with rfl | old
      · exact absurd (.inl proposed) gone
      · exact shape.asked other old buyer proposed
  | @accepted offer free active vacant accepted =>
    have dead : ∀ other ∈ before.offers, ¬ other.status.IsLive := fun _ => shape.no_live vacant
    refine ⟨fun id current => ?_, fun other found live => ?_, fun closed => ?_, ⟨fun waiting => ?_, ?_⟩,
      fun other found buyer proposed => ?_, shape.single, fun _ => standing_push shape free⟩
    · exact ⟨offer, Table.mem_push_self free, Option.some.inj current, .inr accepted⟩
    · rcases (Table.mem_push free).mp found with rfl | old
      · rfl
      · exact absurd live (dead other old)
    · exact absurd (active.symm.trans closed) nofun
    · exact absurd (active.symm.trans waiting) nofun
    · rintro ⟨other, found, _, proposed⟩
      rcases (Table.mem_push free).mp found with rfl | old
      · exact absurd (proposed.symm.trans accepted) nofun
      · exact absurd (.inl proposed) (dead other old)
    · rcases (Table.mem_push free).mp found with rfl | old
      · exact absurd (proposed.symm.trans accepted) nofun
      · exact absurd (.inl proposed) (dead other old)
  | @asked offer approval free unused active vacant buyer proposed about pending effect revision =>
    have dead : ∀ other ∈ before.offers, ¬ other.status.IsLive := fun _ => shape.no_live vacant
    have unasked := fresh_offer shape free
    refine ⟨fun id current => ?_, fun other found live => ?_, nofun, ⟨fun _ => ?_, fun _ => rfl⟩,
      fun other found _ otherProposed => ?_, fun one first two second same => ?_,
      fun other found => ?_⟩
    · exact ⟨offer, Table.mem_push_self free, Option.some.inj current, .inl proposed⟩
    · rcases (Table.mem_push free).mp found with rfl | old
      · rfl
      · exact absurd live (dead other old)
    · exact ⟨offer, Table.mem_push_self free, buyer, proposed⟩
    · rcases (Table.mem_push free).mp found with rfl | old
      · exact ⟨approval, Table.mem_push_self unused, about⟩
      · exact absurd (.inl otherProposed) (dead other old)
    · rcases (Table.mem_push unused).mp first with rfl | oneOld <;>
        rcases (Table.mem_push unused).mp second with rfl | twoOld
      · rfl
      · exact absurd (same.symm.trans about) (unasked two twoOld)
      · exact absurd (same.trans about) (unasked one oneOld)
      · exact shape.single one oneOld two twoOld same
    · rcases (Table.mem_push unused).mp found with rfl | old
      · exact ⟨offer, Table.mem_push_self free, about.symm, buyer,
          .waiting (.inl pending) effect revision proposed⟩
      · exact standing_push shape free old
  | @countered offer counter free next active vacant dead agent proposed =>
    have gone : ∀ other ∈ before.offers.push offer free, ¬ other.status.IsLive := by
      intro other found
      rcases (Table.mem_push free).mp found with rfl | old
      · exact not_live_iff.mpr (.inl dead)
      · exact shape.no_live vacant old
    refine ⟨fun id current => ?_, fun other found live => ?_, fun closed => ?_, ⟨fun waiting => ?_, ?_⟩,
      fun other found buyer otherProposed => ?_, shape.single, fun approval asked => ?_⟩
    · exact ⟨counter, Table.mem_push_self next, Option.some.inj current, .inl proposed⟩
    · rcases (Table.mem_push next).mp found with rfl | old
      · rfl
      · exact absurd live (gone other old)
    · exact absurd (active.symm.trans closed) nofun
    · exact absurd (active.symm.trans waiting) nofun
    · rintro ⟨other, found, buyer, otherProposed⟩
      rcases (Table.mem_push next).mp found with rfl | old
      · exact absurd (buyer.symm.trans agent) nofun
      · exact absurd (.inl otherProposed) (gone other old)
    · rcases (Table.mem_push next).mp found with rfl | old
      · exact absurd (buyer.symm.trans agent) nofun
      · exact absurd (.inl otherProposed) (gone other old)
    · obtain ⟨other, found, rest⟩ := standing_push shape free asked
      exact ⟨other, Table.mem_push_of_mem next found, rest⟩

/-! #### The other moves -/

theorem Limits.shape (shape : Shape before) (limits : Limits before after) : Shape after := by
  obtain @⟨approval, expiresAt, member⟩ := limits
  refine ⟨shape.current, shape.live, shape.closed, shape.waiting, fun offer found buyer proposed => ?_,
    single_put shape.single member rfl rfl, fun other found => ?_⟩
  · obtain ⟨asked, askedMember, about⟩ := shape.asked offer found buyer proposed
    by_cases same : asked.id = approval.id
    · obtain rfl := Table.eq_of_key askedMember member same
      exact ⟨_, Table.mem_put_self askedMember rfl, about⟩
    · exact ⟨asked, Table.mem_put_of_mem askedMember same, about⟩
  · rcases Table.mem_of_mem_put found with old | rfl
    · exact shape.standing other old
    · obtain ⟨offer, offerMember, about, buyer, stands⟩ := shape.standing approval member
      refine ⟨offer, offerMember, about, buyer, ?_⟩
      cases stands with
      | waiting open_ effect revision proposed => exact .waiting open_ effect revision proposed
      | applied approved effect revision accepted => exact .applied approved effect revision accepted
      | refused rejected effect revision dead => exact .refused rejected effect revision dead
      | ended closed effect revision dead => exact .ended closed effect revision dead

theorem Closes.shape (shape : Shape before) (closes : Closes before after) : Shape after := by
  obtain ⟨open_, vacant⟩ := closes
  refine ⟨shape.current, shape.live, fun _ => vacant, ⟨nofun, ?_⟩, shape.asked, shape.single,
    shape.standing⟩
  rintro ⟨other, found, _, proposed⟩
  exact absurd (.inl proposed) (shape.no_live vacant found)

theorem Agrees.shape (shape : Shape before) (agrees : Agrees before after) : Shape after := by
  obtain @⟨offer, active, member, live⟩ := agrees
  have quiet : ∀ other ∈ before.offers, ¬ (other.proposer = .buyer ∧ other.status = .proposed) := by
    intro other found asks
    exact absurd (active.symm.trans (shape.waiting_of found asks.1 asks.2)) nofun
  have settled : ∀ other ∈ before.offers.put { offer with status := .accepted },
      ¬ (other.proposer = .buyer ∧ other.status = .proposed) := by
    intro other found asks
    rcases Table.mem_of_mem_put found with old | rfl
    · exact quiet other old asks
    · exact absurd asks.2 nofun
  refine ⟨fun id current => ?_, fun other found otherLive => ?_, nofun, ⟨nofun, ?_⟩,
    fun other found buyer proposed => absurd ⟨buyer, proposed⟩ (settled other found),
    shape.single, fun approval asked => ?_⟩
  · have same := (shape.live offer member live).symm.trans current
    exact ⟨_, Table.mem_put_self member rfl, Option.some.inj same, .inr rfl⟩
  · rcases Table.mem_put.mp found with ⟨old, _⟩ | ⟨rfl, _⟩
    · exact shape.live other old otherLive
    · exact shape.live offer member live
  · rintro ⟨other, found, asks⟩
    exact absurd asks (settled other found)
  · obtain ⟨other, found, about, buyer, stands⟩ := shape.standing approval asked
    by_cases same : other.id = offer.id
    · obtain rfl := Table.eq_of_key found member same
      refine ⟨_, Table.mem_put_self found rfl, about, buyer, ?_⟩
      cases stands with
      | waiting _ _ _ proposed => exact absurd ⟨buyer, proposed⟩ (quiet other found)
      | applied approved effect revision _ => exact .applied approved effect revision rfl
      | refused _ _ _ dead => exact absurd live dead
      | ended _ _ _ dead => exact absurd live dead
    · exact ⟨other, Table.mem_put_of_mem found same, about, buyer, stands⟩

/-- An approval the seller can still answer waits, with its offer. -/
theorem Shape.pending_waits (shape : Shape before) {approval : ApprovalRequest}
    (asked : approval ∈ before.approvals)
    (waits : approval.status = .pending ∨ approval.effectStatus = .notApplied) :
    ∃ offer ∈ before.offers, offer.id = approval.offerId ∧ offer.proposer = .buyer ∧
      offer.status = .proposed ∧ approval.effectStatus = .notApplied ∧
      approval.effectRevision = 0 := by
  obtain ⟨offer, member, about, buyer, stands⟩ := shape.standing approval asked
  cases stands with
  | waiting _ effect revision proposed =>
    exact ⟨offer, member, about, buyer, proposed, effect, revision⟩
  | applied approved effect _ _ => simp_all
  | refused rejected effect _ _ => simp_all
  | ended closed effect _ _ => simp_all

theorem Answers.shape (shape : Shape before) (answers : Answers before after) : Shape after := by
  cases answers with
  | @approved approval decided member pending same status effect =>
    obtain ⟨offer, found, about, buyer, proposed, waits, revision⟩ :=
      shape.pending_waits member (.inl pending)
    refine ⟨shape.current, shape.live, shape.closed, shape.waiting,
      fun other otherFound otherBuyer otherProposed => ?_, single_put shape.single member same.1 same.2,
      fun other otherFound => ?_⟩
    · obtain ⟨asked, askedMember, askedAbout⟩ := shape.asked other otherFound otherBuyer otherProposed
      by_cases key : asked.id = decided.id
      · obtain rfl := Table.eq_of_key askedMember member (key.trans same.1)
        exact ⟨decided, Table.mem_put_self askedMember key, same.2.trans askedAbout⟩
      · exact ⟨asked, Table.mem_put_of_mem askedMember key, askedAbout⟩
    · rcases Table.mem_of_mem_put otherFound with old | rfl
      · exact shape.standing other old
      · exact ⟨offer, found, about.trans same.2.symm, buyer,
          .waiting (.inr status) (effect.1.trans waits) (effect.2.trans revision) proposed⟩
  | @rejected offer ended approval decided member pending found about same status effect key proposer dead =>
    obtain ⟨other, otherFound, otherAbout, buyer, proposed, _, revision⟩ :=
      shape.pending_waits member (.inl pending)
    obtain rfl := Table.eq_of_key otherFound found (otherAbout.trans about.symm)
    have gone : ¬ ended.status.IsLive := not_live_iff.mpr (.inl dead)
    have allDead : ∀ row ∈ before.offers.put ended, ¬ row.status.IsLive := by
      intro row rowFound rowLive
      rcases Table.mem_put.mp rowFound with ⟨old, different⟩ | ⟨rfl, _⟩
      · have clash := shape.live_unique old found rowLive (.inl proposed)
        exact different (clash ▸ key.symm)
      · exact gone rowLive
    refine ⟨nofun, fun row rowFound live => absurd live (allDead row rowFound), nofun, ⟨nofun, ?_⟩,
      fun row rowFound _ asks => absurd (.inl asks) (allDead row rowFound),
      single_put shape.single member same.1 same.2,
      standing_put shape member same.1 same.2 found about key (proposer.trans buyer)
        (.refused status effect.1 (effect.2.trans (congrArg (· + 1) revision)) gone)⟩
    rintro ⟨row, rowFound, _, asks⟩
    exact absurd (.inl asks) (allDead row rowFound)
  | @applied offer approval applied member approved waiting found about result =>
    obtain ⟨other, otherFound, otherAbout, buyer, proposed, _, revision⟩ :=
      shape.pending_waits member (.inr waiting)
    obtain rfl := Table.eq_of_key otherFound found (otherAbout.trans about.symm)
    have current := shape.live other found (.inl proposed)
    have others : ∀ row ∈ before.offers.put { other with status := .accepted },
        row.status.IsLive → row = { other with status := .accepted } := by
      intro row rowFound rowLive
      rcases Table.mem_put.mp rowFound with ⟨old, different⟩ | ⟨rfl, _⟩
      · have clash := shape.live_unique old found rowLive (.inl proposed)
        exact absurd (congrArg Offer.id clash) different
      · rfl
    have answered : ∀ row ∈ before.offers.put { other with status := .accepted },
        row.status ≠ .proposed := by
      intro row rowFound asks
      have same := others row rowFound (.inl asks)
      rw [same] at asks
      cases asks
    subst result
    refine ⟨fun id pointed => ?_, fun row rowFound live => ?_, nofun, ⟨nofun, ?_⟩,
      fun row rowFound _ asks => absurd asks (answered row rowFound),
      single_put shape.single member rfl rfl,
      standing_put shape member rfl rfl found about rfl buyer
        (.applied approved rfl (congrArg (· + 1) revision) rfl)⟩
    · exact ⟨_, Table.mem_put_self found rfl, Option.some.inj (current.symm.trans pointed), .inr rfl⟩
    · rw [others row rowFound live]
      exact current
    · rintro ⟨row, rowFound, _, asks⟩
      exact absurd asks (answered row rowFound)

theorem Move.shape (shape : Shape before) (move : Move before after) : Shape after := by
  cases move with
  | idle same => exact same ▸ shape
  | ended ends => exact ends.shape shape
  | proposed clears places limits =>
    have placed := places.shape (clears.shape shape)
    rcases limits with rfl | limits
    · exact placed
    · exact limits.shape placed
  | limited _ limits => exact limits.shape shape
  | closed clears closes => exact closes.shape (clears.shape shape)
  | answered answers => exact answers.shape shape

/-- Every transaction of a deal keeps its shape. -/
theorem Op.shape (shape : Shape before) (op : Op before after) : Shape after := by
  cases op with
  | moved move => exact move.shape shape
  | agreed agrees => exact agrees.shape shape

/-! ### A deal that is over -/

theorem Places.open_ (places : Places before after) : before.Open := by
  cases places with
  | refused _ open_ _ => exact open_
  | accepted _ active _ _ => exact .inl active
  | asked _ _ active => exact .inl active
  | countered _ _ active => exact .inl active

theorem Ends.open_ (ends : Ends before after) : before.Open := by
  cases ends with
  | alone open_ => exact open_
  | together open_ => exact open_

theorem Cleared.eq_of_over (isOver : before.Over) (clears : Cleared before after) :
    after = before := by
  rcases clears with same | ends
  · exact same
  · exact absurd ends.open_ isOver.not_open

theorem Answers.open_ (shape : Shape before) (answers : Answers before after) : before.Open := by
  have asked : ∀ approval ∈ before.approvals,
      approval.status = .pending ∨ approval.effectStatus = .notApplied → before.Open := by
    intro approval member waits
    obtain ⟨offer, found, _, buyer, proposed, _⟩ := shape.pending_waits member waits
    exact .inr (shape.waiting_of found buyer proposed)
  cases answers with
  | approved member pending => exact asked _ member (.inl pending)
  | rejected member pending => exact asked _ member (.inl pending)
  | applied member _ waiting => exact asked _ member (.inr waiting)

theorem Handles.move (handles : Handles before after) : Move before after := by
  cases handles with
  | idle same => exact .idle same
  | ended ends => exact .ended ends
  | answered answers => exact .answered answers

/-- The seller does not end a session. -/
theorem Handles.over_before (handles : Handles before after) (isOver : after.Over) : before.Over := by
  have opened : after.status = .active → False := fun active => isOver.not_open (.inl active)
  cases handles with
  | idle same => exact same ▸ isOver
  | ended ends =>
    have status : after.status = if before.status = .waitingApproval then .active else before.status := by
      cases ends <;> rfl
    unfold Over at isOver
    split_ifs at status with waits
    · exact (opened status).elim
    · rw [status] at isOver
      exact isOver
  | answered answers =>
    cases answers with
    | approved => exact isOver
    | rejected | applied => exact (opened rfl).elim

theorem Move.eq_of_over (shape : Shape before) (isOver : before.Over) (move : Move before after) :
    after = before := by
  cases move with
  | idle same => exact same
  | ended ends => exact absurd ends.open_ isOver.not_open
  | proposed clears places _ =>
    obtain rfl := Cleared.eq_of_over isOver clears
    exact absurd places.open_ isOver.not_open
  | limited open_ _ => exact absurd open_ isOver.not_open
  | closed clears closes =>
    obtain rfl := Cleared.eq_of_over isOver clears
    obtain ⟨open_, _⟩ := closes
    exact absurd open_ isOver.not_open
  | answered answers => exact absurd (answers.open_ shape) isOver.not_open

/-- Nothing moves a deal that is over. -/
theorem Op.eq_of_over (shape : Shape before) (isOver : before.Over) (op : Op before after) :
    after = before := by
  cases op with
  | moved move => exact move.eq_of_over shape isOver
  | agreed agrees =>
    obtain ⟨active, _, _⟩ := agrees
    exact absurd (.inl active) isOver.not_open

/-! ### What becomes of an approval -/

/-- The decision and the effect of an approval are as they were. -/
structure Steady (old new : ApprovalRequest) : Prop where
  id : new.id = old.id
  offerId : new.offerId = old.offerId
  decision : old.status ≠ .pending → new.status = old.status ∧ new.reviewedAt = old.reviewedAt ∧
    new.sellerComment = old.sellerComment
  effect : new.effectStatus = old.effectStatus ∧ new.effectRevision = old.effectRevision

/-- A decision that was made stays; the effect stays too, or it changes into another one with
the next revision. -/
structure Evolves (old new : ApprovalRequest) : Prop where
  id : new.id = old.id
  offerId : new.offerId = old.offerId
  decision : old.status ≠ .pending → new.status = old.status ∧ new.reviewedAt = old.reviewedAt ∧
    new.sellerComment = old.sellerComment
  effect : (new.effectStatus = old.effectStatus ∧ new.effectRevision = old.effectRevision) ∨
    (old.effectStatus ≠ .invalidated ∧ new.effectStatus ≠ .notApplied ∧
      new.effectStatus ≠ old.effectStatus ∧ new.effectRevision = old.effectRevision + 1)

theorem Steady.refl (approval : ApprovalRequest) : Steady approval approval :=
  ⟨rfl, rfl, fun _ => ⟨rfl, rfl, rfl⟩, rfl, rfl⟩

theorem Steady.evolves {old new : ApprovalRequest} (steady : Steady old new) : Evolves old new :=
  ⟨steady.id, steady.offerId, steady.decision, .inl steady.effect⟩

theorem Evolves.steady {old middle new : ApprovalRequest} (evolves : Evolves old middle)
    (steady : Steady middle new) : Evolves old new where
  id := steady.id.trans evolves.id
  offerId := steady.offerId.trans evolves.offerId
  decision decided := by
    obtain ⟨status, reviewed, comment⟩ := evolves.decision decided
    obtain ⟨laterStatus, laterReviewed, laterComment⟩ := steady.decision (status ▸ decided)
    exact ⟨laterStatus.trans status, laterReviewed.trans reviewed, laterComment.trans comment⟩
  effect := by
    rw [steady.effect.1, steady.effect.2]
    exact evolves.effect

/-- Every approval is there afterwards, as the relation says. -/
def Kept (related : ApprovalRequest → ApprovalRequest → Prop)
    (before after : Table ApprovalRequest.id) : Prop :=
  ∀ approval ∈ before, ∃ new ∈ after, related approval new

theorem kept_same (approvals : Table ApprovalRequest.id) : Kept Evolves approvals approvals :=
  fun approval member => ⟨approval, member, (Steady.refl approval).evolves⟩

theorem Kept.put {related : ApprovalRequest → ApprovalRequest → Prop}
    {approvals : Table ApprovalRequest.id} {approval changed : ApprovalRequest}
    (refl : ∀ row, related row row) (member : approval ∈ approvals)
    (key : changed.id = approval.id) (here : related approval changed) :
    Kept related approvals (approvals.put changed) := by
  intro other found
  by_cases same : other.id = changed.id
  · obtain rfl := Table.eq_of_key found member (same.trans key)
    exact ⟨changed, Table.mem_put_self found same, here⟩
  · exact ⟨other, Table.mem_put_of_mem found same, refl other⟩

theorem Kept.steady {first second third : Table ApprovalRequest.id}
    (evolves : Kept Evolves first second) (steady : Kept Steady second third) :
    Kept Evolves first third := by
  intro approval member
  obtain ⟨between, found, early⟩ := evolves approval member
  obtain ⟨new, last, late⟩ := steady between found
  exact ⟨new, last, early.steady late⟩

/-- What the end of its offer does to an approval that still had an effect. -/
theorem invalidated_evolves {approval : ApprovalRequest} {reason : InvalidReason}
    {expired : Bool} (effective : approval.effectStatus ≠ .invalidated) :
    Evolves approval (approval.invalidated reason expired) := by
  refine ⟨rfl, rfl, fun decided => ⟨if_neg decided, rfl, rfl⟩, .inr ⟨effective, ?_, ?_, rfl⟩⟩
  · show EffectStatus.invalidated ≠ _
    exact EffectStatus.noConfusion
  · exact Ne.symm effective

theorem Standing.effective {approval : ApprovalRequest} {offer : Offer}
    (stands : Standing approval offer) (live : offer.status.IsLive) :
    approval.effectStatus ≠ .invalidated := by
  cases stands with
  | waiting _ effect =>
    rw [effect]
    exact EffectStatus.noConfusion
  | applied _ effect =>
    rw [effect]
    exact EffectStatus.noConfusion
  | refused _ _ _ dead => exact absurd live dead
  | ended _ _ _ dead => exact absurd live dead

theorem Ends.kept (shape : Shape before) (ends : Ends before after) :
    Kept Evolves before.approvals after.approvals := by
  cases ends with
  | alone => exact kept_same _
  | together _ member live asked same =>
    obtain ⟨_, stands⟩ := shape.offer_of asked member same.symm
    refine Kept.put (fun row => (Steady.refl row).evolves) asked ?_ ?_
    · rfl
    · exact invalidated_evolves (stands.effective live)

theorem Cleared.kept (shape : Shape before) (clears : Cleared before after) :
    Kept Evolves before.approvals after.approvals := by
  rcases clears with rfl | ends
  · exact kept_same _
  · exact ends.kept shape

theorem Places.kept (places : Places before after) :
    Kept Steady before.approvals after.approvals := by
  intro approval member
  refine ⟨approval, ?_, .refl approval⟩
  cases places with
  | asked _ unused => exact Table.mem_push_of_mem unused member
  | refused | accepted | countered => exact member

theorem Limits.kept (limits : Limits before after) :
    Kept Steady before.approvals after.approvals := by
  obtain @⟨approval, expiresAt, member⟩ := limits
  refine Kept.put Steady.refl member ?_ ?_
  · rfl
  · exact ⟨rfl, rfl, fun _ => ⟨rfl, rfl, rfl⟩, rfl, rfl⟩

theorem Answers.kept (shape : Shape before) (answers : Answers before after) :
    Kept Evolves before.approvals after.approvals := by
  have refl : ∀ row, Evolves row row := fun row => (Steady.refl row).evolves
  cases answers with
  | approved member pending same status effect =>
    exact Kept.put refl member same.1
      ⟨same.1, same.2, fun decided => absurd pending decided, .inl effect⟩
  | rejected member pending _ _ same status effect =>
    obtain ⟨_, _, _, _, _, waits, _⟩ := shape.pending_waits member (.inl pending)
    refine Kept.put refl member same.1
      ⟨same.1, same.2, fun decided => absurd pending decided, .inr ⟨?_, ?_, ?_, effect.2⟩⟩
    · rw [waits]
      exact EffectStatus.noConfusion
    · rw [effect.1]
      exact EffectStatus.noConfusion
    · rw [effect.1, waits]
      exact EffectStatus.noConfusion
  | applied member _ waiting _ _ result =>
    subst result
    refine Kept.put refl member rfl ⟨rfl, rfl, fun _ => ⟨rfl, rfl, rfl⟩, .inr ⟨?_, ?_, ?_, rfl⟩⟩
    · rw [waiting]
      exact EffectStatus.noConfusion
    · exact EffectStatus.noConfusion
    · rw [waiting]
      exact EffectStatus.noConfusion

theorem Move.kept (shape : Shape before) (move : Move before after) :
    Kept Evolves before.approvals after.approvals := by
  cases move with
  | idle same =>
    rw [same]
    exact kept_same _
  | ended ends => exact ends.kept shape
  | proposed clears places limits =>
    have placed := (clears.kept shape).steady places.kept
    rcases limits with rfl | limits
    · exact placed
    · exact placed.steady limits.kept
  | limited _ limits => exact (kept_same _).steady limits.kept
  | closed clears closes =>
    obtain ⟨_, _⟩ := closes
    have cleared := clears.kept shape
    exact cleared
  | answered answers => exact answers.kept shape

/-- No transaction loses an approval, rewrites a decision or moves an effect in any other way
than to the next revision. -/
theorem Op.kept (shape : Shape before) (op : Op before after) :
    Kept Evolves before.approvals after.approvals := by
  cases op with
  | moved move => exact move.kept shape
  | agreed agrees =>
    obtain ⟨_, _, _⟩ := agrees
    exact kept_same _

/-! ### What becomes of an offer that is over -/

/-- The offers that cannot be acted on are left alone. -/
def Buried (before after : Table Offer.id) : Prop :=
  ∀ offer ∈ before, ¬ offer.status.IsLive → offer ∈ after

theorem Buried.put {offers : Table Offer.id} {offer changed : Offer} (member : offer ∈ offers)
    (live : offer.status.IsLive) (key : changed.id = offer.id) :
    Buried offers (offers.put changed) := by
  intro other found dead
  refine Table.mem_put_of_mem found fun same => dead ?_
  obtain rfl := Table.eq_of_key found member (same.trans key)
  exact live

theorem Buried.trans {first second third : Table Offer.id} (early : Buried first second)
    (late : Buried second third) : Buried first third :=
  fun offer member dead => late offer (early offer member dead) dead

theorem Ends.buried (ends : Ends before after) : Buried before.offers after.offers := by
  cases ends with
  | @alone offer reason _ member live =>
    have key : (offer.invalidated reason).id = offer.id := rfl
    exact Buried.put member live key
  | @together offer _ reason _ _ member live =>
    have key : (offer.invalidated reason).id = offer.id := rfl
    exact Buried.put member live key

theorem Cleared.buried (clears : Cleared before after) : Buried before.offers after.offers := by
  rcases clears with rfl | ends
  · exact fun _ member _ => member
  · exact ends.buried

theorem Places.buried (places : Places before after) : Buried before.offers after.offers := by
  intro offer member _
  cases places with
  | refused free => exact Table.mem_push_of_mem free member
  | accepted free => exact Table.mem_push_of_mem free member
  | asked free => exact Table.mem_push_of_mem free member
  | countered free next => exact Table.mem_push_of_mem next (Table.mem_push_of_mem free member)

theorem Shape.asked_live (shape : Shape before) {approval : ApprovalRequest} {offer : Offer}
    (member : approval ∈ before.approvals)
    (waits : approval.status = .pending ∨ approval.effectStatus = .notApplied)
    (found : offer ∈ before.offers) (about : offer.id = approval.offerId) :
    offer.status.IsLive := by
  obtain ⟨other, otherFound, otherAbout, _, proposed, _⟩ := shape.pending_waits member waits
  obtain rfl := Table.eq_of_key otherFound found (otherAbout.trans about.symm)
  exact .inl proposed

theorem Answers.buried (shape : Shape before) (answers : Answers before after) :
    Buried before.offers after.offers := by
  cases answers with
  | approved => exact fun _ member _ => member
  | rejected member pending found about _ _ _ key =>
    exact Buried.put found (shape.asked_live member (.inl pending) found about) key
  | applied member _ waiting found about =>
    refine Buried.put found (shape.asked_live member (.inr waiting) found about) ?_
    rfl

theorem Move.buried (shape : Shape before) (move : Move before after) :
    Buried before.offers after.offers := by
  cases move with
  | idle same =>
    rw [same]
    exact fun _ member _ => member
  | ended ends => exact ends.buried
  | proposed clears places limits =>
    have placed := clears.buried.trans places.buried
    rcases limits with rfl | limits
    · exact placed
    · obtain ⟨_⟩ := limits
      exact placed
  | limited _ limits =>
    obtain ⟨_⟩ := limits
    exact fun _ member _ => member
  | closed clears closes =>
    obtain ⟨_, _⟩ := closes
    exact clears.buried
  | answered answers => exact answers.buried shape

/-- No transaction changes an offer that was replaced, withdrawn, closed or turned down. -/
theorem Op.buried (shape : Shape before) (op : Op before after) :
    Buried before.offers after.offers := by
  cases op with
  | moved move => exact move.buried shape
  | agreed agrees =>
    obtain ⟨_, member, live⟩ := agrees
    refine Buried.put member live ?_
    rfl

/-! ### Only a confirmation makes a deal agreed -/

theorem Ends.unagreed (ends : Ends before after) (was : before.status ≠ .agreed) :
    after.status ≠ .agreed := by
  have left : (if before.status = .waitingApproval then NegotiationStatus.active
      else before.status) ≠ .agreed := by
    by_cases waiting : before.status = .waitingApproval
    · rw [if_pos waiting]
      exact NegotiationStatus.noConfusion
    · rw [if_neg waiting]
      exact was
  cases ends with
  | alone => exact left
  | together => exact left

theorem Places.unagreed (places : Places before after) (was : before.status ≠ .agreed) :
    after.status ≠ .agreed := by
  cases places with
  | refused | accepted | countered => exact was
  | asked => exact NegotiationStatus.noConfusion

theorem Cleared.unagreed (clears : Cleared before after) (was : before.status ≠ .agreed) :
    after.status ≠ .agreed := by
  rcases clears with rfl | ends
  · exact was
  · exact ends.unagreed was

theorem Move.unagreed (move : Move before after) (was : before.status ≠ .agreed) :
    after.status ≠ .agreed := by
  cases move with
  | idle same =>
    rw [same]
    exact was
  | ended ends => exact ends.unagreed was
  | proposed clears places limits =>
    have placed := places.unagreed (clears.unagreed was)
    rcases limits with rfl | limits
    · exact placed
    · obtain ⟨_⟩ := limits
      exact placed
  | limited _ limits =>
    obtain ⟨_⟩ := limits
    exact was
  | closed _ closes =>
    obtain ⟨_, _⟩ := closes
    exact NegotiationStatus.noConfusion
  | answered answers =>
    cases answers with
    | approved => exact was
    | rejected | applied => exact NegotiationStatus.noConfusion

end

end Deal

end Negotiation
