/-
This file says once what a transaction of the older runtime can do to a room.
Every service is a sequence of the moves below, with the guards that the service
has checked; what holds of rooms is then shown move by move.
-/

import Mathlib.Logic.Relation
import SecondhandAgent.Legacy.System

namespace Negotiation.Legacy

open Store

/-! ### The moves -/

/-- One thing that happens to a room, apart from a confirmation and a follow-up; the rows that are
new have the given keys. -/
inductive Room.Move (now : Time) (keys : Nat → Prop) (room : Room) : Room → Prop
  /-- A message of the chat that comes with no change. -/
  | said {message : Message} {later : Room} (done : room.post message = .ok later)
      (key : keys message.id)
      (spoken : message.role = .agent ∨ message.role = .buyer)
      (silent : storedOutcome message.agentOutcome = none)
      (buyer : message.role = .buyer →
        message.formalOfferId = none ∧ ValidRequestId message.requestId) :
      Move now keys room later
  /-- An offer of the buyer, with the message it is in. -/
  | offered {offer : Offer} {message : Message} {proposed later : Room}
      (active : room.session.status = .active) (buyer : offer.proposer = .buyer)
      (open_ : offer.status = .proposed) (offered : room.propose offer = .ok proposed)
      (role : message.role = .buyer) (named : message.formalOfferId = some offer.id)
      (silent : storedOutcome message.agentOutcome = none)
      (valid : ValidRequestId message.requestId)
      (done : proposed.nextRound.post message = .ok later)
      (key : keys offer.id) (messageKey : keys message.id) :
      Move now keys room later
  | countered {offer : Offer} {later : Room} (active : room.session.status = .active)
      (agent : offer.proposer = .agent) (open_ : offer.status = .proposed)
      (done : room.propose offer = .ok later) (key : keys offer.id) :
      Move now keys room later
  | accepted {offer : Offer} (active : room.session.status = .active)
      (current : room.session.currentOfferId = some offer.id)
      (found : room.offers.get offer.id = some offer) :
      Move now keys room { room.setOffer offer .accepted with session := room.session.next }
  | requested {approval : ApprovalRequest} {offer : Offer} {later : Room}
      (active : room.session.status = .active)
      (current : room.session.currentOfferId = some approval.offerId)
      (found : room.offers.get approval.offerId = some offer) (buyer : offer.proposer = .buyer)
      (open_ : offer.status = .proposed) (pending : approval.status = .pending)
      (unreviewed : approval.followupStatus = none ∧ approval.followupRequestId = none)
      (done : room.request approval = .ok later) (key : keys approval.id) :
      Move now keys room later
  | dismissed {approval : ApprovalRequest} {status : ApprovalStatus}
      (found : room.approvals.get approval.id = some approval)
      (pending : approval.status = .pending) (ending : status = .expired ∨ status = .cancelled) :
      Move now keys room (room.dismiss approval status)
  | reviewed {approval : ApprovalRequest} {offer : Offer} {requestId : String}
      {comment : Option String} {approved : Bool}
      (found : room.approvals.get approval.id = some approval)
      (pending : approval.status = .pending)
      (waiting : room.session.status = .waitingApproval)
      (current : room.session.currentOfferId = some offer.id)
      (about : room.offers.get approval.offerId = some offer) (open_ : offer.status = .proposed)
      (unique : ∀ other ∈ room.approvals, other.id ≠ approval.id →
        other.followupRequestId ≠ some requestId) :
      Move now keys room (room.review approval offer approved requestId comment now)
  | closed {requestId : RequestId} {messageId : Nat} {later : Room} (open_ : room.Open)
      (done : (room.cancelPending.withStatus .closed).post
        { id := messageId, role := .system, requestId := systemRequestId "close" requestId.text
          agentOutcome := some .negotiationClosed } = .ok later) (key : keys messageId) :
      Move now keys room later
  /-- The follow-up of an approval is left for another time, or to the seller. -/
  | marked {approval : ApprovalRequest} {status : Option ApprovalFollowupStatus}
      (found : room.approvals.get approval.id = some approval)
      (unsent : status ≠ some .sent ∨ status = approval.followupStatus) :
      Move now keys room (room.setApproval { approval with followupStatus := status })
  /-- The message of the follow-up is there. -/
  | sent {approval : ApprovalRequest} {message : Message} {requestId : String}
      (found : room.approvals.get approval.id = some approval)
      (key : approval.followupRequestId = some requestId)
      (told : room.messageByRequestId requestId = some message)
      (outcome : storedOutcome message.agentOutcome ≠ none) :
      Move now keys room (room.setApproval { approval with followupStatus := some .sent })

/-- The buyer agrees to the current offer. -/
structure Room.Confirms (goods : Option Goods) (now : Time) (room : Room) (offer : Offer)
    (policy : SellerPolicy) (requestId : RequestId) (messageId : Nat) (later : Room) : Prop where
  active : room.session.status = .active
  current : room.session.currentOfferId = some offer.id
  available : Available goods
  found : room.offers.get offer.id = some offer
  lasting : ¬ Expired offer.expiresAt now
  ruled : policyOf goods = some policy
  done : ∃ source, confirmationSource room offer policy = .ok source ∧
    { room.setOffer offer .accepted with
      session := room.session.agreedOn offer.id requestId.text source now }.post
        { id := messageId, role := .system
          requestId := systemRequestId "confirm" requestId.text
          formalOfferId := some offer.id } = .ok later

/-- The buyer is told how the seller has decided: the event that the model was told of, or that
the review is void. -/
structure Room.Tells (context : FollowupContext) (event : ApprovalFollowupEvent) (void : Bool)
    (now : Time) (messageId : Nat) (later : Room) : Prop where
  found : context.room.approvals.get context.approval.id = some context.approval
  about : context.room.offers.get context.approval.offerId = some context.offer
  resolved : resolveEvent context now = .ok event
  done : ∃ requestId, context.approval.followupRequestId = some requestId ∧
    context.room.messageByRequestId requestId = none ∧
    (if void = true ∧ ¬ context.VoidAndCurrent event then context.room
      else applySuccessfulEvent context event).persistMessage context messageId requestId
        (if void then .invalidated else event) (if void then .invalidated else event) = .ok later

/-- What the other transactions do to a room. -/
abbrev Room.Moves (now : Time) (keys : Nat → Prop) : Room → Room → Prop :=
  Relation.ReflTransGen (Room.Move now keys)

/-! ### What the operations on a room leave alone -/

section

variable {room later : Room} {offer : Offer} {approval : ApprovalRequest} {message : Message}
variable {goods : Option Goods} {now : Time}

theorem post_eq_ok : room.post message = .ok later ↔
    room.messageByRequestId message.requestId = none ∧
      ∃ messages, room.messages.insert message ServiceError.unique = .ok messages ∧
        later = { room with messages } := by
  unfold Room.post
  simp only [bind_eq_ok, require_eq_ok, pure_eq_ok]
  constructor
  · rintro ⟨_, free, messages, inserted, rfl⟩
    exact ⟨free, messages, inserted, rfl⟩
  · rintro ⟨free, messages, inserted, rfl⟩
    exact ⟨(), free, messages, inserted, rfl⟩

theorem request_eq_ok : room.request approval = .ok later ↔
    (∀ other ∈ room.approvals, other.offerId ≠ approval.offerId) ∧ room.pending = none ∧
      ∃ approvals, room.approvals.insert approval
          (ServiceError.approvalConflict "当前会话或报价已经存在审批请求") = .ok approvals ∧
        later = { room.withStatus .waitingApproval with approvals } := by
  unfold Room.request
  simp only [bind_eq_ok, require_eq_ok, pure_eq_ok]
  constructor
  · rintro ⟨_, single, _, free, approvals, inserted, rfl⟩
    exact ⟨single, free, approvals, inserted, rfl⟩
  · rintro ⟨single, free, approvals, inserted, rfl⟩
    exact ⟨(), single, (), free, approvals, inserted, rfl⟩

theorem propose_eq_ok : room.propose offer = .ok later ↔
    ∃ offers, (room.supersedeCurrentOffer offer.proposer).offers.insert offer
        ServiceError.unique = .ok offers ∧
      later =
        { room.supersedeCurrentOffer offer.proposer with
          offers
          session :=
            { (room.supersedeCurrentOffer offer.proposer).session.next with
              currentOfferId := some offer.id } } := by
  unfold Room.propose
  simp only [bind_eq_ok, pure_eq_ok]
  exact exists_congr fun offers => and_congr_right fun _ => eq_comm

@[simp] theorem supersedeCurrentOffer_session (room : Room) (proposer : OfferProposer) :
    (room.supersedeCurrentOffer proposer).session = room.session := by
  unfold Room.supersedeCurrentOffer
  split
  · rfl
  · split <;> rfl

@[simp] theorem supersedeCurrentOffer_approvals (room : Room) (proposer : OfferProposer) :
    (room.supersedeCurrentOffer proposer).approvals = room.approvals := by
  unfold Room.supersedeCurrentOffer
  split
  · rfl
  · split <;> rfl

@[simp] theorem supersedeCurrentOffer_messages (room : Room) (proposer : OfferProposer) :
    (room.supersedeCurrentOffer proposer).messages = room.messages := by
  unfold Room.supersedeCurrentOffer
  split
  · rfl
  · split <;> rfl

@[simp] theorem restoreActive_offers (room : Room) : room.restoreActive.offers = room.offers := by
  unfold Room.restoreActive
  split <;> rfl

@[simp] theorem restoreActive_approvals (room : Room) :
    room.restoreActive.approvals = room.approvals := by
  unfold Room.restoreActive
  split <;> rfl

@[simp] theorem restoreActive_messages (room : Room) :
    room.restoreActive.messages = room.messages := by
  unfold Room.restoreActive
  split <;> rfl

theorem restoreActive_status (room : Room) :
    room.restoreActive.session.status =
      if room.session.status = .waitingApproval then .active else room.session.status := by
  unfold Room.restoreActive
  split <;> rfl

/-- The fields of a session that only a new offer or a confirmation writes. -/
structure SameStanding (one two : NegotiationSession) : Prop where
  id : two.id = one.id
  productId : two.productId = one.productId
  buyerId : two.buyerId = one.buyerId
  graphVersion : two.graphVersion = one.graphVersion
  currentOfferId : two.currentOfferId = one.currentOfferId
  confirmedOfferId : two.confirmedOfferId = one.confirmedOfferId
  roundCount : two.roundCount = one.roundCount

theorem SameStanding.refl (session : NegotiationSession) : SameStanding session session :=
  ⟨rfl, rfl, rfl, rfl, rfl, rfl, rfl⟩

theorem restoreActive_standing (room : Room) :
    SameStanding room.session room.restoreActive.session := by
  unfold Room.restoreActive
  split
  · exact ⟨rfl, rfl, rfl, rfl, rfl, rfl, rfl⟩
  · exact .refl _

theorem cancelPending_eq (room : Room) :
    room.cancelPending = room ∨ ∃ approval, room.pending = some approval ∧
      room.cancelPending = room.setApproval { approval with status := .cancelled } := by
  unfold Room.cancelPending
  split
  · exact .inl rfl
  · next approval found => exact .inr ⟨approval, found, rfl⟩

@[simp] theorem cancelPending_session (room : Room) :
    room.cancelPending.session = room.session := by
  obtain same | ⟨approval, -, made⟩ := cancelPending_eq room
  · rw [same]
  · rw [made]; rfl

@[simp] theorem cancelPending_offers (room : Room) : room.cancelPending.offers = room.offers := by
  obtain same | ⟨approval, -, made⟩ := cancelPending_eq room
  · rw [same]
  · rw [made]; rfl

@[simp] theorem cancelPending_messages (room : Room) :
    room.cancelPending.messages = room.messages := by
  obtain same | ⟨approval, -, made⟩ := cancelPending_eq room
  · rw [same]
  · rw [made]; rfl

theorem pending_eq_some (found : room.pending = some approval) :
    approval ∈ room.approvals ∧ approval.status = .pending :=
  ⟨List.mem_of_find?_eq_some found, by simpa using List.find?_some found⟩

theorem pending_eq_none (none_ : room.pending = none) :
    ∀ approval ∈ room.approvals, approval.status ≠ .pending := fun approval member => by
  simpa using List.find?_eq_none.mp none_ approval member

theorem messageByRequestId_eq_some {requestId : String}
    (found : room.messageByRequestId requestId = some message) :
    message ∈ room.messages ∧ message.requestId = requestId :=
  ⟨List.mem_of_find?_eq_some found, by simpa using List.find?_some found⟩

theorem messageByRequestId_eq_none {requestId : String} :
    room.messageByRequestId requestId = none ↔
      ∀ message ∈ room.messages, message.requestId ≠ requestId := by
  unfold Room.messageByRequestId
  simp only [List.find?_eq_none, decide_eq_true_eq]
  rfl

/-- The status of an offer after an event. -/
def eventStatus (event : ApprovalFollowupEvent) (offer : Offer) : OfferStatus :=
  match event with
  | .approved => .accepted
  | .invalidated => if offer.status = .proposed then .withdrawn else offer.status
  | .rejected => offer.status

theorem setOffer_self (found : room.offers.get offer.id = some offer) :
    room.setOffer offer offer.status = room := by
  unfold Room.setOffer
  rw [Table.put_of_mem (Table.mem_of_get found)]

theorem setOffer_get {status : OfferStatus} (found : room.offers.get offer.id = some offer)
    (id : Nat) : (room.setOffer offer status).offers.get id =
      if id = offer.id then some { offer with status } else room.offers.get id := by
  have changed : room.offers.get ({ offer with status } : Offer).id = some offer := found
  exact Table.get_put changed

theorem applySuccessfulEvent_eq {context : FollowupContext} {event : ApprovalFollowupEvent}
    (found : context.room.offers.get context.offer.id = some context.offer) :
    applySuccessfulEvent context event =
      (context.room.setOffer context.offer (eventStatus event context.offer)).restoreActive := by
  unfold applySuccessfulEvent eventStatus
  cases event with
  | approved => rfl
  | rejected => exact congrArg Room.restoreActive (setOffer_self found).symm
  | invalidated =>
    by_cases open_ : context.offer.status = .proposed
    · simp only [open_, if_true]
    · simp only [open_, if_false]
      exact congrArg Room.restoreActive (setOffer_self found).symm

theorem persistMessage_eq_ok {context : FollowupContext} {messageId : Nat} {requestId : String}
    {event outcome : ApprovalFollowupEvent} :
    room.persistMessage context messageId requestId event outcome = .ok later ↔
      ∃ posted, room.post
          { id := messageId, role := .agent, requestId, agentOutcome := some outcome.outcome
            formalOfferId := if event = .approved then some context.offer.id else none } =
          .ok posted ∧
        later = posted.setApproval { context.approval with followupStatus := some .sent } := by
  unfold Room.persistMessage
  simp only [bind_eq_ok, pure_eq_ok]
  exact exists_congr fun posted => and_congr_right fun _ => eq_comm

end

end Negotiation.Legacy
