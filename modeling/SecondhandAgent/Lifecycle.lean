/-
This file models the writes that end an offer or an approval. The decision of
the seller and the effect of the decision are kept apart: an approval that is
invalidated keeps the decision it has, its effect revision moves on, and the
receipt, the event and the notice of the revision are written with it.
-/

import SecondhandAgent.Evidence

namespace Negotiation

open Store

/-! ### Events and notices -/

/-- Record an event of an approval unless it is recorded already. -/
def eventInTransaction (db : Db) (approvalId : Nat) (suffix : ApprovalSuffix)
    (payload : EventPayload) : Db :=
  { db with
    outbox := db.outbox.insertIgnore
      { id := .approval approvalId suffix, approvalId := some approvalId, payload } }

/-- The row of the notice that tells the buyer of the approval's present effect. -/
def effectDelivery (approval : ApprovalRequest) (businessVersion : Nat) (outcome : Outcome)
    (now : Time) : NotificationDelivery where
  id := .approvalResult approval.id approval.effectRevision
  approvalId := some approval.id
  result :=
    { outcome
      offerId := some approval.offerId
      approvalId := some approval.id
      effectRevision := some approval.effectRevision
      businessVersion := some businessVersion
      invalidReason := approval.invalidReason }
  replyDeadline := now

/-- Record the notice of the approval's present effect, once. -/
def effectNotice (db : Db) (approval : ApprovalRequest) (outcome : Outcome) (now : Time) : Db :=
  let source := SourceId.approvalResult approval.id approval.effectRevision
  { db with
    deliveries := db.deliveries.insertIgnore
      (effectDelivery approval db.session.version outcome now)
    outbox := db.outbox.insertIgnore
      { id := .delivery source, deliveryId := some source, payload := .delivery source } }

/-- The execution and the first event of a new approval. -/
def startApproval (db : Db) (approvalId : Nat) : Except Failure Db := do
  let executions ← db.executions.insert { approvalId } .unique
  pure (eventInTransaction { db with executions } approvalId .requested (.requested approvalId))

/-- The approval of an offer; the column `offer_id` is unique. -/
def Db.approvalOf (db : Db) (offerId : Nat) : Option ApprovalRequest :=
  db.approvals.rows.find? fun approval => approval.offerId = offerId

/-! ### Invalidation -/

def InvalidReason.text : InvalidReason → String
  | .replaced => "REPLACED"
  | .withdrawn => "WITHDRAWN"
  | .closed => "CLOSED"
  | .sellerRejected => "SELLER_REJECTED"
  | .approvalExpired => "APPROVAL_EXPIRED"
  | .offerBasisInvalid => "OFFER_BASIS_INVALID"

/-- The approval without its effect. A decision that was made stays. -/
def ApprovalRequest.invalidated (approval : ApprovalRequest) (reason : InvalidReason)
    (expired : Bool) : ApprovalRequest :=
  { approval with
    status :=
      if approval.status = .pending then (if expired then .expired else .cancelled)
      else approval.status
    effectStatus := .invalidated
    effectRevision := approval.effectRevision + 1
    invalidReason := some reason }

/-- An offer that can no longer be acted on. -/
def Offer.invalidated (offer : Offer) (reason : InvalidReason) : Offer :=
  { offer with
    status := if offer.proposer = .buyer then .withdrawn else .rejected
    invalidReason := some reason }

/-- The session after one of its offers ended. -/
def NegotiationSession.withoutOffer (session : NegotiationSession) (offerId : Nat) :
    NegotiationSession :=
  if session.currentOfferId = some offerId then
    { session with
      currentOfferId := none
      status := if session.status = .waitingApproval then .active else session.status }
  else session

/-- `close_drafts`: no draft of a closed session can be gone on with. -/
def closeDrafts (db : Db) : Db :=
  { db with
    drafts := db.drafts.change
      (fun draft =>
        if draft.status = .pending ∨ draft.status = .ready then
          { draft with status := .withdrawn }
        else draft)
      fun draft => by split <;> rfl }

variable [Platform]

/-- End the effect of an approval, once. -/
def invalidateApproval (db : Db) (approval : ApprovalRequest) (now : Time)
    (reason : InvalidReason) (expired : Bool) (beforeVersion afterVersion : Nat) :
    Except Failure Db :=
  if approval.effectStatus = .invalidated then pure db
  else do
    let ended := approval.invalidated reason expired
    let receipts ← db.receipts.insert
      { id := .approvalInvalidate ended.id ended.effectRevision
        commandHash :=
          digest (.list [.number ended.id, .number ended.effectRevision, .text reason.text])
        result := .business
          { outcome := .approvalInvalidated
            approvalId := some ended.id
            offerId := some ended.offerId
            invalidReason := some reason }
        beforeVersion
        afterVersion
        committedAt := now } .unique
    let written := { db with receipts, approvals := db.approvals.put ended }
    let announced := eventInTransaction written ended.id (.invalidated ended.effectRevision)
      (.invalidated ended.id)
    pure (effectNotice announced ended .approvalInvalidated now)

/-- End the effect of the approval of an offer, if it has one. -/
def invalidateApprovalOf (db : Db) (offerId : Nat) (now : Time) (reason : InvalidReason)
    (afterVersion : Nat) : Except Failure Db :=
  match db.approvalOf offerId with
  | none => pure db
  | some approval =>
    invalidateApproval db approval now reason false db.session.version afterVersion

/-- End an offer that can still be acted on, together with its approval. The version is
raised by the caller. -/
def invalidateOffer (db : Db) (offer : Option Offer) (now : Time) (reason : InvalidReason) :
    Except Failure Db :=
  match offer with
  | none => pure db
  | some offer =>
    if offer.status.IsLive then
      let ended :=
        { db with
          offers := db.offers.put (offer.invalidated reason)
          session := db.session.withoutOffer offer.id }
      invalidateApprovalOf ended offer.id now reason
        (db.session.version + if db.session.currentOfferId = some offer.id then 1 else 0)
    else pure db

end Negotiation
