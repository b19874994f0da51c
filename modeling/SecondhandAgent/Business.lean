/-
This file models the business operations on a session: the test that the basis
of an offer still holds, the proposal of a buyer with its automatic acceptance,
approval or counter-offer, the final confirmation, the withdrawal and the end
of a session. They run inside the transaction of a command.
-/

import SecondhandAgent.Lifecycle

namespace Negotiation

open Store

/-! ### The basis of an offer -/

def ProductStatus.text : ProductStatus → String
  | .draft => "DRAFT"
  | .available => "AVAILABLE"
  | .unavailable => "UNAVAILABLE"

/-- The offer the session is about. -/
def Db.currentOffer (db : Db) : Option Offer := db.session.currentOfferId.bind db.offers.get

/-- The end of the time in which the offer can be confirmed. -/
def confirmationExpiry (db : Db) (offer : Offer) (now : Time) : Except Failure Time :=
  let expiry := min offer.expiresAt (now + minutes 30)
  match db.bases.get offer.id with
  | none => pure expiry
  | some basis => do
    let quote ← expect (db.quotes.get basis.costQuoteId) .missing
    pure (min expiry quote.expiresAt)

/-- `_new_offer`: the row of an offer with the given terms. -/
def newOffer (id : Nat) (proposer : OfferProposer) (terms : Terms) (expiresAt : Time) :
    Except Failure Offer := do
  let discount ← expect (terms.sellerDiscount.map (·.money))
    (.invalidOfferTerms "卖家承担的优惠金额必须明确")
  pure
    { id
      proposer
      price := terms.amount.money
      shippingPaidBy := terms.shippingPaidBy
      shippingCost := terms.shippingCost.map (·.money)
      sellerBorneDiscount := discount
      terms := terms.additionalTerms
      status := .proposed
      expiresAt }

/-- The answer to a proposal that repeats the current offer. -/
def repeatedResult (db : Db) (current : Offer) : Result where
  outcome := if current.status = .accepted then .offerAccepted else .waitingApproval
  offerId := some current.id
  approvalId := (db.approvalOf current.id).map (·.id)
  reused := true

/-- Ask the seller to approve an offer; a session has at most one open request. -/
def openApproval (db : Db) (offer : Offer) (now : Time) : Except Failure (Db × Result) := do
  let approvalId := db.nextId
  require (db.approvalOf offer.id = none ∧
    ∀ approval ∈ db.approvals.rows, approval.status ≠ .pending) .unique
  let approvals ← db.approvals.insert
    { id := approvalId
      offerId := offer.id
      policyVersion := db.policy.version
      status := .pending
      effectStatus := .notApplied
      effectRevision := 0
      expiresAt := min (datetime (now + minutes 30)) offer.expiresAt } .unique
  let started ← startApproval
    { db with
      approvals
      nextId := db.nextId + 1
      session :=
        { db.session with currentOfferId := some offer.id, status := .waitingApproval } }
    approvalId
  pure (started,
    { outcome := .waitingApproval, offerId := some offer.id, approvalId := some approvalId })

/-- A counter-offer has to be authorized by itself. -/
def checkCounter (policy : SellerPolicy) (counterTerms : Option Terms) :
    Except Failure Unit :=
  match counterTerms with
  | none => pure ()
  | some terms => do
    let authorization ← authorized terms policy
    require (authorization.canSubmitCounterOffer = true) (.conflict "还价候选自身未获自动授权")

/-- What the confirmed offer was authorized by. -/
def confirmationSourceOf (db : Db) (offer : Offer) : ConfirmationSource :=
  if (db.approvalOf offer.id).map (·.effectStatus) = some .applied then .sellerApprovedBuyerOffer
  else
    match offer.proposer with
    | .agent => .agentCounter
    | .buyer => .autoAcceptedBuyerOffer

/-- The current offer is a live one of the buyer and the one the withdrawal names. -/
def Withdrawable (payload : TypedInput) (offer : Offer) : Prop :=
  payload.offerId = some offer.id ∧ offer.proposer = .buyer ∧ offer.status.IsLive

instance (payload : TypedInput) (offer : Offer) : Decidable (Withdrawable payload offer) :=
  inferInstanceAs (Decidable (_ ∧ _ ∧ _))

variable [Platform]

def productHash (product : Product) : Digest :=
  digest (.object
    [("title", .text product.title),
      ("description", .text product.description),
      ("price", .text product.listedPrice.text),
      ("status", .text product.status.text)])

def termsHash (offer : Offer) : Digest :=
  digest (.object
    [("amount", .text offer.price.text),
      ("payer", .text offer.shippingPaidBy.text),
      ("shipping_cost", .option (fun cost => .text cost.text) offer.shippingCost),
      ("discount", .text offer.sellerBorneDiscount.text),
      ("terms", additionalJson offer.terms)])

/-- The authorization of an offer under the present policy still covers what was recorded
when it was made. -/
def AuthorizationHolds (db : Db) (offer : Offer) (authorization : OfferAuthorization) : Prop :=
  (offer.proposer = .agent → authorization.canSubmitCounterOffer = true) ∧
    (offer.status = .accepted → authorization.canAcceptAutomatically = true ∨
      db.approvalOf offer.id ≠ none) ∧
    authorization.isAcceptanceProhibited = false ∧ authorization.conditionsValid = true ∧
    Found (db.evidence.get offer.id) fun proof =>
      proof.policyVersion = db.policy.version ∧ proof.productHash = productHash db.product ∧
        proof.termsHash = termsHash offer

instance (db : Db) (offer : Offer) (authorization : OfferAuthorization) :
    Decidable (AuthorizationHolds db offer authorization) := by
  delta AuthorizationHolds
  infer_instance

/-- `basis_valid`: the offer is the current one and everything it rests on still holds. -/
def BasisValid (db : Db) (offer : Offer) (now : Time) : Prop :=
  db.session.currentOfferId = some offer.id ∧
    (db.session.status = .active ∨ db.session.status = .waitingApproval) ∧
    db.product.status = .available ∧ offer.status.IsLive ∧ now < offer.expiresAt ∧
    (db.session.graphVersion.isSemantic = true → validBasis db offer now = true) ∧
    Succeeds (offerAuthorization offer db.policy) (AuthorizationHolds db offer)

instance (db : Db) (offer : Offer) (now : Time) : Decidable (BasisValid db offer now) := by
  delta BasisValid
  infer_instance

/-- An approval that was given in time, under the present policy, and has been applied. -/
def ApprovalStands (db : Db) (approval : ApprovalRequest) : Prop :=
  approval.status = .approved ∧ approval.effectStatus = .applied ∧
    approval.policyVersion = db.policy.version ∧
    Found approval.reviewedAt fun reviewed => reviewed < approval.expiresAt

instance (db : Db) (approval : ApprovalRequest) : Decidable (ApprovalStands db approval) := by
  delta ApprovalStands
  infer_instance

/-- The seller stands by the offer: by the automatic zone for a counter-offer and for an
accepted buyer offer without an approval, by the approval for one that has it. -/
def SellerStands (db : Db) (offer : Offer) (authorization : OfferAuthorization) : Prop :=
  (offer.proposer = .agent ∧ offer.status = .proposed ∧
      authorization.canSubmitCounterOffer = true) ∨
    (offer.proposer = .buyer ∧ offer.status = .accepted ∧
      ((db.approvalOf offer.id = none ∧ authorization.canAcceptAutomatically = true) ∨
        Found (db.approvalOf offer.id) (ApprovalStands db)))

instance (db : Db) (offer : Offer) (authorization : OfferAuthorization) :
    Decidable (SellerStands db offer authorization) := by
  delta SellerStands
  infer_instance

/-- `valid_offer`: the buyer can confirm the offer now. -/
def ValidOffer (db : Db) (offer : Offer) (now : Time) : Prop :=
  db.session.status = .active ∧ BasisValid db offer now ∧
    Succeeds (offerAuthorization offer db.policy) (SellerStands db offer)

instance (db : Db) (offer : Offer) (now : Time) : Decidable (ValidOffer db offer now) := by
  delta ValidOffer
  infer_instance

/-! ### New offers -/

/-- Record an offer with the evidence it is made on. -/
def newOfferInTransaction (db : Db) (terms : Terms) (proposer : OfferProposer) (now : Time) :
    Except Failure (Db × Offer) := do
  let offer ← newOffer db.nextId proposer terms (datetime (now + hours 24))
  let offers ← db.offers.insert offer .unique
  let evidence ← db.evidence.insert
    { offerId := offer.id
      termsHash := termsHash offer
      policyVersion := db.policy.version
      productHash := productHash db.product } .unique
  pure ({ db with offers, evidence, nextId := db.nextId + 1 }, offer)

/-! ### Proposals -/

/-- The basis of the current offer was recorded for the same candidate and still holds. -/
def SameSemantics (db : Db) (current : Offer) (candidate : Option Candidate) (now : Time) :
    Prop :=
  match candidate with
  | none => db.session.graphVersion.isSemantic = false
  | some candidate =>
    Found (db.bases.get current.id) (fun basis => basis.candidate = candidate) ∧
      validBasis db current now = true

instance (db : Db) (current : Offer) (candidate : Option Candidate) (now : Time) :
    Decidable (SameSemantics db current candidate now) :=
  match candidate with
  | none => inferInstanceAs (Decidable (_ = false))
  | some _ => inferInstanceAs (Decidable (_ ∧ _))

/-- The proposal repeats the current offer, which is still good: it costs no round. -/
def Repeats (db : Db) (current : Offer) (terms : Terms) (candidate : Option Candidate)
    (now : Time) : Prop :=
  current.proposer = .buyer ∧ current.status.IsLive ∧ now < current.expiresAt ∧
    Succeeds (newOffer current.id .buyer terms current.expiresAt)
      (fun proposal => termsHash current = termsHash proposal) ∧
    Found (db.evidence.get current.id) (fun proof =>
      proof.policyVersion = db.policy.version ∧ proof.productHash = productHash db.product) ∧
    SameSemantics db current candidate now

instance (db : Db) (current : Offer) (terms : Terms) (candidate : Option Candidate)
    (now : Time) : Decidable (Repeats db current terms candidate now) := by
  delta Repeats
  infer_instance

/-- Turn an offer down, and make the counter-offer if there is one. -/
def rejectProposal (db : Db) (offer : Offer) (counterTerms : Option Terms) (now : Time) :
    Except Failure (Db × Result) := do
  let rejected := { db with offers := db.offers.put { offer with status := .rejected } }
  match counterTerms with
  | none => pure (rejected, { outcome := .offerRejected, offerId := some offer.id })
  | some terms => do
    let (countered, counter) ← newOfferInTransaction rejected terms .agent now
    pure
      ({ countered with session := { countered.session with currentOfferId := some counter.id } },
        { outcome := .counterOffered, offerId := some counter.id, buyerOfferId := some offer.id })

/-- What becomes of a new buyer offer. -/
def resolution (db : Db) (offer : Offer) (authorization : OfferAuthorization)
    (counterTerms : Option Terms) (now : Time) : Except Failure (Db × Result) :=
  if authorization.canAcceptAutomatically then
    pure
      ({ db with
          offers := db.offers.put { offer with status := .accepted }
          session := { db.session with currentOfferId := some offer.id } },
        { outcome := .offerAccepted, offerId := some offer.id })
  else if authorization.canRequestApproval then openApproval db offer now
  else rejectProposal db offer counterTerms now

/-- A proposal that prices below the floor counts as a round but leaves the current offer
alone. -/
def clearCurrent (db : Db) (rejected : Bool) (now : Time) : Except Failure Db :=
  if rejected then pure db else invalidateOffer db db.currentOffer now .replaced

/-- Record a new buyer offer in the place of the current one. -/
def propose (db : Db) (terms : Terms) (counterTerms : Option Terms)
    (authorization : OfferAuthorization) (now : Time) (fault : Option FaultPoint) :
    Except Failure (Db × Result) := do
  require (db.session.roundCount < db.policy.maxRounds) (.conflict "已达到最大议价轮次")
  checkCounter db.policy counterTerms
  raiseAt fault .authorization
  let cleared ← clearCurrent db
    (authorization.isAcceptanceProhibited && counterTerms.isNone) now
  let (proposed, offer) ← newOfferInTransaction cleared terms .buyer now
  raiseAt fault .offer
  let counted :=
    { proposed with
      session :=
        { proposed.session with
          roundCount := proposed.session.roundCount + 1
          version := proposed.session.version + 1 } }
  raiseAt fault .round
  let (resolved, result) ← resolution counted offer authorization counterTerms now
  raiseAt fault .resolution
  pure (resolved, result)

/-- `resolve_offer_in_transaction` -/
def resolveOfferInTransaction (db : Db) (payload : TypedInput) (terms : Terms)
    (candidate : Option Candidate) (now : Time) (fault : Option FaultPoint) :
    Except Failure (Db × Result) := do
  require (db.product.status = .available) (.conflict "商品当前不可协商")
  let authorization ← authorized terms db.policy
  require (authorization.conditionsValid = true) (.conflict "附加条款尚不支持")
  let current := db.currentOffer
  require (payload.kind = .replace → current ≠ none ∧ payload.offerId = current.map (·.id))
    (.conflict "只能替代当前报价")
  match current.filter fun offer => Repeats db offer terms candidate now with
  | some offer => do
    raiseAt fault .authorization
    pure (db, repeatedResult db offer)
  | none => propose db terms payload.counterTerms authorization now fault

/-! ### Confirmation -/

/-- The display of an offer that a confirmation refers to: it was shown to the buyer, in the
view the confirmation comes from, before the confirmation was received, and it shows the terms
and the version that are in force. -/
def ShownBefore (db : Db) (offer : Offer) (ack : DisplayAck) (context : PublicInteractionContext)
    (payload : TypedInput) (run : NegotiationInput) (now : Time) : Prop :=
  ack.buyerId = db.session.buyerId ∧ context.buyerId = db.session.buyerId ∧
    ack.clientViewId = payload.clientViewId ∧ context.offerId = some offer.id ∧
    context.businessVersion = db.session.version ∧ context.termsHash = .offer (termsHash offer) ∧
    ack.displayedAt ≤ run.receivedAt ∧ context.publicSeq ≤ run.seenPublicMessageSeq ∧
    now < context.expiresAt

instance (db : Db) (offer : Offer) (ack : DisplayAck) (context : PublicInteractionContext)
    (payload : TypedInput) (run : NegotiationInput) (now : Time) :
    Decidable (ShownBefore db offer ack context payload run now) :=
  inferInstanceAs (Decidable (_ ∧ _ ∧ _ ∧ _ ∧ _ ∧ _ ∧ _ ∧ _ ∧ _))

/-- `confirm_in_transaction` -/
def confirmInTransaction (db : Db) (payload : TypedInput) (run : NegotiationInput) (now : Time)
    (fault : Option FaultPoint) : Except Failure (Db × Result) := do
  let refused := Failure.conflict "缺少接收前已展示且当前有效的报价确认凭据"
  let offer ← expect (payload.offerId.bind db.offers.get) refused
  let ack ← expect (run.payload.displayReceiptId.bind db.acks.get) refused
  let context ← expect (db.contexts.get ack.contextId) refused
  require (ValidOffer db offer now ∧ ShownBefore db offer ack context payload run now) refused
  raiseAt fault .authorization
  pure
    ({ db with
        offers := db.offers.put { offer with status := .accepted }
        session :=
          { db.session with
            status := .agreed
            confirmedOfferId := some offer.id
            confirmedAt := some (datetime now)
            confirmationRequestId := some run.id
            confirmationSource := some (confirmationSourceOf db offer)
            version := db.session.version + 1 } },
      { outcome := .intentConfirmed, offerId := some offer.id })

/-! ### Withdrawal and the end of a session -/

/-- `lifecycle_in_transaction`: withdraw the current offer, or close the session. -/
def lifecycleInTransaction (db : Db) (payload : TypedInput) (now : Time)
    (fault : Option FaultPoint) : Except Failure (Db × Result) := do
  let offer := db.currentOffer
  require (payload.kind = .withdraw → Found offer (Withdrawable payload))
    (.conflict "只能撤回当前有效报价")
  raiseAt fault .authorization
  let closes : Bool := payload.kind = .close
  let ended ← invalidateOffer db offer now (if closes then .closed else .withdrawn)
  let cleared := if closes then closeDrafts ended else ended
  pure
    ({ cleared with
        session :=
          { cleared.session with
            currentOfferId := none
            status := if closes then .closed else .active
            version := cleared.session.version + 1 } },
      { outcome := if closes then .sessionClosed else .offerWithdrawn
        offerId := offer.map (·.id) })

end Negotiation
