/-
This file models the services that work on the offers of a room: recording an
offer of the buyer, a counter-offer and an acceptance of the agent, the approval
of an offer by the seller, and the confirmation or the end by the buyer.
-/

import SecondhandAgent.Legacy.Rooms

namespace Negotiation.Legacy

open Store

/-! ### Pricing -/

def OfferTerms.ofOffer (offer : Offer) : OfferTerms where
  buyerPayment := offer.price
  shippingPaidBy := offer.shippingPaidBy
  shippingCost := offer.shippingCost
  sellerBorneDiscount := some offer.sellerBorneDiscount

/-- `_authorize` -/
def authorize (terms : OfferTerms) (policy : SellerPolicy)
    (additionalTerms : List (String × String)) : Except ServiceError OfferAuthorization :=
  match authorizeOffer terms policy additionalTerms with
  | .ok authorization => .ok authorization
  | .error _ => .error (.invalidOfferTerms "交易条件无法安全计算")

def authorizeStoredOffer (offer : Offer) (policy : SellerPolicy) :
    Except ServiceError OfferAuthorization :=
  authorize (OfferTerms.ofOffer offer) policy offer.terms

/-! ### Offers -/

def requireNegotiable (goods : Option Goods) (room : Room) : Except ServiceError Unit := do
  require (room.session.status = .active) (.invalidNegotiationState "当前会话状态不允许继续议价")
  require (Available goods) (.productUnavailable "商品当前不可协商")

def getPolicy (goods : Option Goods) : Except ServiceError SellerPolicy :=
  expect (policyOf goods) (.pricingPolicyNotFound "商品尚未配置卖家规则")

def supersededStatus (current : Offer) (incomingProposer : OfferProposer) : OfferStatus :=
  if current.proposer = incomingProposer then .withdrawn else .rejected

/-- `_supersede_current_offer` -/
def Room.supersedeCurrentOffer (room : Room) (incomingProposer : OfferProposer) : Room :=
  match room.currentOffer with
  | none => room
  | some current =>
    if current.status = .proposed then
      room.setOffer current (supersededStatus current incomingProposer)
    else room

/-- `_new_offer` -/
def newOffer (id : Nat) (proposer : OfferProposer) (terms : OfferTerms)
    (additionalTerms : List (String × String)) (expiresAt : Option Time) :
    Except ServiceError Offer := do
  let discount ← expect terms.sellerBorneDiscount (.invalidOfferTerms "卖家承担的优惠金额必须明确")
  pure
    { id, proposer
      price := terms.buyerPayment
      shippingPaidBy := terms.shippingPaidBy
      shippingCost := terms.shippingCost
      sellerBorneDiscount := discount
      terms := additionalTerms
      expiresAt }

/-- The current offer is replaced by another one. -/
def Room.propose (room : Room) (offer : Offer) : Except ServiceError Room := do
  let superseded := room.supersedeCurrentOffer offer.proposer
  let offers ← superseded.offers.insert offer .unique
  pure
    { superseded with
      offers
      session := { superseded.session.next with currentOfferId := some offer.id } }

/-- One more round has been taken. -/
def Room.nextRound (room : Room) : Room :=
  { room with session := { room.session with roundCount := room.session.roundCount + 1 } }

def recordBuyerOffer (goods : Option Goods) (room : Room) (id : Nat) (terms : OfferTerms)
    (additionalTerms : List (String × String)) (expiresAt : Option Time) (now : Time) :
    Except ServiceError Room := do
  require (¬ Expired expiresAt now) (.invalidOfferTerms "报价失效时间必须晚于当前时间")
  requireNegotiable goods room
  let policy ← getPolicy goods
  require (room.session.roundCount < policy.maxRounds)
    (.invalidNegotiationState "当前会话已达到最大议价轮次")
  -- the buyer may offer any price, but what the seller keeps of it must be computable
  let _ ← authorize terms policy additionalTerms
  let offer ← newOffer id .buyer terms additionalTerms expiresAt
  let proposed ← room.propose offer
  pure proposed.nextRound

/-- The agent may still answer the offer of the last round. -/
def RespondsTo (room : Room) (respondingToOfferId : Option Nat) : Prop :=
  ∃ current ∈ room.currentOffer, respondingToOfferId = some current.id ∧
    current.proposer = .buyer

instance (room : Room) (respondingToOfferId : Option Nat) :
    Decidable (RespondsTo room respondingToOfferId) :=
  inferInstanceAs (Decidable (∃ current ∈ room.currentOffer, _))

def submitCounterOffer (goods : Option Goods) (room : Room) (id : Nat) (terms : OfferTerms)
    (additionalTerms : List (String × String)) (expiresAt : Option Time)
    (respondingToOfferId : Option Nat) (now : Time) : Except ServiceError (Room × Offer) := do
  require (¬ Expired expiresAt now) (.invalidOfferTerms "报价失效时间必须晚于当前时间")
  requireNegotiable goods room
  let policy ← getPolicy goods
  require (room.session.roundCount < policy.maxRounds ∨ RespondsTo room respondingToOfferId)
    (.invalidNegotiationState "当前会话已达到最大议价轮次")
  let authorization ← authorize terms policy additionalTerms
  require (authorization.canSubmitCounterOffer = true)
    (.offerNotAuthorized "该还价不在 Agent 自动授权区，不能写入正式报价")
  require (room.currentOffer.map (·.status) ≠ some .accepted)
    (.offerConflict "当前买家报价已被接受，不能再主动还价")
  let offer ← newOffer id .agent terms additionalTerms expiresAt
  let proposed ← room.propose offer
  pure (proposed, offer)

def acceptOffer (goods : Option Goods) (room : Room) (offerId : Nat) (now : Time) :
    Except ServiceError (Room × Offer) := do
  requireNegotiable goods room
  require (room.session.currentOfferId = some offerId) (.offerConflict "只能接受当前有效报价")
  let offer ← expect (room.offers.get offerId) (.offerNotFound "报价不存在")
  require (offer.proposer = .buyer) (.offerConflict "只能接受由买家提出的报价")
  require (offer.status = .proposed) (.offerConflict "报价已失效或已处理")
  require (¬ Expired offer.expiresAt now) (.offerConflict "报价已经过期")
  let policy ← getPolicy goods
  let authorization ← authorizeStoredOffer offer policy
  require (authorization.canAcceptAutomatically = true)
    (.offerNotAuthorized "当前报价未经自动授权，不能直接接受")
  pure
    ({ room.setOffer offer .accepted with session := room.session.next },
      { offer with status := .accepted })

/-! ### Approvals -/

/-- `_validate_offer` -/
def validateOffer (offer : Offer) (approvalExpiresAt now : Time) : Except ServiceError Unit := do
  require (offer.proposer = .buyer) (.approvalNotAuthorized "只能为买家报价申请审批")
  require (offer.status = .proposed) (.approvalConflict "报价已失效或已处理")
  match offer.expiresAt with
  | none => pure ()
  | some due =>
    require (¬ IsDue (databaseDatetime due) now) (.approvalConflict "报价已经过期")
    require (approvalExpiresAt ≤ databaseDatetime due)
      (.approvalConflict "审批有效期不能晚于报价有效期")

/-- A new approval waits for the seller; an offer has one approval, and a session one that
is pending. -/
def Room.request (room : Room) (approval : ApprovalRequest) : Except ServiceError Room := do
  let taken := ServiceError.approvalConflict "当前会话或报价已经存在审批请求"
  require (∀ other ∈ room.approvals.rows, other.offerId ≠ approval.offerId) taken
  require (room.pending = none) taken
  let approvals ← room.approvals.insert approval taken
  pure { room.withStatus .waitingApproval with approvals }

/-- The result is the room and the key of the approval, which may be one made earlier. -/
def createRequest (goods : Option Goods) (room : Room) (id offerId expectedPolicyVersion : Nat)
    (expiresAt now : Time) : Except ServiceError (Room × Nat) := do
  let expiration := databaseDatetime expiresAt
  require (¬ IsDue expiration now) (.approvalConflict "审批失效时间必须晚于当前时间")
  match room.pending with
  | some pending =>
    require (¬ IsDue pending.expiresAt now)
      (.approvalConflict "待审批请求已经到期，请先执行过期处理并提交新报价")
    require (room.session.status = .waitingApproval ∧ pending.offerId = offerId ∧
      pending.policyVersion = expectedPolicyVersion)
      (.approvalConflict "当前会话已经存在待审批请求")
    pure (room, pending.id)
  | none =>
    require (room.session.status = .active) (.invalidNegotiationState "当前会话状态不能创建审批")
    require (Available goods) (.productUnavailable "商品当前不可协商")
    require (room.session.currentOfferId = some offerId) (.approvalConflict "只能审批当前有效报价")
    let offer ← expect (room.offers.get offerId) (.approvalNotFound "待审批报价不存在")
    validateOffer offer expiration now
    let policy ← getPolicy goods
    require (policy.version = expectedPolicyVersion)
      (.approvalConflict "卖家规则版本已经变化，请重新评估报价")
    let authorization ← authorizeStoredOffer offer policy
    require (authorization.canRequestApproval = true)
      (.approvalNotAuthorized "当前报价不在人工审批区")
    let requested ← room.request
      { id, offerId, policyVersion := policy.version, expiresAt := expiration }
    pure (requested, id)

/-- `_expire`, and the cancellation of an approval. -/
def Room.dismiss (room : Room) (approval : ApprovalRequest) (status : ApprovalStatus) : Room :=
  (room.setApproval { approval with status }).restoreActive

/-- The status an approval that is not reviewed ends with. -/
def dismissal (approval : ApprovalRequest) (now : Time) : ApprovalStatus :=
  if IsDue approval.expiresAt now then .expired else .cancelled

def cancelRequest (room : Room) (approvalId : Nat) (now : Time) : Except ServiceError Room := do
  let approval ← expect (room.approvals.get approvalId) (.approvalNotFound "审批请求不存在")
  if approval.status = .cancelled then pure room
  else
    require (approval.status = .pending) (.approvalConflict "审批请求已经处理，不能取消")
    pure (room.dismiss approval (dismissal approval now))

/-- `cancel_pending_for_new_offer_in_transaction` -/
def cancelPendingForNewOffer (room : Room) (now : Time) : Except ServiceError Room :=
  match room.pending with
  | none => do
    require (room.session.status ≠ .waitingApproval)
      (.approvalConflict "等待审批的会话缺少待处理审批记录")
    pure room
  | some approval => pure (room.dismiss approval (dismissal approval now))

/-- The time of the comparison is the caller's. -/
def expireRequest (room : Room) (approvalId : Nat) (comparisonTime : Time) :
    Except ServiceError Room := do
  let approval ← expect (room.approvals.get approvalId) (.approvalNotFound "审批请求不存在")
  if approval.status = .expired then pure room
  else
    require (approval.status = .pending) (.approvalConflict "只有待审批请求可以标记过期")
    require (approval.expiresAt ≤ databaseDatetime comparisonTime)
      (.approvalNotExpired "审批请求尚未到期")
    pure (room.dismiss approval .expired)

/-- What `_expire_due_owned` does in one room. -/
def Room.expireDue (room : Room) (now : Time) : Room :=
  match room.pending with
  | none => room
  | some approval =>
    if IsDue approval.expiresAt now then room.dismiss approval .expired else room

/-- `_review_conflict` -/
def reviewConflict (goods : Option Goods) (room : Room) (approval : ApprovalRequest)
    (offer : Offer) (now : Time) : Except ServiceError (Option String) :=
  if IsDue approval.expiresAt now then pure (some "审批请求已经过期")
  else if room.session.status ≠ .waitingApproval then pure (some "协商会话已不再等待此审批")
  else if ¬ Available goods then pure (some "商品当前不可协商，审批已经失效")
  else if room.session.currentOfferId ≠ some offer.id then
    pure (some "买家已经提交更新的交易条件，审批已经失效")
  else if offer.proposer ≠ .buyer then pure (some "审批关联的不是买家报价")
  else if offer.status ≠ .proposed then pure (some "审批关联的报价已经处理")
  else if ∃ due ∈ offer.expiresAt, IsDue due now then pure (some "审批关联的报价已经过期")
  else
    match policyOf goods with
    | none => pure (some "卖家规则版本已经变化，审批已经失效")
    | some policy =>
      if policy.version ≠ approval.policyVersion then
        pure (some "卖家规则版本已经变化，审批已经失效")
      else do
        -- the zone of the request is not trusted: the offer is priced again
        let authorization ← authorizeStoredOffer offer policy
        if authorization.canRequestApproval = true then pure none
        else pure (some "当前报价已不在人工审批区")

/-- An approval after its review. -/
def ApprovalRequest.reviewed (approval : ApprovalRequest) (status : ApprovalStatus)
    (requestId : String) (comment : Option String) (now : Time) : ApprovalRequest :=
  { approval with
    status
    sellerComment := comment
    reviewedAt := some (datetime now)
    followupStatus := some .pending
    followupRequestId := some requestId }

/-- The seller has accepted or refused an offer; a refusal ends the waiting. -/
def Room.review (room : Room) (approval : ApprovalRequest) (offer : Offer) (approved : Bool)
    (requestId : String) (comment : Option String) (now : Time) : Room :=
  if approved then
    { room.setApproval (approval.reviewed .approved requestId comment now) with
      session := room.session.next }
  else
    ((room.setApproval (approval.reviewed .rejected requestId comment now)).setOffer offer
      .rejected).restoreActive

def reviewTarget (approved : Bool) : ApprovalStatus := if approved then .approved else .rejected

/-- `_review_request`: an approval that no longer fits what it is about expires, and the
conflict is reported after the commit. `taken` says that the key of the follow-up is that of
another approval. -/
def reviewRequest (goods : Option Goods) (room : Room) (approvalId : Nat) (requestId : String)
    (comment : Option String) (approved taken : Bool) (now : Time) :
    Except ServiceError (Room × Option String) := do
  let approval ← expect (room.approvals.get approvalId) (.approvalNotFound "审批请求不存在")
  let offer ← expect (room.offers.get approval.offerId) (.approvalNotFound "审批关联的业务数据不存在")
  if approval.status = reviewTarget approved ∧ approval.followupRequestId = some requestId then
    pure (room, none)
  else
    require (approval.status = .pending) (.approvalConflict "审批请求已经处理，不能重复变更结果")
    match ← reviewConflict goods room approval offer now with
    | some text => pure (room.dismiss approval .expired, some text)
    | none =>
      require (taken = false) (.approvalConflict "审批幂等键已经被其他请求使用")
      pure (room.review approval offer approved requestId comment now, none)

/-! ### Confirmation and end -/

/-- `_system_request_id` -/
def systemRequestId (kind requestId : String) : String := kind ++ ":" ++ requestId

/-- `_confirmation_source` -/
def confirmationSource (room : Room) (offer : Offer) (policy : SellerPolicy) :
    Except ServiceError ConfirmationSource := do
  let authorization ←
    match authorizeStoredOffer offer policy with
    | .ok authorization => pure authorization
    | .error _ => throw (.negotiationLifecycleConflict "报价交易条件无法重新授权")
  match offer.proposer with
  | .agent =>
    require (offer.status = .proposed ∧ authorization.canSubmitCounterOffer = true ∧
      room.HasFormalAgentMessage offer.id .counterOffered)
      (.negotiationLifecycleConflict "当前 Agent 报价缺少有效授权或正式回复记录")
    pure .agentCounter
  | .buyer =>
    require (offer.status = .accepted) (.negotiationLifecycleConflict "买家报价尚未获得接受授权")
    match room.approvals.rows.find? fun approval => approval.offerId = offer.id with
    | some approval =>
      require (approval.status = .approved ∧ approval.followupStatus = some .sent ∧
        approval.policyVersion = policy.version ∧ authorization.canRequestApproval = true ∧
        room.HasFormalAgentMessage offer.id .approvalApproved)
        (.negotiationLifecycleConflict "卖家审批授权已经失效或尚未完成通知")
      pure .sellerApprovedBuyerOffer
    | none =>
      require (authorization.canAcceptAutomatically = true ∧
        room.HasFormalAgentMessage offer.id .offerAccepted)
        (.negotiationLifecycleConflict "买家报价缺少有效的自动接受记录")
      pure .autoAcceptedBuyerOffer

/-- The session after the buyer has agreed to an offer. -/
def NegotiationSession.agreedOn (session : NegotiationSession) (offerId : Nat)
    (requestId : String) (source : ConfirmationSource) (now : Time) : NegotiationSession :=
  { session.next with
    status := .agreed
    confirmedOfferId := some offerId
    confirmedAt := some (datetime now)
    confirmationRequestId := some requestId
    confirmationSource := some source }

/-- `_replay_confirmation` -/
def replayConfirmation (room : Room) (offerId : Nat) : Except ServiceError Unit := do
  require (room.session.confirmedOfferId = some offerId ∧ room.session.confirmedAt ≠ none ∧
    room.session.confirmationSource ≠ none)
    (.negotiationLifecycleConflict "会话已经形成其他报价的交易意向")
  let requestId ← expect room.session.confirmationRequestId
    (.negotiationLifecycleConflict "会话已经形成其他报价的交易意向")
  require ((room.messageByRequestId (systemRequestId "confirm" requestId)).map (·.role) =
    some .system) (.negotiationLifecycleConflict "确认记录缺少对应系统消息")

/-- `taken` says that another session was confirmed under the key of the request. -/
def confirmOffer (goods : Option Goods) (room : Room) (messageId offerId : Nat)
    (requestId : String) (taken : Bool) (now : Time) : Except ServiceError Room := do
  if room.session.status = .agreed then
    replayConfirmation room offerId
    pure room
  else
    require (room.session.status = .active)
      (.negotiationLifecycleConflict "当前会话不能确认报价，请等待审批完成或检查会话状态")
    require (room.session.currentOfferId = some offerId)
      (.negotiationLifecycleConflict "只能确认当前有效报价")
    require (Available goods) (.negotiationLifecycleConflict "商品当前不可确认交易意向")
    let offer ← expect (room.offers.get offerId) (.negotiationLifecycleConflict "待确认报价不存在")
    require (¬ Expired offer.expiresAt now) (.negotiationLifecycleConflict "待确认报价已经过期")
    let policy ← expect (policyOf goods) (.negotiationLifecycleConflict "商品缺少有效卖家规则")
    let source ← confirmationSource room offer policy
    let systemId := systemRequestId "confirm" requestId
    require (room.messageByRequestId systemId = none)
      (.negotiationLifecycleConflict "确认幂等键已经被不完整请求占用")
    require (taken = false) (.negotiationLifecycleConflict "确认幂等键已经被其他请求使用")
    { room.setOffer offer .accepted with
      session := room.session.agreedOn offerId requestId source now }.post
      { id := messageId, role := .system, requestId := systemId, formalOfferId := some offerId }

/-- The pending approval is cancelled when the session ends. -/
def Room.cancelPending (room : Room) : Room :=
  match room.pending with
  | none => room
  | some approval => room.setApproval { approval with status := .cancelled }

def closeNegotiation (room : Room) (messageId : Nat) (requestId : String) :
    Except ServiceError Room := do
  require (room.session.status ≠ .agreed)
    (.negotiationLifecycleConflict "已经形成交易意向的会话不能改为关闭")
  if room.session.status = .closed then
    require (∃ message ∈ room.messages.rows, message.role = .system ∧
      message.agentOutcome = some .negotiationClosed)
      (.negotiationLifecycleConflict "关闭会话缺少对应系统消息")
    pure room
  else
    let systemId := systemRequestId "close" requestId
    require (room.messageByRequestId systemId = none)
      (.negotiationLifecycleConflict "关闭幂等键已经被不完整请求占用")
    (room.cancelPending.withStatus .closed).post
      { id := messageId, role := .system, requestId := systemId
        agentOutcome := some .negotiationClosed }

end Negotiation.Legacy
