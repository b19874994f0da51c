/-
This file models the chat of the older runtime: what a message of the buyer
writes, how a decision of the rules or of the model is carried out with the
tools of the agent, and how the result becomes the reply.
-/

import Mathlib.Algebra.Group.Nat.Defs
import SecondhandAgent.Legacy.Followups

namespace Negotiation.Legacy

open Store

/-! ### Requests -/

/-- The pattern of the request keys of a buyer. -/
def ValidRequestId (text : String) : Prop :=
  8 ≤ text.length ∧ text.length ≤ 56 ∧
    text.toList.all (fun letter => isAlphanumeric letter || letter = '_' || letter = '-') = true

instance (text : String) : Decidable (ValidRequestId text) :=
  inferInstanceAs (Decidable (_ ∧ _))

structure RequestId where
  text : String
  valid : ValidRequestId text
deriving DecidableEq

/-- A formal offer within a message, with the validators of its contract. -/
structure BuyerOfferSubmission where
  price : Money
  shippingPaidBy : ShippingPayer
  shippingCost : Option Money := none
  deliveryMethod : Option DeliveryMethod := none
  priced : shippingPaidBy = .seller → shippingCost ≠ none := by decide
  collected : deliveryMethod = some .pickup → shippingPaidBy ≠ .seller ∧
    (shippingCost = none ∨ shippingCost = some .zero) := by decide
deriving DecidableEq

def BuyerOfferSubmission.toTerms (offer : BuyerOfferSubmission) : OfferTerms where
  buyerPayment := offer.price
  shippingPaidBy := offer.shippingPaidBy
  shippingCost := offer.shippingCost
  sellerBorneDiscount := some .zero

def BuyerOfferSubmission.additionalTerms (offer : BuyerOfferSubmission) :
    List (String × String) :=
  match offer.deliveryMethod with
  | none => []
  | some method => [("delivery_method", method.text)]

def BuyerOfferSubmission.json (offer : BuyerOfferSubmission) : Json :=
  .object
    [("price", .text offer.price.text),
      ("shipping_paid_by", .text offer.shippingPaidBy.text),
      ("shipping_cost", .option (fun cost => .text cost.text) offer.shippingCost),
      ("delivery_method", .option (fun method => .text method.text) offer.deliveryMethod)]

structure SendMessageRequest where
  requestId : RequestId
  content : String
  offer : Option BuyerOfferSubmission := none
deriving DecidableEq

/-- What the fingerprint of a request is taken of. -/
def SendMessageRequest.body (request : SendMessageRequest) : Json :=
  .object
    [("content", .text request.content),
      ("offer", .option BuyerOfferSubmission.json request.offer)]

/-- `_reply_request_id` -/
def replyRequestId (requestId : String) : String := requestId ++ ":agent"

/-- The first `count` hexadecimal digits of a digest. -/
def hexdigest (digest : Digest) (count : Nat) : String :=
  .ofList ((List.range count).map fun place =>
    Nat.digitChar (digest.toNat / 16 ^ (63 - place) % 16))

/-- `_task_business_key` -/
def taskBusinessKey [Platform] (sessionId : Nat) (requestId : String) : String :=
  "chat:" ++ toString sessionId ++ ":" ++ hexdigest (digest (.text requestId)) 32

/-! ### Decisions -/

/-- What the dialogue policy makes of an inquiry. -/
inductive DialogueReply where
  | informational
  | clarification
  | unusable
deriving DecidableEq

inductive NegotiationDecision where
  | inquiry (reply : DialogueReply)
  | accept (offerId : Nat)
  | counter (terms : OfferTerms) (additionalTerms : List (String × String))
  | reject
  | requestApproval (offerId : Nat)

/-- `constrain_formal_offer_decision` -/
def constrainFormalOfferDecision (decision : NegotiationDecision)
    (currentTurnOfferId : Option Nat) : NegotiationDecision :=
  if currentTurnOfferId = none then decision
  else
    match decision with
    | .counter terms additionalTerms => .counter terms additionalTerms
    | _ => .reject

/-- `AgentTurnResult` -/
structure AgentTurnResult where
  outcome : AgentOutcome
  formalOfferId : Option Nat := none
deriving DecidableEq

def safeFailure : AgentTurnResult := { outcome := .safeFailure }

/-- The texts of the additional terms, as the renderer sees them. -/
def Sayable (additionalTerms : List (String × String)) : Prop :=
  DeliverySayable (additionalJson additionalTerms)

instance (additionalTerms : List (String × String)) : Decidable (Sayable additionalTerms) :=
  inferInstanceAs (Decidable (DeliverySayable _))

/-! ### The tools -/

/-- `_approval_expiration`: a day, or the life of the offer if that is shorter. -/
def approvalExpiration (offer : Offer) (now : Time) : Time :=
  match offer.expiresAt with
  | none => now + hours 24
  | some due => min (now + hours 24) due

/-- The tool `request_approval`; the approval it answers with is pending. -/
def requestApprovalTool (goods : Option Goods) (room : Room) (id offerId : Nat)
    (currentTurnOfferId : Option Nat) (now : Time) : Except ServiceError Room := do
  require (currentTurnOfferId = some offerId)
    (.approvalNotAuthorized "只能为本轮买家的正式报价申请审批")
  let policy ← getPolicy goods
  require (room.session.currentOfferId = some offerId)
    (.approvalNotAuthorized "只能为当前有效报价申请审批")
  let current ← expect (room.recentOffers.find? fun offer => offer.id = offerId)
    (.approvalNotAuthorized "当前正式报价不存在")
  let (requested, _) ← createRequest goods room id offerId policy.version
    (approvalExpiration current now) now
  pure requested

/-- `_execute_decision`: a tool that refuses leaves the room as it was. -/
def executeDecision (goods : Option Goods) (room : Room) (id : Nat)
    (currentTurnOfferId : Option Nat) (decision : NegotiationDecision) (now : Time) :
    Room × AgentTurnResult :=
  match decision with
  | .counter terms additionalTerms =>
    match submitCounterOffer goods room id terms additionalTerms none currentTurnOfferId now with
    | .error _ => (room, safeFailure)
    | .ok (countered, offer) =>
      if Sayable offer.terms then
        (countered, { outcome := .counterOffered, formalOfferId := some offer.id })
      else (countered, safeFailure)
  | .accept offerId =>
    if some offerId ≠ currentTurnOfferId then (room, safeFailure)
    else
      match acceptOffer goods room offerId now with
      | .error _ => (room, safeFailure)
      | .ok (accepted, offer) =>
        if Sayable offer.terms then
          (accepted, { outcome := .offerAccepted, formalOfferId := some offer.id })
        else (accepted, safeFailure)
  | .requestApproval offerId =>
    if some offerId ≠ currentTurnOfferId then (room, safeFailure)
    else
      match requestApprovalTool goods room id offerId currentTurnOfferId now with
      | .error (.approvalNotAuthorized _) => (room, { outcome := .rejected })
      | .error _ => (room, safeFailure)
      | .ok requested => (requested, { outcome := .needsSellerConfirmation })
  | .inquiry .informational => (room, { outcome := .informational })
  | .inquiry .clarification => (room, { outcome := .clarification })
  | .inquiry .unusable => (room, safeFailure)
  | .reject => (room, { outcome := .rejected })

/-- `AgentTurnPreparation` -/
inductive AgentTurnPreparation where
  | immediate (result : AgentTurnResult)
  | deterministic (decision : NegotiationDecision)
  | model

/-- `prepare_turn`: only an offer that the rules decide needs no model. -/
def prepareAgent (goods : Option Goods) (room : Room) (content : String)
    (currentTurnOfferId : Option Nat) : AgentTurnPreparation :=
  let message := strip content
  if message = "" ∨ 4000 < message.length then .immediate safeFailure
  else
    match policyOf goods, currentTurnOfferId with
    | none, _ => .immediate safeFailure
    | some _, none => .model
    | some policy, some offerId =>
      match room.recentOffers.find? fun offer => offer.id = offerId with
      | none => .immediate safeFailure
      | some offer =>
        if room.session.currentOfferId ≠ some offerId ∨ offer.proposer ≠ .buyer then
          .immediate safeFailure
        else
          match (do requireNegotiable goods room; authorizeStoredOffer offer policy) with
          | .error _ => .immediate safeFailure
          | .ok authorization =>
            if authorization.canAcceptAutomatically = true then .deterministic (.accept offerId)
            else if authorization.canRequestApproval = true then
              .deterministic (.requestApproval offerId)
            else .model

/-! ### A message of the buyer -/

structure ChatTurn where
  buyerMessage : Message
  agentMessage : Message
  idempotentReplay : Bool
deriving DecidableEq

/-- What sending a message comes to in its own transaction. -/
inductive SendResult where
  | turn (turn : ChatTurn)
  | pending (taskId : Nat)
deriving DecidableEq

/-- The task is one that decides on a chat and is not over. -/
def ActiveChat (sessionId : Nat) (task : ModelTask) : Prop :=
  task.sessionId = sessionId ∧ task.taskType = .chatDecision ∧
    (task.status = .pending ∨ task.status = .running ∨ task.status = .retryWait)

instance (sessionId : Nat) (task : ModelTask) : Decidable (ActiveChat sessionId task) :=
  inferInstanceAs (Decidable (_ ∧ _))

/-- `_persist_result` -/
def Room.persistResult (room : Room) (messageId : Nat) (requestId : String)
    (result : AgentTurnResult) : Except ServiceError (Room × Message) := do
  let reply : Message :=
    { id := messageId, role := .agent, requestId, agentOutcome := some result.outcome
      formalOfferId := result.formalOfferId }
  let posted ← room.post reply
  pure (posted, reply)

/-- The public facts of a product that a task is given. -/
def productContext (goods : Goods) : Json :=
  .object
    [("id", .number goods.id),
      ("title", .text goods.product.title),
      ("description", .text goods.product.description),
      ("listed_price", .text goods.product.listedPrice.text),
      ("status", .text goods.product.status.text)]

/-- What a task is told of the session; the offers and the rounds that only the model reads are
left out. -/
def negotiationContext (room : Room) (policy : SellerPolicy) : Json :=
  .object
    [("id", .number room.id),
      ("status", .text (negotiationStatusText room.session.status)),
      ("current_offer_id", .option (fun id : Nat => .number id) room.session.currentOfferId),
      ("version", .number room.session.version),
      ("policy_version", .number policy.version)]

/-- `_serialize_task_input` of a chat. -/
def serializeChatInput (goods : Goods) (policy : SellerPolicy) (room : Room)
    (buyerMessageId : Nat) (replyId : String) (currentTurnOfferId : Option Nat) : Snapshot :=
  [("buyer_message_id", .number buyerMessageId),
    ("reply_request_id", .text replyId),
    ("decision_request", .object
      [("product_context", .object [("product", productContext goods)]),
        ("negotiation_context", .object [("negotiation", negotiationContext room policy)]),
        ("current_turn_offer_id", .option (fun id : Nat => .number id) currentTurnOfferId)])]

section

variable [Platform]

def SendMessageRequest.fingerprint (request : SendMessageRequest) : Digest := digest request.body

/-- `_resume_existing`: the turn of an earlier request, or the task that is to finish it. -/
def resumeExisting (db : Db) (room : Room) (existingBuyer : Message)
    (request : SendMessageRequest) : Except ServiceError SendResult := do
  require (existingBuyer.role = .buyer) (.messageConflict "请求幂等键已被其他消息占用")
  require (existingBuyer.requestFingerprint = some request.fingerprint)
    (.messageConflict "相同请求幂等键不能用于不同请求内容或报价")
  match room.messageByRequestId (replyRequestId request.requestId.text) with
  | some reply =>
    require (reply.role = .agent) (.messageConflict "回复幂等键已被其他消息占用")
    pure (.turn { buyerMessage := existingBuyer, agentMessage := reply, idempotentReplay := true })
  | none =>
    let task ← expect
      (db.tasks.rows.find? fun task => task.taskType = .chatDecision ∧
        task.businessKey = taskBusinessKey room.id existingBuyer.requestId)
      (.incompleteRequest "该请求尚未形成完整回复，请稍后查询消息记录")
    pure (.pending task.id)

/-- An approval that is pending makes way for a new offer. -/
def makeWay (room : Room) (now : Time) : Except ServiceError Room :=
  if room.session.status = .waitingApproval then cancelPendingForNewOffer room now else pure room

/-- The offer within a message. -/
def recordOffer (goods : Option Goods) (room : Room) (offerId : Nat)
    (submission : Option BuyerOfferSubmission) (now : Time) : Except ServiceError Room :=
  match submission with
  | none => pure room
  | some offer => do
    let free ← makeWay room now
    recordBuyerOffer goods free offerId offer.toTerms offer.additionalTerms none now

/-- The message of the buyer and the offer within it. -/
def speak (goods : Option Goods) (room : Room) (offerId messageId : Nat)
    (request : SendMessageRequest) (now : Time) : Except ServiceError (Room × Message) := do
  let offered ← recordOffer goods room offerId request.offer now
  let message : Message :=
    { id := messageId, role := .buyer, requestId := request.requestId.text
      requestFingerprint := some request.fingerprint
      formalOfferId := request.offer.map fun _ => offerId }
  let spoken ← offered.post message
  pure (spoken, message)

/-- The task that the model is to decide on; a session of the newer agent marks it. -/
def createChatTask (retry : ModelRetryPolicy) (db : Db) (room : Room) (message : Message)
    (currentTurnOfferId : Option Nat) (newerAgent : Bool) : Except ServiceError (Db × Nat) := do
  let goods ← expect (db.goodsOf room) (.productNotFound "商品不存在")
  let policy ← getPolicy goods
  let (written, taskId) ←
    (createTask db.taskDb .chatDecision (taskBusinessKey room.id message.requestId) room.id
      (serializeChatInput goods policy room message.id (replyRequestId message.requestId)
        currentTurnOfferId)
      room.session.currentOfferId none 1 retry.maxAttempts).mapError .task
  let task ← (lockedTask written taskId).mapError .task
  let kind := if newerAgent then RuntimeKind.v4 else .v3
  pure (db.adopt { written with tasks := written.tasks.put { task with runtimeKind := kind } } none,
    taskId)

/-- `_prepare_turn` -/
def prepareTurn (retry : ModelRetryPolicy) (db : Db) (sessionId : Nat) (buyerId : String)
    (request : SendMessageRequest) (newerAgent : Bool) (now : Time) :
    Except ServiceError (Db × SendResult) := do
  let room ← db.ownedRoom sessionId buyerId
  match room.messageByRequestId request.requestId.text with
  | some existingBuyer =>
    let resumed ← resumeExisting db room existingBuyer request
    pure (db, resumed)
  | none =>
    require (room.session.status ≠ .agreed ∧ room.session.status ≠ .closed)
      (.messageConflict "当前会话已经结束，不能继续发送消息")
    require (¬ ∃ task ∈ db.tasks.rows, ActiveChat sessionId task)
      (.incompleteRequest "当前会话仍有一条消息正在处理，请稍后重试")
    let goods := db.goodsOf room
    let (spoken, message) ← speak goods room db.nextId (db.nextId + 1) request now
    let carryOut (acted : Room) (result : AgentTurnResult) :
        Except ServiceError (Db × SendResult) := do
      let (replied, reply) ← acted.persistResult (db.nextId + 3)
        (replyRequestId request.requestId.text) result
      pure ({ db.setRoom replied with nextId := db.nextId + 4 },
        .turn { buyerMessage := message, agentMessage := reply, idempotentReplay := false })
    match prepareAgent goods spoken request.content message.formalOfferId with
    | .immediate result => carryOut spoken result
    | .deterministic decision =>
      let (acted, result) := executeDecision goods spoken (db.nextId + 2) message.formalOfferId
        decision now
      carryOut acted result
    | .model =>
      let (created, taskId) ← createChatTask retry
        { db.setRoom spoken with nextId := db.nextId + 2 } spoken message message.formalOfferId
        newerAgent
      pure (created, .pending taskId)

end

/-! ### The decision of the model -/

/-- The offer that a turn was about. -/
def ModelTask.currentTurnOfferId (task : ModelTask) : Option Nat :=
  match (snapshotField task.inputSnapshot "decision_request").bind
      (Json.field "current_turn_offer_id") with
  | some (.number id) => some id.toNat
  | _ => none

/-- `_stale_reason` of a chat. -/
def chatStaleReason (db : Db) (task : ModelTask) : Option String :=
  match db.rooms.get task.sessionId with
  | none => some "协商会话已不存在"
  | some room =>
    match db.goodsOf room, policyOf (db.goodsOf room) with
    | some goods, some policy =>
      if room.session.version ≠ task.sessionVersion then some "协商会话版本已经变化"
      else if policy.version ≠ task.policyVersion then some "卖家规则版本已经变化"
      else if room.session.currentOfferId ≠ task.offerId then some "当前报价已经变化"
      else if ∃ id ∈ task.offerId, room.offers.get id = none then some "任务关联报价已不存在"
      else
        let decision := snapshotField task.inputSnapshot "decision_request"
        let product := (decision.bind (Json.field "product_context")).bind (Json.field "product")
        let negotiation :=
          (decision.bind (Json.field "negotiation_context")).bind (Json.field "negotiation")
        if product = none then some "任务商品快照无效"
        else if product ≠ some (productContext goods) then some "商品公开信息已经变化"
        else if negotiation = none then some "任务会话快照无效"
        else if negotiation ≠ some (negotiationContext room policy) then some "协商上下文已经变化"
        else none
    | _, _ => some "商品或卖家规则已不存在"

section

variable [Unicode]

/-- The reply of a turn is written and its task is ended. -/
def finishTurn (db : Db) (task : ModelTask) (room : Room) (requestId : String)
    (result : AgentTurnResult) (ending : TaskDb → Except TaskFailure TaskDb) :
    Except ServiceError Db := do
  let (replied, _) ← room.persistResult (db.nextId + 1) requestId result
  { db.setRoom replied with nextId := db.nextId + 2 }.onTask task ending

/-- `_reconcile_existing_reply` -/
def reconcileExistingReply (db : Db) (taskId leaseToken : Nat) (now : Time) :
    Except ServiceError Db := do
  let task ← db.requireActiveLease taskId leaseToken now
  let requestId ← expect (task.replyRequestId.filter (· ≠ ""))
    (.incompleteRequest "模型任务回复幂等键无效")
  match (db.rooms.get task.sessionId).bind (·.messageByRequestId requestId) with
  | none => pure db
  | some reply =>
    require (reply.role = .agent) (.messageConflict "模型任务回复幂等键已被其他消息占用")
    db.onTask task fun tasks =>
      cancelWithLease tasks task.id leaseToken "等价 Agent 回复已经存在，恢复任务不再调用模型" now

/-- `_finalize_model_turn` -/
def finalizeModelTurn (db : Db) (taskId leaseToken : Nat) (decision : NegotiationDecision)
    (usage : ModelUsage) (now : Time) : Except ServiceError Db := do
  let task ← db.requireActiveLease taskId leaseToken now
  let requestId ← expect (task.replyRequestId.filter (· ≠ ""))
    (.incompleteRequest "模型任务回复幂等键无效")
  let room ← expect (db.rooms.get task.sessionId) (.negotiationNotFound "协商会话不存在")
  match room.messageByRequestId requestId with
  | some reply =>
    require (reply.role = .agent) (.messageConflict "模型任务回复幂等键已被其他消息占用")
    db.onTask task fun tasks =>
      cancelWithLease tasks task.id leaseToken "等价 Agent 回复已经存在" now
  | none =>
    match chatStaleReason db task with
    | some reason =>
      finishTurn db task room requestId safeFailure fun tasks =>
        Legacy.markStale tasks task.id leaseToken (some reason) usage now
    | none =>
      let turnOffer := task.currentTurnOfferId
      let (acted, result) := executeDecision (db.goodsOf room) room db.nextId turnOffer
        (constrainFormalOfferDecision decision turnOffer) now
      finishTurn db task acted requestId result fun tasks =>
        completeSuccess tasks task.id leaseToken [] usage now

/-! ### The newer agent -/

/-- A call of a tool by the newer agent; calls that only read, or that break the protocol,
write no row of the negotiation. -/
inductive ToolCall where
  | submitCounterOffer (terms : OfferTerms) (additionalTerms : List (String × String))
  | acceptOffer (offerId : Nat)
  | requestApproval (offerId : Nat)
  | finishTurn (decision : NegotiationDecision) (notWriting : ∀ offerId terms additionalTerms,
      decision ≠ .accept offerId ∧ decision ≠ .requestApproval offerId ∧
        decision ≠ .counter terms additionalTerms)
  | other

/-- What a call does to the room, and the result that ends the turn; a call that is refused is
rolled back to its savepoint. -/
def runTool (goods : Option Goods) (room : Room) (id : Nat) (currentTurnOfferId : Option Nat)
    (call : ToolCall) (now : Time) : Option (Room × AgentTurnResult) :=
  match call with
  | .submitCounterOffer terms additionalTerms =>
    match submitCounterOffer goods room id terms additionalTerms none currentTurnOfferId now with
    | .error _ => none
    | .ok (countered, offer) =>
      if Sayable offer.terms then
        some (countered, { outcome := .counterOffered, formalOfferId := some offer.id })
      else none
  | .acceptOffer offerId =>
    if some offerId ≠ currentTurnOfferId then none
    else
      match acceptOffer goods room offerId now with
      | .error _ => none
      | .ok (accepted, offer) =>
        if Sayable offer.terms then
          some (accepted, { outcome := .offerAccepted, formalOfferId := some offer.id })
        else none
  | .requestApproval offerId =>
    if some offerId ≠ currentTurnOfferId then none
    else
      match requestApprovalTool goods room id offerId currentTurnOfferId now with
      | .error _ => none
      | .ok requested => some (requested, { outcome := .needsSellerConfirmation })
  | .finishTurn decision _ =>
    some (executeDecision goods room id currentTurnOfferId
      (constrainFormalOfferDecision decision currentTurnOfferId) now)
  | .other => none

/-- `execute`: a call that does not end the turn writes no row of the negotiation. -/
def executeCall (db : Db) (taskId leaseToken : Nat) (call : ToolCall) (usage : ModelUsage)
    (now : Time) : Except ServiceError Db := do
  let task ← db.requireActiveLease taskId leaseToken now
  let room ← expect (db.rooms.get task.sessionId) (.negotiationNotFound "协商会话不存在")
  let requestId ← expect task.replyRequestId (.incompleteRequest "模型任务回复幂等键无效")
  match chatStaleReason db task with
  | some reason =>
    finishTurn db task room requestId safeFailure fun tasks =>
      Legacy.markStale tasks task.id leaseToken (some reason) usage now
  | none =>
    match runTool (db.goodsOf room) room db.nextId task.currentTurnOfferId call now with
    | none => pure db
    | some (acted, result) =>
      finishTurn db task acted requestId result fun tasks =>
        completeSuccess tasks task.id leaseToken [] usage now

/-- `stop`: the run is given up, with what the check before had found, if anything. -/
def stopRun (db : Db) (taskId leaseToken : Nat) (staleReason : Option String)
    (usage : ModelUsage) (now : Time) : Except ServiceError Db := do
  let task ← db.requireActiveLease taskId leaseToken now
  let room ← expect (db.rooms.get task.sessionId) (.negotiationNotFound "协商会话不存在")
  let requestId ← expect task.replyRequestId (.incompleteRequest "模型任务回复幂等键无效")
  finishTurn db task room requestId safeFailure fun tasks =>
    match staleReason with
    | some reason => Legacy.markStale tasks task.id leaseToken (some reason) usage now
    | none => completeSuccess tasks task.id leaseToken [] usage now

end

end Negotiation.Legacy
