/-
This file models the worker that tells a buyer how the seller has decided. One
transaction claims an approval and its task, the model drafts the message
outside of the database, and another transaction writes what still holds.
-/

import SecondhandAgent.Legacy.Market

namespace Negotiation.Legacy

open Store

/-! ### What a follow-up is about -/

inductive ApprovalFollowupEvent where
  | approved
  | rejected
  | invalidated
deriving DecidableEq

def ApprovalFollowupEvent.text : ApprovalFollowupEvent → String
  | .approved => "APPROVED"
  | .rejected => "REJECTED"
  | .invalidated => "INVALIDATED"

/-- `ApprovalFollowupOutcome`, as an outcome of a message. -/
def ApprovalFollowupEvent.outcome : ApprovalFollowupEvent → AgentOutcome
  | .approved => .approvalApproved
  | .rejected => .approvalRejected
  | .invalidated => .approvalInvalidated

structure FollowupContext where
  approval : ApprovalRequest
  room : Room
  goods : Goods
  offer : Offer

/-- `_load_context` -/
def loadContext (db : Db) (room : Room) (approval : ApprovalRequest) :
    Except ServiceError FollowupContext := do
  let offer ← expect (room.offers.get approval.offerId)
    (.approvalFollowupProcessing "审批关联的会话或报价不存在")
  let goods ← expect (db.goodsOf room) (.approvalFollowupProcessing "审批关联的商品不存在")
  pure { approval, room, goods, offer }

/-- What the seller approved is still what the session waits for. -/
def FollowupContext.Stands (context : FollowupContext) (now : Time) : Prop :=
  context.room.session.status = .waitingApproval ∧
    context.room.session.currentOfferId = some context.offer.id ∧
    context.goods.product.status = .available ∧ context.offer.status = .proposed ∧
    context.goods.policy.map (·.version) = some context.approval.policyVersion ∧
    ¬ Expired context.offer.expiresAt now

instance (context : FollowupContext) (now : Time) : Decidable (context.Stands now) :=
  inferInstanceAs (Decidable (_ ∧ _))

/-- `_resolve_event` -/
def resolveEvent (context : FollowupContext) (now : Time) :
    Except ServiceError ApprovalFollowupEvent := do
  require (context.offer.proposer = .buyer) (.approvalFollowupProcessing "审批关联的不是买家报价")
  if context.approval.status = .rejected then
    require (context.offer.status = .rejected) (.approvalFollowupProcessing "被拒绝报价的状态不一致")
    pure .rejected
  else
    require (context.approval.status = .approved)
      (.approvalFollowupProcessing "审批结果不支持生成后续通知")
    if context.Stands now then
      match context.goods.policy with
      | none => pure .invalidated
      | some policy =>
        match authorizeStoredOffer context.offer policy with
        | .error _ => throw (.approvalFollowupProcessing "审批报价无法重新授权")
        | .ok authorization =>
          pure (if authorization.canRequestApproval = true then .approved else .invalidated)
    else pure .invalidated

/-- `_agent_request`, as the snapshot keeps it. -/
def agentRequest (context : FollowupContext) (event : ApprovalFollowupEvent) : Json :=
  .object
    [("approval_id", .number context.approval.id),
      ("event", .text event.text),
      ("product_title", .text context.goods.product.title),
      ("offer_id", .number context.offer.id),
      ("price", .text context.offer.price.text),
      ("shipping_paid_by", .text context.offer.shippingPaidBy.text),
      ("shipping_cost", .option (fun cost => .text cost.text) context.offer.shippingCost),
      ("seller_borne_discount", .text context.offer.sellerBorneDiscount.text),
      ("additional_terms", additionalJson context.offer.terms),
      ("seller_comment", .option .text context.approval.sellerComment)]

/-- `_offer_result` -/
def offerResult (offer : Offer) : Json :=
  .object
    [("ok", .bool true),
      ("offer", .object
        [("id", .number offer.id),
          ("proposer", .text (offerProposerText offer.proposer)),
          ("price", .text offer.price.text),
          ("shipping_paid_by", .text offer.shippingPaidBy.text),
          ("shipping_cost", .option (fun cost => .text cost.text) offer.shippingCost),
          ("seller_borne_discount", .text offer.sellerBorneDiscount.text),
          ("additional_terms", additionalJson offer.terms),
          ("status", .text (offerStatusText offer.status))])]

/-- `_serialize_task_input` -/
def serializeTaskInput (request result : Json) : Snapshot :=
  [("request", request), ("offer_result", result)]

/-! ### The messages -/

/-- `_delivery_text` can say the additional terms. -/
def DeliverySayable (additionalTerms : Json) : Prop :=
  additionalTerms = .object [] ∨
    Json.field "delivery_method" additionalTerms = some (.text "pickup") ∨
    Json.field "delivery_method" additionalTerms = some (.text "shipping")

instance (additionalTerms : Json) : Decidable (DeliverySayable additionalTerms) :=
  inferInstanceAs (Decidable (_ ∨ _))

/-- The status of the offer that the text of an event is written for. -/
def ApprovalFollowupEvent.expectedStatus : ApprovalFollowupEvent → Option String
  | .approved => some "PROPOSED"
  | .rejected => some "REJECTED"
  | .invalidated => none

/-- `render_trusted_event` succeeds on the snapshot of the offer. -/
def Renders (event : ApprovalFollowupEvent) (result : Json) : Prop :=
  match Json.field "offer" result with
  | none => False
  | some offer =>
    Json.field "proposer" offer = some (.text "BUYER") ∧
      (∀ status ∈ event.expectedStatus, Json.field "status" offer = some (.text status)) ∧
      (event = .invalidated ∨
        ∀ terms ∈ Json.field "additional_terms" offer, DeliverySayable terms)

instance (event : ApprovalFollowupEvent) (result : Json) : Decidable (Renders event result) := by
  unfold Renders
  split <;> infer_instance

/-- `_stored_outcome`: the event a message of an earlier delivery told. -/
def storedOutcome : Option AgentOutcome → Option ApprovalFollowupEvent
  | some .approvalApproved => some .approved
  | some .approvalRejected => some .rejected
  | some .approvalInvalidated => some .invalidated
  | _ => none

structure ApprovalProcessingResult where
  approvalId : Nat
  status : ApprovalFollowupStatus
  messageId : Option Nat := none
  outcome : Option ApprovalFollowupEvent := none
deriving DecidableEq

/-- `_mark_failed`, `_mark_manual_required` -/
def Db.mark (db : Db) (approvalId : Nat) (status : ApprovalFollowupStatus) :
    Db × ApprovalProcessingResult :=
  (db.setFollowup approvalId (some status), { approvalId, status })

/-! ### Claiming -/

/-- The worker can work on the approval. -/
def Eligible (approval : ApprovalRequest) : Prop :=
  (approval.status = .approved ∨ approval.status = .rejected) ∧
    (approval.followupStatus = some .pending ∨ approval.followupStatus = some .failed)

instance (approval : ApprovalRequest) : Decidable (Eligible approval) :=
  inferInstanceAs (Decidable (_ ∧ _))

/-- The place of an approval in the order of `_claim_next`: new ones first, then by key. -/
def ApprovalRequest.Sooner (one two : ApprovalRequest) : Prop :=
  let rank (approval : ApprovalRequest) : Nat :=
    if approval.followupStatus = some .pending then 0 else 1
  rank one < rank two ∨ (rank one = rank two ∧ one.id ≤ two.id)

instance : DecidableRel ApprovalRequest.Sooner := fun _ _ =>
  inferInstanceAs (Decidable (_ ∨ _))

/-- The approvals to work on, in order; those that other transactions have locked are
skipped. -/
def Db.followups (db : Db) (excluded locked : List Nat) : List (Room × ApprovalRequest) :=
  ((db.rooms.rows.flatMap fun room => room.approvals.rows.map fun approval => (room, approval)).filter
    fun pair => Eligible pair.2 ∧ pair.2.id ∉ excluded ∧ pair.2.id ∉ locked).insertionSort
      fun one two => one.2.Sooner two.2

/-- What a claim comes to. -/
inductive Claim where
  | nothing
  | finished (result : ApprovalProcessingResult)
  | leased (task : ModelTask)
deriving DecidableEq

section

variable [Platform]

/-- `approval:{id}` -/
def followupKey (approvalId : Nat) : String := "approval:" ++ toString approvalId

/-- The task of the follow-up, made from the present facts or found from an earlier attempt. -/
def followupTask (retry : ModelRetryPolicy) (db : Db) (room : Room) (approval : ApprovalRequest)
    (now : Time) : Except ServiceError (Db × Nat) := do
  let context ← loadContext db room approval
  let event ← resolveEvent context now
  let (written, taskId) ←
    (createTask db.taskDb .approvalFollowup (followupKey approval.id) room.id
      (serializeTaskInput (agentRequest context event) (offerResult context.offer))
      (some approval.offerId) (some approval.id) 1 retry.maxAttempts).mapError .task
  pure (db.adopt written none, taskId)

/-- The task of a follow-up is leased, or the approval is left as the task has it. -/
def leaseFollowup (retry : ModelRetryPolicy) (db : Db) (approval : ApprovalRequest)
    (taskId : Nat) (now : Time) : Except ServiceError (Db × Claim) := do
  let created ← (lockedTask db.taskDb taskId).mapError .task
  let (written, leasedId) ←
    (leaseTask db.taskDb taskId (followupKey approval.id) retry.leaseSeconds now).mapError .task
  let leased := db.adopt written created.approvalId
  match leasedId.bind written.tasks.get with
  | some task =>
    if task.status = .failed then
      let (marked, result) := leased.mark approval.id .manualRequired
      pure (marked, .finished result)
    else pure (leased, .leased task)
  | none =>
    match created.status with
    | .retryWait =>
      let (marked, result) := leased.mark approval.id .failed
      pure (marked, .finished result)
    | .failed | .cancelled | .succeeded =>
      let (marked, result) := leased.mark approval.id .manualRequired
      pure (marked, .finished result)
    | _ => pure (leased, .nothing)

/-- `_claim_next` of one approval. -/
def claimApproval (retry : ModelRetryPolicy) (db : Db) (room : Room) (approval : ApprovalRequest)
    (now : Time) : Except ServiceError (Db × Claim) :=
  let giveUp : Db × Claim :=
    let (marked, result) := db.mark approval.id .manualRequired
    (marked, .finished result)
  match approval.followupRequestId with
  | none => pure giveUp
  | some requestId =>
    if requestId = "" ∨ 64 < requestId.length then pure giveUp
    else
      match room.messageByRequestId requestId with
      | some existing =>
        match existing.role, storedOutcome existing.agentOutcome with
        | .agent, some outcome =>
          pure (db.setRoom (room.setApproval { approval with followupStatus := some .sent }),
            .finished
              { approvalId := approval.id, status := .sent
                messageId := some existing.id, outcome := some outcome })
        | _, _ => pure giveUp
      | none =>
        match followupTask retry db room approval now with
        | .ok (created, taskId) => leaseFollowup retry created approval taskId now
        | .error (.approvalFollowupProcessing _) => pure giveUp
        | .error fault => .error fault

/-- `_claim_next` -/
def claimNext (retry : ModelRetryPolicy) (db : Db) (excluded locked : List Nat) (now : Time) :
    Except ServiceError (Db × Claim) :=
  match (db.followups excluded locked).head? with
  | none => pure (db, .nothing)
  | some (room, approval) => claimApproval retry db room approval now

end

/-! ### Writing -/

/-- `_apply_successful_event` -/
def applySuccessfulEvent (context : FollowupContext) (event : ApprovalFollowupEvent) : Room :=
  let changed : Room :=
    match event with
    | .approved => context.room.setOffer context.offer .accepted
    | .invalidated =>
      if context.offer.status = .proposed then context.room.setOffer context.offer .withdrawn
      else context.room
    | .rejected => context.room
  changed.restoreActive

/-- `_persist_message`: the message names the offer when it tells of an approval. -/
def Room.persistMessage (room : Room) (context : FollowupContext) (messageId : Nat)
    (requestId : String) (event outcome : ApprovalFollowupEvent) : Except ServiceError Room := do
  let posted ← room.post
    { id := messageId, role := .agent, requestId, agentOutcome := some outcome.outcome
      formalOfferId := if event = .approved then some context.offer.id else none }
  pure (posted.setApproval { context.approval with followupStatus := some .sent })

/-- `_stale_reason` of a follow-up. -/
def followupStaleReason (task : ModelTask) (context : FollowupContext)
    (originalRequest currentRequest : Json) : Option String :=
  if task.sessionVersion ≠ context.room.session.version then some "审批处理期间会话版本已经变化"
  else if context.goods.policy.map (·.version) ≠ some task.policyVersion then
    some "审批处理期间卖家规则已经变化"
  else if task.offerId ≠ some context.offer.id ∨ task.approvalId ≠ some context.approval.id then
    some "审批任务业务引用已经变化"
  else if originalRequest ≠ currentRequest then some "审批处理期间可信输入已经变化"
  else none

/-- The session still has the offer of a follow-up that is void as its current one. -/
def FollowupContext.VoidAndCurrent (context : FollowupContext) (event : ApprovalFollowupEvent) :
    Prop :=
  event = .invalidated ∧ context.room.session.currentOfferId = some context.offer.id

instance (context : FollowupContext) (event : ApprovalFollowupEvent) :
    Decidable (context.VoidAndCurrent event) :=
  inferInstanceAs (Decidable (_ ∧ _))

section

variable [Unicode]

/-- A task whose result is no longer wanted. -/
def Db.markStale (db : Db) (task : ModelTask) (leaseToken : Nat) (reason : String)
    (usage : ModelUsage) (now : Time) : Except ServiceError Db :=
  db.onTask task fun tasks => Legacy.markStale tasks task.id leaseToken (some reason) usage now

/-- The model has failed, or drafted another event than the one it was told:
`_apply_failure_in_transaction`. -/
def applyFailure (db : Db) (task : ModelTask) (leaseToken approvalId : Nat)
    (failure : ModelFailure) (now : Time) : Except ServiceError (Db × ApprovalProcessingResult) := do
  let written ← db.onTask task (failOrDefer task leaseToken failure now)
  pure (written.mark approvalId
    (if (planFailure task failure now).isSome then .failed else .manualRequired))

/-- A message tells the buyer of the event, and the task is done. -/
def deliverFollowup (db : Db) (task : ModelTask) (leaseToken : Nat) (context : FollowupContext)
    (requestId : String) (event : ApprovalFollowupEvent) (usage : ModelUsage) (now : Time) :
    Except ServiceError (Db × ApprovalProcessingResult) := do
  let room ← (applySuccessfulEvent context event).persistMessage context db.nextId requestId event
    event
  let posted := { db.setRoom room with nextId := db.nextId + 1 }
  let written ← posted.onTask task fun tasks =>
    completeSuccess tasks task.id leaseToken [("draft", .text event.text)] usage now
  pure (written,
    { approvalId := context.approval.id, status := .sent
      messageId := some db.nextId, outcome := some event })

/-- What the model was told is no longer so: `_safe_stale_result`. -/
def deliverStale (db : Db) (task : ModelTask) (leaseToken : Nat) (context : FollowupContext)
    (requestId : String) (event : ApprovalFollowupEvent) (reason : String) (usage : ModelUsage)
    (now : Time) : Except ServiceError (Db × ApprovalProcessingResult) := do
  let applied :=
    if context.VoidAndCurrent event then applySuccessfulEvent context event else context.room
  let room ← applied.persistMessage context db.nextId requestId .invalidated .invalidated
  let posted := { db.setRoom room with nextId := db.nextId + 1 }
  let written ← posted.markStale task leaseToken reason usage now
  pure (written,
    { approvalId := context.approval.id, status := .sent
      messageId := some db.nextId, outcome := some .invalidated })

/-- The draft of the model is checked against what holds now. -/
def finalizeContext (db : Db) (task : ModelTask) (leaseToken : Nat) (context : FollowupContext)
    (requestId : String) (event acknowledged : ApprovalFollowupEvent) (usage : ModelUsage)
    (delaySeconds : Nat) (now : Time) : Except ServiceError (Db × ApprovalProcessingResult) := do
  let broken := ServiceError.approvalFollowupProcessing "审批模型任务输入快照无效"
  let originalRequest ← expect (snapshotField task.inputSnapshot "request") broken
  let originalResult ← expect (snapshotField task.inputSnapshot "offer_result") broken
  match followupStaleReason task context originalRequest (agentRequest context event) with
  | some reason => deliverStale db task leaseToken context requestId event reason usage now
  | none =>
    if acknowledged = event ∧ Renders event originalResult then
      deliverFollowup db task leaseToken context requestId event usage now
    else
      applyFailure db task leaseToken context.approval.id
        { category := .invalidOutput, retryable := true, safeMessage := "模型结构化输出无效"
          delaySeconds } now

/-- `_finalize_followup` -/
def finalizeFollowup (db : Db) (taskId leaseToken : Nat) (acknowledged : ApprovalFollowupEvent)
    (usage : ModelUsage) (delaySeconds : Nat) (now : Time) :
    Except ServiceError (Db × ApprovalProcessingResult) := do
  let task ← db.requireActiveLease taskId leaseToken now
  match task.approvalId.bind db.approval with
  | none =>
    let written ← db.markStale task leaseToken "审批记录已不存在" usage now
    pure (written, { approvalId := task.approvalId.getD 0, status := .failed })
  | some (room, approval) =>
    match approval.followupRequestId.filter (· ≠ "") with
    | none =>
      let written ← db.markStale task leaseToken "审批通知幂等键已不存在" usage now
      pure (written.mark approval.id .manualRequired)
    | some requestId =>
      match room.messageByRequestId requestId with
      | some existing =>
        match existing.role, storedOutcome existing.agentOutcome with
        | .agent, some outcome =>
          let sent := db.setFollowup approval.id (some .sent)
          let written ← sent.markStale task leaseToken "审批通知已经由其他执行者写入" usage now
          pure (written,
            { approvalId := approval.id, status := .sent
              messageId := some existing.id, outcome := some outcome })
        | _, _ =>
          let written ← db.markStale task leaseToken "审批通知幂等键已被其他消息占用" usage now
          pure (written.mark approval.id .manualRequired)
      | none =>
        match (do
            let context ← loadContext db room approval
            let event ← resolveEvent context now
            pure (context, event) : Except ServiceError _) with
        | .error (.approvalFollowupProcessing text) =>
          let written ← db.markStale task leaseToken text usage now
          pure (written.mark approval.id .manualRequired)
        | .error fault => .error fault
        | .ok (context, event) =>
          finalizeContext db task leaseToken context requestId event acknowledged usage delaySeconds
            now

/-- `_handle_failed_task` -/
def handleFailedTask (db : Db) (taskId leaseToken : Nat) (failure : ModelFailure) (now : Time) :
    Except ServiceError (Db × ApprovalProcessingResult) := do
  let task ← db.requireActiveLease taskId leaseToken now
  applyFailure db task leaseToken (task.approvalId.getD 0) failure now

/-- `_lease_lost_result`: a late worker only reads what the approval has come to. -/
def leaseLostResult (db : Db) (approvalId : Option Nat) : ApprovalProcessingResult :=
  match approvalId.bind db.approval with
  | none => { approvalId := approvalId.getD 0, status := .failed }
  | some (room, approval) =>
    let message := approval.followupRequestId.bind room.messageByRequestId
    { approvalId := approval.id
      status := approval.followupStatus.getD .failed
      messageId := message.map (·.id)
      outcome := message.bind fun row => storedOutcome row.agentOutcome }

end

end Negotiation.Legacy
