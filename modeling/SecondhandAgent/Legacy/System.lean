/-
This file puts the services of the older runtime together into one system over
any number of sessions. Every event is one transaction; what a caller does in
several transactions is several events, with those of others in between.
-/

import SecondhandAgent.Legacy.Chat

namespace Negotiation.Legacy

open Store

/-! ### Sessions and goods -/

/-- The session is still negotiated. -/
def Room.Open (room : Room) : Prop :=
  room.session.status = .active ∨ room.session.status = .waitingApproval

instance (room : Room) : Decidable room.Open := inferInstanceAs (Decidable (_ ∨ _))

/-- `create_or_get_active_session` -/
def createSession (db : Db) (productId : Nat) (buyerId : String)
    (graphVersion : Option GraphVersion) : Except ServiceError Db := do
  let unavailable := ServiceError.productUnavailable "商品不存在或当前不可协商"
  let goods ← expect (db.goods.get productId) unavailable
  require (goods.product.status = .available) unavailable
  require (goods.product.sellerId ≠ buyerId)
    (.negotiationLifecycleConflict "不能与自己发布的商品协商")
  let _ ← getPolicy (some goods)
  if ∃ room ∈ db.rooms.rows, room.session.productId = productId ∧
      room.session.buyerId = buyerId ∧ room.Open then pure db
  else
    let rooms ← db.rooms.insert
      { session := { id := db.nextId, productId, buyerId, graphVersion } } .unique
    pure { db with rooms, nextId := db.nextId + 1 }

/-- `create_for_seller` -/
def createForSeller (db : Db) (product : Product) (policy : SellerPolicy) :
    Except ServiceError Db := do
  let goods ← db.goods.insert
    { id := db.nextId, product, policy := some { policy with version := 1, positive := Nat.one_pos } }
    .unique
  pure { db with goods, nextId := db.nextId + 1 }

/-- `_get_owned_product` -/
def Db.ownedGoods (db : Db) (productId : Nat) (seller : String) : Except ServiceError Goods := do
  let missing := ServiceError.productNotFound "商品不存在或当前卖家无权访问"
  let goods ← expect (db.goods.get productId) missing
  require (goods.product.sellerId = seller) missing
  pure goods

def updateOwnedProduct (db : Db) (productId : Nat) (seller title description : String)
    (listedPrice : Money) (status : ProductStatus) : Except ServiceError Db := do
  let goods ← db.ownedGoods productId seller
  pure
    { db with
      goods := db.goods.put
        { goods with product := { goods.product with title, description, listedPrice, status } } }

/-- The version of `data` is the one the seller expects. -/
def updateOwnedPolicy (db : Db) (productId : Nat) (seller : String) (data : SellerPolicy) :
    Except ServiceError Db := do
  let goods ← db.ownedGoods productId seller
  let policy ← getPolicy (some goods)
  require (policy.version = data.version)
    (.policyVersionConflict "卖家规则已经更新，请刷新后再提交")
  pure
    { db with
      goods := db.goods.put
        { goods with
          policy := some
            { data with version := data.version + 1, positive := data.next_positive } } }

/-! ### Approvals and lifecycles -/

/-- The room after an operation of its buyer. -/
def onOwnedRoom (db : Db) (sessionId : Nat) (buyerId : String)
    (operation : Room → Except ServiceError Room) : Except ServiceError Db := do
  let room ← db.ownedRoom sessionId buyerId
  let later ← operation room
  pure (db.setRoom later)

/-- `expire_request` -/
def expireApproval (db : Db) (approvalId : Nat) (comparisonTime : Time) :
    Except ServiceError Db := do
  let (room, _) ← expect (db.approval approvalId) (.approvalNotFound "审批请求不存在")
  requireLegacyRuntime room.session
  let later ← expireRequest room approvalId comparisonTime
  pure (db.setRoom later)

/-- What `list_for_seller` does before it reads: `_expire_due_owned`. -/
def expireDueOwned (db : Db) (seller : String) (now : Time) : Db :=
  { db with
    rooms := db.rooms.change
      (fun room =>
        if (db.goodsOf room).map (·.product.sellerId) = some seller ∧
          room.session.graphVersion = none then room.expireDue now else room)
      (fun room => by
        split
        · unfold Room.expireDue
          split
          · rfl
          · split
            · unfold Room.dismiss Room.restoreActive Room.withStatus Room.setApproval
              split <;> rfl
            · rfl
        · rfl) }

/-- `_validated_request_id` of a review. -/
def validatedRequestId (requestId : String) : Except ServiceError String := do
  let stored := strip requestId
  require (stored.length ≤ 64 ∧ matchesIdentifier stored) (.approvalConflict "审批幂等键格式不正确")
  pure stored

/-- `_validated_comment` -/
def validatedComment (comment : Option String) : Except ServiceError (Option String) := do
  let stored := comment.map strip
  require (∀ text ∈ stored, text.length ≤ 2000) (.approvalConflict "卖家意见不能超过 2000 个字符")
  pure (stored.filter (· ≠ ""))

/-- `approve_request`, `reject_request` -/
def reviewApproval (db : Db) (seller : String) (approvalId : Nat) (requestId : String)
    (comment : Option String) (approved : Bool) (now : Time) : Except ServiceError Db := do
  let key ← validatedRequestId requestId
  let stored ← validatedComment comment
  let room ← db.sellerRoom seller approvalId
  let (later, _) ← reviewRequest (db.goodsOf room) room approvalId key stored approved
    (db.FollowupTaken approvalId key) now
  pure (db.setRoom later)

/-- `confirm_offer` -/
def confirm (db : Db) (sessionId : Nat) (buyerId : String) (offerId : Nat)
    (requestId : RequestId) (now : Time) : Except ServiceError Db := do
  let room ← db.ownedRoom sessionId buyerId
  let later ← confirmOffer (db.goodsOf room) room db.nextId offerId requestId.text
    (db.ConfirmationTaken sessionId requestId.text) now
  pure { db.setRoom later with nextId := db.nextId + 1 }

/-- `close_negotiation` -/
def close (db : Db) (sessionId : Nat) (buyerId : String) (requestId : RequestId) :
    Except ServiceError Db := do
  let room ← db.ownedRoom sessionId buyerId
  let later ← closeNegotiation room db.nextId requestId.text
  pure { db.setRoom later with nextId := db.nextId + 1 }

/-! ### Tasks -/

/-- The lease of a chat task by the request that made it. -/
def leaseChat (retry : ModelRetryPolicy) (db : Db) (taskId : Nat) (now : Time) :
    Except ServiceError Db := do
  let task ← (lockedTask db.taskDb taskId).mapError .task
  require (task.taskType = .chatDecision) (.incompleteRequest "该请求尚未形成完整回复，请稍后查询消息记录")
  db.onTask task fun tasks =>
    (leaseTask tasks taskId ("chat-sync:" ++ toString taskId) retry.leaseSeconds now).map (·.1)

/-- The lease of the next chat task by a worker of the recovery. -/
def leaseNextChat (retry : ModelRetryPolicy) (db : Db) (workerId : String) (locked : List Nat)
    (now : Time) : Except ServiceError Db := do
  let (written, _) ←
    (leaseNext db.taskDb workerId (some [.chatDecision]) retry.leaseSeconds locked now).mapError .task
  pure (db.adopt written none)

section

variable [Unicode]

/-- The model has failed in a chat. -/
def failChat (db : Db) (taskId leaseToken : Nat) (failure : ModelFailure) (now : Time) :
    Except ServiceError Db := do
  let task ← db.requireActiveLease taskId leaseToken now
  db.onTask task (failOrDefer task leaseToken failure now)

/-- The lease of a run is extended. -/
def renewChat (db : Db) (taskId leaseToken : Nat) (duration : Int) (now : Time) :
    Except ServiceError Db := do
  let task ← db.requireActiveLease taskId leaseToken now
  db.onTask task fun tasks => renewLease tasks taskId leaseToken duration now

end

/-- `retry_failed` -/
def retryTask (db : Db) (seller : String) (taskId : Nat) (reason : Option String) (now : Time) :
    Except ServiceError Db := do
  let task ← (lockedTask db.taskDb taskId).mapError .task
  db.onTask task fun tasks => retryFailed tasks seller taskId reason now

/-- The reply that a chat was given up, unless it has a reply. -/
def Db.persistTermination (db : Db) (task : ModelTask) : Except ServiceError Db :=
  match task.replyRequestId.filter (· ≠ ""), db.rooms.get task.sessionId with
  | some requestId, some room =>
    if (room.messageByRequestId requestId).isSome then pure db
    else do
      let (replied, _) ← room.persistResult db.nextId requestId safeFailure
      pure { db.setRoom replied with nextId := db.nextId + 1 }
  | _, _ => pure db

/-- `terminate` -/
def terminateTask (db : Db) (seller : String) (taskId : Nat) (reason : Option String)
    (now : Time) : Except ServiceError Db := do
  let task ← (lockedTask db.taskDb taskId).mapError .task
  let ended ← db.onTask task fun tasks => terminate tasks seller taskId reason now
  match task.taskType with
  | .chatDecision => ended.persistTermination task
  | .approvalFollowup => pure ended

/-! ### The system -/

inductive Event where
  | createForSeller (product : Product) (policy : SellerPolicy)
  | updateOwnedProduct (productId : Nat) (seller title description : String)
      (listedPrice : Money) (status : ProductStatus)
  | updateOwnedPolicy (productId : Nat) (seller : String) (data : SellerPolicy)
  | createSession (productId : Nat) (buyerId : String)
  | sendMessage (sessionId : Nat) (buyerId : String) (request : SendMessageRequest)
      (newerAgent : Bool) (now : Time)
  | leaseChat (taskId : Nat) (now : Time)
  | leaseNextChat (workerId : String) (locked : List Nat) (now : Time)
  | reconcileReply (taskId leaseToken : Nat) (now : Time)
  | finalizeModelTurn (taskId leaseToken : Nat) (decision : NegotiationDecision)
      (usage : ModelUsage) (now : Time)
  | executeCall (taskId leaseToken : Nat) (call : ToolCall) (usage : ModelUsage) (now : Time)
  | stopRun (taskId leaseToken : Nat) (staleReason : Option String) (usage : ModelUsage)
      (now : Time)
  | failChat (taskId leaseToken : Nat) (failure : ModelFailure) (now : Time)
  | renewChat (taskId leaseToken : Nat) (duration : Int) (now : Time)
  | cancelApproval (sessionId : Nat) (buyerId : String) (approvalId : Nat) (now : Time)
  | expireApproval (approvalId : Nat) (comparisonTime : Time)
  | expireDueOwned (seller : String) (now : Time)
  | reviewApproval (seller : String) (approvalId : Nat) (requestId : String)
      (comment : Option String) (approved : Bool) (now : Time)
  | claimFollowup (excluded locked : List Nat) (now : Time)
  | finalizeFollowup (taskId leaseToken : Nat) (acknowledged : ApprovalFollowupEvent)
      (usage : ModelUsage) (delaySeconds : Nat) (now : Time)
  | failFollowup (taskId leaseToken : Nat) (failure : ModelFailure) (now : Time)
  | confirm (sessionId : Nat) (buyerId : String) (offerId : Nat) (requestId : RequestId)
      (now : Time)
  | close (sessionId : Nat) (buyerId : String) (requestId : RequestId)
  | retryTask (seller : String) (taskId : Nat) (reason : Option String) (now : Time)
  | terminateTask (seller : String) (taskId : Nat) (reason : Option String) (now : Time)

section

variable [Platform] [Unicode]

/-- The database after the transaction. -/
def Db.perform (retry : ModelRetryPolicy) (db : Db) : Event → Except ServiceError Db
  | .createForSeller product policy => Legacy.createForSeller db product policy
  | .updateOwnedProduct productId seller title description listedPrice status =>
    Legacy.updateOwnedProduct db productId seller title description listedPrice status
  | .updateOwnedPolicy productId seller data => Legacy.updateOwnedPolicy db productId seller data
  | .createSession productId buyerId => Legacy.createSession db productId buyerId none
  | .sendMessage sessionId buyerId request newerAgent now =>
    (prepareTurn retry db sessionId buyerId request newerAgent now).map (·.1)
  | .leaseChat taskId now => Legacy.leaseChat retry db taskId now
  | .leaseNextChat workerId locked now => Legacy.leaseNextChat retry db workerId locked now
  | .reconcileReply taskId leaseToken now => reconcileExistingReply db taskId leaseToken now
  | .finalizeModelTurn taskId leaseToken decision usage now =>
    Legacy.finalizeModelTurn db taskId leaseToken decision usage now
  | .executeCall taskId leaseToken call usage now =>
    Legacy.executeCall db taskId leaseToken call usage now
  | .stopRun taskId leaseToken staleReason usage now =>
    Legacy.stopRun db taskId leaseToken staleReason usage now
  | .failChat taskId leaseToken failure now => Legacy.failChat db taskId leaseToken failure now
  | .renewChat taskId leaseToken duration now => Legacy.renewChat db taskId leaseToken duration now
  | .cancelApproval sessionId buyerId approvalId now =>
    onOwnedRoom db sessionId buyerId fun room => cancelRequest room approvalId now
  | .expireApproval approvalId comparisonTime => Legacy.expireApproval db approvalId comparisonTime
  | .expireDueOwned seller now => .ok (Legacy.expireDueOwned db seller now)
  | .reviewApproval seller approvalId requestId comment approved now =>
    Legacy.reviewApproval db seller approvalId requestId comment approved now
  | .claimFollowup excluded locked now => (claimNext retry db excluded locked now).map (·.1)
  | .finalizeFollowup taskId leaseToken acknowledged usage delaySeconds now =>
    (Legacy.finalizeFollowup db taskId leaseToken acknowledged usage delaySeconds now).map (·.1)
  | .failFollowup taskId leaseToken failure now =>
    (handleFailedTask db taskId leaseToken failure now).map (·.1)
  | .confirm sessionId buyerId offerId requestId now =>
    Legacy.confirm db sessionId buyerId offerId requestId now
  | .close sessionId buyerId requestId => Legacy.close db sessionId buyerId requestId
  | .retryTask seller taskId reason now => Legacy.retryTask db seller taskId reason now
  | .terminateTask seller taskId reason now => Legacy.terminateTask db seller taskId reason now

/-- A transaction that fails leaves the database as it was. -/
def Db.next (retry : ModelRetryPolicy) (db : Db) (event : Event) : Db :=
  match db.perform retry event with
  | .ok later => later
  | .error _ => db

def Db.Step (retry : ModelRetryPolicy) (before : Db) (event : Event) (after : Db) : Prop :=
  after = before.next retry event

/-- Nothing is on sale yet. -/
def Db.Initial (db : Db) : Prop := db = {}

end

end Negotiation.Legacy
