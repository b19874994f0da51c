/-
This file models what the seller maintains and what keeps the evidence of the
drafts up to date: the edits of the goods, the policy, the facts and the
shipping rules, the recheck of a draft that waits for evidence, the plan a
semantic turn stores, and the archive of a session that is over.
-/

import SecondhandAgent.Commands
import SecondhandAgent.Notification

namespace Negotiation

open Store

/-! ### Edits of the seller -/

def updateOwnedProduct (db : Db) (seller title description : String) (listedPrice : Money)
    (status : ProductStatus) : Except Failure Db := do
  require (db.product.sellerId = seller) (.productNotFound "商品不存在或当前卖家无权访问")
  pure { db with product := { db.product with title, description, listedPrice, status } }

/-- The policy with new rules; the checks of its table are made when it is stored. -/
def newPolicy (policy : SellerPolicy) (minimumNetPrice autoAcceptThreshold : Money)
    (maxRounds : Nat) : Except Failure SellerPolicy :=
  if checks : minimumNetPrice.cents ≤ autoAcceptThreshold.cents ∧ 0 < maxRounds then
    .ok
      { minimumNetPrice
        autoAcceptThreshold
        maxRounds
        version := policy.version + 1
        ordered := checks.1
        rounds := checks.2
        positive := policy.next_positive }
  else .error .check

def updateOwnedPolicy (db : Db) (seller : String) (minimumNetPrice autoAcceptThreshold : Money)
    (maxRounds expectedVersion : Nat) : Except Failure Db := do
  require (db.product.sellerId = seller) (.productNotFound "商品不存在或当前卖家无权访问")
  require (db.policy.version = expectedVersion)
    (.policyVersionConflict "卖家规则已经更新，请刷新后再提交")
  let policy ← newPolicy db.policy minimumNetPrice autoAcceptThreshold maxRounds
  pure { db with policy }

/-- `owned_product`: the seller owns the goods and has seen their last version. -/
def ownedProduct (db : Db) (seller : String) (expected : Option Nat) : Except Failure Unit := do
  require (db.product.sellerId = seller) (.conflict "商品不存在或无权访问")
  require (expected = none ∨ expected = some db.product.productVersion)
    (.conflict "商品资料已更新，请刷新后重试")

/-- The goods at their next version. -/
def Product.next (product : Product) : Product :=
  { product with productVersion := product.productVersion + 1 }

/-- Record a fact; `value` is in normal form. -/
def setFact (db : Db) (seller : String) (value : FactValue) (expected : Nat) :
    Except Failure Db := do
  ownedProduct db seller (some expected)
  let product := db.product.next
  let facts ← db.facts.insert
    { id := db.nextId, value, version := product.productVersion } .unique
  pure { db with product, facts, nextId := db.nextId + 1 }

/-- What the seller states of a shipping rule. -/
structure RuleData where
  ruleId : Option Nat
  region : String
  shippingCost : Money
  discount : Money
  active : Bool
  expiresAt : Time
  expectedVersion : Nat

/-- The row of a shipping rule. -/
def ruleRow (id : Nat) (data : RuleData) (version : Nat) : ShippingCostRule where
  id
  region := data.region
  shippingCost := data.shippingCost
  discount := data.discount
  version
  active := data.active
  expiresAt := data.expiresAt

def setRule (db : Db) (seller : String) (data : RuleData) (now : Time) : Except Failure Db := do
  ownedProduct db seller (some data.expectedVersion)
  require (data.active = true → now < data.expiresAt) (.conflict "有效运费规则必须设置未来失效时间")
  let product := db.product.next
  match data.ruleId with
  | some ruleId => do
    let rule ← expect (db.rules.get ruleId) (.conflict "规则不存在或无权访问")
    pure { db with product, rules := db.rules.put (ruleRow rule.id data product.productVersion) }
  | none => do
    let rules ← db.rules.insert (ruleRow db.nextId data product.productVersion) .unique
    pure { db with product, rules, nextId := db.nextId + 1 }

/-! ### Drafts that wait for evidence -/

variable [Platform]

/-- Tell the buyer that the evidence of a draft is complete. -/
def announceDraft (db : Db) (item : VerificationItem) (draft : OfferDraft) (now : Time) :
    Except Failure Db := do
  let contextId := db.nextId
  let messageId := db.nextId + 1
  let refs : List DraftRef := [{ id := draft.id, version := draft.version }]
  let publicSeq := db.session.nextPublicSeq
  let messages ← db.messages.insert
    { id := messageId
      origin := .source (.draftReady draft.id db.product.productVersion)
      publicSeq := some publicSeq
      card := some (.drafts contextId refs) } .unique
  let contexts ← db.contexts.insert
    { id := contextId
      buyerId := db.session.buyerId
      messageId
      publicSeq
      draftRefs := some refs
      termsHash := .drafts
      businessVersion := db.session.version
      expiresAt := min draft.expiresAt (now + minutes 30) } .unique
  pure
    { db with
      messages, contexts
      session := { db.session with nextPublicSeq := publicSeq + 1 }
      verifications := db.verifications.put
        { item with notifiedVersion := some db.product.productVersion }
      nextId := db.nextId + 2 }

/-- A verification and its draft after the evidence was assessed. -/
def recordAssessment (db : Db) (item : VerificationItem) (draft : OfferDraft)
    (missing : List Missing) : Db :=
  let complete : Bool := missing = []
  { db with
    verifications := db.verifications.put
      { item with reasons := missing, status := if complete then .ready else .open }
    drafts := db.drafts.put
      { draft with missing, status := if complete then .ready else .pending } }

/-- One transaction of `recheck`: assess the draft of a verification again. -/
def recheckItem (db : Db) (seller : String) (itemId : Nat) (now : Time) :
    Except Failure Db := do
  let item ← expect (db.verifications.get itemId) .missing
  let draft ← expect (db.drafts.get item.draftId) .missing
  ownedProduct db seller none
  if UsableDraft draft db.session now draft.version then
    let missing := (assess db draft.candidate now).missing
    let assessed := recordAssessment db item draft missing
    if missing = [] ∧ item.notifiedVersion ≠ some db.product.productVersion then
      announceDraft assessed { item with reasons := missing, status := .ready } draft now
    else pure assessed
  else pure { db with verifications := db.verifications.put { item with status := .stale } }

/-! ### The plan of a semantic turn -/

/-- A draft a turn makes or revises. -/
structure PlannedDraft where
  bound : Option Nat
  candidate : Candidate
  missing : List Missing
deriving DecidableEq

/-- What the planning of a turn decides: the command, the drafts and the one among them that
the command submits. A turn stores any plan here; which plan an input has is decided by
`planFrame`. -/
structure TurnPlan where
  command : TypedInput
  drafts : List PlannedDraft
  selected : Option Nat

/-- Evidence of the seller is missing, and not an answer of the buyer. -/
def Missing.NeedsSeller : Missing → Prop
  | .condition _ _ | .factAllowedDeliveryMethods | .costUnknown | .costAmbiguous
  | .deliveryNotAllowed => True
  | _ => False

instance (missing : Missing) : Decidable missing.NeedsSeller := by
  cases missing
  all_goals first | exact isTrue trivial | exact isFalse id

/-- Store one planned draft, and return its key. -/
def storeDraft (db : Db) (runId : Nat) (planned : PlannedDraft) (now : Time) : Db × Nat :=
  let status : DraftStatus := if planned.missing = [] then .ready else .pending
  let (stored, draftId) :=
    match planned.bound.bind db.drafts.get with
    | some draft =>
      ({ db with
          drafts := db.drafts.put
            { draft with
              version := draft.version + 1
              candidate := planned.candidate
              missing := planned.missing
              status } },
        draft.id)
    | none =>
      ({ db with
          drafts := db.drafts.insertIgnore
            { id := db.nextId
              inputId := runId
              candidate := planned.candidate
              missing := planned.missing
              businessVersion := db.session.version
              status
              expiresAt := now + hours 24 }
          nextId := db.nextId + 1 },
        db.nextId)
  if ∃ missing ∈ planned.missing, missing.NeedsSeller then
    (openVerification stored draftId planned.missing, draftId)
  else (stored, draftId)

def storeDrafts (db : Db) (runId : Nat) (now : Time) : List PlannedDraft → Db × List Nat
  | [] => (db, [])
  | planned :: rest =>
    let (stored, draftId) := storeDraft db runId planned now
    let (final, draftIds) := storeDrafts stored runId now rest
    (final, draftId :: draftIds)

/-- `plan_turn`: store the plan of a turn, once. The view and the display receipt of the
command are those of the input. -/
def planTurn (db : Db) (runId : Nat) (owner : Owner) (plan : TurnPlan) (now : Time) :
    Except Failure Db := do
  let (run, _) ← lockOwner db runId owner now
  match db.turns.get runId with
  | some _ => pure db
  | none => do
    let (stored, draftIds) := storeDrafts db runId now plan.drafts
    let command : TypedInput :=
      { plan.command with
        text := run.payload.text
        clientViewId := run.payload.clientViewId
        displayReceiptId := run.payload.displayReceiptId }
    let turns ← stored.turns.insert
      { inputId := runId
        command
        draftIds
        selectedDraftId := plan.selected.bind fun index => draftIds[index]? } .unique
    pure { stored with turns }

/-! ### The archive -/

/-- How long an ended session is kept. -/
def retention : Time := hours (24 * 90)

/-- `check`: the session is over, was left alone long enough, and none of its rows waits for
anything. A session that is archived already passes. -/
def checkRetention (db : Db) (latest now : Time) : Except Failure Unit :=
  if db.session.archivedAt ≠ none then pure ()
  else do
    require ((db.session.status = .agreed ∨ db.session.status = .closed) ∧
      db.session.lastResolvedInputSeq = db.session.nextInputSeq - 1)
      (.conflict "活跃线程或未完成输入不能归档")
    require (latest + retention ≤ now) (.conflict "终态数据至少保留90天")
    require (∀ approval ∈ db.approvals.rows,
      approval.status ≠ .pending ∧ approval.effectStatus ≠ .notApplied)
      (.conflict "等待决定或应用的审批不能归档")
    require (∀ item ∈ db.deliveries.rows, item.status = .published)
      (.conflict "待通知回执必须保留")
    require (∀ task ∈ db.tasks.rows, task.val.status = .succeeded ∨ task.val.status = .cancelled)
      (.conflict "恢复所需任务必须保留")
    require (∀ context ∈ db.contexts.rows, ¬ now < context.expiresAt)
      (.conflict "有效展示凭据必须保留")
    require (∀ event ∈ db.outbox.rows, event.status ≠ .pending)
      (.conflict "待处理事件必须保留")
    require (∀ execution ∈ db.executions.rows,
      execution.recoveryRequired = false ∧ ¬ Ahead execution.leaseUntil now)
      (.conflict "审批恢复产物必须保留")

/-- Mark a session that is over as archived. `latest` is the last time one of its rows was
updated, `unfinished` whether a checkpoint of its threads still has a next node. -/
def archive (db : Db) (latest : Time) (unfinished : Bool) (checked archived : Time) :
    Except Failure Db := do
  checkRetention db latest checked
  require (unfinished = false) (.conflict "仍有待执行 checkpoint，不能清理")
  pure
    { db with
      session :=
        { db.session with archivedAt := db.session.archivedAt.or (some (datetime archived)) } }

end Negotiation
