/-
This file models the two commands that answer an input: `execute` carries the
input out, `abortOrQuery` answers without an action. Either writes its answer
into the reply delivery of the input, in the transaction of the business
change, and the receipt of an executed command is written with it.
-/

import SecondhandAgent.Business
import SecondhandAgent.Queue

namespace Negotiation

open Store

/-- How long the reply to a command may take. -/
def replyTime : Time := seconds 45

/-- The reply delivery of an input. -/
def notificationInTransaction (db : Db) (runId : Nat) (result : Result) (now : Time) :
    Except Failure Db := do
  let deliveries ← db.deliveries.insert
    { id := .turnReply runId, inputId := some runId, result, replyDeadline := now + replyTime }
    .unique
  pure { db with deliveries }

/-- The event that announces a delivery. -/
def announce (db : Db) (source : SourceId) : Except Failure Db := do
  let outbox ← db.outbox.insert
    { id := .delivery source, deliveryId := some source, payload := .delivery source } .unique
  pure { db with outbox }

/-- `load_command`: the command of a semantic turn, or the typed input itself. -/
def loadCommand (db : Db) (run : NegotiationInput) : Except Failure TypedInput :=
  match run.payload with
  | .typed input => pure input
  | .chat _ => do
    let turn ← expect (db.turns.get run.id) (.conflict "缺少已验证的语义计划")
    pure turn.command

/-- The draft a semantic turn selected. -/
def selectedDraft (db : Db) (runId : Nat) : Option OfferDraft :=
  ((db.turns.get runId).bind (·.selectedDraftId)).bind db.drafts.get

/-- What a semantic offer is made on. -/
structure Quotation where
  draft : OfferDraft
  quote : CostQuote
  terms : Terms
  evaluations : List Evaluation

/-- The approval a result speaks of ends no later than the quotation does. -/
def limitApproval (db : Db) (approvalId : Option Nat) (quote : CostQuote) : Db :=
  match approvalId.bind db.approvals.get with
  | none => db
  | some approval =>
    { db with
      approvals := db.approvals.put
        { approval with expiresAt := min approval.expiresAt (datetime quote.expiresAt) } }

/-- Record what a semantic offer was made on. -/
def recordBasis (db : Db) (quotation : Option Quotation) (result : Result) :
    Except Failure Db :=
  match quotation with
  | none => pure db
  | some quotation => do
    let offerId ← expect result.offerId .missing
    let recorded :=
      { db with
        bases := db.bases.insertIgnore
          { offerId
            costQuoteId := quotation.quote.id
            candidate := quotation.draft.candidate
            evaluations := quotation.evaluations }
        drafts := db.drafts.put { quotation.draft with status := .submitted } }
    pure (limitApproval recorded result.approvalId quotation.quote)

/-- The verification of a draft, opened again with the given reasons. -/
def openVerification (db : Db) (draftId : Nat) (missing : List Missing) : Db :=
  match db.verifications.rows.find? fun item => item.draftId = draftId with
  | some item =>
    { db with
      verifications := db.verifications.put { item with status := .open, reasons := missing } }
  | none =>
    { db with
      verifications := db.verifications.insertIgnore
        { id := db.nextId, draftId, reasons := missing }
      nextId := db.nextId + 1 }

/-- The text contains the word. -/
def mentions (text word : String) : Bool := 1 < (text.splitOn word).length

/-- The rejected offer a question about reasons is answered with: the latest one. -/
def latestRejected (db : Db) : Option Offer :=
  (db.offers.rows.filter fun offer => offer.status = .rejected).foldl
    (fun best offer =>
      match best with
      | none => some offer
      | some kept => if kept.id < offer.id then some offer else some kept)
    none

/-- The answer to a query, or to a command that was not carried out. -/
def plainResult (db : Db) (run : NegotiationInput) (reason : Option String) : Result :=
  match reason with
  | some reason => { outcome := .notExecuted, reason := some reason }
  | none =>
    let asksWhy := ["为什么", "为何", "理由", "解释"].any (mentions run.payload.text)
    { outcome := .productInfo
      title := some db.product.title
      description := some db.product.description
      publicAnswer :=
        if run.payload.isQuery && asksWhy then
          (latestRejected db).map fun offer =>
            "此前" ++ offer.price.text ++ "元报价未通过当前价格及交易条件校验，未被接受。" ++
              "可以调整价格或配送方案后重新提出；卖家的私有定价规则不公开。"
        else none }

variable [Platform]

/-- Quote the draft a semantic turn selected, if the command makes an offer. -/
def quoteDraft (db : Db) (run : NegotiationInput) (payload : TypedInput) (now : Time) :
    Except Failure (Db × Option Quotation) :=
  if run.payload.isChat ∧ payload.kind.IsOffer then do
    let draft ← expect (selectedDraft db run.id) (.conflict "草案业务版本已改变")
    require (draft.businessVersion = db.session.version) (.conflict "草案业务版本已改变")
    let (quoted, quote, terms, evaluations) ← quoteInTransaction db draft.candidate now
    pure (quoted, some { draft, quote, terms, evaluations })
  else pure (db, none)

/-- Carry an offer of the buyer out: on the terms of its quotation, or on those of a typed
input. -/
def placeOffer (db : Db) (payload : TypedInput) (quotation : Option Quotation) (now : Time)
    (fault : Option FaultPoint) : Except Failure (Db × Result) := do
  let terms ← expect ((quotation.map (·.terms)).or payload.terms) .missing
  let (resolved, result) ← resolveOfferInTransaction db payload terms
    (quotation.map (·.draft.candidate)) now fault
  let recorded ← recordBasis resolved quotation result
  pure (recorded, result)

/-- Carry a command out on the session. -/
def carryOut (db : Db) (run : NegotiationInput) (payload : TypedInput)
    (quotation : Option Quotation) (now : Time) (fault : Option FaultPoint) :
    Except Failure (Db × Result) :=
  match payload.kind with
  | .submit | .replace => placeOffer db payload quotation now fault
  | .confirm => confirmInTransaction db payload run now fault
  | .withdraw | .close => lifecycleInTransaction db payload now fault
  | .query => .error (.conflict "查询不是业务命令")

/-- The digest of a command: the input and the version it was decided on. -/
def commandHash (run : NegotiationInput) (expectedVersion : Nat) : Digest :=
  digest (.object
    [("input_hash", .digest run.inputHash), ("expected_version", .number expectedVersion)])

/-- Write the receipt, the reply delivery and its event of a command that was carried out. -/
def recordCommand (db : Db) (run : NegotiationInput) (expectedVersion : Nat) (result : Result)
    (now : Time) (fault : Option FaultPoint) : Except Failure Db := do
  let receipts ← db.receipts.insert
    { id := .turnAction run.id
      inputId := some run.id
      commandHash := commandHash run expectedVersion
      result := .business result
      beforeVersion := expectedVersion
      afterVersion := db.session.version
      committedAt := now } .unique
  raiseAt fault .receipt
  let notified ← notificationInTransaction { db with receipts } run.id result now
  raiseAt fault .notification
  let announced ← announce notified (.turnReply run.id)
  raiseAt fault .outbox
  pure announced

/-- The part of `execute` that runs when the input has no receipt yet. -/
def executeNew (db : Db) (run : NegotiationInput) (expectedVersion : Nat) (now : Time)
    (fault : Option FaultPoint) : Except Failure (Db × Result) := do
  require (db.session.version = expectedVersion) (.conflict "业务版本已改变")
  let payload ← loadCommand db run
  let (quoted, quotation) ← quoteDraft db run payload now
  require (db.session.status ≠ .agreed ∧ db.session.status ≠ .closed) (.conflict "会话已经结束")
  let (done, outcome) ← carryOut quoted run payload quotation now fault
  let result := { outcome with businessVersion := some done.session.version }
  let recorded ← recordCommand done run expectedVersion result now fault
  pure (recorded, result)

/-- Carry an input out once. An input that has its receipt is answered from it. -/
def execute (db : Db) (runId : Nat) (owner : Owner) (expectedVersion : Nat) (now : Time)
    (fault : Option FaultPoint) : Except Failure (Db × ReceiptResult) := do
  let (run, _) ← lockOwner db runId owner now
  match db.receipts.get (.turnAction runId) with
  | some receipt => do
    require (receipt.commandHash = commandHash run expectedVersion)
      (.conflict "动作幂等键载荷冲突")
    pure (db, receipt.result)
  | none => do
    let (recorded, result) ← executeNew db run expectedVersion now fault
    pure (recorded, .business result)

/-! ### Answers without an action -/

/-- A command that was refused assesses its draft again. -/
def reopenDraft (db : Db) (run : NegotiationInput) (now : Time) : Db :=
  match (selectedDraft db run.id).filter fun draft =>
      draft.businessVersion = db.session.version with
  | none => db
  | some draft =>
    let missing := (assess db draft.candidate now).missing
    if missing = [] then { db with drafts := db.drafts.put { draft with missing } }
    else
      openVerification
        { db with drafts := db.drafts.put { draft with missing, status := .pending } }
        draft.id missing

/-- The rows of a refused command before its answer is written. -/
def reconsider (db : Db) (run : NegotiationInput) (reason : Option String) (now : Time) : Db :=
  if reason ≠ none ∧ run.payload.isChat then reopenDraft db run now else db

/-- Answer an input without an action; an input that has its answer keeps it. -/
def abortOrQuery (db : Db) (runId : Nat) (owner : Owner) (reason : Option String)
    (checked assessed noticed : Time) : Except Failure (Db × Result) := do
  let (run, _) ← lockOwner db runId owner checked
  match db.reply runId with
  | some delivery => pure (db, delivery.result)
  | none => do
    let stated := reason.filter (· ≠ "")
    let result := plainResult db run stated
    let notified ← notificationInTransaction (reconsider db run stated assessed) runId result
      noticed
    let announced ← announce notified (.turnReply runId)
    pure (announced, result)

end Negotiation
