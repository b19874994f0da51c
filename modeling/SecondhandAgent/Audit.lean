/-
This file models the causal audit of the commands and the checker that reads it
back. Every command that is carried out leaves three events in its transaction,
one for the evidence it rests on, one for its authorization and one for what was
committed; the publication of its reply adds a fourth. The checker is given the
events of a command, its receipt and its message, and decides from digests,
numbers and links alone whether they belong to one cause.
-/

import SecondhandAgent.Agreement
import SecondhandAgent.Placement
import SecondhandAgent.Publishing
import SecondhandAgent.Replies

namespace Negotiation

open Store

/-! ### Events -/

inductive AuditStage where
  | evidenceResolved
  | authorizationChecked
  | actionCommitted
  | resultPublished
deriving DecidableEq

/-- `STAGES` -/
def auditStages : List AuditStage :=
  [.evidenceResolved, .authorizationChecked, .actionCommitted, .resultPublished]

structure EvidenceVersions where
  product : Nat
  policy : Nat
  costQuote : Option Nat
deriving DecidableEq

/-- What `input_basis` records of a command before it is carried out: the fields that every event
of the command repeats. -/
structure CausalBasis where
  logicalActionId : ReceiptId
  inputId : Nat
  inputSeq : Nat
  command : Kind
  /-- `input:{run}` -/
  proposalId : Nat
  objectOfferId : Option Nat
  termsHash : Digest
  counterTermsHash : Option Digest
  conditionsHash : Digest
  evidenceHash : Digest
  evidenceVersions : EvidenceVersions
  beforeVersion : Nat
  displayEvidenceHash : Option Digest
deriving DecidableEq

/-- What `committed` adds. -/
structure CausalCommit where
  offerId : Option Nat
  afterVersion : Nat
  resultHash : Digest
  offerTermsHash : Option Digest
  offerConditionsHash : Digest
deriving DecidableEq

structure CausalEvidence where
  basis : CausalBasis
  commit : Option CausalCommit := none
  messageId : Option Nat := none
deriving DecidableEq

/-- The key of an event: `{action}:{sequence}`. -/
abbrev CausalId := ReceiptId × Nat

structure BusinessCausalEvent where
  id : CausalId
  actionId : ReceiptId
  sequence : Nat
  stage : Option AuditStage
  parentId : Option CausalId
  evidence : CausalEvidence
deriving DecidableEq

/-- The event with this number. -/
def causalEvent (actionId : ReceiptId) (sequence : Nat) (evidence : CausalEvidence) :
    BusinessCausalEvent where
  id := (actionId, sequence)
  actionId
  sequence
  stage := auditStages[sequence - 1]?
  parentId := if 1 < sequence then some (actionId, sequence - 1) else none
  evidence

/-- The table of the events. -/
abbrev Trail := Table BusinessCausalEvent.id

/-- The events of a command, the newest first. -/
def Trail.of (trail : Trail) (runId : Nat) : List BusinessCausalEvent :=
  trail.rows.filter fun event => event.actionId = .turnAction runId

namespace CausalAudit

def append (trail : Trail) (actionId : ReceiptId) (sequence : Nat) (evidence : CausalEvidence) :
    Except Failure Trail :=
  trail.insert (causalEvent actionId sequence evidence) .unique

/-! ### Values in JSON -/

def snapshotJson (snapshot : CostSnapshot) : Json :=
  .object
    [("rule_id", .option (fun id : Nat => .number id) snapshot.ruleId),
      ("rule_version", .option (fun version : Nat => .number version) snapshot.ruleVersion),
      ("shipping_cost", .text snapshot.shippingCost.text),
      ("discount", .text snapshot.discount.text),
      ("delivery_fact_version",
        .option (fun version : Nat => .number version) snapshot.deliveryFactVersion)]

def evaluationJson (evaluation : Evaluation) : Json :=
  .object
    [("predicate_id", .text (toString evaluation.predicateId)),
      ("fact", .text evaluation.fact.text),
      ("fact_version", .option (fun version : Nat => .number version) evaluation.factVersion),
      ("expected_value", .text evaluation.expectedValue),
      ("operator", .text evaluation.operator.text),
      ("result", .text evaluation.result.text)]

/-- The fields that only the result of a proposal has. -/
def proposalFields (result : Result) : List (String × Json) :=
  if result.outcome ∈ [.offerAccepted, .waitingApproval, .offerRejected, .counterOffered] then
    [("approval_id", .option (fun id : Nat => .number id) result.approvalId),
      ("reused", .bool result.reused)]
  else []

/-- The result of a command, as its receipt keeps it. -/
def resultJson (result : Result) : Json :=
  .object
    ([("outcome", .text result.outcome.name),
      ("offer_id", .option (fun id : Nat => .number id) result.offerId),
      ("business_version",
        .option (fun version : Nat => .number version) result.businessVersion)] ++
      proposalFields result ++
      (result.buyerOfferId.map fun id => ("buyer_offer_id", Json.number id)).toList)

section

variable [Platform]

/-! ### What is recorded -/

/-- `command_terms_hash` -/
def commandTermsHash (terms : Terms) : Digest :=
  digest (.object
    [("amount", .text terms.amount.money.text),
      ("payer", .text terms.shippingPaidBy.text),
      ("shipping_cost", .option (fun cost => .text cost.money.text) terms.shippingCost),
      ("discount", .option (fun discount => .text discount.money.text) terms.sellerDiscount),
      ("terms", additionalJson terms.additionalTerms)])

def conditionsHash (conditions : List Predicate) (commitments : List String) : Digest :=
  digest (.list [.list (conditions.map Predicate.json), .list (commitments.map .text)])

/-- The conditions an offer was made under. -/
def offerConditionsHash (db : Db) (offerId : Option Nat) : Digest :=
  match offerId.bind db.bases.get with
  | some basis => conditionsHash basis.candidate.conditions basis.candidate.commitments
  | none => conditionsHash [] []

def evidenceHash (snapshot : Option CostSnapshot) (evaluations : Option (List Evaluation))
    (productHash : Option Digest) : Digest :=
  digest (.list
    [.option snapshotJson snapshot,
      .option (fun items => .list (items.map evaluationJson)) evaluations,
      .option .digest productHash])

/-- `input_basis`: what a command rests on, before it is carried out. -/
def inputBasis (db : Db) (run : NegotiationInput) (payload : TypedInput)
    (quotation : Option Quotation) : CausalBasis :=
  let offer := payload.offerId.bind db.offers.get
  let basis := offer.bind fun offer => db.bases.get offer.id
  let proof := offer.bind fun offer => db.evidence.get offer.id
  let terms := (quotation.map (·.terms)).or payload.terms
  let known := if quotation.isNone then basis else none
  let quote : Option CostQuote :=
    match known with
    | some basis => db.quotes.get basis.costQuoteId
    | none => quotation.map (·.quote)
  { logicalActionId := .turnAction run.id
    inputId := run.id
    inputSeq := run.inputSeq
    command := payload.kind
    proposalId := run.id
    objectOfferId := offer.map (·.id)
    termsHash :=
      match terms, offer with
      | some terms, _ => commandTermsHash terms
      | none, some offer => Negotiation.termsHash offer
      | none, none => digest .null
    counterTermsHash := payload.counterTerms.map commandTermsHash
    conditionsHash :=
      match known, quotation with
      | some basis, _ => conditionsHash basis.candidate.conditions basis.candidate.commitments
      | none, some quotation =>
        conditionsHash quotation.draft.candidate.conditions quotation.draft.candidate.commitments
      | none, none => conditionsHash [] []
    evidenceHash :=
      evidenceHash (quote.map (·.snapshot))
        ((known.map (·.evaluations)).or (quotation.map (·.evaluations)))
        (proof.map (·.productHash))
    evidenceVersions :=
      { product := db.product.productVersion
        policy := db.policy.version
        costQuote := quote.map (·.id) }
    beforeVersion := db.session.version
    displayEvidenceHash :=
      if payload.kind = .confirm then
        some (digest (.list
          [.option (fun id : Nat => .number id) run.payload.displayReceiptId,
            .number run.seenPublicMessageSeq]))
      else none }

/-- `committed`: what a command has come to. -/
def committed (db : Db) (result : Result) : CausalCommit where
  offerId := result.offerId
  afterVersion := db.session.version
  resultHash := digest (resultJson result)
  offerTermsHash := (result.offerId.bind db.offers.get).map Negotiation.termsHash
  offerConditionsHash := offerConditionsHash db result.offerId

/-- `published`: the message of the reply to a command that was carried out. -/
def published (db : Db) (trail : Trail) (run : Option NegotiationInput) (messageId : Option Nat) :
    Except Failure Trail :=
  match run with
  | none => pure trail
  | some run =>
    let actionId := ReceiptId.turnAction run.id
    match db.receipts.get actionId, trail.get (actionId, 3) with
    | some _, some previous => append trail actionId 4 { previous.evidence with messageId }
    | _, _ => pure trail

end

end CausalAudit

/-! ### The checker -/

inductive CausalScore where
  | pass
  | fail (reason : String)
  | insufficient (reason : String)
deriving DecidableEq

/-- A receipt with the number of its input, as the checker is given it. -/
structure ReceiptView where
  id : ReceiptId
  inputId : Option Nat
  inputSeq : Nat
  result : Result
  beforeVersion : Nat
  afterVersion : Nat

/-- The event is the one with this number and says what the first one says. -/
def BusinessCausalEvent.Follows (event : BusinessCausalEvent) (action : ReceiptId) (sequence : Nat)
    (base : CausalBasis) : Prop :=
  event.sequence = sequence ∧ event.stage = auditStages[sequence - 1]? ∧
    event.id = (action, sequence) ∧ event.actionId = action ∧
    event.parentId = (if 1 < sequence then some (action, sequence - 1) else none) ∧
    event.evidence.basis = base

instance (event : BusinessCausalEvent) (action : ReceiptId) (sequence : Nat) (base : CausalBasis) :
    Decidable (event.Follows action sequence base) :=
  inferInstanceAs (Decidable (_ ∧ _ ∧ _ ∧ _ ∧ _ ∧ _))

/-- The committed offer is the one the command was authorized for. -/
def CausalCommit.Authorized (commit : CausalCommit) (base : CausalBasis) (outcome : Outcome) :
    Prop :=
  commit.offerTermsHash =
      (if outcome = .counterOffered then base.counterTermsHash else some base.termsHash) ∧
    commit.offerConditionsHash = base.conditionsHash

instance (commit : CausalCommit) (base : CausalBasis) (outcome : Outcome) :
    Decidable (commit.Authorized base outcome) := inferInstanceAs (Decidable (_ ∧ _))

variable [Platform]

omit [Platform] in
/-- The offer of a command that places or confirms one. -/
def judgeOffer (base : CausalBasis) (commit : Option CausalCommit) (outcome : Outcome) :
    Except CausalScore Unit :=
  if base.command ∈ [.submit, .replace, .confirm] then do
    let commit ← expect commit (.insufficient "malformed_evidence")
    require (commit.Authorized base outcome) (.fail "committed_offer_differs_from_authorized_basis")
  else pure ()

/-- The score of four events in order. -/
def judgeChain (one two three four : BusinessCausalEvent) (receipt : ReceiptView)
    (message : Message) : Except CausalScore Unit := do
  let malformed := CausalScore.insufficient "malformed_evidence"
  let mismatch := CausalScore.fail "receipt_or_publication_mismatch"
  let base := one.evidence.basis
  require (one.Follows receipt.id 1 base ∧ two.Follows receipt.id 2 base ∧
    three.Follows receipt.id 3 base ∧ four.Follows receipt.id 4 base)
    (.fail "causality_or_object_mismatch")
  judgeOffer base three.evidence.commit receipt.result.outcome
  require (base.logicalActionId = receipt.id ∧ some base.inputId = receipt.inputId ∧
    base.inputSeq = receipt.inputSeq ∧ base.beforeVersion = receipt.beforeVersion) mismatch
  let commit ← expect three.evidence.commit malformed
  require (commit.afterVersion = receipt.afterVersion ∧ base.beforeVersion ≤ commit.afterVersion ∧
    commit.resultHash = digest (CausalAudit.resultJson receipt.result) ∧
    commit.offerId = receipt.result.offerId) mismatch
  let shown ← expect four.evidence.commit malformed
  require (shown = commit) mismatch
  let messageId ← expect four.evidence.messageId malformed
  require (messageId = message.id ∧ message.origin = .source (.turnReply base.inputId) ∧
    message.formalOfferId = commit.offerId ∧
    (base.command = .confirm →
      base.displayEvidenceHash ≠ none ∧ base.objectOfferId = commit.offerId)) mismatch

/-- `causal_score` -/
def causalScore (events : List BusinessCausalEvent) (receipt : Option ReceiptView)
    (message : Option Message) : CausalScore :=
  let missing := CausalScore.insufficient "missing_receipt_trace_or_message"
  match receipt, message, events.insertionSort fun one two => one.sequence ≤ two.sequence with
  | some receipt, some message, [one, two, three, four] =>
    match judgeChain one two three four receipt message with
    | .ok _ => .pass
    | .error score => score
  | _, _, _ => missing

/-! ### Audited transactions -/

/-- `execute` with its audit. The command reports its authorization from within, before it writes
anything; the event is written with the others. -/
def executeAudited (db : Db) (trail : Trail) (runId : Nat) (owner : Owner) (expectedVersion : Nat)
    (now : Time) (fault : Option FaultPoint) : Except Failure (Db × Trail) := do
  let (run, _) ← lockOwner db runId owner now
  let actionId := ReceiptId.turnAction runId
  match db.receipts.get actionId with
  | some receipt => do
    require (receipt.commandHash = commandHash run expectedVersion)
      (.conflict "动作幂等键载荷冲突")
    pure (db, trail)
  | none => do
    require (db.session.version = expectedVersion) (.conflict "业务版本已改变")
    let payload ← loadCommand db run
    let (quoted, quotation) ← quoteDraft db run payload now
    require (db.session.status ≠ .agreed ∧ db.session.status ≠ .closed) (.conflict "会话已经结束")
    let basis := CausalAudit.inputBasis quoted run payload quotation
    let resolved ← CausalAudit.append trail actionId 1 { basis }
    let (done, outcome) ← carryOut quoted run payload quotation now fault
    let authorized ← CausalAudit.append resolved actionId 2 { basis }
    let result := { outcome with businessVersion := some done.session.version }
    let recorded ← recordCommand done run expectedVersion result now fault
    let committed ← CausalAudit.append authorized actionId 3
      { basis, commit := some (CausalAudit.committed done result) }
    pure (recorded, committed)

/-- The publication of a delivery with its audit. -/
def publishAudited (db : Db) (trail : Trail) (run : Option NegotiationInput) (source : SourceId)
    (now : Time) : Except Failure (Db × Trail) := do
  let item ← expect (db.deliveries.get source) .missing
  if item.status = .published then pure (db, trail)
  else do
    let (after, messageId) ← publishNew db run item now
    let trail ← CausalAudit.published after trail run messageId
    pure (after, trail)

/-- The rows after a transaction, with those of the audit. -/
def Db.performAudited (db : Db) (trail : Trail) : Transaction → Except Failure (Db × Trail)
  | .execute runId owner expectedVersion now fault =>
    executeAudited db trail runId owner expectedVersion now fault
  | .publishOwned runId owner now => do
    let (run, _) ← lockOwner db runId owner now
    publishAudited db trail (some run) (.turnReply runId) now
  | .publishNotified runId source token now => do
    let item ← expect (db.deliveries.get source) .missing
    require (item.leaseToken = some token ∧ Ahead item.leaseUntil now)
      (.staleOwner "通知所有权已失效")
    publishAudited db trail (runId.bind db.inputs.get) source now
  | transaction => (db.perform transaction).map fun after => (after, trail)

/-! ### The audited system -/

/-- The system with the table of the audit. -/
structure Audited where
  world : World
  trail : Trail

/-- A notice of a reply is published for the input of its delivery. -/
def Event.Addressed (db : Db) : Event → Prop
  | .call (.publishNotified runId source _ _) =>
    ∀ item, db.deliveries.get source = some item → runId = item.inputId
  | _ => True

namespace Audited

/-- The rows after an event, the clock apart. -/
def react (audited : Audited) : Event → Audited
  | .call transaction =>
    match audited.world.db.performAudited audited.trail transaction with
    | .ok (db, trail) => { world := { audited.world with db }, trail }
    | .error _ => audited
  | event => { audited with world := audited.world.react event }

def next (audited : Audited) (event : Event) : Audited :=
  let reacted := audited.react event
  { reacted with
    world := { reacted.world with clock := event.readings.getLastD audited.world.clock } }

def Step (before : Audited) (event : Event) (after : Audited) : Prop :=
  Timely before.world.clock event.readings ∧ event.Allowed ∧ event.Addressed before.world.db ∧
    after = before.next event

omit [Platform] in
def Initial (audited : Audited) : Prop :=
  World.Initial audited.world ∧ audited.trail = .empty

/-- `read_chain`: the receipt of a command as the checker is given it. -/
def receiptOf (audited : Audited) (runId : Nat) : Option ReceiptView := do
  let run ← audited.world.db.inputs.get runId
  let receipt ← audited.world.db.receipts.get (.turnAction runId)
  match receipt.result with
  | .business result =>
    pure
      { id := receipt.id
        inputId := receipt.inputId
        inputSeq := run.inputSeq
        result
        beforeVersion := receipt.beforeVersion
        afterVersion := receipt.afterVersion }
  | .decision _ _ => none

/-- The score of a command, from the rows of the database. -/
def score (audited : Audited) (runId : Nat) : CausalScore :=
  causalScore (audited.trail.of runId) (audited.receiptOf runId)
    (audited.world.db.messages.get (.source (.turnReply runId)))

end Audited

end Negotiation
