/-
This file says what any transaction writes, family by family, and that every
step of the system is a transaction or leaves the database alone. A statement
of the form `after = { before with .. }` lists what is open; whatever it does
not list is as it was.
-/

import SecondhandAgent.Turns

namespace Negotiation

open Store

variable {before middle after db : Db} {now : Time}

/-! ### The families -/

/-- A transaction that publishes or rechecks something: no notice changes its content, a
delivery that becomes published has its message, no event of an approval is touched, and no
reply is announced. -/
structure PublicWrites (before after : Db) : Prop where
  frame : after =
    { before with
      session := { before.session with nextPublicSeq := after.session.nextPublicSeq }
      deliveries := after.deliveries
      outbox := after.outbox
      messages := after.messages
      contexts := after.contexts
      drafts := after.drafts
      verifications := after.verifications
      nextId := after.nextId }
  notices : SameNotices before.deliveries after.deliveries
  published : ∀ item ∈ after.deliveries, item.status = .published → item ∈ before.deliveries ∨
    ∃ message ∈ after.messages, message.origin = .source item.id ∧ message.publicSeq ≠ none
  messages : ∀ message ∈ before.messages, message ∈ after.messages
  contexts : ∀ context ∈ before.contexts, context ∈ after.contexts
  events : ∀ approvalId suffix, after.outbox.get (.approval approvalId suffix) =
    before.outbox.get (.approval approvalId suffix)
  replies : ∀ runId, before.outbox.get (.delivery (.turnReply runId)) = none →
    after.outbox.get (.delivery (.turnReply runId)) = none

/-- The drafts of a turn and what their verification waits for. -/
def DraftWrites (before after : Db) : Prop :=
  after =
    { before with
      drafts := after.drafts
      verifications := after.verifications
      nextId := after.nextId }

theorem DraftWrites.trans (first : DraftWrites before middle)
    (second : DraftWrites middle after) : DraftWrites before after := by
  unfold DraftWrites at second ⊢
  rw [second, first]

/-- An edit of the seller. -/
def SellerWrites (before after : Db) : Prop :=
  after =
    { before with
      product := after.product
      policy := after.policy
      facts := after.facts
      rules := after.rules
      nextId := after.nextId }

/-- A transaction on the ownership of an approval's execution, or of a model call. -/
def ExecutionWrites (before after : Db) : Prop :=
  after =
    { before with
      executions := after.executions
      ledger := after.ledger
      nextId := after.nextId }

/-- No execution is added. -/
def ExecutionsKept (before after : Db) : Prop :=
  after.executions = before.executions ∨
    ∃ changed, after.executions = before.executions.put changed

/-- The reply delivery of an input. -/
def replyDelivery (runId : Nat) (result : Result) (now : Time) : NotificationDelivery where
  id := .turnReply runId
  inputId := some runId
  result
  replyDeadline := now + replyTime

/-- The event that announces a reply. -/
def replyEvent (runId : Nat) : OutboxEvent where
  id := .delivery (.turnReply runId)
  deliveryId := some (.turnReply runId)
  payload := .delivery (.turnReply runId)

section

variable [Platform]

/-- The receipt of a command that was carried out. -/
def commandReceipt (run : NegotiationInput) (expectedVersion afterVersion : Nat)
    (result : Result) (now : Time) : BusinessActionReceipt where
  id := .turnAction run.id
  inputId := some run.id
  commandHash := commandHash run expectedVersion
  result := .business result
  beforeVersion := expectedVersion
  afterVersion
  committedAt := now

/-- A command that is carried out: its business, and with it the receipt, the reply and the
event that announces the reply. -/
structure CommandWrites (db : Db) (run : NegotiationInput) (expectedVersion : Nat) (now : Time)
    (done : Db) (result : Result) (after : Db) : Prop where
  found : db.inputs.get run.id = some run
  fresh : done.receipts.get (.turnAction run.id) = none
  unanswered : done.deliveries.get (.turnReply run.id) = none
  business : BusinessWrites db done
  frame : after =
    { done with
      receipts := done.receipts.insertIgnore
        (commandReceipt run expectedVersion done.session.version result now)
      deliveries := done.deliveries.insertIgnore (replyDelivery run.id result now)
      outbox := done.outbox.insertIgnore (replyEvent run.id) }

/-- An answer without an action. -/
structure AnswerWrites (db : Db) (runId : Nat) (noticed : Time) (noted : Db) (result : Result)
    (after : Db) : Prop where
  unanswered : db.deliveries.get (.turnReply runId) = none
  drafts : DraftWrites db noted
  frame : after =
    { noted with
      deliveries := noted.deliveries.insertIgnore (replyDelivery runId result noticed)
      outbox := noted.outbox.insertIgnore (replyEvent runId) }

/-- The transactions of a call of the model. -/
def Transaction.OfCall : Transaction → Prop
  | .reserveCall _ _ _ _ _ _ _ | .acceptCall _ _ _ _ _ _ _ | .settleCall _ _ _ _ => True
  | _ => False

def Transaction.ofCall : Transaction → Bool
  | .reserveCall _ _ _ _ _ _ _ | .acceptCall _ _ _ _ _ _ _ | .settleCall _ _ _ _ => true
  | _ => false

omit [Platform] in
theorem Transaction.ofCall_iff (transaction : Transaction) :
    transaction.ofCall = true ↔ transaction.OfCall := by
  cases transaction <;> simp [ofCall, OfCall]

instance (transaction : Transaction) : Decidable transaction.OfCall :=
  decidable_of_iff _ transaction.ofCall_iff

/-- The transactions on offers and approvals that are not commands. -/
def Transaction.IsBusiness : Transaction → Prop
  | .review _ _ _ _ _ _ _ _ | .reconcileOffer _ | .reconcile _ _ | .applyApproval _ _ _ _ _ => True
  | _ => False

/-- The transactions that publish something. -/
def Transaction.IsPublic : Transaction → Prop
  | .publishOwned _ _ _ | .claimNotification _ _ | .retryNotification _ _ _
  | .publishNotified _ _ _ _ | .refreshContext _ _ _ _ | .recheckItem _ _ _ => True
  | _ => False

/-- The edits of the seller. -/
def Transaction.IsEdit : Transaction → Prop
  | .updateOwnedProduct _ _ _ _ _ | .updateOwnedPolicy _ _ _ _ _ | .setFact _ _ _
  | .setRule _ _ _ => True
  | _ => False

/-- What a transaction does. -/
inductive Effect (db : Db) (transaction : Transaction) (after : Db) : Prop
  /-- A review, a reconciliation or an application. -/
  | business (kind : transaction.IsBusiness) (writes : BusinessWrites db after)
  /-- A command whose receipt is there already. -/
  | repeated (same : after = db)
  | command {owner : Owner} {expectedVersion : Nat} {now : Time} {fault : Option FaultPoint}
      {run : NegotiationInput} {done : Db} {result : Result}
      (made : transaction = .execute run.id owner expectedVersion now fault)
      (writes : CommandWrites db run expectedVersion now done result after)
  | answered {runId : Nat} {owner : Owner} {reason : Option String}
      {checked assessed noticed : Time} {noted : Db} {result : Result}
      (made : transaction = .abortOrQuery runId owner reason checked assessed noticed)
      (writes : AnswerWrites db runId noticed noted result after)
  /-- The plan of a turn. -/
  | planned {runId : Nat} {owner : Owner} {plan : TurnPlan} {now : Time} {stored : Db}
      {run : NegotiationInput} {turn : SemanticTurn}
      (made : transaction = .planTurn runId owner plan now)
      (found : db.inputs.get turn.inputId = some run)
      (view : turn.command.clientViewId = run.payload.clientViewId)
      (writes : DraftWrites db stored)
      (frame : after = { stored with turns := stored.turns.insertIgnore turn })
  | published (kind : transaction.IsPublic) (writes : PublicWrites db after)
  /-- A display of a context. -/
  | displayed {viewId requestId : String} {compared checked : Time} {ack : DisplayAck}
      {context : PublicInteractionContext}
      (made : transaction = .display ack.buyerId context.id viewId requestId compared checked
        ack.displayedAt)
      (found : db.contexts.get context.id = some context) (shown : ack.contextId = context.id)
      (view : ack.clientViewId = viewId) (buyer : context.buyerId = ack.buyerId)
      (free : db.acks.get ack.id = none)
      (frame : after =
        { db with acks := db.acks.insertIgnore ack, nextId := db.nextId + 1 })
  | edited (kind : transaction.IsEdit) (writes : SellerWrites db after)
  | executed (writes : ExecutionWrites db after) (kept : ExecutionsKept db after)
      (calls : transaction.OfCall ∨ after.ledger = db.ledger)
  | acknowledged {approvalId : Nat} {events : List EventId} {owner : Owner} {now : Time}
      (made : transaction = .acknowledge approvalId events owner now)
      (frame : after = events.foldl (acknowledgeEvent approvalId) db)
  | queued (effect : QueueEffect db transaction after)
  | archived (frame : after =
      { db with session := { db.session with archivedAt := after.session.archivedAt } })

end

/-! ### Publications -/

theorem PublicWrites.refl (db : Db) : PublicWrites db db :=
  ⟨rfl, .refl _, fun _ member _ => .inl member, fun _ => id, fun _ => id, fun _ _ => rfl,
    fun _ => id⟩

theorem claimNotification_writes {source : SourceId} {result : Db × Option Nat}
    (done : claimNotification db source now = .ok result) : PublicWrites db result.1 := by
  unfold claimNotification at done
  simp only [bind_eq_ok, expect_eq_ok] at done
  obtain ⟨item, found, rest⟩ := done
  obtain rfl : item.id = source := Table.key_of_get found
  split at rest
  · obtain rfl := (pure_eq_ok _ _).mp rest
    refine ⟨rfl, sameNotices_put found rfl, fun other member published => ?_, fun _ => id,
      fun _ => id, fun _ _ => rfl, fun _ => id⟩
    rcases Table.mem_of_mem_put member with old | rfl
    · exact .inl old
    · cases published
  · obtain rfl := (pure_eq_ok _ _).mp rest
    exact .refl db

theorem retryNotification_writes {source : SourceId} {token : Nat}
    (done : retryNotification db source token now = .ok after) : PublicWrites db after := by
  unfold retryNotification at done
  simp only [bind_eq_ok, pure_eq_ok, expect_eq_ok] at done
  obtain ⟨item, found, _, _, rfl⟩ := done
  obtain rfl : item.id = source := Table.key_of_get found
  refine ⟨rfl, sameNotices_put found rfl, fun other member published => ?_, fun _ => id,
    fun _ => id, fun _ _ => rfl, fun _ => id⟩
  rcases Table.mem_of_mem_put member with old | rfl
  · exact .inl old
  · split at published <;> cases published

section

variable [Platform]

theorem recordContext_writes {shown : Publication} {messageId publicSeq : Nat}
    (done : recordContext db shown messageId publicSeq now = .ok after) :
    after = { db with contexts := after.contexts } ∧
      ∀ context ∈ db.contexts, context ∈ after.contexts := by
  unfold recordContext at done
  split at done
  · obtain rfl := (pure_eq_ok _ _).mp done
    exact ⟨rfl, fun _ => id⟩
  · simp only [bind_eq_ok, pure_eq_ok] at done
    obtain ⟨_, _, contexts, inserted, rfl⟩ := done
    exact ⟨rfl, fun context member => (Table.mem_insert inserted context).mpr (.inr member)⟩

theorem publishNew_writes {run : Option NegotiationInput} {item : NotificationDelivery}
    {result : Db × Option Nat} (found : db.deliveries.get item.id = some item)
    (done : publishNew db run item now = .ok result) : PublicWrites db result.1 := by
  unfold publishNew at done
  simp only [bind_eq_ok, pure_eq_ok, expect_eq_ok] at done
  obtain ⟨messages, posted, contextual, recorded, event, announced, rfl⟩ := done
  obtain ⟨frame, contexts⟩ := recordContext_writes recorded
  have keyed : event.id = .delivery item.id := Table.key_of_get announced
  have listed : event ∈ db.outbox := by
    have found := Table.mem_of_get announced
    rw [frame] at found
    exact found
  rw [frame]
  refine ⟨rfl, sameNotices_put found rfl, fun other member published => ?_,
    fun message member => (Table.mem_insert posted message).mpr (.inr member), contexts,
    fun approvalId suffix => ?_, fun runId absent => ?_⟩
  · rcases Table.mem_of_mem_put member with old | rfl
    · exact .inl old
    · exact .inr ⟨_, (Table.mem_insert posted _).mpr (.inl rfl), rfl, Option.some_ne_none _⟩
  · refine Table.get_put_ne ?_
    show EventId.approval approvalId suffix ≠ event.id
    rw [keyed]
    exact EventId.noConfusion
  · refine (Table.get_put_ne fun same => ?_).trans absent
    have taken : db.outbox.get (.delivery (.turnReply runId)) = some event :=
      Table.get_eq_some.mpr ⟨listed, same.symm⟩
    exact Option.some_ne_none event (taken.symm.trans absent)

theorem publishItem_writes {run : Option NegotiationInput} {source : SourceId}
    {result : Db × Option Nat} (done : publishItem db run source now = .ok result) :
    PublicWrites db result.1 := by
  unfold publishItem at done
  simp only [bind_eq_ok, expect_eq_ok] at done
  obtain ⟨item, found, rest⟩ := done
  split at rest
  · obtain rfl := (pure_eq_ok _ _).mp rest
    exact .refl db
  · obtain rfl : item.id = source := Table.key_of_get found
    exact publishNew_writes found rest

theorem publishOwned_writes {runId : Nat} {owner : Owner} {result : Db × Option Nat}
    (done : publishOwned db runId owner now = .ok result) : PublicWrites db result.1 := by
  unfold publishOwned at done
  simp only [bind_eq_ok] at done
  obtain ⟨⟨run, task⟩, _, published⟩ := done
  exact publishItem_writes published

theorem publishNotified_writes {runId : Option Nat} {source : SourceId} {token : Nat}
    {result : Db × Option Nat} (done : publishNotified db runId source token now = .ok result) :
    PublicWrites db result.1 := by
  unfold publishNotified at done
  simp only [bind_eq_ok] at done
  obtain ⟨item, _, _, _, published⟩ := done
  exact publishItem_writes published

theorem refreshContext_writes {buyerId requestId : String} {contextId : Nat} {result : Db × Nat}
    (done : refreshContext db buyerId contextId requestId now = .ok result) :
    PublicWrites db result.1 := by
  unfold refreshContext at done
  simp only [bind_eq_ok] at done
  obtain ⟨_, _, original, _, _, _, expiry, _, rest⟩ := done
  split at rest
  · simp only [bind_eq_ok, pure_eq_ok] at rest
    obtain ⟨_, _, rfl⟩ := rest
    exact .refl db
  · simp only [bind_eq_ok, pure_eq_ok] at rest
    obtain ⟨contexts, inserted, rfl⟩ := rest
    exact ⟨rfl, .refl _, fun _ member _ => .inl member, fun _ => id,
      fun context member => (Table.mem_insert inserted context).mpr (.inr member), fun _ _ => rfl,
      fun _ => id⟩

theorem announceDraft_writes {item : VerificationItem} {draft : OfferDraft}
    (done : announceDraft db item draft now = .ok after) : PublicWrites db after := by
  unfold announceDraft at done
  simp only [bind_eq_ok, pure_eq_ok] at done
  obtain ⟨messages, posted, contexts, inserted, rfl⟩ := done
  exact ⟨rfl, .refl _, fun _ member _ => .inl member,
    fun message member => (Table.mem_insert posted message).mpr (.inr member),
    fun context member => (Table.mem_insert inserted context).mpr (.inr member), fun _ _ => rfl,
    fun _ => id⟩

theorem recheckItem_writes {seller : String} {itemId : Nat}
    (done : recheckItem db seller itemId now = .ok after) : PublicWrites db after := by
  unfold recheckItem at done
  simp only [bind_eq_ok] at done
  obtain ⟨item, _, draft, _, _, _, rest⟩ := done
  split at rest
  · split at rest
    · obtain ⟨frame, notices, published, messages, contexts, events, replies⟩ :=
        announceDraft_writes rest
      exact ⟨by rw [frame]; rfl, notices, published, messages, contexts, events, replies⟩
    · obtain rfl := (pure_eq_ok _ _).mp rest
      exact ⟨rfl, .refl _, fun _ member _ => .inl member, fun _ => id, fun _ => id, fun _ _ => rfl,
        fun _ => id⟩
  · obtain rfl := (pure_eq_ok _ _).mp rest
    exact ⟨rfl, .refl _, fun _ member _ => .inl member, fun _ => id, fun _ => id, fun _ _ => rfl,
      fun _ => id⟩

theorem display_effect {buyerId viewId requestId : String} {contextId : Nat}
    {compared checked displayed : Time} {result : Db × Nat}
    (done : display db buyerId contextId viewId requestId compared checked displayed =
      .ok result) :
    Effect db (.display buyerId contextId viewId requestId compared checked displayed)
      result.1 := by
  unfold display at done
  simp only [bind_eq_ok] at done
  obtain ⟨_, _, _, _, rest⟩ := done
  split at rest
  · simp only [bind_eq_ok, pure_eq_ok] at rest
    obtain ⟨_, _, rfl⟩ := rest
    exact .repeated rfl
  · simp only [bind_eq_ok, pure_eq_ok, expect_eq_ok, require_eq_ok] at rest
    obtain ⟨context, found, _, ⟨buyer, _⟩, _, _, acks, inserted, rfl⟩ := rest
    obtain rfl : context.id = contextId := Table.key_of_get found
    rw [Table.eq_insertIgnore inserted]
    exact .displayed rfl found rfl rfl buyer (Table.free_of_insert inserted) rfl

/-! ### Turns -/

omit [Platform] in
theorem openVerification_writes (draftId : Nat) (missing : List Missing) :
    DraftWrites db (openVerification db draftId missing) := by
  unfold openVerification
  split <;> rfl

omit [Platform] in
theorem storeDraft_writes (runId : Nat) (planned : PlannedDraft) (now : Time) :
    DraftWrites db (storeDraft db runId planned now).1 := by
  unfold storeDraft
  cases planned.bound.bind db.drafts.get with
  | some draft =>
    dsimp only
    split
    · exact DraftWrites.trans (by rfl) (openVerification_writes _ _)
    · rfl
  | none =>
    dsimp only
    split
    · exact DraftWrites.trans (by rfl) (openVerification_writes _ _)
    · rfl

omit [Platform] in
theorem storeDrafts_writes (runId : Nat) (now : Time) (planned : List PlannedDraft) (db : Db) :
    DraftWrites db (storeDrafts db runId now planned).1 := by
  induction planned generalizing db with
  | nil => rfl
  | cons first rest inductionHypothesis =>
    exact (storeDraft_writes runId first now).trans (inductionHypothesis _)

theorem planTurn_effect {runId : Nat} {owner : Owner} {plan : TurnPlan}
    (done : planTurn db runId owner plan now = .ok after) :
    Effect db (.planTurn runId owner plan now) after := by
  unfold planTurn at done
  simp only [bind_eq_ok, Prod.exists, lockOwner_eq_ok] at done
  obtain ⟨run, task, ⟨found, _, _⟩, rest⟩ := done
  split at rest
  · obtain rfl := (pure_eq_ok _ _).mp rest
    exact .repeated rfl
  · simp only [bind_eq_ok, pure_eq_ok] at rest
    obtain ⟨turns, inserted, rfl⟩ := rest
    rw [Table.eq_insertIgnore inserted]
    exact .planned rfl found rfl (storeDrafts_writes runId now plan.drafts db) rfl

theorem reopenDraft_writes (run : NegotiationInput) (now : Time) :
    DraftWrites db (reopenDraft db run now) := by
  unfold reopenDraft
  split
  · rfl
  · dsimp only
    split
    · rfl
    · exact DraftWrites.trans (by rfl) (openVerification_writes _ _)

theorem reconsider_writes (run : NegotiationInput) (reason : Option String) (now : Time) :
    DraftWrites db (reconsider db run reason now) := by
  unfold reconsider
  split
  · exact reopenDraft_writes run now
  · rfl

/-- An answer without an action is given once. -/
theorem abortOrQuery_writes {runId : Nat} {owner : Owner} {reason : Option String}
    {checked assessed noticed : Time} {result : Db × Result}
    (done : abortOrQuery db runId owner reason checked assessed noticed = .ok result) :
    result.1 = db ∨ ∃ noted, AnswerWrites db runId noticed noted result.2 result.1 := by
  unfold abortOrQuery notificationInTransaction announce at done
  simp only [bind_eq_ok] at done
  obtain ⟨⟨run, task⟩, _, rest⟩ := done
  split at rest
  · obtain rfl := (pure_eq_ok _ _).mp rest
    exact .inl rfl
  · next unanswered =>
    simp only [bind_eq_ok, pure_eq_ok] at rest
    obtain ⟨_, ⟨deliveries, noticed, rfl⟩, _, ⟨outbox, announced, rfl⟩, rfl⟩ := rest
    rw [Table.eq_insertIgnore noticed, Table.eq_insertIgnore announced]
    exact .inr ⟨_, unanswered, reconsider_writes run _ assessed, rfl⟩

/-! ### Commands -/

/-- A command that is carried out, part by part: the command of the input, the quotation of its
draft, the business it does and the answer that is written with it. -/
structure Carries (db : Db) (run : NegotiationInput) (expectedVersion : Nat) (now : Time)
    (fault : Option FaultPoint) (payload : TypedInput) (quoted : Db)
    (quotation : Option Quotation) (finished : Db) (outcome : Result) (after : Db) : Prop where
  found : db.inputs.get run.id = some run
  expected : db.session.version = expectedVersion
  loaded : loadCommand db run = .ok payload
  priced : quoteDraft db run payload now = .ok (quoted, quotation)
  open_ : db.session.status ≠ .agreed ∧ db.session.status ≠ .closed
  carried : carryOut quoted run payload quotation now fault = .ok (finished, outcome)
  fresh : finished.receipts.get (.turnAction run.id) = none
  unanswered : finished.deliveries.get (.turnReply run.id) = none
  frame : after =
    { finished with
      receipts := finished.receipts.insertIgnore
        (commandReceipt run expectedVersion finished.session.version
          { outcome with businessVersion := some finished.session.version } now)
      deliveries := finished.deliveries.insertIgnore
        (replyDelivery run.id
          { outcome with businessVersion := some finished.session.version } now)
      outbox := finished.outbox.insertIgnore (replyEvent run.id) }

/-- A command is carried out once. -/
theorem execute_carries {runId expectedVersion : Nat} {owner : Owner} {fault : Option FaultPoint}
    {result : Db × ReceiptResult}
    (done : execute db runId owner expectedVersion now fault = .ok result) :
    (result.1 = db ∧ db.receipts.get (.turnAction runId) ≠ none) ∨
      ∃ run payload quoted quotation finished outcome, run.id = runId ∧
        Carries db run expectedVersion now fault payload quoted quotation finished outcome
          result.1 := by
  unfold execute at done
  simp only [bind_eq_ok, Prod.exists, lockOwner_eq_ok] at done
  obtain ⟨run, task, ⟨found, _, _⟩, rest⟩ := done
  obtain rfl : run.id = runId := Table.key_of_get found
  split at rest
  · next receipt recorded =>
    simp only [bind_eq_ok, pure_eq_ok] at rest
    obtain ⟨_, _, rfl⟩ := rest
    refine .inl ⟨rfl, ?_⟩
    rw [recorded]
    exact Option.some_ne_none receipt
  · unfold executeNew recordCommand notificationInTransaction announce at rest
    simp only [bind_eq_ok, pure_eq_ok, require_eq_ok] at rest
    obtain ⟨_, ⟨_, expected, payload, loaded, ⟨quoted, quotation⟩, priced, _, open_,
      ⟨finished, outcome⟩, carried, recorded, ⟨receipts, receipted, _, _, _,
      ⟨deliveries, noticed, rfl⟩, _, _, _, ⟨outbox, announced, rfl⟩, _, _, rfl⟩, rfl⟩, rfl⟩ := rest
    have fresh := Table.free_of_insert receipted
    have unanswered := Table.free_of_insert noticed
    rw [Table.eq_insertIgnore receipted, Table.eq_insertIgnore noticed,
      Table.eq_insertIgnore announced]
    exact .inr ⟨run, payload, quoted, quotation, finished, outcome, rfl, found, expected, loaded,
      priced, open_, carried, fresh, unanswered, rfl⟩

theorem Carries.business {run : NegotiationInput} {expectedVersion : Nat}
    {fault : Option FaultPoint} {payload : TypedInput} {quoted finished : Db}
    {quotation : Option Quotation} {outcome : Result}
    (carries : Carries db run expectedVersion now fault payload quoted quotation finished outcome
      after) : BusinessWrites db finished := by
  obtain ⟨first, chat⟩ := quoteDraft_writes carries.priced
  have first : BusinessWrites db quoted := first
  refine first.trans (carryOut_writes (fun made => ⟨run, ?_, chat made⟩) carries.carried)
  rw [first.frame]
  exact Table.mem_of_get carries.found

theorem execute_writes {runId expectedVersion : Nat} {owner : Owner} {fault : Option FaultPoint}
    {result : Db × ReceiptResult}
    (done : execute db runId owner expectedVersion now fault = .ok result) :
    result.1 = db ∨ ∃ run finished outcome, run.id = runId ∧
      CommandWrites db run expectedVersion now finished outcome result.1 := by
  rcases execute_carries done with
    ⟨same, _⟩ | ⟨run, payload, quoted, quotation, finished, outcome, key, carries⟩
  · exact .inl same
  · exact .inr ⟨run, finished, _, key, carries.found, carries.fresh, carries.unanswered,
      carries.business, carries.frame⟩

/-! ### Edits of the seller -/

theorem setFact_writes {seller : String} {value : FactValue} {expected : Nat}
    (done : setFact db seller value expected = .ok after) : SellerWrites db after := by
  unfold setFact at done
  simp only [bind_eq_ok, pure_eq_ok] at done
  obtain ⟨_, _, facts, _, rfl⟩ := done
  rfl

theorem setRule_writes {seller : String} {data : RuleData}
    (done : setRule db seller data now = .ok after) : SellerWrites db after := by
  unfold setRule at done
  simp only [bind_eq_ok] at done
  obtain ⟨_, _, _, _, rest⟩ := done
  split at rest <;> simp only [bind_eq_ok, pure_eq_ok] at rest <;> obtain ⟨_, _, rfl⟩ := rest <;> rfl

theorem updateOwnedProduct_writes {seller title description : String} {listedPrice : Money}
    {status : ProductStatus}
    (done : updateOwnedProduct db seller title description listedPrice status = .ok after) :
    SellerWrites db after := by
  unfold updateOwnedProduct at done
  simp only [bind_eq_ok, pure_eq_ok] at done
  obtain ⟨_, _, rfl⟩ := done
  rfl

theorem updateOwnedPolicy_writes {seller : String} {minimumNetPrice autoAcceptThreshold : Money}
    {maxRounds expectedVersion : Nat}
    (done : updateOwnedPolicy db seller minimumNetPrice autoAcceptThreshold maxRounds
      expectedVersion = .ok after) : SellerWrites db after := by
  unfold updateOwnedPolicy at done
  simp only [bind_eq_ok, pure_eq_ok] at done
  obtain ⟨_, _, _, _, policy, _, rfl⟩ := done
  rfl

/-! ### Executions and model calls -/

theorem claimExecution_writes (approvalId : Nat) (now : Time) :
    ExecutionWrites db (claimExecution db approvalId now).1 ∧
      ExecutionsKept db (claimExecution db approvalId now).1 ∧
      (claimExecution db approvalId now).1.ledger = db.ledger := by
  unfold claimExecution
  split
  · exact ⟨rfl, .inl rfl, rfl⟩
  · split
    · exact ⟨rfl, .inl rfl, rfl⟩
    · exact ⟨rfl, .inr ⟨_, rfl⟩, rfl⟩

theorem releaseExecution_writes {approvalId : Nat} {owner : Owner} {checkpoint : Option Nat}
    {failed recovery : Bool} {checked retried : Time}
    (done : releaseExecution db approvalId owner checkpoint failed recovery checked retried =
      .ok after) :
    ExecutionWrites db after ∧ ExecutionsKept db after ∧ after.ledger = db.ledger := by
  unfold releaseExecution at done
  simp only [bind_eq_ok, pure_eq_ok] at done
  obtain ⟨row, _, rfl⟩ := done
  exact ⟨rfl, .inr ⟨_, rfl⟩, rfl⟩

omit [Platform] in
/-- Acknowledging marks events and nothing else. -/
theorem acknowledgeEvents_writes (approvalId : Nat) (events : List EventId) (db : Db) :
    events.foldl (acknowledgeEvent approvalId) db =
      { db with outbox := (events.foldl (acknowledgeEvent approvalId) db).outbox } := by
  induction events generalizing db with
  | nil => rfl
  | cons event rest inductionHypothesis =>
    have first : acknowledgeEvent approvalId db event =
        { db with outbox := (acknowledgeEvent approvalId db event).outbox } := by
      unfold acknowledgeEvent
      split <;> rfl
    rw [List.foldl_cons, inductionHypothesis, first]

theorem reserveCall_writes {runId : Nat} {owner : Owner} {step : String} {reservedTokens : Int}
    {reservedCost : Option Int} {checked timed : Time} {result : Db × Reservation}
    (done : reserveCall db runId owner step reservedTokens reservedCost checked timed =
      .ok result) : ExecutionWrites db result.1 ∧ ExecutionsKept db result.1 := by
  unfold reserveCall at done
  simp only [bind_eq_ok] at done
  obtain ⟨_, _, ⟨run, task⟩, _, _, _, rest⟩ := done
  split at rest
  · simp only [bind_eq_ok, pure_eq_ok] at rest
    obtain ⟨_, _, rfl⟩ := rest
    exact ⟨rfl, .inl rfl⟩
  · unfold admitCall at rest
    simp only [bind_eq_ok, pure_eq_ok] at rest
    obtain ⟨_, _, _, _, ledger, _, rfl⟩ := rest
    exact ⟨rfl, .inl rfl⟩

theorem acceptCall_writes {runId attemptId : Nat} {owner : Owner} {value : Json}
    {actualTokens actualCost : Option Int}
    (done : acceptCall db runId owner attemptId value actualTokens actualCost now = .ok after) :
    ExecutionWrites db after ∧ ExecutionsKept db after := by
  unfold acceptCall at done
  simp only [bind_eq_ok, pure_eq_ok] at done
  obtain ⟨_, _, attempt, _, _, _, rfl⟩ := done
  exact ⟨rfl, .inl rfl⟩

theorem settleCall_writes {attemptId : Nat} {status : CallStatus}
    {actualTokens actualCost : Option Int}
    (done : settleCall db attemptId status actualTokens actualCost = .ok after) :
    ExecutionWrites db after ∧ ExecutionsKept db after := by
  unfold settleCall at done
  simp only [bind_eq_ok, pure_eq_ok] at done
  obtain ⟨attempt, _, rfl⟩ := done
  exact ⟨rfl, .inl rfl⟩

/-! ### Every transaction -/

/-- What a transaction that succeeds does. -/
theorem perform_effect {transaction : Transaction} (done : db.perform transaction = .ok after) :
    Effect db transaction after := by
  cases transaction <;> simp only [Db.perform, map_eq_ok, Except.ok.injEq] at done
  case enqueue => obtain ⟨result, done, rfl⟩ := done; exact .queued (enqueue_effect done)
  case claim => obtain ⟨result, done, rfl⟩ := done; exact .queued (claim_effect done)
  case heartbeat => exact .queued (heartbeat_effect done)
  case release => exact .queued (release_effect done)
  case finalize => exact .queued (finalize_effect done)
  case registerInstance =>
    obtain ⟨result, done, rfl⟩ := done
    exact .queued (registerInstance_effect done)
  case attachOwner => exact .queued (attachOwner_effect done)
  case cleanupInstance =>
    obtain ⟨result, done, rfl⟩ := done
    exact .queued (cleanupInstance_effect done)
  case releaseInstance => exact .queued (releaseInstance_effect done)
  case supervisorKill => exact .queued (supervisorKill_effect done)
  case act => exact .queued (act_effect done)
  case planTurn => exact planTurn_effect done
  case execute =>
    obtain ⟨result, done, rfl⟩ := done
    rcases execute_writes done with same | ⟨run, finished, outcome, rfl, writes⟩
    · exact .repeated same
    · exact .command rfl writes
  case abortOrQuery =>
    obtain ⟨result, done, rfl⟩ := done
    rcases abortOrQuery_writes done with same | ⟨noted, writes⟩
    · exact .repeated same
    · exact .answered rfl writes
  case reserveCall =>
    obtain ⟨result, done, rfl⟩ := done
    exact .executed (reserveCall_writes done).1 (reserveCall_writes done).2 (.inl trivial)
  case acceptCall =>
    exact .executed (acceptCall_writes done).1 (acceptCall_writes done).2 (.inl trivial)
  case settleCall =>
    exact .executed (settleCall_writes done).1 (settleCall_writes done).2 (.inl trivial)
  case publishOwned =>
    obtain ⟨result, done, rfl⟩ := done
    exact .published trivial (publishOwned_writes done)
  case claimNotification =>
    obtain ⟨result, done, rfl⟩ := done
    exact .published trivial (claimNotification_writes done)
  case retryNotification => exact .published trivial (retryNotification_writes done)
  case publishNotified =>
    obtain ⟨result, done, rfl⟩ := done
    exact .published trivial (publishNotified_writes done)
  case display => obtain ⟨result, done, rfl⟩ := done; exact display_effect done
  case refreshContext =>
    obtain ⟨result, done, rfl⟩ := done
    exact .published trivial (refreshContext_writes done)
  case updateOwnedProduct => exact .edited trivial (updateOwnedProduct_writes done)
  case updateOwnedPolicy => exact .edited trivial (updateOwnedPolicy_writes done)
  case setFact => exact .edited trivial (setFact_writes done)
  case setRule => exact .edited trivial (setRule_writes done)
  case recheckItem => exact .published trivial (recheckItem_writes done)
  case review => obtain ⟨result, done, rfl⟩ := done; exact .business trivial (review_writes done)
  case reconcileOffer => exact .business trivial (reconcileOffer_writes done)
  case archive =>
    unfold archive at done
    simp only [bind_eq_ok, pure_eq_ok] at done
    obtain ⟨_, _, _, _, rfl⟩ := done
    exact .archived rfl
  case reconcile => exact .business trivial (reconcile_writes done)
  case applyApproval =>
    obtain ⟨result, done, rfl⟩ := done
    exact .business trivial (applyApproval_writes done)
  case acknowledge =>
    unfold acknowledge at done
    simp only [bind_eq_ok, pure_eq_ok] at done
    obtain ⟨_, _, rfl⟩ := done
    exact .acknowledged rfl rfl
  case claimExecution =>
    obtain rfl := done
    obtain ⟨writes, kept, ledger⟩ := claimExecution_writes _ _
    exact .executed writes kept (.inr ledger)
  case releaseExecution =>
    obtain ⟨writes, kept, ledger⟩ := releaseExecution_writes done
    exact .executed writes kept (.inr ledger)

/-! ### The queue -/

omit [Platform] in
/-- The rows of the queue. -/
structure Queue where
  nextInputSeq : Nat
  lastResolvedInputSeq : Nat
  inputs : Table NegotiationInput.id
  tasks : Table StoredTask.id

omit [Platform] in
/-- The queue of a database. -/
def Db.queue (db : Db) : Queue where
  nextInputSeq := db.session.nextInputSeq
  lastResolvedInputSeq := db.session.lastResolvedInputSeq
  inputs := db.inputs
  tasks := db.tasks

/-- What is not a transaction on the queue leaves the queue alone. -/
theorem Effect.queue {transaction : Transaction} (effect : Effect db transaction after) :
    after.queue = db.queue ∨ QueueEffect db transaction after := by
  cases effect with
  | queued effect => exact .inr effect
  | business _ writes =>
    rw [writes.frame]
    exact .inl rfl
  | repeated same =>
    rw [same]
    exact .inl rfl
  | command _ writes =>
    rw [writes.frame, writes.business.frame]
    exact .inl rfl
  | answered _ writes =>
    rw [writes.frame, writes.drafts]
    exact .inl rfl
  | planned _ _ _ writes frame =>
    rw [frame, writes]
    exact .inl rfl
  | published _ writes =>
    rw [writes.frame]
    exact .inl rfl
  | displayed _ _ _ _ _ _ frame =>
    rw [frame]
    exact .inl rfl
  | edited _ writes | executed writes _ =>
    rw [writes]
    exact .inl rfl
  | acknowledged _ frame =>
    rw [frame, acknowledgeEvents_writes]
    exact .inl rfl
  | archived frame =>
    rw [frame]
    exact .inl rfl

end

end Negotiation
