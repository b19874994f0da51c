/-
This file says what the business transactions write. A receipt, a delivery and
an event say by their key what they are the record of, and none of them is
written in any other form; offers, approvals and the session's business columns
are left open here. Whatever is not listed stays as it was, and every later
frame argument is a rewrite with that.
-/

import SecondhandAgent.System

namespace Negotiation

open Store

/-! ### The form of the records -/

/-- What the key of a receipt says of it, for the receipts that are not those of commands. -/
def BusinessActionReceipt.Lawful (receipt : BusinessActionReceipt) : Prop :=
  receipt.inputId = none ∧
    match receipt.id with
    | .turnAction _ => False
    | .approvalApply approvalId _ =>
      ∃ result, receipt.result = .business result ∧ result.approvalId = some approvalId ∧
        result.effectRevision ≠ none
    | _ => True

/-- What the key of a delivery says of it, for the deliveries that are not replies. -/
def NotificationDelivery.Lawful (item : NotificationDelivery) : Prop :=
  item.inputId = none ∧ item.status = .pending ∧ item.publicMessageId = none ∧
    match item.id with
    | .turnReply _ | .draftReady _ _ => False
    | .approvalResult approvalId revision =>
      item.approvalId = some approvalId ∧ item.result.effectRevision = some revision
    | _ => item.approvalId = none

/-- What an event of an approval says by its suffix. -/
def ApprovalSuffix.payload (approvalId : Nat) : ApprovalSuffix → EventPayload
  | .requested => .requested approvalId
  | .decision => .decided approvalId
  | .invalidated _ => .invalidated approvalId

/-- What the key of an event says of it; an event is pending when it is recorded. -/
def OutboxEvent.Lawful (event : OutboxEvent) : Prop :=
  event.status = .pending ∧
    match event.id with
    | .approval approvalId suffix =>
      event.approvalId = some approvalId ∧ event.deliveryId = none ∧
        event.payload = suffix.payload approvalId
    | .delivery source => event.approvalId = none ∧ event.deliveryId = some source ∧
      ∀ runId, source ≠ .turnReply runId

/-! ### The writes of a business transaction -/

/-- The columns of the session, the offers and the approvals, left open. -/
def DealWrites (before after : Db) : Prop :=
  after =
    { before with
      session :=
        { before.session with
          status := after.session.status
          currentOfferId := after.session.currentOfferId
          confirmedOfferId := after.session.confirmedOfferId
          confirmedAt := after.session.confirmedAt
          confirmationRequestId := after.session.confirmationRequestId
          confirmationSource := after.session.confirmationSource
          roundCount := after.session.roundCount
          version := after.session.version }
      offers := after.offers
      evidence := after.evidence
      quotes := after.quotes
      approvals := after.approvals
      executions := after.executions
      drafts := after.drafts
      nextId := after.nextId }

/-- A sequence of the writes a business transaction is made of. -/
inductive BusinessWrites : Db → Db → Prop
  | refl (db : Db) : BusinessWrites db db
  | trans {before middle after : Db} (first : BusinessWrites before middle)
      (second : BusinessWrites middle after) : BusinessWrites before after
  | deal {before after : Db} (writes : DealWrites before after) :
      BusinessWrites before after
  | basis (db : Db) (basis : SemanticOfferBasis)
      (chat : ∃ run ∈ db.inputs, run.payload.isChat = true) :
      BusinessWrites db { db with bases := db.bases.insertIgnore basis }
  | receipt {db : Db} {row : BusinessActionReceipt} {receipts : Table BusinessActionReceipt.id}
      {fault : Failure} (lawful : row.Lawful)
      (inserted : db.receipts.insert row fault = .ok receipts) :
      BusinessWrites db { db with receipts }
  | notice (db : Db) {row : NotificationDelivery} (lawful : row.Lawful) :
      BusinessWrites db { db with deliveries := db.deliveries.insertIgnore row }
  | event (db : Db) {row : OutboxEvent} (lawful : row.Lawful) :
      BusinessWrites db { db with outbox := db.outbox.insertIgnore row }

namespace BusinessWrites

variable {before after : Db}

/-- What a business transaction leaves alone. -/
theorem frame (writes : BusinessWrites before after) :
    after =
      { before with
        session :=
          { before.session with
            status := after.session.status
            currentOfferId := after.session.currentOfferId
            confirmedOfferId := after.session.confirmedOfferId
            confirmedAt := after.session.confirmedAt
            confirmationRequestId := after.session.confirmationRequestId
            confirmationSource := after.session.confirmationSource
            roundCount := after.session.roundCount
            version := after.session.version }
        offers := after.offers
        evidence := after.evidence
        quotes := after.quotes
        bases := after.bases
        approvals := after.approvals
        executions := after.executions
        receipts := after.receipts
        deliveries := after.deliveries
        outbox := after.outbox
        drafts := after.drafts
        nextId := after.nextId } := by
  induction writes with
  | refl | basis | receipt | notice | event => rfl
  | trans _ _ first second => rw [second, first]
  | deal writes =>
    unfold DealWrites at writes
    rw [writes]

end BusinessWrites

/-! ### Notices and events -/

section

variable {db after : Db} {now : Time}

theorem eventInTransaction_writes (db : Db) (approvalId : Nat) (suffix : ApprovalSuffix) :
    BusinessWrites db (eventInTransaction db approvalId suffix (suffix.payload approvalId)) :=
  .event db ⟨rfl, rfl, rfl, rfl⟩

theorem effectNotice_writes (db : Db) (approval : ApprovalRequest) (outcome : Outcome)
    (now : Time) : BusinessWrites db (effectNotice db approval outcome now) :=
  have lawful : (effectDelivery approval db.session.version outcome now).Lawful :=
    ⟨rfl, rfl, rfl, rfl, rfl⟩
  .trans (.notice db lawful) (.event _ ⟨rfl, rfl, rfl, fun _ => SourceId.noConfusion⟩)

/-! ### The end of offers and approvals -/

theorem withoutOffer_writes (db : Db) (offers : Table Offer.id) (offerId : Nat) :
    BusinessWrites db { db with offers, session := db.session.withoutOffer offerId } := by
  unfold NegotiationSession.withoutOffer
  split <;> exact .deal (by rfl)

theorem bumpIfCurrent_writes (db : Db) (offerId : Nat) :
    BusinessWrites db (db.bumpIfCurrent offerId) := by
  unfold Db.bumpIfCurrent
  split <;> exact .deal (by rfl)

theorem rejectReviewed_writes (db : Db) (offer : Offer) (approval : ApprovalRequest) :
    BusinessWrites db (rejectReviewed db offer approval) := by
  unfold rejectReviewed
  split <;> exact .deal (by rfl)

theorem writeDecision_writes (db : Db) (offer : Offer) (decided : ApprovalRequest)
    (approved : Bool) : BusinessWrites db (writeDecision db offer decided approved) := by
  unfold writeDecision
  have recorded : BusinessWrites db
      (eventInTransaction { db with approvals := db.approvals.put decided } decided.id .decision
        (.decided decided.id)) := .trans (.deal (by rfl)) (eventInTransaction_writes _ _ _)
  cases approved with
  | false => exact recorded.trans (rejectReviewed_writes _ _ _)
  | true => exact recorded

theorem noticeDecision_writes (db : Db) (decided : ApprovalRequest) (approved : Bool)
    (now : Time) : BusinessWrites db (noticeDecision db decided approved now) := by
  unfold noticeDecision
  split
  · exact .refl db
  · exact effectNotice_writes _ _ _ _

theorem applyEffect_writes {offer : Offer} {approval : ApprovalRequest}
    (done : applyEffect db offer approval = .ok after) : BusinessWrites db after := by
  unfold applyEffect applyApproved at done
  split at done
  · simp only [bind_eq_ok, pure_eq_ok] at done
    obtain ⟨_, _, rfl⟩ := done
    exact .deal (by rfl)
  · obtain rfl := (pure_eq_ok _ _).mp done
    exact .refl db

end

section

variable [Platform] {db after : Db} {now : Time} {fault : Option FaultPoint}

theorem invalidateApproval_writes {approval : ApprovalRequest} {reason : InvalidReason}
    {expired : Bool} {beforeVersion afterVersion : Nat}
    (done : invalidateApproval db approval now reason expired beforeVersion afterVersion =
      .ok after) : BusinessWrites db after := by
  unfold invalidateApproval at done
  split at done
  · obtain rfl := (pure_eq_ok _ _).mp done
    exact .refl db
  · simp only [bind_eq_ok, pure_eq_ok] at done
    obtain ⟨receipts, inserted, rfl⟩ := done
    have ended : BusinessWrites db
        { db with
          receipts, approvals := db.approvals.put (approval.invalidated reason expired) } :=
      .trans (.receipt ⟨rfl, trivial⟩ inserted) (.deal (by rfl))
    exact (ended.trans (eventInTransaction_writes _ _ _)).trans (effectNotice_writes _ _ _ _)

theorem invalidateApprovalOf_writes {offerId afterVersion : Nat} {reason : InvalidReason}
    (done : invalidateApprovalOf db offerId now reason afterVersion = .ok after) :
    BusinessWrites db after := by
  unfold invalidateApprovalOf at done
  split at done
  · obtain rfl := (pure_eq_ok _ _).mp done
    exact .refl db
  · exact invalidateApproval_writes done

theorem invalidateOffer_writes {offer : Option Offer} {reason : InvalidReason}
    (done : invalidateOffer db offer now reason = .ok after) : BusinessWrites db after := by
  unfold invalidateOffer at done
  split at done
  · obtain rfl := (pure_eq_ok _ _).mp done
    exact .refl db
  · split at done
    · exact (withoutOffer_writes _ _ _).trans (invalidateApprovalOf_writes done)
    · obtain rfl := (pure_eq_ok _ _).mp done
      exact .refl db

/-! ### Proposals -/

theorem newOfferInTransaction_writes {terms : Terms} {proposer : OfferProposer}
    {result : Db × Offer}
    (done : newOfferInTransaction db terms proposer now = .ok result) :
    BusinessWrites db result.1 := by
  unfold newOfferInTransaction at done
  simp only [bind_eq_ok, pure_eq_ok] at done
  obtain ⟨offer, _, offers, _, evidence, _, rfl⟩ := done
  exact .deal (by rfl)

omit [Platform] in
theorem openApproval_writes {offer : Offer} {result : Db × Result}
    (done : openApproval db offer now = .ok result) : BusinessWrites db result.1 := by
  unfold openApproval startApproval at done
  simp only [bind_eq_ok, pure_eq_ok] at done
  obtain ⟨_, _, approvals, _, _, ⟨executions, _, rfl⟩, rfl⟩ := done
  exact .trans (.deal (by rfl)) (eventInTransaction_writes _ _ _)

theorem rejectProposal_writes {offer : Offer} {counterTerms : Option Terms} {result : Db × Result}
    (done : rejectProposal db offer counterTerms now = .ok result) :
    BusinessWrites db result.1 := by
  unfold rejectProposal at done
  split at done
  · obtain rfl := (pure_eq_ok _ _).mp done
    exact .deal (by rfl)
  · simp only [bind_eq_ok, pure_eq_ok] at done
    obtain ⟨⟨countered, counter⟩, placed, rfl⟩ := done
    have offered := BusinessWrites.trans (.deal (by rfl)) (newOfferInTransaction_writes placed)
    exact offered.trans (.deal (by rfl))

theorem resolution_writes {offer : Offer} {authorization : OfferAuthorization}
    {counterTerms : Option Terms} {result : Db × Result}
    (done : resolution db offer authorization counterTerms now = .ok result) :
    BusinessWrites db result.1 := by
  unfold resolution at done
  split at done
  · obtain rfl := (pure_eq_ok _ _).mp done
    exact .deal (by rfl)
  · split at done
    · exact openApproval_writes done
    · exact rejectProposal_writes done

theorem clearCurrent_writes {rejected : Bool}
    (done : clearCurrent db rejected now = .ok after) : BusinessWrites db after := by
  unfold clearCurrent at done
  split at done
  · obtain rfl := (pure_eq_ok _ _).mp done
    exact .refl db
  · exact invalidateOffer_writes done

theorem propose_writes {terms : Terms} {counterTerms : Option Terms}
    {authorization : OfferAuthorization} {result : Db × Result}
    (done : propose db terms counterTerms authorization now fault = .ok result) :
    BusinessWrites db result.1 := by
  unfold propose at done
  simp only [bind_eq_ok, pure_eq_ok] at done
  obtain ⟨_, _, _, _, _, _, cleared, ended, ⟨proposed, offer⟩, placed, _, _, _, _,
    ⟨resolved, answer⟩, settled, _, _, rfl⟩ := done
  have counted : BusinessWrites db
      { proposed with
        session :=
          { proposed.session with
            roundCount := proposed.session.roundCount + 1
            version := proposed.session.version + 1 } } :=
    ((clearCurrent_writes ended).trans (newOfferInTransaction_writes placed)).trans (.deal (by rfl))
  exact counted.trans (resolution_writes settled)

theorem resolveOfferInTransaction_writes {payload : TypedInput} {terms : Terms}
    {candidate : Option Candidate} {result : Db × Result}
    (done : resolveOfferInTransaction db payload terms candidate now fault = .ok result) :
    BusinessWrites db result.1 := by
  unfold resolveOfferInTransaction at done
  simp only [bind_eq_ok] at done
  obtain ⟨_, _, authorization, _, _, _, _, _, settled⟩ := done
  split at settled
  · simp only [bind_eq_ok, pure_eq_ok] at settled
    obtain ⟨_, _, rfl⟩ := settled
    exact .refl db
  · exact propose_writes settled

/-! ### Commands -/

theorem confirmInTransaction_writes {payload : TypedInput} {run : NegotiationInput}
    {result : Db × Result}
    (done : confirmInTransaction db payload run now fault = .ok result) :
    BusinessWrites db result.1 := by
  unfold confirmInTransaction at done
  simp only [bind_eq_ok, pure_eq_ok] at done
  obtain ⟨_, _, _, _, _, _, _, _, _, _, rfl⟩ := done
  exact .deal (by rfl)

theorem lifecycleInTransaction_writes {payload : TypedInput} {result : Db × Result}
    (done : lifecycleInTransaction db payload now fault = .ok result) :
    BusinessWrites db result.1 := by
  unfold lifecycleInTransaction at done
  simp only [bind_eq_ok, pure_eq_ok] at done
  obtain ⟨_, _, _, _, ended, cleared, rfl⟩ := done
  refine (invalidateOffer_writes cleared).trans ?_
  split <;> exact .deal (by rfl)

theorem quoteInTransaction_writes {candidate : Candidate}
    {result : Db × CostQuote × Terms × List Evaluation}
    (done : quoteInTransaction db candidate now = .ok result) :
    BusinessWrites db result.1 := by
  unfold quoteInTransaction at done
  simp only [bind_eq_ok, pure_eq_ok] at done
  obtain ⟨_, _, quotes, _, _, _, _, _, _, _, rfl⟩ := done
  exact .deal (by rfl)

/-- A quotation is made only for a chat input. -/
theorem quoteDraft_writes {run : NegotiationInput} {payload : TypedInput}
    {result : Db × Option Quotation} (done : quoteDraft db run payload now = .ok result) :
    BusinessWrites db result.1 ∧ (result.2 ≠ none → run.payload.isChat = true) := by
  unfold quoteDraft at done
  split at done
  · next offered =>
    simp only [bind_eq_ok, pure_eq_ok] at done
    obtain ⟨_, _, _, _, ⟨quoted, quote, terms, evaluations⟩, placed, rfl⟩ := done
    exact ⟨quoteInTransaction_writes placed, fun _ => offered.1⟩
  · obtain rfl := (pure_eq_ok _ _).mp done
    exact ⟨.refl db, fun quoted => absurd rfl quoted⟩

omit [Platform] in
theorem limitApproval_writes (db : Db) (approvalId : Option Nat) (quote : CostQuote) :
    BusinessWrites db (limitApproval db approvalId quote) := by
  unfold limitApproval
  split
  · exact .refl db
  · exact .deal (by rfl)

omit [Platform] in
theorem recordBasis_writes {quotation : Option Quotation} {result : Result}
    (chat : quotation ≠ none → ∃ run ∈ db.inputs, run.payload.isChat = true)
    (done : recordBasis db quotation result = .ok after) : BusinessWrites db after := by
  cases quotation with
  | none =>
    obtain rfl := (pure_eq_ok _ _).mp done
    exact .refl db
  | some quotation =>
    unfold recordBasis at done
    simp only [bind_eq_ok, pure_eq_ok] at done
    obtain ⟨offerId, _, rfl⟩ := done
    have based := BusinessWrites.basis db
      { offerId
        costQuoteId := quotation.quote.id
        candidate := quotation.draft.candidate
        evaluations := quotation.evaluations } (chat (Option.some_ne_none _))
    exact based.trans (.trans (.deal (by rfl)) (limitApproval_writes _ _ _))

theorem placeOffer_writes {payload : TypedInput} {quotation : Option Quotation}
    {result : Db × Result}
    (chat : quotation ≠ none → ∃ run ∈ db.inputs, run.payload.isChat = true)
    (done : placeOffer db payload quotation now fault = .ok result) :
    BusinessWrites db result.1 := by
  unfold placeOffer at done
  simp only [bind_eq_ok, pure_eq_ok] at done
  obtain ⟨_, _, ⟨resolved, outcome⟩, placed, recorded, based, rfl⟩ := done
  have first := resolveOfferInTransaction_writes placed
  refine first.trans (recordBasis_writes ?_ based)
  rw [first.frame]
  exact chat

theorem carryOut_writes {run : NegotiationInput} {payload : TypedInput}
    {quotation : Option Quotation} {result : Db × Result}
    (chat : quotation ≠ none → ∃ run ∈ db.inputs, run.payload.isChat = true)
    (done : carryOut db run payload quotation now fault = .ok result) :
    BusinessWrites db result.1 := by
  unfold carryOut at done
  split at done
  · exact placeOffer_writes chat done
  · exact placeOffer_writes chat done
  · exact confirmInTransaction_writes done
  · exact lifecycleInTransaction_writes done
  · exact lifecycleInTransaction_writes done
  · cases done

/-! ### Reconciliation, review and application -/

theorem reconcileApproval_writes {offer : Offer} {approval : ApprovalRequest}
    (done : reconcileApproval db offer approval now = .ok after) : BusinessWrites db after := by
  unfold reconcileApproval at done
  split at done
  · obtain rfl := (pure_eq_ok _ _).mp done
    exact .refl db
  · split at done
    · simp only [bind_eq_ok] at done
      obtain ⟨ended, invalidated, rest⟩ := done
      exact ((bumpIfCurrent_writes _ _).trans (invalidateApproval_writes invalidated)).trans
        (invalidateOffer_writes rest)
    · obtain rfl := (pure_eq_ok _ _).mp done
      exact .refl db

theorem reconcile_writes {approvalId : Nat} (done : reconcile db approvalId now = .ok after) :
    BusinessWrites db after := by
  unfold reconcile at done
  simp only [bind_eq_ok] at done
  obtain ⟨⟨offer, approval⟩, _, reconciled⟩ := done
  exact reconcileApproval_writes reconciled

theorem invalidateCurrent_writes {offer : Offer}
    (done : invalidateCurrent db offer now = .ok after) : BusinessWrites db after := by
  unfold invalidateCurrent at done
  simp only [bind_eq_ok, pure_eq_ok] at done
  obtain ⟨ended, invalidated, receipts, receipted, deliveries, noticed, outbox, announced, rfl⟩ :=
    done
  rw [Table.eq_insertIgnore noticed, Table.eq_insertIgnore announced]
  have first : BusinessWrites db ended :=
    .trans (.deal (by rfl)) (invalidateOffer_writes invalidated)
  exact ((first.trans (.receipt ⟨rfl, trivial⟩ receipted)).trans
    (.notice _ ⟨rfl, rfl, rfl, rfl⟩)).trans
    (.event _ ⟨rfl, rfl, rfl, fun _ => SourceId.noConfusion⟩)

theorem reconcileOffer_writes (done : reconcileOffer db now = .ok after) :
    BusinessWrites db after := by
  unfold reconcileOffer at done
  split at done
  · obtain rfl := (pure_eq_ok _ _).mp done
    exact .refl db
  · split at done
    · obtain rfl := (pure_eq_ok _ _).mp done
      exact .refl db
    · simp only [bind_eq_ok] at done
      obtain ⟨offer, _, rest⟩ := done
      split at rest
      · exact reconcileApproval_writes rest
      · split at rest
        · obtain rfl := (pure_eq_ok _ _).mp rest
          exact .refl db
        · exact invalidateCurrent_writes rest

omit [Platform] in
theorem decideApproval_writes {offer : Offer} {approval : ApprovalRequest} {approved : Bool}
    {comment : Option String} {key hash : Digest} {beforeVersion : Nat}
    (done : decideApproval db offer approval approved comment key hash beforeVersion now fault =
      .ok after) : BusinessWrites db after := by
  unfold decideApproval at done
  simp only [bind_eq_ok, pure_eq_ok] at done
  obtain ⟨_, _, _, _, _, _, receipts, receipted, _, _, _, _, _, _, rfl⟩ := done
  exact ((writeDecision_writes db offer _ approved).trans
    (.receipt ⟨rfl, trivial⟩ receipted)).trans (noticeDecision_writes _ _ approved now)

theorem reviewNew_writes {offer : Offer} {approval : ApprovalRequest} {approved : Bool}
    {comment : Option String} {expectedRevision : Option Nat} {key hash : Digest}
    {result : Db × Option String}
    (done : reviewNew db offer approval approved comment expectedRevision key hash now fault =
      .ok result) : BusinessWrites db result.1 := by
  unfold reviewNew at done
  simp only [bind_eq_ok] at done
  obtain ⟨_, _, _, _, reconciled, ended, current, _, rest⟩ := done
  split at rest
  · obtain rfl := (pure_eq_ok _ _).mp rest
    exact reconcileApproval_writes ended
  · simp only [bind_eq_ok, pure_eq_ok] at rest
    obtain ⟨decided, recorded, rfl⟩ := rest
    exact (reconcileApproval_writes ended).trans (decideApproval_writes recorded)

theorem review_writes {seller requestId : String} {approvalId : Nat} {comment : Option String}
    {approved : Bool} {expectedRevision : Option Nat} {result : Db × Option String}
    (done : review db seller approvalId requestId comment approved expectedRevision now fault =
      .ok result) : BusinessWrites db result.1 := by
  unfold review at done
  simp only [bind_eq_ok] at done
  obtain ⟨_, _, _, _, ⟨offer, approval⟩, _, rest⟩ := done
  split at rest
  · simp only [bind_eq_ok, pure_eq_ok] at rest
    obtain ⟨_, _, rfl⟩ := rest
    exact .refl db
  · exact reviewNew_writes rest

theorem applyNew_writes {offer : Offer} {approval : ApprovalRequest} {approvalId : Nat}
    {event : BitVec 80} {hash : Digest} {result : Db × Result} (same : approval.id = approvalId)
    (done : applyNew db offer approval (.approvalApply approvalId event) hash now fault =
      .ok result) : BusinessWrites db result.1 := by
  unfold applyNew at done
  simp only [bind_eq_ok, pure_eq_ok, expect_eq_ok] at done
  obtain ⟨reconciled, ended, current, found, _, _, applied, effected, _, _, final, final_found,
    receipts, receipted, _, _, _, _, _, _, rfl⟩ := done
  have named : final.id = approvalId := (Table.key_of_get final_found).trans same
  have lawful : ∀ row : BusinessActionReceipt, row.id = .approvalApply approvalId event →
      row.inputId = none → row.result = .business (appliedResult final) → row.Lawful := by
    intro row keyed unbound answered
    refine ⟨unbound, ?_⟩
    rw [keyed]
    exact ⟨appliedResult final, answered, congrArg some named, Option.some_ne_none _⟩
  exact (((reconcileApproval_writes ended).trans (applyEffect_writes effected)).trans
    (.receipt (lawful _ rfl rfl rfl) receipted)).trans (effectNotice_writes _ _ _ _)

theorem applyApproval_writes {approvalId : Nat} {eventId : EventId} {owner : Owner}
    {result : Db × Result}
    (done : applyApproval db approvalId eventId owner now fault = .ok result) :
    BusinessWrites db result.1 := by
  unfold applyApproval lockContext at done
  simp only [bind_eq_ok, pure_eq_ok, expect_eq_ok] at done
  obtain ⟨_, _, _, ⟨approval, found, _, _, offer, _, rfl⟩, event, _, _, _, rest⟩ := done
  split at rest
  · simp only [bind_eq_ok, pure_eq_ok] at rest
    obtain ⟨_, _, answer, _, rfl⟩ := rest
    exact .refl db
  · exact applyNew_writes (Table.key_of_get found) rest

end

end Negotiation
