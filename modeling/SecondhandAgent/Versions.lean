/-
This file proves that the version of a session is accounted for. Whatever is
committed moves the version by one or leaves it, and every receipt it writes
carries the version before and the version after the whole transaction, also
where a part of the transaction has to say the version before it is raised. So
the receipts are a journal of the version, without a gap from the first version
to the present one.
-/

import SecondhandAgent.Bargain
import SecondhandAgent.Journal
import SecondhandAgent.Schedule

namespace Negotiation

open Store Deal

/-! ### Receipts with a stamp -/

/-- The versions before and after the transaction, as the receipt has them. -/
def BusinessActionReceipt.interval (receipt : BusinessActionReceipt) : Nat × Nat :=
  (receipt.beforeVersion, receipt.afterVersion)

/-- The receipt answers a proposal that repeats the current offer. -/
def BusinessActionReceipt.Reuses (receipt : BusinessActionReceipt) : Prop :=
  ∃ result, receipt.result = .business result ∧ result.reused = true

/-- Receipts with one stamp are added, none of them for a proposal that is repeated. -/
def Logged (before after : Table BusinessActionReceipt.id) (stamp : Nat × Nat) : Prop :=
  ∃ written, after.rows = written ++ before.rows ∧
    ∀ receipt ∈ written, receipt.interval = stamp ∧ ¬ receipt.Reuses

section

variable {before middle after : Table BusinessActionReceipt.id} {stamp : Nat × Nat}

theorem Logged.refl (table : Table BusinessActionReceipt.id) (stamp : Nat × Nat) :
    Logged table table stamp :=
  ⟨[], rfl, fun _ member => absurd member List.not_mem_nil⟩

theorem Logged.trans (first : Logged before middle stamp) (second : Logged middle after stamp) :
    Logged before after stamp := by
  obtain ⟨early, earlyRows, earlyStamps⟩ := first
  obtain ⟨late, lateRows, lateStamps⟩ := second
  refine ⟨late ++ early, by rw [lateRows, earlyRows, List.append_assoc], fun receipt member => ?_⟩
  rcases List.mem_append.mp member with new | old
  · exact lateStamps receipt new
  · exact earlyStamps receipt old

theorem Logged.one {receipt : BusinessActionReceipt} (rows : after.rows = receipt :: before.rows)
    (stamped : receipt.interval = stamp) (fresh : ¬ receipt.Reuses) :
    Logged before after stamp := by
  refine ⟨[receipt], rows, fun other member => ?_⟩
  obtain rfl := List.mem_singleton.mp member
  exact ⟨stamped, fresh⟩

end

/-- What is committed: the receipts it writes, stamped with the versions around it. -/
structure Committed (before after : Db) (written : List BusinessActionReceipt) : Prop where
  rows : after.receipts.rows = written ++ before.receipts.rows
  commit : Commit BusinessActionReceipt.interval written before.session.version
    after.session.version
  reused : ∀ receipt ∈ written, receipt.Reuses → after.session.version = before.session.version

variable {db after : Db}

theorem Committed.idle (version : after.session.version = db.session.version)
    (receipts : after.receipts = db.receipts) : Committed db after [] := by
  refine ⟨by rw [receipts]; rfl, ?_, fun _ member => absurd member List.not_mem_nil⟩
  rw [version]
  exact .idle _

/-- Stamped receipts and one more make a commit. -/
theorem Committed.of_logged {receipts : Table BusinessActionReceipt.id}
    {receipt : BusinessActionReceipt}
    (logged : Logged db.receipts receipts (db.session.version, after.session.version))
    (rows : after.receipts.rows = receipt :: receipts.rows)
    (moves : after.session.version = db.session.version ∨
      after.session.version = db.session.version + 1)
    (stamped : receipt.interval = (db.session.version, after.session.version))
    (reused : receipt.Reuses → after.session.version = db.session.version) :
    ∃ written, Committed db after written := by
  obtain ⟨written, earlier, stamps⟩ := logged
  refine ⟨receipt :: written, by rw [rows, earlier]; rfl, ⟨moves, ?_, ?_⟩, ?_⟩
  · intro other member
    rcases List.mem_cons.mp member with rfl | old
    · exact stamped
    · exact (stamps other old).1
  · exact fun _ => List.cons_ne_nil _ _
  · intro other member reuses
    rcases List.mem_cons.mp member with rfl | old
    · exact reused reuses
    · exact absurd reuses (stamps other old).2

/-! ### The end of offers and approvals -/

section

variable [Platform] {now : Time} {fault : Option FaultPoint}

omit [Platform] in
theorem withoutOffer_version (session : NegotiationSession) (offerId : Nat) :
    (session.withoutOffer offerId).version = session.version := by
  unfold NegotiationSession.withoutOffer
  split <;> rfl

/-- An approval that loses its effect has a receipt of it. -/
theorem invalidateApproval_receipt {approval : ApprovalRequest} {reason : InvalidReason}
    {expired : Bool} {beforeVersion afterVersion : Nat}
    (effective : approval.effectStatus ≠ .invalidated)
    (done : invalidateApproval db approval now reason expired beforeVersion afterVersion =
      .ok after) :
    after.session = db.session ∧ ∃ receipt, after.receipts.rows = receipt :: db.receipts.rows ∧
      receipt.interval = (beforeVersion, afterVersion) ∧ ¬ receipt.Reuses := by
  unfold invalidateApproval at done
  rw [if_neg effective] at done
  simp only [bind_eq_ok, pure_eq_ok] at done
  obtain ⟨receipts, inserted, rfl⟩ := done
  refine ⟨rfl, _, Table.rows_insert inserted, rfl, ?_⟩
  rintro ⟨result, same, reused⟩
  obtain rfl := ReceiptResult.business.inj same
  cases reused

theorem invalidateApproval_logged {approval : ApprovalRequest} {reason : InvalidReason}
    {expired : Bool} {beforeVersion afterVersion : Nat}
    (done : invalidateApproval db approval now reason expired beforeVersion afterVersion =
      .ok after) :
    after.session = db.session ∧
      Logged db.receipts after.receipts (beforeVersion, afterVersion) := by
  by_cases gone : approval.effectStatus = .invalidated
  · rw [invalidateApproval_again gone done]
    exact ⟨rfl, .refl _ _⟩
  · obtain ⟨session, receipt, rows, stamped, fresh⟩ := invalidateApproval_receipt gone done
    exact ⟨session, .one rows stamped fresh⟩

/-- Ending the current offer leaves the version to its caller, who raises it by one. -/
theorem invalidateOffer_logged {offer : Option Offer} {reason : InvalidReason}
    (current : ∀ ended, offer = some ended → db.session.currentOfferId = some ended.id)
    (done : invalidateOffer db offer now reason = .ok after) :
    after.session.version = db.session.version ∧
      Logged db.receipts after.receipts (db.session.version, db.session.version + 1) := by
  unfold invalidateOffer at done
  split at done
  · obtain rfl := (pure_eq_ok _ _).mp done
    exact ⟨rfl, .refl _ _⟩
  · next ended =>
    split at done
    · have unmoved := withoutOffer_version db.session ended.id
      unfold invalidateApprovalOf at done
      dsimp only at done
      rw [if_pos (current ended rfl)] at done
      split at done
      · obtain rfl := (pure_eq_ok _ _).mp done
        exact ⟨unmoved, .refl _ _⟩
      · obtain ⟨session, logged⟩ := invalidateApproval_logged done
        rw [session]
        refine ⟨unmoved, ?_⟩
        rw [unmoved] at logged
        exact logged
    · obtain rfl := (pure_eq_ok _ _).mp done
      exact ⟨rfl, .refl _ _⟩

/-- An offer whose approval has no effect left ends without a receipt. -/
theorem invalidateOffer_silent {offer : Offer} {reason : InvalidReason}
    (gone : ∀ other ∈ db.approvals, other.offerId = offer.id → other.effectStatus = .invalidated)
    (done : invalidateOffer db (some offer) now reason = .ok after) :
    after.session.version = db.session.version ∧ after.receipts = db.receipts := by
  unfold invalidateOffer invalidateApprovalOf at done
  dsimp only at done
  have unmoved := withoutOffer_version db.session offer.id
  split at done
  · split at done
    · obtain rfl := (pure_eq_ok _ _).mp done
      exact ⟨unmoved, rfl⟩
    · next other asked =>
      obtain ⟨found, about⟩ := mem_of_approvalOf asked
      rw [invalidateApproval_again (gone other found about) done]
      exact ⟨unmoved, rfl⟩
  · obtain rfl := (pure_eq_ok _ _).mp done
    exact ⟨rfl, rfl⟩

/-! ### Commands -/

omit [Platform] in
/-- The current offer of a session is the one its row names. -/
theorem currentOffer_current {offer : Offer} (current : db.currentOffer = some offer) :
    db.session.currentOfferId = some offer.id := by
  obtain ⟨offerId, named, found⟩ := Option.bind_eq_some_iff.mp current
  rw [named, Table.key_of_get found]

theorem newOfferInTransaction_frame {terms : Terms} {proposer : OfferProposer}
    {result : Db × Offer} (done : newOfferInTransaction db terms proposer now = .ok result) :
    result.1.session = db.session ∧ result.1.receipts = db.receipts := by
  unfold newOfferInTransaction at done
  simp only [bind_eq_ok, pure_eq_ok] at done
  obtain ⟨offer, _, offers, _, evidence, _, rfl⟩ := done
  exact ⟨rfl, rfl⟩

/-- What becomes of a new offer leaves the version and the receipts alone. -/
theorem resolution_frame {offer : Offer} {authorization : OfferAuthorization}
    {counterTerms : Option Terms} {result : Db × Result}
    (done : resolution db offer authorization counterTerms now = .ok result) :
    result.1.session.version = db.session.version ∧ result.1.receipts = db.receipts ∧
      result.2.reused = false := by
  unfold resolution openApproval rejectProposal startApproval at done
  split at done
  · obtain rfl := (pure_eq_ok _ _).mp done
    exact ⟨rfl, rfl, rfl⟩
  · split at done
    · simp only [bind_eq_ok, pure_eq_ok] at done
      obtain ⟨_, _, approvals, _, _, ⟨executions, _, rfl⟩, rfl⟩ := done
      exact ⟨rfl, rfl, rfl⟩
    · split at done
      · obtain rfl := (pure_eq_ok _ _).mp done
        exact ⟨rfl, rfl, rfl⟩
      · simp only [bind_eq_ok, pure_eq_ok] at done
        obtain ⟨⟨countered, counter⟩, placed, rfl⟩ := done
        obtain ⟨session, receipts⟩ := newOfferInTransaction_frame placed
        have version : countered.session.version = db.session.version :=
          congrArg NegotiationSession.version session
        exact ⟨version, receipts, rfl⟩

/-- The part of a command on the business: it repeats an offer and leaves the version, or it
raises the version by one. -/
inductive Acted (before after : Db) (reused : Bool) : Prop
  | repeated (again : reused = true) (version : after.session.version = before.session.version)
      (receipts : after.receipts = before.receipts)
  | raised (first : reused = false)
      (version : after.session.version = before.session.version + 1)
      (logged : Logged before.receipts after.receipts
        (before.session.version, before.session.version + 1))

theorem propose_acted {terms : Terms} {counterTerms : Option Terms}
    {authorization : OfferAuthorization} {result : Db × Result}
    (done : propose db terms counterTerms authorization now fault = .ok result) :
    Acted db result.1 result.2.reused := by
  unfold propose clearCurrent at done
  simp only [bind_eq_ok, pure_eq_ok] at done
  obtain ⟨_, _, _, _, _, _, cleared, ended, ⟨proposed, offer⟩, placed, _, _, _, _,
    ⟨resolved, answer⟩, settled, _, _, rfl⟩ := done
  have clears : cleared.session.version = db.session.version ∧
      Logged db.receipts cleared.receipts (db.session.version, db.session.version + 1) := by
    split at ended
    · obtain rfl := (pure_eq_ok _ _).mp ended
      exact ⟨rfl, .refl _ _⟩
    · exact invalidateOffer_logged (fun _ => currentOffer_current) ended
  obtain ⟨session, receipts⟩ := newOfferInTransaction_frame placed
  obtain ⟨raised, same, first⟩ := resolution_frame settled
  refine .raised first ?_ ?_
  · rw [raised]
    show proposed.session.version + 1 = _
    rw [session, clears.1]
  · rw [same]
    show Logged db.receipts proposed.receipts _
    rw [receipts]
    exact clears.2

theorem resolveOfferInTransaction_acted {payload : TypedInput} {terms : Terms}
    {candidate : Option Candidate} {result : Db × Result}
    (done : resolveOfferInTransaction db payload terms candidate now fault = .ok result) :
    Acted db result.1 result.2.reused := by
  unfold resolveOfferInTransaction at done
  simp only [bind_eq_ok] at done
  obtain ⟨_, _, authorization, _, _, _, _, _, settled⟩ := done
  split at settled
  · simp only [bind_eq_ok, pure_eq_ok] at settled
    obtain ⟨_, _, rfl⟩ := settled
    exact .repeated rfl rfl rfl
  · exact propose_acted settled

omit [Platform] in
theorem recordBasis_frame {quotation : Option Quotation} {result : Result}
    (done : recordBasis db quotation result = .ok after) :
    after.session = db.session ∧ after.receipts = db.receipts := by
  unfold recordBasis limitApproval at done
  split at done
  · obtain rfl := (pure_eq_ok _ _).mp done
    exact ⟨rfl, rfl⟩
  · simp only [bind_eq_ok, pure_eq_ok] at done
    obtain ⟨offerId, _, rfl⟩ := done
    split <;> exact ⟨rfl, rfl⟩

theorem quoteDraft_frame {run : NegotiationInput} {payload : TypedInput}
    {result : Db × Option Quotation} (done : quoteDraft db run payload now = .ok result) :
    result.1.session = db.session ∧ result.1.receipts = db.receipts := by
  unfold quoteDraft quoteInTransaction at done
  split at done
  · simp only [bind_eq_ok, pure_eq_ok] at done
    obtain ⟨_, _, _, _, ⟨quoted, quote, terms, evaluations⟩, ⟨_, _, quotes, _, _, _, _, _, _, _, same⟩,
      rfl⟩ := done
    obtain rfl := (Prod.mk.inj same).1
    exact ⟨rfl, rfl⟩
  · obtain rfl := (pure_eq_ok _ _).mp done
    exact ⟨rfl, rfl⟩

theorem lifecycleInTransaction_acted {payload : TypedInput} {result : Db × Result}
    (done : lifecycleInTransaction db payload now fault = .ok result) :
    Acted db result.1 result.2.reused := by
  unfold lifecycleInTransaction at done
  simp only [bind_eq_ok, pure_eq_ok] at done
  obtain ⟨_, _, _, _, ended, cleared, rfl⟩ := done
  obtain ⟨version, logged⟩ := invalidateOffer_logged (fun _ => currentOffer_current) cleared
  refine .raised rfl ?_ ?_
  · dsimp only
    split <;> exact congrArg (· + 1) version
  · dsimp only
    split <;> exact logged

theorem carryOut_acted {run : NegotiationInput} {payload : TypedInput}
    {quotation : Option Quotation} {result : Db × Result}
    (done : carryOut db run payload quotation now fault = .ok result) :
    Acted db result.1 result.2.reused := by
  have placed : placeOffer db payload quotation now fault = .ok result →
      Acted db result.1 result.2.reused := by
    intro done
    unfold placeOffer at done
    simp only [bind_eq_ok, pure_eq_ok] at done
    obtain ⟨_, _, ⟨resolved, outcome⟩, settled, recorded, based, rfl⟩ := done
    obtain ⟨session, receipts⟩ := recordBasis_frame based
    cases resolveOfferInTransaction_acted settled with
    | repeated again version same =>
      exact .repeated again (by rw [session]; exact version) (receipts.trans same)
    | raised first version logged =>
      exact .raised first (by rw [session]; exact version) (by rw [receipts]; exact logged)
  unfold carryOut at done
  split at done
  · exact placed done
  · exact placed done
  · unfold confirmInTransaction at done
    simp only [bind_eq_ok, pure_eq_ok] at done
    obtain ⟨_, _, _, _, _, _, _, _, _, _, rfl⟩ := done
    exact .raised rfl rfl (.refl _ _)
  · exact lifecycleInTransaction_acted done
  · exact lifecycleInTransaction_acted done
  · cases done

/-- A command commits a receipt of its own, and at most one more of the approval it ends. -/
theorem execute_committed {runId expectedVersion : Nat} {owner : Owner}
    {result : Db × ReceiptResult}
    (done : execute db runId owner expectedVersion now fault = .ok result) :
    ∃ written, Committed db result.1 written := by
  rcases execute_carries done with
    ⟨same, _⟩ | ⟨run, payload, quoted, quotation, finished, outcome, _, carries⟩
  · rw [same]
    exact ⟨[], .idle rfl rfl⟩
  obtain ⟨session, same⟩ := quoteDraft_frame carries.priced
  have session : quoted.session = db.session := session
  have same : quoted.receipts = db.receipts := same
  have version : result.1.session.version = finished.session.version := by rw [carries.frame]
  have rows : result.1.receipts.rows =
      commandReceipt run expectedVersion finished.session.version
        { outcome with businessVersion := some finished.session.version } now ::
          finished.receipts.rows := by
    rw [carries.frame]
    exact Table.rows_insertIgnore carries.fresh
  have stamp : (commandReceipt run expectedVersion finished.session.version
      { outcome with businessVersion := some finished.session.version } now).interval =
        (db.session.version, result.1.session.version) :=
    Prod.ext carries.expected.symm version.symm
  cases carryOut_acted carries.carried with
  | repeated _ unmoved receipts =>
    have unmoved : result.1.session.version = db.session.version := by
      rw [version, unmoved, session]
    refine Committed.of_logged ?_ rows (.inl unmoved) stamp fun _ => unmoved
    rw [receipts, same]
    exact .refl _ _
  | raised first raised logged =>
    have raised : result.1.session.version = db.session.version + 1 := by
      rw [version, raised, session]
    refine Committed.of_logged ?_ rows (.inr raised) stamp ?_
    · rw [raised, ← same, ← session]
      exact logged
    · rintro ⟨answer, answered, reused⟩
      obtain rfl := ReceiptResult.business.inj answered
      exact absurd (first.symm.trans reused) Bool.false_ne_true

/-! ### Reconciliation, review and application -/

/-- A reconciliation does nothing, or it raises the version by one and has a receipt of it. -/
theorem reconcileApproval_logged (shape : Shape db.deal) {offer : Offer}
    {approval : ApprovalRequest} (asked : approval ∈ db.approvals) (member : offer ∈ db.offers)
    (about : offer.id = approval.offerId)
    (done : reconcileApproval db offer approval now = .ok after) :
    after = db ∨ after.session.version = db.session.version + 1 ∧
      ∃ receipt, after.receipts.rows = receipt :: db.receipts.rows ∧
        receipt.interval = (db.session.version, db.session.version + 1) ∧ ¬ receipt.Reuses := by
  unfold reconcileApproval at done
  split at done
  · exact .inl ((pure_eq_ok _ _).mp done).symm
  · next unsettled =>
    split at done
    · simp only [bind_eq_ok] at done
      obtain ⟨middle, invalidated, rest⟩ := done
      obtain ⟨live, _, effective⟩ := unsettled_live shape asked member about unsettled
      have gone := none_effective shape asked about effective invalidated
      have bumped : db.bumpIfCurrent offer.id =
          { db with session := { db.session with version := db.session.version + 1 } } :=
        if_pos (shape.live offer member live)
      rw [bumped] at invalidated
      obtain ⟨session, receipt, rows, stamped, fresh⟩ :=
        invalidateApproval_receipt effective invalidated
      obtain ⟨version, receipts⟩ := invalidateOffer_silent gone rest
      refine .inr ⟨?_, receipt, ?_, stamped, fresh⟩
      · rw [version, session]
      · rw [receipts]
        exact rows
    · exact .inl ((pure_eq_ok _ _).mp done).symm

omit [Platform] in
/-- One receipt of a raised version is a commit. -/
theorem Committed.raised {receipt : BusinessActionReceipt}
    (version : after.session.version = db.session.version + 1)
    (rows : after.receipts.rows = receipt :: db.receipts.rows)
    (stamped : receipt.interval = (db.session.version, db.session.version + 1))
    (fresh : ¬ receipt.Reuses) : ∃ written, Committed db after written := by
  refine Committed.of_logged (.refl _ _) rows (.inr version) ?_ fun reuses => absurd reuses fresh
  rw [version]
  exact stamped

theorem reconcileApproval_committed (shape : Shape db.deal) {offer : Offer}
    {approval : ApprovalRequest} (asked : approval ∈ db.approvals) (member : offer ∈ db.offers)
    (about : offer.id = approval.offerId)
    (done : reconcileApproval db offer approval now = .ok after) :
    ∃ written, Committed db after written := by
  rcases reconcileApproval_logged shape asked member about done with
    rfl | ⟨version, receipt, rows, stamped, fresh⟩
  · exact ⟨[], .idle rfl rfl⟩
  · exact Committed.raised version rows stamped fresh

theorem reconcile_committed {approvalId : Nat} (shape : Shape db.deal)
    (done : reconcile db approvalId now = .ok after) : ∃ written, Committed db after written := by
  unfold reconcile at done
  simp only [bind_eq_ok] at done
  obtain ⟨⟨offer, approval⟩, locked, reconciled⟩ := done
  obtain ⟨asked, _, member, about⟩ := lockContext_eq_ok locked
  exact reconcileApproval_committed shape asked member about reconciled

theorem invalidateCurrent_committed {offer : Offer} (unasked : db.approvalOf offer.id = none)
    (done : invalidateCurrent db offer now = .ok after) :
    ∃ written, Committed db after written := by
  unfold invalidateCurrent at done
  simp only [bind_eq_ok, pure_eq_ok] at done
  obtain ⟨ended, invalidated, receipts, receipted, deliveries, _, outbox, _, rfl⟩ := done
  have none : ∀ other ∈ db.approvals, other.offerId = offer.id →
      other.effectStatus = .invalidated :=
    fun other asked about => absurd about (approvalOf_eq_none.mp unasked other asked)
  obtain ⟨version, same⟩ := invalidateOffer_silent (by exact none) invalidated
  have rows := Table.rows_insert receipted
  rw [same] at rows
  refine Committed.raised version rows (Prod.ext rfl version) ?_
  rintro ⟨result, answered, reused⟩
  obtain rfl := ReceiptResult.business.inj answered
  cases reused

theorem reconcileOffer_committed (shape : Shape db.deal)
    (done : reconcileOffer db now = .ok after) : ∃ written, Committed db after written := by
  unfold reconcileOffer at done
  split at done
  · obtain rfl := (pure_eq_ok _ _).mp done
    exact ⟨[], .idle rfl rfl⟩
  · split at done
    · obtain rfl := (pure_eq_ok _ _).mp done
      exact ⟨[], .idle rfl rfl⟩
    · simp only [bind_eq_ok, expect_eq_ok] at done
      obtain ⟨offer, found, rest⟩ := done
      split at rest
      · next approval asked =>
        obtain ⟨member, about⟩ := mem_of_approvalOf asked
        exact reconcileApproval_committed shape member (Table.mem_of_get found) about.symm rest
      · next unasked =>
        split at rest
        · obtain rfl := (pure_eq_ok _ _).mp rest
          exact ⟨[], .idle rfl rfl⟩
        · exact invalidateCurrent_committed unasked rest

omit [Platform] in
/-- A decision leaves the version, or raises it by one when it is a refusal. -/
theorem writeDecision_version (offer : Offer) (decided : ApprovalRequest) (approved : Bool) :
    (writeDecision db offer decided approved).receipts = db.receipts ∧
      ((writeDecision db offer decided approved).session.version = db.session.version ∨
        (writeDecision db offer decided approved).session.version = db.session.version + 1) := by
  unfold writeDecision
  cases approved with
  | true => exact ⟨rfl, .inl rfl⟩
  | false =>
    refine ⟨rfl, ?_⟩
    show (ite _ _ _ : NegotiationSession).version = _ ∨ (ite _ _ _ : NegotiationSession).version = _
    split
    · exact .inr rfl
    · exact .inl rfl

omit [Platform] in
theorem decideApproval_committed {offer : Offer} {approval : ApprovalRequest} {approved : Bool}
    {comment : Option String} {key hash : Digest}
    (done : decideApproval db offer approval approved comment key hash db.session.version now fault =
      .ok after) : ∃ written, Committed db after written := by
  unfold decideApproval at done
  simp only [bind_eq_ok, pure_eq_ok] at done
  obtain ⟨_, _, _, _, _, _, receipts, receipted, _, _, _, _, _, _, rfl⟩ := done
  have decided : (writeDecision db offer (approval.decided approved comment key hash now)
      approved).receipts = db.receipts ∧ _ :=
    writeDecision_version offer (approval.decided approved comment key hash now) approved
  obtain ⟨same, moves⟩ := decided
  have noticed : ∀ written : Db,
      (noticeDecision written (approval.decided approved comment key hash now) approved now).session =
          written.session ∧
        (noticeDecision written (approval.decided approved comment key hash now) approved
          now).receipts = written.receipts := by
    intro written
    unfold noticeDecision
    split <;> exact ⟨rfl, rfl⟩
  obtain ⟨session, unmoved⟩ := noticed
    { writeDecision db offer (approval.decided approved comment key hash now) approved with receipts }
  have rows := Table.rows_insert receipted
  rw [same] at rows
  refine Committed.of_logged (.refl db.receipts _) (by rw [unmoved]; exact rows) ?_ ?_ ?_
  · rw [session]
    exact moves
  · rw [session]
    rfl
  · rintro ⟨result, answered, _⟩
    cases answered

theorem reviewNew_committed (shape : Shape db.deal) {offer : Offer} {approval : ApprovalRequest}
    {approved : Bool} {comment : Option String} {expectedRevision : Option Nat}
    {key hash : Digest} {result : Db × Option String} (asked : approval ∈ db.approvals)
    (member : offer ∈ db.offers) (about : offer.id = approval.offerId)
    (done : reviewNew db offer approval approved comment expectedRevision key hash now fault =
      .ok result) : ∃ written, Committed db result.1 written := by
  unfold reviewNew at done
  simp only [bind_eq_ok, expect_eq_ok] at done
  obtain ⟨_, _, _, _, reconciled, ended, current, found, rest⟩ := done
  split at rest
  · obtain rfl := (pure_eq_ok _ _).mp rest
    exact reconcileApproval_committed shape asked member about ended
  · next effective =>
    simp only [bind_eq_ok, pure_eq_ok] at rest
    obtain ⟨decided, recorded, rfl⟩ := rest
    cases reconcileApproval_cases shape asked member about ended with
    | idle same =>
      rw [same] at recorded
      exact decideApproval_committed recorded
    | ended _ gone effect =>
      obtain rfl := Option.some.inj (found.symm.trans gone)
      exact absurd effect effective

theorem review_committed (shape : Shape db.deal) {seller requestId : String} {approvalId : Nat}
    {comment : Option String} {approved : Bool} {expectedRevision : Option Nat}
    {result : Db × Option String}
    (done : review db seller approvalId requestId comment approved expectedRevision now fault =
      .ok result) : ∃ written, Committed db result.1 written := by
  unfold review at done
  simp only [bind_eq_ok] at done
  obtain ⟨_, _, _, _, ⟨offer, approval⟩, locked, rest⟩ := done
  obtain ⟨asked, _, member, about⟩ := lockContext_eq_ok locked
  split at rest
  · simp only [bind_eq_ok, pure_eq_ok] at rest
    obtain ⟨_, _, rfl⟩ := rest
    exact ⟨[], .idle rfl rfl⟩
  · exact reviewNew_committed shape asked member about rest

omit [Platform] in
/-- An application leaves the version, or raises it by one when there is something to apply. -/
theorem applyEffect_version {offer : Offer} {approval : ApprovalRequest}
    (done : applyEffect db offer approval = .ok after) :
    after.receipts = db.receipts ∧
      (after.session.version = db.session.version ∨
        after.session.version = db.session.version + 1 ∧ approval.effectStatus = .notApplied) := by
  unfold applyEffect applyApproved at done
  split at done
  · next given =>
    simp only [bind_eq_ok, pure_eq_ok] at done
    obtain ⟨_, _, rfl⟩ := done
    exact ⟨rfl, .inr ⟨rfl, given.2⟩⟩
  · obtain rfl := (pure_eq_ok _ _).mp done
    exact ⟨rfl, .inl rfl⟩

theorem applyNew_committed (shape : Shape db.deal) {offer : Offer} {approval : ApprovalRequest}
    {key : ReceiptId} {hash : Digest} {result : Db × Result} (asked : approval ∈ db.approvals)
    (member : offer ∈ db.offers) (about : offer.id = approval.offerId)
    (done : applyNew db offer approval key hash now fault = .ok result) :
    ∃ written, Committed db result.1 written := by
  unfold applyNew at done
  simp only [bind_eq_ok, pure_eq_ok, expect_eq_ok] at done
  obtain ⟨reconciled, ended, current, found, _, _, applied, effected, _, _, final, _, receipts,
    receipted, _, _, _, _, _, _, rfl⟩ := done
  obtain ⟨same, moved⟩ := applyEffect_version effected
  have rows := Table.rows_insert receipted
  have fresh : ∀ receipt : BusinessActionReceipt,
      receipt.result = .business (appliedResult final) → ¬ receipt.Reuses := by
    rintro receipt answered ⟨result, other, reused⟩
    obtain rfl := ReceiptResult.business.inj (answered.symm.trans other)
    cases reused
  -- The version moves in the reconciliation or in the application, but not in both.
  have moves : (applied.session.version = db.session.version ∨
      applied.session.version = db.session.version + 1) ∧
      Logged db.receipts applied.receipts (db.session.version, applied.session.version) := by
    rw [same]
    rcases reconcileApproval_logged shape asked member about ended with
      rfl | ⟨version, receipt, row, stamped, silent⟩
    · exact ⟨moved.imp_right And.left, .refl _ _⟩
    · have still : applied.session.version = reconciled.session.version := by
        rcases moved with still | ⟨_, waiting⟩
        · exact still
        · cases reconcileApproval_cases shape asked member about ended with
          | idle same =>
            rw [same] at version
            omega
          | ended _ gone effect =>
            obtain rfl := Option.some.inj (found.symm.trans gone)
            cases effect.symm.trans waiting
      rw [still, version]
      exact ⟨.inr rfl, .one row stamped silent⟩
  exact Committed.of_logged moves.2 rows moves.1 rfl fun reuses => absurd reuses (fresh _ rfl)

theorem applyApproval_committed (shape : Shape db.deal) {approvalId : Nat} {eventId : EventId}
    {owner : Owner} {result : Db × Result}
    (done : applyApproval db approvalId eventId owner now fault = .ok result) :
    ∃ written, Committed db result.1 written := by
  unfold applyApproval at done
  simp only [bind_eq_ok] at done
  obtain ⟨_, _, ⟨offer, approval⟩, locked, event, _, _, _, rest⟩ := done
  obtain ⟨asked, _, member, about⟩ := lockContext_eq_ok locked
  split at rest
  · simp only [bind_eq_ok, pure_eq_ok] at rest
    obtain ⟨_, _, answer, _, rfl⟩ := rest
    exact ⟨[], .idle rfl rfl⟩
  · exact applyNew_committed shape asked member about rest

/-! ### Every transaction -/

/-- The transactions that act on the business of a session. -/
def Transaction.Acts : Transaction → Prop
  | .execute _ _ _ _ _ => True
  | transaction => transaction.IsBusiness

/-- Whatever does not act on the business leaves the version and the receipts alone. -/
theorem Effect.unversioned {transaction : Transaction} (effect : Effect db transaction after)
    (passive : ¬ transaction.Acts) :
    after.session.version = db.session.version ∧ after.receipts = db.receipts := by
  cases effect with
  | business kind _ =>
    cases transaction <;> first | exact absurd kind passive | exact kind.elim
  | repeated same =>
    rw [same]
    exact ⟨rfl, rfl⟩
  | command made _ =>
    rw [made] at passive
    exact absurd trivial passive
  | answered _ writes =>
    rw [writes.frame, writes.drafts]
    exact ⟨rfl, rfl⟩
  | planned _ _ _ writes frame =>
    rw [frame, writes]
    exact ⟨rfl, rfl⟩
  | published _ writes =>
    rw [writes.frame]
    exact ⟨rfl, rfl⟩
  | displayed _ _ _ _ _ _ frame =>
    rw [frame]
    exact ⟨rfl, rfl⟩
  | edited _ writes | executed writes _ =>
    rw [writes]
    exact ⟨rfl, rfl⟩
  | acknowledged _ frame =>
    rw [frame, acknowledgeEvents_writes]
    exact ⟨rfl, rfl⟩
  | queued effect =>
    cases effect with
    | idle frame | turned _ _ _ _ frame =>
      rw [frame]
      exact ⟨rfl, rfl⟩
    | enqueued _ _ _ _ appended =>
      unfold newInput at appended
      simp only [bind_eq_ok, pure_eq_ok] at appended
      obtain ⟨_, _, _, _, _, _, rfl⟩ := appended
      exact ⟨rfl, rfl⟩
  | archived frame =>
    rw [frame]
    exact ⟨rfl, rfl⟩

/-- Every transaction commits receipts that are stamped with the versions around it. -/
theorem perform_committed {transaction : Transaction} (shape : Shape db.deal)
    (done : db.perform transaction = .ok after) : ∃ written, Committed db after written := by
  by_cases acts : transaction.Acts
  · cases transaction with
    | execute =>
      obtain ⟨result, performed, rfl⟩ := (map_eq_ok _ _ _).mp done
      exact execute_committed performed
    | review =>
      obtain ⟨result, performed, rfl⟩ := (map_eq_ok _ _ _).mp done
      exact review_committed shape performed
    | reconcileOffer => exact reconcileOffer_committed shape done
    | reconcile => exact reconcile_committed shape done
    | applyApproval =>
      obtain ⟨result, performed, rfl⟩ := (map_eq_ok _ _ _).mp done
      exact applyApproval_committed shape performed
    | _ => exact acts.elim
  · obtain ⟨version, receipts⟩ := (perform_effect done).unversioned acts
    exact ⟨[], .idle version receipts⟩

theorem World.Step.committed {before next : World} {event : Event}
    (reached : Reachable World.Step World.Initial before)
    (step : World.Step before event next) : ∃ written, Committed before.db next.db written := by
  rcases step.performs with same | ⟨transaction, performs⟩
  · rw [same]
    exact ⟨[], .idle rfl rfl⟩
  · exact perform_committed (reachable_shape reached) performs.done

/-- The receipts of a session are the journal of its version. -/
theorem reachable_journal {world : World} (reached : Reachable World.Step World.Initial world) :
    Journal BusinessActionReceipt.interval 1 world.db.receipts.rows world.db.session.version := by
  obtain ⟨first, history, initial, run⟩ := reached
  induction run with
  | start =>
    obtain ⟨⟨_, _, _, _, _, _, _, db⟩, _⟩ := initial
    rw [db]
    exact .opened
  | @next middle last history event earlier taken inductionHypothesis =>
    have reached : Reachable World.Step World.Initial middle := ⟨_, history, initial, earlier⟩
    obtain ⟨written, committed⟩ := taken.committed reached
    rw [committed.rows]
    exact inductionHypothesis.commit committed.commit

/-- The version of a session is accounted for. Every step moves it by one or leaves it, and the
receipts the step adds carry the version before it and the version after it; a step that moves
the version adds a receipt, and one that repeats an offer does not move it. Transactions that
do not act on the business leave the version and the receipts alone. The intervals of the
receipts that moved the version, each counted once and in the order of the commits, lead from
the first version to the present one. -/
theorem version_accounted {first last : World} {history : List (Transition World Event)}
    (reached : Reachable World.Step World.Initial first)
    (run : Run World.Step first history last) :
    (∀ transition ∈ history, ∃ written,
      transition.after.db.receipts.rows = written ++ transition.before.db.receipts.rows ∧
      (transition.after.db.session.version = transition.before.db.session.version ∨
        transition.after.db.session.version = transition.before.db.session.version + 1) ∧
      (∀ receipt ∈ written,
        receipt.beforeVersion = transition.before.db.session.version ∧
        receipt.afterVersion = transition.after.db.session.version) ∧
      (transition.after.db.session.version ≠ transition.before.db.session.version →
        written ≠ []) ∧
      (∀ receipt ∈ written, receipt.Reuses →
        transition.after.db.session.version = transition.before.db.session.version)) ∧
    (∀ transition ∈ history, ∀ transaction, transition.event = .call transaction →
      ¬ transaction.Acts →
      transition.after.db.session.version = transition.before.db.session.version ∧
        transition.after.db.receipts = transition.before.db.receipts) ∧
    ((last.db.receipts.rows.reverse.map BusinessActionReceipt.interval).filter
        fun interval => interval.1 ≠ interval.2).dedup =
      (List.range' 1 (last.db.session.version - 1)).map fun version => (version, version + 1) := by
  refine ⟨fun transition member => ?_, fun transition member transaction called passive => ?_,
    (reachable_journal (reached.extend run)).chain⟩
  · obtain ⟨written, committed⟩ :=
      (run.taken member).committed (run.reachable_before reached member)
    refine ⟨written, committed.rows, committed.commit.moves, fun receipt wrote => ?_,
      committed.commit.recorded, committed.reused⟩
    exact Prod.mk.inj (committed.commit.stamped receipt wrote)
  · have taken := run.taken member
    rw [called] at taken
    rcases taken.called with same | done
    · rw [same]
      exact ⟨rfl, rfl⟩
    · exact (perform_effect done).unversioned passive

end

attribute [local instance] samplePlatform in
/-- The buyer of the session below is taken at its word, sees the offer and confirms it: the
two receipts lead from the first version to the third. -/
theorem version_accounted_confirmation :
    (((sampleWorld.after confirming).after [confirmation]).db.receipts.rows.reverse.map
      BusinessActionReceipt.interval).dedup = [(1, 2), (2, 3)] := by
  have reached : Reachable World.Step World.Initial (sampleWorld.after confirming) :=
    World.reachable_after sampleWorld_initial (by decide +kernel)
  have run : Run World.Step (sampleWorld.after confirming)
      ((sampleWorld.after confirming).history [] [confirmation])
      ((sampleWorld.after confirming).after [confirmation]) :=
    World.run_history (.start _) (by decide +kernel)
  have chain := (version_accounted reached run).2.2
  have three : ((sampleWorld.after confirming).after [confirmation]).db.session.version = 3 := by
    decide +kernel
  have moved : ((((sampleWorld.after confirming).after [confirmation]).db.receipts.rows.reverse.map
      BusinessActionReceipt.interval).filter fun interval => interval.1 ≠ interval.2) =
        ((sampleWorld.after confirming).after [confirmation]).db.receipts.rows.reverse.map
          BusinessActionReceipt.interval := by
    decide +kernel
  rw [moved, three] at chain
  exact chain

end Negotiation
