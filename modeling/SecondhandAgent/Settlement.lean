/-
This file says what a review, a reconciliation or an application leaves alone.
None of them makes an offer or an approval, and none changes the terms or the
end of one: they settle what was offered. What the buyer and the seller agreed
to look at is the core of a row, and the cores of the rows are a list that such
a transaction keeps. A transaction that does not act on the business at all
keeps the rows themselves.
-/

import SecondhandAgent.Versions

namespace Negotiation

open Store Deal

/-! ### Cores -/

/-- What an offer offers and until when. -/
def Offer.core (offer : Offer) : Offer := { offer with status := .proposed, invalidReason := none }

/-- What an approval is about and until when it can be given. -/
def ApprovalRequest.core (approval : ApprovalRequest) : ApprovalRequest :=
  { approval with
    status := .pending, sellerComment := none, effectStatus := .notApplied, effectRevision := 0
    invalidReason := none, reviewedAt := none, followupRequestId := none, decisionHash := none }

/-- The cores of the offers, in the order in which they were made, newest first. -/
def offerCores (offers : Table Offer.id) : List Offer := offers.rows.map Offer.core

def approvalCores (approvals : Table ApprovalRequest.id) : List ApprovalRequest :=
  approvals.rows.map ApprovalRequest.core

section

variable {Row Key Core : Type} {key : Row → Key} {core : Row → Core} [DecidableEq Key]

/-- Writing a row back with a core that is listed under its key keeps the cores. -/
theorem map_put {table : Table key} {changed : Row}
    (keyed : ∀ one two, core one = core two → key one = key two)
    (listed : core changed ∈ table.rows.map core) :
    (table.put changed).rows.map core = table.rows.map core := by
  obtain ⟨old, member, kept⟩ := List.mem_map.mp listed
  show (table.rows.map _).map core = _
  rw [List.map_map]
  refine List.map_congr_left fun row present => ?_
  show core (if key row = key changed then changed else row) = core row
  by_cases here : key row = key changed
  · have same : old = row := Table.eq_of_key member present ((keyed _ _ kept).trans here.symm)
    rw [if_pos here, ← kept, same]
  · rw [if_neg here]

end

theorem offerCores_put {offers : Table Offer.id} {changed : Offer}
    (listed : changed.core ∈ offerCores offers) :
    offerCores (offers.put changed) = offerCores offers := by
  refine map_put (fun one two same => ?_) listed
  have key : one.core.id = two.core.id := congrArg Offer.id same
  exact key

theorem approvalCores_put {approvals : Table ApprovalRequest.id} {changed : ApprovalRequest}
    (listed : changed.core ∈ approvalCores approvals) :
    approvalCores (approvals.put changed) = approvalCores approvals := by
  refine map_put (fun one two same => ?_) listed
  have key : one.core.id = two.core.id := congrArg ApprovalRequest.id same
  exact key

theorem listed_offer {offers : Table Offer.id} {offer : Offer} (member : offer ∈ offers) :
    offer.core ∈ offerCores offers := List.mem_map_of_mem member

theorem listed_approval {approvals : Table ApprovalRequest.id} {approval : ApprovalRequest}
    (member : approval ∈ approvals) : approval.core ∈ approvalCores approvals :=
  List.mem_map_of_mem member

theorem core_id {one two : Offer} (same : one.core = two.core) : one.id = two.id := by
  have key : one.core.id = two.core.id := congrArg Offer.id same
  exact key

theorem core_expiresAt {one two : Offer} (same : one.core = two.core) :
    one.expiresAt = two.expiresAt := by
  have ends : one.core.expiresAt = two.core.expiresAt := congrArg Offer.expiresAt same
  exact ends

theorem core_approvalId {one two : ApprovalRequest} (same : one.core = two.core) :
    one.id = two.id := by
  have key : one.core.id = two.core.id := congrArg ApprovalRequest.id same
  exact key

theorem core_offerId {one two : ApprovalRequest} (same : one.core = two.core) :
    one.offerId = two.offerId := by
  have subject : one.core.offerId = two.core.offerId := congrArg ApprovalRequest.offerId same
  exact subject

/-! ### Revisions -/

/-- A receipt that an approval lost its effect names a revision the approval has reached, and one
that an approval was applied names an approval with an effect. -/
structure Accounted (approvals : Table ApprovalRequest.id) (receipt : BusinessActionReceipt) :
    Prop where
  invalidated : ∀ approvalId revision, receipt.id = .approvalInvalidate approvalId revision →
    ∃ approval ∈ approvals, approval.id = approvalId ∧ revision ≤ approval.effectRevision
  applied : ∀ approvalId event, receipt.id = .approvalApply approvalId event →
    ∃ approval ∈ approvals, approval.id = approvalId ∧ approval.effectStatus ≠ .notApplied

/-- The revision of an approval grows, and an effect is not taken back. -/
def ApprovalRequest.Advances (approval next : ApprovalRequest) : Prop :=
  next.id = approval.id ∧ approval.effectRevision ≤ next.effectRevision ∧
    (approval.effectStatus ≠ .notApplied → next.effectStatus ≠ .notApplied)

theorem ApprovalRequest.Advances.refl (approval : ApprovalRequest) : approval.Advances approval :=
  ⟨rfl, Nat.le_refl _, fun effect => effect⟩

theorem ApprovalRequest.Advances.trans {one two three : ApprovalRequest} (first : one.Advances two)
    (second : two.Advances three) : one.Advances three :=
  ⟨second.1.trans first.1, first.2.1.trans second.2.1, fun effect => second.2.2 (first.2.2 effect)⟩

/-- The approvals advance, and the new receipts are accounted for. -/
structure Accounts (before after : Db) : Prop where
  grown : ∀ approval ∈ before.approvals, ∃ next ∈ after.approvals, approval.Advances next
  receipts : ∀ receipt ∈ after.receipts,
    receipt ∈ before.receipts ∨ Accounted after.approvals receipt

section

variable {before middle after : Db}

theorem Accounts.same (approvals : after.approvals = before.approvals)
    (receipts : after.receipts = before.receipts) : Accounts before after := by
  refine ⟨fun approval member => ⟨approval, ?_, .refl approval⟩, fun receipt member => .inl ?_⟩
  · rw [approvals]
    exact member
  · rw [← receipts]
    exact member

theorem Accounted.grown {receipt : BusinessActionReceipt}
    (accounted : Accounted before.approvals receipt) (accounts : Accounts before after) :
    Accounted after.approvals receipt := by
  refine ⟨fun approvalId revision named => ?_, fun approvalId event named => ?_⟩
  · obtain ⟨approval, member, key, reached⟩ := accounted.invalidated approvalId revision named
    obtain ⟨next, found, same, grown, _⟩ := accounts.grown approval member
    exact ⟨next, found, same.trans key, reached.trans grown⟩
  · obtain ⟨approval, member, key, effect⟩ := accounted.applied approvalId event named
    obtain ⟨next, found, same, _, kept⟩ := accounts.grown approval member
    exact ⟨next, found, same.trans key, kept effect⟩

theorem Accounts.trans (first : Accounts before middle) (second : Accounts middle after) :
    Accounts before after := by
  refine ⟨fun approval member => ?_, fun receipt member => ?_⟩
  · obtain ⟨between, found, early⟩ := first.grown approval member
    obtain ⟨next, last, late⟩ := second.grown between found
    exact ⟨next, last, early.trans late⟩
  · rcases second.receipts receipt member with old | new
    · rcases first.receipts receipt old with older | accounted
      · exact .inl older
      · exact .inr (accounted.grown second)
    · exact .inr new

/-- An approval is written back as it advanced. -/
theorem Accounts.put {approval changed : ApprovalRequest}
    (approvals : after.approvals = before.approvals.put changed)
    (receipts : after.receipts = before.receipts) (member : approval ∈ before.approvals)
    (advances : approval.Advances changed) : Accounts before after := by
  refine ⟨fun other found => ?_, fun receipt found => .inl ?_⟩
  · rw [approvals]
    by_cases here : other.id = changed.id
    · obtain rfl := Table.eq_of_key found member (here.trans advances.1)
      exact ⟨changed, Table.mem_put_self found here, advances⟩
    · exact ⟨other, Table.mem_put_of_mem found here, .refl other⟩
  · rw [← receipts]
    exact found

/-- A receipt that is accounted for is written. -/
theorem Accounts.receipt {receipts : Table BusinessActionReceipt.id} {fault : Failure}
    {row : BusinessActionReceipt} (inserted : before.receipts.insert row fault = .ok receipts)
    (accounted : Accounted before.approvals row) : Accounts before { before with receipts } := by
  refine ⟨fun approval member => ⟨approval, member, .refl approval⟩, fun receipt member => ?_⟩
  rcases (Table.mem_insert inserted receipt).mp member with rfl | old
  · exact .inr accounted
  · exact .inl old

end

/-! ### What settles an offer -/

/-- Drafts stay as they are or are withdrawn. -/
def DraftsEnd (before after : Table OfferDraft.id) : Prop :=
  ∀ draft ∈ after, draft ∈ before ∨ ∃ old ∈ before, draft = { old with status := .withdrawn }

theorem DraftsEnd.refl (drafts : Table OfferDraft.id) : DraftsEnd drafts drafts :=
  fun _ member => .inl member

theorem DraftsEnd.trans {one two three : Table OfferDraft.id} (first : DraftsEnd one two)
    (second : DraftsEnd two three) : DraftsEnd one three := by
  intro draft member
  rcases second draft member with kept | ⟨middle, listed, rfl⟩
  · exact first draft kept
  · rcases first middle listed with kept | ⟨old, known, rfl⟩
    · exact .inr ⟨middle, kept, rfl⟩
    · exact .inr ⟨old, known, rfl⟩

theorem closeDrafts_end (db : Db) : DraftsEnd db.drafts (closeDrafts db).drafts := by
  intro draft member
  obtain ⟨old, known, rfl⟩ := List.mem_map.mp member
  split
  · exact .inr ⟨old, known, rfl⟩
  · exact .inl known

/-- The state of the session, of the offers and of the approvals changes, and it is recorded;
the drafts of a session that is closed go with it. -/
structure Settles (before after : Db) : Prop where
  frame : after =
    { before with
      session :=
        { before.session with
          status := after.session.status
          currentOfferId := after.session.currentOfferId
          confirmedOfferId := after.session.confirmedOfferId
          confirmedAt := after.session.confirmedAt
          confirmationRequestId := after.session.confirmationRequestId
          confirmationSource := after.session.confirmationSource
          version := after.session.version }
      offers := after.offers
      approvals := after.approvals
      receipts := after.receipts
      deliveries := after.deliveries
      outbox := after.outbox
      drafts := after.drafts }
  offers : offerCores after.offers = offerCores before.offers
  approvals : approvalCores after.approvals = approvalCores before.approvals
  accounts : Accounts before after
  drafts : DraftsEnd before.drafts after.drafts

section

variable {before middle after db : Db} {now : Time} {fault : Option FaultPoint}

theorem Settles.refl (db : Db) : Settles db db := ⟨rfl, rfl, rfl, .same rfl rfl, .refl _⟩

theorem Settles.trans (first : Settles before middle) (second : Settles middle after) :
    Settles before after := by
  refine ⟨?_, second.offers.trans first.offers, second.approvals.trans first.approvals,
    first.accounts.trans second.accounts, first.drafts.trans second.drafts⟩
  rw [second.frame, first.frame]

/-- An offer keeps its core in a table that settled. -/
theorem Settles.listed (settles : Settles before after) {offer : Offer}
    (member : offer ∈ before.offers) : offer.core ∈ offerCores after.offers := by
  rw [settles.offers]
  exact listed_offer member

theorem Settles.offer_after (settles : Settles before after) {offer : Offer}
    (member : offer ∈ before.offers) : ∃ new ∈ after.offers, new.core = offer.core :=
  List.mem_map.mp (settles.listed member)

theorem Settles.offer_before (settles : Settles before after) {offer : Offer}
    (member : offer ∈ after.offers) : ∃ old ∈ before.offers, old.core = offer.core := by
  have listed : offer.core ∈ offerCores before.offers := settles.offers ▸ listed_offer member
  exact List.mem_map.mp listed

theorem Settles.approval_before (settles : Settles before after) {approval : ApprovalRequest}
    (member : approval ∈ after.approvals) :
    ∃ old ∈ before.approvals, old.core = approval.core := by
  have listed : approval.core ∈ approvalCores before.approvals :=
    settles.approvals ▸ listed_approval member
  exact List.mem_map.mp listed

theorem eventInTransaction_settles (db : Db) (approvalId : Nat) (suffix : ApprovalSuffix)
    (payload : EventPayload) : Settles db (eventInTransaction db approvalId suffix payload) :=
  ⟨rfl, rfl, rfl, .same rfl rfl, .refl _⟩

theorem effectNotice_settles (db : Db) (approval : ApprovalRequest) (outcome : Outcome)
    (now : Time) : Settles db (effectNotice db approval outcome now) :=
  ⟨rfl, rfl, rfl, .same rfl rfl, .refl _⟩

theorem bumpIfCurrent_settles (db : Db) (offerId : Nat) : Settles db (db.bumpIfCurrent offerId) := by
  unfold Db.bumpIfCurrent
  split <;> exact ⟨rfl, rfl, rfl, .same rfl rfl, .refl _⟩

theorem withoutOffer_settles {changed : Offer} (listed : changed.core ∈ offerCores db.offers)
    (offerId : Nat) :
    Settles db
      { db with
        offers := db.offers.put changed
        session := db.session.withoutOffer offerId } := by
  refine ⟨?_, offerCores_put listed, rfl, .same rfl rfl, .refl _⟩
  unfold NegotiationSession.withoutOffer
  split <;> rfl

theorem rejectReviewed_settles {offer : Offer} {approval : ApprovalRequest}
    (listed : offer.core ∈ offerCores db.offers) (member : approval ∈ db.approvals) :
    Settles db (rejectReviewed db offer approval) := by
  have asked := listed_approval member
  have rejected : offerCores
      (db.offers.put { offer with status := .rejected, invalidReason := some .sellerRejected }) =
        offerCores db.offers := offerCores_put listed
  have applied : approvalCores
      (db.approvals.put
        { approval with
          effectStatus := .applied
          effectRevision := approval.effectRevision + 1 }) = approvalCores db.approvals :=
    approvalCores_put asked
  unfold rejectReviewed
  split <;>
    exact ⟨rfl, rejected, applied, .put rfl rfl member ⟨rfl, Nat.le_succ _, by rintro _ ⟨⟩⟩, .refl _⟩

theorem noticeDecision_settles (db : Db) (decided : ApprovalRequest) (approved : Bool)
    (now : Time) : Settles db (noticeDecision db decided approved now) := by
  unfold noticeDecision
  split
  · exact .refl db
  · exact effectNotice_settles _ _ _ _

theorem writeDecision_settles {offer : Offer} {approval : ApprovalRequest} {comment : Option String}
    {key hash : Digest} (approved : Bool) (listed : offer.core ∈ offerCores db.offers)
    (member : approval ∈ db.approvals) :
    Settles db
      (writeDecision db offer (approval.decided approved comment key hash now) approved) := by
  unfold writeDecision
  have asked := listed_approval member
  have written : Settles db
      { db with approvals := db.approvals.put (approval.decided approved comment key hash now) } :=
    ⟨rfl, rfl, approvalCores_put asked, .put rfl rfl member ⟨rfl, Nat.le_refl _, id⟩, .refl _⟩
  have recorded := written.trans
    (eventInTransaction_settles _ approval.id .decision (.decided approval.id))
  cases approved with
  | true => exact recorded
  | false => exact recorded.trans (rejectReviewed_settles listed (Table.mem_put_self member rfl))

theorem decideApproval_settles {offer : Offer} {approval : ApprovalRequest} {approved : Bool}
    {comment : Option String} {key hash : Digest} {beforeVersion : Nat}
    (listed : offer.core ∈ offerCores db.offers) (member : approval ∈ db.approvals)
    (done : decideApproval db offer approval approved comment key hash beforeVersion now fault =
      .ok after) : Settles db after := by
  unfold decideApproval at done
  simp only [bind_eq_ok, pure_eq_ok] at done
  obtain ⟨_, _, _, _, _, _, receipts, inserted, _, _, _, _, _, _, rfl⟩ := done
  have written : Settles db
      (writeDecision db offer (approval.decided approved comment key hash now) approved) :=
    writeDecision_settles approved listed member
  have receipted : Settles
      (writeDecision db offer (approval.decided approved comment key hash now) approved)
      { writeDecision db offer (approval.decided approved comment key hash now) approved with
        receipts } := ⟨rfl, rfl, rfl, .receipt inserted ⟨by rintro _ _ ⟨⟩, by rintro _ _ ⟨⟩⟩, .refl _⟩
  exact (written.trans receipted).trans (noticeDecision_settles _ _ _ _)

theorem applyEffect_settles {offer : Offer} {approval : ApprovalRequest}
    (listed : offer.core ∈ offerCores db.offers) (member : approval ∈ db.approvals)
    (done : applyEffect db offer approval = .ok after) : Settles db after := by
  unfold applyEffect applyApproved at done
  split at done
  · simp only [bind_eq_ok, pure_eq_ok] at done
    obtain ⟨_, _, rfl⟩ := done
    have asked := listed_approval member
    exact ⟨rfl, offerCores_put listed, approvalCores_put asked,
      .put rfl rfl member ⟨rfl, Nat.le_succ _, by rintro _ ⟨⟩⟩, .refl _⟩
  · obtain rfl := (pure_eq_ok _ _).mp done
    exact .refl db

end

section

variable [Platform] {before middle after db : Db} {now : Time} {fault : Option FaultPoint}

theorem invalidateApproval_settles {approval : ApprovalRequest} {reason : InvalidReason}
    {expired : Bool} {beforeVersion afterVersion : Nat} (member : approval ∈ db.approvals)
    (done : invalidateApproval db approval now reason expired beforeVersion afterVersion =
      .ok after) : Settles db after := by
  unfold invalidateApproval at done
  split at done
  · obtain rfl := (pure_eq_ok _ _).mp done
    exact .refl db
  · simp only [bind_eq_ok, pure_eq_ok] at done
    obtain ⟨receipts, inserted, rfl⟩ := done
    have asked := listed_approval member
    refine ⟨rfl, rfl, approvalCores_put asked, ?_, .refl _⟩
    have ended : Accounts db
        { db with approvals := db.approvals.put (approval.invalidated reason expired) } :=
      .put rfl rfl member ⟨rfl, Nat.le_succ _, by rintro _ ⟨⟩⟩
    refine ⟨ended.grown, fun receipt found => ?_⟩
    rcases (Table.mem_insert inserted receipt).mp found with rfl | old
    · refine .inr ⟨fun approvalId revision named => ?_, by rintro _ _ ⟨⟩⟩
      obtain ⟨rfl, rfl⟩ := ReceiptId.approvalInvalidate.inj named
      exact ⟨_, Table.mem_put_self member rfl, rfl, Nat.le_refl _⟩
    · exact .inl old

theorem invalidateOffer_settles {offer : Option Offer} {reason : InvalidReason}
    (listed : ∀ ended, offer = some ended → ended.core ∈ offerCores db.offers)
    (done : invalidateOffer db offer now reason = .ok after) : Settles db after := by
  unfold invalidateOffer at done
  split at done
  · obtain rfl := (pure_eq_ok _ _).mp done
    exact .refl db
  · next ended =>
    split at done
    · have known : (ended.invalidated reason).core ∈ offerCores db.offers := listed ended rfl
      have first := withoutOffer_settles known ended.id
      unfold invalidateApprovalOf at done
      dsimp only at done
      split at done
      · obtain rfl := (pure_eq_ok _ _).mp done
        exact first
      · next approval asked =>
        exact first.trans (invalidateApproval_settles (mem_of_approvalOf asked).1 done)
    · obtain rfl := (pure_eq_ok _ _).mp done
      exact .refl db

omit [Platform] in
theorem listed_currentOffer {offer : Offer} (current : db.currentOffer = some offer) :
    offer.core ∈ offerCores db.offers := by
  obtain ⟨_, _, found⟩ := Option.bind_eq_some_iff.mp current
  exact listed_offer (Table.mem_of_get found)

theorem clearCurrent_settles {rejected : Bool} (done : clearCurrent db rejected now = .ok after) :
    Settles db after := by
  unfold clearCurrent at done
  split at done
  · obtain rfl := (pure_eq_ok _ _).mp done
    exact .refl db
  · exact invalidateOffer_settles (fun _ => listed_currentOffer) done

theorem confirmInTransaction_settles {payload : TypedInput} {run : NegotiationInput}
    {result : Db × Result} (done : confirmInTransaction db payload run now fault = .ok result) :
    Settles db result.1 := by
  unfold confirmInTransaction at done
  simp only [bind_eq_ok, pure_eq_ok, expect_eq_ok] at done
  obtain ⟨offer, found, _, _, _, _, _, _, _, _, rfl⟩ := done
  obtain ⟨_, _, got⟩ := Option.bind_eq_some_iff.mp found
  have listed := listed_offer (Table.mem_of_get got)
  exact ⟨rfl, offerCores_put listed, rfl, .same rfl rfl, .refl _⟩

theorem lifecycleInTransaction_settles {payload : TypedInput} {result : Db × Result}
    (done : lifecycleInTransaction db payload now fault = .ok result) :
    Settles db result.1 := by
  unfold lifecycleInTransaction at done
  simp only [bind_eq_ok, pure_eq_ok] at done
  obtain ⟨_, _, _, _, ended, cleared, rfl⟩ := done
  refine (invalidateOffer_settles (fun _ => listed_currentOffer) cleared).trans ?_
  dsimp only
  split
  · exact ⟨rfl, rfl, rfl, .same rfl rfl, closeDrafts_end ended⟩
  · exact ⟨rfl, rfl, rfl, .same rfl rfl, .refl _⟩

theorem reconcileApproval_settles {offer : Offer} {approval : ApprovalRequest}
    (asked : approval ∈ db.approvals) (member : offer ∈ db.offers)
    (done : reconcileApproval db offer approval now = .ok after) : Settles db after := by
  unfold reconcileApproval at done
  split at done
  · obtain rfl := (pure_eq_ok _ _).mp done
    exact .refl db
  · split at done
    · simp only [bind_eq_ok] at done
      obtain ⟨ended, invalidated, rest⟩ := done
      have bumped := bumpIfCurrent_settles db offer.id
      have same : (db.bumpIfCurrent offer.id).approvals = db.approvals :=
        congrArg Deal.approvals (bumpIfCurrent_deal offer.id)
      have first := bumped.trans (invalidateApproval_settles (same ▸ asked) invalidated)
      refine first.trans (invalidateOffer_settles ?_ rest)
      rintro _ ⟨⟩
      exact first.listed member
    · obtain rfl := (pure_eq_ok _ _).mp done
      exact .refl db

theorem reconcile_settles {approvalId : Nat} (done : reconcile db approvalId now = .ok after) :
    Settles db after := by
  unfold reconcile at done
  simp only [bind_eq_ok] at done
  obtain ⟨⟨offer, approval⟩, locked, reconciled⟩ := done
  obtain ⟨asked, _, member, _⟩ := lockContext_eq_ok locked
  exact reconcileApproval_settles asked member reconciled

theorem invalidateCurrent_settles {offer : Offer} (member : offer ∈ db.offers)
    (done : invalidateCurrent db offer now = .ok after) : Settles db after := by
  unfold invalidateCurrent at done
  simp only [bind_eq_ok, pure_eq_ok] at done
  obtain ⟨ended, invalidated, receipts, inserted, deliveries, _, outbox, _, rfl⟩ := done
  have bumped : Settles db
      { db with session := { db.session with version := db.session.version + 1 } } :=
    ⟨rfl, rfl, rfl, .same rfl rfl, .refl _⟩
  have settles := bumped.trans
    (invalidateOffer_settles (by rintro _ ⟨⟩; exact listed_offer member) invalidated)
  have receipted : Settles ended { ended with receipts } :=
    ⟨rfl, rfl, rfl, .receipt inserted ⟨by rintro _ _ ⟨⟩, by rintro _ _ ⟨⟩⟩, .refl _⟩
  exact (settles.trans receipted).trans ⟨rfl, rfl, rfl, .same rfl rfl, .refl _⟩

theorem reconcileOffer_settles (done : reconcileOffer db now = .ok after) : Settles db after := by
  unfold reconcileOffer at done
  split at done
  · obtain rfl := (pure_eq_ok _ _).mp done
    exact .refl db
  · split at done
    · obtain rfl := (pure_eq_ok _ _).mp done
      exact .refl db
    · simp only [bind_eq_ok, expect_eq_ok] at done
      obtain ⟨offer, found, rest⟩ := done
      have member := Table.mem_of_get found
      split at rest
      · next approval asked =>
        exact reconcileApproval_settles (mem_of_approvalOf asked).1 member rest
      · split at rest
        · obtain rfl := (pure_eq_ok _ _).mp rest
          exact .refl db
        · exact invalidateCurrent_settles member rest

theorem review_settles {seller requestId : String} {approvalId : Nat} {comment : Option String}
    {approved : Bool} {expectedRevision : Option Nat} {result : Db × Option String}
    (done : review db seller approvalId requestId comment approved expectedRevision now fault =
      .ok result) : Settles db result.1 := by
  unfold review at done
  simp only [bind_eq_ok] at done
  obtain ⟨_, _, _, _, ⟨offer, approval⟩, locked, rest⟩ := done
  obtain ⟨asked, _, member, _⟩ := lockContext_eq_ok locked
  split at rest
  · simp only [bind_eq_ok, pure_eq_ok] at rest
    obtain ⟨_, _, rfl⟩ := rest
    exact .refl db
  · unfold reviewNew at rest
    simp only [bind_eq_ok, expect_eq_ok] at rest
    obtain ⟨_, _, _, _, middle, reconciled, current, found, rest⟩ := rest
    have first := reconcileApproval_settles asked member reconciled
    split at rest
    · obtain rfl := (pure_eq_ok _ _).mp rest
      exact first
    · simp only [bind_eq_ok, pure_eq_ok] at rest
      obtain ⟨decided, settled, rfl⟩ := rest
      exact first.trans
        (decideApproval_settles (first.listed member) (Table.mem_of_get found) settled)

omit [Platform] in
/-- An approval that is answered has an effect once it was applied. -/
theorem applyEffect_effective {offer : Offer} {approval : ApprovalRequest} (shape : Shape db.deal)
    (member : approval ∈ db.approvals) (answered : approval.status ≠ .pending)
    (done : applyEffect db offer approval = .ok after) :
    ∃ final ∈ after.approvals, final.id = approval.id ∧ final.effectStatus ≠ .notApplied := by
  unfold applyEffect applyApproved at done
  split at done
  · simp only [bind_eq_ok, pure_eq_ok] at done
    obtain ⟨_, _, rfl⟩ := done
    exact ⟨_, Table.mem_put_self member rfl, rfl, by rintro ⟨⟩⟩
  · next settled =>
    obtain rfl := (pure_eq_ok _ _).mp done
    refine ⟨approval, member, rfl, fun waits => ?_⟩
    obtain ⟨_, _, _, _, stands⟩ := shape.standing approval member
    cases stands with
    | waiting open_ => exact open_.elim answered fun approved => settled ⟨approved, waits⟩
    | applied _ effect | refused _ effect | ended _ effect =>
      exact EffectStatus.noConfusion (waits.symm.trans effect)

theorem applyApproval_settles {approvalId : Nat} {eventId : EventId} {owner : Owner}
    {result : Db × Result} (shape : Shape db.deal)
    (done : applyApproval db approvalId eventId owner now fault = .ok result) :
    Settles db result.1 := by
  unfold applyApproval at done
  simp only [bind_eq_ok] at done
  obtain ⟨_, _, ⟨offer, approval⟩, locked, event, _, _, _, rest⟩ := done
  obtain ⟨asked, named, member, about⟩ := lockContext_eq_ok locked
  split at rest
  · simp only [bind_eq_ok, pure_eq_ok] at rest
    obtain ⟨_, _, _, _, rfl⟩ := rest
    exact .refl db
  · unfold applyNew at rest
    simp only [bind_eq_ok, pure_eq_ok, expect_eq_ok, require_eq_ok] at rest
    obtain ⟨middle, reconciled, current, found, _, answered, applied, settled, _, _, final, _,
      receipts, inserted, _, _, _, _, _, _, rfl⟩ := rest
    have first := reconcileApproval_settles asked member reconciled
    have second := applyEffect_settles (first.listed member) (Table.mem_of_get found) settled
    have stays := (reconcileApproval_cases shape asked member about reconciled).handles.move.shape shape
    obtain ⟨given, listed, key, effect⟩ := applyEffect_effective stays (Table.mem_of_get found)
      answered settled
    have receipted : Settles applied { applied with receipts } := by
      refine ⟨rfl, rfl, rfl,
        .receipt inserted ⟨by rintro _ _ ⟨⟩, fun approvalId event same => ?_⟩, .refl _⟩
      obtain ⟨rfl, _⟩ := ReceiptId.approvalApply.inj same
      exact ⟨given, listed, (key.trans (Table.key_of_get found)).trans named, effect⟩
    exact ((first.trans second).trans receipted).trans (effectNotice_settles _ _ _ _)

/-- Whatever the seller, a reconciliation or a runner does, it settles what was offered. -/
theorem business_settles {transaction : Transaction} (shape : Shape db.deal)
    (business : transaction.IsBusiness) (done : db.perform transaction = .ok after) : Settles db after := by
  cases transaction <;> first
    | exact business.elim
    | simp only [Db.perform, map_eq_ok] at done
  case review => obtain ⟨result, done, rfl⟩ := done; exact review_settles done
  case reconcileOffer => exact reconcileOffer_settles done
  case reconcile => exact reconcile_settles done
  case applyApproval => obtain ⟨result, done, rfl⟩ := done; exact applyApproval_settles shape done

end

/-! ### What the rest leaves alone -/

/-- What was offered and on what, what was decided about it, and where the session stands. -/
structure Affairs where
  deal : Deal
  version : Nat
  evidence : Table GraphOfferEvidence.offerId
  quotes : Table CostQuote.id
  bases : Table SemanticOfferBasis.offerId
  receipts : Table BusinessActionReceipt.id

/-- The affairs of a database. -/
def Db.affairs (db : Db) : Affairs where
  deal := db.deal
  version := db.session.version
  evidence := db.evidence
  quotes := db.quotes
  bases := db.bases
  receipts := db.receipts

/-- What the seller says of the goods. -/
structure Goods where
  product : Product
  policy : SellerPolicy
  facts : Table ProductFactValue.id
  rules : Table ShippingCostRule.id

def Db.goods (db : Db) : Goods where
  product := db.product
  policy := db.policy
  facts := db.facts
  rules := db.rules

section

variable [Platform] {db after : Db} {transaction : Transaction}

/-- Whatever does not act on the business leaves the affairs alone. -/
theorem Effect.affairs (effect : Effect db transaction after) (passive : ¬ transaction.Acts) :
    after.affairs = db.affairs := by
  cases effect with
  | business kind _ =>
    cases transaction <;> first | exact absurd kind passive | exact kind.elim
  | repeated same => rw [same]
  | command made _ =>
    rw [made] at passive
    exact absurd trivial passive
  | answered _ writes =>
    rw [writes.frame, writes.drafts]
    rfl
  | planned _ _ _ writes frame =>
    rw [frame, writes]
    rfl
  | published _ writes =>
    rw [writes.frame]
    rfl
  | displayed _ _ _ _ _ _ frame =>
    rw [frame]
    rfl
  | edited _ writes | executed writes _ =>
    rw [writes]
    rfl
  | acknowledged _ frame =>
    rw [frame, acknowledgeEvents_writes]
    rfl
  | queued effect =>
    cases effect with
    | idle frame | turned _ _ _ _ frame =>
      rw [frame]
      rfl
    | enqueued _ _ _ _ appended =>
      unfold newInput at appended
      simp only [bind_eq_ok, pure_eq_ok] at appended
      obtain ⟨_, _, _, _, _, _, rfl⟩ := appended
      rfl
  | archived frame =>
    rw [frame]
    rfl

/-- Whatever does not act on the business adds no execution. -/
theorem Effect.executions (effect : Effect db transaction after) (passive : ¬ transaction.Acts) :
    ExecutionsKept db after := by
  cases effect with
  | business kind _ =>
    cases transaction <;> first | exact absurd kind passive | exact kind.elim
  | repeated same => exact .inl (by rw [same])
  | command made _ =>
    rw [made] at passive
    exact absurd trivial passive
  | answered _ writes => exact .inl (by rw [writes.frame, writes.drafts])
  | planned _ _ _ writes frame => exact .inl (by rw [frame, writes])
  | published _ writes => exact .inl (by rw [writes.frame])
  | displayed _ _ _ _ _ _ frame => exact .inl (by rw [frame])
  | edited _ writes => exact .inl (by rw [writes])
  | executed _ kept => exact kept
  | acknowledged _ frame => exact .inl (by rw [frame, acknowledgeEvents_writes])
  | queued effect =>
    cases effect with
    | idle frame | turned _ _ _ _ frame => exact .inl (by rw [frame])
    | enqueued _ _ _ _ appended =>
      unfold newInput at appended
      simp only [bind_eq_ok, pure_eq_ok] at appended
      obtain ⟨_, _, _, _, _, _, rfl⟩ := appended
      exact .inl rfl
  | archived frame => exact .inl (by rw [frame])

/-- Only the seller changes what is said of the goods. -/
theorem Effect.goods (effect : Effect db transaction after) (other : ¬ transaction.IsEdit) :
    after.goods = db.goods := by
  cases effect with
  | business _ writes =>
    rw [writes.frame]
    rfl
  | repeated same => rw [same]
  | command _ writes =>
    rw [writes.frame, writes.business.frame]
    rfl
  | answered _ writes =>
    rw [writes.frame, writes.drafts]
    rfl
  | planned _ _ _ writes frame =>
    rw [frame, writes]
    rfl
  | published _ writes =>
    rw [writes.frame]
    rfl
  | displayed _ _ _ _ _ _ frame =>
    rw [frame]
    rfl
  | edited kind _ => exact absurd kind other
  | executed writes _ =>
    rw [writes]
    rfl
  | acknowledged _ frame =>
    rw [frame, acknowledgeEvents_writes]
    rfl
  | queued effect =>
    cases effect with
    | idle frame | turned _ _ _ _ frame =>
      rw [frame]
      rfl
    | enqueued _ _ _ _ appended =>
      unfold newInput at appended
      simp only [bind_eq_ok, pure_eq_ok] at appended
      obtain ⟨_, _, _, _, _, _, rfl⟩ := appended
      rfl
  | archived frame =>
    rw [frame]
    rfl

end

end Negotiation
