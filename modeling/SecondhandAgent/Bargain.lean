/-
This file shows that the services move a deal as the abstract account says:
every transaction on a database whose deal has the shape is one operation of
the deal, and so the shape holds in every reachable state.
-/

import SecondhandAgent.Deal
import SecondhandAgent.Steps

namespace Negotiation

open Store Deal

/-! ### The end of offers and approvals -/

section

variable {db after : Db} {now : Time} {fault : Option FaultPoint}

theorem approvalOf_eq_none {offerId : Nat} :
    db.approvalOf offerId = none ↔ ∀ approval ∈ db.approvals, approval.offerId ≠ offerId := by
  simp [Db.approvalOf, Table.mem_def]

theorem mem_of_approvalOf {offerId : Nat} {approval : ApprovalRequest}
    (found : db.approvalOf offerId = some approval) :
    approval ∈ db.approvals ∧ approval.offerId = offerId :=
  ⟨List.mem_of_find?_eq_some found, by simpa using List.find?_some found⟩

theorem bumpIfCurrent_deal (offerId : Nat) : (db.bumpIfCurrent offerId).deal = db.deal := by
  unfold Db.bumpIfCurrent
  split <;> rfl

/-- A session without a current offer that still negotiates is active. -/
theorem Deal.Shape.active {deal : Deal} (shape : Shape deal) (open_ : deal.Open)
    (vacant : deal.currentOfferId = none) : deal.status = .active := by
  rcases open_ with active | waiting
  · exact active
  · obtain ⟨offer, member, _, proposed⟩ := shape.waiting.mp waiting
    exact absurd (.inl proposed) (shape.no_live vacant member)

theorem Deal.Ends.open_after {before after : Deal} (ends : Ends before after) : after.Open := by
  have opens : ∀ offer reason, before.Open → (before.without offer reason).Open := by
    intro offer reason open_
    refine .inl ?_
    show (if before.status = .waitingApproval then NegotiationStatus.active else before.status) = _
    rcases open_ with active | waiting
    · rw [if_neg (active ▸ NegotiationStatus.noConfusion), active]
    · rw [if_pos waiting]
  cases ends with
  | @alone offer reason open_ => exact opens offer reason open_
  | @together offer _ reason _ open_ => exact opens offer reason open_

theorem withoutOffer_deal {offer : Offer} (reason : InvalidReason)
    (current : db.session.currentOfferId = some offer.id) :
    ({ db with
        offers := db.offers.put (offer.invalidated reason)
        session := db.session.withoutOffer offer.id } : Db).deal =
      db.deal.without offer reason := by
  unfold NegotiationSession.withoutOffer
  rw [if_pos current]
  rfl

/-- The current offer of a deal that has the shape is in the table and can be acted on. -/
theorem currentOffer_cases (shape : Shape db.deal) :
    (db.session.currentOfferId = none ∧ db.currentOffer = none) ∨
      ∃ offer ∈ db.offers, db.currentOffer = some offer ∧ offer.status.IsLive ∧
        db.session.currentOfferId = some offer.id := by
  cases current : db.session.currentOfferId with
  | none => exact .inl ⟨rfl, by rw [Db.currentOffer, current]; rfl⟩
  | some id =>
    obtain ⟨offer, member, rfl, live⟩ := shape.current id current
    refine .inr ⟨offer, member, ?_, live, rfl⟩
    rw [Db.currentOffer, current]
    exact Table.get_of_mem member

variable [Platform]

/-- The effect of an approval ends once; the deal is not touched otherwise. -/
theorem invalidateApproval_deal {approval : ApprovalRequest} {reason : InvalidReason}
    {expired : Bool} {beforeVersion afterVersion : Nat}
    (effective : approval.effectStatus ≠ .invalidated)
    (done : invalidateApproval db approval now reason expired beforeVersion afterVersion =
      .ok after) :
    after.deal =
      { db.deal with approvals := db.approvals.put (approval.invalidated reason expired) } := by
  unfold invalidateApproval at done
  rw [if_neg effective] at done
  simp only [bind_eq_ok, pure_eq_ok] at done
  obtain ⟨receipts, _, rfl⟩ := done
  rfl

/-- A live offer ends together with the effect of its approval. -/
theorem invalidateOffer_ends (shape : Shape db.deal) (open_ : db.deal.Open) {offer : Offer}
    {reason : InvalidReason} (member : offer ∈ db.offers) (live : offer.status.IsLive)
    (done : invalidateOffer db (some offer) now reason = .ok after) :
    Ends db.deal after.deal := by
  unfold invalidateOffer invalidateApprovalOf at done
  dsimp only at done
  rw [if_pos live] at done
  have ended := withoutOffer_deal reason (shape.live offer member live)
  split at done
  · next unasked =>
    obtain rfl := (pure_eq_ok _ _).mp done
    rw [ended]
    exact .alone open_ member live (approvalOf_eq_none.mp unasked)
  · next approval asked =>
    obtain ⟨askedMember, about⟩ := mem_of_approvalOf asked
    obtain ⟨_, stands⟩ := shape.offer_of askedMember member about.symm
    rw [invalidateApproval_deal (stands.effective live) done, ended]
    exact .together open_ member live askedMember about

theorem invalidateOffer_dead {offer : Offer} {reason : InvalidReason}
    (dead : ¬ offer.status.IsLive)
    (done : invalidateOffer db (some offer) now reason = .ok after) : after = db := by
  unfold invalidateOffer at done
  dsimp only at done
  rw [if_neg dead] at done
  exact ((pure_eq_ok _ _).mp done).symm

/-- Ending the current offer, if there is one, leaves the session without one. -/
theorem invalidateCurrentOffer_clears (shape : Shape db.deal) (open_ : db.deal.Open)
    {reason : InvalidReason} (done : invalidateOffer db db.currentOffer now reason = .ok after) :
    Cleared db.deal after.deal ∧ after.deal.currentOfferId = none ∧ after.deal.Open := by
  rcases currentOffer_cases shape with ⟨vacant, none⟩ | ⟨offer, member, current, live, _⟩
  · rw [none] at done
    obtain rfl := (pure_eq_ok _ _).mp done
    exact ⟨.inl rfl, vacant, open_⟩
  · rw [current] at done
    have ends := invalidateOffer_ends shape open_ member live done
    exact ⟨.inr ends, ends.vacant, ends.open_after⟩

/-! ### Proposals -/

theorem newOfferInTransaction_deal {terms : Terms} {proposer : OfferProposer}
    {result : Db × Offer}
    (done : newOfferInTransaction db terms proposer now = .ok result) :
    ∃ free : db.offers.get result.2.id = none,
      result.1.deal = { db.deal with offers := db.offers.push result.2 free } ∧
        result.2.proposer = proposer ∧ result.2.status = .proposed := by
  unfold newOfferInTransaction newOffer at done
  simp only [bind_eq_ok, pure_eq_ok] at done
  obtain ⟨_, ⟨discount, _, rfl⟩, offers, inserted, evidence, _, rfl⟩ := done
  obtain ⟨free, rfl⟩ := Table.insert_eq_ok.mp inserted
  exact ⟨free, rfl, rfl, rfl⟩

/-- A deal in which a round was spent on a new offer. -/
def counted (before : Deal) (offer : Offer) (free : before.offers.get offer.id = none) : Deal :=
  { before with offers := before.offers.push offer free, roundCount := before.roundCount + 1 }

omit [Platform] in
/-- The status of an offer that was just placed is written before anything else happens. -/
theorem put_counted {before : Deal} {offer changed : Offer}
    (free : before.offers.get offer.id = none) (placed : db.deal = counted before offer free)
    (key : changed.id = offer.id) :
    ∃ next : before.offers.get changed.id = none,
      ({ db with offers := db.offers.put changed } : Db).deal = counted before changed next := by
  have offers : db.offers = before.offers.push offer free := congrArg Deal.offers placed
  obtain ⟨next, written⟩ := Table.put_push free key
  refine ⟨next, ?_⟩
  show ({ db.deal with offers := db.offers.put changed } : Deal) = _
  rw [placed, offers, written]
  rfl

theorem rejectProposal_places {before : Deal} {offer : Offer} {counterTerms : Option Terms}
    {result : Db × Result} (open_ : before.Open)
    (vacant : counterTerms ≠ none → before.status = .active ∧ before.currentOfferId = none)
    (free : before.offers.get offer.id = none) (placed : db.deal = counted before offer free)
    (done : rejectProposal db offer counterTerms now = .ok result) :
    Places before result.1.deal := by
  obtain ⟨next, rejected⟩ := put_counted free placed
    (show ({ offer with status := .rejected } : Offer).id = offer.id from rfl)
  unfold rejectProposal at done
  cases counterTerms with
  | none =>
    obtain rfl := (pure_eq_ok _ _).mp done
    rw [rejected]
    exact .refused next open_ rfl
  | some terms =>
    simp only [bind_eq_ok, pure_eq_ok] at done
    obtain ⟨⟨countered, counter⟩, made, rfl⟩ := done
    obtain ⟨active, noOffer⟩ := vacant (Option.some_ne_none _)
    obtain ⟨unused, dealt, agent, proposed⟩ := newOfferInTransaction_deal made
    have offers : db.offers.put { offer with status := .rejected } =
        before.offers.push { offer with status := .rejected } next := congrArg Deal.offers rejected
    have unusedNext : (before.offers.push { offer with status := .rejected } next).get counter.id =
        none := (congrArg (fun table => table.get counter.id) offers.symm).trans unused
    have pushed := Table.push_congr offers unused unusedNext
    have final : ({ countered with
          session := { countered.session with currentOfferId := some counter.id } } : Db).deal =
        { counted before { offer with status := .rejected } next with
          offers := (before.offers.push { offer with status := .rejected } next).push counter
            unusedNext
          currentOfferId := some counter.id } := by
      show ({ countered.deal with currentOfferId := some counter.id } : Deal) = _
      rw [dealt, rejected]
      exact congrArg (fun table => ({ counted before { offer with status := .rejected } next with
        offers := table, currentOfferId := some counter.id } : Deal)) pushed
    rw [final]
    exact .countered next unusedNext active noOffer rfl agent proposed

theorem openApproval_places {before : Deal} {offer : Offer} {result : Db × Result}
    (active : before.status = .active) (vacant : before.currentOfferId = none)
    (free : before.offers.get offer.id = none) (placed : db.deal = counted before offer free)
    (buyer : offer.proposer = .buyer) (proposed : offer.status = .proposed)
    (done : openApproval db offer now = .ok result) : Places before result.1.deal := by
  unfold openApproval startApproval at done
  simp only [bind_eq_ok, pure_eq_ok] at done
  obtain ⟨_, _, approvals, inserted, _, ⟨executions, _, rfl⟩, rfl⟩ := done
  obtain ⟨unused, rfl⟩ := Table.insert_eq_ok.mp inserted
  have same : db.approvals = before.approvals := congrArg Deal.approvals placed
  have unusedNext : before.approvals.get db.nextId = none := same ▸ unused
  show Places before
    { db.deal with
      approvals := db.approvals.push _ unused
      currentOfferId := some offer.id
      status := .waitingApproval }
  rw [placed, Table.push_congr same unused unusedNext]
  exact .asked free unusedNext active vacant buyer proposed rfl rfl rfl rfl

theorem resolution_places {before : Deal} {offer : Offer} {authorization : OfferAuthorization}
    {counterTerms : Option Terms} {result : Db × Result} (open_ : before.Open)
    (vacant : (authorization.isAcceptanceProhibited && counterTerms.isNone) = false →
      before.status = .active ∧ before.currentOfferId = none)
    (possible : authorization.canAcceptAutomatically = true ∨
      authorization.canRequestApproval = true → authorization.isAcceptanceProhibited = false)
    (free : before.offers.get offer.id = none) (placed : db.deal = counted before offer free)
    (buyer : offer.proposer = .buyer) (proposed : offer.status = .proposed)
    (done : resolution db offer authorization counterTerms now = .ok result) :
    Places before result.1.deal := by
  have allowed : authorization.canAcceptAutomatically = true ∨
      authorization.canRequestApproval = true →
      before.status = .active ∧ before.currentOfferId = none := by
    intro can
    refine vacant ?_
    rw [possible can]
    rfl
  unfold resolution at done
  split at done
  · next automatic =>
    obtain ⟨active, noOffer⟩ := allowed (.inl automatic)
    obtain rfl := (pure_eq_ok _ _).mp done
    obtain ⟨next, accepted⟩ := put_counted free placed
      (show ({ offer with status := .accepted } : Offer).id = offer.id from rfl)
    show Places before
      { ({ db with offers := db.offers.put { offer with status := .accepted } } : Db).deal with
        currentOfferId := some offer.id }
    rw [accepted]
    exact .accepted next active noOffer rfl
  · split at done
    · next request =>
      obtain ⟨active, noOffer⟩ := allowed (.inr request)
      exact openApproval_places active noOffer free placed buyer proposed done
    · refine rejectProposal_places open_ (fun counters => vacant ?_) free placed done
      cases counterTerms with
      | none => exact absurd rfl counters
      | some terms => exact Bool.and_false _

/-- An offer that can be accepted or sent to the seller is not prohibited. -/
theorem authorizeOffer_possible {terms : OfferTerms} {policy : SellerPolicy}
    {additionalTerms : List (String × String)} {authorization : OfferAuthorization}
    (done : authorizeOffer terms policy additionalTerms = .ok authorization)
    (can : authorization.canAcceptAutomatically = true ∨
      authorization.canRequestApproval = true) :
    authorization.isAcceptanceProhibited = false := by
  unfold authorizeOffer at done
  simp only [bind_eq_ok] at done
  obtain ⟨netIncome, _, rest⟩ := done
  split at rest
  · obtain rfl := (pure_eq_ok _ _).mp rest
    cases zone : priceZone netIncome policy <;> simp_all
  · obtain rfl := (pure_eq_ok _ _).mp rest
    simp at can

theorem propose_move {terms : Terms} {counterTerms : Option Terms}
    {authorization : OfferAuthorization} {result : Db × Result} (shape : Shape db.deal)
    (open_ : db.deal.Open) (authorized_ : authorized terms db.policy = .ok authorization)
    (done : propose db terms counterTerms authorization now fault = .ok result) :
    ∃ cleared, Cleared db.deal cleared ∧ Places cleared result.1.deal := by
  unfold propose clearCurrent at done
  simp only [bind_eq_ok, pure_eq_ok] at done
  obtain ⟨_, _, _, _, _, _, cleared, ended, ⟨proposed, offer⟩, made, _, _, _, _, ⟨resolved, answer⟩,
    settled, _, _, rfl⟩ := done
  obtain ⟨free, dealt, buyer, status⟩ := newOfferInTransaction_deal made
  have placed : ({ proposed with
        session :=
          { proposed.session with
            roundCount := proposed.session.roundCount + 1
            version := proposed.session.version + 1 } } : Db).deal =
      counted cleared.deal offer free := by
    show ({ proposed.deal with roundCount := proposed.deal.roundCount + 1 } : Deal) = _
    rw [dealt]
    rfl
  have possible := authorizeOffer_possible authorized_
  split at ended
  · next prohibited =>
    obtain rfl := (pure_eq_ok _ _).mp ended
    refine ⟨db.deal, .inl rfl, ?_⟩
    exact resolution_places open_ (fun allowed => absurd prohibited (by rw [allowed]; rintro ⟨⟩))
      possible free placed buyer status settled
  · obtain ⟨clears, vacant, opened⟩ := invalidateCurrentOffer_clears shape open_ ended
    refine ⟨cleared.deal, clears, ?_⟩
    exact resolution_places opened (fun _ => ⟨(clears.shape shape).active opened vacant, vacant⟩)
      possible free placed buyer status settled

theorem resolveOfferInTransaction_move {payload : TypedInput} {terms : Terms}
    {candidate : Option Candidate} {result : Db × Result} (shape : Shape db.deal)
    (open_ : db.deal.Open)
    (done : resolveOfferInTransaction db payload terms candidate now fault = .ok result) :
    result.1 = db ∨ ∃ cleared, Cleared db.deal cleared ∧ Places cleared result.1.deal := by
  unfold resolveOfferInTransaction at done
  simp only [bind_eq_ok] at done
  obtain ⟨_, _, authorization, authorized_, _, _, _, _, settled⟩ := done
  split at settled
  · simp only [bind_eq_ok, pure_eq_ok] at settled
    obtain ⟨_, _, rfl⟩ := settled
    exact .inl rfl
  · exact .inr (propose_move shape open_ authorized_ settled)

/-! ### Commands -/

omit [Platform] in
theorem recordBasis_limits {quotation : Option Quotation} {result : Result}
    (done : recordBasis db quotation result = .ok after) :
    after.deal = db.deal ∨ Limits db.deal after.deal := by
  unfold recordBasis limitApproval at done
  split at done
  · obtain rfl := (pure_eq_ok _ _).mp done
    exact .inl rfl
  · simp only [bind_eq_ok, pure_eq_ok] at done
    obtain ⟨offerId, _, rfl⟩ := done
    split
    · exact .inl rfl
    · next approval found =>
      obtain ⟨approvalId, _, got⟩ := Option.bind_eq_some_iff.mp found
      exact .inr (.limited (Table.mem_of_get got))

theorem placeOffer_move {payload : TypedInput} {quotation : Option Quotation} {result : Db × Result}
    (shape : Shape db.deal) (open_ : db.deal.Open)
    (done : placeOffer db payload quotation now fault = .ok result) :
    Move db.deal result.1.deal := by
  unfold placeOffer at done
  simp only [bind_eq_ok, pure_eq_ok] at done
  obtain ⟨_, _, ⟨resolved, outcome⟩, placed, recorded, based, rfl⟩ := done
  rcases resolveOfferInTransaction_move shape open_ placed with same | ⟨cleared, clears, places⟩
  · have same : resolved = db := same
    rcases recordBasis_limits based with idle | limits
    · exact .idle (idle.trans (congrArg Db.deal same))
    · rw [same] at limits
      exact .limited open_ limits
  · exact .proposed clears places (recordBasis_limits based)

theorem confirmInTransaction_agrees {payload : TypedInput} {run : NegotiationInput}
    {result : Db × Result} (done : confirmInTransaction db payload run now fault = .ok result) :
    Agrees db.deal result.1.deal := by
  unfold confirmInTransaction at done
  simp only [bind_eq_ok, pure_eq_ok, expect_eq_ok, require_eq_ok] at done
  obtain ⟨offer, found, _, _, _, _, _, ⟨⟨active, basis, _⟩, _⟩, _, _, rfl⟩ := done
  obtain ⟨offerId, _, got⟩ := Option.bind_eq_some_iff.mp found
  obtain ⟨_, _, _, live, _⟩ := basis
  exact .agreed active (Table.mem_of_get got) live

theorem lifecycleInTransaction_move {payload : TypedInput} {result : Db × Result}
    (shape : Shape db.deal) (open_ : db.deal.Open)
    (done : lifecycleInTransaction db payload now fault = .ok result) :
    Move db.deal result.1.deal := by
  unfold lifecycleInTransaction at done
  simp only [bind_eq_ok, pure_eq_ok, require_eq_ok] at done
  obtain ⟨_, withdrawable, _, _, ended, cleared, rfl⟩ := done
  obtain ⟨clears, vacant, opened⟩ := invalidateCurrentOffer_clears shape open_ cleared
  have active := (clears.shape shape).active opened vacant
  by_cases closes : payload.kind = .close
  · simp only [closes, decide_true, if_true]
    show Move db.deal { ended.deal with currentOfferId := none, status := .closed }
    rw [← vacant]
    exact .closed clears (.closed opened vacant)
  · simp only [closes, decide_false, Bool.false_eq_true, if_false]
    show Move db.deal { ended.deal with currentOfferId := none, status := .active }
    rw [← vacant, ← active]
    rcases clears with same | ends
    · exact .idle same
    · exact .ended ends

theorem quoteDraft_deal {run : NegotiationInput} {payload : TypedInput}
    {result : Db × Option Quotation} (done : quoteDraft db run payload now = .ok result) :
    result.1.deal = db.deal := by
  unfold quoteDraft quoteInTransaction at done
  split at done
  · simp only [bind_eq_ok, pure_eq_ok] at done
    obtain ⟨_, _, _, _, _, ⟨_, _, _, _, _, _, _, _, _, _, rfl⟩, rfl⟩ := done
    rfl
  · obtain rfl := (pure_eq_ok _ _).mp done
    rfl

theorem carryOut_move {run : NegotiationInput} {payload : TypedInput}
    {quotation : Option Quotation} {result : Db × Result} (shape : Shape db.deal)
    (open_ : db.deal.Open) (other : payload.kind ≠ .confirm)
    (done : carryOut db run payload quotation now fault = .ok result) :
    Move db.deal result.1.deal := by
  unfold carryOut at done
  split at done
  · exact placeOffer_move shape open_ done
  · exact placeOffer_move shape open_ done
  · next confirms => exact absurd confirms other
  · exact lifecycleInTransaction_move shape open_ done
  · exact lifecycleInTransaction_move shape open_ done
  · cases done

theorem recordCommand_deal {run : NegotiationInput} {expectedVersion : Nat} {result : Result}
    (done : recordCommand db run expectedVersion result now fault = .ok after) :
    after.deal = db.deal := by
  unfold recordCommand notificationInTransaction announce at done
  simp only [bind_eq_ok, pure_eq_ok] at done
  obtain ⟨receipts, _, _, _, _, ⟨deliveries, _, rfl⟩, _, _, _, ⟨outbox, _, rfl⟩, _, _, rfl⟩ := done
  rfl

theorem recordCommand_session {run : NegotiationInput} {expectedVersion : Nat} {result : Result}
    (done : recordCommand db run expectedVersion result now fault = .ok after) :
    after.session = db.session := by
  unfold recordCommand notificationInTransaction announce at done
  simp only [bind_eq_ok, pure_eq_ok] at done
  obtain ⟨receipts, _, _, _, _, ⟨deliveries, _, rfl⟩, _, _, _, ⟨outbox, _, rfl⟩, _, _, rfl⟩ := done
  rfl

/-- A session that is neither agreed nor closed negotiates. -/
theorem open_of_not_over (notAgreed : db.session.status ≠ .agreed)
    (notClosed : db.session.status ≠ .closed) : db.deal.Open := by
  show db.session.status = _ ∨ db.session.status = _
  cases status : db.session.status <;> simp_all

/-- The command of the input is a confirmation, and it is carried out. -/
inductive Confirms (db : Db) (runId : Nat) (now : Time) (after : Db) : Prop
  | confirmed {run : NegotiationInput} {payload : TypedInput} {fault : Option FaultPoint}
      {done : Db} {outcome : Result} (found : db.inputs.get runId = some run)
      (loaded : loadCommand db run = .ok payload)
      (carried : confirmInTransaction db payload run now fault = .ok (done, outcome))
      (session : after.session = done.session) (deal : after.deal = done.deal)

theorem Confirms.agrees {runId : Nat} (confirms : Confirms db runId now after) :
    Agrees db.deal after.deal := by
  obtain ⟨_, _, carried, _, deal⟩ := confirms
  rw [deal]
  exact confirmInTransaction_agrees carried

theorem executeNew_op {run : NegotiationInput} {expectedVersion : Nat} {result : Db × Result}
    (shape : Shape db.deal) (found : db.inputs.get run.id = some run)
    (done : executeNew db run expectedVersion now fault = .ok result) :
    Move db.deal result.1.deal ∨ Confirms db run.id now result.1 := by
  unfold executeNew at done
  simp only [bind_eq_ok, pure_eq_ok, require_eq_ok] at done
  obtain ⟨_, _, payload, loaded, ⟨quoted, quotation⟩, priced, _, ⟨notAgreed, notClosed⟩,
    ⟨finished, outcome⟩, carried, recorded, written, rfl⟩ := done
  by_cases confirms : payload.kind = .confirm
  · have unquoted : ¬ (run.payload.isChat ∧ payload.kind.IsOffer) := by
      rw [confirms]
      rintro ⟨_, offers | offers⟩ <;> cases offers
    unfold quoteDraft at priced
    rw [if_neg unquoted] at priced
    obtain ⟨rfl, rfl⟩ := Prod.mk.inj ((pure_eq_ok _ _).mp priced)
    unfold carryOut at carried
    rw [confirms] at carried
    exact .inr (.confirmed found loaded carried (recordCommand_session written)
      (recordCommand_deal written))
  · refine .inl ?_
    have same : quoted.deal = db.deal := quoteDraft_deal priced
    have open_ := open_of_not_over notAgreed notClosed
    rw [recordCommand_deal written, ← same]
    rw [← same] at shape open_
    exact carryOut_move shape open_ confirms carried

theorem execute_op {runId expectedVersion : Nat} {owner : Owner} {result : Db × ReceiptResult}
    (shape : Shape db.deal)
    (done : execute db runId owner expectedVersion now fault = .ok result) :
    Move db.deal result.1.deal ∨ Confirms db runId now result.1 := by
  unfold execute at done
  simp only [bind_eq_ok, Prod.exists, lockOwner_eq_ok] at done
  obtain ⟨run, task, ⟨found, _, _⟩, settled⟩ := done
  obtain rfl : run.id = runId := Table.key_of_get found
  split at settled
  · simp only [bind_eq_ok, pure_eq_ok] at settled
    obtain ⟨_, _, rfl⟩ := settled
    exact .inl (.idle rfl)
  · simp only [bind_eq_ok, pure_eq_ok] at settled
    obtain ⟨⟨recorded, answer⟩, executed, rfl⟩ := settled
    exact executeNew_op shape found executed

/-! ### Reconciliation -/

/-- What a reconciliation leaves: the database as it was, or an approval without effect whose
offer ended with it. -/
inductive Reconciled (db : Db) (approvalId : Nat) (after : Db) : Prop
  | idle (same : after = db)
  | ended {approval : ApprovalRequest} (ends : Ends db.deal after.deal)
      (found : after.approvals.get approvalId = some approval)
      (effect : approval.effectStatus = .invalidated)

/-- An approval that is not settled has its offer in front of the buyer. -/
theorem unsettled_live (shape : Shape db.deal) {offer : Offer} {approval : ApprovalRequest}
    (asked : approval ∈ db.approvals) (member : offer ∈ db.offers)
    (about : offer.id = approval.offerId) (unsettled : ¬ Settled db approval) :
    offer.status.IsLive ∧ db.deal.Open ∧ approval.effectStatus ≠ .invalidated := by
  obtain ⟨notAgreed, effective, notRejected⟩ : db.session.status ≠ .agreed ∧
      approval.effectStatus ≠ .invalidated ∧ approval.status ≠ .rejected := by
    simpa [Settled] using unsettled
  have live : offer.status.IsLive := by
    obtain ⟨_, stands⟩ := shape.offer_of asked member about
    cases stands with
    | waiting _ _ _ proposed => exact .inl proposed
    | applied _ _ _ accepted => exact .inr accepted
    | refused rejected => exact absurd rejected notRejected
    | ended _ effect => exact absurd effect effective
  refine ⟨live, open_of_not_over notAgreed fun closed => ?_, effective⟩
  exact shape.no_live (shape.closed closed) member live

theorem invalidateApproval_again {approval : ApprovalRequest} {reason : InvalidReason}
    {expired : Bool} {beforeVersion afterVersion : Nat}
    (gone : approval.effectStatus = .invalidated)
    (done : invalidateApproval db approval now reason expired beforeVersion afterVersion =
      .ok after) : after = db := by
  unfold invalidateApproval at done
  rw [if_pos gone] at done
  exact ((pure_eq_ok _ _).mp done).symm

/-- An offer whose approval has no effect left ends alone. -/
theorem invalidateOffer_alone {offer : Offer} {reason : InvalidReason}
    (live : offer.status.IsLive) (current : db.session.currentOfferId = some offer.id)
    (gone : ∀ other ∈ db.approvals, other.offerId = offer.id → other.effectStatus = .invalidated)
    (done : invalidateOffer db (some offer) now reason = .ok after) :
    after.deal = db.deal.without offer reason := by
  unfold invalidateOffer invalidateApprovalOf at done
  dsimp only at done
  rw [if_pos live] at done
  split at done
  · obtain rfl := (pure_eq_ok _ _).mp done
    exact withoutOffer_deal reason current
  · next other asked =>
    obtain ⟨found, about⟩ := mem_of_approvalOf asked
    rw [invalidateApproval_again (gone other found about) done]
    exact withoutOffer_deal reason current

/-- After an approval lost its effect, no approval of its offer has any. -/
theorem none_effective (shape : Shape db.deal) {middle : Db} {offer : Offer}
    {approval : ApprovalRequest} {reason : InvalidReason} {expired : Bool}
    {beforeVersion afterVersion : Nat} (asked : approval ∈ db.approvals)
    (about : offer.id = approval.offerId) (effective : approval.effectStatus ≠ .invalidated)
    (invalidated : invalidateApproval (db.bumpIfCurrent offer.id) approval now reason expired
      beforeVersion afterVersion = .ok middle) :
    ∀ other ∈ middle.approvals, other.offerId = offer.id → other.effectStatus = .invalidated := by
  have approvals : (db.bumpIfCurrent offer.id).approvals = db.approvals :=
    congrArg Deal.approvals (bumpIfCurrent_deal offer.id)
  have dealt := invalidateApproval_deal effective invalidated
  rw [bumpIfCurrent_deal, approvals] at dealt
  have written : middle.approvals = db.approvals.put (approval.invalidated reason expired) :=
    congrArg Deal.approvals dealt
  intro other found same
  rw [written] at found
  rcases Table.mem_put.mp found with ⟨old, different⟩ | ⟨rfl, _⟩
  · have clash := shape.single other old approval asked (same.trans about)
    exact absurd (congrArg ApprovalRequest.id clash) different
  · rfl

/-- An approval loses its effect first and its offer ends after it. -/
theorem reconciled_of_ended (shape : Shape db.deal) {middle : Db} {offer : Offer}
    {approval : ApprovalRequest} {reason : InvalidReason} {expired : Bool}
    {beforeVersion afterVersion : Nat} (asked : approval ∈ db.approvals)
    (member : offer ∈ db.offers) (about : offer.id = approval.offerId)
    (unsettled : ¬ Settled db approval)
    (invalidated : invalidateApproval (db.bumpIfCurrent offer.id) approval now reason expired
      beforeVersion afterVersion = .ok middle)
    (done : invalidateOffer middle (some offer) now reason = .ok after) :
    Reconciled db approval.id after := by
  obtain ⟨live, open_, effective⟩ := unsettled_live shape asked member about unsettled
  have approvals : (db.bumpIfCurrent offer.id).approvals = db.approvals :=
    congrArg Deal.approvals (bumpIfCurrent_deal offer.id)
  have dealt := invalidateApproval_deal effective invalidated
  rw [bumpIfCurrent_deal, approvals] at dealt
  have current : middle.session.currentOfferId = some offer.id :=
    (congrArg Deal.currentOfferId dealt).trans (shape.live offer member live)
  have gone := none_effective shape asked about effective invalidated
  have result : after.deal =
      { db.deal.without offer reason with
        approvals := db.approvals.put (approval.invalidated reason expired) } := by
    rw [invalidateOffer_alone live current gone done, dealt]
    rfl
  have approvalsAfter : after.approvals = db.approvals.put (approval.invalidated reason expired) :=
    congrArg Deal.approvals result
  have ends : Ends db.deal after.deal := by
    rw [result]
    exact .together open_ member live asked about.symm
  have found : after.approvals.get approval.id = some (approval.invalidated reason expired) := by
    rw [approvalsAfter]
    exact Table.get_eq_some.mpr ⟨Table.mem_put_self asked rfl, rfl⟩
  exact .ended ends found rfl

theorem reconcileApproval_cases (shape : Shape db.deal) {offer : Offer}
    {approval : ApprovalRequest} (asked : approval ∈ db.approvals) (member : offer ∈ db.offers)
    (about : offer.id = approval.offerId)
    (done : reconcileApproval db offer approval now = .ok after) :
    Reconciled db approval.id after := by
  unfold reconcileApproval at done
  split at done
  · obtain rfl := (pure_eq_ok _ _).mp done
    exact .idle rfl
  · next unsettled =>
    split at done
    · simp only [bind_eq_ok] at done
      obtain ⟨ended, invalidated, rest⟩ := done
      exact reconciled_of_ended shape asked member about unsettled invalidated rest
    · obtain rfl := (pure_eq_ok _ _).mp done
      exact .idle rfl

omit [Platform] in
theorem Reconciled.handles {approvalId : Nat} (reconciled : Reconciled db approvalId after) :
    Handles db.deal after.deal := by
  cases reconciled with
  | idle same => exact .idle (congrArg Db.deal same)
  | ended ends => exact .ended ends

omit [Platform] in
/-- `lock_context` finds an approval of the session and its offer. -/
theorem lockContext_eq_ok {approvalId : Nat} {seller : Option String} {offer : Offer}
    {approval : ApprovalRequest}
    (done : lockContext db approvalId seller = .ok (offer, approval)) :
    approval ∈ db.approvals ∧ approval.id = approvalId ∧ offer ∈ db.offers ∧
      offer.id = approval.offerId := by
  unfold lockContext at done
  simp only [bind_eq_ok, pure_eq_ok, expect_eq_ok, Prod.mk.injEq] at done
  obtain ⟨_, found, _, _, _, offered, rfl, rfl⟩ := done
  exact ⟨Table.mem_of_get found, Table.key_of_get found, Table.mem_of_get offered,
    Table.key_of_get offered⟩

theorem reconcile_handles {approvalId : Nat} (shape : Shape db.deal)
    (done : reconcile db approvalId now = .ok after) : Handles db.deal after.deal := by
  unfold reconcile at done
  simp only [bind_eq_ok] at done
  obtain ⟨⟨offer, approval⟩, locked, reconciled⟩ := done
  obtain ⟨asked, _, member, about⟩ := lockContext_eq_ok locked
  exact (reconcileApproval_cases shape asked member about reconciled).handles

theorem invalidateCurrent_ends (shape : Shape db.deal) (open_ : db.deal.Open) {offer : Offer}
    (member : offer ∈ db.offers) (live : offer.status.IsLive)
    (done : invalidateCurrent db offer now = .ok after) : Ends db.deal after.deal := by
  unfold invalidateCurrent at done
  simp only [bind_eq_ok, pure_eq_ok] at done
  obtain ⟨ended, invalidated, receipts, _, deliveries, _, outbox, _, rfl⟩ := done
  have bumped : Shape
      ({ db with session := { db.session with version := db.session.version + 1 } } : Db).deal :=
    shape
  have ends := invalidateOffer_ends bumped open_ member live invalidated
  exact ends

theorem reconcileOffer_handles (shape : Shape db.deal)
    (done : reconcileOffer db now = .ok after) : Handles db.deal after.deal := by
  unfold reconcileOffer at done
  split at done
  · obtain rfl := (pure_eq_ok _ _).mp done
    exact .idle rfl
  · next offerId current =>
    split at done
    · obtain rfl := (pure_eq_ok _ _).mp done
      exact .idle rfl
    · next notOver =>
      simp only [bind_eq_ok, expect_eq_ok] at done
      obtain ⟨offer, found, rest⟩ := done
      have member := Table.mem_of_get found
      split at rest
      · next approval asked =>
        obtain ⟨askedMember, about⟩ := mem_of_approvalOf asked
        exact (reconcileApproval_cases shape askedMember member about.symm rest).handles
      · split at rest
        · obtain rfl := (pure_eq_ok _ _).mp rest
          exact .idle rfl
        · obtain ⟨other, otherMember, same, live⟩ := shape.current offerId current
          have key : other.id = offer.id := same.trans (Table.key_of_get found).symm
          obtain rfl := Table.eq_of_key otherMember member key
          obtain ⟨notAgreed, notClosed⟩ := not_or.mp notOver
          exact .ended
            (invalidateCurrent_ends shape (open_of_not_over notAgreed notClosed) member live rest)

/-! ### Review and application -/

omit [Platform] in
theorem noticeDecision_deal (decided : ApprovalRequest) (approved : Bool) (now : Time) :
    (noticeDecision db decided approved now).deal = db.deal := by
  unfold noticeDecision
  split <;> rfl

omit [Platform] in
theorem rejectReviewed_deal {offer : Offer} (approval : ApprovalRequest)
    (current : db.session.currentOfferId = some offer.id) :
    (rejectReviewed db offer approval).deal =
      { db.deal with
        offers := db.offers.put
          { offer with status := .rejected, invalidReason := some .sellerRejected }
        approvals := db.approvals.put
          { approval with
            effectStatus := .applied, effectRevision := approval.effectRevision + 1 }
        currentOfferId := none
        status := .active } := by
  unfold rejectReviewed
  rw [if_pos current]
  rfl

omit [Platform] in
theorem writeDecision_answers (shape : Shape db.deal) {offer : Offer}
    {approval : ApprovalRequest} {approved : Bool} {comment : Option String} {key hash : Digest}
    (asked : approval ∈ db.approvals) (pending : approval.status = .pending)
    (member : offer ∈ db.offers) (about : offer.id = approval.offerId) :
    Answers db.deal
      (writeDecision db offer (approval.decided approved comment key hash now) approved).deal := by
  cases approved with
  | true =>
    have same : (approval.decided true comment key hash now).id = approval.id ∧
        (approval.decided true comment key hash now).offerId = approval.offerId := ⟨rfl, rfl⟩
    exact .approved asked pending same rfl ⟨rfl, rfl⟩
  | false =>
    have current : db.session.currentOfferId = some offer.id :=
      shape.live offer member (shape.asked_live asked (.inl pending) member about)
    have dealt : (writeDecision db offer (approval.decided false comment key hash now) false).deal =
        { db.deal with
          offers := db.offers.put
            { offer with status := .rejected, invalidReason := some .sellerRejected }
          approvals := db.approvals.put
            { approval.decided false comment key hash now with
              effectStatus := .applied, effectRevision := approval.effectRevision + 1 }
          currentOfferId := none
          status := .active } := by
      refine (rejectReviewed_deal (approval.decided false comment key hash now) ?_).trans ?_
      · exact current
      refine congrArg (fun approvals => ({ db.deal with
        offers := db.offers.put
          { offer with status := .rejected, invalidReason := some .sellerRejected }
        approvals
        currentOfferId := none
        status := .active } : Deal)) (Table.put_put ?_)
      rfl
    rw [dealt]
    exact .rejected asked pending member about ⟨rfl, rfl⟩ rfl ⟨rfl, rfl⟩ rfl rfl rfl

theorem decideApproval_handles (shape : Shape db.deal) {offer : Offer} {approval : ApprovalRequest}
    {approved : Bool} {comment : Option String} {key hash : Digest} {beforeVersion : Nat}
    (asked : approval ∈ db.approvals) (pending : approval.status = .pending)
    (member : offer ∈ db.offers) (about : offer.id = approval.offerId)
    (done : decideApproval db offer approval approved comment key hash beforeVersion now fault =
      .ok after) : Handles db.deal after.deal := by
  unfold decideApproval at done
  simp only [bind_eq_ok, pure_eq_ok] at done
  obtain ⟨_, _, _, _, _, _, receipts, _, _, _, _, _, _, _, rfl⟩ := done
  rw [noticeDecision_deal]
  have answers : Answers db.deal
      (writeDecision db offer (approval.decided approved comment key hash now) approved).deal :=
    writeDecision_answers shape asked pending member about
  exact .answered answers

theorem reviewNew_handles (shape : Shape db.deal) {offer : Offer} {approval : ApprovalRequest}
    {approved : Bool} {comment : Option String} {expectedRevision : Option Nat}
    {key hash : Digest} {result : Db × Option String} (asked : approval ∈ db.approvals)
    (member : offer ∈ db.offers) (about : offer.id = approval.offerId)
    (done : reviewNew db offer approval approved comment expectedRevision key hash now fault =
      .ok result) : Handles db.deal result.1.deal := by
  unfold reviewNew at done
  simp only [bind_eq_ok, expect_eq_ok, require_eq_ok] at done
  obtain ⟨_, _, _, pending, reconciled, ended, current, found, rest⟩ := done
  have cases_ := reconcileApproval_cases shape asked member about ended
  split at rest
  · obtain rfl := (pure_eq_ok _ _).mp rest
    exact cases_.handles
  · next effective =>
    simp only [bind_eq_ok, pure_eq_ok] at rest
    obtain ⟨decided, recorded, rfl⟩ := rest
    cases cases_ with
    | idle same =>
      subst same
      have mine : current = approval :=
        Option.some.inj (found.symm.trans (Table.get_of_mem asked))
      subst mine
      exact decideApproval_handles shape asked pending member about recorded
    | ended _ gone effect =>
      obtain rfl := Option.some.inj (found.symm.trans gone)
      exact absurd effect effective

theorem review_handles (shape : Shape db.deal) {seller requestId : String} {approvalId : Nat}
    {comment : Option String} {approved : Bool} {expectedRevision : Option Nat}
    {result : Db × Option String}
    (done : review db seller approvalId requestId comment approved expectedRevision now fault =
      .ok result) : Handles db.deal result.1.deal := by
  unfold review at done
  simp only [bind_eq_ok] at done
  obtain ⟨_, _, _, _, ⟨offer, approval⟩, locked, rest⟩ := done
  obtain ⟨asked, _, member, about⟩ := lockContext_eq_ok locked
  split at rest
  · simp only [bind_eq_ok, pure_eq_ok] at rest
    obtain ⟨_, _, rfl⟩ := rest
    exact .idle rfl
  · exact reviewNew_handles shape asked member about rest

theorem applyNew_handles (shape : Shape db.deal) {offer : Offer} {approval : ApprovalRequest}
    {key : ReceiptId} {hash : Digest} {result : Db × Result} (asked : approval ∈ db.approvals)
    (member : offer ∈ db.offers) (about : offer.id = approval.offerId)
    (done : applyNew db offer approval key hash now fault = .ok result) :
    Handles db.deal result.1.deal := by
  unfold applyNew at done
  simp only [bind_eq_ok, pure_eq_ok, expect_eq_ok] at done
  obtain ⟨reconciled, ended, current, found, _, _, applied, effected, _, _, final, _, receipts, _,
    _, _, _, _, _, _, rfl⟩ := done
  show Handles db.deal applied.deal
  unfold applyEffect applyApproved at effected
  cases reconcileApproval_cases shape asked member about ended with
  | idle same =>
    subst same
    obtain rfl : current = approval := Option.some.inj (found.symm.trans (Table.get_of_mem asked))
    split at effected
    · next given =>
      simp only [bind_eq_ok, pure_eq_ok] at effected
      obtain ⟨_, _, rfl⟩ := effected
      exact .answered (.applied asked given.1 given.2 member about rfl)
    · obtain rfl := (pure_eq_ok _ _).mp effected
      exact .idle rfl
  | ended ends gone effect =>
    obtain rfl := Option.some.inj (found.symm.trans gone)
    rw [if_neg fun given => absurd (effect.symm.trans given.2) EffectStatus.noConfusion] at effected
    obtain rfl := (pure_eq_ok _ _).mp effected
    exact .ended ends

theorem applyApproval_handles (shape : Shape db.deal) {approvalId : Nat} {eventId : EventId}
    {owner : Owner} {result : Db × Result}
    (done : applyApproval db approvalId eventId owner now fault = .ok result) :
    Handles db.deal result.1.deal := by
  unfold applyApproval at done
  simp only [bind_eq_ok] at done
  obtain ⟨_, _, ⟨offer, approval⟩, locked, event, _, _, _, rest⟩ := done
  obtain ⟨asked, _, member, about⟩ := lockContext_eq_ok locked
  split at rest
  · simp only [bind_eq_ok, pure_eq_ok] at rest
    obtain ⟨_, _, answer, _, rfl⟩ := rest
    exact .idle rfl
  · exact applyNew_handles shape asked member about rest

/-! ### Every transaction -/

theorem QueueEffect.deal {transaction : Transaction} (effect : QueueEffect db transaction after) :
    after.deal = db.deal := by
  cases effect with
  | idle frame =>
    rw [frame]
    rfl
  | enqueued _ _ _ _ appended =>
    unfold newInput at appended
    simp only [bind_eq_ok, pure_eq_ok] at appended
    obtain ⟨_, _, _, _, _, _, rfl⟩ := appended
    rfl
  | turned _ _ _ _ frame =>
    rw [frame]
    rfl

/-- The transactions on an approval handle the deal. -/
theorem business_handles {transaction : Transaction} (shape : Shape db.deal)
    (kind : transaction.IsBusiness) (done : db.perform transaction = .ok after) :
    Handles db.deal after.deal := by
  cases transaction with
  | review =>
    obtain ⟨result, performed, rfl⟩ := (map_eq_ok _ _ _).mp done
    exact review_handles shape performed
  | reconcileOffer => exact reconcileOffer_handles shape done
  | reconcile => exact reconcile_handles shape done
  | applyApproval =>
    obtain ⟨result, performed, rfl⟩ := (map_eq_ok _ _ _).mp done
    exact applyApproval_handles shape performed
  | _ => exact kind.elim

/-- Every transaction moves the deal or is a confirmation that is carried out. -/
theorem perform_move {transaction : Transaction} (shape : Shape db.deal)
    (done : db.perform transaction = .ok after) :
    Move db.deal after.deal ∨ ∃ runId owner expectedVersion now fault,
      transaction = .execute runId owner expectedVersion now fault ∧
        Confirms db runId now after := by
  cases perform_effect done with
  | repeated same => exact .inl (.idle (congrArg Db.deal same))
  | answered _ writes =>
    rw [writes.frame]
    exact .inl (.idle (by rw [writes.drafts]; rfl))
  | planned _ _ _ writes frame =>
    rw [frame]
    exact .inl (.idle (by rw [writes]; rfl))
  | published _ writes => exact .inl (.idle (by rw [writes.frame]; rfl))
  | displayed _ _ _ _ _ _ frame => exact .inl (.idle (by rw [frame]; rfl))
  | edited _ writes => exact .inl (.idle (by rw [writes]; rfl))
  | executed writes _ => exact .inl (.idle (by rw [writes]; rfl))
  | acknowledged _ frame => exact .inl (.idle (by rw [frame, acknowledgeEvents_writes]; rfl))
  | queued effect => exact .inl (.idle effect.deal)
  | archived frame => exact .inl (.idle (by rw [frame]; rfl))
  | business kind _ => exact .inl (business_handles shape kind done).move
  | @command owner expectedVersion now fault run _ _ made =>
    subst made
    obtain ⟨result, performed, rfl⟩ := (map_eq_ok _ _ _).mp done
    rcases execute_op shape performed with move | confirms
    · exact .inl move
    · exact .inr ⟨run.id, owner, expectedVersion, now, fault, rfl, confirms⟩

/-- Every transaction is one operation of the deal. -/
theorem perform_op {transaction : Transaction} (shape : Shape db.deal)
    (done : db.perform transaction = .ok after) : Op db.deal after.deal := by
  rcases perform_move shape done with move | ⟨_, _, _, _, _, _, confirms⟩
  · exact .moved move
  · exact .agreed confirms.agrees

/-! ### Reachable states -/

theorem initial_shape {world : World} (initial : World.Initial world) : Shape world.db.deal := by
  obtain ⟨⟨buyerId, graphVersion, product, policy, facts, rules, nextId, fresh⟩, _⟩ := initial
  rw [fresh]
  refine ⟨nofun, fun _ member => absurd member (Table.not_mem_empty _), nofun, ⟨nofun, ?_⟩,
    fun _ member => absurd member (Table.not_mem_empty _),
    fun _ member => absurd member (Table.not_mem_empty _),
    fun _ member => absurd member (Table.not_mem_empty _)⟩
  rintro ⟨_, member, _⟩
  exact absurd member (Table.not_mem_empty _)

/-- The deal of every reachable state has the shape. -/
theorem reachable_shape {world : World} (reached : Reachable World.Step World.Initial world) :
    Shape world.db.deal :=
  database_invariant (fun db => Shape db.deal) (fun _ => initial_shape)
    (fun _ _ _ shape done => (perform_op shape done).shape shape) reached

/-- Every step from a reachable state is one operation of the deal. -/
theorem step_op {before after : World} {event : Event}
    (reached : Reachable World.Step World.Initial before)
    (step : World.Step before event after) : Op before.db.deal after.db.deal := by
  rcases step.performs with same | ⟨transaction, performs⟩
  · exact .moved (.idle (congrArg Db.deal same))
  · exact perform_op (reachable_shape reached) performs.done

end

end Negotiation
