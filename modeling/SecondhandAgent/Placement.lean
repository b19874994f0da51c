/-
This file takes a proposal of a buyer apart. A proposal that does not repeat the
current offer puts that offer out of the way, unless it prices below the floor,
and then a new offer in its place with the evidence it is made on. What becomes
of the new offer is one of four things: it is accepted, the seller is asked, it
is refused, or it is refused and answered with an offer of the agent.
-/

import SecondhandAgent.Settlement

namespace Negotiation

open Store Deal

/-! ### New offers -/

section

variable {db : Db} {id : Nat} {proposer : OfferProposer} {terms : Terms} {expiresAt : Time}
  {offer : Offer}

theorem newOffer_eq_ok :
    newOffer id proposer terms expiresAt = .ok offer ↔
      ∃ discount, terms.sellerDiscount.map (·.money) = some discount ∧
        offer =
          { id
            proposer
            price := terms.amount.money
            shippingPaidBy := terms.shippingPaidBy
            shippingCost := terms.shippingCost.map (·.money)
            sellerBorneDiscount := discount
            terms := terms.additionalTerms
            status := .proposed
            expiresAt } := by
  unfold newOffer
  simp only [bind_eq_ok, expect_eq_ok, pure_eq_ok]
  exact exists_congr fun discount => and_congr_right fun _ => eq_comm

/-- A new offer is its own core. -/
theorem newOffer_core (made : newOffer id proposer terms expiresAt = .ok offer) :
    offer.core = offer ∧ offer.id = id ∧ offer.proposer = proposer ∧ offer.status = .proposed ∧
      offer.expiresAt = expiresAt := by
  obtain ⟨discount, _, rfl⟩ := newOffer_eq_ok.mp made
  exact ⟨rfl, rfl, rfl, rfl, rfl⟩

end

section

variable [Platform]

/-- The evidence an offer is made on. -/
def proofOf (db : Db) (offer : Offer) : GraphOfferEvidence where
  offerId := offer.id
  termsHash := termsHash offer
  policyVersion := db.policy.version
  productHash := productHash db.product

/-- The database with a new buyer offer and the round it costs. -/
def Db.proposing (db : Db) (offer : Offer) : Db :=
  { db with
    offers := db.offers.insertIgnore offer
    evidence := db.evidence.insertIgnore (proofOf db offer)
    nextId := db.nextId + 1
    session :=
      { db.session with
        roundCount := db.session.roundCount + 1
        version := db.session.version + 1 } }

/-- The approval that asks the seller about an offer. -/
def requestFor (db : Db) (offer : Offer) (now : Time) : ApprovalRequest where
  id := db.nextId
  offerId := offer.id
  policyVersion := db.policy.version
  status := .pending
  effectStatus := .notApplied
  effectRevision := 0
  expiresAt := min (datetime (now + minutes 30)) offer.expiresAt

/-- The database with the seller asked about an offer. -/
def Db.asking (db : Db) (offer : Offer) (now : Time) : Db :=
  eventInTransaction
    { db with
      approvals := db.approvals.insertIgnore (requestFor db offer now)
      executions := db.executions.insertIgnore { approvalId := db.nextId }
      nextId := db.nextId + 1
      session := { db.session with currentOfferId := some offer.id, status := .waitingApproval } }
    db.nextId .requested (.requested db.nextId)

/-- The database with an offer of the agent. -/
def Db.countering (db : Db) (counter : Offer) : Db :=
  { db with
    offers := db.offers.insertIgnore counter
    evidence := db.evidence.insertIgnore (proofOf db counter)
    nextId := db.nextId + 1
    session := { db.session with currentOfferId := some counter.id } }

/-- What becomes of a new buyer offer, and the answer. -/
inductive Placed (db : Db) (offer : Offer) (authorization : OfferAuthorization)
    (counterTerms : Option Terms) (now : Time) : Db → Result → Prop
  | accepted (automatic : authorization.canAcceptAutomatically = true) :
      Placed db offer authorization counterTerms now
        { db.proposing { offer with status := .accepted } with
          session :=
            { (db.proposing { offer with status := .accepted }).session with
              currentOfferId := some offer.id } }
        { outcome := .offerAccepted, offerId := some offer.id }
  | asked (manual : authorization.canAcceptAutomatically = false)
      (request : authorization.canRequestApproval = true)
      (unasked : ∀ approval ∈ db.approvals, approval.offerId ≠ offer.id)
      (settled : ∀ approval ∈ db.approvals, approval.status ≠ .pending)
      (free : db.approvals.get (db.nextId + 1) = none)
      (idle : db.executions.get (db.nextId + 1) = none) :
      Placed db offer authorization counterTerms now ((db.proposing offer).asking offer now)
        { outcome := .waitingApproval
          offerId := some offer.id
          approvalId := some (db.nextId + 1) }
  | refused (manual : authorization.canAcceptAutomatically = false)
      (final : authorization.canRequestApproval = false) (silent : counterTerms = none) :
      Placed db offer authorization counterTerms now
        (db.proposing { offer with status := .rejected })
        { outcome := .offerRejected, offerId := some offer.id }
  | countered {terms : Terms} {counter : Offer}
      (manual : authorization.canAcceptAutomatically = false)
      (final : authorization.canRequestApproval = false) (answers : counterTerms = some terms)
      (made : newOffer (db.nextId + 1) .agent terms (datetime (now + hours 24)) = .ok counter)
      (free : (db.proposing { offer with status := .rejected }).offers.get counter.id = none)
      (unproved : (db.proposing { offer with status := .rejected }).evidence.get counter.id =
        none) :
      Placed db offer authorization counterTerms now
        ((db.proposing { offer with status := .rejected }).countering counter)
        { outcome := .counterOffered
          offerId := some counter.id
          buyerOfferId := some offer.id }

section

variable {db after : Db} {now : Time} {fault : Option FaultPoint}

theorem newOfferInTransaction_eq_ok {terms : Terms} {proposer : OfferProposer}
    {result : Db × Offer} :
    newOfferInTransaction db terms proposer now = .ok result ↔
      newOffer db.nextId proposer terms (datetime (now + hours 24)) = .ok result.2 ∧
        db.offers.get result.2.id = none ∧ db.evidence.get result.2.id = none ∧
        result.1 =
          { db with
            offers := db.offers.insertIgnore result.2
            evidence := db.evidence.insertIgnore (proofOf db result.2)
            nextId := db.nextId + 1 } := by
  obtain ⟨made, offer⟩ := result
  unfold newOfferInTransaction
  simp only [bind_eq_ok, pure_eq_ok, Prod.mk.injEq]
  constructor
  · rintro ⟨_, made, offers, offered, evidence, proved, rfl, rfl⟩
    rw [Table.eq_insertIgnore offered, Table.eq_insertIgnore proved]
    exact ⟨made, Table.free_of_insert offered, Table.free_of_insert proved, rfl⟩
  · rintro ⟨made, free, unproved, rfl⟩
    exact ⟨offer, made, _, Table.insert_of_free free _, _, Table.insert_of_free unproved _, rfl, rfl⟩

/-- The database in which a new buyer offer was recorded and its round counted. -/
theorem counted_eq_proposing {terms : Terms} {result : Db × Offer}
    (made : newOfferInTransaction db terms .buyer now = .ok result) :
    { result.1 with
      session :=
        { result.1.session with
          roundCount := result.1.session.roundCount + 1
          version := result.1.session.version + 1 } } = db.proposing result.2 := by
  obtain ⟨_, _, _, frame⟩ := newOfferInTransaction_eq_ok.mp made
  rw [frame]
  rfl

/-- The status of an offer that was just proposed is written before anything else happens. -/
theorem put_proposing {offer changed : Offer} (free : db.offers.get offer.id = none)
    (key : changed.id = offer.id) (proof : proofOf db changed = proofOf db offer) :
    { db.proposing offer with offers := (db.proposing offer).offers.put changed } =
      db.proposing changed := by
  have written : (db.offers.insertIgnore offer).put changed = db.offers.insertIgnore changed :=
    Table.put_insertIgnore free key
  show { db.proposing offer with offers := (db.offers.insertIgnore offer).put changed } = _
  rw [written]
  unfold Db.proposing
  rw [proof]

omit [Platform] in
theorem openApproval_eq_ok {offer : Offer} {result : Db × Result} :
    openApproval db offer now = .ok result ↔
      (db.approvalOf offer.id = none ∧ ∀ approval ∈ db.approvals.rows, approval.status ≠ .pending) ∧
        db.approvals.get db.nextId = none ∧ db.executions.get db.nextId = none ∧
        result =
          (db.asking offer now,
            { outcome := .waitingApproval
              offerId := some offer.id
              approvalId := some db.nextId }) := by
  unfold openApproval startApproval
  simp only [bind_eq_ok, pure_eq_ok, require_eq_ok]
  constructor
  · rintro ⟨_, unasked, approvals, requested, _, ⟨executions, started, rfl⟩, rfl⟩
    rw [Table.eq_insertIgnore requested, Table.eq_insertIgnore started]
    exact ⟨unasked, Table.free_of_insert requested, Table.free_of_insert started, rfl⟩
  · rintro ⟨unasked, free, idle, rfl⟩
    exact ⟨(), unasked, _, Table.insert_of_free free _, _,
      ⟨_, Table.insert_of_free idle _, rfl⟩, rfl⟩

/-- What becomes of an offer that was just proposed. -/
theorem resolution_placed {offer : Offer} {authorization : OfferAuthorization}
    {counterTerms : Option Terms} {result : Db × Result} (free : db.offers.get offer.id = none)
    (done : resolution (db.proposing offer) offer authorization counterTerms now = .ok result) :
    Placed db offer authorization counterTerms now result.1 result.2 := by
  have accepted : { db.proposing offer with
      offers := (db.proposing offer).offers.put { offer with status := .accepted } } =
        db.proposing { offer with status := .accepted } := put_proposing free rfl rfl
  have rejected : { db.proposing offer with
      offers := (db.proposing offer).offers.put { offer with status := .rejected } } =
        db.proposing { offer with status := .rejected } := put_proposing free rfl rfl
  unfold resolution at done
  split at done
  · next automatic =>
    obtain rfl := (pure_eq_ok _ _).mp done
    have placed : Placed db offer authorization counterTerms now _ _ := .accepted automatic
    rw [← accepted] at placed
    exact placed
  · next manual =>
    have manual : authorization.canAcceptAutomatically = false := Bool.not_eq_true _ ▸ manual
    split at done
    · next request =>
      obtain ⟨⟨unasked, settled⟩, unused, idle, rfl⟩ := openApproval_eq_ok.mp done
      exact .asked manual request (approvalOf_eq_none.mp unasked) settled unused idle
    · next final =>
      have final : authorization.canRequestApproval = false := Bool.not_eq_true _ ▸ final
      unfold rejectProposal at done
      dsimp only at done
      rw [rejected] at done
      split at done
      · obtain rfl := (pure_eq_ok _ _).mp done
        exact .refused manual final rfl
      · next terms =>
        simp only [bind_eq_ok, pure_eq_ok] at done
        obtain ⟨⟨countered, counter⟩, made, rfl⟩ := done
        obtain ⟨offered, unused, unproved, frame⟩ := newOfferInTransaction_eq_ok.mp made
        have frame : countered = _ := frame
        rw [frame]
        exact .countered manual final rfl offered unused unproved

/-! ### Proposals -/

/-- A proposal that succeeds: it repeats the current offer and changes nothing, or the current
offer is out of the way and a new one is placed. -/
inductive Resolved (db : Db) (payload : TypedInput) (terms : Terms) (candidate : Option Candidate)
    (now : Time) (after : Db) (result : Result) : Prop
  | repeated {current : Offer} (found : db.currentOffer = some current)
      (same : Repeats db current terms candidate now) (unchanged : after = db)
      (answer : result = repeatedResult db current)
  | placed {authorization : OfferAuthorization} {cleared : Db} {offer : Offer}
      (fresh : ∀ current, db.currentOffer = some current →
        ¬ Repeats db current terms candidate now)
      (granted : authorized terms db.policy = .ok authorization)
      (valid : authorization.conditionsValid = true)
      (limit : db.session.roundCount < db.policy.maxRounds)
      (clears : clearCurrent db
        (authorization.isAcceptanceProhibited && payload.counterTerms.isNone) now = .ok cleared)
      (offered : newOffer cleared.nextId .buyer terms (datetime (now + hours 24)) = .ok offer)
      (free : cleared.offers.get offer.id = none)
      (unproved : cleared.evidence.get offer.id = none)
      (placed : Placed cleared offer authorization payload.counterTerms now after result)

theorem resolveOfferInTransaction_resolved {payload : TypedInput} {terms : Terms}
    {candidate : Option Candidate} {result : Db × Result}
    (done : resolveOfferInTransaction db payload terms candidate now fault = .ok result) :
    Resolved db payload terms candidate now result.1 result.2 := by
  unfold resolveOfferInTransaction at done
  simp only [bind_eq_ok, require_eq_ok] at done
  obtain ⟨_, _, authorization, granted, _, valid, _, _, settled⟩ := done
  split at settled
  · next current filtered =>
    obtain ⟨found, same⟩ := Option.filter_eq_some_iff.mp filtered
    simp only [bind_eq_ok, pure_eq_ok] at settled
    obtain ⟨_, _, rfl⟩ := settled
    exact .repeated found (of_decide_eq_true same) rfl rfl
  · next none =>
    unfold propose at settled
    simp only [bind_eq_ok, pure_eq_ok, require_eq_ok] at settled
    obtain ⟨_, limit, _, _, _, _, cleared, clears, ⟨proposed, offer⟩, made, _, _, _, _,
      ⟨resolved, answer⟩, resolution, _, _, rfl⟩ := settled
    obtain ⟨offered, free, unproved, _⟩ := newOfferInTransaction_eq_ok.mp made
    have counted := counted_eq_proposing made
    dsimp only at counted
    rw [counted] at resolution
    refine .placed (fun current found same => ?_) granted valid limit clears offered free unproved
      (resolution_placed free resolution)
    have kept : db.currentOffer.filter (fun offer => Repeats db offer terms candidate now) =
        some current := Option.filter_eq_some_iff.mpr ⟨found, decide_eq_true same⟩
    exact absurd (none.symm.trans kept) (Option.some_ne_none _).symm

/-! ### Deeds -/

/-- The quotation of a candidate, under the next identifier. -/
def quoteOf (db : Db) (candidate : Candidate) (now : Time) : CostQuote where
  id := db.nextId
  snapshot := (assess db candidate now).snapshot
  expiresAt := (assess db candidate now).expiry

/-- One of the writes a command consists of. -/
inductive Deed (now : Time) (before : Db) : Db → Prop
  | settled {after : Db} (settles : Settles before after) : Deed now before after
  | quoted {candidate : Candidate} (complete : (assess before candidate now).missing = [])
      (free : before.quotes.get before.nextId = none) :
      Deed now before
        { before with
          quotes := before.quotes.insertIgnore (quoteOf before candidate now)
          nextId := before.nextId + 1 }
  | placed {offer : Offer} {terms : Terms} {authorization : OfferAuthorization}
      {counterTerms : Option Terms} {after : Db} {result : Result}
      (limit : before.session.roundCount < before.policy.maxRounds)
      (offered : newOffer before.nextId .buyer terms (datetime (now + hours 24)) = .ok offer)
      (free : before.offers.get offer.id = none) (unproved : before.evidence.get offer.id = none)
      (placed : Placed before offer authorization counterTerms now after result) :
      Deed now before after
  /-- The basis of an offer is recorded, and its approval ends with the quotation. -/
  | based {after : Db} {quotation : Quotation} {result : Result}
      (quoted : quotation.quote ∈ before.quotes)
      (made : ∀ offerId, result.offerId = some offerId → ∃ offer ∈ before.offers, offer.id = offerId)
      (told : ∀ approval ∈ before.approvals, result.offerId = some approval.offerId →
        result.approvalId = some approval.id)
      (recorded : recordBasis before (some quotation) result = .ok after) : Deed now before after

/-- The writes of a command, one after the other. -/
inductive Deeds (now : Time) : Db → Db → Prop
  | none (db : Db) : Deeds now db db
  | next {before middle after : Db} (earlier : Deeds now before middle)
      (deed : Deed now middle after) : Deeds now before after

/-- What every deed keeps is kept by the command. -/
theorem Deeds.keeps {before after : Db} (deeds : Deeds now before after) (holds : Db → Prop)
    (each : ∀ first second, Deed now first second → holds first → holds second)
    (start : holds before) : holds after := by
  induction deeds with
  | none => exact start
  | next _ deed inductionHypothesis => exact each _ _ deed inductionHypothesis

theorem Deeds.trans {first middle last : Db} (early : Deeds now first middle)
    (late : Deeds now middle last) : Deeds now first last := by
  induction late with
  | none => exact early
  | next _ deed inductionHypothesis => exact inductionHypothesis.next deed

/-- The approvals are about offers of the session, one about each. -/
structure Asked (db : Db) : Prop where
  offered : ∀ approval ∈ db.approvals, ∃ offer ∈ db.offers, offer.id = approval.offerId
  single : ∀ one ∈ db.approvals, ∀ two ∈ db.approvals, one.offerId = two.offerId → one = two

omit [Platform] in
theorem Asked.of_shape (shape : Shape db.deal) : Asked db where
  offered approval member := by
    obtain ⟨offer, found, about, _⟩ := shape.standing approval member
    exact ⟨offer, found, about⟩
  single := shape.single

omit [Platform] in
theorem Asked.settles {before after : Db} (asked : Asked before) (settles : Settles before after) :
    Asked after := by
  constructor
  · intro approval member
    obtain ⟨old, found, core⟩ := settles.approval_before member
    obtain ⟨offer, offered, about⟩ := asked.offered old found
    obtain ⟨kept, present, same⟩ := settles.offer_after offered
    exact ⟨kept, present, (core_id same).trans (about.trans (core_offerId core))⟩
  · intro one first two second same
    obtain ⟨oneOld, oneFound, oneCore⟩ := settles.approval_before first
    obtain ⟨twoOld, twoFound, twoCore⟩ := settles.approval_before second
    have subject : oneOld.offerId = twoOld.offerId :=
      (core_offerId oneCore).trans (same.trans (core_offerId twoCore).symm)
    have equal : oneOld = twoOld := asked.single oneOld oneFound twoOld twoFound subject
    have core : one.core = two.core := oneCore.symm.trans (equal ▸ twoCore)
    exact Table.eq_of_key first second (core_approvalId core)

/-- What the answer to a new proposal names is there: the offer it is about, and the approval
of that offer if it has one. -/
theorem Placed.told {offer : Offer} {authorization : OfferAuthorization}
    {counterTerms : Option Terms} {result : Result} (asked : Asked db)
    (free : db.offers.get offer.id = none)
    (placed : Placed db offer authorization counterTerms now after result) :
    after.quotes = db.quotes ∧
      (∀ offerId, result.offerId = some offerId → ∃ offer ∈ after.offers, offer.id = offerId) ∧
      ∀ approval ∈ after.approvals, result.offerId = some approval.offerId →
        result.approvalId = some approval.id := by
  have unasked : ∀ approval ∈ db.approvals, approval.offerId ≠ offer.id := by
    intro approval member about
    obtain ⟨other, found, same⟩ := asked.offered approval member
    exact Table.get_eq_none.mp free other found (same.trans about)
  cases placed with
  | accepted _ =>
    refine ⟨rfl, fun offerId named => ?_, fun approval member about => ?_⟩
    · exact ⟨_, Table.mem_insertIgnore_self free, Option.some.inj named⟩
    · exact absurd (Option.some.inj about).symm (unasked approval member)
  | asked _ _ _ _ _ _ =>
    refine ⟨rfl, fun offerId named => ?_, fun approval member about => ?_⟩
    · exact ⟨_, Table.mem_insertIgnore_self free, Option.some.inj named⟩
    · rcases Table.mem_insertIgnore member with rfl | old
      · rfl
      · exact absurd (Option.some.inj about).symm (unasked approval old)
  | refused _ _ _ =>
    refine ⟨rfl, fun offerId named => ?_, fun approval member about => ?_⟩
    · exact ⟨_, Table.mem_insertIgnore_self free, Option.some.inj named⟩
    · exact absurd (Option.some.inj about).symm (unasked approval member)
  | @countered _ counter _ _ _ _ next _ =>
    refine ⟨rfl, fun offerId named => ?_, fun approval member about => ?_⟩
    · exact ⟨_, Table.mem_insertIgnore_self next, Option.some.inj named⟩
    · obtain ⟨other, found, same⟩ := asked.offered approval member
      exact absurd (same.trans (Option.some.inj about).symm)
        (Table.get_eq_none.mp next other (Table.mem_insertIgnore_of_mem found))

theorem recordBasis_deeds {quotation : Option Quotation} {result : Result} {first : Db}
    (deeds : Deeds now first db)
    (quoted : ∀ quotation', quotation = some quotation' → quotation'.quote ∈ db.quotes)
    (made : ∀ offerId, result.offerId = some offerId → ∃ offer ∈ db.offers, offer.id = offerId)
    (told : ∀ approval ∈ db.approvals, result.offerId = some approval.offerId →
      result.approvalId = some approval.id)
    (done : recordBasis db quotation result = .ok after) : Deeds now first after := by
  cases quotation with
  | none =>
    obtain rfl := (pure_eq_ok _ _).mp done
    exact deeds
  | some quotation => exact deeds.next (.based (quoted quotation rfl) made told done)

theorem placeOffer_deeds {payload : TypedInput} {quotation : Option Quotation}
    {result : Db × Result} (asked : Asked db)
    (quoted : ∀ quotation', quotation = some quotation' → quotation'.quote ∈ db.quotes)
    (done : placeOffer db payload quotation now fault = .ok result) :
    Deeds now db result.1 := by
  unfold placeOffer at done
  simp only [bind_eq_ok, pure_eq_ok] at done
  obtain ⟨terms, _, ⟨resolved, outcome⟩, settled, recorded, based, rfl⟩ := done
  cases resolveOfferInTransaction_resolved settled with
  | @repeated current found _ unchanged answer =>
    obtain rfl : resolved = db := unchanged
    obtain rfl : outcome = repeatedResult resolved current := answer
    refine recordBasis_deeds (.none resolved) quoted (fun offerId named => ?_)
      (fun approval member about => ?_) based
    · obtain ⟨_, _, got⟩ := Option.bind_eq_some_iff.mp found
      exact ⟨current, Table.mem_of_get got, Option.some.inj named⟩
    · have about : current.id = approval.offerId := Option.some.inj about
      show (resolved.approvalOf current.id).map (·.id) = _
      cases known : resolved.approvalOf current.id with
      | none => exact absurd about.symm (approvalOf_eq_none.mp known approval member)
      | some other =>
        obtain ⟨otherMember, otherAbout⟩ := mem_of_approvalOf known
        rw [asked.single other otherMember approval member (otherAbout.trans about)]
        rfl
  | @placed authorization cleared offer _ _ _ limit clears offered free unproved placed =>
    have settles := clearCurrent_settles clears
    have frame := settles.frame
    have same : cleared.quotes = db.quotes := by rw [frame]
    have below : cleared.session.roundCount < cleared.policy.maxRounds := by
      rw [frame]
      exact limit
    obtain ⟨quotes, made, told⟩ := placed.told (asked.settles settles) free
    have earlier : Deeds now db cleared := (Deeds.none db).next (.settled settles)
    refine recordBasis_deeds (earlier.next (.placed below offered free unproved placed))
      (fun quotation' named => ?_) made told based
    have quotes : resolved.quotes = db.quotes := quotes.trans same
    rw [quotes]
    exact quoted quotation' named

theorem carryOut_deeds {run : NegotiationInput} {payload : TypedInput}
    {quotation : Option Quotation} {result : Db × Result} (asked : Asked db)
    (quoted : ∀ quotation', quotation = some quotation' → quotation'.quote ∈ db.quotes)
    (done : carryOut db run payload quotation now fault = .ok result) : Deeds now db result.1 := by
  unfold carryOut at done
  split at done
  · exact placeOffer_deeds asked quoted done
  · exact placeOffer_deeds asked quoted done
  · exact (Deeds.none db).next (.settled (confirmInTransaction_settles done))
  · exact (Deeds.none db).next (.settled (lifecycleInTransaction_settles done))
  · exact (Deeds.none db).next (.settled (lifecycleInTransaction_settles done))
  · cases done

/-! ### Commands -/

/-- The terms of the offer a quotation is for. -/
structure TermsOf (db : Db) (candidate : Candidate) (now : Time) (terms : Terms) : Prop where
  amount : candidate.amount = some terms.amount.money
  delivery : candidate.delivery.map (fun method => [("delivery_method", method.text)]) =
    some terms.additionalTerms
  payer : terms.shippingPaidBy = candidate.payer.getD .buyer
  shippingCost : terms.shippingCost.map (·.money) =
    some (assess db candidate now).snapshot.shippingCost
  discount : terms.sellerDiscount.map (·.money) = some (assess db candidate now).snapshot.discount

/-- What a quotation records and answers. -/
theorem quoteInTransaction_eq {candidate : Candidate}
    {result : Db × CostQuote × Terms × List Evaluation}
    (done : quoteInTransaction db candidate now = .ok result) :
    (assess db candidate now).missing = [] ∧ db.quotes.get db.nextId = none ∧
      result.1 =
        { db with
          quotes := db.quotes.insertIgnore (quoteOf db candidate now)
          nextId := db.nextId + 1 } ∧
      result.2.1 = quoteOf db candidate now ∧ TermsOf db candidate now result.2.2.1 ∧
      result.2.2.2 = (assess db candidate now).evaluations := by
  unfold quoteInTransaction at done
  simp only [bind_eq_ok, pure_eq_ok, require_eq_ok, expect_eq_ok] at done
  obtain ⟨_, complete, quotes, inserted, amount, asked, method, delivered, terms, validated, rfl⟩ :=
    done
  have free : db.quotes.get db.nextId = none := Table.free_of_insert inserted
  have quoted : quotes = db.quotes.insertIgnore (quoteOf db candidate now) :=
    Table.eq_insertIgnore inserted
  unfold Terms.validated at validated
  split at validated
  · obtain rfl := Except.ok.inj validated
    refine ⟨complete, free, by rw [quoted], rfl, ⟨asked, ?_, rfl, rfl, rfl⟩, rfl⟩
    rw [delivered]
    rfl
  · cases validated

/-- The quotation of a command is that of the draft its turn selected. -/
structure Quotes (db : Db) (run : NegotiationInput) (now : Time) (quoted : Db)
    (quotation : Quotation) : Prop where
  chat : run.payload.isChat = true
  selected : selectedDraft db run.id = some quotation.draft
  version : quotation.draft.businessVersion = db.session.version
  complete : (assess db quotation.draft.candidate now).missing = []
  free : db.quotes.get db.nextId = none
  frame : quoted =
    { db with
      quotes := db.quotes.insertIgnore (quoteOf db quotation.draft.candidate now)
      nextId := db.nextId + 1 }
  quote : quotation.quote = quoteOf db quotation.draft.candidate now
  terms : TermsOf db quotation.draft.candidate now quotation.terms
  evaluations : quotation.evaluations = (assess db quotation.draft.candidate now).evaluations

theorem quoteDraft_quotes {run : NegotiationInput} {payload : TypedInput}
    {result : Db × Option Quotation} (done : quoteDraft db run payload now = .ok result) :
    (result = (db, none) ∧ ¬ (run.payload.isChat = true ∧ payload.kind.IsOffer)) ∨
      ∃ quotation, result.2 = some quotation ∧ payload.kind.IsOffer ∧
        Quotes db run now result.1 quotation := by
  unfold quoteDraft at done
  split at done
  · next offers =>
    simp only [bind_eq_ok, pure_eq_ok, expect_eq_ok, require_eq_ok] at done
    obtain ⟨draft, selected, _, version, ⟨quoted, quote, terms, evaluations⟩, made, rfl⟩ := done
    obtain ⟨complete, free, frame, same, agreed, evaluated⟩ := quoteInTransaction_eq made
    exact .inr ⟨_, rfl, offers.2,
      ⟨offers.1, selected, version, complete, free, frame, same, agreed, evaluated⟩⟩
  · next other =>
    exact .inl ⟨((pure_eq_ok _ _).mp done).symm, other⟩

theorem Quotes.deed {run : NegotiationInput} {quoted : Db} {quotation : Quotation}
    (quotes : Quotes db run now quoted quotation) : Deed now db quoted := by
  rw [quotes.frame]
  exact .quoted quotes.complete quotes.free

theorem Quotes.recorded {run : NegotiationInput} {quoted : Db} {quotation : Quotation}
    (quotes : Quotes db run now quoted quotation) : quotation.quote ∈ quoted.quotes := by
  have kept : quoted.quotes =
      db.quotes.insertIgnore (quoteOf db quotation.draft.candidate now) :=
    congrArg Db.quotes quotes.frame
  rw [kept, quotes.quote]
  exact Table.mem_insertIgnore_self quotes.free

theorem Quotes.asked {run : NegotiationInput} {quoted : Db} {quotation : Quotation}
    (quotes : Quotes db run now quoted quotation) (asked : Asked db) : Asked quoted := by
  have offers : quoted.offers = db.offers := by rw [quotes.frame]
  have approvals : quoted.approvals = db.approvals := by rw [quotes.frame]
  refine ⟨?_, ?_⟩
  · rw [offers, approvals]
    exact asked.offered
  · rw [approvals]
    exact asked.single

/-- The receipt, the reply and its event are recorded with the command. -/
theorem Carries.settles {run : NegotiationInput} {expectedVersion : Nat} {payload : TypedInput}
    {quoted finished : Db} {quotation : Option Quotation} {outcome : Result}
    (carries : Carries db run expectedVersion now fault payload quoted quotation finished outcome
      after) : Settles finished after := by
  have fresh : finished.receipts.get (commandReceipt run expectedVersion finished.session.version
      { outcome with businessVersion := some finished.session.version } now).id = none :=
    carries.fresh
  have accounts : Accounts finished _ := .receipt (Table.insert_of_free fresh .unique) ⟨nofun, nofun⟩
  rw [carries.frame]
  exact ⟨rfl, rfl, rfl, ⟨accounts.grown, accounts.receipts⟩, .refl _⟩

/-- A command is carried out by deeds. -/
theorem execute_deeds {runId expectedVersion : Nat} {owner : Owner} {result : Db × ReceiptResult}
    (asked : Asked db) (done : execute db runId owner expectedVersion now fault = .ok result) :
    Deeds now db result.1 := by
  rcases execute_carries done with
    ⟨same, _⟩ | ⟨run, payload, quoted, quotation, finished, outcome, _, carries⟩
  · rw [same]
    exact .none db
  · have third : Deeds now finished result.1 := (Deeds.none finished).next (.settled carries.settles)
    rcases quoteDraft_quotes carries.priced with ⟨same, _⟩ | ⟨quotation, named, _, quotes⟩
    · obtain ⟨rfl, rfl⟩ := Prod.mk.inj same
      exact (carryOut_deeds asked
        (fun other named => absurd named.symm (Option.some_ne_none other)) carries.carried).trans third
    · obtain rfl := (show _ = some quotation from named)
      have first : Deeds now db quoted := (Deeds.none db).next quotes.deed
      have second := carryOut_deeds (quotes.asked asked)
        (fun other same => Option.some.inj same ▸ quotes.recorded) carries.carried
      exact (first.trans second).trans third

end

end

end Negotiation
