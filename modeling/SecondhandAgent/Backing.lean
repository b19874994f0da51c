/-
This file proves what the formal offers of a semantic session rest on. A buyer
offer is made of the candidate of a draft that the evidence of that moment
backs completely, and what it was made on is recorded with it and never
rewritten. Afterwards its basis is valid only while the evidence, assessed
again, gives the very same evaluations and the very same cost.
-/

import SecondhandAgent.Agreement
import SecondhandAgent.Conditions
import SecondhandAgent.Reuse

namespace Negotiation

open Store Deal

section

variable [Platform] {db quoted finished after : Db} {now : Time} {fault : Option FaultPoint}

/-! ### What an offer is made of -/

/-- The offer is priced as the candidate and its assessment say. -/
structure PricedBy (db : Db) (candidate : Candidate) (now : Time) (offer : Offer) : Prop where
  amount : candidate.amount = some offer.price
  payer : offer.shippingPaidBy = candidate.payer.getD .buyer
  delivery : candidate.delivery.map (fun method => [("delivery_method", method.text)]) =
    some offer.terms
  cost : offer.shippingCost = some (assess db candidate now).snapshot.shippingCost
  discount : offer.sellerBorneDiscount = (assess db candidate now).snapshot.discount

theorem PricedBy.of_terms {candidate : Candidate} {terms : Terms} {id : Nat} {expiresAt : Time}
    {offer : Offer} (agreed : TermsOf db candidate now terms)
    (made : newOffer id .buyer terms expiresAt = .ok offer) : PricedBy db candidate now offer := by
  obtain ⟨discount, stated, rfl⟩ := newOffer_eq_ok.mp made
  exact ⟨agreed.amount, agreed.payer, agreed.delivery, agreed.shippingCost,
    Option.some.inj (stated.symm.trans agreed.discount)⟩

/-- The status of an offer does not touch its price. -/
theorem PricedBy.core {candidate : Candidate} {one two : Offer}
    (priced : PricedBy db candidate now one) (same : two.core = one.core) :
    PricedBy db candidate now two := by
  have kept : PricedBy db candidate now one.core :=
    ⟨priced.amount, priced.payer, priced.delivery, priced.cost, priced.discount⟩
  obtain ⟨amount, payer, delivery, cost, discount⟩ := same ▸ kept
  exact ⟨amount, payer, delivery, cost, discount⟩

/-- What is recorded about the offer is an assessment of the candidate. -/
def RestsOn (db : Db) (offerId : Nat) (candidate : Candidate) (assessment : Assessment) : Prop :=
  ∀ basis ∈ db.bases, basis.offerId = offerId →
    basis.candidate = candidate ∧ basis.evaluations = assessment.evaluations ∧
      ∃ quote ∈ db.quotes, quote.id = basis.costQuoteId ∧ quote.snapshot = assessment.snapshot

/-- The offer is new, and it is made of the candidate of a draft that the evidence backs. -/
structure Creates (db after : Db) (now : Time) (candidate : Candidate) (offer : Offer) : Prop where
  fresh : ∀ old ∈ db.offers, old.id ≠ offer.id
  drafted : ∃ draft ∈ db.drafts, draft.candidate = candidate
  backed : Backed db candidate now
  priced : PricedBy db candidate now offer
  rests : RestsOn after offer.id candidate (assess db candidate now)

theorem Creates.core {candidate : Candidate} {one two : Offer}
    (creates : Creates db after now candidate one) (same : two.core = one.core) :
    Creates db after now candidate two := by
  obtain ⟨fresh, drafted, backed, priced, rests⟩ := creates
  rw [← core_id same] at fresh rests
  exact ⟨fresh, drafted, backed, priced.core same, rests⟩

/-! ### What a transaction does to the offers and their bases -/

/-- Old bases and quotations stay as they are, a new basis is that of a new offer, and a buyer
offer that was not there is created of a backed candidate. -/
structure Backs (clock later : Time) (db after : Db) : Prop where
  offers : ∀ offer ∈ after.offers, offer.proposer = .buyer →
    (∃ old ∈ db.offers, old.core = offer.core) ∨
      ∃ now candidate, clock ≤ now ∧ now ≤ later ∧ Creates db after now candidate offer
  bases : ∀ basis ∈ after.bases, basis ∈ db.bases ∨ ∀ old ∈ db.offers, old.id ≠ basis.offerId
  quotes : ∀ quote ∈ db.quotes, quote ∈ after.quotes

omit [Platform] in
theorem core_kept {before : Table Offer.id} {table : Table Offer.id}
    (same : offerCores table = offerCores before) {offer : Offer} (member : offer ∈ table) :
    ∃ old ∈ before, old.core = offer.core := by
  have listed : offer.core ∈ offerCores before := same ▸ listed_offer member
  exact List.mem_map.mp listed

/-- Whatever leaves the offers, the bases and the quotations alone. -/
theorem Backs.same {clock later : Time} (offers : offerCores after.offers = offerCores db.offers)
    (bases : after.bases = db.bases) (quotes : after.quotes = db.quotes) :
    Backs clock later db after where
  offers offer member _ := .inl (core_kept offers member)
  bases basis member := .inl (bases ▸ member)
  quotes quote member := by
    rw [quotes]
    exact member

theorem Placed.grounds {offer : Offer} {authorization : OfferAuthorization}
    {counterTerms : Option Terms} {result : Result}
    (placed : Placed db offer authorization counterTerms now after result) :
    after.bases = db.bases ∧ after.quotes = db.quotes := by
  cases placed <;> exact ⟨rfl, rfl⟩

/-- The answer to a proposal that was placed names an offer that was not there. -/
theorem Placed.names {offer : Offer} {authorization : OfferAuthorization}
    {counterTerms : Option Terms} {result : Result} (free : db.offers.get offer.id = none)
    (placed : Placed db offer authorization counterTerms now after result) :
    ∃ named, result.offerId = some named ∧ ∀ old ∈ db.offers, old.id ≠ named := by
  cases placed with
  | accepted | asked | refused => exact ⟨offer.id, rfl, Table.get_eq_none.mp free⟩
  | @countered _ counter _ _ _ _ next _ =>
    refine ⟨counter.id, rfl, fun old member => ?_⟩
    exact Table.get_eq_none.mp next old (Table.mem_insertIgnore_of_mem member)

omit [Platform] in
theorem recordBasis_bases {quotation : Quotation} {result : Result} {named : Nat}
    (done : recordBasis db (some quotation) result = .ok after)
    (stated : result.offerId = some named) :
    after.quotes = db.quotes ∧
      after.bases = db.bases.insertIgnore
        { offerId := named
          costQuoteId := quotation.quote.id
          candidate := quotation.draft.candidate
          evaluations := quotation.evaluations } := by
  unfold recordBasis at done
  simp only [bind_eq_ok, pure_eq_ok, expect_eq_ok] at done
  obtain ⟨offerId, same, rfl⟩ := done
  obtain rfl := Option.some.inj (stated.symm.trans same)
  rw [limitApproval_frame]
  exact ⟨rfl, rfl⟩

/-- A proposal of a semantic session that is placed creates its offer of the selected draft. -/
theorem Quotes.creates {run : NegotiationInput} {quotation : Quotation}
    {authorization : OfferAuthorization} {counterTerms : Option Terms} {cleared resolved : Db}
    {result : Result} {offer : Offer} {expiresAt : Time} (grounded : Grounded db)
    (quotes : Quotes db run now quoted quotation) (settles : Settles quoted cleared)
    (made : newOffer cleared.nextId .buyer quotation.terms expiresAt = .ok offer)
    (free : cleared.offers.get offer.id = none)
    (placed : Placed cleared offer authorization counterTerms now resolved result)
    (basis : recordBasis resolved (some quotation) result = .ok finished) :
    (∀ quote ∈ db.quotes, quote ∈ finished.quotes) ∧
      (∀ basis ∈ finished.bases, basis ∈ db.bases ∨ ∀ old ∈ db.offers, old.id ≠ basis.offerId) ∧
      Creates db finished now quotation.draft.candidate offer := by
  have offers : quoted.offers = db.offers := by rw [quotes.frame]
  have bases : cleared.bases = db.bases := by rw [settles.frame, quotes.frame]
  have priced : cleared.quotes = quoted.quotes := by rw [settles.frame]
  obtain ⟨stays, kept⟩ := placed.grounds
  obtain ⟨named, stated, new⟩ := placed.names free
  obtain ⟨recorded, based⟩ := recordBasis_bases basis stated
  -- A key that is free once the current offer is out of the way was free before.
  have unused : ∀ key, (∀ old ∈ cleared.offers, old.id ≠ key) → ∀ old ∈ db.offers, old.id ≠ key := by
    intro key absent old member same
    obtain ⟨other, found, core⟩ := settles.offer_after (offers ▸ member)
    exact absent other found ((core_id core).trans same)
  have fresh := unused offer.id (Table.get_eq_none.mp free)
  rw [stays, bases] at based
  rw [kept, priced] at recorded
  refine ⟨fun quote member => ?_, fun basis member => ?_, fresh,
    ⟨quotation.draft, ?_, rfl⟩, assess_missing.mp quotes.complete, .of_terms quotes.terms made,
    fun basis member about => ?_⟩
  · rw [recorded, quotes.frame]
    exact Table.mem_insertIgnore_of_mem member
  · rw [based] at member
    rcases Table.mem_insertIgnore member with rfl | old
    · exact .inr (unused named new)
    · exact .inl old
  · obtain ⟨_, _, found⟩ := Option.bind_eq_some_iff.mp quotes.selected
    exact Table.mem_of_get found
  · rw [based] at member
    rcases Table.mem_insertIgnore member with rfl | old
    · refine ⟨rfl, quotes.evaluations, quotation.quote, ?_, rfl, ?_⟩
      · rw [recorded]
        exact quotes.recorded
      · rw [quotes.quote]
        rfl
    · obtain ⟨other, found, same⟩ := grounded.offered basis old
      exact absurd (same.trans about) (fresh other found)

/-- A proposal of a semantic session repeats its offer or creates one of the selected draft. -/
theorem placeOffer_backs {clock later : Time} {run : NegotiationInput} {payload : TypedInput}
    {quotation : Quotation} {result : Db × Result} (grounded : Grounded db)
    (quotes : Quotes db run now quoted quotation) (started : clock ≤ now) (ended : now ≤ later)
    (done : placeOffer quoted payload (some quotation) now fault = .ok result) :
    Backs clock later db result.1 := by
  unfold placeOffer at done
  simp only [bind_eq_ok, expect_eq_ok, pure_eq_ok] at done
  obtain ⟨terms, stated, ⟨resolved, outcome⟩, settled, finished, basis, rfl⟩ := done
  obtain rfl : quotation.terms = terms := Option.some.inj stated
  have offers : quoted.offers = db.offers := by rw [quotes.frame]
  have sameOffers := (recordBasis_offers basis).1
  cases resolveOfferInTransaction_resolved settled with
  | @repeated current _ same unchanged answer =>
    obtain rfl : resolved = quoted := unchanged
    obtain rfl : outcome = repeatedResult resolved current := answer
    obtain ⟨_, _, _, _, _, known, _⟩ := same
    obtain ⟨old, recorded, _⟩ := (found_iff _ _).mp known
    obtain ⟨kept, based⟩ := recordBasis_bases basis rfl
    have taken : resolved.bases.get current.id ≠ none := by
      rw [recorded]
      exact Option.some_ne_none old
    rw [Table.insertIgnore_of_taken taken] at based
    refine ⟨fun offer member _ => .inl ⟨offer, ?_, rfl⟩, fun basis member => .inl ?_,
      fun quote member => ?_⟩
    · rw [← offers, ← sameOffers]
      exact member
    · have listed : basis ∈ resolved.bases := based ▸ member
      rw [quotes.frame] at listed
      exact listed
    · show quote ∈ finished.quotes
      rw [kept, quotes.frame]
      exact Table.mem_insertIgnore_of_mem member
  | @placed _ cleared offer _ _ _ _ clears made free _ placed =>
    have settles := clearCurrent_settles clears
    obtain ⟨kept, based, creates⟩ := quotes.creates grounded settles made free placed basis
    obtain ⟨added, _, _⟩ := placed.added
    refine ⟨fun other member buyer => ?_, based, kept⟩
    have listed : other ∈ resolved.offers := sameOffers ▸ member
    rcases added.others listed buyer with old | same
    · obtain ⟨earlier, found, core⟩ := settles.offer_before old
      exact .inl ⟨earlier, offers ▸ found, core⟩
    · exact .inr ⟨now, quotation.draft.candidate, started, ended, creates.core same⟩

/-- The receipt and the reply of a command do not touch what it did. -/
theorem Backs.settles {clock later : Time} (backs : Backs clock later db finished)
    (settles : Settles finished after) : Backs clock later db after := by
  have bases : after.bases = finished.bases := by rw [settles.frame]
  have quotes : after.quotes = finished.quotes := by rw [settles.frame]
  refine ⟨fun offer member buyer => ?_, fun basis member => backs.bases basis (bases ▸ member),
    fun quote member => quotes ▸ backs.quotes quote member⟩
  obtain ⟨middle, found, same⟩ := settles.offer_before member
  rcases backs.offers middle found ((core_proposer same).trans buyer) with
    ⟨old, listed, core⟩ | ⟨now, candidate, started, ended, creates⟩
  · exact .inl ⟨old, listed, core.trans same⟩
  · obtain ⟨fresh, drafted, backed, priced, rests⟩ := creates.core same.symm
    refine .inr ⟨now, candidate, started, ended, fresh, drafted, backed, priced, ?_⟩
    unfold RestsOn
    rw [bases, quotes]
    exact rests

/-- A command that makes no offer only settles one. -/
theorem carryOut_settles {run : NegotiationInput} {payload : TypedInput}
    {quotation : Option Quotation} {result : Db × Result} (other : ¬ payload.kind.IsOffer)
    (done : carryOut db run payload quotation now fault = .ok result) : Settles db result.1 := by
  unfold carryOut at done
  split at done
  · next submit => exact absurd (.inl submit) other
  · next replace => exact absurd (.inr replace) other
  · exact confirmInTransaction_settles done
  · exact lifecycleInTransaction_settles done
  · exact lifecycleInTransaction_settles done
  · cases done

theorem execute_backs {clock later : Time} {runId expectedVersion : Nat} {owner : Owner}
    {result : Db × ReceiptResult} (rooted : Rooted db) (grounded : Grounded db)
    (semantic : db.session.graphVersion.isSemantic = true) (started : clock ≤ now)
    (ended : now ≤ later)
    (done : execute db runId owner expectedVersion now fault = .ok result) :
    Backs clock later db result.1 := by
  rcases execute_carries done with
    ⟨same, _⟩ | ⟨run, payload, quoted, quotation, finished, outcome, _, carries⟩
  · rw [same]
    exact .same rfl rfl rfl
  · have chat : run.payload.isChat = true :=
      (rooted.chats run (Table.mem_of_get carries.found)).trans semantic
    have carried := carries.carried
    refine Backs.settles ?_ carries.settles
    rcases quoteDraft_quotes carries.priced with ⟨same, other⟩ | ⟨quotation, named, offers, quotes⟩
    · obtain ⟨rfl, rfl⟩ := Prod.mk.inj same
      have settles : Settles quoted finished :=
        carryOut_settles (fun offers => other ⟨chat, offers⟩) carried
      exact .same settles.offers (by rw [settles.frame]) (by rw [settles.frame])
    · obtain rfl := (show _ = some quotation from named)
      rw [carryOut_offer offers] at carried
      exact placeOffer_backs grounded quotes started ended carried

/-- What every transaction of a semantic session does to the offers and what they rest on. -/
theorem perform_backs {clock later : Time} {transaction : Transaction} (shape : Shape db.deal)
    (rooted : Rooted db) (grounded : Grounded db)
    (semantic : db.session.graphVersion.isSemantic = true)
    (done : db.perform transaction = .ok after) (within : Within clock transaction.readings later) :
    Backs clock later db after := by
  by_cases acts : transaction.Acts
  · by_cases business : transaction.IsBusiness
    · have settles := business_settles shape business done
      exact .same settles.offers (by rw [settles.frame]) (by rw [settles.frame])
    · cases transaction with
      | execute =>
        obtain ⟨result, executed, rfl⟩ := (map_eq_ok _ _ _).mp done
        obtain ⟨started, ended⟩ := within.one
        exact execute_backs rooted grounded semantic started ended executed
      | _ => exact absurd acts business
  · have affairs := (perform_effect done).affairs acts
    have offers : after.offers = db.offers := congrArg (·.deal.offers) affairs
    exact .same (congrArg offerCores offers) (congrArg Affairs.bases affairs)
      (congrArg Affairs.quotes affairs)

/-- The version of the graph a session runs is fixed. -/
theorem Effect.graphVersion {transaction : Transaction} (effect : Effect db transaction after) :
    after.session.graphVersion = db.session.graphVersion := by
  cases effect with
  | business _ writes => rw [writes.frame]
  | repeated same => rw [same]
  | command _ writes => rw [writes.frame, writes.business.frame]
  | answered _ writes => rw [writes.frame, writes.drafts]
  | planned _ _ _ writes frame => rw [frame, writes]
  | published _ writes => rw [writes.frame]
  | displayed _ _ _ _ _ _ frame => rw [frame]
  | edited _ writes | executed writes _ => rw [writes]
  | acknowledged _ frame => rw [frame, acknowledgeEvents_writes]
  | queued effect =>
    cases effect with
    | idle frame | turned _ _ _ _ frame => rw [frame]
    | enqueued _ _ _ _ appended =>
      unfold newInput at appended
      simp only [bind_eq_ok, pure_eq_ok] at appended
      obtain ⟨_, _, _, _, _, _, rfl⟩ := appended
      rfl
  | archived frame => rw [frame]

theorem World.Step.graphVersion {before next : World} {event : Event}
    (step : World.Step before event next) :
    next.db.session.graphVersion = before.db.session.graphVersion := by
  rcases step.performs with same | ⟨transaction, performs⟩
  · rw [same]
  · exact (perform_effect performs.done).graphVersion

theorem World.Step.backs {before next : World} {event : Event}
    (reached : Reachable World.Step World.Initial before) (step : World.Step before event next)
    (semantic : before.db.session.graphVersion.isSemantic = true) :
    Backs before.clock next.clock before.db next.db := by
  rcases step.performs with same | ⟨transaction, performs⟩
  · rw [same]
    exact .same rfl rfl rfl
  · exact perform_backs (reachable_shape reached) (reachable_rooted reached)
      (reachable_grounded reached) semantic performs.done performs.within

/-! ### Runs -/

end

end Negotiation
