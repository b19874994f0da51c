/-
This file puts the rounds and the reuse of offers together. The canonical form
of the terms decides whether a proposal repeats the current offer; the digest
of it is what the code compares, so that equal terms are always found, and
different terms are kept apart as long as their two digests are different.
-/

import SecondhandAgent.Proposals

namespace Negotiation

open Store Deal

/-! ### Canonical terms -/

/-- The canonical form of the terms of an offer. -/
def termsJson (offer : Offer) : Json :=
  .object
    [("amount", .text offer.price.text),
      ("payer", .text offer.shippingPaidBy.text),
      ("shipping_cost", .option (fun cost => .text cost.text) offer.shippingCost),
      ("discount", .text offer.sellerBorneDiscount.text),
      ("terms", additionalJson offer.terms)]

section

variable [Platform] {db quoted after : Db} {now : Time} {fault : Option FaultPoint}

theorem termsHash_eq (offer : Offer) : termsHash offer = digest (termsJson offer) := rfl

/-- The proposal is the current offer over again: a live offer of the buyer on the same
canonical terms, made under the present policy and goods, and in a semantic session for the same
candidate and on a basis that still holds. -/
def SameProposal (db : Db) (current : Offer) (terms : Terms) (candidate : Option Candidate)
    (now : Time) : Prop :=
  current.proposer = .buyer ∧ current.status.IsLive ∧ now < current.expiresAt ∧
    Succeeds (newOffer current.id .buyer terms current.expiresAt)
      (fun proposal => termsJson current = termsJson proposal) ∧
    Found (db.evidence.get current.id) (fun proof =>
      proof.policyVersion = db.policy.version ∧ proof.productHash = productHash db.product) ∧
    SameSemantics db current candidate now

/-- The digest tells the canonical terms of the offer from those of the proposal. -/
def Distinguished (current : Offer) (terms : Terms) : Prop :=
  ∀ proposal, newOffer current.id .buyer terms current.expiresAt = .ok proposal →
    digest (termsJson current) = digest (termsJson proposal) →
      termsJson current = termsJson proposal

theorem SameProposal.repeats {current : Offer} {terms : Terms} {candidate : Option Candidate}
    (same : SameProposal db current terms candidate now) :
    Repeats db current terms candidate now := by
  obtain ⟨buyer, live, ahead, equal, evidence, basis⟩ := same
  obtain ⟨proposal, made, equal⟩ := (succeeds_iff _ _).mp equal
  exact ⟨buyer, live, ahead, (succeeds_iff _ _).mpr ⟨proposal, made, congrArg digest equal⟩,
    evidence, basis⟩

theorem Repeats.sameProposal {current : Offer} {terms : Terms} {candidate : Option Candidate}
    (repeats : Repeats db current terms candidate now)
    (distinguished : Distinguished current terms) :
    SameProposal db current terms candidate now := by
  obtain ⟨buyer, live, ahead, equal, evidence, basis⟩ := repeats
  obtain ⟨proposal, made, equal⟩ := (succeeds_iff _ _).mp equal
  exact ⟨buyer, live, ahead,
    (succeeds_iff _ _).mpr ⟨proposal, made, distinguished proposal made equal⟩, evidence, basis⟩

/-! ### Quotations on the way -/

/-- What quoting a draft writes: one more quotation at most. -/
structure Quoted (db quoted : Db) : Prop where
  frame : quoted = { db with quotes := quoted.quotes, nextId := quoted.nextId }
  kept : ∀ quote ∈ db.quotes, quoted.quotes.get quote.id = some quote

theorem quoteDraft_quoted {run : NegotiationInput} {payload : TypedInput}
    {quotation : Option Quotation}
    (done : quoteDraft db run payload now = .ok (quoted, quotation)) : Quoted db quoted := by
  rcases quoteDraft_quotes done with ⟨same, _⟩ | ⟨_, _, _, quotes⟩
  · obtain ⟨rfl, rfl⟩ := Prod.mk.inj same
    exact ⟨rfl, fun quote member => Table.get_of_mem member⟩
  · have frame := quotes.frame
    dsimp only at frame
    rw [frame]
    exact ⟨rfl, fun quote member => Table.get_of_mem (Table.mem_insertIgnore_of_mem member)⟩

theorem Quoted.assess (quotes : Quoted db quoted) (candidate : Candidate) (now : Time) :
    assess quoted candidate now = assess db candidate now := by
  rw [quotes.frame]
  rfl

/-- One more quotation does not make a basis hold, nor end one. -/
theorem Quoted.validBasis (quotes : Quoted db quoted) (grounded : Grounded db) (offer : Offer)
    (now : Time) : validBasis quoted offer now = validBasis db offer now := by
  have bases : quoted.bases = db.bases := by rw [quotes.frame]
  unfold Negotiation.validBasis
  rw [bases]
  cases found : db.bases.get offer.id with
  | none => rfl
  | some basis =>
    obtain ⟨quote, member, key, _⟩ := grounded.based basis (Table.mem_of_get found)
    have before : db.quotes.get basis.costQuoteId = some quote :=
      Table.get_eq_some.mpr ⟨member, key⟩
    have later : quoted.quotes.get basis.costQuoteId = some quote := key ▸ quotes.kept quote member
    dsimp only
    rw [before, later, quotes.assess]

theorem Quoted.sameSemantics (quotes : Quoted db quoted) (grounded : Grounded db)
    (current : Offer) (candidate : Option Candidate) :
    SameSemantics quoted current candidate now ↔ SameSemantics db current candidate now := by
  have bases : quoted.bases = db.bases := by rw [quotes.frame]
  have session : quoted.session = db.session := by rw [quotes.frame]
  unfold SameSemantics
  rw [bases, session, quotes.validBasis grounded]

theorem Quoted.repeats (quotes : Quoted db quoted) (grounded : Grounded db) (current : Offer)
    (terms : Terms) (candidate : Option Candidate) :
    Repeats quoted current terms candidate now ↔ Repeats db current terms candidate now := by
  have evidence : quoted.evidence = db.evidence := by rw [quotes.frame]
  have policy : quoted.policy = db.policy := by rw [quotes.frame]
  have product : quoted.product = db.product := by rw [quotes.frame]
  unfold Repeats
  rw [evidence, policy, product, quotes.sameSemantics grounded]

/-! ### A proposal over again -/

omit [Platform] in
theorem datetime_mono {one two : Time} (le : one ≤ two) : datetime one ≤ datetime two :=
  Nat.mul_le_mul_right _ (Nat.div_le_div_right (Nat.add_le_add_right le _))

/-- The quotation a basis rests on ends no later than a new one for the same candidate, as long
as an assessment finds the same. -/
theorem quoteOf_later {clock : Time} {candidate : Candidate} {quote : CostQuote}
    (priced : Priced clock db) (passed : clock ≤ now) (member : quote ∈ db.quotes)
    (same : (assess db candidate now).snapshot = quote.snapshot) :
    quote.expiresAt ≤ (quoteOf db candidate now).expiresAt := by
  obtain ⟨ruleId, ruleVersion, expiry⟩ := assess_rule db candidate now
  have daily : quote.expiresAt ≤ now + hours 24 :=
    (priced.daily quote member).trans (Nat.add_le_add_right passed _)
  show quote.expiresAt ≤ (assess db candidate now).expiry
  rw [expiry]
  cases found : (shippingRule db candidate now).2 with
  | none => exact daily
  | some rule =>
    rw [found, same] at ruleId ruleVersion
    exact Nat.le_min.mpr ⟨daily,
      priced.ruled quote member rule (mem_of_shippingRule found) ruleId ruleVersion⟩

/-- The approval of an offer whose basis holds ends before a new quotation does. -/
theorem limitApproval_idle {clock : Time} {current : Offer} {candidate : Candidate}
    {basis : SemanticOfferBasis} (grounded : Grounded db) (priced : Priced clock db)
    (passed : clock ≤ now) (found : db.bases.get current.id = some basis)
    (named : basis.candidate = candidate) (holds : validBasis db current now = true)
    {stage : Db} (approvals : stage.approvals = db.approvals) :
    limitApproval stage ((db.approvalOf current.id).map (·.id)) (quoteOf db candidate now) =
      stage := by
  obtain ⟨quote, member, key, covers⟩ := grounded.based basis (Table.mem_of_get found)
  have quoted : db.quotes.get basis.costQuoteId = some quote :=
    Table.get_eq_some.mpr ⟨member, key⟩
  unfold validBasis at holds
  rw [found] at holds
  dsimp only at holds
  rw [quoted] at holds
  obtain ⟨_, _, same, _⟩ := of_decide_eq_true holds
  rw [named] at same
  have later := datetime_mono (quoteOf_later priced passed member same)
  unfold limitApproval
  rw [approvals]
  cases about : db.approvalOf current.id with
  | none => rfl
  | some approval =>
    obtain ⟨asked, key⟩ := mem_of_approvalOf about
    have based : basis.offerId = current.id := Table.key_of_get found
    have ends : approval.expiresAt ≤ datetime (quoteOf db candidate now).expiresAt :=
      (covers approval asked (key.trans based.symm)).trans later
    have got : db.approvals.get approval.id = some approval := Table.get_of_mem asked
    simp only [Option.map_some, Option.bind_some, got, Nat.min_eq_left ends]
    rw [Table.put_of_mem asked, ← approvals]

/-- What answering a proposal from the current offer writes besides its quotation: the draft it
submitted. -/
theorem recordBasis_repeated {clock : Time} {run : NegotiationInput} {current : Offer}
    {quotation : Option Quotation} (grounded : Grounded db) (priced : Priced clock db)
    (passed : clock ≤ now) (quotes : Quoted db quoted)
    (priced_ : ∀ quotation', quotation = some quotation' → Quotes db run now quoted quotation')
    (same : SameSemantics db current (quotation.map (·.draft.candidate)) now)
    (done : recordBasis quoted quotation (repeatedResult quoted current) = .ok after) :
    after = { quoted with drafts := after.drafts } := by
  have approvals : quoted.approvals = db.approvals := by rw [quotes.frame]
  have bases : quoted.bases = db.bases := by rw [quotes.frame]
  have about : quoted.approvalOf current.id = db.approvalOf current.id := by
    rw [quotes.frame]
    rfl
  cases quotation with
  | none =>
    obtain rfl := (pure_eq_ok _ _).mp done
    rfl
  | some quotation =>
    obtain ⟨found, holds⟩ := same
    obtain ⟨basis, found, named⟩ := (found_iff _ _).mp found
    have rests : quotation.quote = quoteOf db quotation.draft.candidate now :=
      (priced_ quotation rfl).quote
    unfold recordBasis at done
    simp only [bind_eq_ok, expect_eq_ok, pure_eq_ok] at done
    obtain ⟨offerId, answered, rfl⟩ := done
    obtain rfl : current.id = offerId := Option.some.inj answered
    have taken : quoted.bases.get current.id ≠ none := by
      rw [bases, found]
      exact Option.some_ne_none basis
    have kept : quoted.bases.insertIgnore
        { offerId := current.id
          costQuoteId := quotation.quote.id
          candidate := quotation.draft.candidate
          evaluations := quotation.evaluations } = quoted.bases :=
      Table.insertIgnore_of_taken taken
    have named_ : (repeatedResult quoted current).approvalId =
        (db.approvalOf current.id).map (·.id) := by
      rw [← about]
      rfl
    rw [kept, named_, rests, limitApproval_idle grounded priced passed found named holds]
    exact approvals

/-- A command of an input that answers a proposal: it was not carried out yet, and it makes an
offer on the terms of the draft it quotes, or on those of a typed input. -/
structure Proposes (db : Db) (runId : Nat) (now : Time) (run : NegotiationInput)
    (payload : TypedInput) (terms : Terms) (candidate : Option Candidate) : Prop where
  found : db.inputs.get runId = some run
  fresh : db.receipts.get (.turnAction runId) = none
  loaded : loadCommand db run = .ok payload
  offers : payload.kind.IsOffer
  stated : ∃ quoted quotation, quoteDraft db run payload now = .ok (quoted, quotation) ∧
    (quotation.map (·.terms)).or payload.terms = some terms ∧
    candidate = quotation.map (·.draft.candidate)

theorem carryOut_offer {run : NegotiationInput} {payload : TypedInput}
    {quotation : Option Quotation} (offers : payload.kind.IsOffer) :
    carryOut db run payload quotation now fault = placeOffer db payload quotation now fault := by
  unfold carryOut
  rcases offers with submit | replace
  · rw [submit]
  · rw [replace]

/-- A proposal that is carried out is resolved on its terms, and its basis is recorded. -/
theorem Proposes.resolved {run : NegotiationInput} {expectedVersion : Nat}
    {payload loaded : TypedInput} {terms : Terms} {candidate : Option Candidate}
    {quotation : Option Quotation} {finished : Db} {outcome : Result}
    (proposes : Proposes db run.id now run payload terms candidate)
    (carries : Carries db run expectedVersion now fault loaded quoted quotation finished outcome
      after) :
    candidate = quotation.map (·.draft.candidate) ∧
      ∃ resolved, Resolved quoted payload terms candidate now resolved outcome ∧
        recordBasis resolved quotation outcome = .ok finished := by
  obtain rfl : loaded = payload :=
    Except.ok.inj (carries.loaded.symm.trans proposes.loaded)
  obtain ⟨other, others, priced, stated, named⟩ := proposes.stated
  obtain ⟨rfl, rfl⟩ := Prod.mk.inj (Except.ok.inj (priced.symm.trans carries.priced))
  have placed := carries.carried
  rw [carryOut_offer proposes.offers] at placed
  unfold placeOffer at placed
  simp only [bind_eq_ok, expect_eq_ok, pure_eq_ok] at placed
  obtain ⟨found, same, ⟨resolved, result⟩, done, recorded, basis, last⟩ := placed
  obtain ⟨rfl, rfl⟩ := Prod.mk.inj last
  obtain rfl : found = terms := Option.some.inj (same.symm.trans stated)
  subst named
  exact ⟨rfl, resolved, resolveOfferInTransaction_resolved done, basis⟩

/-- Nothing is created besides the quotation a proposal asked for and its answer: the session
with its rounds and its version, the offers and what they rest on, and the approvals with their
ends are what they were. -/
def CreatesNothing (before after : Db) : Prop :=
  after =
    { before with
      quotes := after.quotes
      receipts := after.receipts
      deliveries := after.deliveries
      outbox := after.outbox
      drafts := after.drafts
      nextId := after.nextId }

theorem Proposes.reused {clock : Time} {run : NegotiationInput} {expectedVersion : Nat}
    {payload loaded : TypedInput} {terms : Terms} {candidate : Option Candidate}
    {quotation : Option Quotation} {finished : Db} {outcome : Result} {current : Offer}
    (grounded : Grounded db) (priced : Priced clock db) (passed : clock ≤ now)
    (proposes : Proposes db run.id now run payload terms candidate)
    (found : db.currentOffer = some current)
    (same : SameProposal db current terms candidate now)
    (carries : Carries db run expectedVersion now fault loaded quoted quotation finished outcome
      after) : CreatesNothing db after := by
  obtain ⟨named, resolved, resolution, basis⟩ := proposes.resolved carries
  have quotes : Quoted db quoted := quoteDraft_quoted carries.priced
  have shown : quoted.currentOffer = some current := by
    rw [quotes.frame]
    exact found
  cases resolution with
  | placed fresh =>
    exact absurd ((quotes.repeats grounded current terms candidate).mpr same.repeats)
      (fresh current shown)
  | @repeated answered shown_ _ unchanged answer =>
    obtain rfl : answered = current := Option.some.inj (shown_.symm.trans shown)
    subst unchanged
    rw [answer] at basis
    have semantics : SameSemantics db answered (quotation.map (·.draft.candidate)) now :=
      named ▸ same.2.2.2.2.2
    have quoting : ∀ other, quotation = some other → Quotes db run now resolved other := by
      rcases quoteDraft_quotes carries.priced with ⟨silent, _⟩ | ⟨one, stated, _, quotes⟩
      · intro other stated
        exact absurd ((Prod.mk.inj silent).2.symm.trans stated).symm (Option.some_ne_none other)
      · intro other other_
        obtain rfl : one = other := Option.some.inj (stated.symm.trans other_)
        exact quotes
    have frame := recordBasis_repeated grounded priced passed quotes quoting semantics basis
    unfold CreatesNothing
    rw [carries.frame, frame, quotes.frame]

/-! ### Any other proposal -/

/-- The input can be carried out now: its owner holds it, it was decided on the present version,
the session goes on, and the input has no answer yet. -/
structure Ready (db : Db) (run : NegotiationInput) (owner : Owner) (expectedVersion : Nat)
    (now : Time) : Prop where
  owned : ∃ task, lockOwner db run.id owner now = .ok (run, task)
  expected : db.session.version = expectedVersion
  open_ : db.session.status ≠ .agreed ∧ db.session.status ≠ .closed
  unanswered : db.reply run.id = none

omit [Platform] in
theorem recordBasis_ok {quotation : Option Quotation} {result : Result}
    (made : ∃ offerId, result.offerId = some offerId) :
    ∃ after, recordBasis db quotation result = .ok after := by
  obtain ⟨offerId, made⟩ := made
  cases quotation with
  | none => exact ⟨db, rfl⟩
  | some quotation =>
    unfold recordBasis
    exact bind_ok ((expect_eq_ok _ _ _).mpr made) ⟨_, rfl⟩

/-- The business of a legal proposal that repeats nothing succeeds below the limit. -/
theorem Proposes.carryOut_ok {run : NegotiationInput} {payload : TypedInput} {terms : Terms}
    {candidate : Option Candidate} (shape : Shape db.deal) (open_ : db.deal.Open)
    (supplied : Supplied db) (grounded : Grounded db)
    (proposes : Proposes db run.id now run payload terms candidate)
    (legal : Legal db payload terms) (limit : db.session.roundCount < db.policy.maxRounds)
    (fresh : ∀ current, db.currentOffer = some current →
      ¬ Repeats db current terms candidate now) :
    ∃ quoted quotation result, quoteDraft db run payload now = .ok (quoted, quotation) ∧
      carryOut quoted run payload quotation now none = .ok result := by
  obtain ⟨quoted, quotation, priced, stated, named⟩ := proposes.stated
  have quotes : Quoted db quoted := quoteDraft_quoted priced
  have dealt : quoted.deal = db.deal := quoteDraft_deal priced
  have supply : Supplied quoted := by
    rcases quoteDraft_quotes priced with ⟨same, _⟩ | ⟨_, _, _, quoting⟩
    · obtain ⟨rfl, rfl⟩ := Prod.mk.inj same
      exact supplied
    · exact quoting.deed.supplied supplied
  have lawful : Legal quoted payload terms := by
    rw [quotes.frame]
    exact ⟨legal.available, legal.supported, legal.replaces, legal.counters⟩
  have below : quoted.session.roundCount < quoted.policy.maxRounds := by
    rw [quotes.frame]
    exact limit
  have new : ∀ current, quoted.currentOffer = some current →
      ¬ Repeats quoted current terms candidate now := by
    intro current found repeats
    rw [quotes.frame] at found
    exact fresh current found ((quotes.repeats grounded current terms candidate).mp repeats)
  obtain ⟨⟨resolved, result⟩, done⟩ := resolveOfferInTransaction_ok (dealt.symm ▸ shape)
    (dealt.symm ▸ open_) supply lawful below new
  refine ⟨quoted, quotation, ?_⟩
  rw [carryOut_offer proposes.offers]
  have placed : ∃ result, placeOffer quoted payload quotation now none = .ok result := by
    unfold placeOffer
    refine bind_ok ((expect_eq_ok _ _ _).mpr stated) (bind_ok (named ▸ done) ?_)
    obtain ⟨finished, basis⟩ : ∃ after, recordBasis resolved quotation result = .ok after :=
      recordBasis_ok (resolveOfferInTransaction_resolved done).offerId
    exact bind_ok basis ⟨_, rfl⟩
  obtain ⟨result, placed⟩ := placed
  exact ⟨result, priced, placed⟩

/-- A command whose business succeeds is carried out when the input is ready. -/
theorem execute_ok {run : NegotiationInput} {owner : Owner} {expectedVersion : Nat}
    {payload : TypedInput} {quotation : Option Quotation} {finished : Db} {outcome : Result}
    (announced : RepliesAnnounced db) (ready : Ready db run owner expectedVersion now)
    (listed : run ∈ db.inputs) (fresh : db.receipts.get (.turnAction run.id) = none)
    (loaded : loadCommand db run = .ok payload)
    (priced : quoteDraft db run payload now = .ok (quoted, quotation))
    (carried : carryOut quoted run payload quotation now none = .ok (finished, outcome)) :
    ∃ result, execute db run.id owner expectedVersion now none = .ok result := by
  obtain ⟨quoting, chats⟩ := quoteDraft_writes priced
  have still : run ∈ quoted.inputs := by
    rw [(quoteDraft_quoted priced).frame]
    exact listed
  have writes : BusinessWrites db finished :=
    quoting.trans (carryOut_writes (fun some_ => ⟨run, still, chats some_⟩) carried)
  have unexecuted := (writes.action_receipt run.id).trans fresh
  have unanswered := (writes.reply run.id).trans ready.unanswered
  have unannounced := (writes.reply_event run.id).trans (announced run.id ready.unanswered)
  obtain ⟨after, recorded⟩ : ∃ after, recordCommand finished run expectedVersion
      { outcome with businessVersion := some finished.session.version } now none = .ok after :=
    recordCommand_ok unexecuted unanswered unannounced
  have new : ∃ result, executeNew db run expectedVersion now none = .ok result := by
    unfold executeNew
    refine bind_ok (require_ok ready.expected _) (bind_ok loaded (bind_ok priced ?_))
    exact bind_ok (require_ok ready.open_ _) (bind_ok carried (bind_ok recorded ⟨_, rfl⟩))
  obtain ⟨task, owned⟩ := ready.owned
  obtain ⟨result, new⟩ := new
  unfold execute
  refine bind_ok owned ?_
  dsimp only
  rw [fresh]
  exact bind_ok new ⟨_, rfl⟩

omit [Platform] in
theorem recordBasis_offers {quotation : Option Quotation} {result : Result}
    (done : recordBasis db quotation result = .ok after) :
    after.offers = db.offers ∧ after.session = db.session := by
  unfold recordBasis at done
  split at done
  · obtain rfl := (pure_eq_ok _ _).mp done
    exact ⟨rfl, rfl⟩
  · simp only [bind_eq_ok, pure_eq_ok] at done
    obtain ⟨offerId, _, rfl⟩ := done
    rw [limitApproval_frame]
    exact ⟨rfl, rfl⟩

/-- One buyer offer on the terms is created, and one round is added. -/
structure AddsRound (before after : Db) (terms : Terms) : Prop where
  round : after.session.roundCount = before.session.roundCount + 1
  offer : ∃ offer ∈ after.offers, offer.proposer = .buyer ∧
    newOffer offer.id .buyer terms offer.expiresAt = .ok offer.core ∧
    (∀ old ∈ before.offers, old.id ≠ offer.id) ∧
    ∀ other ∈ after.offers, other.proposer = .buyer →
      other.id = offer.id ∨ ∃ old ∈ before.offers, old.core = other.core
  kept : ∀ old ∈ before.offers, ∃ new ∈ after.offers, new.core = old.core

omit [Platform] in
/-- An offer that is added to the offers that were there adds a round. -/
theorem Added.addsRound {before cleared : Db} {id : Nat} {offer : Offer} {terms : Terms}
    {expiresAt : Time} (cores : offerCores cleared.offers = offerCores before.offers)
    (added : Added cleared.offers offer after.offers)
    (free : cleared.offers.get offer.id = none)
    (made : newOffer id .buyer terms expiresAt = .ok offer)
    (round : after.session.roundCount = before.session.roundCount + 1) :
    AddsRound before after terms := by
  obtain ⟨core, key, buyer, _, expiry⟩ := newOffer_core made
  obtain ⟨⟨row, member, same⟩, stays⟩ := added.kept free
  have keyed : row.id = offer.id := core_id same
  have earlier : ∀ old ∈ before.offers, ∃ still ∈ cleared.offers, still.core = old.core := by
    intro old found
    have listed : old.core ∈ offerCores cleared.offers := cores ▸ listed_offer found
    exact List.mem_map.mp listed
  refine ⟨round, ⟨row, member, (core_proposer same).trans buyer, ?_, fun old found same => ?_,
    fun other found bought => ?_⟩, fun old found => ?_⟩
  · rw [same, core, keyed, core_expiresAt same, key, expiry]
    exact made
  · obtain ⟨still, listed, core⟩ := earlier old found
    exact Table.get_eq_none.mp free still listed ((core_id core).trans (same.trans keyed))
  · rcases added.others found bought with old | new
    · have listed : other.core ∈ offerCores before.offers := cores ▸ listed_offer old
      exact .inr (List.mem_map.mp listed)
    · exact .inl (core_id (new.trans same.symm))
  · obtain ⟨still, listed, core⟩ := earlier old found
    exact ⟨still, stays still listed, core⟩

theorem Proposes.addsRound {run : NegotiationInput} {expectedVersion : Nat}
    {payload loaded : TypedInput} {terms : Terms} {candidate : Option Candidate}
    {quotation : Option Quotation} {finished : Db} {outcome : Result} (grounded : Grounded db)
    (proposes : Proposes db run.id now run payload terms candidate)
    (fresh : ∀ current, db.currentOffer = some current →
      ¬ Repeats db current terms candidate now)
    (carries : Carries db run expectedVersion now fault loaded quoted quotation finished outcome
      after) : AddsRound db after terms := by
  obtain ⟨_, resolved, resolution, basis⟩ := proposes.resolved carries
  have quotes : Quoted db quoted := quoteDraft_quoted carries.priced
  obtain ⟨offers, session⟩ := recordBasis_offers basis
  cases resolution with
  | repeated found same =>
    rw [quotes.frame] at found
    exact absurd ((quotes.repeats grounded _ terms candidate).mp same) (fresh _ found)
  | placed _ _ _ _ clears made free _ placed =>
    have settles := clearCurrent_settles clears
    obtain ⟨added, next, _⟩ := placed.added
    have offered : after.offers = resolved.offers := by
      rw [carries.frame]
      exact offers
    rw [← offered] at added
    refine added.addsRound (settles.offers.trans (by rw [quotes.frame])) free made ?_
    rw [carries.frame, show finished.session = _ from session, next, settles.frame, quotes.frame]

/-! ### Runs -/

theorem reachable_announced {world : World}
    (reached : Reachable World.Step World.Initial world) : RepliesAnnounced world.db := by
  refine database_invariant RepliesAnnounced (fun world initial => ?_)
    (fun db transaction after held done => (perform_effect done).repliesAnnounced held) reached
  obtain ⟨⟨_, _, _, _, _, _, _, db⟩, _⟩ := initial
  rw [db]
  exact fun runId _ => rfl

/-- A transaction that fails leaves the database as it was. -/
theorem World.Step.failed {before after : World} {transaction : Transaction} {failure : Failure}
    (step : World.Step before (.call transaction) after)
    (failed : before.db.perform transaction = .error failure) : after.db = before.db := by
  obtain ⟨_, _, rfl⟩ := step
  show (before.settleTransaction transaction).db = before.db
  unfold World.settleTransaction
  rw [failed]

/-- A step that carries out the proposal of the current offer over again creates nothing. -/
theorem World.Step.reused {before after : World} {run : NegotiationInput} {owner : Owner}
    {expectedVersion : Nat} {payload : TypedInput} {terms : Terms}
    {candidate : Option Candidate} {current : Offer}
    (reached : Reachable World.Step World.Initial before)
    (step : World.Step before (.call (.execute run.id owner expectedVersion now fault)) after)
    (proposes : Proposes before.db run.id now run payload terms candidate)
    (found : before.db.currentOffer = some current)
    (same : SameProposal before.db current terms candidate now) :
    CreatesNothing before.db after.db := by
  have passed : before.clock ≤ now := step.1.1
  rcases step.called with idle | done
  · rw [idle]
    rfl
  · obtain ⟨result, executed, last⟩ := (map_eq_ok _ _ _).mp done
    rw [← last]
    rcases execute_carries executed with
      ⟨_, recorded⟩ | ⟨other, _, _, _, _, _, key, carries⟩
    · exact absurd proposes.fresh recorded
    · have listed := carries.found
      rw [key] at listed
      obtain rfl : other = run := Option.some.inj (listed.symm.trans proposes.found)
      exact proposes.reused (reachable_grounded reached) (reachable_priced reached) passed found
        same carries

/-- A step that carries out any other legal proposal below the limit adds a round. -/
theorem World.Step.addsRound {before after : World} {run : NegotiationInput} {owner : Owner}
    {expectedVersion : Nat} {payload : TypedInput} {terms : Terms}
    {candidate : Option Candidate} (reached : Reachable World.Step World.Initial before)
    (step : World.Step before (.call (.execute run.id owner expectedVersion now none)) after)
    (proposes : Proposes before.db run.id now run payload terms candidate)
    (other : ∀ current, before.db.currentOffer = some current →
      Distinguished current terms ∧ ¬ SameProposal before.db current terms candidate now)
    (ready : Ready before.db run owner expectedVersion now)
    (legal : Legal before.db payload terms)
    (limit : before.db.session.roundCount < before.db.policy.maxRounds) :
    AddsRound before.db after.db terms := by
  have shape := reachable_shape reached
  have grounded := reachable_grounded reached
  have fresh : ∀ current, before.db.currentOffer = some current →
      ¬ Repeats before.db current terms candidate now := by
    intro current found repeats
    obtain ⟨distinguished, different⟩ := other current found
    exact different (repeats.sameProposal distinguished)
  obtain ⟨quoted, quotation, ⟨finished, outcome⟩, priced, carried⟩ :=
    proposes.carryOut_ok shape (open_of_not_over ready.open_.1 ready.open_.2)
      (reachable_supplied reached) grounded legal limit fresh
  obtain ⟨result, executed⟩ := execute_ok (reachable_announced reached) ready
    (Table.mem_of_get proposes.found) proposes.fresh proposes.loaded priced carried
  have done : before.db.perform (.execute run.id owner expectedVersion now none) =
      .ok result.1 := (map_eq_ok _ _ _).mpr ⟨result, executed, rfl⟩
  have last : after.db = result.1 := by
    obtain ⟨_, _, rfl⟩ := step
    show (before.settleTransaction _).db = result.1
    unfold World.settleTransaction
    rw [done]
  rw [last]
  rcases execute_carries executed with ⟨_, recorded⟩ | ⟨run_, _, _, _, _, _, key, carries⟩
  · exact absurd proposes.fresh recorded
  · have listed := carries.found
    rw [key] at listed
    obtain rfl : run_ = run := Option.some.inj (listed.symm.trans proposes.found)
    exact proposes.addsRound grounded fresh carries

/-- The rounds of a session are its buyer offers, each of which was made below the limit of its
time; a proposal of the current offer over again creates nothing; any other legal proposal below
the limit creates one buyer offer and adds one round; and a command that fails changes nothing.
-/
theorem rounds_and_reuse {first last : World} {history : List (Transition World Event)}
    (initial : World.Initial first) (run : Run World.Step first history last) :
    last.db.session.roundCount = buyerOffers last.db.offers ∧
    (∀ transition ∈ history, ∀ offer ∈ transition.after.db.offers, offer.proposer = .buyer →
      (∃ old ∈ transition.before.db.offers, old.id = offer.id) ∨
        transition.before.db.session.roundCount < transition.before.db.policy.maxRounds) ∧
    (∀ transition ∈ history, ∀ input owner expectedVersion now fault payload terms candidate,
      transition.event = .call (.execute input.id owner expectedVersion now fault) →
      Proposes transition.before.db input.id now input payload terms candidate →
      ((∃ current, transition.before.db.currentOffer = some current ∧
          SameProposal transition.before.db current terms candidate now) →
        CreatesNothing transition.before.db transition.after.db) ∧
      ((∀ current, transition.before.db.currentOffer = some current →
          Distinguished current terms ∧
            ¬ SameProposal transition.before.db current terms candidate now) →
        Ready transition.before.db input owner expectedVersion now →
        Legal transition.before.db payload terms →
        transition.before.db.session.roundCount < transition.before.db.policy.maxRounds →
        fault = none → AddsRound transition.before.db transition.after.db terms)) ∧
    (∀ transition ∈ history, ∀ runId owner expectedVersion now fault failure,
      transition.event = .call (.execute runId owner expectedVersion now fault) →
      transition.before.db.perform (.execute runId owner expectedVersion now fault) =
        .error failure →
      transition.after.db = transition.before.db) := by
  have reached : Reachable World.Step World.Initial first := ⟨first, [], initial, .start first⟩
  refine ⟨reachable_rounds ⟨first, history, initial, run⟩, ?_, ?_, ?_⟩
  · intro transition member offer found buyer
    have step := run.taken member
    rcases step.limited (run.reachable_before reached member) offer found buyer with
      ⟨old, known, same⟩ | below
    · exact .inl ⟨old, known, core_id same⟩
    · exact .inr below
  · intro transition member input owner expectedVersion now fault payload terms candidate called
      proposes
    have before := run.reachable_before reached member
    have step := run.taken member
    rw [called] at step
    refine ⟨?_, ?_⟩
    · rintro ⟨current, found, same⟩
      exact step.reused before proposes found same
    · rintro other ready legal limit rfl
      exact step.addsRound before proposes other ready legal limit
  · intro transition member runId owner expectedVersion now fault failure called failed
    have step := run.taken member
    rw [called] at step
    exact step.failed failed

end

attribute [local instance] samplePlatform in
/-- A session whose buyer made an offer has spent one round. -/
theorem rounds_and_reuse_submission :
    (sampleWorld.after submission).db.session.roundCount = 1 ∧
      buyerOffers (sampleWorld.after submission).db.offers = 1 := by
  have run : Run World.Step sampleWorld (sampleWorld.history [] submission)
      (sampleWorld.after submission) :=
    World.run_history (.start sampleWorld) (by decide +kernel : Scheduled 0 submission)
  have spent : (sampleWorld.after submission).db.session.roundCount = 1 := by decide +kernel
  exact ⟨spent, (rounds_and_reuse sampleWorld_initial run).1.symm.trans spent⟩

end Negotiation
