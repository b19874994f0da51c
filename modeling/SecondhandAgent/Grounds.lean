/-
This file says what an offer and its approval rest on, in every reachable state.
An offer has the evidence it was made on, an approval was asked for under the
policy of that evidence, and it ends no later than the offer and than the
quotation the offer was made on. A quotation, in turn, ends no later than the
shipping rule it took its cost from.
-/

import SecondhandAgent.Supply

namespace Negotiation

open Store Deal

section

variable [Platform] {db after : Db} {now : Time}

/-- What the offers, the approvals and the bases of a session rest on. -/
structure Grounded (db : Db) : Prop where
  proved : ∀ offer ∈ db.offers, ∃ proof ∈ db.evidence,
    proof.offerId = offer.id ∧ proof.termsHash = termsHash offer
  granted : ∀ approval ∈ db.approvals, ∀ proof ∈ db.evidence,
    proof.offerId = approval.offerId → approval.policyVersion = proof.policyVersion
  timely : ∀ approval ∈ db.approvals, ∀ offer ∈ db.offers, offer.id = approval.offerId →
    approval.expiresAt ≤ offer.expiresAt
  offered : ∀ basis ∈ db.bases, ∃ offer ∈ db.offers, offer.id = basis.offerId
  based : ∀ basis ∈ db.bases, ∃ quote ∈ db.quotes, quote.id = basis.costQuoteId ∧
    ∀ approval ∈ db.approvals, approval.offerId = basis.offerId →
      approval.expiresAt ≤ datetime quote.expiresAt

/-! ### Settling -/

/-- The digest of the terms reads the core of the offer. -/
theorem core_termsHash {one two : Offer} (same : one.core = two.core) :
    termsHash one = termsHash two := by
  have hash : termsHash one.core = termsHash two.core := congrArg termsHash same
  exact hash

theorem Settles.grounded {before : Db} (settles : Settles before after)
    (grounded : Grounded before) : Grounded after := by
  have evidence : after.evidence = before.evidence := by rw [settles.frame]
  have bases : after.bases = before.bases := by rw [settles.frame]
  have quotes : after.quotes = before.quotes := by rw [settles.frame]
  refine ⟨fun offer member => ?_, fun approval member proof proved about => ?_,
    fun approval member offer found about => ?_, fun basis member => ?_, fun basis member => ?_⟩
  · obtain ⟨old, found, core⟩ := settles.offer_before member
    obtain ⟨proof, proved, about, hash⟩ := grounded.proved old found
    rw [evidence]
    exact ⟨proof, proved, about.trans (core_id core), hash.trans (core_termsHash core)⟩
  · obtain ⟨old, found, core⟩ := settles.approval_before member
    have version : old.core.policyVersion = approval.core.policyVersion :=
      congrArg ApprovalRequest.policyVersion core
    rw [evidence] at proved
    exact version.symm.trans
      (grounded.granted old found proof proved (about.trans (core_offerId core).symm))
  · obtain ⟨old, asked, core⟩ := settles.approval_before member
    obtain ⟨oldOffer, offered, offerCore⟩ := settles.offer_before found
    have ends : old.core.expiresAt = approval.core.expiresAt :=
      congrArg ApprovalRequest.expiresAt core
    have limit := grounded.timely old asked oldOffer offered
      ((core_id offerCore).trans (about.trans (core_offerId core).symm))
    rw [core_expiresAt offerCore] at limit
    exact (show approval.expiresAt = old.expiresAt from ends.symm).trans_le limit
  · rw [bases] at member
    obtain ⟨old, found, about⟩ := grounded.offered basis member
    obtain ⟨new, present, core⟩ := settles.offer_after found
    exact ⟨new, present, (core_id core).trans about⟩
  · rw [bases] at member
    obtain ⟨quote, quoted, key, limits⟩ := grounded.based basis member
    rw [quotes]
    refine ⟨quote, quoted, key, fun approval asked about => ?_⟩
    obtain ⟨old, found, core⟩ := settles.approval_before asked
    have ends : old.core.expiresAt = approval.core.expiresAt :=
      congrArg ApprovalRequest.expiresAt core
    exact (show approval.expiresAt = old.expiresAt from ends.symm).trans_le
      (limits old found ((core_offerId core).trans about))

/-! ### Placing -/

/-- A new offer comes with its evidence. -/
theorem Grounded.offering {offer : Offer} (grounded : Grounded db) (asked : Asked db)
    (offers : after.offers = db.offers.insertIgnore offer)
    (evidence : after.evidence = db.evidence.insertIgnore (proofOf db offer))
    (approvals : after.approvals = db.approvals) (bases : after.bases = db.bases)
    (quotes : after.quotes = db.quotes) (free : db.offers.get offer.id = none)
    (unproved : db.evidence.get offer.id = none) : Grounded after := by
  have unasked : ∀ approval ∈ db.approvals, offer.id ≠ approval.offerId := by
    intro approval member about
    obtain ⟨other, found, same⟩ := asked.offered approval member
    exact Table.get_eq_none.mp free other found (same.trans about.symm)
  refine ⟨?_, ?_, ?_, ?_, ?_⟩
  · rw [offers, evidence]
    intro other member
    rcases Table.mem_insertIgnore member with rfl | old
    · exact ⟨_, Table.mem_insertIgnore_self unproved, rfl, rfl⟩
    · obtain ⟨proof, proved, rest⟩ := grounded.proved other old
      exact ⟨proof, Table.mem_insertIgnore_of_mem proved, rest⟩
  · rw [approvals, evidence]
    intro approval member proof proved about
    rcases Table.mem_insertIgnore proved with rfl | old
    · exact absurd about (unasked approval member)
    · exact grounded.granted approval member proof old about
  · rw [approvals, offers]
    intro approval member other found about
    rcases Table.mem_insertIgnore found with rfl | old
    · exact absurd about (unasked approval member)
    · exact grounded.timely approval member other old about
  · rw [bases, offers]
    intro basis member
    obtain ⟨other, found, about⟩ := grounded.offered basis member
    exact ⟨other, Table.mem_insertIgnore_of_mem found, about⟩
  · rw [bases, quotes, approvals]
    exact grounded.based

/-- An approval is asked for an offer that has no basis yet, under the policy of its
evidence. -/
theorem Grounded.asking {offer : Offer} (grounded : Grounded db) (member : offer ∈ db.offers)
    (policy : ∀ proof ∈ db.evidence, proof.offerId = offer.id →
      proof.policyVersion = db.policy.version)
    (unbased : ∀ basis ∈ db.bases, basis.offerId ≠ offer.id) : Grounded (db.asking offer now) := by
  refine ⟨grounded.proved, fun approval found proof proved about => ?_,
    fun approval found other offered about => ?_, grounded.offered, fun basis based => ?_⟩
  · rcases Table.mem_insertIgnore found with rfl | old
    · exact (policy proof proved about).symm
    · exact grounded.granted approval old proof proved about
  · rcases Table.mem_insertIgnore found with rfl | old
    · obtain rfl := Table.eq_of_key offered member about
      exact Nat.min_le_right _ _
    · exact grounded.timely approval old other offered about
  · obtain ⟨quote, quoted, key, limits⟩ := grounded.based basis based
    refine ⟨quote, quoted, key, fun approval found about => ?_⟩
    rcases Table.mem_insertIgnore found with rfl | old
    · exact absurd about.symm (unbased basis based)
    · exact limits approval old about

theorem Asked.proposing {offer : Offer} (asked : Asked db) : Asked (db.proposing offer) := by
  refine ⟨fun approval member => ?_, asked.single⟩
  obtain ⟨other, found, about⟩ := asked.offered approval member
  exact ⟨other, Table.mem_insertIgnore_of_mem found, about⟩

omit [Platform] in
theorem Asked.asking {offer : Offer} (asked : Asked db) (member : offer ∈ db.offers)
    (unasked : ∀ approval ∈ db.approvals, approval.offerId ≠ offer.id) :
    Asked (db.asking offer now) := by
  refine ⟨fun approval found => ?_, fun one first two second same => ?_⟩
  · rcases Table.mem_insertIgnore found with rfl | old
    · exact ⟨offer, member, rfl⟩
    · exact asked.offered approval old
  · rcases Table.mem_insertIgnore first with rfl | oneOld
    · rcases Table.mem_insertIgnore second with rfl | twoOld
      · rfl
      · exact absurd same.symm (unasked two twoOld)
    · rcases Table.mem_insertIgnore second with rfl | twoOld
      · exact absurd same (unasked one oneOld)
      · exact asked.single one oneOld two twoOld same

theorem Placed.asked_grounded {offer : Offer} {authorization : OfferAuthorization}
    {counterTerms : Option Terms} {result : Result} (asked : Asked db) (grounded : Grounded db)
    (free : db.offers.get offer.id = none) (unproved : db.evidence.get offer.id = none)
    (placed : Placed db offer authorization counterTerms now after result) :
    Asked after ∧ Grounded after := by
  have proposed : ∀ status, Asked (db.proposing { offer with status }) ∧
      Grounded (db.proposing { offer with status }) := by
    intro status
    exact ⟨asked.proposing, grounded.offering asked rfl rfl rfl rfl rfl free unproved⟩
  cases placed with
  | accepted =>
    obtain ⟨kept, held⟩ := proposed .accepted
    exact ⟨⟨kept.offered, kept.single⟩,
      ⟨held.proved, held.granted, held.timely, held.offered, held.based⟩⟩
  | refused => exact proposed .rejected
  | asked _ _ unasked =>
    obtain ⟨kept, held⟩ := proposed offer.status
    have member : offer ∈ (db.proposing offer).offers := Table.mem_insertIgnore_self free
    refine ⟨kept.asking member unasked, held.asking member (fun proof proved about => ?_)
      fun basis based about => ?_⟩
    · rcases Table.mem_insertIgnore proved with rfl | old
      · rfl
      · exact absurd about (Table.get_eq_none.mp unproved proof old)
    · obtain ⟨other, found, same⟩ := grounded.offered basis based
      exact Table.get_eq_none.mp free other found (same.trans about)
  | countered _ _ _ _ next unprovedNext =>
    obtain ⟨kept, held⟩ := proposed .rejected
    refine ⟨⟨fun approval member => ?_, kept.single⟩,
      held.offering kept rfl rfl rfl rfl rfl next unprovedNext⟩
    obtain ⟨other, found, about⟩ := kept.offered approval member
    exact ⟨other, Table.mem_insertIgnore_of_mem found, about⟩

/-! ### Recording a basis -/

/-- An approval that may have got an earlier end. -/
structure Shortened (old new : ApprovalRequest) : Prop where
  id : new.id = old.id
  offerId : new.offerId = old.offerId
  policyVersion : new.policyVersion = old.policyVersion
  sooner : new.expiresAt ≤ old.expiresAt

omit [Platform] in
/-- No approval ends later than before, and the one that is named ends no later than the
quotation. -/
theorem limitApproval_mem {approvalId : Option Nat} {quote : CostQuote}
    {approval : ApprovalRequest}
    (member : approval ∈ (limitApproval db approvalId quote).approvals) :
    ∃ old ∈ db.approvals, Shortened old approval ∧
      (approvalId = some approval.id → approval.expiresAt ≤ datetime quote.expiresAt) := by
  have same : ∀ row : ApprovalRequest, Shortened row row := fun _ => ⟨rfl, rfl, rfl, Nat.le_refl _⟩
  unfold limitApproval at member
  split at member
  · next unknown =>
    refine ⟨approval, member, same approval, fun named => ?_⟩
    rw [named] at unknown
    exact absurd rfl (Table.get_eq_none.mp unknown approval member)
  · next limited found =>
    obtain ⟨_, rfl, got⟩ := Option.bind_eq_some_iff.mp found
    rcases Table.mem_put.mp member with ⟨old, other⟩ | ⟨rfl, _⟩
    · refine ⟨approval, old, same approval, fun named => ?_⟩
      exact absurd ((Option.some.inj named).symm.trans (Table.key_of_get got).symm) other
    · exact ⟨limited, Table.mem_of_get got, ⟨rfl, rfl, rfl, Nat.min_le_left _ _⟩,
        fun _ => Nat.min_le_right _ _⟩

omit [Platform] in
theorem limitApproval_frame (db : Db) (approvalId : Option Nat) (quote : CostQuote) :
    limitApproval db approvalId quote =
      { db with approvals := (limitApproval db approvalId quote).approvals } := by
  unfold limitApproval
  split <;> rfl

omit [Platform] in
theorem limitApproval_asked {approvalId : Option Nat} {quote : CostQuote} (asked : Asked db) :
    Asked (limitApproval db approvalId quote) := by
  have offers : (limitApproval db approvalId quote).offers = db.offers := by
    rw [limitApproval_frame]
  refine ⟨fun approval member => ?_, fun one first two second same => ?_⟩
  · obtain ⟨old, found, shortened, _⟩ := limitApproval_mem member
    rw [offers, shortened.offerId]
    exact asked.offered old found
  · obtain ⟨oneOld, oneFound, oneShortened, _⟩ := limitApproval_mem first
    obtain ⟨twoOld, twoFound, twoShortened, _⟩ := limitApproval_mem second
    rw [oneShortened.offerId, twoShortened.offerId] at same
    have equal : oneOld = twoOld := asked.single oneOld oneFound twoOld twoFound same
    exact Table.eq_of_key first second (oneShortened.id.trans (equal ▸ twoShortened.id.symm))

theorem recordBasis_grounded {quotation : Quotation} {result : Result} (asked : Asked db)
    (grounded : Grounded db) (quoted : quotation.quote ∈ db.quotes)
    (made : ∀ offerId, result.offerId = some offerId → ∃ offer ∈ db.offers, offer.id = offerId)
    (told : ∀ approval ∈ db.approvals, result.offerId = some approval.offerId →
      result.approvalId = some approval.id)
    (recorded : recordBasis db (some quotation) result = .ok after) :
    Asked after ∧ Grounded after := by
  unfold recordBasis at recorded
  simp only [bind_eq_ok, pure_eq_ok, expect_eq_ok] at recorded
  obtain ⟨offerId, named, rfl⟩ := recorded
  refine ⟨limitApproval_asked ⟨asked.offered, asked.single⟩, ?_⟩
  rw [limitApproval_frame]
  refine ⟨grounded.proved, fun approval member proof proved about => ?_,
    fun approval member offer found about => ?_, fun basis member => ?_, fun basis member => ?_⟩
  · obtain ⟨old, asked, shortened, _⟩ := limitApproval_mem member
    have granted := grounded.granted old asked proof proved (about.trans shortened.offerId)
    exact shortened.policyVersion.trans granted
  · obtain ⟨old, asked, shortened, _⟩ := limitApproval_mem member
    have timely := grounded.timely old asked offer found (about.trans shortened.offerId)
    exact shortened.sooner.trans timely
  · rcases Table.mem_insertIgnore member with rfl | old
    · exact made offerId named
    · exact grounded.offered basis old
  · rcases Table.mem_insertIgnore member with rfl | old
    · refine ⟨quotation.quote, quoted, rfl, fun approval member about => ?_⟩
      obtain ⟨old, asked, shortened, ends⟩ := limitApproval_mem member
      have subject : result.offerId = some old.offerId := by
        rw [named, ← shortened.offerId, about]
      rw [shortened.id] at ends
      exact ends (told old asked subject)
    · obtain ⟨quote, known, key, limits⟩ := grounded.based basis old
      refine ⟨quote, known, key, fun approval member about => ?_⟩
      obtain ⟨earlier, asked, shortened, _⟩ := limitApproval_mem member
      exact shortened.sooner.trans (limits earlier asked (shortened.offerId.symm.trans about))

theorem Deed.asked_grounded (deed : Deed now db after) (asked : Asked db)
    (grounded : Grounded db) : Asked after ∧ Grounded after := by
  cases deed with
  | settled settles => exact ⟨asked.settles settles, settles.grounded grounded⟩
  | quoted _ _ =>
    refine ⟨⟨asked.offered, asked.single⟩, grounded.proved, grounded.granted, grounded.timely,
      grounded.offered, fun basis member => ?_⟩
    obtain ⟨quote, quoted, rest⟩ := grounded.based basis member
    exact ⟨quote, Table.mem_insertIgnore_of_mem quoted, rest⟩
  | placed _ _ free unproved placed => exact placed.asked_grounded asked grounded free unproved
  | based quoted made told recorded =>
    exact recordBasis_grounded asked grounded quoted made told recorded

theorem perform_grounded {transaction : Transaction} (shape : Shape db.deal) (grounded : Grounded db)
    (done : db.perform transaction = .ok after) : Grounded after := by
  by_cases acts : transaction.Acts
  · by_cases business : transaction.IsBusiness
    · exact (business_settles shape business done).grounded grounded
    · cases transaction with
      | execute =>
        obtain ⟨result, performed, rfl⟩ := (map_eq_ok _ _ _).mp done
        have asked : Asked db := .of_shape shape
        exact ((execute_deeds asked performed).keeps (fun stage => Asked stage ∧ Grounded stage)
          (fun _ _ deed held => deed.asked_grounded held.1 held.2) ⟨asked, grounded⟩).2
      | _ => exact absurd acts business
  · have affairs := (perform_effect done).affairs acts
    have offers : after.offers = db.offers := congrArg (·.deal.offers) affairs
    have approvals : after.approvals = db.approvals := congrArg (·.deal.approvals) affairs
    have evidence : after.evidence = db.evidence := congrArg Affairs.evidence affairs
    have bases : after.bases = db.bases := congrArg Affairs.bases affairs
    have quotes : after.quotes = db.quotes := congrArg Affairs.quotes affairs
    obtain ⟨proved, granted, timely, offered, based⟩ := grounded
    constructor <;> simp only [offers, approvals, evidence, bases, quotes] <;> assumption

/-- What the session rests on is in order in every reachable state. -/
theorem reachable_grounded {world : World} (reached : Reachable World.Step World.Initial world) :
    Grounded world.db := by
  refine (database_invariant (fun db => Shape db.deal ∧ Grounded db) (fun world initial => ?_)
    (fun db transaction after held done => ?_) reached).2
  · refine ⟨initial_shape initial, ?_⟩
    obtain ⟨⟨_, _, _, _, _, _, _, db⟩, _⟩ := initial
    rw [db]
    exact ⟨fun _ member => absurd member (Table.not_mem_empty _),
      fun _ member => absurd member (Table.not_mem_empty _),
      fun _ member => absurd member (Table.not_mem_empty _),
      fun _ member => absurd member (Table.not_mem_empty _),
      fun _ member => absurd member (Table.not_mem_empty _)⟩
  · obtain ⟨shape, grounded⟩ := held
    exact ⟨(perform_op shape done).shape shape, perform_grounded shape grounded done⟩

/-! ### Quotations and the rules -/

/-- The versions of the rules and of the quotations were reached by the goods, and a quotation
ends within a day and no later than the rule it took its cost from, as long as the rule stands. -/
structure Priced (clock : Time) (db : Db) : Prop where
  rules : ∀ rule ∈ db.rules, rule.version ≤ db.product.productVersion
  versions : ∀ quote ∈ db.quotes, ∀ version, quote.snapshot.ruleVersion = some version →
    version ≤ db.product.productVersion
  daily : ∀ quote ∈ db.quotes, quote.expiresAt ≤ clock + hours 24
  ruled : ∀ quote ∈ db.quotes, ∀ rule ∈ db.rules, quote.snapshot.ruleId = some rule.id →
    quote.snapshot.ruleVersion = some rule.version → quote.expiresAt ≤ rule.expiresAt

omit [Platform] in
theorem Priced.waits {clock later : Time} (priced : Priced clock db) (passed : clock ≤ later) :
    Priced later db :=
  ⟨priced.rules, priced.versions,
    fun quote member => (priced.daily quote member).trans (Nat.add_le_add_right passed _),
    priced.ruled⟩

omit [Platform] in
/-- The rule of a candidate is one of the seller's. -/
theorem mem_of_shippingRule {candidate : Candidate} {rule : ShippingCostRule}
    (found : (shippingRule db candidate now).2 = some rule) : rule ∈ db.rules := by
  unfold shippingRule at found
  split at found
  · split at found
    · cases found
    · next region _ =>
      split at found
      · cases found
      · next single applicable =>
        obtain rfl := Option.some.inj found
        have listed : single ∈ rulesFor db region now := by
          rw [applicable]
          exact List.mem_singleton_self _
        exact (List.mem_filter.mp listed).1
      · cases found
  · cases found

/-- What an assessment costs and how long it holds comes from the rule of the candidate. -/
theorem assess_rule (db : Db) (candidate : Candidate) (now : Time) :
    (assess db candidate now).snapshot.ruleId =
        ((shippingRule db candidate now).2).map (·.id) ∧
      (assess db candidate now).snapshot.ruleVersion =
        ((shippingRule db candidate now).2).map (·.version) ∧
      (assess db candidate now).expiry =
        (match (shippingRule db candidate now).2 with
          | some rule => min (now + hours 24) rule.expiresAt
          | none => now + hours 24) := ⟨rfl, rfl, rfl⟩

theorem Priced.quoted {clock : Time} {candidate : Candidate} (priced : Priced clock db)
    (passed : now ≤ clock) :
    Priced clock
      { db with
        quotes := db.quotes.insertIgnore (quoteOf db candidate now)
        nextId := db.nextId + 1 } := by
  obtain ⟨ruleId, ruleVersion, expiry⟩ := assess_rule db candidate now
  refine ⟨priced.rules, fun quote member version named => ?_, fun quote member => ?_,
    fun quote member rule ruled id version => ?_⟩
  · rcases Table.mem_insertIgnore member with rfl | old
    · have named : (assess db candidate now).snapshot.ruleVersion = some version := named
      rw [ruleVersion] at named
      obtain ⟨rule, found, rfl⟩ := Option.map_eq_some_iff.mp named
      exact priced.rules rule (mem_of_shippingRule found)
    · exact priced.versions quote old version named
  · rcases Table.mem_insertIgnore member with rfl | old
    · have day : (assess db candidate now).expiry ≤ now + hours 24 := by
        rw [expiry]
        split
        · exact Nat.min_le_left _ _
        · exact Nat.le_refl _
      exact day.trans (Nat.add_le_add_right passed _)
    · exact priced.daily quote old
  · rcases Table.mem_insertIgnore member with rfl | old
    · have id : (assess db candidate now).snapshot.ruleId = some rule.id := id
      rw [ruleId] at id
      obtain ⟨used, found, same⟩ := Option.map_eq_some_iff.mp id
      obtain rfl := Table.eq_of_key (mem_of_shippingRule found) ruled same
      show (assess db candidate now).expiry ≤ _
      rw [expiry, found]
      exact Nat.min_le_right _ _
    · exact priced.ruled quote old rule ruled id version

omit [Platform] in
/-- Whatever leaves the quotations, the rules and the goods alone. -/
theorem Priced.same {clock : Time} (priced : Priced clock db) (quotes : after.quotes = db.quotes)
    (rules : after.rules = db.rules) (product : after.product = db.product) :
    Priced clock after := by
  obtain ⟨ruled, versions, daily, ends⟩ := priced
  constructor <;> simp only [quotes, rules, product] <;> assumption

theorem Deed.priced {clock : Time} (deed : Deed now db after) (passed : now ≤ clock)
    (priced : Priced clock db) : Priced clock after := by
  cases deed with
  | settled settles =>
    rw [settles.frame]
    exact priced.same rfl rfl rfl
  | quoted => exact priced.quoted passed
  | placed _ _ _ _ placed => cases placed <;> exact priced.same rfl rfl rfl
  | based _ _ _ recorded =>
    unfold recordBasis at recorded
    simp only [bind_eq_ok, pure_eq_ok] at recorded
    obtain ⟨_, _, rfl⟩ := recorded
    rw [limitApproval_frame]
    exact priced.same rfl rfl rfl

omit [Platform] in
/-- The goods are at their next version, and a rule may have been stated at that version. -/
theorem Priced.edited {clock : Time} (priced : Priced clock db)
    (quotes : after.quotes = db.quotes) (product : after.product = db.product.next)
    (rules : ∀ rule ∈ after.rules,
      rule ∈ db.rules ∨ rule.version = db.product.productVersion + 1) :
    Priced clock after := by
  have version : after.product.productVersion = db.product.productVersion + 1 := by
    rw [product]
    rfl
  refine ⟨fun rule member => ?_, fun quote member reached named => ?_, fun quote member => ?_,
    fun quote member rule ruled id stated => ?_⟩
  · rw [version]
    rcases rules rule member with old | new
    · exact (priced.rules rule old).trans (Nat.le_succ _)
    · exact new.le
  · rw [quotes] at member
    rw [version]
    exact (priced.versions quote member reached named).trans (Nat.le_succ _)
  · rw [quotes] at member
    exact priced.daily quote member
  · rw [quotes] at member
    rcases rules rule ruled with old | new
    · exact priced.ruled quote member rule old id stated
    · have reached := priced.versions quote member rule.version stated
      rw [new] at reached
      exact absurd reached (Nat.not_succ_le_self _)

theorem edit_priced {clock : Time} {transaction : Transaction} (priced : Priced clock db)
    (edit : transaction.IsEdit) (done : db.perform transaction = .ok after) :
    Priced clock after := by
  cases transaction <;> first
    | exact edit.elim
    | simp only [Db.perform] at done
  case updateOwnedProduct =>
    unfold updateOwnedProduct at done
    simp only [bind_eq_ok, pure_eq_ok] at done
    obtain ⟨_, _, rfl⟩ := done
    exact ⟨priced.rules, priced.versions, priced.daily, priced.ruled⟩
  case updateOwnedPolicy =>
    unfold updateOwnedPolicy at done
    simp only [bind_eq_ok, pure_eq_ok] at done
    obtain ⟨_, _, _, _, _, _, rfl⟩ := done
    exact priced.same rfl rfl rfl
  case setFact =>
    unfold setFact at done
    simp only [bind_eq_ok, pure_eq_ok] at done
    obtain ⟨_, _, _, _, rfl⟩ := done
    exact priced.edited rfl rfl fun _ => .inl
  case setRule =>
    unfold setRule at done
    simp only [bind_eq_ok] at done
    obtain ⟨_, _, _, _, rest⟩ := done
    split at rest <;> simp only [bind_eq_ok, pure_eq_ok] at rest
    · obtain ⟨rule, _, rfl⟩ := rest
      refine priced.edited rfl rfl fun other member => ?_
      rcases Table.mem_of_mem_put member with old | rfl
      · exact .inl old
      · exact .inr rfl
    · obtain ⟨rules, inserted, rfl⟩ := rest
      refine priced.edited rfl rfl fun other member => ?_
      rcases (Table.mem_insert inserted other).mp member with rfl | old
      · exact .inr rfl
      · exact .inl old

theorem perform_priced {clock later : Time} {transaction : Transaction} (shape : Shape db.deal)
    (priced : Priced clock db) (done : db.perform transaction = .ok after)
    (within : Within clock transaction.readings later) : Priced later after := by
  have waited := priced.waits within.le
  by_cases edit : transaction.IsEdit
  · exact edit_priced waited edit done
  by_cases acts : transaction.Acts
  · by_cases business : transaction.IsBusiness
    · have settles := business_settles shape business done
      exact (Deed.settled settles : Deed later db after).priced (Nat.le_refl _) waited
    · cases transaction with
      | execute runId owner expectedVersion now fault =>
        obtain ⟨result, performed, rfl⟩ := (map_eq_ok _ _ _).mp done
        exact (execute_deeds (.of_shape shape) performed).keeps (Priced later)
          (fun _ _ deed => deed.priced within.one.2) waited
      | _ => exact absurd acts business
  · have effect := perform_effect done
    have goods := effect.goods edit
    exact waited.same (congrArg Affairs.quotes (effect.affairs acts)) (congrArg Goods.rules goods)
      (congrArg Goods.product goods)

/-- The quotations of every reachable state are in order. -/
theorem reachable_priced {world : World} (reached : Reachable World.Step World.Initial world) :
    Priced world.clock world.db := by
  refine (timed_invariant (fun clock db => Shape db.deal ∧ Priced clock db)
    (fun world initial => ?_)
    (fun clock later db passed held => ⟨held.1, held.2.waits passed⟩)
    (fun clock later db transaction after held done within => ?_) reached).2
  · refine ⟨initial_shape initial, ?_⟩
    obtain ⟨⟨_, _, _, _, _, _, _, db⟩, _, _, rules⟩ := initial
    have none : world.db.quotes = .empty := by rw [db]
    refine ⟨rules, ?_, ?_, ?_⟩ <;>
    · intro quote member
      rw [none] at member
      exact absurd member (Table.not_mem_empty _)
  · obtain ⟨shape, priced⟩ := held
    exact ⟨(perform_op shape done).shape shape,
      perform_priced shape priced done within⟩

end

end Negotiation
