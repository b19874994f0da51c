/-
This file proves that a command commits what it was authorized for. The offer
that is committed has the terms and the conditions of the basis that was
recorded before, whether it is new, repeated, countered or confirmed, so that
the receipt and the events of a command agree in everything the checker asks.
While the keys of its events are free, the audit does not stand in the way of a
command.
-/

import SecondhandAgent.Audit
import SecondhandAgent.Backing
import SecondhandAgent.Refusals

namespace Negotiation

open Store CausalAudit

section

variable [Platform] {db quoted finished after : Db} {now : Time} {fault : Option FaultPoint}

/-! ### Hashes of terms -/

/-- The offer that is made of some terms has the hash of the terms. -/
theorem newOffer_termsHash {id : Nat} {proposer : OfferProposer} {terms : Terms} {expiresAt : Time}
    {offer : Offer} (made : newOffer id proposer terms expiresAt = .ok offer) :
    termsHash offer = commandTermsHash terms := by
  obtain ⟨discount, known, rfl⟩ := newOffer_eq_ok.mp made
  obtain ⟨amount, given, rfl⟩ := Option.map_eq_some_iff.mp known
  unfold termsHash commandTermsHash
  rw [given]
  cases cost : terms.shippingCost <;> rfl

/-- The hash that the checker compares with that of the committed offer. -/
def expectedHash (terms : Terms) (counterTerms : Option Terms) (outcome : Outcome) :
    Option Digest :=
  if outcome = .counterOffered then counterTerms.map commandTermsHash
  else some (commandTermsHash terms)

theorem Placed.termsHash {offer : Offer} {terms : Terms} {authorization : OfferAuthorization}
    {counterTerms : Option Terms} {result : Result} {id : Nat} {expiresAt : Time}
    (made : newOffer id .buyer terms expiresAt = .ok offer) (free : db.offers.get offer.id = none)
    (placed : Placed db offer authorization counterTerms now after result) :
    ∃ shown ∈ after.offers, result.offerId = some shown.id ∧
      some (termsHash shown) = expectedHash terms counterTerms result.outcome := by
  have hash := newOffer_termsHash made
  cases placed with
  | accepted => exact ⟨_, Table.mem_insertIgnore_self free, rfl, congrArg some hash⟩
  | asked => exact ⟨_, Table.mem_insertIgnore_self free, rfl, congrArg some hash⟩
  | refused => exact ⟨_, Table.mem_insertIgnore_self free, rfl, congrArg some hash⟩
  | countered _ _ answers made' free' =>
    refine ⟨_, Table.mem_insertIgnore_self free', rfl, ?_⟩
    rw [answers, newOffer_termsHash made']
    rfl

theorem Resolved.termsHash {payload : TypedInput} {terms : Terms} {candidate : Option Candidate}
    {result : Result} (resolved : Resolved db payload terms candidate now after result) :
    ∃ shown ∈ after.offers, result.offerId = some shown.id ∧
      some (termsHash shown) = expectedHash terms payload.counterTerms result.outcome := by
  cases resolved with
  | @repeated current found same unchanged answer =>
    obtain ⟨_, _, got⟩ := Option.bind_eq_some_iff.mp found
    obtain ⟨_, _, _, agrees, _⟩ := same
    obtain ⟨proposal, made, hash⟩ := (succeeds_iff _ _).mp agrees
    rw [unchanged, answer]
    refine ⟨current, Table.mem_of_get got, rfl, ?_⟩
    have other : (repeatedResult db current).outcome ≠ .counterOffered := by
      unfold repeatedResult
      dsimp only
      split <;> exact Outcome.noConfusion
    unfold expectedHash
    rw [if_neg other, hash, newOffer_termsHash made]
  | placed _ _ _ _ _ offered free _ placed => exact placed.termsHash offered free

/-! ### Hashes of conditions -/

omit [Platform] in
/-- A session without chat inputs records no basis. -/
theorem Rooted.unbased (rooted : Rooted db) (plain : db.session.graphVersion.isSemantic = false)
    (offerId : Nat) : db.bases.get offerId = none := by
  cases found : db.bases.get offerId with
  | none => rfl
  | some basis =>
    have semantic := rooted.bases basis (Table.mem_of_get found)
    rw [plain] at semantic
    cases semantic

theorem Resolved.bases {payload : TypedInput} {terms : Terms} {candidate : Option Candidate}
    {result : Result} (resolved : Resolved db payload terms candidate now after result) :
    after.bases = db.bases := by
  cases resolved with
  | repeated _ _ unchanged => rw [unchanged]
  | placed _ _ _ _ clears _ _ _ placed =>
    rw [placed.grounds.1, (clearCurrent_settles clears).frame]

theorem offerConditionsHash_unbased (unbased : ∀ key, db.bases.get key = none)
    (offerId : Option Nat) : offerConditionsHash db offerId = conditionsHash [] [] := by
  have none_ : offerId.bind db.bases.get = none := by
    cases offerId with
    | none => rfl
    | some key => exact unbased key
  unfold offerConditionsHash
  rw [none_]

/-- An offer that was quoted was made under the conditions of its draft. -/
theorem Resolved.conditions {payload : TypedInput} {terms : Terms} {quotation : Quotation}
    {resolved : Db} {result : Result}
    (offered : ∀ basis ∈ db.bases, ∃ offer ∈ db.offers, offer.id = basis.offerId)
    (placed : Resolved db payload terms (some quotation.draft.candidate) now resolved result)
    (recorded : recordBasis resolved (some quotation) result = .ok finished) :
    offerConditionsHash finished result.offerId =
      conditionsHash quotation.draft.candidate.conditions
        quotation.draft.candidate.commitments := by
  have bases := placed.bases
  suffices kept : ∃ named basis, result.offerId = some named ∧
      finished.bases.get named = some basis ∧ basis.candidate = quotation.draft.candidate by
    obtain ⟨named, basis, stated, found, same⟩ := kept
    unfold offerConditionsHash
    rw [stated, Option.bind_some, found, ← same]
  cases placed with
  | @repeated current found same unchanged answer =>
    obtain ⟨_, _, _, _, _, known, _⟩ := same
    obtain ⟨basis, there, candidate⟩ := (found_iff _ _).mp known
    subst unchanged answer
    obtain ⟨_, based⟩ := recordBasis_bases recorded rfl
    have taken : resolved.bases.get current.id ≠ none := by
      rw [there]
      exact Option.some_ne_none basis
    refine ⟨current.id, basis, rfl, ?_, candidate⟩
    rw [based, Table.insertIgnore_of_taken taken]
    exact there
  | placed _ _ _ _ clears _ free _ placed =>
    obtain ⟨named, stated, new⟩ := placed.names free
    obtain ⟨_, based⟩ := recordBasis_bases recorded stated
    have unused : resolved.bases.get named = none := by
      rw [bases]
      refine Table.get_eq_none.mpr fun basis member same => ?_
      obtain ⟨old, listed, key⟩ := offered basis member
      obtain ⟨other, there, core⟩ := (clearCurrent_settles clears).offer_after listed
      exact new other there ((core_id core).trans (key.trans same))
    rw [based]
    exact ⟨named, _, stated, Table.get_eq_some.mpr ⟨Table.mem_insertIgnore_self unused, rfl⟩, rfl⟩

/-! ### What is authorized is what is committed -/

section

variable {run : NegotiationInput} {payload : TypedInput} {terms : Terms}

theorem inputBasis_terms {quotation : Option Quotation}
    (stated : (quotation.map (·.terms)).or payload.terms = some terms) :
    (inputBasis db run payload quotation).termsHash = commandTermsHash terms := by
  unfold inputBasis
  dsimp only
  rw [stated]

theorem inputBasis_unbased (unbased : ∀ key, db.bases.get key = none) :
    (inputBasis db run payload none).conditionsHash = conditionsHash [] [] := by
  have none_ : ((payload.offerId.bind db.offers.get).bind fun offer => db.bases.get offer.id) =
      none := by
    cases payload.offerId.bind db.offers.get with
    | none => rfl
    | some offer => exact unbased offer.id
  unfold inputBasis
  dsimp only
  rw [none_]
  rfl

/-- Without terms and a quotation the basis is that of the offer it names. -/
theorem inputBasis_offer {offer : Offer} (named : payload.offerId.bind db.offers.get = some offer)
    (bare : payload.terms = none) :
    (inputBasis db run payload none).termsHash = termsHash offer ∧
      (inputBasis db run payload none).conditionsHash = offerConditionsHash db (some offer.id) ∧
      (inputBasis db run payload none).objectOfferId = some offer.id := by
  unfold inputBasis offerConditionsHash
  dsimp only [Option.map_none, Option.none_or]
  rw [named, bare]
  refine ⟨rfl, ?_, rfl⟩
  rw [Option.bind_some, Option.bind_some]
  cases db.bases.get offer.id <;> rfl

/-- What a command has come to is what it was authorized for. -/
structure Authorizes (db : Db) (run : NegotiationInput) (payload : TypedInput)
    (quotation : Option Quotation) (finished : Db) (outcome : Result) : Prop where
  hash : ∃ shown ∈ finished.offers, outcome.offerId = some shown.id ∧
    some (termsHash shown) =
      if outcome.outcome = .counterOffered then
        (inputBasis db run payload quotation).counterTermsHash
      else some (inputBasis db run payload quotation).termsHash
  conditions : offerConditionsHash finished outcome.offerId =
    (inputBasis db run payload quotation).conditionsHash

theorem placeOffer_authorizes {quotation : Option Quotation} {outcome : Result}
    (offered : ∀ basis ∈ quoted.bases, ∃ offer ∈ quoted.offers, offer.id = basis.offerId)
    (plain : quotation = none → ∀ key, quoted.bases.get key = none)
    (done : placeOffer quoted payload quotation now fault = .ok (finished, outcome)) :
    Authorizes quoted run payload quotation finished outcome := by
  unfold placeOffer at done
  simp only [bind_eq_ok, expect_eq_ok, pure_eq_ok] at done
  obtain ⟨terms, stated, ⟨resolved, result⟩, settled, recorded, basis, same⟩ := done
  obtain ⟨rfl, rfl⟩ := Prod.mk.inj same
  have resolution := resolveOfferInTransaction_resolved settled
  obtain ⟨shown, listed, named, hash⟩ := resolution.termsHash
  refine ⟨⟨shown, ?_, named, ?_⟩, ?_⟩
  · rw [(recordBasis_offers basis).1]
    exact listed
  · rw [inputBasis_terms stated]
    exact hash
  · cases quotation with
    | none =>
      obtain rfl := (pure_eq_ok _ _).mp basis
      have unbased : ∀ key, resolved.bases.get key = none := by
        rw [resolution.bases]
        exact plain rfl
      rw [offerConditionsHash_unbased unbased, inputBasis_unbased (plain rfl)]
    | some quotation => exact resolution.conditions offered basis

theorem confirmInTransaction_authorizes {outcome : Result} (confirms : payload.kind = .confirm)
    (done : confirmInTransaction db payload run now fault = .ok (finished, outcome)) :
    Authorizes db run payload none finished outcome ∧
      (inputBasis db run payload none).objectOfferId = outcome.offerId := by
  unfold confirmInTransaction at done
  simp only [bind_eq_ok, expect_eq_ok, pure_eq_ok] at done
  obtain ⟨offer, named, _, _, _, _, _, _, _, _, same⟩ := done
  obtain ⟨rfl, rfl⟩ := Prod.mk.inj same
  have bare : payload.terms = none := by
    by_contra carries
    have offers := payload.checked.1.mpr carries
    rw [confirms] at offers
    exact absurd offers (by decide)
  have basis : (inputBasis db run payload none).termsHash = termsHash offer ∧
      (inputBasis db run payload none).conditionsHash = offerConditionsHash db (some offer.id) ∧
      (inputBasis db run payload none).objectOfferId = some offer.id := inputBasis_offer named bare
  obtain ⟨hash, conditions, object⟩ := basis
  obtain ⟨_, _, found⟩ := Option.bind_eq_some_iff.mp named
  refine ⟨⟨⟨{ offer with status := .accepted },
    Table.mem_put_self (Table.mem_of_get found) rfl, rfl, ?_⟩, conditions.symm⟩, object⟩
  rw [hash]
  rfl

end

/-! ### What the checker asks of a command -/

/-- What the checker asks of the receipt and the evidence of a command. -/
structure Agrees (basis : CausalBasis) (commit : CausalCommit) (run : NegotiationInput)
    (receipt : BusinessActionReceipt) (result : Result) : Prop where
  id : receipt.id = .turnAction run.id
  named : receipt.inputId = some run.id
  answer : receipt.result = .business result
  action : basis.logicalActionId = .turnAction run.id
  input : basis.inputId = run.id
  number : basis.inputSeq = run.inputSeq
  versionBefore : basis.beforeVersion = receipt.beforeVersion
  versionAfter : commit.afterVersion = receipt.afterVersion
  onward : basis.beforeVersion ≤ commit.afterVersion
  hash : commit.resultHash = digest (resultJson result)
  offer : commit.offerId = result.offerId
  authorized : basis.command ∈ [.submit, .replace, .confirm] →
    commit.Authorized basis result.outcome
  confirms : basis.command = .confirm →
    basis.displayEvidenceHash ≠ none ∧ basis.objectOfferId = commit.offerId

section

variable {run : NegotiationInput} {payload : TypedInput} {quotation : Option Quotation}
variable {outcome : Result} {expectedVersion : Nat}

theorem Authorizes.authorized
    (authorizes : Authorizes quoted run payload quotation finished outcome) (result : Result)
    (same : result.offerId = outcome.offerId) (kind : result.outcome = outcome.outcome) :
    (committed finished result).Authorized (inputBasis quoted run payload quotation)
      result.outcome := by
  obtain ⟨shown, listed, named, hash⟩ := authorizes.hash
  unfold committed
  refine ⟨?_, ?_⟩
  · dsimp only
    rw [same, named, Option.bind_some, Table.get_of_mem listed, kind]
    exact hash
  · dsimp only
    rw [same]
    exact authorizes.conditions

theorem Carries.unmoved (carries : Carries db run expectedVersion now fault payload quoted quotation
    finished outcome after) :
    quoted.session = db.session ∧ quoted.offers = db.offers ∧ quoted.bases = db.bases := by
  rcases quoteDraft_quotes carries.priced with ⟨same, _⟩ | ⟨_, _, _, quotes⟩
  · obtain ⟨rfl, _⟩ := Prod.mk.inj same
    exact ⟨rfl, rfl, rfl⟩
  · rw [show quoted = _ from quotes.frame]
    exact ⟨rfl, rfl, rfl⟩

theorem lifecycleInTransaction_names {id : Nat}
    (done : lifecycleInTransaction db payload now fault = .ok (finished, outcome))
    (named : outcome.offerId = some id) : ∃ offer ∈ db.offers, offer.id = id := by
  unfold lifecycleInTransaction at done
  simp only [bind_eq_ok, pure_eq_ok] at done
  obtain ⟨_, _, _, _, _, _, same⟩ := done
  obtain ⟨_, rfl⟩ := Prod.mk.inj same
  obtain ⟨offer, current, key⟩ := Option.map_eq_some_iff.mp named
  obtain ⟨_, _, found⟩ := Option.bind_eq_some_iff.mp current
  exact ⟨offer, Table.mem_of_get found, key⟩

/-- What a command of each kind comes to. -/
theorem Carries.authorizes (rooted : Rooted db) (grounded : Grounded db)
    (carries : Carries db run expectedVersion now fault payload quoted quotation finished outcome
      after) :
    (payload.kind ∈ [.submit, .replace, .confirm] →
      Authorizes quoted run payload quotation finished outcome) ∧
    (payload.kind = .confirm →
      (inputBasis quoted run payload quotation).objectOfferId = outcome.offerId) ∧
    ∀ id, outcome.offerId = some id → ∃ offer ∈ finished.offers, offer.id = id := by
  obtain ⟨session, offers, bases⟩ := carries.unmoved
  have offered : ∀ basis ∈ quoted.bases, ∃ offer ∈ quoted.offers, offer.id = basis.offerId := by
    rw [bases, offers]
    exact grounded.offered
  have names (authorizes : Authorizes quoted run payload quotation finished outcome) :
      ∀ id, outcome.offerId = some id → ∃ offer ∈ finished.offers, offer.id = id := by
    intro id named
    obtain ⟨shown, listed, stated, _⟩ := authorizes.hash
    exact ⟨shown, listed, Option.some.inj (stated.symm.trans named)⟩
  have carried := carries.carried
  have unquoted (other : ¬ payload.kind.IsOffer) : quotation = none := by
    rcases quoteDraft_quotes carries.priced with ⟨same, _⟩ | ⟨_, _, offer, _⟩
    · exact (Prod.mk.inj same).2
    · exact absurd offer other
  have plain (offer : payload.kind.IsOffer) :
      quotation = none → ∀ key, quoted.bases.get key = none := by
    rintro rfl
    rcases quoteDraft_quotes carries.priced with ⟨_, typed⟩ | ⟨_, named, _⟩
    · have chat : run.payload.isChat = false := by
        by_contra chat
        exact typed ⟨Bool.eq_true_of_not_eq_false chat, offer⟩
      rw [bases]
      refine rooted.unbased ?_
      rw [← rooted.chats run (Table.mem_of_get carries.found), chat]
    · cases named
  unfold carryOut at carried
  split at carried
  case h_1 kind | h_2 kind =>
    have offer : payload.kind.IsOffer := by
      rw [kind]
      decide
    have authorizes : Authorizes quoted run payload quotation finished outcome :=
      placeOffer_authorizes offered (plain offer) carried
    refine ⟨fun _ => authorizes, fun confirms => ?_, names authorizes⟩
    rw [kind] at confirms
    cases confirms
  case h_3 confirms =>
    obtain rfl := unquoted (by rw [confirms]; decide)
    obtain ⟨authorizes, object⟩ := confirmInTransaction_authorizes confirms carried
    exact ⟨fun _ => authorizes, fun _ => object, names authorizes⟩
  case h_4 kind | h_5 kind =>
    rw [kind]
    refine ⟨fun among => absurd among (by decide), fun confirms => absurd confirms (by decide),
      fun id named => ?_⟩
    obtain ⟨offer, listed, key⟩ := lifecycleInTransaction_names carried named
    obtain ⟨new, there, core⟩ := (lifecycleInTransaction_settles carried).offer_after listed
    exact ⟨new, there, (core_id core).trans key⟩
  case h_6 => cases carried

/-- The receipt of a command agrees with its evidence. -/
theorem Carries.agrees (rooted : Rooted db) (grounded : Grounded db)
    (carries : Carries db run expectedVersion now fault payload quoted quotation finished outcome
      after)
    (onward : db.session.version ≤ finished.session.version) {result : Result}
    (same : result = { outcome with businessVersion := some finished.session.version }) :
    Agrees (inputBasis quoted run payload quotation) (committed finished result) run
      (commandReceipt run expectedVersion finished.session.version result now) result := by
  obtain ⟨authorized, confirms, _⟩ := carries.authorizes rooted grounded
  obtain ⟨session, _, _⟩ := carries.unmoved
  have version : (inputBasis quoted run payload quotation).beforeVersion = db.session.version :=
    congrArg NegotiationSession.version session
  subst same
  exact
    { id := rfl
      named := rfl
      answer := rfl
      action := rfl
      input := rfl
      number := rfl
      versionBefore := version.trans carries.expected
      versionAfter := rfl
      onward := version.le.trans onward
      hash := rfl
      offer := rfl
      authorized := fun among => (authorized among).authorized _ rfl rfl
      confirms := fun kind => by
        have shown : (inputBasis quoted run payload quotation).displayEvidenceHash ≠ none := by
          unfold inputBasis
          dsimp only
          rw [if_pos (show payload.kind = .confirm from kind)]
          exact Option.some_ne_none _
        exact ⟨shown, confirms kind⟩ }

end

end

/-! ### The audit of a command -/

section

variable [Platform] {db after : Db} {trail later : Trail} {now : Time} {runId : Nat}

/-- The events of a command are free. -/
def Trail.Free (trail : Trail) (runId : Nat) : Prop :=
  ∀ sequence, trail.get (.turnAction runId, sequence) = none

/-- The table with the three events of a command. -/
def Trail.commanded (trail : Trail) (runId : Nat) (basis : CausalBasis) (commit : CausalCommit) :
    Trail :=
  let actionId := ReceiptId.turnAction runId
  ((trail.insertIgnore (causalEvent actionId 1 { basis })).insertIgnore
    (causalEvent actionId 2 { basis })).insertIgnore
      (causalEvent actionId 3 { basis, commit := some commit })

omit [Platform] in
theorem append_free {actionId : ReceiptId} {sequence : Nat} {evidence : CausalEvidence}
    (free : trail.get (actionId, sequence) = none) :
    append trail actionId sequence evidence =
      .ok (trail.insertIgnore (causalEvent actionId sequence evidence)) := by
  have unused : trail.get (causalEvent actionId sequence evidence).id = none := free
  exact Table.insert_of_free unused Failure.unique

omit [Platform] in
theorem append_bind {Value : Type} {actionId : ReceiptId} {sequence : Nat}
    {evidence : CausalEvidence} {next : Trail → Except Failure Value}
    (free : trail.get (actionId, sequence) = none) :
    (append trail actionId sequence evidence >>= next) =
      next (trail.insertIgnore (causalEvent actionId sequence evidence)) := by
  rw [append_free free]
  rfl

omit [Platform] in
/-- Another event leaves the key free. -/
theorem Trail.free_insert {actionId : ReceiptId} {one two : Nat} {evidence : CausalEvidence}
    (free : trail.get (actionId, two) = none) (apart : two ≠ one) :
    Table.get (trail.insertIgnore (causalEvent actionId one evidence)) (actionId, two) = none := by
  rw [Table.get_insertIgnore, free]
  refine if_neg fun same => apart ?_
  exact (Prod.mk.inj same.1).2

/-- The command with its audit does what the command does. -/
theorem executeAudited_fst {owner : Owner} {expectedVersion : Nat} {fault : Option FaultPoint}
    (free : db.receipts.get (.turnAction runId) = none → trail.Free runId) :
    (executeAudited db trail runId owner expectedVersion now fault).map (·.1) =
      (execute db runId owner expectedVersion now fault).map (·.1) := by
  unfold executeAudited execute executeNew
  refine map_bind_congr fun owned _ => ?_
  dsimp only
  cases recorded : db.receipts.get (.turnAction runId) with
  | some receipt => exact map_bind_congr fun _ _ => rfl
  | none =>
    have free := free recorded
    simp only [bind_assoc]
    refine map_bind_congr fun _ _ => map_bind_congr fun payload _ =>
      map_bind_congr fun quoted _ => map_bind_congr fun _ _ => ?_
    rw [append_bind (free 1)]
    refine map_bind_congr fun done _ => ?_
    rw [append_bind (Trail.free_insert (free 2) (by decide))]
    refine map_bind_congr fun stored _ => ?_
    rw [append_bind (Trail.free_insert (Trail.free_insert (free 3) (by decide)) (by decide))]
    rfl

end

end Negotiation
