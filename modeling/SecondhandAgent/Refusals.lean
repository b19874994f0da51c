/-
This file settles what a refused proposal leaves the buyer with. The refusal
keeps the current offer, its approval and the status of the session, as the
service asks of it. But it counts as a round and raises the version, and a card
is displayed, refreshed and confirmed only at the version it was made for: a
buyer who held a card of the offer holds it in vain from then on.
-/

import SecondhandAgent.Cards
import SecondhandAgent.Reuse

namespace Negotiation

open Store Deal

section

variable [Platform] {db quoted finished after : Db} {now : Time} {fault : Option FaultPoint}

/-! ### What a refusal leaves alone -/

omit [Platform] in
/-- The current offer and the status of the session, the offers and the approvals stay. -/
structure Spares (before after : Db) : Prop where
  current : after.session.currentOfferId = before.session.currentOfferId
  status : after.session.status = before.session.status
  offers : ∀ offer ∈ before.offers, offer ∈ after.offers
  approvals : after.approvals = before.approvals

omit [Platform] in
/-- What the seller neither accepts nor is asked about is prohibited. -/
theorem prohibited_of_final {terms : Terms} {policy : SellerPolicy}
    {authorization : OfferAuthorization}
    (granted : authorized terms policy = .ok authorization)
    (manual : authorization.canAcceptAutomatically = false)
    (final : authorization.canRequestApproval = false) :
    authorization.isAcceptanceProhibited = true := by
  unfold authorized authorizeOffer at granted
  simp only [bind_eq_ok] at granted
  obtain ⟨income, _, rest⟩ := granted
  split at rest
  · obtain rfl := (pure_eq_ok _ _).mp rest
    cases zone : priceZone income policy with
    | autoAccept => simp [zone] at manual
    | approvalRequired => simp [zone] at final
    | prohibited => simp
  · obtain rfl := (pure_eq_ok _ _).mp rest
    rfl

/-- A proposal that is refused without a counter-offer leaves everything but the version and the
round count of the session. -/
theorem Resolved.spares {payload : TypedInput} {terms : Terms} {candidate : Option Candidate}
    {result : Result} (resolved : Resolved db payload terms candidate now after result)
    (rejected : result.outcome = .offerRejected) :
    Spares db after ∧ after.session.version = db.session.version + 1 ∧
      result.approvalId = none := by
  cases resolved with
  | @repeated current _ _ _ answer =>
    subst answer
    unfold repeatedResult at rejected
    dsimp only at rejected
    split at rejected <;> cases rejected
  | @placed authorization cleared offer _ granted _ _ clears _ free _ placed =>
    cases placed with
    | accepted | asked | countered => cases rejected
    | refused manual final silent =>
      rw [prohibited_of_final granted manual final, silent] at clears
      obtain rfl : cleared = db := (Except.ok.inj clears).symm
      exact ⟨⟨rfl, rfl, fun _ member => Table.mem_insertIgnore_of_mem member, rfl⟩, rfl, rfl⟩

theorem carryOut_spares {run : NegotiationInput} {payload : TypedInput}
    {quotation : Option Quotation} {outcome : Result}
    (done : carryOut db run payload quotation now fault = .ok (finished, outcome))
    (rejected : outcome.outcome = .offerRejected) :
    Spares db finished ∧ finished.session.version = db.session.version + 1 := by
  by_cases offers : payload.kind.IsOffer
  · rw [carryOut_offer offers] at done
    unfold placeOffer at done
    simp only [bind_eq_ok, pure_eq_ok] at done
    obtain ⟨terms, _, ⟨resolved, result⟩, proposed, recorded, basis, last⟩ := done
    obtain ⟨rfl, rfl⟩ := Prod.mk.inj last
    obtain ⟨spares, version, unasked⟩ :=
      (resolveOfferInTransaction_resolved proposed).spares rejected
    unfold recordBasis at basis
    split at basis
    · obtain rfl := (pure_eq_ok _ _).mp basis
      exact ⟨spares, version⟩
    · simp only [bind_eq_ok, pure_eq_ok] at basis
      obtain ⟨offerId, _, rfl⟩ := basis
      rw [unasked]
      exact ⟨⟨spares.current, spares.status, spares.offers, spares.approvals⟩, version⟩
  · unfold carryOut at done
    split at done
    · next kind => exact absurd (.inl kind) offers
    · next kind => exact absurd (.inr kind) offers
    · unfold confirmInTransaction at done
      simp only [bind_eq_ok, pure_eq_ok, Prod.mk.injEq] at done
      obtain ⟨_, _, _, _, _, _, _, _, _, _, _, rfl⟩ := done
      cases rejected
    · unfold lifecycleInTransaction at done
      simp only [bind_eq_ok, pure_eq_ok, Prod.mk.injEq] at done
      obtain ⟨_, _, _, _, _, _, _, rfl⟩ := done
      dsimp only at rejected
      split at rejected <;> cases rejected
    · unfold lifecycleInTransaction at done
      simp only [bind_eq_ok, pure_eq_ok, Prod.mk.injEq] at done
      obtain ⟨_, _, _, _, _, _, _, rfl⟩ := done
      dsimp only at rejected
      split at rejected <;> cases rejected
    · cases done

/-- A command that refuses a proposal leaves everything but its own records, the version and the
round count. -/
theorem Carries.spares {run : NegotiationInput} {expectedVersion : Nat} {payload : TypedInput}
    {quotation : Option Quotation} {outcome : Result}
    (carries : Carries db run expectedVersion now fault payload quoted quotation finished outcome
      after)
    (rejected : outcome.outcome = .offerRejected) :
    Spares db after ∧ after.session.version = db.session.version + 1 := by
  obtain ⟨spares, version⟩ := carryOut_spares carries.carried rejected
  have frame := (quoteDraft_quoted carries.priced).frame
  rw [carries.frame]
  rw [frame] at spares version
  exact ⟨⟨spares.current, spares.status, spares.offers, spares.approvals⟩, version⟩

/-! ### Contexts and versions -/

/-- No context shows a version that is not there yet. -/
def Dated (db : Db) : Prop := ∀ context ∈ db.contexts, context.businessVersion ≤ db.session.version

/-- A new context shows the present version. -/
theorem Publishing.dated {context : PublicInteractionContext} (publishing : Publishing db now after)
    (made : context ∈ after.contexts) :
    context ∈ db.contexts ∨ context.businessVersion = db.session.version := by
  cases publishing with
  | idle same =>
    rw [same] at made
    exact .inl made
  | worked _ frame _ _ _ _ | assessed frame =>
    rw [frame] at made
    exact .inl made
  | posted _ _ _ shows frame =>
    rw [frame] at made
    cases shows with
    | kept => exact .inl made
    | added =>
      rcases Table.mem_insertIgnore made with rfl | old
      · exact .inr rfl
      · exact .inl old
  | refreshed found stands _ frame =>
    rw [frame] at made
    rcases Table.mem_insertIgnore made with rfl | old
    · unfold checkObject at stands
      simp only [bind_eq_ok, require_eq_ok] at stands
      exact .inr stands.choose_spec.1
    · exact .inl old
  | drafted _ _ _ frame =>
    rw [frame] at made
    rcases Table.mem_insertIgnore made with rfl | old
    · exact .inr rfl
    · exact .inl old

end

section

variable [Platform] {first before after last : World} {event : Event}
variable {history : List (Transition World Event)}

theorem World.Step.version_le (reached : Reachable World.Step World.Initial before)
    (step : World.Step before event after) :
    before.db.session.version ≤ after.db.session.version := by
  obtain ⟨_, committed⟩ := step.committed reached
  rcases committed.commit.moves with same | next
  · exact same.ge
  · exact next ▸ Nat.le_succ _

theorem run_version_le (reached : Reachable World.Step World.Initial first)
    (run : Run World.Step first history last) :
    first.db.session.version ≤ last.db.session.version :=
  run.relates (fun before after => before.db.session.version ≤ after.db.session.version)
    (fun _ => le_rfl) le_trans (fun _ _ _ reached step => step.version_le reached) reached

theorem reachable_dated (reached : Reachable World.Step World.Initial last) : Dated last.db := by
  obtain ⟨first, history, initial, run⟩ := reached
  induction run with
  | start =>
    obtain ⟨⟨_, _, _, _, _, _, _, db⟩, _⟩ := initial
    rw [db]
    exact fun context member => absurd member (Table.not_mem_empty context)
  | @next middle last history event earlier taken inductionHypothesis =>
    have grown := taken.version_le ⟨_, _, initial, earlier⟩
    intro context member
    rcases taken.publishing with ⟨same, _, _⟩ | ⟨now, _, _, publishing⟩
    · exact (inductionHypothesis context (same ▸ member)).trans grown
    · rcases publishing.dated member with old | new
      · exact (inductionHypothesis context old).trans grown
      · exact new.le.trans grown

/-! ### Going on with a context -/

/-- The buyer asks for a context to be refreshed and is answered with another one. -/
def Renews (original context : PublicInteractionContext)
    (transition : Transition World Event) : Prop :=
  original ∈ transition.before.db.contexts ∧ ∃ buyerId requestId now,
    transition.event = .call (.refreshContext buyerId original.id requestId now) ∧
    refreshContext transition.before.db buyerId original.id requestId now =
      .ok (transition.after.db, context.id)

/-- What the refreshes of a run made of a context: it stays as it was, or is renewed over and
over. -/
inductive Renewed (history : List (Transition World Event)) (original : PublicInteractionContext) :
    PublicInteractionContext → Prop
  | same : Renewed history original original
  | again {middle context : PublicInteractionContext} {transition : Transition World Event}
      (earlier : Renewed history original middle) (member : transition ∈ history)
      (renews : Renews middle context transition) : Renewed history original context

omit [Platform] in
/-- The buyer closes the deal on a display of the context. -/
def ConfirmsBy (context : PublicInteractionContext) (transition : Transition World Event) : Prop :=
  transition.before.db.session.status ≠ .agreed ∧
    transition.after.db.session.status = .agreed ∧
    ∃ input ∈ transition.before.db.inputs, transition.event.Executes input.id ∧
      ∃ ack ∈ transition.before.db.acks,
        input.payload.displayReceiptId = some ack.id ∧ ack.contextId = context.id

/-- Some run from here closes the deal on the context, or on what refreshes made of it. -/
def StillConfirms (world : World) (context : PublicInteractionContext) : Prop :=
  ∃ history last, Run World.Step world history last ∧ ∃ renewed, Renewed history context renewed ∧
    ∃ transition ∈ history, ConfirmsBy renewed transition

/-- A confirmation is made at the version its context shows. -/
theorem ConfirmsBy.version {context : PublicInteractionContext}
    (reached : Reachable World.Step World.Initial before) (step : World.Step before event after)
    (listed : context ∈ before.db.contexts) (confirms : ConfirmsBy context ⟨before, event, after⟩) :
    context.businessVersion = before.db.session.version := by
  obtain ⟨was, agreed, input, member, executes, ack, known, named, shown⟩ := confirms
  rcases step.performs with same | ⟨transaction, performs⟩
  · exact absurd ((congrArg (·.session.status) same).symm.trans agreed) was
  rcases perform_move (reachable_shape reached) performs.done with
    move | ⟨runId, owner, expectedVersion, now, fault, rfl, confirmed⟩
  · exact absurd agreed (move.unagreed was)
  have called : event = .call (.execute runId owner expectedVersion now fault) := by
    rcases performs.source with called | runner
    · exact called
    · exact runner.elim
  obtain rfl : runId = input.id := by
    rw [called] at executes
    exact executes
  obtain ⟨found, _, carried, _, _⟩ := confirmed
  have same := Table.eq_of_key (Table.mem_of_get found) member (Table.key_of_get found)
  subst same
  unfold confirmInTransaction at carried
  simp only [bind_eq_ok, expect_eq_ok, require_eq_ok] at carried
  obtain ⟨_, _, other, acked, seen, held, _, ⟨_, before_⟩, _⟩ := carried
  rw [named] at acked
  obtain rfl : ack = other := Option.some.inj ((Table.get_of_mem known).symm.trans acked)
  rw [shown] at held
  obtain rfl : context = seen := Option.some.inj ((Table.get_of_mem listed).symm.trans held)
  exact before_.2.2.2.2.1

/-- A context that shows an older version can never be gone on with. -/
theorem not_stillConfirms {world : World} {context : PublicInteractionContext}
    (reached : Reachable World.Step World.Initial world) (listed : context ∈ world.db.contexts)
    (older : context.businessVersion < world.db.session.version) : ¬ StillConfirms world context := by
  rintro ⟨history, last, run, renewed, chain, transition, member, confirms⟩
  have behind : ∀ transition ∈ history, context ∈ transition.before.db.contexts ∧
      context.businessVersion < transition.before.db.session.version := by
    intro transition member
    obtain ⟨_, _, _, earlier, _, _⟩ := run.split member
    exact ⟨(run_grows earlier).contexts context listed,
      older.trans_le (run_version_le reached earlier)⟩
  have unrenewed : ∀ other, Renewed history context other → other = context := by
    intro other chain
    induction chain with
    | same => rfl
    | again earlier member renews inductionHypothesis =>
      rw [inductionHypothesis] at renews
      obtain ⟨_, buyerId, requestId, now, _, done⟩ := renews
      obtain ⟨present, less⟩ := behind _ member
      unfold refreshContext checkObject at done
      simp only [bind_eq_ok, expect_eq_ok, require_eq_ok] at done
      obtain ⟨_, _, original, found, _, _, expiry, ⟨_, version, _⟩, _⟩ := done
      obtain rfl : context = original := Option.some.inj ((Table.get_of_mem present).symm.trans found)
      exact absurd version less.ne
  rw [unrenewed renewed chain] at confirms
  obtain ⟨present, less⟩ := behind transition member
  exact less.ne (confirms.version (run.reachable_before reached member) (run.taken member) present)

/-! ### Refused proposals -/

omit [Platform] in
/-- The transition carries out a command that refuses a proposal without a counter-offer. -/
def Refuses (now : Time) (transition : Transition World Event) : Prop :=
  ∃ runId owner expectedVersion fault, ∃ receipt ∈ transition.after.db.receipts, ∃ result,
    transition.event = .call (.execute runId owner expectedVersion now fault) ∧
    transition.before.db.receipts.get (.turnAction runId) = none ∧
    receipt.id = .turnAction runId ∧ receipt.result = .business result ∧
    result.outcome = .offerRejected

omit [Platform] in
/-- The buyer holds a context of an offer: it was displayed to the buyer and is not over. -/
structure Holds (db : Db) (context : PublicInteractionContext) (offerId : Nat) (now : Time) :
    Prop where
  listed : context ∈ db.contexts
  about : context.offerId = some offerId
  unexpired : now < context.expiresAt
  displayed : ∃ ack ∈ db.acks, ack.contextId = context.id ∧ ack.buyerId = db.session.buyerId

theorem World.Step.refuses {now : Time} (step : World.Step before event after)
    (refuses : Refuses now ⟨before, event, after⟩) :
    Spares before.db after.db ∧ after.db.session.version = before.db.session.version + 1 := by
  obtain ⟨runId, owner, expectedVersion, fault, receipt, member, result, called, fresh, key,
    recorded, rejected⟩ := refuses
  have unrecorded : receipt ∉ before.db.receipts := fun old =>
    Table.get_eq_none.mp fresh receipt old key
  obtain rfl : event = .call (.execute runId owner expectedVersion now fault) := called
  rcases step.called with idle | done
  · exact absurd (idle ▸ member) unrecorded
  · obtain ⟨answer, executed, last⟩ := (map_eq_ok _ _ _).mp done
    have new : receipt ∈ answer.1.receipts := last ▸ member
    rw [← last]
    rcases execute_carries executed with
      ⟨_, known⟩ | ⟨run, payload, quoted, quotation, finished, outcome, same, carries⟩
    · exact absurd fresh known
    · subst same
      rw [carries.frame] at new
      rcases Table.mem_insertIgnore new with rfl | old
      · obtain rfl := ReceiptResult.business.inj recorded
        exact carries.spares rejected
      · exact absurd key (Table.get_eq_none.mp carries.fresh receipt old)

/-- A buyer who holds a context of an offer when a proposal is refused can never again go on with
it. -/
theorem refused_strands {now : Time} {offerId : Nat} {context : PublicInteractionContext}
    (reached : Reachable World.Step World.Initial before) (step : World.Step before event after)
    (refuses : Refuses now ⟨before, event, after⟩) (holds : Holds before.db context offerId now) :
    ¬ StillConfirms after context := by
  refine not_stillConfirms (reached.next step) (step.grows.contexts context holds.listed) ?_
  rw [(step.refuses refuses).2]
  exact Nat.lt_succ_of_le (reachable_dated reached context holds.listed)

/-- A proposal that is refused without a counter-offer leaves the current offer, its approval and
the status of the session as they were; and a buyer who holds a context of the offer can go on
with it or with a refresh of it, exactly when there is no such context. -/
theorem refusal_spares_offer {now : Time} {offer : Offer}
    (reached : Reachable World.Step World.Initial before) (step : World.Step before event after)
    (refuses : Refuses now ⟨before, event, after⟩) (listed : offer ∈ before.db.offers)
    (current : before.db.session.currentOfferId = some offer.id) :
    (after.db.session.currentOfferId = some offer.id ∧ offer ∈ after.db.offers ∧
      after.db.approvals = before.db.approvals ∧
      after.db.session.status = before.db.session.status) ∧
    ((∀ context, Holds before.db context offer.id now → StillConfirms after context) ↔
      ∀ context, ¬ Holds before.db context offer.id now) := by
  obtain ⟨spares, _⟩ := step.refuses refuses
  refine ⟨⟨spares.current.trans current, spares.offers offer listed, spares.approvals,
    spares.status⟩, fun confirms context holds => ?_, fun none context holds => ?_⟩
  · exact refused_strands reached step refuses holds (confirms context holds)
  · exact absurd holds (none context)

end

/-! ### The sample session -/

/-- An offer of 4 yuan, which the policy prohibits. -/
def prohibitedOffer : Payload := sampleOffer .submit ⟨⟨400, by decide⟩, "4"⟩

/-- The buyer is shown the accepted offer of 110 yuan and offers 4 yuan then. -/
def underbidding [Platform] : List Event :=
  firstCommand highOffer ++ reply highOffer 7 ++
    [.call (.display "buyer" 6 "internal" "shown" (seconds 3) (seconds 3) (seconds 3)),
      .call (.enqueue "buyer" "second" prohibitedOffer none (seconds 4)),
      .call (.claim 9 (seconds 4))]

/-- The buyer offers 70 yuan, and 4 yuan while the seller is asked. -/
def impatient [Platform] : List Event :=
  submission ++ reply lowOffer 8 ++
    [.call (.enqueue "buyer" "second" prohibitedOffer none (seconds 4)), .call (.claim 9 (seconds 4))]

/-- The second proposal is carried out. -/
def refusal : Event := .call (.execute 9 (12, 1) 2 (seconds 4) none)

/-- The outcome that the receipt of a run records. -/
def Db.outcomeOf (db : Db) (runId : Nat) : Option Outcome :=
  (db.receipts.get (.turnAction runId)).bind fun receipt =>
    match receipt.result with
    | .business result => some result.outcome
    | _ => none

theorem Refuses.of_outcome {now : Time} {before after : World} {runId expectedVersion : Nat}
    {owner : Owner} {fault : Option FaultPoint}
    (fresh : before.db.receipts.get (.turnAction runId) = none)
    (rejected : after.db.outcomeOf runId = some .offerRejected) :
    Refuses now ⟨before, .call (.execute runId owner expectedVersion now fault), after⟩ := by
  obtain ⟨receipt, found, outcome⟩ := Option.bind_eq_some_iff.mp rejected
  split at outcome
  · next result recorded =>
    exact ⟨runId, owner, expectedVersion, fault, receipt, Table.mem_of_get found, result, rfl, fresh,
      Table.key_of_get found, recorded, Option.some.inj outcome⟩
  · exact absurd outcome.symm (Option.some_ne_none _)

attribute [local instance] samplePlatform in
/-- The buyer who holds a context of the valid accepted offer cannot go on with it any more. -/
theorem refusal_strands_buyer :
    ∃ offer ∈ (sampleWorld.after underbidding).db.offers,
      ∃ context ∈ (sampleWorld.after underbidding).db.contexts,
        Reachable World.Step World.Initial (sampleWorld.after underbidding) ∧
        World.Step (sampleWorld.after underbidding) refusal
          ((sampleWorld.after underbidding).next refusal) ∧
        Refuses (seconds 4)
          ⟨sampleWorld.after underbidding, refusal,
            (sampleWorld.after underbidding).next refusal⟩ ∧
        (sampleWorld.after underbidding).db.session.currentOfferId = some offer.id ∧
        ValidOffer (sampleWorld.after underbidding).db offer (seconds 4) ∧
        Holds (sampleWorld.after underbidding).db context offer.id (seconds 4) ∧
        ¬ StillConfirms ((sampleWorld.after underbidding).next refusal) context := by
  have reached : Reachable World.Step World.Initial (sampleWorld.after underbidding) :=
    World.reachable_after sampleWorld_initial (by decide +kernel : Scheduled 0 underbidding)
  have step : World.Step (sampleWorld.after underbidding) refusal
      ((sampleWorld.after underbidding).next refusal) := ⟨by decide +kernel, by decide +kernel, rfl⟩
  have refuses : Refuses (seconds 4)
      ⟨sampleWorld.after underbidding, refusal, (sampleWorld.after underbidding).next refusal⟩ :=
    .of_outcome (Option.isNone_iff_eq_none.mp (by decide +kernel)) (by decide +kernel)
  have offered : ((sampleWorld.after underbidding).db.offers.get 5).map
      (fun offer => (offer.id, decide (ValidOffer (sampleWorld.after underbidding).db offer
        (seconds 4)))) = some (5, true) := by decide +kernel
  have shown : ((sampleWorld.after underbidding).db.contexts.get 6).map
      (fun context => (context.id, context.offerId, decide (seconds 4 < context.expiresAt))) =
        some (6, some 5, true) := by decide +kernel
  have displayed : ((sampleWorld.after underbidding).db.acks.get 8).map
      (fun ack => (ack.contextId, ack.buyerId)) =
        some (6, (sampleWorld.after underbidding).db.session.buyerId) := by decide +kernel
  obtain ⟨offer, found, offerFacts⟩ := Option.map_eq_some_iff.mp offered
  obtain ⟨context, held, contextFacts⟩ := Option.map_eq_some_iff.mp shown
  obtain ⟨ack, acked, ackFacts⟩ := Option.map_eq_some_iff.mp displayed
  simp only [Prod.mk.injEq, decide_eq_true_eq] at offerFacts contextFacts ackFacts
  obtain ⟨key, valid⟩ := offerFacts
  obtain ⟨contextKey, about, unexpired⟩ := contextFacts
  have current : (sampleWorld.after underbidding).db.session.currentOfferId = some 5 := by
    decide +kernel
  have holds : Holds (sampleWorld.after underbidding).db context offer.id (seconds 4) :=
    ⟨Table.mem_of_get held, key ▸ about, unexpired, ack, Table.mem_of_get acked,
      ackFacts.1.trans contextKey.symm, ackFacts.2⟩
  exact ⟨offer, Table.mem_of_get found, context, holds.listed, reached, step, refuses,
    key ▸ current, valid, holds, refused_strands reached step refuses holds⟩

attribute [local instance] samplePlatform in
/-- While the seller is still asked about 70 yuan, the refusal of 4 yuan changes nothing of it. -/
theorem refusal_spares_offer_pending :
    (sampleWorld.after impatient).db.session.status = .waitingApproval ∧
      ((sampleWorld.after impatient).next refusal).db.session.status = .waitingApproval ∧
      ((sampleWorld.after impatient).next refusal).db.session.currentOfferId = some 5 ∧
      ((sampleWorld.after impatient).next refusal).db.approvals =
        (sampleWorld.after impatient).db.approvals := by
  have reached : Reachable World.Step World.Initial (sampleWorld.after impatient) :=
    World.reachable_after sampleWorld_initial (by decide +kernel : Scheduled 0 impatient)
  have step : World.Step (sampleWorld.after impatient) refusal
      ((sampleWorld.after impatient).next refusal) := ⟨by decide +kernel, by decide +kernel, rfl⟩
  have refuses : Refuses (seconds 4)
      ⟨sampleWorld.after impatient, refusal, (sampleWorld.after impatient).next refusal⟩ :=
    .of_outcome (Option.isNone_iff_eq_none.mp (by decide +kernel)) (by decide +kernel)
  have offered : ((sampleWorld.after impatient).db.offers.get 5).map (·.id) = some 5 := by
    decide +kernel
  obtain ⟨offer, found, key⟩ := Option.map_eq_some_iff.mp offered
  have current : (sampleWorld.after impatient).db.session.currentOfferId = some 5 := by
    decide +kernel
  have waiting : (sampleWorld.after impatient).db.session.status = .waitingApproval := by
    decide +kernel
  obtain ⟨⟨same, _, approvals, status⟩, _⟩ := refusal_spares_offer reached step refuses
    (Table.mem_of_get found) (key ▸ current)
  exact ⟨waiting, status.trans waiting, key ▸ same, approvals⟩

end Negotiation
