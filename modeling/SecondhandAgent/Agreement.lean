/-
This file proves what a deal rests on when it is closed. The session becomes
agreed by the confirmation of its current offer and by nothing else, and that
confirmation refers to a display of the very terms, made to the buyer in the
same view before the confirmation was received, at a time when nothing it rests
on has expired and the seller stands by the offer under the present policy.
-/

import SecondhandAgent.Bargain
import SecondhandAgent.Receipts

namespace Negotiation

open Store Deal

/-! ### The inputs of a session -/

/-- What the kind of the session says of its rows: a semantic session takes chat inputs, only
such a session records what its offers were made on, and a planned command comes from the view
of its input. -/
structure Rooted (db : Db) : Prop where
  chats : ∀ run ∈ db.inputs, run.payload.isChat = db.session.graphVersion.isSemantic
  bases : ∀ basis ∈ db.bases, db.session.graphVersion.isSemantic = true
  turns : ∀ turn ∈ db.turns, ∃ run ∈ db.inputs, run.id = turn.inputId ∧
    turn.command.clientViewId = run.payload.clientViewId

theorem Rooted.congr {before after : Db} (rooted : Rooted before)
    (version : after.session.graphVersion = before.session.graphVersion)
    (inputs : after.inputs = before.inputs) (bases : after.bases = before.bases)
    (turns : after.turns = before.turns) : Rooted after where
  chats := by
    rw [inputs, version]
    exact rooted.chats
  bases := by
    rw [bases, version]
    exact rooted.bases
  turns := by
    rw [turns, inputs]
    exact rooted.turns

theorem Rooted.business {before after : Db} (rooted : Rooted before)
    (writes : BusinessWrites before after) : Rooted after := by
  induction writes with
  | refl => exact rooted
  | trans _ _ first second => exact second (first rooted)
  | deal writes =>
    refine rooted.congr ?_ ?_ ?_ ?_ <;> rw [show _ = _ from writes]
  | basis db basis chat =>
    refine ⟨rooted.chats, fun _ _ => ?_, rooted.turns⟩
    obtain ⟨run, member, chat⟩ := chat
    exact (rooted.chats run member).symm.trans chat
  | receipt | notice | event => exact rooted.congr rfl rfl rfl rfl

/-- A turn of a run leaves the inputs as they were sent. -/
theorem Rooted.turned {before : Db} {run changed : NegotiationInput} (rooted : Rooted before)
    (found : before.inputs.get run.id = some run) (sent : changed.sent = run.sent) :
    Rooted { before with inputs := before.inputs.put changed } where
  chats other member := by
    rcases Table.mem_of_mem_put member with old | rfl
    · exact rooted.chats other old
    · obtain ⟨_, _, _, payload, _⟩ := NegotiationInput.of_sent sent
      rw [payload]
      exact rooted.chats run (Table.mem_of_get found)
  bases := rooted.bases
  turns turn member := by
    obtain ⟨input, old, key, view⟩ := rooted.turns turn member
    obtain ⟨sameId, _, _, payload, _⟩ := NegotiationInput.of_sent sent
    by_cases same : input.id = changed.id
    · obtain rfl := Table.eq_of_key old (Table.mem_of_get found) (same.trans sameId)
      refine ⟨changed, Table.mem_put_self old same, sameId.trans key, ?_⟩
      rw [payload]
      exact view
    · exact ⟨input, Table.mem_put_of_mem old same, key, view⟩

section

variable [Platform] {before after : Db}

theorem Effect.rooted {transaction : Transaction} (rooted : Rooted before)
    (effect : Effect before transaction after) : Rooted after := by
  cases effect with
  | business _ writes => exact rooted.business writes
  | repeated same =>
    rw [same]
    exact rooted
  | command _ writes =>
    rw [writes.frame]
    exact (rooted.business writes.business).congr rfl rfl rfl rfl
  | answered _ writes =>
    refine rooted.congr ?_ ?_ ?_ ?_ <;> rw [writes.frame, writes.drafts]
  | @planned _ _ _ _ stored run turn _ found view writes frame =>
    have stay : Rooted stored := by
      refine rooted.congr ?_ ?_ ?_ ?_ <;> rw [writes]
    have inputs : stored.inputs = before.inputs := by rw [writes]
    rw [frame]
    refine ⟨stay.chats, stay.bases, fun other member => ?_⟩
    rcases Table.mem_insertIgnore member with rfl | old
    · obtain ⟨present, key⟩ := Table.get_eq_some.mp found
      refine ⟨run, ?_, key, view⟩
      show run ∈ stored.inputs
      rw [inputs]
      exact present
    · exact stay.turns other old
  | published _ writes => refine rooted.congr ?_ ?_ ?_ ?_ <;> rw [writes.frame]
  | displayed _ _ _ _ _ _ frame => refine rooted.congr ?_ ?_ ?_ ?_ <;> rw [frame]
  | edited _ writes | executed writes _ => refine rooted.congr ?_ ?_ ?_ ?_ <;> rw [writes]
  | acknowledged _ frame =>
    refine rooted.congr ?_ ?_ ?_ ?_ <;> rw [frame, acknowledgeEvents_writes]
  | queued effect =>
    cases effect with
    | idle frame => refine rooted.congr ?_ ?_ ?_ ?_ <;> rw [frame]
    | enqueued _ _ kind _ appended =>
      unfold newInput at appended
      simp only [bind_eq_ok, pure_eq_ok] at appended
      obtain ⟨_, _, _, _, inputs, appended, rfl⟩ := appended
      refine ⟨fun run member => ?_, rooted.bases, fun turn member => ?_⟩
      · rcases (Table.mem_insert appended run).mp member with rfl | old
        · exact kind
        · exact rooted.chats run old
      · obtain ⟨run, old, rest⟩ := rooted.turns turn member
        exact ⟨run, (Table.mem_insert appended run).mpr (.inr old), rest⟩
    | turned found _ _ turn frame =>
      rw [frame]
      exact (rooted.turned found turn.sent).congr rfl rfl rfl rfl
  | archived frame => refine rooted.congr ?_ ?_ ?_ ?_ <;> rw [frame]

theorem reachable_rooted {world : World} (reached : Reachable World.Step World.Initial world) :
    Rooted world.db := by
  refine database_invariant Rooted (fun world initial => ?_)
    (fun _ _ _ rooted done => (perform_effect done).rooted rooted) reached
  obtain ⟨⟨_, _, _, _, _, _, _, db⟩, _⟩ := initial
  rw [db]
  exact ⟨fun _ member => absurd member (Table.not_mem_empty _),
    fun _ member => absurd member (Table.not_mem_empty _),
    fun _ member => absurd member (Table.not_mem_empty _)⟩

/-! ### Displays -/

/-- The event that made a display: it was shown to the buyer then, in that view. -/
def Displays (ack : DisplayAck) (context : PublicInteractionContext)
    (transition : Transition World Event) : Prop :=
  context ∈ transition.before.db.contexts ∧ ∃ requestId compared checked,
    transition.event = .call (.display ack.buyerId context.id ack.clientViewId requestId compared
      checked ack.displayedAt)

/-- A transaction makes a display or leaves all of them alone. -/
theorem Effect.acks {transaction : Transaction} (effect : Effect before transaction after) :
    after.acks = before.acks ∨ ∃ ack context requestId compared checked,
      after.acks = before.acks.insertIgnore ack ∧ ack.contextId = context.id ∧
        context ∈ before.contexts ∧ context.buyerId = ack.buyerId ∧
        transaction = .display ack.buyerId context.id ack.clientViewId requestId compared checked
          ack.displayedAt := by
  cases effect with
  | business _ writes => exact .inl (by rw [writes.frame])
  | repeated same => exact .inl (by rw [same])
  | command _ writes => exact .inl (by rw [writes.frame, writes.business.frame])
  | answered _ writes => exact .inl (by rw [writes.frame, writes.drafts])
  | planned _ _ _ writes frame => exact .inl (by rw [frame, writes])
  | published _ writes => exact .inl (by rw [writes.frame])
  | @displayed viewId requestId compared checked ack context made found shown view buyer _ frame =>
    subst view
    exact .inr ⟨ack, context, requestId, compared, checked, by rw [frame], shown,
      Table.mem_of_get found, buyer, made⟩
  | edited _ writes | executed writes _ => exact .inl (by rw [writes])
  | acknowledged _ frame => exact .inl (by rw [frame, acknowledgeEvents_writes])
  | queued effect =>
    refine .inl ?_
    cases effect with
    | idle frame => rw [frame]
    | enqueued _ _ _ _ appended =>
      unfold newInput at appended
      simp only [bind_eq_ok, pure_eq_ok] at appended
      obtain ⟨_, _, _, _, _, _, rfl⟩ := appended
      rfl
    | turned _ _ _ _ frame => rw [frame]
  | archived frame => exact .inl (by rw [frame])

/-- Every display was made at some point of the run, of a context that is still as it was. -/
theorem run_displayed {first last : World} {history : List (Transition World Event)}
    (initial : World.Initial first) (run : Run World.Step first history last) :
    ∀ ack ∈ last.db.acks, ∃ context ∈ last.db.contexts, context.id = ack.contextId ∧
      context.buyerId = ack.buyerId ∧ ∃ transition ∈ history, Displays ack context transition := by
  induction run with
  | start =>
    obtain ⟨⟨_, _, _, _, _, _, _, db⟩, _⟩ := initial
    rw [db]
    exact fun _ member => absurd member (Table.not_mem_empty _)
  | @next middle last history event earlier taken inductionHypothesis =>
    intro ack member
    have old : ack ∈ middle.db.acks → ∃ context ∈ last.db.contexts, context.id = ack.contextId ∧
        context.buyerId = ack.buyerId ∧ ∃ transition ∈ ⟨middle, event, last⟩ :: history,
          Displays ack context transition := by
      intro present
      obtain ⟨context, found, key, buyer, transition, past, displays⟩ :=
        inductionHypothesis ack present
      exact ⟨context, taken.grows.contexts context found, key, buyer, transition,
        List.mem_cons_of_mem _ past, displays⟩
    rcases taken.performs with same | ⟨transaction, performs⟩
    · exact old (same ▸ member)
    · rcases (perform_effect performs.done).acks with
        same | ⟨new, context, requestId, compared, checked, grown, shown, found, buyer, made⟩
      · exact old (same ▸ member)
      · rw [grown] at member
        rcases Table.mem_insertIgnore member with rfl | present
        · rcases performs.source with called | runner
          · refine ⟨context, taken.grows.contexts context found, shown.symm, buyer, _,
              List.mem_cons_self, found, requestId, compared, checked, ?_⟩
            rw [called, made]
          · rw [made] at runner
            exact runner.elim
        · exact old present

/-! ### The confirmation -/

/-- The seller is bound to the offer: it is priced in the automatic zone, or the seller approved
it under the present policy, in time, and the approval is applied. -/
def Bound (db : Db) (offer : Offer) : Prop :=
  (∃ income, calculateNetIncome (termsFromOffer offer) = .ok income ∧
    priceZone income db.policy = .autoAccept) ∨
  ∃ approval ∈ db.approvals, approval.offerId = offer.id ∧ approval.status = .approved ∧
    approval.effectStatus = .applied ∧ approval.policyVersion = db.policy.version ∧
    ∃ reviewed, approval.reviewedAt = some reviewed ∧ reviewed < approval.expiresAt

/-- An offer the authorization accepts or lets the agent make is in the automatic zone. -/
theorem automatic_of_authorized {offer : Offer} {policy : SellerPolicy}
    {authorization : OfferAuthorization}
    (done : offerAuthorization offer policy = .ok authorization)
    (granted : authorization.canAcceptAutomatically = true ∨
      authorization.canSubmitCounterOffer = true) :
    ∃ income, calculateNetIncome (termsFromOffer offer) = .ok income ∧
      priceZone income policy = .autoAccept := by
  unfold offerAuthorization authorizeOffer at done
  simp only [bind_eq_ok] at done
  obtain ⟨income, priced, rest⟩ := done
  refine ⟨income, priced, ?_⟩
  split at rest
  · obtain rfl := (pure_eq_ok _ _).mp rest
    rcases granted with automatic | automatic <;> exact of_decide_eq_true automatic
  · obtain rfl := (pure_eq_ok _ _).mp rest
    rcases granted with automatic | automatic <;> cases automatic

theorem ValidOffer.bound {db : Db} {offer : Offer} {now : Time} (valid : ValidOffer db offer now) :
    Bound db offer := by
  obtain ⟨_, _, stands⟩ := valid
  obtain ⟨authorization, done, stands⟩ := (succeeds_iff _ _).mp stands
  rcases stands with ⟨_, _, counter⟩ | ⟨_, _, ⟨_, automatic⟩ | approved⟩
  · exact .inl (automatic_of_authorized done (.inr counter))
  · exact .inl (automatic_of_authorized done (.inl automatic))
  · obtain ⟨approval, found, given, applied, version, reviewed⟩ := (found_iff _ _).mp approved
    obtain ⟨member, about⟩ := mem_of_approvalOf found
    exact .inr ⟨approval, member, about, given, applied, version, (found_iff _ _).mp reviewed⟩

/-- What a valid offer was made on is a quotation that has not expired. -/
theorem ValidOffer.quoted {db : Db} {offer : Offer} {now : Time} (rooted : Rooted db)
    (valid : ValidOffer db offer now) :
    ∀ basis ∈ db.bases, basis.offerId = offer.id →
      ∃ quote ∈ db.quotes, quote.id = basis.costQuoteId ∧ now < quote.expiresAt := by
  intro basis member about
  obtain ⟨_, ⟨_, _, _, _, _, semantic, _⟩, _⟩ := valid
  have held := semantic (rooted.bases basis member)
  have found : db.bases.get offer.id = some basis := Table.get_eq_some.mpr ⟨member, about⟩
  unfold validBasis at held
  rw [found] at held
  dsimp only at held
  split at held
  · cases held
  · next quote quoted =>
    obtain ⟨present, key⟩ := Table.get_eq_some.mp quoted
    exact ⟨quote, present, key, (of_decide_eq_true held).1⟩

/-- The command of an input comes from the view of the input. -/
theorem view_of_loaded {db : Db} {run : NegotiationInput} {payload : TypedInput}
    (rooted : Rooted db) (member : run ∈ db.inputs) (loaded : loadCommand db run = .ok payload) :
    payload.clientViewId = run.payload.clientViewId := by
  unfold loadCommand at loaded
  split at loaded
  · next input typed =>
    obtain rfl := (pure_eq_ok _ _).mp loaded
    rw [typed]
    rfl
  · simp only [bind_eq_ok, expect_eq_ok, pure_eq_ok] at loaded
    obtain ⟨turn, found, rfl⟩ := loaded
    obtain ⟨present, key⟩ := Table.get_eq_some.mp found
    obtain ⟨input, old, same, view⟩ := rooted.turns turn present
    obtain rfl := Table.eq_of_key old member (same.trans key)
    exact view

/-- A session becomes agreed only by the execution of a confirmation, on its current offer. The
terms of that offer, at the version of the session, had been displayed to the buyer in the view
of the confirming input before that input was received; the display, the offer and the
quotation it was made on have not expired; and the seller is bound to the offer. -/
theorem agreed_is_safe {first before after : World} {event : Event}
    {history : List (Transition World Event)} (initial : World.Initial first)
    (run : Run World.Step first history before) (step : World.Step before event after)
    (was : before.db.session.status ≠ .agreed) (agreed : after.db.session.status = .agreed) :
    ∃ input ∈ before.db.inputs, ∃ offer ∈ before.db.offers, ∃ owner expectedVersion now fault,
      event = .call (.execute input.id owner expectedVersion now fault) ∧
      before.db.session.currentOfferId = some offer.id ∧
      after.db.session.currentOfferId = some offer.id ∧
      after.db.session.confirmedOfferId = some offer.id ∧
      (∃ ack ∈ before.db.acks, ∃ context ∈ before.db.contexts,
        (∃ transition ∈ history, Displays ack context transition) ∧
        context.offerId = some offer.id ∧ ack.buyerId = before.db.session.buyerId ∧
        context.buyerId = before.db.session.buyerId ∧
        ack.clientViewId = input.payload.clientViewId ∧ ack.displayedAt ≤ input.receivedAt ∧
        context.termsHash = .offer (termsHash offer) ∧
        context.businessVersion = before.db.session.version ∧ now < context.expiresAt) ∧
      now < offer.expiresAt ∧
      (∀ basis ∈ before.db.bases, basis.offerId = offer.id →
        ∃ quote ∈ before.db.quotes, quote.id = basis.costQuoteId ∧ now < quote.expiresAt) ∧
      Bound before.db offer := by
  have reached : Reachable World.Step World.Initial before := ⟨first, history, initial, run⟩
  have rooted := reachable_rooted reached
  rcases step.performs with same | ⟨transaction, performs⟩
  · exact absurd ((congrArg (·.session.status) same).symm.trans agreed) was
  rcases perform_move (reachable_shape reached) performs.done with
    move | ⟨runId, owner, expectedVersion, now, fault, rfl, confirms⟩
  · exact absurd agreed (move.unagreed was)
  have called : event = .call (.execute runId owner expectedVersion now fault) := by
    rcases performs.source with called | runner
    · exact called
    · exact runner.elim
  obtain @⟨input, payload, _, done, outcome, found, loaded, carried, session, deal⟩ := confirms
  obtain ⟨member, rfl⟩ := Table.get_eq_some.mp found
  unfold confirmInTransaction at carried
  simp only [bind_eq_ok, pure_eq_ok, expect_eq_ok, require_eq_ok, Prod.mk.injEq] at carried
  obtain ⟨offer, named, ack, acked, context, shown, _,
    ⟨valid, buyer, owner', view, about, version, terms, received, _, unexpired⟩, _, _, rfl, _⟩ :=
    carried
  obtain ⟨offerId, _, held⟩ := Option.bind_eq_some_iff.mp named
  obtain ⟨receiptId, _, acknowledged⟩ := Option.bind_eq_some_iff.mp acked
  have ackMember := Table.mem_of_get acknowledged
  have bound := valid.bound
  have quoted := valid.quoted rooted
  obtain ⟨_, ⟨current, _, _, _, alive, _, _⟩, _⟩ := valid
  obtain ⟨displayed, present, key, _, transition, past, displays⟩ :=
    run_displayed initial run ack ackMember
  obtain ⟨contextMember, contextKey⟩ := Table.get_eq_some.mp shown
  obtain rfl := Table.eq_of_key present contextMember (key.trans contextKey.symm)
  refine ⟨input, member, offer, Table.mem_of_get held, owner, expectedVersion, now, fault, called,
    current, ?_, ?_, ⟨ack, ackMember, displayed, present, ⟨transition, past, displays⟩, about, buyer,
    owner', view.trans (view_of_loaded rooted member loaded), received, terms, version, unexpired⟩,
    alive, quoted, bound⟩
  · rw [session]
    exact current
  · rw [session]

end

attribute [local instance] samplePlatform in
/-- A buyer who was shown the accepted offer confirms it. -/
theorem agreed_is_safe_confirmation :
    ((sampleWorld.after confirming).next confirmation).db.session.status = .agreed ∧
      ∃ ack ∈ (sampleWorld.after confirming).db.acks,
        ∃ context ∈ (sampleWorld.after confirming).db.contexts,
          ∃ transition ∈ sampleWorld.history [] confirming, Displays ack context transition := by
  have run : Run World.Step sampleWorld (sampleWorld.history [] confirming)
      (sampleWorld.after confirming) := World.run_history (.start _) (by decide +kernel)
  have step : World.Step (sampleWorld.after confirming) confirmation
      ((sampleWorld.after confirming).next confirmation) :=
    ⟨by decide +kernel, by decide +kernel, rfl⟩
  have was : (sampleWorld.after confirming).db.session.status ≠ .agreed := by decide +kernel
  have agreed : ((sampleWorld.after confirming).next confirmation).db.session.status = .agreed := by
    decide +kernel
  obtain ⟨_, _, _, _, _, _, _, _, _, _, _, _, ⟨ack, acked, context, shown, displays, _⟩, _⟩ :=
    agreed_is_safe sampleWorld_initial run step was agreed
  exact ⟨agreed, ack, acked, context, shown, displays⟩

end Negotiation
