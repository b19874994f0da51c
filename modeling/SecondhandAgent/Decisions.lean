/-
This file settles whether a decision that the seller made in time can be
applied. The review compares the exact clock with the end of the approval; the
time it stores is rounded to a second, and it is the stored time that the
application and the confirmation compare with the end. Nothing else stands in
the way: from the review on, the end of the approval and the event of the
decision stay as they were, however long the application takes.
-/

import SecondhandAgent.Refusals
import SecondhandAgent.Session

namespace Negotiation

open Store Deal

/-! ### The ends of approvals -/

/-- The approvals end when they did. -/
def SameEnds (before after : Table ApprovalRequest.id) : Prop :=
  ∀ approval ∈ before, ∃ new ∈ after, new.id = approval.id ∧ new.expiresAt = approval.expiresAt

namespace SameEnds

variable {before middle after : Table ApprovalRequest.id}

theorem of_eq (same : after = before) : SameEnds before after :=
  fun approval member => ⟨approval, same ▸ member, rfl, rfl⟩

theorem trans (first : SameEnds before middle) (second : SameEnds middle after) :
    SameEnds before after := by
  intro approval member
  obtain ⟨between, found, key, ends⟩ := first approval member
  obtain ⟨new, listed, same, late⟩ := second between found
  exact ⟨new, listed, same.trans key, late.trans ends⟩

end SameEnds

theorem Settles.sameEnds {before after : Db} (settles : Settles before after) :
    SameEnds before.approvals after.approvals := by
  intro approval member
  have listed : approval.core ∈ approvalCores after.approvals :=
    settles.approvals ▸ listed_approval member
  obtain ⟨new, found, core⟩ := List.mem_map.mp listed
  have ends : new.core.expiresAt = approval.core.expiresAt :=
    congrArg ApprovalRequest.expiresAt core
  exact ⟨new, found, core_approvalId core, ends⟩

section

variable [Platform] {db quoted finished after : Db} {now : Time} {fault : Option FaultPoint}

theorem Placed.sameEnds {offer : Offer} {authorization : OfferAuthorization}
    {counterTerms : Option Terms} {result : Result}
    (placed : Placed db offer authorization counterTerms now after result) :
    SameEnds db.approvals after.approvals := by
  cases placed with
  | accepted | refused | countered => exact .of_eq rfl
  | asked =>
    exact fun approval member => ⟨approval, Table.mem_insertIgnore_of_mem member, rfl, rfl⟩

omit [Platform] in
/-- Only the approval that a result speaks of is limited by the quotation. -/
theorem recordBasis_sameEnds {quotation : Option Quotation} {result : Result}
    {known : Table ApprovalRequest.id} (kept : SameEnds known db.approvals)
    (other : ∀ approval ∈ known, result.approvalId ≠ some approval.id)
    (done : recordBasis db quotation result = .ok after) : SameEnds known after.approvals := by
  unfold recordBasis at done
  split at done
  · obtain rfl := (pure_eq_ok _ _).mp done
    exact kept
  · simp only [bind_eq_ok, pure_eq_ok] at done
    obtain ⟨_, _, rfl⟩ := done
    unfold limitApproval
    split
    · exact kept
    · next limited found =>
      obtain ⟨_, named, got⟩ := Option.bind_eq_some_iff.mp found
      obtain rfl := Table.key_of_get got
      intro approval member
      obtain ⟨new, listed, key, ends⟩ := kept approval member
      refine ⟨new, Table.mem_put_of_mem listed fun same => ?_, key, ends⟩
      exact other approval member (named.trans (congrArg some (same.symm.trans key)))

/-- An approval that an offer asks for is new. -/
theorem Placed.asks_anew {offer : Offer} {authorization : OfferAuthorization}
    {counterTerms : Option Terms} {result : Result} (below : db.approvals.Below (db.nextId + 1))
    (placed : Placed db offer authorization counterTerms now after result) :
    ∀ approval ∈ db.approvals, result.approvalId ≠ some approval.id := by
  intro approval member named
  cases placed with
  | accepted | refused | countered => exact absurd named.symm (Option.some_ne_none _)
  | asked => exact (below approval member).ne (Option.some.inj named).symm

theorem placeOffer_sameEnds {clock : Time} {run : NegotiationInput} {payload : TypedInput}
    {quotation : Option Quotation} {result : Db × Result} (supplied : Supplied quoted)
    (grounded : Grounded db) (priced : Priced clock db) (passed : clock ≤ now)
    (quotes : Quoted db quoted)
    (quoting : ∀ other, quotation = some other → Quotes db run now quoted other)
    (done : placeOffer quoted payload quotation now fault = .ok result) :
    SameEnds quoted.approvals result.1.approvals := by
  unfold placeOffer at done
  simp only [bind_eq_ok, pure_eq_ok] at done
  obtain ⟨terms, _, ⟨resolved, outcome⟩, proposed, recorded, basis, rfl⟩ := done
  cases resolveOfferInTransaction_resolved proposed with
  | repeated _ repeats unchanged answer =>
    dsimp only at unchanged answer
    subst unchanged answer
    have semantics := ((quotes.sameSemantics grounded _ _).mp repeats.2.2.2.2.2)
    rw [recordBasis_repeated grounded priced passed quotes quoting semantics basis]
    exact .of_eq rfl
  | placed _ _ _ _ clears _ _ _ placed =>
    have settles := clearCurrent_settles clears
    have cleared := settles.supplied supplied
    have kept := settles.sameEnds.trans placed.sameEnds
    refine recordBasis_sameEnds kept (fun approval member named => ?_) basis
    obtain ⟨new, listed, key, _⟩ := settles.sameEnds approval member
    exact placed.asks_anew (cleared.approvals.mono (Nat.le_succ _)) new listed
      (named.trans (congrArg some key.symm))

theorem carryOut_sameEnds {clock : Time} {run : NegotiationInput} {payload : TypedInput}
    {quotation : Option Quotation} {result : Db × Result} (supplied : Supplied quoted)
    (grounded : Grounded db) (priced : Priced clock db) (passed : clock ≤ now)
    (quotes : Quoted db quoted)
    (quoting : ∀ other, quotation = some other → Quotes db run now quoted other)
    (done : carryOut quoted run payload quotation now fault = .ok result) :
    SameEnds quoted.approvals result.1.approvals := by
  unfold carryOut at done
  split at done
  · exact placeOffer_sameEnds supplied grounded priced passed quotes quoting done
  · exact placeOffer_sameEnds supplied grounded priced passed quotes quoting done
  · exact (confirmInTransaction_settles done).sameEnds
  · exact (lifecycleInTransaction_settles done).sameEnds
  · exact (lifecycleInTransaction_settles done).sameEnds
  · cases done

theorem perform_sameEnds {clock later : Time} {transaction : Transaction} (shape : Shape db.deal)
    (supplied : Supplied db) (grounded : Grounded db) (priced : Priced clock db)
    (done : db.perform transaction = .ok after) (within : Within clock transaction.readings later) :
    SameEnds db.approvals after.approvals := by
  by_cases acts : transaction.Acts
  · by_cases business : transaction.IsBusiness
    · exact (business_settles shape business done).sameEnds
    · cases transaction with
      | execute runId owner expectedVersion now fault =>
        obtain ⟨result, performed, rfl⟩ := (map_eq_ok _ _ _).mp done
        rcases execute_carries performed with
          ⟨same, _⟩ | ⟨run, payload, quoted, quotation, finished, outcome, _, carries⟩
        · exact .of_eq (congrArg Db.approvals same)
        · have quotes : Quoted db quoted := quoteDraft_quoted carries.priced
          have approvals : quoted.approvals = db.approvals := by rw [quotes.frame]
          have supply : Supplied quoted := by
            rcases quoteDraft_quotes carries.priced with ⟨same, _⟩ | ⟨_, _, _, quotes⟩
            · obtain rfl := (Prod.mk.inj same).1
              exact supplied
            · exact quotes.deed.supplied supplied
          have quoting : ∀ other, quotation = some other → Quotes db run now quoted other := by
            rcases quoteDraft_quotes carries.priced with ⟨silent, _⟩ | ⟨one, stated, _, quotes⟩
            · intro other stated
              exact absurd ((Prod.mk.inj silent).2.symm.trans stated).symm
                (Option.some_ne_none other)
            · intro other other_
              obtain rfl : one = other := Option.some.inj (stated.symm.trans other_)
              exact quotes
          have carried := carryOut_sameEnds supply grounded priced within.one.1 quotes quoting
            carries.carried
          exact (SameEnds.of_eq approvals).trans (carried.trans carries.settles.sameEnds)
      | _ => exact absurd acts business
  · exact .of_eq (congrArg (·.deal.approvals) ((perform_effect done).affairs acts))

end

/-! ### The events of approvals -/

/-- An event of an approval says what its key says. -/
def Truthful (outbox : Table OutboxEvent.id) : Prop :=
  ∀ event ∈ outbox, ∀ approvalId suffix, event.id = .approval approvalId suffix →
    event.approvalId = some approvalId ∧ event.deliveryId = none ∧
      event.payload = suffix.payload approvalId

/-- The events of approvals stay, and stay truthful. -/
structure KeepsEvents (before after : Table OutboxEvent.id) : Prop where
  truthful : Truthful before → Truthful after
  kept : ∀ approvalId suffix, before.get (.approval approvalId suffix) ≠ none →
    after.get (.approval approvalId suffix) ≠ none

namespace KeepsEvents

variable {before middle after : Table OutboxEvent.id}

theorem of_eq (same : after = before) : KeepsEvents before after :=
  ⟨fun truthful => same ▸ truthful, fun _ _ found => same ▸ found⟩

theorem trans (first : KeepsEvents before middle) (second : KeepsEvents middle after) :
    KeepsEvents before after :=
  ⟨fun truthful => second.truthful (first.truthful truthful),
    fun approvalId suffix found => second.kept approvalId suffix (first.kept approvalId suffix found)⟩

theorem insertIgnore {event : OutboxEvent}
    (stated : ∀ approvalId suffix, event.id = .approval approvalId suffix →
      event.approvalId = some approvalId ∧ event.deliveryId = none ∧
        event.payload = suffix.payload approvalId) :
    KeepsEvents before (before.insertIgnore event) := by
  refine ⟨fun truthful other member => ?_, fun approvalId suffix found => ?_⟩
  · rcases Table.mem_insertIgnore member with rfl | old
    · exact stated
    · exact truthful other old
  · rw [Table.get_insertIgnore, if_neg fun both => found both.2]
    exact found

theorem put {event : OutboxEvent} (status : EventStatus) (listed : event ∈ before) :
    KeepsEvents before (before.put { event with status }) := by
  refine ⟨fun truthful other member => ?_, fun approvalId suffix found => ?_⟩
  · rcases Table.mem_of_mem_put member with old | rfl
    · exact truthful other old
    · exact truthful event listed
  · rw [Table.get_put (show before.get ({ event with status } : OutboxEvent).id = some event from
      Table.get_of_mem listed)]
    split
    · exact Option.some_ne_none _
    · exact found

end KeepsEvents

theorem BusinessWrites.keepsEvents {before after : Db} (writes : BusinessWrites before after) :
    KeepsEvents before.outbox after.outbox := by
  induction writes with
  | refl | basis | receipt | notice => exact .of_eq rfl
  | trans _ _ first second => exact first.trans second
  | deal writes =>
    refine .of_eq ?_
    rw [show _ = _ from writes]
  | event db lawful =>
    refine .insertIgnore fun approvalId suffix key => ?_
    obtain ⟨_, stated⟩ := lawful
    rw [key] at stated
    exact stated

theorem acknowledgeEvent_keepsEvents (approvalId : Nat) (db : Db) (key : EventId) :
    KeepsEvents db.outbox (acknowledgeEvent approvalId db key).outbox := by
  unfold acknowledgeEvent
  split
  · exact .of_eq rfl
  · next event found =>
    exact .put .delivered (Table.mem_of_get (Option.filter_eq_some_iff.mp found).1)

theorem acknowledgeEvents_keepsEvents (approvalId : Nat) (events : List EventId) (db : Db) :
    KeepsEvents db.outbox (events.foldl (acknowledgeEvent approvalId) db).outbox := by
  induction events generalizing db with
  | nil => exact .of_eq rfl
  | cons key rest inductionHypothesis =>
    exact (acknowledgeEvent_keepsEvents approvalId db key).trans (inductionHypothesis _)

theorem replyEvent_keepsEvents (outbox : Table OutboxEvent.id) (runId : Nat) :
    KeepsEvents outbox (outbox.insertIgnore (replyEvent runId)) := .insertIgnore nofun

section

variable [Platform] {db after : Db}

/-- No transaction loses an event of an approval. -/
theorem Effect.keepsEvents {transaction : Transaction} (effect : Effect db transaction after) :
    KeepsEvents db.outbox after.outbox := by
  cases effect with
  | business _ writes => exact writes.keepsEvents
  | repeated same => exact .of_eq (congrArg Db.outbox same)
  | command _ writes =>
    rw [writes.frame]
    exact writes.business.keepsEvents.trans (replyEvent_keepsEvents _ _)
  | answered _ writes =>
    rw [writes.frame, show _ = _ from writes.drafts]
    exact replyEvent_keepsEvents _ _
  | planned _ _ _ writes frame => exact .of_eq (by rw [frame, writes])
  | published _ writes =>
    refine ⟨fun truthful event member approvalId suffix key => ?_, fun approvalId suffix found => ?_⟩
    · have got := Table.get_of_mem member
      rw [key, writes.events] at got
      exact truthful event (Table.mem_of_get got) approvalId suffix key
    · rw [writes.events]
      exact found
  | displayed _ _ _ _ _ _ frame | archived frame => exact .of_eq (by rw [frame])
  | edited _ writes | executed writes _ => exact .of_eq (by rw [writes])
  | acknowledged _ frame =>
    rw [frame]
    exact acknowledgeEvents_keepsEvents _ _ _
  | queued effect =>
    cases effect with
    | idle frame | turned _ _ _ _ frame => exact .of_eq (by rw [frame])
    | enqueued _ _ _ _ appended =>
      unfold newInput at appended
      simp only [bind_eq_ok, pure_eq_ok] at appended
      obtain ⟨_, _, _, _, _, _, rfl⟩ := appended
      exact .of_eq rfl

theorem reachable_truthful {world : World} (reached : Reachable World.Step World.Initial world) :
    Truthful world.db.outbox := by
  refine database_invariant (fun db => Truthful db.outbox) (fun world initial => ?_)
    (fun _ _ _ truthful done => (perform_effect done).keepsEvents.truthful truthful) reached
  obtain ⟨⟨_, _, _, _, _, _, _, db⟩, _⟩ := initial
  rw [db]
  exact fun event member => absurd member (Table.not_mem_empty event)

end

/-! ### The review -/

theorem eventInTransaction_recorded (db : Db) (approvalId : Nat) (suffix : ApprovalSuffix)
    (payload : EventPayload) :
    (eventInTransaction db approvalId suffix payload).outbox.get (.approval approvalId suffix) ≠
      none := by
  unfold eventInTransaction
  dsimp only
  rw [Table.get_insertIgnore]
  split
  · exact Option.some_ne_none _
  · next taken => exact fun absent => taken ⟨rfl, absent⟩

section

variable [Platform] {db after : Db} {now : Time} {fault : Option FaultPoint}

/-- A review that accepts an approval stores the rounded time of the decision and records its
event. -/
theorem review_approves {seller requestId : String} {approvalId : Nat} {comment : Option String}
    {expectedRevision : Option Nat} {result : Db × Option String}
    {approval decided : ApprovalRequest} (shape : Shape db.deal)
    (done : review db seller approvalId requestId comment true expectedRevision now fault =
      .ok result) (member : approval ∈ db.approvals) (named : approval.id = approvalId)
    (pending : approval.status = .pending) (found : decided ∈ result.1.approvals)
    (key : decided.id = approvalId) (given : decided.status = .approved)
    (effect : decided.effectStatus = .notApplied) :
    decided.expiresAt = approval.expiresAt ∧ decided.reviewedAt = some (datetime now) ∧
      result.1.outbox.get (.approval approvalId .decision) ≠ none := by
  subst named
  have open_ : ¬ decided ∈ db.approvals := fun old => by
    obtain rfl := Table.eq_of_key old member key
    exact ApprovalStatus.noConfusion (pending.symm.trans given)
  unfold review at done
  simp only [bind_eq_ok] at done
  obtain ⟨_, _, stored, _, ⟨offer, locked⟩, context, rest⟩ := done
  obtain ⟨asked, named, offered, about⟩ := lockContext_eq_ok context
  obtain rfl : locked = approval := Table.eq_of_key asked member named
  split at rest
  · simp only [bind_eq_ok, pure_eq_ok] at rest
    obtain ⟨_, _, rfl⟩ := rest
    exact absurd found open_
  · unfold reviewNew at rest
    simp only [bind_eq_ok, expect_eq_ok] at rest
    obtain ⟨_, _, _, _, middle, reconciled, current, present, rest⟩ := rest
    cases reconcileApproval_cases shape member offered about reconciled with
    | idle same =>
      subst same
      obtain rfl : current = locked := Option.some.inj (present.symm.trans (Table.get_of_mem member))
      split at rest
      · obtain rfl := (pure_eq_ok _ _).mp rest
        exact absurd found open_
      · simp only [bind_eq_ok, pure_eq_ok] at rest
        obtain ⟨written, settled, rfl⟩ := rest
        unfold decideApproval writeDecision noticeDecision at settled
        simp only [bind_eq_ok, pure_eq_ok, if_true] at settled
        obtain ⟨_, _, _, _, _, _, receipts, _, _, _, _, _, _, _, rfl⟩ := settled
        rcases Table.mem_put.mp found with ⟨old, _⟩ | ⟨rfl, _⟩
        · exact absurd old open_
        · exact ⟨rfl, rfl, eventInTransaction_recorded _ _ _ _⟩
    | ended _ gone invalid =>
      obtain rfl := Option.some.inj (present.symm.trans gone)
      rw [if_pos invalid] at rest
      obtain rfl := (pure_eq_ok _ _).mp rest
      obtain rfl := Table.eq_of_key found (Table.mem_of_get gone)
        (key.trans (Table.key_of_get gone).symm)
      exact EffectStatus.noConfusion (invalid.symm.trans effect)

/-! ### The application -/

omit [Platform] in
/-- The approval with the effect of its application. -/
def ApprovalRequest.applying (approval : ApprovalRequest) : ApprovalRequest :=
  { approval with
    effectStatus := .applied
    effectRevision := approval.effectRevision + 1 }

omit [Platform] in
/-- The database after an approval that was given is applied. -/
def Db.applying (db : Db) (offer : Offer) (approval : ApprovalRequest) : Db :=
  { db with
    offers := db.offers.put { offer with status := .accepted }
    session := { db.session with status := .active, version := db.session.version + 1 }
    approvals := db.approvals.put approval.applying }

omit [Platform] in
theorem applyApproved_eq_ok {offer : Offer} {approval : ApprovalRequest} {reviewed : Time}
    (stored : approval.reviewedAt = some reviewed) :
    applyApproved db offer approval = .ok after ↔
      reviewed < approval.expiresAt ∧ db.applying offer approval = after := by
  unfold applyApproved
  simp only [bind_eq_ok, require_eq_ok, pure_eq_ok, found_iff]
  constructor
  · rintro ⟨_, ⟨time, known, timely⟩, same⟩
    obtain rfl : reviewed = time := Option.some.inj (stored.symm.trans known)
    exact ⟨timely, same⟩
  · rintro ⟨timely, same⟩
    exact ⟨(), ⟨reviewed, stored, timely⟩, same⟩

omit [Platform] in
theorem applying_approvalOf {offer : Offer} {approval : ApprovalRequest} (shape : Shape db.deal)
    (asked : approval ∈ db.approvals) (about : offer.id = approval.offerId) :
    (db.applying offer approval).approvalOf offer.id = some approval.applying := by
  cases found : (db.applying offer approval).approvalOf offer.id with
  | none =>
    have member : approval.applying ∈ (db.applying offer approval).approvals :=
      Table.mem_put_self asked rfl
    exact absurd about.symm (approvalOf_eq_none.mp found approval.applying member)
  | some other =>
    obtain ⟨member, same⟩ := mem_of_approvalOf found
    rcases Table.mem_put.mp member with ⟨old, different⟩ | ⟨rfl, _⟩
    · obtain rfl := shape.single other old approval asked (same.trans about)
      exact absurd rfl different
    · rfl

/-- Once the approval is applied, the buyer can confirm the offer if its basis was valid and the
stored time of the decision precedes the stored end of the approval. -/
theorem applying_valid {offer : Offer} {approval : ApprovalRequest} {reviewed : Time}
    (shape : Shape db.deal) (grounded : Grounded db) (asked : approval ∈ db.approvals)
    (member : offer ∈ db.offers) (about : offer.id = approval.offerId)
    (given : approval.status = .approved) (stored : approval.reviewedAt = some reviewed)
    (timely : reviewed < approval.expiresAt) (basis : BasisValid db offer now) :
    ValidOffer (db.applying offer approval) { offer with status := .accepted } now := by
  obtain ⟨current, _, available, _, alive, semantic, stands⟩ := basis
  obtain ⟨authorization, authorized, _, _, allowed, conditions, evidence⟩ :=
    (succeeds_iff _ _).mp stands
  obtain ⟨proof, proved, version, _⟩ := (found_iff _ _).mp evidence
  have buyer : offer.proposer = .buyer := (shape.offer_of asked member about).1
  have answers := applying_approvalOf shape asked about
  have policy : approval.policyVersion = db.policy.version :=
    (grounded.granted approval asked proof (Table.mem_of_get proved)
      ((Table.key_of_get proved).trans about)).trans version
  have holds : AuthorizationHolds (db.applying offer approval) { offer with status := .accepted }
      authorization :=
    ⟨fun agent => OfferProposer.noConfusion (buyer.symm.trans agent),
      fun _ => .inr (answers ▸ Option.some_ne_none _), allowed, conditions, evidence⟩
  have approved : ApprovalStands (db.applying offer approval) approval.applying :=
    ⟨given, rfl, policy, (found_iff _ _).mpr ⟨reviewed, stored, timely⟩⟩
  exact ⟨rfl, ⟨current, .inl rfl, available, .inr rfl, alive, semantic,
      (succeeds_iff _ _).mpr ⟨authorization, authorized, holds⟩⟩,
    (succeeds_iff _ _).mpr ⟨authorization, authorized, .inr ⟨buyer, rfl, .inr
      ((found_iff _ _).mpr ⟨approval.applying, answers, approved⟩)⟩⟩⟩

/-- The decision of an approval is applied: its offer is accepted, and the buyer can confirm it. -/
def Applies (db : Db) (approvalId offerId : Nat) (owner : Owner) (now : Time) : Prop :=
  ∃ result, applyApproval db approvalId (.approval approvalId .decision) owner now none =
      .ok result ∧ result.2.outcome = .offerAccepted ∧
    ∃ offer ∈ result.1.offers, offer.id = offerId ∧ offer.status = .accepted ∧
      ValidOffer result.1 offer now

/-- What an owner finds who applies a decision that is not applied yet, while the basis of the
offer is valid. -/
structure Applicable (db : Db) (approval : ApprovalRequest) (offer : Offer) (owner : Owner)
    (now : Time) : Prop where
  held : ∃ execution, lockExecution db approval.id owner now = .ok execution
  asked : approval ∈ db.approvals
  given : approval.status = .approved
  waits : approval.effectStatus = .notApplied
  member : offer ∈ db.offers
  about : offer.id = approval.offerId
  basis : BasisValid db offer now

theorem Applicable.reconciled {approval : ApprovalRequest} {offer : Offer} {owner : Owner}
    (applicable : Applicable db approval offer owner now) :
    reconcileApproval db offer approval now = .ok db := by
  have early : ¬ (TimedOut approval now ∨ ¬ BasisValid db offer now) := by
    rintro (⟨pending, _⟩ | lost)
    · exact ApprovalStatus.noConfusion (applicable.given.symm.trans pending)
    · exact lost applicable.basis
  unfold reconcileApproval
  rw [if_neg early, ite_self]
  rfl

theorem Applicable.locked {approval : ApprovalRequest} {offer : Offer} {owner : Owner}
    (applicable : Applicable db approval offer owner now) :
    lockContext db approval.id none = .ok (offer, approval) := by
  have offered := Table.get_of_mem applicable.member
  rw [applicable.about] at offered
  unfold lockContext
  simp only [bind_eq_ok, expect_eq_ok, require_eq_ok, pure_eq_ok]
  exact ⟨approval, Table.get_of_mem applicable.asked, (), .inl trivial, offer, offered, rfl⟩

omit [Platform] in
theorem appliedResult_applying {approval : ApprovalRequest} (given : approval.status = .approved) :
    (appliedResult approval.applying).outcome = .offerAccepted := by
  have status : approval.applying.status = .approved := given
  unfold appliedResult
  dsimp only
  rw [if_neg (fun invalid : approval.applying.effectStatus = .invalidated =>
    EffectStatus.noConfusion invalid), if_pos status]

/-- The application of a timely decision goes through. -/
theorem Applicable.applyNew_eq {approval : ApprovalRequest} {offer : Offer} {owner : Owner}
    {reviewed : Time} {key : ReceiptId} (applicable : Applicable db approval offer owner now)
    (stored : approval.reviewedAt = some reviewed) (timely : reviewed < approval.expiresAt)
    (fresh : db.receipts.get key = none) (hash : Digest) :
    ∃ receipts, applyNew db offer approval key hash now none =
      .ok (effectNotice { db.applying offer approval with receipts } approval.applying
        (appliedResult approval.applying).outcome now, appliedResult approval.applying) := by
  have answered : approval.status ≠ .pending := fun pending =>
    ApprovalStatus.noConfusion (applicable.given.symm.trans pending)
  have effected : applyEffect db offer approval = .ok (db.applying offer approval) := by
    unfold applyEffect
    rw [if_pos ⟨applicable.given, applicable.waits⟩]
    exact (applyApproved_eq_ok stored).mpr ⟨timely, rfl⟩
  have listed : approval.applying ∈ (db.applying offer approval).approvals :=
    Table.mem_put_self applicable.asked rfl
  have final : (db.applying offer approval).approvals.get approval.id = some approval.applying :=
    Table.get_of_mem listed
  refine ⟨(db.applying offer approval).receipts.insertIgnore
    { id := key
      commandHash := hash
      result := .business (appliedResult approval.applying)
      beforeVersion := db.session.version
      afterVersion := (db.applying offer approval).session.version
      committedAt := now }, ?_⟩
  unfold applyNew
  simp only [bind_eq_ok, expect_eq_ok, require_eq_ok]
  exact ⟨db, applicable.reconciled, approval, Table.get_of_mem applicable.asked, (), answered, _,
    effected, (), rfl, approval.applying, final, _, Table.insert_of_free fresh Failure.unique, (), rfl,
    (),
    rfl, (), rfl, rfl⟩

/-- A decision that is not applied yet is applied exactly when its stored time precedes the
stored end of the approval. -/
theorem applies_iff {approval : ApprovalRequest} {offer : Offer} {owner : Owner} {reviewed : Time}
    (shape : Shape db.deal) (supplied : Supplied db) (grounded : Grounded db)
    (truthful : Truthful db.outbox)
    (recorded : db.outbox.get (.approval approval.id .decision) ≠ none)
    (stored : approval.reviewedAt = some reviewed)
    (applicable : Applicable db approval offer owner now) :
    Applies db approval.id offer.id owner now ↔ reviewed < approval.expiresAt := by
  obtain ⟨event, found⟩ := Option.ne_none_iff_exists'.mp recorded
  have terminal : IsTerminal event approval.id := by
    obtain ⟨about, undelivered, payload⟩ :=
      truthful event (Table.mem_of_get found) _ _ (Table.key_of_get found)
    exact ⟨⟨about, undelivered⟩, .inl payload⟩
  have fresh : ∀ key, db.receipts.get (.approvalApply approval.id key) = none := by
    refine fun key => Table.get_eq_none.mpr fun receipt member named => ?_
    obtain ⟨other, asked, same, effect⟩ := (supplied.receipts receipt member).applied _ _ named
    obtain rfl := Table.eq_of_key asked applicable.asked same
    exact effect applicable.waits
  have answered : approval.status ≠ .pending := fun pending =>
    ApprovalStatus.noConfusion (applicable.given.symm.trans pending)
  have present := Table.get_of_mem applicable.asked
  constructor
  · rintro ⟨result, done, _⟩
    unfold applyApproval at done
    simp only [bind_eq_ok, expect_eq_ok] at done
    obtain ⟨_, _, row, locked, _, _, _, _, rest⟩ := done
    obtain rfl := Except.ok.inj (locked.symm.trans applicable.locked)
    rw [fresh] at rest
    unfold applyNew at rest
    simp only [bind_eq_ok, expect_eq_ok] at rest
    obtain ⟨middle, reconciled, current, listed, _, _, applied, effect, _⟩ := rest
    obtain rfl := Except.ok.inj (reconciled.symm.trans applicable.reconciled)
    obtain rfl := Option.some.inj (listed.symm.trans present)
    unfold applyEffect at effect
    rw [if_pos ⟨applicable.given, applicable.waits⟩] at effect
    exact ((applyApproved_eq_ok stored).mp effect).1
  · intro timely
    have valid := applying_valid shape grounded applicable.asked applicable.member applicable.about
      applicable.given stored timely applicable.basis
    obtain ⟨execution, held⟩ := applicable.held
    obtain ⟨receipts, carried⟩ := applicable.applyNew_eq stored timely (fresh
      (digest (EventId.approval approval.id .decision).json).leading)
      (digest (.list [.number approval.id, (EventId.approval approval.id .decision).json,
        event.payload.json]))
    have done : applyApproval db approval.id (.approval approval.id .decision) owner now none =
        .ok (effectNotice { db.applying offer approval with receipts } approval.applying
          (appliedResult approval.applying).outcome now, appliedResult approval.applying) := by
      unfold applyApproval
      simp only [bind_eq_ok, expect_eq_ok, require_eq_ok]
      refine ⟨execution, held, (offer, approval), applicable.locked, event, found, (), terminal, ?_⟩
      rw [fresh]
      exact carried
    exact ⟨_, done, appliedResult_applying applicable.given, { offer with status := .accepted },
      Table.mem_put_self applicable.member rfl, rfl, rfl, valid⟩

/-! ### Runs -/

omit [Platform] in
/-- The transition is a review that accepts the approval: it was open, and it is given then and
without an effect so far. -/
structure Approves (approval : ApprovalRequest) (now : Time)
    (transition : Transition World Event) : Prop where
  called : ∃ seller requestId comment expectedRevision fault, transition.event =
    .call (.review seller approval.id requestId comment true expectedRevision now fault)
  member : approval ∈ transition.before.db.approvals
  pending : approval.status = .pending
  given : ∃ decided ∈ transition.after.db.approvals, decided.id = approval.id ∧
    decided.status = .approved ∧ decided.effectStatus = .notApplied

theorem Approves.stored {before next : World} {event : Event} {approval : ApprovalRequest}
    (reached : Reachable World.Step World.Initial before) (step : World.Step before event next)
    (approves : Approves approval now ⟨before, event, next⟩) :
    next.db.outbox.get (.approval approval.id .decision) ≠ none ∧
      ∃ decided ∈ next.db.approvals, decided.id = approval.id ∧ decided.status = .approved ∧
        decided.expiresAt = approval.expiresAt ∧ decided.reviewedAt = some (datetime now) := by
  obtain ⟨⟨seller, requestId, comment, expectedRevision, fault, called⟩, member, pending, decided,
    found, key, given, effect⟩ := approves
  obtain rfl : event = .call (.review seller approval.id requestId comment true expectedRevision now
    fault) := called
  rcases step.called with idle | done
  · have old : decided ∈ before.db.approvals := idle ▸ found
    obtain rfl := Table.eq_of_key old member key
    exact absurd (pending.symm.trans given) ApprovalStatus.noConfusion
  · obtain ⟨result, reviewed, last⟩ := (map_eq_ok _ _ _).mp done
    have listed : decided ∈ result.1.approvals := last ▸ found
    obtain ⟨ends, stored, recorded⟩ := review_approves (reachable_shape reached) reviewed member rfl
      pending listed key given effect
    exact ⟨last ▸ recorded, decided, found, key, given, ends, stored⟩

theorem run_sameEnds {first last : World} {history : List (Transition World Event)}
    (reached : Reachable World.Step World.Initial first)
    (run : Run World.Step first history last) :
    SameEnds first.db.approvals last.db.approvals := by
  refine run.relates (fun before after => SameEnds before.db.approvals after.db.approvals)
    (fun _ => .of_eq rfl) SameEnds.trans ?_ reached
  intro before event after reached step
  rcases step.performs with same | ⟨transaction, performs⟩
  · exact .of_eq (congrArg Db.approvals same)
  · exact perform_sameEnds (reachable_shape reached) (reachable_supplied reached)
      (reachable_grounded reached) (reachable_priced reached) performs.done performs.within

theorem run_keepsEvents {first last : World} {history : List (Transition World Event)}
    (run : Run World.Step first history last) : KeepsEvents first.db.outbox last.db.outbox := by
  induction run with
  | start => exact .of_eq rfl
  | next _ taken inductionHypothesis =>
    refine inductionHypothesis.trans ?_
    rcases taken.performs with same | ⟨transaction, performs⟩
    · exact .of_eq (congrArg Db.outbox same)
    · exact (perform_effect performs.done).keepsEvents

/-- However much later, a decision that is not applied yet and whose offer has a valid basis is
applied by its owner, and the buyer can confirm the offer then, exactly when the time of the
decision, rounded to a second, precedes the end of the approval. -/
theorem timely_decision_applies {before next : World} {event : Event}
    {approval : ApprovalRequest} (reached : Reachable World.Step World.Initial before)
    (step : World.Step before event next) (approves : Approves approval now ⟨before, event, next⟩) :
    ∀ history last, Run World.Step next history last → ∀ decided offer owner later,
      decided.id = approval.id → Applicable last.db decided offer owner later →
      (Applies last.db approval.id offer.id owner later ↔ datetime now < approval.expiresAt) := by
  intro history last run decided offer owner later key applicable
  have begun := reached.next step
  have arrived := begun.extend run
  obtain ⟨recorded, old, member, same, given, ends, stored⟩ := approves.stored reached step
  obtain ⟨new, found, became⟩ := run_became begun run member
  obtain ⟨ended, listed, endedKey, kept⟩ := run_sameEnds begun run old member
  obtain rfl := Table.eq_of_key found applicable.asked
    ((became.id.trans same).trans key.symm)
  obtain rfl := Table.eq_of_key listed applicable.asked
    ((endedKey.trans same).trans key.symm)
  have answered : old.status ≠ .pending := fun pending =>
    ApprovalStatus.noConfusion (given.symm.trans pending)
  have reviewed := (became.decision answered).2.1.trans stored
  rw [← key] at recorded ⊢
  rw [applies_iff (reachable_shape arrived) (reachable_supplied arrived)
    (reachable_grounded arrived) (reachable_truthful arrived)
    ((run_keepsEvents run).kept _ _ recorded) reviewed applicable, kept, ends]

end

/-! ### The sample session -/

/-- The seller consents at an instant. -/
def consentAt (now : Time) : Event :=
  .call (.review "seller" 6 "consent" none true (some 0) now none)

theorem Approves.of_rows {before after : World} {seller requestId : String} {approvalId : Nat}
    {comment : Option String} {expectedRevision : Option Nat} {fault : Option FaultPoint}
    {now ends : Time}
    (asked : (before.db.approvals.get approvalId).map (fun row => (row.status, row.expiresAt)) =
      some (.pending, ends))
    (decided : (after.db.approvals.get approvalId).map
      (fun row => (row.status, row.effectStatus)) = some (.approved, .notApplied)) :
    ∃ approval, approval.id = approvalId ∧ approval.expiresAt = ends ∧ Approves approval now
      ⟨before, .call (.review seller approvalId requestId comment true expectedRevision now fault),
        after⟩ := by
  obtain ⟨approval, found, facts⟩ := Option.map_eq_some_iff.mp asked
  obtain ⟨given, present, effects⟩ := Option.map_eq_some_iff.mp decided
  obtain ⟨pending, expiry⟩ := Prod.mk.inj facts
  obtain ⟨approved, waits⟩ := Prod.mk.inj effects
  obtain rfl := Table.key_of_get found
  exact ⟨approval, rfl, expiry, ⟨seller, requestId, comment, expectedRevision, fault, rfl⟩,
    Table.mem_of_get found, pending, given, Table.mem_of_get present, Table.key_of_get present,
    approved, waits⟩

theorem Applicable.of_rows [Platform] {db : Db} {approvalId offerId : Nat} {owner : Owner}
    {now : Time} {reviewed : Option Time}
    (held : (lockExecution db approvalId owner now).toOption.isSome = true)
    (decided : (db.approvals.get approvalId).map
      (fun row => (row.status, row.effectStatus, row.offerId, row.reviewedAt)) =
        some (.approved, .notApplied, offerId, reviewed))
    (offered : (db.offers.get offerId).map (fun offer => decide (BasisValid db offer now)) =
      some true) :
    ∃ approval offer, approval.id = approvalId ∧ offer.id = offerId ∧
      approval.reviewedAt = reviewed ∧ Applicable db approval offer owner now := by
  obtain ⟨approval, asked, facts⟩ := Option.map_eq_some_iff.mp decided
  obtain ⟨offer, found, basis⟩ := Option.map_eq_some_iff.mp offered
  simp only [Prod.mk.injEq] at facts
  obtain ⟨given, waits, about, stored⟩ := facts
  obtain rfl := Table.key_of_get asked
  obtain rfl := Table.key_of_get found
  refine ⟨approval, offer, rfl, rfl, stored, ?_, Table.mem_of_get asked, given, waits,
    Table.mem_of_get found, about.symm, of_decide_eq_true basis⟩
  cases locked : lockExecution db approval.id owner now with
  | ok execution => exact ⟨execution, rfl⟩
  | error fault =>
    rw [locked] at held
    exact absurd held Bool.false_ne_true

/-- The seller consents four tenths of a second before the approval ends, and a runner takes the
approval up when it has ended. -/
def lastMoment : List Event :=
  submission ++ [consentAt (seconds 1801 - 400000), .runnerClaim 6 (seconds 1801)]

attribute [local instance] samplePlatform in
/-- A consent in the last half second is accepted, and it cannot be applied although the basis of
the offer is valid. -/
theorem last_moment_is_lost :
    ∃ approval, Reachable World.Step World.Initial (sampleWorld.after submission) ∧
      World.Step (sampleWorld.after submission) (consentAt (seconds 1801 - 400000))
        ((sampleWorld.after submission).next (consentAt (seconds 1801 - 400000))) ∧
      Approves approval (seconds 1801 - 400000)
        ⟨sampleWorld.after submission, consentAt (seconds 1801 - 400000),
          (sampleWorld.after submission).next (consentAt (seconds 1801 - 400000))⟩ ∧
      seconds 1801 - 400000 < approval.expiresAt ∧
      (∃ history, Run World.Step
        ((sampleWorld.after submission).next (consentAt (seconds 1801 - 400000))) history
        (sampleWorld.after lastMoment)) ∧
      ∃ decided offer, decided.id = approval.id ∧
        Applicable (sampleWorld.after lastMoment).db decided offer (7, 1) (seconds 1801) ∧
        ¬ Applies (sampleWorld.after lastMoment).db approval.id offer.id (7, 1)
          (seconds 1801) := by
  have begun : Reachable World.Step World.Initial (sampleWorld.after submission) :=
    World.reachable_after sampleWorld_initial (by decide +kernel : Scheduled 0 submission)
  have arrived : Reachable World.Step World.Initial (sampleWorld.after lastMoment) :=
    World.reachable_after sampleWorld_initial (by decide +kernel : Scheduled 0 lastMoment)
  obtain ⟨approval, key, ends, approves⟩ : ∃ approval : ApprovalRequest, approval.id = 6 ∧
      approval.expiresAt = seconds 1801 ∧ Approves approval (seconds 1801 - 400000)
        ⟨sampleWorld.after submission, consentAt (seconds 1801 - 400000),
          (sampleWorld.after submission).next (consentAt (seconds 1801 - 400000))⟩ :=
    Approves.of_rows (by decide +kernel) (by decide +kernel)
  obtain ⟨decided, offer, same, _, stored, applicable⟩ : ∃ (approval : ApprovalRequest)
      (offer : Offer), approval.id = 6 ∧ offer.id = 5 ∧ approval.reviewedAt = some (seconds 1801) ∧
      Applicable (sampleWorld.after lastMoment).db approval offer (7, 1) (seconds 1801) :=
    Applicable.of_rows (by decide +kernel) (by decide +kernel) (by decide +kernel)
  have overdue : decided.expiresAt = seconds 1801 := by
    have row : (sampleWorld.after lastMoment).db.approvals.get decided.id = some decided :=
      Table.get_of_mem applicable.asked
    have ended : ((sampleWorld.after lastMoment).db.approvals.get 6).map
        ApprovalRequest.expiresAt = some (seconds 1801) := by decide +kernel
    rw [same] at row
    rw [row] at ended
    exact Option.some.inj ended
  have recorded : (sampleWorld.after lastMoment).db.outbox.get (.approval decided.id .decision) ≠
      none := by
    rw [same]
    decide +kernel
  have waited := World.run_history
    (.start ((sampleWorld.after submission).next (consentAt (seconds 1801 - 400000))))
    (by decide +kernel : Scheduled _ [.runnerClaim 6 (seconds 1801)])
  refine ⟨approval, begun, ⟨by decide +kernel, by decide +kernel, rfl⟩, approves, ?_,
    ⟨_, waited⟩, decided, offer, same.trans key.symm, applicable, ?_⟩
  · rw [ends]
    decide
  · rw [key, ← same, applies_iff (reachable_shape arrived) (reachable_supplied arrived)
      (reachable_grounded arrived) (reachable_truthful arrived) recorded stored applicable, overdue]
    exact lt_irrefl _

/-- Three seconds in the seller consents, and a second later the decision has an owner. -/
def decided : List Event := submission ++ [consentAt (seconds 3), .runnerClaim 6 (seconds 4)]

attribute [local instance] samplePlatform in
theorem timely_decision_applies_consent :
    ∃ (approval : ApprovalRequest) (offer : Offer), approval.id = 6 ∧
      (Applies (sampleWorld.after decided).db approval.id offer.id (7, 1) (seconds 4) ↔
        datetime (seconds 3) < approval.expiresAt) ∧ datetime (seconds 3) < approval.expiresAt := by
  obtain ⟨approval, key, ends, approves⟩ : ∃ approval : ApprovalRequest, approval.id = 6 ∧
      approval.expiresAt = seconds 1801 ∧ Approves approval (seconds 3)
        ⟨sampleWorld.after submission, consentAt (seconds 3),
          (sampleWorld.after submission).next (consentAt (seconds 3))⟩ :=
    Approves.of_rows (by decide +kernel) (by decide +kernel)
  obtain ⟨given, offer, same, _, _, applicable⟩ : ∃ (approval : ApprovalRequest)
      (offer : Offer), approval.id = 6 ∧ offer.id = 5 ∧ approval.reviewedAt = some (seconds 3) ∧
      Applicable (sampleWorld.after decided).db approval offer (7, 1) (seconds 4) :=
    Applicable.of_rows (by decide +kernel) (by decide +kernel) (by decide +kernel)
  have waited := World.run_history
    (.start ((sampleWorld.after submission).next (consentAt (seconds 3))))
    (by decide +kernel : Scheduled _ [.runnerClaim 6 (seconds 4)])
  refine ⟨approval, offer, key, timely_decision_applies
    (World.reachable_after sampleWorld_initial (by decide +kernel : Scheduled 0 submission))
    ⟨by decide +kernel, by decide +kernel, rfl⟩ approves _ _
    waited given offer (7, 1) (seconds 4) (same.trans key.symm)
    applicable, ?_⟩
  rw [ends]
  decide

end Negotiation
