/-
This file says what holds of a session at any time and in any run: when it
waits for the seller, that nothing moves it once it is over, and what can
become of an approval and of the offer it is about. The results are the shape
and the operations of the deal, read on the tables of the database.
-/

import SecondhandAgent.Bargain
import SecondhandAgent.Receipts

namespace Negotiation

open Store Deal

/-! ### Waiting for the seller -/

/-- The approval of an offer that is not answered has had no effect. -/
theorem Deal.Shape.unanswered {deal : Deal} (shape : Shape deal) {approval : ApprovalRequest}
    {offer : Offer} (asked : approval ∈ deal.approvals) (member : offer ∈ deal.offers)
    (about : approval.offerId = offer.id) (proposed : offer.status = .proposed) :
    approval.effectStatus = .notApplied := by
  obtain ⟨_, stands⟩ := shape.offer_of asked member about.symm
  cases stands with
  | waiting _ effect => exact effect
  | applied _ _ _ accepted => exact nomatch accepted.symm.trans proposed
  | refused _ _ _ dead => exact absurd (.inl proposed) dead
  | ended _ _ _ dead => exact absurd (.inl proposed) dead

section

variable [Platform]

/-- A session waits for the seller exactly while its current offer is one of the buyer's that
has an approval without an effect; an approval without an effect is about the current offer;
and the current offer is proposed or accepted. -/
theorem waiting_approval_shape {world : World}
    (reached : Reachable World.Step World.Initial world) :
    (world.db.session.status = .waitingApproval ↔
      ∃ offer ∈ world.db.offers, world.db.session.currentOfferId = some offer.id ∧
        offer.proposer = .buyer ∧ offer.status = .proposed ∧
        ∃ approval ∈ world.db.approvals, approval.offerId = offer.id ∧
          approval.effectStatus = .notApplied) ∧
    (∀ approval ∈ world.db.approvals, approval.effectStatus = .notApplied →
      world.db.session.currentOfferId = some approval.offerId) ∧
    (∀ one ∈ world.db.approvals, ∀ two ∈ world.db.approvals, one.effectStatus = .notApplied →
      two.effectStatus = .notApplied → one = two) ∧
    (∀ offerId, world.db.session.currentOfferId = some offerId →
      ∃ offer ∈ world.db.offers, offer.id = offerId ∧
        (offer.status = .proposed ∨ offer.status = .accepted)) := by
  have shape := reachable_shape reached
  have current : ∀ approval ∈ world.db.approvals, approval.effectStatus = .notApplied →
      world.db.session.currentOfferId = some approval.offerId := by
    intro approval member waits
    obtain ⟨offer, found, about, _, proposed, _⟩ := shape.pending_waits member (.inr waits)
    rw [← about]
    exact shape.live offer found (.inl proposed)
  refine ⟨⟨fun waiting => ?_, ?_⟩, current, ?_, shape.current⟩
  · obtain ⟨offer, member, buyer, proposed⟩ := shape.waiting.mp waiting
    obtain ⟨approval, asked, about⟩ := shape.asked offer member buyer proposed
    exact ⟨offer, member, shape.live offer member (.inl proposed), buyer, proposed, approval, asked,
      about, shape.unanswered asked member about proposed⟩
  · rintro ⟨offer, member, _, buyer, proposed, _⟩
    exact shape.waiting.mpr ⟨offer, member, buyer, proposed⟩
  · intro one oneMember two twoMember oneWaits twoWaits
    have same := (current one oneMember oneWaits).symm.trans (current two twoMember twoWaits)
    exact shape.single one oneMember two twoMember (Option.some.inj same)

end

attribute [local instance] samplePlatform in
/-- A session that was asked for less than the seller takes at once waits. -/
theorem waiting_approval_shape_submission :
    (sampleWorld.after submission).db.session.status = .waitingApproval ∧
      ∃ offer ∈ (sampleWorld.after submission).db.offers,
        (sampleWorld.after submission).db.session.currentOfferId = some offer.id ∧
          offer.status = .proposed := by
  have waiting : (sampleWorld.after submission).db.session.status = .waitingApproval := by
    decide +kernel
  have shape := waiting_approval_shape
    (World.reachable_after sampleWorld_initial (by decide +kernel : Scheduled 0 submission))
  obtain ⟨offer, member, current, _, proposed, _⟩ := shape.1.mp waiting
  exact ⟨waiting, offer, member, current, proposed⟩

/-! ### A session that is over -/

section

variable [Platform] {first last : World} {history : List (Transition World Event)}

/-- Whatever happens to a session that is agreed or closed, the negotiation stays as it is. -/
theorem ended_session_stays (reached : Reachable World.Step World.Initial first)
    (run : Run World.Step first history last)
    (isOver : first.db.session.status = .agreed ∨ first.db.session.status = .closed) :
    last.db.session.status = first.db.session.status ∧
      last.db.session.currentOfferId = first.db.session.currentOfferId ∧
      last.db.session.roundCount = first.db.session.roundCount ∧
      last.db.offers = first.db.offers ∧ last.db.approvals = first.db.approvals := by
  have same : last.db.deal = first.db.deal := by
    induction run with
    | start => rfl
    | @next middle last history event earlier taken inductionHypothesis =>
      have still : middle.db.deal.Over := by
        rw [inductionHypothesis]
        exact isOver
      have reachedMiddle := reached.extend earlier
      rw [(step_op reachedMiddle taken).eq_of_over (reachable_shape reachedMiddle) still]
      exact inductionHypothesis
  exact ⟨congrArg Deal.status same, congrArg Deal.currentOfferId same,
    congrArg Deal.roundCount same, congrArg Deal.offers same, congrArg Deal.approvals same⟩

end

attribute [local instance] samplePlatform in
/-- A consent that is applied after the session was closed changes nothing. -/
theorem ended_session_stays_consent :
    ((sampleWorld.after lateConsent).db.approvals.get 6).map (·.status) = some .approved ∧
      (sampleWorld.after lateConsent).db.session.status = .closed ∧
      ((sampleWorld.after lateConsent).after (runnerSteps 13 12 (seconds 5))).db.session.status =
        (sampleWorld.after lateConsent).db.session.status ∧
      ((sampleWorld.after lateConsent).after (runnerSteps 13 12 (seconds 5))).db.offers =
        (sampleWorld.after lateConsent).db.offers := by
  have isOver : (sampleWorld.after lateConsent).db.session.status = .closed := by decide +kernel
  have reached : Reachable World.Step World.Initial (sampleWorld.after lateConsent) :=
    World.reachable_after sampleWorld_initial (by decide +kernel)
  have run : Run World.Step (sampleWorld.after lateConsent)
      ((sampleWorld.after lateConsent).history [] (runnerSteps 13 12 (seconds 5)))
      ((sampleWorld.after lateConsent).after (runnerSteps 13 12 (seconds 5))) :=
    World.run_history (.start _) (by decide +kernel)
  obtain ⟨status, _, _, offers, _⟩ := ended_session_stays reached run (.inr isOver)
  exact ⟨by decide +kernel, isOver, status, offers⟩

/-! ### What becomes of an approval -/

/-- The effect an approval has had so far. -/
def effectOf (db : Db) (approvalId : Nat) : Option EffectStatus :=
  (db.approvals.get approvalId).map (·.effectStatus)

/-- The transition changes the effect of the approval. -/
def ChangesEffect (approvalId : Nat) (transition : Transition World Event) : Prop :=
  effectOf transition.before.db approvalId ≠ none ∧
    effectOf transition.after.db approvalId ≠ effectOf transition.before.db approvalId

instance (approvalId : Nat) (transition : Transition World Event) :
    Decidable (ChangesEffect approvalId transition) := inferInstanceAs (Decidable (_ ∧ _))

theorem effectOf_of_mem {db : Db} {approval : ApprovalRequest} (member : approval ∈ db.approvals) :
    effectOf db approval.id = some approval.effectStatus := by
  unfold effectOf
  rw [Table.get_of_mem member]
  rfl

/-- The approval as it was and as it became in a run. -/
structure Became (old new : ApprovalRequest) (history : List (Transition World Event)) :
    Prop where
  id : new.id = old.id
  offerId : new.offerId = old.offerId
  decision : old.status ≠ .pending → new.status = old.status ∧ new.reviewedAt = old.reviewedAt ∧
    new.sellerComment = old.sellerComment
  terminal : old.effectStatus = .invalidated → new.effectStatus = .invalidated
  counted : new.effectRevision = old.effectRevision +
    history.countP fun transition => ChangesEffect old.id transition

/-- One more step: the effect changes with the revision, or neither does. -/
theorem Became.next {old middle new : ApprovalRequest} {transition : Transition World Event}
    {history : List (Transition World Event)} (became : Became old middle history)
    (before : middle ∈ transition.before.db.approvals)
    (after : new ∈ transition.after.db.approvals) (evolves : Evolves middle new) :
    Became old new (transition :: history) := by
  have earlier : effectOf transition.before.db old.id = some middle.effectStatus := by
    rw [← became.id]
    exact effectOf_of_mem before
  have later : effectOf transition.after.db old.id = some new.effectStatus := by
    rw [← became.id, ← evolves.id]
    exact effectOf_of_mem after
  have changes : ChangesEffect old.id transition ↔ new.effectStatus ≠ middle.effectStatus := by
    unfold ChangesEffect
    rw [earlier, later]
    simp
  refine ⟨evolves.id.trans became.id, evolves.offerId.trans became.offerId, fun decided => ?_,
    fun invalidated => ?_, ?_⟩
  · obtain ⟨status, reviewed, comment⟩ := became.decision decided
    obtain ⟨laterStatus, laterReviewed, laterComment⟩ := evolves.decision (status ▸ decided)
    exact ⟨laterStatus.trans status, laterReviewed.trans reviewed, laterComment.trans comment⟩
  · have ended := became.terminal invalidated
    rcases evolves.effect with ⟨same, _⟩ | ⟨effective, _⟩
    · exact same.trans ended
    · exact absurd ended effective
  · rw [List.countP_cons]
    have counted := became.counted
    rcases evolves.effect with ⟨same, revision⟩ | ⟨_, _, different, revision⟩
    · have unchanged : ¬ ChangesEffect old.id transition := fun changed => changes.mp changed same
      simp [unchanged, revision, counted]
    · have changed : ChangesEffect old.id transition := changes.mpr different
      simp [changed, revision, counted]
      omega

/-- An approval has had no effect, one, or one that was taken back. -/
theorem Deal.Shape.revision_le {deal : Deal} (shape : Shape deal) {approval : ApprovalRequest}
    (member : approval ∈ deal.approvals) : approval.effectRevision ≤ 2 := by
  obtain ⟨offer, _, _, _, stands⟩ := shape.standing approval member
  cases stands <;> omega

/-- The notice of an approval's revision is the one with that key. -/
theorem Formed.notice_id {records : Records} (formed : Formed records)
    {item : NotificationDelivery} {approvalId revision : Nat}
    (member : item ∈ records.deliveries) (about : item.approvalId = some approvalId)
    (numbered : item.result.effectRevision = some revision) :
    item.id = .approvalResult approvalId revision := by
  have shape := formed.deliveries item member
  unfold NotificationDelivery.Formed at shape
  split at shape
  · exact nomatch shape.2.symm.trans about
  · next otherId other key =>
    rw [key, Option.some.inj (shape.2.1.symm.trans about),
      Option.some.inj (shape.2.2.symm.trans numbered)]
  · exact nomatch shape.2.symm.trans about

section

variable [Platform] {first last : World} {history : List (Transition World Event)}

theorem run_became (reached : Reachable World.Step World.Initial first)
    (run : Run World.Step first history last) {approval : ApprovalRequest}
    (member : approval ∈ first.db.approvals) :
    ∃ new ∈ last.db.approvals, Became approval new history := by
  induction run with
  | start => exact ⟨approval, member, rfl, rfl, fun _ => ⟨rfl, rfl, rfl⟩, id, rfl⟩
  | @next middle last history event earlier taken inductionHypothesis =>
    obtain ⟨between, found, became⟩ := inductionHypothesis
    have reachedMiddle := reached.extend earlier
    have kept := (step_op reachedMiddle taken).kept (reachable_shape reachedMiddle)
    obtain ⟨new, latest, evolves⟩ := kept between found
    exact ⟨new, latest, became.next found latest evolves⟩

theorem run_buried (reached : Reachable World.Step World.Initial first)
    (run : Run World.Step first history last) : Buried first.db.offers last.db.offers := by
  refine run.relates (fun before after => Buried before.db.offers after.db.offers)
    (fun _ _ member _ => member) Buried.trans (fun before event after reached step => ?_) reached
  exact (step_op reached step).buried (reachable_shape reached)

/-- The law of an approval's record. Its decision is never rewritten, an invalidated effect
stays invalidated, the effect revision counts the changes of the effect and is at most two,
each revision has at most one notice, and an offer that was replaced, withdrawn, closed or
turned down stays as it is. -/
theorem approval_record (reached : Reachable World.Step World.Initial first)
    (run : Run World.Step first history last) {approval : ApprovalRequest}
    (member : approval ∈ first.db.approvals) :
    (∃ new ∈ last.db.approvals, new.id = approval.id ∧ new.offerId = approval.offerId ∧
      (approval.status ≠ .pending → new.status = approval.status ∧
        new.reviewedAt = approval.reviewedAt ∧ new.sellerComment = approval.sellerComment) ∧
      (approval.effectStatus = .invalidated → new.effectStatus = .invalidated) ∧
      new.effectRevision = approval.effectRevision +
        history.countP (fun transition => ChangesEffect approval.id transition) ∧
      new.effectRevision ≤ 2) ∧
    (∀ revision, ∀ one ∈ last.db.deliveries, ∀ two ∈ last.db.deliveries,
      one.approvalId = some approval.id → one.result.effectRevision = some revision →
      two.approvalId = some approval.id → two.result.effectRevision = some revision →
      one = two) ∧
    (∀ offer ∈ first.db.offers, offer.id = approval.offerId →
      offer.status = .rejected ∨ offer.status = .withdrawn → offer ∈ last.db.offers) := by
  obtain ⟨new, latest, became⟩ := run_became reached run member
  have shape := reachable_shape (reached.extend run)
  have formed := reachable_formed (reached.extend run)
  refine ⟨⟨new, latest, became.id, became.offerId, became.decision, became.terminal,
    became.counted, shape.revision_le latest⟩, ?_, ?_⟩
  · intro revision one oneMember two twoMember oneAbout oneRevision twoAbout twoRevision
    refine Table.eq_of_key oneMember twoMember ?_
    rw [formed.notice_id oneMember oneAbout oneRevision,
      formed.notice_id twoMember twoAbout twoRevision]
  · intro offer found _ dead
    exact run_buried reached run offer found (not_live_iff.mpr dead)

end

attribute [local instance] samplePlatform in
/-- An approval that was consented to and whose session was closed before the consent was
applied is invalidated, once. -/
theorem approval_record_consent :
    ∃ approval ∈ (sampleWorld.after submission).db.approvals,
      ∃ new ∈ ((sampleWorld.after submission).after (reply lowOffer 8 ++ consent ++ closure)).db.approvals,
        new.id = approval.id ∧ new.effectRevision = approval.effectRevision +
          ((sampleWorld.after submission).history [] (reply lowOffer 8 ++ consent ++ closure)).countP
            (fun transition => ChangesEffect approval.id transition) ∧
          new.effectRevision ≤ 2 := by
  have reached : Reachable World.Step World.Initial (sampleWorld.after submission) :=
    World.reachable_after sampleWorld_initial (by decide +kernel)
  have run : Run World.Step (sampleWorld.after submission)
      ((sampleWorld.after submission).history [] (reply lowOffer 8 ++ consent ++ closure))
      ((sampleWorld.after submission).after (reply lowOffer 8 ++ consent ++ closure)) :=
    World.run_history (.start _) (by decide +kernel)
  have present : (sampleWorld.after submission).db.approvals.get 6 ≠ none := by decide +kernel
  obtain ⟨approval, found⟩ := Option.ne_none_iff_exists'.mp present
  obtain ⟨⟨new, latest, key, _, _, _, counted, atMost⟩, _⟩ :=
    approval_record reached run (Table.mem_of_get found)
  exact ⟨approval, Table.mem_of_get found, new, latest, key, counted, atMost⟩

end Negotiation
