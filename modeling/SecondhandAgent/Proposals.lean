/-
This file proves what becomes of a proposal. A proposal on the terms of a live
buyer offer, made under the same policy, goods and basis, is answered from that
offer and creates nothing. Any other legal proposal below the limit is carried
out: the parts of the transaction are shown to succeed one after the other,
since the keys they write are new and no approval is left open.
-/

import SecondhandAgent.Receipts
import SecondhandAgent.Rounds

namespace Negotiation

open Store Deal

/-! ### Replies and their events -/

/-- A business transaction announces no reply. -/
theorem BusinessWrites.reply_event {before after : Db} (writes : BusinessWrites before after)
    (runId : Nat) :
    after.outbox.get (.delivery (.turnReply runId)) =
      before.outbox.get (.delivery (.turnReply runId)) := by
  induction writes with
  | refl | basis | notice | receipt => rfl
  | trans _ _ first second => exact second.trans first
  | deal writes => rw [show _ = _ from writes]
  | @event db row lawful =>
    show (db.outbox.insertIgnore row).get _ = _
    rw [Table.get_insertIgnore, if_neg]
    rintro ⟨same, _⟩
    obtain ⟨_, kind⟩ := lawful
    rw [← same] at kind
    exact kind.2.2 runId rfl

/-- A reply that is not there is not announced. -/
def RepliesAnnounced (db : Db) : Prop :=
  ∀ runId, db.reply runId = none → db.outbox.get (.delivery (.turnReply runId)) = none

section

variable [Platform] {db after : Db} {now : Time}

omit [Platform] in
theorem RepliesAnnounced.kept (announced : RepliesAnnounced db)
    (replies : ∀ runId, after.reply runId = none → db.reply runId = none)
    (events : ∀ runId, db.outbox.get (.delivery (.turnReply runId)) = none →
      after.outbox.get (.delivery (.turnReply runId)) = none) : RepliesAnnounced after :=
  fun runId absent => events runId (announced runId (replies runId absent))

omit [Platform] in
/-- A reply that is written with its event. -/
theorem RepliesAnnounced.replied {runId : Nat} {result : Result}
    (announced : RepliesAnnounced db)
    (deliveries : after.deliveries = db.deliveries.insertIgnore (replyDelivery runId result now))
    (outbox : after.outbox = db.outbox.insertIgnore (replyEvent runId)) :
    RepliesAnnounced after := by
  intro other absent
  unfold Db.reply at absent
  rw [deliveries, Table.get_insertIgnore] at absent
  rw [outbox, Table.get_insertIgnore]
  by_cases here : other = runId
  · subst here
    cases found : db.deliveries.get (.turnReply other) with
    | none =>
      rw [found] at absent
      exact absurd absent (by simp [replyDelivery])
    | some reply =>
      rw [found] at absent
      exact absurd absent (by simp)
  · have different : SourceId.turnReply other ≠ .turnReply runId :=
      fun same => here (SourceId.turnReply.inj same)
    rw [if_neg fun both => different both.1] at absent
    rw [if_neg fun both => different (EventId.delivery.inj both.1)]
    exact announced other absent

omit [Platform] in
theorem acknowledgeEvents_absent (approvalId : Nat) (events : List EventId) (key : EventId)
    (absent : db.outbox.get key = none) :
    (events.foldl (acknowledgeEvent approvalId) db).outbox.get key = none := by
  induction events generalizing db with
  | nil => exact absent
  | cons first rest inductionHypothesis =>
    refine inductionHypothesis ?_
    unfold acknowledgeEvent
    split
    · exact absent
    · next event found =>
      obtain ⟨listed, _⟩ := Option.filter_eq_some_iff.mp found
      refine (Table.get_put_ne fun same => ?_).trans absent
      have taken : db.outbox.get key = some event :=
        Table.get_eq_some.mpr ⟨Table.mem_of_get listed, same.symm⟩
      exact Option.some_ne_none event (taken.symm.trans absent)

theorem Effect.repliesAnnounced {transaction : Transaction} (announced : RepliesAnnounced db)
    (effect : Effect db transaction after) : RepliesAnnounced after := by
  cases effect with
  | business _ writes =>
    exact announced.kept (fun runId => (writes.reply runId).symm.trans)
      fun runId => (writes.reply_event runId).trans
  | repeated same =>
    rw [same]
    exact announced
  | command _ writes =>
    have done : RepliesAnnounced _ :=
      announced.kept (fun runId => (writes.business.reply runId).symm.trans)
        fun runId => (writes.business.reply_event runId).trans
    exact done.replied (by rw [writes.frame]) (by rw [writes.frame])
  | answered _ writes =>
    have noted : RepliesAnnounced _ := announced
    rw [writes.frame, show _ = _ from writes.drafts]
    exact noted.replied rfl rfl
  | planned _ _ _ writes frame =>
    rw [frame, show _ = _ from writes]
    exact announced
  | published _ writes =>
    refine announced.kept (fun runId absent => ?_) writes.replies
    have same := writes.notices (.turnReply runId)
    unfold Db.reply at absent
    rw [absent] at same
    exact Option.map_eq_none_iff.mp same.symm
  | displayed _ _ _ _ _ _ frame =>
    rw [frame]
    exact announced
  | edited _ writes | executed writes _ =>
    rw [show _ = _ from writes]
    exact announced
  | acknowledged _ frame =>
    refine announced.kept (fun runId absent => ?_) fun runId absent => ?_
    · rw [frame, acknowledgeEvents_writes] at absent
      exact absent
    · rw [frame]
      exact acknowledgeEvents_absent _ _ _ absent
  | queued effect =>
    cases effect with
    | idle frame notices =>
      refine announced.kept (fun runId absent => ?_) fun runId absent => ?_
      · have same := notices (.turnReply runId)
        unfold Db.reply at absent
        rw [absent] at same
        exact Option.map_eq_none_iff.mp same.symm
      · rw [frame]
        exact absent
    | enqueued _ _ _ _ appended =>
      unfold newInput at appended
      simp only [bind_eq_ok, pure_eq_ok] at appended
      obtain ⟨messages, _, tasks, _, inputs, _, rfl⟩ := appended
      exact announced
    | turned _ _ _ _ frame =>
      rw [frame]
      exact announced
  | archived frame =>
    rw [frame]
    exact announced

/-! ### The parts of a proposal succeed -/

omit [Platform] in
theorem raiseAt_none (point : FaultPoint) : raiseAt none point = .ok () :=
  (require_eq_ok _ _ _).mpr (Option.some_ne_none _).symm

omit [Platform] in
/-- Terms that can be authorized state their discount. -/
theorem discount_of_authorized {terms : Terms} {policy : SellerPolicy}
    {authorization : OfferAuthorization}
    (granted : authorized terms policy = .ok authorization) :
    ∃ discount, terms.sellerDiscount.map (·.money) = some discount := by
  unfold authorized authorizeOffer calculateNetIncome at granted
  simp only [bind_eq_ok, expect_eq_ok] at granted
  obtain ⟨_, ⟨_, _, discount, stated, _⟩, _⟩ := granted
  exact ⟨discount, stated⟩

/-- An offer on terms that can be authorized is recorded under the next identifier. -/
theorem newOfferInTransaction_ok {terms : Terms} {policy : SellerPolicy}
    {authorization : OfferAuthorization} (offers : db.offers.Below db.nextId)
    (evidence : db.evidence.Below db.nextId) (proposer : OfferProposer)
    (granted : authorized terms policy = .ok authorization) :
    ∃ result, newOfferInTransaction db terms proposer now = .ok result := by
  obtain ⟨discount, stated⟩ := discount_of_authorized granted
  unfold newOfferInTransaction
  refine bind_ok (newOffer_eq_ok.mpr ⟨discount, stated, rfl⟩) ?_
  refine bind_ok (Table.insert_of_free offers.free _) ?_
  exact bind_ok (Table.insert_of_free evidence.free _) ⟨_, rfl⟩

/-- The effect of an approval can be ended: the receipt of its next revision is new. -/
theorem invalidateApproval_ok {approval : ApprovalRequest}
    (receipts : ∀ receipt ∈ db.receipts, Accounted db.approvals receipt)
    (member : approval ∈ db.approvals) (reason : InvalidReason) (expired : Bool)
    (beforeVersion afterVersion : Nat) :
    ∃ after, invalidateApproval db approval now reason expired beforeVersion afterVersion =
      .ok after := by
  unfold invalidateApproval
  split
  · exact ⟨db, rfl⟩
  · have free : db.receipts.get (.approvalInvalidate approval.id (approval.effectRevision + 1)) =
        none := by
      refine Table.get_eq_none.mpr fun receipt found key => ?_
      obtain ⟨same, asked, keyed, reached⟩ := (receipts receipt found).invalidated _ _ key
      obtain rfl : same = approval := Table.eq_of_key asked member keyed
      exact absurd reached (by omega)
    exact bind_ok (Table.insert_of_free free _) ⟨_, rfl⟩

theorem invalidateApprovalOf_ok
    (receipts : ∀ receipt ∈ db.receipts, Accounted db.approvals receipt) (offerId : Nat)
    (reason : InvalidReason) (afterVersion : Nat) :
    ∃ after, invalidateApprovalOf db offerId now reason afterVersion = .ok after := by
  unfold invalidateApprovalOf
  split
  · exact ⟨db, rfl⟩
  · next found => exact invalidateApproval_ok receipts (mem_of_approvalOf found).1 _ _ _ _

/-- The current offer can be put out of the way. -/
theorem clearCurrent_ok (receipts : ∀ receipt ∈ db.receipts, Accounted db.approvals receipt)
    (rejected : Bool) : ∃ cleared, clearCurrent db rejected now = .ok cleared := by
  unfold clearCurrent
  split
  · exact ⟨db, rfl⟩
  · cases db.currentOffer with
    | none => exact ⟨db, rfl⟩
    | some offer =>
      unfold invalidateOffer
      dsimp only
      split
      · refine invalidateApprovalOf_ok ?_ _ _ _
        exact receipts
      · exact ⟨db, rfl⟩

omit [Platform] in
/-- No approval is open while there is no current offer. -/
theorem Deal.Shape.none_pending {deal : Deal} (shape : Shape deal)
    (vacant : deal.currentOfferId = none) :
    ∀ approval ∈ deal.approvals, approval.status ≠ .pending := by
  intro approval asked pending
  obtain ⟨offer, member, _, _, proposed, _⟩ := shape.pending_waits asked (.inl pending)
  exact shape.no_live vacant member (.inl proposed)

/-- The seller can be asked about an offer that was just placed. -/
theorem openApproval_ok {offer : Offer} (supplied : Supplied db) (asked : Asked db)
    (settled : ∀ approval ∈ db.approvals, approval.status ≠ .pending)
    (key : offer.id = db.nextId) :
    ∃ result, openApproval (db.proposing offer) offer now = .ok result := by
  refine ⟨_, openApproval_eq_ok.mpr ⟨⟨approvalOf_eq_none.mpr fun approval member same => ?_,
    settled⟩, (supplied.approvals.mono (Nat.le_succ _)).free,
    (supplied.executions.mono (Nat.le_succ _)).free, rfl⟩⟩
  obtain ⟨old, found, about⟩ := asked.offered approval member
  have below : old.id < db.nextId := supplied.offers old found
  exact absurd (about.trans (same.trans key)) (Nat.ne_of_lt below)

/-- What is decided about a new buyer offer can be carried out. -/
theorem resolution_ok {offer : Offer} {authorization : OfferAuthorization}
    {counterTerms : Option Terms} (supplied : Supplied db) (asked : Asked db)
    (settled : authorization.canRequestApproval = true →
      ∀ approval ∈ db.approvals, approval.status ≠ .pending)
    (key : offer.id = db.nextId)
    (counters : ∀ terms, counterTerms = some terms →
      ∃ granted, authorized terms db.policy = .ok granted) :
    ∃ result, resolution (db.proposing offer) offer authorization counterTerms now =
      .ok result := by
  unfold resolution
  split
  · exact ⟨_, rfl⟩
  · split
    · next request => exact openApproval_ok supplied asked (settled request) key
    · unfold rejectProposal
      cases counterTerms with
      | none => exact ⟨_, rfl⟩
      | some terms =>
        obtain ⟨granted, authorized_⟩ := counters terms rfl
        have offers : ((db.proposing offer).offers.put { offer with status := .rejected }).Below
            (db.nextId + 1) :=
          ((supplied.offers.mono (Nat.le_succ _)).insertIgnore
            (key ▸ Nat.lt_succ_self db.nextId)).put
        have evidence : (db.proposing offer).evidence.Below (db.nextId + 1) :=
          (supplied.evidence.mono (Nat.le_succ _)).insertIgnore
            (key ▸ Nat.lt_succ_self db.nextId : (proofOf db offer).offerId < db.nextId + 1)
        have made : ∃ result, newOfferInTransaction
            { db.proposing offer with
              offers := (db.proposing offer).offers.put { offer with status := .rejected } }
            terms .agent now = .ok result := by
          refine newOfferInTransaction_ok ?_ ?_ .agent authorized_
          · exact offers
          · exact evidence
        obtain ⟨result, countered⟩ := made
        exact bind_ok countered ⟨_, rfl⟩

/-- A new buyer offer can be placed below the limit. -/
theorem propose_ok {terms : Terms} {counterTerms : Option Terms}
    {authorization : OfferAuthorization} (shape : Shape db.deal) (open_ : db.deal.Open)
    (supplied : Supplied db) (granted : authorized terms db.policy = .ok authorization)
    (limit : db.session.roundCount < db.policy.maxRounds)
    (counters : ∀ answer, counterTerms = some answer →
      Succeeds (authorized answer db.policy) fun granted => granted.canSubmitCounterOffer = true) :
    ∃ result, propose db terms counterTerms authorization now none = .ok result := by
  have counterable : checkCounter db.policy counterTerms = .ok () := by
    unfold checkCounter
    cases counterTerms with
    | none => rfl
    | some answer =>
      obtain ⟨granted, stated, can⟩ := (succeeds_iff _ _).mp (counters answer rfl)
      exact (bind_eq_ok _ _ _).mpr ⟨granted, stated, require_ok can _⟩
  obtain ⟨cleared, clears⟩ : ∃ cleared, clearCurrent db
      (authorization.isAcceptanceProhibited && counterTerms.isNone) now = .ok cleared :=
    clearCurrent_ok supplied.receipts _
  have settles := clearCurrent_settles clears
  have policy : cleared.policy = db.policy := by rw [settles.frame]
  have supply : Supplied cleared := settles.supplied supplied
  obtain ⟨⟨proposed, offer⟩, made⟩ := newOfferInTransaction_ok supply.offers supply.evidence .buyer
    granted
  obtain ⟨offered, free, _, _⟩ := newOfferInTransaction_eq_ok.mp made
  have settled : authorization.canRequestApproval = true →
      ∀ approval ∈ cleared.approvals, approval.status ≠ .pending := by
    intro request
    have possible := authorizeOffer_possible granted (.inr request)
    unfold clearCurrent at clears
    rw [possible, Bool.false_and, if_neg Bool.false_ne_true] at clears
    obtain ⟨moved, vacant, _⟩ := invalidateCurrentOffer_clears shape open_ clears
    exact (moved.shape shape).none_pending vacant
  have resolved : ∃ result, resolution (cleared.proposing offer) offer authorization counterTerms
      now = .ok result := by
    refine resolution_ok supply ((Asked.of_shape shape).settles settles) settled
      (newOffer_core offered).2.1 fun answer stated => ?_
    obtain ⟨granted, stated, _⟩ := (succeeds_iff _ _).mp (counters answer stated)
    exact ⟨granted, policy ▸ stated⟩
  have counted := counted_eq_proposing made
  unfold propose
  refine bind_ok (require_ok limit _) (bind_ok counterable (bind_ok (raiseAt_none _) ?_))
  refine bind_ok clears (bind_ok made (bind_ok (raiseAt_none _) (bind_ok (raiseAt_none _) ?_)))
  dsimp only at counted ⊢
  rw [counted]
  obtain ⟨result, resolved⟩ := resolved
  exact bind_ok resolved (bind_ok (raiseAt_none _) ⟨_, rfl⟩)

/-! ### Legal proposals -/

/-- What a proposal has to satisfy besides the limit: the goods can be negotiated, its terms are
authorized with no condition that is not supported, a replacement names the current offer, and a
counter-offer that goes with it is authorized by itself. -/
structure Legal (db : Db) (payload : TypedInput) (terms : Terms) : Prop where
  available : db.product.status = .available
  supported : Succeeds (authorized terms db.policy) fun granted => granted.conditionsValid = true
  replaces : payload.kind = .replace →
    db.currentOffer ≠ none ∧ payload.offerId = db.currentOffer.map (·.id)
  counters : ∀ answer, payload.counterTerms = some answer →
    Succeeds (authorized answer db.policy) fun granted => granted.canSubmitCounterOffer = true

/-- A legal proposal that repeats nothing is carried out below the limit. -/
theorem resolveOfferInTransaction_ok {payload : TypedInput} {terms : Terms}
    {candidate : Option Candidate} (shape : Shape db.deal) (open_ : db.deal.Open)
    (supplied : Supplied db) (legal : Legal db payload terms)
    (limit : db.session.roundCount < db.policy.maxRounds)
    (fresh : ∀ current, db.currentOffer = some current →
      ¬ Repeats db current terms candidate now) :
    ∃ result, resolveOfferInTransaction db payload terms candidate now none = .ok result := by
  obtain ⟨authorization, granted, valid⟩ := (succeeds_iff _ _).mp legal.supported
  unfold resolveOfferInTransaction
  refine bind_ok (require_ok legal.available _) (bind_ok granted ?_)
  refine bind_ok (require_ok valid _) (bind_ok (require_ok legal.replaces _) ?_)
  split
  · next current filtered =>
    obtain ⟨found, same⟩ := Option.filter_eq_some_iff.mp filtered
    exact absurd (of_decide_eq_true same) (fresh current found)
  · exact propose_ok shape open_ supplied granted limit legal.counters

theorem Resolved.offerId {payload : TypedInput} {terms : Terms} {candidate : Option Candidate}
    {result : Result} (resolved : Resolved db payload terms candidate now after result) :
    ∃ offerId, result.offerId = some offerId := by
  cases resolved with
  | repeated _ _ _ answer =>
    rw [answer]
    exact ⟨_, rfl⟩
  | placed _ _ _ _ _ _ _ _ placed => cases placed <;> exact ⟨_, rfl⟩

omit [Platform] in
theorem notificationInTransaction_of_free {runId : Nat} (free : db.reply runId = none)
    (result : Result) :
    notificationInTransaction db runId result now =
      .ok
        { db with deliveries := db.deliveries.insertIgnore (replyDelivery runId result now) } := by
  have absent : db.deliveries.get (replyDelivery runId result now).id = none := free
  exact (bind_eq_ok _ _ _).mpr ⟨_, Table.insert_of_free absent _, rfl⟩

omit [Platform] in
theorem announce_of_free {runId : Nat}
    (free : db.outbox.get (.delivery (.turnReply runId)) = none) :
    announce db (.turnReply runId) =
      .ok { db with outbox := db.outbox.insertIgnore (replyEvent runId) } := by
  have absent : db.outbox.get (replyEvent runId).id = none := free
  exact (bind_eq_ok _ _ _).mpr ⟨_, Table.insert_of_free absent _, rfl⟩

/-- The answer of a command can be recorded as long as the input has none. -/
theorem recordCommand_ok {run : NegotiationInput} {expectedVersion : Nat} {result : Result}
    (fresh : db.receipts.get (.turnAction run.id) = none)
    (unanswered : db.reply run.id = none)
    (unannounced : db.outbox.get (.delivery (.turnReply run.id)) = none) :
    ∃ after, recordCommand db run expectedVersion result now none = .ok after := by
  unfold recordCommand
  refine bind_ok (Table.insert_of_free fresh _) (bind_ok (raiseAt_none _) ?_)
  refine bind_ok (notificationInTransaction_of_free ?_ _) (bind_ok (raiseAt_none _) ?_)
  · exact unanswered
  · refine bind_ok (announce_of_free ?_) (bind_ok (raiseAt_none _) ⟨_, rfl⟩)
    exact unannounced

end

end Negotiation
