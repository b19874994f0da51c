/-
This file proves that an identifier is handed out once. The supply only grows,
whatever a transaction does, and every row that is kept under an identifier of
it lies below it; so the next identifier is free in all of these tables.
-/

import SecondhandAgent.Placement

namespace Negotiation

open Store Deal

section

variable [Platform] {db after : Db} {now : Time} {fault : Option FaultPoint}

/-! ### The supply grows -/

omit [Platform] in
theorem revoke_supply {run : NegotiationInput} {task : ModelExecutionTask} {settled retried : Time}
    (done : revoke db run task settled retried = .ok after) : after.nextId = db.nextId := by
  unfold revoke at done
  simp only [bind_eq_ok, pure_eq_ok, saveTask_eq_ok] at done
  obtain ⟨_, ⟨lawful, rfl⟩, rfl⟩ := done
  rfl

theorem enqueue_supply {buyerId requestId : String} {payload : Payload} {config : Option Config}
    {result : Db × Nat} (done : enqueue db buyerId requestId payload config now = .ok result) :
    db.nextId ≤ result.1.nextId := by
  unfold enqueue at done
  simp only [bind_eq_ok] at done
  obtain ⟨_, _, _, _, _, _, _, _, rest⟩ := done
  split at rest
  · simp only [bind_eq_ok, pure_eq_ok] at rest
    obtain ⟨_, _, rfl⟩ := rest
    exact Nat.le_refl _
  · unfold newInput at rest
    simp only [bind_eq_ok, pure_eq_ok] at rest
    obtain ⟨_, _, _, _, seen, _, _, _, stored, ⟨_, _, _, _, _, _, rfl⟩, rfl⟩ := rest
    exact Nat.le_add_right _ 3

omit [Platform] in
theorem claim_supply {runId : Nat} {result : Db × Option Owner}
    (done : claim db runId now = .ok result) : db.nextId ≤ result.1.nextId := by
  have given : ∀ run task, giveUp db run task = .ok result → db.nextId ≤ result.1.nextId := by
    intro run task done
    unfold giveUp at done
    simp only [bind_eq_ok, pure_eq_ok, saveTask_eq_ok] at done
    obtain ⟨_, ⟨lawful, rfl⟩, rfl⟩ := done
    exact Nat.le_refl _
  unfold claim at done
  simp only [bind_eq_ok] at done
  obtain ⟨run, _, stored, _, rest⟩ := done
  split at rest
  · split at rest
    · exact given _ _ rest
    · split at rest
      · exact given _ _ rest
      · unfold grant at rest
        simp only [bind_eq_ok, pure_eq_ok] at rest
        obtain ⟨saved, written, rfl⟩ := rest
        exact Nat.le_succ _
  · obtain rfl := (pure_eq_ok _ _).mp rest
    exact Nat.le_refl _

omit [Platform] in
theorem cleanupInstance_supply {instanceId : Nat} {force : Bool} {result : Db × Bool}
    (done : cleanupInstance db instanceId force now = .ok result) :
    result.1.nextId = db.nextId := by
  unfold cleanupInstance at done
  split at done
  · obtain rfl := (pure_eq_ok _ _).mp done
    rfl
  · simp only [bind_eq_ok] at done
    obtain ⟨run, _, stored, _, rest⟩ := done
    split at rest
    · obtain rfl := (pure_eq_ok _ _).mp rest
      rfl
    · simp only [bind_eq_ok, pure_eq_ok] at rest
      obtain ⟨revoked, ended, rfl⟩ := rest
      unfold revokeOwner at ended
      split at ended
      · have kept := revoke_supply ended
        exact kept
      · obtain rfl := (pure_eq_ok _ _).mp ended
        rfl

omit [Platform] in
theorem supervisorKill_supply {runId instanceId : Nat} {settled retried : Time}
    (done : supervisorKill db runId instanceId settled retried = .ok after) :
    after.nextId = db.nextId := by
  unfold supervisorKill at done
  simp only [bind_eq_ok] at done
  obtain ⟨run, _, stored, _, rest⟩ := done
  split at rest
  · obtain rfl := (pure_eq_ok _ _).mp rest
    rfl
  · split at rest
    · exact revoke_supply rest
    · obtain rfl := (pure_eq_ok _ _).mp rest
      rfl

theorem act_supply {seller requestId reason : String} {target : RecoveryTarget}
    {action : RecoveryAct}
    (done : act db seller target action requestId reason now = .ok after) :
    after.nextId = db.nextId := by
  unfold act at done
  simp only [bind_eq_ok] at done
  obtain ⟨_, _, _, _, _, _, rest⟩ := done
  split at rest
  · simp only [bind_eq_ok, pure_eq_ok] at rest
    obtain ⟨_, _, rfl⟩ := rest
    rfl
  · simp only [bind_eq_ok, pure_eq_ok] at rest
    obtain ⟨recovered, done, actions, _, rfl⟩ := rest
    cases target with
    | notification source =>
      unfold recoverTarget recoverNotification at done
      simp only [bind_eq_ok, pure_eq_ok] at done
      obtain ⟨_, _, _, _, rfl⟩ := done
      rfl
    | run runId =>
      unfold recoverTarget recoverRun at done
      simp only [bind_eq_ok, pure_eq_ok, saveTask_eq_ok] at done
      obtain ⟨_, _, _, _, _, _, _, _, _, _, _, ⟨lawful, rfl⟩, rfl⟩ := done
      rfl

omit [Platform] in
theorem openVerification_supply {bound draftId : Nat} {missing : List Missing}
    (kept : bound ≤ db.nextId) : bound ≤ (openVerification db draftId missing).nextId := by
  unfold openVerification
  split
  · exact kept
  · exact kept.trans (Nat.le_succ _)

omit [Platform] in
theorem storeDraft_supply (db : Db) (runId : Nat) (planned : PlannedDraft) (now : Time) :
    db.nextId ≤ (storeDraft db runId planned now).1.nextId := by
  unfold storeDraft
  cases planned.bound.bind db.drafts.get with
  | some draft =>
    dsimp only
    split
    · exact openVerification_supply (Nat.le_refl _)
    · exact Nat.le_refl _
  | none =>
    dsimp only
    split
    · exact openVerification_supply (Nat.le_succ _)
    · exact Nat.le_succ _

omit [Platform] in
theorem storeDrafts_supply (runId : Nat) (now : Time) (planned : List PlannedDraft) (db : Db) :
    db.nextId ≤ (storeDrafts db runId now planned).1.nextId := by
  induction planned generalizing db with
  | nil => exact Nat.le_refl _
  | cons first rest inductionHypothesis =>
    exact (storeDraft_supply db runId first now).trans (inductionHypothesis _)

omit [Platform] in
theorem planTurn_supply {runId : Nat} {owner : Owner} {plan : TurnPlan}
    (done : planTurn db runId owner plan now = .ok after) : db.nextId ≤ after.nextId := by
  unfold planTurn at done
  simp only [bind_eq_ok] at done
  obtain ⟨_, _, rest⟩ := done
  split at rest
  · obtain rfl := (pure_eq_ok _ _).mp rest
    exact Nat.le_refl _
  · simp only [bind_eq_ok, pure_eq_ok] at rest
    obtain ⟨turns, _, rfl⟩ := rest
    exact storeDrafts_supply runId now plan.drafts db

theorem abortOrQuery_supply {runId : Nat} {owner : Owner} {reason : Option String}
    {checked assessed noticed : Time} {result : Db × Result}
    (done : abortOrQuery db runId owner reason checked assessed noticed = .ok result) :
    db.nextId ≤ result.1.nextId := by
  have reconsidered : ∀ run stated, db.nextId ≤ (reconsider db run stated assessed).nextId := by
    intro run stated
    unfold reconsider reopenDraft
    split
    · split
      · exact Nat.le_refl _
      · dsimp only
        split
        · exact Nat.le_refl _
        · exact openVerification_supply (Nat.le_refl _)
    · exact Nat.le_refl _
  unfold abortOrQuery notificationInTransaction announce at done
  simp only [bind_eq_ok] at done
  obtain ⟨⟨run, task⟩, _, rest⟩ := done
  split at rest
  · obtain rfl := (pure_eq_ok _ _).mp rest
    exact Nat.le_refl _
  · simp only [bind_eq_ok, pure_eq_ok] at rest
    obtain ⟨_, ⟨deliveries, _, rfl⟩, _, ⟨outbox, _, rfl⟩, rfl⟩ := rest
    exact reconsidered _ _

theorem reserveCall_supply {runId : Nat} {owner : Owner} {step : String} {reservedTokens : Int}
    {reservedCost : Option Int} {checked timed : Time} {result : Db × Reservation}
    (done : reserveCall db runId owner step reservedTokens reservedCost checked timed =
      .ok result) : db.nextId ≤ result.1.nextId := by
  unfold reserveCall at done
  simp only [bind_eq_ok] at done
  obtain ⟨_, _, ⟨run, task⟩, _, _, _, rest⟩ := done
  split at rest
  · simp only [bind_eq_ok, pure_eq_ok] at rest
    obtain ⟨_, _, rfl⟩ := rest
    exact Nat.le_refl _
  · unfold admitCall at rest
    simp only [bind_eq_ok, pure_eq_ok] at rest
    obtain ⟨_, _, _, _, ledger, _, rfl⟩ := rest
    exact Nat.le_succ _

theorem publishItem_supply {run : Option NegotiationInput} {source : SourceId}
    {result : Db × Option Nat} (done : publishItem db run source now = .ok result) :
    db.nextId ≤ result.1.nextId := by
  unfold publishItem at done
  simp only [bind_eq_ok] at done
  obtain ⟨item, _, rest⟩ := done
  split at rest
  · obtain rfl := (pure_eq_ok _ _).mp rest
    exact Nat.le_refl _
  · unfold publishNew at rest
    simp only [bind_eq_ok, pure_eq_ok] at rest
    obtain ⟨messages, _, contextual, recorded, event, _, rfl⟩ := rest
    rw [(recordContext_writes recorded).1]
    exact Nat.le_add_right _ 2

omit [Platform] in
theorem claimNotification_supply {source : SourceId} {result : Db × Option Nat}
    (done : claimNotification db source now = .ok result) : db.nextId ≤ result.1.nextId := by
  unfold claimNotification at done
  simp only [bind_eq_ok] at done
  obtain ⟨item, _, rest⟩ := done
  split at rest
  · obtain rfl := (pure_eq_ok _ _).mp rest
    exact Nat.le_succ _
  · obtain rfl := (pure_eq_ok _ _).mp rest
    exact Nat.le_refl _

theorem display_supply {buyerId viewId requestId : String} {contextId : Nat}
    {compared checked displayed : Time} {result : Db × Nat}
    (done : display db buyerId contextId viewId requestId compared checked displayed =
      .ok result) : db.nextId ≤ result.1.nextId := by
  unfold display at done
  simp only [bind_eq_ok] at done
  obtain ⟨_, _, _, _, rest⟩ := done
  split at rest
  · simp only [bind_eq_ok, pure_eq_ok] at rest
    obtain ⟨_, _, rfl⟩ := rest
    exact Nat.le_refl _
  · simp only [bind_eq_ok, pure_eq_ok] at rest
    obtain ⟨_, _, _, _, _, _, acks, _, rfl⟩ := rest
    exact Nat.le_succ _

theorem refreshContext_supply {buyerId requestId : String} {contextId : Nat} {result : Db × Nat}
    (done : refreshContext db buyerId contextId requestId now = .ok result) :
    db.nextId ≤ result.1.nextId := by
  unfold refreshContext at done
  simp only [bind_eq_ok] at done
  obtain ⟨_, _, original, _, _, _, expiry, _, rest⟩ := done
  split at rest
  · simp only [bind_eq_ok, pure_eq_ok] at rest
    obtain ⟨_, _, rfl⟩ := rest
    exact Nat.le_refl _
  · simp only [bind_eq_ok, pure_eq_ok] at rest
    obtain ⟨contexts, _, rfl⟩ := rest
    exact Nat.le_succ _

omit [Platform] in
theorem setRule_supply {seller : String} {data : RuleData}
    (done : setRule db seller data now = .ok after) : db.nextId ≤ after.nextId := by
  unfold setRule at done
  simp only [bind_eq_ok] at done
  obtain ⟨_, _, _, _, rest⟩ := done
  split at rest <;> simp only [bind_eq_ok, pure_eq_ok] at rest <;> obtain ⟨_, _, rfl⟩ := rest
  · exact Nat.le_refl _
  · exact Nat.le_succ _

theorem recheckItem_supply {seller : String} {itemId : Nat}
    (done : recheckItem db seller itemId now = .ok after) : db.nextId ≤ after.nextId := by
  unfold recheckItem at done
  simp only [bind_eq_ok] at done
  obtain ⟨item, _, draft, _, _, _, rest⟩ := done
  split at rest
  · split at rest
    · unfold announceDraft at rest
      simp only [bind_eq_ok, pure_eq_ok] at rest
      obtain ⟨messages, _, contexts, _, rfl⟩ := rest
      exact Nat.le_add_right _ 2
    · obtain rfl := (pure_eq_ok _ _).mp rest
      exact Nat.le_refl _
  · obtain rfl := (pure_eq_ok _ _).mp rest
    exact Nat.le_refl _

omit [Platform] in
theorem claimExecution_supply (db : Db) (approvalId : Nat) (now : Time) :
    db.nextId ≤ (claimExecution db approvalId now).1.nextId := by
  unfold claimExecution
  split
  · exact Nat.le_refl _
  · split
    · exact Nat.le_refl _
    · exact Nat.le_succ _

theorem Placed.supply {offer : Offer} {authorization : OfferAuthorization}
    {counterTerms : Option Terms} {result : Result}
    (placed : Placed db offer authorization counterTerms now after result) :
    db.nextId + 1 ≤ after.nextId := by
  cases placed with
  | accepted | refused => exact Nat.le_refl _
  | asked | countered => exact Nat.le_succ _

omit [Platform] in
theorem recordBasis_supply {quotation : Option Quotation} {result : Result}
    (done : recordBasis db quotation result = .ok after) : after.nextId = db.nextId := by
  unfold recordBasis limitApproval at done
  split at done
  · obtain rfl := (pure_eq_ok _ _).mp done
    rfl
  · simp only [bind_eq_ok, pure_eq_ok] at done
    obtain ⟨_, _, rfl⟩ := done
    split <;> rfl

theorem Deed.supply (deed : Deed now db after) : db.nextId ≤ after.nextId := by
  cases deed with
  | settled settles => rw [settles.frame]
  | quoted => exact Nat.le_succ _
  | placed _ _ _ _ placed => exact (Nat.le_succ _).trans placed.supply
  | based _ _ _ recorded => exact (recordBasis_supply recorded).ge

/-- The supply never shrinks. -/
theorem perform_supply {transaction : Transaction} (shape : Shape db.deal)
    (done : db.perform transaction = .ok after) : db.nextId ≤ after.nextId := by
  by_cases business : transaction.IsBusiness
  · rw [(business_settles shape business done).frame]
  cases transaction <;> simp only [Db.perform, map_eq_ok, Except.ok.injEq] at done
  case enqueue => obtain ⟨result, done, rfl⟩ := done; exact enqueue_supply done
  case claim => obtain ⟨result, done, rfl⟩ := done; exact claim_supply done
  case heartbeat =>
    unfold heartbeat at done
    simp only [bind_eq_ok, pure_eq_ok, saveTask_eq_ok] at done
    obtain ⟨_, _, _, _, _, ⟨_, rfl⟩, rfl⟩ := done
    exact Nat.le_refl _
  case release =>
    unfold release at done
    simp only [bind_eq_ok, pure_eq_ok, saveTask_eq_ok] at done
    obtain ⟨_, _, _, ⟨_, rfl⟩, rfl⟩ := done
    exact Nat.le_refl _
  case finalize =>
    unfold finalize at done
    simp only [bind_eq_ok, pure_eq_ok, saveTask_eq_ok] at done
    obtain ⟨_, _, _, _, _, _, _, _, _, _, _, ⟨_, rfl⟩, rfl⟩ := done
    exact Nat.le_refl _
  case registerInstance =>
    obtain ⟨result, done, rfl⟩ := done
    unfold registerInstance at done
    simp only [bind_eq_ok, pure_eq_ok] at done
    obtain ⟨_, _, rfl⟩ := done
    exact Nat.le_succ _
  case attachOwner =>
    unfold attachOwner at done
    simp only [bind_eq_ok, pure_eq_ok] at done
    obtain ⟨_, _, _, _, _, _, rfl⟩ := done
    exact Nat.le_refl _
  case cleanupInstance =>
    obtain ⟨result, done, rfl⟩ := done
    exact (cleanupInstance_supply done).ge
  case releaseInstance =>
    unfold releaseInstance at done
    simp only [bind_eq_ok, pure_eq_ok] at done
    obtain ⟨_, _, rfl⟩ := done
    exact Nat.le_refl _
  case supervisorKill => exact (supervisorKill_supply done).ge
  case act => exact (act_supply done).ge
  case planTurn => exact planTurn_supply done
  case execute =>
    obtain ⟨result, done, rfl⟩ := done
    exact (execute_deeds (.of_shape shape) done).keeps (fun stage => db.nextId ≤ stage.nextId)
      (fun _ _ deed kept => kept.trans deed.supply) (Nat.le_refl _)
  case abortOrQuery => obtain ⟨result, done, rfl⟩ := done; exact abortOrQuery_supply done
  case reserveCall => obtain ⟨result, done, rfl⟩ := done; exact reserveCall_supply done
  case acceptCall =>
    unfold acceptCall at done
    simp only [bind_eq_ok, pure_eq_ok] at done
    obtain ⟨_, _, _, _, _, _, rfl⟩ := done
    exact Nat.le_refl _
  case settleCall =>
    unfold settleCall at done
    simp only [bind_eq_ok, pure_eq_ok] at done
    obtain ⟨_, _, rfl⟩ := done
    exact Nat.le_refl _
  case publishOwned =>
    obtain ⟨result, done, rfl⟩ := done
    unfold publishOwned at done
    simp only [bind_eq_ok] at done
    obtain ⟨_, _, published⟩ := done
    exact publishItem_supply published
  case claimNotification => obtain ⟨result, done, rfl⟩ := done; exact claimNotification_supply done
  case retryNotification =>
    unfold retryNotification at done
    simp only [bind_eq_ok, pure_eq_ok] at done
    obtain ⟨_, _, _, _, rfl⟩ := done
    exact Nat.le_refl _
  case publishNotified =>
    obtain ⟨result, done, rfl⟩ := done
    unfold publishNotified at done
    simp only [bind_eq_ok] at done
    obtain ⟨_, _, _, _, published⟩ := done
    exact publishItem_supply published
  case display => obtain ⟨result, done, rfl⟩ := done; exact display_supply done
  case refreshContext => obtain ⟨result, done, rfl⟩ := done; exact refreshContext_supply done
  case updateOwnedProduct =>
    unfold updateOwnedProduct at done
    simp only [bind_eq_ok, pure_eq_ok] at done
    obtain ⟨_, _, rfl⟩ := done
    exact Nat.le_refl _
  case updateOwnedPolicy =>
    unfold updateOwnedPolicy at done
    simp only [bind_eq_ok, pure_eq_ok] at done
    obtain ⟨_, _, _, _, _, _, rfl⟩ := done
    exact Nat.le_refl _
  case setFact =>
    unfold setFact at done
    simp only [bind_eq_ok, pure_eq_ok] at done
    obtain ⟨_, _, _, _, rfl⟩ := done
    exact Nat.le_succ _
  case setRule => exact setRule_supply done
  case recheckItem => exact recheckItem_supply done
  case archive =>
    unfold archive at done
    simp only [bind_eq_ok, pure_eq_ok] at done
    obtain ⟨_, _, _, _, rfl⟩ := done
    exact Nat.le_refl _
  case acknowledge =>
    unfold acknowledge at done
    simp only [bind_eq_ok, pure_eq_ok] at done
    obtain ⟨_, _, rfl⟩ := done
    rw [acknowledgeEvents_writes]
  case claimExecution => obtain rfl := done; exact claimExecution_supply _ _ _
  case releaseExecution =>
    unfold releaseExecution at done
    simp only [bind_eq_ok, pure_eq_ok] at done
    obtain ⟨_, _, rfl⟩ := done
    exact Nat.le_refl _
  all_goals exact absurd trivial business

/-! ### Identifiers are handed out once -/

/-- Every row that is kept under an identifier of the supply lies below it, and no receipt
names a revision before an approval has reached it. -/
structure Supplied (db : Db) : Prop where
  offers : db.offers.Below db.nextId
  evidence : db.evidence.Below db.nextId
  quotes : db.quotes.Below db.nextId
  approvals : db.approvals.Below db.nextId
  executions : db.executions.Below db.nextId
  receipts : ∀ receipt ∈ db.receipts, Accounted db.approvals receipt

omit [Platform] in
theorem Settles.below_offers {before : Db} {bound : Nat} (settles : Settles before after)
    (below : before.offers.Below bound) : after.offers.Below bound := by
  intro offer member
  obtain ⟨old, found, core⟩ := settles.offer_before member
  exact core_id core ▸ below old found

omit [Platform] in
theorem Settles.below_approvals {before : Db} {bound : Nat} (settles : Settles before after)
    (below : before.approvals.Below bound) : after.approvals.Below bound := by
  intro approval member
  obtain ⟨old, found, core⟩ := settles.approval_before member
  exact core_approvalId core ▸ below old found

omit [Platform] in
theorem Settles.supplied {before : Db} (settles : Settles before after)
    (supplied : Supplied before) : Supplied after := by
  have offers := settles.below_offers supplied.offers
  have approvals := settles.below_approvals supplied.approvals
  have receipts : ∀ receipt ∈ after.receipts, Accounted after.approvals receipt := by
    intro receipt member
    rcases settles.accounts.receipts receipt member with old | new
    · exact (supplied.receipts receipt old).grown settles.accounts
    · exact new
  have frame := settles.frame
  rw [frame]
  exact ⟨offers, supplied.evidence, supplied.quotes, approvals, supplied.executions, receipts⟩

theorem Placed.supplied {offer : Offer} {authorization : OfferAuthorization}
    {counterTerms : Option Terms} {result : Result} (supplied : Supplied db)
    (key : offer.id = db.nextId)
    (placed : Placed db offer authorization counterTerms now after result) : Supplied after := by
  have next : db.nextId < db.nextId + 1 := Nat.lt_succ_self _
  have later : db.nextId < db.nextId + 2 := Nat.lt_add_of_pos_right (by decide)
  obtain ⟨offers, evidence, quotes, approvals, executions, receipts⟩ := supplied
  cases placed with
  | accepted | refused =>
    exact ⟨(offers.mono next.le).insertIgnore (key ▸ next),
      (evidence.mono next.le).insertIgnore (key ▸ next), quotes.mono next.le,
      approvals.mono next.le, executions.mono next.le, receipts⟩
  | asked =>
    refine ⟨(offers.mono later.le).insertIgnore (key ▸ later),
      (evidence.mono later.le).insertIgnore (key ▸ later), quotes.mono later.le,
      (approvals.mono later.le).insertIgnore (Nat.lt_succ_self _),
      (executions.mono later.le).insertIgnore (Nat.lt_succ_self _),
      fun receipt member => ⟨fun approvalId revision named => ?_, fun approvalId event named => ?_⟩⟩
    · obtain ⟨approval, found, rest⟩ := (receipts receipt member).invalidated approvalId revision named
      exact ⟨approval, Table.mem_insertIgnore_of_mem found, rest⟩
    · obtain ⟨approval, found, rest⟩ := (receipts receipt member).applied approvalId event named
      exact ⟨approval, Table.mem_insertIgnore_of_mem found, rest⟩
  | countered _ _ _ made =>
    have second := (newOffer_core made).2.1
    have below : _ < db.nextId + 2 := second.trans_lt (Nat.lt_succ_self (db.nextId + 1))
    exact ⟨((offers.mono later.le).insertIgnore (key ▸ later)).insertIgnore below,
      ((evidence.mono later.le).insertIgnore (key ▸ later)).insertIgnore below,
      quotes.mono later.le, approvals.mono later.le, executions.mono later.le, receipts⟩

theorem Deed.supplied (deed : Deed now db after) (supplied : Supplied db) : Supplied after := by
  cases deed with
  | settled settles => exact settles.supplied supplied
  | quoted =>
    have next := Nat.le_succ db.nextId
    exact ⟨supplied.offers.mono next, supplied.evidence.mono next,
      (supplied.quotes.mono next).insertIgnore (Nat.lt_succ_self _),
      supplied.approvals.mono next, supplied.executions.mono next, supplied.receipts⟩
  | placed _ offered _ _ placed => exact placed.supplied supplied (newOffer_core offered).2.1
  | @based _ quotation _ _ _ _ recorded =>
    unfold recordBasis limitApproval at recorded
    simp only [bind_eq_ok, pure_eq_ok] at recorded
    obtain ⟨_, _, rfl⟩ := recorded
    split
    · exact ⟨supplied.offers, supplied.evidence, supplied.quotes, supplied.approvals,
        supplied.executions, supplied.receipts⟩
    · next approval found =>
      obtain ⟨_, _, got⟩ := Option.bind_eq_some_iff.mp found
      have limited : Accounts db
          { db with
            approvals := db.approvals.put
              { approval with
                expiresAt := min approval.expiresAt (datetime quotation.quote.expiresAt) } } :=
        .put rfl rfl (Table.mem_of_get got) (.refl approval)
      have receipts : ∀ receipt ∈ db.receipts, Accounted
          (db.approvals.put
            { approval with
              expiresAt := min approval.expiresAt (datetime quotation.quote.expiresAt) }) receipt :=
        fun receipt member => (supplied.receipts receipt member).grown limited
      exact ⟨supplied.offers, supplied.evidence, supplied.quotes, supplied.approvals.put,
        supplied.executions, receipts⟩

omit [Platform] in
/-- Whatever keeps the affairs and the executions and does not shrink the supply. -/
theorem Supplied.kept (supplied : Supplied db) (affairs : after.affairs = db.affairs)
    (executions : after.executions.Below after.nextId) (grown : db.nextId ≤ after.nextId) :
    Supplied after := by
  have offers : after.offers = db.offers := congrArg (·.deal.offers) affairs
  have approvals : after.approvals = db.approvals := congrArg (·.deal.approvals) affairs
  have evidence : after.evidence = db.evidence := congrArg Affairs.evidence affairs
  have quotes : after.quotes = db.quotes := congrArg Affairs.quotes affairs
  have receipts : after.receipts = db.receipts := congrArg Affairs.receipts affairs
  refine ⟨?_, ?_, ?_, ?_, executions, ?_⟩
  · rw [offers]
    exact supplied.offers.mono grown
  · rw [evidence]
    exact supplied.evidence.mono grown
  · rw [quotes]
    exact supplied.quotes.mono grown
  · rw [approvals]
    exact supplied.approvals.mono grown
  · rw [receipts, approvals]
    exact supplied.receipts

theorem perform_supplied {transaction : Transaction} (shape : Shape db.deal) (supplied : Supplied db)
    (done : db.perform transaction = .ok after) : Supplied after := by
  by_cases acts : transaction.Acts
  · by_cases business : transaction.IsBusiness
    · exact (business_settles shape business done).supplied supplied
    · cases transaction with
      | execute =>
        obtain ⟨result, performed, rfl⟩ := (map_eq_ok _ _ _).mp done
        exact (execute_deeds (.of_shape shape) performed).keeps Supplied
          (fun _ _ deed => deed.supplied) supplied
      | _ => exact absurd acts business
  · have effect := perform_effect done
    have grown := perform_supply shape done
    refine supplied.kept (effect.affairs acts) ?_ grown
    rcases effect.executions acts with same | ⟨changed, put⟩
    · rw [same]
      exact supplied.executions.mono grown
    · rw [put]
      exact (supplied.executions.mono grown).put

/-- The tables of every reachable state are supplied. -/
theorem reachable_supplied {world : World} (reached : Reachable World.Step World.Initial world) :
    Supplied world.db := by
  refine (database_invariant (fun db => Shape db.deal ∧ Supplied db) (fun world initial => ?_)
    (fun db transaction after held done => ?_) reached).2
  · refine ⟨initial_shape initial, ?_⟩
    obtain ⟨⟨_, _, _, _, _, _, _, db⟩, _⟩ := initial
    rw [db]
    exact ⟨Table.below_empty _, Table.below_empty _, Table.below_empty _, Table.below_empty _,
      Table.below_empty _, fun _ member => absurd member (Table.not_mem_empty _)⟩
  · obtain ⟨shape, supplied⟩ := held
    exact ⟨(perform_op shape done).shape shape, perform_supplied shape supplied done⟩

end

end Negotiation
