/-
This file proves what becomes of the drafts of a session. Only the planning of a
turn makes a draft or changes what it says. A command submits the draft its turn
selected, new evidence and a refusal have a draft assessed again, and the end of
the session withdraws what is left.
-/

import SecondhandAgent.Backing
import SecondhandAgent.Publishing

namespace Negotiation

open Store Deal

section

variable [Platform] {db quoted finished after : Db} {now : Time} {fault : Option FaultPoint}

/-! ### The moves of a draft -/

/-- The status of a draft that was assessed. -/
def assessedStatus (missing : List Missing) : DraftStatus := if missing = [] then .ready else .pending

/-- What a transaction other than the planning of a turn does to a draft. -/
inductive DraftMove (db : Db) (transaction : Transaction) (draft : OfferDraft) : OfferDraft → Prop
  | kept : DraftMove db transaction draft draft
  | withdrawn : DraftMove db transaction draft { draft with status := .withdrawn }
  | submitted {run : NegotiationInput} {task : ModelExecutionTask} {owner : Owner}
      {expectedVersion : Nat} {now : Time} {fault : Option FaultPoint} {quoted : Db}
      {quotation : Quotation}
      (made : transaction = .execute run.id owner expectedVersion now fault)
      (owned : lockOwner db run.id owner now = .ok (run, task))
      (quotes : Quotes db run now quoted quotation) (selects : quotation.draft = draft) :
      DraftMove db transaction draft { draft with status := .submitted }
  | rechecked {seller : String} {item : VerificationItem} {now : Time}
      (made : transaction = .recheckItem seller item.id now)
      (found : db.verifications.get item.id = some item) (about : item.draftId = draft.id)
      (usable : UsableDraft draft db.session now draft.version) :
      DraftMove db transaction draft
        { draft with
          missing := (assess db draft.candidate now).missing
          status := assessedStatus (assess db draft.candidate now).missing }
  | reopened {run : NegotiationInput} {task : ModelExecutionTask} {owner : Owner}
      {reason : Option String} {checked assessed noticed : Time} {status : DraftStatus}
      (made : transaction = .abortOrQuery run.id owner reason checked assessed noticed)
      (owned : lockOwner db run.id owner checked = .ok (run, task))
      (selected : selectedDraft db run.id = some draft)
      (current : draft.businessVersion = db.session.version)
      (settled : status = draft.status ∧ (assess db draft.candidate assessed).missing = [] ∨
        status = .pending) :
      DraftMove db transaction draft
        { draft with missing := (assess db draft.candidate assessed).missing, status }

theorem DraftMove.id {transaction : Transaction} {old new : OfferDraft}
    (move : DraftMove db transaction old new) : new.id = old.id := by
  cases move <;> rfl

theorem DraftMove.candidate {transaction : Transaction} {old new : OfferDraft}
    (move : DraftMove db transaction old new) : new.candidate = old.candidate := by
  cases move <;> rfl

theorem DraftMove.of_end {transaction : Transaction} {before drafts : Table OfferDraft.id}
    (ends : DraftsEnd before drafts) {draft : OfferDraft} (member : draft ∈ drafts) :
    ∃ old ∈ before, DraftMove db transaction old draft := by
  rcases ends draft member with kept | ⟨old, known, rfl⟩
  · exact ⟨draft, kept, .kept⟩
  · exact ⟨old, known, .withdrawn⟩

/-- Every draft comes from one that was there. -/
def DraftsMove (db : Db) (transaction : Transaction) (after : Db) : Prop :=
  ∀ new ∈ after.drafts, ∃ old ∈ db.drafts, DraftMove db transaction old new

theorem DraftsMove.same {transaction : Transaction} (same : after.drafts = db.drafts) :
    DraftsMove db transaction after := by
  intro draft member
  rw [same] at member
  exact ⟨draft, member, .kept⟩

theorem DraftsMove.ended {transaction : Transaction} (ends : DraftsEnd db.drafts after.drafts) :
    DraftsMove db transaction after := fun _ member =>
  DraftMove.of_end ends member

/-- Writing one draft leaves the others where they were. -/
theorem DraftsMove.put {transaction : Transaction} {old new : OfferDraft}
    (frame : after.drafts = db.drafts.put new) (member : old ∈ db.drafts)
    (move : DraftMove db transaction old new) : DraftsMove db transaction after := by
  intro draft listed
  rw [frame] at listed
  rcases Table.mem_of_mem_put listed with kept | rfl
  · exact ⟨draft, kept, .kept⟩
  · exact ⟨old, member, move⟩

/-! ### Commands -/

theorem Placed.drafts {offer : Offer} {authorization : OfferAuthorization}
    {counterTerms : Option Terms} {result : Result}
    (placed : Placed db offer authorization counterTerms now after result) :
    after.drafts = db.drafts := by
  cases placed <;> rfl

/-- A proposal ends drafts before its own draft is submitted. -/
theorem Resolved.drafts {payload : TypedInput} {terms : Terms} {candidate : Option Candidate}
    {result : Result} (resolved : Resolved db payload terms candidate now after result) :
    DraftsEnd db.drafts after.drafts := by
  cases resolved with
  | repeated _ _ unchanged _ =>
    rw [unchanged]
    exact .refl _
  | placed _ _ _ _ clears _ _ _ placed =>
    rw [placed.drafts]
    exact (clearCurrent_settles clears).drafts

omit [Platform] in
theorem recordBasis_drafts {quotation : Quotation} {result : Result}
    (done : recordBasis db (some quotation) result = .ok after) :
    after.drafts = db.drafts.put { quotation.draft with status := .submitted } := by
  unfold recordBasis at done
  simp only [bind_eq_ok, pure_eq_ok] at done
  obtain ⟨offerId, _, rfl⟩ := done
  rw [limitApproval_frame]

/-- What carrying a command out does to the drafts. -/
theorem carryOut_drafts {run : NegotiationInput} {payload : TypedInput}
    {quotation : Option Quotation} {result : Db × Result}
    (done : carryOut db run payload quotation now fault = .ok result) :
    DraftsEnd db.drafts result.1.drafts ∨ ∃ selected resolved, quotation = some selected ∧
      DraftsEnd db.drafts resolved ∧
        result.1.drafts = resolved.put { selected.draft with status := .submitted } := by
  by_cases offers : payload.kind.IsOffer
  · rw [carryOut_offer offers] at done
    unfold placeOffer at done
    simp only [bind_eq_ok, pure_eq_ok] at done
    obtain ⟨terms, _, ⟨resolved, outcome⟩, settled, finished, basis, rfl⟩ := done
    have ends := (resolveOfferInTransaction_resolved settled).drafts
    cases quotation with
    | none =>
      obtain rfl := (pure_eq_ok _ _).mp basis
      exact .inl ends
    | some selected => exact .inr ⟨selected, resolved.drafts, rfl, ends, recordBasis_drafts basis⟩
  · exact .inl (carryOut_settles offers done).drafts

theorem execute_owned {runId expectedVersion : Nat} {owner : Owner}
    {result : Db × ReceiptResult}
    (done : execute db runId owner expectedVersion now fault = .ok result) :
    ∃ run task, lockOwner db runId owner now = .ok (run, task) := by
  unfold execute at done
  simp only [bind_eq_ok, Prod.exists] at done
  obtain ⟨run, task, locked, _⟩ := done
  exact ⟨run, task, locked⟩

theorem execute_drafts {runId expectedVersion : Nat} {owner : Owner} {result : Db × ReceiptResult}
    (done : execute db runId owner expectedVersion now fault = .ok result) :
    DraftsMove db (.execute runId owner expectedVersion now fault) result.1 := by
  obtain ⟨held, task, owned⟩ := execute_owned done
  rcases execute_carries done with
    ⟨same, _⟩ | ⟨run, payload, quoted, quotation, finished, outcome, rfl, carries⟩
  · rw [same]
    exact .same rfl
  · obtain ⟨found, _⟩ := lockOwner_eq_ok.mp owned
    obtain rfl := Option.some.inj (found.symm.trans carries.found)
    have kept : result.1.drafts = finished.drafts := by rw [carries.frame]
    rcases quoteDraft_quotes carries.priced with ⟨same, _⟩ | ⟨selected, named, _, quotes⟩
    · obtain ⟨rfl, rfl⟩ := Prod.mk.inj same
      rcases carryOut_drafts carries.carried with ends | ⟨_, _, named, _⟩
      · exact .ended (kept ▸ ends)
      · exact absurd named.symm (Option.some_ne_none _)
    · have frame : quoted = _ := quotes.frame
      have unquoted : quoted.drafts = db.drafts := by rw [frame]
      rcases carryOut_drafts carries.carried with ends | ⟨other, resolved, named_, ends, put⟩
      · exact .ended (kept ▸ unquoted ▸ ends)
      · obtain rfl : selected = other := Option.some.inj (Eq.trans (Eq.symm named) named_)
        obtain ⟨_, _, listed⟩ := Option.bind_eq_some_iff.mp quotes.selected
        intro draft member
        rw [kept, put] at member
        rcases Table.mem_of_mem_put member with old | rfl
        · exact DraftMove.of_end (unquoted ▸ ends) old
        · exact ⟨selected.draft, Table.mem_of_get listed, .submitted rfl owned quotes rfl⟩

/-! ### Drafts that are assessed again -/

omit [Platform] in
theorem openVerification_drafts (draftId : Nat) (missing : List Missing) :
    (openVerification db draftId missing).drafts = db.drafts := by
  unfold openVerification
  split <;> rfl

theorem reconsider_drafts (run : NegotiationInput) (stated : Option String) (assessed : Time) :
    (reconsider db run stated assessed).drafts = db.drafts ∨
      ∃ draft status, selectedDraft db run.id = some draft ∧
        draft.businessVersion = db.session.version ∧
        (status = draft.status ∧ (assess db draft.candidate assessed).missing = [] ∨
          status = .pending) ∧
        (reconsider db run stated assessed).drafts = db.drafts.put
          { draft with missing := (assess db draft.candidate assessed).missing, status } := by
  unfold reconsider reopenDraft
  split
  · split
    · exact .inl rfl
    · next draft chosen =>
      obtain ⟨selected, current⟩ := Option.filter_eq_some_iff.mp chosen
      have current := of_decide_eq_true current
      dsimp only
      split
      · next complete =>
        refine .inr ⟨draft, draft.status, selected, current, .inl ⟨rfl, complete⟩, ?_⟩
        rw [complete]
      · rw [openVerification_drafts]
        exact .inr ⟨draft, .pending, selected, current, .inr rfl, rfl⟩
  · exact .inl rfl

theorem abortOrQuery_drafts {runId : Nat} {owner : Owner} {reason : Option String}
    {checked assessed noticed : Time} {result : Db × Result}
    (done : abortOrQuery db runId owner reason checked assessed noticed = .ok result) :
    DraftsMove db (.abortOrQuery runId owner reason checked assessed noticed) result.1 := by
  unfold abortOrQuery notificationInTransaction announce at done
  simp only [bind_eq_ok, Prod.exists] at done
  obtain ⟨run, task, owned, rest⟩ := done
  obtain rfl : run.id = runId := Table.key_of_get (lockOwner_eq_ok.mp owned).1
  split at rest
  · obtain rfl := (pure_eq_ok _ _).mp rest
    exact .same rfl
  · simp only [bind_eq_ok, pure_eq_ok] at rest
    obtain ⟨_, ⟨deliveries, _, rfl⟩, _, ⟨outbox, _, rfl⟩, rfl⟩ := rest
    rcases reconsider_drafts run (reason.filter (· ≠ "")) assessed with
      same | ⟨draft, status, selected, current, settled, put⟩
    · exact .same same
    · obtain ⟨_, _, listed⟩ := Option.bind_eq_some_iff.mp selected
      exact .put put (Table.mem_of_get listed) (.reopened rfl owned selected current settled)

theorem recheckItem_drafts {seller : String} {itemId : Nat}
    (done : recheckItem db seller itemId now = .ok after) :
    DraftsMove db (.recheckItem seller itemId now) after := by
  unfold recheckItem at done
  simp only [bind_eq_ok, expect_eq_ok] at done
  obtain ⟨item, found, draft, listed, _, _, rest⟩ := done
  obtain rfl : item.id = itemId := Table.key_of_get found
  have about : item.draftId = draft.id := (Table.key_of_get listed).symm
  split at rest
  · next usable =>
    have move : DraftMove db (.recheckItem seller item.id now) draft
        { draft with
          missing := (assess db draft.candidate now).missing
          status := assessedStatus (assess db draft.candidate now).missing } :=
      .rechecked rfl found about usable
    have put : (recordAssessment db item draft (assess db draft.candidate now).missing).drafts =
        db.drafts.put
          { draft with
            missing := (assess db draft.candidate now).missing
            status := assessedStatus (assess db draft.candidate now).missing } := by
      unfold recordAssessment assessedStatus
      simp only [decide_eq_true_eq]
    split at rest
    · unfold announceDraft at rest
      simp only [bind_eq_ok, pure_eq_ok] at rest
      obtain ⟨_, _, _, _, rfl⟩ := rest
      exact .put put (Table.mem_of_get listed) move
    · obtain rfl := (pure_eq_ok _ _).mp rest
      exact .put put (Table.mem_of_get listed) move
  · obtain rfl := (pure_eq_ok _ _).mp rest
    exact .same rfl

/-! ### Publications -/

theorem publishItem_drafts {run : Option NegotiationInput} {source : SourceId}
    {result : Db × Option Nat} (done : publishItem db run source now = .ok result) :
    result.1.drafts = db.drafts := by
  unfold publishItem publishNew at done
  simp only [bind_eq_ok] at done
  obtain ⟨item, _, rest⟩ := done
  split at rest
  · obtain rfl := (pure_eq_ok _ _).mp rest
    rfl
  · simp only [bind_eq_ok, pure_eq_ok] at rest
    obtain ⟨messages, _, contextual, recorded, event, _, rfl⟩ := rest
    obtain ⟨frame, _⟩ := recordContext_writes recorded
    show contextual.drafts = db.drafts
    rw [frame]

/-- Of what publishes something, only the recheck touches a draft. -/
theorem published_drafts {transaction : Transaction} (public_ : transaction.IsPublic)
    (done : db.perform transaction = .ok after) : DraftsMove db transaction after := by
  cases transaction with
  | publishOwned =>
    obtain ⟨result, published, rfl⟩ := (map_eq_ok _ _ _).mp done
    unfold publishOwned at published
    simp only [bind_eq_ok] at published
    obtain ⟨_, _, published⟩ := published
    exact .same (publishItem_drafts published)
  | publishNotified =>
    obtain ⟨result, published, rfl⟩ := (map_eq_ok _ _ _).mp done
    unfold publishNotified at published
    simp only [bind_eq_ok] at published
    obtain ⟨_, _, _, _, published⟩ := published
    exact .same (publishItem_drafts published)
  | claimNotification =>
    obtain ⟨result, claimed, rfl⟩ := (map_eq_ok _ _ _).mp done
    unfold claimNotification at claimed
    simp only [bind_eq_ok] at claimed
    obtain ⟨item, _, rest⟩ := claimed
    split at rest <;> obtain rfl := (pure_eq_ok _ _).mp rest <;> exact .same rfl
  | retryNotification =>
    simp only [Db.perform] at done
    unfold retryNotification at done
    simp only [bind_eq_ok, pure_eq_ok] at done
    obtain ⟨item, _, _, _, rfl⟩ := done
    exact .same rfl
  | refreshContext =>
    obtain ⟨result, refreshed, rfl⟩ := (map_eq_ok _ _ _).mp done
    rcases refreshContext_cases refreshed with same | ⟨_, _, _, _, _, _, frame⟩
    · rw [same]
      exact .same rfl
    · rw [frame]
      exact .same rfl
  | recheckItem => exact recheckItem_drafts done
  | _ => exact absurd public_ id

/-! ### Every transaction -/

/-- The planning of a turn. -/
def Transaction.IsPlan : Transaction → Prop
  | .planTurn _ _ _ _ => True
  | _ => False

/-- Whatever does not plan a turn only moves the drafts that are there. -/
theorem perform_drafts {transaction : Transaction} (shape : Shape db.deal)
    (other : ¬ transaction.IsPlan) (done : db.perform transaction = .ok after) :
    DraftsMove db transaction after := by
  cases perform_effect done with
  | business kind _ => exact .ended (business_settles shape kind done).drafts
  | repeated same =>
    rw [same]
    exact .same rfl
  | command made _ =>
    subst made
    obtain ⟨result, performed, rfl⟩ := (map_eq_ok _ _ _).mp done
    exact execute_drafts performed
  | answered made _ =>
    subst made
    obtain ⟨result, performed, rfl⟩ := (map_eq_ok _ _ _).mp done
    exact abortOrQuery_drafts performed
  | planned made =>
    subst made
    exact absurd trivial other
  | published kind _ => exact published_drafts kind done
  | displayed _ _ _ _ _ _ frame =>
    rw [frame]
    exact .same rfl
  | edited _ writes | executed writes _ =>
    rw [show _ = _ from writes]
    exact .same rfl
  | acknowledged _ frame =>
    rw [frame, acknowledgeEvents_writes]
    exact .same rfl
  | queued effect =>
    cases effect with
    | idle frame | turned _ _ _ _ frame =>
      rw [frame]
      exact .same rfl
    | enqueued _ _ _ _ appended =>
      unfold newInput at appended
      simp only [bind_eq_ok, pure_eq_ok] at appended
      obtain ⟨_, _, _, _, _, _, rfl⟩ := appended
      exact .same rfl
  | archived frame =>
    rw [frame]
    exact .same rfl

/-! ### The drafts of a turn -/

omit [Platform] in
/-- The row a planned draft is stored in. -/
def draftRow (db : Db) (runId : Nat) (planned : PlannedDraft) (now : Time) : OfferDraft :=
  let status : DraftStatus := assessedStatus planned.missing
  match planned.bound.bind db.drafts.get with
  | some draft =>
    { draft with
      version := draft.version + 1
      candidate := planned.candidate
      missing := planned.missing
      status }
  | none =>
    { id := db.nextId
      inputId := runId
      candidate := planned.candidate
      missing := planned.missing
      businessVersion := db.session.version
      status
      expiresAt := now + hours 24 }

section

variable {runId : Nat} {planned : PlannedDraft}

omit [Platform]

theorem draftRow_candidate : (draftRow db runId planned now).candidate = planned.candidate := by
  unfold draftRow
  dsimp only
  split <;> rfl

theorem draftRow_missing : (draftRow db runId planned now).missing = planned.missing := by
  unfold draftRow
  dsimp only
  split <;> rfl

theorem draftRow_status :
    (draftRow db runId planned now).status = assessedStatus planned.missing := by
  unfold draftRow
  dsimp only
  split <;> rfl

/-- A draft that is revised keeps its row. -/
theorem draftRow_bound {draft : OfferDraft} (bound : planned.bound = some draft.id)
    (found : db.drafts.get draft.id = some draft) :
    draftRow db runId planned now =
      { draft with
        version := draft.version + 1
        candidate := planned.candidate
        missing := planned.missing
        status := assessedStatus planned.missing } := by
  unfold draftRow
  rw [bound, Option.bind_some, found]

theorem draftRow_new (free : planned.bound = none) :
    draftRow db runId planned now =
      { id := db.nextId
        inputId := runId
        candidate := planned.candidate
        missing := planned.missing
        businessVersion := db.session.version
        status := assessedStatus planned.missing
        expiresAt := now + hours 24 } := by
  unfold draftRow
  rw [free, Option.bind_none]

theorem storeDraft_key :
    (storeDraft db runId planned now).2 = (draftRow db runId planned now).id := by
  unfold storeDraft draftRow
  cases planned.bound.bind db.drafts.get <;> dsimp only <;> split <;> rfl

theorem storeDraft_drafts :
    (storeDraft db runId planned now).1.drafts =
      match planned.bound.bind db.drafts.get with
      | some _ => db.drafts.put (draftRow db runId planned now)
      | none => db.drafts.insertIgnore (draftRow db runId planned now) := by
  unfold storeDraft draftRow assessedStatus
  cases planned.bound.bind db.drafts.get <;> dsimp only <;> split <;>
    first | rfl | exact openVerification_drafts _ _

/-- The drafts after one was stored. -/
theorem storeDraft_get (below : db.drafts.Below db.nextId) (wanted : Nat) :
    (storeDraft db runId planned now).1.drafts.get wanted =
      if wanted = (draftRow db runId planned now).id then some (draftRow db runId planned now)
      else db.drafts.get wanted := by
  rw [storeDraft_drafts]
  cases found : planned.bound.bind db.drafts.get with
  | some draft =>
    obtain ⟨key, _, listed⟩ := Option.bind_eq_some_iff.mp found
    have same : (draftRow db runId planned now).id = draft.id := by
      unfold draftRow
      rw [found]
    have present : db.drafts.get (draftRow db runId planned now).id = some draft := by
      rw [same]
      exact Table.get_of_mem (Table.mem_of_get listed)
    exact Table.get_put present
  | none =>
    have key : (draftRow db runId planned now).id = db.nextId := by
      unfold draftRow
      rw [found]
    show (db.drafts.insertIgnore (draftRow db runId planned now)).get wanted = _
    rw [Table.get_insertIgnore]
    by_cases same : wanted = (draftRow db runId planned now).id
    · have free : db.drafts.get wanted = none := by
        rw [same, key]
        exact below.free
      rw [if_pos ⟨same, free⟩, if_pos same]
    · rw [if_neg fun both => same both.1, if_neg same]

/-- A draft after one was stored is that one or was there before. -/
theorem mem_storeDraft {draft : OfferDraft}
    (member : draft ∈ (storeDraft db runId planned now).1.drafts) :
    draft = draftRow db runId planned now ∨ draft ∈ db.drafts := by
  rw [storeDraft_drafts] at member
  cases found : planned.bound.bind db.drafts.get with
  | some _ =>
    rw [found] at member
    exact (Table.mem_of_mem_put member).symm
  | none =>
    rw [found] at member
    exact Table.mem_insertIgnore member

theorem storeDraft_below (below : db.drafts.Below db.nextId) :
    (storeDraft db runId planned now).1.drafts.Below
      (storeDraft db runId planned now).1.nextId := by
  intro draft member
  have grown := storeDraft_supply db runId planned now
  rcases mem_storeDraft member with rfl | old
  · cases found : planned.bound.bind db.drafts.get with
    | some old =>
      obtain ⟨key, _, listed⟩ := Option.bind_eq_some_iff.mp found
      have same : (draftRow db runId planned now).id = old.id := by
        unfold draftRow
        rw [found]
      rw [same]
      exact (below old (Table.mem_of_get listed)).trans_le grown
    | none =>
      have key : (draftRow db runId planned now).id = db.nextId := by
        unfold draftRow
        rw [found]
      rw [key]
      unfold storeDraft
      rw [found]
      dsimp only
      split
      · exact openVerification_supply (Nat.le_refl _)
      · exact Nat.lt_succ_self _
  · exact (below draft old).trans_le grown

theorem storeDrafts_below (plans : List PlannedDraft) (below : db.drafts.Below db.nextId) :
    (storeDrafts db runId now plans).1.drafts.Below (storeDrafts db runId now plans).1.nextId := by
  induction plans generalizing db with
  | nil => exact below
  | cons first rest inductionHypothesis => exact inductionHypothesis (storeDraft_below below)

end

/-- Drafts are numbered by the supply of the session. -/
theorem reachable_drafts_below {world : World}
    (reached : Reachable World.Step World.Initial world) :
    world.db.drafts.Below world.db.nextId := by
  refine (reached.invariant
    (fun world => Shape world.db.deal ∧ world.db.drafts.Below world.db.nextId)
    (fun world initial => ?_) (fun before event next held step => ?_)).2
  · refine ⟨reachable_shape (.start initial), ?_⟩
    obtain ⟨⟨_, _, _, _, _, _, _, db⟩, _⟩ := initial
    rw [db]
    exact Table.below_empty _
  · obtain ⟨shape, below⟩ := held
    rcases step.performs with same | ⟨transaction, performs⟩
    · rw [same]
      exact ⟨shape, below⟩
    · refine ⟨(perform_op shape performs.done).shape shape, ?_⟩
      have grown := perform_supply shape performs.done
      by_cases plans : transaction.IsPlan
      · cases transaction with
        | planTurn runId owner plan now =>
          have done := performs.done
          simp only [Db.perform] at done
          unfold planTurn at done
          simp only [bind_eq_ok] at done
          obtain ⟨_, _, rest⟩ := done
          split at rest
          · obtain same := (pure_eq_ok _ _).mp rest
            rw [← same]
            exact below
          · simp only [bind_eq_ok, pure_eq_ok] at rest
            obtain ⟨turns, _, stored⟩ := rest
            rw [← stored]
            exact storeDrafts_below plan.drafts below
        | _ => exact plans.elim
      · intro draft member
        obtain ⟨old, listed, move⟩ := perform_drafts shape plans performs.done draft member
        rw [move.id]
        exact (below old listed).trans_le grown

end

end Negotiation
