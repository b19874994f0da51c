/-
This file asks what becomes of the drafts of a session that is over. Every end
of a session raises its version, so no draft that was made before can be gone
on with; a turn that is planned later can make a new one, and the file proves
that nothing else does.
-/

import SecondhandAgent.Conversation
import SecondhandAgent.Refusals
import SecondhandAgent.Totality

namespace Negotiation

open Store Deal

/-! ### The end of a session -/

instance (deal : Deal) : Decidable deal.Over := inferInstanceAs (Decidable (_ ∨ _))

section

variable [Platform] {db after : Db} {now : Time} {fault : Option FaultPoint}

theorem Placed.version {offer : Offer} {authorization : OfferAuthorization}
    {counterTerms : Option Terms} {result : Result}
    (placed : Placed db offer authorization counterTerms now after result) :
    after.session.version = db.session.version + 1 := by
  cases placed <;> rfl

theorem clearCurrent_version {rejected : Bool} (done : clearCurrent db rejected now = .ok after) :
    after.session.version = db.session.version := by
  unfold clearCurrent at done
  split at done
  · obtain rfl := (pure_eq_ok _ _).mp done
    rfl
  · exact (invalidateOffer_logged (fun _ => currentOffer_current) done).1

theorem lifecycleInTransaction_version {payload : TypedInput} {result : Db × Result}
    (done : lifecycleInTransaction db payload now fault = .ok result) :
    result.1.session.version = db.session.version + 1 := by
  unfold lifecycleInTransaction at done
  simp only [bind_eq_ok, pure_eq_ok] at done
  obtain ⟨_, _, _, _, ended, cleared, rfl⟩ := done
  have version := (invalidateOffer_logged (fun _ => currentOffer_current) cleared).1
  dsimp only
  split <;> exact congrArg (· + 1) version

/-- A command leaves the session as it is or raises its version. -/
theorem carryOut_session {run : NegotiationInput} {payload : TypedInput}
    {quotation : Option Quotation} {result : Db × Result}
    (done : carryOut db run payload quotation now fault = .ok result) :
    result.1.session = db.session ∨ result.1.session.version = db.session.version + 1 := by
  by_cases offers : payload.kind.IsOffer
  · rw [carryOut_offer offers] at done
    unfold placeOffer at done
    simp only [bind_eq_ok, pure_eq_ok] at done
    obtain ⟨_, _, ⟨resolved, outcome⟩, settled, finished, basis, rfl⟩ := done
    have session : finished.session = resolved.session := (recordBasis_frame basis).1
    rw [session]
    cases resolveOfferInTransaction_resolved settled with
    | repeated _ _ unchanged => exact .inl (congrArg Db.session unchanged)
    | placed _ _ _ _ clears _ _ _ placed =>
      exact .inr (placed.version.trans (congrArg (· + 1) (clearCurrent_version clears)))
  · unfold carryOut at done
    split at done
    · next submit => exact absurd (.inl submit) offers
    · next replace => exact absurd (.inr replace) offers
    · unfold confirmInTransaction at done
      simp only [bind_eq_ok, pure_eq_ok] at done
      obtain ⟨_, _, _, _, _, _, _, _, _, _, rfl⟩ := done
      exact .inr rfl
    · exact .inr (lifecycleInTransaction_version done)
    · exact .inr (lifecycleInTransaction_version done)
    · cases done

theorem execute_session {runId expectedVersion : Nat} {owner : Owner} {result : Db × ReceiptResult}
    (done : execute db runId owner expectedVersion now fault = .ok result) :
    result.1.session = db.session ∨ result.1.session.version = db.session.version + 1 := by
  rcases execute_carries done with
    ⟨same, _⟩ | ⟨run, payload, quoted, quotation, finished, outcome, _, carries⟩
  · exact .inl (congrArg Db.session same)
  · have session : quoted.session = db.session := (quoteDraft_frame carries.priced).1
    rw [carries.frame, ← session]
    exact carryOut_session carries.carried

/-- A transaction that ends the session raises its version. -/
theorem perform_ends {transaction : Transaction} (shape : Shape db.deal)
    (done : db.perform transaction = .ok after) (open_ : ¬ db.deal.Over) (isOver : after.deal.Over) :
    db.session.version < after.session.version := by
  by_cases business : transaction.IsBusiness
  · exact absurd ((business_handles shape business done).over_before isOver) open_
  · by_cases acts : transaction.Acts
    · cases transaction with
      | execute =>
        obtain ⟨result, performed, rfl⟩ := (map_eq_ok _ _ _).mp done
        rcases execute_session performed with same | raised
        · have status : result.1.deal.status = db.deal.status :=
            congrArg NegotiationSession.status same
          unfold Over at isOver
          rw [status] at isOver
          exact absurd isOver open_
        · exact raised ▸ Nat.lt_succ_self _
      | _ => exact absurd acts business
    · have same : after.deal = db.deal :=
        congrArg Affairs.deal ((perform_effect done).affairs acts)
      exact absurd (same ▸ isOver) open_

/-! ### Drafts of an older version -/

/-- No draft is newer than the session, and those of a session that is over are older. -/
structure Behind (db : Db) : Prop where
  drafts : ∀ draft ∈ db.drafts, draft.businessVersion ≤ db.session.version
  afterEnd : db.deal.Over → ∀ draft ∈ db.drafts, draft.businessVersion < db.session.version

omit [Platform] in
theorem Behind.unusable (behind : Behind db) (isOver : db.deal.Over) {draft : OfferDraft}
    (member : draft ∈ db.drafts) (now : Time) (version : Nat) :
    ¬ UsableDraft draft db.session now version :=
  fun usable => (behind.afterEnd isOver draft member).ne usable.2.2.2

theorem DraftMove.businessVersion {transaction : Transaction} {old new : OfferDraft}
    (move : DraftMove db transaction old new) : new.businessVersion = old.businessVersion := by
  cases move <;> rfl

/-- A transaction that plans no turn leaves no draft as new as a session that is over. -/
theorem Behind.perform {transaction : Transaction} (behind : Behind db) (shape : Shape db.deal)
    (other : ¬ transaction.IsPlan) (done : db.perform transaction = .ok after) : Behind after := by
  obtain ⟨_, committed⟩ := perform_committed shape done
  have grown : db.session.version ≤ after.session.version := by
    rcases committed.commit.moves with same | next
    · exact same.ge
    · exact next ▸ Nat.le_succ _
  refine ⟨fun new member => ?_, fun isOver new member => ?_⟩
  · obtain ⟨old, listed, move⟩ := perform_drafts shape other done new member
    rw [move.businessVersion]
    exact (behind.drafts old listed).trans grown
  · obtain ⟨old, listed, move⟩ := perform_drafts shape other done new member
    rw [move.businessVersion]
    by_cases before : db.deal.Over
    · exact (behind.afterEnd before old listed).trans_le grown
    · exact (behind.drafts old listed).trans_lt (perform_ends shape done before isOver)

/-! ### Turns in a session that is over -/

variable {scope : TurnScope} {intent : Intent} {ordered : List Intent} {planning : Planning}

omit [Platform] in
/-- The intent states terms of its own, or some that go on with an offer. -/
def MakesDraft (db : Db) (scope : TurnScope) (intent : Intent) : Prop :=
  intent.States scope ∧ ¬ (originalCandidate db scope intent = none ∧ intent.Continues ∧
    (intent.candidate.getD {}).amount = none)

omit [Platform] in
instance : Decidable (MakesDraft db scope intent) := inferInstanceAs (Decidable (_ ∧ ¬ _))

/-- A draft is made for an intent with terms. -/
theorem Drafts.made {statuses : List (String × IntentStatus)} {planned : PlannedDraft}
    (drafts : Drafts db scope statuses intent planned) : MakesDraft db scope intent := by
  obtain ⟨_, states, candidate, merges, _⟩ := drafts
  refine ⟨states, fun ⟨original, asks⟩ => ?_⟩
  unfold Merges at merges
  rw [original] at merges
  exact merges.1 asks

/-- A turn without terms writes no draft. -/
theorem planIntents_rests
    (rests : scope.Clear → ∀ intent ∈ ordered, ¬ MakesDraft db scope intent)
    (done : planIntents scope ordered { db, command := scope.query } = .ok planning) :
    planning.db = db := by
  refine planIntents_induction (fun _ planning => planning.db = db) rfl
    (fun processed intent rest planning plan split same planned => ?_) done
  have member : intent ∈ ordered := split ▸ List.mem_append_right _ List.mem_cons_self
  cases made : plan.draft with
  | none => exact (record_idle planning scope.run.id scope.now intent made).1.trans same
  | some draft =>
    have drafts := (planIntent_case planned).drafts made
    rw [same] at drafts
    exact absurd drafts.made (rests drafts.clear intent member)

omit [Platform] in
theorem draftRow_businessVersion {runId : Nat} {planned : PlannedDraft} :
    (draftRow db runId planned now).businessVersion = db.session.version ∨
      ∃ old ∈ db.drafts, (draftRow db runId planned now).businessVersion = old.businessVersion := by
  unfold draftRow
  dsimp only
  cases found : planned.bound.bind db.drafts.get with
  | none => exact .inl rfl
  | some old =>
    obtain ⟨_, _, present⟩ := Option.bind_eq_some_iff.mp found
    exact .inr ⟨old, Table.mem_of_get present, rfl⟩

/-- The drafts that a turn writes are as new as the session. -/
theorem planIntents_behind (behind : ∀ draft ∈ db.drafts, draft.businessVersion ≤ db.session.version)
    (done : planIntents scope ordered { db, command := scope.query } = .ok planning) :
    ∀ draft ∈ planning.db.drafts, draft.businessVersion ≤ db.session.version := by
  refine (planIntents_induction (fun _ planning => DraftWrites db planning.db ∧
      ∀ draft ∈ planning.db.drafts, draft.businessVersion ≤ db.session.version)
    ⟨show DraftWrites db db from rfl, behind⟩
    (fun processed intent rest planning plan split held planned => ?_) done).2
  obtain ⟨writes, older⟩ := held
  refine ⟨writes.trans (record_writes planning scope.run.id scope.now intent plan), ?_⟩
  cases made : plan.draft with
  | none =>
    rw [(record_idle planning scope.run.id scope.now intent made).1]
    exact older
  | some draft =>
    rw [(record_drafted planning scope.run.id scope.now intent made).1]
    intro new member
    have session : planning.db.session = db.session := by rw [show planning.db = _ from writes]
    rcases mem_storeDraft member with rfl | old
    · rcases draftRow_businessVersion with current | ⟨old, listed, same⟩
      · rw [current, session]
      · exact same ▸ older old listed
    · exact older new old

end

/-! ### Conversations that are over -/

/-- In a session that is over a turn states no terms, unless it does not come to an end. -/
def Conversation.Rests (conversation : Conversation) : Move → Prop
  | .turn runId owner frame now =>
    conversation.world.db.deal.Over →
    ∀ run task payload ordered safe,
      lockOwner conversation.world.db runId owner now = .ok (run, task) →
      conversation.world.db.turns.get runId = none → run.payload = .chat payload →
      safeFrame frame payload.text = .ok (ordered, safe) →
      PlanFits conversation.world.db
        (scopeOf conversation.world.db run payload now ordered safe) ordered →
      (scopeOf conversation.world.db run payload now ordered safe).Clear →
      ∀ intent ∈ ordered, ¬ MakesDraft conversation.world.db
        (scopeOf conversation.world.db run payload now ordered safe) intent
  | .other _ => True

section

variable [Platform] {first before after last : Conversation} {move : Move}
variable {history : List (Transition Conversation Move)}

theorem Behind.step (reached : Reachable World.Step World.Initial before.world)
    (behind : Behind before.world.db) (step : Conversation.Step before move after)
    (rests : before.Rests move) : Behind after.world.db := by
  obtain ⟨timely, allowed, rfl⟩ := step
  cases move with
  | other event =>
    have step : World.Step before.world event (before.world.next event) :=
      ⟨timely, allowed.1, rfl⟩
    show Behind (before.world.next event).db
    rcases step.performs with same | ⟨transaction, done, source, _⟩
    · rw [same]
      exact behind
    · refine behind.perform (reachable_shape reached) ?_ done
      rcases source with rfl | runner
      · exact allowed.2
      · cases transaction with
        | planTurn => exact absurd runner id
        | _ => exact id
  | turn runId owner frame now =>
    unfold Conversation.next Conversation.worldAfter
    dsimp only
    rcases turn_cases before.world.db runId owner frame now with ⟨_, same⟩ |
      ⟨run, task, payload, ordered, safe, planning, owned, rfl, free, plans, _, done⟩
    · rw [same]
      exact behind
    · have found := (lockOwner_eq_ok.mp owned).1
      have fits := (planIntents_ends reached found plans.chat now ordered safe).mp
        ⟨planning, plans.done⟩
      have session : planning.db.session = before.world.db.session := by
        rw [show planning.db = _ from planIntents_writes plans.done]
      have newer := planIntents_behind behind.drafts plans.done
      rw [done]
      refine ⟨fun draft member => ?_, fun isOver draft member => ?_⟩
      · exact session ▸ newer draft member
      · have isOver : before.world.db.deal.Over := by
          have same : planning.db.deal = before.world.db.deal := by
            rw [show planning.db = _ from planIntents_writes plans.done]
            rfl
          exact same ▸ isOver
        have same := planIntents_rests
          (rests isOver run task payload ordered safe owned free plans.chat plans.checked fits)
          plans.done
        have member : draft ∈ planning.db.drafts := member
        rw [same] at member
        exact session ▸ behind.afterEnd isOver draft member

theorem run_behind (initial : World.Initial first.world)
    (run : Run Conversation.Step first history last)
    (rests : ∀ transition ∈ history, transition.before.Rests transition.event) :
    Behind last.world.db := by
  induction run with
  | start =>
    obtain ⟨⟨_, _, _, _, _, _, _, db⟩, _⟩ := initial
    rw [db]
    exact ⟨fun _ member => absurd member (Table.not_mem_empty _),
      fun _ _ member => absurd member (Table.not_mem_empty _)⟩
  | next earlier taken inductionHypothesis =>
    exact (inductionHypothesis fun transition member =>
      rests transition (List.mem_cons_of_mem _ member)).step (Conversation.reached initial earlier)
        taken (rests _ List.mem_cons_self)

/-- A recheck that finds its draft unusable publishes nothing. -/
theorem recheckItem_quiet {db after : Db} {seller : String} {itemId : Nat} {now : Time}
    (unusable : ∀ draft ∈ db.drafts, ∀ version, ¬ UsableDraft draft db.session now version)
    (done : recheckItem db seller itemId now = .ok after) :
    after.messages = db.messages ∧ after.contexts = db.contexts := by
  unfold recheckItem at done
  simp only [bind_eq_ok, expect_eq_ok] at done
  obtain ⟨item, _, draft, found, _, _, done⟩ := done
  rw [if_neg (unusable draft (Table.mem_of_get found) draft.version)] at done
  obtain rfl := (pure_eq_ok _ _).mp done
  exact ⟨rfl, rfl⟩

/-- Nothing that the seller edits publishes anything by itself. -/
theorem edit_quiet {db after : Db} {transaction : Transaction} (edit : transaction.IsEdit)
    (done : db.perform transaction = .ok after) :
    after.messages = db.messages ∧ after.contexts = db.contexts := by
  have writes : SellerWrites db after := by
    cases transaction with
    | updateOwnedProduct => exact updateOwnedProduct_writes done
    | updateOwnedPolicy => exact updateOwnedPolicy_writes done
    | setFact => exact setFact_writes done
    | setRule => exact setRule_writes done
    | _ => exact edit.elim
  rw [show after = _ from writes]
  exact ⟨rfl, rfl⟩

/-- What the seller edits and the rechecks that follow it. -/
def Transaction.UpdatesEvidence (transaction : Transaction) : Prop :=
  transaction.IsEdit ∨ ∃ seller itemId now, transaction = .recheckItem seller itemId now

/-- While no turn states terms in a session that is over, no draft of such a session can be gone
on with, and nothing that the seller states publishes a message or a context in it. -/
theorem ended_sessions_rest (initial : first.Initial) (run : Run Conversation.Step first history last)
    (rests : ∀ transition ∈ history, transition.before.Rests transition.event) :
    ((last.world.db.session.status = .agreed ∨ last.world.db.session.status = .closed) →
      ∀ draft ∈ last.world.db.drafts, ∀ now version,
        ¬ UsableDraft draft last.world.db.session now version) ∧
    ∀ transition ∈ history,
      (transition.before.world.db.session.status = .agreed ∨
        transition.before.world.db.session.status = .closed) →
      ∀ transaction, transition.event = .other (.call transaction) → transaction.UpdatesEvidence →
        transition.after.world.db.messages = transition.before.world.db.messages ∧
        transition.after.world.db.contexts = transition.before.world.db.contexts := by
  refine ⟨fun isOver draft member now version =>
    (run_behind initial.1 run rests).unusable isOver member now version,
    fun transition member isOver transaction called updates => ?_⟩
  obtain ⟨_, past, split, earlier, taken, _⟩ := run.split member
  have behind := run_behind initial.1 earlier fun transition member =>
    rests transition (split ▸ List.mem_append_right _ (List.mem_cons_of_mem _ member))
  obtain ⟨_, _, next⟩ := called ▸ taken
  have world : transition.after.world =
      transition.before.world.next (.call transaction) := congrArg Conversation.world next
  rw [world]
  show (transition.before.world.settleTransaction transaction).db.messages = _ ∧
    (transition.before.world.settleTransaction transaction).db.contexts = _
  unfold World.settleTransaction
  cases done : transition.before.world.db.perform transaction with
  | error fault => exact ⟨rfl, rfl⟩
  | ok after =>
    rcases updates with edit | ⟨seller, itemId, now, rfl⟩
    · exact edit_quiet edit done
    · exact recheckItem_quiet
        (fun draft listed version => behind.unusable isOver listed now version) done

end

/-! ### Two closed sessions -/

def closingFrame : IntentFrame where
  intents := [{ id := "end", type := .closeSession, sourceQuote := "结束协商" }]

theorem closing_checked :
    safeFrame closingFrame "结束协商" = .ok (closingFrame.intents, true) :=
  safeFrame_safe (by decide +kernel) rfl (by decide +kernel) (by decide +kernel)
    (by decide +kernel) (by decide +kernel)

/-- The plan of the turn in which the session is closed. -/
def closingTurn : TurnPlan where
  command := { kind := .close, text := "结束协商" }
  drafts := []
  selected := none

def closingChat : ChatInput where
  text := "结束协商"
  clientViewId := "internal"

/-- The buyer makes the conditional offer and then writes to close the session. -/
def closeWritten [Platform] : List Event := writtenOn conditionalDraft closingChat

def closePlanned [Platform] : List Event :=
  closeWritten ++ [.call (.planTurn 10 (13, 1) closingTurn (seconds 3))]

/-- The session is closed. -/
def closeExecuted : List Event := [.call (.execute 10 (13, 1) 1 (seconds 3) none)]

attribute [local instance] samplePlatform in
/-- The draft of the session that was closed cannot be gone on with. -/
theorem ended_sessions_rest_close :
    ((semanticWorld.after closePlanned).after closeExecuted).db.session.status = .closed ∧
      ∃ draft ∈ ((semanticWorld.after closePlanned).after closeExecuted).db.drafts,
        ¬ UsableDraft draft ((semanticWorld.after closePlanned).after closeExecuted).db.session
          (seconds 4) draft.version := by
  obtain ⟨_, first, firstOthers⟩ := Conversation.run_events (.start (⟨semanticWorld, []⟩ : Conversation))
    (by decide +kernel : Scheduled 0 (written "first" "如果没修过，90元" 3 (seconds 1)))
    (by simp [written, Event.Plans, Transaction.IsPlan])
  obtain ⟨_, drafted⟩ := Conversation.run_plan first (by decide +kernel) conditional_planned
  obtain ⟨_, second, secondOthers⟩ := Conversation.run_events drafted
    (by decide +kernel : Scheduled (semanticWorld.after conditionalDraft).clock
      (closeWritten.drop conditionalDraft.length))
    (by simp [closeWritten, writtenOn, Event.Plans, Transaction.IsPlan])
  rw [← World.after_append] at second
  have closes : planFrame (semanticWorld.after closeWritten).db 10 (13, 1) closingFrame
      (seconds 3) = .ok (semanticWorld.after closePlanned).db :=
    planFrame_after closingChat closingTurn
      (World.reachable_after semanticWorld_initial
        (by decide +kernel : Scheduled 0 closeWritten))
      (by decide +kernel) closing_checked (by decide +kernel) (by decide +kernel)
  obtain ⟨_, planned⟩ := Conversation.run_plan second (by decide +kernel) closes
  obtain ⟨_, whole, thirdOthers⟩ := Conversation.run_events planned
    (by decide +kernel : Scheduled (semanticWorld.after closePlanned).clock closeExecuted)
    (by simp [closeExecuted, Event.Plans, Transaction.IsPlan])
  have closed : ((semanticWorld.after closePlanned).after closeExecuted).db.session.status =
      .closed := by
    decide +kernel
  have unusable := (ended_sessions_rest ⟨semanticWorld_initial, rfl⟩ whole ?_).1 (.inr closed)
  · have drafts : ∃ draft ∈ ((semanticWorld.after closePlanned).after closeExecuted).db.drafts.rows,
        draft.id = 7 := by
      decide +kernel
    obtain ⟨draft, member, _⟩ := drafts
    exact ⟨closed, draft, member, unusable draft member (seconds 4) draft.version⟩
  · have quiet : ∀ {events : List Event} {transition : Transition Conversation Move},
        (∃ event ∈ events, transition.event = .other event) →
          transition.before.Rests transition.event := by
      rintro _ transition ⟨event, _, other⟩
      rw [other]
      trivial
    intro transition member
    rcases List.mem_append.mp member with late | member
    · exact quiet (thirdOthers transition late)
    rcases List.mem_cons.mp member with rfl | member
    · exact fun isOver => absurd isOver
        (by decide +kernel : ¬ (semanticWorld.after closeWritten).db.deal.Over)
    rcases List.mem_append.mp member with middle | member
    · exact quiet (secondOthers transition middle)
    rcases List.mem_cons.mp member with rfl | member
    · exact fun isOver => absurd isOver (by decide +kernel : ¬ (semanticWorld.after
        (written "first" "如果没修过，90元" 3 (seconds 1))).db.deal.Over)
    rw [List.append_nil] at member
    exact quiet (firstOthers transition member)

/-! A session on goods of whose delivery the seller said nothing. -/

def bareWorld : World where
  clock := 0
  db := { sampleDb with session := { buyerId := "buyer", graphVersion := .negotiationV2 } }
  threads _ := {}
  runners := .empty

theorem bareWorld_initial : World.Initial bareWorld :=
  ⟨⟨_, _, _, _, _, _, _, rfl⟩, fun _ => rfl, rfl,
    fun rule member => absurd member (Table.not_mem_empty rule)⟩

/-- The buyer closes the session. -/
def bareClosing : List Event :=
  written "first" "结束协商" 1 (seconds 1) ++
    [.call (.planTurn 1 (4, 1) closingTurn (seconds 1))]

/-- The closing is answered, and the buyer writes an offer under the key 7. -/
def writtenLate [Platform] : List Event :=
  [.call (.execute 1 (4, 1) 1 (seconds 1) none),
    .call (.publishOwned 1 (4, 1) (seconds 2)),
    .call (.finalize 1 (4, 1)
      { runId := 1
        inputSeq := 1
        inputHash := digest (Payload.chat closingChat).json
        configHash := digest (defaultConfig .negotiationV2).json
        graphVersion := .negotiationV2
        publishedMessageId := some 6 } false (seconds 2) (seconds 2))] ++
    written "second" "90元自提" 7 (seconds 3)

/-- The plan of the turn in which the offer is made. -/
def lateTurn : TurnPlan where
  command := { kind := .query, text := "90元自提" }
  drafts :=
    [{ bound := none
       candidate := pickupIntent.candidate.getD {}
       missing := [.factAllowedDeliveryMethods] }]
  selected := none

/-- The turn of the offer is stored. -/
def latePlanned [Platform] : List Event :=
  bareClosing ++ writtenLate ++ [.call (.planTurn 7 (10, 1) lateTurn (seconds 3))]

theorem pickup_listed : [DeliveryMethod.pickup] ≠ [] := by decide

theorem pickup_unique : [DeliveryMethod.pickup].Nodup := by decide

/-- The seller states how the goods can be delivered. -/
def lateEvidence : List Event :=
  [.call (.setFact "seller" (.allowedDeliveryMethods [.pickup] pickup_listed pickup_unique) 1),
    .call (.recheckItem "seller" 12 (seconds 4))]

attribute [local instance] samplePlatform in
/-- An offer that is made in a closed session leaves a draft that can be gone on with, and a
message of the seller's evidence announces it. -/
theorem draft_after_close :
    ∃ history outstanding,
      Run Conversation.Step ⟨bareWorld, []⟩ history
        ⟨(bareWorld.after latePlanned).after lateEvidence, outstanding⟩ ∧
      (bareWorld.after (bareClosing ++ writtenLate)).db.session.status = .closed ∧
      ((bareWorld.after latePlanned).after lateEvidence).db.session.status = .closed ∧
      (∃ draft ∈ ((bareWorld.after latePlanned).after lateEvidence).db.drafts,
        UsableDraft draft ((bareWorld.after latePlanned).after lateEvidence).db.session
          (seconds 4) draft.version) ∧
      ∃ message ∈ ((bareWorld.after latePlanned).after lateEvidence).db.messages,
        message.origin = .source (.draftReady 11 2) := by
  have first := Conversation.run_events (.start (⟨bareWorld, []⟩ : Conversation))
    (by decide +kernel : Scheduled 0 (written "first" "结束协商" 1 (seconds 1)))
    (by simp [written, Event.Plans, Transaction.IsPlan])
  obtain ⟨_, written_, _⟩ := first
  have closes : planFrame (bareWorld.after (written "first" "结束协商" 1 (seconds 1))).db 1 (4, 1)
      closingFrame (seconds 1) = .ok (bareWorld.after bareClosing).db :=
    planFrame_after closingChat closingTurn
      (World.reachable_after bareWorld_initial
        (by decide +kernel : Scheduled 0 (written "first" "结束协商" 1 (seconds 1))))
      (by decide +kernel) closing_checked (by decide +kernel) (by decide +kernel)
  obtain ⟨_, closed⟩ := Conversation.run_plan written_ (by decide +kernel) closes
  obtain ⟨_, late, _⟩ := Conversation.run_events closed
    (by decide +kernel : Scheduled (bareWorld.after bareClosing).clock writtenLate)
    (by simp [writtenLate, written, Event.Plans, Transaction.IsPlan])
  rw [← World.after_append] at late
  have offers : planFrame (bareWorld.after (bareClosing ++ writtenLate)).db 7 (10, 1)
      { intents := [pickupIntent] } (seconds 3) = .ok (bareWorld.after latePlanned).db :=
    planFrame_after { text := "90元自提", clientViewId := "internal" } lateTurn
      (World.reachable_after bareWorld_initial
        (by decide +kernel : Scheduled 0 (bareClosing ++ writtenLate)))
      (by decide +kernel) pickup_checked (by decide +kernel) (by decide +kernel)
  obtain ⟨outstanding, planned⟩ := Conversation.run_plan late (by decide +kernel) offers
  obtain ⟨_, whole, _⟩ := Conversation.run_events planned
    (by decide +kernel : Scheduled (bareWorld.after latePlanned).clock lateEvidence)
    (by simp [lateEvidence, Event.Plans, Transaction.IsPlan])
  refine ⟨_, outstanding, whole, by decide +kernel, by decide +kernel, ?_, ?_⟩
  · exact (by decide +kernel :
      ∃ draft ∈ ((bareWorld.after latePlanned).after lateEvidence).db.drafts.rows,
        UsableDraft draft ((bareWorld.after latePlanned).after lateEvidence).db.session
          (seconds 4) draft.version)
  · exact (by decide +kernel :
      ∃ message ∈ ((bareWorld.after latePlanned).after lateEvidence).db.messages.rows,
        message.origin = .source (.draftReady 11 2))

end Negotiation
