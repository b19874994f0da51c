/-
This file proves what a continuation keeps. An input refers to a draft at the
version the buyer saw; the first intent of its turn that goes on with the draft
keeps every condition and commitment of it, and raises its version, so that no
later intent of the turn finds it any more.
-/

import SecondhandAgent.Planning
import SecondhandAgent.Schedule

namespace Negotiation

open Store

/-! ### Merged candidates -/

/-- The merged candidate keeps what the patch does not name, and every condition and commitment.
An intent that names the pickup and no payer leaves the buyer to pay. -/
structure Keeps (original patch merged : Candidate) : Prop where
  conditions : ∀ condition ∈ original.conditions, condition ∈ merged.conditions
  commitments : ∀ commitment ∈ original.commitments, commitment ∈ merged.commitments
  amount : patch.amount = none → merged.amount = original.amount
  delivery : patch.delivery = none → merged.delivery = original.delivery
  region : patch.region = none → merged.region = original.region
  payer : patch.payer = none → patch.delivery ≠ some .pickup → merged.payer = original.payer

theorem mergeCandidate_keeps {original patch merged : Candidate}
    (done : mergeCandidate original patch = .ok merged) : Keeps original patch merged := by
  unfold mergeCandidate at done
  dsimp only at done
  split at done
  · obtain rfl := Except.ok.inj done
    refine ⟨fun _ => List.mem_append_left _, fun _ => List.mem_append_left _, ?_, ?_, ?_, ?_⟩
    · exact fun none => congrArg (·.or original.amount) none
    · exact fun none => congrArg (·.or original.delivery) none
    · exact fun none => congrArg (·.or original.region) none
    · intro none elsewhere
      show (if _ ∧ _ then _ else patch.payer.or original.payer) = _
      rw [if_neg fun both => elsewhere both.1, none]
      rfl
  · cases done

/-! ### The bound draft on the way -/

section

variable {db after : Db} {run : NegotiationInput} {payload : ChatInput} {now : Time}
variable {bound row : OfferDraft}

/-- The bound draft is found as long as it stays as the buyer saw it. -/
theorem boundDraft_same (bound_ : boundDraft db run payload now = some bound)
    (writes : DraftWrites db after) (found : after.drafts.get bound.id = some bound) :
    boundDraft after run payload now = some bound := by
  obtain ⟨ref, named, got, usable⟩ := boundDraft_eq_some.mp bound_
  obtain key : bound.id = ref.id := Table.key_of_get got
  refine boundDraft_eq_some.mpr ⟨ref, writes.boundRef.trans named, key ▸ found, ?_⟩
  rw [show after = _ from writes]
  exact usable

/-- A draft whose version was raised is not found any more. -/
theorem boundDraft_moved (bound_ : boundDraft db run payload now = some bound)
    (writes : DraftWrites db after) (found : after.drafts.get bound.id = some row)
    (raised : row.version = bound.version + 1) : boundDraft after run payload now = none := by
  obtain ⟨ref, named, got, usable⟩ := boundDraft_eq_some.mp bound_
  obtain key : bound.id = ref.id := Table.key_of_get got
  have seen : bound.version = ref.version := usable.1
  cases still : boundDraft after run payload now with
  | none => rfl
  | some other =>
    obtain ⟨reference, again, other_, live⟩ := boundDraft_eq_some.mp still
    rw [writes.boundRef, named] at again
    obtain rfl := Option.some.inj again
    rw [← key, found] at other_
    obtain rfl := Option.some.inj other_
    have version : row.version = ref.version := live.1
    omega

end

/-! ### The intents of a turn -/

/-- The intent went on with something and came to a draft. -/
def Entry.Continued (entry : Entry) : Prop := entry.draft ≠ none ∧ entry.intent.Continues

instance (entry : Entry) : Decidable entry.Continued := inferInstanceAs (Decidable (_ ∧ _))

/-- The first continuation of the turn. -/
def Planning.continued (planning : Planning) : Option Entry :=
  planning.log.find? fun entry => entry.Continued

section

variable [Platform] {db : Db} {scope : TurnScope} {bound : OfferDraft} {planning : Planning}

/-- The first continuation revised the bound draft and kept what it said. -/
structure Revised (db : Db) (bound : OfferDraft) (entry : Entry) : Prop where
  revises : ∃ planned row, entry.draft = some (bound.id, planned) ∧
    Keeps bound.candidate (entry.intent.candidate.getD {}) planned.candidate ∧
    db.drafts.get bound.id = some row ∧ row.candidate = planned.candidate ∧
    row.version = bound.version + 1

/-- The bound draft waits for its first continuation, or it was revised by it. -/
structure Continuing (db : Db) (scope : TurnScope) (bound : OfferDraft) (planning : Planning) :
    Prop where
  writes : DraftWrites db planning.db
  below : planning.db.drafts.Below planning.db.nextId
  waits : planning.continued = none → planning.db.drafts.get bound.id = some bound
  revised : ∀ entry, planning.continued = some entry → Revised planning.db bound entry

omit [Platform] in
theorem continued_record (planning : Planning) (runId : Nat) (now : Time) (intent : Intent) (plan : IntentPlan) :
    (planning.record runId now intent plan).continued =
      planning.continued.or
        (if plan.draft ≠ none ∧ intent.Continues then
          some { intent, status := plan.status, draft := planning.stored runId now plan }
        else none) := by
  unfold Planning.continued
  rw [record_log, List.find?_append]
  congr 1
  have made : planning.stored runId now plan ≠ none ↔ plan.draft ≠ none := by
    unfold Planning.stored
    cases plan.draft <;> simp
  unfold Entry.Continued
  by_cases continues : plan.draft ≠ none ∧ intent.Continues
  · rw [if_pos continues]
    exact List.find?_cons_of_pos (decide_eq_true ⟨made.mpr continues.1, continues.2⟩)
  · rw [if_neg continues, List.find?_cons_of_neg, List.find?_nil]
    exact fun holds => continues ⟨made.mp (of_decide_eq_true holds).1, (of_decide_eq_true holds).2⟩

omit [Platform] in
/-- A draft that is new leaves the bound one alone. -/
theorem storeDraft_beside {planned : PlannedDraft} {runId : Nat} {now : Time} {row : OfferDraft}
    {key : Nat} (below : db.drafts.Below db.nextId) (new : planned.bound = none)
    (found : db.drafts.get key = some row) :
    (storeDraft db runId planned now).1.drafts.get key = some row := by
  rw [storeDraft_get below, draftRow_new new, if_neg, found]
  have present := below row (Table.mem_of_get found)
  rw [Table.key_of_get found] at present
  exact Nat.ne_of_lt present

/-- The first continuation goes on with the bound draft. -/
theorem Drafts.continues {intent : Intent} {planned : PlannedDraft}
    {statuses : List (String × IntentStatus)} (drafts : Drafts db scope statuses intent planned)
    (bound_ : boundDraft db scope.run scope.payload scope.now = some bound)
    (continues : intent.Continues) :
    planned.bound = some bound.id ∧
      Keeps bound.candidate (intent.candidate.getD {}) planned.candidate := by
  obtain ⟨_, _, candidate, merges, rfl⟩ := drafts
  unfold Merges originalCandidate at merges
  rw [bound_] at merges
  dsimp only at merges
  rw [if_pos continues] at merges
  refine ⟨?_, mergeCandidate_keeps merges⟩
  unfold plannedDraft
  rw [bound_, Option.filter_some, if_pos (decide_eq_true continues)]
  rfl

/-- Without a bound draft, and without going on with it, an intent makes a new draft. -/
theorem Drafts.new {intent : Intent} {planned : PlannedDraft}
    {statuses : List (String × IntentStatus)} (drafts : Drafts db scope statuses intent planned)
    (apart : boundDraft db scope.run scope.payload scope.now = none ∨ ¬ intent.Continues) :
    planned.bound = none := by
  obtain ⟨_, _, candidate, _, rfl⟩ := drafts
  unfold plannedDraft
  rcases apart with unbound | passive
  · rw [unbound]
    rfl
  · rw [Option.filter_eq_none_iff.mpr fun _ _ holds => passive (of_decide_eq_true holds)]
    rfl

theorem Continuing.record {intent : Intent} {plan : IntentPlan}
    (bound_ : boundDraft db scope.run scope.payload scope.now = some bound)
    (held : Continuing db scope bound planning)
    (done : planIntent planning.db scope planning.statuses intent = .ok plan) :
    Continuing db scope bound (planning.record scope.run.id scope.now intent plan) := by
  obtain ⟨writes, below, waits, revised⟩ := held
  have written := writes.trans (record_writes planning scope.run.id scope.now intent plan)
  have continued := continued_record planning scope.run.id scope.now intent plan
  cases made : plan.draft with
  | none =>
    rw [made, if_neg fun both => both.1 rfl, Option.or_none] at continued
    obtain ⟨same, _⟩ := record_idle planning scope.run.id scope.now intent made
    refine ⟨written, ?_, fun none => ?_, fun entry first => ?_⟩
    · rw [same]
      exact below
    · rw [same]
      exact waits (continued ▸ none)
    · rw [same]
      exact revised entry (continued ▸ first)
  | some planned =>
    have drafts := (planIntent_case done).drafts made
    obtain ⟨same, _⟩ := record_drafted planning scope.run.id scope.now intent made
    have grown : (planning.record scope.run.id scope.now intent plan).db.drafts.Below
        (planning.record scope.run.id scope.now intent plan).db.nextId := by
      rw [same]
      exact storeDraft_below below
    have beside : planned.bound = none → ∀ row, planning.db.drafts.get bound.id = some row →
        (planning.record scope.run.id scope.now intent plan).db.drafts.get bound.id = some row := by
      intro new row found
      rw [same]
      exact storeDraft_beside below new found
    by_cases continues : intent.Continues
    · rw [if_pos ⟨made ▸ Option.some_ne_none _, continues⟩] at continued
      cases before : planning.continued with
      | none =>
        have found := waits before
        obtain ⟨revises, keeps⟩ := drafts.continues (boundDraft_same bound_ writes found) continues
        rw [before, Option.none_or] at continued
        refine ⟨written, grown, fun none => ?_, fun entry first => ?_⟩
        · rw [continued] at none
          cases none
        · obtain rfl := Option.some.inj (continued.symm.trans first)
          have key : (storeDraft planning.db scope.run.id planned scope.now).2 = bound.id := by
            rw [storeDraft_key, draftRow_bound revises found]
          refine ⟨planned, draftRow planning.db scope.run.id planned scope.now, ?_, keeps, ?_,
            draftRow_candidate, ?_⟩
          · unfold Planning.stored
            rw [made, Option.map_some, key]
          · rw [same, storeDraft_get below, if_pos (key.symm.trans storeDraft_key)]
          · rw [draftRow_bound revises found]
      | some entry =>
        obtain ⟨planned, row, drafted, keeps, found, stated, raised⟩ :=
          (revised entry before).revises
        have new := drafts.new (.inl (boundDraft_moved bound_ writes found raised))
        rw [before, Option.some_or] at continued
        refine ⟨written, grown, fun none => ?_, fun other first => ?_⟩
        · rw [continued] at none
          cases none
        · obtain rfl := Option.some.inj (continued.symm.trans first)
          exact ⟨planned, row, drafted, keeps, beside new row found, stated, raised⟩
    · rw [if_neg fun both => continues both.2, Option.or_none] at continued
      have new := drafts.new (.inr continues)
      refine ⟨written, grown, fun none => beside new _ (waits (continued ▸ none)),
        fun entry first => ?_⟩
      obtain ⟨planned, row, drafted, keeps, found, stated, raised⟩ :=
        (revised entry (continued ▸ first)).revises
      exact ⟨planned, row, drafted, keeps, beside new row found, stated, raised⟩

theorem planIntents_continuing {ordered : List Intent}
    (bound_ : boundDraft db scope.run scope.payload scope.now = some bound)
    (below : db.drafts.Below db.nextId)
    (done : planIntents scope ordered { db, command := scope.query } = .ok planning) :
    Continuing db scope bound planning := by
  have start : Continuing db scope bound { db, command := scope.query } :=
    ⟨show DraftWrites db db from rfl, below, fun _ => (boundDraft_found bound_).1,
      fun _ first => absurd first.symm (Option.some_ne_none _)⟩
  refine planIntents_induction (fun _ planning => Continuing db scope bound planning) start ?_ done
  exact fun _ _ _ _ _ _ held planned => held.record bound_ planned

/-- In a turn whose input refers to a usable draft, the first continuation revises that draft:
every condition and commitment of it stays, and what the intent does not name keeps its value,
apart from the payer of a pickup. Such is the draft at the end of the turn. -/
theorem continuation_keeps_conditions {world : World}
    (reached : Reachable World.Step World.Initial world) {runId : Nat}
    {run : NegotiationInput} {payload : ChatInput} {frame : IntentFrame} {now : Time}
    {owner : Owner} {after : Db} {bound : OfferDraft} (found : world.db.inputs.get runId = some run)
    (chat : run.payload = .chat payload)
    (bound_ : boundDraft world.db run payload now = some bound)
    (free : world.db.turns.get runId = none)
    (done : planFrame world.db runId owner frame now = .ok after) :
    ∃ scope planning, planNew world.db run frame now = .ok (scope, planning) ∧
      ∀ entry, planning.continued = some entry → ∃ planned row,
        entry.draft = some (bound.id, planned) ∧
        Keeps bound.candidate (entry.intent.candidate.getD {}) planned.candidate ∧
        after.drafts.get bound.id = some row ∧ row.candidate = planned.candidate ∧
        row.version = bound.version + 1 := by
  obtain ⟨other, _, owned, key, ⟨known, _⟩ | ⟨_, words, ordered, safe, planning, plans, rfl⟩⟩ :=
    planFrame_cases done
  · exact absurd free known
  · have got := (lockOwner_eq_ok.mp owned).1
    obtain rfl := Option.some.inj (got.symm.trans found)
    obtain rfl := Payload.chat.inj (plans.chat.symm.trans chat)
    have continuing : Continuing world.db _ bound planning :=
      planIntents_continuing bound_ (reachable_drafts_below reached) plans.done
    refine ⟨_, planning, planNew_eq_ok.mpr ⟨_, ordered, safe, plans, rfl⟩, fun entry first => ?_⟩
    obtain ⟨planned, row, drafted, keeps, stored, stated, raised⟩ :=
      (continuing.revised entry first).revises
    exact ⟨planned, row, drafted, keeps, stored, stated, raised⟩

end

/-! ### A draft that is gone on with twice -/

/-- An offer of 90 yuan for goods that were never repaired, without a delivery. -/
def conditionalIntent : Intent where
  id := "offer"
  type := .proposeOffer
  sourceQuote := "90元"
  candidate := some
    { amount := some ⟨9000, ninety_fits⟩
      positive := ninety_positive
      conditions :=
        [{ fact := .repairHistory, operator := .equal, value := "NO", sourceQuote := "没修过" }]
      fewConditions := unrepaired_few }

theorem conditional_checked :
    safeFrame { intents := [conditionalIntent] } "如果没修过，90元" = .ok ([conditionalIntent], true) :=
  safeFrame_safe (by decide +kernel) rfl (by decide +kernel) (by decide +kernel)
    (by decide +kernel) (by decide +kernel)

/-- The plan of the turn in which the offer is made. -/
def conditionalTurn : TurnPlan where
  command := { kind := .query, text := "如果没修过，90元" }
  drafts :=
    [{ bound := none
       candidate := conditionalIntent.candidate.getD {}
       missing := [.delivery, .payer] }]
  selected := none

/-- The buyer makes the offer, and its turn leaves the draft 7. -/
def conditionalDraft : List Event :=
  written "first" "如果没修过，90元" 3 (seconds 1) ++
    [.call (.planTurn 3 (6, 1) conditionalTurn (seconds 1))]

/-- Two alternatives that go on with the draft. -/
def alternativeChat : ChatInput where
  text := "改成自提或者改成80元"
  clientViewId := "internal"
  draftId := some 7
  draftVersion := some 1

/-- The first turn is answered, and the buyer writes on under the key 10. -/
def writtenOn [Platform] (first : List Event) (chat : ChatInput) : List Event :=
  first ++
    [.call (.abortOrQuery 3 (6, 1) none (seconds 1) (seconds 1) (seconds 1)),
      .call (.publishOwned 3 (6, 1) (seconds 2)),
      .call (.finalize 3 (6, 1)
        { runId := 3
          inputSeq := 1
          inputHash :=
            digest (Payload.chat { text := "如果没修过，90元", clientViewId := "internal" }).json
          configHash := digest (defaultConfig .negotiationV2).json
          graphVersion := .negotiationV2
          publishedMessageId := some 9 } false (seconds 2) (seconds 2)),
      .call (.enqueue "buyer" "second" (.chat chat) none (seconds 3)),
      .call (.claim 10 (seconds 3))]

/-- The buyer answers with the alternatives. -/
def alternativesWritten [Platform] : List Event := writtenOn conditionalDraft alternativeChat

def pickupAlternative : Intent where
  id := "pickup"
  type := .changeTerms
  sourceQuote := "改成自提"
  candidate := some { delivery := some .pickup }
  alternativeGroup := some "terms"

theorem eighty_positive : (some (⟨8000, eighty_fits⟩ : Money)).map (·.cents) ≠ some 0 := by decide

def cheaperAlternative : Intent where
  id := "cheaper"
  type := .changeTerms
  sourceQuote := "改成80元"
  candidate := some { amount := some ⟨8000, eighty_fits⟩, positive := eighty_positive }
  alternativeGroup := some "terms"

theorem alternatives_checked :
    safeFrame { intents := [pickupAlternative, cheaperAlternative] } alternativeChat.text =
      .ok ([pickupAlternative, cheaperAlternative], true) :=
  safeFrame_safe (by decide +kernel) rfl (by decide +kernel) (by decide +kernel)
    (by decide +kernel) (by decide +kernel)

/-- A turn that comes to a plan leads where the storing of that plan leads. -/
theorem planFrame_after [Platform] (payload : ChatInput) (plan : TurnPlan) {world : World}
    {events : List Event} {runId : Nat} {owner : Owner} {frame : IntentFrame} {now : Time}
    {ordered : List Intent} {safe : Bool}
    (reached : Reachable World.Step World.Initial (world.after events))
    (free : (world.after events).db.turns.get runId = none)
    (checked : safeFrame frame payload.text = .ok (ordered, safe))
    (stored : Succeeds (planTurn (world.after events).db runId owner plan now) fun _ => True)
    (done : PlansAs (world.after events).db runId owner payload ordered safe now fun planning =>
      planning.command = plan.command ∧ planning.drafts.map (·.2) = plan.drafts ∧
        planning.selected = plan.selected.bind fun place => (planning.drafts.map (·.1))[place]?) :
    planFrame (world.after events).db runId owner frame now =
      .ok (world.after (events ++ [.call (.planTurn runId owner plan now)])).db := by
  obtain ⟨db, planned, _⟩ := (succeeds_iff _ _).mp stored
  have after : (world.after (events ++ [.call (.planTurn runId owner plan now)])).db = db :=
    World.after_call (show (World.db _).perform (.planTurn runId owner plan now) = _ from planned)
  rw [planFrame_stores payload plan (reachable_drafts_below reached) free checked done, planned,
    after]

attribute [local instance] samplePlatform in
/-- The turn of the offer stores the plan that the run below takes. -/
theorem conditional_planned :
    planFrame (semanticWorld.after (written "first" "如果没修过，90元" 3 (seconds 1))).db 3 (6, 1)
      { intents := [conditionalIntent] } (seconds 1) =
        .ok (semanticWorld.after conditionalDraft).db := by
  have reached := World.reachable_after semanticWorld_initial
    (by decide +kernel : Scheduled 0 (written "first" "如果没修过，90元" 3 (seconds 1)))
  exact planFrame_after { text := "如果没修过，90元", clientViewId := "internal" } conditionalTurn
    reached (by decide +kernel) conditional_checked (by decide +kernel) (by decide +kernel)

attribute [local instance] samplePlatform in
theorem alternatives_planned :
    PlansAs (semanticWorld.after alternativesWritten).db 10 (13, 1) alternativeChat
      [pickupAlternative, cheaperAlternative] true (seconds 3) fun planning =>
        (planning.continued.bind (·.draft)).map (·.1) = some 7 ∧
          planning.drafts.map (fun draft => (draft.1, draft.2.candidate.payer,
            draft.2.candidate.conditions.length)) =
          [(7, some .buyer, 1), (14, none, 0)] := by
  decide +kernel

attribute [local instance] samplePlatform in
theorem continuation_keeps_conditions_pickup :
    ∃ after row,
      planFrame (semanticWorld.after alternativesWritten).db 10 (13, 1)
        { intents := [pickupAlternative, cheaperAlternative] } (seconds 3) = .ok after ∧
      after.drafts.get 7 = some row ∧
      ∀ condition ∈ (conditionalIntent.candidate.getD {}).conditions,
        condition ∈ row.candidate.conditions := by
  have reached := World.reachable_after semanticWorld_initial
    (by decide +kernel : Scheduled 0 alternativesWritten)
  have free : (semanticWorld.after alternativesWritten).db.turns.get 10 = none := by
    decide +kernel
  have shown : Found (usableDraftOf (semanticWorld.after alternativesWritten).db
      { id := 7, version := 1 } (seconds 3)) fun bound =>
        bound.id = 7 ∧ bound.candidate = conditionalIntent.candidate.getD {} := by
    decide +kernel
  obtain ⟨bound, usable, key, candidate⟩ := (found_iff _ _).mp shown
  obtain ⟨run, planning, found, plans, ⟨continued, _⟩, done⟩ :=
    planFrame_runs alternativeChat free alternatives_checked alternatives_planned
  have bound_ : boundDraft (semanticWorld.after alternativesWritten).db run alternativeChat
      (seconds 3) = some bound := usable
  obtain ⟨scope, other, planned, kept⟩ :=
    continuation_keeps_conditions reached found plans.chat bound_ free done
  rw [planNew_eq_ok.mpr ⟨_, _, _, plans, rfl⟩] at planned
  obtain ⟨rfl, rfl⟩ := Prod.mk.inj (Except.ok.inj planned)
  cases first : planning.continued with
  | none =>
    rw [first] at continued
    cases continued
  | some entry =>
    obtain ⟨plan, row, _, keeps, stored, stated, _⟩ := kept entry first
    rw [candidate] at keeps
    exact ⟨_, row, done, key ▸ stored, fun condition member =>
      stated ▸ keeps.conditions condition member⟩

attribute [local instance] samplePlatform in
/-- Of the two alternatives the first makes the buyer pay for the pickup, and the second, which
does not find the draft any more, makes a new draft without the condition. -/
theorem alternative_loses_conditions :
    planFrame (semanticWorld.after (written "first" "如果没修过，90元" 3 (seconds 1))).db 3 (6, 1)
      { intents := [conditionalIntent] } (seconds 1) =
        .ok (semanticWorld.after conditionalDraft).db ∧
    ∃ run bound after,
      (semanticWorld.after alternativesWritten).db.inputs.get 10 = some run ∧
      run.payload = .chat alternativeChat ∧
      boundDraft (semanticWorld.after alternativesWritten).db run alternativeChat (seconds 3) =
        some bound ∧
      bound.candidate.conditions ≠ [] ∧ bound.candidate.payer = none ∧
      planFrame (semanticWorld.after alternativesWritten).db 10 (13, 1)
        { intents := [pickupAlternative, cheaperAlternative] } (seconds 3) = .ok after ∧
      (Found (after.turns.get 10) fun turn => turn.draftIds = [bound.id, 14]) ∧
      (Found (after.drafts.get bound.id) fun row => row.candidate.payer = some .buyer) ∧
      Found (after.drafts.get 14) fun row => row.candidate.conditions = [] := by
  refine ⟨conditional_planned, ?_⟩
  have free : (semanticWorld.after alternativesWritten).db.turns.get 10 = none := by
    decide +kernel
  have shown : Found (usableDraftOf (semanticWorld.after alternativesWritten).db
      { id := 7, version := 1 } (seconds 3)) fun bound =>
        bound.id = 7 ∧ bound.candidate.conditions ≠ [] ∧ bound.candidate.payer = none := by
    decide +kernel
  obtain ⟨bound, usable, key, conditions, payer⟩ := (found_iff _ _).mp shown
  have planned : PlansAs (semanticWorld.after alternativesWritten).db 10 (13, 1) alternativeChat
      [pickupAlternative, cheaperAlternative] true (seconds 3) fun planning =>
        planning.drafts.map (·.1) = [7, 14] ∧
        (Found (planning.db.drafts.get 7) fun row => row.candidate.payer = some .buyer) ∧
        Found (planning.db.drafts.get 14) fun row => row.candidate.conditions = [] := by
    decide +kernel
  obtain ⟨run, planning, found, plans, ⟨drafts, revised, new⟩, done⟩ :=
    planFrame_runs alternativeChat free alternatives_checked planned
  refine ⟨run, bound, _, found, plans.chat, usable, conditions, payer, done, ?_, key ▸ revised, new⟩
  rw [key]
  exact (found_iff _ _).mpr
    ⟨_, Table.get_insertIgnore.trans (if_pos ⟨rfl, free⟩), drafts⟩

end Negotiation
