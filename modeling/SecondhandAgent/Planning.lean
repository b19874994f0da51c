/-
This file proves what the planning of a turn comes to, intent by intent. Only a
turn that is free to act makes drafts and commands, and every turn it stores is
one that `planTurn` stores: the system that plans its turns is a part of the
system that stores any plan.
-/

import SecondhandAgent.Drafts
import SecondhandAgent.Ordering
import SecondhandAgent.Planner

namespace Negotiation

open Store

/-! ### The intents of a frame -/

theorem safeFrame_eq_ok {frame : IntentFrame} {text : String} {ordered : List Intent} {safe : Bool} :
    safeFrame frame text = .ok (ordered, safe) ↔
      frame.validatedFor text = .ok ordered ∧
        safe = (!frame.ambiguous &&
          (ordered.all fun intent => intent.candidate.all fun candidate =>
            scopeSafe candidate (conditionScope intent (actionsOf ordered) text)) &&
          textSafe (actionsOf ordered) (ordered.filterMap (·.candidate)) text &&
          ((actionsOf ordered).all fun intent => actionSafe intent text) &&
          lateSafe (actionsOf ordered) (ordered.filterMap (·.candidate)) text) := by
  unfold safeFrame
  simp only [bind_eq_ok, pure_eq_ok, Prod.mk.injEq]
  constructor
  · rintro ⟨_, valid, rfl, rfl⟩
    exact ⟨valid, rfl⟩
  · rintro ⟨valid, rfl⟩
    exact ⟨ordered, valid, rfl, rfl⟩

/-- A frame is safe if nothing vetoes it. -/
theorem safeFrame_safe {frame : IntentFrame} {text : String} {ordered : List Intent}
    (valid : Succeeds (frame.validatedFor text) fun intents => intents = ordered)
    (clear : frame.ambiguous = false)
    (scopes : (ordered.all fun intent => intent.candidate.all fun candidate =>
      scopeSafe candidate (conditionScope intent (actionsOf ordered) text)) = true)
    (words : textSafe (actionsOf ordered) (ordered.filterMap (·.candidate)) text = true)
    (actions : ((actionsOf ordered).all fun intent => actionSafe intent text) = true)
    (late : lateSafe (actionsOf ordered) (ordered.filterMap (·.candidate)) text = true) :
    safeFrame frame text = .ok (ordered, true) := by
  obtain ⟨intents, done, rfl⟩ := (succeeds_iff _ _).mp valid
  refine safeFrame_eq_ok.mpr ⟨done, ?_⟩
  rw [clear, scopes, words, actions, late]
  rfl

/-! ### The draft an input refers to -/

/-- The reference of an input to a draft, usable or not. -/
def boundRef (db : Db) (run : NegotiationInput) (payload : ChatInput) (now : Time) :
    Option DraftRef :=
  match payload.draftId with
  | some id => payload.draftVersion.map fun version => { id, version }
  | none =>
    (frozenContext db run payload now).bind fun context =>
      chosenRef (context.draftRefs.getD []) payload.text

section

variable {db after : Db} {run : NegotiationInput} {payload : ChatInput} {now : Time}

theorem boundDraft_eq :
    boundDraft db run payload now =
      (boundRef db run payload now).bind fun ref => usableDraftOf db ref now := by
  unfold boundDraft boundRef
  cases payload.draftId with
  | some id => cases payload.draftVersion <;> rfl
  | none => cases frozenContext db run payload now <;> rfl

/-- What a turn reads besides the drafts stays as it is while drafts are written. -/
theorem DraftWrites.frozenContext (writes : DraftWrites db after) :
    frozenContext after run payload now = frozenContext db run payload now := by
  rw [show after = _ from writes]
  rfl

theorem DraftWrites.boundRef (writes : DraftWrites db after) :
    boundRef after run payload now = boundRef db run payload now := by
  unfold Negotiation.boundRef
  rw [writes.frozenContext]

theorem usableDraftOf_eq_some {ref : DraftRef} {draft : OfferDraft} :
    usableDraftOf db ref now = some draft ↔
      db.drafts.get ref.id = some draft ∧ UsableDraft draft db.session now ref.version := by
  unfold usableDraftOf
  rw [Option.filter_eq_some_iff, decide_eq_true_iff]

theorem boundDraft_eq_some {draft : OfferDraft} :
    boundDraft db run payload now = some draft ↔
      ∃ ref, boundRef db run payload now = some ref ∧ db.drafts.get ref.id = some draft ∧
        UsableDraft draft db.session now ref.version := by
  rw [boundDraft_eq, Option.bind_eq_some_iff]
  simp only [usableDraftOf_eq_some]

/-- A bound draft is there and can be gone on with. -/
theorem boundDraft_found {draft : OfferDraft} (bound : boundDraft db run payload now = some draft) :
    db.drafts.get draft.id = some draft ∧ UsableDraft draft db.session now draft.version := by
  obtain ⟨ref, _, found, usable⟩ := boundDraft_eq_some.mp bound
  have version : draft.version = ref.version := usable.1
  rw [version, Table.key_of_get found]
  exact ⟨found, usable⟩

end

/-! ### One intent -/

/-- The turn is free to act. -/
structure TurnScope.Clear (scope : TurnScope) : Prop where
  safe : scope.safe = true
  settled : ¬ scope.Conflict

/-- The intent states terms in its turn. -/
def Intent.States (intent : Intent) (scope : TurnScope) : Prop :=
  intent.type.IsProposal ∨ intent ∈ scope.changes

/-- The candidate an intent comes to. -/
def Merges (db : Db) (scope : TurnScope) (intent : Intent) (candidate : Candidate) : Prop :=
  match originalCandidate db scope intent with
  | none =>
    ¬ (intent.Continues ∧ (intent.candidate.getD {}).amount = none) ∧
      candidate = intent.candidate.getD {}
  | some original => mergeCandidate original (intent.candidate.getD {}) = .ok candidate

/-- The command that an intent gives without a draft. -/
inductive Names (db : Db) (scope : TurnScope) (intent : Intent) : TypedInput → Prop
  | confirm {offerId : Nat} (type : intent.type = .confirmIntent)
      (shown : (frozenContext db scope.run scope.payload scope.now).bind (·.offerId) = some offerId)
      (named : scope.payload.offerId = none ∨ scope.payload.offerId = some offerId) :
      Names db scope intent (namingCommand scope .confirm offerId)
  | withdraw {offerId : Nat} {current : Offer} (type : intent.type = .withdrawOffer)
      (held : db.session.currentOfferId = some offerId)
      (found : db.offers.get offerId = some current)
      (same : ¬ WithdrawsOther db scope intent current) :
      Names db scope intent (namingCommand scope .withdraw offerId)
  | close (type : intent.type = .closeSession) : Names db scope intent (closeCommand scope)

theorem Names.isAction {db : Db} {scope : TurnScope} {intent : Intent} {command : TypedInput}
    (names : Names db scope intent command) : intent.type.IsAction := by
  cases names with
  | confirm type | withdraw type | close type =>
    rw [type]
    decide

section

variable [Platform] {db after : Db} {scope : TurnScope} {statuses : List (String × IntentStatus)}
variable {intent : Intent} {plan : IntentPlan}

/-- The draft that an intent makes or revises. -/
def plannedDraft (db : Db) (scope : TurnScope) (statuses : List (String × IntentStatus))
    (intent : Intent) (candidate : Candidate) : PlannedDraft where
  bound :=
    ((boundDraft db scope.run scope.payload scope.now).filter fun _ => intent.Continues).map (·.id)
  candidate
  missing :=
    (assess db candidate scope.now).missing ++
      if Unresolved statuses intent then [.dependencyUnresolved] else []

/-- What an intent comes to. -/
inductive IntentCase (db : Db) (scope : TurnScope) (statuses : List (String × IntentStatus))
    (intent : Intent) : IntentPlan → Prop
  | told (question : intent.type.IsQuestion) :
      IntentCase db scope statuses intent
        { status := answerQuestion db scope.run scope.payload intent.topic intent.sourceQuote
            scope.now }
  | idle {status : IntentStatus} (plain : ¬ intent.type.IsQuestion)
      (quiet : status = .clarify ∨ status = .recorded) :
      IntentCase db scope statuses intent { status }
  | drafted {candidate : Candidate} {status : IntentStatus} (clear : scope.Clear)
      (states : intent.States scope) (merges : Merges db scope intent candidate)
      (waits : status = .choiceRequired ∨ status = .waitingInfo ∨ status = .clarify) :
      IntentCase db scope statuses intent
        { status, draft := some (plannedDraft db scope statuses intent candidate) }
  | offered {candidate : Candidate} {terms : Terms} (clear : scope.Clear)
      (states : intent.States scope) (merges : Merges db scope intent candidate)
      (complete : (plannedDraft db scope statuses intent candidate).missing = [])
      (single : scope.actions.length + scope.changes.length ≤ 1) :
      IntentCase db scope statuses intent
        { status := .ready
          draft := some (plannedDraft db scope statuses intent candidate)
          command := some (offerCommand scope terms db.session.currentOfferId) }
  | named {command : TypedInput} (clear : scope.Clear) (names : Names db scope intent command) :
      IntentCase db scope statuses intent { status := .ready, command := some command }

/-- The planning of a candidate in the words of its draft. -/
theorem planCandidate_eq (candidate : Candidate) :
    planTerms.planCandidate db scope statuses intent candidate = (do
      require (scope.Alternatives →
        ((boundDraft db scope.run scope.payload scope.now).filter fun _ => intent.Continues) = none →
          GroupFits intent.alternativeGroup) .tooLong
      let planned := plannedDraft db scope statuses intent candidate
      if scope.Alternatives then pure { status := .choiceRequired, draft := some planned }
      else if planned.missing ≠ [] then pure { status := .waitingInfo, draft := some planned }
      else if scope.actions.length + scope.changes.length ≤ 1 then do
        let (_, _, terms, _) ← quoteInTransaction db candidate scope.now
        pure
          { status := .ready
            draft := some planned
            command := some (offerCommand scope terms db.session.currentOfferId) }
      else pure { draft := some planned }) := rfl

theorem planCandidate_case {candidate : Candidate} (clear : scope.Clear)
    (states : intent.States scope) (merges : Merges db scope intent candidate)
    (done : planTerms.planCandidate db scope statuses intent candidate = .ok plan) :
    IntentCase db scope statuses intent plan := by
  rw [planCandidate_eq, bind_eq_ok] at done
  obtain ⟨_, _, done⟩ := done
  dsimp only at done
  split_ifs at done with alternatives missing single
  · obtain rfl := (pure_eq_ok _ _).mp done
    exact .drafted clear states merges (.inl rfl)
  · obtain rfl := (pure_eq_ok _ _).mp done
    exact .drafted clear states merges (.inr (.inl rfl))
  · simp only [bind_eq_ok, pure_eq_ok] at done
    obtain ⟨_, _, rfl⟩ := done
    exact .offered clear states merges (not_not.mp missing) single
  · obtain rfl := (pure_eq_ok _ _).mp done
    exact .drafted clear states merges (.inr (.inr rfl))

theorem planTerms_case (clear : scope.Clear) (states : intent.States scope)
    (plain : ¬ intent.type.IsQuestion) (done : planTerms db scope statuses intent = .ok plan) :
    IntentCase db scope statuses intent plan := by
  unfold planTerms at done
  dsimp only at done
  split at done
  · next none =>
    split at done
    · obtain rfl := (pure_eq_ok _ _).mp done
      exact .idle plain (.inl rfl)
    · next stated =>
      refine planCandidate_case clear states ?_ done
      unfold Merges
      rw [none]
      exact ⟨stated, rfl⟩
  · next original found =>
    simp only [bind_eq_ok] at done
    obtain ⟨candidate, merged, done⟩ := done
    refine planCandidate_case clear states ?_ done
    unfold Merges
    rw [found]
    exact merged

theorem planIntent_case (done : planIntent db scope statuses intent = .ok plan) :
    IntentCase db scope statuses intent plan := by
  unfold planIntent at done
  split at done
  · next question =>
    obtain rfl := (pure_eq_ok _ _).mp done
    exact .told question
  · next plain =>
    split at done
    · obtain rfl := (pure_eq_ok _ _).mp done
      exact .idle plain (.inl rfl)
    · next free =>
      obtain ⟨safe, settled⟩ := not_or.mp free
      have clear : scope.Clear := ⟨Bool.not_eq_false _ ▸ safe, settled⟩
      split at done
      · next states => exact planTerms_case clear states plain done
      · split at done
        · next type =>
          obtain rfl := (pure_eq_ok _ _).mp done
          unfold planConfirm
          split
          · exact .idle plain (.inl rfl)
          · next offerId shown =>
            split
            · next named => exact .named clear (.confirm type shown named)
            · exact .idle plain (.inl rfl)
        · next type =>
          unfold planWithdraw at done
          split at done
          · obtain rfl := (pure_eq_ok _ _).mp done
            exact .idle plain (.inl rfl)
          · next offerId held =>
            simp only [bind_eq_ok, expect_eq_ok] at done
            obtain ⟨current, found, done⟩ := done
            split at done
            · obtain rfl := (pure_eq_ok _ _).mp done
              exact .idle plain (.inl rfl)
            · next same =>
              obtain rfl := (pure_eq_ok _ _).mp done
              exact .named clear (.withdraw type held found same)
        · next type =>
          obtain rfl := (pure_eq_ok _ _).mp done
          exact .named clear (.close type)
        · obtain rfl := (pure_eq_ok _ _).mp done
          unfold planInformation
          split
          · exact .idle plain (.inl rfl)
          · exact .idle plain (.inr rfl)

/-- What a command rests on: its intent acts alone in a turn that is free to act. -/
structure Authorized (scope : TurnScope) (intent : Intent) (plan : IntentPlan) : Prop where
  clear : scope.Clear
  single : scope.actions.length + scope.changes.length ≤ 1
  acts : intent.type.IsAction ∨ intent ∈ scope.changes
  ready : plan.status = .ready

omit [Platform] in
theorem Intent.States.acts (states : intent.States scope) :
    intent.type.IsAction ∨ intent ∈ scope.changes := by
  refine states.imp_left fun proposal => ?_
  rcases proposal with propose | change
  · exact .inl propose
  · exact .inr (.inl change)

omit [Platform] in
/-- An action that states no terms is alone in a turn that is free to act. -/
theorem Names.single {command : TypedInput} (clear : scope.Clear)
    (among : intent.type.IsAction → intent ∈ scope.actions)
    (names : Names db scope intent command) :
    scope.actions.length + scope.changes.length ≤ 1 := by
  by_contra several
  refine clear.settled ⟨Nat.lt_of_not_le several, fun both => ?_⟩
  obtain ⟨proposal, _⟩ := both.1.2 intent (among names.isAction)
  cases names with
  | confirm type | withdraw type | close type =>
    rw [type] at proposal
    exact absurd proposal (by decide)

theorem IntentCase.authorized {command : TypedInput} (outcome : IntentCase db scope statuses intent plan)
    (among : intent.type.IsAction → intent ∈ scope.actions) (given : plan.command = some command) :
    Authorized scope intent plan := by
  cases outcome with
  | told | idle | drafted => exact absurd given.symm (Option.some_ne_none command)
  | offered clear states _ _ single => exact ⟨clear, single, states.acts, rfl⟩
  | named clear names => exact ⟨clear, names.single clear among, .inl names.isAction, rfl⟩

/-- A command carries the words and the view of its input. -/
theorem IntentCase.view {command : TypedInput} (outcome : IntentCase db scope statuses intent plan)
    (given : plan.command = some command) :
    command.text = scope.payload.text ∧ command.clientViewId = scope.payload.clientViewId ∧
      command.displayReceiptId = scope.payload.displayReceiptId := by
  cases outcome with
  | told | idle | drafted => exact absurd given.symm (Option.some_ne_none command)
  | offered =>
    obtain rfl := Option.some.inj given
    exact ⟨rfl, rfl, rfl⟩
  | named _ names =>
    obtain rfl := Option.some.inj given
    cases names <;> exact ⟨rfl, rfl, rfl⟩

/-- Where a draft comes from. -/
structure Drafts (db : Db) (scope : TurnScope) (statuses : List (String × IntentStatus))
    (intent : Intent) (planned : PlannedDraft) : Prop where
  clear : scope.Clear
  states : intent.States scope
  merged : ∃ candidate, Merges db scope intent candidate ∧
    planned = plannedDraft db scope statuses intent candidate

theorem IntentCase.drafts {planned : PlannedDraft}
    (outcome : IntentCase db scope statuses intent plan) (made : plan.draft = some planned) :
    Drafts db scope statuses intent planned := by
  cases outcome with
  | told | idle | named => exact absurd made.symm (Option.some_ne_none planned)
  | drafted clear states merges | offered clear states merges =>
    exact ⟨clear, states, _, merges, (Option.some.inj made).symm⟩

/-! ### The intents of a turn -/

/-- What taking one intent keeps, taking all of them keeps. -/
theorem planIntents_induction {ordered : List Intent} {first last : Planning}
    (holds : List Intent → Planning → Prop) (begins : holds [] first)
    (step : ∀ processed intent rest planning plan, processed ++ intent :: rest = ordered →
      holds processed planning →
      planIntent planning.db scope planning.statuses intent = .ok plan →
      holds (processed ++ [intent]) (planning.record scope.run.id scope.now intent plan))
    (done : planIntents scope ordered first = .ok last) : holds ordered last := by
  have general : ∀ rest processed planning, processed ++ rest = ordered → holds processed planning →
      planIntents scope rest planning = .ok last → holds ordered last := by
    intro rest
    induction rest with
    | nil =>
      intro processed planning all held finished
      obtain rfl := (pure_eq_ok _ _).mp finished
      rw [List.append_nil] at all
      exact all ▸ held
    | cons intent rest inductionHypothesis =>
      intro processed planning all held finished
      unfold planIntents at finished
      rw [bind_eq_ok] at finished
      obtain ⟨plan, planned, finished⟩ := finished
      refine inductionHypothesis (processed ++ [intent]) _ ?_
        (step processed intent rest planning plan all held planned) finished
      rw [List.append_assoc, List.singleton_append]
      exact all
  exact general ordered [] first rfl begins done

section

variable {planned : PlannedDraft} (planning : Planning) (runId : Nat) (now : Time)

omit [Platform]

/-- The draft of an intent with the key it is stored under. -/
def Planning.stored (plan : IntentPlan) :
    Option (Nat × PlannedDraft) :=
  plan.draft.map fun planned => ((storeDraft planning.db runId planned now).2, planned)

theorem record_log (intent : Intent) (plan : IntentPlan) :
    (planning.record runId now intent plan).log =
      planning.log ++
        [{ intent, status := plan.status, draft := planning.stored runId now plan }] := by
  unfold Planning.record Planning.stored
  cases plan.draft <;> rfl

theorem record_command (intent : Intent) (plan : IntentPlan) :
    (planning.record runId now intent plan).command = plan.command.getD planning.command := by
  unfold Planning.record
  cases plan.draft <;> rfl

theorem record_idle (intent : Intent) (none : plan.draft = none) :
    (planning.record runId now intent plan).db = planning.db ∧
      (planning.record runId now intent plan).selected = planning.selected := by
  unfold Planning.record
  rw [none]
  exact ⟨rfl, rfl⟩

theorem record_drafted (intent : Intent) (made : plan.draft = some planned) :
    (planning.record runId now intent plan).db = (storeDraft planning.db runId planned now).1 ∧
      (planning.record runId now intent plan).selected =
        if plan.command = none then planning.selected
        else some (storeDraft planning.db runId planned now).2 := by
  unfold Planning.record
  rw [made]
  exact ⟨rfl, rfl⟩

theorem record_drafts (intent : Intent) (plan : IntentPlan) :
    (planning.record runId now intent plan).drafts =
      planning.drafts ++ (planning.stored runId now plan).toList := by
  unfold Planning.drafts
  rw [record_log, List.filterMap_append]
  cases planning.stored runId now plan <;> rfl

theorem storeDrafts_concat (db : Db) (planned : PlannedDraft)
    (plans : List PlannedDraft) :
    storeDrafts db runId now (plans ++ [planned]) =
      ((storeDraft (storeDrafts db runId now plans).1 runId planned now).1,
        (storeDrafts db runId now plans).2 ++
          [(storeDraft (storeDrafts db runId now plans).1 runId planned now).2]) := by
  induction plans generalizing db with
  | nil => rfl
  | cons first rest inductionHypothesis =>
    rw [List.cons_append]
    unfold storeDrafts
    dsimp only
    rw [inductionHypothesis]
    rfl

end

omit [Platform] in
theorem record_writes (planning : Planning) (runId : Nat) (now : Time) (intent : Intent)
    (plan : IntentPlan) :
    DraftWrites planning.db (planning.record runId now intent plan).db := by
  cases made : plan.draft with
  | none =>
    rw [(record_idle planning runId now intent made).1]
    rfl
  | some planned =>
    rw [(record_drafted planning runId now intent made).1]
    exact storeDraft_writes _ _ _

theorem planIntents_writes {ordered : List Intent} {planning : Planning}
    (done : planIntents scope ordered { db, command := scope.query } = .ok planning) :
    DraftWrites db planning.db :=
  planIntents_induction (fun _ planning => DraftWrites db planning.db) (show DraftWrites db db from rfl)
    (fun _ _ _ _ _ _ writes _ => writes.trans (record_writes _ _ _ _ _)) done

/-- Where the planning of a turn stands after some of its intents. -/
structure Progress (db : Db) (scope : TurnScope) (processed : List Intent) (planning : Planning) :
    Prop where
  below : planning.db.drafts.Below planning.db.nextId
  intents : planning.log.map (·.intent) = processed
  stored : storeDrafts db scope.run.id scope.now (planning.drafts.map (·.2)) =
    (planning.db, planning.drafts.map (·.1))
  view : planning.command.text = scope.payload.text ∧
    planning.command.clientViewId = scope.payload.clientViewId ∧
      planning.command.displayReceiptId = scope.payload.displayReceiptId
  selected : ∀ id, planning.selected = some id → id ∈ planning.drafts.map (·.1)

omit [Platform] in
theorem Progress.start (below : db.drafts.Below db.nextId) :
    Progress db scope [] { db, command := scope.query } :=
  ⟨below, rfl, rfl, ⟨rfl, rfl, rfl⟩, nofun⟩

theorem Progress.record {processed : List Intent} {planning : Planning}
    (progress : Progress db scope processed planning)
    (done : planIntent planning.db scope planning.statuses intent = .ok plan) :
    Progress db scope (processed ++ [intent])
      (planning.record scope.run.id scope.now intent plan) := by
  obtain ⟨below, intents, stored, view, selected⟩ := progress
  have viewed : (planning.record scope.run.id scope.now intent plan).command.text =
        scope.payload.text ∧
      (planning.record scope.run.id scope.now intent plan).command.clientViewId =
        scope.payload.clientViewId ∧
      (planning.record scope.run.id scope.now intent plan).command.displayReceiptId =
        scope.payload.displayReceiptId := by
    rw [record_command]
    cases given : plan.command with
    | none => exact view
    | some command => exact (planIntent_case done).view given
  have logged : ((planning.record scope.run.id scope.now intent plan).log.map (·.intent)) =
      processed ++ [intent] := by
    rw [record_log, List.map_append, intents]
    rfl
  have drafts := record_drafts planning scope.run.id scope.now intent plan
  cases made : plan.draft with
  | none =>
    obtain ⟨same, kept⟩ := record_idle planning scope.run.id scope.now intent made
    have unchanged : (planning.record scope.run.id scope.now intent plan).drafts =
        planning.drafts := by
      rw [drafts, Planning.stored, made]
      exact List.append_nil _
    refine ⟨?_, logged, ?_, viewed, ?_⟩
    · rw [same]
      exact below
    · rw [unchanged, same]
      exact stored
    · rw [unchanged, kept]
      exact selected
  | some planned =>
    obtain ⟨next, chosen⟩ := record_drafted planning scope.run.id scope.now intent made
    have added : (planning.record scope.run.id scope.now intent plan).drafts =
        planning.drafts ++ [((storeDraft planning.db scope.run.id planned scope.now).2, planned)] := by
      rw [drafts, Planning.stored, made]
      rfl
    refine ⟨?_, logged, ?_, viewed, ?_⟩
    · rw [next]
      exact storeDraft_below below
    · rw [added, next, List.map_append, List.map_append]
      show storeDrafts db _ _ (_ ++ [planned]) = _
      rw [storeDrafts_concat, stored]
      rfl
    · rw [added, chosen, List.map_append]
      intro id named
      split_ifs at named
      · exact List.mem_append_left _ (selected id named)
      · obtain rfl := Option.some.inj named
        exact List.mem_append_right _ (List.mem_singleton_self _)

theorem planIntents_progress {ordered : List Intent} {planning : Planning}
    (below : db.drafts.Below db.nextId)
    (done : planIntents scope ordered { db, command := scope.query } = .ok planning) :
    Progress db scope ordered planning :=
  planIntents_induction (Progress db scope) (.start below)
    (fun _ _ _ _ _ _ progress planned => progress.record planned) done

end

/-! ### The turn -/

section

variable [Platform] {db after : Db} {run : NegotiationInput} {frame : IntentFrame} {now : Time}
variable {runId : Nat} {owner : Owner}

/-- A turn that was planned anew. -/
structure Plans (db : Db) (run : NegotiationInput) (frame : IntentFrame) (now : Time)
    (payload : ChatInput) (ordered : List Intent) (safe : Bool) (planning : Planning) : Prop where
  chat : run.payload = .chat payload
  checked : safeFrame frame payload.text = .ok (ordered, safe)
  done : planIntents (scopeOf db run payload now ordered safe) ordered
    { db, command := (scopeOf db run payload now ordered safe).query } = .ok planning

theorem planNew_eq_ok {scope : TurnScope} {planning : Planning} :
    planNew db run frame now = .ok (scope, planning) ↔
      ∃ payload ordered safe, Plans db run frame now payload ordered safe planning ∧
        scope = scopeOf db run payload now ordered safe := by
  unfold planNew
  constructor
  · intro done
    split at done
    · cases done
    · next payload chat =>
      simp only [bind_eq_ok, pure_eq_ok, Prod.mk.injEq] at done
      obtain ⟨⟨ordered, safe⟩, checked, planned, done, rfl, rfl⟩ := done
      exact ⟨payload, ordered, safe, ⟨chat, checked, done⟩, rfl⟩
  · rintro ⟨payload, ordered, safe, ⟨chat, checked, done⟩, rfl⟩
    rw [chat]
    simp only [bind_eq_ok, pure_eq_ok]
    exact ⟨_, checked, _, done, rfl⟩

/-- A turn is planned once: it has its plan, or it is planned and its plan is stored. -/
theorem planFrame_cases (done : planFrame db runId owner frame now = .ok after) :
    ∃ run task, lockOwner db runId owner now = .ok (run, task) ∧ run.id = runId ∧
      ((db.turns.get runId ≠ none ∧ after = db) ∨
        (db.turns.get runId = none ∧ ∃ payload ordered safe planning,
          Plans db run frame now payload ordered safe planning ∧
          after = { planning.db with
            turns := db.turns.insertIgnore
              { inputId := runId
                command := planning.command
                draftIds := planning.drafts.map (·.1)
                selectedDraftId := planning.selected } })) := by
  unfold planFrame at done
  simp only [bind_eq_ok, Prod.exists] at done
  obtain ⟨run, task, owned, rest⟩ := done
  refine ⟨run, task, owned, Table.key_of_get (lockOwner_eq_ok.mp owned).1, ?_⟩
  split at rest
  · next turn found =>
    obtain rfl := (pure_eq_ok _ _).mp rest
    refine .inl ⟨?_, rfl⟩
    rw [found]
    exact Option.some_ne_none turn
  · next free =>
    simp only [bind_eq_ok, pure_eq_ok, Prod.exists] at rest
    obtain ⟨scope, planning, planned, turns, inserted, rfl⟩ := rest
    obtain ⟨payload, ordered, safe, plans, rfl⟩ := planNew_eq_ok.mp planned
    refine .inr ⟨free, payload, ordered, safe, planning, plans, ?_⟩
    have kept : planning.db.turns = db.turns := by
      rw [show planning.db = _ from planIntents_writes plans.done]
    rw [Table.eq_insertIgnore inserted, kept]

/-- A turn that has its plan is not planned again. -/
theorem planFrame_known {task : ModelExecutionTask} {turn : SemanticTurn}
    (owned : lockOwner db run.id owner now = .ok (run, task))
    (known : db.turns.get run.id = some turn) :
    planFrame db run.id owner frame now = .ok db := by
  unfold planFrame
  rw [bind_eq_ok]
  refine ⟨(run, task), owned, ?_⟩
  dsimp only
  rw [known]
  rfl

/-- A turn that has no plan yet is planned if its intents are. -/
theorem planFrame_new {task : ModelExecutionTask} {payload : ChatInput} {ordered : List Intent}
    {safe : Bool} {planning : Planning}
    (owned : lockOwner db run.id owner now = .ok (run, task)) (free : db.turns.get run.id = none)
    (plans : Plans db run frame now payload ordered safe planning) :
    planFrame db run.id owner frame now =
      .ok { planning.db with
        turns := db.turns.insertIgnore
          { inputId := run.id
            command := planning.command
            draftIds := planning.drafts.map (·.1)
            selectedDraftId := planning.selected } } := by
  have kept : planning.db.turns = db.turns := by
    rw [show planning.db = _ from planIntents_writes plans.done]
  unfold planFrame
  rw [bind_eq_ok]
  refine ⟨(run, task), owned, ?_⟩
  dsimp only
  rw [free]
  simp only [bind_eq_ok, pure_eq_ok]
  refine ⟨_, planNew_eq_ok.mpr ⟨payload, ordered, safe, plans, rfl⟩, _,
    Table.insert_of_free ?_ _, ?_⟩
  · rw [kept]
    exact free
  · rw [kept]

/-- The owner of a run plans the checked intents of its input. -/
def PlansAs (db : Db) (runId : Nat) (owner : Owner) (payload : ChatInput) (ordered : List Intent)
    (safe : Bool) (now : Time) (holds : Planning → Prop) : Prop :=
  Succeeds (lockOwner db runId owner now) fun owned =>
    owned.1.payload = .chat payload ∧
      Succeeds (planIntents (scopeOf db owned.1 payload now ordered safe) ordered
        { db, command := (scopeOf db owned.1 payload now ordered safe).query }) holds

instance (db : Db) (runId : Nat) (owner : Owner) (payload : ChatInput) (ordered : List Intent)
    (safe : Bool) (now : Time) (holds : Planning → Prop) [DecidablePred holds] :
    Decidable (PlansAs db runId owner payload ordered safe now holds) := by
  delta PlansAs
  infer_instance

theorem planFrame_runs (payload : ChatInput) {ordered : List Intent} {safe : Bool}
    {holds : Planning → Prop} (free : db.turns.get runId = none)
    (checked : safeFrame frame payload.text = .ok (ordered, safe))
    (done : PlansAs db runId owner payload ordered safe now holds) :
    ∃ run planning, db.inputs.get runId = some run ∧
      Plans db run frame now payload ordered safe planning ∧ holds planning ∧
      planFrame db runId owner frame now =
        .ok { planning.db with
          turns := db.turns.insertIgnore
            { inputId := runId
              command := planning.command
              draftIds := planning.drafts.map (·.1)
              selectedDraftId := planning.selected } } := by
  obtain ⟨⟨run, task⟩, owned, chat, done⟩ := (succeeds_iff _ _).mp done
  obtain ⟨planning, planned, holding⟩ := (succeeds_iff _ _).mp done
  have found := (lockOwner_eq_ok.mp owned).1
  obtain rfl : run.id = runId := Table.key_of_get found
  have plans : Plans db run frame now payload ordered safe planning := ⟨chat, checked, planned⟩
  exact ⟨run, planning, found, plans, holding, planFrame_new owned free plans⟩

/-- A turn whose intents cannot be planned is not planned. -/
theorem planFrame_stuck (payload : ChatInput) {ordered : List Intent} {safe : Bool}
    (free : db.turns.get runId = none)
    (checked : safeFrame frame payload.text = .ok (ordered, safe))
    (chat : Succeeds (lockOwner db runId owner now) fun owned => owned.1.payload = .chat payload)
    (stuck : ¬ PlansAs db runId owner payload ordered safe now fun _ => True) (after : Db) :
    planFrame db runId owner frame now ≠ .ok after := by
  intro done
  obtain ⟨⟨run, task⟩, owned, chat⟩ := (succeeds_iff _ _).mp chat
  obtain ⟨other, _, again, _, ⟨known, _⟩ | ⟨_, words, intents, safe_, planning, plans, _⟩⟩ :=
    planFrame_cases done
  · exact known free
  · obtain ⟨rfl, _⟩ := Prod.mk.inj (Except.ok.inj (owned.symm.trans again))
    obtain rfl := Payload.chat.inj (plans.chat.symm.trans chat)
    obtain ⟨rfl, rfl⟩ := Prod.mk.inj (Except.ok.inj (plans.checked.symm.trans checked))
    exact stuck ((succeeds_iff _ _).mpr ⟨_, owned, chat, (succeeds_iff _ _).mpr ⟨_, plans.done, trivial⟩⟩)

omit [Platform] in
/-- What is among the keys has a place there. -/
theorem exists_index {keys : List Nat} {selected : Option Nat}
    (among : ∀ key, selected = some key → key ∈ keys) :
    ∃ index : Option Nat, selected = index.bind fun place => keys[place]? := by
  cases selected with
  | none => exact ⟨none, rfl⟩
  | some key =>
    obtain ⟨place, found⟩ := List.mem_iff_getElem?.mp (among key rfl)
    exact ⟨some place, found.symm⟩

omit [Platform] in
theorem planTurn_new {task : ModelExecutionTask} (plan : TurnPlan) {stored : Db} {keys : List Nat}
    (owned : lockOwner db run.id owner now = .ok (run, task)) (free : db.turns.get run.id = none)
    (drafts : storeDrafts db run.id now plan.drafts = (stored, keys)) :
    planTurn db run.id owner plan now =
      .ok { stored with
        turns := stored.turns.insertIgnore
          { inputId := run.id
            command :=
              { plan.command with
                text := run.payload.text
                clientViewId := run.payload.clientViewId
                displayReceiptId := run.payload.displayReceiptId }
            draftIds := keys
            selectedDraftId := plan.selected.bind fun index => keys[index]? } } := by
  have writes := storeDrafts_writes run.id now plan.drafts db
  rw [drafts] at writes
  have kept : stored.turns = db.turns := by
    rw [show stored = _ from writes]
  unfold planTurn
  rw [bind_eq_ok]
  refine ⟨(run, task), owned, ?_⟩
  dsimp only
  rw [free]
  dsimp only
  rw [drafts]
  simp only [bind_eq_ok, pure_eq_ok]
  refine ⟨_, Table.insert_of_free ?_ _, rfl⟩
  rw [kept]
  exact free

/-- The plan of a turn is stored as any plan is. -/
theorem Plans.stored {task : ModelExecutionTask} {payload : ChatInput} {ordered : List Intent}
    {safe : Bool} {planning : Planning} {index : Option Nat} (below : db.drafts.Below db.nextId)
    (owned : lockOwner db run.id owner now = .ok (run, task)) (free : db.turns.get run.id = none)
    (plans : Plans db run frame now payload ordered safe planning)
    (chosen : planning.selected = index.bind fun place => (planning.drafts.map (·.1))[place]?) :
    planTurn db run.id owner
        { command := planning.command, drafts := planning.drafts.map (·.2), selected := index } now =
      .ok { planning.db with
        turns := db.turns.insertIgnore
          { inputId := run.id
            command := planning.command
            draftIds := planning.drafts.map (·.1)
            selectedDraftId := planning.selected } } := by
  obtain ⟨_, _, stored, ⟨text, view, receipt⟩, _⟩ := planIntents_progress below plans.done
  have command : { planning.command with
      text := run.payload.text
      clientViewId := run.payload.clientViewId
      displayReceiptId := run.payload.displayReceiptId } = planning.command := by
    rw [plans.chat]
    show { planning.command with
      text := payload.text
      clientViewId := payload.clientViewId
      displayReceiptId := payload.displayReceiptId } = planning.command
    rw [← show planning.command.text = payload.text from text,
      ← show planning.command.clientViewId = payload.clientViewId from view,
      ← show planning.command.displayReceiptId = payload.displayReceiptId from receipt]
  have turns : planning.db.turns = db.turns := by
    rw [show planning.db = _ from planIntents_writes plans.done]
  have stores : storeDrafts db run.id now (planning.drafts.map (·.2)) =
      (planning.db, planning.drafts.map (·.1)) := stored
  have planned := planTurn_new ⟨planning.command, planning.drafts.map (·.2), index⟩ owned free
    stores
  rw [planned, command, turns, chosen]

/-- Planning a turn stores a plan for it: the system that decides its plans takes only steps
of the system that stores any plan. -/
theorem planFrame_refines (below : db.drafts.Below db.nextId)
    (done : planFrame db runId owner frame now = .ok after) :
    ∃ plan, planTurn db runId owner plan now = .ok after := by
  obtain ⟨run, task, owned, rfl, cases_⟩ := planFrame_cases done
  rcases cases_ with ⟨known, rfl⟩ | ⟨free, payload, ordered, safe, planning, plans, rfl⟩
  · obtain ⟨turn, found⟩ := Option.ne_none_iff_exists'.mp known
    refine ⟨{ command := { kind := .query }, drafts := [], selected := none }, ?_⟩
    unfold planTurn
    rw [bind_eq_ok]
    refine ⟨(run, task), owned, ?_⟩
    dsimp only
    rw [found]
    rfl
  · obtain ⟨index, chosen⟩ := exists_index (planIntents_progress below plans.done).selected
    exact ⟨_, plans.stored below owned free chosen⟩

/-- A turn that comes to a plan stores that plan. -/
theorem planFrame_stores (payload : ChatInput) (plan : TurnPlan) {ordered : List Intent} {safe : Bool}
    (below : db.drafts.Below db.nextId) (free : db.turns.get runId = none)
    (checked : safeFrame frame payload.text = .ok (ordered, safe))
    (done : PlansAs db runId owner payload ordered safe now fun planning =>
      planning.command = plan.command ∧ planning.drafts.map (·.2) = plan.drafts ∧
        planning.selected = plan.selected.bind fun place => (planning.drafts.map (·.1))[place]?) :
    planFrame db runId owner frame now = planTurn db runId owner plan now := by
  obtain ⟨⟨run, task⟩, owned, chat, done⟩ := (succeeds_iff _ _).mp done
  obtain ⟨planning, planned, command, drafts, chosen⟩ := (succeeds_iff _ _).mp done
  obtain rfl : run.id = runId := Table.key_of_get (lockOwner_eq_ok.mp owned).1
  have plans : Plans db run frame now payload ordered safe planning := ⟨chat, checked, planned⟩
  rw [planFrame_new owned free plans, ← plans.stored below owned free chosen, command, drafts]

end

end Negotiation
