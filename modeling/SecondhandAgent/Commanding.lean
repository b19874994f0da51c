/-
This file proves that a turn gives one command at most. A command comes from an
intent that acts alone in its turn, so that a second one has nothing to come
from, whatever the order of the intents is and whatever they depend on.
-/

import SecondhandAgent.Planning
import SecondhandAgent.Schedule

namespace Negotiation

open Store

/-- The intent can change something: it is an action, or it adds to the bound draft. -/
def Intent.Acts (intent : Intent) (scope : TurnScope) : Prop :=
  intent.type.IsAction ∨ intent ∈ scope.changes

instance (intent : Intent) (scope : TurnScope) : Decidable (intent.Acts scope) :=
  inferInstanceAs (Decidable (_ ∨ _))

/-- The command is one that the type of an intent asks for. -/
def IntentType.Asks : IntentType → Kind → Prop
  | .proposeOffer, kind | .changeTerms, kind | .provideInfo, kind => kind.IsOffer
  | .confirmIntent, kind => kind = .confirm
  | .withdrawOffer, kind => kind = .withdraw
  | .closeSession, kind => kind = .close
  | _, _ => False

theorem countP_le_add {intents : List Intent} {acts one two : Intent → Bool}
    (split : ∀ intent ∈ intents, acts intent = true → one intent = true ∨ two intent = true) :
    intents.countP acts ≤ intents.countP one + intents.countP two := by
  induction intents with
  | nil => exact Nat.zero_le _
  | cons intent rest inductionHypothesis =>
    have others := inductionHypothesis fun other member => split other (List.mem_cons_of_mem _ member)
    simp only [List.countP_cons]
    by_cases acting : acts intent = true
    · rcases split intent List.mem_cons_self acting with first | second
      · rw [if_pos acting, if_pos first]
        omega
      · rw [if_pos acting, if_pos second]
        omega
    · rw [if_neg acting]
      omega

/-- The intents that act are the actions and the changes. -/
theorem length_acting {db : Db} {run : NegotiationInput} {payload : ChatInput} {now : Time}
    {ordered : List Intent} {safe : Bool} :
    (ordered.filter fun intent => intent.Acts (scopeOf db run payload now ordered safe)).length ≤
      (scopeOf db run payload now ordered safe).actions.length +
        (scopeOf db run payload now ordered safe).changes.length := by
  unfold scopeOf actionsOf
  simp only [← List.countP_eq_length_filter]
  refine countP_le_add fun intent _ acting => ?_
  refine (of_decide_eq_true acting).imp decide_eq_true fun changes => ?_
  exact (List.mem_filter.mp changes).2

section

variable [Platform] {db : Db} {scope : TurnScope} {intent : Intent} {ordered : List Intent}

/-- What the command of a turn rests on: the only intent that acts. -/
structure Commanded (scope : TurnScope) (processed : List Intent) (planning : Planning)
    (intent : Intent) : Prop where
  clear : scope.Clear
  single : scope.actions.length + scope.changes.length ≤ 1
  alone : (processed.filter fun intent => intent.Acts scope) = [intent]
  asks : intent.type.Asks planning.command.kind
  ready : ∃ entry ∈ planning.log, entry.intent = intent ∧ entry.status = .ready
  submits : planning.command.kind.IsOffer → ∃ draft, planning.selected = some draft.id ∧
    planning.db.drafts.get draft.id = some draft ∧ draft.status = .ready ∧ draft.missing = []

/-- The turn gives no command so far, or the command of the only intent that acts. -/
def AtMostOne (scope : TurnScope) (processed : List Intent) (planning : Planning) : Prop :=
  planning.db.drafts.Below planning.db.nextId ∧
    (planning.command = scope.query ∧ planning.selected = none ∨
      ∃ intent, Commanded scope processed planning intent)

theorem IntentCase.asks {statuses : List (String × IntentStatus)} {plan : IntentPlan}
    {command : TypedInput} (outcome : IntentCase db scope statuses intent plan)
    (informs : intent ∈ scope.changes → intent.type = .provideInfo)
    (given : plan.command = some command) : intent.type.Asks command.kind := by
  cases outcome with
  | told | idle | drafted => exact absurd given.symm (Option.some_ne_none command)
  | @offered candidate terms clear states =>
    obtain rfl := Option.some.inj given
    have offers : (offerCommand scope terms db.session.currentOfferId).kind.IsOffer := by
      show Kind.IsOffer (if _ then _ else _)
      split
      · exact .inl rfl
      · exact .inr rfl
    rcases states with (propose | change) | changes
    · rw [propose]
      exact offers
    · rw [change]
      exact offers
    · rw [informs changes]
      exact offers
  | named clear names =>
    obtain rfl := Option.some.inj given
    cases names with
    | confirm type | withdraw type | close type =>
      rw [type]
      rfl

/-- An offer is made of a draft that misses nothing. -/
theorem IntentCase.complete {statuses : List (String × IntentStatus)} {plan : IntentPlan}
    {command : TypedInput} (outcome : IntentCase db scope statuses intent plan)
    (given : plan.command = some command) (offers : command.kind.IsOffer) :
    ∃ planned, plan.draft = some planned ∧ planned.missing = [] := by
  cases outcome with
  | told | idle | drafted => exact absurd given.symm (Option.some_ne_none command)
  | offered _ _ _ complete => exact ⟨_, rfl, complete⟩
  | named _ names =>
    obtain rfl := Option.some.inj given
    cases names with
    | confirm | withdraw | close => exact absurd offers (by rintro (submit | replace) <;> contradiction)

theorem AtMostOne.record {processed rest : List Intent} {planning : Planning} {plan : IntentPlan}
    (acting : (ordered.filter fun intent => intent.Acts scope).length ≤
      scope.actions.length + scope.changes.length)
    (among : ∀ intent ∈ ordered, intent.type.IsAction → intent ∈ scope.actions)
    (informs : ∀ intent ∈ scope.changes, intent.type = .provideInfo)
    (split : processed ++ intent :: rest = ordered) (held : AtMostOne scope processed planning)
    (done : planIntent planning.db scope planning.statuses intent = .ok plan) :
    AtMostOne scope (processed ++ [intent])
      (planning.record scope.run.id scope.now intent plan) := by
  have outcome := planIntent_case done
  have member : intent ∈ ordered := split ▸ List.mem_append_right _ List.mem_cons_self
  have few : ((processed ++ [intent]).filter fun intent => intent.Acts scope).length ≤
      scope.actions.length + scope.changes.length := by
    have initial : processed ++ [intent] <+: ordered :=
      ⟨rest, by rw [List.append_assoc, List.singleton_append, split]⟩
    exact (initial.sublist.filter _).length_le.trans acting
  have alone : intent.Acts scope → scope.actions.length + scope.changes.length ≤ 1 →
      (processed.filter fun intent => intent.Acts scope) = [] ∧
        ((processed ++ [intent]).filter fun intent => intent.Acts scope) = [intent] := by
    intro acts single
    have last : ([intent].filter fun intent => intent.Acts scope) = [intent] :=
      List.filter_eq_self.mpr fun other same => by
        rw [List.mem_singleton.mp same]
        exact decide_eq_true acts
    rw [List.filter_append, last, List.length_append] at few
    have none : (processed.filter fun intent => intent.Acts scope) = [] :=
      List.eq_nil_of_length_eq_zero (by simp only [List.length_singleton] at few; omega)
    rw [List.filter_append, last, none]
    exact ⟨rfl, rfl⟩
  obtain ⟨below, one⟩ := held
  refine ⟨?_, ?_⟩
  · cases made : plan.draft with
    | none =>
      rw [(record_idle planning scope.run.id scope.now intent made).1]
      exact below
    | some planned =>
      rw [(record_drafted planning scope.run.id scope.now intent made).1]
      exact storeDraft_below below
  · cases given : plan.command with
    | some command =>
      obtain ⟨clear, single, acts, ready⟩ := outcome.authorized (among intent member) given
      have commanded : (planning.record scope.run.id scope.now intent plan).command = command := by
        rw [record_command, given]
        rfl
      refine .inr ⟨intent, clear, single, (alone acts single).2, ?_, ?_, fun offers => ?_⟩
      · rw [commanded]
        exact outcome.asks (informs intent) given
      · rw [record_log]
        exact ⟨_, List.mem_append_right _ (List.mem_singleton_self _), rfl, ready⟩
      · rw [commanded] at offers
        obtain ⟨planned, made, complete⟩ := outcome.complete given offers
        obtain ⟨next, chosen⟩ := record_drafted planning scope.run.id scope.now intent made
        refine ⟨draftRow planning.db scope.run.id planned scope.now, ?_, ?_, ?_, ?_⟩
        · rw [chosen, given, if_neg (Option.some_ne_none command), storeDraft_key]
        · rw [next, storeDraft_get below, if_pos rfl]
        · rw [draftRow_status, complete]
          rfl
        · rw [draftRow_missing, complete]
    | none =>
      have kept : (planning.record scope.run.id scope.now intent plan).command =
          planning.command := by
        rw [record_command, given]
        rfl
      rcases one with ⟨query, unselected⟩ | ⟨other, clear, single, only, asks, ready, submits⟩
      · refine .inl ⟨kept.trans query, ?_⟩
        cases made : plan.draft with
        | none => exact (record_idle planning scope.run.id scope.now intent made).2.trans unselected
        | some planned =>
          rw [(record_drafted planning scope.run.id scope.now intent made).2, if_pos given]
          exact unselected
      · have passive : ¬ intent.Acts scope := by
          intro acts
          rw [(alone acts single).1] at only
          cases only
        have undrafted : plan.draft = none := by
          cases made : plan.draft with
          | none => rfl
          | some planned => exact absurd (outcome.drafts made).states.acts passive
        obtain ⟨same, unchanged⟩ := record_idle planning scope.run.id scope.now intent undrafted
        obtain ⟨entry, listed, about, status⟩ := ready
        refine .inr ⟨other, clear, single, ?_, ?_, ⟨entry, ?_, about, status⟩, fun offers => ?_⟩
        · rw [List.filter_append, only]
          have last : ([intent].filter fun intent => intent.Acts scope) = [] :=
            List.filter_eq_nil_iff.mpr fun one same => by
              rw [List.mem_singleton.mp same]
              simpa using passive
          rw [last]
          rfl
        · rw [kept]
          exact asks
        · rw [record_log]
          exact List.mem_append_left _ listed
        · rw [kept] at offers
          rw [same, unchanged]
          exact submits offers

end

/-! ### The turn -/

section

variable [Platform]

theorem Plans.atMostOne {db : Db} {run : NegotiationInput} {frame : IntentFrame} {now : Time}
    {payload : ChatInput} {ordered : List Intent} {safe : Bool} {planning : Planning}
    (below : db.drafts.Below db.nextId)
    (plans : Plans db run frame now payload ordered safe planning) :
    AtMostOne (scopeOf db run payload now ordered safe) ordered planning := by
  refine planIntents_induction (AtMostOne (scopeOf db run payload now ordered safe))
    ⟨below, .inl ⟨rfl, rfl⟩⟩ (fun processed intent rest planning plan split held planned => ?_)
    plans.done
  refine held.record length_acting (fun intent member action => ?_) (fun intent member => ?_) split
    planned
  · exact List.mem_filter.mpr ⟨member, decide_eq_true action⟩
  · exact (of_decide_eq_true (List.mem_filter.mp member).2).1

omit [Platform] in
/-- An ambiguous frame is never safe. -/
theorem unambiguous {frame : IntentFrame} {text : String} {ordered : List Intent}
    (checked : safeFrame frame text = .ok (ordered, true)) : frame.ambiguous = false := by
  have safe := (safeFrame_eq_ok.mp checked).2.symm
  simp only [Bool.and_eq_true, Bool.not_eq_true'] at safe
  exact safe.1.1.1.1

/-- A turn gives a command only if its frame is safe and one intent alone acts in it; the command
is what this intent asks for, the intent is ready, and an offer is made of a ready draft that
the turn selected. A turn that has its plan keeps it. -/
theorem one_command_per_turn {world : World} (reached : Reachable World.Step World.Initial world)
    {runId : Nat} {owner : Owner} {frame : IntentFrame} {now : Time} {after : Db}
    (done : planFrame world.db runId owner frame now = .ok after) :
    (world.db.turns.get runId ≠ none → after = world.db) ∧
    (∀ other next later again, planFrame after runId other next later = .ok again →
      again = after) ∧
    (world.db.turns.get runId = none → ∃ run payload ordered safe planning turn,
      world.db.inputs.get runId = some run ∧ run.payload = .chat payload ∧
      safeFrame frame payload.text = .ok (ordered, safe) ∧ ordered.Perm frame.intents ∧
      planNew world.db run frame now =
        .ok (scopeOf world.db run payload now ordered safe, planning) ∧
      after.turns.get runId = some turn ∧ turn.command = planning.command ∧
      (turn.command.kind ≠ .query → safe = true ∧ frame.ambiguous = false ∧
        ∃ intent,
          (frame.intents.filter fun intent =>
            intent.Acts (scopeOf world.db run payload now ordered safe)) = [intent] ∧
          ¬ intent.type.IsQuestion ∧ intent.type.Asks turn.command.kind ∧
          (intent.id, IntentStatus.ready) ∈ planning.statuses ∧
          (turn.command.kind.IsOffer → ∃ draft, turn.selectedDraftId = some draft.id ∧
            after.drafts.get draft.id = some draft ∧ draft.status = .ready ∧
            draft.missing = []))) := by
  obtain ⟨run, task, owned, rfl, cases_⟩ := planFrame_cases done
  have found := (lockOwner_eq_ok.mp owned).1
  refine ⟨fun known => ?_, fun other next later again repeated => ?_, fun free => ?_⟩
  · rcases cases_ with ⟨_, same⟩ | ⟨absent, _⟩
    · exact same
    · exact absurd absent known
  · have known : after.turns.get run.id ≠ none := by
      rcases cases_ with ⟨known, rfl⟩ | ⟨free, _, _, _, planning, plans, rfl⟩
      · exact known
      · show (world.db.turns.insertIgnore _).get run.id ≠ none
        rw [Table.get_insertIgnore, if_pos ⟨rfl, free⟩]
        exact Option.some_ne_none _
    obtain ⟨_, _, _, _, ⟨_, same⟩ | ⟨absent, _⟩⟩ := planFrame_cases repeated
    · exact same
    · exact absurd absent known
  · rcases cases_ with ⟨known, _⟩ | ⟨_, payload, ordered, safe, planning, plans, rfl⟩
    · exact absurd free known
    have perm := validatedFor_perm (safeFrame_eq_ok.mp plans.checked).1
    let turn : SemanticTurn :=
      { inputId := run.id
        command := planning.command
        draftIds := planning.drafts.map (·.1)
        selectedDraftId := planning.selected }
    refine ⟨run, payload, ordered, safe, planning, turn, found, plans.chat, plans.checked, perm,
      planNew_eq_ok.mpr ⟨payload, ordered, safe, plans, rfl⟩, ?_, rfl, fun acts => ?_⟩
    · show (world.db.turns.insertIgnore turn).get run.id = _
      rw [Table.get_insertIgnore, if_pos ⟨rfl, free⟩]
    · rcases (plans.atMostOne (reachable_drafts_below reached)).2 with
        ⟨query, _⟩ | ⟨intent, clear, _, alone, asks, ready, submits⟩
      · exact absurd (congrArg TypedInput.kind query) acts
      · obtain ⟨entry, listed, rfl, status⟩ := ready
        have safe : safe = true := clear.safe
        refine ⟨safe, unambiguous (safe ▸ plans.checked), entry.intent, ?_, ?_, asks, ?_, submits⟩
        · exact List.perm_singleton.mp (alone ▸ (perm.symm.filter _))
        · intro question
          cases asked : entry.intent.type <;> rw [asked] at asks question <;>
            first | exact asks | exact absurd question (by decide)
        · rw [← status]
          exact List.mem_map_of_mem listed

end

/-- An offer of 90 yuan for goods that the buyer picks up. -/
def pickupIntent : Intent where
  id := "offer"
  type := .proposeOffer
  sourceQuote := "90元自提"
  candidate := some
    { amount := some ⟨9000, ninety_fits⟩, delivery := some .pickup, positive := ninety_positive }

theorem pickup_checked :
    safeFrame { intents := [pickupIntent] } "90元自提" = .ok ([pickupIntent], true) :=
  safeFrame_safe (by decide +kernel) rfl (by decide +kernel) (by decide +kernel)
    (by decide +kernel) (by decide +kernel)

attribute [local instance] samplePlatform in
theorem one_command_per_turn_pickup :
    ∃ after turn,
      planFrame (semanticWorld.after (written "first" "90元自提" 3 (seconds 1))).db 3 (6, 1)
        { intents := [pickupIntent] } (seconds 1) = .ok after ∧
      after.turns.get 3 = some turn ∧ turn.command.kind = .submit ∧
      ∃ draft, turn.selectedDraftId = some draft.id ∧ after.drafts.get draft.id = some draft ∧
        draft.status = .ready ∧ draft.missing = [] := by
  have reached := World.reachable_after semanticWorld_initial
    (by decide +kernel : Scheduled 0 (written "first" "90元自提" 3 (seconds 1)))
  have free : (semanticWorld.after (written "first" "90元自提" 3 (seconds 1))).db.turns.get 3 =
      none := by decide +kernel
  have planned : PlansAs (semanticWorld.after (written "first" "90元自提" 3 (seconds 1))).db 3 (6, 1)
      { text := "90元自提", clientViewId := "internal" } [pickupIntent] true (seconds 1)
      fun planning => planning.command.kind = .submit := by
    decide +kernel
  obtain ⟨run, planning, _, _, submits, done⟩ :=
    planFrame_runs { text := "90元自提", clientViewId := "internal" } free pickup_checked planned
  obtain ⟨_, _, commanded⟩ := one_command_per_turn reached done
  obtain ⟨_, _, _, _, _, turn, _, _, _, _, _, stored, _, commands⟩ := commanded free
  have kind : turn.command.kind = .submit := by
    rw [Table.get_insertIgnore, if_pos ⟨rfl, free⟩] at stored
    obtain rfl := Option.some.inj stored
    exact submits
  obtain ⟨_, _, _, _, _, _, _, offered⟩ := commands (by rw [kind]; decide)
  exact ⟨_, turn, done, stored, kind, offered (.inl kind)⟩

end Negotiation
