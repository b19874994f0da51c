/-
This file models the planning of a semantic turn. The intents of a frame are
taken one after the other, in the order of their dependencies, and what one of
them stores is what the next one finds: the draft the input refers to is looked
up again for every intent, at the version the buyer saw.
-/

import SecondhandAgent.Answers
import SecondhandAgent.System

namespace Negotiation

open Store

/-! ### The draft an input refers to -/

/-- The reference an input chooses among those on display: the only one, or the one it names. -/
def chosenRef (refs : List DraftRef) (text : String) : Option DraftRef :=
  match refs with
  | [] => none
  | [ref] => some ref
  | refs =>
    (Regex.fullmatch r"(?:选|选择)(?:第)?([一二12])(?:个|项|方案)?[。！]?" text).bind fun choice =>
      refs[if choice.group 1 = "一" ∨ choice.group 1 = "1" then 0 else 1]?

/-- The draft of a reference, if it is usable at the version of the reference. -/
def usableDraftOf (db : Db) (ref : DraftRef) (now : Time) : Option OfferDraft :=
  (db.drafts.get ref.id).filter fun draft => UsableDraft draft db.session now ref.version

/-- `bound_draft`: the draft the input names, or the one it chooses on its display. -/
def boundDraft (db : Db) (run : NegotiationInput) (payload : ChatInput) (now : Time) :
    Option OfferDraft :=
  match payload.draftId with
  | some id => payload.draftVersion.bind fun version => usableDraftOf db { id, version } now
  | none =>
    ((frozenContext db run payload now).bind fun context =>
      chosenRef (context.draftRefs.getD []) payload.text).bind fun ref => usableDraftOf db ref now

/-- `merge_candidate`: the fields a patch names replace those of the original, and what it adds
to the conditions and commitments comes behind the original ones. -/
def mergeCandidate (original patch : Candidate) : Except Failure Candidate :=
  let conditions := original.conditions ++
    patch.conditions.filter fun condition => condition ∉ original.conditions
  let commitments := original.commitments ++
    patch.commitments.filter fun commitment => commitment ∉ original.commitments
  if few : conditions.length ≤ 8 ∧ commitments.length ≤ 8 then
    .ok
      { amount := patch.amount.or original.amount
        delivery := patch.delivery.or original.delivery
        payer :=
          if patch.delivery = some .pickup ∧ patch.payer = none then some .buyer
          else patch.payer.or original.payer
        region := patch.region.or original.region
        conditions
        commitments
        positive := by
          cases named : patch.amount with
          | none => exact original.positive
          | some amount =>
            have positive := patch.positive
            rw [named] at positive
            exact positive
        fewConditions := few.1
        fewCommitments := few.2 }
  else .error .invalid

/-! ### The intents of a turn -/

/-- What a turn fixes before it takes its intents: the input, the time, whether the frame is
safe, the intents it can act on, and whether they are alternatives. -/
structure TurnScope where
  run : NegotiationInput
  payload : ChatInput
  now : Time
  safe : Bool
  actions : List Intent
  changes : List Intent

namespace TurnScope

/-- The actions are proposals of one group. -/
def Alternatives (scope : TurnScope) : Prop :=
  1 < scope.actions.length ∧ ∀ action ∈ scope.actions, action.type.IsProposal ∧
    action.grouped ≠ none ∧ action.alternativeGroup = (scope.actions.head?).bind (·.alternativeGroup)

instance (scope : TurnScope) : Decidable scope.Alternatives :=
  inferInstanceAs (Decidable (_ ∧ _))

def Conflict (scope : TurnScope) : Prop :=
  1 < scope.actions.length + scope.changes.length ∧
    ¬ (scope.Alternatives ∧ scope.changes = [])

instance (scope : TurnScope) : Decidable scope.Conflict := inferInstanceAs (Decidable (_ ∧ ¬ _))

/-- The command of a turn that does nothing. -/
def query (scope : TurnScope) : TypedInput where
  kind := .query
  text := scope.payload.text
  clientViewId := scope.payload.clientViewId
  displayReceiptId := scope.payload.displayReceiptId

end TurnScope

/-- Topics that are told for information only. -/
def Intent.Informs (intent : Intent) : Prop :=
  intent.topic = some "budget" ∨ intent.topic = some "comparison"

instance (intent : Intent) : Decidable intent.Informs := inferInstanceAs (Decidable (_ ∨ _))

/-- What one intent comes to: its status, the draft it makes or revises, and the command it
gives. -/
structure IntentPlan where
  status : IntentStatus := .clarify
  draft : Option PlannedDraft := none
  command : Option TypedInput := none

/-- The command that makes an offer on the given terms. -/
def offerCommand (scope : TurnScope) (terms : Terms) (current : Option Nat) : TypedInput :=
  { scope.query with
    kind := if current = none then .submit else .replace
    terms := some terms
    offerId := current
    checked := by
      refine ⟨iff_of_true ?_ (Option.some_ne_none terms), fun counter => absurd rfl counter, ?_⟩
      · by_cases none : current = none
        · exact .inl (if_pos none)
        · exact .inr (if_neg none)
      · by_cases none : current = none
        · rw [if_pos none]
          rintro (confirm | withdraw)
          · cases confirm
          · cases withdraw
        · exact fun _ => none }

/-- The commands that only name an offer. -/
def namingCommand (scope : TurnScope) (kind : Kind) (offerId : Nat)
    (plain : ¬ kind.IsOffer := by decide) : TypedInput :=
  { scope.query with
    kind
    offerId := some offerId
    checked :=
      ⟨iff_of_false plain (fun named => named rfl), fun counter => absurd rfl counter,
        fun _ => Option.some_ne_none offerId⟩ }

def closeCommand (scope : TurnScope) : TypedInput :=
  { scope.query with
    kind := .close
    checked := checkKind_close }

/-- A continuation goes on with what was proposed before. -/
def Intent.Continues (intent : Intent) : Prop :=
  intent.type = .provideInfo ∨ intent.type = .changeTerms ∨
    intent.candidate.bind (·.amount) = none

instance (intent : Intent) : Decidable intent.Continues := inferInstanceAs (Decidable (_ ∨ _ ∨ _))

/-- Something the intent depends on was neither answered nor ready. -/
def Unresolved (statuses : List (String × IntentStatus)) (intent : Intent) : Prop :=
  ∃ parent ∈ intent.dependsOn,
    statuses.lookup parent ≠ some .answered ∧ statuses.lookup parent ≠ some .ready

instance (statuses : List (String × IntentStatus)) (intent : Intent) :
    Decidable (Unresolved statuses intent) :=
  inferInstanceAs (Decidable (∃ parent ∈ intent.dependsOn, _))

/-- The key of a row is the text of a UUID. -/
def keyLength : Nat := 32

/-- The alternative group of a new draft fits its column: it is the key of the run, a colon and
the group of the intent. -/
def GroupFits (group : Option String) : Prop := keyLength + 1 + (group.getD "").length ≤ 64

instance (group : Option String) : Decidable (GroupFits group) :=
  inferInstanceAs (Decidable (_ ≤ _))

/-- The candidate a patch is merged into: that of the bound draft for a continuation, or that of
the offer on display for a change of terms. -/
def originalCandidate (db : Db) (scope : TurnScope) (intent : Intent) : Option Candidate :=
  match boundDraft db scope.run scope.payload scope.now with
  | some bound =>
    if intent.Continues then some bound.candidate else none
  | none =>
    if intent.type = .changeTerms then
      (((frozenContext db scope.run scope.payload scope.now).bind (·.offerId)).bind
        db.bases.get).map (·.candidate)
    else none

variable [Platform]

/-- An intent that states terms. -/
def planTerms (db : Db) (scope : TurnScope) (statuses : List (String × IntentStatus))
    (intent : Intent) : Except Failure IntentPlan := do
  let patch := intent.candidate.getD {}
  match originalCandidate db scope intent with
  | none =>
    if intent.Continues ∧ patch.amount = none then pure {}
    else planCandidate patch
  | some original => do
    let candidate ← mergeCandidate original patch
    planCandidate candidate
where
  /-- The draft of the candidate, and the offer if nothing is missing and nothing else is
  asked for. -/
  planCandidate (candidate : Candidate) : Except Failure IntentPlan := do
    let missing := (assess db candidate scope.now).missing ++
      if Unresolved statuses intent then [.dependencyUnresolved] else []
    let bound := (boundDraft db scope.run scope.payload scope.now).filter fun _ => intent.Continues
    require (scope.Alternatives → bound = none → GroupFits intent.alternativeGroup) .tooLong
    let draft := some { bound := bound.map (·.id), candidate, missing }
    if scope.Alternatives then pure { status := .choiceRequired, draft }
    else if missing ≠ [] then pure { status := .waitingInfo, draft }
    else if scope.actions.length + scope.changes.length ≤ 1 then do
      let (_, _, terms, _) ← quoteInTransaction db candidate scope.now
      pure
        { status := .ready
          draft
          command := some (offerCommand scope terms db.session.currentOfferId) }
    else pure { draft }

/-- A final confirmation: of the offer on display, which is the one the input names if it names
one. -/
def planConfirm (db : Db) (scope : TurnScope) : IntentPlan :=
  match (frozenContext db scope.run scope.payload scope.now).bind (·.offerId) with
  | none => {}
  | some offerId =>
    if scope.payload.offerId = none ∨ scope.payload.offerId = some offerId then
      { status := .ready, command := some (namingCommand scope .confirm offerId) }
    else {}

/-- What the buyer refers to is not the offer that would be withdrawn. -/
def WithdrawsOther (db : Db) (scope : TurnScope) (intent : Intent) (current : Offer) : Prop :=
  let context := frozenContext db scope.run scope.payload scope.now
  (scope.payload.displayReceiptId ≠ none ∧ context = none) ∨
    (context.bind (·.offerId)).any (fun offerId => offerId ≠ current.id) = true ∨
    ∃ amount ∈ numbersOf intent.sourceQuote, amount ≠ current.price.value

instance (db : Db) (scope : TurnScope) (intent : Intent) (current : Offer) :
    Decidable (WithdrawsOther db scope intent current) := by
  delta WithdrawsOther
  infer_instance

def planWithdraw (db : Db) (scope : TurnScope) (intent : Intent) : Except Failure IntentPlan :=
  match db.session.currentOfferId with
  | none => pure {}
  | some offerId => do
    let current ← expect (db.offers.get offerId) .missing
    if WithdrawsOther db scope intent current then pure {}
    else pure { status := .ready, command := some (namingCommand scope .withdraw offerId) }

/-- Information that no draft is bound for. -/
def planInformation (scope : TurnScope) (intent : Intent) : IntentPlan :=
  if intent.type = .provideInfo ∧ ¬ intent.Informs ∧
      (intent.candidate.any (fun candidate => candidate.amount = none) = true ∨
        scope.payload.text ∈ ["继续", "自提", "快递", "选第一个", "选第二个"]) then {}
  else { status := .recorded }

/-- One turn of the loop of `plan_turn`. -/
def planIntent (db : Db) (scope : TurnScope) (statuses : List (String × IntentStatus))
    (intent : Intent) : Except Failure IntentPlan :=
  if intent.type.IsQuestion then
    let { run, payload, now, .. } := scope
    pure { status := answerQuestion db run payload intent.topic intent.sourceQuote now }
  else if scope.safe = false ∨ scope.Conflict then pure {}
  else if intent.type.IsProposal ∨ intent ∈ scope.changes then planTerms db scope statuses intent
  else
    match intent.type with
    | .confirmIntent => pure (planConfirm db scope)
    | .withdrawOffer => planWithdraw db scope intent
    | .closeSession =>
      pure { status := .ready, command := some (closeCommand scope) }
    | _ => pure (planInformation scope intent)

/-! ### The turn -/

/-- What became of an intent. -/
structure Entry where
  intent : Intent
  status : IntentStatus
  draft : Option (Nat × PlannedDraft) := none

/-- Where the planning of a turn stands; the latest entry comes last. -/
structure Planning where
  db : Db
  command : TypedInput
  selected : Option Nat := none
  log : List Entry := []

namespace Planning

def statuses (planning : Planning) : List (String × IntentStatus) :=
  planning.log.map fun entry => (entry.intent.id, entry.status)

/-- The drafts the turn made or revised. -/
def drafts (planning : Planning) : List (Nat × PlannedDraft) := planning.log.filterMap (·.draft)

/-- Store the draft of an intent and keep what it came to. -/
def record (planning : Planning) (runId : Nat) (now : Time) (intent : Intent)
    (plan : IntentPlan) : Planning :=
  match plan.draft with
  | none =>
    { planning with
      command := plan.command.getD planning.command
      log := planning.log ++ [{ intent, status := plan.status }] }
  | some planned =>
    let (db, draftId) := storeDraft planning.db runId planned now
    { db
      command := plan.command.getD planning.command
      selected := if plan.command = none then planning.selected else some draftId
      log := planning.log ++ [{ intent, status := plan.status, draft := some (draftId, planned) }] }

end Planning

/-- Take the intents of a turn one after the other. -/
def planIntents (scope : TurnScope) : List Intent → Planning → Except Failure Planning
  | [], planning => pure planning
  | intent :: rest, planning => do
    let plan ← planIntent planning.db scope planning.statuses intent
    planIntents scope rest (planning.record scope.run.id scope.now intent plan)

/-- What a turn fixes before it takes its intents. -/
def scopeOf (db : Db) (run : NegotiationInput) (payload : ChatInput) (now : Time)
    (ordered : List Intent) (safe : Bool) : TurnScope where
  run
  payload
  now
  safe
  actions := actionsOf ordered
  changes := ordered.filter fun intent =>
    intent.type = .provideInfo ∧ ¬ intent.Informs ∧ boundDraft db run payload now ≠ none

/-- Plan a turn that has no plan yet. -/
def planNew (db : Db) (run : NegotiationInput) (frame : IntentFrame) (now : Time) :
    Except Failure (TurnScope × Planning) :=
  match run.payload with
  | .typed _ => .error .invalid
  | .chat payload => do
    let (ordered, safe) ← safeFrame frame payload.text
    let scope := scopeOf db run payload now ordered safe
    let planning ← planIntents scope ordered { db, command := scope.query }
    pure (scope, planning)

/-- `plan_turn` with all it decides; `planTurn` stores what this decides. The quotation it
makes on the way is read by nobody and not kept here. -/
def planFrame (db : Db) (runId : Nat) (owner : Owner) (frame : IntentFrame) (now : Time) :
    Except Failure Db := do
  let (run, _) ← lockOwner db runId owner now
  match db.turns.get runId with
  | some _ => pure db
  | none => do
    let (_, planning) ← planNew db run frame now
    let turns ← planning.db.turns.insert
      { inputId := runId
        command := planning.command
        draftIds := planning.drafts.map (·.1)
        selectedDraftId := planning.selected } .unique
    pure { planning.db with turns }

end Negotiation
