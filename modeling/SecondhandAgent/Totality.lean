/-
This file proves when the planning of a turn comes to an end. A valid frame is
planned unless a merge has more conditions or commitments than a candidate can
have, or a new alternative has a group whose name does not fit its column; which
merges a turn makes is read off the state before it.
-/

import SecondhandAgent.Commanding
import SecondhandAgent.Lookup

namespace Negotiation

open Store

/-! ### Merges -/

/-- The merged candidate has no more conditions and commitments than a candidate can have. -/
def MergeFits (original patch : Candidate) : Prop :=
  original.conditions.length +
      (patch.conditions.filter fun condition => condition ∉ original.conditions).length ≤ 8 ∧
    original.commitments.length +
      (patch.commitments.filter fun commitment => commitment ∉ original.commitments).length ≤ 8

instance (original patch : Candidate) : Decidable (MergeFits original patch) :=
  inferInstanceAs (Decidable (_ ∧ _))

theorem mergeCandidate_succeeds {original patch : Candidate} :
    (∃ merged, mergeCandidate original patch = .ok merged) ↔ MergeFits original patch := by
  unfold mergeCandidate MergeFits
  dsimp only
  rw [← List.length_append, ← List.length_append]
  split
  · next few => exact iff_of_true ⟨_, rfl⟩ few
  · next many => exact iff_of_false (by rintro ⟨_, ⟨⟩⟩) many

/-- The candidate that an intent merges its patch into, after the intents before it. -/
def originalAfter (db : Db) (scope : TurnScope) (processed : List Intent) (intent : Intent) :
    Option Candidate :=
  match boundAfter db scope processed with
  | some bound => if intent.Continues then some bound.candidate else none
  | none =>
    if intent.type = .changeTerms then
      (((frozenContext db scope.run scope.payload scope.now).bind (·.offerId)).bind
        db.bases.get).map (·.candidate)
    else none

/-- The intent makes a draft of its own, and does not ask for an amount first. -/
def StartsDraft (db : Db) (scope : TurnScope) (processed : List Intent) (intent : Intent) : Prop :=
  ((boundAfter db scope processed).filter fun _ => intent.Continues) = none ∧
    ¬ (originalAfter db scope processed intent = none ∧ intent.Continues ∧
      (intent.candidate.getD {}).amount = none)

/-- What the intent comes to has its place: the merge fits, and so does the group of a new
alternative. -/
structure FitsAfter (db : Db) (scope : TurnScope) (processed : List Intent) (intent : Intent) :
    Prop where
  merge : ∀ original, originalAfter db scope processed intent = some original →
    MergeFits original (intent.candidate.getD {})
  group : scope.Alternatives → StartsDraft db scope processed intent →
    GroupFits intent.alternativeGroup

section

variable {db current : Db} {scope : TurnScope} {processed : List Intent} {intent : Intent}

theorem Looked.original (looked : Looked db scope processed current)
    (refs : ∀ ref, boundRef db scope.run scope.payload scope.now = some ref → ref.id < db.nextId) :
    originalCandidate current scope intent = originalAfter db scope processed intent := by
  have bases : current.bases = db.bases := by rw [show current = _ from looked.writes]
  unfold originalCandidate originalAfter
  rw [looked.finds refs]
  cases boundAfter db scope processed <;> simp only [looked.writes.frozenContext, bases]

end

/-! ### Quotations -/

section

variable [Platform] {db : Db} {candidate : Candidate} {now : Time}

/-- What a complete candidate has. -/
theorem assess_complete (complete : (assess db candidate now).missing = []) :
    candidate.amount ≠ none ∧ candidate.delivery ≠ none ∧
      ¬ (candidate.delivery = some .pickup ∧ candidate.payer = some .seller) := by
  unfold assess at complete
  simp only [List.append_eq_nil_iff, ite_eq_right_iff, List.cons_ne_nil, imp_false] at complete
  obtain ⟨⟨⟨⟨⟨⟨⟨amount, delivery⟩, _⟩, _⟩, _⟩, _⟩, coherent⟩, _⟩ := complete
  exact ⟨amount, delivery, coherent⟩

/-- A complete candidate has its quotation. -/
theorem quoteInTransaction_succeeds (complete : (assess db candidate now).missing = [])
    (free : db.quotes.get db.nextId = none) :
    ∃ result, quoteInTransaction db candidate now = .ok result := by
  obtain ⟨amount, delivery, coherent⟩ := assess_complete complete
  obtain ⟨amount, asked⟩ := Option.ne_none_iff_exists'.mp amount
  obtain ⟨method, delivered⟩ := Option.ne_none_iff_exists'.mp delivery
  have terms : ∃ terms, Terms.validated (.ofMoney amount) (candidate.payer.getD .buyer)
      (some (.ofMoney (assess db candidate now).snapshot.shippingCost))
      (some (.ofMoney (assess db candidate now).snapshot.discount))
      [("delivery_method", method.text)] = .ok terms := by
    unfold Terms.validated
    split
    · exact ⟨_, rfl⟩
    · next incoherent =>
      refine absurd (fun named => ?_) incoherent
      have pickup : method = .pickup := by
        cases method with
        | pickup => rfl
        | shipping => exact absurd named (by decide)
      have picked : candidate.delivery = some .pickup := pickup ▸ delivered
      refine ⟨fun seller => ?_, .inr ?_⟩
      · refine coherent ⟨picked, ?_⟩
        cases payer : candidate.payer with
        | none =>
          rw [payer] at seller
          cases seller
        | some payer_ =>
          rw [payer] at seller
          exact congrArg some seller
      · have ruleless : shippingRule db candidate now = ([], none) := by
          unfold shippingRule
          rw [if_neg]
          rintro ⟨shipping, _⟩
          rw [picked] at shipping
          cases shipping
        unfold assess
        rw [ruleless]
        rfl
  obtain ⟨terms, validated⟩ := terms
  unfold quoteInTransaction
  simp only [bind_eq_ok, pure_eq_ok, require_eq_ok, expect_eq_ok]
  exact ⟨_, (), complete, _, Table.insert_of_free free _, amount, asked, method, delivered, terms,
    validated, rfl⟩

end

/-! ### The intents -/

section

variable [Platform] {db : Db} {scope : TurnScope} {processed : List Intent} {planning : Planning}
variable {intent : Intent}

/-- The terms of an intent are planned if what they come to has its place. -/
theorem planTerms_succeeds {statuses : List (String × IntentStatus)}
    (looked : Looked db scope processed planning.db)
    (refs : ∀ ref, boundRef db scope.run scope.payload scope.now = some ref → ref.id < db.nextId)
    (free : planning.db.quotes.get planning.db.nextId = none) :
    (∃ plan, planTerms planning.db scope statuses intent = .ok plan) ↔
      FitsAfter db scope processed intent := by
  have made : ∀ candidate,
      (∃ plan, planTerms.planCandidate planning.db scope statuses intent candidate = .ok plan) ↔
        (scope.Alternatives → ((boundAfter db scope processed).filter fun _ => intent.Continues) = none →
          GroupFits intent.alternativeGroup) := by
    intro candidate
    rw [planCandidate_eq, looked.finds refs]
    simp only [bind_eq_ok, require_eq_ok]
    refine ⟨by rintro ⟨_, _, fits, -⟩; exact fits, fun fits => ?_⟩
    by_cases alternatives : scope.Alternatives
    · rw [if_pos alternatives]
      exact ⟨_, (), fits, rfl⟩
    by_cases complete : (plannedDraft planning.db scope statuses intent candidate).missing = []
    · by_cases single : scope.actions.length + scope.changes.length ≤ 1
      · obtain ⟨result, quoted⟩ := quoteInTransaction_succeeds
          (List.append_eq_nil_iff.mp complete).1 free
        rw [if_neg alternatives, if_neg (not_not.mpr complete), if_pos single, quoted]
        exact ⟨_, (), fits, rfl⟩
      · rw [if_neg alternatives, if_neg (not_not.mpr complete), if_neg single]
        exact ⟨_, (), fits, rfl⟩
    · rw [if_neg alternatives, if_pos complete]
      exact ⟨_, (), fits, rfl⟩
  unfold planTerms
  dsimp only
  rw [looked.original refs]
  cases original : originalAfter db scope processed intent with
  | none =>
    dsimp only
    split
    · next asks =>
      refine iff_of_true ⟨_, rfl⟩ ⟨fun _ some => ?_, fun _ starts => ?_⟩
      · rw [original] at some
        cases some
      · exact absurd ⟨original, asks⟩ starts.2
    · next stated =>
      rw [made]
      refine ⟨fun fits => ⟨fun _ some => ?_, fun alternatives starts => ?_⟩,
        fun fits alternatives new => ?_⟩
      · rw [original] at some
        cases some
      · exact fits alternatives starts.1
      · exact fits.group alternatives ⟨new, fun asks => stated asks.2⟩
  | some candidate =>
    simp only [bind_eq_ok]
    constructor
    · rintro ⟨plan, merged, merges, planned⟩
      refine ⟨fun _ some => ?_, fun alternatives starts => ?_⟩
      · obtain rfl := Option.some.inj (original.symm.trans some)
        exact mergeCandidate_succeeds.mp ⟨merged, merges⟩
      · exact (made merged).mp ⟨plan, planned⟩ alternatives starts.1
    · intro fits
      obtain ⟨merged, merges⟩ := mergeCandidate_succeeds.mpr (fits.merge candidate original)
      obtain ⟨plan, planned⟩ := (made merged).mpr fun alternatives new =>
        fits.group alternatives ⟨new, fun asks => by rw [original] at asks; cases asks.1⟩
      exact ⟨plan, merged, merges, planned⟩

/-- A turn that is not free to act only answers. -/
theorem planIntent_blocked {statuses : List (String × IntentStatus)} (blocked : ¬ scope.Clear) :
    ∃ plan, planIntent db scope statuses intent = .ok plan := by
  have idle : scope.safe = false ∨ scope.Conflict := by
    by_cases safe : scope.safe = true
    · exact .inr (not_not.mp fun settled => blocked ⟨safe, settled⟩)
    · exact .inl (Bool.eq_false_iff.mpr safe)
  unfold planIntent
  by_cases question : intent.type.IsQuestion
  · rw [if_pos question]
    exact ⟨_, rfl⟩
  · rw [if_neg question, if_pos idle]
    exact ⟨_, rfl⟩

/-- An intent is planned if it states no terms, or what they come to has its place. -/
theorem planIntent_succeeds {statuses : List (String × IntentStatus)}
    (looked : Looked db scope processed planning.db) (clear : scope.Clear)
    (refs : ∀ ref, boundRef db scope.run scope.payload scope.now = some ref → ref.id < db.nextId)
    (informs : ∀ intent ∈ scope.changes, intent.type = .provideInfo)
    (quotes : db.quotes.Below db.nextId)
    (held : ∀ id, db.session.currentOfferId = some id → db.offers.get id ≠ none) :
    (∃ plan, planIntent planning.db scope statuses intent = .ok plan) ↔
      (intent.States scope → FitsAfter db scope processed intent) := by
  have free : ¬ (scope.safe = false ∨ scope.Conflict) := by
    rintro (unsafe_ | conflict)
    · rw [clear.safe] at unsafe_
      cases unsafe_
    · exact clear.settled conflict
  have frame : planning.db = _ := looked.writes
  unfold planIntent
  by_cases states : intent.States scope
  · have unquoted : planning.db.quotes.get planning.db.nextId = none := by
      have same : planning.db.quotes = db.quotes := by rw [frame]
      rw [same]
      exact (quotes.mono looked.grown).free
    rw [if_neg (states.plain informs), if_neg free, if_pos (show _ ∨ _ from states),
      planTerms_succeeds looked refs unquoted]
    exact ⟨fun fits _ => fits, fun fits => fits states⟩
  · refine iff_of_true ?_ fun stated => absurd stated states
    by_cases question : intent.type.IsQuestion
    · rw [if_pos question]
      exact ⟨_, rfl⟩
    · rw [if_neg question, if_neg free, if_neg (show ¬ (_ ∨ _) from states)]
      split
      · exact ⟨_, rfl⟩
      · unfold planWithdraw
        rw [show planning.db.session = db.session by rw [frame]]
        split
        · exact ⟨_, rfl⟩
        · next offerId named =>
          obtain ⟨current, found⟩ := Option.ne_none_iff_exists'.mp (held offerId named)
          rw [show planning.db.offers = db.offers by rw [frame], found]
          simp only [bind_eq_ok, expect_eq_ok, Option.some.injEq]
          by_cases other : WithdrawsOther planning.db scope intent current
          · exact ⟨_, current, rfl, if_pos other⟩
          · exact ⟨_, current, rfl, if_neg other⟩
      · exact ⟨_, rfl⟩
      · exact ⟨_, rfl⟩

theorem planIntents_blocked (blocked : ¬ scope.Clear) (ordered : List Intent) :
    ∃ last, planIntents scope ordered planning = .ok last := by
  induction ordered generalizing planning with
  | nil => exact ⟨planning, rfl⟩
  | cons intent rest inductionHypothesis =>
    obtain ⟨plan, planned⟩ : ∃ plan, planIntent planning.db scope planning.statuses intent = .ok plan :=
      planIntent_blocked blocked
    unfold planIntents
    rw [planned]
    exact inductionHypothesis

/-- The intents of a turn that is free to act are planned if all that they come to has its
place. -/
theorem planIntents_succeeds (clear : scope.Clear)
    (refs : ∀ ref, boundRef db scope.run scope.payload scope.now = some ref → ref.id < db.nextId)
    (informs : ∀ intent ∈ scope.changes, intent.type = .provideInfo)
    (quotes : db.quotes.Below db.nextId)
    (held : ∀ id, db.session.currentOfferId = some id → db.offers.get id ≠ none)
    (rest : List Intent) (planning : Planning) (looked : Looked db scope processed planning.db) :
    (∃ last, planIntents scope rest planning = .ok last) ↔
      ∀ before intent later, rest = before ++ intent :: later → intent.States scope →
        FitsAfter db scope (processed ++ before) intent := by
  induction rest generalizing processed planning with
  | nil =>
    refine iff_of_true ⟨planning, rfl⟩ fun before intent later none => ?_
    exact absurd none.symm (by simp)
  | cons intent rest inductionHypothesis =>
    unfold planIntents
    simp only [bind_eq_ok]
    constructor
    · rintro ⟨last, plan, planned, done⟩ before other later split states
      cases before with
      | nil =>
        obtain ⟨rfl, rfl⟩ := List.cons.inj split
        rw [List.append_nil]
        exact (planIntent_succeeds looked clear refs informs quotes held).mp ⟨plan, planned⟩ states
      | cons first before =>
        obtain ⟨rfl, rest_⟩ := List.cons.inj split
        have following := (inductionHypothesis _
          (looked.record clear refs informs planned)).mp ⟨last, done⟩ before other later rest_ states
        rw [List.append_assoc] at following
        exact following
    · intro fits
      obtain ⟨plan, planned⟩ := (planIntent_succeeds looked clear refs informs quotes held).mpr
        fun states => (List.append_nil processed) ▸ fits [] intent rest rfl states
      obtain ⟨last, done⟩ := (inductionHypothesis _
        (looked.record clear refs informs planned)).mpr fun before other later split states => by
          rw [List.append_assoc]
          exact fits (intent :: before) other later (congrArg _ split) states
      exact ⟨last, plan, planned, done⟩

end

/-! ### The turn -/

/-- All that a turn comes to has its place. -/
def PlanFits (db : Db) (scope : TurnScope) (ordered : List Intent) : Prop :=
  scope.Clear → ∀ before intent later, ordered = before ++ intent :: later → intent.States scope →
    FitsAfter db scope before intent

section

variable [Platform]

/-- The intents of a turn are planned if all that they come to has its place. -/
theorem planIntents_ends {world : World} (reached : Reachable World.Step World.Initial world)
    {run : NegotiationInput} {payload : ChatInput}
    (found : world.db.inputs.get run.id = some run) (chat : run.payload = .chat payload)
    (now : Time) (ordered : List Intent) (safe : Bool) :
    (∃ planning, planIntents (scopeOf world.db run payload now ordered safe) ordered
      { db := world.db, command := (scopeOf world.db run payload now ordered safe).query } =
        .ok planning) ↔
      PlanFits world.db (scopeOf world.db run payload now ordered safe) ordered := by
  by_cases clear : (scopeOf world.db run payload now ordered safe).Clear
  · have informs : ∀ intent ∈ (scopeOf world.db run payload now ordered safe).changes,
        intent.type = .provideInfo :=
      fun intent listed => (of_decide_eq_true (List.mem_filter.mp listed).2).1
    have held : ∀ id, world.db.session.currentOfferId = some id →
        world.db.offers.get id ≠ none := by
      intro id named
      obtain ⟨offer, member, rfl, _⟩ := (reachable_shape reached).current id named
      have present : world.db.offers.get offer.id = some offer := Table.get_of_mem member
      rw [present]
      exact Option.some_ne_none offer
    have refs : ∀ ref, boundRef world.db run payload now = some ref → ref.id < world.db.nextId :=
      fun ref => boundRef_below (reachable_referred reached) (Table.mem_of_get found) chat
    have looked : Looked world.db (scopeOf world.db run payload now ordered safe) [] world.db :=
      .start (reachable_drafts_below reached)
    have ends := planIntents_succeeds clear refs informs (reachable_supplied reached).quotes held
      ordered { db := world.db, command := (scopeOf world.db run payload now ordered safe).query } looked
    exact ends.trans ⟨fun fits _ => fits, fun fits => fits clear⟩
  · exact iff_of_true (planIntents_blocked clear ordered) fun free => absurd free clear

/-- The owner of a run comes to a stored turn for every valid frame, exactly if all that the
turn comes to has its place: a merge has at most eight conditions and eight commitments, and the
group of a new alternative is shorter than the thirty-two letters that the contract allows. -/
theorem planning_ends {world : World} (reached : Reachable World.Step World.Initial world)
    {runId : Nat} {owner : Owner} {frame : IntentFrame} {now : Time} {run : NegotiationInput}
    {task : ModelExecutionTask} {payload : ChatInput} {ordered : List Intent}
    (owned : lockOwner world.db runId owner now = .ok (run, task))
    (chat : run.payload = .chat payload)
    (valid : frame.validatedFor payload.text = .ok ordered) :
    ∃ safe, safeFrame frame payload.text = .ok (ordered, safe) ∧
      ((∃ after turn, planFrame world.db runId owner frame now = .ok after ∧
          after.turns.get runId = some turn) ↔
        (world.db.turns.get runId = none →
          PlanFits world.db (scopeOf world.db run payload now ordered safe) ordered)) := by
  obtain ⟨safe, checked⟩ : ∃ safe, safeFrame frame payload.text = .ok (ordered, safe) :=
    ⟨_, safeFrame_eq_ok.mpr ⟨valid, rfl⟩⟩
  refine ⟨safe, checked, ?_⟩
  have found := (lockOwner_eq_ok.mp owned).1
  obtain rfl : run.id = runId := Table.key_of_get found
  have ends := planIntents_ends reached found chat now ordered safe
  constructor
  · rintro ⟨after, turn, done, _⟩ free
    obtain ⟨other, _, again, _, ⟨known, _⟩ | ⟨_, words, intents, free_, planning, plans, _⟩⟩ :=
      planFrame_cases done
    · exact absurd free known
    · obtain ⟨rfl, _⟩ := Prod.mk.inj (Except.ok.inj (owned.symm.trans again))
      obtain rfl := Payload.chat.inj (plans.chat.symm.trans chat)
      obtain ⟨rfl, rfl⟩ := Prod.mk.inj (Except.ok.inj (plans.checked.symm.trans checked))
      exact ends.mp ⟨planning, plans.done⟩
  · intro fits
    cases free : world.db.turns.get run.id with
    | some turn => exact ⟨world.db, turn, planFrame_known owned free, free⟩
    | none =>
      obtain ⟨planning, done⟩ := ends.mpr (fits free)
      have stored : ∀ turn : SemanticTurn, turn.inputId = run.id →
          (world.db.turns.insertIgnore turn).get run.id = some turn :=
        fun turn key => Table.get_insertIgnore.trans (if_pos ⟨key.symm, free⟩)
      exact ⟨_, _, planFrame_new owned free ⟨chat, checked, done⟩, stored _ rfl⟩

end

attribute [local instance] samplePlatform in
theorem planning_ends_pickup :
    ∃ after turn,
      planFrame (semanticWorld.after (written "first" "90元自提" 3 (seconds 1))).db 3 (6, 1)
        { intents := [pickupIntent] } (seconds 1) = .ok after ∧ after.turns.get 3 = some turn := by
  have reached := World.reachable_after semanticWorld_initial
    (by decide +kernel : Scheduled 0 (written "first" "90元自提" 3 (seconds 1)))
  have locked : Succeeds (lockOwner (semanticWorld.after (written "first" "90元自提" 3 (seconds 1))).db
      3 (6, 1) (seconds 1)) fun owned =>
        owned.1.payload = .chat { text := "90元自提", clientViewId := "internal" } := by
    decide +kernel
  obtain ⟨⟨run, task⟩, owned, chat⟩ := (succeeds_iff _ _).mp locked
  obtain ⟨safe, _, ends⟩ := planning_ends reached owned chat (safeFrame_eq_ok.mp pickup_checked).1
  refine ends.mpr fun _ _ before intent later split _ => ?_
  obtain ⟨rfl, rfl⟩ : before = [] ∧ intent = pickupIntent := by
    cases before with
    | nil => exact ⟨rfl, (List.cons.inj split).1.symm⟩
    | cons first before => exact absurd (List.cons.inj split).2 (by simp)
  have single : (scopeOf (semanticWorld.after (written "first" "90元自提" 3 (seconds 1))).db run
      { text := "90元自提", clientViewId := "internal" } (seconds 1) [pickupIntent] safe).actions =
        [pickupIntent] := rfl
  refine ⟨fun original merges => ?_, fun alternatives => ?_⟩
  · cases merges
  · have several := alternatives.1
    rw [single] at several
    exact absurd several (by decide)

/-! ### Turns that do not come to an end -/

/-- Two alternatives of a group whose name has the thirty-two letters that are allowed. -/
def ninetyAlternative : Intent where
  id := "ninety"
  type := .proposeOffer
  sourceQuote := "90元自提"
  candidate := some
    { amount := some ⟨9000, ninety_fits⟩, delivery := some .pickup, positive := ninety_positive }
  alternativeGroup := some "abcdefghijklmnopqrstuvwxyzabcdef"

def eightyAlternative : Intent where
  id := "eighty"
  type := .proposeOffer
  sourceQuote := "80元自提"
  candidate := some
    { amount := some ⟨8000, eighty_fits⟩, delivery := some .pickup, positive := eighty_positive }
  alternativeGroup := some "abcdefghijklmnopqrstuvwxyzabcdef"

theorem groups_checked :
    safeFrame { intents := [ninetyAlternative, eightyAlternative] } "90元自提或者80元自提" =
      .ok ([ninetyAlternative, eightyAlternative], true) :=
  safeFrame_safe (by decide +kernel) rfl (by decide +kernel) (by decide +kernel)
    (by decide +kernel) (by decide +kernel)

/-- The goods were never repaired, in the words of the buyer. -/
def unrepairedCondition (sourceQuote : String) : Predicate :=
  { fact := .repairHistory, operator := .equal, value := "NO", sourceQuote }

/-- An offer of 90 yuan on eight conditions. -/
def eightConditions : Intent :=
  { conditionalIntent with
    candidate := some
      { amount := some ⟨9000, ninety_fits⟩
        positive := ninety_positive
        conditions :=
          ["没修过", "没修", "修过", "没", "修", "过", "如果没修过", "果没修过"].map unrepairedCondition } }

theorem eight_checked :
    safeFrame { intents := [eightConditions] } "如果没修过，90元" = .ok ([eightConditions], true) :=
  safeFrame_safe (by decide +kernel) rfl (by decide +kernel) (by decide +kernel)
    (by decide +kernel) (by decide +kernel)

def eightTurn : TurnPlan where
  command := { kind := .query, text := "如果没修过，90元" }
  drafts :=
    [{ bound := none
       candidate := eightConditions.candidate.getD {}
       missing := [.delivery, .payer] }]
  selected := none

/-- The buyer makes the offer, and its turn leaves the draft 7. -/
def eightDraft : List Event :=
  written "first" "如果没修过，90元" 3 (seconds 1) ++
    [.call (.planTurn 3 (6, 1) eightTurn (seconds 1))]

/-- One more condition for the draft. -/
def ninthChat : ChatInput where
  text := "只要带盒子就自提"
  clientViewId := "internal"
  draftId := some 7
  draftVersion := some 1
  paired := alternativeChat.paired

def ninthCondition : Intent where
  id := "ninth"
  type := .changeTerms
  sourceQuote := "只要带盒子就自提"
  candidate := some { delivery := some .pickup, conditions := [
      { fact := .unsupported, operator := .equal, value := "盒子", sourceQuote := "带盒子" }] }

theorem ninth_checked :
    safeFrame { intents := [ninthCondition] } ninthChat.text = .ok ([ninthCondition], true) :=
  safeFrame_safe (by decide +kernel) rfl (by decide +kernel) (by decide +kernel)
    (by decide +kernel) (by decide +kernel)

attribute [local instance] samplePlatform in
/-- The turn of the offer stores the plan that the run takes. -/
theorem eight_planned :
    planFrame (semanticWorld.after (written "first" "如果没修过，90元" 3 (seconds 1))).db 3 (6, 1)
      { intents := [eightConditions] } (seconds 1) = .ok (semanticWorld.after eightDraft).db := by
  have reached := World.reachable_after semanticWorld_initial
    (by decide +kernel : Scheduled 0 (written "first" "如果没修过，90元" 3 (seconds 1)))
  exact planFrame_after { text := "如果没修过，90元", clientViewId := "internal" } eightTurn reached
    (by decide +kernel) eight_checked (by decide +kernel) (by decide +kernel)

attribute [local instance] samplePlatform in
/-- Two alternatives whose group has a long name are valid and are never planned, and neither is
a ninth condition for the draft of the turn before. -/
theorem turns_without_end :
    (Succeeds (lockOwner
        (semanticWorld.after (written "first" "90元自提或者80元自提" 3 (seconds 1))).db 3 (6, 1)
        (seconds 1)) fun owned =>
          owned.1.payload = .chat { text := "90元自提或者80元自提", clientViewId := "internal" }) ∧
      (∃ ordered, ({ intents := [ninetyAlternative, eightyAlternative] } : IntentFrame).validatedFor
        "90元自提或者80元自提" = .ok ordered) ∧
      (∀ after, planFrame
        (semanticWorld.after (written "first" "90元自提或者80元自提" 3 (seconds 1))).db 3 (6, 1)
        { intents := [ninetyAlternative, eightyAlternative] } (seconds 1) ≠ .ok after) ∧
    planFrame (semanticWorld.after (written "first" "如果没修过，90元" 3 (seconds 1))).db 3 (6, 1)
      { intents := [eightConditions] } (seconds 1) = .ok (semanticWorld.after eightDraft).db ∧
      (Succeeds (lockOwner (semanticWorld.after (writtenOn eightDraft ninthChat)).db 10 (13, 1)
        (seconds 3)) fun owned => owned.1.payload = .chat ninthChat) ∧
      (∃ ordered, ({ intents := [ninthCondition] } : IntentFrame).validatedFor ninthChat.text =
        .ok ordered) ∧
      ∀ after, planFrame (semanticWorld.after (writtenOn eightDraft ninthChat)).db 10 (13, 1)
        { intents := [ninthCondition] } (seconds 3) ≠ .ok after := by
  have first : Succeeds (lockOwner
      (semanticWorld.after (written "first" "90元自提或者80元自提" 3 (seconds 1))).db 3 (6, 1)
      (seconds 1)) fun owned =>
        owned.1.payload = .chat { text := "90元自提或者80元自提", clientViewId := "internal" } := by
    decide +kernel
  have second : Succeeds (lockOwner (semanticWorld.after (writtenOn eightDraft ninthChat)).db 10
      (13, 1) (seconds 3)) fun owned => owned.1.payload = .chat ninthChat := by
    decide +kernel
  have unnamed : ¬ PlansAs
      (semanticWorld.after (written "first" "90元自提或者80元自提" 3 (seconds 1))).db 3 (6, 1)
      { text := "90元自提或者80元自提", clientViewId := "internal" }
      [ninetyAlternative, eightyAlternative] true (seconds 1) fun _ => True := by
    decide +kernel
  have unmerged : ¬ PlansAs (semanticWorld.after (writtenOn eightDraft ninthChat)).db 10 (13, 1)
      ninthChat [ninthCondition] true (seconds 3) fun _ => True := by
    decide +kernel
  refine ⟨first, ⟨_, (safeFrame_eq_ok.mp groups_checked).1⟩, ?_, eight_planned, second,
    ⟨_, (safeFrame_eq_ok.mp ninth_checked).1⟩, ?_⟩
  · have free : (semanticWorld.after
        (written "first" "90元自提或者80元自提" 3 (seconds 1))).db.turns.get 3 = none := by
      decide +kernel
    exact planFrame_stuck { text := "90元自提或者80元自提", clientViewId := "internal" } free
      groups_checked first unnamed
  · have free : (semanticWorld.after (writtenOn eightDraft ninthChat)).db.turns.get 10 = none := by
      decide +kernel
    exact planFrame_stuck ninthChat free ninth_checked second unmerged

end Negotiation
