/-
This file follows the dependencies of the intents. An intent can depend on
others of its frame; what was not answered leaves a mark on the draft of the
intent. The file proves in which runs the mark stays until the answer comes, and
when a command waits for its answers.
-/

import SecondhandAgent.Commanding
import SecondhandAgent.Lookup

namespace Negotiation

open Store

/-! ### Answers of a turn -/

/-- What an intent depends on is a question of the frame that the turn answers. -/
def AnsweredIn (db : Db) (scope : TurnScope) (ordered : List Intent) (id : String) : Prop :=
  ∃ question ∈ ordered, question.id = id ∧ question.type.IsQuestion ∧
    answerQuestion db scope.run scope.payload question.topic question.sourceQuote scope.now =
      .answered

instance (db : Db) (scope : TurnScope) (ordered : List Intent) (id : String) :
    Decidable (AnsweredIn db scope ordered id) :=
  inferInstanceAs (Decidable (∃ question ∈ ordered, _))

/-- The intent was answered or is ready in the turn. -/
def ResolvedIn (log : List Entry) (id : String) : Prop :=
  ∃ entry ∈ log, entry.intent.id = id ∧ (entry.status = .answered ∨ entry.status = .ready)

instance (log : List Entry) (id : String) : Decidable (ResolvedIn log id) :=
  inferInstanceAs (Decidable (∃ entry ∈ log, _))

/-- The draft waits for an answer, and says so. -/
def Waiting (db : Db) (draftId : Nat) : Prop :=
  ∀ draft, db.drafts.get draftId = some draft →
    draft.status ≠ .ready ∧ draft.status ≠ .submitted ∧ .dependencyUnresolved ∈ draft.missing

/-- What a turn must answer: the dependencies of an intent that gives a command without a draft,
and those that the bound draft waits for when the first continuation has none of its own
left. -/
structure TurnAnswers (db : Db) (scope : TurnScope) (ordered : List Intent)
    (outstanding : List (Nat × String)) : Prop where
  named : ∀ intent ∈ ordered, ∀ command, scope.Clear → Names db scope intent command →
    ∀ dependency ∈ intent.dependsOn, AnsweredIn db scope ordered dependency
  continued : ∀ before intent later, ordered = before ++ intent :: later → scope.Clear →
    intent.GoesOn scope → ∀ bound, boundAfter db scope before = some bound →
    (∀ dependency ∈ intent.dependsOn, AnsweredIn db scope ordered dependency) →
    ∀ dependency, (bound.id, dependency) ∈ outstanding → AnsweredIn db scope ordered dependency

/-! ### The entries of a turn -/

/-- What the entry of an intent says about its dependencies. -/
structure Entry.Sound (db : Db) (scope : TurnScope) (ordered : List Intent) (entry : Entry) :
    Prop where
  told : entry.intent.type.IsQuestion → entry.status =
    answerQuestion db scope.run scope.payload entry.intent.topic entry.intent.sourceQuote scope.now
  answered : entry.status = .answered → entry.intent.type.IsQuestion
  ready : entry.status = .ready → entry.intent.Acts scope ∧
    scope.actions.length + scope.changes.length ≤ 1 ∧
    ∀ dependency ∈ entry.intent.dependsOn, AnsweredIn db scope ordered dependency
  marked : ∀ draft, entry.draft = some draft →
    (∀ dependency ∈ entry.intent.dependsOn, AnsweredIn db scope ordered dependency) ∨
      .dependencyUnresolved ∈ draft.2.missing

section

variable {db current : Db} {scope : TurnScope} {ordered processed rest : List Intent}
variable {intent : Intent} {planning : Planning}

theorem DraftWrites.answerQuestion (writes : DraftWrites db current) (run : NegotiationInput)
    (payload : ChatInput) (topic : Option String) (sourceQuote : String) (now : Time) :
    answerQuestion current run payload topic sourceQuote now =
      answerQuestion db run payload topic sourceQuote now := by
  have product : current.product = db.product := by rw [show current = _ from writes]
  have offers : current.offers = db.offers := by rw [show current = _ from writes]
  have session : current.session = db.session := by rw [show current = _ from writes]
  have facts : factFor current = factFor db := by
    funext name
    unfold factFor
    rw [show current.facts = db.facts by rw [show current = _ from writes]]
  have topics : topicAnswer current = topicAnswer db := by
    funext name
    unfold topicAnswer
    rw [product, facts]
  unfold Negotiation.answerQuestion publicAnswer
  rw [writes.frozenContext, offers, session, topics]

/-- A question is answered, or its answer is not known. -/
theorem topicAnswer_told (topic : String) :
    topicAnswer db topic = .answered ∨ topicAnswer db topic = .unknown := by
  have told : ∀ known : Bool, (if known = true then IntentStatus.answered else .unknown) = .answered ∨
      (if known = true then IntentStatus.answered else .unknown) = .unknown :=
    fun known => ite_eq_or_eq _ _ _
  unfold topicAnswer
  dsimp only
  split
  · exact .inl rfl
  · split
    · exact .inr rfl
    · split
      · exact told _
      · split
        · exact .inl rfl
        · exact told _

theorem publicAnswer_told (topic : Option String) (sourceQuote : String) :
    publicAnswer db topic sourceQuote = .answered ∨
      publicAnswer db topic sourceQuote = .unknown := by
  unfold publicAnswer
  dsimp only
  split
  · exact topicAnswer_told _
  · exact (ite_eq_or_eq _ _ _).symm

theorem answerQuestion_told (run : NegotiationInput) (payload : ChatInput) (topic : Option String)
    (sourceQuote : String) (now : Time) :
    answerQuestion db run payload topic sourceQuote now = .answered ∨
      answerQuestion db run payload topic sourceQuote now = .unknown := by
  unfold answerQuestion
  dsimp only
  split
  · exact .inl rfl
  · split
    · exact .inl rfl
    · exact publicAnswer_told topic sourceQuote

theorem Names.of_writes {command : TypedInput} (writes : DraftWrites db current)
    (names : Names current scope intent command) : Names db scope intent command := by
  rw [show current = _ from writes] at names
  cases names with
  | confirm type shown named => exact .confirm type shown named
  | withdraw type held found same => exact .withdraw type held found same
  | close type => exact .close type

/-- What was looked up and found resolved has its entry. -/
theorem resolved_of_lookup {id : String} {status : IntentStatus}
    (found : planning.statuses.lookup id = some status)
    (settled : status = .answered ∨ status = .ready) : ResolvedIn planning.log id := by
  obtain ⟨before, later, split, _⟩ := List.lookup_eq_some_iff.mp found
  have listed : (id, status) ∈ planning.statuses :=
    split ▸ List.mem_append_right _ List.mem_cons_self
  obtain ⟨entry, member, same⟩ := List.mem_map.mp listed
  obtain ⟨named, reached⟩ := Prod.mk.inj same
  exact ⟨entry, member, named, reached ▸ settled⟩

/-- Before an intent that acts nothing of the turn is ready. -/
theorem unready_before
    (few : (ordered.filter fun intent => intent.Acts scope).length ≤
      scope.actions.length + scope.changes.length)
    (split : processed ++ intent :: rest = ordered) (acts : intent.Acts scope)
    (logged : planning.log.map (·.intent) = processed)
    (sound : ∀ entry ∈ planning.log, entry.Sound db scope ordered) :
    ∀ entry ∈ planning.log, entry.status ≠ .ready := by
  intro entry listed ready
  obtain ⟨acted, single, _⟩ := (sound entry listed).ready ready
  have first : entry.intent ∈ processed.filter fun intent => intent.Acts scope := by
    rw [← logged]
    exact List.mem_filter.mpr ⟨List.mem_map_of_mem listed, decide_eq_true acted⟩
  have second : intent ∈ (intent :: rest).filter fun intent => intent.Acts scope :=
    List.mem_filter.mpr ⟨List.mem_cons_self, decide_eq_true acts⟩
  have one := List.length_pos_of_mem first
  have two := List.length_pos_of_mem second
  rw [← split, List.filter_append, List.length_append] at few
  omega

/-- An intent whose dependencies are all resolved has them answered. -/
theorem answered_of_settled
    (few : (ordered.filter fun intent => intent.Acts scope).length ≤
      scope.actions.length + scope.changes.length)
    (split : processed ++ intent :: rest = ordered) (acts : intent.Acts scope)
    (logged : planning.log.map (·.intent) = processed)
    (sound : ∀ entry ∈ planning.log, entry.Sound db scope ordered)
    (settled : ¬ Unresolved planning.statuses intent) :
    ∀ dependency ∈ intent.dependsOn, AnsweredIn db scope ordered dependency := by
  intro dependency needed
  have looked : planning.statuses.lookup dependency = some .answered ∨
      planning.statuses.lookup dependency = some .ready := by
    by_contra neither
    exact settled ⟨dependency, needed, not_or.mp neither⟩
  have resolved : ResolvedIn planning.log dependency := by
    rcases looked with answered | ready
    · exact resolved_of_lookup answered (.inl rfl)
    · exact resolved_of_lookup ready (.inr rfl)
  obtain ⟨entry, listed, named, status⟩ := resolved
  have answered := status.resolve_right (unready_before few split acts logged sound entry listed)
  have question := (sound entry listed).answered answered
  have member : entry.intent ∈ ordered := by
    rw [← split, ← logged]
    exact List.mem_append_left _ (List.mem_map_of_mem listed)
  exact ⟨entry.intent, member, named, question, (sound entry listed).told question ▸ answered⟩

end

section

variable [Platform] {db : Db} {scope : TurnScope} {ordered processed rest : List Intent}
variable {intent : Intent} {planning : Planning} {plan : IntentPlan}
variable {outstanding : List (Nat × String)}

/-- What an intent comes to says what there is to say about its dependencies. -/
theorem IntentCase.sound
    (few : (ordered.filter fun intent => intent.Acts scope).length ≤
      scope.actions.length + scope.changes.length)
    (among : intent.type.IsAction → intent ∈ scope.actions)
    (informs : ∀ intent ∈ scope.changes, intent.type = .provideInfo)
    (split : processed ++ intent :: rest = ordered)
    (logged : planning.log.map (·.intent) = processed)
    (sound : ∀ entry ∈ planning.log, entry.Sound db scope ordered)
    (answers : TurnAnswers db scope ordered outstanding) (writes : DraftWrites db planning.db)
    (outcome : IntentCase planning.db scope planning.statuses intent plan) :
    Entry.Sound db scope ordered
      { intent, status := plan.status, draft := planning.stored scope.run.id scope.now plan } := by
  have member : intent ∈ ordered := split ▸ List.mem_append_right _ List.mem_cons_self
  have marked : ∀ candidate, intent.Acts scope →
      (∀ dependency ∈ intent.dependsOn, AnsweredIn db scope ordered dependency) ∨
        .dependencyUnresolved ∈
          (plannedDraft planning.db scope planning.statuses intent candidate).missing := by
    intro candidate acts
    by_cases settled : Unresolved planning.statuses intent
    · refine .inr (List.mem_append_right _ ?_)
      rw [if_pos settled]
      exact List.mem_singleton_self _
    · exact .inl (answered_of_settled few split acts logged sound settled)
  cases outcome with
  | told question =>
    refine ⟨fun _ => writes.answerQuestion _ _ _ _ _, fun _ => question, fun ready => ?_,
      fun draft none => absurd none.symm (Option.some_ne_none draft)⟩
    have ready : answerQuestion planning.db scope.run scope.payload intent.topic
      intent.sourceQuote scope.now = .ready := ready
    rcases ready ▸ answerQuestion_told scope.run scope.payload intent.topic intent.sourceQuote
      scope.now with answered | unknown
    · cases answered
    · cases unknown
  | idle plain quiet =>
    refine ⟨fun question => absurd question plain, fun answered => ?_, fun ready => ?_,
      fun draft none => absurd none.symm (Option.some_ne_none draft)⟩
    · rcases quiet with rfl | rfl <;> cases answered
    · rcases quiet with rfl | rfl <;> cases ready
  | drafted clear states merges waits =>
    refine ⟨fun question => absurd question (states.plain informs), fun answered => ?_,
      fun ready => ?_, fun draft made => ?_⟩
    · rcases waits with rfl | rfl | rfl <;> cases answered
    · rcases waits with rfl | rfl | rfl <;> cases ready
    · obtain rfl := Option.some.inj made
      exact marked _ states.acts
  | offered clear states merges complete single =>
    have settled : ¬ Unresolved planning.statuses intent := by
      intro unresolved
      have mark := (List.append_eq_nil_iff.mp complete).2
      rw [if_pos unresolved] at mark
      cases mark
    refine ⟨fun question => absurd question (states.plain informs), fun answered => ?_,
      fun _ => ⟨states.acts, single, answered_of_settled few split states.acts logged sound settled⟩,
      fun draft made => ?_⟩
    · cases answered
    · obtain rfl := Option.some.inj made
      exact marked _ states.acts
  | named clear names =>
    refine ⟨fun question => ?_, fun answered => ?_, fun _ => ⟨.inl names.isAction,
      names.single clear among, answers.named intent member _ clear (names.of_writes writes)⟩,
      fun draft none => absurd none.symm (Option.some_ne_none draft)⟩
    · cases names with
      | confirm type | withdraw type | close type =>
        have question : intent.type.IsQuestion := question
        rw [type] at question
        exact absurd question (by decide)
    · cases answered

/-- A draft that comes with a command misses nothing. -/
theorem IntentCase.offers {statuses : List (String × IntentStatus)} {planned : PlannedDraft}
    (outcome : IntentCase db scope statuses intent plan) (made : plan.draft = some planned)
    (given : plan.command ≠ none) : planned.missing = [] := by
  cases outcome with
  | told | idle | drafted => exact absurd rfl given
  | named => exact absurd made.symm (Option.some_ne_none planned)
  | offered _ _ _ complete =>
    obtain rfl := Option.some.inj made
    exact complete

/-- Where the planning of a turn stands, with the drafts that wait for an answer. -/
structure Tracked (db : Db) (scope : TurnScope) (ordered : List Intent)
    (outstanding : List (Nat × String)) (processed : List Intent) (planning : Planning) : Prop where
  writes : DraftWrites db planning.db
  looked : scope.Clear → Looked db scope processed planning.db
  logged : planning.log.map (·.intent) = processed
  sound : ∀ entry ∈ planning.log, entry.Sound db scope ordered
  keys : ∀ entry ∈ planning.log, ∀ draft, entry.draft = some draft → draft.1 < db.nextId →
    ∃ earlier ∈ processed, earlier.GoesOn scope
  rows : ∀ entry ∈ planning.log, ∀ draft, entry.draft = some draft → ∃ row,
    planning.db.drafts.get draft.1 = some row ∧ row.missing = draft.2.missing ∧
      row.status = assessedStatus draft.2.missing
  waits : ∀ pair ∈ outstanding, ¬ AnsweredIn db scope ordered pair.2 → Waiting planning.db pair.1
  selected : ∀ id, planning.selected = some id → ∃ entry ∈ planning.log, ∃ planned,
    entry.draft = some (id, planned) ∧ planned.missing = []

/-- The row that a draft is stored as: a new one, or the bound one that the intent is the first to
go on with. -/
theorem Drafts.place {planned : PlannedDraft}
    (refs : ∀ ref, boundRef db scope.run scope.payload scope.now = some ref → ref.id < db.nextId)
    (looked : Looked db scope processed planning.db)
    (drafts : Drafts planning.db scope planning.statuses intent planned) :
    (draftRow planning.db scope.run.id planned scope.now).id = planning.db.nextId ∨
      ∃ bound, boundAfter db scope processed = some bound ∧ intent.GoesOn scope ∧
        (draftRow planning.db scope.run.id planned scope.now).id = bound.id := by
  have finds := looked.finds refs
  have new : planned.bound = none →
      (draftRow planning.db scope.run.id planned scope.now).id = planning.db.nextId := by
    intro free
    rw [draftRow_new free]
  cases look : boundAfter db scope processed with
  | none => exact .inl (new (drafts.new (.inl (finds.trans look))))
  | some bound =>
    have here := finds.trans look
    by_cases continues : intent.Continues
    · obtain ⟨revises, _⟩ := drafts.continues here continues
      refine .inr ⟨bound, rfl, ⟨drafts.states, continues⟩, ?_⟩
      rw [draftRow_bound revises (boundDraft_found here).1]
    · exact .inl (new (drafts.new (.inr continues)))

theorem Tracked.record
    (refs : ∀ ref, boundRef db scope.run scope.payload scope.now = some ref → ref.id < db.nextId)
    (below : db.drafts.Below db.nextId)
    (few : (ordered.filter fun intent => intent.Acts scope).length ≤
      scope.actions.length + scope.changes.length)
    (among : ∀ intent ∈ ordered, intent.type.IsAction → intent ∈ scope.actions)
    (informs : ∀ intent ∈ scope.changes, intent.type = .provideInfo)
    (known : ∀ pair ∈ outstanding, pair.1 < db.nextId)
    (answers : TurnAnswers db scope ordered outstanding)
    (split : processed ++ intent :: rest = ordered)
    (tracked : Tracked db scope ordered outstanding processed planning)
    (done : planIntent planning.db scope planning.statuses intent = .ok plan) :
    Tracked db scope ordered outstanding (processed ++ [intent])
      (planning.record scope.run.id scope.now intent plan) := by
  have outcome := planIntent_case done
  obtain ⟨writes, looked, logged, sound, keys, rows, waits, selected⟩ := tracked
  have member : intent ∈ ordered := split ▸ List.mem_append_right _ List.mem_cons_self
  have new := outcome.sound few (among intent member) informs split logged sound answers writes
  have log := record_log planning scope.run.id scope.now intent plan
  have all : ∀ {holds : Entry → Prop}, (∀ entry ∈ planning.log, holds entry) →
      holds { intent, status := plan.status, draft := planning.stored scope.run.id scope.now plan } →
      ∀ entry ∈ (planning.record scope.run.id scope.now intent plan).log, holds entry := by
    intro holds old here entry listed
    rw [log] at listed
    rcases List.mem_append.mp listed with earlier | last
    · exact old entry earlier
    · rw [List.mem_singleton.mp last]
      exact here
  have intents : (planning.record scope.run.id scope.now intent plan).log.map (·.intent) =
      processed ++ [intent] := by
    rw [log, List.map_append, logged]
    rfl
  have later : (∃ earlier ∈ processed, earlier.GoesOn scope) →
      ∃ earlier ∈ processed ++ [intent], earlier.GoesOn scope := fun gone =>
    goesOn_append.mpr (.inl gone)
  have written := writes.trans (record_writes planning scope.run.id scope.now intent plan)
  have looking := fun clear => (looked clear).record clear refs informs done
  cases made : plan.draft with
  | none =>
    obtain ⟨same, kept⟩ := record_idle planning scope.run.id scope.now intent made
    have undrafted : planning.stored scope.run.id scope.now plan = none := by
      rw [Planning.stored, made]
      rfl
    refine ⟨written, looking, intents, all sound new, all ?_ ?_, all ?_ ?_, ?_, ?_⟩
    · exact fun entry listed draft drafted low => later (keys entry listed draft drafted low)
    · exact fun draft drafted => absurd (undrafted.symm.trans drafted).symm (Option.some_ne_none draft)
    · rw [same]
      exact rows
    · exact fun draft drafted => absurd (undrafted.symm.trans drafted).symm (Option.some_ne_none draft)
    · rw [same]
      exact waits
    · rw [kept, log]
      intro id chosen
      obtain ⟨entry, listed, planned, drafted, complete⟩ := selected id chosen
      exact ⟨entry, List.mem_append_left _ listed, planned, drafted, complete⟩
  | some planned =>
    have drafts := outcome.drafts made
    have looked := looked drafts.clear
    obtain ⟨next, chosen⟩ := record_drafted planning scope.run.id scope.now intent made
    have place := drafts.place refs looked
    have missing : (draftRow planning.db scope.run.id planned scope.now).missing = planned.missing :=
      draftRow_missing
    have status : (draftRow planning.db scope.run.id planned scope.now).status =
      assessedStatus planned.missing := draftRow_status
    generalize draftRow_ : draftRow planning.db scope.run.id planned scope.now = row at *
    have stored : ∀ wanted, (planning.record scope.run.id scope.now intent plan).db.drafts.get wanted =
        if wanted = row.id then some row else planning.db.drafts.get wanted := by
      intro wanted
      rw [next, storeDraft_get looked.below, draftRow_]
    have drafted : planning.stored scope.run.id scope.now plan = some (row.id, planned) := by
      rw [Planning.stored, made, Option.map_some, storeDraft_key, draftRow_]
    have low : ∀ bound, boundAfter db scope processed = some bound → bound.id < db.nextId :=
      fun bound look => below bound
        (Table.mem_of_get (boundDraft_found (boundAfter_eq_some.mp look).1).1)
    -- The row is none of those that the turn wrote before.
    have apart : ∀ entry ∈ planning.log, ∀ draft, entry.draft = some draft → draft.1 ≠ row.id := by
      intro entry listed draft earlier same
      rcases place with fresh | ⟨bound, look, _, here⟩
      · obtain ⟨old, found, _⟩ := rows entry listed draft earlier
        have present := looked.below old (Table.mem_of_get found)
        rw [Table.key_of_get found, same, fresh] at present
        exact Nat.lt_irrefl _ present
      · exact (boundAfter_eq_some.mp look).2
          (keys entry listed draft earlier (same.trans here ▸ low bound look))
    refine ⟨written, looking, intents, all sound new, all ?_ ?_, all ?_ ?_, ?_, ?_⟩
    · exact fun entry listed draft drafted low => later (keys entry listed draft drafted low)
    · intro draft made_ under
      obtain rfl := Option.some.inj (drafted.symm.trans made_)
      rcases place with fresh | ⟨bound, _, goes, _⟩
      · have under : row.id < db.nextId := under
        have grown := looked.grown
        omega
      · exact goesOn_append.mpr (.inr goes)
    · intro entry listed draft made_
      rw [stored, if_neg (apart entry listed draft made_)]
      exact rows entry listed draft made_
    · intro draft made_
      obtain rfl := Option.some.inj (drafted.symm.trans made_)
      exact ⟨row, (stored row.id).trans (if_pos rfl), missing, status⟩
    · intro pair waiting unanswered
      by_cases here : pair.1 = row.id
      · have mark : .dependencyUnresolved ∈ planned.missing := by
          rcases place with fresh | ⟨bound, look, goes, key⟩
          · have under := known pair waiting
            have grown := looked.grown
            omega
          · refine (new.marked (row.id, planned) drafted).resolve_left fun own => unanswered ?_
            refine answers.continued processed intent rest split.symm drafts.clear goes bound look own
              pair.2 ?_
            rw [← key, ← here]
            exact waiting
        intro draft found
        rw [stored, if_pos here] at found
        obtain rfl := Option.some.inj found
        have pending : row.status = .pending := by
          rw [status]
          exact if_neg fun none => by rw [none] at mark; cases mark
        rw [pending, missing]
        exact ⟨by rintro ⟨⟩, by rintro ⟨⟩, mark⟩
      · intro draft found
        rw [stored, if_neg here] at found
        exact waits pair waiting unanswered draft found
    · intro id named
      rw [chosen] at named
      rw [log]
      split_ifs at named with silent
      · obtain ⟨entry, listed, old, made_, complete⟩ := selected id named
        exact ⟨entry, List.mem_append_left _ listed, old, made_, complete⟩
      · rw [storeDraft_key, draftRow_] at named
        obtain rfl := Option.some.inj named
        exact ⟨_, List.mem_append_right _ (List.mem_singleton_self _), planned, drafted,
          outcome.offers made silent⟩

end

end Negotiation
