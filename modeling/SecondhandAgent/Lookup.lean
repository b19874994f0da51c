/-
This file proves what a turn finds while it stores its drafts. The draft the
input refers to is there until an intent has gone on with it and is not found
any more after that; every other draft that was there before the turn stays as
it was.
-/

import SecondhandAgent.Continuation
import SecondhandAgent.References

namespace Negotiation

open Store

/-! ### What an input refers to -/

section

variable {db after : Db} {run : NegotiationInput} {payload : ChatInput} {now : Time}

theorem frozenContext_mem {context : PublicInteractionContext}
    (frozen : frozenContext db run payload now = some context) : context ∈ db.contexts := by
  unfold frozenContext at frozen
  obtain ⟨ack, _, shown⟩ := Option.bind_eq_some_iff.mp frozen
  exact Table.mem_of_get (Option.filter_eq_some_iff.mp shown).1

theorem chosenRef_mem {refs : List DraftRef} {text : String} {ref : DraftRef}
    (chosen : chosenRef refs text = some ref) : ref ∈ refs := by
  unfold chosenRef at chosen
  split at chosen
  · cases chosen
  · exact Option.some.inj chosen ▸ List.mem_singleton_self _
  · obtain ⟨_, _, found⟩ := Option.bind_eq_some_iff.mp chosen
    exact List.mem_of_getElem? found

/-- An input refers to a draft whose key was handed out. -/
theorem boundRef_below (referred : Referred db) (member : run ∈ db.inputs)
    (chat : run.payload = .chat payload) {ref : DraftRef}
    (named : boundRef db run payload now = some ref) : ref.id < db.nextId := by
  unfold boundRef at named
  split at named
  · next id given =>
    obtain ⟨version, _, rfl⟩ := Option.map_eq_some_iff.mp named
    exact referred.inputs run member payload chat id given
  · obtain ⟨context, frozen, chosen⟩ := Option.bind_eq_some_iff.mp named
    exact referred.contexts context (frozenContext_mem frozen) ref (chosenRef_mem chosen)

/-- The bound draft is the same as long as the drafts that were there are. -/
theorem boundDraft_kept (writes : DraftWrites db after)
    (refs : ∀ ref, boundRef db run payload now = some ref → ref.id < db.nextId)
    (same : ∀ key < db.nextId, after.drafts.get key = db.drafts.get key) :
    boundDraft after run payload now = boundDraft db run payload now := by
  rw [boundDraft_eq, boundDraft_eq, writes.boundRef]
  refine Option.bind_congr fun ref named => ?_
  unfold usableDraftOf
  rw [same ref.id (refs ref named), show after = _ from writes]

end

/-! ### Along the intents -/

/-- The intent states terms and goes on with what was proposed before. -/
def Intent.GoesOn (intent : Intent) (scope : TurnScope) : Prop :=
  intent.States scope ∧ intent.Continues

instance (intent : Intent) (scope : TurnScope) : Decidable (intent.States scope) :=
  inferInstanceAs (Decidable (_ ∨ _))

instance (intent : Intent) (scope : TurnScope) : Decidable (intent.GoesOn scope) :=
  inferInstanceAs (Decidable (_ ∧ _))

/-- The draft that an intent finds bound after those before it. -/
def boundAfter (db : Db) (scope : TurnScope) (processed : List Intent) : Option OfferDraft :=
  (boundDraft db scope.run scope.payload scope.now).filter fun _ =>
    ∀ earlier ∈ processed, ¬ earlier.GoesOn scope

theorem boundAfter_of_gone {db : Db} {scope : TurnScope} {processed : List Intent}
    (gone : ∃ earlier ∈ processed, earlier.GoesOn scope) : boundAfter db scope processed = none := by
  obtain ⟨earlier, member, goes⟩ := gone
  exact Option.filter_eq_none_iff.mpr fun _ _ holds => of_decide_eq_true holds earlier member goes

theorem boundAfter_of_none_gone {db : Db} {scope : TurnScope} {processed : List Intent}
    (stays : ∀ earlier ∈ processed, ¬ earlier.GoesOn scope) :
    boundAfter db scope processed = boundDraft db scope.run scope.payload scope.now := by
  unfold boundAfter
  cases boundDraft db scope.run scope.payload scope.now with
  | none => rfl
  | some bound =>
    rw [Option.filter_some, if_pos (decide_eq_true stays)]

section

variable [Platform] {db : Db} {scope : TurnScope} {processed ordered : List Intent}
variable {planning : Planning} {intent : Intent} {plan : IntentPlan} {bound : OfferDraft}

/-- A continuation that finds a bound draft comes to a draft. -/
theorem planIntent_continues {statuses : List (String × IntentStatus)} (clear : scope.Clear)
    (goes : intent.GoesOn scope) (plain : ¬ intent.type.IsQuestion)
    (look : boundDraft db scope.run scope.payload scope.now = some bound)
    (done : planIntent db scope statuses intent = .ok plan) : plan.draft ≠ none := by
  obtain ⟨states, continues⟩ := goes
  have free : ¬ (scope.safe = false ∨ scope.Conflict) := by
    rintro (unsafe_ | conflict)
    · rw [clear.safe] at unsafe_
      cases unsafe_
    · exact clear.settled conflict
  have original : originalCandidate db scope intent = some bound.candidate := by
    unfold originalCandidate
    rw [look]
    exact if_pos continues
  have planned : planTerms db scope statuses intent = .ok plan := by
    unfold planIntent at done
    rw [if_neg plain, if_neg free, if_pos (show _ ∨ _ from states)] at done
    exact done
  unfold planTerms at planned
  dsimp only at planned
  rw [original] at planned
  simp only [bind_eq_ok] at planned
  obtain ⟨candidate, _, made⟩ := planned
  rw [planCandidate_eq, bind_eq_ok] at made
  obtain ⟨_, _, made⟩ := made
  dsimp only at made
  split_ifs at made
  · obtain rfl := (pure_eq_ok _ _).mp made
    exact Option.some_ne_none _
  · obtain rfl := (pure_eq_ok _ _).mp made
    exact Option.some_ne_none _
  · simp only [bind_eq_ok, pure_eq_ok] at made
    obtain ⟨_, _, rfl⟩ := made
    exact Option.some_ne_none _
  · obtain rfl := (pure_eq_ok _ _).mp made
    exact Option.some_ne_none _

/-- Where the drafts stand after some intents of a turn that is free to act. -/
structure Looked (db : Db) (scope : TurnScope) (processed : List Intent) (current : Db) :
    Prop where
  writes : DraftWrites db current
  below : current.drafts.Below current.nextId
  grown : db.nextId ≤ current.nextId
  kept : ∀ key < db.nextId, current.drafts.get key = db.drafts.get key ∨
    ∃ bound, boundDraft db scope.run scope.payload scope.now = some bound ∧ bound.id = key ∧
      ∃ earlier ∈ processed, earlier.GoesOn scope
  raised : ∀ bound, boundDraft db scope.run scope.payload scope.now = some bound →
    (∃ earlier ∈ processed, earlier.GoesOn scope) →
    ∃ row, current.drafts.get bound.id = some row ∧ row.version = bound.version + 1

variable {current : Db}

omit [Platform]

theorem Looked.start (below : db.drafts.Below db.nextId) : Looked db scope [] db where
  writes := show DraftWrites db db from rfl
  below := below
  grown := Nat.le_refl _
  kept _ _ := .inl rfl
  raised _ _ := fun ⟨_, member, _⟩ => absurd member List.not_mem_nil

/-- What the next intent finds bound. -/
theorem Looked.finds (looked : Looked db scope processed current)
    (refs : ∀ ref, boundRef db scope.run scope.payload scope.now = some ref → ref.id < db.nextId) :
    boundDraft current scope.run scope.payload scope.now = boundAfter db scope processed := by
  by_cases gone : ∃ earlier ∈ processed, earlier.GoesOn scope
  · rw [boundAfter_of_gone gone]
    cases before : boundDraft db scope.run scope.payload scope.now with
    | some bound =>
      obtain ⟨row, found, raised⟩ := looked.raised bound before gone
      exact boundDraft_moved before looked.writes found raised
    | none =>
      rw [← before]
      refine boundDraft_kept looked.writes refs fun key low => ?_
      rcases looked.kept key low with same | ⟨bound, some, _⟩
      · exact same
      · rw [before] at some
        cases some
  · have stays : ∀ earlier ∈ processed, ¬ earlier.GoesOn scope :=
      fun earlier member goes => gone ⟨earlier, member, goes⟩
    rw [boundAfter_of_none_gone stays]
    refine boundDraft_kept looked.writes refs fun key low => ?_
    rcases looked.kept key low with same | ⟨_, _, _, earlier⟩
    · exact same
    · exact absurd earlier gone

theorem goesOn_append :
    (∃ earlier ∈ processed ++ [intent], earlier.GoesOn scope) ↔
      (∃ earlier ∈ processed, earlier.GoesOn scope) ∨ intent.GoesOn scope := by
  simp only [List.mem_append, List.mem_singleton, or_and_right, exists_or, exists_eq_left]

theorem boundAfter_eq_some {bound : OfferDraft} :
    boundAfter db scope processed = some bound ↔
      boundDraft db scope.run scope.payload scope.now = some bound ∧
        ¬ ∃ earlier ∈ processed, earlier.GoesOn scope := by
  unfold boundAfter
  rw [Option.filter_eq_some_iff, decide_eq_true_iff]
  simp only [not_exists, not_and]

/-- An intent that goes on with nothing leaves the drafts where they are. -/
theorem Looked.idle (looked : Looked db scope processed current)
    (quiet : ∀ bound, boundAfter db scope processed = some bound → ¬ intent.GoesOn scope) :
    Looked db scope (processed ++ [intent]) current where
  writes := looked.writes
  below := looked.below
  grown := looked.grown
  kept key low :=
    (looked.kept key low).imp_right fun ⟨bound, before, here, gone⟩ =>
      ⟨bound, before, here, goesOn_append.mpr (.inl gone)⟩
  raised bound before gone := by
    by_cases already : ∃ earlier ∈ processed, earlier.GoesOn scope
    · exact looked.raised bound before already
    · exact absurd ((goesOn_append.mp gone).resolve_left already)
        (quiet bound (boundAfter_eq_some.mpr ⟨before, already⟩))

/-- A new draft leaves those that were there where they are. -/
theorem Looked.added {planned : PlannedDraft} (looked : Looked db scope processed current)
    (new : planned.bound = none)
    (quiet : ∀ bound, boundAfter db scope processed = some bound → ¬ intent.GoesOn scope) :
    Looked db scope (processed ++ [intent]) (storeDraft current scope.run.id planned scope.now).1 := by
  obtain ⟨writes, below, grown, kept, raised⟩ := looked.idle quiet
  have key : (draftRow current scope.run.id planned scope.now).id = current.nextId := by
    rw [draftRow_new new]
  refine ⟨writes.trans (storeDraft_writes _ _ _), storeDraft_below below,
    grown.trans (storeDraft_supply current scope.run.id planned scope.now), fun wanted low => ?_,
    fun bound before gone => ?_⟩
  · rw [storeDraft_get below, key, if_neg (Nat.ne_of_lt (Nat.lt_of_lt_of_le low grown))]
    exact kept wanted low
  · obtain ⟨row, found, raised⟩ := raised bound before gone
    exact ⟨row, storeDraft_beside below new found, raised⟩

/-- The first intent that goes on with the bound draft revises it. -/
theorem Looked.revised {planned : PlannedDraft} {bound : OfferDraft}
    (looked : Looked db scope processed current) (goes : intent.GoesOn scope)
    (before : boundDraft db scope.run scope.payload scope.now = some bound)
    (found : current.drafts.get bound.id = some bound) (revises : planned.bound = some bound.id) :
    Looked db scope (processed ++ [intent]) (storeDraft current scope.run.id planned scope.now).1 := by
  obtain ⟨writes, below, grown, kept, _⟩ := looked
  have row : draftRow current scope.run.id planned scope.now = _ := draftRow_bound revises found
  have key : (draftRow current scope.run.id planned scope.now).id = bound.id := by
    rw [row]
  refine ⟨writes.trans (storeDraft_writes _ _ _), storeDraft_below below,
    grown.trans (storeDraft_supply current scope.run.id planned scope.now), fun wanted low => ?_,
    fun other again _ => ?_⟩
  · by_cases here : wanted = bound.id
    · exact .inr ⟨bound, before, here.symm, goesOn_append.mpr (.inr goes)⟩
    · rw [storeDraft_get below, key, if_neg here]
      exact (kept wanted low).imp_right fun ⟨other, same, at_, gone⟩ =>
        ⟨other, same, at_, goesOn_append.mpr (.inl gone)⟩
  · obtain rfl := Option.some.inj (before.symm.trans again)
    refine ⟨draftRow current scope.run.id planned scope.now, ?_, ?_⟩
    · rw [storeDraft_get below, key, if_pos rfl]
    · rw [row]

/-- An intent that states terms is no question. -/
theorem Intent.States.plain (informs : ∀ intent ∈ scope.changes, intent.type = .provideInfo)
    (states : intent.States scope) : ¬ intent.type.IsQuestion := by
  intro question
  rcases states with (propose | change) | listed
  · rw [propose] at question
    exact absurd question (by decide)
  · rw [change] at question
    exact absurd question (by decide)
  · rw [informs intent listed] at question
    exact absurd question (by decide)

end

section

variable [Platform] {db : Db} {scope : TurnScope} {processed : List Intent} {planning : Planning}
variable {intent : Intent} {plan : IntentPlan}

/-- Where the drafts stand after one more intent. -/
theorem Looked.record (looked : Looked db scope processed planning.db) (clear : scope.Clear)
    (refs : ∀ ref, boundRef db scope.run scope.payload scope.now = some ref → ref.id < db.nextId)
    (informs : ∀ intent ∈ scope.changes, intent.type = .provideInfo)
    (done : planIntent planning.db scope planning.statuses intent = .ok plan) :
    Looked db scope (processed ++ [intent])
      (planning.record scope.run.id scope.now intent plan).db := by
  have finds := looked.finds refs
  cases made : plan.draft with
  | none =>
    rw [(record_idle planning scope.run.id scope.now intent made).1]
    exact looked.idle fun bound look goes =>
      planIntent_continues clear goes (goes.1.plain informs) (finds.trans look) done made
  | some planned =>
    have drafts := (planIntent_case done).drafts made
    rw [(record_drafted planning scope.run.id scope.now intent made).1]
    cases look : boundAfter db scope processed with
    | none =>
      refine looked.added (drafts.new (.inl (finds.trans look))) fun bound some => ?_
      rw [look] at some
      cases some
    | some bound =>
      have here := finds.trans look
      by_cases continues : intent.Continues
      · obtain ⟨revises, _⟩ := drafts.continues here continues
        exact looked.revised ⟨drafts.states, continues⟩ (boundAfter_eq_some.mp look).1
          (boundDraft_found here).1 revises
      · exact looked.added (drafts.new (.inr continues)) fun _ _ goes => continues goes.2

end

end Negotiation
