/-
This file proves that whatever an input or a card refers to was made before it:
the drafts that a buyer can name have keys that were handed out, so that no turn
takes a draft it makes itself for the one its input refers to.
-/

import SecondhandAgent.Cursor
import SecondhandAgent.Drafts

namespace Negotiation

open Store

/-- The inputs and the contexts refer to drafts whose keys were handed out. -/
structure Referred (db : Db) : Prop where
  inputs : ∀ run ∈ db.inputs, ∀ payload, run.payload = .chat payload →
    ∀ id, payload.draftId = some id → id < db.nextId
  contexts : ∀ context ∈ db.contexts, ∀ ref ∈ context.draftRefs.getD [], ref.id < db.nextId

section

variable [Platform] {db after : Db} {now : Time}

/-! ### Inputs -/

omit [Platform] in
theorem validateReferences_draft {payload : ChatInput} {id : Nat}
    (checked : validateReferences db now (.chat payload) = .ok ())
    (named : payload.draftId = some id) : ∃ draft ∈ db.drafts, draft.id = id := by
  unfold validateReferences at checked
  simp only [bind_eq_ok, named] at checked
  obtain ⟨_, _, checked⟩ := checked
  unfold validateDraft at checked
  simp only [bind_eq_ok, expect_eq_ok] at checked
  obtain ⟨draft, found, _⟩ := checked
  exact ⟨draft, Table.get_eq_some.mp found⟩

/-- An input is one that was there, or it refers to a draft that is there. -/
theorem perform_payload {transaction : Transaction} (done : db.perform transaction = .ok after)
    {run : NegotiationInput} (member : run ∈ after.inputs) :
    (∃ old ∈ db.inputs, old.payload = run.payload) ∨
      ∀ payload, run.payload = .chat payload → ∀ id, payload.draftId = some id →
        ∃ draft ∈ db.drafts, draft.id = id := by
  rcases (perform_effect done).queue with same | effect
  · rw [show after.inputs = db.inputs from congrArg Queue.inputs same] at member
    exact .inl ⟨run, member, rfl⟩
  · cases effect with
    | idle frame =>
      rw [frame] at member
      exact .inl ⟨run, member, rfl⟩
    | @turned input changed _ _ _ found _ _ turn frame =>
      rw [frame] at member
      rcases sent_of_mem_put turn.sent member with sent | ⟨old, _⟩
      · obtain ⟨_, _, _, payload, _⟩ := NegotiationInput.of_sent sent
        exact .inl ⟨input, Table.mem_of_get found, payload.symm⟩
      · exact .inl ⟨run, old, rfl⟩
    | @enqueued _ _ sent _ _ _ _ made =>
      rw [made] at done
      obtain ⟨result, enqueued, rfl⟩ := (map_eq_ok _ _ _).mp done
      unfold enqueue at enqueued
      simp only [bind_eq_ok] at enqueued
      obtain ⟨_, _, _, _, _, _, _, _, rest⟩ := enqueued
      split at rest
      · simp only [bind_eq_ok, pure_eq_ok] at rest
        obtain ⟨_, _, rfl⟩ := rest
        exact .inl ⟨run, member, rfl⟩
      · simp only [bind_eq_ok, pure_eq_ok] at rest
        obtain ⟨_, _, _, checked, _, _, _, _, stored, appended, rfl⟩ := rest
        unfold newInput at appended
        simp only [bind_eq_ok, pure_eq_ok] at appended
        obtain ⟨_, _, _, _, inputs, added, rfl⟩ := appended
        rcases (Table.mem_insert added run).mp member with rfl | old
        · refine .inr fun payload chat id named => ?_
          rw [show sent = Payload.chat payload from chat] at checked
          exact validateReferences_draft checked named
        · exact .inl ⟨run, old, rfl⟩

/-! ### Contexts -/

omit [Platform] in
theorem draftRefs_drafts {run : Option NegotiationInput} {ref : DraftRef}
    (member : ref ∈ (draftRefs db run now).getD []) : ∃ draft ∈ db.drafts, draft.id = ref.id := by
  have among : ∀ run : NegotiationInput, ref ∈ usableRefs db run.id now →
      ∃ draft ∈ db.drafts, draft.id = ref.id := by
    intro run listed
    unfold usableRefs at listed
    split at listed
    · cases listed
    · obtain ⟨draft, present, shown⟩ := List.mem_filterMap.mp listed
      obtain ⟨id, _, found⟩ := List.mem_filterMap.mp present
      split at shown
      · obtain rfl := Option.some.inj shown
        exact ⟨draft, Table.mem_of_get found, rfl⟩
      · cases shown
  unfold draftRefs at member
  cases run with
  | none => cases member
  | some run =>
    dsimp only at member
    split at member
    · cases member
    · exact among run member

theorem publication_refs {run : Option NegotiationInput} {result : Result} :
    (publication db run result now).refs = draftRefs db run now := by
  unfold publication
  dsimp only
  split
  · rfl
  · next refs => exact refs.symm
  · rfl

/-- A context is one that was there or refers to the same drafts, or it refers to drafts that
are there. -/
theorem perform_refs {transaction : Transaction} (done : db.perform transaction = .ok after)
    {context : PublicInteractionContext} (member : context ∈ after.contexts) :
    (∃ old ∈ db.contexts, old.draftRefs = context.draftRefs) ∨
      ∀ ref ∈ context.draftRefs.getD [], ∃ draft ∈ db.drafts, draft.id = ref.id := by
  by_cases public_ : transaction.IsPublic
  · obtain ⟨_, _, publishing⟩ := perform_publishing public_ done
    cases publishing with
    | idle same =>
      rw [same] at member
      exact .inl ⟨context, member, rfl⟩
    | worked _ frame | assessed frame =>
      rw [frame] at member
      exact .inl ⟨context, member, rfl⟩
    | posted _ _ _ shows frame =>
      rw [frame] at member
      cases shows with
      | kept => exact .inl ⟨context, member, rfl⟩
      | added =>
        rcases Table.mem_insertIgnore member with rfl | old
        · refine .inr fun ref listed => ?_
          have shown : ref ∈ (publication db _ _ _).refs.getD [] := listed
          rw [publication_refs] at shown
          exact draftRefs_drafts shown
        · exact .inl ⟨context, old, rfl⟩
    | @refreshed original _ _ found _ _ frame =>
      rw [frame] at member
      rcases Table.mem_insertIgnore member with rfl | old
      · exact .inl ⟨original, Table.mem_of_get found, rfl⟩
      · exact .inl ⟨context, old, rfl⟩
    | drafted listed _ _ frame =>
      rw [frame] at member
      rcases Table.mem_insertIgnore member with rfl | old
      · refine .inr fun ref named => ?_
        obtain rfl := List.mem_singleton.mp named
        exact ⟨_, listed, rfl⟩
      · exact .inl ⟨context, old, rfl⟩
  · rw [((perform_effect done).unpublished public_).1] at member
    exact .inl ⟨context, member, rfl⟩

/-! ### Every reachable state -/

theorem perform_referred {transaction : Transaction} (shape : Deal.Shape db.deal)
    (below : db.drafts.Below db.nextId) (referred : Referred db)
    (done : db.perform transaction = .ok after) : Referred after := by
  have grows := perform_supply shape done
  constructor
  · intro run member payload chat id named
    rcases perform_payload done member with ⟨old, known, same⟩ | fresh
    · exact Nat.lt_of_lt_of_le (referred.inputs old known payload (same.trans chat) id named) grows
    · obtain ⟨draft, listed, rfl⟩ := fresh payload chat id named
      exact Nat.lt_of_lt_of_le (below draft listed) grows
  · intro context member ref named
    rcases perform_refs done member with ⟨old, known, same⟩ | fresh
    · exact Nat.lt_of_lt_of_le (referred.contexts old known ref (same ▸ named)) grows
    · obtain ⟨draft, listed, key⟩ := fresh ref named
      exact key ▸ Nat.lt_of_lt_of_le (below draft listed) grows

theorem reachable_referred {world : World}
    (reached : Reachable World.Step World.Initial world) : Referred world.db := by
  refine (reached.invariant
    (fun world => Reachable World.Step World.Initial world ∧ Referred world.db)
    (fun world initial => ?_) (fun before event next held step => ?_)).2
  · refine ⟨.start initial, ?_⟩
    obtain ⟨⟨_, _, _, _, _, _, _, db⟩, _⟩ := initial
    rw [db]
    exact ⟨fun _ member => absurd member (Table.not_mem_empty _),
      fun _ member => absurd member (Table.not_mem_empty _)⟩
  · obtain ⟨earlier, referred⟩ := held
    refine ⟨earlier.next step, ?_⟩
    rcases step.performs with same | ⟨transaction, performs⟩
    · rw [same]
      exact referred
    · exact perform_referred (reachable_shape earlier) (reachable_drafts_below earlier) referred
        performs.done

end

end Negotiation
