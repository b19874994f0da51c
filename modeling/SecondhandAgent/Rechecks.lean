/-
This file models the recheck of a draft as the two halves the database sees. A
recheck reads the verification, its draft and the evidence before it waits for
the session; what it then finds out is about the rows it has read, and its
messages and its updates are made of them, whatever was committed while it
waited. The edits of the seller and the buyer's turns go on in between.

The versions of the evidence, the number of messages and the business of the
session come to no harm. What a message says of a draft is true of the draft as
it was read: a turn that revises the draft in between makes it false.
-/

import SecondhandAgent.Endings
import SecondhandAgent.Notices
import SecondhandAgent.Settlement

namespace Negotiation

open Store

/-! ### The two halves of a recheck -/

/-- One column of an update: what was read and is set to the same value is not written. -/
def column {Value : Type} [DecidableEq Value] (read set current : Value) : Value :=
  if set = read then current else set

theorem column_self {Value : Type} [DecidableEq Value] (read set : Value) :
    column read set read = set := by
  unfold column
  split
  · exact Eq.symm ‹_›
  · rfl

/-- The row of a verification after an update of what was read. -/
def VerificationItem.updated (current read set : VerificationItem) : VerificationItem :=
  { current with
    status := column read.status set.status current.status
    reasons := column read.reasons set.reasons current.reasons
    notifiedVersion := column read.notifiedVersion set.notifiedVersion current.notifiedVersion }

/-- The row of a draft after an update of what was read. -/
def OfferDraft.updated (current read set : OfferDraft) : OfferDraft :=
  { current with
    missing := column read.missing set.missing current.missing
    status := column read.status set.status current.status }

/-- Write a verification that was read. -/
def writeItem (db : Db) (read set : VerificationItem) : Table VerificationItem.id :=
  db.verifications.put (((db.verifications.get read.id).getD read).updated read set)

/-- Write a draft that was read. -/
def writeDraft (db : Db) (read set : OfferDraft) : Table OfferDraft.id :=
  db.drafts.put (((db.drafts.get read.id).getD read).updated read set)

section

variable [Platform]

/-- The second half of a recheck: the session and the goods are locked and as they are, the
verification, the draft and the evidence are as they were read. -/
def recheckLocked (db reading : Db) (seller : String) (itemId : Nat) (now : Time) :
    Except Failure Db := do
  let item ← expect (reading.verifications.get itemId) .missing
  let draft ← expect (reading.drafts.get item.draftId) .missing
  ownedProduct db seller none
  if UsableDraft draft db.session now draft.version then
    let evidence := { db with facts := reading.facts, rules := reading.rules }
    let missing := (assess evidence draft.candidate now).missing
    let complete : Bool := missing = []
    let assessed := { item with reasons := missing, status := if complete then .ready else .open }
    let drafts := writeDraft db draft
      { draft with missing, status := if complete then .ready else .pending }
    if missing = [] ∧ item.notifiedVersion ≠ some db.product.productVersion then do
      let announced ← announceDraft db assessed draft now
      pure
        { announced with
          drafts
          verifications := writeItem db item
            { assessed with notifiedVersion := some db.product.productVersion } }
    else pure { db with drafts, verifications := writeItem db item assessed }
  else pure { db with verifications := writeItem db item { item with status := .stale } }

/-! ### The system -/

/-- The world, and what the rechecks that wait for the session have read. -/
structure Rechecks where
  world : World
  read : Nat → Option (Nat × Db) := fun _ => none

inductive RecheckEvent where
  | other (event : Event)
  | read (process itemId : Nat)
  | locked (process : Nat) (seller : String) (now : Time)

omit [Platform] in
/-- A recheck in one piece. -/
def Event.Rechecks : Event → Prop
  | .call (.recheckItem _ _ _) => True
  | _ => False

/-- The world after the second half of a recheck. -/
def World.recheck (world : World) (reading : Db) (seller : String) (itemId : Nat) (now : Time) :
    World :=
  match recheckLocked world.db reading seller itemId now with
  | .ok db => { world with db, clock := now }
  | .error _ => { world with clock := now }

/-- The step relation with rechecks in two halves. -/
def Rechecks.Step (before : Rechecks) (event : RecheckEvent) (after : Rechecks) : Prop :=
  match event with
  | .other event =>
    ¬ event.Rechecks ∧ World.Step before.world event after.world ∧ after.read = before.read
  | .read process itemId =>
    after.world = before.world ∧
      after.read = Function.update before.read process (some (itemId, before.world.db))
  | .locked process seller now =>
    before.world.clock ≤ now ∧ ∃ itemId reading, before.read process = some (itemId, reading) ∧
      after.world = before.world.recheck reading seller itemId now ∧
      after.read = Function.update before.read process none

omit [Platform] in
/-- A session at its enrolment, with no recheck under way; the facts carry versions that the
goods have reached. -/
def Rechecks.Initial (rechecks : Rechecks) : Prop :=
  World.Initial rechecks.world ∧ (∀ process, rechecks.read process = none) ∧
    ∀ fact ∈ rechecks.world.db.facts,
      fact.version ≤ rechecks.world.db.product.productVersion

/-! ### Nothing was committed in between -/

omit [Platform] in
/-- What a recheck has read is as it was. -/
structure Unread (db reading : Db) (itemId : Nat) : Prop where
  item : reading.verifications.get itemId = db.verifications.get itemId
  draft : ∀ item, db.verifications.get itemId = some item →
    reading.drafts.get item.draftId = db.drafts.get item.draftId
  facts : reading.facts = db.facts
  rules : reading.rules = db.rules

omit [Platform] in
theorem writeItem_current {db : Db} {item : VerificationItem} (reasons : List Missing)
    (status : VerificationStatus) (notifiedVersion : Option Nat)
    (found : db.verifications.get item.id = some item) :
    writeItem db item { item with reasons, status, notifiedVersion } =
      db.verifications.put { item with reasons, status, notifiedVersion } := by
  unfold writeItem VerificationItem.updated
  rw [found]
  simp only [Option.getD_some, column_self]

omit [Platform] in
theorem writeDraft_current {db : Db} {draft : OfferDraft} (missing : List Missing)
    (status : DraftStatus) (found : db.drafts.get draft.id = some draft) :
    writeDraft db draft { draft with missing, status } =
      db.drafts.put { draft with missing, status } := by
  unfold writeDraft OfferDraft.updated
  rw [found]
  simp only [Option.getD_some, column_self]

/-- A recheck whose reading still holds is the recheck in one piece. -/
theorem recheckLocked_current {db reading : Db} {seller : String} {itemId : Nat} {now : Time}
    (current : Unread db reading itemId) :
    recheckLocked db reading seller itemId now = recheckItem db seller itemId now := by
  unfold recheckLocked recheckItem
  rw [current.item]
  cases found : db.verifications.get itemId with
  | none => rfl
  | some item =>
    simp only [expect, bind, Except.bind]
    rw [current.draft item found, current.facts, current.rules]
    cases drafted : db.drafts.get item.draftId with
    | none => rfl
    | some draft =>
      have key : item.id = itemId := Table.key_of_get found
      have listed : db.verifications.get item.id = some item := key ▸ found
      have same : draft.id = item.draftId := Table.key_of_get drafted
      have stored : db.drafts.get draft.id = some draft := same ▸ drafted
      cases ownedProduct db seller none with
      | error failure => rfl
      | ok =>
        show (if UsableDraft draft db.session now draft.version then _ else _) =
          if UsableDraft draft db.session now draft.version then _ else _
        by_cases usable : UsableDraft draft db.session now draft.version
        · rw [if_pos usable, if_pos usable]
          by_cases told : (assess db draft.candidate now).missing = [] ∧
              item.notifiedVersion ≠ some db.product.productVersion
          · refine (if_pos told).trans (Eq.trans ?_ (if_pos told).symm)
            rw [writeDraft_current _ _ stored, writeItem_current _ _ _ listed]
            have complete : decide ((assess db draft.candidate now).missing = []) = true :=
              decide_eq_true told.1
            unfold announceDraft recordAssessment
            simp only [bind, Except.bind, pure, Except.pure, complete]
            generalize db.messages.insert _ _ = posted
            cases posted with
            | error failure => rfl
            | ok messages =>
              generalize db.contexts.insert _ _ = shown
              cases shown with
              | error failure => rfl
              | ok contexts =>
                dsimp only
                rw [Table.put_put]
                · rfl
                · rfl
          · refine (if_neg told).trans (Eq.trans ?_ (if_neg told).symm)
            rw [writeDraft_current _ _ stored, writeItem_current _ _ _ listed]
            rfl
        · rw [if_neg usable, if_neg usable]
          rw [writeItem_current _ _ _ listed]

/-! ### What a recheck writes -/

/-- What the second half of a recheck can do: it notes what it found, or it tells the buyer that
the draft it has read is complete. -/
inductive Rechecked (db reading : Db) (itemId : Nat) (now : Time) (after : Db) : Prop
  | noted (frame : after = { db with drafts := after.drafts, verifications := after.verifications })
  | told {item : VerificationItem} {draft : OfferDraft}
      (found : reading.verifications.get itemId = some item)
      (read : reading.drafts.get item.draftId = some draft)
      (usable : UsableDraft draft db.session now draft.version)
      (complete : (assess { db with facts := reading.facts, rules := reading.rules }
        draft.candidate now).missing = [])
      (free : db.messages.get (.source (.draftReady draft.id db.product.productVersion)) = none)
      (drafts : after.drafts = writeDraft db draft { draft with missing := [], status := .ready })
      (frame : after =
        { db with
          messages := db.messages.insertIgnore (draftMessage db draft)
          contexts := db.contexts.insertIgnore (draftContext db draft now)
          session := { db.session with nextPublicSeq := db.session.nextPublicSeq + 1 }
          drafts := after.drafts
          verifications := after.verifications
          nextId := db.nextId + 2 })

section

variable {db reading after : Db} {seller : String} {itemId : Nat} {now : Time}

theorem recheckLocked_rechecked (done : recheckLocked db reading seller itemId now = .ok after) :
    Rechecked db reading itemId now after := by
  unfold recheckLocked at done
  simp only [bind_eq_ok, expect_eq_ok] at done
  obtain ⟨item, found, draft, read, _, _, rest⟩ := done
  split at rest
  · rename_i usable
    split at rest
    · rename_i complete
      simp only [bind_eq_ok, pure_eq_ok] at rest
      obtain ⟨announced, told, rfl⟩ := rest
      unfold announceDraft at told
      simp only [bind_eq_ok, pure_eq_ok] at told
      obtain ⟨messages, posted, contexts, shown, rfl⟩ := told
      have free := Table.free_of_insert posted
      rw [Table.eq_insertIgnore posted, Table.eq_insertIgnore shown]
      refine .told found read usable complete.1 free ?_ rfl
      simp only [complete.1]
      rfl
    · obtain rfl := (pure_eq_ok _ _).mp rest
      exact .noted rfl
  · obtain rfl := (pure_eq_ok _ _).mp rest
    exact .noted rfl

/-- A recheck leaves the business of the session and what the seller says of the goods alone. -/
theorem Rechecked.spares (rechecked : Rechecked db reading itemId now after) :
    after.affairs = db.affairs ∧ after.goods = db.goods := by
  cases rechecked with
  | noted frame | told _ _ _ _ _ _ frame =>
    rw [frame]
    exact ⟨rfl, rfl⟩

theorem Rechecked.messages (rechecked : Rechecked db reading itemId now after) :
    ∀ message ∈ db.messages, message ∈ after.messages := by
  cases rechecked with
  | noted frame =>
    rw [frame]
    exact fun _ => id
  | told _ _ _ _ _ _ frame =>
    rw [frame]
    exact fun _ => Table.mem_insertIgnore_of_mem

theorem assess_evidence {other : Db} (candidate : Candidate) (facts : other.facts = db.facts)
    (rules : other.rules = db.rules) : assess other candidate now = assess db candidate now := by
  unfold assess shippingRule rulesFor evaluate factFor
  rw [facts, rules]

/-- What is shown of a draft: the version it has, with every requirement met. -/
def ShowsDraft (db : Db) (now : Time) (context : PublicInteractionContext) : Prop :=
  ∃ draft ∈ db.drafts, context.draftRefs = some [{ id := draft.id, version := draft.version }] ∧
    draft.missing = [] ∧ draft.status = .ready ∧ (assess db draft.candidate now).missing = []

/-- A recheck whose reading still holds shows drafts as they are. -/
theorem Rechecked.shows (rechecked : Rechecked db reading itemId now after)
    (current : Unread db reading itemId) :
    ∀ context ∈ after.contexts, context ∈ db.contexts ∨ ShowsDraft after now context := by
  cases rechecked with
  | noted frame =>
    rw [frame]
    exact fun _ => .inl
  | @told item draft found read usable complete free drafts frame =>
    intro context member
    rw [frame] at member
    rcases Table.mem_insertIgnore member with rfl | old
    · right
      rw [current.draft item (current.item.symm.trans found)] at read
      have key : draft.id = item.draftId := Table.key_of_get read
      have stored : db.drafts.get draft.id = some draft := key ▸ read
      refine ⟨{ draft with missing := [], status := .ready }, ?_, rfl, rfl, rfl, ?_⟩
      · rw [drafts, writeDraft_current _ _ stored]
        exact Table.mem_put_self (Table.mem_of_get stored) rfl
      · rw [← complete]
        refine congrArg Assessment.missing (assess_evidence _ ?_ ?_)
        · rw [frame]
          exact current.facts.symm
        · rw [frame]
          exact current.rules.symm
    · exact .inl old

end

/-! ### Versions -/

section

variable {db after : Db} {now : Time}

omit [Platform] in
/-- The facts and the rules carry versions that the goods have reached. -/
structure Versioned (db : Db) : Prop where
  facts : ∀ fact ∈ db.facts, fact.version ≤ db.product.productVersion
  rules : ∀ rule ∈ db.rules, rule.version ≤ db.product.productVersion

omit [Platform] in
/-- The goods are at their next version; what is new or changed carries it, and everything that
was there is older. -/
structure Raised (before after : Db) : Prop where
  product : after.product.productVersion = before.product.productVersion + 1
  facts : ∀ fact ∈ after.facts, fact ∈ before.facts ∨ fact.version = after.product.productVersion
  rules : ∀ rule ∈ after.rules, rule ∈ before.rules ∨ rule.version = after.product.productVersion
  kept : ∀ fact ∈ before.facts, fact ∈ after.facts
  olderFacts : ∀ fact ∈ before.facts, fact.version < after.product.productVersion
  olderRules : ∀ rule ∈ before.rules, rule.version < after.product.productVersion

omit [Platform] in
/-- The versions are those that were there. -/
structure SameVersions (before after : Db) : Prop where
  product : after.product.productVersion = before.product.productVersion
  facts : after.facts = before.facts
  rules : after.rules = before.rules

omit [Platform] in
theorem Versioned.raised (versioned : Versioned db)
    (product : after.product.productVersion = db.product.productVersion + 1)
    (facts : ∀ fact ∈ after.facts, fact ∈ db.facts ∨ fact.version = after.product.productVersion)
    (rules : ∀ rule ∈ after.rules, rule ∈ db.rules ∨ rule.version = after.product.productVersion)
    (kept : ∀ fact ∈ db.facts, fact ∈ after.facts) : Raised db after where
  product
  facts
  rules
  kept
  olderFacts fact member := product ▸ Nat.lt_succ_of_le (versioned.facts fact member)
  olderRules rule member := product ▸ Nat.lt_succ_of_le (versioned.rules rule member)

omit [Platform] in
theorem ownedProduct_version {seller : String} {expected : Nat}
    (done : ownedProduct db seller (some expected) = .ok ()) :
    expected = db.product.productVersion := by
  unfold ownedProduct at done
  simp only [bind_eq_ok, require_eq_ok] at done
  obtain ⟨_, _, none | same⟩ := done
  · cases none
  · exact Option.some.inj same

omit [Platform] in
theorem setFact_raised {seller : String} {value : FactValue} {expected : Nat}
    (versioned : Versioned db) (done : setFact db seller value expected = .ok after) :
    expected = db.product.productVersion ∧ Raised db after := by
  unfold setFact at done
  simp only [bind_eq_ok, pure_eq_ok] at done
  obtain ⟨_, owned, facts, inserted, rfl⟩ := done
  refine ⟨ownedProduct_version owned, versioned.raised rfl (fun fact member => ?_)
    (fun _ => .inl) fun fact member => (Table.mem_insert inserted fact).mpr (.inr member)⟩
  rcases (Table.mem_insert inserted fact).mp member with rfl | old
  · exact .inr rfl
  · exact .inl old

omit [Platform] in
theorem setRule_raised {seller : String} {data : RuleData} (versioned : Versioned db)
    (done : setRule db seller data now = .ok after) :
    data.expectedVersion = db.product.productVersion ∧ Raised db after := by
  unfold setRule at done
  simp only [bind_eq_ok] at done
  obtain ⟨_, owned, _, _, rest⟩ := done
  refine ⟨ownedProduct_version owned, ?_⟩
  split at rest <;> simp only [bind_eq_ok, pure_eq_ok] at rest
  · obtain ⟨rule, _, rfl⟩ := rest
    refine versioned.raised rfl (fun _ => .inl) (fun other member => ?_) fun _ => id
    rcases Table.mem_of_mem_put member with old | rfl
    · exact .inl old
    · exact .inr rfl
  · obtain ⟨rules, inserted, rfl⟩ := rest
    refine versioned.raised rfl (fun _ => .inl) (fun other member => ?_) fun _ => id
    rcases (Table.mem_insert inserted other).mp member with rfl | old
    · exact .inr rfl
    · exact .inl old

/-- A transaction keeps the versions or raises them. -/
theorem perform_versions {transaction : Transaction} (versioned : Versioned db)
    (done : db.perform transaction = .ok after) : SameVersions db after ∨ Raised db after := by
  by_cases edit : transaction.IsEdit
  · cases transaction <;> first
      | exact edit.elim
      | simp only [Db.perform] at done
    case updateOwnedProduct =>
      unfold updateOwnedProduct at done
      simp only [bind_eq_ok, pure_eq_ok] at done
      obtain ⟨_, _, rfl⟩ := done
      exact .inl ⟨rfl, rfl, rfl⟩
    case updateOwnedPolicy =>
      unfold updateOwnedPolicy at done
      simp only [bind_eq_ok, pure_eq_ok] at done
      obtain ⟨_, _, _, _, _, _, rfl⟩ := done
      exact .inl ⟨rfl, rfl, rfl⟩
    case setFact => exact .inr (setFact_raised versioned done).2
    case setRule => exact .inr (setRule_raised versioned done).2
  · have goods := (perform_effect done).goods edit
    exact .inl ⟨congrArg (·.product.productVersion) goods, congrArg Goods.facts goods,
      congrArg Goods.rules goods⟩

omit [Platform] in
theorem Versioned.kept (versioned : Versioned db)
    (moved : SameVersions db after ∨ Raised db after) : Versioned after := by
  rcases moved with same | raised
  · constructor
    · rw [same.facts, same.product]
      exact versioned.facts
    · rw [same.rules, same.product]
      exact versioned.rules
  · constructor
    · intro fact member
      rcases raised.facts fact member with old | new
      · exact (raised.olderFacts fact old).le
      · exact new.le
    · intro rule member
      rcases raised.rules rule member with old | new
      · exact (raised.olderRules rule old).le
      · exact new.le

end

/-! ### Every step -/

section

variable {before after : Rechecks} {event : RecheckEvent}

omit [Platform] in
/-- The version of the goods that an edit of the evidence expects. -/
def RecheckEvent.expected : RecheckEvent → Option Nat
  | .other (.call (.setFact _ _ expected)) => some expected
  | .other (.call (.setRule _ data _)) => some data.expectedVersion
  | _ => none

omit [Platform] in
/-- The operations that maintain the evidence. -/
def RecheckEvent.Maintains : RecheckEvent → Prop
  | .other (.call (.setFact _ _ _)) | .other (.call (.setRule _ _ _)) | .read _ _
  | .locked _ _ _ => True
  | _ => False

theorem World.recheck_db (world : World) (reading : Db) (seller : String) (itemId : Nat)
    (now : Time) :
    (world.recheck reading seller itemId now).db = world.db ∨
      Rechecked world.db reading itemId now (world.recheck reading seller itemId now).db := by
  unfold World.recheck
  split
  · exact .inr (recheckLocked_rechecked ‹_›)
  · exact .inl rfl

/-- What a step does to the database. -/
theorem Rechecks.Step.cases (step : Rechecks.Step before event after) :
    after.world.db = before.world.db ∨
    (∃ happened transaction, event = .other happened ∧
      Performs before.world happened after.world transaction) ∨
    ∃ process seller now itemId reading, event = .locked process seller now ∧
      before.read process = some (itemId, reading) ∧
      Rechecked before.world.db reading itemId now after.world.db := by
  cases event with
  | other happened =>
    obtain ⟨_, taken, _⟩ := step
    rcases taken.performs with same | ⟨transaction, performs⟩
    · exact .inl same
    · exact .inr (.inl ⟨happened, transaction, rfl, performs⟩)
  | read =>
    obtain ⟨same, _⟩ := step
    exact .inl (congrArg World.db same)
  | locked process seller now =>
    obtain ⟨_, itemId, reading, found, world, _⟩ := step
    rw [world]
    rcases World.recheck_db before.world reading seller itemId now with same | rechecked
    · exact .inl same
    · exact .inr (.inr ⟨process, seller, now, itemId, reading, rfl, found, rechecked⟩)

theorem Rechecks.Step.versions (versioned : Versioned before.world.db)
    (step : Rechecks.Step before event after) :
    SameVersions before.world.db after.world.db ∨ Raised before.world.db after.world.db := by
  rcases step.cases with same | ⟨_, _, _, performs⟩ | ⟨_, _, _, _, _, _, _, rechecked⟩
  · rw [same]
    exact .inl ⟨rfl, rfl, rfl⟩
  · exact perform_versions versioned performs.done
  · have goods := rechecked.spares.2
    exact .inl ⟨congrArg (·.product.productVersion) goods, congrArg Goods.facts goods,
      congrArg Goods.rules goods⟩

/-- An edit with an outdated version changes nothing. -/
theorem Rechecks.Step.edits (versioned : Versioned before.world.db)
    (step : Rechecks.Step before event after) {expected : Nat}
    (edit : event.expected = some expected) :
    after.world.db = before.world.db ∨
      expected = before.world.db.product.productVersion ∧
        Raised before.world.db after.world.db := by
  unfold RecheckEvent.expected at edit
  split at edit
  · obtain ⟨_, taken, _⟩ := step
    obtain rfl := Option.some.inj edit
    exact taken.called.imp_right (setFact_raised versioned)
  · obtain ⟨_, taken, _⟩ := step
    obtain rfl := Option.some.inj edit
    exact taken.called.imp_right (setRule_raised versioned)
  · cases edit

theorem Rechecks.Step.messages (step : Rechecks.Step before event after) :
    ∀ message ∈ before.world.db.messages, message ∈ after.world.db.messages := by
  rcases step.cases with same | ⟨_, _, _, performs⟩ | ⟨_, _, _, _, _, _, _, rechecked⟩
  · rw [same]
    exact fun _ => id
  · exact (perform_effect performs.done).grows.messages
  · exact rechecked.messages

/-- The maintenance of the evidence leaves the business of the session alone. -/
theorem Rechecks.Step.maintains (step : Rechecks.Step before event after)
    (maintains : event.Maintains) : after.world.db.affairs = before.world.db.affairs := by
  cases event with
  | other happened =>
    obtain ⟨_, taken, _⟩ := step
    cases happened with
    | call transaction =>
      rcases taken.called with same | done
      · rw [same]
      · refine (perform_effect done).affairs ?_
        cases transaction <;> first | exact id | exact absurd maintains id
    | _ => exact absurd maintains id
  | read =>
    obtain ⟨same, _⟩ := step
    rw [same]
  | locked process seller now =>
    rcases step.cases with same | ⟨_, _, other, _⟩ | ⟨_, _, _, _, _, _, _, rechecked⟩
    · rw [same]
    · cases other
    · exact rechecked.spares.1

end

/-! ### Every run -/

section

variable {first last : Rechecks} {history : List (Transition Rechecks RecheckEvent)}

/-- Whatever a recheck has read before its locks is as it was when it has them. -/
def Current (transition : Transition Rechecks RecheckEvent) : Prop :=
  match transition.event with
  | .locked process _ _ => ∀ itemId reading,
    transition.before.read process = some (itemId, reading) →
      Unread transition.before.world.db reading itemId
  | _ => True

/-- The contexts a recheck publishes show their drafts as they are. -/
def Shows (transition : Transition Rechecks RecheckEvent) : Prop :=
  match transition.event with
  | .locked _ _ now => ∀ context ∈ transition.after.world.db.contexts,
    context ∈ transition.before.world.db.contexts ∨ ShowsDraft transition.after.world.db now context
  | _ => True

/-- The message that a draft is complete under a version of the goods is published. -/
def Announces (draftId version : Nat) (transition : Transition Rechecks RecheckEvent) : Prop :=
  transition.before.world.db.messages.get (.source (.draftReady draftId version)) = none ∧
    transition.after.world.db.messages.get (.source (.draftReady draftId version)) ≠ none

omit [Platform] in
instance (draftId version : Nat) (transition : Transition Rechecks RecheckEvent) :
    Decidable (Announces draftId version transition) :=
  inferInstanceAs (Decidable (_ ∧ _))

/-- What the maintenance of the evidence promises of a step, whatever was read. -/
structure Maintained (transition : Transition Rechecks RecheckEvent) : Prop where
  versions : SameVersions transition.before.world.db transition.after.world.db ∨
    Raised transition.before.world.db transition.after.world.db
  edits : ∀ expected, transition.event.expected = some expected →
    transition.after.world.db = transition.before.world.db ∨
      expected = transition.before.world.db.product.productVersion ∧
        Raised transition.before.world.db transition.after.world.db
  spares : transition.event.Maintains →
    transition.after.world.db.affairs = transition.before.world.db.affairs

theorem Rechecks.Step.shows {before after : Rechecks} {event : RecheckEvent}
    (step : Rechecks.Step before event after) (current : Current ⟨before, event, after⟩) :
    Shows ⟨before, event, after⟩ := by
  cases event with
  | other | read => trivial
  | locked process seller now =>
    obtain ⟨_, itemId, reading, found, world, _⟩ := step
    show ∀ context ∈ after.world.db.contexts, context ∈ before.world.db.contexts ∨ _
    rcases World.recheck_db before.world reading seller itemId now with same | rechecked
    · rw [world, same]
      exact fun _ => .inl
    · rw [world]
      exact rechecked.shows (current itemId reading found)

/-- Along every run of the seller's edits, the rechecks in their two halves and the turns of the
buyer: the versions of the facts, the rules and the goods only rise, an edit with an outdated
version changes nothing, the maintenance of the evidence leaves the business of the session alone,
and a draft is announced at most once under a version of the goods. A recheck shows its draft as
it is when nothing that it has read was changed before it had its locks. -/
theorem evidence_is_maintained (initial : Rechecks.Initial first)
    (run : Run Rechecks.Step first history last) :
    (∀ transition ∈ history, Maintained transition) ∧
    (∀ draftId version,
      history.countP (fun transition => Announces draftId version transition) ≤ 1) ∧
    ∀ transition ∈ history, Current transition → Shows transition := by
  obtain ⟨⟨_, _, _, rules⟩, _, facts⟩ := initial
  have versioned : Run (fun before event after =>
      Versioned before.world.db ∧ Rechecks.Step before event after) first history last :=
    run.within (fun _ _ _ step versioned => versioned.kept (step.versions versioned)) ⟨facts, rules⟩
  refine ⟨fun transition member => ?_, fun draftId version => ?_, fun transition member current =>
    (run.taken member).shows current⟩
  · obtain ⟨begins, step⟩ := versioned.taken member
    exact ⟨step.versions begins, fun _ => step.edits begins, step.maintains⟩
  · refine (Run.at_most_once (fun rechecks : Rechecks =>
      rechecks.world.db.messages.get (.source (.draftReady draftId version)) ≠ none)
      (fun _ _ _ step listed => ?_) (fun _ _ _ _ announces => ?_) run).1
    · obtain ⟨message, found⟩ := Option.ne_none_iff_exists'.mp listed
      have key := Table.key_of_get found
      rw [← key, Table.get_of_mem (step.messages message (Table.mem_of_get found))]
      exact Option.some_ne_none _
    · exact ⟨fun listed => listed announces.1, announces.2⟩

/-- What happens beside the rechecks goes on with a run. -/
theorem Rechecks.run_events {world : World} {read : Nat → Option (Nat × Db)}
    {past : List (Transition Rechecks RecheckEvent)} {events : List Event}
    (run : Run Rechecks.Step first past ⟨world, read⟩) (scheduled : Scheduled world.clock events)
    (others : ∀ event ∈ events, ¬ event.Rechecks) :
    ∃ history, Run Rechecks.Step first (history ++ past) ⟨world.after events, read⟩ := by
  induction events generalizing world past with
  | nil => exact ⟨[], run⟩
  | cons event rest inductionHypothesis =>
    obtain ⟨⟨timely, allowed⟩, later⟩ := scheduled
    have taken : Rechecks.Step ⟨world, read⟩ (.other event) ⟨world.next event, read⟩ :=
      ⟨others event List.mem_cons_self, ⟨timely, allowed, rfl⟩, rfl⟩
    obtain ⟨history, whole⟩ := inductionHypothesis (run.next taken) later fun other member =>
      others other (List.mem_cons_of_mem _ member)
    refine ⟨history ++ [⟨⟨world, read⟩, .other event, ⟨world.next event, read⟩⟩], ?_⟩
    rw [List.append_assoc]
    exact whole

end

end

/-! ### A draft that is revised while its recheck waits -/

/-- The buyer wants the goods sent. -/
def courierIntent : Intent where
  id := "courier"
  type := .changeTerms
  sourceQuote := "改成快递"
  candidate := some { delivery := some .shipping }

def courierChat : ChatInput where
  text := "改成快递"
  clientViewId := "internal"
  draftId := some 5
  draftVersion := some 1

/-- The plan of the turn in which the draft is revised. -/
def courierTurn : TurnPlan where
  command := { kind := .query, text := "改成快递" }
  drafts :=
    [{ bound := some 5
       candidate :=
        { amount := some ⟨9000, ninety_fits⟩, delivery := some .shipping, positive := ninety_positive }
       missing := [.payer, .deliveryNotAllowed] }]
  selected := none

/-- A draft is made and answered, and the seller states what it waits for. -/
def pickupStated [Platform] : List Event :=
  written "first" "90元自提" 1 (seconds 1) ++
    [.call (.planTurn 1 (4, 1) lateTurn (seconds 1)),
      .call (.abortOrQuery 1 (4, 1) none (seconds 1) (seconds 1) (seconds 1)),
      .call (.publishOwned 1 (4, 1) (seconds 2)),
      .call (.finalize 1 (4, 1)
        { runId := 1
          inputSeq := 1
          inputHash := digest (Payload.chat { text := "90元自提", clientViewId := "internal" }).json
          configHash := digest (defaultConfig .negotiationV2).json
          graphVersion := .negotiationV2
          publishedMessageId := some 8 } false (seconds 2) (seconds 2)),
      .call (.setFact "seller" (.allowedDeliveryMethods [.pickup] pickup_listed pickup_unique) 1)]

/-- The buyer writes about the draft. -/
def courierWritten [Platform] : List Event :=
  pickupStated ++
    [.call (.enqueue "buyer" "second" (.chat courierChat) none (seconds 3)),
      .call (.claim 10 (seconds 3))]

/-- The turn revises the draft. -/
def courierPlanned [Platform] : List Event :=
  courierWritten ++ [.call (.planTurn 10 (13, 1) courierTurn (seconds 3))]

theorem courier_checked :
    safeFrame { intents := [courierIntent] } "改成快递" = .ok ([courierIntent], true) :=
  safeFrame_safe (by decide +kernel) rfl (by decide +kernel) (by decide +kernel)
    (by decide +kernel) (by decide +kernel)

attribute [local instance] samplePlatform in
theorem courier_planned :
    planFrame (bareWorld.after courierWritten).db 10 (13, 1) { intents := [courierIntent] }
      (seconds 3) = .ok (bareWorld.after courierPlanned).db :=
  planFrame_after courierChat courierTurn
    (World.reachable_after bareWorld_initial (by decide +kernel : Scheduled 0 courierWritten))
    (by decide +kernel) courier_checked (by decide +kernel) (by decide +kernel)

/-- The rechecks of a session in which none was made. -/
def bareRechecks : Rechecks where
  world := bareWorld

/-- The verification of the draft is read, and the draft is revised. -/
def revisedRechecks [Platform] : Rechecks where
  world := bareWorld.after courierPlanned
  read := Function.update (fun _ => none) 0 (some (6, (bareWorld.after pickupStated).db))

/-- The recheck gets its locks. -/
def announcedRechecks [Platform] : Rechecks where
  world := (bareWorld.after courierPlanned).recheck (bareWorld.after pickupStated).db "seller" 6
    (seconds 4)
  read := Function.update
    (Function.update (fun _ => none) 0 (some (6, (bareWorld.after pickupStated).db))) 0 none

theorem bareRechecks_initial : Rechecks.Initial bareRechecks :=
  ⟨bareWorld_initial, fun _ => rfl, fun fact member => absurd member (Table.not_mem_empty fact)⟩

attribute [local instance] samplePlatform in
theorem announced_run : ∃ past, Run Rechecks.Step bareRechecks
    (⟨revisedRechecks, .locked 0 "seller" (seconds 4), announcedRechecks⟩ :: past)
    announcedRechecks := by
  obtain ⟨_, stated⟩ := Rechecks.run_events (.start bareRechecks)
    (by decide +kernel : Scheduled 0 pickupStated)
    (by simp [pickupStated, written, Event.Rechecks])
  have reads : Rechecks.Step ⟨bareWorld.after pickupStated, bareRechecks.read⟩ (.read 0 6)
      ⟨bareWorld.after pickupStated, revisedRechecks.read⟩ := ⟨rfl, rfl⟩
  obtain ⟨_, revised⟩ := Rechecks.run_events (stated.next reads)
    (by decide +kernel : Scheduled (bareWorld.after pickupStated).clock
      (courierPlanned.drop pickupStated.length))
    (by simp [courierPlanned, courierWritten, Event.Rechecks])
  rw [← World.after_append] at revised
  have locks : Rechecks.Step revisedRechecks (.locked 0 "seller" (seconds 4)) announcedRechecks :=
    ⟨by decide +kernel, 6, (bareWorld.after pickupStated).db, rfl, rfl, rfl⟩
  exact ⟨_, revised.next locks⟩

attribute [local instance] samplePlatform in
/-- A recheck publishes a context of the first version of a draft that a turn of the buyer has
revised; the version that is there waits for the buyer and for the seller. -/
theorem draft_context_of_old_version :
    ∃ past, Run Rechecks.Step bareRechecks
        (⟨revisedRechecks, .locked 0 "seller" (seconds 4), announcedRechecks⟩ :: past)
        announcedRechecks ∧
      planFrame (bareWorld.after courierWritten).db 10 (13, 1) { intents := [courierIntent] }
        (seconds 3) = .ok (bareWorld.after courierPlanned).db ∧
      (∃ context ∈ announcedRechecks.world.db.contexts,
        context ∉ revisedRechecks.world.db.contexts ∧
        context.draftRefs = some [{ id := 5, version := 1 }]) ∧
      (∀ draft ∈ announcedRechecks.world.db.drafts, draft.version = 2 ∧
        (assess announcedRechecks.world.db draft.candidate (seconds 4)).missing ≠ []) ∧
      ¬ Shows ⟨revisedRechecks, .locked 0 "seller" (seconds 4), announcedRechecks⟩ := by
  obtain ⟨past, run⟩ := announced_run
  have context : ∃ context ∈ announcedRechecks.world.db.contexts.rows,
      (∀ old ∈ revisedRechecks.world.db.contexts.rows, old.id ≠ context.id) ∧
      context.draftRefs = some [{ id := 5, version := 1 }] := by
    decide +kernel
  have drafts : ∀ draft ∈ announcedRechecks.world.db.drafts.rows, draft.version = 2 ∧
      (assess announcedRechecks.world.db draft.candidate (seconds 4)).missing ≠ [] := by
    decide +kernel
  obtain ⟨context, member, new, refs⟩ := context
  have unseen : context ∉ revisedRechecks.world.db.contexts := fun old => new context old rfl
  refine ⟨past, run, courier_planned, ⟨context, member, unseen, refs⟩, drafts, fun shows => ?_⟩
  rcases shows context member with old | ⟨draft, listed, _, _, _, complete⟩
  · exact unseen old
  · exact (drafts draft listed).2 complete

attribute [local instance] samplePlatform in
/-- A recheck that reads the revised draft. -/
theorem evidence_is_maintained_revised :
    ∃ past last, Run Rechecks.Step bareRechecks
        (⟨⟨bareWorld.after courierPlanned,
            Function.update (fun _ => none) 0 (some (6, (bareWorld.after courierPlanned).db))⟩,
          .locked 0 "seller" (seconds 4), last⟩ :: past) last ∧
      ∀ context ∈ last.world.db.contexts, context ∈ (bareWorld.after courierPlanned).db.contexts ∨
        ShowsDraft last.world.db (seconds 4) context := by
  obtain ⟨_, planned⟩ := Rechecks.run_events (.start bareRechecks)
    (by decide +kernel : Scheduled 0 courierPlanned)
    (by simp [courierPlanned, courierWritten, pickupStated, written, Event.Rechecks])
  have reads : Rechecks.Step ⟨bareWorld.after courierPlanned, bareRechecks.read⟩ (.read 0 6)
      ⟨bareWorld.after courierPlanned,
        Function.update (fun _ => none) 0 (some (6, (bareWorld.after courierPlanned).db))⟩ :=
    ⟨rfl, rfl⟩
  have locks : Rechecks.Step
      ⟨bareWorld.after courierPlanned,
        Function.update (fun _ => none) 0 (some (6, (bareWorld.after courierPlanned).db))⟩
      (.locked 0 "seller" (seconds 4))
      ⟨(bareWorld.after courierPlanned).recheck (bareWorld.after courierPlanned).db "seller" 6
          (seconds 4),
        Function.update (Function.update (fun _ => none) 0
          (some (6, (bareWorld.after courierPlanned).db))) 0 none⟩ :=
    ⟨by decide +kernel, 6, (bareWorld.after courierPlanned).db, rfl, rfl, rfl⟩
  have run := (planned.next reads).next locks
  refine ⟨_, _, run, (evidence_is_maintained bareRechecks_initial run).2.2 _
    List.mem_cons_self ?_⟩
  intro itemId reading found
  have found : some (6, (bareWorld.after courierPlanned).db) = some (itemId, reading) := found
  obtain ⟨rfl, rfl⟩ := Prod.mk.inj (Option.some.inj found)
  exact ⟨rfl, fun _ _ => rfl, rfl, rfl⟩

end Negotiation
