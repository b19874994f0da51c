/-
This file models the working memory of a negotiation: entries that cite the
records they were read from. An update checks each entry against the records it
cites, leaves out what newer evidence has overtaken, and keeps the last entries
of the list. The check for newer evidence looks at what is still held, so an
older preference comes back after the newer one was pushed out.
-/

import Mathlib.Data.List.Induction
import SecondhandAgent.Agent.Records
import SecondhandAgent.Intents
import SecondhandAgent.Outcome
import SecondhandAgent.Retention

namespace Negotiation.Agent

open Store

/-! ### Entries -/

inductive MemoryKind where
  | buyerStatement
  | openQuestion
  | attemptedOption
  | hypothesis
  | plan
deriving DecidableEq

/-- The status that an entry states; `REPLACED` is set by a later update. -/
inductive MemoryStatus where
  | active
  | resolved
deriving DecidableEq

inductive Confidence where
  | explicit
  | low
deriving DecidableEq

structure MemoryEntry where
  kind : MemoryKind
  field : String
  value : String
  sourceSeqs : List Int
  status : MemoryStatus := .active
  confidence : Confidence := .explicit
  fieldLength : 1 ≤ field.length ∧ field.length ≤ 64 := by decide
  valueLength : 1 ≤ value.length ∧ value.length ≤ 240 := by decide
  cites : sourceSeqs ≠ [] := by decide
  fewSources : sourceSeqs.length ≤ 12 := by decide
deriving DecidableEq

theorem few_entries : ([] : List MemoryEntry).length ≤ 16 := by decide

structure MemoryDelta where
  entries : List MemoryEntry := []
  few : entries.length ≤ 16 := by first | exact few_entries | decide

/-- What an entry is about: an open question is about its own text. -/
def MemoryEntry.key (entry : MemoryEntry) : MemoryKind × String × Option String :=
  (entry.kind, entry.field, if entry.kind = .openQuestion then some entry.value else none)

/-- `max(entry.source_seqs)` -/
def MemoryEntry.newest (entry : MemoryEntry) : Int := entry.sourceSeqs.max entry.cites

/-- The condition of `matching`. -/
def MemoryEntry.Matching (entry old : MemoryEntry) : Prop :=
  old.kind = entry.kind ∧ old.field = entry.field ∧
    (entry.kind ≠ .openQuestion ∨ old.value = entry.value)

instance (entry old : MemoryEntry) : Decidable (entry.Matching old) :=
  inferInstanceAs (Decidable (_ ∧ _))

theorem MemoryEntry.matching_iff (entry old : MemoryEntry) :
    entry.Matching old ↔ old.key = entry.key := by
  unfold Matching key
  constructor
  · rintro ⟨kind, field, question | value⟩
    · rw [kind, field, if_neg question, if_neg question]
    · rw [kind, field, value]
  · intro same
    simp only [Prod.mk.injEq] at same
    obtain ⟨kind, field, value⟩ := same
    refine ⟨kind, field, ?_⟩
    rw [kind] at value
    by_cases question : entry.kind = .openQuestion
    · rw [if_pos question, if_pos question] at value
      exact .inr (Option.some.inj value)
    · exact .inl question

/-! ### An update -/

/-- The record of a number; the last one counts. -/
def source (records : List StreamRecord) (seq : Int) : Option StreamRecord :=
  records.reverse.find? fun record => decide (record.seq = seq)

/-- The words of the buyer that stand for a value. -/
def evidenceFor (value : String) : String :=
  if value = "pickup" then "自提" else if value = "shipping" then "快递" else value

def asksQuestion (text : String) : Bool :=
  (strip text).toList.getLast? = some '?' || (strip text).toList.getLast? = some '？'

/-- What an entry has to fulfil, in the order in which it is checked. -/
def check (records : List StreamRecord) (entry : MemoryEntry) : Except String Unit := do
  require (∀ seq ∈ entry.sourceSeqs, (source records seq).isSome)
    "Memory contains an unavailable or foreign source"
  let cited := entry.sourceSeqs.filterMap (source records)
  if entry.kind = .buyerStatement then
    require (∀ record ∈ cited, record.kind = .buyerInput)
      "Buyer statements must cite buyer messages"
    require (occurs (evidenceFor entry.value)
        ("\n".intercalate (cited.map StreamRecord.content)))
      "Buyer statement value lacks explicit source evidence"
    require (¬ ∀ record ∈ cited, asksQuestion record.content)
      "A buyer question cannot become an explicit statement"
  require (entry.kind = .attemptedOption →
      ∀ record ∈ cited, record.kind = .toolResult ∨ record.kind = .runtimeEvent)
    "Attempted options must cite execution evidence"
  require (entry.kind = .hypothesis → entry.confidence = .low)
    "Hypotheses must remain low confidence"

/-- The entries of the memory, with `replaced` for the status `REPLACED`. -/
abbrev HeldEntries := List (Held MemoryEntry)

/-- An entry that passed its check comes in, unless a matching one is newer. -/
def addEntry (entries : HeldEntries) (entry : MemoryEntry) : HeldEntries :=
  if ∃ old ∈ entries, entry.Matching old.entry ∧ old.entry.newest > entry.newest then entries
  else
    entries.map (fun old => if entry.Matching old.entry then { old with replaced := true } else old)
      ++ [⟨entry, false⟩]

/-- `MemoryUpdater.apply` -/
def apply (memory : HeldEntries) (delta : MemoryDelta) (records : List StreamRecord) :
    Except String HeldEntries := do
  let entries ← delta.entries.foldlM (fun entries entry => do
    check records entry
    pure (addEntry entries entry)) memory
  pure (latest 32 entries)

/-- Every entry of the update passes its check. -/
def MemoryDelta.Valid (delta : MemoryDelta) (records : List StreamRecord) : Prop :=
  ∀ entry ∈ delta.entries, check records entry = .ok ()

theorem addEntry_eq (entries : HeldEntries) (entry : MemoryEntry) :
    addEntry entries entry = hold MemoryEntry.key MemoryEntry.newest entries entry := by
  have refused : (∃ old ∈ entries, entry.Matching old.entry ∧ old.entry.newest > entry.newest) ↔
      ¬ Admits MemoryEntry.key MemoryEntry.newest entries entry := by
    unfold Admits
    push Not
    simp only [MemoryEntry.matching_iff, gt_iff_lt]
  unfold addEntry hold
  by_cases admitted : Admits MemoryEntry.key MemoryEntry.newest entries entry
  · rw [if_neg (fun found => refused.mp found admitted), if_pos admitted]
    simp only [MemoryEntry.matching_iff]
    rfl
  · rw [if_pos (refused.mpr admitted), if_neg admitted]

theorem addEntry_eq_hold : addEntry = hold MemoryEntry.key MemoryEntry.newest := by
  funext entries entry
  exact addEntry_eq entries entry

theorem foldlM_check_eq_ok (records : List StreamRecord) (entries : List MemoryEntry)
    (memory later : HeldEntries) :
    entries.foldlM (fun held entry => do
        check records entry
        pure (addEntry held entry)) memory = .ok later ↔
      (∀ entry ∈ entries, check records entry = .ok ()) ∧
        later = holdAll MemoryEntry.key MemoryEntry.newest memory entries := by
  rw [holdAll, ← addEntry_eq_hold]
  induction entries generalizing memory with
  | nil => simp [pure, Except.pure, eq_comm]
  | cons entry rest inductionHypothesis =>
    rw [List.foldlM_cons, bind_eq_ok, List.forall_mem_cons, List.foldl_cons, and_assoc]
    simp only [inductionHypothesis, bind_eq_ok, pure_eq_ok]
    constructor
    · rintro ⟨held, ⟨done, passed, rfl⟩, others⟩
      exact ⟨passed, others⟩
    · rintro ⟨passed, others⟩
      exact ⟨_, ⟨(), passed, rfl⟩, others⟩

/-- An update succeeds exactly if its entries are valid, and then it lets them in one by one and
keeps the last ones. -/
theorem apply_eq_ok (memory later : HeldEntries) (delta : MemoryDelta)
    (records : List StreamRecord) :
    apply memory delta records = .ok later ↔
      delta.Valid records ∧
        later = latest 32 (holdAll MemoryEntry.key MemoryEntry.newest memory delta.entries) := by
  unfold apply
  simp only [bind_eq_ok, foldlM_check_eq_ok, pure_eq_ok, MemoryDelta.Valid]
  constructor
  · rintro ⟨held, ⟨valid, rfl⟩, rfl⟩
    exact ⟨valid, rfl⟩
  · rintro ⟨valid, rfl⟩
    exact ⟨_, ⟨valid, rfl⟩, rfl⟩

/-! ### A conversation -/

/-- An update as it is asked for. -/
structure MemoryCall where
  delta : MemoryDelta
  records : List StreamRecord

/-- The memory of a conversation, and the entries that were let into it since it began. -/
structure Remembering where
  memory : HeldEntries := []
  accepted : List MemoryEntry := []

namespace Remembering

/-- An update that fails changes nothing. -/
def update (state : Remembering) (call : MemoryCall) : Remembering :=
  match apply state.memory call.delta call.records with
  | .ok memory =>
    { memory
      accepted := state.accepted ++
        taken MemoryEntry.key MemoryEntry.newest state.memory call.delta.entries }
  | .error _ => state

/-- What was remembered after some updates of a new conversation. -/
def after (calls : List MemoryCall) : Remembering := calls.foldl update {}

/-- The memory has not gone back to older evidence: each key has at most one entry that is not
replaced, that entry is as new as each that was let in for the key, and an entry that newer evidence
has replaced is not held as current. -/
structure Current (state : Remembering) : Prop where
  sole : ∀ key, (state.memory.filter fun held =>
    decide (held.entry.key = key) && !held.replaced).length ≤ 1
  newest : ∀ held ∈ state.memory, held.replaced = false →
    ∀ entry ∈ state.accepted, entry.key = held.entry.key → entry.newest ≤ held.entry.newest
  overtaken : ∀ entry ∈ state.accepted,
    (∃ newer ∈ state.accepted, newer.key = entry.key ∧ entry.newest < newer.newest) →
      ∀ held ∈ state.memory, held.replaced = false → held.entry ≠ entry

/-- A valid update that states something for a key of which nothing is held any more states
something as new as each entry that was let in for the key. -/
def Covers (state : Remembering) (call : MemoryCall) : Prop :=
  call.delta.Valid call.records →
    ∀ entry ∈ call.delta.entries, (∀ held ∈ state.memory, held.entry.key ≠ entry.key) →
      ∀ old ∈ state.accepted, old.key = entry.key →
        ∃ newer ∈ call.delta.entries, newer.key = entry.key ∧ old.newest ≤ newer.newest

theorem after_append (calls : List MemoryCall) (call : MemoryCall) :
    after (calls ++ [call]) = (after calls).update call := by
  unfold after
  rw [List.foldl_append, List.foldl_cons, List.foldl_nil]

theorem update_eq (state : Remembering) (call : MemoryCall) :
    (call.delta.Valid call.records ∧ state.update call =
      { memory := latest 32
          (holdAll MemoryEntry.key MemoryEntry.newest state.memory call.delta.entries)
        accepted := state.accepted ++
          taken MemoryEntry.key MemoryEntry.newest state.memory call.delta.entries }) ∨
    (¬ call.delta.Valid call.records ∧ state.update call = state) := by
  unfold update
  cases done : apply state.memory call.delta call.records with
  | ok memory =>
    obtain ⟨valid, rfl⟩ := (apply_eq_ok _ _ _ _).mp done
    exact .inl ⟨valid, rfl⟩
  | error text =>
    refine .inr ⟨fun valid => ?_, rfl⟩
    rw [(apply_eq_ok _ _ _ _).mpr ⟨valid, rfl⟩] at done
    cases done

/-- Whatever the updates are, the memory keeps its shape. -/
theorem wellHeld (calls : List MemoryCall) :
    WellHeld MemoryEntry.key MemoryEntry.newest (after calls).memory := by
  induction calls using List.reverseRecOn with
  | nil => exact WellHeld.nil
  | append_singleton calls call inductionHypothesis =>
    rw [after_append]
    rcases update_eq (after calls) call with ⟨_, done⟩ | ⟨_, done⟩
    · rw [done]
      exact (inductionHypothesis.holdAll _).suffix (latest_suffix _ _)
    · rwa [done]

/-- A well formed memory is current as soon as its entries are the newest. -/
theorem current_iff {state : Remembering}
    (wellHeld : WellHeld MemoryEntry.key MemoryEntry.newest state.memory) :
    state.Current ↔ Newest MemoryEntry.key MemoryEntry.newest state.memory state.accepted := by
  constructor
  · intro current
    exact current.newest
  · intro newest
    refine ⟨wellHeld.filter_current_le, newest, ?_⟩
    rintro entry _ ⟨newer, accepted, same, above⟩ held place alive rfl
    exact absurd (newest held place alive newer accepted same) (not_le.mpr above)

/-- An update keeps the memory current exactly if it covers the keys that are not held. -/
theorem update_current_iff {state : Remembering} (call : MemoryCall)
    (wellHeld : WellHeld MemoryEntry.key MemoryEntry.newest state.memory)
    (current : state.Current) : (state.update call).Current ↔ state.Covers call := by
  rcases update_eq state call with ⟨valid, done⟩ | ⟨invalid, done⟩
  · rw [done, current_iff ((wellHeld.holdAll _).suffix (latest_suffix _ _))]
    have few : call.delta.entries.length ≤ 32 := Nat.le_trans call.delta.few (by decide)
    rw [newest_latest_iff wellHeld ((current_iff wellHeld).mp current) few]
    exact ⟨fun covers _ => covers, fun covers => covers valid⟩
  · rw [done]
    exact ⟨fun _ valid => absurd valid invalid, fun _ => current⟩

/-- A conversation remembers the newest evidence at all times exactly if each of its updates covers
the keys that are not held any more. -/
theorem run_stays_current (calls : List MemoryCall) :
    (∀ before, before <+: calls → (after before).Current) ↔
      ∀ before call, before ++ [call] <+: calls → (after before).Covers call := by
  constructor
  · intro current before call within
    have earlier := current before ((List.prefix_append _ _).trans within)
    have later := current _ within
    rw [after_append] at later
    exact (update_current_iff call (wellHeld before) earlier).mp later
  · intro covers before
    induction before using List.reverseRecOn with
    | nil =>
      intro _
      refine (current_iff (wellHeld [])).mpr fun held member => ?_
      exact absurd member List.not_mem_nil
    | append_singleton before call inductionHypothesis =>
      intro within
      rw [after_append]
      exact (update_current_iff call (wellHeld before)
        (inductionHypothesis ((List.prefix_append _ _).trans within))).mpr
        (covers before call within)

end Remembering

/-! ### An older plan that comes back -/

/-- An entry about one of the letters. -/
def noteAbout (kind : MemoryKind) (letter : Char) (seq : Int) : MemoryEntry :=
  { kind
    field := String.singleton letter
    value := "自提"
    sourceSeqs := [seq]
    confidence := .low
    fieldLength := by simp
    cites := List.cons_ne_nil seq []
    fewSources := Nat.le_add_left 1 11 }

def notedRecords : List StreamRecord :=
  [{ seq := 1, body := .buyerInput "快递", visibility := .everyone },
   { seq := 9, body := .buyerInput "自提", visibility := .everyone }]

def noted (kind : MemoryKind) : MemoryCall :=
  { delta := ⟨"abcdefghijklmnop".toList.map (noteAbout kind · 9), by simp⟩
    records := notedRecords }

/-- A plan that cites the ninth record is pushed out by thirty-two other entries, then the same plan
is stated with the first record. -/
def pushedOut : List MemoryCall :=
  [{ delta := ⟨[noteAbout .plan 'z' 9], by decide⟩, records := notedRecords },
   noted .plan, noted .hypothesis,
   { delta := ⟨[noteAbout .plan 'z' 1], by decide⟩, records := notedRecords }]

theorem pushedOut_not_current : ¬ (Remembering.after pushedOut).Current := by
  intro current
  have returns : ∃ held ∈ (Remembering.after pushedOut).memory, held.replaced = false ∧
      ∃ entry ∈ (Remembering.after pushedOut).accepted,
        entry.key = held.entry.key ∧ held.entry.newest < entry.newest := by decide +kernel
  obtain ⟨held, place, alive, entry, accepted, same, above⟩ := returns
  exact absurd (current.newest held place alive entry accepted same) (not_le.mpr above)

end Negotiation.Agent
