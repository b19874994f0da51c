/-
This file proves what the messages of a model call keep. From a ledger that
follows the protocol, and a summary that covers whole groups of it, the messages
follow the protocol and the budget, the current input is among them, only whole
groups are left out, and what the summary takes in is named in its sources. The
state that is left covers whole groups again. With a summary that covers a call
and not its result nothing can be built.
-/

import Mathlib.Data.List.Nodup
import Mathlib.Data.List.Pairwise
import Mathlib.Order.MinMax
import SecondhandAgent.Agent.Context

namespace Negotiation.Agent

open Store

/-- The records of a branch as they are read: in the order of their numbers, and protocol-valid. -/
structure Ledger (records : List StreamRecord) : Prop where
  ordered : records.Pairwise fun one two => one.seq < two.seq
  valid : validate (records.filterMap recordMessage) = .ok ()

/-- The state covers each group as a whole or not at all. -/
def ContextState.Whole (state : ContextState) (records : List StreamRecord) : Prop :=
  ∀ group ∈ groups records,
    (∀ record ∈ group, state.Leaves record.seq) ∨ ∀ record ∈ group, ¬ state.Leaves record.seq

/-! ### The groups of a ledger -/

/-- Groups as they come out of a ledger: exchanges of records that have a message, no two of them
with the same number, in the order of their numbers. -/
structure Grouped (parts : List (List StreamRecord)) : Prop where
  exchanges : ∀ group ∈ parts, Exchange StreamRecord.action group
  shown : ∀ record ∈ parts.flatten, (recordMessage record).isSome
  ordered : parts.flatten.Pairwise fun one two => one.seq < two.seq

theorem StreamRecord.body_eq {record : StreamRecord} (input : record.kind = .buyerInput) :
    record.body = .buyerInput record.content := by
  unfold StreamRecord.kind RecordBody.kind at input
  unfold StreamRecord.content
  cases body : record.body <;> rw [body] at input <;> first | rfl | cases input

theorem recordMessage_input {record : StreamRecord} (input : record.kind = .buyerInput) :
    recordMessage record = some (.human record.content) := by
  unfold recordMessage
  rw [record.body_eq input]

theorem usable_sublist (records : List StreamRecord) : (usable records).Sublist records :=
  List.filter_sublist

theorem filterMap_usable (records : List StreamRecord) :
    (usable records).filterMap recordMessage = records.filterMap recordMessage := by
  unfold usable
  rw [List.filterMap_filter]
  refine List.filterMap_congr fun record _ => ?_
  cases recordMessage record <;> rfl

theorem Ledger.grouped {records : List StreamRecord} (ledger : Ledger records) :
    Grouped (groups records) ∧ (groups records).flatten = usable records := by
  have shown : ∀ record ∈ usable records, (recordMessage record).isSome :=
    fun record member => (List.mem_filter.mp member).2
  have answered : Answered StreamRecord.action [] (usable records) := by
    rw [← answered_filterMap [] shown, filterMap_usable]
    exact ((validate_eq_ok _).mp ledger.valid).1
  obtain ⟨whole, exchanges⟩ := answered.groups
  exact ⟨⟨exchanges, by rwa [groups, whole],
    by rw [groups, whole]; exact ledger.ordered.sublist (usable_sublist records)⟩, whole⟩

theorem ne_of_seq_lt {one two : StreamRecord} (below : one.seq < two.seq) : one ≠ two := by
  rintro rfl
  exact lt_irrefl _ below

namespace Grouped

variable {parts : List (List StreamRecord)}

theorem sublist {fewer : List (List StreamRecord)} (grouped : Grouped parts)
    (less : fewer.Sublist parts) : Grouped fewer :=
  ⟨fun group member => grouped.exchanges group (less.subset member),
    fun record member => grouped.shown record (less.flatten.subset member),
    grouped.ordered.sublist less.flatten⟩

theorem groups_flatten (grouped : Grouped parts) : groups parts.flatten = parts := by
  rw [groups, usable_eq_self grouped.shown, groupsOf_flatten grouped.exchanges]

/-- A number names one record. -/
theorem eq_of_seq (grouped : Grouped parts) {one two : StreamRecord}
    (first : one ∈ parts.flatten) (second : two ∈ parts.flatten) (same : one.seq = two.seq) :
    one = two := by
  have distinct : (parts.flatten.map StreamRecord.seq).Nodup :=
    List.pairwise_map.mpr (grouped.ordered.imp fun below => ne_of_lt below)
  exact List.inj_on_of_nodup_map distinct first second same

/-- A record is in one group only. -/
theorem group_eq (grouped : Grouped parts) {one two : List StreamRecord} {record : StreamRecord}
    (first : one ∈ parts) (second : two ∈ parts) (inOne : record ∈ one) (inTwo : record ∈ two) :
    one = two := by
  by_contra different
  have once : parts.flatten.Nodup := grouped.ordered.imp ne_of_seq_lt
  have symmetric : Std.Symm (@List.Disjoint StreamRecord) := ⟨fun _ _ apart => apart.symm⟩
  exact (List.nodup_flatten.mp once).2.forall first second different inOne inTwo

/-- The input of the buyer makes a group of its own. -/
theorem eq_singleton (grouped : Grouped parts) {group : List StreamRecord} {record : StreamRecord}
    (isPart : group ∈ parts) (member : record ∈ group) (input : record.kind = .buyerInput) :
    group = [record] := by
  have opens : record.action = .opens [] := by
    rw [StreamRecord.action, recordMessage_input input]
    rfl
  cases group with
  | nil => exact absurd member List.not_mem_nil
  | cons head answers =>
    obtain ⟨ids, its, distinct, closing⟩ := grouped.exchanges _ isPart
    have answer : ∀ item ∈ answers, ∃ id, item.action = .closes id := by
      obtain ⟨closed, _, does⟩ := closing.perm
      intro item isAnswer
      have among : item.action ∈ closed.map Action.closes :=
        does ▸ List.mem_map_of_mem isAnswer
      obtain ⟨id, _, same⟩ := List.mem_map.mp among
      exact ⟨id, same.symm⟩
    rcases List.mem_cons.mp member with rfl | isAnswer
    · rw [opens] at its
      cases its
      cases answers with
      | nil => rfl
      | cons item rest =>
        obtain ⟨id, _, pending, _⟩ := closing
        exact absurd pending List.not_mem_nil
    · obtain ⟨id, closes⟩ := answer record isAnswer
      rw [opens] at closes
      cases closes

end Grouped

/-! ### What the state selects -/

variable {records : List StreamRecord} {state : ContextState}

/-- The groups that the state leaves. -/
def ContextState.left (state : ContextState) (records : List StreamRecord) :
    List (List StreamRecord) :=
  (groups records).filter fun group => group.all fun record => decide (state.Leaves record.seq)

theorem selected_eq (ledger : Ledger records) (whole : state.Whole records) :
    state.selected records = (state.left records).flatten := by
  rw [ContextState.selected, ← ledger.grouped.2]
  refine filter_flatten _ _ fun group member => (whole group member).imp ?_ ?_
  · exact fun leaves record place => decide_eq_true (leaves record place)
  · exact fun covers record place => decide_eq_false (covers record place)

variable (state) in
theorem left_grouped (ledger : Ledger records) : Grouped (state.left records) :=
  ledger.grouped.1.sublist List.filter_sublist

theorem groups_selected (ledger : Ledger records) (whole : state.Whole records) :
    groups (state.selected records) = state.left records := by
  rw [selected_eq ledger whole, (left_grouped state ledger).groups_flatten]

theorem mem_left {group : List StreamRecord} :
    group ∈ state.left records ↔
      group ∈ groups records ∧ ∀ record ∈ group, state.Leaves record.seq := by
  unfold ContextState.left
  rw [List.mem_filter, List.all_eq_true]
  simp only [decide_eq_true_eq]

/-! ### Compression -/

section

variable (config : AgentConfig) (currentInputSeq : Int)

/-- The groups that the loop takes: of the first ones, those without the current input. -/
theorem gather_eq (state : ContextState) (parts : List (List StreamRecord))
    (old : List StreamRecord) :
    ∃ count, gather config currentInputSeq state old parts =
      old ++ ((parts.take count).filter fun group => !has currentInputSeq group).flatten := by
  induction parts generalizing old with
  | nil => exact ⟨0, (List.append_nil old).symm⟩
  | cons group rest inductionHypothesis =>
    unfold gather
    split
    case isTrue current =>
      obtain ⟨count, done⟩ := inductionHypothesis old
      refine ⟨count + 1, ?_⟩
      rw [done, List.take_succ_cons, List.filter_cons_of_neg (by rw [current]; decide)]
    case isFalse other =>
      split
      · exact ⟨0, (List.append_nil old).symm⟩
      · obtain ⟨count, done⟩ := inductionHypothesis (old ++ group)
        refine ⟨count + 1, ?_⟩
        rw [done, List.take_succ_cons, List.filter_cons_of_pos (by simpa using other),
          List.flatten_cons, List.append_assoc]

end

theorem mem_sortedSet (seqs : List Int) (seq : Int) : seq ∈ sortedSet seqs ↔ seq ∈ seqs := by
  unfold sortedSet
  rw [List.mem_insertionSort, List.mem_dedup]

theorem has_iff (seq : Int) (group : List StreamRecord) :
    has seq group = true ↔ ∃ record ∈ group, record.seq = seq := by
  unfold has
  rw [List.any_eq_true]
  simp only [decide_eq_true_eq]

/-- What a compression did: it took some groups without the current input, such that every record
up to the later bound is in one of them or was covered before. -/
structure Compressed (records : List StreamRecord) (currentInputSeq : Int)
    (before after : ContextState) (old : List (List StreamRecord)) : Prop where
  among : ∀ group ∈ old, group ∈ before.left records ∧ has currentInputSeq group = false
  sources : ∀ seq, seq ∈ after.summarySources ↔
    seq ∈ old.flatten.map StreamRecord.seq ∨ seq ∈ before.summarySources
  later : before.coveredThrough ≤ after.coveredThrough
  below : after.coveredThrough ≤ max before.coveredThrough (currentInputSeq - 1)
  complete : ∀ record ∈ (before.left records).flatten, record.seq ≤ after.coveredThrough →
    record ∈ old.flatten

theorem Compressed.refl (currentInputSeq : Int) :
    Compressed records currentInputSeq state state [] where
  among _ member := absurd member List.not_mem_nil
  sources seq := by simp
  later := le_refl _
  below := le_max_left _ _
  complete record member below := by
    obtain ⟨group, isLeft, inGroup⟩ := List.mem_flatten.mp member
    exact absurd below (not_le.mpr ((mem_left.mp isLeft).2 record inGroup).1)

/-- What the compressor leaves, if its groups end with a record of some number. -/
theorem compressed_of_take (ledger : Ledger records) {current last : StreamRecord} {count : Nat}
    {after : ContextState} (place : current ∈ usable records) (input : current.kind = .buyerInput)
    (isLast : last ∈ (((state.left records).take count).filter
      fun group => !has current.seq group).flatten)
    (bound : after.coveredThrough = max state.coveredThrough (min (current.seq - 1) last.seq))
    (sources : ∀ seq, seq ∈ after.summarySources ↔
      seq ∈ (((state.left records).take count).filter
        fun group => !has current.seq group).flatten.map StreamRecord.seq ∨
      seq ∈ state.summarySources) :
    Compressed records current.seq state after
      (((state.left records).take count).filter fun group => !has current.seq group) where
  among group member := by
    obtain ⟨taken, without⟩ := List.mem_filter.mp member
    exact ⟨List.mem_of_mem_take taken, by simpa using without⟩
  sources := sources
  later := by rw [bound]; exact le_max_left _ _
  below := by rw [bound]; exact max_le_max_left _ (min_le_left _ _)
  complete record member low := by
    have grouped : Grouped (state.left records) := left_grouped state ledger
    obtain ⟨group, isLeft, inGroup⟩ := List.mem_flatten.mp member
    have open_ := ((mem_left.mp isLeft).2 record inGroup).1
    rw [bound] at low
    have low : record.seq ≤ current.seq - 1 ∧ record.seq ≤ last.seq := by omega
    -- The last record is in one of the first groups, and so is what has a smaller number.
    obtain ⟨lastGroup, lastTaken, inLast⟩ := List.mem_flatten.mp isLast
    have lastTaken := (List.mem_filter.mp lastTaken).1
    have first : group ∈ (state.left records).take count := by
      rw [← List.take_append_drop count (state.left records), List.mem_append] at isLeft
      rcases isLeft with taken | dropped
      · exact taken
      · have ordered := grouped.ordered
        rw [← List.take_append_drop count (state.left records), List.flatten_append,
          List.pairwise_append] at ordered
        have above := ordered.2.2 last (List.mem_flatten_of_mem lastTaken inLast) record
          (List.mem_flatten_of_mem dropped inGroup)
        omega
    refine List.mem_flatten.mpr ⟨group, List.mem_filter.mpr ⟨first, ?_⟩, inGroup⟩
    rw [Bool.not_eq_true', ← Bool.not_eq_true, has_iff]
    rintro ⟨other, inSame, same⟩
    have isPart := (mem_left.mp (List.mem_of_mem_take first)).1
    have whole := ledger.grouped
    have equal : other = current := whole.1.eq_of_seq (List.mem_flatten_of_mem isPart inSame)
      (by rw [whole.2]; exact place) same
    subst equal
    rw [whole.1.eq_singleton isPart inSame input, List.mem_singleton] at inGroup
    rw [inGroup] at low
    omega

theorem compressOrKeep_compressed (config : AgentConfig) (call : List Message → SummaryOutcome)
    (ledger : Ledger records) (whole : state.Whole records) {current : StreamRecord}
    (place : current ∈ usable records) (input : current.kind = .buyerInput)
    {after : ContextState}
    (done : compressOrKeep config call current.seq (state.selected records) state = .ok after) :
    ∃ old, Compressed records current.seq state after old := by
  unfold compressOrKeep at done
  split at done
  case h_1 later compressed =>
    cases done
    unfold compress at compressed
    rw [groups_selected ledger whole] at compressed
    obtain ⟨count, gathered⟩ := gather_eq config current.seq state (earlier (state.left records)) []
    rw [List.nil_append, earlier, List.take_take] at gathered
    simp only [earlier, gathered] at compressed
    split at compressed
    case h_1 => cases compressed; exact ⟨[], Compressed.refl _⟩
    case h_2 last isLast =>
      split at compressed
      case h_1 => cases compressed
      case h_2 => cases compressed
      case h_3 data answered =>
        simp only [bind_eq_ok, require_eq_ok, expect_eq_ok, pure_eq_ok] at compressed
        obtain ⟨text, _, _, _, _, _, rfl⟩ := compressed
        refine ⟨_, compressed_of_take ledger place input (List.mem_of_getLast? isLast) rfl ?_⟩
        intro seq
        rw [mem_sortedSet, List.mem_append]
  case h_2 => cases done
  case h_3 => cases done; exact ⟨[], Compressed.refl _⟩

theorem compressOrKeep_eq_error {config : AgentConfig} {call : List Message → SummaryOutcome}
    {currentInputSeq : Int} {selected : List StreamRecord} {failure : BuildError}
    (done : compressOrKeep config call currentInputSeq selected state = .error failure) :
    failure = .leaseLost := by
  unfold compressOrKeep at done
  split at done
  case h_1 => cases done
  case h_2 => cases done; rfl
  case h_3 => cases done

/-- Without an answer the state stays as it is. -/
theorem compressOrKeep_failed (config : AgentConfig) (currentInputSeq : Int)
    (selected : List StreamRecord) :
    compressOrKeep config (fun _ => .failed) currentInputSeq selected state = .ok state := by
  unfold compressOrKeep compress
  dsimp only
  cases (gather config currentInputSeq state [] (earlier (groups selected))).getLast? with
  | none => rfl
  | some last => rfl

namespace Compressed

variable {after : ContextState} {currentInputSeq : Int} {old : List (List StreamRecord)}

/-- Later a group is left that was left before and was not taken. -/
theorem leaves_iff (compressed : Compressed records currentInputSeq state after old)
    (ledger : Ledger records) {group : List StreamRecord} (isPart : group ∈ groups records)
    {record : StreamRecord} (member : record ∈ group) (before : state.Whole records) :
    after.Leaves record.seq ↔ state.Leaves record.seq ∧ group ∉ old := by
  have grouped := ledger.grouped.1
  constructor
  · rintro ⟨above, unnamed⟩
    rw [compressed.sources, not_or] at unnamed
    refine ⟨⟨lt_of_le_of_lt compressed.later above, unnamed.2⟩, fun taken => unnamed.1 ?_⟩
    exact List.mem_map_of_mem (List.mem_flatten_of_mem taken member)
  · rintro ⟨leaves, untaken⟩
    -- A record of a group that was not taken is not among the records that were taken.
    have apart : record ∉ old.flatten := fun taken => by
      obtain ⟨other, isOld, inOther⟩ := List.mem_flatten.mp taken
      have isOther := (mem_left.mp (compressed.among other isOld).1).1
      rw [grouped.group_eq isPart isOther member inOther] at untaken
      exact untaken isOld
    have isLeft : group ∈ state.left records := by
      refine mem_left.mpr ⟨isPart, ?_⟩
      rcases before group isPart with all | none
      · exact all
      · exact absurd leaves (none record member)
    refine ⟨?_, fun named => ?_⟩
    · by_contra low
      exact apart (compressed.complete record (List.mem_flatten_of_mem isLeft member)
        (not_lt.mp low))
    · rcases (compressed.sources _).mp named with taken | known
      · obtain ⟨other, isTaken, same⟩ := List.mem_map.mp taken
        obtain ⟨otherGroup, isOld, inOther⟩ := List.mem_flatten.mp isTaken
        have isOther := (mem_left.mp (compressed.among otherGroup isOld).1).1
        rw [grouped.eq_of_seq (List.mem_flatten_of_mem isOther inOther)
          (List.mem_flatten_of_mem isPart member) same] at isTaken
        exact apart isTaken
      · exact leaves.2 known

/-- The later state covers whole groups again. -/
theorem whole (compressed : Compressed records currentInputSeq state after old)
    (ledger : Ledger records) (before : state.Whole records) : after.Whole records := by
  intro group isPart
  by_cases taken : group ∈ old
  · exact .inr fun record member leaves =>
      ((compressed.leaves_iff ledger isPart member before).mp leaves).2 taken
  · refine (before group isPart).imp (fun all record member => ?_) fun none record member leaves => ?_
    · exact (compressed.leaves_iff ledger isPart member before).mpr ⟨all record member, taken⟩
    · exact none record member ((compressed.leaves_iff ledger isPart member before).mp leaves).1

/-- The current input stays. -/
theorem leaves_current (compressed : Compressed records currentInputSeq state after old)
    (leaves : state.Leaves currentInputSeq) : after.Leaves currentInputSeq := by
  refine ⟨?_, fun named => ?_⟩
  · have below := compressed.below
    have above := leaves.1
    omega
  · rcases (compressed.sources _).mp named with taken | known
    · obtain ⟨record, isTaken, same⟩ := List.mem_map.mp taken
      obtain ⟨group, isOld, member⟩ := List.mem_flatten.mp isTaken
      have has : has currentInputSeq group = true := (has_iff _ _).mpr ⟨record, member, same⟩
      rw [(compressed.among group isOld).2] at has
      cases has
    · exact leaves.2 known

/-- A record that was selected is selected still or is a source of the summary. -/
theorem lossless (compressed : Compressed records currentInputSeq state after old)
    (ledger : Ledger records) (before : state.Whole records) {record : StreamRecord}
    (selected : record ∈ state.selected records) :
    record ∈ after.selected records ∨ record.seq ∈ after.summarySources := by
  obtain ⟨isUsable, leaves⟩ := List.mem_filter.mp selected
  rw [← ledger.grouped.2, List.mem_flatten] at isUsable
  obtain ⟨group, isPart, member⟩ := isUsable
  by_cases taken : group ∈ old
  · refine .inr ((compressed.sources _).mpr (.inl ?_))
    exact List.mem_map_of_mem (List.mem_flatten_of_mem taken member)
  · refine .inl (List.mem_filter.mpr ⟨(List.mem_filter.mp selected).1, decide_eq_true ?_⟩)
    exact (compressed.leaves_iff ledger isPart member before).mpr
      ⟨of_decide_eq_true leaves, taken⟩

end Compressed

/-! ### Leaving groups out -/

section

variable (size : List StreamRecord → Nat) (limit inputLimit : Nat) (currentInputSeq : Int)

/-- What is left without a group is the other groups. -/
theorem without_eq {parts : List (List StreamRecord)} (grouped : Grouped parts)
    {group : List StreamRecord} (isPart : group ∈ parts) :
    without parts.flatten group = (parts.filter fun other => decide (other ≠ group)).flatten := by
  have among : ∀ {other : List StreamRecord} {record : StreamRecord}, other ∈ parts →
      record ∈ other → (record.seq ∈ group.map StreamRecord.seq ↔ other = group) := by
    intro other record isOther inOther
    constructor
    · intro named
      obtain ⟨same, inGroup, equal⟩ := List.mem_map.mp named
      rw [grouped.eq_of_seq (List.mem_flatten_of_mem isPart inGroup)
        (List.mem_flatten_of_mem isOther inOther) equal] at inGroup
      exact grouped.group_eq isOther isPart inOther inGroup
    · rintro rfl
      exact List.mem_map_of_mem inOther
  unfold without
  rw [filter_flatten]
  · congr 1
    refine List.filter_congr fun other isOther => ?_
    rw [Bool.eq_iff_iff, List.all_eq_true, decide_eq_true_eq]
    simp only [decide_eq_true_eq]
    constructor
    · rintro all rfl
      obtain ⟨record, inOther⟩ := List.exists_mem_of_ne_nil _ (grouped.exchanges other isOther).ne_nil
      exact all record inOther (List.mem_map_of_mem inOther)
    · intro different record inOther named
      exact different ((among isOther inOther).mp named)
  · intro other isOther
    by_cases same : other = group
    · exact .inr fun record inOther => decide_eq_false fun out => out ((among isOther inOther).mpr same)
    · exact .inl fun record inOther => decide_eq_true fun named => same ((among isOther inOther).mp named)

/-- The earlier groups and the last two of a list of groups. -/
theorem earlier_append {front back : List (List StreamRecord)}
    (two : back.length = 2 ∨ front = [] ∧ back.length ≤ 2) : earlier (front ++ back) = front := by
  unfold earlier
  rw [List.length_append]
  rcases two with two | ⟨rfl, few⟩
  · rw [two, Nat.add_sub_cancel, List.take_left]
  · rw [List.nil_append, List.length_nil, Nat.zero_add, Nat.sub_eq_zero_of_le few, List.take_zero]

theorem settle_eq_ok {selected : List StreamRecord} {omitted : List Int} {trimmed : Trimmed}
    (small : inputLimit ≤ limit)
    (done : settle size limit inputLimit selected omitted = .ok trimmed) :
    trimmed.selected = selected ∧ trimmed.omitted = omitted ∧ size selected ≤ limit := by
  unfold settle at done
  split at done
  case isTrue fits => cases done; exact ⟨rfl, rfl, Nat.le_trans fits small⟩
  case isFalse =>
    split at done
    case isTrue fits => cases done; exact ⟨rfl, rfl, fits⟩
    case isFalse => cases done

theorem settle_eq_error {selected : List StreamRecord} {omitted : List Int} {failure : BuildError}
    (done : settle size limit inputLimit selected omitted = .error failure) :
    failure = .pinnedContextBudget := by
  unfold settle at done
  split at done
  · cases done
  · split at done <;> cases done
    rfl

/-- Of the groups in front some were left out, none with the current input. -/
def LeavesOut (front back : List (List StreamRecord)) (selected : List StreamRecord)
    (omitted : List Int) : Prop :=
  ∃ dropped : List (List StreamRecord),
    (∀ group ∈ dropped, group ∈ front ∧ has currentInputSeq group = false) ∧
    selected = ((front.filter fun group => decide (group ∉ dropped)) ++ back).flatten ∧
    omitted = dropped.flatten.map StreamRecord.seq

theorem LeavesOut.nothing (front back : List (List StreamRecord)) :
    LeavesOut currentInputSeq front back (front ++ back).flatten [] :=
  ⟨[], fun _ member => absurd member List.not_mem_nil,
    by rw [List.filter_eq_self.mpr fun group _ => decide_eq_true List.not_mem_nil], rfl⟩

/-- One more group is left out. -/
theorem LeavesOut.cons {front back : List (List StreamRecord)} {group : List StreamRecord}
    {selected : List StreamRecord} {omitted : List Int} (isFront : group ∈ front)
    (free : has currentInputSeq group = false)
    (others : LeavesOut currentInputSeq (front.filter fun other => decide (other ≠ group)) back
      selected omitted) :
    LeavesOut currentInputSeq front back selected (group.map StreamRecord.seq ++ omitted) := by
  obtain ⟨dropped, among, same, named⟩ := others
  refine ⟨group :: dropped, List.forall_mem_cons.mpr ⟨⟨isFront, free⟩, fun other isDropped => ?_⟩,
    ?_, ?_⟩
  · exact ⟨(List.mem_filter.mp (among other isDropped).1).1, (among other isDropped).2⟩
  · rw [same, List.filter_filter]
    congr 2
    refine List.filter_congr fun other _ => ?_
    simp [Bool.and_comm]
  · rw [named, List.flatten_cons, List.map_append]

/-- The loop leaves groups out until the rest fits. -/
theorem trimFor_eq_ok {front back : List (List StreamRecord)} (grouped : Grouped (front ++ back))
    (two : back.length = 2 ∨ front = [] ∧ back.length ≤ 2) (small : inputLimit ≤ limit)
    {rounds : Nat} {omitted : List Int} {trimmed : Trimmed}
    (done : trimFor size limit inputLimit currentInputSeq rounds (front ++ back).flatten omitted =
      .ok trimmed) :
    size trimmed.selected ≤ limit ∧
      ∃ more, trimmed.omitted = omitted ++ more ∧
        LeavesOut currentInputSeq front back trimmed.selected more := by
  induction rounds generalizing front omitted with
  | zero =>
    obtain ⟨same, none, fits⟩ := settle_eq_ok size limit inputLimit small done
    rw [same, none]
    exact ⟨fits, [], (List.append_nil _).symm, LeavesOut.nothing ..⟩
  | succ rounds inductionHypothesis =>
    unfold trimFor at done
    split at done
    case isTrue fits =>
      cases done
      exact ⟨Nat.le_trans fits small, [], (List.append_nil _).symm, LeavesOut.nothing ..⟩
    case isFalse =>
      unfold removable at done
      rw [grouped.groups_flatten, earlier_append two] at done
      split at done
      case h_1 =>
        obtain ⟨same, none, fits⟩ := settle_eq_ok size limit inputLimit small done
        rw [same, none]
        exact ⟨fits, [], (List.append_nil _).symm, LeavesOut.nothing ..⟩
      case h_2 group found =>
        have isFront : group ∈ front := List.mem_of_find?_eq_some found
        have free : has currentInputSeq group = false := by simpa using List.find?_some found
        have two : back.length = 2 := by
          rcases two with two | ⟨rfl, _⟩
          · exact two
          · exact absurd isFront List.not_mem_nil
        -- The last two groups are others than the one that goes.
        have stays : back.filter (fun other => decide (other ≠ group)) = back := by
          refine List.filter_eq_self.mpr fun other isBack => decide_eq_true ?_
          rintro rfl
          have once := (List.nodup_flatten.mp (grouped.ordered.imp ne_of_seq_lt)).2
          have ends := (List.pairwise_append.mp once).2.2 other isFront other isBack
          have some := (grouped.exchanges other (List.mem_append_left _ isFront)).ne_nil
          obtain ⟨record, member⟩ := List.exists_mem_of_ne_nil _ some
          exact ends member member
        rw [without_eq grouped (List.mem_append_left _ isFront), List.filter_append, stays] at done
        have fewer : Grouped ((front.filter fun other => decide (other ≠ group)) ++ back) :=
          grouped.sublist (List.filter_sublist.append (List.Sublist.refl _))
        obtain ⟨fits, more, named, others⟩ := inductionHypothesis fewer (.inl two) done
        exact ⟨fits, group.map StreamRecord.seq ++ more, by rw [named, List.append_assoc],
          others.cons currentInputSeq isFront free⟩

/-- The loop fails only for what may not be left out. -/
theorem trimFor_eq_error {rounds : Nat} {selected : List StreamRecord} {omitted : List Int}
    {failure : BuildError}
    (done : trimFor size limit inputLimit currentInputSeq rounds selected omitted =
      .error failure) : failure = .pinnedContextBudget := by
  induction rounds generalizing selected omitted with
  | zero => exact settle_eq_error size limit inputLimit done
  | succ rounds inductionHypothesis =>
    unfold trimFor at done
    split at done
    · cases done
    · split at done
      · exact settle_eq_error size limit inputLimit done
      · exact inductionHypothesis done

/-- A round leaves fewer records. -/
theorem length_without_lt {selected group : List StreamRecord}
    (found : removable currentInputSeq selected = some group) :
    (without selected group).length < selected.length := by
  have isPart : group ∈ groups selected := List.mem_of_mem_take (List.mem_of_find?_eq_some found)
  obtain ⟨whole, each⟩ := flatten_groupsOf StreamRecord.action (usable selected)
  obtain ⟨record, member⟩ := List.exists_mem_of_ne_nil group (each group isPart)
  have isUsable : record ∈ usable selected := whole ▸ List.mem_flatten_of_mem isPart member
  refine List.length_filter_lt_length_iff_exists.mpr
    ⟨record, (usable_sublist selected).subset isUsable, ?_⟩
  simpa using ⟨record, member, rfl⟩

theorem trimFor_succ {rounds : Nat} {selected : List StreamRecord} (omitted : List Int)
    (enough : selected.length ≤ rounds) :
    trimFor size limit inputLimit currentInputSeq (rounds + 1) selected omitted =
      trimFor size limit inputLimit currentInputSeq rounds selected omitted := by
  induction rounds generalizing selected omitted with
  | zero =>
    rw [List.length_eq_zero_iff.mp (Nat.le_zero.mp enough)]
    have none : removable currentInputSeq [] = none := rfl
    unfold trimFor
    rw [none]
    unfold settle
    split
    · rfl
    · rfl
  | succ rounds inductionHypothesis =>
    rw [trimFor.eq_2, trimFor.eq_2 _ _ _ _ _ _ rounds]
    split
    · rfl
    · split
      · rfl
      · rename_i group found
        have fewer := length_without_lt currentInputSeq found
        exact inductionHypothesis _ (by omega)

theorem trimFor_eq {rounds : Nat} {selected : List StreamRecord} (omitted : List Int)
    (enough : selected.length ≤ rounds) :
    trimFor size limit inputLimit currentInputSeq rounds selected omitted =
      trim size limit inputLimit currentInputSeq selected omitted := by
  obtain ⟨more, rfl⟩ := Nat.exists_eq_add_of_le enough
  clear enough
  induction more with
  | zero => rfl
  | succ more inductionHypothesis =>
    rw [← Nat.add_assoc, trimFor_succ size limit inputLimit currentInputSeq omitted (by omega),
      inductionHypothesis]

/-- The number of rounds does not matter: the loop goes on until the rest fits or nothing more may
be left out. -/
theorem trim_eq (selected : List StreamRecord) (omitted : List Int) :
    trim size limit inputLimit currentInputSeq selected omitted =
      if size selected ≤ inputLimit then .ok { selected, omitted, inputLimit }
      else
        match removable currentInputSeq selected with
        | none => settle size limit inputLimit selected omitted
        | some group =>
          trim size limit inputLimit currentInputSeq (without selected group)
            (omitted ++ group.map StreamRecord.seq) := by
  rw [trim, ← trimFor_succ size limit inputLimit currentInputSeq omitted (le_refl _), trimFor.eq_2]
  cases found : removable currentInputSeq selected with
  | none => rfl
  | some group =>
    dsimp only
    rw [trimFor_eq size limit inputLimit currentInputSeq _
      (Nat.le_of_lt (length_without_lt currentInputSeq found))]

end

/-! ### Ledgers that grow -/

theorem groups_append {more : List StreamRecord} (ledger : Ledger records)
    (later : Ledger (records ++ more)) : ∃ new : List (List StreamRecord),
      groups (records ++ more) = groups records ++ new ∧ new.flatten = usable more := by
  have before := ledger.grouped
  have after := later.grouped
  have split : usable (records ++ more) = usable records ++ usable more := List.filter_append ..
  have first : Answered StreamRecord.action [] (usable records) := by
    rw [← before.2]
    exact answered_flatten before.1.exchanges
  have whole : Answered StreamRecord.action [] (usable records ++ usable more) := by
    rw [← split, ← after.2]
    exact answered_flatten after.1.exchanges
  obtain ⟨new, same, exchanges⟩ := (answered_iff _).mp (first.of_append whole)
  refine ⟨new, ?_, same.symm⟩
  rw [groups, split, ← before.2, same, ← List.flatten_append]
  refine groupsOf_flatten fun group member => ?_
  exact (List.mem_append.mp member).elim (before.1.exchanges group) (exchanges group)

/-- A state serves for a ledger: it covers whole groups of it, and nothing beyond it. -/
structure Serves (records : List StreamRecord) (state : ContextState) : Prop where
  ledger : Ledger records
  whole : state.Whole records
  named : ∀ seq ∈ state.summarySources, ∃ record ∈ records, record.seq = seq
  bounded : state.coveredThrough ≤ 0 ∨ ∃ record ∈ records, state.coveredThrough ≤ record.seq

namespace Serves

theorem start (memory : List Char) : Serves [] { memory } where
  ledger := ⟨List.Pairwise.nil, rfl⟩
  whole _ member := absurd member List.not_mem_nil
  named _ member := absurd member List.not_mem_nil
  bounded := .inl (le_refl 0)

/-- What comes after the ledger is not covered. -/
theorem leaves {more : List StreamRecord} (serves : Serves records state)
    (later : Ledger (records ++ more)) {record : StreamRecord} (member : record ∈ more)
    (positive : 0 < record.seq) : state.Leaves record.seq := by
  have above : ∀ old ∈ records, old.seq < record.seq := fun old before =>
    (List.pairwise_append.mp later.ordered).2.2 old before record member
  refine ⟨?_, fun source => ?_⟩
  · rcases serves.bounded with zero | ⟨old, before, bound⟩
    · exact lt_of_le_of_lt zero positive
    · exact lt_of_le_of_lt bound (above old before)
  · obtain ⟨old, before, same⟩ := serves.named _ source
    exact absurd same (ne_of_lt (above old before))

theorem grow {more : List StreamRecord} (serves : Serves records state)
    (later : Ledger (records ++ more)) (positive : ∀ record ∈ more, 0 < record.seq) :
    Serves (records ++ more) state where
  ledger := later
  whole group member := by
    obtain ⟨new, same, flat⟩ := groups_append serves.ledger later
    rw [same, List.mem_append] at member
    rcases member with old | isNew
    · exact serves.whole group old
    · left
      intro record inGroup
      have isMore : record ∈ more :=
        (usable_sublist more).subset (flat ▸ List.mem_flatten_of_mem isNew inGroup)
      exact serves.leaves later isMore (positive record isMore)
  named seq member := by
    obtain ⟨record, before, same⟩ := serves.named seq member
    exact ⟨record, List.mem_append_left _ before, same⟩
  bounded := serves.bounded.imp_right fun ⟨record, before, bound⟩ =>
    ⟨record, List.mem_append_left _ before, bound⟩

theorem compressed {after : ContextState} {input : StreamRecord} {old : List (List StreamRecord)}
    (serves : Serves records state) (place : input ∈ records)
    (compressed : Compressed records input.seq state after old) : Serves records after where
  ledger := serves.ledger
  whole := compressed.whole serves.ledger serves.whole
  named seq member := by
    rcases (compressed.sources seq).mp member with taken | known
    · obtain ⟨record, isTaken, same⟩ := List.mem_map.mp taken
      obtain ⟨group, isOld, inGroup⟩ := List.mem_flatten.mp isTaken
      have isPart := (mem_left.mp (compressed.among group isOld).1).1
      have isUsable : record ∈ usable records :=
        serves.ledger.grouped.2 ▸ List.mem_flatten_of_mem isPart inGroup
      exact ⟨record, (usable_sublist records).subset isUsable, same⟩
    · exact serves.named seq known
  bounded := by
    have below := compressed.below
    rcases serves.bounded with zero | ⟨record, before, bound⟩
    · by_cases covered : after.coveredThrough ≤ 0
      · exact .inl covered
      · exact .inr ⟨input, place, by omega⟩
    · rcases le_total record.seq input.seq with first | second
      · exact .inr ⟨input, place, by omega⟩
      · exact .inr ⟨record, before, by omega⟩

end Serves

/-! ### The messages that are built -/

/-- What is built from a ledger keeps the protocol, the budget, and the records. -/
structure Keeps (config : AgentConfig) (request : BuildRequest) (records : List StreamRecord)
    (before : ContextState) (built : Built) : Prop where
  protocol : validate built.messages = .ok ()
  within : estimate built.messages request.tools ≤ config.budget.limit
  /-- The records shown are whole groups of those that the state selects: some of the groups before
  the last two are left out, none with the current input. -/
  dropped : ∃ shown : List StreamRecord,
    built.messages = assemble (fixedMessages config request before.memory) request.currentInputSeq
      built.state shown ∧
    built.manifest.sourceSeqs = shown.map StreamRecord.seq ∧
    LeavesOut request.currentInputSeq (earlier (groups (built.state.selected records)))
      ((groups (built.state.selected records)).drop
        ((groups (built.state.selected records)).length - 2))
      shown built.manifest.omittedSourceSeqs
  current : ∃ record ∈ records, record.seq = request.currentInputSeq ∧
    record.seq ∈ built.manifest.sourceSeqs ∧
    ∃ message ∈ built.messages, recordMessage record = some message
  /-- What was selected is selected still or is a source of the summary. -/
  lossless : ∀ record ∈ before.selected records,
    record ∈ built.state.selected records ∨ record.seq ∈ built.state.summarySources
  /-- The state serves for the next call too. -/
  whole : built.state.Whole records
  leaves : built.state.Leaves request.currentInputSeq

theorem opens_answered {messages rest : List Message}
    (plain : ∀ message ∈ messages, message.action = .opens [])
    (answered : Answered Message.action [] rest) :
    Answered Message.action [] (messages ++ rest) := by
  induction messages with
  | nil => exact answered
  | cons message others inductionHypothesis =>
    rw [List.forall_mem_cons] at plain
    have alone : Exchange Message.action [message] := ⟨[], plain.1, List.nodup_nil, rfl⟩
    exact alone.append (inductionHypothesis plain.2)

theorem assemble_eq (config : AgentConfig) (request : BuildRequest) (memory : List Char)
    (state : ContextState) (shown : List StreamRecord) :
    ∃ front : List Message,
      assemble (fixedMessages config request memory) request.currentInputSeq state shown =
        front ++ shown.filterMap recordMessage ∧
      (∀ message ∈ front, message.action = .opens []) ∧ callIds front = [] := by
  refine ⟨_, rfl, ?_⟩
  unfold fixedMessages sourceList
  split <;> simp [Message.action, callIds, Message.callIds, Message.toolCalls]

/-- Whole groups of a ledger are accepted with the messages in front of them. -/
theorem validate_assemble (config : AgentConfig) (request : BuildRequest) (memory : List Char)
    (state : ContextState) (ledger : Ledger records) {parts : List (List StreamRecord)}
    (less : parts.Sublist (groups records)) :
    validate (assemble (fixedMessages config request memory) request.currentInputSeq state
      parts.flatten) = .ok () := by
  obtain ⟨front, same, plain, named⟩ := assemble_eq config request memory state parts.flatten
  have grouped : Grouped parts := ledger.grouped.1.sublist less
  have answered : Answered Message.action [] (parts.flatten.filterMap recordMessage) :=
    (answered_filterMap [] grouped.shown).mpr (answered_flatten grouped.exchanges)
  have fewer : (parts.flatten.filterMap recordMessage).Sublist
      (records.filterMap recordMessage) := by
    rw [← filterMap_usable records, ← ledger.grouped.2]
    exact less.flatten.filterMap recordMessage
  obtain ⟨_, distinct, present⟩ :=
    (validate_eq_ok _).mp (validate_of_sublist ledger.valid fewer answered)
  have ids : callIds (front ++ parts.flatten.filterMap recordMessage) =
      callIds (parts.flatten.filterMap recordMessage) := by
    rw [callIds, List.flatMap_append]
    rw [callIds] at named
    rw [named, List.nil_append, callIds]
  rw [same, validate_eq_ok, ids]
  exact ⟨opens_answered plain answered, distinct, present⟩

/-- The earlier groups and the last two make up the groups. -/
theorem earlier_append_drop (parts : List (List StreamRecord)) :
    earlier parts ++ parts.drop (parts.length - 2) = parts := List.take_append_drop _ _

theorem last_two (parts : List (List StreamRecord)) :
    (parts.drop (parts.length - 2)).length = 2 ∨
      earlier parts = [] ∧ (parts.drop (parts.length - 2)).length ≤ 2 := by
  rw [List.length_drop]
  by_cases few : parts.length ≤ 2
  · right
    rw [earlier, Nat.sub_eq_zero_of_le few, List.take_zero]
    exact ⟨rfl, by omega⟩
  · left
    omega

/-- What the loop leaves of the records that the state selects. -/
theorem trim_eq_ok (size : List StreamRecord → Nat) {limit inputLimit : Nat}
    (small : inputLimit ≤ limit) (ledger : Ledger records) (whole : state.Whole records)
    {input : StreamRecord} (place : input ∈ usable records) (leaves : state.Leaves input.seq)
    {trimmed : Trimmed}
    (done : trim size limit inputLimit input.seq (state.selected records) [] = .ok trimmed) :
    size trimmed.selected ≤ limit ∧ input ∈ trimmed.selected ∧
      (∃ parts : List (List StreamRecord), parts.Sublist (groups records) ∧
        trimmed.selected = parts.flatten) ∧
      LeavesOut input.seq (earlier (state.left records))
        ((state.left records).drop ((state.left records).length - 2))
        trimmed.selected trimmed.omitted := by
  have isSelected : input ∈ state.selected records :=
    List.mem_filter.mpr ⟨place, decide_eq_true leaves⟩
  have halves := earlier_append_drop (state.left records)
  have grouped := left_grouped state ledger
  rw [selected_eq ledger whole] at done isSelected
  rw [← halves] at done isSelected grouped
  obtain ⟨fits, more, omitted, others⟩ :=
    trimFor_eq_ok size limit inputLimit input.seq grouped (last_two _) small done
  rw [List.nil_append] at omitted
  rw [← omitted] at others
  refine ⟨fits, ?_, ?_, others⟩
  all_goals obtain ⟨dropped, among, same, _⟩ := others
  · -- The group of the input is not one of those that are left out.
    obtain ⟨group, isPart, member⟩ := List.mem_flatten.mp isSelected
    have own : has input.seq group = true := (has_iff _ _).mpr ⟨input, member, rfl⟩
    rw [same]
    refine List.mem_flatten_of_mem (List.mem_append.mpr ?_) member
    refine (List.mem_append.mp isPart).imp_left fun isFront => ?_
    refine List.mem_filter.mpr ⟨isFront, decide_eq_true fun isDropped => ?_⟩
    rw [(among group isDropped).2] at own
    cases own
  · refine ⟨_, ?_, same⟩
    have front : ((earlier (state.left records)).filter
        fun group => decide (group ∉ dropped)).Sublist (earlier (state.left records)) :=
      List.filter_sublist
    have fewer := front.append
      (List.Sublist.refl ((state.left records).drop ((state.left records).length - 2)))
    rw [halves] at fewer
    exact fewer.trans List.filter_sublist

/-- From a state that covers whole groups, what is sent follows the protocol and the budget. -/
theorem fit_eq_ok (config : AgentConfig) (request : BuildRequest) (memory : List Char)
    (ledger : Ledger records) (whole : state.Whole records) {input : StreamRecord}
    (place : input ∈ usable records) (named : input.seq = request.currentInputSeq)
    (leaves : state.Leaves input.seq) {built : Built}
    (done : fit config request (fixedMessages config request memory) records state = .ok built) :
    built.state = state ∧ validate built.messages = .ok () ∧
      estimate built.messages request.tools ≤ config.budget.limit ∧
      ∃ shown : List StreamRecord, input ∈ shown ∧
        built.messages = assemble (fixedMessages config request memory) request.currentInputSeq
          state shown ∧
        built.manifest.sourceSeqs = shown.map StreamRecord.seq ∧
        LeavesOut request.currentInputSeq (earlier (state.left records))
          ((state.left records).drop ((state.left records).length - 2))
          shown built.manifest.omittedSourceSeqs := by
  unfold fit at done
  simp only [bind_eq_ok, require_eq_ok, pure_eq_ok, mapError_eq_ok] at done
  obtain ⟨trimmed, loop, _, valid, _, within, rfl⟩ := done
  rw [← named] at loop
  obtain ⟨_, shown, _, others⟩ :=
    trim_eq_ok _ (Nat.sub_le _ _) ledger whole place leaves loop
  rw [named] at others
  exact ⟨rfl, valid, within, trimmed.selected, shown, rfl, rfl, others⟩

/-- The only failure is that what may not be left out is too long. -/
theorem fit_eq_error (config : AgentConfig) (request : BuildRequest) (memory : List Char)
    (ledger : Ledger records) (whole : state.Whole records) {input : StreamRecord}
    (place : input ∈ usable records) (named : input.seq = request.currentInputSeq)
    (leaves : state.Leaves input.seq) {failure : BuildError}
    (done : fit config request (fixedMessages config request memory) records state =
      .error failure) : failure = .pinnedContextBudget := by
  unfold fit at done
  rcases (bind_eq_error _ _ _).mp done with loop | ⟨trimmed, loop, later⟩
  · exact trimFor_eq_error _ _ _ _ loop
  · rw [← named] at loop
    obtain ⟨fits, _, ⟨parts, less, same⟩, _⟩ :=
      trim_eq_ok _ (Nat.sub_le _ _) ledger whole place leaves loop
    rw [named] at fits
    have valid := validate_assemble config request memory state ledger less
    rw [← same] at valid
    simp only [valid, require_ok fits] at later
    cases later

theorem squeeze_eq (config : AgentConfig) (request : BuildRequest) (fixed : List Message)
    (compressor : List StreamRecord → ContextState → Except BuildError ContextState) :
    squeeze config request fixed compressor records state =
        compressor (state.selected records) state ∨
      squeeze config request fixed compressor records state = .ok state := by
  unfold squeeze
  dsimp only
  split
  · exact .inl rfl
  · exact .inr rfl

theorem squeeze_compressed (config : AgentConfig) (request : BuildRequest)
    (call : List Message → SummaryOutcome) (fixed : List Message) (ledger : Ledger records)
    (whole : state.Whole records) {input : StreamRecord} (place : input ∈ usable records)
    (isInput : input.kind = .buyerInput) (named : input.seq = request.currentInputSeq)
    {after : ContextState}
    (done : squeeze config request fixed (compressOrKeep config call request.currentInputSeq)
      records state = .ok after) : ∃ old, Compressed records input.seq state after old := by
  rcases squeeze_eq config request fixed (compressOrKeep config call request.currentInputSeq)
    with compresses | keeps
  · rw [compresses, ← named] at done
    exact compressOrKeep_compressed config call ledger whole place isInput done
  · rw [keeps] at done
    cases done
    exact ⟨[], Compressed.refl _⟩

theorem build_compressed (config : AgentConfig) (request : BuildRequest)
    (call : List Message → SummaryOutcome) (ledger : Ledger records) (whole : state.Whole records)
    {input : StreamRecord} (place : input ∈ usable records) (isInput : input.kind = .buyerInput)
    (named : input.seq = request.currentInputSeq) {built : Built}
    (done : build config request (compressOrKeep config call request.currentInputSeq) records state =
      .ok built) :
    fit config request (fixedMessages config request state.memory) records built.state = .ok built ∧
      ∃ old, Compressed records input.seq state built.state old := by
  obtain ⟨after, stage, rest⟩ := (bind_eq_ok _ _ _).mp done
  have same : built.state = after := by
    simp only [fit, bind_eq_ok, require_eq_ok, pure_eq_ok] at rest
    obtain ⟨_, _, _, _, _, _, rfl⟩ := rest
    rfl
  rw [same]
  exact ⟨rest, squeeze_compressed config request call _ ledger whole place isInput named stage⟩

/-- For every protocol-valid ledger and every state that covers whole groups of it and not the
current input, what is built keeps the protocol, the budget and the records; the builder fails only
for the messages that it may not leave out, or when the lease is lost during a summary. -/
theorem build_keeps (config : AgentConfig) (request : BuildRequest)
    (call : List Message → SummaryOutcome) (records : List StreamRecord) (state : ContextState)
    (ledger : Ledger records)
    (current : ∃ record ∈ records, record.seq = request.currentInputSeq ∧
      record.kind = .buyerInput)
    (whole : state.Whole records) (leaves : state.Leaves request.currentInputSeq) :
    match build config request (compressOrKeep config call request.currentInputSeq) records state with
    | .ok built => Keeps config request records state built
    | .error failure => failure = .pinnedContextBudget ∨ failure = .leaseLost := by
  obtain ⟨input, member, named, isInput⟩ := current
  have shown := recordMessage_input isInput
  have place : input ∈ usable records :=
    List.mem_filter.mpr ⟨member, by rw [shown]; rfl⟩
  rw [← named] at leaves
  cases done : build config request (compressOrKeep config call request.currentInputSeq) records
    state with
  | ok built =>
    obtain ⟨rest, old, compressed⟩ :=
      build_compressed config request call ledger whole place isInput named done
    have wholeAfter := compressed.whole ledger whole
    have leavesAfter := compressed.leaves_current leaves
    obtain ⟨_, protocol, within, kept, isKept, messages, sources, others⟩ :=
      fit_eq_ok config request state.memory ledger wholeAfter place named leavesAfter rest
    exact {
      protocol, within
      dropped := ⟨kept, messages, sources, by rwa [groups_selected ledger wholeAfter]⟩
      current := ⟨input, member, named, by rw [sources]; exact List.mem_map_of_mem isKept,
        .human input.content,
        by rw [messages]; exact List.mem_append_right _ (List.mem_filterMap.mpr ⟨_, isKept, shown⟩),
        shown⟩
      lossless := fun record selected => compressed.lossless ledger whole selected
      whole := wholeAfter
      leaves := named ▸ leavesAfter }
  | error failure =>
    rcases (bind_eq_error _ _ _).mp done with stage | ⟨after, stage, rest⟩
    · right
      rcases squeeze_eq config request _ _ with compresses | keeps
      · exact compressOrKeep_eq_error (compresses ▸ stage)
      · rw [keeps] at stage
        cases stage
    · left
      obtain ⟨old, compressed⟩ :=
        squeeze_compressed config request call _ ledger whole place isInput named stage
      exact fit_eq_error config request state.memory ledger (compressed.whole ledger whole) place
        named (compressed.leaves_current leaves) rest

/-! ### A conversation of five records -/

/-- The buyer asks, and a call of a tool has its result. -/
def askedLedger : List StreamRecord :=
  [{ seq := 1, body := .buyerInput "你好", visibility := .everyone },
   { seq := 2, body := .publicReply "您好", visibility := .everyone },
   { seq := 3, body := .buyerInput "包邮吗", visibility := .everyone },
   { seq := 4, body := .toolCall (.ai "" [⟨"call-1", "get_product_info", "{}"⟩]) },
   { seq := 5, body := .toolResult (.tool "{}" "call-1" "get_product_info") }]

theorem askedLedger_ledger : Ledger askedLedger := ⟨by decide, by decide +kernel⟩

def askedRequest : BuildRequest :=
  { facts := compact.object [], tools := [], currentInputSeq := 3 }

def configOf (tokens : Nat) : AgentConfig :=
  { prompt := "", promptHash := "", summaryPrompt := "", conversation := true
    budget := ⟨tokens + 1, tokens + 1, 0, 0, 1, 200, by simp⟩ }

theorem configOf_limit (tokens : Nat) : (configOf tokens).budget.limit = tokens + 1 := by
  unfold AgentBudget.limit configOf
  simp

theorem configOf_fixedMessages (tokens : Nat) (request : BuildRequest) (memory : List Char) :
    fixedMessages (configOf tokens) request memory =
      fixedMessages (configOf 0) request memory := rfl

/-- A budget of just the messages for a state. -/
def tightConfig (state : ContextState) : AgentConfig :=
  configOf (estimate (assemble (fixedMessages (configOf 0) askedRequest state.memory)
    askedRequest.currentInputSeq state (state.selected askedLedger)) askedRequest.tools)

theorem build_keeps_asked :
    match build (tightConfig {}) askedRequest
      (compressOrKeep (tightConfig {}) (fun _ => .failed) askedRequest.currentInputSeq)
      askedLedger {} with
    | .ok built => Keeps (tightConfig {}) askedRequest askedLedger {} built
    | .error failure => failure = .pinnedContextBudget ∨ failure = .leaseLost :=
  build_keeps (tightConfig {}) askedRequest (fun _ => .failed) askedLedger {} askedLedger_ledger
    (by decide +kernel) (fun group member => .inl (by revert group; decide +kernel)) (by decide)

/-- The summary covers the call and not its result. -/
def halfCovered : ContextState := { summary := "已查询商品", summarySources := [4] }

/-- Nothing can be built when a call is covered and its result is not, although the ledger is valid,
the current input is not covered, and the messages fit. -/
theorem build_halfCovered :
    validate (askedLedger.filterMap recordMessage) = .ok () ∧ halfCovered.Leaves 3 ∧
      build (tightConfig halfCovered) askedRequest
        (compressOrKeep (tightConfig halfCovered) (fun _ => .failed) askedRequest.currentInputSeq)
        askedLedger halfCovered = .error (.invalid "Orphan or duplicate tool result") := by
  refine ⟨by decide +kernel, by decide, ?_⟩
  -- The summary call fails, so the state stays; the limit is what its messages take.
  have after : squeeze (tightConfig halfCovered) askedRequest
      (fixedMessages (tightConfig halfCovered) askedRequest halfCovered.memory)
      (compressOrKeep (tightConfig halfCovered) (fun _ => .failed) askedRequest.currentInputSeq)
      askedLedger halfCovered = .ok halfCovered := by
    rcases squeeze_eq (tightConfig halfCovered) askedRequest _ _ with compresses | keeps
    · rw [compresses, compressOrKeep_failed]
    · exact keeps
  have fits : estimate (assemble
      (fixedMessages (tightConfig halfCovered) askedRequest halfCovered.memory)
      askedRequest.currentInputSeq halfCovered (halfCovered.selected askedLedger))
      askedRequest.tools ≤ (tightConfig halfCovered).budget.limit - askedRequest.growthReserve := by
    rw [tightConfig, configOf_limit, configOf_fixedMessages (estimate _ _),
      show askedRequest.growthReserve = 0 from rfl, Nat.sub_zero]
    exact Nat.le_add_right _ 1
  obtain ⟨front, same, plain, _⟩ := assemble_eq (tightConfig halfCovered) askedRequest
    halfCovered.memory halfCovered (halfCovered.selected askedLedger)
  have orphan : validateFrom [] [] ((halfCovered.selected askedLedger).filterMap recordMessage) =
      .error "Orphan or duplicate tool result" := by decide +kernel
  refine (bind_eq_error _ _ _).mpr (.inr ⟨halfCovered, after, ?_⟩)
  refine (bind_eq_error _ _ _).mpr (.inr ⟨_, (trim_eq ..).trans (if_pos fits), ?_⟩)
  refine (bind_eq_error _ _ _).mpr (.inl ?_)
  rw [same, validate, validateFrom_plain [] plain, orphan]
  rfl

/-- A conversation as the builder sees it: records come in, the memory changes, and calls are built
for inputs that are not covered. -/
inductive Conversing (config : AgentConfig) : List StreamRecord → ContextState → Prop where
  | start (memory : List Char) : Conversing config [] { memory }
  | record (records more : List StreamRecord) (state : ContextState) :
      Conversing config records state → Ledger (records ++ more) →
      (∀ record ∈ more, 0 < record.seq) → Conversing config (records ++ more) state
  | remember (records : List StreamRecord) (state : ContextState) (memory : List Char) :
      Conversing config records state → Conversing config records { state with memory }
  | build (records : List StreamRecord) (state : ContextState) (request : BuildRequest)
      (call : List Message → SummaryOutcome) (built : Built) :
      Conversing config records state →
      (∃ record ∈ records, record.seq = request.currentInputSeq ∧ record.kind = .buyerInput) →
      build config request (compressOrKeep config call request.currentInputSeq) records state =
        .ok built →
      Conversing config records built.state

/-- Every state of a conversation serves for its ledger. -/
theorem Conversing.serves {config : AgentConfig} (conversing : Conversing config records state) :
    Serves records state := by
  induction conversing with
  | start memory => exact Serves.start memory
  | record _ _ _ _ later positive serves => exact serves.grow later positive
  | remember _ _ _ _ serves => exact ⟨serves.ledger, serves.whole, serves.named, serves.bounded⟩
  | build _ _ request call built _ current done serves =>
    obtain ⟨input, member, named, isInput⟩ := current
    have place : input ∈ usable _ :=
      List.mem_filter.mpr ⟨member, by rw [recordMessage_input isInput]; rfl⟩
    obtain ⟨_, old, compressed⟩ :=
      build_compressed config request call serves.ledger serves.whole place isInput named done
    exact serves.compressed member compressed

end Negotiation.Agent
