/-
This file proves that what a turn is prepared with is frozen. A context names
inputs in front of its run and messages up to the number its display had shown;
such rows are written once, so a later load finds every one of them as it was,
and two sessions that agree on them prepare the same context. One more thing has
to agree: whether the display that the input refers to still holds an offer when
the context is made.
-/

import SecondhandAgent.Budget
import SecondhandAgent.Notices
import SecondhandAgent.Recall
import SecondhandAgent.Schedule

namespace Negotiation

open Store

/-! ### The messages of a session -/

/-- Every input has its message, and no two messages share a key. -/
structure Addressed (db : Db) : Prop where
  own : ∀ run ∈ db.inputs, ∃ message ∈ db.messages, message.origin = .input run.id
  below : ∀ message ∈ db.messages, message.id < db.nextId
  once : ∀ one ∈ db.messages, ∀ two ∈ db.messages, one.id = two.id → one = two

section

variable {db after : Db}

/-- Other rows are written. -/
theorem Addressed.kept (addressed : Addressed db) (messages : after.messages = db.messages)
    (inputs : ∀ run ∈ after.inputs, ∃ old ∈ db.inputs, old.id = run.id)
    (supply : db.nextId ≤ after.nextId) : Addressed after where
  own run member := by
    obtain ⟨old, found, key⟩ := inputs run member
    rw [messages, ← key]
    exact addressed.own old found
  below message member := Nat.lt_of_lt_of_le (addressed.below message (messages ▸ member)) supply
  once one member two other := addressed.once one (messages ▸ member) two (messages ▸ other)

/-- A message gets a new key. -/
theorem Addressed.posted {message : Message} (addressed : Addressed db)
    (messages : after.messages = db.messages.insertIgnore message)
    (free : db.messages.get message.origin = none)
    (inputs : ∀ run ∈ after.inputs, (∃ old ∈ db.inputs, old.id = run.id) ∨
      message.origin = .input run.id)
    (new : db.nextId ≤ message.id) (supply : message.id < after.nextId) : Addressed after where
  own run member := by
    rw [messages]
    rcases inputs run member with ⟨old, found, key⟩ | origin
    · obtain ⟨message, listed, origin⟩ := addressed.own old found
      exact ⟨message, Table.mem_insertIgnore_of_mem listed, key ▸ origin⟩
    · exact ⟨message, Table.mem_insertIgnore_self free, origin⟩
  below other member := by
    rw [messages] at member
    rcases Table.mem_insertIgnore member with rfl | old
    · exact supply
    · have := addressed.below other old
      omega
  once one member two other same := by
    rw [messages] at member other
    rcases Table.mem_insertIgnore member with rfl | old
    · rcases Table.mem_insertIgnore other with rfl | otherOld
      · rfl
      · have := addressed.below two otherOld
        omega
    · rcases Table.mem_insertIgnore other with rfl | otherOld
      · have := addressed.below one old
        omega
      · exact addressed.once one old two otherOld same

variable [Platform]

theorem QueueEffect.addressed {transaction : Transaction} (addressed : Addressed db)
    (effect : QueueEffect db transaction after) (supply : db.nextId ≤ after.nextId) :
    Addressed after := by
  cases effect with
  | idle frame =>
    exact addressed.kept (by rw [frame]) (fun run member => ⟨run, by rwa [frame] at member, rfl⟩)
      supply
  | enqueued _ _ _ _ appended =>
    unfold newInput at appended
    simp only [bind_eq_ok, pure_eq_ok] at appended
    obtain ⟨messages, posted, _, _, inputs, added, rfl⟩ := appended
    have free := Table.free_of_insert posted
    refine addressed.posted (Table.eq_insertIgnore posted) free (fun run member => ?_)
      (Nat.le_succ _) (show db.nextId + 1 < db.nextId + 3 by omega)
    rcases (Table.mem_insert added run).mp member with rfl | old
    · exact .inr rfl
    · exact .inl ⟨run, old, rfl⟩
  | turned found _ _ turn frame =>
    refine addressed.kept (by rw [frame]) (fun run member => ?_) supply
    rw [frame] at member
    rcases Table.mem_of_mem_put member with old | rfl
    · exact ⟨run, old, rfl⟩
    · exact ⟨_, Table.mem_of_get found, (NegotiationInput.of_sent turn.sent).1.symm⟩

/-- What is no publication and not done to the queue leaves messages and inputs alone. -/
theorem Effect.unaddressed {transaction : Transaction} (effect : Effect db transaction after)
    (silent : ¬ transaction.IsPublic) :
    QueueEffect db transaction after ∨
      after.messages = db.messages ∧ after.inputs = db.inputs := by
  cases effect with
  | queued effect => exact .inl effect
  | published public_ => exact absurd public_ silent
  | repeated same =>
    rw [same]
    exact .inr ⟨rfl, rfl⟩
  | business _ writes =>
    rw [writes.frame]
    exact .inr ⟨rfl, rfl⟩
  | command _ writes =>
    rw [writes.frame, writes.business.frame]
    exact .inr ⟨rfl, rfl⟩
  | answered _ writes =>
    rw [writes.frame, show _ = _ from writes.drafts]
    exact .inr ⟨rfl, rfl⟩
  | planned _ _ _ writes frame =>
    rw [frame, show _ = _ from writes]
    exact .inr ⟨rfl, rfl⟩
  | displayed _ _ _ _ _ _ frame | archived frame =>
    rw [frame]
    exact .inr ⟨rfl, rfl⟩
  | edited _ writes | executed writes _ =>
    rw [show _ = _ from writes]
    exact .inr ⟨rfl, rfl⟩
  | acknowledged _ frame =>
    rw [frame, acknowledgeEvents_writes]
    exact .inr ⟨rfl, rfl⟩

/-- Every transaction keeps the messages in order. -/
theorem perform_addressed {transaction : Transaction} (shape : Deal.Shape db.deal)
    (addressed : Addressed db) (done : db.perform transaction = .ok after) : Addressed after := by
  have supply := perform_supply shape done
  by_cases public_ : transaction.IsPublic
  · obtain ⟨now, _, publishing⟩ := perform_publishing public_ done
    cases publishing with
    | idle same => exact same ▸ addressed
    | worked _ frame | refreshed _ _ _ frame | assessed frame =>
      exact addressed.kept (by rw [frame]) (fun run member => ⟨run, by rwa [frame] at member, rfl⟩)
        supply
    | posted _ _ free _ frame =>
      refine addressed.posted (by rw [frame]) free
        (fun run member => .inl ⟨run, by rwa [frame] at member, rfl⟩) (Nat.le_succ _) ?_
      rw [frame]
      exact Nat.lt_succ_self _
    | drafted _ free _ frame =>
      refine addressed.posted (by rw [frame]) free
        (fun run member => .inl ⟨run, by rwa [frame] at member, rfl⟩) (Nat.le_succ _) ?_
      rw [frame]
      exact Nat.lt_succ_self _
  · rcases (perform_effect done).unaddressed public_ with effect | ⟨messages, inputs⟩
    · exact effect.addressed addressed supply
    · exact addressed.kept messages (fun run member => ⟨run, inputs ▸ member, rfl⟩) supply

theorem reachable_addressed {world : World}
    (reached : Reachable World.Step World.Initial world) : Addressed world.db := by
  refine (database_invariant (fun db => Deal.Shape db.deal ∧ Addressed db)
    (fun world initial => ⟨initial_shape initial, ?_⟩)
    (fun db transaction after held done => ?_) reached).2
  · obtain ⟨⟨_, _, _, _, _, _, _, db⟩, _⟩ := initial
    rw [db]
    exact ⟨fun _ member => absurd member (Table.not_mem_empty _),
      fun _ member => absurd member (Table.not_mem_empty _),
      fun _ member => absurd member (Table.not_mem_empty _)⟩
  · exact ⟨(perform_op held.1 done).shape held.1, perform_addressed held.1 held.2 done⟩

/-! ### What the buyer had been shown -/

omit [Platform] in
/-- The run has seen the public messages up to the one of its display. -/
def SeenAsShown (db : Db) (run : NegotiationInput) : Prop :=
  match run.payload.displayReceiptId with
  | none => run.seenPublicMessageSeq = 0
  | some ackId =>
    ∃ ack ∈ db.acks, ack.id = ackId ∧
      ∃ context ∈ db.contexts, context.id = ack.contextId ∧
        run.seenPublicMessageSeq = context.publicSeq

omit [Platform] in
theorem SeenAsShown.grown {run later : NegotiationInput} (shown : SeenAsShown db run)
    (grows : Grows db.records after.records) (same : later.sent = run.sent) :
    SeenAsShown after later := by
  have payload : later.payload = run.payload := (NegotiationInput.of_sent same).2.2.2.1
  have seen : later.seenPublicMessageSeq = run.seenPublicMessageSeq :=
    congrArg (·.seenPublicMessageSeq) same
  unfold SeenAsShown at shown ⊢
  rw [payload, seen]
  split at shown
  · exact shown
  · obtain ⟨ack, acked, key, context, listed, about, same⟩ := shown
    exact ⟨ack, grows.acks ack acked, key, context, grows.contexts context listed, about, same⟩

omit [Platform] in
theorem seenPublicSeq_shown {buyerId : String} {payload : Payload} {now : Time} {seen : Nat}
    (done : seenPublicSeq db buyerId payload now = .ok seen) :
    match payload.displayReceiptId with
    | none => seen = 0
    | some ackId =>
      ∃ ack ∈ db.acks, ack.id = ackId ∧
        ∃ context ∈ db.contexts, context.id = ack.contextId ∧ seen = context.publicSeq := by
  unfold seenPublicSeq at done
  cases named : payload.displayReceiptId with
  | none =>
    rw [named] at done
    exact ((pure_eq_ok _ _).mp done).symm
  | some ackId =>
    rw [named] at done
    simp only [bind_eq_ok, expect_eq_ok, pure_eq_ok] at done
    obtain ⟨ack, acked, context, listed, _, _, rfl⟩ := done
    exact ⟨ack, Table.mem_of_get acked, Table.key_of_get acked, context, Table.mem_of_get listed,
      Table.key_of_get listed, rfl⟩

/-- An input that enters the queue has seen what its display shows. -/
theorem enqueue_shown {buyerId requestId : String} {payload : Payload} {config : Option Config}
    {now : Time} {result : Db × Nat}
    (done : enqueue db buyerId requestId payload config now = .ok result) :
    ∀ run ∈ result.1.inputs, run ∈ db.inputs ∨ SeenAsShown db run := by
  unfold enqueue at done
  simp only [bind_eq_ok] at done
  obtain ⟨_, _, _, _, _, _, _, _, rest⟩ := done
  split at rest
  · simp only [bind_eq_ok, pure_eq_ok] at rest
    obtain ⟨_, _, rfl⟩ := rest
    exact fun run member => .inl member
  · simp only [bind_eq_ok, pure_eq_ok] at rest
    obtain ⟨_, _, _, _, seen, shown, _, _, _, appended, rfl⟩ := rest
    unfold newInput at appended
    simp only [bind_eq_ok, pure_eq_ok] at appended
    obtain ⟨_, _, _, _, inputs, added, rfl⟩ := appended
    intro run member
    rcases (Table.mem_insert added run).mp member with rfl | old
    · exact .inr (seenPublicSeq_shown shown)
    · exact .inl old

theorem perform_shown {transaction : Transaction}
    (shown : ∀ run ∈ db.inputs, SeenAsShown db run) (done : db.perform transaction = .ok after) :
    ∀ run ∈ after.inputs, SeenAsShown after run := by
  have grows := (perform_effect done).grows
  intro run member
  rcases (perform_effect done).queue with same | effect
  · have inputs : after.inputs = db.inputs := congrArg Queue.inputs same
    exact (shown run (inputs ▸ member)).grown grows rfl
  · cases effect with
    | idle frame =>
      rw [frame] at member
      exact (shown run member).grown grows rfl
    | enqueued made =>
      subst made
      simp only [Db.perform, map_eq_ok] at done
      obtain ⟨_, done, rfl⟩ := done
      rcases enqueue_shown done run member with old | new
      · exact (shown run old).grown grows rfl
      · exact new.grown grows rfl
    | turned found _ _ turn frame =>
      rw [frame] at member
      rcases Table.mem_of_mem_put member with old | rfl
      · exact (shown run old).grown grows rfl
      · exact (shown _ (Table.mem_of_get found)).grown grows turn.sent

theorem reachable_shown {world : World} (reached : Reachable World.Step World.Initial world) :
    ∀ run ∈ world.db.inputs, SeenAsShown world.db run := by
  refine database_invariant (fun db => ∀ run ∈ db.inputs, SeenAsShown db run)
    (fun world initial => ?_) (fun _ _ _ shown done => perform_shown shown done) reached
  obtain ⟨⟨_, _, _, _, _, _, _, db⟩, _⟩ := initial
  rw [db]
  exact fun _ member => absurd member (Table.not_mem_empty _)

end

/-! ### The sources of a context -/

section

variable {db after : Db} {texts later : Texts} {run : NegotiationInput}

/-- What a part of a transaction can do to the texts: contents are written once, every message has
its content, and what was kept of a turn or of a draft stays as long as its row does. -/
structure Texts.Extends (before : Texts) (db : Db) (after : Texts) (next : Db) : Prop where
  contents : ∀ id content, before.contents id = some content → after.contents id = some content
  complete : ∀ message ∈ next.messages, after.contents message.id ≠ none
  frames : ∀ runId, db.turns.get runId ≠ none → after.frames runId = before.frames runId
  sources : ∀ draft ∈ db.drafts, draft ∈ next.drafts →
    after.sources draft.id = before.sources draft.id

/-- Inputs and messages stay as they were sent and shown. -/
structure Preserves (db : Db) (texts : Texts) (after : Db) (later : Texts) : Prop where
  inputs : ∀ run ∈ db.inputs, ∃ kept ∈ after.inputs, kept.sent = run.sent
  messages : ∀ message ∈ db.messages, message ∈ after.messages
  contents : ∀ id content, texts.contents id = some content → later.contents id = some content

theorem buyerMessageId_of {message : Message} (listed : message ∈ db.messages)
    (origin : message.origin = .input run.id) : buyerMessageId db run = message.id := by
  unfold buyerMessageId
  rw [← origin, Table.get_of_mem listed]
  rfl

/-- The message of an input stays its message. -/
theorem Preserves.buyerMessageId {kept : NegotiationInput} (preserves : Preserves db texts after later)
    (addressed : Addressed db) (member : run ∈ db.inputs) (same : kept.sent = run.sent) :
    buyerMessageId after kept = buyerMessageId db run := by
  obtain ⟨message, listed, origin⟩ := addressed.own run member
  have key : kept.id = run.id := (NegotiationInput.of_sent same).1
  rw [buyerMessageId_of listed origin,
    buyerMessageId_of (preserves.messages message listed) (key ▸ origin)]

/-- The number of an input finds it. -/
theorem sourceOf_eq (ordered : Ordered db.queue) (member : run ∈ db.inputs) :
    sourceOf db (buyerMessageId db run) run.inputSeq = some run := by
  unfold sourceOf
  cases found : db.inputs.rows.find? fun source =>
      buyerMessageId db source = buyerMessageId db run ∧ source.inputSeq = run.inputSeq with
  | none =>
    have := List.find?_eq_none.mp found run member
    simp at this
  | some source =>
    have holds := List.find?_some found
    have listed := List.mem_of_find?_eq_some found
    rw [ordered.numbered.once source listed run member (of_decide_eq_true holds).2]

/-- The key of a message finds it. -/
theorem message_found {message : Message} (addressed : Addressed db)
    (listed : message ∈ db.messages) :
    db.messages.rows.find? (·.id = message.id) = some message := by
  cases found : db.messages.rows.find? (·.id = message.id) with
  | none =>
    have := List.find?_eq_none.mp found message listed
    simp at this
  | some other =>
    have holds := List.find?_some found
    rw [addressed.once other (List.mem_of_find?_eq_some found) message listed
      (of_decide_eq_true holds)]

/-- The sources of a context: inputs in front of its run, which say what is remembered of them,
and messages that had been shown when the run was sent. -/
structure Sourced (db : Db) (texts : Texts) (run : NegotiationInput) (context : Context) : Prop where
  watermark : context.inputHighWatermark = run.inputSeq
  seen : context.seenPublicMessageSeq = run.seenPublicMessageSeq
  memory : ∀ memory ∈ context.summaryMemory, ∃ source ∈ db.inputs,
    buyerMessageId db source = memory.sourceMessageId ∧ source.inputSeq = memory.sourceInputSeq ∧
      source.inputSeq < run.inputSeq ∧ occurs memory.sourceQuote source.payload.text = true
  recent : ∀ message ∈ context.recentBuyerMessages, ∃ source ∈ db.inputs,
    buyerMessageId db source = message.messageId ∧ source.inputSeq = message.inputSeq ∧
      source.inputSeq < run.inputSeq ∧ source.payload.text = message.text
  displayed : ∀ message ∈ context.displayedMessages, ∃ source ∈ db.messages,
    source.id = message.messageId ∧ source.publicSeq = some message.publicSeq ∧
      message.publicSeq ≠ 0 ∧ message.publicSeq ≤ run.seenPublicMessageSeq ∧
      texts.contents source.id = some message.text

/-- The sources stay. -/
theorem Sourced.kept {context : Context} {kept : NegotiationInput}
    (sourced : Sourced db texts run context) (addressed : Addressed db)
    (preserves : Preserves db texts after later) (same : kept.sent = run.sent) :
    Sourced after later kept context := by
  have number {one two : NegotiationInput} (alike : one.sent = two.sent) :
      one.inputSeq = two.inputSeq := (NegotiationInput.of_sent alike).2.2.1
  have payload {one two : NegotiationInput} (alike : one.sent = two.sent) :
      one.payload = two.payload := (NegotiationInput.of_sent alike).2.2.2.1
  have seen : kept.seenPublicMessageSeq = run.seenPublicMessageSeq :=
    congrArg (·.seenPublicMessageSeq) same
  refine ⟨sourced.watermark.trans (number same).symm, sourced.seen.trans seen.symm,
    fun memory member => ?_, fun message member => ?_, fun message member => ?_⟩
  · obtain ⟨source, listed, id, place, before, said⟩ := sourced.memory memory member
    obtain ⟨stays, found, alike⟩ := preserves.inputs source listed
    refine ⟨stays, found, (preserves.buyerMessageId addressed listed alike).trans id,
      (number alike).trans place, ?_, payload alike ▸ said⟩
    rw [number alike, number same]
    exact before
  · obtain ⟨source, listed, id, place, before, said⟩ := sourced.recent message member
    obtain ⟨stays, found, alike⟩ := preserves.inputs source listed
    refine ⟨stays, found, (preserves.buyerMessageId addressed listed alike).trans id,
      (number alike).trans place, ?_, payload alike ▸ said⟩
    rw [number alike, number same]
    exact before
  · obtain ⟨source, listed, id, place, positive, shown, text⟩ := sourced.displayed message member
    exact ⟨source, preserves.messages source listed, id, place, positive, seen ▸ shown,
      preserves.contents _ _ text⟩

/-- A context whose sources are there passes the checks of a load. -/
theorem Sourced.loads [Platform] {prepared : Table PreparedTurn.inputId} {row : PreparedTurn}
    (sourced : Sourced db texts run row.context) (ordered : Ordered db.queue)
    (addressed : Addressed db) (listed : prepared.get run.id = some row)
    (hash : digest (row.context.write .tree) = row.quality.contextHash) :
    loadContext db texts prepared run = .ok row.context := by
  unfold loadContext
  refine (bind_eq_ok _ _ _).mpr ⟨row, (expect_eq_ok _ _ _).mpr listed, ?_⟩
  refine (bind_eq_ok _ _ _).mpr ⟨(), require_ok hash _, ?_⟩
  refine (bind_eq_ok _ _ _).mpr ⟨(), require_ok ⟨sourced.watermark, sourced.seen⟩ _, ?_⟩
  refine (bind_eq_ok _ _ _).mpr ⟨(), require_ok (fun memory member => ?_) _, ?_⟩
  · obtain ⟨source, found, id, place, before, said⟩ := sourced.memory memory member
    unfold MemoryStands
    rw [← id, ← place, sourceOf_eq ordered found]
    exact ⟨before, said⟩
  refine (bind_eq_ok _ _ _).mpr ⟨(), require_ok (fun message member => ?_) _, ?_⟩
  · obtain ⟨source, found, id, place, before, said⟩ := sourced.recent message member
    unfold RecentStands
    rw [← id, ← place, sourceOf_eq ordered found]
    exact ⟨before, said⟩
  refine (bind_eq_ok _ _ _).mpr ⟨(), require_ok (fun message member => ?_) _, rfl⟩
  obtain ⟨source, found, id, place, positive, shown, text⟩ := sourced.displayed message member
  unfold DisplayStands
  rw [← id, message_found addressed found]
  show Found source.publicSeq _
  rw [place]
  refine ⟨positive, rfl, shown, ?_⟩
  rw [text]
  rfl

theorem mem_of_remember {memory : List Memory} {item other : Memory}
    (member : other ∈ remember memory item) : other = item ∨ other ∈ memory := by
  unfold remember at member
  split at member
  · obtain ⟨old, listed, same⟩ := List.mem_map.mp member
    split at same
    · exact .inl same.symm
    · exact .inr (same ▸ listed)
  · rcases List.mem_append.mp member with old | new
    · exact .inr old
    · exact .inl (List.mem_singleton.mp new)

theorem mem_of_remembered {items memory : List Memory} {other : Memory}
    (member : other ∈ items.foldl remember memory) : other ∈ items ∨ other ∈ memory := by
  induction items generalizing memory with
  | nil => exact .inr member
  | cons item rest inductionHypothesis =>
    rcases inductionHypothesis member with later | now
    · exact .inl (List.mem_cons_of_mem _ later)
    · rcases mem_of_remember now with rfl | old
      · exact .inl List.mem_cons_self
      · exact .inr old

theorem mem_lastFour {Row : Type} {rows : List Row} {row : Row} (member : row ∈ lastFour rows) :
    row ∈ rows :=
  List.mem_reverse.mp (List.mem_of_mem_take (List.mem_reverse.mp member))

/-- An earlier turn is that of an input in front of the run. -/
theorem mem_earlierTurns {source : PastInput} (member : source ∈ earlierTurns db texts run) :
    ∃ input ∈ db.inputs, input.inputSeq < run.inputSeq ∧ source = pastInput db texts input := by
  have listed := (List.mem_insertionSort _).mp member
  obtain ⟨input, kept, rfl⟩ := List.mem_map.mp listed
  obtain ⟨present, before⟩ := List.mem_filter.mp kept
  exact ⟨input, present, of_decide_eq_true before, rfl⟩

theorem mem_memories {source : PastInput} {memory : Memory} (member : memory ∈ source.memories) :
    memory.sourceMessageId = source.messageId ∧ memory.sourceInputSeq = source.inputSeq ∧
      occurs memory.sourceQuote source.text = true := by
  obtain ⟨intent, _, said⟩ := List.mem_flatMap.mp member
  split at said
  · next quoted =>
    obtain ⟨value, _, rfl⟩ := List.mem_map.mp said
    exact ⟨rfl, rfl, quoted.2⟩
  · cases said

/-- A context that is made has its sources. -/
theorem recalledContext_sourced {payload : ChatInput} {now : Time}
    (numbers : ∀ message ∈ db.messages, message.publicSeq ≠ some 0)
    (complete : ∀ message ∈ db.messages, texts.contents message.id ≠ none) :
    Sourced db texts run (recalledContext db texts run payload now) where
  watermark := rfl
  seen := rfl
  memory memory member := by
    rcases mem_of_remembered member with listed | old
    · obtain ⟨source, earlier, said⟩ := List.mem_flatMap.mp listed
      obtain ⟨input, present, before, rfl⟩ := mem_earlierTurns earlier
      obtain ⟨id, place, quoted⟩ := mem_memories said
      exact ⟨input, present, id.symm, place.symm, before, quoted⟩
    · cases old
  recent message member := by
    obtain ⟨source, listed, rfl⟩ := List.mem_map.mp member
    obtain ⟨input, present, before, rfl⟩ := mem_earlierTurns (mem_lastFour listed)
    exact ⟨input, present, rfl, rfl, before, rfl⟩
  displayed message member := by
    have listed := (List.mem_insertionSort _).mp (mem_lastFour member)
    obtain ⟨source, present, shown⟩ := List.mem_filterMap.mp listed
    obtain ⟨publicSeq, kept, rfl⟩ := Option.map_eq_some_iff.mp shown
    obtain ⟨numbered, small⟩ := Option.filter_eq_some_iff.mp kept
    obtain ⟨content, written⟩ := Option.ne_none_iff_exists'.mp (complete source present)
    refine ⟨source, present, rfl, numbered, ?_, of_decide_eq_true small, ?_⟩
    · rintro zero
      exact numbers source present (numbered.trans (congrArg some zero))
    · rw [written]
      rfl

theorem buildContext_eq_ok {now : Time} {context : Context}
    (done : buildContext db texts run now = .ok context) :
    ∃ payload, run.payload = .chat payload ∧
      context = recalledContext db texts run payload now := by
  unfold buildContext at done
  split at done
  · cases done
  · next payload said =>
    simp only [bind_eq_ok, pure_eq_ok] at done
    obtain ⟨_, _, rfl⟩ := done
    exact ⟨payload, said, rfl⟩

end

/-! ### Turns that are prepared -/

/-- The system, the texts beside its rows and the contexts that were prepared. -/
structure Recall where
  world : World
  texts : Texts
  prepared : Table PreparedTurn.inputId

namespace Recall

/-- An event of the system with what it does to the texts, the preparation of a turn by the owner
of its run, or a review that is written beside a context. -/
inductive Event where
  | other (event : Negotiation.Event) (texts : Texts)
  | prepare (runId : Nat) (owner : Owner) (now : Time)
  | review (changed : GraphTurnQuality)

variable [Platform]

/-- The rows of prepared turns after an attempt to prepare one. -/
def prepareTurn (state : Recall) (runId : Nat) (owner : Owner) (now : Time) :
    Table PreparedTurn.inputId :=
  match prepareContext state.world.db state.texts state.prepared runId owner now with
  | .ok (prepared, _) => prepared
  | .error _ => state.prepared

def Step (before : Recall) (event : Recall.Event) (after : Recall) : Prop :=
  match event with
  | .other event texts =>
    World.Step before.world event after.world ∧
      before.texts.Extends before.world.db texts after.world.db ∧
      after = { world := after.world, texts, prepared := before.prepared }
  | .prepare runId owner now =>
    before.world.clock ≤ now ∧
      after = { before with prepared := before.prepareTurn runId owner now }
  | .review changed =>
    ∃ row, before.prepared.get changed.inputId = some row ∧
      changed.contextHash = row.quality.contextHash ∧
      after = { before with prepared := before.prepared.put { row with quality := changed } }

omit [Platform] in
def Initial (state : Recall) : Prop := World.Initial state.world ∧ state.prepared = .empty

/-- What holds of the prepared turns in every state. -/
structure Sound (state : Recall) : Prop where
  reached : Reachable World.Step World.Initial state.world
  complete : ∀ message ∈ state.world.db.messages, state.texts.contents message.id ≠ none
  rows : ∀ row ∈ state.prepared,
    digest (row.context.write .tree) = row.quality.contextHash ∧
      ∃ run ∈ state.world.db.inputs, run.id = row.inputId ∧
        Sourced state.world.db state.texts run row.context

variable {before after : Recall} {event : Recall.Event}

/-- A row that a preparation adds has the context of its run. -/
theorem mem_prepareTurn {runId : Nat} {owner : Owner} {now : Time} {row : PreparedTurn}
    (state : Recall) (member : row ∈ state.prepareTurn runId owner now) :
    row ∈ state.prepared ∨ ∃ run payload,
      state.world.db.inputs.get runId = some run ∧ run.id = row.inputId ∧
        digest (row.context.write .tree) = row.quality.contextHash ∧
        row.context = recalledContext state.world.db state.texts run payload now := by
  unfold prepareTurn at member
  split at member
  · next prepared hash done =>
    unfold prepareContext at done
    simp only [bind_eq_ok, Prod.exists] at done
    obtain ⟨run, task, owned, rest⟩ := done
    have found := (lockOwner_eq_ok.mp owned).1
    split at rest
    · simp only [bind_eq_ok, pure_eq_ok, Prod.mk.injEq] at rest
      obtain ⟨_, _, rfl, _⟩ := rest
      exact .inl member
    · simp only [bind_eq_ok, pure_eq_ok, Prod.mk.injEq] at rest
      obtain ⟨context, built, stored, inserted, rfl, _⟩ := rest
      obtain ⟨payload, _, rfl⟩ := buildContext_eq_ok built
      rcases (Table.mem_insert inserted row).mp member with rfl | old
      · exact .inr ⟨run, payload, found, Table.key_of_get found, rfl, rfl⟩
      · exact .inl old
  · exact .inl member

theorem numbers_positive {world : World} (reached : Reachable World.Step World.Initial world) :
    ∀ message ∈ world.db.messages, message.publicSeq ≠ some 0 := by
  intro message member zero
  have listed : 0 ∈ world.db.publicNumbers :=
    List.mem_filterMap.mpr ⟨message, List.mem_reverse.mpr member, zero⟩
  rw [(reachable_sequenced reached).numbers] at listed
  have := List.mem_range'_1.mp listed
  omega

theorem Step.preserves {event : Negotiation.Event} {texts : Texts} (sound : Sound before)
    (step : Step before (.other event texts) after) :
    Preserves before.world.db before.texts after.world.db texts where
  inputs run member := by
    obtain ⟨later, found, same⟩ := step.1.keeps_input sound.reached (Table.get_of_mem member)
    exact ⟨later, Table.mem_of_get found, same⟩
  messages := step.1.grows.messages
  contents := step.2.1.contents

theorem Step.sound (sound : Sound before) (step : Step before event after) : Sound after := by
  have addressed := reachable_addressed sound.reached
  cases event with
  | other event texts =>
    have preserves := step.preserves sound
    obtain ⟨taken, extends_, frame⟩ := step
    rw [frame]
    refine ⟨Reachable.next sound.reached taken, extends_.complete, fun row member => ?_⟩
    obtain ⟨hash, run, present, key, sourced⟩ := sound.rows row member
    obtain ⟨kept, stays, same⟩ := preserves.inputs run present
    exact ⟨hash, kept, stays, (NegotiationInput.of_sent same).1.trans key,
      sourced.kept addressed preserves same⟩
  | prepare runId owner now =>
    obtain ⟨_, rfl⟩ := step
    refine ⟨sound.reached, sound.complete, fun row member => ?_⟩
    rcases before.mem_prepareTurn member with old | ⟨run, payload, found, key, hash, context⟩
    · exact sound.rows row old
    · refine ⟨hash, run, Table.mem_of_get found, key, ?_⟩
      rw [context]
      exact recalledContext_sourced (numbers_positive sound.reached) sound.complete
  | review changed =>
    obtain ⟨row, listed, hash, rfl⟩ := step
    refine ⟨sound.reached, sound.complete, fun other member => ?_⟩
    rcases Table.mem_of_mem_put member with old | rfl
    · exact sound.rows other old
    · obtain ⟨digests, run, present, key, sourced⟩ := sound.rows row (Table.mem_of_get listed)
      exact ⟨digests.trans hash.symm, run, present, key.trans (Table.key_of_get listed), sourced⟩

theorem run_sound {first last : Recall} {history : List (Transition Recall Recall.Event)}
    (initial : first.Initial) (run : Run Step first history last) : Sound last := by
  induction run with
  | start =>
    obtain ⟨begins, empty⟩ := initial
    refine ⟨.start begins, fun message member => ?_, fun row member => ?_⟩
    · obtain ⟨⟨_, _, _, _, _, _, _, db⟩, _⟩ := begins
      rw [db] at member
      exact absurd member (Table.not_mem_empty _)
    · rw [empty] at member
      exact absurd member (Table.not_mem_empty _)
  | next _ taken inductionHypothesis => exact taken.sound inductionHypothesis

/-- A context that was prepared stays. -/
theorem Step.keeps_context {runId : Nat} {row : PreparedTurn} (step : Step before event after)
    (listed : before.prepared.get runId = some row) :
    ∃ kept, after.prepared.get runId = some kept ∧ kept.context = row.context := by
  cases event with
  | other event texts =>
    obtain ⟨_, _, frame⟩ := step
    rw [frame]
    exact ⟨row, listed, rfl⟩
  | prepare other owner now =>
    obtain ⟨_, rfl⟩ := step
    refine ⟨row, ?_, rfl⟩
    show (before.prepareTurn other owner now).get runId = some row
    unfold prepareTurn
    split
    · next prepared hash done =>
      unfold prepareContext at done
      simp only [bind_eq_ok, Prod.exists] at done
      obtain ⟨run, task, _, rest⟩ := done
      split at rest
      · simp only [bind_eq_ok, pure_eq_ok, Prod.mk.injEq] at rest
        obtain ⟨_, _, rfl, _⟩ := rest
        exact listed
      · simp only [bind_eq_ok, pure_eq_ok, Prod.mk.injEq] at rest
        obtain ⟨context, _, stored, inserted, rfl, _⟩ := rest
        have member := (Table.mem_insert inserted row).mpr (.inr (Table.mem_of_get listed))
        exact (Table.key_of_get listed) ▸ Table.get_of_mem member
    · exact listed
  | review changed =>
    obtain ⟨old, found, _, rfl⟩ := step
    have key : old.inputId = changed.inputId := Table.key_of_get found
    have present : before.prepared.get (PreparedTurn.inputId { old with quality := changed }) =
        some old := found
    show ∃ kept, (before.prepared.put { old with quality := changed }).get runId = some kept ∧ _
    rw [Table.get_put present]
    split
    · next here =>
      rw [here] at listed
      obtain rfl := Option.some.inj (listed.symm.trans present)
      exact ⟨_, rfl, rfl⟩
    · exact ⟨row, listed, rfl⟩

theorem run_keeps_context {first last : Recall} {history : List (Transition Recall Recall.Event)}
    {runId : Nat} {row : PreparedTurn} (run : Run Step first history last)
    (listed : first.prepared.get runId = some row) :
    ∃ kept, last.prepared.get runId = some kept ∧ kept.context = row.context := by
  induction run with
  | start => exact ⟨row, listed, rfl⟩
  | next _ taken inductionHypothesis =>
    obtain ⟨kept, found, same⟩ := inductionHypothesis
    obtain ⟨later, stays, alike⟩ := taken.keeps_context found
    exact ⟨later, stays, alike.trans same⟩

/-- A prepared turn can be loaded, and what it is loaded with has its sources. -/
theorem Sound.loads {state : Recall} {runId : Nat} {row : PreparedTurn} (sound : Sound state)
    (listed : state.prepared.get runId = some row) :
    ∃ input, state.world.db.inputs.get runId = some input ∧
      loadContext state.world.db state.texts state.prepared input = .ok row.context ∧
      Sourced state.world.db state.texts input row.context ∧
      SeenAsShown state.world.db input := by
  obtain ⟨hash, input, present, key, sourced⟩ := sound.rows row (Table.mem_of_get listed)
  have same : input.id = runId := key.trans (Table.key_of_get listed)
  refine ⟨input, same ▸ Table.get_of_mem present, ?_, sourced,
    reachable_shown sound.reached input present⟩
  exact sourced.loads (reachable_ordered sound.reached) (reachable_addressed sound.reached)
    (same.symm ▸ listed) hash

/-! ### Sessions that agree -/

omit [Platform] in
/-- Two sessions agree on what an input had in front of it and had been shown, on what its turns
said, on its draft and on the version of the business. -/
structure Agrees (one two : Recall) (run other : NegotiationInput) (payload : ChatInput)
    (now later : Time) : Prop where
  sent : other.sent = run.sent
  inputs : ∀ source, source ∈ earlierInputs one.world.db one.texts run ↔
    source ∈ earlierInputs two.world.db two.texts other
  messages : ∀ message,
    message ∈ publicMessages one.world.db one.texts run.seenPublicMessageSeq ↔
      message ∈ publicMessages two.world.db two.texts other.seenPublicMessageSeq
  draft : boundDraft one.world.db run payload now = boundDraft two.world.db other payload later
  sources : ∀ draft, boundDraft one.world.db run payload now = some draft →
    one.texts.sources draft.id = two.texts.sources draft.id
  version : one.world.db.session.version = two.world.db.session.version

omit [Platform] in
/-- The display that the input refers to still holds an offer. -/
def ShowsOffer (state : Recall) (run : NegotiationInput) (payload : ChatInput) (now : Time) :
    Bool :=
  ((frozenContext state.world.db run payload now).bind (·.offerId)).isSome

omit [Platform] in
theorem earlierInputs_nodup {db : Db} {texts : Texts} {run : NegotiationInput}
    (ordered : Ordered db.queue) : ((earlierInputs db texts run).map (·.inputSeq)).Nodup := by
  unfold earlierInputs
  rw [List.map_map]
  have nodup : db.inputs.rows.Nodup := List.Nodup.of_map _ db.inputs.unique
  refine List.Nodup.map_on (fun one member two other same => ?_) (nodup.filter _)
  exact ordered.numbered.once one (List.mem_filter.mp member).1 two (List.mem_filter.mp other).1 same

omit [Platform] in
theorem publicMessages_nodup {db : Db} {texts : Texts} {seen : Nat} (sequenced : Sequenced db) :
    ((publicMessages db texts seen).map (·.publicSeq)).Nodup := by
  have numbers : (publicMessages db texts seen).map (·.publicSeq) =
      (db.messages.rows.filterMap (·.publicSeq)).filter (· ≤ seen) := by
    unfold publicMessages
    rw [List.map_filterMap, List.filter_filterMap]
    refine congrArg (fun pick => List.filterMap pick _) (funext fun message => ?_)
    rw [Option.map_map]
    exact Option.map_id_apply
  have nodup : db.publicNumbers.Nodup := by
    rw [sequenced.numbers]
    exact List.nodup_range'
  unfold Db.publicNumbers at nodup
  rw [List.filterMap_reverse, List.nodup_reverse] at nodup
  rw [numbers]
  exact nodup.filter _

/-- Two sessions that agree prepare the same context, as long as the display that the input
refers to holds an offer in both or in neither. -/
theorem Agrees.buildContext {one two : Recall} {run other : NegotiationInput} {payload : ChatInput}
    {now later : Time} (agrees : Agrees one two run other payload now later)
    (reached : Reachable World.Step World.Initial one.world)
    (reachedToo : Reachable World.Step World.Initial two.world)
    (chat : run.payload = .chat payload)
    (display : ShowsOffer one run payload now = ShowsOffer two other payload later) :
    buildContext one.world.db one.texts run now = buildContext two.world.db two.texts other later := by
  have otherChat : other.payload = .chat payload :=
    (NegotiationInput.of_sent agrees.sent).2.2.2.1.trans chat
  have seen : other.seenPublicMessageSeq = run.seenPublicMessageSeq :=
    congrArg (·.seenPublicMessageSeq) agrees.sent
  have turns : earlierTurns one.world.db one.texts run =
      earlierTurns two.world.db two.texts other :=
    insertionSort_congr (earlierInputs_nodup (reachable_ordered reached))
      (earlierInputs_nodup (reachable_ordered reachedToo)) agrees.inputs
  have messages : displayedMessages one.world.db one.texts run.seenPublicMessageSeq =
      displayedMessages two.world.db two.texts other.seenPublicMessageSeq :=
    congrArg lastFour (insertionSort_congr (publicMessages_nodup (reachable_sequenced reached))
      (publicMessages_nodup (reachable_sequenced reachedToo)) agrees.messages)
  have bound : (boundDraft one.world.db run payload now).map (draftMemory one.texts) =
      (boundDraft two.world.db other payload later).map (draftMemory two.texts) := by
    rw [← agrees.draft]
    cases drafted : boundDraft one.world.db run payload now with
    | none => rfl
    | some draft =>
      refine congrArg some ?_
      unfold draftMemory
      rw [agrees.sources draft drafted]
  have same : recalledContext one.world.db one.texts run payload now =
      recalledContext two.world.db two.texts other payload later := by
    unfold recalledContext
    unfold ShowsOffer at display
    simp only [turns, messages, bound, display, seen, ← agrees.draft,
      (NegotiationInput.of_sent agrees.sent).2.2.1]
  unfold Negotiation.buildContext
  rw [chat, otherChat]
  dsimp only
  rw [same]

/-- A context that was prepared for a run can be loaded ever after and is what it was; it is made of
inputs in front of the run and of messages up to the number that the display of the run had shown.
Sessions that agree on these, on the draft of the input and on the version of the business prepare
the same context, as long as the display still holds an offer in both or in neither. -/
theorem contexts_are_frozen {first last : Recall} {history : List (Transition Recall Recall.Event)}
    (initial : first.Initial) (run : Run Step first history last) :
    (∀ transition ∈ history, ∀ runId row, transition.after.prepared.get runId = some row →
      ∃ input, last.world.db.inputs.get runId = some input ∧
        loadContext last.world.db last.texts last.prepared input = .ok row.context ∧
        Sourced last.world.db last.texts input row.context ∧ SeenAsShown last.world.db input) ∧
    ∀ {origin other : Recall} {past : List (Transition Recall Recall.Event)}, origin.Initial →
      Run Step origin past other → ∀ input same payload now later, input.payload = .chat payload →
      Agrees last other input same payload now later →
      ShowsOffer last input payload now = ShowsOffer other same payload later →
      buildContext last.world.db last.texts input now =
        buildContext other.world.db other.texts same later := by
  have sound := run_sound initial run
  refine ⟨fun transition member runId row listed => ?_, fun begins past input same payload now later
    chat agrees display => ?_⟩
  · obtain ⟨newer, _, _, _, _, further⟩ := run.split member
    obtain ⟨kept, found, alike⟩ := run_keeps_context further listed
    exact alike ▸ sound.loads found
  · exact agrees.buildContext sound.reached (run_sound begins past).reached chat display

end Recall

/-! ### A display that runs out -/

/-- A session of the third version on the goods of which something is known. -/
def shownWorld : World where
  clock := 0
  db := { semanticDb with session := { buyerId := "buyer", graphVersion := .negotiationV3 } }
  threads _ := {}
  runners := .empty

theorem shownWorld_initial : World.Initial shownWorld :=
  ⟨⟨_, _, _, _, _, _, _, rfl⟩, fun _ => rfl, rfl,
    fun rule member => absurd member (Table.not_mem_empty rule)⟩

def pickedUp : Candidate where
  amount := some ⟨11000, hundredTen_fits⟩
  delivery := some .pickup
  payer := some .buyer

/-- The buyer offers 110 yuan, the offer is accepted and shown, and the buyer asks about it under
the key 13. -/
def shownOffer [Platform] : List Event :=
  written "first" "110元自提" 3 (seconds 1) ++
    [.call (.planTurn 3 (6, 1)
      { command :=
          { kind := .submit
            terms := some { amount := ⟨⟨11000, hundredTen_fits⟩, "110"⟩ }
            checked := hundredTen_checked }
        drafts := [{ bound := none, candidate := pickedUp, missing := [] }]
        selected := some 0 } (seconds 1)),
      .call (.execute 3 (6, 1) 1 (seconds 1) none),
      .call (.publishOwned 3 (6, 1) (seconds 2)),
      .call (.finalize 3 (6, 1)
        { runId := 3, inputSeq := 1
          inputHash := digest (Payload.chat { text := "110元自提", clientViewId := "internal" }).json
          configHash := digest (defaultConfig .negotiationV3).json
          graphVersion := .negotiationV3, publishedMessageId := some 11 } false (seconds 2)
        (seconds 2)),
      .call (.display "buyer" 10 "internal" "shown" (seconds 3) (seconds 3) (seconds 3)),
      .call (.enqueue "buyer" "second"
        (.chat { text := "这个价格包含什么？", clientViewId := "internal", displayReceiptId := some 12 })
        none (seconds 4))]

def askingChat : ChatInput where
  text := "这个价格包含什么？"
  clientViewId := "internal"
  displayReceiptId := some 12

/-- The question is claimed at the given time. -/
def claimedAt [Platform] (now : Time) : List Event := shownOffer ++ [.call (.claim 13 now)]

/-- What is kept beside the rows of these runs. -/
def shownTexts : Texts where
  contents id :=
    if id = 4 then some "110元自提"
    else if id = 11 then some "1. 报价已接受，等待买家最终确认。"
    else some "这个价格包含什么？"
  frames runId :=
    if runId = 3 then
      [{ id := "offer", type := .proposeOffer, sourceQuote := "110元自提", candidate := some pickedUp }]
    else []
  sources _ := [4]

theorem shownTexts_extends {db next : Db} : shownTexts.Extends db shownTexts next where
  contents _ _ := id
  complete message _ := by
    unfold shownTexts
    dsimp only
    split_ifs <;> exact Option.some_ne_none _
  frames _ _ := rfl
  sources _ _ _ := rfl

/-- The system with these texts. -/
def shownIn (world : World) : Recall where
  world
  texts := shownTexts
  prepared := .empty

theorem run_shownIn [Platform] {world : World} {past : List (Transition Recall Recall.Event)}
    {first : Recall} {events : List Event} (run : Run Recall.Step first past (shownIn world))
    (scheduled : Scheduled world.clock events) :
    ∃ history, Run Recall.Step first history (shownIn (world.after events)) := by
  induction events generalizing world past with
  | nil => exact ⟨past, run⟩
  | cons event rest inductionHypothesis =>
    obtain ⟨⟨timely, allowed⟩, later⟩ := scheduled
    have taken : Recall.Step (shownIn world) (.other event shownTexts) (shownIn (world.next event)) :=
      ⟨⟨timely, allowed, rfl⟩, shownTexts_extends, rfl⟩
    exact inductionHypothesis (run.next taken) later

/-- The question is claimed and prepared at the given time. -/
def preparedAt [Platform] (now : Time) : Recall :=
  let claimed := shownIn (shownWorld.after (claimedAt now))
  { claimed with prepared := claimed.prepareTurn 13 (16, 1) now }

theorem preparedAt_reached [Platform] {now : Time} (scheduled : Scheduled 0 (claimedAt now))
    (early : (shownWorld.after (claimedAt now)).clock ≤ now) :
    ∃ past, Run Recall.Step (shownIn shownWorld)
      (⟨shownIn (shownWorld.after (claimedAt now)), .prepare 13 (16, 1) now, preparedAt now⟩ :: past)
      (preparedAt now) := by
  obtain ⟨past, run⟩ := run_shownIn (.start (shownIn shownWorld)) scheduled
  exact ⟨past, run.next
    (show Recall.Step _ (.prepare 13 (16, 1) now) (preparedAt now) from ⟨early, rfl⟩)⟩

attribute [local instance] samplePlatform in
/-- The context of the question can be loaded. -/
theorem contexts_are_frozen_question :
    ∃ input row, (preparedAt (seconds 5)).prepared.get 13 = some row ∧
      (preparedAt (seconds 5)).world.db.inputs.get 13 = some input ∧
      loadContext (preparedAt (seconds 5)).world.db (preparedAt (seconds 5)).texts
        (preparedAt (seconds 5)).prepared input = .ok row.context := by
  obtain ⟨past, run⟩ := preparedAt_reached (by decide +kernel : Scheduled 0 (claimedAt (seconds 5)))
    (by decide +kernel)
  have prepared : ((preparedAt (seconds 5)).prepared.get 13).isSome = true := by decide +kernel
  obtain ⟨row, listed⟩ := Option.isSome_iff_exists.mp prepared
  obtain ⟨input, found, loads, _⟩ :=
    (Recall.contexts_are_frozen ⟨shownWorld_initial, rfl⟩ run).1 _ List.mem_cons_self 13 row listed
  exact ⟨input, row, listed, found, loads⟩

deriving instance DecidableEq for NegotiationInput

attribute [local instance] samplePlatform in
/-- Of two sessions that agree on all rows in front of the question, on its draft and on the
version, one prepares it while the display holds its offer and the other after the display ran
out: their contexts differ. -/
theorem contexts_depend_on_the_display :
    (∃ history, Run Recall.Step (shownIn shownWorld) history (preparedAt (seconds 5))) ∧
      (∃ history, Run Recall.Step (shownIn shownWorld) history (preparedAt (minutes 40))) ∧
      (∃ run other, (preparedAt (seconds 5)).world.db.inputs.get 13 = some run ∧
        (preparedAt (minutes 40)).world.db.inputs.get 13 = some other ∧
        run.payload = .chat askingChat ∧
        (preparedAt (seconds 5)).Agrees (preparedAt (minutes 40)) run other askingChat (seconds 5)
          (minutes 40)) ∧
      Found ((preparedAt (seconds 5)).prepared.get 13) fun one =>
        Found ((preparedAt (minutes 40)).prepared.get 13) fun two => one.context ≠ two.context := by
  obtain ⟨_, prompt⟩ := preparedAt_reached
    (by decide +kernel : Scheduled 0 (claimedAt (seconds 5))) (by decide +kernel)
  obtain ⟨_, late⟩ := preparedAt_reached
    (by decide +kernel : Scheduled 0 (claimedAt (minutes 40))) (by decide +kernel)
  refine ⟨⟨_, prompt⟩, ⟨_, late⟩, ?_, by decide +kernel⟩
  have alike : Found ((preparedAt (seconds 5)).world.db.inputs.get 13) fun run =>
      Found ((preparedAt (minutes 40)).world.db.inputs.get 13) fun other =>
        run.payload = .chat askingChat ∧ other.sent = run.sent ∧
          earlierInputs (preparedAt (seconds 5)).world.db shownTexts run =
            earlierInputs (preparedAt (minutes 40)).world.db shownTexts other ∧
          publicMessages (preparedAt (seconds 5)).world.db shownTexts run.seenPublicMessageSeq =
            publicMessages (preparedAt (minutes 40)).world.db shownTexts
              other.seenPublicMessageSeq ∧
          (boundDraft (preparedAt (seconds 5)).world.db run askingChat (seconds 5)).isNone ∧
          (boundDraft (preparedAt (minutes 40)).world.db other askingChat (minutes 40)).isNone := by
    decide +kernel
  obtain ⟨run, found, alike⟩ := (found_iff _ _).mp alike
  obtain ⟨other, foundToo, payload, sent, inputs, messages, free, freeToo⟩ :=
    (found_iff _ _).mp alike
  have unbound := Option.isNone_iff_eq_none.mp free
  have unboundToo := Option.isNone_iff_eq_none.mp freeToo
  refine ⟨run, other, found, foundToo, payload, ?_⟩
  exact
    { sent
      inputs := fun source => iff_of_eq (congrArg (source ∈ ·) inputs)
      messages := fun message => iff_of_eq (congrArg (message ∈ ·) messages)
      draft := unbound.trans unboundToo.symm
      sources := fun draft bound => nomatch unbound.symm.trans bound
      version := by decide +kernel }

end Negotiation
