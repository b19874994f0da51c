/-
This file proves that a notice goes out once. Owners of runs, holders of
notification leases and the seller may all try to publish a delivery, in any
order and late: the first message of a source is its only one, the delivery
that names it stays as it is, and the public numbers of all messages of a
session follow one another in the order of their commits.
-/

import SecondhandAgent.Publishing
import SecondhandAgent.Receipts

namespace Negotiation

open Store Deal

/-! ### Deliveries and their messages -/

/-- A delivery is published exactly when it names the message of its source, and nobody holds a
lease of it then; a delivery that is not published has no message. A message of a source belongs
to a delivery or announces a draft. -/
structure Notified (deliveries : Table NotificationDelivery.id) (messages : Table Message.origin) :
    Prop where
  named : ∀ item ∈ deliveries, item.status = .published → item.leaseToken = none ∧
    ∃ message ∈ messages, message.origin = .source item.id ∧
      item.publicMessageId = some message.id
  unnamed : ∀ item ∈ deliveries, item.status ≠ .published → item.publicMessageId = none ∧
    messages.get (.source item.id) = none
  sourced : ∀ message ∈ messages, ∀ source, message.origin = .source source →
    (∃ draftId version, source = .draftReady draftId version) ∨ deliveries.get source ≠ none
  proper : ∀ item ∈ deliveries, ∀ draftId version, item.id ≠ .draftReady draftId version

namespace Notified

variable {deliveries : Table NotificationDelivery.id} {messages : Table Message.origin}

theorem empty : Notified .empty .empty where
  named item member := absurd member (Table.not_mem_empty item)
  unnamed item member := absurd member (Table.not_mem_empty item)
  sourced message member := absurd member (Table.not_mem_empty message)
  proper item member := absurd member (Table.not_mem_empty item)

/-- A delivery is issued without a message. -/
theorem issued {item : NotificationDelivery} (notified : Notified deliveries messages)
    (pending : item.status = .pending) (bare : item.publicMessageId = none)
    (proper : ∀ draftId version, item.id ≠ .draftReady draftId version) :
    Notified (deliveries.insertIgnore item) messages := by
  by_cases free : deliveries.get item.id = none
  · have silent : messages.get (.source item.id) = none := by
      refine Table.get_eq_none.mpr fun message member origin => ?_
      rcases notified.sourced message member item.id origin with ⟨draftId, version, same⟩ | taken
      · exact proper draftId version same
      · exact taken free
    refine ⟨fun other member shown => ?_, fun other member hidden => ?_,
      fun message member source origin => ?_, fun other member => ?_⟩
    · rcases Table.mem_insertIgnore member with rfl | old
      · exact absurd (pending.symm.trans shown) DeliveryStatus.noConfusion
      · exact notified.named other old shown
    · rcases Table.mem_insertIgnore member with rfl | old
      · exact ⟨bare, silent⟩
      · exact notified.unnamed other old hidden
    · refine (notified.sourced message member source origin).imp id fun taken => ?_
      rw [Table.get_insertIgnore, if_neg fun both => taken both.2]
      exact taken
    · rcases Table.mem_insertIgnore member with rfl | old
      · exact proper
      · exact notified.proper other old
  · rw [Table.insertIgnore_of_taken free]
    exact notified

/-- The message of an input belongs to no source. -/
theorem entered {id runId : Nat} (notified : Notified deliveries messages) :
    Notified deliveries (messages.insertIgnore { id, origin := .input runId }) where
  named item member shown := by
    obtain ⟨unleased, message, found, rest⟩ := notified.named item member shown
    exact ⟨unleased, message, Table.mem_insertIgnore_of_mem found, rest⟩
  unnamed item member hidden := by
    obtain ⟨bare, silent⟩ := notified.unnamed item member hidden
    refine ⟨bare, ?_⟩
    rw [Table.get_insertIgnore, if_neg fun both => MessageOrigin.noConfusion both.1]
    exact silent
  sourced message member source origin := by
    rcases Table.mem_insertIgnore member with rfl | old
    · exact MessageOrigin.noConfusion origin
    · exact notified.sourced message old source origin
  proper := notified.proper

/-- A delivery that is worked on has no message. -/
theorem reworked {after : Table NotificationDelivery.id} (notified : Notified deliveries messages)
    (work : Reworked deliveries after) :
    Notified after messages ∧ ∀ item ∈ deliveries, item.status = .published → item ∈ after := by
  cases work with
  | same same =>
    subst same
    exact ⟨notified, fun _ member _ => member⟩
  | @changed item changed listed frame open_ key still named =>
    have member : item ∈ deliveries := Table.mem_of_get listed
    have hidden : item.status ≠ .published := by
      intro shown
      exact open_.elim (fun hidden => hidden shown) fun leased =>
        leased (notified.named item member shown).1
    obtain ⟨bare, silent⟩ := notified.unnamed item member hidden
    subst frame
    refine ⟨⟨fun other found shown => ?_, fun other found hidden => ?_,
      fun message found source origin => ?_, fun other found => ?_⟩, fun other found shown => ?_⟩
    · rcases Table.mem_put.mp found with ⟨old, _⟩ | ⟨rfl, _⟩
      · exact notified.named other old shown
      · exact absurd shown still
    · rcases Table.mem_put.mp found with ⟨old, _⟩ | ⟨rfl, _⟩
      · exact notified.unnamed other old hidden
      · exact ⟨named.trans bare, key ▸ silent⟩
    · refine (notified.sourced message found source origin).imp id fun taken => ?_
      rw [Table.get_put (key ▸ listed)]
      split
      · exact Option.some_ne_none changed
      · exact taken
    · rcases Table.mem_put.mp found with ⟨old, _⟩ | ⟨rfl, _⟩
      · exact notified.proper other old
      · rw [key]
        exact notified.proper item member
    · refine Table.mem_put_of_mem found fun same => ?_
      obtain rfl : other = item := Table.eq_of_key found member (same.trans key)
      exact hidden shown

/-- A delivery that is published names the message that was posted for it. -/
theorem posted {item : NotificationDelivery} {message : Message}
    (notified : Notified deliveries messages) (listed : deliveries.get item.id = some item)
    (hidden : item.status ≠ .published) (origin : message.origin = .source item.id)
    (free : messages.get (.source item.id) = none) :
    Notified (deliveries.put (item.withMessage message.id)) (messages.insertIgnore message) ∧
      ∀ other ∈ deliveries, other.status = .published →
        other ∈ deliveries.put (item.withMessage message.id) := by
  have member : item ∈ deliveries := Table.mem_of_get listed
  have room : messages.get message.origin = none := origin ▸ free
  refine ⟨⟨fun other found shown => ?_, fun other found hidden => ?_,
    fun other found source from_ => ?_, fun other found => ?_⟩, fun other found shown => ?_⟩
  · rcases Table.mem_put.mp found with ⟨old, _⟩ | ⟨rfl, _⟩
    · obtain ⟨unleased, earlier, known, rest⟩ := notified.named other old shown
      exact ⟨unleased, earlier, Table.mem_insertIgnore_of_mem known, rest⟩
    · exact ⟨rfl, message, Table.mem_insertIgnore_self room, origin, rfl⟩
  · rcases Table.mem_put.mp found with ⟨old, different⟩ | ⟨rfl, _⟩
    · obtain ⟨bare, silent⟩ := notified.unnamed other old hidden
      refine ⟨bare, ?_⟩
      rw [Table.get_insertIgnore, if_neg fun both => ?_]
      · exact silent
      · exact different (MessageOrigin.source.inj (both.1.trans origin))
    · exact absurd rfl hidden
  · refine Or.imp id (fun taken => ?_) (?_ : (∃ draftId version, _) ∨ deliveries.get source ≠ none)
    · rw [Table.get_put (show deliveries.get (item.withMessage message.id).id = some item from listed)]
      split
      · exact Option.some_ne_none _
      · exact taken
    · rcases Table.mem_insertIgnore found with rfl | old
      · obtain rfl : item.id = source := MessageOrigin.source.inj (origin.symm.trans from_)
        refine .inr ?_
        rw [listed]
        exact Option.some_ne_none item
      · exact notified.sourced other old source from_
  · rcases Table.mem_put.mp found with ⟨old, _⟩ | ⟨rfl, _⟩
    · exact notified.proper other old
    · exact notified.proper item member
  · refine Table.mem_put_of_mem found fun same => ?_
    obtain rfl : other = item := Table.eq_of_key found member same
    exact hidden shown

/-- The announcement of a draft belongs to no delivery. -/
theorem drafted {message : Message} {draftId version : Nat}
    (notified : Notified deliveries messages)
    (origin : message.origin = .source (.draftReady draftId version)) :
    Notified deliveries (messages.insertIgnore message) where
  named item member shown := by
    obtain ⟨unleased, earlier, found, rest⟩ := notified.named item member shown
    exact ⟨unleased, earlier, Table.mem_insertIgnore_of_mem found, rest⟩
  unnamed item member hidden := by
    obtain ⟨bare, silent⟩ := notified.unnamed item member hidden
    refine ⟨bare, ?_⟩
    rw [Table.get_insertIgnore, if_neg fun both => ?_]
    · exact silent
    · exact notified.proper item member draftId version
        (MessageOrigin.source.inj (both.1.trans origin))
  sourced other member source from_ := by
    rcases Table.mem_insertIgnore member with rfl | old
    · exact .inl ⟨draftId, version, (MessageOrigin.source.inj (origin.symm.trans from_)).symm⟩
    · exact notified.sourced other old source from_
  proper := notified.proper

end Notified

/-! ### Every transaction -/

/-- A business transaction issues deliveries and takes none back. -/
theorem BusinessWrites.notified {before after : Db} (writes : BusinessWrites before after)
    (notified : Notified before.deliveries before.messages) :
    Notified after.deliveries after.messages ∧
      ∀ item ∈ before.deliveries, item ∈ after.deliveries := by
  induction writes with
  | refl | basis | receipt | event => exact ⟨notified, fun _ member => member⟩
  | trans _ _ first second =>
    obtain ⟨middle, kept⟩ := first notified
    obtain ⟨last, held⟩ := second middle
    exact ⟨last, fun item member => held item (kept item member)⟩
  | deal writes =>
    rw [show _ = _ from writes]
    exact ⟨notified, fun _ member => member⟩
  | @notice db row lawful =>
    obtain ⟨_, pending, bare, form⟩ := lawful
    refine ⟨notified.issued pending bare fun draftId version same => ?_,
      fun _ member => Table.mem_insertIgnore_of_mem member⟩
    rw [same] at form
    exact form

section

variable [Platform] {db after : Db} {now : Time}

omit [Platform] in
/-- The reply of a run is issued without a message. -/
theorem Notified.replied {deliveries : Table NotificationDelivery.id}
    {messages : Table Message.origin} {runId : Nat} {result : Result}
    (notified : Notified deliveries messages) :
    Notified (deliveries.insertIgnore (replyDelivery runId result now)) messages ∧
      ∀ item ∈ deliveries, item ∈ deliveries.insertIgnore (replyDelivery runId result now) :=
  ⟨notified.issued rfl rfl fun _ _ => SourceId.noConfusion,
    fun _ member => Table.mem_insertIgnore_of_mem member⟩

/-- What publishes something keeps deliveries and messages together, and the deliveries that are
out as they are. -/
theorem Publishing.notified (publishing : Publishing db now after)
    (notified : Notified db.deliveries db.messages) :
    Notified after.deliveries after.messages ∧
      ∀ item ∈ db.deliveries, item.status = .published → item ∈ after.deliveries := by
  cases publishing with
  | idle same =>
    rw [same]
    exact ⟨notified, fun _ member _ => member⟩
  | worked listed frame open_ key still named =>
    rw [frame]
    exact notified.reworked (.changed listed rfl open_ key still named)
  | @posted run item contexts listed open_ free _ frame =>
    have origin : (messageOf db run item now).origin = .source item.id := rfl
    rw [frame]
    exact notified.posted listed open_ origin free
  | refreshed _ _ _ frame | assessed frame =>
    rw [frame]
    exact ⟨notified, fun _ member _ => member⟩
  | drafted _ _ _ frame =>
    rw [frame]
    exact ⟨notified.drafted rfl, fun _ member _ => member⟩

/-- So does what publishes nothing. -/
theorem Effect.notified {transaction : Transaction} (effect : Effect db transaction after)
    (silent : ¬ transaction.IsPublic) (notified : Notified db.deliveries db.messages) :
    Notified after.deliveries after.messages ∧
      ∀ item ∈ db.deliveries, item.status = .published → item ∈ after.deliveries := by
  cases effect with
  | business _ writes =>
    obtain ⟨kept, held⟩ := writes.notified notified
    exact ⟨kept, fun item member _ => held item member⟩
  | repeated same =>
    rw [same]
    exact ⟨notified, fun _ member _ => member⟩
  | command _ writes =>
    obtain ⟨kept, held⟩ := writes.business.notified notified
    obtain ⟨issued, grown⟩ := kept.replied
    rw [writes.frame]
    exact ⟨issued, fun item member _ => grown item (held item member)⟩
  | answered _ writes =>
    obtain ⟨issued, grown⟩ := notified.replied
    rw [writes.frame, show _ = _ from writes.drafts]
    exact ⟨issued, fun item member _ => grown item member⟩
  | planned _ _ _ writes frame =>
    rw [frame, show _ = _ from writes]
    exact ⟨notified, fun _ member _ => member⟩
  | published kind _ => exact absurd kind silent
  | displayed _ _ _ _ _ _ frame | archived frame =>
    rw [frame]
    exact ⟨notified, fun _ member _ => member⟩
  | edited _ writes | executed writes _ =>
    rw [show _ = _ from writes]
    exact ⟨notified, fun _ member _ => member⟩
  | acknowledged _ frame =>
    rw [frame, acknowledgeEvents_writes]
    exact ⟨notified, fun _ member _ => member⟩
  | queued effect =>
    cases effect with
    | idle frame _ _ work =>
      obtain ⟨kept, held⟩ := notified.reworked work
      refine ⟨?_, held⟩
      rw [frame]
      exact kept
    | enqueued _ _ _ _ appended =>
      unfold newInput at appended
      simp only [bind_eq_ok, pure_eq_ok] at appended
      obtain ⟨messages, posted, tasks, _, inputs, _, rfl⟩ := appended
      refine ⟨?_, fun _ member _ => member⟩
      show Notified _ messages
      rw [Table.eq_insertIgnore posted]
      exact notified.entered
    | turned _ _ _ _ frame =>
      rw [frame]
      exact ⟨notified, fun _ member _ => member⟩

theorem perform_notified {transaction : Transaction}
    (notified : Notified db.deliveries db.messages)
    (done : db.perform transaction = .ok after) :
    Notified after.deliveries after.messages ∧
      ∀ item ∈ db.deliveries, item.status = .published → item ∈ after.deliveries := by
  by_cases public_ : transaction.IsPublic
  · obtain ⟨_, _, publishing⟩ := perform_publishing public_ done
    exact publishing.notified notified
  · exact (perform_effect done).notified public_ notified

theorem reachable_notified {world : World} (reached : Reachable World.Step World.Initial world) :
    Notified world.db.deliveries world.db.messages := by
  refine database_invariant (fun db => Notified db.deliveries db.messages) (fun world initial => ?_)
    (fun db transaction after notified done => (perform_notified notified done).1) reached
  obtain ⟨⟨_, _, _, _, _, _, _, frame⟩, _⟩ := initial
  rw [frame]
  exact .empty

/-! ### Public numbers -/

omit [Platform] in
/-- The public numbers of the messages in the order of their commits: the newest row of a table
is its first. -/
def Db.publicNumbers (db : Db) : List Nat := db.messages.rows.reverse.filterMap (·.publicSeq)

/-- The numbers that were handed out are those from one up to the next. -/
structure Sequenced (db : Db) : Prop where
  numbers : db.publicNumbers = List.range' 1 (db.session.nextPublicSeq - 1)
  positive : 1 ≤ db.session.nextPublicSeq

omit [Platform] in
theorem publicNumbers_insertIgnore {message : Message}
    (free : db.messages.get message.origin = none)
    (posted : after.messages = db.messages.insertIgnore message) :
    after.publicNumbers = db.publicNumbers ++ message.publicSeq.toList := by
  have rows : after.messages.rows = message :: db.messages.rows := by
    rw [posted]
    exact Table.rows_insert (Table.insert_of_free free Failure.unique)
  unfold Db.publicNumbers
  rw [rows, List.reverse_cons, List.filterMap_append]
  cases number : message.publicSeq with
  | none => rw [List.filterMap_cons_none number]; rfl
  | some seq => rw [List.filterMap_cons_some number]; rfl

/-- A transition leaves the public numbers alone or hands out the next one. -/
inductive HandsOut (db after : Db) : Prop
  | none (numbers : after.publicNumbers = db.publicNumbers)
      (next : after.session.nextPublicSeq = db.session.nextPublicSeq)
  | one (numbers : after.publicNumbers = db.publicNumbers ++ [db.session.nextPublicSeq])
      (next : after.session.nextPublicSeq = db.session.nextPublicSeq + 1)

theorem Publishing.handsOut (publishing : Publishing db now after) : HandsOut db after := by
  cases publishing with
  | idle same =>
    rw [same]
    exact .none rfl rfl
  | worked _ frame _ _ _ _ | refreshed _ _ _ frame | assessed frame =>
    rw [frame]
    exact .none rfl rfl
  | @posted run item contexts _ _ free _ frame =>
    have messages : after.messages = db.messages.insertIgnore (messageOf db run item now) := by
      rw [frame]
    exact .one (publicNumbers_insertIgnore free messages) (by rw [frame])
  | @drafted draft _ free _ frame =>
    have messages : after.messages = db.messages.insertIgnore (draftMessage db draft) := by
      rw [frame]
    exact .one (publicNumbers_insertIgnore free messages) (by rw [frame])

theorem World.Step.handsOut {before next : World} {event : Event}
    (step : World.Step before event next) : HandsOut before.db next.db := by
  rcases step.publishing with ⟨_, next, silent⟩ | ⟨now, _, _, publishing⟩
  · refine .none ?_ next
    cases silent with
    | none messages =>
      unfold Db.publicNumbers
      rw [messages]
    | input free messages => exact (publicNumbers_insertIgnore free messages).trans (List.append_nil _)
  · exact publishing.handsOut

omit [Platform] in
theorem HandsOut.sequenced (handsOut : HandsOut db after) (sequenced : Sequenced db) :
    Sequenced after := by
  cases handsOut with
  | none numbers next =>
    refine ⟨?_, next ▸ sequenced.positive⟩
    rw [numbers, next]
    exact sequenced.numbers
  | one numbers next =>
    obtain ⟨known, positive⟩ := sequenced
    have count : db.session.nextPublicSeq + 1 - 1 = db.session.nextPublicSeq - 1 + 1 := by omega
    refine ⟨?_, next ▸ Nat.le_add_left 1 _⟩
    rw [numbers, next, known, count, List.range'_1_concat, Nat.add_sub_cancel' positive]

theorem reachable_sequenced {world : World} (reached : Reachable World.Step World.Initial world) :
    Sequenced world.db := by
  refine reached.invariant (fun world => Sequenced world.db) (fun world initial => ?_)
    fun before event next sequenced step => step.handsOut.sequenced sequenced
  obtain ⟨⟨_, _, _, _, _, _, _, frame⟩, _⟩ := initial
  rw [frame]
  exact ⟨rfl, le_rfl⟩

/-! ### A source is published once -/

omit [Platform] in
/-- The transition posts the message of a source. -/
def Posts (source : SourceId) (transition : Transition World Event) : Prop :=
  transition.before.db.messages.get (.source source) = none ∧
    transition.after.db.messages.get (.source source) ≠ none

instance (source : SourceId) (transition : Transition World Event) :
    Decidable (Posts source transition) := inferInstanceAs (Decidable (_ ∧ _))

/-- What is out stays as it is. -/
theorem run_published {first last : World} {history : List (Transition World Event)}
    (reached : Reachable World.Step World.Initial first)
    (run : Run World.Step first history last) :
    ∀ item ∈ first.db.deliveries, item.status = .published → item ∈ last.db.deliveries := by
  refine run.relates (fun before after => ∀ item ∈ before.db.deliveries,
    item.status = .published → item ∈ after.db.deliveries) (fun _ _ member _ => member) ?_ ?_
    reached
  · intro one two three first second item member shown
    exact second item (first item member shown) shown
  intro before event after reachable step
  rcases step.performs with same | ⟨transaction, performs⟩
  · rw [same]
    exact fun _ member _ => member
  · exact (perform_notified (reachable_notified reachable) performs.done).2

/-- A source has one message at most, which at most one transition posts. A delivery is out
exactly when it names the message of its source, and stays as it is from then on. Every
transition hands out one public number at most, the next one, so that the numbers of a session
are those from one up, in the order of the commits. -/
theorem published_exactly_once {first last : World} {history : List (Transition World Event)}
    (reached : Reachable World.Step World.Initial first)
    (run : Run World.Step first history last) :
    (∀ source, history.countP (fun transition => Posts source transition) ≤ 1 ∧
      ∀ one ∈ last.db.messages, ∀ two ∈ last.db.messages, one.origin = .source source →
        two.origin = .source source → one = two) ∧
    (∀ message ∈ first.db.messages, message ∈ last.db.messages) ∧
    (∀ item ∈ last.db.deliveries, item.status = .published ↔
      ∃ message ∈ last.db.messages, message.origin = .source item.id ∧
        item.publicMessageId = some message.id) ∧
    (∀ item ∈ last.db.deliveries, item.status ≠ .published →
      item.publicMessageId = none ∧
        ∀ message ∈ last.db.messages, message.origin ≠ .source item.id) ∧
    (∀ item ∈ first.db.deliveries, item.status = .published → item ∈ last.db.deliveries) ∧
    (∀ transition ∈ history, HandsOut transition.before.db transition.after.db) ∧
    last.db.publicNumbers = List.range' 1 (last.db.session.nextPublicSeq - 1) := by
  have notified := reachable_notified (reached.extend run)
  refine ⟨fun source => ⟨?_, fun one known two listed same other => ?_⟩, (run_grows run).messages,
    fun item member => ⟨fun shown => ?_, ?_⟩, fun item member hidden => ?_, ?_,
    fun transition member => (run.taken member).handsOut,
    (reachable_sequenced (reached.extend run)).numbers⟩
  · refine (run.at_most_once (fun world => world.db.messages.get (.source source) ≠ none) ?_
      fun _ _ _ _ posts => ⟨fun taken => taken posts.1, posts.2⟩).1
    intro before event after step taken absent
    obtain ⟨message, found⟩ := Option.ne_none_iff_exists'.mp taken
    exact Table.get_eq_none.mp absent message (step.grows.messages message (Table.mem_of_get found))
      (Table.key_of_get found)
  · exact Table.eq_of_key known listed (same.trans other.symm)
  · exact (notified.named item member shown).2
  · rintro ⟨message, _, _, named⟩
    by_contra hidden
    exact absurd ((notified.unnamed item member hidden).1.symm.trans named).symm
      (Option.some_ne_none message.id)
  · obtain ⟨bare, silent⟩ := notified.unnamed item member hidden
    exact ⟨bare, Table.get_eq_none.mp silent⟩
  · exact run_published reached run

end

attribute [local instance] samplePlatform in
/-- The reply to the first input is posted exactly once. -/
theorem published_exactly_once_reply :
    (sampleWorld.history [] confirming).countP
      (fun transition => Posts (.turnReply 1) transition) = 1 := by
  have run : Run World.Step sampleWorld (sampleWorld.history [] confirming)
      (sampleWorld.after confirming) :=
    World.run_history (.start sampleWorld) (by decide +kernel : Scheduled 0 confirming)
  have atMost := ((published_exactly_once (.start sampleWorld_initial) run).1 (.turnReply 1)).1
  have some : 0 < (sampleWorld.history [] confirming).countP
      (fun transition => Posts (.turnReply 1) transition) := by decide +kernel
  omega

end Negotiation
