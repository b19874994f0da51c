/-
This file proves that every published command passes the checker. The events of
a command are written with its receipt, the event of its publication with its
message, and no other transaction touches either, so that in every reachable
state the table holds for each command its stages in order, as far as it has
come, and nothing for an input without a receipt.
-/

import SecondhandAgent.Causality
import SecondhandAgent.Cursor
import SecondhandAgent.Notices

namespace Negotiation

open Store Deal CausalAudit

section

variable [Platform] {db after : Db} {trail later : Trail} {now : Time} {runId : Nat}

/-! ### What every transaction keeps -/

theorem Deed.keeps_offer (deed : Deed now db after) {offer : Offer} (member : offer ∈ db.offers) :
    ∃ new ∈ after.offers, new.id = offer.id := by
  cases deed with
  | settled settles =>
    obtain ⟨new, there, core⟩ := settles.offer_after member
    exact ⟨new, there, core_id core⟩
  | quoted => exact ⟨offer, member, rfl⟩
  | placed _ _ free _ placed => exact ⟨offer, (placed.added.1.kept free).2 offer member, rfl⟩
  | based _ _ _ recorded =>
    rw [(recordBasis_offers recorded).1]
    exact ⟨offer, member, rfl⟩

/-- No transaction takes an offer away. -/
theorem perform_keeps_offer {transaction : Transaction} (shape : Shape db.deal)
    (done : db.perform transaction = .ok after) {offer : Offer} (member : offer ∈ db.offers) :
    ∃ new ∈ after.offers, new.id = offer.id := by
  by_cases acts : transaction.Acts
  · by_cases business : transaction.IsBusiness
    · obtain ⟨new, there, core⟩ := (business_settles shape business done).offer_after member
      exact ⟨new, there, core_id core⟩
    · cases transaction with
      | execute =>
        obtain ⟨result, performed, rfl⟩ := (map_eq_ok _ _ _).mp done
        refine (execute_deeds (.of_shape shape) performed).keeps
          (fun stage => ∃ new ∈ stage.offers, new.id = offer.id) (fun _ _ deed held => ?_)
          ⟨offer, member, rfl⟩
        obtain ⟨old, there, same⟩ := held
        obtain ⟨new, listed, key⟩ := deed.keeps_offer there
        exact ⟨new, listed, key.trans same⟩
      | _ => exact absurd acts business
  · have affairs := (perform_effect done).affairs acts
    have offers : after.offers = db.offers := congrArg (·.deal.offers) affairs
    rw [offers]
    exact ⟨offer, member, rfl⟩

/-- What a run and an offer are known by stays. -/
structure Remains (db after : Db) : Prop where
  inputs : ∀ run ∈ db.inputs, ∃ kept ∈ after.inputs, kept.sent = run.sent
  offers : ∀ offer ∈ db.offers, ∃ new ∈ after.offers, new.id = offer.id

omit [Platform] in
theorem Remains.same (inputs : after.inputs = db.inputs) (offers : after.offers = db.offers) :
    Remains db after where
  inputs run member := ⟨run, inputs ▸ member, rfl⟩
  offers offer member := ⟨offer, offers ▸ member, rfl⟩

theorem perform_remains {transaction : Transaction} (shape : Shape db.deal)
    (ordered : Ordered db.queue) (done : db.perform transaction = .ok after) :
    Remains db after where
  inputs _ member := run_stays ordered done member
  offers _ member := perform_keeps_offer shape done member

/-! ### Transactions that leave the replies alone -/

theorem perform_action_receipt {transaction : Transaction} (leaves : transaction.LeavesReplies)
    (done : db.perform transaction = .ok after) (runId : Nat) :
    after.receipts.get (.turnAction runId) = db.receipts.get (.turnAction runId) := by
  cases perform_effect done with
  | business _ writes => exact writes.action_receipt runId
  | repeated same => rw [same]
  | command made =>
    subst made
    exact leaves.elim
  | answered _ writes => rw [writes.frame, show _ = _ from writes.drafts]
  | planned _ _ _ writes frame => rw [frame, show _ = _ from writes]
  | published _ writes => rw [writes.frame]
  | displayed _ _ _ _ _ _ frame | archived frame => rw [frame]
  | edited _ writes | executed writes _ => rw [show _ = _ from writes]
  | acknowledged _ frame => rw [frame, acknowledgeEvents_writes]
  | queued effect =>
    cases effect with
    | idle frame => rw [frame]
    | enqueued _ _ _ _ appended =>
      unfold newInput at appended
      simp only [bind_eq_ok, pure_eq_ok] at appended
      obtain ⟨_, _, _, _, _, _, rfl⟩ := appended
      rfl
    | turned _ _ _ _ frame => rw [frame]

/-- What is posted is the message of the delivery, and the rest of what the audit reads stays. -/
structure PostsMessage (db : Db) (run : Option NegotiationInput) (item : NotificationDelivery)
    (now : Time) (after : Db) (messageId : Option Nat) : Prop where
  named : messageId = some (db.nextId + 1)
  free : db.messages.get (.source item.id) = none
  messages : after.messages = db.messages.insertIgnore (messageOf db run item now)
  receipts : after.receipts = db.receipts
  inputs : after.inputs = db.inputs
  offers : after.offers = db.offers

theorem publishNew_posts {run : Option NegotiationInput} {item : NotificationDelivery}
    {messageId : Option Nat} (done : publishNew db run item now = .ok (after, messageId)) :
    PostsMessage db run item now after messageId := by
  unfold publishNew at done
  simp only [bind_eq_ok, pure_eq_ok] at done
  obtain ⟨messages, inserted, contextual, recorded, event, _, same⟩ := done
  obtain ⟨rfl, rfl⟩ := Prod.mk.inj same
  obtain ⟨frame, _⟩ := recordContext_contexts db recorded rfl rfl rfl rfl rfl
  refine ⟨rfl, Table.free_of_insert inserted, ?_, ?_, ?_, ?_⟩ <;> rw [frame]
  · rw [Table.eq_insertIgnore inserted]
    rfl
  all_goals rfl

omit [Platform] in
/-- A message under another key leaves the reply of a run alone. -/
theorem reply_of_insertIgnore {messages : Table Message.origin} {message : Message}
    (other : message.origin ≠ .source (.turnReply runId)) :
    (messages.insertIgnore message).get (.source (.turnReply runId)) =
      messages.get (.source (.turnReply runId)) := by
  rw [Table.get_insertIgnore, if_neg]
  exact fun same => other same.1.symm

theorem publishItem_reply {run : Option NegotiationInput} {source : SourceId}
    {result : Db × Option Nat} (done : publishItem db run source now = .ok result)
    (other : source ≠ .turnReply runId) :
    result.1.messages.get (.source (.turnReply runId)) =
      db.messages.get (.source (.turnReply runId)) := by
  unfold publishItem at done
  simp only [bind_eq_ok, expect_eq_ok] at done
  obtain ⟨item, found, rest⟩ := done
  obtain rfl : item.id = source := Table.key_of_get found
  split at rest
  · obtain rfl := (pure_eq_ok _ _).mp rest
    rfl
  · obtain ⟨published, messageId⟩ := result
    rw [(publishNew_posts rest).messages]
    exact reply_of_insertIgnore fun same => other (MessageOrigin.source.inj same)

/-- They post no reply. -/
theorem perform_reply {transaction : Transaction} (leaves : transaction.LeavesReplies)
    (done : db.perform transaction = .ok after) (runId : Nat) :
    after.messages.get (.source (.turnReply runId)) =
      db.messages.get (.source (.turnReply runId)) := by
  by_cases public_ : transaction.IsPublic
  · cases transaction with
    | publishOwned => exact leaves.elim
    | publishNotified =>
      obtain ⟨result, published, rfl⟩ := (map_eq_ok _ _ _).mp done
      unfold publishNotified at published
      simp only [bind_eq_ok] at published
      obtain ⟨_, _, _, _, published⟩ := published
      exact publishItem_reply published (leaves runId)
    | claimNotification =>
      obtain ⟨result, claimed, rfl⟩ := (map_eq_ok _ _ _).mp done
      unfold claimNotification at claimed
      simp only [bind_eq_ok] at claimed
      obtain ⟨_, _, rest⟩ := claimed
      split at rest <;> obtain rfl := (pure_eq_ok _ _).mp rest <;> rfl
    | retryNotification =>
      unfold Db.perform retryNotification at done
      simp only [bind_eq_ok, pure_eq_ok] at done
      obtain ⟨_, _, _, _, rfl⟩ := done
      rfl
    | refreshContext =>
      obtain ⟨result, refreshed, rfl⟩ := (map_eq_ok _ _ _).mp done
      rcases refreshContext_cases refreshed with same | ⟨_, _, _, _, _, _, frame⟩
      · rw [same]
      · rw [frame]
    | recheckItem =>
      unfold Db.perform recheckItem at done
      simp only [bind_eq_ok] at done
      obtain ⟨_, _, _, _, _, _, rest⟩ := done
      split at rest
      · split at rest
        · unfold announceDraft at rest
          simp only [bind_eq_ok, pure_eq_ok] at rest
          obtain ⟨messages, posted, _, _, rfl⟩ := rest
          show messages.get _ = _
          rw [Table.eq_insertIgnore posted]
          exact reply_of_insertIgnore fun same =>
            SourceId.noConfusion (MessageOrigin.source.inj same)
        · obtain rfl := (pure_eq_ok _ _).mp rest
          rfl
      · obtain rfl := (pure_eq_ok _ _).mp rest
        rfl
    | _ => exact absurd public_ id
  · obtain ⟨_, _, message⟩ := (perform_effect done).unpublished public_
    cases message with
    | none messages => rw [messages]
    | input _ messages =>
      rw [messages]
      exact reply_of_insertIgnore MessageOrigin.noConfusion

/-! ### The events of a command -/

omit [Platform] in
/-- The three events that a command leaves, the newest first. -/
def commandEvents (runId : Nat) (basis : CausalBasis) (commit : CausalCommit) :
    List BusinessCausalEvent :=
  let actionId := ReceiptId.turnAction runId
  [causalEvent actionId 3 { basis, commit := some commit }, causalEvent actionId 2 { basis },
    causalEvent actionId 1 { basis }]

omit [Platform] in
/-- The event of the publication. -/
def publishedEvent (runId : Nat) (basis : CausalBasis) (commit : CausalCommit) (messageId : Nat) :
    BusinessCausalEvent :=
  causalEvent (.turnAction runId) 4 { basis, commit := some commit, messageId := some messageId }

/-- Every event stands under its own key. -/
def Trail.Keyed (trail : Trail) : Prop :=
  ∀ event ∈ trail, event.id = (event.actionId, event.sequence)

omit [Platform] in
/-- A number that no event of the command has is free. -/
theorem Trail.Keyed.unused {sequence : Nat} (keyed : trail.Keyed)
    (absent : ∀ event ∈ trail.of runId, event.sequence ≠ sequence) :
    trail.get (.turnAction runId, sequence) = none := by
  refine Table.get_eq_none.mpr fun event member same => ?_
  obtain ⟨action, number⟩ := Prod.mk.inj ((keyed event member).symm.trans same)
  exact absent event (List.mem_filter.mpr ⟨member, decide_eq_true action⟩) number

omit [Platform] in
theorem Trail.Keyed.free (keyed : trail.Keyed) (bare : trail.of runId = []) :
    trail.Free runId := by
  refine fun sequence => keyed.unused fun event member => ?_
  rw [bare] at member
  cases member

omit [Platform] in
theorem Trail.Keyed.insert {actionId : ReceiptId} {sequence : Nat} {evidence : CausalEvidence}
    (keyed : trail.Keyed) :
    Trail.Keyed (trail.insertIgnore (causalEvent actionId sequence evidence)) := by
  intro event member
  rcases Table.mem_insertIgnore member with rfl | old
  · rfl
  · exact keyed event old

omit [Platform] in
theorem Trail.of_insert {sequence : Nat} {evidence : CausalEvidence}
    (free : trail.get (.turnAction runId, sequence) = none) (other : Nat) :
    Trail.of (trail.insertIgnore (causalEvent (.turnAction runId) sequence evidence)) other =
      if other = runId then
        causalEvent (.turnAction runId) sequence evidence :: trail.of other
      else trail.of other := by
  have unused : trail.get (causalEvent (.turnAction runId) sequence evidence).id = none := free
  unfold Trail.of
  rw [Table.rows_insertIgnore unused, List.filter_cons]
  by_cases same : other = runId
  · subst same
    rw [if_pos rfl]
    exact if_pos (decide_eq_true rfl)
  · rw [if_neg same, if_neg]
    rw [decide_eq_true_eq]
    exact fun clash => same (ReceiptId.turnAction.inj clash).symm

omit [Platform] in
theorem Trail.of_commanded {basis : CausalBasis} {commit : CausalCommit}
    (free : trail.Free runId) (bare : trail.of runId = []) (other : Nat) :
    (trail.commanded runId basis commit).of other =
      if other = runId then commandEvents runId basis commit else trail.of other := by
  have second : Table.get (trail.insertIgnore (causalEvent (.turnAction runId) 1 { basis }))
      (.turnAction runId, 2) = none := Trail.free_insert (free 2) (by decide)
  have third : Table.get
      ((trail.insertIgnore (causalEvent (.turnAction runId) 1 { basis })).insertIgnore
        (causalEvent (.turnAction runId) 2 { basis })) (.turnAction runId, 3) = none :=
    Trail.free_insert (Trail.free_insert (free 3) (by decide)) (by decide)
  unfold Trail.commanded
  dsimp only
  rw [Trail.of_insert third, Trail.of_insert second, Trail.of_insert (free 1)]
  by_cases same : other = runId
  · subst same
    simp only [if_true, bare]
    rfl
  · simp only [if_neg same]

/-! ### The chronicle -/

omit [Platform] in
/-- The events of a command, as far as it has come. -/
inductive Reported (db : Db) (runId : Nat) (basis : CausalBasis) (commit : CausalCommit) :
    List BusinessCausalEvent → Prop
  | silent (absent : db.messages.get (.source (.turnReply runId)) = none) :
      Reported db runId basis commit (commandEvents runId basis commit)
  | shown {message : Message}
      (posted : db.messages.get (.source (.turnReply runId)) = some message)
      (offer : message.formalOfferId = commit.offerId) :
      Reported db runId basis commit
        (publishedEvent runId basis commit message.id :: commandEvents runId basis commit)

/-- What the table holds of a command that was carried out. -/
structure Chronicle (db : Db) (trail : Trail) (run : NegotiationInput)
    (receipt : BusinessActionReceipt) (basis : CausalBasis) (commit : CausalCommit)
    (result : Result) : Prop where
  found : db.inputs.get run.id = some run
  agrees : Agrees basis commit run receipt result
  offered : ∀ id, commit.offerId = some id → ∃ offer ∈ db.offers, offer.id = id
  events : Reported db run.id basis commit (trail.of run.id)

/-- The table holds the events of the receipts and nothing else. -/
structure Chronicled (db : Db) (trail : Trail) : Prop where
  keyed : trail.Keyed
  unmade : ∀ runId, db.receipts.get (.turnAction runId) = none → trail.of runId = []
  made : ∀ runId receipt, db.receipts.get (.turnAction runId) = some receipt →
    ∃ run basis commit result, run.id = runId ∧
      Chronicle db trail run receipt basis commit result

omit [Platform] in
/-- The events are the stages in order, the first three at least. -/
theorem Reported.stages {basis : CausalBasis} {commit : CausalCommit}
    {events : List BusinessCausalEvent} (reported : Reported db runId basis commit events) :
    events.reverse.map (·.stage) <+: auditStages.map some ∧
      (auditStages.take 3).map some <+: events.reverse.map (·.stage) := by
  cases reported with
  | silent => exact ⟨⟨[some .resultPublished], rfl⟩, [], rfl⟩
  | shown => exact ⟨⟨[], rfl⟩, [some .resultPublished], rfl⟩

theorem Agrees.sent {basis : CausalBasis} {commit : CausalCommit} {run other : NegotiationInput}
    {receipt : BusinessActionReceipt} {result : Result}
    (agrees : Agrees basis commit run receipt result) (same : other.sent = run.sent) :
    Agrees basis commit other receipt result := by
  obtain ⟨key, _, number, _⟩ := NegotiationInput.of_sent same
  exact
    { agrees with
      id := agrees.id.trans (congrArg _ key.symm)
      named := agrees.named.trans (congrArg some key.symm)
      action := agrees.action.trans (congrArg _ key.symm)
      input := agrees.input.trans key.symm
      number := agrees.number.trans number.symm }

omit [Platform] in
theorem Reported.congr {basis : CausalBasis} {commit : CausalCommit}
    {events : List BusinessCausalEvent} (reported : Reported db runId basis commit events)
    (silent : after.messages.get (.source (.turnReply runId)) =
      db.messages.get (.source (.turnReply runId))) :
    Reported after runId basis commit events := by
  cases reported with
  | silent absent => exact .silent (silent.trans absent)
  | shown posted offer => exact .shown (silent.trans posted) offer

section

variable {run : NegotiationInput} {receipt : BusinessActionReceipt} {basis : CausalBasis}
variable {commit : CausalCommit} {result : Result}

theorem Chronicle.kept (chronicle : Chronicle db trail run receipt basis commit result)
    (remains : Remains db after)
    (silent : after.messages.get (.source (.turnReply run.id)) =
      db.messages.get (.source (.turnReply run.id)))
    (events : later.of run.id = trail.of run.id) :
    ∃ kept basis commit result, kept.id = run.id ∧
      Chronicle after later kept receipt basis commit result := by
  obtain ⟨kept, listed, same⟩ := remains.inputs run (Table.mem_of_get chronicle.found)
  have key : kept.id = run.id := (NegotiationInput.of_sent same).1
  refine ⟨kept, basis, commit, result, key, Table.get_of_mem listed, chronicle.agrees.sent same,
    fun id named => ?_, ?_⟩
  · obtain ⟨offer, member, rfl⟩ := chronicle.offered id named
    exact remains.offers offer member
  · rw [key, events]
    exact chronicle.events.congr silent

/-- What concerns no command leaves the chronicle alone. -/
theorem Chronicled.quiet (chronicled : Chronicled db trail) (remains : Remains db after)
    (receipts : ∀ runId, after.receipts.get (.turnAction runId) =
      db.receipts.get (.turnAction runId))
    (replies : ∀ runId, db.receipts.get (.turnAction runId) ≠ none →
      after.messages.get (.source (.turnReply runId)) =
        db.messages.get (.source (.turnReply runId))) :
    Chronicled after trail where
  keyed := chronicled.keyed
  unmade runId absent := chronicled.unmade runId ((receipts runId).symm.trans absent)
  made runId receipt there := by
    have there := (receipts runId).symm.trans there
    obtain ⟨run, _, _, _, rfl, chronicle⟩ := chronicled.made runId receipt there
    exact chronicle.kept remains (replies run.id (there ▸ Option.some_ne_none receipt)) rfl

end

/-! ### A command -/

section

variable {run : NegotiationInput} {payload : TypedInput} {quoted finished : Db}
variable {quotation : Option Quotation} {outcome : Result} {expectedVersion : Nat}
variable {fault : Option FaultPoint}

omit [Platform] in
/-- A reply that nobody has written was not shown. -/
theorem Notified.silent (notified : Notified db.deliveries db.messages)
    (unanswered : db.deliveries.get (.turnReply runId) = none) :
    db.messages.get (.source (.turnReply runId)) = none := by
  refine Table.get_eq_none.mpr fun message member origin => ?_
  rcases notified.sourced message member _ origin with ⟨_, _, draft⟩ | taken
  · cases draft
  · exact taken unanswered

/-- The events of a command are written with its receipt. -/
theorem Chronicled.commanded (chronicled : Chronicled db trail)
    (notified : Notified db.deliveries db.messages) (rooted : Rooted db) (grounded : Grounded db)
    (remains : Remains db after)
    (carries : Carries db run expectedVersion now fault payload quoted quotation finished outcome
      after)
    (onward : db.session.version ≤ finished.session.version) :
    Chronicled after (trail.commanded run.id (inputBasis quoted run payload quotation)
      (committed finished { outcome with businessVersion := some finished.session.version })) := by
  have writes := carries.business
  have fresh : db.receipts.get (.turnAction run.id) = none :=
    (writes.action_receipt run.id).symm.trans carries.fresh
  have bare := chronicled.unmade run.id fresh
  have free := chronicled.keyed.free bare
  have messages : after.messages = db.messages := by rw [carries.frame, writes.frame]
  have others (other : Nat) (apart : other ≠ run.id) :
      after.receipts.get (.turnAction other) = db.receipts.get (.turnAction other) := by
    rw [carries.frame]
    show (finished.receipts.insertIgnore _).get _ = _
    rw [Table.get_insertIgnore, if_neg, writes.action_receipt]
    exact fun same => apart (ReceiptId.turnAction.inj same.1)
  refine ⟨chronicled.keyed.insert.insert.insert, fun other absent => ?_,
    fun other receipt there => ?_⟩
  · rw [Trail.of_commanded free bare]
    by_cases here : other = run.id
    · subst here
      rw [carries.frame] at absent
      exact absurd (Table.mem_insertIgnore_self carries.fresh) fun member =>
        Table.get_eq_none.mp absent _ member rfl
    · rw [if_neg here]
      exact chronicled.unmade other ((others other here).symm.trans absent)
  · by_cases here : other = run.id
    · subst here
      have mine : after.receipts.get (.turnAction run.id) = some (commandReceipt run expectedVersion
          finished.session.version
          { outcome with businessVersion := some finished.session.version } now) := by
        rw [carries.frame]
        exact Table.get_eq_some.mpr ⟨Table.mem_insertIgnore_self carries.fresh, rfl⟩
      obtain rfl := Option.some.inj (mine.symm.trans there)
      refine ⟨run, _, _, _, rfl, ?_, carries.agrees rooted grounded onward rfl, fun id named => ?_,
        ?_⟩
      · rw [carries.frame]
        show finished.inputs.get run.id = some run
        rw [writes.frame]
        exact carries.found
      · rw [carries.frame]
        exact (carries.authorizes rooted grounded).2.2 id named
      · rw [Trail.of_commanded free bare, if_pos rfl]
        refine .silent ?_
        rw [messages]
        exact notified.silent ((writes.reply run.id).symm.trans carries.unanswered)
    · obtain ⟨run', _, _, _, rfl, chronicle⟩ :=
        chronicled.made other receipt ((others other here).symm.trans there)
      refine chronicle.kept remains (by rw [messages]) ?_
      rw [Trail.of_commanded free bare, if_neg here]

/-- A command with its audit is one that is there or one that is carried out. -/
theorem executeAudited_cases {owner : Owner}
    (done : executeAudited db trail runId owner expectedVersion now fault = .ok (after, later)) :
    (after = db ∧ later = trail) ∨ ∃ run payload quoted quotation finished outcome,
      Carries db run expectedVersion now fault payload quoted quotation finished outcome after ∧
        later = trail.commanded run.id (inputBasis quoted run payload quotation)
          (committed finished
            { outcome with businessVersion := some finished.session.version }) := by
  unfold executeAudited at done
  simp only [bind_eq_ok, Prod.exists, lockOwner_eq_ok] at done
  obtain ⟨run, task, ⟨found, _, _⟩, rest⟩ := done
  obtain rfl : run.id = runId := Table.key_of_get found
  split at rest
  · simp only [bind_eq_ok, pure_eq_ok] at rest
    obtain ⟨_, _, same⟩ := rest
    obtain ⟨rfl, rfl⟩ := Prod.mk.inj same
    exact .inl ⟨rfl, rfl⟩
  · unfold recordCommand notificationInTransaction announce append at rest
    simp only [bind_eq_ok, pure_eq_ok, require_eq_ok, Prod.exists] at rest
    obtain ⟨_, expected, payload, loaded, quoted, quotation, priced, _, open_, resolved, first,
      finished, outcome, carried, authorized, second, _, ⟨receipts, receipted, _, _, _,
      ⟨deliveries, noticed, rfl⟩, _, _, _, ⟨outbox, announced, rfl⟩, _, _, rfl⟩, committed, third,
      same⟩ := rest
    obtain ⟨rfl, rfl⟩ := Prod.mk.inj same
    have fresh := Table.free_of_insert receipted
    have unanswered := Table.free_of_insert noticed
    rw [Table.eq_insertIgnore receipted, Table.eq_insertIgnore noticed,
      Table.eq_insertIgnore announced, Table.eq_insertIgnore third, Table.eq_insertIgnore second,
      Table.eq_insertIgnore first]
    exact .inr ⟨run, payload, quoted, quotation, finished, outcome, ⟨found, expected, loaded,
      priced, open_, carried, fresh, unanswered, rfl⟩, rfl⟩

end

/-! ### A publication -/

omit [Platform] in
theorem Reported.of_silent {basis : CausalBasis} {commit : CausalCommit}
    {events : List BusinessCausalEvent} (reported : Reported db runId basis commit events)
    (absent : db.messages.get (.source (.turnReply runId)) = none) :
    events = commandEvents runId basis commit := by
  cases reported with
  | silent => rfl
  | shown posted =>
    rw [absent] at posted
    cases posted

omit [Platform] in
theorem commandEvents_unpublished {basis : CausalBasis} {commit : CausalCommit} :
    ∀ event ∈ commandEvents runId basis commit, event.sequence ≠ 4 := by
  intro event member
  simp only [commandEvents, List.mem_cons, List.not_mem_nil, or_false] at member
  rcases member with rfl | rfl | rfl <;> simp [causalEvent]

/-- The publication is for the input of its delivery. -/
structure Addresses (db : Db) (run : Option NegotiationInput) (item : NotificationDelivery) :
    Prop where
  reply : ∀ runId, item.id = .turnReply runId → run = db.inputs.get runId
  named : ∀ input, run = some input → item.id = .turnReply input.id

section

variable {run : Option NegotiationInput} {item : NotificationDelivery} {messageId : Option Nat}

omit [Platform] in
theorem published_of_command {input : NegotiationInput} {receipt : BusinessActionReceipt}
    {event : BusinessCausalEvent} (found : db.receipts.get (.turnAction input.id) = some receipt)
    (previous : trail.get (.turnAction input.id, 3) = some event) :
    published db trail (some input) messageId =
      append trail (.turnAction input.id) 4 { event.evidence with messageId } := by
  unfold published
  dsimp only
  rw [found, previous]

omit [Platform] in
theorem published_bare (bare : ∀ input, run = some input →
    db.receipts.get (.turnAction input.id) = none) :
    published db trail run messageId = .ok trail := by
  cases run with
  | none => rfl
  | some input =>
    unfold published
    dsimp only
    rw [bare input rfl]
    rfl

omit [Platform] in
theorem published_succeeds (free : ∀ input, run = some input →
    trail.get (.turnAction input.id, 4) = none) :
    ∃ later, published db trail run messageId = .ok later := by
  cases run with
  | none => exact ⟨trail, rfl⟩
  | some input =>
    unfold published
    dsimp only
    split
    · rw [append_free (free input rfl)]
      exact ⟨_, rfl⟩
    · exact ⟨trail, rfl⟩

/-- The message names the offer of the result. -/
theorem messageOf_offer
    (known : ∀ id, item.result.offerId = some id → ∃ offer ∈ db.offers, offer.id = id) :
    (messageOf db run item now).formalOfferId = item.result.offerId := by
  have shown : (publication db run item.result now).offer =
      item.result.offerId.bind db.offers.get := by
    unfold publication
    dsimp only
    split <;> rfl
  show ((publication db run item.result now).offer).map _ = _
  rw [shown]
  cases named : item.result.offerId with
  | none => rfl
  | some id =>
    obtain ⟨offer, member, rfl⟩ := known id named
    rw [Option.bind_some, Table.get_of_mem member]
    rfl

/-- A reply that is not out has no event yet. -/
theorem Chronicled.unpublished (chronicled : Chronicled db trail)
    (silent : db.messages.get (.source (.turnReply runId)) = none) :
    trail.get (.turnAction runId, 4) = none := by
  cases there : db.receipts.get (.turnAction runId) with
  | none => exact chronicled.keyed.free (chronicled.unmade runId there) 4
  | some receipt =>
    obtain ⟨known, _, _, _, rfl, chronicle⟩ := chronicled.made runId receipt there
    refine chronicled.keyed.unused fun event member => ?_
    rw [chronicle.events.of_silent silent] at member
    exact commandEvents_unpublished event member

omit [Platform] in
theorem Trail.committed_event {basis : CausalBasis} {commit : CausalCommit}
    (events : trail.of runId = commandEvents runId basis commit) :
    trail.get (.turnAction runId, 3) =
      some (causalEvent (.turnAction runId) 3 { basis, commit := some commit }) := by
  have member : causalEvent (.turnAction runId) 3 { basis, commit := some commit } ∈
      trail.of runId := by
    rw [events]
    exact List.mem_cons_self
  exact Table.get_eq_some.mpr ⟨(List.mem_filter.mp member).1, rfl⟩

theorem PostsMessage.remains (posts : PostsMessage db run item now after messageId) :
    Remains db after := .same posts.inputs posts.offers

/-- The message of another delivery leaves the reply alone. -/
theorem PostsMessage.reply (posts : PostsMessage db run item now after messageId)
    (apart : item.id ≠ .turnReply runId) :
    after.messages.get (.source (.turnReply runId)) =
      db.messages.get (.source (.turnReply runId)) := by
  rw [posts.messages]
  exact reply_of_insertIgnore fun same => apart (MessageOrigin.source.inj same)

/-- The command whose reply is published has its last event. -/
theorem Chronicle.published {known : NegotiationInput} {receipt : BusinessActionReceipt}
    {basis : CausalBasis} {commit : CausalCommit} {result : Result}
    (chronicle : Chronicle db trail known receipt basis commit result)
    (there : db.receipts.get (.turnAction known.id) = some receipt) (formed : Formed db.records)
    (present : db.deliveries.get item.id = some item) (key : item.id = .turnReply known.id)
    (posts : PostsMessage db (some known) item now after messageId)
    (events : later.of known.id =
      publishedEvent known.id basis commit (db.nextId + 1) ::
        commandEvents known.id basis commit) :
    Chronicle after later known receipt basis commit result := by
  have offer : (messageOf db (some known) item now).formalOfferId = commit.offerId := by
    obtain ⟨reply, member, sent, answer⟩ := formed.replies known.id receipt there
    obtain rfl := Table.eq_of_key member (Table.mem_of_get present) (sent.trans key.symm)
    have told : reply.result = result :=
      ReceiptResult.business.inj (answer.symm.trans chronicle.agrees.answer)
    rw [messageOf_offer fun id named => ?_, told, chronicle.agrees.offer]
    rw [told, ← chronicle.agrees.offer] at named
    exact chronicle.offered id named
  have posted : after.messages.get (.source (.turnReply known.id)) =
      some (messageOf db (some known) item now) := by
    rw [posts.messages]
    exact Table.get_eq_some.mpr ⟨Table.mem_insertIgnore_self posts.free, key ▸ rfl⟩
  refine ⟨?_, chronicle.agrees, ?_, ?_⟩
  · rw [posts.inputs]
    exact chronicle.found
  · rw [posts.offers]
    exact chronicle.offered
  · rw [events]
    exact .shown posted offer

/-- The event of a publication is written with its message. -/
theorem Chronicled.posted (chronicled : Chronicled db trail) (formed : Formed db.records)
    (present : db.deliveries.get item.id = some item) (addresses : Addresses db run item)
    (posts : PostsMessage db run item now after messageId)
    (done : published after trail run messageId = .ok later) : Chronicled after later := by
  have receipts (runId : Nat) : after.receipts.get (.turnAction runId) =
      db.receipts.get (.turnAction runId) := by rw [posts.receipts]
  by_cases command : ∃ input receipt, run = some input ∧
      db.receipts.get (.turnAction input.id) = some receipt
  · obtain ⟨input, receipt, rfl, there⟩ := command
    obtain ⟨known, basis, commit, result, same, chronicle⟩ :=
      chronicled.made input.id receipt there
    obtain rfl : known = input := by
      have found := addresses.reply input.id (addresses.named input rfl)
      rw [← same, chronicle.found] at found
      exact (Option.some.inj found).symm
    have key := addresses.named known rfl
    have silent : db.messages.get (.source (.turnReply known.id)) = none := key ▸ posts.free
    have events := chronicle.events.of_silent silent
    have free := chronicled.unpublished silent
    rw [published_of_command ((receipts known.id).trans there) (Trail.committed_event events),
      append_free free, posts.named] at done
    obtain rfl := Except.ok.inj done
    refine ⟨chronicled.keyed.insert, fun other absent => ?_, fun other receipt' recorded => ?_⟩
    · have absent := (receipts other).symm.trans absent
      rw [Trail.of_insert free]
      by_cases here : other = known.id
      · subst here
        rw [there] at absent
        cases absent
      · rw [if_neg here]
        exact chronicled.unmade other absent
    · have recorded := (receipts other).symm.trans recorded
      by_cases here : other = known.id
      · subst here
        obtain rfl := Option.some.inj (there.symm.trans recorded)
        refine ⟨known, basis, commit, result, rfl,
          chronicle.published there formed present key posts ?_⟩
        rw [Trail.of_insert free, if_pos rfl, events]
        rfl
      · obtain ⟨same, _, _, _, rfl, chronicle⟩ := chronicled.made other receipt' recorded
        refine chronicle.kept posts.remains (posts.reply fun clash => here ?_) ?_
        · exact SourceId.turnReply.inj (clash.symm.trans key)
        · rw [Trail.of_insert free, if_neg here]
  · have bare : ∀ input, run = some input →
        after.receipts.get (.turnAction input.id) = none := by
      intro input known
      rw [receipts]
      by_contra there
      obtain ⟨receipt, there⟩ := Option.ne_none_iff_exists'.mp there
      exact command ⟨input, receipt, known, there⟩
    rw [published_bare bare] at done
    obtain rfl := Except.ok.inj done
    refine chronicled.quiet posts.remains receipts fun runId there => posts.reply fun reply => ?_
    obtain ⟨receipt, there⟩ := Option.ne_none_iff_exists'.mp there
    obtain ⟨known, _, _, _, rfl, chronicle⟩ := chronicled.made runId receipt there
    exact command ⟨known, receipt, (addresses.reply known.id reply).trans chronicle.found, there⟩

/-- A publication with its audit is one that was made, or it posts the message. -/
theorem publishAudited_cases {source : SourceId}
    (done : publishAudited db trail run source now = .ok (after, later)) :
    (after = db ∧ later = trail) ∨ ∃ item messageId, db.deliveries.get source = some item ∧
      PostsMessage db run item now after messageId ∧
        published after trail run messageId = .ok later := by
  unfold publishAudited at done
  simp only [bind_eq_ok, expect_eq_ok] at done
  obtain ⟨item, found, rest⟩ := done
  split at rest
  · obtain ⟨rfl, rfl⟩ := Prod.mk.inj ((pure_eq_ok _ _).mp rest)
    exact .inl ⟨rfl, rfl⟩
  · simp only [bind_eq_ok, pure_eq_ok, Prod.exists] at rest
    obtain ⟨stored, messageId, posted, _, reported, same⟩ := rest
    obtain ⟨rfl, rfl⟩ := Prod.mk.inj same
    exact .inr ⟨item, messageId, found, publishNew_posts posted, reported⟩

/-- The publication with its audit does what the publication does. -/
theorem publishAudited_fst {source : SourceId}
    (free : ∀ item, db.deliveries.get source = some item → item.status ≠ .published →
      ∀ input, run = some input → trail.get (.turnAction input.id, 4) = none) :
    (publishAudited db trail run source now).map (·.1) =
      (publishItem db run source now).map (·.1) := by
  unfold publishAudited publishItem
  cases found : db.deliveries.get source with
  | none => rfl
  | some item =>
    dsimp only [expect, bind, Except.bind]
    by_cases shown : item.status = .published
    · rw [if_pos shown, if_pos shown]
      rfl
    · rw [if_neg shown, if_neg shown]
      cases publishNew db run item now with
      | error => rfl
      | ok posted =>
        have succeeds : ∃ reported, published posted.1 trail run posted.2 = .ok reported :=
          published_succeeds (free item found shown)
        obtain ⟨reported, done⟩ := succeeds
        dsimp only
        rw [done]
        rfl

end

/-! ### Every transaction -/

section

variable {transaction : Transaction}

/-- The database after a transaction that writes no event. -/
def PassesBy (db after : Db) : Prop :=
  after = db ∨ ∃ transaction : Transaction, transaction.LeavesReplies ∧
    db.perform transaction = .ok after

/-- An event that is no call of a service writes no event of the audit. -/
theorem World.react_passesBy (world : World) {event : Event}
    (called : ∀ transaction, event ≠ .call transaction) :
    PassesBy world.db (world.react event).db := by
  cases event with
  | call transaction => exact absurd rfl (called transaction)
  | runnerClaim approvalId now =>
    refine .inr ⟨.claimExecution approvalId now, trivial, ?_⟩
    show Except.ok _ = Except.ok (world.addRunner approvalId now).db
    rw [addRunner_db]
  | runnerStep token now later fault =>
    unfold World.react
    dsimp only
    split
    · exact .inl rfl
    · unfold World.stepRunner
      split
      · next advanced =>
        rw [setStage_db]
        rcases advance_acts advanced with same | ⟨transaction, done, ⟨_, leaves⟩, _⟩
        · exact .inl same
        · exact .inr ⟨transaction, leaves, done⟩
      · rw [setStage_db]
        exact .inl rfl
  | runnerRaise token =>
    unfold World.react
    dsimp only
    split
    · exact .inl rfl
    · rw [setStage_db]
      exact .inl rfl
  | runnerCrash token =>
    unfold World.react
    dsimp only
    split <;> exact .inl rfl

/-- What a database of a reachable state has, as far as the audit needs it. -/
structure Auditable (db : Db) : Prop where
  shape : Shape db.deal
  ordered : Ordered db.queue
  notified : Notified db.deliveries db.messages
  formed : Formed db.records
  rooted : Rooted db
  grounded : Grounded db

theorem reachable_auditable {world : World} (reached : Reachable World.Step World.Initial world) :
    Auditable world.db :=
  ⟨reachable_shape reached, reachable_ordered reached, reachable_notified reached,
    reachable_formed reached, reachable_rooted reached, reachable_grounded reached⟩

theorem Chronicled.passedBy (chronicled : Chronicled db trail) (sound : Auditable db)
    (passes : PassesBy db after) : Chronicled after trail := by
  rcases passes with rfl | ⟨transaction, leaves, done⟩
  · exact chronicled
  · exact chronicled.quiet (perform_remains sound.shape sound.ordered done)
      (perform_action_receipt leaves done) fun runId _ => perform_reply leaves done runId

omit [Platform] in
/-- The owner of a run publishes its reply. -/
theorem Addresses.owned {run : NegotiationInput} {item : NotificationDelivery}
    (found : db.inputs.get run.id = some run) (reply : item.id = .turnReply run.id) :
    Addresses db (some run) item where
  reply runId same := by
    obtain rfl := SourceId.turnReply.inj (reply.symm.trans same)
    exact found.symm
  named input same := Option.some.inj same ▸ reply

omit [Platform] in
/-- A notice is published for the input of its delivery. -/
theorem Formed.addresses {item : NotificationDelivery} (formed : Formed db.records)
    (present : db.deliveries.get item.id = some item) :
    Addresses db (item.inputId.bind db.inputs.get) item where
  reply runId same := by
    have shape := formed.deliveries item (Table.mem_of_get present)
    unfold NotificationDelivery.Formed at shape
    rw [same] at shape
    rw [shape.1]
    rfl
  named input same := by
    obtain ⟨runId, named, found⟩ := Option.bind_eq_some_iff.mp same
    obtain rfl : input.id = runId := Table.key_of_get found
    exact formed.delivery_id (Table.mem_of_get present) named

omit [Platform] in
/-- The transactions that leave the events to others. -/
def Transaction.Plain : Transaction → Prop
  | .execute _ _ _ _ _ | .publishOwned _ _ _ | .publishNotified _ _ _ _ => False
  | _ => True

theorem performAudited_plain (plain : transaction.Plain) :
    db.performAudited trail transaction =
      (db.perform transaction).map fun after => (after, trail) := by
  cases transaction <;> first | rfl | exact plain.elim

omit [Platform] in
theorem Transaction.Plain.leaves (plain : transaction.Plain) : transaction.LeavesReplies := by
  cases transaction <;> trivial

omit [Platform] in
theorem map_fst_pair (outcome : Except Failure Db) (trail : Trail) :
    (outcome.map fun after => (after, trail)).map (·.1) = outcome := by
  cases outcome <;> rfl

/-- A transaction with its audit does what the transaction does. -/
theorem performAudited_fst (chronicled : Chronicled db trail) (sound : Auditable db)
    (addressed : Event.Addressed db (.call transaction)) :
    (db.performAudited trail transaction).map (·.1) = db.perform transaction := by
  have free {run : Option NegotiationInput} {item : NotificationDelivery}
      (present : db.deliveries.get item.id = some item) (hidden : item.status ≠ .published)
      (addresses : Addresses db run item) (input : NegotiationInput) (same : run = some input) :
      trail.get (.turnAction input.id, 4) = none := by
    have silent := (sound.notified.unnamed item (Table.mem_of_get present) hidden).2
    rw [addresses.named input same] at silent
    exact chronicled.unpublished silent
  by_cases plain : transaction.Plain
  · rw [performAudited_plain plain]
    exact map_fst_pair _ trail
  cases transaction with
  | execute runId =>
    have fresh (unmade : db.receipts.get (.turnAction runId) = none) : trail.Free runId :=
      chronicled.keyed.free (chronicled.unmade runId unmade)
    exact executeAudited_fst fresh
  | publishOwned runId owner now =>
    unfold Db.performAudited Db.perform publishOwned
    refine map_bind_congr fun owned locked => ?_
    obtain ⟨run, task⟩ := owned
    obtain ⟨found, _⟩ := lockOwner_eq_ok.mp locked
    obtain rfl : run.id = runId := Table.key_of_get found
    refine publishAudited_fst fun item present hidden => ?_
    have reply : item.id = .turnReply run.id := Table.key_of_get present
    exact free (reply ▸ present) hidden (.owned found reply)
  | publishNotified runId source token now =>
    unfold Db.performAudited Db.perform publishNotified
    refine map_bind_congr fun item found => map_bind_congr fun _ _ => ?_
    have present := (expect_eq_ok _ _ _).mp found
    obtain rfl := addressed item present
    obtain rfl : item.id = source := Table.key_of_get present
    refine publishAudited_fst fun other listed hidden => ?_
    obtain rfl := Option.some.inj (present.symm.trans listed)
    exact free present hidden (sound.formed.addresses present)
  | _ => exact absurd trivial plain

/-- The audit keeps up with every transaction. -/
theorem Chronicled.performed (chronicled : Chronicled db trail) (sound : Auditable db)
    (addressed : Event.Addressed db (.call transaction))
    (onward : db.session.version ≤ after.session.version)
    (done : db.performAudited trail transaction = .ok (after, later)) :
    Chronicled after later := by
  have performed : db.perform transaction = .ok after := by
    rw [← performAudited_fst chronicled sound addressed, done]
    rfl
  have remains := perform_remains sound.shape sound.ordered performed
  by_cases plain : transaction.Plain
  · rw [performAudited_plain plain] at done
    obtain ⟨stored, _, same⟩ := (map_eq_ok _ _ _).mp done
    obtain ⟨rfl, rfl⟩ := Prod.mk.inj same
    exact chronicled.passedBy sound (.inr ⟨transaction, plain.leaves, performed⟩)
  cases transaction with
  | execute =>
    rcases executeAudited_cases done with ⟨rfl, rfl⟩ | ⟨run, _, _, _, finished, _, carries, rfl⟩
    · exact chronicled
    · refine chronicled.commanded sound.notified sound.rooted sound.grounded remains carries ?_
      rw [carries.frame] at onward
      exact onward
  | publishOwned runId owner now =>
    unfold Db.performAudited at done
    simp only [bind_eq_ok, Prod.exists, lockOwner_eq_ok] at done
    obtain ⟨run, task, ⟨found, _⟩, published⟩ := done
    obtain rfl : run.id = runId := Table.key_of_get found
    rcases publishAudited_cases published with ⟨rfl, rfl⟩ | ⟨item, _, present, posts, reported⟩
    · exact chronicled
    · have reply : item.id = .turnReply run.id := Table.key_of_get present
      exact chronicled.posted sound.formed (reply ▸ present) (.owned found reply) posts reported
  | publishNotified =>
    unfold Db.performAudited at done
    simp only [bind_eq_ok, expect_eq_ok] at done
    obtain ⟨item, present, _, _, published⟩ := done
    obtain rfl := addressed item present
    rcases publishAudited_cases published with ⟨rfl, rfl⟩ | ⟨other, _, found, posts, reported⟩
    · exact chronicled
    · obtain rfl := Option.some.inj (present.symm.trans found)
      have present := (Table.key_of_get present).symm ▸ present
      exact chronicled.posted sound.formed present (sound.formed.addresses present) posts reported
  | _ => exact absurd trivial plain

end

/-! ### The checker -/

section

variable {run : NegotiationInput} {receipt : BusinessActionReceipt} {basis : CausalBasis}
variable {commit : CausalCommit} {result : Result} {message : Message}

omit [Platform] in
theorem causalEvent_follows (actionId : ReceiptId) (sequence : Nat) (evidence : CausalEvidence) :
    (causalEvent actionId sequence evidence).Follows actionId sequence evidence.basis :=
  ⟨rfl, rfl, rfl, rfl, rfl, rfl⟩

/-- The receipt of a command with the number of its input. -/
def viewOf (run : NegotiationInput) (receipt : BusinessActionReceipt) (result : Result) :
    ReceiptView where
  id := receipt.id
  inputId := receipt.inputId
  inputSeq := run.inputSeq
  result
  beforeVersion := receipt.beforeVersion
  afterVersion := receipt.afterVersion

/-- The events of a published command pass with its receipt and its message. -/
theorem Agrees.passes (agrees : Agrees basis commit run receipt result)
    (origin : message.origin = .source (.turnReply run.id))
    (offer : message.formalOfferId = commit.offerId) :
    causalScore (publishedEvent run.id basis commit message.id :: commandEvents run.id basis commit)
      (some (viewOf run receipt result)) (some message) = .pass := by
  have follows (sequence : Nat) (evidence : CausalEvidence) (same : evidence.basis = basis) :
      (causalEvent (.turnAction run.id) sequence evidence).Follows receipt.id sequence basis := by
    rw [agrees.id, ← same]
    exact causalEvent_follows _ _ _
  have judged : judgeChain (causalEvent (.turnAction run.id) 1 { basis })
      (causalEvent (.turnAction run.id) 2 { basis })
      (causalEvent (.turnAction run.id) 3 { basis, commit := some commit })
      (publishedEvent run.id basis commit message.id) (viewOf run receipt result) message =
        .ok () := by
    have chain : (causalEvent (.turnAction run.id) 1 { basis }).Follows receipt.id 1 basis ∧
        (causalEvent (.turnAction run.id) 2 { basis }).Follows receipt.id 2 basis ∧
        (causalEvent (.turnAction run.id) 3 { basis, commit := some commit }).Follows receipt.id 3
          basis ∧
        (publishedEvent run.id basis commit message.id).Follows receipt.id 4 basis :=
      ⟨follows 1 _ rfl, follows 2 _ rfl, follows 3 _ rfl, follows 4 _ rfl⟩
    have named : basis.logicalActionId = receipt.id ∧ some basis.inputId = receipt.inputId ∧
        basis.inputSeq = run.inputSeq ∧ basis.beforeVersion = receipt.beforeVersion :=
      ⟨agrees.action.trans agrees.id.symm, (congrArg some agrees.input).trans agrees.named.symm,
        agrees.number, agrees.versionBefore⟩
    have done : commit.afterVersion = receipt.afterVersion ∧
        basis.beforeVersion ≤ commit.afterVersion ∧
        commit.resultHash = digest (resultJson result) ∧ commit.offerId = result.offerId :=
      ⟨agrees.versionAfter, agrees.onward, agrees.hash, agrees.offer⟩
    have shown : message.id = message.id ∧
        message.origin = .source (.turnReply basis.inputId) ∧
        message.formalOfferId = commit.offerId ∧ (basis.command = .confirm →
          basis.displayEvidenceHash ≠ none ∧ basis.objectOfferId = commit.offerId) :=
      ⟨rfl, agrees.input ▸ origin, offer, agrees.confirms⟩
    have placed : judgeOffer basis (some commit) result.outcome = .ok () := by
      unfold judgeOffer
      split
      · next among => exact (require_eq_ok _ _ _).mpr (agrees.authorized among)
      · rfl
    unfold judgeChain
    simp only [bind_eq_ok, require_eq_ok, expect_eq_ok]
    exact ⟨(), chain, (), placed, (), named, commit, rfl, (), done, commit, rfl, (), rfl,
      message.id, rfl, shown⟩
  have sorted : (publishedEvent run.id basis commit message.id ::
        commandEvents run.id basis commit).insertionSort
          (fun one two => one.sequence ≤ two.sequence) =
      [causalEvent (.turnAction run.id) 1 { basis }, causalEvent (.turnAction run.id) 2 { basis },
        causalEvent (.turnAction run.id) 3 { basis, commit := some commit },
        publishedEvent run.id basis commit message.id] := rfl
  unfold causalScore
  rw [sorted]
  dsimp only
  rw [judged]

end

/-! ### Every run -/

namespace Audited

variable {audited first last : Audited} {event : Event}

/-- The system with the audit does what the system does. -/
theorem next_world (chronicled : Chronicled audited.world.db audited.trail)
    (sound : Auditable audited.world.db) (addressed : event.Addressed audited.world.db) :
    (audited.next event).world = audited.world.next event := by
  have reacts : (audited.react event).world = audited.world.react event := by
    cases event with
    | call transaction =>
      unfold react World.react World.settleTransaction
      dsimp only
      rw [← performAudited_fst chronicled sound addressed]
      cases audited.world.db.performAudited audited.trail transaction <;> rfl
    | _ => rfl
  unfold next World.next
  dsimp only
  rw [reacts]

theorem Step.chronicled (reached : Reachable World.Step World.Initial first.world)
    (chronicled : Chronicled first.world.db first.trail) (step : Step first event last) :
    World.Step first.world event last.world ∧ Chronicled last.world.db last.trail := by
  obtain ⟨timely, allowed, addressed, rfl⟩ := step
  have sound := reachable_auditable reached
  have taken : World.Step first.world event (first.next event).world :=
    ⟨timely, allowed, next_world chronicled sound addressed⟩
  refine ⟨taken, ?_⟩
  have advanced := taken.version_le reached
  have onward : first.world.db.session.version ≤ (first.react event).world.db.session.version :=
    advanced
  show Chronicled (first.react event).world.db (first.react event).trail
  cases event with
  | call transaction =>
    unfold react at onward ⊢
    dsimp only at onward ⊢
    cases done : first.world.db.performAudited first.trail transaction with
    | error => exact chronicled
    | ok result =>
      rw [done] at onward
      exact chronicled.performed sound addressed onward done
  | _ => exact chronicled.passedBy sound (first.world.react_passesBy fun _ => Event.noConfusion)

/-- In every reachable state the table holds the events of the receipts. -/
theorem reachable_chronicled (reached : Reachable Step Initial audited) :
    Reachable World.Step World.Initial audited.world ∧
      Chronicled audited.world.db audited.trail := by
  refine reached.invariant
    (fun audited => Reachable World.Step World.Initial audited.world ∧
      Chronicled audited.world.db audited.trail)
    (fun audited initial => ?_) fun before event after held step => ?_
  · obtain ⟨initial, bare⟩ := initial
    refine ⟨.start initial, ?_⟩
    obtain ⟨⟨_, _, _, _, _, _, _, db⟩, _⟩ := initial
    rw [bare, db]
    exact
      { keyed := fun event member => absurd member (Table.not_mem_empty event)
        unmade := fun _ _ => rfl
        made := fun _ receipt there => absurd there.symm (Option.some_ne_none receipt) }
  · obtain ⟨taken, chronicled⟩ := step.chronicled held.1 held.2
    exact ⟨held.1.next taken, chronicled⟩

/-- The checker passes a command whose reply is posted. -/
theorem score_of_chronicle {run : NegotiationInput} {receipt : BusinessActionReceipt}
    {basis : CausalBasis} {commit : CausalCommit} {result : Result} {message : Message}
    (chronicle : Chronicle audited.world.db audited.trail run receipt basis commit result)
    (there : audited.world.db.receipts.get (.turnAction run.id) = some receipt)
    (posted : audited.world.db.messages.get (.source (.turnReply run.id)) = some message) :
    audited.score run.id = .pass := by
  have view : audited.receiptOf run.id = some (viewOf run receipt result) := by
    unfold receiptOf
    simp only [chronicle.found, there, chronicle.agrees.answer, Option.bind_eq_bind,
      Option.bind_some]
    rfl
  have reported := chronicle.events
  unfold score
  rw [view, posted]
  generalize audited.trail.of run.id = events at reported
  cases reported with
  | silent absent =>
    rw [posted] at absent
    cases absent
  | shown found offer =>
    obtain rfl := Option.some.inj (posted.symm.trans found)
    exact chronicle.agrees.passes (Table.key_of_get posted) offer

/-- The audit never changes what the system does. In every reachable state the events of a command
are its stages in order, the first three from its receipt on and none before it, so that nothing is
committed that was not authorized; and once the reply of the command is published, the checker
passes its events with its receipt and its message. -/
theorem audits_pass (reached : Reachable Step Initial audited) :
    (∀ event, event.Addressed audited.world.db →
      (audited.next event).world = audited.world.next event) ∧
    ∀ runId,
      ((audited.trail.of runId).reverse.map (·.stage) <+: auditStages.map some) ∧
      (audited.world.db.receipts.get (.turnAction runId) = none → audited.trail.of runId = []) ∧
      (audited.world.db.receipts.get (.turnAction runId) ≠ none →
        (auditStages.take 3).map some <+: (audited.trail.of runId).reverse.map (·.stage)) ∧
      ∀ item, audited.world.db.receipts.get (.turnAction runId) ≠ none →
        audited.world.db.deliveries.get (.turnReply runId) = some item →
        item.status = .published → audited.score runId = .pass := by
  obtain ⟨world, chronicled⟩ := reachable_chronicled reached
  have sound := reachable_auditable world
  refine ⟨fun event addressed => next_world chronicled sound addressed, fun runId => ?_⟩
  cases there : audited.world.db.receipts.get (.turnAction runId) with
  | none =>
    have bare := chronicled.unmade runId there
    refine ⟨?_, fun _ => bare, fun some => absurd rfl some, fun _ some => absurd rfl some⟩
    rw [bare]
    exact List.nil_prefix
  | some receipt =>
    obtain ⟨run, basis, commit, result, rfl, chronicle⟩ := chronicled.made runId receipt there
    obtain ⟨ordered, first⟩ := chronicle.events.stages
    refine ⟨ordered, fun none => absurd none (Option.some_ne_none receipt), fun _ => first,
      fun item _ present shown => ?_⟩
    obtain ⟨message, listed, origin, _⟩ :=
      sound.formed.published item (Table.mem_of_get present) shown
    have key : item.id = .turnReply run.id := Table.key_of_get present
    exact score_of_chronicle chronicle there
      (Table.get_eq_some.mpr ⟨listed, origin.trans (congrArg _ key)⟩)

end Audited

end

/-! ### A session -/

/-- The event publishes a notice. -/
def Event.isNotice : Event → Bool
  | .call (.publishNotified _ _ _ _) => true
  | _ => false

section

variable [Platform]

omit [Platform] in
theorem Event.addressed {event : Event} (other : event.isNotice = false) (db : Db) :
    event.Addressed db := by
  unfold Event.Addressed
  split
  · cases other
  · trivial

namespace Audited

/-- The system after the events, oldest event first. -/
def after (audited : Audited) (events : List Event) : Audited := events.foldl next audited

/-- Scheduled events without a notice lead from a reachable state to a reachable one. -/
theorem reachable_after {audited : Audited} {events : List Event}
    (reached : Reachable Step Initial audited) (scheduled : Scheduled audited.world.clock events)
    (own : ∀ event ∈ events, event.isNotice = false) :
    Reachable Step Initial (audited.after events) := by
  induction events generalizing audited with
  | nil => exact reached
  | cons event rest inductionHypothesis =>
    obtain ⟨⟨timely, allowed⟩, later⟩ := scheduled
    obtain ⟨mine, own⟩ := List.forall_mem_cons.mp own
    have taken : Step audited event (audited.next event) :=
      ⟨timely, allowed, Event.addressed mine _, rfl⟩
    exact inductionHypothesis (reached.next taken) later own

end Audited

end

/-- The session as it begins, without events. -/
def sampleAudited : Audited where
  world := sampleWorld
  trail := .empty

/-- The confirmation is carried out, and its reply is published. -/
def confirmed [Platform] : List Event :=
  confirming ++ [confirmation, .call (.publishOwned 9 (12, 1) (seconds 5))]

attribute [local instance] samplePlatform in
/-- The command that confirms the offer passes. -/
theorem audits_pass_confirmation : (sampleAudited.after confirmed).score 9 = .pass := by
  have reached : Reachable Audited.Step Audited.Initial (sampleAudited.after confirmed) :=
    Audited.reachable_after (.start ⟨sampleWorld_initial, rfl⟩) (by decide +kernel)
      (by decide +kernel)
  have made : (sampleAudited.after confirmed).world.db.receipts.get (.turnAction 9) ≠ none := by
    decide +kernel
  have shown : ((sampleAudited.after confirmed).world.db.deliveries.get (.turnReply 9)).map
      (·.status) = some .published := by decide +kernel
  obtain ⟨item, present, status⟩ := Option.map_eq_some_iff.mp shown
  exact ((Audited.audits_pass reached).2 9).2.2.2 item made present status

end Negotiation
