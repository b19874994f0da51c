/-
This file runs the turns of a conversation beside everything else that happens
in the session, and keeps the list of the dependencies that the drafts still
wait for. While no step goes over an open dependency, a draft that waits for an
answer is neither ready nor submitted, and a command has all its answers.
-/

import SecondhandAgent.Dependencies
import SecondhandAgent.Cursor

namespace Negotiation

open Store Deal

/-! ### The conversation -/

section

variable [Platform]

/-- What a turn plans; nothing if it fails or is stored already. -/
def plannedTurn (db : Db) (runId : Nat) (owner : Owner) (frame : IntentFrame) (now : Time) :
    Option (TurnScope × Planning) :=
  match lockOwner db runId owner now with
  | .error _ => none
  | .ok (run, _) =>
    if db.turns.get runId = none then (planNew db run frame now).toOption else none

end

/-- The dependencies of the intents that drafts were stored for. -/
def declared (log : List Entry) : List (Nat × String) :=
  log.flatMap fun entry =>
    entry.draft.toList.flatMap fun draft =>
      entry.intent.dependsOn.map fun dependency => (draft.1, dependency)

/-- The dependencies that are open after a turn: what its drafts depend on is added, what it
resolved is taken away. -/
def stillOpen (outstanding : List (Nat × String)) (log : List Entry) : List (Nat × String) :=
  (outstanding ++ declared log).filter fun pair => ¬ ResolvedIn log pair.2

/-- A session in which turns are planned, with the dependencies that no turn resolved yet and the
drafts that they were declared for. -/
structure Conversation where
  world : World
  outstanding : List (Nat × String) := []

/-- A turn of the buyer, or anything else that happens. -/
inductive Move where
  | turn (runId : Nat) (owner : Owner) (frame : IntentFrame) (now : Time)
  | other (event : Event)

/-- The plan of a turn is left to turns. -/
def Event.Plans : Event → Prop
  | .call transaction => transaction.IsPlan
  | _ => False

namespace Move

def readings : Move → List Time
  | turn _ _ _ now => [now]
  | other event => event.readings

def Allowed : Move → Prop
  | turn _ _ _ _ => True
  | other event => event.Allowed ∧ ¬ event.Plans

end Move

namespace Conversation

section

variable [Platform]

/-- What a move says of the intents it plans. -/
def log (conversation : Conversation) : Move → List Entry
  | .turn runId owner frame now =>
    (plannedTurn conversation.world.db runId owner frame now).elim [] (·.2.log)
  | .other _ => []

/-- The world after a move; a turn that fails changes nothing. -/
def worldAfter (conversation : Conversation) : Move → World
  | .turn runId owner frame now =>
    { conversation.world with
      clock := now
      db := (planFrame conversation.world.db runId owner frame now).toOption.getD
        conversation.world.db }
  | .other event => conversation.world.next event

/-- The conversation after a move. -/
def next (conversation : Conversation) (move : Move) : Conversation where
  world := conversation.worldAfter move
  outstanding := stillOpen conversation.outstanding (conversation.log move)

def Step (before : Conversation) (move : Move) (after : Conversation) : Prop :=
  Timely before.world.clock move.readings ∧ move.Allowed ∧ after = before.next move

end

/-- A session before its first turn. -/
def Initial (conversation : Conversation) : Prop :=
  World.Initial conversation.world ∧ conversation.outstanding = []

/-- The move goes over no open dependency: a turn answers what it must, and no draft that waits
for an answer is assessed again by the seller. -/
def Heeds (conversation : Conversation) : Move → Prop
  | .turn runId owner frame now =>
    ∀ run task payload ordered safe,
      lockOwner conversation.world.db runId owner now = .ok (run, task) →
      conversation.world.db.turns.get runId = none → run.payload = .chat payload →
      safeFrame frame payload.text = .ok (ordered, safe) →
      TurnAnswers conversation.world.db
        (scopeOf conversation.world.db run payload now ordered safe) ordered
        conversation.outstanding
  | .other (.call (.recheckItem seller itemId now)) =>
    ∀ item draft, conversation.world.db.verifications.get itemId = some item →
      conversation.world.db.drafts.get item.draftId = some draft →
      conversation.world.db.product.sellerId = seller →
      UsableDraft draft conversation.world.db.session now draft.version →
      ∀ pair ∈ conversation.outstanding, pair.1 ≠ draft.id
  | .other _ => True

end Conversation

section

variable [Platform] {db after : Db} {runId : Nat} {owner : Owner} {frame : IntentFrame} {now : Time}

/-! ### Turns -/

/-- A turn that is planned has an owner and a frame, and its plan is stored. -/
theorem plannedTurn_eq_some {scope : TurnScope} {planning : Planning} :
    plannedTurn db runId owner frame now = some (scope, planning) ↔
      ∃ run task, lockOwner db runId owner now = .ok (run, task) ∧ db.turns.get runId = none ∧
        planNew db run frame now = .ok (scope, planning) := by
  unfold plannedTurn
  cases lock : lockOwner db runId owner now with
  | error fault =>
    refine ⟨fun none => ?_, fun ⟨_, _, owned, _⟩ => ?_⟩
    · cases none
    · cases owned
  | ok owned =>
    obtain ⟨run, task⟩ := owned
    dsimp only
    by_cases free : db.turns.get runId = none
    · rw [if_pos free]
      refine ⟨fun planned => ⟨run, task, rfl, free, ?_⟩, fun ⟨other, _, same, _, done⟩ => ?_⟩
      · cases plan : planNew db run frame now with
        | error fault =>
          rw [plan] at planned
          cases planned
        | ok result =>
          rw [plan] at planned
          exact congrArg Except.ok (Option.some.inj planned)
      · obtain ⟨rfl, _⟩ := Prod.mk.inj (Except.ok.inj same)
        rw [done]
        rfl
    · rw [if_neg free]
      refine ⟨fun none => ?_, fun ⟨_, _, _, unplanned, _⟩ => absurd unplanned free⟩
      cases none

/-- A turn stores what it planned, or changes nothing. -/
theorem turn_cases (db : Db) (runId : Nat) (owner : Owner) (frame : IntentFrame) (now : Time) :
    (plannedTurn db runId owner frame now = none ∧
        (planFrame db runId owner frame now).toOption.getD db = db) ∨
      ∃ run task payload ordered safe planning, lockOwner db runId owner now = .ok (run, task) ∧
        run.id = runId ∧ db.turns.get run.id = none ∧
        Plans db run frame now payload ordered safe planning ∧
        plannedTurn db runId owner frame now =
          some (scopeOf db run payload now ordered safe, planning) ∧
        planFrame db runId owner frame now =
          .ok { planning.db with
            turns := db.turns.insertIgnore
              { inputId := run.id
                command := planning.command
                draftIds := planning.drafts.map (·.1)
                selectedDraftId := planning.selected } } := by
  cases planned : plannedTurn db runId owner frame now with
  | some result =>
    obtain ⟨scope, planning⟩ := result
    obtain ⟨run, task, owned, free, done⟩ := plannedTurn_eq_some.mp planned
    obtain ⟨payload, ordered, safe, plans, rfl⟩ := planNew_eq_ok.mp done
    obtain rfl : run.id = runId := Table.key_of_get (lockOwner_eq_ok.mp owned).1
    exact .inr ⟨run, task, payload, ordered, safe, planning, owned, rfl, free, plans, rfl,
      planFrame_new owned free plans⟩
  | none =>
    refine .inl ⟨rfl, ?_⟩
    cases stored : planFrame db runId owner frame now with
    | error fault => rfl
    | ok after =>
      obtain ⟨run, task, owned, rfl, ⟨_, same⟩ | ⟨free, payload, ordered, safe, planning, plans, _⟩⟩ :=
        planFrame_cases stored
      · exact same
      · have some := plannedTurn_eq_some.mpr ⟨run, task, owned, free,
          planNew_eq_ok.mpr ⟨payload, ordered, safe, plans, rfl⟩⟩
        rw [planned] at some
        cases some

/-- Where the planning of a turn ends, with the drafts that wait for an answer. -/
theorem Plans.tracked {run : NegotiationInput} {payload : ChatInput} {ordered : List Intent}
    {safe : Bool} {planning : Planning} {outstanding : List (Nat × String)}
    (refs : ∀ ref, boundRef db run payload now = some ref → ref.id < db.nextId)
    (below : db.drafts.Below db.nextId) (known : ∀ pair ∈ outstanding, pair.1 < db.nextId)
    (waits : ∀ pair ∈ outstanding, Waiting db pair.1)
    (answers : TurnAnswers db (scopeOf db run payload now ordered safe) ordered outstanding)
    (plans : Plans db run frame now payload ordered safe planning) :
    Tracked db (scopeOf db run payload now ordered safe) ordered outstanding ordered planning := by
  refine planIntents_induction
    (Tracked db (scopeOf db run payload now ordered safe) ordered outstanding)
    { writes := show DraftWrites db db from rfl
      looked := fun _ => .start below
      logged := rfl
      sound := fun _ none => absurd none List.not_mem_nil
      keys := fun _ none => absurd none List.not_mem_nil
      rows := fun _ none => absurd none List.not_mem_nil
      waits := fun pair member _ => waits pair member
      selected := fun id none => absurd none.symm (Option.some_ne_none id) }
    (fun processed intent rest planning plan split held planned => ?_) plans.done
  refine held.record refs below length_acting (fun intent member action => ?_)
    (fun intent member => ?_) known answers split planned
  · exact List.mem_filter.mpr ⟨member, decide_eq_true action⟩
  · exact (of_decide_eq_true (List.mem_filter.mp member).2).1

/-! ### What a conversation keeps -/

/-- What holds in a conversation in which every move heeds: the drafts with an open dependency
wait, and none of them was selected for the input that is executed. -/
structure Kept (db : Db) (outstanding : List (Nat × String)) : Prop where
  known : ∀ pair ∈ outstanding, pair.1 < db.nextId
  waits : ∀ pair ∈ outstanding, Waiting db pair.1
  planned : ∀ turn ∈ db.turns, ∃ run ∈ db.inputs, run.id = turn.inputId ∧
    run.inputSeq ≤ db.session.lastResolvedInputSeq + 1
  unselected : ∀ turn ∈ db.turns, ∀ run ∈ db.inputs, run.id = turn.inputId →
    run.inputSeq = db.session.lastResolvedInputSeq + 1 →
    ∀ pair ∈ outstanding, turn.selectedDraftId ≠ some pair.1

variable {run : NegotiationInput} {task : ModelExecutionTask} {draft : OfferDraft}
variable {outstanding : List (Nat × String)} {transaction : Transaction}

omit [Platform] in
/-- The run of an owner is the head of the queue. -/
theorem owned_head (ordered : Ordered db.queue)
    (owned : lockOwner db run.id owner now = .ok (run, task)) :
    run ∈ db.inputs ∧ run.inputSeq = db.session.lastResolvedInputSeq + 1 := by
  obtain ⟨found, ⟨_, held⟩, owns⟩ := lockOwner_eq_ok.mp owned
  have member := Table.mem_of_get found
  exact ⟨member, ordered.head run member _ held owns.2.1⟩

omit [Platform] in
/-- The draft that an owned run selected has no open dependency. -/
theorem Kept.open (kept : Kept db outstanding) (ordered : Ordered db.queue)
    (owned : lockOwner db run.id owner now = .ok (run, task))
    (selected : selectedDraft db run.id = some draft) :
    ∀ pair ∈ outstanding, pair.1 ≠ draft.id := by
  intro pair member same
  obtain ⟨listed, head⟩ := owned_head ordered owned
  obtain ⟨id, named, found⟩ := Option.bind_eq_some_iff.mp selected
  obtain ⟨turn, stored, chosen⟩ := Option.bind_eq_some_iff.mp named
  refine kept.unselected turn (Table.mem_of_get stored) run listed (Table.key_of_get stored).symm
    head pair member ?_
  rw [chosen, same, Table.key_of_get found]

/-- A recheck is made by the seller of the goods. -/
theorem recheckItem_owned {seller : String} {itemId : Nat}
    (done : recheckItem db seller itemId now = .ok after) : db.product.sellerId = seller := by
  unfold recheckItem ownedProduct at done
  simp only [bind_eq_ok, require_eq_ok] at done
  obtain ⟨_, _, _, _, _, ⟨_, owned, _⟩, _⟩ := done
  exact owned

/-- A transaction that plans no turn stores none. -/
theorem perform_turns (other : ¬ transaction.IsPlan)
    (done : db.perform transaction = .ok after) : after.turns = db.turns := by
  cases perform_effect done with
  | planned made => exact absurd (made ▸ trivial) other
  | business _ writes => rw [writes.frame]
  | repeated same => rw [same]
  | command _ writes => rw [writes.frame, writes.business.frame]
  | answered _ writes => rw [writes.frame, writes.drafts]
  | published _ writes => rw [writes.frame]
  | displayed _ _ _ _ _ _ frame => rw [frame]
  | edited _ writes | executed writes _ => rw [writes]
  | acknowledged _ frame => rw [frame, acknowledgeEvents_writes]
  | archived frame => rw [frame]
  | queued effect =>
    cases effect with
    | idle frame => rw [frame]
    | turned _ _ _ _ frame => rw [frame]
    | enqueued _ _ _ _ appended =>
      unfold newInput at appended
      simp only [bind_eq_ok, pure_eq_ok] at appended
      obtain ⟨_, _, _, _, _, _, rfl⟩ := appended
      rfl

/-- The drafts with an open dependency wait on, unless one of them is assessed again. -/
theorem Kept.waits_on (kept : Kept db outstanding) (ordered : Ordered db.queue)
    (shape : Shape db.deal) (other : ¬ transaction.IsPlan)
    (done : db.perform transaction = .ok after)
    (unchecked : ∀ seller itemId now, transaction = .recheckItem seller itemId now →
      ∀ item draft, db.verifications.get itemId = some item →
      db.drafts.get item.draftId = some draft →
      UsableDraft draft db.session now draft.version → ∀ pair ∈ outstanding, pair.1 ≠ draft.id) :
    ∀ pair ∈ outstanding, Waiting after pair.1 := by
  intro pair member draft found
  obtain ⟨old, listed, move⟩ := perform_drafts shape other done draft (Table.mem_of_get found)
  have here : old.id = pair.1 := move.id.symm.trans (Table.key_of_get found)
  have stored := Table.get_of_mem listed
  obtain ⟨unready, unsubmitted, marked⟩ := kept.waits pair member old (here ▸ stored)
  cases move with
  | kept => exact ⟨unready, unsubmitted, marked⟩
  | withdrawn => exact ⟨nofun, nofun, marked⟩
  | submitted _ owned quotes selects =>
    obtain rfl := selects
    exact absurd here.symm (kept.open ordered owned quotes.selected pair member)
  | rechecked made listed about usable =>
    exact absurd here.symm
      (unchecked _ _ _ made _ old listed (about ▸ stored) usable pair member)
  | reopened _ owned selected =>
    exact absurd here.symm (kept.open ordered owned selected pair member)

/-- Nothing that happens beside the turns changes what is kept. -/
theorem Kept.other {before after : World} {event : Event}
    (kept : Kept before.db outstanding) (reached : Reachable World.Step World.Initial before)
    (step : World.Step before event after) (unplanned : ¬ event.Plans)
    (heeds : Conversation.Heeds ⟨before, outstanding⟩ (.other event)) :
    Kept after.db outstanding := by
  have ordered := reachable_ordered reached
  rcases step.performs with same | ⟨transaction, done, source, _⟩
  · rw [same]
    exact kept
  have other : ¬ transaction.IsPlan := by
    rcases source with rfl | runner
    · exact unplanned
    · cases transaction with
      | planTurn => exact absurd runner id
      | _ => exact id
  have turns := perform_turns other done
  have advances := step.advances reached
  refine ⟨?_, ?_, ?_, ?_⟩
  · intro pair member
    exact (kept.known pair member).trans_le (perform_supply (reachable_shape reached) done)
  · refine kept.waits_on ordered (reachable_shape reached) other done ?_
    rintro seller itemId now rfl item draft found drafted usable
    rcases source with rfl | runner
    · exact heeds item draft found drafted (recheckItem_owned done) usable
    · exact absurd runner id
  · intro turn member
    obtain ⟨run, listed, key, place⟩ := kept.planned turn (turns ▸ member)
    obtain ⟨later, present, sent⟩ := run_stays ordered done listed
    obtain ⟨same, _, number, _⟩ := NegotiationInput.of_sent sent
    refine ⟨later, present, same.trans key, ?_⟩
    omega
  · intro turn member later present key head pair open_ chosen
    have member : turn ∈ before.db.turns := turns ▸ member
    obtain ⟨run, listed, named, place⟩ := kept.planned turn member
    obtain ⟨again, present_, sent⟩ := run_stays ordered done listed
    obtain ⟨same, _, number, _⟩ := NegotiationInput.of_sent sent
    have one : again = later := by
      have found := Table.get_of_mem present
      have found_ := Table.get_of_mem present_
      rw [key] at found
      rw [same, named] at found_
      exact Option.some.inj (found_.symm.trans found)
    refine kept.unselected turn member run listed named ?_ pair open_ chosen
    rw [one] at number
    omega

/-! ### Turns that answer -/

section

variable {payload : ChatInput} {ordered : List Intent} {safe : Bool} {planning : Planning}

omit [Platform] in
/-- What the turn answers is resolved in it. -/
theorem Tracked.resolved {scope : TurnScope} {dependency : String}
    (tracked : Tracked db scope ordered outstanding ordered planning)
    (answered : AnsweredIn db scope ordered dependency) : ResolvedIn planning.log dependency := by
  obtain ⟨question, member, named, asks, told⟩ := answered
  rw [← tracked.logged] at member
  obtain ⟨entry, listed, rfl⟩ := List.mem_map.mp member
  exact ⟨entry, listed, named, .inl (((tracked.sound entry listed).told asks).trans told)⟩

omit [Platform] in
/-- The draft of an intent whose dependencies are not all resolved waits. -/
theorem Tracked.declared_waits {scope : TurnScope}
    (tracked : Tracked db scope ordered outstanding ordered planning) {pair : Nat × String}
    (member : pair ∈ declared planning.log) (unresolved : ¬ ResolvedIn planning.log pair.2) :
    Waiting planning.db pair.1 ∧ ∃ row ∈ planning.db.drafts, row.id = pair.1 := by
  obtain ⟨entry, listed, member⟩ := List.mem_flatMap.mp member
  obtain ⟨draft, made, member⟩ := List.mem_flatMap.mp member
  obtain ⟨dependency, needed, rfl⟩ := List.mem_map.mp member
  have drafted : entry.draft = some draft := Option.mem_toList.mp made
  have marked : .dependencyUnresolved ∈ draft.2.missing :=
    ((tracked.sound entry listed).marked draft drafted).resolve_left fun all =>
      unresolved (tracked.resolved (all dependency needed))
  obtain ⟨row, found, missing, status⟩ := tracked.rows entry listed draft drafted
  refine ⟨fun other stored => ?_, row, Table.mem_of_get found, Table.key_of_get found⟩
  obtain rfl := Option.some.inj (found.symm.trans stored)
  have pending : row.status = .pending := by
    rw [status]
    exact if_neg fun none => by rw [none] at marked; cases marked
  rw [pending, missing]
  exact ⟨nofun, nofun, marked⟩

/-- The intent that a command is given for has all its answers. -/
theorem Plans.answered (below : db.drafts.Below db.nextId)
    (plans : Plans db run frame now payload ordered safe planning)
    (tracked : Tracked db (scopeOf db run payload now ordered safe) ordered outstanding ordered
      planning)
    (command : planning.command.kind ≠ .query) :
    ∀ intent ∈ ordered, intent.Acts (scopeOf db run payload now ordered safe) →
      ∀ dependency ∈ intent.dependsOn, ResolvedIn planning.log dependency := by
  intro intent member acts dependency needed
  rcases (plans.atMostOne below).2 with ⟨query, _⟩ | ⟨commanded, given⟩
  · rw [query] at command
    exact absurd rfl command
  · have among : intent ∈ ordered.filter fun intent =>
        intent.Acts (scopeOf db run payload now ordered safe) :=
      List.mem_filter.mpr ⟨member, decide_eq_true acts⟩
    rw [given.alone] at among
    obtain rfl := List.mem_singleton.mp among
    obtain ⟨entry, listed, rfl, ready⟩ := given.ready
    exact tracked.resolved (((tracked.sound entry listed).ready ready).2.2 dependency needed)

omit [Platform] in
theorem mem_stillOpen {log : List Entry} {pair : Nat × String} :
    pair ∈ stillOpen outstanding log ↔
      ¬ ResolvedIn log pair.2 ∧ (pair ∈ outstanding ∨ pair ∈ declared log) := by
  unfold stillOpen
  rw [List.mem_filter, List.mem_append, decide_eq_true_iff, and_comm]

omit [Platform] in
/-- Where nothing is planned the same dependencies stay open. -/
theorem stillOpen_nil (outstanding : List (Nat × String)) : stillOpen outstanding [] = outstanding := by
  have all : ∀ pair ∈ outstanding, decide (¬ ResolvedIn [] pair.2) = true :=
    fun pair _ => decide_eq_true fun ⟨_, listed, _⟩ => absurd listed List.not_mem_nil
  unfold stillOpen
  rw [show declared [] = [] from rfl, List.append_nil, List.filter_eq_self.mpr all]

/-- A turn that heeds keeps what is kept. -/
theorem Kept.planned_turn (kept : Kept db outstanding) (queue : Ordered db.queue)
    (grown : db.nextId ≤ planning.db.nextId) (below : db.drafts.Below db.nextId)
    (owned : lockOwner db run.id owner now = .ok (run, task)) (free : db.turns.get run.id = none)
    (plans : Plans db run frame now payload ordered safe planning)
    (tracked : Tracked db (scopeOf db run payload now ordered safe) ordered outstanding ordered
      planning) :
    Kept
      { planning.db with
        turns := db.turns.insertIgnore
          { inputId := run.id
            command := planning.command
            draftIds := planning.drafts.map (·.1)
            selectedDraftId := planning.selected } }
      (stillOpen outstanding planning.log) := by
  obtain ⟨listed, head⟩ := owned_head queue owned
  have inputs : planning.db.inputs = db.inputs := by
    rw [show planning.db = _ from tracked.writes]
  have session : planning.db.session = db.session := by
    rw [show planning.db = _ from tracked.writes]
  have waits : ∀ pair, ¬ ResolvedIn planning.log pair.2 →
      (pair ∈ outstanding ∨ pair ∈ declared planning.log) → Waiting planning.db pair.1 := by
    rintro pair unresolved (old | new)
    · exact tracked.waits pair old fun answered => unresolved (tracked.resolved answered)
    · exact (tracked.declared_waits new unresolved).1
  refine ⟨fun pair member => ?_, fun pair member => ?_, fun turn member => ?_,
    fun turn member other among key place pair waiting chosen => ?_⟩
  · obtain ⟨unresolved, old | new⟩ := mem_stillOpen.mp member
    · exact (kept.known pair old).trans_le grown
    · obtain ⟨row, present, key⟩ := (tracked.declared_waits new unresolved).2
      exact key ▸ (plans.atMostOne below).1 row present
  · obtain ⟨unresolved, among⟩ := mem_stillOpen.mp member
    exact waits pair unresolved among
  · rcases Table.mem_insertIgnore member with rfl | old
    · refine ⟨run, ?_, rfl, ?_⟩
      · exact inputs ▸ listed
      · exact session ▸ head.le
    · obtain ⟨other, among, key, place⟩ := kept.planned turn old
      refine ⟨other, ?_, key, ?_⟩
      · exact inputs ▸ among
      · exact session ▸ place
  · have among : other ∈ db.inputs := inputs ▸ among
    have place : other.inputSeq = db.session.lastResolvedInputSeq + 1 := session ▸ place
    rcases Table.mem_insertIgnore member with rfl | old
    · obtain ⟨unresolved, waiting⟩ := mem_stillOpen.mp waiting
      obtain ⟨entry, stored, planned, drafted, complete⟩ := tracked.selected pair.1 chosen
      obtain ⟨row, found, missing, _⟩ := tracked.rows entry stored _ drafted
      have marked := (waits pair unresolved waiting row found).2.2
      rw [missing, complete] at marked
      cases marked
    · obtain rfl := queue.numbered.once other among run listed (place.trans head.symm)
      have found := Table.get_of_mem old
      rw [← key, free] at found
      cases found

end

/-! ### Runs -/

/-- A turn with an owner is a step of the world. -/
theorem planFrame_step {world : World} {runId : Nat} {frame : IntentFrame}
    (below : world.db.drafts.Below world.db.nextId) (timely : world.clock ≤ now)
    (done : planFrame world.db runId owner frame now = .ok after) :
    ∃ event, World.Step world event { world with clock := now, db := after } := by
  obtain ⟨plan, stored⟩ := planFrame_refines below done
  refine ⟨.call (.planTurn runId owner plan now), ⟨timely, trivial⟩, id, ?_⟩
  have result : world.db.perform (.planTurn runId owner plan now) = .ok after := stored
  unfold World.next World.react World.settleTransaction
  dsimp only
  rw [result]
  rfl

/-- Time that passes is a step of the world: a request without an identifier is refused. -/
theorem idle_step (world : World) (timely : world.clock ≤ now) :
    ∃ event, World.Step world event { world with clock := now } := by
  refine ⟨.call (.enqueue "" "" (.typed { kind := .close }) none now), ⟨timely, trivial⟩, id, ?_⟩
  have refused : world.db.perform (.enqueue "" "" (.typed { kind := .close }) none now) =
      .error (.conflict "请求标识无效") := rfl
  unfold World.next World.react World.settleTransaction
  dsimp only
  rw [refused]
  rfl

/-- A move is a step of the world. -/
theorem Conversation.Step.refines {before after : Conversation} {move : Move}
    (reached : Reachable World.Step World.Initial before.world)
    (step : Conversation.Step before move after) :
    ∃ event, World.Step before.world event after.world := by
  obtain ⟨timely, allowed, rfl⟩ := step
  cases move with
  | other event => exact ⟨event, timely, allowed.1, rfl⟩
  | turn runId owner frame now =>
    show ∃ event, World.Step before.world event { before.world with clock := now, db := _ }
    cases done : planFrame before.world.db runId owner frame now with
    | ok after => exact planFrame_step (reachable_drafts_below reached) timely.1 done
    | error fault => exact idle_step before.world timely.1

/-- A move that heeds keeps what is kept, and its command has all its answers. -/
theorem Kept.step {before after : Conversation} {move : Move}
    (reached : Reachable World.Step World.Initial before.world)
    (kept : Kept before.world.db before.outstanding) (step : Conversation.Step before move after)
    (heeds : before.Heeds move) :
    Kept after.world.db after.outstanding ∧
      ∀ runId owner frame now scope planning, move = .turn runId owner frame now →
        plannedTurn before.world.db runId owner frame now = some (scope, planning) →
        planning.command.kind ≠ .query → ∀ intent ∈ frame.intents, intent.Acts scope →
        ∀ dependency ∈ intent.dependsOn, ResolvedIn planning.log dependency := by
  obtain ⟨timely, allowed, rfl⟩ := step
  cases move with
  | other event =>
    have step : World.Step before.world event (before.world.next event) :=
      ⟨timely, allowed.1, rfl⟩
    refine ⟨?_, ?_⟩
    · show Kept _ (stillOpen before.outstanding [])
      rw [stillOpen_nil]
      exact kept.other reached step allowed.2 heeds
    · intro _ _ _ _ _ _ turn
      cases turn
  | turn runId owner frame now =>
    have below := reachable_drafts_below reached
    unfold Conversation.next Conversation.worldAfter Conversation.log
    dsimp only
    rcases turn_cases before.world.db runId owner frame now with ⟨unplanned, same⟩ |
      ⟨run, task, payload, ordered, safe, planning, owned, rfl, free, plans, planned, done⟩
    · rw [unplanned, same]
      refine ⟨?_, fun _ _ _ _ _ _ turn some => ?_⟩
      · rw [Option.elim_none, stillOpen_nil]
        exact kept
      · obtain ⟨rfl, rfl, rfl, rfl⟩ := Move.turn.inj turn
        rw [unplanned] at some
        cases some
    · have found := (lockOwner_eq_ok.mp owned).1
      have tracked := plans.tracked
        (fun ref => boundRef_below (reachable_referred reached) (Table.mem_of_get found) plans.chat)
        below kept.known kept.waits
        (heeds run task payload ordered safe owned free plans.chat plans.checked)
      obtain ⟨plan, stored⟩ := planFrame_refines below done
      have performed : before.world.db.perform (.planTurn run.id owner plan now) = .ok _ := stored
      have grown := perform_supply (reachable_shape reached) performed
      rw [planned, done]
      refine ⟨kept.planned_turn (reachable_ordered reached) grown below owned free plans tracked,
        fun _ _ _ _ scope other turn some command intent member => ?_⟩
      obtain ⟨rfl, rfl, rfl, rfl⟩ := Move.turn.inj turn
      obtain ⟨rfl, rfl⟩ := Prod.mk.inj (Option.some.inj (planned.symm.trans some))
      have perm := validatedFor_perm (safeFrame_eq_ok.mp plans.checked).1
      exact plans.answered below tracked command intent (perm.mem_iff.mpr member)

theorem Conversation.reached {first last : Conversation}
    {history : List (Transition Conversation Move)} (initial : World.Initial first.world)
    (run : Run Conversation.Step first history last) :
    Reachable World.Step World.Initial last.world := by
  induction run with
  | start => exact .start initial
  | next _ taken inductionHypothesis =>
    obtain ⟨event, step⟩ := taken.refines inductionHypothesis
    exact inductionHypothesis.next step

end

/-! ### Two turns -/

section

variable [Platform]

/-- What happens beside the turns goes on with a run. -/
theorem Conversation.run_events {first : Conversation} {world : World}
    {outstanding : List (Nat × String)} {past : List (Transition Conversation Move)}
    {events : List Event} (run : Run Conversation.Step first past ⟨world, outstanding⟩)
    (scheduled : Scheduled world.clock events) (unplanned : ∀ event ∈ events, ¬ event.Plans) :
    ∃ history, Run Conversation.Step first (history ++ past) ⟨world.after events, outstanding⟩ ∧
      ∀ transition ∈ history, ∃ event ∈ events, transition.event = .other event := by
  induction events generalizing world past with
  | nil => exact ⟨[], run, fun _ none => absurd none List.not_mem_nil⟩
  | cons event rest inductionHypothesis =>
    obtain ⟨⟨timely, allowed⟩, later⟩ := scheduled
    have taken : Conversation.Step ⟨world, outstanding⟩ (.other event)
        ⟨world.next event, outstanding⟩ := by
      refine ⟨timely, ⟨allowed, unplanned event List.mem_cons_self⟩, ?_⟩
      unfold Conversation.next
      rw [show Conversation.log _ _ = [] from rfl, stillOpen_nil]
      rfl
    obtain ⟨history, whole, others⟩ := inductionHypothesis (run.next taken) later fun event member =>
      unplanned event (List.mem_cons_of_mem _ member)
    refine ⟨history ++ [⟨⟨world, outstanding⟩, .other event, ⟨world.next event, outstanding⟩⟩], ?_,
      fun transition member => ?_⟩
    · rw [List.append_assoc]
      exact whole
    · rcases List.mem_append.mp member with early | here
      · obtain ⟨event, listed, same⟩ := others transition early
        exact ⟨event, List.mem_cons_of_mem _ listed, same⟩
      · obtain rfl := List.mem_singleton.mp here
        exact ⟨event, List.mem_cons_self, rfl⟩

/-- A turn that comes to a plan goes on with a run. -/
theorem Conversation.run_plan {first : Conversation} {world : World} {events : List Event}
    {outstanding : List (Nat × String)} {past : List (Transition Conversation Move)}
    {runId : Nat} {owner : Owner} {frame : IntentFrame} {plan : TurnPlan} {now : Time}
    (run : Run Conversation.Step first past ⟨world.after events, outstanding⟩)
    (timely : (world.after events).clock ≤ now)
    (planned : planFrame (world.after events).db runId owner frame now =
      .ok (world.after (events ++ [.call (.planTurn runId owner plan now)])).db) :
    ∃ later, Run Conversation.Step first
      (⟨⟨world.after events, outstanding⟩, .turn runId owner frame now,
        ⟨world.after (events ++ [.call (.planTurn runId owner plan now)]), later⟩⟩ :: past)
      ⟨world.after (events ++ [.call (.planTurn runId owner plan now)]), later⟩ := by
  have next : world.after (events ++ [.call (.planTurn runId owner plan now)]) =
      { world.after events with
        clock := now
        db := (world.after (events ++ [.call (.planTurn runId owner plan now)])).db } := by
    unfold World.after
    rw [List.foldl_append]
    show World.next _ _ = _
    unfold World.next World.react World.settleTransaction
    dsimp only [List.foldl_cons, List.foldl_nil]
    split <;> rfl
  refine ⟨stillOpen outstanding ((plannedTurn (world.after events).db runId owner frame now).elim []
    (·.2.log)), run.next ⟨⟨timely, trivial⟩, trivial, ?_⟩⟩
  unfold Conversation.next Conversation.worldAfter Conversation.log
  dsimp only
  rw [planned]
  exact congrArg (Conversation.mk · _) next

end

end Negotiation
