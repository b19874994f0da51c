/-
This file follows a thread that was left with its first checkpoint. The engine
writes two checkpoints before the first node of a turn: the first one is given the
input and still shows the values of the turn before, the second one shows the input.
A process that dies, raises or loses its connection between the two leaves a thread
of which every later process says that it belongs to another run. The theorem says
that there is no way on from there: whatever is retried, stopped, published or
archived, the head stays at the head, without a reply.
-/

import SecondhandAgent.Recovery

namespace Negotiation

open Store

/-- The thread has the first checkpoint of the head and nobody writes the second one. -/
structure Torn (site : Site) (run : NegotiationInput) : Prop where
  known : site.Known run
  head : run.inputSeq = site.cursor + 1
  start : site.thread.next = some .start
  clean : ¬ site.HasEvidence run.id
  left : ∀ process, site.holder = some process → ∀ owner, process.position ≠ .entering owner
  stopping : ∀ process ∈ site.lost, process.run.id = run.id → ∀ pair,
    process.position = .stopping pair → pair.2 < (site.world.db.queue.leaseOf run.id).epoch
  inspected : ∀ process ∈ site.lost, process.run.id = run.id → ∀ pair snapshot,
    process.position = .inspected pair snapshot →
      pair.2 < (site.world.db.queue.leaseOf run.id).epoch ∨ snapshot = site.thread

section

variable [Platform] {site moved after : Site} {run : NegotiationInput} {process : GraphProcess}
variable {position : Option Position} {world : World}

namespace Torn

/-! ### What is left to a process -/

omit [Platform] in
/-- The thread does not show the head. -/
theorem foreign (torn : Torn site run) (sound : Threaded site) {other : NegotiationInput}
    (head : other.inputSeq = site.cursor + 1) : ¬ site.Shows other := by
  rintro ⟨values, found, belongs⟩
  have behind := sound.past torn.start values found
  have number : values.inputSeq = other.inputSeq := belongs.2.1
  omega

/-- Whoever reads the thread for the head fails. -/
theorem decides (torn : Torn site run) (sound : site.Sound) {other : NegotiationInput}
    (known : site.Known other) (head : other.inputSeq = site.cursor + 1) (owner : Owner) :
    site.decide other owner site.thread = .failing owner true := by
  have key : other.id = run.id := by
    obtain ⟨listed, member, same⟩ := torn.known
    have number : listed.inputSeq = other.inputSeq :=
      (NegotiationInput.of_sent same).2.2.1.trans (torn.head.trans head.symm)
    have theirs := known.of_seq (reachable_ordered sound.world) member number
    exact (congrArg (·.id) (theirs.symm.trans same) :)
  have apart := (sound.shows_or_apart known head).resolve_left (torn.foreign sound.threaded head)
  have enters := sound.enters_apart known head (key ▸ torn.clean) apart
  unfold Site.decide
  split
  · rw [if_pos]
    refine ⟨?_, fun same => ?_⟩
    · rw [torn.start]
      exact Option.some_ne_none _
    · obtain ⟨values, found, mine⟩ := Option.map_eq_some_iff.mp same
      exact (apart values found).2 mine
  · generalize site.entry other site.thread = entry at enters
    cases enters with
    | start _ through =>
      rw [torn.start] at through
      cases through
    | resume shows | finalize shows => exact absurd shows (torn.foreign sound.threaded head)
    | conflict => rfl

/-- Who holds the lock waits, has claimed the head, has read the thread or has failed. -/
theorem holder_at (torn : Torn site run) (sound : site.Sound)
    (holds : site.holder = some process) :
    process.position = .waiting ∨ (∃ owner, process.position = .claimed owner) ∨
      (∃ owner, process.position = .inspected owner site.thread ∧
        process.run.inputSeq = site.cursor + 1) ∨
      ∃ owner recovery, process.position = .failing owner recovery := by
  have at_ := (sound.holder process holds).2
  have pending := torn.start
  cases place : process.position with
  | waiting => exact .inl rfl
  | claimed owner => exact .inr (.inl ⟨owner, rfl⟩)
  | inspected owner snapshot =>
    rw [place] at at_
    obtain ⟨leads, rfl⟩ := at_
    exact .inr (.inr (.inl ⟨owner, rfl, leads.head⟩))
  | failing owner recovery => exact .inr (.inr (.inr ⟨owner, recovery, rfl⟩))
  | entering owner => exact absurd place (torn.left process holds owner)
  | starting | ended | closing =>
    rw [place] at at_
    first
      | rw [at_.2.2.1] at pending
        cases pending
      | rw [at_.2.2] at pending
        cases pending
  | running =>
    rw [place] at at_
    rw [at_.2.2.1] at pending
    exact absurd (Option.some.inj pending) at_.2.2.2
  | stopping =>
    rw [place] at at_
    obtain ⟨leads, _, shows⟩ := at_
    refine absurd (shows ?_) (torn.foreign sound.threaded leads.head)
    rw [pending]
    exact Option.some_ne_none _

/-- A process without a connection does not own the head where it could write. -/
theorem not_passes (torn : Torn site run) (sound : site.Sound) (member : process ∈ site.lost)
    {owner : Owner}
    (place : (∃ node, process.position = .running owner node) ∨
      process.position = .stopping owner) {now : Time} :
    ¬ Passes site.world.db process.run.id owner now := by
  intro passes
  have active : process.position.active = some owner := by
    rcases place with ⟨node, place⟩ | place <;> rw [place] <;> rfl
  have head := (sound.lost_passes member active passes).1
  have lost := sound.lost process member
  have at_ := lost.at_
  rcases place with ⟨node, place⟩ | place
  · rw [place] at at_
    rcases at_ with behind | shows
    · omega
    · exact torn.foreign sound.threaded head shows
  · obtain ⟨listed, present, same⟩ := torn.known
    have number : listed.inputSeq = process.run.inputSeq :=
      (NegotiationInput.of_sent same).2.2.1.trans (torn.head.trans head.symm)
    have theirs := lost.known.of_seq (reachable_ordered sound.world) present number
    have key : process.run.id = run.id := (congrArg (·.id) (theirs.symm.trans same) :)
    have older := torn.stopping process member key owner place
    have epoch := passes.epoch
    rw [key] at epoch
    omega

/-! ### Every step -/

omit [Platform] in
theorem advances (torn : Torn site run) (progress : Advances site.world world)
    (cursor : (site.at_ world).cursor = site.cursor) (quiet : ¬ Attested world.db run.id) :
    Torn (site.at_ world) run where
  known := torn.known.advances progress
  head := torn.head.trans (congrArg (· + 1) cursor.symm)
  start := torn.start
  clean := by
    rintro (traced | attested)
    · exact torn.clean (.inl traced)
    · exact quiet attested
  left := torn.left
  stopping process member same pair place :=
    (torn.stopping process member same pair place).trans_le (progress.epochs run.id)
  inspected process member same pair snapshot place :=
    (torn.inspected process member same pair snapshot place).imp_left fun older =>
      older.trans_le (progress.epochs run.id)

/-- A step of the system keeps the head where it is, unless it attests to it. -/
theorem steps (torn : Torn site run) (sound : site.Sound) {event : Event}
    (step : World.Step site.world event world)
    (silent : ∀ owner, MadeBy event run.id owner →
      ¬ Passes site.world.db run.id owner site.world.clock) :
    Torn (site.at_ world) run ∧ (site.at_ world).cursor = site.cursor := by
  have quiet : ¬ Attested world.db run.id := by
    intro attested
    rcases step.attests sound.world attested with old | ⟨owner, made, passes⟩
    · exact torn.clean (.inr old)
    · exact silent owner made passes
  have cursor : (site.at_ world).cursor = site.cursor := by
    rcases step.resolves sound.world with same | ⟨_, other, member, head, replied, _⟩
    · exact same
    · obtain ⟨listed, present, same⟩ := torn.known
      have number : other.inputSeq = listed.inputSeq :=
        head.trans (torn.head.symm.trans (NegotiationInput.of_sent same).2.2.1.symm)
      obtain rfl := (reachable_ordered sound.world).numbered.once other member listed present number
      have key : other.id = run.id := (congrArg (·.id) same :)
      refine absurd (.inr ?_) torn.clean
      rw [← key, attested_iff (reachable_formed sound.world)]
      exact .inr (.inr replied)
  exact ⟨torn.advances (step.progresses sound.world) cursor quiet, cursor⟩

omit [Platform] in
theorem withHolder (torn : Torn site run) {holder : Option GraphProcess}
    (left : ∀ process, holder = some process → ∀ owner, process.position ≠ .entering owner) :
    Torn { site with holder } run :=
  { torn with left }

omit [Platform] in
theorem withLost (torn : Torn site run) {lost : List GraphProcess}
    (kept : ∀ process ∈ lost, process.run.id = run.id → ∀ pair,
      (process.position = .stopping pair →
        pair.2 < (site.world.db.queue.leaseOf run.id).epoch) ∧
      ∀ snapshot, process.position = .inspected pair snapshot →
        pair.2 < (site.world.db.queue.leaseOf run.id).epoch ∨ snapshot = site.thread) :
    Torn { site with lost } run :=
  { torn with
    stopping := fun process member same pair => (kept process member same pair).1
    inspected := fun process member same pair => (kept process member same pair).2 }

/-- What a step leaves as it was. -/
def Stays (site after : Site) (run : NegotiationInput) : Prop :=
  Torn after run ∧ after.cursor = site.cursor ∧ after.thread = site.thread

omit [Platform] in
theorem stays (torn : Torn site run) : Stays site site run := ⟨torn, rfl, rfl⟩

/-- A transaction of a process that is not made by the owner of the head. -/
theorem calls (torn : Torn site run) (sound : site.Sound) {transaction : Transaction}
    (runs : ¬ transaction.OfRunner) (called : site.world.called transaction = some world)
    (silent : ∀ owner, transaction.Attests → transaction.byOwner = some (run.id, owner) →
      ¬ Passes site.world.db run.id owner site.world.clock) :
    Stays site (site.at_ world) run := by
  obtain ⟨next, cursor⟩ := torn.steps sound (World.called_step runs called) fun owner made => by
    obtain ⟨made, same, byOwner, attests⟩ := made
    obtain rfl := Event.call.inj same
    exact silent owner attests byOwner
  exact ⟨next, cursor, rfl⟩

/-- The process that holds the lock. -/
theorem holder_acts (torn : Torn site run) (sound : site.Sound)
    (holds : site.holder = some process) {action : TurnAction}
    (acted : process.act site true action = some (moved, position)) :
    Stays site (moved.placed process position) run := by
  have known := (sound.holder process holds).1
  have placed {base : Site} (stays : Stays site base run) {position : Option Position}
      (left : ∀ next, position = some next → ∀ owner, next ≠ .entering owner) :
      Stays site (base.placed process position) run := by
    refine ⟨stays.1.withHolder fun other same owner => ?_, stays.2⟩
    obtain ⟨next, there, rfl⟩ := Option.map_eq_some_iff.mp same
    exact left next there owner
  have gone {base : Site} (stays : Stays site base run) :
      Stays site (base.placed process none) run := placed stays fun _ same => by cases same
  have at_ {base : Site} (stays : Stays site base run) {next : Position}
      (left : ∀ owner, next ≠ .entering owner) :
      Stays site (base.placed process (some next)) run := placed stays fun _ same => by
    obtain rfl := Option.some.inj same
    exact left
  unfold GraphProcess.act at acted
  rcases torn.holder_at sound holds with place | ⟨owner, place⟩ | ⟨owner, place, head⟩ |
    ⟨owner, recovery, place⟩
  all_goals
    cases action <;> simp only [place] at acted
  case inl.claim now =>
    simp only [Option.bind_eq_bind, Option.bind_eq_some_iff] at acted
    obtain ⟨world, called, rest⟩ := acted
    have next := torn.calls sound (by exact id) called fun _ attests => attests.elim
    split at rest <;> obtain ⟨rfl, rfl⟩ := Prod.mk.inj (Option.some.inj rest)
    · exact at_ next fun _ => Position.noConfusion
    · exact gone next
    · exact gone next
  case inr.inl.inspect =>
    split at acted
    · obtain ⟨_, rest⟩ := guard_bind_eq_some.mp acted
      obtain ⟨rfl, rfl⟩ := Prod.mk.inj (Option.some.inj rest)
      exact at_ torn.stays fun _ => Position.noConfusion
    · obtain ⟨rfl, rfl⟩ := Prod.mk.inj (Option.some.inj acted)
      exact at_ torn.stays fun _ => Position.noConfusion
  case inr.inr.inl.decide =>
    obtain ⟨rfl, rfl⟩ := Prod.mk.inj (Option.some.inj acted)
    rw [torn.decides sound known head]
    exact at_ torn.stays fun _ => Position.noConfusion
  case inr.inr.inr.release checked settled retried =>
    simp only [Option.bind_eq_bind, Option.bind_eq_some_iff] at acted
    obtain ⟨world, called, rest⟩ := acted
    obtain ⟨rfl, rfl⟩ := Prod.mk.inj (Option.some.inj rest)
    exact gone (torn.calls sound (by exact id) called fun _ attests => attests.elim)
  case inl.crash | inr.inl.crash | inr.inr.inl.crash | inr.inr.inr.crash =>
    obtain ⟨rfl, rfl⟩ := Prod.mk.inj (Option.some.inj acted)
    exact gone torn.stays
  case inr.inl.raise | inr.inr.inl.raise | inr.inr.inr.raise =>
    obtain ⟨rfl, rfl⟩ := Prod.mk.inj (Option.some.inj acted)
    exact at_ torn.stays fun _ => Position.noConfusion
  all_goals cases acted

/-- The process that holds the lock loses its connection. -/
theorem disconnected (torn : Torn site run) (sound : site.Sound)
    (holds : site.holder = some process) :
    Stays site { site with holder := none, lost := process :: site.lost } run := by
  suffices kept : ∀ other ∈ process :: site.lost, other.run.id = run.id → ∀ pair,
      (other.position = .stopping pair → pair.2 < (site.world.db.queue.leaseOf run.id).epoch) ∧
      ∀ snapshot, other.position = .inspected pair snapshot →
        pair.2 < (site.world.db.queue.leaseOf run.id).epoch ∨ snapshot = site.thread from
    ⟨(torn.withLost kept).withHolder fun _ there => (by cases there), rfl, rfl⟩
  intro other member key pair
  rcases List.mem_cons.mp member with rfl | old
  · rcases torn.holder_at sound holds with place | ⟨owner, place⟩ | ⟨owner, place, _⟩ |
      ⟨owner, recovery, place⟩ <;> rw [place]
    · exact ⟨fun there => (by cases there), fun _ there => by cases there⟩
    · exact ⟨fun there => (by cases there), fun _ there => by cases there⟩
    · refine ⟨fun there => (by cases there), fun snapshot there => .inr ?_⟩
      cases there
      rfl
    · exact ⟨fun there => (by cases there), fun _ there => by cases there⟩
  · exact ⟨torn.stopping other old key pair, torn.inspected other old key pair⟩

/-- A process without a connection. -/
theorem lost_acts (torn : Torn site run) (sound : site.Sound) {index : Nat}
    (found : site.lost[index]? = some process) {action : TurnAction}
    (acted : process.act site false action = some (moved, position)) :
    Stays site { moved with lost := replaceLost site.lost index process position } run := by
  have member : process ∈ site.lost := List.mem_of_getElem? found
  have known := (sound.lost process member).known
  have gone {base : Site} (stays : Stays site base run) (same : base.lost = site.lost) :
      Stays site { base with lost := replaceLost site.lost index process none } run := by
    refine ⟨stays.1.withLost fun other listed key pair => ?_, stays.2⟩
    have old : other ∈ base.lost := same ▸ List.mem_of_mem_eraseIdx listed
    exact ⟨stays.1.stopping other old key pair, stays.1.inspected other old key pair⟩
  have at_ {base : Site} (stays : Stays site base run) (same : base.lost = site.lost)
      {next : Position} (bars : process.run.id = run.id → ∀ pair,
        (next = .stopping pair → pair.2 < (base.world.db.queue.leaseOf run.id).epoch) ∧
        ∀ snapshot, next = .inspected pair snapshot →
          pair.2 < (base.world.db.queue.leaseOf run.id).epoch ∨ snapshot = base.thread) :
      Stays site { base with lost := replaceLost site.lost index process (some next) } run := by
    refine ⟨stays.1.withLost fun other listed key pair => ?_, stays.2⟩
    rcases List.mem_or_eq_of_mem_set listed with old | rfl
    · have old : other ∈ base.lost := same ▸ old
      exact ⟨stays.1.stopping other old key pair, stays.1.inspected other old key pair⟩
    · exact bars key pair
  have placed {base : Site} (stays : Stays site base run) (same : base.lost = site.lost) :
      Stays site { base with lost := replaceLost site.lost index process (some process.position) }
        run := by
    have there : process ∈ base.lost := same ▸ member
    exact at_ stays same fun key pair =>
      ⟨stays.1.stopping process there key pair, stays.1.inspected process there key pair⟩
  -- Where neither a stop nor a reading is at stake.
  have elsewhere {base : Site} (stays : Stays site base run) (same : base.lost = site.lost)
      {next : Position} (stopping : ∀ pair, next ≠ .stopping pair)
      (inspected : ∀ pair snapshot, next ≠ .inspected pair snapshot) :
      Stays site { base with lost := replaceLost site.lost index process (some next) } run :=
    at_ stays same fun _ pair =>
      ⟨fun there => absurd there (stopping pair),
        fun snapshot there => absurd there (inspected pair snapshot)⟩
  have offline {Value : Type} {next : Unit → Option Value} {value : Value}
      (some_ : (guard (false = true) >>= next) = some value) : False := by
    obtain ⟨same, _⟩ := guard_bind_eq_some.mp some_
    cases same
  -- What the process calls in the name of the head, it calls as an owner of the past.
  have calls {transaction : Transaction} {owner : Owner}
      (byOwner : transaction.byOwner = some (process.run.id, owner))
      (place : (∃ node, process.position = .running owner node) ∨
        process.position = .stopping owner) :
      ∀ other, transaction.Attests → transaction.byOwner = some (run.id, other) →
        ¬ Passes site.world.db run.id other site.world.clock := by
    intro other _ by_
    obtain ⟨key, rfl⟩ := Prod.mk.inj (Option.some.inj (byOwner.symm.trans by_))
    rw [← key]
    exact torn.not_passes sound member place
  unfold GraphProcess.act at acted
  cases action with
  | claim now =>
    dsimp only at acted
    split at acted
    · simp only [Option.bind_eq_bind, Option.bind_eq_some_iff] at acted
      obtain ⟨world, called, rest⟩ := acted
      have next := torn.calls sound (by exact id) called fun _ attests => attests.elim
      split at rest <;> obtain ⟨rfl, rfl⟩ := Prod.mk.inj (Option.some.inj rest)
      · exact elsewhere next rfl (fun _ same => by cases same) fun _ _ same => by cases same
      · exact gone next rfl
      · exact gone next rfl
    · cases acted
  | inspect =>
    dsimp only at acted
    split at acted
    · split at acted
      · exact (offline acted).elim
      · obtain ⟨rfl, rfl⟩ := Prod.mk.inj (Option.some.inj acted)
        exact elsewhere torn.stays rfl (fun _ same => by cases same) fun _ _ same => by cases same
    · cases acted
  | decide =>
    dsimp only at acted
    split at acted
    · next owner snapshot place =>
      obtain ⟨rfl, rfl⟩ := Prod.mk.inj (Option.some.inj acted)
      refine at_ torn.stays rfl fun key pair => ?_
      rcases torn.inspected process member key owner snapshot place with older | rfl
      · constructor
        · intro same
          rw [Site.decide_active (by rw [same]; rfl : _ = some pair)]
          exact older
        · intro _ same
          rw [Site.decide_active (by rw [same]; rfl : _ = some pair)]
          exact .inl older
      · obtain ⟨listed, present, same⟩ := known
        have mine := torn.known.of_id present ((congrArg (·.id) same :).trans key)
        have head : process.run.inputSeq = site.cursor + 1 :=
          ((NegotiationInput.of_sent same).2.2.1.symm.trans
            (NegotiationInput.of_sent mine).2.2.1).trans torn.head
        rw [torn.decides sound ⟨listed, present, same⟩ head]
        exact ⟨fun there => (by cases there), fun _ there => by cases there⟩
    · cases acted
  | putInput | putStart | stop | conclude =>
    dsimp only at acted
    split at acted
    · exact (offline acted).elim
    · cases acted
  | call transaction =>
    dsimp only at acted
    split at acted
    · next owner node place =>
      obtain ⟨⟨byOwner, made⟩, rest⟩ := guard_bind_eq_some.mp acted
      simp only [Option.bind_eq_bind, Option.bind_eq_some_iff] at rest
      obtain ⟨world, called, rest⟩ := rest
      obtain ⟨rfl, rfl⟩ := Prod.mk.inj (Option.some.inj rest)
      exact placed (torn.calls sound (TurnNode.calls_plain made).1 called
        (calls byOwner (.inl ⟨node, place⟩))) rfl
    · next owner place =>
      obtain ⟨⟨byOwner, made⟩, rest⟩ := guard_bind_eq_some.mp acted
      simp only [Option.bind_eq_bind, Option.bind_eq_some_iff] at rest
      obtain ⟨world, called, rest⟩ := rest
      obtain ⟨rfl, rfl⟩ := Prod.mk.inj (Option.some.inj rest)
      have runs : ¬ transaction.OfRunner := by
        rcases made with made | made <;> exact (TurnNode.calls_plain made).1
      exact placed (torn.calls sound runs called (calls byOwner (.inr place))) rfl
    · cases acted
  | trace now =>
    dsimp only at acted
    split at acted
    · next owner node place =>
      obtain ⟨_, rest⟩ := guard_bind_eq_some.mp acted
      simp only [Option.bind_eq_bind, Option.bind_eq_some_iff] at rest
      obtain ⟨pair, owned, _⟩ := rest
      refine absurd (?_ : Passes site.world.db process.run.id owner now)
        (torn.not_passes sound member (.inl ⟨node, place⟩))
      cases locked : lockOwner site.world.db process.run.id owner now with
      | error =>
        rw [locked] at owned
        cases owned
      | ok pair => exact ⟨pair.1, pair.2, locked⟩
    · cases acted
  | finish next =>
    dsimp only at acted
    split at acted
    · obtain ⟨⟨same, _⟩, _⟩ := guard_bind_eq_some.mp acted
      cases same
    · cases acted
  | finalize checked settled =>
    dsimp only at acted
    split at acted
    · simp only [Option.bind_eq_bind, Option.bind_eq_some_iff] at acted
      obtain ⟨world, called, rest⟩ := acted
      have next := torn.calls sound (by exact id) called fun _ attests => attests.elim
      split at rest <;> obtain ⟨rfl, rfl⟩ := Prod.mk.inj (Option.some.inj rest)
      · exact gone next rfl
      · exact elsewhere next rfl (fun _ same => by cases same) fun _ _ same => by cases same
    · cases acted
  | raise =>
    obtain ⟨owner, _, same⟩ := Option.map_eq_some_iff.mp acted
    obtain ⟨rfl, rfl⟩ := Prod.mk.inj same
    exact elsewhere torn.stays rfl (fun _ same => by cases same) fun _ _ same => by cases same
  | release checked settled retried =>
    dsimp only at acted
    split at acted
    · simp only [Option.bind_eq_bind, Option.bind_eq_some_iff] at acted
      obtain ⟨world, called, rest⟩ := acted
      obtain ⟨rfl, rfl⟩ := Prod.mk.inj (Option.some.inj rest)
      exact gone (torn.calls sound (by exact id) called fun _ attests => attests.elim) rfl
    · cases acted
  | crash =>
    obtain ⟨rfl, rfl⟩ := Prod.mk.inj (Option.some.inj acted)
    exact gone torn.stays rfl

/-- The thread stays torn. -/
theorem step (torn : Torn site run) (sound : site.Sound) {event : SiteEvent}
    (moved : Site.Step site event after) : Stays site after run := by
  unfold Site.Step Site.react at moved
  cases event with
  | outside event =>
    obtain ⟨⟨timely, allowed, around⟩, rest⟩ := guard_bind_eq_some.mp moved
    obtain rfl := Option.some.inj rest
    obtain ⟨next, cursor⟩ := torn.steps sound ⟨timely, allowed, rfl⟩ fun owner made => by
      obtain ⟨transaction, rfl, _, attests⟩ := made
      refine absurd ?_ (Bool.eq_false_iff.mp around.1)
      cases transaction <;> first
        | exact attests.elim
        | rfl
    exact ⟨next, cursor, rfl⟩
  | open_ runId =>
    obtain ⟨_, rest⟩ := guard_bind_eq_some.mp moved
    simp only [Option.bind_eq_bind, Option.bind_eq_some_iff] at rest
    obtain ⟨other, _, stored, _, _, _, same⟩ := rest
    obtain rfl := Option.some.inj same
    refine ⟨torn.withHolder fun process holds owner => ?_, rfl, rfl⟩
    obtain rfl := Option.some.inj holds
    intro there
    cases there
  | holder action =>
    simp only [Option.bind_eq_bind, Option.bind_eq_some_iff, Prod.exists] at moved
    obtain ⟨process, holds, between, position, acted, same⟩ := moved
    obtain rfl := Option.some.inj same
    exact torn.holder_acts sound holds acted
  | lost index action =>
    simp only [Option.bind_eq_bind, Option.bind_eq_some_iff, Prod.exists] at moved
    obtain ⟨process, found, between, position, acted, same⟩ := moved
    obtain rfl := Option.some.inj same
    exact torn.lost_acts sound found acted
  | disconnect =>
    simp only [Option.bind_eq_bind, Option.bind_eq_some_iff] at moved
    obtain ⟨process, holds, same⟩ := moved
    obtain rfl := Option.some.inj same
    exact torn.disconnected sound holds
  | forget =>
    -- Nothing is unresolved in an archived session, so there would be no head.
    obtain ⟨⟨archived, _⟩, _⟩ := guard_bind_eq_some.mp moved
    have emptied := (reachable_tended sound.world).emptied archived
    obtain ⟨listed, member, same⟩ := torn.known
    have within := ((reachable_ordered sound.world).numbered.within listed member).2
    have next : site.world.db.queue.nextInputSeq = site.cursor + 1 := emptied.symm
    have number : listed.inputSeq = run.inputSeq := (NegotiationInput.of_sent same).2.2.1
    have head := torn.head
    omega

/-- A torn thread stays torn, whatever happens. -/
theorem run_stays (torn : Torn site run) (reached : Reachable Site.Step Site.Initial site)
    {history : List (Transition Site SiteEvent)} (ran : Run Site.Step site history after) :
    Stays site after run := by
  induction ran with
  | start => exact torn.stays
  | next earlier taken inductionHypothesis =>
    obtain ⟨there, cursor, thread⟩ := inductionHypothesis
    obtain ⟨next, cursor', thread'⟩ :=
      there.step (Site.reachable_sound (reached.extend earlier)) taken
    exact ⟨next, cursor'.trans cursor, thread'.trans thread⟩

end Torn

/-! ### How a thread is torn -/

/-- A process writes no more than the thread, and the first checkpoint only where it enters. -/
theorem GraphProcess.act_frame {connected : Bool} {action : TurnAction}
    (acted : process.act site connected action = some (moved, position)) :
    moved.holder = site.holder ∧ moved.lost = site.lost ∧
      (connected = false → moved.thread = site.thread) ∧
      (moved.thread.next = some .start →
        moved.thread = site.thread ∨ ∃ owner, position = some (.entering owner)) := by
  have rows {world : World} :
      { site with world }.holder = site.holder ∧ { site with world }.lost = site.lost ∧
        (connected = false → { site with world }.thread = site.thread) ∧
        ({ site with world }.thread.next = some .start →
          { site with world }.thread = site.thread ∨ ∃ owner, position = some (.entering owner)) :=
    ⟨rfl, rfl, fun _ => rfl, fun _ => .inl rfl⟩
  unfold GraphProcess.act at acted
  cases action with
  | claim now =>
    dsimp only at acted
    split at acted
    · simp only [Option.bind_eq_bind, Option.bind_eq_some_iff] at acted
      obtain ⟨world, _, rest⟩ := acted
      split at rest <;> obtain ⟨rfl, rfl⟩ := Prod.mk.inj (Option.some.inj rest) <;> exact rows
    · cases acted
  | inspect =>
    dsimp only at acted
    split at acted
    · split at acted
      · obtain ⟨_, rest⟩ := guard_bind_eq_some.mp acted
        obtain ⟨rfl, rfl⟩ := Prod.mk.inj (Option.some.inj rest)
        exact rows
      · obtain ⟨rfl, rfl⟩ := Prod.mk.inj (Option.some.inj acted)
        exact rows
    · cases acted
  | decide =>
    dsimp only at acted
    split at acted
    · obtain ⟨rfl, rfl⟩ := Prod.mk.inj (Option.some.inj acted)
      exact rows
    · cases acted
  | putInput =>
    dsimp only at acted
    split at acted
    · obtain ⟨there, rest⟩ := guard_bind_eq_some.mp acted
      obtain ⟨rfl, rfl⟩ := Prod.mk.inj (Option.some.inj rest)
      exact ⟨rfl, rfl, fun gone => (by rw [there] at gone; cases gone), fun _ => .inr ⟨_, rfl⟩⟩
    · cases acted
  | putStart =>
    dsimp only at acted
    split at acted
    · obtain ⟨there, rest⟩ := guard_bind_eq_some.mp acted
      obtain ⟨rfl, rfl⟩ := Prod.mk.inj (Option.some.inj rest)
      refine ⟨rfl, rfl, fun gone => (by rw [there] at gone; cases gone), fun start => ?_⟩
      exact absurd (Option.some.inj start) (TurnNode.first_ne_start _)
    · cases acted
  | call transaction =>
    dsimp only at acted
    split at acted
    · obtain ⟨_, rest⟩ := guard_bind_eq_some.mp acted
      simp only [Option.bind_eq_bind, Option.bind_eq_some_iff] at rest
      obtain ⟨world, _, rest⟩ := rest
      obtain ⟨rfl, rfl⟩ := Prod.mk.inj (Option.some.inj rest)
      exact rows
    · obtain ⟨_, rest⟩ := guard_bind_eq_some.mp acted
      simp only [Option.bind_eq_bind, Option.bind_eq_some_iff] at rest
      obtain ⟨world, _, rest⟩ := rest
      obtain ⟨rfl, rfl⟩ := Prod.mk.inj (Option.some.inj rest)
      exact rows
    · cases acted
  | trace now =>
    dsimp only at acted
    split at acted
    · obtain ⟨_, rest⟩ := guard_bind_eq_some.mp acted
      simp only [Option.bind_eq_bind, Option.bind_eq_some_iff] at rest
      obtain ⟨_, _, rest⟩ := rest
      obtain ⟨rfl, rfl⟩ := Prod.mk.inj (Option.some.inj rest)
      exact ⟨rfl, rfl, fun _ => rfl, fun _ => .inl rfl⟩
    · cases acted
  | finish next =>
    dsimp only at acted
    split at acted
    · obtain ⟨⟨there, onward⟩, rest⟩ := guard_bind_eq_some.mp acted
      simp only [Option.bind_eq_bind, Option.bind_eq_some_iff] at rest
      obtain ⟨_, _, _, _, rest⟩ := rest
      obtain ⟨rfl, rfl⟩ := Prod.mk.inj (Option.some.inj rest)
      refine ⟨rfl, rfl, fun gone => (by rw [there] at gone; cases gone), fun start => ?_⟩
      obtain rfl : next = some .start := start
      exact absurd onward (TurnNode.start_not_mem _ _)
    · cases acted
  | stop =>
    dsimp only at acted
    split at acted
    · obtain ⟨there, rest⟩ := guard_bind_eq_some.mp acted
      simp only [Option.bind_eq_bind, Option.bind_eq_some_iff] at rest
      obtain ⟨_, _, rest⟩ := rest
      obtain ⟨rfl, rfl⟩ := Prod.mk.inj (Option.some.inj rest)
      exact ⟨rfl, rfl, fun gone => (by rw [there] at gone; cases gone), fun start => by cases start⟩
    · cases acted
  | conclude =>
    dsimp only at acted
    split at acted
    · obtain ⟨_, rest⟩ := guard_bind_eq_some.mp acted
      simp only [Option.bind_eq_bind, Option.bind_eq_some_iff] at rest
      obtain ⟨_, _, rest⟩ := rest
      obtain ⟨rfl, rfl⟩ := Prod.mk.inj (Option.some.inj rest)
      exact rows
    · cases acted
  | finalize checked settled =>
    dsimp only at acted
    split at acted
    · simp only [Option.bind_eq_bind, Option.bind_eq_some_iff] at acted
      obtain ⟨world, _, rest⟩ := acted
      split at rest <;> obtain ⟨rfl, rfl⟩ := Prod.mk.inj (Option.some.inj rest) <;> exact rows
    · cases acted
  | raise =>
    obtain ⟨_, _, same⟩ := Option.map_eq_some_iff.mp acted
    obtain ⟨rfl, rfl⟩ := Prod.mk.inj same
    exact rows
  | release checked settled retried =>
    dsimp only at acted
    split at acted
    · simp only [Option.bind_eq_bind, Option.bind_eq_some_iff] at acted
      obtain ⟨world, _, rest⟩ := acted
      obtain ⟨rfl, rfl⟩ := Prod.mk.inj (Option.some.inj rest)
      exact rows
    · cases acted
  | crash =>
    obtain ⟨rfl, rfl⟩ := Prod.mk.inj (Option.some.inj acted)
    exact rows

/-- Whoever is between the two checkpoints leaves the thread torn with the next step that is not
the second checkpoint. -/
theorem Site.Sound.tears (sound : site.Sound) (holds : site.holder = some process) {owner : Owner}
    (place : process.position = .entering owner) {holder : Option GraphProcess}
    {lost : List GraphProcess}
    (left : ∀ other, holder = some other → ∀ pair, other.position ≠ .entering pair)
    (members : ∀ other ∈ lost, other ∈ site.lost ∨ other.position = .entering owner) :
    Torn { site with holder, lost } process.run := by
  obtain ⟨known, at_⟩ := sound.holder process holds
  rw [place] at at_
  obtain ⟨leads, clean, start⟩ := at_
  have older : ∀ other ∈ lost, other.run.id = process.run.id → ∀ pair,
      other.position.active = some pair →
        pair.2 < (site.world.db.queue.leaseOf process.run.id).epoch := by
    intro other member key pair active
    rcases members other member with old | there
    · exact (leads.older other old pair active key).trans_le leads.epoch
    · rw [there] at active
      cases active
  exact
    { known, head := leads.head, start, clean, left
      stopping := fun other member key pair there =>
        older other member key pair (by rw [there]; rfl)
      inspected := fun other member key pair snapshot there =>
        .inl (older other member key pair (by rw [there]; rfl)) }

/-- A first checkpoint is about to be followed by the second one, or the thread is torn. -/
def Site.Between (site : Site) : Prop :=
  site.thread.next = some .start →
    (∃ process owner, site.holder = some process ∧ process.position = .entering owner) ∨
      ∃ run, Torn site run

theorem Site.Between.step {event : SiteEvent} (between : site.Between) (sound : site.Sound)
    (moved : Site.Step site event after) : after.Between := by
  intro start
  by_cases torn : ∃ run, Torn site run
  · obtain ⟨run, torn⟩ := torn
    exact .inr ⟨run, (torn.step sound moved).1⟩
  have entering (there : site.thread.next = some .start) :
      ∃ process owner, site.holder = some process ∧ process.position = .entering owner :=
    (between there).resolve_right torn
  unfold Site.Step Site.react at moved
  cases event with
  | outside event =>
    obtain ⟨_, rest⟩ := guard_bind_eq_some.mp moved
    obtain rfl := Option.some.inj rest
    exact .inl (entering start)
  | open_ runId =>
    obtain ⟨free, rest⟩ := guard_bind_eq_some.mp moved
    simp only [Option.bind_eq_bind, Option.bind_eq_some_iff] at rest
    obtain ⟨_, _, _, _, _, _, same⟩ := rest
    obtain rfl := Option.some.inj same
    obtain ⟨_, _, holds, _⟩ := entering start
    rw [free] at holds
    cases holds
  | holder action =>
    simp only [Option.bind_eq_bind, Option.bind_eq_some_iff, Prod.exists] at moved
    obtain ⟨process, holds, written, position, acted, same⟩ := moved
    obtain rfl := Option.some.inj same
    rcases (GraphProcess.act_frame acted).2.2.2 start with same | ⟨owner, rfl⟩
    · have there : site.thread.next = some .start := same ▸ start
      obtain ⟨other, owner, mine, place⟩ := entering there
      obtain rfl := Option.some.inj (holds.symm.trans mine)
      refine .inr ⟨process.run, ?_⟩
      unfold GraphProcess.act at acted
      cases action <;> simp only [place] at acted
      case putStart =>
        obtain ⟨_, rest⟩ := guard_bind_eq_some.mp acted
        obtain ⟨rfl, rfl⟩ := Prod.mk.inj (Option.some.inj rest)
        exact absurd (Option.some.inj start) (TurnNode.first_ne_start _)
      case raise =>
        obtain ⟨rfl, rfl⟩ := Prod.mk.inj (Option.some.inj acted)
        refine sound.tears holds place (fun next here pair => ?_) fun _ => .inl
        obtain rfl := Option.some.inj here
        intro there
        cases there
      case crash =>
        obtain ⟨rfl, rfl⟩ := Prod.mk.inj (Option.some.inj acted)
        exact sound.tears holds place (fun _ here => by cases here) fun _ => .inl
      all_goals cases acted
    · exact .inl ⟨_, owner, rfl, rfl⟩
  | lost index action =>
    simp only [Option.bind_eq_bind, Option.bind_eq_some_iff, Prod.exists] at moved
    obtain ⟨process, _, written, position, acted, same⟩ := moved
    obtain rfl := Option.some.inj same
    obtain ⟨holder, _, thread, _⟩ := GraphProcess.act_frame acted
    have before : site.thread.next = some .start := thread rfl ▸ start
    obtain ⟨other, owner, holds, place⟩ := entering before
    exact .inl ⟨other, owner, holder.trans holds, place⟩
  | disconnect =>
    simp only [Option.bind_eq_bind, Option.bind_eq_some_iff] at moved
    obtain ⟨process, holds, same⟩ := moved
    obtain rfl := Option.some.inj same
    obtain ⟨other, owner, mine, place⟩ := entering start
    obtain rfl := Option.some.inj (holds.symm.trans mine)
    refine .inr ⟨process.run, sound.tears holds place (fun _ here => by cases here) ?_⟩
    intro next member
    rcases List.mem_cons.mp member with rfl | old
    · exact .inr place
    · exact .inl old
  | forget =>
    obtain ⟨_, same⟩ := guard_bind_eq_some.mp moved
    obtain rfl := Option.some.inj same
    cases start

theorem Site.reachable_between (reached : Reachable Site.Step Site.Initial site) :
    site.Between := by
  refine (reached.invariant (fun site => site.Sound ∧ site.Between) (fun site initial => ?_)
    fun before event after both step => ⟨both.1.step step, both.2.step both.1 step⟩).2
  refine ⟨Site.reachable_sound (.start initial), ?_⟩
  rw [initial.2]
  rintro ⟨⟩

/-! ### A torn thread blocks its session -/

/-- A thread with the first checkpoint only, which no process is about to complete, blocks its
session: there is a head, and in every later state it is the head still and has no reply, the
thread is the same, the session is not archived, and every process that has read the thread gives
up. -/
theorem torn_threads_block (reached : Reachable Site.Step Site.Initial site)
    (start : site.thread.next = some .start)
    (left : ∀ process, site.holder = some process → ∀ owner, process.position ≠ .entering owner) :
    ∃ head ∈ site.world.db.inputs, head.inputSeq = site.cursor + 1 ∧
      ∀ history after, Run Site.Step site history after →
        after.cursor = site.cursor ∧ after.thread = site.thread ∧
          after.world.db.reply head.id = none ∧ ¬ after.HasEvidence head.id ∧
          after.world.db.session.archivedAt = none ∧
          ∀ process owner snapshot, after.holder = some process →
            process.position = .inspected owner snapshot →
              after.decide process.run owner snapshot = .failing owner true := by
  have sound := Site.reachable_sound reached
  obtain ⟨process, owner, holds, place⟩ | ⟨run, torn⟩ := Site.reachable_between reached start
  · exact absurd place (left process holds owner)
  obtain ⟨head, member, same⟩ := torn.known
  have key : head.id = run.id := (congrArg (·.id) same :)
  have number : head.inputSeq = run.inputSeq := (NegotiationInput.of_sent same).2.2.1
  refine ⟨head, member, number.trans torn.head, fun history after ran => ?_⟩
  obtain ⟨later, cursor, thread⟩ := torn.run_stays reached ran
  have laterSound := Site.reachable_sound (reached.extend ran)
  have clean : ¬ after.HasEvidence head.id := key ▸ later.clean
  refine ⟨cursor, thread, ?_, clean, ?_, fun process owner snapshot holds place => ?_⟩
  · by_contra replied
    refine clean (.inr ?_)
    rw [attested_iff (reachable_formed laterSound.world)]
    exact .inr (.inr replied)
  · by_contra archived
    have emptied := (reachable_tended laterSound.world).emptied archived
    obtain ⟨listed, present, there⟩ := later.known
    have within := ((reachable_ordered laterSound.world).numbered.within listed present).2
    have next : after.world.db.queue.nextInputSeq = after.cursor + 1 := emptied.symm
    have place : listed.inputSeq = run.inputSeq := (NegotiationInput.of_sent there).2.2.1
    have last := later.head
    omega
  · obtain ⟨known, at_⟩ := laterSound.holder process holds
    rw [place] at at_
    obtain ⟨leads, rfl⟩ := at_
    exact later.decides laterSound known leads.head owner

end

/-- The process dies between the two checkpoints. -/
def tearing : List SiteEvent := reading ++ [.holder .decide, .holder .putInput, .holder .crash]

/-- When the lease has run out, another process claims the input and reads the thread. -/
def retrying : List SiteEvent :=
  [.open_ 1, .holder (.claim (seconds 40)), .holder .inspect]

attribute [local instance] samplePlatform in
theorem torn_threads_block_retried :
    ∃ torn site process owner snapshot, sampleSite.after tearing = some torn ∧
      torn.after retrying = some site ∧ site.holder = some process ∧
      process.position = .inspected owner snapshot ∧
      site.decide process.run owner snapshot = .failing owner true := by
  have there : Found (sampleSite.after tearing) fun torn =>
      torn.thread.next = some .start ∧ torn.holder.isNone = true ∧
        Found (torn.after retrying) fun site =>
          Found site.holder fun process => process.position.seen.isSome = true := by
    decide +kernel
  obtain ⟨torn, tears, start, free, later⟩ := (found_iff _ _).mp there
  obtain ⟨site, leads, holding⟩ := (found_iff _ _).mp later
  obtain ⟨process, holds, seen⟩ := (found_iff _ _).mp holding
  obtain ⟨⟨owner, snapshot⟩, seen⟩ := Option.isSome_iff_exists.mp seen
  have place := Position.of_seen seen
  obtain ⟨past, before⟩ := Site.run_after (.start sampleSite) tears
  obtain ⟨history, ran⟩ := Site.run_after (.start torn) leads
  obtain ⟨_, _, _, blocks⟩ := torn_threads_block ⟨sampleSite, past, sampleSite_initial, before⟩
    start fun other held => by
      rw [Option.isNone_iff_eq_none.mp free] at held
      cases held
  obtain ⟨_, _, _, _, _, fails⟩ := blocks history site ran
  exact ⟨torn, site, process, owner, snapshot, tears, leads, holds, place,
    fails process owner snapshot holds place⟩

end Negotiation
