/-
This file counts the rounds of a negotiation. A round is a buyer offer: the
counter of the session and the number of the buyer's offers grow together, and
a transaction adds a buyer offer only when the counter it found was below the
limit of the policy it found. Only the placing of an offer moves either, so
that the account is kept deed by deed.
-/

import SecondhandAgent.Grounds

namespace Negotiation

open Store Deal

/-! ### Buyer offers -/

/-- How many offers the buyer made. -/
def buyerOffers (offers : Table Offer.id) : Nat :=
  offers.rows.countP fun offer => offer.proposer = .buyer

theorem buyerOffers_eq_cores (offers : Table Offer.id) :
    buyerOffers offers = (offerCores offers).countP fun offer => offer.proposer = .buyer := by
  unfold buyerOffers offerCores
  rw [List.countP_map]
  rfl

/-- Settling an offer leaves the number of the buyer's offers alone. -/
theorem Settles.buyerOffers {before after : Db} (settles : Settles before after) :
    buyerOffers after.offers = buyerOffers before.offers := by
  rw [buyerOffers_eq_cores, buyerOffers_eq_cores, settles.offers]

theorem buyerOffers_insertIgnore {offers : Table Offer.id} {offer : Offer}
    (free : offers.get offer.id = none) :
    buyerOffers (offers.insertIgnore offer) =
      buyerOffers offers + if offer.proposer = .buyer then 1 else 0 := by
  unfold buyerOffers
  rw [Table.rows_insertIgnore free, List.countP_cons]
  by_cases buyer : offer.proposer = .buyer <;> simp [buyer]

/-! ### What an offer that is placed adds -/

/-- The offers after a placement: the new one of the buyer, and the counter-offer of the agent
if there is one. -/
inductive Added (before : Table Offer.id) (offer : Offer) : Table Offer.id → Prop
  | alone {placed : Offer} (same : placed.core = offer.core) :
      Added before offer (before.insertIgnore placed)
  | countered {placed counter : Offer} (same : placed.core = offer.core)
      (agent : counter.proposer = .agent)
      (free : (before.insertIgnore placed).get counter.id = none) :
      Added before offer ((before.insertIgnore placed).insertIgnore counter)

theorem core_proposer {one two : Offer} (same : one.core = two.core) :
    one.proposer = two.proposer := by
  have kept : one.core.proposer = two.core.proposer := congrArg Offer.proposer same
  exact kept

section

variable {before after : Table Offer.id} {offer : Offer}

/-- One buyer offer is added. -/
theorem Added.buyerOffers (added : Added before offer after) (buyer : offer.proposer = .buyer)
    (free : before.get offer.id = none) : buyerOffers after = buyerOffers before + 1 := by
  cases added with
  | alone same =>
    rw [buyerOffers_insertIgnore ((core_id same).symm ▸ free),
      if_pos ((core_proposer same).trans buyer)]
  | countered same agent next =>
    rw [buyerOffers_insertIgnore next,
      buyerOffers_insertIgnore ((core_id same).symm ▸ free),
      if_pos ((core_proposer same).trans buyer), agent]
    rfl

/-- Every other offer of the buyer was there before. -/
theorem Added.others (added : Added before offer after) {other : Offer} (member : other ∈ after)
    (buyer : other.proposer = .buyer) : other ∈ before ∨ other.core = offer.core := by
  cases added with
  | alone same =>
    rcases Table.mem_insertIgnore member with rfl | old
    · exact .inr same
    · exact .inl old
  | countered same agent next =>
    rcases Table.mem_insertIgnore member with rfl | earlier
    · rw [agent] at buyer
      exact absurd buyer OfferProposer.noConfusion
    · rcases Table.mem_insertIgnore earlier with rfl | old
      · exact .inr same
      · exact .inl old

/-- The new offer is there, and the earlier ones stay. -/
theorem Added.kept (added : Added before offer after) (free : before.get offer.id = none) :
    (∃ placed ∈ after, placed.core = offer.core) ∧ ∀ old ∈ before, old ∈ after := by
  cases added with
  | @alone placed same =>
    have absent : before.get placed.id = none := (core_id same).symm ▸ free
    exact ⟨⟨placed, Table.mem_insertIgnore_self absent, same⟩,
      fun old => Table.mem_insertIgnore_of_mem⟩
  | @countered placed counter same agent next =>
    have absent : before.get placed.id = none := (core_id same).symm ▸ free
    exact ⟨⟨placed, Table.mem_insertIgnore_of_mem (Table.mem_insertIgnore_self absent), same⟩,
      fun old member => Table.mem_insertIgnore_of_mem (Table.mem_insertIgnore_of_mem member)⟩

end

section

variable [Platform] {db after : Db} {now : Time}

/-- A placement adds its offer and one round. -/
theorem Placed.added {offer : Offer} {authorization : OfferAuthorization}
    {counterTerms : Option Terms} {result : Result}
    (placed : Placed db offer authorization counterTerms now after result) :
    Added db.offers offer after.offers ∧
      after.session.roundCount = db.session.roundCount + 1 ∧ after.policy = db.policy := by
  cases placed with
  | accepted _ => exact ⟨.alone rfl, rfl, rfl⟩
  | asked _ _ _ _ _ _ => exact ⟨.alone rfl, rfl, rfl⟩
  | refused _ _ _ => exact ⟨.alone rfl, rfl, rfl⟩
  | countered _ _ _ made free _ =>
    obtain ⟨_, _, agent, _⟩ := newOffer_core made
    exact ⟨.countered rfl agent free, rfl, rfl⟩

/-! ### Rounds -/

/-- The account of the rounds: every buyer offer is one. -/
def RoundsCounted (db : Db) : Prop := db.session.roundCount = buyerOffers db.offers

/-- What the deeds of one transaction do to the rounds: the counter does not fall, the policy
is the one that was found, and a buyer offer that is new was made below its limit. -/
structure Rounds (before after : Db) : Prop where
  counted : RoundsCounted before → RoundsCounted after
  grown : before.session.roundCount ≤ after.session.roundCount
  policy : after.policy = before.policy
  limited : ∀ offer ∈ after.offers, offer.proposer = .buyer →
    (∃ old ∈ before.offers, old.core = offer.core) ∨
      before.session.roundCount < before.policy.maxRounds

omit [Platform] in
theorem Rounds.refl (db : Db) : Rounds db db :=
  ⟨id, le_rfl, rfl, fun offer member _ => .inl ⟨offer, member, rfl⟩⟩

omit [Platform] in
theorem Rounds.trans {first second third : Db} (early : Rounds first second)
    (late : Rounds second third) : Rounds first third where
  counted start := late.counted (early.counted start)
  grown := early.grown.trans late.grown
  policy := late.policy.trans early.policy
  limited offer member buyer := by
    rcases late.limited offer member buyer with ⟨middle, found, same⟩ | below
    · rcases early.limited middle found ((core_proposer same).trans buyer) with
        ⟨old, known, core⟩ | below
      · exact .inl ⟨old, known, core.trans same⟩
      · exact .inr below
    · rw [early.policy] at below
      exact .inr (Nat.lt_of_le_of_lt early.grown below)

omit [Platform] in
/-- What leaves the offers and the counter alone leaves the rounds alone. -/
theorem Rounds.same {before : Db} (offers : offerCores after.offers = offerCores before.offers)
    (count : after.session.roundCount = before.session.roundCount)
    (policy : after.policy = before.policy) : Rounds before after where
  counted start := by
    unfold RoundsCounted at start ⊢
    rw [count, start, buyerOffers_eq_cores, buyerOffers_eq_cores, offers]
  grown := count.ge
  policy := policy
  limited offer member _ := by
    have listed : offer.core ∈ offerCores before.offers := offers ▸ listed_offer member
    obtain ⟨old, found, same⟩ := List.mem_map.mp listed
    exact .inl ⟨old, found, same⟩

theorem Placed.rounds {offer : Offer} {authorization : OfferAuthorization}
    {counterTerms : Option Terms} {result : Result} (buyer : offer.proposer = .buyer)
    (free : db.offers.get offer.id = none)
    (limit : db.session.roundCount < db.policy.maxRounds)
    (placed : Placed db offer authorization counterTerms now after result) : Rounds db after := by
  obtain ⟨added, count, policy⟩ := placed.added
  refine ⟨fun start => ?_, by rw [count]; exact Nat.le_succ _, policy, fun _ _ _ => .inr limit⟩
  unfold RoundsCounted at start ⊢
  rw [count, start, added.buyerOffers buyer free]

theorem Deed.rounds (deed : Deed now db after) : Rounds db after := by
  cases deed with
  | settled settles =>
    refine .same settles.offers ?_ ?_ <;> rw [settles.frame]
  | quoted _ _ => exact .same rfl rfl rfl
  | placed limit offered free _ placed =>
    obtain ⟨_, _, buyer, _⟩ := newOffer_core offered
    exact placed.rounds buyer free limit
  | based _ _ _ recorded =>
    unfold recordBasis at recorded
    simp only [bind_eq_ok, pure_eq_ok] at recorded
    obtain ⟨offerId, _, rfl⟩ := recorded
    rw [limitApproval_frame]
    exact .same rfl rfl rfl

theorem Deeds.rounds (deeds : Deeds now db after) : Rounds db after :=
  deeds.keeps (Rounds db) (fun _ _ deed earlier => earlier.trans deed.rounds) (.refl db)

/-- What every transaction does to the rounds. The policy it finds is the one whose limit
counts, and only an edit of the seller leaves another one. -/
theorem perform_rounds {transaction : Transaction} (shape : Shape db.deal)
    (done : db.perform transaction = .ok after) :
    (RoundsCounted db → RoundsCounted after) ∧
      ∀ offer ∈ after.offers, offer.proposer = .buyer →
        (∃ old ∈ db.offers, old.core = offer.core) ∨
          db.session.roundCount < db.policy.maxRounds := by
  by_cases acts : transaction.Acts
  · have rounds : Rounds db after := by
      by_cases business : transaction.IsBusiness
      · obtain ⟨frame, offers, _, _⟩ := business_settles shape business done
        refine .same offers ?_ ?_ <;> rw [frame]
      · cases transaction with
        | execute runId owner expectedVersion now fault =>
          obtain ⟨result, executed, rfl⟩ := (map_eq_ok _ _ _).mp done
          exact (execute_deeds (.of_shape shape) executed).rounds
        | _ => exact absurd acts business
    exact ⟨rounds.counted, rounds.limited⟩
  · have deal : after.deal = db.deal :=
      congrArg Affairs.deal ((perform_effect done).affairs acts)
    have offers : after.offers = db.offers := congrArg Deal.offers deal
    have count : after.session.roundCount = db.session.roundCount :=
      congrArg Deal.roundCount deal
    refine ⟨fun start => ?_, fun offer member _ => .inl ⟨offer, offers ▸ member, rfl⟩⟩
    unfold RoundsCounted at start ⊢
    rw [offers, count, start]

theorem reachable_rounds {world : World} (reached : Reachable World.Step World.Initial world) :
    RoundsCounted world.db := by
  refine (database_invariant (fun db => Shape db.deal ∧ RoundsCounted db) (fun world initial => ?_)
    (fun db transaction after held done => ?_) reached).2
  · refine ⟨initial_shape initial, ?_⟩
    obtain ⟨⟨_, _, _, _, _, _, _, db⟩, _⟩ := initial
    rw [db]
    rfl
  · obtain ⟨shape, counted⟩ := held
    exact ⟨(perform_op shape done).shape shape, (perform_rounds shape done).1 counted⟩

/-- A buyer offer that a step adds was made below the limit of the policy at that time. -/
theorem World.Step.limited {before next : World} {event : Event}
    (reached : Reachable World.Step World.Initial before)
    (step : World.Step before event next) :
    ∀ offer ∈ next.db.offers, offer.proposer = .buyer →
      (∃ old ∈ before.db.offers, old.core = offer.core) ∨
        before.db.session.roundCount < before.db.policy.maxRounds := by
  rcases step.performs with same | ⟨transaction, performs⟩
  · rw [same]
    exact fun offer member _ => .inl ⟨offer, member, rfl⟩
  · exact (perform_rounds (reachable_shape reached) performs.done).2

end

end Negotiation
