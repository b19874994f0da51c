/-
This file proves that a card the buyer can confirm is never older than what it
shows. The card of a result gets a context only while the result is of the
present version and its offer is the current one and valid; a refresh checks
the same again before it makes a new context. A context ends with the offer,
with its quotation and half an hour after it was made, whichever comes first,
and what a chain of refreshes shows is what its first context showed.
-/

import SecondhandAgent.Agreement
import SecondhandAgent.Publishing

namespace Negotiation

open Store Deal

section

variable [Platform] {db after : Db} {now : Time}

/-! ### The end of a context -/

omit [Platform] in
/-- A confirmation has to come before the offer, its quotation and half an hour are over. -/
theorem confirmationExpiry_le {offer : Offer} {expiry : Time}
    (done : confirmationExpiry db offer now = .ok expiry) :
    expiry ≤ offer.expiresAt ∧ expiry ≤ now + minutes 30 ∧
      ∀ basis ∈ db.bases, basis.offerId = offer.id →
        ∃ quote ∈ db.quotes, quote.id = basis.costQuoteId ∧ expiry ≤ quote.expiresAt := by
  unfold confirmationExpiry at done
  split at done
  · next absent =>
    obtain rfl := (pure_eq_ok _ _).mp done
    refine ⟨Nat.min_le_left _ _, Nat.min_le_right _ _, fun basis member same => ?_⟩
    exact absurd same (Table.get_eq_none.mp absent basis member)
  · next basis found =>
    simp only [bind_eq_ok, expect_eq_ok, pure_eq_ok] at done
    obtain ⟨quote, quoted, rfl⟩ := done
    refine ⟨(Nat.min_le_left _ _).trans (Nat.min_le_left _ _),
      (Nat.min_le_left _ _).trans (Nat.min_le_right _ _), fun other member same => ?_⟩
    obtain rfl : other = basis :=
      Table.eq_of_key member (Table.mem_of_get found) (same.trans (Table.key_of_get found).symm)
    exact ⟨quote, Table.mem_of_get quoted, Table.key_of_get quoted, Nat.min_le_right _ _⟩

/-- What a context of an offer rests on when it is made: the offer is the current one and can be
confirmed, and the context shows its terms and the present version and ends in time. -/
structure Founded (db : Db) (context : PublicInteractionContext) (offer : Offer) (now : Time) :
    Prop where
  current : db.session.currentOfferId = some offer.id
  valid : ValidOffer db offer now
  terms : context.termsHash = .offer (termsHash offer)
  version : context.businessVersion = db.session.version
  within : context.expiresAt ≤ offer.expiresAt
  quoted : ∀ basis ∈ db.bases, basis.offerId = offer.id →
    ∃ quote ∈ db.quotes, quote.id = basis.costQuoteId ∧ context.expiresAt ≤ quote.expiresAt

/-! ### Publications -/

/-- A card that offers a confirmation, or a context of an offer, is made for a result that can be
confirmed as it stands. -/
theorem publication_confirmable {run : Option NegotiationInput} {result : Result}
    {offerId : Nat} {canConfirm : Bool} {contextId : Option Nat}
    (card : (publication db run result now).card = some (.offer offerId canConfirm contextId)) :
    contextId = (publication db run result now).contextId ∧
      (canConfirm = true ↔ contextId ≠ none) ∧
      ∃ offer, result.offerId.bind db.offers.get = some offer ∧ offer.id = offerId ∧
        (publication db run result now).offer = some offer ∧
        (canConfirm = true → Confirmable db result (some offer) now) := by
  unfold publication at card ⊢
  cases found : result.offerId.bind db.offers.get with
  | none =>
    rw [found] at card
    dsimp only at card
    split at card
    · next named => exact absurd named.symm (Option.some_ne_none _)
    · exact Card.noConfusion (Option.some.inj card)
    · exact absurd card.symm (Option.some_ne_none _)
  | some offer =>
    rw [found] at card
    simp only [Option.some.injEq, Card.offer.injEq] at card
    obtain ⟨rfl, rfl, rfl⟩ := card
    refine ⟨rfl, ?_, offer, rfl, rfl, rfl, of_decide_eq_true⟩
    by_cases confirmable : Confirmable db result (some offer) now <;> simp [confirmable]

/-- A publication has a context for the offer it shows when the offer can be confirmed, and
otherwise for drafts at most. -/
theorem publication_context {run : Option NegotiationInput} {result : Result} {id : Nat}
    (named : (publication db run result now).contextId = some id) :
    (publication db run result now).offer = none ∨
      ∃ offer, result.offerId.bind db.offers.get = some offer ∧
        (publication db run result now).offer = some offer ∧
        Confirmable db result (some offer) now ∧
        (publication db run result now).card = some (.offer offer.id true (some id)) := by
  unfold publication at named ⊢
  cases found : result.offerId.bind db.offers.get with
  | none =>
    refine .inl ?_
    dsimp only
    split
    · next shown => exact absurd shown.symm (Option.some_ne_none _)
    · rfl
    · rfl
  | some offer =>
    rw [found] at named
    dsimp only at named ⊢
    by_cases confirmable : Confirmable db result (some offer) now
    · rw [if_pos (decide_eq_true confirmable)] at named
      refine .inr ⟨offer, rfl, rfl, confirmable, ?_⟩
      rw [if_pos (decide_eq_true confirmable), named, decide_eq_true confirmable]
    · rw [if_neg fun holds => confirmable (of_decide_eq_true holds)] at named
      exact absurd named.symm (Option.some_ne_none id)

/-! ### What is new after a publication -/

/-- What a refresh takes over from the original context. -/
structure SameShown (original context : PublicInteractionContext) : Prop where
  messageId : context.messageId = original.messageId
  publicSeq : context.publicSeq = original.publicSeq
  offerId : context.offerId = original.offerId
  draftRefs : context.draftRefs = original.draftRefs
  termsHash : context.termsHash = original.termsHash
  businessVersion : context.businessVersion = original.businessVersion

omit [Platform] in
theorem SameShown.refl (context : PublicInteractionContext) : SameShown context context :=
  ⟨rfl, rfl, rfl, rfl, rfl, rfl⟩

omit [Platform] in
theorem SameShown.trans {one two three : PublicInteractionContext} (first : SameShown one two)
    (second : SameShown two three) : SameShown one three where
  messageId := second.messageId.trans first.messageId
  publicSeq := second.publicSeq.trans first.publicSeq
  offerId := second.offerId.trans first.offerId
  draftRefs := second.draftRefs.trans first.draftRefs
  termsHash := second.termsHash.trans first.termsHash
  businessVersion := second.businessVersion.trans first.businessVersion

/-- What a new context of a message shows. -/
structure Presents (db : Db) (item : NotificationDelivery) (context : PublicInteractionContext)
    (message : Message) (now : Time) : Prop where
  listed : item ∈ db.deliveries
  open_ : item.status ≠ .published
  origin : message.origin = .source item.id
  messageId : message.id = context.messageId
  confirmable : ∀ offerId, context.offerId = some offerId →
    Confirmable db item.result (item.result.offerId.bind db.offers.get) now ∧
      item.result.offerId = some offerId ∧
      message.card = some (.offer offerId true (some context.id))

/-- Where a new context comes from. -/
inductive Origin (db : Db) (context : PublicInteractionContext) (now : Time) (after : Db) : Prop
  | posted {item : NotificationDelivery} {message : Message} (made : message ∈ after.messages)
      (new : message ∉ db.messages) (presents : Presents db item context message now)
  /-- A draft is announced. -/
  | drafted (offerless : context.offerId = none)
  | refreshed {original : PublicInteractionContext} {expiry : Time}
      (found : original ∈ db.contexts) (stands : checkObject db original now = .ok expiry)
      (same : SameShown original context) (within : context.expiresAt ≤ expiry)

/-- What a new context promises: it ends within half an hour, and one of an offer is founded. -/
def Promises (db : Db) (context : PublicInteractionContext) (now : Time) : Prop :=
  context.expiresAt ≤ now + minutes 30 ∧
    ∀ offerId, context.offerId = some offerId →
      ∃ offer ∈ db.offers, offer.id = offerId ∧ Founded db context offer now

/-- The context of a publication. -/
theorem Contexts.promises {run : Option NegotiationInput} {item : NotificationDelivery}
    {contexts : Table PublicInteractionContext.id} {context : PublicInteractionContext}
    (listed : item ∈ db.deliveries) (open_ : item.status ≠ .published)
    (shows : Contexts db (publication db run item.result now) now contexts)
    (made : context ∈ contexts) (new : context ∉ db.contexts) :
    Promises db context now ∧ Presents db item context (messageOf db run item now) now := by
  cases shows with
  | kept => exact absurd made new
  | @added id expiresAt named limit free =>
    rcases Table.mem_insertIgnore made with rfl | old
    · rcases publication_context named with bare | ⟨offer, found, shown, confirmable, card⟩
      · have offerless : (contextOf db (publication db run item.result now) id expiresAt).offerId =
            none := by
          show ((publication db run item.result now).offer).map _ = none
          rw [bare]
          rfl
        rw [bare] at limit
        obtain rfl := (pure_eq_ok _ _).mp limit
        refine ⟨⟨le_rfl, fun offerId same => ?_⟩, listed, open_, rfl, rfl, fun offerId same => ?_⟩
        all_goals exact absurd (offerless.symm.trans same).symm (Option.some_ne_none offerId)
      · obtain ⟨offerId, stated, got⟩ := Option.bind_eq_some_iff.mp found
        obtain rfl : offer.id = offerId := Table.key_of_get got
        have named_ : (contextOf db (publication db run item.result now) id expiresAt).offerId =
            some offer.id := by
          show ((publication db run item.result now).offer).map _ = _
          rw [shown]
          rfl
        rw [shown] at limit
        obtain ⟨within, soon, quoted⟩ := confirmationExpiry_le limit
        have valid : ValidOffer db offer now := confirmable.2.2
        refine ⟨⟨soon, fun wanted same => ?_⟩, listed, open_, rfl, rfl, fun wanted same => ?_⟩
        · obtain rfl : offer.id = wanted := Option.some.inj (named_.symm.trans same)
          refine ⟨offer, Table.mem_of_get got, rfl, valid.2.1.1, valid, ?_, rfl, within, quoted⟩
          unfold contextOf
          rw [shown]
        · obtain rfl : offer.id = wanted := Option.some.inj (named_.symm.trans same)
          rw [found]
          exact ⟨confirmable, stated, card⟩
    · exact absurd old new

/-- The context of a refresh. -/
theorem refreshed_promises {original : PublicInteractionContext} {expiry : Time} {key : Digest}
    (stands : checkObject db original now = .ok expiry) :
    Promises db (original.refreshed db.nextId key (min expiry (now + minutes 30))) now := by
  refine ⟨Nat.min_le_right _ _, fun offerId same => ?_⟩
  have named : original.offerId = some offerId := same
  unfold checkObject at stands
  simp only [bind_eq_ok, require_eq_ok] at stands
  obtain ⟨_, version, rest⟩ := stands
  rw [named] at rest
  simp only [bind_eq_ok, require_eq_ok, expect_eq_ok] at rest
  obtain ⟨offer, found, _, ⟨valid, terms⟩, limit⟩ := rest
  obtain ⟨within, _, quoted⟩ := confirmationExpiry_le limit
  refine ⟨offer, Table.mem_of_get found, Table.key_of_get found, valid.2.1.1, valid, terms,
    version, (Nat.min_le_left _ _).trans within, fun basis member about => ?_⟩
  obtain ⟨quote, listed, key, ends⟩ := quoted basis member about
  exact ⟨quote, listed, key, (Nat.min_le_left _ _).trans ends⟩

/-- Every new context keeps its promises and comes from a publication, an announcement or an
original that still stands. -/
theorem Publishing.context {context : PublicInteractionContext}
    (publishing : Publishing db now after) (made : context ∈ after.contexts)
    (new : context ∉ db.contexts) :
    Promises db context now ∧ Origin db context now after := by
  cases publishing with
  | idle same =>
    rw [same] at made
    exact absurd made new
  | worked _ frame _ _ _ _ =>
    rw [frame] at made
    exact absurd made new
  | assessed frame =>
    rw [frame] at made
    exact absurd made new
  | @posted run item contexts listed open_ free shows frame =>
    rw [frame] at made
    obtain ⟨promises, presents⟩ := shows.promises (Table.mem_of_get listed) open_ made new
    refine ⟨promises, .posted ?_ (fun old => ?_) presents⟩
    · rw [frame]
      exact Table.mem_insertIgnore_self free
    · exact Table.get_eq_none.mp free _ old rfl
  | refreshed found stands free frame =>
    rw [frame] at made
    rcases Table.mem_insertIgnore made with rfl | old
    · exact ⟨refreshed_promises stands, .refreshed (Table.mem_of_get found) stands
        ⟨rfl, rfl, rfl, rfl, rfl, rfl⟩ (Nat.min_le_left _ _)⟩
    · exact absurd old new
  | @drafted draft _ free unused frame =>
    rw [frame] at made
    rcases Table.mem_insertIgnore made with rfl | old
    · refine ⟨⟨Nat.min_le_right _ _, fun offerId same => ?_⟩, .drafted rfl⟩
      exact absurd same.symm (Option.some_ne_none offerId)
    · exact absurd old new

/-- A new card that can be confirmed, or that has a context, is one of a delivery whose result
can be confirmed as it stands. -/
theorem Publishing.card {message : Message} {offerId : Nat} {canConfirm : Bool}
    {contextId : Option Nat} (publishing : Publishing db now after)
    (made : message ∈ after.messages) (new : message ∉ db.messages)
    (card : message.card = some (.offer offerId canConfirm contextId))
    (claims : canConfirm = true ∨ contextId ≠ none) :
    ∃ item ∈ db.deliveries, message.origin = .source item.id ∧
      item.result.offerId = some offerId ∧
      Confirmable db item.result (item.result.offerId.bind db.offers.get) now := by
  cases publishing with
  | idle same =>
    rw [same] at made
    exact absurd made new
  | worked _ frame _ _ _ _ =>
    rw [frame] at made
    exact absurd made new
  | assessed frame =>
    rw [frame] at made
    exact absurd made new
  | @posted run item contexts listed _ _ _ frame =>
    rw [frame] at made
    rcases Table.mem_insertIgnore made with rfl | old
    · obtain ⟨_, together, offer, found, key, _, confirmable⟩ := publication_confirmable card
      obtain ⟨named, stated, got⟩ := Option.bind_eq_some_iff.mp found
      obtain rfl : offer.id = named := Table.key_of_get got
      refine ⟨item, Table.mem_of_get listed, rfl, stated.trans (congrArg some key), ?_⟩
      rw [found]
      exact confirmable (claims.elim id together.mpr)
    · exact absurd old new
  | refreshed _ _ _ frame =>
    rw [frame] at made
    exact absurd made new
  | drafted _ _ _ frame =>
    rw [frame] at made
    rcases Table.mem_insertIgnore made with rfl | old
    · exact Card.noConfusion (Option.some.inj card)
    · exact absurd old new

/-- A publication that makes a context of an offer publishes a result that can be confirmed. -/
theorem Publishing.confirmable {item : NotificationDelivery} {message : Message}
    {context : PublicInteractionContext} {offerId : Nat} (publishing : Publishing db now after)
    (listed : item ∈ db.deliveries) (posted : message ∈ after.messages)
    (new : message ∉ db.messages) (origin : message.origin = .source item.id)
    (made : context ∈ after.contexts) (fresh : context ∉ db.contexts)
    (shows : context.offerId = some offerId) :
    Confirmable db item.result (item.result.offerId.bind db.offers.get) now := by
  cases publishing with
  | idle same =>
    rw [same] at made
    exact absurd made fresh
  | worked _ frame _ _ _ _ =>
    rw [frame] at made
    exact absurd made fresh
  | assessed frame =>
    rw [frame] at made
    exact absurd made fresh
  | @posted run other contexts known open_ _ shown frame =>
    rw [frame] at made posted
    obtain ⟨_, presents⟩ := shown.promises (Table.mem_of_get known) open_ made fresh
    rcases Table.mem_insertIgnore posted with rfl | old
    · obtain rfl : other = item := Table.eq_of_key (Table.mem_of_get known) listed
        (MessageOrigin.source.inj origin)
      exact (presents.confirmable offerId shows).1
    · exact absurd old new
  | refreshed _ _ _ frame =>
    rw [frame] at posted
    exact absurd posted new
  | drafted _ _ _ frame =>
    rw [frame] at made
    rcases Table.mem_insertIgnore made with rfl | old
    · exact absurd shows.symm (Option.some_ne_none offerId)
    · exact absurd old fresh

end

/-! ### Chains of refreshes -/

/-- The context was made in the transition. -/
def Makes (context : PublicInteractionContext) (transition : Transition World Event) : Prop :=
  context ∉ transition.before.db.contexts ∧ context ∈ transition.after.db.contexts

/-- The context was made in the transition, in which the original was refreshed. -/
def Refreshes (original context : PublicInteractionContext)
    (transition : Transition World Event) : Prop :=
  Makes context transition ∧ original ∈ transition.before.db.contexts ∧
    ∃ buyerId requestId now,
      transition.event = .call (.refreshContext buyerId original.id requestId now)

/-- The context was made by a chain of refreshes from a root that was not refreshed from any. -/
inductive Descends (history : List (Transition World Event)) (root : PublicInteractionContext) :
    PublicInteractionContext → Prop
  | made {transition : Transition World Event} (member : transition ∈ history)
      (makes : Makes root transition) (first : ∀ original, ¬ Refreshes original root transition) :
      Descends history root root
  | refreshed {middle context : PublicInteractionContext} {transition : Transition World Event}
      (earlier : Descends history root middle) (member : transition ∈ history)
      (refreshes : Refreshes middle context transition) : Descends history root context

theorem Descends.mono {history longer : List (Transition World Event)}
    {root context : PublicInteractionContext} (descends : Descends history root context)
    (grown : ∀ transition ∈ history, transition ∈ longer) : Descends longer root context := by
  induction descends with
  | made member makes first => exact .made (grown _ member) makes first
  | refreshed _ member refreshes inductionHypothesis =>
    exact .refreshed inductionHypothesis (grown _ member) refreshes

section

variable [Platform] {first last : World} {history : List (Transition World Event)}

/-- A refresh shows what the original showed, whose object still stood. -/
theorem Refreshes.shows {original context : PublicInteractionContext}
    {transition : Transition World Event}
    (step : World.Step transition.before transition.event transition.after)
    (refreshes : Refreshes original context transition) :
    SameShown original context ∧
      ∃ now expiry, transition.before.clock ≤ now ∧ now ≤ transition.after.clock ∧
        checkObject transition.before.db original now = .ok expiry ∧
        context.expiresAt ≤ expiry ∧ context.expiresAt ≤ now + minutes 30 := by
  obtain ⟨⟨fresh, made⟩, member, buyerId, requestId, now, called⟩ := refreshes
  rw [called] at step
  rcases step.called with idle | done
  · rw [idle] at made
    exact absurd made fresh
  · obtain ⟨result, refreshed, last⟩ := (map_eq_ok _ _ _).mp done
    rw [← last] at made
    have clock : transition.after.clock = now := by
      rw [step.2.2]
      rfl
    rcases refreshContext_cases refreshed with same | ⟨source, expiry, key, found, stands, _, frame⟩
    · rw [same] at made
      exact absurd made fresh
    · obtain rfl : source = original := Table.eq_of_key (Table.mem_of_get found) member
        (Table.key_of_get found)
      rw [frame] at made
      rcases Table.mem_insertIgnore made with rfl | old
      · exact ⟨⟨rfl, rfl, rfl, rfl, rfl, rfl⟩, now, expiry, step.1.1, clock.ge, stands,
          Nat.min_le_left _ _, Nat.min_le_right _ _⟩
      · exact absurd old fresh

/-- Every context of a run descends from one that the run made. -/
theorem run_descends (initial : World.Initial first) (run : Run World.Step first history last) :
    ∀ context ∈ last.db.contexts, ∃ root, Descends history root context := by
  induction run with
  | start =>
    obtain ⟨⟨_, _, _, _, _, _, _, db⟩, _⟩ := initial
    rw [db]
    exact fun context member => absurd member (Table.not_mem_empty context)
  | @next middle last history event earlier taken inductionHypothesis =>
    intro context member
    by_cases old : context ∈ middle.db.contexts
    · obtain ⟨root, descends⟩ := inductionHypothesis context old
      exact ⟨root, descends.mono fun _ => List.mem_cons_of_mem _⟩
    · have makes : Makes context ⟨middle, event, last⟩ := ⟨old, member⟩
      by_cases chained : ∃ original, Refreshes original context ⟨middle, event, last⟩
      · obtain ⟨original, refreshes⟩ := chained
        obtain ⟨root, descends⟩ := inductionHypothesis original refreshes.2.1
        exact ⟨root, .refreshed (descends.mono fun _ => List.mem_cons_of_mem _)
          List.mem_cons_self refreshes⟩
      · exact ⟨context, .made List.mem_cons_self makes fun original refreshes =>
          chained ⟨original, refreshes⟩⟩

/-- What a chain of refreshes ends in shows what its root showed. -/
theorem Descends.same (run : Run World.Step first history last)
    {root context : PublicInteractionContext} (descends : Descends history root context) :
    SameShown root context := by
  induction descends with
  | made => exact .refl root
  | refreshed _ member refreshes inductionHypothesis =>
    exact inductionHypothesis.trans (refreshes.shows (run.taken member)).1

/-- A card can be confirmed, and a context of an offer is made, only while the offer is the
current one and valid and the result is of the present version; a context ends with the offer,
with its quotation and half an hour after it was made; and a chain of refreshes keeps what its
root shows and makes each link only while the object of the one before still stands. -/
theorem cards_are_confirmable (initial : World.Initial first)
    (run : Run World.Step first history last) :
    (∀ transition ∈ history, ∀ message ∈ transition.after.db.messages,
      message ∉ transition.before.db.messages → ∀ offerId canConfirm contextId,
      message.card = some (.offer offerId canConfirm contextId) →
      (canConfirm = true ∨ contextId ≠ none) →
      ∃ now item offer, transition.before.clock ≤ now ∧ now ≤ transition.after.clock ∧
        item ∈ transition.before.db.deliveries ∧ message.origin = .source item.id ∧
        item.result.offerId = some offerId ∧
        item.result.businessVersion = some transition.before.db.session.version ∧
        offer ∈ transition.before.db.offers ∧ offer.id = offerId ∧
        transition.before.db.session.currentOfferId = some offerId ∧
        ValidOffer transition.before.db offer now) ∧
    (∀ transition ∈ history, ∀ context, Makes context transition →
      ∃ now, transition.before.clock ≤ now ∧ now ≤ transition.after.clock ∧
        context.expiresAt ≤ now + minutes 30 ∧
        ∀ offerId, context.offerId = some offerId →
          ∃ offer ∈ transition.before.db.offers, offer.id = offerId ∧
            Founded transition.before.db context offer now) ∧
    (∀ transition ∈ history, ∀ item ∈ transition.before.db.deliveries,
      ∀ message ∈ transition.after.db.messages, message ∉ transition.before.db.messages →
      message.origin = .source item.id →
      (∀ now, transition.before.clock ≤ now → now ≤ transition.after.clock →
        ¬ Confirmable transition.before.db item.result
          (item.result.offerId.bind transition.before.db.offers.get) now) →
      ∀ context, Makes context transition → context.offerId = none) ∧
    (∀ transition ∈ history, ∀ original context, Refreshes original context transition →
      ∃ now expiry, transition.before.clock ≤ now ∧ now ≤ transition.after.clock ∧
        checkObject transition.before.db original now = .ok expiry ∧
        context.expiresAt ≤ expiry ∧ context.expiresAt ≤ now + minutes 30) ∧
    (∀ context ∈ last.db.contexts, ∃ root, Descends history root context) ∧
    ∀ root context, Descends history root context → SameShown root context := by
  refine ⟨?_, ?_, ?_, ?_, run_descends initial run, fun root context => Descends.same run⟩
  · intro transition member message made new offerId canConfirm contextId card claims
    rcases (run.taken member).publishing with ⟨_, _, silent⟩ | ⟨now, early, late, publishing⟩
    · cases silent with
      | none messages =>
        rw [messages] at made
        exact absurd made new
      | input free messages =>
        rw [messages] at made
        rcases Table.mem_insertIgnore made with rfl | old
        · exact absurd card.symm (Option.some_ne_none _)
        · exact absurd old new
    · obtain ⟨item, listed, origin, stated, confirmable⟩ :=
        publishing.card made new card claims
      obtain ⟨_, version, found⟩ := confirmable
      obtain ⟨offer, got, valid⟩ := (found_iff _ _).mp found
      rw [stated] at got
      have known : transition.before.db.offers.get offerId = some offer := got
      have key : offer.id = offerId := Table.key_of_get known
      exact ⟨now, item, offer, early, late, listed, origin, stated, version,
        Table.mem_of_get known, key, key ▸ valid.2.1.1, valid⟩
  · intro transition member context makes
    rcases (run.taken member).publishing with ⟨same, _, _⟩ | ⟨now, early, late, publishing⟩
    · exact absurd (same ▸ makes.2) makes.1
    · obtain ⟨⟨soon, founded⟩, _⟩ := publishing.context makes.2 makes.1
      exact ⟨now, early, late, soon, founded⟩
  · intro transition member item listed message posted new origin unconfirmable context makes
    rcases (run.taken member).publishing with ⟨same, _, _⟩ | ⟨now, early, late, publishing⟩
    · exact absurd (same ▸ makes.2) makes.1
    · cases shows : context.offerId with
      | none => rfl
      | some offerId =>
        exact absurd (publishing.confirmable listed posted new origin makes.2 makes.1 shows)
          (unconfirmable now early late)
  · intro transition member original context refreshes
    exact (refreshes.shows (run.taken member)).2

end

attribute [local instance] samplePlatform in
/-- The context that the buyer of the sample session confirms by was made by the run. -/
theorem cards_are_confirmable_publication :
    ∃ context ∈ (sampleWorld.after confirming).db.contexts, context.offerId = some 5 ∧
      ∃ root, Descends (sampleWorld.history [] confirming) root context := by
  have run : Run World.Step sampleWorld (sampleWorld.history [] confirming)
      (sampleWorld.after confirming) :=
    World.run_history (.start sampleWorld) (by decide +kernel : Scheduled 0 confirming)
  have shown : ((sampleWorld.after confirming).db.contexts.get 6).map (·.offerId) =
      some (some 5) := by decide +kernel
  obtain ⟨context, found, offered⟩ := Option.map_eq_some_iff.mp shown
  obtain ⟨_, _, _, _, descends, _⟩ := cards_are_confirmable sampleWorld_initial run
  exact ⟨context, Table.mem_of_get found, offered, descends context (Table.mem_of_get found)⟩

end Negotiation
