/-
This file says once what a publication can do. A delivery is worked on, or it
is published with one message, one number and, when its offer can be confirmed
as it stands, one interaction context; a context is refreshed into a new one;
a draft whose evidence is complete is announced. The later files read the cards
and the numbers off these cases.
-/

import SecondhandAgent.Bargain

namespace Negotiation

open Store Deal

section

variable [Platform] {db after : Db} {now : Time}

/-! ### Rows of a publication -/

/-- The message of a publication. -/
def messageOf (db : Db) (run : Option NegotiationInput) (item : NotificationDelivery)
    (now : Time) : Message where
  id := db.nextId + 1
  origin := .source item.id
  publicSeq := some db.session.nextPublicSeq
  card := (publication db run item.result now).card
  formalOfferId := (publication db run item.result now).offer.map (·.id)

/-- The context of a publication. -/
def contextOf (db : Db) (shown : Publication) (id : Nat) (expiresAt : Time) :
    PublicInteractionContext where
  id
  buyerId := db.session.buyerId
  messageId := db.nextId + 1
  publicSeq := db.session.nextPublicSeq
  offerId := shown.offer.map (·.id)
  draftRefs := shown.refs
  termsHash :=
    match shown.offer with
    | some offer => .offer (termsHash offer)
    | none => .drafts
  businessVersion := db.session.version
  expiresAt

/-- The contexts after a publication: one more if the card has one. -/
inductive Contexts (db : Db) (shown : Publication) (now : Time) :
    Table PublicInteractionContext.id → Prop
  | kept (bare : shown.contextId = none) : Contexts db shown now db.contexts
  | added {id : Nat} {expiresAt : Time} (named : shown.contextId = some id)
      (limit : contextExpiry db shown.offer now = .ok expiresAt)
      (free : db.contexts.get id = none) :
      Contexts db shown now (db.contexts.insertIgnore (contextOf db shown id expiresAt))

/-- The delivery once its message is out. -/
def NotificationDelivery.withMessage (item : NotificationDelivery) (messageId : Nat) :
    NotificationDelivery :=
  { item with
    status := .published, publicMessageId := some messageId, leaseToken := none
    leaseUntil := none }

/-- What a context becomes when it is refreshed. -/
def PublicInteractionContext.refreshed (original : PublicInteractionContext) (id : Nat)
    (key : Digest) (expiresAt : Time) : PublicInteractionContext :=
  { original with id, expiresAt, refreshKey := some key }

/-- The message that a draft can be gone on with. -/
def draftMessage (db : Db) (draft : OfferDraft) : Message where
  id := db.nextId + 1
  origin := .source (.draftReady draft.id db.product.productVersion)
  publicSeq := some db.session.nextPublicSeq
  card := some (.drafts db.nextId [{ id := draft.id, version := draft.version }])

def draftContext (db : Db) (draft : OfferDraft) (now : Time) : PublicInteractionContext where
  id := db.nextId
  buyerId := db.session.buyerId
  messageId := db.nextId + 1
  publicSeq := db.session.nextPublicSeq
  draftRefs := some [{ id := draft.id, version := draft.version }]
  termsHash := .drafts
  businessVersion := db.session.version
  expiresAt := min draft.expiresAt (now + minutes 30)

/-! ### The cases -/

/-- What a transaction that publishes something can do. -/
inductive Publishing (db : Db) (now : Time) (after : Db) : Prop
  | idle (same : after = db)
  /-- A delivery that is not out, or that is leased, is claimed or put off. -/
  | worked {item changed : NotificationDelivery} (listed : db.deliveries.get item.id = some item)
      (frame : after =
        { db with deliveries := db.deliveries.put changed, nextId := after.nextId })
      (open_ : item.status ≠ .published ∨ item.leaseToken ≠ none) (key : changed.id = item.id)
      (still : changed.status ≠ .published)
      (named : changed.publicMessageId = item.publicMessageId)
  | posted {run : Option NegotiationInput} {item : NotificationDelivery}
      {contexts : Table PublicInteractionContext.id}
      (listed : db.deliveries.get item.id = some item) (open_ : item.status ≠ .published)
      (free : db.messages.get (.source item.id) = none)
      (shows : Contexts db (publication db run item.result now) now contexts)
      (frame : after =
        { db with
          messages := db.messages.insertIgnore (messageOf db run item now)
          contexts
          session := { db.session with nextPublicSeq := db.session.nextPublicSeq + 1 }
          deliveries := db.deliveries.put (item.withMessage (db.nextId + 1))
          outbox := after.outbox
          nextId := db.nextId + 2 })
  | refreshed {original : PublicInteractionContext} {expiry : Time} {key : Digest}
      (found : db.contexts.get original.id = some original)
      (stands : checkObject db original now = .ok expiry) (free : db.contexts.get db.nextId = none)
      (frame : after =
        { db with
          contexts := db.contexts.insertIgnore
            (original.refreshed db.nextId key (min expiry (now + minutes 30)))
          nextId := db.nextId + 1 })
  /-- The evidence of a draft is assessed again. -/
  | assessed (frame : after = { db with drafts := after.drafts, verifications := after.verifications })
  | drafted {draft : OfferDraft} (listed : draft ∈ db.drafts)
      (free : db.messages.get (.source (.draftReady draft.id db.product.productVersion)) = none)
      (unused : db.contexts.get db.nextId = none)
      (frame : after =
        { db with
          messages := db.messages.insertIgnore (draftMessage db draft)
          contexts := db.contexts.insertIgnore (draftContext db draft now)
          session := { db.session with nextPublicSeq := db.session.nextPublicSeq + 1 }
          drafts := after.drafts
          verifications := after.verifications
          nextId := db.nextId + 2 })

omit [Platform] in
theorem contextExpiry_congr {before : Db} (bases : after.bases = before.bases)
    (quotes : after.quotes = before.quotes) (offer : Option Offer) :
    contextExpiry after offer now = contextExpiry before offer now := by
  unfold contextExpiry confirmationExpiry
  rw [bases, quotes]

theorem recordContext_contexts (db : Db) {shown : Publication} {stage : Db}
    (done : recordContext stage shown (db.nextId + 1) db.session.nextPublicSeq now = .ok after)
    (bases : stage.bases = db.bases) (quotes : stage.quotes = db.quotes)
    (contexts : stage.contexts = db.contexts)
    (buyer : stage.session.buyerId = db.session.buyerId)
    (version : stage.session.version = db.session.version) :
    after = { stage with contexts := after.contexts } ∧
      Contexts db shown now after.contexts := by
  unfold recordContext at done
  split at done
  · next bare =>
    obtain rfl := (pure_eq_ok _ _).mp done
    refine ⟨rfl, ?_⟩
    rw [contexts]
    exact .kept bare
  · next id named =>
    simp only [bind_eq_ok, pure_eq_ok] at done
    obtain ⟨expiresAt, limit, added, inserted, rfl⟩ := done
    rw [contextExpiry_congr bases quotes] at limit
    have free := Table.free_of_insert inserted
    rw [contexts] at free
    refine ⟨rfl, ?_⟩
    show Contexts db shown now added
    rw [Table.eq_insertIgnore inserted, contexts, buyer, version]
    exact .added named limit free

theorem publishNew_publishing {run : Option NegotiationInput} {item : NotificationDelivery}
    {result : Db × Option Nat} (listed : db.deliveries.get item.id = some item)
    (open_ : item.status ≠ .published) (done : publishNew db run item now = .ok result) :
    Publishing db now result.1 := by
  unfold publishNew at done
  simp only [bind_eq_ok, pure_eq_ok] at done
  obtain ⟨messages, inserted, contextual, recorded, event, _, rfl⟩ := done
  obtain ⟨frame, shows⟩ := recordContext_contexts db recorded rfl rfl rfl rfl rfl
  refine .posted listed open_ (Table.free_of_insert inserted) shows ?_
  rw [frame, Table.eq_insertIgnore inserted]
  rfl

theorem publishItem_publishing {run : Option NegotiationInput} {source : SourceId}
    {result : Db × Option Nat} (done : publishItem db run source now = .ok result) :
    Publishing db now result.1 := by
  unfold publishItem at done
  simp only [bind_eq_ok, expect_eq_ok] at done
  obtain ⟨item, found, rest⟩ := done
  obtain rfl : item.id = source := Table.key_of_get found
  split at rest
  · obtain rfl := (pure_eq_ok _ _).mp rest
    exact .idle rfl
  · next open_ => exact publishNew_publishing found open_ rest

theorem publishOwned_publishing {runId : Nat} {owner : Owner} {result : Db × Option Nat}
    (done : publishOwned db runId owner now = .ok result) : Publishing db now result.1 := by
  unfold publishOwned at done
  simp only [bind_eq_ok] at done
  obtain ⟨_, _, published⟩ := done
  exact publishItem_publishing published

theorem publishNotified_publishing {runId : Option Nat} {source : SourceId} {token : Nat}
    {result : Db × Option Nat} (done : publishNotified db runId source token now = .ok result) :
    Publishing db now result.1 := by
  unfold publishNotified at done
  simp only [bind_eq_ok] at done
  obtain ⟨_, _, _, _, published⟩ := done
  exact publishItem_publishing published

theorem claimNotification_publishing {source : SourceId} {result : Db × Option Nat}
    (done : claimNotification db source now = .ok result) : Publishing db now result.1 := by
  unfold claimNotification at done
  simp only [bind_eq_ok, expect_eq_ok] at done
  obtain ⟨item, found, rest⟩ := done
  obtain rfl : item.id = source := Table.key_of_get found
  split at rest
  · next notifiable =>
    obtain rfl := (pure_eq_ok _ _).mp rest
    exact .worked found rfl (.inl notifiable.1) rfl DeliveryStatus.noConfusion rfl
  · obtain rfl := (pure_eq_ok _ _).mp rest
    exact .idle rfl

theorem retryNotification_publishing {source : SourceId} {token : Nat}
    (done : retryNotification db source token now = .ok after) : Publishing db now after := by
  unfold retryNotification at done
  simp only [bind_eq_ok, pure_eq_ok, expect_eq_ok, require_eq_ok] at done
  obtain ⟨item, found, _, held, rfl⟩ := done
  obtain rfl : item.id = source := Table.key_of_get found
  refine .worked found rfl (.inr ?_) rfl ?_ rfl
  · rw [held]
    exact Option.some_ne_none token
  · dsimp only
    split <;> exact DeliveryStatus.noConfusion

/-- A refresh answers with a context that is there, or makes one that shows what the original
shows, after the object of the original was checked. -/
theorem refreshContext_cases {buyerId requestId : String} {contextId : Nat} {result : Db × Nat}
    (done : refreshContext db buyerId contextId requestId now = .ok result) :
    result.1 = db ∨ ∃ original expiry key, db.contexts.get contextId = some original ∧
      checkObject db original now = .ok expiry ∧ db.contexts.get db.nextId = none ∧
      result.1 =
        { db with
          contexts := db.contexts.insertIgnore
            (original.refreshed db.nextId key (min expiry (now + minutes 30)))
          nextId := db.nextId + 1 } := by
  unfold refreshContext at done
  simp only [bind_eq_ok, expect_eq_ok, require_eq_ok] at done
  obtain ⟨_, _, original, found, _, mine, expiry, stands, rest⟩ := done
  split at rest
  · simp only [bind_eq_ok, pure_eq_ok] at rest
    obtain ⟨_, _, rfl⟩ := rest
    exact .inl rfl
  · simp only [bind_eq_ok, pure_eq_ok] at rest
    obtain ⟨contexts, inserted, rfl⟩ := rest
    have free := Table.free_of_insert inserted
    subst mine
    rw [Table.eq_insertIgnore inserted]
    exact .inr ⟨original, expiry, _, found, stands, free, rfl⟩

theorem refreshContext_publishing {buyerId requestId : String} {contextId : Nat}
    {result : Db × Nat} (done : refreshContext db buyerId contextId requestId now = .ok result) :
    Publishing db now result.1 := by
  rcases refreshContext_cases done with same | ⟨original, expiry, key, found, stands, free, frame⟩
  · exact .idle same
  · obtain rfl : original.id = contextId := Table.key_of_get found
    exact .refreshed found stands free frame

theorem recheckItem_publishing {seller : String} {itemId : Nat}
    (done : recheckItem db seller itemId now = .ok after) : Publishing db now after := by
  unfold recheckItem at done
  simp only [bind_eq_ok] at done
  obtain ⟨item, _, draft, found, _, _, rest⟩ := done
  split at rest
  · split at rest
    · unfold announceDraft at rest
      simp only [bind_eq_ok, pure_eq_ok] at rest
      obtain ⟨messages, posted, contexts, inserted, rfl⟩ := rest
      have listed := Table.mem_of_get ((expect_eq_ok _ _ _).mp found)
      have free := Table.free_of_insert posted
      have unused := Table.free_of_insert inserted
      rw [Table.eq_insertIgnore posted, Table.eq_insertIgnore inserted]
      exact .drafted listed free unused rfl
    · obtain rfl := (pure_eq_ok _ _).mp rest
      exact .assessed rfl
  · obtain rfl := (pure_eq_ok _ _).mp rest
    exact .assessed rfl

/-- A transaction that publishes does one of these at the time it reads. -/
theorem perform_publishing {transaction : Transaction} (public_ : transaction.IsPublic)
    (done : db.perform transaction = .ok after) :
    ∃ now, transaction.readings = [now] ∧ Publishing db now after := by
  cases transaction with
  | publishOwned =>
    obtain ⟨result, published, rfl⟩ := (map_eq_ok _ _ _).mp done
    exact ⟨_, rfl, publishOwned_publishing published⟩
  | claimNotification =>
    obtain ⟨result, published, rfl⟩ := (map_eq_ok _ _ _).mp done
    exact ⟨_, rfl, claimNotification_publishing published⟩
  | retryNotification => exact ⟨_, rfl, retryNotification_publishing done⟩
  | publishNotified =>
    obtain ⟨result, published, rfl⟩ := (map_eq_ok _ _ _).mp done
    exact ⟨_, rfl, publishNotified_publishing published⟩
  | refreshContext =>
    obtain ⟨result, published, rfl⟩ := (map_eq_ok _ _ _).mp done
    exact ⟨_, rfl, refreshContext_publishing published⟩
  | recheckItem => exact ⟨_, rfl, recheckItem_publishing done⟩
  | _ => exact absurd public_ id

/-! ### What publishes nothing -/

/-- The messages of another transaction: those that were there, and that of a new input at
most. -/
inductive InputMessage (db : Db) (after : Db) : Prop
  | none (messages : after.messages = db.messages)
  | input {id runId : Nat} (free : db.messages.get (.input runId) = none)
      (messages : after.messages = db.messages.insertIgnore { id, origin := .input runId })

/-- A transaction that publishes nothing leaves the contexts and the public numbers alone. -/
theorem Effect.unpublished {transaction : Transaction} (effect : Effect db transaction after)
    (silent : ¬ transaction.IsPublic) :
    after.contexts = db.contexts ∧ after.session.nextPublicSeq = db.session.nextPublicSeq ∧
      InputMessage db after := by
  cases effect with
  | business _ writes =>
    rw [writes.frame]
    exact ⟨rfl, rfl, .none rfl⟩
  | repeated same =>
    rw [same]
    exact ⟨rfl, rfl, .none rfl⟩
  | command _ writes =>
    rw [writes.frame, writes.business.frame]
    exact ⟨rfl, rfl, .none rfl⟩
  | answered _ writes =>
    rw [writes.frame, show _ = _ from writes.drafts]
    exact ⟨rfl, rfl, .none rfl⟩
  | planned _ _ _ writes frame =>
    rw [frame, show _ = _ from writes]
    exact ⟨rfl, rfl, .none rfl⟩
  | published kind _ => exact absurd kind silent
  | displayed _ _ _ _ _ _ frame =>
    rw [frame]
    exact ⟨rfl, rfl, .none rfl⟩
  | edited _ writes | executed writes _ =>
    rw [show _ = _ from writes]
    exact ⟨rfl, rfl, .none rfl⟩
  | acknowledged _ frame =>
    rw [frame, acknowledgeEvents_writes]
    exact ⟨rfl, rfl, .none rfl⟩
  | queued effect =>
    cases effect with
    | idle frame _ _ =>
      rw [frame]
      exact ⟨rfl, rfl, .none rfl⟩
    | enqueued _ _ _ _ appended =>
      unfold newInput at appended
      simp only [bind_eq_ok, pure_eq_ok] at appended
      obtain ⟨messages, posted, tasks, _, inputs, _, rfl⟩ := appended
      exact ⟨rfl, rfl, .input (Table.free_of_insert posted) (Table.eq_insertIgnore posted)⟩
    | turned _ _ _ _ frame =>
      rw [frame]
      exact ⟨rfl, rfl, .none rfl⟩
  | archived frame =>
    rw [frame]
    exact ⟨rfl, rfl, .none rfl⟩

/-- A step publishes something at a time between the clocks around it, or it leaves the contexts
and the public numbers alone. -/
theorem World.Step.publishing {before next : World} {event : Event}
    (step : World.Step before event next) :
    (next.db.contexts = before.db.contexts ∧
        next.db.session.nextPublicSeq = before.db.session.nextPublicSeq ∧
        InputMessage before.db next.db) ∨
      ∃ now, before.clock ≤ now ∧ now ≤ next.clock ∧ Publishing before.db now next.db := by
  rcases step.performs with same | ⟨transaction, performs⟩
  · rw [same]
    exact .inl ⟨rfl, rfl, .none rfl⟩
  · by_cases public_ : transaction.IsPublic
    · obtain ⟨now, reads, publishing⟩ := perform_publishing public_ performs.done
      have within := performs.within
      rw [reads] at within
      exact .inr ⟨now, within.one.1, within.one.2, publishing⟩
    · exact .inl ((perform_effect performs.done).unpublished public_)

end

end Negotiation
