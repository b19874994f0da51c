/-
This file models the publication of results and what is shown of them: a
delivery is published once, by the owner of its run or under a lease of its
own; a result the buyer can confirm gets an interaction context; the buyer's
client acknowledges that it displayed a context and refreshes one that runs out.
-/

import Mathlib.Algebra.Group.Nat.Defs
import SecondhandAgent.Business
import SecondhandAgent.Queue

namespace Negotiation

open Store

/-! ### Leases of deliveries -/

def Db.putDelivery (db : Db) (item : NotificationDelivery) : Db :=
  { db with deliveries := db.deliveries.put item }

/-- The lease of the task an input is executed under. -/
def inputLease (db : Db) (inputId : Option Nat) : Option Time :=
  ((inputId.bind db.inputs.get).bind fun run => db.tasks.get run.taskId).bind
    fun stored => stored.val.leaseExpiresAt

/-- Nobody publishes the delivery, it may be tried now, and the owner of its run, if there is
one, has used up the reply time. -/
def Notifiable (db : Db) (item : NotificationDelivery) (now : Time) : Prop :=
  item.status ≠ .published ∧ item.status ≠ .manualRequired ∧ ¬ Ahead item.leaseUntil now ∧
    ¬ Ahead item.nextRetryAt now ∧
    ¬ (Ahead (inputLease db item.inputId) now ∧ now < item.replyDeadline)

instance (db : Db) (item : NotificationDelivery) (now : Time) :
    Decidable (Notifiable db item now) :=
  inferInstanceAs (Decidable (_ ∧ _ ∧ _ ∧ _ ∧ ¬ _))

/-- `NotificationService.claim` -/
def claimNotification (db : Db) (source : SourceId) (now : Time) :
    Except Failure (Db × Option Nat) := do
  let item ← expect (db.deliveries.get source) .missing
  if Notifiable db item now then
    let claimed := db.putDelivery
      { item with
        leaseToken := some db.nextId
        leaseUntil := some (now + seconds 15)
        status := .running
        attempts := item.attempts + 1 }
    pure ({ claimed with nextId := db.nextId + 1 }, some db.nextId)
  else pure (db, none)

/-- `NotificationService.retry` -/
def retryNotification (db : Db) (source : SourceId) (token : Nat) (now : Time) :
    Except Failure Db := do
  let item ← expect (db.deliveries.get source) .missing
  require (item.leaseToken = some token) (.staleOwner "通知所有权已失效")
  pure (db.putDelivery
    { item with
      status := if 3 ≤ item.attempts then .manualRequired else .retryWait
      nextRetryAt := some (now + seconds (2 ^ item.attempts))
      leaseToken := none
      leaseUntil := none })

/-! ### Drafts on a card -/

/-- The drafts of the run's turn that the buyer can go on with. -/
def usableRefs (db : Db) (runId : Nat) (now : Time) : List DraftRef :=
  match db.turns.get runId with
  | none => []
  | some turn =>
    (turn.draftIds.filterMap db.drafts.get).filterMap fun draft =>
      if UsableDraft draft db.session now draft.version then
        some { id := draft.id, version := draft.version }
      else none

/-- `draft_refs or None` -/
def draftRefs (db : Db) (run : Option NegotiationInput) (now : Time) : Option (List DraftRef) :=
  match run with
  | none => none
  | some run =>
    match usableRefs db run.id now with
    | [] => none
    | refs => some refs

/-- The drafts a context refers to, each with the version it was shown at. -/
def RefUsable (db : Db) (now : Time) (ref : DraftRef) : Prop :=
  Found (db.drafts.get ref.id) fun draft => UsableDraft draft db.session now ref.version

instance (db : Db) (now : Time) (ref : DraftRef) : Decidable (RefUsable db now ref) := by
  delta RefUsable
  infer_instance

/-- The earliest end of the drafts referred to. -/
def earliestExpiry (db : Db) (refs : List DraftRef) : Option Time :=
  ((refs.filterMap fun ref => db.drafts.get ref.id).map (·.expiresAt)).min?

variable [Platform]

/-! ### Publication -/

/-- The result can be confirmed as it stands. -/
def Confirmable (db : Db) (result : Result) (offer : Option Offer) (now : Time) : Prop :=
  (result.outcome = .offerAccepted ∨ result.outcome = .counterOffered) ∧
    result.businessVersion = some db.session.version ∧
    Found offer fun offer => ValidOffer db offer now

instance (db : Db) (result : Result) (offer : Option Offer) (now : Time) :
    Decidable (Confirmable db result offer now) := by
  delta Confirmable
  infer_instance

/-- What a publication puts on the card of its message. -/
structure Publication where
  offer : Option Offer
  refs : Option (List DraftRef)
  card : Option Card
  contextId : Option Nat

/-- The card of a result: the offer the result speaks of, or the drafts of the turn. -/
def publication (db : Db) (run : Option NegotiationInput) (result : Result) (now : Time) :
    Publication :=
  let offer := result.offerId.bind db.offers.get
  let confirmable : Bool := Confirmable db result offer now
  let refs := draftRefs db run now
  match offer, refs with
  | some shown, refs =>
    let contextId := if confirmable then some db.nextId else none
    { offer, refs, card := some (.offer shown.id confirmable contextId), contextId }
  | none, some refs =>
    { offer, refs, card := some (.drafts db.nextId refs), contextId := some db.nextId }
  | none, none => { offer, refs, card := none, contextId := none }

/-- The end of the context of a publication. -/
def contextExpiry (db : Db) (offer : Option Offer) (now : Time) : Except Failure Time :=
  match offer with
  | some offer => confirmationExpiry db offer now
  | none => pure (now + minutes 30)

/-- Record the interaction context of a published message, if it has one. -/
def recordContext (db : Db) (shown : Publication) (messageId publicSeq : Nat) (now : Time) :
    Except Failure Db :=
  match shown.contextId with
  | none => pure db
  | some id => do
    let expiresAt ← contextExpiry db shown.offer now
    let contexts ← db.contexts.insert
      { id
        buyerId := db.session.buyerId
        messageId
        publicSeq
        offerId := shown.offer.map (·.id)
        draftRefs := shown.refs
        termsHash :=
          match shown.offer with
          | some offer => .offer (termsHash offer)
          | none => .drafts
        businessVersion := db.session.version
        expiresAt } .unique
    pure { db with contexts }

/-- Publish a delivery that is not published yet. -/
def publishNew (db : Db) (run : Option NegotiationInput) (item : NotificationDelivery)
    (now : Time) : Except Failure (Db × Option Nat) := do
  let shown := publication db run item.result now
  let messageId := db.nextId + 1
  let publicSeq := db.session.nextPublicSeq
  let messages ← db.messages.insert
    { id := messageId
      origin := .source item.id
      publicSeq := some publicSeq
      card := shown.card
      formalOfferId := shown.offer.map (·.id) } .unique
  let posted :=
    { db with
      messages
      session := { db.session with nextPublicSeq := publicSeq + 1 }
      nextId := db.nextId + 2 }
  let contextual ← recordContext posted shown messageId publicSeq now
  let published := contextual.putDelivery
    { item with
      status := .published
      publicMessageId := some messageId
      leaseToken := none
      leaseUntil := none }
  let event ← expect (published.outbox.get (.delivery item.id)) .missing
  pure ({ published with outbox := published.outbox.put { event with status := .delivered } },
    some messageId)

/-- Publish a delivery once. -/
def publishItem (db : Db) (run : Option NegotiationInput) (source : SourceId) (now : Time) :
    Except Failure (Db × Option Nat) := do
  let item ← expect (db.deliveries.get source) .missing
  if item.status = .published then pure (db, item.publicMessageId)
  else publishNew db run item now

/-- `publish` as the owner of the run. -/
def publishOwned (db : Db) (runId : Nat) (owner : Owner) (now : Time) :
    Except Failure (Db × Option Nat) := do
  let (run, _) ← lockOwner db runId owner now
  publishItem db (some run) (.turnReply runId) now

/-- `publish` under a lease of the delivery. -/
def publishNotified (db : Db) (runId : Option Nat) (source : SourceId) (token : Nat)
    (now : Time) : Except Failure (Db × Option Nat) := do
  let item ← expect (db.deliveries.get source) .missing
  require (item.leaseToken = some token ∧ Ahead item.leaseUntil now)
    (.staleOwner "通知所有权已失效")
  publishItem db (runId.bind db.inputs.get) source now

/-! ### Display -/

/-- `check_object`: what the context shows is still what it was; the answer is the end of it. -/
def checkObject (db : Db) (context : PublicInteractionContext) (now : Time) :
    Except Failure Time := do
  require (context.businessVersion = db.session.version) (.conflict "展示对象业务版本已失效")
  match context.offerId with
  | some offerId => do
    let stale := Failure.conflict "报价或授权依据已失效，请重新协商"
    let offer ← expect (db.offers.get offerId) stale
    require (ValidOffer db offer now ∧ context.termsHash = .offer (termsHash offer)) stale
    confirmationExpiry db offer now
  | none => do
    let stale := Failure.conflict "澄清草案已失效，请重新协商"
    let refs := context.draftRefs.getD []
    require (refs ≠ [] ∧ ∀ ref ∈ refs, RefUsable db now ref) stale
    expect (earliestExpiry db refs) stale

/-- The acknowledgement of a display request. -/
def Db.ackOf (db : Db) (buyerId viewId requestId : String) : Option DisplayAck :=
  db.acks.rows.find? fun ack =>
    ack.buyerId = buyerId ∧ ack.clientViewId = viewId ∧ ack.requestId = requestId

/-- The buyer's client acknowledges that it shows a context; the clock is read to see that the
context is not over, for the check of its object and for the time of the display. -/
def display (db : Db) (buyerId : String) (contextId : Nat) (viewId requestId : String)
    (compared checked displayed : Time) : Except Failure (Db × Nat) := do
  require (viewId ≠ "" ∧ requestId ≠ "" ∧ viewId.length ≤ 64 ∧ requestId.length ≤ 64)
    (.conflict "展示请求标识无效")
  ownedSession db buyerId
  match db.ackOf buyerId viewId requestId with
  | some old => do
    require (old.contextId = contextId) (.conflict "展示请求载荷冲突")
    pure (db, old.id)
  | none => do
    let refused := Failure.conflict "展示上下文已失效或无权访问"
    let context ← expect (db.contexts.get contextId) refused
    require (context.buyerId = buyerId ∧ compared < context.expiresAt ∧
      context.businessVersion = db.session.version) refused
    let _ ← checkObject db context checked
    let acks ← db.acks.insert
      { id := db.nextId, contextId, buyerId, clientViewId := viewId, requestId
        displayedAt := displayed } .unique
    pure ({ db with acks, nextId := db.nextId + 1 }, db.nextId)

/-- `refresh_context`: a new context for what an old one shows, if that still stands. -/
def refreshContext (db : Db) (buyerId : String) (contextId : Nat) (requestId : String)
    (now : Time) : Except Failure (Db × Nat) := do
  ownedSession db buyerId
  let refused := Failure.conflict "展示上下文不存在或无权访问"
  let original ← expect (db.contexts.get contextId) refused
  require (original.buyerId = buyerId) refused
  let expiry ← checkObject db original now
  let key := digest (.list [.text buyerId, .text requestId])
  match db.contexts.rows.find? fun context => context.refreshKey = some key with
  | some old => do
    require (old.messageId = original.messageId ∧ old.offerId = original.offerId ∧
      old.draftRefs = original.draftRefs) (.conflict "刷新请求载荷冲突")
    pure (db, old.id)
  | none => do
    let contexts ← db.contexts.insert
      { original with
        id := db.nextId
        buyerId
        expiresAt := min expiry (now + minutes 30)
        refreshKey := some key } .unique
    pure ({ db with contexts, nextId := db.nextId + 1 }, db.nextId)

end Negotiation
