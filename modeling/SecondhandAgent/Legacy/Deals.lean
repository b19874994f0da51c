/-
This file proves that the deals of the older runtime are safe and final: a
session is only agreed by its buyer, on its current offer, within the rules of
the seller and after the agent has said so, and what is concluded stays as it
is.
-/

import SecondhandAgent.Legacy.Changes
import SecondhandAgent.Runs

namespace Negotiation.Legacy

open Store

/-! ### Concluded sessions -/

/-- The session has come to its end. -/
def Room.Concluded (room : Room) : Prop :=
  room.session.status = .agreed ∨ room.session.status = .closed

/-- What an ended session keeps. -/
structure Room.Rests (room later : Room) : Prop where
  status : later.session.status = room.session.status
  currentOfferId : later.session.currentOfferId = room.session.currentOfferId
  confirmedOfferId : later.session.confirmedOfferId = room.session.confirmedOfferId
  roundCount : later.session.roundCount = room.session.roundCount
  accepted : ∀ offer, room.offers.get offer.id = some offer → offer.status = .accepted →
    later.offers.get offer.id = some offer

/-- An agreed session has accepted its current offer. -/
def Room.Settled (room : Room) : Prop :=
  room.session.status = .agreed → ∃ offer, room.session.currentOfferId = some offer.id ∧
    room.session.confirmedOfferId = some offer.id ∧ room.offers.get offer.id = some offer ∧
    offer.status = .accepted

section

variable {room later : Room} {now : Time} {keys : Nat → Prop} {messageId : Nat}

theorem Room.Rests.refl (room : Room) : room.Rests room := ⟨rfl, rfl, rfl, rfl, fun _ found _ => found⟩

theorem Room.Rests.trans {mid : Room} (first : room.Rests mid) (second : mid.Rests later) :
    room.Rests later where
  status := second.status.trans first.status
  currentOfferId := second.currentOfferId.trans first.currentOfferId
  confirmedOfferId := second.confirmedOfferId.trans first.confirmedOfferId
  roundCount := second.roundCount.trans first.roundCount
  accepted offer found accepted := second.accepted offer (first.accepted offer found accepted) accepted

theorem Room.Rests.concluded (rests : room.Rests later) (ended : room.Concluded) :
    later.Concluded := by
  unfold Room.Concluded
  rw [rests.status]
  exact ended

theorem Room.Concluded.not_active (ended : room.Concluded) : room.session.status ≠ .active := by
  obtain status | status := ended <;> rw [status] <;> exact nofun

theorem Room.Concluded.not_waiting (ended : room.Concluded) :
    room.session.status ≠ .waitingApproval := by
  obtain status | status := ended <;> rw [status] <;> exact nofun

theorem restoreActive_of_concluded (room : Room) (ended : room.Concluded) : room.restoreActive = room := by
  unfold Room.restoreActive
  rw [if_neg ended.not_waiting]

/-- No move leaves the end. -/
theorem Room.Move.rests (move : Room.Move now keys room later) (ended : room.Concluded) :
    room.Rests later := by
  cases move with
  | said done =>
    obtain ⟨session, offers, -⟩ := post_session done
    exact ⟨by rw [session], by rw [session], by rw [session], by rw [session],
      fun _ found _ => by rw [offers]; exact found⟩
  | offered active | countered active | accepted active | requested active =>
    exact absurd active ended.not_active
  | reviewed _ _ waiting => exact absurd waiting ended.not_waiting
  | closed open_ =>
    obtain active | waiting := open_
    · exact absurd active ended.not_active
    · exact absurd waiting ended.not_waiting
  | @dismissed approval status =>
    unfold Room.dismiss
    rw [restoreActive_of_concluded (room.setApproval _) ended]
    exact ⟨rfl, rfl, rfl, rfl, fun _ found _ => found⟩
  | marked => exact ⟨rfl, rfl, rfl, rfl, fun _ found _ => found⟩
  | sent => exact ⟨rfl, rfl, rfl, rfl, fun _ found _ => found⟩

theorem Room.Moves.rests (moves : Room.Moves now keys room later) (ended : room.Concluded) :
    room.Rests later := by
  induction moves with
  | refl => exact .refl room
  | tail _ move inductionHypothesis =>
    exact inductionHypothesis.trans (move.rests (inductionHypothesis.concluded ended))

/-- What an event of a follow-up says of the approval and its offer. -/
theorem resolveEvent_eq_ok {context : FollowupContext} {event : ApprovalFollowupEvent}
    (resolved : resolveEvent context now = .ok event) :
    context.offer.proposer = .buyer ∧
      ((event = .rejected ∧ context.approval.status = .rejected ∧
          context.offer.status = .rejected) ∨
        (event = .approved ∧ context.approval.status = .approved ∧ context.Stands now) ∨
        (event = .invalidated ∧ context.approval.status = .approved)) := by
  unfold resolveEvent at resolved
  simp only [bind_eq_ok, require_eq_ok] at resolved
  obtain ⟨_, buyer, resolved⟩ := resolved
  refine ⟨buyer, ?_⟩
  split at resolved
  · next refused =>
    simp only [bind_eq_ok, require_eq_ok, pure_eq_ok] at resolved
    obtain ⟨_, offer, rfl⟩ := resolved
    exact .inl ⟨rfl, refused, offer⟩
  · simp only [bind_eq_ok, require_eq_ok] at resolved
    obtain ⟨_, approved, resolved⟩ := resolved
    refine .inr ?_
    split at resolved
    · next stands =>
      split at resolved
      · cases resolved
        exact .inr ⟨rfl, approved⟩
      · split at resolved
        · cases resolved
        · cases resolved
          split
          · exact .inl ⟨rfl, approved, stands⟩
          · exact .inr ⟨rfl, approved⟩
    · cases resolved
      exact .inr ⟨rfl, approved⟩

theorem persistMessage_session {context : FollowupContext} {messageId : Nat} {requestId : String}
    {event outcome : ApprovalFollowupEvent}
    (done : room.persistMessage context messageId requestId event outcome = .ok later) :
    later.session = room.session ∧ later.offers = room.offers := by
  obtain ⟨posted, sent, rfl⟩ := persistMessage_eq_ok.mp done
  obtain ⟨session, offers, -⟩ := post_session sent
  exact ⟨session, offers⟩

/-- A follow-up finds an ended session only to tell that its review is void. -/
theorem Room.Tells.rests {context : FollowupContext} {event : ApprovalFollowupEvent} {void : Bool}
    (tells : Room.Tells context event void now messageId later) (ended : context.room.Concluded) :
    context.room.Rests later := by
  obtain ⟨requestId, -, -, persisted⟩ := tells.done
  obtain ⟨session, offers⟩ := persistMessage_session persisted
  have named := Table.key_of_get tells.about
  have about : context.room.offers.get context.offer.id = some context.offer :=
    named ▸ tells.about
  have notApproved : event ≠ .approved := by
    rintro rfl
    obtain ⟨-, ⟨wrong, -⟩ | ⟨-, -, stands⟩ | ⟨wrong, -⟩⟩ := resolveEvent_eq_ok tells.resolved
    · exact absurd wrong nofun
    · exact ended.not_waiting stands.1
    · exact absurd wrong nofun
  have applied : context.room.Rests (applySuccessfulEvent context event) := by
    rw [applySuccessfulEvent_eq about,
      restoreActive_of_concluded (context.room.setOffer _ _) ended]
    refine ⟨rfl, rfl, rfl, rfl, fun offer found accepted => ?_⟩
    by_cases this : offer.id = context.offer.id
    · rw [this, about] at found
      cases found
      have kept : eventStatus event context.offer = context.offer.status := by
        unfold eventStatus
        cases event with
        | approved => exact absurd rfl notApproved
        | rejected => rfl
        | invalidated => rw [accepted]; rfl
      rw [kept, setOffer_self about]
      exact about
    · exact (setOffer_get about offer.id).trans ((if_neg this).trans found)
  have stays : ∀ base : Room, later.session = base.session → later.offers = base.offers →
      context.room.Rests base → context.room.Rests later := fun base session offers rests =>
    ⟨by rw [session]; exact rests.status, by rw [session]; exact rests.currentOfferId,
      by rw [session]; exact rests.confirmedOfferId, by rw [session]; exact rests.roundCount,
      fun offer found accepted => by rw [offers]; exact rests.accepted offer found accepted⟩
  refine stays _ session offers ?_
  split
  · exact .refl _
  · exact applied

end

/-! ### Confirmations -/

/-- The rules of the seller allow the offer, and a public message of the agent is about it. -/
inductive Room.Licensed (room : Room) (offer : Offer) (policy : SellerPolicy) : Prop
  | counterOffer {authorization : OfferAuthorization} (agent : offer.proposer = .agent)
      (authorized : authorizeStoredOffer offer policy = .ok authorization)
      (allowed : authorization.canSubmitCounterOffer = true)
      (told : room.HasFormalAgentMessage offer.id .counterOffered)
  | acceptance {authorization : OfferAuthorization} (buyer : offer.proposer = .buyer)
      (authorized : authorizeStoredOffer offer policy = .ok authorization)
      (allowed : authorization.canAcceptAutomatically = true)
      (told : room.HasFormalAgentMessage offer.id .offerAccepted)
  | approval {authorization : OfferAuthorization} {approval : ApprovalRequest}
      (buyer : offer.proposer = .buyer)
      (authorized : authorizeStoredOffer offer policy = .ok authorization)
      (allowed : authorization.canRequestApproval = true)
      (approved : approval ∈ room.approvals ∧ approval.offerId = offer.id ∧
        approval.status = .approved ∧ approval.policyVersion = policy.version)
      (told : room.HasFormalAgentMessage offer.id .approvalApproved)

/-- The buyer agrees to the current offer of the session, which is licensed and has not expired. -/
def Db.Agrees (before : Db) (event : Event) (sessionId : Nat) (later : Room) : Prop :=
  ∃ room offer policy buyerId requestId now,
    event = .confirm sessionId buyerId offer.id requestId now ∧
    before.rooms.get sessionId = some room ∧ room.session.currentOfferId = some offer.id ∧
    room.offers.get offer.id = some offer ∧ ¬ Expired offer.expiresAt now ∧
    policyOf (before.goodsOf room) = some policy ∧ room.Licensed offer policy ∧
    later.session.currentOfferId = some offer.id ∧
    later.session.confirmedOfferId = some offer.id ∧
    later.offers.get offer.id = some { offer with status := .accepted }

section

variable {room later : Room} {goods : Option Goods} {now : Time} {offer : Offer}
variable {policy : SellerPolicy} {requestId : RequestId} {messageId : Nat} {keys : Nat → Prop}

theorem confirmationSource_eq_ok {source : ConfirmationSource}
    (sourced : confirmationSource room offer policy = .ok source) :
    room.Licensed offer policy := by
  unfold confirmationSource at sourced
  cases authorized : authorizeStoredOffer offer policy with
  | error fault =>
    rw [authorized] at sourced
    cases sourced
  | ok authorization =>
    rw [authorized] at sourced
    simp only [pure_bind] at sourced
    split at sourced
    · next agent =>
      simp only [bind_eq_ok, require_eq_ok] at sourced
      obtain ⟨_, ⟨-, allowed, told⟩, -⟩ := sourced
      exact .counterOffer agent authorized allowed told
    · next buyer =>
      simp only [bind_eq_ok, require_eq_ok] at sourced
      obtain ⟨_, -, sourced⟩ := sourced
      split at sourced
      · next approval found =>
        simp only [bind_eq_ok, require_eq_ok] at sourced
        obtain ⟨_, ⟨approved, -, version, allowed, told⟩, -⟩ := sourced
        have about : approval.offerId = offer.id := by simpa using List.find?_some found
        exact .approval buyer authorized allowed
          ⟨List.mem_of_find?_eq_some found, about, approved, version⟩ told
      · simp only [bind_eq_ok, require_eq_ok] at sourced
        obtain ⟨_, ⟨allowed, told⟩, -⟩ := sourced
        exact .acceptance buyer authorized allowed told

theorem Room.Confirms.licensed (confirms : room.Confirms goods now offer policy requestId messageId later) :
    room.Licensed offer policy := by
  obtain ⟨source, sourced, -⟩ := confirms.done
  exact confirmationSource_eq_ok sourced

theorem Room.Confirms.settled (confirms : room.Confirms goods now offer policy requestId messageId later) :
    later.session.id = room.session.id ∧ later.session.status = .agreed ∧
      later.session.currentOfferId = some offer.id ∧
      later.session.confirmedOfferId = some offer.id ∧
      later.offers.get offer.id = some { offer with status := .accepted } := by
  obtain ⟨source, -, posted⟩ := confirms.done
  obtain ⟨session, offers, -⟩ := post_session posted
  rw [session, offers]
  exact ⟨rfl, rfl, confirms.current, rfl, (setOffer_get confirms.found offer.id).trans (if_pos rfl)⟩

theorem restoreActive_agreed (room : Room) (agreed : room.restoreActive.session.status = .agreed) :
    room.session.status = .agreed := by
  rw [restoreActive_status] at agreed
  split at agreed
  · exact absurd agreed nofun
  · exact agreed

/-- No move agrees. -/
theorem Room.Move.agreed (move : Room.Move now keys room later)
    (agreed : later.session.status = .agreed) : room.session.status = .agreed := by
  cases move with
  | said done => rwa [(post_session done).1] at agreed
  | offered active buyer open_ offered role named silent valid done =>
    rw [(post_session done).1] at agreed
    obtain ⟨offers, -, rfl⟩ := propose_eq_ok.mp offered
    simpa [Room.nextRound, NegotiationSession.next] using agreed
  | countered active agent open_ done =>
    obtain ⟨offers, -, rfl⟩ := propose_eq_ok.mp done
    simpa [NegotiationSession.next] using agreed
  | accepted => exact agreed
  | requested active current found buyer open_ pending unreviewed done =>
    obtain ⟨-, -, approvals, -, rfl⟩ := request_eq_ok.mp done
    exact absurd agreed nofun
  | dismissed =>
    exact restoreActive_agreed (room.setApproval _) agreed
  | @reviewed approval offer requestId comment approved =>
    cases approved with
    | true => exact agreed
    | false => exact restoreActive_agreed ((room.setApproval _).setOffer _ _) agreed
  | closed open_ done =>
    rw [(post_session done).1] at agreed
    exact absurd agreed nofun
  | marked => exact agreed
  | sent => exact agreed

theorem Room.Moves.agreed (moves : Room.Moves now keys room later)
    (agreed : later.session.status = .agreed) : room.session.status = .agreed := by
  induction moves with
  | refl => exact agreed
  | tail _ move inductionHypothesis => exact inductionHypothesis (move.agreed agreed)

theorem Room.Tells.agreed {context : FollowupContext} {event : ApprovalFollowupEvent} {void : Bool}
    (tells : Room.Tells context event void now messageId later)
    (agreed : later.session.status = .agreed) : context.room.session.status = .agreed := by
  obtain ⟨requestId, -, -, persisted⟩ := tells.done
  rw [(persistMessage_session persisted).1] at agreed
  split at agreed
  · exact agreed
  · have about : context.room.offers.get context.offer.id = some context.offer :=
      Table.key_of_get tells.about ▸ tells.about
    rw [applySuccessfulEvent_eq about] at agreed
    exact restoreActive_agreed (context.room.setOffer _ _) agreed

end

/-! ### Runs -/

section

variable {db later : Db} {event : Event} {now : Time} {room new : Room} {sessionId messageId : Nat}

theorem Room.Tells.session {context : FollowupContext} {told : Room}
    {kind : ApprovalFollowupEvent} {void : Bool}
    (tells : Room.Tells context kind void now messageId told) :
    SameStanding context.room.session told.session := by
  obtain ⟨requestId, -, -, persisted⟩ := tells.done
  rw [(persistMessage_session persisted).1]
  split
  · exact .refl _
  · have about : context.room.offers.get context.offer.id = some context.offer :=
      Table.key_of_get tells.about ▸ tells.about
    rw [applySuccessfulEvent_eq about]
    exact restoreActive_standing (context.room.setOffer _ _)

theorem Db.Evolves.agreed (evolves : Db.Evolves now db later)
    (found : later.rooms.get sessionId = some new) (agreed : new.session.status = .agreed) :
    ∃ room, db.rooms.get sessionId = some room ∧ room.session.status = .agreed := by
  cases before : db.rooms.get sessionId with
  | none =>
    obtain ⟨made, ⟨session, rfl, active, -⟩, moves⟩ := evolves.came found before
    have wrong : session.status = .agreed := moves.agreed agreed
    rw [active] at wrong
    exact absurd wrong nofun
  | some room =>
    obtain ⟨other, here, moves⟩ := evolves.kept before
    rw [found] at here
    cases here
    exact ⟨room, rfl, moves.agreed agreed⟩

theorem setRoom_get {changed : Room} (named : changed.id = room.id)
    (found : db.rooms.get room.id = some room) (sessionId : Nat) :
    (db.setRoom changed).rooms.get sessionId =
      if sessionId = room.id then some changed else db.rooms.get sessionId := by
  rw [← named]
  exact Table.get_put (named ▸ found)

/-- A session that is agreed was so before, or its buyer agrees to an offer. -/
theorem Db.Change.agreed (change : db.Change event later)
    (found : later.rooms.get sessionId = some new) (agreed : new.session.status = .agreed) :
    (∃ room, db.rooms.get sessionId = some room ∧ room.session.status = .agreed) ∨
      db.Agrees event sessionId new := by
  cases change with
  | evolved evolves => exact .inl (evolves.agreed found agreed)
  | @confirmed _ confirmedId buyerId requestId now room changed offer policy here confirms rooms supply =>
    obtain ⟨same, -, current, confirmed, accepted⟩ := confirms.settled
    have named : room.id = confirmedId := Table.key_of_get here
    subst named
    have made : later.rooms.get sessionId = (db.setRoom changed).rooms.get sessionId := by
      rw [rooms]
      rfl
    rw [made, setRoom_get same here] at found
    split at found
    · next this =>
      subst this
      cases found
      exact .inr ⟨room, offer, policy, buyerId, requestId, now, rfl, here, confirms.current,
        confirms.found, confirms.lasting, confirms.ruled, confirms.licensed, current, confirmed,
        accepted⟩
    · exact .inl ⟨new, found, agreed⟩
  | delivered held here loaded resolved snapshot tells evolves =>
    obtain ⟨room, found, agreed⟩ := evolves.agreed found agreed
    obtain ⟨approvalId, -, seen⟩ := Option.bind_eq_some_iff.mp here
    obtain ⟨rfl, rfl, -⟩ := loadContext_eq_ok loaded
    rw [setRoom_get tells.session.id (approval_eq_some seen).1] at found
    split at found
    · next this =>
      cases found
      exact .inl ⟨_, this ▸ (approval_eq_some seen).1, tells.agreed agreed⟩
    · exact .inl ⟨room, found, agreed⟩

/-- An ended session stays as it is. -/
theorem Db.Change.rests (change : db.Change event later)
    (found : db.rooms.get sessionId = some room) (ended : room.Concluded) :
    ∃ new, later.rooms.get sessionId = some new ∧ room.Rests new := by
  cases change with
  | evolved evolves =>
    obtain ⟨new, here, moves⟩ := evolves.kept found
    exact ⟨new, here, moves.rests ended⟩
  | @confirmed _ confirmedId _ _ _ confirmedRoom changed _ _ here confirms rooms supply =>
    refine ⟨room, ?_, .refl room⟩
    have this : sessionId ≠ confirmedId := by
      rintro rfl
      rw [found] at here
      cases here
      exact ended.not_active confirms.active
    have owner : confirmedRoom.id = confirmedId := Table.key_of_get here
    have named : changed.id = confirmedId := confirms.settled.1.trans owner
    rw [rooms, Table.get_put_ne (by rw [named]; exact this)]
    exact found
  | @delivered _ _ _ _ _ _ _ _ _ told _ _ _ _ held here loaded resolved snapshot tells evolves =>
    obtain ⟨approvalId, -, seen⟩ := Option.bind_eq_some_iff.mp here
    obtain ⟨rfl, rfl, -⟩ := loadContext_eq_ok loaded
    have between := setRoom_get tells.session.id (approval_eq_some seen).1 sessionId
    split at between
    · next this =>
      have same : sessionId = _ := this
      rw [same, (approval_eq_some seen).1] at found
      cases found
      have rests := tells.rests ended
      obtain ⟨new, found, moves⟩ := evolves.kept between
      exact ⟨new, found, rests.trans (moves.rests (rests.concluded ended))⟩
    · rw [found] at between
      obtain ⟨new, here, moves⟩ := evolves.kept between
      exact ⟨new, here, moves.rests ended⟩

theorem Db.Change.settled (change : db.Change event later)
    (before : ∀ room ∈ db.rooms, room.Settled) : ∀ room ∈ later.rooms, room.Settled := by
  intro new member agreed
  have found := Table.get_of_mem member
  obtain ⟨room, here, agreedBefore⟩ | agrees := change.agreed found agreed
  · obtain ⟨offer, current, confirmed, stored, accepted⟩ :=
      before room (Table.mem_of_get here) agreedBefore
    obtain ⟨other, same, rests⟩ := change.rests here (.inl agreedBefore)
    rw [found] at same
    cases same
    exact ⟨offer, rests.currentOfferId.trans current, rests.confirmedOfferId.trans confirmed,
      rests.accepted offer stored accepted, accepted⟩
  · obtain ⟨room, offer, policy, buyerId, requestId, now, -, -, -, -, -, -, -, current, confirmed,
      accepted⟩ := agrees
    exact ⟨{ offer with status := .accepted }, current, confirmed, accepted, rfl⟩

variable [Platform] [Unicode] {retry : ModelRetryPolicy} {last : Db}
variable {history : List (Transition Db Event)}

/-- In every run a session becomes agreed only when its buyer confirms its current offer, which
has not expired, is allowed by the rules in force and is the subject of a message of the agent;
from then on, as after it is closed, it stays as it is, and the offer accepted. -/
theorem run_keeps_deals (reached : Reachable (Db.Step retry) Db.Initial db)
    (run : Run (Db.Step retry) db history last) :
    (∀ transition ∈ history, ∀ sessionId new,
      transition.after.rooms.get sessionId = some new → new.session.status = .agreed →
        (∃ room, transition.before.rooms.get sessionId = some room ∧
          room.session.status = .agreed) ∨
        transition.before.Agrees transition.event sessionId new) ∧
      (∀ sessionId room, db.rooms.get sessionId = some room → room.Concluded →
        ∃ new, last.rooms.get sessionId = some new ∧ room.Rests new) ∧
      ∀ room ∈ last.rooms, room.Settled := by
  refine ⟨fun transition member sessionId new found agreed => ?_, fun sessionId room found ended => ?_,
    ?_⟩
  · have taken : transition.after = transition.before.next retry transition.event :=
      run.taken member
    rw [taken] at found
    exact (next_change retry transition.before transition.event).agreed found agreed
  · let resting (db : Db) : Prop := ∃ new, db.rooms.get sessionId = some new ∧ room.Rests new
    have stays : ∀ before event after, Db.Step retry before event after →
        resting before → resting after := by
      rintro before event after taken ⟨between, here, rests⟩
      obtain ⟨new, found, further⟩ :=
        (next_change retry before event).rests here (rests.concluded ended)
      exact ⟨new, taken ▸ found, rests.trans further⟩
    have begins : resting db := ⟨room, found, .refl room⟩
    have ends : resting last := run.kept stays begins
    exact ends
  · refine (reached.extend run).invariant (fun db => ∀ room ∈ db.rooms, room.Settled) ?_ ?_
    · rintro _ rfl room member
      exact absurd member (Table.not_mem_empty room)
    · intro before event after holds taken
      rw [show after = before.next retry event from taken]
      exact (next_change retry before event).settled holds

end

/-- An offer that is accepted at once is confirmed, and the buyer writes again. -/
def agreeing : List Event :=
  opening ++
    [offering ⟨"request-1", by decide⟩ (some ⟨9500, by decide⟩) 1,
      .confirm 2 "buyer" 3 ⟨"confirm-1", by decide⟩ (seconds 2),
      offering ⟨"request-2", by decide⟩ none 3]

attribute [local instance] samplePlatform sampleUnicode in
/-- The session is agreed, and has accepted its offer. -/
theorem run_keeps_deals_agreeing :
    ((({} : Db).after sampleRetry agreeing).rooms.get 2).map (·.session.status) = some .agreed ∧
      ∀ room ∈ (({} : Db).after sampleRetry agreeing).rooms, room.Settled :=
  ⟨by decide +kernel,
    (run_keeps_deals (.start rfl) (Db.run_history sampleRetry agreeing (.start _))).2.2⟩

end Negotiation.Legacy
