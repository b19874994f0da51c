/-
This file shows that the services are made of the moves: each operation on a
room that succeeds takes it through moves whose guards it has checked.
-/

import SecondhandAgent.Legacy.Moves

namespace Negotiation.Legacy

open Store

variable {goods : Option Goods} {room later : Room} {now : Time} {keys : Nat → Prop}

/-! ### Offers -/

section

variable {offer : Offer} {id offerId : Nat} {terms : OfferTerms} {message : Message}
variable {additionalTerms : List (String × String)} {turnOffer expiresAt : Option Time}

theorem newOffer_eq_ok {proposer : OfferProposer}
    (done : newOffer id proposer terms additionalTerms expiresAt = .ok offer) :
    offer.id = id ∧ offer.proposer = proposer ∧ offer.status = .proposed ∧
      offer.terms = additionalTerms := by
  unfold newOffer at done
  simp only [bind_eq_ok, pure_eq_ok] at done
  obtain ⟨discount, -, rfl⟩ := done
  exact ⟨rfl, rfl, rfl, rfl⟩

theorem requireNegotiable_eq_ok {done : Unit}
    (checked : requireNegotiable goods room = .ok done) :
    room.session.status = .active ∧ Available goods := by
  unfold requireNegotiable at checked
  simp only [bind_eq_ok, require_eq_ok] at checked
  obtain ⟨_, active, available⟩ := checked
  exact ⟨active, available⟩

theorem recordBuyerOffer_eq_ok
    (done : recordBuyerOffer goods room id terms additionalTerms expiresAt now = .ok later) :
    room.session.status = .active ∧ ∃ offer proposed, offer.id = id ∧ offer.proposer = .buyer ∧
      offer.status = .proposed ∧ room.propose offer = .ok proposed ∧
      later = proposed.nextRound := by
  unfold recordBuyerOffer at done
  simp only [bind_eq_ok, require_eq_ok, pure_eq_ok] at done
  obtain ⟨_, -, _, negotiable, policy, -, _, -, _, -, offer, made, proposed, offered, rfl⟩ := done
  obtain ⟨named, buyer, open_, -⟩ := newOffer_eq_ok made
  exact ⟨(requireNegotiable_eq_ok negotiable).1, offer, proposed, named, buyer, open_, offered, rfl⟩

theorem submitCounterOffer_eq_ok {result : Room × Offer} (key : keys id)
    (done : submitCounterOffer goods room id terms additionalTerms expiresAt turnOffer now =
      .ok result) :
    result.2.id = id ∧ Room.Move now keys room result.1 := by
  unfold submitCounterOffer at done
  simp only [bind_eq_ok, require_eq_ok, pure_eq_ok] at done
  obtain ⟨_, -, _, negotiable, policy, -, _, -, authorization, -, _, -, _, -, offer, made,
    proposed, offered, rfl⟩ := done
  obtain ⟨named, agent, open_, -⟩ := newOffer_eq_ok made
  exact ⟨named, .countered (requireNegotiable_eq_ok negotiable).1 agent open_ offered (named ▸ key)⟩

theorem acceptOffer_eq_ok {result : Room × Offer}
    (done : acceptOffer goods room offerId now = .ok result) :
    result.2.id = offerId ∧ Room.Move now keys room result.1 := by
  unfold acceptOffer at done
  simp only [bind_eq_ok, require_eq_ok, expect_eq_ok, pure_eq_ok] at done
  obtain ⟨_, negotiable, _, current, offer, found, _, -, _, -, _, -, policy, -, authorization, -,
    _, -, rfl⟩ := done
  have named := Table.key_of_get found
  exact ⟨named, .accepted (requireNegotiable_eq_ok negotiable).1 (named ▸ current)
    (named ▸ found)⟩

end

/-! ### Approvals -/

section

variable {approvalId offerId id policyVersion : Nat} {turnOffer : Option Nat} {expiresAt : Time}

theorem validateOffer_eq_ok {offer : Offer} {done : Unit}
    (checked : validateOffer offer expiresAt now = .ok done) :
    offer.proposer = .buyer ∧ offer.status = .proposed := by
  unfold validateOffer at checked
  simp only [bind_eq_ok, require_eq_ok] at checked
  obtain ⟨_, buyer, _, open_, -⟩ := checked
  exact ⟨buyer, open_⟩

theorem createRequest_moves {result : Room × Nat} (key : keys id)
    (done : createRequest goods room id offerId policyVersion expiresAt now = .ok result) :
    Room.Moves now keys room result.1 := by
  unfold createRequest at done
  simp only [bind_eq_ok, require_eq_ok] at done
  obtain ⟨_, -, done⟩ := done
  split at done
  · simp only [bind_eq_ok, require_eq_ok, pure_eq_ok] at done
    obtain ⟨_, -, _, -, rfl⟩ := done
    exact .refl
  · simp only [bind_eq_ok, require_eq_ok, expect_eq_ok, pure_eq_ok] at done
    obtain ⟨_, active, _, -, _, current, offer, found, _, valid, policy, -, _, -,
      authorization, -, _, -, requested, asked, rfl⟩ := done
    obtain ⟨buyer, open_⟩ := validateOffer_eq_ok valid
    exact .single (.requested active current found buyer open_ rfl ⟨rfl, rfl⟩ asked key)

theorem requestApprovalTool_moves (key : keys id)
    (done : requestApprovalTool goods room id offerId turnOffer now = .ok later) :
    Room.Moves now keys room later := by
  unfold requestApprovalTool at done
  simp only [bind_eq_ok, require_eq_ok, expect_eq_ok, pure_eq_ok] at done
  obtain ⟨_, -, policy, -, _, -, current, -, ⟨requested, _⟩, asked, rfl⟩ := done
  exact createRequest_moves key asked

theorem dismissal_ends (approval : ApprovalRequest) (now : Time) :
    dismissal approval now = .expired ∨ dismissal approval now = .cancelled := by
  unfold dismissal
  split
  · exact .inl rfl
  · exact .inr rfl

theorem cancelRequest_moves (done : cancelRequest room approvalId now = .ok later) :
    Room.Moves now keys room later := by
  unfold cancelRequest at done
  simp only [bind_eq_ok, expect_eq_ok] at done
  obtain ⟨approval, found, done⟩ := done
  split at done
  · cases done
    exact .refl
  · simp only [bind_eq_ok, require_eq_ok, pure_eq_ok] at done
    obtain ⟨_, pending, rfl⟩ := done
    exact .single (.dismissed (Table.key_of_get found ▸ found) pending
      (dismissal_ends approval now))

theorem cancelPendingForNewOffer_moves (done : cancelPendingForNewOffer room now = .ok later) :
    Room.Moves now keys room later := by
  unfold cancelPendingForNewOffer at done
  split at done
  · simp only [bind_eq_ok, require_eq_ok, pure_eq_ok] at done
    obtain ⟨_, -, rfl⟩ := done
    exact .refl
  · next approval found =>
    cases done
    obtain ⟨member, pending⟩ := pending_eq_some found
    exact .single (.dismissed (Table.get_of_mem member) pending (dismissal_ends approval now))

theorem expireRequest_moves (done : expireRequest room approvalId expiresAt = .ok later) :
    Room.Moves now keys room later := by
  unfold expireRequest at done
  simp only [bind_eq_ok, expect_eq_ok] at done
  obtain ⟨approval, found, done⟩ := done
  split at done
  · cases done
    exact .refl
  · simp only [bind_eq_ok, require_eq_ok, pure_eq_ok] at done
    obtain ⟨_, pending, _, -, rfl⟩ := done
    exact .single (.dismissed (Table.key_of_get found ▸ found) pending (.inl rfl))

theorem expireDue_moves (keys : Nat → Prop) (room : Room) (now : Time) : Room.Moves now keys room (room.expireDue now) := by
  unfold Room.expireDue
  split
  · exact .refl
  · next approval found =>
    obtain ⟨member, pending⟩ := pending_eq_some found
    split
    · exact .single (.dismissed (Table.get_of_mem member) pending (.inl rfl))
    · exact .refl

/-- A review without a conflict is about the offer that the session waits for. -/
theorem reviewConflict_eq_none {approval : ApprovalRequest} {offer : Offer}
    (none_ : reviewConflict goods room approval offer now = .ok none) :
    room.session.status = .waitingApproval ∧ room.session.currentOfferId = some offer.id ∧
      offer.proposer = .buyer ∧ offer.status = .proposed := by
  unfold reviewConflict at none_
  simp only [pure, Except.pure] at none_
  repeat' split at none_
  all_goals first | cases none_ | skip
  all_goals simp_all

theorem reviewRequest_moves {requestId : String} {comment : Option String} {approved taken : Bool}
    {result : Room × Option String}
    (unique : taken = false → ∀ other ∈ room.approvals, other.id ≠ approvalId →
      other.followupRequestId ≠ some requestId)
    (done : reviewRequest goods room approvalId requestId comment approved taken now =
      .ok result) :
    Room.Moves now keys room result.1 := by
  unfold reviewRequest at done
  simp only [bind_eq_ok, expect_eq_ok] at done
  obtain ⟨approval, found, offer, about, done⟩ := done
  split at done
  · cases done
    exact .refl
  · simp only [bind_eq_ok, require_eq_ok] at done
    obtain ⟨_, pending, conflict, checked, done⟩ := done
    have named := Table.key_of_get found
    cases conflict with
    | some text =>
      cases done
      exact .single (.dismissed (named ▸ found) pending (.inl rfl))
    | none =>
      simp only [bind_eq_ok, require_eq_ok, pure_eq_ok] at done
      obtain ⟨_, free, rfl⟩ := done
      obtain ⟨waiting, current, -, open_⟩ := reviewConflict_eq_none checked
      exact .single (.reviewed (named ▸ found) pending waiting current about open_
        (named ▸ unique free))

end

/-! ### The agent -/

section

variable {id messageId offerId : Nat} {requestId : String} {turnOffer : Option Nat}

theorem persistResult_moves {result : AgentTurnResult} {replied : Room × Message}
    (key : keys messageId)
    (silent : storedOutcome (some result.outcome) = none)
    (done : room.persistResult messageId requestId result = .ok replied) :
    Room.Moves now keys room replied.1 := by
  unfold Room.persistResult at done
  simp only [bind_eq_ok, pure_eq_ok] at done
  obtain ⟨posted, done, rfl⟩ := done
  exact .single (.said done key (.inl rfl) silent (by rintro ⟨⟩))

theorem executeDecision_moves (goods : Option Goods) (room : Room) (id : Nat)
    (turnOffer : Option Nat) (decision : NegotiationDecision) (now : Time) (key : keys id) :
    Room.Moves now keys room (executeDecision goods room id turnOffer decision now).1 ∧
      storedOutcome (some (executeDecision goods room id turnOffer decision now).2.outcome) =
        none := by
  cases decision with
  | counter terms additionalTerms =>
    unfold executeDecision
    dsimp only
    split
    · exact ⟨.refl, rfl⟩
    · next countered offer done =>
      have move : Room.Move now keys room countered := (submitCounterOffer_eq_ok key done).2
      split
      · exact ⟨.single move, rfl⟩
      · exact ⟨.single move, rfl⟩
  | accept offerId =>
    unfold executeDecision
    dsimp only
    split
    · exact ⟨.refl, rfl⟩
    · split
      · exact ⟨.refl, rfl⟩
      · next accepted offer done =>
        have move : Room.Move now keys room accepted := (acceptOffer_eq_ok done).2
        split
        · exact ⟨.single move, rfl⟩
        · exact ⟨.single move, rfl⟩
  | requestApproval offerId =>
    unfold executeDecision
    dsimp only
    split
    · exact ⟨.refl, rfl⟩
    · split
      · exact ⟨.refl, rfl⟩
      · exact ⟨.refl, rfl⟩
      · next requested done => exact ⟨requestApprovalTool_moves key done, rfl⟩
  | inquiry reply => cases reply <;> exact ⟨.refl, rfl⟩
  | reject => exact ⟨.refl, rfl⟩

theorem runTool_moves {call : ToolCall} {result : Room × AgentTurnResult} (key : keys id)
    (done : runTool goods room id turnOffer call now = some result) :
    Room.Moves now keys room result.1 ∧ storedOutcome (some result.2.outcome) = none := by
  cases call with
  | submitCounterOffer terms additionalTerms =>
    unfold runTool at done
    dsimp only at done
    split at done
    · exact absurd done nofun
    · next countered offer made =>
      split at done
      · cases done
        exact ⟨.single (submitCounterOffer_eq_ok key made).2, rfl⟩
      · exact absurd done nofun
  | acceptOffer offerId =>
    unfold runTool at done
    dsimp only at done
    split at done
    · exact absurd done nofun
    · split at done
      · exact absurd done nofun
      · next accepted offer made =>
        split at done
        · cases done
          exact ⟨.single (acceptOffer_eq_ok made).2, rfl⟩
        · exact absurd done nofun
  | requestApproval offerId =>
    unfold runTool at done
    dsimp only at done
    split at done
    · exact absurd done nofun
    · split at done
      · exact absurd done nofun
      · next requested made =>
        cases done
        exact ⟨requestApprovalTool_moves key made, rfl⟩
  | finishTurn decision notWriting =>
    unfold runTool at done
    cases done
    exact executeDecision_moves _ _ _ _ _ _ key
  | other => exact absurd done nofun

end

/-! ### The buyer -/

section

variable [Platform]

theorem speak_moves {request : SendMessageRequest} {offerId messageId : Nat}
    {result : Room × Message} (key : keys offerId) (messageKey : keys messageId)
    (done : speak goods room offerId messageId request now = .ok result) :
    Room.Moves now keys room result.1 ∧ result.2.id = messageId ∧ result.2.role = .buyer ∧
      result.2.requestId = request.requestId.text ∧
      result.2.requestFingerprint = some request.fingerprint := by
  unfold speak at done
  simp only [bind_eq_ok, pure_eq_ok] at done
  obtain ⟨offered, recorded, spoken, posted, rfl⟩ := done
  refine ⟨?_, rfl, rfl, rfl, rfl⟩
  unfold recordOffer at recorded
  cases chosen : request.offer with
  | none =>
    rw [chosen] at recorded posted
    cases recorded
    exact .single (.said posted messageKey (.inr rfl) rfl fun _ => ⟨rfl, request.requestId.valid⟩)
  | some offer =>
    rw [chosen] at recorded posted
    simp only [bind_eq_ok] at recorded
    obtain ⟨free, freed, recorded⟩ := recorded
    have first : Room.Moves now keys room free := by
      unfold makeWay at freed
      split at freed
      · exact cancelPendingForNewOffer_moves freed
      · cases freed
        exact .refl
    obtain ⟨active, made, proposed, named, buyer, open_, offered_, rfl⟩ :=
      recordBuyerOffer_eq_ok recorded
    exact first.tail (.offered active buyer open_ offered_ rfl (congrArg some named.symm) rfl
      request.requestId.valid posted (named ▸ key) messageKey)

end

theorem closeNegotiation_moves {messageId : Nat} {requestId : RequestId} (key : keys messageId)
    (done : closeNegotiation room messageId requestId.text = .ok later) :
    Room.Moves now keys room later := by
  unfold closeNegotiation at done
  simp only [bind_eq_ok, require_eq_ok] at done
  obtain ⟨_, unagreed, done⟩ := done
  split at done
  · simp only [bind_eq_ok, require_eq_ok, pure_eq_ok] at done
    obtain ⟨_, -, rfl⟩ := done
    exact .refl
  · next unclosed =>
    simp only [bind_eq_ok, require_eq_ok] at done
    obtain ⟨_, -, posted⟩ := done
    have open_ : room.Open := by
      unfold Room.Open
      cases status : room.session.status with
      | active => exact .inl rfl
      | waitingApproval => exact .inr rfl
      | agreed => exact absurd status unagreed
      | closed => exact absurd status unclosed
    exact .single (.closed open_ posted key)

theorem confirmOffer_eq_ok {messageId offerId : Nat} {requestId : RequestId} {taken : Bool}
    (done : confirmOffer goods room messageId offerId requestId.text taken now = .ok later) :
    later = room ∨ ∃ offer policy, offer.id = offerId ∧
      room.Confirms goods now offer policy requestId messageId later := by
  unfold confirmOffer at done
  split at done
  · simp only [bind_eq_ok, pure_eq_ok] at done
    obtain ⟨_, -, rfl⟩ := done
    exact .inl rfl
  · simp only [bind_eq_ok, require_eq_ok, expect_eq_ok] at done
    obtain ⟨_, active, _, current, _, available, offer, found, _, lasting, policy, ruled, source,
      sourced, _, -, _, -, posted⟩ := done
    have named := Table.key_of_get found
    subst named
    exact .inr ⟨offer, policy, rfl, active, current, available, found, lasting, ruled,
      source, sourced, posted⟩

end Negotiation.Legacy
