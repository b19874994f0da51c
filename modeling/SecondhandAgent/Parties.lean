/-
This file proves that the system refines an abstract bargain. Its parties are
the buyer, the seller, the clerk that looks after offers which ran out, and the
runner that carries out what the seller consented to; each of them has moves of
its own, and a run of the system is a run of the bargain in which nobody makes
the move of another.
-/

import SecondhandAgent.Bargain
import SecondhandAgent.Schedule
import SecondhandAgent.Simulation

namespace Negotiation

open Store

/-! ### The bargain -/

inductive Party where
  | buyer
  | seller
  | clerk
  | runner
deriving DecidableEq

namespace Deal

/-- An approval that waited for the seller is decided. -/
def Decided (before after : Deal) : Prop :=
  ∃ approval ∈ before.approvals, approval.status = .pending ∧
    ∀ new ∈ after.approvals, new.id = approval.id →
      new.status = .approved ∨ new.status = .rejected

/-- A consent of the seller takes effect. -/
def Granted (before after : Deal) : Prop :=
  ∃ approval ∈ before.approvals, approval.status = .approved ∧
    approval.effectStatus = .notApplied ∧
      ∀ new ∈ after.approvals, new.id = approval.id → new.effectStatus = .applied

/-- The moves of each party. Whoever finds that the current offer ran out ends it. -/
inductive Plays (before after : Deal) : Party → Prop
  | bargains {cleared placed : Deal} (clears : Cleared before cleared)
      (places : Places cleared placed) (limits : after = placed ∨ Limits placed after) :
      Plays before after .buyer
  /-- The buyer repeats an offer, and its approval gets the end of the new quotation. -/
  | repeats (open_ : before.Open) (limits : Limits before after) : Plays before after .buyer
  | withdraws (ends : Ends before after) : Plays before after .buyer
  | closes {cleared : Deal} (clears : Cleared before cleared) (closes : Closes cleared after) :
      Plays before after .buyer
  | agrees (agrees : Agrees before after) : Plays before after .buyer
  | lapses {party : Party} (ends : Ends before after) (other : party ≠ .buyer) :
      Plays before after party
  | decides (answers : Answers before after) (decided : Decided before after) :
      Plays before after .seller
  | grants (answers : Answers before after) (granted : Granted before after) :
      Plays before after .runner

/-- A step of the abstract bargain. -/
def Step (before : Deal) (party : Party) (after : Deal) : Prop := Plays before after party

end Deal

/-- The party that a transaction moves the deal for. -/
def Transaction.party : Transaction → Option Party
  | .execute _ _ _ _ _ => some .buyer
  | .review _ _ _ _ _ _ _ _ => some .seller
  | .reconcileOffer _ => some .clerk
  | .reconcile _ _ | .applyApproval _ _ _ _ _ => some .runner
  | _ => none

def Event.party : Event → Option Party
  | .call transaction => transaction.party
  | .runnerStep _ _ _ _ => some .runner
  | .runnerClaim _ _ | .runnerRaise _ | .runnerCrash _ => none

section

variable [Platform] {db after : Db} {now : Time} {fault : Option FaultPoint}

open Deal

/-! ### The buyer -/

omit [Platform] in
theorem Reconciled.lapses {approvalId : Nat} (reconciled : Reconciled db approvalId after) :
    after.deal = db.deal ∨ Ends db.deal after.deal := by
  cases reconciled with
  | idle same => exact .inl (congrArg Db.deal same)
  | ended ends => exact .inr ends

end

end Negotiation
