/-
This file models the accounting of execution time. A run charges the time
between `activeSince` and the end of its last granted lease; when the budget or
the reply deadline is used up, the last fifteen seconds in which the run may
still be wound up without a model are frozen in `closingDeadline`.
-/

import SecondhandAgent.Schema

namespace Negotiation

/-- A nullable instant that is set and still ahead. -/
def Ahead (instant : Option Time) (now : Time) : Prop :=
  match instant with
  | some instant => now < instant
  | none => False

instance (instant : Option Time) (now : Time) : Decidable (Ahead instant now) :=
  match instant with
  | some instant => inferInstanceAs (Decidable (now < instant))
  | none => inferInstanceAs (Decidable False)

@[simp]
theorem ahead_some (instant now : Time) : Ahead (some instant) now ↔ now < instant := Iff.rfl

@[simp]
theorem ahead_none (now : Time) : ¬ Ahead none now := id

/-- The active milliseconds of a run; an attempt that was lost is charged through its last
granted lease. -/
def usedMs (run : NegotiationInput) (now : Time) : Nat :=
  run.activeMs +
    match run.activeSince, run.activeUntil with
    | some since, some end_ => (min now end_ - since) / 1000
    | _, _ => 0

/-- The active time that is left. -/
def remaining (run : NegotiationInput) (now : Time) : Time :=
  run.config.active - usedMs run now * 1000

/-- The length of the window in which a run is wound up without a model. -/
def closingWindow : Time := seconds 15

/-- Charge the attempt that ends now, and freeze the closing window if the budget ran out. -/
def settle (run : NegotiationInput) (now : Time) : NegotiationInput :=
  let closed :=
    match run.activeSince with
    | some since =>
      if run.closingDeadline = none ∧ remaining run now = 0 then
        some (since + (run.config.active - run.activeMs * 1000) + closingWindow)
      else run.closingDeadline
    | none => run.closingDeadline
  { run with
    closingDeadline := closed
    activeMs := usedMs run now
    activeSince := none
    activeUntil := none }

/-- The delivery that answers a run. -/
def Db.reply (db : Db) (run : Nat) : Option NotificationDelivery :=
  db.deliveries.get (.turnReply run)

/-- How long a model call of the run may take. -/
def modelTimeout (db : Db) (run : NegotiationInput) (now : Time) : Except Failure Time := do
  let budget := min (seconds 45) (remaining run now)
  let timeout :=
    match db.reply run.id with
    | some delivery => min budget (delivery.replyDeadline - now)
    | none => budget
  Store.require (run.closingDeadline = none ∧ 0 < timeout)
    (.budgetExhausted "活动预算或回复期限耗尽")
  pure timeout

/-- The end of the active time or of the reply deadline, whichever comes first. -/
def activityEnd (db : Db) (run : NegotiationInput) (now : Time) : Time :=
  match db.reply run.id with
  | some delivery => min (now + remaining run now) delivery.replyDeadline
  | none => now + remaining run now

/-- The end of a lease that is granted or extended now. The run is returned with the closing
window frozen if its activity is over. -/
def leaseDeadline (db : Db) (run : NegotiationInput) (now : Time)
    (leaseSeconds : Time := seconds 30) : NegotiationInput × Time :=
  match run.closingDeadline with
  | some closing => (run, min (now + leaseSeconds) closing)
  | none =>
    let deadline := activityEnd db run now
    if deadline ≤ now then
      ({ run with closingDeadline := some (deadline + closingWindow) },
        min (now + leaseSeconds) (deadline + closingWindow))
    else (run, min (now + leaseSeconds) (deadline + closingWindow))

end Negotiation
