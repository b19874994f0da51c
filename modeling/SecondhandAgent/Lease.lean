/-
This file is a small theory of fenced leases. A lease counts in its epoch how
often it changed hands, and a holder shows its token together with the epoch it
was granted in. The pair is let through only while the lease is held by that
token, in that epoch, and the time of the holder is not over. A pair that is
not let through any more stays out for ever, whatever moves the lease makes,
because the only move that could let it in again also moves the epoch on.
-/

import Mathlib.Order.Basic

namespace Store

/-- How often a lease changed hands, and who holds it until when. -/
structure Lease (Token : Type) where
  epoch : Nat
  held : Option (Token × Nat) := none

namespace Lease

variable {Token : Type} {lease after : Lease Token} {pair other : Token × Nat}
variable {clock now later : Nat}

/-- The pair of a token and an epoch is let through. -/
def Admits (lease : Lease Token) (pair : Token × Nat) (now : Nat) : Prop :=
  pair.2 = lease.epoch ∧ ∃ end_, lease.held = some (pair.1, end_) ∧ now < end_

/-- Only one pair is let through, at whatever times one asks. -/
theorem Admits.unique (one : lease.Admits pair now) (two : lease.Admits other later) :
    pair = other := by
  obtain ⟨oneEpoch, _, oneHeld, _⟩ := one
  obtain ⟨twoEpoch, _, twoHeld, _⟩ := two
  have token : pair.1 = other.1 := (Prod.mk.inj (Option.some.inj (oneHeld.symm.trans twoHeld))).1
  exact Prod.ext token (oneEpoch.trans twoEpoch.symm)

/-- A pair that is let through was let through before, too. -/
theorem Admits.earlier (admitted : lease.Admits pair later) (le : now ≤ later) :
    lease.Admits pair now := by
  obtain ⟨epoch, end_, held, ahead⟩ := admitted
  exact ⟨epoch, end_, held, Nat.lt_of_le_of_lt le ahead⟩

/-- What can happen to a lease from a time on. -/
inductive Move (clock : Nat) (lease : Lease Token) : Lease Token → Prop
  | kept : Move clock lease lease
  /-- It changes hands. -/
  | granted (token : Token) (end_ : Nat) : Move clock lease ⟨lease.epoch + 1, some (token, end_)⟩
  /-- Its holder, which is let through, gets another end. -/
  | extended {pair : Token × Nat} {now : Nat} (end_ : Nat) (admitted : lease.Admits pair now)
      (since : clock ≤ now) : Move clock lease ⟨lease.epoch, some (pair.1, end_)⟩
  | dropped (epoch : Nat) (le : lease.epoch ≤ epoch) : Move clock lease ⟨epoch, none⟩

theorem Move.epoch_le (move : Move clock lease after) : lease.epoch ≤ after.epoch := by
  cases move with
  | kept => exact Nat.le_refl _
  | granted => exact Nat.le_succ _
  | extended => exact Nat.le_refl _
  | dropped _ le => exact le

/-- A pair that begins to be let through was granted the lease just then. -/
theorem Move.begins (move : Move clock lease after) (le : clock ≤ later)
    (out : ¬ lease.Admits pair clock) (admitted : after.Admits pair later) :
    after.epoch = lease.epoch + 1 := by
  cases move with
  | kept => exact absurd (admitted.earlier le) out
  | granted => rfl
  | @extended holder _ end_ held since =>
    obtain ⟨epoch, _, same, _⟩ := admitted
    have token : holder.1 = pair.1 := (Prod.mk.inj (Option.some.inj same)).1
    have key : pair = holder := Prod.ext token.symm (epoch.trans held.1.symm)
    rw [key] at out
    exact absurd (held.earlier since) out
  | dropped =>
    obtain ⟨_, _, held, _⟩ := admitted
    cases held

/-- The pair had its turn and is not let through any more. -/
structure Lapsed (lease : Lease Token) (pair : Token × Nat) (now : Nat) : Prop where
  reached : pair.2 ≤ lease.epoch
  out : ¬ lease.Admits pair now

/-- What has lapsed stays lapsed. -/
theorem Lapsed.move (lapsed : lease.Lapsed pair clock) (move : Move clock lease after)
    (le : clock ≤ later) : after.Lapsed pair later where
  reached := Nat.le_trans lapsed.reached move.epoch_le
  out admitted := by
    have next := move.begins le lapsed.out admitted
    have reached := lapsed.reached
    have epoch := admitted.1
    omega

end Lease

end Store
