/-
This file says what it means that an assessment finds nothing missing. A
condition counts as satisfied exactly when the value of its fact meets it in the
sense of `Predicate.MetBy`; a fact that is unknown, a value that fails and a
condition that cannot be checked never do. The fact is the latest one of its
name, and the shipping the seller pays comes from the only rule in force.
-/

import SecondhandAgent.Evidence

namespace Negotiation

/-! ### The latest fact -/

section

variable [Platform]

variable {db : Db} {predicate : Predicate}

/-- Nothing is missing for an offer of the candidate: it is priced, the latest facts meet its
conditions and allow its delivery, nothing else was promised, and the shipping is paid by the
buyer or priced by the only rule in force. -/
structure Backed (db : Db) (candidate : Candidate) (now : Time) : Prop where
  priced : candidate.amount ≠ none
  met : ∀ condition ∈ candidate.conditions.zipIdx,
    (evaluate db condition.1 condition.2).result = .satisfied
  delivered : ∃ method fact, candidate.delivery = some method ∧
    factFor db .allowedDeliveryMethods = some fact ∧ method ∈ allowedMethods fact
  uncommitted : candidate.commitments = []
  paid : candidate.payer ≠ none ∨ candidate.delivery = some .pickup
  consistent : candidate.payer = some .seller → candidate.delivery ≠ some .pickup
  ruled : (shippingRule db candidate now).1 = []

omit [Platform] in
theorem missing_if {absent : Prop} [Decidable absent] {missing : Missing} :
    (if absent then [missing] else []) = [] ↔ ¬ absent := by
  by_cases gone : absent <;> simp [gone]

theorem assess_missing {candidate : Candidate} {now : Time} :
    (assess db candidate now).missing = [] ↔ Backed db candidate now := by
  unfold assess
  simp only [List.append_eq_nil_iff, missing_if, List.map_eq_nil_iff, List.filter_eq_nil_iff,
    List.mem_map, forall_exists_index, and_imp, forall_apply_eq_imp_iff₂, decide_eq_true_eq,
    not_not, not_and]
  constructor
  · rintro ⟨⟨⟨⟨⟨⟨⟨priced, chosen⟩, paid⟩, met⟩, delivered⟩, uncommitted⟩, consistent⟩, ruled⟩
    obtain ⟨method, chosen⟩ := Option.ne_none_iff_exists'.mp chosen
    rw [chosen] at delivered
    cases allowed : factFor db .allowedDeliveryMethods with
    | none =>
      rw [allowed] at delivered
      cases delivered
    | some fact =>
      rw [allowed] at delivered
      refine ⟨priced, met, ⟨method, fact, chosen, allowed, ?_⟩, uncommitted, ?_, ?_, ruled⟩
      · by_cases among : method ∈ allowedMethods fact
        · exact among
        · simp only [if_neg among] at delivered
          cases delivered
      · by_cases named : candidate.payer = none
        · exact .inr (paid named)
        · exact .inl named
      · exact fun seller collected => consistent collected seller
  · rintro ⟨priced, met, ⟨method, fact, chosen, allowed, among⟩, uncommitted, paid, consistent, ruled⟩
    refine ⟨⟨⟨⟨⟨⟨⟨priced, ?_⟩, fun unnamed => ?_⟩, met⟩, ?_⟩, uncommitted⟩,
      fun collected seller => consistent seller collected⟩, ruled⟩
    · rw [chosen]
      exact Option.some_ne_none method
    · exact paid.resolve_left (not_not_intro unnamed)
    · rw [chosen, allowed]
      exact if_pos among

/-- The rule gives the shipping to a region now. -/
def ShippingCostRule.InForce (rule : ShippingCostRule) (region : String) (now : Time) : Prop :=
  rule.region = region ∧ rule.active = true ∧ now < rule.expiresAt

omit [Platform] in
theorem mem_rulesFor {region : String} {now : Time} {rule : ShippingCostRule} :
    rule ∈ rulesFor db region now ↔ rule ∈ db.rules ∧ rule.InForce region now := by
  unfold rulesFor
  rw [List.mem_filter, decide_eq_true_eq]
  exact Iff.rfl

/-- The seller pays the shipping only by the one rule that is in force for the region. -/
theorem Backed.rule {candidate : Candidate} {now : Time} (backed : Backed db candidate now)
    (seller : candidate.payer = some .seller) :
    ∃ region rule, candidate.region = some region ∧
      (shippingRule db candidate now).2 = some rule ∧ rule ∈ db.rules ∧
      rule.InForce region now ∧ ∀ other ∈ db.rules, other.InForce region now → other = rule := by
  obtain ⟨method, _, chosen, _, _⟩ := backed.delivered
  have shipped : candidate.delivery = some .shipping := by
    cases method with
    | shipping => exact chosen
    | pickup => exact absurd chosen (backed.consistent seller)
  have ruled := backed.ruled
  unfold shippingRule at ruled ⊢
  rw [if_pos ⟨shipped, seller⟩] at ruled ⊢
  split at ruled
  · cases ruled
  · next region named =>
    split at ruled
    · cases ruled
    · next rule alone =>
      have only : ∀ other, other ∈ rulesFor db region now ↔ other = rule := by
        rw [alone]
        exact fun other => List.mem_singleton
      obtain ⟨member, force⟩ := mem_rulesFor.mp ((only rule).mpr rfl)
      exact ⟨region, rule, named, rfl, member, force, fun other present valid =>
        (only other).mp (mem_rulesFor.mpr ⟨present, valid⟩)⟩
    · cases ruled

end

end Negotiation
