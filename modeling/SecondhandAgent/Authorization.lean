/-
This file models the authorization of an offer with additional terms of any
JSON type, as the chat and the tools of the agent hand them over. The graph
admits texts only; there the authorization is the one of `Pricing`.

The zone is an exact comparison in cents and the permissions follow from it.
The one thing that can go wrong is the test of the delivery method: Python asks
a set whether it holds the value, and a list or an object cannot be hashed. The
call then raises a `TypeError`, which nothing above it expects, where every
other unsupported value makes the offer prohibited.
-/

import Mathlib.Data.Finset.Basic
import SecondhandAgent.Pricing

namespace Negotiation.Pricing

/-! ### Additional terms -/

/-- A value of JSON; a float is given by its bits. -/
inductive JsonValue where
  | null
  | bool (value : Bool)
  | integer (value : Int)
  | float (bits : BitVec 64)
  | text (value : String)
  | array (items : List JsonValue)
  | object (entries : List (String × JsonValue))

/-- The additional terms: an object has one value for a key. -/
structure AdditionalTerms where
  entries : List (String × JsonValue)
  distinct : (entries.map Prod.fst).Nodup := by decide

/-- What `authorize_offer` may raise. -/
inductive Raised where
  | pricing (failure : Failure)
  | typeError (text : String)
  | keyError (key : String)

/-- The test `value in {..}` for a set of texts, which takes the hash of the value first. -/
def JsonValue.isIn (texts : List String) : JsonValue → Except Raised Bool
  | .text value => pure (texts.contains value)
  | .array _ => throw (.typeError "unhashable type: 'list'")
  | .object _ => throw (.typeError "unhashable type: 'dict'")
  | .null | .bool _ | .integer _ | .float _ => pure false

/-- Only the delivery method can be promised on top of the price. -/
def additionalTermsAreAuthorized : Option AdditionalTerms → Except Raised Bool
  | none => pure true
  | some additionalTerms =>
    if additionalTerms.entries.isEmpty then
      pure true
    else if (additionalTerms.entries.map Prod.fst).toFinset ≠ {"delivery_method"} then
      pure false
    else
      match additionalTerms.entries.lookup "delivery_method" with
      | some value => value.isIn ["shipping", "pickup"]
      | none => throw (.keyError "delivery_method")

/-! ### The authorization -/

/-- The thresholds of a policy. -/
structure PricingPolicy where
  minimumNetPrice : Money
  autoAcceptThreshold : Money
  ordered : minimumNetPrice.cents ≤ autoAcceptThreshold.cents

structure OfferEvaluation where
  netIncome : Int
  zone : PriceZone

def evaluateOffer (terms : OfferTerms) (policy : PricingPolicy) : Except Raised OfferEvaluation := do
  let netIncome ← (calculateNetIncome terms).mapError .pricing
  let zone :=
    if (policy.autoAcceptThreshold.cents : Int) ≤ netIncome then PriceZone.autoAccept
    else if (policy.minimumNetPrice.cents : Int) ≤ netIncome then .approvalRequired
    else .prohibited
  pure { netIncome, zone }

def authorizeOffer (terms : OfferTerms) (policy : PricingPolicy)
    (additionalTerms : Option AdditionalTerms) : Except Raised OfferAuthorization := do
  let evaluation ← evaluateOffer terms policy
  let conditionsValid ← additionalTermsAreAuthorized additionalTerms
  if conditionsValid then
    pure
      { zone := evaluation.zone
        conditionsValid := true
        canAcceptAutomatically := evaluation.zone = .autoAccept
        canSubmitCounterOffer := evaluation.zone = .autoAccept
        canRequestApproval := evaluation.zone = .approvalRequired
        isAcceptanceProhibited := evaluation.zone = .prohibited
        reasonCode :=
          match evaluation.zone with
          | .autoAccept => .autoAuthorized
          | .approvalRequired => .sellerApprovalRequired
          | .prohibited => .belowMinimumNetIncome }
  else
    pure
      { zone := evaluation.zone
        conditionsValid := false
        canAcceptAutomatically := false
        canSubmitCounterOffer := false
        canRequestApproval := false
        isAcceptanceProhibited := true
        reasonCode := .unsupportedAdditionalTerms }

/-! ### Costs and income -/

/-- The seller's costs are known: the discount, and the shipping if the seller pays it. -/
def CostsKnown (terms : OfferTerms) : Prop :=
  (terms.shippingPaidBy = .seller → terms.shippingCost.isSome) ∧ terms.sellerBorneDiscount.isSome

instance (terms : OfferTerms) : Decidable (CostsKnown terms) :=
  inferInstanceAs (Decidable (_ ∧ _))

/-- What the seller pays for the shipping, in cents. -/
def shippingCents (terms : OfferTerms) : Nat :=
  if terms.shippingPaidBy = .seller then (terms.shippingCost.map (·.cents)).getD 0 else 0

/-- What the seller keeps, in cents. -/
def netCents (terms : OfferTerms) : Int :=
  terms.buyerPayment.cents - shippingCents terms - (terms.sellerBorneDiscount.map (·.cents)).getD 0

/-- The zone of an income. -/
def zoneOf (policy : PricingPolicy) (income : Int) : PriceZone :=
  if (policy.autoAcceptThreshold.cents : Int) ≤ income then .autoAccept
  else if (policy.minimumNetPrice.cents : Int) ≤ income then .approvalRequired
  else .prohibited

theorem calculateNetIncome_known {terms : OfferTerms} (known : CostsKnown terms) :
    calculateNetIncome terms = .ok (netCents terms) := by
  obtain ⟨payment, payer, shipping, discount⟩ := terms
  obtain ⟨shippingKnown, discountKnown⟩ := known
  obtain ⟨discount, rfl⟩ := Option.isSome_iff_exists.mp discountKnown
  cases payer with
  | buyer => rfl
  | seller =>
    obtain ⟨shipping, rfl⟩ := Option.isSome_iff_exists.mp (shippingKnown rfl)
    rfl

theorem calculateNetIncome_unknown {terms : OfferTerms} (unknown : ¬ CostsKnown terms) :
    ∃ text, calculateNetIncome terms = .error (.pricing text) := by
  obtain ⟨payment, payer, shipping, discount⟩ := terms
  cases payer with
  | buyer =>
    cases discount with
    | none => exact ⟨_, rfl⟩
    | some discount => exact absurd ⟨nofun, rfl⟩ unknown
  | seller =>
    cases shipping with
    | none => exact ⟨_, rfl⟩
    | some shipping =>
      cases discount with
      | none => exact ⟨_, rfl⟩
      | some discount => exact absurd ⟨fun _ => rfl, rfl⟩ unknown

theorem evaluateOffer_known {terms : OfferTerms} {policy : PricingPolicy}
    (known : CostsKnown terms) :
    evaluateOffer terms policy = .ok ⟨netCents terms, zoneOf policy (netCents terms)⟩ := by
  unfold evaluateOffer
  rw [calculateNetIncome_known known]
  rfl

theorem evaluateOffer_unknown {terms : OfferTerms} (policy : PricingPolicy)
    (unknown : ¬ CostsKnown terms) :
    ∃ text, evaluateOffer terms policy = .error (.pricing (.pricing text)) := by
  obtain ⟨text, refused⟩ := calculateNetIncome_unknown unknown
  refine ⟨text, ?_⟩
  unfold evaluateOffer
  rw [refused]
  rfl

/-! ### The zones in order -/

/-- How strict a zone is. -/
def strictness : PriceZone → Nat
  | .autoAccept => 0
  | .approvalRequired => 1
  | .prohibited => 2

/-- More income is never in a stricter zone. -/
theorem zoneOf_antitone (policy : PricingPolicy) {less more : Int} (grown : less ≤ more) :
    strictness (zoneOf policy more) ≤ strictness (zoneOf policy less) := by
  have ordered := policy.ordered
  unfold zoneOf
  split_ifs <;> simp only [strictness] <;> omega

theorem zoneOf_iff (policy : PricingPolicy) (income : Int) :
    (zoneOf policy income = .autoAccept ↔ (policy.autoAcceptThreshold.cents : Int) ≤ income) ∧
    (zoneOf policy income = .approvalRequired ↔
      (policy.minimumNetPrice.cents : Int) ≤ income ∧
        income < policy.autoAcceptThreshold.cents) ∧
    (zoneOf policy income = .prohibited ↔ income < policy.minimumNetPrice.cents) := by
  have ordered := policy.ordered
  unfold zoneOf
  split_ifs <;> simp <;> omega

/-! ### The additional terms -/

/-- The terms that are supported: a delivery method the program knows. -/
def Supported (entry : String × JsonValue) : Prop :=
  entry.1 = "delivery_method" ∧ (entry.2 = .text "shipping" ∨ entry.2 = .text "pickup")

/-- The delivery method is the only term and its value has no hash. -/
def Unhashable (additionalTerms : Option AdditionalTerms) : Prop :=
  ∃ terms value, additionalTerms = some terms ∧ terms.entries = [("delivery_method", value)] ∧
    ((∃ items, value = .array items) ∨ ∃ entries, value = .object entries)

/-- An object with the one key has the one entry. -/
theorem AdditionalTerms.single {terms : AdditionalTerms}
    (keys : (terms.entries.map Prod.fst).toFinset = {"delivery_method"}) :
    ∃ value, terms.entries = [("delivery_method", value)] := by
  obtain ⟨entries, distinct⟩ := terms
  have named : ∀ entry ∈ entries, entry.1 = "delivery_method" := by
    intro entry member
    have listed : entry.1 ∈ (entries.map Prod.fst).toFinset :=
      List.mem_toFinset.mpr (List.mem_map_of_mem member)
    rw [keys] at listed
    exact Finset.mem_singleton.mp listed
  match entries with
  | [] => exact absurd keys.symm (Finset.singleton_ne_empty _)
  | [(key, value)] =>
    obtain rfl : key = "delivery_method" := named _ List.mem_cons_self
    exact ⟨value, rfl⟩
  | first :: second :: rest =>
    have one := named first List.mem_cons_self
    have two := named second (List.mem_cons_of_mem _ List.mem_cons_self)
    simp only [List.map_cons, List.nodup_cons, List.mem_cons] at distinct
    exact absurd (.inl (one.trans two.symm)) distinct.1

theorem additionalTermsAreAuthorized_single {value : JsonValue} {terms : AdditionalTerms}
    (entries : terms.entries = [("delivery_method", value)]) :
    additionalTermsAreAuthorized (some terms) = value.isIn ["shipping", "pickup"] := by
  simp [additionalTermsAreAuthorized, entries]

/-- Whether the terms are supported is decided, unless the delivery method has no hash. -/
theorem additionalTermsAreAuthorized_decides {additionalTerms : Option AdditionalTerms}
    (hashable : ¬ Unhashable additionalTerms) :
    ∃ valid, additionalTermsAreAuthorized additionalTerms = .ok valid ∧
      (valid = true ↔
        ∀ terms, additionalTerms = some terms → ∀ entry ∈ terms.entries, Supported entry) := by
  cases additionalTerms with
  | none => exact ⟨true, rfl, by simp⟩
  | some terms =>
    by_cases empty : terms.entries.isEmpty
    · refine ⟨true, if_pos empty, ?_⟩
      simp [List.isEmpty_iff.mp empty]
    by_cases keys : (terms.entries.map Prod.fst).toFinset = {"delivery_method"}
    · obtain ⟨value, entries⟩ := terms.single keys
      rw [additionalTermsAreAuthorized_single entries]
      cases value with
      | array items => exact absurd ⟨terms, _, rfl, entries, .inl ⟨items, rfl⟩⟩ hashable
      | object inner => exact absurd ⟨terms, _, rfl, entries, .inr ⟨inner, rfl⟩⟩ hashable
      | text value =>
        refine ⟨_, rfl, ?_⟩
        simp [entries, Supported]
      | _ =>
        refine ⟨false, rfl, ?_⟩
        simp [entries, Supported]
    · refine ⟨false, ?_, ?_⟩
      · simp only [additionalTermsAreAuthorized]
        rw [if_neg empty, if_pos keys]
        rfl
      · -- with every entry supported, the keys are the one key
        simp only [Bool.false_eq_true, false_iff]
        intro supported
        refine keys (Finset.eq_singleton_iff_unique_mem.mpr ⟨?_, ?_⟩)
        · obtain ⟨entry, rest, listed⟩ := List.exists_cons_of_ne_nil
            (fun nil => empty (List.isEmpty_iff.mpr nil))
          have member : entry ∈ terms.entries := listed ▸ List.mem_cons_self
          rw [List.mem_toFinset, List.mem_map]
          exact ⟨entry, member, (supported terms rfl entry member).1⟩
        · intro key member
          rw [List.mem_toFinset, List.mem_map] at member
          obtain ⟨entry, member, rfl⟩ := member
          exact (supported terms rfl entry member).1

/-- A delivery method without a hash stops the call. -/
theorem additionalTermsAreAuthorized_unhashable {additionalTerms : Option AdditionalTerms}
    (unhashable : Unhashable additionalTerms) :
    ∃ text, additionalTermsAreAuthorized additionalTerms = .error (.typeError text) := by
  obtain ⟨terms, value, rfl, entries, ⟨items, rfl⟩ | ⟨inner, rfl⟩⟩ := unhashable
  · exact ⟨_, additionalTermsAreAuthorized_single entries⟩
  · exact ⟨_, additionalTermsAreAuthorized_single entries⟩

/-! ### What an authorization says -/

/-- What is granted in a zone for terms that are supported or not. -/
structure Grants (zone : PriceZone) (valid : Bool) (authorization : OfferAuthorization) : Prop where
  placed : authorization.zone = zone
  accept : authorization.canAcceptAutomatically = (valid && zone = .autoAccept)
  counter : authorization.canSubmitCounterOffer = (valid && zone = .autoAccept)
  approval : authorization.canRequestApproval = (valid && zone = .approvalRequired)
  prohibited : authorization.isAcceptanceProhibited = (!valid || zone = .prohibited)

theorem authorizeOffer_grants {terms : OfferTerms} (policy : PricingPolicy)
    {additionalTerms : Option AdditionalTerms} {valid : Bool} (known : CostsKnown terms)
    (decided : additionalTermsAreAuthorized additionalTerms = .ok valid) :
    ∃ authorization, authorizeOffer terms policy additionalTerms = .ok authorization ∧
      Grants (zoneOf policy (netCents terms)) valid authorization := by
  unfold authorizeOffer
  rw [evaluateOffer_known known, decided]
  cases valid with
  | true => exact ⟨_, rfl, rfl, by simp, by simp, by simp, by simp⟩
  | false => exact ⟨_, rfl, rfl, rfl, rfl, rfl, rfl⟩

theorem authorizeOffer_unknown {terms : OfferTerms} (policy : PricingPolicy)
    {additionalTerms : Option AdditionalTerms} (unknown : ¬ CostsKnown terms) :
    ∃ text, authorizeOffer terms policy additionalTerms = .error (.pricing (.pricing text)) := by
  obtain ⟨text, refused⟩ := evaluateOffer_unknown policy unknown
  refine ⟨text, ?_⟩
  unfold authorizeOffer
  rw [refused]
  rfl

theorem authorizeOffer_unhashable {terms : OfferTerms} (policy : PricingPolicy)
    {additionalTerms : Option AdditionalTerms} (known : CostsKnown terms)
    (unhashable : Unhashable additionalTerms) :
    ∃ text, authorizeOffer terms policy additionalTerms = .error (.typeError text) := by
  obtain ⟨text, raised⟩ := additionalTermsAreAuthorized_unhashable unhashable
  refine ⟨text, ?_⟩
  unfold authorizeOffer
  rw [evaluateOffer_known known, raised]
  rfl

/-- The decision as a zone: what the seller's agent may do with the offer. -/
def decision (authorization : OfferAuthorization) : PriceZone :=
  if authorization.canAcceptAutomatically then .autoAccept
  else if authorization.canRequestApproval then .approvalRequired
  else .prohibited

theorem Grants.decision {zone : PriceZone} {valid : Bool} {authorization : OfferAuthorization}
    (grants : Grants zone valid authorization) :
    decision authorization = if valid then zone else .prohibited := by
  unfold Pricing.decision
  rw [grants.accept, grants.approval]
  cases valid <;> cases zone <;> rfl

/-- The second call decides if the first one does, and not in a stricter zone. -/
def NotStricter (first second : Except Raised OfferAuthorization) : Prop :=
  ∀ one, first = .ok one → ∃ two, second = .ok two ∧
    strictness two.zone ≤ strictness one.zone ∧
    strictness (decision two) ≤ strictness (decision one)

/-- More income for the seller, at known costs, is not decided more strictly. -/
theorem authorizeOffer_notStricter {terms better : OfferTerms} {policy : PricingPolicy}
    {additionalTerms : Option AdditionalTerms} (known : CostsKnown terms → CostsKnown better)
    (more : netCents terms ≤ netCents better) :
    NotStricter (authorizeOffer terms policy additionalTerms)
      (authorizeOffer better policy additionalTerms) := by
  intro one first
  by_cases costs : CostsKnown terms
  · by_cases unhashable : Unhashable additionalTerms
    · obtain ⟨text, raised⟩ := authorizeOffer_unhashable policy costs unhashable
      exact nomatch first.symm.trans raised
    · obtain ⟨valid, decided, _⟩ := additionalTermsAreAuthorized_decides unhashable
      obtain ⟨other, same, grants⟩ := authorizeOffer_grants policy costs decided
      obtain rfl : other = one := Except.ok.inj (same.symm.trans first)
      obtain ⟨two, second, again⟩ :=
        authorizeOffer_grants policy (known costs) decided
      have lax := zoneOf_antitone policy more
      refine ⟨two, second, ?_, ?_⟩
      · rw [grants.placed, again.placed]
        exact lax
      · rw [grants.decision, again.decision]
        cases valid with
        | true => exact lax
        | false => exact Nat.le_refl _
  · obtain ⟨text, refused⟩ := authorizeOffer_unknown policy costs
    exact nomatch first.symm.trans refused

/-- What the authorization of an offer is to be. A call raises a documented pricing error only,
and does for costs that are not known. The zone is the comparison in cents. One permission of
acceptance, approval and prohibition is set, and a counter-offer may be submitted where an
acceptance is automatic: in that zone, for terms that are supported. Terms that are not supported
make the offer prohibited. And a higher payment is not decided more strictly, nor a higher cost
of the seller more laxly. -/
structure Authorizes (terms : OfferTerms) (policy : PricingPolicy)
    (additionalTerms : Option AdditionalTerms) : Prop where
  documented : ∀ raised, authorizeOffer terms policy additionalTerms = .error raised →
    ∃ text, raised = .pricing (.pricing text)
  refused : ¬ CostsKnown terms →
    ∃ text, authorizeOffer terms policy additionalTerms = .error (.pricing (.pricing text))
  zone : ∀ authorization, authorizeOffer terms policy additionalTerms = .ok authorization →
    (authorization.zone = .autoAccept ↔
      (policy.autoAcceptThreshold.cents : Int) ≤ netCents terms) ∧
    (authorization.zone = .approvalRequired ↔
      (policy.minimumNetPrice.cents : Int) ≤ netCents terms ∧
        netCents terms < policy.autoAcceptThreshold.cents) ∧
    (authorization.zone = .prohibited ↔ netCents terms < policy.minimumNetPrice.cents)
  single : ∀ authorization, authorizeOffer terms policy additionalTerms = .ok authorization →
    [authorization.canAcceptAutomatically, authorization.canRequestApproval,
      authorization.isAcceptanceProhibited].count true = 1
  counter : ∀ authorization, authorizeOffer terms policy additionalTerms = .ok authorization →
    authorization.canSubmitCounterOffer = authorization.canAcceptAutomatically ∧
    (authorization.canSubmitCounterOffer = true ↔ authorization.zone = .autoAccept ∧
      ∀ given, additionalTerms = some given → ∀ entry ∈ given.entries, Supported entry)
  unsupported : CostsKnown terms →
    ∀ given entry, additionalTerms = some given → entry ∈ given.entries → ¬ Supported entry →
      ∃ authorization, authorizeOffer terms policy additionalTerms = .ok authorization ∧
        authorization.isAcceptanceProhibited = true
  payment : ∀ more : Money, terms.buyerPayment.cents ≤ more.cents →
    NotStricter (authorizeOffer terms policy additionalTerms)
      (authorizeOffer { terms with buyerPayment := more } policy additionalTerms)
  shipping : ∀ cost more : Money, terms.shippingCost = some cost → cost.cents ≤ more.cents →
    NotStricter (authorizeOffer { terms with shippingCost := some more } policy additionalTerms)
      (authorizeOffer terms policy additionalTerms)
  discount : ∀ cost more : Money, terms.sellerBorneDiscount = some cost →
    cost.cents ≤ more.cents →
    NotStricter
      (authorizeOffer { terms with sellerBorneDiscount := some more } policy additionalTerms)
      (authorizeOffer terms policy additionalTerms)

/-- The authorization of an offer is as it should be, for all terms, policies and additional
terms, except where the costs are known and the one additional term is a delivery method that is
a list or an object. -/
theorem authorizeOffer_authorizes_iff (terms : OfferTerms) (policy : PricingPolicy)
    (additionalTerms : Option AdditionalTerms) :
    Authorizes terms policy additionalTerms ↔
      ¬ (CostsKnown terms ∧ Unhashable additionalTerms) := by
  constructor
  · rintro sound ⟨known, unhashable⟩
    obtain ⟨text, raised⟩ := authorizeOffer_unhashable policy known unhashable
    obtain ⟨_, other⟩ := sound.documented _ raised
    exact nomatch other
  · intro hashable
    have decides : CostsKnown terms → ∃ valid authorization,
        authorizeOffer terms policy additionalTerms = .ok authorization ∧
        Grants (zoneOf policy (netCents terms)) valid authorization ∧
        (valid = true ↔ ∀ given, additionalTerms = some given →
          ∀ entry ∈ given.entries, Supported entry) := by
      intro known
      obtain ⟨valid, decided, supported⟩ :=
        additionalTermsAreAuthorized_decides fun unhashable => hashable ⟨known, unhashable⟩
      obtain ⟨authorization, same, grants⟩ :=
        authorizeOffer_grants policy known decided
      exact ⟨valid, authorization, same, grants, supported⟩
    have granted : ∀ authorization,
        authorizeOffer terms policy additionalTerms = .ok authorization → ∃ valid,
        Grants (zoneOf policy (netCents terms)) valid authorization ∧
        (valid = true ↔ ∀ given, additionalTerms = some given →
          ∀ entry ∈ given.entries, Supported entry) := by
      intro authorization same
      by_cases known : CostsKnown terms
      · obtain ⟨valid, other, again, grants, supported⟩ := decides known
        obtain rfl : other = authorization := Except.ok.inj (again.symm.trans same)
        exact ⟨valid, grants, supported⟩
      · obtain ⟨text, refused⟩ := authorizeOffer_unknown policy known
        exact nomatch same.symm.trans refused
    refine ⟨?_, authorizeOffer_unknown policy, ?_, ?_, ?_, ?_, ?_, ?_, ?_⟩
    · intro raised failed
      by_cases known : CostsKnown terms
      · obtain ⟨_, authorization, same, _⟩ := decides known
        exact nomatch failed.symm.trans same
      · obtain ⟨text, refused⟩ := authorizeOffer_unknown policy known
        exact ⟨text, Except.error.inj (failed.symm.trans refused)⟩
    · intro authorization same
      obtain ⟨valid, grants, _⟩ := granted authorization same
      rw [grants.placed]
      exact zoneOf_iff policy (netCents terms)
    · intro authorization same
      obtain ⟨valid, grants, _⟩ := granted authorization same
      rw [grants.accept, grants.approval, grants.prohibited]
      cases valid <;> cases zoneOf policy (netCents terms) <;> rfl
    · intro authorization same
      obtain ⟨valid, grants, supported⟩ := granted authorization same
      refine ⟨grants.counter.trans grants.accept.symm, ?_⟩
      rw [grants.counter, grants.placed, ← supported]
      simp [and_comm]
    · intro known given entry present member unsupported
      obtain ⟨valid, authorization, same, grants, supported⟩ := decides known
      refine ⟨authorization, same, ?_⟩
      have refused : valid = false := by
        by_contra accepted
        exact unsupported (supported.mp (by simpa using accepted) given present entry member)
      rw [grants.prohibited, refused]
      rfl
    · intro more raised
      refine authorizeOffer_notStricter id ?_
      simp only [netCents, shippingCents]
      omega
    · intro cost more present raised
      refine authorizeOffer_notStricter (fun known => ⟨fun _ => ?_, known.2⟩) ?_
      · rw [present]
        rfl
      · simp only [netCents, shippingCents, present]
        split_ifs
        · simp only [Option.map_some, Option.getD_some]
          omega
        · exact Int.le_refl _
    · intro cost more present raised
      refine authorizeOffer_notStricter (fun known => ⟨known.1, ?_⟩) ?_
      · rw [present]
        rfl
      · simp only [netCents, shippingCents, present, Option.map_some, Option.getD_some]
        omega

/-- A delivery method given as a list of one text: the call raises a `TypeError` although every
cost is known. -/
theorem list_of_delivery_methods_raises :
    ¬ Authorizes ⟨⟨300000, by decide⟩, .buyer, none, some .zero⟩
      ⟨⟨270000, by decide⟩, ⟨285000, by decide⟩, by decide⟩
      (some ⟨[("delivery_method", .array [.text "shipping"])], by decide⟩) := by
  intro sound
  obtain ⟨_, raised⟩ := sound.documented (.typeError "unhashable type: 'list'") (by rfl)
  exact nomatch raised

/-! ### Terms of texts -/

def textTerms (entries : List (String × String))
    (distinct : (entries.map Prod.fst).Nodup) : AdditionalTerms where
  entries := entries.map fun entry => (entry.1, .text entry.2)
  distinct := by
    rw [List.map_map]
    exact distinct

/-- For terms that are texts, as the graph admits them, the authorization is the one of the
graph. -/
theorem authorizeOffer_texts (terms : OfferTerms) (policy : SellerPolicy)
    (entries : List (String × String)) (distinct : (entries.map Prod.fst).Nodup) :
    authorizeOffer terms ⟨policy.minimumNetPrice, policy.autoAcceptThreshold, policy.ordered⟩
        (some (textTerms entries distinct)) =
      (Negotiation.authorizeOffer terms policy entries).mapError .pricing := by
  have valid : additionalTermsAreAuthorized (some (textTerms entries distinct)) =
      .ok (Negotiation.additionalTermsAreAuthorized entries) := by
    match entries with
    | [] => rfl
    | [(key, value)] =>
      by_cases named : key = "delivery_method"
      · subst named
        rw [additionalTermsAreAuthorized_single rfl]
        simp [JsonValue.isIn, Negotiation.additionalTermsAreAuthorized, pure, Except.pure]
      · simp [additionalTermsAreAuthorized, textTerms, Negotiation.additionalTermsAreAuthorized,
          named, pure, Except.pure]
    | first :: second :: rest =>
      have other : (((textTerms (first :: second :: rest) distinct).entries.map
          Prod.fst).toFinset) ≠ {"delivery_method"} := by
        intro keys
        obtain ⟨value, single⟩ := AdditionalTerms.single keys
        exact absurd (congrArg List.length single) (by simp [textTerms])
      simp only [additionalTermsAreAuthorized]
      rw [if_pos other]
      rfl
  unfold authorizeOffer Negotiation.authorizeOffer evaluateOffer
  rw [valid]
  cases calculateNetIncome terms with
  | error failure => rfl
  | ok netIncome =>
    cases Negotiation.additionalTermsAreAuthorized entries <;> rfl

end Negotiation.Pricing
