/-
This file models the pricing rules: what the seller keeps of an offer, the zone
that puts it in, and the authorization an offer has under a policy.
-/

import SecondhandAgent.Schema

namespace Negotiation

inductive PriceZone where
  | autoAccept
  | approvalRequired
  | prohibited
deriving DecidableEq

/-- The price side of an offer. -/
structure OfferTerms where
  buyerPayment : Money
  shippingPaidBy : ShippingPayer
  shippingCost : Option Money
  sellerBorneDiscount : Option Money

inductive ReasonCode where
  | unsupportedAdditionalTerms
  | autoAuthorized
  | sellerApprovalRequired
  | belowMinimumNetIncome
deriving DecidableEq

structure OfferAuthorization where
  zone : PriceZone
  conditionsValid : Bool
  canAcceptAutomatically : Bool
  canSubmitCounterOffer : Bool
  canRequestApproval : Bool
  isAcceptanceProhibited : Bool
  reasonCode : ReasonCode

/-- The part of the shipping that the seller pays. -/
def sellerShippingCost (terms : OfferTerms) : Except Failure Money :=
  match terms.shippingPaidBy with
  | .seller =>
    Store.expect terms.shippingCost
      (.pricing "shipping_cost is required when the seller pays shipping")
  | .buyer => pure .zero

/-- The net income of the seller in cents; an unknown cost of the seller is an error. -/
def calculateNetIncome (terms : OfferTerms) : Except Failure Int := do
  let shippingCost ← sellerShippingCost terms
  let discount ← Store.expect terms.sellerBorneDiscount
    (.pricing "seller_borne_discount must be known")
  pure ((terms.buyerPayment.cents : Int) - shippingCost.cents - discount.cents)

/-- The zone of a net income. -/
def priceZone (netIncome : Int) (policy : SellerPolicy) : PriceZone :=
  if (policy.autoAcceptThreshold.cents : Int) ≤ netIncome then .autoAccept
  else if (policy.minimumNetPrice.cents : Int) ≤ netIncome then .approvalRequired
  else .prohibited

/-- Only the delivery method can be promised on top of the price. -/
def additionalTermsAreAuthorized : List (String × String) → Bool
  | [] => true
  | [(key, value)] => key = "delivery_method" && (value = "shipping" || value = "pickup")
  | _ => false

def authorizeOffer (terms : OfferTerms) (policy : SellerPolicy)
    (additionalTerms : List (String × String)) : Except Failure OfferAuthorization := do
  let netIncome ← calculateNetIncome terms
  let zone := priceZone netIncome policy
  if additionalTermsAreAuthorized additionalTerms then
    pure
      { zone
        conditionsValid := true
        canAcceptAutomatically := zone = .autoAccept
        canSubmitCounterOffer := zone = .autoAccept
        canRequestApproval := zone = .approvalRequired
        isAcceptanceProhibited := zone = .prohibited
        reasonCode :=
          match zone with
          | .autoAccept => .autoAuthorized
          | .approvalRequired => .sellerApprovalRequired
          | .prohibited => .belowMinimumNetIncome }
  else
    pure
      { zone
        conditionsValid := false
        canAcceptAutomatically := false
        canSubmitCounterOffer := false
        canRequestApproval := false
        isAcceptanceProhibited := true
        reasonCode := .unsupportedAdditionalTerms }

/-- The price side of the terms of an input. -/
def pricingTerms (terms : Terms) : OfferTerms where
  buyerPayment := terms.amount.money
  shippingPaidBy := terms.shippingPaidBy
  shippingCost := terms.shippingCost.map (·.money)
  sellerBorneDiscount := terms.sellerDiscount.map (·.money)

/-- The price side of a stored offer. -/
def termsFromOffer (offer : Offer) : OfferTerms where
  buyerPayment := offer.price
  shippingPaidBy := offer.shippingPaidBy
  shippingCost := offer.shippingCost
  sellerBorneDiscount := some offer.sellerBorneDiscount

def authorized (terms : Terms) (policy : SellerPolicy) : Except Failure OfferAuthorization :=
  authorizeOffer (pricingTerms terms) policy terms.additionalTerms

/-- The authorization of a stored offer under a policy. -/
def offerAuthorization (offer : Offer) (policy : SellerPolicy) :
    Except Failure OfferAuthorization :=
  authorizeOffer (termsFromOffer offer) policy offer.terms

end Negotiation
