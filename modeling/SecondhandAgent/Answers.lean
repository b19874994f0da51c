/-
This file models what a semantic turn reads before it plans: the display its
input refers to, and whether a question of the buyer can be answered from what
the seller stated. A question about a price is answered from the offer on
display; every other one from the topics its words name.
-/

import SecondhandAgent.Evidence
import SecondhandAgent.Intents
import SecondhandAgent.Queue

namespace Negotiation

open Store

/-- The status of an intent in its turn. -/
inductive IntentStatus where
  | answered
  | unknown
  | clarify
  | choiceRequired
  | waitingInfo
  | ready
  | recorded
deriving DecidableEq

/-- `frozen_context`: the context of the display that the input refers to, if the buyer saw it
in this view before the input was received and it is still good. -/
def frozenContext (db : Db) (run : NegotiationInput) (payload : ChatInput) (now : Time) :
    Option PublicInteractionContext :=
  (payload.displayReceiptId.bind db.acks.get).bind fun ack =>
    (db.contexts.get ack.contextId).filter fun context =>
      context.buyerId = db.session.buyerId ∧ ack.buyerId = db.session.buyerId ∧
        ack.clientViewId = payload.clientViewId ∧ ack.displayedAt ≤ run.receivedAt ∧
        context.publicSeq ≤ run.seenPublicMessageSeq ∧ now < context.expiresAt ∧
        context.businessVersion = db.session.version

/-! ### Topics -/

/-- The topic an alias of the parser stands for. -/
def aliasedTopic (topic : String) : String :=
  ([("battery_health", "battery_health_pct"), ("repair", "repair_history"),
    ("delivery", "allowed_delivery_methods"), ("price", "listed_price"),
    ("listing_price", "listed_price"), ("current_price", "listed_price"),
    ("offer_price", "listed_price"), ("confirmation", "confirmation_button")].lookup topic).getD
    topic

/-- The topics a text asks about, by the patterns of their words. -/
def topicPatterns : List (String × String) :=
  [("listed_price", r"标价|页面价格|挂牌价|公开价格"),
    ("accessories", r"配件|充电线|充电器|包装盒"),
    ("invoice", r"发票|购买凭证"),
    ("confirmation_button", r"确认按钮|确认入口|点.{0,4}确认|确认.{0,5}(?:含义|意思)"),
    ("water_damage", r"进(?:过)?水|涉水"),
    ("repair_history", r"维修|修过"),
    ("battery_health_pct", r"电池健康|电池寿命"),
    ("battery_endurance", r"续航"),
    ("condition", r"成色|成新|划痕|磕碰|使用痕迹|掉漆"),
    ("screen", r"屏幕|坏点"),
    ("color", r"颜色|配色|什么色"),
    ("device_identity", r"型号|机型|品牌|存储|容量|内存|配置参数|配置清单"),
    ("seller_location", r"(?:你|您|卖家).{0,15}(?:省份|地区|省|市|哪里|哪儿)|发货地"),
    ("courier", r"哪家快递|什么快递|快递公司|顺丰|京东物流"),
    ("device_function",
      r"NFC|充电接口|电话|短信|SIM|Wi.?Fi|功能|开机|登录账号|连接网络"),
    ("photo", r"实物图|实拍图|图片|照片|拍照|视频|截图"),
    ("warranty", r"保修"),
    ("return_policy", r"退货|退换|无理由|退款"),
    ("packaging_method", r"怎么包装|如何包装|包装方式|包装材料|防震|防护包装"),
    ("shipping_arrangement", r"运费|包邮"),
    ("pickup_location",
      r"自提.{0,12}(?:哪里|地点|地址|位置)|(?:哪里|地点|地址|位置).{0,12}自提"),
    ("dispatch_time", r"何时发货|什么时候发货|发货时间|多久发货|今天发货"),
    ("negotiability", r"讲价|议价|砍价|便宜点|价格.{0,6}商量")]

/-- The topics the parser may name beside those its words name. -/
def namedTopics : List String :=
  ["battery_health_pct", "repair_history", "allowed_delivery_methods", "description", "product",
    "title", "condition", "screen", "color", "invoice", "accessories", "warranty",
    "listed_price", "confirmation_button"]

/-- Topics that only the description of the goods can answer, by the words it must contain. -/
def descriptionPatterns : List (String × String) :=
  [("accessories", r"配件|包装|充电线|充电器"),
    ("invoice", r"发票|凭证"),
    ("warranty", r"保修"),
    ("return_policy", r"退货|退换|无理由|退款"),
    ("battery_endurance", r"续航"),
    ("screen", r"屏幕"),
    ("condition", r"成新|新|痕迹"),
    ("color", r"色"),
    ("water_damage", r"进水|涉水"),
    ("device_function", r"功能|开机|NFC|充电|通话|网络")]

/-- The fact a topic is about. -/
def topicFact : String → Option FactName
  | "battery_health_pct" => some .batteryHealthPct
  | "repair_history" => some .repairHistory
  | "allowed_delivery_methods" => some .allowedDeliveryMethods
  | _ => none

/-- The seller stated something by the value. -/
def FactValue.Known : FactValue → Prop
  | .batteryHealthPct value => value ≠ none
  | .repairHistory history => history ≠ .unknown
  | .allowedDeliveryMethods _ _ _ => True

instance (value : FactValue) : Decidable value.Known := by
  cases value
  all_goals delta FactValue.Known; infer_instance

/-- The answer to one topic, as far as it can be given. -/
def topicAnswer (db : Db) (topic : String) : IntentStatus :=
  let status (known : Bool) : IntentStatus := if known then .answered else .unknown
  if topic ∈ ["listed_price", "confirmation_button", "device_identity", "negotiability"] then
    .answered
  else if topic ∈ ["packaging_method", "pickup_location", "dispatch_time", "seller_location",
      "courier", "photo", "shipping_arrangement"] then
    .unknown
  else
    match descriptionPatterns.lookup topic with
    | some pattern => status (Regex.found pattern db.product.description)
    | none =>
      if ((topicFact topic).bind (factFor db)).any fun fact => fact.value.Known then .answered
      else status (topic ∈ ["description", "product", "title"])

/-- `public_answer`: a text that names topics is answered if every one of them is. -/
def publicAnswer (db : Db) (topic : Option String) (sourceQuote : String) : IntentStatus :=
  let aliased := aliasedTopic (topic.getD "")
  let topic :=
    if aliased = "allowed_delivery_methods" ∧ sourceQuote ≠ "" ∧
        Regex.found r"自提|面交|快递|配送|寄|邮|送货|运费|交易方式" sourceQuote = false then
      "unknown"
    else aliased
  match (topicPatterns.filter fun (_, pattern) => Regex.found pattern sourceQuote).map (·.1) with
  | [] => topicAnswer db topic
  | topics =>
    let named := if topic ∈ namedTopics ∧ topic ∉ topics then topic :: topics else topics
    if ∃ name ∈ named, topicAnswer db name = .unknown then .unknown else .answered

/-- The question is about a price, and not about the listed one. -/
def asksOfferPrice (topic : Option String) (sourceQuote : String) : Bool :=
  (topic.any (· ∈ ["price", "listing_price", "listed_price", "current_price", "offer_price"]) ||
    Regex.found (r"(?:问(?:的)?(?:是)?|核对)(?:价格|金额|报价)?(?:是否|是不是|是)?\s*\d+(?:\.\d+)?" ++
      r"|(?:价格|金额|报价).{0,8}(?:是不是|是否|为|是)\s*\d+(?:\.\d+)?") sourceQuote) &&
    !Regex.found r"标价|页面|挂牌|公开价格" sourceQuote

/-- `answer_question`: a question about the offer on display is answered by it. -/
def answerQuestion (db : Db) (run : NegotiationInput) (payload : ChatInput)
    (topic : Option String) (sourceQuote : String) (now : Time) : IntentStatus :=
  if topic = some "approval_status" then .answered
  else
    let displayed := ((frozenContext db run payload now).bind (·.offerId)).bind db.offers.get
    if asksOfferPrice topic sourceQuote ∧ Found displayed (fun offer =>
        db.session.currentOfferId = some offer.id ∧ now < offer.expiresAt ∧
          (offer.status = .accepted ∨ offer.status = .proposed)) then
      .answered
    else publicAnswer db topic sourceQuote

end Negotiation
