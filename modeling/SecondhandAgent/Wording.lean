/-
This file models the words of a reply: what the buyer is told about a topic, a
price or an approval, and how the parts of a turn make up the text of the one
message that answers it. An answer in words has the status that the planning of
the turn goes by.
-/

import SecondhandAgent.Answers
import SecondhandAgent.Notification

namespace Negotiation

open Store

/-! ### Answers in words -/

/-- What a question is answered with. -/
structure Answer where
  status : IntentStatus
  text : String
  factVersion : Option Nat := none

/-- A percentage in hundredths, with two decimal places. -/
def percentText (value : Fin 10001) : String :=
  (⟨value.val, by omega⟩ : Money).text

/-- A stated fact in words. -/
def FactValue.words : FactValue → String
  | .batteryHealthPct value => "电池健康 " ++ (value.map percentText).getD "" ++ "%"
  | .repairHistory .yes => "有维修记录"
  | .repairHistory _ => "无维修记录"
  | .allowedDeliveryMethods methods _ _ =>
    "支持" ++ "、".intercalate (methods.map fun method =>
      match method with
      | .pickup => "自提"
      | .shipping => "快递")

/-- The topics that are always answered. -/
def publicText (db : Db) (topic : String) : Option String :=
  if topic = "listed_price" then
    some ("页面公开标价为" ++ db.product.listedPrice.text ++ "元；标价不表示已成交。")
  else if topic = "confirmation_button" then
    some ("确认按钮用于确认你已查看的、当前有效报价及其条款，记录双方交易意向；" ++
      "不会自动付款或发货。请先核对金额、配送方式和条件；未同意时不要点击。")
  else if topic = "device_identity" then
    some ("卖家提供的商品名称为：" ++ db.product.title ++ "；描述：" ++ db.product.description ++
      "。品牌、型号及存储容量以这些原文中明确写出的内容为限，未写明的项目仍未知。")
  else if topic = "negotiability" then
    some ("可以提出希望协商的价格和配送条件，页面标价为" ++ db.product.listedPrice.text ++
      "元；是否接受需按具体方案校验，尚未承诺折扣或同意报价。")
  else none

theorem publicText_isSome (db : Db) (topic : String) :
    (publicText db topic).isSome = true ↔
      topic ∈ ["listed_price", "confirmation_button", "device_identity", "negotiability"] := by
  unfold publicText
  simp only [List.mem_cons, List.not_mem_nil, or_false]
  split_ifs <;> simp_all

/-- The topics the seller has to be asked about, and what is missing there. -/
def pendingTopics : List (String × String) :=
  [("packaging_method", "快递的具体包装方式、防震材料和保护措施"),
    ("pickup_location", "自提的具体地点和地址"),
    ("dispatch_time", "具体发货时间"),
    ("seller_location", "卖家所在省市或发货地点"),
    ("courier", "承运的快递公司及顺丰到付、京东物流等具体配送服务是否支持"),
    ("photo", "商品的图片、实拍图或检测截图")]

/-- The topics that are never answered. -/
def pendingText (topic : String) : Option String :=
  match pendingTopics.lookup topic with
  | some missing => some ("卖家尚未提供可核实的" ++ missing ++ "，当前未知，不能承诺。")
  | none =>
    if topic = "shipping_arrangement" then
      some ("支持快递不等于包邮。商品资料未写明运费金额及由谁承担，当前资料未知；" ++
        "具体承担方以双方确认的报价条款为准，尚无此条款时仍未决。" ++
        "报价时请说明配送方式、运费承担方；如需卖家承担，还需收货区域（无需完整地址）" ++
        "以及卖家已核实的该区域运费依据，缺少依据不能提交正式报价。")
    else none

theorem pendingText_isSome (topic : String) :
    (pendingText topic).isSome = true ↔
      topic ∈ ["packaging_method", "pickup_location", "dispatch_time", "seller_location",
        "courier", "photo", "shipping_arrangement"] := by
  have names : ["packaging_method", "pickup_location", "dispatch_time", "seller_location",
      "courier", "photo", "shipping_arrangement"] =
      pendingTopics.map Prod.fst ++ ["shipping_arrangement"] := rfl
  rw [names, List.mem_append, List.mem_singleton, List.mem_map]
  unfold pendingText
  cases found : pendingTopics.lookup topic with
  | some missing =>
    obtain ⟨before, after, split, _⟩ := List.lookup_eq_some_iff.mp found
    refine iff_of_true rfl (.inl ⟨(topic, missing), ?_, rfl⟩)
    rw [split]
    exact List.mem_append_right _ List.mem_cons_self
  | none =>
    have unlisted := List.lookup_eq_none_iff.mp found
    dsimp only
    split
    · exact iff_of_true rfl (.inr ‹_›)
    · refine iff_of_false Bool.false_ne_true ?_
      rintro (⟨pair, listed, rfl⟩ | shipping)
      · exact absurd (unlisted pair listed) (by rw [bne_self_eq_false]; exact Bool.false_ne_true)
      · contradiction

/-- What a topic of the description is called. -/
def descriptionLabels : List (String × String) :=
  [("accessories", "配件及包装"),
    ("invoice", "发票或购买凭证"),
    ("warranty", "原厂保修期限"),
    ("return_policy", "退货、退换或七天无理由退款政策"),
    ("battery_endurance", "实际续航时长及使用条件"),
    ("screen", "屏幕划痕或坏点"),
    ("condition", "成色和使用痕迹"),
    ("color", "颜色和配色"),
    ("water_damage", "进水记录"),
    ("device_function", "NFC、充电接口、通话短信或网络等具体功能测试结果")]

/-- What an unknown topic is called. -/
def unknownLabel (topic quote : String) : String :=
  if quote ≠ "" then String.ofList (quote.toList.take 120)
  else
    ([("repair_history", "维修记录"), ("battery_health_pct", "电池健康度"),
      ("allowed_delivery_methods", "支持的配送方式")].lookup topic).getD "这项"

/-- The answer to one topic. -/
def topicReply (db : Db) (topic quote : String) : Answer :=
  match publicText db topic with
  | some text => { status := .answered, text }
  | none =>
    match pendingText topic with
    | some text => { status := .unknown, text }
    | none =>
      match descriptionPatterns.lookup topic with
      | some pattern =>
        let label := (descriptionLabels.lookup topic).getD ""
        if Regex.found pattern db.product.description then
          { status := .answered
            text := "关于" ++ label ++ "，卖家描述原文为：" ++ db.product.description ++
              " 未在描述中写明的具体项目仍未知，不能据此保证。" }
        else
          { status := .unknown, text := "卖家尚未提供可核实的" ++ label ++ "资料，当前未知。" }
      | none =>
        match ((topicFact topic).bind (factFor db)).filter fun fact => fact.value.Known with
        | some fact =>
          { status := .answered
            text := "卖家提供的资料：" ++ fact.value.words ++ "。"
            factVersion := some fact.version }
        | none =>
          if topic ∈ ["description", "product", "title"] then
            { status := .answered
              text := "卖家商品描述：" ++ db.product.title ++ "；" ++ db.product.description }
          else
            { status := .unknown
              text := "关于“" ++ unknownLabel topic quote ++ "”，卖家尚未提供可核实的资料，当前未知。" }

/-- One answer in words has the status of the answer. -/
theorem topicReply_status (db : Db) (topic quote : String) :
    (topicReply db topic quote).status = topicAnswer db topic := by
  unfold topicReply topicAnswer
  have always := publicText_isSome db topic
  have never := pendingText_isSome topic
  generalize publicText db topic = stated at always ⊢
  generalize pendingText topic = pending at never ⊢
  cases stated with
  | some => rw [if_pos (always.mp rfl)]
  | none =>
    rw [if_neg fun listed => Bool.false_ne_true (always.mpr listed)]
    cases pending with
    | some => rw [if_pos (never.mp rfl)]
    | none =>
      rw [if_neg fun listed => Bool.false_ne_true (never.mpr listed)]
      cases descriptionPatterns.lookup topic with
      | some pattern =>
        dsimp only
        cases Regex.found pattern db.product.description <;> rfl
      | none =>
        dsimp only
        rw [← Option.isSome_filter]
        generalize ((topicFact topic).bind (factFor db)).filter _ = known
        cases known with
        | some => rfl
        | none =>
          dsimp only [Option.isSome_none]
          rw [if_neg Bool.false_ne_true]
          split
          · rw [decide_eq_true ‹_›]
            rfl
          · rw [decide_eq_false ‹_›]
            rfl

/-- The topics a question is about: those its words name, and the one the parser named beside
them. -/
def askedTopics (topic : String) (quote : String) : List String :=
  match (topicPatterns.filter fun (_, pattern) => Regex.found pattern quote).map (·.1) with
  | [] => []
  | topics => if topic ∈ namedTopics ∧ topic ∉ topics then topic :: topics else topics

/-- The topic of a question without its alias; a question about delivery must use its words. -/
def questionTopic (topic : Option String) (quote : String) : String :=
  let aliased := aliasedTopic (topic.getD "")
  if aliased = "allowed_delivery_methods" ∧ quote ≠ "" ∧
      Regex.found r"自提|面交|快递|配送|寄|邮|送货|运费|交易方式" quote = false then
    "unknown"
  else aliased

/-- `public_answer` in words: the answers to all topics one after the other. -/
def publicReply (db : Db) (topic : Option String) (quote : String) : Answer :=
  match askedTopics (questionTopic topic quote) quote with
  | [] => topicReply db (questionTopic topic quote) quote
  | topics =>
    let answers := topics.map fun name => topicReply db name ""
    { status := if ∃ answer ∈ answers, answer.status = .unknown then .unknown else .answered
      text := " ".intercalate (answers.map (·.text)) }

theorem publicReply_status (db : Db) (topic : Option String) (quote : String) :
    (publicReply db topic quote).status = publicAnswer db topic quote := by
  unfold publicReply publicAnswer askedTopics
  generalize (topicPatterns.filter fun (_, pattern) => Regex.found pattern quote).map (·.1) = names
  cases names with
  | nil => exact topicReply_status db (questionTopic topic quote) quote
  | cons name rest =>
    change _ = if ∃ other ∈ (if questionTopic topic quote ∈ namedTopics ∧
        questionTopic topic quote ∉ name :: rest then questionTopic topic quote :: name :: rest
        else name :: rest), topicAnswer db other = .unknown then IntentStatus.unknown else .answered
    generalize questionTopic topic quote = asked
    dsimp only
    generalize listed : (if asked ∈ namedTopics ∧ asked ∉ name :: rest then asked :: name :: rest
      else name :: rest) = topics
    have nonempty : topics ≠ [] := by
      rw [← listed]
      split <;> exact List.cons_ne_nil _ _
    cases topics with
    | nil => exact absurd rfl nonempty
    | cons first others =>
      have unknown : (∃ answer ∈ (first :: others).map fun name => topicReply db name "",
          answer.status = .unknown) ↔ ∃ name ∈ first :: others, topicAnswer db name = .unknown := by
        simp only [List.mem_map, exists_exists_and_eq_and, topicReply_status]
      dsimp only
      rw [if_congr unknown rfl rfl]

/-- The latest approval of the session. -/
def latestApproval (db : Db) : Option ApprovalRequest :=
  db.approvals.rows.foldl
    (fun best approval =>
      match best with
      | none => some approval
      | some kept => if kept.id < approval.id then some approval else some kept)
    none

/-- `public_approval_status` -/
def publicApprovalStatus (db : Db) (now : Time) : Answer where
  status := .answered
  text :=
    match latestApproval db with
    | none => "当前没有卖家审批记录。"
    | some approval =>
      if approval.effectStatus = .invalidated then "原审批已失效，不能用于确认旧报价。"
      else
        match approval.status with
        | .pending =>
          if approval.expiresAt ≤ now then "审批响应期限已到，等待系统收尾。"
          else "当前仍在等待卖家审批，尚未接受报价，无法承诺审批时间。"
        | .approved =>
          if approval.effectStatus = .notApplied then
            "卖家已批准，等待系统复核并应用结果，尚不能确认。"
          else "卖家批准已应用；请以当前有效方案卡片及最终确认结果为准。"
        | .rejected => "卖家已拒绝该报价，可继续协商。"
        | .cancelled => "原审批已取消。"
        | .expired => "原审批已到期。"

/-- What an offer still waits for. -/
def Offer.pendingText (offer : Offer) : String :=
  if offer.status = .accepted then "该报价已接受，但仍等待你独立确认，尚未记录最终成交意向。"
  else "该报价尚待卖家审批，尚未接受或确认成交意向。"

/-- `answer_question` in words. -/
def questionReply (db : Db) (run : NegotiationInput) (payload : ChatInput)
    (topic : Option String) (quote : String) (now : Time) : Answer :=
  if topic = some "approval_status" then publicApprovalStatus db now
  else
    let displayed := ((frozenContext db run payload now).bind (·.offerId)).bind db.offers.get
    match displayed.filter fun offer => asksOfferPrice topic quote ∧
        db.session.currentOfferId = some offer.id ∧ now < offer.expiresAt ∧
          (offer.status = .accepted ∨ offer.status = .proposed) with
    | some offer =>
      { status := .answered
        text := "你已查看的当前报价为" ++ offer.price.text ++ "元；页面公开标价为" ++
          db.product.listedPrice.text ++ "元。" ++ offer.pendingText ++ "询问价格本身不会触发确认。" }
    | none => publicReply db topic quote

/-- The answer in words has the status the planning goes by. -/
theorem questionReply_status (db : Db) (run : NegotiationInput) (payload : ChatInput)
    (topic : Option String) (quote : String) (now : Time) :
    (questionReply db run payload topic quote now).status =
      answerQuestion db run payload topic quote now := by
  unfold questionReply answerQuestion
  split
  · rfl
  · dsimp only
    generalize ((frozenContext db run payload now).bind (·.offerId)).bind db.offers.get = displayed
    cases displayed with
    | none =>
      rw [if_neg fun both => both.2]
      exact publicReply_status db topic quote
    | some offer =>
      by_cases shown : asksOfferPrice topic quote ∧ db.session.currentOfferId = some offer.id ∧
          now < offer.expiresAt ∧ (offer.status = .accepted ∨ offer.status = .proposed)
      · rw [if_pos ⟨shown.1, shown.2⟩, Option.filter_some, if_pos (decide_eq_true shown)]
      · rw [if_neg fun both => shown ⟨both.1, both.2⟩, Option.filter_some,
          if_neg fun decided => shown (of_decide_eq_true decided)]
        exact publicReply_status db topic quote

end Negotiation
