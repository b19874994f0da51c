/-
This file models the two filters that keep numbers out of the words of the model,
and settles for which texts they let through a number that is not of the public
evidence, whatever the evidence is.

A filter reads the numbers off the text as it stands. What the text states are
the numbers of its normal form: a circled digit is a digit there, a full-width
point is a point. One filter does not read an amount in Chinese numerals, the
other one does not read digits behind a letter.
-/

import SecondhandAgent.Agent.Claims
import SecondhandAgent.Encoding
import SecondhandAgent.Numerals
import SecondhandAgent.Replies

namespace Negotiation

open Store Regex

/-! ### What a text states -/

/-- What is taken from the language: the normal form NFKC, case folding, which characters are
letters or digits, the finite decimal number a text denotes, and the number an amount in Chinese
numerals denotes. -/
structure Language where
  nfkc : String → String
  casefold : String → String
  isAlnum : Char → Bool
  decimal : String → Option Rat
  amount : String → Option Rat

/-- What is known of it: the normal form of a text in ASCII is the text, a number in digits of
ASCII denotes what its digits say, and the empty text denotes none. -/
structure Language.Documented (language : Language) : Prop where
  nfkc_ascii : ∀ text : String, (∀ char ∈ text.toList, char.toNat < 128) → language.nfkc text = text
  decimal_numeral : ∀ word : List Char, IsNumeral word → (∀ char ∈ word, char.toNat < 128) →
    language.decimal (.ofList word) = some (decimalOf (.ofList word))
  decimal_empty : language.decimal "" = none

/-- `_chinese_money_pattern` -/
def chineseMoney : String := r"[零〇一二两三四五六七八九十百千万亿点]+\s*(?:元|块)"

/-- The numbers that a reader sees: the runs of digits of the normal form, with their decimal parts,
and its amounts in Chinese numerals. -/
def Language.stated (language : Language) (text : String) : List Rat :=
  numbersOf (language.nfkc text) ++
    (findall chineseMoney (language.nfkc text)).filterMap language.amount

/-! ### The filter of the replies of a turn -/

/-- The text of a `ReplyCandidate`. -/
structure CandidateText where
  text : String
  nonempty : 1 ≤ text.length
  short : text.length ≤ 1200

structure ReplyCandidate where
  text : CandidateText
  coveredIds : List String
  few : coveredIds.length ≤ 8

/-- What the filter takes of the evidence: the items with their texts, the offer and the drafts. -/
structure PublicEvidence where
  items : List (String × String)
  publicOffer : Option Offer := none
  publicDrafts : List Candidate := []

section

variable {Output : Type} (encoding : Encoding Output)

def Predicate.describe (predicate : Predicate) : Output :=
  encoding.object
    [("fact", encoding.text predicate.fact.text),
      ("operator", encoding.text predicate.operator.text),
      ("value", encoding.text predicate.value),
      ("source_quote", encoding.text predicate.sourceQuote)]

def Candidate.describe (candidate : Candidate) : Output :=
  encoding.object
    [("amount", encoding.option (fun amount => encoding.text (Money.text amount)) candidate.amount),
      ("delivery", encoding.option (fun delivery => encoding.text delivery.text) candidate.delivery),
      ("payer", encoding.option (fun payer => encoding.text payer.text) candidate.payer),
      ("region", encoding.option encoding.text candidate.region),
      ("conditions", encoding.list (candidate.conditions.map (·.describe encoding))),
      ("commitments", encoding.list (candidate.commitments.map encoding.text))]

def Offer.describe (offer : Offer) : Output :=
  encoding.object
    [("amount", encoding.text offer.price.text),
      ("terms", encoding.object (offer.terms.map fun term => (term.1, encoding.text term.2))),
      ("shipping_paid_by", encoding.text offer.shippingPaidBy.text)]

end

/-- `evidence_text` -/
def PublicEvidence.text (evidence : PublicEvidence) : String :=
  .ofList ([' '].intercalate (evidence.items.map fun item => item.2.toList) ++
    Encoding.dumps.list [Encoding.dumps.option (·.describe Encoding.dumps) evidence.publicOffer,
      Encoding.dumps.list (evidence.publicDrafts.map (·.describe Encoding.dumps))])

/-- A promise to tell the seller something. -/
def sellerContact : String :=
  r"(?:我|我们|将|会|帮你|替你).{0,8}(?:联系|通知|反馈).{0,5}卖家"

/-- Words for what is private. -/
def privateWords : String := r"底价|最低净收入|自动接受阈值|内部成本|系统提示词"

/-- What the filter checks of the text alone. -/
def discreet (text : String) : Bool :=
  decide (Agent.findUnsafeClaims text = []) && !found sellerContact text && !found privateWords text

/-- `candidate_safe` -/
def candidateSafe (candidate : ReplyCandidate) (evidence : PublicEvidence) : Bool :=
  let expected := evidence.items.map Prod.fst
  let text := candidate.text.text
  decide (candidate.coveredIds ⊆ expected ∧ expected ⊆ candidate.coveredIds ∧
      candidate.coveredIds.length = expected.dedup.length) &&
    discreet text && decide (numbersOf text ⊆ numbersOf evidence.text)

/-! ### The filter of the dialogue policy -/

/-- `_forbidden_phrases` -/
def forbiddenPhrases : List String :=
  ["底价", "底價", "最低", "最低价", "最低價", "最低接受", "最低净收入", "自动接受阈值", "接受阈值",
    "内部规则", "系统提示词", "system prompt", "internal rule", "floor price", "minimum price",
    "lowest price", "precio mínimo", "current_offer_id", "dialogue_acts", "requested_value",
    "product_details", "available", "unavailable", "draft", "卖家已同意", "卖家已经同意",
    "卖家可以接受", "卖家能够接受", "卖家接受", "审批通过", "審批通過", "已经批准", "已批准",
    "seller approved", "seller has approved", "approved by seller", "approval granted",
    "seller agreed", "seller accepts", "已经成交", "已成交", "成交了", "成交", "为你保留", "给你保留",
    "已经预订", "已预订", "锁定商品", "发货", "寄出", "寄送", "保证发货", "一定发货", "当天发货",
    "今天发货", "明天发货", "包邮", "免邮", "卖家承担运费", "运费", "可以卖", "能卖", "卖给你",
    "接受这个价格", "这个价格可以", "一口价", "心理价", "成交价", "deal confirmed", "deal is done",
    "sold to you", "reserved for you", "hold it for you", "free shipping", "shipping is free",
    "seller pays shipping", "ship today", "ship tomorrow", "dispatch today", "guaranteed shipping",
    "guarantee delivery", "envío gratis"]

/-- `_arabic_money_pattern`, with the groups `prefix` and `suffix`. -/
def arabicMoney : String :=
  r"(?:[¥￥]\s*(\d+(?:\.\d+)?))|(\d+(?:\.\d+)?)\s*(?:元|块|RMB)"

/-- What is public of a product; a title or a description that is not a text is none. -/
structure PublicProduct where
  title : Option String := none
  description : Option String := none
  /-- `str(product.get("listed_price", ""))` -/
  listedPrice : String := ""

/-- `_text` with an empty fallback. -/
def fieldText (value : Option String) : String :=
  match value with
  | some text => if strip text ≠ "" then strip text else ""
  | none => ""

/-- `public_text` -/
def PublicProduct.text (product : PublicProduct) : String :=
  " ".intercalate [fieldText product.title, fieldText product.description, product.listedPrice]

/-- A match of `_number_pattern` does not stand behind a letter of ASCII. -/
def notBehindLetter (previous : Option Char) : Bool := !previous.any Char.isAlpha

/-- The numbers that `_number_pattern` finds; what it takes always denotes one. -/
def numbersRead (text : String) : List Rat :=
  match compile number with
  | none => []
  | some pattern =>
    (findallBehind notBehindLetter pattern (text.toList.length + 1) none text.toList).map decimalOf

/-- `re.finditer` -/
def finditerMatches (pattern : Pattern) : Nat → List Char → List Match
  | 0, _ => []
  | fuel + 1, text =>
    match searchChars pattern text with
    | none => []
    | some (_, found) => found :: finditerMatches pattern fuel found.rest

/-- The amounts of money in Arabic digits. -/
def moneyAmounts (text : String) : List Rat :=
  match compile arabicMoney with
  | none => []
  | some pattern =>
    (finditerMatches pattern.foldCase text.toList.length text.toList).map fun found =>
      decimalOf (if found.group 1 ≠ "" then found.group 1 else found.group 2)

section

variable (language : Language)

/-- `_compact_for_safety` -/
def Language.compactForSafety (value : String) : String :=
  .ofList ((language.casefold (language.nfkc value)).toList.filter language.isAlnum)

/-- What the filter checks of the text alone. -/
def Language.harmless (reply : String) : Bool :=
  let candidate := strip reply
  let normalized := language.casefold (language.nfkc candidate)
  let compact := language.compactForSafety normalized
  !decide (candidate = "" ∨ 800 < candidate.length) &&
    !(forbiddenPhrases.any fun phrase =>
      occurs (language.casefold (language.nfkc phrase)) normalized ||
        occurs (language.compactForSafety phrase) compact) &&
    !(found chineseMoney normalized || found chineseMoney compact)

/-- `_candidate_is_safe` -/
def Language.candidateIsSafe (reply : String) (product : PublicProduct) : Bool :=
  let candidate := strip reply
  language.harmless reply && decide (numbersRead candidate ⊆ numbersRead product.text) &&
    (moneyAmounts candidate).all fun amount =>
      decide (language.decimal product.listedPrice = some amount)

end

/-! ### Numbers of the evidence -/

def PublicEvidence.numbers (language : Language) (evidence : PublicEvidence) : List Rat :=
  numbersOf evidence.text ++ language.stated evidence.text

def PublicProduct.numbers (language : Language) (product : PublicProduct) : List Rat :=
  numbersRead product.text ++ language.stated product.text ++
    (language.decimal product.listedPrice).toList

/-! ### Texts of plain numbers -/

/-- The numbers that some words denote, in digits of ASCII with a blank before each. -/
def spaced (words : List String) : List Char :=
  words.flatMap fun word => ' ' :: plainWord word.toList

theorem digitValue_plainDigits (chars : List Char) (value : Nat) :
    (chars.map plainDigit).foldl (fun value char => 10 * value + (digitValue char).getD 0) value =
      chars.foldl (fun value char => 10 * value + (digitValue char).getD 0) value := by
  induction chars generalizing value with
  | nil => rfl
  | cons char rest inductionHypothesis =>
    rw [List.map_cons, List.foldl_cons, List.foldl_cons, (plainDigit_eq char).1,
      Option.getD_some, inductionHypothesis]

theorem plainDigit_ne_point (char : Char) : plainDigit char ≠ '.' := fun point => by
  have none : digitValue '.' = none := by decide
  have digit := (plainDigit_eq char).1
  rw [point, none] at digit
  cases digit

theorem ascii_of_all {chars : List Char}
    (small : (chars.all fun char => decide (char.toNat < 128)) = true) :
    ∀ char ∈ chars, char.toNat < 128 := fun char member =>
  decide_eq_true_eq.mp (List.all_eq_true.mp small char member)

/-- The digits before the point, and those behind it. -/
theorem parts_plainWord (word : List Char) :
    let whole := word.takeWhile (· ≠ '.')
    let fraction := (word.drop whole.length).drop 1
    let plain := plainWord word
    plain.takeWhile (· ≠ '.') = '0' :: whole.map plainDigit ∧
      (plain.drop ('0' :: whole.map plainDigit).length).drop 1 = fraction.map plainDigit := by
  intro whole fraction plain
  have digits : ∀ char ∈ '0' :: whole.map plainDigit, decide (char ≠ '.') = true := by
    refine List.forall_mem_cons.mpr ⟨by decide, fun char member => ?_⟩
    obtain ⟨old, _, rfl⟩ := List.mem_map.mp member
    exact decide_eq_true (plainDigit_ne_point old)
  have parts : plain = ('0' :: whole.map plainDigit) ++
      if fraction = [] then [] else '.' :: fraction.map plainDigit := rfl
  rw [parts, List.takeWhile_append_of_pos digits, List.drop_left]
  by_cases bare : fraction = []
  · simp [bare]
  · simp [bare]

/-- A number is the same in digits of ASCII. -/
theorem decimalOf_plainWord (word : String) :
    decimalOf (.ofList (plainWord word.toList)) = decimalOf word := by
  obtain ⟨whole, fraction⟩ := parts_plainWord word.toList
  unfold decimalOf
  rw [String.toList_ofList]
  dsimp only
  rw [whole, fraction, List.length_map, List.cons_append, List.foldl_cons, ← List.map_append,
    digitValue_plainDigits]
  rfl

section

variable {allowed : Option Char → Bool}

/-- The words stand in a text that goes on with something else. -/
theorem written_spaced (blank : allowed (some ' ') = true) (words : List String)
    {rest : List Char} {more : List (List Char)} (later : Written allowed rest more) :
    Written allowed (spaced words ++ rest) (words.map (plainWord ·.toList) ++ more) := by
  induction words with
  | nil => exact later
  | cons word words inductionHypothesis =>
    have parts : spaced (word :: words) ++ rest =
        [' '] ++ (plainWord word.toList ++ (spaced words ++ rest)) := by
      simp [spaced]
    rw [parts]
    exact .word (List.cons_ne_nil _ _) (.of_all (by decide) (by decide)) blank
      (isNumeral_plainWord word.toList) inductionHypothesis

/-- The numbers of a text in which some words are written. -/
theorem numbersOf_written {text : List Char} {words : List (List Char)}
    (written : Written allowed text words) :
    numbersOf (.ofList text) = words.map fun word => decimalOf (.ofList word) := by
  have found := written.findallChars (Nat.le_refl text.length)
  unfold numbersOf findall
  rw [show compile number = _ from compile_number]
  dsimp only
  rw [String.length_ofList, String.toList_ofList, found, List.map_map]
  rfl

theorem numbersRead_written {text : List Char} {words : List (List Char)}
    (written : Written notBehindLetter text words) :
    numbersRead (.ofList text) = words.map fun word => decimalOf (.ofList word) := by
  have found := written.findallBehind (Nat.lt_succ_self text.length) none
  unfold numbersRead
  rw [show compile number = _ from compile_number]
  dsimp only
  rw [String.toList_ofList, found, List.map_map]
  rfl

end

theorem decimalOf_plainWords (words : List String) :
    (words.map (plainWord ·.toList)).map (fun word => decimalOf (.ofList word)) =
      words.map decimalOf := by
  rw [List.map_map]
  exact List.map_congr_left fun word _ => decimalOf_plainWord word

def chineseNumerals : List Char :=
  ['零', '〇', '一', '二', '两', '三', '四', '五', '六', '七', '八', '九', '十', '百', '千', '万', '亿',
    '点']

def moneyUnit : Pattern :=
  .seq (.times (.char .space) 0 none true)
    (.seq (.alt (.seq (.char (.one '元')) .empty) (.seq (.char (.one '块')) .empty)) .empty)

theorem compile_chineseMoney :
    compile chineseMoney =
      some (.seq (.times (.char (.among chineseNumerals)) 1 none true) moneyUnit) := by
  decide +kernel

/-- A text in ASCII states the numbers that are written in it. -/
theorem Language.Documented.stated {language : Language} (documented : language.Documented)
    {text : String} (ascii : ∀ char ∈ text.toList, char.toNat < 128) :
    language.stated text = numbersOf text := by
  have large : (chineseNumerals.all fun char => decide (128 ≤ char.toNat)) = true := by decide
  have none : findall chineseMoney text = [] := by
    unfold findall
    rw [compile_chineseMoney]
    refine findallChars_class _ fun char member => ?_
    by_contra among
    have known : char ∈ chineseNumerals := by simpa [CharSet.accepts] using among
    exact absurd (ascii char member) (Nat.not_lt.mpr (decide_eq_true_eq.mp (List.all_eq_true.mp large char known)))
  unfold Language.stated
  rw [documented.nfkc_ascii text ascii, none, List.filterMap_nil, List.append_nil]

/-! ### The filter of the replies of a turn -/

/-- The evidence that has just the numbers of some words. -/
def plainEvidence (words : List String) : PublicEvidence where
  items := [("answer", .ofList (spaced words))]

/-- Behind the texts of the items stand an offer and drafts. -/
def nothingElse : List Char := ['[', 'n', 'u', 'l', 'l', ',', ' ', '[', ']', ']']

theorem plainEvidence_text (words : List String) :
    (plainEvidence words).text = .ofList (spaced words ++ nothingElse) := by
  have null : "null".toList = ['n', 'u', 'l', 'l'] := by simp
  unfold PublicEvidence.text plainEvidence Encoding.dumps Encoding.option
  simp [nothingElse, null, List.intercalate]

theorem spaced_ascii (words : List String) : ∀ char ∈ spaced words, char.toNat < 128 := by
  have plain : ∀ char ∈ plainChars, char.toNat < 128 := ascii_of_all (by decide)
  intro char member
  obtain ⟨word, _, inside⟩ := List.mem_flatMap.mp member
  rcases List.mem_cons.mp inside with rfl | digit
  · decide
  · exact plain char (plainWord_chars _ char digit)

theorem numbersOf_plainEvidence (words : List String) :
    numbersOf (plainEvidence words).text = words.map decimalOf := by
  have written : Written (fun _ => true) (spaced words ++ nothingElse)
      (words.map (plainWord ·.toList) ++ []) :=
    written_spaced rfl words (.gap (.of_all (by decide) (by decide)))
  rw [plainEvidence_text, numbersOf_written written, List.append_nil, decimalOf_plainWords]

theorem plainEvidence_numbers {language : Language} (documented : language.Documented)
    (words : List String) :
    (plainEvidence words).numbers language = words.map decimalOf ++ words.map decimalOf := by
  have ascii : ∀ char ∈ (plainEvidence words).text.toList, char.toNat < 128 := by
    rw [plainEvidence_text, String.toList_ofList]
    exact List.forall_mem_append.mpr ⟨spaced_ascii words, ascii_of_all (by decide)⟩
  rw [PublicEvidence.numbers, documented.stated ascii, numbersOf_plainEvidence]

/-- A discreet text passes with evidence that has its numbers. -/
theorem candidateSafe_plainEvidence {text : CandidateText} (fine : discreet text.text = true) :
    candidateSafe ⟨text, ["answer"], by decide⟩ (plainEvidence (findall number text.text)) =
      true := by
  unfold candidateSafe
  dsimp only
  have single : ["answer"].dedup.length = 1 := rfl
  rw [fine, numbersOf_plainEvidence]
  simp only [plainEvidence, List.map_cons, List.map_nil, single, numbersOf]
  simp

theorem candidateSafe_parts {candidate : ReplyCandidate} {evidence : PublicEvidence}
    (safe : candidateSafe candidate evidence = true) :
    discreet candidate.text.text = true ∧
      numbersOf candidate.text.text ⊆ numbersOf evidence.text := by
  unfold candidateSafe at safe
  simp only [Bool.and_eq_true, decide_eq_true_eq] at safe
  exact ⟨safe.1.2, safe.2⟩

/-- The filter keeps the numbers of a text to those of any evidence exactly if it refuses the text
anyway, or reads every number the text states. -/
theorem candidateSafe_iff {language : Language} (documented : language.Documented)
    (text : CandidateText) :
    (∀ candidate evidence, candidate.text = text → candidateSafe candidate evidence = true →
        language.stated text.text ⊆ evidence.numbers language) ↔
      discreet text.text = false ∨ language.stated text.text ⊆ numbersOf text.text := by
  constructor
  · intro keeps
    cases fine : discreet text.text with
    | false => exact .inl rfl
    | true =>
      right
      have stated := keeps _ _ rfl (candidateSafe_plainEvidence fine)
      rw [plainEvidence_numbers documented] at stated
      exact fun number member => (List.mem_append.mp (stated member)).elim id id
  · rintro refused candidate evidence rfl safe
    obtain ⟨fine, read⟩ := candidateSafe_parts safe
    rcases refused with indiscreet | stated
    · rw [fine] at indiscreet
      cases indiscreet
    · exact fun number member => List.mem_append_left _ (read (stated member))

/-! ### The filter of the dialogue policy -/

/-- A product that has just the numbers of some words and a price. -/
def plainProduct (words : List String) (price : Option String) : PublicProduct where
  description := some (.ofList ('(' :: (spaced words ++ [')'])))
  listedPrice := .ofList (price.elim [] (plainWord ·.toList))

theorem strip_enclosed (inside : List Char) :
    strip (.ofList ('(' :: (inside ++ [')']))) = .ofList ('(' :: (inside ++ [')'])) := by
  have left : ¬ isSpace '(' = true := by decide
  have right : ¬ isSpace ')' = true := by decide
  unfold strip
  rw [String.toList_ofList, List.dropWhile_cons_of_neg left, List.reverse_cons, List.reverse_append,
    List.reverse_singleton, List.singleton_append, List.cons_append,
    List.dropWhile_cons_of_neg right]
  simp

theorem plainProduct_text (words : List String) (price : Option String) :
    (plainProduct words price).text =
      .ofList ([' ', '('] ++ (spaced words ++
        ([')', ' '] ++ price.elim [] (plainWord ·.toList)))) := by
  have nonempty : String.ofList ('(' :: (spaced words ++ [')'])) ≠ "" := fun same => by
    have chars := congrArg String.toList same
    simp at chars
  unfold PublicProduct.text plainProduct
  dsimp only [fieldText]
  rw [strip_enclosed, if_pos nonempty]
  apply String.toList_inj.mp
  simp

theorem plainProduct_written (allowed : Option Char → Bool) (blank : allowed (some ' ') = true)
    (words : List String) (price : Option String) :
    Written allowed
      ([' ', '('] ++ (spaced words ++ ([')', ' '] ++ price.elim [] (plainWord ·.toList))))
      ((words ++ price.toList).map (plainWord ·.toList)) := by
  have last : Written allowed ([')', ' '] ++ price.elim [] (plainWord ·.toList))
      (price.toList.map (plainWord ·.toList)) := by
    cases price with
    | none => exact .gap (.of_all (by decide) (by decide))
    | some word =>
      have alone : Written allowed ([')', ' '] ++ (plainWord word.toList ++ []))
          [plainWord word.toList] :=
        .word (List.cons_ne_nil _ _) (.of_all (by decide) (by decide)) blank
          (isNumeral_plainWord word.toList) (.gap (.of_all (by decide) (by decide)))
      rwa [List.append_nil] at alone
  rw [List.map_append]
  exact (written_spaced blank words last).behind (.of_all (by decide) (by decide))
    (List.cons_ne_nil _ _)

section

variable {language : Language} {words : List String} {price : Option String}

theorem plainProduct_numbersRead (words : List String) (price : Option String) :
    numbersRead (plainProduct words price).text = (words ++ price.toList).map decimalOf := by
  rw [plainProduct_text, numbersRead_written (plainProduct_written _ rfl words price),
    decimalOf_plainWords]

theorem plainProduct_stated (documented : language.Documented) (words : List String)
    (price : Option String) :
    language.stated (plainProduct words price).text = (words ++ price.toList).map decimalOf := by
  have plain : ∀ char ∈ plainChars, char.toNat < 128 := ascii_of_all (by decide)
  have priced : ∀ char ∈ price.elim [] (plainWord ·.toList), char.toNat < 128 := by
    cases price with
    | none => exact fun char member => nomatch member
    | some word => exact fun char member => plain char (plainWord_chars _ char member)
  have ascii : ∀ char ∈ (plainProduct words price).text.toList, char.toNat < 128 := by
    rw [plainProduct_text, String.toList_ofList]
    refine List.forall_mem_append.mpr ⟨ascii_of_all (by decide), ?_⟩
    refine List.forall_mem_append.mpr ⟨spaced_ascii words, ?_⟩
    exact List.forall_mem_append.mpr ⟨ascii_of_all (by decide), priced⟩
  rw [documented.stated ascii, plainProduct_text,
    numbersOf_written (plainProduct_written (fun _ => true) rfl words price),
    decimalOf_plainWords]

theorem plainProduct_price (documented : language.Documented) (words : List String)
    (price : Option String) :
    language.decimal (plainProduct words price).listedPrice = price.map decimalOf := by
  cases price with
  | none => exact documented.decimal_empty
  | some word =>
    have plain : ∀ char ∈ plainChars, char.toNat < 128 := ascii_of_all (by decide)
    refine (documented.decimal_numeral _ (isNumeral_plainWord word.toList) fun char member =>
      plain char (plainWord_chars _ char member)).trans ?_
    rw [decimalOf_plainWord]
    rfl

theorem candidateIsSafe_parts {reply : String} {product : PublicProduct}
    (safe : language.candidateIsSafe reply product = true) :
    language.harmless reply = true ∧ numbersRead (strip reply) ⊆ numbersRead product.text ∧
      ∀ amount ∈ moneyAmounts (strip reply), language.decimal product.listedPrice = some amount := by
  unfold Language.candidateIsSafe at safe
  simp only [Bool.and_eq_true, decide_eq_true_eq, List.all_eq_true] at safe
  exact ⟨safe.1.1, safe.1.2, safe.2⟩

/-- The words that are read as numbers. -/
def wordsRead (text : String) : List String :=
  match compile number with
  | none => []
  | some pattern => findallBehind notBehindLetter pattern (text.toList.length + 1) none text.toList

theorem numbersRead_eq (text : String) : numbersRead text = (wordsRead text).map decimalOf := by
  unfold numbersRead wordsRead
  rw [show compile number = _ from compile_number]

theorem moneyAmounts_word {text : String} {amount : Rat} (member : amount ∈ moneyAmounts text) :
    ∃ word, decimalOf word = amount := by
  unfold moneyAmounts at member
  split at member
  · cases member
  · obtain ⟨found, _, same⟩ := List.mem_map.mp member
    exact ⟨_, same⟩

/-- A harmless reply with at most one amount of money passes for a product with its numbers. -/
theorem candidateIsSafe_plainProduct (documented : language.Documented) {reply : String}
    (harmless : language.harmless reply = true)
    (amounts : ∀ amount ∈ moneyAmounts (strip reply), price.map decimalOf = some amount) :
    language.candidateIsSafe reply (plainProduct (wordsRead (strip reply)) price) = true := by
  unfold Language.candidateIsSafe
  dsimp only
  rw [harmless, plainProduct_numbersRead, plainProduct_price documented, numbersRead_eq]
  simp only [Bool.true_and, Bool.and_eq_true, decide_eq_true_eq, List.all_eq_true]
  refine ⟨fun number member => ?_, amounts⟩
  rw [List.map_append]
  exact List.mem_append_left _ member

/-- The filter keeps the numbers of a reply to those of any product exactly if it refuses the reply
anyway, or reads every number the reply states as a number or an amount. -/
theorem candidateIsSafe_iff (documented : language.Documented) (reply : String) :
    (∀ product, language.candidateIsSafe reply product = true →
        language.stated reply ⊆ product.numbers language) ↔
      language.harmless reply = false ∨
        (∃ one ∈ moneyAmounts (strip reply), ∃ two ∈ moneyAmounts (strip reply), one ≠ two) ∨
        language.stated reply ⊆ numbersRead (strip reply) ++ moneyAmounts (strip reply) := by
  constructor
  · intro keeps
    cases harmless : language.harmless reply with
    | false => exact .inl rfl
    | true =>
      right
      by_cases differ : ∃ one ∈ moneyAmounts (strip reply),
          ∃ two ∈ moneyAmounts (strip reply), one ≠ two
      · exact .inl differ
      · right
        -- all amounts of money are the price of one product
        obtain ⟨price, amounts, priced⟩ : ∃ price : Option String,
            (∀ amount ∈ moneyAmounts (strip reply), price.map decimalOf = some amount) ∧
              ∀ word ∈ price.toList, decimalOf word ∈ moneyAmounts (strip reply) := by
          cases same : moneyAmounts (strip reply) with
          | nil => exact ⟨none, by simp, by simp⟩
          | cons first rest =>
            have member : first ∈ moneyAmounts (strip reply) := same ▸ List.mem_cons_self
            obtain ⟨word, rfl⟩ := moneyAmounts_word member
            refine ⟨some word, fun amount inside => congrArg some ?_, by simp⟩
            by_contra other
            exact differ ⟨_, member, amount, same ▸ inside, other⟩
        have known (number : Rat) (member : number ∈
            (wordsRead (strip reply) ++ price.toList).map decimalOf) :
            number ∈ numbersRead (strip reply) ++ moneyAmounts (strip reply) := by
          rw [List.map_append] at member
          rcases List.mem_append.mp member with read | amount
          · exact List.mem_append_left _ (numbersRead_eq _ ▸ read)
          · obtain ⟨word, inside, rfl⟩ := List.mem_map.mp amount
            exact List.mem_append_right _ (priced word inside)
        have stated := keeps _ (candidateIsSafe_plainProduct documented harmless amounts)
        rw [PublicProduct.numbers, plainProduct_numbersRead, plainProduct_stated documented,
          plainProduct_price documented] at stated
        intro number member
        rcases List.mem_append.mp (stated member) with written | amount
        · exact known number ((List.mem_append.mp written).elim id id)
        · refine known number (List.mem_map.mpr ?_)
          obtain ⟨word, chosen, rfl⟩ := Option.map_eq_some_iff.mp (Option.mem_toList.mp amount)
          exact ⟨word, List.mem_append_right _ (Option.mem_toList.mpr chosen), rfl⟩
  · rintro refused product safe
    obtain ⟨harmless, read, amounts⟩ := candidateIsSafe_parts safe
    rcases refused with harmful | ⟨one, first, two, second, differ⟩ | stated
    · rw [harmless] at harmful
      cases harmful
    · exact absurd (Option.some.inj ((amounts one first).symm.trans (amounts two second))) differ
    · intro number member
      rcases List.mem_append.mp (stated member) with plain | amount
      · exact List.mem_append_left _ (List.mem_append_left _ (read plain))
      · refine List.mem_append_right _ ?_
        rw [amounts number amount]
        exact List.mem_singleton_self number

end

/-- A filter keeps the numbers that a text states to those of the public evidence, whatever this
is, exactly if it refuses the text for its words or reads all of these numbers. -/
theorem accepted_numbers_are_public {language : Language} (documented : language.Documented) :
    (∀ text : CandidateText,
      (∀ candidate evidence, candidate.text = text → candidateSafe candidate evidence = true →
          language.stated text.text ⊆ evidence.numbers language) ↔
        discreet text.text = false ∨ language.stated text.text ⊆ numbersOf text.text) ∧
      ∀ reply : String,
        (∀ product, language.candidateIsSafe reply product = true →
            language.stated reply ⊆ product.numbers language) ↔
          language.harmless reply = false ∨
            (∃ one ∈ moneyAmounts (strip reply),
              ∃ two ∈ moneyAmounts (strip reply), one ≠ two) ∨
            language.stated reply ⊆ numbersRead (strip reply) ++ moneyAmounts (strip reply) :=
  ⟨candidateSafe_iff documented, candidateIsSafe_iff documented⟩

/-! ### A text with an amount in Chinese numerals -/

/-- The language as far as the texts below need it. -/
def plainLanguage : Language where
  nfkc text := text
  casefold text := .ofList (text.toList.map Char.toLower)
  isAlnum char := char.isAlphanum || 128 ≤ char.toNat
  decimal text :=
    if text ≠ "" ∧ text.toList.all fun char => CharSet.digit.accepts char || char = '.' then
      some (decimalOf text)
    else none
  amount text := if text = "三元" then some 3 else none

theorem plainLanguage_documented : plainLanguage.Documented where
  nfkc_ascii _ _ := rfl
  decimal_numeral word isNumeral _ := by
    have nonempty : String.ofList word ≠ "" := fun same => isNumeral.ne_nil (by
      simpa using congrArg String.toList same)
    obtain ⟨whole, part, rfl, -, digits, bare | ⟨fraction, rfl, -, decimals⟩⟩ := isNumeral.parts
    all_goals
      refine if_pos ⟨nonempty, ?_⟩
      rw [String.toList_ofList, List.all_append, Bool.and_eq_true]
      have before : whole.all (fun char => CharSet.digit.accepts char || char = '.') = true :=
        List.all_eq_true.mpr fun char member => by rw [digits char member, Bool.true_or]
      refine ⟨before, ?_⟩
    · rw [bare]
      rfl
    · rw [List.all_cons]
      exact List.all_eq_true.mpr fun char member => by rw [decimals char member, Bool.true_or]
  decimal_empty := by simp [plainLanguage]

def threeYuan : CandidateText where
  text := "三元"
  nonempty := by decide
  short := by decide

theorem found_false {pattern text : String}
    (nothing : (searchChars (Agent.compiled pattern) text.toList).isSome = false) :
    found pattern text = false := by
  unfold found search
  cases same : compile pattern with
  | none => rfl
  | some compiled =>
    rw [Agent.compiled, same, Option.getD_some] at nothing
    rw [Option.bind_some, Option.isSome_map, nothing]

set_option maxRecDepth 4000 in
theorem threeYuan_discreet : discreet threeYuan.text = true := by
  have chars : threeYuan.text.toList = ['三', '元'] := String.toList_ofList
  have claims (code : Agent.ClaimCode) : Agent.finditer code ['三', '元'] = [] := by
    have holds (chars : List Char) := Agent.compiled_chars
      (fun pattern => spans pattern.foldCase ['三', '元'] = []) chars
    cases code <;> exact holds _ (by decide +kernel)
  have words (pattern : List Char) := Agent.compiled_chars
    (fun pattern => (searchChars pattern ['三', '元']).isSome = false) pattern
  have contact : (searchChars (Agent.compiled sellerContact) ['三', '元']).isSome = false :=
    words _ (by decide +kernel)
  have privates : (searchChars (Agent.compiled privateWords) ['三', '元']).isSome = false :=
    words _ (by decide +kernel)
  rw [← chars] at contact privates
  have unclaimed : Agent.findUnsafeClaims threeYuan.text = [] := by
    refine List.filter_eq_nil_iff.mpr fun code _ => ?_
    rw [chars, claims code]
    exact Bool.false_ne_true
  unfold discreet
  rw [unclaimed, found_false contact, found_false privates]
  rfl

theorem numbersOf_threeYuan : numbersOf threeYuan.text = [] := by
  have gap : Gap ['三', '元'] := .of_all (by decide) (by decide)
  have written : Written (fun _ => true) ['三', '元'] [] := .gap gap
  exact numbersOf_written written

theorem findall_threeYuan : findall chineseMoney threeYuan.text = ["三元"] := by
  have chars : threeYuan.text.toList = ['三', '元'] := String.toList_ofList
  have length : threeYuan.text.length = 2 := by rw [← String.length_toList, chars]; rfl
  unfold findall
  rw [compile_chineseMoney, chars, length]
  decide +kernel

/-- The amount is stated and not read. -/
theorem threeYuan_stated : 3 ∈ plainLanguage.stated threeYuan.text := by
  have amount : plainLanguage.amount "三元" = some 3 := by simp [plainLanguage]
  unfold Language.stated
  refine List.mem_append_right _ (List.mem_filterMap.mpr ⟨"三元", ?_, amount⟩)
  rw [show plainLanguage.nfkc threeYuan.text = threeYuan.text from rfl, findall_threeYuan]
  exact List.mem_singleton_self _

/-- The text passes with evidence that has no numbers. -/
theorem accepted_numbers_are_public_threeYuan :
    ∃ candidate evidence, candidate.text = threeYuan ∧ candidateSafe candidate evidence = true ∧
      3 ∈ plainLanguage.stated threeYuan.text ∧ evidence.numbers plainLanguage = [] := by
  have words := numbersOf_threeYuan
  rw [numbersOf, List.map_eq_nil_iff] at words
  have safe := candidateSafe_plainEvidence threeYuan_discreet
  have numbers := plainEvidence_numbers plainLanguage_documented (findall number threeYuan.text)
  refine ⟨⟨threeYuan, ["answer"], by decide⟩, plainEvidence (findall number threeYuan.text), rfl,
    safe, threeYuan_stated, ?_⟩
  rw [numbers, words]
  rfl

def five : CandidateText where
  text := "5"
  nonempty := by decide
  short := by decide

/-- The filter keeps the number of a text that is a digit of ASCII. -/
theorem accepted_numbers_are_public_five :
    five.text = "5" ∧ ∀ candidate evidence, candidate.text = five →
      candidateSafe candidate evidence = true →
        plainLanguage.stated five.text ⊆ evidence.numbers plainLanguage := by
  refine ⟨rfl, ((accepted_numbers_are_public plainLanguage_documented).1 five).mpr (.inr ?_)⟩
  have chars : five.text.toList = ['5'] := String.toList_ofList
  have ascii : ∀ char ∈ five.text.toList, char.toNat < 128 := by
    rw [chars]
    exact ascii_of_all (by decide)
  rw [plainLanguage_documented.stated ascii]
  exact List.Subset.refl _

end Negotiation
