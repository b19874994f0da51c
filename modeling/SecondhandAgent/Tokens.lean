/-
This file models the tokens by which a user is known: a payload in JSON and its
signature, both in base 64. It settles which tokens make the decoder raise
anything but its own error, what a decoded token proves, and when a token that
was issued is read back.

The decoder guards the steps that it expects to fail. Three steps stand outside
the guard or raise what it does not catch: the payload part is turned into ASCII,
a number without an end is turned into an integer, and the expiry into a date.
-/

import SecondhandAgent.Authorization
import SecondhandAgent.Base64
import SecondhandAgent.Encoding
import SecondhandAgent.Integers

namespace Negotiation.Identity

open Pricing (JsonValue)
open Store

/-! ### Exceptions and times -/

/-- What the functions may raise. `dateRange` is the `ValueError` or `OverflowError` for a time that
is no date. -/
inductive Raised where
  | identityTokenError (text : String)
  | valueError (text : String)
  | unicodeEncodeError
  | overflowError
  | recursionError
  | dateRange
deriving DecidableEq

/-- The microseconds of the first date and those behind the last one. -/
def firstMoment : Int := -62135596800000000

def behindMoments : Int := 253402300800000000

/-- A time in UTC, in microseconds since the epoch. -/
structure Moment where
  micros : Int
  least : firstMoment ≤ micros := by decide
  most : micros < behindMoments := by decide

/-- `int(timestamp())` of a time, which cuts off towards zero. -/
def seconds (micros : Int) : Int := micros.tdiv 1000000

structure IdentityClaims where
  subject : String
  expiresAt : Int
deriving DecidableEq

/-- `datetime.fromtimestamp(expires_at, tz=UTC)` -/
def fromTimestamp (subject : String) (expiresAt : Int) : Except Raised IdentityClaims :=
  if firstMoment ≤ expiresAt * 1000000 ∧ expiresAt * 1000000 < behindMoments then
    .ok ⟨subject, expiresAt⟩
  else .error .dateRange

/-! ### Values of the payload -/

/-- What a float is: not a number, without an end, or a number, cut off towards zero. -/
inductive FloatKind where
  | nan
  | infinite
  | finite (whole : Int)
deriving DecidableEq

def floatKind (bits : BitVec 64) : FloatKind :=
  let exponent := bits.toNat / 2 ^ 52 % 2 ^ 11
  let fraction := bits.toNat % 2 ^ 52
  if exponent = 2047 then if fraction = 0 then .infinite else .nan
  else
    let mantissa := if exponent = 0 then fraction else 2 ^ 52 + fraction
    let whole : Nat := if 1075 ≤ exponent then mantissa * 2 ^ (exponent - 1075)
      else mantissa / 2 ^ (1075 - exponent)
    .finite (if bits.toNat / 2 ^ 63 = 1 then -(whole : Int) else whole)

def invalidPayload : Raised := .identityTokenError "身份令牌载荷无效"

/-- `int(value)`, where a `ValueError` and a `TypeError` are caught. -/
def toInteger : JsonValue → Except Raised Int
  | .integer value => .ok value
  | .bool value => .ok (if value then 1 else 0)
  | .float bits =>
    match floatKind bits with
    | .finite whole => .ok whole
    | .infinite => .error .overflowError
    | .nan => .error invalidPayload
  | .text value =>
    match Integers.read 10 value with
    | some number => .ok number
    | none => .error invalidPayload
  | .null | .array _ | .object _ => .error invalidPayload

/-- `version == 1` -/
def isOne : JsonValue → Bool
  | .integer value => decide (value = 1)
  | .bool value => value
  | .float bits => decide (bits = 0x3ff0000000000000)
  | .null | .text _ | .array _ | .object _ => false

/-- `isinstance(subject, str) and subject and len(subject) <= 64` -/
def subjectOf : JsonValue → Option String
  | .text subject => if subject ≠ "" ∧ subject.length ≤ 64 then some subject else none
  | _ => none

/-- `kind == _IDENTITY_KIND` -/
def isUserKind : JsonValue → Bool
  | .text kind => decide (kind = "user")
  | _ => false

/-! ### The payload in JSON -/

/-- Four digits in base 16. -/
def hexFour (value : Nat) : List Char :=
  [Encoding.hexDigit (value / 4096 % 16), Encoding.hexDigit (value / 256 % 16),
    Encoding.hexDigit (value / 16 % 16), Encoding.hexDigit (value % 16)]

/-- A character of a text in `json.dumps` with `ensure_ascii`. -/
def asciiEscaped (char : Char) : List Char :=
  if char.toNat < 127 then Encoding.escaped char
  else if char.toNat < 65536 then '\\' :: 'u' :: hexFour char.toNat
  else
    '\\' :: 'u' :: hexFour (55296 + (char.toNat - 65536) / 1024) ++
      '\\' :: 'u' :: hexFour (56320 + (char.toNat - 65536) % 1024)

/-- The payload of a token as it is written. -/
def payloadText (expiresAt issuedAt : Int) (subject : String) : List Char :=
  "\x7b\"exp\":".toList ++ (toString expiresAt).toList ++ ",\"iat\":".toList ++
    (toString issuedAt).toList ++ ",\"sub\":\"".toList ++ subject.toList.flatMap asciiEscaped ++
    "\",\"typ\":\"user\",\"ver\":1\x7d".toList

/-- The payload of a token as it is read. -/
def payloadValue (expiresAt issuedAt : Int) (subject : String) : JsonValue :=
  .object [("exp", .integer expiresAt), ("iat", .integer issuedAt), ("sub", .text subject),
    ("typ", .text "user"), ("ver", .integer 1)]

def bytesOf (chars : List Char) : List UInt8 := chars.map fun char => .ofNat char.toNat

/-- `encode("ascii")` -/
def encodeAscii (chars : List Char) : Except Raised (List UInt8) :=
  if chars.all fun char => char.toNat < 128 then .ok (bytesOf chars) else .error .unicodeEncodeError

/-! ### Tokens -/

/-- Why a text is not read as JSON: it is not JSON, or it is nested too deeply. -/
inductive LoadFailure where
  | valueError
  | recursionError

/-- The keyed hash, and `json.loads` of bytes. -/
structure TokenPlatform where
  hmac : List UInt8 → List UInt8 → List UInt8
  loads : List UInt8 → Except LoadFailure JsonValue

/-- The payload of a token is read as what was written. -/
def TokenPlatform.Reads (platform : TokenPlatform) (expiresAt issuedAt : Int) (subject : String) :
    Prop :=
  platform.loads (bytesOf (payloadText expiresAt issuedAt subject)) =
    .ok (payloadValue expiresAt issuedAt subject)

/-- The bytes of a secret. -/
def secretBytes (secret : String) : List UInt8 := secret.toUTF8.toList

section

variable (platform : TokenPlatform)

/-- The signature of the payload part. -/
def TokenPlatform.signature (secret : String) (payload : List Char) : List UInt8 :=
  platform.hmac (secretBytes secret) (bytesOf payload)

/-- `create_identity_token` -/
def createIdentityToken (subject secret : String) (lifetime : Int) (now : Moment) :
    Except Raised String :=
  if subject = "" ∨ 64 < subject.length then .error (.valueError "身份标识长度无效")
  else if secret.length < 32 then .error (.valueError "认证签名密钥至少需要 32 个字符")
  else if lifetime ≤ 0 then .error (.valueError "身份令牌有效期必须为正数")
  else if behindMoments ≤ now.micros + lifetime then .error .overflowError
  else
    let text := payloadText (seconds (now.micros + lifetime)) (seconds now.micros) subject
    let encoded := Base64.encode (bytesOf text)
    .ok (.ofList (encoded ++ '.' :: Base64.encode (platform.signature secret encoded)))

/-- The entries of the payload that are looked at. -/
structure Payload where
  subject : JsonValue
  kind : JsonValue
  issuedAt : Int
  expiresAt : Int
  version : JsonValue

/-- The value at a key; without it, a `KeyError` is caught. -/
def entry (entries : List (String × JsonValue)) (key : String) : Except Raised JsonValue :=
  match entries.lookup key with
  | some value => .ok value
  | none => .error invalidPayload

/-- The entries of the payload, in the order in which they are read. -/
def readEntries : JsonValue → Except Raised Payload
  | .object entries => do
    let subject ← entry entries "sub"
    let kind ← entry entries "typ"
    let issuedAt ← toInteger (← entry entries "iat")
    let expiresAt ← toInteger (← entry entries "exp")
    let version ← entry entries "ver"
    pure { subject, kind, issuedAt, expiresAt, version }
  | _ => .error invalidPayload

/-- The second guarded part. -/
def readPayload (encoded : List Char) : Except Raised Payload :=
  match Base64.decode encoded with
  | none => .error invalidPayload
  | some bytes =>
    match platform.loads bytes with
    | .error .valueError => .error invalidPayload
    | .error .recursionError => .error .recursionError
    | .ok value => readEntries value

/-- The subject of a payload that is valid at the time. -/
def Payload.validAt (payload : Payload) (now : Moment) : Option String :=
  let current := seconds now.micros
  if isUserKind payload.kind ∧ isOne payload.version ∧ payload.issuedAt ≤ current + 60 ∧
      current < payload.expiresAt ∧ payload.issuedAt < payload.expiresAt then
    subjectOf payload.subject
  else none

/-- `decode_identity_token` -/
def decodeIdentityToken (token secret : String) (now : Moment) : Except Raised IdentityClaims :=
  if secret.length < 32 then .error (.identityTokenError "认证服务未正确配置")
  else
    match token.toList.splitOn '.' with
    | [encodedPayload, encodedSignature] =>
      match Base64.decode encodedSignature with
      | none => .error (.identityTokenError "身份令牌格式无效")
      | some supplied => do
        let _ ← encodeAscii encodedPayload
        require (supplied = platform.signature secret encodedPayload)
          (.identityTokenError "身份令牌签名无效")
        let payload ← readPayload platform encodedPayload
        let subject ← expect (payload.validAt now) (.identityTokenError "身份令牌已经失效")
        fromTimestamp subject payload.expiresAt
    | _ => .error (.identityTokenError "身份令牌格式无效")

end

/-! ### What is raised -/

/-- Nothing is raised but the error of the decoder. -/
def Guarded {Value : Type} (result : Except Raised Value) : Prop :=
  ∀ failure, result = .error failure → ∃ text, failure = .identityTokenError text

section

variable {Value Next : Type}

theorem guarded_ok (value : Value) : Guarded (.ok value) := fun _ raised => nomatch raised

theorem guarded_error {failure : Raised} :
    Guarded (.error failure : Except Raised Value) ↔ ∃ text, failure = .identityTokenError text :=
  ⟨fun guarded => guarded failure rfl, fun own _ raised => Except.error.inj raised ▸ own⟩

/-- A sequence is guarded if its first part is and what follows on each of its values is. -/
theorem guarded_bind {first : Except Raised Value} {next : Value → Except Raised Next} :
    Guarded (first >>= next) ↔ Guarded first ∧ ∀ value, first = .ok value → Guarded (next value) := by
  cases first with
  | error failure =>
    change Guarded (.error failure) ↔ _
    rw [guarded_error, guarded_error]
    exact ⟨fun own => ⟨own, fun _ same => nomatch same⟩, And.left⟩
  | ok value =>
    change Guarded (next value) ↔ _
    exact ⟨fun guarded => ⟨guarded_ok value, fun _ same => Except.ok.inj same ▸ guarded⟩,
      fun both => both.2 value rfl⟩

end

/-- The value is a float without an end. -/
def IsInfinite (value : JsonValue) : Prop := ∃ bits, value = .float bits ∧ floatKind bits = .infinite

theorem guarded_toInteger (value : JsonValue) : Guarded (toInteger value) ↔ ¬ IsInfinite value := by
  have own : ∃ text, invalidPayload = .identityTokenError text := ⟨_, rfl⟩
  cases value with
  | integer value => exact iff_of_true (guarded_ok _) fun ⟨_, same, _⟩ => nomatch same
  | bool value => exact iff_of_true (guarded_ok _) fun ⟨_, same, _⟩ => nomatch same
  | null | array _ | object _ =>
    exact iff_of_true (guarded_error.mpr own) fun ⟨_, same, _⟩ => nomatch same
  | text value =>
    refine iff_of_true ?_ fun ⟨_, same, _⟩ => nomatch same
    change Guarded (match Integers.read 10 value with
      | some number => .ok number
      | none => .error invalidPayload)
    cases Integers.read 10 value with
    | none => exact guarded_error.mpr own
    | some number => exact guarded_ok number
  | float bits =>
    have infinite : IsInfinite (.float bits) ↔ floatKind bits = .infinite :=
      ⟨fun ⟨_, same, kind⟩ => JsonValue.float.inj same ▸ kind, fun kind => ⟨bits, rfl, kind⟩⟩
    rw [infinite]
    change Guarded (match floatKind bits with
      | .finite whole => .ok whole
      | .infinite => .error .overflowError
      | .nan => .error invalidPayload) ↔ _
    cases floatKind bits with
    | finite whole => exact iff_of_true (guarded_ok whole) fun same => nomatch same
    | nan => exact iff_of_true (guarded_error.mpr own) fun same => nomatch same
    | infinite =>
      refine iff_of_false (fun guarded => ?_) fun not => not rfl
      obtain ⟨_, same⟩ := guarded_error.mp guarded
      cases same

theorem entry_eq_ok {entries : List (String × JsonValue)} {key : String} {value : JsonValue} :
    entry entries key = .ok value ↔ entries.lookup key = some value := by
  unfold entry
  cases entries.lookup key with
  | none => exact iff_of_false (fun same => nomatch same) fun same => nomatch same
  | some found => exact ⟨fun same => Except.ok.inj same ▸ rfl, fun same => Option.some.inj same ▸ rfl⟩

theorem guarded_entry (entries : List (String × JsonValue)) (key : String) :
    Guarded (entry entries key) := by
  unfold entry
  cases entries.lookup key with
  | none => exact guarded_error.mpr ⟨_, rfl⟩
  | some found => exact guarded_ok found

/-- The entries lead to a number without an end: the issue time, or the expiry behind an issue time
that is read. -/
def Endless (entries : List (String × JsonValue)) : Prop :=
  entries.lookup "sub" ≠ none ∧ entries.lookup "typ" ≠ none ∧
    ∃ issuedAt, entries.lookup "iat" = some issuedAt ∧
      (IsInfinite issuedAt ∨ (∃ number, toInteger issuedAt = .ok number) ∧
        ∃ expiresAt, entries.lookup "exp" = some expiresAt ∧ IsInfinite expiresAt)

theorem guarded_readEntries (entries : List (String × JsonValue)) :
    Guarded (readEntries (.object entries)) ↔ ¬ Endless entries := by
  unfold readEntries Endless
  simp only [guarded_bind, guarded_entry, true_and, entry_eq_ok, guarded_toInteger]
  constructor
  · rintro steps ⟨hasSubject, hasKind, issuedAt, issued, endless⟩
    obtain ⟨subject, isSubject⟩ := Option.ne_none_iff_exists'.mp hasSubject
    obtain ⟨kind, isKind⟩ := Option.ne_none_iff_exists'.mp hasKind
    obtain ⟨finite, later⟩ := steps subject isSubject kind isKind issuedAt issued
    rcases endless with infinite | ⟨⟨number, read⟩, expiresAt, expires, infinite⟩
    · exact finite infinite
    · exact (later number read expiresAt expires).1 infinite
  · intro finite subject isSubject kind isKind issuedAt issued
    have hasSubject : entries.lookup "sub" ≠ none := Option.ne_none_iff_exists'.mpr ⟨_, isSubject⟩
    have hasKind : entries.lookup "typ" ≠ none := Option.ne_none_iff_exists'.mpr ⟨_, isKind⟩
    refine ⟨fun infinite => finite ⟨hasSubject, hasKind, issuedAt, issued, .inl infinite⟩, ?_⟩
    intro number read expiresAt expires
    refine ⟨fun infinite => ?_, fun _ _ _ _ => guarded_ok _⟩
    exact finite ⟨hasSubject, hasKind, issuedAt, issued, .inr ⟨⟨number, read⟩, expiresAt, expires, infinite⟩⟩

section

variable {platform : TokenPlatform}

/-- Reading the payload part is not guarded: its JSON is nested too deeply, or a time in it has no
end. -/
def Untamed (platform : TokenPlatform) (encoded : List Char) : Prop :=
  ∃ bytes, Base64.decode encoded = some bytes ∧
    (platform.loads bytes = .error .recursionError ∨
      ∃ entries, platform.loads bytes = .ok (.object entries) ∧ Endless entries)

theorem guarded_readPayload (encoded : List Char) :
    Guarded (readPayload platform encoded) ↔ ¬ Untamed platform encoded := by
  have own : ∃ text, invalidPayload = .identityTokenError text := ⟨_, rfl⟩
  unfold readPayload Untamed
  cases decoded : Base64.decode encoded with
  | none => exact iff_of_true (guarded_error.mpr own) fun ⟨_, same, _⟩ => nomatch same
  | some bytes =>
    dsimp only
    cases loaded : platform.loads bytes with
    | error failure =>
      cases failure with
      | valueError =>
        refine iff_of_true (guarded_error.mpr own) ?_
        rintro ⟨_, ⟨⟩, deep | ⟨entries, same, _⟩⟩
        · exact nomatch loaded.symm.trans deep
        · exact nomatch loaded.symm.trans same
      | recursionError =>
        refine iff_of_false (fun guarded => ?_) fun not => not ⟨bytes, rfl, .inl loaded⟩
        obtain ⟨_, same⟩ := guarded_error.mp guarded
        cases same
    | ok value =>
      have tame : (¬ ∃ found, some bytes = some found ∧
          (platform.loads found = .error .recursionError ∨
            ∃ entries, platform.loads found = .ok (.object entries) ∧ Endless entries)) ↔
          ∀ entries, value = .object entries → ¬ Endless entries := by
        constructor
        · rintro none entries rfl endless
          exact none ⟨bytes, rfl, .inr ⟨entries, loaded, endless⟩⟩
        · rintro none ⟨_, ⟨⟩, deep | ⟨entries, same, endless⟩⟩
          · exact nomatch loaded.symm.trans deep
          · exact none entries (Except.ok.inj (loaded.symm.trans same)) endless
      rw [tame]
      cases value with
      | object entries =>
        refine (guarded_readEntries entries).trans ⟨fun finite _ same => ?_, fun none => none _ rfl⟩
        exact JsonValue.object.inj same ▸ finite
      | null | bool _ | integer _ | float _ | text _ | array _ =>
        exact iff_of_true (guarded_error.mpr own) fun _ same => nomatch same

/-- The payload is valid, but its expiry is behind the last date. -/
def Endures (platform : TokenPlatform) (encoded : List Char) (now : Moment) : Prop :=
  ∃ payload subject, readPayload platform encoded = .ok payload ∧
    payload.validAt now = some subject ∧ behindMoments ≤ payload.expiresAt * 1000000

/-- The token makes the decoder raise something else: its signature part is read, and its payload
part has a character outside of ASCII, or it is signed and its payload is not tame. -/
def Escapes (platform : TokenPlatform) (token secret : String) (now : Moment) : Prop :=
  ∃ encodedPayload encodedSignature supplied,
    token.toList.splitOn '.' = [encodedPayload, encodedSignature] ∧
      Base64.decode encodedSignature = some supplied ∧
      ((∃ char ∈ encodedPayload, 128 ≤ char.toNat) ∨
        supplied = platform.signature secret encodedPayload ∧
          (Untamed platform encodedPayload ∨ Endures platform encodedPayload now))

theorem validAt_expires {payload : Payload} {now : Moment} {subject : String}
    (valid : payload.validAt now = some subject) : seconds now.micros < payload.expiresAt := by
  unfold Payload.validAt at valid
  dsimp only at valid
  split at valid
  · next checks => exact checks.2.2.2.1
  · cases valid

/-- A time lies less than a second from its whole seconds, which lie between it and the epoch. -/
theorem seconds_near (micros : Int) :
    micros < (seconds micros + 1) * 1000000 ∧
      (0 ≤ micros → 0 ≤ seconds micros ∧ seconds micros * 1000000 ≤ micros) ∧
      (micros ≤ 0 → seconds micros ≤ 0 ∧ micros ≤ seconds micros * 1000000) := by
  unfold seconds
  rcases Int.le_total 0 micros with after | before
  · rw [Int.tdiv_eq_ediv_of_nonneg after]
    omega
  · obtain ⟨opposite, rfl⟩ : ∃ opposite, micros = -opposite := ⟨-micros, (neg_neg micros).symm⟩
    rw [Int.neg_tdiv, Int.tdiv_eq_ediv_of_nonneg (by omega)]
    omega

theorem seconds_mono {earlier later : Int} (order : earlier ≤ later) :
    seconds earlier ≤ seconds later := by
  unfold seconds
  exact Int.tdiv_le_tdiv (by decide) order

/-- An expiry behind a date is not before the first one. -/
theorem guarded_fromTimestamp {subject : String} {expiresAt : Int} {now : Moment}
    (later : seconds now.micros < expiresAt) :
    Guarded (fromTimestamp subject expiresAt) ↔ ¬ behindMoments ≤ expiresAt * 1000000 := by
  have least := now.least
  have near := (seconds_near now.micros).1
  unfold fromTimestamp
  unfold firstMoment at least ⊢
  by_cases early : expiresAt * 1000000 < behindMoments
  · rw [if_pos ⟨by omega, early⟩]
    exact iff_of_true (guarded_ok _) (not_le.mpr early)
  · rw [if_neg fun both => early both.2]
    refine iff_of_false (fun guarded => ?_) fun not => not (not_lt.mp early)
    obtain ⟨_, same⟩ := guarded_error.mp guarded
    cases same

theorem guarded_encodeAscii (chars : List Char) :
    Guarded (encodeAscii chars) ↔ ¬ ∃ char ∈ chars, 128 ≤ char.toNat := by
  unfold encodeAscii
  by_cases ascii : (chars.all fun char => char.toNat < 128) = true
  · rw [if_pos ascii]
    refine iff_of_true (guarded_ok _) ?_
    rintro ⟨char, member, other⟩
    exact absurd (of_decide_eq_true (List.all_eq_true.mp ascii char member)) (not_lt.mpr other)
  · rw [if_neg ascii]
    refine iff_of_false (fun guarded => ?_) fun none => ascii (List.all_eq_true.mpr fun char member => ?_)
    · obtain ⟨_, same⟩ := guarded_error.mp guarded
      cases same
    · exact decide_eq_true (not_le.mp fun other => none ⟨char, member, other⟩)

theorem encodeAscii_eq_ok {chars : List Char} {bytes : List UInt8} :
    encodeAscii chars = .ok bytes ↔ (¬ ∃ char ∈ chars, 128 ≤ char.toNat) ∧ bytesOf chars = bytes := by
  unfold encodeAscii
  by_cases ascii : (chars.all fun char => char.toNat < 128) = true
  · rw [if_pos ascii, Except.ok.injEq]
    refine (and_iff_right ?_).symm
    rintro ⟨char, member, other⟩
    exact absurd (of_decide_eq_true (List.all_eq_true.mp ascii char member)) (not_lt.mpr other)
  · rw [if_neg ascii]
    refine iff_of_false (fun same => nomatch same) fun ⟨absent, _⟩ => ascii ?_
    exact List.all_eq_true.mpr fun char member =>
      decide_eq_true (not_le.mp fun other => absent ⟨char, member, other⟩)

theorem guarded_require (condition : Prop) [Decidable condition] (text : String) :
    Guarded (require condition (.identityTokenError text)) := by
  by_cases holds : condition
  · rw [require, if_pos holds]
    exact guarded_ok _
  · rw [require, if_neg holds]
    exact guarded_error.mpr ⟨text, rfl⟩

theorem guarded_expect {Value : Type} (found : Option Value) (text : String) :
    Guarded (expect found (.identityTokenError text)) := by
  cases found with
  | none => exact guarded_error.mpr ⟨text, rfl⟩
  | some value => exact guarded_ok value

/-- The decoder raises its own error or none, except where the token escapes its guard. -/
theorem guarded_decode {token secret : String} {now : Moment} (valid : 32 ≤ secret.length) :
    Guarded (decodeIdentityToken platform token secret now) ↔
      ¬ Escapes platform token secret now := by
  have malformed : Guarded (.error (.identityTokenError "身份令牌格式无效") :
      Except Raised IdentityClaims) := guarded_error.mpr ⟨_, rfl⟩
  unfold decodeIdentityToken Escapes
  rw [if_neg (not_lt.mpr valid)]
  rcases token.toList.splitOn '.' with _ | ⟨encodedPayload, _ | ⟨encodedSignature, _ | ⟨more, rest⟩⟩⟩
  · exact iff_of_true malformed (by rintro ⟨_, _, _, ⟨⟩, -⟩)
  · exact iff_of_true malformed (by rintro ⟨_, _, _, ⟨⟩, -⟩)
  · dsimp only
    cases read : Base64.decode encodedSignature with
    | none =>
      refine iff_of_true malformed ?_
      rintro ⟨_, _, supplied, ⟨⟩, same, _⟩
      cases read.symm.trans same
    | some supplied =>
      dsimp only
      simp only [guarded_bind, guarded_encodeAscii, guarded_require, guarded_expect, true_and,
        require_eq_ok, expect_eq_ok, guarded_readPayload]
      constructor
      · rintro ⟨ascii, steps⟩ ⟨_, _, _, ⟨⟩, same, other | ⟨rfl, wild⟩⟩
        · exact ascii other
        · obtain rfl := Option.some.inj (read.symm.trans same)
          obtain ⟨tame, inRange⟩ := steps _ (encodeAscii_eq_ok.mpr ⟨ascii, rfl⟩) () rfl
          rcases wild with untamed | ⟨payload, subject, isPayload, checked, beyond⟩
          · exact tame untamed
          · exact (guarded_fromTimestamp (validAt_expires checked)).mp
              (inRange payload isPayload subject checked) beyond
      · intro stays
        refine ⟨fun other => stays ⟨_, _, supplied, rfl, read, .inl other⟩, ?_⟩
        intro _ _ _ signed
        refine ⟨fun wild => stays ⟨_, _, supplied, rfl, read, .inr ⟨signed, .inl wild⟩⟩, ?_⟩
        intro payload isPayload subject checked
        refine (guarded_fromTimestamp (validAt_expires checked)).mpr fun beyond => stays ?_
        exact ⟨_, _, supplied, rfl, read,
          .inr ⟨signed, .inr ⟨payload, subject, isPayload, checked, beyond⟩⟩⟩
  · exact iff_of_true malformed (by rintro ⟨_, _, _, ⟨⟩, -⟩)

/-! ### What is proved by a token -/

/-- A decoded token has a signature that is right, and a payload that is valid at the time. -/
structure Backs (platform : TokenPlatform) (token secret : String) (now : Moment)
    (claims : IdentityClaims) : Prop where
  parts : ∃ encodedPayload encodedSignature payload,
    token.toList.splitOn '.' = [encodedPayload, encodedSignature] ∧
      Base64.decode encodedSignature = some (platform.signature secret encodedPayload) ∧
      readPayload platform encodedPayload = .ok payload ∧
      isUserKind payload.kind = true ∧ isOne payload.version = true ∧
      subjectOf payload.subject = some claims.subject ∧ payload.expiresAt = claims.expiresAt ∧
      payload.issuedAt ≤ seconds now.micros + 60 ∧
      (0 ≤ now.micros → payload.issuedAt * 1000000 ≤ now.micros + 60000000) ∧
      payload.issuedAt < claims.expiresAt
  expires : now.micros < claims.expiresAt * 1000000

theorem decode_eq_ok {token secret : String} {now : Moment} {claims : IdentityClaims} :
    decodeIdentityToken platform token secret now = .ok claims ↔
      32 ≤ secret.length ∧ ∃ encodedPayload encodedSignature payload,
        token.toList.splitOn '.' = [encodedPayload, encodedSignature] ∧
          Base64.decode encodedSignature = some (platform.signature secret encodedPayload) ∧
          (¬ ∃ char ∈ encodedPayload, 128 ≤ char.toNat) ∧
          readPayload platform encodedPayload = .ok payload ∧
          ∃ subject, payload.validAt now = some subject ∧
            fromTimestamp subject payload.expiresAt = .ok claims := by
  unfold decodeIdentityToken
  by_cases valid : secret.length < 32
  · rw [if_pos valid]
    exact iff_of_false (by rintro ⟨⟩) fun both => absurd both.1 (not_le.mpr valid)
  · rw [if_neg valid]
    refine Iff.trans ?_ (and_iff_right (not_lt.mp valid)).symm
    rcases token.toList.splitOn '.' with
      _ | ⟨encodedPayload, _ | ⟨encodedSignature, _ | ⟨more, rest⟩⟩⟩
    · exact iff_of_false (by rintro ⟨⟩) (by rintro ⟨_, _, _, ⟨⟩, -⟩)
    · exact iff_of_false (by rintro ⟨⟩) (by rintro ⟨_, _, _, ⟨⟩, -⟩)
    · dsimp only
      cases read : Base64.decode encodedSignature with
      | none =>
        refine iff_of_false (by rintro ⟨⟩) ?_
        rintro ⟨_, _, payload, ⟨⟩, same, _⟩
        cases read.symm.trans same
      | some supplied =>
        simp only [bind_eq_ok, require_eq_ok, expect_eq_ok, encodeAscii_eq_ok]
        constructor
        · rintro ⟨_, ⟨ascii, _⟩, _, rfl, payload, isPayload, subject, checked, dated⟩
          exact ⟨_, _, payload, rfl, read, ascii, isPayload, subject, checked, dated⟩
        · rintro ⟨_, _, payload, ⟨⟩, same, ascii, isPayload, subject, checked, dated⟩
          obtain rfl := Option.some.inj (read.symm.trans same)
          exact ⟨_, ⟨ascii, rfl⟩, (), rfl, payload, isPayload, subject, checked, dated⟩
    · exact iff_of_false (by rintro ⟨⟩) (by rintro ⟨_, _, _, ⟨⟩, -⟩)

theorem fromTimestamp_eq_ok {subject : String} {expiresAt : Int} {claims : IdentityClaims} :
    fromTimestamp subject expiresAt = .ok claims ↔
      (firstMoment ≤ expiresAt * 1000000 ∧ expiresAt * 1000000 < behindMoments) ∧
        ⟨subject, expiresAt⟩ = claims := by
  unfold fromTimestamp
  split
  · next inRange => rw [Except.ok.injEq, and_iff_right inRange]
  · next outside => exact iff_of_false (fun same => nomatch same) fun both => outside both.1

theorem validAt_eq_some {payload : Payload} {now : Moment} {subject : String} :
    payload.validAt now = some subject ↔
      (isUserKind payload.kind = true ∧ isOne payload.version = true ∧
        payload.issuedAt ≤ seconds now.micros + 60 ∧ seconds now.micros < payload.expiresAt ∧
        payload.issuedAt < payload.expiresAt) ∧ subjectOf payload.subject = some subject := by
  unfold Payload.validAt
  dsimp only
  split
  · next checks => exact (and_iff_right checks).symm
  · next unchecked => exact iff_of_false (fun same => nomatch same) fun both => unchecked both.1

/-- Only what the issuer signed is decoded, and only while it is valid. -/
theorem backs_of_decode {token secret : String} {now : Moment} {claims : IdentityClaims}
    (decoded : decodeIdentityToken platform token secret now = .ok claims) :
    Backs platform token secret now claims := by
  obtain ⟨_, encodedPayload, encodedSignature, payload, split, signed, _, isPayload, subject,
    checked, dated⟩ := decode_eq_ok.mp decoded
  obtain ⟨⟨kind, version, issued, unexpired, order⟩, isSubject⟩ := validAt_eq_some.mp checked
  obtain ⟨_, rfl⟩ := fromTimestamp_eq_ok.mp dated
  obtain ⟨near, after, _⟩ := seconds_near now.micros
  refine ⟨⟨_, _, payload, split, signed, isPayload, kind, version, isSubject, rfl, issued, ?_,
    order⟩, ?_⟩
  · intro sinceEpoch
    obtain ⟨_, below⟩ := after sinceEpoch
    omega
  · dsimp only
    omega

/-! ### Tokens that were issued -/

theorem encode_ascii (bytes : List UInt8) :
    ¬ ∃ char ∈ Base64.encode bytes, 128 ≤ char.toNat := fun ⟨char, member, other⟩ =>
  absurd (Base64.encode_plain bytes char member).1 (not_lt.mpr other)

theorem splitOn_parts (one two : List UInt8) :
    (Base64.encode one ++ '.' :: Base64.encode two).splitOn '.' =
      [Base64.encode one, Base64.encode two] := by
  have plain (bytes : List UInt8) : '.' ∉ Base64.encode bytes := fun member =>
    (Base64.encode_plain bytes '.' member).2.2 rfl
  rw [List.splitOn_append_cons_self_of_not_mem (plain one), List.splitOn_eq_singleton (plain two)]

variable {subject secret token : String} {lifetime : Int} {issued now : Moment}

theorem create_eq_ok :
    createIdentityToken platform subject secret lifetime issued = .ok token ↔
      (subject ≠ "" ∧ subject.length ≤ 64) ∧ 32 ≤ secret.length ∧ 0 < lifetime ∧
        issued.micros + lifetime < behindMoments ∧
        let encoded := Base64.encode (bytesOf (payloadText (seconds (issued.micros + lifetime))
          (seconds issued.micros) subject))
        .ofList (encoded ++ '.' :: Base64.encode (platform.signature secret encoded)) = token := by
  unfold createIdentityToken
  by_cases named : subject = "" ∨ 64 < subject.length
  · rw [if_pos named]
    refine iff_of_false (fun same => nomatch same) fun ⟨⟨nonempty, short⟩, _⟩ => ?_
    exact named.elim nonempty (not_lt.mpr short)
  rw [if_neg named]
  obtain ⟨nonempty, short⟩ := not_or.mp named
  refine Iff.trans ?_ (and_iff_right ⟨nonempty, not_lt.mp short⟩).symm
  by_cases few : secret.length < 32
  · rw [if_pos few]
    exact iff_of_false (fun same => nomatch same) fun both => absurd both.1 (not_le.mpr few)
  rw [if_neg few]
  refine Iff.trans ?_ (and_iff_right (not_lt.mp few)).symm
  by_cases empty : lifetime ≤ 0
  · rw [if_pos empty]
    exact iff_of_false (fun same => nomatch same) fun both => absurd both.1 (not_lt.mpr empty)
  rw [if_neg empty]
  refine Iff.trans ?_ (and_iff_right (not_le.mp empty)).symm
  by_cases beyond : behindMoments ≤ issued.micros + lifetime
  · rw [if_pos beyond]
    exact iff_of_false (fun same => nomatch same) fun both => absurd both.1 (not_lt.mpr beyond)
  rw [if_neg beyond]
  refine Iff.trans ?_ (and_iff_right (not_le.mp beyond)).symm
  exact ⟨fun same => Except.ok.inj same, fun same => congrArg Except.ok same⟩

/-- A token that was issued is decoded up to the second of its expiry. -/
theorem decode_create
    (created : createIdentityToken platform subject secret lifetime issued = .ok token)
    (reads : platform.Reads (seconds (issued.micros + lifetime)) (seconds issued.micros) subject)
    (later : issued.micros ≤ now.micros) :
    decodeIdentityToken platform token secret now =
        .ok ⟨subject, seconds (issued.micros + lifetime)⟩ ↔
      seconds now.micros < seconds (issued.micros + lifetime) := by
  obtain ⟨⟨named, short⟩, valid, positive, inRange, rfl⟩ := create_eq_ok.mp created
  generalize expires : seconds (issued.micros + lifetime) = expiresAt at reads ⊢
  have isPayload : readPayload platform (Base64.encode (bytesOf (payloadText expiresAt
      (seconds issued.micros) subject))) = .ok
        ⟨.text subject, .text "user", seconds issued.micros, expiresAt, .integer 1⟩ := by
    unfold readPayload
    rw [Base64.decode_encode]
    dsimp only
    rw [reads]
    rfl
  have isSubject : subjectOf (.text subject) = some subject := if_pos ⟨named, short⟩
  constructor
  · intro decoded
    obtain ⟨_, encodedPayload, encodedSignature, payload, split, _, _, read, found, checked,
      dated⟩ := decode_eq_ok.mp decoded
    obtain ⟨_, same⟩ := fromTimestamp_eq_ok.mp dated
    obtain ⟨_, rfl⟩ := IdentityClaims.mk.inj same
    exact validAt_expires checked
  · intro unexpired
    have order := seconds_mono later
    have near := seconds_near (issued.micros + lifetime)
    rw [expires] at near
    refine decode_eq_ok.mpr ⟨valid, _, _, _, ?_, Base64.decode_encode _, encode_ascii _, isPayload,
      subject, validAt_eq_some.mpr ⟨⟨rfl, rfl, ?_, unexpired, ?_⟩, isSubject⟩,
      fromTimestamp_eq_ok.mpr ⟨?_, rfl⟩⟩
    · rw [String.toList_ofList]
      exact splitOn_parts _ _
    · dsimp only
      omega
    · dsimp only
      omega
    · have least := issued.least
      dsimp only
      unfold firstMoment at least ⊢
      unfold behindMoments at inRange ⊢
      rcases Int.le_total 0 (issued.micros + lifetime) with after | before
      · obtain ⟨_, _⟩ := near.2.1 after
        omega
      · obtain ⟨_, _⟩ := near.2.2 before
        omega

/-- The decoder raises its own error or none, except where a token escapes its guard; what it decodes
is signed and valid; and a token that was issued is decoded up to the second of its expiry. -/
theorem identity_tokens (platform : TokenPlatform) :
    (∀ token secret now, 32 ≤ secret.length →
      (Guarded (decodeIdentityToken platform token secret now) ↔
        ¬ Escapes platform token secret now)) ∧
    (∀ token secret now claims, decodeIdentityToken platform token secret now = .ok claims →
      Backs platform token secret now claims) ∧
    ∀ subject secret lifetime issued token,
      createIdentityToken platform subject secret lifetime issued = .ok token →
      platform.Reads (seconds (issued.micros + lifetime)) (seconds issued.micros) subject →
      ∀ now, issued.micros ≤ now.micros →
        (decodeIdentityToken platform token secret now =
            .ok ⟨subject, seconds (issued.micros + lifetime)⟩ ↔
          seconds now.micros < seconds (issued.micros + lifetime)) :=
  ⟨fun _ _ _ valid => guarded_decode valid, fun _ _ _ _ decoded => backs_of_decode decoded,
    fun _ _ _ _ _ created reads _ later => decode_create created reads later⟩

/-- A platform for one user, whose tokens are all issued at the same time. -/
def plainTokens : TokenPlatform where
  hmac key message := key.take 1 ++ message.take 1
  loads _ := .ok (payloadValue 1030 1000 "u")

def plainSecret : String := .ofList (.replicate 32 'a')

theorem plainSecret_valid : 32 ≤ plainSecret.length := by
  unfold plainSecret
  rw [String.length_ofList, List.length_replicate]

/-- When the token is issued, and the last moment at which it is decoded. -/
def plainIssue : Moment := { micros := 1000000000 }

def plainLast : Moment := { micros := 1029999999 }

theorem identity_tokens_plainTokens : ∃ token,
    createIdentityToken plainTokens "u" plainSecret 30500000 plainIssue = .ok token ∧
    decodeIdentityToken plainTokens token plainSecret plainLast = .ok ⟨"u", 1030⟩ ∧
    Backs plainTokens token plainSecret plainLast ⟨"u", 1030⟩ ∧
    ¬ Escapes plainTokens token plainSecret plainLast := by
  obtain ⟨guards, backs, issues⟩ := identity_tokens plainTokens
  have inRange : plainIssue.micros + 30500000 < behindMoments := by decide
  obtain ⟨token, created⟩ : ∃ token,
      createIdentityToken plainTokens "u" plainSecret 30500000 plainIssue = .ok token :=
    ⟨_, create_eq_ok.mpr ⟨⟨by decide, by decide⟩, plainSecret_valid, by decide, inRange, rfl⟩⟩
  have decoded := (issues "u" plainSecret 30500000 plainIssue _ created rfl plainLast
    (by decide)).mpr (by decide)
  refine ⟨token, created, decoded, backs _ _ _ _ decoded, (guards _ _ _ plainSecret_valid).mp ?_⟩
  rw [decoded]
  exact guarded_ok _

/-- A character outside of ASCII in the payload part is not caught. -/
theorem identity_tokens_escape : ¬ ∀ token secret now, 32 ≤ secret.length →
    Guarded (decodeIdentityToken plainTokens token secret now) := by
  intro guards
  have escapes : Escapes plainTokens "é.AAAA" plainSecret ⟨0, by decide, by decide⟩ := by
    have token : "é.AAAA".toList = ['é', '.', 'A', 'A', 'A', 'A'] := String.toList_ofList
    refine ⟨['é'], ['A', 'A', 'A', 'A'], [0, 0, 0], ?_, by decide, .inl ⟨'é', ?_, by decide⟩⟩
    · rw [token]
      decide
    · exact List.mem_singleton.mpr rfl
  exact (guarded_decode plainSecret_valid).mp (guards _ _ _ plainSecret_valid) escapes

end

end Negotiation.Identity
