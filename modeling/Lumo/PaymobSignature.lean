import Lumo.FallibleFolds
import Lumo.JsonReading

/-! # Signatures of the Paymob callbacks

Two callbacks are signed with one secret, each over the values of its own fields, written one after
the other. Reading the body and the digest are parameters. -/
namespace PaymobSignature

open JsonText FallibleFolds

variable {ν : Type}

structure Numbers (ν : Type) where
  isFinite : ν → Bool
  write : ν → String
  injective : ∀ m n, isFinite m = true → isFinite n = true → write m = write n → m = n

/-- What the verifiers are built on: `JSON.parse` of the decoded body, which is missing where it
throws, and HMAC-SHA512 under a secret. -/
structure Platform (ν : Type) where
  numbers : Numbers ν
  parse : List UInt8 → Option (Json ν)
  hmac : String → String → List UInt8

def isObject : Json ν → Bool
  | .object _ => true
  | _ => false

/-- A member of an object, where there is one. -/
def member : Json ν → String → Option (Json ν)
  | .object fields, key => (fields.find? fun field => field.1 = key).map Prod.snd
  | _, _ => none

def PAYMOB_HMAC_FIELDS : List String :=
  ["amount_cents", "created_at", "currency", "error_occured", "has_parent_transaction", "obj.id",
    "integration_id", "is_3d_secure", "is_auth", "is_capture", "is_refunded",
    "is_standalone_payment", "is_voided", "order.id", "owner", "pending", "source_data.pan",
    "source_data.sub_type", "source_data.type", "success"]

/-- The value at a path; `obj.id` is the object's own `id`. -/
def resolve (obj : Json ν) (path : String) : Option (Json ν) :=
  let segments := if path = "obj.id" then ["id"]
    else (path.toList.splitOn '.').map String.ofList
  segments.foldlM member obj

section Transactions

variable (platform : Platform ν)

/-- Structured values, `null` and what is missing are not rendered. -/
def render : Json ν → Option String
  | .string s => some s
  | .boolean b => some (if b then "true" else "false")
  | .number n => if platform.numbers.isFinite n then some (platform.numbers.write n) else none
  | _ => none

def signedFields (obj : Json ν) : Option (List String) :=
  PAYMOB_HMAC_FIELDS.mapM fun path => (resolve obj path).bind (render platform)

/-- The values with nothing in between. -/
def concatenated (rendered : List String) : String := rendered.foldr (· ++ ·) ""

def concatenateSignedFields (obj : Json ν) : Option String :=
  (signedFields platform obj).map concatenated

def parseTransaction (payload : List UInt8) : Option (Json ν) :=
  ((platform.parse payload).bind fun parsed => member parsed "obj").filter isObject

def isHexDigit (c : Char) : Bool := c.isDigit || ('a' ≤ c && c ≤ 'f') || ('A' ≤ c && c ≤ 'F')

def hexValue (c : Char) : ℕ :=
  if c.isDigit then c.toNat - 48 else if c.toNat < 97 then c.toNat - 55 else c.toNat - 87

/-- `Buffer.from` of an even number of hexadecimal digits. -/
def fromHex : List Char → List UInt8
  | high :: low :: rest => UInt8.ofNat (16 * hexValue high + hexValue low) :: fromHex rest
  | _ => []

def matchesDigest (secret signature signed : String) : Bool :=
  (signature.toList.length == 128 && signature.toList.all isHexDigit) &&
    fromHex signature.toList == platform.hmac secret signed

def verifyPaymobSignature (payload : List UInt8) (signature secret : String) : Bool :=
  if secret.length = 0 then false
  else match parseTransaction platform payload with
    | none => false
    | some obj =>
      match concatenateSignedFields platform obj with
      | none => false
      | some signed => matchesDigest platform secret signature signed

structure SignedTransaction (ν : Type) where
  transactionId : String
  orderId : String
  amountCents : ν
  currency : String
  success : Bool
  pending : Bool
  isAuth : Bool
  isCapture : Bool
  isVoided : Bool
  isRefunded : Bool
  hasParentTransaction : Bool
  errorOccured : Bool
  deriving DecidableEq

/-- A string, or `String` of a number. -/
def idText : Json ν → Option String
  | .string s => some s
  | .number n => some (platform.numbers.write n)
  | _ => none

def asBoolean : Json ν → Option Bool
  | .boolean b => some b
  | _ => none

def asNumber : Json ν → Option ν
  | .number n => some n
  | _ => none

def asString : Json ν → Option String
  | .string s => some s
  | _ => none

def extractSignedTransaction (payload : List UInt8) : Option (SignedTransaction ν) := do
  let obj ← parseTransaction platform payload
  let transactionId ← (resolve obj "obj.id").bind (idText platform)
  let orderId ← (resolve obj "order.id").bind (idText platform)
  let amountCents ← (resolve obj "amount_cents").bind asNumber
  let currency ← (resolve obj "currency").bind asString
  let success ← (resolve obj "success").bind asBoolean
  let pending ← (resolve obj "pending").bind asBoolean
  let isAuth ← (resolve obj "is_auth").bind asBoolean
  let isCapture ← (resolve obj "is_capture").bind asBoolean
  let isVoided ← (resolve obj "is_voided").bind asBoolean
  let isRefunded ← (resolve obj "is_refunded").bind asBoolean
  let hasParentTransaction ← (resolve obj "has_parent_transaction").bind asBoolean
  let errorOccured ← (resolve obj "error_occured").bind asBoolean
  return ⟨transactionId, orderId, amountCents, currency, success, pending, isAuth, isCapture,
    isVoided, isRefunded, hasParentTransaction, errorOccured⟩

end Transactions

def PAYMOB_CARD_TOKEN_HMAC_FIELDS : List String :=
  ["card_subtype", "created_at", "email", "id", "masked_pan", "merchant_id", "order_id", "token"]

section CardTokens

variable (platform : Platform ν)

def renderTokenField : Json ν → Option String
  | .boolean _ => none
  | value => render platform value

def tokenField (obj : Json ν) (field : String) : Option String :=
  (member obj field).bind (renderTokenField platform)

def cardTokenFields (obj : Json ν) : Option (List String) :=
  PAYMOB_CARD_TOKEN_HMAC_FIELDS.mapM (tokenField platform obj)

def concatenateCardTokenFields (obj : Json ν) : Option String :=
  (cardTokenFields platform obj).map concatenated

def parseTokenCallback (payload : List UInt8) : Option (Json ν) :=
  (((platform.parse payload).filter fun parsed =>
    ((member parsed "type").bind asString) == some "TOKEN").bind
      fun parsed => member parsed "obj").filter isObject

def verifyPaymobCardTokenSignature (payload : List UInt8) (signature secret : String) : Bool :=
  if secret.length = 0 then false
  else match parseTokenCallback platform payload with
    | none => false
    | some obj =>
      match concatenateCardTokenFields platform obj with
      | none => false
      | some signed => matchesDigest platform secret signature signed

structure SignedCardToken where
  tokenId : String
  token : String
  orderId : String
  maskedPan : String
  cardSubtype : String
  deriving DecidableEq

def extractSignedCardToken (payload : List UInt8) : Option SignedCardToken := do
  let obj ← parseTokenCallback platform payload
  let _ ← concatenateCardTokenFields platform obj
  let token ← (tokenField platform obj "token").filter fun token => token.length ≠ 0
  let orderId ← (tokenField platform obj "order_id").filter fun orderId => orderId.length ≠ 0
  let tokenId ← tokenField platform obj "id"
  let maskedPan ← tokenField platform obj "masked_pan"
  let cardSubtype ← tokenField platform obj "card_subtype"
  return ⟨tokenId, token, orderId, maskedPan, cardSubtype⟩

end CardTokens

inductive Verifier where
  | transaction
  | cardToken

inductive Signed (ν : Type) where
  | transaction (signed : SignedTransaction ν)
  | cardToken (signed : SignedCardToken)
  deriving DecidableEq

section Verifiers

variable (platform : Platform ν)

def Verifier.accepts (verifier : Verifier) (payload : List UInt8) (signature secret : String) :
    Bool :=
  match verifier with
  | .transaction => verifyPaymobSignature platform payload signature secret
  | .cardToken => verifyPaymobCardTokenSignature platform payload signature secret

/-- The fields that the verifier signs, as it renders them. -/
def Verifier.fields (verifier : Verifier) (payload : List UInt8) : Option (List String) :=
  match verifier with
  | .transaction => (parseTransaction platform payload).bind (signedFields platform)
  | .cardToken => (parseTokenCallback platform payload).bind (cardTokenFields platform)

/-- What is acted on once the verifier has accepted. -/
def Verifier.extract (verifier : Verifier) (payload : List UInt8) : Option (Signed ν) :=
  match verifier with
  | .transaction => (extractSignedTransaction platform payload).map .transaction
  | .cardToken => (extractSignedCardToken platform payload).map .cardToken

end Verifiers

section Binding

variable {platform : Platform ν} {verifier verifier' : Verifier} {p q : List UInt8}
  {signature secret : String}

theorem matchesDigest_eq {signed : String}
    (h : matchesDigest platform secret signature signed = true) :
    platform.hmac secret signed = fromHex signature.toList := by
  rw [matchesDigest, Bool.and_eq_true, beq_iff_eq] at h
  exact h.2.symm

variable {β : Type} {rendered : List String}

theorem accepts_iff : verifier.accepts platform p signature secret = true ↔ secret.length ≠ 0 ∧
    ∃ rendered, verifier.fields platform p = some rendered ∧
      matchesDigest platform secret signature (concatenated rendered) = true := by
  cases verifier with
  | transaction =>
    rw [Verifier.accepts, verifyPaymobSignature, Verifier.fields]
    cases parseTransaction platform p with
    | none => simp
    | some obj =>
      simp only [concatenateSignedFields, Option.bind_some]
      cases signedFields platform obj <;> simp
  | cardToken =>
    rw [Verifier.accepts, verifyPaymobCardTokenSignature, Verifier.fields]
    cases parseTokenCallback platform p with
    | none => simp
    | some obj =>
      simp only [concatenateCardTokenFields, Option.bind_some]
      cases cardTokenFields platform obj <;> simp

theorem concatenated_unique {l l' : List String} (hlengths : l.map String.length = l'.map String.length)
    (h : concatenated l = concatenated l') : l = l' := by
  induction l generalizing l' with
  | nil =>
    cases l' with
    | nil => rfl
    | cons s rest => cases hlengths
  | cons s rest ih =>
    cases l' with
    | nil => cases hlengths
    | cons s' rest' =>
      obtain ⟨hlength, hrest⟩ := List.cons.inj hlengths
      have hchars := congrArg String.toList h
      simp only [concatenated, List.foldr_cons, String.toList_append] at hchars
      obtain ⟨hs, htail⟩ := List.append_inj hchars (by simpa only [String.length_toList] using hlength)
      rw [String.toList_inj.mp hs, ih hrest (String.toList_inj.mp htail)]

theorem mapM_eq {α : Type} {f g : α → Option β} {l : List α} {values : List β}
    (hf : l.mapM f = some values) (hg : l.mapM g = some values) :
    ∀ a ∈ l, ∃ value, f a = some value ∧ g a = some value := by
  intro a ha
  obtain ⟨value, -, hvalue⟩ := mapM_mem hf ha
  have hsame := List.map_inj_left.mp ((map_of_mapM hf).trans (map_of_mapM hg).symm) a ha
  exact ⟨value, hvalue, hsame ▸ hvalue⟩

variable {obj obj' : Json ν}

def Determined {β : Type} (platform : Platform ν) (read : Json ν → Option β) : Prop :=
  ∀ v v' text a b, render platform v = some text → render platform v' = some text →
    read v = some a → read v' = some b → a = b

theorem idText_determined : Determined platform (idText platform) := by
  intro v v' text a b hv hv' ha hb
  have hidText : ∀ {value : Json ν} {c}, render platform value = some text →
      idText platform value = some c → c = text := by
    intro value c hrendered hread
    cases value with
    | string s =>
      cases hread
      exact Option.some.inj hrendered
    | number n =>
      cases hread
      simp only [render] at hrendered
      split at hrendered
      · exact Option.some.inj hrendered
      · cases hrendered
    | _ => cases hread
  rw [hidText hv ha, hidText hv' hb]

theorem asString_determined : Determined platform asString := by
  intro v v' text a b hv hv' ha hb
  cases v with
  | string s =>
    cases v' with
    | string s' =>
      cases ha
      cases hb
      exact (Option.some.inj hv).trans (Option.some.inj hv').symm
    | _ => cases hb
  | _ => cases ha

theorem asBoolean_determined : Determined platform asBoolean := by
  intro v v' text a b hv hv' ha hb
  cases v with
  | boolean c =>
    cases v' with
    | boolean c' =>
      cases ha
      cases hb
      have htexts := (Option.some.inj hv).trans (Option.some.inj hv').symm
      cases a with
      | true =>
        cases b with
        | true => rfl
        | false => exact absurd htexts (by decide)
      | false =>
        cases b with
        | true => exact absurd htexts (by decide)
        | false => rfl
    | _ => cases hb
  | _ => cases ha

theorem asNumber_determined : Determined platform asNumber := by
  intro v v' text a b hv hv' ha hb
  cases v with
  | number n =>
    cases v' with
    | number n' =>
      cases ha
      cases hb
      simp only [render] at hv hv'
      split at hv
      · rename_i hfinite
        split at hv'
        · rename_i hfinite'
          exact platform.numbers.injective _ _ hfinite hfinite'
            ((Option.some.inj hv).trans (Option.some.inj hv').symm)
        · cases hv'
      · cases hv
    | _ => cases hb
  | _ => cases ha

/-- Where both answer, they answer the same. -/
def Alike {β : Type} (x y : Option β) : Prop := ∀ a b, x = some a → y = some b → a = b

theorem Alike.refl (x : Option β) : Alike x x := by
  rintro a b ha hb
  exact Option.some.inj (ha.symm.trans hb)

theorem Alike.bind {γ : Type} {x y : Option β} {f g : β → Option γ} (h : Alike x y)
    (hf : ∀ a, Alike (f a) (g a)) : Alike (x >>= f) (y >>= g) := by
  intro c d hc hd
  obtain ⟨a, ha, hc⟩ := Option.bind_eq_some_iff.mp hc
  obtain ⟨b, hb, hd⟩ := Option.bind_eq_some_iff.mp hd
  rw [h a b ha hb] at hc
  exact hf b c d hc hd

theorem Alike.some_bind {α γ : Type} {a b : α} {f g : α → Option γ} (h : Alike (f a) (g b)) :
    Alike (some a >>= f) (some b >>= g) := h

theorem field_alike {read : Json ν → Option β} (hread : Determined platform read)
    (hp : signedFields platform obj = some rendered)
    (hq : signedFields platform obj' = some rendered) {path : String}
    (hpath : path ∈ PAYMOB_HMAC_FIELDS) :
    Alike ((resolve obj path).bind read) ((resolve obj' path).bind read) := by
  intro a b ha hb
  obtain ⟨text, htext, htext'⟩ := mapM_eq hp hq path hpath
  obtain ⟨v, hv, hva⟩ := Option.bind_eq_some_iff.mp ha
  obtain ⟨v', hv', hvb⟩ := Option.bind_eq_some_iff.mp hb
  rw [hv] at htext
  rw [hv'] at htext'
  exact hread v v' text a b htext htext' hva hvb

theorem extractSignedTransaction_alike (hp : Verifier.transaction.fields platform p = some rendered)
    (hq : Verifier.transaction.fields platform q = some rendered) :
    Alike (extractSignedTransaction platform p) (extractSignedTransaction platform q) := by
  obtain ⟨obj, hobj, hp⟩ := Option.bind_eq_some_iff.mp hp
  obtain ⟨obj', hobj', hq⟩ := Option.bind_eq_some_iff.mp hq
  rw [extractSignedTransaction, extractSignedTransaction, hobj, hobj']
  have hbool {path : String} (hpath : path ∈ PAYMOB_HMAC_FIELDS) :=
    field_alike asBoolean_determined hp hq hpath
  apply Alike.some_bind
  refine .bind (field_alike idText_determined hp hq (by decide)) fun _ => ?_
  refine .bind (field_alike idText_determined hp hq (by decide)) fun _ => ?_
  refine .bind (field_alike asNumber_determined hp hq (by decide)) fun _ => ?_
  refine .bind (field_alike asString_determined hp hq (by decide)) fun _ => ?_
  iterate 8 refine .bind (hbool (by decide)) fun _ => ?_
  exact .refl _

theorem extractSignedCardToken_alike (hp : Verifier.cardToken.fields platform p = some rendered)
    (hq : Verifier.cardToken.fields platform q = some rendered) :
    Alike (extractSignedCardToken platform p) (extractSignedCardToken platform q) := by
  obtain ⟨obj, hobj, hp⟩ := Option.bind_eq_some_iff.mp hp
  obtain ⟨obj', hobj', hq⟩ := Option.bind_eq_some_iff.mp hq
  have hsame : ∀ field ∈ PAYMOB_CARD_TOKEN_HMAC_FIELDS,
      tokenField platform obj field = tokenField platform obj' field := by
    intro field hfield
    obtain ⟨text, htext, htext'⟩ := mapM_eq hp hq field hfield
    rw [htext, htext']
  have hjoined : concatenateCardTokenFields platform obj =
      concatenateCardTokenFields platform obj' := by
    rw [concatenateCardTokenFields, concatenateCardTokenFields, hp, hq]
  have hextract : extractSignedCardToken platform p = extractSignedCardToken platform q := by
    simp only [extractSignedCardToken, hobj, hobj', Option.bind_eq_bind, Option.bind_some, hjoined,
      hsame "token" (by decide), hsame "order_id" (by decide), hsame "id" (by decide),
      hsame "masked_pan" (by decide), hsame "card_subtype" (by decide)]
  rw [hextract]
  exact .refl _

theorem extract_alike (hp : verifier.fields platform p = some rendered)
    (hq : verifier.fields platform q = some rendered) :
    Alike (verifier.extract platform p) (verifier.extract platform q) := by
  rintro a b ha hb
  cases verifier with
  | transaction =>
    obtain ⟨signed, hsigned, rfl⟩ := Option.map_eq_some_iff.mp ha
    obtain ⟨signed', hsigned', rfl⟩ := Option.map_eq_some_iff.mp hb
    rw [extractSignedTransaction_alike hp hq signed signed' hsigned hsigned']
  | cardToken =>
    obtain ⟨signed, hsigned, rfl⟩ := Option.map_eq_some_iff.mp ha
    obtain ⟨signed', hsigned', rfl⟩ := Option.map_eq_some_iff.mp hb
    rw [extractSignedCardToken_alike hp hq signed signed' hsigned hsigned']

/-- A signature binds the text that was signed, whichever verifier accepts it, and the values in
it as far as their lengths are known: it does not say where one value ends and the next begins. -/
theorem accepted_signed_text (hinjective : ∀ secret, Function.Injective (platform.hmac secret))
    (hp : verifier.accepts platform p signature secret = true)
    (hq : verifier'.accepts platform q signature secret = true) :
    ∃ rendered rendered', verifier.fields platform p = some rendered ∧
      verifier'.fields platform q = some rendered' ∧
      concatenated rendered = concatenated rendered' ∧
      (verifier = verifier' → rendered.map String.length = rendered'.map String.length →
        Alike (verifier.extract platform p) (verifier'.extract platform q)) := by
  obtain ⟨-, rendered, hfields, hdigest⟩ := accepts_iff.mp hp
  obtain ⟨-, rendered', hfields', hdigest'⟩ := accepts_iff.mp hq
  have htext : concatenated rendered = concatenated rendered' :=
    hinjective secret ((matchesDigest_eq hdigest).trans (matchesDigest_eq hdigest').symm)
  refine ⟨rendered, rendered', hfields, hfields', htext, ?_⟩
  rintro rfl hlengths
  have hsame := concatenated_unique hlengths htext
  subst hsame
  exact extract_alike hfields hfields'

end Binding

/-! A payment of 1.00 that reads as one of 10.02. -/

/-- A transaction callback; nothing but the amount and the time varies. -/
def sampleBody (amountCents : ℤ) (createdAt : String) : Json ℤ :=
  .object [("type", .string "TRANSACTION"), ("obj", .object [
    ("id", .number 192036465), ("pending", .boolean false), ("amount_cents", .number amountCents),
    ("success", .boolean true), ("is_auth", .boolean false), ("is_capture", .boolean false),
    ("is_standalone_payment", .boolean true), ("is_voided", .boolean false),
    ("is_refunded", .boolean false), ("is_3d_secure", .boolean true),
    ("integration_id", .number 4097558), ("has_parent_transaction", .boolean false),
    ("order", .object [("id", .number 217503754)]), ("created_at", .string createdAt),
    ("currency", .string "EGP"), ("error_occured", .boolean false), ("owner", .number 302852),
    ("source_data", .object [("pan", .string "2346"), ("type", .string "card"),
      ("sub_type", .string "MasterCard")])])]

def genuine : Json ℤ := sampleBody 100 "2024-06-13T11:33:44.592345"

def forged : Json ℤ := sampleBody 1002 "024-06-13T11:33:44.592345"

/-- The bytes of the body. -/
def payloadOf (body : Json ℤ) : List UInt8 :=
  (String.ofList (stringify wholeNumerals body)).toUTF8.data.toList

def sampleNumbers : Numbers ℤ where
  isFinite _ := true
  write n := String.ofList (writeInt n)
  injective m n _ _ h := by
    rw [String.ofList_inj] at h
    exact wholeNumerals.injective m n h

def sampleRest : List String :=
  ["EGP", "false", "false", "192036465", "4097558", "true", "false", "false", "false", "true",
    "false", "217503754", "302852", "false", "2346", "MasterCard", "card", "true"]

def sampleText : String := concatenated ("100" :: "2024-06-13T11:33:44.592345" :: sampleRest)

def sampleHmac (_ text : String) : List UInt8 :=
  if text = sampleText then List.replicate 64 0 else 1 :: text.toUTF8.data.toList

def samplePlatform : Platform ℤ where
  numbers := sampleNumbers
  parse payload :=
    if payload = payloadOf genuine then some genuine
    else if payload = payloadOf forged then some forged
    else none
  hmac := sampleHmac

def sampleSignature : String := String.ofList (List.replicate 128 '0')

theorem toBytes_injective {a b : String} (h : a.toUTF8.data.toList = b.toUTF8.data.toList) :
    a = b :=
  String.toByteArray_inj.mp (ByteArray.ext (Array.toList_inj.mp h))

theorem sampleHmac_injective (secret : String) : Function.Injective (sampleHmac secret) := by
  intro a b h
  simp only [sampleHmac] at h
  split at h
  · rename_i ha
    split at h
    · rename_i hb
      rw [ha, hb]
    · cases h
  · split at h
    · cases h
    · exact toBytes_injective (List.cons.inj h).2

theorem payloadOf_injective : Function.Injective payloadOf := by
  intro a b h
  exact stringify_injective wholeNumerals (String.ofList_inj.mp (toBytes_injective h))

theorem parse_genuine : samplePlatform.parse (payloadOf genuine) = some genuine := by
  simp only [samplePlatform, if_true]

theorem parse_forged : samplePlatform.parse (payloadOf forged) = some forged := by
  have hne : payloadOf forged ≠ payloadOf genuine := by
    intro h
    have hbody := congrArg (fun body => member body "obj" >>= fun obj => member obj "amount_cents" >>=
      asNumber) (payloadOf_injective h)
    exact absurd hbody (by decide)
  simp only [samplePlatform, hne, if_false, if_true]

theorem genuine_fields : Verifier.transaction.fields samplePlatform (payloadOf genuine) =
    some ("100" :: "2024-06-13T11:33:44.592345" :: sampleRest) := by
  simp only [Verifier.fields, parseTransaction, parse_genuine]
  decide +kernel

theorem forged_fields : Verifier.transaction.fields samplePlatform (payloadOf forged) =
    some ("1002" :: "024-06-13T11:33:44.592345" :: sampleRest) := by
  simp only [Verifier.fields, parseTransaction, parse_forged]
  decide +kernel

theorem forged_text :
    concatenated ("1002" :: "024-06-13T11:33:44.592345" :: sampleRest) = sampleText := by
  have hfront : "1002" ++ "024-06-13T11:33:44.592345" = "100" ++ "2024-06-13T11:33:44.592345" := by
    decide
  simp only [sampleText, concatenated, List.foldr_cons, ← String.append_assoc, hfront]

theorem sampleSignature_matches : matchesDigest samplePlatform "secret" sampleSignature sampleText =
    true := by
  have hdigits : fromHex sampleSignature.toList = List.replicate 64 0 := by decide +kernel
  have hhmac : samplePlatform.hmac "secret" sampleText = List.replicate 64 0 := by
    simp only [samplePlatform, sampleHmac, if_true]
  rw [matchesDigest, hdigits, hhmac]
  decide +kernel

theorem genuine_accepted : Verifier.transaction.accepts samplePlatform (payloadOf genuine)
    sampleSignature "secret" = true :=
  accepts_iff.mpr ⟨by decide, _, genuine_fields, sampleSignature_matches⟩

theorem forged_accepted : Verifier.transaction.accepts samplePlatform (payloadOf forged)
    sampleSignature "secret" = true :=
  accepts_iff.mpr ⟨by decide, _, forged_fields, forged_text ▸ sampleSignature_matches⟩

theorem accepted_signed_text_sample : ∃ rendered rendered',
    Verifier.transaction.fields samplePlatform (payloadOf genuine) = some rendered ∧
      Verifier.transaction.fields samplePlatform (payloadOf forged) = some rendered' ∧
      concatenated rendered = concatenated rendered' ∧
      (Verifier.transaction = Verifier.transaction →
        rendered.map String.length = rendered'.map String.length →
          Alike (Verifier.transaction.extract samplePlatform (payloadOf genuine))
            (Verifier.transaction.extract samplePlatform (payloadOf forged))) :=
  accepted_signed_text sampleHmac_injective genuine_accepted forged_accepted

theorem binding_fails : ¬ ∀ platform : Platform ℤ,
    (∀ secret, Function.Injective (platform.hmac secret)) →
      ∀ (verifier verifier' : Verifier) (p q : List UInt8) (signature secret : String),
        verifier.accepts platform p signature secret = true →
          verifier'.accepts platform q signature secret = true →
            verifier = verifier' ∧
              verifier.extract platform p = verifier'.extract platform q := by
  intro h
  have hextracted := (h samplePlatform sampleHmac_injective _ _ _ _ _ _ genuine_accepted
    forged_accepted).2
  simp only [Verifier.extract, extractSignedTransaction, parseTransaction, parse_genuine,
    parse_forged] at hextracted
  exact absurd hextracted (by decide +kernel)

end PaymobSignature
