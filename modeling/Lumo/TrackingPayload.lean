import Lumo.Builtins
import Lumo.JsonReading

/-! # Payloads and their digests

What a mapping may have built, with what has no place in JSON. -/
namespace Tracking

open Builtins JsonText SharedKernel

variable {ν : Type}

inductive Value (ν : Type) where
  | null
  | boolean (b : Bool)
  | number (n : ν)
  /-- `NaN` and the infinities, by their text. -/
  | nonFinite (text : String)
  | string (s : String)
  | array (items : List (Value ν))
  | object (fields : List (String × Value ν))
  | undefined
  /-- A function, a symbol or a bigint, by its type. -/
  | unsupported (typeOf : String)

abbrev Payload (ν : Type) := List (String × Value ν)

def transportMetadataKeys : List String :=
  ["authorization", "access_token", "accesstoken", "api_secret", "apisecret", "bearer",
    "signature", "hmac", "nonce", "request_id", "requestid", "correlation_id", "correlationid",
    "idempotency_key", "sent_at", "sentat", "request_timestamp", "requesttimestamp"]

def businessTimeKeys : List String :=
  ["event_time", "eventtime", "event_timestamp", "timestamp_micros", "occurred_at"]

def isBusinessKey (text : TextOps) (key : String) : Bool :=
  businessTimeKeys.contains (text.toLowerCase key)

def isTransportKey (text : TextOps) (key : String) : Bool :=
  transportMetadataKeys.contains (text.toLowerCase key)

mutual

def cleanValue (text : TextOps) (path : String) : Value ν → Value ν × List String
  | .object fields =>
    let (payload, stripped) := walk text path fields
    (.object payload, stripped)
  | value => (value, [])

/-- An assignment to `__proto__` makes no key. -/
def walk (text : TextOps) (path : String) : Payload ν → Payload ν × List String
  | [] => ([], [])
  | (key, value) :: rest =>
    let here := if path = "" then key else path ++ "." ++ key
    let (clean, stripped) := walk text path rest
    if !isBusinessKey text key && isTransportKey text key then (clean, here :: stripped)
    else
      let (value, inside) := cleanValue text here value
      (if key = "__proto__" then clean else (key, value) :: clean, inside ++ stripped)

end

structure BusinessPayloadResult (ν : Type) where
  payload : Payload ν
  stripped : List String

def toBusinessPayload (text : TextOps) (payload : Payload ν) : BusinessPayloadResult ν :=
  let (clean, stripped) := walk text "" payload
  ⟨clean, stripped⟩

structure NonCanonicalizableValueError where
  path : String
  detail : String
  deriving DecidableEq

def inKeyOrder {α : Type} (fields : List (String × α)) : List (String × α) :=
  fields.insertionSort fun a b => codeUnits a.1 ≤ codeUnits b.1

def collect {ε α : Type} : List (String × Except ε α) → Except ε (List (String × α))
  | [] => .ok []
  | (key, first) :: rest => do
    let first ← first
    let others ← collect rest
    return (key, first) :: others

mutual

/-- The value that is written, with the keys of every object in order. -/
def canonical (path : String) : Value ν → Except NonCanonicalizableValueError (Json ν)
  | .null => .ok .null
  | .boolean b => .ok (.boolean b)
  | .number n => .ok (.number n)
  | .nonFinite text => .error ⟨path, s!"non-finite number ({text})"⟩
  | .string s => .ok (.string s)
  | .array items => (canonicalItems path 0 items).map .array
  | .object fields => (collect (inKeyOrder (canonicalFields path fields))).map .object
  | .undefined => .error ⟨path, "unsupported type undefined"⟩
  | .unsupported typeOf => .error ⟨path, s!"unsupported type {typeOf}"⟩

def canonicalItems (path : String) (index : ℕ) :
    List (Value ν) → Except NonCanonicalizableValueError (List (Json ν))
  | [] => .ok []
  | .undefined :: rest => (canonicalItems path (index + 1) rest).map (.null :: ·)
  | item :: rest => do
    let first ← canonical (path ++ "[" ++ toString index ++ "]") item
    let others ← canonicalItems path (index + 1) rest
    return first :: others

def canonicalFields (path : String) :
    Payload ν → List (String × Except NonCanonicalizableValueError (Json ν))
  | [] => []
  | (_, .undefined) :: rest => canonicalFields path rest
  | (key, value) :: rest =>
    (key, canonical (path ++ "." ++ key) value) :: canonicalFields path rest

end

/-- How numbers are written, and the hash, which may throw. -/
structure HashPort (ν : Type) where
  numerals : Numerals ν
  sha256Hex : String → Option String

def canonicalize (hasher : HashPort ν) (value : Value ν) :
    Except NonCanonicalizableValueError String :=
  (canonical "$" value).map fun json => String.ofList (stringify hasher.numerals json)

def computePayloadDigest (hasher : HashPort ν) (payload : Payload ν) : Option String :=
  match canonicalize hasher (.object payload) with
  | .ok text => hasher.sha256Hex text
  | .error _ => none

inductive IntegrityReason where
  | digestMismatch
  | digestAbsent
  | notCanonicalizable

inductive IntegrityResult where
  | valid (digest : String)
  | invalid (reason : IntegrityReason)

def verifyPayloadDigest (hasher : HashPort ν) (payload : Payload ν) (expected : Option String) :
    IntegrityResult :=
  match expected with
  | none => .invalid .digestAbsent
  | some expected =>
    if isBlank expected then .invalid .digestAbsent
    else
      match computePayloadDigest hasher payload with
      | none => .invalid .notCanonicalizable
      | some actual => if actual = expected then .valid actual else .invalid .digestMismatch

end Tracking

/-! ## What a canonical text says of a payload

Two payloads have one canonical text exactly when they are one value of JSON. -/
namespace Tracking

open Builtins JsonText

variable {ν : Type}

def unitsOf (c : Char) : List ℕ :=
  if c.toNat < 0x10000 then [c.toNat]
  else [0xD800 + (c.toNat - 0x10000) / 0x400, 0xDC00 + (c.toNat - 0x10000) % 0x400]

theorem toNat_bounds (c : Char) :
    c.toNat < 0xD800 ∨ 0xDFFF < c.toNat ∧ c.toNat < 0x110000 := c.valid

theorem unitsOf_unique {c d : Char} {l l' : List ℕ} (h : unitsOf c ++ l = unitsOf d ++ l') :
    c = d ∧ l = l' := by
  have hc := toNat_bounds c
  have hd := toNat_bounds d
  have hchar : c.toNat = d.toNat → c = d := Char.toNat_inj.mp
  unfold unitsOf at h
  by_cases hcs : c.toNat < 0x10000
  · by_cases hds : d.toNat < 0x10000
    · rw [if_pos hcs, if_pos hds] at h
      obtain ⟨hhead, htail⟩ := List.cons.inj h
      exact ⟨hchar hhead, htail⟩
    · rw [if_pos hcs, if_neg hds] at h
      have hhead := (List.cons.inj h).1
      omega
  · by_cases hds : d.toNat < 0x10000
    · rw [if_neg hcs, if_pos hds] at h
      have hhead := (List.cons.inj h).1
      omega
    · rw [if_neg hcs, if_neg hds] at h
      obtain ⟨hhead, hrest⟩ := List.cons.inj h
      obtain ⟨hsecond, htail⟩ := List.cons.inj hrest
      exact ⟨hchar (by omega), htail⟩

theorem unitsOf_ne_nil (c : Char) : unitsOf c ≠ [] := by
  unfold unitsOf
  split <;> simp

theorem flatMap_unitsOf_injective (l l' : List Char)
    (h : l.flatMap unitsOf = l'.flatMap unitsOf) : l = l' := by
  induction l generalizing l' with
  | nil =>
    cases l' with
    | nil => rfl
    | cons d l' =>
      rw [List.flatMap_nil, List.flatMap_cons] at h
      exact absurd (List.append_eq_nil_iff.mp h.symm).1 (unitsOf_ne_nil d)
  | cons c l ih =>
    cases l' with
    | nil =>
      rw [List.flatMap_nil, List.flatMap_cons] at h
      exact absurd (List.append_eq_nil_iff.mp h).1 (unitsOf_ne_nil c)
    | cons d l' =>
      rw [List.flatMap_cons, List.flatMap_cons] at h
      obtain ⟨rfl, hrest⟩ := unitsOf_unique h
      rw [ih l' hrest]

theorem codeUnits_injective : Function.Injective codeUnits := fun a b h =>
  String.toList_inj.mp (flatMap_unitsOf_injective a.toList b.toList h)

/-- A finite number. JSON has one zero. -/
inductive FiniteNumber (ν : Type) where
  | finite (n : ν)
  | negativeZero

/-- `value === 0 ? 0 : value` -/
def normalizeZero [Zero ν] : FiniteNumber ν → ν
  | .finite n => n
  | .negativeZero => 0

mutual

def Value.mapNumbers {μ : Type} (f : μ → ν) : Value μ → Value ν
  | .null => .null
  | .boolean b => .boolean b
  | .number n => .number (f n)
  | .nonFinite text => .nonFinite text
  | .string s => .string s
  | .array items => .array (mapItems f items)
  | .object fields => .object (mapFields f fields)
  | .undefined => .undefined
  | .unsupported typeOf => .unsupported typeOf

def mapItems {μ : Type} (f : μ → ν) : List (Value μ) → List (Value ν)
  | [] => []
  | item :: items => item.mapNumbers f :: mapItems f items

def mapFields {μ : Type} (f : μ → ν) : Payload μ → Payload ν
  | [] => []
  | (key, value) :: fields => (key, value.mapNumbers f) :: mapFields f fields

end

/-- The canonical text, where every number is written with its zero normalized. -/
def canonicalizeFinite [Zero ν] (hasher : HashPort ν) (value : Value (FiniteNumber ν)) :
    Except NonCanonicalizableValueError String :=
  canonicalize hasher (value.mapNumbers normalizeZero)

mutual

/-- Built from what JSON has; what is undefined is in an array or a property. -/
def Plain : Value ν → Prop
  | .array items => PlainItems items
  | .object fields => (fields.map Prod.fst).Nodup ∧ PlainFields fields
  | .nonFinite _ => False
  | .undefined => False
  | .unsupported _ => False
  | _ => True

def PlainItems : List (Value ν) → Prop
  | [] => True
  | .undefined :: items => PlainItems items
  | item :: items => Plain item ∧ PlainItems items

def PlainFields : Payload ν → Prop
  | [] => True
  | (_, .undefined) :: fields => PlainFields fields
  | (_, value) :: fields => Plain value ∧ PlainFields fields

end

mutual

/-- The value of JSON. A property that is undefined is none; other than that, null stands for what
JSON does not have. -/
def meaning : Value ν → JsonTree ν
  | .boolean b => .boolean b
  | .number n => .number n
  | .string s => .string s
  | .array items => .array (meaningItems items)
  | .object fields => .object (meaningFields fields)
  | _ => .null

def meaningItems : List (Value ν) → List (JsonTree ν)
  | [] => []
  | item :: items => meaning item :: meaningItems items

def meaningFields : Payload ν → String → Option (JsonTree ν)
  | [], _ => none
  | (_, .undefined) :: fields, name => meaningFields fields name
  | (key, value) :: fields, name =>
    if key = name then some (meaning value) else meaningFields fields name

end

variable {α : Type}

theorem collect_ok {ε : Type} (l : List (String × α)) :
    collect (l.map fun e => (e.1, (.ok e.2 : Except ε α))) = .ok l := by
  induction l with
  | nil => rfl
  | cons e l ih =>
    rw [List.map_cons, collect, ih]
    rfl

theorem inKeyOrder_map {β : Type} (f : α → β) (l : List (String × α)) :
    inKeyOrder (l.map fun e => (e.1, f e.2)) = (inKeyOrder l).map fun e => (e.1, f e.2) := by
  symm
  exact List.map_insertionSort (fun a b : String × α => codeUnits a.1 ≤ codeUnits b.1)
    (fun a b : String × β => codeUnits a.1 ≤ codeUnits b.1) _ l fun _ _ _ _ => Iff.rfl

theorem inKeyOrder_ascending {l : List (String × α)} (h : (l.map Prod.fst).Nodup) :
    (inKeyOrder l).Pairwise fun a b => codeUnits a.1 < codeUnits b.1 := by
  have hsorted : (inKeyOrder l).Pairwise fun a b => codeUnits a.1 ≤ codeUnits b.1 :=
    List.pairwise_insertionSort _ _
  have hperm : (inKeyOrder l).Perm l := List.perm_insertionSort _ _
  have hdistinct : (inKeyOrder l).Pairwise fun a b => a.1 ≠ b.1 :=
    List.pairwise_map.mp ((hperm.map Prod.fst).nodup_iff.mpr h)
  exact (hsorted.and hdistinct).imp fun hboth =>
    lt_of_le_of_ne hboth.1 fun heq => hboth.2 (codeUnits_injective heq)

theorem plainItems_cons {item : Value ν} {items : List (Value ν)} (hitem : item ≠ .undefined)
    (h : PlainItems (item :: items)) : Plain item ∧ PlainItems items := by
  rwa [PlainItems] at h
  exact hitem

theorem plainFields_cons {key : String} {value : Value ν} {fields : Payload ν}
    (hvalue : value ≠ .undefined) (h : PlainFields ((key, value) :: fields)) :
    Plain value ∧ PlainFields fields := by
  rwa [PlainFields] at h
  exact hvalue

mutual

theorem canonical_plain : (v : Value ν) → Plain v → ∀ path, ∃ json,
    canonical path v = .ok json ∧ Ordered codeUnits json ∧ tree json = meaning v
  | .null, _, _ => ⟨.null, rfl, trivial, rfl⟩
  | .boolean b, _, _ => ⟨.boolean b, rfl, trivial, rfl⟩
  | .number n, _, _ => ⟨.number n, rfl, trivial, rfl⟩
  | .string s, _, _ => ⟨.string s, rfl, trivial, rfl⟩
  | .nonFinite _, h, _ => h.elim
  | .undefined, h, _ => h.elim
  | .unsupported _, h, _ => h.elim
  | .array items, h, path => by
    obtain ⟨jsons, hjsons, hordered, htree⟩ := canonicalItems_plain items h path 0
    refine ⟨.array jsons, ?_, hordered, ?_⟩
    · rw [canonical, hjsons]
      rfl
    · rw [tree, meaning, htree]
  | .object fields, h, path => by
    obtain ⟨jsons, hjsons, hordered, htree, hkeys⟩ := canonicalFields_plain fields h.2 path
    have hdistinct : (jsons.map Prod.fst).Nodup := h.1.sublist hkeys
    have hperm : (inKeyOrder jsons).Perm jsons := List.perm_insertionSort _ _
    refine ⟨.object (inKeyOrder jsons), ?_, ?_, ?_⟩
    · rw [canonical, hjsons, inKeyOrder_map, collect_ok]
      rfl
    · exact orderedFields_iff.mpr ⟨inKeyOrder_ascending hdistinct,
        fun entry hentry => hordered entry (hperm.mem_iff.mp hentry)⟩
    · rw [tree, meaning, treeFields_perm hperm.symm hdistinct |>.symm, htree]

theorem canonicalItems_plain : (l : List (Value ν)) → PlainItems l → ∀ path index, ∃ jsons,
    canonicalItems path index l = .ok jsons ∧ OrderedItems codeUnits jsons ∧
      treeItems jsons = meaningItems l
  | [], _, _, _ => ⟨[], rfl, trivial, rfl⟩
  | item :: items, h, path, index => by
    by_cases hitem : item = .undefined
    · subst hitem
      obtain ⟨jsons, hjsons, hordered, htree⟩ := canonicalItems_plain items h path (index + 1)
      refine ⟨.null :: jsons, ?_, ⟨trivial, hordered⟩, ?_⟩
      · rw [canonicalItems, hjsons]
        rfl
      · rw [treeItems, meaningItems, htree]
        rfl
    · obtain ⟨hplain, hrest⟩ := plainItems_cons hitem h
      obtain ⟨json, hjson, hfirst, hmeaning⟩ :=
        canonical_plain item hplain (path ++ "[" ++ toString index ++ "]")
      obtain ⟨jsons, hjsons, hordered, htree⟩ := canonicalItems_plain items hrest path (index + 1)
      refine ⟨json :: jsons, ?_, ⟨hfirst, hordered⟩, ?_⟩
      · rw [canonicalItems, hjson, hjsons]
        · rfl
        · exact hitem
      · rw [treeItems, meaningItems, htree, hmeaning]

theorem canonicalFields_plain : (l : Payload ν) → PlainFields l → ∀ path,
    ∃ jsons : List (String × Json ν),
      canonicalFields path l = jsons.map (fun e => (e.1, .ok e.2)) ∧
        (∀ entry ∈ jsons, Ordered codeUnits entry.2) ∧ treeFields jsons = meaningFields l ∧
          (jsons.map Prod.fst).Sublist (l.map Prod.fst)
  | [], _, _ => ⟨[], rfl, by simp, rfl, List.Sublist.refl _⟩
  | (key, value) :: fields, h, path => by
    by_cases hvalue : value = .undefined
    · subst hvalue
      obtain ⟨jsons, hjsons, hordered, htree, hkeys⟩ := canonicalFields_plain fields h path
      refine ⟨jsons, ?_, hordered, ?_, hkeys.cons _⟩
      · rw [canonicalFields, hjsons]
      · funext name
        rw [meaningFields, htree]
    · obtain ⟨hplain, hrest⟩ := plainFields_cons hvalue h
      obtain ⟨json, hjson, hfirst, hmeaning⟩ := canonical_plain value hplain (path ++ "." ++ key)
      obtain ⟨jsons, hjsons, hordered, htree, hkeys⟩ := canonicalFields_plain fields hrest path
      refine ⟨(key, json) :: jsons, ?_, ?_, ?_, hkeys.cons_cons _⟩
      · rw [canonicalFields, hjson, hjsons]
        · rfl
        · exact hvalue
      · exact List.forall_mem_cons.mpr ⟨hfirst, hordered⟩
      · funext name
        rw [treeFields, meaningFields, htree, hmeaning]
        exact hvalue

end

theorem mapNumbers_undefined {μ : Type} (f : μ → ν) {v : Value μ} (h : v ≠ .undefined) :
    v.mapNumbers f ≠ .undefined := by
  cases v with
  | undefined => exact absurd rfl h
  | _ => simp [Value.mapNumbers]

theorem keys_mapFields {μ : Type} (f : μ → ν) (fields : Payload μ) :
    (mapFields f fields).map Prod.fst = fields.map Prod.fst := by
  induction fields with
  | nil => rfl
  | cons field fields ih => rw [mapFields, List.map_cons, List.map_cons, ih]

mutual

theorem plain_mapNumbers {μ : Type} (f : μ → ν) : (v : Value μ) → Plain v → Plain (v.mapNumbers f)
  | .null, _ => trivial
  | .boolean _, _ => trivial
  | .number _, _ => trivial
  | .string _, _ => trivial
  | .nonFinite _, h => h.elim
  | .undefined, h => h.elim
  | .unsupported _, h => h.elim
  | .array items, h => plainItems_mapNumbers f items h
  | .object fields, h => by
    rw [Value.mapNumbers, Plain, keys_mapFields]
    exact ⟨h.1, plainFields_mapNumbers f fields h.2⟩

theorem plainItems_mapNumbers {μ : Type} (f : μ → ν) :
    (l : List (Value μ)) → PlainItems l → PlainItems (mapItems f l)
  | [], _ => trivial
  | item :: items, h => by
    by_cases hitem : item = .undefined
    · subst hitem
      exact plainItems_mapNumbers f items h
    · obtain ⟨hplain, hrest⟩ := plainItems_cons hitem h
      rw [mapItems, PlainItems]
      · exact ⟨plain_mapNumbers f item hplain, plainItems_mapNumbers f items hrest⟩
      · exact mapNumbers_undefined f hitem

theorem plainFields_mapNumbers {μ : Type} (f : μ → ν) :
    (l : Payload μ) → PlainFields l → PlainFields (mapFields f l)
  | [], _ => trivial
  | (key, value) :: fields, h => by
    by_cases hvalue : value = .undefined
    · subst hvalue
      exact plainFields_mapNumbers f fields h
    · obtain ⟨hplain, hrest⟩ := plainFields_cons hvalue h
      rw [mapFields, PlainFields]
      · exact ⟨plain_mapNumbers f value hplain, plainFields_mapNumbers f fields hrest⟩
      · exact mapNumbers_undefined f hvalue

end

theorem canonicalize_plain (hasher : HashPort ν) {v w : Value ν} (hv : Plain v) (hw : Plain w) :
    ∃ text text', canonicalize hasher v = .ok text ∧ canonicalize hasher w = .ok text' ∧
      (text = text' ↔ meaning v = meaning w) := by
  obtain ⟨a, ha, hordered, hmeaning⟩ := canonical_plain v hv "$"
  obtain ⟨b, hb, hordered', hmeaning'⟩ := canonical_plain w hw "$"
  refine ⟨_, _, congrArg _ ha, congrArg _ hb, ?_⟩
  rw [← hmeaning, ← hmeaning']
  constructor
  · intro h
    rw [stringify_injective hasher.numerals (String.ofList_injective h)]
  · intro h
    rw [tree_unique a b hordered hordered' h]

/-- A payload as a value of JSON, where the negative zero is zero. -/
def jsonValue [Zero ν] (value : Value (FiniteNumber ν)) : JsonTree ν :=
  meaning (value.mapNumbers normalizeZero)

theorem canonicalizeFinite_eq_iff [Zero ν] (hasher : HashPort ν) {v w : Value (FiniteNumber ν)}
    (hv : Plain v) (hw : Plain w) :
    ∃ text text', canonicalizeFinite hasher v = .ok text ∧ canonicalizeFinite hasher w = .ok text' ∧
      (text = text' ↔ jsonValue v = jsonValue w) :=
  canonicalize_plain hasher (plain_mapNumbers _ v hv) (plain_mapNumbers _ w hw)

def wholeNumbers : HashPort ℤ := ⟨wholeNumerals, some⟩

def ordered : Value (FiniteNumber ℤ) :=
  .object [("items", .array [.undefined, .number .negativeZero]), ("note", .undefined),
    ("value", .number (.finite 5))]

def reordered : Value (FiniteNumber ℤ) :=
  .object [("value", .number (.finite 5)), ("items", .array [.null, .number (.finite 0)])]

theorem reordered_text : ∃ text, canonicalizeFinite wholeNumbers ordered = .ok text ∧
    canonicalizeFinite wholeNumbers reordered = .ok text := by
  have hmeaning : jsonValue ordered = jsonValue reordered := by
    simp only [jsonValue, ordered, reordered, Value.mapNumbers, mapFields, mapItems, meaning,
      normalizeZero, JsonTree.object.injEq]
    funext name
    by_cases hitems : "items" = name
    · subst hitems
      simp [meaningFields, meaning, meaningItems]
    · simp [meaningFields, hitems]
  obtain ⟨text, text', htext, htext', heq⟩ := canonicalizeFinite_eq_iff wholeNumbers
    (show Plain ordered by simp [ordered, Plain, PlainFields, PlainItems])
    (show Plain reordered by simp [reordered, Plain, PlainFields, PlainItems])
  exact ⟨text, htext, (heq.mpr hmeaning).symm ▸ htext'⟩

end Tracking
