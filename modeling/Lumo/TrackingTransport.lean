import Lumo.TrackingPayload

/-! # Stripping the transport metadata

What a payload holds below its arrays is stored as it came, and so is the transport metadata that
stands there. -/
namespace Tracking

open Builtins

variable {ν : Type} (text : TextOps)

mutual

/-- The value without the transport keys at any depth. -/
def withoutTransport : Value ν → Value ν
  | .array items => .array (itemsWithoutTransport items)
  | .object fields => .object (fieldsWithoutTransport fields)
  | value => value

def itemsWithoutTransport : List (Value ν) → List (Value ν)
  | [] => []
  | item :: items => withoutTransport item :: itemsWithoutTransport items

def fieldsWithoutTransport : Payload ν → Payload ν
  | [] => []
  | (key, value) :: fields =>
    if isTransportKey text key then fieldsWithoutTransport fields
    else (key, withoutTransport value) :: fieldsWithoutTransport fields

end

mutual

/-- A transport key stands somewhere in the value. -/
def CarriesTransport : Value ν → Prop
  | .array items => ItemsCarryTransport items
  | .object fields => FieldsCarryTransport fields
  | _ => False

def ItemsCarryTransport : List (Value ν) → Prop
  | [] => False
  | item :: items => CarriesTransport item ∨ ItemsCarryTransport items

def FieldsCarryTransport : Payload ν → Prop
  | [] => False
  | (key, value) :: fields =>
    isTransportKey text key = true ∨ CarriesTransport value ∨ FieldsCarryTransport fields

end

structure Strips (payload : Payload ν) : Prop where
  removed : ¬ FieldsCarryTransport text (toBusinessPayload text payload).payload
  kept : (toBusinessPayload text payload).payload = fieldsWithoutTransport text payload
  idempotent : (toBusinessPayload text (toBusinessPayload text payload).payload).payload =
    (toBusinessPayload text payload).payload

mutual

/-- No array that is reached carries transport metadata, and no object that is reached has a key
`__proto__`. -/
def Strippable : Value ν → Prop
  | .array items => ¬ ItemsCarryTransport text items
  | .object fields => FieldsStrippable fields
  | _ => True

def FieldsStrippable : Payload ν → Prop
  | [] => True
  | (key, value) :: fields =>
    (isTransportKey text key = false → key ≠ "__proto__" ∧ Strippable value) ∧
      FieldsStrippable fields

end

mutual

theorem withoutTransport_clean : (v : Value ν) → ¬ CarriesTransport text (withoutTransport text v)
  | .array items => itemsWithoutTransport_clean items
  | .object fields => fieldsWithoutTransport_clean fields
  | .null | .boolean _ | .number _ | .nonFinite _ | .string _ | .undefined | .unsupported _ => id

theorem itemsWithoutTransport_clean :
    (l : List (Value ν)) → ¬ ItemsCarryTransport text (itemsWithoutTransport text l)
  | [] => id
  | item :: items => by
    rintro (h | h)
    · exact withoutTransport_clean item h
    · exact itemsWithoutTransport_clean items h

theorem fieldsWithoutTransport_clean :
    (l : Payload ν) → ¬ FieldsCarryTransport text (fieldsWithoutTransport text l)
  | [] => id
  | (key, value) :: fields => by
    rw [fieldsWithoutTransport]
    split
    · exact fieldsWithoutTransport_clean fields
    · rename_i hkey
      rintro (h | h | h)
      · exact hkey h
      · exact withoutTransport_clean value h
      · exact fieldsWithoutTransport_clean fields h

end

mutual

theorem withoutTransport_eq : (v : Value ν) → ¬ CarriesTransport text v →
    withoutTransport text v = v
  | .array items, h => congrArg Value.array (itemsWithoutTransport_eq items h)
  | .object fields, h => congrArg Value.object (fieldsWithoutTransport_eq fields h)
  | .null, _ | .boolean _, _ | .number _, _ | .nonFinite _, _ | .string _, _ | .undefined, _
  | .unsupported _, _ => rfl

theorem itemsWithoutTransport_eq : (l : List (Value ν)) → ¬ ItemsCarryTransport text l →
    itemsWithoutTransport text l = l
  | [], _ => rfl
  | item :: items, h => by
    obtain ⟨hitem, hitems⟩ := not_or.mp h
    rw [itemsWithoutTransport, withoutTransport_eq item hitem, itemsWithoutTransport_eq items hitems]

theorem fieldsWithoutTransport_eq : (l : Payload ν) → ¬ FieldsCarryTransport text l →
    fieldsWithoutTransport text l = l
  | [], _ => rfl
  | (key, value) :: fields, h => by
    obtain ⟨hkey, hrest⟩ := not_or.mp h
    obtain ⟨hvalue, hfields⟩ := not_or.mp hrest
    rw [fieldsWithoutTransport, if_neg hkey, withoutTransport_eq value hvalue,
      fieldsWithoutTransport_eq fields hfields]

end

variable {text}

/-- No key is both, and so the first check decides nothing. -/
theorem transport_of_business {key : String} :
    (!isBusinessKey text key && isTransportKey text key) = isTransportKey text key := by
  rcases hkey : isTransportKey text key with _ | _
  · simp
  · have hmem : text.toLowerCase key ∈ transportMetadataKeys := by
      simpa [isTransportKey] using hkey
    have hapart : ∀ k ∈ transportMetadataKeys, businessTimeKeys.contains k = false := by decide
    rw [isBusinessKey, hapart _ hmem]
    rfl

theorem walk_cons (path key : String) (value : Value ν) (fields : Payload ν) :
    (walk text path ((key, value) :: fields)).1 =
      if isTransportKey text key = true ∨ key = "__proto__" then (walk text path fields).1
      else (key, (cleanValue text (if path = "" then key else path ++ "." ++ key) value).1) ::
        (walk text path fields).1 := by
  rw [walk, transport_of_business]
  by_cases hkey : isTransportKey text key = true
  · simp [hkey]
  · by_cases hproto : key = "__proto__"
    · subst hproto
      simp [hkey]
    · simp [hkey, hproto]

theorem length_walk_le : (fields : Payload ν) → (path : String) →
    (walk text path fields).1.length ≤ (fieldsWithoutTransport text fields).length
  | [], _ => le_rfl
  | (key, value) :: fields, path => by
    have ih := length_walk_le fields path
    rw [walk_cons, fieldsWithoutTransport]
    by_cases hkey : isTransportKey text key = true
    · simpa [hkey] using ih
    · by_cases hproto : key = "__proto__"
      · subst hproto
        simpa [hkey] using Nat.le_succ_of_le ih
      · simpa [hkey, hproto] using ih

mutual

theorem cleanValue_eq_iff : (v : Value ν) → (path : String) →
    ((cleanValue text path v).1 = withoutTransport text v ↔ Strippable text v)
  | .array items, _ => by
    rw [cleanValue, withoutTransport, Strippable, Value.array.injEq]
    · constructor
      · intro h
        exact h ▸ itemsWithoutTransport_clean text items
      · intro h
        exact (itemsWithoutTransport_eq text items h).symm
    · simp
  | .object fields, path => by
    rw [cleanValue, withoutTransport, Strippable, Value.object.injEq]
    exact walk_eq_iff fields path
  | .null, _ | .boolean _, _ | .number _, _ | .nonFinite _, _ | .string _, _ | .undefined, _
  | .unsupported _, _ => by simp [cleanValue, withoutTransport, Strippable]

theorem walk_eq_iff : (fields : Payload ν) → (path : String) →
    ((walk text path fields).1 = fieldsWithoutTransport text fields ↔ FieldsStrippable text fields)
  | [], _ => by simp [walk, fieldsWithoutTransport, FieldsStrippable]
  | (key, value) :: fields, path => by
    have ih := walk_eq_iff fields path
    rw [walk_cons, fieldsWithoutTransport, FieldsStrippable, ← ih]
    by_cases hkey : isTransportKey text key = true
    · simp [hkey]
    by_cases hproto : key = "__proto__"
    · subst hproto
      have hlength : (walk text path fields).1.length ≤ _ := length_walk_le fields path
      have hshort (v : Value ν) : (walk text path fields).1 ≠
          ("__proto__", v) :: fieldsWithoutTransport text fields := by
        intro h
        rw [h, List.length_cons] at hlength
        omega
      simp [hkey, hshort]
    · simp [hkey, hproto, cleanValue_eq_iff value]

end

mutual

theorem cleanValue_cleanValue : (v : Value ν) → (path path' : String) →
    (cleanValue text path (cleanValue text path' v).1).1 = (cleanValue text path' v).1
  | .object fields, path, path' => congrArg Value.object (walk_walk fields path path')
  | .array _, _, _ | .null, _, _ | .boolean _, _, _ | .number _, _, _ | .nonFinite _, _, _
  | .string _, _, _ | .undefined, _, _ | .unsupported _, _, _ => by simp [cleanValue]

theorem walk_walk : (fields : Payload ν) → (path path' : String) →
    (walk text path (walk text path' fields).1).1 = (walk text path' fields).1
  | [], _, _ => rfl
  | (key, value) :: fields, path, path' => by
    rw [walk_cons]
    split
    · exact walk_walk fields path path'
    · rename_i hkey
      rw [walk_cons, if_neg hkey, cleanValue_cleanValue value, walk_walk fields]

end

/-- Every key is stripped, and every other is kept, exactly where no array that is reached carries
a transport key and no key `__proto__` is reached. -/
theorem toBusinessPayload_strips_iff (text : TextOps) (payload : Payload ν) :
    Strips text payload ↔ FieldsStrippable text payload := by
  rw [← walk_eq_iff payload ""]
  constructor
  · intro h
    exact h.kept
  · intro hkept
    have hclean := fieldsWithoutTransport_clean text payload
    rw [← hkept] at hclean
    exact ⟨hclean, hkept, walk_walk payload "" ""⟩

/-- The nonce of an element is stored. -/
theorem contents_not_stripped :
    ¬ ∀ (text : TextOps) (payload : Payload ℚ), Strips text payload := by
  intro h
  have hremoved := (h ⟨id, id, fun _ _ => 0⟩
    [("contents", .array [.object [("nonce", .string "n1")]])]).removed
  apply hremoved
  simp [toBusinessPayload, cleanValue, walk, FieldsCarryTransport, CarriesTransport,
    ItemsCarryTransport, isTransportKey, transportMetadataKeys]

end Tracking
