import Mathlib.Data.PNat.Basic
import Lumo.Builtins

/-! # What a shopper tells a checkout: lines, addresses and selections

Each value is checked when it is built; reading one back from the store checks it again. -/
namespace Checkout

open SharedKernel Builtins

structure CheckoutItemMerchandise where
  variantRef : String
  sku : String
  title : String
  variantTitle : Option String
  deriving DecidableEq

structure CheckoutItem where
  productRef : NonBlank
  quantity : ℕ+
  unitPriceAmountMinor : ℕ
  currency : String
  merchandise : Option CheckoutItemMerchandise
  deriving DecidableEq

namespace CheckoutItem

def create (productRef : String) (quantity unitPriceAmountMinor : ℚ) (currency : String)
    (merchandise : Option CheckoutItemMerchandise) : Except DomainError CheckoutItem :=
  if h : isBlank productRef = false ∧ (isInteger quantity = true ∧ 0 < quantity) ∧
      (isInteger unitPriceAmountMinor = true ∧ 0 ≤ unitPriceAmountMinor) then
    .ok ⟨⟨productRef, h.1⟩,
      ⟨quantity.num.toNat, Int.pos_iff_toNat_pos.mp (Rat.num_pos.mpr h.2.1.2)⟩,
      unitPriceAmountMinor.num.toNat, currency, merchandise⟩
  else
    .error (.validation "Invalid checkout item"
      ((if isBlank productRef then [⟨"productRef", "must not be empty"⟩] else []) ++
        (if isInteger quantity = true ∧ 0 < quantity then [] else
          [⟨"quantity", "must be a positive integer"⟩]) ++
        (if isInteger unitPriceAmountMinor = true ∧ 0 ≤ unitPriceAmountMinor then [] else
          [⟨"unitPriceAmountMinor", "must be a non-negative integer"⟩])))

def lineTotalMinor (item : CheckoutItem) : ℤ := item.unitPriceAmountMinor * (item.quantity : ℕ)

theorem create_self (item : CheckoutItem) :
    create item.productRef.1 (item.quantity : ℕ) item.unitPriceAmountMinor item.currency
      item.merchandise = .ok item := by
  have hquantity : (0 : ℚ) < ((item.quantity : ℕ) : ℚ) := by exact_mod_cast item.quantity.pos
  have hvalid : isBlank item.productRef.1 = false ∧
      (isInteger ((item.quantity : ℕ) : ℚ) = true ∧ (0 : ℚ) < ((item.quantity : ℕ) : ℚ)) ∧
      (isInteger (item.unitPriceAmountMinor : ℚ) = true ∧ (0 : ℚ) ≤ item.unitPriceAmountMinor) :=
    ⟨item.productRef.2, ⟨by simp [isInteger], hquantity⟩, by simp [isInteger], by simp⟩
  rw [create, dif_pos hvalid]
  rfl

end CheckoutItem

structure CheckoutAddressInput where
  name : Option String
  phone : Option String
  line1 : String
  line2 : Option String
  city : String
  postalCode : String
  country : String
  province : Option String
  deriving DecidableEq

def toAsciiDigit (c : Char) : Char :=
  if 0x660 ≤ c.toNat ∧ c.toNat ≤ 0x669 then Char.ofNat (48 + (c.toNat - 0x660))
  else if 0x6F0 ≤ c.toNat ∧ c.toNat ≤ 0x6F9 then Char.ofNat (48 + (c.toNat - 0x6F0))
  else c

def normalizePhone (raw : String) : String :=
  String.ofList ((raw.toList.map toAsciiDigit).filter fun c =>
    !(isWhitespace c || c == '-' || c == '(' || c == ')'))

/-- The pattern `^\+?[0-9]{7,15}$`. -/
def isPhone (value : String) : Bool :=
  let digits := if value.toList.head? = some '+' then value.toList.tail else value.toList
  decide (7 ≤ digits.length) && decide (digits.length ≤ 15) && digits.all fun c => '0' ≤ c && c ≤ '9'

namespace CheckoutAddressInput

def normalized (input : CheckoutAddressInput) : CheckoutAddressInput :=
  { input with
    name := input.name.map trim
    phone := input.phone.map normalizePhone
    postalCode := trim input.postalCode
    province := (input.province.map trim).filter (· ≠ "") }

def issues (input : CheckoutAddressInput) : List FieldIssue :=
  (if isBlank input.line1 then [⟨"line1", "required"⟩] else []) ++
    (if isBlank input.city then [⟨"city", "required"⟩] else []) ++
    (if isBlank input.country then [⟨"country", "required"⟩] else []) ++
    (if (input.name.map trim).any fun name =>
        stringLength name == 0 || decide (120 < stringLength name) then
      [⟨"name", "must be 1-120 characters"⟩] else []) ++
    (if (input.phone.map normalizePhone).any fun phone => !isPhone phone then
      [⟨"phone", "must be 7-15 digits, optionally starting with +"⟩] else []) ++
    (if (input.province.map trim).any fun province => decide (10 < stringLength province) then
      [⟨"province", "must be at most 10 characters"⟩] else [])

end CheckoutAddressInput

abbrev CheckoutAddress :=
  { props : CheckoutAddressInput // props.normalized = props ∧ props.issues = [] }

theorem toAsciiDigit_idem (c : Char) : toAsciiDigit (toAsciiDigit c) = toAsciiDigit c := by
  have hdigit : ∀ d < 10, toAsciiDigit (Char.ofNat (48 + d)) = Char.ofNat (48 + d) := by decide
  unfold toAsciiDigit
  split
  · exact hdigit _ (by omega)
  · split
    · exact hdigit _ (by omega)
    · rfl

theorem normalizePhone_idem (raw : String) :
    normalizePhone (normalizePhone raw) = normalizePhone raw := by
  unfold normalizePhone
  rw [String.toList_ofList, List.map_congr_left, List.map_id, List.filter_filter]
  · simp only [Bool.and_self]
  · intro c hc
    obtain ⟨c', _, rfl⟩ := List.mem_map.mp (List.mem_of_mem_filter hc)
    exact toAsciiDigit_idem c'

namespace CheckoutAddressInput

theorem normalized_normalized (input : CheckoutAddressInput) :
    input.normalized.normalized = input.normalized := by
  have hprovince : ∀ p : Option String,
      (((p.map trim).filter (· ≠ "")).map trim).filter (· ≠ "") = (p.map trim).filter (· ≠ "") := by
    intro p
    cases p with
    | none => rfl
    | some v =>
      by_cases hv : trim v = ""
      · simp [Option.filter, hv]
      · simp [Option.filter, hv, trim_trim]
  simp only [normalized, hprovince, Option.map_map, trim_trim, Function.comp_def,
    normalizePhone_idem]

theorem issues_normalized (input : CheckoutAddressInput) (h : input.issues = []) :
    input.normalized.issues = [] := by
  simp only [issues, List.append_eq_nil_iff, ite_eq_right_iff, List.cons_ne_nil, imp_false,
    Bool.not_eq_true] at h ⊢
  obtain ⟨⟨⟨⟨⟨hline, hcity⟩, hcountry⟩, hname⟩, hphone⟩, hprovince⟩ := h
  refine ⟨⟨⟨⟨⟨hline, hcity⟩, hcountry⟩, ?_⟩, ?_⟩, ?_⟩
  · simpa only [normalized, Option.map_map, Function.comp_def, trim_trim] using hname
  · simpa only [normalized, Option.map_map, Function.comp_def, normalizePhone_idem] using hphone
  · cases hp : input.province with
    | none => simp [normalized, hp]
    | some v =>
      by_cases hv : trim v = ""
      · simp [normalized, hp, Option.filter, hv]
      · simpa [normalized, hp, Option.filter, hv, trim_trim] using hprovince

end CheckoutAddressInput

namespace CheckoutAddress

def create (input : CheckoutAddressInput) : Except DomainError CheckoutAddress :=
  if h : input.issues = [] then
    .ok ⟨input.normalized, input.normalized_normalized, input.issues_normalized h⟩
  else .error (.validation "Invalid address" input.issues)

theorem create_self (address : CheckoutAddress) : create address.1 = .ok address := by
  rw [create, dif_pos address.2.2]
  exact congrArg Except.ok (Subtype.ext address.2.1)

end CheckoutAddress

structure Regions where
  hasProvinces : String → Bool
  isProvinceOf : String → String → Bool

def provinceProblem (regions : Regions) (country : String) (province : Option String) :
    Option DomainError :=
  let given := (province.map trim).getD ""
  let issue : Option FieldIssue :=
    if regions.hasProvinces country then
      if stringLength given = 0 then some ⟨"province", "required for this country"⟩
      else if regions.isProvinceOf country given then none
      else some ⟨"province", given ++ " is not a province of " ++ country⟩
    else if 0 < stringLength given then
      some ⟨"province", country ++ " has no provinces to choose from"⟩
    else none
  issue.map fun issue => .validation "Invalid address" [issue]

/-- The pattern `^[^\s@]+@[^\s@]+\.[^\s@]+$`. -/
def isEmail (value : String) : Bool :=
  match value.toList.splitOn '@' with
  | [name, domain] => !name.isEmpty && value.toList.all (fun c => !isWhitespace c) &&
      domain.tail.dropLast.contains '.'
  | _ => false

abbrev ContactEmail := { value : String // isEmail value = true }

def ContactEmail.create (text : TextOps) (value : String) : Except DomainError ContactEmail :=
  let normalized := text.toLowerCase (trim value)
  if h : isEmail normalized = true then .ok ⟨normalized, h⟩
  else .error (.validation "Invalid email" [⟨"email", "must be a valid email"⟩])

structure ShippingSelection where
  method : NonBlank
  rateAmountMinor : ℕ
  currency : String
  name : Option String
  description : Option String

def ShippingSelection.create (method : String) (rateAmountMinor : ℚ) (currency : String)
    (name description : Option String) : Except DomainError ShippingSelection :=
  if h : isBlank method = false then
    if isInteger rateAmountMinor = true ∧ 0 ≤ rateAmountMinor then
      .ok ⟨⟨method, h⟩, rateAmountMinor.num.toNat, currency, name, description⟩
    else
      .error (.validation "Invalid shipping selection"
        [⟨"rateAmountMinor", "must be a non-negative integer"⟩])
  else .error (.validation "Invalid shipping selection" [⟨"method", "must not be empty"⟩])

theorem ShippingSelection.create_self (selection : ShippingSelection) :
    create selection.method.1 selection.rateAmountMinor selection.currency selection.name
      selection.description = .ok selection := by
  have hrate : isInteger (selection.rateAmountMinor : ℚ) = true ∧
      (0 : ℚ) ≤ selection.rateAmountMinor := ⟨by simp [isInteger], by simp⟩
  rw [create, dif_pos selection.method.2, if_pos hrate]
  rfl

structure PaymentSelection where
  paymentMethodRef : NonBlank
  provider : NonBlank

def PaymentSelection.create (paymentMethodRef provider : String) :
    Except DomainError PaymentSelection :=
  if h : isBlank paymentMethodRef = false then
    if h' : isBlank provider = false then .ok ⟨⟨paymentMethodRef, h⟩, ⟨provider, h'⟩⟩
    else .error (.validation "Invalid payment selection" [⟨"provider", "must not be empty"⟩])
  else
    .error (.validation "Invalid payment selection" [⟨"paymentMethodRef", "must not be empty"⟩])

theorem PaymentSelection.create_self (selection : PaymentSelection) :
    create selection.paymentMethodRef.1 selection.provider.1 = .ok selection := by
  rw [create, dif_pos selection.paymentMethodRef.2, dif_pos selection.provider.2]

end Checkout
