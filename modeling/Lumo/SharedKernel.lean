import Mathlib.Data.Rat.Defs
import Mathlib.Data.List.Basic

/-! # The shared kernel: domain errors, identifiers and money

Amounts are exact; the platform stores them as integer columns. -/
namespace SharedKernel

structure FieldIssue where
  field : String
  message : String
  deriving DecidableEq

/-- The domain errors that the modelled services return or throw. -/
inductive DomainError where
  | validation (message : String) (fields : List FieldIssue)
  | notFound (message : String)
  | conflict (message : String)
  | concurrency (message : String)
  | businessRule (message : String)
  deriving DecidableEq

def DomainError.message : DomainError → String
  | validation message _ => message
  | notFound message => message
  | conflict message => message
  | concurrency message => message
  | businessRule message => message

section Sequence

variable {ε α β : Type}

@[simp] theorem ok_bind (a : α) (f : α → Except ε β) : (Except.ok a >>= f) = f a := rfl

@[simp] theorem error_bind (e : ε) (f : α → Except ε β) : (Except.error e >>= f) = .error e := rfl

theorem bind_eq_ok {x : Except ε α} {f : α → Except ε β} {b : β} :
    (x >>= f) = .ok b ↔ ∃ a, x = .ok a ∧ f a = .ok b := by
  cases x <;> simp

theorem map_eq_ok {x : Except ε α} {f : α → β} {b : β} :
    x.map f = .ok b ↔ ∃ a, x = .ok a ∧ f a = b := by
  cases x <;> simp [Except.map]

theorem mapError_ok {ε' : Type} {x : Except ε α} {f : ε → ε'} {a : α} :
    x.mapError f = .ok a ↔ x = .ok a := by
  cases x <;> simp [Except.mapError]

theorem replaceF_split {p : α → Option α} {before after : List α} {x x' : α}
    (hbefore : ∀ y ∈ before, p y = none) (hx : p x = some x') :
    (before ++ x :: after).replaceF p = before ++ x' :: after := by
  induction before with
  | nil => exact List.replaceF_cons_of_some p hx
  | cons y before ih =>
    rw [List.cons_append, List.replaceF_cons_of_none p (hbefore y (by simp)),
      ih fun z hz => hbefore z (List.mem_cons_of_mem y hz)]
    rfl

end Sequence

/-- The characters that `String.prototype.trim` removes. -/
def isWhitespace (c : Char) : Bool :=
  c.toNat ∈ [0x9, 0xA, 0xB, 0xC, 0xD, 0x20, 0xA0, 0x1680, 0x2000, 0x2001, 0x2002, 0x2003, 0x2004,
    0x2005, 0x2006, 0x2007, 0x2008, 0x2009, 0x200A, 0x2028, 0x2029, 0x202F, 0x205F, 0x3000, 0xFEFF]

/-- `value.trim().length === 0`. -/
def isBlank (value : String) : Bool :=
  value.toList.all isWhitespace

abbrev NonBlank := { value : String // isBlank value = false }

theorem NonBlank.notEmpty (v : NonBlank) : isBlank v.1 = false := v.2

namespace Guard

def againstEmpty (value field : String) : Except DomainError NonBlank :=
  if h : isBlank value = false then .ok ⟨value, h⟩
  else .error (.validation (field ++ " must not be empty") [⟨field, "must not be empty"⟩])

theorem againstEmpty_ok {value field : String} {v : NonBlank}
    (h : againstEmpty value field = .ok v) : v.1 = value := by
  rw [againstEmpty] at h
  split at h
  · cases h; rfl
  · cases h

theorem againstEmpty_error {value field : String} {e : DomainError}
    (h : againstEmpty value field = .error e) : isBlank value = true := by
  rw [againstEmpty] at h
  split at h
  · cases h
  · rename_i hb
    simpa using hb

end Guard

/-- The identity of an entity; a blank one cannot be built. -/
structure UniqueEntityId where
  value : String
  notEmpty : isBlank value = false
  deriving DecidableEq

/-- `UniqueEntityId.from`. -/
def UniqueEntityId.from (value : String) : Except DomainError UniqueEntityId :=
  (Guard.againstEmpty value "UniqueEntityId.value").map fun v => ⟨v.1, v.notEmpty⟩

variable {value : String}

theorem UniqueEntityId.from_ok {id : UniqueEntityId} (h : UniqueEntityId.from value = .ok id) :
    id.value = value := by
  cases hv : Guard.againstEmpty value "UniqueEntityId.value" with
  | error e => simp [UniqueEntityId.from, hv, Except.map] at h
  | ok v =>
    simp only [UniqueEntityId.from, hv, Except.map, Except.ok.injEq] at h
    subst h
    exact Guard.againstEmpty_ok hv

theorem UniqueEntityId.from_of_notEmpty (h : isBlank value = false) :
    UniqueEntityId.from value = .ok ⟨value, h⟩ := by
  simp [UniqueEntityId.from, Guard.againstEmpty, h, Except.map]

theorem UniqueEntityId.from_error {e : DomainError} (h : UniqueEntityId.from value = .error e) :
    isBlank value = true := by
  cases hv : Guard.againstEmpty value "UniqueEntityId.value" with
  | error e => exact Guard.againstEmpty_error hv
  | ok v => simp [UniqueEntityId.from, hv, Except.map] at h

structure ProductRef where
  value : String
  notEmpty : isBlank value = false
  deriving DecidableEq

def ProductRef.create (value : String) : Except DomainError ProductRef :=
  (Guard.againstEmpty value "productId").map fun v => ⟨v.1, v.notEmpty⟩

theorem ProductRef.create_ok {product : ProductRef} (h : ProductRef.create value = .ok product) :
    product.value = value := by
  obtain ⟨v, hv, rfl⟩ := map_eq_ok.mp h
  exact Guard.againstEmpty_ok hv

/-- Upper case, as far as the letters from A to Z go: the letters and ligatures whose upper
case is made of these. -/
def upperCaseChar (c : Char) : List Char :=
  if 'a' ≤ c ∧ c ≤ 'z' then [Char.ofNat (c.toNat - 32)]
  else match c.toNat with
    | 0xDF => ['S', 'S']
    | 0x131 => ['I']
    | 0x17F => ['S']
    | 0xFB00 => ['F', 'F']
    | 0xFB01 => ['F', 'I']
    | 0xFB02 => ['F', 'L']
    | 0xFB03 => ['F', 'F', 'I']
    | 0xFB04 => ['F', 'F', 'L']
    | 0xFB05 => ['S', 'T']
    | 0xFB06 => ['S', 'T']
    | _ => [c]

/-- `toUpperCase`, for a comparison with a currency code. -/
def toUpperCase (value : String) : String :=
  String.ofList (value.toList.flatMap upperCaseChar)

/-- The pattern `^[A-Z]{3}$`. -/
def isValidCurrencyCode (value : String) : Bool :=
  value.toList.length == 3 && value.toList.all fun c => 'A' ≤ c && c ≤ 'Z'

structure Money where
  amountMinor : ℕ
  currency : String
  validCurrency : isValidCurrencyCode currency = true
  deriving DecidableEq

namespace Money

/-- A finite number is given as the rational it is; the others are refused like fractions. -/
def create (amountMinor : ℚ) (currency : String) : Except DomainError Money :=
  if h : (amountMinor.den = 1 ∧ 0 ≤ amountMinor.num) ∧ isValidCurrencyCode currency = true then
    .ok ⟨amountMinor.num.toNat, currency, h.2⟩
  else
    .error (.validation "Invalid money"
      ((if amountMinor.den = 1 ∧ 0 ≤ amountMinor.num then [] else
          [⟨"amountMinor", "must be a non-negative integer (minor units)"⟩]) ++
        (if isValidCurrencyCode currency then [] else
          [⟨"currency", "must be a 3-letter ISO-4217 code"⟩])))

def zero (currency : String) : Except DomainError Money :=
  if h : isValidCurrencyCode currency = true then .ok ⟨0, currency, h⟩
  else .error (.businessRule ("Invalid currency code \"" ++ currency ++ "\" for Money.zero"))

def assertSameCurrency (money other : Money) : Except DomainError Unit :=
  if other.currency ≠ money.currency then
    .error (.businessRule "Cannot operate on money of different currencies")
  else .ok ()

def plus (money other : Money) : Except DomainError Money := do
  money.assertSameCurrency other
  return { money with amountMinor := money.amountMinor + other.amountMinor }

def minus (money other : Money) : Except DomainError Money := do
  money.assertSameCurrency other
  if money.amountMinor < other.amountMinor then
    throw (.businessRule "Money cannot be negative")
  return { money with amountMinor := money.amountMinor - other.amountMinor }

def times (money : Money) (factor : ℕ) : Money :=
  { money with amountMinor := money.amountMinor * factor }

def isGreaterThan (money other : Money) : Except DomainError Bool := do
  money.assertSameCurrency other
  return decide (other.amountMinor < money.amountMinor)

def isZero (money : Money) : Bool :=
  money.amountMinor == 0

theorem zero_currency (money : Money) :
    zero money.currency = .ok { money with amountMinor := 0 } := by
  simp [zero, money.validCurrency]

variable {money other : Money}

theorem plus_of_sameCurrency (h : other.currency = money.currency) :
    money.plus other = .ok { money with amountMinor := money.amountMinor + other.amountMinor } := by
  simp [plus, assertSameCurrency, h]

theorem minus_of_sameCurrency (h : other.currency = money.currency) :
    money.minus other = if money.amountMinor < other.amountMinor then
        .error (.businessRule "Money cannot be negative")
      else .ok { money with amountMinor := money.amountMinor - other.amountMinor } := by
  by_cases hlt : money.amountMinor < other.amountMinor
  · simp [minus, assertSameCurrency, h, hlt]; rfl
  · simp [minus, assertSameCurrency, h, hlt]

theorem isGreaterThan_ok {b : Bool} (h : money.isGreaterThan other = .ok b) :
    other.currency = money.currency ∧ b = decide (other.amountMinor < money.amountMinor) := by
  by_cases hc : other.currency = money.currency
  · simp only [isGreaterThan, assertSameCurrency, hc, ne_eq, not_true_eq_false, if_false] at h
    cases h
    exact ⟨hc, rfl⟩
  · simp only [isGreaterThan, assertSameCurrency, ne_eq, hc, not_false_eq_true, if_true] at h
    cases h

theorem create_ok {amountMinor : ℚ} {currency : String}
    (h : create amountMinor currency = .ok money) :
    money.currency = currency ∧ (money.amountMinor : ℤ) = amountMinor.num := by
  rw [create] at h
  split at h
  · rename_i hv
    cases h
    exact ⟨rfl, Int.toNat_of_nonneg hv.1.2⟩
  · cases h

end Money

end SharedKernel
