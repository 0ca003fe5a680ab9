import Lumo.SharedKernel
import Mathlib.Data.List.DropRight
import Mathlib.Data.List.Sort
import Mathlib.Data.Rat.Floor

/-! # Built-in operations on strings, arrays and numbers

Numbers are exact. The operations that depend on Unicode tables or on a locale are parameters,
of which nothing is assumed. -/
namespace Builtins

open SharedKernel

structure TextOps where
  toUpperCase : String → String
  toLowerCase : String → String
  localeCompare : String → String → ℤ

def trim (value : String) : String :=
  String.ofList (((value.toList.dropWhile isWhitespace).reverse.dropWhile isWhitespace).reverse)

theorem trim_trim (value : String) : trim (trim value) = trim value := by
  have hends (l : List Char) : (l.dropWhile isWhitespace).rdropWhile isWhitespace =
      (((l.dropWhile isWhitespace).rdropWhile isWhitespace).dropWhile isWhitespace).rdropWhile
        isWhitespace := by
    have hfront : ((l.dropWhile isWhitespace).rdropWhile isWhitespace).dropWhile isWhitespace =
        (l.dropWhile isWhitespace).rdropWhile isWhitespace := by
      rw [List.dropWhile_eq_self_iff]
      intro hl
      have hle := List.rdropWhile_prefix isWhitespace (l.dropWhile isWhitespace)
      have hfull := List.dropWhile_idempotent (p := isWhitespace) l
      rw [List.dropWhile_eq_self_iff] at hfull
      rw [hle.getElem hl]
      exact hfull (lt_of_lt_of_le hl hle.length_le)
    rw [hfront, List.rdropWhile_idempotent]
  unfold trim
  rw [String.toList_ofList]
  exact congrArg String.ofList (hends value.toList).symm

variable {α : Type}

theorem all_dropWhile (p : α → Bool) (l : List α) : (l.dropWhile p).all p = l.all p := by
  induction l with
  | nil => rfl
  | cons a l ih =>
    by_cases h : p a = true
    · rw [List.dropWhile_cons_of_pos h, ih, List.all_cons, h, Bool.true_and]
    · rw [List.dropWhile_cons_of_neg h]

theorem isBlank_trim (value : String) : isBlank (trim value) = isBlank value := by
  rw [isBlank, trim, String.toList_ofList, List.all_reverse, all_dropWhile, List.all_reverse,
    all_dropWhile, isBlank]

/-- The UTF-16 code units, which `sort` and `<` compare. -/
def codeUnits (value : String) : List ℕ :=
  value.toList.flatMap fun c =>
    if c.toNat < 0x10000 then [c.toNat]
    else [0xD800 + (c.toNat - 0x10000) / 0x400, 0xDC00 + (c.toNat - 0x10000) % 0x400]

/-- `value.length`. -/
def stringLength (value : String) : ℕ := (codeUnits value).length

def lessThan (a b : String) : Bool := decide (codeUnits a < codeUnits b)

/-- `Math.round`. -/
def mathRound (value : ℚ) : ℤ := ⌊value + 1 / 2⌋

/-- `Number.isInteger`. -/
def isInteger (value : ℚ) : Bool := value.den == 1

/-! `Number` of a string. -/

def decimalDigits (l : List Char) : Option ℕ :=
  if l ≠ [] ∧ l.all Char.isDigit then some (Nat.ofDigitChars 10 l 0) else none

/-- Digits with a point and an exponent, where there are any. -/
def unsignedDecimal (l : List Char) : Option ℚ := do
  let mantissa := l.takeWhile fun c => c ≠ 'e' ∧ c ≠ 'E'
  let whole := mantissa.takeWhile fun c => c ≠ '.'
  let fraction := (mantissa.dropWhile fun c => c ≠ '.').drop 1
  let digits ← decimalDigits (whole ++ fraction)
  let exponent ← match l.dropWhile fun c => c ≠ 'e' ∧ c ≠ 'E' with
    | [] => some (0 : ℤ)
    | _ :: '-' :: rest => (decimalDigits rest).map fun n => -(n : ℤ)
    | _ :: '+' :: rest => (decimalDigits rest).map fun n => (n : ℤ)
    | _ :: rest => (decimalDigits rest).map fun n => (n : ℤ)
  return digits * 10 ^ (exponent - fraction.length)

def digitOf (base : ℕ) (c : Char) : Option ℕ :=
  let digit := if c.isDigit then c.toNat - 48
    else if 97 ≤ c.toNat then c.toNat - 87 else c.toNat - 55
  if c.isAlphanum ∧ digit < base then some digit else none

def unsignedBased (base : ℕ) (l : List Char) : Option ℚ :=
  if l = [] then none
  else (l.mapM (digitOf base)).map fun digits =>
    ((digits.foldl (fun value digit => base * value + digit) 0 : ℕ) : ℚ)

/-- `Number(value)`, where it is finite. -/
def number (value : String) : Option ℚ :=
  match (trim value).toList with
  | [] => some 0
  | '0' :: 'x' :: rest => unsignedBased 16 rest
  | '0' :: 'X' :: rest => unsignedBased 16 rest
  | '0' :: 'o' :: rest => unsignedBased 8 rest
  | '0' :: 'O' :: rest => unsignedBased 8 rest
  | '0' :: 'b' :: rest => unsignedBased 2 rest
  | '0' :: 'B' :: rest => unsignedBased 2 rest
  | '-' :: rest => (unsignedDecimal rest).map fun x => -x
  | '+' :: rest => unsignedDecimal rest
  | l => unsignedDecimal l

example : number " -12.50e1 " = some (-125) ∧ number "0x1F" = some 31 ∧ number "1.2.3" = none := by
  decide +kernel

theorem isDigit_ne {c : Char} (h : c.isDigit = true) (d : Char) (hd : d.isDigit = false) :
    c ≠ d := by
  rintro rfl
  rw [h] at hd
  cases hd

theorem graphic_not_whitespace {c : Char} (h : 0x20 < c.toNat ∧ c.toNat < 0x7F) :
    isWhitespace c = false := by
  refine decide_eq_false fun hmem => ?_
  simp only [List.mem_cons, List.not_mem_nil, or_false] at hmem
  omega

theorem isDigit_not_whitespace {c : Char} (h : c.isDigit = true) : isWhitespace c = false := by
  simp only [Char.isDigit, Bool.and_eq_true, decide_eq_true_eq, ge_iff_le,
    UInt32.le_iff_toNat_le] at h
  obtain ⟨hlow, hhigh⟩ : 48 ≤ c.toNat ∧ c.toNat ≤ 57 := h
  exact graphic_not_whitespace (by omega)

theorem dropWhile_digits {l : List Char} (h : ∀ c ∈ l, c.isDigit = true) :
    l.dropWhile isWhitespace = l := by
  cases l with
  | nil => rfl
  | cons c rest =>
    have hc := isDigit_not_whitespace (h c List.mem_cons_self)
    simp [hc]

theorem unsignedDecimal_digits {l : List Char} (hne : l ≠ []) (h : ∀ c ∈ l, c.isDigit = true) :
    unsignedDecimal l = some ((Nat.ofDigitChars 10 l 0 : ℕ) : ℚ) := by
  have hexp : ∀ c ∈ l, decide (c ≠ 'e' ∧ c ≠ 'E') = true := fun c hc =>
    decide_eq_true ⟨isDigit_ne (h c hc) 'e' rfl, isDigit_ne (h c hc) 'E' rfl⟩
  have hpoint : ∀ c ∈ l, decide (c ≠ '.') = true := fun c hc =>
    decide_eq_true (isDigit_ne (h c hc) '.' rfl)
  have hdigits : decimalDigits l = some (Nat.ofDigitChars 10 l 0) :=
    if_pos ⟨hne, List.all_eq_true.mpr h⟩
  simp only [unsignedDecimal, List.takeWhile_eq_self_iff.mpr hexp,
    List.takeWhile_eq_self_iff.mpr hpoint, List.dropWhile_eq_nil_iff.mpr hexp,
    List.dropWhile_eq_nil_iff.mpr hpoint]
  simp [hdigits]

theorem number_toString (n : ℕ) : number (toString n) = some (n : ℚ) := by
  obtain ⟨l, hl⟩ : ∃ l, l = Nat.toDigits 10 n := ⟨_, rfl⟩
  have htext : (toString n).toList = l := by
    rw [hl]
    exact Nat.toList_repr
  have hdigits : ∀ c ∈ l, c.isDigit = true := by
    intro c hc
    rw [hl] at hc
    exact Nat.isDigit_of_mem_toDigits (by omega) (by omega) hc
  have htrim : (trim (toString n)).toList = l := by
    rw [trim, String.toList_ofList, htext, dropWhile_digits hdigits,
      dropWhile_digits (by simpa using hdigits), List.reverse_reverse]
  have hne : l ≠ [] := by
    rw [hl]
    exact Nat.toDigits_ne_nil
  have hvalue : Nat.ofDigitChars 10 l 0 = n := by
    rw [hl]
    exact Nat.ofDigitChars_ten_toDigits
  have hread := unsignedDecimal_digits hne hdigits
  rw [hvalue] at hread
  rw [number, htrim]
  split
  · exact absurd rfl hne
  · exact absurd rfl (isDigit_ne (hdigits 'x' (by simp)) 'x' rfl)
  · exact absurd rfl (isDigit_ne (hdigits 'X' (by simp)) 'X' rfl)
  · exact absurd rfl (isDigit_ne (hdigits 'o' (by simp)) 'o' rfl)
  · exact absurd rfl (isDigit_ne (hdigits 'O' (by simp)) 'O' rfl)
  · exact absurd rfl (isDigit_ne (hdigits 'b' (by simp)) 'b' rfl)
  · exact absurd rfl (isDigit_ne (hdigits 'B' (by simp)) 'B' rfl)
  · exact absurd rfl (isDigit_ne (hdigits '-' (by simp)) '-' rfl)
  · exact absurd rfl (isDigit_ne (hdigits '+' (by simp)) '+' rfl)
  · exact hread

/-- `array.slice(0, count)`: the count loses its fraction, and a negative one is taken from the
end. -/
def slice {α : Type} (l : List α) (count : ℚ) : List α :=
  if 0 ≤ count then l.take ⌊count⌋.toNat else l.take (l.length - ⌊-count⌋.toNat)

theorem slice_sublist (l : List α) (count : ℚ) : (slice l count).Sublist l := by
  unfold slice
  split
  · exact List.take_sublist _ _
  · exact List.take_sublist _ _

theorem eq_of_length_le_one {l : List α} (h : l.length ≤ 1) {a b : α} (ha : a ∈ l) (hb : b ∈ l) :
    a = b := by
  match l, h with
  | [_], _ => rw [List.mem_singleton.mp ha, List.mem_singleton.mp hb]

/-- `array.sort(compare)`, which is stable. -/
def sortBy {α : Type} (compare : α → α → ℚ) (l : List α) : List α :=
  l.insertionSort fun a b => compare a b ≤ 0

theorem sortBy_perm (compare : α → α → ℚ) (l : List α) : (sortBy compare l).Perm l :=
  List.perm_insertionSort _ l

/-- `[...new Set(values)]`. -/
def distinctValues (values : List String) : List String := values.eraseDups

theorem nodup_distinctValues (values : List String) : (distinctValues values).Nodup := by
  induction hlength : values.length using Nat.strong_induction_on generalizing values with
  | h n ih =>
    cases values with
    | nil => exact List.nodup_nil
    | cons value rest =>
      rw [distinctValues, List.eraseDups_cons, List.nodup_cons]
      refine ⟨?_, ?_⟩
      · rw [List.mem_eraseDups, List.mem_filter]
        simp
      · apply ih _ ?_ _ rfl
        have hle := List.length_filter_le (fun other => !other == value) rest
        rw [List.length_cons] at hlength
        omega

theorem distinctValues_filter (p : String → Bool) (values : List String) :
    distinctValues (values.filter p) = (distinctValues values).filter p := by
  induction hlength : values.length using Nat.strong_induction_on generalizing values with
  | h n ih =>
    cases values with
    | nil => rfl
    | cons value rest =>
      have hrest : distinctValues ((rest.filter fun other => !other == value).filter p) =
          (distinctValues (rest.filter fun other => !other == value)).filter p := by
        apply ih _ ?_ _ rfl
        have hle := List.length_filter_le (fun other => !other == value) rest
        rw [List.length_cons] at hlength
        omega
      rw [distinctValues, distinctValues, List.eraseDups_cons]
      rw [distinctValues, distinctValues] at hrest
      by_cases hp : p value = true
      · rw [List.filter_cons_of_pos hp, List.filter_cons_of_pos hp, List.eraseDups_cons,
          ← hrest, List.filter_comm]
      · rw [List.filter_cons_of_neg hp, List.filter_cons_of_neg hp, ← hrest, List.filter_filter]
        congr 1
        apply List.filter_congr
        intro other _
        by_cases hother : other = value
        · subst hother
          simp [hp]
        · simp [hother]

/-- A whole number, not negative. -/
def IsAmount (value : ℚ) : Prop := ∃ n : ℕ, value = n

namespace IsAmount

variable {a b : ℚ}

theorem nonneg (h : IsAmount a) : 0 ≤ a := by
  obtain ⟨n, rfl⟩ := h
  exact Nat.cast_nonneg n

theorem natCast (n : ℕ) : IsAmount (n : ℚ) := ⟨n, rfl⟩

theorem zero : IsAmount 0 := ⟨0, by simp⟩

theorem add (ha : IsAmount a) (hb : IsAmount b) : IsAmount (a + b) := by
  obtain ⟨m, rfl⟩ := ha
  obtain ⟨n, rfl⟩ := hb
  exact ⟨m + n, by simp⟩

theorem of_int {z : ℤ} (h : (0 : ℚ) ≤ z) : IsAmount (z : ℚ) := by
  have hz : 0 ≤ z := by exact_mod_cast h
  refine ⟨z.toNat, ?_⟩
  exact_mod_cast (Int.toNat_of_nonneg hz).symm

theorem of_isInteger (h : isInteger a = true) (hpos : 0 ≤ a) : IsAmount a := by
  have hden : a.den = 1 := by simpa [isInteger] using h
  have hnum : (a.num : ℚ) = a := Rat.coe_int_num_of_den_eq_one hden
  rw [← hnum] at hpos ⊢
  exact of_int hpos

theorem sum {l : List ℚ} (h : ∀ a ∈ l, IsAmount a) : IsAmount l.sum := by
  induction l with
  | nil => exact zero
  | cons a rest ih =>
    rw [List.sum_cons]
    apply add
    · exact h a (by simp)
    · exact ih fun x hx => h x (by simp [hx])

end IsAmount

end Builtins

/-! ## Dates of the language

A date is its time value in milliseconds; a moment further than eight and a half quadrillion
milliseconds from the epoch has none. -/
namespace Dates

/-- The time value, or nothing where `getTime` gives `NaN`. -/
abbrev Date := Option ℤ

def maxTimeValue : ℚ := 8640000000000000

/-- `new Date(ms)`, which drops the fraction. -/
def newDate (ms : ℚ) : Date := if |ms| ≤ maxTimeValue then some (ms.num.tdiv ms.den) else none

/-- `date.getTime() > now.getTime()`. -/
def isAfter (date : Date) (now : ℤ) : Bool := date.any (now < ·)

/-- `date.getTime() <= now.getTime()`, which is false of a date that is invalid. -/
def isDue (date : Date) (now : ℤ) : Bool := date.any (· ≤ now)

@[simp] theorem isAfter_eq_true {date : Date} {now : ℤ} :
    isAfter date now = true ↔ ∃ t, date = some t ∧ now < t := by
  cases date <;> simp [isAfter]

end Dates
