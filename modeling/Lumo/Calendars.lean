import Mathlib.Data.Int.ConditionallyCompleteOrder
import Mathlib.Tactic.IntervalCases
import Mathlib.Tactic.SplitIfs

/-! # The proleptic Gregorian calendar

Days are counted from the first of January 1970. A civil date can only be built of a month and a
day that its year has, and every day has one civil date. -/
namespace Calendars

def isLeap (year : ℤ) : Bool := year % 4 = 0 && (year % 100 ≠ 0 || year % 400 = 0)

def dayFromYear (year : ℤ) : ℤ :=
  365 * (year - 1970) + (year - 1969) / 4 - (year - 1901) / 100 + (year - 1601) / 400

def daysInYear (leap : Bool) : ℕ := if leap then 366 else 365

def daysInMonth (leap : Bool) : ℕ → ℕ
  | 2 => if leap then 29 else 28
  | 4 => 30
  | 6 => 30
  | 9 => 30
  | 11 => 30
  | _ => 31

def daysBefore (leap : Bool) : ℕ → ℕ
  | 2 => 31
  | 3 => if leap then 60 else 59
  | 4 => if leap then 91 else 90
  | 5 => if leap then 121 else 120
  | 6 => if leap then 152 else 151
  | 7 => if leap then 182 else 181
  | 8 => if leap then 213 else 212
  | 9 => if leap then 244 else 243
  | 10 => if leap then 274 else 273
  | 11 => if leap then 305 else 304
  | 12 => if leap then 335 else 334
  | _ => 0

def yearOfDay (n : ℤ) : ℤ :=
  let guess := 1970 + 400 * n / 146097
  if n < dayFromYear guess then guess - 1
  else if dayFromYear (guess + 1) ≤ n then guess + 1
  else guess

def monthOf (leap : Bool) (within : ℕ) : ℕ :=
  if within < daysBefore leap 2 then 1
  else if within < daysBefore leap 3 then 2
  else if within < daysBefore leap 4 then 3
  else if within < daysBefore leap 5 then 4
  else if within < daysBefore leap 6 then 5
  else if within < daysBefore leap 7 then 6
  else if within < daysBefore leap 8 then 7
  else if within < daysBefore leap 9 then 8
  else if within < daysBefore leap 10 then 9
  else if within < daysBefore leap 11 then 10
  else if within < daysBefore leap 12 then 11
  else 12

@[ext]
structure CivilDate where
  year : ℤ
  month : ℕ
  day : ℕ
  validMonth : 1 ≤ month ∧ month ≤ 12
  validDay : 1 ≤ day ∧ day ≤ daysInMonth (isLeap year) month

theorem dayFromYear_succ (year : ℤ) :
    dayFromYear (year + 1) = dayFromYear year + daysInYear (isLeap year) := by
  have h4 : (year + 1 - 1969) / 4 = (year - 1969) / 4 + if year % 4 = 0 then 1 else 0 := by
    split <;> omega
  have h100 : (year + 1 - 1901) / 100 = (year - 1901) / 100 + if year % 100 = 0 then 1 else 0 := by
    split <;> omega
  have h400 : (year + 1 - 1601) / 400 = (year - 1601) / 400 + if year % 400 = 0 then 1 else 0 := by
    split <;> omega
  have hleap : (daysInYear (isLeap year) : ℤ) = 365 + (if year % 4 = 0 then 1 else 0) -
      (if year % 100 = 0 then 1 else 0) + if year % 400 = 0 then 1 else 0 := by
    by_cases h : year % 4 = 0
    · by_cases h' : year % 100 = 0
      · by_cases h'' : year % 400 = 0 <;> simp [daysInYear, isLeap, h, h', h'']
      · have h'' : year % 400 ≠ 0 := by omega
        simp [daysInYear, isLeap, h, h', h'']
    · have h' : year % 100 ≠ 0 := by omega
      have h'' : year % 400 ≠ 0 := by omega
      simp [daysInYear, isLeap, h, h', h'']
  rw [dayFromYear, dayFromYear, h4, h100, h400, hleap]
  omega

theorem dayFromYear_strictMono : StrictMono dayFromYear := by
  refine strictMono_int_of_lt_succ fun year => ?_
  rw [dayFromYear_succ, daysInYear]
  split <;> omega

theorem yearOfDay_spec (n : ℤ) :
    dayFromYear (yearOfDay n) ≤ n ∧ n < dayFromYear (yearOfDay n + 1) := by
  have hguess : dayFromYear (1970 + 400 * n / 146097 - 1) ≤ n ∧
      n < dayFromYear (1970 + 400 * n / 146097 + 2) := by
    simp only [dayFromYear]
    omega
  rw [yearOfDay]
  split
  · rename_i hbefore
    refine ⟨hguess.1, ?_⟩
    rwa [Int.sub_add_cancel]
  · split
    · rename_i hafter
      exact ⟨hafter, by rw [Int.add_assoc]; exact hguess.2⟩
    · omega

variable {month : ℕ}

theorem daysBefore_succ (leap : Bool) (h : 1 ≤ month) (h' : month < 12) :
    daysBefore leap (month + 1) = daysBefore leap month + daysInMonth leap month := by
  interval_cases month <;> cases leap <;> rfl

theorem daysBefore_last (leap : Bool) :
    daysInYear leap = daysBefore leap 12 + daysInMonth leap 12 := by
  cases leap <;> rfl

theorem monthOf_spec : ∀ leap : Bool, ∀ within < 366, within < daysInYear leap →
    (1 ≤ monthOf leap within ∧ monthOf leap within ≤ 12) ∧
      daysBefore leap (monthOf leap within) ≤ within ∧
      within < daysBefore leap (monthOf leap within) +
        daysInMonth leap (monthOf leap within) := by
  decide +kernel

theorem daysBefore_mono (leap : Bool) {month' : ℕ} (h : 1 ≤ month) (h' : month' ≤ 12)
    (hlt : month < month') :
    daysBefore leap month + daysInMonth leap month ≤ daysBefore leap month' := by
  induction month', hlt using Nat.le_induction with
  | base => exact (daysBefore_succ leap h (by omega)).ge
  | succ next hnext ih =>
    rw [daysBefore_succ leap (by omega) (by omega)]
    exact (ih (by omega)).trans (Nat.le_add_right _ _)

theorem daysBefore_add_le (leap : Bool) (h : 1 ≤ month ∧ month ≤ 12) :
    daysBefore leap month + daysInMonth leap month ≤ daysInYear leap := by
  rw [daysBefore_last]
  rcases Nat.lt_or_eq_of_le h.2 with hlt | heq
  · exact (daysBefore_mono leap h.1 le_rfl hlt).trans (Nat.le_add_right _ _)
  · rw [heq]

def CivilDate.toDay (date : CivilDate) : ℤ :=
  dayFromYear date.year + daysBefore (isLeap date.year) date.month + date.day - 1

theorem within_lt (n : ℤ) :
    (n - dayFromYear (yearOfDay n)).toNat < daysInYear (isLeap (yearOfDay n)) := by
  have hspec := yearOfDay_spec n
  rw [dayFromYear_succ] at hspec
  omega

theorem monthOf_within (n : ℤ) : let within := (n - dayFromYear (yearOfDay n)).toNat
    let leap := isLeap (yearOfDay n)
    (1 ≤ monthOf leap within ∧ monthOf leap within ≤ 12) ∧
      daysBefore leap (monthOf leap within) ≤ within ∧
      within < daysBefore leap (monthOf leap within) +
        daysInMonth leap (monthOf leap within) := by
  intro within leap
  have hwithin := within_lt n
  have hyear : daysInYear leap ≤ 366 := by
    rw [daysInYear]
    split <;> omega
  exact monthOf_spec leap within (hwithin.trans_le hyear) hwithin

def ofDay (n : ℤ) : CivilDate where
  year := yearOfDay n
  month := monthOf (isLeap (yearOfDay n)) (n - dayFromYear (yearOfDay n)).toNat
  day := (n - dayFromYear (yearOfDay n)).toNat - daysBefore (isLeap (yearOfDay n))
    (monthOf (isLeap (yearOfDay n)) (n - dayFromYear (yearOfDay n)).toNat) + 1
  validMonth := (monthOf_within n).1
  validDay := by
    have hmonth := (monthOf_within n).2
    omega

theorem toDay_ofDay (n : ℤ) : (ofDay n).toDay = n := by
  have hmonth := (monthOf_within n).2
  have hyear := (yearOfDay_spec n).1
  rw [CivilDate.toDay, ofDay]
  dsimp only at hmonth ⊢
  omega

namespace CivilDate

def Before (date other : CivilDate) : Prop :=
  date.year < other.year ∨ date.year = other.year ∧
    (date.month < other.month ∨ date.month = other.month ∧ date.day < other.day)

theorem toDay_lt_year (date : CivilDate) :
    dayFromYear date.year ≤ date.toDay ∧ date.toDay < dayFromYear (date.year + 1) := by
  have hday := date.validDay
  have hyear := daysBefore_add_le (isLeap date.year) date.validMonth
  rw [dayFromYear_succ, toDay]
  omega

theorem toDay_lt {date other : CivilDate} (h : date.Before other) : date.toDay < other.toDay := by
  rcases h with hyear | ⟨hyear, hmonth | ⟨hmonth, hday⟩⟩
  · have hnext : dayFromYear (date.year + 1) ≤ dayFromYear other.year :=
      dayFromYear_strictMono.monotone hyear
    exact date.toDay_lt_year.2.trans_le (hnext.trans other.toDay_lt_year.1)
  · have hbefore := daysBefore_mono (isLeap other.year) date.validMonth.1 other.validMonth.2 hmonth
    have hvalid := date.validDay
    have hvalid' := other.validDay
    rw [toDay, toDay, hyear]
    rw [hyear] at hvalid
    omega
  · rw [toDay, toDay, hyear, hmonth]
    omega

theorem before_iff {date other : CivilDate} : date.Before other ↔ date.toDay < other.toDay := by
  constructor
  · exact toDay_lt
  · intro hlt
    by_contra hnot
    have hother : other.Before date ∨ other = date := by
      rw [CivilDate.ext_iff]
      simp only [Before] at hnot ⊢
      omega
    rcases hother with hbefore | heq
    · exact absurd (toDay_lt hbefore) (by omega)
    · rw [heq] at hlt
      exact lt_irrefl _ hlt

theorem toDay_injective : Function.Injective toDay := by
  intro date other heq
  have hnot : ¬ date.Before other := fun h => absurd (toDay_lt h) (by omega)
  have hnot' : ¬ other.Before date := fun h => absurd (toDay_lt h) (by omega)
  rw [CivilDate.ext_iff]
  simp only [Before] at hnot hnot'
  omega

end CivilDate

theorem ofDay_first (date : CivilDate) :
    ofDay (date.toDay + 1 - date.day) = { date with
      day := 1
      validDay := ⟨le_rfl, date.validDay.1.trans date.validDay.2⟩ } := by
  apply CivilDate.toDay_injective
  rw [toDay_ofDay, CivilDate.toDay, CivilDate.toDay]
  dsimp only
  omega

def makeDay (year month day : ℤ) : ℤ :=
  dayFromYear (year + month / 12) +
    daysBefore (isLeap (year + month / 12)) ((month % 12).toNat + 1) + day - 1

theorem makeDay_add (year month day days : ℤ) :
    makeDay year month (day + days) = makeDay year month day + days := by
  simp only [makeDay]
  omega

theorem toDay_eq_makeDay (date : CivilDate) :
    date.toDay = makeDay date.year (date.month - 1) date.day := by
  have hmonth := date.validMonth
  have hyear : date.year + ((date.month : ℤ) - 1) / 12 = date.year := by omega
  have hindex : (((date.month : ℤ) - 1) % 12).toNat + 1 = date.month := by omega
  rw [CivilDate.toDay, makeDay, hyear, hindex]

def monthLength (year month : ℤ) : ℕ :=
  daysInMonth (isLeap (year + month / 12)) ((month % 12).toNat + 1)

theorem makeDay_succ (year month day : ℤ) :
    makeDay year (month + 1) day = makeDay year month day + monthLength year month := by
  by_cases hlast : month % 12 = 11
  · have hyear : year + (month + 1) / 12 = year + month / 12 + 1 := by omega
    have hindex : ((month + 1) % 12).toNat + 1 = 1 := by omega
    have hindex' : (month % 12).toNat + 1 = 12 := by omega
    rw [makeDay, makeDay, monthLength, hyear, hindex, hindex', dayFromYear_succ, daysBefore_last]
    simp only [daysBefore]
    omega
  · have hyear : year + (month + 1) / 12 = year + month / 12 := by omega
    have hindex : ((month + 1) % 12).toNat + 1 = (month % 12).toNat + 1 + 1 := by omega
    rw [makeDay, makeDay, monthLength, hyear, hindex, daysBefore_succ _ (by omega) (by omega)]
    omega

theorem monthLength_pos (year month : ℤ) : 1 ≤ monthLength year month := by
  have h : ∀ leap : Bool, ∀ month ≤ 12, 1 ≤ daysInMonth leap month := by decide
  exact h _ _ (by omega)

theorem ofDay_makeDay {year month : ℤ} {day : ℕ} (h : 1 ≤ day ∧ day ≤ monthLength year month) :
    (ofDay (makeDay year month day)).day = day := by
  have hdate : ofDay (makeDay year month day) =
      ⟨year + month / 12, (month % 12).toNat + 1, day, by omega, h⟩ := by
    apply CivilDate.toDay_injective
    rw [toDay_ofDay]
    rfl
  rw [hdate]

end Calendars

/-! ## Times as texts of ISO 8601

A time is a number of milliseconds. Its text names the day and the time of the day in UTC; a year
outside of four digits is written with a sign and six. -/
namespace IsoTimes

open Calendars

def msPerDay : ℤ := 86400000

def maxTime : ℤ := 8640000000000000

def digits : ℕ → ℕ → List Char
  | 0, _ => []
  | width + 1, n => digits width (n / 10) ++ [Char.ofNat (48 + n % 10)]

def yearText (year : ℤ) : List Char :=
  if 0 ≤ year ∧ year ≤ 9999 then digits 4 year.toNat
  else (if 0 ≤ year then '+' else '-') :: digits 6 year.natAbs

def dayText (date : CivilDate) : List Char :=
  yearText date.year ++ '-' :: (digits 2 date.month ++ '-' :: digits 2 date.day)

def clockText (ms : ℕ) : List Char :=
  digits 2 (ms / 3600000) ++ ':' :: (digits 2 (ms / 60000 % 60) ++
    ':' :: (digits 2 (ms / 1000 % 60) ++ '.' :: (digits 3 (ms % 1000) ++ ['Z'])))

/-- `toISOString`. -/
def isoText (t : ℤ) : String :=
  String.ofList (dayText (ofDay (t / msPerDay)) ++ 'T' :: clockText (t % msPerDay).toNat)

def number (l : List Char) : ℕ := l.foldl (fun n c => 10 * n + (c.toNat - 48)) 0

def readDigits (width : ℕ) (l : List Char) : Option (ℕ × List Char) :=
  if (l.take width).length = width ∧ (l.take width).all Char.isDigit then
    some (number (l.take width), l.drop width)
  else none

def expect (c : Char) : List Char → Option (List Char)
  | [] => none
  | d :: rest => if d = c then some rest else none

def readYear (l : List Char) : Option (ℤ × List Char) :=
  match l with
  | '+' :: rest => (readDigits 6 rest).map fun (n, rest) => (n, rest)
  | '-' :: rest => (readDigits 6 rest).map fun (n, rest) => (-n, rest)
  | l => (readDigits 4 l).map fun (n, rest) => (n, rest)

def readDay (l : List Char) : Option (ℤ × List Char) := do
  let (year, l) ← readYear l
  let (month, l) ← readDigits 2 (← expect '-' l)
  let (day, l) ← readDigits 2 (← expect '-' l)
  if (1 ≤ month ∧ month ≤ 12) ∧ 1 ≤ day ∧ day ≤ daysInMonth (isLeap year) month then
    return (makeDay year (month - 1) day, l)
  else none

def readClock (l : List Char) : Option (ℕ × List Char) := do
  let (hour, l) ← readDigits 2 l
  let (minute, l) ← readDigits 2 (← expect ':' l)
  let (second, l) ← readDigits 2 (← expect ':' l)
  let (ms, l) ← readDigits 3 (← expect '.' l)
  if hour < 24 ∧ minute < 60 ∧ second < 60 then
    return (hour * 3600000 + minute * 60000 + second * 1000 + ms, ← expect 'Z' l)
  else none

/-- `Date.parse` of a text of this form. -/
def readTime (s : String) : Option ℤ := do
  let (day, l) ← readDay s.toList
  let (ms, l) ← readClock (← expect 'T' l)
  let t := day * msPerDay + ms
  if l = [] ∧ |t| ≤ maxTime then some t else none

theorem length_digits (width n : ℕ) : (digits width n).length = width := by
  induction width generalizing n with
  | zero => rfl
  | succ width ih => rw [digits, List.length_append, ih, List.length_singleton]

theorem digit_facts : ∀ k < 10, (Char.ofNat (48 + k)).isDigit = true ∧
    (Char.ofNat (48 + k)).toNat - 48 = k := by
  decide

theorem all_digits (width n : ℕ) : (digits width n).all Char.isDigit = true := by
  induction width generalizing n with
  | zero => rfl
  | succ width ih =>
    have hlast := (digit_facts (n % 10) (Nat.mod_lt n (by omega))).1
    rw [digits, List.all_append, ih, Bool.true_and, List.all_cons, hlast]
    rfl

theorem number_digits {width n : ℕ} (h : n < 10 ^ width) : number (digits width n) = n := by
  induction width generalizing n with
  | zero =>
    have hn : n = 0 := by omega
    rw [hn]
    rfl
  | succ width ih =>
    have hrest : n / 10 < 10 ^ width := by
      rw [pow_succ] at h
      omega
    have hlast := (digit_facts (n % 10) (Nat.mod_lt n (by omega))).2
    have hnumber : number (digits width (n / 10)) = n / 10 := ih hrest
    rw [number] at hnumber
    rw [digits, number, List.foldl_append, hnumber, List.foldl_cons, List.foldl_nil, hlast]
    omega

theorem readDigits_digits (width : ℕ) {n : ℕ} (h : n < 10 ^ width) (rest : List Char) :
    readDigits width (digits width n ++ rest) = some (n, rest) := by
  have hlength := length_digits width n
  have htake : (digits width n ++ rest).take width = digits width n := List.take_left' hlength
  have hdrop : (digits width n ++ rest).drop width = rest := List.drop_left' hlength
  rw [readDigits, htake, hdrop, if_pos ⟨hlength, all_digits width n⟩, number_digits h]

@[simp] theorem expect_cons (c : Char) (rest : List Char) : expect c (c :: rest) = some rest :=
  if_pos rfl

theorem digits_head (width n : ℕ) :
    ∃ c rest, digits (width + 1) n = c :: rest ∧ c.isDigit = true := by
  cases h : digits (width + 1) n with
  | nil =>
    have hlength := length_digits (width + 1) n
    rw [h] at hlength
    cases hlength
  | cons c rest =>
    have hall := all_digits (width + 1) n
    rw [h, List.all_cons, Bool.and_eq_true] at hall
    exact ⟨c, rest, rfl, hall.1⟩

theorem readYear_yearText {year : ℤ} (h : year.natAbs < 1000000) (rest : List Char) :
    readYear (yearText year ++ rest) = some (year, rest) := by
  rw [yearText]
  split
  · rename_i hfour
    obtain ⟨c, tail, hdigits, hdigit⟩ := digits_head 3 year.toNat
    have hread := readDigits_digits 4 (n := year.toNat) (by omega) rest
    rw [hdigits, List.cons_append] at hread ⊢
    rw [readYear]
    · have hyear : (year.toNat : ℤ) = year := Int.toNat_of_nonneg hfour.1
      simp only [hread, Option.map_some, hyear]
    · rintro tail' ⟨⟩
      revert hdigit
      decide
    · rintro tail' ⟨⟩
      revert hdigit
      decide
  · have hread := readDigits_digits 6 (n := year.natAbs) (by omega) rest
    split
    · have hyear : (year.natAbs : ℤ) = year := by omega
      simp only [List.cons_append, readYear, hread, Option.map_some, hyear]
    · have hyear : -(year.natAbs : ℤ) = year := by omega
      simp only [List.cons_append, readYear, hread, Option.map_some, hyear]

theorem readDay_dayText {date : CivilDate} (h : date.year.natAbs < 1000000) (rest : List Char) :
    readDay (dayText date ++ rest) = some (date.toDay, rest) := by
  have hmonth := date.validMonth
  have hday := date.validDay
  have hlength : ∀ leap : Bool, ∀ month ≤ 12, daysInMonth leap month ≤ 31 := by decide
  have hle := hlength (isLeap date.year) _ hmonth.2
  simp only [readDay, dayText, List.append_assoc, List.cons_append, readYear_yearText h,
    readDigits_digits 2 (show date.month < 10 ^ 2 by omega),
    readDigits_digits 2 (show date.day < 10 ^ 2 by omega), expect_cons,
    Option.bind_eq_bind, Option.bind_some]
  rw [if_pos ⟨hmonth, hday⟩, toDay_eq_makeDay]
  rfl

theorem readClock_clockText {ms : ℕ} (h : ms < 86400000) :
    readClock (clockText ms) = some (ms, []) := by
  simp only [readClock, clockText,
    readDigits_digits 2 (show ms / 3600000 < 10 ^ 2 by omega),
    readDigits_digits 2 (show ms / 60000 % 60 < 10 ^ 2 by omega),
    readDigits_digits 2 (show ms / 1000 % 60 < 10 ^ 2 by omega),
    readDigits_digits 3 (show ms % 1000 < 10 ^ 3 by omega), expect_cons,
    Option.bind_eq_bind, Option.bind_some]
  rw [if_pos ⟨by omega, by omega, by omega⟩]
  congr 2
  omega

theorem year_lt {n : ℤ} (h : |n| ≤ 100000000) : (ofDay n).year.natAbs < 1000000 := by
  have hspec := yearOfDay_spec n
  obtain ⟨hlow, hhigh⟩ := abs_le.mp h
  have hlast : yearOfDay n < 1000000 := by
    apply dayFromYear_strictMono.lt_iff_lt.mp
    refine hspec.1.trans_lt (hhigh.trans_lt ?_)
    decide
  have hfirst : -999999 < yearOfDay n + 1 := by
    apply dayFromYear_strictMono.lt_iff_lt.mp
    refine lt_of_le_of_lt ?_ hspec.2
    refine le_trans ?_ hlow
    decide
  have hyear : (ofDay n).year = yearOfDay n := rfl
  rw [hyear]
  omega

theorem readTime_isoText {t : ℤ} (h : |t| ≤ maxTime) : readTime (isoText t) = some t := by
  obtain ⟨hlow, hhigh⟩ := abs_le.mp h
  rw [maxTime] at hlow hhigh
  have hday : |t / msPerDay| ≤ 100000000 := by
    rw [msPerDay]
    apply abs_le.mpr
    constructor <;> omega
  have hms : (t % msPerDay).toNat < 86400000 := by
    rw [msPerDay]
    omega
  have htime : t / msPerDay * msPerDay + ((t % msPerDay).toNat : ℤ) = t := by
    rw [msPerDay]
    omega
  simp only [readTime, isoText, String.toList_ofList, readDay_dayText (year_lt hday), expect_cons,
    readClock_clockText hms, Option.bind_eq_bind, Option.bind_some, toDay_ofDay, htime]
  exact if_pos ⟨trivial, h⟩

end IsoTimes
