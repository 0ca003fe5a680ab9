import Lumo.Builtins
import Lumo.Calendars

/-! # The dates of the sales figures

Days as `YYYY-MM-DD`, the ranges of days that the read model answers, and what the presets of the
date picker stand for. -/
namespace Orders

open Calendars

def MAX_SALES_RANGE_DAYS : ℤ := 366

def DAY_MS : ℤ := 86400000

def digit (n : ℕ) : Char := Char.ofNat (48 + n % 10)

def twoDigits (n : ℕ) : List Char := [digit (n / 10), digit n]

def fourDigits (n : ℕ) : List Char := [digit (n / 1000), digit (n / 100), digit (n / 10), digit n]

def isoYear (year : ℤ) : List Char :=
  if 0 ≤ year ∧ year ≤ 9999 then fourDigits year.toNat
  else (if 0 ≤ year then '+' else '-') :: twoDigits (year.natAbs / 10000) ++
    fourDigits year.natAbs

def isoDate (date : CivilDate) : List Char :=
  isoYear date.year ++ '-' :: twoDigits date.month ++ '-' :: twoDigits date.day

/-- `new Date(time).toISOString().slice(0, 10)`. -/
def isoSlice (time : ℤ) : String := String.ofList ((isoDate (ofDay (time / DAY_MS))).take 10)

/-- `Date.UTC`, which takes the years up to 99 for those of the twentieth century. -/
def dateUTC (year month day : ℤ) : ℤ :=
  makeDay (if 0 ≤ year ∧ year ≤ 99 then 1900 + year else year) month day * DAY_MS

def getUTCDate (time : ℤ) : ℕ := (ofDay (time / DAY_MS)).day

def number (digits : List Char) : ℕ := digits.foldl (fun n c => 10 * n + (c.toNat - 48)) 0

def DATE_PATTERN (value : String) : Option (ℕ × ℕ × ℕ) :=
  match value.toList with
  | [y, y', y'', y''', '-', m, m', '-', d, d'] =>
    if [y, y', y'', y''', m, m', d, d'].all Char.isDigit then
      some (number [y, y', y'', y'''], number [m, m'], number [d, d'])
    else none
  | _ => none

/-- `Date.parse` of the midnight, which rolls a day over that its month does not have. -/
def dateParse (year month day : ℕ) : Option ℤ :=
  if (1 ≤ month ∧ month ≤ 12) ∧ 1 ≤ day ∧ day ≤ 31 then
    some (makeDay year (month - 1) day * DAY_MS)
  else none

def parseUtcDay (value : String) : Option ℤ := do
  let (year, month, day) ← DATE_PATTERN value
  let time ← dateParse year month day
  if isoSlice time = value then some time else none

/-- What is wrong with a range, if anything is. -/
def validateSalesRange (fromDay toDay : String) : Option String :=
  match parseUtcDay fromDay, parseUtcDay toDay with
  | none, _ => some "\"from\" must be a date as YYYY-MM-DD"
  | some _, none => some "\"to\" must be a date as YYYY-MM-DD"
  | some start, some stop =>
    if stop ≤ start then some "\"from\" must be before \"to\""
    else if MAX_SALES_RANGE_DAYS * DAY_MS < stop - start then
      some "The range may not be longer than 366 days"
    else none

/-- The loop of `enumerateDays`. -/
def daysUntil (stop time : ℤ) : List String :=
  if time < stop then isoSlice time :: daysUntil stop (time + DAY_MS) else []
termination_by (stop - time).toNat
decreasing_by
  rw [DAY_MS]
  omega

def enumerateDays (fromDay toDay : String) : List String :=
  match parseUtcDay fromDay, parseUtcDay toDay with
  | some start, some stop => daysUntil stop start
  | _, _ => []

structure SalesRange where
  fromDay : String
  toDay : String
  deriving DecidableEq

inductive SalesRangePreset where
  | today
  | yesterday
  | sevenDays
  | thirtyDays
  | month
  deriving DecidableEq

def shiftDay (day : String) (days : ℤ) : String :=
  match parseUtcDay day with
  | none => day
  | some start => isoSlice (start + days * DAY_MS)

def resolveSalesRange (preset : SalesRangePreset) (today : String) : SalesRange :=
  let tomorrow := shiftDay today 1
  match preset with
  | .today => ⟨today, tomorrow⟩
  | .yesterday => ⟨shiftDay today (-1), today⟩
  | .sevenDays => ⟨shiftDay today (-6), tomorrow⟩
  | .thirtyDays => ⟨shiftDay today (-29), tomorrow⟩
  | .month => ⟨String.ofList (today.toList.take 7 ++ ['-', '0', '1']), tomorrow⟩

def previousSalesRange (fromDay toDay : String) : SalesRange :=
  match parseUtcDay fromDay, parseUtcDay toDay with
  | some start, some stop => ⟨isoSlice (start - (stop - start)), fromDay⟩
  | _, _ => ⟨fromDay, toDay⟩

/-- The previous range of a preset; the month to date has one where today is of the pattern. -/
def previousPresetRange (preset : SalesRangePreset) (today : String) : Option SalesRange :=
  let range := resolveSalesRange preset today
  if preset ≠ .month then some (previousSalesRange range.fromDay range.toDay)
  else do
    let (year, month, dayOfMonth) ← DATE_PATTERN today
    let lastMonthStart := dateUTC year (month - 2) 1
    let lastMonthDays := getUTCDate (dateUTC year (month - 1) 0)
    some {
      fromDay := isoSlice lastMonthStart
      toDay := if lastMonthDays ≤ dayOfMonth then range.fromDay
        else isoSlice (dateUTC year (month - 2) (dayOfMonth + 1)) }

end Orders

/-! ## The periods of the sales figures tile the calendar

A day of four digits in its year has one text, which parses back to it, and the order of the texts
is the order of the days. Ranges are then intervals of days. -/
namespace Orders

open Calendars

theorem digit_mod (n : ℕ) : digit n = digit (n % 10) := by
  rw [digit, digit, Nat.mod_mod]

theorem digit_isDigit (n : ℕ) : (digit n).isDigit = true := by
  have h : ∀ k < 10, (digit k).isDigit = true := by decide
  rw [digit_mod]
  exact h _ (Nat.mod_lt _ (by omega))

theorem digit_toNat (n : ℕ) : (digit n).toNat = 48 + n % 10 := by
  have h : ∀ k < 10, (digit k).toNat = 48 + k % 10 := by decide
  rw [digit_mod, h _ (Nat.mod_lt _ (by omega)), Nat.mod_mod]

theorem digit_lt_iff (m n : ℕ) : digit m < digit n ↔ m % 10 < n % 10 := by
  have h : digit m < digit n ↔ (digit m).toNat < (digit n).toNat := Iff.rfl
  rw [h, digit_toNat, digit_toNat]
  omega

theorem digit_eq_iff (m n : ℕ) : digit m = digit n ↔ m % 10 = n % 10 := by
  rw [← Char.toNat_inj, digit_toNat, digit_toNat]
  omega

theorem number_twoDigits {n : ℕ} (h : n < 100) : number (twoDigits n) = n := by
  simp only [number, twoDigits, List.foldl_cons, List.foldl_nil, digit_toNat]
  omega

theorem number_fourDigits {n : ℕ} (h : n < 10000) : number (fourDigits n) = n := by
  simp only [number, fourDigits, List.foldl_cons, List.foldl_nil, digit_toNat]
  omega

theorem twoDigits_lt {m n : ℕ} (hm : m < 100) (hn : n < 100) (rest rest' : List Char) :
    twoDigits m ++ rest < twoDigits n ++ rest' ↔ m < n ∨ m = n ∧ rest < rest' := by
  have hm' : m / 10 % 10 = m / 10 := Nat.mod_eq_of_lt (by omega)
  have hn' : n / 10 % 10 = n / 10 := Nat.mod_eq_of_lt (by omega)
  simp only [twoDigits, List.cons_append, List.nil_append, List.cons_lt_cons_iff, digit_lt_iff,
    digit_eq_iff, hm', hn']
  by_cases h : rest < rest'
  · simp only [h, and_true]
    omega
  · simp only [h, and_false, or_false]
    omega

theorem fourDigits_lt {m n : ℕ} (hm : m < 10000) (hn : n < 10000) (rest rest' : List Char) :
    fourDigits m ++ rest < fourDigits n ++ rest' ↔ m < n ∨ m = n ∧ rest < rest' := by
  have hsplit (k : ℕ) : fourDigits k = twoDigits (k / 100) ++ twoDigits (k % 100) := by
    rw [fourDigits, twoDigits, twoDigits, Nat.div_div_eq_div_mul, digit_mod (k / 10),
      digit_mod k, digit_mod (k % 100 / 10), digit_mod (k % 100)]
    have htens : k % 100 / 10 % 10 = k / 10 % 10 := by omega
    have hunits : k % 100 % 10 = k % 10 := by omega
    rw [htens, hunits]
    rfl
  rw [hsplit, hsplit, List.append_assoc, List.append_assoc, twoDigits_lt (by omega) (by omega),
    twoDigits_lt (by omega) (by omega)]
  by_cases h : rest < rest'
  · simp only [h, and_true]
    omega
  · simp only [h, and_false, or_false]
    omega

/-- The days that have a text of the pattern. -/
def FourDigit (n : ℤ) : Prop := dayFromYear 0 ≤ n ∧ n < dayFromYear 10000

def dayText (n : ℤ) : String := isoSlice (n * DAY_MS)

variable {n : ℤ}

theorem FourDigit.year (h : FourDigit n) : 0 ≤ (ofDay n).year ∧ (ofDay n).year < 10000 := by
  have hspec := yearOfDay_spec n
  have hzero : (0 : ℤ) < yearOfDay n + 1 :=
    dayFromYear_strictMono.lt_iff_lt.mp (h.1.trans_lt hspec.2)
  have hlast : yearOfDay n < 10000 := dayFromYear_strictMono.lt_iff_lt.mp (hspec.1.trans_lt h.2)
  exact ⟨Int.lt_add_one_iff.mp hzero, hlast⟩

theorem fourDigit_of_year (h : 0 ≤ (ofDay n).year ∧ (ofDay n).year ≤ 9999) : FourDigit n := by
  have hspec := yearOfDay_spec n
  have hyear : (ofDay n).year = yearOfDay n := rfl
  rw [hyear] at h
  constructor
  · exact (dayFromYear_strictMono.monotone h.1).trans hspec.1
  · exact hspec.2.trans_le (dayFromYear_strictMono.monotone (by omega))

theorem mul_div_dayMs (n : ℤ) : n * DAY_MS / DAY_MS = n :=
  Int.mul_ediv_cancel n (by decide)

theorem isoSlice_eq (time : ℤ) : isoSlice time = dayText (time / DAY_MS) := by
  rw [dayText, isoSlice, isoSlice, mul_div_dayMs]

theorem toList_dayText (h : FourDigit n) :
    (dayText n).toList = fourDigits (ofDay n).year.toNat ++ '-' :: twoDigits (ofDay n).month ++
      '-' :: twoDigits (ofDay n).day := by
  have hyear := h.year
  rw [dayText, isoSlice, String.toList_ofList, mul_div_dayMs, isoDate, isoYear,
    if_pos ⟨hyear.1, by omega⟩]
  rfl

theorem civil_lt (n : ℤ) : (ofDay n).month < 100 ∧ (ofDay n).day < 100 := by
  have hmonth := (ofDay n).validMonth
  have hday := (ofDay n).validDay
  have hlength : ∀ leap : Bool, ∀ month ≤ 12, daysInMonth leap month < 100 := by decide
  have hlt := hlength (isLeap (ofDay n).year) _ hmonth.2
  omega

theorem dayText_lt_iff {m : ℤ} (hm : FourDigit m) (hn : FourDigit n) :
    dayText m < dayText n ↔ m < n := by
  have hbefore : (ofDay m).Before (ofDay n) ↔ (ofDay m).toDay < (ofDay n).toDay :=
    CivilDate.before_iff
  rw [toDay_ofDay, toDay_ofDay] at hbefore
  have hyear := hm.year
  have hyear' := hn.year
  have hcivil := civil_lt m
  have hcivil' := civil_lt n
  have hdash (rest rest' : List Char) : '-' :: rest < '-' :: rest' ↔ rest < rest' := by
    simp
  rw [← hbefore, String.lt_iff, toList_dayText hm, toList_dayText hn, List.append_assoc,
    List.append_assoc, fourDigits_lt (by omega) (by omega), List.cons_append, List.cons_append,
    hdash, twoDigits_lt hcivil.1 hcivil'.1, hdash,
    ← List.append_nil (twoDigits (ofDay m).day), ← List.append_nil (twoDigits (ofDay n).day),
    twoDigits_lt hcivil.2 hcivil'.2, CivilDate.Before]
  have hnil : ¬ ([] : List Char) < [] := by simp
  simp only [hnil, and_false, or_false]
  omega

theorem dayText_injective {m : ℤ} (hm : FourDigit m) (hn : FourDigit n) (h : dayText m = dayText n) :
    m = n := by
  have hlt := dayText_lt_iff hm hn
  have hgt := dayText_lt_iff hn hm
  rw [h] at hlt hgt
  have hself : ¬ dayText n < dayText n := String.lt_irrefl _
  have hle := mt hlt.mpr hself
  have hge := mt hgt.mpr hself
  omega

theorem datePattern_dayText (h : FourDigit n) :
    DATE_PATTERN (dayText n) =
      some ((ofDay n).year.toNat, (ofDay n).month, (ofDay n).day) := by
  have hyear := h.year
  have hcivil := civil_lt n
  have hy := number_fourDigits (n := (ofDay n).year.toNat) (by omega)
  have hm := number_twoDigits hcivil.1
  have hd := number_twoDigits hcivil.2
  rw [DATE_PATTERN, toList_dayText h]
  simp only [fourDigits, twoDigits, List.cons_append, List.nil_append] at hy hm hd ⊢
  simp only [List.all_cons, List.all_nil, digit_isDigit, Bool.and_self, if_true, hy, hm, hd]

theorem parseUtcDay_dayText (h : FourDigit n) : parseUtcDay (dayText n) = some (n * DAY_MS) := by
  have hyear := h.year
  have hmonth := (ofDay n).validMonth
  have hday := (ofDay n).validDay
  have hlength : ∀ leap : Bool, ∀ month ≤ 12, daysInMonth leap month ≤ 31 := by decide
  have hle := hlength (isLeap (ofDay n).year) _ hmonth.2
  have htime : makeDay ((ofDay n).year.toNat : ℤ) ((ofDay n).month - 1) (ofDay n).day = n := by
    rw [Int.toNat_of_nonneg hyear.1, ← toDay_eq_makeDay, toDay_ofDay]
  simp only [parseUtcDay, datePattern_dayText h, dateParse, Option.bind_eq_bind, Option.bind_some]
  rw [if_pos ⟨hmonth, hday.1, by omega⟩, htime, Option.bind_some]
  exact if_pos rfl

theorem fourDigit_of_pattern {time : ℤ} {fields : ℕ × ℕ × ℕ}
    (h : DATE_PATTERN (isoSlice time) = some fields) : FourDigit (time / DAY_MS) := by
  apply fourDigit_of_year
  by_contra hyear
  rw [DATE_PATTERN, isoSlice, String.toList_ofList, isoDate, isoYear, if_neg hyear] at h
  split at h
  · rename_i htext
    split at h
    · rename_i hdigits
      simp only [List.all_cons, Bool.and_eq_true] at hdigits
      have hsign := hdigits.1
      simp only [List.cons_append, List.take_succ_cons, List.cons.injEq] at htext
      rw [← htext.1] at hsign
      split at hsign <;> cases hsign
    · cases h
  · cases h

theorem parseUtcDay_eq_some {value : String} {time : ℤ} (h : parseUtcDay value = some time) :
    ∃ n, FourDigit n ∧ value = dayText n ∧ time = n * DAY_MS := by
  simp only [parseUtcDay, Option.bind_eq_bind, Option.bind_eq_some_iff] at h
  obtain ⟨⟨year, month, day⟩, hpattern, parsed, hparsed, h⟩ := h
  split at h
  · rename_i hround
    injection h with h
    subst h
    refine ⟨parsed / DAY_MS, ?_, ?_, ?_⟩
    · rw [← hround] at hpattern
      exact fourDigit_of_pattern hpattern
    · rw [← hround, isoSlice_eq]
    · rw [dateParse] at hparsed
      split at hparsed
      · injection hparsed with hparsed
        rw [← hparsed, mul_div_dayMs]
      · cases hparsed
  · cases h

/-- The texts of as many days as are counted, from the first. -/
def daysFrom (first : ℤ) (count : ℕ) : List String :=
  (List.range count).map fun i : ℕ => dayText (first + i)

/-- The range is of as many days as are counted, from the first; the day after the last is named
too. -/
structure SalesRange.Spans (range : SalesRange) (first : ℤ) (count : ℕ) : Prop where
  fromDay : range.fromDay = dayText first
  toDay : range.toDay = dayText (first + count)
  first_fourDigit : FourDigit first
  last_fourDigit : FourDigit (first + count)
  count_pos : 0 < count

theorem validateSalesRange_eq_none (range : SalesRange) :
    validateSalesRange range.fromDay range.toDay = none ↔
      ∃ first count, range.Spans first count ∧ count ≤ 366 := by
  constructor
  · intro h
    rw [validateSalesRange] at h
    split at h
    · cases h
    · cases h
    · rename_i start stop hstart hstop
      obtain ⟨a, ha, hfrom, rfl⟩ := parseUtcDay_eq_some hstart
      obtain ⟨b, hb, hto, rfl⟩ := parseUtcDay_eq_some hstop
      split at h
      · cases h
      rename_i hlt
      split at h
      · cases h
      rename_i hlength
      rw [DAY_MS] at hlt
      rw [MAX_SALES_RANGE_DAYS, DAY_MS] at hlength
      have hend : a + ((b - a).toNat : ℤ) = b := by omega
      refine ⟨a, (b - a).toNat, ⟨hfrom, ?_, ha, ?_, by omega⟩, by omega⟩
      · rw [hend, hto]
      · rwa [hend]
  · rintro ⟨first, count, hspans, hcount⟩
    have hpos := hspans.count_pos
    rw [validateSalesRange, hspans.fromDay, hspans.toDay,
      parseUtcDay_dayText hspans.first_fourDigit, parseUtcDay_dayText hspans.last_fourDigit]
    dsimp only
    rw [if_neg, if_neg]
    · rw [MAX_SALES_RANGE_DAYS, DAY_MS]
      omega
    · rw [DAY_MS]
      omega

theorem daysUntil_eq (count : ℕ) (first : ℤ) :
    daysUntil ((first + count) * DAY_MS) (first * DAY_MS) = daysFrom first count := by
  induction count generalizing first with
  | zero =>
    rw [daysUntil, if_neg (by simp)]
    rfl
  | succ count ih =>
    have hlt : first * DAY_MS < (first + (count + 1 : ℕ)) * DAY_MS := by
      rw [DAY_MS]
      omega
    have hnext : first * DAY_MS + DAY_MS = (first + 1) * DAY_MS := by
      rw [DAY_MS]
      omega
    have hstop : first + ((count + 1 : ℕ) : ℤ) = first + 1 + (count : ℤ) := by omega
    rw [daysUntil, if_pos hlt, hnext, hstop, ih, daysFrom, daysFrom, List.range_succ_eq_map,
      List.map_cons, List.map_map]
    congr 1
    · simp [dayText]
    · refine List.map_congr_left fun i _ => congrArg dayText ?_
      have hnat : ((i + 1 : ℕ) : ℤ) = i + 1 := rfl
      omega

theorem FourDigit.between {a b : ℤ} (ha : FourDigit a) (hb : FourDigit b) (han : a ≤ n)
    (hnb : n ≤ b) : FourDigit n :=
  ⟨ha.1.trans han, hnb.trans_lt hb.2⟩

namespace SalesRange.Spans

variable {range : SalesRange} {first : ℤ} {count : ℕ}

theorem enumerateDays (h : range.Spans first count) :
    enumerateDays range.fromDay range.toDay = daysFrom first count := by
  rw [Orders.enumerateDays, h.fromDay, h.toDay, parseUtcDay_dayText h.first_fourDigit,
    parseUtcDay_dayText h.last_fourDigit]
  exact daysUntil_eq count first

theorem mem_enumerateDays (h : range.Spans first count) {n : ℤ} (hn : FourDigit n) :
    dayText n ∈ Orders.enumerateDays range.fromDay range.toDay ↔
      ¬ dayText n < range.fromDay ∧ dayText n < range.toDay := by
  rw [h.enumerateDays, h.fromDay, h.toDay, dayText_lt_iff hn h.first_fourDigit,
    dayText_lt_iff hn h.last_fourDigit, daysFrom, List.mem_map]
  constructor
  · rintro ⟨i, hi, htext⟩
    have hlt := List.mem_range.mp hi
    have hday : FourDigit (first + i) :=
      h.first_fourDigit.between h.last_fourDigit (by omega) (by omega)
    have heq := dayText_injective hday hn htext
    omega
  · rintro ⟨hfrom, hto⟩
    refine ⟨(n - first).toNat, List.mem_range.mpr (by omega), ?_⟩
    congr 1
    omega

theorem enumerateDays_pairwise (h : range.Spans first count) :
    (Orders.enumerateDays range.fromDay range.toDay).Pairwise (· < ·) := by
  rw [h.enumerateDays, daysFrom, List.pairwise_map]
  refine List.Pairwise.imp_of_mem ?_ (List.pairwise_lt_range (n := count))
  intro i j hi hj hlt
  have hi' := List.mem_range.mp hi
  have hj' := List.mem_range.mp hj
  rw [dayText_lt_iff]
  · omega
  · exact h.first_fourDigit.between h.last_fourDigit (by omega) (by omega)
  · exact h.first_fourDigit.between h.last_fourDigit (by omega) (by omega)

theorem previous (h : range.Spans first count) (hbefore : FourDigit (first - count)) :
    (previousSalesRange range.fromDay range.toDay).Spans (first - count) count := by
  have hstart : previousSalesRange range.fromDay range.toDay =
      ⟨dayText (first - count), dayText first⟩ := by
    rw [previousSalesRange, h.fromDay, h.toDay, parseUtcDay_dayText h.first_fourDigit,
      parseUtcDay_dayText h.last_fourDigit]
    have htime : first * DAY_MS - ((first + count) * DAY_MS - first * DAY_MS) =
        (first - count) * DAY_MS := by
      rw [DAY_MS]
      omega
    dsimp only
    rw [htime]
    rfl
  have hend : first - (count : ℤ) + count = first := by omega
  rw [hstart]
  exact ⟨rfl, by rw [hend], hbefore, by rw [hend]; exact h.first_fourDigit, h.count_pos⟩

end SalesRange.Spans

/-- As many days as the preset promises. -/
def SalesRangePreset.length (preset : SalesRangePreset) (today : ℤ) : ℕ :=
  match preset with
  | .today => 1
  | .yesterday => 1
  | .sevenDays => 7
  | .thirtyDays => 30
  | .month => (ofDay today).day

/-- The day after the last. -/
def SalesRangePreset.stop (preset : SalesRangePreset) (today : ℤ) : ℤ :=
  match preset with
  | .yesterday => today
  | _ => today + 1

section Presets

variable {preset : SalesRangePreset} {today : ℤ}

theorem shiftDay_dayText (h : FourDigit today) (days : ℤ) :
    shiftDay (dayText today) days = dayText (today + days) := by
  have htime : today * DAY_MS + days * DAY_MS = (today + days) * DAY_MS := (Int.add_mul ..).symm
  rw [shiftDay, parseUtcDay_dayText h]
  dsimp only
  rw [htime]
  rfl

theorem monthStart_text (h : FourDigit today) :
    FourDigit (today + 1 - (ofDay today).day) ∧
      String.ofList ((dayText today).toList.take 7 ++ ['-', '0', '1']) =
        dayText (today + 1 - (ofDay today).day) := by
  have hfirst := ofDay_first (ofDay today)
  rw [toDay_ofDay] at hfirst
  have hyear := h.year
  have hfour : FourDigit (today + 1 - (ofDay today).day) := by
    apply fourDigit_of_year
    rw [hfirst]
    dsimp only
    omega
  refine ⟨hfour, String.toList_injective ?_⟩
  have hone : twoDigits 1 = ['0', '1'] := by decide
  rw [String.toList_ofList, toList_dayText h, toList_dayText hfour, hfirst]
  dsimp only
  rw [hone]
  rfl

theorem resolveSalesRange_fromDay (h : FourDigit today) :
    (resolveSalesRange preset (dayText today)).fromDay =
      dayText (preset.stop today - preset.length today) := by
  cases preset with
  | today =>
    simp only [resolveSalesRange, SalesRangePreset.stop, SalesRangePreset.length, Nat.cast_one,
      Int.add_sub_cancel]
  | yesterday =>
    simp only [resolveSalesRange, shiftDay_dayText h]
    rfl
  | sevenDays =>
    have hstart : today + -6 = today + 1 - 7 := by omega
    simp only [resolveSalesRange, shiftDay_dayText h, hstart]
    rfl
  | thirtyDays =>
    have hstart : today + -29 = today + 1 - 30 := by omega
    simp only [resolveSalesRange, shiftDay_dayText h, hstart]
    rfl
  | month =>
    simp only [resolveSalesRange, (monthStart_text h).2]
    rfl

theorem resolveSalesRange_toDay (h : FourDigit today) :
    (resolveSalesRange preset (dayText today)).toDay = dayText (preset.stop today) := by
  cases preset with
  | yesterday => rfl
  | _ => simp only [resolveSalesRange, shiftDay_dayText h, SalesRangePreset.stop]

theorem length_pos : 0 < preset.length today := by
  have hday := (ofDay today).validDay
  cases preset with
  | month => exact hday.1
  | _ => exact Nat.succ_pos _

theorem resolveSalesRange_spans (h : FourDigit today) (hstop : FourDigit (preset.stop today))
    (hfirst : FourDigit (preset.stop today - preset.length today)) :
    (resolveSalesRange preset (dayText today)).Spans (preset.stop today - preset.length today)
      (preset.length today) := by
  have hend : preset.stop today - (preset.length today : ℤ) + preset.length today =
      preset.stop today := by omega
  refine ⟨resolveSalesRange_fromDay h, ?_, hfirst, ?_, length_pos⟩
  · rw [hend, resolveSalesRange_toDay h]
  · rwa [hend]

theorem previousPresetRange_spans (hpreset : preset ≠ .month) (h : FourDigit today)
    (hstop : FourDigit (preset.stop today))
    (hfirst : FourDigit (preset.stop today - preset.length today - preset.length today)) :
    ∃ previous, previousPresetRange preset (dayText today) = some previous ∧
      previous.Spans (preset.stop today - preset.length today - preset.length today)
        (preset.length today) := by
  have hrange := resolveSalesRange_spans h hstop (hfirst.between hstop (by omega) (by omega))
  refine ⟨_, if_pos hpreset, hrange.previous hfirst⟩

/-- The last month, from its first day. -/
def lastMonthFirst (today : ℤ) : ℤ := makeDay (ofDay today).year ((ofDay today).month - 2) 1

def lastMonthLength (today : ℤ) : ℕ := monthLength (ofDay today).year ((ofDay today).month - 2)

theorem lastMonth_adjacent (today : ℤ) :
    lastMonthFirst today + lastMonthLength today = today + 1 - (ofDay today).day := by
  have htoday := toDay_eq_makeDay (ofDay today)
  have hsucc := makeDay_succ (ofDay today).year ((ofDay today).month - 2) 1
  have hshift := makeDay_add (ofDay today).year ((ofDay today).month - 1) 1 ((ofDay today).day - 1)
  have hmonth : ((ofDay today).month : ℤ) - 2 + 1 = (ofDay today).month - 1 := by omega
  have hday : 1 + (((ofDay today).day : ℤ) - 1) = (ofDay today).day := by omega
  rw [toDay_ofDay] at htoday
  rw [hmonth] at hsucc
  rw [hday, ← htoday] at hshift
  rw [lastMonthFirst, lastMonthLength, ← hsucc]
  omega

/-- The month to date is compared with as many days of the last month, from its first, or with all
of it where it is shorter. -/
theorem previousMonth_spans (h : FourDigit today) (hyear : 100 ≤ (ofDay today).year) :
    ∃ previous, previousPresetRange .month (dayText today) = some previous ∧
      previous.Spans (lastMonthFirst today)
        (min (ofDay today).day (lastMonthLength today)) := by
  have hadjacent := lastMonth_adjacent today
  have hpos : 1 ≤ lastMonthLength today := monthLength_pos _ _
  have hday := (ofDay today).validDay
  have hlengths : ∀ leap : Bool, ∀ month ≤ 12, daysInMonth leap month ≤ 31 := by decide
  have hlength : lastMonthLength today ≤ 31 := hlengths _ _ (by omega)
  have hday' := hlengths (isLeap (ofDay today).year) _ (ofDay today).validMonth.2
  have hfour : FourDigit (lastMonthFirst today) := by
    have hstart : dayFromYear 100 ≤ today :=
      (dayFromYear_strictMono.monotone hyear).trans (yearOfDay_spec today).1
    have hzero : dayFromYear 0 + 62 ≤ dayFromYear 100 := by decide
    have hlast := h.2
    constructor <;> omega
  have hfirst := monthStart_text h
  have hyearCast : (((ofDay today).year.toNat : ℕ) : ℤ) = (ofDay today).year :=
    Int.toNat_of_nonneg h.year.1
  have hutc (month day : ℤ) : dateUTC (ofDay today).year.toNat month day =
      makeDay (ofDay today).year month day * DAY_MS := by
    rw [dateUTC, hyearCast, if_neg (by omega)]
  have hlast : getUTCDate (dateUTC (ofDay today).year.toNat ((ofDay today).month - 1) 0) =
      lastMonthLength today := by
    have hsucc := makeDay_succ (ofDay today).year ((ofDay today).month - 2) 0
    have hmonth : ((ofDay today).month : ℤ) - 2 + 1 = (ofDay today).month - 1 := by omega
    have hadd := makeDay_add (ofDay today).year ((ofDay today).month - 2) 0
      (lastMonthLength today)
    rw [hmonth] at hsucc
    rw [Int.zero_add] at hadd
    rw [hutc, getUTCDate, mul_div_dayMs, hsucc, ← lastMonthLength, ← hadd]
    exact ofDay_makeDay ⟨hpos, le_rfl⟩
  have hnext := makeDay_add (ofDay today).year ((ofDay today).month - 2) 1 (ofDay today).day
  have hcomm : ((ofDay today).day : ℤ) + 1 = 1 + (ofDay today).day := Int.add_comm _ _
  have hend : (if lastMonthLength today ≤ (ofDay today).day
      then dayText (today + 1 - (ofDay today).day)
      else isoSlice (makeDay (ofDay today).year ((ofDay today).month - 2)
        ((ofDay today).day + 1) * DAY_MS)) =
      dayText (lastMonthFirst today + (min (ofDay today).day (lastMonthLength today) : ℕ)) := by
    by_cases hle : lastMonthLength today ≤ (ofDay today).day
    · rw [if_pos hle, min_eq_right hle, hadjacent]
    · rw [if_neg hle, min_eq_left (by omega), hcomm, hnext]
      rfl
  refine ⟨⟨dayText (lastMonthFirst today), dayText (lastMonthFirst today +
    (min (ofDay today).day (lastMonthLength today) : ℕ))⟩, ?_, rfl, rfl, hfour, ?_, ?_⟩
  · rw [← hend]
    simp only [previousPresetRange, datePattern_dayText h, resolveSalesRange, hfirst.2, hutc,
      ne_eq, not_true_eq_false, if_false, Option.bind_eq_bind, Option.bind_some]
    rw [hutc] at hlast
    rw [hlast]
    rfl
  · exact hfour.between hfirst.1 (by omega) (by omega)
  · exact Nat.lt_min.mpr ⟨hday.1, hpos⟩

end Presets

end Orders
