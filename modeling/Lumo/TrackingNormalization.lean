import Lumo.TrackingRecord

/-! # The normalization of an identity

Each matchable field is brought to one form before it is hashed. The tables of Unicode are
parameters; of them it is known that what is lower case stays so. -/
namespace Tracking

open SharedKernel Builtins

structure UnicodeTables where
  lowercaseMapping : Char → List Char
  cased : Char → Bool
  caseIgnorable : Char → Bool
  letterOrNumber : Char → Bool
  lowered : ∀ c, ∀ d ∈ lowercaseMapping c, d ≠ 'Σ' ∧ lowercaseMapping d = [d]
  sigma : ∀ d ∈ ['σ', 'ς'], lowercaseMapping d = [d]
  notWhitespace : ∀ c, letterOrNumber c = true → isWhitespace c = false
  visible : ∀ c, isWhitespace c = false → ∃ d ∈ lowercaseMapping c, isWhitespace d = false

namespace UnicodeTables

variable (tables : UnicodeTables)

/-- A cased letter comes next, after characters that case ignores. -/
def meetsCased : List Char → Bool
  | [] => false
  | c :: rest => tables.cased c || tables.caseIgnorable c && meetsCased rest

/-- `toLowerCase`, after the characters before, from the last one back. A sigma that ends a word has
a form of its own. -/
def lowerChars (before : List Char) : List Char → List Char
  | [] => []
  | c :: rest =>
    (if c = 'Σ' then
      if tables.meetsCased before && !tables.meetsCased rest then ['ς'] else ['σ']
    else tables.lowercaseMapping c) ++ lowerChars (c :: before) rest

def toLowerCase (value : String) : String := String.ofList (tables.lowerChars [] value.toList)

end UnicodeTables

/-- `replace(/\s+/g, " ")`. -/
def collapse : Bool → List Char → List Char
  | _, [] => []
  | within, c :: rest =>
    if isWhitespace c then
      if within then collapse true rest else ' ' :: collapse true rest
    else c :: collapse false rest

def nonEmpty (value : List Char) : Option String :=
  if value = [] then none else some (String.ofList value)

def clean (value : Option String) : Option String :=
  value.bind fun value => nonEmpty (collapse false (trim value).toList)

/-- `/^[^@\s]+@[^@\s]+\.[^@\s]+$/`. -/
def isEmail (value : List Char) : Bool :=
  let domain := (value.dropWhile fun c => c ≠ '@').drop 1
  !value.any isWhitespace && value.head? ≠ some '@' && value.count '@' = 1 &&
    (domain.drop 1).dropLast.contains '.'

def digitsOf (value : String) : List Char := value.toList.filter Char.isDigit

/-- `normalizePhone`: a national number needs the country code to go with it. -/
def normalizePhone (phone defaultCountryCode : Option String) : Option String :=
  (clean phone).bind fun cleaned =>
    let digits := digitsOf cleaned
    if digits = [] then none
    else if cleaned.toList.head? = some '+' then
      if 8 ≤ digits.length ∧ digits.length ≤ 15 then some (String.ofList ('+' :: digits)) else none
    else
      let cc := (defaultCountryCode.map digitsOf).getD []
      let national := digits.dropWhile fun c => c = '0'
      let e164 := '+' :: (cc ++ national)
      if cc = [] then none
      else if national = [] then none
      else if 9 ≤ e164.length ∧ e164.length ≤ 16 then some (String.ofList e164)
      else none

/-- `YYYYMMDD`. -/
def normalizeBirthDate (birthDate : Option String) : Option String :=
  (clean birthDate).bind fun cleaned =>
    let digits := digitsOf cleaned
    let year := Nat.ofDigitChars 10 (digits.take 4) 0
    let month := Nat.ofDigitChars 10 ((digits.drop 4).take 2) 0
    let day := Nat.ofDigitChars 10 (digits.drop 6) 0
    if digits.length ≠ 8 then none
    else if year < 1900 ∨ month < 1 ∨ month > 12 ∨ day < 1 ∨ day > 31 then none
    else some (String.ofList digits)

section Fields

variable (tables : UnicodeTables)

def lowered (value : Option String) : Option String := (clean value).map tables.toLowerCase

def normalizeEmail (email : Option String) : Option String :=
  (lowered tables email).filter fun cleaned => isEmail cleaned.toList

def normalizeName (name : Option String) : Option String :=
  (lowered tables name).bind fun cleaned => nonEmpty (cleaned.toList.filter tables.letterOrNumber)

def normalizeCity (city : Option String) : Option String := normalizeName tables city

def normalizeState (state : Option String) : Option String := normalizeName tables state

def isLatin (c : Char) : Bool := 'a' ≤ c && c ≤ 'z'

def normalizeCountry (country : Option String) : Option String :=
  (lowered tables country).bind fun cleaned =>
    let letters := cleaned.toList.filter isLatin
    if letters.length = 2 then some (String.ofList letters) else none

def normalizePostalCode (postalCode country : Option String) : Option String :=
  (lowered tables postalCode).bind fun cleaned =>
    if normalizeCountry tables country = some "us" then
      let digits := digitsOf cleaned
      if 5 ≤ digits.length then some (String.ofList (digits.take 5)) else none
    else some (String.ofList (cleaned.toList.filter fun c => !isWhitespace c))

def normalizeGender (gender : Option String) : Option String :=
  (lowered tables gender).bind fun cleaned =>
    if cleaned.toList.head? = some 'm' then some "m"
    else if cleaned.toList.head? = some 'f' then some "f"
    else none

end Fields

/-- `IdentityContext`, where the fields that are copied unread are one. -/
structure PersonContext (κ : Type) where
  email : Option String
  phone : Option String
  firstName : Option String
  lastName : Option String
  city : Option String
  state : Option String
  country : Option String
  postalCode : Option String
  gender : Option String
  birthDate : Option String
  hashStatus : Option HashStatus
  others : κ

variable {κ : Type}

def normalizeIdentity (tables : UnicodeTables) (defaultCountryCode : Option String)
    (identity : PersonContext κ) : PersonContext κ :=
  { identity with
    email := normalizeEmail tables identity.email
    phone := normalizePhone identity.phone defaultCountryCode
    firstName := normalizeName tables identity.firstName
    lastName := normalizeName tables identity.lastName
    city := normalizeCity tables identity.city
    state := normalizeState tables identity.state
    country := normalizeCountry tables identity.country
    postalCode := normalizePostalCode tables identity.postalCode identity.country
    gender := normalizeGender tables identity.gender
    birthDate := normalizeBirthDate identity.birthDate
    hashStatus := some .raw }

section Hashing

variable (sha256Hex : String → String)

def hashField (value : Option String) : Option String :=
  value.map fun value => if isBlank value then value else sha256Hex value

/-- `hashIdentity`, which refuses a block that is not raw. -/
def hashIdentity (identity : PersonContext κ) : Option (PersonContext κ) :=
  if identity.hashStatus ≠ some .raw then none
  else some { identity with
    email := hashField sha256Hex identity.email
    phone := hashField sha256Hex identity.phone
    firstName := hashField sha256Hex identity.firstName
    lastName := hashField sha256Hex identity.lastName
    city := hashField sha256Hex identity.city
    state := hashField sha256Hex identity.state
    country := hashField sha256Hex identity.country
    postalCode := hashField sha256Hex identity.postalCode
    gender := hashField sha256Hex identity.gender
    birthDate := hashField sha256Hex identity.birthDate
    hashStatus := some .sha256 }

/-- `prepareIdentity` of a delivery. -/
def prepareIdentifiers (tables : UnicodeTables) (defaultCountryCode : Option String)
    (identity : PersonContext κ) : Option (PersonContext κ) :=
  if identity.hashStatus ≠ some .raw then some identity
  else hashIdentity sha256Hex (normalizeIdentity tables defaultCountryCode identity)

end Hashing

section Lower

variable {tables : UnicodeTables}

/-- The character stays as it is, wherever it stands. -/
def UnicodeTables.Lowered (tables : UnicodeTables) (c : Char) : Prop :=
  c ≠ 'Σ' ∧ tables.lowercaseMapping c = [c]

variable {before l : List Char} {c : Char}

theorem lowered_lowerChars (h : c ∈ tables.lowerChars before l) : tables.Lowered c := by
  induction l generalizing before with
  | nil => cases h
  | cons d rest ih =>
    rw [UnicodeTables.lowerChars] at h
    rcases List.mem_append.mp h with hmapped | hrest
    · have hsigma : ∀ e ∈ ['σ', 'ς'], tables.Lowered e := fun e he =>
        ⟨by rcases List.mem_pair.mp he with rfl | rfl <;> decide, tables.sigma e he⟩
      split at hmapped
      · split at hmapped
        · exact hsigma c (List.mem_cons_of_mem _ hmapped)
        · rw [List.mem_singleton.mp hmapped]
          exact hsigma 'σ' List.mem_cons_self
      · exact tables.lowered d c hmapped
    · exact ih hrest

theorem lowerChars_eq (h : ∀ c ∈ l, tables.Lowered c) : tables.lowerChars before l = l := by
  induction l generalizing before with
  | nil => rfl
  | cons c rest ih =>
    obtain ⟨hsigma, hsame⟩ := h c List.mem_cons_self
    rw [UnicodeTables.lowerChars, if_neg hsigma, hsame,
      ih fun d hd => h d (List.mem_cons_of_mem _ hd)]
    rfl

theorem toLowerCase_eq {value : String} (h : ∀ c ∈ value.toList, tables.Lowered c) :
    tables.toLowerCase value = value := by
  rw [UnicodeTables.toLowerCase, lowerChars_eq h, String.ofList_toList]

theorem lowered_of_lower {value : Option String} {cleaned : String}
    (h : lowered tables value = some cleaned) : ∀ c ∈ cleaned.toList, tables.Lowered c := by
  obtain ⟨source, -, rfl⟩ := Option.map_eq_some_iff.mp h
  intro c hc
  rw [UnicodeTables.toLowerCase, String.toList_ofList] at hc
  exact lowered_lowerChars hc

theorem lowerChars_visible (h : c ∈ l) (hc : isWhitespace c = false) :
    ∃ d ∈ tables.lowerChars before l, isWhitespace d = false := by
  induction l generalizing before with
  | nil => cases h
  | cons e rest ih =>
    rw [UnicodeTables.lowerChars]
    simp only [List.mem_append]
    rcases List.mem_cons.mp h with rfl | h
    · split
      · split
        · exact ⟨'ς', .inl List.mem_cons_self, by decide⟩
        · exact ⟨'σ', .inl List.mem_cons_self, by decide⟩
      · obtain ⟨d, hd, hshow⟩ := tables.visible c hc
        exact ⟨d, .inl hd, hshow⟩
    · obtain ⟨d, hd, hshow⟩ := @ih (e :: before) h
      exact ⟨d, .inr hd, hshow⟩

end Lower

section Clean

theorem collapse_eq {l : List Char} (h : ∀ c ∈ l, isWhitespace c = false) (within : Bool) :
    collapse within l = l := by
  induction l generalizing within with
  | nil => rfl
  | cons c rest ih =>
    rw [collapse, if_neg (by simp [h c List.mem_cons_self]),
      ih fun d hd => h d (List.mem_cons_of_mem _ hd)]

theorem trim_eq {value : String} (h : ∀ c ∈ value.toList, isWhitespace c = false) :
    trim value = value := by
  have hdrop (l : List Char) (hl : ∀ c ∈ l, isWhitespace c = false) :
      l.dropWhile isWhitespace = l := by
    cases l with
    | nil => rfl
    | cons c rest => exact List.dropWhile_cons_of_neg (by simp [hl c List.mem_cons_self])
  rw [trim, hdrop _ h, hdrop _ (by simpa using h), List.reverse_reverse, String.ofList_toList]

theorem clean_eq {l : List Char} (hne : l ≠ []) (h : ∀ c ∈ l, isWhitespace c = false) :
    clean (some (String.ofList l)) = some (String.ofList l) := by
  rw [clean, Option.bind_some, trim_eq (by simpa using h), String.toList_ofList, collapse_eq h,
    nonEmpty, if_neg hne]

theorem mem_collapse {l : List Char} {c : Char} (hc : isWhitespace c = false) (h : c ∈ l)
    (within : Bool) : c ∈ collapse within l := by
  induction l generalizing within with
  | nil => cases h
  | cons d rest ih =>
    rw [collapse]
    rcases List.mem_cons.mp h with rfl | h
    · rw [if_neg (by simp [hc])]
      exact List.mem_cons_self
    · split
      · split
        · exact ih h _
        · exact List.mem_cons_of_mem _ (ih h _)
      · exact List.mem_cons_of_mem _ (ih h _)

theorem trim_visible {value : String} (h : trim value ≠ "") :
    ∃ c ∈ (trim value).toList, isWhitespace c = false := by
  by_contra hnone
  have hall : isBlank (trim value) = true := by
    rw [isBlank, List.all_eq_true]
    exact fun c hc => by_contra fun hshow => hnone ⟨c, hc, by simpa using hshow⟩
  rw [isBlank_trim, isBlank, List.all_eq_true] at hall
  rw [trim, List.dropWhile_eq_nil_iff.mpr hall] at h
  exact h rfl

variable {cleaned : String} {value : Option String}

/-- A value that is not dropped shows something. -/
theorem clean_visible (h : clean value = some cleaned) :
    ∃ c ∈ cleaned.toList, isWhitespace c = false := by
  obtain ⟨raw, -, hraw⟩ := Option.bind_eq_some_iff.mp h
  rw [nonEmpty] at hraw
  split at hraw
  · cases hraw
  · rename_i hne
    obtain ⟨c, hc, hshow⟩ := @trim_visible raw fun hempty => hne (by rw [hempty]; rfl)
    obtain rfl := Option.some.inj hraw
    exact ⟨c, by rw [String.toList_ofList]; exact mem_collapse hshow hc false, hshow⟩

/-- The value is what it is brought to. -/
structure Settled (tables : UnicodeTables) (l : List Char) : Prop where
  nonempty : l ≠ []
  spaceless : ∀ c ∈ l, isWhitespace c = false
  lower : ∀ c ∈ l, tables.Lowered c

variable {tables : UnicodeTables} {l : List Char}

theorem Settled.lowered_eq (h : Settled tables l) :
    lowered tables (some (String.ofList l)) = some (String.ofList l) := by
  rw [lowered, clean_eq h.nonempty h.spaceless, Option.map_some,
    toLowerCase_eq (by simpa using h.lower)]

theorem lowered_visible (h : lowered tables value = some cleaned) :
    ∃ c ∈ cleaned.toList, isWhitespace c = false := by
  obtain ⟨source, hclean, rfl⟩ := Option.map_eq_some_iff.mp h
  obtain ⟨c, hc, hshow⟩ := clean_visible hclean
  rw [UnicodeTables.toLowerCase, String.toList_ofList]
  exact lowerChars_visible hc hshow

end Clean

section Idempotent

variable {tables : UnicodeTables}

theorem isLatin_not_whitespace {c : Char} (h : isLatin c = true) : isWhitespace c = false := by
  simp only [isLatin, Bool.and_eq_true, decide_eq_true_eq, Char.le_def, UInt32.le_iff_toNat_le] at h
  obtain ⟨hlow, hhigh⟩ : 97 ≤ c.toNat ∧ c.toNat ≤ 122 := h
  exact graphic_not_whitespace (by omega)

theorem normalizeEmail_normalizeEmail (email : Option String) :
    normalizeEmail tables (normalizeEmail tables email) = normalizeEmail tables email := by
  cases h : normalizeEmail tables email with
  | none => rfl
  | some value =>
    obtain ⟨hlowered, hemail⟩ := Option.filter_eq_some_iff.mp h
    have hsettled : Settled tables value.toList := by
      refine ⟨?_, ?_, lowered_of_lower hlowered⟩
      · rintro hnil
        simp [isEmail, hnil] at hemail
      · simp only [isEmail, Bool.and_eq_true, Bool.not_eq_true', List.any_eq_false] at hemail
        simpa using hemail.1.1.1
    have hsame := hsettled.lowered_eq
    rw [String.ofList_toList] at hsame
    rw [normalizeEmail, hsame, Option.filter_some, if_pos hemail]

theorem normalizeName_normalizeName (name : Option String) :
    normalizeName tables (normalizeName tables name) = normalizeName tables name := by
  cases h : normalizeName tables name with
  | none => rfl
  | some value =>
    obtain ⟨cleaned, hlowered, hvalue⟩ := Option.bind_eq_some_iff.mp h
    rw [nonEmpty] at hvalue
    split at hvalue
    · cases hvalue
    rename_i hne
    cases hvalue
    have hsettled : Settled tables (cleaned.toList.filter tables.letterOrNumber) :=
      ⟨hne, fun c hc => tables.notWhitespace c (List.mem_filter.mp hc).2,
        fun c hc => lowered_of_lower hlowered c (List.mem_filter.mp hc).1⟩
    rw [normalizeName, hsettled.lowered_eq, Option.bind_some, String.toList_ofList,
      List.filter_filter]
    simp only [Bool.and_self]
    rw [nonEmpty, if_neg hne]

theorem normalizeCountry_normalizeCountry (country : Option String) :
    normalizeCountry tables (normalizeCountry tables country) =
      normalizeCountry tables country := by
  cases h : normalizeCountry tables country with
  | none => rfl
  | some value =>
    obtain ⟨cleaned, hlowered, hvalue⟩ := Option.bind_eq_some_iff.mp h
    simp only at hvalue
    split at hvalue
    · rename_i htwo
      cases hvalue
      have hsettled : Settled tables (cleaned.toList.filter isLatin) := by
        refine ⟨?_, fun c hc => isLatin_not_whitespace (List.mem_filter.mp hc).2,
          fun c hc => lowered_of_lower hlowered c (List.mem_filter.mp hc).1⟩
        intro hnil
        rw [hnil] at htwo
        cases htwo
      rw [normalizeCountry, hsettled.lowered_eq, Option.bind_some, String.toList_ofList,
        List.filter_filter]
      simp only [Bool.and_self, htwo, if_true]
    · cases hvalue

theorem normalizePostalCode_normalizeCountry (postalCode country : Option String) :
    normalizePostalCode tables postalCode (normalizeCountry tables country) =
      normalizePostalCode tables postalCode country := by
  rw [normalizePostalCode, normalizePostalCode, normalizeCountry_normalizeCountry]

theorem digitsOf_ofList {l : List Char} (h : ∀ c ∈ l, c.isDigit = true) :
    digitsOf (String.ofList l) = l := by
  rw [digitsOf, String.toList_ofList, List.filter_eq_self.mpr h]

theorem normalizePostalCode_normalizePostalCode (postalCode country : Option String) :
    normalizePostalCode tables (normalizePostalCode tables postalCode country) country =
      normalizePostalCode tables postalCode country := by
  cases h : normalizePostalCode tables postalCode country with
  | none => rfl
  | some value =>
    obtain ⟨cleaned, hlowered, hvalue⟩ := Option.bind_eq_some_iff.mp h
    by_cases hus : normalizeCountry tables country = some "us"
    · rw [if_pos hus] at hvalue
      simp only at hvalue
      split at hvalue
      · rename_i hfive
        cases hvalue
        have hdigits : ∀ c ∈ (digitsOf cleaned).take 5, c ∈ cleaned.toList ∧ c.isDigit = true :=
          fun c hc => List.mem_filter.mp (List.mem_of_mem_take hc)
        have hlength : ((digitsOf cleaned).take 5).length = 5 := List.length_take_of_le hfive
        have hsettled : Settled tables ((digitsOf cleaned).take 5) := by
          refine ⟨?_, fun c hc => isDigit_not_whitespace (hdigits c hc).2,
            fun c hc => lowered_of_lower hlowered c (hdigits c hc).1⟩
          intro hnil
          rw [hnil] at hlength
          cases hlength
        rw [normalizePostalCode, hsettled.lowered_eq, Option.bind_some, if_pos hus,
          digitsOf_ofList fun c hc => (hdigits c hc).2]
        simp only [hlength, le_refl, if_true, List.take_take, min_self]
      · cases hvalue
    · rw [if_neg hus] at hvalue
      cases hvalue
      have hsettled : Settled tables (cleaned.toList.filter fun c => !isWhitespace c) := by
        refine ⟨?_, fun c hc => by simpa using (List.mem_filter.mp hc).2,
          fun c hc => lowered_of_lower hlowered c (List.mem_filter.mp hc).1⟩
        obtain ⟨c, hc, hshow⟩ := lowered_visible hlowered
        exact List.ne_nil_of_mem (List.mem_filter.mpr ⟨hc, by simp [hshow]⟩)
      rw [normalizePostalCode, hsettled.lowered_eq, Option.bind_some, if_neg hus,
        String.toList_ofList, List.filter_filter]
      simp only [Bool.and_self]

theorem normalizeGender_normalizeGender (gender : Option String) :
    normalizeGender tables (normalizeGender tables gender) = normalizeGender tables gender := by
  cases h : normalizeGender tables gender with
  | none => rfl
  | some value =>
    obtain ⟨cleaned, hlowered, hvalue⟩ := Option.bind_eq_some_iff.mp h
    have hletter {c : Char} (hhead : cleaned.toList.head? = some c)
        (hspace : isWhitespace c = false) : Settled tables [c] := by
      refine ⟨List.cons_ne_nil _ _, by simpa using hspace, ?_⟩
      simpa using lowered_of_lower hlowered c (List.mem_of_mem_head? hhead)
    split at hvalue
    · rename_i hm
      cases hvalue
      have hsame := (hletter hm (by decide)).lowered_eq
      rw [normalizeGender, show "m" = String.ofList ['m'] from rfl, hsame]
      rfl
    · split at hvalue
      · rename_i hf
        cases hvalue
        have hsame := (hletter hf (by decide)).lowered_eq
        rw [normalizeGender, show "f" = String.ofList ['f'] from rfl, hsame]
        rfl
      · cases hvalue

theorem normalizePhone_e164 {digits : List Char} (h : ∀ c ∈ digits, c.isDigit = true)
    (hlow : 8 ≤ digits.length) (hhigh : digits.length ≤ 15) (code : Option String) :
    normalizePhone (some (String.ofList ('+' :: digits))) code =
      some (String.ofList ('+' :: digits)) := by
  have hspace : ∀ c ∈ '+' :: digits, isWhitespace c = false := by
    intro c hc
    rcases List.mem_cons.mp hc with rfl | hc
    · decide
    · exact isDigit_not_whitespace (h c hc)
  have hdigits : digitsOf (String.ofList ('+' :: digits)) = digits := by
    rw [digitsOf, String.toList_ofList, List.filter_cons_of_neg (by decide),
      List.filter_eq_self.mpr h]
  have hne : digits ≠ [] := List.ne_nil_of_length_pos (by omega)
  rw [normalizePhone, clean_eq (List.cons_ne_nil _ _) hspace, Option.bind_some]
  simp only [hdigits, hne, if_false, String.toList_ofList, List.head?_cons, if_true, hlow, hhigh,
    and_self]

/-- A phone number comes with the plus sign of its country code. -/
theorem normalizePhone_some {phone code : Option String} {value : String}
    (h : normalizePhone phone code = some value) : ∃ digits, value = String.ofList ('+' :: digits) ∧
      (∀ c ∈ digits, c.isDigit = true) ∧ 8 ≤ digits.length ∧ digits.length ≤ 15 := by
  obtain ⟨cleaned, -, hvalue⟩ := Option.bind_eq_some_iff.mp h
  have hdigits (text : String) : ∀ c ∈ digitsOf text, c.isDigit = true :=
    fun c hc => (List.mem_filter.mp hc).2
  simp only at hvalue
  split at hvalue
  · cases hvalue
  split at hvalue
  · split at hvalue
    · rename_i hlength
      cases hvalue
      exact ⟨_, rfl, hdigits cleaned, hlength.1, hlength.2⟩
    · cases hvalue
  split at hvalue
  · cases hvalue
  split at hvalue
  · cases hvalue
  split at hvalue
  · rename_i hlength
    cases hvalue
    refine ⟨_, rfl, fun c hc => ?_, ?_, ?_⟩
    · rcases List.mem_append.mp hc with hc | hc
      · cases code with
        | none => cases hc
        | some code => exact hdigits code c hc
      · exact hdigits cleaned c ((List.dropWhile_sublist _).subset hc)
    · have hlow := hlength.1
      rw [List.length_cons] at hlow
      omega
    · have hhigh := hlength.2
      rw [List.length_cons] at hhigh
      omega
  · cases hvalue

theorem normalizePhone_normalizePhone (phone code code' : Option String) :
    normalizePhone (normalizePhone phone code) code' = normalizePhone phone code := by
  cases h : normalizePhone phone code with
  | none => rfl
  | some value =>
    obtain ⟨digits, rfl, hdigits, hlow, hhigh⟩ := normalizePhone_some h
    exact normalizePhone_e164 hdigits hlow hhigh code'

theorem normalizeBirthDate_normalizeBirthDate (birthDate : Option String) :
    normalizeBirthDate (normalizeBirthDate birthDate) = normalizeBirthDate birthDate := by
  cases h : normalizeBirthDate birthDate with
  | none => rfl
  | some value =>
    obtain ⟨cleaned, -, hvalue⟩ := Option.bind_eq_some_iff.mp h
    simp only at hvalue
    split at hvalue
    · cases hvalue
    rename_i hlength
    split at hvalue
    · cases hvalue
    rename_i hdate
    cases hvalue
    have hdigits : ∀ c ∈ digitsOf cleaned, c.isDigit = true := fun c hc => (List.mem_filter.mp hc).2
    have hne : digitsOf cleaned ≠ [] := by
      intro hnil
      exact hlength (by rw [hnil]; decide)
    rw [normalizeBirthDate, clean_eq hne fun c hc => isDigit_not_whitespace (hdigits c hc),
      Option.bind_some, digitsOf_ofList hdigits]
    simp only [hlength, hdate, if_false]

end Idempotent

variable {tables : UnicodeTables} {code : Option String}

theorem normalizeIdentity_normalizeIdentity (identity : PersonContext κ) :
    normalizeIdentity tables code (normalizeIdentity tables code identity) =
      normalizeIdentity tables code identity := by
  simp only [normalizeIdentity, normalizeCity, normalizeState, normalizeEmail_normalizeEmail,
    normalizePhone_normalizePhone, normalizeName_normalizeName, normalizeCountry_normalizeCountry,
    normalizePostalCode_normalizeCountry, normalizePostalCode_normalizePostalCode,
    normalizeGender_normalizeGender, normalizeBirthDate_normalizeBirthDate]

theorem prepareIdentifiers_raw {sha256Hex : String → String} {identity : PersonContext κ}
    (h : identity.hashStatus = some .raw) : prepareIdentifiers sha256Hex tables code identity =
      hashIdentity sha256Hex (normalizeIdentity tables code identity) := by
  rw [prepareIdentifiers, if_neg (not_not.mpr h)]

def isCapital (c : Char) : Bool := 'A' ≤ c && c ≤ 'Z'

def latinMapping (c : Char) : List Char :=
  if c = 'Σ' then ['σ'] else if isCapital c then [Char.ofNat (c.toNat + 32)] else [c]

theorem latin_of_capital {c : Char} (h : isCapital c = true) :
    isLatin (Char.ofNat (c.toNat + 32)) = true ∧ Char.ofNat (c.toNat + 32) ≠ 'Σ' ∧
      isCapital (Char.ofNat (c.toNat + 32)) = false := by
  have hall : ∀ n < 26, isLatin (Char.ofNat (n + 65 + 32)) = true ∧
      Char.ofNat (n + 65 + 32) ≠ 'Σ' ∧ isCapital (Char.ofNat (n + 65 + 32)) = false := by
    decide
  simp only [isCapital, Bool.and_eq_true, decide_eq_true_eq, Char.le_def,
    UInt32.le_iff_toNat_le] at h
  obtain ⟨hlow, hhigh⟩ : 65 ≤ c.toNat ∧ c.toNat ≤ 90 := h
  have hthis := hall (c.toNat - 65) (by omega)
  rwa [Nat.sub_add_cancel hlow] at hthis

def latinTables : UnicodeTables where
  lowercaseMapping := latinMapping
  cased c := isLatin c || isCapital c
  caseIgnorable c := c = '.'
  letterOrNumber c := c.isDigit || isLatin c
  lowered c d hd := by
    rw [latinMapping] at hd
    split at hd
    · rw [List.mem_singleton.mp hd]
      decide
    · rename_i hsigma
      split at hd
      · rename_i hcapital
        obtain ⟨-, hne, hlower⟩ := latin_of_capital hcapital
        rw [List.mem_singleton.mp hd]
        exact ⟨hne, by rw [latinMapping, if_neg hne, if_neg (by simp [hlower])]⟩
      · rename_i hlower
        rw [List.mem_singleton.mp hd]
        exact ⟨hsigma, by rw [latinMapping, if_neg hsigma, if_neg hlower]⟩
  sigma := List.forall_mem_cons.mpr ⟨by decide, List.forall_mem_singleton.mpr (by decide)⟩
  notWhitespace c h := (Bool.or_eq_true _ _ ▸ h).elim isDigit_not_whitespace isLatin_not_whitespace
  visible c hc := by
    rw [latinMapping]
    split
    · exact ⟨'σ', List.mem_cons_self, by decide⟩
    · split
      · rename_i hcapital
        exact ⟨_, List.mem_cons_self, isLatin_not_whitespace (latin_of_capital hcapital).1⟩
      · exact ⟨c, List.mem_cons_self, hc⟩

def buyer : PersonContext Unit :=
  ⟨some " Ali@Example.COM ", none, none, none, none, none, none, none, none, none, some .raw, ()⟩

def digestOfAli (value : String) : String :=
  if value = "ali@example.com" then
    "9d86ec2b59bb107bf110722c28601160b33aee06109ad44a5404231287b5fd29"
  else value

end Tracking
