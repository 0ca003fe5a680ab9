import Lumo.JsonText

/-! # JSON read back

A text is read as `JSON.parse` reads it, so no two values are written alike. The fields of an object
stay in the order of the text, also where a name comes twice. How a numeral is read is a
parameter. -/
namespace JsonText

structure Reading (ν : Type) extends Numerals ν where
  read : List Char → Option ν
  read_write : ∀ n, read (write n) = some n

def isSpace (c : Char) : Bool := c = ' ' || c = '\t' || c = '\n' || c = '\r'

def skip (text : List Char) : List Char := text.dropWhile isSpace

def hexValue (c : Char) : Option ℕ :=
  if c.isDigit then some (c.toNat - 48)
  else if 'a' ≤ c ∧ c ≤ 'f' then some (c.toNat - 87)
  else if 'A' ≤ c ∧ c ≤ 'F' then some (c.toNat - 55)
  else none

def readUnit : List Char → Option (ℕ × List Char)
  | a :: b :: c :: d :: rest =>
    ([a, b, c, d].mapM hexValue).map fun digits =>
      (digits.foldl (fun unit digit => 16 * unit + digit) 0, rest)
  | _ => none

/-- What an escaped unit stands for. A surrogate needs the other one of its pair. -/
def readSurrogate (unit : ℕ) (text : List Char) : Option (Char × List Char) :=
  if unit < 0xD800 ∨ 0xE000 ≤ unit then some (Char.ofNat unit, text)
  else
    match text with
    | '\\' :: 'u' :: text =>
      (readUnit text).bind fun low =>
        if unit < 0xDC00 ∧ 0xDC00 ≤ low.1 ∧ low.1 < 0xE000 then
          some (Char.ofNat (0x10000 + (unit - 0xD800) * 0x400 + (low.1 - 0xDC00)), low.2)
        else none
    | _ => none

def shortEscapes : List (Char × Char) :=
  [('"', '"'), ('\\', '\\'), ('/', '/'), ('\x08', 'b'), ('\x0c', 'f'), ('\n', 'n'), ('\r', 'r'),
    ('\t', 't')]

def readEscape : List Char → Option (Char × List Char)
  | 'u' :: text => (readUnit text).bind fun unit => readSurrogate unit.1 unit.2
  | c :: text => (shortEscapes.find? fun entry => entry.2 = c).map fun entry => (entry.1, text)
  | [] => none

def readChar (c : Char) (text : List Char) : Option (Char × List Char) :=
  if c = '\\' then readEscape text
  else if c.toNat < 0x20 then none
  else some (c, text)

def readContent : ℕ → List Char → Option (List Char × List Char)
  | fuel + 1, c :: text =>
    if c = '"' then some ([], text)
    else (readChar c text).bind fun first =>
      (readContent fuel first.2).map fun more => (first.1 :: more.1, more.2)
  | _, _ => none

def readString (text : List Char) : Option (String × List Char) :=
  (readContent text.length text).map fun content => (String.ofList content.1, content.2)

def expect : List Char → List Char → Option (List Char)
  | [], text => some text
  | c :: word, d :: text => if c = d then expect word text else none
  | _ :: _, [] => none

section Values

variable {ν : Type}

def readField (readOne : List Char → Option (Json ν × List Char)) (text : List Char) :
    Option ((String × Json ν) × List Char) :=
  (expect ['"'] (skip text)).bind fun text =>
    (readString text).bind fun key =>
      (expect [':'] (skip key.2)).bind fun text =>
        (readOne text).map fun value => ((key.1, value.1), value.2)

section Sequences

variable {α : Type} (close : Char) (first : List Char → Option (α × List Char))
  (more : List Char → Option (List α × List Char))

def readTwo (text : List Char) : Option (List α × List Char) :=
  (first text).bind fun item => (more item.2).map fun items => (item.1 :: items.1, items.2)

/-- What stands between brackets. -/
def readSequence (text : List Char) : Option (List α × List Char) :=
  match expect [close] (skip text) with
  | some text => some ([], text)
  | none => readTwo first more text

/-- What comes after an item. -/
def readMore (text : List Char) : Option (List α × List Char) :=
  match skip text with
  | [] => none
  | c :: text =>
    if c = close then some ([], text) else if c = ',' then readTwo first more text else none

end Sequences

mutual

def readValue (reading : Reading ν) : ℕ → List Char → Option (Json ν × List Char)
  | 0, _ => none
  | fuel + 1, text =>
    match skip text with
    | [] => none
    | c :: text =>
      match kindOf c with
      | 0 => (expect "ull".toList text).map fun text => (.null, text)
      | 1 => (expect "rue".toList text).map fun text => (.boolean true, text)
      | 2 => (expect "alse".toList text).map fun text => (.boolean false, text)
      | 3 =>
        (reading.read ((c :: text).takeWhile isNumeral)).map fun n =>
          (.number n, (c :: text).dropWhile isNumeral)
      | 4 => (readString text).map fun s => (.string s.1, s.2)
      | 5 =>
        (readSequence ']' (readValue reading fuel) (readItems reading fuel) text).map fun items =>
          (.array items.1, items.2)
      | 6 =>
        (readSequence '\x7d' (readField (readValue reading fuel)) (readFields reading fuel) text).map
          fun fields => (.object fields.1, fields.2)
      | _ => none

def readItems (reading : Reading ν) : ℕ → List Char → Option (List (Json ν) × List Char)
  | 0, _ => none
  | fuel + 1, text => readMore ']' (readValue reading fuel) (readItems reading fuel) text

def readFields (reading : Reading ν) : ℕ → List Char → Option (List (String × Json ν) × List Char)
  | 0, _ => none
  | fuel + 1, text =>
    readMore '\x7d' (readField (readValue reading fuel)) (readFields reading fuel) text

end

/-- `JSON.parse`. -/
def parse (reading : Reading ν) (text : List Char) : Option (Json ν) :=
  (readValue reading text.length text).bind fun value =>
    if skip value.2 = [] then some value.1 else none

end Values

section Strings

theorem readChar_control {n : ℕ} (hn : n < 32) (rest : List Char) :
    ∃ c text, escape (Char.ofNat n) ++ rest = c :: text ∧ c ≠ '"' ∧
      readChar c text = some (Char.ofNat n, rest) := by
  interval_cases n <;> exact ⟨'\\', _, rfl, by decide, rfl⟩

theorem readChar_escape (c : Char) (rest : List Char) : ∃ d text, escape c ++ rest = d :: text ∧
    d ≠ '"' ∧ readChar d text = some (c, rest) := by
  by_cases hcontrol : c.toNat < 32
  · have h := readChar_control hcontrol rest
    rwa [Char.ofNat_toNat] at h
  by_cases hquote : c = '"'
  · subst hquote
    exact ⟨'\\', _, rfl, by decide, rfl⟩
  by_cases hbackslash : c = '\\'
  · subst hbackslash
    exact ⟨'\\', _, rfl, by decide, rfl⟩
  rw [escape, if_neg hquote, if_neg hbackslash, if_neg hcontrol]
  exact ⟨c, rest, rfl, hquote, by rw [readChar, if_neg hbackslash, if_neg hcontrol]⟩

theorem readContent_escape {content rest : List Char} {fuel : ℕ} (hfuel : content.length < fuel) :
    readContent fuel (content.flatMap escape ++ '"' :: rest) = some (content, rest) := by
  induction content generalizing fuel with
  | nil =>
    obtain ⟨n, rfl⟩ := Nat.exists_eq_add_of_lt hfuel
    rfl
  | cons c content ih =>
    cases fuel with
    | zero => cases hfuel
    | succ fuel =>
      obtain ⟨d, text, htext, hquote, hread⟩ :=
        readChar_escape c (content.flatMap escape ++ '"' :: rest)
      rw [List.flatMap_cons, List.append_assoc, htext, readContent, if_neg hquote, hread,
        Option.bind_some, ih (Nat.lt_of_succ_lt_succ hfuel), Option.map_some]

theorem readString_quote (s : String) (rest : List Char) :
    readString (s.toList.flatMap escape ++ '"' :: rest) = some (s, rest) := by
  have hlength : s.toList.length ≤ (s.toList.flatMap escape).length := by
    induction s.toList with
    | nil => exact le_refl _
    | cons c content ih =>
      obtain ⟨d, text, htext, -⟩ := escape_head c
      rw [List.flatMap_cons, htext, List.length_append, List.length_cons, List.length_cons]
      omega
  rw [readString, readContent_escape, Option.map_some, String.ofList_toList]
  rw [List.length_append, List.length_cons]
  omega

end Strings

section RoundTrip

variable {ν : Type} {numerals : Numerals ν} {value : Json ν} {rest : List Char}

theorem skip_cons {c : Char} (h : isSpace c = false) (rest : List Char) :
    skip (c :: rest) = c :: rest :=
  List.dropWhile_cons_of_neg (by simp [h])

theorem not_space_of_kind {c : Char} (h : kindOf c = kind value) : isSpace c = false := by
  by_contra hspace
  have hseven : kindOf c = 7 := by
    simp only [isSpace, Bool.not_eq_false, Bool.or_eq_true, decide_eq_true_eq] at hspace
    rcases hspace with ((rfl | rfl) | rfl) | rfl <;> decide
  rw [hseven] at h
  cases value with
  | boolean b => cases b <;> cases h
  | _ => cases h

theorem expect_kind {c d : Char} (hc : kindOf c = kind value) (hd : kindOf d = 7)
    (rest : List Char) : expect [d] (skip (c :: rest)) = none := by
  rw [skip_cons (not_space_of_kind hc), expect, if_neg]
  rintro rfl
  rw [hd] at hc
  cases value with
  | boolean b => cases b <;> cases hc
  | _ => cases hc

theorem expect_value {d : Char} (hd : kindOf d = 7) :
    expect [d] (skip (stringify numerals value ++ rest)) = none := by
  obtain ⟨c, text, htext, hkind⟩ := stringify_head numerals value
  rw [htext]
  exact expect_kind hkind hd (text ++ rest)

theorem readField_quote {readOne : List Char → Option (Json ν × List Char)} {text : List Char}
    (key : String) (h : readOne text = some (value, rest)) :
    readField readOne (quote key ++ ':' :: text) = some ((key, value), rest) := by
  have hkey : readString (key.toList.flatMap escape ++ '"' :: ':' :: text) =
      some (key, ':' :: text) := readString_quote key _
  have hopen : expect ['"'] (skip (quote key ++ ':' :: text)) =
      some (key.toList.flatMap escape ++ '"' :: ':' :: text) := by
    rw [quote, List.cons_append, List.append_assoc, skip_cons rfl]
    rfl
  have hcolon : expect [':'] (skip (':' :: text)) = some text := by
    rw [skip_cons rfl]
    rfl
  rw [readField, hopen, Option.bind_some, hkey, Option.bind_some, hcolon, Option.bind_some, h]
  rfl

theorem expect_quote (s : String) : expect ['\x7d'] (skip (quote s ++ rest)) = none := by
  rw [quote, List.cons_append, skip_cons rfl]
  rfl

section Sequences

variable {α : Type} {close : Char} {first : List Char → Option (α × List Char)}
  {more : List Char → Option (List α × List Char)} {text text' : List Char} {item : α}
  {items : List α}

theorem readTwo_some (hfirst : first text = some (item, text'))
    (hmore : more text' = some (items, rest)) :
    readTwo first more text = some (item :: items, rest) := by
  rw [readTwo, hfirst, Option.bind_some, hmore, Option.map_some]

theorem readMore_comma (hclose : close ≠ ',') :
    readMore close first more (',' :: text) = readTwo first more text := by
  rw [readMore, skip_cons rfl]
  simp only [if_neg (Ne.symm hclose), if_true]

theorem readSequence_open (h : expect [close] (skip text) = none) :
    readSequence close first more text = readTwo first more text := by
  rw [readSequence, h]

end Sequences

variable (reading : Reading ν)

theorem readValue_number (n : ν) (fuel : ℕ) (hrest : Stops rest) :
    readValue reading (fuel + 1) (reading.write n ++ rest) = some (.number n, rest) := by
  obtain ⟨c, text, htext, hkind⟩ := stringify_head reading.toNumerals (.number n)
  have htake := takeWhile_write reading.toNumerals n hrest
  have hdrop := List.takeWhile_append_dropWhile (p := isNumeral) (l := reading.write n ++ rest)
  rw [htake] at hdrop
  rw [stringify] at htext
  rw [htext, List.cons_append, readValue, skip_cons (not_space_of_kind hkind)]
  simp only [hkind, kind]
  rw [← List.cons_append, ← htext, htake, reading.read_write, Option.map_some,
    List.append_cancel_left hdrop]

mutual

theorem readValue_stringify : (value : Json ν) → (fuel : ℕ) → (rest : List Char) →
    (stringify reading.toNumerals value).length ≤ fuel → Stops rest →
      readValue reading fuel (stringify reading.toNumerals value ++ rest) = some (value, rest)
  | value, 0, _, hfuel, _ => by
    obtain ⟨c, text, htext, -⟩ := stringify_head reading.toNumerals value
    rw [htext] at hfuel
    cases hfuel
  | .null, fuel + 1, rest, _, _ => rfl
  | .boolean true, fuel + 1, rest, _, _ => rfl
  | .boolean false, fuel + 1, rest, _, _ => rfl
  | .number n, fuel + 1, rest, _, hrest => readValue_number reading n fuel hrest
  | .string s, fuel + 1, rest, _, _ => by
    rw [stringify, quote, List.cons_append, List.append_assoc, readValue, skip_cons rfl]
    change (readString (s.toList.flatMap escape ++ '"' :: rest)).map _ = _
    rw [readString_quote]
    rfl
  | .array [], fuel + 1, rest, _, _ => rfl
  | .array (item :: items), fuel + 1, rest, hfuel, _ => by
    rw [stringify, List.length_cons, List.length_append] at hfuel
    have hitem := readValue_stringify item fuel
      (stringifyItems reading.toNumerals items ++ rest) (by omega) (stops_items _ _ _)
    have hitems := readItems_stringify items fuel rest (by omega)
    rw [stringify, List.cons_append, List.append_assoc, readValue, skip_cons rfl]
    change (readSequence ']' _ _ _).map _ = _
    rw [readSequence_open (expect_value rfl), readTwo_some hitem hitems]
    rfl
  | .object [], fuel + 1, rest, _, _ => rfl
  | .object ((key, value) :: fields), fuel + 1, rest, hfuel, _ => by
    rw [stringify, List.length_cons, List.length_append, List.length_cons,
      List.length_append] at hfuel
    have hvalue := readValue_stringify value fuel
      (stringifyFields reading.toNumerals fields ++ rest) (by omega) (stops_fields _ _ _)
    have hfields := readFields_stringify fields fuel rest (by omega)
    rw [stringify, List.cons_append, List.append_assoc, List.cons_append, List.append_assoc,
      readValue, skip_cons rfl]
    change (readSequence '\x7d' _ _ _).map _ = _
    rw [readSequence_open (expect_quote key), readTwo_some (readField_quote key hvalue) hfields]
    rfl

theorem readItems_stringify : (items : List (Json ν)) → (fuel : ℕ) → (rest : List Char) →
    (stringifyItems reading.toNumerals items).length ≤ fuel →
      readItems reading fuel (stringifyItems reading.toNumerals items ++ rest) = some (items, rest)
  | [], 0, _, hfuel => by cases hfuel
  | [], fuel + 1, rest, _ => rfl
  | _ :: _, 0, _, hfuel => by cases hfuel
  | item :: items, fuel + 1, rest, hfuel => by
    rw [stringifyItems, List.length_cons, List.length_append] at hfuel
    have hitem := readValue_stringify item fuel
      (stringifyItems reading.toNumerals items ++ rest) (by omega) (stops_items _ _ _)
    have hitems := readItems_stringify items fuel rest (by omega)
    rw [stringifyItems, List.cons_append, List.append_assoc, readItems, readMore_comma (by decide),
      readTwo_some hitem hitems]

theorem readFields_stringify : (fields : List (String × Json ν)) → (fuel : ℕ) →
    (rest : List Char) → (stringifyFields reading.toNumerals fields).length ≤ fuel →
      readFields reading fuel (stringifyFields reading.toNumerals fields ++ rest) =
        some (fields, rest)
  | [], 0, _, hfuel => by cases hfuel
  | [], fuel + 1, rest, _ => rfl
  | (_, _) :: _, 0, _, hfuel => by cases hfuel
  | (key, value) :: fields, fuel + 1, rest, hfuel => by
    rw [stringifyFields, List.length_cons, List.length_append, List.length_cons,
      List.length_append] at hfuel
    have hvalue := readValue_stringify value fuel
      (stringifyFields reading.toNumerals fields ++ rest) (by omega) (stops_fields _ _ _)
    have hfields := readFields_stringify fields fuel rest (by omega)
    rw [stringifyFields, List.cons_append, List.append_assoc, List.cons_append, List.append_assoc,
      readFields, readMore_comma (by decide), readTwo_some (readField_quote key hvalue) hfields]

end

theorem parse_stringify (value : Json ν) :
    parse reading (stringify reading.toNumerals value) = some value := by
  have h := readValue_stringify reading value (stringify reading.toNumerals value).length []
    (le_refl _) trivial
  rw [List.append_nil] at h
  rw [parse, h]
  rfl

theorem stringify_injective (numerals : Numerals ν) : Function.Injective (stringify numerals) := by
  have hwrite : Function.Injective numerals.write := fun m n => numerals.injective m n
  let reading : Reading ν :=
    { numerals with
      read := Function.partialInv numerals.write
      read_write := fun n => (hwrite.isPartialInv n _).mpr rfl }
  intro a b h
  have hread : parse reading (stringify numerals a) = some a := parse_stringify reading a
  rw [h] at hread
  exact Option.some.inj (hread.symm.trans (parse_stringify reading b))

end RoundTrip

end JsonText
