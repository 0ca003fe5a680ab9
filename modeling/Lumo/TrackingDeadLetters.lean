import Lumo.TrackingPayload

/-! # What the dead-letter store keeps

An undeliverable payload is kept as the low bytes of the code units of its JSON text. -/
namespace Tracking

open JsonText

variable {ν : Type}

-- A decision over the members of a text, not over all characters.
local instance (priority := 2000) decidableMembers (p : Char → Prop) [DecidablePred p]
    (text : List Char) : Decidable (∀ c ∈ text, p c) :=
  text.decidableBAll p

def encodePayload (numerals : Numerals ν) (payload : List (String × Json ν)) : List UInt8 :=
  let json := (stringify numerals (.object payload)).flatMap unitsOf
  json.map fun unit => UInt8.ofNat (unit &&& 0xff)

def utf8 (text : List Char) : List UInt8 := text.flatMap String.utf8EncodeChar

/-- The bytes are the UTF-8 of a text that is read as the payload. -/
def Decodes (reading : Reading ν) (bytes : List UInt8) (payload : List (String × Json ν)) : Prop :=
  ∃ text, utf8 text = bytes ∧ parse reading text = some (.object payload)

mutual

/-- No string and no key has a character from U+0080 on. -/
def Ascii : Json ν → Prop
  | .string s => ∀ c ∈ s.toList, c.toNat < 0x80
  | .array items => AsciiItems items
  | .object fields => AsciiFields fields
  | _ => True

def AsciiItems : List (Json ν) → Prop
  | [] => True
  | item :: items => Ascii item ∧ AsciiItems items

def AsciiFields : List (String × Json ν) → Prop
  | [] => True
  | (key, value) :: fields =>
    (∀ c ∈ key.toList, c.toNat < 0x80) ∧ Ascii value ∧ AsciiFields fields

end

def lowBytes (c : Char) : List UInt8 := (unitsOf c).map fun unit => UInt8.ofNat (unit &&& 0xff)

def low (text : List Char) : List UInt8 := text.flatMap lowBytes

theorem encodePayload_eq (numerals : Numerals ν) (payload : List (String × Json ν)) :
    encodePayload numerals payload = low (stringify numerals (.object payload)) :=
  List.map_flatMap

theorem low_append (a b : List Char) : low (a ++ b) = low a ++ low b := List.flatMap_append

theorem utf8_append (a b : List Char) : utf8 (a ++ b) = utf8 a ++ utf8 b := List.flatMap_append

section Characters

variable {c d : Char}

theorem utf8Size_ascii : c.utf8Size = 1 ↔ c.toNat < 0x80 := by
  rw [Char.utf8Size_eq_one_iff, UInt32.le_iff_toNat_le]
  exact Nat.lt_succ_iff.symm

theorem utf8EncodeChar_ascii (h : c.toNat < 0x80) :
    String.utf8EncodeChar c = [UInt8.ofNat c.toNat] := by
  have hle : c.val.toNat ≤ 0x7f := Nat.le_of_lt_succ h
  exact if_pos hle

theorem lowBytes_ascii (h : c.toNat < 0x80) : lowBytes c = [UInt8.ofNat c.toNat] := by
  have hlow : c.toNat &&& 0xff = c.toNat := by
    rw [show 0xff = 2 ^ 8 - 1 from rfl, Nat.and_two_pow_sub_one_eq_mod]
    omega
  rw [lowBytes, unitsOf, if_pos (by omega), List.map_singleton, hlow]

theorem utf8_low {text : List Char} (h : ∀ c ∈ text, c.toNat < 0x80) : utf8 text = low text := by
  induction text with
  | nil => rfl
  | cons c text ih =>
    rw [List.forall_mem_cons] at h
    have htext := ih h.2
    rw [utf8, low] at htext ⊢
    rw [List.flatMap_cons, List.flatMap_cons, htext, utf8EncodeChar_ascii h.1, lowBytes_ascii h.1]

/-- A byte below 0x80 is a character of its own. -/
theorem ascii_of_byte {n : ℕ} (hn : n < 0x80) (h : UInt8.ofNat n ∈ String.utf8EncodeChar c) :
    c.toNat = n := by
  have hbyte (k : ℕ) : UInt8.ofNat n = UInt8.ofNat k ↔ n = k % 256 := by
    rw [← UInt8.toNat_inj, UInt8.toNat_ofNat', UInt8.toNat_ofNat', Nat.mod_eq_of_lt]
    omega
  change c.val.toNat = n
  simp only [String.utf8EncodeChar] at h
  split_ifs at h <;> simp only [List.mem_cons, List.not_mem_nil, or_false, hbyte] at h <;> omega

theorem lowBytes_length (h : ¬ c.toNat < 0x80) :
    (lowBytes c).length < (String.utf8EncodeChar c).length := by
  have hone : c.utf8Size ≠ 1 := mt utf8Size_ascii.mp h
  have hpos := Char.utf8Size_pos c
  rw [String.length_utf8EncodeChar, lowBytes, List.length_map, unitsOf]
  split
  · rw [List.length_singleton]
    omega
  · rename_i hwide
    have hfour : c.utf8Size = 4 := by
      rw [Char.utf8Size_eq_four_iff, UInt32.lt_iff_toNat_lt]
      exact not_le.mp fun hle => hwide (Nat.lt_succ_of_le hle)
    rw [hfour]
    exact (by decide : 2 < 4)

end Characters

section Texts

variable {text rest : List Char} {c : Char} {before after : List UInt8}

theorem mem_of_byte (hc : c.toNat < 0x80) (h : UInt8.ofNat c.toNat ∈ utf8 text) : c ∈ text := by
  obtain ⟨d, hd, hbyte⟩ := List.mem_flatMap.mp h
  rwa [← Char.toNat_inj.mp (ascii_of_byte hc hbyte)]

theorem low_cons (hc : c.toNat < 0x80) (text : List Char) :
    low (c :: text) = UInt8.ofNat c.toNat :: low text := by
  rw [low, List.flatMap_cons, lowBytes_ascii hc]
  rfl

/-- A text starts with the ASCII characters its bytes start with. -/
theorem cons_of_utf8 (hc : c.toNat < 0x80) (h : utf8 text = low (c :: rest)) :
    ∃ text', text = c :: text' ∧ utf8 text' = low rest := by
  rw [low_cons hc] at h
  cases text with
  | nil => cases h
  | cons d text =>
    have hd : d = c := by
      obtain ⟨b, bytes, hbytes⟩ :=
        List.exists_cons_of_ne_nil (String.utf8EncodeChar_ne_nil (c := d))
      rw [utf8, List.flatMap_cons, hbytes] at h
      have hmem : UInt8.ofNat c.toNat ∈ String.utf8EncodeChar d := by
        rw [hbytes, ← (List.cons.inj h).1]
        exact List.mem_cons_self
      exact Char.toNat_inj.mp (ascii_of_byte hc hmem)
    subst hd
    rw [utf8, List.flatMap_cons, utf8EncodeChar_ascii hc] at h
    exact ⟨text, rfl, (List.cons.inj h).2⟩

theorem append_of_utf8 {start : List Char} (hstart : ∀ c ∈ start, c.toNat < 0x80)
    (h : utf8 text = low (start ++ rest)) : ∃ text', text = start ++ text' ∧
      utf8 text' = low rest := by
  induction start generalizing text with
  | nil => exact ⟨text, rfl, h⟩
  | cons c start ih =>
    rw [List.forall_mem_cons] at hstart
    obtain ⟨text', rfl, htext⟩ := cons_of_utf8 hstart.1 h
    obtain ⟨text, rfl, hrest⟩ := ih hstart.2 htext
    exact ⟨text, rfl, hrest⟩

theorem nil_of_utf8 (h : utf8 text = []) : text = [] := by
  cases text with
  | nil => rfl
  | cons c text =>
    rw [utf8, List.flatMap_cons] at h
    exact absurd (List.append_eq_nil_iff.mp h).1 String.utf8EncodeChar_ne_nil

end Texts

theorem escape_ascii {c : Char} (h : c.toNat < 0x80) : ∀ d ∈ escape c, d.toNat < 0x80 := by
  by_cases hcontrol : c.toNat < 32
  · have hall (n : ℕ) (hn : n < 32) : ∀ d ∈ escape (Char.ofNat n), d.toNat < 0x80 := by
      interval_cases n <;> decide
    rw [← Char.ofNat_toNat c]
    exact hall c.toNat hcontrol
  · unfold escape
    split_ifs
    · decide
    · decide
    · simpa using h

theorem escapes_ascii {content : List Char} (h : ∀ c ∈ content, c.toNat < 0x80) :
    ∀ c ∈ content.flatMap escape, c.toNat < 0x80 := by
  intro c hc
  obtain ⟨d, hd, hmem⟩ := List.mem_flatMap.mp hc
  exact escape_ascii (h d hd) c hmem

/-- The fewest bytes that are read as the character. -/
def fewest (c : Char) : ℕ := (low (escape c)).length + if c.toNat < 0x80 then 0 else 1

theorem low_length {content : List Char} (h : ¬ ∀ c ∈ content, c.toNat < 0x80) :
    (low (content.flatMap escape)).length < (content.map fewest).sum := by
  have hsum : (content.map fewest).sum = (low (content.flatMap escape)).length +
      content.countP fun c => ¬ c.toNat < 0x80 := by
    clear h
    induction content with
    | nil => rfl
    | cons c content ih =>
      rw [List.map_cons, List.sum_cons, ih, List.flatMap_cons, low_append, List.length_append,
        List.countP_cons, fewest]
      by_cases hc : c.toNat < 0x80 <;> simp [hc] <;> omega
  have hsome : 0 < content.countP fun c => ¬ c.toNat < 0x80 := by
    rw [Classical.not_forall] at h
    obtain ⟨c, hc⟩ := h
    rw [Classical.not_imp] at hc
    exact List.countP_pos_iff.mpr ⟨c, hc.1, by simpa using hc.2⟩
  omega

/-- A piece of a string: an escaped quote, or one without quotes. -/
def Piece (piece : List Char) (c : Char) : Prop :=
  piece = ['\\', '"'] ∧ c = '"' ∨ '"' ∉ piece ∧ fewest c ≤ (utf8 piece).length

theorem utf8_length (text : List Char) : text.length ≤ (utf8 text).length := by
  induction text with
  | nil => exact le_refl _
  | cons c text ih =>
    rw [utf8, List.flatMap_cons, List.length_append, String.length_utf8EncodeChar, List.length_cons]
    have hpos := Char.utf8Size_pos c
    rw [utf8] at ih
    omega

theorem fewest_plain {c : Char} (h : escape c = [c]) :
    fewest c ≤ (String.utf8EncodeChar c).length := by
  rw [fewest, h, low, List.flatMap_singleton]
  by_cases hc : c.toNat < 0x80
  · rw [if_pos hc, lowBytes_ascii hc, utf8EncodeChar_ascii hc]
    exact le_refl 1
  · rw [if_neg hc]
    exact lowBytes_length hc

theorem fewest_le (c : Char) : fewest c ≤ 6 := by
  by_cases hcontrol : c.toNat < 32
  · have hall (n : ℕ) (hn : n < 32) : fewest (Char.ofNat n) ≤ 6 := by
      interval_cases n <;> decide
    rw [← Char.ofNat_toNat c]
    exact hall c.toNat hcontrol
  by_cases hquote : c = '"'
  · subst hquote
    decide
  by_cases hbackslash : c = '\\'
  · subst hbackslash
    decide
  have hplain : escape c = [c] := by rw [escape, if_neg hquote, if_neg hbackslash, if_neg hcontrol]
  have hle := fewest_plain hplain
  have hfour := Char.utf8Size_le_four c
  rw [String.length_utf8EncodeChar] at hle
  omega

theorem readUnit_piece {text : List Char} {unit : ℕ × List Char} (h : readUnit text = some unit) :
    ∃ digits : List Char, digits.length = 4 ∧ '"' ∉ digits ∧ text = digits ++ unit.2 := by
  unfold readUnit at h
  split at h
  · rename_i a b c d rest
    obtain ⟨values, hvalues, rfl⟩ := Option.map_eq_some_iff.mp h
    refine ⟨[a, b, c, d], rfl, fun hquote => ?_, rfl⟩
    have hnone : hexValue '"' = none := rfl
    simp only [List.mem_cons, List.not_mem_nil, or_false] at hquote
    rcases hquote with rfl | rfl | rfl | rfl <;> simp [hnone] at hvalues
  · cases h

theorem readSurrogate_piece {text rest : List Char} {unit : ℕ} {c : Char}
    (h : readSurrogate unit text = some (c, rest)) :
    ∃ piece : List Char, '"' ∉ piece ∧ text = piece ++ rest := by
  unfold readSurrogate at h
  split at h
  · obtain ⟨-, rfl⟩ := Prod.mk.inj (Option.some.inj h)
    exact ⟨[], List.not_mem_nil, rfl⟩
  · split at h
    · rename_i text
      obtain ⟨low, hlow, hpair⟩ := Option.bind_eq_some_iff.mp h
      obtain ⟨digits, -, hquote, rfl⟩ := readUnit_piece hlow
      split at hpair
      · obtain ⟨-, rfl⟩ := Prod.mk.inj (Option.some.inj hpair)
        exact ⟨'\\' :: 'u' :: digits, by simp [hquote], rfl⟩
      · cases hpair
    · cases h

theorem readChar_piece {d c : Char} {text rest : List Char} (hd : d ≠ '"')
    (h : readChar d text = some (c, rest)) :
    ∃ piece, d :: text = piece ++ rest ∧ Piece piece c := by
  unfold readChar at h
  split_ifs at h with hbackslash hcontrol
  · subst hbackslash
    unfold readEscape at h
    split at h
    · rename_i text
      obtain ⟨unit, hunit, hchar⟩ := Option.bind_eq_some_iff.mp h
      obtain ⟨digits, hlength, hquote, rfl⟩ := readUnit_piece hunit
      obtain ⟨piece, hpiece, hrest⟩ := readSurrogate_piece hchar
      refine ⟨'\\' :: 'u' :: (digits ++ piece), by simp [hrest],
        .inr ⟨by simp [hquote, hpiece], ?_⟩⟩
      calc fewest c ≤ 6 := fewest_le c
        _ ≤ ('\\' :: 'u' :: (digits ++ piece)).length := by simp [hlength]
        _ ≤ _ := utf8_length _
    · rename_i k text _
      obtain ⟨entry, hentry, heq⟩ := Option.map_eq_some_iff.mp h
      obtain ⟨rfl, rfl⟩ := Prod.mk.inj heq
      refine ⟨['\\', k], rfl, ?_⟩
      have hmem := List.mem_of_find?_eq_some hentry
      have hk : entry.2 = k := by simpa using List.find?_some hentry
      subst hk
      have hall : ∀ entry ∈ shortEscapes, entry.2 = '"' ∧ entry.1 = '"' ∨
          entry.2 ≠ '"' ∧ fewest entry.1 ≤ 2 := by decide
      rcases hall entry hmem with ⟨hquote, hchar⟩ | ⟨hquote, hle⟩
      · exact .inl ⟨by rw [hquote], hchar⟩
      · refine .inr ⟨by simpa using Ne.symm hquote, hle.trans ?_⟩
        exact utf8_length ['\\', entry.2]
    · cases h
  · obtain ⟨rfl, rfl⟩ := Prod.mk.inj (Option.some.inj h)
    refine ⟨[d], rfl, .inr ⟨by simpa using Ne.symm hd, ?_⟩⟩
    have hle := fewest_plain (show escape d = [d] by
      rw [escape, if_neg hd, if_neg hbackslash, if_neg hcontrol])
    rwa [utf8, List.flatMap_singleton]

section Strings

variable {fuel : ℕ} {text content rest D : List Char} {before after : List UInt8}

/-- What reading a string comes to: its end, or one piece more. -/
theorem readContent_cases (h : readContent fuel text = some (content, rest)) :
    content = [] ∧ text = '"' :: rest ∨
    ∃ fuel' c content' d tail text', fuel = fuel' + 1 ∧ content = c :: content' ∧
      text = d :: tail ∧ d ≠ '"' ∧ readChar d tail = some (c, text') ∧
      readContent fuel' text' = some (content', rest) := by
  unfold readContent at h
  split at h
  · rename_i fuel' d tail
    split_ifs at h with hquote
    · obtain ⟨rfl, rfl⟩ := Prod.mk.inj (Option.some.inj h)
      exact .inl ⟨rfl, by rw [hquote]⟩
    · obtain ⟨first, hfirst, hmore⟩ := Option.bind_eq_some_iff.mp h
      obtain ⟨more, hread, heq⟩ := Option.map_eq_some_iff.mp hmore
      obtain ⟨rfl, rfl⟩ := Prod.mk.inj heq
      exact .inr ⟨fuel', first.1, more.1, d, tail, first.2, rfl, rfl, rfl, hquote, hfirst, hread⟩
  · cases h

theorem length_lt_fuel (h : readContent fuel text = some (content, rest)) :
    content.length < fuel := by
  induction content generalizing fuel text with
  | nil =>
    cases fuel with
    | zero => cases h
    | succ fuel => exact Nat.succ_pos _
  | cons c content ih =>
    rcases readContent_cases h with ⟨hnil, -⟩ | ⟨fuel, _, _, _, _, _, rfl, heq, -, -, -, hread⟩
    · cases hnil
    · obtain ⟨rfl, rfl⟩ := List.cons.inj heq
      exact Nat.succ_lt_succ (ih hread)

/-- A quote inside a string is an escaped one. -/
theorem quote_inside (hread : readContent fuel text = some (content, rest))
    (hbytes : utf8 text = before ++ 0x22 :: after)
    (hlength : before.length < (content.map fewest).sum) :
    ∃ start fuel' text' first last, before = start ++ [0x5c] ∧ content = first ++ '"' :: last ∧
      utf8 text' = after ∧ readContent fuel' text' = some (last, rest) := by
  induction content generalizing fuel text before with
  | nil => exact absurd hlength (Nat.not_lt_zero _)
  | cons c content ih =>
    rcases readContent_cases hread with
      ⟨hnil, -⟩ | ⟨fuel', _, _, d, tail, text', rfl, heq, rfl, hquote, hchar, hmore⟩
    · cases hnil
    obtain ⟨rfl, rfl⟩ := List.cons.inj heq
    obtain ⟨piece, hpiece, hkind⟩ := readChar_piece hquote hchar
    rw [hpiece, utf8_append] at hbytes
    -- The byte stands after this piece, or in it.
    have hafter {bytes : List UInt8} (hbefore : before = utf8 piece ++ bytes)
        (htext : utf8 text' = bytes ++ 0x22 :: after) :
        ∃ start fuel'' text'' first last, before = start ++ [0x5c] ∧
          c :: content = first ++ '"' :: last ∧ utf8 text'' = after ∧
          readContent fuel'' text'' = some (last, rest) := by
      have hfewest : fewest c ≤ (utf8 piece).length := by
        rcases hkind with ⟨rfl, rfl⟩ | ⟨-, hle⟩
        · decide
        · exact hle
      rw [hbefore, List.length_append, List.map_cons, List.sum_cons] at hlength
      obtain ⟨start, fuel'', text'', first, last, rfl, rfl, hlast, hrest⟩ :=
        ih hmore htext (by omega)
      exact ⟨utf8 piece ++ start, fuel'', text'', c :: first, last,
        by rw [hbefore, List.append_assoc], rfl, hlast, hrest⟩
    rcases List.append_eq_append_iff.mp hbytes with ⟨bytes, hbefore, htext⟩ | ⟨bytes, hin, hout⟩
    · exact hafter hbefore htext
    cases bytes with
    | nil =>
      rw [List.append_nil] at hin
      rw [List.nil_append] at hout
      exact hafter (by rw [hin, List.append_nil]) hout.symm
    | cons b bytes =>
      obtain ⟨rfl, hbehind⟩ := List.cons.inj hout
      rcases hkind with ⟨rfl, rfl⟩ | ⟨hnone, -⟩
      · have hpair : [0x5c] ++ [0x22] = before ++ 0x22 :: bytes := hin
        obtain ⟨rfl, rfl⟩ : before = [0x5c] ∧ bytes = [] := by
          cases before with
          | nil => exact absurd (List.cons.inj hpair).1 (by decide)
          | cons b before =>
            obtain ⟨rfl, hquote⟩ := List.cons.inj hpair
            cases before with
            | nil => exact ⟨rfl, (List.cons.inj hquote).2.symm⟩
            | cons => exact absurd (congrArg List.length (List.cons.inj hquote).2) (by simp)
        exact ⟨[], fuel', text', [], content, rfl, rfl, hbehind.symm, hmore⟩
      · have hmem : UInt8.ofNat '"'.toNat ∈ utf8 piece := by
          rw [hin]
          exact List.mem_append_right _ List.mem_cons_self
        exact absurd (mem_of_byte (by decide) hmem) hnone

/-- A character that stands for itself inside a string. -/
def Itself (c : Char) : Prop := 0x20 ≤ c.toNat ∧ c.toNat < 0x80 ∧ c ≠ '"' ∧ c ≠ '\\'

instance : DecidablePred Itself := fun _ => inferInstanceAs (Decidable (_ ∧ _))

/-- Up to its first quote, the text has only characters that stand for themselves. -/
def Quiet : List Char → Prop
  | [] => True
  | c :: rest => c = '"' ∨ Itself c ∧ Quiet rest

theorem escape_itself {c : Char} (h : Itself c) : escape c = [c] := by
  rw [escape, if_neg h.2.2.1, if_neg h.2.2.2, if_neg (Nat.not_lt.mpr h.1)]

theorem escape_all (h : ∀ c ∈ content, Itself c) : content.flatMap escape = content := by
  induction content with
  | nil => rfl
  | cons c content ih =>
    rw [List.forall_mem_cons] at h
    rw [List.flatMap_cons, escape_itself h.1, ih h.2]
    rfl

theorem readContent_quiet (hquiet : Quiet D) (hbytes : utf8 text = low D)
    (hread : readContent fuel text = some (content, rest)) : ∀ c ∈ content, Itself c := by
  induction D generalizing fuel text content with
  | nil =>
    rw [nil_of_utf8 hbytes] at hread
    cases fuel <;> cases hread
  | cons c D ih =>
    rcases hquiet with rfl | ⟨hc, hquiet⟩
    · obtain ⟨tail, rfl, -⟩ := cons_of_utf8 (by decide) hbytes
      rcases readContent_cases hread with ⟨rfl, -⟩ | ⟨_, _, _, _, _, _, rfl, rfl, heq, hne, -⟩
      · exact fun c hc => absurd hc List.not_mem_nil
      · exact absurd (List.cons.inj heq).1.symm hne
    · obtain ⟨tail, rfl, htail⟩ := cons_of_utf8 hc.2.1 hbytes
      rcases readContent_cases hread with
        ⟨-, heq⟩ | ⟨fuel, d, content, _, _, text, rfl, rfl, heq, -, hchar, hmore⟩
      · exact absurd (List.cons.inj heq).1 hc.2.2.1
      obtain ⟨rfl, rfl⟩ := List.cons.inj heq
      rw [readChar, if_neg hc.2.2.2, if_neg (Nat.not_lt.mpr hc.1)] at hchar
      obtain ⟨rfl, rfl⟩ := Prod.mk.inj (Option.some.inj hchar)
      exact List.forall_mem_cons.mpr ⟨hc, ih hquiet htail hmore⟩

/-- A string whose low bytes are read as the string itself is ASCII. -/
theorem readContent_low (hquiet : Quiet D)
    (hbytes : utf8 text = low (content.flatMap escape ++ '"' :: D))
    (hread : readContent fuel text = some (content, rest)) :
    (∀ c ∈ content, c.toNat < 0x80) ∧ utf8 rest = low D := by
  have hplain : ∀ c ∈ content, c.toNat < 0x80 := by
    by_contra hwide
    -- The bytes run out inside the string, after a backslash, and then only `last` is left.
    rw [low_append, low_cons (by decide)] at hbytes
    obtain ⟨start, fuel', text', first, last, hstart, hcontent, htext', hlast⟩ :=
      quote_inside hread hbytes (low_length hwide)
    have hitself := readContent_quiet hquiet htext' hlast
    have hascii : ∀ c ∈ '"' :: last, c.toNat < 0x80 :=
      List.forall_mem_cons.mpr ⟨by decide, fun c hc => (hitself c hc).2.1⟩
    have hend : low (content.flatMap escape) =
        low (first.flatMap escape ++ ['\\']) ++ utf8 ('"' :: last) := by
      rw [utf8_low hascii, ← low_append, hcontent, List.flatMap_append, List.flatMap_cons,
        escape_all hitself, List.append_assoc]
      rfl
    have hmem : UInt8.ofNat '\\'.toNat ∈ utf8 ('"' :: last) := by
      rcases List.append_eq_append_iff.mp (hstart.symm.trans hend) with
        ⟨bytes, -, htail⟩ | ⟨bytes, -, htail⟩
      · cases bytes with
        | nil =>
          rw [List.nil_append] at htail
          rw [← htail]
          exact List.mem_cons_self
        | cons b bytes =>
          have hnil := (List.append_eq_nil_iff.mp (List.cons.inj htail).2.symm).2
          cases nil_of_utf8 hnil
      · rw [htail]
        exact List.mem_append_right _ List.mem_cons_self
    rcases List.mem_cons.mp (mem_of_byte (by decide) hmem) with heq | hmem
    · exact absurd heq (by decide)
    · exact (hitself _ hmem).2.2.2 rfl
  have hstart : ∀ c ∈ content.flatMap escape ++ ['"'], c.toNat < 0x80 := by
    rw [List.forall_mem_append]
    exact ⟨escapes_ascii hplain, by decide⟩
  rw [List.append_cons] at hbytes
  obtain ⟨text', rfl, hrest⟩ := append_of_utf8 hstart hbytes
  rw [List.append_assoc, List.singleton_append, readContent_escape (length_lt_fuel hread)] at hread
  obtain ⟨-, rfl⟩ := Prod.mk.inj (Option.some.inj hread)
  exact ⟨hplain, hrest⟩

theorem readString_low {s : String} (hquiet : Quiet D)
    (hbytes : utf8 text = low (s.toList.flatMap escape ++ '"' :: D))
    (hread : readString text = some (s, rest)) :
    (∀ c ∈ s.toList, c.toNat < 0x80) ∧ utf8 rest = low D := by
  obtain ⟨⟨content, rest⟩, hcontent, heq⟩ := Option.map_eq_some_iff.mp hread
  obtain ⟨rfl, rfl⟩ := Prod.mk.inj heq
  rw [String.toList_ofList] at hbytes ⊢
  exact readContent_low hquiet hbytes hcontent

end Strings

section Values

variable {numerals : Numerals ν} {value : Json ν} {text rest D : List Char}

theorem quote_ascii {s : String} (h : ∀ c ∈ s.toList, c.toNat < 0x80) :
    ∀ c ∈ quote s, c.toNat < 0x80 := by
  rw [quote, List.forall_mem_cons, List.forall_mem_append]
  exact ⟨by decide, escapes_ascii h, by decide⟩

theorem itself_of_numeral {c : Char} (h : isNumeral c = true) : Itself c := by
  simp only [isNumeral, Bool.or_eq_true, decide_eq_true_eq] at h
  rcases h with ((((hdigit | rfl) | rfl) | rfl) | rfl) | rfl
  · have hbounds : 48 ≤ c.toNat ∧ c.toNat ≤ 57 := Char.isDigit_iff_toNat.mp hdigit
    refine ⟨by omega, by omega, ?_, ?_⟩
    · rintro rfl
      cases hdigit
    · rintro rfl
      cases hdigit
  all_goals decide

theorem quiet_append {start : List Char} (hstart : ∀ c ∈ start, Itself c) (hD : Quiet D) :
    Quiet (start ++ D) := by
  induction start with
  | nil => exact hD
  | cons c start ih =>
    rw [List.forall_mem_cons] at hstart
    exact .inr ⟨hstart.1, ih hstart.2⟩

mutual

theorem quiet_value (numerals : Numerals ν) : (value : Json ν) → {D : List Char} → Quiet D →
    Quiet (stringify numerals value ++ D)
  | .null, _, hD => quiet_append (show ∀ c ∈ "null".toList, Itself c by decide) hD
  | .boolean true, _, hD => quiet_append (show ∀ c ∈ "true".toList, Itself c by decide) hD
  | .boolean false, _, hD => quiet_append (show ∀ c ∈ "false".toList, Itself c by decide) hD
  | .number n, _, hD => quiet_append (fun c hc => itself_of_numeral (numerals.numeral n c hc)) hD
  | .string _, _, _ => .inl rfl
  | .array [], _, hD => quiet_append (show ∀ c ∈ ['[', ']'], Itself c by decide) hD
  | .array (item :: items), _, hD => by
    rw [stringify, List.cons_append, List.append_assoc]
    exact .inr ⟨by decide, quiet_value numerals item (quiet_items numerals items hD)⟩
  | .object [], _, hD => quiet_append (show ∀ c ∈ ['\x7b', '\x7d'], Itself c by decide) hD
  | .object ((_, _) :: _), _, _ => .inr ⟨by decide, .inl rfl⟩

theorem quiet_items (numerals : Numerals ν) : (items : List (Json ν)) → {D : List Char} → Quiet D →
    Quiet (stringifyItems numerals items ++ D)
  | [], _, hD => .inr ⟨by decide, hD⟩
  | item :: items, _, hD => by
    rw [stringifyItems, List.cons_append, List.append_assoc]
    exact .inr ⟨by decide, quiet_value numerals item (quiet_items numerals items hD)⟩

end

theorem quiet_fields (numerals : Numerals ν) (fields : List (String × Json ν)) (hD : Quiet D) :
    Quiet (stringifyFields numerals fields ++ D) := by
  cases fields with
  | nil => exact .inr ⟨by decide, hD⟩
  | cons => exact .inr ⟨by decide, .inl rfl⟩

theorem Quiet.head {c : Char} (h : Quiet (c :: D)) : c.toNat < 0x80 := by
  rcases h with rfl | ⟨hc, -⟩
  · decide
  · exact hc.2.1

/-- No bracket is closed where a value is written. -/
theorem expect_low {d : Char} (hd : kindOf d = 7) (hquiet : Quiet D)
    (hbytes : utf8 text = low (stringify numerals value ++ D)) : expect [d] (skip text) = none := by
  have hhead := quiet_value numerals value hquiet
  obtain ⟨c, rest, hrest, hkind⟩ := stringify_head numerals value
  rw [hrest] at hbytes hhead
  obtain ⟨text', rfl, -⟩ := cons_of_utf8 hhead.head hbytes
  exact expect_kind hkind hd text'

theorem stops_of_utf8 (hquiet : Quiet D) (hstops : Stops D) (h : utf8 text = low D) :
    Stops text := by
  cases D with
  | nil =>
    rw [nil_of_utf8 h]
    trivial
  | cons c D =>
    obtain ⟨text', rfl, -⟩ := cons_of_utf8 hquiet.head h
    exact hstops

section Steps

variable {α : Type} {first : List Char → Option (α × List Char)} {item : α} {A B : List Char}
  {P Q : Prop}

theorem word_low (hascii : ∀ c ∈ A, c.toNat < 0x80)
    (hfirst : ∀ text, utf8 text = low D → first (A ++ text) = some (item, text))
    (hbytes : utf8 text = low (A ++ D)) (h : first text = some (item, rest)) :
    utf8 rest = low D := by
  obtain ⟨text', rfl, htext⟩ := append_of_utf8 hascii hbytes
  cases (hfirst text' htext).symm.trans h
  exact htext

theorem readTwo_low {more : List Char → Option (List α × List Char)} {items : List α}
    (hfirst : ∀ {text rest}, utf8 text = low A → first text = some (item, rest) →
      P ∧ utf8 rest = low B)
    (hmore : ∀ {text rest}, utf8 text = low B → more text = some (items, rest) →
      Q ∧ utf8 rest = low D)
    (hbytes : utf8 text = low A) (h : readTwo first more text = some (item :: items, rest)) :
    (P ∧ Q) ∧ utf8 rest = low D := by
  obtain ⟨⟨_, text'⟩, hitem, hmap⟩ := Option.bind_eq_some_iff.mp h
  obtain ⟨⟨_, _⟩, hitems, heq⟩ := Option.map_eq_some_iff.mp hmap
  cases heq
  obtain ⟨hp, hbehind⟩ := hfirst hbytes hitem
  obtain ⟨hq, hrest⟩ := hmore hbehind hitems
  exact ⟨⟨hp, hq⟩, hrest⟩

theorem readField_low {readOne : List Char → Option (Json ν × List Char)} {key : String}
    (hquiet : Quiet A)
    (hone : ∀ {text rest}, utf8 text = low A → readOne text = some (value, rest) →
      P ∧ utf8 rest = low B)
    (hbytes : utf8 text = low (quote key ++ ':' :: A))
    (h : readField readOne text = some ((key, value), rest)) :
    ((∀ c ∈ key.toList, c.toNat < 0x80) ∧ P) ∧ utf8 rest = low B := by
  rw [quote, List.cons_append, List.append_assoc] at hbytes
  obtain ⟨text, rfl, htext⟩ := cons_of_utf8 (by decide) hbytes
  obtain ⟨opened, hopened, h⟩ := Option.bind_eq_some_iff.mp h
  obtain rfl : text = opened := Option.some.inj hopened
  obtain ⟨⟨_, _⟩, hname, h⟩ := Option.bind_eq_some_iff.mp h
  obtain ⟨colon, hcolon, h⟩ := Option.bind_eq_some_iff.mp h
  obtain ⟨⟨_, _⟩, hvalue, heq⟩ := Option.map_eq_some_iff.mp h
  cases heq
  have hquietColon : Quiet (':' :: A) := .inr ⟨by decide, hquiet⟩
  obtain ⟨hkey, hbehind⟩ := readString_low hquietColon htext hname
  obtain ⟨text', rfl, hafter⟩ := cons_of_utf8 (by decide) hbehind
  obtain rfl : text' = colon := Option.some.inj hcolon
  obtain ⟨hp, hrest⟩ := hone hafter hvalue
  exact ⟨⟨hkey, hp⟩, hrest⟩

end Steps

section Reading

variable (reading : Reading ν)

mutual

/-- Of the low bytes of a text, only ASCII is read as what was written. -/
theorem readValue_low : (value : Json ν) → {fuel : ℕ} → {D : List Char} → Quiet D → Stops D →
    {text rest : List Char} → utf8 text = low (stringify reading.toNumerals value ++ D) →
    readValue reading fuel text = some (value, rest) → Ascii value ∧ utf8 rest = low D
  | _, 0, _, _, _, _, _, _, h => by cases h
  | .null, _ + 1, _, _, _, _, _, hbytes, h =>
    ⟨trivial, word_low (show ∀ c ∈ "null".toList, c.toNat < 0x80 by decide) (fun _ _ => rfl) hbytes
      h⟩
  | .boolean true, _ + 1, _, _, _, _, _, hbytes, h =>
    ⟨trivial, word_low (show ∀ c ∈ "true".toList, c.toNat < 0x80 by decide) (fun _ _ => rfl) hbytes
      h⟩
  | .boolean false, _ + 1, _, _, _, _, _, hbytes, h =>
    ⟨trivial, word_low (show ∀ c ∈ "false".toList, c.toNat < 0x80 by decide) (fun _ _ => rfl) hbytes
      h⟩
  | .number n, fuel + 1, _, hquiet, hstops, _, _, hbytes, h =>
    ⟨trivial, word_low (fun c hc => (itself_of_numeral (reading.numeral n c hc)).2.1)
      (fun _ htext => readValue_number reading n fuel (stops_of_utf8 hquiet hstops htext)) hbytes h⟩
  | .string s, fuel + 1, D, hquiet, _, text, rest, hbytes, h => by
    rw [stringify, quote, List.cons_append, List.append_assoc] at hbytes
    obtain ⟨text, rfl, htext⟩ := cons_of_utf8 (by decide) hbytes
    change (readString text).map _ = _ at h
    obtain ⟨content, hcontent, heq⟩ := Option.map_eq_some_iff.mp h
    cases heq
    exact readString_low hquiet htext hcontent
  | .array [], _ + 1, _, _, _, _, _, hbytes, h =>
    ⟨trivial, word_low (show ∀ c ∈ ['[', ']'], c.toNat < 0x80 by decide) (fun _ _ => rfl) hbytes h⟩
  | .array (item :: items), fuel + 1, D, hquiet, _, text, rest, hbytes, h => by
    rw [stringify, List.cons_append, List.append_assoc] at hbytes
    obtain ⟨text, rfl, htext⟩ := cons_of_utf8 (by decide) hbytes
    change (readSequence ']' (readValue reading fuel) (readItems reading fuel) text).map _ = _ at h
    have hquietItems := quiet_items reading.toNumerals items hquiet
    rw [readSequence_open (expect_low rfl hquietItems htext)] at h
    obtain ⟨⟨_, _⟩, htwo, heq⟩ := Option.map_eq_some_iff.mp h
    cases heq
    exact readTwo_low (readValue_low item hquietItems (stops_items _ items D))
      (readItems_low items hquiet) htext htwo
  | .object [], _ + 1, _, _, _, _, _, hbytes, h =>
    ⟨trivial, word_low (show ∀ c ∈ ['\x7b', '\x7d'], c.toNat < 0x80 by decide) (fun _ _ => rfl)
      hbytes h⟩
  | .object ((key, value) :: fields), fuel + 1, D, hquiet, _, text, rest, hbytes, h => by
    rw [stringify, List.cons_append, List.append_assoc, List.cons_append, List.append_assoc]
      at hbytes
    obtain ⟨text, rfl, htext⟩ := cons_of_utf8 (by decide) hbytes
    change (readSequence '\x7d' (readField (readValue reading fuel)) (readFields reading fuel)
      text).map _ = _ at h
    have hquietFields := quiet_fields reading.toNumerals fields hquiet
    have hquietColon := quiet_append (show ∀ c ∈ [':'], Itself c by decide)
      (quiet_value reading.toNumerals value hquietFields)
    have hopen : expect ['\x7d'] (skip text) = none :=
      @expect_low ν reading.toNumerals (.string key) text _ _ rfl hquietColon htext
    rw [readSequence_open hopen] at h
    obtain ⟨⟨_, _⟩, htwo, heq⟩ := Option.map_eq_some_iff.mp h
    cases heq
    obtain ⟨hascii, hrest⟩ := readTwo_low (readField_low (quiet_value _ value hquietFields)
      (readValue_low value hquietFields (stops_fields _ fields D))) (readFields_low fields hquiet)
      htext htwo
    exact ⟨and_assoc.mp hascii, hrest⟩

theorem readItems_low : (items : List (Json ν)) → {fuel : ℕ} → {D : List Char} → Quiet D →
    {text rest : List Char} → utf8 text = low (stringifyItems reading.toNumerals items ++ D) →
    readItems reading fuel text = some (items, rest) → AsciiItems items ∧ utf8 rest = low D
  | _, 0, _, _, _, _, _, h => by cases h
  | [], _ + 1, _, _, _, _, hbytes, h =>
    ⟨trivial, word_low (show ∀ c ∈ [']'], c.toNat < 0x80 by decide) (fun _ _ => rfl) hbytes h⟩
  | item :: items, fuel + 1, D, hquiet, text, rest, hbytes, h => by
    rw [stringifyItems, List.cons_append, List.append_assoc] at hbytes
    obtain ⟨text, rfl, htext⟩ := cons_of_utf8 (by decide) hbytes
    rw [readItems, readMore_comma (by decide)] at h
    exact readTwo_low (readValue_low item (quiet_items _ items hquiet) (stops_items _ items D))
      (readItems_low items hquiet) htext h

theorem readFields_low : (fields : List (String × Json ν)) → {fuel : ℕ} → {D : List Char} →
    Quiet D → {text rest : List Char} →
    utf8 text = low (stringifyFields reading.toNumerals fields ++ D) →
    readFields reading fuel text = some (fields, rest) → AsciiFields fields ∧ utf8 rest = low D
  | _, 0, _, _, _, _, _, h => by cases h
  | [], _ + 1, _, _, _, _, hbytes, h =>
    ⟨trivial, word_low (show ∀ c ∈ ['\x7d'], c.toNat < 0x80 by decide) (fun _ _ => rfl) hbytes h⟩
  | (key, value) :: fields, fuel + 1, D, hquiet, text, rest, hbytes, h => by
    rw [stringifyFields, List.cons_append, List.append_assoc, List.cons_append, List.append_assoc]
      at hbytes
    obtain ⟨text, rfl, htext⟩ := cons_of_utf8 (by decide) hbytes
    rw [readFields, readMore_comma (by decide)] at h
    have hquietFields := quiet_fields reading.toNumerals fields hquiet
    obtain ⟨hascii, hrest⟩ := readTwo_low (readField_low (quiet_value _ value hquietFields)
      (readValue_low value hquietFields (stops_fields _ fields D))) (readFields_low fields hquiet)
      htext h
    exact ⟨and_assoc.mp hascii, hrest⟩

end

mutual

theorem stringify_ascii (numerals : Numerals ν) : (value : Json ν) → Ascii value →
    ∀ c ∈ stringify numerals value, c.toNat < 0x80
  | .null, _ => show ∀ c ∈ "null".toList, c.toNat < 0x80 by decide
  | .boolean true, _ => show ∀ c ∈ "true".toList, c.toNat < 0x80 by decide
  | .boolean false, _ => show ∀ c ∈ "false".toList, c.toNat < 0x80 by decide
  | .number n, _ => fun c hc => (itself_of_numeral (numerals.numeral n c hc)).2.1
  | .string _, h => quote_ascii h
  | .array [], _ => show ∀ c ∈ ['[', ']'], c.toNat < 0x80 by decide
  | .array (item :: items), h => by
    rw [stringify, List.forall_mem_cons, List.forall_mem_append]
    exact ⟨by decide, stringify_ascii numerals item h.1, stringifyItems_ascii numerals items h.2⟩
  | .object [], _ => show ∀ c ∈ ['\x7b', '\x7d'], c.toNat < 0x80 by decide
  | .object ((_, value) :: fields), h => by
    rw [stringify, List.forall_mem_cons, List.forall_mem_append, List.forall_mem_cons,
      List.forall_mem_append]
    exact ⟨by decide, quote_ascii h.1, by decide, stringify_ascii numerals value h.2.1,
      stringifyFields_ascii numerals fields h.2.2⟩

theorem stringifyItems_ascii (numerals : Numerals ν) : (items : List (Json ν)) →
    AsciiItems items → ∀ c ∈ stringifyItems numerals items, c.toNat < 0x80
  | [], _ => show ∀ c ∈ [']'], c.toNat < 0x80 by decide
  | item :: items, h => by
    rw [stringifyItems, List.forall_mem_cons, List.forall_mem_append]
    exact ⟨by decide, stringify_ascii numerals item h.1, stringifyItems_ascii numerals items h.2⟩

theorem stringifyFields_ascii (numerals : Numerals ν) : (fields : List (String × Json ν)) →
    AsciiFields fields → ∀ c ∈ stringifyFields numerals fields, c.toNat < 0x80
  | [], _ => show ∀ c ∈ ['\x7d'], c.toNat < 0x80 by decide
  | (_, value) :: fields, h => by
    rw [stringifyFields, List.forall_mem_cons, List.forall_mem_append, List.forall_mem_cons,
      List.forall_mem_append]
    exact ⟨by decide, quote_ascii h.1, by decide, stringify_ascii numerals value h.2.1,
      stringifyFields_ascii numerals fields h.2.2⟩

end

theorem decodes_encodePayload (payload : List (String × Json ν)) :
    Decodes reading (encodePayload reading.toNumerals payload) payload ↔ AsciiFields payload := by
  have hobject : AsciiFields payload ↔ Ascii (.object payload) := Iff.rfl
  rw [encodePayload_eq, hobject]
  constructor
  · rintro ⟨text, hbytes, hparse⟩
    obtain ⟨⟨value, rest⟩, hread, hend⟩ := Option.bind_eq_some_iff.mp hparse
    obtain rfl : value = .object payload := by
      split_ifs at hend
      exact Option.some.inj hend
    have hquiet : Quiet [] := trivial
    have hstops : Stops [] := trivial
    rw [← List.append_nil (stringify _ _)] at hbytes
    exact (readValue_low reading _ hquiet hstops hbytes hread).1
  · intro h
    exact ⟨_, utf8_low (stringify_ascii reading.toNumerals _ h), parse_stringify reading _⟩

/-- A payload comes back from the dead-letter store exactly when it is ASCII, and two of these are
kept apart. -/
theorem encodePayload_survives :
    (∀ payload, Decodes reading (encodePayload reading.toNumerals payload) payload ↔
      AsciiFields payload) ∧
    Set.InjOn (encodePayload reading.toNumerals) {payload | AsciiFields payload} := by
  refine ⟨decodes_encodePayload reading, fun payload hpayload other hother heq => ?_⟩
  have hascii := stringify_ascii reading.toNumerals (.object payload) hpayload
  rw [encodePayload_eq, encodePayload_eq, ← utf8_low hascii,
    ← List.append_nil (stringify _ (.object other))] at heq
  obtain ⟨text, htext, hnil⟩ :=
    append_of_utf8 (stringify_ascii reading.toNumerals (.object other) hother) heq
  rw [nil_of_utf8 hnil, List.append_nil] at htext
  exact Json.object.inj (stringify_injective reading.toNumerals htext)

end Reading

end Values

def readInt : List Char → Option ℤ
  | [] => none
  | c :: text =>
    if c = '-' then (Builtins.decimalDigits text).map fun n => -(n : ℤ)
    else (Builtins.decimalDigits (c :: text)).map fun n => (n : ℤ)

theorem decimalDigits_toDigits (n : ℕ) :
    Builtins.decimalDigits (Nat.toDigits 10 n) = some n := by
  have hall : (Nat.toDigits 10 n).all Char.isDigit = true :=
    List.all_eq_true.mpr fun _ hc => isDigit_toDigits hc
  rw [Builtins.decimalDigits, if_pos ⟨Nat.toDigits_ne_nil, hall⟩, Nat.ofDigitChars_ten_toDigits]

def wholeReading : Reading ℤ where
  toNumerals := wholeNumerals
  read := readInt
  read_write n := by
    cases n with
    | ofNat n =>
      obtain ⟨c, rest, hwrite⟩ :=
        List.exists_cons_of_ne_nil (Nat.toDigits_ne_nil (n := n) (b := 10))
      have hc : c ≠ '-' := by
        rintro rfl
        have hdash : '-' ∈ Nat.toDigits 10 n := hwrite ▸ List.mem_cons_self
        exact absurd (isDigit_toDigits hdash) (by decide)
      change readInt (Nat.toDigits 10 n) = some (Int.ofNat n)
      rw [hwrite, readInt, if_neg hc, ← hwrite, decimalDigits_toDigits]
      rfl
    | negSucc n =>
      change readInt ('-' :: Nat.toDigits 10 (n + 1)) = some (Int.negSucc n)
      rw [readInt, if_pos rfl, decimalDigits_toDigits]
      rfl

def ota : List (String × Json ℤ) := [("city", .string "Ōta")]

def lta : List (String × Json ℤ) := [("city", .string "Lta")]

theorem encodePayload_survives_lta : Decodes wholeReading (encodePayload wholeNumerals lta) lta :=
  ((encodePayload_survives wholeReading).1 lta).mpr
    ⟨by decide, show ∀ c ∈ "Lta".toList, c.toNat < 0x80 by decide, trivial⟩

theorem encodePayload_loses : ¬ (Decodes wholeReading (encodePayload wholeNumerals ota) ota) ∧
    encodePayload wholeNumerals ota = encodePayload wholeNumerals lta ∧ ota ≠ lta := by
  refine ⟨fun h => ?_, by decide, by simp [ota, lta]⟩
  have hascii := (decodes_encodePayload wholeReading ota).mp h
  exact absurd (hascii.2.1 'Ō' (by decide)) (by decide)

end Tracking
