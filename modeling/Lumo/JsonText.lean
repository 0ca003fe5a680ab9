import Mathlib.Data.List.Basic
import Mathlib.Data.List.Lex
import Mathlib.Data.List.Sort
import Mathlib.Tactic.IntervalCases

/-! # JSON as text

A value is written as `JSON.stringify` writes it. How a number is written is a parameter. -/
namespace JsonText

variable {ν : Type}

def isNumeral (c : Char) : Bool :=
  c.isDigit || c = '-' || c = '+' || c = '.' || c = 'e' || c = 'E'

structure Numerals (ν : Type) where
  write : ν → List Char
  numeral : ∀ n, ∀ c ∈ write n, isNumeral c = true
  first : ∀ n, ∃ c rest, write n = c :: rest ∧ (c.isDigit = true ∨ c = '-')
  injective : ∀ m n, write m = write n → m = n

inductive Json (ν : Type) where
  | null
  | boolean (b : Bool)
  | number (n : ν)
  | string (s : String)
  | array (items : List (Json ν))
  | object (fields : List (String × Json ν))

def hexDigit (n : ℕ) : Char := Nat.digitChar n

def escape (c : Char) : List Char :=
  if c = '"' then ['\\', '"']
  else if c = '\\' then ['\\', '\\']
  else if c.toNat < 0x20 then
    match c.toNat with
    | 8 => ['\\', 'b']
    | 9 => ['\\', 't']
    | 10 => ['\\', 'n']
    | 12 => ['\\', 'f']
    | 13 => ['\\', 'r']
    | n => ['\\', 'u', '0', '0', hexDigit (n / 16), hexDigit (n % 16)]
  else [c]

def quote (s : String) : List Char := '"' :: (s.toList.flatMap escape ++ ['"'])

section Stringify

variable (numerals : Numerals ν)

mutual

def stringify : Json ν → List Char
  | .null => "null".toList
  | .boolean true => "true".toList
  | .boolean false => "false".toList
  | .number n => numerals.write n
  | .string s => quote s
  | .array [] => ['[', ']']
  | .array (item :: items) => '[' :: (stringify item ++ stringifyItems items)
  | .object [] => ['\x7b', '\x7d']
  | .object ((key, value) :: fields) =>
    '\x7b' :: (quote key ++ ':' :: (stringify value ++ stringifyFields fields))

def stringifyItems : List (Json ν) → List Char
  | [] => [']']
  | item :: items => ',' :: (stringify item ++ stringifyItems items)

def stringifyFields : List (String × Json ν) → List Char
  | [] => ['\x7d']
  | (key, value) :: fields =>
    ',' :: (quote key ++ ':' :: (stringify value ++ stringifyFields fields))

end

end Stringify

variable {n : ℕ} {rest : List Char}

theorem escape_head (c : Char) : ∃ d rest, escape c = d :: rest ∧ d ≠ '"' := by
  unfold escape
  split
  · exact ⟨_, _, rfl, by decide⟩
  · rename_i hquote
    split
    · exact ⟨_, _, rfl, by decide⟩
    · split
      · split <;> exact ⟨_, _, rfl, by decide⟩
      · exact ⟨_, _, rfl, hquote⟩

def Stops : List Char → Prop
  | [] => True
  | c :: _ => isNumeral c = false

theorem takeWhile_write (numerals : Numerals ν) (n : ν) (hrest : Stops rest) :
    (numerals.write n ++ rest).takeWhile isNumeral = numerals.write n := by
  rw [List.takeWhile_append_of_pos (numerals.numeral n)]
  cases rest with
  | nil => simp
  | cons c rest => simp [show isNumeral c = false from hrest]

theorem stops_items (numerals : Numerals ν) (items : List (Json ν)) (rest : List Char) :
    Stops (stringifyItems numerals items ++ rest) := by
  cases items with
  | nil => exact rfl
  | cons item items =>
    rw [stringifyItems]
    exact rfl

theorem stops_fields (numerals : Numerals ν) (fields : List (String × Json ν))
    (rest : List Char) : Stops (stringifyFields numerals fields ++ rest) := by
  cases fields with
  | nil => exact rfl
  | cons field fields =>
    rw [stringifyFields]
    exact rfl

/-- The kinds of value, as the first character tells them. -/
def kind : Json ν → ℕ
  | .null => 0
  | .boolean true => 1
  | .boolean false => 2
  | .number _ => 3
  | .string _ => 4
  | .array _ => 5
  | .object _ => 6

def kindOf (c : Char) : ℕ :=
  if c = 'n' then 0
  else if c = 't' then 1
  else if c = 'f' then 2
  else if c.isDigit ∨ c = '-' then 3
  else if c = '"' then 4
  else if c = '[' then 5
  else if c = '\x7b' then 6
  else 7

theorem stringify_head (numerals : Numerals ν) (value : Json ν) :
    ∃ c rest, stringify numerals value = c :: rest ∧ kindOf c = kind value := by
  cases value with
  | null => exact ⟨'n', "ull".toList, rfl, rfl⟩
  | boolean b =>
    cases b with
    | true => exact ⟨'t', "rue".toList, rfl, rfl⟩
    | false => exact ⟨'f', "alse".toList, rfl, rfl⟩
  | number n =>
    obtain ⟨c, rest, hwrite, hc⟩ := numerals.first n
    refine ⟨c, rest, by rw [stringify, hwrite], ?_⟩
    have hne (d : Char) (hd : d.isDigit = false) (hdash : d ≠ '-') : c ≠ d := by
      rintro rfl
      rcases hc with hdigit | heq
      · rw [hd] at hdigit
        cases hdigit
      · exact hdash heq
    rw [kindOf, if_neg (hne 'n' rfl (by decide)), if_neg (hne 't' rfl (by decide)),
      if_neg (hne 'f' rfl (by decide)), if_pos hc]
    rfl
  | string s => exact ⟨'"', _, by rw [stringify, quote], rfl⟩
  | array items =>
    cases items with
    | nil | cons item items => exact ⟨'[', _, by rw [stringify], rfl⟩
  | object fields =>
    cases fields with
    | nil | cons field fields => exact ⟨'\x7b', _, by rw [stringify], rfl⟩

def writeInt : ℤ → List Char
  | .ofNat n => Nat.toDigits 10 n
  | .negSucc n => '-' :: Nat.toDigits 10 (n + 1)

theorem toDigits_injective {m : ℕ} (h : Nat.toDigits 10 m = Nat.toDigits 10 n) : m = n := by
  have hread := congrArg (fun l => Nat.ofDigitChars 10 l 0) h
  simpa only [Nat.ofDigitChars_ten_toDigits] using hread

theorem isDigit_toDigits {c : Char} (hc : c ∈ Nat.toDigits 10 n) : c.isDigit = true :=
  Nat.isDigit_of_mem_toDigits (by omega) (by omega) hc

theorem toDigits_ne_dash {m : ℕ} : '-' :: Nat.toDigits 10 m ≠ Nat.toDigits 10 n := by
  intro h
  have hdash : '-' ∈ Nat.toDigits 10 n := h ▸ List.mem_cons_self
  exact absurd (isDigit_toDigits hdash) (by decide)

def wholeNumerals : Numerals ℤ where
  write := writeInt
  numeral n c hc := by
    have hdigit (m : ℕ) (hc : c ∈ Nat.toDigits 10 m) : isNumeral c = true := by
      simp [isNumeral, isDigit_toDigits hc]
    cases n with
    | ofNat n => exact hdigit n hc
    | negSucc n =>
      rcases List.mem_cons.mp hc with rfl | hc
      · rfl
      · exact hdigit (n + 1) hc
  first n := by
    cases n with
    | ofNat n =>
      obtain ⟨c, rest, hwrite⟩ := List.exists_cons_of_ne_nil (Nat.toDigits_ne_nil (n := n) (b := 10))
      refine ⟨c, rest, hwrite, .inl (isDigit_toDigits (n := n) ?_)⟩
      rw [hwrite]
      exact List.mem_cons_self
    | negSucc n => exact ⟨'-', _, rfl, .inr rfl⟩
  injective m n h := by
    cases m with
    | ofNat m =>
      cases n with
      | ofNat n => exact congrArg Int.ofNat (toDigits_injective h)
      | negSucc n => exact absurd h.symm toDigits_ne_dash
    | negSucc m =>
      cases n with
      | ofNat n => exact absurd h toDigits_ne_dash
      | negSucc n =>
        have hsucc := toDigits_injective (List.cons.inj h).2
        exact congrArg Int.negSucc (by omega)

end JsonText

/-! ## JSON by its meaning

An object is a partial function of its keys, whatever order they are written in. A value whose keys
are in order is the only one of its meaning. -/
namespace JsonText

variable {ν : Type}

inductive JsonTree (ν : Type) where
  | null
  | boolean (b : Bool)
  | number (n : ν)
  | string (s : String)
  | array (items : List (JsonTree ν))
  | object (property : String → Option (JsonTree ν))

mutual

def tree : Json ν → JsonTree ν
  | .null => .null
  | .boolean b => .boolean b
  | .number n => .number n
  | .string s => .string s
  | .array items => .array (treeItems items)
  | .object fields => .object (treeFields fields)

def treeItems : List (Json ν) → List (JsonTree ν)
  | [] => []
  | item :: items => tree item :: treeItems items

def treeFields : List (String × Json ν) → String → Option (JsonTree ν)
  | [], _ => none
  | (key, value) :: fields, name => if key = name then some (tree value) else treeFields fields name

end

section Ordered

variable {K : Type} [LinearOrder K] (rank : String → K)

mutual

/-- The keys of every object ascend. -/
def Ordered : Json ν → Prop
  | .array items => OrderedItems items
  | .object fields => OrderedFields fields
  | _ => True

def OrderedItems : List (Json ν) → Prop
  | [] => True
  | item :: items => Ordered item ∧ OrderedItems items

def OrderedFields : List (String × Json ν) → Prop
  | [] => True
  | (key, value) :: fields =>
    (∀ entry ∈ fields, rank key < rank entry.1) ∧ Ordered value ∧ OrderedFields fields

end

variable {rank} {fields : List (String × Json ν)} {key name : String} {value : Json ν}

theorem orderedFields_iff : OrderedFields rank fields ↔
    fields.Pairwise (fun a b => rank a.1 < rank b.1) ∧ ∀ entry ∈ fields, Ordered rank entry.2 := by
  induction fields with
  | nil => simp [OrderedFields]
  | cons entry fields ih =>
    rw [OrderedFields, ih, List.pairwise_cons, List.forall_mem_cons]
    tauto

theorem exists_of_treeFields {t : JsonTree ν} (h : treeFields fields name = some t) :
    ∃ entry ∈ fields, entry.1 = name := by
  induction fields with
  | nil => cases h
  | cons entry fields ih =>
    obtain ⟨key, value⟩ := entry
    rw [treeFields] at h
    by_cases hkey : key = name
    · exact ⟨(key, value), List.mem_cons_self, hkey⟩
    · rw [if_neg hkey] at h
      obtain ⟨entry, hentry, hname⟩ := ih h
      exact ⟨entry, List.mem_cons_of_mem _ hentry, hname⟩

theorem treeFields_self : treeFields ((key, value) :: fields) key = some (tree value) := by
  rw [treeFields, if_pos rfl]

theorem treeFields_before (h : ∀ entry ∈ fields, rank key < rank entry.1) :
    treeFields fields key = none := by
  cases hfound : treeFields fields key with
  | none => rfl
  | some t =>
    obtain ⟨entry, hentry, rfl⟩ := exists_of_treeFields hfound
    exact absurd (h entry hentry) (lt_irrefl _)

theorem first_le {key' : String} {value' : Json ν} {fields' : List (String × Json ν)}
    (h : treeFields ((key, value) :: fields) = treeFields ((key', value') :: fields'))
    (hfields' : ∀ entry ∈ fields', rank key' < rank entry.1) :
    key' = key ∨ rank key' < rank key := by
  have hfound : treeFields ((key', value') :: fields') key = some (tree value) := by
    rw [← h, treeFields_self]
  obtain ⟨entry, hentry, rfl⟩ := exists_of_treeFields hfound
  rcases List.mem_cons.mp hentry with rfl | hrest
  · exact .inl rfl
  · exact .inr (hfields' entry hrest)

mutual

theorem tree_unique : (a b : Json ν) → Ordered rank a → Ordered rank b → tree a = tree b → a = b
  | .null, b, _, _, h => by cases b <;> simp_all [tree]
  | .boolean _, b, _, _, h => by cases b <;> simp_all [tree]
  | .number _, b, _, _, h => by cases b <;> simp_all [tree]
  | .string _, b, _, _, h => by cases b <;> simp_all [tree]
  | .array items, b, ha, hb, h => by
    cases b with
    | array items' =>
      rw [tree, tree, JsonTree.array.injEq] at h
      rw [treeItems_unique items items' ha hb h]
    | _ => simp [tree] at h
  | .object fields, b, ha, hb, h => by
    cases b with
    | object fields' =>
      rw [tree, tree, JsonTree.object.injEq] at h
      rw [treeFields_unique fields fields' ha hb h]
    | _ => simp [tree] at h

theorem treeItems_unique : (l l' : List (Json ν)) → OrderedItems rank l → OrderedItems rank l' →
    treeItems l = treeItems l' → l = l'
  | [], l', _, _, h => by
    cases l' with
    | nil => rfl
    | cons item' l' => simp [treeItems] at h
  | item :: l, l', ha, hb, h => by
    cases l' with
    | nil => simp [treeItems] at h
    | cons item' l' =>
      rw [treeItems, treeItems, List.cons.injEq] at h
      rw [tree_unique item item' ha.1 hb.1 h.1, treeItems_unique l l' ha.2 hb.2 h.2]

theorem treeFields_unique : (l l' : List (String × Json ν)) → OrderedFields rank l →
    OrderedFields rank l' → treeFields l = treeFields l' → l = l'
  | [], l', _, _, h => by
    cases l' with
    | nil => rfl
    | cons entry' l' =>
      obtain ⟨key', value'⟩ := entry'
      have hfound := congrFun h key'
      rw [treeFields_self] at hfound
      cases hfound
  | (key, value) :: l, l', ha, hb, h => by
    cases l' with
    | nil =>
      have hfound := congrFun h key
      rw [treeFields_self] at hfound
      cases hfound
    | cons entry' l' =>
      obtain ⟨key', value'⟩ := entry'
      have hkey : key' = key := by
        rcases first_le h hb.1 with heq | hlt
        · exact heq
        · rcases first_le h.symm ha.1 with heq | hgt
          · exact heq.symm
          · exact absurd (hlt.trans hgt) (lt_irrefl _)
      subst hkey
      have hvalue := congrFun h key'
      rw [treeFields_self, treeFields_self, Option.some.injEq] at hvalue
      have hrest : treeFields l = treeFields l' := by
        funext name
        by_cases hname : key' = name
        · rw [← hname, treeFields_before ha.1, treeFields_before hb.1]
        · have hfound := congrFun h name
          rwa [treeFields, treeFields, if_neg hname, if_neg hname] at hfound
      rw [tree_unique value value' ha.2.1 hb.2.1 hvalue, treeFields_unique l l' ha.2.2 hb.2.2 hrest]

end

theorem treeFields_perm {l l' : List (String × Json ν)} (h : l.Perm l')
    (hdistinct : (l.map Prod.fst).Nodup) : treeFields l = treeFields l' := by
  induction h with
  | nil => rfl
  | cons entry _ ih =>
    obtain ⟨key, value⟩ := entry
    rw [List.map_cons, List.nodup_cons] at hdistinct
    funext name
    rw [treeFields, treeFields, ih hdistinct.2]
  | swap entry entry' l =>
    obtain ⟨key, value⟩ := entry
    obtain ⟨key', value'⟩ := entry'
    rw [List.map_cons, List.map_cons, List.nodup_cons] at hdistinct
    funext name
    simp only [treeFields]
    by_cases hname : key = name
    · have hne : ¬ key' = name := by
        rintro rfl
        exact hdistinct.1 (hname ▸ List.mem_cons_self)
      simp only [if_pos hname, if_neg hne]
    · simp only [if_neg hname]
  | trans hfirst _ ih ih' =>
    rw [ih hdistinct, ih' ((hfirst.map Prod.fst).nodup_iff.mp hdistinct)]

end Ordered

end JsonText
