import Lumo.FallibleFolds
import Lumo.LargestRemainder
import Lumo.PromotionsDiscountCalculator

/-! # What one discount takes off each line

Whole units, and never more than is left of the line. -/
namespace Promotions

open SharedKernel Builtins

def IsWhole (value : ℚ) : Prop := ∃ z : ℤ, value = z

variable {a : ℚ}

variable {b percentage : ℚ} {amounts : OrderedMap String ℚ}

theorem IsWhole.add (ha : IsWhole a) (hb : IsWhole b) : IsWhole (a + b) := by
  obtain ⟨x, rfl⟩ := ha
  obtain ⟨y, rfl⟩ := hb
  exact ⟨x + y, by push_cast; rfl⟩

theorem IsWhole.min {a b : ℚ} (ha : IsWhole a) (hb : IsWhole b) : IsWhole (min a b) := by
  rcases min_choice a b with h | h
  · rw [h]
    exact ha
  · rw [h]
    exact hb

theorem IsWhole.amount (ha : IsWhole a) (h : 0 ≤ a) : IsAmount a := by
  obtain ⟨z, rfl⟩ := ha
  exact IsAmount.of_int h

theorem isWhole_of_amount (ha : IsAmount a) : IsWhole a := by
  obtain ⟨n, rfl⟩ := ha
  exact ⟨n, by push_cast; rfl⟩

theorem IsWhole.sub (ha : IsWhole a) (hb : IsWhole b) : IsWhole (a - b) := by
  obtain ⟨x, rfl⟩ := ha
  obtain ⟨y, rfl⟩ := hb
  exact ⟨x - y, by push_cast; rfl⟩

def AllAmounts (amounts : OrderedMap String ℚ) : Prop := ∀ ref, IsAmount (amountOf amounts ref)

def FitsIn (remaining off : OrderedMap String ℚ) : Prop :=
  ∀ e ∈ off.entries, IsWhole e.2 ∧ e.2 ≤ amountOf remaining e.1

theorem percentOf_whole (amount percentage : ℚ) : IsWhole (percentOf amount percentage) := ⟨_, rfl⟩

theorem mathRound_percent (hp : percentage ≤ 100) :
    ((mathRound (percentage * 100) : ℤ) : ℚ) ≤ 10000 := by
  have hround : mathRound (percentage * 100) ≤ 10000 := by
    rw [mathRound, ← Int.lt_add_one_iff, Int.floor_lt]
    push_cast
    linarith
  exact_mod_cast hround

theorem percentOf_le {amount : ℚ} (ha : 0 ≤ amount) (hp : percentage ≤ 100) :
    percentOf amount percentage ≤ amount := by
  have hcast := mathRound_percent hp
  calc percentOf amount percentage
      ≤ amount * mathRound (percentage * 100) / 10000 := Int.floor_le _
    _ ≤ amount * 10000 / 10000 := by gcongr
    _ = amount := by ring

theorem amountOf_of_mem {ref : String} {x : ℚ} (h : (ref, x) ∈ amounts.entries) :
    amountOf amounts ref = x := by
  rw [amountOf, OrderedMap.find?_eq_some.mpr h]
  rfl

@[simp] theorem amountOf_empty (ref : String) : amountOf OrderedMap.empty ref = 0 := rfl

@[simp] theorem amountOf_set (amounts : OrderedMap String ℚ) (ref other : String) (x : ℚ) :
    amountOf (amounts.set ref x) other = if other = ref then x else amountOf amounts other := by
  rw [amountOf, OrderedMap.find?_set]
  split
  · rfl
  · rfl

theorem amountOf_whole (h : ∀ e ∈ amounts.entries, IsWhole e.2) (ref : String) :
    IsWhole (amountOf amounts ref) := by
  cases hf : amounts.find? ref with
  | none =>
    rw [amountOf, hf]
    exact ⟨0, by simp⟩
  | some x =>
    have hmem := OrderedMap.find?_eq_some.mp hf
    rw [amountOf_of_mem hmem]
    exact h _ hmem

section Allocation

variable {base : List Base} {total : ℚ}

def exactShares (total : ℚ) (base : List Base) : List ℚ :=
  base.map fun b => total * b.amount / (base.map (·.amount)).sum

def sharesOf (total : ℚ) (base : List Base) : List Share :=
  base.zipIdx.map fun b => shareOf total (base.map (·.amount)).sum b.1 b.2

/-- The shares that `allocate` rounds up. -/
def roundedUp (total : ℚ) (base : List Base) : List ℕ :=
  handOut (total - ((sharesOf total base).map (·.value)).sum)
    (sortBy compareShares (sharesOf total base))

def rounded (more : List ℕ) (share : Share) : ℚ :=
  if share.index ∈ more then share.value + 1 else share.value

theorem allocate_eq (total : ℚ) (base : List Base) :
    allocate total base =
      if total ≤ 0 ∨ (base.map (·.amount)).sum ≤ 0 then
        OrderedMap.ofEntries (base.map fun b => (b.ref, 0))
      else OrderedMap.ofEntries ((sharesOf total base).map fun share =>
        (share.ref, rounded (roundedUp total base) share)) := rfl

theorem sum_mul_div (a c : ℚ) (l : List ℚ) : (l.map fun x => a * x / c).sum = a * l.sum / c := by
  induction l with
  | nil => simp
  | cons x xs ih =>
    simp only [List.map_cons, List.sum_cons, ih]
    ring

theorem sum_exactShares (h : (base.map (·.amount)).sum ≠ 0) :
    (exactShares total base).sum = total := by
  have hs := sum_mul_div total (base.map (·.amount)).sum (base.map (·.amount))
  rw [List.map_map] at hs
  rw [exactShares]
  exact hs.trans (mul_div_cancel_right₀ total h)

theorem map_zipIdx_fst {β : Type} (f : Base → β) (base : List Base) :
    (base.zipIdx.map fun b => f b.1) = base.map f :=
  List.map_map.symm.trans (congrArg _ (List.zipIdx_map_fst 0 base))

theorem sharesOf_values (total : ℚ) (base : List Base) :
    (sharesOf total base).map (·.value) =
      (exactShares total base).map fun x => ((⌊x⌋ : ℤ) : ℚ) := by
  rw [sharesOf, List.map_map, exactShares, List.map_map]
  exact map_zipIdx_fst (fun b => ((⌊total * b.amount / (base.map (·.amount)).sum⌋ : ℤ) : ℚ)) base

theorem sharesOf_fractions (total : ℚ) (base : List Base) :
    (sharesOf total base).map (·.fraction) = (exactShares total base).map Int.fract := by
  rw [sharesOf, List.map_map, exactShares, List.map_map]
  exact map_zipIdx_fst (fun b => Int.fract (total * b.amount / (base.map (·.amount)).sum)) base

theorem sharesOf_indexes (total : ℚ) (base : List Base) :
    (sharesOf total base).map (·.index) = List.range base.length := by
  rw [sharesOf, List.map_map, List.range_eq_range']
  exact List.zipIdx_map_snd 0 base

theorem sortBy_shares_indexes (total : ℚ) (base : List Base) :
    ((sortBy compareShares (sharesOf total base)).map (·.index)).Perm (List.range base.length) := by
  rw [← sharesOf_indexes total base]
  exact (sortBy_perm compareShares _).map _

theorem sharesOf_refs (total : ℚ) (base : List Base) :
    (sharesOf total base).map (·.ref) = base.map (·.ref) := by
  rw [sharesOf, List.map_map]
  exact map_zipIdx_fst (·.ref) base

theorem handOut_natCast (n : ℕ) (l : List Share) : handOut n l = (l.take n).map (·.index) := by
  induction l generalizing n with
  | nil => simp [handOut]
  | cons share rest ih =>
    cases n with
    | zero => simp [handOut]
    | succ n =>
      have hne : ((n + 1 : ℕ) : ℚ) ≠ 0 := by positivity
      have hpred : ((n + 1 : ℕ) : ℚ) - 1 = n := by push_cast; ring
      rw [handOut, if_neg hne, hpred, ih, List.take_succ_cons, List.map_cons]

variable {b : Share} {i : ℕ}

theorem compareShares_le {a : Share} :
    compareShares a b ≤ 0 ↔
      b.fraction < a.fraction ∨ (b.fraction = a.fraction ∧ a.index ≤ b.index) := by
  rw [compareShares]
  split
  · rename_i h
    have heq : b.fraction = a.fraction := sub_eq_zero.mp h
    simp [heq]
  · rename_i h
    have hne : b.fraction ≠ a.fraction := sub_ne_zero.mp h
    rw [sub_nonpos, le_iff_lt_or_eq]
    simp [hne]

theorem sorted_shares (l : List Share) :
    (sortBy compareShares l).Pairwise fun a b => b.fraction ≤ a.fraction := by
  have : Std.Total fun a b : Share => compareShares a b ≤ 0 := by
    constructor
    intro a b
    rw [compareShares_le, compareShares_le]
    rcases lt_trichotomy a.fraction b.fraction with h | h | h
    · exact Or.inr (Or.inl h)
    · rcases le_total a.index b.index with hi | hi
      · exact Or.inl (Or.inr ⟨h.symm, hi⟩)
      · exact Or.inr (Or.inr ⟨h, hi⟩)
    · exact Or.inl (Or.inl h)
  have : IsTrans Share fun a b : Share => compareShares a b ≤ 0 := by
    constructor
    intro a b c hab hbc
    rw [compareShares_le] at *
    grind
  apply (List.pairwise_insertionSort (fun a b : Share => compareShares a b ≤ 0) l).imp
  intro a b h
  rcases compareShares_le.mp h with hlt | ⟨heq, _⟩
  · exact le_of_lt hlt
  · exact le_of_eq heq

/-- The shares rounded up are as many as there are units left over, and each of them lost
something when it was rounded down. -/
theorem roundedUp_spec (htotal : IsWhole total) (hsum : (base.map (·.amount)).sum ≠ 0) :
    ∃ n : ℕ, (n : ℚ) = total - ((sharesOf total base).map (·.value)).sum ∧
      roundedUp total base =
        ((sortBy compareShares (sharesOf total base)).take n).map (·.index) ∧
      n ≤ base.length ∧
      ∀ share ∈ (sortBy compareShares (sharesOf total base)).take n, 0 < share.fraction := by
  obtain ⟨t, rfl⟩ := htotal
  have hexact : (exactShares (t : ℚ) base).sum = t := sum_exactShares hsum
  obtain ⟨n, hn⟩ := Int.eq_ofNat_of_zero_le (LargestRemainder.leftover_nonneg hexact)
  have hleft : (n : ℚ) = t - ((sharesOf (t : ℚ) base).map (·.value)).sum := by
    have hcast : ((exactShares (t : ℚ) base).map fun x => ((⌊x⌋ : ℤ) : ℚ)).sum =
        (((exactShares (t : ℚ) base).map Int.floor).sum : ℤ) := by
      induction exactShares (t : ℚ) base with
      | nil => simp
      | cons x xs ih => simp [ih]
    rw [sharesOf_values, hcast, ← Int.cast_sub]
    exact_mod_cast hn.symm
  have hperm := sortBy_perm compareShares (sharesOf (t : ℚ) base)
  have hcount : n ≤ (sortBy compareShares (sharesOf (t : ℚ) base)).countP
      fun share => 0 < share.fraction := by
    have hle := LargestRemainder.leftover_le_count hexact
    rw [hn] at hle
    rw [hperm.countP_eq]
    have hmap := List.countP_map (p := fun x : ℚ => decide (0 < x)) (f := fun s : Share => s.fraction)
      (l := sharesOf (t : ℚ) base)
    have hmap' := List.countP_map (p := fun x : ℚ => decide (0 < x)) (f := Int.fract)
      (l := exactShares (t : ℚ) base)
    rw [sharesOf_fractions, hmap'] at hmap
    have hle' : n ≤ (exactShares (t : ℚ) base).countP fun x => decide (0 < Int.fract x) := by
      exact_mod_cast hle
    exact hle'.trans_eq hmap
  refine ⟨n, hleft, ?_, ?_, ?_⟩
  · rw [roundedUp, ← hleft, handOut_natCast]
  · have hlen := hcount.trans List.countP_le_length
    rwa [hperm.length_eq, sharesOf, List.length_map, List.length_zipIdx] at hlen
  · exact LargestRemainder.take_positive (sorted_shares _) hcount

theorem share_of_index {a : Share} (ha : a ∈ sharesOf total base) (hb : b ∈ sharesOf total base)
    (h : a.index = b.index) : a = b := by
  have hnodup : ((sharesOf total base).map (·.index)).Nodup := by
    rw [sharesOf_indexes]
    exact List.nodup_range
  exact List.inj_on_of_nodup_map hnodup ha hb h

theorem rounded_whole (more : List ℕ) (total sum : ℚ) (b : Base) (i : ℕ) :
    IsWhole (rounded more (shareOf total sum b i)) := by
  rw [rounded]
  split
  · exact ⟨⌊total * b.amount / sum⌋ + 1, by push_cast; rfl⟩
  · exact ⟨⌊total * b.amount / sum⌋, rfl⟩

theorem rounded_near (htotal : IsWhole total) (hsum : (base.map (·.amount)).sum ≠ 0) {b : Base}
    (hb : (b, i) ∈ base.zipIdx) :
    rounded (roundedUp total base) (shareOf total (base.map (·.amount)).sum b i) <
        total * b.amount / (base.map (·.amount)).sum + 1 ∧
      total * b.amount / (base.map (·.amount)).sum <
        rounded (roundedUp total base) (shareOf total (base.map (·.amount)).sum b i) + 1 := by
  obtain ⟨n, _, hmore, _, hlost⟩ := roundedUp_spec htotal hsum
  have hmem : shareOf total (base.map (·.amount)).sum b i ∈ sharesOf total base :=
    List.mem_map.mpr ⟨(b, i), hb, rfl⟩
  have hfloor := Int.floor_le (total * b.amount / (base.map (·.amount)).sum)
  have hceil := Int.lt_floor_add_one (total * b.amount / (base.map (·.amount)).sum)
  rw [rounded]
  split
  · rename_i hup
    rw [hmore] at hup
    obtain ⟨share, hshare, hindex⟩ := List.mem_map.mp hup
    have hin : share ∈ sharesOf total base :=
      (sortBy_perm compareShares _).mem_iff.mp (List.mem_of_mem_take hshare)
    obtain rfl := share_of_index hin hmem hindex
    have hpos := hlost _ hshare
    rw [shareOf] at hpos ⊢
    constructor <;> linarith
  · rw [shareOf]
    constructor <;> linarith

theorem rounded_bounds (htotal : IsWhole total) (hpos : 0 < total)
    (hle : total ≤ (base.map (·.amount)).sum) {b : Base} (hb : (b, i) ∈ base.zipIdx)
    (hamount : IsAmount b.amount) :
    0 ≤ rounded (roundedUp total base) (shareOf total (base.map (·.amount)).sum b i) ∧
      rounded (roundedUp total base) (shareOf total (base.map (·.amount)).sum b i) ≤ b.amount := by
  have hsum : 0 < (base.map (·.amount)).sum := hpos.trans_le hle
  obtain ⟨hup, hdown⟩ := rounded_near htotal hsum.ne' hb
  obtain ⟨z, hz⟩ := rounded_whole (roundedUp total base) total (base.map (·.amount)).sum b i
  have hexact : total * b.amount / (base.map (·.amount)).sum ≤ b.amount := by
    rw [div_le_iff₀ hsum, mul_comm]
    exact mul_le_mul_of_nonneg_left hle hamount.nonneg
  have hnonneg : 0 ≤ total * b.amount / (base.map (·.amount)).sum :=
    div_nonneg (mul_nonneg hpos.le hamount.nonneg) hsum.le
  obtain ⟨m, hm⟩ := hamount
  rw [hz] at hup hdown ⊢
  have hz0 : (0 : ℚ) < z + 1 := hnonneg.trans_lt hdown
  have hzm : (z : ℚ) < b.amount + 1 := hup.trans_le (by linarith)
  rw [hm] at hzm ⊢
  norm_cast at hz0 hzm ⊢
  omega

theorem allocate_fits {remaining : OrderedMap String ℚ} (hrem : AllAmounts remaining)
    (hbase : ∀ b ∈ base, b.amount = amountOf remaining b.ref) (htotal : IsWhole total)
    (hle : total ≤ (base.map (·.amount)).sum) : FitsIn remaining (allocate total base) := by
  have hamount : ∀ b ∈ base, IsAmount b.amount := by
    intro b hb
    rw [hbase b hb]
    exact hrem b.ref
  intro e he
  rw [allocate_eq] at he
  split at he
  · obtain ⟨b, hb, rfl⟩ := List.mem_map.mp (OrderedMap.mem_of_mem_ofEntries he)
    exact ⟨⟨0, by simp⟩, (hrem b.ref).nonneg⟩
  · rename_i hpos
    push Not at hpos
    obtain ⟨share, hshare, rfl⟩ := List.mem_map.mp (OrderedMap.mem_of_mem_ofEntries he)
    obtain ⟨⟨b, i⟩, hb, rfl⟩ := List.mem_map.mp hshare
    have hmem : b ∈ base := List.fst_mem_of_mem_zipIdx hb
    obtain ⟨_, hbound⟩ := rounded_bounds htotal hpos.1 hle hb (hamount b hmem)
    exact ⟨rounded_whole _ _ _ b i, hbound.trans_eq (hbase b hmem)⟩

theorem rounded_total (htotal : IsWhole total) (hsum : (base.map (·.amount)).sum ≠ 0) :
    ((sharesOf total base).map (rounded (roundedUp total base))).sum = total := by
  obtain ⟨n, hleft, hmore, hlen, _⟩ := roundedUp_spec htotal hsum
  have hindexes : ((sharesOf total base).map (·.index)).Nodup := by
    rw [sharesOf_indexes]
    exact List.nodup_range
  have hsorted := sortBy_shares_indexes total base
  have hpicked : (roundedUp total base).Sublist
      ((sortBy compareShares (sharesOf total base)).map (·.index)) := by
    rw [hmore]
    exact (List.take_sublist _ _).map _
  have hsub : ∀ i ∈ roundedUp total base, i ∈ (sharesOf total base).map (·.index) := by
    intro i hi
    rw [sharesOf_indexes]
    exact hsorted.mem_iff.mp (hpicked.subset hi)
  have hnodup : (roundedUp total base).Nodup :=
    (hsorted.nodup_iff.mpr List.nodup_range).sublist hpicked
  have hcount : (roundedUp total base).length = n := by
    rw [hmore, List.length_map, List.length_take, (sortBy_perm _ _).length_eq, sharesOf,
      List.length_map, List.length_zipIdx]
    exact Nat.min_eq_left hlen
  have hadded := LargestRemainder.sum_picked (fun share : Share => share.index)
    (fun share => share.value) hindexes hnodup hsub
  apply hadded.trans
  rw [hcount, hleft]
  ring

theorem allocate_total (htotal : IsWhole total) (hpos : 0 < total)
    (hsum : 0 < (base.map (·.amount)).sum) (hrefs : (base.map (·.ref)).Nodup) :
    ((allocate total base).entries.map Prod.snd).sum = total := by
  have hnot : ¬ (total ≤ 0 ∨ (base.map (·.amount)).sum ≤ 0) := by
    push Not
    exact ⟨hpos, hsum⟩
  have hkeys : (((sharesOf total base).map fun share =>
      (share.ref, rounded (roundedUp total base) share)).map Prod.fst).Nodup := by
    rw [List.map_map]
    change ((sharesOf total base).map (·.ref)).Nodup
    rw [sharesOf_refs]
    exact hrefs
  rw [allocate_eq, if_neg hnot, OrderedMap.entries_ofEntries hkeys, List.map_map]
  exact rounded_total htotal hsum.ne'

end Allocation

section BuyXGetY

variable {lines : List DiscountLine} {remaining : OrderedMap String ℚ}

variable {i : Item} {buys gets : ℚ} {fuel : ℕ} {got getsOrder : List Item} {maxUses : Option ℚ}

theorem itemsOf_price (h : i ∈ itemsOf lines remaining) : IsWhole i.price := by
  obtain ⟨⟨⟨ref, price⟩, index⟩, hu, rfl⟩ := List.mem_map.mp h
  obtain ⟨line, _, hline⟩ := List.mem_flatMap.mp (List.fst_mem_of_mem_zipIdx hu)
  obtain ⟨_, rfl⟩ := Prod.mk.inj (List.eq_of_mem_replicate hline)
  exact ⟨_, rfl⟩

theorem getsByQuantity_mem {buysOrder : List Item} {used : List ℕ} {items : List Item} {uses : ℕ}
    (h : getsByQuantity maxUses buys gets buysOrder getsOrder fuel used got uses = some items) :
    ∀ i ∈ items, i ∈ got ∨ i ∈ getsOrder := by
  induction fuel generalizing used got uses with
  | zero => cases h
  | succ fuel ih =>
    rw [getsByQuantity] at h
    split at h
    · cases h
      exact fun i hi => Or.inl hi
    · dsimp only at h
      split at h
      · cases h
        exact fun i hi => Or.inl hi
      · split at h
        · cases h
          exact fun i hi => Or.inl hi
        · intro i hi
          rcases ih h i hi with hgot | hgets
          · rcases List.mem_append.mp hgot with hold | hfree
            · exact Or.inl hold
            · exact Or.inr (List.mem_of_mem_filter ((slice_sublist _ _).subset hfree))
          · exact Or.inr hgets

theorem getsByAmount_mem {total : ℚ} {buysRefs : List String}
    (h : i ∈ getsByAmount maxUses buys gets total buysRefs getsOrder) : i ∈ getsOrder := by
  rw [getsByAmount] at h
  split at h
  · exact (slice_sublist _ _).subset h
  · cases h

theorem itemOff_whole (effect : GetsEffect) {price : ℚ} (h : IsWhole price) :
    IsWhole (itemOff effect price) := by
  cases effect with
  | percentage value => exact percentOf_whole price value
  | free => exact h

theorem takeItems_fits {effect : GetsEffect} (hrem : AllAmounts remaining)
    (hgot : ∀ i ∈ got, IsWhole i.price) : FitsIn remaining (takeItems effect remaining got) := by
  have hfold : ∀ (got : List Item) (result : OrderedMap String ℚ),
      (∀ i ∈ got, IsWhole i.price) → (∀ e ∈ result.entries, IsWhole e.2) →
        ∀ e ∈ (got.foldl (fun result i =>
          result.set i.ref (amountOf result i.ref + itemOff effect i.price)) result).entries,
          IsWhole e.2 := by
    intro got
    induction got with
    | nil => exact fun result _ h => h
    | cons i rest ih =>
      intro result hprices hresult
      apply ih _ fun j hj => hprices j (List.mem_cons_of_mem _ hj)
      intro e he
      rcases OrderedMap.mem_set he with rfl | hold
      · exact (amountOf_whole hresult _).add (itemOff_whole effect (hprices i (by simp)))
      · exact hresult e hold
  rintro ⟨ref, x⟩ he
  obtain ⟨amount, hamount, rfl⟩ := OrderedMap.mem_mapValues.mp he
  have hwhole := hfold got OrderedMap.empty hgot (by simp) _ hamount
  exact ⟨hwhole.min (isWhole_of_amount (hrem ref)), min_le_right _ _⟩

theorem buyXGetY_fits {promotion : Promotion} {off : OrderedMap String ℚ}
    (hrem : AllAmounts remaining) (h : buyXGetYDiscounts fuel promotion lines remaining = some off) :
    FitsIn remaining off := by
  have hprice : ∀ (keep : Item → Bool) (compare : Item → Item → ℚ) (i : Item),
      i ∈ sortBy compare ((itemsOf lines remaining).filter keep) → IsWhole i.price := by
    intro keep compare i hi
    exact itemsOf_price (List.mem_of_mem_filter ((sortBy_perm compare _).mem_iff.mp hi))
  rw [buyXGetYDiscounts] at h
  split at h
  · dsimp only at h
    split at h
    · cases h
      apply takeItems_fits hrem
      intro i hi
      exact hprice _ _ i (getsByAmount_mem hi)
    · obtain ⟨got, hgot, rfl⟩ := Option.map_eq_some_iff.mp h
      apply takeItems_fits hrem
      intro i hi
      rcases getsByQuantity_mem hgot i hi with hnil | hgets
      · cases hnil
      · exact hprice _ _ i hgets
  · cases h
    intro e he
    cases he

end BuyXGetY

/-- One product or order discount takes whole units, and no more of a line than is left. -/
theorem lineDiscounts_fits {fuel : ℕ} {promotion : Promotion} {lines : List DiscountLine}
    {remaining off : OrderedMap String ℚ} (hrem : AllAmounts remaining)
    (hclass : promotion.discountClass ≠ .shipping)
    (h : lineDiscounts fuel promotion lines remaining = some off) : FitsIn remaining off := by
  rw [lineDiscounts] at h
  dsimp only at h
  split at h
  · exact buyXGetY_fits hrem h
  · rename_i htype
    generalize htargets : (if promotion.discountClass = .product then
      matchingLines lines promotion.rule.condition.scope promotion.rule.condition.targetRefs
      else lines) = targets at h
    generalize hb : (targets.map fun line =>
      (⟨line.lineRef, amountOf remaining line.lineRef, line.quantity⟩ : Base)) = base at h
    have hbase : ∀ b ∈ base, b.amount = amountOf remaining b.ref := by
      intro b hmem
      rw [← hb] at hmem
      obtain ⟨line, _, rfl⟩ := List.mem_map.mp hmem
      rfl
    have hamounts : IsAmount (base.map (·.amount)).sum := by
      apply IsAmount.sum
      intro a ha
      obtain ⟨b, hmem, rfl⟩ := List.mem_map.mp ha
      rw [hbase b hmem]
      exact hrem b.ref
    split at h
    · rename_i hper
      obtain ⟨value, hv, _, hle⟩ := promotion.rule.reward.percentage_value hper
      rw [hv, Option.getD_some] at h
      split at h
      · cases h
        intro e he
        obtain ⟨b, hmem, rfl⟩ := List.mem_map.mp (OrderedMap.mem_of_mem_ofEntries he)
        refine ⟨percentOf_whole _ _, ?_⟩
        rw [← hbase b hmem]
        apply percentOf_le _ hle
        rw [hbase b hmem]
        exact (hrem b.ref).nonneg
      · cases h
        exact allocate_fits hrem hbase (percentOf_whole _ _) (percentOf_le hamounts.nonneg hle)
    · rename_i hper
      have hfixed := (promotion.rule.reward_type htype hclass).resolve_left hper
      have hvalue := promotion.rule.reward.fixed_value hfixed
      split at h
      · cases h
        intro e he
        obtain ⟨b, hmem, rfl⟩ := List.mem_map.mp (OrderedMap.mem_of_mem_ofEntries he)
        have hamount : IsAmount b.amount := by
          rw [hbase b hmem]
          exact hrem b.ref
        obtain ⟨m, hm⟩ := hvalue
        refine ⟨(isWhole_of_amount hamount).min ⟨m * b.quantity, by rw [hm]; push_cast; rfl⟩, ?_⟩
        exact (min_le_left _ _).trans_eq (hbase b hmem)
      · cases h
        apply allocate_fits hrem hbase
        · exact (isWhole_of_amount hvalue).min (isWhole_of_amount hamounts)
        · exact min_le_right _ _

end Promotions
