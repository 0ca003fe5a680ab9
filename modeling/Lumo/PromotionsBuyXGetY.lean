import Lumo.PromotionsDiscountTermination
import Lumo.PromotionsLineDiscounts

/-! # The units of buy X get Y

The loop over the uses with a record of what each use bought and what it got, and the books that the
record keeps: no unit stands in it twice. -/
namespace Promotions

open SharedKernel Builtins

structure Use where
  bought : List Item
  free : List Item

def Use.items (use : Use) : List Item := use.bought ++ use.free

section Quantity

variable (maxUsesPerOrder : Option ℚ) (buys gets : ℚ) (buysOrder getsOrder : List Item)

/-- What one turn of the loop of `getsByQuantity` makes of the units that are left. -/
def nextUse (used : List ℕ) (uses : ℕ) : Option Use :=
  if maxUsesPerOrder.any (fun maxUses : ℚ => maxUses ≤ uses) then none
  else
    let bought := slice (unused used buysOrder) buys
    if (bought.length : ℚ) < buys then none
    else
      let free := slice (unused (used ++ bought.map (·.index)) getsOrder) gets
      if (free.length : ℚ) < gets then none else some ⟨bought, free⟩

def usesByQuantity : ℕ → List ℕ → ℕ → Option (List Use)
  | 0, _, _ => none
  | fuel + 1, used, uses =>
    match nextUse maxUsesPerOrder buys gets buysOrder getsOrder used uses with
    | none => some []
    | some use =>
      (usesByQuantity fuel (used ++ use.items.map (·.index)) (uses + 1)).map (use :: ·)

theorem getsByQuantity_uses (fuel : ℕ) (used : List ℕ) (got : List Item) (uses : ℕ) :
    getsByQuantity maxUsesPerOrder buys gets buysOrder getsOrder fuel used got uses =
      (usesByQuantity maxUsesPerOrder buys gets buysOrder getsOrder fuel used uses).map
        fun l => got ++ l.flatMap Use.free := by
  induction fuel generalizing used got uses with
  | zero => rfl
  | succ fuel ih =>
    rw [getsByQuantity, usesByQuantity, nextUse]
    split
    · simp
    · dsimp only
      split
      · simp
      · split
        · simp
        · rw [ih, Option.map_map, Use.items, List.map_append, List.append_assoc]
          congr 1
          funext l
          simp

end Quantity

section Uses

variable {maxUsesPerOrder : Option ℚ} {buys gets : ℚ} {buysOrder getsOrder : List Item}
  {fuel : ℕ} {used : List ℕ} {uses : ℕ} {l : List Use}

variable {items : List Item}

variable {count : ℚ} {use : Use}

theorem length_slice (hcount : 0 ≤ count) (h : ¬ ((slice items count).length : ℚ) < count) :
    ((slice items count).length : ℚ) = count := by
  refine le_antisymm ?_ (not_lt.mp h)
  have hlen : (slice items count).length ≤ ⌊count⌋.toNat := by
    rw [slice, if_pos hcount]
    exact List.length_take_le _ _
  have hfloor : (⌊count⌋.toNat : ℚ) ≤ count := by
    have hnonneg := Int.toNat_of_nonneg (Int.floor_nonneg.mpr hcount)
    calc ((⌊count⌋.toNat : ℕ) : ℚ) = ((⌊count⌋ : ℤ) : ℚ) := by exact_mod_cast hnonneg
      _ ≤ count := Int.floor_le count
  exact (Nat.cast_le.mpr hlen).trans hfloor

theorem mem_slice_unused {i : Item} (h : i ∈ slice (unused used items) count) :
    i ∈ items ∧ i.index ∉ used := by
  have hin := (slice_sublist _ _).subset h
  have hfree := List.of_mem_filter hin
  simp only [Bool.not_eq_true', List.contains_eq_mem, decide_eq_false_iff_not] at hfree
  exact ⟨List.mem_of_mem_filter hin, hfree⟩

theorem nodup_slice_unused (count : ℚ) (h : (items.map (·.index)).Nodup) :
    ((slice (unused used items) count).map (·.index)).Nodup :=
  h.sublist (((slice_sublist _ _).trans List.filter_sublist).map _)

theorem nextUse_some
    (h : nextUse maxUsesPerOrder buys gets buysOrder getsOrder used uses = some use) :
    (∀ limit, maxUsesPerOrder = some limit → (uses : ℚ) < limit) ∧
      use.bought = slice (unused used buysOrder) buys ∧
      use.free = slice (unused (used ++ use.bought.map (·.index)) getsOrder) gets ∧
      ¬ (use.bought.length : ℚ) < buys ∧ ¬ (use.free.length : ℚ) < gets := by
  rw [nextUse] at h
  split at h
  · cases h
  · rename_i hlimit
    dsimp only at h
    split at h
    · cases h
    · rename_i hbought
      split at h
      · cases h
      · rename_i hfree
        cases h
        refine ⟨?_, rfl, rfl, hbought, hfree⟩
        rintro limit rfl
        simpa using hlimit

theorem nextUse_nodup (hbuys : (buysOrder.map (·.index)).Nodup)
    (hgets : (getsOrder.map (·.index)).Nodup)
    (h : nextUse maxUsesPerOrder buys gets buysOrder getsOrder used uses = some use) :
    (use.items.map (·.index)).Nodup ∧ ∀ i ∈ use.items, i.index ∉ used := by
  obtain ⟨_, hbought, hfree, _, _⟩ := nextUse_some h
  have hfresh : ∀ i ∈ use.free, i.index ∉ used ++ use.bought.map (·.index) := by
    intro i hi
    rw [hfree] at hi
    exact (mem_slice_unused hi).2
  constructor
  · rw [Use.items, List.map_append, List.nodup_append']
    refine ⟨?_, ?_, ?_⟩
    · rw [hbought]
      exact nodup_slice_unused buys hbuys
    · rw [hfree]
      exact nodup_slice_unused gets hgets
    · intro n hn hn'
      obtain ⟨i, hi, rfl⟩ := List.mem_map.mp hn'
      exact hfresh i hi (List.mem_append_right _ hn)
  · intro i hi
    rcases List.mem_append.mp hi with hi | hi
    · rw [hbought] at hi
      exact (mem_slice_unused hi).2
    · intro hused
      exact hfresh i hi (List.mem_append_left _ hused)

theorem usesByQuantity_induction {P : List ℕ → ℕ → List Use → Prop}
    (hstop : ∀ used uses, P used uses []) (hturn : ∀ used uses use rest,
      nextUse maxUsesPerOrder buys gets buysOrder getsOrder used uses = some use →
      P (used ++ use.items.map (·.index)) (uses + 1) rest → P used uses (use :: rest))
    (h : usesByQuantity maxUsesPerOrder buys gets buysOrder getsOrder fuel used uses = some l) :
    P used uses l := by
  induction fuel generalizing used uses l with
  | zero => cases h
  | succ fuel ih =>
    rw [usesByQuantity] at h
    split at h
    · cases h
      exact hstop used uses
    · rename_i use huse
      obtain ⟨rest, hrest, rfl⟩ := Option.map_eq_some_iff.mp h
      exact hturn used uses use rest huse (ih hrest)

theorem usesByQuantity_limited {limit : ℕ} (hmax : maxUsesPerOrder = some (limit : ℚ))
    (h : usesByQuantity maxUsesPerOrder buys gets buysOrder getsOrder fuel used uses = some l) :
    uses ≤ limit → uses + l.length ≤ limit := by
  apply usesByQuantity_induction (P := fun _ uses l => uses ≤ limit → uses + l.length ≤ limit) _ _ h
  · intro _ uses huses
    exact huses
  · intro used uses use rest huse ih _
    have hbelow := (nextUse_some huse).1 limit hmax
    have hlt : uses < limit := by exact_mod_cast hbelow
    have hle := ih hlt
    rw [List.length_cons]
    omega

theorem usesByQuantity_full (hbuys : 0 ≤ buys) (hgets : 0 ≤ gets)
    (h : usesByQuantity maxUsesPerOrder buys gets buysOrder getsOrder fuel used uses = some l) :
    ∀ use ∈ l, ((use.bought.length : ℚ) = buys ∧ ∀ i ∈ use.bought, i ∈ buysOrder) ∧
      (use.free.length : ℚ) = gets ∧ ∀ i ∈ use.free, i ∈ getsOrder := by
  apply usesByQuantity_induction (P := fun _ _ l => ∀ use ∈ l,
    ((use.bought.length : ℚ) = buys ∧ ∀ i ∈ use.bought, i ∈ buysOrder) ∧
      (use.free.length : ℚ) = gets ∧ ∀ i ∈ use.free, i ∈ getsOrder) _ _ h
  · intro _ _
    exact List.forall_mem_nil _
  · intro used uses use rest huse ih
    obtain ⟨_, hbought, hfree, hb, hf⟩ := nextUse_some huse
    rw [List.forall_mem_cons]
    refine ⟨⟨⟨?_, ?_⟩, ?_, ?_⟩, ih⟩
    · rw [hbought] at hb ⊢
      exact length_slice hbuys hb
    · intro i hi
      rw [hbought] at hi
      exact (mem_slice_unused hi).1
    · rw [hfree] at hf ⊢
      exact length_slice hgets hf
    · intro i hi
      rw [hfree] at hi
      exact (mem_slice_unused hi).1

theorem usesByQuantity_once (hbuys : (buysOrder.map (·.index)).Nodup)
    (hgets : (getsOrder.map (·.index)).Nodup)
    (h : usesByQuantity maxUsesPerOrder buys gets buysOrder getsOrder fuel used uses = some l) :
    ((l.flatMap Use.items).map (·.index)).Nodup ∧
      ∀ i ∈ l.flatMap Use.items, i.index ∉ used := by
  apply usesByQuantity_induction (P := fun used _ l =>
    ((l.flatMap Use.items).map (·.index)).Nodup ∧ ∀ i ∈ l.flatMap Use.items, i.index ∉ used) _ _ h
  · intro _ _
    simp
  · rintro used uses use rest huse ⟨hnodup, hnew⟩
    obtain ⟨hown, hfresh⟩ := nextUse_nodup hbuys hgets huse
    rw [List.flatMap_cons, List.map_append]
    constructor
    · rw [List.nodup_append']
      refine ⟨hown, hnodup, ?_⟩
      intro n hn hn'
      obtain ⟨i, hi, rfl⟩ := List.mem_map.mp hn'
      exact hnew i hi (List.mem_append_right _ hn)
    · intro i hi
      rcases List.mem_append.mp hi with hi | hi
      · exact hfresh i hi
      · intro hused
        exact hnew i hi (List.mem_append_left _ hused)

theorem usesByQuantity_mono
    (h : usesByQuantity maxUsesPerOrder buys gets buysOrder getsOrder fuel used uses = some l)
    {more : ℕ} (hmore : fuel ≤ more) :
    usesByQuantity maxUsesPerOrder buys gets buysOrder getsOrder more used uses = some l := by
  induction fuel generalizing used uses l more with
  | zero => cases h
  | succ fuel ih =>
    obtain ⟨more, rfl⟩ : ∃ n, more = n + 1 := ⟨more - 1, by omega⟩
    rw [usesByQuantity] at h ⊢
    cases huse : nextUse maxUsesPerOrder buys gets buysOrder getsOrder used uses with
    | none =>
      rw [huse] at h
      exact h
    | some use =>
      rw [huse] at h
      obtain ⟨rest, hrest, rfl⟩ := Option.map_eq_some_iff.mp h
      dsimp only
      rw [ih hrest (by omega)]
      rfl

/-- The choice of `getsByAmount` as one use: what is bought is what is not free. -/
def usesByAmount (maxUsesPerOrder : Option ℚ) (buys gets total : ℚ) (buysRefs : List String)
    (buysOrder getsOrder : List Item) : List Use :=
  let free := slice getsOrder gets
  let freeAmountFromBuys :=
    ((free.filter fun i => buysRefs.contains i.ref).map (·.price)).sum
  if buys ≤ total - freeAmountFromBuys ∧ maxUsesPerOrder.all (fun maxUses => 1 ≤ maxUses) ∧
      (free.length : ℚ) = gets then [⟨unused (free.map (·.index)) buysOrder, free⟩]
  else []

theorem getsByAmount_uses (buysOrder : List Item) (total : ℚ) (buysRefs : List String) :
    getsByAmount maxUsesPerOrder buys gets total buysRefs getsOrder =
      (usesByAmount maxUsesPerOrder buys gets total buysRefs buysOrder getsOrder).flatMap
        Use.free := by
  rw [getsByAmount, usesByAmount]
  split
  · simp
  · rfl

theorem usesByAmount_cases (maxUsesPerOrder : Option ℚ) (buys gets total : ℚ)
    (buysRefs : List String) (buysOrder getsOrder : List Item) :
    usesByAmount maxUsesPerOrder buys gets total buysRefs buysOrder getsOrder = [] ∨
      ∃ use : Use, use.free = slice getsOrder gets ∧
        use.bought = unused (use.free.map (·.index)) buysOrder ∧
        buys ≤ total - ((use.free.filter fun i => buysRefs.contains i.ref).map (·.price)).sum ∧
        maxUsesPerOrder.all (fun maxUses => 1 ≤ maxUses) ∧ (use.free.length : ℚ) = gets ∧
        usesByAmount maxUsesPerOrder buys gets total buysRefs buysOrder getsOrder = [use] := by
  rw [usesByAmount]
  split
  · rename_i hcond
    exact Or.inr ⟨⟨unused ((slice getsOrder gets).map (·.index)) buysOrder, slice getsOrder gets⟩,
      rfl, rfl, hcond.1, hcond.2.1, hcond.2.2, rfl⟩
  · exact Or.inl rfl

end Uses

section Promotion

variable (promotion : Promotion) (lines : List DiscountLine) (remaining : OrderedMap String ℚ)

def buysRefs : List String :=
  (matchingLines lines promotion.rule.condition.scope promotion.rule.condition.targetRefs).map
    (·.lineRef)

def getsRefs (gets : BuyXGetYGets) : List String :=
  (matchingLines lines gets.scope.toScope gets.targetRefs).map (·.lineRef)

def buysOrder : List Item :=
  sortBy (fun a b => compareBy b.price a.price a b)
    ((itemsOf lines remaining).filter fun i => (buysRefs promotion lines).contains i.ref)

def getsOrder (gets : BuyXGetYGets) : List Item :=
  sortBy (fun a b => compareBy a.price b.price a b)
    ((itemsOf lines remaining).filter fun i => (getsRefs lines gets).contains i.ref)

def buysTotal : ℚ :=
  ((lines.filter fun line => (buysRefs promotion lines).contains line.lineRef).map fun line =>
    amountOf remaining line.lineRef).sum

/-- The uses that `buyXGetYDiscounts` makes of the promotion. -/
def buyXGetYUses (fuel : ℕ) (buys : BuyXGetYBuys) (gets : BuyXGetYGets) : Option (List Use) :=
  let maxUses := promotion.rule.reward.props.maxUsesPerOrder
  let buysOrder := buysOrder promotion lines remaining
  let getsOrder := getsOrder lines remaining gets
  match buys.kind with
  | .amount =>
    some (usesByAmount maxUses buys.value gets.quantity (buysTotal promotion lines remaining)
      (buysRefs promotion lines) buysOrder getsOrder)
  | .quantity => usesByQuantity maxUses buys.value gets.quantity buysOrder getsOrder fuel [] 0

variable {promotion lines remaining}

variable {buys : BuyXGetYBuys} {gets : BuyXGetYGets} {i : Item} {fuel : ℕ} {uses : List Use}

theorem buyXGetYDiscounts_uses (hbuys : promotion.rule.reward.props.buys = some buys)
    (hgets : promotion.rule.reward.props.gets = some gets) (fuel : ℕ) :
    buyXGetYDiscounts fuel promotion lines remaining =
      (buyXGetYUses promotion lines remaining fuel buys gets).map fun uses =>
        takeItems gets.effect remaining (uses.flatMap Use.free) := by
  rw [buyXGetYDiscounts, hbuys, hgets, buyXGetYUses]
  dsimp only
  cases buys.kind with
  | amount =>
    rw [getsByAmount_uses (buysOrder promotion lines remaining)]
    rfl
  | quantity =>
    dsimp only
    rw [getsByQuantity_uses, Option.map_map]
    rfl

def boughtAmount (promotion : Promotion) (lines : List DiscountLine)
    (remaining : OrderedMap String ℚ) (use : Use) : ℚ :=
  buysTotal promotion lines remaining -
    ((use.free.filter fun i => (buysRefs promotion lines).contains i.ref).map (·.price)).sum

/-- The books of a promotion's uses: they stay within the limit, no unit stands in them twice, and
each of them buys and gets what it has to. -/
structure Bookkept (promotion : Promotion) (lines : List DiscountLine)
    (remaining : OrderedMap String ℚ) (buys : BuyXGetYBuys) (gets : BuyXGetYGets)
    (uses : List Use) : Prop where
  limited : ∀ limit, promotion.rule.reward.props.maxUsesPerOrder = some limit →
    (uses.length : ℚ) ≤ limit
  once : ((uses.flatMap Use.items).map (·.index)).Nodup
  bought : ∀ use ∈ uses, ∀ i ∈ use.bought,
    i ∈ itemsOf lines remaining ∧ i.ref ∈ buysRefs promotion lines
  free : ∀ use ∈ uses, ∀ i ∈ use.free,
    i ∈ itemsOf lines remaining ∧ i.ref ∈ getsRefs lines gets
  got : ∀ use ∈ uses, (use.free.length : ℚ) = gets.quantity
  quantity : buys.kind = .quantity → ∀ use ∈ uses, (use.bought.length : ℚ) = buys.value
  amount : buys.kind = .amount → ∀ use ∈ uses,
    buys.value ≤ boughtAmount promotion lines remaining use

theorem isPositiveInteger_some {value : ℚ} (h : isPositiveInteger (some value) = true) :
    IsAmount value ∧ 0 < value := by
  simp only [isPositiveInteger, Option.any_some, Bool.and_eq_true, decide_eq_true_eq] at h
  exact ⟨IsAmount.of_isInteger h.1 h.2.le, h.2⟩

theorem buyXGetY_valid {reward : PromotionReward} (h : reward.props.type = .buyXGetY) :
    ∃ buys gets, reward.props.buys = some buys ∧ reward.props.gets = some gets ∧
      0 < buys.value ∧ 0 < gets.quantity ∧
      ∀ limit, reward.props.maxUsesPerOrder = some limit → IsAmount limit := by
  have hvalid := reward.valid
  rw [rewardIssues, h] at hvalid
  obtain ⟨hfirst, hmax⟩ := List.append_eq_nil_iff.mp hvalid
  obtain ⟨hbuys, hgets⟩ := List.append_eq_nil_iff.mp hfirst
  cases hb : reward.props.buys with
  | none => simp [hb, isPositiveInteger] at hbuys
  | some buys =>
    cases hg : reward.props.gets with
    | none => simp [hg, getsIssues] at hgets
    | some gets =>
      have hbuys' : isPositiveInteger (some buys.value) = true := by
        by_contra hneg
        rw [Bool.not_eq_true] at hneg
        simp [hb, hneg] at hbuys
      have hgets' : isPositiveInteger (some gets.quantity) = true := by
        by_contra hneg
        rw [Bool.not_eq_true] at hneg
        simp [hg, getsIssues, hneg] at hgets
      refine ⟨buys, gets, rfl, rfl, (isPositiveInteger_some hbuys').2,
        (isPositiveInteger_some hgets').2, ?_⟩
      intro limit hlimit
      have hmax' : isPositiveInteger (some limit) = true := by
        by_contra hneg
        rw [Bool.not_eq_true] at hneg
        simp [hlimit, hneg] at hmax
      exact (isPositiveInteger_some hmax').1

theorem itemsOf_nodup (lines : List DiscountLine) (remaining : OrderedMap String ℚ) :
    ((itemsOf lines remaining).map (·.index)).Nodup := by
  have hindexes : ((itemsOf lines remaining).map (·.index)) =
      List.range' 0 (lines.flatMap fun line => List.replicate line.quantity (line.lineRef,
        (⌊amountOf remaining line.lineRef / line.quantity⌋ : ℚ))).length := by
    rw [itemsOf, List.map_map]
    exact List.zipIdx_map_snd 0 _
  rw [hindexes]
  exact List.nodup_range'

theorem mem_buysOrder :
    i ∈ buysOrder promotion lines remaining ↔
      i ∈ itemsOf lines remaining ∧ i.ref ∈ buysRefs promotion lines := by
  rw [buysOrder, (sortBy_perm _ _).mem_iff, List.mem_filter, List.contains_iff_mem]

theorem mem_getsOrder :
    i ∈ getsOrder lines remaining gets ↔
      i ∈ itemsOf lines remaining ∧ i.ref ∈ getsRefs lines gets := by
  rw [getsOrder, (sortBy_perm _ _).mem_iff, List.mem_filter, List.contains_iff_mem]

theorem sorted_nodup (keep : Item → Bool) (compare : Item → Item → ℚ) :
    ((sortBy compare ((itemsOf lines remaining).filter keep)).map (·.index)).Nodup :=
  ((sortBy_perm compare _).map _).nodup_iff.mpr
    ((itemsOf_nodup lines remaining).sublist (List.filter_sublist.map _))

theorem takeItems_le (effect : GetsEffect) (got : List Item) :
    ∀ off ∈ (takeItems effect remaining got).entries, off.2 ≤ amountOf remaining off.1 := by
  rintro ⟨ref, x⟩ hoff
  obtain ⟨amount, _, rfl⟩ := OrderedMap.mem_mapValues.mp hoff
  exact min_le_right _ _

theorem buyXGetYUses_ends (promotion : Promotion) (lines : List DiscountLine)
    (remaining : OrderedMap String ℚ) (buys : BuyXGetYBuys) (gets : BuyXGetYGets)
    (hbuys : 0 < buys.value) :
    ∃ uses enough, ∀ fuel ≥ enough,
      buyXGetYUses promotion lines remaining fuel buys gets = some uses := by
  cases hkind : buys.kind with
  | amount =>
    refine ⟨usesByAmount promotion.rule.reward.props.maxUsesPerOrder buys.value gets.quantity
      (buysTotal promotion lines remaining) (buysRefs promotion lines)
      (buysOrder promotion lines remaining) (getsOrder lines remaining gets), 0, fun fuel _ => ?_⟩
    rw [buyXGetYUses, hkind]
  | quantity =>
    have hends : (getsByQuantity promotion.rule.reward.props.maxUsesPerOrder buys.value
        gets.quantity (buysOrder promotion lines remaining) (getsOrder lines remaining gets)
        ((unused [] (buysOrder promotion lines remaining)).length +
          (unused [] (getsOrder lines remaining gets)).length + 1) [] [] 0).isSome :=
      getsByQuantity_consuming (Or.inl hbuys) (Nat.lt_succ_self _)
    rw [getsByQuantity_uses, Option.isSome_map] at hends
    obtain ⟨uses, huses⟩ := Option.isSome_iff_exists.mp hends
    refine ⟨uses, (unused [] (buysOrder promotion lines remaining)).length +
      (unused [] (getsOrder lines remaining gets)).length + 1, fun fuel hfuel => ?_⟩
    rw [buyXGetYUses, hkind]
    exact usesByQuantity_mono huses hfuel

theorem bookkept_quantity (hbuys : 0 < buys.value) (hgets : 0 < gets.quantity)
    (hmax : ∀ limit, promotion.rule.reward.props.maxUsesPerOrder = some limit → IsAmount limit)
    (hkind : buys.kind = .quantity)
    (h : buyXGetYUses promotion lines remaining fuel buys gets = some uses) :
    Bookkept promotion lines remaining buys gets uses := by
  rw [buyXGetYUses, hkind] at h
  have hfull := usesByQuantity_full hbuys.le hgets.le h
  refine ⟨?_, ?_, ?_, ?_, ?_, ?_, ?_⟩
  · intro limit hlimit
    obtain ⟨n, rfl⟩ := hmax limit hlimit
    have hle := usesByQuantity_limited hlimit h (Nat.zero_le n)
    rw [Nat.zero_add] at hle
    exact_mod_cast hle
  · exact (usesByQuantity_once (sorted_nodup _ _) (sorted_nodup _ _) h).1
  · intro use huse i hi
    exact mem_buysOrder.mp ((hfull use huse).1.2 i hi)
  · intro use huse i hi
    exact mem_getsOrder.mp ((hfull use huse).2.2 i hi)
  · exact fun use huse => (hfull use huse).2.1
  · exact fun _ use huse => (hfull use huse).1.1
  · intro hamount
    rw [hkind] at hamount
    cases hamount

theorem apart_nodup {use : Use} (hfree : (use.free.map (·.index)).Nodup)
    (h : use.bought = unused (use.free.map (·.index)) (buysOrder promotion lines remaining)) :
    (use.items.map (·.index)).Nodup := by
  rw [Use.items, h, List.map_append, List.nodup_append']
  refine ⟨(sorted_nodup _ _).sublist (List.filter_sublist.map _), hfree, ?_⟩
  intro n hn hn'
  obtain ⟨i, hi, rfl⟩ := List.mem_map.mp hn
  have hunused := List.of_mem_filter hi
  simp only [Bool.not_eq_true', List.contains_eq_mem, decide_eq_false_iff_not] at hunused
  exact hunused hn'

theorem Bookkept.none
    (hmax : ∀ limit, promotion.rule.reward.props.maxUsesPerOrder = some limit → IsAmount limit) :
    Bookkept promotion lines remaining buys gets [] where
  limited limit hlimit := by
    have hnonneg := (hmax limit hlimit).nonneg
    simpa using hnonneg
  once := List.nodup_nil
  bought := List.forall_mem_nil _
  free := List.forall_mem_nil _
  got := List.forall_mem_nil _
  quantity _ := List.forall_mem_nil _
  amount _ := List.forall_mem_nil _

theorem bookkept_amount
    (hmax : ∀ limit, promotion.rule.reward.props.maxUsesPerOrder = some limit → IsAmount limit)
    (hkind : buys.kind = .amount)
    (h : buyXGetYUses promotion lines remaining fuel buys gets = some uses) :
    Bookkept promotion lines remaining buys gets uses := by
  rw [buyXGetYUses, hkind] at h
  have huses := Option.some.inj h
  rcases usesByAmount_cases promotion.rule.reward.props.maxUsesPerOrder buys.value gets.quantity
    (buysTotal promotion lines remaining) (buysRefs promotion lines)
    (buysOrder promotion lines remaining) (getsOrder lines remaining gets)
    with hnil | ⟨use, hfree, hbought, hamount, hmaxUses, hlength, hone⟩
  · rw [hnil] at huses
    subst huses
    exact Bookkept.none hmax
  · rw [hone] at huses
    subst huses
    refine ⟨?_, ?_, ?_, ?_, ?_, ?_, ?_⟩
    · intro limit hlimit
      rw [hlimit] at hmaxUses
      simpa using hmaxUses
    · rw [List.flatMap_singleton]
      apply apart_nodup _ hbought
      rw [hfree]
      exact (sorted_nodup _ _).sublist ((slice_sublist _ _).map _)
    · rw [List.forall_mem_singleton, hbought]
      exact fun i hi => mem_buysOrder.mp (List.mem_of_mem_filter hi)
    · rw [List.forall_mem_singleton, hfree]
      exact fun i hi => mem_getsOrder.mp ((slice_sublist _ _).subset hi)
    · exact List.forall_mem_singleton.mpr hlength
    · intro hquantity
      rw [hkind] at hquantity
      cases hquantity
    · exact fun _ => List.forall_mem_singleton.mpr hamount

/-- The units of buy X get Y, whatever earlier discounts left of the lines: the loop ends, its uses
are bookkept, and they take no more off a line than is left of it. -/
theorem buyXGetY_bookkept (promotion : Promotion) (lines : List DiscountLine)
    (remaining : OrderedMap String ℚ) (h : promotion.rule.reward.props.type = .buyXGetY) :
    ∃ buys gets, promotion.rule.reward.props.buys = some buys ∧
      promotion.rule.reward.props.gets = some gets ∧
      ∃ uses enough, ∀ fuel ≥ enough,
        buyXGetYUses promotion lines remaining fuel buys gets = some uses ∧
        Bookkept promotion lines remaining buys gets uses ∧
        ∃ off, buyXGetYDiscounts fuel promotion lines remaining = some off ∧
          off = takeItems gets.effect remaining (uses.flatMap Use.free) ∧
          ∀ e ∈ off.entries, e.2 ≤ amountOf remaining e.1 := by
  obtain ⟨buys, gets, hb, hg, hbuys, hgets, hmax⟩ := buyXGetY_valid h
  obtain ⟨uses, enough, huses⟩ := buyXGetYUses_ends promotion lines remaining buys gets hbuys
  refine ⟨buys, gets, hb, hg, uses, enough, fun fuel hfuel => ⟨huses fuel hfuel, ?_, ?_⟩⟩
  · cases hkind : buys.kind with
    | amount => exact bookkept_amount hmax hkind (huses fuel hfuel)
    | quantity => exact bookkept_quantity hbuys hgets hmax hkind (huses fuel hfuel)
  · refine ⟨_, ?_, rfl, takeItems_le _ _⟩
    rw [buyXGetYDiscounts_uses hb hg, huses fuel hfuel]
    rfl

end Promotion

/-! Two bought, the cheapest pot or cup free, once. -/

def buyTwoGetOne : PromotionRule where
  type := .buyXGetY
  condition := ⟨.cart, [], none, none⟩
  reward := ⟨{
    type := .buyXGetY
    buys := some ⟨.quantity, 2⟩
    gets := some ⟨1, .product, ["pot", "cup"], .free⟩
    maxUsesPerOrder := some 1 }, by decide +kernel⟩
  stackable := false
  priority := 0
  valid := by decide
  priority_nonneg := tenPercentOff.priority_nonneg

/-- The dearer tea and the cup are bought, and the pot is got. -/
def threeAndTea : List DiscountLine := ⟨"3", "tea", [], 1, 400⟩ :: sampleLines

def threeAndTeaLeft : OrderedMap String ℚ :=
  OrderedMap.ofEntries (threeAndTea.map fun line => (line.lineRef, lineTotal line))

theorem buyXGetY_bookkept_two :
    ∃ enough, ∀ fuel ≥ enough,
      (buyXGetYDiscounts fuel (samplePromotion buyTwoGetOne) threeAndTea
        threeAndTeaLeft).isSome := by
  obtain ⟨buys, gets, _, _, uses, enough, h⟩ := buyXGetY_bookkept (samplePromotion buyTwoGetOne)
    threeAndTea threeAndTeaLeft rfl
  refine ⟨enough, fun fuel hfuel => ?_⟩
  obtain ⟨_, _, off, hoff, _⟩ := h fuel hfuel
  rw [hoff]
  rfl

end Promotions
