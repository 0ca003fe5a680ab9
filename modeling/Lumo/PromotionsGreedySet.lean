import Lumo.PromotionsBestSet

/-! # The set of discounts that is chosen in one pass

Above ten eligible discounts the one that saves most alone is taken first, and every other one that
combines with those taken. Percentages and fixed amounts are worth at least as much less as the
others take: only buy X get Y can lose more than that to them. -/
namespace Promotions

open SharedKernel Builtins

/-- The discounts of this promotion are found by `buyXGetYDiscounts`. -/
def CountsUnits (entry : Eligible) : Prop :=
  entry.discountClass ≠ .shipping ∧ entry.candidate.promotion.rule.type = .buyXGetY

instance (entry : Eligible) : Decidable (CountsUnits entry) :=
  inferInstanceAs (Decidable (_ ∧ _))

section Lines

variable {promotion : Promotion} {lines : List DiscountLine} {less more : OrderedMap String ℚ}
  {fuel : ℕ}

variable {x y percentage : ℚ} {g : DiscountLine → ℚ} {off : OrderedMap String ℚ}

theorem percentOf_nonneg {amount : ℚ} (ha : 0 ≤ amount) (hp : 0 ≤ percentage) :
    0 ≤ percentOf amount percentage := by
  have hround : 0 ≤ mathRound (percentage * 100) := by
    apply Int.floor_nonneg.mpr
    linarith
  have hcast : (0 : ℚ) ≤ mathRound (percentage * 100) := by exact_mod_cast hround
  have hfloor : 0 ≤ ⌊amount * mathRound (percentage * 100) / 10000⌋ := by
    apply Int.floor_nonneg.mpr
    positivity
  rw [percentOf]
  exact_mod_cast hfloor

theorem percentOf_gain (hx : IsWhole x) (hy : IsWhole y) (hxy : x ≤ y) (hp : percentage ≤ 100) :
    percentOf y percentage - percentOf x percentage ≤ y - x := by
  have hround := mathRound_percent hp
  obtain ⟨z, hz⟩ := hy.sub hx
  have hgap : (0 : ℚ) ≤ z := by
    rw [← hz]
    linarith
  have hbound : y * mathRound (percentage * 100) / 10000 ≤
      x * mathRound (percentage * 100) / 10000 + z := by
    have hy' : y = x + z := by linarith
    rw [hy']
    have hmul := mul_le_mul_of_nonneg_left hround hgap
    have hsplit : (x + z) * mathRound (percentage * 100) / 10000 =
        x * mathRound (percentage * 100) / 10000 + z * mathRound (percentage * 100) / 10000 := by
      ring
    linarith
  have hfloor := Int.floor_mono hbound
  rw [Int.floor_add_intCast] at hfloor
  have hcast : percentOf y percentage ≤ percentOf x percentage + z := by
    rw [percentOf, percentOf]
    exact_mod_cast hfloor
  linarith

theorem min_gain {c : ℚ} (hxy : x ≤ y) : min y c - min x c ≤ y - x := by
  rcases le_total x c with hx | hx
  · rw [min_eq_left hx]
    linarith [min_le_left y c]
  · rw [min_eq_right hx]
    linarith [min_le_right y c]

def targetsOf (promotion : Promotion) (lines : List DiscountLine) : List DiscountLine :=
  if promotion.discountClass = .product then
    matchingLines lines promotion.rule.condition.scope promotion.rule.condition.targetRefs
  else lines

theorem targetsOf_sublist (promotion : Promotion) (lines : List DiscountLine) :
    (targetsOf promotion lines).Sublist lines := by
  rw [targetsOf]
  split
  · rw [matchingLines]
    split
    · exact List.Sublist.refl _
    · split
      · exact List.filter_sublist
      · exact List.filter_sublist
  · exact List.Sublist.refl _

def leftOf (lines : List DiscountLine) (remaining : OrderedMap String ℚ) : ℚ :=
  (lines.map fun line => amountOf remaining line.lineRef).sum

/-- What a percentage or a fixed amount saves in all. -/
def savingOf (promotion : Promotion) (lines : List DiscountLine)
    (remaining : OrderedMap String ℚ) : ℚ :=
  let targets := targetsOf promotion lines
  let value := promotion.rule.reward.props.value.getD 0
  if promotion.rule.reward.props.type = .percentage then
    if promotion.discountClass = .product then
      (targets.map fun line => percentOf (amountOf remaining line.lineRef) value).sum
    else percentOf (leftOf targets remaining) value
  else if promotion.discountClass = .product ∧
      promotion.rule.reward.props.appliesOncePerOrder ≠ some true then
    (targets.map fun line => min (amountOf remaining line.lineRef) (value * line.quantity)).sum
  else min (leftOf targets remaining) value

theorem leftOf_amount (lines : List DiscountLine) (h : AllAmounts less) :
    IsAmount (leftOf lines less) := by
  apply IsAmount.sum
  intro a ha
  obtain ⟨line, _, rfl⟩ := List.mem_map.mp ha
  exact h line.lineRef

variable {f : DiscountLine → ℚ} {targets : List DiscountLine}

theorem sum_map_gain {l : List DiscountLine} (h : ∀ line ∈ l, f line ≤ g line) :
    (l.map f).sum ≤ (l.map g).sum :=
  List.sum_le_sum h

theorem leftOf_gain (hsub : targets.Sublist lines)
    (hle : ∀ line ∈ lines, amountOf less line.lineRef ≤ amountOf more line.lineRef) :
    leftOf targets more - leftOf targets less ≤ leftOf lines more - leftOf lines less := by
  induction hsub with
  | slnil => exact le_rfl
  | cons line _ ih =>
    have hline := hle line (by simp)
    have hrest := ih fun l hl => hle l (List.mem_cons_of_mem _ hl)
    simp only [leftOf, List.map_cons, List.sum_cons] at hrest ⊢
    linarith
  | cons_cons line _ ih =>
    have hrest := ih fun l hl => hle l (List.mem_cons_of_mem _ hl)
    simp only [leftOf, List.map_cons, List.sum_cons] at hrest ⊢
    linarith

theorem sum_gain (h : ∀ line ∈ targets, g line - f line ≤
      amountOf more line.lineRef - amountOf less line.lineRef) :
    (targets.map g).sum - (targets.map f).sum ≤ leftOf targets more - leftOf targets less := by
  induction targets with
  | nil => exact le_rfl
  | cons line rest ih =>
    have hline := h line (by simp)
    have hrest := ih fun l hl => h l (List.mem_cons_of_mem _ hl)
    simp only [leftOf, List.map_cons, List.sum_cons] at hrest ⊢
    linarith

theorem savingOf_gain (promotion : Promotion) (hless : AllAmounts less) (hmore : AllAmounts more)
    (hle : ∀ line ∈ lines, amountOf less line.lineRef ≤ amountOf more line.lineRef) :
    savingOf promotion lines more - savingOf promotion lines less ≤
      leftOf lines more - leftOf lines less := by
  have hsub := targetsOf_sublist promotion lines
  refine le_trans ?_ (leftOf_gain hsub hle)
  have htargets : ∀ line ∈ targetsOf promotion lines,
      amountOf less line.lineRef ≤ amountOf more line.lineRef :=
    fun line hline => hle line (hsub.subset hline)
  have hleft : leftOf (targetsOf promotion lines) less ≤ leftOf (targetsOf promotion lines) more :=
    sum_map_gain htargets
  have hwhole := fun (remaining : OrderedMap String ℚ) (h : AllAmounts remaining) ref =>
    isWhole_of_amount (h ref)
  rw [savingOf, savingOf]
  split
  · rename_i hper
    obtain ⟨value, hv, _, hvalue⟩ := promotion.rule.reward.percentage_value hper
    rw [hv, Option.getD_some]
    split
    · apply sum_gain
      intro line hline
      exact percentOf_gain (hwhole less hless _) (hwhole more hmore _) (htargets line hline) hvalue
    · exact percentOf_gain (isWhole_of_amount (leftOf_amount _ hless))
        (isWhole_of_amount (leftOf_amount _ hmore)) hleft hvalue
  · split
    · apply sum_gain
      intro line hline
      exact min_gain (htargets line hline)
    · exact min_gain hleft

def takenOff (off : OrderedMap String ℚ) : ℚ := (off.entries.map fun e => max 0 e.2).sum

theorem takenOff_nonneg (h : ∀ e ∈ off.entries, 0 ≤ e.2) :
    takenOff off = (off.entries.map Prod.snd).sum := by
  rw [takenOff]
  apply congrArg List.sum
  apply List.map_congr_left
  intro e he
  exact max_eq_right (h e he)

theorem takenOff_ofEntries (hrefs : (targets.map (·.lineRef)).Nodup)
    (h : ∀ line ∈ targets, 0 ≤ f line) :
    takenOff (OrderedMap.ofEntries (targets.map fun line => (line.lineRef, f line))) =
      (targets.map f).sum := by
  have hkeys : ((targets.map fun line => (line.lineRef, f line)).map Prod.fst).Nodup := by
    rw [List.map_map]
    exact hrefs
  rw [takenOff, OrderedMap.entries_ofEntries hkeys, List.map_map]
  apply congrArg List.sum
  apply List.map_congr_left
  intro line hline
  exact max_eq_right (h line hline)

theorem takenOff_allocate {base : List Base} {total : ℚ} (hrefs : (base.map (·.ref)).Nodup)
    (hamounts : ∀ b ∈ base, IsAmount b.amount) (htotal : IsAmount total)
    (hle : total ≤ (base.map (·.amount)).sum) : takenOff (allocate total base) = total := by
  rcases htotal.nonneg.eq_or_lt with rfl | hpos
  · have hkeys : ((base.map fun b => (b.ref, (0 : ℚ))).map Prod.fst).Nodup := by
      rw [List.map_map]
      exact hrefs
    rw [allocate_eq, if_pos (Or.inl le_rfl), takenOff, OrderedMap.entries_ofEntries hkeys,
      List.map_map]
    apply List.sum_eq_zero
    intro x hx
    obtain ⟨b, _, rfl⟩ := List.mem_map.mp hx
    exact max_self 0
  · have hsum : 0 < (base.map (·.amount)).sum := hpos.trans_le hle
    rw [takenOff_nonneg, allocate_total (isWhole_of_amount htotal) hpos hsum hrefs]
    intro e he
    rw [allocate_eq, if_neg (not_or.mpr ⟨hpos.not_ge, hsum.not_ge⟩)] at he
    obtain ⟨share, hshare, rfl⟩ := List.mem_map.mp (OrderedMap.mem_of_mem_ofEntries he)
    obtain ⟨⟨b, i⟩, hb, rfl⟩ := List.mem_map.mp hshare
    exact (rounded_bounds (isWhole_of_amount htotal) hpos hle hb
      (hamounts b (List.fst_mem_of_mem_zipIdx hb))).1

theorem lineDiscounts_saving {remaining : OrderedMap String ℚ}
    (htype : promotion.rule.type ≠ .buyXGetY) (hclass : promotion.discountClass ≠ .shipping)
    (hrefs : (lines.map (·.lineRef)).Nodup) (hrem : AllAmounts remaining)
    (h : lineDiscounts fuel promotion lines remaining = some off) :
    takenOff off = savingOf promotion lines remaining := by
  have hsub := targetsOf_sublist promotion lines
  rw [lineDiscounts, if_neg htype] at h
  dsimp only at h
  generalize htargets : (if promotion.discountClass = .product then
    matchingLines lines promotion.rule.condition.scope promotion.rule.condition.targetRefs
    else lines) = targets at h
  have htargetsOf : targetsOf promotion lines = targets := htargets
  rw [htargetsOf] at hsub
  have hrefs' : (targets.map (·.lineRef)).Nodup := hrefs.sublist (hsub.map _)
  have hbaseRefs : ((targets.map fun line => (⟨line.lineRef, amountOf remaining line.lineRef,
      line.quantity⟩ : Base)).map (·.ref)).Nodup := by
    rw [List.map_map]
    exact hrefs'
  have hbase : ∀ b ∈ targets.map fun line => (⟨line.lineRef, amountOf remaining line.lineRef,
      line.quantity⟩ : Base), IsAmount b.amount := by
    intro b hb
    obtain ⟨line, _, rfl⟩ := List.mem_map.mp hb
    exact hrem line.lineRef
  have hsum : ((targets.map fun line => (⟨line.lineRef, amountOf remaining line.lineRef,
      line.quantity⟩ : Base)).map (·.amount)).sum = leftOf targets remaining := by
    rw [List.map_map]
    rfl
  have hleft := leftOf_amount targets hrem
  rw [hsum] at h
  simp only [savingOf, htargetsOf]
  split at h
  · rename_i hper
    obtain ⟨value, hv, hpos, hvalue⟩ := promotion.rule.reward.percentage_value hper
    rw [if_pos hper]
    rw [hv, Option.getD_some] at h ⊢
    split at h
    · rename_i hproduct
      rw [if_pos hproduct]
      cases h
      rw [List.map_map]
      exact takenOff_ofEntries hrefs' fun line _ =>
        percentOf_nonneg (hrem line.lineRef).nonneg hpos
    · rename_i hproduct
      rw [if_neg hproduct]
      cases h
      apply takenOff_allocate hbaseRefs hbase
      · exact (percentOf_whole _ _).amount (percentOf_nonneg hleft.nonneg hpos)
      · rw [hsum]
        exact percentOf_le hleft.nonneg hvalue
  · rename_i hper
    have hfixed := (promotion.rule.reward_type htype hclass).resolve_left hper
    have hvalue := promotion.rule.reward.fixed_value hfixed
    rw [if_neg hper]
    split at h
    · rename_i honce
      rw [if_pos honce]
      cases h
      rw [List.map_map]
      apply takenOff_ofEntries hrefs'
      intro line _
      exact le_min (hrem line.lineRef).nonneg (mul_nonneg hvalue.nonneg (Nat.cast_nonneg _))
    · rename_i honce
      rw [if_neg honce]
      cases h
      rw [min_comm]
      apply takenOff_allocate hbaseRefs hbase
      · exact ((isWhole_of_amount hleft).min (isWhole_of_amount hvalue)).amount
          (le_min hleft.nonneg hvalue.nonneg)
      · rw [hsum]
        exact min_le_left _ _

end Lines

section Applied

variable {text : TextOps} {fuel : ℕ} {input : CalculateDiscountsInput} {amounts after : Amounts}
  {entry : Eligible}

def Amounts.saved (amounts : Amounts) : ℚ := (amounts.applied.map (·.amountMinor)).sum

theorem takeAll_amount (off : List (String × ℚ)) (remaining allocations : OrderedMap String ℚ)
    (amount : ℚ) :
    (off.foldl takeOff (remaining, allocations, amount)).2.2 =
      amount + (off.map fun e => max 0 e.2).sum := by
  induction off generalizing remaining allocations amount with
  | nil => simp
  | cons e rest ih =>
    rw [List.foldl_cons, List.map_cons, List.sum_cons]
    by_cases he : e.2 ≤ 0
    · rw [takeOff, if_pos he, ih, max_eq_left he, zero_add]
    · rw [takeOff, if_neg he, ih, max_eq_right (not_le.mp he).le]
      ring

theorem applyEntry_shipping (hclass : entry.discountClass = .shipping)
    (h : applyEntry fuel input.lines amounts entry = some after) :
    after.saved = amounts.saved + amounts.shippingLeft := by
  rw [applyEntry, if_pos hclass] at h
  cases h
  simp [Amounts.saved, appliedDiscount]

theorem applyEntry_lines (hclass : entry.discountClass ≠ .shipping)
    (h : applyEntry fuel input.lines amounts entry = some after) :
    ∃ off, lineDiscounts fuel entry.candidate.promotion input.lines amounts.remaining = some off ∧
      after.saved = amounts.saved + takenOff off := by
  rw [applyEntry, if_neg hclass] at h
  obtain ⟨off, hoff, h⟩ := Option.bind_eq_some_iff.mp h
  cases h
  refine ⟨off, hoff, ?_⟩
  simp [Amounts.saved, appliedDiscount, takeAll_amount, takenOff]

theorem sum_classes (applied : List AppliedDiscount) :
    (applied.map (·.amountMinor)).sum =
      discountTotal (· != .shipping) applied + discountTotal (· == .shipping) applied := by
  induction applied with
  | nil => simp [discountTotal]
  | cons a rest ih =>
    cases hclass : a.discountClass <;>
      simp [discountTotal, hclass] at ih ⊢ <;> linarith

theorem Accounted.saved_eq (h : Accounted input amounts) :
    amounts.saved + leftOf input.lines amounts.remaining + amounts.shippingLeft =
      (input.lines.map lineTotal).sum + shippingRate input := by
  have hlines : leftOf input.lines amounts.remaining +
      allocatedTotal input.lines amounts.allocations = (input.lines.map lineTotal).sum := by
    have hcovers := h.books.covers
    clear h
    generalize input.lines = lines at hcovers
    induction lines with
    | nil => simp [leftOf, allocatedTotal]
    | cons line rest ih =>
      have hline := hcovers line (by simp)
      have hrest := ih fun l hl => hcovers l (List.mem_cons_of_mem _ hl)
      simp only [leftOf, allocatedTotal, List.map_cons, List.sum_cons] at hrest ⊢
      linarith
  have hsplit := sum_classes amounts.applied
  have hship := h.shipping
  rw [h.split] at hlines
  rw [Amounts.saved]
  linarith

theorem Accounted.left_le (h : Accounted input amounts)
    (hstart : Accounted input (startAmounts input)) :
    ∀ line ∈ input.lines, amountOf amounts.remaining line.lineRef ≤
      amountOf (startAmounts input).remaining line.lineRef := by
  intro line hline
  have hcovers := h.books.covers line hline
  have hcovers' := hstart.books.covers line hline
  have hnone : amountOf (startAmounts input).allocations line.lineRef = 0 := rfl
  have hnonneg := (h.books.allocatedAmounts line.lineRef).nonneg
  linarith

theorem saved_start (input : CalculateDiscountsInput) : (startAmounts input).saved = 0 := rfl

theorem saved_le {l : List Eligible} {last : Amounts} (hrefs : (input.lines.map (·.lineRef)).Nodup)
    (hl : ∀ e ∈ l, OfItsClass e) (h : Accounted input amounts)
    (hlast : l.foldlM (applyEntry fuel input.lines) amounts = some last) :
    Accounted input last ∧ amounts.saved ≤ last.saved := by
  refine FallibleFolds.foldlM_invariant (I := fun a : Amounts => Accounted input a ∧
    amounts.saved ≤ a.saved) ?_ ⟨h, le_rfl⟩ hlast
  rintro before entry after hmem ⟨hbefore, hle⟩ hstep
  have hafter := applyEntry_accounted hrefs (hl entry hmem) hbefore hstep
  refine ⟨hafter, hle.trans ?_⟩
  by_cases hclass : entry.discountClass = .shipping
  · rw [applyEntry_shipping hclass hstep]
    linarith [hbefore.shippingLeft.nonneg]
  · obtain ⟨off, _, hsaved⟩ := applyEntry_lines hclass hstep
    have hnonneg : 0 ≤ takenOff off := by
      apply List.sum_nonneg
      intro x hx
      obtain ⟨e, _, rfl⟩ := List.mem_map.mp hx
      exact le_max_left _ _
    linarith

variable {first : Eligible} {application single : Application} {set : List Eligible}

/-- A discount that does not count units, applied after others, saves with them at least what it
saves alone. -/
theorem saved_alone {alone : Amounts} (hrefs : (input.lines.map (·.lineRef)).Nodup)
    (hfirst : OfItsClass first) (hcounts : ¬ CountsUnits first) (h : Accounted input amounts)
    (hstep : applyEntry fuel input.lines amounts first = some after)
    (halone : applyEntry fuel input.lines (startAmounts input) first = some alone) :
    alone.saved ≤ after.saved := by
  have hstart := start_accounted hrefs
  have hbooks := h.saved_eq
  have hbooks' := hstart.saved_eq
  have hleft := h.left_le hstart
  rw [saved_start] at hbooks'
  by_cases hclass : first.discountClass = .shipping
  · have hless : leftOf input.lines amounts.remaining ≤
        leftOf input.lines (startAmounts input).remaining := sum_map_gain hleft
    rw [applyEntry_shipping hclass hstep, applyEntry_shipping hclass halone, saved_start]
    linarith
  · have htype : first.candidate.promotion.rule.type ≠ .buyXGetY :=
      fun htype => hcounts ⟨hclass, htype⟩
    have hclass' : first.candidate.promotion.discountClass ≠ .shipping := hfirst ▸ hclass
    obtain ⟨off, hoff, hsaved⟩ := applyEntry_lines hclass hstep
    obtain ⟨off', hoff', hsaved'⟩ := applyEntry_lines hclass halone
    rw [lineDiscounts_saving htype hclass' hrefs h.books.leftAmounts hoff] at hsaved
    rw [lineDiscounts_saving htype hclass' hrefs hstart.books.leftAmounts hoff'] at hsaved'
    have hgain := savingOf_gain first.candidate.promotion h.books.leftAmounts
      hstart.books.leftAmounts hleft
    have hship : amounts.shippingLeft ≤ (startAmounts input).shippingLeft := by
      have hgiven := h.shipping
      have hgiven' : (startAmounts input).shippingLeft = shippingRate input := rfl
      have hnonneg : 0 ≤ discountTotal (· == .shipping) amounts.applied := by
        apply List.sum_nonneg
        intro x hx
        obtain ⟨a, ha, rfl⟩ := List.mem_map.mp hx
        exact (h.applied a (List.mem_of_mem_filter ha)).nonneg
      linarith
    rw [saved_start] at hsaved'
    linarith

theorem applySet_some (h : applySet text fuel set input = some application) :
    ∃ last, (sortBy (compareEntries text) set).foldlM (applyEntry fuel input.lines)
      (startAmounts input) = some last ∧ application.total = last.saved := by
  obtain ⟨last, hlast, h⟩ := Option.bind_eq_some_iff.mp h
  cases h
  exact ⟨last, hlast, rfl⟩

theorem applySet_single (h : applySet text fuel [entry] input = some single) :
    ∃ alone, applyEntry fuel input.lines (startAmounts input) entry = some alone ∧
      single.total = alone.saved := by
  obtain ⟨last, hlast, htotal⟩ := applySet_some h
  have hsorted : sortBy (compareEntries text) [entry] = [entry] := rfl
  rw [hsorted, List.foldlM_cons] at hlast
  obtain ⟨alone, halone, hlast⟩ := Option.bind_eq_some_iff.mp hlast
  cases hlast
  exact ⟨_, halone, htotal⟩

/-- A set saves at least what one of its discounts saves alone, if that one does not count units or
comes first. -/
theorem applySet_worth (hrefs : (input.lines.map (·.lineRef)).Nodup)
    (hset : ∀ e ∈ set, OfItsClass e) (happ : applySet text fuel set input = some application)
    (hfirst : first ∈ set) (hsingle : applySet text fuel [first] input = some single)
    (h : ¬ CountsUnits first ∨ (sortBy (compareEntries text) set).head? = some first) :
    single.total ≤ application.total := by
  obtain ⟨last, hlast, htotal⟩ := applySet_some happ
  obtain ⟨alone, halone, htotal'⟩ := applySet_single hsingle
  have hperm := sortBy_perm (compareEntries text) set
  have hclass : ∀ e ∈ sortBy (compareEntries text) set, OfItsClass e :=
    fun e he => hset e (hperm.mem_iff.mp he)
  obtain ⟨before, post, hsplit, hkeeps⟩ : ∃ before post,
      sortBy (compareEntries text) set = before ++ first :: post ∧
        (¬ CountsUnits first ∨ before = []) := by
    rcases h with hcounts | hhead
    · obtain ⟨before, post, hsplit⟩ := List.append_of_mem (hperm.mem_iff.mpr hfirst)
      exact ⟨before, post, hsplit, Or.inl hcounts⟩
    · obtain ⟨post, hsplit⟩ := List.head?_eq_some_iff.mp hhead
      exact ⟨[], post, hsplit, Or.inr rfl⟩
  rw [hsplit] at hlast hclass
  rw [List.foldlM_append] at hlast
  obtain ⟨amounts, hamounts, hlast⟩ := Option.bind_eq_some_iff.mp hlast
  rw [List.foldlM_cons] at hlast
  obtain ⟨after, hafter, hlast⟩ := Option.bind_eq_some_iff.mp hlast
  obtain ⟨haccounted, _⟩ := saved_le hrefs (fun e he => hclass e (List.mem_append_left _ he))
    (start_accounted hrefs) hamounts
  have hown : OfItsClass first := hset first hfirst
  have hnext := applyEntry_accounted hrefs hown haccounted hafter
  obtain ⟨_, hlater⟩ := saved_le hrefs
    (fun e he => hclass e (List.mem_append_right _ (List.mem_cons_of_mem _ he))) hnext hlast
  rw [htotal, htotal']
  refine le_trans ?_ hlater
  rcases hkeeps with hcounts | rfl
  · exact saved_alone hrefs hown hcounts haccounted hafter halone
  · cases hamounts
    rw [halone] at hafter
    cases hafter
    exact le_rfl

end Applied

section Greedy

variable {text : TextOps} {fuel : ℕ} {eligible : List Eligible} {input : CalculateDiscountsInput}

/-- The discount that is taken first: the first of those that save most alone. -/
def firstBySaving (text : TextOps) (fuel : ℕ) (eligible : List Eligible)
    (input : CalculateDiscountsInput) : Option Eligible := do
  let savings ← eligible.mapM (withSaving text fuel input)
  ((sortBy (fun a b => b.2 - a.2) savings).map Prod.fst).head?

theorem addCompatible_compatible {l set : List Eligible} (h : isCompatible set = true) :
    isCompatible (l.foldl addCompatible set) = true := by
  induction l generalizing set with
  | nil => exact h
  | cons entry rest ih =>
    rw [List.foldl_cons, addCompatible]
    by_cases hnext : isCompatible (set ++ [entry]) = true
    · rw [if_pos hnext]
      exact ih hnext
    · rw [if_neg hnext]
      exact ih h

theorem addCompatible_maximal {l set : List Eligible} {e : Eligible} (h : isCompatible set = true)
    (he : e ∈ l) : e ∈ l.foldl addCompatible set ∨
      ∃ chosen ∈ l.foldl addCompatible set, canCombine chosen e = false := by
  induction l generalizing set with
  | nil => cases he
  | cons entry rest ih =>
    rw [List.foldl_cons, addCompatible]
    by_cases hnext : isCompatible (set ++ [entry]) = true
    · rw [if_pos hnext]
      rcases List.mem_cons.mp he with rfl | he
      · obtain ⟨more, hmore, -⟩ := addCompatible_sublist rest (set ++ [e])
        simp [hmore]
      · exact ih hnext he
    · rw [if_neg hnext]
      rcases List.mem_cons.mp he with rfl | he
      · obtain ⟨more, hmore, -⟩ := addCompatible_sublist rest set
        simp only [isCompatible_iff, List.pairwise_append] at h hnext
        simp [h] at hnext
        obtain ⟨chosen, hchosen, hclash⟩ := hnext
        exact .inr ⟨chosen, hmore ▸ List.mem_append_left _ hchosen, hclash⟩
      · exact ih h he

theorem withSaving_some {entry : Eligible} {saving : Eligible × ℚ}
    (h : withSaving text fuel input entry = some saving) :
    saving.1 = entry ∧ ∃ single, applySet text fuel [entry] input = some single ∧
      single.total = saving.2 := by
  obtain ⟨single, hsingle, h⟩ := Option.bind_eq_some_iff.mp h
  cases h
  exact ⟨rfl, single, hsingle, rfl⟩

theorem sorted_savings (savings : List (Eligible × ℚ)) :
    (sortBy (fun a b : Eligible × ℚ => b.2 - a.2) savings).Pairwise fun a b => b.2 ≤ a.2 := by
  have : Std.Total fun a b : Eligible × ℚ => b.2 - a.2 ≤ 0 := by
    constructor
    intro a b
    rw [sub_nonpos, sub_nonpos]
    exact le_total _ _
  have : IsTrans (Eligible × ℚ) fun a b => b.2 - a.2 ≤ 0 := by
    constructor
    intro a b c hab hbc
    rw [sub_nonpos] at *
    exact hbc.trans hab
  apply (List.pairwise_insertionSort (fun a b : Eligible × ℚ => b.2 - a.2 ≤ 0) savings).imp
  intro a b h
  exact sub_nonpos.mp h

theorem bestSet_greedy {best : Chosen} (hlimit : exhaustiveLimit < eligible.length)
    (h : bestSet text fuel eligible input = some best) :
    isCompatible best.set = true ∧
      ∃ first ∈ best.set, firstBySaving text fuel eligible input = some first ∧
        ∃ largest, applySet text fuel [first] input = some largest ∧
          ∀ e ∈ eligible, ∃ single, applySet text fuel [e] input = some single ∧
            single.total ≤ largest.total := by
  rw [bestSet, if_neg (by omega)] at h
  obtain ⟨savings, hsavings, h⟩ := Option.bind_eq_some_iff.mp h
  obtain ⟨hset, _⟩ := choose_some h
  have hperm := sortBy_perm (fun a b : Eligible × ℚ => b.2 - a.2) savings
  have hsorted := sorted_savings savings
  have hfirst : firstBySaving text fuel eligible input =
      ((sortBy (fun a b : Eligible × ℚ => b.2 - a.2) savings).map Prod.fst).head? := by
    rw [firstBySaving, hsavings]
    rfl
  refine ⟨?_, ?_⟩
  · rw [hset]
    exact addCompatible_compatible rfl
  · cases hl : sortBy (fun a b : Eligible × ℚ => b.2 - a.2) savings with
    | nil =>
      -- The list is as long as that of the eligible discounts.
      obtain ⟨e, he⟩ := List.exists_mem_of_length_pos (Nat.zero_lt_of_lt hlimit)
      obtain ⟨saving, hsaving, _⟩ := FallibleFolds.mapM_mem hsavings he
      rw [← hperm.mem_iff, hl] at hsaving
      cases hsaving
    | cons top rest =>
      rw [hl] at hperm hsorted hset hfirst
      have htop : top ∈ savings := hperm.mem_iff.mp (by simp)
      obtain ⟨entry, _, hentry⟩ := FallibleFolds.mem_of_mapM hsavings htop
      obtain ⟨hname, largest, hlargest, htotal⟩ := withSaving_some hentry
      refine ⟨top.1, ?_, hfirst, largest, ?_, ?_⟩
      · obtain ⟨others, hothers, _⟩ := addCompatible_sublist (rest.map Prod.fst) [top.1]
        rw [hset, List.map_cons, List.foldl_cons]
        change top.1 ∈ (rest.map Prod.fst).foldl addCompatible [top.1]
        rw [hothers]
        exact List.mem_append_left _ (List.mem_singleton_self _)
      · rw [hname]
        exact hlargest
      · intro e he
        obtain ⟨saving, hsaving, he'⟩ := FallibleFolds.mapM_mem hsavings he
        obtain ⟨_, single, hsingle, htotal'⟩ := withSaving_some he'
        refine ⟨single, hsingle, ?_⟩
        rw [htotal, htotal']
        rw [← hperm.mem_iff] at hsaving
        rcases List.mem_cons.mp hsaving with rfl | hrest
        · exact le_rfl
        · exact (List.pairwise_cons.mp hsorted).1 saving hrest

/-- What the one pass leaves out clashes with something that it chose. -/
theorem greedy_maximal {best : Chosen} (hlimit : exhaustiveLimit < eligible.length)
    (h : bestSet text fuel eligible input = some best) :
    ∀ e ∈ eligible, e ∈ best.set ∨ ∃ chosen ∈ best.set, canCombine chosen e = false := by
  rw [bestSet, if_neg (by omega)] at h
  obtain ⟨savings, hsavings, h⟩ := Option.bind_eq_some_iff.mp h
  rw [(choose_some h).1]
  intro e he
  obtain ⟨saving, hsaving, he⟩ := FallibleFolds.mapM_mem hsavings he
  obtain ⟨rfl, -⟩ := withSaving_some he
  exact addCompatible_maximal rfl (List.mem_map_of_mem ((sortBy_perm _ _).mem_iff.mpr hsaving))

end Greedy

/-- The set that is chosen in one pass is compatible, and it saves at least what any one discount
saves alone, if the discount that is taken first takes a percentage, a fixed amount or the shipping
rate off, or is applied first. -/
theorem greedy_worth (text : TextOps) (input : CalculateDiscountsInput) (fuel : ℕ) (best : Chosen)
    (hrefs : (input.lines.map (·.lineRef)).Nodup)
    (hlimit : exhaustiveLimit < (eligibleFor text input).length)
    (h : bestSet text fuel (eligibleFor text input) input = some best) :
    (best.set.Pairwise fun a b => canCombine a b = true) ∧
      ∃ first ∈ best.set,
        firstBySaving text fuel (eligibleFor text input) input = some first ∧
        (¬ CountsUnits first ∨
            (sortBy (compareEntries text) best.set).head? = some first →
          ∀ e ∈ eligibleFor text input, ∃ single,
            applySet text fuel [e] input = some single ∧ single.total ≤ best.total) := by
  obtain ⟨hcompatible, first, hmem, hfirst, largest, hlargest, hsingles⟩ := bestSet_greedy hlimit h
  obtain ⟨hsub, happ⟩ := bestSet_some h
  refine ⟨(isCompatible_iff _).mp hcompatible, first, hmem, hfirst, ?_⟩
  intro hcondition e he
  obtain ⟨single, hsingle, hle⟩ := hsingles e he
  refine ⟨single, hsingle, hle.trans ?_⟩
  have hclass : ∀ e ∈ best.set, OfItsClass e := by
    intro e he
    obtain ⟨candidate, _, hc⟩ := eligibleFor_mem (hsub.subset he)
    exact (consider_eligible hc).2.2.1
  exact applySet_worth hrefs hclass happ hmem hlargest hcondition

/-! Eleven discounts: a free pot with a thousand spent on tea, one off the tea, and nine that take
one off the order and combine with nothing. -/

def potWithTea : PromotionRule where
  type := .buyXGetY
  condition := ⟨.product, ["tea"], none, none⟩
  reward := ⟨{
    type := .buyXGetY
    buys := some ⟨.amount, 1000⟩
    gets := some ⟨1, .product, ["pot"], .free⟩ }, by decide +kernel⟩
  stackable := true
  priority := 0
  valid := by decide
  priority_nonneg := tenPercentOff.priority_nonneg

def oneOff (scope : PromotionScope) (targetRefs : List String) (stackable : Bool) :
    PromotionRule where
  type := .automatic
  condition := ⟨scope, targetRefs, none, none⟩
  reward := ⟨{ type := .fixedAmount, value := some 1 }, by decide +kernel⟩
  stackable := stackable
  priority := 0
  valid := by decide
  priority_nonneg := tenPercentOff.priority_nonneg

theorem letter_notBlank (c : Char) : isBlank (String.ofList ['p', c]) = false := by
  simp [isBlank, isWhitespace]

def lettered (c : Char) (rule : PromotionRule) : DiscountCandidate where
  promotion := { Promotion.create ⟨String.ofList ['p', c], letter_notBlank c⟩ "Sale" rule ⟨0, none⟩
    .everyone none (some .automatic) none with status := .active }
  coupon := none

def elevenDiscounts : CalculateDiscountsInput where
  lines := [⟨"0", "tea", [], 1, 1000⟩, ⟨"1", "pot", [], 1, 500⟩]
  shipping := none
  customer := ⟨none, none⟩
  enteredCodes := []
  candidates := lettered 'b' potWithTea :: lettered 'a' (oneOff .product ["tea"] true) ::
    ['c', 'd', 'e', 'f', 'g', 'h', 'i', 'j', 'k'].map fun c => lettered c (oneOff .cart [] false)
  now := 1

/-- Ten per cent and nothing else can be taken off. -/
def elevenSales : CalculateDiscountsInput where
  lines := sampleLines
  shipping := none
  customer := ⟨none, none⟩
  enteredCodes := []
  candidates := ['a', 'b', 'c', 'd', 'e', 'f', 'g', 'h', 'i', 'j', 'k'].map fun c =>
    lettered c tenPercentOff
  now := 1

theorem greedy_worth_sales :
    ∃ best, bestSet sampleText 0 (eligibleFor sampleText elevenSales) elevenSales = some best ∧
      best.set.Pairwise fun a b => canCombine a b = true := by
  have hsome : (bestSet sampleText 0 (eligibleFor sampleText elevenSales) elevenSales).isSome := by
    decide +kernel
  obtain ⟨best, hbest⟩ := Option.isSome_iff_exists.mp hsome
  have hlimit : exhaustiveLimit < (eligibleFor sampleText elevenSales).length := by
    decide +kernel
  exact ⟨best, hbest, (greedy_worth sampleText elevenSales 0 best (by decide) hlimit hbest).1⟩

theorem greedy_maximal_eleven :
    ∃ best, bestSet sampleText 0 (eligibleFor sampleText elevenDiscounts) elevenDiscounts = some best ∧
      ∀ e ∈ eligibleFor sampleText elevenDiscounts,
        e ∈ best.set ∨ ∃ chosen ∈ best.set, canCombine chosen e = false := by
  have hsome : (bestSet sampleText 0 (eligibleFor sampleText elevenDiscounts)
      elevenDiscounts).isSome := by decide +kernel
  obtain ⟨best, hbest⟩ := Option.isSome_iff_exists.mp hsome
  exact ⟨best, hbest, greedy_maximal (by decide +kernel) hbest⟩

/-- The free pot saves five hundred alone. With one off the tea, which comes first, a thousand is
no longer spent on tea, and one is all that is saved. -/
theorem greedy_fails :
    ¬ ∀ (text : TextOps) (input : CalculateDiscountsInput) (fuel : ℕ) (best : Chosen),
      (input.lines.map (·.lineRef)).Nodup →
      exhaustiveLimit < (eligibleFor text input).length →
      bestSet text fuel (eligibleFor text input) input = some best →
      ∀ e ∈ eligibleFor text input, ∀ single, applySet text fuel [e] input = some single →
        single.total ≤ best.total := by
  intro hall
  have hset : (bestSet sampleText 0 (eligibleFor sampleText elevenDiscounts)
      elevenDiscounts).map (·.total) = some 1 := by decide +kernel
  have hpot : (eligibleFor sampleText elevenDiscounts).head?.bind (fun e =>
      (applySet sampleText 0 [e] elevenDiscounts).map (·.total)) = some 500 := by decide +kernel
  have hlimit : exhaustiveLimit < (eligibleFor sampleText elevenDiscounts).length := by
    decide +kernel
  obtain ⟨best, hbest, hone⟩ := Option.map_eq_some_iff.mp hset
  obtain ⟨pot, hmem, hsingle⟩ := Option.bind_eq_some_iff.mp hpot
  obtain ⟨single, hsingle, hfive⟩ := Option.map_eq_some_iff.mp hsingle
  have hle := hall sampleText elevenDiscounts 0 best (by decide) hlimit hbest pot
    (List.mem_of_head? hmem) single hsingle
  rw [hone, hfive] at hle
  norm_num at hle

end Promotions
