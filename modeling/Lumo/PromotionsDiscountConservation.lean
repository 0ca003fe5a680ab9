import Lumo.KeyedLines
import Lumo.PromotionsDiscountTermination
import Lumo.PromotionsLineDiscounts

/-! # Conservation of discounts

What a calculation takes off is split over the lines without loss: every line gives at most its
own total, and the shipping rate is given at most once. -/
namespace Promotions

open SharedKernel Builtins

section Books

variable {lines : List DiscountLine}

/-- Between them, the two maps account for the total of every line. -/
structure Balanced (lines : List DiscountLine) (remaining allocations : OrderedMap String ℚ) :
    Prop where
  leftAmounts : AllAmounts remaining
  allocatedAmounts : AllAmounts allocations
  covers : ∀ line ∈ lines,
    amountOf remaining line.lineRef + amountOf allocations line.lineRef = lineTotal line
  ofLines : ∀ ref, 0 < amountOf remaining ref → ref ∈ lines.map (·.lineRef)

def allocatedTotal (lines : List DiscountLine) (allocations : OrderedMap String ℚ) : ℚ :=
  (lines.map fun line => amountOf allocations line.lineRef).sum

theorem lineTotal_amount (line : DiscountLine) : IsAmount (lineTotal line) :=
  ⟨line.unitPriceMinor * line.quantity, by simp [lineTotal]⟩

theorem allocatedTotal_set (hrefs : (lines.map (·.lineRef)).Nodup) {ref : String}
    (href : ref ∈ lines.map (·.lineRef)) (allocations : OrderedMap String ℚ) (x : ℚ) :
    allocatedTotal lines (allocations.set ref (amountOf allocations ref + x)) =
      allocatedTotal lines allocations + x := by
  induction lines with
  | nil => cases href
  | cons line rest ih =>
    rw [List.map_cons, List.nodup_cons] at hrefs
    rw [List.map_cons, List.mem_cons] at href
    simp only [allocatedTotal, List.map_cons, List.sum_cons, amountOf_set]
    rcases href with rfl | hrest
    · have hsame : (rest.map fun other =>
          if other.lineRef = line.lineRef then amountOf allocations line.lineRef + x
          else amountOf allocations other.lineRef) =
          rest.map fun other => amountOf allocations other.lineRef := by
        apply List.map_congr_left
        intro other hother
        rw [if_neg]
        intro heq
        exact hrefs.1 (heq ▸ List.mem_map_of_mem (f := fun l : DiscountLine => l.lineRef) hother)
      rw [hsame, if_pos rfl]
      ring
    · have hne : line.lineRef ≠ ref := by
        rintro rfl
        exact hrefs.1 hrest
      have hih := ih hrefs.2 hrest
      simp only [allocatedTotal, amountOf_set] at hih
      rw [hih, if_neg hne]
      ring

variable {remaining allocations : OrderedMap String ℚ} {amount : ℚ}

/-- Taking whole units off a line that has them left keeps the books balanced. -/
theorem takeOff_balanced {off : String × ℚ} (hrefs : (lines.map (·.lineRef)).Nodup)
    (hb : Balanced lines remaining allocations) (ha : IsAmount amount) (hwhole : IsWhole off.2)
    (hle : off.2 ≤ amountOf remaining off.1) :
    let after := takeOff (remaining, allocations, amount) off
    Balanced lines after.1 after.2.1 ∧ IsAmount after.2.2 ∧
      allocatedTotal lines after.2.1 - after.2.2 = allocatedTotal lines allocations - amount ∧
      ∀ ref ≠ off.1, amountOf after.1 ref = amountOf remaining ref := by
  obtain ⟨ref, x⟩ := off
  by_cases hx : x ≤ 0
  · simp only [takeOff, hx, if_true]
    exact ⟨hb, ha, trivial, fun _ _ => trivial⟩
  · have hpos : 0 < x := not_le.mp hx
    have hline := hb.ofLines ref (hpos.trans_le hle)
    simp only [takeOff, hx, if_false]
    refine ⟨⟨?_, ?_, ?_, ?_⟩, ha.add (hwhole.amount hpos.le), ?_, ?_⟩
    · intro other
      rw [amountOf_set]
      split
      · exact ((isWhole_of_amount (hb.leftAmounts ref)).sub hwhole).amount (sub_nonneg.mpr hle)
      · exact hb.leftAmounts other
    · intro other
      rw [amountOf_set]
      split
      · exact (hb.allocatedAmounts ref).add (hwhole.amount hpos.le)
      · exact hb.allocatedAmounts other
    · intro line hmem
      have hcovers := hb.covers line hmem
      rw [amountOf_set, amountOf_set]
      split
      · rename_i heq
        rw [heq] at hcovers
        linarith
      · exact hcovers
    · intro other hother
      rw [amountOf_set] at hother
      split at hother
      · rename_i heq
        rw [heq]
        exact hline
      · exact hb.ofLines other hother
    · rw [allocatedTotal_set hrefs hline]
      ring
    · intro other hne
      rw [amountOf_set, if_neg hne]

theorem takeAll_balanced {off : List (String × ℚ)} (hrefs : (lines.map (·.lineRef)).Nodup)
    (hkeys : (off.map Prod.fst).Nodup) (hb : Balanced lines remaining allocations)
    (ha : IsAmount amount) (hoff : ∀ e ∈ off, IsWhole e.2 ∧ e.2 ≤ amountOf remaining e.1) :
    let after := off.foldl takeOff (remaining, allocations, amount)
    Balanced lines after.1 after.2.1 ∧ IsAmount after.2.2 ∧
      allocatedTotal lines after.2.1 - after.2.2 = allocatedTotal lines allocations - amount := by
  induction off generalizing remaining allocations amount with
  | nil => exact ⟨hb, ha, rfl⟩
  | cons e rest ih =>
    obtain ⟨hwhole, hle⟩ := hoff e (by simp)
    obtain ⟨hb', ha', htotal, hsame⟩ := takeOff_balanced hrefs hb ha hwhole hle
    rw [List.map_cons, List.nodup_cons] at hkeys
    have hrest : ∀ x ∈ rest, IsWhole x.2 ∧
        x.2 ≤ amountOf (takeOff (remaining, allocations, amount) e).1 x.1 := by
      intro x hx
      have hne : x.1 ≠ e.1 := by
        intro heq
        exact hkeys.1 (heq ▸ List.mem_map_of_mem (f := Prod.fst) hx)
      rw [hsame x.1 hne]
      exact hoff x (List.mem_cons_of_mem _ hx)
    obtain ⟨hb'', ha'', htotal'⟩ := ih hkeys.2 hb' ha' hrest
    exact ⟨hb'', ha'', htotal'.trans htotal⟩

end Books

section Sets

variable {text : TextOps} {fuel : ℕ} {input : CalculateDiscountsInput}

def shippingRate (input : CalculateDiscountsInput) : ℚ :=
  (input.shipping.map fun shipping => (shipping.rateMinor : ℚ)).getD 0

theorem discountTotal_append (keep : DiscountClass → Bool) (l : List AppliedDiscount)
    (a : AppliedDiscount) :
    discountTotal keep (l ++ [a]) =
      discountTotal keep l + if keep a.discountClass then a.amountMinor else 0 := by
  rw [discountTotal, List.filter_append, List.map_append, List.sum_append]
  cases h : keep a.discountClass <;> simp [discountTotal, h]

/-- The invariant of the pass over a set of discounts. -/
structure Accounted (input : CalculateDiscountsInput) (amounts : Amounts) : Prop where
  books : Balanced input.lines amounts.remaining amounts.allocations
  applied : ∀ a ∈ amounts.applied, IsAmount a.amountMinor
  split : allocatedTotal input.lines amounts.allocations =
    discountTotal (· != .shipping) amounts.applied
  shippingLeft : IsAmount amounts.shippingLeft
  shipping : discountTotal (· == .shipping) amounts.applied + amounts.shippingLeft =
    shippingRate input

theorem start_accounted (hrefs : (input.lines.map (·.lineRef)).Nodup) :
    Accounted input (startAmounts input) := by
  have hkeys : ((input.lines.map fun line => (line.lineRef, lineTotal line)).map
      Prod.fst).Nodup := by
    rw [List.map_map]
    exact hrefs
  have hentries := OrderedMap.entries_ofEntries hkeys
  have hfound : ∀ line ∈ input.lines,
      amountOf (startAmounts input).remaining line.lineRef = lineTotal line := by
    intro line hline
    apply amountOf_of_mem
    rw [startAmounts, hentries]
    exact List.mem_map.mpr ⟨line, hline, rfl⟩
  have hline : ∀ ref, amountOf (startAmounts input).remaining ref = 0 ∨
      ∃ line ∈ input.lines, line.lineRef = ref := by
    intro ref
    cases hf : (startAmounts input).remaining.find? ref with
    | none =>
      left
      rw [amountOf, hf]
      rfl
    | some x =>
      have hmem := OrderedMap.find?_eq_some.mp hf
      rw [startAmounts, hentries] at hmem
      obtain ⟨line, hline, heq⟩ := List.mem_map.mp hmem
      exact Or.inr ⟨line, hline, congrArg Prod.fst heq⟩
  have hrate : IsAmount (startAmounts input).shippingLeft := by
    cases hs : input.shipping with
    | none =>
      rw [startAmounts, hs]
      exact IsAmount.zero
    | some shipping =>
      rw [startAmounts, hs]
      exact IsAmount.natCast shipping.rateMinor
  refine ⟨⟨?_, fun ref => IsAmount.zero, ?_, ?_⟩, ?_, ?_, hrate, ?_⟩
  · intro ref
    rcases hline ref with hzero | ⟨line, hmem, rfl⟩
    · rw [hzero]
      exact IsAmount.zero
    · rw [hfound line hmem]
      exact lineTotal_amount line
  · intro line hmem
    rw [hfound line hmem]
    exact add_zero _
  · intro ref hpos
    rcases hline ref with hzero | ⟨line, hmem, rfl⟩
    · rw [hzero] at hpos
      exact absurd hpos (lt_irrefl 0)
    · exact List.mem_map_of_mem hmem
  · intro a ha
    cases ha
  · simp [allocatedTotal, startAmounts, discountTotal]
  · simp [startAmounts, discountTotal, shippingRate]

/-- An entry speaks of the class its promotion has. -/
def OfItsClass (entry : Eligible) : Prop :=
  entry.discountClass = entry.candidate.promotion.discountClass

variable {amounts after : Amounts} {entry : Eligible} {best : Chosen}

theorem applyEntry_accounted (hrefs : (input.lines.map (·.lineRef)).Nodup)
    (hentry : OfItsClass entry) (h : Accounted input amounts)
    (hstep : applyEntry fuel input.lines amounts entry = some after) : Accounted input after := by
  rw [applyEntry] at hstep
  split at hstep
  · rename_i hclass
    cases hstep
    refine ⟨h.books, ?_, ?_, IsAmount.zero, ?_⟩
    · intro a ha
      rcases List.mem_append.mp ha with hold | hnew
      · exact h.applied a hold
      · rw [List.mem_singleton.mp hnew]
        exact h.shippingLeft
    · rw [discountTotal_append]
      simp [appliedDiscount, hclass, h.split]
    · rw [discountTotal_append]
      simpa [appliedDiscount, hclass] using h.shipping
  · rename_i hclass
    obtain ⟨off, hoff, hstep⟩ := Option.bind_eq_some_iff.mp hstep
    have hfits := lineDiscounts_fits h.books.leftAmounts (hentry ▸ hclass) hoff
    obtain ⟨hbooks, hamount, htotal⟩ :=
      takeAll_balanced hrefs off.distinct h.books IsAmount.zero hfits
    cases hstep
    refine ⟨hbooks, ?_, ?_, h.shippingLeft, ?_⟩
    · intro a ha
      rcases List.mem_append.mp ha with hold | hnew
      · exact h.applied a hold
      · rw [List.mem_singleton.mp hnew]
        exact hamount
    · rw [discountTotal_append, ← h.split]
      simp only [appliedDiscount, bne_iff_ne, ne_eq, hclass, not_false_eq_true, if_true]
      linarith
    · rw [discountTotal_append]
      simpa [appliedDiscount, hclass] using h.shipping

variable {application : Application} {set : List Eligible}

theorem applySet_accounted (hrefs : (input.lines.map (·.lineRef)).Nodup)
    (hset : ∀ e ∈ set, OfItsClass e) (h : applySet text fuel set input = some application) :
    ∃ amounts, Accounted input amounts ∧ application.applied = amounts.applied ∧
      application.allocations = amounts.allocations := by
  obtain ⟨amounts, hfold, h⟩ := Option.bind_eq_some_iff.mp h
  cases h
  refine ⟨amounts, ?_, rfl, rfl⟩
  refine FallibleFolds.foldlM_invariant ?_ (start_accounted hrefs) hfold
  intro before entry after hmem hb hstep
  exact applyEntry_accounted hrefs (hset entry ((sortBy_perm _ set).mem_iff.mp hmem)) hb hstep

theorem applyEntry_names (h : applyEntry fuel input.lines amounts entry = some after) :
    after.applied.map (fun a => (a.promotionId, a.code)) =
      amounts.applied.map (fun a => (a.promotionId, a.code)) ++ [(entry.promotionId, entry.code)] := by
  rw [applyEntry] at h
  split at h
  · cases h
    simp [appliedDiscount]
  · obtain ⟨off, _, h⟩ := Option.bind_eq_some_iff.mp h
    cases h
    simp [appliedDiscount]

theorem applySet_names (h : applySet text fuel set input = some application) :
    (application.applied.map fun a => (a.promotionId, a.code)).Perm
      (set.map fun e => (e.promotionId, e.code)) := by
  obtain ⟨amounts, hfold, h⟩ := Option.bind_eq_some_iff.mp h
  cases h
  have hnames : ∀ (l : List Eligible) (before : Amounts),
      l.foldlM (applyEntry fuel input.lines) before = some amounts →
        amounts.applied.map (fun a => (a.promotionId, a.code)) =
          before.applied.map (fun a => (a.promotionId, a.code)) ++
            l.map fun e => (e.promotionId, e.code) := by
    intro l
    induction l with
    | nil =>
      intro before hb
      cases hb
      simp
    | cons entry rest ih =>
      intro before hb
      rw [List.foldlM_cons] at hb
      obtain ⟨after, hstep, hrest⟩ := Option.bind_eq_some_iff.mp hb
      rw [ih after hrest, applyEntry_names hstep, List.map_cons, List.append_assoc]
      rfl
  have hall := hnames _ _ hfold
  change (amounts.applied.map fun a => (a.promotionId, a.code)).Perm _
  rw [hall]
  exact (sortBy_perm _ set).map _

theorem applySet_codes (h : applySet text fuel set input = some application) :
    (application.applied.map (·.code)).Perm (set.map (·.code)) := by
  have hcodes := (applySet_names h).map Prod.snd
  rwa [List.map_map, List.map_map] at hcodes

theorem subsetOf_sublist (eligible : List Eligible) (mask : ℕ) :
    (subsetOf eligible mask).Sublist eligible := by
  have h := (List.filter_sublist (l := eligible.zipIdx)
    (p := fun e => mask.testBit e.2)).map Prod.fst
  rwa [List.zipIdx_map_fst] at h

theorem choose_some (h : choose text fuel input set = some best) :
    best.set = set ∧ applySet text fuel best.set input = some best.toApplication := by
  obtain ⟨application, happ, h⟩ := Option.bind_eq_some_iff.mp h
  cases h
  exact ⟨rfl, happ⟩

theorem addCompatible_sublist (l set : List Eligible) :
    ∃ rest, (l.foldl addCompatible set) = set ++ rest ∧ rest.Sublist l := by
  induction l generalizing set with
  | nil => exact ⟨[], by simp, List.nil_sublist _⟩
  | cons entry l ih =>
    rw [List.foldl_cons, addCompatible]
    split
    · obtain ⟨rest, heq, hsub⟩ := ih (set ++ [entry])
      exact ⟨entry :: rest, by rw [heq, List.append_assoc]; rfl, hsub.cons_cons entry⟩
    · obtain ⟨rest, heq, hsub⟩ := ih set
      exact ⟨rest, heq, hsub.cons entry⟩

/-- On either path the best set is a set of eligible discounts that has been applied. -/
theorem bestSet_some {eligible : List Eligible} (h : bestSet text fuel eligible input = some best) :
    best.set.Subperm eligible ∧ applySet text fuel best.set input = some best.toApplication := by
  rw [bestSet] at h
  split at h
  · obtain ⟨none, hnone, h⟩ := Option.bind_eq_some_iff.mp h
    refine FallibleFolds.foldlM_invariant (I := fun best : Chosen => best.set.Subperm eligible ∧
      applySet text fuel best.set input = some best.toApplication) ?_ ?_ h
    · intro best mask next _ hb hstep
      rw [tryMask] at hstep
      split at hstep
      · obtain ⟨candidate, hc, hstep⟩ := Option.bind_eq_some_iff.mp hstep
        cases hstep
        split
        · obtain ⟨hset, happ⟩ := choose_some hc
          exact ⟨hset ▸ (subsetOf_sublist eligible mask).subperm, happ⟩
        · exact hb
      · cases hstep
        exact hb
    · obtain ⟨hset, happ⟩ := choose_some hnone
      exact ⟨hset ▸ List.nil_subperm, happ⟩
  · obtain ⟨savings, hsavings, h⟩ := Option.bind_eq_some_iff.mp h
    obtain ⟨hset, happ⟩ := choose_some h
    refine ⟨?_, happ⟩
    have hmap : savings.map Prod.fst = eligible := by
      refine FallibleFolds.mapM_map ?_ hsavings
      intro entry e he
      obtain ⟨application, _, he⟩ := Option.bind_eq_some_iff.mp he
      cases he
      rfl
    obtain ⟨rest, heq, hsub⟩ := addCompatible_sublist
      ((sortBy (fun a b : Eligible × ℚ => b.2 - a.2) savings).map Prod.fst) []
    rw [hset, heq, List.nil_append]
    rw [← hmap]
    exact hsub.subperm.trans ((sortBy_perm _ savings).map Prod.fst).subperm

end Sets

section Result

variable {text : TextOps} {fuel : ℕ} {input : CalculateDiscountsInput}

/-- The calculation answers `result` once it has enough fuel. -/
def Returns (text : TextOps) (input : CalculateDiscountsInput) (result : DiscountResult) : Prop :=
  ∃ fuel, calculateDiscounts text fuel input = some result

/-- Nothing is lost and nothing is given twice: amounts are whole and not negative, lines give at
most their totals, and what they give is what the order is discounted by. -/
structure Conserves (input : CalculateDiscountsInput) (result : DiscountResult) : Prop where
  applied : ∀ a ∈ result.applied, IsAmount a.amountMinor
  orderAmount : IsAmount result.orderDiscountMinor
  shippingAmount : IsAmount result.shippingDiscountMinor
  allocations : ∀ a ∈ result.lineAllocations, IsAmount a.amountMinor
  ofLines : ∀ a ∈ result.lineAllocations,
    ∃ line ∈ input.lines, a.lineRef = line.lineRef ∧ a.amountMinor ≤ lineTotal line
  oncePerLine : (result.lineAllocations.map (·.lineRef)).Nodup
  split : (result.lineAllocations.map (·.amountMinor)).sum = result.orderDiscountMinor
  orderTotal : result.orderDiscountMinor =
    ((result.applied.filter fun a => a.discountClass != .shipping).map (·.amountMinor)).sum
  withinRate : result.shippingDiscountMinor ≤ shippingRate input

/-- The calculation answers, and whatever it answers conserves. -/
structure Conserved (text : TextOps) (input : CalculateDiscountsInput) : Prop where
  returns : ∃ result, Returns text input result
  conserves : ∀ result, Returns text input result → Conserves input result

theorem sum_filter_of_zero {α : Type} {keep : α → Bool} {f : α → ℚ} {l : List α}
    (h : ∀ a ∈ l, keep a = false → f a = 0) : ((l.filter keep).map f).sum = (l.map f).sum := by
  rw [KeyedLines.sum_filter]
  refine congrArg List.sum (List.map_congr_left fun a ha => ?_)
  cases hk : keep a with
  | true => rfl
  | false => exact (h a ha hk).symm

variable {entry : Eligible} {best : Chosen} {keep : DiscountClass → Bool} {l : List AppliedDiscount}

theorem consider_eligible {activeCodes : List String} {candidate : DiscountCandidate}
    (h : consider text activeCodes input candidate = .eligible entry) :
    entry.candidate = candidate ∧ entry.code = couponCode text candidate ∧ OfItsClass entry ∧
      rejectionFor text candidate input = none := by
  rw [consider] at h
  split at h
  · cases h
  · split at h
    · cases h
    · split at h
      · cases h
      · rename_i hnone
        cases h
        exact ⟨rfl, rfl, rfl, hnone⟩

theorem eligibleFor_mem (h : entry ∈ eligibleFor text input) :
    ∃ candidate ∈ input.candidates, consider text
      ((enteredCodes text input).take maxDiscountCodes) input candidate = .eligible entry := by
  obtain ⟨consideration, hc, hentry⟩ := List.mem_filterMap.mp h
  obtain ⟨candidate, hmem, rfl⟩ := List.mem_map.mp hc
  refine ⟨candidate, hmem, ?_⟩
  generalize consider text _ input candidate = consideration at hentry
  cases consideration with
  | skipped | rejected code reason => cases hentry
  | eligible e =>
    cases hentry
    rfl

theorem eligible_codes (text : TextOps) (input : CalculateDiscountsInput) :
    ((eligibleFor text input).filterMap (·.code)).Sublist
      (input.candidates.filterMap (couponCode text)) := by
  rw [eligibleFor, considerations]
  generalize (enteredCodes text input).take maxDiscountCodes = activeCodes
  induction input.candidates with
  | nil => exact List.nil_sublist _
  | cons candidate rest ih =>
    rw [List.map_cons]
    cases hc : consider text activeCodes input candidate with
    | eligible entry =>
      obtain ⟨_, hcode, _, _⟩ := consider_eligible hc
      rw [List.filterMap_cons_some (f := Consideration.entry?) (b := entry) rfl]
      cases hcoupon : couponCode text candidate with
      | none =>
        rw [List.filterMap_cons_none (hcode.trans hcoupon), List.filterMap_cons_none hcoupon]
        exact ih
      | some code =>
        rw [List.filterMap_cons_some (hcode.trans hcoupon), List.filterMap_cons_some hcoupon]
        exact ih.cons_cons code
    | skipped | rejected code reason =>
      rw [List.filterMap_cons_none (f := Consideration.entry?) rfl]
      exact ih.trans ((List.sublist_cons_self candidate rest).filterMap _)

theorem applied_codes (hcodes : (input.candidates.filterMap (couponCode text)).Nodup)
    (hset : best.set.Subperm (eligibleFor text input))
    (happ : applySet text fuel best.set input = some best.toApplication) :
    (best.applied.filterMap (·.code)).Nodup := by
  obtain ⟨l, hperm, hsub⟩ := hset
  have heligible := hcodes.sublist (eligible_codes text input)
  have hl : (l.filterMap (·.code)).Nodup := heligible.sublist (hsub.filterMap _)
  have hsetCodes : (best.set.filterMap (·.code)).Nodup := (hperm.filterMap _).nodup_iff.mp hl
  have hids : ∀ {α : Type} (f : α → Option String) (l : List α),
      (l.map f).filterMap id = l.filterMap f := by
    intro α f l
    rw [List.filterMap_map]
    rfl
  have happlied := (applySet_codes happ).filterMap id
  rw [hids, hids] at happlied
  exact happlied.nodup_iff.mpr hsetCodes

theorem dropped_zero (hamounts : ∀ a ∈ best.applied, IsAmount a.amountMinor)
    (hcodes : (best.applied.filterMap (·.code)).Nodup) {a : AppliedDiscount} (ha : a ∈ best.applied)
    (h : keepsApplied (emptyCodes input best.applied) a = false) : a.amountMinor = 0 := by
  rw [keepsApplied] at h
  cases hcode : a.code with
  | none =>
    simp only [hcode, decide_eq_false_iff_not, not_lt] at h
    exact le_antisymm h (hamounts a ha).nonneg
  | some code =>
    simp only [hcode, Bool.not_eq_false', List.contains_eq_mem, decide_eq_true_eq] at h
    obtain ⟨b, hb, hbcode⟩ := List.mem_filterMap.mp h
    obtain ⟨hbmem, hbzero⟩ := List.mem_filter.mp hb
    obtain rfl := FallibleFolds.eq_of_nodup_filterMap hcodes ha hbmem hcode hbcode
    simp only [Bool.and_eq_true, beq_iff_eq] at hbzero
    exact hbzero.1

theorem discountTotal_kept {p : AppliedDiscount → Bool}
    (h : ∀ a ∈ l, p a = false → a.amountMinor = 0) :
    discountTotal keep (l.filter p) = discountTotal keep l := by
  rw [discountTotal, List.filter_comm]
  apply sum_filter_of_zero
  intro a ha
  exact h a (List.mem_of_mem_filter ha)

theorem discountTotal_amount (h : ∀ a ∈ l, IsAmount a.amountMinor) :
    IsAmount (discountTotal keep l) := by
  apply IsAmount.sum
  intro x hx
  obtain ⟨a, ha, rfl⟩ := List.mem_map.mp hx
  exact h a (List.mem_of_mem_filter ha)

/-- Whatever the calculation answers conserves. -/
theorem calculateDiscounts_conserves {result : DiscountResult}
    (hrefs : (input.lines.map (·.lineRef)).Nodup)
    (hcodes : (input.candidates.filterMap (couponCode text)).Nodup)
    (h : calculateDiscounts text fuel input = some result) : Conserves input result := by
  obtain ⟨best, hbest, h⟩ := Option.bind_eq_some_iff.mp h
  cases h
  obtain ⟨hset, happ⟩ := bestSet_some hbest
  have hclass : ∀ e ∈ best.set, OfItsClass e := by
    intro e he
    obtain ⟨candidate, _, hc⟩ := eligibleFor_mem (hset.subset he)
    exact (consider_eligible hc).2.2.1
  obtain ⟨amounts, haccounted, happlied, hallocations⟩ := applySet_accounted hrefs hclass happ
  have hamounts : ∀ a ∈ best.applied, IsAmount a.amountMinor := by
    rw [happlied]
    exact haccounted.applied
  have hdropped : ∀ a ∈ best.applied, keepsApplied (emptyCodes input best.applied) a = false →
      a.amountMinor = 0 :=
    fun a ha => dropped_zero hamounts (applied_codes hcodes hset happ) ha
  have hkept : ∀ a ∈ best.applied.filter (keepsApplied (emptyCodes input best.applied)),
      IsAmount a.amountMinor := fun a ha => hamounts a (List.mem_of_mem_filter ha)
  have hcovers : ∀ line ∈ input.lines,
      amountOf best.allocations line.lineRef ≤ lineTotal line := by
    intro line hline
    rw [hallocations, ← haccounted.books.covers line hline]
    exact le_add_of_nonneg_left (haccounted.books.leftAmounts line.lineRef).nonneg
  have htotals : ∀ keep : DiscountClass → Bool, IsAmount (discountTotal keep
      (best.applied.filter (keepsApplied (emptyCodes input best.applied)))) :=
    fun _ => discountTotal_amount hkept
  refine ⟨hkept, htotals (· != .shipping), htotals (· == .shipping), ?_, ?_, ?_, ?_, rfl, ?_⟩
  · intro a ha
    obtain ⟨line, _, rfl⟩ := List.mem_map.mp (List.mem_of_mem_filter ha)
    dsimp only
    rw [hallocations]
    exact haccounted.books.allocatedAmounts line.lineRef
  · intro a ha
    obtain ⟨line, hline, rfl⟩ := List.mem_map.mp (List.mem_of_mem_filter ha)
    exact ⟨line, hline, rfl, hcovers line hline⟩
  · have hall : ((input.lines.map fun line =>
        (⟨line.lineRef, amountOf best.allocations line.lineRef⟩ : LineAllocation)).map
          (·.lineRef)).Nodup := by
      rw [List.map_map]
      exact hrefs
    exact hall.sublist (List.filter_sublist.map _)
  · rw [sum_filter_of_zero, List.map_map]
    · change allocatedTotal input.lines best.allocations = _
      rw [discountTotal_kept hdropped, hallocations, haccounted.split, happlied]
    · intro a ha hzero
      obtain ⟨line, _, rfl⟩ := List.mem_map.mp ha
      have hnonneg : 0 ≤ amountOf best.allocations line.lineRef := by
        rw [hallocations]
        exact (haccounted.books.allocatedAmounts line.lineRef).nonneg
      exact le_antisymm (not_lt.mp (of_decide_eq_false hzero)) hnonneg
  · change discountTotal (· == .shipping) _ ≤ _
    rw [discountTotal_kept hdropped, happlied, ← haccounted.shipping]
    exact le_add_of_nonneg_right haccounted.shippingLeft.nonneg

theorem returns_iff (text : TextOps) (input : CalculateDiscountsInput) :
    (∃ result, Returns text input result) ↔
      ∀ e ∈ eligibleFor text input, ¬ Endless e.candidate.promotion := by
  have hclass : ∀ e ∈ eligibleFor text input, OfItsClass e := by
    intro e he
    obtain ⟨candidate, _, hc⟩ := eligibleFor_mem he
    exact (consider_eligible hc).2.2.1
  constructor
  · rintro ⟨result, fuel, h⟩ e he hendless
    have hne : e.discountClass ≠ .shipping := by
      rw [hclass e he]
      exact hendless.takesItems
    rw [calculateDiscounts, bestSet_endless text he hne hendless] at h
    cases h
  · intro h
    obtain ⟨fuel, henough⟩ := exists_enough input hclass h
    obtain ⟨best, hbest⟩ :=
      Option.isSome_iff_exists.mp (bestSet_isSome text (henough fuel (le_refl fuel)))
    exact ⟨_, fuel, by rw [calculateDiscounts, hbest]; rfl⟩

/-- With distinct lines and distinct codes, the calculation answers and conserves exactly when no
eligible discount is endless. -/
theorem calculateDiscounts_conserved_iff (text : TextOps) (input : CalculateDiscountsInput)
    (hrefs : (input.lines.map (·.lineRef)).Nodup)
    (hcodes : (input.candidates.filterMap (couponCode text)).Nodup) :
    Conserved text input ↔ ∀ e ∈ eligibleFor text input, ¬ Endless e.candidate.promotion := by
  constructor
  · intro h
    exact (returns_iff text input).mp h.returns
  · intro h
    refine ⟨(returns_iff text input).mpr h, ?_⟩
    rintro result ⟨fuel, hfuel⟩
    exact calculateDiscounts_conserves hrefs hcodes hfuel

/-- The reward is a percentage, so that what is bought and got is not looked at. -/
def takeNothing : PromotionRule where
  type := .buyXGetY
  condition := ⟨.product, [], none, none⟩
  reward := ⟨{
    type := .percentage
    value := some 10
    buyQuantity := some 1
    getQuantity := some 1
    buys := some ⟨.quantity, 0⟩
    gets := some ⟨0, .product, ["tea"], .free⟩ }, by decide⟩
  stackable := false
  priority := 0
  valid := by decide
  priority_nonneg := tenPercentOff.priority_nonneg

theorem calculateDiscounts_conserved_iff_tenPercent :
    Conserved sampleText (cartWith tenPercentOff) := by
  refine (calculateDiscounts_conserved_iff sampleText (cartWith tenPercentOff) (by decide)
    (by decide)).mpr ?_
  intro e he hendless
  obtain ⟨candidate, hmem, hc⟩ := eligibleFor_mem he
  have hcandidate := (consider_eligible hc).1
  rw [List.mem_singleton.mp hmem] at hcandidate
  have htype := hendless.ruleType
  rw [hcandidate] at htype
  cases htype

theorem conserved_fails : (sampleLines.map (·.lineRef)).Nodup ∧
    ((cartWith takeNothing).candidates.filterMap (couponCode sampleText)).Nodup ∧
    ¬ Conserved sampleText (cartWith takeNothing) := by
  refine ⟨by decide, by decide, ?_⟩
  intro h
  have haccepts : rejectionFor sampleText ⟨samplePromotion takeNothing, none⟩
      (cartWith takeNothing) = none := by
    decide +kernel
  have heligible : consider sampleText
      ((enteredCodes sampleText (cartWith takeNothing)).take maxDiscountCodes)
      (cartWith takeNothing) ⟨samplePromotion takeNothing, none⟩ =
        .eligible ⟨⟨samplePromotion takeNothing, none⟩, "promotion-1", none, .product,
          combinesWithNothing⟩ := by
    rw [consider, haccepts]
    rfl
  refine (returns_iff sampleText (cartWith takeNothing)).mp h.returns _
    (List.mem_filterMap.mpr ⟨_, List.mem_map.mpr ⟨_, by simp [cartWith], heligible⟩, rfl⟩) ?_
  exact ⟨rfl, by decide, rfl, _, _, rfl, rfl, rfl, by decide, by decide⟩

end Result

end Promotions
