import Lumo.CatalogProductUseCases

/-! # One currency for a product

A product that was read before a change of the currency is saved in the old one, and a variant
that is committed while the change is under way is not found by it. -/
namespace CatalogStorage

open SharedKernel Builtins Methods Catalog Interleavings LabelledRuns

def OneCurrency (variants : List Variant) : Prop :=
  ∀ v ∈ variants, ∀ w ∈ variants, v.price.currency = w.price.currency

def Change.reprices (read : Product) : Change → Bool
  | updateVariant _ _ price _ _ =>
    decide (read.variants.length = 1) &&
      read.variants.all fun w => w.price.currency != price.currency
  | _ => false

section Changes

variable {ops : TextOps} {draw : Draw} {product new : Product} {output : Output}
  {change : Change} {occurrence : Occurrence} {variantId : String} {variants : List Variant}
  {variant : Variant} {currency : String}

theorem called_ok {method : EStateM DomainError Product Unit}
    (h : called method product = .ok new) : method product = .ok () new := by
  rw [called] at h
  split at h
  · rename_i hok
    cases h
    exact hok
  · cases h

theorem addVariant_ok (h : called (Product.addVariant variant occurrence) product = .ok new) :
    (∀ v ∈ product.variants, v.price.currency = variant.price.currency) ∧
      new.variants = product.variants ++ [variant] := by
  have hok := called_ok h
  simp only [Product.addVariant, run_bind, run_get, run_ofExcept, run_modify] at hok
  cases hfits : product.assertFits variant.sku variant.selection variant.price.currency none with
  | error e => simp [hfits] at hok
  | ok u =>
    simp only [hfits] at hok
    cases hok
    have hapart := (assertFits_ok.mp hfits).1
    rw [otherVariants_none] at hapart
    exact ⟨hapart.currency, rfl⟩

theorem removeVariant_ok
    (h : called (Product.removeVariant variantId occurrence) product = .ok new) :
    1 < product.variants.length ∧ ∃ index, new.variants = product.variants.eraseIdx index := by
  have hok := called_ok h
  simp only [Product.removeVariant, run_bind, run_get] at hok
  by_cases hlast : product.variants.length ≤ 1
  · simp [hlast] at hok
  · cases hfound : product.variantIndex? variantId with
    | none => simp [hlast, hfound] at hok
    | some index =>
      simp only [hlast, hfound, if_false, run_bind, run_modify] at hok
      cases hok
      exact ⟨not_le.mp hlast, index, rfl⟩

theorem updateVariant_ok {changes : VariantChanges}
    (h : called (Product.updateVariant variantId changes occurrence) product = .ok new) :
    ∃ index, ∃ hindex : index < product.variants.length,
      product.variants[index].id.value = variantId ∧
      (∀ v ∈ product.variants, v.id.value ≠ variantId →
        v.price.currency = changes.price.currency) ∧
      new.variants = product.variants.set index (product.variants[index].changed changes) := by
  have hok := called_ok h
  simp only [Product.updateVariant, run_bind, run_get] at hok
  cases hfound : product.variantIndex? variantId with
  | none => simp [hfound] at hok
  | some index =>
    obtain ⟨hindex, hid⟩ := variantIndex?_some hfound
    refine ⟨index, hindex, hid, ?_⟩
    simp only [hfound, run_bind, run_ofExcept, List.getElem?_eq_getElem hindex] at hok
    cases hfits : product.assertFits changes.sku changes.selection changes.price.currency
        (some variantId) with
    | error e => simp [hfits] at hok
    | ok u =>
      have hothers := (assertFits_ok.mp hfits).1
      constructor
      · intro v hv hne
        apply hothers.currency
        rw [Product.otherVariants, List.mem_filter, decide_eq_true_eq]
        exact ⟨hv, fun he => hne (Option.some.inj he)⟩
      · cases hvalid : assertValidAttributes changes.price changes.attributes with
        | error e => simp [hfits, Product.onVariant, Variant.apply, hvalid] at hok
        | ok u =>
          simp only [hfits, Product.onVariant, Variant.apply, hvalid, run_bind, run_ofExcept,
            run_modify] at hok
          cases hok
          rfl

/-- What is saved is in the currency that was read, unless the only variant was repriced. -/
structure Carried (change : Change) (read new : Product) : Prop where
  one : OneCurrency new.variants
  empty : new.variants = [] → read.variants = []
  currency : (change.reprices read = false ∧
      ∀ v ∈ new.variants, ∀ w ∈ read.variants, v.price.currency = w.price.currency) ∨
    ∃ v, new.variants = [v] ∧ read.variants.length = 1 ∧
      (change.reprices read = true ↔ ∀ w ∈ read.variants, w.price.currency ≠ v.price.currency)

theorem carried_of_same (hreprices : change.reprices product = false)
    (hone : OneCurrency product.variants) (hempty : new.variants = [] → product.variants = [])
    (hsame : ∀ v ∈ new.variants, ∃ w ∈ product.variants, v.price.currency = w.price.currency) :
    Carried change product new := by
  refine ⟨?_, hempty, .inl ⟨hreprices, ?_⟩⟩
  · intro v hv w hw
    obtain ⟨v', hv', hv⟩ := hsame v hv
    obtain ⟨w', hw', hw⟩ := hsame w hw
    rw [hv, hw]
    exact hone v' hv' w' hw'
  · intro v hv w hw
    obtain ⟨v', hv', hv⟩ := hsame v hv
    rw [hv]
    exact hone v' hv' w hw

theorem carried_addVariant (hreprices : change.reprices product = false)
    (h : called (Product.addVariant variant occurrence) product = .ok new) :
    Carried change product new := by
  obtain ⟨hcurrency, hvariants⟩ := addVariant_ok h
  refine ⟨?_, ?_, .inl ⟨hreprices, ?_⟩⟩
  · rw [hvariants]
    intro v hv w hw
    have hprice : ∀ x ∈ product.variants ++ [variant], x.price.currency = variant.price.currency := by
      intro x hx
      rcases List.mem_append.mp hx with hx | hx
      · exact hcurrency x hx
      · rw [List.mem_singleton.mp hx]
    rw [hprice v hv, hprice w hw]
  · intro hnil
    rw [hvariants] at hnil
    simp at hnil
  · intro v hv w hw
    rw [hvariants] at hv
    rw [hcurrency w hw]
    rcases List.mem_append.mp hv with hv | hv
    · exact hcurrency v hv
    · rw [List.mem_singleton.mp hv]

theorem carried_removeVariant (hreprices : change.reprices product = false)
    (hone : OneCurrency product.variants)
    (h : called (Product.removeVariant variantId occurrence) product = .ok new) :
    Carried change product new := by
  obtain ⟨hlength, index, hvariants⟩ := removeVariant_ok h
  apply carried_of_same hreprices hone
  · intro hnil
    have hshort := congrArg List.length hnil
    rw [hvariants, List.length_eraseIdx, List.length_nil] at hshort
    split at hshort <;> omega
  · intro v hv
    rw [hvariants] at hv
    exact ⟨v, List.mem_of_mem_eraseIdx hv, rfl⟩

theorem currency_of_others (hids : (product.variants.map (·.id)).Nodup)
    (hone : OneCurrency product.variants) {index : ℕ} (hindex : index < product.variants.length)
    (hid : product.variants[index].id.value = variantId)
    (hothers : ∀ v ∈ product.variants, v.id.value ≠ variantId → v.price.currency = currency)
    (hmany : product.variants.length ≠ 1) : ∀ v ∈ product.variants, v.price.currency = currency := by
  obtain ⟨other, hother, hne⟩ : ∃ other, ∃ h : other < product.variants.length, other ≠ index := by
    by_cases hzero : index = 0
    · exact ⟨1, by omega, by omega⟩
    · exact ⟨0, by omega, fun he => hzero he.symm⟩
  have hotherId : product.variants[other].id.value ≠ variantId := by
    intro he
    have hsame : product.variants[other].id = product.variants[index].id := by
      have hvalue := he.trans hid.symm
      cases hother : product.variants[other].id
      cases hindexed : product.variants[index].id
      rw [hother, hindexed] at hvalue
      cases hvalue
      rfl
    apply hne
    have hinj := List.nodup_iff_injective_get.mp hids
    have hget : (product.variants.map (·.id)).get ⟨other, by simpa using hother⟩ =
        (product.variants.map (·.id)).get ⟨index, by simpa using hindex⟩ := by
      simpa using hsame
    simpa using hinj hget
  intro v hv
  rw [hone v hv _ (List.getElem_mem hother)]
  exact hothers _ (List.getElem_mem hother) hotherId

theorem carried_updateVariant {sku : Sku} {price : Money} {selection : Option VariantSelection}
    {attributes : VariantAttributes} {input : VariantAttributesInput}
    {selectionInput : Option (Option (OrderedMap String String))}
    (hids : (product.variants.map (·.id)).Nodup) (hone : OneCurrency product.variants)
    (h : called (Product.updateVariant variantId ⟨sku, price, selection, attributes⟩ occurrence)
      product = .ok new) :
    Carried (.updateVariant variantId sku price input selectionInput) product new := by
  obtain ⟨index, hindex, hid, hothers, hvariants⟩ := updateVariant_ok h
  by_cases hsingle : product.variants.length = 1
  · obtain ⟨w, hw⟩ := List.length_eq_one_iff.mp hsingle
    have hzero : index = 0 := by omega
    have hnew : new.variants =
        [product.variants[index].changed ⟨sku, price, selection, attributes⟩] := by
      rw [hvariants]
      simp [hw, hzero]
    refine ⟨?_, ?_, .inr ⟨_, hnew, hsingle, ?_⟩⟩
    · rw [hnew]
      intro v hv v' hv'
      rw [List.mem_singleton.mp hv, List.mem_singleton.mp hv']
    · intro hnil
      rw [hnew] at hnil
      cases hnil
    · simp [Change.reprices, hsingle, Variant.changed]
  · have hall := currency_of_others hids hone hindex hid hothers hsingle
    apply carried_of_same (by simp [Change.reprices, hsingle]) hone
    · intro hnil
      rw [hvariants, List.set_eq_nil_iff] at hnil
      exact hnil
    · intro v hv
      rw [hvariants] at hv
      rcases List.mem_or_eq_of_mem_set hv with hv | rfl
      · exact ⟨v, hv, rfl⟩
      · refine ⟨product.variants[index], List.getElem_mem hindex, ?_⟩
        rw [hall _ (List.getElem_mem hindex)]
        rfl

theorem apply_carried (hids : (product.variants.map (·.id)).Nodup)
    (hone : OneCurrency product.variants)
    (h : change.apply ops draw product = .ok (new, output)) : Carried change product new := by
  cases change with
  | addVariant sku price attributes selection =>
    simp only [Change.apply, bind_eq_ok] at h
    obtain ⟨variant, _, product', hcalled, h⟩ := h
    cases h
    exact carried_addVariant rfl hcalled
  | updateVariant variantId sku price input selection =>
    simp only [Change.apply] at h
    split at h
    · cases h
    · obtain ⟨attributes, _, h⟩ := bind_eq_ok.mp h
      split at h
      all_goals
        obtain ⟨selection, _, h⟩ := bind_eq_ok.mp h
        obtain ⟨product', hcalled, h⟩ := bind_eq_ok.mp h
        cases h
        exact carried_updateVariant hids hone hcalled
  | removeVariant variantId =>
    simp only [Change.apply, bind_eq_ok] at h
    obtain ⟨product', hcalled, h⟩ := h
    cases h
    exact carried_removeVariant rfl hone hcalled
  | update name slug description productType tags =>
    simp only [Change.apply, bind_eq_ok] at h
    obtain ⟨details, _, product', hupdate, product'', hdetails, h⟩ := h
    cases h
    have hsame : new.variants = product.variants := by
      have hu := called_ok hupdate
      have hd := called_ok hdetails
      simp only [Product.update, run_bind, run_modify] at hu
      simp only [Product.setDetails, run_modify] at hd
      cases hu
      cases hd
      rfl
    apply carried_of_same rfl hone
    · rw [hsame]
      exact id
    · intro v hv
      rw [hsame] at hv
      exact ⟨v, hv, rfl⟩

end Changes

def OneCurrencyEach (rows : List VariantRow) : Prop :=
  ∀ a ∈ rows, ∀ b ∈ rows, a.productId = b.productId →
    a.variant.price.currency = b.variant.price.currency

/-- Besides, no id is stored twice. -/
structure Kept (rows : List VariantRow) : Prop where
  ids : (rows.map (·.variant.id)).Nodup
  currency : OneCurrencyEach rows

section Rows

variable {rows rows' : List VariantRow} {productId : UniqueEntityId} {variant : Variant}
  {variants : List Variant} {product : Product} {currency : CurrencyCode}
  {found : List UniqueEntityId} {row : VariantRow}

theorem mem_variantsOf {id : String} : variant ∈ variantsOf rows id ↔
    ∃ row ∈ rows, row.productId.value = id ∧ row.variant = variant := by
  simp [variantsOf, and_assoc]

theorem Kept.variantsOf (h : Kept rows) (id : String) :
    OneCurrency (variantsOf rows id) ∧ ((variantsOf rows id).map (·.id)).Nodup := by
  constructor
  · intro v hv w hw
    obtain ⟨a, ha, haid, rfl⟩ := mem_variantsOf.mp hv
    obtain ⟨b, hb, hbid, rfl⟩ := mem_variantsOf.mp hw
    apply h.currency a ha b hb
    cases hx : a.productId
    cases hy : b.productId
    rw [hx] at haid
    rw [hy] at hbid
    subst haid
    cases hbid
    rfl
  · rw [CatalogStorage.variantsOf, List.map_map]
    exact (List.filter_sublist.map _).nodup h.ids

/-- A variant that is written takes the place of the row with its id, if there is one. -/
theorem writeVariant_some (h : writeVariant productId rows variant = some rows') :
    ((rows.map (·.variant.id)).Nodup → (rows'.map (·.variant.id)).Nodup) ∧
      ∀ row ∈ rows', row = ⟨productId, variant⟩ ∨ row ∈ rows ∧ row.variant.id ≠ variant.id := by
  rw [writeVariant] at h
  split at h
  · cases h
  · split at h
    · cases h
      constructor
      · intro hids
        have hsame : (rows.map fun row => if row.variant.id = variant.id then
            (⟨productId, variant⟩ : VariantRow) else row).map (·.variant.id) =
              rows.map (·.variant.id) := by
          rw [List.map_map]
          apply List.map_congr_left
          intro row _
          by_cases he : row.variant.id = variant.id
          · simp [he]
          · simp [he]
        rw [hsame]
        exact hids
      · intro row hrow
        obtain ⟨old, hold, rfl⟩ := List.mem_map.mp hrow
        by_cases he : old.variant.id = variant.id
        · exact .inl (if_pos he)
        · rw [if_neg he]
          exact .inr ⟨hold, he⟩
    · rename_i hfresh
      cases h
      have hnone : ∀ row ∈ rows, row.variant.id ≠ variant.id := by
        intro row hrow he
        exact hfresh (List.any_eq_true.mpr ⟨row, hrow, beq_iff_eq.mpr he⟩)
      constructor
      · intro hids
        rw [List.map_append, List.nodup_append]
        refine ⟨hids, List.nodup_singleton _, ?_⟩
        intro id hid id' hid' he
        obtain ⟨row, hrow, rfl⟩ := List.mem_map.mp hid
        rw [List.map_singleton, List.mem_singleton] at hid'
        exact hnone row hrow (he.trans hid')
      · intro row hrow
        rcases List.mem_append.mp hrow with hrow | hrow
        · exact .inr ⟨hrow, hnone row hrow⟩
        · exact .inl (List.mem_singleton.mp hrow)

theorem writeAll_some (h : variants.foldlM (writeVariant productId) rows = some rows') :
    ((rows.map (·.variant.id)).Nodup → (rows'.map (·.variant.id)).Nodup) ∧
      ∀ row ∈ rows', (row.productId = productId ∧ row.variant ∈ variants) ∨
        row ∈ rows ∧ ∀ v ∈ variants, row.variant.id ≠ v.id := by
  induction variants generalizing rows with
  | nil =>
    cases h
    refine ⟨id, ?_⟩
    intro row hrow
    exact .inr ⟨hrow, by simp⟩
  | cons v rest ih =>
    rw [List.foldlM_cons] at h
    obtain ⟨mid, hmid, hrest⟩ := Option.bind_eq_some_iff.mp h
    obtain ⟨hids, hwritten⟩ := writeVariant_some hmid
    obtain ⟨hids', hwritten'⟩ := ih hrest
    refine ⟨fun hnodup => hids' (hids hnodup), ?_⟩
    intro row hrow
    rcases hwritten' row hrow with ⟨hproduct, hmem⟩ | ⟨hmem, hne⟩
    · exact .inl ⟨hproduct, List.mem_cons_of_mem _ hmem⟩
    · rcases hwritten row hmem with rfl | ⟨hold, hother⟩
      · exact .inl ⟨rfl, List.mem_cons_self⟩
      · refine .inr ⟨hold, ?_⟩
        intro w hw
        rcases List.mem_cons.mp hw with rfl | hw
        · exact hother
        · exact hne w hw

theorem writeVariants_some (h : writeVariants rows product = some rows') :
    ((rows.map (·.variant.id)).Nodup → (rows'.map (·.variant.id)).Nodup) ∧
      ∀ row ∈ rows', (row.productId = product.id ∧ row.variant ∈ product.variants) ∨
        row ∈ rows ∧ row.productId ≠ product.id := by
  obtain ⟨hids, hwritten⟩ := writeAll_some h
  constructor
  · intro hnodup
    exact hids ((List.filter_sublist.map _).nodup hnodup)
  · intro row hrow
    rcases hwritten row hrow with hnew | ⟨hold, hne⟩
    · exact .inl hnew
    · obtain ⟨hmem, hkeep⟩ := List.mem_filter.mp hold
      refine .inr ⟨hmem, ?_⟩
      intro he
      have hgone : (product.variants.any fun v => v.id == row.variant.id) = false := by
        rw [List.any_eq_false]
        intro v hv hid
        exact hne v hv (beq_iff_eq.mp hid).symm
      simp [he, hgone] at hkeep

theorem Kept.writeVariants (hk : Kept rows) (hone : OneCurrency product.variants)
    (h : writeVariants rows product = some rows') : Kept rows' := by
  obtain ⟨hids, hwritten⟩ := writeVariants_some h
  refine ⟨hids hk.ids, ?_⟩
  intro a ha b hb hab
  rcases hwritten a ha with ⟨hap, hav⟩ | ⟨haold, hap⟩
  · rcases hwritten b hb with ⟨_, hbv⟩ | ⟨_, hbp⟩
    · exact hone _ hav _ hbv
    · exact absurd (hab.symm.trans hap) hbp
  · rcases hwritten b hb with ⟨hbp, _⟩ | ⟨hbold, _⟩
    · exact absurd (hab.trans hbp) hap
    · exact hk.currency a haold b hbold hab

/-- No product has a variant that the change of the currency found and one, in another currency
as well, that it did not find. -/
def FoundTogether (rows : List VariantRow) (currency : String) (found : List UniqueEntityId) :
    Prop :=
  ∀ a ∈ rows, ∀ b ∈ rows, a.productId = b.productId → b.variant.price.currency ≠ currency →
    a.variant.id ∈ found → b.variant.id ∈ found

theorem relabelRow_id : (relabelRow currency found row).variant.id = row.variant.id ∧
    (relabelRow currency found row).productId = row.productId := by
  rw [relabelRow]
  split
  · refine ⟨?_, rfl⟩
    simp only [Variant.relabelled]
    split <;> rfl
  · exact ⟨rfl, rfl⟩

theorem relabelRow_currency : (relabelRow currency found row).variant.price.currency =
    if row.variant.id ∈ found then currency.1 else row.variant.price.currency := by
  rw [relabelRow]
  split
  · exact relabelled_currency currency.2 row.variant
  · rfl

theorem relabelRows_ids : (relabelRows rows currency found).map (·.variant.id) =
    rows.map (·.variant.id) := by
  rw [relabelRows, List.map_map]
  apply List.map_congr_left
  intro row _
  exact relabelRow_id.1

theorem relabelRows_iff (h : OneCurrencyEach rows) :
    OneCurrencyEach (relabelRows rows currency found) ↔
      FoundTogether rows currency.1 found := by
  rw [relabelRows]
  constructor
  · intro hone a ha b hb hab hcurrency hfound
    by_contra hlost
    have hsame := hone _ (List.mem_map.mpr ⟨a, ha, rfl⟩) _ (List.mem_map.mpr ⟨b, hb, rfl⟩)
      (by rw [relabelRow_id.2, relabelRow_id.2, hab])
    rw [relabelRow_currency, relabelRow_currency, if_pos hfound, if_neg hlost] at hsame
    exact hcurrency hsame.symm
  · intro hfound a' ha' b' hb' hab
    obtain ⟨a, ha, rfl⟩ := List.mem_map.mp ha'
    obtain ⟨b, hb, rfl⟩ := List.mem_map.mp hb'
    rw [relabelRow_id.2, relabelRow_id.2] at hab
    rw [relabelRow_currency, relabelRow_currency]
    have hone := h a ha b hb hab
    by_cases hc : b.variant.price.currency = currency.1
    · rw [hone, hc, ite_self, ite_self]
    · have hboth : a.variant.id ∈ found ↔ b.variant.id ∈ found := by
        constructor
        · exact hfound a ha b hb hab hc
        · apply hfound b hb a ha hab.symm
          rwa [hone]
      simp only [hboth, hone]

end Rows

variable {ι : Type}

abbrev Calls (ι : Type) := State Shared Point ι

/-- Every stored product's variants have one currency. -/
def Uniform (s : Calls ι) : Prop := OneCurrencyEach s.shared.variants

instance (s : Calls ι) : Decidable (Uniform s) :=
  inferInstanceAs (Decidable (∀ a ∈ s.shared.variants, ∀ b ∈ s.shared.variants,
    a.productId = b.productId → a.variant.price.currency = b.variant.price.currency))

/-- The currencies that the shop has been changed to since a point in time. -/
def Shared.since (s : Shared) (seen : ℕ) : List String := s.relabels.drop seen

/-- A product that was read before a change of the currency and is saved after it has no variant
that is still in the currency it was read in. -/
def PointNotLost (s : Shared) (draw : Draw) : Point → Prop
  | .saving _ read new seen _ => (save s new draw.now).isSome → ∀ currency ∈ s.since seen,
      ∀ v ∈ new.variants, v.price.currency ≠ currency →
        ∀ w ∈ read.variants, w.price.currency ≠ v.price.currency
  | _ => True

/-- A product that is saved after a change of the currency was read in that currency, or has its
only variant repriced; a change of the currency finds all variants of a product or none. -/
def PointInTime (s : Shared) (draw : Draw) : Point → Prop
  | .saving change read new seen _ => (save s new draw.now).isSome →
      ∀ currency ∈ s.since seen, (∀ w ∈ read.variants, w.price.currency = currency) ∨
        change.reprices read = true
  | .relabelling currency found => FoundTogether s.variants currency.1 found
  | _ => True

instance (rows : List VariantRow) (currency : String) (found : List UniqueEntityId) :
    Decidable (FoundTogether rows currency found) :=
  inferInstanceAs (Decidable (∀ a ∈ rows, ∀ b ∈ rows, a.productId = b.productId →
    b.variant.price.currency ≠ currency → a.variant.id ∈ found → b.variant.id ∈ found))

instance (s : Shared) (draw : Draw) : (point : Point) → Decidable (PointInTime s draw point)
  | .saving change read new seen _ => inferInstanceAs (Decidable ((save s new draw.now).isSome →
      ∀ currency ∈ s.since seen, (∀ w ∈ read.variants, w.price.currency = currency) ∨
        change.reprices read = true))
  | .relabelling currency found =>
    inferInstanceAs (Decidable (FoundTogether s.variants currency.1 found))
  | .requested _ | .finding _ _ | .loading _ _ | .creating _ | .answered _ | .thrown =>
    inferInstanceAs (Decidable True)

instance (s : Shared) (draw : Draw) : (point : Point) → Decidable (PointNotLost s draw point)
  | .saving _ read new seen _ => inferInstanceAs (Decidable ((save s new draw.now).isSome →
      ∀ currency ∈ s.since seen, ∀ v ∈ new.variants, v.price.currency ≠ currency →
        ∀ w ∈ read.variants, w.price.currency ≠ v.price.currency))
  | .requested _ | .finding _ _ | .loading _ _ | .creating _ | .relabelling _ _ | .answered _
  | .thrown => inferInstanceAs (Decidable True)

def NotLost (s : Calls ι) : Label Draw ι → Prop
  | .turn c draw => PointNotLost s.shared draw (s.processes c).point
  | .crash _ => True

def InTime (s : Calls ι) : Label Draw ι → Prop
  | .turn c draw => PointInTime s.shared draw (s.processes c).point
  | .crash _ => True

instance (s : Calls ι) : (l : Label Draw ι) → Decidable (NotLost s l)
  | .turn _ _ => inferInstanceAs (Decidable (PointNotLost _ _ _))
  | .crash _ => inferInstanceAs (Decidable True)

instance (s : Calls ι) : (l : Label Draw ι) → Decidable (InTime s l)
  | .turn _ _ => inferInstanceAs (Decidable (PointInTime _ _ _))
  | .crash _ => inferInstanceAs (Decidable True)

/-- What a call has in hand. -/
def Relies (ops : TextOps) : Point → Prop
  | .creating new => OneCurrency new.variants
  | .saving change read new _ _ => OneCurrency read.variants ∧
      (read.variants.map (·.id)).Nodup ∧
      ∃ draw output, change.apply ops draw read = .ok (new, output)
  | _ => True

section Steps

variable {ops : TextOps} {s s' : Shared} {point point' : Point} {draw : Draw}
  {change : Change} {read new : Product} {seen : ℕ} {output : Output}

theorem createProduct_one {input : CreateProductInput}
    (h : CreateProduct.product ops draw input = .ok new) : OneCurrency new.variants := by
  have hcreate : ∃ props, Product.create draw.id props draw.occurrence = .ok new := by
    simp only [CreateProduct.product, bind_eq_ok] at h
    obtain ⟨sku, _, slug, _, h⟩ := h
    by_cases hempty : input.variants = []
    · simp [hempty, throw, throwThe, MonadExceptOf.throw] at h
    · rw [if_neg hempty] at h
      by_cases hmixed : 1 < (distinctValues (input.variants.map (·.currency))).length
      · simp [hmixed, throw, throwThe, MonadExceptOf.throw] at h
      · rw [if_neg hmixed] at h
        simp only [bind_eq_ok] at h
        obtain ⟨variants, _, media, _, details, _, h⟩ := h
        exact ⟨_, h⟩
  obtain ⟨props, hprops⟩ := hcreate
  rw [Product.create] at hprops
  split at hprops
  · cases hprops
  · split at hprops
    · cases hprops
    · rename_i hcurrency
      cases hprops
      exact oneCurrency hcurrency

theorem begin_relies (request : Request) : Relies ops (begin ops draw s request) := by
  cases request with
  | create input =>
    simp only [begin]
    cases hnew : CreateProduct.product ops draw input with
    | error e => trivial
    | ok product => exact createProduct_one hnew
  | edit productId edit =>
    simp only [begin]
    cases edit.check <;> trivial
  | relabel currency =>
    simp only [begin]
    split <;> trivial

theorem load_relies (hk : Kept s.variants) (row : VersionedTable.Row ProductColumns)
    (change : Change) : Relies ops (load ops draw s row change) := by
  obtain ⟨hone, hids⟩ := hk.variantsOf row.value.id.value
  simp only [load]
  split
  · trivial
  · rename_i new output happly
    exact ⟨hone, hids, draw, output, happly⟩

theorem save_some {now : ℤ} (h : save s new now = some s') :
    writeVariants s.variants new = some s'.variants ∧ s'.relabels = s.relabels := by
  rw [save] at h
  split at h
  · cases h
  · obtain ⟨products, _, h⟩ := Option.bind_eq_some_iff.mp h
    obtain ⟨variants, hvariants, h⟩ := Option.bind_eq_some_iff.mp h
    cases h
    exact ⟨hvariants, rfl⟩

theorem settle_kept {now : ℤ} (hk : Kept s.variants) (hone : OneCurrency new.variants)
    (h : settle s new now output = (point', s')) : Kept s'.variants ∧ Relies ops point' := by
  rw [settle] at h
  split at h
  · cases h
    exact ⟨hk, trivial⟩
  · rename_i hsave
    cases h
    exact ⟨hk.writeVariants hone (save_some hsave).1, trivial⟩

theorem program_kept (hk : Kept s.variants) (hp : Relies ops point)
    (h : program ops point draw s = some (point', s'))
    (hfound : ∀ currency found, point = .relabelling currency found →
      FoundTogether s.variants currency.1 found) : Kept s'.variants ∧ Relies ops point' := by
  cases point with
  | requested request =>
    cases h
    exact ⟨hk, begin_relies request⟩
  | finding productId change =>
    simp only [program] at h
    split at h
    · cases h
      exact ⟨hk, trivial⟩
    · cases h
      exact ⟨hk, trivial⟩
  | loading row change =>
    cases h
    exact ⟨hk, load_relies hk row change⟩
  | creating new =>
    exact settle_kept hk hp (Option.some.inj h)
  | saving change read new seen output =>
    obtain ⟨hone, hids, _, _, happly⟩ := hp
    exact settle_kept hk (apply_carried hids hone happly).one (Option.some.inj h)
  | relabelling currency found =>
    cases h
    refine ⟨⟨?_, ?_⟩, trivial⟩
    · rw [relabelRows_ids]
      exact hk.ids
    · exact (relabelRows_iff hk.currency).mpr (hfound currency found rfl)
  | answered | thrown => cases h

theorem carried_iff {currency : String} (hc : Carried change read new) :
    ((∀ w ∈ read.variants, w.price.currency = currency) ∨ change.reprices read = true) ↔
      ∀ v ∈ new.variants, v.price.currency ≠ currency →
        ∀ w ∈ read.variants, w.price.currency ≠ v.price.currency := by
  rcases hc.currency with ⟨hreprices, hsame⟩ | ⟨v, hnew, hsingle, hreprices⟩
  · constructor
    · rintro (hread | hpriced)
      · intro v hv hne w hw
        exact absurd ((hsame v hv w hw).trans (hread w hw)) hne
      · rw [hreprices] at hpriced
        cases hpriced
    · intro h
      left
      intro w hw
      have hnonempty : new.variants ≠ [] := by
        intro hnil
        rw [hc.empty hnil] at hw
        cases hw
      obtain ⟨v, hv⟩ := List.exists_mem_of_ne_nil _ hnonempty
      by_contra hne
      rw [← hsame v hv w hw] at hne
      exact h v hv hne w hw (hsame v hv w hw).symm
  · rw [hnew, hreprices]
    obtain ⟨w, hw⟩ := List.length_eq_one_iff.mp hsingle
    simp only [hw, List.mem_singleton, forall_eq]
    constructor
    · rintro (hread | hne)
      · intro hcurrency he
        exact hcurrency (he.symm.trans hread)
      · intro _
        exact hne
    · intro h
      by_cases he : v.price.currency = currency
      · by_cases hw : w.price.currency = currency
        · exact .inl hw
        · right
          rwa [he]
      · exact .inr (h he)

end Steps

section Runs

variable {ops : TextOps} [DecidableEq ι] {s u : Calls ι} {l : Label Draw ι}

def Sound (ops : TextOps) (s : Calls ι) : Prop :=
  Holds (fun s => Kept s.variants) (fun _ => Relies ops) s

theorem sound_step (h : Sound ops s) (hst : Step (program ops) s l u) (htime : InTime s l) :
    Sound ops u := by
  cases step_move hst with
  | @turn c point draw point' s' hc hturn =>
    apply Holds.turn h hc
    intro hk hp
    have hfound : ∀ currency found, point = .relabelling currency found →
        FoundTogether s.shared.variants currency.1 found := by
      rintro currency found rfl
      simp only [InTime, hc] at htime
      exact htime
    obtain ⟨hk', hp'⟩ := program_kept hk hp hturn hfound
    exact ⟨hk', hp', fun _ hother => hother⟩
  | crash hc => exact Holds.crash h hc

omit [DecidableEq ι] in
theorem notLost_of_inTime (h : Sound ops s) (htime : InTime s l) : NotLost s l := by
  cases l with
  | turn c draw =>
    have hp := h.points c
    simp only [InTime, NotLost] at htime ⊢
    generalize (s.processes c).point = point at hp htime
    cases point with
    | saving change read new seen output =>
      obtain ⟨hone, hids, _, _, happly⟩ := hp
      intro hsaved currency hcurrency
      exact (carried_iff (apply_carried hids hone happly)).mp (htime hsaved currency hcurrency)
    | _ => trivial
  | crash c => trivial

theorem broken_step (h : Sound ops s) (hst : Step (program ops) s l u) (htime : ¬ InTime s l)
    (hlost : NotLost s l) : ¬ Uniform u := by
  cases step_move hst with
  | @turn c point draw point' s' hc hturn =>
    have hp := h.points c
    simp only [InTime, NotLost, hc, Process.point] at htime hlost hp
    cases point with
    | saving change read new seen output =>
      obtain ⟨hone, hids, _, _, happly⟩ := hp
      refine absurd ?_ htime
      intro hsaved currency hcurrency
      exact (carried_iff (apply_carried hids hone happly)).mpr (hlost hsaved currency hcurrency)
    | relabelling currency found =>
      cases hturn
      intro huniform
      exact htime ((relabelRows_iff h.shared.currency).mp huniform)
    | requested | finding | loading | creating | answered | thrown => exact absurd trivial htime
  | crash => exact absurd trivial htime

omit [DecidableEq ι] in
theorem sound_initial (requests : ι → Request) : Sound ops (initial requests) := by
  refine ⟨⟨?_, ?_⟩, fun _ => trivial⟩
  · exact List.nodup_nil
  · rintro _ ⟨⟩

/-- No change of the currency is lost, and each product's variants keep one currency, exactly when
every save and every change of the currency comes in time. -/
theorem run_uniform (ops : TextOps) (requests : ι → Request)
    {tr : List (Label Draw ι × Calls ι)} (hr : Run (Step (program ops)) (initial requests) tr) :
    Always Uniform (initial requests) tr ∧ EveryStep NotLost (initial requests) tr ↔
      EveryStep InTime (initial requests) tr := by
  refine always_and_everyStep_iff (I := Sound ops) ?_ ?_ ?_ ?_ (sound_initial requests) hr
  · intro s l u h hst htime
    exact sound_step h hst htime
  · intro s h
    exact h.shared.currency
  · intro s l h htime
    exact notLost_of_inTime h htime
  · intro s l u h hst htime hlost
    exact broken_step h hst htime hlost

end Runs

/-! A product in dollars, in a shop that changes to euros. -/

def unnamed : VariantAttributesInput := ⟨none, none, none, none, none, none, none, none⟩

def tea : ℕ → Request
  | 0 => .create ⟨"TEA", "Tea", "tea", [⟨"TEA-1", 1000, "USD", unnamed⟩], [], none, none, []⟩
  | 1 => .relabel "EUR"
  | 2 => .edit "id-1" (.update "Green tea" "tea" none none none)
  | 3 => .edit "id-1" (.addVariant ⟨"TEA-2", 1200, "USD", unnamed⟩ none)
  | _ => .edit "id-1" (.addVariant ⟨"TEA-2", 1200, "EUR", unnamed⟩ none)

theorem id_notEmpty : isBlank "id-1" = false := by decide

theorem variantId_notEmpty : isBlank "variant-1" = false := by decide

def teaDraw : Draw :=
  ⟨⟨"id-1", id_notEmpty⟩, fun _ => ⟨"variant-1", variantId_notEmpty⟩, "event-1", 0⟩

def plainText : TextOps := ⟨id, id, fun _ _ => 0⟩

/-- The product is created, and then the calls take turns in this order. -/
def teaRun (turns : List ℕ) : List (Label Draw ℕ × Calls ℕ) :=
  attempt (next (program plainText)) (initial tea) ((0 :: 0 :: turns).map (.turn · teaDraw))

theorem teaRun_run (turns : List ℕ) : Run (Step (program plainText)) (initial tea) (teaRun turns) :=
  run_attempt _ _ _

/-- What is read after the change of the currency may be saved. -/
theorem run_uniform_tea : Always Uniform (initial tea) (teaRun [1, 1, 2, 2, 2, 2, 4, 4, 4, 4]) ∧
    EveryStep NotLost (initial tea) (teaRun [1, 1, 2, 2, 2, 2, 4, 4, 4, 4]) := by
  refine (run_uniform plainText tea (teaRun_run _)).mpr ?_
  decide +kernel

/-- An update that has read the product before the change saves it in dollars; a variant that is
added while the change is under way stays in dollars beside the one in euros. -/
theorem currency_fails :
    (¬ ∀ (requests : ℕ → Request) (tr : List (Label Draw ℕ × Calls ℕ)),
      Run (Step (program plainText)) (initial requests) tr →
        EveryStep NotLost (initial requests) tr) ∧
    ¬ ∀ (requests : ℕ → Request) (tr : List (Label Draw ℕ × Calls ℕ)),
      Run (Step (program plainText)) (initial requests) tr →
        Always Uniform (initial requests) tr := by
  constructor
  · intro hclaim
    have hnotLost := hclaim tea _ (teaRun_run [2, 2, 2, 1, 1, 2])
    revert hnotLost
    decide +kernel
  · intro hclaim
    have huniform := (hclaim tea _ (teaRun_run [3, 3, 3, 1, 3, 1])).last
    revert huniform
    decide +kernel

end CatalogStorage
