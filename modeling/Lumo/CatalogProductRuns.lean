import Lumo.CatalogProduct
import Lumo.LabelledRuns

/-! # The representation invariant of a product

Which calls of a product's methods keep its variants, options and media consistent, and which
do not. -/
namespace Catalog

open SharedKernel Builtins Methods LabelledRuns

/-- No two variants share a SKU or a selection, selections name declared values, prices are in one
currency, and images are attached. -/
structure Matrix (options : List ProductOption) (assetIds : List String)
    (variants : List Variant) : Prop where
  skus : (variants.map (·.sku.value)).Nodup
  selections : variants.Pairwise fun v w =>
    ∀ s t, v.selection = some s → w.selection = some t → ¬ s.Matches t
  declared : ∀ v ∈ variants, ∀ s, v.selection = some s →
    ∀ entry ∈ s.values.entries, declares options entry.1 entry.2 = true
  currency : ∀ v ∈ variants, ∀ w ∈ variants, v.price.currency = w.price.currency
  images : ∀ v ∈ variants, ∀ assetId, v.mediaRef = some assetId → assetId ∈ assetIds

/-- What a product promises of itself. -/
structure Represented (product : Product) : Prop where
  variants : product.variants ≠ []
  matrix : Matrix product.options product.assetIds product.variants
  media : product.assetIds.Nodup

section Matrices

variable {options : List ProductOption} {assetIds : List String} {variants : List Variant}
  {variant : Variant}

/-- No SKU and no selection of the others is the variant's, and the currency is theirs. -/
structure Apart (variants : List Variant) (sku : Sku) (selection : Option VariantSelection)
    (currency : String) : Prop where
  sku : ∀ v ∈ variants, v.sku.value ≠ sku.value
  selection : ∀ v ∈ variants, ∀ s t, v.selection = some s → selection = some t → ¬ s.Matches t
  currency : ∀ v ∈ variants, v.price.currency = currency

def Declared (options : List ProductOption) (selection : Option VariantSelection) : Prop :=
  ∀ s, selection = some s → ∀ entry ∈ s.values.entries, declares options entry.1 entry.2 = true

theorem matrix_cons : Matrix options assetIds (variant :: variants) ↔
    Matrix options assetIds variants ∧
      Apart variants variant.sku variant.selection variant.price.currency ∧
      Declared options variant.selection ∧
      ∀ assetId, variant.mediaRef = some assetId → assetId ∈ assetIds := by
  constructor
  · rintro ⟨hskus, hselections, hdeclared, hcurrency, himages⟩
    rw [List.map_cons, List.nodup_cons] at hskus
    rw [List.pairwise_cons] at hselections
    refine ⟨⟨hskus.2, hselections.2, ?_, ?_, ?_⟩, ⟨?_, ?_, ?_⟩, ?_, ?_⟩
    · exact fun v hv => hdeclared v (List.mem_cons_of_mem _ hv)
    · exact fun v hv w hw =>
        hcurrency v (List.mem_cons_of_mem _ hv) w (List.mem_cons_of_mem _ hw)
    · exact fun v hv => himages v (List.mem_cons_of_mem _ hv)
    · intro v hv he
      exact hskus.1 (he ▸ List.mem_map.mpr ⟨v, hv, rfl⟩)
    · intro v hv s t hs ht hmatch
      exact hselections.1 v hv t s ht hs hmatch.symm
    · exact fun v hv => hcurrency v (List.mem_cons_of_mem _ hv) variant List.mem_cons_self
    · exact hdeclared variant List.mem_cons_self
    · exact himages variant List.mem_cons_self
  · rintro ⟨⟨hskus, hselections, hdeclared, hcurrency, himages⟩, hapart, hnew, himage⟩
    refine ⟨?_, ?_, ?_, ?_, ?_⟩
    · rw [List.map_cons, List.nodup_cons]
      refine ⟨fun hmem => ?_, hskus⟩
      obtain ⟨v, hv, he⟩ := List.mem_map.mp hmem
      exact hapart.sku v hv he
    · rw [List.pairwise_cons]
      exact ⟨fun v hv s t hs ht hmatch => hapart.selection v hv t s ht hs hmatch.symm, hselections⟩
    · intro v hv
      rcases List.mem_cons.mp hv with rfl | hv
      · exact hnew
      · exact hdeclared v hv
    · intro v hv w hw
      rcases List.mem_cons.mp hv with rfl | hold
      · rcases List.mem_cons.mp hw with rfl | hold
        · rfl
        · exact (hapart.currency w hold).symm
      · rcases List.mem_cons.mp hw with rfl | hold'
        · exact hapart.currency v hold
        · exact hcurrency v hold w hold'
    · intro v hv
      rcases List.mem_cons.mp hv with rfl | hv
      · exact himage
      · exact himages v hv

variable {variants' : List Variant}

theorem Matrix.perm (h : Matrix options assetIds variants) (hp : variants.Perm variants') :
    Matrix options assetIds variants' where
  skus := (hp.map _).nodup_iff.mp h.skus
  selections := (hp.pairwise_iff fun hvw s t hs ht hmatch =>
    hvw t s ht hs hmatch.symm).mp h.selections
  declared v hv := h.declared v (hp.mem_iff.mpr hv)
  currency v hv w hw := h.currency v (hp.mem_iff.mpr hv) w (hp.mem_iff.mpr hw)
  images v hv := h.images v (hp.mem_iff.mpr hv)

theorem Matrix.sublist (h : Matrix options assetIds variants) (hs : variants'.Sublist variants) :
    Matrix options assetIds variants' where
  skus := (hs.map _).nodup h.skus
  selections := h.selections.sublist hs
  declared v hv := h.declared v (hs.subset hv)
  currency v hv w hw := h.currency v (hs.subset hv) w (hs.subset hw)
  images v hv := h.images v (hs.subset hv)

theorem Matrix.of_perm_iff (hp : variants.Perm variants') :
    Matrix options assetIds variants ↔ Matrix options assetIds variants' :=
  ⟨fun h => h.perm hp, fun h => h.perm hp.symm⟩

variable (variant) in
theorem matrix_set {index : ℕ} (h : Matrix options assetIds variants)
    (hindex : index < variants.length) : Matrix options assetIds (variants.set index variant) ↔
      Apart (variants.eraseIdx index) variant.sku variant.selection variant.price.currency ∧
      Declared options variant.selection ∧
      ∀ assetId, variant.mediaRef = some assetId → assetId ∈ assetIds := by
  rw [Matrix.of_perm_iff (List.set_perm_cons_eraseIdx hindex variant), matrix_cons]
  exact and_iff_right (h.sublist (List.eraseIdx_sublist variants index))

variable (variant) in
theorem matrix_append (h : Matrix options assetIds variants) :
    Matrix options assetIds (variants ++ [variant]) ↔
      Apart variants variant.sku variant.selection variant.price.currency ∧
      Declared options variant.selection ∧
      ∀ assetId, variant.mediaRef = some assetId → assetId ∈ assetIds := by
  rw [Matrix.of_perm_iff (List.perm_append_singleton variant variants), matrix_cons]
  exact and_iff_right h

theorem Matrix.map {f : Variant → Variant} {assetIds' : List String}
    (h : Matrix options assetIds variants) (hsku : ∀ v ∈ variants, (f v).sku = v.sku)
    (hselection : ∀ v ∈ variants, (f v).selection = v.selection)
    (hcurrency : ∀ v ∈ variants, ∀ w ∈ variants, (f v).price.currency = (f w).price.currency)
    (himages : ∀ v ∈ variants, ∀ assetId, (f v).mediaRef = some assetId → assetId ∈ assetIds') :
    Matrix options assetIds' (variants.map f) where
  skus := by
    have hsame : (variants.map f).map (·.sku.value) = variants.map (·.sku.value) := by
      rw [List.map_map]
      exact List.map_congr_left fun v hv => congrArg Sku.value (hsku v hv)
    rw [hsame]
    exact h.skus
  selections := by
    rw [List.pairwise_map]
    refine List.Pairwise.imp_of_mem ?_ h.selections
    intro v w hv hw hvw s t hs ht
    exact hvw s t (hselection v hv ▸ hs) (hselection w hw ▸ ht)
  declared := by
    intro w hw s hs
    obtain ⟨v, hv, rfl⟩ := List.mem_map.mp hw
    exact h.declared v hv s (hselection v hv ▸ hs)
  currency := by
    intro v' hv' w' hw'
    obtain ⟨v, hv, rfl⟩ := List.mem_map.mp hv'
    obtain ⟨w, hw, rfl⟩ := List.mem_map.mp hw'
    exact hcurrency v hv w hw
  images := by
    intro w hw assetId
    obtain ⟨v, hv, rfl⟩ := List.mem_map.mp hw
    exact himages v hv assetId

end Matrices

section Checks

variable {product : Product} {options : List ProductOption} {sku : Sku}
  {selection : Option VariantSelection} {currency : String} {exceptVariantId : Option String}

variable {s : VariantSelection}

theorem undeclared?_eq_none : undeclared? options s = none ↔
    ∀ entry ∈ s.values.entries, declares options entry.1 entry.2 = true := by
  simp [undeclared?]

theorem assertSelectionAllowed_ok :
    product.assertSelectionAllowed s exceptVariantId = .ok () ↔
      (∀ entry ∈ s.values.entries, declares product.options entry.1 entry.2 = true) ∧
      ∀ v ∈ product.otherVariants exceptVariantId, ∀ t, v.selection = some t → ¬ t.Matches s := by
  rw [Product.assertSelectionAllowed, ← undeclared?_eq_none]
  cases h : undeclared? product.options s with
  | some entry => simp
  | none =>
    simp only [List.any_eq_true, Option.any_eq_true, decide_eq_true_eq, true_and]
    split
    · rename_i hheld
      obtain ⟨v, hv, t, ht, hmatch⟩ := hheld
      simp only [reduceCtorEq, false_iff]
      exact fun hfree => hfree v hv t ht hmatch
    · rename_i hfree
      exact iff_of_true rfl fun v hv t ht hmatch => hfree ⟨v, hv, t, ht, hmatch⟩

theorem assertSameCurrency_ok :
    product.assertSameCurrency currency exceptVariantId = .ok () ↔
      ∀ v ∈ product.otherVariants exceptVariantId, v.price.currency = currency := by
  rw [Product.assertSameCurrency]
  split
  · rename_i hother
    obtain ⟨v, hv, hne⟩ := List.any_eq_true.mp hother
    simp only [reduceCtorEq, false_iff]
    exact fun hall => (bne_iff_ne.mp hne) (hall v hv)
  · rename_i hall
    refine iff_of_true rfl fun v hv => ?_
    by_contra hne
    exact hall (List.any_eq_true.mpr ⟨v, hv, bne_iff_ne.mpr hne⟩)

theorem assertFits_ok : product.assertFits sku selection currency exceptVariantId = .ok () ↔
    Apart (product.otherVariants exceptVariantId) sku selection currency ∧
      Declared product.options selection := by
  have hskus : ((product.otherVariants exceptVariantId).any fun v => v.sku.value == sku.value) =
      true ↔ ¬ ∀ v ∈ product.otherVariants exceptVariantId, v.sku.value ≠ sku.value := by
    simp
  constructor
  · intro h
    by_cases htaken :
        ((product.otherVariants exceptVariantId).any fun v => v.sku.value == sku.value) = true
    · rw [Product.assertFits, if_pos htaken] at h
      cases h
    · have hsku := not_not.mp fun hn => htaken (hskus.mpr hn)
      cases selection with
      | none =>
        simp only [Product.assertFits, htaken] at h
        refine ⟨⟨hsku, ?_, assertSameCurrency_ok.mp h⟩, ?_⟩
        · rintro v hv t s' ht ⟨⟩
        · rintro s' ⟨⟩
      | some s =>
        simp only [Product.assertFits, htaken] at h
        obtain ⟨_, hselection, hcurrency⟩ := bind_eq_ok.mp h
        obtain ⟨hdeclared, hfree⟩ := assertSelectionAllowed_ok.mp hselection
        refine ⟨⟨hsku, ?_, assertSameCurrency_ok.mp hcurrency⟩, ?_⟩
        · rintro v hv t s' ht ⟨⟩
          exact hfree v hv t ht
        · rintro s' ⟨⟩
          exact hdeclared
  · rintro ⟨⟨hsku, hselection, hcurrency⟩, hdeclared⟩
    have hfree := (not_congr hskus).mpr (not_not.mpr hsku)
    have hsame := assertSameCurrency_ok.mpr hcurrency
    cases selection with
    | none => simp [Product.assertFits, hfree, hsame]
    | some s =>
      have hallowed := assertSelectionAllowed_ok.mpr
        ⟨hdeclared s rfl, fun v hv t ht => hselection v hv t s ht rfl⟩
      simp [Product.assertFits, hfree, hallowed, hsame]

end Checks

/-- A call of a method, with its arguments. -/
inductive Call where
  | addVariant (variant : Variant) (occurrence : Occurrence)
  | removeVariant (variantId : String) (occurrence : Occurrence)
  | updateVariant (variantId : String) (changes : VariantChanges) (occurrence : Occurrence)
  | setOptions (options : List ProductOption)
  | relabelCurrency (currency : String)
  | attachMedia (media : MediaRef) (occurrence : Occurrence)
  | detachMedia (assetId : String) (occurrence : Occurrence)
  | setVariantImage (variantId : String) (assetId : Option String) (occurrence : Occurrence)
  | reorderMedia (assetIds : List String) (occurrence : Occurrence)

/-- The product as the call leaves it, thrown out of or not. -/
def next (product : Product) : Call → Product
  | .addVariant variant occurrence => after (Product.addVariant variant occurrence) product
  | .removeVariant variantId occurrence =>
    after (Product.removeVariant variantId occurrence) product
  | .updateVariant variantId changes occurrence =>
    after (Product.updateVariant variantId changes occurrence) product
  | .setOptions options => after (Product.setOptions options) product
  | .relabelCurrency currency => after (Product.relabelCurrency currency) product
  | .attachMedia media occurrence => after (Product.attachMedia media occurrence) product
  | .detachMedia assetId occurrence => after (Product.detachMedia assetId occurrence) product
  | .setVariantImage variantId assetId occurrence =>
    after (Product.setVariantImage variantId assetId occurrence) product
  | .reorderMedia assetIds occurrence =>
    after (Product.reorderMedia assetIds occurrence) product

/-- What `create` does not ask: no SKU and no asset is named twice, no variant has a selection
before there are options, and images are among the media. -/
structure Fitting (props : NewProduct) : Prop where
  skus : (props.variants.map (·.sku.value)).Nodup
  selections : ∀ v ∈ props.variants, v.selection = none
  media : ((props.media.getD []).map (·.assetId)).Nodup
  images : ∀ v ∈ props.variants, ∀ assetId, v.mediaRef = some assetId →
    assetId ∈ (props.media.getD []).map (·.assetId)

def twins (product : Product) (variantId : String) (index : ℕ) : List Variant :=
  (product.variants.eraseIdx index).filter fun v => v.id.value == variantId

/-- What the methods do not ask: a variant that is let in shows no image that is not attached, and
one that is changed does not come into conflict with another under its own id. -/
def Allowed (product : Product) : Call → Prop
  | .addVariant variant _ =>
    product.assertFits variant.sku variant.selection variant.price.currency none = .ok () →
      ∀ assetId, variant.mediaRef = some assetId → assetId ∈ product.assetIds
  | .updateVariant variantId changes _ => ∀ index, product.variantIndex? variantId = some index →
    product.assertFits changes.sku changes.selection changes.price.currency (some variantId) =
        .ok () →
      assertValidAttributes changes.price changes.attributes = .ok () →
        Apart (twins product variantId index) changes.sku changes.selection
          changes.price.currency
  | _ => True

section Steps

variable {product : Product} {index : ℕ} {variantId : String} {variant : Variant}
  {occurrence : Occurrence}

theorem variantIndex?_some (h : product.variantIndex? variantId = some index) :
    ∃ hindex : index < product.variants.length, product.variants[index].id.value = variantId := by
  rw [Product.variantIndex?, List.findIdx?_eq_some_iff_getElem] at h
  obtain ⟨hindex, hid, _⟩ := h
  exact ⟨hindex, beq_iff_eq.mp hid⟩

theorem otherVariants_none : product.otherVariants none = product.variants := by
  simp [Product.otherVariants]

theorem mem_eraseIdx (h : product.variantIndex? variantId = some index) {v : Variant} :
    v ∈ product.variants.eraseIdx index ↔
      v ∈ product.otherVariants (some variantId) ∨ v ∈ twins product variantId index := by
  obtain ⟨hindex, hid⟩ := variantIndex?_some h
  have hperm := List.getElem_cons_eraseIdx_perm hindex
  rw [Product.otherVariants, twins, List.mem_filter, List.mem_filter, decide_eq_true_eq,
    beq_iff_eq]
  constructor
  · intro hv
    by_cases he : v.id.value = variantId
    · exact .inr ⟨hv, he⟩
    · refine .inl ⟨hperm.mem_iff.mp (List.mem_cons_of_mem _ hv), fun hsome => he ?_⟩
      exact Option.some.inj hsome
  · rintro (⟨hv, hne⟩ | ⟨hv, _⟩)
    · rcases List.mem_cons.mp (hperm.mem_iff.mpr hv) with rfl | hv
      · exact absurd (congrArg some hid) hne
      · exact hv
    · exact hv

variable {currency : String} {options : List ProductOption} {variants : List Variant}
  {ids : List String}

theorem apart_eraseIdx (h : product.variantIndex? variantId = some index) {sku : Sku}
    {selection : Option VariantSelection} :
    Apart (product.variants.eraseIdx index) sku selection currency ↔
      Apart (product.otherVariants (some variantId)) sku selection currency ∧
        Apart (twins product variantId index) sku selection currency := by
  constructor
  · rintro ⟨hsku, hselection, hcurrency⟩
    constructor
    · exact ⟨fun v hv => hsku v ((mem_eraseIdx h).mpr (.inl hv)),
        fun v hv => hselection v ((mem_eraseIdx h).mpr (.inl hv)),
        fun v hv => hcurrency v ((mem_eraseIdx h).mpr (.inl hv))⟩
    · exact ⟨fun v hv => hsku v ((mem_eraseIdx h).mpr (.inr hv)),
        fun v hv => hselection v ((mem_eraseIdx h).mpr (.inr hv)),
        fun v hv => hcurrency v ((mem_eraseIdx h).mpr (.inr hv))⟩
  · rintro ⟨hothers, htwins⟩
    refine ⟨fun v hv => ?_, fun v hv => ?_, fun v hv => ?_⟩
    · rcases (mem_eraseIdx h).mp hv with hv | hv
      · exact hothers.sku v hv
      · exact htwins.sku v hv
    · rcases (mem_eraseIdx h).mp hv with hv | hv
      · exact hothers.selection v hv
      · exact htwins.selection v hv
    · rcases (mem_eraseIdx h).mp hv with hv | hv
      · exact hothers.currency v hv
      · exact htwins.currency v hv

theorem represented_addVariant (h : Represented product) :
    Represented (next product (.addVariant variant occurrence)) ↔
      Allowed product (.addVariant variant occurrence) := by
  simp only [next, Allowed]
  rw [Product.addVariant, after_get, after_bind, run_ofExcept]
  cases hfits : product.assertFits variant.sku variant.selection variant.price.currency none with
  | error e => simpa using h
  | ok u =>
    obtain ⟨hapart, hdeclared⟩ := assertFits_ok.mp hfits
    rw [otherVariants_none] at hapart
    have hmatrix := matrix_append variant h.matrix
    rw [and_iff_right hapart, and_iff_right hdeclared] at hmatrix
    simp only [after, run_bind, run_modify, forall_const]
    rw [← hmatrix]
    exact ⟨fun hr => hr.matrix, fun hm => ⟨by simp [Product.addDomainEvent], hm, h.media⟩⟩

theorem represented_updateVariant {changes : VariantChanges} (h : Represented product) :
    Represented (next product (.updateVariant variantId changes occurrence)) ↔
      Allowed product (.updateVariant variantId changes occurrence) := by
  simp only [next, Allowed]
  rw [Product.updateVariant, after_get]
  cases hfound : product.variantIndex? variantId with
  | none => simpa [after] using h
  | some index =>
    obtain ⟨hindex, hid⟩ := variantIndex?_some hfound
    simp only [Option.some.injEq, forall_eq']
    rw [after_bind, run_ofExcept]
    cases hfits : product.assertFits changes.sku changes.selection changes.price.currency
        (some variantId) with
    | error e => simpa using h
    | ok u =>
      obtain ⟨hothers, hdeclared⟩ := assertFits_ok.mp hfits
      simp only [List.getElem?_eq_getElem hindex, after, run_bind, Product.onVariant, Variant.apply,
        run_ofExcept]
      cases hvalid : assertValidAttributes changes.price changes.attributes with
      | error e =>
        simp only [List.set_getElem_self, reduceCtorEq, false_implies, implies_true, iff_true]
        exact h
      | ok u =>
        have hmatrix := matrix_set (product.variants[index].changed changes) h.matrix
          hindex
        have himage : ∀ assetId, (product.variants[index].changed changes).mediaRef =
            some assetId → assetId ∈ product.assetIds :=
          h.matrix.images product.variants[index] (List.getElem_mem hindex)
        simp only [run_modify, forall_const]
        constructor
        · intro hr
          exact ((apart_eraseIdx hfound).mp (hmatrix.mp hr.matrix).1).2
        · intro htwins
          have hapart := (apart_eraseIdx hfound).mpr ⟨hothers, htwins⟩
          refine ⟨?_, hmatrix.mpr ⟨hapart, hdeclared, himage⟩, h.media⟩
          simpa [Product.addDomainEvent] using h.variants

theorem represented_removeVariant (h : Represented product) :
    Represented (next product (.removeVariant variantId occurrence)) := by
  simp only [next]
  rw [Product.removeVariant, after_get]
  by_cases hlast : product.variants.length ≤ 1
  · simpa [hlast, after] using h
  · cases hfound : product.variantIndex? variantId with
    | none => simpa [hlast, after] using h
    | some index =>
      obtain ⟨hindex, _⟩ := variantIndex?_some hfound
      have hmatrix := h.matrix.sublist (List.eraseIdx_sublist product.variants index)
      simp only [if_neg hlast, after, run_bind, run_modify]
      refine ⟨?_, hmatrix, h.media⟩
      intro hnil
      have hlength := congrArg List.length hnil
      simp only [Product.addDomainEvent, List.length_eraseIdx_of_lt hindex, List.length_nil]
        at hlength
      omega

theorem removedBy?_eq_none :
    Product.removedBy? options variants = none ↔ ∀ v ∈ variants, Declared options v.selection := by
  rw [Product.removedBy?, List.findSome?_eq_none_iff]
  refine forall₂_congr fun v _ => ?_
  rw [Option.map_eq_none_iff, Option.bind_eq_none_iff, Declared]
  exact forall₂_congr fun s _ => undeclared?_eq_none

theorem represented_setOptions (h : Represented product) :
    Represented (next product (.setOptions options)) := by
  simp only [next]
  rw [Product.setOptions, after_get]
  cases hremoved : Product.removedBy? options product.variants with
  | some e => simpa [after] using h
  | none =>
    have hdeclared := removedBy?_eq_none.mp hremoved
    exact ⟨h.variants, ⟨h.matrix.skus, h.matrix.selections, hdeclared, h.matrix.currency,
      h.matrix.images⟩, h.media⟩

theorem relabelVariants_invalid (hc : isValidCurrencyCode currency = false) (hne : variants ≠ []) :
    ∃ e, Product.relabelVariants currency variants = .error e variants := by
  cases variants with
  | nil => exact absurd rfl hne
  | cons variant rest =>
    obtain ⟨e, he⟩ := relabelCurrency_invalid hc variant
    exact ⟨e, by simp [Product.relabelVariants, he]⟩

theorem relabelVariants_valid (hc : isValidCurrencyCode currency = true) (variants : List Variant) :
    ∃ count, Product.relabelVariants currency variants =
      .ok count (variants.map (Variant.relabelled currency hc)) := by
  induction variants with
  | nil => exact ⟨0, rfl⟩
  | cons variant rest ih =>
    obtain ⟨count, hrest⟩ := ih
    exact ⟨_, by simp [Product.relabelVariants, relabelCurrency_valid hc, hrest]; rfl⟩

theorem relabelled_keeps (hc : isValidCurrencyCode currency = true) (variant : Variant) :
    (variant.relabelled currency hc).sku = variant.sku ∧
      (variant.relabelled currency hc).selection = variant.selection ∧
      (variant.relabelled currency hc).mediaRef = variant.mediaRef := by
  rw [Variant.relabelled]
  split
  · exact ⟨rfl, rfl, rfl⟩
  · exact ⟨rfl, rfl, rfl⟩

theorem represented_relabelCurrency (h : Represented product) :
    Represented (next product (.relabelCurrency currency)) := by
  simp only [next, after, Product.relabelCurrency]
  cases hc : isValidCurrencyCode currency with
  | false =>
    obtain ⟨e, he⟩ := relabelVariants_invalid hc h.variants
    simpa only [he] using h
  | true =>
    obtain ⟨count, hcount⟩ := relabelVariants_valid hc product.variants
    simp only [hcount]
    refine ⟨by simpa using h.variants, ?_, h.media⟩
    apply h.matrix.map
    · exact fun v _ => (relabelled_keeps hc v).1
    · exact fun v _ => (relabelled_keeps hc v).2.1
    · intro v _ w _
      rw [relabelled_currency, relabelled_currency]
    · intro v hv assetId himage
      rw [(relabelled_keeps hc v).2.2] at himage
      exact h.matrix.images v hv assetId himage

theorem Represented.of_media (h : Represented product) {media : List MediaRef} {domainEvents}
    (hkept : ∀ assetId ∈ product.assetIds, assetId ∈ media.map (·.assetId))
    (hnodup : (media.map (·.assetId)).Nodup) : Represented { product with media, domainEvents } :=
  ⟨h.variants, ⟨h.matrix.skus, h.matrix.selections, h.matrix.declared, h.matrix.currency,
    fun v hv assetId himage => hkept assetId (h.matrix.images v hv assetId himage)⟩, hnodup⟩

theorem represented_attachMedia {media : MediaRef} (h : Represented product) :
    Represented (next product (.attachMedia media occurrence)) := by
  simp only [next]
  rw [Product.attachMedia, after_get]
  cases hattached : product.assetIds.contains media.assetId with
  | true => simpa [after] using h
  | false =>
    have hnew : media.assetId ∉ product.assetIds := by simpa using hattached
    have hids : (product.media ++ [media]).map (·.assetId) =
        product.assetIds ++ [media.assetId] := by simp [Product.assetIds]
    simp only [after, Bool.false_eq_true, if_false, run_bind, run_modify]
    refine h.of_media ?_ ?_
    · intro assetId hold
      rw [hids]
      exact List.mem_append_left _ hold
    · rw [hids, ← List.concat_eq_append]
      exact h.media.concat hnew

theorem represented_detachMedia {assetId : String} (h : Represented product) :
    Represented (next product (.detachMedia assetId occurrence)) := by
  simp only [next]
  rw [Product.detachMedia, after_get]
  cases hattached : product.assetIds.contains assetId with
  | false => simpa [after] using h
  | true =>
    have hkeeps : ∀ v : Variant, (Product.withoutImage assetId v).sku = v.sku ∧
        (Product.withoutImage assetId v).selection = v.selection ∧
        (Product.withoutImage assetId v).price = v.price := by
      intro v
      rw [Product.withoutImage]
      split
      · exact ⟨rfl, rfl, rfl⟩
      · exact ⟨rfl, rfl, rfl⟩
    simp only [after, Bool.not_true, Bool.false_eq_true, if_false, run_bind, run_modify]
    refine ⟨by simpa [Product.addDomainEvent] using h.variants, ?_, ?_⟩
    · apply h.matrix.map
      · exact fun v _ => (hkeeps v).1
      · exact fun v _ => (hkeeps v).2.1
      · intro v hv w hw
        rw [(hkeeps v).2.2, (hkeeps w).2.2]
        exact h.matrix.currency v hv w hw
      · intro v hv other himage
        rw [Product.withoutImage] at himage
        split at himage
        · cases himage
        · rename_i hne
          have hold := h.matrix.images v hv other himage
          obtain ⟨m, hm, rfl⟩ := List.mem_map.mp hold
          refine List.mem_map.mpr ⟨m, List.mem_filter.mpr ⟨hm, bne_iff_ne.mpr ?_⟩, rfl⟩
          rintro rfl
          exact hne himage
    · exact (List.filter_sublist.map _).nodup h.media

theorem represented_setVariantImage {assetId : Option String} (h : Represented product) :
    Represented (next product (.setVariantImage variantId assetId occurrence)) := by
  simp only [next]
  rw [Product.setVariantImage, after_get]
  cases hfound : product.variantIndex? variantId with
  | none => simpa [after] using h
  | some index =>
    obtain ⟨hindex, _⟩ := variantIndex?_some hfound
    have hold := (matrix_cons.mp (h.matrix.perm (List.getElem_cons_eraseIdx_perm hindex).symm)).2
    have hset : (∀ a, assetId = some a → a ∈ product.assetIds) →
        Represented (Product.addDomainEvent occurrence (.variantUpdated variantId)
          { product with
            variants := product.variants.modify index (Variant.setMediaRef assetId) }) := by
      intro hattached
      refine ⟨?_, ?_, h.media⟩
      · simpa [Product.addDomainEvent] using h.variants
      · change Matrix product.options product.assetIds (product.variants.modify index _)
        have hmodify : product.variants.modify index (Variant.setMediaRef assetId) =
            product.variants.set index (product.variants[index].setMediaRef assetId) := by
          rw [List.modify_eq_set_getElem?, List.getElem?_eq_getElem hindex]
          rfl
        rw [hmodify]
        exact (matrix_set _ h.matrix hindex).mpr ⟨hold.1, hold.2.1, hattached⟩
    cases assetId with
    | none =>
      simp only [after, run_bind, run_modify]
      exact hset fun a ha => by cases ha
    | some assetId =>
      cases hattached : product.assetIds.contains assetId with
      | false =>
        simp only [after, hattached, Bool.not_false, if_true, run_bind, run_throw]
        exact h
      | true =>
        simp only [after, hattached, Bool.not_true, Bool.false_eq_true, if_false, run_bind,
          run_modify]
        refine hset ?_
        rintro a ⟨⟩
        simpa using hattached

theorem perm_of_sorted {ids' : List String} (h : Product.sorted ids = Product.sorted ids') :
    ids.Perm ids' := by
  have hperm := (List.mergeSort_perm ids fun a b => !lessThan b a).symm
  rw [Product.sorted, Product.sorted] at h
  rw [h] at hperm
  exact hperm.trans (List.mergeSort_perm ids' _)

theorem rearranged_ids (media : List MediaRef) (h : ∀ id ∈ ids, id ∈ media.map (·.assetId)) :
    (Product.rearranged media ids).map (·.assetId) = ids := by
  induction ids with
  | nil => rfl
  | cons id rest ih =>
    have hrest := ih fun id hid => h id (List.mem_cons_of_mem _ hid)
    obtain ⟨m, hm, hid⟩ := List.mem_map.mp (h id List.mem_cons_self)
    have hfound : (media.find? fun m => m.assetId == id).isSome := by
      rw [List.find?_isSome]
      exact ⟨m, hm, beq_iff_eq.mpr hid⟩
    obtain ⟨found, hf⟩ := Option.isSome_iff_exists.mp hfound
    have hsame : found.assetId = id := by simpa using List.find?_some hf
    rw [Product.rearranged] at hrest ⊢
    simp only [List.filterMap_cons, hf, List.map_cons, hrest, hsame]

theorem represented_reorderMedia {assetIds : List String} (h : Represented product) :
    Represented (next product (.reorderMedia assetIds occurrence)) := by
  simp only [next]
  rw [Product.reorderMedia, after_get]
  by_cases hsorted : Product.sorted product.assetIds = Product.sorted assetIds
  · have hperm := perm_of_sorted hsorted
    have hids := rearranged_ids product.media fun id hid => hperm.mem_iff.mpr hid
    simp only [ne_eq, hsorted, not_true, if_false, after, run_bind, run_modify]
    refine h.of_media ?_ ?_
    · intro assetId hold
      rw [hids]
      exact hperm.mem_iff.mp hold
    · rw [hids]
      exact hperm.nodup_iff.mp h.media
  · simpa [after, hsorted] using h

theorem represented_next (h : Represented product) (call : Call) :
    Represented (next product call) ↔ Allowed product call := by
  cases call with
  | addVariant variant occurrence => exact represented_addVariant h
  | removeVariant variantId occurrence => exact iff_of_true (represented_removeVariant h) trivial
  | updateVariant variantId changes occurrence => exact represented_updateVariant h
  | setOptions options => exact iff_of_true (represented_setOptions h) trivial
  | relabelCurrency currency => exact iff_of_true (represented_relabelCurrency h) trivial
  | attachMedia media occurrence => exact iff_of_true (represented_attachMedia h) trivial
  | detachMedia assetId occurrence => exact iff_of_true (represented_detachMedia h) trivial
  | setVariantImage variantId assetId occurrence =>
    exact iff_of_true (represented_setVariantImage h) trivial
  | reorderMedia assetIds occurrence => exact iff_of_true (represented_reorderMedia h) trivial

end Steps

section Runs

variable {id : UniqueEntityId} {props : NewProduct} {occurrence : Occurrence} {product : Product}

theorem oneCurrency {variants : List Variant}
    (h : ¬ 1 < (distinctValues (variants.map fun v => v.price.currency)).length) :
    ∀ v ∈ variants, ∀ w ∈ variants, v.price.currency = w.price.currency := by
  intro v hv w hw
  have hmem : ∀ x ∈ variants, x.price.currency ∈
      distinctValues (variants.map fun v => v.price.currency) := by
    intro x hx
    rw [distinctValues, List.mem_eraseDups]
    exact List.mem_map.mpr ⟨x, hx, rfl⟩
  have hv := hmem v hv
  have hw := hmem w hw
  generalize distinctValues (variants.map fun v => v.price.currency) = currencies at h hv hw
  cases currencies with
  | nil => cases hv
  | cons currency rest =>
    cases rest with
    | nil => rw [List.mem_singleton.mp hv, List.mem_singleton.mp hw]
    | cons _ _ => simp at h

theorem represented_create (h : Product.create id props occurrence = .ok product) :
    Represented product ↔ Fitting props := by
  rw [Product.create] at h
  split at h
  · cases h
  rename_i hne
  split at h
  · cases h
  rename_i hcurrency
  cases h
  constructor
  · rintro ⟨_, ⟨hskus, _, hdeclared, _, himages⟩, hmedia⟩
    refine ⟨hskus, fun v hv => ?_, hmedia, himages⟩
    cases hs : v.selection with
    | none => rfl
    | some s =>
      -- there are no options yet, and a selection names at least one
      obtain ⟨entry, hentry⟩ := List.exists_mem_of_ne_nil _ s.notEmpty
      exact absurd (hdeclared v hv s hs entry hentry) (by simp [declares])
  · rintro ⟨hskus, hselections, hmedia, himages⟩
    refine ⟨hne, ⟨hskus, ?_, ?_, oneCurrency hcurrency, himages⟩, hmedia⟩
    · refine List.pairwise_of_forall_mem_list fun v hv w _ s t hs => ?_
      rw [hselections v hv] at hs
      cases hs
    · intro v hv s hs
      rw [hselections v hv] at hs
      cases hs

/-- A product is well represented, from its creation on and whatever is called, exactly when the
arguments of its creation fit together and every call is allowed. -/
theorem run_represented (h : Product.create id props occurrence = .ok product)
    (calls : List Call) : Always Represented product (follow next product calls) ↔
      Fitting props ∧ EveryStep Allowed product (follow next product calls) := by
  have hrun : Run (fun s l u => u = next s l) product (follow next product calls) := by
    apply run_follow
    intro s l
    rfl
  rw [← represented_create h]
  constructor
  · intro ha
    refine ⟨ha.head, ?_⟩
    refine (always_iff_everyStep (I := Represented) ?_ (fun _ h => h) ?_ ha.head hrun).mp ha
    · rintro s l _ hs rfl hallowed
      exact (represented_next hs l).mpr hallowed
    · rintro s l _ hs rfl hrefused hnext
      exact hrefused ((represented_next hs l).mp hnext)
  · rintro ⟨hstart, hsteps⟩
    refine always_of_everyStep ?_ hstart hrun hsteps
    rintro s l _ hs rfl hallowed
    exact (represented_next hs l).mpr hallowed

end Runs

/-! Two variants of one SKU, which `create` lets in. -/

theorem tea_named : isBlank "tea" = false := by decide

theorem pot_named : isBlank "pot" = false := by decide

theorem tea_kebab : isSlug "tea" = true := by decide

theorem usd_valid : isValidCurrencyCode "USD" = true := by decide

def sampleVariant (id : UniqueEntityId) (sku : Sku) : Variant :=
  ⟨id, sku, ⟨500, "USD", usd_valid⟩, none, DEFAULT_VARIANT_ATTRIBUTES, none⟩

def sampleNewProduct (variants : List Variant) : NewProduct :=
  ⟨⟨"tea", tea_named⟩, "Tea", ⟨"tea", tea_kebab⟩, variants, none, none⟩

def sampleProduct (variants : List Variant) : Product where
  id := ⟨"tea", tea_named⟩
  version := 0
  sku := ⟨"tea", tea_named⟩
  name := "Tea"
  slug := ⟨"tea", tea_kebab⟩
  status := .draft
  options := []
  variants := variants
  media := []
  deleted := false
  details := .empty
  domainEvents := [⟨⟨"event", 0⟩, .created "tea" "Tea" "tea"⟩]

def teaVariant : Variant := sampleVariant ⟨"tea", tea_named⟩ ⟨"tea", tea_named⟩

/-- The same SKU under another id. -/
def teaVariantAgain : Variant := sampleVariant ⟨"pot", pot_named⟩ ⟨"tea", tea_named⟩

def potVariant : Variant := sampleVariant ⟨"pot", pot_named⟩ ⟨"pot", pot_named⟩

theorem run_represented_pot :
    let added := Call.addVariant potVariant ⟨"event", 1⟩
    let relabelled := Call.relabelCurrency "EUR"
    Always Represented (sampleProduct [teaVariant])
      (follow next (sampleProduct [teaVariant]) [added, relabelled]) := by
  have hcreated : Product.create ⟨"tea", tea_named⟩ (sampleNewProduct [teaVariant]) ⟨"event", 0⟩ =
      .ok (sampleProduct [teaVariant]) := by decide +kernel
  refine (run_represented hcreated _).mpr ⟨⟨by decide, ?_, by decide, ?_⟩, ?_, trivial, trivial⟩
  · intro v hv
    rw [List.mem_singleton.mp hv]
    rfl
  · intro v hv assetId himage
    rw [List.mem_singleton.mp hv] at himage
    cases himage
  · intro _ assetId himage
    cases himage

theorem representation_fails : ¬ ∀ (id : UniqueEntityId) (props : NewProduct)
    (occurrence : Occurrence) (product : Product), Product.create id props occurrence = .ok product →
      ∀ calls : List Call, Always Represented product (follow next product calls) := by
  intro h
  have hcreated : Product.create ⟨"tea", tea_named⟩
      (sampleNewProduct [teaVariant, teaVariantAgain]) ⟨"event", 0⟩ =
        .ok (sampleProduct [teaVariant, teaVariantAgain]) := by decide +kernel
  exact absurd (h _ _ _ _ hcreated []).matrix.skus (by decide)

end Catalog
