import Lumo.Builtins
import Lumo.Methods
import Lumo.OrderedMap

/-! # The variants of a catalog product

What a variant is made of, and the methods of the variant itself. The rules that need the other
variants, the options or the media are the product's. -/
namespace Catalog

open SharedKernel Builtins

@[ext]
structure Sku where
  value : String
  notEmpty : isBlank value = false

instance : DecidableEq Sku := fun a b => decidable_of_iff (a.value = b.value) Sku.ext_iff.symm

def Sku.create (value : String) : Except DomainError Sku :=
  (Guard.againstEmpty value "sku").map fun v =>
    ⟨trim v.1, by rw [isBlank_trim, v.notEmpty]⟩

@[ext]
structure MediaRef where
  assetId : String
  notEmpty : isBlank assetId = false

instance : DecidableEq MediaRef := fun a b =>
  decidable_of_iff (a.assetId = b.assetId) MediaRef.ext_iff.symm

def MediaRef.create (assetId : String) : Except DomainError MediaRef :=
  (Guard.againstEmpty assetId "assetId").map fun v => ⟨v.1, v.notEmpty⟩

@[ext]
structure ProductOption where
  name : String
  values : List String
  named : isBlank name = false
  filled : values ≠ [] ∧ ∀ v ∈ values, isBlank v = false
  distinct : values.Nodup

instance : DecidableEq ProductOption := fun a b =>
  decidable_of_iff (a.name = b.name ∧ a.values = b.values) ProductOption.ext_iff.symm

def ProductOption.create (name : String) (values : List String) :
    Except DomainError ProductOption :=
  if named : isBlank name = false then
    if filled : values ≠ [] ∧ ∀ v ∈ values, isBlank v = false then
      if distinct : values.Nodup then .ok ⟨name, values, named, filled, distinct⟩
      else .error (.validation "Invalid product option"
        [⟨"values", "must not contain duplicates"⟩])
    else .error (.validation "Invalid product option"
      [⟨"values", "must have at least one non-empty value"⟩])
  else .error (.validation "Invalid product option" [⟨"name", "must not be empty"⟩])

structure VariantSelection where
  values : OrderedMap String String
  notEmpty : values.entries ≠ []
  deriving DecidableEq

namespace VariantSelection

def create (values : OrderedMap String String) : Except DomainError VariantSelection :=
  if notEmpty : values.entries ≠ [] then .ok ⟨values, notEmpty⟩
  else .error (.validation "Invalid variant selection"
    [⟨"values", "must select at least one option"⟩])

def Matches (selection other : VariantSelection) : Prop :=
  selection.values.keys.length = other.values.keys.length ∧
    ∀ key ∈ selection.values.keys, selection.values.find? key = other.values.find? key

instance (selection other : VariantSelection) : Decidable (selection.Matches other) :=
  inferInstanceAs (Decidable (_ ∧ _))

end VariantSelection

inductive InventoryPolicy where
  | deny
  | continue
  | other (text : String)
  deriving DecidableEq

structure VariantAttributes where
  compareAtPrice : Option Money
  cost : Option Money
  barcode : Option String
  weightGrams : Option ℚ
  requiresShipping : Bool
  taxable : Bool
  tracksInventory : Bool
  inventoryPolicy : InventoryPolicy
  deriving DecidableEq

def DEFAULT_VARIANT_ATTRIBUTES : VariantAttributes :=
  ⟨none, none, none, none, true, true, true, .deny⟩

def MAX_BARCODE_LENGTH : ℕ := 64

def MAX_WEIGHT_GRAMS : ℕ := 1000000

/-- What is wrong with the attributes, judged against the price. -/
def attributeIssues (price : Money) (attributes : VariantAttributes) : List FieldIssue :=
  (match attributes.compareAtPrice with
    | none => []
    | some compareAtPrice =>
      if compareAtPrice.currency ≠ price.currency then
        [⟨"compareAtAmountMinor", "must use the variant's currency"⟩]
      else if compareAtPrice.amountMinor ≤ price.amountMinor then
        [⟨"compareAtAmountMinor", "must be higher than the price"⟩]
      else []) ++
  (match attributes.cost with
    | none => []
    | some cost =>
      if cost.currency ≠ price.currency then
        [⟨"costAmountMinor", "must use the variant's currency"⟩]
      else []) ++
  (match attributes.barcode with
    | none => []
    | some barcode =>
      if isBlank barcode || MAX_BARCODE_LENGTH < stringLength barcode then
        [⟨"barcode", "must be 1-64 characters"⟩]
      else []) ++
  (match attributes.weightGrams with
    | none => []
    | some weightGrams =>
      if !isInteger weightGrams || weightGrams < 0 || MAX_WEIGHT_GRAMS < weightGrams then
        [⟨"weightGrams", "must be a whole number 0-1000000"⟩]
      else []) ++
  if attributes.inventoryPolicy ≠ .deny ∧ attributes.inventoryPolicy ≠ .continue then
    [⟨"inventoryPolicy", "must be \"deny\" or \"continue\""⟩]
  else []

def assertValidAttributes (price : Money) (attributes : VariantAttributes) :
    Except DomainError Unit :=
  if attributeIssues price attributes = [] then .ok ()
  else .error (.validation "Invalid variant" (attributeIssues price attributes))

/-- Everything that `updateVariant` changes at once. -/
structure VariantChanges where
  sku : Sku
  price : Money
  selection : Option VariantSelection
  attributes : VariantAttributes

structure Variant where
  id : UniqueEntityId
  sku : Sku
  price : Money
  selection : Option VariantSelection
  attributes : VariantAttributes
  mediaRef : Option String
  deriving DecidableEq

namespace Variant

def create (id : UniqueEntityId) (sku : Sku) (price : Money) (selection : Option VariantSelection)
    (attributes : VariantAttributes) (mediaRef : Option String) : Except DomainError Variant := do
  assertValidAttributes price attributes
  return ⟨id, sku, price, selection, attributes, mediaRef⟩

def setMediaRef (mediaRef : Option String) (variant : Variant) : Variant :=
  { variant with mediaRef := mediaRef }

/-- The variant with a full change set. -/
def changed (variant : Variant) (changes : VariantChanges) : Variant :=
  { variant with
    sku := changes.sku
    price := changes.price
    selection := changes.selection
    attributes := changes.attributes }

def apply (changes : VariantChanges) : EStateM DomainError Variant Unit := do
  MonadExcept.ofExcept (assertValidAttributes changes.price changes.attributes)
  modify fun variant => variant.changed changes

def relabel (currency : String) (money : Money) : Except DomainError Money :=
  Money.create money.amountMinor currency

def relabelOrNull (currency : String) : Option Money → Except DomainError (Option Money)
  | none => .ok none
  | some money => (relabel currency money).map some

/-- Keeps the amounts; the answer says whether anything changed. -/
def relabelCurrency (currency : String) : EStateM DomainError Variant Bool := do
  let variant ← get
  if variant.price.currency = currency then
    return false
  let price ← MonadExcept.ofExcept (relabel currency variant.price)
  modify fun variant => { variant with price := price }
  let compareAtPrice ←
    MonadExcept.ofExcept (relabelOrNull currency variant.attributes.compareAtPrice)
  let cost ← MonadExcept.ofExcept (relabelOrNull currency variant.attributes.cost)
  modify fun variant => { variant with attributes := { variant.attributes with
    compareAtPrice := compareAtPrice
    cost := cost } }
  return true

end Variant

section Selections

variable {selection other : VariantSelection}

theorem VariantSelection.matches_iff :
    selection.Matches other ↔ ∀ key, selection.values.find? key = other.values.find? key := by
  constructor
  · rintro ⟨hlength, hsame⟩ key
    -- the keys of the first are all keys of the other, and there are as many
    have hsub : selection.values.keys ⊆ other.values.keys := by
      intro k hk
      obtain ⟨⟨k', value⟩, hmem, rfl⟩ := List.mem_map.mp hk
      have hfound := OrderedMap.find?_eq_some.mpr hmem
      rw [hsame _ hk] at hfound
      exact List.mem_map.mpr ⟨_, OrderedMap.find?_eq_some.mp hfound, rfl⟩
    have hperm : selection.values.keys.Perm other.values.keys :=
      (List.subperm_of_subset selection.values.distinct hsub).perm_of_length_le hlength.ge
    by_cases hk : key ∈ selection.values.keys
    · exact hsame key hk
    · have hk' : key ∉ other.values.keys := fun h => hk (hperm.mem_iff.mpr h)
      rw [OrderedMap.find?_eq_none.mpr hk, OrderedMap.find?_eq_none.mpr hk']
  · intro h
    refine ⟨?_, fun key _ => h key⟩
    have hmem : ∀ k, k ∈ selection.values.keys ↔ k ∈ other.values.keys := by
      intro k
      rw [← not_iff_not, ← OrderedMap.find?_eq_none, ← OrderedMap.find?_eq_none, h k]
    exact ((List.perm_ext_iff_of_nodup selection.values.distinct other.values.distinct).mpr
      hmem).length_eq

theorem VariantSelection.Matches.symm (h : selection.Matches other) : other.Matches selection :=
  matches_iff.mpr fun key => (matches_iff.mp h key).symm

end Selections

section Relabel

variable {currency : String} {variant : Variant}

def inCurrency (currency : String) (hc : isValidCurrencyCode currency = true) (money : Money) :
    Money :=
  ⟨money.amountMinor, currency, hc⟩

theorem relabel_valid (hc : isValidCurrencyCode currency = true) (money : Money) :
    Variant.relabel currency money = .ok (inCurrency currency hc money) := by
  simp [Variant.relabel, Money.create, hc, inCurrency]

theorem relabel_invalid (hc : isValidCurrencyCode currency = false) (money : Money) :
    ∃ e, Variant.relabel currency money = .error e := by
  simp [Variant.relabel, Money.create, hc]

/-- The variant in another currency; one that is in it already is left alone. -/
def Variant.relabelled (currency : String) (hc : isValidCurrencyCode currency = true)
    (variant : Variant) : Variant :=
  if variant.price.currency = currency then variant
  else { variant with
    price := inCurrency currency hc variant.price
    attributes := { variant.attributes with
      compareAtPrice := variant.attributes.compareAtPrice.map (inCurrency currency hc)
      cost := variant.attributes.cost.map (inCurrency currency hc) } }

theorem relabelOrNull_valid (hc : isValidCurrencyCode currency = true) (money : Option Money) :
    Variant.relabelOrNull currency money = .ok (money.map (inCurrency currency hc)) := by
  cases money with
  | none => rfl
  | some money => simp [Variant.relabelOrNull, relabel_valid hc, Except.map]

theorem relabelCurrency_valid (hc : isValidCurrencyCode currency = true) (variant : Variant) :
    Variant.relabelCurrency currency variant =
      .ok (decide (variant.price.currency ≠ currency)) (variant.relabelled currency hc) := by
  by_cases h : variant.price.currency = currency
  · simp [Variant.relabelCurrency, Variant.relabelled, h]
  · simp [Variant.relabelCurrency, Variant.relabelled, h, relabel_valid hc, relabelOrNull_valid hc]

theorem relabelCurrency_invalid (hc : isValidCurrencyCode currency = false) (variant : Variant) :
    ∃ e, Variant.relabelCurrency currency variant = .error e variant := by
  have h : ¬ variant.price.currency = currency := by
    rintro rfl
    rw [variant.price.validCurrency] at hc
    cases hc
  obtain ⟨e, he⟩ := relabel_invalid hc variant.price
  exact ⟨e, by simp [Variant.relabelCurrency, h, he]⟩

theorem relabelled_currency (hc : isValidCurrencyCode currency = true) (variant : Variant) :
    (variant.relabelled currency hc).price.currency = currency := by
  rw [Variant.relabelled]
  split
  · assumption
  · rfl

end Relabel

end Catalog

/-! ## The product aggregate

A product owns its variants, the options they are matrixed over and the media that it shows. -/
namespace Catalog

open SharedKernel Builtins

def isSlugChar (c : Char) : Bool := ('a' ≤ c && c ≤ 'z') || ('0' ≤ c && c ≤ '9')

/-- The pattern `^[a-z0-9]+(?:-[a-z0-9]+)*$`. -/
def isSlug (value : String) : Bool :=
  (value.toList.splitOn '-').all fun part => !part.isEmpty && part.all isSlugChar

structure Slug where
  value : String
  kebab : isSlug value = true
  deriving DecidableEq

def Slug.create (value : String) : Except DomainError Slug :=
  if kebab : isSlug value = true then .ok ⟨value, kebab⟩
  else .error (.validation ("Invalid slug \"" ++ value ++ "\"")
    [⟨"slug", "must be lower kebab-case (a-z, 0-9, hyphen)"⟩])

inductive PublishState where
  | draft
  | scheduled
  | published
  | unlisted
  | archived
  deriving DecidableEq

structure ProductDetails where
  description : Option String
  productType : Option String
  tags : List String
  deriving DecidableEq

def ProductDetails.empty : ProductDetails := ⟨none, none, []⟩

/-- What the events say of the product. -/
inductive ProductEventData where
  | created (sku name slug : String)
  | updated (name slug : String)
  | variantAdded (sku variantId variantSku : String)
  | variantRemoved (sku variantId : String)
  | variantUpdated (variantId : String)
  | mediaAttached (assetId : String)
  | mediaDetached (assetId : String)
  | mediaReordered (assetIds : List String)
  deriving DecidableEq

/-- The identity and the time that a method is given for the event it raises. -/
structure Occurrence where
  eventId : String
  occurredAt : ℤ
  deriving DecidableEq

structure ProductEvent where
  occurrence : Occurrence
  data : ProductEventData
  deriving DecidableEq

structure Product where
  id : UniqueEntityId
  version : ℕ
  sku : Sku
  name : String
  slug : Slug
  status : PublishState
  options : List ProductOption
  variants : List Variant
  media : List MediaRef
  deleted : Bool
  details : ProductDetails
  domainEvents : List ProductEvent
  deriving DecidableEq

structure NewProduct where
  sku : Sku
  name : String
  slug : Slug
  variants : List Variant
  media : Option (List MediaRef)
  details : Option ProductDetails

def declares (options : List ProductOption) (name value : String) : Bool :=
  match options.find? fun option => option.name == name with
  | none => false
  | some option => option.values.contains value

def undeclared? (options : List ProductOption) (selection : VariantSelection) :
    Option (String × String) :=
  selection.values.entries.find? fun entry => !declares options entry.1 entry.2

namespace Product

def create (id : UniqueEntityId) (props : NewProduct) (occurrence : Occurrence) :
    Except DomainError Product :=
  if props.variants = [] then
    .error (.businessRule "A product must have at least one variant")
  else if 1 < (distinctValues (props.variants.map fun v => v.price.currency)).length then
    .error (.businessRule "All variants of a product must use the same currency")
  else .ok {
    id
    version := 0
    sku := props.sku
    name := props.name
    slug := props.slug
    status := .draft
    options := []
    variants := props.variants
    media := props.media.getD []
    deleted := false
    details := props.details.getD .empty
    domainEvents := [⟨occurrence, .created props.sku.value props.name props.slug.value⟩] }

def addDomainEvent (occurrence : Occurrence) (data : ProductEventData) (product : Product) :
    Product :=
  { product with domainEvents := product.domainEvents ++ [⟨occurrence, data⟩] }

def assetIds (product : Product) : List String := product.media.map (·.assetId)

def otherVariants (product : Product) (exceptVariantId : Option String) : List Variant :=
  product.variants.filter fun v => decide (some v.id.value ≠ exceptVariantId)

def assertSelectionAllowed (product : Product) (selection : VariantSelection)
    (exceptVariantId : Option String) : Except DomainError Unit :=
  match undeclared? product.options selection with
  | some (optionName, value) => .error (.businessRule ("Variant selection " ++ optionName ++ "=" ++
      value ++ " does not match a declared product option"))
  | none =>
    if (product.otherVariants exceptVariantId).any fun v =>
        v.selection.any fun s => decide (s.Matches selection) then
      .error (.businessRule "Another variant already has this exact option selection")
    else .ok ()

def assertSameCurrency (product : Product) (currency : String)
    (exceptVariantId : Option String) : Except DomainError Unit :=
  if (product.otherVariants exceptVariantId).any fun v => v.price.currency != currency then
    .error (.businessRule "All variants of a product must use the same currency")
  else .ok ()

/-- What `addVariant` and `updateVariant` ask of a SKU, a selection and a currency. -/
def assertFits (product : Product) (sku : Sku) (selection : Option VariantSelection)
    (currency : String) (exceptVariantId : Option String) : Except DomainError Unit := do
  if (product.otherVariants exceptVariantId).any fun v => v.sku.value == sku.value then
    throw (.businessRule ("Duplicate variant SKU: " ++ sku.value))
  match selection with
  | none => pure ()
  | some selection => product.assertSelectionAllowed selection exceptVariantId
  product.assertSameCurrency currency exceptVariantId

def addVariant (variant : Variant) (occurrence : Occurrence) :
    EStateM DomainError Product Unit := do
  let product ← get
  MonadExcept.ofExcept
    (product.assertFits variant.sku variant.selection variant.price.currency none)
  modify fun product => { product with variants := product.variants ++ [variant] }
  modify (addDomainEvent occurrence
    (.variantAdded product.sku.value variant.id.value variant.sku.value))

def variantIndex? (product : Product) (variantId : String) : Option ℕ :=
  product.variants.findIdx? fun v => v.id.value == variantId

def variantNotFound (variantId : String) : DomainError :=
  .businessRule ("Variant not found: " ++ variantId)

def removeVariant (variantId : String) (occurrence : Occurrence) :
    EStateM DomainError Product Unit := do
  let product ← get
  if product.variants.length ≤ 1 then
    throw (.businessRule "A product must retain at least one variant")
  match product.variantIndex? variantId with
  | none => throw (variantNotFound variantId)
  | some index =>
    modify fun product => { product with variants := product.variants.eraseIdx index }
    modify (addDomainEvent occurrence (.variantRemoved product.sku.value variantId))

def onVariant {α : Type} (index : ℕ) (method : EStateM DomainError Variant α) (variant : Variant) :
    EStateM DomainError Product α := fun product =>
  match method variant with
  | .ok a variant => .ok a { product with variants := product.variants.set index variant }
  | .error e variant => .error e { product with variants := product.variants.set index variant }

def updateVariant (variantId : String) (changes : VariantChanges) (occurrence : Occurrence) :
    EStateM DomainError Product Unit := do
  let product ← get
  match product.variantIndex? variantId with
  | none => throw (variantNotFound variantId)
  | some index =>
    MonadExcept.ofExcept
      (product.assertFits changes.sku changes.selection changes.price.currency variantId)
    match product.variants[index]? with
    | none => throw (variantNotFound variantId)
    | some variant => onVariant index (Variant.apply changes) variant
    modify (addDomainEvent occurrence (.variantUpdated variantId))

def removedBy? (options : List ProductOption) (variants : List Variant) :
    Option (Variant × String × String) :=
  variants.findSome? fun variant =>
    (variant.selection.bind (undeclared? options)).map fun entry => (variant, entry)

def setOptions (options : List ProductOption) : EStateM DomainError Product Unit := do
  let product ← get
  match removedBy? options product.variants with
  | some (variant, name, value) =>
    throw (.businessRule ("Variant " ++ variant.sku.value ++ " uses " ++ name ++ "=" ++ value ++
      ", which these options remove — change or remove that variant first"))
  | none => modify fun product => { product with options := options }

def relabelVariants (currency : String) :
    List Variant → EStateM.Result DomainError (List Variant) ℕ
  | [] => .ok 0 []
  | variant :: rest =>
    match Variant.relabelCurrency currency variant with
    | .error e variant => .error e (variant :: rest)
    | .ok changed variant =>
      match relabelVariants currency rest with
      | .error e rest => .error e (variant :: rest)
      | .ok count rest => .ok (count + changed.toNat) (variant :: rest)

def relabelCurrency (currency : String) : EStateM DomainError Product ℕ := fun product =>
  match relabelVariants currency product.variants with
  | .ok count variants => .ok count { product with variants := variants }
  | .error e variants => .error e { product with variants := variants }

def update (name : String) (slug : Slug) (occurrence : Occurrence) :
    EStateM DomainError Product Unit := do
  modify fun product => { product with name := name, slug := slug }
  modify (addDomainEvent occurrence (.updated name slug.value))

def setDetails (details : ProductDetails) : EStateM DomainError Product Unit :=
  modify fun product => { product with details := details }

def mediaNotAttached (assetId : String) : DomainError :=
  .businessRule ("Media not attached: " ++ assetId)

def attachMedia (media : MediaRef) (occurrence : Occurrence) :
    EStateM DomainError Product Unit := do
  let product ← get
  if product.assetIds.contains media.assetId then
    throw (.businessRule ("Media already attached: " ++ media.assetId))
  modify fun product => { product with media := product.media ++ [media] }
  modify (addDomainEvent occurrence (.mediaAttached media.assetId))

def withoutImage (assetId : String) (variant : Variant) : Variant :=
  if variant.mediaRef = some assetId then variant.setMediaRef none else variant

def detachMedia (assetId : String) (occurrence : Occurrence) :
    EStateM DomainError Product Unit := do
  let product ← get
  if !product.assetIds.contains assetId then
    throw (mediaNotAttached assetId)
  modify fun product => { product with media := product.media.filter fun m => m.assetId != assetId }
  modify fun product => { product with variants := product.variants.map (withoutImage assetId) }
  modify (addDomainEvent occurrence (.mediaDetached assetId))

def setVariantImage (variantId : String) (assetId : Option String) (occurrence : Occurrence) :
    EStateM DomainError Product Unit := do
  let product ← get
  match product.variantIndex? variantId with
  | none => throw (variantNotFound variantId)
  | some index =>
    match assetId with
    | none => pure ()
    | some assetId =>
      if !product.assetIds.contains assetId then
        throw (mediaNotAttached assetId)
    modify fun product =>
      { product with variants := product.variants.modify index (Variant.setMediaRef assetId) }
    modify (addDomainEvent occurrence (.variantUpdated variantId))

/-- `sort`, which compares code units. -/
def sorted (ids : List String) : List String := ids.mergeSort fun a b => !lessThan b a

def rearranged (media : List MediaRef) (assetIds : List String) : List MediaRef :=
  assetIds.filterMap fun assetId => media.find? fun m => m.assetId == assetId

def reorderMedia (assetIds : List String) (occurrence : Occurrence) :
    EStateM DomainError Product Unit := do
  let product ← get
  if sorted product.assetIds ≠ sorted assetIds then
    throw (.businessRule "reorderMedia must be an exact permutation of attached media")
  modify fun product => { product with media := rearranged product.media assetIds }
  modify (addDomainEvent occurrence (.mediaReordered assetIds))

end Product

end Catalog
