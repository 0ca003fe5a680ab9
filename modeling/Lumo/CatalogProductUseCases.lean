import Lumo.CatalogProductRuns
import Lumo.Interleavings
import Lumo.VersionedTable

/-! # The use cases that write products

The products of one shop with their variants, which are rows of their own. A use case reads a
product and then its variants, and saves all of them under the version of the product; the
currency of the shop is changed by one statement over the rows of the variants. -/
namespace CatalogStorage

open SharedKernel Builtins Catalog Interleavings

def MAX_DESCRIPTION_LENGTH : ℕ := 20000

def MAX_PRODUCT_TYPE_LENGTH : ℕ := 255

def MAX_TAG_LENGTH : ℕ := 255

def MAX_TAGS : ℕ := 250

def blankToNull (value : Option String) : Option String :=
  value.bind fun value => if stringLength (trim value) = 0 then none else some (trim value)

def normalizeTags (ops : TextOps) (tags : List String) : List String :=
  (tags.foldl (fun (seen, result) raw =>
    let tag := trim raw
    let key := ops.toLowerCase tag
    if stringLength tag = 0 then (seen, result)
    else if key ∈ seen then (seen, result)
    else (key :: seen, result ++ [tag])) (([], []) : List String × List String)).2

def detailIssues (description productType : Option String) (tags : List String) :
    List FieldIssue :=
  (if description.any fun d => MAX_DESCRIPTION_LENGTH < stringLength d then
    [⟨"description", "must be at most 20000 characters"⟩] else []) ++
  (if productType.any fun t => MAX_PRODUCT_TYPE_LENGTH < stringLength t then
    [⟨"productType", "must be at most 255 characters"⟩] else []) ++
  (if MAX_TAGS < tags.length then [⟨"tags", "must have at most 250 tags"⟩] else []) ++
  (if tags.any fun tag => MAX_TAG_LENGTH < stringLength tag then
    [⟨"tags", "each tag must be at most 255 characters"⟩] else [])

def createDetails (ops : TextOps) (description productType : Option String)
    (tags : List String) : Except DomainError ProductDetails :=
  let details : ProductDetails :=
    ⟨blankToNull description, blankToNull productType, normalizeTags ops tags⟩
  match detailIssues details.description details.productType details.tags with
  | [] => .ok details
  | issues => .error (.validation "Invalid product details" issues)

def updatedDetails (ops : TextOps) (details : ProductDetails)
    (description productType : Option (Option String)) (tags : Option (List String)) :
    Except DomainError ProductDetails :=
  if description = none ∧ productType = none ∧ tags = none then .ok details
  else
    createDetails ops (description.getD details.description)
      (productType.getD details.productType) (tags.getD details.tags)

structure VariantAttributesInput where
  compareAtAmountMinor : Option (Option ℚ)
  costAmountMinor : Option (Option ℚ)
  barcode : Option (Option String)
  weightGrams : Option (Option ℚ)
  requiresShipping : Option Bool
  taxable : Option Bool
  tracksInventory : Option Bool
  inventoryPolicy : Option InventoryPolicy

def moneyOrKeep (amountMinor : Option (Option ℚ)) (currency : String) (current : Option Money)
    (field : String) : Except DomainError (Option Money) :=
  match amountMinor with
  | none => .ok current
  | some none => .ok none
  | some (some amountMinor) =>
    match Money.create amountMinor currency with
    | .ok money => .ok (some money)
    | .error _ => .error (.validation "Invalid variant"
        [⟨field, "must be a whole, non-negative number of minor units"⟩])

/-- The attributes with what the input names; the rest are kept. -/
def toVariantAttributes (input : VariantAttributesInput) (currency : String)
    (base : VariantAttributes) : Except DomainError VariantAttributes := do
  let compareAtPrice ← moneyOrKeep input.compareAtAmountMinor currency base.compareAtPrice
    "compareAtAmountMinor"
  let cost ← moneyOrKeep input.costAmountMinor currency base.cost "costAmountMinor"
  return {
    compareAtPrice
    cost
    barcode := match input.barcode with
      | none => base.barcode
      | some barcode => blankToNull barcode
    weightGrams := input.weightGrams.getD base.weightGrams
    requiresShipping := input.requiresShipping.getD base.requiresShipping
    taxable := input.taxable.getD base.taxable
    tracksInventory := input.tracksInventory.getD base.tracksInventory
    inventoryPolicy := input.inventoryPolicy.getD base.inventoryPolicy }

structure VariantInput where
  sku : String
  priceAmountMinor : ℚ
  currency : String
  attributes : VariantAttributesInput

structure CreateProductInput where
  sku : String
  name : String
  slug : String
  variants : List VariantInput
  mediaAssetIds : List String
  description : Option String
  productType : Option String
  tags : List String

/-- What is asked to be done to a product. -/
inductive Edit where
  | addVariant (variant : VariantInput) (selection : Option (OrderedMap String String))
  | updateVariant (variantId : String) (variant : VariantInput)
      (selection : Option (Option (OrderedMap String String)))
  | removeVariant (variantId : String)
  | update (name slug : String) (description productType : Option (Option String))
      (tags : Option (List String))

inductive Request where
  | create (input : CreateProductInput)
  | edit (productId : String) (edit : Edit)
  | relabel (currency : String)

/-- What a use case does to a product once its input has passed the checks before the reading. -/
inductive Change where
  | addVariant (sku : Sku) (price : Money) (attributes : VariantAttributes)
      (selection : Option VariantSelection)
  | updateVariant (variantId : String) (sku : Sku) (price : Money)
      (attributes : VariantAttributesInput)
      (selection : Option (Option (OrderedMap String String)))
  | removeVariant (variantId : String)
  | update (name : String) (slug : Slug) (description productType : Option (Option String))
      (tags : Option (List String))

inductive Output where
  | product (id : String)
  | variant (productId variantId : String)
  | relabelled (count : ℕ)

/-- What the id generator and the clock give in a turn. -/
structure Draw where
  id : UniqueEntityId
  variantIds : ℕ → UniqueEntityId
  eventId : String
  now : ℤ

def Draw.occurrence (draw : Draw) : Occurrence := ⟨draw.eventId, draw.now⟩

/-- The product as a method leaves it, unless the method throws. -/
def called (method : EStateM DomainError Product Unit) (product : Product) :
    Except DomainError Product :=
  match method product with
  | .ok _ product => .ok product
  | .error e _ => .error e

/-- The product that a use case saves, and its answer once it has. -/
def Change.apply (ops : TextOps) (draw : Draw) (product : Product) :
    Change → Except DomainError (Product × Output)
  | .addVariant sku price attributes selection => do
    let variant ← Variant.create draw.id sku price selection attributes none
    let new ← called (Product.addVariant variant draw.occurrence) product
    return (new, .variant product.id.value draw.id.value)
  | .updateVariant variantId sku price input selection => do
    match product.variants.find? fun v => v.id.value == variantId with
    | none => throw (Product.variantNotFound variantId)
    | some current =>
      let attributes ← toVariantAttributes input price.currency current.attributes
      let selection ← match selection with
        | none => pure current.selection
        | some none => pure none
        | some (some values) => (VariantSelection.create values).map some
      let new ← called
        (Product.updateVariant variantId ⟨sku, price, selection, attributes⟩ draw.occurrence)
        product
      return (new, .variant product.id.value variantId)
  | .removeVariant variantId => do
    let new ← called (Product.removeVariant variantId draw.occurrence) product
    return (new, .product product.id.value)
  | .update name slug description productType tags => do
    let details ← updatedDetails ops product.details description productType tags
    let new ← called (Product.update name slug draw.occurrence) product
    let new ← called (Product.setDetails details) new
    return (new, .product product.id.value)

def createVariants (draw : Draw) (inputs : List VariantInput) :
    Except DomainError (List Variant) :=
  inputs.zipIdx.mapM fun (input, index) => do
    let sku ← Sku.create input.sku
    let price ← Money.create input.priceAmountMinor input.currency
    let attributes ← toVariantAttributes input.attributes input.currency
      DEFAULT_VARIANT_ATTRIBUTES
    Variant.create (draw.variantIds index) sku price none attributes none

def CreateProduct.product (ops : TextOps) (draw : Draw) (input : CreateProductInput) :
    Except DomainError Product := do
  let sku ← Sku.create input.sku
  let slug ← Slug.create input.slug
  if input.variants = [] then
    throw (.validation "A product needs at least one variant"
      [⟨"variants", "at least one is required"⟩])
  if 1 < (distinctValues (input.variants.map (·.currency))).length then
    throw (.validation "All variants of a product must use the same currency"
      [⟨"variants", "must share one currency"⟩])
  let variants ← createVariants draw input.variants
  let media ← input.mediaAssetIds.mapM MediaRef.create
  let details ← createDetails ops input.description input.productType input.tags
  Product.create draw.id ⟨sku, input.name, slug, variants, some media, some details⟩
    draw.occurrence

structure ProductColumns where
  id : UniqueEntityId
  sku : Sku
  name : String
  slug : Slug
  status : PublishState
  options : List ProductOption
  media : List MediaRef
  deletedAt : Option ℤ
  details : ProductDetails

structure VariantRow where
  productId : UniqueEntityId
  variant : Variant

namespace ProductMapper

def toDomain (row : VersionedTable.Row ProductColumns) (variants : List Variant) : Product :=
  { id := row.value.id
    version := row.version
    sku := row.value.sku
    name := row.value.name
    slug := row.value.slug
    status := row.value.status
    options := row.value.options
    variants
    media := row.value.media
    deleted := row.value.deletedAt.isSome
    details := row.value.details
    domainEvents := [] }

def toProductRow (product : Product) (now : ℤ) : ProductColumns :=
  { id := product.id
    sku := product.sku
    name := product.name
    slug := product.slug
    status := product.status
    options := product.options
    media := product.media
    deletedAt := if product.deleted then some now else none
    details := product.details }

end ProductMapper

def productSchema : VersionedTable.Schema ProductColumns String where
  key columns := columns.id.value
  clash _ _ := false
  storable _ := true

def productClashes (table : VersionedTable.Table ProductColumns) (columns : ProductColumns) :
    Bool :=
  table.any fun row => row.value.id != columns.id &&
    (row.value.sku == columns.sku || row.value.slug == columns.slug)

/-- The tables of one shop with the outbox, and the currencies that the shop has been changed to,
the first one first. -/
structure Shared where
  products : VersionedTable.Store ProductColumns (List ProductEvent)
  variants : List VariantRow
  relabels : List String

def findProduct (s : Shared) (id : String) : Option (VersionedTable.Row ProductColumns) :=
  s.products.table.find? fun row => row.value.id.value == id && row.value.deletedAt.isNone

def variantsOf (rows : List VariantRow) (productId : String) : List Variant :=
  (rows.filter fun row => row.productId.value == productId).map (·.variant)

def writeVariant (productId : UniqueEntityId) (rows : List VariantRow) (variant : Variant) :
    Option (List VariantRow) :=
  if rows.any fun row => row.variant.id != variant.id && row.variant.sku == variant.sku then none
  else if rows.any fun row => row.variant.id == variant.id then
    some (rows.map fun row => if row.variant.id = variant.id then ⟨productId, variant⟩ else row)
  else some (rows ++ [⟨productId, variant⟩])

def writeVariants (rows : List VariantRow) (product : Product) : Option (List VariantRow) :=
  product.variants.foldlM (writeVariant product.id) (rows.filter fun row =>
    !(row.productId == product.id && !(product.variants.any fun v => v.id == row.variant.id)))

/-- Everything that a save writes, or nothing. -/
def save (s : Shared) (product : Product) (now : ℤ) : Option Shared :=
  if productClashes s.products.table (ProductMapper.toProductRow product now) then none
  else do
    let products ← VersionedTable.save productSchema s.products
      ⟨⟨ProductMapper.toProductRow product now, product.version⟩, product.domainEvents⟩
    let variants ← writeVariants s.variants product
    return { s with products, variants }

abbrev CurrencyCode := { currency : String // isValidCurrencyCode currency = true }

/-- The ids that the statement finds when it begins: its condition is looked at again when it
comes to write, but rows that are committed in between are not. -/
def findOthers (rows : List VariantRow) (currency : String) : List UniqueEntityId :=
  (rows.filter fun row => row.variant.price.currency != currency).map (·.variant.id)

def relabelRow (currency : CurrencyCode) (found : List UniqueEntityId) (row : VariantRow) :
    VariantRow :=
  if row.variant.id ∈ found then
    { row with variant := row.variant.relabelled currency.1 currency.2 }
  else row

def relabelRows (rows : List VariantRow) (currency : CurrencyCode)
    (found : List UniqueEntityId) : List VariantRow :=
  rows.map (relabelRow currency found)

def relabelCount (rows : List VariantRow) (currency : CurrencyCode)
    (found : List UniqueEntityId) : ℕ :=
  rows.countP fun row => decide (row.variant.id ∈ found) &&
    row.variant.price.currency != currency.1

/-- Where a call stands. A product is found before its variants are read, and saved in a later
turn; `seen` counts the changes of the currency that the reading of the variants came after. -/
inductive Point where
  | requested (request : Request)
  | finding (productId : String) (change : Change)
  | loading (row : VersionedTable.Row ProductColumns) (change : Change)
  | creating (new : Product)
  | saving (change : Change) (read new : Product) (seen : ℕ) (output : Output)
  | relabelling (currency : CurrencyCode) (found : List UniqueEntityId)
  | answered (result : Except DomainError Output)
  | thrown

/-- The checks of the input before the transaction. -/
def Edit.check : Edit → Except DomainError Change
  | .addVariant variant selection => do
    let sku ← Sku.create variant.sku
    let price ← Money.create variant.priceAmountMinor variant.currency
    let attributes ← toVariantAttributes variant.attributes variant.currency
      DEFAULT_VARIANT_ATTRIBUTES
    let selection ← match selection with
      | none => pure none
      | some values => (VariantSelection.create values).map some
    return .addVariant sku price attributes selection
  | .updateVariant variantId variant selection => do
    let sku ← Sku.create variant.sku
    let price ← Money.create variant.priceAmountMinor variant.currency
    return .updateVariant variantId sku price variant.attributes selection
  | .removeVariant variantId => .ok (.removeVariant variantId)
  | .update name slug description productType tags => do
    let slug ← Slug.create slug
    return .update name slug description productType tags

def begin (ops : TextOps) (draw : Draw) (s : Shared) : Request → Point
  | .create input =>
    match CreateProduct.product ops draw input with
    | .error e => .answered (.error e)
    | .ok product => .creating product
  | .edit productId edit =>
    match edit.check with
    | .error e => .answered (.error e)
    | .ok change => .finding productId change
  | .relabel currency =>
    if valid : isValidCurrencyCode currency = true then
      .relabelling ⟨currency, valid⟩ (findOthers s.variants currency)
    else .answered (.error (.validation "Invalid currency"
      [⟨"currency", "must be a 3-letter ISO-4217 code"⟩]))

def load (ops : TextOps) (draw : Draw) (s : Shared) (row : VersionedTable.Row ProductColumns)
    (change : Change) : Point :=
  let product := ProductMapper.toDomain row (variantsOf s.variants row.value.id.value)
  match change.apply ops draw product with
  | .error e => .answered (.error e)
  | .ok (new, output) => .saving change product new s.relabels.length output

def settle (s : Shared) (new : Product) (now : ℤ) (output : Output) : Point × Shared :=
  match save s new now with
  | none => (.thrown, s)
  | some s' => (.answered (.ok output), s')

def program (ops : TextOps) : Program Shared Point Draw := fun point draw s =>
  match point with
  | .requested request => some (begin ops draw s request, s)
  | .finding productId change =>
    match findProduct s productId with
    | none => some (.answered (.error (.notFound "Product not found")), s)
    | some row => some (.loading row change, s)
  | .loading row change => some (load ops draw s row change, s)
  | .creating new => some (settle s new draw.now (.product new.id.value))
  | .saving _ _ new _ output => some (settle s new draw.now output)
  | .relabelling currency found =>
    some (.answered (.ok (.relabelled (relabelCount s.variants currency found))),
      { s with
        variants := relabelRows s.variants currency found
        relabels := s.relabels ++ [currency.1] })
  | .answered _ | .thrown => none

/-- The shop has no product yet, and every call is still to be made. -/
def initial {ι : Type} (requests : ι → Request) : State Shared Point ι :=
  ⟨⟨⟨[], []⟩, [], []⟩, fun c => .live (.requested (requests c))⟩

end CatalogStorage
