import Lumo.OrderedMap
import Lumo.PromotionsPromotion

/-! # The discount calculator

Which discounts a cart gets, and how much each one takes off. Amounts are computed as exact
numbers; only the loop over the uses of buy X get Y needs fuel. -/
namespace Promotions

open SharedKernel Builtins

inductive DiscountRejection where
  | notFound
  | expired
  | notStarted
  | minimumNotMet
  | noMatchingItems
  | notEligible
  | usageLimitReached
  | alreadyUsed
  | cannotCombine
  | tooManyCodes

def maxDiscountCodes : ℕ := 5

structure DiscountLine where
  lineRef : String
  productRef : String
  categoryRefs : List String
  quantity : ℕ
  unitPriceMinor : ℕ

structure DiscountShipping where
  countryCode : String
  rateMinor : ℕ

structure DiscountCustomer where
  customerRef : Option String
  email : Option String

inductive CouponStateStatus where
  | active
  | disabled
  | expired
  | depleted

structure CouponUse where
  customerRef : String
  email : Option String

structure CouponState where
  couponId : String
  code : String
  status : CouponStateStatus
  usageLimit : Option ℤ
  usageCount : ℕ
  oncePerCustomer : Bool
  assignedCustomerRef : Option String
  expiresAt : Option ℤ
  redemptions : List CouponUse

structure DiscountCandidate where
  promotion : Promotion
  coupon : Option CouponState

structure CalculateDiscountsInput where
  lines : List DiscountLine
  shipping : Option DiscountShipping
  customer : DiscountCustomer
  enteredCodes : List String
  candidates : List DiscountCandidate
  now : ℤ

structure AppliedDiscount where
  promotionId : String
  couponId : Option String
  code : Option String
  title : String
  discountClass : DiscountClass
  amountMinor : ℚ

structure DiscountCodeStatus where
  code : String
  applicable : Bool
  reason : Option DiscountRejection

structure LineAllocation where
  lineRef : String
  amountMinor : ℚ

structure DiscountResult where
  applied : List AppliedDiscount
  orderDiscountMinor : ℚ
  shippingDiscountMinor : ℚ
  codeStatuses : List DiscountCodeStatus
  lineAllocations : List LineAllocation

structure Eligible where
  candidate : DiscountCandidate
  promotionId : String
  code : Option String
  discountClass : DiscountClass
  combinesWith : CombinesWith

def classOrder : DiscountClass → ℕ
  | .product => 0
  | .order => 1
  | .shipping => 2

/-- Above this many eligible discounts the best set is chosen greedily. -/
def exhaustiveLimit : ℕ := 10

def percentOf (amountMinor percentage : ℚ) : ℚ :=
  ⌊amountMinor * mathRound (percentage * 100) / 10000⌋

def lineTotal (line : DiscountLine) : ℚ := line.unitPriceMinor * line.quantity

def matchingLines (lines : List DiscountLine) (scope : PromotionScope)
    (targetRefs : List String) : List DiscountLine :=
  if scope = .cart ∨ targetRefs = [] then lines
  else if scope = .product then lines.filter fun line => targetRefs.contains line.productRef
  else lines.filter fun line => line.categoryRefs.any fun ref => targetRefs.contains ref

section Eligibility

variable (text : TextOps)

/-- The form every code is compared in. -/
def normalizeDiscountCode (code : String) : String := text.toUpperCase (trim code)

def usedBy (coupon : CouponState) (customer : DiscountCustomer) : Bool :=
  let email := customer.email.map text.toLowerCase
  coupon.redemptions.any fun r =>
    customer.customerRef == some r.customerRef ||
      (email.isSome && r.email.map text.toLowerCase == email)

def subtotal (lines : List DiscountLine) : ℚ := (lines.map lineTotal).sum

def itemCount (lines : List DiscountLine) : ℚ := (lines.map fun line => (line.quantity : ℚ)).sum

def refusesShipping (reward : PromotionRewardProps) (shipping : DiscountShipping) : Bool :=
  (reward.countries.any fun countries => !countries.any fun allowed =>
      text.toUpperCase allowed == text.toUpperCase shipping.countryCode) ||
    reward.maxShippingRateMinor.any fun maximum : ℚ => maximum < shipping.rateMinor

/-- What the cart must contain, and the minimum purchase; `none` when satisfied. -/
def requirementRejection (promotion : Promotion) (input : CalculateDiscountsInput) :
    Option DiscountRejection :=
  let condition := promotion.rule.condition
  let reward := promotion.rule.reward.props
  let matched := matchingLines input.lines condition.scope condition.targetRefs
  if reward.type = .freeShipping ∧ input.shipping.any (refusesShipping text reward) then
    some .notEligible
  else if promotion.rule.type = .buyXGetY then
    match reward.buys, reward.gets with
    | some buys, some gets =>
      if matched = [] ∨ matchingLines input.lines gets.scope.toScope gets.targetRefs = [] then
        some .noMatchingItems
      else
        let bought := match buys.kind with
          | .quantity => itemCount matched
          | .amount => subtotal matched
        if bought < buys.value then some .minimumNotMet else none
    | _, _ => some .noMatchingItems
  else if promotion.discountClass = .product ∧ matched = [] then some .noMatchingItems
  else
    let base := if promotion.discountClass = .product then matched else input.lines
    if condition.minimumSubtotalAmountMinor.any (fun minimum => subtotal base < minimum) then
      some .minimumNotMet
    else if condition.minimumQuantity.any (fun minimum => itemCount base < minimum) then
      some .minimumNotMet
    else none

def couponRejection (coupon : CouponState) (now : ℤ) : Option DiscountRejection :=
  match coupon.status with
  | .disabled => some .notFound
  | .expired => some .expired
  | .depleted => some .usageLimitReached
  | .active => if coupon.expiresAt.any (fun expiresAt => expiresAt ≤ now) then some .expired
    else none

def statusRejection : PromotionStatusValue → Option DiscountRejection
  | .draft | .cancelled | .archived => some .notFound
  | .paused | .expired => some .expired
  | .depleted => some .usageLimitReached
  | .active | .scheduled => none

def scheduleRejection (schedule : PromotionSchedule) (now : ℤ) : Option DiscountRejection :=
  if now < schedule.startsAt then some .notStarted
  else if schedule.isExpiredAt now then some .expired
  else none

def customerRejection (eligibility : CustomerEligibility) (coupon : Option CouponState)
    (customer : DiscountCustomer) : Option DiscountRejection :=
  if (eligibility.customerRefs.isSome ∨ eligibility.segmentRefs.isSome) ∧
      ¬ (customer.customerRef.any fun ref =>
        eligibility.customerRefs.any fun customerRefs => customerRefs.contains ref) then
    some .notEligible
  else if coupon.any (fun coupon =>
      coupon.assignedCustomerRef.isSome && coupon.assignedCustomerRef != customer.customerRef) then
    some .notEligible
  else none

def usageRejection (promotion : Promotion) (coupon : Option CouponState)
    (customer : DiscountCustomer) : Option DiscountRejection :=
  if promotion.usageLimit.any (fun limit : ℤ => limit ≤ promotion.usageCount) then
    some .usageLimitReached
  else if coupon.any (fun coupon =>
      coupon.usageLimit.any fun limit : ℤ => limit ≤ coupon.usageCount) then
    some .usageLimitReached
  else if coupon.any (fun coupon => coupon.oncePerCustomer && usedBy text coupon customer) then
    some .alreadyUsed
  else none

/-- The first check that fails, in the order the checks are made. -/
def rejectionFor (candidate : DiscountCandidate) (input : CalculateDiscountsInput) :
    Option DiscountRejection :=
  (candidate.coupon.bind fun coupon => couponRejection coupon input.now) <|>
    statusRejection candidate.promotion.status <|>
    scheduleRejection candidate.promotion.schedule input.now <|>
    customerRejection candidate.promotion.eligibility candidate.coupon input.customer <|>
    usageRejection text candidate.promotion candidate.coupon input.customer <|>
    requirementRejection text candidate.promotion input

end Eligibility

/-- What is left of a line; nothing of a line that is not there. -/
def amountOf (amounts : OrderedMap String ℚ) (ref : String) : ℚ := (amounts.find? ref).getD 0

structure Base where
  ref : String
  amount : ℚ
  quantity : ℕ

structure Share where
  ref : String
  index : ℕ
  value : ℚ
  fraction : ℚ

def shareOf (total sum : ℚ) (b : Base) (index : ℕ) : Share where
  ref := b.ref
  index := index
  value := ⌊total * b.amount / sum⌋
  fraction := total * b.amount / sum - ⌊total * b.amount / sum⌋

/-- `b.fraction - a.fraction || a.index - b.index`. -/
def compareShares (a b : Share) : ℚ :=
  if b.fraction - a.fraction = 0 then (a.index : ℚ) - b.index else b.fraction - a.fraction

def handOut : ℚ → List Share → List ℕ
  | _, [] => []
  | left, share :: rest => if left = 0 then [] else share.index :: handOut (left - 1) rest

/-- Leftover units go to the largest remainders. -/
def allocate (total : ℚ) (base : List Base) : OrderedMap String ℚ :=
  let sum := (base.map (·.amount)).sum
  if total ≤ 0 ∨ sum ≤ 0 then OrderedMap.ofEntries (base.map fun b => (b.ref, 0))
  else
    let shares := base.zipIdx.map fun b => shareOf total sum b.1 b.2
    let left := total - (shares.map (·.value)).sum
    let more := handOut left (sortBy compareShares shares)
    OrderedMap.ofEntries (shares.map fun share =>
      (share.ref, if share.index ∈ more then share.value + 1 else share.value))

structure Item where
  ref : String
  price : ℚ
  index : ℕ

def itemsOf (lines : List DiscountLine) (remaining : OrderedMap String ℚ) : List Item :=
  (lines.flatMap fun line => List.replicate line.quantity
    (line.lineRef, (⌊amountOf remaining line.lineRef / line.quantity⌋ : ℚ))).zipIdx.map
      fun u => ⟨u.1.1, u.1.2, u.2⟩

def compareBy (first second : ℚ) (a b : Item) : ℚ :=
  if first - second = 0 then (a.index : ℚ) - b.index else first - second

def unused (used : List ℕ) (items : List Item) : List Item :=
  items.filter fun i => !used.contains i.index

/-- The uses of a promotion that counts items: some are bought, the next ones are got. -/
def getsByQuantity (maxUsesPerOrder : Option ℚ) (buys gets : ℚ) (buysOrder getsOrder : List Item) :
    ℕ → List ℕ → List Item → ℕ → Option (List Item)
  | 0, _, _, _ => none
  | fuel + 1, used, got, uses =>
    if maxUsesPerOrder.any (fun maxUses : ℚ => maxUses ≤ uses) then some got
    else
      let bought := slice (unused used buysOrder) buys
      if (bought.length : ℚ) < buys then some got
      else
        let used := used ++ bought.map (·.index)
        let free := slice (unused used getsOrder) gets
        if (free.length : ℚ) < gets then some got
        else getsByQuantity maxUsesPerOrder buys gets buysOrder getsOrder fuel
          (used ++ free.map (·.index)) (got ++ free) (uses + 1)

def getsByAmount (maxUsesPerOrder : Option ℚ) (buys gets total : ℚ) (buysRefs : List String)
    (getsOrder : List Item) : List Item :=
  let free := slice getsOrder gets
  let freeAmountFromBuys :=
    ((free.filter fun i => buysRefs.contains i.ref).map (·.price)).sum
  if buys ≤ total - freeAmountFromBuys ∧ maxUsesPerOrder.all (fun maxUses => 1 ≤ maxUses) ∧
      (free.length : ℚ) = gets then free
  else []

def itemOff (effect : GetsEffect) (price : ℚ) : ℚ :=
  match effect with
  | .free => price
  | .percentage value => percentOf price value

/-- What the items got take off each line, never more than is left of it. -/
def takeItems (effect : GetsEffect) (remaining : OrderedMap String ℚ) (got : List Item) :
    OrderedMap String ℚ :=
  (got.foldl (fun result i => result.set i.ref (amountOf result i.ref + itemOff effect i.price))
    OrderedMap.empty).mapValues fun ref amount => min amount (amountOf remaining ref)

def buyXGetYDiscounts (fuel : ℕ) (promotion : Promotion) (lines : List DiscountLine)
    (remaining : OrderedMap String ℚ) : Option (OrderedMap String ℚ) :=
  let rule := promotion.rule
  match rule.reward.props.buys, rule.reward.props.gets with
  | some buys, some gets =>
    let maxUses := rule.reward.props.maxUsesPerOrder
    let buysRefs :=
      (matchingLines lines rule.condition.scope rule.condition.targetRefs).map (·.lineRef)
    let getsRefs := (matchingLines lines gets.scope.toScope gets.targetRefs).map (·.lineRef)
    let items := itemsOf lines remaining
    let getsOrder := sortBy (fun a b => compareBy a.price b.price a b)
      (items.filter fun i => getsRefs.contains i.ref)
    let buysOrder := sortBy (fun a b => compareBy b.price a.price a b)
      (items.filter fun i => buysRefs.contains i.ref)
    match buys.kind with
    | .amount =>
      let total := ((lines.filter fun line => buysRefs.contains line.lineRef).map fun line =>
        amountOf remaining line.lineRef).sum
      some (takeItems gets.effect remaining
        (getsByAmount maxUses buys.value gets.quantity total buysRefs getsOrder))
    | .quantity =>
      (getsByQuantity maxUses buys.value gets.quantity buysOrder getsOrder fuel [] [] 0).map
        (takeItems gets.effect remaining)
  | _, _ => some OrderedMap.empty

/-- What one product or order discount takes off each line, given what is left of each line. -/
def lineDiscounts (fuel : ℕ) (promotion : Promotion) (lines : List DiscountLine)
    (remaining : OrderedMap String ℚ) : Option (OrderedMap String ℚ) :=
  let rule := promotion.rule
  if rule.type = .buyXGetY then buyXGetYDiscounts fuel promotion lines remaining
  else
    let isProduct := promotion.discountClass = .product
    let targets := if isProduct then
        matchingLines lines rule.condition.scope rule.condition.targetRefs
      else lines
    let base : List Base := targets.map fun line =>
      ⟨line.lineRef, amountOf remaining line.lineRef, line.quantity⟩
    let total := (base.map (·.amount)).sum
    let value := rule.reward.props.value.getD 0
    if rule.reward.props.type = .percentage then
      if isProduct then
        some (OrderedMap.ofEntries (base.map fun b => (b.ref, percentOf b.amount value)))
      else some (allocate (percentOf total value) base)
    else if isProduct ∧ rule.reward.props.appliesOncePerOrder ≠ some true then
      some (OrderedMap.ofEntries (base.map fun b => (b.ref, min b.amount (value * b.quantity))))
    else some (allocate (min value total) base)

structure Application where
  applied : List AppliedDiscount
  allocations : OrderedMap String ℚ
  total : ℚ

/-- The amounts that `applySet` keeps while it goes through the discounts. -/
structure Amounts where
  remaining : OrderedMap String ℚ
  allocations : OrderedMap String ℚ
  shippingLeft : ℚ
  applied : List AppliedDiscount

/-- One discount takes `off` from a line; a line it takes nothing from is left alone. -/
def takeOff (state : OrderedMap String ℚ × OrderedMap String ℚ × ℚ) (off : String × ℚ) :
    OrderedMap String ℚ × OrderedMap String ℚ × ℚ :=
  if off.2 ≤ 0 then state
  else (state.1.set off.1 (amountOf state.1 off.1 - off.2),
    state.2.1.set off.1 (amountOf state.2.1 off.1 + off.2), state.2.2 + off.2)

def appliedDiscount (entry : Eligible) (amount : ℚ) : AppliedDiscount where
  promotionId := entry.promotionId
  couponId := entry.candidate.coupon.map (·.couponId)
  code := entry.code
  title := entry.candidate.promotion.name
  discountClass := entry.discountClass
  amountMinor := amount

def applyEntry (fuel : ℕ) (lines : List DiscountLine) (amounts : Amounts) (entry : Eligible) :
    Option Amounts :=
  if entry.discountClass = .shipping then
    some { amounts with
      shippingLeft := 0
      applied := amounts.applied ++ [appliedDiscount entry amounts.shippingLeft] }
  else do
    let off ← lineDiscounts fuel entry.candidate.promotion lines amounts.remaining
    let (remaining, allocations, amount) :=
      off.entries.foldl takeOff (amounts.remaining, amounts.allocations, 0)
    some { amounts with
      remaining := remaining
      allocations := allocations
      applied := amounts.applied ++ [appliedDiscount entry amount] }

def startAmounts (input : CalculateDiscountsInput) : Amounts where
  remaining := OrderedMap.ofEntries (input.lines.map fun line => (line.lineRef, lineTotal line))
  allocations := OrderedMap.empty
  shippingLeft := (input.shipping.map fun shipping => (shipping.rateMinor : ℚ)).getD 0
  applied := []

section Calculation

variable (text : TextOps)

def compareEntries (a b : Eligible) : ℚ :=
  if classOrder a.discountClass = classOrder b.discountClass then
    text.localeCompare a.promotionId b.promotionId
  else (classOrder a.discountClass : ℚ) - classOrder b.discountClass

/-- Applies a compatible set in order: product, then order, then shipping. -/
def applySet (fuel : ℕ) (set : List Eligible) (input : CalculateDiscountsInput) :
    Option Application := do
  let amounts ← (sortBy (compareEntries text) set).foldlM (applyEntry fuel input.lines)
    (startAmounts input)
  some ⟨amounts.applied, amounts.allocations, (amounts.applied.map (·.amountMinor)).sum⟩

/-- Two discounts combine only when each allows the other's class. -/
def canCombine (a b : Eligible) : Bool :=
  a.combinesWith.allows b.discountClass && b.combinesWith.allows a.discountClass

def isCompatible : List Eligible → Bool
  | [] => true
  | entry :: rest => rest.all (canCombine entry) && isCompatible rest

structure Chosen extends Application where
  set : List Eligible

def Chosen.codeCount (a : Chosen) : ℕ := (a.set.filter (·.code.isSome)).length

def Chosen.key (a : Chosen) : String :=
  String.intercalate "|" (sortBy (fun a b => if lessThan b a then 1 else 0)
    (a.set.map (·.promotionId)))

/-- Larger saving wins; then more entered codes; then the smaller key. -/
def isBetter (a b : Chosen) : Bool :=
  if a.total ≠ b.total then b.total < a.total
  else if a.codeCount ≠ b.codeCount then b.codeCount < a.codeCount
  else lessThan a.key b.key

def choose (fuel : ℕ) (input : CalculateDiscountsInput) (set : List Eligible) : Option Chosen := do
  let application ← applySet text fuel set input
  some ⟨application, set⟩

def subsetOf (eligible : List Eligible) (mask : ℕ) : List Eligible :=
  (eligible.zipIdx.filter fun e => mask.testBit e.2).map Prod.fst

def tryMask (fuel : ℕ) (eligible : List Eligible) (input : CalculateDiscountsInput) (best : Chosen)
    (mask : ℕ) : Option Chosen :=
  let set := subsetOf eligible mask
  if isCompatible set then do
    let candidate ← choose text fuel input set
    some (if isBetter candidate best then candidate else best)
  else some best

def withSaving (fuel : ℕ) (input : CalculateDiscountsInput) (entry : Eligible) :
    Option (Eligible × ℚ) := do
  let application ← applySet text fuel [entry] input
  some (entry, application.total)

def addCompatible (set : List Eligible) (entry : Eligible) : List Eligible :=
  if isCompatible (set ++ [entry]) then set ++ [entry] else set

def bestSet (fuel : ℕ) (eligible : List Eligible) (input : CalculateDiscountsInput) :
    Option Chosen :=
  if eligible.length ≤ exhaustiveLimit then do
    let none ← choose text fuel input []
    (List.range' 1 (2 ^ eligible.length - 1)).foldlM (tryMask text fuel eligible input) none
  else do
    let savings ← eligible.mapM (withSaving text fuel input)
    let bySaving := (sortBy (fun a b => b.2 - a.2) savings).map Prod.fst
    choose text fuel input (bySaving.foldl addCompatible [])

inductive Consideration where
  | skipped
  | rejected (code : Option String) (reason : DiscountRejection)
  | eligible (entry : Eligible)

def couponCode (candidate : DiscountCandidate) : Option String :=
  candidate.coupon.map fun coupon => normalizeDiscountCode text coupon.code

def consider (activeCodes : List String) (input : CalculateDiscountsInput)
    (candidate : DiscountCandidate) : Consideration :=
  let code := couponCode text candidate
  if code.any (fun code => !activeCodes.contains code) then .skipped
  else if code.isNone ∧ candidate.promotion.method ≠ some .automatic then .skipped
  else match rejectionFor text candidate input with
    | some reason => .rejected code reason
    | none => .eligible
      { candidate := candidate
        promotionId := candidate.promotion.id.value
        code := code
        discountClass := candidate.promotion.discountClass
        combinesWith := candidate.promotion.combinesWith }

def Consideration.entry? : Consideration → Option Eligible
  | .eligible entry => some entry
  | _ => none

def Consideration.rejection? : Consideration → Option (String × DiscountRejection)
  | .rejected (some code) reason => some (code, reason)
  | _ => none

def enteredCodes (input : CalculateDiscountsInput) : List String :=
  (distinctValues (input.enteredCodes.map (normalizeDiscountCode text))).filter (· != "")

def considerations (input : CalculateDiscountsInput) : List Consideration :=
  input.candidates.map (consider text ((enteredCodes text input).take maxDiscountCodes) input)

/-- The discounts that may apply to this cart. -/
def eligibleFor (input : CalculateDiscountsInput) : List Eligible :=
  (considerations text input).filterMap Consideration.entry?

def rejectionsFor (input : CalculateDiscountsInput) : OrderedMap String DiscountRejection :=
  OrderedMap.ofEntries ((considerations text input).filterMap Consideration.rejection?)

def emptyCodes (input : CalculateDiscountsInput) (applied : List AppliedDiscount) : List String :=
  (applied.filter fun a =>
    a.amountMinor == 0 && (a.discountClass != .shipping || input.shipping.isSome)).filterMap (·.code)

def keepsApplied (empty : List String) (a : AppliedDiscount) : Bool :=
  match a.code with
  | none => 0 < a.amountMinor
  | some code => !empty.contains code

def codeStatus (eligible : List Eligible) (rejections : OrderedMap String DiscountRejection)
    (best : Chosen) (empty : List String) (code : String) (index : ℕ) : DiscountCodeStatus :=
  if maxDiscountCodes ≤ index then ⟨code, false, some .tooManyCodes⟩
  else if empty.contains code then ⟨code, false, some .noMatchingItems⟩
  else if (best.set.filterMap (·.code)).contains code then ⟨code, true, none⟩
  else match rejections.find? code with
    | some rejection => ⟨code, false, some rejection⟩
    | none =>
      if eligible.any (fun e => e.code == some code) then ⟨code, false, some .cannotCombine⟩
      else ⟨code, false, some .notFound⟩

def discountTotal (keep : DiscountClass → Bool) (applied : List AppliedDiscount) : ℚ :=
  ((applied.filter fun a => keep a.discountClass).map (·.amountMinor)).sum

def calculateDiscounts (fuel : ℕ) (input : CalculateDiscountsInput) : Option DiscountResult := do
  let eligible := eligibleFor text input
  let best ← bestSet text fuel eligible input
  let empty := emptyCodes input best.applied
  let applied := best.applied.filter (keepsApplied empty)
  some
    { applied := applied
      orderDiscountMinor := discountTotal (· != .shipping) applied
      shippingDiscountMinor := discountTotal (· == .shipping) applied
      codeStatuses := (enteredCodes text input).zipIdx.map fun c =>
        codeStatus eligible (rejectionsFor text input) best empty c.1 c.2
      lineAllocations := (input.lines.map fun line =>
        (⟨line.lineRef, amountOf best.allocations line.lineRef⟩ : LineAllocation)).filter
          fun allocation => 0 < allocation.amountMinor }

end Calculation

/-! A small cart, and ten per cent off the order. -/

def sampleText : TextOps where
  toUpperCase := toUpperCase
  toLowerCase := id
  localeCompare a b := if lessThan a b then -1 else if lessThan b a then 1 else 0

def sampleLines : List DiscountLine :=
  [⟨"0", "tea", [], 1, 333⟩, ⟨"1", "pot", [], 1, 333⟩, ⟨"2", "cup", [], 1, 334⟩]

def tenPercentOff : PromotionRule where
  type := .automatic
  condition := ⟨.cart, [], none, none⟩
  reward := ⟨{ type := .percentage, value := some 10 }, by decide⟩
  stackable := false
  priority := 0
  valid := by decide
  priority_nonneg := by decide

def samplePromotionId : UniqueEntityId := ⟨"promotion-1", by decide⟩

def samplePromotion (rule : PromotionRule) : Promotion :=
  { Promotion.create samplePromotionId "Sale" rule ⟨0, none⟩ .everyone none (some .automatic)
      none with status := .active }

def cartWith (rule : PromotionRule) : CalculateDiscountsInput where
  lines := sampleLines
  shipping := none
  customer := ⟨none, none⟩
  enteredCodes := []
  candidates := [⟨samplePromotion rule, none⟩]
  now := 1

end Promotions
