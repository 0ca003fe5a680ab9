import Lumo.Builtins

/-! # Promotion rules: the condition, the reward and their validation -/
namespace Promotions

open SharedKernel Builtins

inductive PromotionRuleType where
  | automatic
  | buyXGetY
  deriving DecidableEq

inductive PromotionRewardType where
  | percentage
  | fixedAmount
  | freeShipping
  | buyXGetY
  deriving DecidableEq

inductive PromotionScope where
  | cart
  | product
  | category
  deriving DecidableEq

structure PromotionCondition where
  scope : PromotionScope
  targetRefs : List String
  minimumQuantity : Option ℚ
  minimumSubtotalAmountMinor : Option ℚ

inductive BuysKind where
  | quantity
  | amount

structure BuyXGetYBuys where
  kind : BuysKind
  value : ℚ

inductive GetsScope where
  | product
  | category

def GetsScope.toScope : GetsScope → PromotionScope
  | .product => .product
  | .category => .category

inductive GetsEffect where
  | percentage (value : ℚ)
  | free

structure BuyXGetYGets where
  quantity : ℚ
  scope : GetsScope
  targetRefs : List String
  effect : GetsEffect

structure PromotionRewardProps where
  type : PromotionRewardType
  value : Option ℚ := none
  buyQuantity : Option ℚ := none
  getQuantity : Option ℚ := none
  appliesOncePerOrder : Option Bool := none
  countries : Option (List String) := none
  maxShippingRateMinor : Option ℚ := none
  buys : Option BuyXGetYBuys := none
  gets : Option BuyXGetYGets := none
  maxUsesPerOrder : Option ℚ := none

def isPositiveInteger (value : Option ℚ) : Bool :=
  value.any fun v => isInteger v && 0 < v

/-- The pattern `^[A-Z]{2}$`. -/
def isCountryCode (value : String) : Bool :=
  value.toList.length == 2 && value.toList.all fun c => 'A' ≤ c && c ≤ 'Z'

def percentageIssues (props : PromotionRewardProps) : List FieldIssue :=
  if props.value.all (fun v => v < 0 || 100 < v) then
    [⟨"value", "percentage reward must be 0-100"⟩]
  else []

def fixedAmountIssues (props : PromotionRewardProps) : List FieldIssue :=
  if props.value.any (fun v => !isInteger v || v < 0) then
    [⟨"value", "fixed amount must be a whole number of minor units"⟩]
  else []

def getsIssues : Option BuyXGetYGets → List FieldIssue
  | none => [⟨"gets", "must say which items and how many the customer gets"⟩]
  | some gets =>
    if !isPositiveInteger (some gets.quantity) || gets.targetRefs.isEmpty then
      [⟨"gets", "must say which items and how many the customer gets"⟩]
    else
      match gets.effect with
      | .percentage value =>
        if value ≤ 0 || 100 < value then [⟨"gets.effect", "percentage must be 0-100"⟩] else []
      | .free => []

def buyXGetYIssues (props : PromotionRewardProps) : List FieldIssue :=
  (if !isPositiveInteger (props.buys.map (·.value)) then
      [⟨"buys", "must say how much the customer buys"⟩] else []) ++
    getsIssues props.gets ++
    if props.maxUsesPerOrder.isSome && !isPositiveInteger props.maxUsesPerOrder then
      [⟨"maxUsesPerOrder", "must be a positive whole number"⟩] else []

def freeShippingIssues (props : PromotionRewardProps) : List FieldIssue :=
  (if props.countries.any (fun countries => countries.any fun c => !isCountryCode c) then
      [⟨"countries", "must be ISO 3166-1 alpha-2 codes"⟩] else []) ++
    if props.maxShippingRateMinor.any (fun v => !isInteger v || v < 0) then
      [⟨"maxShippingRateMinor", "must be a whole number of minor units"⟩] else []

def rewardIssues (props : PromotionRewardProps) : List FieldIssue :=
  match props.type with
  | .percentage => percentageIssues props
  | .fixedAmount => fixedAmountIssues props
  | .buyXGetY => buyXGetYIssues props
  | .freeShipping => freeShippingIssues props

structure PromotionReward where
  props : PromotionRewardProps
  valid : rewardIssues props = []

def PromotionReward.create (props : PromotionRewardProps) : Except DomainError PromotionReward :=
  if h : rewardIssues props = [] then .ok ⟨props, h⟩
  else .error (.validation "Invalid promotion reward" (rewardIssues props))

/-- What `PromotionRule.create` asks of a reward for this type of rule. -/
def ruleIssue (type : PromotionRuleType) (reward : PromotionRewardProps) : Option FieldIssue :=
  if type = .buyXGetY ∧ reward.type ≠ .buyXGetY ∧
      (reward.buyQuantity.isNone ∨ reward.getQuantity.isNone) then
    some ⟨"reward", "buy_x_get_y requires buyQuantity and getQuantity"⟩
  else if reward.type = .buyXGetY ∧ type ≠ .buyXGetY then
    some ⟨"ruleType", "a buy X get Y reward needs the buy_x_get_y rule type"⟩
  else none

structure PromotionRule where
  type : PromotionRuleType
  condition : PromotionCondition
  reward : PromotionReward
  stackable : Bool
  priority : ℚ
  valid : ruleIssue type reward.props = none
  priority_nonneg : ¬ priority < 0

def PromotionRule.create (type : PromotionRuleType) (condition : PromotionCondition)
    (reward : PromotionReward) (stackable : Bool) (priority : ℚ) :
    Except DomainError PromotionRule :=
  match h : ruleIssue type reward.props with
  | some issue => .error (.validation "Invalid promotion rule" [issue])
  | none =>
    if hp : priority < 0 then
      .error (.validation "priority must not be negative" [⟨"priority", "must not be negative"⟩])
    else .ok ⟨type, condition, reward, stackable, priority, h, hp⟩

inductive DiscountMethod where
  | code
  | automatic
  deriving DecidableEq

inductive DiscountClass where
  | product
  | order
  | shipping
  deriving DecidableEq

structure CombinesWith where
  product : Bool
  order : Bool
  shipping : Bool

def combinesWithNothing : CombinesWith := ⟨false, false, false⟩

def combinesWithEverything : CombinesWith := ⟨true, true, true⟩

/-- `combinesWith[discountClass]`. -/
def CombinesWith.allows (combinesWith : CombinesWith) : DiscountClass → Bool
  | .product => combinesWith.product
  | .order => combinesWith.order
  | .shipping => combinesWith.shipping

def discountClassOf (rule : PromotionRule) : DiscountClass :=
  if rule.reward.props.type = .freeShipping then .shipping
  else if rule.type = .buyXGetY then .product
  else if rule.condition.scope = .cart then .order
  else .product

theorem PromotionRule.reward_type {rule : PromotionRule} (htype : rule.type ≠ .buyXGetY)
    (hclass : discountClassOf rule ≠ .shipping) :
    rule.reward.props.type = .percentage ∨ rule.reward.props.type = .fixedAmount := by
  have hvalid := rule.valid
  cases ht : rule.reward.props.type with
  | percentage => exact Or.inl rfl
  | fixedAmount => exact Or.inr rfl
  | freeShipping => exact absurd (by simp [discountClassOf, ht]) hclass
  | buyXGetY => simp [ruleIssue, ht, htype] at hvalid

theorem PromotionReward.percentage_value {reward : PromotionReward}
    (ht : reward.props.type = .percentage) :
    ∃ value, reward.props.value = some value ∧ 0 ≤ value ∧ value ≤ 100 := by
  have hvalid := reward.valid
  simp only [rewardIssues, ht, percentageIssues] at hvalid
  cases hv : reward.props.value with
  | none => simp [hv] at hvalid
  | some value =>
    have hbounds : 0 ≤ value ∧ value ≤ 100 := by simpa [hv] using hvalid
    exact ⟨value, rfl, hbounds⟩

theorem PromotionReward.fixed_value {reward : PromotionReward}
    (ht : reward.props.type = .fixedAmount) : IsAmount (reward.props.value.getD 0) := by
  have hvalid := reward.valid
  simp only [rewardIssues, ht, fixedAmountIssues] at hvalid
  cases hv : reward.props.value with
  | none => exact IsAmount.zero
  | some value =>
    obtain ⟨hint, hpos⟩ : value.den = 1 ∧ 0 ≤ value := by
      simpa [hv, isInteger] using hvalid
    have hnum : (value.num : ℚ) = value := Rat.coe_int_num_of_den_eq_one hint
    rw [Option.getD_some, ← hnum]
    exact IsAmount.of_int (by rw [hnum]; exact hpos)

end Promotions

/-! ## The promotion aggregate: schedule, eligibility, lifecycle and usage

Times are the milliseconds that `getTime` answers; limits are stored in integer columns. -/
namespace Promotions

open SharedKernel Builtins

structure PromotionSchedule where
  startsAt : ℤ
  endsAt : Option ℤ

def PromotionSchedule.isExpiredAt (schedule : PromotionSchedule) (now : ℤ) : Bool :=
  schedule.endsAt.any fun endsAt => endsAt ≤ now

structure CustomerEligibility where
  customerRefs : Option (List String)
  segmentRefs : Option (List String)

def CustomerEligibility.everyone : CustomerEligibility := ⟨none, none⟩

inductive PromotionStatusValue where
  | draft
  | scheduled
  | active
  | paused
  | expired
  | depleted
  | cancelled
  | archived
  deriving DecidableEq

def PromotionStatusValue.text : PromotionStatusValue → String
  | .draft => "draft"
  | .scheduled => "scheduled"
  | .active => "active"
  | .paused => "paused"
  | .expired => "expired"
  | .depleted => "depleted"
  | .cancelled => "cancelled"
  | .archived => "archived"

def PromotionStatusValue.transitions : PromotionStatusValue → List PromotionStatusValue
  | .draft => [.scheduled, .active, .cancelled, .archived]
  | .scheduled => [.active, .cancelled, .archived]
  | .active => [.paused, .expired, .depleted, .cancelled, .archived]
  | .paused => [.active, .expired, .cancelled, .archived]
  | .expired => [.archived]
  | .depleted => [.archived]
  | .cancelled => [.archived]
  | .archived => []

def canTransitionPromotion (fromStatus toStatus : PromotionStatusValue) : Bool :=
  fromStatus.transitions.contains toStatus

structure Promotion where
  id : UniqueEntityId
  name : String
  rule : PromotionRule
  schedule : PromotionSchedule
  eligibility : CustomerEligibility
  usageLimit : Option ℤ
  usageCount : ℕ
  status : PromotionStatusValue
  method : Option DiscountMethod
  combinesWith : CombinesWith

namespace Promotion

/-- A new promotion is a draft that nobody has used. -/
def create (id : UniqueEntityId) (name : String) (rule : PromotionRule)
    (schedule : PromotionSchedule) (eligibility : CustomerEligibility) (usageLimit : Option ℤ)
    (method : Option DiscountMethod) (combinesWith : Option CombinesWith) : Promotion where
  id := id
  name := name
  rule := rule
  schedule := schedule
  eligibility := eligibility
  usageLimit := usageLimit
  usageCount := 0
  status := .draft
  method := method
  combinesWith :=
    combinesWith.getD (if rule.stackable then combinesWithEverything else combinesWithNothing)

def discountClass (promotion : Promotion) : DiscountClass := discountClassOf promotion.rule

def transition (toStatus : PromotionStatusValue) (promotion : Promotion) :
    Except DomainError Promotion :=
  if canTransitionPromotion promotion.status toStatus then
    .ok { promotion with status := toStatus }
  else
    .error (.businessRule ("Cannot transition promotion from \"" ++ promotion.status.text ++
      "\" to \"" ++ toStatus.text ++ "\""))

/-- The use that reaches the limit depletes the promotion. -/
def recordUsage (promotion : Promotion) : Except DomainError Promotion :=
  let used := { promotion with usageCount := promotion.usageCount + 1 }
  if used.usageLimit.any fun limit : ℤ => limit ≤ used.usageCount then used.transition .depleted
  else .ok used

structure Changes where
  name : String
  rule : PromotionRule
  schedule : PromotionSchedule
  eligibility : CustomerEligibility
  usageLimit : Option ℤ
  combinesWith : CombinesWith

/-- The type and the class of a discount cannot be edited. -/
def update (changes : Changes) (promotion : Promotion) : Except DomainError Promotion :=
  if promotion.status = .archived then
    .error (.businessRule "An archived discount cannot be edited")
  else if changes.rule.type ≠ promotion.rule.type ∨
      discountClassOf changes.rule ≠ promotion.discountClass then
    .error (.businessRule "A discount's type cannot be changed")
  else .ok { promotion with
    name := changes.name
    rule := changes.rule
    schedule := changes.schedule
    eligibility := changes.eligibility
    usageLimit := changes.usageLimit
    combinesWith := changes.combinesWith }

theorem recordUsage_cases (promotion : Promotion) :
    (∃ used, promotion.recordUsage = .ok used ∧ used.usageCount = promotion.usageCount + 1 ∧
      used.usageLimit = promotion.usageLimit) ∨
    ((∃ limit, promotion.usageLimit = some limit ∧ limit ≤ promotion.usageCount + 1) ∧
      canTransitionPromotion promotion.status .depleted = false ∧
      ∃ e, promotion.recordUsage = .error e) := by
  by_cases hlimit : promotion.usageLimit.any (fun limit : ℤ => limit ≤ (promotion.usageCount + 1 : ℕ))
  · by_cases hcan : canTransitionPromotion promotion.status .depleted = true
    · refine Or.inl ⟨{ promotion with
        usageCount := promotion.usageCount + 1, status := .depleted }, ?_, rfl, rfl⟩
      simp only [recordUsage, hlimit, if_true, transition, hcan]
    · obtain ⟨limit, hl, hle⟩ := (Option.any_eq_true _ _).mp hlimit
      have hcan : canTransitionPromotion promotion.status .depleted = false := by
        simpa using hcan
      refine Or.inr ⟨⟨limit, hl, ?_⟩, hcan, ?_⟩
      · simpa using hle
      · simp only [recordUsage, hlimit, if_true, transition, hcan]
        exact ⟨_, rfl⟩
  · refine Or.inl ⟨{ promotion with usageCount := promotion.usageCount + 1 }, ?_, rfl, rfl⟩
    simp only [recordUsage, hlimit]
    rfl

end Promotion

end Promotions
