import Lumo.Builtins
import Lumo.LabelledRuns

/-! # The coupon aggregate and its use cases

One stored coupon; what other coupons and the promotion answer is part of a call's input. -/
namespace Coupons

open SharedKernel Builtins

inductive CouponStatusValue where
  | active
  | disabled
  | expired
  | depleted
  deriving DecidableEq

def CouponStatusValue.text : CouponStatusValue → String
  | .active => "active"
  | .disabled => "disabled"
  | .expired => "expired"
  | .depleted => "depleted"

def CouponStatusValue.transitions : CouponStatusValue → List CouponStatusValue
  | .active => [.disabled, .expired, .depleted]
  | .disabled => [.active, .expired]
  | .expired => []
  | .depleted => []

def canTransitionCoupon (fromStatus toStatus : CouponStatusValue) : Bool :=
  fromStatus.transitions.contains toStatus

/-- The pattern `^[A-Z0-9_-]{3,32}$`. -/
def isCouponCode (value : String) : Bool :=
  3 ≤ value.toList.length && value.toList.length ≤ 32 && value.toList.all fun c =>
    ('A' ≤ c && c ≤ 'Z') || ('0' ≤ c && c ≤ '9') || c == '_' || c == '-'

structure CouponCode where
  value : String
  wellFormed : isCouponCode value = true

section Code

variable (text : TextOps)

def lookupCode (value : String) : String := text.toUpperCase (trim value)

def CouponCode.create (value : String) : Except DomainError CouponCode := do
  let _ ← Guard.againstEmpty value "code"
  if h : isCouponCode (lookupCode text value) = true then .ok ⟨lookupCode text value, h⟩
  else .error (.validation "Invalid coupon code"
    [⟨"code", "must be 3-32 characters of A-Z, 0-9, _ or -"⟩])

end Code

structure CouponRedemption where
  id : String
  idempotencyKey : String
  customerRef : String
  orderRef : Option String
  email : Option String
  occurredAt : ℤ

structure Coupon where
  id : UniqueEntityId
  code : CouponCode
  promotionRef : String
  multiUse : Bool
  customerRef : Option String
  usageLimit : Option ℤ
  usageCount : ℕ
  expiresAt : Option ℤ
  status : CouponStatusValue
  redemptions : List CouponRedemption

namespace Coupon

/-- A new coupon is active, and nobody has redeemed it. -/
def create (id : UniqueEntityId) (code : CouponCode) (promotionRef : String) (multiUse : Bool)
    (usageLimit : Option ℤ) (customerRef : Option String) (expiresAt : Option ℤ) : Coupon where
  id := id
  code := code
  promotionRef := promotionRef
  multiUse := multiUse
  customerRef := customerRef
  usageLimit := usageLimit
  usageCount := 0
  expiresAt := expiresAt
  status := .active
  redemptions := []

def transition (toStatus : CouponStatusValue) (coupon : Coupon) : Except DomainError Coupon :=
  if canTransitionCoupon coupon.status toStatus then .ok { coupon with status := toStatus }
  else .error (.businessRule ("Cannot transition coupon from \"" ++ coupon.status.text ++
    "\" to \"" ++ toStatus.text ++ "\""))

theorem transition_depleted {coupon : Coupon} (h : coupon.status = .active) :
    coupon.transition .depleted = .ok { coupon with status := .depleted } := by
  rw [transition, h]
  rfl

end Coupon

structure RedeemCouponInput where
  code : String
  customerRef : String
  idempotencyKey : String
  orderRef : Option String
  email : Option String
  occurredAt : ℤ
  /-- What the promotion that the coupon authorizes answers. -/
  promotionActive : Bool

section Redemption

variable (text : TextOps)

def redeemedBy (customerRef : String) (email : Option String) (r : CouponRedemption) : Bool :=
  r.customerRef == customerRef ||
    ((email.map text.toLowerCase).isSome &&
      r.email.map text.toLowerCase == email.map text.toLowerCase)

def newRedemption (coupon : Coupon) (input : RedeemCouponInput) : CouponRedemption where
  id := coupon.id.value ++ toString coupon.redemptions.length
  idempotencyKey := input.idempotencyKey
  customerRef := input.customerRef
  orderRef := input.orderRef
  email := input.email
  occurredAt := input.occurredAt

/-- The redemption that reaches the limit depletes the coupon. -/
def Coupon.redeem (input : RedeemCouponInput) (coupon : Coupon) : Except DomainError Coupon :=
  if coupon.status ≠ .active then
    .error (.businessRule ("Coupon is not active (status: " ++ coupon.status.text ++ ")"))
  else if coupon.expiresAt.any fun expiresAt => expiresAt ≤ input.occurredAt then
    .error (.businessRule "Coupon has expired")
  else if coupon.customerRef.any fun customerRef => customerRef != input.customerRef then
    .error (.businessRule "Coupon is not assigned to this customer")
  else if !coupon.multiUse &&
      coupon.redemptions.any (redeemedBy text input.customerRef input.email) then
    .error (.businessRule "Coupon has already been redeemed by this customer")
  else
    let redeemed := { coupon with
      redemptions := coupon.redemptions ++ [newRedemption coupon input]
      usageCount := coupon.usageCount + 1 }
    if redeemed.usageLimit.any fun limit : ℤ => limit ≤ redeemed.usageCount then
      redeemed.transition .depleted
    else .ok redeemed

def hasRedemption (idempotencyKey : String) (coupon : Coupon) : Bool :=
  coupon.redemptions.any fun r => r.idempotencyKey == idempotencyKey

def redeemCoupon (input : RedeemCouponInput) (coupon : Coupon) :
    Except DomainError (Coupon × Bool) := do
  let _ ← Guard.againstEmpty input.idempotencyKey "idempotencyKey"
  if lookupCode text input.code ≠ coupon.code.value then .error (.notFound "Coupon not found")
  else if hasRedemption input.idempotencyKey coupon then .ok (coupon, true)
  else if !input.promotionActive then
    .error (.conflict "The promotion this coupon authorizes is not active")
  else do
    let redeemed ← coupon.redeem text input
    .ok (redeemed, false)

structure ReconfigureCouponInput where
  code : String
  multiUse : Bool
  usageLimit : Option ℤ
  /-- Another coupon has the code. -/
  taken : Bool

def reconfigureCoupon (input : ReconfigureCouponInput) (coupon : Coupon) :
    Except DomainError Coupon := do
  let code ← CouponCode.create text input.code
  if input.taken then
    .error (.conflict ("Coupon code \"" ++ code.value ++ "\" already exists"))
  else .ok { coupon with
    code := code
    multiUse := input.multiUse
    usageLimit := input.usageLimit }

variable {text}

variable {coupon after : Coupon}

/-- A call that records a redemption was made on an active coupon, with a new key and, where the
coupon is for one use per customer, by a new customer. -/
theorem redeemCoupon_recorded {input : RedeemCouponInput}
    (h : redeemCoupon text input coupon = .ok (after, false)) :
    coupon.status = .active ∧ hasRedemption input.idempotencyKey coupon = false ∧
      (coupon.multiUse = false →
        coupon.redemptions.any (redeemedBy text input.customerRef input.email) = false) ∧
      after.redemptions = coupon.redemptions ++ [newRedemption coupon input] ∧
      after.usageCount = coupon.usageCount + 1 ∧ after.usageLimit = coupon.usageLimit ∧
      after.multiUse = coupon.multiUse ∧
      (after.status = .active →
        ∀ limit, after.usageLimit = some limit → after.usageCount < limit) ∧
      (after.status = .active ∨ after.status = .depleted) := by
  obtain ⟨_, _, h⟩ := bind_eq_ok.mp h
  split at h
  · cases h
  · split at h
    · cases h
    · rename_i hnew
      split at h
      · cases h
      · obtain ⟨redeemed, hredeem, h⟩ := bind_eq_ok.mp h
        cases h
        rw [Coupon.redeem] at hredeem
        split at hredeem
        · cases hredeem
        · rename_i hactive
          have hactive : coupon.status = .active := not_not.mp hactive
          split at hredeem
          · cases hredeem
          · split at hredeem
            · cases hredeem
            · split at hredeem
              · cases hredeem
              · rename_i honce
                have honce : coupon.multiUse = false →
                    coupon.redemptions.any (redeemedBy text input.customerRef input.email) =
                      false := by
                  intro hsingle
                  simpa [hsingle] using honce
                dsimp only at hredeem
                split at hredeem
                · cases hredeem.symm.trans (Coupon.transition_depleted hactive)
                  refine ⟨hactive, by simpa using hnew, honce, rfl, rfl, rfl, rfl, ?_, Or.inr rfl⟩
                  intro hno
                  cases hno
                · rename_i hbelow
                  cases hredeem
                  refine ⟨hactive, by simpa using hnew, honce, rfl, rfl, rfl, rfl, ?_,
                    Or.inl hactive⟩
                  intro _ limit hl
                  have hl : coupon.usageLimit = some limit := hl
                  simp only [hl, Option.any_some, decide_eq_true_eq, not_le] at hbelow
                  exact hbelow

theorem redeemCoupon_replayed {input : RedeemCouponInput}
    (h : redeemCoupon text input coupon = .ok (after, true)) : after = coupon := by
  obtain ⟨_, _, h⟩ := bind_eq_ok.mp h
  split at h
  · cases h
  · split at h
    · cases h
      rfl
    · split at h
      · cases h
      · obtain ⟨_, _, h⟩ := bind_eq_ok.mp h
        cases h

theorem reconfigureCoupon_ok {input : ReconfigureCouponInput}
    (h : reconfigureCoupon text input coupon = .ok after) :
    after.redemptions = coupon.redemptions ∧ after.usageCount = coupon.usageCount ∧
      after.status = coupon.status ∧ after.usageLimit = input.usageLimit ∧
      after.multiUse = input.multiUse := by
  obtain ⟨code, _, h⟩ := bind_eq_ok.mp h
  split at h
  · cases h
  · cases h
    exact ⟨rfl, rfl, rfl, rfl, rfl⟩

theorem Coupon.transition_ok {toStatus : CouponStatusValue}
    (h : coupon.transition toStatus = .ok after) : after = { coupon with status := toStatus } ∧
      canTransitionCoupon coupon.status toStatus = true := by
  rw [Coupon.transition] at h
  split at h
  · rename_i hcan
    cases h
    exact ⟨rfl, hcan⟩
  · cases h

end Redemption

end Coupons

/-! ## Coupons over whole runs

The ledger, the limit and the one use per customer, along any sequence of redemptions, edits and
transitions. -/
namespace Coupons

open SharedKernel Builtins LabelledRuns

inductive Operation where
  | redeem (input : RedeemCouponInput)
  | reconfigure (input : ReconfigureCouponInput)
  | advance (toStatus : CouponStatusValue)

/-- The stored coupon, and how often it had been used when its limit was last set. -/
structure Desk where
  coupon : Coupon
  usedAtSetting : ℕ

section Runs

variable (text : TextOps)

/-- A call that fails leaves everything as it was. -/
def next (s : Desk) : Operation → Desk
  | .redeem input =>
    match redeemCoupon text input s.coupon with
    | .ok (after, _) => { s with coupon := after }
    | .error _ => s
  | .reconfigure input =>
    match reconfigureCoupon text input s.coupon with
    | .ok after => ⟨after, after.usageCount⟩
    | .error _ => s
  | .advance toStatus =>
    match s.coupon.transition toStatus with
    | .ok after => { s with coupon := after }
    | .error _ => s

def Step (s : Desk) (op : Operation) (u : Desk) : Prop := u = next text s op

def trace (s : Desk) (ops : List Operation) : List (Operation × Desk) := follow (next text) s ops

theorem run_trace (s : Desk) (ops : List Operation) : Run (Step text) s (trace text s ops) := by
  apply run_follow
  intro s op
  rfl

/-- The call records a new redemption. -/
def Records (coupon : Coupon) (input : RedeemCouponInput) : Prop :=
  ∃ after, redeemCoupon text input coupon = .ok (after, false)

end Runs

/-- A coupon that has just been created. -/
def Created (s : Desk) : Prop :=
  (∃ id code promotionRef multiUse usageLimit customerRef expiresAt, s.coupon =
    Coupon.create id code promotionRef multiUse usageLimit customerRef expiresAt) ∧
  s.usedAtSetting = 0

/-- The count is the number of redemptions, and no key has two of them. -/
structure Ledger (coupon : Coupon) : Prop where
  counted : coupon.usageCount = coupon.redemptions.length
  keys : (coupon.redemptions.map (·.idempotencyKey)).Nodup

def BelowLimit (coupon : Coupon) : Prop :=
  ∀ limit, coupon.usageLimit = some limit → coupon.usageCount < limit

/-- No redemption succeeds at or above the limit. -/
def RedeemsBelowLimit (text : TextOps) (s : Desk) : Operation → Prop
  | .redeem input => Records text s.coupon input → BelowLimit s.coupon
  | _ => True

/-- No redemption succeeds at or above a limit that was above the count when it was set. -/
def RedeemsWithinSetLimit (text : TextOps) (s : Desk) : Operation → Prop
  | .redeem input => Records text s.coupon input →
      (∀ limit, s.coupon.usageLimit = some limit → s.usedAtSetting < limit) → BelowLimit s.coupon
  | _ => True

/-- No redemption of a coupon for one use per customer is by a customer who has redeemed it. -/
def RedeemsOnce (text : TextOps) (s : Desk) : Operation → Prop
  | .redeem input => Records text s.coupon input → s.coupon.multiUse = false →
      ∀ r ∈ s.coupon.redemptions, redeemedBy text input.customerRef input.email r = false
  | _ => True

def DistinctCustomers (text : TextOps) (redemptions : List CouponRedemption) : Prop :=
  redemptions.Pairwise fun r r' => redeemedBy text r'.customerRef r'.email r = false

instance (text : TextOps) (redemptions : List CouponRedemption) :
    Decidable (DistinctCustomers text redemptions) := by
  rw [DistinctCustomers]
  infer_instance

/-- A coupon for one use per customer holds no two redemptions of one. -/
def SingleUse (text : TextOps) (coupon : Coupon) : Prop :=
  coupon.multiUse = false → DistinctCustomers text coupon.redemptions

/-- The edit makes a coupon that a customer has redeemed twice one for one use per customer. -/
def RestrictsRepeated (text : TextOps) (s : Desk) : Operation → Prop
  | .reconfigure input => input.multiUse = false ∧
      (∃ after, reconfigureCoupon text input s.coupon = .ok after) ∧
      ¬ DistinctCustomers text s.coupon.redemptions
  | _ => False

section Steps

variable {text : TextOps}

/-- What an operation can do: nothing, as any failing one, or its one change. -/
inductive Effect (text : TextOps) (s : Desk) : Operation → Desk → Prop where
  | stays {op : Operation} (hno : ¬ RestrictsRepeated text s op) : Effect text s op s
  | redeemed {input : RedeemCouponInput} {after : Coupon}
      (hok : redeemCoupon text input s.coupon = .ok (after, false)) :
      Effect text s (.redeem input) { s with coupon := after }
  | reconfigured {input : ReconfigureCouponInput} {after : Coupon}
      (hok : reconfigureCoupon text input s.coupon = .ok after) :
      Effect text s (.reconfigure input) ⟨after, after.usageCount⟩
  | advanced {toStatus : CouponStatusValue} {after : Coupon}
      (hok : s.coupon.transition toStatus = .ok after) :
      Effect text s (.advance toStatus) { s with coupon := after }

theorem operation_effect (text : TextOps) (s : Desk) (op : Operation) :
    Effect text s op (next text s op) := by
  cases op with
  | redeem input =>
    cases h : redeemCoupon text input s.coupon with
    | error e =>
      rw [next, h]
      exact .stays id
    | ok result =>
      obtain ⟨after, duplicate⟩ := result
      cases duplicate with
      | false =>
        rw [next, h]
        exact .redeemed h
      | true =>
        -- a replayed key gives the coupon back as it is
        have hsame := redeemCoupon_replayed h
        rw [next, h]
        rw [hsame]
        exact .stays id
  | reconfigure input =>
    cases h : reconfigureCoupon text input s.coupon with
    | error e =>
      rw [next, h]
      apply Effect.stays
      rintro ⟨_, ⟨after, hafter⟩, _⟩
      rw [hafter] at h
      cases h
    | ok after =>
      rw [next, h]
      exact .reconfigured h
  | advance toStatus =>
    cases h : s.coupon.transition toStatus with
    | error e =>
      rw [next, h]
      exact .stays id
    | ok after =>
      rw [next, h]
      exact .advanced h

variable {s : Desk}

theorem ledger_step (h : Ledger s.coupon) (op : Operation) : Ledger (next text s op).coupon := by
  have he := operation_effect text s op
  generalize next text s op = u at he
  cases he with
  | stays _ => exact h
  | @redeemed input after hok =>
    obtain ⟨_, hnew, _, hred, hcount, _⟩ := redeemCoupon_recorded hok
    constructor
    · change after.usageCount = after.redemptions.length
      rw [hcount, hred, List.length_append, h.counted]
      rfl
    · change (after.redemptions.map (·.idempotencyKey)).Nodup
      rw [hred, List.map_append, List.nodup_append]
      refine ⟨h.keys, List.nodup_singleton _, ?_⟩
      intro key hkey other hother heq
      obtain ⟨r, hr, rfl⟩ := List.mem_map.mp hkey
      rw [List.map_singleton, List.mem_singleton] at hother
      have hfresh := List.any_eq_false.mp hnew r hr
      rw [heq, hother] at hfresh
      exact hfresh (beq_self_eq_true _)
  | @reconfigured input after hok =>
    obtain ⟨hred, hcount, _⟩ := reconfigureCoupon_ok hok
    constructor
    · change after.usageCount = after.redemptions.length
      rw [hcount, hred]
      exact h.counted
    · change (after.redemptions.map (·.idempotencyKey)).Nodup
      rw [hred]
      exact h.keys
  | advanced hok =>
    obtain ⟨rfl, _⟩ := Coupon.transition_ok hok
    exact ⟨h.counted, h.keys⟩

def LimitHeld (s : Desk) : Prop :=
  s.coupon.status = .active ∨ s.coupon.status = .disabled →
    (∀ limit, s.coupon.usageLimit = some limit → s.usedAtSetting < limit) → BelowLimit s.coupon

theorem limitHeld_step (h : LimitHeld s) (op : Operation) : LimitHeld (next text s op) := by
  have he := operation_effect text s op
  generalize next text s op = u at he
  cases he with
  | stays _ => exact h
  | redeemed hok =>
    obtain ⟨_, _, _, _, _, _, _, hbelow, hstatus⟩ := redeemCoupon_recorded hok
    intro hlive _
    rcases hstatus with hactive | hdepleted
    · exact hbelow hactive
    · rcases hlive with hlive | hlive
      · exact absurd (hdepleted.symm.trans hlive) (by decide)
      · exact absurd (hdepleted.symm.trans hlive) (by decide)
  | reconfigured hok =>
    intro _ hset
    exact hset
  | advanced hok =>
    obtain ⟨rfl, hcan⟩ := Coupon.transition_ok hok
    intro hlive hset
    apply h _ hset
    -- only an active or a disabled coupon can become active or disabled
    cases hs : s.coupon.status with
    | active => exact Or.inl rfl
    | disabled => exact Or.inr rfl
    | expired | depleted =>
      rw [hs] at hcan
      cases hcan

theorem redeemsWithinSetLimit (h : LimitHeld s) (op : Operation) :
    RedeemsWithinSetLimit text s op := by
  cases op with
  | redeem input =>
    rintro ⟨after, hok⟩ hset
    exact h (Or.inl (redeemCoupon_recorded hok).1) hset
  | reconfigure input | advance toStatus => trivial

theorem redeemsOnce (s : Desk) (op : Operation) : RedeemsOnce text s op := by
  cases op with
  | redeem input =>
    rintro ⟨after, hok⟩ hsingle r hr
    have honce := (redeemCoupon_recorded hok).2.2.1 hsingle
    simpa using List.any_eq_false.mp honce r hr
  | reconfigure input | advance toStatus => trivial

theorem singleUse_step (h : SingleUse text s.coupon) (op : Operation) :
    SingleUse text (next text s op).coupon ↔ ¬ RestrictsRepeated text s op := by
  have he := operation_effect text s op
  generalize next text s op = u at he
  cases he with
  | stays hno => exact iff_of_true h hno
  | @redeemed input after hok =>
    refine iff_of_true ?_ id
    obtain ⟨_, _, honce, hred, _, _, hmulti, _⟩ := redeemCoupon_recorded hok
    intro hsingle
    have hsingle : s.coupon.multiUse = false := hmulti.symm.trans hsingle
    change DistinctCustomers text after.redemptions
    rw [DistinctCustomers, hred, List.pairwise_append]
    refine ⟨h hsingle, List.pairwise_singleton _ _, ?_⟩
    intro r hr new hnew
    rw [List.mem_singleton.mp hnew]
    exact Bool.eq_false_iff.mpr (List.any_eq_false.mp (honce hsingle) r hr)
  | @reconfigured input after hok =>
    obtain ⟨hred, _, _, _, hmulti⟩ := reconfigureCoupon_ok hok
    change (after.multiUse = false → DistinctCustomers text after.redemptions) ↔ _
    rw [hred, hmulti]
    constructor
    · rintro hdistinct ⟨hsingle, _, hrepeated⟩
      exact hrepeated (hdistinct hsingle)
    · intro hno hsingle
      by_contra hrepeated
      exact hno ⟨hsingle, ⟨after, hok⟩, hrepeated⟩
  | advanced hok =>
    obtain ⟨rfl, _⟩ := Coupon.transition_ok hok
    exact iff_of_true h id

theorem Created.ledger (h : Created s) : Ledger s.coupon := by
  obtain ⟨⟨id, code, promotionRef, multiUse, usageLimit, customerRef, expiresAt, hc⟩, _⟩ := h
  rw [hc]
  exact ⟨rfl, List.nodup_nil⟩

theorem Created.limitHeld (h : Created s) : LimitHeld s := by
  obtain ⟨⟨id, code, promotionRef, multiUse, usageLimit, customerRef, expiresAt, hc⟩, hused⟩ := h
  intro _ hset limit hl
  have hpos := hset limit hl
  rw [hused] at hpos
  rw [hc]
  exact hpos

theorem Created.singleUse (h : Created s) : SingleUse text s.coupon := by
  obtain ⟨⟨id, code, promotionRef, multiUse, usageLimit, customerRef, expiresAt, hc⟩, _⟩ := h
  rw [hc]
  exact fun _ => List.Pairwise.nil

end Steps

/-- Along any run the ledger counts its redemptions, each key at most once; no redemption
succeeds at or above a limit that was above the count when it was set; while the coupon is for
one use per customer, nobody redeems it again; and it holds two redemptions of one customer only
if an edit restricted it when it already did. -/
theorem run_couponKept {text : TextOps} {s : Desk} {tr : List (Operation × Desk)}
    (hc : Created s) (hr : Run (Step text) s tr) :
    Always (fun s => Ledger s.coupon) s tr ∧
      EveryStep (RedeemsWithinSetLimit text) s tr ∧
      EveryStep (RedeemsOnce text) s tr ∧
      (Always (fun s => SingleUse text s.coupon) s tr ↔
        EveryStep (fun s op => ¬ RestrictsRepeated text s op) s tr) := by
  refine ⟨?_, ?_, ?_, ?_⟩
  · refine always_of_invariant ?_ hc.ledger hr
    rintro s op u hs rfl
    exact ledger_step hs op
  · refine everyStep_of_invariant ?_ ?_ hc.limitHeld hr
    · rintro s op u hs rfl
      exact limitHeld_step hs op
    · intro s op hs
      exact redeemsWithinSetLimit hs op
  · refine everyStep_of_invariant (I := fun _ => True) ?_ ?_ trivial hr
    · intro s op u _ _
      trivial
    · intro s op _
      exact redeemsOnce s op
  · refine always_iff_everyStep (I := fun s => SingleUse text s.coupon) ?_ (fun _ h => h) ?_
      hc.singleUse hr
    · rintro s op u hs rfl hno
      exact (singleUse_step hs op).mpr hno
    · rintro s op u hs rfl hno hu
      exact hno ((singleUse_step hs op).mp hu)

/-! A coupon that is edited while it is in use. -/

def sampleText : TextOps where
  toUpperCase := toUpperCase
  toLowerCase := id
  localeCompare _ _ := 0

def sampleCouponId : UniqueEntityId := ⟨"coupon-1", by decide⟩

def newCoupon (usageLimit : Option ℤ) : Desk where
  coupon := Coupon.create sampleCouponId ⟨"SAVE10", by decide⟩ "promotion-1" true usageLimit none
    none
  usedAtSetting := 0

def redemption (key customerRef : String) : Operation :=
  .redeem ⟨"save10", customerRef, key, none, none, 0, true⟩

def edit (multiUse : Bool) (usageLimit : Option ℤ) : Operation :=
  .reconfigure ⟨"save10", multiUse, usageLimit, false⟩

theorem couponKept_fails :
    (¬ ∀ (s : Desk) (tr : List (Operation × Desk)), Created s → Run (Step sampleText) s tr →
      EveryStep (RedeemsBelowLimit sampleText) s tr) ∧
    ¬ ∀ (s : Desk) (tr : List (Operation × Desk)), Created s → Run (Step sampleText) s tr →
      Always (fun s => SingleUse sampleText s.coupon) s tr := by
  constructor
  · intro h
    have hsteps := h (newCoupon (some 5)) (trace sampleText (newCoupon (some 5))
      [redemption "key-1" "customer-1", edit true (some 1), redemption "key-2" "customer-2"])
      ⟨⟨_, _, _, _, _, _, _, rfl⟩, rfl⟩ (run_trace _ _ _)
    have hbelow := hsteps.2.2.1 ⟨_, rfl⟩ 1 rfl
    exact absurd hbelow (by decide)
  · intro h
    have hlast := (h (newCoupon none) (trace sampleText (newCoupon none)
      [redemption "key-1" "customer-1", redemption "key-2" "customer-1", edit false none])
      ⟨⟨_, _, _, _, _, _, _, rfl⟩, rfl⟩ (run_trace _ _ _)).last
    exact absurd (hlast rfl) (by decide)

theorem run_couponKept_edited :
    let tr := trace sampleText (newCoupon (some 2))
      [redemption "key-1" "customer-1", redemption "key-1" "customer-1", edit false (some 3),
        redemption "key-2" "customer-2", .advance .disabled, .advance .active]
    Always (fun s => Ledger s.coupon) (newCoupon (some 2)) tr ∧
      EveryStep (RedeemsWithinSetLimit sampleText) (newCoupon (some 2)) tr ∧
      EveryStep (RedeemsOnce sampleText) (newCoupon (some 2)) tr ∧
      (Always (fun s => SingleUse sampleText s.coupon) (newCoupon (some 2)) tr ↔
        EveryStep (fun s op => ¬ RestrictsRepeated sampleText s op) (newCoupon (some 2)) tr) :=
  run_couponKept ⟨⟨_, _, _, _, _, _, _, rfl⟩, rfl⟩ (run_trace sampleText _ _)

end Coupons
