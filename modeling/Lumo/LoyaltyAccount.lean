import Lumo.Ladders
import Lumo.Methods
import Lumo.SharedKernel
import Mathlib.Algebra.Order.Ring.Rat
import Mathlib.Data.List.Sort

/-! # The loyalty account aggregate

The balance, the ledger of transactions and the tier of one customer's points. Points are whatever
numbers the calls name. -/
namespace Loyalty

open SharedKernel Ladders

inductive AccountStatusValue where
  | active
  | suspended
  | closed
  deriving DecidableEq

namespace AccountStatusValue

def text : AccountStatusValue → String
  | active => "active"
  | suspended => "suspended"
  | closed => "closed"

def transitions : AccountStatusValue → List AccountStatusValue
  | active => [suspended, closed]
  | suspended => [active, closed]
  | closed => []

end AccountStatusValue

def canTransitionAccount (fromStatus toStatus : AccountStatusValue) : Bool :=
  fromStatus.transitions.contains toStatus

structure LoyaltyPoint where
  balance : ℚ

namespace LoyaltyPoint

def zero : LoyaltyPoint := ⟨0⟩

def add (wallet : LoyaltyPoint) (points : ℚ) : LoyaltyPoint := ⟨wallet.balance + points⟩

def subtract (wallet : LoyaltyPoint) (points : ℚ) : LoyaltyPoint := ⟨wallet.balance - points⟩

def isAtLeast (wallet : LoyaltyPoint) (points : ℚ) : Bool := decide (points ≤ wallet.balance)

end LoyaltyPoint

structure RewardTier where
  name : String
  minimumPoints : ℚ

/-- The ladder that the service is composed with: no two rungs share a name or a minimum. -/
structure RewardTiers where
  rungs : List RewardTier
  names : (rungs.map RewardTier.name).Nodup
  minimums : (rungs.map RewardTier.minimumPoints).Nodup

inductive Thrown where
  | domain (e : DomainError)
  | error (message : String)

def RewardTier.NotAbove (a b : RewardTier) : Prop := a.minimumPoints ≤ b.minimumPoints

instance : DecidableRel RewardTier.NotAbove := fun _ _ => inferInstanceAs (Decidable (_ ≤ _))

instance : IsTrans RewardTier RewardTier.NotAbove := ⟨fun _ _ _ hab hbc => le_trans hab hbc⟩

instance : Std.Total RewardTier.NotAbove := ⟨fun _ _ => le_total _ _⟩

def sortedTiers (tiers : List RewardTier) : List RewardTier :=
  tiers.insertionSort RewardTier.NotAbove

def resolveTier (balance : ℚ) (tiers : List RewardTier) : Except Thrown RewardTier :=
  match climb RewardTier.minimumPoints balance (sortedTiers tiers) with
  | some current => .ok current
  | none => .error (.error "resolveTier requires at least one tier")

theorem resolveTier_highest (balance : ℚ) {tiers : List RewardTier} (h : tiers ≠ []) :
    ∃ tier, resolveTier balance tiers = .ok tier ∧
      Highest RewardTier.minimumPoints balance tiers tier := by
  have hne : sortedTiers tiers ≠ [] := by
    obtain ⟨tier, htier⟩ := List.exists_mem_of_ne_nil _ h
    exact List.ne_nil_of_mem ((List.mem_insertionSort _).mpr htier)
  obtain ⟨tier, hclimb, hhighest⟩ := climb_highest hne
    (List.pairwise_insertionSort RewardTier.NotAbove tiers)
  refine ⟨tier, ?_, hhighest.congr fun r => (List.mem_insertionSort _).symm⟩
  rw [resolveTier, hclimb]

theorem resolveTier_nil (balance : ℚ) :
    resolveTier balance [] = .error (.error "resolveTier requires at least one tier") := by
  simp [resolveTier, sortedTiers, climb]

inductive TransactionKind where
  | earn
  | spend
  | cashback
  | referral

structure LoyaltyTransaction where
  id : String
  idempotencyKey : String
  kind : TransactionKind
  pointsDelta : ℚ
  occurredAt : ℤ
  ref : Option String

inductive EventFamily where
  | account
  | points
  | tier
  | reward
  | referral
  deriving DecidableEq

structure LoyaltyTransitioned where
  eventId : String
  aggregateId : String
  occurredAt : ℤ
  customerRef : String
  family : EventFamily
  action : String
  balance : ℚ
  ref : Option String

structure Reward where
  rewardRef : NonBlank
  name : String
  costPoints : ℚ
  notNegative : 0 ≤ costPoints

def Reward.create (rewardRef name : String) (costPoints : ℚ) : Except DomainError Reward := do
  let rewardRef ← Guard.againstEmpty rewardRef "rewardRef"
  if notNegative : 0 ≤ costPoints then .ok ⟨rewardRef, name, costPoints, notNegative⟩
  else .error (.validation "costPoints must not be negative"
    [⟨"costPoints", "must not be negative"⟩])

structure LoyaltyAccount where
  id : UniqueEntityId
  customerRef : String
  status : AccountStatusValue
  points : LoyaltyPoint
  tiers : RewardTiers
  tierName : String
  transactions : List LoyaltyTransaction
  domainEvents : List LoyaltyTransitioned

/-- When a call is made, and the id that its events get. -/
structure Occurrence where
  eventId : String
  occurredAt : ℤ

namespace LoyaltyAccount

abbrev Method := EStateM Thrown LoyaltyAccount Unit

def create (id : UniqueEntityId) (customerRef : String) (tiers : RewardTiers) :
    Except Thrown LoyaltyAccount := do
  let startingTier ← resolveTier 0 tiers.rungs
  return ⟨id, customerRef, .active, .zero, tiers, startingTier.name, [], []⟩

def hasTransaction (idempotencyKey : String) (account : LoyaltyAccount) : Bool :=
  account.transactions.any fun t => t.idempotencyKey == idempotencyKey

def raised (family : EventFamily) (action : String) (occurrence : Occurrence) (ref : Option String)
    (account : LoyaltyAccount) : LoyaltyTransitioned :=
  ⟨occurrence.eventId, account.id.value, occurrence.occurredAt, account.customerRef, family, action,
    account.points.balance, ref⟩

def raise (family : EventFamily) (action : String) (occurrence : Occurrence)
    (ref : Option String) : Method :=
  modify fun account => { account with
    domainEvents := account.domainEvents ++ [account.raised family action occurrence ref] }

def requireActive : Method := do
  let account ← get
  if account.status ≠ .active then
    throw (.domain (.businessRule
      ("Loyalty account is not active (status: " ++ account.status.text ++ ")")))

def newTransaction (idempotencyKey : String) (kind : TransactionKind) (pointsDelta : ℚ)
    (ref : String) (occurrence : Occurrence) (account : LoyaltyAccount) : LoyaltyTransaction :=
  ⟨account.id.value ++ toString account.transactions.length, idempotencyKey, kind, pointsDelta,
    occurrence.occurredAt, some ref⟩

def recordTransaction (idempotencyKey : String) (kind : TransactionKind) (pointsDelta : ℚ)
    (ref : String) (occurrence : Occurrence) : Method :=
  modify fun account => { account with
    transactions := account.transactions ++
      [account.newTransaction idempotencyKey kind pointsDelta ref occurrence] }

def checkTierUpgrade (occurrence : Occurrence) : Method := do
  let account ← get
  let newTier ← MonadExcept.ofExcept (resolveTier account.points.balance account.tiers.rungs)
  if newTier.name ≠ account.tierName then
    modify fun account => { account with tierName := newTier.name }
    raise .tier "upgraded" occurrence (some newTier.name)

/-- The status transition; suspending, reactivating and closing are this one. -/
def transition (toStatus : AccountStatusValue) (occurrence : Occurrence) : Method := do
  let account ← get
  if !canTransitionAccount account.status toStatus then
    throw (.domain (.businessRule ("Cannot transition loyalty account from \"" ++
      account.status.text ++ "\" to \"" ++ toStatus.text ++ "\"")))
  modify fun account => { account with status := toStatus }
  raise .account (if toStatus = .active then "opened" else toStatus.text) occurrence none

/-- What the methods that bring points in have in common. -/
def receive (kind : TransactionKind) (family : EventFamily) (action idempotencyKey : String)
    (points : ℚ) (ref : String) (occurrence : Occurrence) : Method := do
  if (← get).hasTransaction idempotencyKey then return
  requireActive
  recordTransaction idempotencyKey kind points ref occurrence
  modify fun account => { account with points := account.points.add points }
  raise family action occurrence (some ref)
  checkTierUpgrade occurrence

def earn (idempotencyKey : String) (points : ℚ) (ref : String) (occurrence : Occurrence) : Method :=
  receive .earn .points "earned" idempotencyKey points ref occurrence

def recordCashback (idempotencyKey : String) (points : ℚ) (ref : String)
    (occurrence : Occurrence) : Method :=
  receive .cashback .points "earned" idempotencyKey points ref occurrence

def completeReferral (idempotencyKey : String) (bonusPoints : ℚ) (referredCustomerRef : String)
    (occurrence : Occurrence) : Method :=
  receive .referral .referral "completed" idempotencyKey bonusPoints referredCustomerRef occurrence

def pay (family : EventFamily) (action insufficient idempotencyKey : String) (points : ℚ)
    (ref : String) (occurrence : Occurrence) : Method := do
  if (← get).hasTransaction idempotencyKey then return
  requireActive
  if !(← get).points.isAtLeast points then
    throw (.domain (.businessRule insufficient))
  recordTransaction idempotencyKey .spend (-points) ref occurrence
  modify fun account => { account with points := account.points.subtract points }
  raise family action occurrence (some ref)

def spend (idempotencyKey : String) (points : ℚ) (ref : String) (occurrence : Occurrence) :
    Method :=
  pay .points "spent" "Insufficient loyalty points balance" idempotencyKey points ref occurrence

def redeemReward (idempotencyKey : String) (reward : Reward) (occurrence : Occurrence) : Method :=
  pay .reward "redeemed" "Insufficient loyalty points balance to redeem this reward"
    idempotencyKey reward.costPoints reward.rewardRef.1 occurrence

section Methods

open Methods

variable {account : LoyaltyAccount}

def Open (account : LoyaltyAccount) (idempotencyKey : String) : Prop :=
  account.hasTransaction idempotencyKey = false ∧ account.status = .active

instance (account : LoyaltyAccount) (idempotencyKey : String) :
    Decidable (account.Open idempotencyKey) :=
  inferInstanceAs (Decidable (_ ∧ _))

/-- The account with one more movement of points, and the event of it. -/
def moved (kind : TransactionKind) (family : EventFamily) (action idempotencyKey : String)
    (pointsDelta : ℚ) (ref : String) (occurrence : Occurrence) (account : LoyaltyAccount) :
    LoyaltyAccount :=
  let moved := { account with
    transactions := account.transactions ++
      [account.newTransaction idempotencyKey kind pointsDelta ref occurrence]
    points := account.points.add pointsDelta }
  { moved with
    domainEvents := account.domainEvents ++ [moved.raised family action occurrence (some ref)] }

def promoted (tier : RewardTier) (occurrence : Occurrence) (account : LoyaltyAccount) :
    LoyaltyAccount :=
  if tier.name = account.tierName then account
  else { account with
    tierName := tier.name
    domainEvents := account.domainEvents ++
      [account.raised .tier "upgraded" occurrence (some tier.name)] }

/-- A method that is not enabled only looks, or throws before it has changed anything. One that is
enabled comes through with its change. -/
inductive Ran (enabled : Prop) (change : LoyaltyAccount → Prop) (method : Method)
    (account : LoyaltyAccount) : Prop where
  | looked (held : ¬ enabled) (h : method account = .ok ⟨⟩ account)
  | threw (held : ¬ enabled) (e : Thrown) (h : method account = .error e account)
  | changed (carried : enabled) (changed : LoyaltyAccount) (hchange : change changed)
      (h : method account = .ok ⟨⟩ changed)

theorem not_open_of_replay {idempotencyKey : String}
    (h : account.hasTransaction idempotencyKey = true) : ¬ account.Open idempotencyKey := by
  rintro ⟨hfresh, _⟩
  rw [h] at hfresh
  cases hfresh

/-- Nothing is changed unless the whole method is carried out. -/
theorem receive_ran (kind : TransactionKind) (family : EventFamily) (action idempotencyKey : String)
    (points : ℚ) (ref : String) (occurrence : Occurrence) (hne : account.tiers.rungs ≠ []) :
    Ran (account.Open idempotencyKey) (fun changed => ∃ tier,
        Highest RewardTier.minimumPoints (account.points.balance + points)
          account.tiers.rungs tier ∧
        changed = promoted tier occurrence
          (moved kind family action idempotencyKey points ref occurrence account))
      (receive kind family action idempotencyKey points ref occurrence) account := by
  by_cases hkey : account.hasTransaction idempotencyKey = true
  · apply Ran.looked (not_open_of_replay hkey)
    simp [receive, hkey]
  · by_cases hactive : account.status = .active
    · obtain ⟨tier, htier, hhighest⟩ := resolveTier_highest (account.points.balance + points) hne
      refine .changed ⟨by simpa using hkey, hactive⟩ _ ⟨tier, hhighest, rfl⟩ ?_
      by_cases hname : tier.name = account.tierName
      · simp [receive, requireActive, recordTransaction, raise, checkTierUpgrade, promoted, moved,
          hkey, hactive, LoyaltyPoint.add, htier, hname]
      · simp [receive, requireActive, recordTransaction, raise, checkTierUpgrade, promoted, moved,
          hkey, hactive, LoyaltyPoint.add, htier, hname]
        rfl
    · apply Ran.threw (fun h => hactive h.2) (.domain (.businessRule
        ("Loyalty account is not active (status: " ++ account.status.text ++ ")")))
      simp [receive, requireActive, hkey, hactive]

theorem pay_ran (family : EventFamily) (action insufficient idempotencyKey : String) (points : ℚ)
    (ref : String) (occurrence : Occurrence) :
    Ran (account.Open idempotencyKey ∧ points ≤ account.points.balance)
      (· = moved .spend family action idempotencyKey (-points) ref occurrence account)
      (pay family action insufficient idempotencyKey points ref occurrence) account := by
  by_cases hkey : account.hasTransaction idempotencyKey = true
  · apply Ran.looked fun h => not_open_of_replay hkey h.1
    simp [pay, hkey]
  · by_cases hactive : account.status = .active
    · by_cases henough : account.points.balance < points
      · apply Ran.threw (fun h => henough.not_ge h.2) (.domain (.businessRule insufficient))
        simp [pay, requireActive, hkey, hactive, henough, LoyaltyPoint.isAtLeast]
      · refine .changed ⟨⟨by simpa using hkey, hactive⟩, not_lt.mp henough⟩ _ rfl ?_
        simp [pay, requireActive, recordTransaction, raise, moved, hkey, hactive, henough,
          LoyaltyPoint.isAtLeast, LoyaltyPoint.add, LoyaltyPoint.subtract, sub_eq_add_neg, raised]
    · apply Ran.threw (fun h => hactive h.1.2) (.domain (.businessRule
        ("Loyalty account is not active (status: " ++ account.status.text ++ ")")))
      simp [pay, requireActive, hkey, hactive]

theorem transition_ran (toStatus : AccountStatusValue) (occurrence : Occurrence) :
    Ran (canTransitionAccount account.status toStatus = true) (fun changed => ∃ action, changed = { account with
        status := toStatus
        domainEvents := account.domainEvents ++ [account.raised .account action occurrence none] })
      (transition toStatus occurrence) account := by
  by_cases h : canTransitionAccount account.status toStatus = true
  · refine .changed h _ ⟨if toStatus = .active then "opened" else toStatus.text, rfl⟩ ?_
    simp [transition, raise, h]
    rfl
  · apply Ran.threw h (.domain (.businessRule ("Cannot transition loyalty account from \"" ++
      account.status.text ++ "\" to \"" ++ toStatus.text ++ "\"")))
    simp [transition, h]

end Methods

end LoyaltyAccount

end Loyalty
