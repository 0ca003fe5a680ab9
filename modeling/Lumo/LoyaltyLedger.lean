import Lumo.LabelledRuns
import Lumo.LoyaltyAccount
import Mathlib.Algebra.BigOperators.Group.List.Basic
import Mathlib.Data.List.Nodup
import Mathlib.Tactic.Linarith

/-! # The loyalty ledger

The use cases, one call after the other on one stored account. What decides whether the ledger
can be relied on is the sign of the points that a call names, and where the balance stands between
the tiers after points were taken out. -/
namespace Loyalty

open SharedKernel Ladders LabelledRuns LoyaltyAccount

/-- The store of one account. The object in it is the one that the methods are called on. -/
structure LoyaltyStore where
  tenantId : String
  account : LoyaltyAccount
  outbox : List LoyaltyTransitioned

namespace LoyaltyStore

def findById (store : LoyaltyStore) (accountId tenantId : String) : Option LoyaltyAccount :=
  if store.account.id.value = accountId ∧ store.tenantId = tenantId then some store.account
  else none

def save (store : LoyaltyStore) (account : LoyaltyAccount) : LoyaltyStore :=
  { store with
    account := { account with domainEvents := [] }
    outbox := store.outbox ++ account.domainEvents }

end LoyaltyStore

structure AccountStatusOutput where
  accountId : String
  status : String
  balance : ℚ
  tierName : String

def toOutput (account : LoyaltyAccount) : AccountStatusOutput :=
  ⟨account.id.value, account.status.text, account.points.balance, account.tierName⟩

structure OpenAccountInput where
  customerRef : String
  tenantId : String

/-- An account is opened for a customer that has none. -/
def OpenAccount.execute (tiers : RewardTiers) (input : OpenAccountInput)
    (existing : Option LoyaltyAccount) (generated : String) : Except Thrown LoyaltyStore := do
  let _ ← (Guard.againstEmpty input.customerRef "customerRef").mapError Thrown.domain
  if existing.isSome then
    throw (.domain (.conflict
      ("Customer \"" ++ input.customerRef ++ "\" already has a loyalty account")))
  let id ← (UniqueEntityId.from generated).mapError Thrown.domain
  let account ← LoyaltyAccount.create id input.customerRef tiers
  return LoyaltyStore.save ⟨input.tenantId, account, []⟩ account

structure LedgerInput where
  accountId : String
  tenantId : String
  idempotencyKey : String
  points : ℚ
  ref : String

structure RedeemRewardInput where
  accountId : String
  tenantId : String
  idempotencyKey : String
  rewardRef : String
  rewardName : String
  costPoints : ℚ

structure CompleteReferralInput where
  accountId : String
  tenantId : String
  idempotencyKey : String
  bonusPoints : ℚ
  referredCustomerRef : String

structure AdvanceAccountInput where
  accountId : String
  tenantId : String
  toStatus : AccountStatusValue

abbrev Answer := Except Thrown AccountStatusOutput

def runLedgerAction (accountId tenantId : String) (action : Method) (store : LoyaltyStore) :
    Answer × LoyaltyStore :=
  match store.findById accountId tenantId with
  | none => (.error (.domain (.notFound "Loyalty account not found")), store)
  | some account =>
    match action account with
    | .error e account => (.error e, { store with account := account })
    | .ok _ account => (.ok (toOutput account), store.save account)

section UseCases

variable (occurrence : Occurrence) (store : LoyaltyStore)

def EarnPoints.execute (input : LedgerInput) : Answer × LoyaltyStore :=
  runLedgerAction input.accountId input.tenantId
    (earn input.idempotencyKey input.points input.ref occurrence) store

def SpendPoints.execute (input : LedgerInput) : Answer × LoyaltyStore :=
  runLedgerAction input.accountId input.tenantId
    (spend input.idempotencyKey input.points input.ref occurrence) store

def RecordCashback.execute (input : LedgerInput) : Answer × LoyaltyStore :=
  runLedgerAction input.accountId input.tenantId
    (recordCashback input.idempotencyKey input.points input.ref occurrence) store

def RedeemReward.execute (input : RedeemRewardInput) : Answer × LoyaltyStore :=
  match Reward.create input.rewardRef input.rewardName input.costPoints with
  | .error e => (.error (.domain e), store)
  | .ok reward => runLedgerAction input.accountId input.tenantId
      (redeemReward input.idempotencyKey reward occurrence) store

def CompleteReferral.execute (input : CompleteReferralInput) : Answer × LoyaltyStore :=
  runLedgerAction input.accountId input.tenantId
    (completeReferral input.idempotencyKey input.bonusPoints input.referredCustomerRef occurrence)
    store

def AdvanceAccount.execute (input : AdvanceAccountInput) : Answer × LoyaltyStore :=
  runLedgerAction input.accountId input.tenantId (transition input.toStatus occurrence) store

end UseCases

inductive Call where
  | earnPoints (input : LedgerInput)
  | spendPoints (input : LedgerInput)
  | recordCashback (input : LedgerInput)
  | redeemReward (input : RedeemRewardInput)
  | completeReferral (input : CompleteReferralInput)
  | advanceAccount (input : AdvanceAccountInput)

structure Request where
  call : Call
  occurrence : Occurrence

def execute (request : Request) (store : LoyaltyStore) : Answer × LoyaltyStore :=
  match request.call with
  | .earnPoints input => EarnPoints.execute request.occurrence store input
  | .spendPoints input => SpendPoints.execute request.occurrence store input
  | .recordCashback input => RecordCashback.execute request.occurrence store input
  | .redeemReward input => RedeemReward.execute request.occurrence store input
  | .completeReferral input => CompleteReferral.execute request.occurrence store input
  | .advanceAccount input => AdvanceAccount.execute request.occurrence store input

def next (store : LoyaltyStore) (request : Request) : LoyaltyStore := (execute request store).2

def Call.receives : Call → Option LedgerInput
  | .earnPoints input | .recordCashback input => some input
  | .completeReferral input => some ⟨input.accountId, input.tenantId, input.idempotencyKey,
      input.bonusPoints, input.referredCustomerRef⟩
  | _ => none

/-- What a spend names. -/
def Call.spends : Call → Option LedgerInput
  | .spendPoints input => some input
  | _ => none

/-- What a call that takes points out names. -/
def Call.pays : Call → Option LedgerInput
  | .spendPoints input => some input
  | .redeemReward input => some ⟨input.accountId, input.tenantId, input.idempotencyKey,
      input.costPoints, input.rewardRef⟩
  | _ => none

structure Reconciled (account : LoyaltyAccount) : Prop where
  sum : account.points.balance = (account.transactions.map (·.pointsDelta)).sum
  nonnegative : 0 ≤ account.points.balance
  once : (account.transactions.map (·.idempotencyKey)).Nodup

def Below (tiers : RewardTiers) (tierName tierName' : String) : Prop :=
  ∃ tier ∈ tiers.rungs, ∃ tier' ∈ tiers.rungs, tier.name = tierName ∧ tier'.name = tierName' ∧
    tier.minimumPoints < tier'.minimumPoints

/-- The events that a call has published. -/
def published (store : LoyaltyStore) (request : Request) : List LoyaltyTransitioned :=
  (next store request).outbox.drop store.outbox.length

structure Sound (store : LoyaltyStore) (request : Request) : Prop where
  receives : ∀ input ∈ request.call.receives,
    store.account.points.balance ≤ (next store request).account.points.balance
  pays : ∀ input ∈ request.call.pays,
    (next store request).account.points.balance ≤ store.account.points.balance
  replays : ∀ input, input ∈ request.call.receives ∨ input ∈ request.call.pays →
    store.account.hasTransaction input.idempotencyKey = true →
      (next store request).account.points = store.account.points
  fails : ∀ e, (execute request store).1 = .error e →
    (next store request).account.transactions = store.account.transactions
  upgrades : ∀ e ∈ published store request, e.family = .tier → e.action = "upgraded" →
    Below store.account.tiers store.account.tierName (next store request).account.tierName

/-- The ledger is reconciled in every state that the calls lead to, and each of them is sound. -/
def Promised (store : LoyaltyStore) (requests : List Request) : Prop :=
  Always (fun s => Reconciled s.account) store (follow next store requests) ∧
    EveryStep Sound store (follow next store requests)

def Carried (store : LoyaltyStore) (input : LedgerInput) : Prop :=
  (store.findById input.accountId input.tenantId).isSome = true ∧
    store.account.Open input.idempotencyKey

instance (store : LoyaltyStore) (input : LedgerInput) : Decidable (Carried store input) :=
  inferInstanceAs (Decidable (_ ∧ _))

def KeepsTier (account : LoyaltyAccount) (balance : ℚ) : Prop :=
  ∀ tier ∈ account.tiers.rungs, tier.name = account.tierName →
    Holds RewardTier.minimumPoints balance account.tiers.rungs tier

instance (account : LoyaltyAccount) (balance : ℚ) : Decidable (KeepsTier account balance) :=
  inferInstanceAs (Decidable (∀ tier ∈ account.tiers.rungs, tier.name = account.tierName →
    tier.minimumPoints ≤ balance ∨ ∀ r ∈ account.tiers.rungs, tier.minimumPoints ≤ r.minimumPoints))

/-- Points that are brought in are not negative and reach the tier that the account is on. Points
that are spent are not negative. -/
def Meets (store : LoyaltyStore) (request : Request) : Prop :=
  (∀ input ∈ request.call.receives, Carried store input → 0 ≤ input.points ∧
    KeepsTier store.account (store.account.points.balance + input.points)) ∧
  ∀ input ∈ request.call.spends, Carried store input →
    input.points ≤ store.account.points.balance → 0 ≤ input.points

instance (store : LoyaltyStore) (request : Request) : Decidable (Meets store request) :=
  inferInstanceAs (Decidable (_ ∧ _))

section Steps

variable {store : LoyaltyStore} {request : Request} {input : LedgerInput} {action : Method}
  {accountId tenantId : String}

structure Kept (store : LoyaltyStore) : Prop where
  reconciled : Reconciled store.account
  placed : ∃ tier ∈ store.account.tiers.rungs, tier.name = store.account.tierName
  pulled : store.account.domainEvents = []

/-- A call that moves no points. -/
structure Quiet (store store' : LoyaltyStore) : Prop where
  points : store'.account.points = store.account.points
  transactions : store'.account.transactions = store.account.transactions
  tiers : store'.account.tiers = store.account.tiers
  tierName : store'.account.tierName = store.account.tierName
  pulled : store'.account.domainEvents = []
  published : ∃ events, store'.outbox = store.outbox ++ events ∧ ∀ e ∈ events, e.family ≠ .tier

theorem Quiet.refl (h : Kept store) : Quiet store store :=
  ⟨rfl, rfl, rfl, rfl, h.pulled, [], by simp, by simp⟩

/-- What a call has done: points were brought in, or taken out, or nothing was moved. -/
inductive Effect (store : LoyaltyStore) (call : Call) (result : Answer × LoyaltyStore) : Prop where
  | quiet (h : Quiet store result.2)
      (unreceived : ∀ input ∈ call.receives, ¬ Carried store input)
      (unspent : ∀ input ∈ call.spends, ¬ (Carried store input ∧
        input.points ≤ store.account.points.balance))
  | received (input : LedgerInput) (kind : TransactionKind) (family : EventFamily)
      (action : String) (occurrence : Occurrence) (tier : RewardTier)
      (mem : input ∈ call.receives) (carried : Carried store input) (untiered : family ≠ .tier)
      (highest : Highest RewardTier.minimumPoints (store.account.points.balance + input.points)
        store.account.tiers.rungs tier)
      (answered : ∃ output, result.1 = .ok output)
      (saved : result.2 = store.save (promoted tier occurrence (moved kind family action
        input.idempotencyKey input.points input.ref occurrence store.account)))
  | paid (input : LedgerInput) (family : EventFamily) (action : String) (occurrence : Occurrence)
      (mem : input ∈ call.pays) (carried : Carried store input) (untiered : family ≠ .tier)
      (enough : input.points ≤ store.account.points.balance)
      (redeemed : call.spends = none → 0 ≤ input.points)
      (answered : ∃ output, result.1 = .ok output)
      (saved : result.2 = store.save (moved .spend family action input.idempotencyKey
        (-input.points) input.ref occurrence store.account))

theorem findById_cases (store : LoyaltyStore) (accountId tenantId : String) :
    store.findById accountId tenantId = none ∨
      store.findById accountId tenantId = some store.account := by
  rw [LoyaltyStore.findById]
  split
  · exact .inr rfl
  · exact .inl rfl

theorem runLedgerAction_ran {enabled : Prop} {change : LoyaltyAccount → Prop} (h : Kept store)
    (ran : Ran enabled change action store.account) :
    (Quiet store (runLedgerAction accountId tenantId action store).2 ∧
        ¬ ((store.findById accountId tenantId).isSome = true ∧ enabled)) ∨
      ∃ account, change account ∧ (store.findById accountId tenantId).isSome = true ∧ enabled ∧
        runLedgerAction accountId tenantId action store =
          (.ok (toOutput account), store.save account) := by
  rcases findById_cases store accountId tenantId with hfound | hfound
  · apply Or.inl
    rw [runLedgerAction, hfound]
    exact ⟨.refl h, by simp⟩
  · cases ran with
    | looked held hran =>
      refine .inl ⟨?_, fun h => held h.2⟩
      simp only [runLedgerAction, hfound, hran]
      exact ⟨rfl, rfl, rfl, rfl, rfl, [], by simp [LoyaltyStore.save, h.pulled], by simp⟩
    | threw held e hran =>
      refine .inl ⟨?_, fun h => held h.2⟩
      simp only [runLedgerAction, hfound, hran]
      exact .refl h
    | changed carried account hchange hran =>
      refine .inr ⟨account, hchange, by rw [hfound]; rfl, carried, ?_⟩
      simp only [runLedgerAction, hfound, hran]

variable {call : Call} {name idempotencyKey ref : String} {account : LoyaltyAccount}
  {family : EventFamily} {kind : TransactionKind} {tier : RewardTier} {tiers : RewardTiers}

theorem receives_pays (h : input ∈ call.receives) (input' : LedgerInput) :
    input' ∉ call.pays ∧ input' ∉ call.spends := by
  cases call <;> simp [Call.receives, Call.pays, Call.spends] at h ⊢

theorem pays_of_spends (h : input ∈ call.spends) : input ∈ call.pays := by
  cases call <;> simp [Call.pays, Call.spends] at h ⊢
  exact h

theorem effect_receive (input : LedgerInput) (kind : TransactionKind) (family : EventFamily)
    (name : String) (occurrence : Occurrence) (h : Kept store) (mem : input ∈ call.receives)
    (untiered : family ≠ .tier) :
    Effect store call (runLedgerAction input.accountId input.tenantId
      (receive kind family name input.idempotencyKey input.points input.ref occurrence) store) := by
  have hne : store.account.tiers.rungs ≠ [] := by
    obtain ⟨tier, htier, _⟩ := h.placed
    exact List.ne_nil_of_mem htier
  rcases runLedgerAction_ran h (receive_ran kind family name input.idempotencyKey input.points
    input.ref occurrence hne) with ⟨hquiet, held⟩ | ⟨_, ⟨tier, highest, rfl⟩, hfound, hopen, hrun⟩
  · refine .quiet hquiet ?_ ?_
    · intro input' hmem'
      cases Option.mem_unique mem hmem'
      exact held
    · intro input' hmem'
      exact absurd hmem' (receives_pays mem input').2
  · rw [hrun]
    exact .received input kind family name occurrence tier mem ⟨hfound, hopen⟩ untiered highest
      ⟨_, rfl⟩ rfl

theorem effect_pay (input : LedgerInput) (family : EventFamily) (name insufficient : String)
    (occurrence : Occurrence) (h : Kept store) (mem : input ∈ call.pays) (untiered : family ≠ .tier)
    (redeemed : call.spends = none → 0 ≤ input.points) :
    Effect store call (runLedgerAction input.accountId input.tenantId
      (pay family name insufficient input.idempotencyKey input.points input.ref occurrence)
      store) := by
  rcases runLedgerAction_ran h (pay_ran family name insufficient input.idempotencyKey input.points
    input.ref occurrence) with ⟨hquiet, held⟩ | ⟨_, rfl, hfound, ⟨hopen, henough⟩, hrun⟩
  · refine .quiet hquiet ?_ ?_
    · intro input' hmem'
      exact absurd mem (receives_pays hmem' input).1
    · intro input' hmem' hcarried
      cases Option.mem_unique mem (pays_of_spends hmem')
      exact held ⟨hcarried.1.1, hcarried.1.2, hcarried.2⟩
  · rw [hrun]
    exact .paid input family name occurrence mem ⟨hfound, hopen⟩ untiered henough redeemed
      ⟨_, rfl⟩ rfl

theorem effect_transition (toStatus : AccountStatusValue) (occurrence : Occurrence) (h : Kept store)
    (unreceived : ∀ input, input ∉ call.receives) (unspent : ∀ input, input ∉ call.spends) :
    Effect store call
      (runLedgerAction accountId tenantId (transition toStatus occurrence) store) := by
  refine .quiet ?_ (fun input hmem => absurd hmem (unreceived input))
    fun input hmem => absurd hmem (unspent input)
  rcases runLedgerAction_ran h (transition_ran toStatus occurrence) with
    ⟨hquiet, _⟩ | ⟨_, ⟨name, rfl⟩, _, _, hrun⟩
  · exact hquiet
  · rw [hrun]
    refine ⟨rfl, rfl, rfl, rfl, rfl, [store.account.raised .account name occurrence none], ?_, ?_⟩
    · simp [LoyaltyStore.save, h.pulled]
    · simp [raised]

theorem Reward.create_ok {rewardRef : String} {costPoints : ℚ} {reward : Reward}
    (h : Reward.create rewardRef name costPoints = .ok reward) :
    reward.rewardRef.1 = rewardRef ∧ reward.costPoints = costPoints := by
  obtain ⟨v, hv, hreward⟩ := bind_eq_ok.mp h
  split at hreward
  · cases hreward
    exact ⟨Guard.againstEmpty_ok hv, rfl⟩
  · cases hreward

theorem execute_effect (h : Kept store) (request : Request) :
    Effect store request.call (execute request store) := by
  obtain ⟨call, occurrence⟩ := request
  cases call with
  | earnPoints input =>
    exact effect_receive input .earn .points "earned" occurrence h rfl (by decide)
  | spendPoints input =>
    exact effect_pay input .points "spent" _ occurrence h rfl (by decide) (by rintro ⟨⟩)
  | recordCashback input =>
    exact effect_receive input .cashback .points "earned" occurrence h rfl (by decide)
  | redeemReward input =>
    simp only [execute, RedeemReward.execute]
    split
    · exact .quiet (.refl h) (by rintro _ ⟨⟩) (by rintro _ ⟨⟩)
    · rename_i reward hreward
      obtain ⟨href, hcost⟩ := Reward.create_ok hreward
      rw [redeemReward, href, hcost]
      exact effect_pay ⟨input.accountId, input.tenantId, input.idempotencyKey, input.costPoints,
        input.rewardRef⟩ .reward "redeemed" _ occurrence h rfl (by decide)
        fun _ => hcost ▸ reward.notNegative
  | completeReferral input =>
    exact effect_receive ⟨input.accountId, input.tenantId, input.idempotencyKey, input.bonusPoints,
      input.referredCustomerRef⟩ .referral .referral "completed" occurrence h rfl (by decide)
  | advanceAccount input =>
    exact effect_transition input.toStatus occurrence h (by rintro _ ⟨⟩) (by rintro _ ⟨⟩)

variable {occurrence : Occurrence} {tier' : RewardTier} {points : ℚ}

theorem moved_reconciled {pointsDelta : ℚ} (h : Reconciled account)
    (hopen : account.Open idempotencyKey) (hbalance : 0 ≤ account.points.balance + pointsDelta) :
    Reconciled (moved kind family name idempotencyKey pointsDelta ref occurrence account) where
  sum := by
    simp only [moved, LoyaltyPoint.add, newTransaction, List.map_append, List.sum_append,
      List.map_cons, List.map_nil, List.sum_singleton, h.sum]
  nonnegative := hbalance
  once := by
    have hfresh := hopen.1
    rw [hasTransaction, List.any_eq_false] at hfresh
    simp only [moved, newTransaction, List.map_append, List.map_cons, List.map_nil]
    rw [List.nodup_append]
    refine ⟨h.once, List.nodup_singleton _, ?_⟩
    rintro _ hkey _ hnew rfl
    obtain ⟨t, ht, rfl⟩ := List.mem_map.mp hkey
    exact hfresh t ht (by simpa using hnew)

theorem promoted_reconciled (h : Reconciled account) :
    Reconciled (promoted tier occurrence account) := by
  rw [promoted]
  split
  · exact h
  · exact ⟨h.sum, h.nonnegative, h.once⟩

theorem promoted_tierName (tier : RewardTier) (occurrence : Occurrence)
    (account : LoyaltyAccount) : (promoted tier occurrence account).tierName = tier.name := by
  rw [promoted]
  split
  · rename_i h
    exact h.symm
  · rfl

theorem promoted_tiers (tier : RewardTier) (occurrence : Occurrence) (account : LoyaltyAccount) :
    (promoted tier occurrence account).tiers = account.tiers := by
  rw [promoted]
  split <;> rfl

theorem promoted_points (tier : RewardTier) (occurrence : Occurrence) (account : LoyaltyAccount) :
    (promoted tier occurrence account).points = account.points := by
  rw [promoted]
  split <;> rfl

theorem Reconciled.save (h : Reconciled account) (store : LoyaltyStore) :
    Reconciled (store.save account).account :=
  ⟨h.sum, h.nonnegative, h.once⟩

theorem RewardTiers.eq_of_name (h : tier ∈ tiers.rungs) (h' : tier' ∈ tiers.rungs)
    (hname : tier.name = tier'.name) : tier = tier' :=
  List.inj_on_of_nodup_map tiers.names h h' hname

theorem keepsTier_iff {balance : ℚ}
    (placed : ∃ tier ∈ account.tiers.rungs, tier.name = account.tierName)
    (highest : Highest RewardTier.minimumPoints balance account.tiers.rungs tier) :
    KeepsTier account balance ↔
      tier.name = account.tierName ∨ Below account.tiers account.tierName tier.name := by
  obtain ⟨old, hold, hname⟩ := placed
  have hkeeps : KeepsTier account balance ↔
      Holds RewardTier.minimumPoints balance account.tiers.rungs old := by
    constructor
    · intro h
      exact h old hold hname
    · intro h tier htier htname
      rw [RewardTiers.eq_of_name htier hold (htname.trans hname.symm)]
      exact h
  rw [hkeeps, highest.holds_iff hold fun r hr =>
    List.inj_on_of_nodup_map account.tiers.minimums hr hold]
  apply or_congr
  · constructor
    · rintro rfl
      exact hname
    · intro h
      exact RewardTiers.eq_of_name highest.mem hold (h.trans hname.symm)
  · constructor
    · intro h
      exact ⟨old, hold, tier, highest.mem, hname, rfl, h⟩
    · rintro ⟨below, hbelow, above, habove, hbname, haname, hlt⟩
      rw [RewardTiers.eq_of_name hold hbelow (hname.trans hbname.symm),
        RewardTiers.eq_of_name highest.mem habove haname.symm]
      exact hlt

theorem kept_next (h : Kept store) (hm : Meets store request) : Kept (next store request) := by
  rcases execute_effect h request with ⟨hq, _, _⟩ | ⟨input, kind, family, name, occurrence, tier, hmem,
    hcarried, _, highest, _, hsaved⟩ | ⟨input, family, name, occurrence, hmem, hcarried, _, henough,
    _, _, hsaved⟩
  · obtain ⟨tier, htier, hname⟩ := h.placed
    refine ⟨⟨?_, ?_, ?_⟩, ⟨tier, ?_, ?_⟩, hq.pulled⟩
    · rw [next, hq.points, hq.transactions]
      exact h.reconciled.sum
    · rw [next, hq.points]
      exact h.reconciled.nonnegative
    · rw [next, hq.transactions]
      exact h.reconciled.once
    · rwa [next, hq.tiers]
    · rwa [next, hq.tierName]
  · rw [next, hsaved]
    have hpoints := (hm.1 input hmem hcarried).1
    have hbalance := add_nonneg h.reconciled.nonnegative hpoints
    refine ⟨(promoted_reconciled (moved_reconciled h.reconciled hcarried.2 hbalance)).save store,
      ⟨tier, ?_, ?_⟩, rfl⟩
    · simp only [LoyaltyStore.save, promoted_tiers]
      exact highest.mem
    · exact (promoted_tierName _ _ _).symm
  · rw [next, hsaved]
    have hbalance : 0 ≤ store.account.points.balance + -input.points := by
      linarith
    exact ⟨(moved_reconciled h.reconciled hcarried.2 hbalance).save store, h.placed, rfl⟩

theorem quiet_untiered (h : Quiet store (next store request)) :
    ∀ e ∈ published store request, e.family ≠ .tier := by
  obtain ⟨events, hout, huntiered⟩ := h.published
  rw [published, hout, List.drop_left]
  exact huntiered

theorem promoted_event (occurrence : Occurrence) (h : tier.name ≠ account.tierName) :
    ∃ e : LoyaltyTransitioned, e.family = .tier ∧ e.action = "upgraded" ∧
      (promoted tier occurrence account).domainEvents = account.domainEvents ++ [e] := by
  refine ⟨account.raised .tier "upgraded" occurrence (some tier.name), rfl, rfl, ?_⟩
  rw [promoted, if_neg h]

theorem untiered_of_moved (hpulled : account.domainEvents = []) (huntiered : family ≠ .tier) :
    ∀ e ∈ (moved kind family name idempotencyKey points ref occurrence account).domainEvents,
      e.family ≠ .tier := by
  intro e he
  rw [moved, hpulled, List.nil_append, List.mem_singleton] at he
  rw [he]
  exact huntiered

theorem published_saved (hsaved : next store request = store.save account) :
    published store request = account.domainEvents := by
  rw [published, hsaved, LoyaltyStore.save, List.drop_left]

theorem balance_received (hsaved : next store request = store.save (promoted tier occurrence
      (moved kind family name idempotencyKey points ref occurrence store.account))) :
    (next store request).account.points.balance = store.account.points.balance + points := by
  rw [hsaved]
  simp only [LoyaltyStore.save, promoted_points, moved, LoyaltyPoint.add]

/-- The condition is enough: no call then breaks its promise. -/
theorem sound_of_meets (h : Kept store) (hm : Meets store request) : Sound store request := by
  rcases execute_effect h request with ⟨hq, _, _⟩ | ⟨input, kind, family, name, occurrence, tier,
    hmem, hcarried, huntiered, highest, ⟨output, hanswered⟩, hsaved⟩ | ⟨input, family, name,
    occurrence, hmem, hcarried, huntiered, henough, hredeemed, ⟨output, hanswered⟩, hsaved⟩
  · have hpoints : (next store request).account.points = store.account.points := hq.points
    refine ⟨?_, ?_, fun _ _ _ => hpoints, fun _ _ => hq.transactions, ?_⟩
    · intro _ _
      rw [hpoints]
    · intro _ _
      rw [hpoints]
    · intro e he hfamily
      exact absurd hfamily (quiet_untiered hq e he)
  · obtain ⟨hpoints, hkeeps⟩ := hm.1 input hmem hcarried
    have hbalance := balance_received hsaved
    refine ⟨?_, ?_, ?_, ?_, ?_⟩
    · intro _ _
      rw [hbalance]
      linarith
    · intro input' hmem'
      exact absurd hmem' (receives_pays hmem input').1
    · rintro input' (hmem' | hmem') hreplay
      · cases Option.mem_unique hmem hmem'
        exact absurd hcarried.2 (not_open_of_replay hreplay)
      · exact absurd hmem' (receives_pays hmem input').1
    · intro e he
      rw [hanswered] at he
      cases he
    · intro e he hfamily _
      rcases (keepsTier_iff h.placed highest).mp hkeeps with hsame | hbelow
      · rw [published_saved hsaved, promoted, if_pos (by exact hsame)] at he
        exact absurd hfamily (untiered_of_moved h.pulled huntiered e he)
      · rw [next, hsaved]
        simp only [LoyaltyStore.save, promoted_tierName]
        exact hbelow
  · have hbalance : (next store request).account.points.balance =
        store.account.points.balance - input.points := by
      rw [next, hsaved, sub_eq_add_neg]
      rfl
    have hpoints : 0 ≤ input.points := by
      cases hspends : request.call.spends with
      | none => exact hredeemed hspends
      | some input' =>
        cases Option.mem_unique hmem (pays_of_spends hspends)
        exact hm.2 input hspends hcarried henough
    refine ⟨?_, ?_, ?_, ?_, ?_⟩
    · intro input' hmem'
      exact absurd hmem (receives_pays hmem' input).1
    · intro _ _
      rw [hbalance]
      linarith
    · rintro input' (hmem' | hmem') hreplay
      · exact absurd hmem (receives_pays hmem' input).1
      · cases Option.mem_unique hmem hmem'
        exact absurd hcarried.2 (not_open_of_replay hreplay)
    · intro e he
      rw [hanswered] at he
      cases he
    · intro e he hfamily
      rw [published_saved hsaved] at he
      exact absurd hfamily (untiered_of_moved h.pulled huntiered e he)

/-- The condition is exact: each call that does not meet it breaks a promise. -/
theorem meets_of_sound (h : Kept store) (hs : Sound store request) : Meets store request := by
  rcases execute_effect h request with ⟨_, unreceived, unspent⟩ | ⟨input, kind, family, name,
    occurrence, tier, hmem, _, _, highest, _, hsaved⟩ | ⟨input, family, name, occurrence, hmem, _,
    _, _, _, _, hsaved⟩
  · refine ⟨fun input hmem hcarried => absurd hcarried (unreceived input hmem), ?_⟩
    intro input hmem hcarried henough
    exact absurd ⟨hcarried, henough⟩ (unspent input hmem)
  · refine ⟨?_, fun input' hmem' => absurd hmem' (receives_pays hmem input').2⟩
    intro input' hmem' _
    cases Option.mem_unique hmem hmem'
    constructor
    · have hle := hs.receives input hmem
      rw [balance_received hsaved] at hle
      linarith
    · rw [keepsTier_iff h.placed highest]
      by_cases hsame : tier.name = store.account.tierName
      · exact .inl hsame
      · have hother : tier.name ≠ (moved kind family name input.idempotencyKey input.points
            input.ref occurrence store.account).tierName := hsame
        obtain ⟨e, hfamily, haction, hevents⟩ := promoted_event occurrence hother
        have hbelow := hs.upgrades e (by rw [published_saved hsaved, hevents]; simp) hfamily haction
        rw [next, hsaved] at hbelow
        simp only [LoyaltyStore.save, promoted_tierName] at hbelow
        exact .inr hbelow
  · refine ⟨fun input' hmem' => absurd hmem (receives_pays hmem' input).1, ?_⟩
    intro input' hmem' _ _
    cases Option.mem_unique hmem (pays_of_spends hmem')
    have hle := hs.pays input hmem
    rw [next, hsaved] at hle
    simp only [LoyaltyStore.save, moved, LoyaltyPoint.add] at hle
    linarith

theorem open_kept {input : OpenAccountInput} {existing : Option LoyaltyAccount} {generated : String}
    (h : OpenAccount.execute tiers input existing generated = .ok store) : Kept store := by
  obtain ⟨_, _, h⟩ := bind_eq_ok.mp h
  split at h
  · cases h
  · obtain ⟨id, _, h⟩ := bind_eq_ok.mp h
    obtain ⟨account, hcreate, h⟩ := bind_eq_ok.mp h
    obtain ⟨tier, htier, haccount⟩ := bind_eq_ok.mp hcreate
    cases haccount
    cases h
    have hne : tiers.rungs ≠ [] := by
      intro hnil
      rw [hnil, resolveTier_nil] at htier
      cases htier
    obtain ⟨tier', htier', hhighest⟩ := resolveTier_highest 0 hne
    rw [htier] at htier'
    cases htier'
    exact ⟨⟨by simp [LoyaltyStore.save, LoyaltyPoint.zero], le_rfl, List.nodup_nil⟩,
      ⟨tier, hhighest.mem, rfl⟩, rfl⟩

end Steps

theorem reconciled_iff {store : LoyaltyStore} (h : Kept store) (requests : List Request) :
    Promised store requests ↔ EveryStep Meets store (follow next store requests) := by
  have hrun : Run (fun s request s' => next s request = s') store (follow next store requests) :=
    run_follow (fun _ _ => rfl) store requests
  refine always_and_everyStep_iff (I := Kept) ?_ ?_ ?_ ?_ h hrun
  · rintro s request _ hk rfl hm
    exact kept_next hk hm
  · intro s hk
    exact hk.reconciled
  · intro s request hk hm
    exact sound_of_meets hk hm
  · intro s request s' hk _ hm hs
    exact absurd (meets_of_sound hk hs) hm

/-- Whatever calls are made on an account that was opened, its balance is the sum of its ledger and
not negative and the calls keep what they promise, exactly when no call brings in or spends a
negative number of points, and no points are brought in that leave the balance short of the tier
that the account is on. -/
theorem run_reconciled {tiers : RewardTiers} {input : OpenAccountInput}
    {existing : Option LoyaltyAccount} {generated : String} {store : LoyaltyStore}
    (h : OpenAccount.execute tiers input existing generated = .ok store)
    (requests : List Request) :
    Promised store requests ↔ EveryStep Meets store (follow next store requests) :=
  reconciled_iff (open_kept h) requests

def DEFAULT_TIERS : RewardTiers where
  rungs := [⟨"bronze", 0⟩, ⟨"silver", 500⟩, ⟨"gold", 2000⟩]
  names := by decide
  minimums := by decide

def firstAccount : LoyaltyStore where
  tenantId := "tenant-1"
  account := ⟨⟨"wallet-1", by decide⟩, "customer-1", .active, .zero, DEFAULT_TIERS, "bronze", [], []⟩
  outbox := []

theorem firstAccount_opened :
    OpenAccount.execute DEFAULT_TIERS ⟨"customer-1", "tenant-1"⟩ none "wallet-1" =
      .ok firstAccount :=
  rfl

def earnRequest (idempotencyKey : String) (points : ℚ) : Request :=
  ⟨.earnPoints ⟨"wallet-1", "tenant-1", idempotencyKey, points, "order-1"⟩, ⟨"event-1", 0⟩⟩

def spendRequest (idempotencyKey : String) (points : ℚ) : Request :=
  ⟨.spendPoints ⟨"wallet-1", "tenant-1", idempotencyKey, points, "order-1"⟩, ⟨"event-1", 0⟩⟩

/-- Points spent above the tier's minimum, and a replay. -/
theorem run_reconciled_silver : Promised firstAccount [earnRequest "key-1" 600,
    spendRequest "key-2" 50, earnRequest "key-1" 600, earnRequest "key-3" 20] :=
  (run_reconciled firstAccount_opened _).mpr (by decide +kernel)

/-- A negative number of points is earned; points are earned after the silver ones are spent. -/
theorem reconciled_fails : ¬ Promised firstAccount [earnRequest "key-1" (-5)] ∧
    ¬ Promised firstAccount [earnRequest "key-1" 600, spendRequest "key-2" 600,
      earnRequest "key-3" 20] := by
  have hk : Kept firstAccount := open_kept firstAccount_opened
  constructor
  · rw [reconciled_iff hk]
    decide +kernel
  · rw [reconciled_iff hk]
    decide +kernel

end Loyalty
