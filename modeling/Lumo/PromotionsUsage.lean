import Lumo.LabelledRuns
import Lumo.PromotionsDiscountCalculator

/-! # Granted uses and recorded uses

Orders are placed one after the other: the calculator decides from the stored promotion whether
an order gets it, and the use is then recorded. The merchant edits the promotion in between. -/
namespace PromotionsUsage

open SharedKernel Builtins Promotions LabelledRuns

/-- `CreatePromotion`'s and `UpdatePromotion`'s checks of the name and of the dates. -/
def checkParts (name : String) (schedule : PromotionSchedule) : Except DomainError Unit := do
  let _ ← Guard.againstEmpty name "name"
  if schedule.endsAt.any fun endsAt => endsAt ≤ schedule.startsAt then
    .error (.validation "Invalid promotion schedule" [⟨"endsAt", "must be after startsAt"⟩])
  else .ok ()

def updatePromotion (changes : Promotion.Changes) (promotion : Promotion) :
    Except DomainError Promotion := do
  checkParts changes.name changes.schedule
  promotion.update changes

/-- A use case that fails saves nothing. -/
def saved (promotion : Promotion) : Except DomainError Promotion → Promotion
  | .ok after => after
  | .error _ => promotion

/-- The stored promotion, the clock, and what the calculator has granted so far. -/
structure Shop where
  promotion : Promotion
  now : ℤ
  /-- The limit in force at each order that was granted the promotion, the first one first. -/
  granted : List (Option ℤ)

inductive Event where
  | wait (elapsed : ℕ)
  | edit (changes : Promotion.Changes)
  | advance (toStatus : PromotionStatusValue)
  | order (coupon : Option CouponState) (input : CalculateDiscountsInput)

section Runs

variable (text : TextOps)

def Grants (s : Shop) (coupon : Option CouponState) (input : CalculateDiscountsInput) : Prop :=
  rejectionFor text ⟨s.promotion, coupon⟩ { input with now := s.now } = none

instance (s : Shop) (coupon : Option CouponState) (input : CalculateDiscountsInput) :
    Decidable (Grants text s coupon input) := by
  rw [Grants]
  infer_instance

def next (s : Shop) : Event → Shop
  | .wait elapsed => { s with now := s.now + elapsed }
  | .edit changes => { s with promotion := saved s.promotion (updatePromotion changes s.promotion) }
  | .advance toStatus => { s with promotion := saved s.promotion (s.promotion.transition toStatus) }
  | .order coupon input =>
    if Grants text s coupon input then
      { s with
        promotion := saved s.promotion s.promotion.recordUsage
        granted := s.granted ++ [s.promotion.usageLimit] }
    else s

def Step (s : Shop) (e : Event) (u : Shop) : Prop := u = next text s e

/-- A promotion that has just been created. -/
def Created (s : Shop) : Prop :=
  (∃ id name rule schedule eligibility limit method combinesWith, s.promotion =
    Promotion.create id name rule schedule eligibility limit method combinesWith) ∧ s.granted = []

def trace (s : Shop) (es : List Event) : List (Event × Shop) := follow (next text) s es

theorem run_trace (s : Shop) (es : List Event) : Run (Step text) s (trace text s es) := by
  apply run_follow
  intro s e
  rfl

end Runs

/-- Every order that was granted the promotion is recorded, and each was granted under a limit
that it does not exceed. -/
structure UsageKept (s : Shop) : Prop where
  recorded : s.promotion.usageCount = s.granted.length
  withinLimit : ∀ (i : ℕ) (limit : ℤ), s.granted[i]? = some (some limit) → i + 1 ≤ limit

def LastUseWhileScheduled (promotion : Promotion) : Prop :=
  promotion.status = .scheduled ∧
    ∃ limit, promotion.usageLimit = some limit ∧ limit ≤ promotion.usageCount + 1

/-- The step grants a scheduled promotion its last use. -/
def GrantsLastWhileScheduled (text : TextOps) (s : Shop) : Event → Prop
  | .order coupon input => Grants text s coupon input ∧ LastUseWhileScheduled s.promotion
  | _ => False

variable {text : TextOps}

variable {s : Shop} {promotion : Promotion}

variable {coupon : Option CouponState} {input : CalculateDiscountsInput} {after : Promotion}

theorem Grants.runs (h : Grants text s coupon input) :
    (s.promotion.status = .active ∨ s.promotion.status = .scheduled) ∧
      ∀ limit, s.promotion.usageLimit = some limit → s.promotion.usageCount + 1 ≤ limit := by
  simp only [Grants, rejectionFor, Option.orElse_eq_orElse, Option.orElse_eq_or,
    Option.or_eq_none_iff] at h
  obtain ⟨_, hstatus, _, _, husage, _⟩ := h
  constructor
  · cases hs : s.promotion.status with
    | active => exact Or.inl rfl
    | scheduled => exact Or.inr rfl
    | draft | paused | expired | depleted | cancelled | archived =>
      rw [hs] at hstatus
      cases hstatus
  · intro limit hl
    rw [usageRejection, hl] at husage
    split at husage
    · cases husage
    · rename_i hnot
      simp only [Option.any_some, decide_eq_true_eq, not_le] at hnot
      omega

theorem granted_recorded_iff (h : Grants text s coupon input) :
    (saved s.promotion s.promotion.recordUsage).usageCount = s.promotion.usageCount + 1 ↔
      ¬ LastUseWhileScheduled s.promotion := by
  obtain ⟨hruns, _⟩ := h.runs
  rcases s.promotion.recordUsage_cases with
    ⟨used, hok, hcount, _⟩ | ⟨hlimit, hno, e, he⟩
  · rw [hok]
    apply iff_of_true hcount
    rintro ⟨hs, limit, hl, hle⟩
    have hreach : s.promotion.usageLimit.any
        (fun limit : ℤ => limit ≤ (s.promotion.usageCount + 1 : ℕ)) = true := by
      rw [hl]
      simpa using hle
    simp only [Promotion.recordUsage, hreach, if_true, Promotion.transition, hs] at hok
    cases hok
  · rw [he]
    constructor
    · intro hcount
      exact absurd hcount (Nat.ne_of_lt (Nat.lt_succ_self _))
    · intro hnot
      rcases hruns with hs | hs
      · rw [hs] at hno
        cases hno
      · exact absurd ⟨hs, hlimit⟩ hnot

theorem update_usageCount {changes : Promotion.Changes}
    (h : updatePromotion changes promotion = .ok after) :
    after.usageCount = promotion.usageCount := by
  obtain ⟨_, _, h⟩ := bind_eq_ok.mp h
  rw [Promotion.update] at h
  split at h
  · cases h
  · split at h
    · cases h
    · cases h
      rfl

theorem transition_usageCount {toStatus : PromotionStatusValue}
    (h : promotion.transition toStatus = .ok after) : after.usageCount = promotion.usageCount := by
  rw [Promotion.transition] at h
  split at h
  · cases h
    rfl
  · cases h

theorem saved_usageCount {x : Except DomainError Promotion}
    (h : ∀ after, x = .ok after → after.usageCount = promotion.usageCount) :
    (saved promotion x).usageCount = promotion.usageCount := by
  cases hx : x with
  | ok after => exact h after hx
  | error e => rfl

/-- One step keeps the books exactly when it does not grant a scheduled promotion its last
use. -/
theorem usageKept_step (h : UsageKept s) (e : Event) :
    UsageKept (next text s e) ↔ ¬ GrantsLastWhileScheduled text s e := by
  cases e with
  | wait elapsed => exact iff_of_true ⟨h.recorded, h.withinLimit⟩ id
  | edit changes =>
    refine iff_of_true ⟨?_, h.withinLimit⟩ id
    exact (saved_usageCount fun _ hok => update_usageCount hok).trans h.recorded
  | advance toStatus =>
    refine iff_of_true ⟨?_, h.withinLimit⟩ id
    exact (saved_usageCount fun _ hok => transition_usageCount hok).trans h.recorded
  | order coupon input =>
    by_cases hg : Grants text s coupon input
    · have hnext : next text s (.order coupon input) = { s with
          promotion := saved s.promotion s.promotion.recordUsage
          granted := s.granted ++ [s.promotion.usageLimit] } := if_pos hg
      rw [hnext]
      constructor
      · rintro hkept ⟨_, hlast⟩
        have hcount := hkept.recorded
        simp only [List.length_append, List.length_singleton, ← h.recorded] at hcount
        exact (granted_recorded_iff hg).mp hcount hlast
      · intro hnot
        have hcount := (granted_recorded_iff hg).mpr fun hlast => hnot ⟨hg, hlast⟩
        constructor
        · simp only [List.length_append, List.length_singleton, ← h.recorded]
          exact hcount
        · intro i limit hi
          rcases Nat.lt_trichotomy i s.granted.length with hlt | heq | hgt
          · rw [List.getElem?_append_left hlt] at hi
            exact h.withinLimit i limit hi
          · rw [heq, List.getElem?_concat_length] at hi
            have hle := hg.runs.2 limit (Option.some.inj hi)
            rw [heq, ← h.recorded]
            exact hle
          · rw [List.getElem?_eq_none (by simp; omega)] at hi
            cases hi
    · have hnext : next text s (.order coupon input) = s := if_neg hg
      rw [hnext]
      exact iff_of_true h fun hlast => hg hlast.1

/-- Along any history, every granted order is recorded within the limit if and only if no order
is granted the last use of a promotion that is still scheduled. -/
theorem run_usageKept_iff {s : Shop} {tr : List (Event × Shop)} (hc : Created s)
    (hr : Run (Step text) s tr) :
    Always UsageKept s tr ↔ EveryStep (fun s e => ¬ GrantsLastWhileScheduled text s e) s tr := by
  refine always_iff_everyStep (I := UsageKept) ?_ (fun _ h => h) ?_ ?_ hr
  · rintro s e u hs rfl hg
    exact (usageKept_step hs e).mpr hg
  · rintro s e u hs rfl hg hu
    exact hg ((usageKept_step hs e).mp hu)
  · obtain ⟨⟨id, name, rule, schedule, eligibility, limit, method, combinesWith, hp⟩, hgranted⟩ := hc
    constructor
    · rw [hp, hgranted]
      rfl
    · intro i limit hi
      rw [hgranted] at hi
      cases hi

/-! A promotion of two uses, and one whose start is only scheduled. -/

def newPromotion (usageLimit : ℤ) : Shop where
  promotion := Promotion.create samplePromotionId "Sale" tenPercentOff ⟨0, none⟩ .everyone
    (some usageLimit) (some .automatic) none
  now := 1
  granted := []

def sampleOrder : Event := .order none (cartWith tenPercentOff)

theorem run_usageKept_iff_active : Always UsageKept (newPromotion 2)
    (trace sampleText (newPromotion 2) [.advance .active, sampleOrder, .wait 60, sampleOrder]) := by
  refine (run_usageKept_iff ⟨⟨_, _, _, _, _, _, _, _, rfl⟩, rfl⟩ (run_trace sampleText _ _)).mpr ?_
  refine ⟨id, ?_, id, ?_, trivial⟩
  · rintro ⟨_, hs, _⟩
    exact absurd hs (by decide +kernel)
  · rintro ⟨_, hs, _⟩
    exact absurd hs (by decide +kernel)

theorem usageKept_fails : ¬ ∀ (s : Shop) (tr : List (Event × Shop)),
    Created s → Run (Step sampleText) s tr → Always UsageKept s tr := by
  intro h
  have hlast := (h (newPromotion 1)
    (trace sampleText (newPromotion 1) [.advance .scheduled, sampleOrder])
    ⟨⟨_, _, _, _, _, _, _, _, rfl⟩, rfl⟩ (run_trace _ _ _)).last
  exact absurd hlast.recorded (by decide +kernel)

end PromotionsUsage
