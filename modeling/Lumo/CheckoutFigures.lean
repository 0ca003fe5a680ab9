import Lumo.AttemptWindows
import Lumo.CheckoutUseCases

/-! # What the use cases do to tax, discounts and totals

A call works on a session that was loaded for it. Until it assembles the totals again, they are
the loaded ones; its tax is the loaded one too, or one worked out for what it holds now. -/
namespace Checkout

open SharedKernel Builtins AttemptWindows

variable {text : TextOps} {regions : Regions} {loaded : CheckoutSession}

structure CodeEntry where
  codes : List String
  attempts : Counter

def CheckoutSession.codeEntry (session : CheckoutSession) : CodeEntry :=
  ⟨session.discountCodes, ⟨session.codeAttemptsWindowStartedAt, session.rejectedCodeAttempts⟩⟩

def CheckoutSession.restored (loaded session : CheckoutSession) : CheckoutSession :=
  { session with
    discountCodes := loaded.discountCodes
    rejectedCodeAttempts := loaded.rejectedCodeAttempts
    codeAttemptsWindowStartedAt := loaded.codeAttemptsWindowStartedAt
    discountSnapshot := loaded.discountSnapshot
    discountMinor := loaded.discountMinor
    taxMinor := loaded.taxMinor
    taxIncluded := loaded.taxIncluded
    totals := loaded.totals
    recalculated := loaded.recalculated }

def Rest (loaded session : CheckoutSession) : Prop := loaded.restored session = loaded

namespace Rest

theorem trans {session after : CheckoutSession} (h : Rest loaded session)
    (h' : Rest session after) : Rest loaded after := by
  have htwice : loaded.restored after = loaded.restored (session.restored after) := rfl
  rw [Rest, htwice, h', h]

variable {session : CheckoutSession} (h : Rest loaded session)
include h

theorem items : session.items = loaded.items := by
  have hrestored : session.items = (loaded.restored session).items := rfl
  rw [hrestored, h]

theorem evaluationInput : session.evaluationInput =
    { loaded.evaluationInput with codes := session.discountCodes } := by
  have hrestored : session.evaluationInput =
      { (loaded.restored session).evaluationInput with codes := session.discountCodes } := rfl
  rw [hrestored, h]

theorem taxRequest (horder : session.orderDiscount = loaded.orderDiscount)
    (hshipping : session.shippingDiscount = loaded.shippingDiscount) :
    session.taxRequest = loaded.taxRequest := by
  have hrestored : session.taxRequest = (loaded.restored session).shippingAddress.map fun address =>
      ⟨(loaded.restored session).items, ⟨address.1.country, address.1.province⟩,
        (loaded.restored session).shippingMinor, (loaded.restored session).currency,
        session.orderDiscount, session.shippingDiscount⟩ := rfl
  rw [hrestored, h, horder, hshipping]
  rfl

theorem totalsWith (horder : session.orderDiscount = loaded.orderDiscount)
    (hshipping : session.shippingDiscount = loaded.shippingDiscount) (taxMinor : ℤ)
    (included : Bool) : session.totalsWith taxMinor included =
      loaded.totalsWith taxMinor included := by
  have hrestored : session.totalsWith taxMinor included =
      CheckoutTotals.assemble (loaded.restored session).items taxMinor
        (loaded.restored session).shippingMinor session.orderDiscount
        (loaded.restored session).currency
        ⟨included, (loaded.restored session).shippingName, session.shippingDiscount⟩ := rfl
  rw [hrestored, h, horder, hshipping]
  rfl

end Rest

variable {session after : CheckoutSession} {port : PromotionValidationPort} {work : Work}
  {discountsChanged : Bool} {taxCalculation : Option TaxCalculationPort}

theorem CheckoutSession.whenOpen_ok {change : CheckoutSession}
    (h : session.whenOpen change = .ok after) : session.state.isOpen = true ∧ after = change := by
  rw [CheckoutSession.whenOpen] at h
  split at h
  · rename_i hopen
    cases h
    exact ⟨hopen, rfl⟩
  · cases h

structure HoldsTax (session : CheckoutSession) (calculation : TaxCalculation) : Prop where
  request : session.taxRequest = some calculation.request
  taxMinor : session.taxMinor = some calculation.result.taxMinor
  taxIncluded : session.taxIncluded = some calculation.result.included

/-- The tax is the one the session was loaded with, or one worked out since for what the session
holds. -/
def TaxFollows (loaded : CheckoutSession) (work : Work) : Prop :=
  (work.calculations = [] ∧ work.session.taxMinor = loaded.taxMinor ∧
      work.session.taxIncluded = loaded.taxIncluded) ∨
    ∃ calculation, work.calculations.getLast? = some calculation ∧
      HoldsTax work.session calculation

structure Keeps (loaded session : CheckoutSession) : Prop where
  state : session.state = loaded.state
  orderRef : session.orderRef = loaded.orderRef
  currency : session.currency = loaded.currency
  totals : session.totals = loaded.totals
  recalculated : session.recalculated = loaded.recalculated

theorem Keeps.refl (session : CheckoutSession) : Keeps session session := ⟨rfl, rfl, rfl, rfl, rfl⟩

structure InProgress (loaded : CheckoutSession) (work : Work) : Prop where
  keeps : Keeps loaded work.session
  tax : TaxFollows loaded work

theorem inProgress_refl (session : CheckoutSession) : InProgress session ⟨session, []⟩ :=
  ⟨Keeps.refl session, Or.inl ⟨rfl, rfl, rfl⟩⟩

/-- What a call may save: the totals are the loaded ones, or have been assembled from what is
saved with them; a new tax on a session with items comes with new totals. -/
structure Follows (loaded : CheckoutSession) (work : Work) : Prop where
  currency : work.session.currency = loaded.currency
  tax : TaxFollows loaded work
  totals : (work.session.recalculated = [] ∧ work.session.totals = loaded.totals) ∨
    (work.session.recalculated ≠ [] ∧ work.session.totals = some (work.session.totalsWith
      (work.session.taxMinor.getD 0) (work.session.taxIncluded.getD false)))
  assembled : work.calculations ≠ [] → work.session.items ≠ [] → work.session.recalculated ≠ []

def CheckoutSession.withDiscounts (discountSnapshot : Option DiscountSnapshot)
    (discountMinor : Option ℤ) (session : CheckoutSession) : CheckoutSession :=
  { session with discountSnapshot, discountMinor }

theorem refreshDiscounts_ok (h : refreshDiscounts port session = .ok after) :
    ∃ discountSnapshot discountMinor,
      after = session.withDiscounts discountSnapshot discountMinor := by
  obtain ⟨snapshot, _, h⟩ := bind_eq_ok.mp h
  split at h
  · obtain ⟨_, rfl⟩ := CheckoutSession.whenOpen_ok h
    exact ⟨some snapshot, _, rfl⟩
  · cases h
    exact ⟨session.discountSnapshot, session.discountMinor, rfl⟩

variable {result : TaxCalculationResult}

theorem calculateAndStoreTax_ok {port : TaxCalculationPort} {after : Work}
    (h : calculateAndStoreTax port work = .ok (after, result)) :
    ∃ request, work.session.taxRequest = some request ∧ work.session.state.isOpen = true ∧
      after = ⟨{ work.session with
        taxMinor := some result.taxMinor, taxIncluded := some result.included },
        work.calculations ++ [⟨request, result⟩]⟩ := by
  rw [calculateAndStoreTax] at h
  split at h
  · cases h
  · rename_i request hrequest
    obtain ⟨answer, _, h⟩ := bind_eq_ok.mp h
    obtain ⟨session, hsession, h⟩ := bind_eq_ok.mp h
    obtain ⟨hopen, rfl⟩ := CheckoutSession.whenOpen_ok hsession
    cases h
    exact ⟨request, hrequest, hopen, rfl⟩

theorem calculateAndStoreTax_inProgress {port : TaxCalculationPort} {after : Work}
    (hk : Keeps loaded work.session) (h : calculateAndStoreTax port work = .ok (after, result)) :
    InProgress loaded after := by
  obtain ⟨request, hrequest, _, rfl⟩ := calculateAndStoreTax_ok h
  refine ⟨⟨hk.state, hk.orderRef, hk.currency, hk.totals, hk.recalculated⟩, Or.inr ?_⟩
  exact ⟨⟨request, result⟩, List.getLast?_concat, hrequest, rfl, rfl⟩

theorem taxRequest_eq_none : session.taxRequest = none ↔ session.shippingAddress = none := by
  rw [CheckoutSession.taxRequest, Option.map_eq_none_iff]

theorem retax_ok {after : Work} (h : retax taxCalculation discountsChanged work = .ok after) :
    (∃ port result, taxCalculation = some port ∧ discountsChanged = true ∧
        calculateAndStoreTax port work = .ok (after, result)) ∨
      (after = work ∧ (discountsChanged = true → taxCalculation = none ∨
        work.session.taxRequest = none ∨ work.session.taxMinor = none)) := by
  cases taxCalculation with
  | none =>
    cases h
    exact Or.inr ⟨rfl, fun _ => Or.inl rfl⟩
  | some port =>
    rw [retax] at h
    split at h
    · rename_i hmoved
      cases hcalc : calculateAndStoreTax port work with
      | error e =>
        rw [hcalc] at h
        cases h
      | ok answer =>
        rw [hcalc] at h
        cases h
        exact Or.inl ⟨port, answer.2, rfl, hmoved.1, hcalc⟩
    · rename_i hstill
      cases h
      refine Or.inr ⟨rfl, fun hchanged => Or.inr ?_⟩
      by_contra hboth
      rw [not_or, taxRequest_eq_none] at hboth
      apply hstill
      exact ⟨hchanged, Option.isSome_iff_ne_none.mpr hboth.1,
        Option.isSome_iff_ne_none.mpr hboth.2⟩

theorem refreshDiscountsAndTax_ok {after : Work}
    (h : refreshDiscountsAndTax port taxCalculation work = .ok (after, discountsChanged)) :
    ∃ discountSnapshot discountMinor,
      let session := work.session.withDiscounts discountSnapshot discountMinor
      retax taxCalculation discountsChanged ⟨session, work.calculations⟩ = .ok after ∧
      (discountsChanged = false → session.orderDiscount = work.session.orderDiscount ∧
        session.shippingDiscount = work.session.shippingDiscount) := by
  obtain ⟨session, hrefresh, h⟩ := bind_eq_ok.mp h
  obtain ⟨retaxed, hretax, h⟩ := bind_eq_ok.mp h
  obtain ⟨discountSnapshot, discountMinor, rfl⟩ := refreshDiscounts_ok hrefresh
  cases h
  refine ⟨discountSnapshot, discountMinor, hretax, ?_⟩
  intro hsame
  simp only [decide_eq_false_iff_not, not_or, ne_eq, not_not] at hsame
  exact ⟨hsame.1.symm, hsame.2.symm⟩

theorem retax_rest {after : Work}
    (h : retax taxCalculation discountsChanged work = .ok after) :
    Rest work.session after.session ∧ after.session.codeEntry = work.session.codeEntry ∧
      after.session.discountSnapshot = work.session.discountSnapshot ∧
      after.session.discountMinor = work.session.discountMinor := by
  rcases retax_ok h with ⟨port, result, _, _, hcalc⟩ | ⟨rfl, _⟩
  · obtain ⟨request, _, _, rfl⟩ := calculateAndStoreTax_ok hcalc
    exact ⟨rfl, rfl, rfl, rfl⟩
  · exact ⟨rfl, rfl, rfl, rfl⟩

theorem refreshDiscountsAndTax_rest {after : Work}
    (h : refreshDiscountsAndTax port taxCalculation work = .ok (after, discountsChanged)) :
    Rest work.session after.session ∧ after.session.codeEntry = work.session.codeEntry := by
  obtain ⟨discountSnapshot, discountMinor, hretax, _⟩ := refreshDiscountsAndTax_ok h
  obtain ⟨hrest, hentry, _⟩ := retax_rest hretax
  have hdiscounts : Rest work.session (work.session.withDiscounts discountSnapshot discountMinor) :=
    rfl
  exact ⟨hdiscounts.trans hrest, hentry⟩

theorem taxRequest_of_sameDiscounts {discountSnapshot : Option DiscountSnapshot}
    {discountMinor : Option ℤ}
    (horder : (session.withDiscounts discountSnapshot discountMinor).orderDiscount =
      session.orderDiscount)
    (hshipping : (session.withDiscounts discountSnapshot discountMinor).shippingDiscount =
      session.shippingDiscount) :
    (session.withDiscounts discountSnapshot discountMinor).taxRequest = session.taxRequest := by
  rw [CheckoutSession.taxRequest]
  rw [horder, hshipping]
  rfl

/-- A refresh keeps the tax in step with the discounts, if the port that would work it out again
is the one that has worked it out in this call. -/
theorem refreshDiscountsAndTax_inProgress {after : Work} (hp : InProgress loaded work)
    (hport : taxCalculation = none → work.calculations = [])
    (h : refreshDiscountsAndTax port taxCalculation work = .ok (after, discountsChanged)) :
    InProgress loaded after ∧ (taxCalculation = none → after.calculations = []) := by
  obtain ⟨discountSnapshot, discountMinor, hretax, hsame⟩ := refreshDiscountsAndTax_ok h
  have hkeeps : Keeps loaded (work.session.withDiscounts discountSnapshot discountMinor) :=
    ⟨hp.keeps.state, hp.keeps.orderRef, hp.keeps.currency, hp.keeps.totals,
      hp.keeps.recalculated⟩
  rcases retax_ok hretax with ⟨taxPort, result, hsome, _, hcalc⟩ | ⟨rfl, hskipped⟩
  · refine ⟨calculateAndStoreTax_inProgress hkeeps hcalc, fun hnone => ?_⟩
    rw [hsome] at hnone
    cases hnone
  · refine ⟨⟨hkeeps, ?_⟩, hport⟩
    rcases hp.tax with hold | ⟨calculation, hlast, hholds⟩
    · exact Or.inl hold
    · -- a tax of this call is worked out again unless the discounts stayed the same
      have hunchanged : discountsChanged = false := by
        apply Bool.eq_false_iff.mpr
        intro hchanged
        rcases hskipped hchanged with hnone | hnone | hnone
        · rw [hport hnone] at hlast
          cases hlast
        · have hrequest := hholds.request
          have haddress := taxRequest_eq_none.mp hnone
          change work.session.shippingAddress = none at haddress
          rw [taxRequest_eq_none.mpr haddress] at hrequest
          cases hrequest
        · have htax := hholds.taxMinor
          rw [show work.session.taxMinor = none from hnone] at htax
          cases htax
      obtain ⟨horder, hshipping⟩ := hsame hunchanged
      refine Or.inr ⟨calculation, hlast, ?_, hholds.taxMinor, hholds.taxIncluded⟩
      exact (taxRequest_of_sameDiscounts horder hshipping).trans hholds.request

theorem recalculateTotals_ok (h : session.recalculateTotals = .ok after) :
    session.state.isOpen = true ∧ session.items ≠ [] ∧ ∃ event,
      after = { session with
        totals := some (session.totalsWith (session.taxMinor.getD 0)
          (session.taxIncluded.getD false))
        recalculated := session.recalculated ++ [event] } := by
  rw [CheckoutSession.recalculateTotals] at h
  split at h
  · cases h
  · rename_i hopen
    split at h
    · cases h
    · rename_i hitems
      cases h
      exact ⟨Decidable.not_not.mp hopen, hitems, _, rfl⟩

theorem InProgress.totalled (hp : InProgress loaded work) (event : CheckoutRecalculated) :
    Follows loaded { work with session := { work.session with
      totals := some (work.session.totalsWith (work.session.taxMinor.getD 0)
        (work.session.taxIncluded.getD false))
      recalculated := work.session.recalculated ++ [event] } } := by
  have hrecalculated : work.session.recalculated ++ [event] ≠ [] := by simp
  refine ⟨hp.keeps.currency, ?_, Or.inr ⟨hrecalculated, rfl⟩, fun _ _ => hrecalculated⟩
  rcases hp.tax with hold | ⟨calculation, hlast, hholds⟩
  · exact Or.inl hold
  · exact Or.inr ⟨calculation, hlast, hholds.request, hholds.taxMinor, hholds.taxIncluded⟩

theorem recalculateIfPossible_ok {after : Work} (h : recalculateIfPossible work = .ok after) :
    (work.session.items = [] ∧ after = work) ∨ (work.session.items ≠ [] ∧ ∃ event,
      after = { work with session := { work.session with
        totals := some (work.session.totalsWith (work.session.taxMinor.getD 0)
          (work.session.taxIncluded.getD false))
        recalculated := work.session.recalculated ++ [event] } }) := by
  rw [recalculateIfPossible] at h
  split at h
  · rename_i hitems
    cases hr : work.session.recalculateTotals with
    | error e =>
      rw [hr] at h
      cases h
    | ok session =>
      rw [hr] at h
      cases h
      obtain ⟨_, _, event, rfl⟩ := recalculateTotals_ok hr
      exact Or.inr ⟨List.length_pos_iff.mp hitems, event, rfl⟩
  · rename_i hitems
    cases h
    exact Or.inl ⟨List.length_eq_zero_iff.mp (Nat.eq_zero_of_not_pos hitems), rfl⟩

theorem codeEntry_recalculateIfPossible {after : Work} (h : recalculateIfPossible work = .ok after) :
    after.session.codeEntry = work.session.codeEntry := by
  rcases recalculateIfPossible_ok h with ⟨_, rfl⟩ | ⟨_, event, rfl⟩
  · rfl
  · rfl

theorem recalculateIfPossible_follows {after : Work} (hp : InProgress loaded work)
    (hloaded : loaded.recalculated = []) (h : recalculateIfPossible work = .ok after) :
    Follows loaded after ∧ after.session.orderRef = loaded.orderRef := by
  rcases recalculateIfPossible_ok h with ⟨hitems, rfl⟩ | ⟨_, event, rfl⟩
  · refine ⟨⟨hp.keeps.currency, hp.tax, Or.inl ⟨?_, hp.keeps.totals⟩, ?_⟩, hp.keeps.orderRef⟩
    · exact hp.keeps.recalculated.trans hloaded
    · intro _ hne
      exact absurd hitems hne
  · exact ⟨hp.totalled event, hp.keeps.orderRef⟩

/-- The session still belongs to no order, or to the one just placed with its totals, or to the
one it belonged to. -/
def OrderKept (loaded : CheckoutSession) (placed : Option PlacedOrder) (work : Work) : Prop :=
  (loaded.state.isOpen = true ∧ work.session.orderRef = loaded.orderRef) ∨
  (∃ order, placed = some order ∧ work.session.orderRef = some order.orderRef ∧
    work.session.state.isOpen = false ∧ work.session.items = loaded.items ∧
    work.session.totals = some order.draft.totals) ∨
  (work.session.orderRef = loaded.orderRef ∧ work.session.state = loaded.state ∧
    work.session.items = loaded.items ∧ work.session.totals = loaded.totals)

/-- An order takes the loaded totals, and its session would be taxed and totalled like the loaded
one. -/
structure DraftedFrom (loaded : CheckoutSession) (order : PlacedOrder) : Prop where
  totals : loaded.totals = some order.draft.totals
  items : loaded.items ≠ []
  address : loaded.taxRequest ≠ none
  taxRequest : order.session.taxRequest = loaded.taxRequest
  totalsWith : ∀ taxMinor included,
    order.session.totalsWith taxMinor included = loaded.totalsWith taxMinor included

def AsksFor (loaded : CheckoutSession) (request : PaymentInitiation) : Prop :=
  loaded.orderRef = some request.orderRef ∧ ∃ totals, loaded.totals = some totals ∧
    request.amountMinor = totals.totalMinor ∧ request.currency = totals.currency

structure Sound {α : Type} (loaded : CheckoutSession) (out : Outcome α) : Prop where
  saved : ∀ work, out.saved = some work → Follows loaded work ∧ OrderKept loaded out.placed work
  placed : ∀ order, out.placed = some order → DraftedFrom loaded order
  initiated : ∀ request, out.initiated = some request → AsksFor loaded request

section Calls

variable {α : Type} {loaded : CheckoutSession}

def KeepsEntry (loaded : CheckoutSession) (out : Outcome α) : Prop :=
  ∀ work, out.saved = some work → work.session.codeEntry = loaded.codeEntry

/-- A call that leaves the discount codes and their count alone. -/
structure Plain (loaded : CheckoutSession) (out : Outcome α) : Prop extends Sound loaded out where
  keepsEntry : KeepsEntry loaded out

theorem keepsEntry_none {out : Outcome α} (h : out.saved = none) : KeepsEntry loaded out := by
  intro work hwork
  rw [h] at hwork
  cases hwork

theorem sound_unsaved (answer : Except DomainError α) : Sound loaded (.unsaved answer) := by
  constructor
  · intro work h
    cases h
  · intro order h
    cases h
  · intro request h
    cases h

theorem plain_unsaved (answer : Except DomainError α) : Plain loaded (.unsaved answer) :=
  ⟨sound_unsaved answer, keepsEntry_none rfl⟩

theorem sound_ofWork {result : Except DomainError (Work × α)}
    (h : ∀ work answer, result = .ok (work, answer) → Follows loaded work ∧
      loaded.state.isOpen = true ∧ work.session.orderRef = loaded.orderRef) :
    Sound loaded (.ofWork result) := by
  cases result with
  | error e => exact sound_unsaved _
  | ok done =>
    obtain ⟨hfollows, hkept⟩ := h done.1 done.2 rfl
    constructor
    · intro work hwork
      cases hwork
      exact ⟨hfollows, Or.inl hkept⟩
    · intro order horder
      cases horder
    · intro request hrequest
      cases hrequest

theorem plain_ofWork {result : Except DomainError (Work × α)}
    (h : ∀ work answer, result = .ok (work, answer) → (Follows loaded work ∧
      loaded.state.isOpen = true ∧ work.session.orderRef = loaded.orderRef) ∧
      work.session.codeEntry = loaded.codeEntry) : Plain loaded (.ofWork result) := by
  refine ⟨sound_ofWork fun work answer hwork => (h work answer hwork).1, ?_⟩
  intro work hwork
  cases result with
  | error e => cases hwork
  | ok done =>
    cases hwork
    exact (h done.1 done.2 rfl).2

variable {answer : Except DomainError α} {draft : OrderDraft}

theorem plain_placed {order : PlacedOrder} (h : DraftedFrom loaded order) :
    Plain loaded ⟨answer, none, some order, none⟩ := by
  refine ⟨?_, keepsEntry_none rfl⟩
  constructor
  · intro work hwork
    cases hwork
  · intro placed hplaced
    cases hplaced
    exact h
  · intro request hrequest
    cases hrequest

theorem plain_initiated {request : PaymentInitiation} (h : AsksFor loaded request) :
    Plain loaded ⟨answer, none, none, some request⟩ := by
  refine ⟨?_, keepsEntry_none rfl⟩
  constructor
  · intro work hwork
    cases hwork
  · intro order horder
    cases horder
  · intro initiated hinitiated
    cases hinitiated
    exact h

/-- The figures of a session, and the order it belongs to. -/
structure KeepsFigures (loaded session : CheckoutSession) : Prop where
  orderRef : session.orderRef = loaded.orderRef
  currency : session.currency = loaded.currency
  totals : session.totals = loaded.totals
  recalculated : session.recalculated = loaded.recalculated
  taxMinor : session.taxMinor = loaded.taxMinor
  taxIncluded : session.taxIncluded = loaded.taxIncluded

variable {session after : CheckoutSession} {work : Work} {code : String} {now : ℤ}
  {port : PromotionValidationPort} {taxCalculation : Option TaxCalculationPort}

theorem KeepsFigures.follows (h : KeepsFigures loaded session) (hloaded : loaded.recalculated = []) :
    Follows loaded ⟨session, []⟩ := by
  refine ⟨h.currency, Or.inl ⟨rfl, h.taxMinor, h.taxIncluded⟩, Or.inl ⟨?_, h.totals⟩, ?_⟩
  · exact h.recalculated.trans hloaded
  · intro hne
    exact absurd rfl hne

/-- The figures, and the discount codes entered. -/
structure KeepsRest (loaded session : CheckoutSession) : Prop extends
    KeepsFigures loaded session where
  codeEntry : session.codeEntry = loaded.codeEntry

theorem plain_ofSession {mutated : Except DomainError CheckoutSession}
    (hloaded : loaded.recalculated = []) (h : ∀ session, mutated = .ok session →
      loaded.state.isOpen = true ∧ KeepsRest loaded session) :
    Plain loaded (.ofSession mutated) := by
  apply plain_ofWork
  intro work answer hwork
  cases hm : mutated with
  | error e =>
    rw [hm] at hwork
    cases hwork
  | ok session =>
    rw [hm] at hwork
    cases hwork
    obtain ⟨hopen, hkeeps⟩ := h session hm
    exact ⟨⟨hkeeps.follows hloaded, hopen, hkeeps.orderRef⟩, hkeeps.codeEntry⟩

theorem keepsRest_whenOpen {change : CheckoutSession} (h : loaded.whenOpen change = .ok after)
    (hc : KeepsRest loaded change) : loaded.state.isOpen = true ∧ KeepsRest loaded after := by
  obtain ⟨hopen, rfl⟩ := CheckoutSession.whenOpen_ok h
  exact ⟨hopen, hc⟩

variable (hloaded : loaded.recalculated = [])
include hloaded

/-- The input is checked, and then an open session is changed. -/
theorem plain_checked {α : Type} (checked : Except DomainError α) {change : α → CheckoutSession}
    (hc : ∀ value, KeepsRest loaded (change value)) :
    Plain loaded (.ofSession (checked >>= fun value => loaded.whenOpen (change value))) := by
  apply plain_ofSession hloaded
  intro session h
  obtain ⟨value, _, h⟩ := bind_eq_ok.mp h
  exact keepsRest_whenOpen h (hc value)

theorem loadItems_plain (items : List LoadItemInput) : Plain loaded (loadItems items loaded) :=
  plain_checked hloaded _ fun _ => ⟨⟨rfl, rfl, rfl, rfl, rfl, rfl⟩, rfl⟩

theorem setBillingAddress_plain (input : CheckoutAddressInput) :
    Plain loaded (setBillingAddress regions input loaded) :=
  plain_checked hloaded _ fun _ => ⟨⟨rfl, rfl, rfl, rfl, rfl, rfl⟩, rfl⟩

theorem setShippingAddress_plain (input : CheckoutAddressInput) :
    Plain loaded (setShippingAddress regions input loaded) :=
  plain_checked hloaded _ fun _ => ⟨⟨rfl, rfl, rfl, rfl, rfl, rfl⟩, rfl⟩

theorem setContactEmail_plain (email : String) :
    Plain loaded (setContactEmail text email loaded) :=
  plain_checked hloaded _ fun _ => ⟨⟨rfl, rfl, rfl, rfl, rfl, rfl⟩, rfl⟩

theorem selectShipping_plain (port : ShippingCalculationPort) (method : String) :
    Plain loaded (selectShipping port method loaded) := by
  apply plain_ofSession hloaded
  intro session h
  split at h
  · cases h
  · obtain ⟨quotes, _, h⟩ := bind_eq_ok.mp h
    split at h
    · cases h
    · obtain ⟨selection, _, h⟩ := bind_eq_ok.mp h
      exact keepsRest_whenOpen h ⟨⟨rfl, rfl, rfl, rfl, rfl, rfl⟩, rfl⟩

theorem selectPayment_plain (enabledMethods : List String) (paymentMethodRef provider : String) :
    Plain loaded (selectPayment enabledMethods paymentMethodRef provider loaded) := by
  apply plain_ofSession hloaded
  intro session h
  obtain ⟨selection, _, h⟩ := bind_eq_ok.mp h
  split at h
  · exact keepsRest_whenOpen h ⟨⟨rfl, rfl, rfl, rfl, rfl, rfl⟩, rfl⟩
  · cases h

theorem lock_plain : Plain loaded (lock loaded) := by
  apply plain_ofSession hloaded
  intro session h
  rw [CheckoutSession.lock] at h
  split at h
  · rename_i hstarted
    cases h
    refine ⟨?_, ⟨rfl, rfl, rfl, rfl, rfl, rfl⟩, rfl⟩
    simp only [CheckoutState.isStarted, beq_iff_eq] at hstarted
    rw [hstarted]
    rfl
  · cases h

theorem expireCheckout_plain : Plain loaded (expireCheckout loaded) := by
  apply plain_ofSession hloaded
  intro session h
  exact keepsRest_whenOpen h ⟨⟨rfl, rfl, rfl, rfl, rfl, rfl⟩, rfl⟩

theorem failCheckout_plain (reason : String) : Plain loaded (failCheckout reason loaded) :=
  plain_checked hloaded _ fun _ => ⟨⟨rfl, rfl, rfl, rfl, rfl, rfl⟩, rfl⟩

theorem validatePromotion_plain (port : PromotionValidationPort) (promotionRef : Option String) :
    Plain loaded (validatePromotion port promotionRef loaded) := by
  rw [validatePromotion]
  split
  · exact plain_unsaved _
  · split
    · apply plain_ofWork
      intro work answer h
      obtain ⟨applied, happlied, h⟩ := bind_eq_ok.mp h
      cases h
      obtain ⟨hopen, hkeeps⟩ := keepsRest_whenOpen happlied ⟨⟨rfl, rfl, rfl, rfl, rfl, rfl⟩, rfl⟩
      exact ⟨⟨hkeeps.follows hloaded, hopen, hkeeps.orderRef⟩, hkeeps.codeEntry⟩
    · exact plain_unsaved _

omit hloaded

structure KeepsPrice (session after : CheckoutSession) : Prop where
  keeps : Keeps session after
  taxRequest : after.taxRequest = session.taxRequest
  taxMinor : after.taxMinor = session.taxMinor
  taxIncluded : after.taxIncluded = session.taxIncluded

theorem InProgress.congr (hp : InProgress loaded work) (h : KeepsPrice work.session session) :
    InProgress loaded { work with session } := by
  refine ⟨⟨h.keeps.state.trans hp.keeps.state, h.keeps.orderRef.trans hp.keeps.orderRef,
    h.keeps.currency.trans hp.keeps.currency, h.keeps.totals.trans hp.keeps.totals,
    h.keeps.recalculated.trans hp.keeps.recalculated⟩, ?_⟩
  rcases hp.tax with ⟨hnone, hold, holdIncluded⟩ | ⟨calculation, hlast, hholds⟩
  · exact Or.inl ⟨hnone, h.taxMinor.trans hold, h.taxIncluded.trans holdIncluded⟩
  · exact Or.inr ⟨calculation, hlast, h.taxRequest.trans hholds.request,
      h.taxMinor.trans hholds.taxMinor, h.taxIncluded.trans hholds.taxIncluded⟩

theorem enterDiscountCode_ok (h : session.enterDiscountCode text code = .ok after) :
    session.state.isOpen = true ∧ KeepsPrice session after := by
  rw [CheckoutSession.enterDiscountCode] at h
  split at h
  · cases h
  · rename_i hopen
    refine ⟨Decidable.not_not.mp hopen, ?_⟩
    split at h
    · cases h
      exact ⟨Keeps.refl session, rfl, rfl, rfl⟩
    · split at h
      · cases h
      · cases h
        exact ⟨⟨rfl, rfl, rfl, rfl, rfl⟩, rfl, rfl, rfl⟩

theorem removeDiscountCode_ok (h : session.removeDiscountCode text code = .ok after) :
    session.state.isOpen = true ∧ KeepsPrice session after := by
  obtain ⟨hopen, rfl⟩ := CheckoutSession.whenOpen_ok h
  exact ⟨hopen, ⟨rfl, rfl, rfl, rfl, rfl⟩, rfl, rfl, rfl⟩

theorem recordRejectedDiscountCode_ok (h : session.recordRejectedDiscountCode now = .ok after) :
    KeepsPrice session after := by
  obtain ⟨_, rfl⟩ := CheckoutSession.whenOpen_ok h
  split
  · exact ⟨⟨rfl, rfl, rfl, rfl, rfl⟩, rfl, rfl, rfl⟩
  · exact ⟨⟨rfl, rfl, rfl, rfl, rfl⟩, rfl, rfl, rfl⟩

theorem rejectDiscountCode_inProgress {after : Work} (hp : InProgress loaded work)
    (hport : taxCalculation = none → work.calculations = [])
    (h : rejectDiscountCode text code now port taxCalculation work = .ok after) :
    InProgress loaded after := by
  obtain ⟨removed, hremoved, h⟩ := bind_eq_ok.mp h
  obtain ⟨counted, hcounted, h⟩ := bind_eq_ok.mp h
  obtain ⟨⟨refreshed, discountsChanged⟩, hrefreshed, h⟩ := bind_eq_ok.mp h
  have hp := hp.congr (removeDiscountCode_ok hremoved).2
  have hp := hp.congr (recordRejectedDiscountCode_ok hcounted)
  cases h
  exact (refreshDiscountsAndTax_inProgress hp hport hrefreshed).1

include hloaded

theorem tryDiscountCode_ok {entered : CheckoutSession} {answer : DiscountCodeOutput}
    (hp : InProgress loaded ⟨entered, []⟩)
    (h : tryDiscountCode text code now port taxCalculation entered = .ok (work, answer)) :
    Follows loaded work ∧ work.session.orderRef = loaded.orderRef := by
  obtain ⟨⟨refreshed, discountsChanged⟩, hrefreshed, h⟩ := bind_eq_ok.mp h
  obtain ⟨kept, hkept, h⟩ := bind_eq_ok.mp h
  obtain ⟨recalculated, hrecalculated, h⟩ := bind_eq_ok.mp h
  cases h
  obtain ⟨hrefreshed, hport⟩ := refreshDiscountsAndTax_inProgress hp (fun _ => rfl) hrefreshed
  have hkept : InProgress loaded kept := by
    split at hkept
    · cases hkept
      exact hrefreshed
    · exact rejectDiscountCode_inProgress hrefreshed hport hkept
  exact recalculateIfPossible_follows hkept hloaded hrecalculated

theorem addDiscountCode_sound (code : String) (now : ℤ) (port : PromotionValidationPort)
    (taxCalculation : Option TaxCalculationPort) :
    Sound loaded (addDiscountCode text code now port taxCalculation loaded) := by
  rw [addDiscountCode]
  split
  · exact sound_unsaved _
  · split
    · exact sound_unsaved _
    · split
      · split
        · exact sound_unsaved _
        · exact sound_unsaved _
      · rename_i entered hentered
        obtain ⟨hopen, hprice⟩ := enterDiscountCode_ok hentered
        apply sound_ofWork
        intro work answer h
        obtain ⟨hfollows, horder⟩ :=
          tryDiscountCode_ok hloaded ((inProgress_refl loaded).congr hprice) h
        exact ⟨hfollows, hopen, horder⟩

theorem removeDiscountCode_sound (code : String) (port : PromotionValidationPort)
    (taxCalculation : Option TaxCalculationPort) :
    Sound loaded (removeDiscountCode text code port taxCalculation loaded) := by
  apply sound_ofWork
  intro work answer h
  obtain ⟨removed, hremoved, h⟩ := bind_eq_ok.mp h
  obtain ⟨⟨refreshed, discountsChanged⟩, hrefreshed, h⟩ := bind_eq_ok.mp h
  obtain ⟨recalculated, hrecalculated, h⟩ := bind_eq_ok.mp h
  cases h
  obtain ⟨hopen, hprice⟩ := removeDiscountCode_ok hremoved
  obtain ⟨hrefreshed, _⟩ := refreshDiscountsAndTax_inProgress
    ((inProgress_refl loaded).congr hprice) (fun _ => rfl) hrefreshed
  obtain ⟨hfollows, horder⟩ := recalculateIfPossible_follows hrefreshed hloaded hrecalculated
  exact ⟨hfollows, hopen, horder⟩

theorem requestTaxCalculation_plain (port : TaxCalculationPort)
    (promotionValidation : Option PromotionValidationPort) :
    Plain loaded (requestTaxCalculation port promotionValidation loaded) := by
  unfold requestTaxCalculation
  split
  · exact plain_unsaved _
  · apply plain_ofWork
    intro work answer h
    obtain ⟨refreshed, hrefreshed, h⟩ := bind_eq_ok.mp h
    obtain ⟨⟨taxed, result⟩, htaxed, h⟩ := bind_eq_ok.mp h
    obtain ⟨recalculated, hrecalculated, h⟩ := bind_eq_ok.mp h
    cases h
    have hkeeps : Keeps loaded refreshed ∧ refreshed.codeEntry = loaded.codeEntry := by
      split at hrefreshed
      · cases hrefreshed
        exact ⟨Keeps.refl loaded, rfl⟩
      · obtain ⟨discountSnapshot, discountMinor, rfl⟩ := refreshDiscounts_ok hrefreshed
        exact ⟨⟨rfl, rfl, rfl, rfl, rfl⟩, rfl⟩
    obtain ⟨hfollows, horder⟩ := recalculateIfPossible_follows
      (calculateAndStoreTax_inProgress hkeeps.1 htaxed) hloaded hrecalculated
    obtain ⟨_, _, hopen, rfl⟩ := calculateAndStoreTax_ok htaxed
    rw [hkeeps.1.state] at hopen
    exact ⟨⟨hfollows, hopen, horder⟩,
      (codeEntry_recalculateIfPossible hrecalculated).trans hkeeps.2⟩

omit hloaded in
theorem recalculateTotals_plain (promotionValidation : Option PromotionValidationPort)
    (taxCalculation : Option TaxCalculationPort) :
    Plain loaded (recalculateTotals promotionValidation taxCalculation loaded) := by
  apply plain_ofWork
  intro work answer h
  obtain ⟨⟨refreshed, discountsChanged⟩, hrefreshed, h⟩ := bind_eq_ok.mp h
  obtain ⟨recalculated, hrecalculated, h⟩ := bind_eq_ok.mp h
  cases h
  have hp : InProgress loaded refreshed ∧ refreshed.session.codeEntry = loaded.codeEntry := by
    split at hrefreshed
    · cases hrefreshed
      exact ⟨inProgress_refl loaded, rfl⟩
    · exact ⟨(refreshDiscountsAndTax_inProgress (inProgress_refl loaded) (fun _ => rfl)
        hrefreshed).1, (refreshDiscountsAndTax_rest hrefreshed).2⟩
  obtain ⟨hopen, _, event, rfl⟩ := recalculateTotals_ok hrecalculated
  rw [hp.1.keeps.state] at hopen
  exact ⟨⟨hp.1.totalled event, hopen, hp.1.keeps.orderRef⟩, hp.2⟩

omit hloaded

theorem generateOrderDraft_ok (h : session.generateOrderDraft = .ok draft) :
    session.items ≠ [] ∧ session.taxRequest ≠ none ∧ session.totals = some draft.totals := by
  rw [CheckoutSession.generateOrderDraft] at h
  split at h
  · cases h
  · rename_i hitems
    split at h
    · rename_i hbilling haddress
      split at h
      · cases h
      · rename_i totals htotals
        cases h
        refine ⟨hitems, ?_, htotals⟩
        rw [ne_eq, taxRequest_eq_none, haddress]
        exact Option.some_ne_none _
    · cases h

/-- The session as the discounts were refreshed for its completion, and did not move. -/
structure Unmoved (loaded : CheckoutSession) (work : Work) : Prop where
  progress : InProgress loaded work
  calculations : work.calculations = []
  items : work.session.items = loaded.items
  taxRequest : work.session.taxRequest = loaded.taxRequest
  totalsWith : ∀ taxMinor included,
    work.session.totalsWith taxMinor included = loaded.totalsWith taxMinor included

theorem refreshDiscountsAndTax_unmoved {after : Work}
    (h : refreshDiscountsAndTax port taxCalculation ⟨loaded, []⟩ = .ok (after, false)) :
    Unmoved loaded after := by
  have hp := (refreshDiscountsAndTax_inProgress (inProgress_refl loaded) (fun _ => rfl) h).1
  obtain ⟨discountSnapshot, discountMinor, hretax, hsame⟩ := refreshDiscountsAndTax_ok h
  obtain ⟨horder, hshipping⟩ := hsame rfl
  rcases retax_ok hretax with ⟨_, _, _, hchanged, _⟩ | ⟨rfl, _⟩
  · cases hchanged
  · refine ⟨hp, rfl, rfl, taxRequest_of_sameDiscounts horder hshipping, ?_⟩
    intro taxMinor included
    rw [CheckoutSession.totalsWith]
    rw [horder, hshipping]
    rfl

theorem Unmoved.draftedFrom (hu : Unmoved loaded work)
    (h : work.session.generateOrderDraft = .ok draft) (orderRef : String) (undone : Bool) :
    DraftedFrom loaded ⟨orderRef, draft, work.session, undone⟩ := by
  obtain ⟨hitems, haddress, htotals⟩ := generateOrderDraft_ok h
  refine ⟨?_, ?_, ?_, hu.taxRequest, hu.totalsWith⟩
  · rw [← hu.progress.keeps.totals]
    exact htotals
  · rw [← hu.items]
    exact hitems
  · rw [← hu.taxRequest]
    exact haddress

include hloaded

theorem Unmoved.complete_follows {orderRef : String} (hu : Unmoved loaded work)
    (h : work.session.complete orderRef = .ok after) :
    Follows loaded { work with session := after } ∧ after.orderRef = some orderRef ∧
      after.state.isOpen = false ∧ after.items = loaded.items ∧ after.totals = loaded.totals := by
  obtain ⟨_, rfl⟩ := CheckoutSession.whenOpen_ok h
  have hkeeps := hu.progress.keeps
  refine ⟨⟨hkeeps.currency, ?_, Or.inl ⟨?_, hkeeps.totals⟩, ?_⟩, rfl, rfl, hu.items,
    hkeeps.totals⟩
  · rcases hu.progress.tax with hold | ⟨calculation, hlast, _⟩
    · exact Or.inl hold
    · rw [hu.calculations] at hlast
      cases hlast
  · exact hkeeps.recalculated.trans hloaded
  · intro hne
    exact absurd hu.calculations hne

theorem placeOrder_plain {deps : CompleteCheckoutDeps} {idempotencyKey : String}
    (hu : Unmoved loaded work) (hentry : work.session.codeEntry = loaded.codeEntry) :
    Plain loaded (placeOrder deps idempotencyKey work) := by
  rw [placeOrder]
  dsimp only
  split
  · exact plain_unsaved _
  · rename_i draft orderRef hcreated
    obtain ⟨drafted, hdraft, hcreated⟩ := bind_eq_ok.mp hcreated
    obtain ⟨_, _, hcreated⟩ := bind_eq_ok.mp hcreated
    obtain ⟨ref, _, hcreated⟩ := bind_eq_ok.mp hcreated
    cases hcreated
    split
    · exact plain_placed (hu.draftedFrom hdraft _ _)
    · split
      · exact plain_placed (hu.draftedFrom hdraft _ _)
      · rename_i session hcomplete
        refine ⟨⟨?_, ?_, ?_⟩, ?_⟩
        · intro saved hsaved
          cases hsaved
          obtain ⟨hfollows, horder, hclosed, hitems, htotals⟩ :=
            hu.complete_follows hloaded hcomplete
          refine ⟨hfollows, Or.inr (Or.inl ⟨_, rfl, horder, hclosed, hitems, ?_⟩)⟩
          exact htotals.trans (hu.draftedFrom hdraft orderRef false).totals
        · intro order horder
          cases horder
          exact hu.draftedFrom hdraft _ _
        · intro request hrequest
          cases hrequest
        · intro saved hsaved
          cases hsaved
          obtain ⟨_, rfl⟩ := CheckoutSession.whenOpen_ok hcomplete
          exact hentry

omit hloaded in
theorem reviewDiscounts_plain (hp : InProgress loaded work)
    (hentry : work.session.codeEntry = loaded.codeEntry) :
    Plain loaded (reviewDiscounts work) := by
  rw [reviewDiscounts]
  split
  · exact plain_unsaved _
  · rename_i session hsession
    obtain ⟨hopen, _, event, rfl⟩ := recalculateTotals_ok hsession
    rw [hp.keeps.state] at hopen
    refine ⟨⟨?_, ?_, ?_⟩, ?_⟩
    · intro saved hsaved
      cases hsaved
      exact ⟨hp.totalled event, Or.inl ⟨hopen, hp.keeps.orderRef⟩⟩
    · intro order horder
      cases horder
    · intro request hrequest
      cases hrequest
    · intro saved hsaved
      cases hsaved
      exact hentry

theorem completeCheckout_plain (deps : CompleteCheckoutDeps) (idempotencyKey : String) :
    Plain loaded (completeCheckout deps idempotencyKey loaded) := by
  rw [completeCheckout]
  split
  · exact plain_unsaved _
  · exact plain_unsaved _
  · split
    · exact plain_unsaved _
    · split
      · exact placeOrder_plain hloaded (⟨inProgress_refl loaded, rfl, rfl, rfl, fun _ _ => rfl⟩) rfl
      · split
        · exact plain_unsaved _
        · rename_i work discountsChanged hrefreshed
          have hentry := (refreshDiscountsAndTax_rest hrefreshed).2
          split
          · exact reviewDiscounts_plain (refreshDiscountsAndTax_inProgress
              (inProgress_refl loaded) (fun _ => rfl) hrefreshed).1 hentry
          · rename_i hmoved
            rw [not_or, Bool.not_eq_true] at hmoved
            rw [hmoved.1] at hrefreshed
            exact placeOrder_plain hloaded (refreshDiscountsAndTax_unmoved hrefreshed) hentry

omit hloaded in
theorem attachPaymentIntent_ok {paymentIntentRef : String}
    (h : session.attachPaymentIntent paymentIntentRef = .ok after) :
    KeepsRest session after ∧ after.state = session.state ∧ after.items = session.items := by
  rw [CheckoutSession.attachPaymentIntent] at h
  split at h
  · cases h
  · split at h
    · cases h
    · split at h
      · cases h
      · cases h
        exact ⟨⟨⟨rfl, rfl, rfl, rfl, rfl, rfl⟩, rfl⟩, rfl, rfl⟩

theorem initiatePayment_plain (port : PaymentInitiationPort) :
    Plain loaded (initiatePayment port loaded) := by
  rw [initiatePayment]
  split
  · exact plain_unsaved _
  · exact plain_unsaved _
  · exact plain_unsaved _
  · rename_i orderRef selection totals horder _ htotals
    split
    · exact plain_unsaved _
    · dsimp only
      have hasks : AsksFor loaded
          ⟨orderRef, selection.provider.1, totals.totalMinor, totals.currency⟩ :=
        ⟨horder, totals, htotals, rfl, rfl⟩
      split
      · exact plain_initiated hasks
      · split
        · exact plain_initiated hasks
        · rename_i attached hattached
          obtain ⟨hkeeps, hstate, hitems⟩ := attachPaymentIntent_ok hattached
          refine ⟨⟨?_, ?_, ?_⟩, ?_⟩
          · intro work hwork
            cases hwork
            exact ⟨hkeeps.follows hloaded,
              Or.inr (Or.inr ⟨hkeeps.orderRef, hstate, hitems, hkeeps.totals⟩)⟩
          · intro order h
            cases h
          · intro request h
            cases h
            exact hasks
          · intro work hwork
            cases hwork
            exact hkeeps.codeEntry

end Calls

end Checkout
