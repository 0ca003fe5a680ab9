import Lumo.CheckoutCharges

/-! # Discount codes of a checkout

What a rejected code leaves behind, which codes a session holds after any sequence of calls, and
when it takes no more. -/
namespace Checkout

open SharedKernel Builtins LabelledRuns CheckoutSessionMapper AttemptWindows

/-- The codes without one. -/
def without (code : String) (codes : List String) : List String := codes.filter (· != code)

theorem isDiscountCodeEntryLocked_eq (now : ℤ) (session : CheckoutSession) :
    session.isDiscountCodeEntryLocked now =
      locked DISCOUNT_ATTEMPT_WINDOW_MS DISCOUNT_ATTEMPT_LIMIT now session.codeEntry.attempts :=
  rfl

variable {text : TextOps} {loaded : CheckoutSession}

variable {work after : Work} {discountsChanged : Bool} {taxCalculation : Option TaxCalculationPort}
  {port : PromotionValidationPort} {code : String} {now : ℤ} {entered : CheckoutSession}
  {output : DiscountCodeOutput} {past : List ℤ} {w : Till}

theorem refreshDiscountsAndTax_answered (hstate : work.session.hasDiscountState = true)
    (h : refreshDiscountsAndTax port taxCalculation work = .ok (after, discountsChanged)) :
    ∃ snapshot, port.evaluate work.session.evaluationInput = .ok snapshot ∧
      after.session.discountSnapshot = some snapshot ∧
      after.session.discountMinor = some snapshot.orderDiscountMinor := by
  obtain ⟨session, hrefresh, h⟩ := bind_eq_ok.mp h
  obtain ⟨retaxed, hretax, h⟩ := bind_eq_ok.mp h
  obtain ⟨snapshot, hsnapshot, hrefresh⟩ := bind_eq_ok.mp hrefresh
  rw [if_pos (Or.inr hstate)] at hrefresh
  obtain ⟨_, rfl⟩ := CheckoutSession.whenOpen_ok hrefresh
  cases h
  obtain ⟨_, _, hkept, hminor⟩ := retax_rest hretax
  exact ⟨snapshot, hsnapshot, hkept, hminor⟩

theorem removeDiscountCode_rest {session after : CheckoutSession}
    (h : session.removeDiscountCode text code = .ok after) :
    Rest session after ∧ after.codeEntry = { session.codeEntry with
      codes := without (normalizeDiscountCode text code) session.discountCodes } ∧
      after.discountSnapshot = session.discountSnapshot := by
  obtain ⟨_, rfl⟩ := CheckoutSession.whenOpen_ok h
  exact ⟨rfl, rfl, rfl⟩

theorem recordRejectedDiscountCode_rest {session after : CheckoutSession}
    (h : session.recordRejectedDiscountCode now = .ok after) :
    Rest session after ∧ after.codeEntry = { session.codeEntry with
      attempts := record DISCOUNT_ATTEMPT_WINDOW_MS now session.codeEntry.attempts } ∧
      after.discountSnapshot = session.discountSnapshot := by
  obtain ⟨_, rfl⟩ := CheckoutSession.whenOpen_ok h
  split
  · rename_i hover
    exact ⟨rfl, congrArg (CodeEntry.mk _) (if_pos hover).symm, rfl⟩
  · rename_i hover
    exact ⟨rfl, congrArg (CodeEntry.mk _) (if_neg hover).symm, rfl⟩

theorem enterDiscountCode_rest {session after : CheckoutSession}
    (h : session.enterDiscountCode text code = .ok after) :
    Rest session after ∧ normalizeDiscountCode text code ∈ after.discountCodes ∧
      (after = session ∨ normalizeDiscountCode text code ∉ session.discountCodes ∧
        session.discountCodes.length < MAX_DISCOUNT_CODES ∧
        after.codeEntry = { session.codeEntry with
          codes := session.discountCodes ++ [normalizeDiscountCode text code] }) := by
  rw [CheckoutSession.enterDiscountCode] at h
  split at h
  · cases h
  · split at h
    · rename_i hheld
      cases h
      exact ⟨rfl, List.contains_iff_mem.mp hheld, Or.inl rfl⟩
    · rename_i hfresh
      split at h
      · cases h
      · rename_i hroom
        cases h
        refine ⟨rfl, List.mem_append_right _ (List.mem_singleton_self _), Or.inr ⟨?_, ?_, rfl⟩⟩
        · intro hmem
          exact hfresh (List.contains_iff_mem.mpr hmem)
        · exact not_le.mp hroom

def Legacy (session : CheckoutSession) : Prop :=
  session.hasDiscountState = false ∧ session.discountMinor.isSome = true

def TaxSettled (taxCalculation : Option TaxCalculationPort) (session : CheckoutSession) : Prop :=
  ∀ port request result, taxCalculation = some port → session.taxRequest = some request →
    port request = .ok result → session.taxMinor ≠ none →
    session.taxMinor = some result.taxMinor ∧ session.taxIncluded = some result.included

def CheckoutSession.totalsNow (session : CheckoutSession) : CheckoutTotals :=
  session.totalsWith (session.taxMinor.getD 0) (session.taxIncluded.getD false)

def TotalsSettled (session : CheckoutSession) : Prop :=
  session.items ≠ [] → session.totals = some session.totalsNow

/-- What is saved with a rejected code: the session without the code, with one rejection more, and
with what the ports answer for it. -/
structure Forgets (text : TextOps) (code : String) (now : ℤ)
    (promotionValidation : PromotionValidationPort) (taxCalculation : Option TaxCalculationPort)
    (loaded : CheckoutSession) (work : Work) : Prop where
  codeEntry : work.session.codeEntry =
    ⟨without (normalizeDiscountCode text code) loaded.discountCodes,
      record DISCOUNT_ATTEMPT_WINDOW_MS now loaded.codeEntry.attempts⟩
  rest : Rest loaded work.session
  discounts : ∃ snapshot, promotionValidation.evaluate { loaded.evaluationInput with
      codes := without (normalizeDiscountCode text code) loaded.discountCodes } = .ok snapshot ∧
    (¬ Legacy loaded → work.session.discountSnapshot = some snapshot ∧
      work.session.discountMinor = some snapshot.orderDiscountMinor)
  tax : TaxFollows loaded work
  totals : if work.session.items = [] then work.session.totals = loaded.totals
    else work.session.totals = some work.session.totalsNow
  /-- Discounts that come out as they were leave a settled tax and settled totals alone. -/
  unmoved : work.session.orderDiscount = loaded.orderDiscount →
    work.session.shippingDiscount = loaded.shippingDiscount → TaxSettled taxCalculation loaded →
    work.session.taxMinor = loaded.taxMinor ∧ work.session.taxIncluded = loaded.taxIncluded ∧
      (TotalsSettled loaded → work.session.totals = loaded.totals)

def DiscountsSettled (promotionValidation : PromotionValidationPort) (session : CheckoutSession) :
    Prop :=
  ∃ snapshot, promotionValidation.evaluate session.evaluationInput = .ok snapshot ∧
    session.discountSnapshot = some snapshot ∧
    session.discountMinor = some snapshot.orderDiscountMinor

structure Answered (taxCalculation : Option TaxCalculationPort) (work : Work) : Prop where
  port : ∀ calculation ∈ work.calculations, ∃ port, taxCalculation = some port ∧
    port calculation.request = .ok calculation.result
  asked : work.calculations ≠ [] → work.session.taxMinor ≠ none

theorem calculateAndStoreTax_answered {port : TaxCalculationPort} {result : TaxCalculationResult}
    (h : calculateAndStoreTax port work = .ok (after, result)) :
    ∃ request, port request = .ok result ∧ after.session.taxMinor = some result.taxMinor ∧
      after.calculations = work.calculations ++ [⟨request, result⟩] := by
  rw [calculateAndStoreTax] at h
  split at h
  · cases h
  · rename_i request _
    obtain ⟨answer, hanswer, h⟩ := bind_eq_ok.mp h
    obtain ⟨session, hsession, h⟩ := bind_eq_ok.mp h
    obtain ⟨_, rfl⟩ := CheckoutSession.whenOpen_ok hsession
    cases h
    exact ⟨request, hanswer, rfl, rfl⟩

theorem retax_answered (ha : Answered taxCalculation work)
    (h : retax taxCalculation discountsChanged work = .ok after) :
    Answered taxCalculation after ∧ (work.session.taxMinor = none → after = work) := by
  cases taxCalculation with
  | none =>
    cases h
    exact ⟨ha, fun _ => rfl⟩
  | some port =>
    rw [retax] at h
    split at h
    · rename_i hmoved
      cases hcalc : calculateAndStoreTax port work with
      | error e =>
        rw [hcalc] at h
        cases h
      | ok answer =>
        rw [hcalc] at h
        cases h
        obtain ⟨request, hanswer, htax, hcalculations⟩ := calculateAndStoreTax_answered hcalc
        refine ⟨⟨?_, fun _ => ?_⟩, fun hnone => ?_⟩
        · intro calculation hmem
          rw [hcalculations] at hmem
          rcases List.mem_append.mp hmem with hold | hnew
          · exact ha.port calculation hold
          · rw [List.mem_singleton.mp hnew]
            exact ⟨port, rfl, hanswer⟩
        · rw [htax]
          exact Option.some_ne_none _
        · rw [hnone] at hmoved
          cases hmoved.2.2
    · cases h
      exact ⟨ha, fun _ => rfl⟩

theorem refreshDiscountsAndTax_taxed (ha : Answered taxCalculation work)
    (h : refreshDiscountsAndTax port taxCalculation work = .ok (after, discountsChanged)) :
    Answered taxCalculation after ∧ (work.session.taxMinor = none →
      after.calculations = work.calculations ∧ after.session.taxMinor = none) := by
  obtain ⟨discountSnapshot, discountMinor, hretax, _⟩ := refreshDiscountsAndTax_ok h
  have hdiscounts : Answered taxCalculation
      ⟨work.session.withDiscounts discountSnapshot discountMinor, work.calculations⟩ :=
    ⟨ha.port, ha.asked⟩
  obtain ⟨hanswered, hnone⟩ := retax_answered hdiscounts hretax
  refine ⟨hanswered, fun htax => ?_⟩
  rw [hnone htax]
  exact ⟨rfl, htax⟩

/-- A code is taken off and counted, and everything is worked out again. -/
theorem rejectDiscountCode_ok (hsnapshot : work.session.discountSnapshot.isSome = true)
    (h : rejectDiscountCode text code now port taxCalculation work = .ok after) :
    Rest work.session after.session ∧
      after.session.codeEntry =
        ⟨without (normalizeDiscountCode text code) work.session.discountCodes,
          record DISCOUNT_ATTEMPT_WINDOW_MS now work.session.codeEntry.attempts⟩ ∧
      ∃ snapshot, port.evaluate { work.session.evaluationInput with
          codes := without (normalizeDiscountCode text code) work.session.discountCodes } =
          .ok snapshot ∧
        after.session.discountSnapshot = some snapshot ∧
        after.session.discountMinor = some snapshot.orderDiscountMinor := by
  obtain ⟨removed, hremoved, h⟩ := bind_eq_ok.mp h
  obtain ⟨counted, hcounted, h⟩ := bind_eq_ok.mp h
  obtain ⟨⟨refreshed, discountsChanged⟩, hrefreshed, h⟩ := bind_eq_ok.mp h
  cases h
  obtain ⟨hrest₁, hentry₁, hkept₁⟩ := removeDiscountCode_rest hremoved
  obtain ⟨hrest₂, hentry₂, hkept₂⟩ := recordRejectedDiscountCode_rest hcounted
  obtain ⟨hrest₃, hentry₃⟩ := refreshDiscountsAndTax_rest hrefreshed
  have hrest := hrest₁.trans hrest₂
  have hentry : counted.codeEntry =
      ⟨without (normalizeDiscountCode text code) work.session.discountCodes,
        record DISCOUNT_ATTEMPT_WINDOW_MS now work.session.codeEntry.attempts⟩ := by
    rw [hentry₂, hentry₁]
  have hstate : counted.hasDiscountState = true := by
    rw [CheckoutSession.hasDiscountState, hkept₂, hkept₁, hsnapshot, Bool.or_true]
  obtain ⟨snapshot, hanswer, hstored⟩ := refreshDiscountsAndTax_answered hstate hrefreshed
  refine ⟨hrest.trans hrest₃, hentry₃.trans hentry, snapshot, ?_, hstored⟩
  rw [hrest.evaluationInput, show counted.discountCodes = _ from congrArg CodeEntry.codes hentry]
    at hanswer
  exact hanswer

theorem rejectDiscountCode_taxed (ha : Answered taxCalculation work)
    (h : rejectDiscountCode text code now port taxCalculation work = .ok after) :
    Answered taxCalculation after ∧ (work.session.taxMinor = none →
      after.calculations = work.calculations) := by
  obtain ⟨removed, hremoved, h⟩ := bind_eq_ok.mp h
  obtain ⟨counted, hcounted, h⟩ := bind_eq_ok.mp h
  obtain ⟨⟨refreshed, discountsChanged⟩, hrefreshed, h⟩ := bind_eq_ok.mp h
  cases h
  have htax : counted.taxMinor = work.session.taxMinor :=
    (recordRejectedDiscountCode_ok hcounted).taxMinor.trans
      (removeDiscountCode_ok hremoved).2.taxMinor
  have hcounts : Answered taxCalculation { work with session := counted } := by
    refine ⟨ha.port, fun hasked => ?_⟩
    rw [htax]
    exact ha.asked hasked
  obtain ⟨hanswered, hnone⟩ := refreshDiscountsAndTax_taxed hcounts hrefreshed
  exact ⟨hanswered, fun hwork => (hnone (htax.trans hwork)).1⟩

theorem tax_unmoved (hfollows : TaxFollows loaded work) (ha : Answered taxCalculation work)
    (hasked : loaded.taxMinor = none → work.calculations = [])
    (hrequest : work.session.taxRequest = loaded.taxRequest)
    (hsettled : TaxSettled taxCalculation loaded) :
    work.session.taxMinor = loaded.taxMinor ∧ work.session.taxIncluded = loaded.taxIncluded := by
  rcases hfollows with ⟨_, hsame⟩ | ⟨calculation, hlast, hholds⟩
  · exact hsame
  · obtain ⟨port, hport, hanswer⟩ := ha.port calculation (List.mem_of_getLast? hlast)
    have htaxed : loaded.taxMinor ≠ none := by
      intro hnone
      rw [hasked hnone] at hlast
      cases hlast
    obtain ⟨hminor, hincluded⟩ := hsettled port calculation.request calculation.result hport
      (hrequest.symm.trans hholds.request) hanswer htaxed
    exact ⟨hholds.taxMinor.trans hminor.symm, hholds.taxIncluded.trans hincluded.symm⟩

theorem without_entered (h : loaded.enterDiscountCode text code = .ok entered) :
    without (normalizeDiscountCode text code) entered.discountCodes =
      without (normalizeDiscountCode text code) loaded.discountCodes ∧
    entered.codeEntry.attempts = loaded.codeEntry.attempts := by
  rcases (enterDiscountCode_rest h).2.2 with rfl | ⟨_, _, hentry⟩
  · exact ⟨rfl, rfl⟩
  · have hcodes : entered.discountCodes =
        loaded.discountCodes ++ [normalizeDiscountCode text code] :=
      congrArg CodeEntry.codes hentry
    rw [hcodes, hentry]
    exact ⟨by simp [without], rfl⟩

/-- A rejected code before the totals are assembled again. -/
structure Forgotten (text : TextOps) (code : String) (now : ℤ) (port : PromotionValidationPort)
    (taxCalculation : Option TaxCalculationPort) (loaded : CheckoutSession) (work : Work) :
    Prop where
  codeEntry : work.session.codeEntry =
    ⟨without (normalizeDiscountCode text code) loaded.discountCodes,
      record DISCOUNT_ATTEMPT_WINDOW_MS now loaded.codeEntry.attempts⟩
  rest : Rest loaded work.session
  discounts : ∃ snapshot, port.evaluate { loaded.evaluationInput with
      codes := without (normalizeDiscountCode text code) loaded.discountCodes } = .ok snapshot ∧
    work.session.discountSnapshot = some snapshot ∧
    work.session.discountMinor = some snapshot.orderDiscountMinor
  progress : InProgress loaded work
  answered : Answered taxCalculation work
  asked : loaded.taxMinor = none → work.calculations = []

theorem rejectDiscountCode_forgotten {refreshed : Work}
    (hentered : loaded.enterDiscountCode text code = .ok entered)
    (hrefreshed : refreshDiscountsAndTax port taxCalculation ⟨entered, []⟩ =
      .ok (refreshed, discountsChanged))
    (h : rejectDiscountCode text code now port taxCalculation refreshed = .ok after) :
    Forgotten text code now port taxCalculation loaded after := by
  obtain ⟨hrestEntered, hheld, _⟩ := enterDiscountCode_rest hentered
  obtain ⟨hcodes, hattempts⟩ := without_entered hentered
  obtain ⟨hrestRefreshed, hentry⟩ := refreshDiscountsAndTax_rest hrefreshed
  have hcodesKept : refreshed.session.discountCodes = entered.discountCodes :=
    congrArg CodeEntry.codes hentry
  -- the entered code makes the session one that has discounts
  have hstate : entered.hasDiscountState = true := by
    rw [CheckoutSession.hasDiscountState, decide_eq_true (List.length_pos_of_mem hheld),
      Bool.true_or]
  obtain ⟨first, _, hfirst, _⟩ := refreshDiscountsAndTax_answered hstate hrefreshed
  have hsnapshot : refreshed.session.discountSnapshot.isSome = true := by
    rw [hfirst]
    rfl
  obtain ⟨hrestAfter, hentryAfter, snapshot, hanswer, hstored⟩ := rejectDiscountCode_ok hsnapshot h
  have hrest := hrestEntered.trans hrestRefreshed
  have hprice := (enterDiscountCode_ok hentered).2
  obtain ⟨hprogress, hport⟩ := refreshDiscountsAndTax_inProgress
    ((inProgress_refl loaded).congr hprice) (fun _ => rfl) hrefreshed
  have hunasked : Answered taxCalculation ⟨entered, []⟩ :=
    ⟨fun _ hmem => absurd hmem List.not_mem_nil, fun hne => absurd rfl hne⟩
  obtain ⟨hanswered, hasked⟩ := refreshDiscountsAndTax_taxed hunasked hrefreshed
  obtain ⟨hansweredAfter, haskedAfter⟩ := rejectDiscountCode_taxed hanswered h
  constructor
  · rw [hentryAfter, hcodesKept, hcodes, hentry, hattempts]
  · exact hrest.trans hrestAfter
  · refine ⟨snapshot, ?_, hstored⟩
    rw [hrest.evaluationInput, hcodesKept, hcodes] at hanswer
    exact hanswer
  · exact rejectDiscountCode_inProgress hprogress hport h
  · exact hansweredAfter
  · intro hnone
    obtain ⟨hcalculations, htax⟩ := hasked (hprice.taxMinor.trans hnone)
    exact (haskedAfter htax).trans hcalculations

/-- Assembling the totals adds nothing to what is forgotten. -/
theorem Forgotten.recalculated {kept : Work}
    (hf : Forgotten text code now port taxCalculation loaded kept)
    (h : recalculateIfPossible kept = .ok work) :
    Forgets text code now port taxCalculation loaded work := by
  obtain ⟨snapshot, hanswer, hstored⟩ := hf.discounts
  have hunmoved : kept.session.orderDiscount = loaded.orderDiscount →
      kept.session.shippingDiscount = loaded.shippingDiscount → TaxSettled taxCalculation loaded →
      kept.session.taxMinor = loaded.taxMinor ∧ kept.session.taxIncluded = loaded.taxIncluded := by
    intro horder hshipping hsettled
    exact tax_unmoved hf.progress.tax hf.answered hf.asked
      (hf.rest.taxRequest horder hshipping) hsettled
  rcases recalculateIfPossible_ok h with ⟨hitems, rfl⟩ | ⟨hitems, event, rfl⟩
  · refine ⟨hf.codeEntry, hf.rest, ⟨snapshot, hanswer, fun _ => hstored⟩, hf.progress.tax, ?_, ?_⟩
    · rw [if_pos hitems]
      exact hf.progress.keeps.totals
    · intro horder hshipping hsettled
      obtain ⟨htax, hincluded⟩ := hunmoved horder hshipping hsettled
      exact ⟨htax, hincluded, fun _ => hf.progress.keeps.totals⟩
  · refine ⟨hf.codeEntry, Rest.trans hf.rest rfl, ⟨snapshot, hanswer, fun _ => hstored⟩,
      (hf.progress.totalled event).tax, ?_, ?_⟩
    · rw [if_neg hitems]
      rfl
    · intro horder hshipping hsettled
      obtain ⟨htax, hincluded⟩ := hunmoved horder hshipping hsettled
      refine ⟨htax, hincluded, fun htotals => ?_⟩
      rw [htotals (hf.rest.items ▸ hitems), CheckoutSession.totalsNow,
        ← hf.rest.totalsWith horder hshipping, ← htax, ← hincluded]

theorem tryDiscountCode_rejected (hentered : loaded.enterDiscountCode text code = .ok entered)
    (h : tryDiscountCode text code now port taxCalculation entered = .ok (work, output))
    (hrejected : output.applicable = false) :
    Forgets text code now port taxCalculation loaded work := by
  obtain ⟨⟨refreshed, discountsChanged⟩, hrefreshed, h⟩ := bind_eq_ok.mp h
  obtain ⟨kept, hkept, h⟩ := bind_eq_ok.mp h
  obtain ⟨recalculated, hrecalculated, h⟩ := bind_eq_ok.mp h
  cases h
  rw [if_neg (Bool.eq_false_iff.mp hrejected)] at hkept
  exact (rejectDiscountCode_forgotten hentered hrefreshed hkept).recalculated hrecalculated

/-- On a session whose snapshots are settled, a code that it did not hold leaves no trace. -/
theorem Forgets.traceless (h : Forgets text code now port taxCalculation loaded work)
    (hfresh : normalizeDiscountCode text code ∉ loaded.discountCodes)
    (hdiscounts : DiscountsSettled port loaded) (htax : TaxSettled taxCalculation loaded)
    (htotals : TotalsSettled loaded) :
    work.session.discountCodes = loaded.discountCodes ∧
      work.session.discountSnapshot = loaded.discountSnapshot ∧
      work.session.discountMinor = loaded.discountMinor ∧
      work.session.taxMinor = loaded.taxMinor ∧ work.session.taxIncluded = loaded.taxIncluded ∧
      work.session.totals = loaded.totals := by
  have hcodes : without (normalizeDiscountCode text code) loaded.discountCodes =
      loaded.discountCodes := by
    apply List.filter_eq_self.mpr
    intro held hheld
    exact bne_iff_ne.mpr fun heq => hfresh (heq ▸ hheld)
  obtain ⟨settled, hsettled, hsnapshot, hminor⟩ := hdiscounts
  obtain ⟨snapshot, hanswer, hstored⟩ := h.discounts
  have hmodern : ¬ Legacy loaded := by
    rintro ⟨hstate, _⟩
    rw [CheckoutSession.hasDiscountState, hsnapshot] at hstate
    simp at hstate
  rw [hcodes] at hanswer
  obtain rfl : settled = snapshot := Except.ok.inj (hsettled.symm.trans hanswer)
  obtain ⟨hstoredSnapshot, hstoredMinor⟩ := hstored hmodern
  have horder : work.session.orderDiscount = loaded.orderDiscount := by
    rw [CheckoutSession.orderDiscount, CheckoutSession.orderDiscount, hstoredMinor, hminor]
  have hshipping : work.session.shippingDiscount = loaded.shippingDiscount := by
    rw [CheckoutSession.shippingDiscount, CheckoutSession.shippingDiscount, hstoredSnapshot,
      hsnapshot]
  obtain ⟨htaxed, hincluded, htotalled⟩ := h.unmoved horder hshipping htax
  have hkept := congrArg CodeEntry.codes h.codeEntry
  exact ⟨hkept.trans hcodes, hstoredSnapshot.trans hsnapshot.symm,
    hstoredMinor.trans hminor.symm, htaxed, hincluded, htotalled htotals⟩

theorem saved_ofWork {α : Type} {result : Except DomainError (Work × α)}
    (h : (Outcome.ofWork result).saved = some work) : ∃ answer, result = .ok (work, answer) := by
  cases result with
  | error e => cases h
  | ok done =>
    cases h
    exact ⟨done.2, rfl⟩

inductive Entry (text : TextOps) (before : CodeEntry) : Option ℤ → CodeEntry → Prop where
  | kept : Entry text before none before
  | entered (code : String) (fresh : normalizeDiscountCode text code ∉ before.codes)
      (room : before.codes.length < MAX_DISCOUNT_CODES) :
    Entry text before none
      { before with codes := before.codes ++ [normalizeDiscountCode text code] }
  | removed (code : String) : Entry text before none
      { before with codes := without (normalizeDiscountCode text code) before.codes }
  | rejected (code : String) (now : ℤ) : Entry text before (some now)
      ⟨without (normalizeDiscountCode text code) before.codes,
        record DISCOUNT_ATTEMPT_WINDOW_MS now before.attempts⟩

def rejectionOf (now : ℤ) (out : Outcome DiscountCodeOutput) : Option ℤ :=
  match out.answer, out.saved with
  | .ok output, some _ => if output.applicable then none else some now
  | _, _ => none

theorem addDiscountCode_saved
    (h : (addDiscountCode text code now port taxCalculation loaded).saved = some work) :
    ∃ entered output, loaded.isDiscountCodeEntryLocked now = false ∧
      loaded.enterDiscountCode text (normalizeDiscountCode text code) = .ok entered ∧
      tryDiscountCode text (normalizeDiscountCode text code) now port taxCalculation entered =
        .ok (work, output) ∧
      addDiscountCode text code now port taxCalculation loaded = .ofWork (.ok (work, output)) := by
  rw [addDiscountCode] at h ⊢
  split at h
  · cases h
  · rename_i hcode
    rw [if_neg hcode]
    split at h
    · cases h
    · rename_i hunlocked
      rw [if_neg hunlocked]
      split at h
      · split at h <;> cases h
      · rename_i entered hentered
        simp only [hentered]
        cases htry : tryDiscountCode text (normalizeDiscountCode text code) now port
            taxCalculation entered with
        | error e =>
          rw [htry] at h
          cases h
        | ok done =>
          obtain ⟨saved, output⟩ := done
          rw [htry] at h
          cases h
          exact ⟨entered, output, Bool.eq_false_iff.mpr hunlocked, rfl, htry, rfl⟩

theorem addDiscountCode_evaluated
    (h : (addDiscountCode text code now port taxCalculation loaded).saved = some work) :
    (∃ output, (addDiscountCode text code now port taxCalculation loaded).answer = .ok output) ∧
      loaded.isDiscountCodeEntryLocked now = false ∧
      (normalizeDiscountCode text (normalizeDiscountCode text code) ∈ loaded.discountCodes ∨
        loaded.discountCodes.length < MAX_DISCOUNT_CODES) := by
  obtain ⟨entered, output, hunlocked, hentered, _, hout⟩ := addDiscountCode_saved h
  refine ⟨⟨output, ?_⟩, hunlocked, ?_⟩
  · rw [hout]
    rfl
  · obtain ⟨_, hheld, rfl | ⟨_, hroom, _⟩⟩ := enterDiscountCode_rest hentered
    · exact Or.inl hheld
    · exact Or.inr hroom

theorem addDiscountCode_rejected
    (hsaved : (addDiscountCode text code now port taxCalculation loaded).saved = some work)
    (hanswer : (addDiscountCode text code now port taxCalculation loaded).answer = .ok output)
    (hrejected : output.applicable = false) :
    Forgets text (normalizeDiscountCode text code) now port taxCalculation loaded work := by
  obtain ⟨entered, answered, _, hentered, htry, hout⟩ := addDiscountCode_saved hsaved
  rw [hout] at hanswer
  cases hanswer
  exact tryDiscountCode_rejected hentered htry hrejected

theorem tryDiscountCode_accepted
    (h : tryDiscountCode text code now port taxCalculation entered = .ok (work, output))
    (haccepted : output.applicable = true) : work.session.codeEntry = entered.codeEntry := by
  obtain ⟨⟨refreshed, discountsChanged⟩, hrefreshed, h⟩ := bind_eq_ok.mp h
  obtain ⟨kept, hkept, h⟩ := bind_eq_ok.mp h
  obtain ⟨recalculated, hrecalculated, h⟩ := bind_eq_ok.mp h
  cases h
  rw [if_pos haccepted] at hkept
  cases hkept
  exact (codeEntry_recalculateIfPossible hrecalculated).trans
    (refreshDiscountsAndTax_rest hrefreshed).2

theorem addDiscountCode_entry
    (h : (addDiscountCode text code now port taxCalculation loaded).saved = some work) :
    Entry text loaded.codeEntry
      (rejectionOf now (addDiscountCode text code now port taxCalculation loaded))
      work.session.codeEntry := by
  obtain ⟨entered, output, _, hentered, htry, hout⟩ := addDiscountCode_saved h
  rw [hout, Outcome.ofWork, rejectionOf]
  dsimp only
  cases happlicable : output.applicable with
  | false =>
    rw [if_neg Bool.false_ne_true, (tryDiscountCode_rejected hentered htry happlicable).codeEntry]
    exact .rejected (normalizeDiscountCode text code) now
  | true =>
    rw [if_pos rfl, tryDiscountCode_accepted htry happlicable]
    rcases (enterDiscountCode_rest hentered).2.2 with rfl | ⟨hfresh, hroom, hentry⟩
    · exact .kept
    · rw [hentry]
      exact .entered (normalizeDiscountCode text code) hfresh hroom

theorem removeDiscountCode_entry
    (h : (removeDiscountCode text code port taxCalculation loaded).saved = some work) :
    Entry text loaded.codeEntry none work.session.codeEntry := by
  obtain ⟨answer, h⟩ := saved_ofWork h
  obtain ⟨removed, hremoved, h⟩ := bind_eq_ok.mp h
  obtain ⟨⟨refreshed, discountsChanged⟩, hrefreshed, h⟩ := bind_eq_ok.mp h
  obtain ⟨recalculated, hrecalculated, h⟩ := bind_eq_ok.mp h
  cases h
  have hentry : work.session.codeEntry = { loaded.codeEntry with
      codes := without (normalizeDiscountCode text code) loaded.discountCodes } := by
    rw [codeEntry_recalculateIfPossible hrecalculated,
      (refreshDiscountsAndTax_rest hrefreshed).2, (removeDiscountCode_rest hremoved).2.1]
  rw [hentry]
  exact .removed code

def Operation.rejection (config : CheckoutConfig) (session : CheckoutSession) :
    Operation → Option ℤ
  | .addDiscountCode code now promotionValidation taxCalculation =>
    rejectionOf now
      (Checkout.addDiscountCode config.text code now promotionValidation taxCalculation session)
  | _ => none

theorem Operation.perform_entry {config : CheckoutConfig} (hloaded : loaded.recalculated = [])
    (operation : Operation) (h : (operation.perform config loaded).saved = some work) :
    Entry config.text loaded.codeEntry (operation.rejection config loaded)
      work.session.codeEntry := by
  cases operation with
  | addDiscountCode code now promotionValidation taxCalculation => exact addDiscountCode_entry h
  | removeDiscountCode code promotionValidation taxCalculation => exact removeDiscountCode_entry h
  | _ =>
    rw [(Operation.perform_plain config hloaded _ rfl).keepsEntry work h]
    exact .kept

/-- At most five codes, normalised, none of them twice. -/
structure Tidy (text : TextOps) (entry : CodeEntry) : Prop where
  few : entry.codes.length ≤ MAX_DISCOUNT_CODES
  distinct : entry.codes.Nodup
  normalized : ∀ code ∈ entry.codes, ∃ raw, code = normalizeDiscountCode text raw

theorem Tidy.without {entry : CodeEntry} (h : Tidy text entry) (code : String)
    (attempts : Counter) : Tidy text ⟨Checkout.without code entry.codes, attempts⟩ where
  few := (List.length_filter_le _ _).trans h.few
  distinct := h.distinct.filter _
  normalized := fun held hheld => h.normalized held (List.mem_of_mem_filter hheld)

theorem Entry.tidy {before after : CodeEntry} {rejection : Option ℤ}
    (he : Entry text before rejection after) (h : Tidy text before) : Tidy text after := by
  cases he with
  | kept => exact h
  | entered code fresh room =>
    constructor
    · rw [List.length_append]
      exact room
    · exact List.nodup_append.mpr ⟨h.distinct, List.nodup_singleton _, by
        rintro held hheld other hother rfl
        rw [List.mem_singleton.mp hother] at hheld
        exact fresh hheld⟩
    · intro held hheld
      rcases List.mem_append.mp hheld with hold | hnew
      · exact h.normalized held hold
      · exact ⟨code, List.mem_singleton.mp hnew⟩
  | removed code | rejected code now => exact h.without _ _

theorem Entry.attempts {before after : CodeEntry} {rejection : Option ℤ}
    (he : Entry text before rejection after) : after.attempts =
      rejection.toList.foldl (fun c now => record DISCOUNT_ATTEMPT_WINDOW_MS now c)
        before.attempts := by
  cases he <;> rfl

def History (text : TextOps) (past : List ℤ) (w : Till) : Prop :=
  ∃ session, w.row = toRow session ∧ Tidy text session.codeEntry ∧
    session.codeEntry.attempts =
      past.foldl (fun c now => record DISCOUNT_ATTEMPT_WINDOW_MS now c) Counter.empty

theorem codeEntry_readBack {session : CheckoutSession} (h : session.codeEntry.attempts =
      past.foldl (fun c now => record DISCOUNT_ATTEMPT_WINDOW_MS now c) Counter.empty)
    (contactEmail : Option ContactEmail) :
    (readBack session contactEmail).codeEntry = session.codeEntry := by
  by_cases hk : keepsDiscounts session = true
  · rw [CheckoutSession.codeEntry, readBack, if_pos hk]
    rfl
  · rw [foldl_record] at h
    have hstart := congrArg Counter.start h
    have hcount : session.rejectedCodeAttempts =
        (lastWindow DISCOUNT_ATTEMPT_WINDOW_MS past).length := congrArg Counter.count h
    rw [(of_not_keepsDiscounts hk).2.2] at hcount
    rw [ofWindow, List.length_eq_zero_iff.mp hcount.symm] at hstart
    change session.codeAttemptsWindowStartedAt = none at hstart
    rw [CheckoutSession.codeEntry, CheckoutSession.codeEntry, readBack, if_neg hk, hstart]

theorem History.entry (h : History text past w) {session : CheckoutSession}
    (hloaded : toDomain text w.row = .ok session) :
    Tidy text session.codeEntry ∧ session.codeEntry.attempts =
      past.foldl (fun c now => record DISCOUNT_ATTEMPT_WINDOW_MS now c) Counter.empty := by
  obtain ⟨stored, hrow, htidy, hattempts⟩ := h
  rw [hrow, toDomain_toRow] at hloaded
  cases hemail : mustIfSet "contact email" (ContactEmail.create text)
      (stored.contactEmail.map (·.1)) with
  | error e =>
    rw [hemail] at hloaded
    cases hloaded
  | ok contactEmail =>
    rw [hemail] at hloaded
    cases hloaded
    rw [codeEntry_readBack hattempts]
    exact ⟨htidy, hattempts⟩

variable {config : CheckoutConfig}

def rejectedAt (config : CheckoutConfig) (w : Till) (call : Call) : Option ℤ :=
  match toDomain config.text w.row with
  | .error _ => none
  | .ok session =>
    if call.committed = true ∧ (call.operation.perform config session).saved.isSome = true then
      call.operation.rejection config session
    else none

/-- The rejections of a run, in order. -/
def rejections (config : CheckoutConfig) : Till → List (Call × Till) → List ℤ
  | _, [] => []
  | w, (call, u) :: rest => (rejectedAt config w call).toList ++ rejections config u rest

theorem History.step (h : History config.text past w) (call : Call) :
    History config.text (past ++ (rejectedAt config w call).toList) (next config w call) := by
  rw [next, rejectedAt]
  cases hload : toDomain config.text w.row with
  | error e =>
    dsimp only
    rw [Option.toList_none, List.append_nil]
    exact h
  | ok session =>
    obtain ⟨htidy, hattempts⟩ := h.entry hload
    dsimp only
    unfold Till.settle
    split
    · rename_i hstored
      obtain ⟨work, hsaved⟩ := Option.isSome_iff_exists.mp hstored.2
      have hentry := call.operation.perform_entry (toDomain_keeps hload).2.2 hsaved
      rw [hstored.1, hsaved]
      refine ⟨work.session, rfl, hentry.tidy htidy, ?_⟩
      rw [List.foldl_append, ← hattempts]
      exact hentry.attempts
    · rename_i hunsaved
      rw [Option.toList_none, List.append_nil]
      split
      · rename_i work hcommitted hsaved
        exact absurd ⟨hcommitted, Option.isSome_iff_exists.mpr ⟨work, hsaved⟩⟩ hunsaved
      · exact h

theorem history_run {tr : List (Call × Till)} (h : History config.text past w)
    (hr : Run (Step config) w tr) :
    Always (fun u => ∃ past, History config.text past u) w tr ∧
      History config.text (past ++ rejections config w tr) (lastState w tr) := by
  induction tr generalizing w past with
  | nil =>
    rw [rejections, List.append_nil]
    exact ⟨⟨past, h⟩, h⟩
  | cons x rest ih =>
    obtain ⟨call, u⟩ := x
    obtain ⟨rfl, hrest⟩ := hr
    obtain ⟨halways, hlast⟩ := ih (h.step call) hrest
    rw [rejections, ← List.append_assoc]
    exact ⟨⟨⟨past, h⟩, halways⟩, hlast⟩

theorem Started.history (h : Started w) : History text [] w := by
  obtain ⟨cartRef, customerRef, currency, rfl⟩ := h
  refine ⟨CheckoutSession.start cartRef customerRef currency, rfl, ⟨?_, ?_, ?_⟩, rfl⟩
  · exact Nat.zero_le _
  · exact List.nodup_nil
  · intro code hcode
    exact absurd hcode List.not_mem_nil

/-- What a call that evaluates a code and rejects it may save. -/
structure LeavesNoTrace (text : TextOps) (code : String) (now : ℤ)
    (promotionValidation : PromotionValidationPort) (taxCalculation : Option TaxCalculationPort)
    (loaded : CheckoutSession) (work : Work) : Prop where
  forgets : Forgets text code now promotionValidation taxCalculation loaded work
  settled : normalizeDiscountCode text code ∉ loaded.discountCodes →
    DiscountsSettled promotionValidation loaded → TaxSettled taxCalculation loaded →
    TotalsSettled loaded → work.session.discountCodes = loaded.discountCodes ∧
      work.session.discountSnapshot = loaded.discountSnapshot ∧
      work.session.discountMinor = loaded.discountMinor ∧
      work.session.taxMinor = loaded.taxMinor ∧ work.session.taxIncluded = loaded.taxIncluded ∧
      work.session.totals = loaded.totals

/-- A rejected code is forgotten and counted, and what the ports answer without it is saved: on a
session that had just that and not the code, nothing else has changed. Whatever calls are made on
a checkout, its codes stay tidy, and none are taken exactly while the last window of rejections
is full. -/
theorem run_discountCodes {w : Till} {tr : List (Call × Till)} (hs : Started w)
    (hr : Run (Step config) w tr) :
    (∀ code now promotionValidation taxCalculation loaded work,
      let out := addDiscountCode config.text code now promotionValidation taxCalculation loaded
      out.saved = some work →
      (∃ output, out.answer = .ok output ∧ (output.applicable = false →
        LeavesNoTrace config.text (normalizeDiscountCode config.text code) now
          promotionValidation taxCalculation loaded work)) ∧
      loaded.isDiscountCodeEntryLocked now = false ∧
      (normalizeDiscountCode config.text (normalizeDiscountCode config.text code) ∈
          loaded.discountCodes ∨ loaded.discountCodes.length < MAX_DISCOUNT_CODES)) ∧
    Always (fun u => ∀ session, toDomain config.text u.row = .ok session →
      Tidy config.text session.codeEntry) w tr ∧
    ∀ session now, toDomain config.text (lastState w tr).row = .ok session →
      (session.isDiscountCodeEntryLocked now = true ↔
        Full DISCOUNT_ATTEMPT_WINDOW_MS DISCOUNT_ATTEMPT_LIMIT (rejections config w tr) now) := by
  obtain ⟨halways, hlast⟩ := history_run hs.history hr
  refine ⟨?_, ?_, ?_⟩
  · intro code now promotionValidation taxCalculation loaded work out hsaved
    obtain ⟨⟨output, hanswer⟩, hopen⟩ := addDiscountCode_evaluated hsaved
    refine ⟨⟨output, hanswer, fun hrejected => ?_⟩, hopen⟩
    have hforgets := addDiscountCode_rejected hsaved hanswer hrejected
    exact ⟨hforgets, hforgets.traceless⟩
  · apply halways.mono
    rintro u ⟨past, hpast⟩ session hload
    exact (hpast.entry hload).1
  · intro session now hload
    rw [isDiscountCodeEntryLocked_eq, (hlast.entry hload).2, List.nil_append, foldl_record]
    exact locked_ofWindow _ _

/-! A sale that takes an amount off, by the one code there is. -/

def salePromotions (amountMinor : ℤ) : PromotionValidationPort where
  validate _ := .ok ⟨false, 0⟩
  evaluate input :=
    let applied := if input.codes.contains "SALE" then
      [⟨"promotion-1", none, some "SALE", "Sale", .order, amountMinor⟩] else []
    .ok ⟨applied, (applied.map (·.amountMinor)).sum, 0,
      input.codes.map fun code => ⟨code, code == "SALE", none⟩, []⟩

def wrongCode (now : ℕ) : Call :=
  saved (.addDiscountCode "nope" now (salePromotions 100) none)

/-- After ten wrong codes in ten milliseconds no more are taken. -/
theorem run_discountCodes_ten : Full DISCOUNT_ATTEMPT_WINDOW_MS DISCOUNT_ATTEMPT_LIMIT
    (rejections sampleConfig newCheckout
      (trace sampleConfig newCheckout ((List.range 10).map wrongCode))) 10 := by
  have hlocked : ((toDomain sampleConfig.text (lastState newCheckout
      (trace sampleConfig newCheckout ((List.range 10).map wrongCode))).row).toOption.any
        fun session => session.isDiscountCodeEntryLocked 10) = true := by
    decide +kernel
  cases hload : toDomain sampleConfig.text (lastState newCheckout
      (trace sampleConfig newCheckout ((List.range 10).map wrongCode))).row with
  | error e =>
    rw [hload] at hlocked
    cases hlocked
  | ok session =>
    rw [hload] at hlocked
    exact ((run_discountCodes ⟨_, _, _, rfl⟩ (run_trace sampleConfig _ _)).2.2 session 10
      hload).mp hlocked

/-- A wrong code is entered after the sale has come down. -/
theorem rejected_code_leaves_trace : ¬ ∀ (w : Till) (tr : List (Call × Till)) (code : String)
    (now : ℤ) (promotionValidation : PromotionValidationPort)
    (taxCalculation : Option TaxCalculationPort) (loaded : CheckoutSession) (work : Work)
    (output : DiscountCodeOutput), Started w → Run (Step sampleConfig) w tr →
    toDomain sampleConfig.text (lastState w tr).row = .ok loaded →
    addDiscountCode sampleConfig.text code now promotionValidation taxCalculation loaded =
      ⟨.ok output, some work, none, none⟩ → output.applicable = false →
    work.session.discountCodes = loaded.discountCodes ∧
      work.session.discountSnapshot = loaded.discountSnapshot ∧
      work.session.taxMinor = loaded.taxMinor ∧ work.session.totals = loaded.totals := by
  intro h
  have hkept := h newCheckout (trace sampleConfig newCheckout
    [saved (.loadItems [⟨"tea", 2, 1000, "EUR", none, none, none, none⟩]),
      saved (.addDiscountCode "sale" 0 (salePromotions 100) none)]) "nope" 1 (salePromotions 50)
    none _ _ _ ⟨_, _, _, rfl⟩ (run_trace _ _ _) rfl rfl rfl
  exact absurd hkept.2.1 (by decide +kernel)

end Checkout
