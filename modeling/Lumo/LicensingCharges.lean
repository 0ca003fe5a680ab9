import Lumo.LicensingCollection

/-! # What collecting an invoice does to the invoice and its charges

A run saves only an invoice that it has read, so a save that goes through replaces what is
stored; what is due never changes once the invoice has been issued. -/
namespace Licensing

open SharedKernel Builtins Interleavings LabelledRuns

variable {policy : DunningPolicy} {a b : Shared} {k k' : Point}
  {charge : Charge}

theorem collectKey_injective {invoiceId : String} {v w : ℕ}
    (h : collectKey invoiceId v = collectKey invoiceId w) : v = w := by
  rw [collectKey, collectKey, String.append_left_inj, String.append_right_inj] at h
  have hdigits := congrArg (fun text : String => Nat.ofDigitChars 10 text.toList 0) h
  simpa [ToString.toString, Nat.toList_repr] using hdigits

def Due (s : Shared) : Prop := ∃ total, s.invoice.total = .ok total ∧ total.amountMinor ≠ 0

def ReadInvoice (s : Shared) (read : Invoice) : Prop :=
  read.version ≤ s.invoice.version ∧ (read.version = s.invoice.version → read = s.invoice)

def Backed (s : Shared) (reference : String) : Prop :=
  (∃ charge ∈ s.charges, charge.reference = reference) ∨ ¬ Due s

/-- What a point relies on. -/
def Relies (s : Shared) : Point → Prop
  | .collecting _ _ due _ => s.invoice.total = .ok due ∧ due.amountMinor ≠ 0 ∧
      (s.invoice.status = .paid → s.charges ≠ [])
  | .settlingSuccess _ reference _ _ => Backed s reference
  | .savingPaid _ reference _ _ read new =>
    Backed s reference ∧ ReadInvoice s read ∧ read.markPaid reference = .ok new
  | .savingFailed _ _ read new => ReadInvoice s read ∧ read.markFailed = .ok new
  | .savingIssued _ read new => ReadInvoice s read ∧ read.issue = .ok new
  | _ => True

/-- What a turn does to the invoice and the charges, as far as other runs can tell. -/
structure Grown (a b : Shared) : Prop where
  id : b.invoice.id = a.invoice.id
  total : b.invoice.total = a.invoice.total
  charges : ∀ charge ∈ a.charges, charge ∈ b.charges
  version : a.invoice.version ≤ b.invoice.version
  same : b.invoice.version = a.invoice.version → b.invoice = a.invoice
  paid : b.invoice.status = .paid → a.invoice.status = .paid ∨ a.charges ≠ [] ∨ ¬ Due a

theorem Grown.refl (a : Shared) : Grown a a :=
  ⟨rfl, rfl, fun _ h => h, le_rfl, fun _ => rfl, fun h => .inl h⟩

theorem Grown.due (h : Grown a b) : Due b ↔ Due a := by
  rw [Due, Due, h.total]

theorem Grown.of_invoice (hinvoice : b.invoice = a.invoice)
    (hcharges : ∀ charge ∈ a.charges, charge ∈ b.charges) : Grown a b where
  id := by rw [hinvoice]
  total := by rw [hinvoice]
  charges := hcharges
  version := by rw [hinvoice]
  same _ := hinvoice
  paid h := by
    rw [hinvoice] at h
    exact .inl h

theorem Grown.saved {read new : Invoice} (hread : ReadInvoice a read)
    (hversion : read.version = a.invoice.version) (hid : new.id = read.id)
    (htotal : new.total = read.total) (hpaid : new.status = .paid → a.charges ≠ [] ∨ ¬ Due a)
    (hinvoice : b.invoice = { new with version := read.version + 1 })
    (hcharges : b.charges = a.charges) : Grown a b := by
  have hsame := hread.2 hversion
  constructor
  · rw [hinvoice, ← hsame]
    exact hid
  · rw [hinvoice, ← hsame]
    exact htotal
  · rw [hcharges]
    exact fun _ h => h
  · rw [hinvoice, ← hversion]
    exact Nat.le_succ _
  · intro h
    rw [hinvoice, ← hversion] at h
    exact absurd h (Nat.succ_ne_self _)
  · intro h
    rw [hinvoice] at h
    exact .inr (hpaid h)

theorem Backed.grown {reference : String} (h : Backed a reference) (hg : Grown a b) :
    Backed b reference := by
  rcases h with ⟨charge, hcharge, href⟩ | hdue
  · exact .inl ⟨charge, hg.charges charge hcharge, href⟩
  · exact .inr fun h => hdue (hg.due.mp h)

theorem ReadInvoice.grown {read : Invoice} (h : ReadInvoice a read) (hg : Grown a b) :
    ReadInvoice b read := by
  refine ⟨h.1.trans hg.version, fun hv => ?_⟩
  have hsame : b.invoice.version = a.invoice.version :=
    le_antisymm (hv ▸ h.1) hg.version
  rw [hg.same hsame]
  exact h.2 (hv.trans hsame)

theorem Relies.grown (h : Relies a k) (hg : Grown a b) : Relies b k := by
  cases k with
  | collecting caller tenantRef due version =>
    obtain ⟨htotal, hdue, hpaid⟩ := h
    refine ⟨hg.total.trans htotal, hdue, fun hb hnil => ?_⟩
    have hcharges : a.charges = [] := by
      rw [List.eq_nil_iff_forall_not_mem]
      intro charge hcharge
      have hmem := hg.charges charge hcharge
      rw [hnil] at hmem
      cases hmem
    rcases hg.paid hb with ha | ha | ha
    · exact hpaid ha hcharges
    · exact ha hcharges
    · exact ha ⟨due, htotal, hdue⟩
  | settlingSuccess => exact Backed.grown h hg
  | savingPaid => exact ⟨h.1.grown hg, h.2.1.grown hg, h.2.2⟩
  | savingFailed | savingIssued => exact ⟨h.1.grown hg, h.2⟩
  | _ => trivial

def Idle : Point → Prop
  | .collecting .. => False
  | .settlingSuccess .. => False
  | .savingPaid .. => False
  | .savingFailed .. => False
  | .savingIssued .. => False
  | _ => True

theorem Idle.relies (h : Idle k) : Relies a k := by
  cases k with
  | collecting | settlingSuccess | savingPaid | savingFailed | savingIssued => cases h
  | _ => trivial

theorem returned_idle (caller : Caller) (collected : Collected) :
    Idle (caller.returned collected) := by
  cases caller <;> cases collected <;> trivial

theorem afterPaid_idle (caller : Caller) (settlement : Option Settlement) :
    Idle (afterPaid caller settlement) := by
  cases settlement with
  | none => exact returned_idle _ _
  | some settlement => trivial

theorem precheck_cases (caller : Caller) (invoice : Invoice) :
    Idle (precheck caller invoice) ∨
    (∃ reference total, invoice.total = .ok total ∧ total.amountMinor = 0 ∧
      precheck caller invoice = .settlingSuccess caller reference none 1) ∨
    ∃ total, invoice.total = .ok total ∧ total.amountMinor ≠ 0 ∧ invoice.status = .issued ∧
      precheck caller invoice = .collecting caller invoice.tenantRef total invoice.version := by
  unfold precheck
  split
  · exact .inl (returned_idle _ _)
  rename_i total htotal
  split
  · exact .inl (returned_idle _ _)
  split
  · exact .inl (returned_idle _ _)
  rename_i hstatus
  split
  · rename_i hzero
    split
    · exact .inr (.inl ⟨_, total, htotal, hzero, rfl⟩)
    · exact .inl (returned_idle _ _)
  · rename_i hzero
    exact .inr (.inr ⟨total, htotal, hzero, not_not.mp hstatus, rfl⟩)

theorem settleSuccess_cases (caller : Caller) (reference : String)
    (settlement : Option Settlement) (attempt : ℕ) (invoice : Invoice) :
    (invoice.status ≠ .issued ∧
      Idle (settleSuccess caller reference settlement attempt invoice)) ∨
    ∃ new, invoice.status = .issued ∧ invoice.markPaid reference = .ok new ∧
      settleSuccess caller reference settlement attempt invoice =
        .savingPaid caller reference settlement attempt invoice new := by
  unfold settleSuccess
  split
  · rename_i hpaid
    refine .inl ⟨?_, returned_idle _ _⟩
    rw [hpaid]
    decide
  split
  · rename_i e he
    refine .inl ⟨fun hissued => ?_, returned_idle _ _⟩
    rw [Invoice.markPaid_issued hissued] at he
    cases he
  · rename_i new hnew
    exact .inr ⟨new, (Invoice.markPaid_ok hnew).1, hnew, rfl⟩

theorem settleFailure_cases (caller : Caller) (e : Thrown) (invoice : Invoice) :
    Idle (settleFailure caller e invoice) ∨
    ∃ new, invoice.markFailed = .ok new ∧
      settleFailure caller e invoice = .savingFailed caller e invoice new := by
  unfold settleFailure
  split
  · split
    · exact .inl (returned_idle _ _)
    · rename_i new hnew
      exact .inr ⟨new, hnew, rfl⟩
  · exact .inl (returned_idle _ _)

theorem retry_idle (subscription : Subscription) : Idle (retry subscription) := by
  unfold retry
  split
  · trivial
  · split <;> trivial

theorem findInvoice_idle (invoiceId : String) (attempt : ℕ) (invoice : Invoice) :
    Idle (findInvoice invoiceId attempt invoice) := by
  unfold findInvoice
  split
  · trivial
  · split <;> trivial

theorem issueInvoice_cases (attempt : ℕ) (invoice : Invoice) :
    Idle (issueInvoice attempt invoice) ∨
    ∃ new, invoice.issue = .ok new ∧
      issueInvoice attempt invoice = .savingIssued attempt invoice new := by
  unfold issueInvoice
  split
  · exact .inl trivial
  · rename_i new hnew
    exact .inr ⟨new, hnew, rfl⟩

theorem recover_idle (subscription : Subscription) : Idle (recover subscription) := by
  unfold recover
  split
  · split <;> trivial
  · trivial

theorem reread_idle (attempt : ℕ) (e : Thrown) (invoice : Invoice) :
    Idle (reread attempt e invoice) := by
  unfold reread
  split <;> trivial

theorem saveInvoice_eq (read new : Invoice) (s : Shared) :
    (read.version = s.invoice.version ∧
      saveInvoice read new s = some { s with invoice := { new with version := read.version + 1 } }) ∨
    (read.version ≠ s.invoice.version ∧ saveInvoice read new s = none) := by
  unfold saveInvoice
  split
  · rename_i hversion
    exact .inl ⟨hversion, rfl⟩
  · rename_i hversion
    exact .inr ⟨hversion, rfl⟩

theorem saveSubscription_elsewhere {read new : Subscription} {s s' : Shared}
    (h : saveSubscription read new s = some s') :
    s'.invoice = s.invoice ∧ s'.charges = s.charges := by
  unfold saveSubscription at h
  split at h
  · cases h
    exact ⟨rfl, rfl⟩
  · cases h

theorem saveRecovered_elsewhere (read new : Subscription) (s : Shared) :
    Idle (saveRecovered read new s).1 ∧ (saveRecovered read new s).2.invoice = s.invoice ∧
      (saveRecovered read new s).2.charges = s.charges := by
  unfold saveRecovered
  split
  · rename_i s' hs'
    exact ⟨trivial, saveSubscription_elsewhere hs'⟩
  · exact ⟨trivial, rfl, rfl⟩

theorem saveSchedule_elsewhere (read new : Subscription) (answer : Answer) (s : Shared) :
    Idle (saveSchedule read new answer s).1 ∧
      (saveSchedule read new answer s).2.invoice = s.invoice ∧
      (saveSchedule read new answer s).2.charges = s.charges := by
  unfold saveSchedule
  split
  · rename_i s' hs'
    obtain ⟨hinvoice, hcharges⟩ := saveSubscription_elsewhere hs'
    exact ⟨trivial, hinvoice, hcharges⟩
  · exact ⟨trivial, rfl, rfl⟩

theorem reschedule_elsewhere (policy : DunningPolicy) (attempt : ℕ) (now : ℚ) (s : Shared) :
    Idle (reschedule policy attempt now s).1 ∧
      (reschedule policy attempt now s).2.invoice = s.invoice ∧
      (reschedule policy attempt now s).2.charges = s.charges := by
  refine ⟨?_, rfl, rfl⟩
  unfold reschedule
  dsimp only
  split <;> trivial

/-- Where a run can give up what it was about: the invoice is no longer to be settled, or the
version it read has moved on. -/
def Leaves (s : Shared) : Point → Prop
  | .settlingSuccess .. => s.invoice.status ≠ .issued
  | .savingPaid _ _ _ _ read _ => read.version ≠ s.invoice.version
  | _ => True

/-- Everything a turn can be, as far as the invoice and its charges go. -/
inductive Effect (a : Shared) : Point → Point → Shared → Prop where
  | idles {k k' : Point} {b : Shared} (hinvoice : b.invoice = a.invoice) (hcharges : b.charges = a.charges)
      (hidle : Idle k') (hleaves : Leaves a k) : Effect a k k' b
  | waives {caller reference total} (htotal : a.invoice.total = .ok total)
      (hzero : total.amountMinor = 0) :
      Effect a (.precheck caller) (.settlingSuccess caller reference none 1) a
  | checks {caller total} (htotal : a.invoice.total = .ok total) (hdue : total.amountMinor ≠ 0)
      (hissued : a.invoice.status = .issued) : Effect a (.precheck caller)
        (.collecting caller a.invoice.tenantRef total a.invoice.version) a
  | answered {caller tenantRef due version} {charge : Charge} (hmem : charge ∈ a.charges) :
      Effect a (.collecting caller tenantRef due version)
        (.settlingSuccess caller charge.reference (some ⟨tenantRef, due, charge.reference⟩) 1) a
  | accepted {caller tenantRef due version reference}
      (hfresh : ∀ charge ∈ a.charges, charge.key ≠ collectKey a.invoice.id version) :
      Effect a (.collecting caller tenantRef due version)
        (.settlingSuccess caller reference (some ⟨tenantRef, due, reference⟩) 1)
        { a with charges := a.charges ++
          [⟨collectKey a.invoice.id version, tenantRef, due, reference⟩] }
  | settles {caller reference settlement attempt new} (hissued : a.invoice.status = .issued)
      (hnew : a.invoice.markPaid reference = .ok new) :
      Effect a (.settlingSuccess caller reference settlement attempt)
        (.savingPaid caller reference settlement attempt a.invoice new) a
  | pays {caller reference settlement attempt read new} {k' : Point} (hidle : Idle k')
      (hversion : read.version = a.invoice.version) :
      Effect a (.savingPaid caller reference settlement attempt read new) k'
        { a with invoice := { new with version := read.version + 1 } }
  | resettles {caller reference settlement attempt read new}
      (hversion : read.version ≠ a.invoice.version) :
      Effect a (.savingPaid caller reference settlement attempt read new)
        (.settlingSuccess caller reference settlement (attempt + 1)) a
  | fails {caller e new} (hnew : a.invoice.markFailed = .ok new) :
      Effect a (.settlingFailure caller e) (.savingFailed caller e a.invoice new) a
  | failed {caller e read new} {k' : Point} {b : Shared} (hidle : Idle k')
      (hversion : read.version = a.invoice.version)
      (hinvoice : b.invoice = { new with version := read.version + 1 })
      (hcharges : b.charges = a.charges) : Effect a (.savingFailed caller e read new) k' b
  | issues {attempt new} (hnew : a.invoice.issue = .ok new) :
      Effect a (.issuing attempt) (.savingIssued attempt a.invoice new) a
  | issued {attempt read new} {k' : Point} (hidle : Idle k')
      (hversion : read.version = a.invoice.version) :
      Effect a (.savingIssued attempt read new) k'
        { a with invoice := { new with version := read.version + 1 } }

theorem turned_effect (h : Turned policy a k k' b) : Effect a k k' b := by
  cases h with
  | precheck caller =>
    rcases precheck_cases caller a.invoice with hidle | ⟨_, total, htotal, hzero, hpoint⟩ |
      ⟨total, htotal, hdue, hissued, hpoint⟩
    · exact .idles rfl rfl hidle trivial
    · rw [hpoint]
      exact .waives htotal hzero
    · rw [hpoint]
      exact .checks htotal hdue hissued
  | answered caller tenantRef due version charge hfind =>
    exact .answered (List.mem_of_find?_eq_some hfind)
  | accepted caller tenantRef due version reference hfresh => exact .accepted hfresh
  | rejected => exact .idles rfl rfl trivial trivial
  | settlingSuccess caller reference settlement attempt =>
    rcases settleSuccess_cases caller reference settlement attempt a.invoice with
      ⟨hissued, hidle⟩ | ⟨new, hissued, hnew, hpoint⟩
    · exact .idles rfl rfl hidle hissued
    · rw [hpoint]
      exact .settles hissued hnew
  | savingPaid caller reference settlement attempt read new =>
    unfold savePaid
    rcases saveInvoice_eq read new a with ⟨hversion, hsave⟩ | ⟨hversion, hsave⟩
    · simp only [hsave]
      exact .pays (afterPaid_idle _ _) hversion
    · simp only [hsave]
      split
      · exact .resettles hversion
      · exact .idles rfl rfl (returned_idle _ _) hversion
  | posted caller | unposted caller => exact .idles rfl rfl (returned_idle _ _) trivial
  | settlingFailure caller e =>
    rcases settleFailure_cases caller e a.invoice with hidle | ⟨new, hnew, hpoint⟩
    · exact .idles rfl rfl hidle trivial
    · rw [hpoint]
      exact .fails hnew
  | savingFailed caller e read new =>
    unfold saveFailed
    rcases saveInvoice_eq read new a with ⟨hversion, hsave⟩ | ⟨hversion, hsave⟩
    · simp only [hsave]
      exact .failed (returned_idle _ _) hversion rfl rfl
    · simp only [hsave]
      exact .idles rfl rfl (returned_idle _ _) trivial
  | retrying => exact .idles rfl rfl (retry_idle _) trivial
  | findingInvoice invoiceId attempt => exact .idles rfl rfl (findInvoice_idle _ _ _) trivial
  | issuing attempt =>
    rcases issueInvoice_cases attempt a.invoice with hidle | ⟨new, hnew, hpoint⟩
    · exact .idles rfl rfl hidle trivial
    · rw [hpoint]
      exact .issues hnew
  | savingIssued attempt read new =>
    unfold saveIssued
    rcases saveInvoice_eq read new a with ⟨hversion, hsave⟩ | ⟨hversion, hsave⟩
    · simp only [hsave]
      exact .issued trivial hversion
    · simp only [hsave]
      exact .idles rfl rfl trivial trivial
  | recovering => exact .idles rfl rfl (recover_idle _) trivial
  | savingRecovered read new =>
    obtain ⟨hidle, hinvoice, hcharges⟩ := saveRecovered_elsewhere read new a
    exact .idles hinvoice hcharges hidle trivial
  | rereading attempt e => exact .idles rfl rfl (reread_idle _ _ _) trivial
  | rescheduling attempt now =>
    obtain ⟨hidle, hinvoice, hcharges⟩ := reschedule_elsewhere policy attempt now a
    exact .idles hinvoice hcharges hidle trivial
  | savingSchedule read new answer =>
    obtain ⟨hidle, hinvoice, hcharges⟩ := saveSchedule_elsewhere read new answer a
    exact .idles hinvoice hcharges hidle trivial

theorem Effect.grown (h : Effect a k k' b) (hk : Relies a k) : Grown a b := by
  cases h with
  | idles hinvoice hcharges => exact .of_invoice hinvoice (by rw [hcharges]; exact fun _ h => h)
  | accepted => exact .of_invoice rfl fun charge h => List.mem_append_left _ h
  | pays hidle hversion =>
    obtain ⟨hbacked, hread, hnew⟩ := hk
    obtain ⟨-, hnew⟩ := Invoice.markPaid_ok hnew
    refine .saved hread hversion (by rw [hnew]) (by rw [hnew]; rfl) (fun _ => ?_) rfl rfl
    exact hbacked.imp_left fun ⟨charge, hcharge, _⟩ => List.ne_nil_of_mem hcharge
  | failed hidle hversion hinvoice hcharges =>
    obtain ⟨hread, hnew⟩ := hk
    obtain ⟨-, hnew⟩ := Invoice.markFailed_ok hnew
    refine .saved hread hversion (by rw [hnew]) (by rw [hnew]; rfl) (fun hpaid => ?_) hinvoice
      hcharges
    rw [hnew] at hpaid
    cases hpaid
  | issued hidle hversion =>
    obtain ⟨hread, hnew⟩ := hk
    obtain ⟨-, hnew⟩ := Invoice.issue_ok hnew
    refine .saved hread hversion (by rw [hnew]) (by rw [hnew]; rfl) (fun hpaid => ?_) rfl rfl
    rw [hnew] at hpaid
    cases hpaid
  | _ => exact .refl a

theorem ReadInvoice.current (a : Shared) : ReadInvoice a a.invoice := ⟨le_rfl, fun _ => rfl⟩

theorem Effect.relies (h : Effect a k k' b) (hk : Relies a k) : Relies b k' := by
  cases h with
  | idles _ _ hidle => exact hidle.relies
  | waives htotal hzero =>
    refine .inr fun ⟨total, htotal', hdue⟩ => hdue ?_
    rw [htotal] at htotal'
    cases htotal'
    exact hzero
  | checks htotal hdue hissued =>
    refine ⟨htotal, hdue, fun hpaid => ?_⟩
    rw [hissued] at hpaid
    cases hpaid
  | answered hmem => exact .inl ⟨_, hmem, rfl⟩
  | accepted => exact .inl ⟨_, List.mem_append_right _ (List.mem_singleton_self _), rfl⟩
  | settles hissued hnew => exact ⟨hk, .current a, hnew⟩
  | pays hidle => exact hidle.relies
  | resettles => exact hk.1
  | fails hnew => exact ⟨.current a, hnew⟩
  | failed hidle => exact hidle.relies
  | issues hnew => exact ⟨.current a, hnew⟩
  | issued hidle => exact hidle.relies

theorem Effect.due (h : Effect a k k' b) (hdue : a.charges ≠ [] → Due a) (hk : Relies a k)
    (hcharges : b.charges ≠ []) : Due b := by
  rw [(h.grown hk).due]
  cases h with
  | idles _ hsame => exact hdue (hsame ▸ hcharges)
  | accepted => exact ⟨_, hk.1, hk.2.1⟩
  | failed _ _ _ hsame => exact hdue (hsame ▸ hcharges)
  | _ => exact hdue hcharges

theorem turn_keeps (policy : DunningPolicy) :
    Keeps (turn policy) (fun s => s.charges ≠ [] → Due s) Relies := by
  intro a k choice k' b hdue hk h
  have heffect := turned_effect (turn_turned h)
  exact ⟨heffect.due hdue hk, heffect.relies hk, fun other hother =>
    hother.grown (heffect.grown hk)⟩

end Licensing
