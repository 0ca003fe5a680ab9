import Lumo.LicensingCharges

/-! # One charge for an invoice

Whatever the runs do, a charge is made once and the invoice ends paid by it, if and only if the
provider accepts a key only while the invoice stands issued under the version of the key, and no
failure is settled on an invoice whose key has been accepted. -/
namespace Licensing

open SharedKernel Builtins Interleavings LabelledRuns

variable {ι : Type} {policy : DunningPolicy} {a b : Shared} {k k' : Point}
  {charge : Charge}

def Settled (s : Shared) (charge : Charge) : Prop :=
  s.invoice.status = .paid ∧ s.invoice.paymentReference = some charge.reference

def Collectable (s : Shared) (charge : Charge) : Prop :=
  s.invoice.status = .issued ∧ charge.key = collectKey s.invoice.id s.invoice.version

instance (s : Shared) (charge : Charge) : Decidable (Settled s charge) :=
  inferInstanceAs (Decidable (_ ∧ _))

instance (s : Shared) (charge : Charge) : Decidable (Collectable s charge) :=
  inferInstanceAs (Decidable (_ ∧ _))

/-- The run is about to settle the charge. -/
def Carries (charge : Charge) : Point → Prop
  | .settlingSuccess _ reference _ _ => reference = charge.reference
  | .savingPaid _ reference _ _ _ _ => reference = charge.reference
  | _ => False

/-- What is asked of the collection: one charge at most, and the invoice paid by it, or still
to be, by a run that has it in hand and by any that comes back for it. -/
structure Collects [DecidableEq ι] (policy : DunningPolicy) (s : State Shared Point ι) :
    Prop where
  once : s.shared.charges.length ≤ 1
  kept : ∀ charge ∈ s.shared.charges, Settled s.shared charge ∨
    Collectable s.shared charge ∧ ∃ c, Carries charge (s.processes c).point
  ends : ∀ charge ∈ s.shared.charges, ∀ c, ∃ u,
    Alone (turn policy) c (s.set c (.live (.precheck .direct)) s.shared) u ∧
      Settled u.shared charge

/-- A fresh key is accepted only while it is the key of the invoice, and a failure is settled
only under a key that has not been accepted. -/
def PointInOrder (s : Shared) : Point → Choice → Prop
  | .collecting _ _ _ version, .accepts _ =>
    (∀ charge ∈ s.charges, charge.key ≠ collectKey s.invoice.id version) →
      s.invoice.status = .issued ∧ s.invoice.version = version
  | .savingFailed _ _ read _, .proceeds _ => read.version = s.invoice.version →
      ∀ charge ∈ s.charges, charge.key ≠ collectKey s.invoice.id s.invoice.version
  | _, _ => True

instance (s : Shared) : (k : Point) → (choice : Choice) → Decidable (PointInOrder s k choice) := by
  intro k choice
  unfold PointInOrder
  split <;> infer_instance

def InOrder (s : State Shared Point ι) : Label Choice ι → Prop
  | .turn c choice => PointInOrder s.shared (s.processes c).point choice
  | .crash _ => True

instance (s : State Shared Point ι) : (l : Label Choice ι) → Decidable (InOrder s l)
  | .turn _ _ => inferInstanceAs (Decidable (PointInOrder _ _ _))
  | .crash _ => inferInstanceAs (Decidable True)

/-- The invoice has not been charged, and every run is a call to collect it or to retry it. -/
structure Opening (s : State Shared Point ι) : Prop where
  uncharged : s.shared.charges = []
  calls : ∀ c, s.processes c = .live (.precheck .direct) ∨ s.processes c = .live .retrying

/-- Whoever saves a payment read the invoice under the key that was accepted. -/
def Timely (s : Shared) : Point → Prop
  | .savingPaid _ _ _ _ read _ =>
    ∀ charge ∈ s.charges, charge.key = collectKey s.invoice.id read.version
  | _ => True

structure Standing (s : State Shared Point ι) : Prop where
  relied : Holds (fun s => s.charges ≠ [] → Due s) Relies s
  once : s.shared.charges.length ≤ 1
  kept : ∀ charge ∈ s.shared.charges, Settled s.shared charge ∨
    Collectable s.shared charge ∧ ∃ c, Carries charge (s.processes c).point
  timely : ∀ c, Timely s.shared (s.processes c).point

theorem Idle.timely (h : Idle k) : Timely a k := by
  cases k with
  | savingPaid => cases h
  | _ => trivial

theorem Timely.same (h : Timely a k) (hid : b.invoice.id = a.invoice.id)
    (hcharges : b.charges = a.charges) : Timely b k := by
  cases k with
  | savingPaid =>
    intro charge hmem
    rw [hid]
    exact h charge (hcharges ▸ hmem)
  | _ => trivial

variable {version : ℕ}

variable {caller : Caller} {due : Money} {tenantRef : String}

theorem collect_fresh {reference : String}
    (hfresh : ∀ charge ∈ a.charges, charge.key ≠ collectKey a.invoice.id version) :
    collect caller tenantRef due version (.accepts reference) a =
      some (.settlingSuccess caller reference (some ⟨tenantRef, due, reference⟩) 1,
        { a with charges := a.charges ++
          [⟨collectKey a.invoice.id version, tenantRef, due, reference⟩] }) := by
  have hfind : a.charges.find? (fun charge => charge.key == collectKey a.invoice.id version) =
      none :=
    List.find?_eq_none.mpr fun charge hmem heq => hfresh charge hmem (beq_iff_eq.mp heq)
  simp only [collect, hfind]

theorem collect_known (caller : Caller) (tenantRef reference : String) (due : Money)
    (h : a.charges.length ≤ 1) (hmem : charge ∈ a.charges)
    (hkey : charge.key = collectKey a.invoice.id version) :
    collect caller tenantRef due version (.accepts reference) a =
      some (.settlingSuccess caller charge.reference
        (some ⟨tenantRef, due, charge.reference⟩) 1, a) := by
  cases hfind : a.charges.find? fun charge => charge.key == collectKey a.invoice.id version with
  | none => exact absurd (beq_iff_eq.mpr hkey) (List.find?_eq_none.mp hfind charge hmem)
  | some found =>
    have hfound := eq_of_length_le_one h (List.mem_of_find?_eq_some hfind) hmem
    subst hfound
    simp only [collect, hfind]

theorem accepts_of_charges {choice : Choice}
    (h : collect caller tenantRef due version choice a = some (k', b))
    (hcharges : b.charges ≠ a.charges) : ∃ reference, choice = .accepts reference := by
  cases choice with
  | accepts reference => exact ⟨reference, rfl⟩
  | proceeds now =>
    unfold collect at h
    dsimp only at h
    split at h <;> simp_all
  | rejects reason =>
    unfold collect at h
    dsimp only at h
    split at h
    · simp_all
    · simp_all
    · cases h
      exact absurd rfl hcharges
    · cases h

namespace Standing

variable {s : State Shared Point ι} {c : ι}

theorem uncharged (h : Standing s) (hissued : s.shared.invoice.status ≠ .issued)
    (hpaid : s.shared.invoice.status ≠ .paid) : s.shared.charges = [] := by
  rw [List.eq_nil_iff_forall_not_mem]
  intro charge hmem
  rcases h.kept charge hmem with hsettled | ⟨hcollectable, -⟩
  · exact hpaid hsettled.1
  · exact hissued hcollectable.1

theorem keyed (h : Standing s) (hissued : s.shared.invoice.status = .issued)
    (hmem : charge ∈ s.shared.charges) :
    charge.key = collectKey s.shared.invoice.id s.shared.invoice.version := by
  rcases h.kept charge hmem with hsettled | ⟨hcollectable, -⟩
  · rw [hsettled.1] at hissued
    cases hissued
  · exact hcollectable.2

theorem leaves (h : Standing s) (hk : (s.processes c).point = k) (hleaves : Leaves s.shared k)
    (hmem : charge ∈ s.shared.charges) (hcollectable : Collectable s.shared charge) :
    ¬ Carries charge k := by
  intro hcarries
  cases k with
  | settlingSuccess => exact hleaves hcollectable.1
  | savingPaid caller reference settlement attempt read new =>
    have htimely := h.timely c
    rw [hk] at htimely
    exact hleaves (collectKey_injective ((htimely charge hmem).symm.trans hcollectable.2))
  | _ => exact hcarries

theorem unpaid (h : Standing s) (huncharged : s.shared.charges = []) (hdue : Due s.shared)
    (charges : List Charge) (d : ι) :
    Timely { s.shared with charges := charges } (s.processes d).point := by
  have hrelies := h.relied.points d
  cases hpoint : (s.processes d).point with
  | savingPaid =>
    rw [hpoint] at hrelies
    rcases hrelies.1 with ⟨charge, hmem, -⟩ | hnot
    · rw [huncharged] at hmem
      cases hmem
    · exact absurd hdue hnot
  | _ => trivial

variable [DecidableEq ι]

theorem kept_same (h : Standing s) (hc : s.processes c = .live k)
    (hinvoice : b.invoice = s.shared.invoice) (hcharges : b.charges = s.shared.charges)
    (hcarries : ∀ charge ∈ s.shared.charges, Collectable s.shared charge → Carries charge k →
      Carries charge k') :
    ∀ charge ∈ b.charges, Settled b charge ∨ Collectable b charge ∧
      ∃ d, Carries charge ((s.set c (.live k') b).processes d).point := by
  intro charge hmem
  rw [hcharges] at hmem
  rw [Settled, Collectable, hinvoice]
  refine (h.kept charge hmem).imp_right ?_
  rintro ⟨hcollectable, d, hd⟩
  refine ⟨hcollectable, ?_⟩
  by_cases hdc : d = c
  · refine ⟨c, ?_⟩
    rw [set_processes_self]
    rw [hdc, hc] at hd
    exact hcarries charge hmem hcollectable hd
  · refine ⟨d, ?_⟩
    rw [set_processes_of_ne s hdc]
    exact hd

theorem timely_set (hk' : Timely b k') (hothers : ∀ d, d ≠ c → Timely b (s.processes d).point)
    (d : ι) : Timely b ((s.set c (.live k') b).processes d).point := by
  by_cases hdc : d = c
  · subst hdc
    rw [set_processes_self]
    exact hk'
  · rw [set_processes_of_ne s hdc]
    exact hothers d hdc

omit [DecidableEq ι] in
theorem accepted_first (h : Standing s) {version : ℕ} (hfresh : ∀ charge ∈ s.shared.charges,
      charge.key ≠ collectKey s.shared.invoice.id version)
    (hissued : s.shared.invoice.status = .issued) (hversion : s.shared.invoice.version = version) :
    s.shared.charges = [] := by
  rw [List.eq_nil_iff_forall_not_mem]
  intro charge hmem
  refine hfresh charge hmem ?_
  rw [← hversion]
  exact h.keyed hissued hmem

theorem turned (h : Standing s) (hc : s.processes c = .live k) {choice : Choice}
    (hk : turn policy k choice s.shared = some (k', b))
    (horder : PointInOrder s.shared k choice) : Standing (s.set c (.live k') b) := by
  have hst : Step (turn policy) s (.turn c choice) (s.set c (.live k') b) := by
    simp [Step, next, hc, hk]
  have hrelied := h.relied.step (turn_keeps policy) hst
  have hpoint : (s.processes c).point = k := by rw [hc]; rfl
  have hrelies : Relies s.shared k := hpoint ▸ h.relied.points c
  have heffect := turned_effect (turn_turned hk)
  have hid := (heffect.grown hrelies).id
  have hothers (hcharges : b.charges = s.shared.charges) (d : ι) (_ : d ≠ c) :
      Timely b (s.processes d).point := (h.timely d).same hid hcharges
  cases heffect with
  | idles hinvoice hcharges hidle hleaves =>
    have hkept : ∀ charge ∈ s.shared.charges, Collectable s.shared charge → Carries charge k →
        Carries charge k' := fun charge hmem hcollectable hcarries =>
      absurd hcarries (h.leaves hpoint hleaves hmem hcollectable)
    exact ⟨hrelied, by rw [set_shared, hcharges]; exact h.once,
      h.kept_same hc hinvoice hcharges hkept, timely_set hidle.timely (hothers hcharges)⟩
  | waives | checks | answered | fails | issues =>
    exact ⟨hrelied, h.once, h.kept_same hc rfl rfl fun _ _ _ hcarries => False.elim hcarries,
      timely_set trivial (hothers rfl)⟩
  | settles hissued hnew =>
    exact ⟨hrelied, h.once, h.kept_same hc rfl rfl fun _ _ _ hcarries => hcarries,
      timely_set (fun charge hmem => h.keyed hissued hmem) (hothers rfl)⟩
  | resettles =>
    exact ⟨hrelied, h.once, h.kept_same hc rfl rfl fun _ _ _ hcarries => hcarries,
      timely_set trivial (hothers rfl)⟩
  | @accepted caller tenantRef due version reference hfresh =>
    obtain ⟨reference', rfl⟩ := accepts_of_charges hk (by simp)
    obtain ⟨hissued, hversion⟩ := horder hfresh
    have huncharged := h.accepted_first hfresh hissued hversion
    refine ⟨hrelied, by simp [huncharged], fun charge hmem => ?_, timely_set trivial fun d _ =>
      h.unpaid huncharged ⟨due, hrelies.1, hrelies.2.1⟩ _ d⟩
    rw [set_shared, huncharged] at hmem
    obtain rfl := List.mem_singleton.mp hmem
    refine .inr ⟨⟨hissued, by rw [← hversion]; rfl⟩, c, ?_⟩
    rw [set_processes_self]
    exact rfl
  | @pays caller reference settlement attempt read new _ hidle hversion =>
    refine ⟨hrelied, h.once, fun charge hmem => .inl ?_, timely_set hidle.timely (hothers rfl)⟩
    obtain ⟨hbacked, hread, hnew⟩ := hrelies
    obtain ⟨-, hnew⟩ := Invoice.markPaid_ok hnew
    rcases hbacked with ⟨charge', hmem', href⟩ | hnot
    · obtain rfl := eq_of_length_le_one h.once hmem hmem'
      rw [Settled, set_shared, hnew, href]
      exact ⟨rfl, rfl⟩
    · exact absurd (h.relied.shared (List.ne_nil_of_mem hmem)) hnot
  | @failed caller e read new _ _ hidle hversion hinvoice hcharges =>
    obtain ⟨hread, hnew⟩ := hrelies
    have hissued : s.shared.invoice.status = .issued := by
      rw [← hread.2 hversion]
      exact (Invoice.markFailed_ok hnew).1
    have huncharged : s.shared.charges = [] := by
      rw [List.eq_nil_iff_forall_not_mem]
      intro charge hmem
      cases choice with
      | proceeds now => exact horder hversion charge hmem (h.keyed hissued hmem)
      | accepts reference | rejects reason => cases hk
    refine ⟨hrelied, by rw [set_shared, hcharges]; exact h.once, fun charge hmem => ?_,
      timely_set hidle.timely (hothers hcharges)⟩
    rw [set_shared, hcharges, huncharged] at hmem
    cases hmem
  | @issued attempt read new _ hidle hversion =>
    obtain ⟨hread, hnew⟩ := hrelies
    obtain ⟨hstatus, -⟩ := Invoice.issue_ok hnew
    rw [hread.2 hversion] at hstatus
    have huncharged : s.shared.charges = [] := by
      apply h.uncharged
      · rcases hstatus with hstatus | hstatus <;> rw [hstatus] <;> decide
      · rcases hstatus with hstatus | hstatus <;> rw [hstatus] <;> decide
    refine ⟨hrelied, h.once, fun charge hmem => ?_, timely_set hidle.timely (hothers rfl)⟩
    rw [set_shared, huncharged] at hmem
    cases hmem

theorem crash (h : Standing s) (hc : s.processes c = .live k) :
    Standing (s.set c (.crashed k) s.shared) := by
  have hst : Step (turn defaultDunningPolicy) s (.crash c) (s.set c (.crashed k) s.shared) := by
    simp [Step, next, hc]
  refine ⟨h.relied.step (turn_keeps defaultDunningPolicy) hst, h.once, fun charge hmem => ?_, fun d => ?_⟩
  · refine (h.kept charge hmem).imp_right ?_
    rintro ⟨hcollectable, d, hd⟩
    refine ⟨hcollectable, d, ?_⟩
    rw [crashed_point s hc]
    exact hd
  · rw [crashed_point s hc]
    exact h.timely d

omit [DecidableEq ι] in
theorem start (h : Opening s) : Standing s := by
  refine ⟨⟨fun hcharges => absurd h.uncharged hcharges, fun c => ?_⟩, ?_, ?_, fun c => ?_⟩
  · rcases h.calls c with hc | hc <;> rw [hc] <;> trivial
  · simp [h.uncharged]
  · simp [h.uncharged]
  · rcases h.calls c with hc | hc <;> rw [hc] <;> trivial

variable {l : Label Choice ι} {u : State Shared Point ι}

theorem step (h : Standing s) (hst : Step (turn policy) s l u) (horder : InOrder s l) :
    Standing u := by
  cases step_move hst with
  | @turn c k choice k' shared hc hk =>
    rw [InOrder, hc] at horder
    exact h.turned hc hk horder
  | @crash c k hc => exact h.crash hc

/-- A call that comes back is answered with the charge, and pays the invoice by it. -/
theorem ends (h : Standing s) (policy : DunningPolicy) (hmem : charge ∈ s.shared.charges)
    (c : ι) : ∃ u, Alone (turn policy) c (s.set c (.live (.precheck .direct)) s.shared) u ∧
      Settled u.shared charge := by
  rcases h.kept charge hmem with hsettled | ⟨⟨hissued, hkey⟩, -⟩
  · exact ⟨_, .refl _ _ _, hsettled⟩
  obtain ⟨total, htotal, hdue⟩ := h.relied.shared (List.ne_nil_of_mem hmem)
  -- the call looks at the invoice, is answered with the charge, reads again, and saves
  have hprecheck : turn policy (.precheck .direct) (.proceeds 0) s.shared =
      some (.collecting .direct s.shared.invoice.tenantRef total s.shared.invoice.version,
        s.shared) := by
    simp [turn, precheck, htotal, hissued, hdue]
  have hcollect : turn policy
      (.collecting .direct s.shared.invoice.tenantRef total s.shared.invoice.version)
      (.accepts charge.reference) s.shared = _ :=
    collect_known _ _ _ _ h.once hmem hkey
  have hsettle : turn policy (.settlingSuccess .direct charge.reference
      (some ⟨s.shared.invoice.tenantRef, total, charge.reference⟩) 1) (.proceeds 0) s.shared =
      some (.savingPaid .direct charge.reference
        (some ⟨s.shared.invoice.tenantRef, total, charge.reference⟩) 1 s.shared.invoice
        { s.shared.invoice with status := .paid, paymentReference := some charge.reference },
        s.shared) := by
    simp [turn, settleSuccess, Invoice.markPaid_issued hissued, hissued]
  have hsave (new : Invoice) : turn policy (.savingPaid .direct charge.reference
      (some ⟨s.shared.invoice.tenantRef, total, charge.reference⟩) 1 s.shared.invoice new)
      (.proceeds 0) s.shared =
      some (.posting .direct ⟨s.shared.invoice.tenantRef, total, charge.reference⟩,
        { s.shared with
          invoice := { new with version := s.shared.invoice.version + 1 } }) := by
    simp [turn, savePaid, saveInvoice, afterPaid]
  refine ⟨_, .turn (set_processes_self _ _ _ _) hprecheck <|
    .turn (set_processes_self _ _ _ _) hcollect <|
    .turn (set_processes_self _ _ _ _) hsettle <|
    .turn (set_processes_self _ _ _ _) (hsave _) <| .refl _ _ _, ?_⟩
  exact ⟨rfl, rfl⟩

theorem collects (h : Standing s) (policy : DunningPolicy) : Collects policy s :=
  ⟨h.once, h.kept, fun _ hmem c => h.ends policy hmem c⟩

/-- What is out of order shows at once. -/
theorem broken (h : Standing s) (hst : Step (turn policy) s l u) (horder : ¬ InOrder s l) :
    ¬ Collects policy u := by
  intro hcollects
  cases step_move hst with
  | @crash c k hc => exact horder trivial
  | @turn c k choice k' shared hc hk =>
    have hrelies := h.relied.points c
    rw [hc] at hrelies
    rw [InOrder, hc] at horder
    cases k with
    | collecting caller tenantRef due version =>
      cases choice with
      | accepts reference =>
        obtain ⟨hfresh, hnot⟩ := Classical.not_imp.mp horder
        have hcollect := (collect_fresh hfresh).symm.trans hk
        cases hcollect
        have hone := hcollects.once
        have huncharged : s.shared.charges = [] := by
          rw [set_shared, List.length_append, List.length_singleton] at hone
          exact List.eq_nil_of_length_eq_zero (by omega)
        rcases hcollects.kept _ (List.mem_append_right _ (List.mem_singleton_self _)) with
          hsettled | ⟨⟨hissued, hkey⟩, -⟩
        · exact hrelies.2.2 hsettled.1 huncharged
        · exact hnot ⟨hissued, (collectKey_injective hkey).symm⟩
      | _ => exact horder trivial
    | savingFailed caller e read new =>
      cases choice with
      | proceeds now =>
        obtain ⟨hversion, hnot⟩ := Classical.not_imp.mp horder
        obtain ⟨charge, hmem⟩ : ∃ charge, charge ∈ s.shared.charges := by
          by_contra hnone
          exact hnot fun charge hmem => absurd ⟨charge, hmem⟩ hnone
        obtain ⟨-, hnew⟩ := Invoice.markFailed_ok hrelies.2
        have hsaved : saveInvoice read new s.shared =
            some { s.shared with invoice := { new with version := read.version + 1 } } :=
          if_pos hversion
        have hturn := Option.some.inj hk
        rw [saveFailed, hsaved] at hturn
        cases hturn
        rcases hcollects.kept charge hmem with hsettled | ⟨hcollectable, -⟩
        · exact absurd hsettled.1 (by simp [hnew])
        · exact absurd hcollectable.1 (by simp [hnew])
      | _ => exact horder trivial
    | _ => exact horder trivial

end Standing

/-- The collection is sound in every state of a run exactly when every step of it is in order. -/
theorem collects_iff [DecidableEq ι] {s : State Shared Point ι} {tr : List (Label Choice ι × State Shared Point ι)}
    (hs : Opening s) (hr : Run (Step (turn policy)) s tr) :
    Always (Collects policy) s tr ↔ EveryStep InOrder s tr :=
  always_iff_everyStep (I := Standing) (fun _ _ _ h hst => h.step hst)
    (fun _ h => h.collects policy) (fun _ _ _ h hst => h.broken hst) (.start hs) hr

section Samples

private def invoice : Invoice :=
  ⟨"invoice", "tenant", "AED", [⟨"Plan", 9900⟩], .issued, none, none, 1⟩

private def subscription : Subscription :=
  ⟨"subscription", .grace, some 11, some ⟨3, 0, some 0, some "invoice"⟩, 2⟩

/-- Two calls of their own and a dunning retry. -/
private def three : State Shared Point (Fin 3) where
  shared := ⟨invoice, subscription, [], [], 0, 0, []⟩
  processes c := if c.val = 2 then .live .retrying else .live (.precheck .direct)

private theorem three_opening : Opening three :=
  ⟨rfl, by decide +kernel⟩

private def goes (c : Fin 3) (turns : ℕ) : List (Label Choice (Fin 3)) :=
  List.replicate turns (.turn c (.proceeds 0))

/-- One call is rejected and settles it, and the retry collects the invoice. -/
theorem collects_iff_retried :
    Always (Collects defaultDunningPolicy) three (attempt (next (turn defaultDunningPolicy)) three
      (goes 0 1 ++ [.turn 0 (.rejects "declined")] ++ goes 0 2 ++ goes 2 5 ++
        [.turn 2 (.accepts "psp"), .crash 1] ++ goes 2 2)) ∧
      EveryStep InOrder three (attempt (next (turn defaultDunningPolicy)) three
        (goes 0 1 ++ [.turn 0 (.rejects "declined")] ++ goes 0 2 ++ goes 2 5 ++
          [.turn 2 (.accepts "psp"), .crash 1] ++ goes 2 2)) := by
  have horder : EveryStep InOrder three (attempt (next (turn defaultDunningPolicy)) three
      (goes 0 1 ++ [.turn 0 (.rejects "declined")] ++ goes 0 2 ++ goes 2 5 ++
        [.turn 2 (.accepts "psp"), .crash 1] ++ goes 2 2)) := by
    decide +kernel
  exact ⟨(collects_iff three_opening (run_attempt _ _ _)).mpr horder, horder⟩

/-- Two calls are rejected under one key. The first settles it, the retry collects the invoice
under the next key, and the second settles its own rejection on what has been charged. -/
theorem collects_fails :
    ¬ ∀ (policy : DunningPolicy) (s : State Shared Point (Fin 3))
      (tr : List (Label Choice (Fin 3) × State Shared Point (Fin 3))), Opening s →
      Run (Step (turn policy)) s tr → Always (Collects policy) s tr := by
  intro h
  have hkept := (h defaultDunningPolicy three _ three_opening (run_attempt _ _
    (goes 0 1 ++ goes 1 1 ++ [.turn 0 (.rejects "declined"), .turn 1 (.rejects "declined")] ++
      goes 0 2 ++ goes 2 5 ++ [.turn 2 (.accepts "psp")] ++ goes 1 2))).last.kept
  have hcharge := fun charge hmem => (hkept charge hmem).imp_right And.left
  exact absurd hcharge (by decide +kernel)

end Samples

end Licensing
