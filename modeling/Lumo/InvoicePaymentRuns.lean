import Lumo.InvoicePaymentSteps
import Lumo.LicensingOneCharge

/-! # One payment of an invoice, by whichever channel

A settlement is posted once, whatever the calls do. One payment is accepted, and every callback
about one is recorded, as long as a checkout is opened only where nothing else can pay the invoice,
and a collection neither charges nor fails an invoice that has a checkout or a charge. -/
namespace InvoicePayments

open SharedKernel Licensing Interleavings LabelledRuns

variable {ι : Type} {policy : DunningPolicy} {a b : Channels} {k k' : Point}
  {s u : State Channels Point ι} {delivery : Delivery}

/-- What a delivery says of the invoice: the order was enrolled for it, and the amount and the
currency are those of the invoice. -/
def Matches (invoice : Invoice) (delivery : Delivery) : Prop :=
  delivery.invoiceRef = invoice.id ∧ delivery.verified.currency = invoice.currency ∧
    ∃ total, invoice.total = .ok total ∧ delivery.verified.amountMinor = total.amountMinor

def Recorded (invoice : Invoice) (delivery : Delivery) : Prop :=
  invoice.status = .paid ∧ invoice.paymentReference = some delivery.verified.transactionId

/-- What is asked of the payments: the provider has accepted one at most, and a callback about one
that has been answered is recorded as the payment of the invoice. -/
structure OnePayment (s : State Channels Point ι) : Prop where
  once : (accepted s.shared).length ≤ 1
  recorded : ∀ c delivery answer, (s.processes c).point = .answered (some delivery) answer →
    Matches s.shared.invoice delivery → Recorded s.shared.invoice delivery

def PostedOnce (s : State Channels Point ι) : Prop := s.shared.ledger.length ≤ 1

/-- A checkout is opened only for an issued invoice that has neither a checkout nor a charge. A
collection is accepted under a fresh key only while no checkout has been opened, and while it is the
key of the invoice; and it is saved as failed only while there is neither a checkout nor a charge. -/
def PointSeparate (s : Channels) : Point → Choice → Prop
  | .startingCheckout _ _ _ _, .checkout _ providerOrderId _ =>
    (∀ order ∈ s.orders, order.id ≠ providerOrderId) →
      s.orders = [] ∧ s.charges = [] ∧ s.invoice.status = .issued
  | .collecting (.collecting _ _ _ version), .collects (.accepts _) =>
    (∀ charge ∈ s.charges, charge.key ≠ collectKey s.invoice.id version) →
      s.orders = [] ∧ s.invoice.status = .issued ∧ s.invoice.version = version
  | .collecting (.savingFailed _ _ read _), .collects (.proceeds _) =>
    read.version = s.invoice.version → s.orders = [] ∧ s.charges = []
  | _, _ => True

instance (s : Channels) : (k : Point) → (choice : Choice) →
    Decidable (PointSeparate s k choice) := by
  intro k choice
  unfold PointSeparate
  split <;> infer_instance

def Separate (s : State Channels Point ι) : Label Choice ι → Prop
  | .turn c choice => PointSeparate s.shared (s.processes c).point choice
  | .crash _ => True

instance (s : State Channels Point ι) : (l : Label Choice ι) → Decidable (Separate s l)
  | .turn _ _ => inferInstanceAs (Decidable (PointSeparate _ _ _))
  | .crash _ => inferInstanceAs (Decidable True)

/-- Where a call begins, and a customer. -/
def Begins : Point → Prop
  | .enrolling _ => True
  | .issuing _ => True
  | .receiving => True
  | .customer => True
  | .collecting (.precheck .direct) => True
  | .collecting .retrying => True
  | _ => False

/-- Nothing has been charged, opened or posted for the invoice, and no method enrolled for it. -/
structure Opening (s : State Channels Point ι) : Prop where
  uncharged : s.shared.charges = []
  unopened : s.shared.orders = []
  unposted : s.shared.ledger = []
  unenrolled : ∀ method ∈ s.shared.methods, method.invoiceRef ≠ some s.shared.invoice.id
  calls : ∀ c, ∃ k, s.processes c = .live k ∧ Begins k

theorem Begins.relies (h : Begins k) : Relies a k := by
  unfold Begins at h
  split at h <;> trivial

theorem Opening.relied (h : Opening s) : Holds Enrolled Relies s := by
  refine ⟨fun method hmethod href => absurd href (h.unenrolled method hmethod), fun c => ?_⟩
  obtain ⟨k, hc, hk⟩ := h.calls c
  rw [hc]
  exact hk.relies

/-- At most one call is about to post, and then nothing has been posted. -/
structure Posting (s : State Channels Point ι) : Prop where
  relied : Holds Enrolled Relies s
  unpaid : s.shared.invoice.status ≠ .paid → s.shared.ledger = [] ∧
    ∀ c k, s.processes c = .live k → ¬ Posts k
  alone : ∀ c k, s.processes c = .live k → Posts k → s.shared.ledger = [] ∧
    ∀ d k', s.processes d = .live k' → Posts k' → d = c
  once : s.shared.ledger.length ≤ 1

namespace Posting

theorem start (h : Opening s) : Posting s := by
  have hquiet : ∀ c k, s.processes c = .live k → ¬ Posts k := by
    intro c k hc hposts
    obtain ⟨k', hc', hk'⟩ := h.calls c
    rw [hc'] at hc
    cases hc
    unfold Begins at hk'
    split at hk' <;> first | cases hposts | cases hk'
  refine ⟨h.relied, fun _ => ⟨h.unposted, hquiet⟩, fun c k hc hposts => ?_, ?_⟩
  · exact absurd hposts (hquiet c k hc)
  · rw [h.unposted]
    exact Nat.zero_le _

variable [DecidableEq ι] {c : ι}

theorem quiet (h : Posting s) (hrelied : Holds Enrolled Relies (s.set c (.live k') b))
    (hquiet : ¬ Posts k') (hledger : b.ledger = s.shared.ledger)
    (hpaid : b.invoice.status ≠ .paid → s.shared.invoice.status ≠ .paid) :
    Posting (s.set c (.live k') b) := by
  have hothers : ∀ d kd, (s.set c (.live k') b).processes d = .live kd → Posts kd →
      s.processes d = .live kd := by
    intro d kd hd hposts
    rcases live_of_turn hd with ⟨-, rfl⟩ | ⟨-, hlive⟩
    · exact absurd hposts hquiet
    · exact hlive
  constructor
  · exact hrelied
  · intro hunpaid
    obtain ⟨hnone, hall⟩ := h.unpaid (hpaid hunpaid)
    refine ⟨hledger.trans hnone, fun d kd hd hposts => ?_⟩
    exact hall d kd (hothers d kd hd hposts) hposts
  · intro d kd hd hposts
    obtain ⟨hnone, honly⟩ := h.alone d kd (hothers d kd hd hposts) hposts
    refine ⟨hledger.trans hnone, fun e ke he hposts' => ?_⟩
    exact honly e ke (hothers e ke he hposts') hposts'
  · rw [set_shared, hledger]
    exact h.once

theorem pays (h : Posting s) (hrelied : Holds Enrolled Relies (s.set c (.live k') b))
    (hunpaid : s.shared.invoice.status ≠ .paid) (hpaid : b.invoice.status = .paid)
    (hledger : b.ledger = s.shared.ledger) : Posting (s.set c (.live k') b) := by
  obtain ⟨hnone, hall⟩ := h.unpaid hunpaid
  have hself : ∀ d kd, (s.set c (.live k') b).processes d = .live kd → Posts kd → d = c := by
    intro d kd hd hposts
    rcases live_of_turn hd with ⟨hdc, -⟩ | ⟨-, hlive⟩
    · exact hdc
    · exact absurd hposts (hall d kd hlive)
  refine ⟨hrelied, fun hnot => absurd hpaid hnot, fun d kd hd hposts => ?_, ?_⟩
  · obtain rfl := hself d kd hd hposts
    exact ⟨hledger.trans hnone, hself⟩
  · rw [set_shared, hledger, hnone]
    exact Nat.zero_le _

theorem posts (h : Posting s) (hrelied : Holds Enrolled Relies (s.set c (.live k') b))
    (hc : s.processes c = .live k) (hposts : Posts k) (hquiet : ¬ Posts k')
    (hinvoice : b.invoice = s.shared.invoice)
    (hledger : b.ledger.length ≤ s.shared.ledger.length + 1) : Posting (s.set c (.live k') b) := by
  obtain ⟨hnone, honly⟩ := h.alone c k hc hposts
  have hall : ∀ d kd, (s.set c (.live k') b).processes d = .live kd → ¬ Posts kd := by
    intro d kd hd hposts'
    rcases live_of_turn hd with ⟨-, rfl⟩ | ⟨hdc, hlive⟩
    · exact hquiet hposts'
    · exact hdc (honly d kd hlive hposts')
  have hpaid : s.shared.invoice.status = .paid := by
    by_contra hunpaid
    exact (h.unpaid hunpaid).2 c k hc hposts
  refine ⟨hrelied, fun hnot => ?_, fun d kd hd hposts' => ?_, ?_⟩
  · rw [set_shared, hinvoice] at hnot
    exact absurd hpaid hnot
  · exact absurd hposts' (hall d kd hd)
  · rw [hnone] at hledger
    exact hledger

theorem step {l : Label Choice ι} (h : Posting s) (hst : Step (turn policy) s l u) : Posting u := by
  have hrelied := h.relied.step (turn_keeps policy) hst
  cases step_move hst with
  | @turn c k choice k' b hc hk =>
    have hpoint : Relies s.shared k := by
      have hrelies := h.relied.points c
      rwa [hc] at hrelies
    have hturned := turn_turned hk
    have hadvanced := hturned.advanced hpoint
    cases hturned.booked hpoint with
    | quiet hledger hquiet =>
      apply h.quiet hrelied hquiet hledger
      intro hunpaid hpaid
      rw [hadvanced.kept.paid hpaid] at hunpaid
      exact hunpaid hpaid
    | pays hunpaid hpaid hledger => exact h.pays hrelied hunpaid hpaid hledger
    | posts hposts hquiet hinvoice hledger =>
      exact h.posts hrelied hc hposts hquiet hinvoice hledger
  | @crash c k hc =>
    constructor
    · exact hrelied
    · intro hunpaid
      obtain ⟨hnone, hall⟩ := h.unpaid hunpaid
      exact ⟨hnone, fun d kd hd => hall d kd (live_of_crash hd)⟩
    · intro d kd hd hposts
      obtain ⟨hnone, honly⟩ := h.alone d kd (live_of_crash hd) hposts
      exact ⟨hnone, fun e ke he => honly e ke (live_of_crash he)⟩
    · exact h.once

end Posting

/-- By which channel the invoice can be paid: by either, by the one charge there is, or by the one
order. -/
inductive Channel (s : Channels) : Prop where
  | either (hcharges : s.charges = []) (horders : s.orders = [])
  | charged (charge : Charge) (hcharges : s.charges = [charge]) (horders : s.orders = [])
      (hstands : s.invoice.status = .issued ∧
        charge.key = collectKey s.invoice.id s.invoice.version ∨ s.invoice.status = .paid)
  | opened (order : CheckoutOrder) (hcharges : s.charges = []) (horders : s.orders = [order])
      (hdue : Due s.toShared) (hstands : s.invoice.status = .issued ∨
        s.invoice.status = .paid ∧ ∃ payment, order.payment = some payment ∧
          s.invoice.paymentReference = some payment.transactionId)

def Told (s : Channels) : Point → Prop
  | .settling _ attempt => attempt = 1 ∨ s.invoice.status = .paid
  | .savingPaid _ _ attempt read _ =>
    attempt = 1 ∧ (read.version = s.invoice.version ∨ s.invoice.status = .paid)
  | .posting delivery _ => Recorded s.invoice delivery
  | .answered (some delivery) _ => Matches s.invoice delivery → Recorded s.invoice delivery
  | _ => True

namespace Channel

theorem accepted_once (h : Channel a) : (accepted a).length ≤ 1 := by
  rw [accepted]
  cases h with
  | either hcharges horders | charged charge hcharges horders => simp [hcharges, horders]
  | opened order hcharges horders =>
    rw [hcharges, horders]
    exact List.length_filterMap_le _ _

theorem same (h : Channel a) (hinvoice : b.invoice = a.invoice) (hcharges : b.charges = a.charges)
    (horders : b.orders = a.orders) : Channel b := by
  cases h with
  | either hnone hunopened => exact .either (hcharges.trans hnone) (horders.trans hunopened)
  | charged charge hcharge hunopened hstands =>
    refine .charged charge (hcharges.trans hcharge) (horders.trans hunopened) ?_
    rw [hinvoice]
    exact hstands
  | opened order hnone horder hdue hstands =>
    refine .opened order (hcharges.trans hnone) (horders.trans horder) ?_ ?_
    · rw [Due, hinvoice]
      exact hdue
    · rw [hinvoice]
      exact hstands

theorem closed (h : Channel a) (hissued : a.invoice.status ≠ .issued)
    (hpaid : a.invoice.status ≠ .paid) : a.charges = [] ∧ a.orders = [] := by
  cases h with
  | either hcharges horders => exact ⟨hcharges, horders⟩
  | charged charge _ _ hstands =>
    rcases hstands with ⟨hstands, -⟩ | hstands
    · exact absurd hstands hissued
    · exact absurd hstands hpaid
  | opened order _ _ _ hstands =>
    rcases hstands with hstands | ⟨hstands, -⟩
    · exact absurd hstands hissued
    · exact absurd hstands hpaid

theorem order_of_paid (h : Channel a) (hpaid : Paid a delivery)
    (href : delivery.invoiceRef = a.invoice.id) : ∃ order, a.charges = [] ∧ a.orders = [order] ∧
      Due a.toShared ∧ order.payment = some delivery.verified.payment ∧
      (a.invoice.status = .issued ∨ Recorded a.invoice delivery) := by
  obtain ⟨order, horder, hpayment⟩ := hpaid href
  cases h with
  | either _ horders | charged _ _ horders =>
    rw [horders] at horder
    cases horder
  | opened order' hcharges horders hdue hstands =>
    rw [horders] at horder
    obtain rfl := List.mem_singleton.mp horder
    refine ⟨order, hcharges, horders, hdue, hpayment, hstands.imp_right ?_⟩
    rintro ⟨hstatus, payment, hpaid', href'⟩
    rw [hpayment] at hpaid'
    cases hpaid'
    exact ⟨hstatus, href'⟩

theorem fresh (h : Channel a) (horders : a.orders = []) (hissued : a.invoice.status = .issued)
    (hfresh : ∀ charge ∈ a.charges, charge.key ≠ collectKey a.invoice.id a.invoice.version) :
    a.charges = [] := by
  cases h with
  | either hcharges => exact hcharges
  | charged charge hcharges _ hstands =>
    rcases hstands with ⟨-, hkey⟩ | hpaid
    · exact absurd hkey (hfresh charge (by rw [hcharges]; exact List.mem_singleton_self _))
    · rw [hissued] at hpaid
      cases hpaid
  | opened order _ hopened =>
    rw [horders] at hopened
    cases hopened

end Channel

structure Stays (a b : Channels) : Prop where
  channel : Channel b
  invoice : a.orders ≠ [] → b.invoice = a.invoice ∨ b.invoice.status = .paid

theorem Stays.same (h : Channel a) (hinvoice : b.invoice = a.invoice)
    (hcharges : b.charges = a.charges) (horders : b.orders = a.orders) : Stays a b :=
  ⟨h.same hinvoice hcharges horders, fun _ => .inl hinvoice⟩

theorem issue_open {invoice new : Invoice} (h : invoice.issue = .ok new) :
    invoice.status ≠ .issued ∧ invoice.status ≠ .paid := by
  obtain ⟨hstatus, -⟩ := Invoice.issue_ok h
  rcases hstatus with hstatus | hstatus <;> rw [hstatus] <;> decide

theorem Stays.issued (h : Channel a) {read new : Invoice} (hread : ReadInvoice a.toShared read)
    (hnew : read.issue = .ok new) (hversion : read.version = a.invoice.version)
    (hcharges : b.charges = a.charges) (horders : b.orders = a.orders) : Stays a b := by
  obtain rfl := hread.2 hversion
  obtain ⟨hissued, hpaid⟩ := issue_open hnew
  obtain ⟨hnone, hunopened⟩ := h.closed hissued hpaid
  exact ⟨.either (hcharges.trans hnone) (horders.trans hunopened), fun h => absurd hunopened h⟩

theorem collecting_stays {point point' : Licensing.Point} {choice : Licensing.Choice}
    {shared : Shared} (h : Channel a)
    (hturn : Licensing.turn policy point choice a.toShared = some (point', shared))
    (hcollects : Collects a.toShared point)
    (hseparate : PointSeparate a (.collecting point) (.collects choice)) :
    Stays a { a with toShared := shared } := by
  cases turned_effect (Licensing.turn_turned hturn) with
  | idles hinvoice hcharges => exact .same h hinvoice hcharges rfl
  | @accepted caller tenantRef due version reference hfresh =>
    obtain ⟨reference', rfl⟩ := accepts_of_charges hturn (by simp)
    obtain ⟨horders, hissued, hversion⟩ := hseparate hfresh
    rw [← hversion] at hfresh
    have hcharges := h.fresh horders hissued hfresh
    refine ⟨.charged ⟨collectKey a.invoice.id version, tenantRef, due, reference⟩ ?_ horders
      (.inl ⟨hissued, by rw [← hversion]⟩), fun hopened => absurd horders hopened⟩
    rw [hcharges]
    rfl
  | @pays caller reference settlement attempt read new _ hidle hversion =>
    obtain ⟨hbacked, hread, hnew⟩ := hcollects
    obtain ⟨-, rfl⟩ := Invoice.markPaid_ok hnew
    refine ⟨?_, fun _ => .inr rfl⟩
    cases h with
    | either hcharges horders => exact .either hcharges horders
    | charged charge hcharges horders => exact .charged charge hcharges horders (.inr rfl)
    | opened order hcharges horders hdue =>
      rcases hbacked with ⟨charge, hmem, -⟩ | hnot
      · rw [hcharges] at hmem
        cases hmem
      · exact absurd hdue hnot
  | @failed caller e read new _ _ hidle hversion hinvoice hcharges =>
    have hsettled : a.orders = [] ∧ a.charges = [] := by
      cases choice with
      | proceeds now => exact hseparate hversion
      | accepts reference | rejects reason => cases hturn
    exact ⟨.either (hcharges.trans hsettled.2) hsettled.1, fun h => absurd hsettled.1 h⟩
  | issued hidle hversion => exact .issued h hcollects.1 hcollects.2 hversion rfl rfl
  | _ => exact .same h rfl rfl rfl

theorem Turned.stays {choice : Choice} (hturned : Turned policy a k choice k' b)
    (h : Channel a) (hk : Relies a k) (hseparate : PointSeparate a k choice) : Stays a b := by
  cases hturned with
  | @opens invoiceId tenantRef key total id providerOrderId checkoutUrl hfresh =>
    obtain ⟨horders, hcharges, hissued⟩ := hseparate hfresh
    refine ⟨.opened ⟨providerOrderId, key, tenantRef, total, none⟩ hcharges ?_ ⟨total, hk⟩
      (.inl hissued), fun _ => .inl rfl⟩
    rw [horders]
    rfl
  | issued hversion => exact .issued h hk.1 hk.2 hversion rfl rfl
  | @paid delivery settlement attempt read new hversion =>
    obtain ⟨⟨hpaid, href⟩, hread, hnew⟩ := hk
    obtain ⟨-, rfl⟩ := Invoice.markPaid_ok hnew
    obtain rfl := hread.2 hversion
    obtain ⟨order, hcharges, horders, hdue, hpayment, -⟩ := h.order_of_paid hpaid href
    exact ⟨.opened order hcharges horders hdue (.inr ⟨rfl, _, hpayment, rfl⟩), fun _ => .inr rfl⟩
  | collects hturn => exact collecting_stays h hturn hk hseparate
  | @pays providerOrderId payment hunpaid =>
    obtain ⟨order, hmem, hid, hnone⟩ := hunpaid
    refine ⟨?_, fun _ => .inl rfl⟩
    cases h with
    | either _ horders | charged _ _ horders =>
      rw [horders] at hmem
      cases hmem
    | opened order' hcharges horders hdue hstands =>
      rw [horders] at hmem
      obtain rfl := List.mem_singleton.mp hmem
      have hissued : a.invoice.status = .issued := by
        rcases hstands with hissued | ⟨-, paid, hpaid, -⟩
        · exact hissued
        · rw [hnone] at hpaid
          cases hpaid
      refine .opened { order with payment := some payment } hcharges ?_ hdue (.inl hissued)
      rw [horders, List.map_singleton, if_pos ⟨hid, hnone⟩]
  | _ => exact .same h rfl rfl rfl

theorem Told.kept (h : Told a k) (hk : Relies a k) (hab : Advanced a b) (hstays : Stays a b) :
    Told b k := by
  have hrecorded : ∀ delivery, Recorded a.invoice delivery → Recorded b.invoice delivery := by
    intro delivery hrecorded
    rw [hab.kept.paid hrecorded.1]
    exact hrecorded
  have hpaid : a.invoice.status = .paid → b.invoice.status = .paid := by
    intro hpaid
    rw [hab.kept.paid hpaid]
    exact hpaid
  cases k with
  | settling => exact h.imp_right hpaid
  | savingPaid delivery settlement attempt read new =>
    refine ⟨h.1, ?_⟩
    obtain ⟨order, horder, -⟩ := hk.1.1 hk.1.2
    rcases hstays.invoice (List.ne_nil_of_mem horder) with hsame | hnow
    · rw [hsame]
      exact h.2
    · exact .inr hnow
  | posting => exact hrecorded _ h
  | answered delivery answer =>
    cases delivery with
    | none => trivial
    | some delivery =>
      rintro ⟨href, hcurrency, total, htotal, hamount⟩
      exact hrecorded _ (h ⟨href.trans hab.kept.id, hcurrency.trans hab.kept.currency, total,
        hab.kept.total ▸ htotal, hamount⟩)
  | _ => trivial

theorem settle_told {attempt : ℕ} (h : Channel a) (hk : Paid a delivery)
    (htold : attempt = 1 ∨ a.invoice.status = .paid) :
    Told a (settle delivery attempt a.invoice) := by
  generalize hpoint : settle delivery attempt a.invoice = point
  cases settle_settled hpoint with
  | elsewhere hother => exact fun hmatches => absurd hmatches.1 hother
  | already hpaid =>
    intro hmatches
    obtain ⟨-, -, -, -, -, hissued | hrecorded⟩ := h.order_of_paid hk hmatches.1
    · rw [hpaid] at hissued
      cases hissued
    · exact hrecorded
  | ignored hpaid hissued =>
    intro hmatches
    obtain ⟨-, -, -, -, -, hstands | hrecorded⟩ := h.order_of_paid hk hmatches.1
    · exact absurd hstands hissued
    · exact hrecorded
  | corrupt htotal =>
    rintro ⟨-, -, total, htotal', -⟩
    rw [htotal] at htotal'
    cases htotal'
  | mismatch htotal hdiffers =>
    rintro ⟨-, hcurrency, total, htotal', hamount⟩
    rw [htotal] at htotal'
    cases htotal'
    exact absurd hcurrency (hdiffers hamount)
  | saves href hissued hnew =>
    refine ⟨htold.resolve_right fun hpaid => ?_, .inl rfl⟩
    rw [hissued] at hpaid
    cases hpaid

theorem Turned.told {choice : Choice} (hturned : Turned policy a k choice k' b)
    (h : Channel a) (hk : Relies a k) (htold : Told a k) : Told b k' := by
  cases hturned with
  | enrols invoiceId =>
    rcases enrol_cases invoiceId a.invoice with ⟨answer, hpoint⟩ |
      ⟨tenantRef, key, total, -, -, -, hpoint⟩ <;> rw [hpoint] <;> trivial
  | issues invoiceId =>
    rcases issue_cases invoiceId a.invoice with ⟨answer, hpoint⟩ | ⟨new, -, hpoint⟩ <;>
      rw [hpoint] <;> trivial
  | @receives verified =>
    rcases receive_cases verified a.methods with ⟨answer, hpoint⟩ |
      ⟨method, -, invoiceRef, -, -, -, hpoint⟩
    · rw [hpoint]
      trivial
    · rw [hpoint]
      exact .inl rfl
  | settles delivery attempt => exact settle_told h hk htold
  | @paid delivery settlement attempt read new hversion =>
    obtain ⟨-, rfl⟩ := Invoice.markPaid_ok hk.2.2
    exact ⟨rfl, rfl⟩
  | resettles hversion => exact .inr (htold.2.resolve_left hversion)
  | gives_up hversion hattempt =>
    rw [htold.1] at hattempt
    exact absurd hattempt (by decide)
  | posted | unposted => exact fun _ => htold
  | _ => trivial

structure Standing (s : State Channels Point ι) : Prop where
  relied : Holds Enrolled Relies s
  channel : Channel s.shared
  told : ∀ c, Told s.shared (s.processes c).point

namespace Standing

theorem start (h : Opening s) : Standing s := by
  refine ⟨h.relied, .either h.uncharged h.unopened, fun c => ?_⟩
  obtain ⟨k, hc, hk⟩ := h.calls c
  rw [hc]
  unfold Begins at hk
  split at hk <;> trivial

theorem one (h : Standing s) : OnePayment s := by
  refine ⟨h.channel.accepted_once, fun c delivery answer hc hmatches => ?_⟩
  have htold := h.told c
  rw [hc] at htold
  exact htold hmatches

variable [DecidableEq ι]

theorem step {l : Label Choice ι} (h : Standing s) (hst : Step (turn policy) s l u)
    (hseparate : Separate s l) : Standing u := by
  have hrelied := h.relied.step (turn_keeps policy) hst
  cases step_move hst with
  | @turn c k choice k' b hc hk =>
    have hrelies := h.relied.points c
    have htold := h.told c
    rw [hc] at hrelies htold
    rw [Separate, hc] at hseparate
    have hturned := turn_turned hk
    have hstays := hturned.stays h.channel hrelies hseparate
    refine ⟨hrelied, hstays.channel, fun d => ?_⟩
    by_cases hdc : d = c
    · subst hdc
      rw [set_processes_self]
      exact hturned.told h.channel hrelies htold
    · rw [set_processes_of_ne s hdc]
      exact (h.told d).kept (h.relied.points d) (hturned.advanced hrelies) hstays
  | @crash c k hc =>
    refine ⟨hrelied, h.channel, fun d => ?_⟩
    rw [crashed_point s hc]
    exact h.told d

end Standing

/-- A settlement is posted once in every run. One payment is accepted, and every callback about it
is recorded, in every run whose steps keep the channels apart. -/
theorem one_payment [DecidableEq ι] {tr : List (Label Choice ι × State Channels Point ι)}
    (hs : Opening s) (hr : Run (Step (turn policy)) s tr) :
    Always PostedOnce s tr ∧ (EveryStep Separate s tr → Always OnePayment s tr) := by
  refine ⟨?_, fun hseparate => ?_⟩
  · exact (always_of_invariant (fun _ _ _ h hst => h.step hst) (Posting.start hs) hr).mono
      fun _ h => h.once
  · exact (always_of_everyStep (fun _ _ _ h hst => h.step hst) (Standing.start hs) hr
      hseparate).mono fun _ h => h.one

section Samples

private def issuedInvoice : Invoice :=
  ⟨"invoice-1", "merchant-1", "EGP", [⟨"First period", 149900⟩], .issued, none, none, 1⟩

private def trialSubscription : Subscription := ⟨"subscription-1", .active, none, none, 1⟩

private def start (calls : List Point) : State Channels Point (Fin 6) where
  shared := { toShared := ⟨issuedInvoice, trialSubscription, [], [], 0, 0, []⟩
              methods := [], orders := [] }
  processes c := .live (calls.getD c.val .customer)

private theorem start_opening (calls : List Point) (h : ∀ k ∈ calls, Begins k) :
    Opening (start calls) := by
  refine ⟨rfl, rfl, rfl, fun method hmethod => (by cases hmethod), fun c => ⟨_, rfl, ?_⟩⟩
  rw [List.getD_eq_getElem?_getD]
  cases hget : calls[c.val]? with
  | none => trivial
  | some k => exact h k (List.mem_of_getElem? hget)

private def signed : VerifiedInvoiceTransaction :=
  ⟨"txn-1", "order-1", 149900, "EGP", true, false, false, true, false, false, false⟩

private def proceeds (c : Fin 6) : Label Choice (Fin 6) := .turn c .proceeds

private def collects (c : Fin 6) : Label Choice (Fin 6) := .turn c (.collects (.proceeds 0))

/-- The enrolment opens a checkout and stores its method. -/
private def enrolls : List (Label Choice (Fin 6)) :=
  [proceeds 0, .turn 0 (.checkout "method-1" "order-1" "https://pay/1"), proceeds 0]

/-- The customer pays the order, and the callback arrives. -/
private def customer_pays : List (Label Choice (Fin 6)) :=
  [.turn 5 (.pays "order-1" signed.payment), .turn 2 (.callback (some signed)), proceeds 2]

/-- A collection is declined and the invoice issued again, then the checkout is opened and paid; the
callback is delivered twice, and a late collection finds the invoice paid. -/
theorem one_payment_enrolled :
    Always OnePayment
      (start [.enrolling "invoice-1", .collecting (.precheck .direct), .receiving, .receiving,
        .issuing "invoice-1", .customer])
      (attempt (next (turn defaultDunningPolicy))
        (start [.enrolling "invoice-1", .collecting (.precheck .direct), .receiving, .receiving,
          .issuing "invoice-1", .customer])
        ([collects 1, .turn 1 (.collects (.rejects "declined")), collects 1, collects 1, proceeds 4,
          proceeds 4] ++ enrolls ++ customer_pays ++ [proceeds 2, proceeds 2,
          .turn 3 (.callback (some signed)), proceeds 3])) :=
  (one_payment (start_opening _ (by simp [Begins])) (run_attempt _ _ _)).2 (by decide +kernel)

/-- The checkout is opened, the card is charged and the invoice paid by the collection, and then the
customer pays the checkout: two payments are accepted, and the callback about the second is answered
as if it had been recorded. -/
theorem paid_twice :
    ¬ ∀ (policy : DunningPolicy) (s : State Channels Point (Fin 6))
      (tr : List (Label Choice (Fin 6) × State Channels Point (Fin 6))), Opening s →
      Run (Step (turn policy)) s tr → Always OnePayment s tr := by
  intro h
  have hone := (h defaultDunningPolicy _ _
    (start_opening [.enrolling "invoice-1", .collecting (.precheck .direct), .receiving]
      (by simp [Begins]))
    (run_attempt _ _ (enrolls ++ [collects 1, .turn 1 (.collects (.accepts "psp-1")), collects 1,
      collects 1, collects 1] ++ customer_pays))).last
  exact absurd hone.once (by decide +kernel)

end Samples

end InvoicePayments
