import Lumo.InvoicePayments
import Lumo.LicensingCharges

/-! # What the calls on an invoice do to it and to its payments

An invoice that is paid stays as it is, an order keeps what was paid on it, and a callback that
reaches the invoice is about an order that has been paid. -/
namespace InvoicePayments

open SharedKernel Licensing Interleavings LabelledRuns
open LicensingCards (BillingPaymentMethod Methods billingProvider findByProviderOrder)

variable {policy : DunningPolicy} {a b : Channels} {k k' : Point}
  {seen new : Invoice} {delivery : Delivery}

inductive Turned (policy : DunningPolicy) (a : Channels) :
    Point → Choice → Point → Channels → Prop where
  | enrols (invoiceId) :
      Turned policy a (.enrolling invoiceId) .proceeds (enrol invoiceId a.invoice) a
  | opens {invoiceId tenantRef key total id providerOrderId checkoutUrl}
      (hfresh : ∀ order ∈ a.orders, order.id ≠ providerOrderId) :
      Turned policy a (.startingCheckout invoiceId tenantRef key total)
        (.checkout id providerOrderId checkoutUrl)
        (.savingMethod (.begin id tenantRef billingProvider providerOrderId invoiceId) checkoutUrl)
        { a with orders := a.orders ++ [⟨providerOrderId, key, tenantRef, total, none⟩] }
  | reopens {invoiceId tenantRef key total id providerOrderId checkoutUrl}
      (hknown : ∃ order ∈ a.orders, order.id = providerOrderId) :
      Turned policy a (.startingCheckout invoiceId tenantRef key total)
        (.checkout id providerOrderId checkoutUrl)
        (.savingMethod (.begin id tenantRef billingProvider providerOrderId invoiceId)
          checkoutUrl) a
  | enrolled {method checkoutUrl methods answer}
      (hmethods : ∀ row ∈ methods, row ∈ a.methods ∨
        row.providerOrderId = method.providerOrderId) :
      Turned policy a (.savingMethod method checkoutUrl) .proceeds (.answered none answer)
        { a with methods := methods }
  | ends {k choice answer} : Turned policy a k choice (.answered none answer) a
  | issues (invoiceId) :
      Turned policy a (.issuing invoiceId) .proceeds (issue invoiceId a.invoice) a
  | issued {read new answer} (hversion : read.version = a.invoice.version) :
      Turned policy a (.savingIssued read new) .proceeds (.answered none answer)
        { a with invoice := { new with version := read.version + 1 } }
  | receives {verified} (hgenuine : genuine a.orders verified = true) :
      Turned policy a .receiving (.callback (some verified)) (receive verified a.methods) a
  | settles (delivery attempt) : Turned policy a (.settling delivery attempt) .proceeds
      (settle delivery attempt a.invoice) a
  | paid {delivery settlement attempt read new} (hversion : read.version = a.invoice.version) :
      Turned policy a (.savingPaid delivery settlement attempt read new) .proceeds
        (.posting delivery settlement)
        { a with invoice := { new with version := read.version + 1 } }
  | resettles {delivery settlement attempt read new}
      (hversion : read.version ≠ a.invoice.version) :
      Turned policy a (.savingPaid delivery settlement attempt read new) .proceeds
        (.settling delivery (attempt + 1)) a
  | gives_up {delivery settlement attempt read new answer}
      (hversion : read.version ≠ a.invoice.version) (hattempt : maxConcurrencyRetries ≤ attempt) :
      Turned policy a (.savingPaid delivery settlement attempt read new) .proceeds
        (.answered (some delivery) answer) a
  | posted (delivery settlement) : Turned policy a (.posting delivery settlement) .proceeds
      (.answered (some delivery) (.recorded .paid))
      { a with ledger := a.ledger ++ [settlement] }
  | unposted (delivery settlement reason) :
      Turned policy a (.posting delivery settlement) (.fails reason)
        (.answered (some delivery) (.recorded .paid)) a
  | collects {point choice point' shared}
      (hturn : Licensing.turn policy point choice a.toShared = some (point', shared)) :
      Turned policy a (.collecting point) (.collects choice) (.collecting point')
        { a with toShared := shared }
  | pays {providerOrderId payment}
      (hunpaid : ∃ order ∈ a.orders, order.id = providerOrderId ∧ order.payment = none) :
      Turned policy a .customer (.pays providerOrderId payment) .customer
        { a with orders := a.orders.map fun order =>
          if order.id = providerOrderId ∧ order.payment = none then
            { order with payment := some payment }
          else order }

theorem save_eq (read new : Invoice) (a : Channels) :
    (read.version = a.invoice.version ∧
      save read new a = some { a with invoice := { new with version := read.version + 1 } }) ∨
    (read.version ≠ a.invoice.version ∧ save read new a = none) := by
  rcases saveInvoice_eq read new a.toShared with ⟨hversion, hsave⟩ | ⟨hversion, hsave⟩
  · exact .inl ⟨hversion, by rw [save, hsave]; rfl⟩
  · exact .inr ⟨hversion, by rw [save, hsave]; rfl⟩

theorem saved_methods {method : BillingPaymentMethod} {rows rows' : Methods}
    (h : LicensingCards.save method rows = .ok rows') (row : BillingPaymentMethod)
    (hrow : row ∈ rows') : row ∈ rows ∨ row.providerOrderId = method.providerOrderId := by
  unfold LicensingCards.save at h
  split at h
  · split at h
    · cases h
    · cases h
      rcases List.mem_append.mp hrow with hrow | hrow
      · exact .inl hrow
      · exact .inr (by rw [List.mem_singleton.mp hrow])
  · split at h
    · split at h
      · cases h
      · cases h
        obtain ⟨old, hold, rfl⟩ := List.mem_map.mp hrow
        split
        · exact .inr rfl
        · exact .inl hold
    · cases h

variable {orders : List CheckoutOrder} {choice : Choice}

theorem startCheckout_some {tenantRef key providerOrderId : String} {total : Money}
    {orders' : List CheckoutOrder}
    (h : startCheckout tenantRef key total providerOrderId orders = some orders') :
    (∀ order ∈ orders, order.id ≠ providerOrderId) ∧
        orders' = orders ++ [⟨providerOrderId, key, tenantRef, total, none⟩] ∨
      (∃ order ∈ orders, order.id = providerOrderId) ∧ orders' = orders := by
  unfold startCheckout at h
  split at h
  · rename_i hnone
    cases h
    refine .inl ⟨fun order horder heq => ?_, rfl⟩
    exact List.find?_eq_none.mp hnone order horder (beq_iff_eq.mpr heq)
  · rename_i order hfind
    split at h
    · cases h
      have hid := List.find?_some hfind
      rw [beq_iff_eq] at hid
      exact .inr ⟨⟨order, List.mem_of_find?_eq_some hfind, hid⟩, rfl⟩
    · cases h

theorem pay_some {providerOrderId : String} {payment : Payment} {orders' : List CheckoutOrder}
    (h : pay providerOrderId payment orders = some orders') :
    (∃ order ∈ orders, order.id = providerOrderId ∧ order.payment = none) ∧
      orders' = orders.map fun order =>
        if order.id = providerOrderId ∧ order.payment = none then
          { order with payment := some payment }
        else order := by
  unfold pay at h
  split at h
  · rename_i hany
    cases h
    obtain ⟨order, horder, hunpaid⟩ := List.any_eq_true.mp hany
    rw [Bool.and_eq_true, beq_iff_eq, beq_iff_eq] at hunpaid
    exact ⟨⟨order, horder, hunpaid⟩, rfl⟩
  · cases h

theorem turn_turned (h : turn policy k choice a = some (k', b)) :
    Turned policy a k choice k' b := by
  unfold turn at h
  split at h
  case h_1 invoiceId =>
    cases h
    exact .enrols invoiceId
  case h_2 invoiceId tenantRef key total id providerOrderId checkoutUrl =>
    obtain ⟨orders, horders, heq⟩ := Option.map_eq_some_iff.mp h
    cases heq
    rcases startCheckout_some horders with ⟨hfresh, rfl⟩ | ⟨hknown, rfl⟩
    · exact .opens hfresh
    · exact .reopens hknown
  case h_3 =>
    cases h
    exact .ends
  case h_4 method checkoutUrl =>
    unfold saveMethod at h
    split at h
    · cases h
      exact .ends
    · rename_i methods hmethods
      cases h
      exact .enrolled (saved_methods hmethods)
  case h_5 invoiceId =>
    cases h
    exact .issues invoiceId
  case h_6 read new =>
    unfold saveIssued at h
    rcases save_eq read new a with ⟨hversion, hsave⟩ | ⟨-, hsave⟩
    · rw [hsave] at h
      cases h
      exact .issued hversion
    · rw [hsave] at h
      cases h
      exact .ends
  case h_7 =>
    cases h
    exact .ends
  case h_8 verified =>
    split at h
    · rename_i hgenuine
      cases h
      exact .receives hgenuine
    · cases h
  case h_9 delivery attempt =>
    cases h
    exact .settles delivery attempt
  case h_10 delivery settlement attempt read new =>
    unfold savePaid at h
    rcases save_eq read new a with ⟨hversion, hsave⟩ | ⟨hversion, hsave⟩
    · rw [hsave] at h
      cases h
      exact .paid hversion
    · rw [hsave] at h
      dsimp only at h
      split at h
      · cases h
        exact .resettles hversion
      · rename_i hattempt
        cases h
        exact .gives_up hversion (Nat.le_of_not_lt hattempt)
  case h_11 delivery settlement =>
    cases h
    exact .posted delivery settlement
  case h_12 delivery settlement reason =>
    cases h
    exact .unposted delivery settlement reason
  case h_13 point choice =>
    obtain ⟨⟨point', shared⟩, hturn, heq⟩ := Option.map_eq_some_iff.mp h
    cases heq
    exact .collects hturn
  case h_14 providerOrderId payment =>
    obtain ⟨orders, horders, heq⟩ := Option.map_eq_some_iff.mp h
    cases heq
    obtain ⟨hunpaid, rfl⟩ := pay_some horders
    exact .pays hunpaid
  case h_15 => cases h

structure Moves (seen new : Invoice) : Prop where
  id : new.id = seen.id
  total : new.total = seen.total
  currency : new.currency = seen.currency
  unpaid : seen.status ≠ .paid

theorem moves_issued (h : seen.issue = .ok new) : Moves seen new := by
  obtain ⟨hstatus, rfl⟩ := Invoice.issue_ok h
  refine ⟨rfl, rfl, rfl, ?_⟩
  rcases hstatus with hstatus | hstatus <;> rw [hstatus] <;> decide

theorem moves_failed (h : seen.markFailed = .ok new) : Moves seen new := by
  obtain ⟨hstatus, rfl⟩ := Invoice.markFailed_ok h
  exact ⟨rfl, rfl, rfl, by rw [hstatus]; decide⟩

theorem moves_paid {reference : String} (h : seen.markPaid reference = .ok new) :
    Moves seen new := by
  obtain ⟨hstatus, rfl⟩ := Invoice.markPaid_ok h
  exact ⟨rfl, rfl, rfl, by rw [hstatus]; decide⟩

/-- A paid invoice stays as it is, and the charges stay. -/
structure Kept (a b : Shared) : Prop where
  id : b.invoice.id = a.invoice.id
  total : b.invoice.total = a.invoice.total
  currency : b.invoice.currency = a.invoice.currency
  charges : ∀ charge ∈ a.charges, charge ∈ b.charges
  version : a.invoice.version ≤ b.invoice.version
  same : b.invoice.version = a.invoice.version → b.invoice = a.invoice
  paid : a.invoice.status = .paid → b.invoice = a.invoice

namespace Kept

variable {a b : Shared}

theorem of_invoice (hinvoice : b.invoice = a.invoice)
    (hcharges : ∀ charge ∈ a.charges, charge ∈ b.charges) : Kept a b where
  id := by rw [hinvoice]
  total := by rw [hinvoice]
  currency := by rw [hinvoice]
  charges := hcharges
  version := by rw [hinvoice]
  same _ := hinvoice
  paid _ := hinvoice

theorem saved (hread : ReadInvoice a seen) (hmoves : Moves seen new)
    (hversion : seen.version = a.invoice.version)
    (hinvoice : b.invoice = { new with version := seen.version + 1 })
    (hcharges : b.charges = a.charges) : Kept a b := by
  obtain rfl := hread.2 hversion
  constructor
  · rw [hinvoice]
    exact hmoves.id
  · rw [hinvoice]
    exact hmoves.total
  · rw [hinvoice]
    exact hmoves.currency
  · rw [hcharges]
    exact fun _ h => h
  · rw [hinvoice]
    exact Nat.le_succ _
  · intro h
    rw [hinvoice] at h
    exact absurd h (Nat.succ_ne_self _)
  · intro h
    exact absurd h hmoves.unpaid

theorem due (h : Kept a b) : Due b ↔ Due a := by
  rw [Due, Due, h.total]

theorem backed {reference : String} (h : Kept a b) (hbacked : Backed a reference) :
    Backed b reference := by
  rcases hbacked with ⟨charge, hcharge, href⟩ | hdue
  · exact .inl ⟨charge, h.charges charge hcharge, href⟩
  · exact .inr fun hb => hdue (h.due.mp hb)

theorem read (h : Kept a b) {invoice : Invoice} (hread : ReadInvoice a invoice) :
    ReadInvoice b invoice := by
  refine ⟨hread.1.trans h.version, fun hversion => ?_⟩
  have hsame : b.invoice.version = a.invoice.version :=
    le_antisymm (hversion ▸ hread.1) h.version
  rw [h.same hsame]
  exact hread.2 (hversion.trans hsame)

end Kept

/-- What a collection relies on. -/
def Collects (s : Shared) : Licensing.Point → Prop
  | .collecting _ _ due _ => s.invoice.total = .ok due ∧ due.amountMinor ≠ 0
  | .settlingSuccess _ reference _ _ => Backed s reference
  | .savingPaid _ reference _ _ read new =>
    Backed s reference ∧ ReadInvoice s read ∧ read.markPaid reference = .ok new
  | .savingFailed _ _ read new => ReadInvoice s read ∧ read.markFailed = .ok new
  | .savingIssued _ read new => ReadInvoice s read ∧ read.issue = .ok new
  | _ => True

theorem Collects.kept {a b : Shared} {k : Licensing.Point} (h : Collects a k) (hab : Kept a b) :
    Collects b k := by
  cases k with
  | collecting => exact ⟨hab.total.trans h.1, h.2⟩
  | settlingSuccess => exact hab.backed h
  | savingPaid => exact ⟨hab.backed h.1, hab.read h.2.1, h.2.2⟩
  | savingFailed | savingIssued => exact ⟨hab.read h.1, h.2⟩
  | _ => trivial

theorem idle_collects {a : Shared} {k : Licensing.Point} (h : Idle k) : Collects a k := by
  cases k with
  | collecting | settlingSuccess | savingPaid | savingFailed | savingIssued => cases h
  | _ => trivial

theorem effect_kept {a b : Shared} {k k' : Licensing.Point} (h : Effect a k k' b)
    (hk : Collects a k) : Kept a b := by
  cases h with
  | idles hinvoice hcharges => exact .of_invoice hinvoice (by rw [hcharges]; exact fun _ h => h)
  | accepted => exact .of_invoice rfl fun charge h => List.mem_append_left _ h
  | pays hidle hversion => exact .saved hk.2.1 (moves_paid hk.2.2) hversion rfl rfl
  | failed hidle hversion hinvoice hcharges =>
    exact .saved hk.1 (moves_failed hk.2) hversion hinvoice hcharges
  | issued hidle hversion => exact .saved hk.1 (moves_issued hk.2) hversion rfl rfl
  | _ => exact .of_invoice rfl fun _ h => h

theorem effect_collects {a b : Shared} {k k' : Licensing.Point} (h : Effect a k k' b)
    (hk : Collects a k) : Collects b k' := by
  cases h with
  | idles _ _ hidle => exact idle_collects hidle
  | waives htotal hzero =>
    refine .inr fun ⟨total, htotal', hdue⟩ => hdue ?_
    rw [htotal] at htotal'
    cases htotal'
    exact hzero
  | checks htotal hdue => exact ⟨htotal, hdue⟩
  | answered hmem => exact .inl ⟨_, hmem, rfl⟩
  | accepted => exact .inl ⟨_, List.mem_append_right _ (List.mem_singleton_self _), rfl⟩
  | settles _ hnew => exact ⟨hk, .current a, hnew⟩
  | pays hidle => exact idle_collects hidle
  | resettles => exact hk.1
  | fails hnew => exact ⟨.current a, hnew⟩
  | failed hidle => exact idle_collects hidle
  | issues hnew => exact ⟨.current a, hnew⟩
  | issued hidle => exact idle_collects hidle

def Paid (s : Channels) (delivery : Delivery) : Prop :=
  delivery.invoiceRef = s.invoice.id →
    ∃ order ∈ s.orders, order.payment = some delivery.verified.payment

/-- What a point relies on. -/
def Relies (s : Channels) : Point → Prop
  | .startingCheckout _ _ _ total => s.invoice.total = .ok total ∧ total.amountMinor ≠ 0
  | .savingMethod method _ => ∃ order ∈ s.orders, order.id = method.providerOrderId
  | .savingIssued read new => ReadInvoice s.toShared read ∧ read.issue = .ok new
  | .settling delivery _ => Paid s delivery
  | .savingPaid delivery _ _ read new => (Paid s delivery ∧ delivery.invoiceRef = s.invoice.id) ∧
      ReadInvoice s.toShared read ∧ read.markPaid delivery.verified.transactionId = .ok new
  | .collecting point => Collects s.toShared point
  | _ => True

def Enrolled (s : Channels) : Prop :=
  ∀ method ∈ s.methods, method.invoiceRef = some s.invoice.id →
    ∃ order ∈ s.orders, order.id = method.providerOrderId

structure Advanced (a b : Channels) : Prop where
  kept : Kept a.toShared b.toShared
  orders : ∀ order ∈ a.orders, ∃ order' ∈ b.orders, order'.id = order.id ∧
    ∀ payment, order.payment = some payment → order'.payment = some payment

namespace Advanced

theorem of_orders (hkept : Kept a.toShared b.toShared)
    (horders : ∀ order ∈ a.orders, order ∈ b.orders) : Advanced a b :=
  ⟨hkept, fun order horder => ⟨order, horders order horder, rfl, fun _ h => h⟩⟩

theorem same (hshared : b.invoice = a.invoice) (hcharges : b.charges = a.charges)
    (horders : ∀ order ∈ a.orders, order ∈ b.orders) : Advanced a b :=
  .of_orders (.of_invoice hshared (by rw [hcharges]; exact fun _ h => h)) horders

theorem enrolled_order (h : Advanced a b) {id : String} (ha : ∃ order ∈ a.orders, order.id = id) :
    ∃ order ∈ b.orders, order.id = id := by
  obtain ⟨order, horder, hid⟩ := ha
  obtain ⟨order', horder', hid', -⟩ := h.orders order horder
  exact ⟨order', horder', hid'.trans hid⟩

theorem paid (h : Advanced a b) (ha : Paid a delivery) : Paid b delivery := by
  intro href
  obtain ⟨order, horder, hpayment⟩ := ha (href.trans h.kept.id)
  obtain ⟨order', horder', -, hkeeps⟩ := h.orders order horder
  exact ⟨order', horder', hkeeps _ hpayment⟩

theorem relies (h : Advanced a b) (ha : Relies a k) : Relies b k := by
  cases k with
  | startingCheckout => exact ⟨h.kept.total.trans ha.1, ha.2⟩
  | savingMethod => exact h.enrolled_order ha
  | savingIssued => exact ⟨h.kept.read ha.1, ha.2⟩
  | settling => exact h.paid ha
  | savingPaid => exact ⟨⟨h.paid ha.1.1, ha.1.2.trans h.kept.id.symm⟩, h.kept.read ha.2.1, ha.2.2⟩
  | collecting => exact Collects.kept ha h.kept
  | _ => trivial

theorem enrolled (h : Advanced a b) (ha : Enrolled a)
    (hmethods : ∀ row ∈ b.methods, row ∈ a.methods ∨
      ∃ order ∈ b.orders, order.id = row.providerOrderId) : Enrolled b := by
  intro method hmethod hinvoice
  rcases hmethods method hmethod with hold | horder
  · exact h.enrolled_order (ha method hold (hinvoice.trans (by rw [h.kept.id])))
  · exact horder

end Advanced

theorem enrol_cases (invoiceId : String) (invoice : Invoice) :
    (∃ answer, enrol invoiceId invoice = .answered none answer) ∨
    ∃ tenantRef key total, invoice.status = .issued ∧ invoice.total = .ok total ∧
      total.amountMinor ≠ 0 ∧
      enrol invoiceId invoice = .startingCheckout invoiceId tenantRef key total := by
  unfold enrol
  split
  · exact .inl ⟨_, rfl⟩
  split
  · exact .inl ⟨_, rfl⟩
  rename_i hissued
  split
  · exact .inl ⟨_, rfl⟩
  · rename_i total htotal
    split
    · exact .inl ⟨_, rfl⟩
    · rename_i hdue
      exact .inr ⟨_, _, total, not_not.mp hissued, htotal, hdue, rfl⟩

theorem issue_cases (invoiceId : String) (invoice : Invoice) :
    (∃ answer, issue invoiceId invoice = .answered none answer) ∨
    ∃ new, invoice.issue = .ok new ∧ issue invoiceId invoice = .savingIssued invoice new := by
  unfold issue
  split
  · exact .inl ⟨_, rfl⟩
  split
  · exact .inl ⟨_, rfl⟩
  · rename_i new hnew
    exact .inr ⟨new, hnew, rfl⟩

theorem receive_cases (verified : VerifiedInvoiceTransaction) (methods : Methods) :
    (∃ answer, receive verified methods = .answered none answer) ∨
    ∃ method ∈ methods, ∃ invoiceRef, method.providerOrderId = verified.providerOrderId ∧
      method.invoiceRef = some invoiceRef ∧ verified.isSettlement = true ∧
      receive verified methods = .settling ⟨verified, invoiceRef, method.tenantRef⟩ 1 := by
  unfold receive
  split
  · exact .inl ⟨_, rfl⟩
  rename_i method hfind
  split
  · exact .inl ⟨_, rfl⟩
  rename_i invoiceRef href
  split
  · rename_i hsettles
    have horder := List.find?_some hfind
    rw [Bool.and_eq_true, beq_iff_eq, beq_iff_eq] at horder
    exact .inr ⟨method, List.mem_of_find?_eq_some hfind, invoiceRef, horder.2, href, hsettles, rfl⟩
  · exact .inl ⟨_, rfl⟩

/-- How a delivery ends on the invoice it was read with. -/
inductive Settled (delivery : Delivery) (attempt : ℕ) (invoice : Invoice) : Point → Prop where
  | elsewhere {answer} (hother : delivery.invoiceRef ≠ invoice.id) :
      Settled delivery attempt invoice (.answered (some delivery) answer)
  | already (hpaid : invoice.status = .paid) :
      Settled delivery attempt invoice (.answered (some delivery) (.recorded .already_paid))
  | ignored (hpaid : invoice.status ≠ .paid) (hissued : invoice.status ≠ .issued) :
      Settled delivery attempt invoice (.answered (some delivery) (.recorded .ignored))
  | corrupt {e} (htotal : invoice.total = .error e) :
      Settled delivery attempt invoice (.answered (some delivery) (.threw (.domain e)))
  | mismatch {total answer} (htotal : invoice.total = .ok total)
      (hdiffers : delivery.verified.amountMinor = total.amountMinor →
        delivery.verified.currency ≠ invoice.currency) :
      Settled delivery attempt invoice (.answered (some delivery) answer)
  | saves {settlement new} (href : delivery.invoiceRef = invoice.id)
      (hissued : invoice.status = .issued)
      (hnew : invoice.markPaid delivery.verified.transactionId = .ok new) :
      Settled delivery attempt invoice (.savingPaid delivery settlement attempt invoice new)

theorem settle_settled {delivery : Delivery} {attempt : ℕ} {invoice : Invoice} {point : Point}
    (h : settle delivery attempt invoice = point) : Settled delivery attempt invoice point := by
  subst h
  unfold settle
  split
  · rename_i hother
    exact .elsewhere fun href => hother href.symm
  rename_i hid
  split
  · rename_i hpaid
    exact .already hpaid
  rename_i hpaid
  split
  · rename_i hissued
    exact .ignored hpaid hissued
  rename_i hissued
  split
  · rename_i e htotal
    exact .corrupt htotal
  rename_i total htotal
  split
  · rename_i hamount
    exact .mismatch htotal fun h => absurd h hamount
  split
  · rename_i hcurrency
    exact .mismatch htotal fun _ => hcurrency
  rw [Invoice.markPaid_issued (not_not.mp hissued)]
  exact .saves (not_not.mp hid).symm (not_not.mp hissued)
    (Invoice.markPaid_issued (not_not.mp hissued) _)

theorem genuine_payment {verified : VerifiedInvoiceTransaction} (h : genuine orders verified = true)
    (hsettles : verified.isSettlement = true) {order : CheckoutOrder} (horder : order ∈ orders)
    (hid : order.id = verified.providerOrderId) : order.payment = some verified.payment := by
  rw [genuine, hsettles, Bool.not_true, Bool.false_or] at h
  have hpaid := List.all_eq_true.mp h order horder
  rw [Bool.or_eq_true, bne_iff_ne, beq_iff_eq] at hpaid
  exact hpaid.resolve_left fun hne => hne hid

theorem Turned.advanced (h : Turned policy a k choice k' b) (hk : Relies a k) : Advanced a b := by
  cases h with
  | opens => exact .same rfl rfl fun order horder => List.mem_append_left _ horder
  | issued hversion =>
    exact .of_orders (.saved hk.1 (moves_issued hk.2) hversion rfl rfl) fun _ h => h
  | paid hversion =>
    exact .of_orders (.saved hk.2.1 (moves_paid hk.2.2) hversion rfl rfl) fun _ h => h
  | collects hturn =>
    exact .of_orders (effect_kept (turned_effect (Licensing.turn_turned hturn)) hk) fun _ h => h
  | @pays providerOrderId payment hunpaid =>
    refine ⟨.of_invoice rfl fun _ h => h, fun order horder =>
      ⟨_, List.mem_map_of_mem horder, ?_, fun paid hpaid => ?_⟩⟩
    · split <;> rfl
    · rw [if_neg]
      · exact hpaid
      · rintro ⟨-, hnone⟩
        rw [hnone] at hpaid
        cases hpaid
  | _ => exact .same rfl rfl fun _ h => h

/-- A turn brings its own call what the next point relies on. -/
theorem Turned.relies (h : Turned policy a k choice k' b) (hi : Enrolled a) (hk : Relies a k) :
    Relies b k' := by
  cases h with
  | enrols invoiceId =>
    rcases enrol_cases invoiceId a.invoice with ⟨answer, hpoint⟩ |
      ⟨tenantRef, key, total, -, htotal, hdue, hpoint⟩
    · rw [hpoint]
      trivial
    · rw [hpoint]
      exact ⟨htotal, hdue⟩
  | opens => exact ⟨_, List.mem_append_right _ (List.mem_singleton_self _), rfl⟩
  | reopens hknown => exact hknown
  | issues invoiceId =>
    rcases issue_cases invoiceId a.invoice with ⟨answer, hpoint⟩ | ⟨new, hnew, hpoint⟩
    · rw [hpoint]
      trivial
    · rw [hpoint]
      exact ⟨.current _, hnew⟩
  | @receives verified hgenuine =>
    rcases receive_cases verified a.methods with ⟨answer, hpoint⟩ |
      ⟨method, hmethod, invoiceRef, horder, href, hsettles, hpoint⟩
    · rw [hpoint]
      trivial
    · rw [hpoint]
      rintro rfl
      obtain ⟨order, hmem, hid⟩ := hi method hmethod href
      exact ⟨order, hmem, genuine_payment hgenuine hsettles hmem (hid.trans horder)⟩
  | settles delivery attempt =>
    generalize hpoint : settle delivery attempt a.invoice = point
    cases settle_settled hpoint with
    | saves href hissued hnew => exact ⟨⟨hk, href⟩, .current _, hnew⟩
    | _ => trivial
  | resettles => exact hk.1.1
  | collects hturn => exact effect_collects (turned_effect (Licensing.turn_turned hturn)) hk
  | _ => trivial

theorem Turned.enrolled_kept (h : Turned policy a k choice k' b) (hi : Enrolled a) (hk : Relies a k) :
    Enrolled b := by
  apply (h.advanced hk).enrolled hi
  intro row hrow
  cases h with
  | enrolled hmethods =>
    refine (hmethods row hrow).imp_right fun horder => ?_
    obtain ⟨order, hmem, hid⟩ := hk
    exact ⟨order, hmem, hid.trans horder.symm⟩
  | _ => exact .inl hrow

theorem turn_keeps (policy : DunningPolicy) : Keeps (turn policy) Enrolled Relies := by
  intro a k choice k' b hi hk h
  have hturned := turn_turned h
  exact ⟨hturned.enrolled_kept hi hk, hturned.relies hi hk, fun other hother =>
    (hturned.advanced hk).relies hother⟩

def Posts : Point → Prop
  | .posting .. => True
  | .collecting (.posting ..) => True
  | _ => False

/-- What a turn does to the ledger: only a call that has just paid the invoice posts. -/
inductive Booked (a : Channels) (k k' : Point) (b : Channels) : Prop where
  | quiet (hledger : b.ledger = a.ledger) (hposts : ¬ Posts k')
  | pays (hunpaid : a.invoice.status ≠ .paid) (hpaid : b.invoice.status = .paid)
      (hledger : b.ledger = a.ledger)
  | posts (hposts : Posts k) (hquiet : ¬ Posts k') (hinvoice : b.invoice = a.invoice)
      (hledger : b.ledger.length ≤ a.ledger.length + 1)

theorem returned_quiet (caller : Caller) (collected : Collected) :
    ¬ Posts (.collecting (caller.returned collected)) := by
  cases caller <;> cases collected <;> exact id

theorem precheck_quiet (caller : Caller) (invoice : Invoice) :
    ¬ Posts (.collecting (precheck caller invoice)) := by
  unfold precheck
  split
  · exact returned_quiet _ _
  split
  · exact returned_quiet _ _
  split
  · exact returned_quiet _ _
  split
  · split
    · exact id
    · exact returned_quiet _ _
  · exact id

theorem settleSuccess_quiet (caller : Caller) (reference : String)
    (settlement : Option Settlement) (attempt : ℕ) (invoice : Invoice) :
    ¬ Posts (.collecting (settleSuccess caller reference settlement attempt invoice)) := by
  unfold settleSuccess
  split
  · exact returned_quiet _ _
  split
  · exact returned_quiet _ _
  · exact id

theorem settleFailure_quiet (caller : Caller) (e : Thrown) (invoice : Invoice) :
    ¬ Posts (.collecting (settleFailure caller e invoice)) := by
  unfold settleFailure
  split
  · split
    · exact returned_quiet _ _
    · exact id
  · exact returned_quiet _ _

theorem retry_quiet (subscription : Subscription) : ¬ Posts (.collecting (retry subscription)) := by
  unfold retry
  split
  · exact id
  · split <;> exact id

theorem findInvoice_quiet (invoiceId : String) (attempt : ℕ) (invoice : Invoice) :
    ¬ Posts (.collecting (findInvoice invoiceId attempt invoice)) := by
  unfold findInvoice
  split
  · exact id
  · split <;> exact id

theorem issueInvoice_quiet (attempt : ℕ) (invoice : Invoice) :
    ¬ Posts (.collecting (issueInvoice attempt invoice)) := by
  unfold issueInvoice
  split <;> exact id

theorem recover_quiet (subscription : Subscription) :
    ¬ Posts (.collecting (recover subscription)) := by
  unfold recover
  split
  · split <;> exact id
  · exact id

theorem reread_quiet (attempt : ℕ) (e : Thrown) (invoice : Invoice) :
    ¬ Posts (.collecting (reread attempt e invoice)) := by
  unfold reread
  split <;> exact id

theorem saveSubscription_ledger {read new : Subscription} {s s' : Shared}
    (h : saveSubscription read new s = some s') : s'.ledger = s.ledger := by
  unfold saveSubscription at h
  split at h
  · cases h
    rfl
  · cases h

theorem collecting_booked {p p' : Licensing.Point} {shared : Shared}
    (h : Licensing.Turned policy a.toShared p p' shared) (hp : Collects a.toShared p) :
    Booked a (.collecting p) (.collecting p') { a with toShared := shared } := by
  cases h with
  | precheck caller => exact .quiet rfl (precheck_quiet _ _)
  | answered | accepted | rejected => exact .quiet rfl id
  | settlingSuccess => exact .quiet rfl (settleSuccess_quiet _ _ _ _ _)
  | savingPaid caller reference settlement attempt read new =>
    obtain ⟨-, hread, hnew⟩ := hp
    unfold Licensing.savePaid
    rcases saveInvoice_eq read new a.toShared with ⟨hversion, hsave⟩ | ⟨-, hsave⟩
    · simp only [hsave]
      obtain ⟨hissued, rfl⟩ := Invoice.markPaid_ok hnew
      refine .pays ?_ rfl rfl
      rw [← hread.2 hversion, hissued]
      decide
    · simp only [hsave]
      split
      · exact .quiet rfl id
      · exact .quiet rfl (returned_quiet _ _)
  | posted caller settlement =>
    exact .posts trivial (returned_quiet _ _) rfl (by rw [List.length_append, List.length_singleton])
  | unposted caller settlement => exact .quiet rfl (returned_quiet _ _)
  | settlingFailure => exact .quiet rfl (settleFailure_quiet _ _ _)
  | savingFailed caller e read new =>
    unfold saveFailed
    rcases saveInvoice_eq read new a.toShared with ⟨-, hsave⟩ | ⟨-, hsave⟩
    · simp only [hsave]
      exact .quiet rfl (returned_quiet _ _)
    · simp only [hsave]
      exact .quiet rfl (returned_quiet _ _)
  | retrying => exact .quiet rfl (retry_quiet _)
  | findingInvoice => exact .quiet rfl (findInvoice_quiet _ _ _)
  | issuing => exact .quiet rfl (issueInvoice_quiet _ _)
  | savingIssued attempt read new =>
    unfold Licensing.saveIssued
    rcases saveInvoice_eq read new a.toShared with ⟨-, hsave⟩ | ⟨-, hsave⟩
    · simp only [hsave]
      exact .quiet rfl id
    · simp only [hsave]
      exact .quiet rfl id
  | recovering => exact .quiet rfl (recover_quiet _)
  | savingRecovered read new =>
    unfold saveRecovered
    split
    · rename_i s' hs'
      exact .quiet (saveSubscription_ledger hs') id
    · exact .quiet rfl id
  | rereading => exact .quiet rfl (reread_quiet _ _ _)
  | rescheduling attempt now =>
    refine .quiet rfl ?_
    unfold reschedule
    dsimp only
    split <;> exact id
  | savingSchedule read new answer =>
    unfold saveSchedule
    split
    · rename_i s' hs'
      have hledger := saveSubscription_ledger hs'
      exact .quiet hledger id
    · exact .quiet rfl id

theorem Turned.booked (h : Turned policy a k choice k' b) (hk : Relies a k) : Booked a k k' b := by
  cases h with
  | enrols invoiceId =>
    refine .quiet rfl ?_
    rcases enrol_cases invoiceId a.invoice with ⟨answer, hpoint⟩ |
      ⟨tenantRef, key, total, -, -, -, hpoint⟩ <;> rw [hpoint] <;> exact id
  | issues invoiceId =>
    refine .quiet rfl ?_
    rcases issue_cases invoiceId a.invoice with ⟨answer, hpoint⟩ | ⟨new, -, hpoint⟩ <;>
      rw [hpoint] <;> exact id
  | @receives verified =>
    refine .quiet rfl ?_
    rcases receive_cases verified a.methods with ⟨answer, hpoint⟩ |
      ⟨method, -, invoiceRef, -, -, -, hpoint⟩ <;> rw [hpoint] <;> exact id
  | settles delivery attempt =>
    refine .quiet rfl ?_
    generalize hpoint : settle delivery attempt a.invoice = point
    cases settle_settled hpoint <;> exact id
  | @paid delivery settlement attempt read new hversion =>
    obtain ⟨-, hread, hnew⟩ := hk
    obtain ⟨hissued, rfl⟩ := Invoice.markPaid_ok hnew
    refine .pays ?_ rfl rfl
    rw [← hread.2 hversion, hissued]
    decide
  | posted delivery settlement =>
    exact .posts trivial id rfl (by rw [List.length_append, List.length_singleton])
  | collects hturn => exact collecting_booked (Licensing.turn_turned hturn) hk
  | _ => exact .quiet rfl id

end InvoicePayments
