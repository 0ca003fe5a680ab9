import Lumo.Interleavings
import Lumo.LicensingBilling

/-! # Collecting an invoice, and retrying it in dunning

`CollectInvoice.execute`, `EnterDunning.execute` and `RetryDunningInvoice.execute`, turn by turn:
a transaction reads in one turn and saves in a later one, under the version it read. One invoice
and one subscription are stored. The provider is idempotent by key. -/
namespace Licensing

open SharedKernel Builtins Interleavings

inductive DunningRetryOutcome where
  | recovered
  | retryScheduled
  | exhausted
  deriving DecidableEq

inductive Answer where
  | collected
  | entered (status : SubscriptionStatus)
  | dunned (outcome : DunningRetryOutcome) (status : SubscriptionStatus)
  | err (e : DomainError)
  | threw (e : Thrown)
  deriving DecidableEq

structure Charge where
  key : String
  tenantRef : String
  amount : Money
  reference : String

structure Settlement where
  tenantRef : String
  amount : Money
  reference : String
  deriving DecidableEq

/-- What the runs share. `failures` counts the collections that were settled as failed,
`attempts` how often a dunning attempt was counted, `lookups` are the schedule indices used. -/
structure Shared where
  invoice : Invoice
  subscription : Subscription
  charges : List Charge
  ledger : List Settlement
  failures : ℕ
  attempts : ℕ
  lookups : List ℕ

inductive Caller where
  | direct
  | dunning (attempt : ℕ)
  deriving DecidableEq

/-- How `CollectInvoice.execute` ends. -/
inductive Collected where
  | ok
  | err (e : DomainError)
  | threw (e : Thrown)

inductive Point where
  | precheck (caller : Caller)
  | collecting (caller : Caller) (tenantRef : String) (due : Money) (version : ℕ)
  | settlingSuccess (caller : Caller) (reference : String) (settlement : Option Settlement)
      (attempt : ℕ)
  | savingPaid (caller : Caller) (reference : String) (settlement : Option Settlement)
      (attempt : ℕ) (read new : Invoice)
  | posting (caller : Caller) (settlement : Settlement)
  | settlingFailure (caller : Caller) (e : Thrown)
  | savingFailed (caller : Caller) (e : Thrown) (read new : Invoice)
  | retrying
  | findingInvoice (invoiceId : String) (attempt : ℕ)
  | issuing (attempt : ℕ)
  | savingIssued (attempt : ℕ) (read new : Invoice)
  | recovering
  | savingRecovered (read new : Subscription)
  | rereading (attempt : ℕ) (e : Thrown)
  | rescheduling (attempt : ℕ)
  | savingSchedule (read new : Subscription) (answer : Answer)
  | finished (answer : Answer)
  deriving DecidableEq

/-- What the environment decides in a turn: the time, or what another system does. -/
inductive Choice where
  | proceeds (now : ℚ)
  | accepts (reference : String)
  | rejects (reason : String)
  deriving DecidableEq

def Caller.returned : Caller → Collected → Point
  | direct, .ok => .finished .collected
  | direct, .err e => .finished (.err e)
  | direct, .threw e => .finished (.threw e)
  | dunning _, .ok => .recovering
  | dunning _, .err e => .finished (.err e)
  | dunning attempt, .threw e => .rereading attempt e

def collectKey (invoiceId : String) (version : ℕ) : String :=
  invoiceId ++ ":" ++ toString version ++ ":collect"

def invoiceConflict (invoice : Invoice) : Thrown :=
  .domain (.concurrency ("Invoice " ++ invoice.id ++ " was modified concurrently"))

def subscriptionConflict (subscription : Subscription) : Thrown :=
  .domain (.concurrency ("Subscription " ++ subscription.id ++ " was modified concurrently"))

/-! `CollectInvoice`. -/

/-- The total is worked out before the status is looked at. -/
def precheck (caller : Caller) (invoice : Invoice) : Point :=
  match invoice.total with
  | .error e => caller.returned (.threw (.domain e))
  | .ok total =>
    if invoice.status = .paid then caller.returned .ok
    else if invoice.status ≠ .issued then
      caller.returned (.err (.businessRule
        ("Cannot transition invoice from " ++ invoice.status.text ++ " to paid")))
    else if total.amountMinor = 0 then
      match invoice.discount with
      | some discount => .settlingSuccess caller ("coupon:" ++ discount.couponRef) none 1
      | none =>
        caller.returned (.err (.businessRule "Cannot collect an invoice with a zero total"))
    else .collecting caller invoice.tenantRef total invoice.version

/-- An accepted key is answered again with the same charge, and is never rejected. -/
def collect (caller : Caller) (tenantRef : String) (due : Money) (version : ℕ) (choice : Choice)
    (s : Shared) : Option (Point × Shared) :=
  let key := collectKey s.invoice.id version
  let settling (reference : String) : Point :=
    .settlingSuccess caller reference (some ⟨tenantRef, due, reference⟩) 1
  match s.charges.find? fun charge => charge.key == key, choice with
  | some charge, .accepts _ => some (settling charge.reference, s)
  | none, .accepts reference => some (settling reference,
      { s with charges := s.charges ++ [⟨key, tenantRef, due, reference⟩] })
  | none, .rejects reason => some (.settlingFailure caller (.provider reason), s)
  | _, _ => none

def maxConcurrencyRetries : ℕ := 5

def afterPaid (caller : Caller) : Option Settlement → Point
  | some settlement => .posting caller settlement
  | none => caller.returned .ok

def settleSuccess (caller : Caller) (reference : String) (settlement : Option Settlement)
    (attempt : ℕ) (invoice : Invoice) : Point :=
  if invoice.status = .paid then caller.returned .ok
  else
    match invoice.markPaid reference with
    | .error e => caller.returned (.err e)
    | .ok new => .savingPaid caller reference settlement attempt invoice new

def saveInvoice (read new : Invoice) (s : Shared) : Option Shared :=
  if read.version = s.invoice.version then
    some { s with invoice := { new with version := read.version + 1 } }
  else none

def saveSubscription (read new : Subscription) (s : Shared) : Option Shared :=
  if read.version = s.subscription.version then
    some { s with subscription := { new with version := read.version + 1 } }
  else none

def savePaid (caller : Caller) (reference : String) (settlement : Option Settlement)
    (attempt : ℕ) (read new : Invoice) (s : Shared) : Point × Shared :=
  match saveInvoice read new s with
  | some s' => (afterPaid caller settlement, s')
  | none =>
    if attempt < maxConcurrencyRetries then
      (.settlingSuccess caller reference settlement (attempt + 1), s)
    else (caller.returned (.threw (invoiceConflict read)), s)

def settleFailure (caller : Caller) (e : Thrown) (invoice : Invoice) : Point :=
  if invoice.status = .issued then
    match invoice.markFailed with
    | .error e' => caller.returned (.threw (.domain e'))
    | .ok new => .savingFailed caller e invoice new
  else caller.returned (.threw e)

def saveFailed (caller : Caller) (e : Thrown) (read new : Invoice) (s : Shared) :
    Point × Shared :=
  match saveInvoice read new s with
  | some s' => (caller.returned (.threw e), { s' with failures := s'.failures + 1 })
  | none => (caller.returned (.threw (invoiceConflict read)), s)

/-! `EnterDunning` and `RetryDunningInvoice`. -/

inductive Decision where
  | answer (answer : Answer)
  | save (new : Subscription) (answer : Answer)

structure Decided where
  lookups : List ℕ
  decision : Decision

def enterDunning (policy : DunningPolicy) (invoiceId : String) (now : ℚ)
    (subscription : Subscription) : Decided :=
  if subscription.status = .grace then
    if (subscription.retryPolicy.bind (·.invoiceRef)) = some invoiceId then
      ⟨[], .answer (.entered subscription.status)⟩
    else ⟨[], .answer (.err (.businessRule ("Subscription " ++ subscription.id ++
      " is already in grace for a different invoice")))⟩
  else if subscription.status ≠ .active then
    ⟨[], .answer (.err (.businessRule ("Cannot enter dunning from a " ++
      subscription.status.text ++ " subscription")))⟩
  else
    match subscription.enterGrace policy.gracePeriodDays with
    | .error e => ⟨[], .answer (.err e)⟩
    | .ok entered =>
      match retryIntervalDays policy 0 with
      | .error e => ⟨[0], .answer (.threw e)⟩
      | .ok days =>
        let new := entered.setRetryPolicy (some {
          maxAttempts := policy.maxAttempts
          attempt := 0
          nextRetryAt := some (now + days * dayMs)
          invoiceRef := some invoiceId })
        ⟨[0], .save new (.entered new.status)⟩

def chased (subscription : Subscription) : Option (String × ℕ) :=
  if subscription.status ≠ .grace then none
  else subscription.retryPolicy.bind fun p => p.invoiceRef.map fun ref => (ref, p.attempt)

def retry (subscription : Subscription) : Point :=
  if subscription.status = .active then .finished (.dunned .recovered subscription.status)
  else
    match chased subscription with
    | some (invoiceId, attempt) => .findingInvoice invoiceId attempt
    | none => .finished (.err (.businessRule ("Subscription " ++ subscription.id ++
        " has no dunning retry to run (status: " ++ subscription.status.text ++ ")")))

def findInvoice (invoiceId : String) (attempt : ℕ) (invoice : Invoice) : Point :=
  if invoice.id ≠ invoiceId then .finished (.err (.notFound "Invoice not found"))
  else
    match invoice.status with
    | .failed => .issuing attempt
    | .issued => .precheck (.dunning attempt)
    | .paid => .precheck (.dunning attempt)
    | status => .finished (.err (.businessRule
        ("Cannot retry dunning: invoice " ++ invoiceId ++ " is " ++ status.text)))

def issueInvoice (attempt : ℕ) (invoice : Invoice) : Point :=
  match invoice.issue with
  | .error e => .finished (.err e)
  | .ok new => .savingIssued attempt invoice new

def saveIssued (attempt : ℕ) (read new : Invoice) (s : Shared) : Point × Shared :=
  match saveInvoice read new s with
  | some s' => (.precheck (.dunning attempt), s')
  | none => (.finished (.threw (invoiceConflict read)), s)

def recover (subscription : Subscription) : Point :=
  if subscription.status = .grace then
    match subscription.recoverFromGrace with
    | .error e => .finished (.threw (.domain e))
    | .ok new => .savingRecovered subscription (new.setRetryPolicy none)
  else .finished (.dunned .recovered subscription.status)

def saveRecovered (read new : Subscription) (s : Shared) : Point × Shared :=
  match saveSubscription read new s with
  | some s' => (.finished (.dunned .recovered new.status), s')
  | none => (.finished (.threw (subscriptionConflict read)), s)

/-- The catch around the collection: only a failed invoice is counted. -/
def reread (attempt : ℕ) (e : Thrown) (invoice : Invoice) : Point :=
  if invoice.status ≠ .failed then .finished (.threw e) else .rescheduling attempt

/-- The attempt is read again here; the one the run began with only stands in for a missing
schedule. -/
def rescheduleOrExhaust (policy : DunningPolicy) (invoiceId : String) (attempt : ℕ) (now : ℚ)
    (subscription : Subscription) : Decided :=
  if subscription.status ≠ .grace then
    ⟨[], .answer (.dunned (if subscription.status = .expired then .exhausted else .recovered)
      subscription.status)⟩
  else
    let currentAttempt := (subscription.retryPolicy.map (·.attempt)).getD attempt
    let nextAttempt := currentAttempt + 1
    if policy.maxAttempts ≤ (nextAttempt : ℚ) then
      match subscription.exhaustDunning with
      | .error e => ⟨[], .answer (.threw (.domain e))⟩
      | .ok new => ⟨[], .save (new.setRetryPolicy none) (.dunned .exhausted new.status)⟩
    else
      match retryIntervalDays policy nextAttempt with
      | .error e => ⟨[nextAttempt], .answer (.threw e)⟩
      | .ok days =>
        ⟨[nextAttempt], .save (subscription.setRetryPolicy (some {
          maxAttempts := policy.maxAttempts
          attempt := nextAttempt
          nextRetryAt := some (now + days * dayMs)
          invoiceRef := some invoiceId })) (.dunned .retryScheduled subscription.status)⟩

def reschedule (policy : DunningPolicy) (attempt : ℕ) (now : ℚ) (s : Shared) : Point × Shared :=
  let decided := rescheduleOrExhaust policy s.invoice.id attempt now s.subscription
  (match decided.decision with
    | .answer answer => .finished answer
    | .save new answer => .savingSchedule s.subscription new answer,
    { s with lookups := s.lookups ++ decided.lookups })

def saveSchedule (read new : Subscription) (answer : Answer) (s : Shared) : Point × Shared :=
  match saveSubscription read new s with
  | some s' => (.finished answer, { s' with attempts := s'.attempts + 1 })
  | none => (.finished (.threw (subscriptionConflict read)), s)

/-- The turn of a run that stands at a point. -/
def turn (policy : DunningPolicy) : Program Shared Point Choice
  | .precheck caller, .proceeds _, s => some (precheck caller s.invoice, s)
  | .collecting caller tenantRef due version, choice, s =>
    collect caller tenantRef due version choice s
  | .settlingSuccess caller reference settlement attempt, .proceeds _, s =>
    some (settleSuccess caller reference settlement attempt s.invoice, s)
  | .savingPaid caller reference settlement attempt read new, .proceeds _, s =>
    some (savePaid caller reference settlement attempt read new s)
  | .posting caller settlement, .proceeds _, s =>
    some (caller.returned .ok, { s with ledger := s.ledger ++ [settlement] })
  | .posting caller _, .rejects _, s => some (caller.returned .ok, s)
  | .settlingFailure caller e, .proceeds _, s => some (settleFailure caller e s.invoice, s)
  | .savingFailed caller e read new, .proceeds _, s => some (saveFailed caller e read new s)
  | .retrying, .proceeds _, s => some (retry s.subscription, s)
  | .findingInvoice invoiceId attempt, .proceeds _, s =>
    some (findInvoice invoiceId attempt s.invoice, s)
  | .issuing attempt, .proceeds _, s => some (issueInvoice attempt s.invoice, s)
  | .savingIssued attempt read new, .proceeds _, s => some (saveIssued attempt read new s)
  | .recovering, .proceeds _, s => some (recover s.subscription, s)
  | .savingRecovered read new, .proceeds _, s => some (saveRecovered read new s)
  | .rereading attempt e, .proceeds _, s => some (reread attempt e s.invoice, s)
  | .rescheduling attempt, .proceeds now, s => some (reschedule policy attempt now s)
  | .savingSchedule read new answer, .proceeds _, s => some (saveSchedule read new answer s)
  | _, _, _ => none

/-- Everything a turn can be. -/
inductive Turned (policy : DunningPolicy) (s : Shared) : Point → Point → Shared → Prop where
  | precheck (caller) : Turned policy s (.precheck caller) (precheck caller s.invoice) s
  | answered (caller tenantRef due version charge)
      (hfind : s.charges.find? (fun charge => charge.key == collectKey s.invoice.id version) =
        some charge) :
      Turned policy s (.collecting caller tenantRef due version)
        (.settlingSuccess caller charge.reference
          (some ⟨tenantRef, due, charge.reference⟩) 1) s
  | accepted (caller tenantRef due version reference)
      (hfresh : ∀ charge ∈ s.charges, charge.key ≠ collectKey s.invoice.id version) :
      Turned policy s (.collecting caller tenantRef due version)
        (.settlingSuccess caller reference (some ⟨tenantRef, due, reference⟩) 1)
        { s with charges := s.charges ++
          [⟨collectKey s.invoice.id version, tenantRef, due, reference⟩] }
  | rejected (caller tenantRef due version reason)
      (hfresh : ∀ charge ∈ s.charges, charge.key ≠ collectKey s.invoice.id version) :
      Turned policy s (.collecting caller tenantRef due version)
        (.settlingFailure caller (.provider reason)) s
  | settlingSuccess (caller reference settlement attempt) :
      Turned policy s (.settlingSuccess caller reference settlement attempt)
        (settleSuccess caller reference settlement attempt s.invoice) s
  | savingPaid (caller reference settlement attempt read new) :
      Turned policy s (.savingPaid caller reference settlement attempt read new)
        (savePaid caller reference settlement attempt read new s).1
        (savePaid caller reference settlement attempt read new s).2
  | posted (caller settlement) : Turned policy s (.posting caller settlement)
      (caller.returned .ok) { s with ledger := s.ledger ++ [settlement] }
  | unposted (caller settlement) :
      Turned policy s (.posting caller settlement) (caller.returned .ok) s
  | settlingFailure (caller e) :
      Turned policy s (.settlingFailure caller e) (settleFailure caller e s.invoice) s
  | savingFailed (caller e read new) : Turned policy s (.savingFailed caller e read new)
      (saveFailed caller e read new s).1 (saveFailed caller e read new s).2
  | retrying : Turned policy s .retrying (retry s.subscription) s
  | findingInvoice (invoiceId attempt) : Turned policy s (.findingInvoice invoiceId attempt)
      (findInvoice invoiceId attempt s.invoice) s
  | issuing (attempt) : Turned policy s (.issuing attempt) (issueInvoice attempt s.invoice) s
  | savingIssued (attempt read new) : Turned policy s (.savingIssued attempt read new)
      (saveIssued attempt read new s).1 (saveIssued attempt read new s).2
  | recovering : Turned policy s .recovering (recover s.subscription) s
  | savingRecovered (read new) : Turned policy s (.savingRecovered read new)
      (saveRecovered read new s).1 (saveRecovered read new s).2
  | rereading (attempt e) : Turned policy s (.rereading attempt e) (reread attempt e s.invoice) s
  | rescheduling (attempt now) : Turned policy s (.rescheduling attempt)
      (reschedule policy attempt now s).1 (reschedule policy attempt now s).2
  | savingSchedule (read new answer) : Turned policy s (.savingSchedule read new answer)
      (saveSchedule read new answer s).1 (saveSchedule read new answer s).2

theorem collect_turned {policy : DunningPolicy} {s s' : Shared} {caller : Caller}
    {tenantRef : String} {due : Money} {version : ℕ} {choice : Choice} {k' : Point}
    (h : collect caller tenantRef due version choice s = some (k', s')) :
    Turned policy s (.collecting caller tenantRef due version) k' s' := by
  unfold collect at h
  dsimp only at h
  split at h
  · rename_i charge reference hfind
    cases h
    exact .answered _ _ _ _ _ hfind
  · rename_i reference hfind
    cases h
    refine .accepted _ _ _ _ _ fun charge hcharge heq => ?_
    exact List.find?_eq_none.mp hfind charge hcharge (beq_iff_eq.mpr heq)
  · rename_i reason hfind
    cases h
    refine .rejected _ _ _ _ _ fun charge hcharge heq => ?_
    exact List.find?_eq_none.mp hfind charge hcharge (beq_iff_eq.mpr heq)
  · cases h

theorem turn_turned {policy : DunningPolicy} {s s' : Shared} {k k' : Point} {choice : Choice}
    (h : turn policy k choice s = some (k', s')) : Turned policy s k k' s' := by
  unfold turn at h
  split at h
  case h_2 => exact collect_turned h
  all_goals first
    | cases h; done
    | have hturn := Option.some.inj h
      have hpoint := congrArg Prod.fst hturn
      have hshared := congrArg Prod.snd hturn
      dsimp only at hpoint hshared
      subst hpoint hshared
      constructor

end Licensing
