import Lumo.PaymentsIntentRuns

/-! # The use cases that lead an intent to `captured`

`CapturePaymentLifecycle`, `AdvancePayment`, `AuthorizePayment`, `RecordWebhook` and
`ConfirmCodCollection` on one intent, as transactions of one interleaved system. Events,
notifications and the ledger, which cannot fail a call, are not modelled. -/
namespace PaymentsCaptureProtocol

open SharedKernel PaymentsIntent PaymentsUseCases OptimisticTransactions

/-- How the services are wired, and where entity ids come from. -/
structure Config where
  capabilitiesOf : String → Option ProviderCapabilities
  ids : ℕ → String
  /-- `RecordWebhook` has the optional capture settlement; the composition root always gives it. -/
  captureSettlement : Bool

structure WebhookInput where
  provider : String
  eventId : String
  kind : String
  providerTransactionRef : Option String
  amountMinor : Option ℚ
  currency : Option String

/-- Who called `CapturePaymentLifecycle.settle`. -/
inductive Settler where
  | capture
  | webhook (input : WebhookInput)
  | collection

inductive Point where
  | advancing (toStatus : PaymentStatusValue)
  | authorizing (pspReference : PspReference) (paymentMethod : PaymentMethod)
      (authorizedAmountMinor : ℚ)
  | reserving (attempt : ℕ)
  | calling (pspReference : PspReference)
  | settling (settler : Settler) (attempt : ℕ)
  | recording (input : WebhookInput)
  | marking (input : WebhookInput) (status : PaymentStatusValue)
  | confirming (collectedAmountMinor : ℚ) (currency : String)
  | finished (answer : Answer)

/-- What the calls share outside the row: the capture keys that the provider has seen, those it
has accepted, and the webhook events marked as processed. -/
structure Env where
  seen : List String
  accepted : List String
  processed : List (String × String)

def capabilitiesOrRefusal (cfg : Config) (provider : String) :
    Except DomainError ProviderCapabilities :=
  match cfg.capabilitiesOf provider with
  | none => .error (.businessRule ("Payment method \"" ++ provider ++
      "\" is not registered on this platform"))
  | some capabilities => .ok capabilities

/-! `AdvancePayment` and `AuthorizePayment`. -/

def advance (toStatus : PaymentStatusValue) (intent : PaymentIntent) :
    Outcome PaymentIntent Point :=
  match PaymentIntent.transition toStatus intent with
  | .error e _ => .answer (.finished (.err e))
  | .ok _ saved => .save saved (.finished (.ok saved.status))

def executeAuthorize (pspReference paymentMethodToken : String) (paymentMethodBrand : Option String)
    (authorizedAmountMinor : ℚ) : Point :=
  match PspReference.create pspReference with
  | .error e => .finished (.err e)
  | .ok reference =>
    match PaymentMethod.create paymentMethodToken paymentMethodBrand with
    | .error e => .finished (.err e)
    | .ok method => .authorizing reference method authorizedAmountMinor

def authorize (reference : PspReference) (method : PaymentMethod) (authorizedAmountMinor : ℚ)
    (intent : PaymentIntent) : Outcome PaymentIntent Point :=
  if intent.status = .authorized then
    let samePsp := intent.pspReference.map (·.value) = some reference.value
    let sameAmount :=
      intent.authorizedAmount.map (fun m => (m.amountMinor : ℚ)) = some authorizedAmountMinor
    if samePsp ∧ sameAmount then .answer (.finished (.ok intent.status))
    else .answer (.finished (.err
      (.businessRule "Payment intent is already authorized with different details")))
  else
    match PaymentIntent.authorize reference method authorizedAmountMinor intent with
    | .error e _ => .answer (.finished (.err e))
    | .ok _ saved => .save saved (.finished (.ok saved.status))

/-! `CapturePaymentLifecycle`. -/

def captureRefusal (provider : String) (capabilities : ProviderCapabilities) : DomainError :=
  .businessRule (if isSettledByOperatorConfirmation capabilities then
      "This payment is settled by an operator confirming the collection, not by a capture request"
    else "A " ++ provider ++
      " payment is captured when the customer pays; there is no capture request to make")

def reserve (cfg : Config) (intent : PaymentIntent) : Outcome PaymentIntent Point :=
  match capabilitiesOrRefusal cfg intent.provider with
  | .error e => .answer (.finished (.err e))
  | .ok capabilities =>
    if capabilities.settlesAtPayTime && intent.status ≠ .captured then
      .answer (.finished (.err (captureRefusal intent.provider capabilities)))
    else
      match intent.pspReference with
      | none => .answer (.finished (.err (.validation "Cannot capture before authorization" [])))
      | some pspReference =>
        if intent.status = .captured then .answer (.finished (.ok intent.status))
        else if intent.status = .captureRequested then .answer (.calling pspReference)
        else
          match PaymentIntent.requestCapture intent with
          | .error e _ => .answer (.finished (.err e))
          | .ok _ saved => .save saved (.calling pspReference)

/-- What the caller of `settle` does with its result. -/
def afterSettle (settler : Settler) (answer : Answer) : Point :=
  match settler, answer with
  | .webhook input, .ok status => .marking input status
  | _, answer => .finished answer

def settle (cfg : Config) (draw : ℕ) (settler : Settler) (intent : PaymentIntent) :
    Outcome PaymentIntent Point :=
  if intent.status = .captured then .answer (afterSettle settler (.ok intent.status))
  else
    match capabilitiesOrRefusal cfg intent.provider with
    | .error e => .answer (afterSettle settler (.err e))
    | .ok _ =>
      match PaymentIntent.markCaptured (cfg.ids draw) intent with
      | .error e _ => .answer (afterSettle settler (.err e))
      | .ok _ saved => .save saved (afterSettle settler (.ok saved.status))

/-! `RecordWebhook`. -/

def kindToStatus (kind : String) : Option PaymentStatusValue :=
  if kind = "authorized" then some .authorized
  else if kind = "captured" then some .captured
  else if kind = "failed" then some .failed
  else if kind = "cancelled" then some .cancelled
  else if kind = "expired" then some .expired
  else none

def executeWebhook (input : WebhookInput) : Point :=
  match Guard.againstEmpty input.provider "provider" with
  | .error e => .finished (.err e)
  | .ok _ =>
    match Guard.againstEmpty input.eventId "eventId" with
    | .error e => .finished (.err e)
    | .ok _ => .recording input

def deferToCaptureSettlement (cfg : Config) (input : WebhookInput) : Bool :=
  kindToStatus input.kind = some .captured && cfg.captureSettlement

def mismatches (input : WebhookInput) (intent : PaymentIntent) : Bool :=
  input.amountMinor.any (fun a => a ≠ (intent.amount.amountMinor : ℚ)) ||
    input.currency.any (fun c => toUpperCase c ≠ intent.amount.currency)

/-- Why a webhook that was not processed before is refused, or the provider's capabilities. -/
def webhookCapabilities (cfg : Config) (input : WebhookInput) (intent : PaymentIntent) :
    Except DomainError ProviderCapabilities := do
  let capabilities ← capabilitiesOrRefusal cfg intent.provider
  if !capabilities.deliversWebhooks then
    throw (.businessRule
      "This payment method has no provider webhooks; it is settled by an operator confirming the collection")
  if input.provider ≠ intent.provider then
    throw (.businessRule "Webhook provider does not match the payment intent's provider")
  if mismatches input intent then
    throw (.businessRule "Webhook amount does not match the payment intent")
  return capabilities

/-- What the receipt of a webhook does to the aggregate; the receipt itself is an attempt. -/
def receive (cfg : Config) (input : WebhookInput) (capabilities : ProviderCapabilities) :
    Method Unit := do
  if deferToCaptureSettlement cfg input && capabilities.settlesAtPayTime then
    PaymentIntent.prepareDirectCapture input.providerTransactionRef
  match kindToStatus input.kind with
  | none => pure ()
  | some toStatus =>
    if !deferToCaptureSettlement cfg input && (← get).status ≠ toStatus then
      PaymentIntent.transition toStatus

def record (cfg : Config) (input : WebhookInput) (env : Env) (intent : PaymentIntent) :
    Outcome PaymentIntent Point :=
  if (input.provider, input.eventId) ∈ env.processed then .answer (.finished (.ok intent.status))
  else
    match webhookCapabilities cfg input intent with
    | .error e => .answer (.finished (.err e))
    | .ok capabilities =>
      match receive cfg input capabilities intent with
      | .error e _ => .answer (.finished (.err e))
      | .ok _ saved =>
        .save saved (if deferToCaptureSettlement cfg input then .settling (.webhook input) 1
          else .marking input saved.status)

/-! `ConfirmCodCollection`. -/

def confirm (cfg : Config) (collectedAmountMinor : ℚ) (currency : String) (intent : PaymentIntent) :
    Outcome PaymentIntent Point :=
  match capabilitiesOrRefusal cfg intent.provider with
  | .error e => .answer (.finished (.err e))
  | .ok capabilities =>
    if !isSettledByOperatorConfirmation capabilities then
      .answer (.finished (.err (.businessRule
        "Only a payment that is settled by an operator confirming the collection (cash on delivery) can be settled by a collection")))
    else if intent.status = .captured then .answer (.finished (.ok .captured))
    else if collectedAmountMinor ≠ (intent.amount.amountMinor : ℚ) ∨
        toUpperCase currency ≠ intent.amount.currency then
      .answer (.finished (.err (.businessRule
        "The collected amount must equal the amount due; partial or excess collection is not settled as paid")))
    else
      match PaymentIntent.prepareDirectCapture none intent with
      | .error e _ => .answer (.finished (.err e))
      | .ok _ saved =>
        if saved.status ≠ intent.status then .save saved (.settling .collection 1)
        else .answer (.settling .collection 1)

def captureKey (intentId : String) : String := intentId ++ ":capture"

def callProvider (intentId : String) (move : ProviderMove) (env : Env) : Option (Point × Env) :=
  let key := captureKey intentId
  match move with
  | .unavailable reason => some (.finished (.threw reason), env)
  | .rejects reason =>
    if key ∈ env.accepted then none
    else some (.finished (.threw reason), { env with seen := env.seen ++ [key] })
  | .accepts =>
    some (.settling .capture 1, { env with
      seen := env.seen ++ [key]
      accepted := if key ∈ env.accepted then env.accepted else env.accepted ++ [key] })

/-- `markProcessed`, which commits on its own. -/
def markProcessed (input : WebhookInput) (env : Env) : Env :=
  { env with processed := env.processed ++ [(input.provider, input.eventId)] }

/-- The reserve and settle transactions are retried; the others report the lost lock. -/
def protocol (cfg : Config) (intentId : String) :
    Protocol PaymentIntent Point Env ProviderMove where
  body
    | .advancing toStatus => some fun _ _ intent => advance toStatus intent
    | .authorizing reference method minor =>
      some fun _ _ intent => authorize reference method minor intent
    | .reserving _ => some fun _ _ intent => reserve cfg intent
    | .settling settler _ => some fun draw _ intent => settle cfg draw settler intent
    | .recording input => some fun _ env intent => record cfg input env intent
    | .confirming minor currency => some fun _ _ intent => confirm cfg minor currency intent
    | .calling _ => none
    | .marking _ _ => none
    | .finished _ => none
  conflict
    | .reserving attempt => withConcurrencyRetry .finished attempt .reserving
    | .settling settler attempt => withConcurrencyRetry .finished attempt (.settling settler)
    | _ => .finished concurrencyError
  act point move env :=
    match point with
    | .calling _ => callProvider intentId move env
    | .marking input status => some (.finished (.ok status), markProcessed input env)
    | _ => none

end PaymentsCaptureProtocol
