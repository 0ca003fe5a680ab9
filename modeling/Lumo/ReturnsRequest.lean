import Lumo.Builtins
import Lumo.Methods

/-! # Return requests

The aggregate of the returns service and what its use cases do to a request that they have found,
up to its save. What is thrown out of a method leaves what the method had written. -/
namespace Returns

open SharedKernel Builtins

inductive ReturnStatus where
  | requested
  | approved
  | rejected
  | rmaGenerated
  | packageReceived
  | inspectionCompleted
  | itemsAccepted
  | itemsRejected
  | refundRequested
  | replacementRequested
  | repairRequested
  | closed
  deriving DecidableEq

open ReturnStatus

def ReturnStatus.name : ReturnStatus → String
  | requested => "requested"
  | approved => "approved"
  | rejected => "rejected"
  | rmaGenerated => "rma_generated"
  | packageReceived => "package_received"
  | inspectionCompleted => "inspection_completed"
  | itemsAccepted => "items_accepted"
  | itemsRejected => "items_rejected"
  | refundRequested => "refund_requested"
  | replacementRequested => "replacement_requested"
  | repairRequested => "repair_requested"
  | closed => "closed"

def TRANSITIONS : ReturnStatus → List ReturnStatus
  | requested => [approved, rejected]
  | approved => [rmaGenerated]
  | rejected => [closed]
  | rmaGenerated => [packageReceived]
  | packageReceived => [inspectionCompleted]
  | inspectionCompleted => [itemsAccepted, itemsRejected]
  | itemsAccepted => [refundRequested, replacementRequested, repairRequested]
  | itemsRejected => [closed]
  | refundRequested => [closed]
  | replacementRequested => [closed]
  | repairRequested => [closed]
  | closed => []

def canTransitionReturn (fromStatus toStatus : ReturnStatus) : Bool :=
  (TRANSITIONS fromStatus).contains toStatus

def EVENT_TYPE_BY_STATUS : ReturnStatus → String
  | requested => "returns.request.requested"
  | approved => "returns.request.approved"
  | rejected => "returns.request.rejected"
  | rmaGenerated => "returns.package.rma_generated"
  | packageReceived => "returns.package.received"
  | inspectionCompleted => "returns.inspection.completed"
  | itemsAccepted => "returns.items.accepted"
  | itemsRejected => "returns.items.rejected"
  | refundRequested => "returns.refund.requested"
  | replacementRequested => "returns.replacement.requested"
  | repairRequested => "returns.repair.requested"
  | closed => "returns.request.closed"

inductive ResolutionOutcome where
  | refund
  | replacement
  | repair
  deriving DecidableEq

def ResolutionOutcome.name : ResolutionOutcome → String
  | refund => "refund"
  | replacement => "replacement"
  | repair => "repair"

def RESOLUTION_STATUS_BY_OUTCOME : ResolutionOutcome → ReturnStatus
  | .refund => refundRequested
  | .replacement => replacementRequested
  | .repair => repairRequested

structure RefundDecision where
  outcome : ResolutionOutcome
  amountMinor : Option ℚ
  currency : Option String
  named : outcome = .refund → amountMinor ≠ none ∧ currency ≠ none

def RefundDecision.create (outcome : ResolutionOutcome) (amountMinor : Option ℚ)
    (currency : Option String) : Except DomainError RefundDecision :=
  if h : outcome = .refund → amountMinor ≠ none ∧ currency ≠ none then
    .ok ⟨outcome, amountMinor, currency, h⟩
  else .error (.validation "Invalid refund decision"
    [⟨"amountMinor", "amountMinor and currency are required for a refund"⟩])

inductive ReturnDisposition where
  | restock
  | discard
  | refurbish
  | returnToVendor

def ReturnDisposition.create (value : String) : Except DomainError ReturnDisposition :=
  if value = "restock" then .ok .restock
  else if value = "discard" then .ok .discard
  else if value = "refurbish" then .ok .refurbish
  else if value = "return_to_vendor" then .ok .returnToVendor
  else .error (.validation "Invalid return disposition"
    [⟨"disposition", "must be one of restock, discard, refurbish, return_to_vendor"⟩])

structure ReturnReason where
  code : NonBlank
  note : Option String

structure ReturnItem where
  id : UniqueEntityId
  orderItemRef : String
  productRef : ProductRef
  quantity : ℚ
  reason : ReturnReason
  disposition : Option ReturnDisposition

structure ReturnApproval where
  approved : Bool
  note : Option String
  decidedAt : ℤ

inductive ReturnAttemptKind where
  | approval
  | rma
  | receive
  | inspection
  | accept
  | resolution
  | warehouseCallback
  deriving DecidableEq

inductive ReturnAttemptOutcome where
  | succeeded
  | failed
  deriving DecidableEq

structure ReturnAttempt where
  id : UniqueEntityId
  kind : ReturnAttemptKind
  outcome : ReturnAttemptOutcome
  occurredAt : ℤ
  reference : Option String

structure ReturnInspection where
  id : UniqueEntityId
  itemRef : String
  passed : Bool
  occurredAt : ℤ
  note : Option String

structure ReturnTransitioned where
  eventId : String
  aggregateId : UniqueEntityId
  occurredAt : ℤ
  orderRef : String
  type : String
  fromStatus : ReturnStatus
  toStatus : ReturnStatus

structure ReturnRequest where
  id : UniqueEntityId
  orderRef : String
  items : List ReturnItem
  status : ReturnStatus
  attempts : List ReturnAttempt
  inspections : List ReturnInspection
  approval : Option ReturnApproval
  rmaNumber : Option String
  refundDecision : Option RefundDecision
  domainEvents : List ReturnTransitioned

abbrev Method := EStateM DomainError ReturnRequest Unit

/-- `item?.setDisposition(disposition)` on the first item of the reference. -/
def setDisposition (orderItemRef : String) (disposition : ReturnDisposition) :
    List ReturnItem → List ReturnItem
  | [] => []
  | item :: items =>
    if item.orderItemRef = orderItemRef then { item with disposition := some disposition } :: items
    else item :: setDisposition orderItemRef disposition items

namespace ReturnRequest

def create (id : UniqueEntityId) (orderRef : String) (items : List ReturnItem) : ReturnRequest where
  id := id
  orderRef := orderRef
  items := items
  status := requested
  attempts := []
  inspections := []
  approval := none
  rmaNumber := none
  refundDecision := none
  domainEvents := []

-- The digest of a text, which names attempts and inspections.
variable (deterministicUuid : String → UniqueEntityId)

def withAttempt (kind : ReturnAttemptKind) (outcome : ReturnAttemptOutcome) (occurredAt : ℤ)
    (reference : Option String) (request : ReturnRequest) : ReturnRequest :=
  { request with attempts := request.attempts ++ [{
      id := deterministicUuid
        (request.id.value ++ ":attempt:" ++ toString request.attempts.length)
      kind := kind
      outcome := outcome
      occurredAt := occurredAt
      reference := reference }] }

def recordAttempt (kind : ReturnAttemptKind) (outcome : ReturnAttemptOutcome) (occurredAt : ℤ)
    (reference : Option String) : Method :=
  modify (withAttempt deterministicUuid kind outcome occurredAt reference)

/-- The status set and the event raised. -/
def moved (toStatus : ReturnStatus) (eventId : String) (occurredAt : ℤ) (request : ReturnRequest) :
    ReturnRequest :=
  { request with
    status := toStatus
    domainEvents := request.domainEvents ++ [{
      eventId := eventId
      aggregateId := request.id
      occurredAt := occurredAt
      orderRef := request.orderRef
      type := EVENT_TYPE_BY_STATUS toStatus
      fromStatus := request.status
      toStatus := toStatus }] }

def transition (toStatus : ReturnStatus) (eventId : String) (occurredAt : ℤ) : Method := do
  let fromStatus := (← get).status
  if !canTransitionReturn fromStatus toStatus then
    throw (.businessRule ("Cannot transition return from \"" ++ fromStatus.name ++ "\" to \"" ++
      toStatus.name ++ "\""))
  modify (moved toStatus eventId occurredAt)

def approve (eventId : String) (occurredAt : ℤ) (note : Option String) : Method := do
  transition approved eventId occurredAt
  modify fun request => { request with approval := some ⟨true, note, occurredAt⟩ }
  recordAttempt deterministicUuid .approval .succeeded occurredAt none

def reject (eventId : String) (occurredAt : ℤ) (note : Option String) : Method := do
  transition rejected eventId occurredAt
  modify fun request => { request with approval := some ⟨false, note, occurredAt⟩ }
  recordAttempt deterministicUuid .approval .failed occurredAt note

/-- The number is written before the table is asked. -/
def generateRma (rmaNumber eventId : String) (occurredAt : ℤ) : Method := do
  modify fun request => { request with rmaNumber := some rmaNumber }
  transition rmaGenerated eventId occurredAt
  recordAttempt deterministicUuid .rma .succeeded occurredAt (some rmaNumber)

def receivePackage (eventId : String) (occurredAt : ℤ) : Method := do
  transition packageReceived eventId occurredAt
  recordAttempt deterministicUuid .receive .succeeded occurredAt none

def inspectItem (itemRef : String) (passed : Bool) (occurredAt : ℤ) (note : Option String) :
    Method := do
  if (← get).inspections.any fun inspection => inspection.itemRef == itemRef then return
  modify fun request => { request with inspections := request.inspections ++ [{
    id := deterministicUuid (request.id.value ++ ":inspection:" ++ itemRef)
    itemRef := itemRef
    passed := passed
    occurredAt := occurredAt
    note := note }] }
  recordAttempt deterministicUuid .inspection .succeeded occurredAt (some itemRef)

def completeInspection (eventId : String) (occurredAt : ℤ) : Method :=
  transition inspectionCompleted eventId occurredAt

def withDispositions (dispositions : List (String × ReturnDisposition)) (request : ReturnRequest) :
    ReturnRequest :=
  let items := dispositions.foldl
    (fun items entry => setDisposition entry.1 entry.2 items) request.items
  { request with items := items }

def acceptItems (dispositions : List (String × ReturnDisposition)) (eventId : String)
    (occurredAt : ℤ) : Method := do
  modify (withDispositions dispositions)
  transition itemsAccepted eventId occurredAt
  recordAttempt deterministicUuid .accept .succeeded occurredAt none

def rejectItems (reason eventId : String) (occurredAt : ℤ) : Method := do
  transition itemsRejected eventId occurredAt
  recordAttempt deterministicUuid .accept .failed occurredAt (some reason)

def decideResolution (decision : RefundDecision) (eventId : String) (occurredAt : ℤ) : Method := do
  modify fun request => { request with refundDecision := some decision }
  transition (RESOLUTION_STATUS_BY_OUTCOME decision.outcome) eventId occurredAt
  recordAttempt deterministicUuid .resolution .succeeded occurredAt (some decision.outcome.name)

def close (eventId : String) (occurredAt : ℤ) : Method := transition closed eventId occurredAt

def recordWarehouseCallback (occurredAt : ℤ) (reference : Option String) : Method :=
  recordAttempt deterministicUuid .warehouseCallback .succeeded occurredAt reference

/-- `pullDomainEvents`, as the save of a repository does. -/
def pullDomainEvents : Method := modify fun request => { request with domainEvents := [] }

end ReturnRequest

section UseCases

variable (deterministicUuid : String → UniqueEntityId)

def AdvanceReturn (toStatus : ReturnStatus) (eventId : String) (occurredAt : ℤ) : Method :=
  ReturnRequest.transition toStatus eventId occurredAt

def DecideApproval (approved : Bool) (note : Option String) (eventId : String) (occurredAt : ℤ) :
    Method :=
  if approved then ReturnRequest.approve deterministicUuid eventId occurredAt note
  else ReturnRequest.reject deterministicUuid eventId occurredAt note

def GenerateRma (rmaNumber eventId : String) (occurredAt : ℤ) : Method := do
  let _ ← MonadExcept.ofExcept (Guard.againstEmpty rmaNumber "rmaNumber")
  ReturnRequest.generateRma deterministicUuid rmaNumber eventId occurredAt

def alreadyProcessed (callbackReference : String) (request : ReturnRequest) : Bool :=
  request.attempts.any fun attempt => attempt.kind == .warehouseCallback &&
    attempt.outcome == .succeeded && attempt.reference == some callbackReference

/-- The callback is recorded before the table is asked. -/
def ReceivePackage (source callbackId : String) (verifyReturnShipment : String → Bool)
    (callbackAt : ℤ) (eventId : String) (occurredAt : ℤ) : Method := do
  let _ ← MonadExcept.ofExcept (Guard.againstEmpty source "source")
  let _ ← MonadExcept.ofExcept (Guard.againstEmpty callbackId "callbackId")
  let callbackReference := source ++ ":" ++ callbackId
  let request ← get
  if alreadyProcessed callbackReference request then return
  if !verifyReturnShipment request.orderRef then
    throw (.validation "Return shipment could not be verified" [])
  ReturnRequest.recordWarehouseCallback deterministicUuid callbackAt (some callbackReference)
  ReturnRequest.receivePackage deterministicUuid eventId occurredAt

def InspectItems (itemRef : String) (passed : Bool) (note : Option String) (occurredAt : ℤ) :
    Method := do
  let _ ← MonadExcept.ofExcept (Guard.againstEmpty itemRef "itemRef")
  if (← get).status = inspectionCompleted then return
  ReturnRequest.inspectItem deterministicUuid itemRef passed occurredAt note

def toDispositions (items : List (String × String)) :
    Except DomainError (List (String × ReturnDisposition)) :=
  items.mapM fun (orderItemRef, disposition) => do
    return (orderItemRef, ← ReturnDisposition.create disposition)

def AcceptItems (items : List (String × String)) (eventId : String) (occurredAt : ℤ) : Method := do
  let dispositions ← MonadExcept.ofExcept (toDispositions items)
  ReturnRequest.acceptItems deterministicUuid dispositions eventId occurredAt

def exceedsRefundable (refundVerification : Option (String → ℚ → String → Bool))
    (orderRef : String) (decision : RefundDecision) : Bool :=
  match decision.outcome, decision.amountMinor, decision.currency, refundVerification with
  | .refund, some amountMinor, some currency, some isRefundable =>
    !isRefundable orderRef amountMinor currency
  | _, _, _, _ => false

def DecideResolution (outcome : ResolutionOutcome) (amountMinor : Option ℚ)
    (currency : Option String) (refundVerification : Option (String → ℚ → String → Bool))
    (eventId : String) (occurredAt : ℤ) : Method := do
  let decision ← MonadExcept.ofExcept (RefundDecision.create outcome amountMinor currency)
  if exceedsRefundable refundVerification (← get).orderRef decision then
    throw (.validation "Refund amount exceeds the refundable amount for this order"
      [⟨"amountMinor", "could not be verified against Payments/Orders"⟩])
  ReturnRequest.decideResolution deterministicUuid decision eventId occurredAt

end UseCases

end Returns
