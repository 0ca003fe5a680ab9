import Lumo.LabelledRuns
import Lumo.ReturnsRequest

/-! # What a refused operation leaves of a return request

The methods that ask the transition table first leave the request as it was. Those that write first
leave what they wrote. -/
namespace Returns

open SharedKernel Builtins Methods LabelledRuns ReturnRequest

inductive Operation where
  | transition (toStatus : ReturnStatus)
  | approve (note : Option String)
  | reject (note : Option String)
  | generateRma (rmaNumber : String)
  | receivePackage
  | inspectItem (itemRef : String) (passed : Bool) (note : Option String)
  | completeInspection
  | acceptItems (dispositions : List (String × ReturnDisposition))
  | rejectItems (reason : String)
  | decideResolution (decision : RefundDecision)
  | close
  | recordWarehouseCallback (reference : Option String)

inductive UseCase where
  | advanceReturn (toStatus : ReturnStatus)
  | decideApproval (approved : Bool) (note : Option String)
  | generateRma (rmaNumber : String)
  | receivePackage (source callbackId : String) (verifyReturnShipment : String → Bool)
      (callbackAt : ℤ)
  | inspectItems (itemRef : String) (passed : Bool) (note : Option String)
  | acceptItems (items : List (String × String))
  | decideResolution (outcome : ResolutionOutcome) (amountMinor : Option ℚ)
      (currency : Option String) (refundVerification : Option (String → ℚ → String → Bool))

inductive Action where
  | method (operation : Operation)
  | execute (useCase : UseCase)
  | save

/-- An action, with the id and the time of the event that it may raise. -/
structure Step where
  action : Action
  eventId : String
  occurredAt : ℤ

section Perform

variable (deterministicUuid : String → UniqueEntityId) (eventId : String) (occurredAt : ℤ)

def Operation.perform : Operation → Method
  | .transition toStatus => ReturnRequest.transition toStatus eventId occurredAt
  | .approve note => ReturnRequest.approve deterministicUuid eventId occurredAt note
  | .reject note => ReturnRequest.reject deterministicUuid eventId occurredAt note
  | .generateRma rmaNumber =>
    ReturnRequest.generateRma deterministicUuid rmaNumber eventId occurredAt
  | .receivePackage => ReturnRequest.receivePackage deterministicUuid eventId occurredAt
  | .inspectItem itemRef passed note =>
    ReturnRequest.inspectItem deterministicUuid itemRef passed occurredAt note
  | .completeInspection => ReturnRequest.completeInspection eventId occurredAt
  | .acceptItems dispositions =>
    ReturnRequest.acceptItems deterministicUuid dispositions eventId occurredAt
  | .rejectItems reason => ReturnRequest.rejectItems deterministicUuid reason eventId occurredAt
  | .decideResolution decision =>
    ReturnRequest.decideResolution deterministicUuid decision eventId occurredAt
  | .close => ReturnRequest.close eventId occurredAt
  | .recordWarehouseCallback reference =>
    ReturnRequest.recordWarehouseCallback deterministicUuid occurredAt reference

def UseCase.perform : UseCase → Method
  | .advanceReturn toStatus => AdvanceReturn toStatus eventId occurredAt
  | .decideApproval approved note =>
    DecideApproval deterministicUuid approved note eventId occurredAt
  | .generateRma rmaNumber => GenerateRma deterministicUuid rmaNumber eventId occurredAt
  | .receivePackage source callbackId verifyReturnShipment callbackAt =>
    ReceivePackage deterministicUuid source callbackId verifyReturnShipment callbackAt eventId
      occurredAt
  | .inspectItems itemRef passed note =>
    InspectItems deterministicUuid itemRef passed note occurredAt
  | .acceptItems items => AcceptItems deterministicUuid items eventId occurredAt
  | .decideResolution outcome amountMinor currency refundVerification =>
    DecideResolution deterministicUuid outcome amountMinor currency refundVerification eventId
      occurredAt

end Perform

def Step.perform (deterministicUuid : String → UniqueEntityId) (step : Step) : Method :=
  match step.action with
  | .method operation => operation.perform deterministicUuid step.eventId step.occurredAt
  | .execute useCase => useCase.perform deterministicUuid step.eventId step.occurredAt
  | .save => pullDomainEvents

def lastDisposition (orderItemRef : String) :
    List (String × ReturnDisposition) → Option ReturnDisposition
  | [] => none
  | (ref, disposition) :: rest =>
    (lastDisposition orderItemRef rest).or (if ref = orderItemRef then some disposition else none)

/-- Each item that is named has the disposition that it would be given last. -/
def Disposed (items : List ReturnItem) (dispositions : List (String × ReturnDisposition)) : Prop :=
  ∀ ref disposition item, lastDisposition ref dispositions = some disposition →
    items.find? (fun item => item.orderItemRef = ref) = some item →
      item.disposition = some disposition

/-- What writes first is in the one status that allows it, or writes what is there. -/
def Operation.Harmless (request : ReturnRequest) : Operation → Prop
  | .generateRma rmaNumber => request.status = .approved ∨ request.rmaNumber = some rmaNumber
  | .acceptItems dispositions =>
    request.status = .inspectionCompleted ∨ Disposed request.items dispositions
  | .decideResolution decision =>
    request.status = .itemsAccepted ∨ request.refundDecision = some decision
  | _ => True

/-- The same where the arguments pass the checks that come before the request. -/
def UseCase.Harmless (request : ReturnRequest) : UseCase → Prop
  | .generateRma rmaNumber =>
    isBlank rmaNumber = true ∨ (Operation.generateRma rmaNumber).Harmless request
  | .receivePackage source callbackId verifyReturnShipment _ =>
    isBlank source = true ∨ isBlank callbackId = true ∨
      alreadyProcessed (source ++ ":" ++ callbackId) request = true ∨
      verifyReturnShipment request.orderRef = false ∨ request.status = .rmaGenerated
  | .acceptItems items => ∀ dispositions, toDispositions items = .ok dispositions →
    (Operation.acceptItems dispositions).Harmless request
  | .decideResolution outcome amountMinor currency refundVerification =>
    ∀ decision, RefundDecision.create outcome amountMinor currency = .ok decision →
      exceedsRefundable refundVerification request.orderRef decision = true ∨
        (Operation.decideResolution decision).Harmless request
  | _ => True

def Step.Harmless (request : ReturnRequest) (step : Step) : Prop :=
  match step.action with
  | .method operation => operation.Harmless request
  | .execute useCase => useCase.Harmless request
  | .save => True

variable {deterministicUuid : String → UniqueEntityId} {eventId : String} {occurredAt : ℤ}
  {request : ReturnRequest} {toStatus : ReturnStatus}

theorem transition_run :
    (canTransitionReturn request.status toStatus = true ∧
      transition toStatus eventId occurredAt request =
        .ok () (moved toStatus eventId occurredAt request)) ∨
    (canTransitionReturn request.status toStatus = false ∧
      ∃ e, transition toStatus eventId occurredAt request = .error e request) := by
  cases h : canTransitionReturn request.status toStatus with
  | true | false => simp [transition, h]

theorem transition_spares : Spares (transition toStatus eventId occurredAt) request := by
  intro e t h
  rcases transition_run with ⟨-, hrun⟩ | ⟨-, e', hrun⟩
  · rw [hrun] at h
    cases h
  · rw [hrun] at h
    injection h with _ hrequest
    exact hrequest.symm

theorem recordAttempt_neverThrows (kind : ReturnAttemptKind) (outcome : ReturnAttemptOutcome)
    (reference : Option String) :
    NeverThrows (recordAttempt deterministicUuid kind outcome occurredAt reference) :=
  .modify _

theorem transition_bind_spares {rest : Method} (hrest : NeverThrows rest) :
    Spares (transition toStatus eventId occurredAt >>= fun _ => rest) request :=
  transition_spares.bind fun _ => hrest

theorem write_transition_spares {write : ReturnRequest → ReturnRequest} {rest : Method}
    (hstatus : (write request).status = request.status) (hrest : NeverThrows rest) :
    Spares (modify write >>= fun _ => transition toStatus eventId occurredAt >>= fun _ => rest)
        request ↔
      canTransitionReturn request.status toStatus = true ∨ write request = request := by
  rw [spares_modify_bind (transition_bind_spares hrest), ← hstatus]
  refine or_congr ?_ Iff.rfl
  constructor
  · intro hquiet
    rcases transition_run with ⟨hcan, -⟩ | ⟨-, e, hrun⟩
    · exact hcan
    · exact absurd (by rw [run_bind, hrun]) (hquiet e (write request))
  · intro hcan e t h
    rw [run_bind] at h
    rcases transition_run with ⟨-, hrun⟩ | ⟨hnot, -⟩
    · rw [hrun] at h
      exact hrest _ e t h
    · rw [hcan] at hnot
      cases hnot

def setDispositions (dispositions : List (String × ReturnDisposition)) (items : List ReturnItem) :
    List ReturnItem :=
  dispositions.foldl (fun items entry => setDisposition entry.1 entry.2 items) items

def ReturnItem.given (disposition : Option ReturnDisposition) (item : ReturnItem) : ReturnItem :=
  { item with disposition := disposition.or item.disposition }

theorem setDispositions_nil (dispositions : List (String × ReturnDisposition)) :
    setDispositions dispositions [] = [] := by
  induction dispositions with
  | nil => rfl
  | cons entry dispositions ih => exact ih

theorem setDispositions_cons (dispositions : List (String × ReturnDisposition)) (item : ReturnItem)
    (items : List ReturnItem) :
    setDispositions dispositions (item :: items) =
      item.given (lastDisposition item.orderItemRef dispositions) ::
        setDispositions (dispositions.filter fun entry => entry.1 ≠ item.orderItemRef) items := by
  induction dispositions generalizing item items with
  | nil => rfl
  | cons entry dispositions ih =>
    obtain ⟨ref, disposition⟩ := entry
    rw [setDispositions, List.foldl_cons, ← setDispositions, setDisposition]
    by_cases href : item.orderItemRef = ref
    · rw [if_pos href, ih, lastDisposition, if_pos href.symm,
        List.filter_cons_of_neg (by simp [href])]
      cases lastDisposition item.orderItemRef dispositions <;> rfl
    · rw [if_neg href, ih, lastDisposition, if_neg (Ne.symm href),
        List.filter_cons_of_pos (by simpa using Ne.symm href), Option.or_none]
      rfl

theorem lastDisposition_filter (dispositions : List (String × ReturnDisposition))
    (hidden ref : String) :
    lastDisposition ref (dispositions.filter fun entry => entry.1 ≠ hidden) =
      if ref = hidden then none else lastDisposition ref dispositions := by
  induction dispositions with
  | nil => simp [lastDisposition]
  | cons entry dispositions ih =>
    by_cases hentry : entry.1 = hidden
    · rw [List.filter_cons_of_neg (by simp [hentry]), ih, lastDisposition]
      by_cases href : ref = hidden
      · rw [if_pos href, if_pos href]
      · have hother : entry.1 ≠ ref := fun h => href (h.symm.trans hentry)
        rw [if_neg href, if_neg href, if_neg hother, Option.or_none]
    · rw [List.filter_cons_of_pos (by simpa using hentry), lastDisposition, ih, lastDisposition]
      by_cases href : ref = hidden
      · have hother : entry.1 ≠ ref := fun h => hentry (h.trans href)
        rw [if_pos href, if_pos href, if_neg hother, Option.or_none]
      · rw [if_neg href, if_neg href]

theorem disposed_cons {item : ReturnItem} {items : List ReturnItem}
    {dispositions : List (String × ReturnDisposition)} :
    Disposed (item :: items) dispositions ↔
      (∀ disposition, lastDisposition item.orderItemRef dispositions = some disposition →
        item.disposition = some disposition) ∧
      Disposed items (dispositions.filter fun entry => entry.1 ≠ item.orderItemRef) := by
  constructor
  · intro h
    constructor
    · intro disposition hlast
      exact h item.orderItemRef disposition item hlast (by simp)
    · intro ref disposition found hlast hfind
      rw [lastDisposition_filter] at hlast
      split at hlast
      · cases hlast
      · rename_i href
        refine h ref disposition found hlast ?_
        rw [List.find?_cons_of_neg (by simpa using Ne.symm href)]
        exact hfind
  · rintro ⟨hitem, hitems⟩ ref disposition found hlast hfind
    by_cases href : item.orderItemRef = ref
    · rw [List.find?_cons_of_pos (by simpa using href)] at hfind
      injection hfind with hfound
      subst hfound href
      exact hitem disposition hlast
    · rw [List.find?_cons_of_neg (by simpa using href)] at hfind
      refine hitems ref disposition found ?_ hfind
      rw [lastDisposition_filter, if_neg (Ne.symm href)]
      exact hlast

theorem setDispositions_eq_iff (dispositions : List (String × ReturnDisposition))
    (items : List ReturnItem) :
    setDispositions dispositions items = items ↔ Disposed items dispositions := by
  induction items generalizing dispositions with
  | nil => simp [setDispositions_nil, Disposed]
  | cons item items ih =>
    rw [setDispositions_cons, List.cons.injEq, ih, disposed_cons]
    refine and_congr ?_ Iff.rfl
    obtain ⟨id, orderItemRef, productRef, quantity, reason, disposition⟩ := item
    cases lastDisposition orderItemRef dispositions with
    | none => simp [ReturnItem.given]
    | some last => simp [ReturnItem.given, eq_comm]

theorem withDispositions_eq_iff (dispositions : List (String × ReturnDisposition)) :
    withDispositions dispositions request = request ↔ Disposed request.items dispositions := by
  rw [← setDispositions_eq_iff]
  obtain ⟨id, orderRef, items, status, attempts, inspections, approval, rmaNumber, refundDecision,
    domainEvents⟩ := request
  simp [withDispositions, setDispositions]

theorem rma_allowed_iff (status : ReturnStatus) :
    canTransitionReturn status .rmaGenerated = true ↔ status = .approved := by
  cases status <;> decide

theorem receipt_allowed_iff (status : ReturnStatus) :
    canTransitionReturn status .packageReceived = true ↔ status = .rmaGenerated := by
  cases status <;> decide

theorem acceptance_allowed_iff (status : ReturnStatus) :
    canTransitionReturn status .itemsAccepted = true ↔ status = .inspectionCompleted := by
  cases status <;> decide

theorem resolution_allowed_iff (status : ReturnStatus) (outcome : ResolutionOutcome) :
    canTransitionReturn status (RESOLUTION_STATUS_BY_OUTCOME outcome) = true ↔
      status = .itemsAccepted := by
  cases outcome <;> cases status <;> decide

theorem inspectItem_neverThrows (itemRef : String) (passed : Bool) (note : Option String) :
    NeverThrows (inspectItem deterministicUuid itemRef passed occurredAt note) := by
  refine NeverThrows.get.bind fun request => ?_
  split
  · exact .pure _
  · exact (NeverThrows.modify _).bind fun _ => recordAttempt_neverThrows _ _ _

theorem Operation.spares_iff (operation : Operation) :
    Spares (operation.perform deterministicUuid eventId occurredAt) request ↔
      operation.Harmless request := by
  cases operation with
  | transition toStatus => exact iff_of_true transition_spares trivial
  | approve note | reject note =>
    refine iff_of_true (transition_bind_spares ?_) trivial
    exact (NeverThrows.modify _).bind fun _ => recordAttempt_neverThrows _ _ _
  | generateRma rmaNumber =>
    refine (write_transition_spares rfl (recordAttempt_neverThrows _ _ _)).trans ?_
    refine or_congr (rma_allowed_iff _) ?_
    cases request
    simp [eq_comm]
  | receivePackage =>
    exact iff_of_true (transition_bind_spares (recordAttempt_neverThrows _ _ _)) trivial
  | inspectItem itemRef passed note =>
    exact iff_of_true (inspectItem_neverThrows itemRef passed note).spares trivial
  | completeInspection => exact iff_of_true transition_spares trivial
  | acceptItems dispositions =>
    refine (write_transition_spares rfl (recordAttempt_neverThrows _ _ _)).trans ?_
    exact or_congr (acceptance_allowed_iff _) (withDispositions_eq_iff dispositions)
  | rejectItems reason =>
    exact iff_of_true (transition_bind_spares (recordAttempt_neverThrows _ _ _)) trivial
  | decideResolution decision =>
    refine (write_transition_spares rfl (recordAttempt_neverThrows _ _ _)).trans ?_
    refine or_congr (resolution_allowed_iff _ _) ?_
    cases request
    simp [eq_comm]
  | close => exact iff_of_true transition_spares trivial
  | recordWarehouseCallback reference =>
    exact iff_of_true (recordAttempt_neverThrows _ _ _).spares trivial

theorem guarded_spares {value field : String} {m : NonBlank → Method} {P : Prop}
    (h : ∀ guarded, Spares (m guarded) request ↔ P) :
    Spares (MonadExcept.ofExcept (Guard.againstEmpty value field) >>= m) request ↔
      isBlank value = true ∨ P := by
  rw [spares_ofExcept_bind, Guard.againstEmpty]
  by_cases hblank : isBlank value = false
  · simp [hblank, h]
  · simp [hblank]

theorem receivePackage_spares_iff (source callbackId : String)
    (verifyReturnShipment : String → Bool) (callbackAt : ℤ) :
    Spares (ReceivePackage deterministicUuid source callbackId verifyReturnShipment callbackAt
        eventId occurredAt) request ↔
      (UseCase.receivePackage source callbackId verifyReturnShipment callbackAt).Harmless
        request := by
  refine guarded_spares fun _ => guarded_spares fun _ => ?_
  rw [spares_get_bind]
  cases hprocessed : alreadyProcessed (source ++ ":" ++ callbackId) request with
  | true => exact iff_of_true (spares_pure _) (.inl rfl)
  | false =>
    cases hverified : verifyReturnShipment request.orderRef with
    | false => exact iff_of_true (spares_throw_bind _) (.inr (.inl rfl))
    | true =>
      have hgrows (reference : Option String) : withAttempt deterministicUuid .warehouseCallback
          .succeeded callbackAt reference request ≠ request := by
        intro h
        have hlength := congrArg (fun r : ReturnRequest => r.attempts.length) h
        simp [withAttempt] at hlength
      refine (write_transition_spares rfl (recordAttempt_neverThrows _ _ _)).trans ?_
      rw [receipt_allowed_iff]
      simp [hgrows]

theorem UseCase.spares_iff (useCase : UseCase) :
    Spares (useCase.perform deterministicUuid eventId occurredAt) request ↔
      useCase.Harmless request := by
  have hspares (operation : Operation) :
      Spares (operation.perform deterministicUuid eventId occurredAt) request ↔
        operation.Harmless request := operation.spares_iff
  cases useCase with
  | advanceReturn toStatus => exact iff_of_true transition_spares trivial
  | decideApproval approved note =>
    cases approved with
    | true => exact hspares (.approve note)
    | false => exact hspares (.reject note)
  | generateRma rmaNumber => exact guarded_spares fun _ => hspares (.generateRma rmaNumber)
  | receivePackage source callbackId verifyReturnShipment callbackAt =>
    exact receivePackage_spares_iff source callbackId verifyReturnShipment callbackAt
  | inspectItems itemRef passed note =>
    refine iff_of_true (spares_ofExcept_bind.mpr fun _ _ => ?_) trivial
    rw [spares_get_bind]
    split
    · exact spares_pure _
    · exact (inspectItem_neverThrows itemRef passed note).spares
  | acceptItems items =>
    exact spares_ofExcept_bind.trans (forall₂_congr fun dispositions _ =>
      hspares (.acceptItems dispositions))
  | decideResolution outcome amountMinor currency refundVerification =>
    refine spares_ofExcept_bind.trans (forall₂_congr fun decision _ => ?_)
    rw [spares_get_bind]
    cases hexceeds : exceedsRefundable refundVerification request.orderRef decision with
    | true => exact iff_of_true (spares_throw_bind _) (.inl rfl)
    | false => exact (hspares (.decideResolution decision)).trans (by simp)

theorem Step.spares_iff (deterministicUuid : String → UniqueEntityId) (request : ReturnRequest)
    (step : Step) : Spares (step.perform deterministicUuid) request ↔ step.Harmless request := by
  obtain ⟨action, eventId, occurredAt⟩ := step
  cases action with
  | method operation => exact operation.spares_iff
  | execute useCase => exact useCase.spares_iff
  | save => exact iff_of_true (NeverThrows.modify _).spares trivial

/-- The request goes on as the step leaves it, refused or not: the in-memory repository hands out
the object that it holds. -/
def next (deterministicUuid : String → UniqueEntityId) (request : ReturnRequest) (step : Step) :
    ReturnRequest :=
  after (step.perform deterministicUuid) request

def run (deterministicUuid : String → UniqueEntityId) (request : ReturnRequest)
    (steps : List Step) : List (Step × ReturnRequest) :=
  follow (next deterministicUuid) request steps

/-- The steps of a run that are not refused. -/
def accepted (deterministicUuid : String → UniqueEntityId) : ReturnRequest → List Step → List Step
  | _, [] => []
  | request, step :: steps =>
    match step.perform deterministicUuid request with
    | .ok _ request' => step :: accepted deterministicUuid request' steps
    | .error _ request' => accepted deterministicUuid request' steps

theorem lastState_accepted {steps : List Step}
    (h : EveryStep (fun request step => Step.Harmless request step) request
      (run deterministicUuid request steps)) :
    lastState request (run deterministicUuid request steps) =
      lastState request (run deterministicUuid request
        (accepted deterministicUuid request steps)) := by
  induction steps generalizing request with
  | nil => rfl
  | cons step steps ih =>
    obtain ⟨hstep, hrest⟩ := h
    have hspares := (step.spares_iff deterministicUuid request).mpr hstep
    have htail := ih hrest
    rw [accepted]
    cases hperform : step.perform deterministicUuid request with
    | ok result request' =>
      have hnext : next deterministicUuid request step = request' := after_ok hperform
      rw [run, follow, lastState, hnext]
      rw [hnext] at htail
      dsimp only
      rw [run, follow, lastState, hnext]
      exact htail
    | error e request' =>
      have hnext : next deterministicUuid request step = request' := after_error hperform
      have hsame : request' = request := hspares e request' hperform
      rw [run, follow, lastState, hnext]
      rw [hnext] at htail
      subst hsame
      exact htail

/-- A step that is refused leaves the request as it was if and only if it would write nothing new
before it is refused. Where all steps are so, the request is as the accepted steps alone make it. -/
theorem refused_unchanged_iff (deterministicUuid : String → UniqueEntityId) :
    (∀ (request : ReturnRequest) (step : Step),
      (∀ e request', step.perform deterministicUuid request = .error e request' →
        request' = request) ↔ step.Harmless request) ∧
    ∀ (request : ReturnRequest) (steps : List Step),
      EveryStep (fun request step => Step.Harmless request step) request
        (run deterministicUuid request steps) →
      EveryStep (fun request step => ∀ e request',
          step.perform deterministicUuid request = .error e request' → request' = request) request
        (run deterministicUuid request steps) ∧
      lastState request (run deterministicUuid request steps) =
        lastState request (run deterministicUuid request
          (accepted deterministicUuid request steps)) := by
  refine ⟨fun request step => step.spares_iff deterministicUuid request, ?_⟩
  intro request steps h
  constructor
  · exact everyStep_mono (fun request step => (step.spares_iff deterministicUuid request).mpr) h
  · exact lastState_accepted h

def sampleReturnId : UniqueEntityId := ⟨"return-1", by decide⟩

def approvedWithRma : List Step :=
  [⟨.execute (.decideApproval true none), "event-1", 0⟩,
    ⟨.execute (.generateRma "RMA-1"), "event-2", 1⟩]

/-- The number that was given out is replaced by the one that is refused. -/
theorem refused_rma_is_kept :
    ¬ ∀ (deterministicUuid : String → UniqueEntityId) (id : UniqueEntityId) (orderRef : String)
      (items : List ReturnItem) (steps : List Step) (step : Step) (e : DomainError)
      (request' : ReturnRequest),
      step.perform deterministicUuid (lastState (create id orderRef items)
        (run deterministicUuid (create id orderRef items) steps)) = .error e request' →
      request' = lastState (create id orderRef items)
        (run deterministicUuid (create id orderRef items) steps) := by
  intro h
  have hsame := h (fun _ => sampleReturnId) sampleReturnId "order-1" [] approvedWithRma
    ⟨.execute (.generateRma "RMA-2"), "event-3", 2⟩ _ _ rfl
  have hnumber := congrArg ReturnRequest.rmaNumber hsame
  have hreplaced : some "RMA-2" = some "RMA-1" := hnumber
  simp at hreplaced

end Returns
