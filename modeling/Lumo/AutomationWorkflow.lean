import Lumo.OptimisticTransactions
import Lumo.SharedKernel

/-! # `AutomationWorkflow`: the executions of a workflow and the calls that move them

A trigger starts an execution in one transaction, dispatches its actions outside of any, and
settles it in another; a retry re-opens it. -/
namespace Automation

open SharedKernel OptimisticTransactions

inductive AutomationExecutionStatus where
  | pending
  | running
  | succeeded
  | failed
  | retrying
  | deadLetter
  deriving DecidableEq

namespace AutomationExecutionStatus

def text : AutomationExecutionStatus → String
  | pending => "pending"
  | running => "running"
  | succeeded => "succeeded"
  | failed => "failed"
  | retrying => "retrying"
  | deadLetter => "dead_letter"

def transitions : AutomationExecutionStatus → List AutomationExecutionStatus
  | pending => [running]
  | running => [succeeded, failed]
  | succeeded => []
  | failed => [retrying, deadLetter]
  | retrying => [running, deadLetter]
  | deadLetter => []

end AutomationExecutionStatus

def canTransitionExecution (source target : AutomationExecutionStatus) : Bool :=
  source.transitions.contains target

/-- A domain error, the one of a save that lost its race (whose message names the version it
expected), or an `Error` of any other class. -/
inductive Thrown where
  | domain (e : DomainError)
  | concurrency
  | error (message : String)

structure AutomationExecution where
  id : String
  triggerId : String
  status : AutomationExecutionStatus
  attemptCount : ℕ
  startedAt : ℤ
  completedAt : Option ℤ
  errorMessage : Option String
  deriving DecidableEq

namespace AutomationExecution

def start (id triggerId : String) (occurredAt : ℤ) : AutomationExecution where
  id := id
  triggerId := triggerId
  status := .running
  attemptCount := 1
  startedAt := occurredAt
  completedAt := none
  errorMessage := none

/-- It throws an `Error` that is no domain error. -/
def transition (toStatus : AutomationExecutionStatus) (execution : AutomationExecution) :
    Except Thrown AutomationExecution :=
  if canTransitionExecution execution.status toStatus then
    .ok { execution with status := toStatus }
  else
    .error (.error ("Cannot transition execution from \"" ++ execution.status.text ++ "\" to \"" ++
      toStatus.text ++ "\""))

def succeed (occurredAt : ℤ) (execution : AutomationExecution) :
    Except Thrown AutomationExecution := do
  let execution ← execution.transition .succeeded
  return { execution with completedAt := some occurredAt }

def fail (errorMessage : String) (occurredAt : ℤ) (execution : AutomationExecution) :
    Except Thrown AutomationExecution := do
  let execution ← execution.transition .failed
  return { execution with completedAt := some occurredAt, errorMessage := some errorMessage }

def retry (execution : AutomationExecution) : Except Thrown AutomationExecution :=
  execution.transition .retrying

def resume (execution : AutomationExecution) : Except Thrown AutomationExecution := do
  let execution ← execution.transition .running
  return { execution with attemptCount := execution.attemptCount + 1 }

def deadLetter (occurredAt : ℤ) (execution : AutomationExecution) :
    Except Thrown AutomationExecution := do
  let execution ← execution.transition .deadLetter
  return { execution with completedAt := some occurredAt }

structure Moved (source target : AutomationExecutionStatus)
    (execution execution' : AutomationExecution) : Prop where
  source : execution.status = source
  target : execution'.status = target
  id : execution'.id = execution.id
  triggerId : execution'.triggerId = execution.triggerId

variable {execution execution' : AutomationExecution} {occurredAt : ℤ}

theorem transition_ok {toStatus : AutomationExecutionStatus}
    (h : execution.transition toStatus = .ok execution') :
    toStatus ∈ execution.status.transitions ∧
      execution' = { execution with status := toStatus } := by
  rw [transition] at h
  split at h
  · rename_i hallowed
    cases h
    exact ⟨List.contains_iff_mem.mp hallowed, rfl⟩
  · cases h

theorem source_running {source target : AutomationExecutionStatus} (h : target ∈ source.transitions)
    (ht : target = .succeeded ∨ target = .failed) : source = .running := by
  rcases ht with rfl | rfl <;> cases source <;> first | rfl | (revert h; decide)

theorem succeed_ok (h : execution.succeed occurredAt = .ok execution') :
    Moved .running .succeeded execution execution' ∧
      execution'.attemptCount = execution.attemptCount := by
  obtain ⟨moved, hmoved, hset⟩ := bind_eq_ok.mp h
  obtain ⟨hto, rfl⟩ := transition_ok hmoved
  cases hset
  exact ⟨⟨source_running hto (Or.inl rfl), rfl, rfl, rfl⟩, rfl⟩

theorem fail_ok {errorMessage : String}
    (h : execution.fail errorMessage occurredAt = .ok execution') :
    Moved .running .failed execution execution' ∧
      execution'.attemptCount = execution.attemptCount := by
  obtain ⟨moved, hmoved, hset⟩ := bind_eq_ok.mp h
  obtain ⟨hto, rfl⟩ := transition_ok hmoved
  cases hset
  exact ⟨⟨source_running hto (Or.inr rfl), rfl, rfl, rfl⟩, rfl⟩

theorem retry_resume_ok {retried : AutomationExecution} (hretry : execution.retry = .ok retried)
    (hresume : retried.resume = .ok execution') :
    Moved .failed .running execution execution' ∧
      execution'.attemptCount = execution.attemptCount + 1 := by
  obtain ⟨hto, rfl⟩ := transition_ok hretry
  obtain ⟨moved, hmoved, hset⟩ := bind_eq_ok.mp hresume
  obtain ⟨-, rfl⟩ := transition_ok hmoved
  cases hset
  have hsource : execution.status = .failed := by
    revert hto
    cases execution.status <;> decide
  exact ⟨⟨hsource, rfl, rfl, rfl⟩, rfl⟩

theorem deadLetter_ok (h : execution.deadLetter occurredAt = .ok execution') :
    Moved execution.status .deadLetter execution execution' ∧
      (execution.status = .failed ∨ execution.status = .retrying) ∧
      execution'.attemptCount = execution.attemptCount := by
  obtain ⟨moved, hmoved, hset⟩ := bind_eq_ok.mp h
  obtain ⟨hto, rfl⟩ := transition_ok hmoved
  cases hset
  have hsource : execution.status = .failed ∨ execution.status = .retrying := by
    revert hto
    cases execution.status <;> decide
  exact ⟨⟨rfl, rfl, rfl, rfl⟩, hsource, rfl⟩

end AutomationExecution

inductive WorkflowStatus where
  | draft
  | active
  | paused
  | archived
  deriving DecidableEq

namespace WorkflowStatus

def text : WorkflowStatus → String
  | draft => "draft"
  | active => "active"
  | paused => "paused"
  | archived => "archived"

def transitions : WorkflowStatus → List WorkflowStatus
  | draft => [active, archived]
  | active => [paused, archived]
  | paused => [active, archived]
  | archived => []

end WorkflowStatus

def canTransitionWorkflow (source target : WorkflowStatus) : Bool :=
  source.transitions.contains target

/-- `WorkflowTransitioned`, less its ids, its time and the workflow's name. -/
structure WorkflowTransitioned where
  family : String
  action : String
  executionRef : Option String

/-- The actions' parameters are left to the dispatcher. -/
structure AutomationWorkflow where
  id : UniqueEntityId
  actions : List String
  status : WorkflowStatus
  executions : List AutomationExecution
  events : List WorkflowTransitioned

def maxAttempts : ℕ := 3

namespace AutomationWorkflow

def raise (family action : String) (executionRef : Option String) (workflow : AutomationWorkflow) :
    AutomationWorkflow :=
  { workflow with events := workflow.events ++ [⟨family, action, executionRef⟩] }

def transition (toStatus : WorkflowStatus) (workflow : AutomationWorkflow) :
    Except Thrown AutomationWorkflow :=
  if canTransitionWorkflow workflow.status toStatus then
    .ok ({ workflow with status := toStatus }.raise "workflow" toStatus.text none)
  else
    .error (.domain (.businessRule ("Cannot transition workflow from \"" ++ workflow.status.text ++
      "\" to \"" ++ toStatus.text ++ "\"")))

/-- The execution that `startExecution` pushes: they are numbered by how many there are. -/
def nextExecution (triggerId : String) (occurredAt : ℤ) (workflow : AutomationWorkflow) :
    AutomationExecution :=
  AutomationExecution.start (workflow.id.value ++ toString workflow.executions.length) triggerId
    occurredAt

def startExecution (triggerId : String) (occurredAt : ℤ) (workflow : AutomationWorkflow) :
    Except Thrown (AutomationExecution × AutomationWorkflow) :=
  if workflow.status ≠ .active then
    .error (.domain (.businessRule ("Workflow is not active (status: " ++ workflow.status.text ++
      ")")))
  else
    let execution := workflow.nextExecution triggerId occurredAt
    .ok (execution, { workflow with executions := workflow.executions ++ [execution] }.raise
      "execution" "running" (some execution.id))

def requireExecution (executionId : String) (workflow : AutomationWorkflow) :
    Except Thrown AutomationExecution :=
  match workflow.executions.find? fun x => x.id = executionId with
  | none =>
    .error (.domain (.businessRule ("Workflow has no execution \"" ++ executionId ++ "\"")))
  | some execution => .ok execution

/-- The workflow after a change of the execution that `requireExecution` found. -/
def withExecution (executionId : String) (execution : AutomationExecution)
    (workflow : AutomationWorkflow) : AutomationWorkflow :=
  { workflow with
    executions := workflow.executions.replaceF fun x =>
      if x.id = executionId then some execution else none }

def completeExecutionSuccess (executionId : String) (occurredAt : ℤ)
    (workflow : AutomationWorkflow) : Except Thrown AutomationWorkflow := do
  let execution ← workflow.requireExecution executionId
  let execution ← execution.succeed occurredAt
  return (workflow.withExecution executionId execution).raise "execution" "succeeded"
    (some executionId)

def completeExecutionFailure (executionId errorMessage : String) (occurredAt : ℤ)
    (workflow : AutomationWorkflow) : Except Thrown AutomationWorkflow := do
  let execution ← workflow.requireExecution executionId
  let execution ← execution.fail errorMessage occurredAt
  return (workflow.withExecution executionId execution).raise "execution" "failed"
    (some executionId)

def retryExecution (executionId : String) (occurredAt : ℤ) (workflow : AutomationWorkflow) :
    Except Thrown AutomationWorkflow := do
  let execution ← workflow.requireExecution executionId
  if maxAttempts ≤ execution.attemptCount then
    let execution ← execution.deadLetter occurredAt
    return (workflow.withExecution executionId execution).raise "execution" "dead_letter"
      (some executionId)
  else
    let execution ← execution.retry
    let execution ← execution.resume
    return (workflow.withExecution executionId execution).raise "execution" "retrying"
      (some executionId)

structure Replaced (workflow workflow' : AutomationWorkflow)
    (execution execution' : AutomationExecution) : Prop where
  id : workflow'.id = workflow.id
  split : ∃ before after, workflow.executions = before ++ execution :: after ∧
    workflow'.executions = before ++ execution' :: after

variable {workflow w workflow' new : AutomationWorkflow} {x y : AutomationExecution}
  {executionId : String} {occurredAt : ℤ}

theorem Replaced.map_eq {β : Type} (h : Replaced w new x y) {f : AutomationExecution → β}
    (hf : f y = f x) : new.executions.map f = w.executions.map f := by
  obtain ⟨before, after, hw, hnew⟩ := h.split
  simp [hw, hnew, hf]

theorem Replaced.mem (h : Replaced w new x y) : x ∈ w.executions ∧ y ∈ new.executions := by
  obtain ⟨before, after, hw, hnew⟩ := h.split
  simp [hw, hnew]

variable {z execution : AutomationExecution}

theorem Replaced.stays (h : Replaced w new x y) (hz : z ∈ w.executions) (hne : z ≠ x) :
    z ∈ new.executions := by
  obtain ⟨before, after, hw, hnew⟩ := h.split
  simp only [hw, hnew, List.mem_append, List.mem_cons] at hz ⊢
  exact hz.imp_right fun h => Or.inr (h.resolve_left hne)

theorem Replaced.came (h : Replaced w new x y) (hz : z ∈ new.executions) (hold : z ∉ w.executions) :
    z = y := by
  obtain ⟨before, after, hw, hnew⟩ := h.split
  simp only [hw, hnew, List.mem_append, List.mem_cons] at hz hold
  by_contra hne
  exact hold (hz.imp_right fun h => Or.inr (h.resolve_left hne))

theorem requireExecution_ok (h : workflow.requireExecution executionId = .ok execution)
    (execution' : AutomationExecution) :
    execution.id = executionId ∧
      Replaced workflow (workflow.withExecution executionId execution') execution execution' := by
  rw [requireExecution] at h
  split at h
  · cases h
  · rename_i found hfound
    cases h
    obtain ⟨hid, before, after, hsplit, hbefore⟩ := List.find?_eq_some_iff_append.mp hfound
    have heq : execution.id = executionId := by simpa using hid
    refine ⟨heq, rfl, before, after, hsplit, ?_⟩
    change workflow.executions.replaceF _ = _
    rw [hsplit]
    refine replaceF_split (fun y hy => ?_) (if_pos heq)
    exact if_neg (by simpa using hbefore y hy)

theorem startExecution_ok {triggerId : String}
    (h : workflow.startExecution triggerId occurredAt = .ok (execution, workflow')) :
    execution = workflow.nextExecution triggerId occurredAt ∧ workflow'.id = workflow.id ∧
      workflow'.executions = workflow.executions ++ [execution] := by
  rw [startExecution] at h
  split at h
  · cases h
  · cases h
    exact ⟨rfl, rfl, rfl⟩

theorem completeExecutionSuccess_ok
    (h : workflow.completeExecutionSuccess executionId occurredAt = .ok workflow') :
    ∃ execution execution', execution.id = executionId ∧
      Replaced workflow workflow' execution execution' ∧
      AutomationExecution.Moved .running .succeeded execution execution' ∧
      execution'.attemptCount = execution.attemptCount := by
  obtain ⟨execution, hfound, h⟩ := bind_eq_ok.mp h
  obtain ⟨execution', hmoved, h⟩ := bind_eq_ok.mp h
  cases h
  obtain ⟨hid, hreplaced⟩ := requireExecution_ok hfound execution'
  exact ⟨execution, execution', hid, ⟨hreplaced.id, hreplaced.split⟩,
    AutomationExecution.succeed_ok hmoved⟩

theorem completeExecutionFailure_ok {errorMessage : String}
    (h : workflow.completeExecutionFailure executionId errorMessage occurredAt = .ok workflow') :
    ∃ execution execution', execution.id = executionId ∧
      Replaced workflow workflow' execution execution' ∧
      AutomationExecution.Moved .running .failed execution execution' ∧
      execution'.attemptCount = execution.attemptCount := by
  obtain ⟨execution, hfound, h⟩ := bind_eq_ok.mp h
  obtain ⟨execution', hmoved, h⟩ := bind_eq_ok.mp h
  cases h
  obtain ⟨hid, hreplaced⟩ := requireExecution_ok hfound execution'
  exact ⟨execution, execution', hid, ⟨hreplaced.id, hreplaced.split⟩,
    AutomationExecution.fail_ok hmoved⟩

theorem retryExecution_ok (h : workflow.retryExecution executionId occurredAt = .ok workflow') :
    ∃ execution execution', execution.id = executionId ∧
      Replaced workflow workflow' execution execution' ∧
      (AutomationExecution.Moved execution.status .deadLetter execution execution' ∧
          (execution.status = .failed ∨ execution.status = .retrying) ∧
          execution'.attemptCount = execution.attemptCount ∨
        execution.attemptCount < maxAttempts ∧
          AutomationExecution.Moved .failed .running execution execution' ∧
          execution'.attemptCount = execution.attemptCount + 1) := by
  obtain ⟨execution, hfound, h⟩ := bind_eq_ok.mp h
  split at h
  · obtain ⟨execution', hmoved, h⟩ := bind_eq_ok.mp h
    cases h
    obtain ⟨hid, hreplaced⟩ := requireExecution_ok hfound execution'
    exact ⟨execution, execution', hid, ⟨hreplaced.id, hreplaced.split⟩,
      Or.inl (AutomationExecution.deadLetter_ok hmoved)⟩
  · rename_i hcount
    obtain ⟨retried, hretry, h⟩ := bind_eq_ok.mp h
    obtain ⟨execution', hresume, h⟩ := bind_eq_ok.mp h
    cases h
    obtain ⟨hid, hreplaced⟩ := requireExecution_ok hfound execution'
    exact ⟨execution, execution', hid, ⟨hreplaced.id, hreplaced.split⟩,
      Or.inr ⟨by omega, AutomationExecution.retry_resume_ok hretry hresume⟩⟩

theorem transition_executions {toStatus : WorkflowStatus}
    (h : workflow.transition toStatus = .ok workflow') :
    workflow'.id = workflow.id ∧ workflow'.executions = workflow.executions := by
  rw [transition] at h
  split at h
  · cases h
    exact ⟨rfl, rfl⟩
  · cases h

end AutomationWorkflow

structure TriggerWorkflowOutput where
  workflowId : String
  status : WorkflowStatus
  executionId : String
  duplicate : Bool

structure WorkflowStatusOutput where
  workflowId : String
  status : WorkflowStatus

inductive Answer where
  | triggered (output : TriggerWorkflowOutput)
  | changed (output : WorkflowStatusOutput)
  | failed (e : DomainError)
  | threw (e : Thrown)

/-- Where a call stands. `attempt` counts the transactions that lost their race; `attemptCount` is
that of the execution as the call read it, which the code does not look at again. -/
inductive Point where
  | starting (triggerId : String) (attempt : ℕ)
  | dispatching (executionId triggerId : String) (attemptCount : ℕ) (actions : List String)
      (isNew : Bool)
  | settling (executionId : String) (attemptCount : ℕ) (dispatchError : Option String)
      (isNew : Bool) (attempt : ℕ)
  | retrying (executionId : String)
  | advancing (toStatus : WorkflowStatus)
  | answered (answer : Answer)

/-- A domain error is answered, any other is thrown on. -/
def Thrown.answer : Thrown → Answer
  | .domain e => .failed e
  | e => .threw e

def Thrown.saveOr {α : Type} (save : α → Outcome AutomationWorkflow Point) :
    Except Thrown α → Outcome AutomationWorkflow Point
  | .ok a => save a
  | .error e => .answer (.answered e.answer)

def isTerminal (status : AutomationExecutionStatus) : Bool :=
  status = .succeeded || status = .failed || status = .deadLetter

def startOrResume (triggerId : String) (attempt : ℕ) (now : ℤ) (workflow : AutomationWorkflow) :
    Outcome AutomationWorkflow Point :=
  match workflow.executions.find? fun x => x.triggerId = triggerId with
  | some existing =>
    if !isTerminal existing.status && attempt = 1 then
      .answer (.dispatching existing.id triggerId existing.attemptCount workflow.actions false)
    else
      .answer (.answered (.triggered ⟨workflow.id.value, workflow.status, existing.id, true⟩))
  | none =>
    Thrown.saveOr (fun (execution, workflow) => .save workflow
      (.dispatching execution.id triggerId execution.attemptCount workflow.actions true))
      (workflow.startExecution triggerId now)

def settle (executionId : String) (dispatchError : Option String) (isNew : Bool) (now : ℤ)
    (workflow : AutomationWorkflow) : Outcome AutomationWorkflow Point :=
  let answer := .answered (.triggered ⟨workflow.id.value, workflow.status, executionId, !isNew⟩)
  match workflow.executions.find? fun x => x.id = executionId with
  | none => .answer (.answered (.failed (.notFound "Execution not found")))
  | some execution =>
    if execution.status = .running then
      match dispatchError with
      | none => Thrown.saveOr (fun workflow => .save workflow answer)
          (workflow.completeExecutionSuccess executionId now)
      | some errorMessage => Thrown.saveOr (fun workflow => .save workflow answer)
          (workflow.completeExecutionFailure executionId errorMessage now)
    else .answer answer

def changed (workflow : AutomationWorkflow) : Outcome AutomationWorkflow Point :=
  .save workflow (.answered (.changed ⟨workflow.id.value, workflow.status⟩))

def retryExecution (executionId : String) (now : ℤ) (workflow : AutomationWorkflow) :
    Outcome AutomationWorkflow Point :=
  Thrown.saveOr changed (workflow.retryExecution executionId now)

def advanceWorkflow (toStatus : WorkflowStatus) (workflow : AutomationWorkflow) :
    Outcome AutomationWorkflow Point :=
  Thrown.saveOr changed (workflow.transition toStatus)

def maxConcurrencyRetries : ℕ := 5

def concurrencyError : Point := .answered (.threw .concurrency)

/-- What the dispatcher was asked to do, for which trigger. -/
abbrev Dispatches := List (List String × String)

/-- The calls on one workflow. The dispatcher answers with an error or without; `clock` is the time
at which a transaction reads. -/
def calls (clock : ℕ → ℤ) : Protocol AutomationWorkflow Point Dispatches (Option String) where
  body
    | .starting triggerId attempt =>
      some fun draw _ workflow => startOrResume triggerId attempt (clock draw) workflow
    | .settling executionId _ dispatchError isNew _ =>
      some fun draw _ workflow => settle executionId dispatchError isNew (clock draw) workflow
    | .retrying executionId =>
      some fun draw _ workflow => retryExecution executionId (clock draw) workflow
    | .advancing toStatus => some fun _ _ workflow => advanceWorkflow toStatus workflow
    | _ => none
  conflict
    | .starting triggerId attempt =>
      if attempt < maxConcurrencyRetries then .starting triggerId (attempt + 1)
      else concurrencyError
    | .settling executionId attemptCount dispatchError isNew attempt =>
      if attempt < maxConcurrencyRetries then
        .settling executionId attemptCount dispatchError isNew (attempt + 1)
      else concurrencyError
    | _ => concurrencyError
  act
    | .dispatching executionId triggerId attemptCount actions isNew, dispatchError, dispatches =>
      some (.settling executionId attemptCount dispatchError isNew 1,
        dispatches ++ [(actions, triggerId)])
    | _, _, _ => none

end Automation
