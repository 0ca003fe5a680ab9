import Mathlib.Data.Int.Notation
import Mathlib.Logic.Function.Basic
import Lumo.LabelledRuns
import Lumo.OrderedMap

/-! # The outbox as a delivery queue

The relay hands the due rows of the outbox straight to the consumers of their topics. It stands
before one of its calls at a time, and a crash may come before each of them; a crash inside a call
is what the call did, and then the crash. Log lines are not modelled, and times are exact. -/
namespace Messaging

open LabelledRuns

abbrev Bytes := List UInt8

abbrev Headers := OrderedMap String String

inductive OutboxStatus where
  | pending
  | published
  deriving DecidableEq

structure OutboxEntry where
  id : String
  topic : String
  key : String
  payload : Bytes
  headers : Headers
  status : OutboxStatus
  publishedAt : Option ℤ
  deriving DecidableEq

structure Row where
  entry : OutboxEntry
  attempts : ℕ
  availableAt : Option ℤ

structure DueOutboxEntry where
  entry : OutboxEntry
  attempts : ℕ

def enqueue (rows : List Row) (entries : List OutboxEntry) : List Row :=
  rows ++ entries.map fun entry => ⟨entry, 0, none⟩

def Row.isAvailable (row : Row) (nowMs : ℤ) : Bool :=
  match row.availableAt with
  | none => true
  | some availableAt => decide (availableAt ≤ nowMs)

def fetchDue (rows : List Row) (limit : ℕ) (nowMs : ℤ) : List DueOutboxEntry :=
  ((rows.filter fun row => row.entry.status = .pending && row.isAvailable nowMs).take limit).map
    fun row => ⟨row.entry, row.attempts⟩

def Row.publish (row : Row) (ids : List String) (deliveredAt : ℤ) : Row :=
  if row.entry.id ∈ ids ∧ row.entry.status = .pending then
    { row with entry := { row.entry with status := .published, publishedAt := some deliveredAt } }
  else row

def markDelivered (rows : List Row) (ids : List String) (deliveredAt : ℤ) : List Row :=
  rows.map fun row => row.publish ids deliveredAt

def Row.await (row : Row) (id : String) (attempts : ℕ) (availableAt : ℤ) : Row :=
  if row.entry.id = id ∧ row.entry.status = .pending then
    { row with attempts := attempts, availableAt := some availableAt }
  else row

def defer (rows : List Row) (id : String) (attempts : ℕ) (availableAt : ℤ) : List Row :=
  rows.map fun row => row.await id attempts availableAt

structure DirectConsumer where
  topic : String
  consumerGroup : String
  deriving DecidableEq

structure IncomingMessage where
  topic : String
  key : String
  value : Bytes
  headers : Headers

structure DirectDeadLetter where
  messageId : String
  message : IncomingMessage
  attempts : ℕ
  error : String

/-- How a call of `deliver` ends. It may throw after the effect has been committed. -/
inductive Delivery where
  | returns
  | throws (error : String) (effected : Bool)
  deriving DecidableEq

/-- What the consumers have done with the rows, and what the passes have done before. The inbox of
a consumer is committed with the effect. `passes` and `cutShort` are read by nobody: the passes in
which a consumer was tried, and how often a round of the row was not brought to its end. -/
structure World where
  rows : List Row
  inbox : DirectConsumer → List String
  effects : DirectConsumer → String → ℕ
  deadLetters : List (DirectConsumer × DirectDeadLetter)
  pass : ℕ
  passes : DirectConsumer → String → List ℕ
  cutShort : String → ℕ

def World.empty : World where
  rows := []
  inbox _ := []
  effects _ _ := 0
  deadLetters := []
  pass := 0
  passes _ _ := []
  cutShort _ := 0

/-- The effect of a message, unless the inbox has its id. -/
def World.effect (w : World) (consumer : DirectConsumer) (messageId : String) : World :=
  if messageId ∈ w.inbox consumer then w
  else { w with
    inbox := Function.update w.inbox consumer (messageId :: w.inbox consumer)
    effects := Function.update w.effects consumer
      (Function.update (w.effects consumer) messageId (w.effects consumer messageId + 1)) }

def World.attempt (w : World) (consumer : DirectConsumer) (messageId : String) : World :=
  { w with
    passes := Function.update w.passes consumer
      (Function.update (w.passes consumer) messageId
        ((w.passes consumer messageId).insert w.pass)) }

def World.deliver (w : World) (consumer : DirectConsumer) (messageId : String) :
    Delivery → World
  | .returns => (w.attempt consumer messageId).effect consumer messageId
  | .throws _ true => (w.attempt consumer messageId).effect consumer messageId
  | .throws _ false => w.attempt consumer messageId

def World.cut (w : World) (messageId : String) : World :=
  { w with cutShort := Function.update w.cutShort messageId (w.cutShort messageId + 1) }

structure OutboxDeliveryRelay where
  consumers : List DirectConsumer
  retryDelaysMs : List ℤ
  batchSize : Option ℕ

def consumersByTopic (relay : OutboxDeliveryRelay) : OrderedMap String (List DirectConsumer) :=
  relay.consumers.foldl
    (fun byTopic consumer => byTopic.set consumer.topic
      ((byTopic.find? consumer.topic).getD [] ++ [consumer])) .empty

structure OutboxDeliveryReport where
  delivered : ℕ
  unrouted : ℕ
  deferred : ℕ
  deadLettered : ℕ

inductive RowOutcome where
  | delivered
  | deferred
  | deadLettered

def OutboxDeliveryReport.count (report : OutboxDeliveryReport) :
    RowOutcome → OutboxDeliveryReport
  | .delivered => { report with delivered := report.delivered + 1 }
  | .deferred => { report with deferred := report.deferred + 1 }
  | .deadLettered => { report with deadLettered := report.deadLettered + 1 }

structure Failure where
  consumer : DirectConsumer
  error : String

structure Pass where
  rest : List DueOutboxEntry
  report : OutboxDeliveryReport

/-- The call that the relay stands before. -/
inductive Point where
  | idle (last : Option OutboxDeliveryReport)
  | markingUnrouted (batch : List DueOutboxEntry)
  | delivering (due : DueOutboxEntry) (consumer : DirectConsumer) (left : List DirectConsumer)
      (failures : List Failure) (pass : Pass)
  | deadLettering (due : DueOutboxEntry) (failure : Failure) (left : List Failure) (pass : Pass)
  | marking (due : DueOutboxEntry) (outcome : RowOutcome) (pass : Pass)
  | deferring (due : DueOutboxEntry) (delayMs : ℤ) (pass : Pass)

def Point.row? : Point → Option DueOutboxEntry
  | .idle _ => none
  | .markingUnrouted _ => none
  | .delivering due _ _ _ _ => some due
  | .deadLettering due _ _ _ => some due
  | .marking due _ _ => some due
  | .deferring due _ _ => some due

variable (relay : OutboxDeliveryRelay)

def unrouted (batch : List DueOutboxEntry) : List DueOutboxEntry :=
  batch.filter fun due => ((consumersByTopic relay).find? due.entry.topic).isNone

/-- `deliverRow`, when every consumer has been tried. -/
def settle (due : DueOutboxEntry) (failures : List Failure) (pass : Pass) : Point :=
  match failures with
  | [] => .marking due .delivered pass
  | failure :: left =>
    let rounds := due.attempts + 1
    match relay.retryDelaysMs[rounds - 1]? with
    | none => .deadLettering due failure left pass
    | some delayMs => .deferring due delayMs pass

/-- `deliverRow`, at the consumers that have not been tried. -/
def deliverRow (due : DueOutboxEntry) (left : List DirectConsumer) (failures : List Failure)
    (pass : Pass) : Point :=
  match left with
  | [] => settle relay due failures pass
  | consumer :: left => .delivering due consumer left failures pass

/-- The loop of `drainOnce`. -/
def drainRows : List DueOutboxEntry → OutboxDeliveryReport → Point
  | [], report => .idle (some report)
  | due :: rest, report =>
    match (consumersByTopic relay).find? due.entry.topic with
    | none => drainRows rest report
    | some consumers => deliverRow relay due consumers [] ⟨rest, report⟩

def drainBatch (batch : List DueOutboxEntry) : Point :=
  if 0 < (unrouted relay batch).length then .markingUnrouted batch
  else drainRows relay batch ⟨0, 0, 0, 0⟩

def messageOf (entry : OutboxEntry) : IncomingMessage where
  topic := entry.topic
  key := entry.key
  value := entry.payload
  headers := entry.headers

def letterOf (due : DueOutboxEntry) (failure : Failure) : DirectConsumer × DirectDeadLetter :=
  (failure.consumer, {
    messageId := due.entry.id
    message := messageOf due.entry
    attempts := due.attempts + 1
    error := failure.error })

def failuresOf (consumer : DirectConsumer) : Delivery → List Failure
  | .returns => []
  | .throws error _ => [⟨consumer, error⟩]

inductive Answer where
  | wrote (now : ℤ)
  | delivered (delivery : Delivery)
  | deadLettered
  | refused
  deriving DecidableEq

def turn (w : World) : Point → Answer → Option (World × Point)
  | .markingUnrouted batch, .wrote now =>
    some ({ w with rows := markDelivered w.rows ((unrouted relay batch).map (·.entry.id)) now },
      drainRows relay batch ⟨0, (unrouted relay batch).length, 0, 0⟩)
  | .delivering due consumer left failures pass, .delivered delivery =>
    some (w.deliver consumer due.entry.id delivery,
      deliverRow relay due left (failures ++ failuresOf consumer delivery) pass)
  | .deadLettering due failure left pass, .deadLettered =>
    some ({ w with deadLetters := w.deadLetters ++ [letterOf due failure] },
      match left with
      | [] => .marking due .deadLettered pass
      | failure :: left => .deadLettering due failure left pass)
  | .deadLettering due _ _ _, .refused => some (w.cut due.entry.id, .idle none)
  | .marking due outcome pass, .wrote now =>
    some ({ w with rows := markDelivered w.rows [due.entry.id] now },
      drainRows relay pass.rest (pass.report.count outcome))
  | .deferring due delayMs pass, .wrote now =>
    some ({ w with rows := defer w.rows due.entry.id (due.attempts + 1) (now + delayMs) },
      drainRows relay pass.rest (pass.report.count .deferred))
  | _, _ => none

def World.crash (w : World) (point : Point) : World :=
  match point.row? with
  | none => w
  | some due => w.cut due.entry.id

structure State where
  world : World
  point : Point

inductive Label where
  | enqueue (entry : OutboxEntry)
  | drainOnce (now : ℤ)
  | turn (answer : Answer)
  | crash
  deriving DecidableEq

/-- The producers append rows of their own, the id being the key of the table. One pass is begun
when no other runs. -/
def next (s : State) : Label → Option State
  | .enqueue entry =>
    if entry.status = .pending ∧ entry.id ∉ s.world.rows.map (·.entry.id) then
      some ⟨{ s.world with rows := enqueue s.world.rows [entry] }, s.point⟩
    else none
  | .drainOnce now =>
    match s.point with
    | .idle _ => some ⟨{ s.world with pass := s.world.pass + 1 },
        drainBatch relay (fetchDue s.world.rows (relay.batchSize.getD 100) now)⟩
    | _ => none
  | .turn answer =>
    (turn relay s.world s.point answer).map fun (world, point) => ⟨world, point⟩
  | .crash => some ⟨s.world.crash s.point, .idle none⟩

def Step (s : State) (l : Label) (u : State) : Prop := next relay s l = some u

def start : State := ⟨.empty, .idle none⟩

/-- Everything a step can be. -/
inductive Move (w : World) : Point → Label → State → Prop where
  | enqueues {point entry} (hpending : entry.status = .pending)
      (hfresh : entry.id ∉ w.rows.map (·.entry.id)) :
      Move w point (.enqueue entry) ⟨{ w with rows := enqueue w.rows [entry] }, point⟩
  | drains {last now} : Move w (.idle last) (.drainOnce now) ⟨{ w with pass := w.pass + 1 },
      drainBatch relay (fetchDue w.rows (relay.batchSize.getD 100) now)⟩
  | drops {batch now report} : Move w (.markingUnrouted batch) (.turn (.wrote now))
      ⟨{ w with rows := markDelivered w.rows ((unrouted relay batch).map (·.entry.id)) now },
        drainRows relay batch report⟩
  | delivers {due consumer left failures pass delivery} :
      Move w (.delivering due consumer left failures pass) (.turn (.delivered delivery))
        ⟨w.deliver consumer due.entry.id delivery,
          deliverRow relay due left (failures ++ failuresOf consumer delivery) pass⟩
  | deadLetters {due failure pass} :
      Move w (.deadLettering due failure [] pass) (.turn .deadLettered)
        ⟨{ w with deadLetters := w.deadLetters ++ [letterOf due failure] },
          .marking due .deadLettered pass⟩
  | deadLettersNext {due failure failure' left pass} :
      Move w (.deadLettering due failure (failure' :: left) pass) (.turn .deadLettered)
        ⟨{ w with deadLetters := w.deadLetters ++ [letterOf due failure] },
          .deadLettering due failure' left pass⟩
  | refused {due failure left pass} : Move w (.deadLettering due failure left pass)
      (.turn .refused) ⟨w.cut due.entry.id, .idle none⟩
  | marks {due outcome pass now report} : Move w (.marking due outcome pass) (.turn (.wrote now))
      ⟨{ w with rows := markDelivered w.rows [due.entry.id] now },
        drainRows relay pass.rest report⟩
  | defers {due delayMs pass now report availableAt} :
      Move w (.deferring due delayMs pass) (.turn (.wrote now))
        ⟨{ w with rows := defer w.rows due.entry.id (due.attempts + 1) availableAt },
          drainRows relay pass.rest report⟩
  | crashes {point} : Move w point .crash ⟨w.crash point, .idle none⟩

variable {relay}

theorem step_move {s u : State} {l : Label} (h : Step relay s l u) :
    Move relay s.world s.point l u := by
  obtain ⟨w, point⟩ := s
  cases l with
  | enqueue entry =>
    simp only [Step, next] at h
    split at h
    · rename_i hentry
      cases h
      exact .enqueues hentry.1 hentry.2
    · cases h
  | drainOnce now =>
    cases point with
    | idle last => cases h; exact .drains
    | _ => cases h
  | turn answer =>
    obtain ⟨⟨w', point'⟩, hturn, rfl⟩ := Option.map_eq_some_iff.mp h
    cases point with
    | idle last => cases answer <;> cases hturn
    | markingUnrouted batch => cases answer <;> cases hturn; exact .drops
    | delivering due consumer left failures pass => cases answer <;> cases hturn; exact .delivers
    | deadLettering due failure left pass =>
      cases answer with
      | deadLettered =>
        cases left with
        | nil => cases hturn; exact .deadLetters
        | cons failure' left => cases hturn; exact .deadLettersNext
      | refused => cases hturn; exact .refused
      | _ => cases hturn
    | marking due outcome pass => cases answer <;> cases hturn; exact .marks
    | deferring due delayMs pass => cases answer <;> cases hturn; exact .defers
  | crash => cases h; exact .crashes

@[simp] theorem publish_id (row : Row) (ids : List String) (deliveredAt : ℤ) :
    (row.publish ids deliveredAt).entry.id = row.entry.id := by
  unfold Row.publish
  split <;> rfl

@[simp] theorem publish_topic (row : Row) (ids : List String) (deliveredAt : ℤ) :
    (row.publish ids deliveredAt).entry.topic = row.entry.topic := by
  unfold Row.publish
  split <;> rfl

@[simp] theorem publish_attempts (row : Row) (ids : List String) (deliveredAt : ℤ) :
    (row.publish ids deliveredAt).attempts = row.attempts := by
  unfold Row.publish
  split <;> rfl

variable {ids : List String} {row : Row}

theorem published_cases {deliveredAt : ℤ}
    (h : (row.publish ids deliveredAt).entry.status = .published) :
    row.entry.status = .published ∨ row.entry.id ∈ ids := by
  unfold Row.publish at h
  split at h
  · rename_i hrow
    exact .inr hrow.1
  · exact .inl h

@[simp] theorem await_entry (row : Row) (id : String) (attempts : ℕ) (availableAt : ℤ) :
    (row.await id attempts availableAt).entry = row.entry := by
  unfold Row.await
  split <;> rfl

theorem await_other {id : String} (h : row.entry.id ≠ id) (attempts : ℕ) (availableAt : ℤ) :
    row.await id attempts availableAt = row :=
  if_neg fun hrow => h hrow.1

@[simp] theorem ids_markDelivered (rows : List Row) (ids : List String) (deliveredAt : ℤ) :
    (markDelivered rows ids deliveredAt).map (·.entry.id) = rows.map (·.entry.id) := by
  simp [markDelivered, Function.comp_def]

@[simp] theorem ids_defer (rows : List Row) (id : String) (attempts : ℕ) (availableAt : ℤ) :
    (defer rows id attempts availableAt).map (·.entry.id) = rows.map (·.entry.id) := by
  simp [defer, Function.comp_def]

theorem publish_pending {deliveredAt : ℤ}
    (h : (row.publish ids deliveredAt).entry.status = .pending) :
    row.entry.status = .pending ∧ row.entry.id ∉ ids := by
  unfold Row.publish at h
  split at h
  · cases h
  · rename_i hrow
    exact ⟨h, fun hid => hrow ⟨hid, h⟩⟩

section Deliver

variable (w : World) (consumer : DirectConsumer) (messageId : String) (delivery : Delivery)

theorem deliver_cases :
    w.deliver consumer messageId delivery =
        (w.attempt consumer messageId).effect consumer messageId ∨
      w.deliver consumer messageId delivery = w.attempt consumer messageId ∧
        ∃ error, failuresOf consumer delivery = [⟨consumer, error⟩] := by
  cases delivery with
  | returns => exact .inl rfl
  | throws error effected =>
    cases effected with
    | true => exact .inl rfl
    | false => exact .inr ⟨rfl, error, rfl⟩

theorem attempt_passes_self : (w.attempt consumer messageId).passes consumer messageId =
    (w.passes consumer messageId).insert w.pass := by
  simp [World.attempt]

variable {consumer messageId} in
theorem attempt_passes_other {other : DirectConsumer} {id : String}
    (h : ¬ (other = consumer ∧ id = messageId)) :
    (w.attempt consumer messageId).passes other id = w.passes other id := by
  rw [World.attempt]
  by_cases hother : other = consumer
  · subst hother
    have hid : id ≠ messageId := fun hid => h ⟨rfl, hid⟩
    simp [hid]
  · simp [hother]

theorem effect_same : (w.effect consumer messageId).rows = w.rows ∧
    (w.effect consumer messageId).deadLetters = w.deadLetters ∧
    (w.effect consumer messageId).pass = w.pass ∧
    (w.effect consumer messageId).passes = w.passes ∧
    (w.effect consumer messageId).cutShort = w.cutShort := by
  unfold World.effect
  split
  · exact ⟨rfl, rfl, rfl, rfl, rfl⟩
  · exact ⟨rfl, rfl, rfl, rfl, rfl⟩

theorem deliver_same : (w.deliver consumer messageId delivery).rows = w.rows ∧
    (w.deliver consumer messageId delivery).deadLetters = w.deadLetters ∧
    (w.deliver consumer messageId delivery).pass = w.pass ∧
    (w.deliver consumer messageId delivery).passes = (w.attempt consumer messageId).passes ∧
    (w.deliver consumer messageId delivery).cutShort = w.cutShort := by
  rcases deliver_cases w consumer messageId delivery with h | ⟨h, -⟩
  · rw [h]
    exact effect_same (w.attempt consumer messageId) consumer messageId
  · rw [h]
    exact ⟨rfl, rfl, rfl, rfl, rfl⟩

end Deliver

theorem find?_byTopic (consumers : List DirectConsumer)
    (byTopic : OrderedMap String (List DirectConsumer)) (topic : String) :
    (consumers.foldl (fun byTopic consumer => byTopic.set consumer.topic
      ((byTopic.find? consumer.topic).getD [] ++ [consumer])) byTopic).find? topic =
      if consumers.filter (·.topic = topic) = [] then byTopic.find? topic
      else some ((byTopic.find? topic).getD [] ++ consumers.filter (·.topic = topic)) := by
  induction consumers generalizing byTopic with
  | nil => simp
  | cons consumer rest ih =>
    rw [List.foldl_cons, ih, OrderedMap.find?_set]
    by_cases h : consumer.topic = topic
    · subst h
      by_cases hrest : rest.filter (·.topic = consumer.topic) = []
      · simp [hrest]
      · simp [hrest]
    · simp [h, Ne.symm h]

theorem consumersByTopic_find? (relay : OutboxDeliveryRelay) (topic : String) :
    (consumersByTopic relay).find? topic =
      if relay.consumers.filter (·.topic = topic) = [] then none
      else some (relay.consumers.filter (·.topic = topic)) := by
  rw [consumersByTopic, find?_byTopic]
  simp

end Messaging
