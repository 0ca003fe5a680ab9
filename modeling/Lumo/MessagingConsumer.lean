import Lumo.Interleavings
import Lumo.KafkaConsumer
import Lumo.MessagingOutbox

/-! # The atomic path of the consumers

Deliveries to the two consumers of one group, whose handler writes in the transaction that records
the processed marker. A delivery stands before one of its calls at a time. Log lines, metrics and
the delays between attempts are not modelled. -/
namespace Consumers

open Interleavings

/-- What is thrown. The first is the error that the consumers throw themselves where the marker is
there. -/
inductive Thrown where
  | duplicateProcessedEvent (messageId : String)
  | other (message : String)

def errorMessage : Thrown → String
  | .duplicateProcessedEvent messageId =>
    "integration event " ++ messageId ++ " was concurrently processed twice"
  | .other message => message

structure DeadLetterEntry where
  messageId : String
  topic : String
  value : Kafka.Bytes
  headers : Kafka.Headers
  attempts : ℕ
  error : String
  failedAt : ℕ
  deriving DecidableEq

/-- What has been committed: the processed markers, the effects of the handler, the dead letters
and the copies on the retry topic. -/
structure Store where
  processed : List String
  effects : String → ℕ
  deadLetters : List DeadLetterEntry
  retries : List Kafka.Copy

def Store.empty : Store := ⟨[], fun _ => 0, [], []⟩

/-- How a call ends. One that throws may have been carried out. -/
inductive Choice where
  | proceeds (now : ℕ)
  | throws (error : Thrown) (landed : Bool) (now : ℕ)

def Choice.now : Choice → ℕ
  | proceeds now => now
  | throws _ _ now => now

/-- Before `handleAtomic`, before `recordIfNew`, before the commit. -/
inductive Transaction where
  | handling
  | marking
  | committing
  deriving DecidableEq

inductive Ran where
  | goesOn (tx : Transaction)
  | returned
  | threw (error : Thrown)

/-- The effect and the marker are committed together. -/
def Store.commit (store : Store) (messageId : String) : Store :=
  { store with
    processed := messageId :: store.processed
    effects := Function.update store.effects messageId (store.effects messageId + 1) }

/-- `unitOfWork.run`. Two transactions may both insert the marker, but only one of them can
commit it. -/
def Transaction.turn (messageId : String) (choice : Choice) (store : Store) :
    Transaction → Ran × Store
  | .handling =>
    match choice with
    | .proceeds _ => (.goesOn .marking, store)
    | .throws error _ _ => (.threw error, store)
  | .marking =>
    match choice with
    | .proceeds _ =>
      if messageId ∈ store.processed then (.threw (.duplicateProcessedEvent messageId), store)
      else (.goesOn .committing, store)
    | .throws error _ _ => (.threw error, store)
  | .committing =>
    match choice with
    | .proceeds _ =>
      if messageId ∈ store.processed then (.threw (.other "Unique constraint failed"), store)
      else (.returned, store.commit messageId)
    | .throws error landed _ =>
      if landed = true ∧ messageId ∉ store.processed then (.threw error, store.commit messageId)
      else (.threw error, store)

/-- The consumers of a group. The retry policy of `EventConsumer` is its number of attempts. -/
structure Deps where
  fleet : Kafka.Fleet
  group : String
  maxAttempts : ℕ

/-- A call of `EventConsumer.consume`, or of `handleMessage` or `deliver` of the runtime. -/
inductive Delivery where
  | consume (message : Messaging.IncomingMessage)
  | handleMessage (copy : Kafka.Copy)
  | deliver (message : Messaging.IncomingMessage)

inductive Position where
  | fetched
  | checking (messageId : String)
  | running (messageId : String) (attempt : ℕ) (tx : Transaction)
  | sleeping (messageId : String) (attempt : ℕ)
  | burying (entry : DeadLetterEntry)
  | retrying (retry : Kafka.Copy)
  | acknowledged
  | rejected
  deriving DecidableEq

structure Point where
  delivery : Delivery
  position : Position

def Delivery.envelope (deps : Deps) : Delivery → Option Kafka.Envelope
  | consume message => Kafka.decode deps.fleet deps.group message.headers message.value
  | handleMessage copy => copy.envelope deps.fleet deps.group
  | deliver message => Kafka.decode deps.fleet deps.group message.headers message.value

def Delivery.isReady (now : ℕ) : Delivery → Bool
  | consume _ => true
  | handleMessage copy => decide (Kafka.isDue copy now)
  | deliver _ => true

def addRow (letter : Kafka.DeadLetter) (failedAt : ℕ) : DeadLetterEntry where
  messageId := letter.messageId
  topic := letter.originalTopic
  value := letter.value
  headers := letter.headers
  attempts := letter.attempts
  error := letter.error
  failedAt := failedAt

/-- What follows a failure: `EventConsumer` goes on with its loop, `handleMessage` schedules a
retry or a dead letter, and `deliver` throws. -/
def caught (deps : Deps) (messageId : String) (attempt : ℕ) (error : Thrown) (now : ℕ) :
    Delivery → Position
  | .consume message =>
    if deps.maxAttempts ≤ attempt then
      .burying {
        messageId := messageId
        topic := message.topic
        value := message.value
        headers := message.headers
        attempts := attempt
        error := errorMessage error
        failedAt := now }
    else .sleeping messageId attempt
  | .handleMessage copy =>
    match Kafka.scheduleRetryOrDeadLetter deps.fleet deps.group copy messageId
      (errorMessage error) now with
    | .error _ => .rejected
    | .ok (.deadLetter letter) => .burying (addRow letter now)
    | .ok (.retry retry) => .retrying retry
  | .deliver _ => .rejected

def afterRun (deps : Deps) (delivery : Delivery) (messageId : String) (attempt now : ℕ) :
    Ran → Position
  | .goesOn tx => .running messageId attempt tx
  | .returned => .acknowledged
  | .threw (.duplicateProcessedEvent _) => .acknowledged
  | .threw (.other message) => caught deps messageId attempt (.other message) now delivery

def turn (deps : Deps) : Program Store Point Choice := fun point choice store =>
  match point.position with
  | .fetched =>
    match choice with
    | .proceeds now =>
      if point.delivery.isReady now then
        match point.delivery.envelope deps with
        | none => some (⟨point.delivery, .rejected⟩, store)
        | some envelope => some (⟨point.delivery, .checking envelope.messageId⟩, store)
      else none
    | .throws _ _ _ => some (⟨point.delivery, .rejected⟩, store)
  | .checking messageId =>
    match choice with
    | .proceeds _ =>
      if messageId ∈ store.processed then some (⟨point.delivery, .acknowledged⟩, store)
      else some (⟨point.delivery, .running messageId 1 .handling⟩, store)
    | .throws _ _ _ => some (⟨point.delivery, .rejected⟩, store)
  | .running messageId attempt tx =>
    some (⟨point.delivery,
      afterRun deps point.delivery messageId attempt choice.now (tx.turn messageId choice store).1⟩,
      (tx.turn messageId choice store).2)
  | .sleeping messageId attempt =>
    match choice with
    | .proceeds _ => some (⟨point.delivery, .running messageId (attempt + 1) .handling⟩, store)
    | .throws _ _ _ => some (⟨point.delivery, .rejected⟩, store)
  | .burying entry =>
    match choice with
    | .proceeds _ => some (⟨point.delivery, .acknowledged⟩,
        { store with deadLetters := store.deadLetters ++ [entry] })
    | .throws _ true _ => some (⟨point.delivery, .rejected⟩,
        { store with deadLetters := store.deadLetters ++ [entry] })
    | .throws _ false _ => some (⟨point.delivery, .rejected⟩, store)
  | .retrying retry =>
    match choice with
    | .proceeds _ => some (⟨point.delivery, .acknowledged⟩,
        { store with retries := store.retries ++ [retry] })
    | .throws _ true _ => some (⟨point.delivery, .rejected⟩,
        { store with retries := store.retries ++ [retry] })
    | .throws _ false _ => some (⟨point.delivery, .rejected⟩, store)
  | .acknowledged => none
  | .rejected => none

variable {ι : Type}

/-- Any number of deliveries, none of which has begun. -/
structure Opening (s : State Store Point ι) : Prop where
  shared : s.shared = .empty
  fetched : ∀ c, ∃ delivery, s.processes c = .live ⟨delivery, .fetched⟩

end Consumers

/-! ## One effect for each message

The marker that is committed with the effect tells every other delivery that there is one. -/
namespace Consumers

open Interleavings LabelledRuns

variable {ι : Type}

def EffectOnce (s : State Store Point ι) : Prop := ∀ messageId, s.shared.effects messageId ≤ 1

def Settled (store : Store) (messageId : String) : Prop :=
  0 < store.effects messageId ∨ ∃ entry ∈ store.deadLetters, entry.messageId = messageId

def Retried (deps : Deps) (store : Store) (delivery : Delivery) : Prop :=
  ∃ copy, delivery = .handleMessage copy ∧
    ∃ retry ∈ store.retries, Kafka.Follows deps.fleet deps.group copy retry

def AcksSettled (deps : Deps) (s : State Store Point ι) : Prop :=
  ∀ c, (s.processes c).point.position = .acknowledged →
    ∃ envelope, (s.processes c).point.delivery.envelope deps = some envelope ∧
      Settled s.shared envelope.messageId

def AcksAccounted (deps : Deps) (s : State Store Point ι) : Prop :=
  ∀ c, (s.processes c).point.position = .acknowledged →
    ∃ envelope, (s.processes c).point.delivery.envelope deps = some envelope ∧
      (Settled s.shared envelope.messageId ∨
        Retried deps s.shared (s.processes c).point.delivery)

/-- No call of the step throws a `DuplicateProcessedEventError` of its own. -/
def LeavesMarker : Label Choice ι → Prop
  | .turn _ (.throws (.duplicateProcessedEvent _) _ _) => False
  | _ => True

instance (l : Label Choice ι) : Decidable (LeavesMarker l) := by
  unfold LeavesMarker
  split <;> infer_instance

section Invariant

variable {deps : Deps} {store store' : Store} {messageId : String} {tx : Transaction}
  {choice : Choice} {delivery : Delivery} {point point' : Point}

/-- There is one effect where the marker is, and none elsewhere. -/
def Counted (store : Store) : Prop :=
  ∀ messageId, store.effects messageId = if messageId ∈ store.processed then 1 else 0

theorem Counted.commit (h : Counted store) (hnew : messageId ∉ store.processed) :
    Counted (store.commit messageId) := by
  intro id
  by_cases hid : id = messageId
  · subst hid
    simp [Store.commit, h id, hnew]
  · simp [Store.commit, hid, h id]

theorem Counted.settled (h : Counted store) (hmem : messageId ∈ store.processed) :
    Settled store messageId := by
  refine .inl ?_
  rw [h messageId, if_pos hmem]
  exact Nat.one_pos

structure Grown (store store' : Store) : Prop where
  effects : ∀ messageId, store.effects messageId ≤ store'.effects messageId
  deadLetters : store.deadLetters ⊆ store'.deadLetters
  retries : store.retries ⊆ store'.retries

theorem Grown.refl (store : Store) : Grown store store :=
  ⟨fun _ => Nat.le_refl _, List.Subset.refl _, List.Subset.refl _⟩

theorem grown_commit (store : Store) (messageId : String) :
    Grown store (store.commit messageId) := by
  refine ⟨fun id => ?_, List.Subset.refl _, List.Subset.refl _⟩
  by_cases hid : id = messageId
  · subst hid
    simp [Store.commit]
  · simp [Store.commit, hid]

theorem Settled.grown (h : Settled store messageId) (hgrown : Grown store store') :
    Settled store' messageId := by
  rcases h with heffect | ⟨entry, hentry, hid⟩
  · exact .inl (Nat.lt_of_lt_of_le heffect (hgrown.effects messageId))
  · exact .inr ⟨entry, hgrown.deadLetters hentry, hid⟩

theorem Retried.grown (h : Retried deps store delivery) (hgrown : Grown store store') :
    Retried deps store' delivery := by
  obtain ⟨copy, hdelivery, retry, hretry, hfollows⟩ := h
  exact ⟨copy, hdelivery, retry, hgrown.retries hretry, hfollows⟩

theorem transaction_store (tx : Transaction) (messageId : String) (choice : Choice)
    (store : Store) : (tx.turn messageId choice store).2 = store ∨
      messageId ∉ store.processed ∧
        (tx.turn messageId choice store).2 = store.commit messageId := by
  cases tx with
  | handling => cases choice <;> exact .inl rfl
  | marking =>
    cases choice with
    | proceeds now =>
      dsimp only [Transaction.turn]
      split <;> exact .inl rfl
    | throws error landed now => exact .inl rfl
  | committing =>
    cases choice with
    | proceeds now =>
      dsimp only [Transaction.turn]
      split
      · exact .inl rfl
      · rename_i hnew
        exact .inr ⟨hnew, rfl⟩
    | throws error landed now =>
      dsimp only [Transaction.turn]
      split
      · rename_i hlanded
        exact .inr ⟨hlanded.2, rfl⟩
      · exact .inl rfl

theorem returned_commit (h : (tx.turn messageId choice store).1 = .returned) :
    (tx.turn messageId choice store).2 = store.commit messageId := by
  cases tx with
  | handling => cases choice <;> cases h
  | marking =>
    cases choice with
    | proceeds now =>
      dsimp only [Transaction.turn] at h
      split at h <;> cases h
    | throws error landed now => cases h
  | committing =>
    cases choice with
    | proceeds now =>
      dsimp only [Transaction.turn] at h ⊢
      split at h
      · cases h
      · rename_i hnew
        rw [if_neg hnew]
    | throws error landed now =>
      dsimp only [Transaction.turn] at h
      split at h <;> cases h

theorem duplicate_processed {id : String}
    (h : (tx.turn messageId choice store).1 = .threw (.duplicateProcessedEvent id))
    (hleaves : ∀ id landed now, choice ≠ .throws (.duplicateProcessedEvent id) landed now) :
    messageId ∈ store.processed ∧ (tx.turn messageId choice store).2 = store := by
  cases tx with
  | handling =>
    cases choice with
    | proceeds now => cases h
    | throws error landed now =>
      cases h
      exact absurd rfl (hleaves _ _ _)
  | marking =>
    cases choice with
    | proceeds now =>
      dsimp only [Transaction.turn] at h ⊢
      split at h
      · rename_i hmem
        rw [if_pos hmem]
        exact ⟨hmem, rfl⟩
      · cases h
    | throws error landed now =>
      cases h
      exact absurd rfl (hleaves _ _ _)
  | committing =>
    cases choice with
    | proceeds now =>
      dsimp only [Transaction.turn] at h
      split at h <;> cases h
    | throws error landed now =>
      dsimp only [Transaction.turn] at h
      split at h <;> cases h <;> exact absurd rfl (hleaves _ _ _)

theorem grown_transaction (tx : Transaction) (messageId : String) (choice : Choice)
    (store : Store) : Grown store (tx.turn messageId choice store).2 := by
  rcases transaction_store tx messageId choice store with hsame | ⟨-, hcommit⟩
  · rw [hsame]
    exact Grown.refl store
  · rw [hcommit]
    exact grown_commit store messageId

/-- What a delivery has behind it. -/
def Stands (deps : Deps) (store : Store) (point : Point) : Prop :=
  match point.position with
  | .fetched => True
  | .checking messageId => point.delivery.envelope deps = some ⟨messageId⟩
  | .running messageId _ _ => point.delivery.envelope deps = some ⟨messageId⟩
  | .sleeping messageId _ => point.delivery.envelope deps = some ⟨messageId⟩
  | .burying entry => point.delivery.envelope deps = some ⟨entry.messageId⟩
  | .retrying retry => (∃ envelope, point.delivery.envelope deps = some envelope) ∧
      ∃ copy, point.delivery = .handleMessage copy ∧
        Kafka.Follows deps.fleet deps.group copy retry
  | .acknowledged => ∃ envelope, point.delivery.envelope deps = some envelope ∧
      (Settled store envelope.messageId ∨ Retried deps store point.delivery)
  | .rejected => True

theorem Stands.grown (h : Stands deps store point) (hgrown : Grown store store') :
    Stands deps store' point := by
  obtain ⟨delivery, position⟩ := point
  cases position with
  | acknowledged =>
    obtain ⟨envelope, henvelope, haccounted⟩ := h
    exact ⟨envelope, henvelope, haccounted.imp (fun hsettled => hsettled.grown hgrown)
      fun hretried => hretried.grown hgrown⟩
  | _ => exact h

theorem schedule_letter {copy : Kafka.Copy} {error : String} {now : ℕ} {letter : Kafka.DeadLetter}
    (h : Kafka.scheduleRetryOrDeadLetter deps.fleet deps.group copy messageId error now =
      .ok (.deadLetter letter)) : letter.messageId = messageId := by
  unfold Kafka.scheduleRetryOrDeadLetter at h
  dsimp only at h
  split at h
  · cases h
    rfl
  · cases hdelay : Kafka.delayForAttempt (deps.fleet.schedule deps.group) (copy.attempt + 1) with
    | error e | ok delay =>
      rw [hdelay] at h
      cases h

theorem stands_caught (henvelope : delivery.envelope deps = some ⟨messageId⟩) (attempt : ℕ)
    (error : Thrown) (now : ℕ) :
    Stands deps store ⟨delivery, caught deps messageId attempt error now delivery⟩ := by
  cases delivery with
  | consume message =>
    unfold caught
    dsimp only
    split
    · exact henvelope
    · exact henvelope
  | handleMessage copy =>
    unfold caught
    dsimp only
    split
    · trivial
    · rename_i letter hscheduled
      change _ = some (Kafka.Envelope.mk letter.messageId)
      rw [schedule_letter hscheduled]
      exact henvelope
    · rename_i retry hscheduled
      refine ⟨⟨_, henvelope⟩, copy, rfl, ?_⟩
      rcases Kafka.schedule_cases deps.fleet deps.group copy messageId (errorMessage error) now
        with ⟨-, letter, -, hletter⟩ | ⟨-, retry', hfollows, hretry⟩
      · rw [hletter] at hscheduled
        cases hscheduled
      · rw [hretry] at hscheduled
        cases hscheduled
        exact hfollows
  | deliver message => trivial

theorem stands_afterRun (hcounted : Counted store)
    (henvelope : delivery.envelope deps = some ⟨messageId⟩) (attempt : ℕ)
    (hleaves : ∀ id landed now, choice ≠ .throws (.duplicateProcessedEvent id) landed now) :
    Stands deps (tx.turn messageId choice store).2
      ⟨delivery, afterRun deps delivery messageId attempt choice.now
        (tx.turn messageId choice store).1⟩ := by
  cases hran : (tx.turn messageId choice store).1 with
  | goesOn tx' => exact henvelope
  | returned =>
    rw [returned_commit hran]
    exact ⟨_, henvelope, .inl (.inl (by simp [Store.commit]))⟩
  | threw error =>
    cases error with
    | duplicateProcessedEvent id =>
      obtain ⟨hmem, hsame⟩ := duplicate_processed hran hleaves
      rw [hsame]
      exact ⟨_, henvelope, .inl (hcounted.settled hmem)⟩
    | other message => exact stands_caught henvelope attempt _ _

/-- A turn leaves the store as it is, or adds to it. -/
theorem turn_grown (h : turn deps point choice store = some (point', store')) :
    Grown store store' ∧ (Counted store → Counted store') := by
  obtain ⟨delivery, position⟩ := point
  have hsame : store' = store → Grown store store' ∧ (Counted store → Counted store') := by
    rintro rfl
    exact ⟨Grown.refl _, id⟩
  cases position with
  | fetched =>
    cases choice with
    | proceeds now =>
      simp only [turn] at h
      split at h
      · split at h <;> cases h <;> exact hsame rfl
      · cases h
    | throws error landed now => cases h; exact hsame rfl
  | checking id =>
    cases choice with
    | proceeds now =>
      simp only [turn] at h
      split at h <;> cases h <;> exact hsame rfl
    | throws error landed now => cases h; exact hsame rfl
  | running id attempt tx =>
    cases h
    refine ⟨grown_transaction tx id choice store, fun hcounted => ?_⟩
    rcases transaction_store tx id choice store with hstore | ⟨hnew, hstore⟩
    · rw [hstore]
      exact hcounted
    · rw [hstore]
      exact hcounted.commit hnew
  | sleeping id attempt => cases choice <;> cases h <;> exact hsame rfl
  | burying entry =>
    have hadded : Grown store { store with deadLetters := store.deadLetters ++ [entry] } :=
      ⟨fun _ => Nat.le_refl _, List.subset_append_left _ _, List.Subset.refl _⟩
    cases choice with
    | proceeds now => cases h; exact ⟨hadded, id⟩
    | throws error landed now =>
      cases landed with
      | true => cases h; exact ⟨hadded, id⟩
      | false => cases h; exact hsame rfl
  | retrying retry =>
    have hadded : Grown store { store with retries := store.retries ++ [retry] } :=
      ⟨fun _ => Nat.le_refl _, List.Subset.refl _, List.subset_append_left _ _⟩
    cases choice with
    | proceeds now => cases h; exact ⟨hadded, id⟩
    | throws error landed now =>
      cases landed with
      | true => cases h; exact ⟨hadded, id⟩
      | false => cases h; exact hsame rfl
  | acknowledged | rejected => cases h

theorem turn_stands (h : turn deps point choice store = some (point', store'))
    (hcounted : Counted store) (hstands : Stands deps store point)
    (hleaves : ∀ id landed now, choice ≠ .throws (.duplicateProcessedEvent id) landed now) :
    Stands deps store' point' := by
  obtain ⟨delivery, position⟩ := point
  cases position with
  | fetched =>
    cases choice with
    | proceeds now =>
      simp only [turn] at h
      split at h
      · split at h
        · cases h
          trivial
        · rename_i envelope henvelope
          cases h
          exact henvelope
      · cases h
    | throws error landed now =>
      cases h
      trivial
  | checking id =>
    cases choice with
    | proceeds now =>
      simp only [turn] at h
      split at h
      · rename_i hmem
        cases h
        exact ⟨_, hstands, .inl (hcounted.settled hmem)⟩
      · cases h
        exact hstands
    | throws error landed now =>
      cases h
      trivial
  | running id attempt tx =>
    cases h
    exact stands_afterRun hcounted hstands attempt hleaves
  | sleeping id attempt =>
    cases choice with
    | proceeds now =>
      cases h
      exact hstands
    | throws error landed now =>
      cases h
      trivial
  | burying entry =>
    cases choice with
    | proceeds now =>
      cases h
      refine ⟨_, hstands, .inl (.inr ⟨entry, ?_, rfl⟩)⟩
      exact List.mem_append_right _ (List.mem_singleton_self _)
    | throws error landed now => cases landed <;> cases h <;> trivial
  | retrying retry =>
    cases choice with
    | proceeds now =>
      cases h
      obtain ⟨⟨envelope, henvelope⟩, copy, hdelivery, hfollows⟩ := hstands
      refine ⟨envelope, henvelope, .inr ⟨copy, hdelivery, retry, ?_, hfollows⟩⟩
      exact List.mem_append_right _ (List.mem_singleton_self _)
    | throws error landed now => cases landed <;> cases h <;> trivial
  | acknowledged | rejected => cases h

end Invariant

section Runs

variable [DecidableEq ι] {deps : Deps} {s u : State Store Point ι} {l : Label Choice ι}

theorem step_counted (h : Counted s.shared) (hst : Step (turn deps) s l u) : Counted u.shared := by
  cases step_move hst with
  | turn hc hk => exact (turn_grown hk).2 h
  | crash hc => exact h

theorem step_stands (h : Holds Counted (Stands deps) s) (hst : Step (turn deps) s l u)
    (hleaves : LeavesMarker l) : Holds Counted (Stands deps) u := by
  refine h.step_of (fun c choice hl k k' store' hcounted hstands hk => ?_) hst
  subst hl
  obtain ⟨hgrown, hkeeps⟩ := turn_grown hk
  refine ⟨hkeeps hcounted, turn_stands hk hcounted hstands ?_, fun _ hother =>
    hother.grown hgrown⟩
  rintro id landed now rfl
  exact hleaves

omit [DecidableEq ι] in
theorem opening_stands (h : Opening s) : Holds Counted (Stands deps) s := by
  refine ⟨fun messageId => ?_, fun c => ?_⟩
  · rw [h.shared]
    rfl
  · obtain ⟨delivery, hc⟩ := h.fetched c
    rw [hc]
    trivial

/-- In every run an effect is committed at most once, and a delivery is acknowledged only with the
effect, the dead letter or, in the runtime, the retry behind it. -/
theorem run_oneEffect (deps : Deps) {tr : List (Label Choice ι × State Store Point ι)}
    (hopen : Opening s) (hr : Run (Step (turn deps)) s tr) :
    Always EffectOnce s tr ∧ (EveryStep (fun _ l => LeavesMarker l) s tr →
      Always (AcksAccounted deps) s tr) := by
  have hstands : Holds Counted (Stands deps) s := opening_stands hopen
  constructor
  · have hcounted := always_of_invariant (I := fun s => Counted s.shared)
      (fun _ _ _ h hst => step_counted h hst) hstands.shared hr
    refine hcounted.mono fun s hs messageId => ?_
    rw [hs messageId]
    split
    · exact Nat.le_refl 1
    · exact Nat.zero_le 1
  · intro hleaves
    have hall := always_of_everyStep (I := Holds Counted (Stands deps))
      (G := fun _ l => LeavesMarker l) (fun _ _ _ h hst hl => step_stands h hst hl) hstands hr
      hleaves
    refine hall.mono fun s hs c hacked => ?_
    have hpoint := hs.points c
    rw [Stands, hacked] at hpoint
    exact hpoint

end Runs

section Samples

private def sampleDeps : Deps where
  fleet := ⟨"orders.order.paid.v1", ["finance.orders-paid"], by simp, fun _ _ => some ⟨"m1"⟩,
    fun _ => ⟨[5000]⟩⟩
  group := "finance.orders-paid"
  maxAttempts := 1

private def sampleMessage : Messaging.IncomingMessage :=
  ⟨"orders.order.paid.v1", "order-1", [], .empty⟩

private def fetched (delivery : Delivery) : State Store Point Bool where
  shared := .empty
  processes _ := .live ⟨delivery, .fetched⟩

private theorem fetched_opening (delivery : Delivery) : Opening (fetched delivery) :=
  ⟨rfl, fun _ => ⟨delivery, rfl⟩⟩

/-- Both pass the pre-check, and both insert the marker; one of them commits it. -/
private def raced : List (Label Choice Bool) :=
  [.turn true (.proceeds 0), .turn false (.proceeds 0), .turn true (.proceeds 0),
    .turn false (.proceeds 0), .turn true (.proceeds 0), .turn false (.proceeds 0),
    .turn true (.proceeds 0), .turn false (.proceeds 0), .turn true (.proceeds 0),
    .turn false (.proceeds 0), .turn false (.proceeds 0)]

private def run (delivery : Delivery) (labels : List (Label Choice Bool)) :
    List (Label Choice Bool × State Store Point Bool) :=
  attempt (next (turn sampleDeps)) (fetched delivery) labels

theorem run_oneEffect_raced :
    Always EffectOnce (fetched (.consume sampleMessage)) (run (.consume sampleMessage) raced) ∧
      Always (AcksAccounted sampleDeps) (fetched (.consume sampleMessage))
        (run (.consume sampleMessage) raced) := by
  have hboth := run_oneEffect sampleDeps (fetched_opening (.consume sampleMessage))
    (run_attempt (next (turn sampleDeps)) (fetched (.consume sampleMessage)) raced)
  exact ⟨hboth.1, hboth.2 (by decide)⟩

private theorem not_settled {store : Store} {messageId : String}
    (heffects : store.effects = fun _ => 0) (hletters : store.deadLetters = []) :
    ¬ Settled store messageId := by
  rintro (heffect | ⟨entry, hentry, -⟩)
  · rw [heffects] at heffect
    exact Nat.lt_irrefl 0 heffect
  · rw [hletters] at hentry
    cases hentry

private def sampleCopy : Kafka.Copy := ⟨.main, some "order-1", some [], .empty⟩

private def fails (error : Thrown) : List (Label Choice Bool) :=
  [.turn true (.proceeds 0), .turn true (.proceeds 0), .turn true (.throws error false 0),
    .turn true (.proceeds 0)]

/-- The runtime acknowledges what it has scheduled for a retry, and a handler that throws the error
of the marker has its message acknowledged. -/
theorem oneEffect_fails :
    (¬ ∀ (deps : Deps) (s : State Store Point Bool)
      (tr : List (Label Choice Bool × State Store Point Bool)), Opening s →
      Run (Step (turn deps)) s tr → EveryStep (fun _ l => LeavesMarker l) s tr →
        Always (fun s => EffectOnce s ∧ AcksSettled deps s) s tr) ∧
    ¬ ∀ (deps : Deps) (s : State Store Point Bool)
      (tr : List (Label Choice Bool × State Store Point Bool)), Opening s →
      Run (Step (turn deps)) s tr →
      (∀ c, ∃ message, s.processes c = .live ⟨.consume message, .fetched⟩) →
        Always (fun s => EffectOnce s ∧ AcksSettled deps s) s tr := by
  constructor
  · intro h
    have hlast := (h sampleDeps (fetched (.handleMessage sampleCopy))
      (run (.handleMessage sampleCopy) (fails (.other "handler down"))) (fetched_opening _)
      (run_attempt _ _ _) (by decide)).last.2 true (by decide +kernel)
    obtain ⟨envelope, -, hsettled⟩ := hlast
    exact not_settled rfl (by decide +kernel) hsettled
  · intro h
    have hlast := (h sampleDeps (fetched (.consume sampleMessage))
      (run (.consume sampleMessage) (fails (.duplicateProcessedEvent "m1"))) (fetched_opening _)
      (run_attempt _ _ _) fun _ => ⟨sampleMessage, rfl⟩).last.2 true (by decide +kernel)
    obtain ⟨envelope, -, hsettled⟩ := hlast
    exact not_settled rfl (by decide +kernel) hsettled

end Samples

end Consumers
