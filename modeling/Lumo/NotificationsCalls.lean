import Lumo.Interleavings
import Lumo.SharedKernel

/-! # The notification

Its statuses, its channels and delivery policy, and the attempts and the history that it keeps. The
domain events and the time of delivery, which no modelled transaction reads, are left out. -/
namespace Notifications

open SharedKernel

inductive NotificationStatus where
  | created
  | queued
  | sent
  | delivered
  | failed
  | retrying
  | dead_letter
  | cancelled
  | expired
  deriving DecidableEq

namespace NotificationStatus

def text : NotificationStatus → String
  | created => "created"
  | queued => "queued"
  | sent => "sent"
  | delivered => "delivered"
  | failed => "failed"
  | retrying => "retrying"
  | dead_letter => "dead_letter"
  | cancelled => "cancelled"
  | expired => "expired"

def transitions : NotificationStatus → List NotificationStatus
  | created => [queued, cancelled]
  | queued => [sent, failed, cancelled]
  | sent => [delivered, failed]
  | delivered => []
  | failed => [retrying, dead_letter, expired]
  | retrying => [sent, failed, dead_letter, expired]
  | dead_letter => []
  | cancelled => []
  | expired => []

/-- A send is dispatched from these two. -/
def due : NotificationStatus → Bool
  | queued | retrying => true
  | _ => false

theorem sent_of_due {status : NotificationStatus} (h : status.due = true) :
    sent ∈ status.transitions := by
  revert h
  cases status <;> decide

theorem not_sent_of_due {status : NotificationStatus} (h : status.due = true) : status ≠ sent := by
  rintro rfl
  cases h

end NotificationStatus

def canTransitionNotification (source target : NotificationStatus) : Bool :=
  source.transitions.contains target

inductive NotificationChannel where
  | email
  | sms
  | push
  | webhook
  | in_app
  deriving DecidableEq

/-- Every channel but `in_app` has a provider. -/
def NotificationChannel.external : NotificationChannel → Bool
  | in_app => false
  | _ => true

structure NotificationTemplate where
  bodyPattern : String
  subjectPattern : Option String

structure RenderedContent where
  body : String
  subject : Option String

/-- The characters of `\w`. -/
def isWordCharacter (c : Char) : Bool := c.isAlphanum || c == '_'

def placeholder (text : List Char) : Option (List Char × List Char) :=
  match text with
  | '{' :: '{' :: rest =>
    match rest.takeWhile isWordCharacter, rest.dropWhile isWordCharacter with
    | c :: key, '}' :: '}' :: after => some (c :: key, after)
    | _, _ => none
  | _ => none

/-- A placeholder without a variable is left as it is. Each step takes a character at least, so
that the length of the text is fuel enough. -/
def substitute (values : List (String × String)) : ℕ → List Char → List Char
  | 0, text => text
  | _ + 1, [] => []
  | fuel + 1, c :: rest =>
    match placeholder (c :: rest) with
    | none => c :: substitute values fuel rest
    | some (key, after) =>
      let replacement := match values.lookup (String.ofList key) with
        | some value => value.toList
        | none => ['{', '{'] ++ key ++ ['}', '}']
      replacement ++ substitute values fuel after

def NotificationTemplate.render (template : NotificationTemplate)
    (values : List (String × String)) : RenderedContent where
  body := String.ofList (substitute values template.bodyPattern.length
    template.bodyPattern.toList)
  subject := template.subjectPattern.map fun pattern =>
    String.ofList (substitute values pattern.length pattern.toList)

/-! Policy, attempts and history. Times are in milliseconds. -/

structure DeliveryPolicy where
  maxAttempts : ℤ
  expiresAt : Option ℤ

namespace DeliveryPolicy

def isExhausted (policy : DeliveryPolicy) (attemptCount : ℕ) : Bool :=
  policy.maxAttempts ≤ attemptCount

def isExpiredAt (policy : DeliveryPolicy) (now : ℤ) : Bool :=
  match policy.expiresAt with
  | some expiresAt => expiresAt ≤ now
  | none => false

end DeliveryPolicy

inductive DeliveryAttemptOutcome where
  | succeeded
  | failed
  deriving DecidableEq

structure DeliveryAttempt where
  id : String
  channel : NotificationChannel
  outcome : DeliveryAttemptOutcome
  occurredAt : ℤ
  providerRef : String

structure NotificationEvent where
  id : String
  status : NotificationStatus
  occurredAt : ℤ

/-- A notification always has a current channel. -/
structure Notification where
  id : String
  customerRef : String
  channels : List NotificationChannel
  channelIndex : ℕ
  channelIndex_lt : channelIndex < channels.length
  template : NotificationTemplate
  values : List (String × String)
  policy : DeliveryPolicy
  status : NotificationStatus
  attempts : List DeliveryAttempt
  history : List NotificationEvent
  version : ℕ

namespace Notification

def currentChannel (notification : Notification) : NotificationChannel :=
  notification.channels.get ⟨notification.channelIndex, notification.channelIndex_lt⟩

def render (notification : Notification) : RenderedContent :=
  notification.template.render notification.values

def moved (notification : Notification) (toStatus : NotificationStatus) (occurredAt : ℤ) :
    Notification :=
  { notification with
    status := toStatus
    history := notification.history ++
      [⟨notification.id ++ toString notification.history.length, toStatus, occurredAt⟩] }

/-- The generic, validated transition. -/
def transition (notification : Notification) (toStatus : NotificationStatus) (occurredAt : ℤ) :
    Except DomainError Notification :=
  if canTransitionNotification notification.status toStatus then
    .ok (notification.moved toStatus occurredAt)
  else
    .error (.businessRule ("Cannot transition notification from \"" ++ notification.status.text ++
      "\" to \"" ++ toStatus.text ++ "\""))

def queue (notification : Notification) (occurredAt : ℤ) : Except DomainError Notification :=
  notification.transition .queued occurredAt

def recordAttempt (notification : Notification) (outcome : DeliveryAttemptOutcome)
    (occurredAt : ℤ) (providerRef : String) : Notification :=
  { notification with
    attempts := notification.attempts ++
      [⟨notification.id ++ toString notification.attempts.length, notification.currentChannel,
        outcome, occurredAt, providerRef⟩] }

def markSent (notification : Notification) (providerRef : String) (occurredAt : ℤ) :
    Except DomainError Notification :=
  (notification.transition .sent occurredAt).map fun sent =>
    sent.recordAttempt .succeeded occurredAt providerRef

def markFailed (notification : Notification) (reason : String) (occurredAt : ℤ) :
    Except DomainError Notification :=
  (notification.transition .failed occurredAt).map fun failed =>
    failed.recordAttempt .failed occurredAt reason

def failedAttempts (notification : Notification) : ℕ :=
  notification.attempts.countP fun attempt => attempt.outcome == .failed

def fallback (notification : Notification) : Notification :=
  if h : notification.channelIndex + 1 < notification.channels.length then
    { notification with channelIndex := notification.channelIndex + 1, channelIndex_lt := h }
  else notification

def retry (notification : Notification) (occurredAt : ℤ) : Except DomainError Notification :=
  if notification.policy.isExpiredAt occurredAt then notification.transition .expired occurredAt
  else if notification.policy.isExhausted notification.failedAttempts then
    notification.transition .dead_letter occurredAt
  else notification.fallback.transition .retrying occurredAt

/-- How many times the notification has entered `queued` or `retrying`. -/
def entries (notification : Notification) : ℕ :=
  notification.history.countP fun event => event.status.due

structure Extends (notification new : Notification) : Prop where
  version : new.version = notification.version
  attempts : notification.attempts <+: new.attempts
  entries : new.entries = notification.entries + if new.status.due then 1 else 0

variable {notification : Notification} {occurredAt : ℤ} {toStatus : NotificationStatus}

theorem transition_ok {new : Notification}
    (h : notification.transition toStatus occurredAt = .ok new) :
    toStatus ∈ notification.status.transitions ∧ new = notification.moved toStatus occurredAt := by
  unfold transition canTransitionNotification at h
  split at h
  · rename_i hto
    exact ⟨List.contains_iff_mem.mp hto, (Except.ok.inj h).symm⟩
  · cases h

theorem transition_of_mem (h : toStatus ∈ notification.status.transitions) (occurredAt : ℤ) :
    notification.transition toStatus occurredAt = .ok (notification.moved toStatus occurredAt) := by
  rw [transition, canTransitionNotification, if_pos (List.contains_iff_mem.mpr h)]

theorem extends_moved (notification : Notification) (toStatus : NotificationStatus)
    (occurredAt : ℤ) : notification.Extends (notification.moved toStatus occurredAt) where
  version := rfl
  attempts := List.prefix_rfl
  entries := by
    change List.countP _ (notification.history ++ [_]) = notification.entries + _
    rw [List.countP_append, List.countP_singleton]
    rfl

theorem Extends.recordAttempt {new : Notification} (h : notification.Extends new)
    (outcome : DeliveryAttemptOutcome) (occurredAt : ℤ) (providerRef : String) :
    notification.Extends (new.recordAttempt outcome occurredAt providerRef) where
  version := h.version
  attempts := h.attempts.trans (List.prefix_append _ _)
  entries := h.entries

theorem extends_of_transition {new : Notification}
    (h : notification.transition toStatus occurredAt = .ok new) : notification.Extends new := by
  obtain ⟨-, rfl⟩ := transition_ok h
  exact extends_moved notification toStatus occurredAt

theorem extends_of_markFailed {new : Notification} {reason : String}
    (h : notification.markFailed reason occurredAt = .ok new) :
    notification.Extends new ∧ new.status = .failed := by
  obtain ⟨failed, hfailed, rfl⟩ := map_eq_ok.mp h
  refine ⟨(extends_of_transition hfailed).recordAttempt .failed occurredAt reason, ?_⟩
  obtain ⟨-, rfl⟩ := transition_ok hfailed
  rfl

theorem extends_of_retry {new : Notification} (h : notification.retry occurredAt = .ok new) :
    notification.Extends new := by
  unfold retry at h
  split at h
  · exact extends_of_transition h
  · split at h
    · exact extends_of_transition h
    · have hfallback := extends_of_transition h
      unfold fallback at hfallback
      split at hfallback
      · exact ⟨hfallback.version, hfallback.attempts, hfallback.entries⟩
      · exact hfallback

/-- A success is recorded on the channel that is current, after the attempts before it. -/
structure MarkedSent (notification new : Notification) : Prop where
  version : new.version = notification.version
  status : new.status = .sent
  entries : new.entries = notification.entries
  attempts : ∃ attempt, new.attempts = notification.attempts ++ [attempt] ∧
    attempt.outcome = .succeeded ∧ attempt.channel = notification.currentChannel

theorem markedSent_of_markSent {new : Notification} {providerRef : String}
    (h : notification.markSent providerRef occurredAt = .ok new) : notification.MarkedSent new := by
  obtain ⟨sent, hsent, rfl⟩ := map_eq_ok.mp h
  have hextends := extends_of_transition hsent
  obtain ⟨-, rfl⟩ := transition_ok hsent
  exact ⟨rfl, rfl, hextends.entries, _, rfl, rfl, rfl⟩

theorem markSent_of_due (h : notification.status.due = true) (providerRef : String) (occurredAt : ℤ) :
    ∃ new, notification.markSent providerRef occurredAt = .ok new := by
  rw [markSent, transition_of_mem (NotificationStatus.sent_of_due h)]
  exact ⟨_, rfl⟩

end Notification

end Notifications

/-! ## Calls on one notification

`QueueNotification`, `SendNotification`, `RetryNotification` and `AdvanceNotification`, turn by
turn. A provider is asked outside every transaction, and delivers one message under a key at most,
and none when it throws. -/
namespace Notifications

open SharedKernel Interleavings

structure ProviderSendRequest where
  recipientRef : String
  subject : Option String
  body : String
  idempotencyKey : String

structure SendPrecheck where
  read : Notification

namespace SendPrecheck

def channel (precheck : SendPrecheck) : NotificationChannel := precheck.read.currentChannel

def request (precheck : SendPrecheck) : ProviderSendRequest where
  recipientRef := precheck.read.customerRef
  subject := precheck.read.render.subject
  body := precheck.read.render.body
  idempotencyKey := precheck.read.id ++ ":attempt:" ++ toString precheck.read.attempts.length

end SendPrecheck

/-- The row, the sends that a provider was asked for, and those it delivered a message for. -/
structure Shared where
  row : Notification
  asked : List SendPrecheck
  messages : List SendPrecheck

inductive Operation where
  | queue
  | retry
  | advance (toStatus : NotificationStatus)

inductive SendResult where
  | succeeded (providerRef : String)
  | failed (reason : String)

inductive Answer where
  | ok (notificationId : String) (status : NotificationStatus)
  | err (e : DomainError)
  | threw (e : DomainError)

/-- Where a call stands. A settle is counted, as it is retried when its save conflicts. -/
inductive Point where
  | calling (operation : Operation)
  | saving (new : Notification)
  | prechecking
  | sending (precheck : SendPrecheck)
  | settling (precheck : SendPrecheck) (result : SendResult) (attempt : ℕ)
  | savingSettled (precheck : SendPrecheck) (result : SendResult) (attempt : ℕ)
      (new : Notification)
  | answered (answer : Answer)

/-- The time of a transaction, or what a provider does. -/
inductive Choice where
  | proceeds (now : ℤ)
  | accepts (providerRef : String) (delivers : Bool)
  | throws (reason : String)

def maxConcurrencyRetries : ℕ := 5

def Operation.apply (now : ℤ) (notification : Notification) :
    Operation → Except DomainError Notification
  | queue => notification.queue now
  | retry => notification.retry now
  | advance toStatus => notification.transition toStatus now

def call (operation : Operation) (now : ℤ) (row : Notification) : Point :=
  match operation.apply now row with
  | .error e => .answered (.err e)
  | .ok new => .saving new

def done (notification : Notification) : Point :=
  .answered (.ok notification.id notification.status)

def conflict (notification : Notification) : Point :=
  .answered (.threw (.concurrency ("Notification " ++ notification.id ++
    " was modified concurrently (expected version " ++ toString notification.version ++ ")")))

/-- Every save goes through this one. -/
def save (new : Notification) (s : Shared) : Option Shared :=
  if s.row.version = new.version then
    some { s with row := { new with version := new.version + 1 } }
  else none

def saveCalled (new : Notification) (s : Shared) : Point × Shared :=
  match save new s with
  | some s' => (done new, s')
  | none => (conflict new, s)

/-- The provider of a channel knows a key that it has delivered a message under. -/
def delivered (precheck : SendPrecheck) (messages : List SendPrecheck) : Bool :=
  messages.any fun message => message.channel == precheck.channel &&
    message.request.idempotencyKey == precheck.request.idempotencyKey

def accept (precheck : SendPrecheck) (providerRef : String) (delivers : Bool) (s : Shared) :
    Point × Shared :=
  (.settling precheck (.succeeded providerRef) 1,
    { s with
      asked := s.asked ++ [precheck]
      messages := if delivers && !delivered precheck s.messages then s.messages ++ [precheck]
        else s.messages })

/-- No provider is asked for `in_app`. -/
def sendViaChannel (precheck : SendPrecheck) (choice : Choice) (s : Shared) :
    Option (Point × Shared) :=
  if precheck.channel.external then
    match choice with
    | .proceeds _ => none
    | .accepts providerRef delivers => some (accept precheck providerRef delivers s)
    | .throws reason =>
      some (.settling precheck (.failed reason) 1, { s with asked := s.asked ++ [precheck] })
  else
    match choice with
    | .proceeds _ => some (.settling precheck (.succeeded "in_app") 1, s)
    | _ => none

/-- `none` when the notification is found as the settle would leave it. -/
def settle (result : SendResult) (now : ℤ) (notification : Notification) :
    Except DomainError (Option Notification) :=
  match result with
  | .succeeded providerRef =>
    if notification.status ≠ .sent then (notification.markSent providerRef now).map some
    else .ok none
  | .failed reason =>
    if notification.status ≠ .failed then (notification.markFailed reason now).map some
    else .ok none

def settleRead (precheck : SendPrecheck) (result : SendResult) (attempt : ℕ) (now : ℤ)
    (row : Notification) : Point :=
  match settle result now row with
  | .error e => .answered (.err e)
  | .ok none => done row
  | .ok (some new) => .savingSettled precheck result attempt new

def saveSettled (precheck : SendPrecheck) (result : SendResult) (attempt : ℕ)
    (new : Notification) (s : Shared) : Point × Shared :=
  match save new s with
  | some s' => (done new, s')
  | none =>
    if attempt < maxConcurrencyRetries then (.settling precheck result (attempt + 1), s)
    else (conflict new, s)

/-- The turn of a call that stands at a point. -/
def turn : Program Shared Point Choice
  | .calling operation, .proceeds now, s => some (call operation now s.row, s)
  | .saving new, .proceeds _, s => some (saveCalled new s)
  | .prechecking, .proceeds _, s => some (.sending ⟨s.row⟩, s)
  | .sending precheck, choice, s => sendViaChannel precheck choice s
  | .settling precheck result attempt, .proceeds now, s =>
    some (settleRead precheck result attempt now s.row, s)
  | .savingSettled precheck result attempt new, .proceeds _, s =>
    some (saveSettled precheck result attempt new s)
  | _, _, _ => none

variable {s s' : Shared} {notification : Notification} {now : ℤ}

theorem save_some {new : Notification} (h : save new s = some s') :
    s.row.version = new.version ∧
      s' = { s with row := { new with version := new.version + 1 } } := by
  unfold save at h
  split at h
  · rename_i hversion
    exact ⟨hversion, (Option.some.inj h).symm⟩
  · cases h

/-- What a settle leaves: the notification marked sent, or marked failed. -/
def Settled (result : SendResult) (notification new : Notification) : Prop :=
  match result with
  | .succeeded _ => notification.MarkedSent new
  | .failed _ => notification.Extends new ∧ new.status = .failed

theorem settled_of_settle {result : SendResult} {new : Notification}
    (h : settle result now notification = .ok (some new)) : Settled result notification new := by
  cases result with
  | succeeded providerRef =>
    simp only [settle] at h
    split at h
    · obtain ⟨marked, hmarked, hnew⟩ := map_eq_ok.mp h
      cases hnew
      exact Notification.markedSent_of_markSent hmarked
    · cases h
  | failed reason =>
    simp only [settle] at h
    split at h
    · obtain ⟨marked, hmarked, hnew⟩ := map_eq_ok.mp h
      cases hnew
      exact Notification.extends_of_markFailed hmarked
    · cases h

theorem settle_of_due (h : notification.status.due = true) (providerRef : String) (now : ℤ) :
    ∃ new, settle (.succeeded providerRef) now notification = .ok (some new) := by
  obtain ⟨new, hnew⟩ := Notification.markSent_of_due h providerRef now
  refine ⟨new, ?_⟩
  rw [settle, if_pos (NotificationStatus.not_sent_of_due h), hnew]
  rfl

theorem extends_of_apply {operation : Operation} {new : Notification}
    (h : operation.apply now notification = .ok new) : notification.Extends new := by
  cases operation with
  | queue => exact Notification.extends_of_transition h
  | retry => exact Notification.extends_of_retry h
  | advance toStatus => exact Notification.extends_of_transition h

/-- Everything a turn can be. -/
inductive Turned (s : Shared) : Point → Choice → Point → Shared → Prop where
  | called {operation new choice} : s.row.Extends new →
      Turned s (.calling operation) choice (.saving new) s
  | refused {operation choice answer} : Turned s (.calling operation) choice (.answered answer) s
  | saved {new choice answer} : s.row.version = new.version →
      Turned s (.saving new) choice (.answered answer)
        { s with row := { new with version := new.version + 1 } }
  | conflicted {new choice answer} : Turned s (.saving new) choice (.answered answer) s
  | prechecked {choice} : Turned s .prechecking choice (.sending ⟨s.row⟩) s
  | internal {precheck result choice} : Turned s (.sending precheck) choice
      (.settling precheck result 1) s
  | delivered {precheck providerRef} : precheck.channel.external = true →
      delivered precheck s.messages = false →
      Turned s (.sending precheck) (.accepts providerRef true)
        (.settling precheck (.succeeded providerRef) 1)
        ⟨s.row, s.asked ++ [precheck], s.messages ++ [precheck]⟩
  | asked {precheck result choice} : precheck.channel.external = true →
      Turned s (.sending precheck) choice (.settling precheck result 1)
        { s with asked := s.asked ++ [precheck] }
  | settled {precheck result attempt new choice} : Settled result s.row new →
      Turned s (.settling precheck result attempt) choice
        (.savingSettled precheck result attempt new) s
  | answered {precheck result attempt choice answer} :
      (∀ providerRef, result = .succeeded providerRef → s.row.status.due = false) →
      Turned s (.settling precheck result attempt) choice (.answered answer) s
  | savedSettled {precheck result attempt new choice answer} : s.row.version = new.version →
      Turned s (.savingSettled precheck result attempt new) choice (.answered answer)
        { s with row := { new with version := new.version + 1 } }
  | retried {precheck result attempt new choice} : s.row.version ≠ new.version →
      Turned s (.savingSettled precheck result attempt new) choice
        (.settling precheck result (attempt + 1)) s
  | gaveUp {precheck result attempt new choice answer} : s.row.version ≠ new.version →
      Turned s (.savingSettled precheck result attempt new) choice (.answered answer) s

theorem save_none {new : Notification} (h : save new s = none) : s.row.version ≠ new.version := by
  intro hversion
  rw [save, if_pos hversion] at h
  cases h

theorem turned_of_call {operation : Operation} {choice : Choice} :
    Turned s (.calling operation) choice (call operation now s.row) s := by
  unfold call
  split
  · exact .refused
  · rename_i new hnew
    exact .called (extends_of_apply hnew)

theorem turned_of_sendViaChannel {precheck : SendPrecheck} {choice : Choice} {k' : Point}
    (h : sendViaChannel precheck choice s = some (k', s')) :
    Turned s (.sending precheck) choice k' s' := by
  unfold sendViaChannel at h
  split at h
  · rename_i hexternal
    cases choice with
    | proceeds now => cases h
    | accepts providerRef delivers =>
      cases h
      by_cases hnew : (delivers && !delivered precheck s.messages) = true
      · rw [if_pos hnew]
        obtain ⟨rfl, hheld⟩ := Bool.and_eq_true_iff.mp hnew
        exact .delivered hexternal (Bool.not_eq_true' _ ▸ hheld)
      · rw [if_neg hnew]
        exact .asked hexternal
    | throws reason =>
      cases h
      exact .asked hexternal
  · cases choice with
    | proceeds now =>
      cases h
      exact .internal
    | _ => cases h

theorem turned_of_settleRead {precheck : SendPrecheck} {result : SendResult} {attempt : ℕ}
    {choice : Choice} :
    Turned s (.settling precheck result attempt) choice
      (settleRead precheck result attempt now s.row) s := by
  have hdue : ∀ x, settle result now s.row = x → (∀ new, x ≠ .ok (some new)) →
      ∀ providerRef, result = .succeeded providerRef → s.row.status.due = false := by
    rintro x hx hnone providerRef rfl
    by_contra h
    obtain ⟨new, hnew⟩ := settle_of_due ((Bool.not_eq_false _).mp h) providerRef now
    exact hnone new (hx.symm.trans hnew)
  unfold settleRead
  split
  · rename_i e he
    exact .answered (hdue _ he (by simp))
  · rename_i he
    exact .answered (hdue _ he (by simp))
  · rename_i new hnew
    exact .settled (settled_of_settle hnew)

theorem turned {k k' : Point} {choice : Choice} (h : turn k choice s = some (k', s')) :
    Turned s k choice k' s' := by
  cases k with
  | calling operation =>
    cases choice with
    | proceeds now =>
      cases h
      exact turned_of_call
    | _ => cases h
  | saving new =>
    cases choice with
    | proceeds now =>
      simp only [turn, saveCalled] at h
      split at h
      · rename_i hsave
        obtain ⟨hversion, rfl⟩ := save_some hsave
        cases h
        exact .saved hversion
      · cases h
        exact .conflicted
    | _ => cases h
  | prechecking =>
    cases choice with
    | proceeds now =>
      cases h
      exact .prechecked
    | _ => cases h
  | sending precheck => exact turned_of_sendViaChannel h
  | settling precheck result attempt =>
    cases choice with
    | proceeds now =>
      cases h
      exact turned_of_settleRead
    | _ => cases h
  | savingSettled precheck result attempt new =>
    cases choice with
    | proceeds now =>
      simp only [turn, saveSettled] at h
      split at h
      · rename_i hsave
        obtain ⟨hversion, rfl⟩ := save_some hsave
        cases h
        exact .savedSettled hversion
      · rename_i hsave
        split at h
        · cases h
          exact .retried (save_none hsave)
        · cases h
          exact .gaveUp (save_none hsave)
    | _ => cases h
  | answered answer => cases h

end Notifications
