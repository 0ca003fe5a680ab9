import Lumo.Builtins
import Lumo.LabelledRuns
import Lumo.OrderedMap
import Mathlib.Algebra.BigOperators.Group.List.Basic

/-! # The consumer runtime

What one consumer group makes of one delivery: the headers that carry a retry, the schedule, and
the retry or the dead letter that follows a failure. Metrics, log lines and the forensic headers
of the dead-letter topic, which nothing reads back, are not modelled. -/
namespace Kafka

open Builtins

abbrev Bytes := List UInt8

abbrev Headers := OrderedMap String String

inductive HeaderValue where
  | undefined
  | text (value : String)
  | many (values : List String)
  deriving DecidableEq

def decodeHeaderBag (headers : OrderedMap String HeaderValue) : Headers :=
  .ofEntries <| headers.entries.filterMap fun (name, value) =>
    match value with
    | .undefined => none
    | .text value => some (name, value)
    | .many values => some (name, values.head?.getD "")

structure RetryHeaders where
  attempt : ℕ
  dueAtMs : ℚ
  originalTopic : String
  consumerGroup : String

def encodeRetryHeaders (attempt dueAtMs : ℕ) (originalTopic consumerGroup : String) : Headers :=
  .ofEntries [
    ("x-retry-attempt", toString attempt),
    ("x-retry-due-at", toString dueAtMs),
    ("x-retry-original-topic", originalTopic),
    ("x-retry-consumer-group", consumerGroup)]

def decodeRetryHeaders (headers : Headers) : Option RetryHeaders := do
  let attempt ← (headers.find? "x-retry-attempt").bind number
  if ¬ isInteger attempt ∨ attempt < 1 then none
  let dueAtMs ← (headers.find? "x-retry-due-at").bind number
  let originalTopic ← headers.find? "x-retry-original-topic"
  let consumerGroup ← headers.find? "x-retry-consumer-group"
  return ⟨attempt.num.toNat, dueAtMs, originalTopic, consumerGroup⟩

def traceHeaderNames : List String := ["traceparent", "tracestate", "baggage"]

def traceHeaders (headers : Headers) : Headers :=
  .ofEntries <| traceHeaderNames.filterMap fun name =>
    (headers.find? name).map fun value => (name, value)

structure RetrySchedule where
  delaysMs : List ℕ

def defaultRetrySchedule : RetrySchedule := ⟨[5000, 30000, 120000, 600000, 3600000]⟩

def maxAttempts (schedule : RetrySchedule) : ℕ := schedule.delaysMs.length

def delayForAttempt (schedule : RetrySchedule) (attempt : ℕ) : Except String ℕ :=
  match schedule.delaysMs[attempt - 1]? with
  | none => .error ("RetrySchedule: attempt " ++ toString attempt ++ " exceeds max " ++
      toString (maxAttempts schedule))
  | some delay => .ok delay

theorem delayForAttempt_ok {schedule : RetrySchedule} {attempt : ℕ}
    (h : attempt + 1 ≤ maxAttempts schedule) :
    ∃ delay, delayForAttempt schedule (attempt + 1) = .ok delay := by
  have hlt : attempt < schedule.delaysMs.length := h
  rw [delayForAttempt, Nat.add_sub_cancel, List.getElem?_eq_getElem hlt]
  exact ⟨_, rfl⟩

structure SerializedEnvelope where
  type : String
  eventVersion : Option ℚ
  contentType : String
  data : Bytes

structure Envelope where
  messageId : String
  deriving DecidableEq

/-- The consumer groups of one topic, each with its serializer and its schedule. The serializer
yields nothing where it throws. -/
structure Fleet where
  topic : String
  groups : List String
  distinct : groups.Nodup
  deserialize : String → SerializedEnvelope → Option Envelope
  schedule : String → RetrySchedule

inductive Topic where
  | main
  | retry
  deriving DecidableEq

structure Copy where
  topic : Topic
  key : Option String
  value : Option Bytes
  headers : OrderedMap String HeaderValue
  deriving DecidableEq

structure DeadLetter where
  originalTopic : String
  consumerGroup : String
  messageId : String
  key : String
  value : Bytes
  headers : Headers
  attempts : ℕ
  error : String

def Copy.bag (copy : Copy) : Headers := decodeHeaderBag copy.headers

def Copy.attempt (copy : Copy) : ℕ := ((decodeRetryHeaders copy.bag).map (·.attempt)).getD 0

def publishRetry (key : String) (value : Bytes) (headers : Headers) : Copy where
  topic := .retry
  key := some key
  value := some value
  headers := headers.mapValues fun _ value => .text value

def decode (fleet : Fleet) (group : String) (headers : Headers) (value : Bytes) :
    Option Envelope :=
  fleet.deserialize group {
    type := (headers.find? "type").getD ""
    eventVersion := number ((headers.find? "eventVersion").getD "0")
    contentType := (headers.find? "contentType").getD ""
    data := value }

inductive Scheduled where
  | deadLetter (letter : DeadLetter)
  | retry (copy : Copy)

def scheduleRetryOrDeadLetter (fleet : Fleet) (group : String) (copy : Copy) (messageId : String)
    (error : String) (now : ℕ) : Except String Scheduled := do
  let headers := copy.bag
  let key := copy.key.getD ""
  let value := copy.value.getD []
  let nextAttempt := copy.attempt + 1
  if maxAttempts (fleet.schedule group) < nextAttempt then
    return .deadLetter {
      originalTopic := fleet.topic
      consumerGroup := group
      messageId := messageId
      key := key
      value := value
      headers := headers
      attempts := copy.attempt
      error := error }
  else
    let delay ← delayForAttempt (fleet.schedule group) nextAttempt
    return .retry (publishRetry key value
      ((headers.spread (traceHeaders headers)).spread
        (encodeRetryHeaders nextAttempt (now + delay) fleet.topic group)))

theorem decodeHeaderBag_text (headers : Headers) :
    decodeHeaderBag (headers.mapValues fun _ value => .text value) = headers := by
  have hentries : ((headers.mapValues fun _ value => HeaderValue.text value).entries.filterMap
      fun (name, value) =>
        match value with
        | .undefined => none
        | .text value => some (name, value)
        | .many values => some (name, values.head?.getD "")) = headers.entries := by
    simp [OrderedMap.mapValues, List.filterMap_map]
  have heq : (decodeHeaderBag (headers.mapValues fun _ value => .text value)).entries =
      headers.entries := by
    rw [decodeHeaderBag, hentries]
    exact OrderedMap.entries_ofEntries headers.distinct
  cases headers
  cases h : decodeHeaderBag _
  rw [h] at heq
  cases heq
  rfl

theorem publishRetry_bag (key : String) (value : Bytes) (headers : Headers) :
    (publishRetry key value headers).bag = headers :=
  decodeHeaderBag_text headers

theorem find?_spread_trace (headers : Headers) (name : String) :
    (headers.spread (traceHeaders headers)).find? name = headers.find? name := by
  rw [OrderedMap.find?_spread]
  cases htrace : (traceHeaders headers).find? name with
  | none => rfl
  | some value =>
    have hmem := OrderedMap.mem_of_mem_ofEntries (OrderedMap.find?_eq_some.mp htrace)
    obtain ⟨name', -, hname⟩ := List.mem_filterMap.mp hmem
    obtain ⟨value', hfind, heq⟩ := Option.map_eq_some_iff.mp hname
    cases heq
    rw [hfind]
    rfl

theorem encodeRetryHeaders_entries (attempt dueAtMs : ℕ) (originalTopic consumerGroup : String) :
    (encodeRetryHeaders attempt dueAtMs originalTopic consumerGroup).entries = [
      ("x-retry-attempt", toString attempt),
      ("x-retry-due-at", toString dueAtMs),
      ("x-retry-original-topic", originalTopic),
      ("x-retry-consumer-group", consumerGroup)] := by
  apply OrderedMap.entries_ofEntries
  simp

/-- What is written for a retry is read back, whatever the other headers are. -/
theorem decodeRetryHeaders_encode (headers : Headers) (attempt dueAtMs : ℕ)
    (originalTopic consumerGroup : String) :
    decodeRetryHeaders (headers.spread
      (encodeRetryHeaders (attempt + 1) dueAtMs originalTopic consumerGroup)) =
      some ⟨attempt + 1, dueAtMs, originalTopic, consumerGroup⟩ := by
  have hinteger : isInteger ((attempt + 1 : ℕ) : ℚ) = true := by
    rw [isInteger, Rat.den_natCast]
    rfl
  have hpos : ¬ ((attempt + 1 : ℕ) : ℚ) < 1 := by
    rw [not_lt]
    exact_mod_cast Nat.le_add_left 1 attempt
  have hnum : ((attempt + 1 : ℕ) : ℚ).num.toNat = attempt + 1 := by
    rw [Rat.num_natCast, Int.toNat_natCast]
  have hfind (name value : String) (hvalue : (encodeRetryHeaders (attempt + 1) dueAtMs originalTopic
      consumerGroup).find? name = some value) : (headers.spread (encodeRetryHeaders (attempt + 1)
        dueAtMs originalTopic consumerGroup)).find? name = some value := by
    rw [OrderedMap.find?_spread, hvalue]
    rfl
  have hentries := encodeRetryHeaders_entries (attempt + 1) dueAtMs originalTopic consumerGroup
  rw [decodeRetryHeaders,
    hfind "x-retry-attempt" (toString (attempt + 1)) (by simp [OrderedMap.find?, hentries]),
    hfind "x-retry-due-at" (toString dueAtMs) (by simp [OrderedMap.find?, hentries]),
    hfind "x-retry-original-topic" originalTopic (by simp [OrderedMap.find?, hentries]),
    hfind "x-retry-consumer-group" consumerGroup (by simp [OrderedMap.find?, hentries])]
  simp only [Option.bind_some, number_toString, Option.bind_eq_bind, hinteger, hpos,
    not_true_eq_false, or_self, if_false]
  simp only [pure, hnum]

structure Follows (fleet : Fleet) (group : String) (copy retry : Copy) : Prop where
  topic : retry.topic = .retry
  attempt : retry.attempt = copy.attempt + 1
  scheduledBy : retry.bag.find? "x-retry-consumer-group" = some group
  decoded : ∀ other, decode fleet other retry.bag (retry.value.getD []) =
    decode fleet other copy.bag (copy.value.getD [])

theorem follows_publishRetry (fleet : Fleet) (group : String) (copy : Copy) (dueAtMs : ℕ) :
    Follows fleet group copy (publishRetry (copy.key.getD "") (copy.value.getD [])
      ((copy.bag.spread (traceHeaders copy.bag)).spread
        (encodeRetryHeaders (copy.attempt + 1) dueAtMs fleet.topic group))) := by
  have hother (name : String) (hname : name ≠ "x-retry-attempt" ∧ name ≠ "x-retry-due-at" ∧
      name ≠ "x-retry-original-topic" ∧ name ≠ "x-retry-consumer-group") :
      ((copy.bag.spread (traceHeaders copy.bag)).spread
        (encodeRetryHeaders (copy.attempt + 1) dueAtMs fleet.topic group)).find? name =
        copy.bag.find? name := by
    rw [OrderedMap.find?_spread, find?_spread_trace]
    simp [OrderedMap.find?, encodeRetryHeaders_entries, hname.1.symm, hname.2.1.symm,
      hname.2.2.1.symm, hname.2.2.2.symm]
  constructor
  · rfl
  · rw [Copy.attempt, publishRetry_bag, decodeRetryHeaders_encode]
    rfl
  · rw [publishRetry_bag, OrderedMap.find?_spread]
    simp [OrderedMap.find?, encodeRetryHeaders_entries]
  · intro other
    rw [publishRetry_bag, decode, decode, hother "type" (by decide),
      hother "eventVersion" (by decide), hother "contentType" (by decide)]
    rfl

theorem schedule_cases (fleet : Fleet) (group : String) (copy : Copy) (messageId error : String)
    (now : ℕ) :
    (maxAttempts (fleet.schedule group) ≤ copy.attempt ∧ ∃ letter : DeadLetter,
      letter.consumerGroup = group ∧
      scheduleRetryOrDeadLetter fleet group copy messageId error now =
        .ok (.deadLetter letter)) ∨
    (copy.attempt < maxAttempts (fleet.schedule group) ∧ ∃ retry, Follows fleet group copy retry ∧
      scheduleRetryOrDeadLetter fleet group copy messageId error now = .ok (.retry retry)) := by
  unfold scheduleRetryOrDeadLetter
  dsimp only
  split
  · rename_i hlast
    exact .inl ⟨Nat.lt_succ_iff.mp hlast, _, rfl, rfl⟩
  · rename_i hleft
    have hle : copy.attempt + 1 ≤ maxAttempts (fleet.schedule group) := Nat.le_of_not_lt hleft
    obtain ⟨delay, hdelay⟩ := delayForAttempt_ok hle
    rw [hdelay]
    exact .inr ⟨hle, _, follows_publishRetry fleet group copy (now + delay), rfl⟩

end Kafka

/-! ## Deliveries of one published message

Every group receives every record of the topic and of its retry topic, and a delivery comes back
as long as the runtime throws. Deliveries go on in any order, and one group may have several in
its handler at once. -/
namespace Kafka

open Builtins LabelledRuns

inductive Phase where
  | fetched
  | handling (envelope : Envelope)
  deriving DecidableEq

structure Delivery where
  group : String
  copy : Copy
  phase : Phase
  deriving DecidableEq

/-- The delivery, once it has been handed to the handler. -/
def Delivery.begun (d : Delivery) (envelope : Envelope) : Delivery :=
  ⟨d.group, d.copy, .handling envelope⟩

structure State where
  deliveries : List Delivery
  processed : String → List String
  runs : String → ℕ
  deadLetters : List DeadLetter

inductive Outcome where
  | handled
  | failed (error : String)

structure Label where
  delivery : Delivery
  now : ℕ
  outcome : Outcome

def recordIfNew (messageId : String) (processed : List String) : List String :=
  if processed.contains messageId then processed else processed ++ [messageId]

def isDue (copy : Copy) (now : ℕ) : Prop :=
  match decodeRetryHeaders copy.bag with
  | none => True
  | some retry => retry.dueAtMs ≤ now

instance (copy : Copy) (now : ℕ) : Decidable (isDue copy now) := by
  unfold isDue
  split <;> infer_instance

def Copy.envelope (fleet : Fleet) (group : String) (copy : Copy) : Option Envelope :=
  decode fleet group copy.bag (copy.value.getD [])

def published (fleet : Fleet) (copy : Copy) : List Delivery :=
  fleet.groups.map fun group => ⟨group, copy, .fetched⟩

/-- What the handler does to the group, and what the runtime does after it. In the atomic path a
lost race for the marker is acknowledged as well, with the marker that is there. -/
def handle (fleet : Fleet) (s : State) (d : Delivery) (envelope : Envelope) (now : ℕ) :
    Outcome → State
  | .handled => { s with
      deliveries := s.deliveries.erase d
      processed := Function.update s.processed d.group
        (recordIfNew envelope.messageId (s.processed d.group))
      runs := Function.update s.runs d.group (s.runs d.group + 1) }
  | .failed error =>
    let ran := { s with runs := Function.update s.runs d.group (s.runs d.group + 1) }
    match scheduleRetryOrDeadLetter fleet d.group d.copy envelope.messageId error now with
    | .error _ => { ran with
        deliveries := s.deliveries.erase d ++ [{ d with phase := .fetched }] }
    | .ok (.deadLetter letter) => { ran with
        deliveries := s.deliveries.erase d
        deadLetters := s.deadLetters ++ [letter] }
    | .ok (.retry copy) => { ran with
        deliveries := s.deliveries.erase d ++ published fleet copy }

/-- `handleMessage`, up to the handler and from there on. What does not decode is thrown before
anything else is looked at, and comes back. -/
def next (fleet : Fleet) (s : State) (l : Label) : Option State :=
  let d := l.delivery
  if d ∉ s.deliveries then none
  else
    match d.phase with
    | .fetched =>
      if ¬ isDue d.copy l.now then none
      else
        match d.copy.envelope fleet d.group with
        | none => some s
        | some envelope =>
          if (s.processed d.group).contains envelope.messageId then
            some { s with deliveries := s.deliveries.erase d }
          else some { s with
            deliveries := s.deliveries.erase d ++ [d.begun envelope] }
    | .handling envelope => some (handle fleet s d envelope l.now l.outcome)

def Step (fleet : Fleet) (s : State) (l : Label) (u : State) : Prop := next fleet s l = some u

/-- Everything a step can be. -/
inductive Move (fleet : Fleet) (s : State) (d : Delivery) : State → Prop where
  | thrown (hphase : d.phase = .fetched) (hdecode : d.copy.envelope fleet d.group = none) :
      Move fleet s d s
  | acknowledged (envelope : Envelope) (hphase : d.phase = .fetched)
      (hdecode : d.copy.envelope fleet d.group = some envelope)
      (hprocessed : envelope.messageId ∈ s.processed d.group) :
      Move fleet s d { s with deliveries := s.deliveries.erase d }
  | begins (envelope : Envelope) (hphase : d.phase = .fetched)
      (hdecode : d.copy.envelope fleet d.group = some envelope)
      (hprocessed : envelope.messageId ∉ s.processed d.group) :
      Move fleet s d { s with
        deliveries := s.deliveries.erase d ++ [d.begun envelope] }
  | handled (envelope : Envelope) (hphase : d.phase = .handling envelope)
      (processed : String → List String) : Move fleet s d { s with
        deliveries := s.deliveries.erase d
        processed := processed
        runs := Function.update s.runs d.group (s.runs d.group + 1) }
  | deadLettered (envelope : Envelope) (hphase : d.phase = .handling envelope)
      (hlast : maxAttempts (fleet.schedule d.group) ≤ d.copy.attempt) (letter : DeadLetter)
      (hgroup : letter.consumerGroup = d.group) : Move fleet s d { s with
        deliveries := s.deliveries.erase d
        runs := Function.update s.runs d.group (s.runs d.group + 1)
        deadLetters := s.deadLetters ++ [letter] }
  | retried (envelope : Envelope) (hphase : d.phase = .handling envelope)
      (hleft : d.copy.attempt < maxAttempts (fleet.schedule d.group)) (retry : Copy)
      (hretry : Follows fleet d.group d.copy retry) : Move fleet s d { s with
        deliveries := s.deliveries.erase d ++ published fleet retry
        runs := Function.update s.runs d.group (s.runs d.group + 1) }

variable {fleet : Fleet} {s u : State} {l : Label}

theorem step_move (h : Step fleet s l u) :
    l.delivery ∈ s.deliveries ∧ Move fleet s l.delivery u := by
  unfold Step next at h
  dsimp only at h
  split at h
  · cases h
  rename_i hmem
  refine ⟨not_not.mp hmem, ?_⟩
  split at h
  · rename_i hphase
    split at h
    · cases h
    split at h
    · rename_i hdecode
      cases h
      exact .thrown hphase hdecode
    · rename_i envelope hdecode
      split at h
      · rename_i hprocessed
        cases h
        exact .acknowledged envelope hphase hdecode (List.contains_iff_mem.mp hprocessed)
      · rename_i hprocessed
        cases h
        exact .begins envelope hphase hdecode fun hmem =>
          hprocessed (List.contains_iff_mem.mpr hmem)
  · rename_i envelope hphase
    cases h
    unfold handle
    cases l.outcome with
    | handled => exact .handled envelope hphase _
    | failed error =>
      rcases schedule_cases fleet l.delivery.group l.delivery.copy envelope.messageId error l.now
        with ⟨hlast, letter, hgroup, hscheduled⟩ | ⟨hleft, retry, hretry, hscheduled⟩
      · simp only [hscheduled]
        exact .deadLettered envelope hphase hlast letter hgroup
      · simp only [hscheduled]
        exact .retried envelope hphase hleft retry hretry

end Kafka
