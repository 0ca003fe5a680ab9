import Lumo.LabelledRuns
import Lumo.OrderedMap
import Lumo.SharedKernel
import Mathlib.Algebra.Order.Ring.Rat

/-! # The sessions of the visitors

The session of a device and the use case that folds observed activity into it, over the stores of
one tenant. An instant is in milliseconds; the texts that stand for instants sort like them. -/
namespace Customer360Sessions

open SharedKernel

inductive SessionStatus where
  | opened
  | closed
  deriving DecidableEq

inductive SessionCloseReason where
  | timeout
  | manualLogout
  | browserRestart
  | deviceChange
  | explicitSplit
  | mergedAway
  deriving DecidableEq

structure CustomerSession where
  sessionId : String
  visitorId : String
  deviceId : Option String
  journeyId : Option String
  source : Option String
  status : SessionStatus
  startedAt : ℤ
  lastActivityAt : ℤ
  closedAt : Option ℤ
  closeReason : Option SessionCloseReason
  pageCount : ℕ
  version : ℕ
  deriving DecidableEq

structure OpenSessionInput where
  sessionId : String
  visitorId : String
  deviceId : Option String
  journeyId : Option String
  source : Option String
  startedAt : ℤ

def INITIAL_SESSION_VERSION : ℕ := 0

def openSession (input : OpenSessionInput) : CustomerSession where
  sessionId := input.sessionId
  visitorId := input.visitorId
  deviceId := input.deviceId
  journeyId := input.journeyId
  source := input.source
  status := .opened
  startedAt := input.startedAt
  lastActivityAt := input.startedAt
  closedAt := none
  closeReason := none
  pageCount := 1
  version := INITIAL_SESSION_VERSION + 1

structure RecordActivityResult where
  session : CustomerSession
  applied : Bool

def recordActivity (session : CustomerSession) (occurredAt : ℤ) : RecordActivityResult :=
  if occurredAt ≤ session.lastActivityAt then ⟨session, false⟩
  else
    { applied := true
      session := { session with
        lastActivityAt := occurredAt
        pageCount := session.pageCount + 1
        version := session.version + 1 } }

theorem recordActivity_applied {session : CustomerSession} {occurredAt : ℤ}
    (h : (recordActivity session occurredAt).applied = true) :
    session.lastActivityAt < occurredAt ∧ (recordActivity session occurredAt).session =
      { session with
        lastActivityAt := occurredAt
        pageCount := session.pageCount + 1
        version := session.version + 1 } := by
  rw [recordActivity] at h ⊢
  split at h
  · cases h
  · rename_i hlater
    rw [if_neg hlater]
    exact ⟨not_le.mp hlater, rfl⟩

def closeSession (session : CustomerSession) (reason : SessionCloseReason) (occurredAt : ℤ) :
    CustomerSession :=
  { session with
    status := .closed
    closedAt := some occurredAt
    closeReason := some reason
    version := session.version + 1 }

def DEFAULT_SESSION_TIMEOUT_MS : ℚ := 30 * 60 * 1000

def withinSessionWindow (lastActivityAt occurredAt : ℤ) (timeoutMs : ℚ) : Bool :=
  let gapMs := occurredAt - lastActivityAt
  decide (0 ≤ gapMs ∧ (gapMs : ℚ) ≤ timeoutMs)

inductive SessionSnapshotReason where
  | started
  | activity
  | closed
  | merged
  | split
  | rebuilt

structure SessionSnapshot where
  session : CustomerSession
  capturedAt : ℤ
  reason : SessionSnapshotReason

def toSnapshot (session : CustomerSession) (reason : SessionSnapshotReason) (capturedAt : ℤ) :
    SessionSnapshot :=
  ⟨session, capturedAt, reason⟩

inductive SessionTransitionKind where
  | anonymousToIdentified
  | deviceChanged
  | browserRestarted
  | timedOut
  | manualLogout
  | resumed
  | explicitMerge
  | explicitSplit
  deriving DecidableEq

structure SessionTransition where
  kind : SessionTransitionKind
  visitorId : String
  fromSessionId : Option String
  toSessionId : Option String
  occurredAt : ℤ

abbrev Sessions := OrderedMap String CustomerSession

/-- The current session of every id, the ledger of what was stored, and the journey. -/
structure Stores where
  sessions : Sessions
  history : List SessionSnapshot
  journey : List SessionTransition

namespace Stores

def empty : Stores := ⟨.empty, [], []⟩

def getCurrent (stores : Stores) (sessionId : String) : Option CustomerSession :=
  stores.sessions.find? sessionId

def listOpenForVisitor (stores : Stores) (visitorId : String) : List CustomerSession :=
  stores.sessions.values.filter fun session =>
    session.visitorId == visitorId && session.status == .opened

def persist (reason : SessionSnapshotReason) (now : ℤ) (session : CustomerSession)
    (stores : Stores) : Stores :=
  { stores with
    history := stores.history ++ [toSnapshot session reason now]
    sessions := stores.sessions.set session.sessionId session }

def record (transition : SessionTransition) (stores : Stores) : Stores :=
  { stores with journey := stores.journey ++ [transition] }

end Stores

structure ObserveSessionInput where
  sessionId : String
  visitorId : String
  deviceId : Option String
  journeyId : Option String
  source : Option String
  occurredAt : ℤ
  timeoutMs : Option ℚ
  identified : Bool

structure ObserveSessionOutput where
  sessionId : String
  opened : Bool
  rolledOverFrom : Option String

namespace ObserveSession

variable (input : ObserveSessionInput) (now : ℤ)

def timeoutMs : ℚ := input.timeoutMs.getD DEFAULT_SESSION_TIMEOUT_MS

/-- The activity falls into the window of the session. -/
def within (session : CustomerSession) : Bool :=
  withinSessionWindow session.lastActivityAt input.occurredAt (timeoutMs input)

def maybeRecordIdentified (stores : Stores) : Stores :=
  if stores.journey.any fun t =>
      t.visitorId == input.visitorId && t.kind == .anonymousToIdentified then stores
  else stores.record
    ⟨.anonymousToIdentified, input.visitorId, some input.sessionId, none, input.occurredAt⟩

def identify (stores : Stores) : Stores :=
  if input.identified then maybeRecordIdentified input stores else stores

def fold (existing : CustomerSession) (stores : Stores) : Stores :=
  let result := recordActivity existing input.occurredAt
  identify input (if result.applied then stores.persist .activity now result.session else stores)

def closeStale (stores : Stores) (stale : CustomerSession) : Stores :=
  (stores.persist .closed now (closeSession stale .timeout input.occurredAt)).record
    ⟨.timedOut, stale.visitorId, some stale.sessionId, some input.sessionId, input.occurredAt⟩

def rollOver (state : Stores × Option String) (stale : CustomerSession) :
    Stores × Option String :=
  if within input stale then state
  else (closeStale input now state.1 stale, some stale.sessionId)

def newSession : CustomerSession :=
  openSession ⟨input.sessionId, input.visitorId, input.deviceId, input.journeyId, input.source,
    input.occurredAt⟩

/-- A session is started, after the idle ones of the visitor are closed. -/
def start (stores : Stores) : ObserveSessionOutput × Stores :=
  let (stores, rolledOverFrom) :=
    (stores.listOpenForVisitor input.visitorId).foldl (rollOver input now) (stores, none)
  (⟨input.sessionId, true, rolledOverFrom⟩,
    identify input (stores.persist .started now (newSession input)))

/-- The open session under the id of the call that its activity falls into. -/
def current (stores : Stores) : Option CustomerSession :=
  (stores.getCurrent input.sessionId).filter fun existing =>
    existing.status == .opened && within input existing

def execute (stores : Stores) : Except DomainError ObserveSessionOutput × Stores :=
  if isBlank input.sessionId || isBlank input.visitorId then
    (.error (.validation "Observing a session requires a sessionId and visitorId"
      [⟨"sessionId", "required"⟩]), stores)
  else
    match current input stores with
    | some existing => (.ok ⟨input.sessionId, false, none⟩, fold input now existing stores)
    | none =>
      let (output, stores) := start input now stores
      (.ok output, stores)

end ObserveSession

end Customer360Sessions

/-! ## Sessions under events in any order -/
namespace Customer360Sessions

open SharedKernel LabelledRuns OrderedMap ObserveSession

/-- A call, at the time of the service's clock. -/
abbrev Observation := ObserveSessionInput × ℤ

def next (stores : Stores) (observation : Observation) : Stores :=
  (execute observation.1 observation.2 stores).2

def save (sessions : Sessions) (session : CustomerSession) : Sessions :=
  sessions.set session.sessionId session

def Continues (sessions : Sessions) (session : CustomerSession) : Prop :=
  ∃ old, sessions.find? session.sessionId = some old ∧ old.status = .opened ∧
    session.visitorId = old.visitorId ∧ session.startedAt = old.startedAt ∧
    old.lastActivityAt ≤ session.lastActivityAt ∧ session.version = old.version + 1

/-- The session that is stored is the new one of the call, whose id has no session, or one that is
closed, or one whose window the activity misses. -/
def Starts (input : ObserveSessionInput) (sessions : Sessions) (session : CustomerSession) : Prop :=
  session = newSession input ∧ ∀ old ∈ sessions.find? session.sessionId,
    old.status = .closed ∨ within input old = false

def Change (input : ObserveSessionInput) (sessions : Sessions) (session : CustomerSession) : Prop :=
  Continues sessions session ∨ Starts input sessions session

/-- The ledger has every change that a call stores, and each is one that is allowed. -/
def Stitched (stores : Stores) (observation : Observation) : Prop :=
  ∃ changes : List CustomerSession,
    (next stores observation).history.map (·.session) =
      stores.history.map (·.session) ++ changes ∧
    (next stores observation).sessions = stores.sessions.setAll (·.sessionId) changes ∧
    EveryStep (Change observation.1) stores.sessions (follow save stores.sessions changes)

/-- No session's last activity is before its start. -/
def Started (stores : Stores) : Prop :=
  ∀ session ∈ stores.sessions.values, session.startedAt ≤ session.lastActivityAt

/-- A closed session has started, been active and been closed in this order. -/
def Ordered (stores : Stores) : Prop :=
  ∀ session ∈ stores.sessions.values, session.status = .closed → ∃ closedAt,
    session.closedAt = some closedAt ∧ session.startedAt ≤ session.lastActivityAt ∧
      session.lastActivityAt ≤ closedAt

/-- The call moves no clock back. -/
def Forward (stores : Stores) (observation : Observation) : Prop :=
  ∀ id, ∀ old ∈ stores.getCurrent id, ∃ session, (next stores observation).getCurrent id =
    some session ∧ old.startedAt ≤ session.startedAt ∧
      old.lastActivityAt ≤ session.lastActivityAt

/-- A call that starts a session is not late: the last activity of the session under its id, and of
the open sessions of its visitor, is not after the event. -/
def Timely (stores : Stores) (observation : Observation) : Prop :=
  current observation.1 stores = none →
    (∀ old ∈ stores.getCurrent observation.1.sessionId,
      old.lastActivityAt ≤ observation.1.occurredAt) ∧
    ∀ old ∈ stores.listOpenForVisitor observation.1.visitorId,
      old.lastActivityAt ≤ observation.1.occurredAt

instance (stores : Stores) (observation : Observation) : Decidable (Timely stores observation) :=
  inferInstanceAs (Decidable (_ → _ ∧ _))

section Changes

variable {input : ObserveSessionInput} {now : ℤ} {stores : Stores}

@[simp] theorem identify_sessions : (identify input stores).sessions = stores.sessions := by
  rw [identify, maybeRecordIdentified]
  split
  · split <;> rfl
  · rfl

@[simp] theorem identify_history : (identify input stores).history = stores.history := by
  rw [identify, maybeRecordIdentified]
  split
  · split <;> rfl
  · rfl

def closings (input : ObserveSessionInput) (open_ : List CustomerSession) : List CustomerSession :=
  (open_.filter fun stale => !within input stale).map fun stale =>
    closeSession stale .timeout input.occurredAt

/-- Every session that a call stores, in turn. -/
def changes (input : ObserveSessionInput) (stores : Stores) : List CustomerSession :=
  if isBlank input.sessionId || isBlank input.visitorId then []
  else match current input stores with
    | some existing =>
      if (recordActivity existing input.occurredAt).applied then
        [(recordActivity existing input.occurredAt).session]
      else []
    | none =>
      closings input (stores.listOpenForVisitor input.visitorId) ++ [newSession input]

theorem rollOver_foldl (input : ObserveSessionInput) (now : ℤ) (open_ : List CustomerSession)
    (stores : Stores) (rolled : Option String) :
    (open_.foldl (rollOver input now) (stores, rolled)).1.sessions =
        stores.sessions.setAll (·.sessionId) (closings input open_) ∧
      (open_.foldl (rollOver input now) (stores, rolled)).1.history.map (·.session) =
        stores.history.map (·.session) ++ closings input open_ := by
  induction open_ generalizing stores rolled with
  | nil => exact ⟨rfl, by simp [closings]⟩
  | cons stale rest ih =>
    rw [List.foldl_cons, rollOver]
    by_cases h : within input stale = true
    · have hclosings : closings input (stale :: rest) = closings input rest := by
        simp [closings, h]
      rw [if_pos h, hclosings]
      exact ih stores rolled
    · have hclosings : closings input (stale :: rest) =
          closeSession stale .timeout input.occurredAt :: closings input rest := by
        simp [closings, h]
      rw [if_neg h, hclosings]
      obtain ⟨hsessions, hhistory⟩ := ih (closeStale input now stores stale) (some stale.sessionId)
      refine ⟨hsessions, hhistory.trans ?_⟩
      simp [closeStale, Stores.persist, Stores.record, toSnapshot]

theorem setAll_append (m : Sessions) (l l' : List CustomerSession) :
    m.setAll (·.sessionId) (l ++ l') =
      (m.setAll (·.sessionId) l).setAll (·.sessionId) l' := by
  rw [setAll, List.foldl_append]
  rfl

theorem next_changes (input : ObserveSessionInput) (now : ℤ) (stores : Stores) :
    (next stores (input, now)).sessions =
        stores.sessions.setAll (·.sessionId) (changes input stores) ∧
      (next stores (input, now)).history.map (·.session) =
        stores.history.map (·.session) ++ changes input stores := by
  rw [next, execute, changes]
  by_cases hblank : (isBlank input.sessionId || isBlank input.visitorId) = true
  · rw [if_pos hblank, if_pos hblank]
    exact ⟨rfl, (List.append_nil _).symm⟩
  · rw [if_neg hblank, if_neg hblank]
    cases hcurrent : current input stores with
    | some existing =>
      simp only [fold, identify_sessions, identify_history]
      by_cases happlied : (recordActivity existing input.occurredAt).applied = true
      · rw [if_pos happlied, if_pos happlied]
        exact ⟨rfl, by simp [Stores.persist, toSnapshot]⟩
      · rw [if_neg happlied, if_neg happlied]
        exact ⟨rfl, (List.append_nil _).symm⟩
    | none =>
      obtain ⟨hsessions, hhistory⟩ :=
        rollOver_foldl input now (stores.listOpenForVisitor input.visitorId) stores none
      simp only [start, identify_sessions, identify_history, Stores.persist, List.map_append,
        hhistory, hsessions, setAll_append]
      exact ⟨rfl, by simp [toSnapshot]⟩

/-- Each session is under its own id, and has started before its last activity. -/
structure Kept (stores : Stores) : Prop where
  keyed : stores.sessions.Keyed (·.sessionId)
  started : Started stores

variable {m : Sessions} {session : CustomerSession} {id : String} {open_ : List CustomerSession}

theorem mem_values_iff (h : m.Keyed (·.sessionId)) :
    session ∈ m.values ↔ m.find? session.sessionId = some session := by
  rw [find?_eq_some]
  constructor
  · intro hmem
    obtain ⟨⟨id, value⟩, he, rfl⟩ := List.mem_map.mp hmem
    have hid := h _ he
    simp only at hid
    rwa [hid]
  · intro he
    exact List.mem_map.mpr ⟨_, he, rfl⟩

theorem find?_sessionId (h : m.Keyed (·.sessionId)) (hfind : m.find? id = some session) :
    session.sessionId = id :=
  h _ (find?_eq_some.mp hfind)

theorem mem_listOpenForVisitor {visitorId : String} :
    session ∈ stores.listOpenForVisitor visitorId ↔
      session ∈ stores.sessions.values ∧ session.visitorId = visitorId ∧
        session.status = .opened := by
  simp [Stores.listOpenForVisitor]

theorem mem_closings :
    session ∈ closings input open_ ↔ ∃ stale ∈ open_, within input stale = false ∧
      session = closeSession stale .timeout input.occurredAt := by
  simp only [closings, List.mem_map, List.mem_filter, Bool.not_eq_true']
  constructor
  · rintro ⟨stale, ⟨hmem, hwithin⟩, rfl⟩
    exact ⟨stale, hmem, hwithin, rfl⟩
  · rintro ⟨stale, hmem, hwithin, rfl⟩
    exact ⟨stale, ⟨hmem, hwithin⟩, rfl⟩

theorem current_some {existing : CustomerSession} (h : current input stores = some existing) :
    stores.getCurrent input.sessionId = some existing ∧ existing.status = .opened ∧
      within input existing = true := by
  obtain ⟨hget, hcond⟩ := Option.filter_eq_some_iff.mp h
  rw [Bool.and_eq_true, beq_iff_eq] at hcond
  exact ⟨hget, hcond⟩

theorem current_none (h : current input stores = none) {old : CustomerSession}
    (hold : stores.getCurrent input.sessionId = some old) :
    old.status = .closed ∨ within input old = false := by
  rw [current, hold, Option.filter_eq_none_iff] at h
  have hcond := h old rfl
  cases hstatus : old.status with
  | closed => exact .inl rfl
  | opened => exact .inr (by simpa [hstatus] using hcond)

theorem closings_steps
    (hopen : ∀ stale ∈ open_, m.find? stale.sessionId = some stale ∧ stale.status = .opened)
    (hids : (open_.map (·.sessionId)).Nodup)
    (hlast : Starts input (m.setAll (·.sessionId) (closings input open_)) (newSession input)) :
    EveryStep (Change input) m (follow save m (closings input open_ ++ [newSession input])) := by
  induction open_ generalizing m with
  | nil => exact ⟨.inr hlast, trivial⟩
  | cons stale rest ih =>
    rw [List.map_cons, List.nodup_cons] at hids
    by_cases h : within input stale = true
    · have hclosings : closings input (stale :: rest) = closings input rest := by
        simp [closings, h]
      rw [hclosings] at hlast ⊢
      exact ih (fun s hs => hopen s (List.mem_cons_of_mem _ hs)) hids.2 hlast
    · have hclosings : closings input (stale :: rest) =
          closeSession stale .timeout input.occurredAt :: closings input rest := by
        simp [closings, h]
      rw [hclosings] at hlast ⊢
      obtain ⟨hfind, hstatus⟩ := hopen stale List.mem_cons_self
      refine ⟨.inl ⟨stale, hfind, hstatus, rfl, rfl, le_rfl, rfl⟩, ih ?_ hids.2 hlast⟩
      intro s hs
      have hne : s.sessionId ≠ stale.sessionId := by
        intro he
        exact hids.1 (he ▸ List.mem_map_of_mem hs)
      obtain ⟨hs', hopened⟩ := hopen s (List.mem_cons_of_mem _ hs)
      refine ⟨?_, hopened⟩
      rw [save, find?_set]
      simpa [closeSession, hne] using hs'

theorem find?_closings (hkeyed : m.Keyed (·.sessionId)) (hopen : ∀ stale ∈ open_, stale ∈ m.values)
    (h : (m.setAll (·.sessionId) (closings input open_)).find? id = some session) :
    m.find? id = some session ∨ ∃ stale ∈ open_, m.find? id = some stale ∧
      session = closeSession stale .timeout input.occurredAt := by
  have hid := find?_sessionId (hkeyed.setAll _) h
  have hmem : session ∈ (m.setAll (·.sessionId) (closings input open_)).values :=
    List.mem_map.mpr ⟨_, find?_eq_some.mp h, rfl⟩
  rcases mem_setAll hmem with hold | hclosed
  · left
    rw [← hid]
    exact (mem_values_iff hkeyed).mp hold
  · obtain ⟨stale, hstale, _, rfl⟩ := mem_closings.mp hclosed
    refine .inr ⟨stale, hstale, ?_, rfl⟩
    rw [← hid]
    exact (mem_values_iff hkeyed).mp (hopen stale hstale)

theorem closings_keys (hkeyed : m.Keyed (·.sessionId)) (hopen : ∀ stale ∈ open_, stale ∈ m.values) :
    (m.setAll (·.sessionId) (closings input open_)).keys = m.keys := by
  apply keys_setAll
  intro session hsession
  obtain ⟨stale, hstale, _, rfl⟩ := mem_closings.mp hsession
  rw [← hkeyed.map_values]
  exact List.mem_map.mpr ⟨stale, hopen stale hstale, rfl⟩

theorem listOpen_values (visitorId : String) :
    ∀ stale ∈ stores.listOpenForVisitor visitorId, stale ∈ stores.sessions.values :=
  fun _ h => (mem_listOpenForVisitor.mp h).1

theorem closings_forward (hkeyed : m.Keyed (·.sessionId))
    (hopen : ∀ stale ∈ open_, stale ∈ m.values) {old : CustomerSession}
    (hold : m.find? id = some old) :
    ∃ session, (m.setAll (·.sessionId) (closings input open_)).find? id = some session ∧
      old.startedAt ≤ session.startedAt ∧ old.lastActivityAt ≤ session.lastActivityAt := by
  cases hfind : (m.setAll (·.sessionId) (closings input open_)).find? id with
  | none =>
    rw [find?_eq_none, closings_keys hkeyed hopen, ← find?_eq_none, hold] at hfind
    cases hfind
  | some session =>
    refine ⟨session, rfl, ?_⟩
    rcases find?_closings hkeyed hopen hfind with hsame | ⟨stale, _, hsame, rfl⟩
    · cases hold.symm.trans hsame
      exact ⟨le_rfl, le_rfl⟩
    · cases hold.symm.trans hsame
      exact ⟨le_rfl, le_rfl⟩

theorem changes_steps (h : Kept stores) :
    EveryStep (Change input) stores.sessions
      (follow save stores.sessions (changes input stores)) := by
  rw [changes]
  split
  · trivial
  · split
    · rename_i existing hcurrent
      obtain ⟨hget, hopened, _⟩ := current_some hcurrent
      have hid := find?_sessionId h.keyed hget
      split
      · rename_i happlied
        obtain ⟨hlater, hsession⟩ := recordActivity_applied happlied
        rw [hsession]
        refine ⟨.inl ⟨existing, ?_, hopened, rfl, rfl, hlater.le, rfl⟩, trivial⟩
        simp only [hid]
        exact hget
      · trivial
    · rename_i hcurrent
      apply closings_steps
      · intro stale hstale
        obtain ⟨hmem, _, hopened⟩ := mem_listOpenForVisitor.mp hstale
        exact ⟨(mem_values_iff h.keyed).mp hmem, hopened⟩
      · have hnodup := stores.sessions.distinct
        change stores.sessions.keys.Nodup at hnodup
        rw [← h.keyed.map_values] at hnodup
        exact hnodup.sublist (List.filter_sublist.map _)
      · refine ⟨rfl, ?_⟩
        intro old hold
        rcases find?_closings h.keyed (listOpen_values _) hold with hfind | ⟨stale, _, _, rfl⟩
        · exact current_none hcurrent hfind
        · exact .inl rfl

theorem next_keyed (h : Kept stores) : (next stores (input, now)).sessions.Keyed (·.sessionId) := by
  rw [(next_changes input now stores).1]
  exact h.keyed.setAll _

theorem mem_next (h : session ∈ (next stores (input, now)).sessions.values) :
    session ∈ stores.sessions.values ∨ session ∈ changes input stores := by
  rw [(next_changes input now stores).1] at h
  exact mem_setAll h

theorem mem_changes (h : session ∈ changes input stores) :
    (session.status = .opened ∧ (∃ old ∈ stores.sessions.values,
        session.startedAt = old.startedAt ∧ old.lastActivityAt ≤ session.lastActivityAt)) ∨
      session = newSession input ∨
      (current input stores = none ∧ ∃ stale ∈ stores.listOpenForVisitor input.visitorId,
        session = closeSession stale .timeout input.occurredAt) := by
  rw [changes] at h
  split at h
  · cases h
  · split at h
    · rename_i existing hcurrent
      obtain ⟨hget, hopened, _⟩ := current_some hcurrent
      split at h
      · rename_i happlied
        obtain ⟨hlater, hsession⟩ := recordActivity_applied happlied
        rw [hsession, List.mem_singleton] at h
        subst h
        exact .inl ⟨hopened, existing, List.mem_map.mpr ⟨_, find?_eq_some.mp hget, rfl⟩, rfl,
          hlater.le⟩
      · cases h
    · rename_i hcurrent
      rcases List.mem_append.mp h with hclosed | hnew
      · obtain ⟨stale, hstale, _, rfl⟩ := mem_closings.mp hclosed
        exact .inr (.inr ⟨hcurrent, stale, hstale, rfl⟩)
      · exact .inr (.inl (List.mem_singleton.mp hnew))

theorem kept_next (h : Kept stores) : Kept (next stores (input, now)) := by
  refine ⟨next_keyed h, ?_⟩
  intro session hsession
  rcases mem_next hsession with hold | hchange
  · exact h.started session hold
  · rcases mem_changes hchange with ⟨_, old, hold, hstart, hlast⟩ | rfl | ⟨_, stale, hstale, rfl⟩
    · have hstarted := h.started old hold
      omega
    · exact le_rfl
    · exact h.started stale (listOpen_values _ stale hstale)

theorem stitched_next (h : Kept stores) : Stitched stores (input, now) := by
  obtain ⟨hsessions, hhistory⟩ := next_changes input now stores
  exact ⟨changes input stores, hhistory, hsessions, changes_steps h⟩

theorem ordered_next (h : Kept stores) (ho : Ordered stores) (ht : Timely stores (input, now)) :
    Ordered (next stores (input, now)) := by
  intro session hsession hclosed
  rcases mem_next hsession with hold | hchange
  · exact ho session hold hclosed
  · rcases mem_changes hchange with ⟨hopened, _⟩ | rfl | ⟨hcurrent, stale, hstale, rfl⟩
    · rw [hopened] at hclosed
      cases hclosed
    · cases hclosed
    · exact ⟨input.occurredAt, rfl, h.started stale (listOpen_values _ stale hstale),
        (ht hcurrent).2 stale hstale⟩

theorem forward_next (h : Kept stores) (ht : Timely stores (input, now)) :
    Forward stores (input, now) := by
  intro id old hold
  have hmem : old ∈ stores.sessions.values := List.mem_map.mpr ⟨_, find?_eq_some.mp hold, rfl⟩
  have hstarted := h.started old hmem
  have hsame : ∃ session, stores.sessions.find? id = some session ∧
      old.startedAt ≤ session.startedAt ∧ old.lastActivityAt ≤ session.lastActivityAt :=
    ⟨old, hold, le_rfl, le_rfl⟩
  rw [Stores.getCurrent, (next_changes input now stores).1, changes]
  split
  · exact hsame
  · split
    · rename_i existing hcurrent
      obtain ⟨hget, _, _⟩ := current_some hcurrent
      split
      · rename_i happlied
        obtain ⟨hlater, hsession⟩ := recordActivity_applied happlied
        rw [hsession]
        change ∃ session, (stores.sessions.set existing.sessionId _).find? id = some session ∧ _
        rw [find?_set]
        by_cases hid : id = existing.sessionId
        · have hsameId := find?_sessionId h.keyed hget
          rw [hid, hsameId] at hold
          cases hold.symm.trans hget
          rw [if_pos hid]
          exact ⟨_, rfl, le_rfl, hlater.le⟩
        · rw [if_neg hid]
          exact hsame
      · exact hsame
    · rename_i hcurrent
      rw [setAll_append]
      change ∃ session, ((stores.sessions.setAll (·.sessionId) _).set input.sessionId
        (newSession input)).find? id = some session ∧ _
      rw [find?_set]
      by_cases hid : id = input.sessionId
      · rw [if_pos hid]
        have hlast : old.lastActivityAt ≤ input.occurredAt := (ht hcurrent).1 old (hid ▸ hold)
        exact ⟨_, rfl, hstarted.trans hlast, hlast⟩
      · rw [if_neg hid]
        exact closings_forward h.keyed (listOpen_values _) hold

theorem kept_empty : Kept .empty :=
  ⟨keyed_empty, fun _ h => absurd h List.not_mem_nil⟩

theorem ordered_empty : Ordered .empty := fun _ h => absurd h List.not_mem_nil

end Changes

/-- Whatever is observed, in any order: each session that is stored continues the open one of its
id, with the next version and without its clock going back, or is a new one that the call starts
under the id that it names; a session starts no later than its last activity. While no call that
starts a session is late, no clock goes back, and a session is closed after its last activity. -/
theorem run_stitched (observations : List Observation) :
    let run := follow next .empty observations
    Always Started .empty run ∧ EveryStep Stitched .empty run ∧
      (EveryStep Timely .empty run → Always Ordered .empty run ∧ EveryStep Forward .empty run) := by
  intro run
  have hrun : Run (fun s o s' => next s o = s') .empty run := run_follow (fun _ _ => rfl) _ _
  have hstep : ∀ s o s', Kept s → next s o = s' → Kept s' := by
    rintro s ⟨input, now⟩ _ h rfl
    exact kept_next h
  have hkept := always_of_invariant hstep kept_empty hrun
  refine ⟨hkept.mono fun s h => h.started,
    everyStep_of_invariant hstep (fun s _ h => stitched_next h) kept_empty hrun, ?_⟩
  intro htimely
  have hallowed : ∀ s o s', Kept s ∧ Ordered s → next s o = s' → Timely s o →
      Kept s' ∧ Ordered s' := by
    rintro s ⟨input, now⟩ _ h rfl ht
    exact ⟨kept_next h.1, ordered_next h.1 h.2 ht⟩
  have hstart : Kept Stores.empty ∧ Ordered Stores.empty := ⟨kept_empty, ordered_empty⟩
  exact ⟨(always_of_everyStep hallowed hstart hrun htimely).mono fun s h => h.2,
    everyStep_of_allowed hallowed (fun s _ h ht => forward_next h.1 ht) hstart hrun htimely⟩


/-- What every call would do if no id came back: no clock goes back, what is closed stays closed, and
a change raises the version. -/
def Lasting (stores : Stores) (observation : Observation) : Prop :=
  ∀ id, ∀ old ∈ stores.getCurrent id, ∃ session, (next stores observation).getCurrent id =
    some session ∧ old.startedAt ≤ session.startedAt ∧
      old.lastActivityAt ≤ session.lastActivityAt ∧
      (old.status = .closed → session.status = .closed) ∧
      (session ≠ old → old.version < session.version)

def visit (sessionId : String) (minute : ℤ) : Observation :=
  (⟨sessionId, "visitor-1", none, none, none, minute * 60000, none, false⟩, minute * 60000)

/-- A repeated event, and a second session that closes the first an hour later. -/
theorem run_stitched_rollover :
    let run := follow next .empty [visit "session-1" 0, visit "session-1" 20,
      visit "session-1" 20, visit "session-2" 80]
    Always Ordered .empty run ∧ EveryStep Forward .empty run :=
  (run_stitched _).2.2 (by decide +kernel)

/-- The id of the first session comes back, and is open again at version one. -/
theorem lasting_fails : ¬ ∀ observations : List Observation,
    Always Ordered .empty (follow next .empty observations) ∧
      EveryStep Lasting .empty (follow next .empty observations) := by
  intro h
  obtain ⟨_, _, _, hback, _⟩ := h [visit "session-1" 0, visit "session-2" 60, visit "session-1" 61]
  have hclosed : closeSession (newSession (visit "session-1" 0).1) .timeout (60 * 60000) ∈
      (next (next .empty (visit "session-1" 0)) (visit "session-2" 60)).getCurrent "session-1" := by
    decide +kernel
  obtain ⟨session, hsession, _, _, hterminal, _⟩ := hback _ _ hclosed
  have hopened : (next (next (next .empty (visit "session-1" 0)) (visit "session-2" 60))
      (visit "session-1" 61)).getCurrent "session-1" =
        some (newSession (visit "session-1" 61).1) := by
    decide +kernel
  cases hopened.symm.trans hsession
  cases hterminal rfl

end Customer360Sessions
