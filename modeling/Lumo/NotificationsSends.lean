import Lumo.NotificationsCalls

/-! # What is sent, and what is recorded of it

Notifications are sent when they are due, and what is delivered is recorded, as long as a send reads
a notification that is due, and nothing else is saved from a delivery to the settle of it. -/
namespace Notifications

open SharedKernel LabelledRuns Interleavings

variable {ι : Type} {s s' : Shared} {k k' : Point} {choice : Choice}

def RecordedIn (row : Notification) (message : SendPrecheck) : Prop :=
  ∃ attempt, row.attempts[message.read.attempts.length]? = some attempt ∧
    attempt.outcome = .succeeded ∧ attempt.channel = message.channel

def Quiet (u : State Shared Point ι) : Prop :=
  ∀ c, ∃ answer, u.processes c = .live (.answered answer)

structure SentWhenDue (u : State Shared Point ι) : Prop where
  due : ∀ precheck ∈ u.shared.asked, precheck.read.status.due = true
  counted : u.shared.messages.length ≤ u.shared.row.entries
  recorded : Quiet u → ∀ message ∈ u.shared.messages, RecordedIn u.shared.row message

def Shared.unrecorded (s : Shared) : Bool :=
  s.messages.any fun message => message.read.version == s.row.version

def Point.reads : Point → Bool
  | prechecking => true
  | _ => false

/-- What the provider delivers a new message for. -/
def delivery (s : Shared) : Point → Choice → Option SendPrecheck
  | .sending precheck, .accepts _ true =>
    if delivered precheck s.messages then none else some precheck
  | _, _ => none

def Point.overwrites : Point → Option Notification
  | saving new => some new
  | savingSettled _ (.failed _) _ new => some new
  | _ => none

/-- A send with a provider reads a notification that is due; a message is delivered while the row is
as the send read it; and then the next save that goes through is that of a success. -/
def Allowed (s : Shared) (k : Point) (choice : Choice) : Prop :=
  (k.reads = true → s.row.currentChannel.external = true → s.row.status.due = true) ∧
    (∀ precheck ∈ delivery s k choice, precheck.read.version = s.row.version) ∧
    ∀ new ∈ k.overwrites, s.row.version = new.version → s.unrecorded = false

instance (s : Shared) (k : Point) (choice : Choice) : Decidable (Allowed s k choice) :=
  inferInstanceAs (Decidable (_ ∧ _ ∧ _))

def Undisturbed (u : State Shared Point ι) : Label Choice ι → Prop
  | .turn c choice => Allowed u.shared (u.processes c).point choice
  | .crash _ => True

instance (u : State Shared Point ι) : (l : Label Choice ι) → Decidable (Undisturbed u l)
  | .turn _ _ => inferInstanceAs (Decidable (Allowed _ _ _))
  | .crash _ => inferInstanceAs (Decidable True)

def Point.begins : Point → Bool
  | calling _ | prechecking => true
  | _ => false

/-- A notification as `CreateNotification` saves it. -/
structure Created (u : State Shared Point ι) : Prop where
  status : u.shared.row.status = .created
  attempts : u.shared.row.attempts = []
  history : u.shared.row.history = []
  asked : u.shared.asked = []
  messages : u.shared.messages = []
  calls : ∀ c, ∃ k, u.processes c = .live k ∧ k.begins = true

def Known (row read : Notification) : Prop :=
  read.version ≤ row.version ∧ (read.version = row.version → read = row)

def Sends (row : Notification) (precheck : SendPrecheck) : Prop :=
  Known row precheck.read ∧ (precheck.channel.external = true → precheck.read.status.due = true)

/-- What a call has read and computed. -/
def Relies (row : Notification) : Point → Prop
  | .saving new => new.version ≤ row.version ∧ (row.version = new.version → row.Extends new)
  | .sending precheck => Sends row precheck
  | .settling precheck _ _ => Sends row precheck
  | .savingSettled precheck result _ new => Sends row precheck ∧
      precheck.read.version ≤ new.version ∧ new.version ≤ row.version ∧
      (row.version = new.version → Settled result row new)
  | _ => True

theorem Known.saved {row read new : Notification} (h : Known row read)
    (hversion : row.version < new.version) : Known new read :=
  ⟨by have := h.1; omega, fun heq => absurd h.1 (by omega)⟩

theorem Relies.saved {row new : Notification} (h : Relies row k)
    (hversion : row.version < new.version) : Relies new k := by
  cases k with
  | saving read => exact ⟨by have := h.1; omega, fun heq => absurd h.1 (by omega)⟩
  | sending precheck | settling precheck result attempt => exact ⟨h.1.saved hversion, h.2⟩
  | savingSettled precheck result attempt read =>
    obtain ⟨hsends, hread, hle, -⟩ := h
    exact ⟨⟨hsends.1.saved hversion, hsends.2⟩, hread, by omega, fun heq => by omega⟩
  | _ => trivial

/-- Until it has been sent for, a row that is due counts for a message that may yet be delivered.
A message that is not recorded is one for the row as it stands. -/
structure Kept (s : Shared) : Prop where
  due : ∀ precheck ∈ s.asked, precheck.read.status.due = true
  messages : ∀ message ∈ s.messages, Known s.row message.read ∧
    message.read.status.due = true
  counted : s.messages.length + (if s.row.status.due = true ∧ s.unrecorded = false then 1 else 0) ≤
    s.row.entries
  recorded : ∀ message ∈ s.messages,
    message.read.version = s.row.version ∨ RecordedIn s.row message

theorem unrecorded_eq_false :
    s.unrecorded = false ↔ ∀ message ∈ s.messages, message.read.version ≠ s.row.version := by
  simp [Shared.unrecorded]

theorem unrecorded_eq_true :
    s.unrecorded = true ↔ ∃ message ∈ s.messages, message.read.version = s.row.version := by
  simp [Shared.unrecorded]

namespace Kept

variable {new : Notification}

theorem le_entries (h : Kept s) : s.messages.length ≤ s.row.entries :=
  Nat.le_of_add_right_le h.counted

theorem read_eq (h : Kept s) {message : SendPrecheck} (hmem : message ∈ s.messages)
    (hversion : message.read.version = s.row.version) : message.read = s.row :=
  (h.messages message hmem).1.2 hversion

theorem due_of_unrecorded (h : Kept s) (hunrecorded : s.unrecorded = true) :
    s.row.status.due = true := by
  obtain ⟨message, hmem, hversion⟩ := unrecorded_eq_true.mp hunrecorded
  rw [← h.read_eq hmem hversion]
  exact (h.messages message hmem).2

theorem saved (h : Kept s) (hversion : s.row.version = new.version)
    (hentries : s.messages.length + (if new.status.due = true then 1 else 0) ≤ new.entries)
    (hattempts : s.row.attempts <+: new.attempts)
    (hrecorded : ∀ message ∈ s.messages, message.read.version = s.row.version →
      RecordedIn new message) : Kept { s with row := { new with version := new.version + 1 } } := by
  have hnewer : s.row.version < ({ new with version := new.version + 1 } : Notification).version :=
    hversion ▸ Nat.lt_succ_self _
  refine ⟨h.due, fun message hmem => ?_, ?_, fun message hmem => Or.inr ?_⟩
  · obtain ⟨hknown, hdue⟩ := h.messages message hmem
    exact ⟨hknown.saved hnewer, hdue⟩
  · refine le_trans (Nat.add_le_add_left ?_ _) hentries
    by_cases hdue : new.status.due = true
    · rw [if_pos hdue]
      split <;> omega
    · rw [if_neg fun hboth => hdue hboth.1]
      exact Nat.zero_le _
  · rcases h.recorded message hmem with hcurrent | ⟨attempt, hattempt, hsucceeded⟩
    · exact hrecorded message hmem hcurrent
    · obtain ⟨later, hlater⟩ := hattempts
      refine ⟨attempt, ?_, hsucceeded⟩
      change new.attempts[_]? = some attempt
      rw [← hlater]
      rw [List.getElem?_append_left (List.getElem?_eq_some_iff.mp hattempt).1]
      exact hattempt

theorem extended (h : Kept s) (hextends : s.row.Extends new) (hrecorded : s.unrecorded = false) :
    Kept { s with row := { new with version := new.version + 1 } } := by
  refine h.saved hextends.version.symm ?_ hextends.attempts fun message hmem hcurrent => ?_
  · rw [hextends.entries]
    have := h.le_entries
    omega
  · exact absurd hcurrent (unrecorded_eq_false.mp hrecorded message hmem)

theorem markedSent (h : Kept s) (hmarked : s.row.MarkedSent new) :
    Kept { s with row := { new with version := new.version + 1 } } := by
  obtain ⟨attempt, hattempts, hsucceeded, hchannel⟩ := hmarked.attempts
  refine h.saved hmarked.version.symm ?_ ?_ fun message hmem hcurrent => ⟨attempt, ?_, ?_⟩
  · rw [hmarked.status, hmarked.entries]
    exact h.le_entries
  · rw [hattempts]
    exact List.prefix_append _ _
  · rw [h.read_eq hmem hcurrent, hattempts]
    exact List.getElem?_concat_length
  · refine ⟨hsucceeded, hchannel.trans ?_⟩
    rw [SendPrecheck.channel, h.read_eq hmem hcurrent]

theorem asks (h : Kept s) {precheck : SendPrecheck} (hdue : precheck.read.status.due = true) :
    Kept { s with asked := s.asked ++ [precheck] } := by
  refine ⟨fun asked hmem => ?_, h.messages, h.counted, h.recorded⟩
  rcases List.mem_append.mp hmem with hmem | hmem
  · exact h.due asked hmem
  · rw [List.mem_singleton.mp hmem]
    exact hdue

/-- The first message for the row as it stands. Every send that read it has the same key and the
same channel. -/
theorem delivers (h : Kept s) {precheck : SendPrecheck} (hread : precheck.read = s.row)
    (hdue : precheck.read.status.due = true) (hnew : delivered precheck s.messages = false) :
    Kept ⟨s.row, s.asked ++ [precheck], s.messages ++ [precheck]⟩ := by
  have hrecorded : s.unrecorded = false := by
    by_contra hunrecorded
    obtain ⟨message, hmem, hversion⟩ :=
      unrecorded_eq_true.mp ((Bool.not_eq_false _).mp hunrecorded)
    have hsame : message = precheck := by
      cases message
      cases precheck
      rw [SendPrecheck.mk.injEq]
      exact (h.read_eq hmem hversion).trans hread.symm
    have hheld : delivered precheck s.messages = true := by
      rw [delivered, List.any_eq_true]
      exact ⟨message, hmem, by simp [hsame]⟩
    rw [hnew] at hheld
    cases hheld
  have hunrecorded : Shared.unrecorded ⟨s.row, s.asked ++ [precheck], s.messages ++ [precheck]⟩ =
      true :=
    unrecorded_eq_true.mpr ⟨precheck, List.mem_append_right _ (List.mem_singleton_self _),
      congrArg Notification.version hread⟩
  have hcounted := h.counted
  rw [if_pos ⟨hread ▸ hdue, hrecorded⟩] at hcounted
  refine ⟨(h.asks hdue).due, fun message hmem => ?_, ?_, fun message hmem => ?_⟩
  · rcases List.mem_append.mp hmem with hmem | hmem
    · exact h.messages message hmem
    · rw [List.mem_singleton.mp hmem, hread]
      exact ⟨⟨le_refl _, fun _ => rfl⟩, hread ▸ hdue⟩
  · have hneg : ¬ (s.row.status.due = true ∧ Shared.unrecorded
        ⟨s.row, s.asked ++ [precheck], s.messages ++ [precheck]⟩ = false) := by
      rw [hunrecorded]
      exact fun hboth => absurd hboth.2 Bool.true_eq_false.mp
    rw [if_neg hneg, List.length_append]
    exact hcounted
  · rcases List.mem_append.mp hmem with hmem | hmem
    · exact h.recorded message hmem
    · rw [List.mem_singleton.mp hmem]
      exact Or.inl (congrArg Notification.version hread)

end Kept

/-- An allowed turn keeps the messages, and what every call relies on. -/
theorem kept_turn (h : Kept s) (hk : Relies s.row k) (hallowed : Allowed s k choice)
    (ht : turn k choice s = some (k', s')) :
    Kept s' ∧ Relies s'.row k' ∧ ∀ other, Relies s.row other → Relies s'.row other := by
  obtain ⟨hreads, hdelivers, hoverwrites⟩ := hallowed
  have hothers : ∀ {new : Notification}, s.row.version = new.version →
      ∀ other, Relies s.row other → Relies { new with version := new.version + 1 } other := by
    intro new hversion other hother
    exact hother.saved (hversion ▸ Nat.lt_succ_self _)
  cases turned ht with
  | called hextends => exact ⟨h, ⟨hextends.version.le, fun _ => hextends⟩, fun _ => id⟩
  | refused => exact ⟨h, trivial, fun _ => id⟩
  | saved hversion =>
    exact ⟨h.extended (hk.2 hversion) (hoverwrites _ rfl hversion), trivial, hothers hversion⟩
  | conflicted => exact ⟨h, trivial, fun _ => id⟩
  | prechecked => exact ⟨h, ⟨⟨le_refl _, fun _ => rfl⟩, hreads rfl⟩, fun _ => id⟩
  | internal => exact ⟨h, hk, fun _ => id⟩
  | @delivered precheck providerRef hexternal hnew =>
    have hversion := hdelivers precheck (by simp [delivery, hnew])
    exact ⟨h.delivers (hk.1.2 hversion) (hk.2 hexternal) hnew, hk, fun _ => id⟩
  | asked hexternal => exact ⟨h.asks (hk.2 hexternal), hk, fun _ => id⟩
  | @settled precheck result attempt new choice hsettled =>
    have hversion : new.version = s.row.version := by
      cases result with
      | succeeded providerRef => exact hsettled.version
      | failed reason => exact hsettled.1.version
    exact ⟨h, ⟨hk, hversion ▸ hk.1.1, hversion.le, fun _ => hsettled⟩, fun _ => id⟩
  | answered => exact ⟨h, trivial, fun _ => id⟩
  | @savedSettled precheck result attempt new choice answer hversion =>
    refine ⟨?_, trivial, hothers hversion⟩
    have hsettled := hk.2.2.2 hversion
    cases result with
    | succeeded providerRef => exact h.markedSent hsettled
    | failed reason => exact h.extended hsettled.1 (hoverwrites _ rfl hversion)
  | retried => exact ⟨h, hk.1, fun _ => id⟩
  | gaveUp => exact ⟨h, trivial, fun _ => id⟩

/-- The call is settling a success for a send that read this version. -/
def Point.records (version : ℕ) : Point → Prop
  | settling precheck (.succeeded _) _ => precheck.read.version = version
  | savingSettled precheck (.succeeded _) _ _ => precheck.read.version = version
  | _ => False

def Awaited (u : State Shared Point ι) : Prop :=
  u.shared.unrecorded = true → ∃ c, (u.processes c).point.records u.shared.row.version

theorem Kept.recorded_after (h : Kept s) {new : Notification}
    (hversion : s.row.version = new.version) :
    Shared.unrecorded { s with row := { new with version := new.version + 1 } } = false := by
  refine unrecorded_eq_false.mpr fun message hmem heq => ?_
  have hle := (h.messages message hmem).1.1
  change message.read.version = new.version + 1 at heq
  omega

theorem records_turn (h : Kept s) (hk : Relies s.row k) (ht : turn k choice s = some (k', s'))
    (hunrecorded : s'.unrecorded = true) (hrecords : k.records s.row.version) :
    k'.records s'.row.version := by
  cases turned ht with
  | @settled precheck result => cases result <;> exact hrecords
  | @answered precheck result attempt _ _ hfound =>
    cases result with
    | succeeded providerRef =>
      have hnot := hfound providerRef rfl
      rw [h.due_of_unrecorded hunrecorded] at hnot
      cases hnot
    | failed reason => exact hrecords.elim
  | savedSettled hversion =>
    rw [h.recorded_after hversion] at hunrecorded
    cases hunrecorded
  | @retried precheck result attempt new _ hversion
  | @gaveUp precheck result attempt new _ _ hversion =>
    obtain ⟨-, hread, hle, -⟩ := hk
    cases result with
    | succeeded providerRef =>
      change precheck.read.version = s.row.version at hrecords
      omega
    | failed reason => exact hrecords.elim
  | _ => exact hrecords.elim

theorem unrecorded_turn (h : Kept s) (hallowed : Allowed s k choice)
    (ht : turn k choice s = some (k', s')) (hunrecorded : s'.unrecorded = true) :
    s'.row.version = s.row.version ∧ s.unrecorded = true ∨ k'.records s'.row.version := by
  cases turned ht with
  | saved hversion | savedSettled hversion =>
    rw [h.recorded_after hversion] at hunrecorded
    cases hunrecorded
  | @delivered precheck providerRef hexternal hnew =>
    exact Or.inr (hallowed.2.1 precheck (by simp [delivery, hnew]))
  | _ => exact Or.inl ⟨rfl, hunrecorded⟩

structure Invariant (u : State Shared Point ι) : Prop where
  relied : Holds Kept (fun s => Relies s.row) u
  awaited : Awaited u

theorem Invariant.start {u : State Shared Point ι} (h : Created u) : Invariant u := by
  have hnone : u.shared.unrecorded = false := by
    rw [Shared.unrecorded, h.messages]
    rfl
  refine ⟨⟨⟨?_, ?_, ?_, ?_⟩, fun c => ?_⟩, fun hunrecorded => ?_⟩
  · simp [h.asked]
  · simp [h.messages]
  · rw [h.messages, h.status]
    exact Nat.zero_le _
  · simp [h.messages]
  · obtain ⟨k, hc, hbegins⟩ := h.calls c
    rw [hc]
    cases k <;> trivial
  · rw [hnone] at hunrecorded
    cases hunrecorded

variable [DecidableEq ι] {u v : State Shared Point ι} {l : Label Choice ι}

theorem Invariant.step (h : Invariant u) (hst : Step turn u l v) (hallowed : Undisturbed u l) :
    Invariant v := by
  cases step_move hst with
  | @turn c k choice k' shared hc ht =>
    have hallowed : Allowed u.shared k choice := by
      have hpoint : Allowed u.shared (u.processes c).point choice := hallowed
      rw [hc] at hpoint
      exact hpoint
    have hrelies := h.relied.points c
    rw [hc] at hrelies
    refine ⟨h.relied.turn hc fun hkept hk => kept_turn hkept hk hallowed ht, fun hunrecorded => ?_⟩
    rw [set_shared] at hunrecorded ⊢
    rcases unrecorded_turn h.relied.shared hallowed ht hunrecorded with
      ⟨hversion, hbefore⟩ | hrecords
    · obtain ⟨d, hd⟩ := h.awaited hbefore
      refine ⟨d, ?_⟩
      by_cases hdc : d = c
      · subst hdc
        rw [hc] at hd
        rw [set_processes_self]
        exact records_turn h.relied.shared hrelies ht hunrecorded hd
      · rw [set_processes_of_ne u hdc, hversion]
        exact hd
    · refine ⟨c, ?_⟩
      rw [set_processes_self]
      exact hrecords
  | @crash c k hc =>
    refine ⟨h.relied.crash hc, fun hunrecorded => ?_⟩
    obtain ⟨d, hd⟩ := h.awaited hunrecorded
    refine ⟨d, ?_⟩
    rw [crashed_point u hc]
    exact hd

omit [DecidableEq ι] in
theorem Invariant.sentWhenDue (h : Invariant u) : SentWhenDue u := by
  refine ⟨h.relied.shared.due, h.relied.shared.le_entries, fun hquiet message hmem => ?_⟩
  rcases h.relied.shared.recorded message hmem with hversion | hrecorded
  · obtain ⟨c, hc⟩ := h.awaited (unrecorded_eq_true.mpr ⟨message, hmem, hversion⟩)
    obtain ⟨answer, hanswer⟩ := hquiet c
    rw [hanswer] at hc
    exact hc.elim
  · exact hrecorded

/-- In every run in which each send with a provider reads a notification that is due, each message
is delivered while the notification is as the send read it, and the next save after that is the
settle of a success, notifications are sent only when due and recorded truthfully. -/
theorem sent_when_due {tr : List (Label Choice ι × State Shared Point ι)} (hs : Created u)
    (hr : Run (Step turn) u tr) (hundisturbed : EveryStep Undisturbed u tr) :
    Always SentWhenDue u tr :=
  (always_of_everyStep (fun _ _ _ h hst hg => h.step hst hg) (Invariant.start hs) hr
    hundisturbed).mono fun _ h => h.sentWhenDue

def sampleNotification : Notification where
  id := "n-1"
  customerRef := "c-1"
  channels := [.email, .sms]
  channelIndex := 0
  channelIndex_lt := by decide
  template := ⟨"Your order is on its way", none⟩
  values := []
  policy := ⟨3, none⟩
  status := .created
  attempts := []
  history := []
  version := 1

def opening (points : ι → Point) : State Shared Point ι :=
  ⟨⟨sampleNotification, [], []⟩, fun c => .live (points c)⟩

omit [DecidableEq ι] in
theorem opening_created (points : ι → Point) (h : ∀ c, (points c).begins = true) :
    Created (opening points) :=
  ⟨rfl, rfl, rfl, rfl, rfl, fun c => ⟨points c, rfl, h c⟩⟩

/-- The notification is queued, the e-mail fails, and the fallback channel delivers. -/
def fallbackCalls : Fin 4 → Point
  | 0 => .calling .queue
  | 1 => .prechecking
  | 2 => .calling .retry
  | 3 => .prechecking

def fallbackRun : List (Label Choice (Fin 4) × State Shared Point (Fin 4)) :=
  attempt (next turn) (opening fallbackCalls)
    [.turn 0 (.proceeds 1), .turn 0 (.proceeds 1), .turn 1 (.proceeds 2),
      .turn 1 (.throws "unreachable"), .turn 1 (.proceeds 3), .turn 1 (.proceeds 3),
      .turn 2 (.proceeds 4), .turn 2 (.proceeds 4), .turn 3 (.proceeds 5),
      .turn 3 (.accepts "p-1" true), .turn 3 (.proceeds 6), .turn 3 (.proceeds 6)]

theorem sent_when_due_fallback :
    (lastState (opening fallbackCalls) fallbackRun).shared.messages.length = 1 ∧
      Always SentWhenDue (opening fallbackCalls) fallbackRun := by
  refine ⟨by decide +kernel, ?_⟩
  refine sent_when_due (opening_created _ (by decide)) (run_attempt _ _ _) ?_
  decide +kernel

/-- A send reads the notification before it is queued. Its provider delivers, and the settle is
refused. -/
def earlyRun : List (Label Choice Unit × State Shared Point Unit) :=
  attempt (next turn) (opening fun _ => .prechecking)
    [.turn () (.proceeds 1), .turn () (.accepts "p-1" true), .turn () (.proceeds 2)]

theorem sends_early :
    Created (opening fun _ : Unit => .prechecking) ∧
      Run (Step turn) (opening fun _ => .prechecking) earlyRun ∧
      (lastState (opening fun _ => .prechecking) earlyRun).shared.asked.map
        (fun precheck => precheck.read.status) = [.created] ∧
      (lastState (opening fun _ => .prechecking) earlyRun).shared.messages.length = 1 ∧
      (lastState (opening fun _ => .prechecking) earlyRun).shared.row.attempts = [] ∧
      ¬ Always SentWhenDue (opening fun _ => .prechecking) earlyRun := by
  refine ⟨opening_created _ fun _ => rfl, run_attempt _ _ _, by decide +kernel,
    by decide +kernel, by decide +kernel, fun h => ?_⟩
  have hlast := h.last.counted
  revert hlast
  decide +kernel

end Notifications
