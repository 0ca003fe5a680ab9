import Lumo.LicensingCharges

/-! # What dunning does to the subscription

A dunning run counts an attempt by saving the subscription that it read, with the next attempt of
the schedule or as expired. The lookups stay within the schedule whatever the runs do. -/
namespace Licensing

open SharedKernel Builtins Interleavings

variable {policy : DunningPolicy} {a b : Shared} {k k' : Point}

/-- A collection is made by a dunning run, and the point does not save the subscription. -/
def Plain : Point → Prop
  | .precheck caller => caller ≠ .direct
  | .collecting caller _ _ _ => caller ≠ .direct
  | .settlingSuccess caller _ _ _ => caller ≠ .direct
  | .savingPaid caller _ _ _ _ _ => caller ≠ .direct
  | .posting caller _ => caller ≠ .direct
  | .settlingFailure caller _ => caller ≠ .direct
  | .savingFailed caller _ _ _ => caller ≠ .direct
  | .savingRecovered _ _ => False
  | .savingSchedule _ _ _ => False
  | _ => True

def Observes : Point → Prop
  | .rereading _ _ => True
  | .rescheduling _ => True
  | .savingSchedule _ _ _ => True
  | _ => False

instance (k : Point) : Decidable (Observes k) := by
  unfold Observes
  split <;> infer_instance

/-- The turn ends the run without an attempt counted: the invoice no longer stands failed, the
subscription is no longer in grace, or another save came first. -/
def Quits (s : Shared) : Point → Prop
  | .rereading _ _ => s.invoice.status ≠ .failed
  | .rescheduling _ => s.subscription.status ≠ .grace
  | .savingSchedule read _ _ => read.version ≠ s.subscription.version
  | _ => False

instance (s : Shared) (k : Point) : Decidable (Quits s k) := by
  unfold Quits
  split <;> infer_instance

def Counts (s : Shared) : Point → Prop
  | .savingSchedule read _ _ => read.version = s.subscription.version
  | _ => False

instance (s : Shared) (k : Point) : Decidable (Counts s k) := by
  unfold Counts
  split <;> infer_instance

/-- What an attempt makes of the subscription: the next one of the schedule, or the end of it. -/
inductive Advances (policy : DunningPolicy) (attempt : ℕ) (new : Subscription) : Prop where
  | next (p : RetryPolicy) (hstatus : new.status = .grace) (hpolicy : new.retryPolicy = some p)
      (hattempt : p.attempt = attempt + 1)
      (hlength : attempt + 1 < policy.retryIntervalsDays.length)
  | exhausted (hstatus : new.status = .expired)
      (hlength : policy.retryIntervalsDays.length ≤ attempt + 1)

/-- Everything a turn of a dunning run can be, as far as the attempts go. -/
inductive Dunned (policy : DunningPolicy) (a : Shared) : Point → Point → Shared → Prop where
  | looks {k k' : Point} {b : Shared} (hsubscription : b.subscription = a.subscription)
      (hlookups : b.lookups = a.lookups) (hattempts : b.attempts = a.attempts)
      (hfailures : b.failures = a.failures) (hplain : Plain k') (hcounts : ¬ Counts a k)
      (hobserves : Observes k → (Quits a k ↔ ¬ Observes k')) : Dunned policy a k k' b
  | fails {caller e read new attempt} {b : Shared} (hsubscription : b.subscription = a.subscription)
      (hlookups : b.lookups = a.lookups) (hattempts : b.attempts = a.attempts)
      (hfailures : b.failures = a.failures + 1) :
      Dunned policy a (.savingFailed caller e read new) (.rereading attempt e) b
  | recovers {new} (hgrace : a.subscription.status = .grace) (hnew : new.status = .active) :
      Dunned policy a .recovering (.savingRecovered a.subscription new) a
  | recovered {read new answer} (hversion : read.version = a.subscription.version) :
      Dunned policy a (.savingRecovered read new) (.finished answer)
        { a with subscription := { new with version := read.version + 1 } }
  | reschedules {attempt new answer lookups} (hgrace : a.subscription.status = .grace)
      (hlookups : ∀ i ∈ lookups, i < policy.retryIntervalsDays.length)
      (hnew : Advances policy ((a.subscription.retryPolicy.map (·.attempt)).getD attempt) new) :
      Dunned policy a (.rescheduling attempt) (.savingSchedule a.subscription new answer)
        { a with lookups := a.lookups ++ lookups }
  | counts {read new answer} (hversion : read.version = a.subscription.version) :
      Dunned policy a (.savingSchedule read new answer) (.finished answer)
        { a with
          subscription := { new with version := read.version + 1 }
          attempts := a.attempts + 1 }

variable {caller : Caller}

theorem returned_plain (collected : Collected) : Plain (caller.returned collected) := by
  cases caller <;> cases collected <;> trivial

theorem precheck_plain (hcaller : caller ≠ .direct) (invoice : Invoice) :
    Plain (precheck caller invoice) := by
  unfold precheck
  split
  · exact returned_plain _
  split
  · exact returned_plain _
  split
  · exact returned_plain _
  split
  · split
    · exact hcaller
    · exact returned_plain _
  · exact hcaller

theorem settleSuccess_plain (hcaller : caller ≠ .direct) (reference : String)
    (settlement : Option Settlement) (attempt : ℕ) (invoice : Invoice) :
    Plain (settleSuccess caller reference settlement attempt invoice) := by
  unfold settleSuccess
  split
  · exact returned_plain _
  split
  · exact returned_plain _
  · exact hcaller

theorem afterPaid_plain (hcaller : caller ≠ .direct) (settlement : Option Settlement) :
    Plain (afterPaid caller settlement) := by
  cases settlement with
  | none => exact returned_plain _
  | some settlement => exact hcaller

theorem settleFailure_plain (hcaller : caller ≠ .direct) (e : Thrown) (invoice : Invoice) :
    Plain (settleFailure caller e invoice) := by
  unfold settleFailure
  split
  · split
    · exact returned_plain _
    · exact hcaller
  · exact returned_plain _

theorem retry_plain (subscription : Subscription) : Plain (retry subscription) := by
  unfold retry
  split
  · trivial
  · split <;> trivial

theorem findInvoice_plain (invoiceId : String) (attempt : ℕ) (invoice : Invoice) :
    Plain (findInvoice invoiceId attempt invoice) := by
  unfold findInvoice
  split
  · trivial
  · split <;> first | trivial | exact Caller.noConfusion

theorem issueInvoice_plain (attempt : ℕ) (invoice : Invoice) :
    Plain (issueInvoice attempt invoice) := by
  unfold issueInvoice
  split <;> trivial

theorem recover_cases (subscription : Subscription) :
    Plain (recover subscription) ∨ ∃ new, subscription.status = .grace ∧ new.status = .active ∧
      recover subscription = .savingRecovered subscription new := by
  unfold recover
  split
  · rename_i hgrace
    split
    · exact .inl trivial
    · rename_i new hnew
      have hactive : new.status = .active := by
        unfold Subscription.recoverFromGrace Subscription.transition at hnew
        split at hnew
        · cases hnew
          rfl
        · cases hnew
      exact .inr ⟨new.setRetryPolicy none, hgrace, hactive, rfl⟩
  · exact .inl trivial

theorem reread_cases (attempt : ℕ) (e : Thrown) (invoice : Invoice) :
    Plain (reread attempt e invoice) ∧
      (invoice.status ≠ .failed ↔ ¬ Observes (reread attempt e invoice)) := by
  unfold reread
  split
  · rename_i hstatus
    exact ⟨trivial, iff_of_true hstatus id⟩
  · rename_i hstatus
    exact ⟨trivial, iff_of_false hstatus fun h => h trivial⟩

theorem rescheduleOrExhaust_grace (hlength : (policy.retryIntervalsDays.length : ℚ) =
      policy.maxAttempts) (invoiceId : String) (attempt : ℕ) (now : ℚ)
    {subscription : Subscription} (hgrace : subscription.status = .grace) :
    ∃ lookups new answer,
      rescheduleOrExhaust policy invoiceId attempt now subscription =
        ⟨lookups, .save new answer⟩ ∧
      (∀ i ∈ lookups, i < policy.retryIntervalsDays.length) ∧
      Advances policy ((subscription.retryPolicy.map (·.attempt)).getD attempt) new := by
  obtain ⟨current, hcurrent⟩ :
      ∃ current, current = (subscription.retryPolicy.map (·.attempt)).getD attempt := ⟨_, rfl⟩
  unfold rescheduleOrExhaust
  rw [if_neg (not_not.mpr hgrace), ← hcurrent, ← hlength]
  dsimp only
  by_cases hend : policy.retryIntervalsDays.length ≤ current + 1
  · have hexhaust : subscription.exhaustDunning = .ok { subscription with status := .expired } := by
      rw [Subscription.exhaustDunning, Subscription.transition, hgrace]
      rfl
    rw [if_pos (by exact_mod_cast hend), hexhaust]
    exact ⟨[], _, _, rfl, nofun, .exhausted rfl hend⟩
  · have hnext : current + 1 < policy.retryIntervalsDays.length := Nat.lt_of_not_le hend
    rw [if_neg (by exact_mod_cast hend), retryIntervalDays_ok hnext]
    refine ⟨[current + 1], _, _, rfl, ?_, .next _ hgrace rfl rfl hnext⟩
    intro i hi
    rw [List.mem_singleton.mp hi]
    exact hnext

def ReadSubscription (s : Shared) (read : Subscription) : Prop :=
  read.version ≤ s.subscription.version ∧
    (read.version = s.subscription.version → read = s.subscription)

theorem ReadSubscription.current (s : Shared) : ReadSubscription s s.subscription :=
  ⟨le_rfl, fun _ => rfl⟩

def Coherent (policy : DunningPolicy) (s : Shared) : Point → Prop
  | .savingRecovered read new =>
    ReadSubscription s read ∧ read.status = .grace ∧ new.status = .active
  | .savingSchedule read new _ => ReadSubscription s read ∧ read.status = .grace ∧
      ∃ p, read.retryPolicy = some p ∧ Advances policy p.attempt new
  | k => Plain k

theorem Plain.coherent (h : Plain k) : Coherent policy a k := by
  cases k with
  | savingRecovered | savingSchedule => cases h
  | _ => exact h

theorem saveSubscription_eq (read new : Subscription) (s : Shared) :
    (read.version = s.subscription.version ∧ saveSubscription read new s =
      some { s with subscription := { new with version := read.version + 1 } }) ∨
    (read.version ≠ s.subscription.version ∧ saveSubscription read new s = none) := by
  unfold saveSubscription
  split
  · rename_i hversion
    exact .inl ⟨hversion, rfl⟩
  · rename_i hversion
    exact .inr ⟨hversion, rfl⟩

theorem Dunned.quiet (hplain : Plain k') (hcounts : ¬ Counts a k)
    (hobserves : Observes k → (Quits a k ↔ ¬ Observes k')) : Dunned policy a k k' a :=
  .looks rfl rfl rfl rfl hplain hcounts hobserves

theorem turned_dunned (hlength : (policy.retryIntervalsDays.length : ℚ) = policy.maxAttempts)
    (hk : Coherent policy a k) (h : Turned policy a k k' b) : Dunned policy a k k' b := by
  cases h with
  | precheck caller => exact .quiet (precheck_plain hk _) id nofun
  | answered caller tenantRef due version charge hfind => exact .quiet hk id nofun
  | accepted => exact .looks rfl rfl rfl rfl hk id nofun
  | rejected => exact .quiet hk id nofun
  | settlingSuccess => exact .quiet (settleSuccess_plain hk _ _ _ _) id nofun
  | savingPaid caller reference settlement attempt read new =>
    unfold savePaid
    rcases saveInvoice_eq read new a with ⟨-, hsave⟩ | ⟨-, hsave⟩
    · simp only [hsave]
      exact .looks rfl rfl rfl rfl (afterPaid_plain hk _) id nofun
    · simp only [hsave]
      split
      · exact .quiet hk id nofun
      · exact .quiet (returned_plain _) id nofun
  | posted caller => exact .looks rfl rfl rfl rfl (returned_plain _) id nofun
  | unposted caller => exact .quiet (returned_plain _) id nofun
  | settlingFailure caller e => exact .quiet (settleFailure_plain hk _ _) id nofun
  | savingFailed caller e read new =>
    cases caller with
    | direct => exact absurd rfl hk
    | dunning attempt =>
      unfold saveFailed
      rcases saveInvoice_eq read new a with ⟨-, hsave⟩ | ⟨-, hsave⟩
      · simp only [hsave]
        exact .fails rfl rfl rfl rfl
      · simp only [hsave]
        exact .quiet trivial id nofun
  | retrying => exact .quiet (retry_plain _) id nofun
  | findingInvoice => exact .quiet (findInvoice_plain _ _ _) id nofun
  | issuing => exact .quiet (issueInvoice_plain _ _) id nofun
  | savingIssued attempt read new =>
    unfold saveIssued
    rcases saveInvoice_eq read new a with ⟨-, hsave⟩ | ⟨-, hsave⟩
    · simp only [hsave]
      exact .looks rfl rfl rfl rfl Caller.noConfusion id nofun
    · simp only [hsave]
      exact .quiet trivial id nofun
  | recovering =>
    rcases recover_cases a.subscription with hplain | ⟨new, hgrace, hactive, hpoint⟩
    · exact .quiet hplain id nofun
    · rw [hpoint]
      exact .recovers hgrace hactive
  | savingRecovered read new =>
    unfold saveRecovered
    rcases saveSubscription_eq read new a with ⟨hversion, hsave⟩ | ⟨-, hsave⟩
    · simp only [hsave]
      exact .recovered hversion
    · simp only [hsave]
      exact .quiet trivial id nofun
  | rereading attempt e =>
    obtain ⟨hplain, hquits⟩ := reread_cases attempt e a.invoice
    exact .quiet hplain id fun _ => hquits
  | rescheduling attempt now =>
    by_cases hgrace : a.subscription.status = .grace
    · obtain ⟨lookups, new, answer, hdecided, hlookups, hnew⟩ :=
        rescheduleOrExhaust_grace hlength a.invoice.id attempt now hgrace
      unfold reschedule
      rw [hdecided]
      exact .reschedules hgrace hlookups hnew
    · unfold reschedule rescheduleOrExhaust
      rw [if_pos hgrace]
      exact .looks rfl (List.append_nil _) rfl rfl trivial id fun _ => iff_of_true hgrace id
  | savingSchedule read new answer =>
    unfold saveSchedule
    rcases saveSubscription_eq read new a with ⟨hversion, hsave⟩ | ⟨hversion, hsave⟩
    · simp only [hsave]
      exact .counts hversion
    · simp only [hsave]
      exact .quiet trivial hversion fun _ => iff_of_true hversion id

/-- The lookups are of the schedule, and the subscription stands at the attempts counted. -/
structure Schedule (policy : DunningPolicy) (s : Shared) : Prop where
  lookups : ∀ i ∈ s.lookups, i < policy.retryIntervalsDays.length
  grace : s.subscription.status = .grace → ∃ p, s.subscription.retryPolicy = some p ∧
    p.attempt = s.attempts ∧ s.attempts < policy.retryIntervalsDays.length
  expired : s.subscription.status = .expired → s.attempts = policy.retryIntervalsDays.length
  active : s.subscription.status = .active → s.attempts < policy.retryIntervalsDays.length
  known : s.subscription.status = .grace ∨ s.subscription.status = .expired ∨
    s.subscription.status = .active

theorem Coherent.kept (h : Coherent policy a k)
    (hread : ∀ read, ReadSubscription a read → ReadSubscription b read) : Coherent policy b k := by
  cases k with
  | savingRecovered | savingSchedule => exact ⟨hread _ h.1, h.2⟩
  | _ => exact h

theorem ReadSubscription.saved {read saved : Subscription} (h : ReadSubscription a read)
    (hversion : saved.version = a.subscription.version + 1)
    (hsaved : b.subscription = saved) : ReadSubscription b read := by
  rw [ReadSubscription, hsaved, hversion]
  exact ⟨h.1.trans (Nat.le_succ _), fun heq => absurd (heq ▸ h.1) (Nat.not_succ_le_self _)⟩

theorem Coherent.same (h : Coherent policy a k) (hsubscription : b.subscription = a.subscription) :
    Coherent policy b k := by
  apply h.kept
  intro read hread
  rw [ReadSubscription, hsubscription]
  exact hread

theorem Schedule.same (h : Schedule policy a) (hsubscription : b.subscription = a.subscription)
    (hlookups : b.lookups = a.lookups) (hattempts : b.attempts = a.attempts) :
    Schedule policy b := by
  constructor
  · rw [hlookups]
    exact h.lookups
  · rw [hsubscription, hattempts]
    exact h.grace
  · rw [hsubscription, hattempts]
    exact h.expired
  · rw [hsubscription, hattempts]
    exact h.active
  · rw [hsubscription]
    exact h.known

theorem Schedule.counted {new : Subscription} (h : Schedule policy a)
    (hattempts : a.attempts < policy.retryIntervalsDays.length)
    (hnew : Advances policy a.attempts new) (version : ℕ) : Schedule policy { a with
      subscription := { new with version := version }
      attempts := a.attempts + 1 } := by
  cases hnew with
  | next p hstatus hpolicy hattempt hlength =>
    exact ⟨h.lookups, fun _ => ⟨p, hpolicy, hattempt, hlength⟩,
      fun hexpired => by simp [hstatus] at hexpired, fun _ => hlength, .inl hstatus⟩
  | exhausted hstatus hlength =>
    refine ⟨h.lookups, fun hgrace => by simp [hstatus] at hgrace, fun _ => ?_,
      fun hactive => by simp [hstatus] at hactive, .inr (.inl hstatus)⟩
    exact le_antisymm hattempts hlength

theorem dunned_keeps (hlength : (policy.retryIntervalsDays.length : ℚ) = policy.maxAttempts) :
    Keeps (turn policy) (Schedule policy) (Coherent policy) := by
  intro a k choice k' b hi hk h
  cases turned_dunned hlength hk (turn_turned h) with
  | looks hsubscription hlookups hattempts _ hplain =>
    exact ⟨hi.same hsubscription hlookups hattempts, hplain.coherent,
      fun other hother => hother.same hsubscription⟩
  | fails hsubscription hlookups hattempts =>
    exact ⟨hi.same hsubscription hlookups hattempts, trivial,
      fun other hother => hother.same hsubscription⟩
  | recovers hgrace hnew =>
    exact ⟨hi, ⟨.current a, hgrace, hnew⟩, fun other hother => hother⟩
  | @recovered read new answer hversion =>
    obtain ⟨hread, hgrace, hactive⟩ := hk
    rw [hread.2 hversion] at hgrace
    obtain ⟨p, -, -, hattempts⟩ := hi.grace hgrace
    refine ⟨⟨hi.lookups, fun hstatus => ?_, fun hstatus => ?_, fun _ => hattempts,
      .inr (.inr hactive)⟩, trivial, fun other hother => hother.kept fun _ hother =>
      hother.saved (hversion ▸ rfl) rfl⟩
    · simp [hactive] at hstatus
    · simp [hactive] at hstatus
  | @reschedules attempt new answer lookups hgrace hlookups hnew =>
    obtain ⟨p, hpolicy, hattempt, -⟩ := hi.grace hgrace
    rw [hpolicy] at hnew
    refine ⟨⟨fun i hi' => ?_, hi.grace, hi.expired, hi.active, hi.known⟩,
      ⟨.current a, hgrace, p, hpolicy, hnew⟩, fun other hother => hother.same rfl⟩
    rcases List.mem_append.mp hi' with hmem | hmem
    · exact hi.lookups i hmem
    · exact hlookups i hmem
  | @counts read new answer hversion =>
    obtain ⟨hread, hgrace, p, hpolicy, hnew⟩ := hk
    rw [hread.2 hversion] at hgrace hpolicy
    obtain ⟨p', hpolicy', hattempt, hattempts⟩ := hi.grace hgrace
    obtain rfl : p = p' := Option.some.inj (hpolicy.symm.trans hpolicy')
    rw [hattempt] at hnew
    exact ⟨hi.counted hattempts hnew _, trivial, fun other hother => hother.kept fun _ hother =>
      hother.saved (hversion ▸ rfl) rfl⟩

end Licensing
