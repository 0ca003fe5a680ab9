import Mathlib.Data.List.Nodup
import Lumo.AutomationWorkflow
import Lumo.Builtins

/-! # What the executions of a workflow tell

A dispatch is settled by the execution's id. What an execution ends as is the result of the dispatch
of its current attempt as long as no retry re-opens it under a dispatch that is still out. -/
namespace Automation

open SharedKernel OptimisticTransactions LabelledRuns AutomationWorkflow

/-- One execution for each trigger, and no more attempts than are allowed. -/
structure Truthful (workflow : AutomationWorkflow) : Prop where
  triggers : (workflow.executions.map (·.triggerId)).Nodup
  attempts : ∀ x ∈ workflow.executions, x.attemptCount ≤ maxAttempts

abbrev Calls (ι : Type) := View AutomationWorkflow Point Dispatches ι

/-- What has succeeded or is given up stays as it is, and an execution succeeds or fails by the
result of a dispatch that was started for the attempt it is at. -/
structure TruthfulStep {ι : Type} (v : Calls ι) (e : Event (Option String) ι) (w : Calls ι) :
    Prop where
  final : ∀ x ∈ v.value.executions, x.status = .succeeded ∨ x.status = .deadLetter →
    x ∈ w.value.executions
  settled : ∀ y ∈ w.value.executions, y ∉ v.value.executions →
    y.status = .succeeded ∨ y.status = .failed →
    ∃ c dispatchError isNew attempt, e = .save c ∧
      v.points c = some (.settling y.id y.attemptCount dispatchError isNew attempt) ∧
      (y.status = .succeeded ↔ dispatchError = none)

/-- The execution whose dispatch is out, or has not been settled yet, and the attempt it is of. -/
def Point.inFlight : Point → Option (String × ℕ)
  | dispatching executionId _ attemptCount _ _ => some (executionId, attemptCount)
  | settling executionId attemptCount _ _ _ => some (executionId, attemptCount)
  | _ => none

/-- No retry of an execution that has attempts left is saved while a dispatch of it is in flight. -/
def Allowed {ι : Type} (v : Calls ι) : Event (Option String) ι → Prop
  | .save c => ∀ executionId, v.points c = some (.retrying executionId) →
    (∃ x ∈ v.value.executions, x.id = executionId ∧ x.attemptCount < maxAttempts) →
    ∀ c' k attemptCount, v.points c' = some k → k.inFlight ≠ some (executionId, attemptCount)
  | _ => True

inductive Saved (w new : AutomationWorkflow) : Point → Point → Prop where
  | started {triggerId attempt now actions} : (∀ x ∈ w.executions, x.triggerId ≠ triggerId) →
      new.id = w.id → new.executions = w.executions ++ [w.nextExecution triggerId now] →
      Saved w new (.starting triggerId attempt)
        (.dispatching (w.nextExecution triggerId now).id triggerId 1 actions true)
  | succeeded {executionId attemptCount isNew attempt answer x y} : x.id = executionId →
      Replaced w new x y → AutomationExecution.Moved .running .succeeded x y →
      y.attemptCount = x.attemptCount →
      Saved w new (.settling executionId attemptCount none isNew attempt) (.answered answer)
  | failed {executionId attemptCount errorMessage isNew attempt answer x y} :
      x.id = executionId → Replaced w new x y →
      AutomationExecution.Moved .running .failed x y → y.attemptCount = x.attemptCount →
      Saved w new (.settling executionId attemptCount (some errorMessage) isNew attempt)
        (.answered answer)
  | deadLettered {executionId answer x y} : x.id = executionId → Replaced w new x y →
      AutomationExecution.Moved x.status .deadLetter x y →
      (x.status = .failed ∨ x.status = .retrying) → y.attemptCount = x.attemptCount →
      Saved w new (.retrying executionId) (.answered answer)
  | reopened {executionId answer x y} : x.id = executionId → Replaced w new x y →
      x.attemptCount < maxAttempts → AutomationExecution.Moved .failed .running x y →
      y.attemptCount = x.attemptCount + 1 →
      Saved w new (.retrying executionId) (.answered answer)
  | advanced {toStatus answer} : new.id = w.id → new.executions = w.executions →
      Saved w new (.advancing toStatus) (.answered answer)

variable {k : Point} {w new : AutomationWorkflow} {now : ℤ} {triggerId : String}
  {x y : AutomationExecution}

variable {α : Type} {attempt d : ℕ} {executionId : String} {isNew : Bool} {clock : ℕ → ℤ}
  {e : Dispatches} {k' : Point}

theorem saveOr_save {save : α → Outcome AutomationWorkflow Point} {result : Except Thrown α}
    (h : Thrown.saveOr save result = .save new k) : ∃ a, result = .ok a ∧ save a = .save new k := by
  cases result with
  | ok a => exact ⟨a, rfl, h⟩
  | error e => cases h

theorem saveOr_answer {save : α → Outcome AutomationWorkflow Point} {result : Except Thrown α}
    (h : Thrown.saveOr save result = .answer k) (hsave : ∀ a k', save a ≠ .answer k') :
    ∃ answer, k = .answered answer := by
  cases result with
  | ok a => exact absurd h (hsave a k)
  | error e =>
    cases h
    exact ⟨_, rfl⟩

theorem startOrResume_save (h : startOrResume triggerId attempt now w = .save new k) :
    Saved w new (.starting triggerId attempt) k := by
  rw [startOrResume] at h
  split at h
  · split at h <;> cases h
  · rename_i hfind
    obtain ⟨⟨execution, w'⟩, hstart, hsave⟩ := saveOr_save h
    cases hsave
    obtain ⟨rfl, hid, hexecutions⟩ := startExecution_ok hstart
    refine .started (fun x hx heq => ?_) hid hexecutions
    exact absurd heq (by simpa using List.find?_eq_none.mp hfind x hx)

theorem settle_save {attemptCount : ℕ} {dispatchError : Option String}
    (h : settle executionId dispatchError isNew now w = .save new k) :
    Saved w new (.settling executionId attemptCount dispatchError isNew attempt) k := by
  unfold settle at h
  split at h
  · cases h
  · split at h
    · split at h
      · obtain ⟨w', hcomplete, hsave⟩ := saveOr_save h
        cases hsave
        obtain ⟨x, y, hid, hreplaced, hmoved, hcount⟩ := completeExecutionSuccess_ok hcomplete
        exact .succeeded hid hreplaced hmoved hcount
      · obtain ⟨w', hcomplete, hsave⟩ := saveOr_save h
        cases hsave
        obtain ⟨x, y, hid, hreplaced, hmoved, hcount⟩ := completeExecutionFailure_ok hcomplete
        exact .failed hid hreplaced hmoved hcount
    · cases h

theorem retryExecution_save (h : retryExecution executionId now w = .save new k) :
    Saved w new (.retrying executionId) k := by
  obtain ⟨w', hretry, hsave⟩ := saveOr_save h
  cases hsave
  obtain ⟨x, y, hid, hreplaced, hdead | hopen⟩ := AutomationWorkflow.retryExecution_ok hretry
  · exact .deadLettered hid hreplaced hdead.1 hdead.2.1 hdead.2.2
  · exact .reopened hid hreplaced hopen.1 hopen.2.1 hopen.2.2

theorem body_save {b} (hb : (calls clock).body k = some b) (h : b d e w = .save new k') :
    Saved w new k k' := by
  cases k with
  | starting =>
    cases hb
    exact startOrResume_save h
  | settling =>
    cases hb
    exact settle_save h
  | retrying =>
    cases hb
    exact retryExecution_save h
  | advancing =>
    cases hb
    obtain ⟨w', hmoved, hsave⟩ := saveOr_save h
    cases hsave
    obtain ⟨hid, hexecutions⟩ := transition_executions hmoved
    exact .advanced hid hexecutions
  | dispatching | answered => cases hb

theorem body_answer {b} (hb : (calls clock).body k = some b) (h : b d e w = .answer k') :
    (∃ answer, k' = .answered answer) ∨ ∃ x ∈ w.executions, ∃ triggerId actions,
      k' = .dispatching x.id triggerId x.attemptCount actions false := by
  have hchanged : ∀ w k', changed w ≠ .answer k' := fun w k' h => (by cases h)
  cases k with
  | starting triggerId attempt =>
    cases hb
    simp only [startOrResume] at h
    split at h
    · rename_i existing hfind
      split at h
      · cases h
        exact Or.inr ⟨existing, List.mem_of_find?_eq_some hfind, triggerId, _, rfl⟩
      · cases h
        exact Or.inl ⟨_, rfl⟩
    · exact Or.inl (saveOr_answer h fun _ _ h => (by cases h))
  | settling executionId _ dispatchError =>
    cases hb
    simp only [settle] at h
    split at h
    · cases h
      exact Or.inl ⟨_, rfl⟩
    · split at h
      · split at h <;> exact Or.inl (saveOr_answer h fun _ _ h => (by cases h))
      · cases h
        exact Or.inl ⟨_, rfl⟩
  | retrying | advancing =>
    cases hb
    exact Or.inl (saveOr_answer h hchanged)
  | dispatching | answered => cases hb

structure Stored (w : AutomationWorkflow) : Prop where
  truthful : Truthful w
  ids : w.executions.map (·.id) =
    (List.range w.executions.length).map fun i => w.id.value ++ toString i

theorem Stored.unique (h : Stored w) (hx : x ∈ w.executions) (hy : y ∈ w.executions)
    (hid : x.id = y.id) : x = y := by
  have hnodup : (w.executions.map (·.id)).Nodup := by
    rw [h.ids]
    refine List.Nodup.map (fun i j hij => ?_) List.nodup_range
    have htext : toString i = toString j := (String.append_right_inj _).mp hij
    have hvalue : some (i : ℚ) = some (j : ℚ) := by
      rw [← Builtins.number_toString, ← Builtins.number_toString, htext]
    exact Nat.cast_injective (Option.some.inj hvalue)
  exact List.inj_on_of_nodup_map hnodup hx hy hid

theorem Stored.replaced (h : Stored w) (hr : Replaced w new x y) (hid : y.id = x.id)
    (htrigger : y.triggerId = x.triggerId) (hcount : y.attemptCount ≤ maxAttempts) :
    Stored new := by
  have hids := hr.map_eq (f := (·.id)) hid
  have hlength : new.executions.length = w.executions.length := by
    simpa using congrArg List.length hids
  refine ⟨⟨?_, fun z hz => ?_⟩, ?_⟩
  · rw [hr.map_eq (f := (·.triggerId)) htrigger]
    exact h.truthful.triggers
  · by_cases hold : z ∈ w.executions
    · exact h.truthful.attempts z hold
    · rw [hr.came hz hold]
      exact hcount
  · rw [hids, hlength, hr.id]
    exact h.ids

theorem Stored.started (h : Stored w) (hnew : ∀ x ∈ w.executions, x.triggerId ≠ triggerId)
    (hid : new.id = w.id)
    (hexecutions : new.executions = w.executions ++ [w.nextExecution triggerId now]) :
    Stored new := by
  refine ⟨⟨?_, ?_⟩, ?_⟩
  · rw [hexecutions, List.map_append]
    refine List.nodup_append.mpr ⟨h.truthful.triggers, List.nodup_singleton _, ?_⟩
    intro t ht t' ht' heq
    obtain ⟨x, hx, rfl⟩ := List.mem_map.mp ht
    exact hnew x hx (heq.trans (List.mem_singleton.mp ht'))
  · intro x hx
    rw [hexecutions] at hx
    rcases List.mem_append.mp hx with hx | hx
    · exact h.truthful.attempts x hx
    · rw [List.mem_singleton.mp hx]
      change 1 ≤ maxAttempts
      decide
  · rw [hexecutions, List.map_append, h.ids, List.length_append, List.length_singleton,
      List.range_succ, List.map_append, hid]
    rfl

/-- A dispatch is of the attempt that its execution is at. -/
def Fits (w : AutomationWorkflow) (k : Point) : Prop :=
  ∀ executionId attemptCount, k.inFlight = some (executionId, attemptCount) →
    ∃ x ∈ w.executions, x.id = executionId ∧ x.attemptCount = attemptCount

theorem Fits.answered {answer : Answer} : Fits w (.answered answer) :=
  fun _ _ h => (by cases h)

theorem Fits.found (hx : x ∈ w.executions) {actions : List String} :
    Fits w (.dispatching x.id triggerId x.attemptCount actions isNew) := by
  intro executionId attemptCount h
  cases h
  exact ⟨x, hx, rfl, rfl⟩

theorem Fits.of_subset (h : Fits w k) (hsub : ∀ x ∈ w.executions, x ∈ new.executions) :
    Fits new k := by
  intro executionId attemptCount hk
  obtain ⟨x, hx, hxs⟩ := h executionId attemptCount hk
  exact ⟨x, hsub x hx, hxs⟩

theorem Fits.replaced (h : Fits w k) (hr : Replaced w new x y) (hid : y.id = x.id)
    (hcount : y.attemptCount = x.attemptCount) : Fits new k := by
  intro executionId attemptCount hk
  obtain ⟨z, hz, hzid, hzcount⟩ := h executionId attemptCount hk
  by_cases heq : z = x
  · subst heq
    exact ⟨y, hr.mem.2, hid.trans hzid, hcount.trans hzcount⟩
  · exact ⟨z, hr.stays hz heq, hzid, hzcount⟩

theorem Fits.reopened (h : Fits w k) (hr : Replaced w new x y)
    (hfree : ∀ attemptCount, k.inFlight ≠ some (x.id, attemptCount)) : Fits new k := by
  intro executionId attemptCount hk
  obtain ⟨z, hz, hzid, hzcount⟩ := h executionId attemptCount hk
  have hne : z ≠ x := by
    rintro rfl
    exact hfree attemptCount (hzid ▸ hk)
  exact ⟨z, hr.stays hz hne, hzid, hzcount⟩

theorem inFlight_conflict (clock : ℕ → ℤ) (k : Point) :
    ((calls clock).conflict k).inFlight = none ∨
      ((calls clock).conflict k).inFlight = k.inFlight := by
  cases k with
  | starting triggerId attempt | settling executionId attemptCount dispatchError isNew attempt =>
    by_cases h : attempt < maxConcurrencyRetries
    · simp [calls, h, Point.inFlight]
    · simp [calls, h, concurrencyError, Point.inFlight]
  | _ => exact Or.inl rfl

structure Kept {ι : Type} (v : Calls ι) : Prop where
  stored : Stored v.value
  fits : ∀ c k, v.points c = some k → Fits v.value k

section Runs

variable {ι : Type} [DecidableEq ι] {clock : ℕ → ℤ}

variable {v w : Calls ι}

variable {c : ι} {e : Event (Option String) ι} {target : AutomationExecutionStatus}

theorem Kept.moved (h : Kept v) {x : Option Point}
    (hpoints : w.points = Function.update v.points c x) (hstored : Stored w.value)
    (hx : ∀ k, x = some k → Fits w.value k)
    (hothers : ∀ c k, v.points c = some k → Fits v.value k → Fits w.value k) : Kept w := by
  refine ⟨hstored, ?_⟩
  rw [hpoints]
  exact points_update (fun c k hk => hothers c k hk (h.fits c k hk)) hx

theorem kept_step (v : Calls ι) (e : Event (Option String) ι) (w : Calls ι) (h : Kept v)
    (hst : AtomicStep (calls clock) v e w) (ha : Allowed v e) : Kept w := by
  cases hst with
  | @answer c k b d env k' spent hc hb hfresh ho hspent =>
    refine h.moved rfl h.stored (fun k₁ hk₁ => ?_) fun _ _ _ hfits => hfits
    cases hk₁
    rcases body_answer hb ho with ⟨answer, rfl⟩ | ⟨x, hx, triggerId, actions, rfl⟩
    · exact Fits.answered
    · exact Fits.found hx
  | @save c k b d env new k' spent hc hb hfresh ho hspent =>
    have hsaved := body_save hb ho
    cases hsaved with
    | @started triggerId attempt now actions hnew hid hexecutions =>
      refine h.moved rfl (h.stored.started hnew hid hexecutions) (fun k₁ hk₁ => ?_) ?_
      · cases hk₁
        have hmem : v.value.nextExecution triggerId now ∈ new.executions := by simp [hexecutions]
        exact Fits.found (x := v.value.nextExecution triggerId now) hmem
      · intro _ _ _ hfits
        exact hfits.of_subset fun x hx => by simp [hexecutions, hx]
    | @succeeded _ _ _ _ _ x y hid hreplaced hmoved hcount
    | @failed _ _ _ _ _ _ x y hid hreplaced hmoved hcount
    | @deadLettered _ _ x y hid hreplaced hmoved hsource hcount =>
      refine h.moved rfl (h.stored.replaced hreplaced hmoved.id hmoved.triggerId ?_) ?_ ?_
      · rw [hcount]
        exact h.stored.truthful.attempts x hreplaced.mem.1
      · rintro _ ⟨⟩
        exact Fits.answered
      · exact fun _ _ _ hfits => hfits.replaced hreplaced hmoved.id hcount
    | @reopened _ _ x y hid hreplaced hleft hmoved hcount =>
      refine h.moved rfl (h.stored.replaced hreplaced hmoved.id hmoved.triggerId ?_) ?_ ?_
      · rw [hcount]
        exact hleft
      · rintro _ ⟨⟩
        exact Fits.answered
      · intro c' k hk hfits
        refine hfits.reopened hreplaced fun attemptCount => ?_
        rw [hid]
        exact ha _ hc ⟨x, hreplaced.mem.1, hid, hleft⟩ c' k attemptCount hk
    | advanced hid hexecutions =>
      refine h.moved rfl ?_ ?_ fun _ _ _ hfits => hfits.of_subset (by simp [hexecutions])
      · refine ⟨⟨?_, ?_⟩, ?_⟩
        · rw [hexecutions]
          exact h.stored.truthful.triggers
        · rw [hexecutions]
          exact h.stored.truthful.attempts
        · rw [hexecutions, hid]
          exact h.stored.ids
      · rintro _ ⟨⟩
        exact Fits.answered
  | @conflict c k b spent hc hb hspent =>
    refine h.moved rfl h.stored (fun k₁ hk₁ => ?_) fun _ _ _ hfits => hfits
    cases hk₁
    intro executionId attemptCount hflight
    rcases inFlight_conflict clock k with hnone | hsame
    · rw [hnone] at hflight
      cases hflight
    · exact h.fits c k hc executionId attemptCount (hsame ▸ hflight)
  | @act c k dispatchError k' env hc hact =>
    refine h.moved rfl h.stored (fun k₁ hk₁ => ?_) fun _ _ _ hfits => hfits
    cases hk₁
    have hfits := h.fits c k hc
    cases k with
    | dispatching => cases hact; exact hfits
    | starting | settling | retrying | advancing | answered => cases hact
  | crash hspent =>
    exact h.moved rfl h.stored (fun _ hk => (by cases hk)) fun _ _ _ hfits => hfits
  | idle => exact h

omit [DecidableEq ι] in
theorem TruthfulStep.same (h : w.value.executions = v.value.executions) : TruthfulStep v e w where
  final _ hx _ := h ▸ hx
  settled _ hy hold _ := absurd (h ▸ hy) hold

omit [DecidableEq ι] in
theorem TruthfulStep.completed {x y : AutomationExecution} {dispatchError : Option String}
    {isNew : Bool} {attempt attemptCount : ℕ} (h : Kept v)
    (hc : v.points c = some (.settling x.id attemptCount dispatchError isNew attempt))
    (hreplaced : Replaced v.value w.value x y)
    (hmoved : AutomationExecution.Moved .running target x y)
    (hcount : y.attemptCount = x.attemptCount)
    (htarget : target = .succeeded ↔ dispatchError = none) : TruthfulStep v (.save c) w := by
  constructor
  · intro z hz hstatus
    refine hreplaced.stays hz ?_
    rintro rfl
    rw [hmoved.source] at hstatus
    rcases hstatus with hstatus | hstatus <;> cases hstatus
  · intro z hz hold _
    obtain rfl := hreplaced.came hz hold
    obtain ⟨found, hfound, hid, hattempt⟩ := h.fits c _ hc x.id attemptCount rfl
    obtain rfl := h.stored.unique hfound hreplaced.mem.1 hid
    refine ⟨c, dispatchError, isNew, attempt, rfl, ?_, ?_⟩
    · rw [hmoved.id, hcount, hattempt]
      exact hc
    · rw [hmoved.target]
      exact htarget

omit [DecidableEq ι] in
theorem TruthfulStep.retried {x y : AutomationExecution} {source : AutomationExecutionStatus}
    (hreplaced : Replaced v.value w.value x y)
    (hmoved : AutomationExecution.Moved source target x y)
    (hsource : source = .failed ∨ source = .retrying)
    (htarget : target = .running ∨ target = .deadLetter) : TruthfulStep v e w := by
  constructor
  · intro z hz hstatus
    refine hreplaced.stays hz ?_
    rintro rfl
    rw [hmoved.source] at hstatus
    rcases hsource with rfl | rfl <;> rcases hstatus with hstatus | hstatus <;> cases hstatus
  · intro z hz hold hstatus
    obtain rfl := hreplaced.came hz hold
    rw [hmoved.target] at hstatus
    rcases htarget with rfl | rfl <;> rcases hstatus with hstatus | hstatus <;> cases hstatus

theorem truthful_step (v : Calls ι) (e : Event (Option String) ι) (w : Calls ι) (h : Kept v)
    (hst : AtomicStep (calls clock) v e w) (_ : Allowed v e) : TruthfulStep v e w := by
  cases hst with
  | @save c k b d env new k' spent hc hb hfresh ho hspent =>
    have hsaved := body_save hb ho
    cases hsaved with
    | @started triggerId attempt now actions hnew hid hexecutions =>
      constructor
      · intro z hz _
        rw [hexecutions]
        exact List.mem_append_left _ hz
      · intro z hz hold hstatus
        rw [hexecutions] at hz
        rcases List.mem_append.mp hz with hz | hz
        · exact absurd hz hold
        · rw [List.mem_singleton.mp hz] at hstatus
          rcases hstatus with hstatus | hstatus <;> cases hstatus
    | succeeded hid hreplaced hmoved hcount | failed hid hreplaced hmoved hcount =>
      subst hid
      exact .completed h hc hreplaced hmoved hcount (by simp)
    | deadLettered hid hreplaced hmoved hsource hcount =>
      exact .retried hreplaced hmoved hsource (Or.inr rfl)
    | reopened hid hreplaced hleft hmoved hcount =>
      exact .retried hreplaced hmoved (Or.inl rfl) (Or.inl rfl)
    | advanced hid hexecutions => exact .same hexecutions
  | answer | conflict | act | crash | idle => exact .same rfl

/-- The calls on a stored workflow are still to come. -/
structure Start (s : State AutomationWorkflow Point Dispatches ι) : Prop where
  stored : Stored s.row.value
  fresh : ∀ c, ∃ k, s.calls c = .ready k ∧ k.inFlight = none

theorem executions_truthful {s : State AutomationWorkflow Point Dispatches ι}
    {tr : List (Label (Option String) ι × State AutomationWorkflow Point Dispatches ι)}
    (hs : Start s) (hr : Run (Step (calls clock)) s tr)
    (ha : EveryStep (fun s l => Allowed (view s) (event (calls clock) s l)) s tr) :
    Always (fun s => Truthful s.row.value) s tr ∧
      EveryStep (fun s l => ∀ u, Step (calls clock) s l u →
        TruthfulStep (view s) (event (calls clock) s l) (view u)) s tr := by
  have hquiet : Quiet s := by
    intro c k d v new k' hc
    obtain ⟨k₀, hk₀, -⟩ := hs.fresh c
    rw [hk₀] at hc
    cases hc
  have hkept : Kept (view s) := by
    refine ⟨hs.stored, fun c k hc executionId attemptCount hflight => ?_⟩
    obtain ⟨k₀, hk₀, hnone⟩ := hs.fresh c
    rw [point_ready hk₀] at hc
    cases hc
    rw [hnone] at hflight
    cases hflight
  obtain ⟨hkept, htruthful⟩ := always_view kept_step truthful_step hquiet hkept hr ha
  exact ⟨hkept.mono fun _ h => h.stored.truthful, htruthful⟩

end Runs

inductive Caller where
  | first
  | second
  | retry
  deriving DecidableEq

/-- A workflow without an execution, two calls of one trigger, and a retry. -/
def triggered : State AutomationWorkflow Point Dispatches Caller where
  row := ⟨⟨⟨"wf-1", by decide⟩, ["notify"], .active, [], []⟩, 1⟩
  env := []
  draws := 0
  calls
    | .first => .ready (.starting "t-1" 1)
    | .second => .ready (.starting "t-1" 1)
    | .retry => .ready (.retrying "wf-10")

def played (labels : List (Label (Option String) Caller)) :
    List (Label (Option String) Caller × State AutomationWorkflow Point Dispatches Caller) :=
  play (calls fun _ => 0) triggered labels

theorem triggered_start : Start triggered := by
  refine ⟨⟨⟨List.nodup_nil, fun x hx => (by cases hx)⟩, rfl⟩, fun c => ?_⟩
  cases c <;> exact ⟨_, rfl, rfl⟩

/-- The first dispatch is slow: the second fails, the retry re-opens the execution, and the first
settles it. -/
def slow : List (Label (Option String) Caller) :=
  [.read .first, .write .first, .read .second, .act .second (some "down"), .read .second,
    .write .second, .read .retry, .write .retry, .act .first none, .read .first, .write .first]

theorem slow_settles : Start triggered ∧ Run (Step (calls fun _ => 0)) triggered (played slow) ∧
    ¬ EveryStep (fun s l => ∀ u, Step (calls fun _ => 0) s l u →
      TruthfulStep (view s) (event (calls fun _ => 0) s l) (view u)) triggered (played slow) := by
  refine ⟨triggered_start, run_play _ _ _, fun h => ?_⟩
  have hlast := h.2.2.2.2.2.2.2.2.2.2.1 _ rfl
  obtain ⟨c, dispatchError, isNew, attempt, hsave, hpoint, -⟩ :=
    hlast.settled ⟨"wf-10", "t-1", .succeeded, 2, 0, some 0, some "down"⟩ (by decide +kernel)
      (by decide +kernel) (Or.inl rfl)
  cases hsave
  -- the dispatch was of the first attempt
  have hattempt : some (some ("wf-10", 1)) = some (some ("wf-10", 2)) :=
    congrArg (Option.map Point.inFlight) hpoint
  revert hattempt
  decide

/-- The same calls, with the retry at a time when nothing is in flight. -/
def inTurn : List (Label (Option String) Caller) :=
  [.read .first, .write .first, .act .first (some "down"), .read .first, .write .first,
    .read .retry, .write .retry, .read .second, .act .second none, .read .second, .write .second]

theorem afresh_truthful :
    Always (fun s => Truthful s.row.value) triggered (played inTurn) ∧
      EveryStep (fun s l => ∀ u, Step (calls fun _ => 0) s l u →
        TruthfulStep (view s) (event (calls fun _ => 0) s l) (view u)) triggered (played inTurn) := by
  refine executions_truthful triggered_start (run_play _ _ _) ?_
  refine ⟨trivial, ?_, trivial, trivial, ?_, trivial, ?_, trivial, trivial, trivial, ?_, trivial⟩
  · intro executionId hc
    cases hc
  · intro executionId hc
    cases hc
  · intro executionId _ _ c k attemptCount hk hflight
    cases c <;> cases hk <;> cases hflight
  · intro executionId hc
    cases hc

end Automation
