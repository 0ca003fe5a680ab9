import Lumo.ExpressionKernel

/-! # Rule sets

Rules pair a condition with an outcome of the caller's. Evaluating a set of them gives the outcomes
and a trace of every rule that was considered. -/
namespace RuleSets

open Builtins ExpressionKernel

inductive RuleSetMode where
  | first_match
  | all_matches
  deriving DecidableEq

inductive RuleErrorPolicy where
  | skip
  | fail_closed
  | fail

structure Rule (τ : Type) where
  id : String
  priority : ℚ
  when : Expression
  outcome : τ
  enabled : Option Bool

structure RuleSet (τ : Type) where
  id : String
  version : ℕ
  mode : RuleSetMode
  rules : List (Rule τ)
  onError : Option RuleErrorPolicy
  fallback : Option τ

inductive RuleOutcomeStatus where
  | matched
  | not_matched
  | skipped_disabled
  | errored
  deriving DecidableEq

structure RuleTraceEntry where
  ruleId : String
  status : RuleOutcomeStatus
  error : Option EvaluationError

structure RuleSetEvaluation (τ : Type) where
  ruleSetId : String
  version : ℕ
  outcomes : List τ
  usedFallback : Bool
  degraded : Bool
  trace : List RuleTraceEntry

/-- Thrown only under the policy `fail`. -/
structure RuleEvaluationError where
  ruleSetId : String
  ruleId : String
  evaluationError : EvaluationError

variable {τ : Type}

def compareRules (a b : Rule τ × ℕ) : ℚ :=
  if a.1.priority - b.1.priority = 0 then (a.2 : ℚ) - b.2 else a.1.priority - b.1.priority

def orderRules (rules : List (Rule τ)) : List (Rule τ) :=
  (sortBy compareRules rules.zipIdx).map Prod.fst

def isRuleEnabled (rule : Rule τ) : Bool := rule.enabled ≠ some false

def RuleSet.policy (ruleSet : RuleSet τ) : RuleErrorPolicy := ruleSet.onError.getD .fail_closed

structure Gathered (τ : Type) where
  outcomes : List τ
  trace : List RuleTraceEntry
  degraded : Bool

def Gathered.note (gathered : Gathered τ) (ruleId : String) (status : RuleOutcomeStatus) :
    Gathered τ :=
  { gathered with trace := gathered.trace ++ [⟨ruleId, status, none⟩] }

def Gathered.noteError (gathered : Gathered τ) (ruleId : String) (error : EvaluationError) :
    Gathered τ :=
  { gathered with trace := gathered.trace ++ [⟨ruleId, .errored, some error⟩] }

section Evaluate

variable (ruleSet : RuleSet τ) (context : ContextValue)

def considerRules : List (Rule τ) → Gathered τ → Except RuleEvaluationError (Gathered τ)
  | [], gathered => .ok gathered
  | rule :: rest, gathered =>
    if isRuleEnabled rule = false then
      considerRules rest (gathered.note rule.id .skipped_disabled)
    else
      match evaluate context rule.when with
      | .error e =>
        match ruleSet.policy with
        | .fail => .error ⟨ruleSet.id, rule.id, e⟩
        | .fail_closed =>
          considerRules rest { gathered.noteError rule.id e with degraded := true }
        | .skip => considerRules rest (gathered.noteError rule.id e)
      | .ok false => considerRules rest (gathered.note rule.id .not_matched)
      | .ok true =>
        let matched := { gathered.note rule.id .matched with
          outcomes := gathered.outcomes ++ [rule.outcome] }
        if ruleSet.mode = .first_match then .ok matched
        else considerRules rest matched

def evaluateRuleSet : Except RuleEvaluationError (RuleSetEvaluation τ) :=
  match considerRules ruleSet context (orderRules ruleSet.rules) ⟨[], [], false⟩ with
  | .error e => .error e
  | .ok gathered =>
    let usedFallback := gathered.outcomes.isEmpty && ruleSet.fallback.isSome
    .ok { ruleSetId := ruleSet.id
          version := ruleSet.version
          outcomes := if usedFallback then ruleSet.fallback.toList else gathered.outcomes
          usedFallback := usedFallback
          degraded := gathered.degraded
          trace := gathered.trace }

end Evaluate

def matchedRuleIds (evaluation : RuleSetEvaluation τ) : List String :=
  (evaluation.trace.filter fun entry => entry.status = .matched).map (·.ruleId)

def RuleSet.paths (ruleSet : RuleSet τ) : List String :=
  (ruleSet.rules.filter isRuleEnabled).flatMap fun rule => ExpressionKernel.paths rule.when

theorem mem_orderRules {rules : List (Rule τ)} {rule : Rule τ} (h : rule ∈ orderRules rules) :
    rule ∈ rules := by
  obtain ⟨⟨found, i⟩, hmem, rfl⟩ := List.mem_map.mp h
  rw [(sortBy_perm compareRules rules.zipIdx).mem_iff] at hmem
  exact List.fst_mem_of_mem_zipIdx hmem

section Congr

variable {ruleSet : RuleSet τ} {context context' : ContextValue}

theorem considerRules_congr {rules : List (Rule τ)} {gathered : Gathered τ}
    (h : ∀ rule ∈ rules, isRuleEnabled rule = true →
      evaluate context rule.when = evaluate context' rule.when) :
    considerRules ruleSet context rules gathered =
      considerRules ruleSet context' rules gathered := by
  induction rules generalizing gathered with
  | nil => rfl
  | cons rule rest ih =>
    have hrest := fun other hother => h other (List.mem_cons_of_mem rule hother)
    rw [considerRules, considerRules]
    by_cases henabled : isRuleEnabled rule = true
    · rw [h rule List.mem_cons_self henabled]
      simp only [ih hrest]
    · rw [Bool.not_eq_true] at henabled
      rw [if_pos henabled, if_pos henabled, ih hrest]

theorem evaluateRuleSet_congr
    (h : ∀ path ∈ ruleSet.paths, reading context path = reading context' path) :
    evaluateRuleSet ruleSet context = evaluateRuleSet ruleSet context' := by
  have hrules : ∀ rule ∈ orderRules ruleSet.rules, isRuleEnabled rule = true →
      evaluate context rule.when = evaluate context' rule.when := by
    intro rule hrule henabled
    apply evaluate_congr
    intro path hpath
    apply h path
    rw [RuleSet.paths, List.mem_flatMap]
    exact ⟨rule, List.mem_filter.mpr ⟨mem_orderRules hrule, henabled⟩, hpath⟩
  rw [evaluateRuleSet, evaluateRuleSet, considerRules_congr hrules]

end Congr

/-- What happens to a rule that is considered. -/
def ruleStatus (context : ContextValue) (rule : Rule τ) : RuleOutcomeStatus :=
  if isRuleEnabled rule = false then .skipped_disabled
  else
    match evaluate context rule.when with
    | .error _ => .errored
    | .ok false => .not_matched
    | .ok true => .matched

section Considered

variable (ruleSet : RuleSet τ) (context : ContextValue)

/-- The rules up to the one that ends the evaluation. -/
def consideredOf : List (Rule τ) → List (Rule τ)
  | [] => []
  | rule :: rest =>
    if ruleSet.mode = .first_match ∧ ruleStatus context rule = .matched then [rule]
    else rule :: consideredOf rest

def considered : List (Rule τ) := consideredOf ruleSet context (orderRules ruleSet.rules)

structure Gathers (rules : List (Rule τ)) (gathered gathered' : Gathered τ) : Prop where
  outcomes : gathered'.outcomes = gathered.outcomes ++
    (rules.filter fun rule => ruleStatus context rule = .matched).map (·.outcome)
  trace : gathered'.trace.map (fun entry => (entry.ruleId, entry.status)) =
    gathered.trace.map (fun entry => (entry.ruleId, entry.status)) ++
      rules.map fun rule => (rule.id, ruleStatus context rule)
  degraded : gathered'.degraded = true ↔ gathered.degraded = true ∨
    ruleSet.policy = .fail_closed ∧ ∃ rule ∈ rules, ruleStatus context rule = .errored

end Considered

variable {ruleSet : RuleSet τ} {context : ContextValue} {rules : List (Rule τ)} {rule : Rule τ}
  {gathered gathered' gathered'' : Gathered τ}

theorem mem_of_consideredOf (h : rule ∈ consideredOf ruleSet context rules) : rule ∈ rules := by
  induction rules with
  | nil => cases h
  | cons first rest ih =>
    rw [consideredOf] at h
    split at h
    · rw [List.mem_singleton.mp h]
      exact List.mem_cons_self
    · rcases List.mem_cons.mp h with rfl | h
      · exact List.mem_cons_self
      · exact List.mem_cons_of_mem _ (ih h)

theorem Gathers.cons (hfirst : Gathers ruleSet context [rule] gathered gathered')
    (hrest : Gathers ruleSet context rules gathered' gathered'') :
    Gathers ruleSet context (rule :: rules) gathered gathered'' where
  outcomes := by
    rw [hrest.outcomes, hfirst.outcomes, List.append_assoc, ← List.map_append, ← List.filter_append,
      List.singleton_append]
  trace := by
    rw [hrest.trace, hfirst.trace, List.append_assoc, ← List.map_append, List.singleton_append]
  degraded := by
    rw [hrest.degraded, hfirst.degraded]
    simp only [List.mem_singleton, exists_eq_left, List.exists_mem_cons_iff]
    tauto

theorem gathers_note {status : RuleOutcomeStatus} (h : ruleStatus context rule = status)
    (hmatched : status ≠ .matched) (herrored : status ≠ .errored) :
    Gathers ruleSet context [rule] gathered (gathered.note rule.id status) where
  outcomes := by simp [Gathered.note, h, hmatched]
  trace := by simp [Gathered.note, h]
  degraded := by simp [Gathered.note, h, herrored]

variable (context) in
/-- Where no error is thrown, the evaluation gathers what was considered. -/
theorem considerRules_gathers (hpolicy : ruleSet.policy ≠ .fail) (rules : List (Rule τ))
    (gathered : Gathered τ) : ∃ gathered', considerRules ruleSet context rules gathered =
      .ok gathered' ∧ Gathers ruleSet context (consideredOf ruleSet context rules) gathered
        gathered' := by
  induction rules generalizing gathered with
  | nil =>
    exact ⟨gathered, rfl, by simp [consideredOf], by simp [consideredOf], by simp [consideredOf]⟩
  | cons rule rest ih =>
    have hgoes {first : Gathered τ} (hfirst : Gathers ruleSet context [rule] gathered first)
        (hstatus : ¬ (ruleSet.mode = .first_match ∧ ruleStatus context rule = .matched)) :
        ∃ gathered', considerRules ruleSet context rest first = .ok gathered' ∧
          Gathers ruleSet context (consideredOf ruleSet context (rule :: rest)) gathered
            gathered' := by
      obtain ⟨gathered', hok, hrest⟩ := ih first
      rw [consideredOf, if_neg hstatus]
      exact ⟨gathered', hok, hfirst.cons hrest⟩
    rw [considerRules]
    by_cases henabled : isRuleEnabled rule = false
    · have hstatus : ruleStatus context rule = .skipped_disabled := if_pos henabled
      rw [if_pos henabled]
      exact hgoes (gathers_note hstatus (by decide) (by decide)) (by simp [hstatus])
    rw [if_neg henabled]
    cases hvalue : evaluate context rule.when with
    | error e =>
      have hstatus : ruleStatus context rule = .errored := by
        rw [ruleStatus, if_neg henabled, hvalue]
      have hstays : ¬ (ruleSet.mode = .first_match ∧ ruleStatus context rule = .matched) := by
        simp [hstatus]
      cases hcase : ruleSet.policy with
      | fail => exact absurd hcase hpolicy
      | skip =>
        refine hgoes ⟨?_, ?_, ?_⟩ hstays
        · simp [Gathered.noteError, hstatus]
        · simp [Gathered.noteError, hstatus]
        · simp [Gathered.noteError, hcase]
      | fail_closed =>
        refine hgoes ⟨?_, ?_, ?_⟩ hstays
        · simp [Gathered.noteError, hstatus]
        · simp [Gathered.noteError, hstatus]
        · simp [hcase, hstatus]
    | ok value =>
      cases value with
      | false =>
        have hstatus : ruleStatus context rule = .not_matched := by
          rw [ruleStatus, if_neg henabled, hvalue]
        exact hgoes (gathers_note hstatus (by decide) (by decide)) (by simp [hstatus])
      | true =>
        have hstatus : ruleStatus context rule = .matched := by
          rw [ruleStatus, if_neg henabled, hvalue]
        have hfirst : Gathers ruleSet context [rule] gathered
            { gathered.note rule.id .matched with
              outcomes := gathered.outcomes ++ [rule.outcome] } :=
          ⟨by simp [hstatus], by simp [Gathered.note, hstatus], by simp [Gathered.note, hstatus]⟩
        simp only
        by_cases hmode : ruleSet.mode = .first_match
        · rw [if_pos hmode, consideredOf, if_pos ⟨hmode, hstatus⟩]
          exact ⟨_, rfl, hfirst⟩
        · rw [if_neg hmode]
          exact hgoes hfirst (by simp [hmode])

/-- An outcome that the evaluation has: that of a rule that matched, or else the fallback. -/
def Chosen (ruleSet : RuleSet τ) (context : ContextValue) (outcome : τ) : Prop :=
  (∃ rule ∈ considered ruleSet context, ruleStatus context rule = .matched ∧
    rule.outcome = outcome) ∨
  (∀ rule ∈ considered ruleSet context, ruleStatus context rule ≠ .matched) ∧
    ruleSet.fallback = some outcome

variable (context) in
theorem evaluateRuleSet_ok (hpolicy : ruleSet.policy ≠ .fail) :
    ∃ evaluation, evaluateRuleSet ruleSet context = .ok evaluation ∧
      (∀ outcome, outcome ∈ evaluation.outcomes ↔ Chosen ruleSet context outcome) ∧
      evaluation.trace.map (fun entry => (entry.ruleId, entry.status)) =
        ((considered ruleSet context).map fun rule => (rule.id, ruleStatus context rule)) ∧
      (evaluation.degraded = true ↔ ruleSet.policy = .fail_closed ∧
        ∃ rule ∈ considered ruleSet context, ruleStatus context rule = .errored) := by
  obtain ⟨gathered, hok, hgathers⟩ := considerRules_gathers context hpolicy
    (orderRules ruleSet.rules) ⟨[], [], false⟩
  have hmatched (outcome : τ) : outcome ∈ gathered.outcomes ↔
      ∃ rule ∈ considered ruleSet context, ruleStatus context rule = .matched ∧
        rule.outcome = outcome := by
    rw [hgathers.outcomes, List.nil_append, List.mem_map]
    simp only [List.mem_filter, decide_eq_true_eq, and_assoc, considered]
  refine ⟨_, by rw [evaluateRuleSet, hok], fun outcome => ?_, ?_, ?_⟩
  · cases houtcomes : gathered.outcomes with
    | nil =>
      have hnone : ∀ rule ∈ considered ruleSet context, ruleStatus context rule ≠ .matched := by
        intro rule hrule hstatus
        have hmem := (hmatched rule.outcome).mpr ⟨rule, hrule, hstatus, rfl⟩
        rw [houtcomes] at hmem
        cases hmem
      have hno : ¬ ∃ rule ∈ considered ruleSet context, ruleStatus context rule = .matched ∧
          rule.outcome = outcome :=
        fun ⟨rule, hrule, hstatus, _⟩ => hnone rule hrule hstatus
      rw [Chosen, or_iff_right hno]
      cases hfallback : ruleSet.fallback with
      | none => simp
      | some fallback => simpa [eq_comm] using fun _ => hnone
    | cons first rest =>
      rw [houtcomes] at hmatched
      obtain ⟨rule, hrule, hstatus, -⟩ := (hmatched first).mp List.mem_cons_self
      rw [Chosen, or_iff_left fun hnone => hnone.1 rule hrule hstatus, ← hmatched]
      simp
  · simpa [considered] using hgathers.trace
  · simpa [considered] using hgathers.degraded

end RuleSets
