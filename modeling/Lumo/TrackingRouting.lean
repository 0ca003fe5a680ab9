import Lumo.RuleSets
import Lumo.TrackingRecord

/-! # The destination router

Which destinations an event is routed to, and what is said of the others. -/
namespace Tracking

open ExpressionKernel RuleSets Builtins

/-- `ruleOutcomeKey`: of several rules with the id, the first that is declared. -/
def ruleOutcomeKey (ruleSet : RuleSet String) (ruleId : String) : Option String :=
  (ruleSet.rules.find? fun rule => rule.id = ruleId).map (·.outcome)

/-- `route`, for the routing context of an envelope and its consent. -/
def routeByRules (resolve : String → Option DestinationDefinition) (consent : ConsentSnapshot)
    (context : ContextValue) (ruleSet : RuleSet String) :
    Except RuleEvaluationError RoutingDecision :=
  (evaluateRuleSet ruleSet context).map fun evaluation =>
    route resolve consent evaluation.outcomes
      ((evaluation.trace.filter fun entry => entry.status = .not_matched).filterMap fun entry =>
        ruleOutcomeKey ruleSet entry.ruleId) evaluation.degraded

/-- What becomes of a key that the rules chose. -/
def placement (resolve : String → Option DestinationDefinition) (consent : ConsentSnapshot)
    (key : String) : Except RoutingExclusionCode DestinationDefinition :=
  match resolve key with
  | none => .error .notRegistered
  | some destination =>
    if !destination.enabled then .error .disabled
    else if ¬ Allows consent destination.consentPurpose then .error .consentDenied
    else .ok destination

def RoutingDecision.place (decision : RoutingDecision) (key : String) :
    Except RoutingExclusionCode DestinationDefinition → RoutingDecision
  | .ok destination => { decision with routed := decision.routed ++ [destination] }
  | .error code => { decision with excluded := decision.excluded ++ [(key, code)] }

def RoutingDecision.keys (decision : RoutingDecision) : List String :=
  decision.routed.map (·.key) ++ decision.excluded.map Prod.fst

section Placed

variable {resolve : String → Option DestinationDefinition} {consent : ConsentSnapshot}
  {decision : RoutingDecision} {key : String} {keys : List String}

theorem placement_ok {destination : DestinationDefinition} :
    placement resolve consent key = .ok destination ↔ resolve key = some destination ∧
      destination.enabled = true ∧ Allows consent destination.consentPurpose := by
  rw [placement]
  cases resolve key with
  | none => simp
  | some found => grind

theorem routeOutcomes_cons : routeOutcomes resolve consent (key :: keys) decision =
    routeOutcomes resolve consent keys (decision.place key (placement resolve consent key)) := by
  rw [routeOutcomes, placement]
  cases resolve key with
  | none => rfl
  | some destination =>
    simp only
    split
    · rfl
    · split <;> rfl

/-- The reason that a key is left out for, if it is. -/
def exclusion (resolve : String → Option DestinationDefinition) (consent : ConsentSnapshot)
    (key : String) : Option (String × RoutingExclusionCode) :=
  match placement resolve consent key with
  | .ok _ => none
  | .error code => some (key, code)

theorem routeOutcomes_eq (keys : List String) (decision : RoutingDecision) :
    routeOutcomes resolve consent keys decision = { decision with
      routed :=
        decision.routed ++ keys.filterMap fun key => (placement resolve consent key).toOption
      excluded := decision.excluded ++ keys.filterMap (exclusion resolve consent) } := by
  induction keys generalizing decision with
  | nil => simp [routeOutcomes]
  | cons key keys ih =>
    rw [routeOutcomes_cons, ih]
    cases hplaced : placement resolve consent key <;>
      simp [RoutingDecision.place, exclusion, hplaced, Except.toOption]

/-- A registry holds a definition under its own key. -/
def Registered (resolve : String → Option DestinationDefinition) : Prop :=
  ∀ key destination, resolve key = some destination → destination.key = key

theorem placed_perm (hregistered : Registered resolve) (keys : List String) :
    ((keys.filterMap fun key => (placement resolve consent key).toOption).map (·.key) ++
      (keys.filterMap (exclusion resolve consent)).map Prod.fst).Perm keys := by
  induction keys with
  | nil => exact .nil
  | cons key keys ih =>
    cases hplaced : placement resolve consent key with
    | ok destination =>
      have hkey : destination.key = key := hregistered key destination (placement_ok.mp hplaced).1
      simpa [exclusion, hplaced, Except.toOption, hkey] using ih
    | error code =>
      simpa [exclusion, hplaced, Except.toOption] using
        List.perm_middle.trans (ih.cons key)

section Route

variable {outcomes notMatched : List String} {degraded : Bool}

theorem mem_routed {destination : DestinationDefinition} :
    destination ∈ (route resolve consent outcomes notMatched degraded).routed ↔
      ∃ key ∈ outcomes, placement resolve consent key = .ok destination := by
  rw [route, routeOutcomes_eq]
  have hplaced (key : String) : (placement resolve consent key).toOption = some destination ↔
      placement resolve consent key = .ok destination := by
    cases placement resolve consent key <;> simp [Except.toOption]
  simp [hplaced]

theorem mem_excluded {code : RoutingExclusionCode} :
    (key, code) ∈ (route resolve consent outcomes notMatched degraded).excluded ↔
      (key ∈ outcomes ∧ placement resolve consent key = .error code) ∨
        code = .ruleNotMatched ∧ key ∈ notMatched ∧ key ∉ outcomes := by
  have hexclusion (other : String) : exclusion resolve consent other = some (key, code) ↔
      other = key ∧ placement resolve consent other = .error code := by
    rw [exclusion]
    split <;> simp [*]
  rw [route, routeOutcomes_eq, List.mem_append]
  simp only [List.nil_append, List.mem_filterMap, hexclusion, List.mem_eraseDups, List.mem_map,
    List.mem_filter, Bool.not_eq_true', List.contains_eq_mem, decide_eq_false_iff_not,
    Prod.mk.injEq]
  refine or_congr ⟨?_, ?_⟩ ⟨?_, ?_⟩
  · rintro ⟨_, hmem, rfl, hcode⟩
    exact ⟨hmem, hcode⟩
  · rintro ⟨hmem, hcode⟩
    exact ⟨key, hmem, rfl, hcode⟩
  · rintro ⟨_, hunseen, rfl, rfl⟩
    exact ⟨rfl, hunseen⟩
  · rintro ⟨rfl, hunseen⟩
    exact ⟨key, hunseen, rfl, rfl⟩

theorem nodup_route (hregistered : Registered resolve) :
    (route resolve consent outcomes notMatched degraded).keys.Nodup := by
  have hkeys : (route resolve consent outcomes notMatched degraded).keys.Perm
      (outcomes.eraseDups ++ notMatched.eraseDups.filter fun key => !outcomes.contains key) := by
    have hchosen := @placed_perm resolve consent hregistered outcomes.eraseDups
    simpa [RoutingDecision.keys, route, routeOutcomes_eq, Function.comp_def] using
      hchosen.append_right _
  refine hkeys.nodup_iff.mpr (List.nodup_append.mpr
    ⟨nodup_distinctValues outcomes, (nodup_distinctValues notMatched).filter _, ?_⟩)
  rintro chosen hchosen unseen hunseen rfl
  have hnew := (List.mem_filter.mp hunseen).2
  simp only [Bool.not_eq_true', List.contains_eq_mem, decide_eq_false_iff_not] at hnew
  exact hnew (List.mem_eraseDups.mp hchosen)

end Route

end Placed

section Explained

variable (resolve : String → Option DestinationDefinition) (consent : ConsentSnapshot)
  (context : ContextValue) (ruleSet : RuleSet String)

/-- The destination stands in one of the two lists. -/
def Listed (decision : RoutingDecision) (key : String) : Prop :=
  (∃ destination ∈ decision.routed, resolve key = some destination) ∨
    ∃ code, (key, code) ∈ decision.excluded

/-- What a reason says of a destination. -/
def Means (key : String) : RoutingExclusionCode → Prop
  | .notRegistered => Chosen ruleSet context key ∧ resolve key = none
  | .disabled => Chosen ruleSet context key ∧
      ∃ destination, resolve key = some destination ∧ destination.enabled = false
  | .consentDenied => Chosen ruleSet context key ∧ ∃ destination, resolve key = some destination ∧
      destination.enabled = true ∧ ¬ Allows consent destination.consentPurpose
  | .ruleNotMatched => ¬ Chosen ruleSet context key ∧ ∃ rule ∈ considered ruleSet context,
      rule.outcome = key ∧ ruleStatus context rule = .not_matched

/-- Rules whose condition cannot be evaluated degrade the decision, where they are not skipped. -/
structure Explained (decision : RoutingDecision) : Prop where
  distinct : Registered resolve → decision.keys.Nodup
  routed : ∀ destination, destination ∈ decision.routed ↔ ∃ key, Chosen ruleSet context key ∧
    resolve key = some destination ∧ destination.enabled = true ∧
      Allows consent destination.consentPurpose
  listed : (ruleSet.rules.map (·.id)).Nodup → ∀ rule ∈ considered ruleSet context,
    isRuleEnabled rule = true → ruleStatus context rule ≠ .errored →
      Listed resolve decision rule.outcome
  reasons : (ruleSet.rules.map (·.id)).Nodup → ∀ key code, (key, code) ∈ decision.excluded →
    Means resolve consent context ruleSet key code
  degraded : decision.degraded = true ↔ ruleSet.policy = .fail_closed ∧
    ∃ rule ∈ considered ruleSet context, ruleStatus context rule = .errored

end Explained

section Routes

variable {resolve : String → Option DestinationDefinition} {consent : ConsentSnapshot}
  {context : ContextValue} {ruleSet : RuleSet String} {key : String}

theorem ruleOutcomeKey_of_mem (hids : (ruleSet.rules.map (·.id)).Nodup) {rule : Rule String}
    (hrule : rule ∈ considered ruleSet context) :
    ruleOutcomeKey ruleSet rule.id = some rule.outcome := by
  have hmem : rule ∈ ruleSet.rules := mem_orderRules (mem_of_consideredOf hrule)
  rw [ruleOutcomeKey]
  cases hfound : ruleSet.rules.find? fun other => other.id = rule.id with
  | none => simpa using List.find?_eq_none.mp hfound rule hmem
  | some found =>
    have hid : found.id = rule.id := by simpa using List.find?_some hfound
    rw [Option.map_some, List.inj_on_of_nodup_map hids (List.mem_of_find?_eq_some hfound) hmem hid]

theorem means_of_placement {code : RoutingExclusionCode} (hchosen : Chosen ruleSet context key)
    (h : placement resolve consent key = .error code) :
    Means resolve consent context ruleSet key code := by
  rw [placement] at h
  cases hresolve : resolve key with
  | none =>
    rw [hresolve] at h
    cases h
    exact ⟨hchosen, hresolve⟩
  | some destination =>
    simp only [hresolve] at h
    split at h
    · rename_i hdisabled
      cases h
      exact ⟨hchosen, destination, hresolve, by simpa using hdisabled⟩
    · rename_i henabled
      split at h
      · rename_i hdenied
        cases h
        exact ⟨hchosen, destination, hresolve, by simpa using henabled, hdenied⟩
      · cases h

theorem mem_notMatched (hids : (ruleSet.rules.map (·.id)).Nodup) {trace : List RuleTraceEntry}
    (htrace : trace.map (fun entry => (entry.ruleId, entry.status)) =
      (considered ruleSet context).map fun rule => (rule.id, ruleStatus context rule)) :
    key ∈ (trace.filter fun entry => entry.status = .not_matched).filterMap
        (fun entry => ruleOutcomeKey ruleSet entry.ruleId) ↔
      ∃ rule ∈ considered ruleSet context, rule.outcome = key ∧
        ruleStatus context rule = .not_matched := by
  have hpair (id : String) (status : RuleOutcomeStatus) :
      (∃ entry ∈ trace, entry.ruleId = id ∧ entry.status = status) ↔
        ∃ rule ∈ considered ruleSet context, rule.id = id ∧ ruleStatus context rule = status := by
    have hmem : (id, status) ∈ trace.map (fun entry => (entry.ruleId, entry.status)) ↔
        (id, status) ∈
          (considered ruleSet context).map fun rule => (rule.id, ruleStatus context rule) := by
      rw [htrace]
    simpa using hmem
  simp only [List.mem_filterMap, List.mem_filter, decide_eq_true_eq]
  constructor
  · rintro ⟨entry, ⟨hentry, hstatus⟩, hkey⟩
    obtain ⟨rule, hrule, hid, hsame⟩ := (hpair _ _).mp ⟨entry, hentry, rfl, hstatus⟩
    rw [← hid, ruleOutcomeKey_of_mem hids hrule] at hkey
    exact ⟨rule, hrule, Option.some.inj hkey, hsame⟩
  · rintro ⟨rule, hrule, rfl, hstatus⟩
    obtain ⟨entry, hentry, hid, hsame⟩ := (hpair _ _).mpr ⟨rule, hrule, rfl, hstatus⟩
    exact ⟨entry, ⟨hentry, hsame⟩, by rw [hid, ruleOutcomeKey_of_mem hids hrule]⟩

end Routes

/-- Every destination that the rules name is accounted for, where no rule fails to be evaluated. -/
theorem route_accounts {ruleSet : RuleSet String} (hpolicy : ruleSet.policy ≠ .fail)
    (resolve : String → Option DestinationDefinition) (consent : ConsentSnapshot)
    (context : ContextValue) : ∃ decision, routeByRules resolve consent context ruleSet =
      .ok decision ∧ Explained resolve consent context ruleSet decision := by
  obtain ⟨evaluation, hok, hchosen, htrace, hdegraded⟩ :=
    evaluateRuleSet_ok context hpolicy
  refine ⟨_, by rw [routeByRules, hok]; rfl, nodup_route, fun destination => ?_,
    fun hids rule hrule henabled herrored => ?_, fun hids key code hmem => ?_, ?_⟩
  · simp only [mem_routed, hchosen, placement_ok]
  · by_cases hmatched : Chosen ruleSet context rule.outcome
    · cases hplaced : placement resolve consent rule.outcome with
      | ok destination =>
        refine .inl ⟨destination, ?_, (placement_ok.mp hplaced).1⟩
        exact mem_routed.mpr ⟨_, (hchosen _).mpr hmatched, hplaced⟩
      | error code => exact .inr ⟨code, mem_excluded.mpr (.inl ⟨(hchosen _).mpr hmatched, hplaced⟩)⟩
    · have hstatus : ruleStatus context rule = .not_matched := by
        cases hstatus : ruleStatus context rule with
        | matched => exact absurd (.inl ⟨rule, hrule, hstatus, rfl⟩) hmatched
        | not_matched => rfl
        | errored => exact absurd hstatus herrored
        | skipped_disabled =>
          rw [ruleStatus, if_neg (by simp [henabled])] at hstatus
          split at hstatus <;> cases hstatus
      refine .inr ⟨.ruleNotMatched, mem_excluded.mpr (.inr ⟨rfl, ?_, ?_⟩)⟩
      · exact (mem_notMatched hids htrace).mpr ⟨rule, hrule, rfl, hstatus⟩
      · exact mt (hchosen _).mp hmatched
  · rcases mem_excluded.mp hmem with ⟨hkey, hplaced⟩ | ⟨rfl, hkey, hnew⟩
    · exact means_of_placement ((hchosen key).mp hkey) hplaced
    · exact ⟨mt (hchosen key).mpr hnew, (mem_notMatched hids htrace).mp hkey⟩
  · rw [route, routeOutcomes_eq, hdegraded]

/-! A shop with one destination, and a rule whose condition has nothing to compare. -/

def adsRule : Rule String := ⟨"ads", 1, .literal (.boolean true), "ads", none⟩

def brokenRule : Rule String :=
  ⟨"broken", 2, .compare .gt (.ref "cart.total") (.literal (.number 1)), "mail", none⟩

def shopRules : RuleSet String := ⟨"routing", 1, .all_matches, [adsRule, brokenRule], none, none⟩

def brokenRules : RuleSet String := ⟨"routing", 1, .all_matches, [brokenRule], none, none⟩

def adsDestination : DestinationDefinition where
  key := "ads"
  transport := .httpJson
  consentPurpose := .marketing
  mappingProfileKey := "ads.mapping"
  credentialRef := none
  rateLimit := none
  circuitBreaker := none
  enabled := true

def shopDestinations (key : String) : Option DestinationDefinition :=
  if key = "ads" then some adsDestination else none

def noConsent : ConsentSnapshot := ⟨false, false, false, fun _ => none⟩

theorem route_accounts_shop : ∃ decision, routeByRules shopDestinations noConsent (.object [])
    shopRules = .ok decision ∧
      Explained shopDestinations noConsent (.object []) shopRules decision :=
  route_accounts (by simp [RuleSet.policy, shopRules]) shopDestinations noConsent (.object [])

/-- The destination of a rule that cannot be evaluated stands in neither list. -/
theorem route_silent : ¬ ∀ (resolve : String → Option DestinationDefinition)
    (consent : ConsentSnapshot) (context : ContextValue) (ruleSet : RuleSet String),
      ruleSet.policy ≠ .fail → ∃ decision, routeByRules resolve consent context ruleSet =
        .ok decision ∧ ∀ rule ∈ considered ruleSet context, isRuleEnabled rule = true →
          Listed resolve decision rule.outcome := by
  intro h
  obtain ⟨decision, hok, hlisted⟩ := h shopDestinations noConsent (.object []) brokenRules
    (by simp [RuleSet.policy, brokenRules])
  have hconsidered : brokenRule ∈ considered brokenRules (.object []) := List.mem_singleton_self _
  have hkeys : (routeByRules shopDestinations noConsent (.object []) brokenRules).toOption.map
      RoutingDecision.keys = some [] := by
    decide +kernel
  rw [hok] at hkeys
  obtain ⟨hrouted, hexcluded⟩ := List.append_eq_nil_iff.mp (Option.some.inj hkeys)
  rcases hlisted brokenRule hconsidered rfl with ⟨destination, hmem, -⟩ | ⟨code, hmem⟩
  · rw [List.map_eq_nil_iff.mp hrouted] at hmem
    cases hmem
  · rw [List.map_eq_nil_iff.mp hexcluded] at hmem
    cases hmem

end Tracking
