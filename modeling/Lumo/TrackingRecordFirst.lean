import Lumo.TrackingRuntime

/-! # The record comes first

What a call leaves in the store, against the record that it returns. -/
namespace Tracking

variable {ν : Type} {deps : RuntimeDeps ν} {input : ReceiveEventInput} {log : Log ν}
  {script : Script ν} {preparation : Preparation ν} {policy : DeliveryPolicy}

def RecordFirst (call : Call ν) : Prop :=
  ∀ effect ∈ call.effects.takeWhile (!·.isAppended), effect.isRequested = false

def Rereads (call : Call ν) : Prop :=
  ∀ record, call.ending = .returned record →
    ∃ base, call.effects.base = some base ∧ record = foldRecord base call.effects.revisions

structure Faithful (call : Call ν) : Prop where
  first : RecordFirst call
  throws : call.ending ≠ .threw
  rereads : Rereads call

def Refused (script : Script ν) (destination : DestinationDefinition) : Prop :=
  ∃ failure, script.renderPayload destination = some (.refused failure)

def Renders (deps : RuntimeDeps ν) (script : Script ν) (destination : DestinationDefinition) :
    Prop :=
  (script.destinationVersion destination.key).isSome ∧
    (script.mappingVersion destination.mappingProfileKey).isSome ∧
    match script.renderPayload destination with
    | none => False
    | some (.refused _) => True
    | some (.rendered payload) =>
      (computePayloadDigest deps.hasher (toBusinessPayload deps.text payload).payload).isSome

def Concludes (policy : DeliveryPolicy) (burial : Write) : ℕ → List Exchange → Prop
  | _, [] => False
  | attempts, first :: rest =>
    first.response.ok = true ∨
      if first.response.retryable = true ∧ attempts + 1 < policy.maxAttempts then
        first.response.ok = false ∧ Concludes policy burial (attempts + 1) rest
      else burial = .done

/-- A delivery that is not held back by its gates claims the event, unless it was claimed, and
hears from the vendor. -/
def Completes (policy : DeliveryPolicy) (breach : Option EnforcementFailure) (claimed : Bool)
    (script : DeliveryScript) : Prop :=
  match deliver policy (.starting script.held) (.starts script.startedAt breach) with
  | some (.claiming _) =>
    script.claim = .done ∧
      (claimed = true ∨ script.hasAdapter = false ∨
        Concludes policy script.burial 0 script.exchanges)
  | _ => True

def AllComplete (deps : RuntimeDeps ν) (envelope : EnrichedEnvelope) (log : Log ν) :
    List DestinationDefinition → List DeliveryScript → Prop
  | [], _ => True
  | _ :: _, [] => False
  | destination :: rest, script :: scripts =>
    Completes (destination.policy deps)
        (enforceDeliveryPreconditions script.violations envelope destination)
        (log.any (Effect.claims (idempotencyKey destination envelope))) script ∧
      AllComplete deps envelope (log ++ (deliverOnce deps envelope log destination script).1) rest
        scripts

/-- No destination comes twice, and none whose payload is refused comes before one whose payload is
rendered. -/
def Orderly (input : ReceiveEventInput) (script : Script ν) : Prop :=
  (input.routing.routed.map (·.key) ++ input.routing.excluded.map Prod.fst).Nodup ∧
    input.routing.routed.Pairwise fun a b => Refused script a → Refused script b

/-- Nothing throws but the store, and what the store has taken is in order. -/
structure Steady (deps : RuntimeDeps ν) (input : ReceiveEventInput) (log : Log ν)
    (script : Script ν) : Prop where
  identity : ∀ identity ∈ input.envelope.identity,
    identity.hashStatus = some .raw → script.hashes = true
  renders : ∀ destination ∈ input.routing.routed, Renders deps script destination
  completes : log.base = none → script.append = .done →
    ∀ preparation, prepare deps input script = some preparation →
      AllComplete deps preparation.envelope
        (log ++ [.appended (buildEventRecord input script preparation)]) preparation.prepared
        script.deliveries
  orderly : log.base = none → script.append = .done → script.history = .done →
    Orderly input script

instance decidableConcludes (policy : DeliveryPolicy) (burial : Write) :
    (attempts : ℕ) → (exchanges : List Exchange) →
      Decidable (Concludes policy burial attempts exchanges)
  | _, [] => inferInstanceAs (Decidable False)
  | attempts, first :: rest =>
    have : Decidable (Concludes policy burial (attempts + 1) rest) :=
      decidableConcludes policy burial (attempts + 1) rest
    inferInstanceAs (Decidable (first.response.ok = true ∨
      if first.response.retryable = true ∧ attempts + 1 < policy.maxAttempts then
        first.response.ok = false ∧ Concludes policy burial (attempts + 1) rest
      else burial = .done))

instance (policy : DeliveryPolicy) (breach : Option EnforcementFailure) (claimed : Bool)
    (script : DeliveryScript) : Decidable (Completes policy breach claimed script) := by
  unfold Completes
  split <;> infer_instance

instance decidableAllComplete (deps : RuntimeDeps ν) (envelope : EnrichedEnvelope) :
    (log : Log ν) → (destinations : List DestinationDefinition) →
      (scripts : List DeliveryScript) → Decidable (AllComplete deps envelope log destinations scripts)
  | _, [], _ => inferInstanceAs (Decidable True)
  | _, _ :: _, [] => inferInstanceAs (Decidable False)
  | log, destination :: rest, script :: scripts =>
    have : Decidable (AllComplete deps envelope
        (log ++ (deliverOnce deps envelope log destination script).1) rest scripts) :=
      decidableAllComplete deps envelope _ rest scripts
    inferInstanceAs (Decidable (Completes (destination.policy deps)
        (enforceDeliveryPreconditions script.violations envelope destination)
        (log.any (Effect.claims (idempotencyKey destination envelope))) script ∧
      AllComplete deps envelope (log ++ (deliverOnce deps envelope log destination script).1) rest
        scripts))

variable {destination : DestinationDefinition} {destinations : List DestinationDefinition}
  {exchanges : List Exchange} {held : DestinationRuntimeState} {unanswered : Option Bool}
  {attempts : ℕ} {burial : Write} {envelope : EnrichedEnvelope} {scripts : List DeliveryScript}

theorem prepareEntry_isSome :
    (prepareEntry deps script destination).isSome ↔ Renders deps script destination := by
  unfold prepareEntry Renders
  cases hrender : script.renderPayload destination with
  | none => simp
  | some rendered =>
    cases hversion : script.destinationVersion destination.key with
    | none => simp
    | some version =>
      cases hmapping : script.mappingVersion destination.mappingProfileKey with
      | none => simp
      | some mapping =>
        cases rendered with
        | refused failure => simp
        | rendered payload =>
          cases hdigest : computePayloadDigest deps.hasher
            (toBusinessPayload deps.text payload).payload with
          | none | some digest => simp [hdigest]

variable {entry : DestinationHistoryEntry ν} {hashes : Bool} {lastError : String}
  {point : DeliveryPoint} {pending : List (DestinationHistoryEntry ν)} {result : Delivered}
  {ending : CallEnd ν}

theorem prepareEntry_spec (h : prepareEntry deps script destination = some entry) :
    entry.destination = destination.key ∧
      (Refused script destination ∧ entry.status = .blocked ∨
        ¬ Refused script destination ∧ entry.status = .pending) := by
  unfold prepareEntry at h
  obtain ⟨rendered, hrender, h⟩ := Option.bind_eq_some_iff.mp h
  obtain ⟨version, -, h⟩ := Option.bind_eq_some_iff.mp h
  obtain ⟨mapping, -, h⟩ := Option.bind_eq_some_iff.mp h
  cases rendered with
  | refused failure =>
    cases h
    exact ⟨rfl, .inl ⟨⟨failure, hrender⟩, rfl⟩⟩
  | rendered payload =>
    obtain ⟨digest, -, h⟩ := Option.bind_eq_some_iff.mp h
    cases h
    refine ⟨rfl, .inr ⟨?_, rfl⟩⟩
    rintro ⟨failure, hrefused⟩
    rw [hrender] at hrefused
    cases hrefused

theorem prepareAll_isSome :
    (prepareAll deps script destinations).isSome ↔
      ∀ destination ∈ destinations, Renders deps script destination := by
  induction destinations with
  | nil => simp [prepareAll]
  | cons destination rest ih =>
    rw [List.forall_mem_cons, ← prepareEntry_isSome, ← ih, prepareAll]
    cases prepareEntry deps script destination with
    | none => simp
    | some entry =>
      cases prepareAll deps script rest with
      | none | some entries => simp

theorem prepareAll_spec {entries : List (DestinationDefinition × DestinationHistoryEntry ν)}
    (h : prepareAll deps script destinations = some entries) :
    entries.map Prod.fst = destinations ∧
      ∀ pair ∈ entries, prepareEntry deps script pair.1 = some pair.2 := by
  induction destinations generalizing entries with
  | nil =>
    cases h
    exact ⟨rfl, by simp⟩
  | cons destination rest ih =>
    obtain ⟨entry, hentry, h⟩ := Option.bind_eq_some_iff.mp h
    obtain ⟨others, hothers, h⟩ := Option.bind_eq_some_iff.mp h
    cases h
    obtain ⟨hkeys, hentries⟩ := ih hothers
    exact ⟨by rw [List.map_cons, hkeys], List.forall_mem_cons.mpr ⟨hentry, hentries⟩⟩

theorem prepareIdentity_isSome {identity : IdentityContext} :
    (prepareIdentity hashes identity).isSome ↔
      (identity.hashStatus = some .raw → hashes = true) := by
  unfold prepareIdentity
  by_cases hraw : identity.hashStatus = some .raw
  · cases hashes <;> simp [hraw]
  · simp [hraw]

theorem identityAfter_isSome {identity : Option IdentityContext} :
    (identityAfter hashes identity).isSome ↔
      ∀ block ∈ identity, block.hashStatus = some .raw → hashes = true := by
  cases identity with
  | none => simp [identityAfter]
  | some block => simp [identityAfter, prepareIdentity_isSome]

theorem prepare_isSome :
    (prepare deps input script).isSome ↔
      (∀ identity ∈ input.envelope.identity,
        identity.hashStatus = some .raw → script.hashes = true) ∧
      ∀ destination ∈ input.routing.routed, Renders deps script destination := by
  rw [← prepareAll_isSome, ← identityAfter_isSome, prepare]
  cases identityAfter script.hashes input.envelope.identity with
  | none => simp
  | some identity =>
    cases prepareAll deps script input.routing.routed with
    | none | some entries => simp

theorem prepare_entries (h : prepare deps input script = some preparation) :
    preparation.entries.map Prod.fst = input.routing.routed ∧
      ∀ pair ∈ preparation.entries, prepareEntry deps script pair.1 = some pair.2 := by
  unfold prepare at h
  obtain ⟨identity, -, h⟩ := Option.bind_eq_some_iff.mp h
  obtain ⟨entries, hentries, h⟩ := Option.bind_eq_some_iff.mp h
  cases h
  exact prepareAll_spec hentries

theorem afterResponse_cases (policy : DeliveryPolicy) (attempts : ℕ)
    (held : DestinationRuntimeState) (answeredAt : ℚ) (response : DeliveryResponse) :
    (response.ok = true ∧ ∃ state, afterResponse policy attempts held answeredAt response =
        .returned (.delivered attempts response.latencyMs) state) ∨
      (response.ok = false ∧ (response.retryable = true ∧ attempts < policy.maxAttempts) ∧
        ∃ state, afterResponse policy attempts held answeredAt response =
          .attempting attempts state) ∨
      response.ok = false ∧ ¬ (response.retryable = true ∧ attempts < policy.maxAttempts) ∧
        ∃ lastError state, afterResponse policy attempts held answeredAt response =
          .burying attempts lastError state := by
  unfold afterResponse
  by_cases hok : response.ok = true
  · exact .inl ⟨hok, _, if_pos hok⟩
  · rw [if_neg hok]
    rw [Bool.not_eq_true] at hok
    by_cases hretry : response.retryable = true ∧ attempts < policy.maxAttempts
    · exact .inr (.inl ⟨hok, hretry, _, if_pos hretry⟩)
    · exact .inr (.inr ⟨hok, hretry, _, _, if_neg hretry⟩)

theorem exchange_returned {destination : String} {outcome : DeliveryOutcome} :
    exchange (ν := ν) policy destination unanswered (.returned outcome held) exchanges =
      ([], .returned outcome held) := by
  cases exchanges <;> rfl

theorem exchange_burying {destination : String} :
    exchange (ν := ν) policy destination unanswered (.burying attempts lastError held) exchanges =
      ([], .burying attempts lastError held) := by
  cases exchanges <;> rfl

theorem exchange_concludes (destination : String) (unanswered : Option Bool)
    (held : DestinationRuntimeState) :
    (bury (ν := ν) policy destination burial (exchange (ν := ν) policy destination unanswered
      (.attempting attempts held) exchanges).2).2.isSome ↔
        Concludes policy burial attempts exchanges := by
  induction exchanges generalizing attempts held with
  | nil => simp [exchange, bury, Concludes]
  | cons first rest ih =>
    simp only [exchange, Concludes, deliver]
    rcases afterResponse_cases policy (attempts + 1)
      ⟨held.circuit, if attempts = 0 then held.rateLimit
        else pace policy held.rateLimit first.pacing⟩
      first.answeredAt first.response with
      ⟨hok, state, hafter⟩ | ⟨hok, hretry, state, hafter⟩ | ⟨hok, hretry, lastError, state, hafter⟩
    · simp only [hafter, exchange_returned, hok, true_or, iff_true]
      rfl
    · simp only [hafter, hok, if_pos hretry, Bool.false_eq_true, false_or, true_and]
      exact ih _
    · simp only [hafter, exchange_burying, hok, if_neg hretry, Bool.false_eq_true, false_or]
      cases burial <;> simp [bury, deliver]

theorem deliverClaimed_isSome {script : DeliveryScript} :
    (deliverClaimed (ν := ν) policy destination script (.claiming held)).2.isSome ↔
      script.hasAdapter = false ∨ Concludes policy script.burial 0 script.exchanges := by
  unfold deliverClaimed
  cases hadapter : script.hasAdapter with
  | false => simp [deliver, exchange_returned, bury]
  | true =>
    simp only [if_true, deliver]
    rw [← exchange_concludes (ν := ν) destination.key script.unanswered held]
    simp

theorem deliver_starts (policy : DeliveryPolicy) (held : DestinationRuntimeState) (startedAt : ℚ)
    (breach : Option EnforcementFailure) :
    (∃ outcome state, deliver policy (.starting held) (.starts startedAt breach) =
        some (.returned outcome state) ∧ isRefusal (toDeliveryState outcome) = true) ∨
      ∃ state, deliver policy (.starting held) (.starts startedAt breach) =
        some (.claiming state) := by
  cases breach with
  | some breach => exact .inl ⟨_, _, rfl, rfl⟩
  | none =>
    simp only [deliver, admission]
    split
    · split
      · exact .inr ⟨_, rfl⟩
      · exact .inl ⟨_, _, rfl, rfl⟩
    · split
      · split
        · exact .inr ⟨_, rfl⟩
        · exact .inl ⟨_, _, rfl, rfl⟩
      · exact .inl ⟨_, _, rfl, rfl⟩

theorem deliverOnce_isSome {script : DeliveryScript} :
    (deliverOnce deps envelope log destination script).2.isSome ↔
      Completes (destination.policy deps)
        (enforceDeliveryPreconditions script.violations envelope destination)
        (log.any (Effect.claims (idempotencyKey destination envelope))) script := by
  unfold deliverOnce Completes
  dsimp only
  rcases deliver_starts (destination.policy deps) script.held script.startedAt
    (enforceDeliveryPreconditions script.violations envelope destination) with
    ⟨outcome, state, hstart, -⟩ | ⟨state, hstart⟩
  · simp [hstart]
  · rw [hstart]
    cases hclaim : script.claim with
    | failed | unconfirmed => simp
    | done =>
      cases hclaimed : log.any (Effect.claims (idempotencyKey destination envelope)) with
      | true => simp [deliver]
      | false => simp [deliverClaimed_isSome]

theorem deliverAll_isSome :
    (deliverAll deps envelope log destinations scripts).2.isSome ↔
      AllComplete deps envelope log destinations scripts := by
  induction destinations generalizing log scripts with
  | nil => simp [deliverAll, AllComplete]
  | cons destination rest ih =>
    cases scripts with
    | nil => simp [deliverAll, AllComplete]
    | cons script scripts =>
      rw [AllComplete, ← deliverOnce_isSome, ← ih, deliverAll]
      cases houtcome : (deliverOnce deps envelope log destination script).2 with
      | none | some outcome => simp [houtcome]

theorem deliverAll_destinations {results : List Delivered}
    (h : (deliverAll deps envelope log destinations scripts).2 = some results) :
    results.map (·.destination) = destinations := by
  induction destinations generalizing log scripts results with
  | nil =>
    cases h
    rfl
  | cons destination rest ih =>
    cases scripts with
    | nil => cases h
    | cons script scripts =>
      rw [deliverAll] at h
      dsimp only at h
      cases houtcome : (deliverOnce deps envelope log destination script).2 with
      | none =>
        rw [houtcome] at h
        cases h
      | some outcome =>
        rw [houtcome] at h
        obtain ⟨others, hothers, rfl⟩ := Option.map_eq_some_iff.mp h
        rw [List.map_cons, ih hothers]

def Effect.isOutward : Effect ν → Bool
  | .claimed _ => true
  | .requested _ _ => true
  | .buried _ => true
  | _ => false

def Outward (effects : Log ν) : Prop := ∀ effect ∈ effects, effect.isOutward = true

theorem Outward.append {effects effects' : Log ν} (h : Outward effects) (h' : Outward effects') :
    Outward (effects ++ effects') := by
  intro effect he
  rcases List.mem_append.mp he with he | he
  · exact h effect he
  · exact h' effect he

theorem outward_nil : Outward ([] : Log ν) := by simp [Outward]

theorem exchange_outward {destination : String} :
    Outward (exchange (ν := ν) policy destination unanswered point exchanges).1 := by
  induction exchanges generalizing point with
  | nil =>
    cases point with
    | attempting attempts held =>
      intro effect he
      obtain ⟨accepted, -, rfl⟩ := List.mem_map.mp he
      rfl
    | _ => exact outward_nil
  | cons first rest ih =>
    cases point with
    | attempting attempts held =>
      simp only [exchange, deliver]
      exact List.forall_mem_cons.mpr ⟨rfl, ih⟩
    | _ => exact outward_nil

theorem bury_outward {destination : String} :
    Outward (bury (ν := ν) policy destination burial point).1 := by
  cases point with
  | burying attempts lastError held =>
    cases burial <;> simp [Outward, bury, deliver, Effect.isOutward]
  | _ => exact outward_nil

theorem deliverClaimed_outward {script : DeliveryScript} :
    Outward (deliverClaimed (ν := ν) policy destination script (.claiming held)).1 := by
  unfold deliverClaimed
  cases script.hasAdapter with
  | false | true => exact exchange_outward.append bury_outward

theorem deliverOnce_outward {script : DeliveryScript} :
    Outward (deliverOnce deps envelope log destination script).1 := by
  unfold deliverOnce
  dsimp only
  rcases deliver_starts (destination.policy deps) script.held script.startedAt
    (enforceDeliveryPreconditions script.violations envelope destination) with
    ⟨outcome, state, hstart, -⟩ | ⟨state, hstart⟩
  · rw [hstart]
    exact outward_nil
  · rw [hstart]
    cases script.claim with
    | failed => exact outward_nil
    | unconfirmed =>
      dsimp only
      split
      · exact outward_nil
      · simp [Outward, Effect.isOutward]
    | done =>
      dsimp only
      split
      · exact outward_nil
      · exact List.forall_mem_cons.mpr ⟨rfl, deliverClaimed_outward⟩

theorem deliverAll_outward : Outward (deliverAll deps envelope log destinations scripts).1 := by
  induction destinations generalizing log scripts with
  | nil => exact outward_nil
  | cons destination rest ih =>
    cases scripts with
    | nil => exact outward_nil
    | cons script scripts =>
      rw [deliverAll]
      dsimp only
      split
      · exact deliverOnce_outward
      · exact deliverOnce_outward.append ih

theorem outward_of_deliverAll {effects : Log ν} {results : Option (List Delivered)}
    (h : deliverAll deps envelope log destinations scripts = (effects, results)) :
    Outward effects := by
  have houtward : Outward (deliverAll deps envelope log destinations scripts).1 :=
    deliverAll_outward
  rwa [h] at houtward

theorem Outward.revisions {effects : Log ν} (h : Outward effects) : effects.revisions = [] := by
  rw [Log.revisions, List.filterMap_eq_nil_iff]
  intro effect he
  have houtward := h effect he
  cases effect with
  | revised revision => cases houtward
  | _ => rfl

section Fold

variable {key : DestinationHistoryEntry ν → String}

variable {α : Type}

theorem eq_filter_append_iff (p : α → Bool) (l : List α) :
    l = l.filter p ++ l.filter (!p ·) ↔ l.Pairwise fun a b => p a = false → p b = false := by
  induction l with
  | nil => simp
  | cons a l ih =>
    rw [List.pairwise_cons]
    cases hp : p a with
    | true => simp [hp, ih]
    | false =>
      simp only [hp, List.filter_cons, Bool.false_eq_true, if_false, Bool.not_false, if_true,
        forall_const]
      constructor
      · intro h
        have hnone : l.filter p = [] := by
          cases hfilter : l.filter p with
          | nil => rfl
          | cons b rest =>
            rw [hfilter] at h
            have hb : p b = true := List.of_mem_filter (hfilter ▸ List.mem_cons_self)
            rw [← (List.cons.inj h).1, hp] at hb
            cases hb
        have hall : ∀ b ∈ l, p b = false := fun b hb => by
          simpa using List.filter_eq_nil_iff.mp hnone b hb
        exact ⟨hall, List.pairwise_iff_forall_sublist.mpr fun hsub _ => hall _ (hsub.subset (by simp))⟩
      · rintro ⟨hall, -⟩
        have hnone : l.filter p = [] :=
          List.filter_eq_nil_iff.mpr fun b hb => by simp [hall b hb]
        have hrest : l.filter (!p ·) = l :=
          List.filter_eq_self.mpr fun b hb => by simp [hall b hb]
        rw [hnone, hrest]
        rfl

theorem eq_of_keys {β : Type} {f : α → β} {l l' : List α} (hl : (l.map f).Nodup)
    (hsub : ∀ a ∈ l', a ∈ l) (hkeys : l.map f = l'.map f) : l = l' := by
  have hlength : l.length = l'.length := by simpa using congrArg List.length hkeys
  refine List.ext_getElem hlength fun i hi hi' => ?_
  have hat : f l[i] = f l'[i] := by
    have hget : (l.map f)[i]? = (l'.map f)[i]? := by rw [hkeys]
    simpa [List.getElem?_eq_getElem hi, List.getElem?_eq_getElem hi'] using hget
  exact List.inj_on_of_nodup_map hl (List.getElem_mem hi) (hsub _ (List.getElem_mem hi')) hat

/-- The entries that a revision brings come first in the fold only if they came first, under keys
that are all different. -/
theorem foldDestinations_iff {base : List (DestinationHistoryEntry ν)}
    (extra : List (DestinationHistoryEntry ν)) {p : DestinationHistoryEntry ν → Bool}
    (revision : Revision ν) (hnew : revision.destinations.map DestinationHistoryEntry.destination =
      (base.filter p).map DestinationHistoryEntry.destination) :
    foldDestinations (base ++ extra) [revision] =
        revision.destinations ++ base.filter (!p ·) ++ extra ↔
      ((base ++ extra).map DestinationHistoryEntry.destination).Nodup ∧
        base.Pairwise fun a b => p a = false → p b = false := by
  rw [← eq_filter_append_iff]
  have hkeyed : OrderedMap.Keyed DestinationHistoryEntry.destination
      (OrderedMap.empty.setAll DestinationHistoryEntry.destination (base ++ extra)) :=
    OrderedMap.keyed_empty.setAll _
  have hsplit : (revision.destinations ++ base.filter (!p ·) ++ extra).map
      DestinationHistoryEntry.destination = (base.filter p ++ base.filter (!p ·) ++ extra).map
        DestinationHistoryEntry.destination := by
    simp only [List.map_append, hnew]
  constructor
  · intro h
    -- The keys of a map are distinct, and these are the keys of the list in another order.
    have hvalues := (hkeyed.setAll revision.destinations).map_values
    change (foldDestinations (base ++ extra) [revision]).map _ = _ at hvalues
    have hdistinct := ((OrderedMap.empty.setAll DestinationHistoryEntry.destination
      (base ++ extra)).setAll DestinationHistoryEntry.destination revision.destinations).distinct
    rw [← OrderedMap.keys, ← hvalues, h, hsplit] at hdistinct
    have hperm : (base.filter p ++ base.filter (!p ·) ++ extra).Perm (base ++ extra) :=
      (List.filter_append_perm p base).append_right extra
    have hnodup := ((hperm.map DestinationHistoryEntry.destination).nodup_iff).mp hdistinct
    refine ⟨hnodup, ?_⟩
    have hkeys : ∀ entry ∈ revision.destinations, entry.destination ∈
        (OrderedMap.empty.setAll DestinationHistoryEntry.destination (base ++ extra)).keys := by
      intro entry he
      rw [OrderedMap.keys_setAll_empty hnodup]
      have hmem := List.mem_map_of_mem (f := DestinationHistoryEntry.destination) he
      rw [hnew] at hmem
      obtain ⟨old, hold, heq⟩ := List.mem_map.mp hmem
      rw [← heq]
      exact List.mem_map_of_mem (List.mem_append_left _ (List.mem_of_mem_filter hold))
    rw [OrderedMap.keys_setAll hkeys, OrderedMap.keys_setAll_empty hnodup, h, hsplit] at hvalues
    have hsame := eq_of_keys hnodup (fun a ha => hperm.subset ha) hvalues.symm
    exact List.append_cancel_right hsame
  · rintro ⟨hnodup, hbase⟩
    have hvalues := OrderedMap.values_setAll_empty hnodup
    have hfront := OrderedMap.values_setAll_front hkeyed [] (base.filter p)
      revision.destinations (base.filter (!p ·) ++ extra)
      (by rw [hvalues, List.nil_append, ← List.append_assoc, ← hbase]) hnew
    change foldDestinations (base ++ extra) [revision] = _ at hfront
    rw [hfront, List.nil_append, List.append_assoc]

end Fold

theorem finalEntry_spec {now : ℚ} (h : finalEntry pending now result = some entry) :
    entry.destination = result.destination.key ∧
      entry.status = toDeliveryState result.outcome := by
  obtain ⟨old, hold, rfl⟩ := Option.map_eq_some_iff.mp h
  exact ⟨by simpa using List.find?_some hold, rfl⟩

theorem finalEntry_isSome (now : ℚ)
    (h : result.destination.key ∈ pending.map DestinationHistoryEntry.destination) :
    ∃ entry, finalEntry pending now result = some entry := by
  obtain ⟨old, hold, heq⟩ := List.mem_map.mp h
  have hfound : (pending.find? fun entry =>
      entry.destination = result.destination.key).isSome := by
    rw [List.find?_isSome]
    exact ⟨old, hold, by simpa using heq⟩
  obtain ⟨entry, hentry⟩ := Option.isSome_iff_exists.mp hfound
  rw [finalEntry, hentry]
  exact ⟨_, rfl⟩

theorem finalEntries_keys (now : ℚ) {results : List Delivered}
    (h : ∀ result ∈ results, result.destination.key ∈
      preparation.pending.map DestinationHistoryEntry.destination) :
    (finalEntries preparation now results).map DestinationHistoryEntry.destination =
      results.map (·.destination.key) := by
  induction results with
  | nil => rfl
  | cons result rest ih =>
    obtain ⟨entry, hentry⟩ := finalEntry_isSome now (h result List.mem_cons_self)
    rw [finalEntries, List.filterMap_cons_some hentry, List.map_cons, (finalEntry_spec hentry).1,
      List.map_cons]
    exact congrArg _ (ih fun r hr => h r (List.mem_cons_of_mem _ hr))

section Prepared

variable (h : prepare deps input script = some preparation)

include h

theorem pending_of_prepare :
    ∀ pair ∈ preparation.entries, pair.2.destination = pair.1.key ∧
      (Refused script pair.1 ∧ pair.2.status = .blocked ∨
        ¬ Refused script pair.1 ∧ pair.2.status = .pending) :=
  fun pair hpair => prepareEntry_spec ((prepare_entries h).2 pair hpair)

theorem pending_keys :
    preparation.pending.map DestinationHistoryEntry.destination =
      input.routing.routed.map (·.key) := by
  rw [← (prepare_entries h).1, Preparation.pending, List.map_map, List.map_map]
  exact List.map_congr_left fun pair hpair => (pending_of_prepare h pair hpair).1

theorem prepared_keys :
    preparation.prepared.map (·.key) =
      (preparation.pending.filter fun entry => entry.status = .pending).map
        DestinationHistoryEntry.destination := by
  rw [Preparation.prepared, Preparation.pending, List.filter_map, List.map_map, List.map_map]
  refine List.map_congr_left fun pair hpair => ?_
  exact (pending_of_prepare h pair (List.mem_of_mem_filter hpair)).1.symm

theorem blocked_eq :
    preparation.blocked =
      preparation.pending.filter fun entry => !decide (entry.status = .pending) := by
  rw [Preparation.blocked]
  refine List.filter_congr fun entry hentry => ?_
  obtain ⟨pair, hpair, rfl⟩ := List.mem_map.mp hentry
  rcases (pending_of_prepare h pair hpair).2 with ⟨-, hstatus⟩ | ⟨-, hstatus⟩
  · simp [hstatus]
  · simp [hstatus]

theorem results_known {results : List Delivered}
    (hresults : results.map (·.destination) = preparation.prepared) :
    ∀ result ∈ results, result.destination.key ∈
      preparation.pending.map DestinationHistoryEntry.destination := by
  intro result hresult
  have hmem : result.destination.key ∈ preparation.prepared.map (·.key) := by
    rw [← hresults]
    exact List.mem_map_of_mem (List.mem_map_of_mem hresult)
  rw [prepared_keys h] at hmem
  obtain ⟨entry, hentry, heq⟩ := List.mem_map.mp hmem
  rw [← heq]
  exact List.mem_map_of_mem (List.mem_of_mem_filter hentry)

theorem finalHistory_iff {results : List Delivered}
    (hresults : results.map (·.destination) = preparation.prepared)
    (revisionSeq : ℕ) :
    foldDestinations (buildEventRecord input script preparation).destinationHistory
        [finalRevision input script preparation results revisionSeq] =
          finalHistory input script preparation results ↔
      Orderly input script := by
  have hprepared : results.map (·.destination.key) = preparation.prepared.map (·.key) := by
    rw [← hresults, List.map_map]
    rfl
  have hnew := (finalEntries_keys script.now (results_known h hresults)).trans
    (hprepared.trans (prepared_keys h))
  have hfold := foldDestinations_iff (input.routing.excluded.map excludedEntry)
    (finalRevision input script preparation results revisionSeq) hnew
  rw [← blocked_eq h] at hfold
  refine hfold.trans (and_congr ?_ ?_)
  · rw [List.map_append, pending_keys h, List.map_map]
    rfl
  · rw [Preparation.pending, List.pairwise_map, ← (prepare_entries h).1, List.pairwise_map]
    refine List.Pairwise.iff_of_mem fun {a b} ha hb => ?_
    rcases (pending_of_prepare h a ha).2 with ⟨hra, hsa⟩ | ⟨hra, hsa⟩
    · rcases (pending_of_prepare h b hb).2 with ⟨hrb, hsb⟩ | ⟨hrb, hsb⟩
      · simp [hra, hsa, hrb, hsb]
      · simp [hra, hsa, hrb, hsb]
    · simp [hra, hsa]

end Prepared

/-- Everything that a call can be once it has prepared its entries. -/
inductive RecordCase (deps : RuntimeDeps ν) (input : ReceiveEventInput) (log : Log ν)
    (script : Script ν) (preparation : Preparation ν) : Call ν → Prop where
  | refused {effects} (hrefused : log.base.isSome ∨ script.append = .failed)
      (heffects : effects = []) :
      RecordCase deps input log script preparation ⟨effects, .storeFailed⟩
  | unconfirmed (hbase : log.base = none) (happend : script.append = .unconfirmed) :
      RecordCase deps input log script preparation
        ⟨[.appended (buildEventRecord input script preparation)], .storeFailed⟩
  | broken {effects} (hbase : log.base = none) (happend : script.append = .done)
      (hdeliver : deliverAll deps preparation.envelope
        (log ++ [.appended (buildEventRecord input script preparation)]) preparation.prepared
        script.deliveries = (effects, none)) :
      RecordCase deps input log script preparation
        ⟨.appended (buildEventRecord input script preparation) :: effects, .threw⟩
  | delivered (revisionSeq : ℕ) {effects results} {last : Call ν} (hbase : log.base = none)
      (happend : script.append = .done)
      (hdeliver : deliverAll deps preparation.envelope
        (log ++ [.appended (buildEventRecord input script preparation)]) preparation.prepared
        script.deliveries = (effects, some results))
      (hlast : script.history = .failed ∧ last = ⟨[], .storeFailed⟩ ∨
        script.history = .unconfirmed ∧ last =
          ⟨[.revised (finalRevision input script preparation results revisionSeq)],
            .storeFailed⟩ ∨
        script.history = .done ∧ last =
          ⟨[.revised (finalRevision input script preparation results revisionSeq)],
            .returned (finalRecord input script preparation results)⟩) :
      RecordCase deps input log script preparation
        ⟨.appended (buildEventRecord input script preparation) :: effects ++ last.effects,
          last.ending⟩

theorem record_case {call : Call ν} (h : record deps input log script preparation = call) :
    RecordCase deps input log script preparation call := by
  subst h
  unfold record
  dsimp only
  by_cases hbase : log.base.isSome
  · rw [if_pos hbase]
    exact .refused (.inl hbase) rfl
  rw [if_neg hbase]
  rw [Option.not_isSome_iff_eq_none] at hbase
  cases happend : script.append with
  | failed => exact .refused (.inr happend) rfl
  | unconfirmed => exact .unconfirmed hbase happend
  | done =>
    dsimp only
    rcases hdeliver : deliverAll deps preparation.envelope
      (log ++ [.appended (buildEventRecord input script preparation)]) preparation.prepared
      script.deliveries with ⟨effects, _ | results⟩
    all_goals simp only [hdeliver]
    · exact .broken hbase happend hdeliver
    · refine .delivered ((log ++ .appended (buildEventRecord input script preparation) ::
        effects).revisions.length + 1) hbase happend hdeliver ?_
      unfold finish
      cases hhistory : script.history with
      | failed => exact .inl ⟨rfl, rfl⟩
      | unconfirmed => exact .inr (.inl ⟨rfl, rfl⟩)
      | done => exact .inr (.inr ⟨rfl, rfl⟩)

theorem Log.base_cons (record : EventRecord ν) (effects : Log ν) :
    Log.base (.appended record :: effects) = some record := rfl

theorem Outward.revisions_append {effects : Log ν} (h : Outward effects) (initial : EventRecord ν)
    (revision : Revision ν) :
    Log.revisions (.appended initial :: effects ++ [.revised revision]) = [revision] := by
  have heffects := h.revisions
  unfold Log.revisions at heffects ⊢
  rw [List.filterMap_append, List.filterMap_cons_none rfl, heffects]
  rfl

theorem finalRecord_iff (h : prepare deps input script = some preparation)
    {results : List Delivered} (hresults : results.map (·.destination) = preparation.prepared)
    (revisionSeq : ℕ) :
    finalRecord input script preparation results =
        foldRecord (buildEventRecord input script preparation)
          [finalRevision input script preparation results revisionSeq] ↔
      Orderly input script := by
  rw [← finalHistory_iff h hresults revisionSeq]
  constructor
  · intro heq
    exact (congrArg EventRecord.destinationHistory heq).symm
  · intro heq
    unfold foldRecord finalRecord
    dsimp only
    have hordered : [finalRevision input script preparation results revisionSeq].insertionSort
        (fun a b => a.revisionSeq ≤ b.revisionSeq) =
          [finalRevision input script preparation results revisionSeq] := rfl
    rw [hordered, heq]
    simp [finalRevision]

theorem recordFirst_of_appended {record : EventRecord ν} {effects : Log ν} :
    RecordFirst (⟨.appended record :: effects, ending⟩ : Call ν) := by
  intro effect he
  cases he

theorem recordFirst_nil : RecordFirst (⟨[], ending⟩ : Call ν) := by
  intro effect he
  cases he

theorem rereads_of_not_returned {call : Call ν} (h : ∀ record, call.ending ≠ .returned record) :
    Rereads call :=
  fun record hrecord => absurd hrecord (h record)

/-- A call that is past its preparation is faithful exactly when its deliveries complete and what
it returns is in order. -/
theorem faithful_record_iff (h : prepare deps input script = some preparation) :
    Faithful (record deps input log script preparation) ↔
      (log.base = none → script.append = .done →
        AllComplete deps preparation.envelope
          (log ++ [.appended (buildEventRecord input script preparation)]) preparation.prepared
          script.deliveries) ∧
      (log.base = none → script.append = .done → script.history = .done →
        AllComplete deps preparation.envelope
          (log ++ [.appended (buildEventRecord input script preparation)]) preparation.prepared
          script.deliveries → Orderly input script) := by
  rw [← deliverAll_isSome]
  generalize hcall : record deps input log script preparation = call
  cases record_case hcall with
  | refused hrefused heffects =>
    subst heffects
    refine iff_of_true ⟨recordFirst_nil, by simp, rereads_of_not_returned (by simp)⟩ ?_
    have hnot : ¬ (log.base = none ∧ script.append = .done) := by
      rintro ⟨hbase, happend⟩
      rcases hrefused with hsome | hfailed
      · simp [hbase] at hsome
      · simp [happend] at hfailed
    exact ⟨fun hb ha => absurd ⟨hb, ha⟩ hnot, fun hb ha => absurd ⟨hb, ha⟩ hnot⟩
  | unconfirmed hbase happend =>
    refine iff_of_true ⟨recordFirst_of_appended, by simp, rereads_of_not_returned (by simp)⟩ ?_
    exact ⟨fun _ ha => by simp [happend] at ha, fun _ ha => by simp [happend] at ha⟩
  | broken hbase happend hdeliver =>
    refine iff_of_false (fun hfaithful => hfaithful.throws rfl) ?_
    rintro ⟨hcomplete, -⟩
    have hsome := hcomplete hbase happend
    simp [hdeliver] at hsome
  | @delivered revisionSeq effects results last hbase happend hdeliver hlast =>
    have hsome : (deliverAll deps preparation.envelope
        (log ++ [.appended (buildEventRecord input script preparation)]) preparation.prepared
        script.deliveries).2.isSome := by simp [hdeliver]
    have hresults : results.map (·.destination) = preparation.prepared :=
      deliverAll_destinations (by rw [hdeliver])
    have houtward := outward_of_deliverAll hdeliver
    rcases hlast with ⟨hhistory, rfl⟩ | ⟨hhistory, rfl⟩ | ⟨hhistory, rfl⟩
    · refine iff_of_true ⟨recordFirst_of_appended, by simp, rereads_of_not_returned (by simp)⟩ ?_
      exact ⟨fun _ _ => hsome, fun _ _ hdone => by simp [hhistory] at hdone⟩
    · refine iff_of_true ⟨recordFirst_of_appended, by simp, rereads_of_not_returned (by simp)⟩ ?_
      exact ⟨fun _ _ => hsome, fun _ _ hdone => by simp [hhistory] at hdone⟩
    · have hrereads : Rereads (⟨.appended (buildEventRecord input script preparation) :: effects ++
          [.revised (finalRevision input script preparation results revisionSeq)],
          .returned (finalRecord input script preparation results)⟩ : Call ν) ↔
            Orderly input script := by
        rw [← finalRecord_iff h hresults revisionSeq, Rereads]
        dsimp only
        rw [houtward.revisions_append]
        constructor
        · intro hreads
          obtain ⟨base, hbase, heq⟩ := hreads _ rfl
          cases hbase
          exact heq
        · intro heq record hrecord
          cases hrecord
          exact ⟨_, rfl, heq⟩
      constructor
      · intro hfaithful
        exact ⟨fun _ _ => hsome, fun _ _ _ _ => hrereads.mp hfaithful.rereads⟩
      · rintro ⟨-, horderly⟩
        exact ⟨recordFirst_of_appended, by simp,
          hrereads.mpr (horderly hbase happend hhistory hsome)⟩

/-- A call is faithful exactly when nothing throws but the store, and what the store has taken is
in order. -/
theorem receiveAndDeliver_faithful_iff (deps : RuntimeDeps ν) (input : ReceiveEventInput)
    (log : Log ν) (script : Script ν) :
    Faithful (receiveAndDeliver deps input log script) ↔ Steady deps input log script := by
  have hprepare : (prepare deps input script).isSome ↔ _ := prepare_isSome
  cases h : prepare deps input script with
  | none =>
    rw [h] at hprepare
    rw [receiveAndDeliver, h]
    refine iff_of_false (fun hfaithful => hfaithful.throws rfl) fun hsteady => ?_
    have hsome := hprepare.mpr ⟨hsteady.identity, hsteady.renders⟩
    cases hsome
  | some preparation =>
    rw [h] at hprepare
    obtain ⟨hidentity, hrenders⟩ := hprepare.mp rfl
    rw [receiveAndDeliver, h]
    dsimp only
    rw [faithful_record_iff h]
    constructor
    · rintro ⟨hcompletes, horderly⟩
      refine ⟨hidentity, hrenders, fun hbase happend prepared hprepared => ?_,
        fun hbase happend hhistory => horderly hbase happend hhistory (hcompletes hbase happend)⟩
      obtain rfl : preparation = prepared := Option.some.inj (h.symm.trans hprepared)
      exact hcompletes hbase happend
    · intro hsteady
      exact ⟨fun hbase happend => hsteady.completes hbase happend preparation h,
        fun hbase happend hhistory _ => hsteady.orderly hbase happend hhistory⟩

section Samples

open JsonText

def destinationKeys (record : EventRecord ν) : List String :=
  record.destinationHistory.map DestinationHistoryEntry.destination

def CallEnd.keys : CallEnd ν → Option (List String)
  | .returned record => some (destinationKeys record)
  | _ => none

theorem Rereads.keys {call : Call ν} (h : Rereads call) :
    call.ending.keys = none ∨ call.ending.keys =
      call.effects.base.map fun base => destinationKeys (foldRecord base call.effects.revisions) := by
  cases hending : call.ending with
  | returned record =>
    obtain ⟨base, hbase, rfl⟩ := h record hending
    exact .inr (by rw [hbase]; rfl)
  | storeFailed | threw => exact .inl rfl

def consented : ConsentSnapshot := ⟨true, true, true, fun _ => none⟩

def purchase : EnrichedEnvelope where
  eventId := "event"
  dedupId := "dedup"
  tenantId := "tenant"
  eventName := "purchase"
  timestamp := 0
  consent := consented
  identity := some ⟨some .sha256⟩

def vendor (key : String) : DestinationDefinition where
  key := key
  transport := .httpJson
  consentPurpose := .marketing
  mappingProfileKey := key
  credentialRef := none
  rateLimit := none
  circuitBreaker := none
  enabled := true

def plainDeps : RuntimeDeps ℤ where
  text := ⟨id, id, fun _ _ => 0⟩
  hasher := ⟨wholeNumerals, some⟩
  maxAttempts := 1
  attempts_pos := le_rfl

/-- The event is accepted at once. -/
def acceptedAtOnce : DeliveryScript where
  held := ⟨initialCircuit, ⟨0, 0⟩⟩
  startedAt := 0
  violations := []
  claim := .done
  hasAdapter := true
  exchanges := [⟨⟨0, 0, 0⟩, 0, 0, ⟨true, some 200, false, none, 0⟩⟩]
  unanswered := none
  burial := .done
  completedAt := 0

/-- The mapping of the first destination is not known, and that of the second is. -/
private def refusesFirst : Script ℤ where
  now := 0
  hashes := true
  renderPayload := fun destination => some <|
    if destination.key = "first" then .refused ⟨.mapping, "profile first unresolved"⟩
    else .rendered [("event", .string "purchase")]
  destinationVersion := fun _ => some 1
  mappingVersion := fun _ => some 1
  append := .done
  deliveries := [acceptedAtOnce]
  finishedAt := 0
  history := .done

/-- The destination whose payload is refused comes last in the record that is returned, and first in
the one that the store gives. -/
theorem receiveAndDeliver_faithful_fails :
    ¬ ∀ (deps : RuntimeDeps ℤ) (input : ReceiveEventInput) (log : Log ℤ) (script : Script ℤ),
      Faithful (receiveAndDeliver deps input log script) := by
  intro h
  have hreads := (h plainDeps ⟨purchase, [vendor "first", vendor "second"], [], false⟩ []
    refusesFirst).rereads
  exact absurd hreads.keys (by decide +kernel)

end Samples

end Tracking
