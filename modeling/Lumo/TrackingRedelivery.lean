import Lumo.LabelledRuns
import Lumo.TrackingRecordFirst

/-! # Redelivery

The same event, handed to the runtime again and again. A call that fails, or that ends with the
process, leaves what it has written so far. -/
namespace Tracking

open LabelledRuns

variable {ν : Type} {deps : RuntimeDeps ν} {input : ReceiveEventInput} {log effects : Log ν}
  {script : Script ν} {preparation : Preparation ν} {policy : DeliveryPolicy}
  {envelope : EnrichedEnvelope} {destination : DestinationDefinition} {delivery : DeliveryScript}

namespace Log

/-- Every entry that the store holds, of the base row and of the revisions. -/
def entries (log : Log ν) : List (DestinationHistoryEntry ν) :=
  log.base.toList.flatMap (·.destinationHistory) ++ log.revisions.flatMap (·.destinations)

/-- A refusal, a drop or a dead letter is recorded. -/
def Disposed (log : Log ν) (destination : String) : Prop :=
  ∃ entry ∈ log.entries, entry.destination = destination ∧ isRefusal entry.status = true

def Settled (log : Log ν) (destination : String) : Prop :=
  log.Accepted destination ∨ log.Buried destination ∨ log.Disposed destination

/-- What is recorded as delivered has been accepted. -/
def Honest (log : Log ν) : Prop :=
  ∀ entry ∈ log.entries, entry.status = .delivered → log.Accepted entry.destination

end Log

/-- No collaborator fails in the call. -/
structure NothingFails (deps : RuntimeDeps ν) (input : ReceiveEventInput) (log : Log ν)
    (script : Script ν) : Prop where
  identity : ∀ identity ∈ input.envelope.identity,
    identity.hashStatus = some .raw → script.hashes = true
  renders : ∀ destination ∈ input.routing.routed, Renders deps script destination
  append : script.append = .done
  completes : ∀ preparation, prepare deps input script = some preparation →
    AllComplete deps preparation.envelope
      (log ++ [.appended (buildEventRecord input script preparation)]) preparation.prepared
      script.deliveries
  history : script.history = .done

def Redeliverable (deps : RuntimeDeps ν) (input : ReceiveEventInput) (log : Log ν) : Prop :=
  ∀ script, NothingFails deps input log script →
    ∃ record, (receiveAndDeliver deps input log script).ending = .returned record

/-- Every destination is settled, or the event can still be delivered; and the record is honest. -/
structure AtLeastOnce (deps : RuntimeDeps ν) (input : ReceiveEventInput) (log : Log ν) : Prop where
  honest : log.Honest
  settles : (∀ destination ∈ input.routing.routed, log.Settled destination.key) ∨
    Redeliverable deps input log

def Redelivery (deps : RuntimeDeps ν) (input : ReceiveEventInput) (log : Log ν) (script : Script ν)
    (after : Log ν) : Prop :=
  after = log ++ (receiveAndDeliver deps input log script).effects

def Skips (deps : RuntimeDeps ν) (envelope : EnrichedEnvelope) (log : Log ν)
    (destination : DestinationDefinition) (delivery : DeliveryScript) : Prop :=
  match deliver (destination.policy deps) (.starting delivery.held)
    (.starts delivery.startedAt
      (enforceDeliveryPreconditions delivery.violations envelope destination)) with
  | some (.claiming _) => log.any (Effect.claims (idempotencyKey destination envelope)) = true
  | _ => False

def SkipsAccepted (deps : RuntimeDeps ν) (envelope : EnrichedEnvelope) (final : Log ν)
    (log : Log ν) : List DestinationDefinition → List DeliveryScript → Prop
  | destination :: rest, delivery :: deliveries =>
    (Skips deps envelope log destination delivery → final.Accepted destination.key) ∧
      SkipsAccepted deps envelope final
        (log ++ (deliverOnce deps envelope log destination delivery).1) rest deliveries
  | _, _ => True

def deliveriesMade (deps : RuntimeDeps ν) (input : ReceiveEventInput) (log : Log ν)
    (script : Script ν) (preparation : Preparation ν) : Log ν :=
  if script.append = .done then
    (deliverAll deps preparation.envelope
      (log ++ [.appended (buildEventRecord input script preparation)]) preparation.prepared
      script.deliveries).1
  else []

/-- The call gets past its deliveries, and the revision is written. -/
def Records (deps : RuntimeDeps ν) (input : ReceiveEventInput) (log : Log ν) (script : Script ν)
    (preparation : Preparation ν) : Prop :=
  script.append = .done ∧ script.history ≠ .failed ∧
    AllComplete deps preparation.envelope
      (log ++ [.appended (buildEventRecord input script preparation)]) preparation.prepared
      script.deliveries

/-- A destination whose vendor has accepted the event, that is dead-lettered, or whose payload was
refused. -/
def Answered (input : ReceiveEventInput) (script : Script ν) (effects : Log ν)
    (destination : DestinationDefinition) : Prop :=
  effects.Accepted destination.key ∨ effects.Buried destination.key ∨
    ∃ refused ∈ input.routing.routed, refused.key = destination.key ∧ Refused script refused

/-- A call that appends the base row records what becomes of it, and no vendor is skipped that has
not accepted the event; or else all that it prepared has been answered when it ends. -/
def Carries (deps : RuntimeDeps ν) (input : ReceiveEventInput) (log : Log ν) (script : Script ν) :
    Prop :=
  log.base = none → script.append ≠ .failed → ∀ preparation ∈ prepare deps input script,
    (Records deps input log script preparation →
      SkipsAccepted deps preparation.envelope (deliveriesMade deps input log script preparation)
        (log ++ [.appended (buildEventRecord input script preparation)]) preparation.prepared
        script.deliveries) ∧
    (¬ Records deps input log script preparation → ∀ destination ∈ preparation.prepared,
      Answered input script (deliveriesMade deps input log script preparation) destination)

instance (deps : RuntimeDeps ν) (envelope : EnrichedEnvelope) (log : Log ν)
    (destination : DestinationDefinition) (delivery : DeliveryScript) :
    Decidable (Skips deps envelope log destination delivery) := by
  unfold Skips
  split <;> infer_instance

instance decidableSkipsAccepted (deps : RuntimeDeps ν) (envelope : EnrichedEnvelope)
    (final : Log ν) : (log : Log ν) → (destinations : List DestinationDefinition) →
      (deliveries : List DeliveryScript) →
        Decidable (SkipsAccepted deps envelope final log destinations deliveries)
  | _, [], _ => inferInstanceAs (Decidable True)
  | _, _ :: _, [] => inferInstanceAs (Decidable True)
  | log, destination :: rest, delivery :: deliveries =>
    have : Decidable (SkipsAccepted deps envelope final
        (log ++ (deliverOnce deps envelope log destination delivery).1) rest deliveries) :=
      decidableSkipsAccepted deps envelope final _ rest deliveries
    inferInstanceAs (Decidable
      ((Skips deps envelope log destination delivery → final.Accepted destination.key) ∧
        SkipsAccepted deps envelope final
          (log ++ (deliverOnce deps envelope log destination delivery).1) rest deliveries))

instance (script : Script ν) (destination : DestinationDefinition) :
    Decidable (Refused script destination) :=
  match h : script.renderPayload destination with
  | none => isFalse (by rintro ⟨failure, hrefused⟩; rw [h] at hrefused; cases hrefused)
  | some (.rendered _) =>
    isFalse (by rintro ⟨failure, hrefused⟩; rw [h] at hrefused; cases hrefused)
  | some (.refused failure) => isTrue ⟨failure, h⟩

instance (input : ReceiveEventInput) (script : Script ν) (effects : Log ν)
    (destination : DestinationDefinition) :
    Decidable (Answered input script effects destination) :=
  inferInstanceAs (Decidable (_ ∨ _ ∨ _))

instance (deps : RuntimeDeps ν) (input : ReceiveEventInput) (log : Log ν) (script : Script ν)
    (preparation : Preparation ν) : Decidable (Records deps input log script preparation) :=
  inferInstanceAs (Decidable (_ ∧ _ ∧ _))

instance (deps : RuntimeDeps ν) (input : ReceiveEventInput) (log : Log ν) (script : Script ν) :
    Decidable (Carries deps input log script) := by
  unfold Carries
  infer_instance

variable {outcome : DeliveryOutcome} {d : DestinationDefinition}

variable {held : DestinationRuntimeState} {key : String} {log' : Log ν}
  {deliveries : List DeliveryScript} {results : List Delivered}

theorem exchange_outcome {unanswered : Option Bool} {burial : Write} {attempts : ℕ}
    {exchanges : List Exchange}
    (h : (bury (ν := ν) policy key burial (exchange (ν := ν) policy key unanswered
      (.attempting attempts held) exchanges).2).2 = some outcome) :
    isRefusal (toDeliveryState outcome) = true ∨
      toDeliveryState outcome = .delivered ∧ Log.Accepted (exchange (ν := ν) policy key unanswered
        (.attempting attempts held) exchanges).1 key := by
  induction exchanges generalizing attempts held with
  | nil => simp [exchange, bury] at h
  | cons first rest ih =>
    simp only [exchange, deliver] at h ⊢
    rcases afterResponse_cases policy (attempts + 1)
      ⟨held.circuit, if attempts = 0 then held.rateLimit
        else pace policy held.rateLimit first.pacing⟩
      first.answeredAt first.response with
      ⟨hok, state, hafter⟩ | ⟨hok, hretry, state, hafter⟩ | ⟨hok, hretry, lastError, state, hafter⟩
    · simp only [hafter, exchange_returned] at h ⊢
      cases h
      exact .inr ⟨rfl, by simp [Log.Accepted, Effect.accepts, hok]⟩
    · simp only [hafter] at h ⊢
      refine (ih h).imp_right fun hdelivered => ⟨hdelivered.1, ?_⟩
      have haccepted := hdelivered.2
      rw [Log.Accepted] at haccepted ⊢
      rw [List.any_cons, haccepted, Bool.or_true]
    · simp only [hafter, exchange_burying] at h ⊢
      cases burial with
      | done =>
        cases h
        exact .inl rfl
      | _ => cases h

theorem Log.Accepted.append_right (h : log.Accepted key) : Log.Accepted (log ++ log') key := by
  rw [Log.Accepted] at h ⊢
  rw [List.any_append, h, Bool.true_or]

variable (log) in
theorem Log.Accepted.append_left (h : Log.Accepted log' key) : Log.Accepted (log ++ log') key := by
  rw [Log.Accepted] at h ⊢
  rw [List.any_append, h, Bool.or_true]

theorem deliverClaimed_outcome
    (h : (deliverClaimed (ν := ν) policy destination delivery (.claiming held)).2 = some outcome) :
    isRefusal (toDeliveryState outcome) = true ∨
      toDeliveryState outcome = .delivered ∧ Log.Accepted (deliverClaimed (ν := ν) policy
        destination delivery (.claiming held)).1 destination.key := by
  unfold deliverClaimed at h ⊢
  cases hadapter : delivery.hasAdapter with
  | false =>
    simp only [hadapter, Bool.false_eq_true, if_false, deliver, exchange_returned, bury] at h
    cases h
    exact .inl rfl
  | true =>
    simp only [hadapter, if_true, deliver] at h ⊢
    refine (exchange_outcome h).imp_right fun hdelivered => ⟨hdelivered.1, ?_⟩
    exact hdelivered.2.append_right

/-- A delivery that is skipped is recorded as delivered, and of the others only those that the
vendor has accepted. -/
theorem deliverOnce_outcome
    (h : deliverOnce deps envelope log destination delivery = (effects, some outcome)) :
    (Skips deps envelope log destination delivery → toDeliveryState outcome = .delivered) ∧
      (isRefusal (toDeliveryState outcome) = true ∨
        toDeliveryState outcome = .delivered ∧
          (Skips deps envelope log destination delivery ∨ effects.Accepted destination.key)) := by
  unfold deliverOnce at h
  unfold Skips
  dsimp only at h
  rcases deliver_starts (destination.policy deps) delivery.held delivery.startedAt
    (enforceDeliveryPreconditions delivery.violations envelope destination) with
    ⟨refusal, state, hstart, hrefusal⟩ | ⟨state, hstart⟩
  · rw [hstart] at h
    cases h
    simp only [hstart]
    exact ⟨False.elim, .inl hrefusal⟩
  · rw [hstart] at h
    simp only [hstart]
    cases hclaim : delivery.claim with
    | failed | unconfirmed =>
      rw [hclaim] at h
      cases h
    | done =>
      rw [hclaim] at h
      dsimp only at h
      cases hclaimed : log.any (Effect.claims (idempotencyKey destination envelope)) with
      | true =>
        rw [if_pos hclaimed] at h
        cases h
        exact ⟨fun _ => rfl, .inr ⟨rfl, .inl rfl⟩⟩
      | false =>
        rw [if_neg (by simp [hclaimed])] at h
        obtain ⟨rfl, houtcome⟩ := Prod.mk.inj h
        refine ⟨fun heq => (by cases heq), ?_⟩
        refine (deliverClaimed_outcome houtcome).imp_right fun hdelivered => ⟨hdelivered.1, ?_⟩
        exact .inr (hdelivered.2.append_left [_])

/-- The results that are recorded as delivered have been accepted exactly when the skipped ones
have. -/
theorem deliverAll_accepted_iff {final : Log ν} {destinations : List DestinationDefinition}
    (h : deliverAll deps envelope log destinations deliveries = (effects, some results))
    (hfinal : ∀ key, effects.Accepted key → final.Accepted key) :
    (∀ result ∈ results, toDeliveryState result.outcome = .delivered →
        final.Accepted result.destination.key) ↔
      SkipsAccepted deps envelope final log destinations deliveries := by
  induction destinations generalizing log deliveries effects results with
  | nil =>
    cases h
    simp [SkipsAccepted]
  | cons destination rest ih =>
    cases deliveries with
    | nil => cases h
    | cons delivery deliveries =>
      rw [deliverAll] at h
      dsimp only at h
      rcases honce : deliverOnce deps envelope log destination delivery with ⟨first, _ | outcome⟩
      · rw [honce] at h
        cases h
      · rw [honce] at h
        obtain ⟨rfl, hresults⟩ := Prod.mk.inj h
        obtain ⟨others, hothers, rfl⟩ := Option.map_eq_some_iff.mp hresults
        obtain ⟨hskips, houtcome⟩ := deliverOnce_outcome honce
        rw [List.forall_mem_cons, SkipsAccepted, honce]
        refine and_congr ?_ (ih (Prod.ext rfl hothers) fun key hkey => hfinal key (hkey.append_left _))
        constructor
        · exact fun hdelivered hskip => hdelivered (hskips hskip)
        · intro hskip hdelivered
          rcases houtcome with hrefusal | ⟨-, hskipped | haccepted⟩
          · rw [hdelivered] at hrefusal
            cases hrefusal
          · exact hskip hskipped
          · exact hfinal _ haccepted.append_right

theorem toDeliveryState_cases (outcome : DeliveryOutcome) :
    isRefusal (toDeliveryState outcome) = true ∨ toDeliveryState outcome = .delivered := by
  cases outcome with
  | delivered attempts latencyMs | skippedDuplicate => exact .inr rfl
  | _ => exact .inl rfl

section Store

variable {initial : EventRecord ν} {revision : Revision ν} {key : String}

theorem accepted_interrupted : Log.Accepted (.appended initial :: effects) key ↔
    effects.Accepted key := by
  simp [Log.Accepted, Effect.accepts]

theorem buried_interrupted : Log.Buried (.appended initial :: effects) key ↔
    effects.Buried key := by
  simp [Log.Buried, Effect.buries]

theorem accepted_recorded :
    Log.Accepted (.appended initial :: effects ++ [.revised revision]) key ↔
      effects.Accepted key := by
  simp [Log.Accepted, Effect.accepts]

variable (initial) in
theorem entries_interrupted (h : Outward effects) :
    Log.entries (.appended initial :: effects) = initial.destinationHistory := by
  have hrevisions : Log.revisions (.appended initial :: effects) = [] := by
    have heffects := h.revisions
    rwa [Log.revisions] at heffects ⊢
  rw [Log.entries, Log.base_cons, hrevisions]
  simp

variable (initial revision) in
theorem entries_recorded (h : Outward effects) :
    Log.entries (.appended initial :: effects ++ [.revised revision]) =
      initial.destinationHistory ++ revision.destinations := by
  rw [Log.entries, h.revisions_append, List.cons_append, Log.base_cons]
  simp

end Store

section Prepared

variable (h : prepare deps input script = some preparation)

include h

theorem base_entries {entry : DestinationHistoryEntry ν}
    (hentry : entry ∈ (buildEventRecord input script preparation).destinationHistory) :
    (∃ d ∈ input.routing.routed, entry.destination = d.key ∧
        (Refused script d ∧ entry.status = .blocked ∨ entry.status = .pending)) ∨
      entry.status = .excluded := by
  rcases List.mem_append.mp hentry with hpending | hexcluded
  · obtain ⟨pair, hpair, rfl⟩ := List.mem_map.mp hpending
    obtain ⟨hkey, hstatus⟩ := pending_of_prepare h pair hpair
    have hrouted : pair.1 ∈ input.routing.routed :=
      (prepare_entries h).1 ▸ List.mem_map_of_mem hpair
    exact .inl ⟨pair.1, hrouted, hkey, hstatus.imp_right And.right⟩
  · obtain ⟨excluded, -, rfl⟩ := List.mem_map.mp hexcluded
    exact .inr rfl

theorem base_undelivered {entry : DestinationHistoryEntry ν}
    (hentry : entry ∈ (buildEventRecord input script preparation).destinationHistory) :
    entry.status ≠ .delivered := by
  rcases base_entries h hentry with ⟨-, -, -, ⟨-, hstatus⟩ | hstatus⟩ | hstatus <;> simp [hstatus]

theorem blocked_or_prepared (hd : d ∈ input.routing.routed) :
    (∃ entry ∈ (buildEventRecord input script preparation).destinationHistory,
        entry.destination = d.key ∧ entry.status = .blocked) ∨
      ¬ Refused script d ∧ d ∈ preparation.prepared := by
  rw [← (prepare_entries h).1] at hd
  obtain ⟨pair, hpair, rfl⟩ := List.mem_map.mp hd
  obtain ⟨hkey, hstatus⟩ := pending_of_prepare h pair hpair
  rcases hstatus with ⟨-, hblocked⟩ | ⟨hnot, hpending⟩
  · exact .inl ⟨pair.2, List.mem_append_left _ (List.mem_map_of_mem hpair), hkey, hblocked⟩
  · exact .inr ⟨hnot, List.mem_map_of_mem (List.mem_filter.mpr ⟨hpair, by simp [hpending]⟩)⟩

theorem prepared_routed
    (hd : d ∈ preparation.prepared) : d ∈ input.routing.routed := by
  obtain ⟨pair, hpair, rfl⟩ := List.mem_map.mp hd
  exact (prepare_entries h).1 ▸ List.mem_map_of_mem (List.mem_of_mem_filter hpair)

end Prepared

theorem redeliverable_of_none (hbase : log.base = none) : Redeliverable deps input log := by
  intro script hnothing
  have hsome := prepare_isSome.mpr ⟨hnothing.identity, hnothing.renders⟩
  obtain ⟨preparation, hprepare⟩ := Option.isSome_iff_exists.mp hsome
  have hcomplete := hnothing.completes preparation hprepare
  rw [← deliverAll_isSome] at hcomplete
  rw [receiveAndDeliver, hprepare]
  dsimp only
  generalize hcall : record deps input log script preparation = call
  cases record_case hcall with
  | refused hrefused heffects =>
    rcases hrefused with hsome | hfailed
    · simp [hbase] at hsome
    · simp [hnothing.append] at hfailed
  | unconfirmed _ happend => simp [hnothing.append] at happend
  | broken _ _ hdeliver => simp [hdeliver] at hcomplete
  | delivered revisionSeq _ _ hdeliver hlast =>
    rcases hlast with ⟨hhistory, -⟩ | ⟨hhistory, -⟩ | ⟨-, rfl⟩
    · simp [hnothing.history] at hhistory
    · simp [hnothing.history] at hhistory
    · exact ⟨_, rfl⟩

def refusesAll (ν : Type) : Script ν where
  now := 0
  hashes := true
  renderPayload := fun _ => some (.refused ⟨.mapping, ""⟩)
  destinationVersion := fun _ => some 0
  mappingVersion := fun _ => some 0
  append := .done
  deliveries := []
  finishedAt := 0
  history := .done

theorem nothingFails_refusesAll : NothingFails deps input log (refusesAll ν) where
  identity := fun _ _ _ => rfl
  renders := fun _ _ => ⟨rfl, rfl, trivial⟩
  append := rfl
  completes := by
    intro preparation hprepare
    have hnone : preparation.prepared = [] := by
      rw [Preparation.prepared, List.map_eq_nil_iff, List.filter_eq_nil_iff]
      intro pair hpair
      rcases (pending_of_prepare hprepare pair hpair).2 with ⟨-, hblocked⟩ | ⟨hnot, -⟩
      · simp [hblocked]
      · exact absurd ⟨_, rfl⟩ hnot
    rw [hnone]
    trivial
  history := rfl

theorem not_redeliverable (hbase : log.base.isSome) : ¬ Redeliverable deps input log := by
  intro hredeliverable
  obtain ⟨last, hlast⟩ := hredeliverable _ nothingFails_refusesAll
  rw [receiveAndDeliver] at hlast
  cases hprepare : prepare deps input (refusesAll ν) with
  | none =>
    rw [hprepare] at hlast
    cases hlast
  | some preparation =>
    rw [hprepare] at hlast
    dsimp only at hlast
    rw [record, if_pos hbase] at hlast
    cases hlast

/-- A call that ends before its revision is written settles what it has prepared, or nothing will. -/
theorem interrupted_iff (h : prepare deps input script = some preparation)
    (houtward : Outward effects) :
    AtLeastOnce deps input (.appended (buildEventRecord input script preparation) :: effects) ↔
      ∀ d ∈ preparation.prepared, Answered input script effects d := by
  have hentries := entries_interrupted (buildEventRecord input script preparation) houtward
  constructor
  · rintro ⟨-, hsettles⟩ d hd
    rcases hsettles with hsettled | hredeliverable
    · rcases hsettled d (prepared_routed h hd) with haccepted | hburied | hdisposed
      · exact .inl (accepted_interrupted.mp haccepted)
      · exact .inr (.inl (buried_interrupted.mp hburied))
      · obtain ⟨entry, hentry, hkey, hrefusal⟩ := hdisposed
        rw [hentries] at hentry
        rcases base_entries h hentry with ⟨d', hd', hkey', hstatus⟩ | hexcluded
        · rcases hstatus with ⟨hrefused, -⟩ | hpending
          · exact .inr (.inr ⟨d', hd', hkey'.symm.trans hkey, hrefused⟩)
          · rw [hpending] at hrefusal
            cases hrefusal
        · rw [hexcluded] at hrefusal
          cases hrefusal
    · exact absurd hredeliverable (not_redeliverable rfl)
  · intro hanswered
    refine ⟨?_, .inl fun d hd => ?_⟩
    · intro entry hentry hdelivered
      rw [hentries] at hentry
      exact absurd hdelivered (base_undelivered h hentry)
    · have hdisposed : ∀ d' ∈ input.routing.routed, d'.key = d.key →
          (∃ entry ∈ (buildEventRecord input script preparation).destinationHistory,
            entry.destination = d'.key ∧ entry.status = .blocked) →
          Log.Disposed (.appended (buildEventRecord input script preparation) :: effects) d.key := by
        rintro d' - hkey' ⟨entry, hentry, hkey, hblocked⟩
        exact ⟨entry, by rwa [hentries], hkey.trans hkey', by rw [hblocked]; rfl⟩
      rcases blocked_or_prepared h hd with hblocked | ⟨-, hprepared⟩
      · exact .inr (.inr (hdisposed d hd rfl hblocked))
      · rcases hanswered d hprepared with haccepted | hburied | ⟨d', hd', hkey, hrefused⟩
        · exact .inl (accepted_interrupted.mpr haccepted)
        · exact .inr (.inl (buried_interrupted.mpr hburied))
        · exact .inr (.inr (hdisposed d' hd' hkey
            ((blocked_or_prepared h hd').resolve_right fun hprepared => hprepared.1 hrefused)))

/-- A call whose revision is written settles every destination, and is honest exactly when the
vendors that it skipped have accepted the event. -/
theorem recorded_iff (h : prepare deps input script = some preparation) {revisionSeq : ℕ}
    (hdeliver : deliverAll deps envelope log preparation.prepared deliveries =
      (effects, some results)) :
    AtLeastOnce deps input (.appended (buildEventRecord input script preparation) :: effects ++
        [.revised (finalRevision input script preparation results revisionSeq)]) ↔
      SkipsAccepted deps envelope effects log preparation.prepared deliveries := by
  have hresults : results.map (·.destination) = preparation.prepared :=
    deliverAll_destinations (by rw [hdeliver])
  have hentries := entries_recorded (buildEventRecord input script preparation)
    (finalRevision input script preparation results revisionSeq)
    (outward_of_deliverAll hdeliver)
  have hfinal : ∀ result ∈ results, ∃ entry ∈ Log.entries
      (.appended (buildEventRecord input script preparation) :: effects ++
        [.revised (finalRevision input script preparation results revisionSeq)]),
      entry.destination = result.destination.key ∧
        entry.status = toDeliveryState result.outcome := by
    intro result hresult
    obtain ⟨entry, hentry⟩ := finalEntry_isSome script.now (results_known h hresults result hresult)
    refine ⟨entry, ?_, finalEntry_spec hentry⟩
    rw [hentries]
    exact List.mem_append_right _ (List.mem_filterMap.mpr ⟨result, hresult, hentry⟩)
  rw [← deliverAll_accepted_iff hdeliver fun key hkey => hkey]
  constructor
  · rintro ⟨hhonest, -⟩ result hresult hdelivered
    obtain ⟨entry, hentry, hkey, hstatus⟩ := hfinal result hresult
    have haccepted := hhonest entry hentry (hstatus.trans hdelivered)
    rw [hkey] at haccepted
    exact accepted_recorded.mp haccepted
  · intro haccepted
    refine ⟨?_, .inl fun d hd => ?_⟩
    · intro entry hentry hdelivered
      rw [hentries] at hentry
      rcases List.mem_append.mp hentry with hbase | hrevised
      · exact absurd hdelivered (base_undelivered h hbase)
      · obtain ⟨result, hresult, hfound⟩ := List.mem_filterMap.mp hrevised
        obtain ⟨hkey, hstatus⟩ := finalEntry_spec hfound
        rw [hkey]
        exact accepted_recorded.mpr (haccepted result hresult (hstatus.symm.trans hdelivered))
    · rcases blocked_or_prepared h hd with ⟨entry, hentry, hkey, hblocked⟩ | ⟨-, hprepared⟩
      · refine .inr (.inr ⟨entry, ?_, hkey, by rw [hblocked]; rfl⟩)
        rw [hentries]
        exact List.mem_append_left _ hentry
      · rw [← hresults] at hprepared
        obtain ⟨result, hresult, rfl⟩ := List.mem_map.mp hprepared
        rcases toDeliveryState_cases result.outcome with hrefusal | hdelivered
        · obtain ⟨entry, hentry, hkey, hstatus⟩ := hfinal result hresult
          exact .inr (.inr ⟨entry, hentry, hkey, by rw [hstatus, hrefusal]⟩)
        · exact .inl (accepted_recorded.mpr (haccepted result hresult hdelivered))

/-- The first call that appends the base row. -/
theorem first_call_iff (h : prepare deps input script = some preparation)
    (happend : script.append ≠ .failed) :
    AtLeastOnce deps input (record deps input [] script preparation).effects ↔
      (Records deps input [] script preparation →
        SkipsAccepted deps preparation.envelope (deliveriesMade deps input [] script preparation)
          [.appended (buildEventRecord input script preparation)] preparation.prepared
          script.deliveries) ∧
      (¬ Records deps input [] script preparation → ∀ d ∈ preparation.prepared,
        Answered input script (deliveriesMade deps input [] script preparation) d) := by
  unfold Records deliveriesMade
  rw [← deliverAll_isSome]
  generalize hcall : record deps input [] script preparation = call
  cases record_case hcall with
  | refused hrefused heffects =>
    rcases hrefused with hsome | hfailed
    · cases hsome
    · exact absurd hfailed happend
  | unconfirmed hbase hunconfirmed =>
    rw [if_neg (by simp [hunconfirmed])]
    rw [interrupted_iff h outward_nil]
    simp [hunconfirmed]
  | broken hbase hdone hdeliver =>
    rw [if_pos hdone]
    rw [List.nil_append] at hdeliver ⊢
    rw [hdeliver, interrupted_iff h (outward_of_deliverAll hdeliver)]
    simp
  | delivered revisionSeq hbase hdone hdeliver hlast =>
    rw [if_pos hdone]
    rw [List.nil_append] at hdeliver ⊢
    rw [hdeliver]
    rcases hlast with ⟨hhistory, rfl⟩ | ⟨hhistory, rfl⟩ | ⟨hhistory, rfl⟩
    · rw [List.append_nil, interrupted_iff h (outward_of_deliverAll hdeliver)]
      simp [hhistory]
    · rw [recorded_iff h hdeliver]
      simp [hhistory, hdone]
    · rw [recorded_iff h hdeliver]
      simp [hhistory, hdone]

theorem record_effects (deps : RuntimeDeps ν) (input : ReceiveEventInput) (log : Log ν)
    (script : Script ν) (preparation : Preparation ν) :
    (record deps input log script preparation).effects = [] ∨
      (Log.base (record deps input log script preparation).effects).isSome := by
  generalize hcall : record deps input log script preparation = call
  cases record_case hcall with
  | refused _ heffects => exact .inl heffects
  | _ => exact .inr rfl

theorem record_base (hbase : log.base.isSome) :
    (record deps input log script preparation).effects = [] := by
  rw [record, if_pos hbase]

theorem call_effects (deps : RuntimeDeps ν) (input : ReceiveEventInput) (log : Log ν)
    (script : Script ν) :
    (receiveAndDeliver deps input log script).effects = [] ∨
      (Log.base (receiveAndDeliver deps input log script).effects).isSome := by
  rw [receiveAndDeliver]
  cases prepare deps input script with
  | none => exact .inl rfl
  | some preparation => exact record_effects deps input log script preparation

theorem record_failed (happend : script.append = .failed) :
    (record deps input log script preparation).effects = [] := by
  rw [record]
  split
  · rfl
  · rw [happend]

theorem redelivery_iff (hlog : log.base = none → log = []) (h : AtLeastOnce deps input log) :
    AtLeastOnce deps input (log ++ (receiveAndDeliver deps input log script).effects) ↔
      Carries deps input log script := by
  rw [receiveAndDeliver]
  cases hprepare : prepare deps input script with
  | none =>
    refine iff_of_true (by rwa [List.append_nil]) ?_
    intro _ _ preparation hpreparation
    rw [hprepare] at hpreparation
    cases hpreparation
  | some preparation =>
    dsimp only
    by_cases hbase : log.base = none
    · obtain rfl := hlog hbase
      by_cases happend : script.append = .failed
      · rw [record_failed happend]
        exact iff_of_true h fun _ hnot => absurd happend hnot
      · rw [List.nil_append, first_call_iff hprepare happend, Carries]
        constructor
        · intro hcarries _ _ prepared hprepared
          obtain rfl : preparation = prepared := Option.some.inj (hprepare.symm.trans hprepared)
          exact hcarries
        · intro hcarries
          exact hcarries rfl happend preparation hprepare
    · have hsome : log.base.isSome := Option.isSome_iff_ne_none.mpr hbase
      rw [record_base hsome, List.append_nil]
      exact iff_of_true h fun hnone => absurd hnone hbase

theorem Log.base_append (log log' : Log ν) : Log.base (log ++ log') = log.base.or log'.base := by
  rw [Log.base, List.findSome?_append]
  rfl

/-- In a run of deliveries of one event, every destination is settled or can still be, and what is
recorded as delivered has been accepted, exactly when each call carries the event on. -/
theorem run_atLeastOnce_iff (deps : RuntimeDeps ν) (input : ReceiveEventInput)
    {tr : List (Script ν × Log ν)} (hr : Run (Redelivery deps input) [] tr) :
    Always (AtLeastOnce deps input) [] tr ↔ EveryStep (Carries deps input) [] tr := by
  refine always_iff_everyStep
    (I := fun log => AtLeastOnce deps input log ∧ (log.base = none → log = []))
    (G := Carries deps input) ?_ (fun _ h => h.1) ?_ ⟨⟨by simp [Log.Honest, Log.entries, Log.base,
      Log.revisions], .inr (redeliverable_of_none rfl)⟩, fun _ => rfl⟩ hr
  · rintro log script after ⟨h, hlog⟩ rfl hcarries
    refine ⟨(redelivery_iff hlog h).mpr hcarries, fun hnone => ?_⟩
    rw [Log.base_append, Option.or_eq_none_iff] at hnone
    obtain ⟨hbase, heffects⟩ := hnone
    rcases call_effects deps input log script with hnil | hsome
    · rw [hnil, hlog hbase]
      rfl
    · rw [heffects] at hsome
      cases hsome
  · rintro log script after ⟨h, hlog⟩ rfl hcarries hafter
    exact hcarries ((redelivery_iff hlog h).mp hafter)

section Samples

/-- The payload of every destination is rendered. -/
private def rendersAll (append : Write) (deliveries : List DeliveryScript) : Script ℤ where
  now := 0
  hashes := true
  renderPayload := fun _ => some (.rendered [("event", .string "purchase")])
  destinationVersion := fun _ => some 1
  mappingVersion := fun _ => some 1
  append := append
  deliveries := deliveries
  finishedAt := 0
  history := .done

private def toFirst : ReceiveEventInput := ⟨purchase, [vendor "first"], [], false⟩

/-- The calls of the scripts, one after the other. -/
private def redeliveries (scripts : List (Script ℤ)) : List (Script ℤ × Log ℤ) :=
  follow (fun log script => log ++ (receiveAndDeliver plainDeps toFirst log script).effects) []
    scripts

private theorem run_redeliveries (scripts : List (Script ℤ)) :
    Run (Redelivery plainDeps toFirst) [] (redeliveries scripts) := by
  have hstep : ∀ log script, Redelivery plainDeps toFirst log script
      (log ++ (receiveAndDeliver plainDeps toFirst log script).effects) := fun _ _ => rfl
  exact run_follow hstep [] scripts

/-- The store is down at first. -/
theorem run_atLeastOnce_iff_second :
    Always (AtLeastOnce plainDeps toFirst) []
      (redeliveries [rendersAll .failed [], rendersAll .done [acceptedAtOnce]]) :=
  (run_atLeastOnce_iff plainDeps toFirst (run_redeliveries _)).mpr (by decide +kernel)

/-- The process ends between the append and the first request. -/
theorem atLeastOnce_fails :
    ¬ ∀ (deps : RuntimeDeps ℤ) (input : ReceiveEventInput) (tr : List (Script ℤ × Log ℤ)),
      Run (Redelivery deps input) [] tr → Always (AtLeastOnce deps input) [] tr := by
  intro h
  have hlast := (h plainDeps toFirst _ (run_redeliveries [rendersAll .done []])).last
  rcases hlast.settles with hsettled | hredeliverable
  · have hfirst := hsettled _ List.mem_cons_self
    unfold Log.Settled Log.Disposed at hfirst
    exact absurd hfirst (by decide +kernel)
  · exact absurd hredeliverable (not_redeliverable (by decide +kernel))

end Samples

end Tracking
