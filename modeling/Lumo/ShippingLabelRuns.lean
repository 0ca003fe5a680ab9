import Lumo.ShippingLabels

/-! # What is recorded of a label, and what the carrier did with it

The key of a shipment makes the carrier issue one label at most. What is stored of it agrees with
the carrier's books as long as the steps that do not look at the books come at a time when they
may. -/
namespace Shipping

open SharedKernel Interleavings LabelledRuns

/-- The statuses of a shipment that is labelled, up to what its carrier reports. -/
def ShipmentStatusValue.labelled : ShipmentStatusValue → Bool
  | .labelCreated | .carrierAccepted | .rejected | .inTransit | .outForDelivery | .delivered
  | .deliveryFailed | .returned | .exception => true
  | .created | .voided | .cancelled | .closed => false

theorem labelled_source {source target : ShipmentStatusValue}
    (h : canTransitionShipment source target = true) (htarget : target.labelled = true) :
    source.labelled = true ∨ source = .created ∧ target = .labelCreated := by
  cases source with
  | created | voided | cancelled | closed =>
    cases target <;> revert h htarget <;> decide
  | _ => exact .inl rfl

/-- The label that is recorded. -/
def Recorded (s : Shared) (labelId : String) : Prop :=
  ∃ label, s.shipment.label = some label ∧ label.labelId.1 = labelId

def AllVoided (books : CarrierBooks) : Prop := ∀ entry ∈ books.issued, books.Voided entry.2.labelId

structure Recording (s : Shared) : Prop where
  labelled : s.shipment.status.labelled = true → ∃ labelId, Recorded s labelId ∧
    s.books.Live labelId
  voided : s.shipment.status = .voided → AllVoided s.books

variable {ι : Type}

abbrev Calls (ι : Type) := State Shared Point ι

def Point.atRest : Point → Bool
  | requested _ | answered _ | thrown _ => true
  | _ => false

def Quiet (s : Calls ι) : Prop := ∀ c point, s.processes c = .live point → point.atRest = true

/-- What is recorded of the labels agrees with what the carrier did. -/
structure Agreed (s : Calls ι) : Prop where
  recording : Recording s.shared
  others : s.shared.shipment.status.labelled = true → Quiet s →
    ∀ entry ∈ s.shared.books.issued, ¬ Recorded s.shared entry.2.labelId →
      s.shared.books.Voided entry.2.labelId

/-- The steps that do not look at the other side's state come when they may: a label is recorded
while it has not been voided, a shipment is advanced to a label only over a live one, and to
`voided` only when no label is live; the carrier issues a label while the shipment is not voided,
and voids one while the shipment is not labelled. -/
def InTime (s : Shared) : Point → Choice → Prop
  | .saving saver read new, .proceeds _ => new.version = s.shipment.version →
    match saver with
    | .once =>
      (read.status = .created → new.status = .labelCreated → ∃ label, read.label = some label ∧
        ¬ s.books.Voided label.labelId.1) ∧
      (new.status = .voided → AllVoided s.books)
    | .label record _ => ¬ s.books.Voided record.label.labelId.1
    | .void _ => True
  | .requesting _, .issues _ => s.books.issued = [] → s.shipment.status ≠ .voided
  | .voiding _, .proceeds _ => s.books.voided = [] → s.shipment.status.labelled = false
  | _, _ => True

def StepInTime (s : Calls ι) : Label Choice ι → Prop
  | .turn c choice => ∀ point, s.processes c = .live point → InTime s.shared point choice
  | .crash _ => True

/-- One key issues one label, one key voids it, and what is recorded was issued. -/
structure Keyed (s : Shared) : Prop where
  once : s.books.issued.length ≤ 1
  issuedKey : ∀ entry ∈ s.books.issued, entry.1 = labelKey s.shipment.id
  voidedKey : ∀ entry ∈ s.books.voided, entry.1 = voidKey s.shipment.id
  voidedIssued : ∀ entry ∈ s.books.voided, s.books.Issued entry.2
  recorded : ∀ labelId, Recorded s labelId → s.books.Issued labelId

structure ReadFrom (s : Shared) (read new : Shipment) : Prop where
  version : new.version = read.version
  past : read.version ≤ s.shipment.version
  same : read.version = s.shipment.version → read = s.shipment

def Changed (s : Shared) (read new : Shipment) : Saver → Prop
  | .once => new.label = read.label
  | .label record _ => new.status = .labelCreated ∧ new.label = some record.label ∧
      s.books.Issued record.label.labelId.1
  | .void _ => new.status = .voided ∧ new.label = read.label ∧ s.books.voided ≠ []

/-- What a point relies on. -/
def Relies (s : Shared) : Point → Prop
  | .settlingLabel record _ => s.books.Issued record.label.labelId.1
  | .voiding labelId => s.books.Issued labelId
  | .settlingVoid _ => s.books.voided ≠ []
  | .saving saver read new => ReadFrom s read new ∧
      canTransitionShipment read.status new.status = true ∧ new.id = read.id ∧
      Changed s read new saver
  | _ => True

section Books

variable {s s' : Shared} {a b : String}

theorem Keyed.unique (h : Keyed s) (ha : s.books.Issued a) (hb : s.books.Issued b) : a = b := by
  obtain ⟨x, hx, rfl⟩ := ha
  obtain ⟨y, hy, rfl⟩ := hb
  have hlength := h.once
  generalize s.books.issued = issued at hx hy hlength
  match issued, hlength with
  | [z], _ => rw [List.mem_singleton.mp hx, List.mem_singleton.mp hy]

theorem Keyed.allVoided (h : Keyed s) (hv : s.books.voided ≠ []) : AllVoided s.books := by
  obtain ⟨entry, hentry⟩ := List.exists_mem_of_ne_nil _ hv
  intro issued hissued
  refine ⟨entry, hentry, ?_⟩
  exact h.unique (h.voidedIssued entry hentry) ⟨issued, hissued, rfl⟩

structure Grown (s s' : Shared) : Prop where
  issued : ∀ entry ∈ s.books.issued, entry ∈ s'.books.issued
  voided : ∀ entry ∈ s.books.voided, entry ∈ s'.books.voided
  version : s.shipment.version ≤ s'.shipment.version
  same : s'.shipment.version = s.shipment.version → s'.shipment = s.shipment

theorem Grown.isIssued (h : Grown s s') (ha : s.books.Issued a) : s'.books.Issued a := by
  obtain ⟨entry, hentry, he⟩ := ha
  exact ⟨entry, h.issued entry hentry, he⟩

theorem Grown.anyVoided (h : Grown s s') (hv : s.books.voided ≠ []) : s'.books.voided ≠ [] := by
  obtain ⟨entry, hentry⟩ := List.exists_mem_of_ne_nil _ hv
  exact List.ne_nil_of_mem (h.voided entry hentry)

theorem Relies.grown (h : Grown s s') {point : Point} (hp : Relies s point) : Relies s' point := by
  cases point with
  | settlingLabel record attempt | voiding labelId => exact h.isIssued hp
  | settlingVoid attempt => exact h.anyVoided hp
  | saving saver read new =>
    obtain ⟨hread, hallowed, hid, hchanged⟩ := hp
    refine ⟨⟨hread.version, hread.past.trans h.version, ?_⟩, hallowed, hid, ?_⟩
    · intro hv
      have hle := h.version
      have hpast := hread.past
      have hsame : s'.shipment.version = s.shipment.version := by omega
      rw [h.same hsame]
      exact hread.same (hv.trans hsame)
    · cases saver with
      | once => exact hchanged
      | label record attempt => exact ⟨hchanged.1, hchanged.2.1, h.isIssued hchanged.2.2⟩
      | void attempt => exact ⟨hchanged.1, hchanged.2.1, h.anyVoided hchanged.2.2⟩
  | requested | requesting | answered | thrown => trivial

end Books

section Turns

variable {s s' : Shared} {point point' : Point} {choice : Choice}

/-- The first label that the carrier issues. -/
def Shared.issue (s : Shared) (label : ProviderLabel) : Shared :=
  { s with books := { s.books with issued := [(labelKey s.shipment.id, label)] } }

def Shared.void (s : Shared) (labelId : String) : Shared :=
  { s with books := { s.books with voided := [(voidKey s.shipment.id, labelId)] } }

/-- A turn that changes what is stored or what the carrier has done, and who takes it. -/
inductive Writes (s : Shared) : Point → Choice → Point → Shared → Prop where
  | save {saver read new occurrence s'} (h : save s new = some s') :
      Writes s (.saving saver read new) (.proceeds occurrence) (.answered (.ok (outputOf new))) s'
  | issue {fulfillmentRef label} (h : s.books.issued = []) :
      Writes s (.requesting fulfillmentRef) (.issues label) (CreateLabel.accept label)
        (s.issue label)
  | void {labelId occurrence} (h : s.books.voided = []) :
      Writes s (.voiding labelId) (.proceeds occurrence) (.settlingVoid 1) (s.void labelId)

variable {label : ProviderLabel} {record : LabelRecord} {saver : Saver} {attempt : ℕ}
  {occurrence : Occurrence}

theorem recordOf_ok (h : CreateLabel.recordOf label = .ok record) :
    record.label.labelId.1 = label.labelId := by
  simp only [CreateLabel.recordOf, bind_eq_ok] at h
  obtain ⟨carrier, _, service, _, shippingLabel, hlabel, tracking, _, h⟩ := h
  cases h
  simp only [ShippingLabel.create, bind_eq_ok] at hlabel
  obtain ⟨labelId, hlabelId, number, _, hlabel⟩ := hlabel
  cases hlabel
  exact Guard.againstEmpty_ok hlabelId

theorem accept_relies (h : s.books.Issued label.labelId) : Relies s (CreateLabel.accept label) := by
  rw [CreateLabel.accept]
  cases hrecord : CreateLabel.recordOf label with
  | error e => trivial
  | ok record =>
    change s.books.Issued record.label.labelId.1
    rw [recordOf_ok hrecord]
    exact h

theorem attempts_relies {result : Except DomainError Shipment}
    (h : ∀ new, result = .ok new → Shipment.Moved s.shipment new ∧
      Changed s s.shipment new saver) : Relies s (saver.attempts s.shipment result) := by
  cases result with
  | error e => trivial
  | ok new =>
    obtain ⟨hmoved, hchanged⟩ := h new rfl
    exact ⟨⟨hmoved.version, le_rfl, fun _ => rfl⟩, hmoved.allowed, hmoved.id, hchanged⟩

theorem precheck_relies_label : Relies s (CreateLabel.precheck s.shipment) := by
  rw [CreateLabel.precheck]
  split
  · trivial
  · split <;> trivial

theorem precheck_relies_void (hk : Keyed s) : Relies s (VoidLabel.precheck s.shipment) := by
  rw [VoidLabel.precheck]
  split
  · trivial
  · rename_i label hlabel
    split
    · trivial
    · split
      · trivial
      · exact hk.recorded _ ⟨label, hlabel, rfl⟩

theorem settle_relies_label (h : s.books.Issued record.label.labelId.1) :
    Relies s (CreateLabel.settle record attempt s.shipment occurrence) := by
  rw [CreateLabel.settle]
  split
  · trivial
  · apply attempts_relies
    intro new hnew
    obtain ⟨hmoved, hstatus, hlabel⟩ := Shipment.createLabel_ok hnew
    exact ⟨hmoved, hstatus, hlabel, h⟩

theorem settle_relies_void (h : s.books.voided ≠ []) :
    Relies s (VoidLabel.settle attempt s.shipment occurrence) := by
  rw [VoidLabel.settle]
  split
  · trivial
  · apply attempts_relies
    intro new hnew
    obtain ⟨hmoved, hstatus, hlabel⟩ := Shipment.voidLabel_ok hnew
    exact ⟨hmoved, hstatus, hlabel, h⟩

theorem conflict_relies {read new : Shipment} (h : Relies s (.saving saver read new)) :
    Relies s saver.conflict := by
  obtain ⟨_, _, _, hchanged⟩ := h
  cases saver with
  | once => trivial
  | label record attempt | void attempt =>
    rw [Saver.conflict]
    split
    · trivial
    · exact hchanged.2.2

theorem createLabel_books (hk : Keyed s) (label : ProviderLabel) :
    (s.books.issued = [] ∧ s.books.createLabel (labelKey s.shipment.id) label =
      (label, (s.issue label).books)) ∨
    ∃ entry ∈ s.books.issued, s.books.createLabel (labelKey s.shipment.id) label =
      (entry.2, s.books) := by
  rw [CarrierBooks.createLabel]
  by_cases hnone : s.books.issued = []
  · left
    refine ⟨hnone, ?_⟩
    rw [hnone]
    rfl
  · right
    obtain ⟨entry, hentry⟩ := List.exists_mem_of_ne_nil _ hnone
    have hfound : (s.books.issued.find? fun e => e.1 == labelKey s.shipment.id).isSome := by
      rw [List.find?_isSome]
      exact ⟨entry, hentry, by simp [hk.issuedKey entry hentry]⟩
    obtain ⟨found, hf⟩ := Option.isSome_iff_exists.mp hfound
    exact ⟨found, List.mem_of_find?_eq_some hf, by rw [hf]⟩

theorem voidLabel_books (hk : Keyed s) (labelId : String) :
    (s.books.voided = [] ∧ s.books.voidLabel (voidKey s.shipment.id) labelId =
      (s.void labelId).books) ∨
    s.books.voided ≠ [] ∧ s.books.voidLabel (voidKey s.shipment.id) labelId = s.books := by
  rw [CarrierBooks.voidLabel]
  by_cases hnone : s.books.voided = []
  · left
    refine ⟨hnone, ?_⟩
    rw [hnone]
    rfl
  · right
    refine ⟨hnone, ?_⟩
    obtain ⟨entry, hentry⟩ := List.exists_mem_of_ne_nil _ hnone
    rw [if_pos]
    rw [List.any_eq_true]
    exact ⟨entry, hentry, by simp [hk.voidedKey entry hentry]⟩

/-- A turn writes, or leaves everything as it was and needs nothing of its time. -/
theorem program_cases (hk : Keyed s) (hp : Relies s point)
    (h : program point choice s = some (point', s')) :
    (s' = s ∧ Relies s point' ∧ InTime s point choice) ∨ Writes s point choice point' s' := by
  cases point with
  | requested request =>
    cases choice with
    | proceeds occurrence =>
      left
      cases request with
      | advance toStatus =>
        cases h
        refine ⟨rfl, ?_, trivial⟩
        apply attempts_relies
        intro new hnew
        obtain ⟨hmoved, _, hlabel⟩ := Shipment.transition_ok hnew
        exact ⟨hmoved, hlabel⟩
      | createLabel =>
        cases h
        exact ⟨rfl, precheck_relies_label, trivial⟩
      | voidLabel =>
        cases h
        exact ⟨rfl, precheck_relies_void hk, trivial⟩
      | retry =>
        cases h
        refine ⟨rfl, ?_, trivial⟩
        apply attempts_relies
        intro new hnew
        obtain ⟨hmoved, _, hlabel⟩ := Shipment.retry_ok hnew
        exact ⟨hmoved, hlabel⟩
    | issues | fails => cases request <;> cases h
  | requesting fulfillmentRef =>
    cases choice with
    | proceeds => cases h
    | fails message =>
      cases h
      exact .inl ⟨rfl, trivial, trivial⟩
    | issues label =>
      rcases createLabel_books hk label with ⟨hnone, hbooks⟩ | ⟨entry, hentry, hbooks⟩
      · rw [program, hbooks] at h
        cases h
        exact .inr (.issue hnone)
      · rw [program, hbooks] at h
        cases h
        refine .inl ⟨rfl, accept_relies ⟨entry, hentry, rfl⟩, ?_⟩
        intro hnone
        rw [hnone] at hentry
        cases hentry
  | settlingLabel record attempt =>
    cases choice with
    | proceeds occurrence =>
      cases h
      exact .inl ⟨rfl, settle_relies_label hp, trivial⟩
    | issues | fails => cases h
  | voiding labelId =>
    cases choice with
    | proceeds occurrence =>
      rcases voidLabel_books hk labelId with ⟨hnone, hbooks⟩ | ⟨hsome, hbooks⟩
      · rw [program, hbooks] at h
        cases h
        exact .inr (.void hnone)
      · rw [program, hbooks] at h
        cases h
        exact .inl ⟨rfl, hsome, fun hnone => absurd hnone hsome⟩
    | fails message =>
      cases h
      exact .inl ⟨rfl, trivial, trivial⟩
    | issues => cases h
  | settlingVoid attempt =>
    cases choice with
    | proceeds occurrence =>
      cases h
      exact .inl ⟨rfl, settle_relies_void hp, trivial⟩
    | issues | fails => cases h
  | saving saver read new =>
    cases choice with
    | proceeds occurrence =>
      simp only [program, Option.some.injEq, settled] at h
      split at h
      · rename_i hnone
        cases h
        refine .inl ⟨rfl, conflict_relies hp, ?_⟩
        intro hversion
        rw [save, if_pos hversion] at hnone
        cases hnone
      · rename_i hsome
        cases h
        exact .inr (.save hsome)
    | issues | fails => cases h
  | answered | thrown => cases choice <;> cases h

end Turns

section Writing

variable {s s' : Shared} {point point' : Point} {choice : Choice} {new read : Shipment}
  {saver : Saver} {label : ProviderLabel} {labelId : String}

theorem save_ok (h : save s new = some s') : new.version = s.shipment.version ∧
    s'.shipment = { new with version := new.version + 1, domainEvents := [] } ∧
      s'.books = s.books := by
  rw [save] at h
  split at h
  · rename_i hversion
    cases h
    exact ⟨hversion, rfl, rfl⟩
  · cases h

theorem writes_grown (hw : Writes s point choice point' s') : Grown s s' := by
  cases hw with
  | save h =>
    obtain ⟨hversion, hshipment, hbooks⟩ := save_ok h
    refine ⟨by rw [hbooks]; exact fun _ he => he, by rw [hbooks]; exact fun _ he => he, ?_, ?_⟩
    · rw [hshipment, hversion]
      exact Nat.le_succ _
    · intro hsame
      rw [hshipment, hversion] at hsame
      exact absurd hsame (Nat.succ_ne_self _)
  | issue h => exact ⟨by rw [h]; simp, fun _ he => he, le_rfl, fun _ => rfl⟩
  | void h => exact ⟨fun _ he => he, by rw [h]; simp, le_rfl, fun _ => rfl⟩

theorem changed_of_save (hp : Relies s (.saving saver read new)) (h : save s new = some s') :
    read = s.shipment ∧ Changed s s.shipment new saver ∧
      canTransitionShipment s.shipment.status new.status = true ∧ new.id = s.shipment.id := by
  obtain ⟨hread, hallowed, hid, hchanged⟩ := hp
  have hsame := hread.same (hread.version.symm.trans (save_ok h).1)
  rw [hsame] at hallowed hid hchanged
  exact ⟨hsame, hchanged, hallowed, hid⟩

theorem recorded_issued (hk : Keyed s) (hchanged : Changed s s.shipment new saver)
    {recorded : ShippingLabel} (hlabel : new.label = some recorded) :
    s.books.Issued recorded.labelId.1 := by
  cases saver with
  | once =>
    rw [hchanged] at hlabel
    exact hk.recorded _ ⟨recorded, hlabel, rfl⟩
  | label record attempt =>
    rw [hchanged.2.1] at hlabel
    cases hlabel
    exact hchanged.2.2
  | void attempt =>
    rw [hchanged.2.1] at hlabel
    exact hk.recorded _ ⟨recorded, hlabel, rfl⟩

theorem keyed_writes (hk : Keyed s) (hp : Relies s point)
    (hw : Writes s point choice point' s') : Keyed s' := by
  cases hw with
  | save h =>
    obtain ⟨_, hchanged, _, hid⟩ := changed_of_save hp h
    obtain ⟨_, hshipment, hbooks⟩ := save_ok h
    constructor
    · rw [hbooks]
      exact hk.once
    · rw [hbooks, hshipment]
      exact hid ▸ hk.issuedKey
    · rw [hbooks, hshipment]
      exact hid ▸ hk.voidedKey
    · rw [hbooks]
      exact hk.voidedIssued
    · rintro _ ⟨recorded, hlabel, rfl⟩
      rw [hshipment] at hlabel
      rw [hbooks]
      exact recorded_issued hk hchanged hlabel
  | issue h =>
    constructor
    · exact le_rfl
    · intro entry hentry
      rw [List.mem_singleton.mp hentry]
      rfl
    · exact hk.voidedKey
    · intro entry hentry
      obtain ⟨issued, hissued, _⟩ := hk.voidedIssued entry hentry
      rw [h] at hissued
      cases hissued
    · intro labelId hrecorded
      obtain ⟨issued, hissued, _⟩ := hk.recorded labelId hrecorded
      rw [h] at hissued
      cases hissued
  | void h =>
    constructor
    · exact hk.once
    · exact hk.issuedKey
    · intro entry hentry
      rw [List.mem_singleton.mp hentry]
      rfl
    · intro entry hentry
      rw [List.mem_singleton.mp hentry]
      exact hp
    · exact hk.recorded

theorem writes_relies (hp : Relies s point) (hw : Writes s point choice point' s') :
    Relies s' point' := by
  cases hw with
  | save h => trivial
  | issue h =>
    apply accept_relies
    exact ⟨_, List.mem_singleton_self _, rfl⟩
  | void h => exact List.cons_ne_nil _ _

/-- A save in time leaves the shipment in agreement with the books. -/
theorem recording_save (hk : Keyed s) (hr : Recording s) (hp : Relies s (.saving saver read new))
    (h : save s new = some s') {occurrence : Occurrence}
    (htime : InTime s (.saving saver read new) (.proceeds occurrence)) : Recording s' := by
  obtain ⟨hread, hchanged, hallowed, _⟩ := changed_of_save hp h
  obtain ⟨hversion, hshipment, hbooks⟩ := save_ok h
  have hcondition := htime hversion
  have hlive {recorded : ShippingLabel} (hlabel : new.label = some recorded)
      (hnot : ¬ s.books.Voided recorded.labelId.1) :
      ∃ labelId, Recorded s' labelId ∧ s'.books.Live labelId := by
    refine ⟨recorded.labelId.1, ⟨recorded, by rw [hshipment]; exact hlabel, rfl⟩, ?_⟩
    rw [hbooks]
    exact ⟨recorded_issued hk hchanged hlabel, hnot⟩
  cases saver with
  | once =>
    constructor
    · intro hlabelled
      rw [hshipment] at hlabelled
      rcases labelled_source hallowed hlabelled with hsource | ⟨hcreated, htarget⟩
      · obtain ⟨_, ⟨recorded, hlabel, rfl⟩, _, hnot⟩ := hr.labelled hsource
        exact hlive (hchanged.trans hlabel) hnot
      · rw [hread] at hcondition
        obtain ⟨recorded, hlabel, hnot⟩ := hcondition.1 hcreated htarget
        exact hlive (hchanged.trans hlabel) hnot
    · intro hvoided
      rw [hshipment] at hvoided
      rw [hbooks]
      exact hcondition.2 hvoided
  | label record attempt =>
    constructor
    · intro _
      exact hlive hchanged.2.1 hcondition
    · intro hvoided
      rw [hshipment] at hvoided
      have hstatus : new.status = .voided := hvoided
      rw [hchanged.1] at hstatus
      cases hstatus
  | void attempt =>
    constructor
    · intro hlabelled
      rw [hshipment] at hlabelled
      have hstatus : new.status.labelled = true := hlabelled
      rw [hchanged.1] at hstatus
      cases hstatus
    · intro _
      rw [hbooks]
      exact hk.allVoided hchanged.2.2

theorem unlabelled_of_unissued (hr : Recording s) (h : s.books.issued = [])
    (hlabelled : s.shipment.status.labelled = true) : False := by
  obtain ⟨_, _, ⟨entry, hentry, _⟩, _⟩ := hr.labelled hlabelled
  rw [h] at hentry
  cases hentry

theorem recording_writes (hk : Keyed s) (hr : Recording s) (hp : Relies s point)
    (hw : Writes s point choice point' s') (htime : InTime s point choice) : Recording s' := by
  cases hw with
  | save h => exact recording_save hk hr hp h htime
  | issue h =>
    constructor
    · intro hlabelled
      exact (unlabelled_of_unissued hr h hlabelled).elim
    · intro hvoided
      exact (htime h hvoided).elim
  | void h =>
    constructor
    · intro hlabelled
      rw [show (s.void _).shipment = s.shipment from rfl, htime h] at hlabelled
      cases hlabelled
    · intro hvoided issued hissued
      obtain ⟨entry, hentry, _⟩ := hr.voided hvoided issued hissued
      rw [h] at hentry
      cases hentry

/-- A write out of time leaves them in disagreement. -/
theorem recording_broken (hk : Keyed s) (hp : Relies s point)
    (hw : Writes s point choice point' s') (htime : ¬ InTime s point choice) : ¬ Recording s' := by
  intro hr'
  cases hw with
  | @save saver read new occurrence s' h =>
    obtain ⟨hread, hchanged, hallowed, _⟩ := changed_of_save hp h
    obtain ⟨hversion, hshipment, hbooks⟩ := save_ok h
    apply htime
    intro _
    have hlabelled (hstatus : new.status = .labelCreated) : ∃ recorded, new.label = some recorded ∧
        ¬ s.books.Voided recorded.labelId.1 := by
      obtain ⟨_, ⟨recorded, hlabel, rfl⟩, _, hnot⟩ := hr'.labelled (by
        rw [hshipment]
        change new.status.labelled = true
        rw [hstatus]
        rfl)
      rw [hshipment] at hlabel
      rw [hbooks] at hnot
      exact ⟨recorded, hlabel, hnot⟩
    cases saver with
    | once =>
      constructor
      · intro _ htarget
        obtain ⟨recorded, hlabel, hnot⟩ := hlabelled htarget
        rw [hread]
        exact ⟨recorded, hchanged.symm.trans hlabel, hnot⟩
      · intro hvoided
        have hall := hr'.voided (by rw [hshipment]; exact hvoided)
        rwa [hbooks] at hall
    | label record attempt =>
      obtain ⟨recorded, hlabel, hnot⟩ := hlabelled hchanged.1
      rw [hchanged.2.1] at hlabel
      cases hlabel
      exact hnot
    | void attempt => trivial
  | issue h =>
    apply htime
    intro _ hvoided
    obtain ⟨entry, hentry, _⟩ := hr'.voided hvoided _ (List.mem_singleton_self _)
    obtain ⟨issued, hissued, _⟩ := hk.voidedIssued entry hentry
    rw [h] at hissued
    cases hissued
  | void h =>
    apply htime
    intro _
    rw [Bool.eq_false_iff]
    intro hlabelled
    obtain ⟨recorded, hrecorded, hissued, hnot⟩ := hr'.labelled hlabelled
    apply hnot
    exact ⟨_, List.mem_singleton_self _, hk.unique hp hissued⟩

end Writing

variable [DecidableEq ι]

/-- The invariant of a run whose steps come in time. -/
def Sound (s : Calls ι) : Prop := Holds (fun s => Keyed s ∧ Recording s) Relies s

section Runs

variable {s u : Calls ι} {l : Label Choice ι}

omit [DecidableEq ι] in
theorem Sound.agreed (h : Sound s) : Agreed s := by
  obtain ⟨hk, hr⟩ := h.shared
  refine ⟨hr, ?_⟩
  intro hlabelled _ entry hentry hother
  obtain ⟨labelId, hrecorded, hlive⟩ := hr.labelled hlabelled
  rw [hk.unique hlive.1 ⟨entry, hentry, rfl⟩] at hrecorded
  exact absurd hrecorded hother

theorem sound_step (h : Sound s) (hst : Step program s l u) (htime : StepInTime s l) : Sound u := by
  cases step_move hst with
  | @turn c point choice point' s' hc hturn =>
    apply Holds.turn h hc
    rintro ⟨hk, hr⟩ hp
    rcases program_cases hk hp hturn with ⟨hsame, hrelies, _⟩ | hw
    · rw [hsame]
      exact ⟨⟨hk, hr⟩, hrelies, fun _ hother => hother⟩
    · refine ⟨⟨keyed_writes hk hp hw, recording_writes hk hr hp hw (htime point hc)⟩,
        writes_relies hp hw, ?_⟩
      intro other hother
      exact hother.grown (writes_grown hw)
  | crash hc => exact Holds.crash h hc

theorem agreed_broken (h : Sound s) (hst : Step program s l u) (htime : ¬ StepInTime s l) :
    ¬ Agreed u := by
  cases step_move hst with
  | @turn c point choice point' s' hc hturn =>
    have hp := h.points c
    rw [hc] at hp
    have hlate : ¬ InTime s.shared point choice := by
      intro hin
      apply htime
      intro point₀ hpoint
      rw [hc] at hpoint
      cases hpoint
      exact hin
    have hk := h.shared.1
    rcases program_cases hk hp hturn with ⟨_, _, hin⟩ | hw
    · exact absurd hin hlate
    · intro hagreed
      exact recording_broken hk hp hw hlate hagreed.recording
  | crash => exact absurd trivial htime

omit [DecidableEq ι] in
theorem sound_initial (id : UniqueEntityId) (fulfillmentRef : String) (requests : ι → Request) :
    Sound (initial id fulfillmentRef requests) := by
  refine ⟨⟨?_, ?_⟩, fun c => trivial⟩
  · constructor
    · exact Nat.zero_le _
    · rintro _ ⟨⟩
    · rintro _ ⟨⟩
    · rintro _ ⟨⟩
    · rintro _ ⟨_, ⟨⟩, _⟩
  · constructor
    · rintro ⟨⟩
    · rintro ⟨⟩

/-- What is recorded of a shipment's labels agrees with what the carrier did, in every state that
a run goes through, exactly when every step of the run comes in time. -/
theorem run_agreed (id : UniqueEntityId) (fulfillmentRef : String) (requests : ι → Request)
    {tr : List (Label Choice ι × Calls ι)}
    (hr : Run (Step program) (initial id fulfillmentRef requests) tr) :
    Always Agreed (initial id fulfillmentRef requests) tr ↔
      EveryStep StepInTime (initial id fulfillmentRef requests) tr := by
  refine always_iff_everyStep (I := Sound) ?_ ?_ ?_ (sound_initial id fulfillmentRef requests) hr
  · intro s l u h hst htime
    exact sound_step h hst htime
  · intro s h
    exact h.agreed
  · intro s l u h hst htime
    exact agreed_broken h hst htime

end Runs

/-- A label is created, voided and created again, or the shipment is advanced in between. -/
def relabelling : ℕ → Request
  | 0 => .createLabel
  | 1 => .voidLabel
  | 2 => .advance .created
  | 3 => .createLabel
  | _ => .advance .carrierAccepted

theorem shipmentId_notEmpty : isBlank "shipment-1" = false := by decide

def occurred : Choice := .proceeds ⟨"event-1", 0⟩

def groundLabel (labelId : String) : Choice := .issues ⟨"carrier", "ground", labelId, "track"⟩

def createTurns (c : ℕ) (labelId : String) : List (Label Choice ℕ) :=
  [.turn c occurred, .turn c (groundLabel labelId), .turn c occurred, .turn c occurred]

def voidTurns (c : ℕ) : List (Label Choice ℕ) :=
  [.turn c occurred, .turn c occurred, .turn c occurred, .turn c occurred]

def advanceTurns (c : ℕ) : List (Label Choice ℕ) := [.turn c occurred, .turn c occurred]

def relabelled (turns : List (Label Choice ℕ)) : List (Label Choice ℕ × Calls ℕ) :=
  attempt (next program) (initial ⟨"shipment-1", shipmentId_notEmpty⟩ "fulfillment-1" relabelling)
    turns

/-- The label is created, and the carrier accepts the shipment. -/
theorem run_agreed_accepted :
    Always Agreed (initial ⟨"shipment-1", shipmentId_notEmpty⟩ "fulfillment-1" relabelling)
      (relabelled (createTurns 0 "label-1" ++ advanceTurns 4)) := by
  refine (run_agreed _ _ relabelling (run_attempt _ _ _)).mpr ?_
  refine ⟨?_, ?_, ?_, ?_, ?_, ?_, trivial⟩
  · rintro point ⟨⟩
    trivial
  · rintro point ⟨⟩ _ ⟨⟩
  · rintro point ⟨⟩
    trivial
  · rintro point ⟨⟩ _ ⟨_, ⟨⟩, _⟩
  · rintro point ⟨⟩
    trivial
  · rintro point ⟨⟩ _
    exact ⟨by rintro ⟨⟩, by rintro ⟨⟩⟩

/-- With one call after the other, the shipment ends with the label that was voided. -/
theorem agreement_fails : ¬ ∀ (id : UniqueEntityId) (fulfillmentRef : String)
    (requests : ℕ → Request) (tr : List (Label Choice ℕ × Calls ℕ)),
    Run (Step program) (initial id fulfillmentRef requests) tr →
      Always Agreed (initial id fulfillmentRef requests) tr := by
  intro hclaim
  have hend := (hclaim ⟨"shipment-1", shipmentId_notEmpty⟩ "fulfillment-1" relabelling
    (relabelled (createTurns 0 "label-1" ++ voidTurns 1 ++ advanceTurns 2 ++
      createTurns 3 "label-2")) (run_attempt _ _ _)).last
  obtain ⟨labelId, ⟨label, hlabel, rfl⟩, _, hnot⟩ := hend.recording.labelled (by decide +kernel)
  apply hnot
  refine ⟨("shipment-1:void", "label-1"), ?_, ?_⟩
  · decide +kernel
  · cases hlabel
    rfl

end Shipping
