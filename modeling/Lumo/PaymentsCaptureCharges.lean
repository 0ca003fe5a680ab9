import Lumo.PaymentsCaptureProtocol

/-! # A captured payment has one charge

`settle` records the charge together with the status; a bare transition to `captured` does
not. The intent is captured with exactly one charge along every run in which no transaction
commits a bare one. -/
namespace PaymentsCaptureProtocol

open SharedKernel PaymentsIntent PaymentsUseCases LabelledRuns OptimisticTransactions PaymentIntent

variable {ι : Type} [DecidableEq ι] {cfg : Config} {intentId : String}

/-- A call that may move the status to `captured` without recording a charge. -/
def BarePoint (cfg : Config) : Point → Prop
  | .advancing toStatus => toStatus = .captured
  | .recording input =>
    kindToStatus input.kind = some .captured ∧ deferToCaptureSettlement cfg input = false
  | _ => False

/-- One edge of the table, the walk to `capture_requested`, or no move. -/
def Moves (fromStatus toStatus : PaymentStatusValue) : Prop :=
  toStatus = fromStatus ∨ canTransitionPayment fromStatus toStatus = true ∨
    walksToCaptureRequested fromStatus = true ∧ toStatus = .captureRequested

inductive Saved (cfg : Config) (intent saved : PaymentIntent) : Point → Prop where
  | moved {k} : saved.charges = intent.charges → Moves intent.status saved.status →
      (saved.status = .captured → intent.status = .captured) →
      (BarePoint cfg k → intent.status = .captured) → Saved cfg intent saved k
  | charged {settler attempt charge} : saved.charges = intent.charges ++ [charge] →
      canTransitionPayment intent.status .captured = true → saved.status = .captured →
      Saved cfg intent saved (.settling settler attempt)
  | bare {k} : BarePoint cfg k → saved.charges = intent.charges →
      canTransitionPayment intent.status .captured = true → saved.status = .captured →
      Saved cfg intent saved k

structure SameProvider (intent saved : PaymentIntent) : Prop where
  provider : saved.provider = intent.provider
  reference : saved.pspReference = intent.pspReference

variable {intent saved : PaymentIntent} {k : Point} {capabilities : ProviderCapabilities}
  {env : Env}

theorem advance_save {toStatus : PaymentStatusValue} (h : advance toStatus intent = .save saved k) :
    Saved cfg intent saved (.advancing toStatus) ∧ k = .finished (.ok saved.status) := by
  rw [advance] at h
  rcases transition_result intent toStatus with ⟨_, e, he⟩ | ⟨hc, hok⟩
  · simp [he] at h
  · simp only [hok, Outcome.save.injEq] at h
    obtain ⟨rfl, rfl⟩ := h
    refine ⟨?_, rfl⟩
    by_cases ht : toStatus = .captured
    · subst ht
      exact .bare rfl rfl hc rfl
    · exact .moved rfl (Or.inr (Or.inl hc)) (fun h => absurd h ht) (fun h => absurd h ht)

variable {minor : ℚ} {draw n : ℕ} {e : Event ProviderMove ι} {v w : View PaymentIntent Point Env ι}
  {s : State PaymentIntent Point Env ι}

theorem authorize_save {reference : PspReference} {method : PaymentMethod}
    (h : authorize reference method minor intent = .save saved k) :
    Saved cfg intent saved (.authorizing reference method minor) ∧
      k = .finished (.ok saved.status) := by
  rw [authorize] at h
  split at h
  · simp only at h
    split at h <;> cases h
  · rcases authorize_result intent reference method minor with
      ⟨_, e, he⟩ | ⟨_, e, he⟩ | ⟨hc, m, _, _, hok⟩
    · simp [he] at h
    · simp [he] at h
    · simp only [hok, Outcome.save.injEq] at h
      obtain ⟨rfl, rfl⟩ := h
      exact ⟨.moved rfl (Or.inr (Or.inl hc)) (fun h => by cases h) False.elim, rfl⟩

theorem capabilitiesOrRefusal_ok {provider : String}
    (h : capabilitiesOrRefusal cfg provider = .ok capabilities) :
    cfg.capabilitiesOf provider = some capabilities := by
  rw [capabilitiesOrRefusal] at h
  split at h
  · cases h
  · cases h
    assumption

theorem reserve_save (attempt : ℕ) (h : reserve cfg intent = .save saved k) :
    Saved cfg intent saved (.reserving attempt) ∧ SameProvider intent saved ∧
      saved.status = .captureRequested ∧ intent.status ≠ .captured ∧
      ∃ capabilities ref, cfg.capabilitiesOf intent.provider = some capabilities ∧
        capabilities.settlesAtPayTime = false ∧ intent.pspReference = some ref ∧
        k = .calling ref := by
  rw [reserve] at h
  split at h
  · cases h
  · rename_i capabilities hcap
    split at h
    · cases h
    · rename_i hsettles
      split at h
      · cases h
      · rename_i ref href
        split at h
        · cases h
        · rename_i hne
          split at h
          · cases h
          · rcases transition_result intent .captureRequested with ⟨_, e, he⟩ | ⟨hc, hok⟩
            · simp [requestCapture, he] at h
            · simp only [requestCapture, hok, Outcome.save.injEq] at h
              obtain ⟨rfl, rfl⟩ := h
              refine ⟨.moved rfl (Or.inr (Or.inl hc)) (fun h => by cases h) False.elim, ⟨rfl, rfl⟩,
                rfl, hne, capabilities, ref, ?_, ?_, href, rfl⟩
              · exact capabilitiesOrRefusal_ok hcap
              · simpa [hne] using hsettles

theorem settle_save {settler : Settler} (attempt : ℕ)
    (h : settle cfg draw settler intent = .save saved k) :
    Saved cfg intent saved (.settling settler attempt) ∧ SameProvider intent saved ∧
      saved.status = .captured ∧ k = afterSettle settler (.ok .captured) := by
  rw [settle] at h
  split at h
  · cases h
  · split at h
    · cases h
    · rcases markCaptured_result intent (cfg.ids draw) with
        ⟨_, e, he⟩ | ⟨id, token, _, ⟨_, e, he⟩ | ⟨hc, hok⟩⟩
      · simp [he] at h
      · simp [he] at h
      · simp only [hok, Outcome.save.injEq] at h
        obtain ⟨rfl, rfl⟩ := h
        exact ⟨.charged rfl hc rfl, ⟨rfl, rfl⟩, rfl, rfl⟩

theorem prepared {ref : Option String} (h : prepareDirectCapture ref intent = .ok () saved) :
    saved.charges = intent.charges ∧ SameProvider intent saved ∧ (saved.status = intent.status ∨
      walksToCaptureRequested intent.status = true ∧ saved.status = .captureRequested) := by
  obtain ⟨q, rfl, ⟨_, hok⟩ | ⟨hw, hok⟩ | ⟨_, _, _, e, he⟩⟩ := prepareDirectCapture_result intent ref
  · rw [hok] at h
    cases h
    exact ⟨rfl, ⟨rfl, rfl⟩, Or.inl rfl⟩
  · rw [hok] at h
    cases h
    exact ⟨rfl, ⟨rfl, rfl⟩, Or.inr ⟨hw, rfl⟩⟩
  · rw [he] at h
    cases h

theorem receive_deferred {input : WebhookInput} (hd : deferToCaptureSettlement cfg input = true)
    (h : receive cfg input capabilities intent = .ok () saved) :
    saved.charges = intent.charges ∧ SameProvider intent saved ∧ (saved.status = intent.status ∨
      walksToCaptureRequested intent.status = true ∧ saved.status = .captureRequested) := by
  have hkind : kindToStatus input.kind = some .captured := by
    simp only [deferToCaptureSettlement, Bool.and_eq_true, decide_eq_true_eq] at hd
    exact hd.1
  cases hsettles : capabilities.settlesAtPayTime with
  | false =>
    simp [receive, hd, hkind, hsettles] at h
    subst h
    exact ⟨rfl, ⟨rfl, rfl⟩, Or.inl rfl⟩
  | true =>
    cases hp : prepareDirectCapture input.providerTransactionRef intent with
    | error e q => simp [receive, hd, hkind, hsettles, hp] at h
    | ok u q =>
      simp [receive, hd, hkind, hsettles, hp] at h
      subst h
      exact prepared hp

theorem receive_status {input : WebhookInput} (hd : deferToCaptureSettlement cfg input = false)
    (h : receive cfg input capabilities intent = .ok () saved) :
    saved.charges = intent.charges ∧ (saved.status = intent.status ∧
        (∀ t, kindToStatus input.kind = some t → intent.status = t) ∨
      canTransitionPayment intent.status saved.status = true ∧
        kindToStatus input.kind = some saved.status) := by
  cases hk : kindToStatus input.kind with
  | none =>
    simp [receive, hd, hk] at h
    subst h
    exact ⟨rfl, Or.inl ⟨rfl, by simp⟩⟩
  | some t =>
    by_cases hs : intent.status = t
    · simp [receive, hd, hk, hs] at h
      subst h
      exact ⟨rfl, Or.inl ⟨rfl, by simpa using hs⟩⟩
    · simp only [receive, hd, hk, Bool.false_and, Bool.not_false, Bool.true_and] at h
      rcases transition_result intent t with ⟨_, e, he⟩ | ⟨hc, hok⟩
      · simp [hs, he] at h
      · simp [hs, hok] at h
        subst h
        exact ⟨rfl, Or.inr ⟨hc, rfl⟩⟩

theorem record_received {input : WebhookInput} (h : record cfg input env intent = .save saved k) :
    (∃ capabilities, receive cfg input capabilities intent = .ok () saved) ∧
      k = if deferToCaptureSettlement cfg input then .settling (.webhook input) 1
        else .marking input saved.status := by
  rw [record] at h
  split at h
  · cases h
  · split at h
    · cases h
    · split at h
      · cases h
      · rename_i u q hrun
        cases h
        exact ⟨⟨_, hrun⟩, rfl⟩

theorem record_save {input : WebhookInput} (h : record cfg input env intent = .save saved k) :
    Saved cfg intent saved (.recording input) := by
  obtain ⟨⟨capabilities, hrun⟩, _⟩ := record_received h
  cases hd : deferToCaptureSettlement cfg input with
  | true =>
    obtain ⟨hc, _, hs⟩ := receive_deferred hd hrun
    have hnb : ¬ BarePoint cfg (.recording input) := fun hb =>
      Bool.noConfusion (hd.symm.trans hb.2)
    rcases hs with hs | ⟨hw, hs⟩
    · exact .moved hc (Or.inl hs) (fun h => hs ▸ h) (fun h => absurd h hnb)
    · exact .moved hc (Or.inr (Or.inr ⟨hw, hs⟩)) (fun h => by rw [hs] at h; cases h)
        (fun h => absurd h hnb)
  | false =>
    obtain ⟨hc, ⟨hs, hsame⟩ | ⟨he, hk⟩⟩ := receive_status hd hrun
    · exact .moved hc (Or.inl hs) (fun h => hs ▸ h) (fun h => hsame _ h.1)
    · by_cases hcap : saved.status = .captured
      · exact .bare ⟨hcap ▸ hk, hd⟩ hc (hcap ▸ he) hcap
      · refine .moved hc (Or.inr (Or.inl he)) (fun h => absurd h hcap) (fun h => ?_)
        have hb := h.1
        rw [hk] at hb
        exact absurd (Option.some.inj hb) hcap

theorem confirm_save {currency : String} (h : confirm cfg minor currency intent = .save saved k) :
    Saved cfg intent saved (.confirming minor currency) ∧ k = .settling .collection 1 := by
  rw [confirm] at h
  split at h
  · cases h
  · split at h
    · cases h
    · split at h
      · cases h
      · split at h
        · cases h
        · split at h
          · cases h
          · rename_i u q hrun
            split at h
            · cases h
              obtain ⟨hc, _, hs | ⟨hw, hs⟩⟩ := prepared hrun
              · exact ⟨.moved hc (Or.inl hs) (fun h => hs ▸ h) False.elim, rfl⟩
              · exact ⟨.moved hc (Or.inr (Or.inr ⟨hw, hs⟩)) (fun h => by rw [hs] at h; cases h)
                  False.elim, rfl⟩
            · cases h

theorem body_save {k' : Point} {b : ℕ → Env → PaymentIntent → Outcome PaymentIntent Point}
    (hb : (protocol cfg intentId).body k = some b) (h : b draw env intent = .save saved k') :
    Saved cfg intent saved k := by
  cases k with
  | advancing => cases hb; exact (advance_save h).1
  | authorizing => cases hb; exact (authorize_save h).1
  | reserving attempt => cases hb; exact (reserve_save attempt h).1
  | settling _ attempt => cases hb; exact (settle_save attempt h).1
  | recording => cases hb; exact record_save h
  | confirming => cases hb; exact (confirm_save h).1
  | calling | marking | finished => cases hb

/-- The intent is captured only with exactly one charge, and never has two. -/
structure OneCharge (intent : PaymentIntent) : Prop where
  captured : intent.status ∈ [.captured, .partiallyRefunded, .refunded] →
    intent.charges.length = 1
  atMostOne : intent.charges.length ≤ 1

/-- How many charges an intent of a status may have. -/
def chargesFit : PaymentStatusValue → ℕ → Prop
  | .captured, n | .partiallyRefunded, n | .refunded, n => n = 1
  | .closed, n => n ≤ 1
  | _, n => n = 0

def ChargesFit (intent : PaymentIntent) : Prop :=
  chargesFit intent.status intent.charges.length

theorem ChargesFit.oneCharge (h : ChargesFit intent) : OneCharge intent := by
  rw [ChargesFit] at h
  constructor
  · cases hs : intent.status <;> simp_all [chargesFit]
  · cases hs : intent.status <;> simp_all [chargesFit]

theorem chargesFit_move {s t : PaymentStatusValue} (hm : Moves s t)
    (ht : t = .captured → s = .captured) (h : chargesFit s n) : chargesFit t n := by
  rcases hm with rfl | he | ⟨hw, rfl⟩
  · exact h
  · cases s <;> cases t <;>
      simp_all [chargesFit, canTransitionPayment, PaymentStatusValue.transitions]
  · cases s <;> simp_all [chargesFit, walksToCaptureRequested]

theorem chargesFit_edge {s : PaymentStatusValue} (he : canTransitionPayment s .captured = true)
    (h : chargesFit s n) : n = 0 := by
  cases s <;> simp_all [chargesFit, canTransitionPayment, PaymentStatusValue.transitions]

theorem Saved.chargesFit_iff (h : Saved cfg intent saved k) (hi : ChargesFit intent) :
    (¬ (BarePoint cfg k ∧ intent.status ≠ .captured) → ChargesFit saved) ∧
      (BarePoint cfg k ∧ intent.status ≠ .captured → ¬ OneCharge saved) := by
  unfold ChargesFit at *
  cases h with
  | moved hc hm hcap hbare =>
    refine ⟨fun _ => ?_, fun hb => absurd (hbare hb.1) hb.2⟩
    rw [hc]
    exact chargesFit_move hm hcap hi
  | charged hc he hs =>
    refine ⟨fun _ => ?_, fun hb => hb.1.elim⟩
    rw [hc, hs]
    simp [chargesFit, chargesFit_edge he hi]
  | bare hb hc he hs =>
    have hne : intent.status ≠ .captured := by
      intro hcap
      rw [hcap] at he
      cases he
    refine ⟨fun hn => absurd ⟨hb, hne⟩ hn, fun _ ho => ?_⟩
    have hone := ho.captured (by simp [hs])
    rw [hc, chargesFit_edge he hi] at hone
    cases hone

/-- The step commits a bare transition to `captured`. -/
def BareCapture (cfg : Config) (v : View PaymentIntent Point Env ι) : Event ProviderMove ι → Prop
  | .save c => ∃ k, v.points c = some k ∧ BarePoint cfg k ∧ v.value.status ≠ .captured
  | _ => False

theorem chargesFit_step (h : ChargesFit v.value) (hst : AtomicStep (protocol cfg intentId) v e w)
    (hno : ¬ BareCapture cfg v e) : ChargesFit w.value := by
  cases hst with
  | save hc hb _ ho _ =>
    exact ((body_save hb ho).chargesFit_iff h).1 fun hbare => hno ⟨_, hc, hbare⟩
  | answer | conflict | act | crash | idle => exact h

theorem bareCapture_breaks (h : ChargesFit v.value) (hst : AtomicStep (protocol cfg intentId) v e w)
    (hbare : BareCapture cfg v e) : ¬ OneCharge w.value := by
  cases hst with
  | save hc hb _ ho _ =>
    obtain ⟨k, hk, hbare⟩ := hbare
    cases hk.symm.trans hc
    exact ((body_save hb ho).chargesFit_iff h).2 hbare
  | answer | conflict | act | crash | idle => exact hbare.elim

/-- How the calls of the five use cases begin. -/
inductive Begins : Point → Prop where
  | advance (toStatus) : Begins (.advancing toStatus)
  | authorize (ref token brand minor) : Begins (executeAuthorize ref token brand minor)
  | capture : Begins (.reserving 1)
  | webhook (input) : Begins (executeWebhook input)
  | collection (minor currency) : Begins (.confirming minor currency)

/-- Any number of calls are about to begin on an intent just created. -/
structure Start (s : State PaymentIntent Point Env ι) : Prop where
  created : Created s.row.value
  calls : ∀ c, ∃ k, Begins k ∧ s.calls c = .ready k

omit [DecidableEq ι] in
theorem Start.quiet (h : Start s) : Quiet s := by
  intro c k d v new k' hc
  obtain ⟨_, _, hk⟩ := h.calls c
  rw [hk] at hc
  cases hc

theorem Created.chargesFit (h : Created intent) : ChargesFit intent := by
  obtain ⟨id, amount, provider, rfl | rfl⟩ := h <;> rfl

/-- For every interleaving of the five use cases: a captured, partially refunded or refunded
intent has exactly one charge and none ever has two, if and only if no transaction commits a
bare transition to `captured`. -/
theorem run_oneCharge_iff {tr : List (Label ProviderMove ι × State PaymentIntent Point Env ι)}
    (hs : Start s) (hr : Run (OptimisticTransactions.Step (protocol cfg intentId)) s tr) :
    Always (fun s => OneCharge s.row.value) s tr ↔
      EveryStep (fun s l => ¬ BareCapture cfg (view s) (event (protocol cfg intentId) s l))
        s tr := by
  refine always_view_iff (I := fun v => ChargesFit v.value) (Q := fun v => OneCharge v.value)
    (G := fun v e => ¬ BareCapture cfg v e) ?_ (fun v hv => hv.oneCharge) ?_ hs.quiet
    (Created.chargesFit hs.created) hr
  · exact fun v e w hv hst hg => chargesFit_step hv hst hg
  · exact fun v e w hv hst hg => bareCapture_breaks hv hst (not_not.mp hg)

def sampleConfig : Config where
  capabilitiesOf _ := some ⟨false, true⟩
  ids draw := String.ofList (List.replicate (draw + 1) 'c')
  captureSettlement := true

def stateOf {n : ℕ} (intent : PaymentIntent) (calls : Fin n → Point) :
    State PaymentIntent Point Env (Fin n) where
  row := ⟨intent, 1⟩
  env := ⟨[], [], []⟩
  draws := 0
  calls c := .ready (calls c)

/-- `AdvancePayment` moves an intent to `captured` and no charge is recorded. -/
theorem oneCharge_fails : ¬ ∀ (s : State PaymentIntent Point Env (Fin 1))
    (tr : List (Label ProviderMove (Fin 1) × State PaymentIntent Point Env (Fin 1))),
    Start s → Run (OptimisticTransactions.Step (protocol sampleConfig "pi-1")) s tr →
      Always (fun s => OneCharge s.row.value) s tr := by
  intro h
  have hstart : Start (stateOf sampleIntent fun _ : Fin 1 => .advancing .captured) :=
    ⟨⟨_, _, _, Or.inl rfl⟩, fun _ => ⟨_, .advance _, rfl⟩⟩
  have hlast := (h _ (play (protocol sampleConfig "pi-1") _ [.read 0, .write 0]) hstart
    (run_play _ _ _)).last
  exact absurd (hlast.captured (by decide)) (by decide)

def cardPayment : Fin 3 → Point
  | 0 => .advancing .processing
  | 1 => executeAuthorize "psp-1" "tok" none 100
  | 2 => .reserving 1

def cardState : State PaymentIntent Point Env (Fin 3) :=
  stateOf (createIntent sampleId (usd 100) "stripe") cardPayment

theorem run_oneCharge_iff_card : Always (fun s => OneCharge s.row.value) cardState
    (play (protocol sampleConfig "pi-1") cardState [.read 0, .write 0, .read 1, .write 1, .read 2,
      .write 2, .act 2 .accepts, .read 2, .write 2]) := by
  have hstart : Start cardState := by
    refine ⟨⟨_, _, _, Or.inr rfl⟩, fun c => ⟨cardPayment c, ?_, rfl⟩⟩
    match c with
    | 0 => exact .advance _
    | 1 => exact .authorize "psp-1" "tok" none 100
    | 2 => exact .capture
  refine (run_oneCharge_iff hstart (run_play _ _ _)).mpr
    ⟨id, ?_, id, ?_, id, ?_, id, id, ?_, trivial⟩ <;>
  · rintro ⟨k, hk, hb, _⟩
    cases hk
    cases hb

end PaymentsCaptureProtocol
