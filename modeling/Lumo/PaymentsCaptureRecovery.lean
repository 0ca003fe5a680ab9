import Lumo.PaymentsCaptureCharges

/-! # The capture protocol

Captures and `captured` webhooks only, in any number and any interleaving, with crashes. The
provider sees one key, a caller that is told `captured` can rely on it, and an accepted capture
can always still be recorded. -/
namespace PaymentsCaptureProtocol

open SharedKernel PaymentsIntent PaymentsUseCases LabelledRuns OptimisticTransactions PaymentIntent

variable {ι : Type} [DecidableEq ι] {cfg : Config} {intentId : String}

/-- Where the calls of this protocol stand. -/
inductive InCapture : Point → Prop where
  | reserving (attempt) : InCapture (.reserving attempt)
  | calling (ref) : InCapture (.calling ref)
  | settling (attempt) : InCapture (.settling .capture attempt)
  | recording {input} : kindToStatus input.kind = some .captured → InCapture (.recording input)
  | webhook (input attempt) : InCapture (.settling (.webhook input) attempt)
  | marking (input) : InCapture (.marking input .captured)
  | finished (answer) : InCapture (.finished answer)

structure Capturable (cfg : Config) (intent : PaymentIntent) : Prop where
  underway : intent.status = .captureRequested ∨ intent.status = .captured
  provider : ∃ capabilities, cfg.capabilitiesOf intent.provider = some capabilities ∧
    capabilities.settlesAtPayTime = false
  reference : ∃ ref, intent.pspReference = some ref

/-- What a call at a point relies on. -/
def Relies (cfg : Config) (intent : PaymentIntent) : Point → Prop
  | .calling _ => Capturable cfg intent
  | .settling .capture _ => Capturable cfg intent
  | .marking _ _ => intent.status = .captured
  | .finished answer => answer = .ok .captured → intent.status = .captured
  | _ => True

/-- What the stored intent keeps from one transaction to the next. -/
structure Kept (intent saved : PaymentIntent) : Prop where
  provider : SameProvider intent saved
  underway : intent.status = .captureRequested → saved.status = .captureRequested ∨
    saved.status = .captured
  captured : intent.status = .captured → saved.status = .captured

variable {intent saved : PaymentIntent} {k' k : Point} {draw : ℕ} {env : Env}
  {b : ℕ → Env → PaymentIntent → Outcome PaymentIntent Point} {v : View PaymentIntent Point Env ι}

theorem Kept.capturable (h : Kept intent saved) (hc : Capturable cfg intent) :
    Capturable cfg saved where
  underway := hc.underway.elim h.underway fun hs => Or.inr (h.captured hs)
  provider := h.provider.provider.symm ▸ hc.provider
  reference := h.provider.reference.symm ▸ hc.reference

theorem Kept.relies (h : Kept intent saved) (hr : Relies cfg intent k) : Relies cfg saved k := by
  unfold Relies at *
  split <;> simp_all only
  · exact h.capturable hr
  · exact h.capturable hr
  · exact h.captured hr
  · exact fun ha => h.captured (hr ha)

theorem settled_point {settler : Settler} {answer : Answer} (hp : InCapture (.settling settler 1))
    (ha : ∀ status, answer = .ok status →
      status = .captured ∧ intent.status = .captured) :
    InCapture (afterSettle settler answer) ∧ Relies cfg intent (afterSettle settler answer) := by
  cases settler with
  | capture => exact ⟨.finished _, fun h => (ha _ h).2⟩
  | webhook input =>
    cases answer with
    | ok status =>
      obtain ⟨rfl, hs⟩ := ha status rfl
      exact ⟨.marking input, hs⟩
    | err e | threw reason => exact ⟨.finished _, fun h => by cases h⟩
  | collection => cases hp

theorem reserve_answer (h : reserve cfg intent = .answer k) :
    InCapture k ∧ Relies cfg intent k := by
  rw [reserve] at h
  split at h
  · cases h
    exact ⟨.finished _, fun h => by cases h⟩
  · rename_i capabilities hcap
    split at h
    · cases h
      exact ⟨.finished _, fun h => by cases h⟩
    · rename_i hsettles
      split at h
      · cases h
        exact ⟨.finished _, fun h => by cases h⟩
      · rename_i ref href
        split at h
        · rename_i hs
          cases h
          exact ⟨.finished _, fun _ => hs⟩
        · rename_i hne
          split at h
          · rename_i hs
            cases h
            refine ⟨.calling ref, ⟨Or.inl hs, ⟨capabilities, capabilitiesOrRefusal_ok hcap, ?_⟩,
              ref, href⟩⟩
            simpa [hne] using hsettles
          · split at h
            · cases h
              exact ⟨.finished _, fun h => by cases h⟩
            · cases h

theorem settle_answer {settler : Settler} {attempt : ℕ} (hp : InCapture (.settling settler attempt))
    (h : settle cfg draw settler intent = .answer k) : InCapture k ∧ Relies cfg intent k := by
  have hp : InCapture (.settling settler 1) := by
    cases hp
    · exact .settling 1
    · exact .webhook _ 1
  rw [settle] at h
  split at h
  · rename_i hs
    cases h
    apply settled_point hp
    rintro status ⟨⟩
    exact ⟨hs, hs⟩
  · split at h
    · cases h
      exact settled_point hp (by rintro status ⟨⟩)
    · split at h
      · cases h
        exact settled_point hp (by rintro status ⟨⟩)
      · cases h

theorem record_answer {input : WebhookInput} (h : record cfg input env intent = .answer k) :
    InCapture k ∧ Relies cfg intent k := by
  rw [record] at h
  split at h
  · cases h
    exact ⟨.finished _, fun h => by simpa using h⟩
  · split at h
    · cases h
      exact ⟨.finished _, fun h => by cases h⟩
    · split at h
      · cases h
        exact ⟨.finished _, fun h => by cases h⟩
      · cases h

theorem record_deferred {input : WebhookInput} (hw : cfg.captureSettlement = true)
    (hk : kindToStatus input.kind = some .captured)
    (h : record cfg input env intent = .save saved k) :
    Kept intent saved ∧ k = .settling (.webhook input) 1 := by
  have hd : deferToCaptureSettlement cfg input = true := by
    simp [deferToCaptureSettlement, hk, hw]
  obtain ⟨⟨capabilities, hrun⟩, hpoint⟩ := record_received h
  rw [hd] at hpoint
  obtain ⟨_, hp, hs | ⟨hwalk, _⟩⟩ := receive_deferred hd hrun
  · exact ⟨⟨hp, fun h => Or.inl (hs.trans h), fun h => hs.trans h⟩, hpoint⟩
  · refine ⟨⟨hp, fun hs => ?_, fun hs => ?_⟩, hpoint⟩
    · rw [hs] at hwalk
      cases hwalk
    · rw [hs] at hwalk
      cases hwalk

theorem capture_answer (hp : InCapture k) (hb : (protocol cfg intentId).body k = some b)
    (h : b draw env intent = .answer k') : InCapture k' ∧ Relies cfg intent k' := by
  cases hp with
  | reserving => cases hb; exact reserve_answer h
  | settling attempt => cases hb; exact settle_answer (.settling attempt) h
  | webhook input attempt => cases hb; exact settle_answer (.webhook input attempt) h
  | recording => cases hb; exact record_answer h
  | calling | marking | finished => cases hb

theorem capture_save (hw : cfg.captureSettlement = true) (hp : InCapture k)
    (hb : (protocol cfg intentId).body k = some b) (h : b draw env intent = .save saved k') :
    Kept intent saved ∧ InCapture k' ∧ Relies cfg saved k' := by
  cases hp with
  | reserving attempt =>
    cases hb
    obtain ⟨_, hsame, hs, hne, capabilities, ref, hcap, hsettles, href, rfl⟩ :=
      reserve_save attempt h
    refine ⟨⟨hsame, fun _ => Or.inl hs, fun h => absurd h hne⟩, .calling ref, Or.inl hs, ?_, ref, ?_⟩
    · exact ⟨capabilities, hsame.provider.symm ▸ hcap, hsettles⟩
    · exact hsame.reference.trans href
  | settling attempt =>
    cases hb
    obtain ⟨_, hsame, hs, rfl⟩ := settle_save attempt h
    refine ⟨⟨hsame, fun _ => Or.inr hs, fun _ => hs⟩, settled_point (.settling 1) ?_⟩
    rintro status ⟨⟩
    exact ⟨rfl, hs⟩
  | webhook input attempt =>
    cases hb
    obtain ⟨_, hsame, hs, rfl⟩ := settle_save attempt h
    refine ⟨⟨hsame, fun _ => Or.inr hs, fun _ => hs⟩, settled_point (.webhook input 1) ?_⟩
    rintro status ⟨⟩
    exact ⟨rfl, hs⟩
  | recording hk =>
    cases hb
    obtain ⟨hkept, rfl⟩ := record_deferred hw hk h
    exact ⟨hkept, .webhook _ 1, trivial⟩
  | calling | marking | finished => cases hb

theorem capture_conflict (hp : InCapture k) (hr : Relies cfg intent k)
    (hb : (protocol cfg intentId).body k = some b) :
    InCapture ((protocol cfg intentId).conflict k) ∧
      Relies cfg intent ((protocol cfg intentId).conflict k) := by
  have hthrew : InCapture (.finished concurrencyError) ∧
      Relies cfg intent (.finished concurrencyError) := ⟨.finished _, fun h => by cases h⟩
  cases hp with
  | reserving attempt =>
    rcases withConcurrencyRetry_cases Point.finished attempt .reserving with h | h <;>
      simp only [protocol, h]
    · exact ⟨.reserving _, trivial⟩
    · exact hthrew
  | settling attempt =>
    rcases withConcurrencyRetry_cases Point.finished attempt (.settling .capture) with h | h <;>
      simp only [protocol, h]
    · exact ⟨.settling _, hr⟩
    · exact hthrew
  | webhook input attempt =>
    rcases withConcurrencyRetry_cases Point.finished attempt (.settling (.webhook input)) with h | h <;>
      simp only [protocol, h]
    · exact ⟨.webhook _ _, trivial⟩
    · exact hthrew
  | recording => exact hthrew
  | calling | marking | finished => cases hb

structure Invariant (cfg : Config) (intentId : String) (v : View PaymentIntent Point Env ι) :
    Prop where
  charges : ChargesFit v.value
  points : ∀ c k, v.points c = some k → InCapture k ∧ Relies cfg v.value k
  seen : ∀ key ∈ v.env.seen, key = captureKey intentId
  accepted : v.env.accepted ≠ [] → Capturable cfg v.value

theorem Invariant.pointed {c : ι} {x : Option Point} (h : Invariant cfg intentId v) (spent : Set ℕ)
    (hx : ∀ k, x = some k → InCapture k ∧ Relies cfg v.value k) :
    Invariant cfg intentId { v with spent := spent, points := Function.update v.points c x } where
  charges := h.charges
  points := points_update h.points hx
  seen := h.seen
  accepted := h.accepted

theorem Invariant.acted {c : ι} {move : ProviderMove} (h : Invariant cfg intentId v)
    (hc : v.points c = some k) (ha : (protocol cfg intentId).act k move v.env = some (k', env)) :
    Invariant cfg intentId
      { v with env := env, points := Function.update v.points c (some k') } := by
  obtain ⟨hp, hr⟩ := h.points c k hc
  have hmove : ∀ {k' : Point}, InCapture k' ∧ Relies cfg v.value k' → ∀ {env : Env},
      (∀ key ∈ env.seen, key = captureKey intentId) →
      (env.accepted ≠ [] → Capturable cfg v.value) → Invariant cfg intentId
        { v with env := env, points := Function.update v.points c (some k') } := by
    intro k' hk' env hseen hacc
    exact ⟨h.charges, points_update h.points (by rintro k ⟨⟩; exact hk'), hseen, hacc⟩
  have hseen : ∀ key ∈ v.env.seen ++ [captureKey intentId], key = captureKey intentId := by
    intro key hkey
    rcases List.mem_append.mp hkey with hkey | hkey
    · exact h.seen key hkey
    · exact List.mem_singleton.mp hkey
  cases hp with
  | calling ref =>
    cases move with
    | unavailable reason =>
      cases ha
      exact hmove ⟨.finished _, fun h => by cases h⟩ h.seen h.accepted
    | rejects reason =>
      simp only [protocol, callProvider] at ha
      split at ha
      · cases ha
      · cases ha
        exact hmove ⟨.finished _, fun h => by cases h⟩ hseen h.accepted
    | accepts =>
      cases ha
      exact hmove ⟨.settling 1, hr⟩ hseen fun _ => hr
  | marking input =>
    cases ha
    exact hmove ⟨.finished _, fun _ => hr⟩ h.seen h.accepted
  | reserving | settling | webhook | recording | finished => cases ha

theorem invariant_step (hw : cfg.captureSettlement = true) {w : View PaymentIntent Point Env ι}
    {e : Event ProviderMove ι} (h : Invariant cfg intentId v)
    (hst : AtomicStep (protocol cfg intentId) v e w) : Invariant cfg intentId w := by
  cases hst with
  | answer hc hb _ ho _ =>
    apply h.pointed _
    rintro k ⟨⟩
    exact capture_answer (h.points _ _ hc).1 hb ho
  | save hc hb _ ho _ =>
    obtain ⟨hp, _⟩ := h.points _ _ hc
    obtain ⟨hkept, hk'⟩ := capture_save hw hp hb ho
    have hbare : ∀ {k}, InCapture k → ¬ BarePoint cfg k := by
      intro k hk hbare
      cases hk with
      | recording hk => simp [BarePoint, deferToCaptureSettlement, hk, hw] at hbare
      | _ => exact hbare
    exact ⟨((body_save hb ho).chargesFit_iff h.charges).1 fun hb => hbare hp hb.1,
      points_update (fun c k hk => ⟨(h.points c k hk).1, hkept.relies (h.points c k hk).2⟩)
        (by rintro k ⟨⟩; exact hk'), h.seen, fun ha => hkept.capturable (h.accepted ha)⟩
  | conflict hc hb _ =>
    obtain ⟨hp, hr⟩ := h.points _ _ hc
    apply h.pointed _
    rintro k ⟨⟩
    exact capture_conflict hp hr hb
  | act hc ha => exact h.acted hc ha
  | crash _ => exact h.pointed _ (by rintro k ⟨⟩)
  | idle => exact h

section Recovery

variable (intentId) {s : State PaymentIntent Point Env ι} {c : ι}

def ToldCaptured (s : State PaymentIntent Point Env ι) (c : ι) : Prop :=
  s.calls c = .ready (.finished (.ok .captured))

theorem settle_alone {settler : Settler} (hids : ∀ draw, isBlank (cfg.ids draw) = false)
    (hc : s.calls c = .ready (.settling settler 1)) (hs : Capturable cfg s.row.value) :
    ∃ u, Alone (protocol cfg intentId) c s u ∧
      u.calls c = .ready (afterSettle settler (.ok .captured)) := by
  by_cases hcap : s.row.value.status = .captured
  · obtain ⟨u, hu, _, _, hk⟩ := Alone.answer (P := protocol cfg intentId)
      (q := afterSettle settler (.ok .captured)) hc rfl (by simp [settle, hcap])
    exact ⟨u, hu, hk⟩
  · have hreq : s.row.value.status = .captureRequested := hs.underway.resolve_right hcap
    obtain ⟨capabilities, hp, _⟩ := hs.provider
    rcases markCaptured_result s.row.value (cfg.ids s.draws) with
      ⟨hb, _⟩ | ⟨id, token, _, ⟨hno, _⟩ | ⟨_, hok⟩⟩
    · simp [hids] at hb
    · rw [hreq] at hno
      cases hno
    · obtain ⟨saved, hrun, hsaved⟩ : ∃ saved, markCaptured (cfg.ids s.draws) s.row.value =
          .ok () saved ∧ saved.status = .captured := ⟨_, hok, rfl⟩
      obtain ⟨u, hu, _, _, hk⟩ := Alone.save (P := protocol cfg intentId) (a := saved)
        (q := afterSettle settler (.ok .captured)) hc rfl
        (by simp [settle, hreq, capabilitiesOrRefusal, hp, hrun, hsaved])
      exact ⟨u, hu, hk⟩

theorem capture_alone (hids : ∀ draw, isBlank (cfg.ids draw) = false)
    (hc : s.calls c = .ready (.reserving 1)) (hs : Capturable cfg s.row.value) :
    ∃ u, Alone (protocol cfg intentId) c s u ∧ ToldCaptured u c := by
  obtain ⟨capabilities, hp, hsettles⟩ := hs.provider
  obtain ⟨ref, href⟩ := hs.reference
  by_cases hcap : s.row.value.status = .captured
  · obtain ⟨u, hu, _, _, hk⟩ := Alone.answer (P := protocol cfg intentId)
      (q := .finished (.ok .captured)) hc rfl
      (by simp [reserve, capabilitiesOrRefusal, hp, hsettles, href, hcap])
    exact ⟨u, hu, hk⟩
  · have hreq : s.row.value.status = .captureRequested := hs.underway.resolve_right hcap
    obtain ⟨t, ht, hrow, _, hk⟩ := Alone.answer (P := protocol cfg intentId)
      (q := .calling ref) hc rfl
      (by simp [reserve, capabilitiesOrRefusal, hp, hsettles, href, hreq])
    obtain ⟨t', ht', hrow', _, hk'⟩ := Alone.act (P := protocol cfg intentId)
      (q := .settling .capture 1) (w := .accepts) hk rfl
    obtain ⟨u, hu, hk''⟩ := settle_alone intentId hids hk'
      (by rw [hrow', hrow]; exact hs)
    exact ⟨u, (ht.trans ht').trans hu, hk''⟩

/-- The event is not yet processed, and the webhook passes the checks on its provider, amount
and currency. -/
structure Delivers (cfg : Config) (input : WebhookInput) (env : Env) (intent : PaymentIntent) :
    Prop where
  kind : kindToStatus input.kind = some .captured
  unprocessed : (input.provider, input.eventId) ∉ env.processed
  checked : ∃ capabilities, webhookCapabilities cfg input intent = .ok capabilities

theorem webhook_alone (hw : cfg.captureSettlement = true)
    (hids : ∀ draw, isBlank (cfg.ids draw) = false) {input : WebhookInput}
    (hc : s.calls c = .ready (.recording input)) (hs : Capturable cfg s.row.value)
    (hd : Delivers cfg input s.env s.row.value) :
    ∃ u, Alone (protocol cfg intentId) c s u ∧ ToldCaptured u c := by
  obtain ⟨capabilities, hcheck⟩ := hd.checked
  have hdefer : deferToCaptureSettlement cfg input = true := by
    simp [deferToCaptureSettlement, hd.kind, hw]
  have hreceive : ∃ saved, receive cfg input capabilities s.row.value = .ok () saved := by
    cases hsettles : capabilities.settlesAtPayTime with
    | false => exact ⟨s.row.value, by simp [receive, hdefer, hd.kind, hsettles]⟩
    | true =>
      obtain ⟨q, _, ⟨_, hok⟩ | ⟨_, hok⟩ | ⟨_, h1, h2, _⟩⟩ :=
        prepareDirectCapture_result s.row.value input.providerTransactionRef
      · exact ⟨q, by simp [receive, hdefer, hd.kind, hsettles, hok]⟩
      · exact ⟨_, by simp [receive, hdefer, hd.kind, hsettles, hok]; rfl⟩
      · exact absurd hs.underway (by simp [h1, h2])
  obtain ⟨saved, hrun⟩ := hreceive
  have hrecord : record cfg input s.env s.row.value = .save saved (.settling (.webhook input) 1) := by
    simp [record, hd.unprocessed, hcheck, hrun, hdefer]
  obtain ⟨hkept, _⟩ := record_deferred hw hd.kind hrecord
  obtain ⟨t, ht, hrow, _, hk⟩ := Alone.save (P := protocol cfg intentId) hc rfl hrecord
  obtain ⟨t', ht', hk'⟩ := settle_alone intentId hids hk
    (by rw [hrow]; exact hkept.capturable hs)
  obtain ⟨u, hu, _, _, hk''⟩ := Alone.act (P := protocol cfg intentId)
    (q := .finished (.ok .captured)) (w := .accepts) hk' rfl
  exact ⟨u, (ht.trans ht').trans hu, hk''⟩

end Recovery

inductive BeginsCapture : Point → Prop where
  | capture : BeginsCapture (.reserving 1)
  | webhook {input} : kindToStatus input.kind = some .captured →
      BeginsCapture (executeWebhook input)

/-- Any number of calls are about to begin on an intent with the charges that its status asks
for, of which the provider has seen no capture. -/
structure StartCapture (s : State PaymentIntent Point Env ι) : Prop where
  charges : ChargesFit s.row.value
  calls : ∀ c, ∃ k, BeginsCapture k ∧ s.calls c = .ready k
  seen : s.env.seen = []
  accepted : s.env.accepted = []

/-- What the protocol promises in a state. A later retry or webhook is one that begins in it, in
the place of any call. -/
structure CaptureSafe (cfg : Config) (intentId : String) (s : State PaymentIntent Point Env ι) :
    Prop where
  oneKey : ∀ key ∈ s.env.seen, key = captureKey intentId
  oneCharge : s.row.value.charges.length ≤ 1
  told : ∀ c, ToldCaptured s c →
    s.row.value.status = .captured ∧ s.row.value.charges.length = 1
  retry : captureKey intentId ∈ s.env.accepted → ∀ c,
    ∃ u, Alone (protocol cfg intentId) c (s.setCall c (.ready (.reserving 1))) u ∧
      ToldCaptured u c ∧ u.row.value.status = .captured ∧ u.row.value.charges.length = 1
  webhook : captureKey intentId ∈ s.env.accepted → ∀ c input,
    Delivers cfg input s.env s.row.value →
    ∃ u, Alone (protocol cfg intentId) c (s.setCall c (.ready (.recording input))) u ∧
      ToldCaptured u c ∧ u.row.value.status = .captured ∧ u.row.value.charges.length = 1

omit [DecidableEq ι] in
theorem StartCapture.invariant {s : State PaymentIntent Point Env ι} (h : StartCapture s) :
    Invariant cfg intentId (view s) where
  charges := h.charges
  points c k hk := by
    obtain ⟨k', hb, hc⟩ := h.calls c
    rw [point_ready hc] at hk
    cases hk
    cases hb with
    | capture => exact ⟨.reserving 1, trivial⟩
    | @webhook input hkind =>
      rw [executeWebhook]
      split
      · exact ⟨.finished _, fun h => by cases h⟩
      · split
        · exact ⟨.finished _, fun h => by cases h⟩
        · exact ⟨.recording hkind, trivial⟩
  seen key hkey := by
    have hkey : key ∈ s.env.seen := hkey
    rw [h.seen] at hkey
    cases hkey
  accepted ha := absurd h.accepted ha

theorem reachable_invariant (hw : cfg.captureSettlement = true)
    {s : State PaymentIntent Point Env ι}
    (h : Reachable StartCapture (OptimisticTransactions.Step (protocol cfg intentId)) s) :
    Coherent (protocol cfg intentId) s ∧ Invariant cfg intentId (view s) := by
  refine reachable_view ?_ (fun s hs => hs.invariant)
    (fun v e w hv hst => invariant_step hw hv hst) h
  intro s hs c k d v new k' hc
  obtain ⟨_, _, hk⟩ := hs.calls c
  rw [hk] at hc
  cases hc

omit [DecidableEq ι] in
theorem told_captured {s : State PaymentIntent Point Env ι} {c : ι}
    (hi : Invariant cfg intentId (view s)) (ht : ToldCaptured s c) :
    s.row.value.status = .captured ∧ s.row.value.charges.length = 1 := by
  have hs : s.row.value.status = .captured := (hi.points c _ (point_ready ht)).2 rfl
  have hc : chargesFit s.row.value.status s.row.value.charges.length := hi.charges
  rw [hs] at hc
  exact ⟨hs, hc⟩

theorem Invariant.begins {s : State PaymentIntent Point Env ι} (h : Invariant cfg intentId (view s))
    (c : ι) (hk : InCapture k ∧ Relies cfg s.row.value k) :
    Invariant cfg intentId (view (s.setCall c (.ready k))) := by
  rw [view_of_calls (u := s.setCall c (.ready k)) (x := .ready k) rfl]
  refine h.pointed (v := view s) _ ?_
  rintro k' ⟨⟩
  exact hk

/-- In every reachable state the provider has seen one capture key, at most one charge is
recorded, whoever was told `captured` finds the intent captured with its charge, and an
accepted capture is recorded by any later retry or webhook that is left to run. -/
theorem reachable_captureSafe (hw : cfg.captureSettlement = true)
    (hids : ∀ draw, isBlank (cfg.ids draw) = false) {s : State PaymentIntent Point Env ι}
    (h : Reachable StartCapture (OptimisticTransactions.Step (protocol cfg intentId)) s) :
    CaptureSafe cfg intentId s := by
  obtain ⟨hc, hi⟩ := reachable_invariant hw h
  have step : ∀ (v : View PaymentIntent Point Env ι) e w, Invariant cfg intentId v →
      AtomicStep (protocol cfg intentId) v e w → Invariant cfg intentId w :=
    fun _ _ _ hv hst => invariant_step hw hv hst
  refine ⟨hi.seen, hi.charges.oneCharge.atMostOne, fun c ht => told_captured hi ht, ?_, ?_⟩
  · intro ha c
    have hs := hi.accepted (List.ne_nil_of_mem ha)
    obtain ⟨u, hu, ht⟩ := capture_alone intentId (c := c)
      (s := s.setCall c (.ready (.reserving 1))) hids (by simp) hs
    have hb := hi.begins c ⟨.reserving 1, trivial⟩
    exact ⟨u, hu, ht, told_captured (hu.view_invariant step (hc.replace c _) hb) ht⟩
  · intro ha c input hd
    have hs := hi.accepted (List.ne_nil_of_mem ha)
    obtain ⟨u, hu, ht⟩ := webhook_alone intentId (c := c)
      (s := s.setCall c (.ready (.recording input))) hw hids (by simp) hs hd
    have hb := hi.begins c ⟨.recording hd.kind, trivial⟩
    exact ⟨u, hu, ht, told_captured (hu.view_invariant step (hc.replace c _) hb) ht⟩

/-! A capture that crashes once the provider has accepted it. -/

def authorizedIntent : PaymentIntent :=
  { createIntent sampleId (usd 100) "stripe" with
    status := .authorized
    pspReference := some sampleReference
    authorizedAmount := some (usd 100) }

def crashedCapture : List (Label ProviderMove (Fin 2)) :=
  [.read 0, .write 0, .act 0 .accepts, .crash 0]

def twoCaptures : State PaymentIntent Point Env (Fin 2) :=
  stateOf authorizedIntent fun _ => .reserving 1

theorem sampleConfig_ids (draw : ℕ) : isBlank (sampleConfig.ids draw) = false := by
  simp [sampleConfig, isBlank, List.replicate_succ, isWhitespace]

theorem reachable_captureSafe_crashed : CaptureSafe sampleConfig "pi-1"
    (lastState twoCaptures (play (protocol sampleConfig "pi-1") twoCaptures crashedCapture)) := by
  refine reachable_captureSafe rfl sampleConfig_ids (Run.reachable (.start ?_) (run_play _ _ _))
  exact ⟨rfl, fun c => ⟨_, .capture, rfl⟩, rfl, rfl⟩

end PaymentsCaptureProtocol
