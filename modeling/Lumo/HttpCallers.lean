import Lumo.HttpReplays

/-! # A request alone under its key

What a request is answered depends on the others only through the claim and the snapshot of its own
key. With no other request under the key, nothing is replayed to it. -/
namespace Http

open Builtins Interleavings LabelledRuns

variable {β ι : Type} {deps : HttpServerDeps} {s s' : Stores β} {k k' : Point β}
  {choice : Choice β} {key : String}

def Point.admission? : Point β → Option Admission
  | .arriving _ _ => none
  | .looking admission _ => some admission
  | .claiming admission _ => some admission
  | .handling admission _ => some admission
  | .storing admission _ _ => some admission
  | .releasing admission _ _ _ => some admission
  | .answered admission _ => admission

def Point.cacheKey? (k : Point β) : Option String := k.admission?.bind Admission.cacheKey

theorem Turned.admission (h : Turned deps s k choice k' s') {admission : Admission}
    (hk : k.admission? = some admission) : k'.admission? = some admission := by
  cases h <;> first | exact hk | cases hk

def Point.Placed : Point β → Prop
  | .arriving _ _ => True
  | .looking admission key => admission.cacheKey = some key
  | .claiming admission key => admission.cacheKey = some key
  | .handling admission claim => admission.cacheKey = claim.map (·.key)
  | .storing admission claim _ => admission.cacheKey = some claim.key
  | .releasing admission claim _ _ => admission.cacheKey = some claim.key
  | .answered _ _ => True

theorem Relies.placed (h : Relies s k) : k.Placed := by
  unfold Relies at h
  split at h
  · trivial
  · exact h
  · exact h
  · exact h
  · exact h.1
  · exact h
  · trivial
  · trivial

/-- What the request and the request alone see alike: the claim and the snapshot of the key, and
that no token is drawn again. -/
structure SameView (key : String) (s a : Stores β) : Prop where
  claims : s.claims key = a.claims key
  responses : s.responses key = a.responses key
  tokens : ∀ token ∈ a.tokens, token ∈ s.tokens

namespace SameView

variable {a : Stores β} {token : String} {snapshot : ReplaySnapshot β} {held : IdempotencyClaim}

theorem claim (h : SameView key s a) : SameView key (s.claim key token) (a.claim key token) := by
  constructor
  · rw [claim_claims, claim_claims, Function.update_self, Function.update_self]
  · exact h.responses
  · intro drawn hdrawn
    rcases List.mem_cons.mp hdrawn with rfl | hdrawn
    · exact List.mem_cons_self
    · exact List.mem_cons_of_mem _ (h.tokens drawn hdrawn)

theorem save (h : SameView key s a) : SameView key (s.save key snapshot) (a.save key snapshot) := by
  refine ⟨h.claims, ?_, h.tokens⟩
  rw [save_responses, save_responses, Function.update_self, Function.update_self]

theorem release (h : SameView held.key s a) :
    SameView held.key (s.release held) (a.release held) := by
  rw [Stores.release, Stores.release, h.claims]
  split
  · refine ⟨?_, h.responses, h.tokens⟩
    change Function.update s.claims held.key none held.key =
      Function.update a.claims held.key none held.key
    rw [Function.update_self, Function.update_self]
  · exact h

theorem commit (h : SameView key s a) (commit : Commit β) :
    SameView key (s.commit commit) (a.commit commit) :=
  ⟨h.claims, h.responses, h.tokens⟩

theorem claim_other {other : String} (h : SameView key s a) (hother : other ≠ key) :
    SameView key (s.claim other token) a := by
  refine ⟨?_, h.responses, fun drawn hdrawn => List.mem_cons_of_mem _ (h.tokens drawn hdrawn)⟩
  rw [claim_claims, Function.update_of_ne hother.symm]
  exact h.claims

theorem save_other {other : String} (h : SameView key s a) (hother : other ≠ key) :
    SameView key (s.save other snapshot) a := by
  refine ⟨h.claims, ?_, h.tokens⟩
  rw [save_responses, Function.update_of_ne hother.symm]
  exact h.responses

theorem release_other (h : SameView key s a) (hother : held.key ≠ key) :
    SameView key (s.release held) a := by
  rw [Stores.release]
  split
  · exact ⟨(Function.update_of_ne hother.symm _ _).trans h.claims, h.responses, h.tokens⟩
  · exact h

theorem other (h : SameView key s a) (hk : k.Placed) (hother : k'.cacheKey? ≠ some key)
    (hturned : Turned deps s k choice k' s') : SameView key s' a := by
  have hne : ∀ admission own, k'.admission? = some admission →
      admission.cacheKey = some own → own ≠ key := by
    intro admission own hadmission hown heq
    subst heq
    rw [Point.cacheKey?, hadmission] at hother
    exact hother hown
  cases hturned with
  | claim | claimLost => exact h.claim_other (hne _ _ rfl hk)
  | returns | returnsPlain => exact ⟨h.claims, h.responses, h.tokens⟩
  | store | storeLost => exact h.save_other (hne _ _ rfl hk)
  | release => exact h.release_other (hne _ _ rfl hk)
  | _ => exact h

variable {admission : Admission} {call : Call}

theorem claimTurn (h : SameView key s a)
    (hturn : Http.claimTurn admission key token call s = some (k', s')) :
    ∃ a', Http.claimTurn admission key token call a = some (k', a') ∧ SameView key s' a' := by
  unfold Http.claimTurn at hturn ⊢
  split at hturn
  · cases hturn
  · rename_i hfresh
    rw [if_neg fun hmem => hfresh (h.tokens token hmem), ← h.claims]
    split at hturn <;> cases hturn
    · exact ⟨a, rfl, h⟩
    · exact ⟨a, rfl, h⟩
    · exact ⟨_, rfl, h.claim⟩
    · exact ⟨_, rfl, h.claim⟩
    · exact ⟨a, rfl, h⟩

theorem storeTurn {response : TransportResponse β} (h : SameView held.key s a)
    (hturn : Http.storeTurn admission held response call s = (k', s')) :
    ∃ a', Http.storeTurn admission held response call a = (k', a') ∧ SameView held.key s' a' := by
  cases call <;> cases hturn
  · exact ⟨_, rfl, h.save⟩
  · exact ⟨_, rfl, h.save⟩
  · exact ⟨a, rfl, h⟩

theorem releaseTurn {error : Thrown} (h : SameView held.key s a)
    (hturn : Http.releaseTurn admission held error call s = (k', s')) :
    ∃ a', Http.releaseTurn admission held error call a = (k', a') ∧ SameView held.key s' a' := by
  cases call <;> cases hturn
  · exact ⟨_, rfl, h.release⟩
  · exact ⟨_, rfl, h.release⟩
  · exact ⟨a, rfl, h⟩

/-- A turn of the request itself does the same in the one view as in the other. -/
theorem own (h : SameView key s a) (hk : k.Placed)
    (hown : ∀ own, k'.cacheKey? = some own → own = key)
    (hturn : executeRoute deps k choice s = some (k', s')) :
    ∃ a', executeRoute deps k choice a = some (k', a') ∧ SameView key s' a' := by
  have hkey : ∀ admission own, k.admission? = some admission → admission.cacheKey = some own →
      own = key := by
    intro admission own hadmission hcache
    refine hown own ?_
    rw [Point.cacheKey?, (executeRoute_turned hturn).admission hadmission]
    exact hcache
  unfold executeRoute at hturn ⊢
  split at hturn
  · split at hturn
    · cases hturn
      exact ⟨a, rfl, h⟩
    · split at hturn <;> cases hturn
      · exact ⟨a, rfl, h⟩
      · exact ⟨a, rfl, h⟩
  · rename_i admission own call
    obtain rfl := hkey admission own rfl hk
    simp only [← h.responses]
    split at hturn <;> cases hturn
    · exact ⟨a, rfl, h⟩
    · exact ⟨a, rfl, h⟩
    · exact ⟨a, rfl, h⟩
    · exact ⟨a, rfl, h⟩
  · rename_i admission own token call
    obtain rfl := hkey admission own rfl hk
    exact h.claimTurn hturn
  · cases hturn
    exact ⟨_, rfl, h.commit _⟩
  · cases hturn
    exact ⟨_, rfl, h.commit _⟩
  · cases hturn
    exact ⟨a, rfl, h⟩
  · cases hturn
    exact ⟨a, rfl, h⟩
  · rename_i admission claim response call
    obtain rfl := hkey admission claim.key rfl hk
    obtain ⟨a', ha, hview⟩ := h.storeTurn (Option.some.inj hturn)
    exact ⟨a', congrArg some ha, hview⟩
  · rename_i admission claim cause error call
    obtain rfl := hkey admission claim.key rfl hk
    obtain ⟨a', ha, hview⟩ := h.releaseTurn (Option.some.inj hturn)
    exact ⟨a', congrArg some ha, hview⟩
  · cases hturn

end SameView

/-- Nothing is claimed, stored or committed. -/
def Stores.empty : Stores β := ⟨fun _ => none, [], fun _ => none, []⟩

/-- The answer comes neither from the claim nor from the snapshot of another request. -/
def Answer.Own : Answer β → Prop
  | inFlight => False
  | replayed _ => False
  | _ => True

def Unshared (a : Stores β) : Point β → Prop
  | .arriving _ _ => ∀ key, a.claims key = none ∧ a.responses key = none
  | .looking _ key => a.claims key = none ∧ a.responses key = none
  | .claiming _ key => a.claims key = none ∧ a.responses key = none
  | .answered _ answer => answer.Own
  | _ => True

section Refusals

variable {ports : Ports β} {route : RouteDefinition} {request : Request} {answer : Answer β}

theorem limitRequest_own {principal : Principal}
    (h : limitRequest deps ports route request principal = .error answer) : answer.Own := by
  unfold limitRequest at h
  split at h
  · cases h
    trivial
  · split at h
    · split at h <;> cases h
      trivial
    · cases h
      trivial

theorem guardRequest_own {context : AuthenticatedContext} {tenantId : String}
    (h : guardRequest deps ports route request context tenantId = .error answer) : answer.Own := by
  unfold guardRequest at h
  split at h
  · cases h
    trivial
  · simp only at h
    split at h
    · cases h
      trivial
    · cases h
      trivial
    · exact limitRequest_own h

theorem admitRequest_own (h : admitRequest deps ports route request = .error answer) :
    answer.Own := by
  unfold admitRequest at h
  split at h
  · cases h
    trivial
  · split at h
    · cases h
      trivial
    · exact guardRequest_own h

end Refusals

theorem Unshared.turned (hk : Unshared s k) (h : Turned deps s k choice k' s') :
    Unshared s' k' := by
  cases h with
  | look => exact hk _
  | replay hstored =>
    rw [hk.2] at hstored
    cases hstored
  | miss => exact hk
  | inFlight hclaimed => exact hclaimed hk.1
  | refuse hrefused => exact admitRequest_own hrefused
  | _ => trivial

section Runs

variable [DecidableEq ι] {c : ι} {s₀ : State (Stores β) (Point β) ι}
  {tr : List (Label (Choice β) ι × State (Stores β) (Point β) ι)}

/-- No other request stands under the key of this one. -/
def OnlyUnder (c : ι) (s : State (Stores β) (Point β) ι) : Prop :=
  ∀ key, (s.processes c).point.cacheKey? = some key →
    ∀ d, d ≠ c → (s.processes d).point.cacheKey? ≠ some key

theorem admission_before {s u : State (Stores β) (Point β) ι} {l : Label (Choice β) ι}
    (hst : Step (executeRoute deps) s l u) (d : ι) {admission : Admission}
    (h : (s.processes d).point.admission? = some admission) :
    (u.processes d).point.admission? = some admission := by
  cases step_move hst with
  | @turn e k choice k' shared he hk =>
    by_cases hde : d = e
    · subst hde
      rw [he] at h
      rw [set_processes_self]
      exact (executeRoute_turned hk).admission h
    · rw [set_processes_of_ne s hde]
      exact h
  | @crash e k he =>
    rw [crashed_point s he]
    exact h

theorem plain_turn {s' : Stores β} (hk : k.Placed) (hplain : k'.cacheKey? = none)
    (hturn : executeRoute deps k choice s = some (k', s')) (a : Stores β) :
    ∃ a', executeRoute deps k choice a = some (k', a') := by
  have hnone : ∀ admission key, k.admission? = some admission →
      admission.cacheKey ≠ some key := by
    intro admission key hadmission hkey
    have hlater := (executeRoute_turned hturn).admission hadmission
    rw [Point.cacheKey?, hlater, Option.bind_some, hkey] at hplain
    cases hplain
  unfold executeRoute at hturn ⊢
  split at hturn
  · split at hturn
    · cases hturn
      exact ⟨a, rfl⟩
    · split at hturn <;> cases hturn <;> exact ⟨a, rfl⟩
  · exact absurd hk (hnone _ _ rfl)
  · exact absurd hk (hnone _ _ rfl)
  · exact absurd hk (hnone _ _ rfl)
  · cases hturn
    exact ⟨_, rfl⟩
  · exact absurd hk (hnone _ _ rfl)
  · cases hturn
    exact ⟨a, rfl⟩
  · exact absurd hk (hnone _ _ rfl)
  · exact absurd hk (hnone _ _ rfl)
  · cases hturn

/-- What a request comes to under a key that no other request stands under is what it comes to by
itself. -/
theorem point_alone (hs : Start s₀) (hr : Run (Step (executeRoute deps)) s₀ tr)
    (halone : OnlyUnder c (lastState s₀ tr)) :
    ∃ a, solo (executeRoute deps) (s₀.processes c).point Stores.empty (ownTurns c tr) =
      some (((lastState s₀ tr).processes c).point, a) := by
  have hplaced : Always (fun u => ∀ d, (u.processes d).point.Placed) s₀ tr := by
    have hrelied : Always (Holds Truthful Relies) s₀ tr :=
      always_of_invariant (fun _ _ _ h hst => h.step (executeRoute_keeps deps) hst) hs.relied hr
    exact hrelied.mono fun u h d => (h.points d).placed
  have hbefore : ∀ {s u : State (Stores β) (Point β) ι} {l : Label (Choice β) ι},
      Step (executeRoute deps) s l u → ∀ d key, (s.processes d).point.cacheKey? = some key →
        (u.processes d).point.cacheKey? = some key := by
    intro s u l hst d key hkey
    obtain ⟨admission, hadmission, hown⟩ := Option.bind_eq_some_iff.mp hkey
    rw [Point.cacheKey?, admission_before hst d hadmission]
    exact hown
  cases hkey : ((lastState s₀ tr).processes c).point.cacheKey? with
  | none =>
    have hplain : Always (fun u => (u.processes c).point.cacheKey? = none) s₀ tr := by
      refine always_of_last (fun s l u hst hu => ?_) hr hkey
      by_contra hsome
      obtain ⟨key, hkey⟩ := Option.ne_none_iff_exists'.mp hsome
      rw [hbefore hst c key hkey] at hu
      cases hu
    have hpoints := (hplaced.and hplain).mono fun u h =>
      (⟨⟨h.1 c, h.2⟩, fun _ _ => trivial⟩ :
        ((u.processes c).point.Placed ∧ (u.processes c).point.cacheKey? = none) ∧
          ∀ d, d ≠ c → True)
    obtain ⟨a, hsolo, _⟩ := solo_of_run (P := executeRoute deps) (fun _ _ => True)
      (fun k => k.Placed ∧ k.cacheKey? = none) (fun _ => True)
      (fun s a k choice k' s' _ hk hk' hturn =>
        (plain_turn hk.1 hk'.2 hturn a).imp fun _ ha => ⟨ha, trivial⟩)
      (fun _ _ _ _ _ _ _ _ _ _ => trivial) (b := Stores.empty) hr hpoints trivial
    exact ⟨a, hsolo⟩
  | some key =>
    have hkeys : Always (fun u => (∀ own, (u.processes c).point.cacheKey? = some own → own = key) ∧
        ∀ d, d ≠ c → (u.processes d).point.cacheKey? ≠ some key) s₀ tr := by
      apply always_of_last _ hr
      · exact ⟨fun own hown => Option.some.inj (hown.symm.trans hkey), halone key hkey⟩
      · intro s l u hst hu
        refine ⟨fun own hown => hu.1 own (hbefore hst c own hown), fun d hd hdkey => ?_⟩
        exact hu.2 d hd (hbefore hst d key hdkey)
    have hpoints := (hplaced.and hkeys).mono fun u h =>
      (⟨⟨h.1 c, h.2.1⟩, fun d hd => ⟨h.1 d, h.2.2 d hd⟩⟩ :
        ((u.processes c).point.Placed ∧
          ∀ own, (u.processes c).point.cacheKey? = some own → own = key) ∧
          ∀ d, d ≠ c → (u.processes d).point.Placed ∧ (u.processes d).point.cacheKey? ≠ some key)
    have hempty : SameView key s₀.shared Stores.empty :=
      ⟨hs.unclaimed key, hs.unstored key, fun _ htoken => absurd htoken List.not_mem_nil⟩
    obtain ⟨a, hsolo, _⟩ := solo_of_run (P := executeRoute deps) (SameView key)
      (fun k => k.Placed ∧ ∀ own, k.cacheKey? = some own → own = key)
      (fun k => k.Placed ∧ k.cacheKey? ≠ some key)
      (fun s a k choice k' s' hview hk hk' hturn => hview.own hk.1 hk'.2 hturn)
      (fun s a k choice k' s' hview hk hk' hturn =>
        hview.other hk.1 hk'.2 (executeRoute_turned hturn)) hr hpoints hempty
    exact ⟨a, hsolo⟩

theorem own_answer (hs : Start s₀) (hr : Run (Step (executeRoute deps)) s₀ tr)
    (halone : OnlyUnder c (lastState s₀ tr)) {admission : Option Admission} {answer : Answer β}
    (hanswer : ((lastState s₀ tr).processes c).point = .answered admission answer) :
    answer.Own := by
  obtain ⟨a, hsolo⟩ := point_alone hs hr halone
  obtain ⟨route, request, hc⟩ := hs.arriving c
  have hunshared : Unshared a ((lastState s₀ tr).processes c).point := by
    refine solo_invariant (J := Unshared) ?_ ?_ hsolo
    · exact fun _ _ _ _ _ hk hturn => hk.turned (executeRoute_turned hturn)
    · rw [hc]
      exact fun _ => ⟨rfl, rfl⟩
  rw [hanswer] at hunshared
  exact hunshared

end Runs

theorem separated_inj {l l' rest rest' : List Char} (h : ':' ∉ l) (h' : ':' ∉ l')
    (heq : l ++ ':' :: rest = l' ++ ':' :: rest') : l = l' ∧ rest = rest' := by
  induction l generalizing l' with
  | nil =>
    cases l' with
    | nil => exact ⟨rfl, (List.cons.inj heq).2⟩
    | cons first tail =>
      exact absurd ((List.cons.inj heq).1 ▸ List.mem_cons_self) h'
  | cons first tail ih =>
    cases l' with
    | nil => exact absurd ((List.cons.inj heq).1 ▸ List.mem_cons_self) h
    | cons first' tail' =>
      obtain ⟨hfirst, htail⟩ := List.cons.inj heq
      have hlater := ih (fun hmem => h (List.mem_cons_of_mem _ hmem))
        (fun hmem => h' (List.mem_cons_of_mem _ hmem)) htail
      exact ⟨by rw [hfirst, hlater.1], hlater.2⟩

theorem cacheKey_some {a : Admission} {key : String} (h : a.cacheKey = some key) :
    ∃ header, a.idempotencyKey = some header ∧
      key.toList = "tenant:".toList ++ (a.principal.tenantId.toList ++
        ':' :: ("idem:".toList ++ header.toList)) := by
  rw [Admission.cacheKey] at h
  split at h
  · obtain ⟨header, hheader, rfl⟩ := Option.map_eq_some_iff.mp h
    refine ⟨header, hheader, ?_⟩
    simp [String.toList_append]
  · cases h

theorem cacheKey_inj {a b : Admission} (ha : a.cacheKey ≠ none) (hsame : b.cacheKey = a.cacheKey)
    (hcolon : ':' ∉ a.principal.tenantId.toList) (hcolon' : ':' ∉ b.principal.tenantId.toList) :
    b.principal.tenantId = a.principal.tenantId ∧ b.idempotencyKey = a.idempotencyKey := by
  obtain ⟨key, ha⟩ := Option.ne_none_iff_exists'.mp ha
  obtain ⟨header, hheader, hlist⟩ := cacheKey_some ha
  obtain ⟨header', hheader', hlist'⟩ := cacheKey_some (hsame.trans ha)
  rw [hlist'] at hlist
  obtain ⟨htenant, hrest⟩ := separated_inj hcolon' hcolon (List.append_cancel_left hlist)
  have hsame : header' = header := String.toList_inj.mp (List.append_cancel_left hrest)
  rw [hheader, hheader', hsame]
  exact ⟨String.toList_inj.mp htenant, rfl⟩

/-- What a request is answered, for every two runs and every replay. A request that no other stands
under its key with is answered alike in two runs in which the ports, its handler and the stores do
the same for it, whatever the others do, and neither from their snapshots nor from their claims.
What is replayed was committed under the same key; by a request of the same tenant with the same
header, when tenants have no colon. -/
theorem replays_scoped [DecidableEq ι] (deps : HttpServerDeps) :
    (∀ (c : ι) (s₁ s₂ : State (Stores β) (Point β) ι)
        (tr₁ tr₂ : List (Label (Choice β) ι × State (Stores β) (Point β) ι)),
        Start s₁ → Start s₂ → Run (Step (executeRoute deps)) s₁ tr₁ →
        Run (Step (executeRoute deps)) s₂ tr₂ → s₁.processes c = s₂.processes c →
        ownTurns c tr₁ = ownTurns c tr₂ → OnlyUnder c (lastState s₁ tr₁) →
        OnlyUnder c (lastState s₂ tr₂) →
        ((lastState s₁ tr₁).processes c).point = ((lastState s₂ tr₂).processes c).point ∧
          ∀ admission answer,
            ((lastState s₁ tr₁).processes c).point = .answered admission answer →
              answer.Own) ∧
      ∀ (s : State (Stores β) (Point β) ι)
        (tr : List (Label (Choice β) ι × State (Stores β) (Point β) ι)),
        Start s → Run (Step (executeRoute deps)) s tr →
        ∀ c admission snapshot,
          ((lastState s tr).processes c).point = .answered (some admission) (.replayed snapshot) →
          ∃ commit ∈ (lastState s tr).shared.committed, commit.snapshot = snapshot ∧
            commit.admission.cacheKey = admission.cacheKey ∧
            (':' ∉ admission.principal.tenantId.toList →
              ':' ∉ commit.admission.principal.tenantId.toList →
              commit.admission.principal.tenantId = admission.principal.tenantId ∧
                commit.admission.idempotencyKey = admission.idempotencyKey) := by
  constructor
  · intro c s₁ s₂ tr₁ tr₂ hs₁ hs₂ hr₁ hr₂ hc hturns halone₁ halone₂
    obtain ⟨a₁, hsolo₁⟩ := point_alone hs₁ hr₁ halone₁
    obtain ⟨a₂, hsolo₂⟩ := point_alone hs₂ hr₂ halone₂
    rw [hc, hturns, hsolo₂] at hsolo₁
    refine ⟨(congrArg Prod.fst (Option.some.inj hsolo₁)).symm, fun admission answer hanswer => ?_⟩
    exact own_answer hs₁ hr₁ halone₁ hanswer
  · intro s tr hs hr c admission snapshot hc
    have hlast : Holds Truthful Relies (lastState s tr) :=
      (always_of_invariant (fun _ _ _ h hst => h.step (executeRoute_keeps deps) hst) hs.relied
        hr).last
    have hrelies := hlast.points c
    rw [hc] at hrelies
    have hkey := hrelies.2 snapshot rfl
    obtain ⟨key, hadmission⟩ := Option.ne_none_iff_exists'.mp hkey
    obtain ⟨commit, hcommit, hsnapshot⟩ := hrelies.1 key snapshot hadmission rfl
    obtain ⟨hmem, hunder⟩ := mem_committedUnder.mp hcommit
    have hsame : commit.admission.cacheKey = admission.cacheKey :=
      ((hlast.shared.committed commit hmem).trans hunder).trans hadmission.symm
    exact ⟨commit, hmem, hsnapshot, hsame, cacheKey_inj hkey hsame⟩

/-! Two callers of one tenant, who use the same key. -/

/-- A handler runs under a fresh key, and its snapshot is stored. -/
def servedFirst (c : Bool) (caller token id : String) : List (Label (Choice String) Bool) :=
  [.turn c (.admitted (portsFor caller)), .turn c (.get .done), .turn c (.claim token .done),
    .turn c (.returns (created id)), .turn c (.set .done)]

/-- A sign-in is not idempotent. -/
def signInFirst : Bool → RouteDefinition
  | false => { postRoute "/login" with idempotent := false }
  | true => postRoute "/orders"

def signedIn : List (Label (Choice String) Bool) :=
  [.turn false (.admitted (portsFor "ann")), .turn false (.returns (created "session-1"))]

theorem ownTurns_served {routes : Bool → RouteDefinition} {c : Bool}
    {labels : List (Label (Choice String) Bool)}
    (h : (served routes labels).length = labels.length) :
    ownTurns c (served routes labels) = labels.filterMap (Label.own c) := by
  have hlabels : (served routes labels).map Prod.fst = labels := attempt_labels h
  calc ownTurns c (served routes labels)
      = ((served routes labels).map Prod.fst).filterMap (Label.own c) := by
        rw [ownTurns, List.filterMap_map]
        rfl
    _ = labels.filterMap (Label.own c) := by rw [hlabels]

/-- Bob's order is answered alike whether Ann has signed in or not. -/
theorem replays_scoped_signIn :
    ((lastState (opening signInFirst) (served signInFirst
        (servedFirst true "bob" "token-1" "order-1"))).processes true).point =
      ((lastState (opening signInFirst) (served signInFirst
        (signedIn ++ servedFirst true "bob" "token-1" "order-1"))).processes true).point := by
  have halone : ∀ labels, ((lastState (opening signInFirst) (served signInFirst
      labels)).processes false).point.cacheKey? = none →
      OnlyUnder true (lastState (opening signInFirst) (served signInFirst labels)) := by
    intro labels hnone key _ d hd
    obtain rfl := (Bool.not_eq_true d).mp hd
    rw [hnone]
    exact (Option.some_ne_none key).symm
  refine ((replays_scoped sampleDeps).1 true _ _ _ _ (opening_start _) (opening_start _)
    (run_attempt _ _ _) (run_attempt _ _ _) rfl ?_ (halone _ ?_) (halone _ ?_)).1
  · refine (ownTurns_served ?_).trans (Eq.trans ?_ (ownTurns_served ?_).symm)
    · decide +kernel
    · rfl
    · decide +kernel
  · decide +kernel
  · decide +kernel

def Point.answer? : Point β → Option (Answer β)
  | .answered _ answer => some answer
  | _ => none

def refundAndOrder : Bool → RouteDefinition
  | false => postRoute "/refunds"
  | true => postRoute "/orders"

/-- Bob's order is answered with Ann's refund, and his handler is not run. -/
theorem replay_crosses :
    Start (opening refundAndOrder) ∧
      Run (Step (executeRoute sampleDeps)) (opening refundAndOrder) (served refundAndOrder
        (servedFirst true "bob" "token-2" "order-1")) ∧
      Run (Step (executeRoute sampleDeps)) (opening refundAndOrder) (served refundAndOrder
        (servedFirst false "ann" "token-1" "refund-1" ++
          servedFirst true "bob" "token-2" "order-1")) ∧
      ((lastState (opening refundAndOrder) (served refundAndOrder
        (servedFirst true "bob" "token-2" "order-1"))).processes true).point.answer? =
          some (.handled (created "order-1")) ∧
      ((lastState (opening refundAndOrder) (served refundAndOrder
        (servedFirst false "ann" "token-1" "refund-1" ++
          servedFirst true "bob" "token-2" "order-1"))).processes true).point.answer? =
          some (.replayed ⟨201, .payload "refund-1"⟩) ∧
      (lastState (opening refundAndOrder) (served refundAndOrder
        (servedFirst false "ann" "token-1" "refund-1" ++
          servedFirst true "bob" "token-2" "order-1"))).shared.committed.map (fun commit =>
            (commit.admission.principal.id, commit.admission.route.path)) =
          [("ann", "/refunds")] := by
  refine ⟨opening_start _, run_attempt _ _ _, run_attempt _ _ _, ?_, ?_, ?_⟩
  · decide +kernel
  · decide +kernel
  · decide +kernel

end Http
