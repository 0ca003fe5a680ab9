import Mathlib.Data.Fintype.EquivFin
import Lumo.HttpExecuteRoute

/-! # Idempotent requests act once

A claim is given up only by a request that failed. One whose handler has returned, and whose
snapshot is not known to be stored, has not: the key must not be free to another. -/
namespace Http

open Interleavings LabelledRuns

variable {β ι : Type} {deps : HttpServerDeps} {s s' : Stores β} {k k' : Point β}

def Stores.committedUnder (s : Stores β) (key : String) : List (Commit β) :=
  s.committed.filter fun commit => commit.key = some key

def Stores.Committed (s : Stores β) (key : String) (snapshot : ReplaySnapshot β) : Prop :=
  ∃ commit ∈ s.committedUnder key, commit.snapshot = snapshot

theorem mem_committedUnder {commit : Commit β} {key : String} :
    commit ∈ s.committedUnder key ↔ commit ∈ s.committed ∧ commit.key = some key := by
  rw [Stores.committedUnder, List.mem_filter, decide_eq_true_iff]

theorem committedUnder_commit (commit : Commit β) (key : String) :
    (s.commit commit).committedUnder key =
      s.committedUnder key ++ if commit.key = some key then [commit] else [] := by
  rw [Stores.committedUnder, Stores.commit, List.filter_append, Stores.committedUnder]
  congr 1
  by_cases h : commit.key = some key <;> simp [h]

theorem save_responses (key : String) (snapshot : ReplaySnapshot β) :
    (s.save key snapshot).responses = Function.update s.responses key (some snapshot) := rfl

theorem claim_claims (key token : String) :
    (s.claim key token).claims = Function.update s.claims key (some token) := rfl

theorem committedUnder_plain {commit : Commit β} (h : commit.key = none) (key : String) :
    (s.commit commit).committedUnder key = s.committedUnder key := by
  rw [committedUnder_commit, h, if_neg (Option.some_ne_none key).symm, List.append_nil]

theorem save_stored {key : String} (snapshot : ReplaySnapshot β) {other : String}
    (h : s.responses other ≠ none) : (s.save key snapshot).responses other ≠ none := by
  rw [save_responses]
  by_cases hkey : other = key
  · subst hkey
    rw [Function.update_self]
    exact Option.some_ne_none _
  · rw [Function.update_of_ne hkey]
    exact h

/-- Every snapshot has been committed, by a request whose tenant and header make up its key. -/
structure Truthful (s : Stores β) : Prop where
  responses : ∀ key snapshot, s.responses key = some snapshot → s.Committed key snapshot
  committed : ∀ commit ∈ s.committed, commit.admission.cacheKey = commit.key

/-- What a request relies on. -/
def Relies (s : Stores β) : Point β → Prop
  | .arriving _ _ => True
  | .looking admission key => admission.cacheKey = some key
  | .claiming admission key => admission.cacheKey = some key
  | .handling admission claim => admission.cacheKey = claim.map (·.key)
  | .storing admission claim response =>
    admission.cacheKey = some claim.key ∧ s.Committed claim.key response.snapshot
  | .releasing admission claim _ _ => admission.cacheKey = some claim.key
  | .answered none _ => True
  | .answered (some admission) answer =>
    (∀ key snapshot, admission.cacheKey = some key → answer.outcome = some snapshot →
      s.Committed key snapshot) ∧
      ∀ snapshot, answer = .replayed snapshot → admission.cacheKey ≠ none

theorem Relies.grows (hcommitted : ∀ key snapshot, s.Committed key snapshot →
    s'.Committed key snapshot) (h : Relies s k) : Relies s' k := by
  unfold Relies at h ⊢
  split at h
  · trivial
  · exact h
  · exact h
  · exact h
  · exact ⟨h.1, hcommitted _ _ h.2⟩
  · exact h
  · trivial
  · exact ⟨fun key snapshot hkey houtcome => hcommitted _ _ (h.1 key snapshot hkey houtcome), h.2⟩

theorem Stores.Committed.commit {key : String} {snapshot : ReplaySnapshot β}
    (h : s.Committed key snapshot) (commit : Commit β) :
    (s.commit commit).Committed key snapshot := by
  obtain ⟨old, hold, hsnapshot⟩ := h
  refine ⟨old, ?_, hsnapshot⟩
  rw [committedUnder_commit]
  exact List.mem_append_left _ hold

theorem Stores.committed_commit (s : Stores β) (key : String) (admission : Admission)
    (snapshot : ReplaySnapshot β) :
    (s.commit ⟨some key, admission, snapshot⟩).Committed key snapshot := by
  refine ⟨⟨some key, admission, snapshot⟩, ?_, rfl⟩
  rw [committedUnder_commit, if_pos rfl]
  exact List.mem_append_right _ (List.mem_singleton_self _)

@[simp] theorem release_committed (claim : IdempotencyClaim) :
    (s.release claim).committed = s.committed := by
  rw [Stores.release]
  split <;> rfl

@[simp] theorem release_responses (claim : IdempotencyClaim) :
    (s.release claim).responses = s.responses := by
  rw [Stores.release]
  split <;> rfl

variable {choice : Choice β}

theorem Turned.committed (h : Turned deps s k choice k' s') {key : String}
    {snapshot : ReplaySnapshot β} (hc : s.Committed key snapshot) : s'.Committed key snapshot := by
  cases h with
  | returns | returnsPlain => exact hc.commit _
  | @release admission claim cause error call failure heffect =>
    rw [Stores.Committed, Stores.committedUnder, release_committed]
    exact hc
  | _ => exact hc

theorem Truthful.save (hs : Truthful s) {key : String} {snapshot : ReplaySnapshot β}
    (hcommitted : s.Committed key snapshot) : Truthful (s.save key snapshot) := by
  refine ⟨fun other stored hstored => ?_, hs.committed⟩
  by_cases hkey : other = key
  · subst hkey
    rw [save_responses, Function.update_self] at hstored
    obtain rfl := Option.some.inj hstored
    exact hcommitted
  · rw [save_responses, Function.update_of_ne hkey] at hstored
    exact hs.responses other stored hstored

theorem Truthful.commit (hs : Truthful s) {commit : Commit β}
    (hkey : commit.admission.cacheKey = commit.key) : Truthful (s.commit commit) := by
  refine ⟨fun key snapshot hstored => (hs.responses key snapshot hstored).commit commit, ?_⟩
  intro other hother
  rcases List.mem_append.mp hother with hold | hnew
  · exact hs.committed other hold
  · obtain rfl := List.mem_singleton.mp hnew
    exact hkey

theorem Truthful.release (hs : Truthful s) (claim : IdempotencyClaim) :
    Truthful (s.release claim) := by
  refine ⟨fun key snapshot hstored => ?_, fun commit hcommit => ?_⟩
  · rw [release_responses] at hstored
    rw [Stores.Committed, Stores.committedUnder, release_committed]
    exact hs.responses key snapshot hstored
  · rw [release_committed] at hcommit
    exact hs.committed commit hcommit

theorem Truthful.turned (hs : Truthful s) (hk : Relies s k) (h : Turned deps s k choice k' s') :
    Truthful s' := by
  cases h with
  | returns | returnsPlain => exact hs.commit hk
  | store | storeLost => exact hs.save hk.2
  | release => exact hs.release _
  | _ => exact ⟨hs.responses, hs.committed⟩

theorem Relies.turned (hs : Truthful s) (hk : Relies s k) (h : Turned deps s k choice k' s') :
    Relies s' k' := by
  cases h with
  | refuse => trivial
  | look _ hkey | plain _ hkey => exact hkey
  | @replay admission key snapshot hstored =>
    refine ⟨fun key' snapshot' hkey' houtcome => ?_, fun _ _ => ?_⟩
    · obtain rfl := Option.some.inj (hk.symm.trans hkey')
      obtain rfl := Option.some.inj houtcome
      exact hs.responses _ _ hstored
    · exact ne_of_eq_of_ne hk (Option.some_ne_none key)
  | miss | claim => exact hk
  | returns => exact ⟨hk, s.committed_commit _ _ _⟩
  | @returnsPlain admission response =>
    refine ⟨fun key snapshot hkey => ?_, fun snapshot hreplayed => ?_⟩
    · rw [Relies, Option.map_none] at hk
      rw [hk] at hkey
      cases hkey
    · cases hreplayed
  | throws => exact hk
  | @store admission claim response =>
    refine ⟨fun key snapshot hkey houtcome => ?_, fun snapshot hreplayed => ?_⟩
    · obtain rfl := Option.some.inj (hk.1.symm.trans hkey)
      obtain rfl := Option.some.inj houtcome
      exact hk.2
    · cases hreplayed
  | storeLost | unstored => exact hk.1
  | _ =>
    refine ⟨fun key snapshot _ houtcome => ?_, fun snapshot hreplayed => ?_⟩
    · cases houtcome
    · cases hreplayed

theorem executeRoute_keeps (deps : HttpServerDeps) :
    Keeps (executeRoute deps) (Truthful (β := β)) Relies := by
  intro s k choice k' s' hs hk hturn
  have hturned := executeRoute_turned hturn
  refine ⟨hs.turned hk hturned, hk.turned hs hturned, fun other hother => ?_⟩
  exact hother.grows fun key snapshot hc => hturned.committed hc

def Point.claim? : Point β → Option IdempotencyClaim
  | .handling _ claim => claim
  | .storing _ claim _ => some claim
  | .releasing _ claim _ _ => some claim
  | _ => none

def Point.claiming? : Point β → Option String
  | .claiming _ key => some key
  | _ => none

def Point.acted : Point β → Bool
  | .storing _ _ _ => true
  | .releasing _ _ .snapshot _ => true
  | _ => false

/-- A key that something was committed under is claimed, or has its snapshot and nobody about to
claim it. A request that holds a key and has not acted finds nothing committed under it. -/
structure Exclusive (s : State (Stores β) (Point β) ι) : Prop where
  held : ∀ c p claim, s.processes c = .live p → p.claim? = some claim →
    s.shared.claims claim.key = some claim.token
  alone : ∀ c d p q claim, s.processes c = .live p → s.processes d = .live q →
    p.claim? = some claim → q.claim? = some claim → d = c
  unacted : ∀ c p claim, s.processes c = .live p → p.claim? = some claim → p.acted = false →
    s.shared.committedUnder claim.key = []
  acted : ∀ c p claim, s.processes c = .live p → p.claim? = some claim → p.acted = true →
    s.shared.committedUnder claim.key ≠ []
  kept : ∀ key, s.shared.committedUnder key ≠ [] → s.shared.claims key ≠ none ∨
    s.shared.responses key ≠ none ∧ ∀ c a, s.processes c ≠ .live (.claiming a key)
  once : ∀ key, (s.shared.committedUnder key).length ≤ 1

/-- Nothing is claimed, stored or committed, and every request is still to come. -/
structure Start (s : State (Stores β) (Point β) ι) : Prop where
  unclaimed : ∀ key, s.shared.claims key = none
  unstored : ∀ key, s.shared.responses key = none
  uncommitted : s.shared.committed = []
  arriving : ∀ c, ∃ route request, s.processes c = .live (.arriving route request)

def givesUp (s : State (Stores β) (Point β) ι) (c : ι) : Option IdempotencyClaim :=
  match s.processes c with
  | .live (.releasing _ claim .snapshot _) => some claim
  | _ => none

def aboutToClaim (s : State (Stores β) (Point β) ι) (key : String) (c : ι) : Bool :=
  match s.processes c with
  | .live (.claiming _ other) => other == key
  | _ => false

/-- A request whose handler has returned gives its key up only when the snapshot is stored, and no
other request has looked for it in vain and is about to claim the key. -/
def KeepsKey (s : State (Stores β) (Point β) ι) : Label (Choice β) ι → Prop
  | .turn c (.release call) => call.takesEffect = true → ∀ claim ∈ givesUp s c,
    (s.shared.responses claim.key).isSome = true ∧ ∀ d, aboutToClaim s claim.key d = false
  | _ => True

instance [Fintype ι] (s : State (Stores β) (Point β) ι) : (l : Label (Choice β) ι) →
    Decidable (KeepsKey s l)
  | .turn c (.release call) =>
    inferInstanceAs (Decidable (call.takesEffect = true → ∀ claim ∈ givesUp s c,
      (s.shared.responses claim.key).isSome = true ∧ ∀ d, aboutToClaim s claim.key d = false))
  | .turn _ (.admitted _) => inferInstanceAs (Decidable True)
  | .turn _ (.get _) => inferInstanceAs (Decidable True)
  | .turn _ (.claim _ _) => inferInstanceAs (Decidable True)
  | .turn _ (.returns _) => inferInstanceAs (Decidable True)
  | .turn _ (.throws _) => inferInstanceAs (Decidable True)
  | .turn _ (.set _) => inferInstanceAs (Decidable True)
  | .crash _ => inferInstanceAs (Decidable True)

/-- What is asked of the requests under each key: the handler's effect is committed once at most,
and a request that is answered neither by an error nor as in flight has the status and the body of
what was committed. -/
structure ActsOnce (s : State (Stores β) (Point β) ι) : Prop where
  once : ∀ key, (s.shared.committedUnder key).length ≤ 1
  answered : ∀ c admission answer key snapshot,
    (s.processes c).point = .answered (some admission) answer → admission.cacheKey = some key →
    answer.outcome = some snapshot → s.shared.Committed key snapshot

namespace Exclusive

variable {s : State (Stores β) (Point β) ι} {b : Stores β}

theorem start (h : Start s) : Exclusive s := by
  have hnone : ∀ c p claim, s.processes c = .live p → p.claim? = some claim → False := by
    intro c p claim hc hclaim
    obtain ⟨route, request, harriving⟩ := h.arriving c
    rw [hc] at harriving
    cases harriving
    cases hclaim
  have hempty : ∀ key, s.shared.committedUnder key = [] := by
    intro key
    rw [Stores.committedUnder, h.uncommitted, List.filter_nil]
  constructor
  · exact fun c p claim hc hclaim => (hnone c p claim hc hclaim).elim
  · exact fun c d p q claim hc _ hclaim _ => (hnone c p claim hc hclaim).elim
  · exact fun c p claim hc hclaim _ => (hnone c p claim hc hclaim).elim
  · exact fun c p claim hc hclaim _ => (hnone c p claim hc hclaim).elim
  · exact fun key hkey => absurd (hempty key) hkey
  · intro key
    rw [hempty]
    exact Nat.zero_le _

variable {claim : IdempotencyClaim} {a : Admission}

theorem holder (h : Exclusive s) {c d : ι} {p q : Point β} {other : IdempotencyClaim}
    (hc : s.processes c = .live p) (hd : s.processes d = .live q) (hp : p.claim? = some claim)
    (hq : q.claim? = some other) (hkey : other.key = claim.key) : d = c := by
  have hclaim := h.held c p claim hc hp
  have hother := h.held d q other hd hq
  rw [hkey, hclaim] at hother
  have htoken : claim.token = other.token := Option.some.inj hother
  have hsame : other = claim := by
    cases claim
    cases other
    cases hkey
    cases htoken
    rfl
  subst hsame
  exact h.alone c d p q other hc hd hp hq

variable [DecidableEq ι] {c : ι}

/-- A turn that claims, commits and gives up nothing. -/
theorem quiet (h : Exclusive s) (hc : s.processes c = .live k)
    (hclaims : b.claims = s.shared.claims)
    (hunder : ∀ key, b.committedUnder key = s.shared.committedUnder key)
    (hresponses : ∀ key, s.shared.responses key ≠ none → b.responses key ≠ none)
    (hholds : ∀ claim, k'.claim? = some claim → k.claim? = some claim ∧ k'.acted = k.acted)
    (hclaiming : ∀ key, k'.claiming? = some key → b.responses key = none) :
    Exclusive (s.set c (.live k') b) := by
  -- Who holds a claim held it before, at the same stage.
  have hbefore : ∀ d p claim, (s.set c (.live k') b).processes d = .live p →
      p.claim? = some claim →
      ∃ q, s.processes d = .live q ∧ q.claim? = some claim ∧ p.acted = q.acted := by
    intro d p claim hd hp
    rcases live_of_turn hd with ⟨rfl, rfl⟩ | ⟨_, hd⟩
    · exact ⟨k, hc, hholds claim hp⟩
    · exact ⟨p, hd, hp, rfl⟩
  constructor
  · intro d p claim hd hp
    obtain ⟨q, hq, hclaim, _⟩ := hbefore d p claim hd hp
    rw [set_shared, hclaims]
    exact h.held d q claim hq hclaim
  · intro d e p q claim hd he hp hq
    obtain ⟨p', hd', hp', _⟩ := hbefore d p claim hd hp
    obtain ⟨q', he', hq', _⟩ := hbefore e q claim he hq
    exact h.alone d e p' q' claim hd' he' hp' hq'
  · intro d p claim hd hp hacted
    obtain ⟨q, hq, hclaim, hsame⟩ := hbefore d p claim hd hp
    rw [set_shared, hunder]
    exact h.unacted d q claim hq hclaim (hsame.symm.trans hacted)
  · intro d p claim hd hp hacted
    obtain ⟨q, hq, hclaim, hsame⟩ := hbefore d p claim hd hp
    rw [set_shared, hunder]
    exact h.acted d q claim hq hclaim (hsame.symm.trans hacted)
  · intro key hkey
    rw [set_shared, hunder] at hkey
    rw [set_shared, hclaims]
    rcases h.kept key hkey with hclaimed | ⟨hstored, hnobody⟩
    · exact Or.inl hclaimed
    · refine Or.inr ⟨hresponses key hstored, fun d a hd => ?_⟩
      rcases live_of_turn hd with ⟨_, rfl⟩ | ⟨_, hd⟩
      · exact hresponses key hstored (hclaiming key rfl)
      · exact hnobody d a hd
  · intro key
    rw [set_shared, hunder]
    exact h.once key

theorem crash (h : Exclusive s) : Exclusive (s.set c (.crashed k) s.shared) := by
  constructor
  · exact fun d p claim hd hp => h.held d p claim (live_of_crash hd) hp
  · intro d e p q claim hd he hp hq
    exact h.alone d e p q claim (live_of_crash hd) (live_of_crash he) hp hq
  · exact fun d p claim hd hp hacted => h.unacted d p claim (live_of_crash hd) hp hacted
  · exact fun d p claim hd hp hacted => h.acted d p claim (live_of_crash hd) hp hacted
  · intro key hkey
    rcases h.kept key hkey with hclaimed | ⟨hstored, hnobody⟩
    · exact Or.inl hclaimed
    · exact Or.inr ⟨hstored, fun d a hd => hnobody d a (live_of_crash hd)⟩
  · exact h.once

/-- A request claims a key that was free. -/
theorem claims (h : Exclusive s) {key token : String} (hc : s.processes c = .live (.claiming a key))
    (hfree : s.shared.claims key = none) (hclaim : k'.claim? = none ∨ k'.claim? = some ⟨key, token⟩)
    (hacted : k'.acted = false) (hclaiming : k'.claiming? = none) :
    Exclusive (s.set c (.live k') (s.shared.claim key token)) := by
  have hholds : ∀ claim, k'.claim? = some claim → claim = ⟨key, token⟩ := by
    intro claim hsome
    rcases hclaim with hnone | hclaim
    · rw [hnone] at hsome
      cases hsome
    · exact Option.some.inj (hsome.symm.trans hclaim)
  have hnothing : s.shared.committedUnder key = [] := by
    by_contra hsome
    rcases h.kept key hsome with hclaimed | ⟨_, hnobody⟩
    · exact hclaimed hfree
    · exact hnobody c a hc
  -- The key was free, so the others hold other keys.
  have hother : ∀ d p claim, s.processes d = .live p → p.claim? = some claim →
      claim.key ≠ key := by
    intro d p claim hd hp hkey
    have hheld := h.held d p claim hd hp
    rw [hkey, hfree] at hheld
    cases hheld
  constructor
  · intro d p claim hd hp
    rw [set_shared, claim_claims]
    rcases live_of_turn hd with ⟨_, rfl⟩ | ⟨_, hd⟩
    · obtain rfl := hholds claim hp
      exact Function.update_self _ _ _
    · rw [Function.update_of_ne (hother d p claim hd hp)]
      exact h.held d p claim hd hp
  · intro d e p q claim hd he hp hq
    rcases live_of_turn hd with ⟨rfl, rfl⟩ | ⟨_, hd'⟩
    · obtain rfl := hholds claim hp
      rcases live_of_turn he with ⟨rfl, _⟩ | ⟨_, he'⟩
      · rfl
      · exact absurd rfl (hother e q _ he' hq)
    · rcases live_of_turn he with ⟨_, rfl⟩ | ⟨_, he'⟩
      · obtain rfl := hholds claim hq
        exact absurd rfl (hother d p _ hd' hp)
      · exact h.alone d e p q claim hd' he' hp hq
  · intro d p claim hd hp hunacted
    rcases live_of_turn hd with ⟨_, rfl⟩ | ⟨_, hd⟩
    · obtain rfl := hholds claim hp
      exact hnothing
    · exact h.unacted d p claim hd hp hunacted
  · intro d p claim hd hp hacts
    rcases live_of_turn hd with ⟨_, rfl⟩ | ⟨_, hd⟩
    · rw [hacted] at hacts
      cases hacts
    · exact h.acted d p claim hd hp hacts
  · intro other hsome
    rw [set_shared, claim_claims]
    by_cases hkey : other = key
    · subst hkey
      exact absurd hnothing hsome
    · rw [Function.update_of_ne hkey]
      rcases h.kept other hsome with hclaimed | ⟨hstored, hnobody⟩
      · exact Or.inl hclaimed
      · refine Or.inr ⟨hstored, fun d a hd => ?_⟩
        rcases live_of_turn hd with ⟨_, rfl⟩ | ⟨_, hd⟩
        · cases hclaiming
        · exact hnobody d a hd
  · exact h.once

/-- A handler returns: it is the first under its key. -/
theorem commits (h : Exclusive s) {response : TransportResponse β}
    (hc : s.processes c = .live (.handling a (some claim))) :
    Exclusive (s.set c (.live (.storing a claim response))
      (s.shared.commit ⟨some claim.key, a, response.snapshot⟩)) := by
  have hnothing := h.unacted c _ claim hc rfl rfl
  have hself : (s.shared.commit ⟨some claim.key, a, response.snapshot⟩).committedUnder claim.key =
      [⟨some claim.key, a, response.snapshot⟩] := by
    rw [committedUnder_commit, hnothing, if_pos rfl, List.nil_append]
  have hother : ∀ key, key ≠ claim.key →
      (s.shared.commit ⟨some claim.key, a, response.snapshot⟩).committedUnder key =
        s.shared.committedUnder key := by
    intro key hkey
    rw [committedUnder_commit, if_neg, List.append_nil]
    exact fun heq => hkey (Option.some.inj heq).symm
  -- No other request holds the key.
  have hkeys : ∀ d p other, d ≠ c → s.processes d = .live p → p.claim? = some other →
      other.key ≠ claim.key := by
    intro d p other hd hp hclaim hkey
    exact hd (h.holder hc hp rfl hclaim hkey)
  constructor
  · intro d p other hd hp
    rcases live_of_turn hd with ⟨_, rfl⟩ | ⟨_, hd⟩
    · obtain rfl := Option.some.inj hp
      exact h.held c _ claim hc rfl
    · exact h.held d p other hd hp
  · intro d e p q other hd he hp hq
    rcases live_of_turn hd with ⟨rfl, rfl⟩ | ⟨hdc, hd'⟩
    · obtain rfl := Option.some.inj hp
      rcases live_of_turn he with ⟨rfl, _⟩ | ⟨_, he'⟩
      · rfl
      · exact h.alone d e _ q claim hc he' rfl hq
    · rcases live_of_turn he with ⟨rfl, rfl⟩ | ⟨_, he'⟩
      · obtain rfl := Option.some.inj hq
        exact (h.alone e d _ p claim hc hd' rfl hp).symm
      · exact h.alone d e p q other hd' he' hp hq
  · intro d p other hd hp hunacted
    rcases live_of_turn hd with ⟨_, rfl⟩ | ⟨hdc, hd⟩
    · cases hunacted
    · rw [set_shared, hother other.key (hkeys d p other hdc hd hp)]
      exact h.unacted d p other hd hp hunacted
  · intro d p other hd hp hacted
    rcases live_of_turn hd with ⟨_, rfl⟩ | ⟨hdc, hd⟩
    · obtain rfl := Option.some.inj hp
      rw [set_shared, hself]
      exact List.cons_ne_nil _ _
    · rw [set_shared, hother other.key (hkeys d p other hdc hd hp)]
      exact h.acted d p other hd hp hacted
  · intro key hsome
    by_cases hkey : key = claim.key
    · subst hkey
      refine Or.inl ?_
      have hheld := h.held c _ claim hc rfl
      rw [set_shared]
      exact ne_of_eq_of_ne hheld (Option.some_ne_none _)
    · rw [set_shared, hother key hkey] at hsome
      rcases h.kept key hsome with hclaimed | ⟨hstored, hnobody⟩
      · exact Or.inl hclaimed
      · refine Or.inr ⟨hstored, fun d b hd => ?_⟩
        rcases live_of_turn hd with ⟨_, hk'⟩ | ⟨_, hd⟩
        · cases hk'
        · exact hnobody d b hd
  · intro key
    by_cases hkey : key = claim.key
    · subst hkey
      rw [set_shared, hself]
      exact le_rfl
    · rw [set_shared, hother key hkey]
      exact h.once key

/-- A request gives up its key: its handler has not acted, or nobody needs the claim. -/
theorem releases (h : Exclusive s) {cause : Cause} {error failure : Thrown}
    (hc : s.processes c = .live (.releasing a claim cause error))
    (hkeeps : cause = .snapshot → s.shared.responses claim.key ≠ none ∧
      ∀ d b, s.processes d ≠ .live (.claiming b claim.key)) :
    Exclusive (s.set c (.live (.answered a (.failed failure))) (s.shared.release claim)) := by
  have hheld := h.held c _ claim hc rfl
  have hclaims : (s.shared.release claim).claims =
      Function.update s.shared.claims claim.key none := by
    rw [Stores.release, if_pos hheld]
  have hunder : ∀ key, (s.shared.release claim).committedUnder key =
      s.shared.committedUnder key := by
    intro key
    rw [Stores.committedUnder, release_committed, Stores.committedUnder]
  have hbefore : ∀ d p other, (s.set c (.live (.answered (some a) (.failed failure)))
      (s.shared.release claim)).processes d = .live p → p.claim? = some other →
      d ≠ c ∧ s.processes d = .live p := by
    intro d p other hd hp
    rcases live_of_turn hd with ⟨_, rfl⟩ | hd
    · cases hp
    · exact hd
  constructor
  · intro d p other hd hp
    obtain ⟨hdc, hd⟩ := hbefore d p other hd hp
    have hkey : other.key ≠ claim.key := fun hkey => hdc (h.holder hc hd rfl hp hkey)
    rw [set_shared, hclaims, Function.update_of_ne hkey]
    exact h.held d p other hd hp
  · intro d e p q other hd he hp hq
    exact h.alone d e p q other (hbefore d p other hd hp).2 (hbefore e q other he hq).2 hp hq
  · intro d p other hd hp hunacted
    rw [set_shared, hunder]
    exact h.unacted d p other (hbefore d p other hd hp).2 hp hunacted
  · intro d p other hd hp hacted
    rw [set_shared, hunder]
    exact h.acted d p other (hbefore d p other hd hp).2 hp hacted
  · intro key hsome
    rw [set_shared, hunder] at hsome
    rw [set_shared, hclaims, release_responses]
    have hnobody : ∀ d b, s.processes d ≠ .live (.claiming b key) →
        (s.set c (.live (.answered (some a) (.failed failure)))
          (s.shared.release claim)).processes d ≠ .live (.claiming b key) := by
      intro d b hnot hd
      rcases live_of_turn hd with ⟨_, hk'⟩ | ⟨_, hd⟩
      · cases hk'
      · exact hnot hd
    by_cases hkey : key = claim.key
    · subst hkey
      cases cause with
      | handler => exact absurd (h.unacted c _ claim hc rfl rfl) hsome
      | snapshot =>
        obtain ⟨hstored, hclaiming⟩ := hkeeps rfl
        exact Or.inr ⟨hstored, fun d b => hnobody d b (hclaiming d b)⟩
    · rw [Function.update_of_ne hkey]
      rcases h.kept key hsome with hclaimed | ⟨hstored, hclaiming⟩
      · exact Or.inl hclaimed
      · exact Or.inr ⟨hstored, fun d b => hnobody d b (hclaiming d b)⟩
  · intro key
    rw [set_shared, hunder]
    exact h.once key

theorem stays (h : Exclusive s) (hc : s.processes c = .live k)
    (hclaims : b.claims = s.shared.claims)
    (hunder : ∀ key, b.committedUnder key = s.shared.committedUnder key)
    (hresponses : ∀ key, s.shared.responses key ≠ none → b.responses key ≠ none)
    (hholds : k'.claim? = none ∨ k'.claim? = k.claim? ∧ k'.acted = k.acted)
    (hclaiming : k'.claiming? = none) :
    Exclusive (s.set c (.live k') b) := by
  refine h.quiet hc hclaims hunder hresponses (fun claim hclaim => ?_) (fun key hkey => ?_)
  · rcases hholds with hnone | ⟨hholds, hacted⟩
    · rw [hnone] at hclaim
      cases hclaim
    · exact ⟨hholds.symm.trans hclaim, hacted⟩
  · rw [hclaiming] at hkey
    cases hkey

theorem step {u : State (Stores β) (Point β) ι} {l : Label (Choice β) ι} (h : Exclusive s)
    (hst : Step (executeRoute deps) s l u) (hkeeps : KeepsKey s l) : Exclusive u := by
  cases step_move hst with
  | @crash c k hc => exact h.crash
  | @turn c k choice k' b hc hk =>
    cases executeRoute_turned hk with
    | refuse | look | plain | replay =>
      exact h.stays hc rfl (fun _ => rfl) (fun _ => id) (.inl rfl) rfl
    | miss hmiss =>
      refine h.quiet hc rfl (fun _ => rfl) (fun _ => id) (fun claim hclaim => ?_) ?_
      · cases hclaim
      · intro key hkey
        cases hkey
        exact hmiss
    | unread | inFlight => exact h.stays hc rfl (fun _ => rfl) (fun _ => id) (.inl rfl) rfl
    | claim hfree => exact h.claims hc hfree (Or.inr rfl) rfl rfl
    | claimLost hfree => exact h.claims hc hfree (Or.inl rfl) rfl rfl
    | unclaimed => exact h.stays hc rfl (fun _ => rfl) (fun _ => id) (.inl rfl) rfl
    | returns => exact h.commits hc
    | returnsPlain =>
      exact h.stays hc rfl (committedUnder_plain rfl) (fun _ => id) (.inl rfl) rfl
    | throws => exact h.stays hc rfl (fun _ => rfl) (fun _ => id) (.inr ⟨rfl, rfl⟩) rfl
    | throwsPlain => exact h.stays hc rfl (fun _ => rfl) (fun _ => id) (.inl rfl) rfl
    | store => exact h.stays hc rfl (fun _ => rfl) (fun _ => save_stored _) (.inl rfl) rfl
    | storeLost =>
      exact h.stays hc rfl (fun _ => rfl) (fun _ => save_stored _) (.inr ⟨rfl, rfl⟩) rfl
    | unstored => exact h.stays hc rfl (fun _ => rfl) (fun _ => id) (.inr ⟨rfl, rfl⟩) rfl
    | @release a claim cause error call failure heffect =>
      refine h.releases hc fun hcause => ?_
      subst hcause
      have hgives : claim ∈ givesUp s c := by
        rw [givesUp, hc]
        rfl
      obtain ⟨hstored, hnobody⟩ := hkeeps heffect claim hgives
      refine ⟨Option.ne_none_iff_isSome.mpr hstored, fun d b hd => ?_⟩
      have hclaims := hnobody d
      rw [aboutToClaim, hd] at hclaims
      simp at hclaims
    | unreleased => exact h.stays hc rfl (fun _ => rfl) (fun _ => id) (.inl rfl) rfl

end Exclusive

theorem Start.relied {s : State (Stores β) (Point β) ι} (h : Start s) :
    Holds Truthful Relies s := by
  constructor
  · constructor
    · intro key snapshot hstored
      rw [h.unstored] at hstored
      cases hstored
    · intro commit hcommit
      rw [h.uncommitted] at hcommit
      cases hcommit
  · intro c
    obtain ⟨route, request, hc⟩ := h.arriving c
    rw [hc]
    trivial

/-- In every run in which no request gives up the key of an effect that is not stored, or that
another has looked for in vain, the effect under each key is committed once at most, and is what is
answered. -/
theorem acts_once [DecidableEq ι] {s : State (Stores β) (Point β) ι}
    {tr : List (Label (Choice β) ι × State (Stores β) (Point β) ι)} (hs : Start s)
    (hr : Run (Step (executeRoute deps)) s tr) (hkeeps : EveryStep KeepsKey s tr) :
    Always ActsOnce s tr := by
  have hinvariant : Always (fun s => Exclusive s ∧ Holds Truthful Relies s) s tr := by
    refine always_of_everyStep ?_ ⟨Exclusive.start hs, hs.relied⟩ hr hkeeps
    intro s l u h hst hkeeps
    exact ⟨h.1.step hst hkeeps, h.2.step (executeRoute_keeps deps) hst⟩
  refine hinvariant.mono fun s h => ⟨h.1.once, ?_⟩
  intro c admission answer key snapshot hc hkey houtcome
  have hrelies := h.2.points c
  rw [hc] at hrelies
  exact hrelies.1 key snapshot hkey houtcome

/-! Two requests of one caller, under one key. -/

def sampleDeps : HttpServerDeps where
  text := ⟨id, id, fun _ _ => 0⟩
  tenantResolvers := [claimTenantResolver]
  tenantGate := false
  limit := 100
  windowMs := 60000

def portsFor (id : String) : Ports String where
  verify _ := .ok (some ⟨⟨id, .staff, []⟩, fun name =>
    if name = "tenant_id" then some "t-1" else none⟩)
  availability _ := .ok .active
  ensure _ _ _ := .ok none
  consume _ _ _ := .ok ⟨true, 0⟩
  degradedConsume _ _ _ := ⟨true, 0⟩
  safeParse _ := .ok ()

def keyedRequest : Request where
  headers := fun name =>
    if name = "authorization" then some (.one "bearer token")
    else if name = "idempotency-key" then some (.one "k-1")
    else none
  hostname := "api"
  ip := "10.0.0.1"

def postRoute (path : String) : RouteDefinition := ⟨.post, path, "orders:write", true, false, false⟩

def opening (routes : Bool → RouteDefinition) : State (Stores String) (Point String) Bool where
  shared := ⟨fun _ => none, [], fun _ => none, []⟩
  processes := fun c => .live (.arriving (routes c) keyedRequest)

theorem opening_start (routes : Bool → RouteDefinition) : Start (opening routes) :=
  ⟨fun _ => rfl, fun _ => rfl, rfl, fun c => ⟨routes c, keyedRequest, rfl⟩⟩

def served (routes : Bool → RouteDefinition) (labels : List (Label (Choice String) Bool)) :
    List (Label (Choice String) Bool × State (Stores String) (Point String) Bool) :=
  attempt (next (executeRoute sampleDeps)) (opening routes) labels

def created (id : String) : TransportResponse String := ⟨201, .payload id, []⟩

/-- One request claims the key and its handler returns; the snapshot comes to `call`, and the key is
released. Then the other request comes. -/
def unsnapshotted (call : Call) : List (Label (Choice String) Bool) :=
  [.turn false (.admitted (portsFor "ann")), .turn false (.get .done),
    .turn false (.claim "token-1" .done), .turn false (.returns (created "order-1")),
    .turn false (.set call), .turn false (.release .done),
    .turn true (.admitted (portsFor "ann")), .turn true (.get .done),
    .turn true (.claim "token-2" .done), .turn true (.returns (created "order-2"))]

theorem acts_once_replayed :
    Always ActsOnce (opening fun _ => postRoute "/orders")
      (served (fun _ => postRoute "/orders") (unsnapshotted (.lost (.failure "timeout")))) := by
  refine acts_once (opening_start _) (run_attempt _ _ _) ?_
  decide +kernel

/-- The snapshot is not stored, the key is released, and the second request acts again. -/
theorem acts_twice :
    Start (opening fun _ => postRoute "/orders") ∧
      Run (Step (executeRoute sampleDeps)) (opening fun _ => postRoute "/orders")
        (served (fun _ => postRoute "/orders")
          (unsnapshotted (.failed (.failure "unreachable")))) ∧
      ¬ Always ActsOnce (opening fun _ => postRoute "/orders")
        (served (fun _ => postRoute "/orders")
          (unsnapshotted (.failed (.failure "unreachable")))) := by
  refine ⟨opening_start _, run_attempt _ _ _, fun h => ?_⟩
  have hlast := h.last.once "tenant:t-1:idem:k-1"
  revert hlast
  decide +kernel

end Http
