import Mathlib.Data.List.Nodup
import Mathlib.Logic.Function.Basic
import Lumo.LabelledRuns

/-! # Calls that share a table of versioned rows

A transaction reads the table, works out the rows it saves, and saves each under the version
it read; the log of what was saved is written with it. It takes effect as a whole or not at
all. Between its reading and its saving other transactions may have saved other rows, and rows
it did not read may have appeared. -/
namespace VersionedTable

open LabelledRuns

/-- What identifies a stored value, which two may not be stored together, and which may not be
stored at all. -/
structure Schema (α κ : Type*) where
  key : α → κ
  clash : α → α → Bool
  storable : α → Bool

structure Row (α : Type*) where
  value : α
  version : ℕ
  deriving DecidableEq

abbrev Table (α : Type*) := List (Row α)

structure Store (α ν : Type*) where
  table : Table α
  log : List ν

structure Save (α ν : Type*) where
  row : Row α
  note : ν

variable {α κ ν π ι : Type*} [DecidableEq κ]

def matchesRow (S : Schema α κ) (row r : Row α) : Bool :=
  S.key r.value == S.key row.value && r.version == row.version

/-- The save of a new row inserts it; any other replaces the row of that key and version. -/
def save (S : Schema α κ) (store : Store α ν) (s : Save α ν) : Option (Store α ν) :=
  if !S.storable s.row.value then none
  else if s.row.version = 0 then
    if store.table.any fun r => S.key r.value == S.key s.row.value || S.clash r.value s.row.value
    then none
    else some ⟨store.table ++ [⟨s.row.value, 1⟩], store.log ++ [s.note]⟩
  else if store.table.any (matchesRow S s.row) then
    some ⟨store.table.map fun r =>
        if S.key r.value = S.key s.row.value then ⟨s.row.value, s.row.version + 1⟩ else r,
      store.log ++ [s.note]⟩
  else none

/-- All the saves of a transaction, or none. -/
def commit (S : Schema α κ) (store : Store α ν) (saves : List (Save α ν)) : Option (Store α ν) :=
  saves.foldlM (save S) store

/-- Every row is stored under its key only once, has been saved, and was storable. -/
structure WellKept (S : Schema α κ) (t : Table α) : Prop where
  keys : (t.map fun r => S.key r.value).Nodup
  saved : ∀ r ∈ t, r.version ≠ 0
  storable : ∀ r ∈ t, S.storable r.value = true

omit [DecidableEq κ] in
theorem WellKept.nil (S : Schema α κ) : WellKept S ([] : Table α) := by
  constructor
  · exact List.nodup_nil
  · intro r hr
    cases hr
  · intro r hr
    cases hr

def Precedes (S : Schema α κ) (t u : Table α) : Prop :=
  ∀ r ∈ t, ∃ r' ∈ u, S.key r'.value = S.key r.value ∧ r.version ≤ r'.version ∧
    (r'.version = r.version → r' = r)

/-- What a save that succeeds did. -/
inductive Saved (S : Schema α κ) (store : Store α ν) (s : Save α ν) : Store α ν → Prop where
  | inserted (hnew : s.row.version = 0) (hstorable : S.storable s.row.value = true)
      (hkey : ∀ r ∈ store.table, S.key r.value ≠ S.key s.row.value)
      (hclash : ∀ r ∈ store.table, S.clash r.value s.row.value = false) :
      Saved S store s ⟨store.table ++ [⟨s.row.value, 1⟩], store.log ++ [s.note]⟩
  | replaced {before after : Table α} {r : Row α} (hsplit : store.table = before ++ r :: after)
      (hkey : S.key r.value = S.key s.row.value) (hversion : r.version = s.row.version)
      (hold : s.row.version ≠ 0) (hstorable : S.storable s.row.value = true) :
      Saved S store s ⟨before ++ ⟨s.row.value, s.row.version + 1⟩ :: after, store.log ++ [s.note]⟩

section Saves

variable {S : Schema α κ} {store store' : Store α ν} {s : Save α ν} {t u w : Table α}

variable {r new : Row α}

theorem map_replaced {before after : Table α} {k : κ}
    (hk : ((before ++ r :: after).map fun r => S.key r.value).Nodup) (hr : S.key r.value = k) :
    (before ++ r :: after).map (fun r => if S.key r.value = k then new else r) =
      before ++ new :: after := by
  have other (l : Table α) (hl : k ∉ l.map fun r => S.key r.value) :
      l.map (fun r => if S.key r.value = k then new else r) = l := by
    conv_rhs => rw [← List.map_id l]
    apply List.map_congr_left
    intro x hx
    apply if_neg
    intro he
    exact hl (List.mem_map.mpr ⟨x, hx, he⟩)
  rw [List.map_append, List.map_cons, List.nodup_append, List.nodup_cons] at hk
  obtain ⟨_, ⟨hafter, _⟩, hbefore⟩ := hk
  rw [List.map_append, List.map_cons, if_pos hr]
  rw [other before, other after]
  · rwa [hr] at hafter
  · intro hmem
    exact hbefore _ hmem _ List.mem_cons_self hr.symm

theorem save_saved (hw : WellKept S store.table) (h : save S store s = some store') :
    Saved S store s store' := by
  rw [save] at h
  split at h
  · cases h
  · rename_i hstorable
    rw [Bool.not_eq_true, Bool.not_eq_false'] at hstorable
    split at h
    · rename_i hnew
      split at h
      · cases h
      · rename_i hfree
        cases h
        have hall : ∀ r ∈ store.table, S.key r.value ≠ S.key s.row.value ∧
            S.clash r.value s.row.value = false := by
          intro r hr
          have hr := List.any_eq_false.mp (Bool.eq_false_iff.mpr hfree) r hr
          simpa using hr
        exact .inserted hnew hstorable (fun r hr => (hall r hr).1) fun r hr => (hall r hr).2
    · rename_i hold
      split at h
      · rename_i hmatch
        cases h
        obtain ⟨r, hr, hm⟩ := List.any_eq_true.mp hmatch
        obtain ⟨before, after, hsplit⟩ := List.append_of_mem hr
        rw [matchesRow, Bool.and_eq_true, beq_iff_eq, beq_iff_eq] at hm
        have hkeys := hw.keys
        rw [hsplit] at hkeys ⊢
        rw [map_replaced hkeys hm.1]
        exact .replaced hsplit hm.1 hm.2 hold hstorable
      · cases h

def replaceRow (S : Schema α κ) (new r : Row α) : Row α :=
  if S.key r.value = S.key new.value then new else r

theorem replaceRow_self (hkey : S.key new.value = S.key r.value) : replaceRow S new r = new :=
  if_pos hkey.symm

theorem replaceRow_other {r' : Row α} (hw : WellKept S t) (hr : r ∈ t) (hr' : r' ∈ t)
    (hkey : S.key new.value = S.key r.value) (hne : r' ≠ r) : replaceRow S new r' = r' := by
  apply if_neg
  intro he
  exact hne (List.inj_on_of_nodup_map hw.keys hr' hr (he.trans hkey))

theorem save_current (hw : WellKept S store.table) (hr : r ∈ store.table)
    (hkey : S.key s.row.value = S.key r.value) (hversion : s.row.version = r.version)
    (hstorable : S.storable s.row.value = true) : ∃ store', save S store s = some store' ∧
      store'.table = store.table.map (replaceRow S ⟨s.row.value, s.row.version + 1⟩) := by
  have hsaved : s.row.version ≠ 0 := by
    rw [hversion]
    exact hw.saved r hr
  have hmatch : store.table.any (matchesRow S s.row) = true := by
    rw [List.any_eq_true]
    exact ⟨r, hr, by simp [matchesRow, hkey, hversion]⟩
  rw [save, hstorable, if_neg (by simp), if_neg hsaved, if_pos hmatch]
  exact ⟨_, rfl, rfl⟩

omit [DecidableEq κ] in
theorem Saved.wellKept (h : Saved S store s store') (hw : WellKept S store.table) :
    WellKept S store'.table := by
  cases h with
  | inserted hnew hstorable hkey hclash =>
    constructor
    · rw [List.map_append, List.nodup_append]
      refine ⟨hw.keys, List.nodup_singleton _, ?_⟩
      intro k hk k' hk' he
      obtain ⟨r, hr, rfl⟩ := List.mem_map.mp hk
      rw [List.map_singleton, List.mem_singleton] at hk'
      exact hkey r hr (he.trans hk')
    · intro r hr
      rcases List.mem_append.mp hr with hr | hr
      · exact hw.saved r hr
      · rw [List.mem_singleton.mp hr]
        exact Nat.one_ne_zero
    · intro r hr
      rcases List.mem_append.mp hr with hr | hr
      · exact hw.storable r hr
      · rw [List.mem_singleton.mp hr]
        exact hstorable
  | replaced hsplit hkey hversion hold hstorable =>
    obtain ⟨hkeys, hsaved, hstored⟩ := hw
    rw [hsplit] at hkeys hsaved hstored
    constructor
    · simpa [hkey] using hkeys
    · intro r hr
      rcases List.mem_append.mp hr with hr | hr
      · exact hsaved r (List.mem_append_left _ hr)
      · rcases List.mem_cons.mp hr with rfl | hr
        · exact Nat.succ_ne_zero _
        · exact hsaved r (List.mem_append_right _ (List.mem_cons_of_mem _ hr))
    · intro r hr
      rcases List.mem_append.mp hr with hr | hr
      · exact hstored r (List.mem_append_left _ hr)
      · rcases List.mem_cons.mp hr with rfl | hr
        · exact hstorable
        · exact hstored r (List.mem_append_right _ (List.mem_cons_of_mem _ hr))

omit [DecidableEq κ] in
theorem Precedes.refl (S : Schema α κ) (t : Table α) : Precedes S t t := by
  intro r hr
  exact ⟨r, hr, rfl, Nat.le_refl _, fun _ => rfl⟩

omit [DecidableEq κ] in
theorem Precedes.trans (h : Precedes S t u) (h' : Precedes S u w) : Precedes S t w := by
  intro r hr
  obtain ⟨r', hr', hkey, hle, hsame⟩ := h r hr
  obtain ⟨r'', hr'', hkey', hle', hsame'⟩ := h' r' hr'
  refine ⟨r'', hr'', hkey'.trans hkey, Nat.le_trans hle hle', ?_⟩
  intro hv
  have hv' : r'.version = r.version := by omega
  have hv'' : r''.version = r'.version := by omega
  rw [hsame' hv'', hsame hv']

omit [DecidableEq κ] in
theorem Saved.precedes (h : Saved S store s store') : Precedes S store.table store'.table := by
  cases h with
  | inserted hnew hstorable hkey hclash =>
    intro r hr
    exact ⟨r, List.mem_append_left _ hr, rfl, Nat.le_refl _, fun _ => rfl⟩
  | @replaced before after old hsplit hkey hversion hold hstorable =>
    intro r hr
    rw [hsplit] at hr
    rcases List.mem_append.mp hr with hr | hr
    · exact ⟨r, List.mem_append_left _ hr, rfl, Nat.le_refl _, fun _ => rfl⟩
    · rcases List.mem_cons.mp hr with rfl | hr
      · refine ⟨⟨s.row.value, s.row.version + 1⟩, ?_, hkey.symm, ?_, ?_⟩
        · exact List.mem_append_right _ List.mem_cons_self
        · rw [hversion]
          exact Nat.le_succ _
        · intro hv
          change s.row.version + 1 = r.version at hv
          omega
      · exact ⟨r, List.mem_append_right _ (List.mem_cons_of_mem _ hr), rfl, Nat.le_refl _,
          fun _ => rfl⟩

omit [DecidableEq κ] in
theorem Precedes.read {r₀ : Row α} (hw : WellKept S u) (h : Precedes S t u) (hr₀ : r₀ ∈ t)
    (hr : r ∈ u) (hkey : S.key r.value = S.key r₀.value) (hversion : r.version = r₀.version) :
    r = r₀ := by
  obtain ⟨r', hr', hkey', _, hsame⟩ := h r₀ hr₀
  have hrr' : r' = r := by
    apply List.inj_on_of_nodup_map hw.keys hr' hr
    exact hkey'.trans hkey.symm
  rw [← hrr'] at hversion ⊢
  exact hsame hversion

omit [DecidableEq κ] in
theorem Saved.replaces (h : Saved S store s store') (hw : WellKept S store.table)
    (hp : Precedes S t store.table) (hr : r ∈ t) (hkey : S.key r.value = S.key s.row.value)
    (hversion : r.version = s.row.version) :
    ∃ others, store.table.Perm (r :: others) ∧
      store'.table.Perm (⟨s.row.value, s.row.version + 1⟩ :: others) := by
  cases h with
  | inserted hnew hstorable hfresh hclash =>
    obtain ⟨r', hr', hkey', _⟩ := hp r hr
    exact absurd (hkey'.trans hkey) (hfresh r' hr')
  | @replaced before after old hsplit hkey' hversion' _ hstorable =>
    have hold : old ∈ store.table := by
      rw [hsplit]
      exact List.mem_append_right _ List.mem_cons_self
    have hread : old = r :=
      hp.read hw hr hold (hkey'.trans hkey.symm) (hversion'.trans hversion.symm)
    refine ⟨before ++ after, ?_, List.perm_middle⟩
    rw [hsplit, hread]
    exact List.perm_middle

omit [DecidableEq κ] in
theorem Saved.inserts (h : Saved S store s store') (hnew : s.row.version = 0) :
    store'.table.Perm (⟨s.row.value, 1⟩ :: store.table) := by
  cases h with
  | inserted => exact List.perm_append_singleton _ _
  | replaced hsplit hkey hversion hold hstorable => exact absurd hnew hold

theorem commit_nil (S : Schema α κ) (store : Store α ν) : commit S store [] = some store := rfl

theorem commit_cons {rest : List (Save α ν)} :
    commit S store (s :: rest) = some store' ↔
      ∃ next, save S store s = some next ∧ commit S next rest = some store' := by
  rw [commit, List.foldlM_cons]
  exact Option.bind_eq_some_iff

theorem commit_invariant {I : Store α ν → Prop} {J : Table α → Save α ν → Prop}
    (step : ∀ store s store', I store → WellKept S store.table → Precedes S t store.table → J t s →
      Saved S store s store' → I store') {saves : List (Save α ν)} (hi : I store)
    (hw : WellKept S store.table) (hp : Precedes S t store.table) (hj : ∀ s ∈ saves, J t s)
    (h : commit S store saves = some store') :
    I store' ∧ WellKept S store'.table ∧ Precedes S store.table store'.table := by
  induction saves generalizing store with
  | nil =>
    rw [commit_nil] at h
    cases h
    exact ⟨hi, hw, .refl _ _⟩
  | cons s rest ih =>
    obtain ⟨mid, hs, hrest⟩ := commit_cons.mp h
    have hsaved := save_saved hw hs
    have hmid := step _ _ _ hi hw hp (hj s List.mem_cons_self) hsaved
    obtain ⟨hi', hw', hp'⟩ := ih hmid (hsaved.wellKept hw) (hp.trans hsaved.precedes)
      (fun s hs => hj s (List.mem_cons_of_mem _ hs)) hrest
    exact ⟨hi', hw', hsaved.precedes.trans hp'⟩

end Saves

inductive Outcome (α ν π : Type*) where
  | answer (next : π)
  | save (saves : List (Save α ν)) (next : π)

inductive Call (α ν π : Type*) where
  | ready (point : π)
  | saving (point : π) (saves : List (Save α ν)) (next : π)
  | crashed

def Call.point? {α ν π : Type*} : Call α ν π → Option π
  | .ready point => some point
  | .saving point _ _ => some point
  | .crashed => none

/-- `body` is the transaction that a point is about to run, on a fresh number and the table it
reads; `conflict` is where a failed save leads. -/
structure Protocol (α ν π : Type*) where
  body : π → Option (ℕ → Table α → Outcome α ν π)
  conflict : π → π

structure State (α ν π ι : Type*) where
  store : Store α ν
  draws : ℕ
  calls : ι → Call α ν π

inductive Label (ι : Type*) where
  | read (c : ι)
  | write (c : ι)
  | crash (c : ι)

variable [DecidableEq ι]

def State.setCall (s : State α ν π ι) (c : ι) (x : Call α ν π) : State α ν π ι :=
  { s with calls := Function.update s.calls c x }

/-- One step of the system, when the label is enabled. -/
def next (S : Schema α κ) (P : Protocol α ν π) (s : State α ν π ι) :
    Label ι → Option (State α ν π ι)
  | .read c =>
    match s.calls c with
    | .ready k =>
      match P.body k with
      | none => none
      | some b =>
        match b s.draws s.store.table with
        | .answer k' => some { s.setCall c (.ready k') with draws := s.draws + 1 }
        | .save saves k' => some { s.setCall c (.saving k saves k') with draws := s.draws + 1 }
    | _ => none
  | .write c =>
    match s.calls c with
    | .saving k saves k' =>
      match commit S s.store saves with
      | some store => some { s.setCall c (.ready k') with store := store }
      | none => some (s.setCall c (.ready (P.conflict k)))
    | _ => none
  | .crash c => some (s.setCall c .crashed)

/-- The call whose step it is. -/
def Label.call : Label ι → ι
  | read c | write c | crash c => c

def Step (S : Schema α κ) (P : Protocol α ν π) (s : State α ν π ι) (l : Label ι)
    (u : State α ν π ι) : Prop :=
  next S P s l = some u

def transact (S : Schema α κ) (P : Protocol α ν π) (draw : ℕ) (store : Store α ν) (k : π) :
    Store α ν × π :=
  match P.body k with
  | none => (store, k)
  | some b =>
    match b draw store.table with
    | .answer k' => (store, k')
    | .save saves k' =>
      match commit S store saves with
      | some store' => (store', k')
      | none => (store, P.conflict k)

/-- No call has begun a transaction. -/
def Quiet (s : State α ν π ι) : Prop := ∀ c k saves k', s.calls c ≠ .saving k saves k'

/-- Everything a step can be. -/
inductive Move (S : Schema α κ) (P : Protocol α ν π) (s : State α ν π ι) :
    Label ι → State α ν π ι → Prop where
  | answer {c k b k'} : s.calls c = .ready k → P.body k = some b →
      b s.draws s.store.table = .answer k' →
      Move S P s (.read c) { s.setCall c (.ready k') with draws := s.draws + 1 }
  | begin {c k b saves k'} : s.calls c = .ready k → P.body k = some b →
      b s.draws s.store.table = .save saves k' →
      Move S P s (.read c) { s.setCall c (.saving k saves k') with draws := s.draws + 1 }
  | commit {c k saves k' store} : s.calls c = .saving k saves k' →
      commit S s.store saves = some store →
      Move S P s (.write c) { s.setCall c (.ready k') with store := store }
  | lose {c k saves k'} : s.calls c = .saving k saves k' → commit S s.store saves = none →
      Move S P s (.write c) (s.setCall c (.ready (P.conflict k)))
  | crash {c} : Move S P s (.crash c) (s.setCall c .crashed)

section Steps

variable {S : Schema α κ} {P : Protocol α ν π} {s u : State α ν π ι}

theorem step_move {l : Label ι} (h : Step S P s l u) : Move S P s l u := by
  cases l with
  | read c =>
    simp only [Step, next] at h
    split at h
    · rename_i k hc
      split at h
      · cases h
      · rename_i b hb
        split at h
        · rename_i k' ho
          cases h
          exact .answer hc hb ho
        · rename_i saves k' ho
          cases h
          exact .begin hc hb ho
    · cases h
  | write c =>
    simp only [Step, next] at h
    split at h
    · rename_i k saves k' hc
      split at h
      · rename_i store hstore
        cases h
        exact .commit hc hstore
      · rename_i hnone
        cases h
        exact .lose hc hnone
    · cases h
  | crash c =>
    cases h
    exact .crash

/-- The table is well kept, and every pending save was worked out from an earlier table on
which the invariant held. -/
structure Coherent (S : Schema α κ) (P : Protocol α ν π) (I : Store α ν → Prop)
    (s : State α ν π ι) : Prop where
  wellKept : WellKept S s.store.table
  invariant : I s.store
  pending : ∀ c k saves k', s.calls c = .saving k saves k' → ∃ b d store, P.body k = some b ∧
    b d store.table = .save saves k' ∧ WellKept S store.table ∧ I store ∧
    Precedes S store.table s.store.table

variable {I : Store α ν → Prop} {J : Table α → Save α ν → Prop}

omit [DecidableEq κ] in
theorem Coherent.release {c : ι} {x : Call α ν π} (h : Coherent S P I s)
    (hx : ∀ k saves k', x ≠ .saving k saves k') (hcalls : u.calls = (s.setCall c x).calls)
    (hw : WellKept S u.store.table) (hi : I u.store)
    (hp : Precedes S s.store.table u.store.table) : Coherent S P I u := by
  refine ⟨hw, hi, ?_⟩
  intro c' k saves k' hc'
  simp only [hcalls, State.setCall] at hc'
  by_cases hc : c' = c
  · subst c'
    rw [Function.update_self] at hc'
    exact absurd hc' (hx k saves k')
  · rw [Function.update_of_ne hc] at hc'
    obtain ⟨b, d, store, hb, ho, hw, hi, hbefore⟩ := h.pending c' k saves k' hc'
    exact ⟨b, d, store, hb, ho, hw, hi, hbefore.trans hp⟩

def Justified (S : Schema α κ) (P : Protocol α ν π) (I : Store α ν → Prop)
    (J : Table α → Save α ν → Prop) : Prop :=
  ∀ k b d store saves k', P.body k = some b → WellKept S store.table → I store →
    b d store.table = .save saves k' → ∀ s ∈ saves, J store.table s

def Keeps (S : Schema α κ) (I : Store α ν → Prop) (J : Table α → Save α ν → Prop) : Prop :=
  ∀ t store s store', I store → WellKept S store.table → Precedes S t store.table → J t s →
    Saved S store s store' → I store'

theorem coherent_step {l : Label ι} (just : Justified S P I J) (keeps : Keeps S I J)
    (h : Coherent S P I s) (hst : Step S P s l u) : Coherent S P I u := by
  cases step_move hst with
  | answer hc hb ho =>
    exact h.release (by simp) rfl h.wellKept h.invariant (.refl _ _)
  | @begin c k b saves k' hc hb ho =>
    refine ⟨h.wellKept, h.invariant, ?_⟩
    intro c' k₁ saves₁ k₁' hc'
    by_cases hcc : c' = c
    · subst c'
      simp only [State.setCall, Function.update_self, Call.saving.injEq] at hc'
      obtain ⟨rfl, rfl, rfl⟩ := hc'
      exact ⟨b, s.draws, s.store, hb, ho, h.wellKept, h.invariant, .refl _ _⟩
    · simp only [State.setCall, Function.update_of_ne hcc] at hc'
      exact h.pending c' k₁ saves₁ k₁' hc'
  | commit hc hcommit =>
    obtain ⟨b, d, store, hb, ho, hw, hi, hp⟩ := h.pending _ _ _ _ hc
    obtain ⟨hi', hw', hp'⟩ := commit_invariant (keeps store.table) h.invariant h.wellKept hp
      (just _ b d store _ _ hb hw hi ho) hcommit
    exact h.release (by simp) rfl hw' hi' hp'
  | lose hc hnone | crash =>
    exact h.release (by simp) rfl h.wellKept h.invariant (.refl _ _)

omit [DecidableEq ι] in
theorem transact_invariant {draw : ℕ} {store : Store α ν} {k : π} (just : Justified S P I J)
    (keeps : Keeps S I J) (hw : WellKept S store.table) (hi : I store) :
    WellKept S (transact S P draw store k).1.table ∧ I (transact S P draw store k).1 := by
  rw [transact]
  split
  · exact ⟨hw, hi⟩
  · rename_i b hb
    split
    · exact ⟨hw, hi⟩
    · rename_i saves k' ho
      split
      · rename_i store' hcommit
        obtain ⟨hi', hw', _⟩ := commit_invariant (keeps store.table) hi hw (.refl _ _)
          (just k b draw store saves k' hb hw hi ho) hcommit
        exact ⟨hw', hi'⟩
      · exact ⟨hw, hi⟩

theorem reachable_coherent {Start : State α ν π ι → Prop} (quiet : ∀ s, Start s → Quiet s)
    (start : ∀ s, Start s → WellKept S s.store.table ∧ I s.store) (just : Justified S P I J)
    (keeps : Keeps S I J) (h : Reachable Start (Step S P) s) : Coherent S P I s := by
  refine reachable_invariant ?_ ?_ h
  · intro s hs
    obtain ⟨hw, hi⟩ := start s hs
    exact ⟨hw, hi, fun c k saves k' hc => absurd hc (quiet s hs c k saves k')⟩
  · intro s l u hc hst
    exact coherent_step just keeps hc hst

end Steps

end VersionedTable
