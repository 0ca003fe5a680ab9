import Lumo.LabelledRuns
import Lumo.SharedKernel
import Mathlib.Data.List.Sort
import Mathlib.Logic.Function.Basic

/-! # Consent decisions

A customer's consents are a log, in memory in the order of the decisions. The rows of the log are
inserted as a set and read back by their time; rows of one time come back in any order. -/
namespace Identity

open SharedKernel LabelledRuns

inductive ConsentScope where
  | marketing
  | analytics
  | data_sharing
  deriving DecidableEq

def ConsentScope.create (value : String) : Except DomainError ConsentScope :=
  if value = "marketing" then .ok .marketing
  else if value = "analytics" then .ok .analytics
  else if value = "data_sharing" then .ok .data_sharing
  else .error (.validation "Invalid consent scope"
    [⟨"scope", "must be one of: marketing, analytics, data_sharing"⟩])

structure ConsentRecord where
  id : UniqueEntityId
  scope : ConsentScope
  granted : Bool
  occurredAt : ℤ
  deriving DecidableEq

/-- What a customer is loaded with. -/
structure LoadedCustomer where
  version : ℕ
  consents : List ConsentRecord

/-- The last record of the scope decides. -/
def consentFor (consents : List ConsentRecord) (scope : ConsentScope) : Bool :=
  match consents.reverse.find? fun record => record.scope = scope with
  | some record => record.granted
  | none => false

def LoadedCustomer.changeConsent (customer : LoadedCustomer) (record : ConsentRecord) :
    LoadedCustomer :=
  { customer with consents := customer.consents ++ [record] }

/-- `createMany` with `skipDuplicates`. -/
def insertConsents (rows records : List ConsentRecord) : List ConsentRecord :=
  records.foldl (fun rows record => if record.id ∈ rows.map (·.id) then rows else rows ++ [record])
    rows

/-- The rows `ORDER BY occurredAt`. -/
def InTimeOrder (rows consents : List ConsentRecord) : Prop :=
  consents.Perm rows ∧ consents.Pairwise fun a b => a.occurredAt ≤ b.occurredAt

/-- Of the scope, and of its latest time. -/
structure IsLatest (rows : List ConsentRecord) (scope : ConsentScope) (record : ConsentRecord) :
    Prop where
  mem : record ∈ rows
  about : record.scope = scope
  latest : ∀ other ∈ rows, other.scope = scope → other.occurredAt ≤ record.occurredAt

variable {ι : Type} [DecidableEq ι]

/-- The stored customer, the decisions in the order of their commits, and what each call loaded. -/
structure ConsentTable (ι : Type) where
  version : ℕ
  rows : List ConsentRecord
  committed : List ConsentRecord
  loaded : ι → Option LoadedCustomer

inductive ConsentTurn (ι : Type) where
  | loads (call : ι) (consents : List ConsentRecord)
  | changes (call : ι) (scope : String) (granted : Bool) (consentId : UniqueEntityId) (now : ℤ)

namespace ConsentTable

/-- The save goes through for the version that was loaded. -/
def Current (table : ConsentTable ι) (call : ι) : Prop :=
  ∃ customer, table.loaded call = some customer ∧ customer.version = table.version

def save (table : ConsentTable ι) (customer : LoadedCustomer) (record : ConsentRecord) :
    ConsentTable ι :=
  if customer.version = table.version then
    { table with
      version := table.version + 1
      rows := insertConsents table.rows (customer.changeConsent record).consents
      committed := table.committed ++ [record] }
  else table

def next (table : ConsentTable ι) : ConsentTurn ι → ConsentTable ι
  | .loads call consents =>
    { table with loaded := Function.update table.loaded call (some ⟨table.version, consents⟩) }
  | .changes call scope granted consentId now =>
    match ConsentScope.create scope, table.loaded call with
    | .ok scope, some customer =>
      { table.save customer ⟨consentId, scope, granted, now⟩ with
        loaded := Function.update table.loaded call none }
    | _, _ => table

/-- The rows are read in some order of their times; a generated id is new. -/
def Allowed (table : ConsentTable ι) : ConsentTurn ι → Prop
  | .loads _ consents => InTimeOrder table.rows consents
  | .changes _ _ _ consentId _ => consentId ∉ table.rows.map (·.id)

def Step (table : ConsentTable ι) (turn : ConsentTurn ι) (table' : ConsentTable ι) : Prop :=
  table.Allowed turn ∧ table' = table.next turn

/-- However the log is read back, the last decision of every scope counts and none is missing. -/
structure LastCounts (table : ConsentTable ι) : Prop where
  last : ∀ consents, InTimeOrder table.rows consents → ∀ scope,
    consentFor consents scope = consentFor table.committed scope
  kept : ∀ consents, InTimeOrder table.rows consents → ∀ record ∈ table.committed,
    record ∈ consents

/-- A decision that is saved comes later than those of its scope, or says what the latest say. -/
def LaterOrSame (table : ConsentTable ι) : ConsentTurn ι → Prop
  | .loads _ _ => True
  | .changes call scope granted _ now => ∀ decided, ConsentScope.create scope = .ok decided →
      table.Current call → ∀ record, IsLatest table.rows decided record →
        now ≤ record.occurredAt → record.granted = granted

end ConsentTable

section Reading

variable {rows consents before after : List ConsentRecord} {scope : ConsentScope}
  {record : ConsentRecord}

theorem consentFor_concat (consents : List ConsentRecord) (record : ConsentRecord)
    (scope : ConsentScope) : consentFor (consents ++ [record]) scope =
      if record.scope = scope then record.granted else consentFor consents scope := by
  by_cases hscope : record.scope = scope <;> simp [consentFor, hscope]

theorem consentFor_last (hscope : record.scope = scope) (hafter : ∀ r ∈ after, r.scope ≠ scope) :
    consentFor (before ++ record :: after) scope = record.granted := by
  have hnone : (after.reverse.find? fun r => r.scope = scope) = none := by
    simpa [List.find?_eq_none] using hafter
  simp [consentFor, List.find?_append, hnone, hscope]

theorem consentFor_none (h : ∀ r ∈ consents, r.scope ≠ scope) : consentFor consents scope = false := by
  have hnone : (consents.reverse.find? fun r => r.scope = scope) = none := by
    simpa [List.find?_eq_none] using h
  simp [consentFor, hnone]

/-- The record that decides is of the latest time. -/
theorem exists_isLatest (h : InTimeOrder rows consents) (hsome : ∃ r ∈ rows, r.scope = scope) :
    ∃ record, IsLatest rows scope record ∧ consentFor consents scope = record.granted := by
  obtain ⟨hperm, hsorted⟩ := h
  obtain ⟨r, hr, hrscope⟩ := hsome
  have hfound : (consents.reverse.find? fun r => r.scope = scope).isSome := by
    rw [List.find?_isSome]
    exact ⟨r, List.mem_reverse.mpr (hperm.mem_iff.mpr hr), by simp [hrscope]⟩
  obtain ⟨record, hrecord⟩ := Option.isSome_iff_exists.mp hfound
  obtain ⟨hscope, later, earlier, hsplit, hlater⟩ := List.find?_eq_some_iff_append.mp hrecord
  have hconsents : consents = earlier.reverse ++ record :: later.reverse := by
    rw [← List.reverse_reverse consents, hsplit]
    simp
  refine ⟨record, ⟨?_, of_decide_eq_true hscope, ?_⟩, by simp [consentFor, hrecord]⟩
  · exact hperm.mem_iff.mp (by simp [hconsents])
  · intro other hother hotherScope
    rw [hconsents] at hsorted
    have hmem := hperm.mem_iff.mpr hother
    rw [hconsents] at hmem
    rcases List.mem_append.mp hmem with hbefore | hrest
    · exact (List.pairwise_append.mp hsorted).2.2 other hbefore record List.mem_cons_self
    · rcases List.mem_cons.mp hrest with rfl | hafter
      · exact le_rfl
      · have hne := hlater other (List.mem_reverse.mp hafter)
        simp [hotherScope] at hne

/-- Each record of the latest time may come last. -/
theorem exists_inTimeOrder (h : IsLatest rows scope record) :
    ∃ consents, InTimeOrder rows consents ∧ consentFor consents scope = record.granted := by
  let sorted := (rows.erase record).insertionSort fun a b => a.occurredAt ≤ b.occurredAt
  let upTo : ConsentRecord → Bool := fun r => r.occurredAt ≤ record.occurredAt
  have hsorted : sorted.Pairwise fun a b => a.occurredAt ≤ b.occurredAt :=
    List.pairwise_insertionSort _ _
  have hperm : sorted.Perm (rows.erase record) := List.perm_insertionSort _ _
  have hlater : ∀ r ∈ sorted.filter (!upTo ·), record.occurredAt < r.occurredAt := by
    intro r hr
    simpa [upTo] using (List.mem_filter.mp hr).2
  refine ⟨sorted.filter upTo ++ record :: sorted.filter (!upTo ·), ⟨?_, ?_⟩, ?_⟩
  · have hrest := (sorted.filter_append_perm upTo).trans hperm
    exact List.perm_middle.trans ((hrest.cons record).trans (List.perm_cons_erase h.mem).symm)
  · refine List.pairwise_append.mpr ⟨hsorted.filter _, List.pairwise_cons.mpr ⟨?_, hsorted.filter _⟩,
      ?_⟩
    · exact fun r hr => (hlater r hr).le
    · intro a ha b hb
      have hlow : a.occurredAt ≤ record.occurredAt := by
        simpa [upTo] using (List.mem_filter.mp ha).2
      rcases List.mem_cons.mp hb with rfl | hb
      · exact hlow
      · exact hlow.trans (hlater b hb).le
  · refine consentFor_last h.about ?_
    intro r hr hrscope
    have hmem := List.mem_of_mem_erase (hperm.mem_iff.mp (List.mem_filter.mp hr).1)
    exact (h.latest r hmem hrscope).not_gt (hlater r hr)

end Reading

namespace ConsentTable

/-- Every record of the latest time says what the last decision of its scope was. -/
def Settled (table : ConsentTable ι) : Prop := ∀ scope record, IsLatest table.rows scope record →
  record.granted = consentFor table.committed scope

/-- What always holds of the rows and of what was loaded. -/
structure Stored (table : ConsentTable ι) : Prop where
  rows : table.rows = table.committed
  loaded : ∀ call customer, table.loaded call = some customer →
    ∀ record ∈ customer.consents, record ∈ table.rows

omit [DecidableEq ι] in
theorem lastCounts_iff {table : ConsentTable ι} (h : Stored table) :
    LastCounts table ↔ Settled table := by
  constructor
  · intro hlast scope record hrecord
    obtain ⟨consents, horder, hconsent⟩ := exists_inTimeOrder hrecord
    rw [← hconsent, hlast.last consents horder]
  · intro hsettled
    refine ⟨fun consents horder scope => ?_, fun consents horder record hrecord => ?_⟩
    · by_cases hsome : ∃ r ∈ table.rows, r.scope = scope
      · obtain ⟨record, hrecord, hconsent⟩ := exists_isLatest horder hsome
        rw [hconsent, hsettled scope record hrecord]
      · have hnone : ∀ r ∈ table.rows, r.scope ≠ scope := fun r hr hscope => hsome ⟨r, hr, hscope⟩
        rw [consentFor_none fun r hr => hnone r (horder.1.mem_iff.mp hr), ← h.rows,
          consentFor_none hnone]
    · rw [horder.1.mem_iff, h.rows]
      exact hrecord

theorem insertConsents_known {rows known : List ConsentRecord} {record : ConsentRecord}
    (hknown : ∀ r ∈ known, r ∈ rows) (hnew : record.id ∉ rows.map (·.id)) :
    insertConsents rows (known ++ [record]) = rows ++ [record] := by
  induction known with
  | nil =>
    rw [insertConsents, List.nil_append, List.foldl_cons, if_neg hnew]
    rfl
  | cons r known ih =>
    have hr : r.id ∈ rows.map (·.id) := List.mem_map_of_mem (hknown r List.mem_cons_self)
    have hrest := ih fun r hr => hknown r (List.mem_cons_of_mem _ hr)
    rw [insertConsents] at hrest ⊢
    rw [List.cons_append, List.foldl_cons, if_pos hr, hrest]

variable {table table' : ConsentTable ι} {turn : ConsentTurn ι}

theorem Stored.forget (h : Stored table) (call : ι) :
    Stored { table with loaded := Function.update table.loaded call none } := by
  refine ⟨h.rows, fun other customer hother => ?_⟩
  simp only [Function.update_apply] at hother
  split at hother
  · cases hother
  · exact h.loaded other customer hother

omit [DecidableEq ι] in
theorem Stored.add (h : Stored table) (record : ConsentRecord) (version : ℕ) :
    Stored { table with
      version
      rows := table.rows ++ [record]
      committed := table.committed ++ [record] } :=
  ⟨congrArg (· ++ [record]) h.rows, fun call customer hloaded r hr =>
    List.mem_append_left _ (h.loaded call customer hloaded r hr)⟩

/-- A turn commits one decision, or leaves the rows as they are. -/
theorem step_cases (h : Stored table) (hstep : table.Step turn table') : Stored table' ∧
    ((table'.rows = table.rows ∧ table'.committed = table.committed ∧ LaterOrSame table turn) ∨
      ∃ call text granted consentId now scope,
        turn = .changes call text granted consentId now ∧ ConsentScope.create text = .ok scope ∧
          table.Current call ∧ table'.rows = table.rows ++ [⟨consentId, scope, granted, now⟩] ∧
            table'.committed = table.committed ++ [⟨consentId, scope, granted, now⟩]) := by
  obtain ⟨hallowed, rfl⟩ := hstep
  cases turn with
  | loads call consents =>
    refine ⟨⟨h.rows, fun other customer hother => ?_⟩, .inl ⟨rfl, rfl, trivial⟩⟩
    simp only [next, Function.update_apply] at hother
    split at hother
    · cases hother
      exact fun record hrecord => hallowed.1.mem_iff.mp hrecord
    · exact h.loaded other customer hother
  | changes call text granted consentId now =>
    cases hscope : ConsentScope.create text with
    | error e =>
      have hstill : table.next (.changes call text granted consentId now) = table := by
        simp [next, hscope]
      rw [hstill]
      refine ⟨h, .inl ⟨rfl, rfl, fun decided hdecided => ?_⟩⟩
      rw [hscope] at hdecided
      cases hdecided
    | ok scope =>
      cases hloaded : table.loaded call with
      | none =>
        have hstill : table.next (.changes call text granted consentId now) = table := by
          simp [next, hscope, hloaded]
        rw [hstill]
        refine ⟨h, .inl ⟨rfl, rfl, fun _ _ hcurrent => ?_⟩⟩
        obtain ⟨customer, hcustomer, -⟩ := hcurrent
        rw [hloaded] at hcustomer
        cases hcustomer
      | some customer =>
        have hsaved : table.next (.changes call text granted consentId now) =
            { table.save customer ⟨consentId, scope, granted, now⟩ with
              loaded := Function.update table.loaded call none } := by
          simp [next, hscope, hloaded]
        rw [hsaved]
        by_cases hversion : customer.version = table.version
        · have hfresh : consentId ∉ table.rows.map (·.id) := hallowed
          rw [save, if_pos hversion, LoadedCustomer.changeConsent,
            insertConsents_known (h.loaded call customer hloaded) hfresh]
          exact ⟨(h.add _ _).forget call, .inr ⟨call, text, granted, consentId, now, scope, rfl,
            hscope, ⟨customer, hloaded, hversion⟩, rfl, rfl⟩⟩
        · rw [save, if_neg hversion]
          refine ⟨h.forget call, .inl ⟨rfl, rfl, fun _ _ hcurrent => ?_⟩⟩
          obtain ⟨other, hother, hsame⟩ := hcurrent
          rw [hloaded] at hother
          cases hother
          exact absurd hsame hversion

/-- The latest records of the other scopes stay; those of the scope come from the decision. -/
theorem isLatest_concat {rows : List ConsentRecord} {new record : ConsentRecord}
    {scope : ConsentScope} : IsLatest (rows ++ [new]) scope record ↔
      (IsLatest rows scope record ∧ (new.scope = scope → new.occurredAt ≤ record.occurredAt)) ∨
        (record = new ∧ new.scope = scope ∧
          ∀ r ∈ rows, r.scope = scope → r.occurredAt ≤ new.occurredAt) := by
  constructor
  · intro h
    rcases List.mem_append.mp h.mem with hold | hnew
    · refine .inl ⟨⟨hold, h.about, fun r hr => h.latest r (List.mem_append_left _ hr)⟩, ?_⟩
      exact h.latest new (by simp)
    · obtain rfl := List.mem_singleton.mp hnew
      exact .inr ⟨rfl, h.about, fun r hr => h.latest r (List.mem_append_left _ hr)⟩
  · rintro (⟨h, hnew⟩ | ⟨rfl, hscope, hrows⟩)
    · refine ⟨List.mem_append_left _ h.mem, h.about, fun r hr hrscope => ?_⟩
      rcases List.mem_append.mp hr with hold | hlast
      · exact h.latest r hold hrscope
      · obtain rfl := List.mem_singleton.mp hlast
        exact hnew hrscope
    · refine ⟨by simp, hscope, fun r hr hrscope => ?_⟩
      rcases List.mem_append.mp hr with hold | hlast
      · exact hrows r hold hrscope
      · rw [List.mem_singleton.mp hlast]

def Known (table : ConsentTable ι) : Prop := Stored table ∧ Settled table

theorem Known.step (h : Known table) (hstep : table.Step turn table')
    (hlater : LaterOrSame table turn) : Known table' := by
  obtain ⟨hstored, hsettled⟩ := h
  obtain ⟨hstored', ⟨hrows, hcommitted, -⟩ | ⟨call, text, granted, consentId, now, scope, rfl, hscope,
    hcurrent, hrows, hcommitted⟩⟩ := step_cases hstored hstep
  · refine ⟨hstored', fun scope record hrecord => ?_⟩
    rw [hcommitted]
    exact hsettled scope record (hrows ▸ hrecord)
  refine ⟨hstored', fun other record hrecord => ?_⟩
  rw [hcommitted, consentFor_concat]
  rw [hrows, isLatest_concat] at hrecord
  rcases hrecord with ⟨hold, htime⟩ | ⟨rfl, habout, -⟩
  · by_cases hsame : scope = other
    · subst hsame
      rw [if_pos rfl]
      exact hlater scope hscope hcurrent record hold (htime rfl)
    · rw [if_neg hsame]
      exact hsettled other record hold
  · rw [if_pos habout]

theorem Known.broken (h : Known table) (hstep : table.Step turn table')
    (hlater : ¬ LaterOrSame table turn) : ¬ LastCounts table' := by
  obtain ⟨hstored, -⟩ := h
  obtain ⟨hstored', ⟨-, -, hsame⟩ | ⟨call, text, granted, consentId, now, scope, rfl, hscope,
    hcurrent, hrows, hcommitted⟩⟩ := step_cases hstored hstep
  · exact absurd hsame hlater
  rw [lastCounts_iff hstored']
  intro hsettled
  apply hlater
  intro decided hdecided _ record hrecord htime
  obtain rfl : scope = decided := Except.ok.inj (hscope.symm.trans hdecided)
  have hlatest : IsLatest table'.rows scope record := by
    rw [hrows, isLatest_concat]
    exact .inl ⟨hrecord, fun _ => htime⟩
  rw [hsettled scope record hlatest, hcommitted, consentFor_concat, if_pos rfl]

/-- A customer who was just registered. -/
structure Registered (table : ConsentTable ι) : Prop where
  rows : table.rows = []
  committed : table.committed = []
  loaded : ∀ call, table.loaded call = none

end ConsentTable

open ConsentTable

/-- The last decision counts in every state exactly when no decision is saved with a time at which,
or before which, its scope was last decided otherwise. -/
theorem run_lastCounts_iff {table : ConsentTable ι} {tr : List (ConsentTurn ι × ConsentTable ι)}
    (hregistered : Registered table) (hrun : Run ConsentTable.Step table tr) :
    Always LastCounts table tr ↔ EveryStep LaterOrSame table tr := by
  have hknown : Known table := by
    refine ⟨⟨hregistered.rows.trans hregistered.committed.symm, ?_⟩, ?_⟩
    · intro call customer hloaded
      simp [hregistered.loaded] at hloaded
    · intro scope record hrecord
      have := hrecord.mem
      simp [hregistered.rows] at this
  exact always_iff_everyStep (fun _ _ _ => Known.step)
    (fun _ h => (lastCounts_iff h.1).mpr h.2) (fun _ _ _ => Known.broken) hknown hrun

private def registered : ConsentTable Unit := ⟨1, [], [], fun _ => none⟩

private theorem registered_new : Registered registered := ⟨rfl, rfl, fun _ => rfl⟩

private def grant : ConsentRecord := ⟨⟨"consent-1", by decide⟩, .marketing, true, 5⟩

/-- A grant, and a revocation at the given time. -/
private def decisions (now : ℤ) : List (ConsentTurn Unit × ConsentTable Unit) :=
  follow ConsentTable.next registered [.loads () [], .changes () "marketing" true grant.id 5,
    .loads () [grant], .changes () "marketing" false ⟨"consent-2", by decide⟩ now]

private theorem run_decisions (now : ℤ) : Run ConsentTable.Step registered (decisions now) := by
  have hfirst : grant.id ∉ ([] : List UniqueEntityId) := List.not_mem_nil
  have hsecond : (⟨"consent-2", by decide⟩ : UniqueEntityId) ∉ [grant.id] := by decide
  exact ⟨⟨⟨.refl _, by simp⟩, rfl⟩, ⟨hfirst, rfl⟩, ⟨⟨.refl _, by simp⟩, rfl⟩, ⟨hsecond, rfl⟩, trivial⟩

/-- The revocation comes a millisecond later. -/
theorem run_lastCounts_decisions : Always LastCounts registered (decisions 6) := by
  refine (run_lastCounts_iff registered_new (run_decisions 6)).mpr ⟨trivial, ?_, trivial, ?_, trivial⟩
  · intro _ _ _ record hrecord
    cases hrecord.mem
  · intro _ _ _ record hrecord hlater
    obtain rfl : record = grant := List.mem_singleton.mp hrecord.mem
    revert hlater
    decide

/-- The revocation has the time of the grant, and is read back before it. -/
theorem lastCounts_fails : ¬ ∀ (table : ConsentTable Unit)
    (tr : List (ConsentTurn Unit × ConsentTable Unit)), Registered table →
      Run ConsentTable.Step table tr → Always LastCounts table tr := by
  intro h
  have hlast := (h registered (decisions 5) registered_new (run_decisions 5)).last.last
    [⟨⟨"consent-2", by decide⟩, .marketing, false, 5⟩, grant]
    ⟨.swap _ _ _, by simp [grant]⟩ .marketing
  revert hlast
  decide

end Identity
