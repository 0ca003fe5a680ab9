import Lumo.Decimals
import Lumo.OptimisticTransactions
import Lumo.SharedKernel

/-! # `Credit`: a billing credit and the calls that consume and expire it

An amount is a number of JavaScript and stands for its decimal text. Events are not modelled. -/
namespace LicensingCredits

open SharedKernel Decimals OptimisticTransactions LabelledRuns

inductive CreditStatus where
  | granted
  | consumed
  | expired
  deriving DecidableEq

def CreditStatus.text : CreditStatus → String
  | granted => "granted"
  | consumed => "consumed"
  | expired => "expired"

/-- `Decimal.minus`, under the default precision of twenty significant digits. -/
def minus (x y : ℚ) : ℚ := toSignificant 20 (x - y)

structure Credit where
  id : String
  tenantRef : String
  reason : String
  amount : ℚ
  status : CreditStatus

namespace Credit

def grant (id tenantRef : String) (amount : ℚ) (reason : String) : Credit :=
  ⟨id, tenantRef, reason, amount, .granted⟩

def consume (consumeAmount : ℚ) (credit : Credit) : Except DomainError Credit :=
  if credit.status ≠ .granted then
    .error (.businessRule ("Cannot consume a credit in status " ++ credit.status.text))
  else if consumeAmount > credit.amount then
    .error (.businessRule "Cannot consume more than the granted credit amount")
  else
    let amount := minus credit.amount consumeAmount
    .ok { credit with amount := amount, status := if amount = 0 then .consumed else .granted }

def expire (credit : Credit) : Except DomainError Credit :=
  if credit.status ≠ .granted then
    .error (.businessRule ("Cannot expire a credit in status " ++ credit.status.text))
  else .ok { credit with status := .expired }

/-- The number that `toFixed(4)` writes. -/
def amountDecimalString (credit : Credit) : ℚ := toPlaces 4 credit.amount

end Credit

structure CreditRow where
  id : String
  tenantId : String
  tenantRef : String
  amount : Column 19 4
  reason : String
  status : CreditStatus

inductive Answer where
  | ok (id : String)
  | err (e : DomainError)
  | threw (message : String)

def writeAmount (credit : Credit) : Except Answer (Column 19 4) :=
  match Column.write credit.amountDecimalString with
  | none => .error (.threw "numeric field overflow")
  | some amount => .ok amount

namespace CreditMapper

def toDomain (row : CreditRow) : Credit :=
  ⟨row.id, row.tenantRef, row.reason, row.amount.value, row.status⟩

def toRow (credit : Credit) (tenantId : String) : Except Answer CreditRow := do
  let amount ← writeAmount credit
  return ⟨credit.id, tenantId, credit.tenantRef, amount, credit.reason, credit.status⟩

end CreditMapper

/-- `GrantCredit`, with the id that is generated: the row it creates. -/
def grantCredit (id tenantRef : String) (amount : ℚ) (reason tenantId : String) :
    Except Answer CreditRow :=
  CreditMapper.toRow (Credit.grant id tenantRef amount reason) tenantId

def saveCredit (credit : Credit) (row : CreditRow) : Except Answer CreditRow := do
  let amount ← writeAmount credit
  return { row with amount := amount, status := credit.status }

inductive CreditAction where
  | consume (amount : ℚ)
  | expire

def CreditAction.apply : CreditAction → Credit → Except DomainError Credit
  | consume amount => Credit.consume amount
  | expire => Credit.expire

/-- The input of `ConsumeCredit` or of `ExpireCredit`. -/
structure CreditInput where
  creditId : String
  tenantId : String
  action : CreditAction

def findById (input : CreditInput) (row : CreditRow) : Option Credit :=
  if row.id = input.creditId ∧ row.tenantId = input.tenantId then some (CreditMapper.toDomain row)
  else none

/-- The transaction of a call: the row that it saves, or its answer. -/
def execute (input : CreditInput) (row : CreditRow) : Except Answer CreditRow :=
  match findById input row with
  | none => .error (.err (.notFound "Credit not found"))
  | some credit =>
    match input.action.apply credit with
    | .error e => .error (.err e)
    | .ok credit => saveCredit credit row

inductive Point where
  | called (input : CreditInput)
  | answered (input : CreditInput) (answer : Answer)

/-- A call reads the row, saves it under the version it read, and throws when that is gone. -/
def protocol : Protocol CreditRow Point Unit Unit where
  body
    | .called input => some fun _ _ row =>
      match execute input row with
      | .error answer => .answer (.answered input answer)
      | .ok new => .save new (.answered input (.ok input.creditId))
    | .answered _ _ => none
  conflict
    | .called input =>
      .answered input (.threw ("Credit " ++ input.creditId ++ " was modified concurrently"))
    | k => k
  act _ _ _ := none

theorem writeAmount_ok {credit : Credit} {amount : Column 19 4}
    (h : writeAmount credit = .ok amount) : amount.value = toPlaces 4 credit.amount := by
  unfold writeAmount at h
  split at h
  · cases h
  · rename_i column hcolumn
    cases h
    rw [Column.write_some hcolumn]
    exact toPlaces_eq (hasPlaces_toPlaces 4 credit.amount)

inductive Saved (row new : CreditRow) : CreditAction → Prop where
  | consumed {amount} : row.status = .granted → amount ≤ row.amount.value →
      new.amount.value = toPlaces 4 (minus row.amount.value amount) →
      Saved row new (.consume amount)
  | expired : row.status = .granted → new.amount.value = row.amount.value → Saved row new .expire

variable {row new : CreditRow}

theorem execute_ok {input : CreditInput} (h : execute input row = .ok new) :
    Saved row new input.action := by
  rw [execute] at h
  split at h
  · cases h
  · rename_i credit hfound
    have hcredit : credit = CreditMapper.toDomain row := by
      rw [findById] at hfound
      split at hfound
      · cases hfound
        rfl
      · cases hfound
    subst hcredit
    split at h
    · cases h
    · rename_i credit' happly
      obtain ⟨amount, hamount, h⟩ := bind_eq_ok.mp h
      cases h
      have hvalue := writeAmount_ok hamount
      cases haction : input.action with
      | consume consumeAmount =>
        rw [haction, CreditAction.apply, Credit.consume] at happly
        split at happly
        · cases happly
        · rename_i hgranted
          split at happly
          · cases happly
          · rename_i hcovered
            cases happly
            exact .consumed (not_not.mp hgranted) (not_lt.mp hcovered) hvalue
      | expire =>
        rw [haction, CreditAction.apply, Credit.expire] at happly
        split at happly
        · cases happly
        · rename_i hgranted
          cases happly
          refine .expired (not_not.mp hgranted) (hvalue.trans ?_)
          exact toPlaces_eq row.amount.hasPlaces

theorem Saved.granted {action : CreditAction} (h : Saved row new action) :
    row.status = .granted := by
  cases h with
  | consumed hgranted | expired hgranted => exact hgranted

abbrev Calls (ι : Type) := View CreditRow Point Unit ι

theorem atomic_save {ι : Type} [DecidableEq ι] {v w : Calls ι} {c : ι}
    (h : AtomicStep protocol v (.save c) w) : ∃ input, v.points c = some (.called input) ∧
      w.points c = some (.answered input (.ok input.creditId)) ∧
      Saved v.value w.value input.action := by
  cases h with
  | @save _ k b d env new k' spent hc hb _ ho =>
    cases k with
    | called input =>
      cases hb
      simp only at ho
      split at ho
      · cases ho
      · rename_i hexecute
        cases ho
        exact ⟨input, hc, Function.update_self _ _ _, execute_ok hexecute⟩
    | answered input answer => cases hb

section Law

variable {ι : Type} [DecidableEq ι]

abbrev Running (ι : Type) := State CreditRow Point Unit ι

def Running.balance (s : Running ι) : ℚ := s.row.value.amount.value

def CreditAction.consumed : CreditAction → ℚ
  | consume amount => amount
  | expire => 0

/-- What a step consumes. -/
def consumed (v : Calls ι) : Event Unit ι → ℚ
  | .save c =>
    match v.points c with
    | some (.called input) => input.action.consumed
    | _ => 0
  | _ => 0

/-- The amounts of the consumptions that succeed in a run. -/
def consumptions (s : Running ι) (tr : List (Label Unit ι × Running ι)) : ℚ :=
  total (fun s l => consumed (view s) (event protocol s l)) s tr

structure LawfulStep (s : Running ι) (l : Label Unit ι) (u : Running ι) : Prop where
  decreasing : u.balance ≤ s.balance
  final : s.row.value.status ≠ .granted → u.row = s.row
  refused : u.row ≠ s.row →
    ∃ input, (u.calls l.caller).point = some (.answered input (.ok input.creditId))

/-- The balance stays between zero and what was granted and only shrinks, no more is consumed than
was granted, what is consumed or expired stays as it is, and only a call that succeeds has changed
anything. -/
structure OnlyShrinks (granted : ℚ) (s : Running ι) (tr : List (Label Unit ι × Running ι)) :
    Prop where
  bounded : Always (fun s => 0 ≤ s.balance ∧ s.balance ≤ granted) s tr
  steps : EveryStep (fun s l => ∀ u, Step protocol s l u → LawfulStep s l u) s tr
  covered : consumptions s tr ≤ granted

def NotRoundedUp (balance amount : ℚ) : Prop :=
  toPlaces 4 (minus balance amount) ≤ balance - amount

/-- No negative amount is consumed, and none after which the rest is rounded up. -/
def CreditAction.Exact (balance : ℚ) : CreditAction → Prop
  | consume amount => 0 ≤ amount ∧ NotRoundedUp balance amount
  | expire => True

def Exact (v : Calls ι) : Event Unit ι → Prop
  | .save c => ∀ input, v.points c = some (.called input) →
      input.action.Exact v.value.amount.value
  | _ => True

variable {row : CreditRow} {granted : ℚ} {tr : List (Label Unit ι × Running ι)}
  {balance : Column 19 4}

theorem Saved.paid {new : CreditRow} {action : CreditAction} (h : Saved row new action)
    (hexact : action.Exact row.amount.value) (hrow : 0 ≤ row.amount.value) :
    0 ≤ action.consumed ∧ 0 ≤ new.amount.value ∧
      action.consumed + new.amount.value ≤ row.amount.value := by
  cases h with
  | @consumed amount _ hcovered hvalue =>
    obtain ⟨hnonneg, hdown⟩ := hexact
    rw [NotRoundedUp, ← hvalue] at hdown
    have hrest : 0 ≤ new.amount.value := by
      rw [hvalue]
      exact toPlaces_nonneg (toSignificant_nonneg (by linarith))
    refine ⟨hnonneg, hrest, ?_⟩
    rw [CreditAction.consumed]
    linarith
  | expired _ hvalue =>
    rw [CreditAction.consumed, hvalue, zero_add]
    exact ⟨le_rfl, hrow, le_rfl⟩

variable {l : Label Unit ι} {s u : Running ι} {amount : ℚ}

theorem step_change (hc : Coherent protocol s) (hst : Step protocol s l u) :
    (∃ c input, l = .write c ∧ event protocol s l = .save c ∧
      (view s).points c = some (.called input) ∧
      (u.calls c).point = some (.answered input (.ok input.creditId)) ∧
      Saved s.row.value u.row.value input.action) ∨
    u.row = s.row ∧ ∀ c, event protocol s l ≠ .save c := by
  refine (move_row (step_move hst)).imp_left ?_
  rintro ⟨c, hl, he⟩
  have hatomic := step_atomic hc hst
  rw [he] at hatomic
  obtain ⟨input, hcalled, hanswered, hsaved⟩ := atomic_save hatomic
  exact ⟨c, input, hl, he, hcalled, hanswered, hsaved⟩

/-- What carries the law. -/
structure Sound (granted : ℚ) (s : Running ι) : Prop where
  coherent : Coherent protocol s
  nonneg : 0 ≤ s.balance
  covered : s.balance ≤ granted

theorem step_paid (h : Sound granted s) (hst : Step protocol s l u)
    (hexact : Exact (view s) (event protocol s l)) :
    0 ≤ consumed (view s) (event protocol s l) ∧ 0 ≤ u.balance ∧
      consumed (view s) (event protocol s l) + u.balance ≤ s.balance := by
  rcases step_change h.coherent hst with ⟨c, input, -, he, hcalled, -, hsaved⟩ | ⟨hrow, hno⟩
  · rw [he] at hexact ⊢
    simp only [consumed, hcalled]
    exact hsaved.paid (hexact input hcalled) h.nonneg
  · have hnone : consumed (view s) (event protocol s l) = 0 := by
      cases he : event protocol s l with
      | save c => exact absurd he (hno c)
      | _ => rfl
    rw [hnone, zero_add, Running.balance, hrow]
    exact ⟨le_rfl, h.nonneg, le_rfl⟩

theorem sound_step (granted : ℚ) (s : Running ι) (l : Label Unit ι) (u : Running ι)
    (h : Sound granted s) (hst : Step protocol s l u)
    (hexact : Exact (view s) (event protocol s l)) : Sound granted u := by
  obtain ⟨hconsumed, hnonneg, hpaid⟩ := step_paid h hst hexact
  have hcovered := h.covered
  exact ⟨step_coherent h.coherent hst, hnonneg, by linarith⟩

theorem step_final (hc : Coherent protocol s) (hst : Step protocol s l u)
    (hstatus : s.row.value.status ≠ .granted) : u.row = s.row := by
  rcases step_change hc hst with ⟨c, input, -, -, -, -, hsaved⟩ | ⟨hrow, -⟩
  · exact absurd hsaved.granted hstatus
  · exact hrow

theorem step_refused (hc : Coherent protocol s) (hst : Step protocol s l u)
    (hchanged : u.row ≠ s.row) :
    ∃ input, (u.calls l.caller).point = some (.answered input (.ok input.creditId)) := by
  rcases step_change hc hst with ⟨c, input, rfl, -, -, hanswered, -⟩ | ⟨hrow, -⟩
  · exact ⟨input, hanswered⟩
  · exact absurd hrow hchanged

theorem lawful_step (h : Sound granted s) (hst : Step protocol s l u)
    (hexact : Exact (view s) (event protocol s l)) : LawfulStep s l u := by
  obtain ⟨hconsumed, -, hpaid⟩ := step_paid h hst hexact
  exact ⟨by linarith, step_final h.coherent hst, step_refused h.coherent hst⟩

/-- The credit has been granted, and no call has begun. -/
structure Granted (amount : ℚ) (s : Running ι) : Prop where
  row : ∃ id tenantRef reason tenantId,
    grantCredit id tenantRef amount reason tenantId = .ok s.row.value
  quiet : ∀ c, ∃ input, s.calls c = .ready (.called input)

theorem grantCredit_ok {id tenantRef reason tenantId : String}
    (h : grantCredit id tenantRef amount reason tenantId = .ok row) :
    row.amount.value = toPlaces 4 amount := by
  obtain ⟨column, hcolumn, hrow⟩ := bind_eq_ok.mp h
  have hvalue := writeAmount_ok hcolumn
  cases hrow
  simpa only [Credit.grant] using hvalue

omit [DecidableEq ι] in
theorem Granted.isQuiet (h : Granted amount s) : Quiet s := by
  intro c k d v new k' hc
  obtain ⟨input, hcalled⟩ := h.quiet c
  rw [hcalled] at hc
  cases hc

/-- As long as no consumption is negative or leaves a rest that is rounded up, the law holds of the
credits whose amount was neither. -/
theorem only_shrinks_iff {amount : ℚ} {s : Running ι} (hs : Granted amount s)
    (hr : Run (Step protocol) s tr)
    (hexact : EveryStep (fun s l => Exact (view s) (event protocol s l)) s tr) :
    OnlyShrinks amount s tr ↔ 0 ≤ amount ∧ toPlaces 4 amount ≤ amount := by
  obtain ⟨id, tenantRef, reason, tenantId, hrow⟩ := hs.row
  have hbalance : s.balance = toPlaces 4 amount := grantCredit_ok hrow
  constructor
  · intro h
    obtain ⟨hnonneg, hcovered⟩ := h.bounded.head
    rw [hbalance] at hnonneg hcovered
    exact ⟨hnonneg.trans hcovered, hcovered⟩
  · rintro ⟨hnonneg, hdown⟩
    have hsound : Sound amount s := by
      refine ⟨hs.isQuiet.coherent, ?_, ?_⟩
      · rw [hbalance]
        exact toPlaces_nonneg hnonneg
      · rw [hbalance]
        exact hdown
    have hrun := always_of_everyStep (sound_step amount) hsound hr hexact
    have hpaid : consumptions s tr + (lastState s tr).balance ≤ s.balance :=
      total_add_le (sound_step amount) (fun s l u h hst he => (step_paid h hst he).2.2) hsound hr
        hexact
    refine ⟨hrun.mono fun s h => ⟨h.nonneg, h.covered⟩, ?_, ?_⟩
    · exact everyStep_of_allowed (sound_step amount)
        (fun s l h he u hst => lawful_step h hst he) hsound hr hexact
    · have hlast := hrun.last.nonneg
      have hstart := hsound.covered
      linarith

theorem minus_eq (hplaces : HasPlaces 4 amount) (hnonneg : 0 ≤ amount)
    (hcovered : amount ≤ balance.value) : minus balance.value amount = balance.value - amount := by
  have hbounded := lt_of_abs_lt balance.bounded
  refine toSignificant_eq (balance.hasPlaces.sub hplaces) ?_
  rw [abs_of_nonneg (by linarith)]
  calc balance.value - amount ≤ balance.value := by linarith
    _ < 10 ^ (((19 : ℕ) : ℤ) - (4 : ℕ)) := hbounded
    _ ≤ 10 ^ (((20 : ℕ) : ℤ) - (4 : ℕ)) := zpow_le_zpow_right₀ (by norm_num) (by norm_num)

theorem notRoundedUp (hplaces : HasPlaces 4 amount) (hnonneg : 0 ≤ amount)
    (hcovered : amount ≤ balance.value) : NotRoundedUp balance.value amount := by
  rw [NotRoundedUp, minus_eq hplaces hnonneg hcovered,
    toPlaces_eq (balance.hasPlaces.sub hplaces)]

def CreditAction.Decimal : CreditAction → Prop
  | consume amount => 0 ≤ amount ∧ HasPlaces 4 amount
  | expire => True

def Point.Decimal : Point → Prop
  | called input => input.action.Decimal
  | answered _ _ => True

theorem decimal_atomic {v w : Calls ι} {e : Event Unit ι} (h : AtomicStep protocol v e w)
    (hv : ∀ c k, v.points c = some k → k.Decimal) : ∀ c k, w.points c = some k → k.Decimal := by
  have outcome : ∀ {k b d env row k'}, protocol.body k = some b →
      (b d env row = .answer k' ∨ ∃ new, b d env row = .save new k') → k'.Decimal := by
    intro k b d env row k' hb ho
    cases k with
    | called input =>
      cases hb
      simp only at ho
      split at ho <;> obtain ho | ⟨new, ho⟩ := ho <;> cases ho <;> trivial
    | answered input answer => cases hb
  cases h with
  | answer hc hb hfresh ho =>
    refine points_update hv ?_
    rintro k ⟨⟩
    exact outcome hb (Or.inl ho)
  | save hc hb hfresh ho =>
    refine points_update hv ?_
    rintro k ⟨⟩
    exact outcome hb (Or.inr ⟨_, ho⟩)
  | @conflict c k b spent hc hb =>
    refine points_update hv ?_
    rintro k' ⟨⟩
    cases k with
    | called input => trivial
    | answered input answer => cases hb
  | act hc ha => cases ha
  | crash =>
    refine points_update hv ?_
    rintro k ⟨⟩
  | idle => exact hv

structure DecimalCalls (s : Running ι) : Prop where
  coherent : Coherent protocol s
  points : ∀ c k, (view s).points c = some k → k.Decimal

theorem decimal_step (s : Running ι) (l : Label Unit ι) (u : Running ι) (h : DecimalCalls s)
    (hst : Step protocol s l u) : DecimalCalls u :=
  ⟨step_coherent h.coherent hst, decimal_atomic (step_atomic h.coherent hst) h.points⟩

theorem exact_of_decimal (hs : Granted amount s)
    (hcalls : ∀ c input, s.calls c = .ready (.called input) → input.action.Decimal)
    (hr : Run (Step protocol) s tr) :
    EveryStep (fun s l => Exact (view s) (event protocol s l)) s tr := by
  have hstart : DecimalCalls s := by
    refine ⟨hs.isQuiet.coherent, fun c k hk => ?_⟩
    obtain ⟨input, hcalled⟩ := hs.quiet c
    have hpoint : (s.calls c).point = some k := hk
    rw [hcalled] at hpoint
    cases hpoint
    exact hcalls c input hcalled
  refine everyStep_of_taken decimal_step (fun s l u h hst => ?_) hstart hr
  rcases step_change h.coherent hst with ⟨c, input, -, he, hcalled, -, hsaved⟩ | ⟨-, hno⟩
  · rw [he]
    intro input' hinput
    rw [hcalled] at hinput
    cases hinput
    have hdecimal : input.action.Decimal := h.points c _ hcalled
    revert hsaved hdecimal
    cases input.action with
    | consume consumeAmount =>
      rintro (⟨-, hcovered, -⟩) ⟨hnonneg, hplaces⟩
      exact ⟨hnonneg, notRoundedUp hplaces hnonneg hcovered⟩
    | expire => exact fun _ _ => trivial
  · cases he : event protocol s l with
    | save c => exact absurd he (hno c)
    | _ => trivial

end Law

/-! A credit of ten, and one of the least amount that is stored. -/

def goodwill (amount : Column 19 4) : CreditRow :=
  ⟨"credit-1", "tenant-1", "merchant-1", amount, "goodwill", .granted⟩

def ten : Column 19 4 := ⟨10, ⟨100000, by norm_num⟩, by norm_num⟩

def least : Column 19 4 := ⟨1 / 10000, ⟨1, by norm_num⟩, by norm_num [abs_of_pos]⟩

def calling (amount : Column 19 4) (action : ℕ → CreditAction) : Running ℕ where
  row := ⟨goodwill amount, 1⟩
  env := ()
  draws := 0
  calls c := .ready (.called ⟨"credit-1", "tenant-1", action c⟩)

theorem calling_granted (amount : Column 19 4) (action : ℕ → CreditAction) :
    Granted amount.value (calling amount action) := by
  refine ⟨⟨"credit-1", "merchant-1", "goodwill", "tenant-1", ?_⟩, fun c => ⟨_, rfl⟩⟩
  have hwrite : writeAmount (Credit.grant "credit-1" "merchant-1" amount.value "goodwill") =
      .ok amount := by
    unfold writeAmount
    rw [Credit.amountDecimalString, Credit.grant, toPlaces_eq amount.hasPlaces, Column.write_value]
  rw [grantCredit, CreditMapper.toRow, hwrite]
  rfl

/-- Four is consumed of ten while the credit is about to expire, which loses its race. -/
def fourOfTen : Running ℕ := calling ten fun c => if c = 0 then .consume 4 else .expire

theorem only_shrinks_four :
    OnlyShrinks 10 fourOfTen
      (play protocol fourOfTen [.read 0, .read 1, .write 0, .write 1]) := by
  have hs : Granted 10 fourOfTen := calling_granted ten _
  have hr := run_play protocol fourOfTen [.read 0, .read 1, .write 0, .write 1]
  have hdecimal : ∀ c input, fourOfTen.calls c = .ready (.called input) →
      input.action.Decimal := by
    intro c input hc
    cases hc
    by_cases hzero : c = 0
    · simp only [hzero, if_true]
      exact ⟨by norm_num, 40000, by norm_num⟩
    · simp only [hzero, if_false]
      trivial
  exact (only_shrinks_iff hs hr (exact_of_decimal hs hdecimal hr)).mpr
    ⟨by norm_num, (toPlaces_eq ten.hasPlaces).le⟩

def minusFive : Running ℕ := calling ten fun _ => .consume (-5)

def halves : Running ℕ := calling least fun _ => .consume (1 / 20000)

/-- A consumption of minus five raises the balance; half of the least amount can be consumed of it
three times. -/
theorem credit_grows :
    (Granted 10 minusFive ∧
      Run (Step protocol) minusFive (play protocol minusFive [.read 0, .write 0]) ∧
      ¬ OnlyShrinks 10 minusFive (play protocol minusFive [.read 0, .write 0])) ∧
    Granted (1 / 10000) halves ∧
      Run (Step protocol) halves
        (play protocol halves [.read 0, .write 0, .read 1, .write 1, .read 2, .write 2]) ∧
      ¬ OnlyShrinks (1 / 10000) halves
        (play protocol halves [.read 0, .write 0, .read 1, .write 1, .read 2, .write 2]) := by
  refine ⟨⟨calling_granted ten _, run_play _ _ _, fun h => ?_⟩,
    calling_granted least _, run_play _ _ _, fun h => ?_⟩
  · have hlast : (lastState minusFive
        (play protocol minusFive [.read 0, .write 0])).balance = 15 := by
      decide +kernel
    have hbounded := h.bounded.last.2
    rw [hlast] at hbounded
    norm_num at hbounded
  · have hspent : consumptions halves
        (play protocol halves [.read 0, .write 0, .read 1, .write 1, .read 2, .write 2]) =
          3 / 20000 := by
      decide +kernel
    have hcovered := h.covered
    rw [hspent] at hcovered
    norm_num at hcovered

end LicensingCredits
