import Lumo.FinanceBooks

/-! # Opening balances

The journal that carries a closing trial balance into the next fiscal period. Each row whose sides
differ is a line, and what the lines lack to balance goes to the opening equity account. -/
namespace Finance

open SharedKernel Builtins FallibleFolds KeyedLines LedgerService

variable {currency : String} {rows : List TrialBalanceRow}

namespace OpeningBalanceService

def openingLine (currency : String) (row : TrialBalanceRow) : Except DomainError JournalLine := do
  let net : ℤ := row.debitMinor - row.creditMinor
  let value ← match Money.create net.natAbs currency with
    | .ok amount => .ok amount
    | .error _ => Money.zero currency
  return {
    accountRef := row.accountRef
    direction := if 0 < net then .debit else .credit
    amount := value
    memo := some "opening balance" }

def plugMinor (lines : List JournalLine) : ℤ :=
  lines.foldl (fun sum line => sum + if line.direction.isDebit
    then -(line.amount.amountMinor : ℤ) else line.amount.amountMinor) 0

def withPlug (openingEquityAccountRef currency : String) (lines : List JournalLine) :
    List JournalLine :=
  match Money.create (plugMinor lines).natAbs currency with
  | .error _ => lines
  | .ok plugAmount =>
    if 0 < plugAmount.amountMinor then lines ++ [{
      accountRef := openingEquityAccountRef
      direction := if 0 < plugMinor lines then .debit else .credit
      amount := plugAmount
      memo := some "opening balance equity plug" }]
    else lines

def openingJournal (id : UniqueEntityId) (sourceRef : String)
    (closingTrialBalance : List TrialBalanceRow) (openingEquityAccountRef currency : String) :
    Except DomainError Journal := do
  let lines ← (closingTrialBalance.filter fun row => row.debitMinor != row.creditMinor).mapM
    (openingLine currency)
  Journal.create id sourceRef currency (withPlug openingEquityAccountRef currency lines)

end OpeningBalanceService

open OpeningBalanceService

def LedgerService.TrialBalanceRow.net (row : TrialBalanceRow) : ℤ :=
  row.debitMinor - row.creditMinor

/-- Debits less credits of an account at closing. -/
def closingNet (rows : List TrialBalanceRow) (accountRef : String) : ℤ :=
  totalAt TrialBalanceRow.accountRef TrialBalanceRow.net rows accountRef

def LedgerService.Totals.net (totals : Totals) : ℤ := totals.debitMinor - totals.creditMinor

def netAt (rows : OrderedMap String Totals) (accountRef : String) : ℤ :=
  ((rows.find? accountRef).getD ⟨0, 0⟩).net

theorem netAt_foldl (entries : List LedgerEntry) (rows : OrderedMap String Totals)
    (accountRef : String) :
    netAt (entries.foldl addEntry rows) accountRef =
      netAt rows accountRef + net entries accountRef := by
  have hadd (totals : Totals) (entry : LedgerEntry) :
      (if entry.direction.isDebit
        then { totals with debitMinor := totals.debitMinor + entry.amount.amountMinor }
        else { totals with creditMinor := totals.creditMinor + entry.amount.amountMinor }).net =
      totals.net + entry.signed := by
    rw [LedgerEntry.signed]
    cases entry.direction with
    | debit | credit =>
      simp [LedgerService.Totals.net, LedgerDirection.isDebit, LedgerDirection.sign]
      omega
  exact totalAt_foldl LedgerEntry.accountRef LedgerEntry.signed _ _ LedgerService.Totals.net hadd
    entries rows accountRef

theorem totalAt_entries (m : OrderedMap String Totals) (accountRef : String) :
    totalAt Prod.fst (fun row => row.2.net) m.entries accountRef = netAt m accountRef := by
  rw [netAt]
  cases hfind : m.find? accountRef with
  | none =>
    have hkeys := OrderedMap.find?_eq_none.mp hfind
    refine totalAt_eq_zero fun row hrow hkey => hkeys ?_
    rw [← hkey]
    exact List.mem_map_of_mem hrow
  | some totals =>
    have hrow := OrderedMap.find?_eq_some.mp hfind
    have hdistinct : Distinct Prod.fst m.entries := m.distinct
    exact hdistinct.totalAt_of_mem hrow

theorem closingNet_trialBalance (entries : List LedgerEntry) (accountRef : String) :
    closingNet (LedgerService.trialBalance entries) accountRef = net entries accountRef := by
  rw [closingNet, LedgerService.trialBalance, totalAt_map]
  refine (totalAt_entries _ accountRef).trans ?_
  rw [netAt_foldl]
  exact Int.zero_add _

def carriedLine (hcurrency : isValidCurrencyCode currency = true) (row : TrialBalanceRow) :
    JournalLine where
  accountRef := row.accountRef
  direction := if 0 < row.net then .debit else .credit
  amount := ⟨row.net.natAbs, currency, hcurrency⟩
  memo := some "opening balance"

section Carried

variable (hcurrency : isValidCurrencyCode currency = true)
include hcurrency

theorem create_natCast (amountMinor : ℕ) :
    Money.create amountMinor currency = .ok ⟨amountMinor, currency, hcurrency⟩ := by
  simp [Money.create, hcurrency]

theorem openingLine_ok (row : TrialBalanceRow) :
    openingLine currency row = .ok (carriedLine hcurrency row) := by
  rw [openingLine, create_natCast hcurrency]
  rfl

omit hcurrency in
theorem sign_mul_natAbs (n : ℤ) :
    (if 0 < n then LedgerDirection.debit else .credit).sign * (n.natAbs : ℤ) = n := by
  by_cases h : 0 < n
  · rw [if_pos h, LedgerDirection.sign]
    omega
  · rw [if_neg h, LedgerDirection.sign]
    omega

theorem carriedLine_signed (row : TrialBalanceRow) : (carriedLine hcurrency row).signed = row.net :=
  sign_mul_natAbs row.net

omit hcurrency in
theorem plugMinor_eq (lines : List JournalLine) :
    plugMinor lines = -(lines.map JournalLine.signed).sum := by
  rw [plugMinor, List.sum_neg, List.map_map, List.sum_eq_foldl, List.foldl_map]
  congr
  funext sum line
  simp only [Function.comp, JournalLine.signed]
  cases line.direction <;> simp [LedgerDirection.isDebit, LedgerDirection.sign]

theorem withPlug_lines (openingEquityAccountRef : String) (lines : List JournalLine) :
    ∃ plug, withPlug openingEquityAccountRef currency lines = lines ++ plug ∧
      (plug.map JournalLine.signed).sum = -(lines.map JournalLine.signed).sum ∧
      ∀ line ∈ plug, line.accountRef = openingEquityAccountRef ∧
        line.amount.currency = currency := by
  rw [withPlug, create_natCast hcurrency]
  by_cases hplug : 0 < (plugMinor lines).natAbs
  · refine ⟨_, if_pos hplug, ?_, ?_⟩
    · rw [List.map_singleton, List.sum_singleton, JournalLine.signed, sign_mul_natAbs,
        plugMinor_eq]
    · intro line hline
      rw [List.mem_singleton.mp hline]
      exact ⟨rfl, rfl⟩
  · have hzero := plugMinor_eq lines
    refine ⟨[], (if_neg hplug).trans (List.append_nil _).symm, ?_, by simp⟩
    rw [← hzero, List.map_nil, List.sum_nil]
    omega

omit hcurrency in
theorem create_ok (id : UniqueEntityId) (sourceRef : String) {lines : List JournalLine}
    (hlength : 2 ≤ lines.length) (hcurrency : ∀ line ∈ lines, line.amount.currency = currency)
    (hbalanced : (lines.map JournalLine.signed).sum = 0) :
    Journal.create id sourceRef currency lines =
      .ok ⟨id, sourceRef, currency, lines, none, none⟩ := by
  have hshared : (lines.any fun line => line.amount.currency != currency) = false := by
    simpa using hcurrency
  have hsums : sumByDirection lines .debit = sumByDirection lines .credit := by
    have hsigned := signed_sum lines
    omega
  rw [Journal.create, if_neg (by omega), hshared]
  simp only [hsums, Bool.false_eq_true, ne_eq, not_true_eq_false, if_false]
  rfl

omit hcurrency in
theorem two_le_length {lines plug : List JournalLine} (hlines : lines ≠ [])
    (hsigned : ∀ line ∈ lines, line.signed ≠ 0)
    (hplug : (plug.map JournalLine.signed).sum = -(lines.map JournalLine.signed).sum) :
    2 ≤ (lines ++ plug).length := by
  match lines, plug with
  | [], _ => exact absurd rfl hlines
  | [line], [] =>
    have hline := hsigned line List.mem_cons_self
    simp at hplug
    omega
  | [_], _ :: _ => simp
  | _ :: _ :: _, _ => simp

/-- The opening journal holds a line for each row whose sides differ, and the plug. -/
theorem openingJournal_ok (id : UniqueEntityId) (sourceRef openingEquityAccountRef : String)
    (hdiffer : ∃ row ∈ rows, row.debitMinor ≠ row.creditMinor) :
    ∃ plug journal,
      openingJournal id sourceRef rows openingEquityAccountRef currency = .ok journal ∧
      journal = ⟨id, sourceRef, currency, (rows.filter fun row =>
        row.debitMinor != row.creditMinor).map (carriedLine hcurrency) ++ plug, none, none⟩ ∧
      (∀ line ∈ plug, line.accountRef = openingEquityAccountRef) ∧
      (∀ line ∈ journal.lines, line.amount.currency = currency) ∧
      (journal.lines.map JournalLine.signed).sum = 0 := by
  have hlines := mapM_ok (l := rows.filter fun row => row.debitMinor != row.creditMinor)
    fun row _ => openingLine_ok hcurrency row
  generalize hcarried : (rows.filter fun row => row.debitMinor != row.creditMinor).map
    (carriedLine hcurrency) = lines at hlines
  obtain ⟨plug, hwith, hsum, hplug⟩ := withPlug_lines hcurrency openingEquityAccountRef lines
  have hne : lines ≠ [] := by
    obtain ⟨row, hrow, hsides⟩ := hdiffer
    rw [← hcarried]
    apply List.ne_nil_of_mem
    exact List.mem_map_of_mem (List.mem_filter.mpr ⟨hrow, by simpa using hsides⟩)
  have hsigned : ∀ line ∈ lines, line.signed ≠ 0 := by
    intro line hline
    rw [← hcarried] at hline
    obtain ⟨row, hrow, rfl⟩ := List.mem_map.mp hline
    have hsides : row.debitMinor ≠ row.creditMinor := by simpa using (List.mem_filter.mp hrow).2
    rw [carriedLine_signed, LedgerService.TrialBalanceRow.net]
    omega
  have hshared : ∀ line ∈ lines ++ plug, line.amount.currency = currency := by
    intro line hline
    rcases List.mem_append.mp hline with hline | hline
    · rw [← hcarried] at hline
      obtain ⟨row, -, rfl⟩ := List.mem_map.mp hline
      rfl
    · exact (hplug line hline).2
  have hbalanced : ((lines ++ plug).map JournalLine.signed).sum = 0 := by
    rw [List.map_append, List.sum_append, hsum, add_neg_cancel]
  refine ⟨plug, _, ?_, rfl, fun line hline => (hplug line hline).1, hshared, hbalanced⟩
  rw [openingJournal, hlines, ok_bind, hwith]
  exact create_ok id sourceRef (two_le_length hne hsigned hsum) hshared hbalanced

theorem carried_totalAt {plug : List JournalLine} {openingEquityAccountRef accountRef : String}
    (hplug : ∀ line ∈ plug, line.accountRef = openingEquityAccountRef)
    (haccount : accountRef ≠ openingEquityAccountRef) :
    totalAt JournalLine.accountRef JournalLine.signed ((rows.filter fun row =>
        row.debitMinor != row.creditMinor).map (carriedLine hcurrency) ++ plug) accountRef =
      closingNet rows accountRef := by
  have hrest : ∀ line ∈ plug, line.accountRef ≠ accountRef := by
    intro line hline heq
    exact haccount (heq.symm.trans (hplug line hline))
  rw [totalAt_append, totalAt_eq_zero hrest, add_zero, totalAt_map]
  simp only [carriedLine_signed]
  refine totalAt_filter ?_ accountRef
  intro row _ hsides
  have heq : row.debitMinor = row.creditMinor := by simpa using hsides
  rw [LedgerService.TrialBalanceRow.net, heq, sub_self]

/-- A closing trial balance with a row whose sides differ opens the next period: the journal is
accepted and balanced, and the ledger that posting it leaves gives every account, the one of the
plug aside, the balance of its row, which is the one it had in the ledger of the rows. -/
theorem openingJournal_carries (id : UniqueEntityId)
    (sourceRef openingEquityAccountRef : String) (occurredAt : ℤ)
    (hdiffer : ∃ row ∈ rows, row.debitMinor ≠ row.creditMinor) :
    ∃ journal posted opened,
      openingJournal id sourceRef rows openingEquityAccountRef currency = .ok journal ∧
      sumByDirection journal.lines .debit = sumByDirection journal.lines .credit ∧
      journal.post occurredAt = .ok posted ∧ posted.toLedgerEntries = .ok opened ∧
      (∀ accountRef, accountRef ≠ openingEquityAccountRef → ∀ type : AccountType,
        accountBalance opened accountRef type currency =
          .ok ⟨type.normalSide.sign * closingNet rows accountRef, currency⟩ ∧
        closingNet (LedgerService.trialBalance opened) accountRef = closingNet rows accountRef) ∧
      (Distinct TrialBalanceRow.accountRef rows → ∀ row ∈ rows,
        row.accountRef ≠ openingEquityAccountRef → ∀ type : AccountType,
          accountBalance opened row.accountRef type currency =
            .ok ⟨type.normalSide.sign * (row.debitMinor - row.creditMinor), currency⟩) ∧
      ∀ closing, rows = LedgerService.trialBalance closing →
        (∀ entry ∈ closing, entry.amount.currency = currency) →
        ∀ accountRef, accountRef ≠ openingEquityAccountRef → ∀ type : AccountType,
          accountBalance opened accountRef type currency =
            accountBalance closing accountRef type currency := by
  obtain ⟨plug, journal, hjournal, hlines, hplug, hshared, hzero⟩ :=
    openingJournal_ok hcurrency id sourceRef openingEquityAccountRef hdiffer
  have hsums : sumByDirection journal.lines .debit = sumByDirection journal.lines .credit := by
    have hsigned := signed_sum journal.lines
    omega
  have hpost : journal.post occurredAt = .ok { journal with postedAt := some occurredAt } := by
    rw [hlines]
    rfl
  have hbalanced : Balanced currency { journal with postedAt := some occurredAt } :=
    ⟨rfl, hshared, hzero⟩
  have hnet (accountRef : String) (haccount : accountRef ≠ openingEquityAccountRef) :
      net (entriesOf { journal with postedAt := some occurredAt }) accountRef =
        closingNet rows accountRef := by
    rw [net_entriesOf, hlines]
    exact carried_totalAt hcurrency hplug haccount
  have hbalance (accountRef : String) (type : AccountType) :=
    accountBalance_ok (entriesOf_currency hbalanced) accountRef type
  have hentries := toLedgerEntries_posted hbalanced.posted
  refine ⟨journal, _, _, hjournal, hsums, hpost, hentries, ?_, ?_, ?_⟩
  · intro accountRef haccount type
    rw [hbalance, closingNet_trialBalance, hnet accountRef haccount]
    exact ⟨rfl, rfl⟩
  · intro hrows row hrow haccount type
    rw [hbalance, hnet _ haccount, closingNet, hrows.totalAt_of_mem hrow]
    rfl
  · intro closing hclosing hentries accountRef haccount type
    rw [hbalance, hnet accountRef haccount, hclosing, closingNet_trialBalance,
      accountBalance_ok hentries]

end Carried

/-- Receivables of 2.00, revenue of 1.50, the equity account with 0.30 and an account that is even:
the plug is 0.20. -/
def closingRows : List TrialBalanceRow :=
  [⟨"1200-AR", 300, 100⟩, ⟨"4000-REVENUE", 0, 150⟩, ⟨"3900-OPENING", 20, 50⟩, ⟨"1000-CASH", 70, 70⟩]

def openingId : UniqueEntityId := ⟨"opening-1", by decide⟩

theorem openingJournal_carries_rows :
    ∃ journal posted opened,
      openingJournal openingId "period:2" closingRows "3900-OPENING" "AED" =
        .ok journal ∧
      journal.post 0 = .ok posted ∧ posted.toLedgerEntries = .ok opened ∧
      accountBalance opened "1200-AR" .asset "AED" = .ok ⟨200, "AED"⟩ ∧
      accountBalance opened "4000-REVENUE" .revenue "AED" = .ok ⟨150, "AED"⟩ := by
  have hcurrency : isValidCurrencyCode "AED" = true := by decide
  have hdiffer : ∃ row ∈ closingRows, row.debitMinor ≠ row.creditMinor := by decide
  have hrows : Distinct TrialBalanceRow.accountRef closingRows := by decide
  obtain ⟨journal, posted, opened, hjournal, -, hpost, hopened, -, hcarried, -⟩ :=
    openingJournal_carries hcurrency openingId "period:2" "3900-OPENING" 0 hdiffer
  refine ⟨journal, posted, opened, hjournal, hpost, hopened, ?_, ?_⟩
  · exact hcarried hrows ⟨"1200-AR", 300, 100⟩ (by decide) (by decide) .asset
  · exact hcarried hrows ⟨"4000-REVENUE", 0, 150⟩ (by decide) (by decide) .revenue

end Finance
