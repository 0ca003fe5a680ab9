import Mathlib.Algebra.BigOperators.Ring.List
import Lumo.FallibleFolds
import Lumo.FinanceLedger
import Lumo.KeyedLines

/-! # The books balance

Every line of a journal is a signed amount on an account, debits positive. A posted journal adds
up to nothing, and so do the books, account by account through the signs of the account types. -/
namespace Finance

open SharedKernel Builtins FallibleFolds KeyedLines

variable {α : Type} {currency : String} {entries : List LedgerEntry} {journal reversal : Journal}

def LedgerDirection.sign : LedgerDirection → ℤ
  | debit => 1
  | credit => -1

def JournalLine.signed (line : JournalLine) : ℤ := line.direction.sign * line.amount.amountMinor

def LedgerEntry.signed (entry : LedgerEntry) : ℤ :=
  entry.direction.sign * entry.amount.amountMinor

/-- Debits less credits of an account. -/
def net (entries : List LedgerEntry) (accountRef : String) : ℤ :=
  totalAt LedgerEntry.accountRef LedgerEntry.signed entries accountRef

def ledgerOf (books : List Journal) : Except DomainError (List LedgerEntry) :=
  (books.mapM Journal.toLedgerEntries).map List.flatten

/-- A journal that was created balanced and posted, or reverses one that is posted. -/
inductive Posted (currency : String) : Journal → Prop where
  | created {id : UniqueEntityId} {sourceRef : String} {lines : List JournalLine}
      {occurredAt : ℤ} {created journal : Journal}
      (hcreate : Journal.create id sourceRef currency lines = .ok created)
      (hpost : created.post occurredAt = .ok journal) : Posted currency journal
  | reversed {newId : UniqueEntityId} {occurredAt : ℤ} {original reversal : Journal}
      (horiginal : Posted currency original)
      (hreverse : Journal.reverse newId original occurredAt = .ok reversal) :
      Posted currency reversal

/-- What a posted journal adds to the books. -/
structure Balanced (currency : String) (journal : Journal) : Prop where
  posted : journal.isPosted = true
  oneCurrency : ∀ line ∈ journal.lines, line.amount.currency = currency
  balanced : (journal.lines.map JournalLine.signed).sum = 0

@[simp] theorem opposite_sign (direction : LedgerDirection) :
    direction.opposite.sign = -direction.sign := by
  cases direction <;> rfl

theorem signed_sum (lines : List JournalLine) :
    (lines.map JournalLine.signed).sum =
      (sumByDirection lines .debit : ℤ) - sumByDirection lines .credit := by
  have hsum (l : List JournalLine) : l.foldl (fun sum line => sum + line.amount.amountMinor) 0 =
      (l.map fun line => line.amount.amountMinor).sum := by
    rw [List.sum_eq_foldl_nat, List.foldl_map]
  induction lines with
  | nil => rfl
  | cons line lines ih =>
    rw [List.map_cons, List.sum_cons, ih]
    simp only [sumByDirection, hsum]
    cases hdirection : line.direction with
    | debit | credit =>
      simp [JournalLine.signed, hdirection, LedgerDirection.sign]
      omega

theorem create_balanced {id : UniqueEntityId} {sourceRef : String} {lines : List JournalLine}
    (h : Journal.create id sourceRef currency lines = .ok journal) :
    (∀ line ∈ journal.lines, line.amount.currency = currency) ∧
      (journal.lines.map JournalLine.signed).sum = 0 := by
  rw [Journal.create] at h
  split at h
  · cases h
  dsimp only at h
  split at h
  · cases h
  rename_i hcurrency
  split at h
  · cases h
  rename_i hsums
  injection h with h
  subst h
  constructor
  · simpa using hcurrency
  · rw [signed_sum, not_not.mp hsums, Int.sub_self]

variable {occurredAt : ℤ}

theorem post_lines (h : journal.post occurredAt = .ok reversal) :
    reversal.isPosted = true ∧ reversal.lines = journal.lines := by
  rw [Journal.post] at h
  split at h
  · cases h
  · injection h with h
    subst h
    exact ⟨rfl, rfl⟩

theorem reverse_lines {newId : UniqueEntityId}
    (h : Journal.reverse newId journal occurredAt = .ok reversal) :
    reversal.isPosted = true ∧ reversal.lines = journal.lines.map fun line =>
      { line with direction := line.direction.opposite } := by
  rw [Journal.reverse] at h
  split at h
  · cases h
  · exact post_lines h

theorem reversed_signed (lines : List JournalLine) :
    ((lines.map fun line => { line with direction := line.direction.opposite }).map
      JournalLine.signed).sum = -(lines.map JournalLine.signed).sum := by
  rw [List.sum_neg, List.map_map, List.map_map]
  refine congrArg List.sum (List.map_congr_left fun line _ => ?_)
  simp [JournalLine.signed]

theorem Posted.balanced (h : Posted currency journal) : Balanced currency journal := by
  induction h with
  | created hcreate hpost =>
    obtain ⟨hposted, hlines⟩ := post_lines hpost
    obtain ⟨hcurrency, hbalanced⟩ := create_balanced hcreate
    rw [← hlines] at hcurrency hbalanced
    exact ⟨hposted, hcurrency, hbalanced⟩
  | reversed horiginal hreverse ih =>
    obtain ⟨hposted, hlines⟩ := reverse_lines hreverse
    constructor
    · exact hposted
    · intro line hline
      rw [hlines] at hline
      obtain ⟨original, horiginal, rfl⟩ := List.mem_map.mp hline
      exact ih.oneCurrency original horiginal
    · rw [hlines, reversed_signed, ih.balanced, neg_zero]

def entriesOf (journal : Journal) : List LedgerEntry :=
  journal.lines.map fun line => {
    journalId := journal.id
    sourceRef := journal.sourceRef
    accountRef := line.accountRef
    direction := line.direction
    amount := line.amount
    memo := line.memo
    postedAt := journal.postedAt.getD 0 }

theorem toLedgerEntries_posted (h : journal.isPosted = true) :
    journal.toLedgerEntries = .ok (entriesOf journal) := by
  obtain ⟨postedAt, hposted⟩ := Option.isSome_iff_exists.mp h
  rw [Journal.toLedgerEntries, entriesOf, hposted]
  rfl

theorem ledgerOf_posted {books : List Journal} (h : ∀ journal ∈ books, journal.isPosted = true) :
    ledgerOf books = .ok (books.flatMap entriesOf) := by
  have hmap : books.mapM Journal.toLedgerEntries = .ok (books.map entriesOf) :=
    mapM_ok fun journal hjournal => toLedgerEntries_posted (h journal hjournal)
  rw [ledgerOf, hmap, List.flatMap]
  rfl

theorem entriesOf_currency (h : Balanced currency journal) :
    ∀ entry ∈ entriesOf journal, entry.amount.currency = currency := by
  intro entry hentry
  obtain ⟨line, hline, rfl⟩ := List.mem_map.mp hentry
  exact h.oneCurrency line hline

theorem entriesOf_signed (journal : Journal) :
    ((entriesOf journal).map LedgerEntry.signed).sum =
      (journal.lines.map JournalLine.signed).sum := by
  rw [entriesOf, List.map_map]
  rfl

theorem net_append (entries more : List LedgerEntry) (accountRef : String) :
    net (entries ++ more) accountRef = net entries accountRef + net more accountRef :=
  totalAt_append _ _ _

theorem net_entriesOf (journal : Journal) (accountRef : String) :
    net (entriesOf journal) accountRef =
      totalAt JournalLine.accountRef JournalLine.signed journal.lines accountRef :=
  totalAt_map _ _ _

theorem net_reversal {newId : UniqueEntityId}
    (h : Journal.reverse newId journal occurredAt = .ok reversal) (accountRef : String) :
    net (entriesOf reversal) accountRef = -net (entriesOf journal) accountRef := by
  rw [net_entriesOf, net_entriesOf, (reverse_lines h).2]
  induction journal.lines with
  | nil => rfl
  | cons line lines ih =>
    rw [List.map_cons, totalAt_cons, totalAt_cons, ih, neg_add]
    simp only [JournalLine.signed, opposite_sign, neg_mul]
    split <;> simp

open LedgerService StatementBuilder

theorem foldlM_plus {f : α → Except DomainError Balance} {g : α → ℤ} {l : List α}
    (h : ∀ a ∈ l, f a = .ok ⟨g a, currency⟩) (n : ℤ) :
    l.foldlM (fun sum a => do sum.plus (← f a)) (⟨n, currency⟩ : Balance) =
      .ok ⟨n + (l.map g).sum, currency⟩ := by
  induction l generalizing n with
  | nil => simp; rfl
  | cons a l ih =>
    rw [List.foldlM_cons, h a List.mem_cons_self, ok_bind, Balance.plus_mk, ok_bind,
      ih fun x hx => h x (List.mem_cons_of_mem _ hx), List.map_cons, List.sum_cons, add_assoc]

theorem accountBalance_ok (h : ∀ entry ∈ entries, entry.amount.currency = currency)
    (accountRef : String) (type : AccountType) :
    accountBalance entries accountRef type currency =
      .ok ⟨type.normalSide.sign * net entries accountRef, currency⟩ := by
  have hsum : type.normalSide.sign * net entries accountRef =
      ((entries.filter fun entry => entry.accountRef == accountRef).map fun entry =>
        type.normalSide.sign * entry.signed).sum := by
    rw [net, totalAt, List.sum_map_mul_left]
    rfl
  rw [hsum, ← Int.zero_add (List.sum _)]
  refine foldlM_plus (f := fun entry => .ok _) ?_ 0
  intro entry hentry
  have hcurrency := h entry (List.mem_of_mem_filter hentry)
  rw [hcurrency, LedgerEntry.signed]
  cases entry.direction with
  | debit | credit => cases type.normalSide <;> simp [Balance.of, LedgerDirection.sign]

def netOfType (entries : List LedgerEntry) (accounts : List Account) (type : AccountType) : ℤ :=
  (accounts.map fun account => if account.type = type then net entries account.code else 0).sum

theorem sumByType_ok (h : ∀ entry ∈ entries, entry.amount.currency = currency)
    (type : AccountType) (accounts : List Account) :
    sumByType entries currency type accounts =
      .ok ⟨type.normalSide.sign * netOfType entries accounts type, currency⟩ := by
  have hsum := sum_filter (fun account : Account => net entries account.code)
    (fun account => account.type = type) accounts
  simp only [decide_eq_true_eq] at hsum
  rw [netOfType, ← hsum, ← List.sum_map_mul_left, ← Int.zero_add (List.sum _)]
  refine foldlM_plus ?_ 0
  intro account haccount
  have htype : account.type = type := by simpa using List.of_mem_filter haccount
  rw [htype]
  exact accountBalance_ok h account.code type

theorem netOfType_sum (entries : List LedgerEntry) (accounts : List Account) :
    netOfType entries accounts .asset + netOfType entries accounts .liability +
      netOfType entries accounts .equity + netOfType entries accounts .revenue +
      netOfType entries accounts .expense =
    (accounts.map fun account => net entries account.code).sum := by
  simp only [netOfType, ← List.sum_map_add]
  refine congrArg List.sum (List.map_congr_left fun account _ => ?_)
  cases account.type <;> simp

theorem cogs_and_expenses (text : TextOps) (entries : List LedgerEntry) (accounts : List Account) :
    let cogsAccounts := accounts.filter fun account =>
      account.type = .expense && isCogsCode text account.code
    netOfType entries cogsAccounts .expense +
        netOfType entries (accounts.filter fun account =>
          account.type = .expense && !(cogsAccounts.map Account.code).contains account.code)
          .expense =
      netOfType entries accounts .expense := by
  intro cogsAccounts
  simp only [netOfType, cogsAccounts, sum_filter, ← List.sum_map_add]
  refine congrArg List.sum (List.map_congr_left fun account haccount => ?_)
  by_cases htype : account.type = .expense
  · have hcogs : ((accounts.filter fun a => decide (a.type = .expense) &&
        isCogsCode text a.code).map Account.code).contains account.code =
          isCogsCode text account.code := by
      rw [Bool.eq_iff_iff, List.contains_iff_mem, List.mem_map]
      constructor
      · rintro ⟨a, ha, hcode⟩
        rw [← hcode]
        exact (Bool.and_eq_true_iff.mp (List.mem_filter.mp ha).2).2
      · intro h
        exact ⟨account, List.mem_filter.mpr ⟨haccount, by simp [htype, h]⟩, rfl⟩
    rw [hcogs]
    cases isCogsCode text account.code <;> simp [htype]
  · simp [htype]

theorem incomeStatement_ok (text : TextOps)
    (h : ∀ entry ∈ entries, entry.amount.currency = currency) (accounts : List Account) :
    ∃ income, incomeStatement text entries accounts currency = .ok income ∧
      income.netIncome = ⟨-netOfType entries accounts .revenue -
        netOfType entries accounts .expense, currency⟩ := by
  have hsplit := cogs_and_expenses text entries accounts
  rw [incomeStatement, sumByType_ok h, ok_bind]
  dsimp only at hsplit ⊢
  rw [sumByType_ok h, ok_bind, sumByType_ok h, ok_bind, Balance.minus_mk, ok_bind,
    Balance.minus_mk, ok_bind]
  refine ⟨_, rfl, ?_⟩
  have hcredit : AccountType.revenue.normalSide.sign = -1 := rfl
  have hdebit : AccountType.expense.normalSide.sign = 1 := rfl
  rw [hcredit, hdebit, ← hsplit]
  simp only [Balance.mk.injEq, and_true]
  omega

theorem balanceSheet_ok (h : ∀ entry ∈ entries, entry.amount.currency = currency)
    {accounts : List Account} {netIncome : Balance}
    (hincome : netIncome = ⟨-netOfType entries accounts .revenue -
      netOfType entries accounts .expense, currency⟩)
    (hzero : (accounts.map fun account => net entries account.code).sum = 0) :
    ∃ sheet, balanceSheet entries accounts netIncome currency = .ok sheet ∧
      sheet.assets.amountMinor = sheet.liabilities.amountMinor + sheet.equity.amountMinor +
        netIncome.amountMinor := by
  have hsum := netOfType_sum entries accounts
  have hasset : AccountType.asset.normalSide.sign = 1 := rfl
  have hliability : AccountType.liability.normalSide.sign = -1 := rfl
  have hequity : AccountType.equity.normalSide.sign = -1 := rfl
  have hidentity : AccountType.asset.normalSide.sign * netOfType entries accounts .asset =
      AccountType.liability.normalSide.sign * netOfType entries accounts .liability +
        AccountType.equity.normalSide.sign * netOfType entries accounts .equity +
        netIncome.amountMinor := by
    rw [hincome, hasset, hliability, hequity]
    simp only
    omega
  subst hincome
  rw [balanceSheet, sumByType_ok h, ok_bind, sumByType_ok h, ok_bind, sumByType_ok h, ok_bind,
    Balance.plus_mk, ok_bind, Balance.plus_mk, ok_bind]
  simp only [hidentity, ne_eq, not_true_eq_false, if_false]
  exact ⟨_, rfl, rfl⟩

def LedgerEntry.on (direction : LedgerDirection) (entry : LedgerEntry) : ℕ :=
  if entry.direction = direction then entry.amount.amountMinor else 0

def onSide (direction : LedgerDirection) (totals : Totals) : ℕ :=
  match direction with
  | .debit => totals.debitMinor
  | .credit => totals.creditMinor

theorem addEntry_on (direction : LedgerDirection) (rows : OrderedMap String Totals)
    (entry : LedgerEntry) :
    ((addEntry rows entry).entries.map fun row => onSide direction row.2).sum =
      (rows.entries.map fun row => onSide direction row.2).sum + entry.on direction := by
  have hset := rows.sum_set (onSide direction) entry.accountRef (if entry.direction.isDebit
    then { (rows.find? entry.accountRef).getD ⟨0, 0⟩ with
      debitMinor := ((rows.find? entry.accountRef).getD ⟨0, 0⟩).debitMinor +
        entry.amount.amountMinor }
    else { (rows.find? entry.accountRef).getD ⟨0, 0⟩ with
      creditMinor := ((rows.find? entry.accountRef).getD ⟨0, 0⟩).creditMinor +
        entry.amount.amountMinor })
  have hold : (rows.find? entry.accountRef).elim 0 (onSide direction) =
      onSide direction ((rows.find? entry.accountRef).getD ⟨0, 0⟩) := by
    cases rows.find? entry.accountRef with
    | none => cases direction <;> rfl
    | some totals => rfl
  rw [hold] at hset
  rw [addEntry]
  refine Nat.add_right_cancel (hset.trans ?_)
  cases direction <;> cases hentry : entry.direction <;>
    simp [onSide, LedgerEntry.on, LedgerDirection.isDebit, hentry] <;> omega

theorem trialBalance_on (direction : LedgerDirection) (entries : List LedgerEntry) :
    ((StatementBuilder.trialBalance entries).map fun row => 
        onSide direction ⟨row.debitMinor, row.creditMinor⟩).sum =
      (entries.map (LedgerEntry.on direction)).sum := by
  have hfold (l : List LedgerEntry) : ∀ rows : OrderedMap String Totals,
      ((l.foldl addEntry rows).entries.map fun row => onSide direction row.2).sum =
        (rows.entries.map fun row => onSide direction row.2).sum +
          (l.map (LedgerEntry.on direction)).sum := by
    induction l with
    | nil => simp
    | cons entry l ih =>
      intro rows
      rw [List.foldl_cons, ih, addEntry_on, List.map_cons, List.sum_cons, Nat.add_assoc]
  have hrows := hfold entries .empty
  rw [StatementBuilder.trialBalance, LedgerService.trialBalance, List.map_map]
  rw [OrderedMap.entries_empty, List.map_nil, List.sum_nil, Nat.zero_add] at hrows
  exact hrows

theorem signed_on (entries : List LedgerEntry) :
    (entries.map LedgerEntry.signed).sum =
      ((entries.map (LedgerEntry.on .debit)).sum : ℤ) -
        (entries.map (LedgerEntry.on .credit)).sum := by
  induction entries with
  | nil => rfl
  | cons entry entries ih =>
    simp only [List.map_cons, List.sum_cons, ih, LedgerEntry.signed, LedgerEntry.on]
    cases entry.direction with
    | debit | credit => simp [LedgerDirection.sign]; omega

variable {books : List Journal} {accounts : List Account}

theorem books_signed (h : ∀ journal ∈ books, Balanced currency journal) :
    ((books.flatMap entriesOf).map LedgerEntry.signed).sum = 0 := by
  induction books with
  | nil => rfl
  | cons journal books ih =>
    rw [List.flatMap_cons, List.map_append, List.sum_append, entriesOf_signed,
      (h journal List.mem_cons_self).balanced, ih fun x hx => h x (List.mem_cons_of_mem _ hx),
      add_zero]

theorem books_currency (h : ∀ journal ∈ books, Balanced currency journal) :
    ∀ entry ∈ books.flatMap entriesOf, entry.amount.currency = currency := by
  intro entry hentry
  obtain ⟨journal, hjournal, hentry⟩ := List.mem_flatMap.mp hentry
  exact entriesOf_currency (h journal hjournal) entry hentry

theorem books_net (h : ∀ journal ∈ books, Balanced currency journal)
    (hcodes : (accounts.map Account.code).Nodup)
    (hcover : ∀ journal ∈ books, ∀ line ∈ journal.lines,
      line.accountRef ∈ accounts.map Account.code) :
    (accounts.map fun account => net (books.flatMap entriesOf) account.code).sum = 0 := by
  have hentries : ∀ entry ∈ books.flatMap entriesOf,
      entry.accountRef ∈ accounts.map Account.code := by
    intro entry hentry
    obtain ⟨journal, hjournal, hentry⟩ := List.mem_flatMap.mp hentry
    obtain ⟨line, hline, rfl⟩ := List.mem_map.mp hentry
    exact hcover journal hjournal line hline
  have htotal := sum_totalAt LedgerEntry.signed hcodes hentries
  rw [List.map_map] at htotal
  exact htotal.trans (books_signed h)

theorem reversed_balance (h : ∀ journal ∈ books, Balanced currency journal)
    (hjournal : Posted currency journal) (newId : UniqueEntityId) (occurredAt : ℤ) :
    ∃ reversal, Journal.reverse newId journal occurredAt = .ok reversal ∧
      ∃ entries, ledgerOf (books ++ [journal, reversal]) = .ok entries ∧
        ∀ accountRef type, accountBalance entries accountRef type currency =
          accountBalance (books.flatMap entriesOf) accountRef type currency := by
  have hposted := hjournal.balanced.posted
  obtain ⟨reversal, hreverse⟩ : ∃ reversal,
      Journal.reverse newId journal occurredAt = .ok reversal := by
    rw [Journal.reverse, hposted]
    exact ⟨_, rfl⟩
  have hall : ∀ x ∈ books ++ [journal, reversal], Balanced currency x := by
    intro x hx
    rcases List.mem_append.mp hx with hx | hx
    · exact h x hx
    · rcases List.mem_pair.mp hx with rfl | rfl
      · exact hjournal.balanced
      · exact (Posted.reversed hjournal hreverse).balanced
  refine ⟨reversal, hreverse, _, ledgerOf_posted fun x hx => (hall x hx).posted, ?_⟩
  intro accountRef type
  have hnet : net ((books ++ [journal, reversal]).flatMap entriesOf) accountRef =
      net (books.flatMap entriesOf) accountRef := by
    simp only [List.flatMap_append, List.flatMap_cons, List.flatMap_nil, List.append_nil,
      net_append, net_reversal hreverse]
    omega
  rw [accountBalance_ok (books_currency hall), accountBalance_ok (books_currency h), hnet]

/-- For posted journals of one currency and a chart of accounts with distinct codes that covers
them: the debits of the trial balance are its credits, the balance sheet agrees with the income
statement, and a journal posted together with its reversal leaves every account as it was. -/
theorem books_balance (text : TextOps) (hbooks : ∀ journal ∈ books, Posted currency journal)
    (hcodes : (accounts.map Account.code).Nodup)
    (hcover : ∀ journal ∈ books, ∀ line ∈ journal.lines,
      line.accountRef ∈ accounts.map Account.code) :
    ∃ entries, ledgerOf books = .ok entries ∧
      ((StatementBuilder.trialBalance entries).map TrialBalanceRow.debitMinor).sum =
        ((StatementBuilder.trialBalance entries).map TrialBalanceRow.creditMinor).sum ∧
      (∃ income sheet, incomeStatement text entries accounts currency = .ok income ∧
        balanceSheet entries accounts income.netIncome currency = .ok sheet ∧
        sheet.assets.amountMinor = sheet.liabilities.amountMinor + sheet.equity.amountMinor +
          income.netIncome.amountMinor) ∧
      ∀ journal, Posted currency journal → ∀ newId occurredAt, ∃ reversal,
        Journal.reverse newId journal occurredAt = .ok reversal ∧
          ∃ entries', ledgerOf (books ++ [journal, reversal]) = .ok entries' ∧
            ∀ accountRef type, accountBalance entries' accountRef type currency =
              accountBalance entries accountRef type currency := by
  have hall : ∀ journal ∈ books, Balanced currency journal := fun journal hjournal =>
    (hbooks journal hjournal).balanced
  refine ⟨_, ledgerOf_posted fun journal hjournal => (hall journal hjournal).posted, ?_, ?_, ?_⟩
  · have hdebit := trialBalance_on .debit (books.flatMap entriesOf)
    have hcredit := trialBalance_on .credit (books.flatMap entriesOf)
    have hsigned := signed_on (books.flatMap entriesOf)
    rw [books_signed hall] at hsigned
    have hsides : ((books.flatMap entriesOf).map (LedgerEntry.on .debit)).sum =
        ((books.flatMap entriesOf).map (LedgerEntry.on .credit)).sum := by omega
    exact hdebit.trans (hsides.trans hcredit.symm)
  · obtain ⟨income, hincome, hnet⟩ := incomeStatement_ok text (books_currency hall) accounts
    obtain ⟨sheet, hsheet, hidentity⟩ := balanceSheet_ok (books_currency hall) hnet
      (books_net hall hcodes hcover)
    exact ⟨income, sheet, hincome, hsheet, hidentity⟩
  · intro journal hjournal newId occurredAt
    exact reversed_balance hall hjournal newId occurredAt

/-- A sale of 10.00, posted. -/
def saleLines : List JournalLine :=
  [⟨"1200-AR", .debit, ⟨1000, "AED", by decide⟩, none⟩,
    ⟨"4000-REVENUE", .credit, ⟨1000, "AED", by decide⟩, none⟩]

def saleChart : List Account :=
  [⟨⟨"account-1", by decide⟩, "1200-AR", "Accounts receivable", .asset, true⟩,
    ⟨⟨"account-2", by decide⟩, "4000-REVENUE", "Revenue", .revenue, true⟩]

def saleDraft : Journal :=
  ⟨⟨"journal-1", by decide⟩, "order:1", "AED", saleLines, none, none⟩

theorem books_balance_sale :
    ∃ entries, ledgerOf [{ saleDraft with postedAt := some 0 }] = .ok entries ∧
      ((StatementBuilder.trialBalance entries).map TrialBalanceRow.debitMinor).sum =
        ((StatementBuilder.trialBalance entries).map TrialBalanceRow.creditMinor).sum ∧
      ∃ income sheet, incomeStatement ⟨toUpperCase, id, fun _ _ => 0⟩ entries saleChart "AED" =
          .ok income ∧
        balanceSheet entries saleChart income.netIncome "AED" = .ok sheet := by
  have hcreate : Journal.create saleDraft.id "order:1" "AED" saleLines = .ok saleDraft := rfl
  have hpost : saleDraft.post 0 = .ok { saleDraft with postedAt := some 0 } := rfl
  have hbooks : ∀ journal ∈ [{ saleDraft with postedAt := some 0 }], Posted "AED" journal := by
    intro journal hjournal
    rw [List.mem_singleton.mp hjournal]
    exact .created hcreate hpost
  have hcodes : (saleChart.map Account.code).Nodup := by decide
  have hcover : ∀ journal ∈ [{ saleDraft with postedAt := some 0 }], ∀ line ∈ journal.lines,
      line.accountRef ∈ saleChart.map Account.code := by decide
  obtain ⟨entries, hledger, hsums, ⟨income, sheet, hincome, hsheet, -⟩, -⟩ :=
    books_balance ⟨toUpperCase, id, fun _ _ => 0⟩ hbooks hcodes hcover
  exact ⟨entries, hledger, hsums, income, sheet, hincome, hsheet⟩

/-- The statements do not depend on the order in which the journals were posted. -/
theorem statements_reordered (text : TextOps) {books' : List Journal} (hperm : books.Perm books')
    (hbooks : ∀ journal ∈ books, Posted currency journal) (netIncome : Balance) :
    (do incomeStatement text (← ledgerOf books) accounts currency) =
        (do incomeStatement text (← ledgerOf books') accounts currency) ∧
      (do balanceSheet (← ledgerOf books) accounts netIncome currency) =
        (do balanceSheet (← ledgerOf books') accounts netIncome currency) := by
  have hall : ∀ journal ∈ books, Balanced currency journal := fun journal hjournal =>
    (hbooks journal hjournal).balanced
  have hall' : ∀ journal ∈ books', Balanced currency journal := fun journal hjournal =>
    hall journal (hperm.mem_iff.mpr hjournal)
  have hnet : net (books.flatMap entriesOf) = net (books'.flatMap entriesOf) := by
    funext accountRef
    exact (((hperm.flatMap_right entriesOf).filter _).map _).sum_eq
  have hsum (type : AccountType) (accounts : List Account) :
      sumByType (books.flatMap entriesOf) currency type accounts =
        sumByType (books'.flatMap entriesOf) currency type accounts := by
    rw [sumByType_ok (books_currency hall), sumByType_ok (books_currency hall'), netOfType,
      netOfType, hnet]
  rw [ledgerOf_posted fun j hj => (hall j hj).posted,
    ledgerOf_posted fun j hj => (hall' j hj).posted]
  simp only [ok_bind, incomeStatement, balanceSheet, hsum, and_self]

theorem statements_reordered_swap :
    (do incomeStatement ⟨toUpperCase, id, fun _ _ => 0⟩ (← ledgerOf
          [{ saleDraft with postedAt := some 0 }, { saleDraft with postedAt := some 1 }])
          saleChart "AED") =
      (do incomeStatement ⟨toUpperCase, id, fun _ _ => 0⟩ (← ledgerOf
            [{ saleDraft with postedAt := some 1 }, { saleDraft with postedAt := some 0 }])
            saleChart "AED") := by
  have hcreate : Journal.create saleDraft.id "order:1" "AED" saleLines = .ok saleDraft := rfl
  have hposted (at_ : ℤ) : Posted "AED" { saleDraft with postedAt := some at_ } :=
    .created hcreate rfl
  exact (statements_reordered _ (.swap _ _ _) (by simp [hposted]) ⟨0, "AED"⟩).1

end Finance
