import Lumo.Builtins
import Lumo.OrderedMap

/-! # The ledger of the finance service

Journals, the entries that posting them leaves, the chart of accounts, and the statements
built from these. The event raised by posting is not modelled. -/
namespace Finance

open SharedKernel Builtins

inductive LedgerDirection where
  | debit
  | credit
  deriving DecidableEq

namespace LedgerDirection

def isDebit (direction : LedgerDirection) : Bool := direction == debit

def opposite : LedgerDirection → LedgerDirection
  | debit => credit
  | credit => debit

end LedgerDirection

structure JournalLine where
  accountRef : String
  direction : LedgerDirection
  amount : Money
  memo : Option String

structure LedgerEntry where
  journalId : UniqueEntityId
  sourceRef : String
  accountRef : String
  direction : LedgerDirection
  amount : Money
  memo : Option String
  postedAt : ℤ

structure Journal where
  id : UniqueEntityId
  sourceRef : String
  currency : String
  lines : List JournalLine
  reversalOfJournalId : Option UniqueEntityId
  postedAt : Option ℤ

def sumByDirection (lines : List JournalLine) (direction : LedgerDirection) : ℕ :=
  (lines.filter fun line => line.direction == direction).foldl
    (fun sum line => sum + line.amount.amountMinor) 0

namespace Journal

def create (id : UniqueEntityId) (sourceRef currency : String) (lines : List JournalLine) :
    Except DomainError Journal := do
  if lines.length < 2 then
    throw (.validation "Invalid journal" [⟨"lines", "a journal must have at least 2 lines"⟩])
  if lines.any fun line => line.amount.currency != currency then
    throw (.businessRule "All journal lines must share the journal's currency")
  let debits := sumByDirection lines .debit
  let credits := sumByDirection lines .credit
  if debits ≠ credits then
    throw (.businessRule ("Journal is not balanced: debits (" ++ toString debits ++
      ") != credits (" ++ toString credits ++ ")"))
  return {
    id := id
    sourceRef := sourceRef
    currency := currency
    lines := lines
    reversalOfJournalId := none
    postedAt := none }

def isPosted (journal : Journal) : Bool := journal.postedAt.isSome

def post (journal : Journal) (occurredAt : ℤ) : Except DomainError Journal := do
  if journal.postedAt.isSome then
    throw (.businessRule "Journal is already posted")
  return { journal with postedAt := some occurredAt }

/-- A new journal, posted already, with every line on the other side. -/
def reverse (newId : UniqueEntityId) (original : Journal) (occurredAt : ℤ) :
    Except DomainError Journal := do
  if ¬ original.isPosted then
    throw (.businessRule "Cannot reverse a journal that was never posted")
  let flipped := original.lines.map fun line =>
    { line with direction := line.direction.opposite }
  let reversal : Journal := {
    id := newId
    sourceRef := original.sourceRef
    currency := original.currency
    lines := flipped
    reversalOfJournalId := some original.id
    postedAt := none }
  reversal.post occurredAt

def toLedgerEntries (journal : Journal) : Except DomainError (List LedgerEntry) :=
  match journal.postedAt with
  | none => .error (.businessRule "Cannot derive ledger entries from an unposted journal")
  | some postedAt => .ok (journal.lines.map fun line => {
      journalId := journal.id
      sourceRef := journal.sourceRef
      accountRef := line.accountRef
      direction := line.direction
      amount := line.amount
      memo := line.memo
      postedAt := postedAt })

end Journal

inductive AccountType where
  | asset
  | liability
  | equity
  | revenue
  | expense
  deriving DecidableEq

def debitNormal : List AccountType := [.asset, .expense]

def AccountType.normalSide (type : AccountType) : LedgerDirection :=
  if debitNormal.contains type then .debit else .credit

structure Account where
  id : UniqueEntityId
  code : String
  name : String
  type : AccountType
  active : Bool

def Account.create (id : UniqueEntityId) (code name : String) (type : AccountType) :
    Except DomainError Account := do
  if isBlank code then throw (.validation "Invalid account" [⟨"code", "must not be empty"⟩])
  if isBlank name then throw (.validation "Invalid account" [⟨"name", "must not be empty"⟩])
  return ⟨id, code, name, type, true⟩

structure Balance where
  amountMinor : ℤ
  currency : String

namespace Balance

def zero (currency : String) : Balance := ⟨0, currency⟩

/-- Amounts are integers here, so that the check of the source never fails. -/
def of (amountMinor : ℤ) (currency : String) : Balance := ⟨amountMinor, currency⟩

def assertSameCurrency (balance other : Balance) : Except DomainError Unit :=
  if other.currency ≠ balance.currency then
    .error (.businessRule "Cannot operate on balances of different currencies")
  else .ok ()

def plus (balance other : Balance) : Except DomainError Balance := do
  balance.assertSameCurrency other
  return { balance with amountMinor := balance.amountMinor + other.amountMinor }

def minus (balance other : Balance) : Except DomainError Balance := do
  balance.assertSameCurrency other
  return { balance with amountMinor := balance.amountMinor - other.amountMinor }

theorem plus_mk (m n : ℤ) (currency : String) :
    (⟨m, currency⟩ : Balance).plus ⟨n, currency⟩ = .ok ⟨m + n, currency⟩ := by
  simp [plus, assertSameCurrency]

theorem minus_mk (m n : ℤ) (currency : String) :
    (⟨m, currency⟩ : Balance).minus ⟨n, currency⟩ = .ok ⟨m - n, currency⟩ := by
  simp [minus, assertSameCurrency]

end Balance

namespace LedgerService

/-- The signed balance of one account, on its own normal side. -/
def accountBalance (entries : List LedgerEntry) (accountRef : String) (type : AccountType)
    (currency : String) : Except DomainError Balance :=
  let own := entries.filter fun entry => entry.accountRef == accountRef
  own.foldlM (fun balance entry =>
    balance.plus (if entry.direction = type.normalSide
      then .of entry.amount.amountMinor entry.amount.currency
      else .of (-entry.amount.amountMinor) entry.amount.currency)) (.zero currency)

structure Totals where
  debitMinor : ℕ
  creditMinor : ℕ

structure TrialBalanceRow where
  accountRef : String
  debitMinor : ℕ
  creditMinor : ℕ
  deriving DecidableEq

def addEntry (rows : OrderedMap String Totals) (entry : LedgerEntry) : OrderedMap String Totals :=
  let row := (rows.find? entry.accountRef).getD ⟨0, 0⟩
  rows.set entry.accountRef (if entry.direction.isDebit
    then { row with debitMinor := row.debitMinor + entry.amount.amountMinor }
    else { row with creditMinor := row.creditMinor + entry.amount.amountMinor })

def trialBalance (entries : List LedgerEntry) : List TrialBalanceRow :=
  (entries.foldl addEntry .empty).entries.map fun (accountRef, totals) =>
    ⟨accountRef, totals.debitMinor, totals.creditMinor⟩

end LedgerService

namespace StatementBuilder

structure IncomeStatement where
  revenue : Balance
  cogs : Balance
  expenses : Balance
  netIncome : Balance

structure BalanceSheet where
  assets : Balance
  liabilities : Balance
  equity : Balance

def trialBalance (entries : List LedgerEntry) : List LedgerService.TrialBalanceRow :=
  LedgerService.trialBalance entries

def sumByType (entries : List LedgerEntry) (currency : String) (type : AccountType)
    (accounts : List Account) : Except DomainError Balance :=
  (accounts.filter fun account => account.type = type).foldlM (fun sum account => do
    sum.plus (← LedgerService.accountBalance entries account.code account.type currency))
    (.zero currency)

/-- `account.code.toUpperCase().includes("COGS")`. -/
def isCogsCode (text : TextOps) (code : String) : Bool :=
  (text.toUpperCase code).toList.tails.any fun rest => "COGS".toList.isPrefixOf rest

/-- The accounts of cost of goods sold are expense accounts that are told apart by their code;
`expenses` leaves them out. -/
def incomeStatement (text : TextOps) (entries : List LedgerEntry) (accounts : List Account)
    (currency : String) : Except DomainError IncomeStatement := do
  let revenue ← sumByType entries currency .revenue accounts
  let cogsAccounts := accounts.filter fun account =>
    account.type = .expense && isCogsCode text account.code
  let cogsRefs := cogsAccounts.map Account.code
  let nonCogsExpenseAccounts := accounts.filter fun account =>
    account.type = .expense && !cogsRefs.contains account.code
  let cogs ← sumByType entries currency .expense cogsAccounts
  let expenses ← sumByType entries currency .expense nonCogsExpenseAccounts
  let netIncome ← (← revenue.minus cogs).minus expenses
  return ⟨revenue, cogs, expenses, netIncome⟩

/-- Enforces that assets are liabilities, equity and net income together. -/
def balanceSheet (entries : List LedgerEntry) (accounts : List Account) (netIncome : Balance)
    (currency : String) : Except DomainError BalanceSheet := do
  let assets ← sumByType entries currency .asset accounts
  let liabilities ← sumByType entries currency .liability accounts
  let equity ← sumByType entries currency .equity accounts
  if assets.amountMinor ≠ (← (← liabilities.plus equity).plus netIncome).amountMinor then
    throw (.businessRule
      "Balance sheet does not satisfy assets = liabilities + equity + net income")
  return ⟨assets, liabilities, equity⟩

end StatementBuilder

end Finance
