import Mathlib.Data.List.Basic
import Mathlib.Data.Int.Notation

/-! # Pages and their cursors

A list is read page by page, each request with the cursor that the page before it ended with. -/
namespace CursorPages

variable {α β κ : Type}

structure Page (α κ : Type) where
  items : List α
  hasNextPage : Bool
  endCursor : Option κ

def DEFAULT_PAGE_SIZE : ℤ := 50

def MAX_PAGE_SIZE : ℤ := 100

def normalizePageSize : Option ℤ → ℕ
  | none => DEFAULT_PAGE_SIZE.toNat
  | some first => (max 1 (min first MAX_PAGE_SIZE)).toNat

theorem normalizePageSize_pos (first : Option ℤ) : 0 < normalizePageSize first := by
  cases first with
  | none => decide
  | some first =>
    rw [normalizePageSize]
    omega

/-- The rows are one more than the page, where there are as many. -/
def buildPaginatedPage (overFetchedRows : List α) (first : ℕ) (sortKeyOf : α → κ) : Page α κ :=
  let hasNextPage := decide (first < overFetchedRows.length)
  let items := if hasNextPage then overFetchedRows.take first else overFetchedRows
  ⟨items, hasNextPage, items.getLast?.map sortKeyOf⟩

/-- Reads page after page, until one has no next page. -/
def follow (page : Option κ → Page α κ) : ℕ → Option κ → Option (List α)
  | 0, _ => none
  | fuel + 1, after =>
    if (page after).hasNextPage then
      (follow page fuel (page after).endCursor).map ((page after).items ++ ·)
    else some (page after).items

/-- A page shows what it visits of the rows that remain, and the next starts where it stopped. -/
def Progresses (page : Option κ → Page α κ) (rest : Option κ → List β) (visit : β → Option α) :
    Prop :=
  ∀ after,
    ((page after).hasNextPage = false ∧ (page after).items = (rest after).filterMap visit) ∨
    ((page after).hasNextPage = true ∧ ∃ seen, seen ≠ [] ∧
      rest after = seen ++ rest (page after).endCursor ∧ (page after).items = seen.filterMap visit)

theorem follow_complete {page : Option κ → Page α κ} {rest : Option κ → List β}
    {visit : β → Option α} (h : Progresses page rest visit) {fuel : ℕ} {after : Option κ}
    (hfuel : (rest after).length < fuel) :
    follow page fuel after = some ((rest after).filterMap visit) := by
  induction fuel generalizing after with
  | zero => omega
  | succ fuel ih =>
    rw [follow]
    rcases h after with ⟨hlast, hitems⟩ | ⟨hnext, seen, hseen, hrest, hitems⟩
    · rw [hlast, hitems]
      rfl
    · have hlength := congrArg List.length hrest
      have hpos := List.length_pos_of_ne_nil hseen
      rw [List.length_append] at hlength
      rw [if_pos hnext, ih (by omega), hitems, Option.map_some, ← List.filterMap_append, ← hrest]

end CursorPages
