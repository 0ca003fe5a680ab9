import Lumo.CatalogProductRuns
import Lumo.OrdersPaging

/-! # The products of a collection

A collection lists its products by their ids, in an order of its own, and is paged over by index. -/
namespace Catalog

open Builtins CursorPages SharedKernel

inductive CollectionStatus where
  | draft
  | published
  deriving DecidableEq

/-- A product is added once, and a new order is a permutation. -/
structure Collection where
  status : CollectionStatus
  productIds : List String
  distinct : productIds.Nodup

namespace ListCollectionProducts

variable (catalog : List Product) (collection : Collection) (first : Option ℤ)

def findById (id : String) : Option Product :=
  catalog.find? fun product => product.id.value = id && !product.deleted

def startIndex (after : Option String) : ℕ :=
  match after.bind number with
  | some decodedAfter =>
    if isInteger decodedAfter && 0 ≤ decodedAfter then decodedAfter.num.toNat + 1 else 0
  | none => 0

def publishedOnly (id : String) : Option Product :=
  (findById catalog id).filter fun product => product.status = .published

def page (after : Option String) : Page Product String :=
  let start := startIndex after
  let slice := (collection.productIds.drop start).take (normalizePageSize first)
  { items := slice.filterMap (publishedOnly catalog)
    hasNextPage := start + slice.length < collection.productIds.length
    endCursor := if 0 < slice.length then some (toString (start + slice.length - 1)) else none }

def execute (found : Option Collection) (after : Option String) :
    Except DomainError (Page Product String) :=
  match found with
  | none => .error (.notFound "Collection not found")
  | some collection =>
    if collection.status ≠ .published then .error (.notFound "Collection not found")
    else .ok (page catalog collection first after)

variable {catalog collection first}

theorem startIndex_toString (n : ℕ) : startIndex (some (toString n)) = n + 1 := by
  unfold startIndex
  rw [Option.bind_some, number_toString]
  simp [isInteger]

theorem page_progresses : Progresses (page catalog collection first)
    (fun after => collection.productIds.drop (startIndex after)) (publishedOnly catalog) := by
  intro after
  have hpos := normalizePageSize_pos first
  obtain ⟨start, hstart⟩ : ∃ start, start = startIndex after := ⟨_, rfl⟩
  obtain ⟨slice, hslice⟩ : ∃ slice, slice =
      (collection.productIds.drop start).take (normalizePageSize first) := ⟨_, rfl⟩
  have hlength := congrArg List.length hslice
  rw [List.length_take, List.length_drop] at hlength
  have hsplit : collection.productIds.drop start =
      slice ++ collection.productIds.drop (start + slice.length) := by
    rw [← List.drop_drop, hslice, List.length_take]
    rcases Nat.le_total (normalizePageSize first) (collection.productIds.drop start).length with
      hpart | hall
    · rw [min_eq_left hpart, List.take_append_drop]
    · rw [min_eq_right hall, List.take_of_length_le hall, List.drop_length, List.append_nil]
  simp only [page, ← hstart, ← hslice]
  by_cases hnext : start + slice.length < collection.productIds.length
  · have hsome : 0 < slice.length := by omega
    refine .inr ⟨decide_eq_true hnext, slice, List.ne_nil_of_length_pos hsome, ?_, rfl⟩
    rw [if_pos hsome, startIndex_toString, show start + slice.length - 1 + 1 = start + slice.length
      by omega]
    exact hsplit
  · refine .inl ⟨decide_eq_false hnext, ?_⟩
    rw [hsplit, List.drop_of_length_le (by omega), List.append_nil]

/-- The ids that a published product is found under, in their order. -/
def publishedIds (catalog : List Product) (ids : List String) : List String :=
  ids.filter fun id => (publishedOnly catalog id).isSome

theorem publishedOnly_id {id : String} {product : Product}
    (h : publishedOnly catalog id = some product) : product.id.value = id := by
  obtain ⟨hfound, -⟩ := Option.filter_eq_some_iff.mp h
  rw [findById] at hfound
  have hmatches := List.find?_some hfound
  rw [Bool.and_eq_true, decide_eq_true_eq] at hmatches
  exact hmatches.1

theorem map_id_filterMap (ids : List String) :
    (ids.filterMap (publishedOnly catalog)).map (·.id.value) = publishedIds catalog ids := by
  induction ids with
  | nil => rfl
  | cons id ids ih =>
    cases hfound : publishedOnly catalog id with
    | none => simpa [publishedIds, hfound] using ih
    | some product => simpa [publishedIds, hfound, publishedOnly_id hfound] using ih

end ListCollectionProducts

end Catalog

/-! ## Following the pages

What a client sees that follows the cursors of either list. -/
namespace CursorPages

open Orders Catalog

/-- The orders of a query, and the published products of a published collection, are visited once
each and in their order, and the pages come to an end. A cursor is the position of the last id that a
page has seen. -/
theorem pages_visit_all :
    (∀ {κ : Type} [LinearOrder κ] (contains : String → String → Bool) (table : OrdersTable κ)
      (query : OrderListQuery κ), ∃ fuel orders,
        follow (fun after => list contains table { query with after }) fuel query.after =
            some orders ∧ (orders.Pairwise fun a b => b.id < a.id) ∧
          ∀ order, order ∈ orders ↔ order ∈ table.rows ∧
            selects contains query.after query.search order = true ∧
              statusMatches query.status order = true) ∧
      (ListCollectionProducts.startIndex none = 0 ∧
        ∀ n : ℕ, ListCollectionProducts.startIndex (some (toString n)) = n + 1) ∧
      ∀ (catalog : List Product) (collection : Collection) (first : Option ℤ)
        (after : Option String), collection.status = .published →
        ∃ page : Option String → Page Product String,
          (∀ cursor, ListCollectionProducts.execute catalog first (some collection) cursor =
            .ok (page cursor)) ∧
          ∃ fuel products, follow page fuel after = some products ∧
            (products.map (·.id.value)).Nodup ∧ products.map (·.id.value) =
              ListCollectionProducts.publishedIds catalog
                (collection.productIds.drop (ListCollectionProducts.startIndex after)) := by
  refine ⟨fun contains table query => list_visits contains table query,
    ⟨rfl, ListCollectionProducts.startIndex_toString⟩, ?_⟩
  intro catalog collection first after hpublished
  refine ⟨ListCollectionProducts.page catalog collection first, fun cursor => ?_, _, _,
    follow_complete ListCollectionProducts.page_progresses (Nat.lt_succ_self _), ?_,
    ListCollectionProducts.map_id_filterMap _⟩
  · simp [ListCollectionProducts.execute, hpublished]
  · rw [ListCollectionProducts.map_id_filterMap]
    exact (collection.distinct.sublist (List.drop_sublist _ _)).filter _

def teaCollection : Collection := ⟨.published, ["pot", "tea"], by decide⟩

def teaCatalog : List Product := [{ sampleProduct [] with status := .published }]

/-- Of the two ids of the collection the first has no product. -/
theorem pages_visit_tea : teaCollection.status = .published ∧
    ∃ page : Option String → Page Product String,
      (∀ cursor, ListCollectionProducts.execute teaCatalog none (some teaCollection) cursor =
        .ok (page cursor)) ∧
      ∃ fuel products, follow page fuel none = some products ∧
        (products.map (·.id.value)).Nodup ∧ products.map (·.id.value) = ["tea"] :=
  ⟨rfl, pages_visit_all.2.2 teaCatalog teaCollection none none rfl⟩

end CursorPages
