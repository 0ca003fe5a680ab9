import Lumo.CatalogProduct
import Lumo.Forests
import Lumo.Interleavings
import Lumo.VersionedTable

/-! # Categories

The categories of one shop, and the use cases that create, move and delete them. A use case is
one transaction: each of its statements reads what has been committed by then, and what it
saves takes effect at its end, or not at all. -/
namespace CatalogCategories

open SharedKernel Catalog Interleavings VersionedTable

inductive CategoryEventData where
  | created (name slug : String) (parentId : Option String)
  | moved (newParentId : Option String)
  | deleted

structure CategoryEvent where
  aggregateId : UniqueEntityId
  occurrence : Occurrence
  data : CategoryEventData

structure Category where
  id : UniqueEntityId
  version : ℕ
  name : String
  slug : Slug
  parentId : Option String
  deleted : Bool
  domainEvents : List CategoryEvent

namespace Category

def addDomainEvent (occurrence : Occurrence) (data : CategoryEventData) (category : Category) :
    Category :=
  { category with
    domainEvents := category.domainEvents ++ [⟨category.id, occurrence, data⟩] }

def create (id : UniqueEntityId) (name : String) (slug : Slug) (parentId : Option String)
    (occurrence : Occurrence) : Category :=
  addDomainEvent occurrence (.created name slug.value parentId) {
    id
    version := 0
    name
    slug
    parentId
    deleted := false
    domainEvents := [] }

/-- `ancestorIds` is the chain that the category is moved under. -/
def moveTo (category : Category) (newParentId : Option String) (ancestorIds : List String)
    (occurrence : Occurrence) : Except DomainError Category :=
  if newParentId = some category.id.value ∨ category.id.value ∈ ancestorIds then
    .error (.businessRule "A category cannot become its own ancestor")
  else
    .ok (addDomainEvent occurrence (.moved newParentId) { category with parentId := newParentId })

def delete (category : Category) (occurrence : Occurrence) : Except DomainError Category :=
  if category.deleted then .error (.businessRule "Category is already deleted")
  else .ok (addDomainEvent occurrence .deleted { category with deleted := true })

end Category

structure CategoryRow where
  id : UniqueEntityId
  name : String
  slug : Slug
  parentId : Option String
  deletedAt : Option ℤ

namespace CategoryMapper

def toDomain (row : Row CategoryRow) : Category :=
  { id := row.value.id
    version := row.version
    name := row.value.name
    slug := row.value.slug
    parentId := row.value.parentId
    deleted := row.value.deletedAt.isSome
    domainEvents := [] }

def toRow (category : Category) (now : ℤ) : CategoryRow :=
  { id := category.id
    name := category.name
    slug := category.slug
    parentId := category.parentId
    deletedAt := if category.deleted then some now else none }

end CategoryMapper

def schema : Schema CategoryRow String where
  key row := row.id.value
  clash a b := a.slug == b.slug
  storable _ := true

abbrev Categories := Table CategoryRow

abbrev CategoryStore := Store CategoryRow (List CategoryEvent)

def findById (rows : Categories) (id : String) : Option Category :=
  (rows.find? fun row => row.value.id.value == id && row.value.deletedAt.isNone).map
    CategoryMapper.toDomain

def hasChildren (rows : Categories) (id : String) : Bool :=
  rows.any fun row => row.value.parentId == some id && row.value.deletedAt.isNone

/-- A version of 0 stands for a row that is not stored yet. -/
def save (store : CategoryStore) (category : Category) (now : ℤ) : Option CategoryStore :=
  VersionedTable.save schema store
    ⟨⟨CategoryMapper.toRow category now, category.version⟩, category.domainEvents⟩

inductive Request where
  | create (name slug : String) (parentId : Option String)
  | move (categoryId : String) (newParentId : Option String)
  | delete (categoryId : String)

inductive Output where
  | created (id : String)
  | moved (categoryId : String) (newParentId : Option String)
  | deleted (categoryId : String)

/-- Where a call stands: `walking` is the loop of a move, at its next ancestor. -/
inductive Point where
  | requested (request : Request)
  | inserting (name : String) (slug : Slug) (parentId : Option String)
  | walking (category : Category) (newParentId : Option String) (ancestorIds : List String)
      (cursor : Option String)
  | counting (category : Category)
  | saving (category : Category) (output : Output)
  | answered (result : Except DomainError Output)
  | thrown

/-- What the id generator and the clock give in a turn. -/
structure Draw where
  id : UniqueEntityId
  eventId : String
  now : ℤ

def Draw.occurrence (draw : Draw) : Occurrence := ⟨draw.eventId, draw.now⟩

/-- The commit; a save that the table refuses is thrown. -/
def settle (store : CategoryStore) (category : Category) (now : ℤ) (output : Output) :
    Point × CategoryStore :=
  match save store category now with
  | none => (.thrown, store)
  | some store' => (.answered (.ok output), store')

/-- The new category, under the parent that was read. -/
def CreateCategory.settle (store : CategoryStore) (name : String) (slug : Slug)
    (parentId : Option String) (draw : Draw) : Point × CategoryStore :=
  CatalogCategories.settle store (Category.create draw.id name slug parentId draw.occurrence)
    draw.now (.created draw.id.value)

def CreateCategory.read (rows : Categories) (name slug : String) (parentId : Option String) :
    Point :=
  match Slug.create slug, parentId with
  | .error e, _ => .answered (.error e)
  | .ok slug, none => .inserting name slug none
  | .ok slug, some p =>
    match findById rows p with
    | none => .answered (.error (.notFound ("Parent category not found: " ++ p)))
    | some _ => .inserting name slug (some p)

def MoveCategory.read (rows : Categories) (categoryId : String) (newParentId : Option String) :
    Point :=
  match findById rows categoryId with
  | none => .answered (.error (.notFound "Category not found"))
  | some category => .walking category newParentId [] newParentId

def MoveCategory.walk (rows : Categories) (category : Category) (newParentId : Option String)
    (ancestorIds : List String) (cursor : Option String) (draw : Draw) : Point :=
  match cursor with
  | some p =>
    match findById rows p with
    | none => .answered (.error (.notFound ("Parent category not found: " ++ p)))
    | some parent => .walking category newParentId (ancestorIds ++ [p]) parent.parentId
  | none =>
    match category.moveTo newParentId ancestorIds draw.occurrence with
    | .error e => .answered (.error e)
    | .ok moved => .saving moved (.moved category.id.value newParentId)

def DeleteCategory.read (rows : Categories) (categoryId : String) : Point :=
  match findById rows categoryId with
  | none => .answered (.error (.notFound "Category not found"))
  | some category => .counting category

def DeleteCategory.count (rows : Categories) (category : Category) (draw : Draw) : Point :=
  if hasChildren rows category.id.value then
    .answered (.error (.businessRule "Cannot delete a category with live children"))
  else
    match category.delete draw.occurrence with
    | .error e => .answered (.error e)
    | .ok deleted => .saving deleted (.deleted category.id.value)

def program : Program CategoryStore Point Draw := fun point draw store =>
  match point with
  | .requested (.create name slug parentId) =>
    some (CreateCategory.read store.table name slug parentId, store)
  | .requested (.move categoryId newParentId) =>
    some (MoveCategory.read store.table categoryId newParentId, store)
  | .requested (.delete categoryId) => some (DeleteCategory.read store.table categoryId, store)
  | .inserting name slug parentId => some (CreateCategory.settle store name slug parentId draw)
  | .walking category newParentId ancestorIds cursor =>
    some (MoveCategory.walk store.table category newParentId ancestorIds cursor draw, store)
  | .counting category => some (DeleteCategory.count store.table category draw, store)
  | .saving category output => some (settle store category draw.now output)
  | .answered _ | .thrown => none

/-- No category is stored, and every call is still to be made. -/
def initial {ι : Type} (requests : ι → Request) : Interleavings.State CategoryStore Point ι :=
  ⟨⟨[], []⟩, fun c => .live (.requested (requests c))⟩

end CatalogCategories

/-! ## The category tree

Whether the categories stay a forest is decided when a call saves: a move has read the chain
above the new parent, a deletion the children and a creation the parent, and other calls may
have saved since. -/
namespace CatalogCategories

open SharedKernel Catalog Interleavings VersionedTable Forests LabelledRuns

/-- The parent links of the live categories. -/
def links (rows : Categories) : Links String := fun id => (findById rows id).map (·.parentId)

/-- The link that a category has once it is saved. -/
def Category.link (category : Category) : Option (Option String) :=
  if category.deleted then none else some category.parentId

section Links

variable {rows rows' : Categories} {row : Row CategoryRow} {id : String}

theorem links_cons : links (row :: rows) id =
    if row.value.id.value = id ∧ row.value.deletedAt = none then some row.value.parentId
    else links rows id := by
  rw [links, findById, List.find?_cons]
  by_cases h : row.value.id.value = id ∧ row.value.deletedAt = none
  · simp [h, CategoryMapper.toDomain]
  · rw [if_neg h, links, findById]
    have hf : (row.value.id.value == id && row.value.deletedAt.isNone) = false := by
      rw [Bool.and_eq_false_iff]
      by_cases hid : row.value.id.value = id
      · simp [Option.isSome_iff_ne_none.mpr fun hlive => h ⟨hid, hlive⟩]
      · simp [hid]
    rw [hf]

theorem links_append : links (rows ++ rows') id = (links rows id).or (links rows' id) := by
  induction rows with
  | nil => rfl
  | cons row rows ih =>
    rw [List.cons_append, links_cons, links_cons, ih]
    split <;> rfl

theorem links_of_not_mem (h : ∀ r ∈ rows, r.value.id.value ≠ id) : links rows id = none := by
  induction rows with
  | nil => rfl
  | cons row rows ih =>
    rw [links_cons, if_neg]
    · exact ih fun r hr => h r (List.mem_cons_of_mem _ hr)
    · rintro ⟨he, _⟩
      exact h row List.mem_cons_self he

theorem links_split {before after : Categories} (hw : WellKept schema (before ++ row :: after)) :
    links (before ++ row :: after) row.value.id.value =
      if row.value.deletedAt = none then some row.value.parentId else none := by
  have hkeys := hw.keys
  rw [List.map_append, List.map_cons, List.nodup_append, List.nodup_cons] at hkeys
  obtain ⟨_, ⟨hafter, _⟩, hbefore⟩ := hkeys
  have hb : links before row.value.id.value = none := by
    apply links_of_not_mem
    intro r hr he
    exact hbefore _ (List.mem_map.mpr ⟨r, hr, he⟩) _ List.mem_cons_self rfl
  have ha : links after row.value.id.value = none := by
    apply links_of_not_mem
    intro r hr he
    exact hafter (List.mem_map.mpr ⟨r, hr, he⟩)
  rw [links_append, links_cons, hb, ha]
  simp

theorem links_of_mem (hw : WellKept schema rows) (hr : row ∈ rows)
    (hlive : row.value.deletedAt = none) :
    links rows row.value.id.value = some row.value.parentId := by
  obtain ⟨before, after, rfl⟩ := List.append_of_mem hr
  rw [links_split hw, if_pos hlive]

theorem parent_mem {a b : String} (h : Parent (links rows) a b) :
    ∃ row ∈ rows, row.value.id.value = a ∧ row.value.parentId = some b ∧
      row.value.deletedAt = none := by
  induction rows with
  | nil => cases h
  | cons row rows ih =>
    rw [Parent, links_cons] at h
    split at h
    · rename_i hrow
      exact ⟨row, List.mem_cons_self, hrow.1, Option.some.inj h, hrow.2⟩
    · obtain ⟨r, hr, hrest⟩ := ih h
      exact ⟨r, List.mem_cons_of_mem _ hr, hrest⟩

theorem hasChildren_iff (hw : WellKept schema rows) :
    hasChildren rows id = true ↔ ∃ x, Parent (links rows) x id := by
  rw [hasChildren, List.any_eq_true]
  constructor
  · rintro ⟨row, hrow, hchild⟩
    rw [Bool.and_eq_true, beq_iff_eq, Option.isNone_iff_eq_none] at hchild
    refine ⟨row.value.id.value, ?_⟩
    rw [Parent, links_of_mem hw hrow hchild.2, hchild.1]
  · rintro ⟨x, hx⟩
    obtain ⟨row, hrow, _, hparent, hlive⟩ := parent_mem hx
    exact ⟨row, hrow, by simp [hparent, hlive]⟩

end Links

section Saves

variable {store store' : CategoryStore} {category : Category} {now : ℤ}

theorem save_kept (hw : WellKept schema store.table) (h : save store category now = some store') :
    WellKept schema store'.table :=
  (save_saved hw h).wellKept hw

theorem save_splits (hw : WellKept schema store.table) (h : save store category now = some store') :
    ∃ before old after version, store.table = before ++ (old ++ after) ∧
      store'.table = before ++ ⟨CategoryMapper.toRow category now, version⟩ :: after ∧
      ∀ r ∈ old, r.value.id.value = category.id.value := by
  cases save_saved hw h with
  | inserted => exact ⟨store.table, [], [], 1, by simp, rfl, by simp⟩
  | @replaced before after r hsplit hkey =>
    refine ⟨before, [r], after, _, hsplit, rfl, ?_⟩
    intro x hx
    rw [List.mem_singleton.mp hx]
    exact hkey

theorem save_links (hw : WellKept schema store.table)
    (h : save store category now = some store') : links store'.table =
      Function.update (links store.table) category.id.value category.link := by
  obtain ⟨before, old, after, version, hsplit, hsplit', hold⟩ := save_splits hw h
  have hkept := save_kept hw h
  rw [hsplit'] at hkept ⊢
  rw [hsplit]
  funext id
  by_cases hid : id = category.id.value
  · rw [hid, Function.update_self]
    refine (links_split hkept).trans ?_
    by_cases hd : category.deleted = true
    · simp [CategoryMapper.toRow, Category.link, hd]
    · simp [CategoryMapper.toRow, Category.link, hd]
  · have hnone : links old id = none := by
      apply links_of_not_mem
      intro r hr he
      exact hid (he.symm.trans (hold r hr))
    rw [Function.update_of_ne hid, links_append, links_append, links_append, links_cons, if_neg,
      hnone, Option.none_or]
    rintro ⟨he, _⟩
    exact hid he.symm

end Saves

/-- The category that a call is about to save. -/
def Point.pending (draw : Draw) : Point → Option Category
  | inserting name slug parentId => some (Category.create draw.id name slug parentId draw.occurrence)
  | saving category _ => some category
  | _ => none

/-- What the calls check before they save, as the table stands: no live child hangs below a
deleted category, and the chain above a parent ends without meeting the category itself. -/
def Fits (rows : Categories) (category : Category) : Prop :=
  if category.deleted then hasChildren rows category.id.value = false
  else ∃ fuel ids, chain (links rows) fuel category.parentId = some ids ∧ category.id.value ∉ ids

variable {ι : Type}

abbrev Calls (ι : Type) := Interleavings.State CategoryStore Point ι

/-- A save that goes through still fits the table that it changes. -/
def StillFits (s : Calls ι) : Label Draw ι → Prop
  | .turn c draw => ∀ point category, s.processes c = .live point →
      point.pending draw = some category → (save s.shared category draw.now).isSome →
        Fits s.shared.table category
  | .crash _ => True

def Point.walks : Point → Bool
  | walking _ _ _ _ => true
  | _ => false

variable [DecidableEq ι]

def Leaves (s : Calls ι) (c : ι) : Prop :=
  ∃ u point, Alone program c s u ∧ u.processes c = .live point ∧ point.walks = false

/-- The live categories are a forest, and every walk over them ends. -/
structure Forested (s : Calls ι) : Prop where
  acyclic : Acyclic (links s.shared.table)
  closed : Closed (links s.shared.table)
  walks : ∀ c point, s.processes c = .live point → point.walks = true → Leaves s c

section Steps

variable {store store' : CategoryStore} {category : Category} {draw : Draw}
  {point point' : Point}

structure Rooted (store : CategoryStore) : Prop where
  kept : WellKept schema store.table
  forest : Forest (links store.table)

theorem fits_of_deleted (hw : WellKept schema store.table) (hd : category.deleted = true) :
    Fits store.table category ↔ ∀ x, ¬ Parent (links store.table) x category.id.value := by
  rw [Fits, if_pos hd, Bool.eq_false_iff, ne_eq, hasChildren_iff hw, not_exists]

theorem fits_of_live (h : Forest (links store.table)) (hd : category.deleted = false) :
    Fits store.table category ↔
      Linkable (links store.table) category.id.value category.parentId := by
  rw [Fits, if_neg (by simp [hd]), h.linkable_iff]

theorem Rooted.save (h : Rooted store) (hs : save store category draw.now = some store')
    (hfits : Fits store.table category) : Rooted store' := by
  refine ⟨save_kept h.kept hs, ?_⟩
  rw [save_links h.kept hs]
  by_cases hd : category.deleted = true
  · rw [Category.link, if_pos hd]
    exact h.forest.without ((fits_of_deleted h.kept hd).mp hfits)
  · rw [Category.link, if_neg hd]
    apply h.forest.link
    exact (fits_of_live h.forest (by simpa using hd)).mp hfits

theorem Rooted.broken (h : Rooted store) (hs : CatalogCategories.save store category draw.now =
    some store') (hfits : ¬ Fits store.table category) :
    ¬ (Acyclic (links store'.table) ∧ Closed (links store'.table)) := by
  rw [save_links h.kept hs]
  by_cases hd : category.deleted = true
  · rw [fits_of_deleted h.kept hd] at hfits
    obtain ⟨x, hx⟩ := not_forall_not.mp hfits
    rw [Category.link, if_pos hd]
    rintro ⟨_, hclosed⟩
    exact broken_without h.forest hx hclosed
  · rw [fits_of_live h.forest (by simpa using hd)] at hfits
    rw [Category.link, if_neg hd]
    exact broken_link hfits

theorem settle_cases {output : Output}
    (h : settle store category draw.now output = (point', store')) :
    (store' = store ∧ save store category draw.now = none) ∨
      save store category draw.now = some store' := by
  rw [settle] at h
  split at h
  · rename_i hs
    cases h
    exact .inl ⟨rfl, hs⟩
  · rename_i hs
    cases h
    exact .inr hs

theorem program_saves (h : program point draw store = some (point', store')) :
    (store' = store ∧ ∀ category, point.pending draw = some category →
      save store category draw.now = none) ∨
      ∃ category, point.pending draw = some category ∧
        save store category draw.now = some store' := by
  cases point with
  | requested request =>
    cases request with
    | create | move | delete =>
      cases h
      exact .inl ⟨rfl, by rintro _ ⟨⟩⟩
  | walking | counting =>
    cases h
    exact .inl ⟨rfl, by rintro _ ⟨⟩⟩
  | inserting | saving =>
    simp only [program, Option.some.injEq] at h
    rcases settle_cases h with ⟨hsame, hnone⟩ | hs
    · refine .inl ⟨hsame, ?_⟩
      rintro _ ⟨⟩
      exact hnone
    · exact .inr ⟨_, rfl, hs⟩
  | answered | thrown => cases h

variable {c : ι}

theorem leaves_turn {s : Calls ι} (hc : s.processes c = .live point)
    (hk : program point draw s.shared = some (point', s.shared)) (hout : point'.walks = false) :
    Leaves s c :=
  ⟨_, point', .turn hc hk (.refl program c _), set_processes_self s c _ _, hout⟩

variable {newParentId : Option String} {ancestorIds : List String}

theorem leaves_end (draw : Draw) {s : Calls ι}
    (hc : s.processes c = .live (.walking category newParentId ancestorIds none)) : Leaves s c := by
  have hturn : program (.walking category newParentId ancestorIds none) draw s.shared =
      some (MoveCategory.walk s.shared.table category newParentId ancestorIds none draw,
        s.shared) := rfl
  apply leaves_turn hc hturn
  rw [MoveCategory.walk]
  cases category.moveTo newParentId ancestorIds draw.occurrence with
  | error e | ok moved => rfl

theorem leaves_parent (draw : Draw) {s : Calls ι} {p : String} {parentId : Option String}
    (hc : s.processes c = .live (.walking category newParentId ancestorIds (some p)))
    (hp : links s.shared.table p = some parentId) (h : ∀ u ancestorIds, u.shared = s.shared →
      u.processes c = .live (.walking category newParentId ancestorIds parentId) → Leaves u c) :
    Leaves s c := by
  obtain ⟨parent, hfound, rfl⟩ := Option.map_eq_some_iff.mp hp
  have hturn : program (.walking category newParentId ancestorIds (some p)) draw s.shared =
      some (.walking category newParentId (ancestorIds ++ [p]) parent.parentId, s.shared) := by
    simp only [program, MoveCategory.walk, hfound]
  obtain ⟨u, k, halone, hu, hout⟩ := h _ _ (set_shared s c _ _) (set_processes_self s c _ _)
  exact ⟨u, k, .turn hc hturn halone, hu, hout⟩

theorem leaves_grounded (draw : Draw) {rows : Categories} {p : String} (h : Grounded (links rows) p)
    {s : Calls ι} (hs : s.shared.table = rows)
    (hc : s.processes c = .live (.walking category newParentId ancestorIds (some p))) :
    Leaves s c := by
  induction h generalizing s ancestorIds with
  | root hroot =>
    rw [← hs] at hroot
    apply leaves_parent draw hc hroot
    intro u ancestorIds _ hu
    exact leaves_end draw hu
  | child hparent _ ih =>
    rw [← hs] at hparent
    apply leaves_parent draw hc hparent
    intro u ancestorIds hshared hu
    exact ih (by rw [hshared, hs]) hu

theorem leaves_forest (draw : Draw) {s : Calls ι} (h : Forest (links s.shared.table))
    (hc : s.processes c = .live point) (hwalks : point.walks = true) : Leaves s c := by
  cases point with
  | walking category newParentId ancestorIds cursor =>
    cases cursor with
    | none => exact leaves_end draw hc
    | some p =>
      by_cases hp : links s.shared.table p = none
      · have hfound : findById s.shared.table p = none := Option.map_eq_none_iff.mp hp
        have hturn : program (.walking category newParentId ancestorIds (some p)) draw s.shared =
            some (.answered (.error (.notFound ("Parent category not found: " ++ p))),
              s.shared) := by
          simp only [program, MoveCategory.walk, hfound]
        exact leaves_turn hc hturn rfl
      · exact leaves_grounded draw (h p hp) rfl hc
  | requested | inserting | counting | saving | answered | thrown => cases hwalks

end Steps

section Runs

variable {requests : ι → Request} {s u : Calls ι} {l : Label Draw ι}

theorem rooted_step (h : Rooted s.shared) (hst : Step program s l u) (hfits : StillFits s l) :
    Rooted u.shared := by
  cases step_move hst with
  | @turn c point draw point' store hc hk =>
    rcases program_saves hk with ⟨hsame, _⟩ | ⟨category, hpending, hs⟩
    · rw [set_shared, hsame]
      exact h
    · apply h.save hs
      exact hfits point category hc hpending (by rw [hs]; rfl)
  | crash => exact h

theorem broken_step (h : Rooted s.shared) (hst : Step program s l u) (hfits : ¬ StillFits s l) :
    ¬ Forested u := by
  cases step_move hst with
  | @turn c point draw point' store hc hk =>
    simp only [StillFits, not_forall] at hfits
    obtain ⟨point₀, category, hpoint, hpending, hsaved, hunfit⟩ := hfits
    rw [hc] at hpoint
    cases hpoint
    intro hforested
    rcases program_saves hk with ⟨_, hnone⟩ | ⟨category', hpending', hs⟩
    · simp [hnone category hpending] at hsaved
    · rw [hpending] at hpending'
      cases hpending'
      exact h.broken hs hunfit ⟨hforested.acyclic, hforested.closed⟩
  | crash => exact absurd trivial hfits

theorem Rooted.forested (h : Rooted s.shared) : Forested s := by
  refine ⟨h.forest.acyclic, h.forest.closed, ?_⟩
  intro c point hc hwalks
  exact leaves_forest ⟨⟨"category", by decide⟩, "moved", 0⟩ h.forest hc hwalks

omit [DecidableEq ι] in
theorem rooted_initial (requests : ι → Request) : Rooted (initial requests).shared := by
  refine ⟨.nil schema, ?_⟩
  intro id hid
  exact absurd rfl hid

/-- The categories stay a forest, and the walks over them end, exactly as long as every save
still fits the table that it changes. -/
theorem run_forested (requests : ι → Request) {tr : List (Label Draw ι × Calls ι)}
    (hr : Run (Step program) (initial requests) tr) :
    Always Forested (initial requests) tr ↔ EveryStep StillFits (initial requests) tr := by
  refine always_iff_everyStep (I := fun s => Rooted s.shared) ?_ ?_ ?_ (rooted_initial requests) hr
  · intro s l u h hst hfits
    exact rooted_step h hst hfits
  · intro s h
    exact h.forested
  · intro s l u h hst hfits
    exact broken_step h hst hfits

end Runs

/-- Two categories, and two calls that move each under the other. -/
def crossing : ℕ → Request
  | 0 => .create "Toys" "toys" none
  | 1 => .create "Games" "games" none
  | 2 => .move "toys-1" (some "games-1")
  | _ => .move "games-1" (some "toys-1")

theorem toys_notEmpty : isBlank "toys-1" = false := by decide

theorem games_notEmpty : isBlank "games-1" = false := by decide

def drawn (id : String) (h : isBlank id = false) : Draw := ⟨⟨id, h⟩, "event-1", 0⟩

/-- The run of the calls in the order of their turns, from an empty table. -/
def crossingRun (turns : List ℕ) : List (Label Draw ℕ × Calls ℕ) :=
  attempt (next program) (initial crossing)
    ([.turn 0 (drawn "toys-1" toys_notEmpty), .turn 0 (drawn "toys-1" toys_notEmpty)] ++
      turns.map (.turn · (drawn "games-1" games_notEmpty)))

theorem crossingRun_run (turns : List ℕ) :
    Run (Step program) (initial crossing) (crossingRun turns) :=
  run_attempt _ _ _

/-- The second move is asked for after the first has saved, and is refused. -/
theorem run_forested_crossing :
    Always Forested (initial crossing) (crossingRun [1, 1, 2, 2, 2, 2, 3, 3, 3, 3]) := by
  refine (run_forested crossing (crossingRun_run _)).mpr ?_
  refine ⟨?_, ?_, ?_, ?_, ?_, ?_, ?_, ?_, ?_, ?_, ?_, ?_, trivial⟩
  · rintro point category ⟨⟩ ⟨⟩
  · rintro point category ⟨⟩ ⟨⟩ _
    exact ⟨0, [], rfl, List.not_mem_nil⟩
  · rintro point category ⟨⟩ ⟨⟩
  · rintro point category ⟨⟩ ⟨⟩ _
    exact ⟨0, [], rfl, List.not_mem_nil⟩
  · rintro point category ⟨⟩ ⟨⟩
  · rintro point category ⟨⟩ ⟨⟩
  · rintro point category ⟨⟩ ⟨⟩
  · rintro point category ⟨⟩ ⟨⟩ _
    exact ⟨2, ["games-1"], rfl, by decide⟩
  · rintro point category ⟨⟩ ⟨⟩
  · rintro point category ⟨⟩ ⟨⟩
  · rintro point category ⟨⟩ ⟨⟩
  · rintro point category ⟨⟩ ⟨⟩

/-- Each move walks its chain before the other saves, and each save is of another row. -/
theorem forest_fails : ¬ ∀ (requests : ℕ → Request) (tr : List (Label Draw ℕ × Calls ℕ)),
    Run (Step program) (initial requests) tr → Always Forested (initial requests) tr := by
  intro hclaim
  have hend := (hclaim crossing _ (crossingRun_run [1, 1, 2, 3, 2, 3, 2, 3, 2, 3])).last
  have htoys : links (lastState (initial crossing)
      (crossingRun [1, 1, 2, 3, 2, 3, 2, 3, 2, 3])).shared.table "toys-1" =
        some (some "games-1") := by
    decide +kernel
  have hgames : links (lastState (initial crossing)
      (crossingRun [1, 1, 2, 3, 2, 3, 2, 3, 2, 3])).shared.table "games-1" =
        some (some "toys-1") := by
    decide +kernel
  exact hend.acyclic "toys-1" (.head htoys (.single hgames))

end CatalogCategories
