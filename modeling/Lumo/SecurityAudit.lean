import Lumo.Builtins
import Lumo.JsonReading
import Lumo.OrderedMap

/-! # The audit chain

Records that are linked by their hashes, appended to the end and verified from the start. The
digest is a parameter. -/
namespace Security

open Builtins JsonText

structure AuditRecordContent where
  sequence : ℤ
  principalRef : String
  action : String
  decision : String
  resource : Option String
  tenantRef : Option String
  occurredAt : String
  metadata : OrderedMap String String
  prevHash : String

structure AuditRecord where
  id : String
  content : AuditRecordContent
  hash : String
  signature : Option String

def sortedMetadata (metadata : OrderedMap String String) : List (String × String) :=
  metadata.entries.insertionSort fun a b => codeUnits a.1 ≤ codeUnits b.1

def nullable : Option String → Json ℤ
  | none => .null
  | some value => .string value

def canonicalContent (content : AuditRecordContent) : Json ℤ :=
  .object [
    ("sequence", .number content.sequence),
    ("principalRef", .string content.principalRef),
    ("action", .string content.action),
    ("decision", .string content.decision),
    ("resource", nullable content.resource),
    ("tenantRef", nullable content.tenantRef),
    ("occurredAt", .string content.occurredAt),
    ("metadata", .array ((sortedMetadata content.metadata).map fun pair =>
      .array [.string pair.1, .string pair.2])),
    ("prevHash", .string content.prevHash)]

def canonicalizeAuditContent (content : AuditRecordContent) : String :=
  String.ofList (stringify wholeNumerals (canonicalContent content))

/-- The anchor of the first record. -/
def genesisHash : String := "genesis"

structure AppendAuditInput where
  id : String
  principalRef : String
  action : String
  decision : String
  resource : Option String
  tenantRef : Option String
  occurredAt : String
  metadata : Option (OrderedMap String String)

structure ChainVerification where
  valid : Bool
  brokenAt : Option ℤ
  reason : Option String

namespace AuditChain

section Operations

variable (digest : String → String)

def append (tail : Option AuditRecord) (input : AppendAuditInput) : AuditRecord :=
  let content : AuditRecordContent := {
    sequence := match tail with
      | none => 1
      | some tail => tail.content.sequence + 1
    principalRef := input.principalRef
    action := input.action
    decision := input.decision
    resource := input.resource
    tenantRef := input.tenantRef
    occurredAt := input.occurredAt
    metadata := input.metadata.getD .empty
    prevHash := match tail with
      | none => genesisHash
      | some tail => tail.hash }
  ⟨input.id, content, digest (canonicalizeAuditContent content), none⟩

/-- The loop of `verify`, with the hash and the sequence number that it expects next. -/
def verifyFrom (prevHash : String) (expectedSeq : ℤ) : List AuditRecord → ChainVerification
  | [] => ⟨true, none, none⟩
  | record :: records =>
    if record.content.sequence ≠ expectedSeq then
      ⟨false, some record.content.sequence,
        some s!"expected sequence {expectedSeq}, found {record.content.sequence}"⟩
    else if record.content.prevHash ≠ prevHash then
      ⟨false, some record.content.sequence, some "prevHash discontinuity"⟩
    else if digest (canonicalizeAuditContent record.content) ≠ record.hash then
      ⟨false, some record.content.sequence, some "content hash mismatch (tampered)"⟩
    else verifyFrom record.hash (expectedSeq + 1) records

def verify (records : List AuditRecord) : ChainVerification :=
  verifyFrom digest genesisHash 1 records

/-- The ledger that appending to its tail builds. -/
inductive Built : List AuditRecord → Prop where
  | genesis : Built []
  | append {records : List AuditRecord} (input : AppendAuditInput) : Built records →
      Built (records ++ [append digest records.getLast? input])

end Operations

/-- Each record has the sequence number and the previous hash that are expected, and the hash of
its own content. -/
def Linked (digest : String → String) (prevHash : String) (expectedSeq : ℤ) :
    List AuditRecord → Prop
  | [] => True
  | record :: records =>
    record.content.sequence = expectedSeq ∧ record.content.prevHash = prevHash ∧
      digest (canonicalizeAuditContent record.content) = record.hash ∧
        Linked digest record.hash (expectedSeq + 1) records

/-- The hash that the next record refers to. -/
def lastHash (prevHash : String) (records : List AuditRecord) : String :=
  (records.getLast?.map AuditRecord.hash).getD prevHash

variable {digest : String → String} {prevHash : String} {expectedSeq : ℤ} {record : AuditRecord}
  {records records' : List AuditRecord}

theorem lastHash_cons : lastHash prevHash (record :: records) = lastHash record.hash records := by
  cases records with
  | nil => rfl
  | cons next records =>
    rw [lastHash, lastHash, List.getLast?_cons_cons]
    rfl

theorem verifyFrom_valid :
    (verifyFrom digest prevHash expectedSeq records).valid = true ↔
      Linked digest prevHash expectedSeq records := by
  induction records generalizing prevHash expectedSeq with
  | nil => simp [verifyFrom, Linked]
  | cons record records ih =>
    rw [verifyFrom, Linked]
    by_cases hsequence : record.content.sequence = expectedSeq
    · by_cases hprev : record.content.prevHash = prevHash
      · by_cases hhash : digest (canonicalizeAuditContent record.content) = record.hash
        · rw [if_neg (not_not.mpr hsequence), if_neg (not_not.mpr hprev),
            if_neg (not_not.mpr hhash), ih]
          simp [hsequence, hprev, hhash]
        · rw [if_neg (not_not.mpr hsequence), if_neg (not_not.mpr hprev), if_pos hhash]
          simp [hhash]
      · rw [if_neg (not_not.mpr hsequence), if_pos hprev]
        simp [hprev]
    · rw [if_pos hsequence]
      simp [hsequence]

theorem linked_concat :
    Linked digest prevHash expectedSeq (records ++ [record]) ↔
      Linked digest prevHash expectedSeq records ∧
        record.content.sequence = expectedSeq + records.length ∧
          record.content.prevHash = lastHash prevHash records ∧
            digest (canonicalizeAuditContent record.content) = record.hash := by
  induction records generalizing prevHash expectedSeq with
  | nil => simp [Linked, lastHash]
  | cons first records ih =>
    rw [List.cons_append, Linked, Linked, ih, lastHash_cons, List.length_cons]
    constructor
    · rintro ⟨hsequence, hprev, hhash, hlinked, hlast, hlastPrev, hlastHash⟩
      exact ⟨⟨hsequence, hprev, hhash, hlinked⟩, by push_cast; omega, hlastPrev, hlastHash⟩
    · rintro ⟨⟨hsequence, hprev, hhash, hlinked⟩, hlast, hlastPrev, hlastHash⟩
      push_cast at hlast
      exact ⟨hsequence, hprev, hhash, hlinked, by omega, hlastPrev, hlastHash⟩

theorem built_linked (h : Built digest records) : Linked digest genesisHash 1 records := by
  induction h with
  | genesis => trivial
  | @append records input _ ih =>
    refine linked_concat.mpr ⟨ih, ?_, ?_, rfl⟩
    · rcases List.eq_nil_or_concat' records with rfl | ⟨init, last, rfl⟩
      · rfl
      · obtain ⟨-, hsequence, -⟩ := linked_concat.mp ih
        rw [List.getLast?_concat, List.length_append, List.length_singleton]
        change last.content.sequence + 1 = _
        push_cast
        omega
    · rcases List.eq_nil_or_concat' records with rfl | ⟨init, last, rfl⟩
      · rfl
      · rw [lastHash, List.getLast?_concat]
        rfl

end AuditChain

/-- The fields that are hashed are the same; of the metadata, every value under its key. -/
structure SameFields (content content' : AuditRecordContent) : Prop where
  sequence : content.sequence = content'.sequence
  principalRef : content.principalRef = content'.principalRef
  action : content.action = content'.action
  decision : content.decision = content'.decision
  resource : content.resource = content'.resource
  tenantRef : content.tenantRef = content'.tenantRef
  occurredAt : content.occurredAt = content'.occurredAt
  metadata : ∀ key, content.metadata.find? key = content'.metadata.find? key
  prevHash : content.prevHash = content'.prevHash

theorem nullable_injective : Function.Injective nullable := by
  intro a b h
  cases a with
  | none =>
    cases b with
    | none => rfl
    | some b => cases h
  | some a =>
    cases b with
    | none => cases h
    | some b => exact congrArg some (Json.string.inj h)

theorem mem_sortedMetadata {metadata : OrderedMap String String} {pair : String × String} :
    pair ∈ sortedMetadata metadata ↔ pair ∈ metadata.entries :=
  (List.perm_insertionSort _ _).mem_iff

theorem find?_eq_of_sortedMetadata {metadata metadata' : OrderedMap String String}
    (h : sortedMetadata metadata = sortedMetadata metadata') (key : String) :
    metadata.find? key = metadata'.find? key := by
  ext value
  rw [OrderedMap.find?_eq_some, OrderedMap.find?_eq_some, ← mem_sortedMetadata, h,
    mem_sortedMetadata]

theorem sameFields_of_canonicalize {content content' : AuditRecordContent}
    (h : canonicalizeAuditContent content = canonicalizeAuditContent content') :
    SameFields content content' := by
  have htext := String.ofList_injective h
  have hobject := Json.object.inj (stringify_injective wholeNumerals htext)
  simp only [List.cons.injEq, Prod.mk.injEq, true_and, and_true, Json.number.injEq,
    Json.string.injEq, Json.array.injEq] at hobject
  obtain ⟨hsequence, hprincipal, haction, hdecision, hresource, htenant, hoccurred, hmetadata,
    hprev⟩ := hobject
  have hpairs : sortedMetadata content.metadata = sortedMetadata content'.metadata := by
    refine List.map_injective_iff.mpr ?_ hmetadata
    rintro ⟨key, value⟩ ⟨key', value'⟩ hpair
    simpa using hpair
  exact ⟨hsequence, hprincipal, haction, hdecision, nullable_injective hresource,
    nullable_injective htenant, hoccurred, find?_eq_of_sortedMetadata hpairs, hprev⟩

/-- Two records that differ in their ids and signatures at most. -/
structure SameRecord (record record' : AuditRecord) : Prop where
  content : SameFields record.content record'.content
  hash : record.hash = record'.hash

namespace AuditChain

variable {digest : String → String}

/-- The hash in which a list of records ends. -/
def endHash (records : List AuditRecord) : Option String := records.getLast?.map AuditRecord.hash

theorem linked_unique (hdigest : Function.Injective digest) {prevHash : String} {expectedSeq : ℤ}
    {records records' : List AuditRecord} (h : Linked digest prevHash expectedSeq records)
    (h' : Linked digest prevHash expectedSeq records') (hlength : records.length = records'.length)
    (hlast : lastHash prevHash records = lastHash prevHash records') :
    List.Forall₂ SameRecord records records' := by
  induction records using List.reverseRecOn generalizing records' with
  | nil =>
    obtain rfl := List.eq_nil_of_length_eq_zero hlength.symm
    exact .nil
  | append_singleton init last ih =>
    rcases List.eq_nil_or_concat' records' with rfl | ⟨init', last', rfl⟩
    · simp at hlength
    obtain ⟨hinit, -, hprev, hhash⟩ := linked_concat.mp h
    obtain ⟨hinit', -, hprev', hhash'⟩ := linked_concat.mp h'
    have hsameHash : last.hash = last'.hash := by simpa [lastHash] using hlast
    have hsame : SameFields last.content last'.content := by
      apply sameFields_of_canonicalize
      apply hdigest
      rw [hhash, hhash', hsameHash]
    have hbefore : lastHash prevHash init = lastHash prevHash init' := by
      rw [← hprev, ← hprev', hsame.prevHash]
    have hrest := ih hinit hinit' (by simpa using hlength) hbefore
    exact List.rel_append hrest (.cons ⟨hsame, hsameHash⟩ .nil)

theorem length_eq (hdigest : Function.Injective digest) {records records' : List AuditRecord}
    (h : Linked digest genesisHash 1 records) (h' : Linked digest genesisHash 1 records')
    (hend : endHash records = endHash records') : records.length = records'.length := by
  rcases List.eq_nil_or_concat' records with rfl | ⟨init, last, rfl⟩
  · rcases List.eq_nil_or_concat' records' with rfl | ⟨init', last', rfl⟩
    · rfl
    · simp [endHash] at hend
  · rcases List.eq_nil_or_concat' records' with rfl | ⟨init', last', rfl⟩
    · simp [endHash] at hend
    · obtain ⟨-, hsequence, -, hhash⟩ := linked_concat.mp h
      obtain ⟨-, hsequence', -, hhash'⟩ := linked_concat.mp h'
      have hsame : last.hash = last'.hash := by simpa [endHash] using hend
      have hcontent : SameFields last.content last'.content := by
        apply sameFields_of_canonicalize
        apply hdigest
        rw [hhash, hhash', hsame]
      have hnumber := hcontent.sequence
      rw [hsequence, hsequence'] at hnumber
      simp only [List.length_append, List.length_singleton]
      omega

/-- A ledger that was appended to record by record verifies, and with a digest that tells its
inputs apart two ledgers that verify and end in one hash are the same. -/
theorem auditChain_tamperEvident (digest : String → String) :
    (∀ records, Built digest records → (verify digest records).valid = true) ∧
      (Function.Injective digest → ∀ records records', (verify digest records).valid = true →
        (verify digest records').valid = true → endHash records = endHash records' →
          List.Forall₂ SameRecord records records') := by
  constructor
  · intro records h
    exact verifyFrom_valid.mpr (built_linked h)
  · intro hdigest records records' h h' hend
    have hlinked := verifyFrom_valid.mp h
    have hlinked' := verifyFrom_valid.mp h'
    have hlast : lastHash genesisHash records = lastHash genesisHash records' := by
      rw [lastHash, lastHash]
      exact congrArg (Option.getD · genesisHash) hend
    exact linked_unique hdigest hlinked hlinked' (length_eq hdigest hlinked hlinked' hend) hlast

section Samples

private def login (metadata : OrderedMap String String) : AppendAuditInput :=
  ⟨"record", "customer:1", "session:establish", "allow", none, some "tenant",
    "2026-01-01T00:00:00Z", some metadata⟩

private def ledger (metadata : OrderedMap String String) : List AuditRecord :=
  [append id none (login metadata),
    append id (some (append id none (login metadata))) (login metadata)]

private theorem endHash_ledger {metadata metadata' : OrderedMap String String}
    (h : sortedMetadata metadata = sortedMetadata metadata') :
    endHash (ledger metadata) = endHash (ledger metadata') := by
  simp only [endHash, ledger, List.getLast?_cons_cons, List.getLast?_singleton, Option.map_some]
  unfold append
  simp only [login, canonicalizeAuditContent, canonicalContent, Option.getD_some, h]

/-- A ledger read back with its metadata in another order. -/
theorem auditChain_tamperEvident_reordered :
    List.Forall₂ SameRecord (ledger (.ofEntries [("a", "1"), ("b", "\"")]))
      (ledger (.ofEntries [("b", "\""), ("a", "1")])) :=
  (auditChain_tamperEvident id).2 (fun _ _ h => h) _ _
    ((auditChain_tamperEvident id).1 _ (.append _ (.append _ .genesis)))
    ((auditChain_tamperEvident id).1 _ (.append _ (.append _ .genesis)))
    (endHash_ledger (by decide +kernel))

end Samples

end AuditChain

end Security
