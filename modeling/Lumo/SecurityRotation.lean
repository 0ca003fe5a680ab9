import Lumo.KeyedLines
import Lumo.SecurityCredential

/-! # The rotation of due credentials

One run of the scheduler over the credentials of a tenant. What the key management and the id
generator answer is given with the run. Audit records and telemetry are not modelled. -/
namespace Security

open SharedKernel Builtins Dates KeyedLines

def CredentialKind.text : CredentialKind → String
  | apiKey => "api_key"
  | secret => "secret"
  | certificate => "certificate"
  | signingKey => "signing_key"
  | oauthClient => "oauth_client"

namespace Credential

def isDueForRotation (credential : Credential) (now : ℤ) : Bool :=
  credential.isActive && credential.rotationDueAt.any fun due => isDue due now

def autoRotate (credential : Credential) : Bool :=
  credential.rotationPolicy.any RotationPolicy.autoRotate

end Credential

/-- The credentials of a tenant: no two have one id, and each names its principal. -/
structure CredentialTable where
  rows : List Credential
  distinct : Distinct Credential.id rows
  named : ∀ row ∈ rows, isBlank row.principalRef = false

/-- What the ports answer in each turn. An id is a new one, and a fingerprint is never empty. -/
structure RotationPorts (rows : List Credential) where
  rotate : ℕ → String → String
  generateKeyRef : ℕ → String → String
  randomToken : ℕ → String
  fingerprint : String → String
  replacementId : ℕ → UniqueEntityId
  fingerprinted : ∀ material, isBlank (fingerprint material) = false
  fresh : ∀ turn, ∀ row ∈ rows, row.id ≠ replacementId turn

def saveCredential (credential : Credential) (rows : List Credential) : List Credential :=
  rows.map fun row => if row.id = credential.id then credential else row

section Rotation

variable {stored : List Credential} (ports : RotationPorts stored) (now : ℤ)

def rotateOne (turn : ℕ) (current : Credential) (rows : List Credential) :
    Except DomainError (List Credential) := do
  let nextKeyRef :=
    match current.kmsKeyRef with
    | some keyRef => ports.rotate turn keyRef
    | none => ports.generateKeyRef turn ("credential:" ++ current.kind.text)
  let fingerprint := ports.fingerprint (ports.randomToken turn)
  let rotated ← current.markRotated now none
  let replacement ← Credential.issue (ports.replacementId turn)
    (Vault.replacement rotated nextKeyRef fingerprint) now
  return saveCredential rotated rows ++ [replacement]

def rotateEach : ℕ → List Credential → List Credential → List Credential × Except DomainError ℕ
  | turn, [], rows => (rows, .ok turn)
  | turn, current :: rest, rows =>
    match rotateOne ports now turn current rows with
    | .error e => (rows, .error e)
    | .ok after => rotateEach (turn + 1) rest after

/-- The credentials that a run works through, in the order in which they are listed. -/
def dueCredentials (rows : List Credential) : List Credential :=
  (rows.filter fun row => row.isDueForRotation now).filter Credential.autoRotate

def rotateDueCredentials : List Credential × Except DomainError ℕ :=
  rotateEach ports now 0 (dueCredentials now stored) stored

end Rotation

/-- The credential has outlived its expiry, whatever its status says. -/
def Overdue (now : ℤ) (credential : Credential) : Bool := credential.expiresAt.any (· ≤ now)

/-- An unexpired credential that rotates by itself and is due. -/
def Rotates (now : ℤ) (credential : Credential) : Bool :=
  credential.isDueForRotation now && credential.autoRotate && !Overdue now credential

def rotatedOut (now : ℤ) (credential : Credential) : Credential :=
  { credential with
    status := .rotated
    graceUntil := Credential.graceEnd now (credential.graceFor none)
    rotationDueAt := none }

def Replaces (now : ℤ) (old new : Credential) : Prop :=
  ∃ id nextKeyRef fingerprint,
    Credential.issue id (Vault.replacement (rotatedOut now old) nextKeyRef fingerprint) now =
      .ok new

/-- Each due credential is rotated once, and no other row changes. -/
def RotatesEachOnce (now : ℤ) (before after : List Credential) : Prop :=
  ∃ issued, after = (before.map fun row => if Rotates now row then rotatedOut now row else row) ++
    issued ∧ List.Forall₂ (Replaces now) (before.filter (Rotates now)) issued

/-- No overdue credential is listed before one that should rotate. -/
def OverdueLast (now : ℤ) (rows : List Credential) : Prop :=
  (dueCredentials now rows).Pairwise fun row later => Overdue now row → Overdue now later

instance (now : ℤ) (rows : List Credential) : Decidable (OverdueLast now rows) :=
  inferInstanceAs (Decidable (List.Pairwise _ _))

section Turns

variable {stored rows : List Credential} {ports : RotationPorts stored} {now : ℤ} {turn : ℕ}
  {current : Credential}

theorem issue_id {id : UniqueEntityId} {input : IssueInput}
    (h : Credential.issue id input now = .ok current) : current.id = id := by
  unfold Credential.issue at h
  split at h
  · cases h
  · split at h
    · cases h
    · split at h
      · cases h
      · cases h
        rfl

theorem rotateOne_overdue (h : Overdue now current = true) :
    ∃ e, rotateOne ports now turn current rows = .error e := by
  rw [rotateOne]
  cases hrotated : current.markRotated now none with
  | error e => exact ⟨e, rfl⟩
  | ok rotated =>
    obtain ⟨_, _, hexpires, _, _⟩ := Credential.markRotated_ok hrotated
    match hissue : Credential.issue (ports.replacementId turn) (Vault.replacement rotated
        (match current.kmsKeyRef with
          | some keyRef => ports.rotate turn keyRef
          | none => ports.generateKeyRef turn ("credential:" ++ current.kind.text))
        (ports.fingerprint (ports.randomToken turn))) now with
    | .error e => exact ⟨e, by simp [bind, Except.bind, hissue]⟩
    | .ok issued =>
      have hdue := (Credential.issue_checked hissue).2
      rw [Vault.replacement, hexpires, ← Overdue, h] at hdue
      cases hdue

theorem rotateOne_ok (hactive : current.status = .active)
    (hnamed : isBlank current.principalRef = false) (h : Overdue now current = false) :
    ∃ issued, Replaces now current issued ∧ issued.id = ports.replacementId turn ∧
      rotateOne ports now turn current rows =
        .ok (saveCredential (rotatedOut now current) rows ++ [issued]) := by
  obtain ⟨issued, hissued⟩ := Credential.issue_of_checks (ports.replacementId turn)
    (Vault.replacement (rotatedOut now current)
      (match current.kmsKeyRef with
        | some keyRef => ports.rotate turn keyRef
        | none => ports.generateKeyRef turn ("credential:" ++ current.kind.text))
      (ports.fingerprint (ports.randomToken turn))) now hnamed (ports.fingerprinted _) h
  refine ⟨issued, ⟨_, _, _, hissued⟩, issue_id hissued, ?_⟩
  have hrotated : current.markRotated now none = .ok (rotatedOut now current) := by
    rw [Credential.markRotated, if_pos hactive]
    rfl
  simp only [rotateOne, hrotated, bind, Except.bind, hissued, pure, Except.pure]

/-- The rows once some credentials have been rotated. -/
def turned (now : ℤ) (done rows : List Credential) : List Credential :=
  rows.map fun row => if row ∈ done then rotatedOut now row else row

theorem saveCredential_turned {done : List Credential} (hdistinct : Distinct Credential.id stored)
    (hcurrent : current ∈ stored) :
    saveCredential (rotatedOut now current) (turned now done stored) =
      turned now (done ++ [current]) stored := by
  rw [saveCredential, turned, List.map_map]
  apply List.map_congr_left
  intro row hrow
  have hid : (if row ∈ done then rotatedOut now row else row).id = row.id := by
    split <;> rfl
  simp only [Function.comp_apply, hid, List.mem_append, List.mem_singleton]
  by_cases hsame : row = current
  · subst hsame
    rw [if_pos (show row.id = (rotatedOut now row).id from rfl), if_pos (.inr rfl)]
  · have hne : row.id ≠ (rotatedOut now current).id :=
      fun h => hsame (hdistinct.eq_of_key hrow hcurrent h)
    rw [if_neg hne]
    simp only [hsame, or_false]

theorem saveCredential_fresh {issued : List Credential} (hcurrent : current ∈ stored)
    (hissued : ∀ new ∈ issued, ∃ turn, new.id = ports.replacementId turn) :
    saveCredential (rotatedOut now current) issued = issued := by
  rw [saveCredential]
  apply (List.map_congr_left ?_).trans (List.map_id issued)
  intro new hnew
  obtain ⟨turn, hid⟩ := hissued new hnew
  have hne : new.id ≠ (rotatedOut now current).id := by
    rw [hid]
    exact (ports.fresh turn current hcurrent).symm
  rw [if_neg hne]
  rfl

/-- A run rotates the credentials before the first that is overdue, and there it ends. -/
theorem rotateEach_rows {due done issued : List Credential}
    (hdistinct : Distinct Credential.id stored)
    (hdue : ∀ row ∈ due, row ∈ stored ∧ row.status = .active ∧ isBlank row.principalRef = false)
    (hissued : ∀ new ∈ issued, ∃ turn, new.id = ports.replacementId turn) :
    ∃ more, (rotateEach ports now turn due (turned now done stored ++ issued)).1 =
        turned now (done ++ due.takeWhile fun row => !Overdue now row) stored ++
          (issued ++ more) ∧
      List.Forall₂ (Replaces now) (due.takeWhile fun row => !Overdue now row) more := by
  induction due generalizing turn done issued with
  | nil => exact ⟨[], by simp [rotateEach], .nil⟩
  | cons current rest ih =>
    obtain ⟨hcurrent, hactive, hnamed⟩ := hdue current List.mem_cons_self
    rw [rotateEach, List.takeWhile_cons]
    cases hoverdue : Overdue now current with
    | true =>
      have hthrown : ∃ e, rotateOne ports now turn current (turned now done stored ++ issued) =
          .error e := rotateOne_overdue hoverdue
      obtain ⟨e, he⟩ := hthrown
      exact ⟨[], by simp [he], .nil⟩
    | false =>
      have hturn : ∃ new, Replaces now current new ∧ new.id = ports.replacementId turn ∧
          rotateOne ports now turn current (turned now done stored ++ issued) = .ok
            (saveCredential (rotatedOut now current) (turned now done stored ++ issued) ++ [new]) :=
        rotateOne_ok hactive hnamed hoverdue
      obtain ⟨new, hreplaces, hid, hone⟩ := hturn
      have hsave : saveCredential (rotatedOut now current) (turned now done stored ++ issued) ++
          [new] = turned now (done ++ [current]) stored ++ (issued ++ [new]) := by
        rw [saveCredential, List.map_append, ← saveCredential, ← saveCredential,
          saveCredential_turned hdistinct hcurrent, saveCredential_fresh hcurrent hissued,
          List.append_assoc]
      have hissuedNext : ∀ later ∈ issued ++ [new],
          ∃ turn, later.id = ports.replacementId turn := by
        intro later hlater
        rcases List.mem_append.mp hlater with hlater | hlater
        · exact hissued later hlater
        · rw [List.mem_singleton.mp hlater]
          exact ⟨turn, hid⟩
      have hrest : ∃ more, (rotateEach ports now (turn + 1) rest
            (turned now (done ++ [current]) stored ++ (issued ++ [new]))).1 =
          turned now (done ++ [current] ++ rest.takeWhile fun row => !Overdue now row) stored ++
            (issued ++ [new] ++ more) ∧
          List.Forall₂ (Replaces now) (rest.takeWhile fun row => !Overdue now row) more :=
        ih (fun row hrow => hdue row (List.mem_cons_of_mem _ hrow)) hissuedNext
      obtain ⟨more, hrows, hmore⟩ := hrest
      rw [hone, hsave]
      refine ⟨new :: more, ?_, .cons hreplaces hmore⟩
      simpa using hrows

end Turns

section FirstOverdue

variable {α : Type*} {p : α → Bool} {l : List α}

theorem takeWhile_eq_filter (h : l.Pairwise fun a b => p b = true → p a = true) :
    l.takeWhile p = l.filter p := by
  induction l with
  | nil => rfl
  | cons a l ih =>
    obtain ⟨hhead, htail⟩ := List.pairwise_cons.mp h
    cases ha : p a with
    | true => rw [List.takeWhile_cons_of_pos ha, List.filter_cons_of_pos ha, ih htail]
    | false =>
      have hnone : l.filter p = [] := by
        rw [List.filter_eq_nil_iff]
        intro b hb hpb
        rw [hhead b hb hpb] at ha
        cases ha
      rw [List.takeWhile_cons_of_neg (by simp [ha]), List.filter_cons_of_neg (by simp [ha]), hnone]

theorem pairwise_of_mem_takeWhile (hnodup : l.Nodup) (h : ∀ a ∈ l, p a = true → a ∈ l.takeWhile p) :
    l.Pairwise fun a b => p b = true → p a = true := by
  induction l with
  | nil => exact .nil
  | cons a l ih =>
    obtain ⟨hnot, hnodup⟩ := List.nodup_cons.mp hnodup
    cases ha : p a with
    | true =>
      rw [List.takeWhile_cons_of_pos ha] at h
      refine .cons (fun _ _ _ => ha) (ih hnodup fun b hb hpb => ?_)
      rcases List.mem_cons.mp (h b (List.mem_cons_of_mem _ hb) hpb) with rfl | hmem
      · exact absurd hb hnot
      · exact hmem
    | false =>
      rw [List.takeWhile_cons_of_neg (by simp [ha])] at h
      have hnone : ∀ b ∈ l, p b ≠ true :=
        fun b hb hpb => List.not_mem_nil (h b (List.mem_cons_of_mem _ hb) hpb)
      refine .cons (fun b hb hpb => absurd hpb (hnone b hb)) ?_
      exact List.pairwise_of_forall_mem_list fun b _ c hc hpc => absurd hpc (hnone c hc)

end FirstOverdue

section Run

variable {now : ℤ} {row : Credential} {rows : List Credential}

theorem rotates_iff : Rotates now row = true ↔
    (row.isDueForRotation now = true ∧ row.autoRotate = true) ∧ Overdue now row = false := by
  simp [Rotates]

theorem mem_dueCredentials : row ∈ dueCredentials now rows ↔
    row ∈ rows ∧ row.isDueForRotation now = true ∧ row.autoRotate = true := by
  rw [dueCredentials, List.mem_filter, List.mem_filter, and_assoc]

theorem filter_dueCredentials :
    (dueCredentials now rows).filter (fun row => !Overdue now row) = rows.filter (Rotates now) := by
  rw [dueCredentials, List.filter_filter, List.filter_filter]
  apply List.filter_congr
  intro row _
  rw [Bool.eq_iff_iff, rotates_iff]
  simp only [Bool.and_eq_true, Bool.not_eq_true']
  tauto

theorem rotatedOut_ne (h : Rotates now row = true) : rotatedOut now row ≠ row := by
  intro hsame
  have hactive := (rotates_iff.mp h).1.1
  rw [Credential.isDueForRotation, Bool.and_eq_true, Credential.isActive, decide_eq_true_eq]
    at hactive
  have hstatus := congrArg Credential.status hsame
  rw [hactive.1] at hstatus
  cases hstatus

theorem rotateDueCredentials_rows (table : CredentialTable) (ports : RotationPorts table.rows)
    (now : ℤ) : ∃ issued, (rotateDueCredentials ports now).1 =
        turned now ((dueCredentials now table.rows).takeWhile fun row => !Overdue now row)
          table.rows ++ issued ∧
      List.Forall₂ (Replaces now)
        ((dueCredentials now table.rows).takeWhile fun row => !Overdue now row) issued := by
  have hdue : ∀ row ∈ dueCredentials now table.rows,
      row ∈ table.rows ∧ row.status = .active ∧ isBlank row.principalRef = false := by
    intro row hrow
    obtain ⟨hmem, hrow, _⟩ := mem_dueCredentials.mp hrow
    rw [Credential.isDueForRotation, Bool.and_eq_true, Credential.isActive, decide_eq_true_eq]
      at hrow
    exact ⟨hmem, hrow.1, table.named row hmem⟩
  have hissued : ∀ new ∈ ([] : List Credential), ∃ turn, new.id = ports.replacementId turn :=
    fun _ hnew => absurd hnew List.not_mem_nil
  have hstart : turned now [] table.rows ++ [] = table.rows := by
    simp [turned]
  obtain ⟨issued, hrows, hreplaces⟩ :=
    @rotateEach_rows table.rows ports now 0 _ [] [] table.distinct hdue hissued
  rw [hstart] at hrows
  exact ⟨issued, hrows, hreplaces⟩

end Run

/-! A key that ran out while it was still active, listed before one that is due. -/

theorem thirty_positive : isInteger 30 = true ∧ (0 : ℚ) < 30 := by decide +kernel

def monthly : RotationPolicy :=
  ⟨30, 0, true, thirty_positive, by decide +kernel⟩

def apiKey (id : UniqueEntityId) (expiresAt : Option ℤ) : Credential where
  id := id
  principalRef := "principal-1"
  kind := .apiKey
  fingerprint := "fp_1"
  kmsKeyRef := none
  status := .active
  supersedesRef := none
  issuedAt := 0
  expiresAt := expiresAt
  rotationPolicy := some monthly
  rotationDueAt := some (some 10)
  graceUntil := none

def twoKeys : CredentialTable where
  rows := [apiKey ⟨"key-1", by decide⟩ (some 20), apiKey ⟨"key-2", by decide⟩ none]
  distinct := by decide +kernel
  named := by decide +kernel

theorem thirdKey_notBlank : isBlank "key-3" = false := by decide

theorem thirdKey_fresh : ∀ row ∈ twoKeys.rows, row.id ≠ ⟨"key-3", thirdKey_notBlank⟩ := by
  decide +kernel

theorem fingerprint_notBlank (material : String) : isBlank ("fp_" ++ material) = false := by
  simp [isBlank, isWhitespace]

def localKms : RotationPorts twoKeys.rows where
  rotate _ keyRef := keyRef ++ "'"
  generateKeyRef _ purpose := "kms://local/" ++ purpose
  randomToken _ := "token"
  fingerprint material := "fp_" ++ material
  replacementId _ := ⟨"key-3", thirdKey_notBlank⟩
  fingerprinted := fingerprint_notBlank
  fresh _ := thirdKey_fresh

end Security
