import Lumo.LicensingCards

/-! # One active card for each merchant, and what a token callback must not meet

Every row that a call has read is still stored, under its version or a later one. A callback that
revokes the previous card and then fails keeps the revocation, and a row of version 0 cannot be
saved again. -/
namespace LicensingCards

open SharedKernel Licensing Interleavings LabelledRuns

variable {ι : Type*} [DecidableEq ι]

def OneActive (rows : Methods) : Prop :=
  ∀ m ∈ rows, ∀ n ∈ rows, m.status = .active → n.status = .active → m.tenantRef = n.tenantRef →
    m = n

structure Stored (rows : Methods) : Prop where
  ids : (rows.map BillingPaymentMethod.id).Nodup
  orders : ∀ m ∈ rows, ∀ n ∈ rows, m.provider = n.provider →
    m.providerOrderId = n.providerOrderId → m = n
  one_active : OneActive rows

def Current (method : BillingPaymentMethod) (previous : Option BillingPaymentMethod)
    (rows : Methods) : Prop :=
  method ∈ rows ∧ previous = findActiveByTenantRef method.tenantRef rows

/-- The law of one step: only a call that answers a success changes the table, a revoked method
stays revoked, and a callback for a pending method that meets no rival makes it active and the
previous one revoked. -/
structure LawfulStep (s : State Methods Point ι) (l : Label Choice ι)
    (u : State Methods Point ι) : Prop where
  refusal_keeps : u.shared ≠ s.shared →
    ∃ c choice output, l = .turn c choice ∧ u.processes c = .live (.finished (.ok output))
  revoked_stays : ∀ m ∈ s.shared, m.status = .revoked →
    ∀ n ∈ u.shared, n.id = m.id → n.status = .revoked
  unrivalled : ∀ c choice card sealedToken method previous, l = .turn c choice →
    s.processes c = .live (.savingToken card sealedToken method previous) →
    method.status = .pending → Current method previous s.shared →
    u.processes c = .live (.finished (.ok (.active method.id))) ∧
      (∃ m ∈ u.shared, m.id = method.id ∧ m.status = .active ∧ m.tokenId = some card.tokenId ∧
        m.sealedToken = some sealedToken) ∧
      ∀ p, previous = some p → ∃ m ∈ u.shared, m.id = p.id ∧ m.status = .revoked

def Lawful (s : State Methods Point ι) (l : Label Choice ι) : Prop :=
  ∀ u, Step turn s l u → LawfulStep s l u

def RevokesPrevious (method : BillingPaymentMethod) (previous : Option BillingPaymentMethod)
    (rows : Methods) : Prop :=
  ∃ p, previous = some p ∧ p.id ≠ method.id ∧ p.version ≠ 0 ∧ p ∈ rows

/-- Where the previous method is revoked, the callback's own is pending and unchanged, or its save
throws; and where nothing has changed since the reads, no row that a pending method's callback
saves is of version 0. -/
def TokenAllowed (method : BillingPaymentMethod) (previous : Option BillingPaymentMethod)
    (rows : Methods) : Prop :=
  (RevokesPrevious method previous rows →
    method.status = .pending ∧ (method.version = 0 ∨ method ∈ rows)) ∧
  (Current method previous rows → method.status = .pending →
    method.version ≠ 0 ∧ ∀ p, previous = some p → p.version ≠ 0)

def Allowed (s : State Methods Point ι) (l : Label Choice ι) : Prop :=
  ∀ c choice card sealedToken method previous, l = .turn c choice →
    s.processes c = .live (.savingToken card sealedToken method previous) →
    TokenAllowed method previous s.shared

def updated (method row : BillingPaymentMethod) : BillingPaymentMethod :=
  if row.id = method.id ∧ row.version = method.version then
    { method with version := method.version + 1 }
  else row

theorem updated_id (method row : BillingPaymentMethod) : (updated method row).id = row.id := by
  rw [updated]
  split
  · rename_i h
    exact h.1.symm
  · rfl

theorem updated_hit {method row : BillingPaymentMethod} (hid : row.id = method.id)
    (hversion : row.version = method.version) :
    updated method row = { method with version := method.version + 1 } :=
  if_pos ⟨hid, hversion⟩

theorem updated_of_id_ne {method row : BillingPaymentMethod} (h : row.id ≠ method.id) :
    updated method row = row :=
  if_neg fun hrow => h hrow.1

inductive Saved (method : BillingPaymentMethod) (rows : Methods) : Methods → Prop where
  | created : method.version = 0 →
      (∀ row ∈ rows, row.id ≠ method.id ∧ clashes method row = false) →
      Saved method rows (rows ++ [method])
  | stored : method.version ≠ 0 →
      (∃ row ∈ rows, row.id = method.id ∧ row.version = method.version) →
      (∀ row ∈ rows, row.id ≠ method.id → clashes method row = false) →
      Saved method rows (rows.map (updated method))

variable {rows : Methods} {m method : BillingPaymentMethod} {card : VerifiedCardToken}
  {sealedToken : String} {k' : Point}

theorem save_ok {rows' : Methods} (h : save method rows = .ok rows') :
    Saved method rows rows' := by
  rw [save] at h
  by_cases hv : method.version = 0
  · rw [if_pos hv] at h
    split at h
    · cases h
    · rename_i hfree
      cases h
      simp only [List.any_eq_true, not_exists, not_and, Bool.or_eq_true, beq_iff_eq, not_or,
        Bool.not_eq_true] at hfree
      exact .created hv hfree
  · rw [if_neg hv] at h
    split at h
    · rename_i hrow
      split at h
      · cases h
      · rename_i hfree
        cases h
        simp only [List.any_eq_true, not_exists, not_and, Bool.and_eq_true, bne_iff_ne, ne_eq,
          Bool.not_eq_true] at hfree
        simp only [List.any_eq_true, Bool.and_eq_true, beq_iff_eq] at hrow
        exact .stored hv hrow hfree
    · cases h

theorem save_stored (hv : method.version ≠ 0)
    (hrow : ∃ row ∈ rows, row.id = method.id ∧ row.version = method.version)
    (hfree : ∀ row ∈ rows, row.id ≠ method.id → clashes method row = false) :
    save method rows = .ok (rows.map (updated method)) := by
  have hany : (rows.any fun row => row.id == method.id && row.version == method.version) = true := by
    simpa only [List.any_eq_true, Bool.and_eq_true, beq_iff_eq] using hrow
  have hnone : ¬ (rows.any fun row => row.id != method.id && clashes method row) = true := by
    simpa only [List.any_eq_true, not_exists, not_and, Bool.and_eq_true, bne_iff_ne, ne_eq,
      Bool.not_eq_true] using hfree
  rw [save, if_neg hv, if_pos hany, if_neg hnone]
  rfl

theorem save_stale (hv : method.version ≠ 0)
    (hrow : ¬ ∃ row ∈ rows, row.id = method.id ∧ row.version = method.version) :
    save method rows = .error (methodConflict method) := by
  rw [save, if_neg hv, if_neg]
  simpa only [List.any_eq_true, Bool.and_eq_true, beq_iff_eq] using hrow

theorem save_error {t : Thrown} (h : save method rows = .error t) :
    t = uniqueViolation ∧ (method.version = 0 ∨
        ∃ row ∈ rows, row.id = method.id ∧ row.version = method.version) ∨
      t = methodConflict method ∧ method.version ≠ 0 ∧
        ¬ ∃ row ∈ rows, row.id = method.id ∧ row.version = method.version := by
  by_cases hv : method.version = 0
  · rw [save, if_pos hv] at h
    split at h
    · cases h
      exact Or.inl ⟨rfl, Or.inl hv⟩
    · cases h
  · by_cases hrow : ∃ row ∈ rows, row.id = method.id ∧ row.version = method.version
    · left
      rw [save, if_neg hv, if_pos] at h
      · split at h
        · cases h
          exact ⟨rfl, Or.inr hrow⟩
        · cases h
      · simpa only [List.any_eq_true, Bool.and_eq_true, beq_iff_eq] using hrow
    · rw [save_stale hv hrow] at h
      cases h
      exact Or.inr ⟨rfl, hv, hrow⟩

theorem not_clashes {row : BillingPaymentMethod} :
    clashes method row = false ↔
      ¬ (row.provider = method.provider ∧ row.providerOrderId = method.providerOrderId) ∧
        ¬ (method.status = .active ∧ row.status = .active ∧ row.tenantRef = method.tenantRef) := by
  rw [← Bool.not_eq_true, clashes]
  simp only [Bool.or_eq_true, Bool.and_eq_true, beq_iff_eq, not_or, and_assoc]

theorem Stored.eq_of_id (h : Stored rows) {n : BillingPaymentMethod} (hm : m ∈ rows) (hn : n ∈ rows)
    (hid : m.id = n.id) : m = n :=
  List.inj_on_of_nodup_map h.ids hm hn hid

theorem Stored.updated_cases (h : Stored rows)
    (hrow : ∃ row ∈ rows, row.id = method.id ∧ row.version = method.version) (hm : m ∈ rows) :
    m.id = method.id ∧ updated method m = { method with version := method.version + 1 } ∨
      m.id ≠ method.id ∧ updated method m = m := by
  obtain ⟨row, hmem, hid, hversion⟩ := hrow
  by_cases hmid : m.id = method.id
  · left
    obtain rfl := h.eq_of_id hm hmem (hmid.trans hid.symm)
    exact ⟨hmid, updated_hit hid hversion⟩
  · exact Or.inr ⟨hmid, updated_of_id_ne hmid⟩

theorem Stored.saved {rows' : Methods} (h : Stored rows)
    (hs : Saved method rows rows') : Stored rows' := by
  cases hs with
  | created hv hfree =>
    refine ⟨?_, ?_, ?_⟩
    · rw [List.map_append, List.nodup_append]
      refine ⟨h.ids, List.nodup_singleton _, ?_⟩
      simp only [List.mem_map, List.map_cons, List.map_nil, List.mem_singleton, forall_eq,
        forall_exists_index, and_imp, forall_apply_eq_imp_iff₂]
      exact fun row hrow => (hfree row hrow).1
    · intro m hm n hn hprovider horder
      rcases List.mem_append.mp hm with hm | hm
      · rcases List.mem_append.mp hn with hn | hn
        · exact h.orders m hm n hn hprovider horder
        · rw [List.mem_singleton.mp hn] at hprovider horder
          exact absurd ⟨hprovider, horder⟩ (not_clashes.mp (hfree m hm).2).1
      · rw [List.mem_singleton.mp hm] at hprovider horder ⊢
        rcases List.mem_append.mp hn with hn | hn
        · exact absurd ⟨hprovider.symm, horder.symm⟩ (not_clashes.mp (hfree n hn).2).1
        · exact (List.mem_singleton.mp hn).symm
    · intro m hm n hn hma hna hshop
      rcases List.mem_append.mp hm with hm | hm
      · rcases List.mem_append.mp hn with hn | hn
        · exact h.one_active m hm n hn hma hna hshop
        · rw [List.mem_singleton.mp hn] at hna hshop
          exact absurd ⟨hna, hma, hshop⟩ (not_clashes.mp (hfree m hm).2).2
      · rw [List.mem_singleton.mp hm] at hma hshop ⊢
        rcases List.mem_append.mp hn with hn | hn
        · exact absurd ⟨hma, hna, hshop.symm⟩ (not_clashes.mp (hfree n hn).2).2
        · exact (List.mem_singleton.mp hn).symm
  | stored hv hrow hfree =>
    refine ⟨?_, ?_, ?_⟩
    · rw [List.map_map, show BillingPaymentMethod.id ∘ updated method = BillingPaymentMethod.id
        from funext (updated_id method)]
      exact h.ids
    · simp only [List.mem_map, forall_exists_index, and_imp, forall_apply_eq_imp_iff₂]
      intro m hm n hn hprovider horder
      rcases h.updated_cases hrow hm with ⟨hmid, hmu⟩ | ⟨hmid, hmu⟩ <;>
        rcases h.updated_cases hrow hn with ⟨hnid, hnu⟩ | ⟨hnid, hnu⟩ <;>
        rw [hmu, hnu] at hprovider horder ⊢
      · exact absurd ⟨hprovider.symm, horder.symm⟩ (not_clashes.mp (hfree n hn hnid)).1
      · exact absurd ⟨hprovider, horder⟩ (not_clashes.mp (hfree m hm hmid)).1
      · exact h.orders m hm n hn hprovider horder
    · simp only [OneActive, List.mem_map, forall_exists_index, and_imp, forall_apply_eq_imp_iff₂]
      intro m hm n hn hma hna hshop
      rcases h.updated_cases hrow hm with ⟨hmid, hmu⟩ | ⟨hmid, hmu⟩ <;>
        rcases h.updated_cases hrow hn with ⟨hnid, hnu⟩ | ⟨hnid, hnu⟩ <;>
        rw [hmu] at hma hshop ⊢ <;> rw [hnu] at hna hshop ⊢
      · exact absurd ⟨hma, hna, hshop.symm⟩ (not_clashes.mp (hfree n hn hnid)).2
      · exact absurd ⟨hna, hma, hshop⟩ (not_clashes.mp (hfree m hm hmid)).2
      · exact h.one_active m hm n hn hma hna hshop

def Known (rows : Methods) (m : BillingPaymentMethod) : Prop :=
  ∃ row ∈ rows, row.id = m.id ∧ m.version ≤ row.version ∧ (m.version = row.version → row = m)

theorem known_of_mem (h : m ∈ rows) : Known rows m :=
  ⟨m, h, rfl, le_rfl, fun _ => rfl⟩

theorem Known.row {rows : Methods} {m : BillingPaymentMethod} (hk : Known rows m)
    (h : Stored rows) {row : BillingPaymentMethod} (hrow : row ∈ rows) (hid : row.id = m.id)
    (hversion : row.version = m.version) : row = m := by
  obtain ⟨r, hr, hrid, -, hsame⟩ := hk
  obtain rfl := h.eq_of_id hrow hr (hid.trans hrid.symm)
  exact hsame hversion.symm

theorem Known.saved {rows' : Methods} (hk : Known rows m)
    (hs : Saved method rows rows') : Known rows' m := by
  obtain ⟨row, hrow, hid, hle, hsame⟩ := hk
  cases hs with
  | created => exact ⟨row, List.mem_append_left _ hrow, hid, hle, hsame⟩
  | stored =>
    refine ⟨updated method row, List.mem_map_of_mem hrow, (updated_id _ _).trans hid, ?_, ?_⟩
    · rw [updated]
      split
      · rename_i hhit
        dsimp only
        omega
      · exact hle
    · rw [updated]
      split
      · rename_i hhit
        dsimp only
        intro heq
        omega
      · exact hsame

theorem revoked_saved {rows' : Methods} (h : Stored rows) (hs : Saved method rows rows')
    (hnot : ∀ row ∈ rows, row.id = method.id → row.version = method.version →
      row.status = .revoked → method.status = .revoked) :
    ∀ m ∈ rows, m.status = .revoked → ∀ n ∈ rows', n.id = m.id → n.status = .revoked := by
  intro m hm hrevoked n hn hid
  cases hs with
  | created hv hfree =>
    rcases List.mem_append.mp hn with hn | hn
    · rw [h.eq_of_id hn hm hid]
      exact hrevoked
    · rw [List.mem_singleton.mp hn] at hid
      exact absurd hid.symm (hfree m hm).1
  | stored =>
    obtain ⟨row, hrow, rfl⟩ := List.mem_map.mp hn
    rw [updated_id] at hid
    obtain rfl := h.eq_of_id hrow hm hid
    rw [updated]
    split
    · rename_i hhit
      exact hnot row hrow hhit.1 hhit.2 hrevoked
    · exact hrevoked

structure Evolves (rows rows' : Methods) : Prop where
  stored : Stored rows'
  known : ∀ m, Known rows m → Known rows' m
  revoked : ∀ m ∈ rows, m.status = .revoked → ∀ n ∈ rows', n.id = m.id → n.status = .revoked

theorem Evolves.refl (h : Stored rows) : Evolves rows rows where
  stored := h
  known _ hm := hm
  revoked m hm hrevoked n hn hid := by
    rw [h.eq_of_id hn hm hid]
    exact hrevoked

theorem Evolves.trans {rows₁ rows₂ : Methods} (h : Evolves rows rows₁) (h' : Evolves rows₁ rows₂) :
    Evolves rows rows₂ where
  stored := h'.stored
  known m hm := h'.known m (h.known m hm)
  revoked m hm hrevoked n hn hid := by
    obtain ⟨row, hrow, hrid, -⟩ := h.known m (known_of_mem hm)
    exact h'.revoked row hrow (h.revoked m hm hrevoked row hrow hrid) n hn (hid.trans hrid.symm)

theorem Stored.evolves {rows' : Methods} (h : Stored rows) (hs : Saved method rows rows')
    (hnot : ∀ row ∈ rows, row.id = method.id → row.version = method.version →
      row.status = .revoked → method.status = .revoked) : Evolves rows rows' where
  stored := h.saved hs
  known _ hm := hm.saved hs
  revoked := revoked_saved h hs hnot

@[simp] theorem revoke_id (m : BillingPaymentMethod) : m.revoke.id = m.id := by
  rw [BillingPaymentMethod.revoke]
  split <;> rfl

@[simp] theorem revoke_version (m : BillingPaymentMethod) : m.revoke.version = m.version := by
  rw [BillingPaymentMethod.revoke]
  split <;> rfl

@[simp] theorem revoke_status (m : BillingPaymentMethod) : m.revoke.status = .revoked := by
  rw [BillingPaymentMethod.revoke]
  split
  · assumption
  · rfl

theorem Stored.not_clashes_revoke (h : Stored rows) {p row : BillingPaymentMethod} (hp : p ∈ rows)
    (hrow : row ∈ rows) (hid : row.id ≠ p.id) : clashes p.revoke row = false := by
  refine not_clashes.mpr ⟨?_, fun hactive => ?_⟩
  · rintro ⟨hprovider, horder⟩
    apply hid
    have hp' : p.revoke.provider = p.provider ∧ p.revoke.providerOrderId = p.providerOrderId := by
      rw [BillingPaymentMethod.revoke]
      split <;> exact ⟨rfl, rfl⟩
    rw [h.orders row hrow p hp (hprovider.trans hp'.1) (horder.trans hp'.2)]
  · rw [revoke_status] at hactive
    cases hactive.1

def activated (card : VerifiedCardToken) (sealedToken : String) (method : BillingPaymentMethod) :
    BillingPaymentMethod :=
  { method with
    status := .active
    tokenId := some card.tokenId
    sealedToken := some sealedToken
    maskedPan := some card.maskedPan
    cardSubtype := some card.cardSubtype }

theorem activate_pending (h : method.status = .pending)
    (card : VerifiedCardToken) (sealedToken : String) :
    method.activate card sealedToken = .ok (activated card sealedToken method) := by
  rw [BillingPaymentMethod.activate, if_neg (not_not_intro h)]
  rfl

theorem activate_refused (h : method.status ≠ .pending)
    (card : VerifiedCardToken) (sealedToken : String) :
    ∃ e, method.activate card sealedToken = .error e := by
  rw [BillingPaymentMethod.activate, if_pos h]
  exact ⟨_, rfl⟩

inductive Activated (card : VerifiedCardToken) (sealedToken : String)
    (method : BillingPaymentMethod) (rows : Methods) :
    Except Thrown (Methods × Except DomainError Output) → Prop where
  | refused {e} : method.status ≠ .pending →
      Activated card sealedToken method rows (.ok (rows, .error e))
  | conflict {e} : method.status = .pending → method.version ≠ 0 →
      (¬ ∃ row ∈ rows, row.id = method.id ∧ row.version = method.version) →
      Activated card sealedToken method rows (.ok (rows, .error e))
  | threw {t} : method.status = .pending →
      (method.version = 0 ∨ ∃ row ∈ rows, row.id = method.id ∧ row.version = method.version) →
      Activated card sealedToken method rows (.error t)
  | done {rows'} : method.status = .pending →
      Saved (activated card sealedToken method) rows rows' →
      Activated card sealedToken method rows (.ok (rows', .ok (.active method.id)))

theorem activateMethod_activated (card : VerifiedCardToken) (sealedToken : String)
    (method : BillingPaymentMethod) (rows : Methods) :
    Activated card sealedToken method rows (activateMethod card sealedToken method rows) := by
  by_cases hpending : method.status = .pending
  · rw [activateMethod, activate_pending hpending]
    dsimp only
    cases hsave : save (activated card sealedToken method) rows with
    | ok rows' => exact .done hpending (save_ok hsave)
    | error t =>
      rcases save_error hsave with ⟨rfl, hrow⟩ | ⟨rfl, hv, hrow⟩
      · exact .threw hpending hrow
      · exact .conflict hpending hv hrow
  · obtain ⟨e, he⟩ := activate_refused hpending card sealedToken
    rw [activateMethod, he]
    exact .refused hpending

/-- How the saving of a token begins: with nothing to revoke, with a save that fails, or with the
previous method revoked. -/
inductive Begun (method : BillingPaymentMethod) (previous : Option BillingPaymentMethod)
    (rows : Methods) : Except Thrown Methods → Prop where
  | nothing : (∀ p, previous = some p → p.id = method.id) → Begun method previous rows (.ok rows)
  | failed {t p} : previous = some p → p.id ≠ method.id → ¬ RevokesPrevious method previous rows →
      Begun method previous rows (.error t)
  | revoked {p} : previous = some p → p.id ≠ method.id → p.version ≠ 0 → p ∈ rows →
      Saved p.revoke rows (rows.map (updated p.revoke)) →
      Begun method previous rows (.ok (rows.map (updated p.revoke)))

theorem revokePrevious_begun (method : BillingPaymentMethod)
    {previous : Option BillingPaymentMethod} (h : Stored rows)
    (hp : ∀ p, previous = some p → Known rows p) :
    Begun method previous rows (revokePrevious method previous rows) := by
  cases previous with
  | none => exact .nothing fun _ hq => by cases hq
  | some p =>
    rw [revokePrevious]
    by_cases hid : p.id = method.id
    · rw [if_pos hid]
      refine .nothing fun q hq => ?_
      cases hq
      exact hid
    rw [if_neg hid]
    by_cases hrevokes : p.version ≠ 0 ∧ p ∈ rows
    · obtain ⟨hv, hmem⟩ := hrevokes
      have hsave : save p.revoke rows = .ok (rows.map (updated p.revoke)) :=
        save_stored (by simpa using hv) ⟨p, hmem, by simp⟩ fun row hrow hne =>
          h.not_clashes_revoke hmem hrow (by simpa using hne)
      rw [hsave]
      exact .revoked rfl hid hv hmem (save_ok hsave)
    · have hnot : ¬ RevokesPrevious method (some p) rows := by
        rintro ⟨q, hq, -, hv, hmem⟩
        cases hq
        exact hrevokes ⟨hv, hmem⟩
      cases hsave : save p.revoke rows with
      | error t => exact .failed rfl hid hnot
      | ok rows' =>
        exfalso
        obtain ⟨row, hrow, hrid, -⟩ := hp p rfl
        cases save_ok hsave with
        | created _ hfree => exact (hfree row hrow).1 (by simpa using hrid)
        | stored hv hhit =>
          obtain ⟨r, hr, hid', hversion⟩ := hhit
          rw [revoke_id] at hid'
          rw [revoke_version] at hv hversion
          rw [(hp p rfl).row h hr hid' hversion] at hr
          exact hrevokes ⟨hv, hr⟩

theorem Known.no_revival (hk : Known rows m) (h : Stored rows) (hm : m.status ≠ .revoked)
    {row : BillingPaymentMethod} (hrow : row ∈ rows) (hid : row.id = m.id)
    (hversion : row.version = m.version) : row.status ≠ .revoked := by
  rw [hk.row h hrow hid hversion]
  exact hm

theorem evolves_revoke {rows' : Methods} {p : BillingPaymentMethod} (h : Stored rows)
    (hs : Saved p.revoke rows rows') : Evolves rows rows' :=
  h.evolves hs fun _ _ _ _ _ => revoke_status p

theorem evolves_activate {rows' : Methods} (h : Stored rows)
    (hk : Known rows method) (hpending : method.status = .pending)
    (hs : Saved (activated card sealedToken method) rows rows') : Evolves rows rows' := by
  apply h.evolves hs
  intro row hrow hid hversion hrevoked
  have hnot : method.status ≠ .revoked := by
    rw [hpending]
    decide
  exact absurd hrevoked (hk.no_revival h hnot hrow hid hversion)

/-- The saving of a token, all told. -/
inductive Recorded (card : VerifiedCardToken) (sealedToken : String)
    (method : BillingPaymentMethod) (previous : Option BillingPaymentMethod) (rows : Methods) :
    Answer × Methods → Prop where
  | kept {answer} : (∀ output, answer ≠ .ok output) →
      (RevokesPrevious method previous rows → method.status = .pending ∧
        (method.version = 0 ∨ method ∈ rows)) →
      Recorded card sealedToken method previous rows (answer, rows)
  | half {p e} : previous = some p → p.id ≠ method.id → p.version ≠ 0 → p ∈ rows →
      ¬ (method.status = .pending ∧ (method.version = 0 ∨ method ∈ rows)) →
      Evolves rows (rows.map (updated p.revoke)) →
      Recorded card sealedToken method previous rows (.err e, rows.map (updated p.revoke))
  | whole {rows₁ rows₂} : method.status = .pending → Evolves rows rows₁ →
      (method ∈ rows₁ → method ∈ rows) →
      (∀ p, previous = some p → p.id ≠ method.id →
        p.version ≠ 0 ∧ ∃ r ∈ rows₁, r.id = p.id ∧ r.status = .revoked) →
      Saved (activated card sealedToken method) rows₁ rows₂ →
      Recorded card sealedToken method previous rows (.ok (.active method.id), rows₂)

theorem saveToken_recorded (card : VerifiedCardToken) (sealedToken : String)
    {method : BillingPaymentMethod} {previous : Option BillingPaymentMethod} (h : Stored rows)
    (hk : Known rows method) (hp : ∀ p, previous = some p → Known rows p) :
    Recorded card sealedToken method previous rows
      (saveToken card sealedToken method previous rows) := by
  have hbegun := revokePrevious_begun method h hp
  rw [saveToken, unitOfWork, recordToken]
  generalize revokePrevious method previous rows = begun at hbegun
  cases hbegun with
  | nothing hsame =>
    have hnot : ¬ RevokesPrevious method previous rows := by
      rintro ⟨p, hprev, hid, -⟩
      exact hid (hsame p hprev)
    have ha := activateMethod_activated card sealedToken method rows
    dsimp only
    generalize activateMethod card sealedToken method rows = r at ha
    cases ha with
    | refused | conflict | threw => exact .kept (by simp) fun hr => absurd hr hnot
    | done hpending hs =>
      exact .whole hpending (Evolves.refl h) id
        (fun p hprev hid => absurd (hsame p hprev) hid) hs
  | @failed t p hprev hid hnot =>
    cases t with
    | provider reason | domain e | error message => exact .kept (by simp) fun hr => absurd hr hnot
  | @revoked p hprev hid hv hmem hs =>
    have hevolves := evolves_revoke h hs
    have ha := activateMethod_activated card sealedToken method (rows.map (updated p.revoke))
    dsimp only
    generalize activateMethod card sealedToken method (rows.map (updated p.revoke)) = r at ha
    -- the callback's own row is not the one that was revoked
    have hown : method ∈ rows.map (updated p.revoke) ↔ method ∈ rows := by
      constructor
      · intro hm
        obtain ⟨r, hr, hsame⟩ := List.mem_map.mp hm
        have hrid := congrArg BillingPaymentMethod.id hsame
        rw [updated_id] at hrid
        rw [updated_of_id_ne (by rw [revoke_id, hrid]; exact fun hne => hid hne.symm)] at hsame
        rw [← hsame]
        exact hr
      · intro hm
        refine List.mem_map.mpr ⟨method, hm, updated_of_id_ne ?_⟩
        rw [revoke_id]
        exact fun hne => hid hne.symm
    cases ha with
    | refused hstatus => exact .half hprev hid hv hmem (fun hok => hstatus hok.1) hevolves
    | conflict hpending hmv hrow =>
      refine .half hprev hid hv hmem (fun hok => ?_) hevolves
      rcases hok.2 with hzero | hm
      · exact hmv hzero
      · exact hrow ⟨method, hown.mpr hm, rfl, rfl⟩
    | threw hpending hrow =>
      refine .kept (by simp) fun _ => ⟨hpending, ?_⟩
      rcases hrow with hzero | ⟨row, hrow, hrid, hversion⟩
      · exact Or.inl hzero
      · right
        have hsame := (hevolves.known method hk).row hevolves.stored hrow hrid hversion
        rw [hsame] at hrow
        exact hown.mp hrow
    | done hpending hdone =>
      refine .whole hpending hevolves hown.mp (fun q hq _ => ?_) hdone
      rw [hprev] at hq
      cases hq
      refine ⟨hv, updated p.revoke p, List.mem_map_of_mem hmem, updated_id _ _, ?_⟩
      rw [updated_hit (by simp) (by simp)]
      exact revoke_status p

theorem Recorded.evolves {previous : Option BillingPaymentMethod}
    {r : Answer × Methods} (h : Stored rows) (hk : Known rows method)
    (hr : Recorded card sealedToken method previous rows r) : Evolves rows r.2 := by
  cases hr with
  | kept => exact Evolves.refl h
  | half _ _ _ _ _ hevolves => exact hevolves
  | whole hpending hevolves _ _ hs =>
    exact hevolves.trans (evolves_activate hevolves.stored (hevolves.known method hk) hpending hs)

def Relies (rows : Methods) : Point → Prop
  | .savingMethod method _ => method.version = 0
  | .findingPrevious _ _ method => Known rows method
  | .savingToken _ _ method previous =>
    Known rows method ∧ ∀ p, previous = some p → Known rows p
  | .savingRevoked method => ∃ p, method = p.revoke ∧ Known rows p
  | _ => True

theorem Evolves.relies {rows' : Methods} (h : Evolves rows rows') {k : Point} (hk : Relies rows k) :
    Relies rows' k := by
  cases k with
  | savingMethod => exact hk
  | findingPrevious => exact h.known _ hk
  | savingToken => exact ⟨h.known _ hk.1, fun p hp => h.known p (hk.2 p hp)⟩
  | savingRevoked =>
    obtain ⟨p, hp, hknown⟩ := hk
    exact ⟨p, hp, h.known p hknown⟩
  | _ => trivial

theorem unitOfWork_save (method : BillingPaymentMethod) (output : Output) (rows : Methods) :
    (∃ t, unitOfWork (fun rows => do
        let rows ← save method rows
        return (rows, .ok output)) rows = (.threw t, rows)) ∨
      ∃ rows', Saved method rows rows' ∧ unitOfWork (fun rows => do
        let rows ← save method rows
        return (rows, .ok output)) rows = (.ok output, rows') := by
  cases hsave : save method rows with
  | error t =>
    left
    simp only [unitOfWork, hsave, bind, Except.bind]
    exact ⟨t, rfl⟩
  | ok rows' =>
    right
    simp only [unitOfWork, hsave, bind, Except.bind]
    exact ⟨rows', save_ok hsave, rfl⟩

def Point.records : Point → Bool
  | .savingToken _ _ _ _ => true
  | _ => false

/-- Everything a turn can be. -/
inductive Turned (rows : Methods) : Point → Point → Methods → Prop where
  | reads {k k'} : k.records = false → Relies rows k' → Turned rows k k' rows
  | saves {k output rows'} : k.records = false → Evolves rows rows' →
      Turned rows k (.finished (.ok output)) rows'
  | records {card sealedToken method previous} :
      Known rows method → (∀ p, previous = some p → Known rows p) →
      Turned rows (.savingToken card sealedToken method previous)
        (.finished (saveToken card sealedToken method previous rows).1)
        (saveToken card sealedToken method previous rows).2

theorem relies_enrol (rows : Methods) (invoiceId : String) (found : Option Invoice) :
    Relies rows (enrol invoiceId found) := by
  rw [enrol.eq_def]
  split
  · trivial
  · split
    · trivial
    · split
      · trivial
      · split <;> trivial

theorem relies_receive (rows : Methods) (verified : Option VerifiedCardToken) :
    Relies rows (receive verified rows) := by
  rw [receive.eq_def]
  split
  · trivial
  · split <;> trivial

theorem relies_findMethod (rows : Methods) (card : VerifiedCardToken) (sealedToken : String) :
    Relies rows (findMethod card sealedToken rows) := by
  rw [findMethod]
  split
  · trivial
  · rename_i method hfind
    split
    · trivial
    · exact known_of_mem (List.mem_of_find?_eq_some hfind)

theorem relies_findActive (rows : Methods) (tenantRef : String) :
    Relies rows (findActive tenantRef rows) := by
  rw [findActive]
  split
  · trivial
  · rename_i method hfind
    exact ⟨method, rfl, known_of_mem (List.mem_of_find?_eq_some hfind)⟩

theorem turn_turned {k : Point} {choice : Choice} {rows' : Methods} (h : Stored rows)
    (hk : Relies rows k) (ht : turn k choice rows = some (k', rows')) : Turned rows k k' rows' := by
  rw [turn.eq_def] at ht
  split at ht
  case h_1 =>
    cases ht
    exact .reads rfl (relies_enrol _ _ _)
  case h_2 =>
    cases ht
    exact .reads rfl rfl
  case h_3 =>
    cases ht
    exact .reads rfl trivial
  case h_4 method checkoutUrl =>
    have hsave := unitOfWork_save method (.enrolled method.id method.providerOrderId checkoutUrl) rows
    rw [saveMethod] at ht
    rcases hsave with ⟨t, ht'⟩ | ⟨rows'', hs, ht'⟩ <;> rw [ht'] at ht <;> cases ht
    · exact .reads rfl trivial
    · refine .saves rfl (h.evolves hs fun row hrow hid hversion hrevoked => ?_)
      cases hs with
      | created hv hfree => exact absurd hid (hfree row hrow).1
      | stored hv => exact absurd hk hv
  case h_5 =>
    cases ht
    exact .reads rfl (relies_receive _ _)
  case h_6 =>
    cases ht
    exact .reads rfl trivial
  case h_7 =>
    cases ht
    exact .reads rfl trivial
  case h_8 =>
    cases ht
    exact .reads rfl (relies_findMethod _ _ _)
  case h_9 =>
    cases ht
    exact .reads rfl ⟨hk, fun p hp => known_of_mem (List.mem_of_find?_eq_some hp)⟩
  case h_10 card sealedToken method previous =>
    cases ht
    exact .records hk.1 hk.2
  case h_11 =>
    cases ht
    exact .reads rfl (relies_findActive _ _)
  case h_12 method =>
    have hsave := unitOfWork_save method (.revoked true) rows
    obtain ⟨p, rfl, hp⟩ := hk
    rw [saveRevoked] at ht
    rcases hsave with ⟨t, ht'⟩ | ⟨rows'', hs, ht'⟩ <;> rw [ht'] at ht <;> cases ht
    · exact .reads rfl trivial
    · exact .saves rfl (evolves_revoke h hs)
  case h_13 => cases ht

theorem Turned.evolves {rows' : Methods} {k : Point} (h : Stored rows) (hk : Relies rows k)
    (ht : Turned rows k k' rows') : Evolves rows rows' := by
  cases ht with
  | reads => exact Evolves.refl h
  | saves _ hevolves => exact hevolves
  | @records card sealedToken _ _ hm hp => exact (saveToken_recorded card sealedToken h hm hp).evolves h hm

theorem keeps_turn : Keeps turn Stored Relies := by
  intro rows k choice k' rows' h hk ht
  have hturned := turn_turned h hk ht
  have hevolves := hturned.evolves h hk
  refine ⟨hevolves.stored, ?_, fun other => hevolves.relies⟩
  cases hturned with
  | reads _ hk' => exact hk'
  | saves | records => trivial

theorem Recorded.refusal {previous : Option BillingPaymentMethod}
    {r : Answer × Methods} (hr : Recorded card sealedToken method previous rows r)
    (ha : TokenAllowed method previous rows) : r.2 = rows ∨ ∃ output, r.1 = .ok output := by
  cases hr with
  | kept => exact Or.inl rfl
  | half hprev hid hv hmem hnot => exact absurd (ha.1 ⟨_, hprev, hid, hv, hmem⟩) hnot
  | whole => exact Or.inr ⟨_, rfl⟩

theorem Current.previous {p : BillingPaymentMethod} {previous : Option BillingPaymentMethod}
    (h : Stored rows) (hpending : method.status = .pending) (hcur : Current method previous rows)
    (hprev : previous = some p) :
    p ∈ rows ∧ p.status = .active ∧ p.tenantRef = method.tenantRef ∧ p.id ≠ method.id := by
  have hfind := hcur.2.symm.trans hprev
  have hmem := List.mem_of_find?_eq_some hfind
  have hp := List.find?_some hfind
  simp only [Bool.and_eq_true, beq_iff_eq] at hp
  refine ⟨hmem, hp.2, hp.1, fun hid => ?_⟩
  have hstatus := hp.2
  rw [h.eq_of_id hmem hcur.1 hid, hpending] at hstatus
  cases hstatus

theorem save_activated (h : Stored rows) (hmem : method ∈ rows) (hv : method.version ≠ 0)
    (hnone : ∀ row ∈ rows, row.tenantRef = method.tenantRef → row.status ≠ .active) :
    save (activated card sealedToken method) rows =
      .ok (rows.map (updated (activated card sealedToken method))) := by
  have hstored : (activated card sealedToken method).version ≠ 0 := hv
  apply save_stored hstored ⟨method, hmem, rfl, rfl⟩
  intro row hrow hid
  refine not_clashes.mpr ⟨?_, ?_⟩
  · rintro ⟨hprovider, horder⟩
    have hsame := h.orders row hrow method hmem hprovider horder
    exact hid (by rw [hsame]; rfl)
  · rintro ⟨-, hactive, hshop⟩
    exact hnone row hrow hshop hactive

theorem saveToken_current (card : VerifiedCardToken) (sealedToken : String)
    {method : BillingPaymentMethod} {previous : Option BillingPaymentMethod} (h : Stored rows)
    (hpending : method.status = .pending) (hcur : Current method previous rows)
    (ha : TokenAllowed method previous rows) :
    (saveToken card sealedToken method previous rows).1 = .ok (.active method.id) := by
  obtain ⟨hv, hpv⟩ := ha.2 hcur hpending
  cases previous with
  | none =>
    have hnone : ∀ row ∈ rows, row.tenantRef = method.tenantRef → row.status ≠ .active := by
      intro row hrow hshop hactive
      have hmiss := List.find?_eq_none.mp hcur.2.symm row hrow
      simp [hshop, hactive] at hmiss
    simp only [saveToken, unitOfWork, recordToken, revokePrevious, activateMethod,
      activate_pending hpending, save_activated h hcur.1 hv hnone]
    rfl
  | some p =>
    obtain ⟨hmem, hactive, hshop, hid⟩ := hcur.previous h hpending rfl
    have hsave : save p.revoke rows = .ok (rows.map (updated p.revoke)) :=
      save_stored (by simpa using hpv p rfl) ⟨p, hmem, by simp⟩ fun row hrow hne =>
        h.not_clashes_revoke hmem hrow (by simpa using hne)
    have hstored := h.saved (save_ok hsave)
    have hown : method ∈ rows.map (updated p.revoke) := by
      refine List.mem_map.mpr ⟨method, hcur.1, updated_of_id_ne ?_⟩
      rw [revoke_id]
      exact Ne.symm hid
    have hhit : ∃ row ∈ rows, row.id = p.revoke.id ∧ row.version = p.revoke.version :=
      ⟨p, hmem, by simp⟩
    have hnone : ∀ row ∈ rows.map (updated p.revoke), row.tenantRef = method.tenantRef →
        row.status ≠ .active := by
      intro row hrow hrshop hractive
      obtain ⟨r, hr, rfl⟩ := List.mem_map.mp hrow
      rcases h.updated_cases hhit hr with ⟨-, hru⟩ | ⟨hne, hru⟩
      · rw [hru] at hractive
        simp at hractive
      · -- another active row of the merchant would be the one that was found
        rw [hru] at hrshop hractive
        rw [revoke_id] at hne
        exact hne (congrArg BillingPaymentMethod.id
          (h.one_active r hr p hmem hractive hactive (hrshop.trans hshop.symm)))
    simp only [saveToken, unitOfWork, recordToken, revokePrevious, if_neg hid, hsave,
      activateMethod, activate_pending hpending, save_activated hstored hown hv hnone]
    rfl

theorem Saved.activated {rows' : Methods}
    (hs : Saved (activated card sealedToken method) rows rows') :
    ∃ m ∈ rows', m.id = method.id ∧ m.status = .active ∧ m.tokenId = some card.tokenId ∧
      m.sealedToken = some sealedToken := by
  cases hs with
  | created => exact ⟨_, List.mem_append_right _ (List.mem_singleton.mpr rfl), rfl, rfl, rfl, rfl⟩
  | stored _ hrow =>
    obtain ⟨row, hmem, hid, hversion⟩ := hrow
    refine ⟨_, List.mem_map_of_mem hmem, ?_⟩
    rw [updated_hit hid hversion]
    exact ⟨rfl, rfl, rfl, rfl⟩

theorem Recorded.stored {previous : Option BillingPaymentMethod}
    {r : Answer × Methods} (h : Stored rows) (hk : Known rows method)
    (hpending : method.status = .pending) (hcur : Current method previous rows)
    (hr : Recorded card sealedToken method previous rows r) (hok : ∃ output, r.1 = .ok output) :
    (∃ m ∈ r.2, m.id = method.id ∧ m.status = .active ∧ m.tokenId = some card.tokenId ∧
        m.sealedToken = some sealedToken) ∧
      ∀ p, previous = some p → ∃ m ∈ r.2, m.id = p.id ∧ m.status = .revoked := by
  obtain ⟨output, hok⟩ := hok
  cases hr with
  | kept hnot => exact absurd hok (hnot output)
  | half => cases hok
  | whole _ hevolves _ hrevoked hs =>
    refine ⟨hs.activated, fun p hprev => ?_⟩
    obtain ⟨-, -, -, hid⟩ := hcur.previous h hpending hprev
    obtain ⟨-, m, hm, hmid, hstatus⟩ := hrevoked p hprev hid
    have hlate := evolves_activate hevolves.stored (hevolves.known method hk) hpending hs
    obtain ⟨row, hrow, hrid, -⟩ := hlate.known m (known_of_mem hm)
    exact ⟨row, hrow, hrid.trans hmid, hlate.revoked m hm hstatus row hrow hrid⟩

theorem lawful_step (s : State Methods Point ι) (l : Label Choice ι)
    (hs : Holds Stored Relies s) (ha : Allowed s l) : Lawful s l := by
  intro u hst
  cases step_move hst with
  | crash hc =>
    refine ⟨fun hne => absurd rfl hne, (Evolves.refl hs.shared).revoked, ?_⟩
    intro c choice card sealedToken method previous hl
    cases hl
  | @turn c k choice k' shared hc hk =>
    have hpoint := hs.points c
    rw [hc] at hpoint
    have hturned := turn_turned hs.shared hpoint hk
    refine ⟨fun hne => ?_, (hturned.evolves hs.shared hpoint).revoked, ?_⟩
    · cases hturned with
      | reads => exact absurd rfl hne
      | saves => exact ⟨c, choice, _, rfl, set_processes_self _ _ _ _⟩
      | @records card sealedToken method previous hm hp =>
        have hr := saveToken_recorded card sealedToken hs.shared hm hp
        rcases hr.refusal (ha c choice _ _ _ _ rfl hc) with hsame | ⟨output, hok⟩
        · exact absurd hsame hne
        · refine ⟨c, choice, output, rfl, ?_⟩
          rw [set_processes_self, hok]
    · intro c' choice' card sealedToken method previous hl hc' hpending hcur
      cases hl
      rw [hc] at hc'
      cases hc'
      cases hturned with
      | reads hrecords | saves hrecords => cases hrecords
      | records hm hp =>
        have hok := saveToken_current card sealedToken hs.shared hpending hcur
          (ha c choice _ _ _ _ rfl hc)
        have hr := saveToken_recorded card sealedToken hs.shared hm hp
        refine ⟨?_, hr.stored hs.shared hm hpending hcur ⟨_, hok⟩⟩
        rw [set_processes_self, hok]

/-- A callback that is not allowed breaks the law at its save. -/
theorem Recorded.allowed {previous : Option BillingPaymentMethod}
    {r : Answer × Methods} (h : Stored rows) (hk : Known rows method)
    (hr : Recorded card sealedToken method previous rows r)
    (hkeeps : r.2 ≠ rows → ∃ output, r.1 = .ok output)
    (hok : method.status = .pending → Current method previous rows →
      ∃ output, r.1 = .ok output) : TokenAllowed method previous rows := by
  cases hr with
  | kept hnot hallowed =>
    refine ⟨hallowed, fun hcur hpending => ?_⟩
    obtain ⟨output, hout⟩ := hok hpending hcur
    exact absurd hout (hnot output)
  | @half p e hprev hid hv hmem hnot hevolves =>
    exfalso
    have hsame : rows.map (updated p.revoke) = rows := by
      by_contra hne
      obtain ⟨output, hout⟩ := hkeeps hne
      cases hout
    have hrow : updated p.revoke p ∈ rows := by
      rw [← hsame]
      exact List.mem_map_of_mem hmem
    have heq := h.eq_of_id hrow hmem (updated_id _ _)
    rw [updated_hit (by simp) (by simp)] at heq
    have hversion := congrArg BillingPaymentMethod.version heq
    simp at hversion
  | @whole rows₁ rows₂ hpending hevolves hback hprevs hs =>
    have hknown := hevolves.known method hk
    have hstored : method.version ≠ 0 ∧ method ∈ rows := by
      cases hs with
      | created _ hfree =>
        obtain ⟨row, hrow, hid, -⟩ := hknown
        exact absurd hid (hfree row hrow).1
      | stored hv hrow =>
        obtain ⟨row, hrow, hid, hversion⟩ := hrow
        refine ⟨hv, hback ?_⟩
        rw [← hknown.row hevolves.stored hrow hid hversion]
        exact hrow
    refine ⟨fun _ => ⟨hpending, Or.inr hstored.2⟩, fun hcur _ => ⟨hstored.1, fun p hprev => ?_⟩⟩
    obtain ⟨-, -, -, hid⟩ := hcur.previous h hpending hprev
    exact (hprevs p hprev hid).1

theorem allowed_of_lawful (s : State Methods Point ι) (l : Label Choice ι)
    (u : State Methods Point ι) (hs : Holds Stored Relies s) (hst : Step turn s l u)
    (hlawful : LawfulStep s l u) : Allowed s l := by
  intro c choice card sealedToken method previous hl hc
  subst hl
  cases step_move hst with
  | @turn _ k _ k' shared hc' hk =>
    rw [hc'] at hc
    cases hc
    have hpoint := hs.points c
    rw [hc'] at hpoint
    have hturned := turn_turned hs.shared hpoint hk
    cases hturned with
    | reads hrecords | saves hrecords => cases hrecords
    | records hm hp =>
      apply (saveToken_recorded card sealedToken hs.shared hm hp).allowed hs.shared hm
      · intro hne
        obtain ⟨d, _, output, hd, hout⟩ := hlawful.refusal_keeps hne
        cases hd
        rw [set_processes_self] at hout
        injection hout with hout
        injection hout with hout
        exact ⟨output, hout⟩
      · intro hpending hcur
        have hout := (hlawful.unrivalled c choice card sealedToken method previous rfl hc' hpending
          hcur).1
        rw [set_processes_self] at hout
        injection hout with hout
        injection hout with hout
        exact ⟨_, hout⟩

theorem holds_step (s : State Methods Point ι) (l : Label Choice ι) (u : State Methods Point ι)
    (hs : Holds Stored Relies s) (hst : Step turn s l u) (_ : Allowed s l) :
    Holds Stored Relies u :=
  hs.step keeps_turn hst

/-- The constraints hold of the table, and every call is yet to begin. -/
structure Start (s : State Methods Point ι) : Prop where
  stored : Stored s.shared
  entries : ∀ c, ∃ k, s.processes c = .live k ∧
    ((∃ invoiceId, k = .enrolling invoiceId) ∨ k = .receiving ∨ ∃ tenantRef, k = .revoking tenantRef)

omit [DecidableEq ι] in
theorem Start.holds {s : State Methods Point ι} (h : Start s) : Holds Stored Relies s := by
  refine ⟨h.stored, fun c => ?_⟩
  obtain ⟨k, hk, hentry⟩ := h.entries c
  rw [hk]
  rcases hentry with ⟨_, rfl⟩ | rfl | ⟨_, rfl⟩ <;> trivial

/-- A merchant has one active card in every state, and every step keeps the law, exactly as long
as every token callback is allowed at its save. -/
theorem cards_lawful_iff {s : State Methods Point ι} (hs : Start s)
    {tr : List (Label Choice ι × State Methods Point ι)} (hr : Run (Step turn) s tr) :
    (Always (fun s => OneActive s.shared) s tr ∧ EveryStep Lawful s tr) ↔
      EveryStep Allowed s tr :=
  always_and_everyStep_iff holds_step (fun _ h => h.shared.one_active) lawful_step
    (fun s l u h hst hn hq => absurd (allowed_of_lawful s l u h hst (hq u hst)) hn) hs.holds hr

def firstInvoice : Invoice where
  id := "invoice-1"
  tenantRef := "merchant-1"
  currency := "EGP"
  lineItems := [⟨"Starter", 49900⟩]
  status := .issued
  paymentReference := none
  discount := none
  version := 1

def firstCard : VerifiedCardToken where
  providerOrderId := "order-1"
  tokenId := "token-1"
  token := "secret"
  maskedPan := "2346"
  cardSubtype := "MasterCard"

/-- An empty table, a merchant who will enrol a card and the callback that brings its token. -/
def noCards : State Methods Point Bool where
  shared := []
  processes c := if c then .live .receiving else .live (.enrolling "invoice-1")

def enrolment : List (Label Choice Bool) :=
  [.turn false (.invoice (some firstInvoice)),
    .turn false (.checkout "method-1" "order-1" "https://checkout"), .turn false .proceeds]

def firstToken : List (Label Choice Bool) :=
  [.turn true (.callback (some firstCard)), .turn true (.sealed "sealed"), .turn true .proceeds,
    .turn true .proceeds, .turn true .proceeds]

theorem start_noCards : Start noCards where
  stored := ⟨List.nodup_nil, by simp [noCards], by simp [noCards, OneActive]⟩
  entries c := by
    cases c
    · exact ⟨_, rfl, Or.inl ⟨_, rfl⟩⟩
    · exact ⟨_, rfl, Or.inr (Or.inl rfl)⟩

theorem enrolment_lawful_iff :
    (Always (fun s => OneActive s.shared) noCards (attempt (next turn) noCards enrolment) ∧
      EveryStep Lawful noCards (attempt (next turn) noCards enrolment)) ↔
      EveryStep Allowed noCards (attempt (next turn) noCards enrolment) :=
  cards_lawful_iff start_noCards (run_attempt (next turn) noCards enrolment)

/-- The first token of the first card: its row is of version 0, and the callback fails although it
meets no rival. -/
theorem first_token_fails :
    ¬ (Always (fun s => OneActive s.shared) noCards
        (attempt (next turn) noCards (enrolment ++ firstToken)) ∧
      EveryStep Lawful noCards (attempt (next turn) noCards (enrolment ++ firstToken))) := by
  rintro ⟨-, -, -, -, -, -, -, -, hlawful, -⟩
  have hlast := (hlawful _ rfl).unrivalled true .proceeds firstCard "sealed"
    (.begin "method-1" "merchant-1" billingProvider "order-1" "invoice-1") none rfl rfl rfl
    ⟨List.mem_singleton.mpr rfl, rfl⟩
  have hanswer := congrArg Process.point hlast.1
  revert hanswer
  decide +kernel

end LicensingCards
