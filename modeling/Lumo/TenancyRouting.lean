import Lumo.LabelledRuns
import Lumo.TenancyDomains

/-! # The routing of hosts to shops

Hostnames are distinct, the names under the platform's zone go with the slugs, a shop has one
primary domain and a host resolves by its verified spelling. What a refusal stores is the tenant
whose platform hostname turns out to be no hostname, or to be taken. -/
namespace Tenancy

open SharedKernel Builtins LabelledRuns

def UnderZone (zone : Option String) (hostname : Hostname) : Prop :=
  ∃ z, activeZone zone = some z ∧ (hostname.value = normalise z ∨
    '.' :: (normalise z).toList <:+ hostname.value.toList)

def GivenTo (zone : Option String) (slug : TenantSlug) (hostname : Hostname) : Prop :=
  ∃ z, activeZone zone = some z ∧ Hostname.create (platformHost slug.value z) = .ok hostname

def Spells (raw : String) (hostname : Hostname) : Prop :=
  toLowerCase (trim raw) = hostname.value ∨ toLowerCase (trim raw) = hostname.value ++ "."

structure Sound (zone : Option String) (s : Directory) : Prop where
  distinct : (s.domains.map fun d => d.hostname.value).Nodup
  zone_owned : ∀ d ∈ s.domains, UnderZone zone d.hostname →
    ∃ t, s.findTenantById d.shopRef = some t ∧ GivenTo zone t.slug d.hostname
  one_primary : ∀ d ∈ s.domains, ∀ e ∈ s.domains, d.shopRef = e.shopRef →
    d.isPrimary = true → e.isPrimary = true → d = e
  primary_verified : ∀ d ∈ s.domains, d.isPrimary = true → d.status = .verified
  resolved : ∀ raw shopId, (∃ host, resolveHost raw s = .ok host ∧ host.shopId = shopId) ↔
    ∃ d ∈ s.domains, d.shopRef = shopId ∧ d.status = .verified ∧ Spells raw d.hostname

/-- A call that answers an error leaves the tables as they were. -/
def RefusalKeeps (s : Directory) (r : Directory × Answer) : Prop :=
  (∀ e, r.2 = .err e → r.1 = s) ∧ ∀ t, r.2 = .threw t → r.1 = s

/-- A tenant that can be stored has a platform hostname that can be, and no custom domain passes
the guard of the zone because the zone is configured in another spelling. -/
def Allowed (zone : Option String) (s : Directory) : Call → Prop
  | .createTenant input tenantId _ _ => ∀ slug z, TenantSlug.create input.slug = .ok slug →
    s.findBySlug input.slug = none → (∀ t ∈ s.tenants, t.id ≠ tenantId) →
    activeZone zone = some z → ∃ hostname, Hostname.create (platformHost input.slug z) =
      .ok hostname ∧ s.findByHostname hostname.value = none
  | .addCustomDomain shopId raw id => ∀ hostname, Hostname.create raw = .ok hostname →
    UnderZone zone hostname → isUnderPlatformZone hostname.value zone = true ∨
      s.findTenantById shopId = none ∨ (s.findByHostname hostname.value).isSome ∨
      ∃ d ∈ s.domains, d.id = id
  | _ => True

theorem isLabel_getLast {label : List Char} (h : isLabel label = true) :
    ∃ c, label.getLast? = some c ∧ c ≠ '.' := by
  simp only [isLabel, Bool.and_eq_true] at h
  obtain ⟨-, hlast⟩ := h
  cases hl : label.getLast? with
  | none => simp [hl] at hlast
  | some c =>
    rw [hl, Option.any_some] at hlast
    refine ⟨c, rfl, ?_⟩
    rintro rfl
    exact absurd hlast (by decide)

theorem getLast_intercalate {labels : List (List Char)} (hne : labels ≠ [])
    (h : ∀ label ∈ labels, isLabel label = true) :
    ∃ c, (['.'].intercalate labels).getLast? = some c ∧ c ≠ '.' := by
  induction labels with
  | nil => exact absurd rfl hne
  | cons label rest ih =>
    cases rest with
    | nil =>
      obtain ⟨c, hc, hdot⟩ := isLabel_getLast (h label List.mem_cons_self)
      exact ⟨c, by simpa using hc, hdot⟩
    | cons next rest =>
      obtain ⟨c, hc, hdot⟩ := ih (by simp) fun l hl => h l (List.mem_cons_of_mem _ hl)
      refine ⟨c, ?_, hdot⟩
      rw [List.intercalate_cons_cons, List.getLast?_append, hc]
      rfl

theorem Hostname.getLast_value (hostname : Hostname) :
    ∃ c, hostname.value.toList.getLast? = some c ∧ c ≠ '.' := by
  have hlabels : ∀ label ∈ hostname.value.toList.splitOn '.', isLabel label = true := by
    have hw := hostname.wellFormed
    simp only [hostnameIssue] at hw
    split_ifs at hw with _ _ _ hall
    exact List.all_eq_true.mp hall
  have hlast := getLast_intercalate (List.splitOn_ne_nil _ _) hlabels
  rwa [List.intercalate_splitOn] at hlast

theorem withoutTrailingDot_eq_iff (value : String) (hostname : Hostname) :
    withoutTrailingDot value = hostname.value ↔
      value = hostname.value ∨ value = hostname.value ++ "." := by
  obtain ⟨c, hc, hdot⟩ := hostname.getLast_value
  rw [withoutTrailingDot]
  split
  · rename_i rest hrest
    have hvalue : value.toList = rest.reverse ++ ['.'] := by
      simpa using congrArg List.reverse hrest
    constructor
    · intro h
      right
      apply String.toList_injective
      rw [hvalue, ← h]
      simp
    · rintro (h | h)
      · rw [← h, hvalue] at hc
        simp only [List.getLast?_append, List.getLast?_singleton, Option.some_or,
          Option.some.injEq] at hc
        exact absurd hc.symm hdot
      · apply String.toList_injective
        rw [h, String.toList_append] at hvalue
        rw [String.toList_ofList]
        exact (List.append_inj_left' hvalue rfl).symm
  · rename_i hlast
    refine ⟨Or.inl, ?_⟩
    rintro (h | h)
    · exact h
    · exact absurd (by simp [h]) (hlast hostname.value.toList.reverse)

theorem normalise_eq_iff (raw : String) (hostname : Hostname) :
    normalise raw = hostname.value ↔ Spells raw hostname :=
  withoutTrailingDot_eq_iff _ _

variable {value raw : String} {domain d : ShopDomain} {s u : Directory}
  {f : ShopDomain → ShopDomain} {zone : Option String} {r : Directory × Answer}

theorem Hostname.create_ok (h : hostnameIssue (normalise raw) = none) :
    Hostname.create raw = .ok ⟨normalise raw, h⟩ := by
  unfold Hostname.create
  split
  · rfl
  · simp_all

theorem Hostname.create_error {message : String} (h : hostnameIssue (normalise raw) = some message) :
    Hostname.create raw = .error (.validation "Invalid hostname" [⟨"hostname", message⟩]) := by
  unfold Hostname.create
  split <;> simp_all

theorem Hostname.mk_eq_iff (h : hostnameIssue value = none) (hostname : Hostname) :
    (⟨value, h⟩ : Hostname) = hostname ↔ value = hostname.value := by
  cases hostname
  simp

theorem Hostname.create_eq_ok_iff {hostname : Hostname} :
    Hostname.create raw = .ok hostname ↔ normalise raw = hostname.value := by
  constructor
  · intro h
    rcases hw : hostnameIssue (normalise raw) with - | message
    · rw [Hostname.create_ok hw, Except.ok.injEq, Hostname.mk_eq_iff] at h
      exact h
    · rw [Hostname.create_error hw] at h
      simp at h
  · intro h
    have hwell : hostnameIssue (normalise raw) = none := by
      rw [h]
      exact hostname.wellFormed
    rw [Hostname.create_ok hwell, Except.ok.injEq, Hostname.mk_eq_iff]
    exact h

theorem TenantSlug.create_value {slug : TenantSlug} (h : TenantSlug.create value = .ok slug) :
    slug.value = value := by
  simp only [TenantSlug.create, bind, Except.bind] at h
  split at h
  · cases h
  · split at h
    · cases h
      rfl
    · cases h

def ShopDomain.updated (domain d : ShopDomain) : ShopDomain :=
  if d.id = domain.id ∧ d.version = domain.version then
    { d with
      status := domain.status, isPrimary := domain.isPrimary
      verifiedAt := domain.verifiedAt, version := d.version + 1 }
  else d

theorem saveDomain_new (hv : domain.version = 0) (h : s.saveDomain domain = .ok u) :
    (∀ d ∈ s.domains, d.id ≠ domain.id ∧ d.hostname.value ≠ domain.hostname.value) ∧
      u = { s with domains := s.domains ++ [{ domain with version := 1 }] } := by
  rw [Directory.saveDomain, if_pos hv] at h
  split at h
  · cases h
  · rename_i hfree
    refine ⟨fun d hd => ?_, (Except.ok.inj h).symm⟩
    simp only [List.any_eq_true, not_exists, not_and, Bool.or_eq_true, beq_iff_eq, not_or]
      at hfree
    exact hfree d hd

theorem saveDomain_free (hv : domain.version = 0)
    (h : ∀ d ∈ s.domains, d.id ≠ domain.id ∧ d.hostname.value ≠ domain.hostname.value) :
    s.saveDomain domain = .ok { s with domains := s.domains ++ [{ domain with version := 1 }] } := by
  rw [Directory.saveDomain, if_pos hv, if_neg]
  simpa only [List.any_eq_true, not_exists, not_and, Bool.or_eq_true, beq_iff_eq, not_or] using h

theorem saveDomain_old (hv : domain.version ≠ 0) (h : s.saveDomain domain = .ok u) :
    (∃ d ∈ s.domains, d.id = domain.id ∧ d.version = domain.version) ∧
      u = { s with domains := s.domains.map domain.updated } := by
  rw [Directory.saveDomain, if_neg hv] at h
  split at h
  · rename_i hrow
    refine ⟨?_, (Except.ok.inj h).symm⟩
    simpa only [List.any_eq_true, Bool.and_eq_true, beq_iff_eq] using hrow
  · cases h

theorem saveTenant_ok {tenant : Tenant} (h : s.saveTenant tenant = .ok u) :
    (∀ t ∈ s.tenants, t.id ≠ tenant.id) ∧
      u = { s with tenants := s.tenants ++ [{ tenant with version := 1 }] } := by
  rw [Directory.saveTenant] at h
  split at h
  · cases h
  · rename_i hfree
    refine ⟨fun t ht => ?_, (Except.ok.inj h).symm⟩
    simp only [List.any_eq_true, not_exists, not_and, Bool.or_eq_true, beq_iff_eq, not_or]
      at hfree
    exact (hfree t ht).1

theorem saveTenant_free {tenant : Tenant}
    (h : ∀ t ∈ s.tenants, t.id ≠ tenant.id ∧ t.slug.value ≠ tenant.slug.value) :
    s.saveTenant tenant =
      .ok { s with tenants := s.tenants ++ [{ tenant with version := 1 }] } := by
  rw [Directory.saveTenant, if_neg]
  simpa only [List.any_eq_true, not_exists, not_and, Bool.or_eq_true, beq_iff_eq, not_or] using h

theorem findBySlug_none {slug : String} (h : s.findBySlug slug = none) {tenantSlug : TenantSlug}
    (hv : tenantSlug.value = slug) : ∀ t ∈ s.tenants, t.slug.value ≠ tenantSlug.value := by
  intro t ht heq
  have hmiss := List.find?_eq_none.mp h t ht
  rw [heq, hv] at hmiss
  simp at hmiss

structure Follows (f : ShopDomain → ShopDomain) : Prop where
  id : ∀ d, (f d).id = d.id
  shopRef : ∀ d, (f d).shopRef = d.shopRef
  hostname : ∀ d, (f d).hostname = d.hostname
  version : ∀ d, d.version ≤ (f d).version

theorem follows_updated (domain : ShopDomain) : Follows domain.updated where
  id d := by rw [ShopDomain.updated]; split <;> rfl
  shopRef d := by rw [ShopDomain.updated]; split <;> rfl
  hostname d := by rw [ShopDomain.updated]; split <;> rfl
  version d := by rw [ShopDomain.updated]; split <;> simp

theorem Follows.comp {g : ShopDomain → ShopDomain} (hg : Follows g) (hf : Follows f) :
    Follows (g ∘ f) where
  id d := (hg.id _).trans (hf.id d)
  shopRef d := (hg.shopRef _).trans (hf.shopRef d)
  hostname d := (hg.hostname _).trans (hf.hostname d)
  version d := (hf.version d).trans (hg.version _)

theorem follows_id : Follows id :=
  ⟨fun _ => rfl, fun _ => rfl, fun _ => rfl, fun _ => le_rfl⟩

structure Rows (zone : Option String) (s : Directory) : Prop where
  hostnames : (s.domains.map fun d => d.hostname.value).Nodup
  ids : (s.domains.map ShopDomain.id).Nodup
  shops : ∀ d ∈ s.domains, ∃ t, s.findTenantById d.shopRef = some t
  versions : ∀ d ∈ s.domains, 1 ≤ d.version
  zone_owned : ∀ d ∈ s.domains, UnderZone zone d.hostname →
    ∃ t, s.findTenantById d.shopRef = some t ∧ GivenTo zone t.slug d.hostname
  one_primary : ∀ d ∈ s.domains, ∀ e ∈ s.domains, d.shopRef = e.shopRef →
    d.isPrimary = true → e.isPrimary = true → d.id = e.id
  primary_verified : ∀ d ∈ s.domains, d.isPrimary = true → d.status = .verified

/-- Besides, every tenant has its platform hostname, where that is a hostname. -/
structure Kept (zone : Option String) (s : Directory) : Prop extends Rows zone s where
  provided : ∀ t ∈ s.tenants, ∀ hostname, GivenTo zone t.slug hostname →
    ∃ d ∈ s.domains, d.hostname.value = hostname.value

theorem kept_empty (zone : Option String) : Kept zone ⟨[], []⟩ := by
  refine ⟨?_, by simp⟩
  constructor <;> simp

theorem Rows.eq_of_id (hk : Rows zone s) {e : ShopDomain} (hd : d ∈ s.domains) (he : e ∈ s.domains)
    (h : d.id = e.id) : d = e :=
  List.inj_on_of_nodup_map hk.ids hd he h

/-- An update of the rows keeps the invariant when it keeps the primaries in order. -/
theorem Kept.map (hk : Kept zone s) (hf : Follows f)
    (hone : ∀ d ∈ s.domains, ∀ e ∈ s.domains, d.shopRef = e.shopRef →
      (f d).isPrimary = true → (f e).isPrimary = true → d.id = e.id)
    (hverified : ∀ d ∈ s.domains, (f d).isPrimary = true → (f d).status = .verified) :
    Kept zone { s with domains := s.domains.map f } where
  hostnames := by
    rw [List.map_map, show (fun d : ShopDomain => d.hostname.value) ∘ f =
      fun d => d.hostname.value from funext fun d => congrArg Hostname.value (hf.hostname d)]
    exact hk.hostnames
  ids := by
    rw [List.map_map, show ShopDomain.id ∘ f = ShopDomain.id from funext hf.id]
    exact hk.ids
  shops := by
    simp only [List.mem_map, forall_exists_index, and_imp, forall_apply_eq_imp_iff₂, hf.shopRef]
    exact hk.shops
  versions := by
    simp only [List.mem_map, forall_exists_index, and_imp, forall_apply_eq_imp_iff₂]
    exact fun d hd => (hk.versions d hd).trans (hf.version d)
  zone_owned := by
    simp only [List.mem_map, forall_exists_index, and_imp, forall_apply_eq_imp_iff₂, hf.shopRef,
      hf.hostname]
    exact hk.zone_owned
  provided t ht hostname hgiven := by
    obtain ⟨d, hd, hname⟩ := hk.provided t ht hostname hgiven
    exact ⟨f d, List.mem_map_of_mem hd, by rw [hf.hostname, hname]⟩
  one_primary := by
    simp only [List.mem_map, forall_exists_index, and_imp, forall_apply_eq_imp_iff₂, hf.shopRef,
      hf.id]
    exact hone
  primary_verified := by
    simp only [List.mem_map, forall_exists_index, and_imp, forall_apply_eq_imp_iff₂]
    exact hverified

theorem findTenantById_append {id : String} {t : Tenant} (tenant : Tenant)
    (h : s.findTenantById id = some t) :
    Directory.findTenantById id { s with tenants := s.tenants ++ [tenant] } = some t := by
  rw [Directory.findTenantById] at h ⊢
  rw [List.find?_append, h]
  rfl

/-- A new domain keeps the invariant when it is not primary, or belongs to a new shop. -/
theorem Rows.add (hk : Rows zone s) (hfresh : ∀ d ∈ s.domains,
      d.id ≠ domain.id ∧ d.hostname.value ≠ domain.hostname.value)
    (hshop : ∃ t, s.findTenantById domain.shopRef = some t)
    (howned : UnderZone zone domain.hostname →
      ∃ t, s.findTenantById domain.shopRef = some t ∧ GivenTo zone t.slug domain.hostname)
    (hone : domain.isPrimary = true → ∀ d ∈ s.domains, d.shopRef ≠ domain.shopRef)
    (hverified : domain.isPrimary = true → domain.status = .verified) :
    Rows zone { s with domains := s.domains ++ [{ domain with version := 1 }] } where
  hostnames := by
    rw [List.map_append, List.nodup_append]
    refine ⟨hk.hostnames, List.nodup_singleton _, ?_⟩
    simp only [List.mem_map, List.map_cons, List.map_nil, List.mem_singleton, forall_eq,
      forall_exists_index, and_imp, forall_apply_eq_imp_iff₂]
    exact fun d hd => (hfresh d hd).2
  ids := by
    rw [List.map_append, List.nodup_append]
    refine ⟨hk.ids, List.nodup_singleton _, ?_⟩
    simp only [List.mem_map, List.map_cons, List.map_nil, List.mem_singleton, forall_eq,
      forall_exists_index, and_imp, forall_apply_eq_imp_iff₂]
    exact fun d hd => (hfresh d hd).1
  shops d hd := by
    rcases List.mem_append.mp hd with hd | hd
    · exact hk.shops d hd
    · rw [List.mem_singleton.mp hd]
      exact hshop
  versions d hd := by
    rcases List.mem_append.mp hd with hd | hd
    · exact hk.versions d hd
    · rw [List.mem_singleton.mp hd]
  zone_owned d hd := by
    rcases List.mem_append.mp hd with hd | hd
    · exact hk.zone_owned d hd
    · rw [List.mem_singleton.mp hd]
      exact howned
  one_primary d hd e he hshops hdp hep := by
    rcases List.mem_append.mp hd with hd | hd
    · rcases List.mem_append.mp he with he | he
      · exact hk.one_primary d hd e he hshops hdp hep
      · rw [List.mem_singleton.mp he] at hshops hep
        exact absurd hshops (hone hep d hd)
    · rw [List.mem_singleton.mp hd] at hshops hdp ⊢
      rcases List.mem_append.mp he with he | he
      · exact absurd hshops.symm (hone hdp e he)
      · rw [List.mem_singleton.mp he]
  primary_verified d hd hp := by
    rcases List.mem_append.mp hd with hd | hd
    · exact hk.primary_verified d hd hp
    · rw [List.mem_singleton.mp hd] at hp ⊢
      exact hverified hp

/-- What a call for a new tenant comes to. -/
inductive Created (zone : Option String) (input : CreateTenantInput)
    (tenantId domainId : String) (now : ℤ) (s : Directory) : Directory × Answer → Prop where
  | refused {answer} : Allowed zone s (.createTenant input tenantId domainId now) →
      Created zone input tenantId domainId now s (s, answer)
  | alone {slug} : TenantSlug.create input.slug = .ok slug → activeZone zone = none →
      (∀ t ∈ s.tenants, t.id ≠ tenantId) →
      Created zone input tenantId domainId now s
        ({ s with tenants := s.tenants ++
            [{ Tenant.create tenantId slug input.name input.isolationTier with version := 1 }] },
          .ok (.id tenantId))
  | served {slug z hostname} : TenantSlug.create input.slug = .ok slug →
      activeZone zone = some z → (∀ t ∈ s.tenants, t.id ≠ tenantId) →
      Hostname.create (platformHost input.slug z) = .ok hostname →
      (∀ d ∈ s.domains, d.id ≠ domainId ∧ d.hostname.value ≠ hostname.value) →
      Created zone input tenantId domainId now s
        (⟨s.tenants ++
            [{ Tenant.create tenantId slug input.name input.isolationTier with version := 1 }],
          s.domains ++
            [{ ShopDomain.platform domainId tenantId hostname now with version := 1 }]⟩,
          .ok (.id tenantId))
  | stranded {slug z e} : TenantSlug.create input.slug = .ok slug →
      s.findBySlug input.slug = none → activeZone zone = some z →
      (∀ t ∈ s.tenants, t.id ≠ tenantId) →
      (∀ hostname, Hostname.create (platformHost input.slug z) = .ok hostname →
        s.findByHostname hostname.value ≠ none) →
      Created zone input tenantId domainId now s
        ({ s with tenants := s.tenants ++
            [{ Tenant.create tenantId slug input.name input.isolationTier with version := 1 }] },
          .err e)

theorem createTenant_created (zone : Option String) (input : CreateTenantInput)
    (tenantId domainId : String) (now : ℤ) (s : Directory) :
    Created zone input tenantId domainId now s
      (createTenant zone input tenantId domainId now s) := by
  rw [createTenant]
  cases hslug : TenantSlug.create input.slug with
  | error e =>
    refine .refused fun slug z h => ?_
    rw [hslug] at h
    cases h
  | ok slug =>
    dsimp only
    by_cases hfound : (s.findBySlug input.slug).isSome = true
    · simp only [unitOfWork, hfound, if_true]
      refine .refused fun _ _ _ hnone => ?_
      rw [hnone] at hfound
      cases hfound
    have hnone : s.findBySlug input.slug = none := by simpa using hfound
    cases hsave : s.saveTenant (Tenant.create tenantId slug input.name input.isolationTier) with
    | error t =>
      simp only [unitOfWork, hfound, hsave, bind, Except.bind]
      refine .refused fun _ _ _ _ hids => ?_
      have hslugs := findBySlug_none hnone (TenantSlug.create_value hslug)
      rw [saveTenant_free fun t ht => ⟨hids t ht, hslugs t ht⟩] at hsave
      cases hsave
    | ok u =>
      obtain ⟨hids, rfl⟩ := saveTenant_ok hsave
      cases hzone : activeZone zone with
      | none =>
        simp only [unitOfWork, hfound, hsave, bind, Except.bind]
        exact .alone hslug hzone hids
      | some z =>
        cases hhost : Hostname.create (platformHost input.slug z) with
        | error e =>
          simp only [unitOfWork, hfound, hsave, hhost, bind, Except.bind]
          refine .stranded hslug hnone hzone hids fun hostname h => ?_
          rw [hhost] at h
          simp at h
        | ok hostname =>
          by_cases htaken : (s.findByHostname hostname.value).isSome = true
          · simp only [unitOfWork, hfound, hsave, hhost, bind, Except.bind,
              Directory.findByHostname] at htaken ⊢
            simp only [htaken, if_true]
            refine .stranded hslug hnone hzone hids fun h hh => ?_
            rw [hhost, Except.ok.injEq] at hh
            subst hh
            exact Option.isSome_iff_ne_none.mp htaken
          have hfree : s.findByHostname hostname.value = none := by simpa using htaken
          cases hadd : Directory.saveDomain (ShopDomain.platform domainId tenantId hostname now)
              { s with tenants := s.tenants ++
                [{ Tenant.create tenantId slug input.name input.isolationTier with
                  version := 1 }] } with
          | error t =>
            simp only [unitOfWork, hfound, hsave, hhost, bind, Except.bind,
              Directory.findByHostname] at htaken ⊢
            simp only [htaken, hadd]
            refine .refused fun _ z' _ _ _ hz' => ?_
            rw [hzone, Option.some.injEq] at hz'
            subst hz'
            exact ⟨hostname, hhost, hfree⟩
          | ok v =>
            obtain ⟨hrows, rfl⟩ := saveDomain_new rfl hadd
            simp only [unitOfWork, hfound, hsave, hhost, bind, Except.bind,
              Directory.findByHostname] at htaken ⊢
            simp only [htaken, hadd]
            exact .served hslug hzone hids hhost hrows

/-- What a call for a custom domain comes to. -/
inductive Added (zone : Option String) (shopId raw id : String) (s : Directory) :
    Directory × Answer → Prop where
  | refused {answer} : Allowed zone s (.addCustomDomain shopId raw id) →
      Added zone shopId raw id s (s, answer)
  | stored {hostname t} : Hostname.create raw = .ok hostname →
      isUnderPlatformZone hostname.value zone = false → s.findTenantById shopId = some t →
      (∀ d ∈ s.domains, d.id ≠ id ∧ d.hostname.value ≠ hostname.value) →
      Added zone shopId raw id s
        ({ s with domains := s.domains ++
            [{ ShopDomain.custom id shopId hostname with version := 1 }] }, .ok (.id id))

theorem addCustomDomain_added (zone : Option String) (shopId raw id : String) (s : Directory) :
    Added zone shopId raw id s (addCustomDomain zone shopId raw id s) := by
  unfold addCustomDomain
  rcases hhost : Hostname.create raw with e | hostname
  · refine .refused fun hostname h => ?_
    rw [hhost] at h
    simp at h
  have hsame : ∀ h, Hostname.create raw = .ok h → h = hostname := by
    intro h hh
    rw [hhost, Except.ok.injEq] at hh
    exact hh.symm
  dsimp only
  by_cases hunder : isUnderPlatformZone hostname.value zone = true
  · rw [if_pos hunder]
    refine .refused fun h hh _ => Or.inl ?_
    rw [hsame h hh]
    exact hunder
  rw [if_neg hunder]
  cases hshop : s.findTenantById shopId with
  | none =>
    simp only [unitOfWork, hshop]
    exact .refused fun _ _ _ => Or.inr (Or.inl hshop)
  | some t =>
    by_cases htaken : (s.findByHostname hostname.value).isSome = true
    · simp only [unitOfWork, hshop, htaken]
      refine .refused fun h hh _ => Or.inr (Or.inr (Or.inl ?_))
      rw [hsame h hh]
      exact htaken
    cases hsave : s.saveDomain (ShopDomain.custom id shopId hostname) with
    | error t =>
      simp only [unitOfWork, hshop, htaken, hsave, bind, Except.bind]
      refine .refused fun h hh _ => Or.inr (Or.inr (Or.inr ?_))
      by_contra hno
      have hfree : ∀ d ∈ s.domains, d.id ≠ id ∧ d.hostname.value ≠ hostname.value := by
        refine fun d hd => ⟨fun hid => hno ⟨d, hd, hid⟩, fun hname => htaken ?_⟩
        exact List.find?_isSome.mpr ⟨d, hd, by simpa using hname⟩
      rw [saveDomain_free rfl hfree] at hsave
      cases hsave
    | ok u =>
      obtain ⟨hfree, rfl⟩ := saveDomain_new rfl hsave
      simp only [unitOfWork, hshop, htaken, hsave, bind, Except.bind]
      exact .stored hhost (by simpa using hunder) hshop hfree

inductive Changed (s : Directory) (P : (ShopDomain → ShopDomain) → Prop) :
    Directory × Answer → Prop where
  | same {answer} : Changed s P (s, answer)
  | rows {f output} : Follows f → P f → Changed s P ({ s with domains := s.domains.map f },
      .ok output)

structure Orderly (s : Directory) (f : ShopDomain → ShopDomain) : Prop where
  one_primary : ∀ d ∈ s.domains, ∀ e ∈ s.domains, d.shopRef = e.shopRef →
    (f d).isPrimary = true → (f e).isPrimary = true → d.id = e.id
  verified : ∀ d ∈ s.domains, (f d).isPrimary = true → (f d).status = .verified

theorem updated_cases (domain d : ShopDomain) :
    (d.id = domain.id ∧ (domain.updated d).isPrimary = domain.isPrimary ∧
      (domain.updated d).status = domain.status) ∨ domain.updated d = d := by
  by_cases hrow : d.id = domain.id ∧ d.version = domain.version
  · left
    rw [ShopDomain.updated, if_pos hrow]
    exact ⟨hrow.1, rfl, rfl⟩
  · right
    rw [ShopDomain.updated, if_neg hrow]

theorem Kept.orderly_verify (hk : Kept zone s) (hmem : domain ∈ s.domains)
    (hpending : domain.status ≠ .verified) (now : ℤ) : Orderly s (domain.verify now).updated := by
  -- a pending domain is not primary, and its row does not become so
  have hprimary : ∀ d ∈ s.domains, ((domain.verify now).updated d).isPrimary = true →
      (domain.verify now).updated d = d := by
    intro d hd hp
    rcases updated_cases (domain.verify now) d with ⟨-, hflag, -⟩ | hsame
    · rw [hflag, ShopDomain.verify, if_neg hpending] at hp
      exact absurd (hk.primary_verified domain hmem hp) hpending
    · exact hsame
  constructor
  · intro d hd e he hshops hdp hep
    rw [hprimary d hd hdp] at hdp
    rw [hprimary e he hep] at hep
    exact hk.one_primary d hd e he hshops hdp hep
  · intro d hd hdp
    have hsame := hprimary d hd hdp
    rw [hsame] at hdp ⊢
    exact hk.primary_verified d hd hdp

theorem verifyDomain_changed (hk : Kept zone s) (points : Option (String → Bool))
    (domainId : String) (now : ℤ) : Changed s (Orderly s) (verifyDomain points domainId now s) := by
  cases points with
  | none => exact .same
  | some points =>
    simp only [verifyDomain, unitOfWork]
    cases hfind : s.findDomainById domainId with
    | none => exact .same
    | some domain =>
      have hmem : domain ∈ s.domains := List.mem_of_find?_eq_some hfind
      dsimp only
      by_cases hverified : domain.status = .verified
      · simp only [hverified]
        exact .same
      by_cases hpoints : points domain.hostname.value = true
      · cases hsave : s.saveDomain (domain.verify now) with
        | error t =>
          simp only [hverified, hpoints, bind, Except.bind]
          exact .same
        | ok u =>
          have hversion : (domain.verify now).version ≠ 0 := by
            have := hk.versions domain hmem
            rw [ShopDomain.verify, if_neg hverified]
            dsimp only
            omega
          obtain ⟨-, rfl⟩ := saveDomain_old hversion hsave
          simp only [hverified, hpoints, bind, Except.bind]
          refine .rows (follows_updated _) (hk.orderly_verify hmem hverified now)
      · simp only [hverified, hpoints]
        exact .same

/-- What the demotions leave: a row that is still primary was not touched, and none of the primaries
that were read is. -/
structure Demotes (s : Directory) (others : List ShopDomain) (f : ShopDomain → ShopDomain) :
    Prop where
  follows : Follows f
  untouched : ∀ d, (f d).isPrimary = true → f d = d
  demoted : ∀ o ∈ others, o.isPrimary = true → ∀ d ∈ s.domains, d.id = o.id →
    (f d).isPrimary = false

theorem demoteAll_ok {others : List ShopDomain} (hids : (s.domains.map ShopDomain.id).Nodup)
    (hversions : ∀ o ∈ others, o.version ≠ 0) (h : demoteAll others s = .ok u) :
    ∃ f, Demotes s others f ∧ u = { s with domains := s.domains.map f } := by
  induction others generalizing s with
  | nil =>
    cases h
    exact ⟨id, ⟨follows_id, fun _ _ => rfl, by simp⟩, by simp⟩
  | cons o rest ih =>
    have hrest : ∀ o ∈ rest, o.version ≠ 0 := fun x hx => hversions x (List.mem_cons_of_mem _ hx)
    rw [demoteAll, List.foldlM_cons] at h
    by_cases hp : o.isPrimary = true
    · rw [if_pos hp] at h
      cases hsave : s.saveDomain o.demote with
      | error t =>
        rw [hsave] at h
        cases h
      | ok v =>
        rw [hsave] at h
        have hold : o.demote.version ≠ 0 := hversions o List.mem_cons_self
        obtain ⟨⟨row, hrow, hid, hversion⟩, rfl⟩ := saveDomain_old hold hsave
        have hsame := follows_updated o.demote
        have hflag : ∀ d, (o.demote.updated d).isPrimary = true → o.demote.updated d = d := by
          intro d hd
          rcases updated_cases o.demote d with ⟨-, hflag, -⟩ | heq
          · rw [hflag] at hd
            cases hd
          · exact heq
        obtain ⟨f, hf, rfl⟩ := ih (s := { s with domains := s.domains.map o.demote.updated })
          (by rwa [List.map_map, show ShopDomain.id ∘ o.demote.updated = ShopDomain.id from
            funext hsame.id]) hrest h
        refine ⟨f ∘ o.demote.updated, ⟨hf.follows.comp hsame, ?_, ?_⟩, by simp⟩
        · intro d hd
          have hlate := hf.untouched _ hd
          rw [Function.comp_apply, hlate] at hd ⊢
          exact hflag d hd
        · intro x hx hxp d hd hdx
          by_contra hstill
          rw [Bool.not_eq_false, Function.comp_apply] at hstill
          rcases List.mem_cons.mp hx with rfl | hx
          · -- the row that was read is the one that was demoted
            have hdrow : d = row := List.inj_on_of_nodup_map hids hd hrow (hdx.trans hid.symm)
            rw [hf.untouched _ hstill] at hstill
            subst hdrow
            rw [ShopDomain.updated, if_pos ⟨hid, hversion⟩] at hstill
            cases hstill
          · have hgone := hf.demoted x hx hxp _ (List.mem_map_of_mem hd)
              ((hsame.id d).trans hdx)
            rw [hgone] at hstill
            cases hstill
    · rw [if_neg hp] at h
      obtain ⟨f, hf, rfl⟩ := ih hids hrest h
      refine ⟨f, ⟨hf.follows, hf.untouched, ?_⟩, rfl⟩
      intro x hx hxp
      rcases List.mem_cons.mp hx with rfl | hx
      · exact absurd hxp hp
      · exact hf.demoted x hx hxp

theorem mem_listByShop {shopRef : String} :
    d ∈ s.listByShop shopRef ↔ d ∈ s.domains ∧ d.shopRef = shopRef := by
  rw [Directory.listByShop, (sortBy_perm _ _).mem_iff, List.mem_filter, beq_iff_eq]

/-- After the demotions the one domain that is promoted is the primary of its shop. -/
theorem Kept.orderly_promote (hk : Kept zone s) (hverified : domain.status = .verified)
    (hf : Demotes s (s.listByShop domain.shopRef) f) (hmem : domain ∈ s.domains) :
    Orderly s (({ domain with isPrimary := true } : ShopDomain).updated ∘ f) := by
  have hcases : ∀ d ∈ s.domains,
      ((({ domain with isPrimary := true } : ShopDomain).updated ∘ f) d).isPrimary = true →
      d.id = domain.id ∧
        ((({ domain with isPrimary := true } : ShopDomain).updated ∘ f) d).status = .verified ∨
      d.shopRef ≠ domain.shopRef ∧
        (({ domain with isPrimary := true } : ShopDomain).updated ∘ f) d = d := by
    intro d hd hp
    rw [Function.comp_apply] at hp ⊢
    rcases updated_cases { domain with isPrimary := true } (f d) with
      ⟨hid, -, hstatus⟩ | heq
    · left
      rw [hf.follows.id] at hid
      exact ⟨hid, hstatus.trans hverified⟩
    · right
      rw [heq] at hp ⊢
      have hsame := hf.untouched d hp
      refine ⟨fun hshop => ?_, hsame⟩
      rw [hsame] at hp
      have hgone := hf.demoted d (mem_listByShop.mpr ⟨hd, hshop⟩) hp d hd rfl
      rw [hsame, hp] at hgone
      cases hgone
  constructor
  · intro d hd e he hshops hdp hep
    rcases hcases d hd hdp with ⟨hdid, -⟩ | ⟨hdshop, hdsame⟩
    · rcases hcases e he hep with ⟨heid, -⟩ | ⟨heshop, -⟩
      · exact hdid.trans heid.symm
      · rw [← hshops, hk.eq_of_id hd hmem hdid] at heshop
        exact absurd rfl heshop
    · rcases hcases e he hep with ⟨heid, -⟩ | ⟨-, hesame⟩
      · rw [hshops, hk.eq_of_id he hmem heid] at hdshop
        exact absurd rfl hdshop
      · rw [hdsame] at hdp
        rw [hesame] at hep
        exact hk.one_primary d hd e he hshops hdp hep
  · intro d hd hdp
    rcases hcases d hd hdp with ⟨-, hstatus⟩ | ⟨-, hsame⟩
    · exact hstatus
    · rw [hsame] at hdp ⊢
      exact hk.primary_verified d hd hdp

theorem setPrimaryDomain_changed (hk : Kept zone s) (domainId : String) :
    Changed s (Orderly s) (setPrimaryDomain domainId s) := by
  simp only [setPrimaryDomain, unitOfWork]
  cases hfind : s.findDomainById domainId with
  | none => exact .same
  | some domain =>
    have hmem : domain ∈ s.domains := List.mem_of_find?_eq_some hfind
    dsimp only
    by_cases hprimary : domain.isPrimary = true
    · simp only [hprimary]
      exact .same
    rw [if_neg hprimary]
    by_cases hverified : domain.status = .verified
    · rw [if_neg (not_not_intro hverified)]
      have hversions : ∀ o ∈ s.listByShop domain.shopRef, o.version ≠ 0 := by
        intro o ho
        have := hk.versions o (mem_listByShop.mp ho).1
        omega
      cases hdemote : demoteAll (s.listByShop domain.shopRef) s with
      | error t =>
        simp only [bind, Except.bind]
        exact .same
      | ok u =>
        obtain ⟨f, hf, rfl⟩ := demoteAll_ok hk.ids hversions hdemote
        have hversion : ({ domain with isPrimary := true } : ShopDomain).version ≠ 0 := by
          have := hk.versions domain hmem
          dsimp only
          omega
        have hmake : domain.makePrimary = .ok { domain with isPrimary := true } := by
          rw [ShopDomain.makePrimary, if_neg (not_not_intro hverified)]
        cases hsave : Directory.saveDomain { domain with isPrimary := true }
            { s with domains := s.domains.map f } with
        | error t =>
          simp only [hmake, hsave, bind, Except.bind]
          exact .same
        | ok v =>
          obtain ⟨-, rfl⟩ := saveDomain_old hversion hsave
          simp only [hmake, hsave, bind, Except.bind, List.map_map]
          exact .rows ((follows_updated _).comp hf.follows)
            (hk.orderly_promote hverified hf hmem)
    · rw [if_pos hverified]
      exact .same

theorem findByHostname_eq_some_iff (hk : Kept zone s) :
    s.findByHostname value = some d ↔ d ∈ s.domains ∧ d.hostname.value = value := by
  rw [Directory.findByHostname]
  constructor
  · intro h
    exact ⟨List.mem_of_find?_eq_some h, by simpa using List.find?_some h⟩
  · rintro ⟨hd, hvalue⟩
    cases hfind : s.domains.find? fun d => d.hostname.value == value with
    | none =>
      have hmiss := List.find?_eq_none.mp hfind d hd
      simp [hvalue] at hmiss
    | some e =>
      have he : e.hostname.value = value := by simpa using List.find?_some hfind
      rw [List.inj_on_of_nodup_map hk.hostnames (List.mem_of_find?_eq_some hfind) hd
        (he.trans hvalue.symm)]

theorem Kept.resolved (hk : Kept zone s) (raw shopId : String) :
    (∃ host, resolveHost raw s = .ok host ∧ host.shopId = shopId) ↔
      ∃ d ∈ s.domains, d.shopRef = shopId ∧ d.status = .verified ∧ Spells raw d.hostname := by
  unfold resolveHost
  constructor
  · rintro ⟨host, hhost, rfl⟩
    rcases hraw : Hostname.create raw with e | hostname
    · simp [hraw] at hhost
    · simp only [hraw] at hhost
      split at hhost
      · cases hhost
      · rename_i d hd
        obtain ⟨hmem, hvalue⟩ := (findByHostname_eq_some_iff hk).mp hd
        split_ifs at hhost with hstatus
        split at hhost
        · cases hhost
        · cases hhost
          refine ⟨d, hmem, rfl, not_not.mp hstatus, ?_⟩
          rw [← normalise_eq_iff, hvalue]
          exact Hostname.create_eq_ok_iff.mp hraw
  · rintro ⟨d, hmem, rfl, hstatus, hspells⟩
    have hraw := Hostname.create_eq_ok_iff.mpr ((normalise_eq_iff raw d.hostname).mpr hspells)
    have hfound := (findByHostname_eq_some_iff hk).mpr ⟨hmem, rfl⟩
    obtain ⟨t, ht⟩ := hk.shops d hmem
    simp only [hraw, hfound, hstatus, ht]
    exact ⟨_, rfl, rfl⟩

theorem Kept.sound (hk : Kept zone s) : Sound zone s where
  distinct := hk.hostnames
  zone_owned := hk.zone_owned
  one_primary d hd e he hshops hdp hep :=
    hk.eq_of_id hd he (hk.one_primary d hd e he hshops hdp hep)
  primary_verified := hk.primary_verified
  resolved := hk.resolved

theorem findTenantById_new (tenant : Tenant) (hids : ∀ t ∈ s.tenants, t.id ≠ tenant.id) :
    Directory.findTenantById tenant.id { s with tenants := s.tenants ++ [tenant] } =
      some tenant := by
  have hmiss : s.tenants.find? (fun t => t.id == tenant.id) = none :=
    List.find?_eq_none.mpr fun t ht => by simpa using hids t ht
  rw [Directory.findTenantById, List.find?_append, hmiss]
  simp

theorem Rows.enter (hk : Rows zone s) (tenant : Tenant) :
    Rows zone { s with tenants := s.tenants ++ [tenant] } where
  hostnames := hk.hostnames
  ids := hk.ids
  shops d hd := by
    obtain ⟨t, ht⟩ := hk.shops d hd
    exact ⟨t, findTenantById_append tenant ht⟩
  versions := hk.versions
  zone_owned d hd hunder := by
    obtain ⟨t, ht, howned⟩ := hk.zone_owned d hd hunder
    exact ⟨t, findTenantById_append tenant ht, howned⟩
  one_primary := hk.one_primary
  primary_verified := hk.primary_verified

theorem givenTo_unique {slug : TenantSlug} {g h : Hostname} (hg : GivenTo zone slug g)
    (hh : GivenTo zone slug h) : g = h := by
  obtain ⟨z, hz, hg⟩ := hg
  obtain ⟨z', hz', hh⟩ := hh
  rw [hz, Option.some.injEq] at hz'
  subst hz'
  rw [hg, Except.ok.injEq] at hh
  exact hh

theorem kept_created {input : CreateTenantInput} {tenantId domainId : String} {now : ℤ}
    (hk : Kept zone s) (hc : Created zone input tenantId domainId now s r)
    (ha : Allowed zone s (.createTenant input tenantId domainId now)) : Kept zone r.1 := by
  cases hc with
  | refused => exact hk
  | alone hslug hzone hids =>
    refine ⟨hk.toRows.enter _, fun t ht hostname hgiven => ?_⟩
    obtain ⟨z, hz, -⟩ := hgiven
    rw [hzone] at hz
    cases hz
  | @served slug z hostname hslug hzone hids hhost hrows =>
    have hvalue := TenantSlug.create_value hslug
    have hgiven : GivenTo zone slug hostname := ⟨z, hzone, by rw [hvalue]; exact hhost⟩
    have hnew := findTenantById_new (s := s) { Tenant.create tenantId slug input.name
      input.isolationTier with version := 1 } hids
    refine ⟨(hk.toRows.enter _).add hrows ⟨_, hnew⟩ (fun _ => ⟨_, hnew, hgiven⟩) ?_ fun _ => rfl,
      ?_⟩
    · -- a shop that is new has no rows
      intro _ d hd hshop
      obtain ⟨t, ht⟩ := hk.shops d hd
      rw [hshop] at ht
      rw [Directory.findTenantById] at ht
      have hid := List.find?_some ht
      rw [beq_iff_eq] at hid
      exact hids t (List.mem_of_find?_eq_some ht) hid
    · intro t ht h hh
      rcases List.mem_append.mp ht with ht | ht
      · obtain ⟨d, hd, hname⟩ := hk.provided t ht h hh
        exact ⟨d, List.mem_append_left _ hd, hname⟩
      · rw [List.mem_singleton.mp ht] at hh
        rw [givenTo_unique hh hgiven]
        exact ⟨_, List.mem_append_right _ (List.mem_singleton.mpr rfl), rfl⟩
  | stranded hslug hnone hzone hids hnot =>
    obtain ⟨hostname, hhost, hfree⟩ := ha _ _ hslug hnone hids hzone
    exact absurd hfree (hnot hostname hhost)

theorem kept_added {shopId id : String} (hk : Kept zone s) (hc : Added zone shopId raw id s r)
    (ha : Allowed zone s (.addCustomDomain shopId raw id)) : Kept zone r.1 := by
  cases hc with
  | refused => exact hk
  | @stored hostname t hhost hunder hshop hrows =>
    refine ⟨hk.toRows.add hrows ⟨t, hshop⟩ (fun hzone => ?_)
      (fun h => absurd h Bool.false_ne_true) (fun h => absurd h Bool.false_ne_true), ?_⟩
    · exfalso
      rcases ha hostname hhost hzone with h | h | h | ⟨d, hd, hid⟩
      · rw [h] at hunder
        cases hunder
      · rw [h] at hshop
        cases hshop
      · obtain ⟨d, hd⟩ := Option.isSome_iff_exists.mp h
        obtain ⟨hd, hname⟩ := (findByHostname_eq_some_iff hk).mp hd
        exact (hrows d hd).2 hname
      · exact (hrows d hd).1 hid
    · intro t ht h hh
      obtain ⟨d, hd, hname⟩ := hk.provided t ht h hh
      exact ⟨d, List.mem_append_left _ hd, hname⟩

theorem kept_changed (hk : Kept zone s) (hc : Changed s (Orderly s) r) : Kept zone r.1 := by
  cases hc with
  | same => exact hk
  | rows hf horderly => exact hk.map hf horderly.one_primary horderly.verified

theorem resolveHost_run (zone : Option String) (hostname : String) (s : Directory) :
    ((Call.resolveHost hostname).run zone s).1 = s := by
  dsimp only [Call.run]
  cases Tenancy.resolveHost hostname s <;> rfl

theorem kept_step (zone : Option String) (s : Directory) (c : Call) (u : Directory)
    (hk : Kept zone s) (hst : Call.next zone s c = u) (ha : Allowed zone s c) : Kept zone u := by
  subst hst
  cases c with
  | createTenant input tenantId domainId now =>
    exact kept_created hk (createTenant_created zone input tenantId domainId now s) ha
  | addCustomDomain shopId raw id =>
    exact kept_added hk (addCustomDomain_added zone shopId raw id s) ha
  | verifyDomain points domainId now =>
    exact kept_changed hk (verifyDomain_changed hk points domainId now)
  | setPrimaryDomain domainId => exact kept_changed hk (setPrimaryDomain_changed hk domainId)
  | resolveHost hostname =>
    have hsame := resolveHost_run zone hostname s
    rw [Call.next, hsame]
    exact hk

theorem RefusalKeeps.same (s : Directory) (answer : Answer) : RefusalKeeps s (s, answer) :=
  ⟨fun _ _ => rfl, fun _ _ => rfl⟩

theorem RefusalKeeps.ok (s u : Directory) (output : Output) : RefusalKeeps s (u, .ok output) :=
  ⟨fun _ h => (by cases h), fun _ h => (by cases h)⟩

theorem refusal_created {input : CreateTenantInput} {tenantId domainId : String} {now : ℤ}
    (hc : Created zone input tenantId domainId now s r)
    (ha : Allowed zone s (.createTenant input tenantId domainId now)) : RefusalKeeps s r := by
  cases hc with
  | refused => exact .same _ _
  | alone | served => exact .ok _ _ _
  | stranded hslug hnone hzone hids hnot =>
    obtain ⟨hostname, hhost, hfree⟩ := ha _ _ hslug hnone hids hzone
    exact absurd hfree (hnot hostname hhost)

theorem refusal_added {shopId id : String} (hc : Added zone shopId raw id s r) :
    RefusalKeeps s r := by
  cases hc with
  | refused => exact .same _ _
  | stored => exact .ok _ _ _

theorem refusal_changed {P : (ShopDomain → ShopDomain) → Prop} (hc : Changed s P r) :
    RefusalKeeps s r := by
  cases hc with
  | same => exact .same _ _
  | rows => exact .ok _ _ _

theorem refusal_step (zone : Option String) (s : Directory) (c : Call) (hk : Kept zone s)
    (ha : Allowed zone s c) : RefusalKeeps s (c.run zone s) := by
  cases c with
  | createTenant input tenantId domainId now =>
    exact refusal_created (createTenant_created zone input tenantId domainId now s) ha
  | addCustomDomain shopId raw id => exact refusal_added (addCustomDomain_added zone shopId raw id s)
  | verifyDomain points domainId now =>
    exact refusal_changed (verifyDomain_changed hk points domainId now)
  | setPrimaryDomain domainId => exact refusal_changed (setPrimaryDomain_changed hk domainId)
  | resolveHost hostname =>
    have hsame := resolveHost_run zone hostname s
    exact ⟨fun _ _ => hsame, fun _ _ => hsame⟩

/-- A call that is not allowed stores what it refuses, or a hostname that is not the shop's. -/
theorem broken_step (zone : Option String) (s : Directory) (c : Call) (u : Directory)
    (hk : Kept zone s) (hst : Call.next zone s c = u) (ha : ¬ Allowed zone s c)
    (hkeeps : RefusalKeeps s (c.run zone s)) : ¬ Sound zone u := by
  subst hst
  cases c with
  | createTenant input tenantId domainId now =>
    exfalso
    have hc := createTenant_created zone input tenantId domainId now s
    dsimp only [Call.run] at hkeeps
    generalize createTenant zone input tenantId domainId now s = r at hc hkeeps
    cases hc with
    | refused hallowed => exact ha hallowed
    | alone _ hzone =>
      refine ha fun _ z _ _ _ hz => ?_
      rw [hzone] at hz
      cases hz
    | @served _ z hostname _ hzone _ hhost hrows =>
      refine ha fun _ z' _ _ _ hz => ⟨hostname, ?_, ?_⟩
      · rw [hzone, Option.some.injEq] at hz
        subst hz
        exact hhost
      · exact List.find?_eq_none.mpr fun d hd => by simpa using (hrows d hd).2
    | stranded =>
      have hlength := congrArg (fun d : Directory => d.tenants.length) (hkeeps.1 _ rfl)
      simp at hlength
  | addCustomDomain shopId raw id =>
    have hc := addCustomDomain_added zone shopId raw id s
    rw [Call.next]
    dsimp only [Call.run] at hkeeps ⊢
    generalize addCustomDomain zone shopId raw id s = r at hc hkeeps
    cases hc with
    | refused hallowed => exact absurd hallowed ha
    | @stored hostname t hhost hunder hshop hrows =>
      intro hsound
      simp only [Allowed, not_forall, not_or] at ha
      obtain ⟨h, hh, hzone, -⟩ := ha
      rw [hhost, Except.ok.injEq] at hh
      subst hh
      -- the shop was given this hostname when it was created, so the hostname was taken
      obtain ⟨t', ht', hgiven⟩ := hsound.zone_owned
        { ShopDomain.custom id shopId hostname with version := 1 } (by simp) hzone
      obtain ⟨d, hd, hname⟩ := hk.provided t' (List.mem_of_find?_eq_some ht') hostname hgiven
      exact (hrows d hd).2 hname
  | verifyDomain points domainId now | setPrimaryDomain domainId | resolveHost hostname =>
    exact absurd trivial ha

/-- From empty tables on, hosts are routed soundly and refusals store nothing exactly as long as
every tenant that is stored can have its platform hostname and no custom domain is under the
zone. -/
theorem routing_sound_iff (platformStoreDomain : Option String) (calls : List Call) :
    let start : Directory := ⟨[], []⟩
    let run := follow (Call.next platformStoreDomain) start calls
    (Always (Sound platformStoreDomain) start run ∧
      EveryStep (fun s c => RefusalKeeps s (c.run platformStoreDomain s)) start run) ↔
      EveryStep (Allowed platformStoreDomain) start run :=
  always_and_everyStep_iff (kept_step platformStoreDomain) (fun _ hk => hk.sound)
    (refusal_step platformStoreDomain) (broken_step platformStoreDomain)
    (kept_empty platformStoreDomain) (run_follow (fun _ _ => rfl) _ calls)

def longSlug : CreateTenantInput where
  slug := String.ofList (List.replicate 64 'a')
  name := "Shop"
  isolationTier := .pooled

def strandedTenant : List Call := [.createTenant longSlug "tenant-1" "domain-1" 0]

theorem refusal_stored :
    ¬ (Always (Sound (some "morbeh.store")) ⟨[], []⟩
        (follow (Call.next (some "morbeh.store")) ⟨[], []⟩ strandedTenant) ∧
      EveryStep (fun s c => RefusalKeeps s (c.run (some "morbeh.store") s)) ⟨[], []⟩
        (follow (Call.next (some "morbeh.store")) ⟨[], []⟩ strandedTenant)) := by
  rintro ⟨-, hkeeps, -⟩
  have hstored := congrArg (fun d : Directory => d.tenants.length)
    (hkeeps.1 (.validation "Invalid hostname" [⟨"hostname",
      "each label must be 1..63 characters of a-z, 0-9 or '-', not starting or ending with '-'"⟩])
      (by decide +kernel))
  revert hstored
  decide +kernel

end Tenancy
