import Lumo.Builtins

/-! # Tenants and the hostnames their shops are served on

The value objects, the two aggregates, the tables they are stored in, and the use cases that
create tenants, manage domains and resolve a host. A unit of work commits what its callback wrote
unless the callback throws. Events, branding and subscriptions are not modelled. -/
namespace Tenancy

open SharedKernel Builtins

def isLowerAlphanumeric (c : Char) : Bool := ('a' ≤ c && c ≤ 'z') || ('0' ≤ c && c ≤ '9')

/-- The pattern `^[a-z0-9](?:[a-z0-9-]{0,61}[a-z0-9])?$`. -/
def isLabel (label : List Char) : Bool :=
  label.length ≤ 63 && label.all (fun c => isLowerAlphanumeric c || c == '-') &&
    label.head?.any isLowerAlphanumeric && label.getLast?.any isLowerAlphanumeric

/-- Lower case, as far as ASCII goes: the Kelvin sign is the one other character whose lower case
is an ASCII letter, and the dotted capital I becomes two characters. What else is not ASCII stays
so, and no label has it. -/
def lowerCaseChar (c : Char) : List Char :=
  if 'A' ≤ c ∧ c ≤ 'Z' then [Char.ofNat (c.toNat + 32)]
  else match c.toNat with
    | 0x212A => ['k']
    | 0x130 => ['i', '\u0307']
    | _ => [c]

def toLowerCase (value : String) : String := String.ofList (value.toList.flatMap lowerCaseChar)

/-- `value.replace(/\.$/, "")`. -/
def withoutTrailingDot (value : String) : String :=
  match value.toList.reverse with
  | '.' :: rest => String.ofList rest.reverse
  | _ => value

def normalise (raw : String) : String := withoutTrailingDot (toLowerCase (trim raw))

def hostnameIssue (value : String) : Option String :=
  let labels := value.toList.splitOn '.'
  if stringLength value = 0 ∨ 253 < stringLength value then some "must be 1..253 characters"
  else if value.toList.any fun c => c == ':' || c == '/' then
    some "must not contain a scheme, port or path"
  else if labels.length < 2 then some "must have at least two labels"
  else if ¬ labels.all isLabel then
    some ("each label must be 1..63 characters of a-z, 0-9 or '-', " ++
      "not starting or ending with '-'")
  else none

structure Hostname where
  value : String
  wellFormed : hostnameIssue value = none

def Hostname.create (raw : String) : Except DomainError Hostname :=
  match h : hostnameIssue (normalise raw) with
  | none => .ok ⟨normalise raw, h⟩
  | some message => .error (.validation "Invalid hostname" [⟨"hostname", message⟩])

/-- The pattern `^[a-z0-9]+(-[a-z0-9]+)*$`. -/
def isSlug (value : String) : Bool :=
  (value.toList.splitOn '-').all fun part => !part.isEmpty && part.all isLowerAlphanumeric

structure TenantSlug where
  value : String
  wellFormed : isSlug value = true

def TenantSlug.create (value : String) : Except DomainError TenantSlug := do
  let _ ← Guard.againstEmpty value "slug"
  if h : isSlug value = true then .ok ⟨value, h⟩
  else .error (.validation "Invalid tenant slug"
    [⟨"slug", "must be lowercase alphanumeric, hyphen-separated"⟩])

inductive TenantStatus where
  | active
  | suspended
  | cancelled
  deriving DecidableEq

inductive TenantIsolationTier where
  | pooled
  | dedicatedSchema
  | dedicatedDb

structure Tenant where
  id : String
  slug : TenantSlug
  name : String
  status : TenantStatus
  isolationTier : TenantIsolationTier
  version : ℕ

def Tenant.create (id : String) (slug : TenantSlug) (name : String)
    (isolationTier : TenantIsolationTier) : Tenant where
  id := id
  slug := slug
  name := name
  status := .active
  isolationTier := isolationTier
  version := 0

inductive ShopDomainKind where
  | platform
  | custom
  deriving DecidableEq

inductive ShopDomainStatus where
  | pending
  | verified
  deriving DecidableEq

structure ShopDomain where
  id : String
  shopRef : String
  hostname : Hostname
  kind : ShopDomainKind
  status : ShopDomainStatus
  isPrimary : Bool
  verifiedAt : Option ℤ
  version : ℕ

namespace ShopDomain

def platform (id shopRef : String) (hostname : Hostname) (at' : ℤ) : ShopDomain where
  id := id
  shopRef := shopRef
  hostname := hostname
  kind := .platform
  status := .verified
  isPrimary := true
  verifiedAt := some at'
  version := 0

def custom (id shopRef : String) (hostname : Hostname) : ShopDomain where
  id := id
  shopRef := shopRef
  hostname := hostname
  kind := .custom
  status := .pending
  isPrimary := false
  verifiedAt := none
  version := 0

def verify (at' : ℤ) (d : ShopDomain) : ShopDomain :=
  if d.status = .verified then d else { d with status := .verified, verifiedAt := some at' }

def makePrimary (d : ShopDomain) : Except DomainError ShopDomain :=
  if d.status ≠ .verified then .error (.businessRule "Only a verified domain can be made primary")
  else .ok { d with isPrimary := true }

def demote (d : ShopDomain) : ShopDomain := { d with isPrimary := false }

end ShopDomain

structure Directory where
  tenants : List Tenant
  domains : List ShopDomain

inductive Thrown where
  | unique (table : String)
  | domain (e : DomainError)
  deriving DecidableEq

namespace Directory

def findTenantById (id : String) (s : Directory) : Option Tenant :=
  s.tenants.find? fun t => t.id == id

def findBySlug (slug : String) (s : Directory) : Option Tenant :=
  s.tenants.find? fun t => t.slug.value == slug

def findDomainById (id : String) (s : Directory) : Option ShopDomain :=
  s.domains.find? fun d => d.id == id

def findByHostname (hostname : String) (s : Directory) : Option ShopDomain :=
  s.domains.find? fun d => d.hostname.value == hostname

/-- The order of two hostnames, for `orderBy: { hostname: "asc" }`. -/
def compareHostnames (a b : ShopDomain) : ℚ :=
  if lessThan a.hostname.value b.hostname.value then -1
  else if lessThan b.hostname.value a.hostname.value then 1 else 0

def listByShop (shopRef : String) (s : Directory) : List ShopDomain :=
  sortBy compareHostnames (s.domains.filter fun d => d.shopRef == shopRef)

/-- `PrismaTenantRepository.save` of a new tenant, whose id and slug are unique. -/
def saveTenant (tenant : Tenant) (s : Directory) : Except Thrown Directory :=
  if s.tenants.any fun t => t.id == tenant.id || t.slug.value == tenant.slug.value then
    .error (.unique "tenants")
  else .ok { s with tenants := s.tenants ++ [{ tenant with version := 1 }] }

/-- `PrismaShopDomainRepository.save`: a new domain is created, an old one updated under the
version it was read at. The index on primaries is left out, nothing relies on it. -/
def saveDomain (domain : ShopDomain) (s : Directory) : Except Thrown Directory :=
  if domain.version = 0 then
    if s.domains.any fun d => d.id == domain.id || d.hostname.value == domain.hostname.value then
      .error (.unique "shop_domains")
    else .ok { s with domains := s.domains ++ [{ domain with version := 1 }] }
  else if s.domains.any fun d => d.id == domain.id && d.version == domain.version then
    .ok { s with domains := s.domains.map fun d =>
      if d.id = domain.id ∧ d.version = domain.version then
        { d with
          status := domain.status, isPrimary := domain.isPrimary
          verifiedAt := domain.verifiedAt, version := d.version + 1 }
      else d }
  else .error (.domain (.concurrency ("ShopDomain " ++ domain.id ++ " was modified concurrently")))

end Directory

structure ShopDomainView where
  id : String
  shopId : String
  hostname : String
  kind : ShopDomainKind
  status : ShopDomainStatus
  isPrimary : Bool
  verifiedAt : Option ℤ
  deriving DecidableEq

def toShopDomainView (d : ShopDomain) : ShopDomainView where
  id := d.id
  shopId := d.shopRef
  hostname := d.hostname.value
  kind := d.kind
  status := d.status
  isPrimary := d.isPrimary
  verifiedAt := d.verifiedAt

structure ResolvedHost where
  shopId : String
  hostname : String
  primaryHostname : String
  shopStatus : TenantStatus
  deriving DecidableEq

inductive Output where
  | id (value : String)
  | view (value : ShopDomainView)
  | host (value : ResolvedHost)
  deriving DecidableEq

inductive Answer where
  | ok (output : Output)
  | err (e : DomainError)
  | threw (t : Thrown)
  deriving DecidableEq

/-- `PrismaUnitOfWork.run`: what the callback wrote is kept whether it returned a value or an
error, and dropped when it threw. -/
def unitOfWork (work : Directory → Except Thrown (Directory × Except DomainError Output))
    (s : Directory) : Directory × Answer :=
  match work s with
  | .error t => (s, .threw t)
  | .ok (s', .ok output) => (s', .ok output)
  | .ok (s', .error e) => (s', .err e)

def activeZone (platformStoreDomain : Option String) : Option String :=
  platformStoreDomain.filter fun zone => zone != ""

def isUnderPlatformZone (hostname : String) (platformStoreDomain : Option String) : Bool :=
  match activeZone platformStoreDomain with
  | none => false
  | some zone => hostname == toLowerCase zone ||
      ('.' :: (toLowerCase zone).toList).isSuffixOf hostname.toList

structure CreateTenantInput where
  slug : String
  name : String
  isolationTier : TenantIsolationTier

def platformHost (slug zone : String) : String := slug ++ "." ++ zone

/-- The ids are the ones the generator draws for the tenant and for its domain. -/
def createTenant (platformStoreDomain : Option String) (input : CreateTenantInput)
    (tenantId domainId : String) (now : ℤ) (s : Directory) : Directory × Answer :=
  match TenantSlug.create input.slug with
  | .error e => (s, .err e)
  | .ok slug =>
    unitOfWork (fun s => do
      if (s.findBySlug input.slug).isSome then
        return (s, .error (.conflict ("Tenant slug \"" ++ input.slug ++ "\" already exists")))
      let s ← s.saveTenant (Tenant.create tenantId slug input.name input.isolationTier)
      match activeZone platformStoreDomain with
      | none => return (s, .ok (.id tenantId))
      | some zone =>
        match Hostname.create (platformHost input.slug zone) with
        | .error e => return (s, .error e)
        | .ok hostname =>
          if (s.findByHostname hostname.value).isSome then
            return (s, .error (.conflict
              ("Hostname \"" ++ hostname.value ++ "\" is already in use")))
          let s ← s.saveDomain (ShopDomain.platform domainId tenantId hostname now)
          return (s, .ok (.id tenantId))) s

def addCustomDomain (platformStoreDomain : Option String) (shopId hostname id : String)
    (s : Directory) : Directory × Answer :=
  match Hostname.create hostname with
  | .error e => (s, .err e)
  | .ok hostname =>
    if isUnderPlatformZone hostname.value platformStoreDomain then
      (s, .err (.validation "Invalid hostname"
        [⟨"hostname", "names under the platform's own domain are reserved"⟩]))
    else
      unitOfWork (fun s => do
        if (s.findTenantById shopId).isNone then return (s, .error (.notFound "Shop not found"))
        if (s.findByHostname hostname.value).isSome then
          return (s, .error (.conflict ("Hostname \"" ++ hostname.value ++ "\" is already in use")))
        let s ← s.saveDomain (ShopDomain.custom id shopId hostname)
        return (s, .ok (.id id))) s

/-- The verifier says whether a hostname points at the platform; there may be none. -/
def verifyDomain (pointsToPlatform : Option (String → Bool)) (domainId : String) (now : ℤ)
    (s : Directory) : Directory × Answer :=
  match pointsToPlatform with
  | none => (s, .err (.businessRule "Domain verification is not configured on this platform"))
  | some points =>
    unitOfWork (fun s =>
      match s.findDomainById domainId with
      | none => return (s, .error (.notFound "Domain not found"))
      | some domain => do
        if domain.status = .verified then return (s, .ok (.view (toShopDomainView domain)))
        if ¬ points domain.hostname.value then
          return (s, .error (.businessRule ("\"" ++ domain.hostname.value ++
            "\" does not point at the platform yet; check its DNS record")))
        let domain := domain.verify now
        let s ← s.saveDomain domain
        return (s, .ok (.view (toShopDomainView domain)))) s

def demoteAll (others : List ShopDomain) (s : Directory) : Except Thrown Directory :=
  others.foldlM (fun s other => if other.isPrimary then s.saveDomain other.demote else .ok s) s

def setPrimaryDomain (domainId : String) (s : Directory) : Directory × Answer :=
  unitOfWork (fun s =>
    match s.findDomainById domainId with
    | none => return (s, .error (.notFound "Domain not found"))
    | some domain => do
      if domain.isPrimary then return (s, .ok (.view (toShopDomainView domain)))
      if domain.status ≠ .verified then
        return (s, .error (.businessRule "Only a verified domain can be made primary"))
      let s ← demoteAll (s.listByShop domain.shopRef) s
      match domain.makePrimary with
      | .error e => return (s, .error e)
      | .ok domain =>
        let s ← s.saveDomain domain
        return (s, .ok (.view (toShopDomainView domain)))) s

def resolveHost (hostname : String) (s : Directory) : Except DomainError ResolvedHost :=
  let notFound := .error (.notFound "No shop is served on this hostname")
  match Hostname.create hostname with
  | .error _ => notFound
  | .ok hostname =>
    match s.findByHostname hostname.value with
    | none => notFound
    | some domain =>
      if domain.status ≠ .verified then notFound
      else match s.findTenantById domain.shopRef with
        | none => notFound
        | some shop =>
          let primary := ((s.listByShop domain.shopRef).find? ShopDomain.isPrimary).getD domain
          .ok ⟨domain.shopRef, domain.hostname.value, primary.hostname.value, shop.status⟩

inductive Call where
  | createTenant (input : CreateTenantInput) (tenantId domainId : String) (now : ℤ)
  | addCustomDomain (shopId hostname id : String)
  | verifyDomain (pointsToPlatform : Option (String → Bool)) (domainId : String) (now : ℤ)
  | setPrimaryDomain (domainId : String)
  | resolveHost (hostname : String)

/-- A call, on a platform with the given zone. -/
def Call.run (platformStoreDomain : Option String) : Call → Directory → Directory × Answer
  | createTenant input tenantId domainId now, s =>
    Tenancy.createTenant platformStoreDomain input tenantId domainId now s
  | addCustomDomain shopId hostname id, s =>
    Tenancy.addCustomDomain platformStoreDomain shopId hostname id s
  | verifyDomain pointsToPlatform domainId now, s =>
    Tenancy.verifyDomain pointsToPlatform domainId now s
  | setPrimaryDomain domainId, s => Tenancy.setPrimaryDomain domainId s
  | resolveHost hostname, s =>
    match Tenancy.resolveHost hostname s with
    | .ok host => (s, .ok (.host host))
    | .error e => (s, .err e)

def Call.next (platformStoreDomain : Option String) (s : Directory) (c : Call) : Directory :=
  (c.run platformStoreDomain s).1

end Tenancy
