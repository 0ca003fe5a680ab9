import Lumo.Builtins
import Lumo.Interleavings

/-! # `executeRoute` of the HTTP server

The two stores of the idempotency step are shared by all requests. What the other ports answer, and
what the handler does, is up to them. -/
namespace Http

open SharedKernel Builtins Interleavings

inductive HeaderValue where
  | one (value : String)
  | many (values : List String)

structure Request where
  headers : String → Option HeaderValue
  hostname : String
  ip : String

def Request.header (request : Request) (name : String) : Option String :=
  match request.headers name with
  | some (.one value) => if value ≠ "" then some value else none
  | some (.many (value :: _)) => some value
  | some (.many []) => none
  | none => none

inductive Method where
  | get
  | post
  | put
  | patch
  | delete
  deriving DecidableEq

structure RouteDefinition where
  method : Method
  path : String
  permission : String
  idempotent : Bool
  isPublic : Bool
  allowWhenSuspended : Bool

structure ErrorBody where
  code : String
  message : String
  retryable : Bool
  fields : List FieldIssue
  retryAfterMs : Option ℕ
  deriving DecidableEq

inductive Body (β : Type) where
  | refusal (error : ErrorBody)
  | payload (value : β)
  deriving DecidableEq

structure TransportResponse (β : Type) where
  status : ℕ
  body : Body β
  headers : List (String × String)
  deriving DecidableEq

inductive Thrown where
  | authentication (message : String)
  | authorization (message : String)
  | validation (message : String) (fields : List FieldIssue)
  | failure (message : String)
  deriving DecidableEq

inductive PrincipalKind where
  | customer
  | staff
  | service

structure AuthenticatedIdentity where
  id : String
  kind : PrincipalKind
  roles : List String

structure Principal extends AuthenticatedIdentity where
  tenantId : String

abbrev Claims := String → Option String

structure AuthenticatedContext where
  principal : AuthenticatedIdentity
  claims : Claims

structure TenantResolutionInput where
  headers : String → Option HeaderValue
  hostname : String
  principal : AuthenticatedIdentity
  claims : Claims

abbrev TenantResolver := TenantResolutionInput → Option String

def claimTenantResolver : TenantResolver := fun input =>
  match input.claims "tenant_id" with
  | some claim => if trim claim ≠ "" then some (trim claim) else none
  | none => none

def resolveTenant (resolvers : List TenantResolver) (input : TenantResolutionInput) :
    Option String :=
  resolvers.findSome? fun resolver => resolver input

inductive TenantAvailability where
  | active
  | suspended
  | cancelled
  | unknown

structure RateLimitDecision where
  allowed : Bool
  retryAfterMs : ℕ

structure GuardRequestContext where
  sessionId : Option String
  ip : String
  userAgent : Option String
  deviceRef : Option String
  tenantId : String

structure ParseIssue where
  path : List String
  message : String

/-- What the ports answer while one request is admitted. `safeParse` is asked for the schema of the
body, of the parameters and of the query string. -/
structure Ports (β : Type) where
  verify : String → Except Thrown (Option AuthenticatedContext)
  availability : String → Except Thrown TenantAvailability
  ensure : Principal → String → GuardRequestContext →
    Except Thrown (Option (TransportResponse β))
  consume : String → ℕ → ℕ → Except Thrown RateLimitDecision
  degradedConsume : String → ℕ → ℕ → RateLimitDecision
  safeParse : String → Except (List ParseIssue) Unit

/-- What the server is composed with: `tenantGate` says whether there is one. -/
structure HttpServerDeps where
  text : TextOps
  tenantResolvers : List TenantResolver
  tenantGate : Bool
  limit : ℕ
  windowMs : ℕ

structure ReplaySnapshot (β : Type) where
  status : ℕ
  body : Body β
  deriving DecidableEq

/-- How `executeRoute` ended: by a refusal of the pipeline, by an error thrown before the handler
was called, by the answers of the idempotency step, or by what the handler came to. -/
inductive Answer (β : Type) where
  | refused (response : TransportResponse β)
  | threw (error : Thrown)
  | inFlight
  | replayed (snapshot : ReplaySnapshot β)
  | handled (response : TransportResponse β)
  | failed (error : Thrown)
  deriving DecidableEq

section Pipeline

variable {β : Type}

def inFlightResponse : TransportResponse β where
  status := 409
  body := .refusal ⟨"CONFLICT", "A request with this Idempotency-Key is already in flight", true,
    [], none⟩
  headers := []

/-- What `executeRoute` returns or throws. -/
def Answer.result : Answer β → Except Thrown (TransportResponse β)
  | refused response => .ok response
  | threw error => .error error
  | inFlight => .ok inFlightResponse
  | replayed snapshot => .ok ⟨snapshot.status, snapshot.body, []⟩
  | handled response => .ok response
  | failed error => .error error

/-- The status and the body of a request that is answered neither by an error nor as in flight. -/
def Answer.outcome : Answer β → Option (ReplaySnapshot β)
  | replayed snapshot => some snapshot
  | handled response => some ⟨response.status, response.body⟩
  | _ => none

structure Admission where
  route : RouteDefinition
  principal : Principal
  idempotencyKey : Option String

/-- The key of the claim and of the snapshot, when the route is idempotent and the request has a
key. -/
def Admission.cacheKey (admission : Admission) : Option String :=
  if admission.route.idempotent then
    admission.idempotencyKey.map fun key =>
      "tenant:" ++ admission.principal.tenantId ++ ":idem:" ++ key
  else none

def retryAfterSeconds (retryAfterMs : ℕ) : ℕ := max 1 ((retryAfterMs + 999) / 1000)

def publicIdentity : AuthenticatedIdentity := ⟨"public", .customer, []⟩

def bearerToken (text : TextOps) (request : Request) : Option String :=
  match request.header "authorization" with
  | none => none
  | some value =>
    if (text.toLowerCase value).startsWith "bearer " then
      let token := trim (String.ofList (value.toList.drop 7))
      if token ≠ "" then some token else none
    else none

def sessionClaim (claims : Claims) : Option String :=
  ["sid", "session_id"].findSome? fun key => (claims key).filter (· ≠ "")

def unavailable : TransportResponse β where
  status := 503
  body := .refusal ⟨"UNAVAILABLE", "Service temporarily unavailable", true, [], some 5000⟩
  headers := [("retry-after", toString (retryAfterSeconds 5000))]

def suspendedTenantMayCall (route : RouteDefinition) : Bool :=
  route.allowWhenSuspended || (route.method == .get && !route.isPublic)

def tenantRefusal (code message : String) : TransportResponse β where
  status := 403
  body := .refusal ⟨code, message, false, [], none⟩
  headers := []

def lifecycleRefusal (deps : HttpServerDeps) (ports : Ports β) (tenantId : String)
    (route : RouteDefinition) : Option (TransportResponse β) :=
  if deps.tenantGate then
    match ports.availability tenantId with
    | .error _ => some unavailable
    | .ok .active => none
    | .ok .suspended =>
      if suspendedTenantMayCall route then none
      else some (tenantRefusal "TENANT_SUSPENDED" "This store is suspended")
    | .ok .cancelled => some (tenantRefusal "TENANT_CANCELLED" "This store's tenancy has ended")
    | .ok .unknown => some (tenantRefusal "TENANT_UNKNOWN" "No such store")
  else none

def authenticate (deps : HttpServerDeps) (ports : Ports β) (route : RouteDefinition)
    (request : Request) : Except Thrown AuthenticatedContext :=
  if route.isPublic then .ok ⟨publicIdentity, fun _ => none⟩
  else
    match bearerToken deps.text request with
    | none => .error (.authentication "Authentication required")
    | some token => do
      match ← ports.verify token with
      | none => .error (.authentication "Authentication required")
      | some context => .ok context

def guardContext (request : Request) (claims : Claims) (tenantId : String) :
    GuardRequestContext where
  sessionId := sessionClaim claims
  ip := request.ip
  userAgent := match request.headers "user-agent" with
    | some (.one value) => some value
    | _ => none
  deviceRef := match request.headers "x-device-id" with
    | some (.one value) => some value
    | some (.many values) => values.head?
    | none => none
  tenantId := tenantId

/-- The guard's denial, if any. A public route has no guard. -/
def authorize (ports : Ports β) (route : RouteDefinition) (request : Request)
    (principal : Principal) (claims : Claims) :
    Except Thrown (Option (TransportResponse β)) :=
  if route.isPublic then .ok none
  else
    ports.ensure principal route.permission (guardContext request claims principal.tenantId)

def rateLimitKey (route : RouteDefinition) (request : Request) (principal : Principal) : String :=
  if route.isPublic then "rl:" ++ principal.tenantId ++ ":public:" ++ request.ip
  else "rl:" ++ principal.tenantId ++ ":" ++ principal.id

/-- The limiter's decision. When it cannot be reached, a public route has the one of the process at
half the limit, and any other route none. -/
def limitDecision (deps : HttpServerDeps) (ports : Ports β) (route : RouteDefinition)
    (request : Request) (principal : Principal) : Option RateLimitDecision :=
  let key := rateLimitKey route request principal
  match ports.consume key deps.limit deps.windowMs with
  | .ok decision => some decision
  | .error _ =>
    if route.isPublic then
      some (ports.degradedConsume key (max 1 (deps.limit / 2)) deps.windowMs)
    else none

def rateLimited (retryAfterMs : ℕ) : TransportResponse β where
  status := 429
  body := .refusal ⟨"RATE_LIMITED", "Rate limit exceeded", true, [], some retryAfterMs⟩
  headers := [("retry-after", toString (retryAfterSeconds retryAfterMs))]

def parseWith (ports : Ports β) (place : String) : Except Thrown Unit :=
  match ports.safeParse place with
  | .ok _ => .ok ()
  | .error issues =>
    .error (.validation ("Invalid request " ++ place) (issues.map fun issue =>
      let field := String.intercalate "." issue.path
      ⟨if field ≠ "" then field else place, issue.message⟩))

def validate (ports : Ports β) : Except Thrown Unit := do
  parseWith ports "body"
  parseWith ports "params"
  parseWith ports "querystring"

def limitRequest (deps : HttpServerDeps) (ports : Ports β) (route : RouteDefinition)
    (request : Request) (principal : Principal) : Except (Answer β) Admission :=
  match limitDecision deps ports route request principal with
  | none => .error (.refused unavailable)
  | some decision =>
    if decision.allowed then
      match validate ports with
      | .error error => .error (.threw error)
      | .ok _ => .ok ⟨route, principal, request.header "idempotency-key"⟩
    else .error (.refused (rateLimited decision.retryAfterMs))

/-- The lifecycle of the tenant and the guard, then the limiter and the validation. -/
def guardRequest (deps : HttpServerDeps) (ports : Ports β) (route : RouteDefinition)
    (request : Request) (context : AuthenticatedContext) (tenantId : String) :
    Except (Answer β) Admission :=
  match lifecycleRefusal deps ports tenantId route with
  | some refused => .error (.refused refused)
  | none =>
    let principal : Principal := ⟨context.principal, tenantId⟩
    match authorize ports route request principal context.claims with
    | .error error => .error (.threw error)
    | .ok (some denied) => .error (.refused denied)
    | .ok none => limitRequest deps ports route request principal

def admitRequest (deps : HttpServerDeps) (ports : Ports β) (route : RouteDefinition)
    (request : Request) : Except (Answer β) Admission :=
  match authenticate deps ports route request with
  | .error error => .error (.threw error)
  | .ok context =>
    match resolveTenant deps.tenantResolvers
        ⟨request.headers, request.hostname, context.principal, context.claims⟩ with
    | none => .error (.threw (.authorization "No tenant resolved for this request"))
    | some tenantId => guardRequest deps ports route request context tenantId

end Pipeline

section Idempotency

variable {β : Type}

structure IdempotencyClaim where
  key : String
  token : String

structure Commit (β : Type) where
  key : Option String
  admission : Admission
  snapshot : ReplaySnapshot β

/-- The claims by key, the tokens drawn so far, and the snapshots by key, within the lifetime of
what they hold; and what the handlers have committed. -/
structure Stores (β : Type) where
  claims : String → Option String
  tokens : List String
  responses : String → Option (ReplaySnapshot β)
  committed : List (Commit β)

inductive Cause where
  | handler
  | snapshot

/-- Where a request stands. -/
inductive Point (β : Type) where
  | arriving (route : RouteDefinition) (request : Request)
  | looking (admission : Admission) (key : String)
  | claiming (admission : Admission) (key : String)
  | handling (admission : Admission) (claim : Option IdempotencyClaim)
  | storing (admission : Admission) (claim : IdempotencyClaim) (response : TransportResponse β)
  | releasing (admission : Admission) (claim : IdempotencyClaim) (cause : Cause) (error : Thrown)
  | answered (admission : Option Admission) (answer : Answer β)

/-- How a call of a store goes: it takes effect and answers, it takes effect and its answer is lost,
or it fails without effect. -/
inductive Call where
  | done
  | lost (error : Thrown)
  | failed (error : Thrown)

def Call.takesEffect : Call → Bool
  | done => true
  | lost _ => true
  | failed _ => false

/-- What the ports, the handler and the stores do. -/
inductive Choice (β : Type) where
  | admitted (ports : Ports β)
  | get (call : Call)
  | claim (token : String) (call : Call)
  | returns (response : TransportResponse β)
  | throws (error : Thrown)
  | set (call : Call)
  | release (call : Call)

namespace Stores

/-- `SET key token EX ttl NX`. -/
def claim (s : Stores β) (key token : String) : Stores β :=
  { s with claims := Function.update s.claims key (some token), tokens := token :: s.tokens }

def save (s : Stores β) (key : String) (snapshot : ReplaySnapshot β) : Stores β :=
  { s with responses := Function.update s.responses key (some snapshot) }

def release (s : Stores β) (claim : IdempotencyClaim) : Stores β :=
  if s.claims claim.key = some claim.token then
    { s with claims := Function.update s.claims claim.key none }
  else s

def commit (s : Stores β) (commit : Commit β) : Stores β :=
  { s with committed := s.committed ++ [commit] }

end Stores

def TransportResponse.snapshot (response : TransportResponse β) : ReplaySnapshot β :=
  ⟨response.status, response.body⟩

def claimTurn (admission : Admission) (key token : String) (call : Call) (s : Stores β) :
    Option (Point β × Stores β) :=
  if token ∈ s.tokens then none
  else
    match s.claims key, call with
    | some _, .done => some (.answered admission .inFlight, s)
    | some _, .lost error => some (.answered admission (.threw error), s)
    | none, .done => some (.handling admission (some ⟨key, token⟩), s.claim key token)
    | none, .lost error => some (.answered admission (.threw error), s.claim key token)
    | _, .failed error => some (.answered admission (.threw error), s)

def storeTurn (admission : Admission) (claim : IdempotencyClaim) (response : TransportResponse β)
    (call : Call) (s : Stores β) : Point β × Stores β :=
  match call with
  | .done => (.answered admission (.handled response), s.save claim.key response.snapshot)
  | .lost error => (.releasing admission claim .snapshot error, s.save claim.key response.snapshot)
  | .failed error => (.releasing admission claim .snapshot error, s)

def releaseTurn (admission : Admission) (claim : IdempotencyClaim) (error : Thrown) (call : Call)
    (s : Stores β) : Point β × Stores β :=
  match call with
  | .done => (.answered admission (.failed error), s.release claim)
  | .lost lost => (.answered admission (.failed lost), s.release claim)
  | .failed failed => (.answered admission (.failed failed), s)

/-- One step of a request. A handler commits its effect and returns, or throws without effect. -/
def executeRoute (deps : HttpServerDeps) : Program (Stores β) (Point β) (Choice β)
  | .arriving route request, .admitted ports, s =>
    match admitRequest deps ports route request with
    | .error answer => some (.answered none answer, s)
    | .ok admission =>
      match admission.cacheKey with
      | none => some (.handling admission none, s)
      | some key => some (.looking admission key, s)
  | .looking admission key, .get call, s =>
    match call, s.responses key with
    | .done, some replay => some (.answered admission (.replayed replay), s)
    | .done, none => some (.claiming admission key, s)
    | .lost error, _ => some (.answered admission (.threw error), s)
    | .failed error, _ => some (.answered admission (.threw error), s)
  | .claiming admission key, .claim token call, s => claimTurn admission key token call s
  | .handling admission (some claim), .returns response, s =>
    some (.storing admission claim response,
      s.commit ⟨some claim.key, admission, response.snapshot⟩)
  | .handling admission none, .returns response, s =>
    some (.answered admission (.handled response), s.commit ⟨none, admission, response.snapshot⟩)
  | .handling admission (some claim), .throws error, s =>
    some (.releasing admission claim .handler error, s)
  | .handling admission none, .throws error, s =>
    some (.answered admission (.failed error), s)
  | .storing admission claim response, .set call, s =>
    some (storeTurn admission claim response call s)
  | .releasing admission claim _ error, .release call, s =>
    some (releaseTurn admission claim error call s)
  | _, _, _ => none

/-- Everything a step can be. -/
inductive Turned (deps : HttpServerDeps) (s : Stores β) :
    Point β → Choice β → Point β → Stores β → Prop where
  | refuse {ports route request answer} :
      admitRequest deps ports route request = .error answer →
      Turned deps s (.arriving route request) (.admitted ports) (.answered none answer) s
  | look {ports route request admission key} :
      admitRequest deps ports route request = .ok admission → admission.cacheKey = some key →
      Turned deps s (.arriving route request) (.admitted ports) (.looking admission key) s
  | plain {ports route request admission} :
      admitRequest deps ports route request = .ok admission → admission.cacheKey = none →
      Turned deps s (.arriving route request) (.admitted ports) (.handling admission none) s
  | replay {admission key snapshot} : s.responses key = some snapshot →
      Turned deps s (.looking admission key) (.get .done)
        (.answered admission (.replayed snapshot)) s
  | miss {admission key} : s.responses key = none →
      Turned deps s (.looking admission key) (.get .done) (.claiming admission key) s
  | unread {admission key call error} :
      Turned deps s (.looking admission key) (.get call) (.answered admission (.threw error)) s
  | inFlight {admission key token} : s.claims key ≠ none →
      Turned deps s (.claiming admission key) (.claim token .done)
        (.answered admission .inFlight) s
  | claim {admission key token} : s.claims key = none → token ∉ s.tokens →
      Turned deps s (.claiming admission key) (.claim token .done)
        (.handling admission (some ⟨key, token⟩)) (s.claim key token)
  | claimLost {admission key token call error} : s.claims key = none → token ∉ s.tokens →
      Turned deps s (.claiming admission key) (.claim token call)
        (.answered admission (.threw error)) (s.claim key token)
  | unclaimed {admission key token call error} :
      Turned deps s (.claiming admission key) (.claim token call)
        (.answered admission (.threw error)) s
  | returns {admission claim response} :
      Turned deps s (.handling admission (some claim)) (.returns response)
        (.storing admission claim response)
        (s.commit ⟨some claim.key, admission, response.snapshot⟩)
  | returnsPlain {admission response} :
      Turned deps s (.handling admission none) (.returns response)
        (.answered admission (.handled response)) (s.commit ⟨none, admission, response.snapshot⟩)
  | throws {admission claim error} :
      Turned deps s (.handling admission (some claim)) (.throws error)
        (.releasing admission claim .handler error) s
  | throwsPlain {admission error} :
      Turned deps s (.handling admission none) (.throws error)
        (.answered admission (.failed error)) s
  | store {admission claim response} :
      Turned deps s (.storing admission claim response) (.set .done)
        (.answered admission (.handled response)) (s.save claim.key response.snapshot)
  | storeLost {admission claim response call error} :
      Turned deps s (.storing admission claim response) (.set call)
        (.releasing admission claim .snapshot error) (s.save claim.key response.snapshot)
  | unstored {admission claim response call error} :
      Turned deps s (.storing admission claim response) (.set call)
        (.releasing admission claim .snapshot error) s
  | release {admission claim cause error call failure} : call.takesEffect = true →
      Turned deps s (.releasing admission claim cause error) (.release call)
        (.answered admission (.failed failure)) (s.release claim)
  | unreleased {admission claim cause error call failure} :
      Turned deps s (.releasing admission claim cause error) (.release call)
        (.answered admission (.failed failure)) s

theorem claimTurn_turned {deps : HttpServerDeps} {s s' : Stores β} {admission : Admission}
    {key token : String} {call : Call} {k : Point β}
    (h : claimTurn admission key token call s = some (k, s')) :
    Turned deps s (.claiming admission key) (.claim token call) k s' := by
  unfold claimTurn at h
  split at h
  · cases h
  · rename_i hfresh
    split at h <;> cases h
    · rename_i token hclaimed
      exact .inFlight (ne_of_eq_of_ne hclaimed (Option.some_ne_none token))
    · exact .unclaimed
    · rename_i hnone
      exact .claim hnone hfresh
    · rename_i hnone
      exact .claimLost hnone hfresh
    · exact .unclaimed

theorem executeRoute_turned {deps : HttpServerDeps} {s s' : Stores β} {k k' : Point β}
    {choice : Choice β} (h : executeRoute deps k choice s = some (k', s')) :
    Turned deps s k choice k' s' := by
  unfold executeRoute at h
  split at h
  · split at h
    · rename_i hrefused
      cases h
      exact .refuse hrefused
    · rename_i hadmitted
      split at h <;> cases h
      · rename_i hkey
        exact .plain hadmitted hkey
      · rename_i hkey
        exact .look hadmitted hkey
  · split at h <;> cases h
    · rename_i hreplay
      exact .replay hreplay
    · rename_i hmiss
      exact .miss hmiss
    · exact .unread
    · exact .unread
  · exact claimTurn_turned h
  · cases h
    exact .returns
  · cases h
    exact .returnsPlain
  · cases h
    exact .throws
  · cases h
    exact .throwsPlain
  · rename_i call
    cases call <;> cases h
    · exact .store
    · exact .storeLost
    · exact .unstored
  · rename_i call
    cases call <;> cases h
    · exact .release rfl
    · exact .release rfl
    · exact .unreleased
  · cases h

end Idempotency

end Http
