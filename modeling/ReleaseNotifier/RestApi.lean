/-
The REST API of `internal/api/rest`: the router, its middleware and the handlers.

A request is served by one program. What it asks of the rest of the process (the
limiter's table, the body, the service, the checks) is answered by an arbitrary `Peer`,
so the protocol below says what a request can make the service do, and what the client
learns, whatever the service answers. The service is asked at most once; a subscription
only for a client the limiter admits and a body that ends where it should, a listing only
with the configured key. A refusal is one of a fixed list of texts: no error of the service
reaches the client in its own words.

The router itself is `go-chi`'s. Which handler a request is given to, and what is answered
where none is, are a parameter `Mux`; `Mux.Lawful` names what is relied on. One thing it
names is that the router looks at `URL.RawPath` if there is one, where `SecurityHeaders`
looks at `URL.Path`: the two agree on where the API begins.
-/
import Mathlib.Data.List.Find
import ReleaseNotifier.Conc.Dialogue
import ReleaseNotifier.RateLimiter
import ReleaseNotifier.Subscriptions
import ReleaseNotifier.Tracectx

set_option autoImplicit false

namespace ReleaseNotifier.Rest

open Conc

/-! ## Requests and responses -/

/-- The value of a hexadecimal digit. -/
def unhex? (b : UInt8) : Option Nat :=
  if 0x30 ≤ b ∧ b ≤ 0x39 then some (b.toNat - 0x30)
  else if 0x61 ≤ b ∧ b ≤ 0x66 then some (b.toNat - 0x61 + 10)
  else if 0x41 ≤ b ∧ b ≤ 0x46 then some (b.toNat - 0x41 + 10)
  else none

/-- `url.PathUnescape`. -/
def pathUnescape : Bytes → Option Bytes
  | [] => some []
  | c :: rest =>
    if c = 0x25 then
      match rest with
      | a :: b :: more => do
        let high ← unhex? a
        let low ← unhex? b
        return UInt8.ofNat (high * 16 + low) :: (← pathUnescape more)
      | _ => none
    else (pathUnescape rest).map (c :: ·)

/-- The path of a `url.URL` the server parsed: `RawPath` is empty, or the text that was sent. -/
structure Url where
  path : Bytes
  rawPath : Bytes
  unescaped : rawPath ≠ [] → pathUnescape rawPath = some path

/-- What is read of an `http.Request`; a header or a parameter that is absent is empty. -/
structure Request where
  method : String
  url : Url
  trace : Middleware.Headers
  /-- `X-API-Key` -/
  apiKey : Bytes
  /-- the query parameter `email` -/
  email : Bytes
  client : ReleaseNotifier.Request

/-- `http.Header`, with one value for a key. -/
abbrev Header := String → Option Bytes

/-- `Header.Set`. -/
def Header.set (h : Header) (key : String) (value : Bytes) : Header :=
  Function.update h key (some value)

/-- What a handler hands to the `ResponseWriter`. -/
structure Response where
  status : Nat
  header : Header
  body : Bytes

/-- The operations of the handlers on what they share. -/
inductive Op
  /-- `Limit` under the mutex: the entry of the client, and its two clock readings. -/
  | visitor (ip : Bytes)
  /-- `dec.Decode(&req)`. -/
  | decode
  /-- `dec.Decode(&extra)`: whether it reports `io.EOF`. -/
  | decodeExtra
  | subscribe (email repo : Bytes)
  | confirm (token : Bytes)
  | unsubscribe (token : Bytes)
  | getSubscriptions (email : Bytes)
  /-- `json.NewEncoder(&buf).Encode(subs)`. -/
  | encode (subs : List Subscription)
  | check
  /-- `http.ServeFile` and `promhttp.Handler`: a status, a content type and a body. -/
  | serveFile
  | scrape

abbrev Op.Res : Op → Type
  | .visitor _ => Option Visitor × Int × Int
  | .decode => Except Err (Bytes × Bytes)
  | .decodeExtra => Bool
  | .subscribe _ _ | .confirm _ | .unsubscribe _ | .check => Option Err
  | .getSubscriptions _ => Except Err (List Subscription)
  | .encode _ => Option Bytes
  | .serveFile | .scrape => Nat × Bytes × Bytes

abbrev P (α : Type) := Prog Op Op.Res α

/-! ## The router -/

/-- What `NewRouter` registers, with the value of `{token}` where the pattern has one. -/
inductive Route
  | root
  | health
  | swagger
  | metrics
  | subscribe
  | confirm (token : Bytes)
  | unsubscribe (token : Bytes)
  | subscriptions

/-- The method a route is registered for; `Handle` registers all of them. -/
def Route.method? : Route → Option String
  | .metrics => none
  | .subscribe => some "POST"
  | _ => some "GET"

/-- Which paths the pattern of a route is for. -/
def Route.At (path : Bytes) : Route → Prop
  | .root => path = utf8 "/"
  | .health => path = utf8 "/health"
  | .swagger => path = utf8 "/swagger.yaml"
  | .metrics => path = utf8 "/metrics"
  | .subscribe => path = utf8 "/api/subscribe"
  | .confirm token => path = utf8 "/api/confirm/" ++ token ∧ token ≠ [] ∧ 0x2f ∉ token
  | .unsubscribe token => path = utf8 "/api/unsubscribe/" ++ token ∧ token ≠ [] ∧ 0x2f ∉ token
  | .subscriptions => path = utf8 "/api/subscriptions"

/-- A `chi.Mux` with these routes. -/
structure Mux where
  /-- the path it routes on -/
  routePath : Url → Bytes
  /-- the handler a request is given to -/
  dispatch : Request → Option Route
  /-- what is answered if there is none -/
  refuse : Request → Header → Response

/-- The request is one for this route. -/
def Mux.IsFor (m : Mux) (req : Request) (route : Route) : Prop :=
  route.At (m.routePath req.url) ∧ ∀ method ∈ route.method?, req.method = method

/-- The headers a handler may set. -/
def handlerHeaders : List String := ["Content-Type", "Retry-After", "Allow"]

/-- What is relied on of `go-chi`. -/
structure Mux.Lawful (m : Mux) : Prop where
  /-- It routes on the path as it was sent, if that is kept, -/
  raw : ∀ u, u.rawPath ≠ [] → m.routePath u = u.rawPath
  /-- and else on the path; an empty one is `/`. -/
  decoded : ∀ u, u.rawPath = [] → m.routePath u = if u.path = [] then utf8 "/" else u.path
  /-- A handler is given requests for its pattern and its method only. -/
  only : ∀ req route, m.dispatch req = some route → m.IsFor req route
  /-- One that is registered for a method is given all of these. -/
  all : ∀ req route, m.IsFor req route → route.method?.isSome → m.dispatch req = some route
  /-- The rest is answered with a 404 or a 405. -/
  refused : ∀ req h, ((m.refuse req h).status, (m.refuse req h).body) ∈
    [(404, utf8 "404 page not found\n"), (405, [])]
  /-- What the middleware has set stays. `http.Error` sets `nosniff` once more. -/
  kept : ∀ req h key, key ∉ handlerHeaders → (m.refuse req h).header key = h key ∨
    (key = "X-Content-Type-Options" ∧ (m.refuse req h).header key = some (utf8 "nosniff"))

/-! ## Writing a response -/

/-- The text `Encode` makes of a map or a struct of texts; none of the texts here needs
an escape. -/
def jsonText (members : List (String × String)) : Bytes :=
  utf8 ("\x7b" ++ ",".intercalate (members.map fun m => "\"" ++ m.1 ++ "\":\"" ++ m.2 ++ "\"") ++
    "\x7d\n")

/-- `writeJSON`. -/
def writeJSON (h : Header) (status : Nat) (body : Bytes) : Response :=
  ⟨status, h.set "Content-Type" (utf8 "application/json"), body⟩

/-- `respond` of package `health`. -/
def respond (h : Header) (status : Nat) (body : Bytes) : Response := writeJSON h status body

/-- `errorResponse`. -/
def errorResponse (msg : String) : Bytes := jsonText [("error", msg)]

/-- `respondJSON`: a body that cannot be encoded is answered as an internal error. -/
def respondJSON (h : Header) (status : Nat) : Option Bytes → Response
  | none => writeJSON h 500 (errorResponse "internal server error")
  | some body => writeJSON h status body

/-- `respondError`. -/
def respondError (h : Header) (status : Nat) (msg : String) : Response :=
  respondJSON h status (some (errorResponse msg))

/-- `errorMapping`. -/
structure ErrorMapping where
  sentinel : Sentinel
  status : Nat
  message : String

/-- `serviceErrorMappings`. -/
def serviceErrorMappings : List ErrorMapping :=
  [⟨.errInvalidRepo, 400, "invalid repository format, expected owner/repo"⟩,
   ⟨.errInvalidEmail, 400, "invalid email address"⟩,
   ⟨.errRepoNotFound, 404, "repository not found on GitHub"⟩,
   ⟨.errAlreadyExists, 409, "subscription already exists"⟩,
   ⟨.errEmailSendFailed, 503, "failed to send confirmation email, please try again"⟩,
   ⟨.errTokenNotFound, 404, "invalid or expired token"⟩,
   ⟨.errSubscriptionInactive, 404, "invalid or expired token"⟩]

/-- `writeServiceError`. -/
def writeServiceError (h : Header) (err : Err) : Response :=
  match serviceErrorMappings.find? (fun m => err.is m.sentinel) with
  | some m => respondError h m.status m.message
  | none => respondError h 500 "internal server error"

/-! ## The handlers -/

/-- `NewRouter`'s arguments, the router they are handed to, and the digest of the standard
library. -/
structure Router where
  mux : Mux
  apiKey : Bytes
  limiter : RateLimiter
  /-- whether there is a `healthChecker` -/
  hasChecker : Bool
  sum256 : Bytes → Bytes

/-- What the handlers answer when all went well. -/
def succeeded (h : Header) (message : String) : Response :=
  respondJSON h 200 (some (jsonText [("message", message)]))

/-- `Subscribe`. -/
def subscribe (h : Header) : P Response := do
  match ← Prog.perform Op.decode with
  | .error _ => return respondError h 400 "invalid request body"
  | .ok (email, repo) =>
    match ← Prog.perform Op.decodeExtra with
    | false => return respondError h 400 "invalid request body"
    | true =>
      match ← Prog.perform (Op.subscribe email repo) with
      | some err => return writeServiceError h err
      | none => return succeeded h "Subscription created. Please confirm via email."

/-- The handler of a link with a token. -/
def link (ask : Bytes → P (Option Err)) (done : String) (h : Header) (token : Bytes) :
    P Response :=
  if token = [] then return respondError h 400 "token is required"
  else do
    match ← ask token with
    | some err => return writeServiceError h err
    | none => return succeeded h done

/-- `Confirm`. -/
def confirm : Header → Bytes → P Response :=
  link (fun token => Prog.perform (Op.confirm token)) "Subscription confirmed successfully."

/-- `Unsubscribe`. -/
def unsubscribe : Header → Bytes → P Response :=
  link (fun token => Prog.perform (Op.unsubscribe token)) "Successfully unsubscribed."

/-- `List`. -/
def list (h : Header) (email : Bytes) : P Response :=
  if email = [] then return respondError h 400 "email query parameter is required"
  else do
    match ← Prog.perform (Op.getSubscriptions email) with
    | .error err => return writeServiceError h err
    | .ok subs => return respondJSON h 200 (← Prog.perform (Op.encode subs))

/-- `root`; `Encode` sorts the keys of a map. -/
def root (h : Header) : Response :=
  writeJSON h 200 (jsonText [("docs", "/swagger.yaml"), ("health", "/health"),
    ("metrics", "/metrics"), ("service", "GitHub Release Notification API")])

/-- `health.Handler`. -/
def Router.health (R : Router) (h : Header) : P Response :=
  let unhealthy := respond h 503 (jsonText [("status", "unhealthy")])
  if R.hasChecker then do
    match ← Prog.perform Op.check with
    | some _ => return unhealthy
    | none => return respond h 200 (jsonText [("status", "healthy")])
  else return unhealthy

/-- A response of a handler of a library. -/
def foreign (h : Header) (r : Nat × Bytes × Bytes) : Response :=
  ⟨r.1, h.set "Content-Type" r.2.1, r.2.2⟩

/-! ## The middleware -/

/-- `writeAuthError`. -/
def writeAuthError (h : Header) (msg : String) : Response := writeJSON h 401 (errorResponse msg)

/-- `APIKeyAuth`. -/
def Router.apiKeyAuth (R : Router) (req : Request) (next : Header → P Response) (h : Header) :
    P Response :=
  if R.apiKey = [] then return writeAuthError h "API key authentication is not configured"
  else if R.sum256 req.apiKey ≠ R.sum256 R.apiKey then
    return writeAuthError h "invalid or missing API key"
  else next h

/-- `Limit`. -/
def Router.limit (R : Router) (req : Request) (next : Header → P Response) (h : Header) :
    P Response := do
  let (v, now, later) ← Prog.perform (Op.visitor (R.limiter.clientIP req.client))
  match (R.limiter.visit v now later).1 with
  | .next => next h
  | .tooManyRequests contentType retryAfter error =>
    return ⟨429, (h.set "Content-Type" (utf8 contentType)).set "Retry-After" (utf8 retryAfter),
      errorResponse error⟩

/-- What the paths of the API start with. -/
def apiPath : Bytes := utf8 "/api/"

/-- `SecurityHeaders`. -/
def securityHeaders (req : Request) (h : Header) : Header :=
  let h := ((h.set "X-Content-Type-Options" (utf8 "nosniff")).set "X-Frame-Options"
    (utf8 "DENY")).set "Referrer-Policy" (utf8 "no-referrer")
  if apiPath <+: req.url.path then h.set "Cache-Control" (utf8 "no-store") else h

/-- The header `TraceID` sets. -/
def traceID (req : Request) (draw : Vector UInt8 16) (h : Header) : Header :=
  h.set "X-Request-ID" (Middleware.traceIDFromRequest req.trace draw)

/-! ## Dispatch -/

/-- The handlers of `NewRouter`, behind the middleware of their own. -/
def Router.handle (R : Router) (req : Request) (h : Header) : Route → P Response
  | .root => return root h
  | .health => R.health h
  | .swagger => return foreign h (← Prog.perform Op.serveFile)
  | .metrics => return foreign h (← Prog.perform Op.scrape)
  | .subscribe => R.limit req subscribe h
  | .confirm token => confirm h token
  | .unsubscribe token => unsubscribe h token
  | .subscriptions => R.apiKeyAuth req (fun h => list h req.email) h

/-- A request behind the middleware of the router. -/
def Router.routeHTTP (R : Router) (req : Request) (h : Header) : P Response :=
  match R.mux.dispatch req with
  | some route => R.handle req h route
  | none => return R.mux.refuse req h

/-- A request, from the first middleware on. -/
def Router.serveHTTP (R : Router) (req : Request) (draw : Vector UInt8 16) : P Response :=
  R.routeHTTP req (securityHeaders req (traceID req draw fun _ => none))

/-! ## The protocol -/

/-- The answers a request has had so far. -/
structure Stage where
  /-- whether the limiter let it pass -/
  admitted : Option Bool
  decoded : Option (Option (Bytes × Bytes))
  /-- whether nothing follows the object in the body -/
  ended : Option Bool
  /-- the error of the service, if it had one -/
  asked : Option (Option Err)
  listed : Option (List Subscription)
  encoded : Option (Option Bytes)
  checked : Option (Option Err)

def Stage.start : Stage := ⟨none, none, none, none, none, none, none⟩

/-- The error of an answer. -/
def errorOf {α : Type} : Except Err α → Option Err
  | .error err => some err
  | .ok _ => none

def Router.next (R : Router) (q : Stage) : (o : Op) → o.Res → Stage
  | .visitor _, (v, now, later) =>
    { q with admitted := some (decide ((R.limiter.visit v now later).1 = .next)) }
  | .decode, r => { q with decoded := some r.toOption }
  | .decodeExtra, eof => { q with ended := some eof }
  | .subscribe _ _, r | .confirm _, r | .unsubscribe _, r => { q with asked := some r }
  | .getSubscriptions _, r => { q with asked := some (errorOf r), listed := r.toOption }
  | .encode _, r => { q with encoded := some r }
  | .check, r => { q with checked := some r }
  | .serveFile, _ | .scrape, _ => q

/-- The key was configured, and the request has it. -/
def Router.Authorizes (R : Router) (req : Request) : Prop :=
  R.apiKey ≠ [] ∧ R.sum256 req.apiKey = R.sum256 R.apiKey

/-- What a request may ask for, and when. -/
def Router.Allows (R : Router) (req : Request) (q : Stage) : Op → Prop
  | .visitor ip => q = .start ∧ R.mux.IsFor req .subscribe ∧ ip = R.limiter.clientIP req.client
  | .decode => q.admitted = some true ∧ q.decoded = none
  | .decodeExtra => (∃ body, q.decoded = some (some body)) ∧ q.ended = none
  | .subscribe email repo =>
    q.admitted = some true ∧ q.decoded = some (some (email, repo)) ∧ q.ended = some true ∧
      q.asked = none
  | .confirm token => q = .start ∧ R.mux.IsFor req (.confirm token)
  | .unsubscribe token => q = .start ∧ R.mux.IsFor req (.unsubscribe token)
  | .getSubscriptions email =>
    q = .start ∧ R.mux.IsFor req .subscriptions ∧ R.Authorizes req ∧ email = req.email ∧ email ≠ []
  | .encode subs => q.listed = some subs ∧ q.encoded = none
  | .check => q = .start ∧ R.mux.IsFor req .health ∧ R.hasChecker = true
  | .serveFile => q = .start ∧ R.mux.IsFor req .swagger
  | .scrape => q = .start ∧ R.mux.IsFor req .metrics

def Router.protocol (R : Router) (req : Request) : Protocol Op Op.Res Stage :=
  ⟨R.Allows req, R.next⟩

/-- The service did what was asked, and its answer could be written. -/
def Stage.Succeeded (q : Stage) : Prop := q.asked = some none ∧ q.encoded ≠ some none

/-- How far a request for a route gets: nothing but the answers themselves, the key and an
empty address keeps it from the service. -/
def Router.Serves (R : Router) (req : Request) (resp : Response) (q : Stage) : Route → Prop
  | .root | .swagger | .metrics => True
  | .health =>
    (R.hasChecker = true → q.checked.isSome) ∧ (resp.status = 200 ↔ q.checked = some none)
  | .subscribe =>
    q.admitted.isSome ∧ (q.admitted = some true → q.decoded.isSome) ∧
      (∀ body, q.decoded = some (some body) → q.ended.isSome) ∧
      (q.ended = some true → q.asked.isSome)
  | .confirm _ | .unsubscribe _ => q.asked.isSome
  | .subscriptions =>
    (R.Authorizes req → req.email ≠ [] → q.asked.isSome) ∧ (q.listed.isSome → q.encoded.isSome)

/-- Every refusal of the API: its status and its body. -/
def refusals : List (Nat × Bytes) :=
  serviceErrorMappings.map (fun m => (m.status, errorResponse m.message)) ++
    [(500, errorResponse "internal server error"),
     (400, errorResponse "invalid request body"),
     (400, errorResponse "email query parameter is required"),
     (401, errorResponse "API key authentication is not configured"),
     (401, errorResponse "invalid or missing API key"),
     (429, errorResponse "rate limit exceeded"),
     (404, utf8 "404 page not found\n"),
     (405, [])]

/-- The headers of `SecurityHeaders` and `TraceID`, as the client sees them. -/
structure Guarded (m : Mux) (req : Request) (draw : Vector UInt8 16) (h : Header) : Prop where
  nosniff : h "X-Content-Type-Options" = some (utf8 "nosniff")
  frame : h "X-Frame-Options" = some (utf8 "DENY")
  referrer : h "Referrer-Policy" = some (utf8 "no-referrer")
  requestID : h "X-Request-ID" = some (Middleware.traceIDFromRequest req.trace draw)
  noStore : apiPath <+: m.routePath req.url → h "Cache-Control" = some (utf8 "no-store")

/-- Success is reported if and only if it happened, and everything else is a refusal. -/
def Truthful (resp : Response) (q : Stage) : Prop :=
  (resp.status = 200 ↔ q.Succeeded) ∧ (resp.status ≠ 200 → (resp.status, resp.body) ∈ refusals)

/-- What the client is told, and how. -/
def Told (m : Mux) (req : Request) (draw : Vector UInt8 16) (resp : Response) (q : Stage) : Prop :=
  Guarded m req draw resp.header ∧ (apiPath <+: m.routePath req.url → Truthful resp q)

/-- What becomes of a request. -/
def Router.Report (R : Router) (req : Request) (draw : Vector UInt8 16) (resp : Response)
    (q : Stage) : Prop :=
  Told R.mux req draw resp q ∧ ∀ route, R.mux.IsFor req route → R.Serves req resp q route

/-! ## The two paths of a URL -/

/-- What has no escape in it is left alone. -/
theorem pathUnescape_append {s t : Bytes} (hs : 0x25 ∉ s) :
    pathUnescape (s ++ t) = (pathUnescape t).map (s ++ ·) := by
  induction s with
  | nil => simp
  | cons c s ih =>
    rw [List.mem_cons, not_or] at hs
    rw [List.cons_append, pathUnescape.eq_def]
    simp only [Ne.symm hs.1, if_false, ih hs.2, Option.map_map]
    rfl

/-- Where the router sees the API, so does `SecurityHeaders`. -/
theorem Mux.Lawful.apiPath_isPrefix {m : Mux} (hm : m.Lawful) {u : Url}
    (h : apiPath <+: m.routePath u) : apiPath <+: u.path := by
  by_cases hraw : u.rawPath = []
  · rw [hm.decoded u hraw] at h
    split at h
    · exact absurd h (by decide)
    · exact h
  · rw [hm.raw u hraw] at h
    obtain ⟨t, ht⟩ := h
    have hpath := u.unescaped hraw
    rw [← ht, pathUnescape_append (by decide), Option.map_eq_some_iff] at hpath
    obtain ⟨t', -, ht'⟩ := hpath
    exact ⟨t', ht'⟩

/-! ## Headers -/

section Headers

variable {m : Mux} {req : Request} {draw : Vector UInt8 16} {h : Header}

@[simp] theorem Header.set_apply (h : Header) (key key' : String) (value : Bytes) :
    h.set key value key' = if key' = key then some value else h key' := by
  rw [Header.set, Function.update_apply]

/-- The middleware sets its headers before the handler runs. -/
theorem guarded_securityHeaders (hm : m.Lawful) (h : Header) :
    Guarded m req draw (securityHeaders req (traceID req draw h)) := by
  by_cases hapi : apiPath <+: req.url.path
  · constructor <;> simp [securityHeaders, traceID, hapi]
  · constructor
    case noStore => exact fun h => absurd (hm.apiPath_isPrefix h) hapi
    all_goals simp [securityHeaders, traceID, hapi]

/-- The headers the middleware sets. -/
def middlewareHeaders : List String :=
  ["X-Content-Type-Options", "X-Frame-Options", "Referrer-Policy", "X-Request-ID", "Cache-Control"]

/-- The handlers overwrite none of them. -/
theorem not_mem_handlerHeaders : ∀ name ∈ middlewareHeaders, name ∉ handlerHeaders := by decide

/-- The rest of the header does not matter. -/
theorem Guarded.congr (hg : Guarded m req draw h) {h' : Header}
    (hkeep : ∀ name ∈ middlewareHeaders, h' name = h name) : Guarded m req draw h' := by
  constructor
  · rw [hkeep _ (by decide)]
    exact hg.nosniff
  · rw [hkeep _ (by decide)]
    exact hg.frame
  · rw [hkeep _ (by decide)]
    exact hg.referrer
  · rw [hkeep _ (by decide)]
    exact hg.requestID
  · rw [hkeep _ (by decide)]
    exact hg.noStore

/-- A handler's own headers are none of the middleware's. -/
theorem Guarded.set (hg : Guarded m req draw h) {key : String} (hkey : key ∈ handlerHeaders)
    (value : Bytes) : Guarded m req draw (h.set key value) := by
  refine hg.congr (fun name hname => ?_)
  rw [Header.set_apply, if_neg]
  rintro rfl
  exact not_mem_handlerHeaders name hname hkey

/-- What the router answers by itself has them too. -/
theorem Guarded.refuse (hg : Guarded m req draw h) (hm : m.Lawful) :
    Guarded m req draw (m.refuse req h).header := by
  refine hg.congr (fun name hname => ?_)
  rcases hm.kept req h name (not_mem_handlerHeaders name hname) with hsame | ⟨rfl, hsniff⟩
  · exact hsame
  · rw [hsniff, hg.nosniff]

theorem Guarded.writeJSON (hg : Guarded m req draw h) (status : Nat) (body : Bytes) :
    Guarded m req draw (writeJSON h status body).header :=
  hg.set (by decide) _

/-! ## What the client is told -/

variable {q : Stage}

/-- A text of the list, while the service has not done what was asked. -/
theorem told_refusal (hg : Guarded m req draw h) {status : Nat} {msg : String}
    (hmem : (status, errorResponse msg) ∈ refusals) (hstatus : status ≠ 200)
    (hq : ¬ q.Succeeded) : Told m req draw (respondError h status msg) q :=
  ⟨hg.writeJSON _ _, fun _ => ⟨iff_of_false hstatus hq, fun _ => hmem⟩⟩

/-- A success is answered with 200. -/
theorem told_done (hg : Guarded m req draw h) (body : Bytes) (hq : q.Succeeded) :
    Told m req draw (respondJSON h 200 (some body)) q :=
  ⟨hg.writeJSON _ _, fun _ => ⟨iff_of_true rfl hq, fun hne => absurd rfl hne⟩⟩

/-- A mapped error is answered by one of the refusals. -/
theorem mem_refusals_of_mapping {m : ErrorMapping} (hm : m ∈ serviceErrorMappings) :
    (m.status, errorResponse m.message) ∈ refusals :=
  List.mem_append_left _ (List.mem_map_of_mem hm)

/-- No error is mapped to a success. -/
theorem status_of_mapping {m : ErrorMapping} (hm : m ∈ serviceErrorMappings) : m.status ≠ 200 := by
  revert m
  simp [serviceErrorMappings]

/-- Whatever the error of the service is, the text is one of the list. -/
theorem told_writeServiceError (hg : Guarded m req draw h) (err : Err) (hq : ¬ q.Succeeded) :
    Told m req draw (writeServiceError h err) q := by
  unfold writeServiceError
  split
  · next m hm =>
    have hmem := List.mem_of_find?_eq_some hm
    exact told_refusal hg (mem_refusals_of_mapping hmem) (status_of_mapping hmem) hq
  · exact told_refusal hg (by simp [refusals]) (by decide) hq

/-- Off the API only the headers are at stake. -/
theorem told_elsewhere {resp : Response} (hg : Guarded m req draw resp.header)
    (hpath : ¬ apiPath <+: m.routePath req.url) : Told m req draw resp q :=
  ⟨hg, fun hapi => absurd hapi hpath⟩

end Headers

/-! ## Every request -/

section Serving

variable (R : Router) (req : Request) {draw : Vector UInt8 16} {h : Header}

/-- What a handler is to do with a request for its route. -/
def Router.Handled (R : Router) (req : Request) (draw : Vector UInt8 16) (route : Route)
    (resp : Response) (q : Stage) : Prop :=
  Told R.mux req draw resp q ∧ R.Serves req resp q route

/-- `Subscribe`, once the limiter has let the request pass. -/
theorem subscribe_obeys (hg : Guarded R.mux req draw h) :
    (subscribe h).Obeys (R.protocol req) (R.Handled req draw .subscribe)
      { Stage.start with admitted := some true } := by
  have hinvalid : (400, errorResponse "invalid request body") ∈ refusals := by simp [refusals]
  refine ⟨⟨rfl, rfl⟩, fun r => ?_⟩
  cases r with
  | error err =>
    exact ⟨told_refusal hg hinvalid (by decide) (fun h => nomatch h.1),
      rfl, fun _ => rfl, fun _ hbody => (nomatch hbody), fun hended => nomatch hended⟩
  | ok body =>
    refine ⟨⟨⟨body, rfl⟩, rfl⟩, fun eof => ?_⟩
    cases eof with
    | false =>
      exact ⟨told_refusal hg hinvalid (by decide) (fun h => nomatch h.1),
        rfl, fun _ => rfl, fun _ _ => rfl, fun hended => nomatch hended⟩
    | true =>
      refine ⟨⟨rfl, rfl, rfl, rfl⟩, fun r => ?_⟩
      cases r with
      | some err =>
        exact ⟨told_writeServiceError hg err (fun h => nomatch h.1),
          rfl, fun _ => rfl, fun _ _ => rfl, fun _ => rfl⟩
      | none =>
        exact ⟨told_done hg _ ⟨rfl, fun h => nomatch h⟩,
          rfl, fun _ => rfl, fun _ _ => rfl, fun _ => rfl⟩

/-- The limiter admits the request, or refuses it in the one text it has. -/
theorem visit_cases (rl : RateLimiter) (v : Option Visitor) (now later : Int) :
    (rl.visit v now later).1 = .next ∨ ∃ retryAfter, (rl.visit v now later).1 =
      .tooManyRequests "application/json" retryAfter "rate limit exceeded" := by
  unfold RateLimiter.visit
  cases v with
  | none => exact .inl rfl
  | some v =>
    dsimp only
    split_ifs
    · exact .inl rfl
    · exact .inr ⟨_, rfl⟩
    · exact .inl rfl

/-- A request over the limit does not reach the handler. -/
theorem limit_obeys (hg : Guarded R.mux req draw h) (hfor : R.mux.IsFor req .subscribe) :
    (R.limit req subscribe h).Obeys (R.protocol req) (R.Handled req draw .subscribe) .start := by
  refine ⟨⟨rfl, hfor, rfl⟩, fun r => ?_⟩
  obtain ⟨v, now, later⟩ := r
  change Prog.Obeys _ _ (match (R.limiter.visit v now later).1 with
    | .next => subscribe h
    | .tooManyRequests _ _ _ => _) { Stage.start with
      admitted := some (decide ((R.limiter.visit v now later).1 = ReleaseNotifier.Response.next)) }
  rcases visit_cases R.limiter v now later with hnext | ⟨retryAfter, hrefused⟩
  · rw [hnext]
    exact subscribe_obeys R req hg
  · rw [hrefused]
    refine ⟨⟨(hg.set (by decide) _).set (by decide) _, fun _ => ?_⟩,
      rfl, fun hadmitted => (nomatch hadmitted), fun _ hbody => (nomatch hbody),
      fun hended => nomatch hended⟩
    exact ⟨iff_of_false (by simp) (fun h => nomatch h.1), fun _ => by simp [refusals]⟩

/-- Either link, given that the request may ask what it asks. -/
theorem link_obeys (hg : Guarded R.mux req draw h) {token : Bytes} (htoken : token ≠ [])
    (done : String) {ask : Bytes → P (Option Err)} (hask : (ask token).Obeys (R.protocol req)
      (fun r q => q = { Stage.start with asked := some r }) .start) :
    (link ask done h token).Obeys (R.protocol req)
      (fun resp q => Told R.mux req draw resp q ∧ q.asked.isSome) .start := by
  rw [link, if_neg htoken]
  refine hask.bind (fun r q hq => ?_)
  subst hq
  cases r with
  | some err => exact ⟨told_writeServiceError hg err (fun h => nomatch h.1), rfl⟩
  | none => exact ⟨told_done hg _ ⟨rfl, fun h => nomatch h⟩, rfl⟩

/-- `List` behind `APIKeyAuth`. -/
theorem list_obeys (hg : Guarded R.mux req draw h) (hfor : R.mux.IsFor req .subscriptions) :
    (R.apiKeyAuth req (fun h => list h req.email) h).Obeys (R.protocol req)
      (R.Handled req draw .subscriptions) .start := by
  have hnone : ¬ Stage.start.Succeeded := fun h => nomatch h.1
  unfold Router.apiKeyAuth list
  split_ifs with hkey hsum hemail
  · exact ⟨told_refusal hg (by simp [refusals]) (by decide) hnone,
      fun hauth => absurd hkey hauth.1, fun hlisted => nomatch hlisted⟩
  · exact ⟨told_refusal hg (by simp [refusals]) (by decide) hnone,
      fun hauth => absurd hauth.2 hsum, fun hlisted => nomatch hlisted⟩
  · exact ⟨told_refusal hg (by simp [refusals]) (by decide) hnone,
      fun _ hne => absurd hemail hne, fun hlisted => nomatch hlisted⟩
  · refine ⟨⟨rfl, hfor, ⟨hkey, not_not.mp hsum⟩, rfl, hemail⟩, fun r => ?_⟩
    cases r with
    | error err =>
      exact ⟨told_writeServiceError hg err (fun h => nomatch h.1), fun _ _ => rfl,
        fun hlisted => nomatch hlisted⟩
    | ok subs =>
      refine ⟨⟨rfl, rfl⟩, fun r => ?_⟩
      cases r with
      | none =>
        exact ⟨told_refusal hg (by simp [refusals]) (by decide) (fun h => h.2 rfl),
          fun _ _ => rfl, fun _ => rfl⟩
      | some body =>
        exact ⟨told_done hg body ⟨rfl, fun h => nomatch h⟩, fun _ _ => rfl, fun _ => rfl⟩

/-- The health check reports what its checker says, and 503 without one. -/
theorem health_obeys (hg : Guarded R.mux req draw h) (hfor : R.mux.IsFor req .health) :
    (R.health h).Obeys (R.protocol req) (R.Handled req draw .health) .start := by
  have helse : ¬ apiPath <+: R.mux.routePath req.url := by rw [hfor.1]; decide
  unfold Router.health
  dsimp only
  split_ifs with hchecker
  · refine ⟨⟨rfl, hfor, hchecker⟩, fun r => ?_⟩
    cases r with
    | some err =>
      exact ⟨told_elsewhere (hg.writeJSON _ _) helse, fun _ => rfl,
        iff_of_false (by simp [respond, writeJSON]) (fun h => nomatch h)⟩
    | none =>
      exact ⟨told_elsewhere (hg.writeJSON _ _) helse, fun _ => rfl, iff_of_true rfl rfl⟩
  · exact ⟨told_elsewhere (hg.writeJSON _ _) helse, fun h => absurd h hchecker,
      iff_of_false (by simp [respond, writeJSON]) (fun h => nomatch h)⟩

/-- The handler of every route. -/
theorem handle_obeys (hg : Guarded R.mux req draw h) {route : Route}
    (hfor : R.mux.IsFor req route) :
    (R.handle req h route).Obeys (R.protocol req) (R.Handled req draw route) .start := by
  have hset : ∀ value, Guarded R.mux req draw (h.set "Content-Type" value) :=
    fun value => hg.set (by decide) value
  cases route with
  | root => exact ⟨told_elsewhere (hset _) (by rw [hfor.1]; decide), trivial⟩
  | health => exact health_obeys R req hg hfor
  | swagger | metrics =>
    exact ⟨⟨rfl, hfor⟩, fun r => ⟨told_elsewhere (hset _) (by rw [hfor.1]; decide), trivial⟩⟩
  | subscribe => exact limit_obeys R req hg hfor
  | confirm token | unsubscribe token =>
    dsimp only [Router.handle, confirm, unsubscribe]
    refine link_obeys R req hg hfor.1.2.1 _ ?_
    exact ⟨⟨rfl, hfor⟩, fun _ => rfl⟩
  | subscriptions => exact list_obeys R req hg hfor

/-- What the router answers by itself is a refusal, and nothing was asked for. -/
theorem told_refuse (hm : R.mux.Lawful) (hg : Guarded R.mux req draw h) :
    Told R.mux req draw (R.mux.refuse req h) .start := by
  have hrefused := hm.refused req h
  refine ⟨hg.refuse hm, fun _ => ⟨iff_of_false (fun hstatus => ?_) (fun h => nomatch h.1),
    fun _ => ?_⟩⟩
  · rw [hstatus] at hrefused
    simp at hrefused
  · simp only [List.mem_cons, List.not_mem_nil, or_false] at hrefused
    rcases hrefused with heq | heq <;> simp [heq, refusals]

/-- A request for a route gets as far as one that was given to its handler: it was, but for the
route that takes any method, of which nothing is asked. -/
theorem serves_of_isFor (hm : R.mux.Lawful) {resp : Response} {q : Stage} {route : Route}
    (hfor : R.mux.IsFor req route)
    (h : ∀ route', R.mux.dispatch req = some route' → R.Serves req resp q route') :
    R.Serves req resp q route := by
  cases hmethod : route.method? with
  | some method => exact h route (hm.all req route hfor (by rw [hmethod]; rfl))
  | none =>
    cases route with
    | metrics => trivial
    | _ => cases hmethod

/-- **Every request is answered once**, by its route or with a refusal. -/
theorem routeHTTP_obeys (hm : R.mux.Lawful) (hg : Guarded R.mux req draw h) :
    (R.routeHTTP req h).Obeys (R.protocol req) (R.Report req draw) .start := by
  unfold Router.routeHTTP
  split
  · next route hroute =>
    refine (handle_obeys R req hg (hm.only req route hroute)).mono
      (fun resp q hdone => ⟨hdone.1, fun route' h' => ?_⟩)
    refine serves_of_isFor R req hm h' (fun route'' h'' => ?_)
    obtain rfl : route = route'' := Option.some.inj (hroute.symm.trans h'')
    exact hdone.2
  · next hroute =>
    refine ⟨told_refuse R req hm hg, fun route' h' => ?_⟩
    refine serves_of_isFor R req hm h' (fun route'' h'' => ?_)
    rw [hroute] at h''
    cases h''

/-- Whatever the limiter's table, the body, the service and the libraries answer, a request to
a router that keeps to its laws keeps to the protocol and gets as far as its route lets it: the
service is asked once, and exactly on the route, with the method, under the limit and with the
key that are required. The client is told the truth in one of the fixed texts: an API response
is a 200 exactly if the service did what was asked and its answer could be encoded, and is never
to be stored. -/
theorem requests_conform (hm : R.mux.Lawful) (draw : Vector UInt8 16) (peer : Peer Op Op.Res) :
    let out := (R.serveHTTP req draw).converse peer []
    (R.protocol req).Conforms .start out.2 ∧
      R.Report req draw out.1 ((R.protocol req).reach .start out.2) := by
  obtain ⟨more, hmore, hconf, hreport⟩ :=
    (routeHTTP_obeys R req hm (guarded_securityHeaders hm fun _ => none)).converse peer []
  rw [List.nil_append] at hmore
  rw [← hmore] at hconf hreport
  exact ⟨hconf, hreport⟩

end Serving

/-! ## A router that keeps to this -/

/-- The value of a last segment `{token}` after `start`: up to the end, and not empty. -/
def token? (start path : Bytes) : Option Bytes :=
  if start <+: path ∧ path.drop start.length ≠ [] ∧ 0x2f ∉ path.drop start.length then
    some (path.drop start.length)
  else none

/-- The patterns of `NewRouter`. -/
def route? (path : Bytes) : Option Route :=
  if path = utf8 "/" then some .root
  else if path = utf8 "/health" then some .health
  else if path = utf8 "/swagger.yaml" then some .swagger
  else if path = utf8 "/metrics" then some .metrics
  else if path = utf8 "/api/subscribe" then some .subscribe
  else if path = utf8 "/api/subscriptions" then some .subscriptions
  else
    ((token? (utf8 "/api/confirm/") path).map .confirm).or
      ((token? (utf8 "/api/unsubscribe/") path).map .unsubscribe)

/-- `http.NotFound`. -/
def notFound (h : Header) : Response :=
  ⟨404, (h.set "Content-Type" (utf8 "text/plain; charset=utf-8")).set "X-Content-Type-Options"
    (utf8 "nosniff"), utf8 "404 page not found\n"⟩

theorem token?_eq_some {start path token : Bytes} :
    token? start path = some token ↔ path = start ++ token ∧ token ≠ [] ∧ 0x2f ∉ token := by
  unfold token?
  constructor
  · intro h
    split at h
    · next hcond =>
      obtain ⟨⟨rest, rfl⟩, hne, hslash⟩ := hcond
      rw [List.drop_left] at h hne hslash
      cases h
      exact ⟨rfl, hne, hslash⟩
    · cases h
  · rintro ⟨rfl, hne, hslash⟩
    rw [List.drop_left, if_pos ⟨List.prefix_append _ _, hne, hslash⟩]

theorem route?_at {path : Bytes} {route : Route} (h : route? path = some route) :
    route.At path := by
  unfold route? at h
  split_ifs at h with h1 h2 h3 h4 h5 h6
  · cases h; exact h1
  · cases h; exact h2
  · cases h; exact h3
  · cases h; exact h4
  · cases h; exact h5
  · cases h; exact h6
  · rcases Option.or_eq_some_iff.mp h with h | ⟨-, h⟩
    all_goals
      obtain ⟨token, htoken, rfl⟩ := Option.map_eq_some_iff.mp h
      exact token?_eq_some.mp htoken

/-- The patterns without a token. -/
def fixedPaths : List Bytes :=
  [utf8 "/", utf8 "/health", utf8 "/swagger.yaml", utf8 "/metrics", utf8 "/api/subscribe",
    utf8 "/api/subscriptions"]

/-- A path with a token is none of the fixed ones. -/
theorem route?_append {start : Bytes} (hfixed : ∀ path ∈ fixedPaths, ¬ start <+: path)
    (token : Bytes) : route? (start ++ token) =
      ((token? (utf8 "/api/confirm/") (start ++ token)).map .confirm).or
        ((token? (utf8 "/api/unsubscribe/") (start ++ token)).map .unsubscribe) := by
  have hne : ∀ path ∈ fixedPaths, start ++ token ≠ path :=
    fun path hpath heq => hfixed path hpath ⟨token, heq⟩
  simp only [fixedPaths, List.forall_mem_cons] at hne
  obtain ⟨h1, h2, h3, h4, h5, h6, -⟩ := hne
  simp only [route?, h1, h2, h3, h4, h5, h6, if_false]

/-- The patterns do not overlap, so the order they are tried in does not matter. -/
theorem route?_eq_some {path : Bytes} {route : Route} :
    route? path = some route ↔ route.At path := by
  refine ⟨route?_at, fun hat => ?_⟩
  cases route with
  | confirm token =>
    obtain ⟨rfl, htoken⟩ := hat
    rw [route?_append (by decide), token?_eq_some.mpr ⟨rfl, htoken⟩]
    rfl
  | unsubscribe token =>
    obtain ⟨rfl, htoken⟩ := hat
    have hother : token? (utf8 "/api/confirm/") (utf8 "/api/unsubscribe/" ++ token) = none := by
      rw [token?, if_neg]
      rintro ⟨hstart, -⟩
      exact absurd (List.prefix_of_prefix_length_le hstart (List.prefix_append _ token) (by decide))
        (by decide)
    rw [route?_append (by decide), hother, token?_eq_some.mpr ⟨rfl, htoken⟩]
    rfl
  | _ => cases hat; rfl

/-- The path to route on. -/
def patternPath (u : Url) : Bytes :=
  if u.rawPath ≠ [] then u.rawPath else if u.path = [] then utf8 "/" else u.path

/-- The patterns tried one by one. -/
def patternMux : Mux where
  routePath := patternPath
  dispatch req :=
    (route? (patternPath req.url)).filter fun route => route.method?.all (· == req.method)
  refuse _ h := notFound h

/-- The reference router matches exactly the routes' patterns. -/
theorem patternMux_dispatch {req : Request} {route : Route} :
    patternMux.dispatch req = some route ↔ patternMux.IsFor req route := by
  have hmethod : route.method?.all (· == req.method) = true ↔
      ∀ method ∈ route.method?, req.method = method := by
    rw [Option.all_eq_true]
    exact forall₂_congr fun method _ => beq_iff_eq.trans eq_comm
  rw [Mux.IsFor, ← route?_eq_some, ← hmethod]
  exact Option.filter_eq_some_iff

/-- The laws of `go-chi` can be kept. -/
theorem patternMux_lawful : patternMux.Lawful where
  raw u hraw := if_pos hraw
  decoded u hraw := if_neg (not_not.mpr hraw)
  only _ _ := patternMux_dispatch.mp
  all _ _ hfor _ := patternMux_dispatch.mpr hfor
  refused req h := List.mem_cons_self
  kept req h key hkey := by
    by_cases hsniff : key = "X-Content-Type-Options"
    · subst hsniff
      exact .inr ⟨rfl, by simp [patternMux, notFound]⟩
    · have htype : key ≠ "Content-Type" := by
        rintro rfl
        exact hkey (by decide)
      exact .inl (by simp [patternMux, notFound, hsniff, htype])

/-- A service that fails whatever it is asked with the same error. -/
def failing (s : Sentinel) : Peer Op Op.Res := fun _ o =>
  match o with
  | .visitor _ => (none, 0, 0)
  | .decode => .ok (utf8 "a@b.c", utf8 "o/n")
  | .decodeExtra => true
  | .subscribe _ _ | .confirm _ | .unsubscribe _ | .check => some (.sentinel s)
  | .getSubscriptions _ => .error (.sentinel s)
  | .encode _ => none
  | .serveFile | .scrape => (404, [], [])

/-- A link that is followed. -/
def followed : Request :=
  ⟨"GET", ⟨utf8 "/api/confirm/t", [], fun h => absurd rfl h⟩, ⟨[], []⟩, [], [], ⟨[], [], []⟩⟩

/-- The link of a token that is gone: the laws hold of the router, and so the request conforms. -/
theorem requests_conform_followed :
    let R : Router := ⟨patternMux, [], ⟨5, 60, false⟩, false, id⟩
    let draw := Vector.replicate 16 1
    let out := (R.serveHTTP followed draw).converse (failing .errTokenNotFound) []
    patternMux.Lawful ∧ out.1.status = 404 ∧ (R.protocol followed).Conforms .start out.2 ∧
      R.Report followed draw out.1 ((R.protocol followed).reach .start out.2) :=
  ⟨patternMux_lawful, by decide, requests_conform _ _ patternMux_lawful _ _⟩

/-! ## What a refusal reveals -/

/-- A token that never was, or one that is no longer good, as the first thing wrong. -/
def InvalidToken (err : Err) : Prop :=
  (∀ s ∈ [.errInvalidRepo, .errInvalidEmail, .errRepoNotFound, .errAlreadyExists,
      .errEmailSendFailed], err.is s = false) ∧
    (err.is .errTokenNotFound = true ∨ err.is .errSubscriptionInactive = true)

/-- Errors no client can tell apart: the mapped sentinels are the same in both, or both are
about a token. -/
def Indistinct (err err' : Err) : Prop :=
  (∀ m ∈ serviceErrorMappings, err.is m.sentinel = err'.is m.sentinel) ∨
    (InvalidToken err ∧ InvalidToken err')

/-- Two failures of the service that are to look the same. -/
def SameFailure : Option Err → Option Err → Prop
  | some err, some err' => Indistinct err err'
  | _, _ => False

/-- Answers the client is not to learn the difference of. -/
def Unrevealed : (o : Op) → o.Res → o.Res → Prop
  | .subscribe _ _, r, r' | .confirm _, r, r' | .unsubscribe _, r, r' => SameFailure r r'
  | .getSubscriptions _, r, r' => SameFailure (errorOf r) (errorOf r')
  -- of a body that cannot be read, and of a failed check, nothing is passed on
  | .decode, r, r' => (errorOf r).isSome ∧ (errorOf r').isSome
  | .check, r, r' => r.isSome ∧ r'.isSome
  | _, _, _ => False

section Revealing

variable (R : Router) (req : Request) {h : Header}

theorem InvalidToken.writeServiceError {err : Err} (herr : InvalidToken err) (h : Header) :
    writeServiceError h err = respondError h 404 "invalid or expired token" := by
  obtain ⟨hothers, htoken⟩ := herr
  simp only [List.forall_mem_cons] at hothers
  obtain ⟨h1, h2, h3, h4, h5, -⟩ := hothers
  unfold Rest.writeServiceError
  rcases hfound : err.is .errTokenNotFound with _ | _
  · have hinactive := htoken.resolve_left (by simp [hfound])
    simp [serviceErrorMappings, h1, h2, h3, h4, h5, hfound, hinactive]
  · simp [serviceErrorMappings, h1, h2, h3, h4, h5, hfound]

/-- Errors that a client must not tell apart are answered alike. -/
theorem Indistinct.writeServiceError {err err' : Err} (hind : Indistinct err err') (h : Header) :
    writeServiceError h err = writeServiceError h err' := by
  rcases hind with hsame | ⟨htoken, htoken'⟩
  · rw [Rest.writeServiceError, Rest.writeServiceError, List.find?_congr hsame]
  · rw [htoken.writeServiceError, htoken'.writeServiceError]

/-- A program that ends with what it makes of an answer of the service. -/
theorem settles_of_answer {k : Option Err → P Response} {done : Response}
    (hk : ∀ r, k r = .ret (r.elim done (writeServiceError h))) :
    (∀ r, (k r).Settles Unrevealed) ∧
      ∀ r r', SameFailure r r' → ∃ a, k r = .ret a ∧ k r' = .ret a := by
  refine ⟨fun r => by rw [hk]; trivial, fun r r' hsame => ?_⟩
  match r, r', hsame with
  | some err, some err', hind =>
    refine ⟨writeServiceError h err, hk _, ?_⟩
    rw [hk, hind.writeServiceError h]
    rfl

theorem subscribe_settles : (subscribe h).Settles Unrevealed := by
  refine ⟨fun r => ?_, fun r r' hsame => ?_⟩
  · cases r with
    | error err => trivial
    | ok body =>
      refine ⟨fun eof => ?_, fun _ _ hsame => hsame.elim⟩
      cases eof with
      | false => trivial
      | true => exact settles_of_answer (fun r => by cases r <;> rfl)
  · match r, r', hsame with
    | .error _, .error _, _ => exact ⟨_, rfl, rfl⟩

theorem list_settles (email : Bytes) : (list h email).Settles Unrevealed := by
  unfold list
  split
  · trivial
  · refine ⟨fun r => ?_, fun r r' hsame => ?_⟩
    · cases r with
      | error err => trivial
      | ok subs => exact ⟨fun _ => trivial, fun _ _ hsame => hsame.elim⟩
    · match r, r', hsame with
      | .error err, .error err', hind =>
        exact ⟨_, rfl, congrArg Prog.ret (Indistinct.writeServiceError hind h).symm⟩

theorem handle_settles (route : Route) : (R.handle req h route).Settles Unrevealed := by
  cases route with
  | root => trivial
  | health =>
    change (R.health h).Settles _
    unfold Router.health
    dsimp only
    split
    · refine ⟨fun r => by cases r <;> trivial, fun r r' hsame => ?_⟩
      match r, r', hsame with
      | some _, some _, _ => exact ⟨_, rfl, rfl⟩
    · trivial
  | swagger | metrics => exact ⟨fun _ => trivial, fun _ _ hsame => hsame.elim⟩
  | subscribe =>
    refine ⟨fun r => ?_, fun _ _ hsame => hsame.elim⟩
    obtain ⟨v, now, later⟩ := r
    change Prog.Settles _ (match (R.limiter.visit v now later).1 with
      | .next => subscribe h
      | .tooManyRequests _ _ _ => _)
    split
    · exact subscribe_settles
    · trivial
  | confirm token | unsubscribe token =>
    dsimp only [Router.handle, confirm, unsubscribe, link]
    split
    · trivial
    · exact settles_of_answer (fun r => by cases r <;> rfl)
  | subscriptions =>
    change (R.apiKeyAuth req (fun h => list h req.email) h).Settles _
    unfold Router.apiKeyAuth
    split_ifs
    · trivial
    · trivial
    · exact list_settles req.email

/-- Whatever the route, the answer reveals no more. -/
theorem routeHTTP_settles : (R.routeHTTP req h).Settles Unrevealed := by
  unfold Router.routeHTTP
  split
  · next route _ => exact handle_settles R req route
  · trivial

/-- Of the errors behind a refusal a client learns no more than the class: where two runs
differ in the failure of the service only, and the two failures have the same mapped
sentinels or are both about the token, the responses are the same to the last header. In
particular a link tells nobody whether its token ever existed. -/
theorem responses_reveal_no_more (draw : Vector UInt8 16) {peer peer' : Peer Op Op.Res}
    (hpeers : ∀ log o, peer log o = peer' log o ∨ Unrevealed o (peer log o) (peer' log o)) :
    ((R.serveHTTP req draw).converse peer []).1 =
      ((R.serveHTTP req draw).converse peer' []).1 :=
  (routeHTTP_settles R req).converse_eq hpeers []

theorem failing_unrevealed (o : Op) :
    failing .errTokenNotFound [] o = failing .errSubscriptionInactive [] o ∨
      Unrevealed o (failing .errTokenNotFound [] o) (failing .errSubscriptionInactive [] o) := by
  have hind : Indistinct (.sentinel .errTokenNotFound) (.sentinel .errSubscriptionInactive) :=
    .inr ⟨⟨by decide, .inl rfl⟩, by decide, .inr rfl⟩
  cases o with
  | subscribe | confirm | unsubscribe | getSubscriptions => exact .inr hind
  | check => exact .inr ⟨rfl, rfl⟩
  | _ => exact .inl rfl

/-- An unknown token and an inactive subscription look the same. -/
theorem responses_reveal_no_more_sample :
    let R : Router := ⟨patternMux, [], ⟨5, 60, false⟩, false, id⟩
    let draw := Vector.replicate 16 1
    ((R.serveHTTP followed draw).converse (failing .errTokenNotFound) []).1.status = 404 ∧
      ((R.serveHTTP followed draw).converse (failing .errTokenNotFound) []).1 =
        ((R.serveHTTP followed draw).converse (failing .errSubscriptionInactive) []).1 :=
  ⟨by decide, responses_reveal_no_more _ _ _ (fun _ o => failing_unrevealed o)⟩

end Revealing

end ReleaseNotifier.Rest
