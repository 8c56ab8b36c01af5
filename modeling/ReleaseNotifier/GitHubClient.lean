/-
The calls of `internal/client/github/client.go`: a request, its retries after a 429,
and what becomes of the responses.

GitHub may answer anything, the transport may fail and the context may end anywhere:
they are one arbitrary `Peer`. `Retry` says how long one wait is and `GitHubPaths` where
a request goes; here it is the loop around both, as a protocol. `httpClient.Do` is called
at most four times and every time but the first after the wait for the 429 before it; the
redirects it follows are inside one such call. A body is read only while it is open, and
closed, once, before anything else is asked.
What a call reports is what the last response says: "no such repository" is a 404,
never a failure.
-/
import ReleaseNotifier.Conc.Dialogue
import ReleaseNotifier.GitHubPaths
import ReleaseNotifier.Poller
import ReleaseNotifier.Retry
import ReleaseNotifier.Tracectx

set_option autoImplicit false

namespace ReleaseNotifier.GitHub.Http

open Conc

/-! ## Operations -/

/-- What `doRequest` sets of a request; the method is `GET` and the body empty. -/
structure Request where
  url : Bytes
  accept : Bytes
  authorization : Option Bytes
  xRequestID : Option Bytes
  traceparent : Option Bytes
  deriving DecidableEq

/-- A response: its status, the headers that are read, and its body, which is not closed. -/
structure Response where
  statusCode : Nat
  header : RetryHeaders
  body : Nat
  deriving DecidableEq

inductive Op
  /-- `http.NewRequestWithContext`. -/
  | newRequest (rawURL : Bytes)
  /-- The spans `tracectx.Traceparent` draws. -/
  | spans
  /-- `httpClient.Do`. -/
  | send (req : Request)
  | close (body : Nat)
  /-- `time.Now`, by way of `time.Until`. -/
  | now
  /-- The `select`: the context ended, or the time is over. -/
  | sleep (wait : Int)
  /-- `json.NewDecoder(resp.Body).Decode(&rel)`. -/
  | decode (body : Nat)

abbrev Op.Res : Op → Type
  | .newRequest _ => Except Err Unit
  | .spans => Tracectx.SpanDraws
  | .send _ => Except Err Response
  | .close _ => Unit
  | .now => Time
  | .sleep _ => Except Err Unit
  | .decode _ => Except Err Poller.Release

abbrev P (α : Type) := Prog Op Op.Res α

/-! ## `client.go` -/

/-- `maxRetries`. -/
def maxRetries : Nat := 3

/-- `http.StatusTooManyRequests`. -/
def statusTooManyRequests : Nat := 429

/-- `Client`, as `NewClient` makes it. -/
structure Client where
  token : Bytes

/-- The headers `doRequest` sets. -/
def Client.request (c : Client) (ctx : Context) (rawURL : Bytes) : P Request := do
  let req : Request :=
    { url := rawURL
      accept := utf8 "application/vnd.github.v3+json"
      authorization := if c.token ≠ [] then some (utf8 "Bearer " ++ c.token) else none
      xRequestID := none
      traceparent := none }
  match ctx.traceID with
  | none => return req
  | some traceID =>
    if Tracectx.isValidID (utf8 traceID) then
      let draws ← Prog.perform Op.spans
      return { req with
        xRequestID := some (utf8 traceID)
        traceparent := Tracectx.traceparent (utf8 traceID) draws }
    else return req

/-- The loop of `doRequest`, with this many rounds left. -/
def Client.attempts (c : Client) (ctx : Context) (rawURL : Bytes) :
    Nat → Nat → P (Except Err Response)
  | 0, _ => return .error (.text "GitHub rate limit exceeded")
  | left + 1, attempt => do
    match ← Prog.perform (Op.newRequest rawURL) with
    | .error err => return .error (.wrap "building GitHub request" err)
    | .ok () =>
      let req ← c.request ctx rawURL
      match ← Prog.perform (Op.send req) with
      | .error err => return .error (.wrap "executing GitHub request" err)
      | .ok resp =>
        if resp.statusCode ≠ statusTooManyRequests then return .ok resp
        else
          Prog.perform (Op.close resp.body)
          if attempt = maxRetries then
            return .error (.text ("GitHub rate limit exceeded after " ++ toString maxRetries ++ " retries"))
          else
            let now ← Prog.perform Op.now
            match ← Prog.perform (Op.sleep (HeaderAwareRetry.nextWait resp.header now attempt)) with
            | .error err => return .error (.wrap "waiting for rate limit reset" err)
            | .ok () => c.attempts ctx rawURL left (attempt + 1)

/-- `doRequest`. -/
def Client.doRequest (c : Client) (ctx : Context) (rawURL : Bytes) : P (Except Err Response) :=
  c.attempts ctx rawURL (maxRetries + 1) 0

/-- What `RepoExists` makes of a response. -/
def existsResult (statusCode : Nat) : Except Err Bool :=
  if statusCode = 200 then .ok true
  else if statusCode = 404 then .ok false
  else .error (.text ("unexpected status code: " ++ toString statusCode))

/-- `RepoExists`; the body is closed on the way out. -/
def Client.repoExists (c : Client) (ctx : Context) (owner name : Bytes) : P (Except Err Bool) := do
  match ← c.doRequest ctx (repoURL owner name) with
  | .error err => return .error err
  | .ok resp =>
    Prog.perform (Op.close resp.body)
    return existsResult resp.statusCode

/-- `GetLatestRelease`; the body is closed on the way out. -/
def Client.getLatestRelease (c : Client) (ctx : Context) (owner name : Bytes) :
    P (Except Err (Option Poller.Release)) := do
  match ← c.doRequest ctx (releaseURL owner name) with
  | .error err => return .error err
  | .ok resp =>
    if resp.statusCode = 404 then
      Prog.perform (Op.close resp.body)
      return .ok none
    else if resp.statusCode ≠ 200 then
      Prog.perform (Op.close resp.body)
      return .error (.text ("unexpected status code: " ++ toString resp.statusCode))
    else
      match ← Prog.perform (Op.decode resp.body) with
      | .error err =>
        Prog.perform (Op.close resp.body)
        return .error (.wrap "decoding release" err)
      | .ok rel =>
        Prog.perform (Op.close resp.body)
        return .ok (some rel)

/-! ## The protocol -/

/-- What a call has done so far. -/
structure Stage where
  /-- The calls of `httpClient.Do`. -/
  requests : Nat
  /-- What the last of them came to. -/
  last : Option (Except Err Response)
  /-- The body that is still to be closed. -/
  unclosed : Option Nat
  /-- A request may be sent: it is the first, or the wait after a 429 is over. -/
  rested : Bool
  /-- The clock as last read. -/
  clock : Option Time
  /-- What the last body was decoded to. -/
  decoded : Option (Except Err Poller.Release)

def Stage.start : Stage := ⟨0, none, none, true, none, none⟩

/-- The request is the one for this URL, with the token where there is one, and with
trace headers only for a valid id. -/
def Client.Makes (c : Client) (rawURL : Bytes) (req : Request) : Prop :=
  req.url = rawURL ∧
    req.authorization = (if c.token ≠ [] then some (utf8 "Bearer " ++ c.token) else none) ∧
    ∀ id, req.xRequestID = some id → Tracectx.isValidID id = true

/-- What a call may do. -/
def Client.Allows (c : Client) (rawURL : Bytes) (q : Stage) : Op → Prop
  | .newRequest url => url = rawURL ∧ q.unclosed = none
  | .spans => q.unclosed = none
  | .send req => c.Makes rawURL req ∧ q.unclosed = none ∧ q.requests ≤ maxRetries ∧ q.rested = true
  | .close body => q.unclosed = some body
  | .now => True
  | .sleep wait => q.unclosed = none ∧ ∃ resp now, q.last = some (.ok resp) ∧
      resp.statusCode = statusTooManyRequests ∧ q.clock = some now ∧
      wait = HeaderAwareRetry.nextWait resp.header now ((q.requests : Int) - 1)
  | .decode body => q.unclosed = some body

def Stage.next (q : Stage) : (o : Op) → o.Res → Stage
  | .newRequest _, _ => q
  | .spans, _ => q
  | .send _, r =>
    { q with
      requests := q.requests + 1
      last := some r
      unclosed := r.toOption.map Response.body
      rested := false }
  | .close _, _ => { q with unclosed := none }
  | .now, t => { q with clock := some t }
  | .sleep _, .ok _ => { q with rested := true }
  | .sleep _, .error _ => q
  | .decode _, r => { q with decoded := some r }

def Client.protocol (c : Client) (rawURL : Bytes) : Protocol Op Op.Res Stage :=
  ⟨c.Allows rawURL, Stage.next⟩

/-! ## `doRequest` -/

section Requests

variable {c : Client} {rawURL : Bytes} {q : Stage} (ctx : Context)

/-- Every request carries the client's headers. -/
theorem request_obeys (hq : q.unclosed = none) :
    (c.request ctx rawURL).Obeys (c.protocol rawURL)
      (fun req q' => c.Makes rawURL req ∧ q' = q) q := by
  unfold Client.request
  cases ctx.traceID with
  | none => exact ⟨⟨rfl, rfl, fun id hid => by cases hid⟩, rfl⟩
  | some traceID =>
    dsimp only
    split
    · next hvalid =>
      refine ⟨hq, fun draws => ⟨⟨rfl, rfl, ?_⟩, rfl⟩⟩
      rintro id ⟨⟩
      exact hvalid
    · exact ⟨⟨rfl, rfl, fun id hid => by cases hid⟩, rfl⟩

/-- What `doRequest` returns: a response that is no 429, with its body open, or an error
and nothing open. -/
def Answered : Except Err Response → Stage → Prop :=
  Prog.OnResult
    (fun resp q => q.last = some (.ok resp) ∧ resp.statusCode ≠ statusTooManyRequests ∧
      q.unclosed = some resp.body ∧ q.requests ≤ maxRetries + 1)
    (fun _ q => q.unclosed = none ∧ q.requests ≤ maxRetries + 1 ∧
      ∀ resp, q.last = some (.ok resp) → resp.statusCode = statusTooManyRequests)

/-- The rounds of the loop: before each the request has been sent once for every round so
far, and all that came of it was a 429. -/
theorem attempts_obeys (left attempt : Nat) (hrounds : attempt + left = maxRetries + 1)
    (hcount : q.requests = attempt) (hq : q.unclosed = none) (hrested : q.rested = true)
    (hlast : ∀ resp, q.last = some (.ok resp) → resp.statusCode = statusTooManyRequests) :
    (c.attempts ctx rawURL left attempt).Obeys (c.protocol rawURL) Answered q := by
  induction left generalizing attempt q with
  | zero =>
    exact ⟨hq, by omega, hlast⟩
  | succ left ih =>
    have hsent : q.requests ≤ maxRetries := by omega
    refine ⟨⟨rfl, hq⟩, fun r => ?_⟩
    cases r with
    | error err => exact ⟨hq, Nat.le_succ_of_le hsent, hlast⟩
    | ok _ =>
      refine (request_obeys ctx hq).bind (fun req q' h => ?_)
      obtain ⟨hmakes, rfl⟩ := h
      refine ⟨⟨hmakes, hq, hsent, hrested⟩, fun r => ?_⟩
      cases r with
      | error err => exact ⟨rfl, Nat.succ_le_succ hsent, fun resp h => by cases h⟩
      | ok resp =>
        change Prog.Obeys _ _ (ite _ _ _) _
        split
        · next hstatus => exact ⟨rfl, hstatus, rfl, Nat.succ_le_succ hsent⟩
        · next hstatus =>
          have hlimited : ∀ resp', some (Except.ok resp) = some (Except.ok resp' : Except Err Response) →
              resp'.statusCode = statusTooManyRequests := by
            rintro resp' ⟨⟩
            exact not_not.mp hstatus
          refine ⟨rfl, fun _ => ?_⟩
          change Prog.Obeys _ _ (ite _ _ _) _
          split
          · exact ⟨rfl, Nat.succ_le_succ hsent, hlimited⟩
          · next hmore =>
            refine ⟨trivial, fun now => ⟨⟨rfl, resp, now, rfl, not_not.mp hstatus, rfl, ?_⟩, fun r => ?_⟩⟩
            · change _ = HeaderAwareRetry.nextWait resp.header now (((q'.requests + 1 : Nat) : Int) - 1)
              rw [hcount, Int.natCast_succ, Int.add_sub_cancel]
            · cases r with
              | error err => exact ⟨rfl, Nat.succ_le_succ hsent, hlimited⟩
              | ok _ =>
                exact ih (attempt + 1) (by omega) (congrArg Nat.succ hcount) rfl rfl hlimited

/-- The body of a 429 is closed before the next request is sent. -/
theorem doRequest_obeys :
    (c.doRequest ctx rawURL).Obeys (c.protocol rawURL) Answered .start :=
  attempts_obeys ctx _ 0 (Nat.zero_add _) rfl rfl rfl (fun resp h => by cases h)

end Requests

/-! ## The two calls -/

section Calls

variable (c : Client) (ctx : Context) (owner name : Bytes)

/-- Everything a call opened is closed, and it called `httpClient.Do` at most four times. -/
def Stage.Finished (q : Stage) : Prop := q.unclosed = none ∧ q.requests ≤ maxRetries + 1

/-- The last request was answered with this status. -/
def Stage.LastStatus (q : Stage) (status : Nat) : Prop :=
  ∃ resp, q.last = some (.ok resp) ∧ resp.statusCode = status

/-- What `RepoExists` reports. -/
def ExistsReport (result : Except Err Bool) (q : Stage) : Prop :=
  q.Finished ∧ (result = .ok true ↔ q.LastStatus 200) ∧ (result = .ok false ↔ q.LastStatus 404)

/-- What `GetLatestRelease` reports. -/
def ReleaseReport (result : Except Err (Option Poller.Release)) (q : Stage) : Prop :=
  q.Finished ∧ (result = .ok none ↔ q.LastStatus 404) ∧
    ∀ rel, result = .ok (some rel) ↔ q.LastStatus 200 ∧ q.decoded = some (.ok rel)

/-- The status in the log is that of the last response. -/
theorem lastStatus_iff {q : Stage} {resp : Response} (h : q.last = some (.ok resp)) (status : Nat) :
    q.LastStatus status ↔ resp.statusCode = status := by
  constructor
  · rintro ⟨resp', h', hstatus⟩
    cases h.symm.trans h'
    exact hstatus
  · intro hstatus
    exact ⟨resp, h, hstatus⟩

/-- After an error of `doRequest` there is no answer to report. -/
theorem not_lastStatus {q : Stage} {status : Nat}
    (h : ∀ resp, q.last = some (.ok resp) → resp.statusCode = statusTooManyRequests)
    (hne : status ≠ statusTooManyRequests) : ¬ q.LastStatus status := by
  rintro ⟨resp, hlast, hstatus⟩
  exact hne (hstatus.symm.trans (h resp hlast))

/-- Only 200 and 404 are answers; any other status is an error. -/
theorem existsResult_iff (status : Nat) :
    (existsResult status = .ok true ↔ status = 200) ∧
      (existsResult status = .ok false ↔ status = 404) := by
  rw [existsResult]
  split
  · next h => simp [h]
  · next h =>
    split
    · next h' => simp [h']
    · next h' => simp [h, h']

/-- `RepoExists` closes its response on every path. -/
theorem repoExists_obeys :
    (c.repoExists ctx owner name).Obeys (c.protocol (repoURL owner name)) ExistsReport .start := by
  refine (doRequest_obeys ctx).bind_except (fun err q h => ?_) (fun resp q h => ?_)
  · obtain ⟨hopen, hcount, hlast⟩ := h
    exact ⟨⟨hopen, hcount⟩, iff_of_false (by simp) (not_lastStatus hlast (by decide)),
      iff_of_false (by simp) (not_lastStatus hlast (by decide))⟩
  · obtain ⟨hlast, -, hopen, hcount⟩ := h
    have hiff := lastStatus_iff (q := { q with unclosed := none }) hlast
    obtain ⟨htrue, hfalse⟩ := existsResult_iff resp.statusCode
    exact ⟨hopen, fun _ => ⟨⟨rfl, hcount⟩, htrue.trans (hiff 200).symm, hfalse.trans (hiff 404).symm⟩⟩

/-- So does `GetLatestRelease`, whether or not the body decodes. -/
theorem getLatestRelease_obeys :
    (c.getLatestRelease ctx owner name).Obeys (c.protocol (releaseURL owner name)) ReleaseReport
      .start := by
  refine (doRequest_obeys ctx).bind_except (fun err q h => ?_) (fun resp q h => ?_)
  · obtain ⟨hopen, hcount, hlast⟩ := h
    exact ⟨⟨hopen, hcount⟩, iff_of_false (by simp) (not_lastStatus hlast (by decide)), fun rel =>
      iff_of_false (by simp) (fun h => not_lastStatus hlast (by decide) h.1)⟩
  · obtain ⟨hlast, -, hopen, hcount⟩ := h
    dsimp only
    split
    · next hstatus =>
      have hiff := lastStatus_iff (q := { q with unclosed := none }) hlast
      refine ⟨hopen, fun _ => ⟨⟨rfl, hcount⟩, iff_of_true rfl ((hiff 404).mpr hstatus), fun rel =>
        iff_of_false (by simp) (fun h => ?_)⟩⟩
      exact absurd (hstatus.symm.trans ((hiff 200).mp h.1)) (by decide)
    · next hfound =>
      split
      · next hstatus =>
        have hiff := lastStatus_iff (q := { q with unclosed := none }) hlast
        exact ⟨hopen, fun _ => ⟨⟨rfl, hcount⟩,
          iff_of_false (by simp) (fun h => hfound ((hiff 404).mp h)), fun rel =>
            iff_of_false (by simp) (fun h => hstatus ((hiff 200).mp h.1))⟩⟩
      · next hstatus =>
        refine ⟨hopen, fun r => ?_⟩
        have hiff := lastStatus_iff (q := { q with decoded := some r, unclosed := none }) hlast
        have hok := (hiff 200).mpr (not_not.mp hstatus)
        have hno : ¬ Stage.LastStatus { q with decoded := some r, unclosed := none } 404 :=
          fun h => hfound ((hiff 404).mp h)
        cases r with
        | error err =>
          exact ⟨hopen, fun _ => ⟨⟨rfl, hcount⟩, iff_of_false (by simp) hno, fun rel =>
            iff_of_false (by simp) (fun h => by cases h.2)⟩⟩
        | ok found =>
          refine ⟨hopen, fun _ => ⟨⟨rfl, hcount⟩, iff_of_false (by simp) hno, fun rel => ?_⟩⟩
          constructor
          · rintro ⟨⟩
            exact ⟨hok, rfl⟩
          · rintro ⟨-, ⟨⟩⟩
            rfl

/-- Against any answers, failures and cancellations, both calls keep to the protocol (at
most four calls of `httpClient.Do`, each with the token and for the one URL, the retries
after the wait for the 429 before them), leave no body open, and report the last response:
a repository or a release is missing only on a 404. -/
theorem calls_conform (peer : Peer Op Op.Res) :
    (let out := (c.repoExists ctx owner name).converse peer [];
      (c.protocol (repoURL owner name)).Conforms .start out.2 ∧
        ExistsReport out.1 ((c.protocol (repoURL owner name)).reach .start out.2)) ∧
    (let out := (c.getLatestRelease ctx owner name).converse peer [];
      (c.protocol (releaseURL owner name)).Conforms .start out.2 ∧
        ReleaseReport out.1 ((c.protocol (releaseURL owner name)).reach .start out.2)) := by
  obtain ⟨more, hmore, hconf, hpost⟩ := (repoExists_obeys c ctx owner name).converse peer []
  obtain ⟨more', hmore', hconf', hpost'⟩ := (getLatestRelease_obeys c ctx owner name).converse peer []
  rw [List.nil_append] at hmore hmore'
  rw [← hmore] at hconf hpost
  rw [← hmore'] at hconf' hpost'
  exact ⟨⟨hconf, hpost⟩, hconf', hpost'⟩

/-- A server that is out of patience. -/
def refusing : Peer Op Op.Res := fun _ o =>
  match o with
  | .newRequest _ => .ok ()
  | .spans => ⟨[Vector.replicate 8 1], by decide⟩
  | .send _ => .ok ⟨429, ⟨[], []⟩, 7⟩
  | .close _ => ()
  | .now => ⟨0, 0⟩
  | .sleep _ => .ok ()
  | .decode _ => .error (.text "EOF")

example :
    let out := ((⟨[]⟩ : Client).repoExists ⟨none⟩ (utf8 "o") (utf8 "n")).converse refusing []
    out.1 = .error (.text "GitHub rate limit exceeded after 3 retries") ∧
      (Protocol.reach ((⟨[]⟩ : Client).protocol []) .start out.2).requests = 4 := by
  decide

end Calls

end ReleaseNotifier.GitHub.Http
