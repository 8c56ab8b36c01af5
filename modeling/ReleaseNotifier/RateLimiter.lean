/-
The rate limiter of the REST API, `internal/api/rest/middleware/ratelimit.go`.

One map holds a counter per client, and two kinds of critical section write it:
a request touches the entry of its own client, a tick of the clean-up deletes
whatever has expired. `limits_are_independent` says that a client cannot tell
that it shares the map: the answers to its requests are those it would have got
from a limiter of its own that is never cleaned up.

The clean-up is what makes this more than a frame argument. A deleted entry and
an expired one are different states; they are indistinguishable from then on
only because `Limit` and `cleanup` ask the same question, `now.After(resetAt)`,
and because the clock does not go back. `Matches` is that relation.

Times and durations are nanoseconds. The second clock reading of a request is
`time.Until`'s; it only goes into the `Retry-After` header.
-/
import ReleaseNotifier.Text.Strings
import ReleaseNotifier.Wire
import Mathlib.Data.List.Pairwise
import Mathlib.Logic.Function.Basic

set_option autoImplicit false

namespace ReleaseNotifier

open Text

/-! ## The client of a request -/

/-- The host of `net.SplitHostPort`, if there is no error. The port starts
after the last colon; a host with colons of its own stands in brackets. -/
def splitHostPort (hostport : Bytes) : Option Bytes :=
  let colon : UInt8 := 0x3a
  let opening : UInt8 := 0x5b
  let closing : UInt8 := 0x5d
  match hostport.reverse.span (· ≠ colon) with
  | (_, []) => none
  | (portReversed, _ :: before) =>
    let host := before.reverse
    if host.head? = some opening then
      let rest := host.tail
      -- the first closing bracket stands right before the last colon
      if rest.getLast? = some closing ∧ closing ∉ rest.dropLast ∧ opening ∉ rest ++ portReversed ∧
          closing ∉ portReversed then some rest.dropLast
      else none
    else if colon ∉ host ∧ opening ∉ hostport ∧ closing ∉ hostport then some host
    else none

/-- What the limiter reads of an `http.Request`: the first value of each
header, empty if there is none, and the peer's address. -/
structure Request where
  xForwardedFor : Bytes
  xRealIP : Bytes
  remoteAddr : Bytes
  deriving DecidableEq, Repr

/-- `visitor`. -/
structure Visitor where
  count : Int
  resetAt : Int
  deriving DecidableEq, Repr

/-- The fields of `RateLimiter` that do not change. -/
structure RateLimiter where
  limit : Int
  window : Int
  trustedProxy : Bool
  deriving DecidableEq, Repr

/-- The map `visitors`. -/
abbrev Visitors := Bytes → Option Visitor

/-- What `Limit` does with a request: the next handler serves it, or it is
answered at once, with these headers and this error. -/
inductive Response
  | next
  | tooManyRequests (contentType retryAfter error : String)
  deriving DecidableEq, Repr

/-- `time.Second`. -/
def second : Int := 1000000000

namespace RateLimiter

variable (rl : RateLimiter)

/-- `clientIP`. -/
def clientIP (r : Request) : Bytes :=
  if rl.trustedProxy ∧ r.xForwardedFor ≠ [] then
    -- `SplitN` at the first comma
    Strings.trimSpace (r.xForwardedFor.takeWhile (· ≠ 0x2c))
  else if rl.trustedProxy ∧ r.xRealIP ≠ [] then Strings.trimSpace r.xRealIP
  else (splitHostPort r.remoteAddr).getD r.remoteAddr

/-! ## The two critical sections -/

/-- What `Limit` makes of a client's entry: the answer, and the new entry. -/
def visit (v : Option Visitor) (now later : Int) : Response × Visitor :=
  match v with
  | none => (.next, ⟨1, now + rl.window⟩)
  | some v =>
    if v.resetAt < now then (.next, ⟨1, now + rl.window⟩)
    else if rl.limit ≤ v.count then
      (.tooManyRequests "application/json" (toString ((v.resetAt - later).tdiv second + 1))
        "rate limit exceeded", v)
    else (.next, ⟨v.count + 1, v.resetAt⟩)

/-- `Limit` under the mutex, for a request of client `ip`. -/
def serve (visitors : Visitors) (ip : Bytes) (now later : Int) : Response × Visitors :=
  ((rl.visit (visitors ip) now later).1,
    Function.update visitors ip (some (rl.visit (visitors ip) now later).2))

/-- One tick of `cleanup` under the mutex. -/
def cleanup (visitors : Visitors) (now : Int) : Visitors :=
  fun ip => (visitors ip).filter (fun v => decide (now ≤ v.resetAt))

/-- A critical section, with the clock readings it makes. -/
inductive Access
  | request (r : Request) (now later : Int)
  | tick (now : Int)
  deriving DecidableEq, Repr

/-- The reading that decides. -/
def Access.now : Access → Int
  | .request _ now _ => now
  | .tick now => now

/-- The answers of a run, each with the client it was given to. -/
def responses (visitors : Visitors) : List Access → List (Bytes × Response)
  | [] => []
  | .request r now later :: rest =>
    (rl.clientIP r, (rl.serve visitors (rl.clientIP r) now later).1) ::
      responses (rl.serve visitors (rl.clientIP r) now later).2 rest
  | .tick now :: rest => responses (cleanup visitors now) rest

/-- The access is a request of this client. -/
def Access.isFrom (ip : Bytes) : Access → Bool
  | .request r _ _ => decide (rl.clientIP r = ip)
  | .tick _ => false

/-! ## A client on its own -/

/-- From time `t` on, entry `a` is as good as entry `b`: it is the same one, or
it is gone and `b` has expired. -/
def Matches (t : Int) (a b : Option Visitor) : Prop :=
  a = b ∨ (a = none ∧ ∀ v, b = some v → v.resetAt < t)

variable {rl} {t now later : Int} {a b : Option Visitor}

theorem Matches.onward (h : Matches t a b) (ht : t ≤ now) : Matches now a b := by
  rcases h with h | ⟨hn, hexp⟩
  · exact .inl h
  · exact .inr ⟨hn, fun v hv => Int.lt_of_lt_of_le (hexp v hv) ht⟩

/-- A request cannot tell matching entries apart, and leaves the same one. -/
theorem visit_matches (h : Matches now a b) : rl.visit a now later = rl.visit b now later := by
  rcases h with rfl | ⟨rfl, hexp⟩
  · rfl
  · cases b with
    | none => rfl
    | some v =>
      have hlt : v.resetAt < now := hexp v rfl
      simp only [visit, if_pos hlt]

/-- The clean-up only deletes what has expired. -/
theorem filter_matches (h : Matches now a b) :
    Matches now (a.filter (fun v => decide (now ≤ v.resetAt))) b := by
  rcases h with rfl | ⟨rfl, hexp⟩
  · cases a with
    | none => exact .inl rfl
    | some v =>
      by_cases hle : now ≤ v.resetAt
      · left
        simp [hle]
      · right
        have hlt : v.resetAt < now := Int.not_le.mp hle
        refine ⟨by simp [hlt], fun v' hv' => ?_⟩
        cases hv'
        exact hlt
  · exact .inr ⟨rfl, hexp⟩

/-- Two runs from matching entries of one client: the accesses as they come,
and the client's own requests alone. The induction is on the accesses; the
clock keeps an entry that was deleted from being missed. -/
theorem responses_filter {ip : Bytes} {es : List Access} {vs ws : Visitors}
    (hclock : es.Pairwise (fun e e' => e.now ≤ e'.now)) (hfrom : ∀ e ∈ es, t ≤ e.now)
    (hm : Matches t (vs ip) (ws ip)) :
    (rl.responses vs es).filter (fun x => decide (x.1 = ip))
      = rl.responses ws (es.filter (Access.isFrom rl ip)) := by
  induction es generalizing vs ws t with
  | nil => rfl
  | cons e es ih =>
    obtain ⟨hle, hrest⟩ := List.pairwise_cons.mp hclock
    have hnow : Matches e.now (vs ip) (ws ip) := hm.onward (hfrom e List.mem_cons_self)
    cases e with
    | tick now =>
      -- a tick: the answers go on, and nothing is left of it alone
      have hskip : (Access.tick now :: es).filter (Access.isFrom rl ip)
          = es.filter (Access.isFrom rl ip) := by
        simp [Access.isFrom]
      rw [hskip, responses]
      exact ih hrest hle (filter_matches hnow)
    | request r now later =>
      rw [responses]
      by_cases hip : rl.clientIP r = ip
      · have hkeep : (Access.request r now later :: es).filter (Access.isFrom rl ip)
            = .request r now later :: es.filter (Access.isFrom rl ip) := by
          simp [Access.isFrom, hip]
        rw [hkeep, responses, List.filter_cons_of_pos (by simp [hip]), hip]
        have hsame : rl.visit (vs ip) now later = rl.visit (ws ip) now later :=
          visit_matches hnow
        have hleft : Matches now ((rl.serve vs ip now later).2 ip)
            ((rl.serve ws ip now later).2 ip) := .inl (by simp [serve, hsame])
        rw [ih hrest hle hleft]
        simp only [serve, hsame]
      · -- somebody else's request does not touch the entry
        have hskip : (Access.request r now later :: es).filter (Access.isFrom rl ip)
            = es.filter (Access.isFrom rl ip) := by
          simp [Access.isFrom, hip]
        rw [hskip, List.filter_cons_of_neg (by simp [hip])]
        have hleft : (rl.serve vs (rl.clientIP r) now later).2 ip = vs ip :=
          Function.update_of_ne (fun h => hip h.symm) _ _
        refine ih hrest hle ?_
        rw [hleft]
        exact hnow

end RateLimiter

/-- In every run of a limiter with a clock that does not go back, however the
requests of the clients and the ticks of the clean-up are mixed: the answers
given to a client are those of a limiter that sees this client's requests only,
at the same times, and is never cleaned up. -/
theorem limits_are_independent (rl : RateLimiter) (es : List RateLimiter.Access)
    (hclock : es.Pairwise (fun e e' => e.now ≤ e'.now)) (ip : Bytes) :
    (rl.responses (fun _ => none) es).filter (fun x => decide (x.1 = ip))
      = rl.responses (fun _ => none) (es.filter (RateLimiter.Access.isFrom rl ip)) := by
  cases es with
  | nil => rfl
  | cons e es =>
    refine RateLimiter.responses_filter hclock (fun e' he' => ?_) (.inl rfl) (t := e.now)
    rcases List.mem_cons.mp he' with rfl | hmem
    · exact Int.le_refl _
    · exact (List.pairwise_cons.mp hclock).1 e' hmem

/-- One request a second, from two clients behind a proxy; the clean-up comes
when the first window is over. -/
theorem limits_are_independent_two :
    (RateLimiter.responses ⟨1, second, true⟩ (fun _ => none)
      [.request ⟨utf8 "1.2.3.4, 10.0.0.1", [], utf8 "10.0.0.1:80"⟩ 0 0,
        .request ⟨[], utf8 "5.6.7.8", utf8 "10.0.0.1:80"⟩ 1 1,
        .request ⟨utf8 "1.2.3.4", [], utf8 "10.0.0.1:80"⟩ 5 5, .tick (second + 1),
        .request ⟨[], [], utf8 "1.2.3.4:80"⟩ (second + 2) (second + 2)]).filter
          (fun x => decide (x.1 = utf8 "1.2.3.4"))
      = [(utf8 "1.2.3.4", .next),
        (utf8 "1.2.3.4", .tooManyRequests "application/json" "1" "rate limit exceeded"),
        (utf8 "1.2.3.4", .next)] := by
  rw [limits_are_independent _ _ (by decide)]
  decide

end ReleaseNotifier
