/-
How many requests the rate limiter lets through.

`Limit` counts in windows that start with a request, not on a grid, so an
interval of the window's length can lie across the end of one window and the
beginning of the next. It cannot touch a third. A window that opens after the
reset of another one which reaches into the interval opens inside the interval,
and then it lasts beyond its end: `admitted_from_live` and `admitted_from_any`
are this argument, and both rest on `admitted_until_reset`, that what is left of
a window is what is left of its count.

The counts are about one client; the others and the clean-up only ever touch its
entry when it has expired.
-/
import ReleaseNotifier.RateLimiter
import Mathlib.Algebra.Order.Ring.Int
import Mathlib.Data.List.Count

set_option autoImplicit false

namespace ReleaseNotifier.RateLimiter

variable (rl : RateLimiter)

/-! ## What is admitted -/

/-- The map after an access. -/
def access (visitors : Visitors) : Access → Visitors
  | .request r now later => (rl.serve visitors (rl.clientIP r) now later).2
  | .tick now => cleanup visitors now

/-- The access is a request of this client, and the next handler serves it. -/
def admits (visitors : Visitors) (ip : Bytes) : Access → Bool
  | .request r now later =>
    decide (rl.clientIP r = ip) && decide ((rl.visit (visitors ip) now later).1 = .next)
  | .tick _ => false

/-- The times at which requests of a client are admitted. -/
def admitted (visitors : Visitors) (ip : Bytes) : List Access → List Int
  | [] => []
  | e :: es =>
    if rl.admits visitors ip e then e.now :: admitted (rl.access visitors e) ip es
    else admitted (rl.access visitors e) ip es

/-- The map after a run. -/
def afterwards (visitors : Visitors) (es : List Access) : Visitors := es.foldl rl.access visitors

/-- A request at `now` opens a window: the client has no entry, or it has expired. -/
def Opens (visitors : Visitors) (ip : Bytes) (now : Int) : Prop :=
  ∀ v, visitors ip = some v → v.resetAt < now

/-! ## One access -/

/-- What an access does to the entry of a client, and whether it admits. -/
inductive Effect (v : Option Visitor) (now : Int) : Bool → Option Visitor → Prop
  /-- nothing happens to it -/
  | kept : Effect v now false v
  /-- the clean-up deletes it -/
  | deleted (h : ∀ w, v = some w → w.resetAt < now) : Effect v now false none
  /-- a window is opened -/
  | opened (h : ∀ w, v = some w → w.resetAt < now) :
      Effect v now true (some ⟨1, now + rl.window⟩)
  /-- a request is counted in the window -/
  | counted (w : Visitor) (hv : v = some w) (hlive : now ≤ w.resetAt) (hroom : w.count < rl.limit) :
      Effect v now true (some ⟨w.count + 1, w.resetAt⟩)

variable {rl}

theorem visit_effect (v : Option Visitor) (now later : Int) :
    rl.Effect v now (decide ((rl.visit v now later).1 = .next))
      (some (rl.visit v now later).2) := by
  cases v with
  | none => exact .opened (fun w hw => by cases hw)
  | some w =>
    unfold visit
    by_cases hexp : w.resetAt < now
    · simp only [if_pos hexp, decide_true]
      refine .opened (fun w' hw' => ?_)
      cases hw'
      exact hexp
    · simp only [if_neg hexp]
      by_cases hfull : rl.limit ≤ w.count
      · simp only [if_pos hfull, reduceCtorEq, decide_false]
        exact .kept
      · simp only [if_neg hfull, decide_true]
        exact .counted w rfl (Int.not_lt.mp hexp) (Int.not_le.mp hfull)

/-- A request of the client is a visit to its entry. -/
theorem access_request {visitors : Visitors} {ip : Bytes} {r : Request} {now later : Int}
    (hip : rl.clientIP r = ip) :
    rl.access visitors (.request r now later) ip
      = some (rl.visit (visitors ip) now later).2 := by
  rw [access, serve, hip]
  exact Function.update_self _ _ _

theorem access_effect (visitors : Visitors) (ip : Bytes) (e : Access) :
    rl.Effect (visitors ip) e.now (rl.admits visitors ip e) (rl.access visitors e ip) := by
  cases e with
  | tick now =>
    show rl.Effect (visitors ip) now false
      ((visitors ip).filter (fun v => decide (now ≤ v.resetAt)))
    cases hv : visitors ip with
    | none => exact .kept
    | some w =>
      by_cases hle : now ≤ w.resetAt
      · simp only [Option.filter, decide_eq_true hle, if_true]
        exact .kept
      · simp only [Option.filter, decide_eq_false hle]
        refine .deleted (fun w' hw' => ?_)
        cases hw'
        exact Int.not_le.mp hle
  | request r now later =>
    by_cases hip : rl.clientIP r = ip
    · rw [access_request hip, admits, decide_eq_true hip, Bool.true_and]
      exact visit_effect (visitors ip) now later
    · have hentry : rl.access visitors (.request r now later) ip = visitors ip := by
        rw [access, serve]
        exact Function.update_of_ne (fun h => hip h.symm) _ _
      rw [hentry, admits, decide_eq_false hip, Bool.false_and]
      exact .kept

/-- A request that opens a window leaves a fresh entry. -/
theorem entry_of_opens {visitors : Visitors} {ip : Bytes} {r : Request} {now later : Int}
    (hip : rl.clientIP r = ip) (h : Opens visitors ip now) :
    rl.access visitors (.request r now later) ip = some ⟨1, now + rl.window⟩ := by
  rw [access_request hip]
  cases hv : visitors ip with
  | none => rfl
  | some v =>
    have hlt : v.resetAt < now := h v hv
    simp only [visit, if_pos hlt]

/-! ## The rest of a window -/

section Counts

variable {ip : Bytes} {visitors : Visitors} {e : Access} {es : List Access} {v : Visitor}

theorem admitted_cons_true (h : rl.admits visitors ip e = true) :
    rl.admitted visitors ip (e :: es) = e.now :: rl.admitted (rl.access visitors e) ip es := by
  rw [admitted, if_pos h]

theorem admitted_cons_false (h : rl.admits visitors ip e = false) :
    rl.admitted visitors ip (e :: es) = rl.admitted (rl.access visitors e) ip es := by
  rw [admitted, h, if_neg Bool.false_ne_true]

/-- Requests are admitted at times of the run. -/
theorem mem_admitted {t : Int} (h : t ∈ rl.admitted visitors ip es) : ∃ e ∈ es, e.now = t := by
  induction es generalizing visitors with
  | nil => cases h
  | cons e es ih =>
    have hrest : t ∈ rl.admitted (rl.access visitors e) ip es → ∃ e' ∈ e :: es, e'.now = t := by
      intro hmem
      obtain ⟨e', he', ht⟩ := ih hmem
      exact ⟨e', List.mem_cons_of_mem _ he', ht⟩
    cases hb : rl.admits visitors ip e with
    | false =>
      rw [admitted_cons_false hb] at h
      exact hrest h
    | true =>
      rw [admitted_cons_true hb] at h
      rcases List.mem_cons.mp h with rfl | hmem
      · exact ⟨e, List.mem_cons_self, rfl⟩
      · exact hrest hmem

/-- Nothing is admitted before the run begins. -/
theorem countP_admitted_of_late {b : Int} (p : Int → Bool) (hp : ∀ t, p t = true → t ≤ b)
    (h : ∀ e ∈ es, b < e.now) : (rl.admitted visitors ip es).countP p = 0 := by
  rw [List.countP_eq_zero]
  intro t ht hpt
  obtain ⟨e, he, rfl⟩ := mem_admitted ht
  exact absurd (hp _ hpt) (Int.not_le.mpr (h e he))

theorem countP_cons_le (p : Int → Bool) (t : Int) (l : List Int) :
    (t :: l).countP p ≤ 1 + l.countP p := by
  rw [List.countP_cons]
  split <;> omega

/-- In a window with a count there is only room for the rest of the limit. -/
theorem admitted_until_reset (hclock : es.Pairwise (fun e e' => e.now ≤ e'.now))
    (hv : visitors ip = some v) (hcount : v.count ≤ rl.limit) (p : Int → Bool)
    (hp : ∀ t, p t = true → t ≤ v.resetAt) :
    ((rl.admitted visitors ip es).countP p : Int) ≤ rl.limit - v.count := by
  induction es generalizing visitors v with
  | nil =>
    rw [admitted, List.countP_nil]
    omega
  | cons e es ih =>
    obtain ⟨hle, hrest⟩ := List.pairwise_cons.mp hclock
    -- once the window is over, everything comes too late
    have hover : v.resetAt < e.now →
        ((rl.admitted (rl.access visitors e) ip es).countP p : Int) = 0 := by
      intro hlt
      rw [countP_admitted_of_late p hp (fun e' he' => Int.lt_of_lt_of_le hlt (hle e' he'))]
      rfl
    have heff := rl.access_effect visitors ip e
    generalize hb : rl.admits visitors ip e = b at heff
    generalize hentry : rl.access visitors e ip = entry at heff
    cases heff with
    | kept =>
      rw [admitted_cons_false hb]
      exact ih hrest (hentry.trans hv) hcount hp
    | deleted hexp =>
      rw [admitted_cons_false hb, hover (hexp v hv)]
      omega
    | opened hexp =>
      have hlt := hexp v hv
      have hout : ¬ p e.now = true := fun h => absurd (hp _ h) (Int.not_le.mpr hlt)
      rw [admitted_cons_true hb, List.countP_cons_of_neg hout, hover hlt]
      omega
    | counted w hw hlive hroom =>
      rw [hv] at hw
      cases hw
      have hmore : ((rl.admitted (rl.access visitors e) ip es).countP p : Int)
          ≤ rl.limit - (v.count + 1) := ih hrest hentry hroom hp
      rw [admitted_cons_true hb]
      have := countP_cons_le p e.now (rl.admitted (rl.access visitors e) ip es)
      omega

/-! ## Intervals -/

/-- The closed interval of the window's length that begins at `a`. -/
def Inside (rl : RateLimiter) (a t : Int) : Bool := decide (a ≤ t ∧ t ≤ a + rl.window)

/-- A window that opens in the interval, or later, lasts beyond its end. -/
theorem admitted_after_opening {a now : Int} (hlimit : 1 ≤ rl.limit) (hnow : a ≤ now)
    (hclock : es.Pairwise (fun e e' => e.now ≤ e'.now))
    (hv : visitors ip = some ⟨1, now + rl.window⟩) :
    ((rl.admitted visitors ip es).countP (rl.Inside a) : Int) ≤ rl.limit - 1 := by
  refine admitted_until_reset hclock hv hlimit (rl.Inside a) (fun t ht => ?_)
  have hinside := of_decide_eq_true ht
  show t ≤ now + rl.window
  omega

/-- Without an entry, and with the interval begun, there is one window at most. -/
theorem admitted_from_none {a : Int} (hlimit : 1 ≤ rl.limit)
    (hclock : es.Pairwise (fun e e' => e.now ≤ e'.now)) (hfrom : ∀ e ∈ es, a ≤ e.now)
    (hv : visitors ip = none) :
    ((rl.admitted visitors ip es).countP (rl.Inside a) : Int) ≤ rl.limit := by
  induction es generalizing visitors with
  | nil =>
    rw [admitted, List.countP_nil]
    omega
  | cons e es ih =>
    obtain ⟨-, hrest⟩ := List.pairwise_cons.mp hclock
    have hlater : ∀ e' ∈ es, a ≤ e'.now := fun e' he' => hfrom e' (List.mem_cons_of_mem _ he')
    have heff := rl.access_effect visitors ip e
    generalize hb : rl.admits visitors ip e = b at heff
    generalize hentry : rl.access visitors e ip = entry at heff
    cases heff with
    | kept =>
      rw [admitted_cons_false hb]
      exact ih hrest hlater (hentry.trans hv)
    | deleted hexp =>
      rw [admitted_cons_false hb]
      exact ih hrest hlater hentry
    | opened hexp =>
      have hmore := admitted_after_opening hlimit (hfrom e List.mem_cons_self) hrest hentry
      have := countP_cons_le (rl.Inside a) e.now (rl.admitted (rl.access visitors e) ip es)
      rw [admitted_cons_true hb]
      omega
    | counted w hw hlive hroom =>
      rw [hv] at hw
      cases hw

/-- From a window that reaches into the interval: its rest, and one more. -/
theorem admitted_from_live {a : Int} (hlimit : 1 ≤ rl.limit)
    (hclock : es.Pairwise (fun e e' => e.now ≤ e'.now)) (hv : visitors ip = some v)
    (hcount : v.count ≤ rl.limit) (hlive : a ≤ v.resetAt) :
    ((rl.admitted visitors ip es).countP (rl.Inside a) : Int)
      ≤ (rl.limit - v.count) + rl.limit := by
  induction es generalizing visitors v with
  | nil =>
    rw [admitted, List.countP_nil]
    omega
  | cons e es ih =>
    obtain ⟨hle, hrest⟩ := List.pairwise_cons.mp hclock
    have hone := countP_cons_le (rl.Inside a) e.now (rl.admitted (rl.access visitors e) ip es)
    have heff := rl.access_effect visitors ip e
    generalize hb : rl.admits visitors ip e = b at heff
    generalize hentry : rl.access visitors e ip = entry at heff
    cases heff with
    | kept =>
      rw [admitted_cons_false hb]
      exact ih hrest (hentry.trans hv) hcount hlive
    | deleted hexp =>
      have hlt := hexp v hv
      have hlater : ∀ e' ∈ es, a ≤ e'.now := by
        intro e' he'
        have := hle e' he'
        omega
      have hmore := admitted_from_none hlimit hrest hlater hentry
      rw [admitted_cons_false hb]
      omega
    | opened hexp =>
      -- it opens after the reset of the other one, so inside the interval
      have hlt := hexp v hv
      have hnow : a ≤ e.now := by omega
      have hmore := admitted_after_opening hlimit hnow hrest hentry
      rw [admitted_cons_true hb]
      omega
    | counted w hw hnow hroom =>
      rw [hv] at hw
      cases hw
      have hmore : ((rl.admitted (rl.access visitors e) ip es).countP (rl.Inside a) : Int)
          ≤ (rl.limit - (v.count + 1)) + rl.limit := ih hrest hentry hroom hlive
      rw [admitted_cons_true hb]
      omega

/-- What is true of every entry of a run. -/
def Counted (rl : RateLimiter) (v : Option Visitor) : Prop :=
  ∀ w, v = some w → 1 ≤ w.count ∧ w.count ≤ rl.limit

theorem Counted.effect {v v' : Option Visitor} {now : Int} {b : Bool} (hlimit : 1 ≤ rl.limit)
    (h : rl.Counted v) (heff : rl.Effect v now b v') : rl.Counted v' := by
  intro w' hw'
  cases heff with
  | kept => exact h w' hw'
  | deleted hexp => cases hw'
  | opened hexp =>
    cases hw'
    exact ⟨Int.le_refl 1, hlimit⟩
  | counted w hw hnow hroom =>
    cases hw'
    have hc := h w hw
    exact ⟨by show 1 ≤ w.count + 1; omega, hroom⟩

/-- From any entry: two windows at most. -/
theorem admitted_from_any {a : Int} (hlimit : 1 ≤ rl.limit)
    (hclock : es.Pairwise (fun e e' => e.now ≤ e'.now)) (hv : rl.Counted (visitors ip)) :
    ((rl.admitted visitors ip es).countP (rl.Inside a) : Int) ≤ 2 * rl.limit := by
  induction es generalizing visitors with
  | nil =>
    rw [admitted, List.countP_nil]
    omega
  | cons e es ih =>
    obtain ⟨hle, hrest⟩ := List.pairwise_cons.mp hclock
    have hone := countP_cons_le (rl.Inside a) e.now (rl.admitted (rl.access visitors e) ip es)
    have heff := rl.access_effect visitors ip e
    have hmore := ih hrest (hv.effect hlimit heff)
    -- before the interval begins nothing is counted
    have hbefore : e.now < a →
        (e.now :: rl.admitted (rl.access visitors e) ip es).countP (rl.Inside a)
          = (rl.admitted (rl.access visitors e) ip es).countP (rl.Inside a) := by
      intro hlt
      refine List.countP_cons_of_neg (fun h => ?_)
      exact absurd (of_decide_eq_true h).1 (Int.not_le.mpr hlt)
    generalize hb : rl.admits visitors ip e = b at heff
    generalize hentry : rl.access visitors e ip = entry at heff
    cases heff with
    | kept =>
      rw [admitted_cons_false hb]
      exact hmore
    | deleted hexp =>
      rw [admitted_cons_false hb]
      exact hmore
    | opened hexp =>
      rw [admitted_cons_true hb]
      by_cases hnow : a ≤ e.now
      · have hlast := admitted_after_opening hlimit hnow hrest hentry
        omega
      · rw [hbefore (Int.not_le.mp hnow)]
        exact hmore
    | counted w hw hlive hroom =>
      rw [admitted_cons_true hb]
      by_cases hnow : a ≤ e.now
      · -- the first one in the interval: its window reaches into it
        have hlast : ((rl.admitted (rl.access visitors e) ip es).countP (rl.Inside a) : Int)
            ≤ (rl.limit - (w.count + 1)) + rl.limit :=
          admitted_from_live hlimit hrest hentry hroom (Int.le_trans hnow hlive)
        have hc := hv w hw
        omega
      · rw [hbefore (Int.not_le.mp hnow)]
        exact hmore

end Counts

/-! ## Both bounds -/

/-- With a limit of at least one, any window length and a clock that does not go
back: in every closed interval of the window's length at most twice the limit of
a client's requests are admitted, and in every window, from the request that
opens it up to its reset, at most the limit. -/
theorem admissions_bounded (rl : RateLimiter) (hlimit : 1 ≤ rl.limit) (es : List Access)
    (hclock : es.Pairwise (fun e e' => e.now ≤ e'.now)) (ip : Bytes) :
    (∀ a : Int, ((rl.admitted (fun _ => none) ip es).countP
        (fun t => decide (a ≤ t ∧ t ≤ a + rl.window)) : Int) ≤ 2 * rl.limit) ∧
      ∀ (before after : List Access) (r : Request) (now later : Int),
        es = before ++ .request r now later :: after → rl.clientIP r = ip →
        Opens (rl.afterwards (fun _ => none) before) ip now →
        1 + ((rl.admitted (rl.afterwards (fun _ => none) (before ++ [.request r now later])) ip
          after).countP (fun t => decide (t ≤ now + rl.window)) : Int) ≤ rl.limit := by
  constructor
  · intro a
    exact admitted_from_any hlimit hclock (fun w hw => by cases hw)
  · intro before after r now later hes hip hopen
    rw [hes] at hclock
    have hafter : after.Pairwise (fun e e' => e.now ≤ e'.now) :=
      (List.pairwise_cons.mp (List.pairwise_append.mp hclock).2.1).2
    have hentry : rl.afterwards (fun _ => none) (before ++ [.request r now later]) ip
        = some ⟨1, now + rl.window⟩ := by
      rw [afterwards, List.foldl_append, List.foldl_cons, List.foldl_nil]
      exact entry_of_opens hip hopen
    have hrest := admitted_until_reset hafter hentry hlimit
      (fun t => decide (t ≤ now + rl.window)) (fun t ht => of_decide_eq_true ht)
    have hrest' : ((rl.admitted (rl.afterwards (fun _ => none)
        (before ++ [.request r now later])) ip after).countP
          (fun t => decide (t ≤ now + rl.window)) : Int) ≤ rl.limit - 1 := hrest
    omega

/-- Two requests in ten seconds; three of the four lie in an interval across two
windows. -/
def sampleRun : List Access :=
  [.request ⟨[], [], utf8 "1.2.3.4:80"⟩ 0 0,
    .request ⟨[], [], utf8 "1.2.3.4:81"⟩ (10 * second) (10 * second),
    .request ⟨[], [], utf8 "1.2.3.4:80"⟩ (10 * second) (10 * second), .tick (11 * second),
    .request ⟨[], [], utf8 "1.2.3.4:80"⟩ (11 * second) (11 * second),
    .request ⟨[], [], utf8 "1.2.3.4:80"⟩ (12 * second) (12 * second)]

/-- Four requests within eleven seconds, two in each window. -/
theorem admissions_bounded_sample :
    RateLimiter.admitted ⟨2, 10 * second, false⟩ (fun _ => none) (utf8 "1.2.3.4")
        sampleRun
        = [0, 10 * second, 11 * second, 12 * second] ∧
      ((RateLimiter.admitted ⟨2, 10 * second, false⟩ (fun _ => none) (utf8 "1.2.3.4")
        sampleRun).countP
        (fun t => decide (10 * second ≤ t ∧ t ≤ 10 * second + 10 * second)) : Int) ≤ 2 * 2 :=
  ⟨by decide, (admissions_bounded ⟨2, 10 * second, false⟩ (by decide) sampleRun
    (by decide) (utf8 "1.2.3.4")).1 (10 * second)⟩

end ReleaseNotifier.RateLimiter
