/-
The goroutines of `notifySubscribers`.

Up to one address the loop sends by itself. With more it starts workers that
range over the channel `jobs`, hands the addresses to them one at a time, closes
the channel and waits for all of them; a context that is done ends the handing
over, nothing else. The channel is unbuffered, so an address goes from the loop
to a worker in one step, and a worker that has received one sends to it whatever
happens to the context.

Addresses repeat, positions in the list do not. A job is an address with its
position; the code carries only the address.

The scheduler may let any goroutine that is not blocked go on, and the context
may be done at any moment. What holds in every state that can be reached is
`Kept`: the jobs begun are the front of the list, and each of them has been served
or is with one worker. `fanOut_covers` connects this to the fan-out of the
poller's model, where the goroutines are folded into one sequence of moves.
-/
import ReleaseNotifier.Poller
import Mathlib.Algebra.GroupWithZero.Nat

set_option autoImplicit false

namespace ReleaseNotifier.Poller

open Conc

/-! ## The goroutines -/

/-- An address and its position in the list. -/
abbrev Job := String × Nat

/-- What a worker is doing. -/
inductive Worker
  /-- it ranges over `jobs` -/
  | receiving
  /-- it is in `sendOne` -/
  | sending (job : Job)
  /-- it has called `wg.Done` -/
  | exited
  deriving DecidableEq

/-- The job a worker has. -/
def Worker.job? : Worker → Option Job
  | .sending job => some job
  | _ => none

/-- Where `notifySubscribers` is itself. -/
inductive Feeder
  /-- in the loop without workers -/
  | alone (rest : List Job)
  /-- in `sendOne`, from there -/
  | aloneSending (job : Job) (rest : List Job)
  /-- in the loop that starts the workers -/
  | starting (started : Nat)
  /-- at the `select`, or at the end of the loop -/
  | feeding (rest : List Job)
  /-- before `close(jobs)` -/
  | closing
  /-- in `wg.Wait` -/
  | waiting
  | returned
  deriving DecidableEq

/-- All goroutines of a call; `begun` and `served` record for which jobs
`sendOne` has been called and has returned. -/
structure Notifying where
  feeder : Feeder
  workers : List Worker
  closed : Bool
  ctxDone : Bool
  begun : List Job
  served : List Job
  deriving DecidableEq

/-- `workers`. -/
def workersFor (emails : List String) : Nat := min notifyWorkers emails.length

/-- `notifySubscribers` with the addresses `GetEmailsByRepo` has returned. -/
def Notifying.start (emails : List String) : Notifying where
  feeder := if workersFor emails ≤ 1 then .alone emails.zipIdx else .starting 0
  workers := []
  closed := false
  ctxDone := false
  begun := []
  served := []

/-- Who goes on. -/
inductive Act
  /-- the context is done from now on -/
  | cancel
  /-- `notifySubscribers` goes on with something that is not listed below -/
  | go
  /-- its own `sendOne` returns, with or without an error -/
  | sent (err : Option Fault)
  /-- the `select` hands an address to the `j`th worker -/
  | handOver (j : Nat)
  /-- the `select` sees the context done -/
  | stop
  /-- `sendOne` of the `j`th worker returns, with or without an error -/
  | sentBy (j : Nat) (err : Option Fault)
  /-- the `j`th worker sees `jobs` closed -/
  | exit (j : Nat)
  deriving DecidableEq

/-- `notifySubscribers` goes on by itself. -/
def Notifying.go (emails : List String) (s : Notifying) : Option Notifying :=
  match s.feeder with
  | .alone [] => some { s with feeder := .returned }
  | .alone (job :: rest) =>
    some { s with feeder := .aloneSending job rest, begun := s.begun ++ [job] }
  | .starting started =>
    if started < workersFor emails then
      some { s with feeder := .starting (started + 1), workers := s.workers ++ [.receiving] }
    else some { s with feeder := .feeding emails.zipIdx }
  | .feeding [] => some { s with feeder := .closing }
  | .closing => some { s with feeder := .waiting, closed := true }
  -- `wg.Wait` blocks until every worker has called `wg.Done`
  | .waiting =>
    if s.workers.all (fun w => decide (w = .exited)) then some { s with feeder := .returned }
    else none
  | _ => none

/-- One step of some goroutine. -/
def Notifying.step (emails : List String) (s : Notifying) : Act → Option Notifying
  | .cancel => some { s with ctxDone := true }
  | .go => s.go emails
  | .sent _ =>
    match s.feeder with
    | .aloneSending job rest => some { s with feeder := .alone rest, served := s.served ++ [job] }
    | _ => none
  | .handOver j =>
    match s.feeder, s.workers[j]? with
    | .feeding (job :: rest), some .receiving =>
      some { s with
        feeder := .feeding rest
        workers := s.workers.set j (.sending job)
        begun := s.begun ++ [job] }
    | _, _ => none
  | .stop =>
    match s.feeder with
    -- a `select` with both cases ready may still hand the address over
    | .feeding (_ :: _) => if s.ctxDone then some { s with feeder := .closing } else none
    | _ => none
  | .sentBy j _ =>
    match s.workers[j]? with
    | some (.sending job) =>
      some { s with workers := s.workers.set j .receiving, served := s.served ++ [job] }
    | _ => none
  | .exit j =>
    match s.workers[j]? with
    -- `range` ends when `jobs` is closed, whatever the context says
    | some .receiving => if s.closed then some { s with workers := s.workers.set j .exited } else none
    | _ => none

/-- A schedule. -/
def Notifying.steps (emails : List String) (s : Notifying) : List Act → Option Notifying
  | [] => some s
  | a :: acts => (s.step emails a).bind (fun s' => s'.steps emails acts)

/-! ## What a step can do -/

section Cases

variable {emails : List String} {s s' : Notifying}

/-- The steps of `notifySubscribers` itself. -/
inductive GoStep (emails : List String) (s : Notifying) : Notifying → Prop
  | finished (h : s.feeder = .alone []) : GoStep emails s { s with feeder := .returned }
  | begins (job : Job) (rest : List Job) (h : s.feeder = .alone (job :: rest)) :
      GoStep emails s { s with feeder := .aloneSending job rest, begun := s.begun ++ [job] }
  | starts (started : Nat) (h : s.feeder = .starting started) (hlt : started < workersFor emails) :
      GoStep emails s
        { s with feeder := .starting (started + 1), workers := s.workers ++ [.receiving] }
  | started (started : Nat) (h : s.feeder = .starting started)
      (hge : ¬ started < workersFor emails) :
      GoStep emails s { s with feeder := .feeding emails.zipIdx }
  | fed (h : s.feeder = .feeding []) : GoStep emails s { s with feeder := .closing }
  | closes (h : s.feeder = .closing) : GoStep emails s { s with feeder := .waiting, closed := true }
  | waited (h : s.feeder = .waiting) (hall : ∀ w ∈ s.workers, w = .exited) :
      GoStep emails s { s with feeder := .returned }

/-- What the feeder and the workers can do, said once. -/
theorem go_cases (h : s.go emails = some s') : GoStep emails s s' := by
  unfold Notifying.go at h
  split at h
  · next hf => cases h; exact .finished hf
  · next job rest hf => cases h; exact .begins job rest hf
  · next started hf =>
    split at h
    · next hlt => cases h; exact .starts started hf hlt
    · next hge => cases h; exact .started started hf hge
  · next hf => cases h; exact .fed hf
  · next hf => cases h; exact .closes hf
  · next hf =>
    split at h
    · next hall =>
      cases h
      refine .waited hf (fun w hw => ?_)
      exact of_decide_eq_true (List.all_eq_true.mp hall w hw)
    · cases h
  · cases h

/-- The steps of all goroutines. -/
inductive ActStep (emails : List String) (s : Notifying) : Act → Notifying → Prop
  | cancel : ActStep emails s .cancel { s with ctxDone := true }
  | go (s' : Notifying) (h : GoStep emails s s') : ActStep emails s .go s'
  | sent (job : Job) (rest : List Job) (err : Option Fault) (h : s.feeder = .aloneSending job rest) :
      ActStep emails s (.sent err) { s with feeder := .alone rest, served := s.served ++ [job] }
  | handOver (j : Nat) (job : Job) (rest : List Job) (h : s.feeder = .feeding (job :: rest))
      (hw : s.workers[j]? = some .receiving) :
      ActStep emails s (.handOver j)
        { s with
          feeder := .feeding rest
          workers := s.workers.set j (.sending job)
          begun := s.begun ++ [job] }
  | stop (job : Job) (rest : List Job) (h : s.feeder = .feeding (job :: rest))
      (hdone : s.ctxDone = true) : ActStep emails s .stop { s with feeder := .closing }
  | sentBy (j : Nat) (job : Job) (err : Option Fault) (hw : s.workers[j]? = some (.sending job)) :
      ActStep emails s (.sentBy j err)
        { s with workers := s.workers.set j .receiving, served := s.served ++ [job] }
  | exit (j : Nat) (hw : s.workers[j]? = some .receiving) (hclosed : s.closed = true) :
      ActStep emails s (.exit j) { s with workers := s.workers.set j .exited }

/-- What a scheduled act can do. -/
theorem step_cases {a : Act} (h : s.step emails a = some s') : ActStep emails s a s' := by
  cases a with
  | cancel => cases h; exact .cancel
  | go => exact .go s' (go_cases h)
  | sent err =>
    simp only [Notifying.step] at h
    split at h
    · next job rest hf => cases h; exact .sent job rest err hf
    · cases h
  | handOver j =>
    simp only [Notifying.step] at h
    split at h
    · next job rest hf hw => cases h; exact .handOver j job rest hf hw
    · cases h
  | stop =>
    simp only [Notifying.step] at h
    split at h
    · next job rest hf =>
      split at h
      · next hdone => cases h; exact .stop job rest hf hdone
      · cases h
    · cases h
  | sentBy j err =>
    simp only [Notifying.step] at h
    split at h
    · next job hw => cases h; exact .sentBy j job err hw
    · cases h
  | exit j =>
    simp only [Notifying.step] at h
    split at h
    · next hw =>
      split at h
      · next hclosed => cases h; exact .exit j hw hclosed
      · cases h
    · cases h

end Cases

/-! ## One worker moves -/

section Set

variable {α β : Type} {l : List α} {j : Nat} {a : α}

theorem exists_split_set (h : l[j]? = some a) :
    ∃ front back, l = front ++ a :: back ∧ ∀ b, l.set j b = front ++ b :: back := by
  obtain ⟨hlt, rfl⟩ := List.getElem?_eq_some_iff.mp h
  refine ⟨l.take j, l.drop (j + 1), ?_, fun b => ?_⟩
  · rw [← List.drop_eq_getElem_cons hlt, List.take_append_drop]
  · rw [List.set_eq_take_append_cons_drop, if_pos hlt]

/-- Exchanging one worker exchanges its job. -/
theorem filterMap_set {f : α → Option β} (h : l[j]? = some a) (b : α) :
    ((l.set j b).filterMap f ++ (f a).toList).Perm (l.filterMap f ++ (f b).toList) := by
  obtain ⟨front, back, hl, hset⟩ := exists_split_set h
  have hcons : ∀ x : α, (front ++ x :: back).filterMap f
      = front.filterMap f ++ ((f x).toList ++ back.filterMap f) := by
    intro x
    rw [List.filterMap_append, List.filterMap_cons]
    cases f x with
    | none => rfl
    | some y => rfl
  -- the changed place is brought to the end of both lists
  have hmove : ∀ x y : α, ((front ++ x :: back).filterMap f ++ (f y).toList).Perm
      (front.filterMap f ++ (back.filterMap f ++ ((f x).toList ++ (f y).toList))) := by
    intro x y
    rw [hcons, List.append_assoc, List.append_assoc]
    refine List.Perm.append_left _ ?_
    rw [← List.append_assoc, ← List.append_assoc]
    exact List.perm_append_comm.append_right _
  rw [hset b, hl]
  refine (hmove b a).trans ((hmove a b).trans ?_).symm
  exact (List.perm_append_comm.append_left _).append_left _

theorem sum_map_set {f : α → Nat} (h : l[j]? = some a) (b : α) :
    ((l.set j b).map f).sum + f a = (l.map f).sum + f b := by
  obtain ⟨front, back, hl, hset⟩ := exists_split_set h
  rw [hset b, hl]
  simp only [List.map_append, List.map_cons, List.sum_append, List.sum_cons]
  omega

end Set

/-! ## What is kept -/

/-- The jobs the workers have. -/
def Notifying.inHand (s : Notifying) : List Job := s.workers.filterMap Worker.job?

/-- The job `notifySubscribers` has itself. -/
def Feeder.own : Feeder → List Job
  | .aloneSending job _ => [job]
  | _ => []

/-- `jobs` is open, so no worker has left. -/
def Notifying.Open (s : Notifying) : Prop := s.closed = false ∧ ∀ w ∈ s.workers, w ≠ .exited

/-- No more jobs will begin. -/
def Notifying.Over (emails : List String) (s : Notifying) : Prop :=
  s.begun <+: emails.zipIdx ∧ (s.ctxDone = false → s.begun = emails.zipIdx)

/-- What is known where `notifySubscribers` is. -/
def Notifying.Placed (emails : List String) (s : Notifying) : Feeder → Prop
  | .alone rest => s.begun ++ rest = emails.zipIdx ∧ s.workers = []
  | .aloneSending _ rest => s.begun ++ rest = emails.zipIdx ∧ s.workers = []
  | .starting started => s.begun = [] ∧ s.workers.length = started ∧
      started ≤ workersFor emails ∧ 1 < workersFor emails ∧ s.Open
  | .feeding rest => s.begun ++ rest = emails.zipIdx ∧ s.workers.length = workersFor emails ∧
      1 < workersFor emails ∧ s.Open
  | .closing => s.Over emails ∧ s.Open
  | .waiting => s.Over emails ∧ s.closed = true
  | .returned => s.Over emails ∧ ∀ w ∈ s.workers, w = .exited

/-- Every job begun has been served, or someone has it; and the jobs begun are
the front of the list. -/
structure Kept (emails : List String) (s : Notifying) : Prop where
  handed : s.begun.Perm (s.served ++ (s.inHand ++ s.feeder.own))
  placed : s.Placed emails s.feeder

section Hands

variable {ws : List Worker} {j : Nat} {job : Job}

/-- A job that is taken is in hand. -/
theorem jobs_taken (hw : ws[j]? = some .receiving) (job : Job) :
    ((ws.set j (.sending job)).filterMap Worker.job?).Perm
      (ws.filterMap Worker.job? ++ [job]) := by
  have hmoved := filterMap_set (f := Worker.job?) hw (.sending job)
  simpa only [Worker.job?, Option.toList, List.append_nil] using hmoved

/-- A job that is sent is out of hand. -/
theorem jobs_done (hw : ws[j]? = some (.sending job)) :
    ((ws.set j .receiving).filterMap Worker.job? ++ [job]).Perm
      (ws.filterMap Worker.job?) := by
  have hmoved := filterMap_set (f := Worker.job?) hw .receiving
  simpa only [Worker.job?, Option.toList, List.append_nil] using hmoved

theorem jobs_left (hw : ws[j]? = some .receiving) :
    ((ws.set j .exited).filterMap Worker.job?).Perm (ws.filterMap Worker.job?) := by
  have hmoved := filterMap_set (f := Worker.job?) hw .exited
  simpa only [Worker.job?, Option.toList, List.append_nil] using hmoved

end Hands

section Keep

variable {emails : List String} {s s' : Notifying} {a : Act}

theorem Kept.start (emails : List String) : Kept emails (Notifying.start emails) := by
  refine ⟨?_, ?_⟩
  · show [].Perm ([] ++ ([] ++ (Notifying.start emails).feeder.own))
    unfold Notifying.start
    split
    · rfl
    · rfl
  · show (Notifying.start emails).Placed emails
      (if workersFor emails ≤ 1 then .alone emails.zipIdx else .starting 0)
    split
    · exact ⟨rfl, rfl⟩
    · next h =>
      exact ⟨rfl, rfl, Nat.zero_le _, Nat.lt_of_not_le h, rfl,
        fun w hw => absurd hw List.not_mem_nil⟩

theorem Notifying.Open.set (h : s.Open) (j : Nat) {w : Worker} (hw : w ≠ .exited) :
    ∀ w' ∈ s.workers.set j w, w' ≠ .exited := by
  intro w' hmem
  rcases List.mem_or_eq_of_mem_set hmem with hold | rfl
  · exact h.2 w' hold
  · exact hw

theorem Notifying.Over.of_eq (h : s.begun = emails.zipIdx) : s.Over emails :=
  ⟨h ▸ List.prefix_rfl, fun _ => h⟩

/-- A move of the feeder or of a worker keeps every job in one place. -/
theorem Kept.go (hk : Kept emails s) (h : GoStep emails s s') : Kept emails s' := by
  obtain ⟨hhanded, hplaced⟩ := hk
  cases h with
  | finished hf =>
    rw [hf] at hhanded hplaced
    obtain ⟨hbegun, hnone⟩ := hplaced
    rw [List.append_nil] at hbegun
    refine ⟨hhanded, Notifying.Over.of_eq hbegun, fun w hw => ?_⟩
    rw [show s.workers = [] from hnone] at hw
    exact absurd hw List.not_mem_nil
  | begins job rest hf =>
    rw [hf] at hhanded hplaced
    obtain ⟨hbegun, hnone⟩ := hplaced
    refine ⟨?_, by rw [List.append_assoc]; exact hbegun, hnone⟩
    show (s.begun ++ [job]).Perm (s.served ++ (s.inHand ++ [job]))
    rw [← List.append_assoc]
    refine List.Perm.append_right _ ?_
    simpa only [Feeder.own, List.append_nil] using hhanded
  | starts started hf hlt =>
    rw [hf] at hhanded hplaced
    obtain ⟨hbegun, hlen, -, hmore, hclosed, hopen⟩ := hplaced
    refine ⟨?_, hbegun, ?_, hlt, hmore, hclosed, fun w hw => ?_⟩
    · show s.begun.Perm
        (s.served ++ ((s.workers ++ [Worker.receiving]).filterMap Worker.job? ++ []))
      have hnone : [Worker.receiving].filterMap Worker.job? = [] := rfl
      rw [List.filterMap_append, hnone, List.append_nil]
      exact hhanded
    · rw [List.length_append, hlen]
      rfl
    · rcases List.mem_append.mp hw with hw | hw
      · exact hopen w hw
      · rw [List.mem_singleton.mp hw]
        exact Worker.noConfusion
  | started started hf hge =>
    rw [hf] at hhanded hplaced
    obtain ⟨hbegun, hlen, hle, hmore, hopen⟩ := hplaced
    refine ⟨hhanded, ?_, ?_, hmore, hopen⟩
    · show s.begun ++ emails.zipIdx = emails.zipIdx
      rw [hbegun, List.nil_append]
    · show s.workers.length = workersFor emails
      omega
  | fed hf =>
    rw [hf] at hhanded hplaced
    obtain ⟨hbegun, -, -, hopen⟩ := hplaced
    rw [List.append_nil] at hbegun
    exact ⟨hhanded, Notifying.Over.of_eq hbegun, hopen⟩
  | closes hf =>
    rw [hf] at hhanded hplaced
    exact ⟨hhanded, hplaced.1, rfl⟩
  | waited hf hall =>
    rw [hf] at hhanded hplaced
    exact ⟨hhanded, hplaced.1, hall⟩

/-- A worker that moves between receiving and sending does not change what is
known. -/
theorem Notifying.Placed.set {f : Feeder} (h : s.Placed emails f) {j : Nat} {w w' : Worker}
    (hw : s.workers[j]? = some w) (hstay : w ≠ .exited) (hne : w' ≠ .exited) (served : List Job) :
    Notifying.Placed emails { s with workers := s.workers.set j w', served := served } f := by
  have hmem : w ∈ s.workers := List.mem_of_getElem? hw
  have hlen : (s.workers.set j w').length = s.workers.length := List.length_set
  cases f with
  | alone rest => rw [h.2] at hmem; exact absurd hmem List.not_mem_nil
  | aloneSending job rest => rw [h.2] at hmem; exact absurd hmem List.not_mem_nil
  | starting started =>
    obtain ⟨hbegun, hcount, hle, hmore, hopen⟩ := h
    exact ⟨hbegun, hlen.trans hcount, hle, hmore, hopen.1, hopen.set j hne⟩
  | feeding rest =>
    obtain ⟨hbegun, hcount, hmore, hopen⟩ := h
    exact ⟨hbegun, hlen.trans hcount, hmore, hopen.1, hopen.set j hne⟩
  | closing => exact ⟨h.1, h.2.1, h.2.set j hne⟩
  | waiting => exact h
  -- everybody has left by then, so nobody moves
  | returned => exact absurd (h.2 w hmem) hstay

theorem Notifying.Placed.cancel {f : Feeder} (h : s.Placed emails f) :
    Notifying.Placed emails { s with ctxDone := true } f := by
  have hover : s.Over emails → Notifying.Over emails { s with ctxDone := true } :=
    fun ho => ⟨ho.1, fun hf => Bool.noConfusion hf⟩
  cases f with
  | closing => exact ⟨hover h.1, h.2⟩
  | waiting => exact ⟨hover h.1, h.2⟩
  | returned => exact ⟨hover h.1, h.2⟩
  | _ => exact h

/-- Only after `close(jobs)` can a worker leave. -/
theorem Notifying.Placed.exit {f : Feeder} (h : s.Placed emails f) {j : Nat}
    (hw : s.workers[j]? = some .receiving) (hclosed : s.closed = true) :
    Notifying.Placed emails { s with workers := s.workers.set j .exited } f := by
  have hmem : Worker.receiving ∈ s.workers := List.mem_of_getElem? hw
  have hnot : ¬ s.Open := by
    intro ho
    rw [ho.1] at hclosed
    cases hclosed
  cases f with
  | alone rest => rw [h.2] at hmem; exact absurd hmem List.not_mem_nil
  | aloneSending job rest => rw [h.2] at hmem; exact absurd hmem List.not_mem_nil
  | starting started => exact absurd h.2.2.2.2 hnot
  | feeding rest => exact absurd h.2.2.2 hnot
  | closing => exact absurd h.2 hnot
  | waiting => exact h
  | returned => exact absurd (h.2 _ hmem) Worker.noConfusion

/-- So does every scheduled act. -/
theorem Kept.step (hk : Kept emails s) (h : ActStep emails s a s') : Kept emails s' := by
  cases h with
  | cancel =>
    exact ⟨hk.handed, hk.placed.cancel⟩
  | go s' hgo => exact hk.go hgo
  | sent job rest err hf =>
    obtain ⟨hhanded, hplaced⟩ := hk
    rw [hf] at hhanded hplaced
    refine ⟨?_, hplaced⟩
    show s.begun.Perm ((s.served ++ [job]) ++ (s.inHand ++ []))
    rw [List.append_nil, List.append_assoc]
    exact hhanded.trans (List.perm_append_comm.append_left _)
  | handOver j job rest hf hw =>
    obtain ⟨hhanded, hplaced⟩ := hk
    rw [hf] at hhanded hplaced
    obtain ⟨hbegun, hlen, hmore, hopen⟩ := hplaced
    refine ⟨?_, by rw [List.append_assoc]; exact hbegun, by rw [List.length_set]; exact hlen,
      hmore, hopen.1, hopen.set j Worker.noConfusion⟩
    -- `jobs` has no buffer: what is taken off the list is in the worker's hand
    show (s.begun ++ [job]).Perm
      (s.served ++ ((s.workers.set j (.sending job)).filterMap Worker.job? ++ []))
    simp only [Feeder.own, List.append_nil] at hhanded ⊢
    refine (hhanded.append_right [job]).trans ?_
    rw [List.append_assoc]
    exact (jobs_taken hw job).symm.append_left s.served
  | stop job rest hf hdone =>
    obtain ⟨hhanded, hplaced⟩ := hk
    rw [hf] at hhanded hplaced
    obtain ⟨hbegun, -, -, hopen⟩ := hplaced
    refine ⟨hhanded, ⟨⟨job :: rest, hbegun⟩, fun h => ?_⟩, hopen⟩
    rw [show s.ctxDone = false from h] at hdone
    cases hdone
  | sentBy j job err hw =>
    refine ⟨?_, hk.placed.set hw Worker.noConfusion Worker.noConfusion _⟩
    show s.begun.Perm ((s.served ++ [job]) ++
      ((s.workers.set j .receiving).filterMap Worker.job? ++ s.feeder.own))
    refine hk.handed.trans ?_
    rw [List.append_assoc]
    refine List.Perm.append_left _ ?_
    rw [← List.append_assoc]
    refine List.Perm.append_right _ ?_
    exact (jobs_done hw).symm.trans List.perm_append_comm
  | exit j hw hclosed =>
    have hsame := ((jobs_left hw).symm.append_right s.feeder.own).append_left s.served
    exact ⟨hk.handed.trans hsame, hk.placed.exit hw hclosed⟩

/-- It holds in every state that can be reached. -/
theorem Kept.steps (hk : Kept emails s) {acts : List Act} (h : s.steps emails acts = some s') :
    Kept emails s' := by
  induction acts generalizing s with
  | nil => cases h; exact hk
  | cons a acts ih =>
    obtain ⟨s₁, hs₁, hrest⟩ := Option.bind_eq_some_iff.mp h
    exact ih (hk.step (step_cases hs₁)) hrest

end Keep

/-! ## It returns

Every step but the end of the context leaves less to do, and as long as there is
something to do some goroutine can go on. -/

/-- What a worker has to do at least. -/
def Worker.todo : Worker → Nat
  | .receiving => 1
  | .sending _ => 2
  | .exited => 0

/-- What `notifySubscribers` has to do at most, without its workers. -/
def Feeder.todo (emails : List String) : Feeder → Nat
  | .alone rest => 2 * rest.length + 1
  | .aloneSending _ rest => 2 * rest.length + 2
  | .starting started => 2 * (workersFor emails - started) + 2 * emails.length + 4
  | .feeding rest => 2 * rest.length + 3
  | .closing => 2
  | .waiting => 1
  | .returned => 0

/-- The steps that are left at most. -/
def Notifying.todo (emails : List String) (s : Notifying) : Nat :=
  s.feeder.todo emails + (s.workers.map Worker.todo).sum

section Return

variable {emails : List String} {s s' : Notifying} {a : Act}

/-- Every move leaves less to do, so a schedule ends. -/
theorem GoStep.todo_lt (h : GoStep emails s s') : s'.todo emails < s.todo emails := by
  cases h with
  | finished hf => simp [Notifying.todo, hf, Feeder.todo]
  | begins job rest hf =>
    simp only [Notifying.todo, hf, Feeder.todo, List.length_cons]
    omega
  | starts started hf hlt =>
    simp only [Notifying.todo, hf, Feeder.todo, List.map_append, List.map_singleton,
      List.sum_append, List.sum_singleton, Worker.todo]
    omega
  | started started hf hge =>
    simp only [Notifying.todo, hf, Feeder.todo, List.length_zipIdx]
    omega
  | fed hf => simp [Notifying.todo, hf, Feeder.todo]
  | closes hf => simp [Notifying.todo, hf, Feeder.todo]
  | waited hf hall => simp [Notifying.todo, hf, Feeder.todo]

theorem ActStep.todo_lt (h : ActStep emails s a s') (ha : a ≠ .cancel) :
    s'.todo emails < s.todo emails := by
  cases h with
  | cancel => exact absurd rfl ha
  | go s' hgo => exact hgo.todo_lt
  | sent job rest err hf => simp [Notifying.todo, hf, Feeder.todo]
  | handOver j job rest hf hw =>
    have hsum := sum_map_set (f := Worker.todo) hw (.sending job)
    simp only [Notifying.todo, hf, Feeder.todo, List.length_cons, Worker.todo] at hsum ⊢
    omega
  | stop job rest hf hdone =>
    simp only [Notifying.todo, hf, Feeder.todo, List.length_cons]
    omega
  | sentBy j job err hw =>
    have hsum := sum_map_set (f := Worker.todo) hw .receiving
    simp only [Notifying.todo, Worker.todo] at hsum ⊢
    omega
  | exit j hw hclosed =>
    have hsum := sum_map_set (f := Worker.todo) hw .exited
    simp only [Notifying.todo, Worker.todo] at hsum ⊢
    omega

/-- A worker that sends can always finish. -/
theorem sentBy_isSome {j : Nat} {job : Job} (h : s.workers[j]? = some (.sending job)) :
    (s.step emails (.sentBy j none)).isSome = true := by
  rw [Notifying.step, h]
  rfl

/-- As long as the call has not returned, some goroutine can go on. -/
theorem Kept.progress (hk : Kept emails s) (hret : s.feeder ≠ .returned) :
    ∃ a, a ≠ .cancel ∧ (s.step emails a).isSome = true := by
  have hplaced := hk.placed
  cases hf : s.feeder with
  | alone rest =>
    refine ⟨.go, Act.noConfusion, ?_⟩
    rw [Notifying.step, Notifying.go, hf]
    cases rest with
    | nil => rfl
    | cons job rest => rfl
  | aloneSending job rest =>
    refine ⟨.sent none, Act.noConfusion, ?_⟩
    rw [Notifying.step, hf]
    rfl
  | starting started =>
    refine ⟨.go, Act.noConfusion, ?_⟩
    rw [Notifying.step, Notifying.go, hf]
    simp only
    split
    · rfl
    · rfl
  | feeding rest =>
    rw [hf] at hplaced
    obtain ⟨-, hlen, hmore, -, hopen⟩ := hplaced
    cases rest with
    | nil =>
      refine ⟨.go, Act.noConfusion, ?_⟩
      rw [Notifying.step, Notifying.go, hf]
      rfl
    | cons job rest =>
      -- the first worker receives or sends
      have hfirst : s.workers[0]? = some (s.workers.get ⟨0, by omega⟩) :=
        List.getElem?_eq_getElem _
      cases hw : s.workers.get ⟨0, by omega⟩ with
      | receiving =>
        rw [hw] at hfirst
        refine ⟨.handOver 0, Act.noConfusion, ?_⟩
        rw [Notifying.step, hf, hfirst]
        rfl
      | sending job' =>
        rw [hw] at hfirst
        exact ⟨.sentBy 0 none, Act.noConfusion, sentBy_isSome hfirst⟩
      | exited => exact absurd hw (hopen _ (List.get_mem _ _))
  | closing =>
    refine ⟨.go, Act.noConfusion, ?_⟩
    rw [Notifying.step, Notifying.go, hf]
    rfl
  | waiting =>
    rw [hf] at hplaced
    by_cases hall : ∀ w ∈ s.workers, w = .exited
    · refine ⟨.go, Act.noConfusion, ?_⟩
      have hexited : s.workers.all (fun w => decide (w = .exited)) = true :=
        List.all_eq_true.mpr (fun w hw => decide_eq_true (hall w hw))
      rw [Notifying.step, Notifying.go, hf]
      simp only [hexited, if_true]
      rfl
    · obtain ⟨w, hmem, hstays⟩ : ∃ w ∈ s.workers, w ≠ .exited := by
        by_contra hnone
        exact hall (fun w hw => by_contra fun h => hnone ⟨w, hw, h⟩)
      obtain ⟨j, hj⟩ := List.getElem?_of_mem hmem
      cases w with
      | receiving =>
        refine ⟨.exit j, Act.noConfusion, ?_⟩
        rw [Notifying.step, hj]
        simp only [hplaced.2, if_true]
        rfl
      | sending job => exact ⟨.sentBy j none, Act.noConfusion, sentBy_isSome hj⟩
      | exited => exact absurd rfl hstays
  | returned => exact absurd hf hret

/-- So it can be brought to its end, and the context need not be done for it. -/
theorem Kept.returns (hk : Kept emails s) :
    ∃ acts s', .cancel ∉ acts ∧ s.steps emails acts = some s' ∧ s'.feeder = .returned := by
  induction hn : s.todo emails using Nat.strong_induction_on generalizing s with
  | _ n ih =>
    by_cases hret : s.feeder = .returned
    · exact ⟨[], s, List.not_mem_nil, rfl, hret⟩
    · obtain ⟨a, ha, hsome⟩ := hk.progress hret
      obtain ⟨s₁, hs₁⟩ := Option.isSome_iff_exists.mp hsome
      have hstep := step_cases hs₁
      obtain ⟨acts, s', hnot, hrest, hend⟩ :=
        ih _ (by rw [← hn]; exact hstep.todo_lt ha) (hk.step hstep) rfl
      refine ⟨a :: acts, s', ?_, ?_, hend⟩
      · rw [List.mem_cons, not_or]
        exact ⟨fun h => ha h.symm, hnot⟩
      · rw [Notifying.steps, hs₁]
        exact hrest

/-- No schedule goes on for ever. -/
theorem steps_length_le {acts : List Act} (h : s.steps emails acts = some s') :
    (acts.filter (fun a => decide (a ≠ .cancel))).length + s'.todo emails ≤ s.todo emails := by
  induction acts generalizing s with
  | nil =>
    cases h
    simp
  | cons a acts ih =>
    obtain ⟨s₁, hs₁, hrest⟩ := Option.bind_eq_some_iff.mp h
    have hle := ih hrest
    by_cases ha : a = .cancel
    · subst ha
      cases hs₁
      rw [List.filter_cons_of_neg (by simp)]
      exact hle
    · have hlt := (step_cases hs₁).todo_lt ha
      rw [List.filter_cons_of_pos (by simpa using ha), List.length_cons]
      omega

/-- Only `cancel` makes the context done. -/
theorem ctxDone_of_steps {acts : List Act} (h : s.steps emails acts = some s')
    (hnot : .cancel ∉ acts) : s'.ctxDone = s.ctxDone := by
  induction acts generalizing s with
  | nil => cases h; rfl
  | cons a acts ih =>
    rw [List.mem_cons, not_or] at hnot
    obtain ⟨s₁, hs₁, hrest⟩ := Option.bind_eq_some_iff.mp h
    rw [ih hrest hnot.2]
    cases step_cases hs₁ with
    | cancel => exact absurd rfl hnot.1
    | go _ hgo => cases hgo <;> rfl
    | _ => rfl

end Return

/-! ## The fan-out of the model

What the goroutines send, in the order in which `sendOne` returns, the program of
the model can send in the same order. -/

/-- The jobs that have not been handed over. -/
def Feeder.left (emails : List String) : Feeder → List Job
  | .starting _ => emails.zipIdx
  | .feeding rest => rest
  | _ => []

/-- The loop without workers. -/
def Feeder.isAlone : Feeder → Bool
  | .alone _ => true
  | .aloneSending _ _ => true
  | _ => false

/-- A fan-out that stands for the goroutines. -/
structure Folds (emails : List String) (s : Notifying) (f : Fan) : Prop where
  pooled : s.feeder.isAlone = false
  rest : f.rest = (s.feeder.left emails).map Prod.fst
  held : f.held.Perm (s.inHand.map Prod.fst)
  idle : f.idle + f.held.length = workersFor emails

section Cover

variable {emails : List String} {s s' : Notifying} {f : Fan} {repo : TrackedRepository}
variable {rel : Release}

/-- The call of the mailer for a job. -/
def mailFor (repo : TrackedRepository) (rel : Release) (job : Job) : Mail :=
  ⟨job.1, fullName repo, rel⟩

/-- The state after the calls of the mailer for some jobs. -/
def State.mailed (st : State) (repo : TrackedRepository) (rel : Release) (jobs : List Job) : State :=
  { st with sent := st.sent ++ jobs.map (mailFor repo rel) }

theorem mailed_nil (st : State) : st.mailed repo rel [] = st := by
  simp [State.mailed]

/-- Two batches of mails are one. -/
theorem mailed_mailed (st : State) (jobs jobs' : List Job) :
    (st.mailed repo rel jobs).mailed repo rel jobs' = st.mailed repo rel (jobs ++ jobs') := by
  simp [State.mailed]

/-- `sendOne` is one call of the mailer, whether it fails or not. -/
theorem returns_sendOne (err : Option Fault) (st st' : State) (job : Job) (next : P Unit)
    (h : Prog.Returns exec next (st.mailed repo rel [job]) () st') :
    Prog.Returns exec (sendOne repo rel job.1 >>= fun _ => next) st () st' := by
  cases err with
  | none =>
    have hsend : exec st (.sendReleaseNotification (mailFor repo rel job)) (.ends .ok)
        = some (.ok (), st.mailed repo rel [job]) := rfl
    exact .op hsend h
  | some e =>
    have hsend : exec st (.sendReleaseNotification (mailFor repo rel job)) (.ends (.fail e))
        = some (.error e.err, st.mailed repo rel [job]) := rfl
    exact .op hsend h

theorem inHand_eq_nil (h : ∀ w ∈ s.workers, w = .exited) : s.inHand = [] := by
  rw [Notifying.inHand, List.filterMap_eq_nil_iff]
  intro w hw
  rw [h w hw]
  rfl

/-- A worker that receives has no job. -/
theorem inHand_length_lt {j : Nat} (hw : s.workers[j]? = some .receiving) :
    s.inHand.length < s.workers.length := by
  obtain ⟨front, back, hsplit, -⟩ := exists_split_set hw
  have hfront := List.length_filterMap_le Worker.job? front
  have hback := List.length_filterMap_le Worker.job? back
  have hnone : Worker.job? .receiving = none := rfl
  rw [Notifying.inHand, hsplit, List.filterMap_append, List.filterMap_cons, hnone]
  simp only [List.length_append, List.length_cons]
  omega

/-- One move of the fan-out. -/
theorem returns_fanOut {fuel : Nat} {m : Move} {st st' : State} (hmove : f.enabled m = true)
    (h : Prog.Returns exec (fanStep repo rel (fanOut repo rel fuel) f m) st () st') :
    Prog.Returns exec (fanOut repo rel (fuel + 1) f) st () st' := by
  have hmore : ¬ (f.rest = [] ∧ f.held = []) := by
    rintro ⟨hrest, hheld⟩
    cases m with
    | handOver => simp [Fan.enabled, hrest] at hmove
    | send k => simp [Fan.enabled, hheld] at hmove
    | stop => simp [Fan.enabled, hrest] at hmove
  have hop : exec st (.schedule f) (.moves m) = some (m, st) := by
    simp only [exec, hmove, if_true]
  rw [fanOut, if_neg hmore]
  exact .op hop h

theorem GoStep.served (h : GoStep emails s s') : s'.served = s.served := by
  cases h <;> rfl

/-- Starting the workers, closing `jobs` and waiting are no moves. -/
theorem Folds.go (hf : Folds emails s f) (h : GoStep emails s s') : Folds emails s' f := by
  obtain ⟨hpooled, hrest, hheld, hidle⟩ := hf
  cases h with
  | finished hfeed => rw [hfeed] at hpooled; cases hpooled
  | begins job rest hfeed => rw [hfeed] at hpooled; cases hpooled
  | starts started hfeed hlt =>
    rw [hfeed] at hrest
    have hnone : [Worker.receiving].filterMap Worker.job? = [] := rfl
    refine ⟨rfl, hrest, ?_, hidle⟩
    show f.held.Perm (((s.workers ++ [Worker.receiving]).filterMap Worker.job?).map Prod.fst)
    rw [List.filterMap_append, hnone, List.append_nil]
    exact hheld
  | started started hfeed hge => rw [hfeed] at hrest; exact ⟨rfl, hrest, hheld, hidle⟩
  | fed hfeed => rw [hfeed] at hrest; exact ⟨rfl, hrest, hheld, hidle⟩
  | closes hfeed => rw [hfeed] at hrest; exact ⟨rfl, hrest, hheld, hidle⟩
  | waited hfeed hall => rw [hfeed] at hrest; exact ⟨rfl, hrest, hheld, hidle⟩

/-- A job that is handed over is an address that changes hands. -/
theorem Folds.handOver (hf : Folds emails s f) (hk : Kept emails s) {j : Nat} {job : Job}
    {rest : List Job} (hfeed : s.feeder = .feeding (job :: rest))
    (hw : s.workers[j]? = some .receiving) :
    ∃ idle, f.rest = job.1 :: rest.map Prod.fst ∧ f.idle = idle + 1 ∧
      Folds emails { s with
        feeder := .feeding rest
        workers := s.workers.set j (.sending job)
        begun := s.begun ++ [job] } ⟨rest.map Prod.fst, idle, f.held ++ [job.1]⟩ := by
  have hplaced := hk.placed
  rw [hfeed] at hplaced
  have hbusy := inHand_length_lt hw
  have hlen := hf.held.length_eq
  have hidle := hf.idle
  rw [List.length_map] at hlen
  rw [hplaced.2.1] at hbusy
  refine ⟨f.idle - 1, ?_, by omega, rfl, rfl, ?_, ?_⟩
  · rw [hf.rest, hfeed]
    rfl
  · show (f.held ++ [job.1]).Perm
      (((s.workers.set j (.sending job)).filterMap Worker.job?).map Prod.fst)
    refine (hf.held.append_right [job.1]).trans ?_
    have hmap := ((jobs_taken hw job).map Prod.fst).symm
    rw [List.map_append] at hmap
    exact hmap
  · show f.idle - 1 + (f.held ++ [job.1]).length = workersFor emails
    rw [List.length_append, List.length_singleton]
    omega

/-- A send that returns. -/
theorem Folds.sentBy (hf : Folds emails s f) {j : Nat} {job : Job}
    (hw : s.workers[j]? = some (.sending job)) :
    ∃ k, f.held[k]? = some job.1 ∧
      Folds emails { s with workers := s.workers.set j .receiving, served := s.served ++ [job] }
        ⟨f.rest, f.idle + 1, f.held.eraseIdx k⟩ := by
  have hheld : f.held.Perm
      (job.1 :: ((s.workers.set j .receiving).filterMap Worker.job?).map Prod.fst) := by
    refine hf.held.trans (((jobs_done hw).map Prod.fst).symm.trans ?_)
    rw [List.map_append]
    exact List.perm_append_comm
  have hmem : job.1 ∈ f.held := hheld.mem_iff.mpr List.mem_cons_self
  obtain ⟨k, hk⟩ := List.getElem?_of_mem hmem
  obtain ⟨hlt, hget⟩ := List.getElem?_eq_some_iff.mp hk
  have hlen := List.length_eraseIdx_of_lt hlt
  have hidle := hf.idle
  refine ⟨k, hk, hf.pooled, hf.rest, ?_, ?_⟩
  · have hout : (f.held[k] :: f.held.eraseIdx k).Perm f.held :=
      ((List.erase_getElem hlt).symm.cons _).trans
        (List.perm_cons_erase (List.getElem_mem hlt)).symm
    rw [hget] at hout
    exact (hout.trans hheld).cons_inv
  · show f.idle + 1 + (f.held.eraseIdx k).length = workersFor emails
    omega

/-- A worker that leaves had no job. -/
theorem Folds.exit (hf : Folds emails s f) {j : Nat} (hw : s.workers[j]? = some .receiving) :
    Folds emails { s with workers := s.workers.set j .exited } f :=
  ⟨hf.pooled, hf.rest, hf.held.trans ((jobs_left hw).map Prod.fst).symm, hf.idle⟩

/-- **Every schedule of the workers is a run of the model's fan-out.** -/
theorem fanOut_covers (repo : TrackedRepository) (rel : Release) (hk : Kept emails s)
    (hf : Folds emails s f) {fuel : Nat} (hfuel : f.moves < fuel) {acts : List Act}
    (h : s.steps emails acts = some s')
    (hret : s'.feeder = .returned) (st : State) :
    ∃ more, s'.served = s.served ++ more ∧
      Prog.Returns exec (fanOut repo rel fuel f) st () (st.mailed repo rel more) := by
  induction acts generalizing s f fuel st with
  | nil =>
    cases h
    -- everything has been handed over and sent
    have hplaced := hk.placed
    rw [hret] at hplaced
    have hheld : f.held = [] := by
      have hperm := hf.held
      rw [inHand_eq_nil hplaced.2] at hperm
      exact hperm.eq_nil
    have hrest : f.rest = [] := by rw [hf.rest, hret]; rfl
    refine ⟨[], by rw [List.append_nil], ?_⟩
    obtain ⟨n, rfl⟩ := Nat.exists_eq_add_of_lt hfuel
    rw [fanOut, if_pos ⟨hrest, hheld⟩, mailed_nil]
    exact .ret () st
  | cons a acts ih =>
    obtain ⟨s₁, hs₁, hsteps⟩ := Option.bind_eq_some_iff.mp h
    have hstep := step_cases hs₁
    have hk₁ := hk.step hstep
    obtain ⟨n, rfl⟩ : ∃ n, fuel = n + 1 := ⟨fuel - 1, by omega⟩
    have hplaced := hk.placed
    cases hstep with
    | cancel => exact ih hk₁ ⟨hf.pooled, hf.rest, hf.held, hf.idle⟩ hfuel hsteps st
    | go s₁ hgo =>
      rw [← hgo.served]
      exact ih hk₁ (hf.go hgo) hfuel hsteps st
    | sent job rest err hfeed =>
      have hpooled := hf.pooled
      rw [hfeed] at hpooled
      cases hpooled
    | handOver j job rest hfeed hw =>
      obtain ⟨idle, hrest, hidle, hf₁⟩ := hf.handOver hk hfeed hw
      have hfewer : Fan.moves ⟨rest.map Prod.fst, idle, f.held ++ [job.1]⟩ < n := by
        simp only [Fan.moves, hrest, List.length_cons, List.length_append, List.length_nil]
          at hfuel ⊢
        omega
      obtain ⟨more, hserved, hreturns⟩ := ih hk₁ hf₁ hfewer hsteps st
      refine ⟨more, hserved, returns_fanOut (m := .handOver) ?_ ?_⟩
      · simp [Fan.enabled, hrest, hidle]
      · simp only [fanStep, hrest, hidle]
        exact hreturns
    | stop job rest hfeed hdone =>
      have hrest : f.rest = job.1 :: rest.map Prod.fst := by rw [hf.rest, hfeed]; rfl
      have hf₁ : Folds emails { s with feeder := .closing } ⟨[], f.idle, f.held⟩ :=
        ⟨rfl, rfl, hf.held, hf.idle⟩
      have hfewer : Fan.moves ⟨[], f.idle, f.held⟩ < n := by
        simp only [Fan.moves, hrest, List.length_cons, List.length_nil] at hfuel ⊢
        omega
      obtain ⟨more, hserved, hreturns⟩ := ih hk₁ hf₁ hfewer hsteps st
      refine ⟨more, hserved, returns_fanOut (m := .stop) ?_ ?_⟩
      · simp [Fan.enabled, hrest]
      · simp only [fanStep, hrest]
        exact hreturns
    | sentBy j job err hw =>
      obtain ⟨k, hheld, hf₁⟩ := hf.sentBy hw
      have hlt := (List.getElem?_eq_some_iff.mp hheld).1
      have hlen := List.length_eraseIdx_of_lt hlt
      have hfewer : Fan.moves ⟨f.rest, f.idle + 1, f.held.eraseIdx k⟩ < n := by
        simp only [Fan.moves] at hfuel ⊢
        omega
      obtain ⟨more, hserved, hreturns⟩ := ih hk₁ hf₁ hfewer hsteps (st.mailed repo rel [job])
      refine ⟨job :: more, by rw [hserved, List.append_assoc]; rfl,
        returns_fanOut (m := .send k) (decide_eq_true hlt) ?_⟩
      rw [mailed_mailed] at hreturns
      simp only [fanStep, hheld]
      exact returns_sendOne err st _ job _ hreturns
    | exit j hw hclosed => exact ih hk₁ (hf.exit hw) hfuel hsteps st

/-- What the loop without workers still does. -/
def Feeder.alone? (repo : TrackedRepository) (rel : Release) : Feeder → P Unit
  | .alone rest => sendAll repo rel (rest.map Prod.fst)
  | .aloneSending job rest => do
    sendOne repo rel job.1
    sendAll repo rel (rest.map Prod.fst)
  | _ => return ()

/-- Without workers the feeder sends on its own, as the loop of the model does. -/
theorem sendAll_covers (repo : TrackedRepository) (rel : Release) {acts : List Act}
    (h : s.steps emails acts = some s') (hret : s'.feeder = .returned) (hnone : s.workers = [])
    (halone : s.feeder.isAlone = true ∨ s.feeder = .returned) (st : State) :
    ∃ more, s'.served = s.served ++ more ∧
      Prog.Returns exec (s.feeder.alone? repo rel) st () (st.mailed repo rel more) := by
  have hnobody : ∀ (j : Nat) (w : Worker), s.workers[j]? ≠ some w := by
    intro j w hw
    rw [hnone] at hw
    cases hw
  induction acts generalizing s st with
  | nil =>
    cases h
    refine ⟨[], by rw [List.append_nil], ?_⟩
    rw [hret, mailed_nil]
    exact .ret () st
  | cons a acts ih =>
    obtain ⟨s₁, hs₁, hsteps⟩ := Option.bind_eq_some_iff.mp h
    -- the places of the loop with workers are not reached
    have helse : ∀ {f : Feeder}, s.feeder = f → f.isAlone = false → f ≠ .returned → False := by
      rintro f rfl hpooled hstays
      rcases halone with halone | hreturned
      · rw [hpooled] at halone
        cases halone
      · exact hstays hreturned
    cases step_cases hs₁ with
    | cancel => exact ih hsteps hnone halone st hnobody
    | go s₁ hgo =>
      cases hgo with
      | finished hf =>
        rw [hf]
        exact ih hsteps hnone (.inr rfl) st hnobody
      | begins job rest hf =>
        rw [hf]
        exact ih hsteps hnone (.inl rfl) st hnobody
      | starts started hf hlt => exact (helse hf rfl Feeder.noConfusion).elim
      | started started hf hge => exact (helse hf rfl Feeder.noConfusion).elim
      | fed hf => exact (helse hf rfl Feeder.noConfusion).elim
      | closes hf => exact (helse hf rfl Feeder.noConfusion).elim
      | waited hf hall => exact (helse hf rfl Feeder.noConfusion).elim
    | sent job rest err hf =>
      obtain ⟨more, hserved, hreturns⟩ :=
        ih hsteps hnone (.inl rfl) (st.mailed repo rel [job]) hnobody
      refine ⟨job :: more, by rw [hserved, List.append_assoc]; rfl, ?_⟩
      rw [mailed_mailed] at hreturns
      rw [hf]
      exact returns_sendOne err st _ job _ hreturns
    | handOver j job rest hf hw => exact absurd hw (hnobody j _)
    | stop job rest hf hdone => exact (helse hf rfl Feeder.noConfusion).elim
    | sentBy j job err hw => exact absurd hw (hnobody j _)
    | exit j hw hclosed => exact absurd hw (hnobody j _)

/-- **The model covers the goroutines.** Whatever the schedule, `notifySubscribers`
of the model can return with the same calls of the mailer in the same order. -/
theorem notifySubscribers_covers {acts : List Act}
    (h : (Notifying.start emails).steps emails acts = some s) (hret : s.feeder = .returned)
    (st : State) :
    Prog.Returns exec (notifySubscribers repo rel) st () (st.mailed repo rel s.served) := by
  have hemails : exec st (.stmtGetEmailsByRepo repo.owner repo.name) (.emails emails)
      = some (.ok emails, st) := rfl
  refine .op hemails ?_
  have hjobs : emails.zipIdx.map Prod.fst = emails := List.zipIdx_map_fst 0 emails
  show Prog.Returns exec (if workersFor emails ≤ 1 then sendAll repo rel emails
    else fanOut repo rel ((Fan.mk emails (workersFor emails) []).moves + 1)
      ⟨emails, workersFor emails, []⟩) st () _
  have hstart := Kept.start emails
  by_cases hfew : workersFor emails ≤ 1
  · have hfeed : (Notifying.start emails).feeder = .alone emails.zipIdx := if_pos hfew
    obtain ⟨more, hserved, hreturns⟩ := sendAll_covers repo rel h hret rfl
      (.inl (by rw [hfeed]; rfl)) st
    rw [hfeed, Feeder.alone?, hjobs] at hreturns
    rw [if_pos hfew, hserved]
    exact hreturns
  · have hfeed : (Notifying.start emails).feeder = .starting 0 := if_neg hfew
    have hfolds : Folds emails (Notifying.start emails) ⟨emails, workersFor emails, []⟩ := by
      refine ⟨by rw [hfeed]; rfl, ?_, List.Perm.refl _, rfl⟩
      rw [hfeed]
      exact hjobs.symm
    obtain ⟨more, hserved, hreturns⟩ := fanOut_covers repo rel hstart hfolds
      (Nat.lt_succ_self _) h hret st
    rw [if_neg hfew, hserved]
    exact hreturns

end Cover

/-! ## Exactly once -/

/-- **No recipient is dropped or repeated.** For every list of addresses and every
schedule, with sends that fail or not: at every moment the jobs for which
`sendOne` has been called are the front of the list, each once, and those for
which it has returned are among them. When `notifySubscribers` has returned, no
worker is running, every job begun has been served, and unless the context has
been done these are all jobs of the list. From every state it can come to its
end, and no schedule goes on for ever. -/
theorem recipients_exactly_once (emails : List String) (acts : List Act) (s : Notifying)
    (h : (Notifying.start emails).steps emails acts = some s) :
    s.begun <+: emails.zipIdx ∧ s.served.Subperm s.begun ∧
      (s.feeder = .returned → (∀ w ∈ s.workers, w = .exited) ∧ s.served.Perm s.begun ∧
        (.cancel ∉ acts → s.served.Perm emails.zipIdx)) ∧
      (∃ more s', .cancel ∉ more ∧ s.steps emails more = some s' ∧ s'.feeder = .returned) ∧
      (acts.filter (fun a => decide (a ≠ .cancel))).length
        ≤ (Notifying.start emails).todo emails := by
  have hk := (Kept.start emails).steps h
  have hplaced := hk.placed
  refine ⟨?_, ?_, fun hret => ?_, hk.returns, ?_⟩
  · cases hf : s.feeder with
    | alone rest => rw [hf] at hplaced; exact ⟨rest, hplaced.1⟩
    | aloneSending job rest => rw [hf] at hplaced; exact ⟨rest, hplaced.1⟩
    | starting started => rw [hf] at hplaced; rw [hplaced.1]; exact List.nil_prefix
    | feeding rest => rw [hf] at hplaced; exact ⟨rest, hplaced.1⟩
    | _ => rw [hf] at hplaced; exact hplaced.1.1
  · exact (List.sublist_append_left s.served _).subperm.trans hk.handed.symm.subperm
  · rw [hret] at hplaced
    have hserved : s.served.Perm s.begun := by
      have hhanded := hk.handed
      rw [inHand_eq_nil hplaced.2, hret] at hhanded
      simpa only [Feeder.own, List.append_nil] using hhanded.symm
    refine ⟨hplaced.2, hserved, fun hnot => ?_⟩
    have hctx : s.ctxDone = false := ctxDone_of_steps h hnot
    rw [hplaced.1.2 hctx] at hserved
    exact hserved
  · have hle := steps_length_le h
    omega

/-- Two addresses, two workers; the second is served first, and its send fails. -/
def sampleSchedule : List Act :=
  [.go, .go, .go, .handOver 0, .handOver 1, .sentBy 1 (some (.io "smtp")), .go, .go, .exit 1,
    .sentBy 0 none, .exit 0, .go]

/-- Both addresses are served, although one send fails. -/
theorem recipients_exactly_once_two :
    ∃ s, (Notifying.start ["a@b.c", "d@e.f"]).steps ["a@b.c", "d@e.f"] sampleSchedule = some s ∧
      s.feeder = .returned ∧ s.served = [("d@e.f", 1), ("a@b.c", 0)] ∧
      s.served.Perm ["a@b.c", "d@e.f"].zipIdx := by
  have hrun : ((Notifying.start ["a@b.c", "d@e.f"]).steps ["a@b.c", "d@e.f"] sampleSchedule).any
      (fun s => decide (s.feeder = .returned ∧ s.served = [("d@e.f", 1), ("a@b.c", 0)])) = true := by
    decide
  obtain ⟨s, hs, hend⟩ := (Option.any_eq_true _ _).mp hrun
  obtain ⟨hret, hserved⟩ := of_decide_eq_true hend
  obtain ⟨-, -, hreturned, -, -⟩ := recipients_exactly_once _ _ s hs
  exact ⟨s, hs, hret, hserved, (hreturned hret).2.2 (by decide)⟩

end ReleaseNotifier.Poller
