/-
The servers of the notifier: `runServers` and the four goroutines it starts.

The gRPC server, the REST server and the two consumers run side by side under one
context. Each goroutine puts its error into its place of `errs`, cancels the context and
calls `Done`, in this order; `runServers` waits for all four and joins the errors. The
calls of the pool are `runServers` and the goroutines, which begin some time after their
`go` statement; the world may cancel the parent context at any time.

What there is to know: `runServers` returns only after everybody has, with everybody's
error; who leaves takes the others along; and after the context is cancelled nobody is
stuck, so the counter of the `WaitGroup` comes down to zero and never below it.
-/
import ReleaseNotifier.Conc.Protocol
import ReleaseNotifier.Errors
import Mathlib.Data.List.Perm.Subperm

set_option autoImplicit false

namespace ReleaseNotifier.Serving

open Conc

/-! ## `run.go`, `grpc.go` and `rest.go` -/

/-- The goroutines, in the order of `errs`. -/
inductive Worker
  | grpc
  | consumer
  | sagaConsumer
  | rest
  deriving DecidableEq, Repr

def workers : List Worker := [.grpc, .consumer, .sagaConsumer, .rest]

theorem mem_workers (w : Worker) : w ∈ workers := by cases w <;> decide

inductive Op
  /-- `wg.Add`. -/
  | add (n : Nat)
  /-- A `go` statement. -/
  | launch (w : Worker)
  /-- `wg.Wait`. -/
  | wait
  /-- `errors.Join(errs...)`. -/
  | collect
  | cancel
  | listen (w : Worker)
  /-- The first `select` of a server: it failed, or the context is done. -/
  | selectServer (w : Worker)
  /-- `server.Stop`. -/
  | stop (w : Worker)
  /-- `GracefulStop` in a goroutine, and the `select` for it: done in time or not. -/
  | gracefulStop (w : Worker)
  /-- `<-stopped`. -/
  | awaitStopped (w : Worker)
  /-- `srv.Shutdown`. -/
  | shutdown (w : Worker)
  /-- `messaging.RunConsumer`. -/
  | consume (w : Worker)
  /-- The assignment to `errs`. -/
  | record (w : Worker) (err : Option Err)
  /-- `wg.Done`. -/
  | done (w : Worker)

abbrev Op.Res : Op → Type
  | .add _ => Unit
  | .launch _ => Unit
  | .wait => Unit
  | .collect => Option Err
  | .cancel => Unit
  | .listen _ => Except Err Unit
  | .selectServer _ => Option Err
  | .stop _ => Unit
  | .gracefulStop _ => Bool
  | .awaitStopped _ => Unit
  | .shutdown _ => Option Err
  | .consume _ => Option Err
  | .record _ _ => Unit
  | .done _ => Unit

abbrev P (α : Type) := Prog Op Op.Res α

def perform (o : Op) : P o.Res := Prog.perform o

/-- `runGRPCServer`, for the server at `addr`. -/
def runGRPCServer (addr : String) : P (Option Err) := do
  match ← perform (.listen .grpc) with
  | .error err => return some (.wrap ("listen grpc addr=" ++ addr) err)
  | .ok () =>
    match ← perform (.selectServer .grpc) with
    | some err =>
      perform (.stop .grpc)
      return some (.wrap "grpc server error" err)
    | none =>
      if ← perform (.gracefulStop .grpc) then return none
      else
        perform (.stop .grpc)
        perform (.awaitStopped .grpc)
        return none

/-- `runRESTServer`, for the server at `addr`. -/
def runRESTServer (addr : String) : P (Option Err) := do
  match ← perform (.listen .rest) with
  | .error err => return some (.wrap ("listen rest addr=" ++ addr) err)
  | .ok () =>
    match ← perform (.selectServer .rest) with
    | some err => return some (.wrap "rest server error" err)
    | none => return (← perform (.shutdown .rest)).map (Err.wrap "rest server shutdown")

/-- The addresses in the configuration. -/
structure Config where
  grpcAddr : String
  restAddr : String

/-- The function of a goroutine. -/
def body (cfg : Config) : Worker → P (Option Err)
  | .grpc => runGRPCServer cfg.grpcAddr
  | .consumer => perform (.consume .consumer)
  | .sagaConsumer => perform (.consume .sagaConsumer)
  | .rest => runRESTServer cfg.restAddr

/-- A goroutine of `runServers`; the deferred calls come in reverse. -/
def goroutine (cfg : Config) (w : Worker) : P (Option Err) := do
  let err ← body cfg w
  perform (.record w err)
  perform .cancel
  perform (.done w)
  return err

/-- The four `go` statements. -/
def launchAll : List Worker → P Unit
  | [] => return ()
  | w :: ws => do
    perform (.launch w)
    launchAll ws

/-- `runServers`. -/
def runServers : P (Option Err) := do
  perform (.add workers.length)
  launchAll workers
  perform .wait
  let result ← perform .collect
  -- the deferred `cancel`
  perform .cancel
  return result

/-! ## The process -/

inductive Call
  | runServers
  | goroutine (w : Worker)
  deriving DecidableEq

structure State where
  /-- The context is done. -/
  cancelled : Bool
  /-- The counter of the `WaitGroup`. -/
  counter : Nat
  launched : List Worker
  errs : Worker → Option Err
  /-- The server of this goroutine accepts or answers requests. -/
  serving : Worker → Bool
  /-- The goroutines that have called `Done`. -/
  finished : List Worker
  /-- The calls made. -/
  begun : List Call

/-- `errors.Join`. -/
def joinAll (errs : Worker → Option Err) : Option Err :=
  workers.foldr (fun w rest => joinErrors (errs w) rest) none

/-- How an operation ends: as it should, or with an error of the outside. -/
inductive Turn
  | ok
  | fail (err : Err)

def State.setServing (s : State) (w : Worker) (b : Bool) : State :=
  { s with serving := fun w' => if w' = w then b else s.serving w' }

def exec (s : State) : (o : Op) → Turn → Option (o.Res × State)
  | .add n, _ => some ((), { s with counter := s.counter + n })
  | .launch w, _ => some ((), { s with launched := w :: s.launched })
  | .wait, _ => if s.counter = 0 then some ((), s) else none
  | .collect, _ => some (joinAll s.errs, s)
  | .cancel, _ => some ((), { s with cancelled := true })
  | .listen w, .ok => some (.ok (), s.setServing w true)
  | .listen _, .fail err => some (.error err, s)
  | .selectServer _, .ok => if s.cancelled then some (none, s) else none
  | .selectServer _, .fail err => some (some err, s)
  | .stop w, _ => some ((), s.setServing w false)
  | .gracefulStop w, .ok => some (true, s.setServing w false)
  | .gracefulStop _, .fail _ => some (false, s)
  | .awaitStopped _, _ => some ((), s)
  | .shutdown w, .ok => some (none, s.setServing w false)
  | .shutdown _, .fail err => some (some err, s)
  -- a consumer returns when the context is done, or at once if it cannot be configured
  | .consume _, .ok => if s.cancelled then some (none, s) else none
  | .consume _, .fail err => some (some err, s)
  | .record w err, _ =>
    some ((), { s with errs := fun w' => if w' = w then err else s.errs w' })
  | .done w, _ =>
    -- a counter below zero is a panic
    if s.counter = 0 then none
    else some ((), { s with counter := s.counter - 1, finished := w :: s.finished })

/-- A goroutine begins after its `go` statement; nothing is called twice. -/
def enter : Call → State → Option State
  | .runServers, s =>
    if .runServers ∈ s.begun then none else some { s with begun := .runServers :: s.begun }
  | .goroutine w, s =>
    if w ∈ s.launched ∧ .goroutine w ∉ s.begun then
      some { s with begun := .goroutine w :: s.begun }
    else none

def program (cfg : Config) : Call → P (Option Err)
  | .runServers => runServers
  | .goroutine w => goroutine cfg w

/-- The world can end the parent context. -/
def machine (cfg : Config) : Machine Op Op.Res State Turn Call Unit (Option Err) :=
  ⟨program cfg, enter, exec, fun _ s => some { s with cancelled := true }⟩

abbrev Process := Pool Op Op.Res State Call (Option Err)

def init : Process := ⟨⟨false, 0, [], fun _ => none, fun _ => false, [], []⟩, []⟩

/-- A goroutine does not die by itself. -/
def Alive (_ : Process) (e : Event Turn Call Unit) : Prop := ∀ i, e ≠ .kill i

/-! ## Stages -/

/-- How far a call is. -/
inductive Stage
  | start
  /-- `runServers`: these goroutines are still to be launched. -/
  | launching (left : List Worker)
  /-- The wait is over. -/
  | waited
  | collected (result : Option Err)
  | left (result : Option Err)
  /-- A goroutine whose server is in service. -/
  | serving
  /-- A goroutine whose server is out of service again. -/
  | stopped
  | recorded (err : Option Err)
  | cancelling (err : Option Err)
  | done (err : Option Err)

/-- What a call may do at a stage. A goroutine leaves a server in service behind only
with an error. -/
inductive Allows : Call → Stage → Op → Prop
  | add : Allows .runServers .start (.add workers.length)
  | launch (w : Worker) (ws : List Worker) : Allows .runServers (.launching (w :: ws)) (.launch w)
  | wait : Allows .runServers (.launching []) .wait
  | collect : Allows .runServers .waited .collect
  | leave (result : Option Err) : Allows .runServers (.collected result) .cancel
  | listen (w : Worker) : Allows (.goroutine w) .start (.listen w)
  | selectServer (w : Worker) : Allows (.goroutine w) .serving (.selectServer w)
  | stop (w : Worker) : Allows (.goroutine w) .serving (.stop w)
  | gracefulStop (w : Worker) : Allows (.goroutine w) .serving (.gracefulStop w)
  | awaitStopped (w : Worker) : Allows (.goroutine w) .stopped (.awaitStopped w)
  | shutdown (w : Worker) : Allows (.goroutine w) .serving (.shutdown w)
  | consume (w : Worker) : Allows (.goroutine w) .start (.consume w)
  | record (w : Worker) (q : Stage) (err : Option Err)
      (hq : q = .start ∨ q = .stopped ∨ q = .serving ∧ err ≠ none) :
      Allows (.goroutine w) q (.record w err)
  | cancel (w : Worker) (err : Option Err) : Allows (.goroutine w) (.recorded err) .cancel
  | done (w : Worker) (err : Option Err) : Allows (.goroutine w) (.cancelling err) (.done w)

def Stage.next (q : Stage) : (o : Op) → o.Res → Stage
  | .add _, _ => .launching workers
  | .launch _, _ =>
    match q with
    | .launching (_ :: ws) => .launching ws
    | q => q
  | .wait, _ => .waited
  | .collect, result => .collected result
  | .cancel, _ =>
    match q with
    | .collected result => .left result
    | .recorded err => .cancelling err
    | q => q
  | .listen _, .ok _ => .serving
  | .listen _, .error _ => q
  | .selectServer _, _ => q
  | .stop _, _ => .stopped
  | .gracefulStop _, inTime => if inTime then .stopped else q
  | .awaitStopped _, _ => q
  | .shutdown _, none => .stopped
  | .shutdown _, some _ => q
  | .consume _, _ => q
  | .record _ err, _ => .recorded err
  | .done _, _ =>
    match q with
    | .cancelling err => .done err
    | q => q

def stages (c : Call) : Protocol Op Op.Res Stage := ⟨Allows c, Stage.next⟩

/-- The stage a call returns in. -/
def Returned : Call → Option Err → Stage → Prop
  | .runServers, result, q => q = .left result
  | .goroutine _, err, q => q = .done err

/-! ## Programs -/

/-- A goroutine's function returns before its server is in service or after it, or
with an error. -/
def Quits (err : Option Err) (q : Stage) : Prop :=
  q = .start ∨ q = .stopped ∨ q = .serving ∧ err ≠ none

/-- The gRPC server's goroutine stops its server on the way out. -/
theorem runGRPCServer_obeys (addr : String) :
    (runGRPCServer addr).Obeys (stages (.goroutine .grpc)) Quits .start := by
  refine ⟨.listen .grpc, fun r => ?_⟩
  cases r with
  | error err => exact .inl rfl
  | ok _ =>
    refine ⟨.selectServer .grpc, fun r => ?_⟩
    cases r with
    | some err => exact ⟨.stop .grpc, fun _ => .inr (.inl rfl)⟩
    | none =>
      refine ⟨.gracefulStop .grpc, fun inTime => ?_⟩
      cases inTime with
      | true => exact .inr (.inl rfl)
      | false => exact ⟨.stop .grpc, fun _ => ⟨.awaitStopped .grpc, fun _ => .inr (.inl rfl)⟩⟩

theorem runRESTServer_obeys (addr : String) :
    (runRESTServer addr).Obeys (stages (.goroutine .rest)) Quits .start := by
  refine ⟨.listen .rest, fun r => ?_⟩
  cases r with
  | error err => exact .inl rfl
  | ok _ =>
    refine ⟨.selectServer .rest, fun r => ?_⟩
    cases r with
    | some err => exact .inr (.inr ⟨rfl, by simp⟩)
    | none =>
      refine ⟨.shutdown .rest, fun r => ?_⟩
      cases r with
      | none => exact .inr (.inl rfl)
      | some err => exact .inr (.inr ⟨rfl, by simp⟩)

/-- Every goroutine keeps to the order, whichever worker it is. -/
theorem body_obeys (cfg : Config) (w : Worker) :
    (body cfg w).Obeys (stages (.goroutine w)) Quits .start := by
  cases w with
  | grpc => exact runGRPCServer_obeys _
  | rest => exact runRESTServer_obeys _
  | consumer => exact ⟨.consume .consumer, fun _ => .inl rfl⟩
  | sagaConsumer => exact ⟨.consume .sagaConsumer, fun _ => .inl rfl⟩

/-- `runServers` launches each worker once. -/
theorem launchAll_obeys (ws : List Worker) :
    (launchAll ws).Obeys (stages .runServers) (fun _ q => q = .launching []) (.launching ws) := by
  induction ws with
  | nil => rfl
  | cons w ws ih => exact ⟨.launch w ws, fun _ => ih⟩

/-- Every call keeps to its stages. -/
theorem program_obeys (cfg : Config) (c : Call) :
    (program cfg c).Obeys (stages c) (Returned c) .start := by
  cases c with
  | runServers =>
    refine ⟨.add, fun _ => (launchAll_obeys workers).bind (fun _ q hq => ?_)⟩
    subst hq
    exact ⟨.wait, fun _ => ⟨.collect, fun result => ⟨.leave result, fun _ => rfl⟩⟩⟩
  | goroutine w =>
    refine (body_obeys cfg w).bind (fun err q hq => ?_)
    exact ⟨.record w q err hq, fun _ => ⟨.cancel w err, fun _ => ⟨.done w err, fun _ => rfl⟩⟩⟩

/-! ## What holds at a stage -/

/-- What a goroutine has left behind once it has an error to report. -/
def Reported (s : State) (w : Worker) (err : Option Err) : Prop :=
  s.errs w = err ∧ (err = none → s.serving w = false)

/-- What a call knows of the process. -/
def Knows (s : State) : Call → Stage → Prop
  | .runServers, .start => s.counter = 0 ∧ s.launched = [] ∧ s.finished = []
  | .runServers, .launching left =>
    (∀ w, w ∈ s.launched ∨ w ∈ left) ∧ s.counter + s.finished.length = workers.length
  | .runServers, .waited => ∀ w, w ∈ s.finished
  | .runServers, .collected result => (∀ w, w ∈ s.finished) ∧ result = joinAll s.errs
  | .runServers, .left result =>
    (∀ w, w ∈ s.finished) ∧ result = joinAll s.errs ∧ s.cancelled = true
  | .goroutine w, .start => w ∉ s.finished ∧ s.serving w = false
  | .goroutine w, .serving => w ∉ s.finished
  | .goroutine w, .stopped => w ∉ s.finished ∧ s.serving w = false
  | .goroutine w, .recorded err => w ∉ s.finished ∧ Reported s w err
  | .goroutine w, .cancelling err => w ∉ s.finished ∧ Reported s w err ∧ s.cancelled = true
  | .goroutine w, .done err => w ∈ s.finished ∧ Reported s w err ∧ s.cancelled = true
  | _, _ => False

/-- The books of the process. -/
structure Sound (s : State) : Prop where
  distinct : s.finished.Nodup
  counted : s.launched ≠ [] → s.counter + s.finished.length = workers.length
  launched : ∀ w, .goroutine w ∈ s.begun → w ∈ s.launched
  begun : ∀ w ∈ s.finished, .goroutine w ∈ s.begun
  fresh : .runServers ∉ s.begun → s.counter = 0 ∧ s.launched = [] ∧ s.finished = []
  idle : ∀ w, .goroutine w ∉ s.begun → s.serving w = false

/-- Who has not finished is still counted. -/
theorem counter_pos {s : State} {w : Worker} (h : Sound s) (hw : w ∉ s.finished)
    (hbegun : .goroutine w ∈ s.begun) : s.counter ≠ 0 := by
  intro hzero
  have hcount := h.counted (List.ne_nil_of_mem (h.launched w hbegun))
  have hnodup : (w :: s.finished).Nodup := List.nodup_cons.mpr ⟨hw, h.distinct⟩
  have hlen := (List.subperm_of_subset hnodup (fun w' _ => mem_workers w')).length_le
  rw [List.length_cons] at hlen
  omega

/-- At zero everybody has finished. -/
theorem all_finished {s : State} (h : s.finished.Nodup)
    (hcount : s.finished.length = workers.length) (w : Worker) : w ∈ s.finished := by
  have hsub : s.finished.Subperm workers := List.subperm_of_subset h (fun w' _ => mem_workers w')
  exact (hsub.perm_of_length_le (Nat.le_of_eq hcount.symm)).mem_iff.mpr (mem_workers w)

/-! ## One operation -/

section Operations

variable {s s' : State} {c : Call} {q : Stage} {o : Op} {turn : Turn} {r : o.Res}

/-- The operations of a call keep the record of calls. -/
theorem exec_begun {s s' : State} {o : Op} {turn : Turn} {r : o.Res}
    (hx : exec s o turn = some (r, s')) : s'.begun = s.begun := by
  cases o <;> cases turn <;> simp only [exec] at hx <;> try split at hx
  all_goals cases hx <;> rfl

/-- Whoever may still do something has not finished. -/
theorem unfinished_of_allows {w : Worker} (hk : Knows s (.goroutine w) q)
    (ha : Allows (.goroutine w) q o) : w ∉ s.finished := by
  cases ha with
  | record w q err hq =>
    rcases hq with rfl | rfl | ⟨rfl, -⟩
    · exact hk.1
    · exact hk.1
    · exact hk
  | listen w => exact hk.1
  | selectServer w => exact hk
  | stop w => exact hk
  | gracefulStop w => exact hk
  | awaitStopped w => exact hk.1
  | shutdown w => exact hk
  | consume w => exact hk.1
  | cancel w err => exact hk.1
  | done w err => exact hk.1

/-- The call that moves knows what belongs to its next stage. -/
theorem exec_knows (h : Sound s) (hk : Knows s c q) (ha : Allows c q o)
    (hx : exec s o turn = some (r, s')) : Knows s' c (q.next o r) := by
  cases ha with
  | add =>
    cases hx
    obtain ⟨hzero, hnone, hnobody⟩ := hk
    exact ⟨fun w => .inr (mem_workers w), by rw [hzero, hnobody]; rfl⟩
  | launch w ws =>
    cases hx
    refine ⟨fun w' => ?_, hk.2⟩
    rcases hk.1 w' with hl | hleft
    · exact .inl (List.mem_cons_of_mem _ hl)
    · rcases List.mem_cons.mp hleft with rfl | hws
      · exact .inl List.mem_cons_self
      · exact .inr hws
  | wait =>
    simp only [exec] at hx
    split at hx
    · next hzero =>
      cases hx
      have hcount := hk.2
      rw [hzero, Nat.zero_add] at hcount
      exact all_finished h.distinct hcount
    · cases hx
  | collect => cases hx; exact ⟨hk, rfl⟩
  | leave result => cases hx; exact ⟨hk.1, hk.2, rfl⟩
  | listen w =>
    cases turn with
    | ok => cases hx; exact hk.1
    | fail err => cases hx; exact hk
  | selectServer w =>
    cases turn with
    | ok => simp only [exec] at hx; split at hx <;> cases hx; exact hk
    | fail err => cases hx; exact hk
  | stop w => cases hx; exact ⟨hk, if_pos rfl⟩
  | gracefulStop w =>
    cases turn with
    | ok => cases hx; exact ⟨hk, if_pos rfl⟩
    | fail err => cases hx; exact hk
  | awaitStopped w => cases hx; exact hk
  | shutdown w =>
    cases turn with
    | ok => cases hx; exact ⟨hk, if_pos rfl⟩
    | fail err => cases hx; exact hk
  | consume w =>
    cases turn with
    | ok => simp only [exec] at hx; split at hx <;> cases hx; exact hk
    | fail err => cases hx; exact hk
  | record w q err hq =>
    cases hx
    rcases hq with rfl | rfl | ⟨rfl, herr⟩
    · exact ⟨hk.1, if_pos rfl, fun _ => hk.2⟩
    · exact ⟨hk.1, if_pos rfl, fun _ => hk.2⟩
    · exact ⟨hk, if_pos rfl, fun hnone => absurd hnone herr⟩
  | cancel w err => cases hx; exact ⟨hk.1, hk.2, rfl⟩
  | done w err =>
    simp only [exec] at hx
    split at hx
    · cases hx
    · cases hx
      exact ⟨List.mem_cons_self, hk.2.1, hk.2.2⟩

/-- What somebody else's step leaves of what a call knows. -/
def Spares (s s' : State) : Call → Prop
  | .goroutine w => (w ∈ s'.finished ↔ w ∈ s.finished) ∧ s'.errs w = s.errs w ∧
      s'.serving w = s.serving w ∧ (s.cancelled = true → s'.cancelled = true)
  | .runServers => s.launched ≠ [] ∧ s'.launched = s.launched ∧
      s'.counter + s'.finished.length = s.counter + s.finished.length ∧
      (∀ w ∈ s.finished, w ∈ s'.finished) ∧ ((∀ w, w ∈ s.finished) → s'.errs = s.errs) ∧
      (s.cancelled = true → s'.cancelled = true)

/-- What a call knows survives what others do. -/
theorem Spares.knows (hsp : Spares s s' c) (hk : Knows s c q) : Knows s' c q := by
  cases c with
  | goroutine w =>
    obtain ⟨hfin, herrs, hserving, hcancel⟩ := hsp
    cases q with
    | start => exact ⟨hfin.not.mpr hk.1, hserving.trans hk.2⟩
    | serving => exact hfin.not.mpr hk
    | stopped => exact ⟨hfin.not.mpr hk.1, hserving.trans hk.2⟩
    | recorded err =>
      exact ⟨hfin.not.mpr hk.1, herrs.trans hk.2.1, fun h => hserving.trans (hk.2.2 h)⟩
    | cancelling err =>
      exact ⟨hfin.not.mpr hk.1, ⟨herrs.trans hk.2.1.1, fun h => hserving.trans (hk.2.1.2 h)⟩,
        hcancel hk.2.2⟩
    | done err =>
      exact ⟨hfin.mpr hk.1, ⟨herrs.trans hk.2.1.1, fun h => hserving.trans (hk.2.1.2 h)⟩,
        hcancel hk.2.2⟩
    | _ => cases hk
  | runServers =>
    obtain ⟨hne, hlaunched, hcount, hfin, herrs, hcancel⟩ := hsp
    cases q with
    | start => exact absurd hk.2.1 hne
    | launching left =>
      refine ⟨fun w => ?_, hcount.trans hk.2⟩
      rw [hlaunched]
      exact hk.1 w
    | waited => exact fun w => hfin w (hk w)
    | collected result => exact ⟨fun w => hfin w (hk.1 w), by rw [herrs hk.1]; exact hk.2⟩
    | left result =>
      exact ⟨fun w => hfin w (hk.1 w), by rw [herrs hk.1]; exact hk.2.1, hcancel hk.2.2⟩
    | _ => cases hk

/-- `runServers` does not touch what the goroutines know. -/
theorem runServers_effect (ha : Allows .runServers q o) (hx : exec s o turn = some (r, s')) :
    s'.finished = s.finished ∧ s'.errs = s.errs ∧ s'.serving = s.serving ∧
      (s.cancelled = true → s'.cancelled = true) := by
  cases ha with
  | add => cases hx; exact ⟨rfl, rfl, rfl, id⟩
  | launch w ws => cases hx; exact ⟨rfl, rfl, rfl, id⟩
  | wait => simp only [exec] at hx; split at hx <;> cases hx; exact ⟨rfl, rfl, rfl, id⟩
  | collect => cases hx; exact ⟨rfl, rfl, rfl, id⟩
  | leave result => cases hx; exact ⟨rfl, rfl, rfl, fun _ => rfl⟩

/-- A goroutine only touches what is its own, and leaves the group by `Done`. -/
structure Effect (w : Worker) (s s' : State) : Prop where
  launched : s'.launched = s.launched
  count : s'.counter + s'.finished.length = s.counter + s.finished.length
  finished : s'.finished = s.finished ∨ s'.finished = w :: s.finished
  others : ∀ w' ≠ w, s'.errs w' = s.errs w' ∧ s'.serving w' = s.serving w'
  cancelled : s.cancelled = true → s'.cancelled = true

theorem Effect.refl (w : Worker) (s : State) : Effect w s s :=
  ⟨rfl, rfl, .inl rfl, fun _ _ => ⟨rfl, rfl⟩, id⟩

theorem Effect.setServing (w : Worker) (s : State) (b : Bool) : Effect w s (s.setServing w b) :=
  { Effect.refl w s with others := fun _ hne => ⟨rfl, if_neg hne⟩ }

/-- All that a goroutine's operation does to the shared state. -/
theorem goroutine_effect {w : Worker} (ha : Allows (.goroutine w) q o)
    (hx : exec s o turn = some (r, s')) : Effect w s s' := by
  cases ha with
  | listen w =>
    cases turn with
    | ok => cases hx; exact .setServing w s true
    | fail err => cases hx; exact .refl w s
  | selectServer w =>
    cases turn with
    | ok => simp only [exec] at hx; split at hx <;> cases hx; exact .refl w s
    | fail err => cases hx; exact .refl w s
  | stop w => cases hx; exact .setServing w s false
  | gracefulStop w =>
    cases turn with
    | ok => cases hx; exact .setServing w s false
    | fail err => cases hx; exact .refl w s
  | awaitStopped w => cases hx; exact .refl w s
  | shutdown w =>
    cases turn with
    | ok => cases hx; exact .setServing w s false
    | fail err => cases hx; exact .refl w s
  | consume w =>
    cases turn with
    | ok => simp only [exec] at hx; split at hx <;> cases hx; exact .refl w s
    | fail err => cases hx; exact .refl w s
  | record w q err hq =>
    cases hx
    exact { Effect.refl w s with others := fun _ hne => ⟨if_neg hne, rfl⟩ }
  | cancel w err => cases hx; exact { Effect.refl w s with cancelled := fun _ => rfl }
  | done w err =>
    simp only [exec] at hx
    split at hx
    · cases hx
    · next hne =>
      cases hx
      refine { Effect.refl w s with count := ?_, finished := .inr rfl }
      rw [List.length_cons]
      dsimp only
      omega

/-- The books stay in order. -/
theorem exec_sound (h : Sound s) (hk : Knows s c q) (hbegun : c ∈ s.begun) (ha : Allows c q o)
    (hx : exec s o turn = some (r, s')) : Sound s' := by
  have hcalls := exec_begun hx
  cases c with
  | runServers =>
    obtain ⟨hfin, -, hserving, -⟩ := runServers_effect ha hx
    have hbooks : (s'.launched ≠ [] → s'.counter + s'.finished.length = workers.length) ∧
        ∀ w ∈ s.launched, w ∈ s'.launched := by
      cases ha with
      | add => cases hx; exact ⟨fun hne => absurd hk.2.1 hne, fun _ => id⟩
      | launch w ws => cases hx; exact ⟨fun _ => hk.2, fun _ => List.mem_cons_of_mem _⟩
      | wait => simp only [exec] at hx; split at hx <;> cases hx; exact ⟨h.counted, fun _ => id⟩
      | collect => cases hx; exact ⟨h.counted, fun _ => id⟩
      | leave result => cases hx; exact ⟨h.counted, fun _ => id⟩
    exact { distinct := by rw [hfin]; exact h.distinct
            counted := hbooks.1
            launched := fun w hw => hbooks.2 w (h.launched w (hcalls ▸ hw))
            begun := fun w hw => by rw [hcalls]; exact h.begun w (hfin ▸ hw)
            fresh := fun hnew => absurd hbegun (hcalls ▸ hnew)
            idle := fun w hw => by rw [hserving]; exact h.idle w (hcalls ▸ hw) }
  | goroutine w =>
    have heff := goroutine_effect ha hx
    have hlaunched := h.launched w hbegun
    refine { distinct := ?_, counted := fun hne => ?_, launched := fun w' hw' => ?_,
             begun := fun w' hw' => ?_, fresh := fun hnew => ?_, idle := fun w' hw' => ?_ }
    · rcases heff.finished with heq | heq
      · rw [heq]; exact h.distinct
      · rw [heq]; exact List.nodup_cons.mpr ⟨unfinished_of_allows hk ha, h.distinct⟩
    · rw [heff.count]
      exact h.counted (List.ne_nil_of_mem hlaunched)
    · rw [heff.launched]
      exact h.launched w' (hcalls ▸ hw')
    · rw [hcalls]
      rcases heff.finished with heq | heq
      · exact h.begun w' (heq ▸ hw')
      · rcases List.mem_cons.mp (heq ▸ hw') with rfl | hold
        · exact hbegun
        · exact h.begun w' hold
    · -- there would be no goroutine
      rw [(h.fresh (hcalls ▸ hnew)).2.1] at hlaunched
      cases hlaunched
    · have hne : w' ≠ w := by
        rintro rfl
        exact hw' (hcalls ▸ hbegun)
      rw [(heff.others w' hne).2]
      exact h.idle w' (hcalls ▸ hw')

/-- A step of `runServers` spares the goroutines, and one of a goroutine the others. -/
theorem exec_spares {c' : Call} (h : Sound s) (hk : Knows s c q) (hbegun : c ∈ s.begun)
    (ha : Allows c q o) (hx : exec s o turn = some (r, s')) (hne : c' ≠ c) : Spares s s' c' := by
  cases c with
  | runServers =>
    obtain ⟨hfin, herrs, hserving, hcancel⟩ := runServers_effect ha hx
    cases c' with
    | runServers => exact absurd rfl hne
    | goroutine w => exact ⟨by rw [hfin], by rw [herrs], by rw [hserving], hcancel⟩
  | goroutine w =>
    have heff := goroutine_effect ha hx
    have hmem : ∀ w' ≠ w, (w' ∈ s'.finished ↔ w' ∈ s.finished) := by
      intro w' hw'
      rcases heff.finished with heq | heq
      · rw [heq]
      · rw [heq, List.mem_cons]
        exact or_iff_right hw'
    cases c' with
    | runServers =>
      refine ⟨List.ne_nil_of_mem (h.launched w hbegun), heff.launched, heff.count, fun w' hw' => ?_,
        fun hall => absurd (hall w) (unfinished_of_allows hk ha), heff.cancelled⟩
      rcases heff.finished with heq | heq
      · rw [heq]; exact hw'
      · rw [heq]; exact List.mem_cons_of_mem _ hw'
    | goroutine w' =>
      have hw' : w' ≠ w := fun heq => hne (by rw [heq])
      exact ⟨hmem w' hw', (heff.others w' hw').1, (heff.others w' hw').2, heff.cancelled⟩

end Operations

/-! ## Every run -/

/-- The books are in order, nobody is called twice and everybody knows what belongs to
their stage. -/
structure Orderly (p : Process) : Prop where
  sound : Sound p.state
  numbered : p.Numbered some State.begun
  calls : ∀ c ∈ p.state.begun, c ∈ p.calls
  tracks : p.Tracks stages Returned (fun c q s => Knows s c q)
  intact : p.Intact

theorem orderly_init : Orderly init where
  sound := ⟨List.nodup_nil, fun h => absurd rfl h, fun w hw => absurd hw List.not_mem_nil,
    fun w hw => absurd hw List.not_mem_nil, fun _ => ⟨rfl, rfl, rfl⟩, fun _ _ => rfl⟩
  numbered :=
    { recorded := fun c hc => by cases hc
      distinct := fun i j c c' n hi => by cases hi }
  calls := fun c hc => by cases hc
  tracks := fun i th hth => by cases hth
  intact := fun i th hth => by cases hth

/-- A new call is recorded, and was not there before. -/
theorem enter_eq_some {c : Call} {s s' : State} (h : enter c s = some s') :
    c ∉ s.begun ∧ s' = { s with begun := c :: s.begun } ∧ ∀ w, c = .goroutine w → w ∈ s.launched := by
  cases c with
  | runServers =>
    simp only [enter] at h
    split at h
    · cases h
    · next hnew => exact ⟨hnew, (Option.some.inj h).symm, fun w hw => by cases hw⟩
  | goroutine w =>
    simp only [enter] at h
    split at h
    · next hnew =>
      refine ⟨hnew.2, (Option.some.inj h).symm, fun w' hw' => ?_⟩
      cases hw'
      exact hnew.1
    · cases h

section Runs

variable {cfg : Config} {p p' : Process} {e : Event Turn Call Unit}

/-- What has begun stays on record. -/
theorem Orderly.begun_mono (hs : (machine cfg).step p e = some p') :
    ∀ c ∈ p.state.begun, c ∈ p'.state.begun := by
  intro c hc
  cases e with
  | call c' =>
    obtain ⟨s, hent, rfl⟩ := Machine.step_call _ hs
    obtain ⟨-, rfl, -⟩ := enter_eq_some hent
    exact List.mem_cons_of_mem _ hc
  | run i turn =>
    obtain ⟨th, o, k, r, s, _, _, _, hx, rfl⟩ := Machine.step_run _ hs
    rw [exec_begun hx]
    exact hc
  | kill i =>
    obtain ⟨th, _, _, rfl⟩ := Machine.step_kill _ hs
    exact hc
  | env w =>
    obtain ⟨s, henv, rfl⟩ := Machine.step_env _ hs
    cases henv
    exact hc

/-- Only a new call is new in the record. -/
theorem Orderly.begun_back (hs : (machine cfg).step p e = some p') (heq : p'.calls = p.calls)
    {c : Call} (hc : c ∈ p'.state.begun) : c ∈ p.state.begun := by
  cases e with
  | call c' =>
    obtain ⟨s, hent, rfl⟩ := Machine.step_call _ hs
    have hlen := congrArg List.length heq
    simp [Pool.calls] at hlen
  | run i turn =>
    obtain ⟨th, o, k, r, s, _, _, _, hx, rfl⟩ := Machine.step_run _ hs
    exact exec_begun hx ▸ hc
  | kill i =>
    obtain ⟨th, _, _, rfl⟩ := Machine.step_kill _ hs
    exact hc
  | env w =>
    obtain ⟨s, henv, rfl⟩ := Machine.step_env _ hs
    cases henv
    exact hc

variable {th : Thread Op Op.Res Call (Option Err)} {i : Nat}

theorem Orderly.recorded (h : Orderly p) (hth : p.threads[i]? = some th) :
    th.call ∈ p.state.begun :=
  h.numbered.recorded _ (List.mem_map_of_mem (List.mem_of_getElem? hth)) _ rfl

/-- What one event leaves of what a call knows that it is not an operation of. -/
theorem Orderly.knows (h : Orderly p) (hs : (machine cfg).step p e = some p') {c : Call} {q : Stage}
    (hnot : ∀ i turn th, e = .run i turn → p.threads[i]? = some th → c ≠ th.call)
    (hk : Knows p.state c q) : Knows p'.state c q := by
  cases e with
  | call c' =>
    obtain ⟨s, hent, rfl⟩ := Machine.step_call _ hs
    obtain ⟨-, rfl, -⟩ := enter_eq_some hent
    exact hk
  | run i turn =>
    obtain ⟨th, o, k, r, s, hth, hend, hp, hx, rfl⟩ := Machine.step_run _ hs
    obtain ⟨q', hq', hk'⟩ := h.tracks i th hth (.inl hend)
    rw [hp] at hq'
    exact (exec_spares h.sound hk' (h.recorded hth) hq'.1 hx (hnot i turn th rfl hth)).knows hk
  | kill i =>
    obtain ⟨th, _, _, rfl⟩ := Machine.step_kill _ hs
    exact hk
  | env w =>
    obtain ⟨s, henv, rfl⟩ := Machine.step_env _ hs
    cases henv
    -- nothing that is known says that the context is not done
    cases c <;> cases q <;> first | exact hk | exact ⟨hk.1, hk.2.1, rfl⟩

/-- The shared state stays sound. -/
theorem Orderly.step_sound (h : Orderly p) (hs : (machine cfg).step p e = some p') :
    Sound p'.state := by
  cases e with
  | call c =>
    obtain ⟨s, hent, rfl⟩ := Machine.step_call _ hs
    obtain ⟨-, rfl, hlaunched⟩ := enter_eq_some hent
    refine { h.sound with
             launched := fun w hw => ?_, begun := fun w hw => ?_,
             fresh := fun hnew => h.sound.fresh (fun hold => hnew (List.mem_cons_of_mem _ hold)),
             idle := fun w hw => h.sound.idle w (fun hold => hw (List.mem_cons_of_mem _ hold)) }
    · rcases List.mem_cons.mp hw with heq | hold
      · exact hlaunched w heq.symm
      · exact h.sound.launched w hold
    · exact List.mem_cons_of_mem _ (h.sound.begun w hw)
  | run i turn =>
    obtain ⟨th, o, k, r, s, hth, hend, hp, hx, rfl⟩ := Machine.step_run _ hs
    obtain ⟨q, hq, hk⟩ := h.tracks i th hth (.inl hend)
    rw [hp] at hq
    exact exec_sound h.sound hk (h.recorded hth) hq.1 hx
  | kill i =>
    obtain ⟨th, _, _, rfl⟩ := Machine.step_kill _ hs
    exact h.sound
  | env w =>
    obtain ⟨s, henv, rfl⟩ := Machine.step_env _ hs
    cases henv
    exact { h.sound with }

/-- **Every step keeps the order**, as long as no goroutine is killed. -/
theorem Orderly.step (h : Orderly p) (halive : Alive p e)
    (hs : (machine cfg).step p e = some p') : Orderly p' where
  sound := h.step_sound hs
  numbered := h.numbered.step hs (begun_mono hs) (fun c s hent c' hc' => by
    obtain ⟨hnew, rfl, -⟩ := enter_eq_some hent
    cases hc'
    exact ⟨hnew, List.mem_cons_self⟩)
  calls := by
    intro c hc
    rcases Machine.step_calls _ hs with heq | ⟨c', rfl, heq⟩
    · rw [heq]
      exact h.calls c (begun_back hs heq hc)
    · obtain ⟨s, hent, rfl⟩ := Machine.step_call _ hs
      obtain ⟨-, rfl, -⟩ := enter_eq_some hent
      rw [heq]
      rcases List.mem_cons.mp hc with rfl | hold
      · exact List.mem_append_right _ (List.mem_singleton.mpr rfl)
      · exact List.mem_append_left _ (h.calls c hold)
  tracks := by
    refine h.tracks.step (program_obeys cfg) hs (fun c s _ hent => ?_)
      (fun i turn th o k r s q _ hth hp hx ha hk => exec_knows h.sound hk ha hx)
      (fun j th q hth _ hne _ hk => h.knows hs (fun i turn th' he hth' heq => ?_) hk)
    · obtain ⟨hnew, rfl, hlaunched⟩ := enter_eq_some hent
      cases c with
      | runServers => exact h.sound.fresh hnew
      | goroutine w => exact ⟨fun hw => hnew (h.sound.begun w hw), h.sound.idle w hnew⟩
    · -- no call is made twice
      have hij := h.numbered.distinct i j th'.call th.call th.call
        (Pool.calls_of_thread hth') (Pool.calls_of_thread hth) (congrArg some heq.symm) rfl
      subst hij
      exact hne turn he
  intact := h.intact.step hs halive

theorem run_orderly {es : List (Event Turn Call Unit)} (h : (machine cfg).Run Alive init es p) :
    Orderly p :=
  h.invariant orderly_init (fun _ _ _ hp halive hs => hp.step halive hs)

/-- Somebody who has returned is at their last stage. -/
theorem Orderly.returned (h : Orderly p) {a : Option Err} (hth : p.threads[i]? = some th)
    (hret : th.prog = .ret a) : ∃ q, Returned th.call a q ∧ Knows p.state th.call q := by
  obtain ⟨q, hq, hk⟩ := h.tracks i th hth (h.intact i th hth)
  rw [hret] at hq
  exact ⟨q, hq, hk⟩

/-- Who has called `Done` has returned, with the error that is on record. -/
theorem Orderly.finished (h : Orderly p) {w : Worker} (hw : w ∈ p.state.finished) :
    ∃ (i : Nat) (th : Thread Op Op.Res Call (Option Err)), p.threads[i]? = some th ∧
      th.call = .goroutine w ∧ th.prog = .ret (p.state.errs w) ∧
      (p.state.errs w = none → p.state.serving w = false) := by
  obtain ⟨th, hmem, hcall⟩ := List.mem_map.mp (h.calls _ (h.sound.begun w hw))
  obtain ⟨i, hth⟩ := List.getElem?_of_mem hmem
  refine ⟨i, th, hth, hcall, ?_⟩
  obtain ⟨q, hq, hk⟩ := h.tracks i th hth (h.intact i th hth)
  rw [hcall] at hq hk
  cases hprog : th.prog with
  | op o k =>
    rw [hprog] at hq
    exact absurd hw (unfinished_of_allows hk hq.1)
  | ret err =>
    rw [hprog] at hq
    cases hq
    obtain ⟨-, ⟨herr, hstopped⟩, -⟩ := hk
    rw [herr]
    exact ⟨rfl, hstopped⟩

/-- Who is about to call `Done` is still counted, so the counter does not fall below zero. -/
theorem Orderly.counted (h : Orderly p) {w : Worker} {k : Op.Res (.done w) → P (Option Err)}
    (hth : p.threads[i]? = some th) (hprog : th.prog = .op (.done w) k) : p.state.counter ≠ 0 := by
  have hbegun := h.recorded hth
  obtain ⟨q, hq, hk⟩ := h.tracks i th hth (h.intact i th hth)
  rw [hprog] at hq
  have hallow : Allows th.call q (.done w) := hq.1
  generalize th.call = c at hallow hk hbegun
  cases hallow with
  | done w err => exact counter_pos h.sound (unfinished_of_allows hk (.done w err)) hbegun

/-- With the context done, a goroutine's next operation can be executed. -/
theorem exec_enabled {s : State} {w : Worker} {q : Stage} {o : Op} (h : Sound s)
    (hk : Knows s (.goroutine w) q) (hbegun : .goroutine w ∈ s.begun)
    (ha : Allows (.goroutine w) q o) (hcancelled : s.cancelled = true) :
    ∃ x, exec s o .ok = some x := by
  cases ha with
  | done w err =>
    simp only [exec, if_neg (counter_pos h (unfinished_of_allows hk (.done w err)) hbegun)]
    exact ⟨_, rfl⟩
  | selectServer w => exact ⟨(none, s), if_pos hcancelled⟩
  | consume w => exact ⟨(none, s), if_pos hcancelled⟩
  | _ => exact ⟨_, rfl⟩

/-- Somebody whose next operation can be executed can take a step. -/
theorem Orderly.moves (h : Orderly p) {o : Op} {k : o.Res → P (Option Err)} {turn : Turn}
    {x : o.Res × State} (hth : p.threads[i]? = some th) (hprog : th.prog = .op o k)
    (hx : exec p.state o turn = some x) : ∃ p', (machine cfg).step p (.run i turn) = some p' := by
  have hend : th.ended = none := by
    rcases h.intact i th hth with hend | hret
    · exact hend
    · rw [hprog] at hret
      cases hret
  exact ⟨_, Machine.step_run_of_exec (machine cfg) (r := x.1) (s := x.2) hth hend hprog hx⟩

/-- A step of the process itself. -/
def Progresses (cfg : Config) (p : Process) : Prop :=
  ∃ e p', Alive p e ∧ e ≠ .env () ∧ (machine cfg).step p e = some p'

/-- `runServers` is waiting for somebody who can move, or can move itself. -/
theorem Orderly.progresses (h : Orderly p) (hth : p.threads[i]? = some th)
    (hcall : th.call = .runServers) (hmore : th.prog.result? = none)
    (hcancelled : p.state.cancelled = true) : Progresses cfg p := by
  have hrun : ∀ {i : Nat} {turn : Turn}, (∃ p', (machine cfg).step p (.run i turn) = some p') →
      Progresses cfg p := by
    rintro i turn ⟨p', hp'⟩
    exact ⟨_, p', fun i h => (by cases h), fun h => (by cases h), hp'⟩
  by_cases hbusy : ∃ (j : Nat) (th' : Thread Op Op.Res Call (Option Err)) (w : Worker) (o : Op)
      (k : o.Res → P (Option Err)),
      p.threads[j]? = some th' ∧ th'.call = .goroutine w ∧ th'.prog = .op o k
  · -- a goroutine that has not returned
    obtain ⟨j, th', w, o, k, hth', hcall', hprog⟩ := hbusy
    obtain ⟨q, hq, hk⟩ := h.tracks j th' hth' (h.intact j th' hth')
    have hbegun := h.recorded hth'
    rw [hcall'] at hq hk hbegun
    rw [hprog] at hq
    obtain ⟨x, hx⟩ := exec_enabled h.sound hk hbegun hq.1 hcancelled
    exact hrun (h.moves hth' hprog hx)
  · obtain ⟨q, hq, hk⟩ := h.tracks i th hth (h.intact i th hth)
    rw [hcall] at hq hk
    cases hprog : th.prog with
    | ret a => rw [hprog] at hmore; cases hmore
    | op o k =>
      rw [hprog] at hq
      have hgo : (∃ x, exec p.state o .ok = some x) → Progresses cfg p :=
        fun hx => hrun (h.moves hth hprog hx.choose_spec)
      cases hq.1 with
      | add => exact hgo ⟨_, rfl⟩
      | launch w ws => exact hgo ⟨_, rfl⟩
      | collect => exact hgo ⟨_, rfl⟩
      | leave result => exact hgo ⟨_, rfl⟩
      | wait =>
        by_cases hall : ∀ w, .goroutine w ∈ p.state.begun
        · -- all four are there and none is busy, so all four have called `Done`
          have hfin : ∀ w, w ∈ p.state.finished := by
            intro w
            obtain ⟨th', hmem, hcall'⟩ := List.mem_map.mp (h.calls _ (hall w))
            obtain ⟨j, hth'⟩ := List.getElem?_of_mem hmem
            cases hprog' : th'.prog with
            | op o k => exact absurd ⟨j, th', w, o, k, hth', hcall', hprog'⟩ hbusy
            | ret a =>
              obtain ⟨q', hq', hk'⟩ := h.returned hth' hprog'
              rw [hcall'] at hq' hk'
              cases hq'
              exact hk'.1
          have hlen := (List.subperm_of_subset (by decide : workers.Nodup)
            (fun w _ => hfin w)).length_le
          have hzero : p.state.counter = 0 := by
            have hcount := hk.2
            omega
          exact hgo ⟨((), p.state), if_pos hzero⟩
        · -- a goroutine that has not begun
          obtain ⟨w, hw⟩ := not_forall.mp hall
          have hlaunched : w ∈ p.state.launched := (hk.1 w).resolve_right List.not_mem_nil
          have hent : enter (.goroutine w) p.state =
              some { p.state with begun := .goroutine w :: p.state.begun } :=
            if_pos ⟨hlaunched, hw⟩
          exact ⟨.call (.goroutine w), _, fun i h => (by cases h), fun h => (by cases h),
            Machine.step_call_of_enter (machine cfg) hent⟩

end Runs

/-- In every run: whoever leaves ends the context for all; `runServers` returns only
after all four have returned, with their errors joined and every server that reported
none out of service; no `Done` is called on a `WaitGroup` at zero; and once the context is
done, as long as `runServers` has not returned somebody can take a step. -/
theorem servers_stop_together (cfg : Config) (es : List (Event Turn Call Unit)) (p : Process)
    (h : (machine cfg).Run Alive init es p) :
    (∀ (i : Nat) th w err, p.threads[i]? = some th → th.call = .goroutine w → th.prog = .ret err →
      p.state.cancelled = true) ∧
    (∀ (i : Nat) th result, p.threads[i]? = some th → th.call = .runServers →
      th.prog = .ret result → p.state.cancelled = true ∧ result = joinAll p.state.errs ∧
        ∀ w, ∃ (j : Nat) (th' : Thread Op Op.Res Call (Option Err)), p.threads[j]? = some th' ∧
          th'.call = .goroutine w ∧ th'.prog = .ret (p.state.errs w) ∧
          (p.state.errs w = none → p.state.serving w = false)) ∧
    (∀ (i : Nat) (th : Thread Op Op.Res Call (Option Err)) w k, p.threads[i]? = some th →
      th.prog = .op (.done w) k → p.state.counter ≠ 0) ∧
    (∀ (i : Nat) th, p.threads[i]? = some th → th.call = .runServers → th.prog.result? = none →
      p.state.cancelled = true → Progresses cfg p) := by
  have ho := run_orderly h
  refine ⟨fun i th w err hth hcall hret => ?_, fun i th result hth hcall hret => ?_,
    fun i th w k hth hprog => ho.counted hth hprog,
    fun i th hth hcall hmore hcancelled => ho.progresses hth hcall hmore hcancelled⟩
  · obtain ⟨q, hq, hk⟩ := ho.returned hth hret
    rw [hcall] at hq hk
    cases hq
    exact hk.2.2
  · obtain ⟨q, hq, hk⟩ := ho.returned hth hret
    rw [hcall] at hq hk
    cases hq
    exact ⟨hk.2.2, hk.2.1, fun w => ho.finished (hk.1 w)⟩

/-- The gRPC server cannot listen. -/
def portInUse : List (Event Turn Call Unit) :=
  .call .runServers :: List.replicate 5 (.run 0 .ok) ++
    [.call (.goroutine .grpc), .call (.goroutine .rest), .call (.goroutine .consumer),
      .call (.goroutine .sagaConsumer), .run 2 .ok, .run 1 (.fail (.text "in use"))] ++
    List.replicate 3 (.run 1 .ok) ++ List.replicate 5 (.run 2 .ok) ++
    List.replicate 4 (.run 3 .ok) ++ List.replicate 4 (.run 4 .ok) ++ List.replicate 3 (.run 0 .ok)

/-- It takes the others along. -/
theorem servers_stop_together_sample :
    ∃ p th, (machine ⟨":1", ":2"⟩).Run Alive init portInUse p ∧ p.threads[0]? = some th ∧
      th.call = .runServers ∧
      th.prog = .ret (some (.wrap "listen grpc addr=:1" (.text "in use"))) ∧
      p.state.cancelled = true := by
  have hview : (((machine ⟨":1", ":2"⟩).stepsWhere (fun _ e => match e with
        | .kill _ => false
        | _ => true) init portInUse).bind
          (fun p => p.threads[0]?.map (fun th => (th.call, th.prog.result?)))) =
      some (.runServers, some (some (.wrap "listen grpc addr=:1" (.text "in use")))) := by
    decide
  obtain ⟨p, hp, hth⟩ := Option.bind_eq_some_iff.mp hview
  obtain ⟨th, hth, hpair⟩ := Option.map_eq_some_iff.mp hth
  obtain ⟨hcall, hret⟩ := Prod.mk.inj hpair
  have hprog := Prog.result?_eq_some.mp hret
  have hrun : (machine ⟨":1", ":2"⟩).Run Alive init portInUse p := by
    refine .of_stepsWhere (fun p e he i heq => ?_) hp
    subst heq
    cases he
  exact ⟨p, th, hrun, hth, hcall, hprog,
    ((servers_stop_together _ _ p hrun).2.1 0 th _ hth hcall hprog).1⟩

end ReleaseNotifier.Serving
