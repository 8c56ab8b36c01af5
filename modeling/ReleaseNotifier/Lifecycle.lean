/-
The life of the monolith's process: `internal/app`, from `App.Run` to its return.

What `Run` opens it has to close, whichever step fails: the migration's own pool, the
pool of the database, the prepared statements of the two stores, one publisher for each
exchange, the Redis client and the rate limiter's goroutine. Every step that can fail
may fail, and so may every close: the outside is an arbitrary `Peer`.

The discipline is a protocol on the set of what is open. Nothing is opened twice or
closed twice, a pool is closed after the statements that were prepared on it, the server
runs with everything open and the migration over, and once it has run nothing is closed
before the background loops are told to stop and the poller was waited for.
-/
import ReleaseNotifier.Conc.Dialogue
import ReleaseNotifier.Errors
import Mathlib.Data.Finset.Basic
import Mathlib.Data.Finset.Image

set_option autoImplicit false

namespace ReleaseNotifier.App

open Conc

/-! ## Resources -/

/-- The prepared statements of `subscription.Repo` and of `repository.Store`. -/
inductive Stmt
  | create
  | getByToken
  | getActiveByEmail
  | getEmailsByRepo
  | getByEmailAndRepo
  | updateStatus
  | updateToken
  | upsert
  | getAll
  | updateLastSeen
  | updateLastChecked
  deriving DecidableEq, Repr

/-- The name of a statement in the errors about it. -/
def Stmt.name : Stmt → String
  | .create => "subscription create"
  | .getByToken => "subscription get by token"
  | .getActiveByEmail => "subscription get active by email"
  | .getEmailsByRepo => "subscription get emails by repo"
  | .getByEmailAndRepo => "subscription get by email and repo"
  | .updateStatus => "subscription update status"
  | .updateToken => "subscription update token"
  | .upsert => "tracked repo upsert"
  | .getAll => "tracked repo get all"
  | .updateLastSeen => "tracked repo update last seen"
  | .updateLastChecked => "tracked repo update last checked"

/-- The two publishers: notifications, and the commands of the saga. -/
inductive Broker
  | notifications
  | commands
  deriving DecidableEq, Repr

inductive Resource
  /-- `migrate.Migrate`, which has a source and a pool of its own. -/
  | migration
  | database
  | redis
  | statement (s : Stmt)
  | publisher (b : Broker)
  /-- The goroutine of the rate limiter. -/
  | limiter
  deriving DecidableEq, Repr

/-! ## Operations -/

/-- Calls that open nothing and may fail. -/
inductive Check
  | contextErr
  | pingDatabase
  | pingRedis
  | newNotificationPublisher
  | newOrchestrator
  | newService
  | newPoller
  deriving DecidableEq

/-- What `Up` came to. -/
inductive Migrated
  | applied
  /-- `migrate.ErrNoChange`. -/
  | noChange
  | failed (err : Err)

inductive Op
  | open (r : Resource)
  /-- For what cannot fail: a Redis client, a goroutine. -/
  | start (r : Resource)
  | close (r : Resource)
  | check (c : Check)
  | up
  /-- The three loops and the server are started. -/
  | serve
  /-- The `select`: the server failed, or the context has ended. -/
  | select
  | cancelPoller
  | shutdown
  /-- The poller is done, or the time is over. -/
  | awaitPoller

abbrev Op.Res : Op → Type
  | .open _ => Except Err Unit
  | .start _ => Unit
  | .close _ => Option Err
  | .check _ => Option Err
  | .up => Migrated
  | .serve => Unit
  | .select => Option Err
  | .cancelPoller => Unit
  | .shutdown => Option Err
  | .awaitPoller => Unit

abbrev P (α : Type) := Prog Op Op.Res α

def tryOpen (r : Resource) : P (Except Err Unit) := Prog.perform (Op.open r)

def close (r : Resource) : P (Option Err) := Prog.perform (Op.close r)

def check (c : Check) : P (Option Err) := Prog.perform (Op.check c)

/-- `closeQuietly`: an error is logged and forgotten. -/
def closeQuietly (closer : P (Option Err)) : P Unit := do
  let _ ← closer
  return ()

/-- `defer`. -/
def deferring {α : Type} (last : P Unit) (body : P α) : P α := do
  let a ← body
  last
  return a

/-! ## `internal/platform/postgres` -/

/-- `runMigrations` before its deferred function; the result says whether anything was
applied. -/
def migrateUp : P (Except Err Bool) := do
  match ← check .contextErr with
  | some err => return .error err
  | none =>
    match ← Prog.perform Op.up with
    | .failed err => return .error err
    | .noChange => return .ok false
    | .applied => return .ok true

/-- `runMigrations`. -/
def runMigrations : P (Except Err Bool) := do
  let result ← migrateUp
  match result, ← close .migration with
  | .ok applied, none => return .ok applied
  | .ok _, some closeErr => return .error closeErr
  | .error err, none => return .error err
  | .error err, some closeErr => return .error (.join err closeErr)

/-- `RunMigrationsWithContext`. -/
def runMigrationsWithContext : P (Except Err Bool) := do
  match ← tryOpen .migration with
  | .error err => return .error err
  | .ok () => runMigrations

/-- What a failed step reports, together with the error of a close. -/
def joined (err : Err) (closeErr : Option Err) : Err :=
  (joinErrors (some err) closeErr).getD err

/-- `NewWithContext`. -/
def newWithContext : P (Except Err Unit) := do
  match ← tryOpen .database with
  | .error err => return .error err
  | .ok () =>
    match ← check .pingDatabase with
    | some err =>
      let closeErr ← close .database
      return .error (joined err closeErr)
    | none => return .ok ()

/-! ## Statements -/

/-- `prepare` of either store: the error, and the handles that are set. -/
def prepare : List Stmt → P (Option Err × List Stmt)
  | [] => return (none, [])
  | s :: rest => do
    match ← tryOpen (.statement s) with
    | .error err => return (some (.wrap ("preparing " ++ s.name) err), [])
    | .ok () =>
      let (err, handles) ← prepare rest
      return (err, s :: handles)

/-- `Close` of either store, over the handles that are set. -/
def closeStmts : List Stmt → P (Option Err)
  | [] => return none
  | s :: rest => do
    let err := (← close (.statement s)).map (Err.wrap ("closing " ++ s.name ++ " statement"))
    return joinErrors err (← closeStmts rest)

/-- `NewRepoWithContext` and `NewStoreWithContext`. -/
def newStoreWithContext (stmts : List Stmt) : P (Except Err (List Stmt)) := do
  let (err, handles) ← prepare stmts
  match err with
  | none => return .ok handles
  | some err =>
    let closeErr ← closeStmts handles
    return .error (joined err closeErr)

/-- The statements of `subscription.Repo`. -/
def repoStmts : List Stmt :=
  [.create, .getByToken, .getActiveByEmail, .getEmailsByRepo, .getByEmailAndRepo, .updateStatus,
    .updateToken]

/-- The statements of `repository.Store`. -/
def storeStmts : List Stmt := [.upsert, .getAll, .updateLastSeen, .updateLastChecked]

/-! ## `db.go` and `deps.go` -/

/-- `openAndMigrateDB`. -/
def openAndMigrateDB : P (Except Err Unit) := do
  match ← runMigrationsWithContext with
  | .error err => return .error (.wrap "running migrations" err)
  | .ok _ =>
    match ← newWithContext with
    | .error err => return .error (.wrap "opening database" err)
    | .ok () =>
      match ← check .pingDatabase with
      | some err =>
        closeQuietly (close .database)
        return .error (.wrap "pinging database" err)
      | none => return .ok ()

/-- `buildNotificationPublisher` and `buildSagaOrchestrator`: a publisher, and what is
built on it. -/
def buildOn (b : Broker) (c : Check) : P (Except Err Unit) := do
  match ← tryOpen (.publisher b) with
  | .error err => return .error err
  | .ok () =>
    match ← check c with
    | some err =>
      let closeErr ← close (.publisher b)
      return .error (joined err closeErr)
    | none => return .ok ()

/-- `buildNotificationPublisher`. -/
def buildNotificationPublisher : P (Except Err Unit) :=
  buildOn .notifications .newNotificationPublisher

/-- `buildSagaOrchestrator`. -/
def buildSagaOrchestrator : P (Except Err Unit) := buildOn .commands .newOrchestrator

/-- An entry of `closers`. -/
inductive Closer
  | stmts (handles : List Stmt)
  | publisher (b : Broker)

def Closer.run : Closer → P (Option Err)
  | .stmts handles => closeStmts handles
  | .publisher b => close (.publisher b)

/-- The loop of `dependencies.Close`, with the error so far. -/
def closeDependencies (err : Option Err) : List Closer → P (Option Err)
  | [] => return err
  | c :: rest => do
    let closeErr ← c.run
    closeDependencies (joinErrors err closeErr) rest

/-- The deferred function of `buildDependencies`. -/
def closeAllQuietly : List Closer → P Unit
  | [] => return ()
  | c :: rest => do
    closeQuietly c.run
    closeAllQuietly rest

/-- A step of `buildDependencies` after the stores: where it fails, what is open so far
is closed by the deferred function. -/
def orClose {α : Type} (closers : List Closer) (text : String) (step : P (Except Err Unit))
    (next : P (Except Err α)) : P (Except Err α) := do
  match ← step with
  | .error err =>
    closeAllQuietly closers
    return .error (.wrap text err)
  | .ok () => next

/-- A constructor that opens nothing. -/
def construct (c : Check) : P (Except Err Unit) := do
  match ← check c with
  | some err => return .error err
  | none => return .ok ()

/-- `buildDependencies`: the closers. -/
def buildDependencies : P (Except Err (List Closer)) := do
  match ← newStoreWithContext repoStmts with
  | .error err => return .error (.wrap "creating subscription repo" err)
  | .ok subRepo =>
    match ← newStoreWithContext storeStmts with
    | .error err =>
      closeQuietly (closeStmts subRepo)
      return .error (.wrap "creating tracked repo store" err)
    | .ok repoStore =>
      -- only selects the client, and so whether there is a cache
      let _ ← check .pingRedis
      let stores := [Closer.stmts subRepo, .stmts repoStore]
      orClose stores "creating notification publisher" buildNotificationPublisher do
      orClose (stores ++ [.publisher .notifications]) "creating saga orchestrator"
        buildSagaOrchestrator do
      let closers := stores ++ [.publisher .notifications, .publisher .commands]
      orClose closers "creating subscription service" (construct .newService) do
      orClose closers "creating poller" (construct .newPoller) do
      Prog.perform (Op.start .limiter)
      return .ok closers

/-! ## `http.go` and `app.go` -/

/-- `runHTTPServer`. -/
def runHTTPServer : P (Option Err) :=
  deferring (Prog.perform Op.cancelPoller) do
  deferring (closeQuietly (close .limiter)) do
    Prog.perform Op.serve
    match ← Prog.perform Op.select with
    | some err =>
      Prog.perform Op.cancelPoller
      Prog.perform Op.awaitPoller
      return some (.wrap "server error" err)
    | none =>
      Prog.perform Op.cancelPoller
      let shutdownErr ← Prog.perform Op.shutdown
      Prog.perform Op.awaitPoller
      return shutdownErr.map (Err.wrap "server shutdown")

/-- `App.Run`. -/
def run : P (Option Err) := do
  match ← openAndMigrateDB with
  | .error err => return some err
  | .ok () =>
    deferring (closeQuietly (close .database)) do
    Prog.perform (Op.start .redis)
    deferring (closeQuietly (close .redis)) do
    match ← buildDependencies with
    | .error err => return some err
    | .ok closers => deferring (closeQuietly (closeDependencies none closers)) runHTTPServer

/-! ## The discipline -/

/-- The loops of the process. -/
inductive Loops
  | unborn
  | running
  | cancelled
  /-- The poller is done, or did not end in time. -/
  | awaited
  deriving DecidableEq

structure Stage where
  held : Finset Resource
  loops : Loops
  deriving DecidableEq

/-- What has to be open as long as this is. -/
def Resource.needs : Resource → Finset Resource
  | .statement _ => {.database}
  | _ => ∅

/-- What the server needs. -/
def wanted : Finset Resource :=
  {.database, .redis, .publisher .notifications, .publisher .commands, .limiter} ∪
    (repoStmts ++ storeStmts).toFinset.image .statement

def Stage.MayOpen (q : Stage) (r : Resource) : Prop :=
  q.loops = .unborn ∧ r ∉ q.held ∧ r.needs ⊆ q.held

/-- What `Run` may do. -/
def Allows (q : Stage) : Op → Prop
  | .open r => q.MayOpen r
  | .start r => q.MayOpen r
  | .close r => (q.loops = .unborn ∨ q.loops = .awaited) ∧ r ∈ q.held ∧ ∀ r' ∈ q.held, r ∉ r'.needs
  | .check _ => q.loops = .unborn
  | .up => .migration ∈ q.held
  | .serve => q = ⟨wanted, .unborn⟩
  | .select => q.loops = .running
  | .cancelPoller => q.loops ≠ .unborn
  | .shutdown => q.loops = .cancelled
  | .awaitPoller => q.loops = .cancelled

def Stage.next (q : Stage) : (o : Op) → o.Res → Stage
  | .open r, .ok _ => { q with held := insert r q.held }
  | .open _, .error _ => q
  | .start r, _ => { q with held := insert r q.held }
  | .close r, _ => { q with held := q.held.erase r }
  | .check _, _ => q
  | .up, _ => q
  | .serve, _ => { q with loops := .running }
  | .select, _ => q
  -- a second call does nothing
  | .cancelPoller, _ => { q with loops := if q.loops = .running then .cancelled else q.loops }
  | .shutdown, _ => q
  | .awaitPoller, _ => { q with loops := .awaited }

def discipline : Protocol Op Op.Res Stage := ⟨Allows, Stage.next⟩

/-! ## Single steps -/

section Steps

variable {h : Finset Resource} {l : Loops} {r : Resource}

/-- Only statements need something, and only the pool of the database. -/
theorem not_needed (hr : r ≠ .database) (r' : Resource) : r ∉ r'.needs := by
  cases r' with
  | statement s => simpa [Resource.needs] using hr
  | _ => exact Finset.notMem_empty r

/-- A resource is held if it was opened, and only then. -/
theorem tryOpen_obeys (hnew : r ∉ h) (hneeds : r.needs ⊆ h) :
    (tryOpen r).Obeys discipline
      (Prog.OnResult (fun _ q => q = ⟨insert r h, .unborn⟩) (fun _ q => q = ⟨h, .unborn⟩))
      ⟨h, .unborn⟩ := by
  refine ⟨⟨rfl, hnew, hneeds⟩, fun result => ?_⟩
  cases result with
  | error err => rfl
  | ok _ => rfl

/-- A resource may be closed once nothing that needs it is held. -/
theorem close_obeys (hl : l = .unborn ∨ l = .awaited) (hr : r ∈ h) (hneed : ∀ r' ∈ h, r ∉ r'.needs) :
    (close r).Obeys discipline (fun _ q => q = ⟨h.erase r, l⟩) ⟨h, l⟩ :=
  ⟨⟨hl, hr, hneed⟩, fun _ => rfl⟩

/-- Dropping the error of a closer does not change what it releases. -/
theorem closeQuietly_obeys {closer : P (Option Err)} {q q' : Stage}
    (hcloser : closer.Obeys discipline (fun _ q => q = q') q) :
    (closeQuietly closer).Obeys discipline (fun _ q => q = q') q :=
  hcloser.bind (fun _ _ hq => hq)

/-- A configuration check holds nothing. -/
theorem check_obeys (c : Check) :
    (check c).Obeys discipline (fun _ q => q = ⟨h, .unborn⟩) ⟨h, .unborn⟩ :=
  ⟨rfl, fun _ => rfl⟩

theorem construct_obeys (c : Check) :
    (construct c).Obeys discipline
      (Prog.OnResult (fun _ q => q = ⟨h, .unborn⟩) (fun _ q => q = ⟨h, .unborn⟩)) ⟨h, .unborn⟩ := by
  refine (check_obeys c).bind (fun result q hq => ?_)
  cases result with
  | some err => exact hq
  | none => exact hq

end Steps

/-! ## The database -/

/-- The migration runs while its handle is held. -/
theorem migrateUp_obeys {h : Finset Resource} (hm : .migration ∈ h) :
    migrateUp.Obeys discipline (fun _ q => q = ⟨h, .unborn⟩) ⟨h, .unborn⟩ := by
  refine (check_obeys .contextErr).bind (fun err q hq => ?_)
  subst hq
  cases err with
  | some err => rfl
  | none =>
    refine ⟨hm, fun result => ?_⟩
    cases result <;> rfl

/-- The migration's handle is closed whether or not the migration succeeds. -/
theorem runMigrationsWithContext_obeys :
    runMigrationsWithContext.Obeys discipline (fun _ q => q = ⟨∅, .unborn⟩) ⟨∅, .unborn⟩ := by
  refine (tryOpen_obeys (by decide) (by decide)).bind_except (fun err q hq => ?_) (fun _ q hq => ?_)
  · exact hq
  · subst hq
    refine (migrateUp_obeys (by decide)).bind (fun result q hq => ?_)
    subst hq
    refine (close_obeys (.inl rfl) (by decide) (by decide)).bind (fun closeErr q hq => ?_)
    have hempty : q = ⟨∅, .unborn⟩ := hq
    cases result <;> cases closeErr <;> exact hempty

/-- A database that does not answer its ping is closed again. -/
theorem newWithContext_obeys :
    newWithContext.Obeys discipline
      (Prog.OnResult (fun _ q => q = ⟨{.database}, .unborn⟩) (fun _ q => q = ⟨∅, .unborn⟩))
      ⟨∅, .unborn⟩ := by
  refine (tryOpen_obeys (by decide) (by decide)).bind_except (fun err q hq => ?_) (fun _ q hq => ?_)
  · exact hq
  · subst hq
    refine (check_obeys .pingDatabase).bind (fun err q hq => ?_)
    subst hq
    cases err with
    | none => rfl
    | some err => exact (close_obeys (.inl rfl) (by decide) (by decide)).bind (fun _ _ hq => hq)

/-- The database is kept only after the migrations, and only if it answers. -/
theorem openAndMigrateDB_obeys :
    openAndMigrateDB.Obeys discipline
      (Prog.OnResult (fun _ q => q = ⟨{.database}, .unborn⟩) (fun _ q => q = ⟨∅, .unborn⟩))
      ⟨∅, .unborn⟩ := by
  refine runMigrationsWithContext_obeys.bind (fun result q hq => ?_)
  subst hq
  cases result with
  | error err => rfl
  | ok _ =>
    refine newWithContext_obeys.bind_except (fun err q hq => hq) (fun _ q hq => ?_)
    subst hq
    refine (check_obeys .pingDatabase).bind (fun err q hq => ?_)
    subst hq
    cases err with
    | none => rfl
    | some err =>
      exact (closeQuietly_obeys (close_obeys (.inl rfl) (by decide) (by decide))).bind
        (fun _ _ hq => hq)

/-! ## Statements -/

section Statements

variable {h : Finset Resource} {l : Loops} {stmts : List Stmt}

/-- The statements as resources. -/
def held (stmts : List Stmt) : Finset Resource := stmts.toFinset.image .statement

theorem mem_held {s : Stmt} : Resource.statement s ∈ held stmts ↔ s ∈ stmts := by
  simp [held]

/-- Statements are opened one by one. -/
theorem held_cons (s : Stmt) (stmts : List Stmt) :
    held (s :: stmts) = insert (.statement s) (held stmts) := by
  rw [held, List.toFinset_cons, Finset.image_insert]
  rfl

/-- The handles that `prepare` leaves are the statements up to the first failure. -/
theorem prepare_obeys (hdb : .database ∈ h) (hnodup : stmts.Nodup)
    (hnew : ∀ s ∈ stmts, .statement s ∉ h) :
    (prepare stmts).Obeys discipline
      (fun r q => r.2 <+: stmts ∧ (r.1 = none → r.2 = stmts) ∧ q = ⟨h ∪ held r.2, .unborn⟩)
      ⟨h, .unborn⟩ := by
  induction stmts generalizing h with
  | nil => exact ⟨List.prefix_rfl, fun _ => rfl, by simp [held]⟩
  | cons s stmts ih =>
    obtain ⟨hs, hrest⟩ := List.nodup_cons.mp hnodup
    refine (tryOpen_obeys (hnew s List.mem_cons_self) (by simpa [Resource.needs] using hdb)).bind_except
      (fun err q hq => ?_) (fun _ q hq => ?_)
    · exact ⟨List.nil_prefix, fun h => (by cases h), by rw [hq]; simp [held]⟩
    · subst hq
      have hnew' : ∀ s' ∈ stmts, Resource.statement s' ∉ insert (Resource.statement s) h := by
        intro s' hs' hmem
        rcases Finset.mem_insert.mp hmem with heq | hmem
        · cases heq
          exact hs hs'
        · exact hnew s' (List.mem_cons_of_mem _ hs') hmem
      refine (ih (Finset.mem_insert_of_mem hdb) hrest hnew').bind (fun r q hr => ?_)
      obtain ⟨err, handles⟩ := r
      obtain ⟨hfront, hall, rfl⟩ := hr
      refine ⟨List.cons_prefix_cons.mpr ⟨rfl, hfront⟩, fun hnone => congrArg _ (hall hnone), ?_⟩
      rw [held_cons, Finset.union_insert, Finset.insert_union]

/-- Nothing needs a statement, so its close is always allowed. -/
theorem closeStmts_obeys (hl : l = .unborn ∨ l = .awaited) (hnodup : stmts.Nodup)
    (hopen : held stmts ⊆ h) :
    (closeStmts stmts).Obeys discipline (fun _ q => q = ⟨h \ held stmts, l⟩) ⟨h, l⟩ := by
  induction stmts generalizing h with
  | nil => simp [closeStmts, held]
  | cons s stmts ih =>
    obtain ⟨hs, hrest⟩ := List.nodup_cons.mp hnodup
    rw [held_cons] at hopen ⊢
    refine (close_obeys hl (hopen (Finset.mem_insert_self _ _))
      (fun r' _ => not_needed (by simp) r')).bind (fun err q hq => ?_)
    subst hq
    have hopen' : held stmts ⊆ h.erase (.statement s) := by
      intro r hr
      refine Finset.mem_erase.mpr ⟨?_, hopen (Finset.mem_insert_of_mem hr)⟩
      rintro rfl
      exact hs (mem_held.mp hr)
    refine (ih hrest hopen').bind (fun _ q hq => ?_)
    rw [hq, Finset.sdiff_insert, Finset.erase_sdiff_comm]
    rfl

/-- A store is open with all its statements, or leaves none behind. -/
theorem newStoreWithContext_obeys (hdb : .database ∈ h) (hnodup : stmts.Nodup)
    (hnew : ∀ s ∈ stmts, .statement s ∉ h) :
    (newStoreWithContext stmts).Obeys discipline
      (Prog.OnResult (fun handles q => handles = stmts ∧ q = ⟨h ∪ held stmts, .unborn⟩)
        (fun _ q => q = ⟨h, .unborn⟩)) ⟨h, .unborn⟩ := by
  refine (prepare_obeys hdb hnodup hnew).bind (fun r q hr => ?_)
  obtain ⟨err, handles⟩ := r
  obtain ⟨hfront, hall, rfl⟩ := hr
  cases err with
  | none =>
    have hhandles : handles = stmts := hall rfl
    subst hhandles
    exact ⟨rfl, rfl⟩
  | some err =>
    have hdisjoint : Disjoint h (held handles) := by
      rw [Finset.disjoint_right]
      intro r hr
      obtain ⟨s, hs, rfl⟩ := Finset.mem_image.mp hr
      exact hnew s (hfront.subset (List.mem_toFinset.mp hs))
    refine (closeStmts_obeys (.inl rfl) (hnodup.sublist hfront.sublist)
      Finset.subset_union_right).bind (fun _ q hq => ?_)
    rw [hq, Finset.union_sdiff_cancel_right hdisjoint]
    rfl

end Statements

/-! ## Dependencies -/

section Dependencies

variable {h h' : Finset Resource} {l : Loops}

/-- A publisher is kept only if what is built on it could be. -/
theorem buildOn_obeys {b : Broker} (hnew : .publisher b ∉ h) (c : Check) :
    (buildOn b c).Obeys discipline
      (Prog.OnResult (fun _ q => q = ⟨insert (.publisher b) h, .unborn⟩)
        (fun _ q => q = ⟨h, .unborn⟩)) ⟨h, .unborn⟩ := by
  refine (tryOpen_obeys hnew (Finset.empty_subset h)).bind_except (fun err q hq => hq)
    (fun _ q hq => ?_)
  subst hq
  refine (check_obeys c).bind (fun err q hq => ?_)
  subst hq
  cases err with
  | none => rfl
  | some err =>
    refine (close_obeys (.inl rfl) (Finset.mem_insert_self _ _)
      (fun r' _ => not_needed (by simp) r')).bind (fun _ q hq => ?_)
    rw [hq, Finset.erase_insert hnew]
    rfl

/-- What a closer closes. -/
def Closer.resources : Closer → Finset Resource
  | .stmts handles => held handles
  | .publisher b => {.publisher b}

/-- A closer with no handle twice. -/
def Closer.Sound : Closer → Prop
  | .stmts handles => handles.Nodup
  | .publisher _ => True

/-- A closer releases what it is for, in whatever order it does that. -/
theorem closer_obeys (hl : l = .unborn ∨ l = .awaited) {c : Closer} (hc : c.Sound)
    (hopen : c.resources ⊆ h) :
    c.run.Obeys discipline (fun _ q => q = ⟨h \ c.resources, l⟩) ⟨h, l⟩ := by
  cases c with
  | stmts handles => exact closeStmts_obeys hl hc hopen
  | publisher b =>
    refine (close_obeys hl (hopen (Finset.mem_singleton_self _))
      (fun r' _ => not_needed (by simp) r')).mono (fun _ q hq => ?_)
    rw [hq, Closer.resources, Finset.sdiff_singleton_eq_erase]

/-- The closers close what they are there for, one after the other, from `h` down to `h'`. -/
def Empties : List Closer → Finset Resource → Finset Resource → Prop
  | [], h, h' => h = h'
  | c :: rest, h, h' => c.Sound ∧ c.resources ⊆ h ∧ Empties rest (h \ c.resources) h'

variable {closers : List Closer}

/-- An error of one closer does not keep the next one from running. -/
theorem closeDependencies_obeys (hl : l = .unborn ∨ l = .awaited) (hc : Empties closers h h')
    (err : Option Err) :
    (closeDependencies err closers).Obeys discipline (fun _ q => q = ⟨h', l⟩) ⟨h, l⟩ := by
  induction closers generalizing h err with
  | nil => exact congrArg (Stage.mk · l) hc
  | cons c rest ih =>
    obtain ⟨hsound, hopen, hrest⟩ := hc
    refine (closer_obeys hl hsound hopen).bind (fun closeErr q hq => ?_)
    subst hq
    exact ih hrest _

theorem closeAllQuietly_obeys (hc : Empties closers h h') :
    (closeAllQuietly closers).Obeys discipline (fun _ q => q = ⟨h', .unborn⟩) ⟨h, .unborn⟩ := by
  induction closers generalizing h with
  | nil => exact congrArg (Stage.mk · .unborn) hc
  | cons c rest ih =>
    obtain ⟨hsound, hopen, hrest⟩ := hc
    refine (closeQuietly_obeys (closer_obeys (.inl rfl) hsound hopen)).bind (fun _ q hq => ?_)
    subst hq
    exact ih hrest

/-- A failing step is followed by the deferred function. -/
theorem orClose_obeys {α : Type} {Q : α → Stage → Prop} {base : Finset Resource}
    {text : String} {step : P (Except Err Unit)} {next : P (Except Err α)}
    (hstep : step.Obeys discipline
      (Prog.OnResult (fun _ q => q = ⟨h', .unborn⟩) (fun _ q => q = ⟨h, .unborn⟩)) ⟨h, .unborn⟩)
    (hclose : Empties closers h base)
    (hnext : next.Obeys discipline (Prog.OnResult Q (fun _ q => q = ⟨base, .unborn⟩)) ⟨h', .unborn⟩) :
    (orClose closers text step next).Obeys discipline
      (Prog.OnResult Q (fun _ q => q = ⟨base, .unborn⟩)) ⟨h, .unborn⟩ := by
  refine hstep.bind_except (fun err q hq => ?_) (fun _ q hq => ?_)
  · subst hq
    exact (closeAllQuietly_obeys hclose).bind (fun _ q hq => hq)
  · subst hq
    exact hnext

/-- What `Run` holds around `buildDependencies`. -/
def base : Finset Resource := {.redis, .database}

/-- What `buildDependencies` returns. -/
def allClosers : List Closer :=
  [.stmts repoStmts, .stmts storeStmts, .publisher .notifications, .publisher .commands]

instance (c : Closer) : Decidable c.Sound :=
  match c with
  | .stmts handles => inferInstanceAs (Decidable handles.Nodup)
  | .publisher _ => isTrue trivial

instance decidableEmpties (closers : List Closer) (h h' : Finset Resource) :
    Decidable (Empties closers h h') :=
  match closers with
  | [] => inferInstanceAs (Decidable (h = h'))
  | c :: rest =>
    have := decidableEmpties rest (h \ c.resources) h'
    inferInstanceAs (Decidable (c.Sound ∧ c.resources ⊆ h ∧ Empties rest (h \ c.resources) h'))

/-- Either everything the server needs is open, or nothing is left of the attempt. -/
theorem buildDependencies_obeys :
    buildDependencies.Obeys discipline
      (Prog.OnResult (fun closers q => closers = allClosers ∧ q = ⟨wanted, .unborn⟩)
        (fun _ q => q = ⟨base, .unborn⟩)) ⟨base, .unborn⟩ := by
  refine (newStoreWithContext_obeys (by decide) (by decide) (by decide)).bind_except
    (fun err q hq => hq) (fun subRepo q hq => ?_)
  obtain ⟨rfl, rfl⟩ := hq
  refine (newStoreWithContext_obeys (by decide) (by decide) (by decide)).bind_except
    (fun err q hq => ?_) (fun repoStore q hq => ?_)
  · subst hq
    refine (closeQuietly_obeys (closeStmts_obeys (.inl rfl) (by decide)
      Finset.subset_union_right)).bind (fun _ q hq => ?_)
    have hbase : (base ∪ held repoStmts) \ held repoStmts = base := by decide
    rw [hq, hbase]
    rfl
  · obtain ⟨rfl, rfl⟩ := hq
    refine (check_obeys .pingRedis).bind (fun _ q hq => ?_)
    subst hq
    refine orClose_obeys (buildOn_obeys (by decide) _) (by decide) ?_
    refine orClose_obeys (buildOn_obeys (by decide) _) (by decide) ?_
    refine orClose_obeys (construct_obeys _) (by decide) ?_
    refine orClose_obeys (construct_obeys _) (by decide) ?_
    have hwanted : insert Resource.limiter (insert (.publisher .commands)
        (insert (.publisher .notifications) (base ∪ held repoStmts ∪ held storeStmts))) = wanted := by
      decide
    exact ⟨⟨rfl, by decide, by decide⟩, fun _ => ⟨rfl, congrArg (Stage.mk · .unborn) hwanted⟩⟩

end Dependencies

/-! ## The process -/

/-- The rule for `defer`: the deferred call runs from wherever the body ends. -/
theorem deferring_obeys {α : Type} {Q Q' : α → Stage → Prop} {q : Stage} {last : P Unit} {body : P α}
    (hbody : body.Obeys discipline Q q)
    (hlast : ∀ a q, Q a q → last.Obeys discipline (fun _ q' => Q' a q') q) :
    (deferring last body).Obeys discipline Q' q :=
  hbody.bind (fun a q ha => (hlast a q ha).bind (fun _ _ hq => hq))

/-- The loops are cancelled and the poller is waited for before the limiter is closed. -/
theorem runHTTPServer_obeys :
    runHTTPServer.Obeys discipline (fun _ q => q = ⟨wanted.erase .limiter, .awaited⟩)
      ⟨wanted, .unborn⟩ := by
  refine deferring_obeys (Q := fun _ q => q = ⟨wanted.erase .limiter, .awaited⟩)
    (deferring_obeys (Q := fun _ q => q = ⟨wanted, .awaited⟩) ?_ ?_) ?_
  · have hrunning : Loops.running ≠ .unborn := by decide
    refine ⟨rfl, fun _ => ⟨rfl, fun failed => ?_⟩⟩
    cases failed with
    | some err => exact ⟨hrunning, fun _ => ⟨rfl, fun _ => rfl⟩⟩
    | none => exact ⟨hrunning, fun _ => ⟨rfl, fun shutdownErr => ⟨rfl, fun _ => rfl⟩⟩⟩
  · intro result q hq
    subst hq
    exact closeQuietly_obeys (close_obeys (.inr rfl) (by decide) (by decide))
  · intro result q hq
    subst hq
    have hawaited : Loops.awaited ≠ .unborn := by decide
    exact ⟨hawaited, fun _ => rfl⟩

/-- The way out of `Run`: this much is still held, and without an error the server has
run. -/
def Leaving (h : Finset Resource) (result : Option Err) (q : Stage) : Prop :=
  q.held = h ∧ (q.loops = .unborn ∨ q.loops = .awaited) ∧ (result = none → q.loops = .awaited)

/-- A deferred close on the way out, whatever the result is. -/
theorem close_leaving {h h' : Finset Resource} {r : Resource} {result : Option Err} {q : Stage}
    (hq : Leaving h result q) (hr : r ∈ h) (hneed : ∀ r' ∈ h, r ∉ r'.needs) (hrest : h.erase r = h') :
    (closeQuietly (close r)).Obeys discipline (fun _ q' => Leaving h' result q') q := by
  obtain ⟨held, l⟩ := q
  obtain ⟨rfl, hl, hnone⟩ := hq
  refine (closeQuietly_obeys (close_obeys hl hr hneed)).mono (fun _ q' hq' => ?_)
  rw [hq']
  exact ⟨hrest, hl, hnone⟩

/-- **Every path through `run` gives back what it opened**, in an order that the needs allow. -/
theorem run_obeys : run.Obeys discipline (Leaving ∅) ⟨∅, .unborn⟩ := by
  refine openAndMigrateDB_obeys.bind_except (fun err q hq => ?_) (fun _ q hq => ?_)
  · rw [hq]
    exact ⟨rfl, .inl rfl, fun h => by cases h⟩
  subst hq
  refine deferring_obeys (Q := Leaving {.database}) ?_
    (fun result q hq => close_leaving hq (by decide) (by decide) (by decide))
  refine ⟨⟨rfl, by decide, by decide⟩, fun _ => ?_⟩
  refine deferring_obeys (Q := Leaving base) ?_
    (fun result q hq => close_leaving hq (by decide) (by decide) (by decide))
  refine buildDependencies_obeys.bind_except (fun err q hq => ?_) (fun closers q hq => ?_)
  · rw [hq]
    exact ⟨rfl, .inl rfl, fun h => by cases h⟩
  · obtain ⟨rfl, rfl⟩ := hq
    refine deferring_obeys runHTTPServer_obeys (fun result q hq => ?_)
    subst hq
    have hempties : Empties allClosers (wanted.erase .limiter) base := by decide
    refine (closeQuietly_obeys (closeDependencies_obeys (.inr rfl) hempties _)).mono
      (fun _ q hq => ?_)
    rw [hq]
    exact ⟨rfl, .inr rfl, fun _ => rfl⟩

/-- Whatever fails, in starting, serving or closing: `Run` opens nothing twice, closes
what it opened, once, pools after their statements and nothing under a running loop,
serves only with everything open, and returns with nothing left open; without an error
only after it has served. -/
theorem run_conforms (peer : Peer Op Op.Res) :
    let out := run.converse peer []
    discipline.Conforms ⟨∅, .unborn⟩ out.2 ∧
      (discipline.reach ⟨∅, .unborn⟩ out.2).held = ∅ ∧
      (out.1 = none → (discipline.reach ⟨∅, .unborn⟩ out.2).loops = .awaited) := by
  intro out
  obtain ⟨more, hmore, hconf, hpost⟩ := run_obeys.converse peer []
  rw [List.nil_append] at hmore
  rw [← hmore] at hconf hpost
  exact ⟨hconf, hpost.1, hpost.2.2⟩

end ReleaseNotifier.App
