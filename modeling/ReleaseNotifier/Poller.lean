/-
The release poller: `internal/release/poller.go` with `internal/repository/store.go`
under it and `internal/client/github/cached.go` between it and GitHub.

A scan takes the poller's lock, reads all tracked repositories, and goes over
them one by one. What it knows of a repository is the row it has read, and
`last_seen_tag` is the only thing that survives a crash. `GetLatestRelease` is
answered by GitHub directly or through the Redis cache, whichever client the
poller is given.

`answers`, `written` and `sent` record what GitHub answered, which tags the
database was given, and every call of the mailer. No operation reads them. Who
holds the lock is not known to a mutex either; it is kept with it so that a
scan can be told from another. Metrics and logging are left out.
-/
import ReleaseNotifier.Conc.Pool
import ReleaseNotifier.Attempt
import ReleaseNotifier.RefGrammar
import ReleaseNotifier.Subscriptions
import ReleaseNotifier.Wire
import Mathlib.Data.List.Sort

set_option autoImplicit false

namespace ReleaseNotifier.Poller

open Conc

/-- `release.Release`. -/
structure Release where
  tagName : String
  name : String
  htmlURL : String
  publishedAt : String
  deriving DecidableEq, Repr

/-- `Repository.FullName`. -/
def fullName (repo : TrackedRepository) : String := repo.owner ++ "/" ++ repo.name

/-! ## `tracked_repositories` -/

/-- The table with its sequence and its constraints. -/
structure Tracked where
  rows : List TrackedRepository
  nextID : Nat
  idsBelow : ∀ r ∈ rows, r.id < nextID
  idsUnique : (rows.map TrackedRepository.id).Nodup
  reposUnique : (rows.map (fun r => (r.owner, r.name))).Nodup

/-- The table after the migrations. -/
def Tracked.empty : Tracked :=
  ⟨[], 1, fun _ h => absurd h List.not_mem_nil, List.nodup_nil, List.nodup_nil⟩

namespace Tracked

/-- `upsertQuery`. -/
def upsertQuery (t : Tracked) (owner name : String) : Tracked :=
  if h : repoTracked t.rows owner name = true then t
  else
    { rows := t.rows ++ [⟨t.nextID, owner, name, none, none⟩]
      nextID := t.nextID + 1
      idsBelow := by
        intro r hr
        rcases List.mem_append.mp hr with hr | hr
        · exact Nat.lt_succ_of_lt (t.idsBelow r hr)
        · rw [List.mem_singleton.mp hr]
          exact Nat.lt_succ_self _
      idsUnique := by
        rw [List.map_append, List.nodup_append]
        refine ⟨t.idsUnique, by simp, fun a ha b hb hab => ?_⟩
        obtain ⟨r, hr, rfl⟩ := List.mem_map.mp ha
        rw [List.map_singleton, List.mem_singleton] at hb
        have := t.idsBelow r hr
        rw [hab, hb] at this
        exact Nat.lt_irrefl _ this
      reposUnique := by
        rw [List.map_append, List.nodup_append]
        refine ⟨t.reposUnique, by simp, fun a ha b hb hab => ?_⟩
        obtain ⟨r, hr, rfl⟩ := List.mem_map.mp ha
        rw [List.map_singleton, List.mem_singleton] at hb
        rw [hb, Prod.mk.injEq] at hab
        refine h (List.any_eq_true.mpr ⟨r, hr, ?_⟩)
        simp [hab.1, hab.2] }

/-- `getAllQuery`, with its `ORDER BY id`. -/
def getAllQuery (t : Tracked) : List TrackedRepository :=
  t.rows.insertionSort (fun a b => a.id ≤ b.id)

/-- A row with `last_checked_at = NOW()` and, with a tag, `last_seen_tag` set. -/
def touched (now : Nat) (tag : Option String) (r : TrackedRepository) : TrackedRepository :=
  { r with lastSeenTag := tag.or r.lastSeenTag, lastCheckedAt := some now }

/-- `UPDATE tracked_repositories SET ... WHERE id = ...`: the table and the
number of rows. -/
def touch (t : Tracked) (now : Nat) (tag : Option String) (id : Nat) : Tracked × Nat :=
  ({ t with
      rows := Table.update (fun r => decide (r.id = id)) (touched now tag) t.rows
      idsBelow := by
        intro r hr
        obtain ⟨x, hx, rfl⟩ := Table.mem_update.mp hr
        have := t.idsBelow x hx
        split
        · exact this
        · exact this
      idsUnique := by
        have hmap : (Table.update (fun r => decide (r.id = id)) (touched now tag) t.rows).map
            TrackedRepository.id = t.rows.map TrackedRepository.id :=
          Table.map_update (fun _ _ => rfl)
        rw [hmap]
        exact t.idsUnique
      reposUnique := by
        have hmap : (Table.update (fun r => decide (r.id = id)) (touched now tag) t.rows).map
            (fun r => (r.owner, r.name)) = t.rows.map (fun r => (r.owner, r.name)) :=
          Table.map_update (fun _ _ => rfl)
        rw [hmap]
        exact t.reposUnique },
    t.rows.countP (fun r => decide (r.id = id)))

/-- `updateLastSeenQuery`. -/
def updateLastSeenQuery (t : Tracked) (now : Nat) (tag : String) (id : Nat) : Tracked × Nat :=
  t.touch now (some tag) id

/-- `updateLastCheckedQuery`. -/
def updateLastCheckedQuery (t : Tracked) (now : Nat) (id : Nat) : Tracked × Nat :=
  t.touch now none id

end Tracked

/-! ## The shared state -/

/-- A value in Redis; without a time it does not expire. -/
structure Entry where
  value : Bytes
  expiresAt : Option Nat
  deriving DecidableEq, Repr

/-- A call of `SendReleaseNotification`. -/
structure Mail where
  email : String
  repo : String
  release : Release
  deriving DecidableEq, Repr

/-- The database, Redis, the poller's lock, and the records. -/
structure State where
  now : Nat
  tracked : Tracked
  redis : String → Option Entry
  scanLock : Option Nat
  scans : List Nat
  answers : List (Ref × String)
  written : List (Nat × String)
  sent : List Mail

/-- The state before the first scan. -/
def State.init : State where
  now := 0
  tracked := .empty
  redis := fun _ => none
  scanLock := none
  scans := []
  answers := []
  written := []
  sent := []

/-- What Redis holds under a key that has not expired. -/
def State.lookup (s : State) (key : String) : Option Bytes :=
  match s.redis key with
  | some e => if e.expiresAt.all (fun t => decide (s.now < t)) then some e.value else none
  | none => none

/-! ## Operations -/

/-- The fan-out of `notifySubscribers`: the addresses not yet handed over, how
many workers wait for one, and the addresses the other workers have received. -/
structure Fan where
  rest : List String
  idle : Nat
  held : List String
  deriving DecidableEq, Repr

/-- Which goroutine of the fan-out goes on. -/
inductive Move
  /-- an address is handed to a waiting worker -/
  | handOver
  /-- the worker with the `k`th received address sends -/
  | send (k : Nat)
  /-- the `select` sees the context done -/
  | stop
  deriving DecidableEq, Repr

/-- The goroutine can go on. -/
def Fan.enabled (f : Fan) : Move → Bool
  | .handOver => !f.rest.isEmpty && decide (0 < f.idle)
  | .send k => decide (k < f.held.length)
  | .stop => !f.rest.isEmpty

/-- Where a query fails: it is not executed, a row does not scan, the rows do
not come to their end. -/
inductive QueryErr
  | query (err : Err)
  | scan (err : Err)
  | iterate (err : Err)
  deriving DecidableEq, Repr

/-- The atomic operations. -/
inductive Op
  | tryLock (scan : Nat)
  | unlock
  | stmtGetAll
  | stmtUpdateLastSeen (tag : String) (id : Nat)
  | stmtUpdateLastChecked (id : Nat)
  | stmtGetEmailsByRepo (owner name : String)
  | redisGet (key : String)
  | redisSet (key : String) (value : Bytes) (ttl : Nat)
  | githubGetLatestRelease (owner name : String)
  | ctxErr
  | schedule (fan : Fan)
  | sendReleaseNotification (mail : Mail)
  deriving DecidableEq

/-- What they are answered. -/
abbrev Op.Res : Op → Type
  | .tryLock _ => Bool
  | .unlock => Unit
  | .stmtGetAll => Except QueryErr (List TrackedRepository)
  | .stmtUpdateLastSeen _ _ => Except Err (Except Err Nat)
  | .stmtUpdateLastChecked _ => Except Err (Except Err Nat)
  | .stmtGetEmailsByRepo _ _ => Except QueryErr (List String)
  | .redisGet _ => Except Err (Option Bytes)
  | .redisSet _ _ _ => Except Err Unit
  | .githubGetLatestRelease _ _ => Except Err (Option Release)
  | .ctxErr => Bool
  | .schedule _ => Move
  | .sendReleaseNotification _ => Except Err Unit

/-- The environment's part in one operation: how a statement or a request ends,
what a query fails with, what GitHub answers, whom the query for subscribers
lists, which goroutine goes on. -/
inductive Decision
  | ends (ch : Choice)
  | fails (err : QueryErr)
  | release (rel : Option Release)
  | emails (emails : List String)
  | moves (m : Move)
  deriving DecidableEq, Repr

/-- An `UPDATE`, whose answer goes through `RowsAffected`. -/
def State.execUpdate (s : State) (n : Nat) (s' : State) :
    Decision → Option (Except Err (Except Err Nat) × State)
  | .ends (.noCount f) => some (.ok (.error f.err), s')
  | .ends ch => attempt s (.ok (.ok n, s')) ch
  | _ => none

/-- The state after an update of `last_seen_tag`; the tag is on record if the
row was there. -/
def State.see (s : State) (tag : String) (id : Nat) : State :=
  { s with
    tracked := (s.tracked.updateLastSeenQuery s.now tag id).1
    written :=
      if (s.tracked.updateLastSeenQuery s.now tag id).2 = 0 then s.written
      else s.written ++ [(id, tag)] }

/-- What one operation does and answers. -/
def exec (s : State) : (o : Op) → Decision → Option (o.Res × State)
  | .tryLock scan => fun
    | .ends .ok =>
      if s.scanLock.isSome then some (false, s)
      else some (true, { s with scanLock := some scan })
    | _ => none
  | .unlock => fun
    | .ends .ok => some ((), { s with scanLock := none })
    | _ => none
  | .stmtGetAll => fun
    | .ends .ok => some (.ok s.tracked.getAllQuery, s)
    | .fails err => some (.error err, s)
    | _ => none
  | .stmtUpdateLastSeen tag id =>
    s.execUpdate (s.tracked.updateLastSeenQuery s.now tag id).2 (s.see tag id)
  | .stmtUpdateLastChecked id =>
    s.execUpdate (s.tracked.updateLastCheckedQuery s.now id).2
      { s with tracked := (s.tracked.updateLastCheckedQuery s.now id).1 }
  | .stmtGetEmailsByRepo _ _ => fun
    | .emails emails => some (.ok emails, s)
    | .fails err => some (.error err, s)
    | _ => none
  | .redisGet key => fun
    | .ends .ok => some (.ok (s.lookup key), s)
    | .ends (.fail f) => some (.error f.err, s)
    | _ => none
  | .redisSet key value ttl => fun
    | .ends ch => attempt s (.ok ((), { s with
        redis := Function.update s.redis key
          (some ⟨value, if ttl = 0 then none else some (s.now + ttl)⟩) })) ch
    | _ => none
  | .githubGetLatestRelease owner name => fun
    | .release none => some (.ok none, s)
    | .release (some rel) => some (.ok (some rel), { s with
        answers := s.answers ++ [(⟨owner, name⟩, rel.tagName)] })
    | .ends (.fail f) => some (.error f.err, s)
    | _ => none
  | .ctxErr => fun
    | .ends (.answer b) => some (b, s)
    | _ => none
  | .schedule fan => fun
    | .moves m => if fan.enabled m then some (m, s) else none
    | _ => none
  | .sendReleaseNotification mail => fun
    | .ends .ok => some (.ok (), { s with sent := s.sent ++ [mail] })
    | .ends (.fail f) => some (.error f.err, { s with sent := s.sent ++ [mail] })
    | _ => none

/-- Programs of the poller. -/
abbrev P := Prog Op Op.Res

/-- Issue one operation. -/
def perform (o : Op) : P o.Res := Prog.perform o

/-- Issue one statement and make something of its outcome. -/
def statement {α : Type} (o : Op) (answer : o.Res → α) : P α := .op o (fun r => .ret (answer r))

/-! ## `repository.Store`, `subscription.Repo` -/

namespace Store

/-- `Store.GetAll`. -/
def getAll : P (Except Err (List TrackedRepository)) :=
  statement .stmtGetAll fun
    | .ok repos => .ok repos
    | .error (.query err) => .error (.wrap "querying tracked repositories" err)
    | .error (.scan err) => .error (.wrap "scanning tracked repository row" err)
    | .error (.iterate err) => .error (.wrap "iterating tracked repository rows" err)

/-- `requireRowsUpdated`. -/
def requireRowsUpdated (action : String) (id : Nat) : Except Err Nat → Option Err
  | .error err => some (.wrap s!"{action}: getting rows affected id={id}" err)
  | .ok 0 => some (.text s!"{action}: tracked repository {id} not found")
  | .ok (_ + 1) => none

/-- What `UpdateLastSeen` and `UpdateLastChecked` make of their statement. -/
def updated (action : String) (id : Nat) : Except Err (Except Err Nat) → Option Err
  | .error err => some (.wrap s!"{action} id={id}" err)
  | .ok result => requireRowsUpdated action id result

/-- `Store.UpdateLastSeen`. -/
def updateLastSeen (id : Nat) (tag : String) : P (Option Err) :=
  statement (.stmtUpdateLastSeen tag id) (updated "updating last seen tag" id)

/-- `Store.UpdateLastChecked`. -/
def updateLastChecked (id : Nat) : P (Option Err) :=
  statement (.stmtUpdateLastChecked id) (updated "updating last checked timestamp" id)

end Store

/-- `Repo.GetEmailsByRepo`. -/
def getEmailsByRepo (owner name : String) : P (Except Err (List String)) :=
  statement (.stmtGetEmailsByRepo owner name) fun
    | .ok emails => .ok emails
    | .error (.query err) =>
      .error (.wrap s!"querying subscriber emails owner={owner} name={name}" err)
    | .error (.scan err) =>
      .error (.wrap s!"scanning subscriber email owner={owner} name={name}" err)
    | .error (.iterate err) =>
      .error (.wrap s!"iterating subscriber emails owner={owner} name={name}" err)

/-! ## The clients -/

/-- What the poller is wired with: the cache in front of GitHub or not, as
`selectGitHubClient` decides, its `ttl`, and `encoding/json` at `Release`. -/
structure Config where
  cached : Bool
  ttl : Nat
  json : Codec Release

/-- The key of a repository's release. -/
def releaseKey (owner name : String) : String := "github:release:" ++ (owner ++ "/" ++ name)

namespace CachedClient

/-- The end of `GetLatestRelease`: put the release into the cache and return it. -/
def store (D : Config) (owner name : String) (rel : Release) :
    P (Except Err (Option Release)) :=
  match D.json.marshal rel with
  | .ok data => do
    let _ ← perform (.redisSet (releaseKey owner name) data D.ttl)
    return .ok (some rel)
  | .error _ => return .ok (some rel)

/-- `GetLatestRelease` after the cache had nothing to offer. -/
def fetch (D : Config) (owner name : String) : P (Except Err (Option Release)) := do
  match ← perform (.githubGetLatestRelease owner name) with
  | .error err => return .error err
  | .ok none => return .ok none
  | .ok (some rel) => store D owner name rel

/-- `GetLatestRelease` with a value from the cache. -/
def serve (D : Config) (owner name : String) (val : Bytes) : P (Except Err (Option Release)) :=
  match D.json.unmarshal val with
  | .ok rel => return .ok (some rel)
  | .error _ => fetch D owner name

/-- `CachedClient.GetLatestRelease`. -/
def getLatestRelease (D : Config) (owner name : String) : P (Except Err (Option Release)) := do
  match ← perform (.redisGet (releaseKey owner name)) with
  | .ok (some val) => serve D owner name val
  | .ok none => fetch D owner name
  | .error _ => fetch D owner name

end CachedClient

/-- `GetLatestRelease` of the poller's client. -/
def getLatestRelease (D : Config) (owner name : String) : P (Except Err (Option Release)) :=
  if D.cached then CachedClient.getLatestRelease D owner name
  else perform (.githubGetLatestRelease owner name)

/-! ## `poller.go` -/

/-- `notifyWorkers`. -/
def notifyWorkers : Nat := 8

/-- `sendOne`; an error is only logged. -/
def sendOne (repo : TrackedRepository) (rel : Release) (email : String) : P Unit := do
  let _ ← perform (.sendReleaseNotification ⟨email, fullName repo, rel⟩)
  return ()

/-- The loop of `notifySubscribers` without workers. -/
def sendAll (repo : TrackedRepository) (rel : Release) : List String → P Unit
  | [] => return ()
  | email :: emails => do
    sendOne repo rel email
    sendAll repo rel emails

/-- How many moves a fan-out can still make. -/
def Fan.moves (f : Fan) : Nat := 2 * f.rest.length + f.held.length

/-- One move of the fan-out, after which `next` goes on. -/
def fanStep (repo : TrackedRepository) (rel : Release) (next : Fan → P Unit) (f : Fan) :
    Move → P Unit
  | .handOver =>
    match f.rest, f.idle with
    | email :: rest, idle + 1 => next ⟨rest, idle, f.held ++ [email]⟩
    | _, _ => return ()
  | .send k =>
    match f.held[k]? with
    | some email => do
      sendOne repo rel email
      next ⟨f.rest, f.idle + 1, f.held.eraseIdx k⟩
    | none => return ()
  | .stop =>
    match f.rest with
    -- the addresses already received are still sent to
    | _ :: _ => next ⟨[], f.idle, f.held⟩
    | [] => return ()

/-- The fan-out of `notifySubscribers`, with some fuel. The goroutines share
nothing but the channel, so what they do is one sequence of moves. It is over
when `jobs` is closed and every worker is done. -/
def fanOut (repo : TrackedRepository) (rel : Release) : Nat → Fan → P Unit
  | 0, _ => return ()
  | fuel + 1, f =>
    if f.rest = [] ∧ f.held = [] then return ()
    else do
      let m ← perform (.schedule f)
      fanStep repo rel (fanOut repo rel fuel) f m

/-- `notifySubscribers`. -/
def notifySubscribers (repo : TrackedRepository) (rel : Release) : P Unit := do
  match ← getEmailsByRepo repo.owner repo.name with
  | .error _ => return ()
  | .ok emails =>
    let workers := min notifyWorkers emails.length
    if workers ≤ 1 then sendAll repo rel emails
    else fanOut repo rel ((Fan.mk emails workers []).moves + 1) ⟨emails, workers, []⟩

/-- `updateLastChecked`; an error is only logged. -/
def updateLastChecked (repo : TrackedRepository) : P Unit := do
  let _ ← Store.updateLastChecked repo.id
  return ()

/-- `scanRepository`. -/
def scanRepository (D : Config) (repo : TrackedRepository) : P Unit := do
  match ← getLatestRelease D repo.owner repo.name with
  | .error _ => return ()
  | .ok none => updateLastChecked repo
  | .ok (some rel) =>
    if repo.lastSeenTag = some rel.tagName then updateLastChecked repo
    else
      match ← Store.updateLastSeen repo.id rel.tagName with
      | some _ => return ()
      | none => notifySubscribers repo rel

/-- The loop of `scan`. -/
def scanAll (D : Config) : List TrackedRepository → P Unit
  | [] => return ()
  | repo :: repos => do
    match ← perform .ctxErr with
    | true => return ()
    | false => do
      scanRepository D repo
      scanAll D repos

/-- `scan`, with the deferred `Unlock`. -/
def scan (D : Config) (number : Nat) : P Unit := do
  match ← perform (.tryLock number) with
  | false => return ()
  | true =>
    match ← Store.getAll with
    | .error _ => perform .unlock
    | .ok repos => do
      scanAll D repos
      perform .unlock

/-! ## The machine -/

/-- A run of `scan`. -/
structure Call where
  number : Nat
  deriving DecidableEq, Repr

/-- Every scan has a number of its own. -/
def enter (c : Call) (s : State) : Option State :=
  if c.number ∈ s.scans then none else some { s with scans := c.number :: s.scans }

/-- What happens without a scan: time passes, a repository is tracked, Redis
drops a key, the process is started anew. -/
inductive WorldEvent
  | pass (time : Nat)
  | upsert (raw : String)
  | evict (key : String)
  | restart
  deriving DecidableEq, Repr

/-- One step of the world. A repository is tracked under the reference that was
parsed from the request. -/
def world : WorldEvent → State → Option State
  | .pass time, s => some { s with now := s.now + time }
  | .upsert raw, s =>
    match parseRef raw with
    | .ok ref => some { s with tracked := s.tracked.upsertQuery ref.owner ref.name }
    | .error _ => none
  | .evict key, s => some { s with redis := Function.update s.redis key none }
  | .restart, s => some { s with scanLock := none }

/-- The poller. -/
def machine (D : Config) : Machine Op Op.Res State Decision Call WorldEvent Unit where
  program c := scan D c.number
  enter := enter
  exec := exec
  env := world

/-- Pools of scans. -/
abbrev Scans := Pool Op Op.Res State Call Unit

/-- The poller before its first scan. -/
def init : Scans := ⟨.init, []⟩

/-! ## The fan-out comes to its end -/

/-- Every move leaves fewer of them. -/
theorem fanStep_congr (repo : TrackedRepository) (rel : Release) {next next' : Fan → P Unit}
    {f : Fan} (h : ∀ g : Fan, g.moves < f.moves → next g = next' g) (m : Move) :
    fanStep repo rel next f m = fanStep repo rel next' f m := by
  cases m with
  | handOver =>
    simp only [fanStep]
    split
    · next email rest idle hrest hidle =>
      refine h _ ?_
      simp only [Fan.moves, hrest, List.length_cons, List.length_append, List.length_nil]
      omega
    · rfl
  | send k =>
    simp only [fanStep]
    split
    · next email hk =>
      have hlen := List.length_eraseIdx_of_lt (List.getElem?_eq_some_iff.mp hk).1
      have hpos := (List.getElem?_eq_some_iff.mp hk).1
      have hnext : next ⟨f.rest, f.idle + 1, f.held.eraseIdx k⟩
          = next' ⟨f.rest, f.idle + 1, f.held.eraseIdx k⟩ := by
        refine h _ ?_
        simp only [Fan.moves]
        omega
      rw [hnext]
    · rfl
  | stop =>
    simp only [fanStep]
    split
    · next hrest =>
      refine h _ ?_
      simp only [Fan.moves, hrest, List.length_cons, List.length_nil]
      omega
    · rfl

/-- More fuel than there are moves makes no difference, so the fuel of
`notifySubscribers` is enough. -/
theorem fanOut_fuel (repo : TrackedRepository) (rel : Release) {fuel fuel' : Nat} {f : Fan}
    (h : f.moves < fuel) (h' : f.moves < fuel') :
    fanOut repo rel fuel f = fanOut repo rel fuel' f := by
  induction fuel generalizing fuel' f with
  | zero => exact absurd h (Nat.not_lt_zero _)
  | succ n ih =>
    cases fuel' with
    | zero => exact absurd h' (Nat.not_lt_zero _)
    | succ n' =>
      unfold fanOut
      split
      · rfl
      · refine congrArg (Prog.op (Op.schedule f)) (funext fun m => ?_)
        refine fanStep_congr repo rel (fun g hg => ?_) m
        exact ih (Nat.lt_of_lt_of_le hg (Nat.lt_succ_iff.mp h))
          (Nat.lt_of_lt_of_le hg (Nat.lt_succ_iff.mp h'))

/-! ## Releases to run with -/

/-- A release of `o/r`. -/
def sampleRelease (tag : String) : Release :=
  ⟨tag, "", "https://g/" ++ tag, "2026-01-01"⟩

/-- Its text as `encoding/json` writes it. -/
def sampleText (tag : String) : Bytes :=
  utf8 ("\x7b\"tag_name\":\"" ++ tag ++ "\",\"name\":\"\",\"html_url\":\"https://g/" ++ tag
    ++ "\",\"published_at\":\"2026-01-01\"\x7d")

/-- Three releases, a cache with a TTL of ten minutes or none. -/
def sample (cached : Bool) : Config where
  cached := cached
  ttl := 600
  json := .ofTable [(sampleRelease "v1", sampleText "v1"), (sampleRelease "v2", sampleText "v2"),
    (sampleRelease "v3", sampleText "v3")]

end ReleaseNotifier.Poller
