/-
The order in which a scan does things.

A scan holds the lock from its first operation to its last. In between it goes
over the rows it has read, one by one; for each it asks for the release, writes
a tag it has been offered and that is not the row's, and only after a write that
was reported to have worked it lists the subscribers and sends to each of them
once. `scan_obeys` says so of the program, whatever it is answered, for both
clients. Nothing here is about the state; which stage means what for the
database and the cache is the subject of the next file.
-/
import ReleaseNotifier.Conc.Protocol
import ReleaseNotifier.Poller

set_option autoImplicit false

namespace ReleaseNotifier.Poller

open Conc

/-- What a scan is doing with the repository it is at. -/
inductive Doing
  | nothing
  /-- the client has not answered yet -/
  | asking (repo : TrackedRepository)
  /-- GitHub has answered, and the answer is not in the cache yet -/
  | fetched (repo : TrackedRepository) (rel : Release)
  /-- the client answers with a release of this tag -/
  | offered (repo : TrackedRepository) (tag : String)
  /-- `last_seen_tag` has been set -/
  | persisted (repo : TrackedRepository) (tag : String)
  /-- these addresses have not been sent to -/
  | notifying (repo : TrackedRepository) (tag : String) (emails : List String)

/-- The stages of a scan: without the lock, with it, and with the rows left to
go over. -/
inductive Stage
  | outside
  | locked
  | walking (rest : List TrackedRepository) (doing : Doing)

section Protocol

variable (D : Config)

/-- Where an answered operation leads with the repository at hand. -/
def Doing.next : Doing → (o : Op) → o.Res → Doing
  | .asking repo, .redisGet _, .ok (some val) =>
    match D.json.unmarshal val with
    | .ok rel => .offered repo rel.tagName
    | .error _ => .asking repo
  | .asking repo, .githubGetLatestRelease _ _, .ok (some rel) =>
    match D.cached, D.json.marshal rel with
    | true, .ok _ => .fetched repo rel
    | _, _ => .offered repo rel.tagName
  | .fetched repo rel, .redisSet _ _ _, _ => .offered repo rel.tagName
  | .offered repo tag, .stmtUpdateLastSeen _ _, .ok (.ok (_ + 1)) => .persisted repo tag
  | .offered _ _, .stmtUpdateLastSeen _ _, _ => .nothing
  | .persisted repo tag, .stmtGetEmailsByRepo _ _, .ok emails => .notifying repo tag emails
  | .persisted _ _, .stmtGetEmailsByRepo _ _, .error _ => .nothing
  | .notifying repo tag emails, .sendReleaseNotification mail, _ =>
    .notifying repo tag (emails.erase mail.email)
  | doing, _, _ => doing

/-- Where it leads. -/
def Stage.next : Stage → (o : Op) → o.Res → Stage
  | .outside, .tryLock _, true => .locked
  | .locked, .stmtGetAll, .ok repos => .walking repos .nothing
  | .locked, .unlock, _ => .outside
  | .walking _ _, .unlock, _ => .outside
  | .walking (repo :: rest) _, .ctxErr, false => .walking rest (.asking repo)
  | .walking rest doing, o, r => .walking rest (doing.next D o r)
  | q, _, _ => q

/-- What may be done with the repository at hand. -/
def Doing.allows : Doing → Op → Prop
  | .asking repo, .redisGet key => D.cached = true ∧ key = releaseKey repo.owner repo.name
  | .asking repo, .githubGetLatestRelease owner name => owner = repo.owner ∧ name = repo.name
  | .fetched repo rel, .redisSet key value _ =>
    key = releaseKey repo.owner repo.name ∧ D.json.marshal rel = .ok value
  | .offered repo tag, .stmtUpdateLastSeen tag' id =>
    tag' = tag ∧ id = repo.id ∧ repo.lastSeenTag ≠ some tag
  | .persisted _ _, .stmtGetEmailsByRepo _ _ => True
  | .notifying repo tag emails, .sendReleaseNotification mail =>
    mail.email ∈ emails ∧ mail.repo = fullName repo ∧ mail.release.tagName = tag
  | _, _ => False

/-- What scan `number` may do. -/
def Stage.allows (number : Nat) : Stage → Op → Prop
  | .outside, .tryLock scan => scan = number
  | .locked, .stmtGetAll => True
  | .locked, .unlock => True
  | .walking _ _, .unlock => True
  | .walking _ _, .ctxErr => True
  | .walking _ _, .schedule _ => True
  | .walking _ _, .stmtUpdateLastChecked _ => True
  | .walking _ doing, o => doing.allows D o
  | _, _ => False

/-- The protocol of a scan. -/
def stages (c : Call) : Protocol Op Op.Res Stage where
  allows := Stage.allows D c.number
  next := Stage.next D

end Protocol

variable {D : Config} {c : Call} {rest : List TrackedRepository} {repo : TrackedRepository}
variable {rel : Release} {tag : String}

/-- The scan is at some repository with `rest` left to go over. -/
def Walking (rest : List TrackedRepository) (q : Stage) : Prop := ∃ doing, q = .walking rest doing

/-! ## The clients -/

/-- The client has answered: with a release it is on offer. -/
def Answered (repo : TrackedRepository) (rest : List TrackedRepository) :
    Except Err (Option Release) → Stage → Prop
  | .ok (some rel), q => q = .walking rest (.offered repo rel.tagName)
  | _, q => Walking rest q

/-- GitHub's answer goes through the cache, unless it does not marshal. -/
theorem next_fetched (hcached : D.cached = true) {data : Bytes}
    (hm : D.json.marshal rel = .ok data) {owner name : String} :
    Stage.next D (.walking rest (.asking repo)) (.githubGetLatestRelease owner name)
      (.ok (some rel)) = .walking rest (.fetched repo rel) := by
  simp [Stage.next, Doing.next, hcached, hm]

/-- Otherwise it is on offer right away. -/
theorem next_offered {owner name : String}
    (h : ∀ data, D.cached = true → D.json.marshal rel ≠ .ok data) :
    Stage.next D (.walking rest (.asking repo)) (.githubGetLatestRelease owner name)
      (.ok (some rel)) = .walking rest (.offered repo rel.tagName) := by
  cases hcached : D.cached with
  | false => simp [Stage.next, Doing.next, hcached]
  | true =>
    cases hm : D.json.marshal rel with
    | ok data => exact absurd hm (h data hcached)
    | error err => simp [Stage.next, Doing.next, hcached, hm]

/-- A release is offered after GitHub has answered. -/
theorem fetch_obeys (hcached : D.cached = true) :
    (CachedClient.fetch D repo.owner repo.name).Obeys (stages D c) (Answered repo rest)
      (.walking rest (.asking repo)) := by
  refine ⟨⟨rfl, rfl⟩, fun r => ?_⟩
  rcases r with err | _ | rel
  · exact ⟨_, rfl⟩
  · exact ⟨_, rfl⟩
  · show (CachedClient.store D repo.owner repo.name rel).Obeys (stages D c) (Answered repo rest)
      (Stage.next D (.walking rest (.asking repo)) (.githubGetLatestRelease repo.owner repo.name)
        (.ok (some rel)))
    unfold CachedClient.store
    cases hm : D.json.marshal rel with
    | ok data =>
      rw [next_fetched hcached hm]
      exact ⟨⟨rfl, hm⟩, fun _ => rfl⟩
    | error err =>
      rw [next_offered (fun data _ h => by rw [hm] at h; cases h)]
      rfl

/-- A hit is offered as it was stored; one that does not decode is fetched. -/
theorem serve_obeys (hcached : D.cached = true) (val : Bytes) {key : String} :
    (CachedClient.serve D repo.owner repo.name val).Obeys (stages D c) (Answered repo rest)
      (Stage.next D (.walking rest (.asking repo)) (.redisGet key) (.ok (some val))) := by
  unfold CachedClient.serve
  cases hu : D.json.unmarshal val with
  | ok rel => simp [Stage.next, Doing.next, hu, Answered]
  | error err =>
    simp only [Stage.next, Doing.next, hu]
    exact fetch_obeys hcached

theorem getLatestRelease_obeys :
    (getLatestRelease D repo.owner repo.name).Obeys (stages D c) (Answered repo rest)
      (.walking rest (.asking repo)) := by
  unfold getLatestRelease
  split
  · next hcached =>
    refine ⟨⟨hcached, rfl⟩, fun r => ?_⟩
    rcases r with err | _ | val
    · exact fetch_obeys hcached
    · exact fetch_obeys hcached
    · exact serve_obeys hcached val
  · next hcached =>
    refine ⟨⟨rfl, rfl⟩, fun r => ?_⟩
    rcases r with err | _ | rel
    · exact ⟨_, rfl⟩
    · exact ⟨_, rfl⟩
    · exact next_offered (fun data h => absurd h hcached)

/-! ## The subscribers -/

variable {emails : List String} {q : Stage}

theorem sendAll_obeys :
    (sendAll repo rel emails).Obeys (stages D c) (fun _ => Walking rest)
      (.walking rest (.notifying repo rel.tagName emails)) := by
  induction emails with
  | nil => exact ⟨_, rfl⟩
  | cons email emails ih =>
    refine ⟨⟨List.mem_cons_self, rfl, rfl⟩, fun r => ?_⟩
    show (sendAll repo rel emails).Obeys (stages D c) _
      (.walking rest (.notifying repo rel.tagName ((email :: emails).erase email)))
    rw [List.erase_cons_head]
    exact ih

/-- What the sender has not handed over and what the workers hold has not been
sent to. -/
theorem fanOut_obeys (fuel : Nat) {f : Fan} (h : (f.rest ++ f.held).Subperm emails) :
    (fanOut repo rel fuel f).Obeys (stages D c) (fun _ => Walking rest)
      (.walking rest (.notifying repo rel.tagName emails)) := by
  induction fuel generalizing f emails with
  | zero => exact ⟨_, rfl⟩
  | succ n ih =>
    unfold fanOut
    split
    · exact ⟨_, rfl⟩
    · refine ⟨trivial, fun m => ?_⟩
      show (fanStep repo rel (fanOut repo rel n) f m).Obeys (stages D c) _
        (.walking rest (.notifying repo rel.tagName emails))
      cases m with
      | handOver =>
        simp only [fanStep]
        split
        · next email rest' idle hrest _ =>
          rw [hrest] at h
          -- the address only changes hands
          have hperm : (rest' ++ (f.held ++ [email])).Perm (email :: rest' ++ f.held) := by
            rw [← List.append_assoc]
            exact List.perm_append_singleton email (rest' ++ f.held)
          exact ih (hperm.subperm.trans h)
        · exact ⟨_, rfl⟩
      | send k =>
        simp only [fanStep]
        split
        · next email hk =>
          obtain ⟨hlt, rfl⟩ := List.getElem?_eq_some_iff.mp hk
          have hheld : (f.held[k] :: f.held.eraseIdx k).Perm f.held :=
            ((List.erase_getElem hlt).symm.cons _).trans
              (List.perm_cons_erase (List.getElem_mem hlt)).symm
          have hperm : (f.held[k] :: (f.rest ++ f.held.eraseIdx k)).Perm (f.rest ++ f.held) :=
            List.perm_middle.symm.trans (hheld.append_left f.rest)
          have hmem : f.held[k] ∈ emails :=
            h.subset (List.mem_append_right _ (List.getElem_mem hlt))
          refine ⟨⟨hmem, rfl, rfl⟩, fun r => ih ?_⟩
          have hsub := (hperm.subperm.trans h).erase f.held[k]
          rwa [List.erase_cons_head] at hsub
        · exact ⟨_, rfl⟩
      | stop =>
        simp only [fanStep]
        split
        · refine ih ?_
          exact ((List.sublist_append_right f.rest f.held).subperm).trans h
        · exact ⟨_, rfl⟩

/-- The mails come after the tag has been written. -/
theorem notifySubscribers_obeys :
    (notifySubscribers repo rel).Obeys (stages D c) (fun _ => Walking rest)
      (.walking rest (.persisted repo rel.tagName)) := by
  refine ⟨trivial, fun r => ?_⟩
  cases r with
  | error err => cases err <;> exact ⟨_, rfl⟩
  | ok emails =>
    show Prog.Obeys (stages D c) _ (if min notifyWorkers emails.length ≤ 1 then _ else _)
      (Stage.walking rest (.notifying repo rel.tagName emails))
    split
    · exact sendAll_obeys
    · refine fanOut_obeys _ ?_
      rw [List.append_nil]

/-! ## The scan -/

theorem updateLastChecked_obeys (h : Walking rest q) :
    (updateLastChecked repo).Obeys (stages D c) (fun _ => Walking rest) q := by
  obtain ⟨doing, rfl⟩ := h
  exact ⟨trivial, fun r => ⟨_, rfl⟩⟩

/-- An update that is not reported to have failed has hit the row. -/
theorem updated_eq_none {action : String} {id : Nat} {r : Except Err (Except Err Nat)}
    (h : Store.updated action id r = none) : ∃ n, r = .ok (.ok (n + 1)) := by
  rcases r with err | err | _ | n
  · cases h
  · cases h
  · cases h
  · exact ⟨n, rfl⟩

/-- The tag is persisted if `UpdateLastSeen` returns nil. -/
theorem updateLastSeen_obeys (hnew : repo.lastSeenTag ≠ some tag) :
    (Store.updateLastSeen repo.id tag).Obeys (stages D c)
      (fun res q => if res = none then q = .walking rest (.persisted repo tag) else Walking rest q)
      (.walking rest (.offered repo tag)) := by
  refine ⟨⟨rfl, rfl, hnew⟩, fun r => ?_⟩
  show if Store.updated _ _ r = none then _ else _
  split
  · next hr =>
    obtain ⟨n, rfl⟩ := updated_eq_none hr
    rfl
  · exact ⟨_, rfl⟩

/-- One repository: ask, and either mark it as checked or write the tag and notify. -/
theorem scanRepository_obeys :
    (scanRepository D repo).Obeys (stages D c) (fun _ => Walking rest)
      (.walking rest (.asking repo)) := by
  refine getLatestRelease_obeys.bind (fun r q hq => ?_)
  rcases r with err | _ | rel
  · exact hq
  · exact updateLastChecked_obeys hq
  · show Prog.Obeys (stages D c) _ (if repo.lastSeenTag = some rel.tagName then _ else _) q
    obtain rfl : q = .walking rest (.offered repo rel.tagName) := hq
    split
    · exact updateLastChecked_obeys ⟨_, rfl⟩
    · next hnew =>
      refine (updateLastSeen_obeys hnew).bind (fun res q hq => ?_)
      cases res with
      | some err => exact hq
      | none =>
        cases hq
        exact notifySubscribers_obeys

/-- The repositories one after the other, until the context is done. -/
theorem scanAll_obeys {repos : List TrackedRepository} (h : Walking repos q) :
    (scanAll D repos).Obeys (stages D c) (fun _ q => ∃ rest, Walking rest q) q := by
  induction repos generalizing q with
  | nil => exact ⟨[], h⟩
  | cons repo repos ih =>
    obtain ⟨doing, rfl⟩ := h
    refine ⟨trivial, fun r => ?_⟩
    cases r with
    | true => exact ⟨repo :: repos, _, rfl⟩
    | false => exact scanRepository_obeys.bind (fun _ q hq => ih hq)

/-- A scan that has returned does not hold the lock. -/
theorem scan_obeys : (scan D c.number).Obeys (stages D c) (fun _ q => q = .outside) .outside := by
  refine ⟨rfl, fun r => ?_⟩
  cases r with
  | false => rfl
  | true =>
    refine ⟨trivial, fun r => ?_⟩
    have hunlock : ∀ {rest q}, Walking rest q →
        (perform .unlock).Obeys (stages D c) (fun _ q => q = .outside) q := by
      rintro rest q ⟨doing, rfl⟩
      exact ⟨trivial, fun _ => rfl⟩
    cases r with
    | error err => cases err <;> exact ⟨trivial, fun _ => rfl⟩
    | ok repos =>
      refine (scanAll_obeys ⟨_, rfl⟩).bind (fun _ q hq => ?_)
      obtain ⟨rest, hq⟩ := hq
      exact hunlock hq

end ReleaseNotifier.Poller
