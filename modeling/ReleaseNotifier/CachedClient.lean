/-
The GitHub client behind Redis: `internal/client/github/cached.go`.

`CachedClient` answers from Redis when it can and asks the client it wraps when
it cannot; Redis failing is never a reason to fail. `GetLatestRelease` is the one
the poller's model has. `RepoExists` is added here, and the two run side by side
on one Redis: any number of calls, interleaved operation by operation, each of
which may die on the way, while keys expire.

What keeps the cache honest is that every entry is vouched for (`Voucher`): it was
written under the key of a pair for which the wrapped client has given that very
answer. The keys of the two kinds start differently, and an owner without a slash
can be read off a key, so an entry is never taken for another's. A call adds an
entry only after it has the answer, and answers are never taken back, so the
calls need nothing of each other but that.
-/
import ReleaseNotifier.Conc.RelyGuarantee
import ReleaseNotifier.Conc.Scoped
import ReleaseNotifier.Conc.Script
import ReleaseNotifier.Caching

set_option autoImplicit false

namespace ReleaseNotifier.GitHub

open Conc
open Poller (Config Decision WorldEvent releaseKey)

/-! ## Operations -/

/-- The operations of the poller, and the question whether a repository exists. -/
inductive Op
  | common (o : Poller.Op)
  | githubRepoExists (owner name : String)

/-- What they are answered. -/
abbrev Op.Res : Op → Type
  | .common o => o.Res
  | .githubRepoExists _ _ => Except Err Bool

/-- What the wrapped client has answered. -/
inductive Answer
  | repoExists (owner name : String) (answer : Except Err Bool)
  | getLatestRelease (owner name : String) (answer : Except Err (Option Poller.Release))
  deriving DecidableEq

/-- The answers of the wrapped client among all answers. -/
def Op.answers : (o : Op) → o.Res → List Answer
  | .githubRepoExists owner name, r => [.repoExists owner name r]
  | .common (.githubGetLatestRelease owner name), r => [.getLatestRelease owner name r]
  -- what Redis answers is not on record
  | _, _ => []

/-- The state, and on record everything the wrapped client has answered. -/
structure State where
  shared : Poller.State
  answers : List Answer

/-- How an operation ends. -/
def reply (s : Poller.State) : (o : Op) → Decision → Option (o.Res × Poller.State)
  | .common o => Poller.exec s o
  | .githubRepoExists _ _ => fun
    | .ends (.answer b) => some (.ok b, s)
    | .ends (.fail f) => some (.error f.err, s)
    | _ => none

/-- What one operation does and answers. -/
def exec (s : State) (o : Op) (d : Decision) : Option (o.Res × State) :=
  match reply s.shared o d with
  | some (r, shared) => some (r, ⟨shared, s.answers ++ o.answers r⟩)
  | none => none

/-- Programs of the client. -/
abbrev P := Prog Op Op.Res

/-- Issue one operation. -/
def perform (o : Op) : P o.Res := Prog.perform o

/-! ## `cached.go` -/

/-- The key under which it is kept that a repository exists. -/
def existsKey (owner name : String) : String := "github:repo_exists:" ++ (owner ++ "/" ++ name)

namespace CachedClient

/-- `RepoExists` after the cache had nothing to offer. Only that a repository
exists is stored. -/
def ask (D : Config) (owner name : String) : P (Except Err Bool) := do
  match ← perform (.githubRepoExists owner name) with
  | .error err => return .error err
  -- a negative answer would mask a repository that is created later
  | .ok false => return .ok false
  | .ok true => do
    -- a `SET` that fails is counted and logged, no more
    let _ ← perform (.common (.redisSet (existsKey owner name) (utf8 "1") D.ttl))
    return .ok true

/-- `CachedClient.RepoExists`. -/
def repoExists (D : Config) (owner name : String) : P (Except Err Bool) := do
  match ← perform (.common (.redisGet (existsKey owner name))) with
  | .ok (some val) => return .ok (decide (val = utf8 "1"))
  | .ok none => ask D owner name
  -- Redis failing is treated as a miss
  | .error _ => ask D owner name

/-- `CachedClient.GetLatestRelease`, the poller's. -/
def getLatestRelease (D : Config) (owner name : String) : P (Except Err (Option Poller.Release)) :=
  (Poller.CachedClient.getLatestRelease D owner name).interpret (fun o => perform (.common o))

end CachedClient

/-! ## The machine -/

/-- A call of one of the two methods. -/
inductive Call
  | repoExists (owner name : String)
  | getLatestRelease (owner name : String)
  deriving DecidableEq

/-- The owner it is about. -/
def Call.owner : Call → String
  | .repoExists owner _ => owner
  | .getLatestRelease owner _ => owner

/-- What it returns. -/
inductive Return
  | repoExists (result : Except Err Bool)
  | getLatestRelease (result : Except Err (Option Poller.Release))
  deriving DecidableEq

/-- What a call runs. -/
def method (D : Config) : Call → P Return
  | .repoExists owner name => do return .repoExists (← CachedClient.repoExists D owner name)
  | .getLatestRelease owner name => do
    return .getLatestRelease (← CachedClient.getLatestRelease D owner name)

/-- The client on one Redis. With what it returns a call gives the answers it has
got from the wrapped client itself. -/
def machine (D : Config) :
    Machine Op Op.Res State Decision Call WorldEvent (Return × List Answer) where
  program c := (method D c).recording Op.answers []
  enter _ s := some s
  exec := exec
  env e s := (Poller.world e s.shared).map (fun shared => { s with shared := shared })

/-- Pools of calls. -/
abbrev Calls := Pool Op Op.Res State Call (Return × List Answer)

/-- Nothing has been asked, and Redis is empty. -/
def init : Calls := ⟨⟨.init, []⟩, []⟩

/-- The owners that are asked about have no slash. -/
def SlashFree (_ : Calls) : Event Decision Call WorldEvent → Prop
  | .call c => '/' ∉ c.owner.toList
  | _ => True

instance (p : Calls) : DecidablePred (SlashFree p)
  | .call c => inferInstanceAs (Decidable ('/' ∉ c.owner.toList))
  | .run _ _ => isTrue trivial
  | .kill _ => isTrue trivial
  | .env _ => isTrue trivial

/-! ## Keys -/

/-- Two repositories have different keys, as long as no owner contains the separator. -/
theorem existsKey_inj {o n o' n' : String} (ho : '/' ∉ o.toList) (ho' : '/' ∉ o'.toList)
    (h : existsKey o n = existsKey o' n') : o = o' ∧ n = n' :=
  Poller.fullName_inj ho ho' (String.append_right_inj _ |>.mp h)

/-- The keys of the two kinds differ after `github:re`. -/
theorem existsKey_ne_releaseKey {o n o' n' : String} (h : existsKey o n = releaseKey o' n') :
    False := by
  unfold existsKey releaseKey at h
  have hlist := congrArg String.toList h
  clear h
  simp at hlist

/-! ## Vouchers -/

/-- An answer of the wrapped client that an entry of the cache repeats. -/
inductive Voucher (D : Config) (answers : List Answer) : String → Bytes → Prop
  | repoExists {owner name : String} (howner : '/' ∉ owner.toList)
      (h : .repoExists owner name (.ok true) ∈ answers) :
      Voucher D answers (existsKey owner name) (utf8 "1")
  | getLatestRelease {owner name : String} {rel : Poller.Release} {val : Bytes}
      (howner : '/' ∉ owner.toList) (hval : D.json.marshal rel = .ok val)
      (h : .getLatestRelease owner name (.ok (some rel)) ∈ answers) :
      Voucher D answers (releaseKey owner name) val

/-- Every entry is vouched for. -/
def Vouched (D : Config) (s : State) : Prop :=
  ∀ key e, s.shared.redis key = some e → Voucher D s.answers key e.value

section Vouchers

variable {D : Config} {answers answers' : List Answer} {key owner name : String} {val : Bytes}

/-- An answer that GitHub gave once vouches for good. -/
theorem Voucher.mono (h : Voucher D answers key val) (hsub : answers ⊆ answers') :
    Voucher D answers' key val := by
  cases h with
  | repoExists howner hmem => exact .repoExists howner (hsub hmem)
  | getLatestRelease howner hval hmem => exact .getLatestRelease howner hval (hsub hmem)

/-- What an entry says under the key of a pair. -/
theorem Voucher.of_existsKey (h : Voucher D answers key val) (hkey : key = existsKey owner name)
    (howner : '/' ∉ owner.toList) :
    val = utf8 "1" ∧ .repoExists owner name (.ok true) ∈ answers := by
  cases h with
  | repoExists howner' hmem =>
    obtain ⟨rfl, rfl⟩ := existsKey_inj howner' howner hkey
    exact ⟨rfl, hmem⟩
  | getLatestRelease howner' hval hmem =>
    exact (existsKey_ne_releaseKey hkey.symm).elim

/-- What is cached under a release key is a release that GitHub gave for this repository. -/
theorem Voucher.of_releaseKey (h : Voucher D answers key val)
    (hkey : key = releaseKey owner name) (howner : '/' ∉ owner.toList) :
    ∃ rel, D.json.marshal rel = .ok val ∧
      .getLatestRelease owner name (.ok (some rel)) ∈ answers := by
  cases h with
  | repoExists howner' hmem => exact (existsKey_ne_releaseKey hkey).elim
  | getLatestRelease howner' hval hmem =>
    obtain ⟨rfl, rfl⟩ := Poller.releaseKey_inj howner' howner hkey
    exact ⟨_, hval, hmem⟩

/-- What Redis serves is vouched for. -/
theorem Vouched.lookup {s : State} (h : Vouched D s) (hval : s.shared.lookup key = some val) :
    Voucher D s.answers key val := by
  unfold Poller.State.lookup at hval
  split at hval
  · next e he =>
    split at hval
    · cases hval
      exact h key e he
    · cases hval
  · cases hval

end Vouchers

/-! ## What the operations do -/

section Exec

variable {D : Config} {s s' : State} {d : Decision}

/-- The journal of answers grows by what an operation learned from GitHub. -/
theorem exec_eq_some {o : Op} {r : o.Res} (h : exec s o d = some (r, s')) :
    ∃ shared, reply s.shared o d = some (r, shared) ∧ s' = ⟨shared, s.answers ++ o.answers r⟩ := by
  unfold exec at h
  split at h
  · next r' shared heq =>
    cases h
    exact ⟨shared, heq, rfl⟩
  · cases h

/-- A hit returns what is stored and has not expired. -/
theorem exec_get {key : String} {r : Except Err (Option Bytes)}
    (h : exec s (.common (.redisGet key)) d = some (r, s')) :
    s' = s ∧ ∀ val, r = .ok (some val) → s.shared.lookup key = some val := by
  obtain ⟨shared, hreply, rfl⟩ := exec_eq_some h
  simp only [Op.answers, List.append_nil]
  simp only [reply, Poller.exec] at hreply
  split at hreply
  · cases hreply
    exact ⟨rfl, fun val hval => Except.ok.inj hval⟩
  · cases hreply
    exact ⟨rfl, fun _ hval => by cases hval⟩
  · cases hreply

/-- A failed `SET` may have stored its value nevertheless. -/
theorem exec_set {key : String} {value : Bytes} {ttl : Nat} {r : Except Err Unit}
    (h : exec s (.common (.redisSet key value ttl)) d = some (r, s')) :
    s'.answers = s.answers ∧
      (s'.shared = s.shared ∨ s'.shared = s.shared.cache key value ttl) := by
  obtain ⟨shared, hreply, rfl⟩ := exec_eq_some h
  refine ⟨List.append_nil _, ?_⟩
  simp only [reply, Poller.exec] at hreply
  split at hreply
  · rcases attempt_cases hreply with ⟨_, _, heq, _⟩ | ⟨_, heq, _⟩
    · exact .inl heq
    · cases heq
      exact .inr rfl
  · cases hreply

/-- Asking GitHub leaves the cache alone. -/
theorem exec_ask {owner name : String} {r : Except Err Bool}
    (h : exec s (.githubRepoExists owner name) d = some (r, s')) :
    s'.shared.redis = s.shared.redis ∧ s'.answers = s.answers ++ [.repoExists owner name r] := by
  obtain ⟨shared, hreply, rfl⟩ := exec_eq_some h
  refine ⟨?_, rfl⟩
  simp only [reply] at hreply
  split at hreply
  · cases hreply
    rfl
  · cases hreply
    rfl
  · cases hreply

theorem exec_fetch {owner name : String} {r : Except Err (Option Poller.Release)}
    (h : exec s (.common (.githubGetLatestRelease owner name)) d = some (r, s')) :
    s'.shared.redis = s.shared.redis ∧
      s'.answers = s.answers ++ [.getLatestRelease owner name r] := by
  obtain ⟨shared, hreply, rfl⟩ := exec_eq_some h
  refine ⟨?_, rfl⟩
  simp only [reply, Poller.exec] at hreply
  split at hreply
  · cases hreply
    rfl
  · cases hreply
    rfl
  · cases hreply
    rfl
  · cases hreply

/-- The cache stays vouched for while only the journal grows. -/
theorem Vouched.grow (h : Vouched D s) (hredis : s'.shared.redis = s.shared.redis)
    (hsub : s.answers ⊆ s'.answers) : Vouched D s' := by
  intro key e he
  rw [hredis] at he
  exact (h key e he).mono hsub

end Exec

/-! ## The contract -/

/-- What is asserted in front of an operation: an entry that is written is vouched
for. There are no other operations than these. -/
def Asserted (D : Config) (s : State) : Op → Prop
  | .common (.redisSet key value _) => Voucher D s.answers key value
  | .common (.redisGet _) => True
  | .common (.githubGetLatestRelease _ _) => True
  | .githubRepoExists _ _ => True
  | .common _ => False

/-- The calls count on it that no answer is taken back. -/
def contract (D : Config) : Contract Op Op.Res State Call where
  inv := Vouched D
  rely _ _ a b := a.answers ⊆ b.answers
  guar _ _ _ a b := a.answers ⊆ b.answers

/-- What `exec` allows. -/
def Executes (_ : Call) (o : Op) (r : o.Res) (a b : State) : Prop := ∃ d, exec a o d = some (r, b)

theorem contract_annotates (D : Config) :
    Annotates Executes (contract D) (fun _ => Asserted D) where
  keeps := by
    rintro c o r a b hinv hann ⟨d, hx⟩
    have hgrow : a.answers ⊆ b.answers := by
      obtain ⟨shared, -, rfl⟩ := exec_eq_some hx
      exact List.subset_append_left _ _
    refine ⟨?_, hgrow⟩
    cases o with
    | githubRepoExists owner name => exact hinv.grow (exec_ask hx).1 hgrow
    | common o =>
      cases o with
      | githubGetLatestRelease owner name => exact hinv.grow (exec_fetch hx).1 hgrow
      | redisGet key =>
        rw [(exec_get hx).1]
        exact hinv
      | redisSet key value ttl =>
        obtain ⟨-, heq | heq⟩ := exec_set hx
        · exact hinv.grow (by rw [heq]) hgrow
        · intro key' e he
          rw [heq] at he
          by_cases hkey : key' = key
          · -- the entry just written: the assertion in front of `SET` vouches for it
            subst hkey
            simp only [Poller.State.cache, Function.update_self, Option.some.injEq] at he
            rw [← he]
            exact hann.mono hgrow
          · simp only [Poller.State.cache, Function.update_of_ne hkey] at he
            exact (hinv key' e he).mono hgrow
      | _ => exact hann.elim
  stable := by
    intro c o a b _ _ hann hrely
    cases o with
    | githubRepoExists owner name => trivial
    | common o =>
      cases o with
      -- others may run before the `SET`, and what vouches for it stays on record
      | redisSet key value ttl => exact hann.mono hrely
      | redisGet key => trivial
      | githubGetLatestRelease owner name => trivial
      | _ => exact hann.elim

/-! ## The methods -/

/-- A result of `RepoExists`: true was answered by the wrapped client before, and
anything else in this very call. -/
def RepeatsExists (owner name : String) (result : Except Err Bool) (own answers : List Answer) :
    Prop :=
  (result = .ok true ∧ .repoExists owner name (.ok true) ∈ answers) ∨
    (result ≠ .ok true ∧ .repoExists owner name result ∈ own)

/-- A result of `GetLatestRelease`: a release was answered before, and anything
else in this very call. -/
def RepeatsRelease (owner name : String) (result : Except Err (Option Poller.Release))
    (own answers : List Answer) : Prop :=
  (∃ rel, result = .ok (some rel) ∧ .getLatestRelease owner name (.ok (some rel)) ∈ answers) ∨
    ((∀ rel, result ≠ .ok (some rel)) ∧ .getLatestRelease owner name result ∈ own)

/-- What a call returns repeats an answer of the wrapped client. -/
def Repeats (c : Call) (x : Return × List Answer) (answers : List Answer) : Prop :=
  match c, x with
  | .repoExists owner name, (.repoExists result, own) => RepeatsExists owner name result own answers
  | .getLatestRelease owner name, (.getLatestRelease result, own) =>
    RepeatsRelease owner name result own answers
  | _, _ => False

section Methods

variable {D : Config} {c : Call} {owner name : String} {s : State}

/-- What is written to the cache was answered a step before. -/
theorem ask_safe (howner : '/' ∉ owner.toList) (own : List Answer) :
    Safe Executes (contract D) c
      (fun x s => RepeatsExists owner name x.1 x.2 s.answers)
      ((CachedClient.ask D owner name).recording Op.answers own) s := by
  refine (contract_annotates D).op (fun _ => True) (fun _ _ _ _ => trivial) trivial trivial ?_
  rintro a r b - - ⟨d, hx⟩
  have hmem : .repoExists owner name r ∈ b.answers := by
    rw [(exec_ask hx).2]
    exact List.mem_append_right _ List.mem_cons_self
  -- the answer is also on the call's own record, which is all an error or a `false` needs
  have hown : .repoExists owner name r ∈ own ++ Op.answers (.githubRepoExists owner name) r :=
    List.mem_append_right _ List.mem_cons_self
  rcases r with err | _ | _
  · exact .inr ⟨nofun, hown⟩
  · exact .inr ⟨nofun, hown⟩
  · refine (contract_annotates D).op (fun s => .repoExists owner name (.ok true) ∈ s.answers)
      (fun _ _ h hrely => hrely h) (.repoExists howner hmem) hmem ?_
    rintro a' r' b' - hmem' ⟨d', hx'⟩
    exact .inl ⟨rfl, by rw [(exec_set hx').1]; exact hmem'⟩

/-- A hit repeats an older answer, a miss gives the new one. -/
theorem repoExists_safe (howner : '/' ∉ owner.toList) (own : List Answer) :
    Safe Executes (contract D) c
      (fun x s => RepeatsExists owner name x.1 x.2 s.answers)
      ((CachedClient.repoExists D owner name).recording Op.answers own) s := by
  refine (contract_annotates D).op (fun _ => True) (fun _ _ _ _ => trivial) trivial trivial ?_
  rintro a r b hinv - ⟨d, hx⟩
  obtain ⟨rfl, hget⟩ := exec_get hx
  rcases r with err | _ | val
  · exact ask_safe howner _
  · exact ask_safe howner _
  · -- a hit: only a `1` can stand under this key
    obtain ⟨rfl, hmem⟩ := (hinv.lookup (hget val rfl)).of_existsKey rfl howner
    exact .inl ⟨by simp, hmem⟩

/-- Of releases too only what was answered is written. -/
theorem fetch_safe (howner : '/' ∉ owner.toList) (own : List Answer) :
    Safe Executes (contract D) c
      (fun x s => RepeatsRelease owner name x.1 x.2 s.answers)
      (((Poller.CachedClient.fetch D owner name).interpret (fun o => perform (.common o))).recording
        Op.answers own) s := by
  refine (contract_annotates D).op (fun _ => True) (fun _ _ _ _ => trivial) trivial trivial ?_
  rintro a r b - - ⟨d, hx⟩
  have hmem : .getLatestRelease owner name r ∈ b.answers := by
    rw [(exec_fetch hx).2]
    exact List.mem_append_right _ List.mem_cons_self
  have hown : .getLatestRelease owner name r
      ∈ own ++ Op.answers (.common (.githubGetLatestRelease owner name)) r :=
    List.mem_append_right _ List.mem_cons_self
  rcases r with err | _ | rel
  · exact .inr ⟨nofun, hown⟩
  · exact .inr ⟨nofun, hown⟩
  · show Safe _ _ _ _ (((Poller.CachedClient.store D owner name rel).interpret _).recording _ _) _
    unfold Poller.CachedClient.store
    split
    · next data hdata =>
      refine (contract_annotates D).op
        (fun s => .getLatestRelease owner name (.ok (some rel)) ∈ s.answers)
        (fun _ _ h hrely => hrely h) (.getLatestRelease howner hdata hmem) hmem ?_
      rintro a' r' b' - hmem' ⟨d', hx'⟩
      exact .inl ⟨rel, rfl, by rw [(exec_set hx').1]; exact hmem'⟩
    · -- what cannot be marshalled is returned all the same, and not stored
      exact .inl ⟨rel, rfl, hmem⟩

/-- A hit is decoded to the release that was encoded, which is where the round trip is needed. -/
theorem getLatestRelease_safe (hjson : D.json.RoundTrips) (howner : '/' ∉ owner.toList)
    (own : List Answer) :
    Safe Executes (contract D) c
      (fun x s => RepeatsRelease owner name x.1 x.2 s.answers)
      ((CachedClient.getLatestRelease D owner name).recording Op.answers own) s := by
  refine (contract_annotates D).op (fun _ => True) (fun _ _ _ _ => trivial) trivial trivial ?_
  rintro a r b hinv - ⟨d, hx⟩
  obtain ⟨rfl, hget⟩ := exec_get hx
  rcases r with err | _ | val
  · exact fetch_safe howner _
  · exact fetch_safe howner _
  · -- a hit: the entry is a release as it was marshalled, so it unmarshals
    obtain ⟨rel, hval, hmem⟩ := (hinv.lookup (hget val rfl)).of_releaseKey rfl howner
    show Safe _ _ _ _ (((Poller.CachedClient.serve D owner name val).interpret _).recording _ _) _
    simp only [Poller.CachedClient.serve, hjson rel val hval]
    exact .inl ⟨rel, rfl, hmem⟩

theorem method_safe (hjson : D.json.RoundTrips) (howner : '/' ∉ c.owner.toList) :
    Safe Executes (contract D) c (fun x s => Repeats c x s.answers)
      ((machine D).program c) s := by
  show Safe _ _ _ _ ((method D c).recording Op.answers []) _
  cases c with
  | repoExists owner name =>
    rw [method, Prog.recording_bind]
    exact (repoExists_safe howner []).bind (fun _ _ h => h)
  | getLatestRelease owner name =>
    rw [method, Prog.recording_bind]
    exact (getLatestRelease_safe hjson howner []).bind (fun _ _ h => h)

end Methods

/-! ## All runs -/

theorem RepeatsExists.mono {owner name : String} {result : Except Err Bool}
    {own answers answers' : List Answer} (h : RepeatsExists owner name result own answers)
    (hsub : answers ⊆ answers') : RepeatsExists owner name result own answers' := by
  rcases h with ⟨hres, hmem⟩ | h
  · exact .inl ⟨hres, hsub hmem⟩
  · exact .inr h

theorem RepeatsRelease.mono {owner name : String} {result : Except Err (Option Poller.Release)}
    {own answers answers' : List Answer} (h : RepeatsRelease owner name result own answers)
    (hsub : answers ⊆ answers') : RepeatsRelease owner name result own answers' := by
  rcases h with ⟨rel, hres, hmem⟩ | h
  · exact .inl ⟨rel, hres, hsub hmem⟩
  · exact .inr h

theorem Repeats.mono {c : Call} {x : Return × List Answer} {answers answers' : List Answer}
    (h : Repeats c x answers) (hsub : answers ⊆ answers') : Repeats c x answers' := by
  obtain ⟨ret, own⟩ := x
  cases c with
  | repoExists owner name =>
    cases ret with
    | repoExists result => exact RepeatsExists.mono h hsub
    | getLatestRelease result => exact h.elim
  | getLatestRelease owner name =>
    cases ret with
    | repoExists result => exact h.elim
    | getLatestRelease result => exact RepeatsRelease.mono h hsub

/-- A step that takes no answer back is one that every call can stand. -/
theorem stands {D : Config} (th : Thread Op Op.Res Call (Return × List Answer)) {s s' : State}
    (hsub : s.answers ⊆ s'.answers) :
    Stands (contract D) (fun c x s => Repeats c x s.answers) th s s' :=
  ⟨fun _ _ => hsub, fun _ _ h => h.mono hsub⟩

/-- Time and Redis only ever take entries away. -/
theorem world_vouched {D : Config} {e : WorldEvent} {s s' : State} (h : Vouched D s)
    (hs : (machine D).env e s = some s') : Vouched D s' ∧ s'.answers = s.answers := by
  obtain ⟨shared, hshared, rfl⟩ := Option.map_eq_some_iff.mp hs
  refine ⟨fun key en hen => h key en ?_, rfl⟩
  cases e with
  | pass time =>
    cases hshared
    exact hen
  | restart =>
    cases hshared
    exact hen
  -- the table of repositories is not in the cache
  | upsert raw =>
    simp only [Poller.world] at hshared
    split at hshared
    · cases hshared
      exact hen
    · cases hshared
  | evict key' =>
    cases hshared
    by_cases hkey : key = key'
    · subst hkey
      simp only [Function.update_self] at hen
      cases hen
    · simpa only [Function.update_of_ne hkey] using hen

/-- The methods of many calls interleave, and none of them spoils the cache for another. -/
theorem machine_respects {D : Config} (hjson : D.json.RoundTrips) :
    Respects (machine D) SlashFree Executes (contract D) (fun c x s => Repeats c x s.answers)
      (fun c x s => Repeats c x s.answers) where
  ret _ _ _ _ h := h
  enter p c s hc hp hent := by
    cases hent
    exact ⟨hp.1, method_safe hjson hc, fun _ th _ => stands th (List.Subset.refl _)⟩
  knows _ _ ch _ _ _ _ _ _ _ _ _ _ hx := ⟨ch, hx⟩
  run _ _ _ _ _ _ _ _ _ _ _ _ _ _ _ hguar _ th' _ _ := stands th' hguar
  env p e s _ hp henv := by
    obtain ⟨hinv, heq⟩ := world_vouched hp.1 henv
    exact ⟨hinv, fun _ th _ => stands th (by rw [heq]; exact List.Subset.refl _)⟩

/-- For every run of any number of calls for owners without a slash, with any
failures of Redis and of the wrapped client and entries expiring at any time: a
release that a call returns, and that a repository exists, is an answer the
wrapped client had given for the same pair by then; whatever else a call returns,
an error included, the wrapped client has answered in that same call. -/
theorem cache_repeats_answers (D : Config) (hjson : D.json.RoundTrips)
    (es : List (Event Decision Call WorldEvent)) (p : Calls)
    (h : (machine D).Run SlashFree init es p) (i : Nat)
    (th : Thread Op Op.Res Call (Return × List Answer)) (hth : p.threads[i]? = some th)
    (x : Return × List Answer) (hx : th.prog = .ret x) : Repeats th.call x p.state.answers := by
  have hinit : PoolSafe Executes (contract D) (fun c x s => Repeats c x s.answers)
      (fun c x s => Repeats c x s.answers) init :=
    ⟨nofun, nofun⟩
  exact ((hinit.run (machine_respects hjson) h).2 i th hth).2 x hx

/-- Two calls for releases of `o/r` while the first `SET` is reported to fail; a
third one, when the entry has expired, finds GitHub failing. -/
def sampleCalls : List (Event Decision Call WorldEvent) :=
  [.call (.getLatestRelease "o" "r"), .call (.getLatestRelease "o" "r"),
    .run 0 (.ends .ok), .run 0 (.release (some (Poller.sampleRelease "v1"))),
    .run 0 (.ends (.failApplied (.io "i/o timeout"))), .run 1 (.ends .ok),
    .env (.pass 700), .call (.getLatestRelease "o" "r"), .run 2 (.ends .ok),
    .run 2 (.ends (.fail (.io "502")))]

/-- A hit after a `SET` with an error, and a miss after the entry expired. -/
theorem cache_repeats_answers_sample :
    ∃ p th th', (machine (Poller.sample true)).Run SlashFree init sampleCalls p ∧
      p.threads[1]? = some th ∧
      th.prog = .ret (.getLatestRelease (.ok (some (Poller.sampleRelease "v1"))), []) ∧
      Repeats th.call (.getLatestRelease (.ok (some (Poller.sampleRelease "v1"))), [])
        p.state.answers ∧
      p.threads[2]? = some th' ∧
      th'.prog = .ret (.getLatestRelease (.error (.text "502")),
        [.getLatestRelease "o" "r" (.error (.text "502"))]) ∧
      Repeats th'.call (.getLatestRelease (.error (.text "502")),
        [.getLatestRelease "o" "r" (.error (.text "502"))]) p.state.answers := by
  have hrun : ((machine (Poller.sample true)).stepsWhere (fun p e => decide (SlashFree p e)) init
      sampleCalls).any (fun p =>
        (p.threads[1]?).any (fun th => decide (th.prog.result?
          = some (.getLatestRelease (.ok (some (Poller.sampleRelease "v1"))), []))) &&
        (p.threads[2]?).any (fun th => decide (th.prog.result?
          = some (.getLatestRelease (.error (.text "502")),
            [.getLatestRelease "o" "r" (.error (.text "502"))])))) = true := by
    decide
  obtain ⟨p, hp, hall⟩ := (Option.any_eq_true _ _).mp hrun
  obtain ⟨hfirst, hsecond⟩ := Bool.and_eq_true_iff.mp hall
  obtain ⟨th, hth, hret⟩ := (Option.any_eq_true _ _).mp hfirst
  obtain ⟨th', hth', hret'⟩ := (Option.any_eq_true _ _).mp hsecond
  have h : (machine (Poller.sample true)).Run SlashFree init sampleCalls p :=
    .of_stepsWhere (fun _ _ h => of_decide_eq_true h) hp
  have hprog := Prog.result?_eq_some.mp (of_decide_eq_true hret)
  have hprog' := Prog.result?_eq_some.mp (of_decide_eq_true hret')
  have hjson := Poller.sample_roundTrips
  exact ⟨p, th, th', h, hth, hprog, cache_repeats_answers _ hjson _ p h 1 th hth _ hprog, hth',
    hprog', cache_repeats_answers _ hjson _ p h 2 th' hth' _ hprog'⟩

end ReleaseNotifier.GitHub
