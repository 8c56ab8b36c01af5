/-
One repository of a scan does not see the others.

The outcomes a repository meets in a scan (what GitHub answers, how its two
updates, the query for its subscribers, each send and each cache operation end,
which goroutine goes on) are written down as a script. The scan of a list under
the scripts of its members is compared with the scan of each member alone under
its own.

Everything `scanRepository` does is about its repository: its row by its id, the
cache by its key, mails in its name. What it can see of a state is therefore the
`View` of its repository, two states with the same view run it alike, and what it
leaves alone is every other row and every other key. Ids tell rows apart. Keys
matter only behind the cache, and full names tell them apart.
-/
import ReleaseNotifier.Chronicle
import ReleaseNotifier.Conc.Script

set_option autoImplicit false

namespace ReleaseNotifier.Poller

open Conc

/-! ## Rows -/

/-- The row with an id. -/
def Tracked.row (t : Tracked) (id : Nat) : Option TrackedRepository :=
  Table.lookup TrackedRepository.id t.rows id

/-- A touch changes the row that it names. -/
theorem Tracked.row_touch (t : Tracked) (now : Nat) (tag : Option String) (id i : Nat) :
    (t.touch now tag id).1.row i
      = (t.row i).map (fun r => if decide (r.id = id) then touched now tag r else r) :=
  Table.lookup_update (fun _ _ => rfl)

theorem Tracked.row_touch_of_ne (t : Tracked) (now : Nat) (tag : Option String) {id i : Nat}
    (h : i ≠ id) : (t.touch now tag id).1.row i = t.row i := by
  rw [row_touch]
  cases hrow : t.row i with
  | none => rfl
  | some r =>
    have hid : r.id ≠ id := by
      rw [show r.id = i from Table.lookup_key hrow]
      exact h
    rw [Option.map_some, decide_eq_false hid]
    rfl

/-- The number of rows is a matter of the row with the id. -/
theorem Tracked.count_touch (t : Tracked) (now : Nat) (tag : Option String) (id : Nat) :
    (t.touch now tag id).2 = if (t.row id).isSome then 1 else 0 := by
  have hle : (t.touch now tag id).2 ≤ 1 :=
    Table.countP_le_one (k := id) t.idsUnique (fun r _ hr => of_decide_eq_true hr)
  cases hrow : t.row id with
  | none =>
    refine List.countP_eq_zero.mpr (fun r hr hid => ?_)
    exact Table.lookup_eq_none.mp hrow r hr (of_decide_eq_true hid)
  | some r =>
    have hpos : 0 < (t.touch now tag id).2 :=
      List.countP_pos_iff.mpr
        ⟨r, Table.lookup_mem hrow, decide_eq_true (Table.lookup_key hrow)⟩
    exact Nat.le_antisymm hle hpos

/-! ## What belongs to a repository -/

/-- The operations that are about a repository. -/
def Op.about (D : Config) (repo : TrackedRepository) : Op → Prop
  | .stmtUpdateLastSeen _ id => id = repo.id
  | .stmtUpdateLastChecked id => id = repo.id
  | .stmtGetEmailsByRepo owner name => owner = repo.owner ∧ name = repo.name
  | .redisGet key => D.cached = true ∧ key = releaseKey repo.owner repo.name
  | .redisSet key _ _ => D.cached = true ∧ key = releaseKey repo.owner repo.name
  | .githubGetLatestRelease owner name => owner = repo.owner ∧ name = repo.name
  -- whose worker goes on next is up to the scheduler, and it looks at nothing
  | .schedule _ => True
  | .sendReleaseNotification mail => mail.repo = fullName repo
  -- the rest belongs to the scan as a whole
  | .tryLock _ => False
  | .unlock => False
  | .stmtGetAll => False
  | .ctxErr => False

/-- What of a state is about a repository. -/
structure View where
  now : Nat
  row : Option TrackedRepository
  entry : Option Entry
  deriving DecidableEq

/-- The view of a repository. -/
def State.view (s : State) (repo : TrackedRepository) : View :=
  ⟨s.now, s.tracked.row repo.id, s.redis (releaseKey repo.owner repo.name)⟩

/-- From `s` to `s'` nothing has happened but to a repository and in its name. -/
structure Within (D : Config) (repo : TrackedRepository) (s s' : State) (mails : List Mail) :
    Prop where
  now : s'.now = s.now
  rows : ∀ id, id ≠ repo.id → s'.tracked.row id = s.tracked.row id
  entries : ∀ key, (D.cached = true → key ≠ releaseKey repo.owner repo.name) →
    s'.redis key = s.redis key
  sent : s'.sent = s.sent ++ mails

/-- From `s` to `s'` the same has happened to a repository as from `t` to `t'`. -/
structure Alike (D : Config) (repo : TrackedRepository) (s t s' t' : State) : Prop where
  view : s'.view repo = t'.view repo
  within : ∃ mails, (∀ m ∈ mails, m.repo = fullName repo) ∧
    Within D repo s s' mails ∧ Within D repo t t' mails

section Alike

variable {D : Config} {repo : TrackedRepository} {s t s' t' s₁ t₁ : State}

theorem Within.refl (s : State) : Within D repo s s [] :=
  ⟨rfl, fun _ _ => rfl, fun _ _ => rfl, (List.append_nil _).symm⟩

/-- What a scan of one repository touches stays its own from step to step. -/
theorem Within.trans {m m' : List Mail} (h : Within D repo s s₁ m) (h' : Within D repo s₁ s' m') :
    Within D repo s s' (m ++ m') where
  now := h'.now.trans h.now
  rows id hid := (h'.rows id hid).trans (h.rows id hid)
  entries key hkey := (h'.entries key hkey).trans (h.entries key hkey)
  sent := by rw [h'.sent, h.sent, List.append_assoc]

theorem Alike.refl (h : s.view repo = t.view repo) : Alike D repo s t s t :=
  ⟨h, [], fun _ hm => absurd hm List.not_mem_nil, .refl s, .refl t⟩

/-- Two runs that see the same of a repository go on seeing the same. -/
theorem Alike.trans (h : Alike D repo s t s₁ t₁) (h' : Alike D repo s₁ t₁ s' t') :
    Alike D repo s t s' t' := by
  obtain ⟨-, m, hm, hs, ht⟩ := h
  obtain ⟨hview, m', hm', hs', ht'⟩ := h'
  refine ⟨hview, m ++ m', fun x hx => ?_, hs.trans hs', ht.trans ht'⟩
  rcases List.mem_append.mp hx with hx | hx
  · exact hm x hx
  · exact hm' x hx

/-- The record of GitHub's answers is in nobody's view. -/
theorem Alike.answers (h : s.view repo = t.view repo) (as bs : List (Ref × String)) :
    Alike D repo s t { s with answers := as } { t with answers := bs } :=
  ⟨h, [], fun _ hm => absurd hm List.not_mem_nil,
    ⟨rfl, fun _ _ => rfl, fun _ _ => rfl, (List.append_nil _).symm⟩,
    ⟨rfl, fun _ _ => rfl, fun _ _ => rfl, (List.append_nil _).symm⟩⟩

/-- A mail about the repository is seen by both. -/
theorem Alike.send (h : s.view repo = t.view repo) {mail : Mail}
    (hmail : mail.repo = fullName repo) :
    Alike D repo s t { s with sent := s.sent ++ [mail] } { t with sent := t.sent ++ [mail] } := by
  refine ⟨h, [mail], fun m hm => ?_, ⟨rfl, fun _ _ => rfl, fun _ _ => rfl, rfl⟩,
    ⟨rfl, fun _ _ => rfl, fun _ _ => rfl, rfl⟩⟩
  rw [List.mem_singleton.mp hm]
  exact hmail

/-- Both cache the same under the repository's key. -/
theorem Alike.cache (h : s.view repo = t.view repo) (hcached : D.cached = true) (value : Bytes)
    (ttl : Nat) :
    Alike D repo s t (s.cache (releaseKey repo.owner repo.name) value ttl)
      (t.cache (releaseKey repo.owner repo.name) value ttl) := by
  have hwithin : ∀ u : State,
      Within D repo u (u.cache (releaseKey repo.owner repo.name) value ttl) [] :=
    fun u => ⟨rfl, fun _ _ => rfl, fun key hkey => Function.update_of_ne (hkey hcached) _ _,
      (List.append_nil _).symm⟩
  refine ⟨?_, [], fun _ hm => absurd hm List.not_mem_nil, hwithin s, hwithin t⟩
  have hnow := congrArg View.now h
  have hrow := congrArg View.row h
  simp only [State.view] at hnow hrow
  simp only [State.view, State.cache, Function.update_self, hnow, hrow]

/-- A state after one of the two updates; `written` is a record. -/
def State.touch (s : State) (tag : Option String) (id : Nat) (written : List (Nat × String)) :
    State :=
  { s with tracked := (s.tracked.touch s.now tag id).1, written := written }

/-- Both touch the repository's row in the same way. -/
theorem Alike.touch (h : s.view repo = t.view repo) (tag : Option String)
    (ws wt : List (Nat × String)) :
    Alike D repo s t (s.touch tag repo.id ws) (t.touch tag repo.id wt) := by
  have hwithin : ∀ (u : State) (w : List (Nat × String)),
      Within D repo u (u.touch tag repo.id w) [] :=
    fun u w => ⟨rfl, fun id hid => u.tracked.row_touch_of_ne u.now tag hid, fun _ _ => rfl,
      (List.append_nil _).symm⟩
  refine ⟨?_, [], fun _ hm => absurd hm List.not_mem_nil, hwithin s ws, hwithin t wt⟩
  have hnow := congrArg View.now h
  have hrow := congrArg View.row h
  have hentry := congrArg View.entry h
  simp only [State.view] at hnow hrow hentry
  simp only [State.view, State.touch, Tracked.row_touch, hnow, hrow, hentry]

/-! ## One operation -/

/-- How a statement ends does not depend on the state, only what it does. -/
theorem attempt_alike {α : Type} {a : Except Err α} (x : α) (ch : Choice)
    (h : attempt s (.ok (x, s₁)) ch = some (a, s')) (t t₁ : State) :
    ∃ t', attempt t (.ok (x, t₁)) ch = some (a, t') ∧
      ((s' = s ∧ t' = t) ∨ (s' = s₁ ∧ t' = t₁)) := by
  cases ch with
  | ok =>
    cases h
    exact ⟨t₁, rfl, .inr ⟨rfl, rfl⟩⟩
  | fail f =>
    cases h
    exact ⟨t, rfl, .inl ⟨rfl, rfl⟩⟩
  | failApplied f =>
    cases h
    exact ⟨t₁, rfl, .inr ⟨rfl, rfl⟩⟩
  | _ => cases h

theorem execUpdate_of_ne {n : Nat} {ch : Choice} (h : ∀ f, ch ≠ .noCount f) (s s₁ : State) :
    s.execUpdate n s₁ (.ends ch) = attempt s (.ok (.ok n, s₁)) ch := by
  cases ch with
  | noCount f => exact absurd rfl (h f)
  | _ => rfl

/-- An update whose outcome is decided alike is answered alike. -/
theorem execUpdate_alike {n : Nat} {d : Decision} {a : Except Err (Except Err Nat)}
    (h : s.execUpdate n s₁ d = some (a, s')) (t t₁ : State) :
    ∃ t', t.execUpdate n t₁ d = some (a, t') ∧
      ((s' = s ∧ t' = t) ∨ (s' = s₁ ∧ t' = t₁)) := by
  cases d with
  | ends ch =>
    by_cases hch : ∃ f, ch = .noCount f
    · obtain ⟨f, rfl⟩ := hch
      cases h
      exact ⟨t₁, rfl, .inr ⟨rfl, rfl⟩⟩
    · have hne : ∀ f, ch ≠ .noCount f := fun f hf => hch ⟨f, hf⟩
      rw [execUpdate_of_ne hne] at h
      rw [execUpdate_of_ne hne]
      exact attempt_alike _ ch h t t₁
  | _ => cases h

/-- An update of the repository's row, in both states. -/
theorem alike_update (hview : s.view repo = t.view repo) (tag : Option String)
    (ws wt : List (Nat × String)) {d : Decision} {a : Except Err (Except Err Nat)}
    (h : s.execUpdate (s.tracked.touch s.now tag repo.id).2 (s.touch tag repo.id ws) d
      = some (a, s')) :
    ∃ t', t.execUpdate (t.tracked.touch t.now tag repo.id).2 (t.touch tag repo.id wt) d
        = some (a, t') ∧ Alike D repo s t s' t' := by
  have hrow : s.tracked.row repo.id = t.tracked.row repo.id := congrArg View.row hview
  -- the store reports how many rows it hit, and the view says whether there is one
  rw [Tracked.count_touch, hrow, ← Tracked.count_touch t.tracked t.now tag repo.id] at h
  obtain ⟨t', ht', ⟨rfl, rfl⟩ | ⟨rfl, rfl⟩⟩ := execUpdate_alike h t (t.touch tag repo.id wt)
  · exact ⟨_, ht', .refl hview⟩
  · exact ⟨_, ht', .touch hview tag ws wt⟩

/-- An operation that is about the repository is answered alike in states with
the same view of it, and does the same to it. -/
theorem alike_step {o : Op} {d : Decision} {a : o.Res} (ho : o.about D repo)
    (hview : s.view repo = t.view repo) (h : exec s o d = some (a, s')) :
    ∃ t', exec t o d = some (a, t') ∧ Alike D repo s t s' t' := by
  cases o with
  | tryLock scan => exact ho.elim
  | unlock => exact ho.elim
  | stmtGetAll => exact ho.elim
  | ctxErr => exact ho.elim
  | stmtUpdateLastSeen tag id =>
    cases ho
    exact alike_update hview (some tag) _ _ h
  | stmtUpdateLastChecked id =>
    cases ho
    exact alike_update hview none s.written t.written h
  | stmtGetEmailsByRepo owner name =>
    cases d with
    | emails emails =>
      cases h
      exact ⟨t, rfl, .refl hview⟩
    | fails err =>
      cases h
      exact ⟨t, rfl, .refl hview⟩
    | ends ch => cases h
    | release rel => cases h
    | moves m => cases h
  | redisGet key =>
    obtain ⟨-, rfl⟩ := ho
    -- whether an entry is still served depends on the time, which is in the view
    have hlookup : s.lookup (releaseKey repo.owner repo.name)
        = t.lookup (releaseKey repo.owner repo.name) := by
      have hnow : s.now = t.now := congrArg View.now hview
      have hentry : s.redis (releaseKey repo.owner repo.name)
          = t.redis (releaseKey repo.owner repo.name) := congrArg View.entry hview
      rw [State.lookup, State.lookup, hnow, hentry]
    simp only [exec] at h ⊢
    split at h
    · rw [hlookup] at h
      cases h
      exact ⟨t, rfl, .refl hview⟩
    · cases h
      exact ⟨t, rfl, .refl hview⟩
    · cases h
  | redisSet key value ttl =>
    obtain ⟨hcached, rfl⟩ := ho
    cases d with
    | ends ch =>
      obtain ⟨t', ht', ⟨rfl, rfl⟩ | ⟨rfl, rfl⟩⟩ :=
        attempt_alike () ch h t (t.cache (releaseKey repo.owner repo.name) value ttl)
      · exact ⟨_, ht', .refl hview⟩
      · exact ⟨_, ht', .cache hview hcached value ttl⟩
    | _ => cases h
  | githubGetLatestRelease owner name =>
    simp only [exec] at h ⊢
    split at h
    · cases h
      exact ⟨t, rfl, .refl hview⟩
    · cases h
      exact ⟨_, rfl, .answers hview _ _⟩
    · cases h
      exact ⟨t, rfl, .refl hview⟩
    · cases h
  | schedule fan =>
    simp only [exec] at h ⊢
    split at h
    · next m =>
      split at h
      · next hm =>
        cases h
        exact ⟨t, if_pos hm, .refl hview⟩
      · cases h
    · cases h
  | sendReleaseNotification mail =>
    simp only [exec] at h ⊢
    split at h
    · cases h
      exact ⟨_, rfl, .send hview ho⟩
    · cases h
      exact ⟨_, rfl, .send hview ho⟩
    · cases h

/-! ## One repository -/

theorem fetch_about (hcached : D.cached = true) :
    (CachedClient.fetch D repo.owner repo.name).Uses (Op.about D repo) := by
  refine ⟨⟨rfl, rfl⟩, fun r => ?_⟩
  rcases r with err | _ | rel
  · trivial
  · trivial
  · show (CachedClient.store D repo.owner repo.name rel).Uses (Op.about D repo)
    unfold CachedClient.store
    split
    · exact ⟨⟨hcached, rfl⟩, fun _ => trivial⟩
    · trivial

/-- Fetching a release reads and writes under the repository's key only. -/
theorem getLatestRelease_about :
    (getLatestRelease D repo.owner repo.name).Uses (Op.about D repo) := by
  unfold getLatestRelease
  split
  · next hcached =>
    refine ⟨⟨hcached, rfl⟩, fun r => ?_⟩
    rcases r with err | _ | val
    · exact fetch_about hcached
    · exact fetch_about hcached
    · show (CachedClient.serve D repo.owner repo.name val).Uses (Op.about D repo)
      unfold CachedClient.serve
      split
      · trivial
      · exact fetch_about hcached
  · exact ⟨⟨rfl, rfl⟩, fun _ => trivial⟩

theorem sendOne_about (rel : Release) (email : String) :
    (sendOne repo rel email).Uses (Op.about D repo) :=
  ⟨rfl, fun _ => trivial⟩

theorem sendAll_about (rel : Release) (emails : List String) :
    (sendAll repo rel emails).Uses (Op.about D repo) := by
  induction emails with
  | nil => trivial
  | cons email emails ih => exact (sendOne_about rel email).bind (fun _ => ih)

/-- Every mail of a fan-out is about its repository. -/
theorem fanOut_about (rel : Release) (fuel : Nat) (f : Fan) :
    (fanOut repo rel fuel f).Uses (Op.about D repo) := by
  induction fuel generalizing f with
  | zero => trivial
  | succ fuel ih =>
    unfold fanOut
    split
    · trivial
    · refine ⟨trivial, fun m => ?_⟩
      cases m with
      | handOver =>
        show (fanStep repo rel (fanOut repo rel fuel) f .handOver).Uses (Op.about D repo)
        simp only [fanStep]
        split
        · exact ih _
        · trivial
      | send k =>
        show (fanStep repo rel (fanOut repo rel fuel) f (.send k)).Uses (Op.about D repo)
        simp only [fanStep]
        split
        · exact (sendOne_about rel _).bind (fun _ => ih _)
        · trivial
      | stop =>
        show (fanStep repo rel (fanOut repo rel fuel) f .stop).Uses (Op.about D repo)
        simp only [fanStep]
        split
        · exact ih _
        · trivial

theorem notifySubscribers_about (rel : Release) :
    (notifySubscribers repo rel).Uses (Op.about D repo) := by
  refine Prog.Uses.bind ⟨⟨rfl, rfl⟩, fun _ => trivial⟩ (fun r => ?_)
  cases r with
  | error err => trivial
  | ok emails =>
    simp only
    split
    · exact sendAll_about rel emails
    · exact fanOut_about rel _ _

theorem updateLastChecked_about : (updateLastChecked repo).Uses (Op.about D repo) :=
  ⟨rfl, fun _ => trivial⟩

/-- Everything a scan does with a repository is about it. -/
theorem scanRepository_about : (scanRepository D repo).Uses (Op.about D repo) := by
  refine getLatestRelease_about.bind (fun r => ?_)
  rcases r with err | _ | rel
  · trivial
  · exact updateLastChecked_about
  · simp only
    split
    · exact updateLastChecked_about
    · refine Prog.Uses.bind ⟨rfl, fun _ => trivial⟩ (fun err => ?_)
      cases err with
      | some err => trivial
      | none => exact notifySubscribers_about rel

/-- With the same view of a repository and the same outcomes the same happens to
it. -/
theorem scanRepository_alike {ds rest : List Decision} (hview : s.view repo = t.view repo)
    (h : (scanRepository D repo).play exec s ds = some ((), s', rest)) :
    ∃ t', (scanRepository D repo).play exec t ds = some ((), t', rest) ∧
      Alike D repo s t s' t' :=
  scanRepository_about.play_sim (R := fun u v => Alike D repo s t u v)
    (fun _ _ _ _ _ _ ho hR hx =>
      let ⟨v', hv', hstep⟩ := alike_step ho hR.view hx
      ⟨v', hv', hR.trans hstep⟩)
    (.refl hview) h

end Alike

/-! ## The list -/

/-- The outcomes of a list: the context is not done, and then those of the
repository. -/
def script (outcomes : TrackedRepository → List Decision) (repos : List TrackedRepository) :
    List Decision :=
  repos.flatMap (fun repo => .ends (.answer false) :: outcomes repo)

/-- The calls of the mailer from one state to a later one. -/
def mailsSince (s s' : State) : List Mail := s'.sent.drop s.sent.length

/-- The scan of a list has done what the scans of its members alone have done,
and nothing else. -/
structure Scanned (repos : List TrackedRepository) (start alone : TrackedRepository → State)
    (s s' : State) : Prop where
  rows : ∀ repo ∈ repos, s'.tracked.row repo.id = (alone repo).tracked.row repo.id
  others : ∀ id, (∀ repo ∈ repos, id ≠ repo.id) → s'.tracked.row id = s.tracked.row id
  mails : ∀ repo ∈ repos,
    (alone repo).sent = (start repo).sent ++ mailsSince (start repo) (alone repo) ∧
      ∀ m ∈ mailsSince (start repo) (alone repo), m.repo = fullName repo
  sent : s'.sent = s.sent ++ repos.flatMap (fun repo => mailsSince (start repo) (alone repo))

section List

variable {D : Config} {s s' : State} {repos : List TrackedRepository}
variable {start alone : TrackedRepository → State} {outcomes : TrackedRepository → List Decision}

variable {mails : List Mail}

/-- Mails are only appended, so those of one scan can be told. -/
theorem mailsSince_of_append (h : s'.sent = s.sent ++ mails) : mailsSince s s' = mails := by
  rw [mailsSince, h, List.drop_left]

/-- Repositories with different names do not share a cache entry. -/
theorem releaseKey_ne {repo repo' : TrackedRepository} (h : fullName repo ≠ fullName repo') :
    releaseKey repo.owner repo.name ≠ releaseKey repo'.owner repo'.name :=
  fun heq => h ((String.append_right_inj _).mp heq)

/-- What has happened to one repository is not seen by another. -/
theorem Within.view {repo repo' : TrackedRepository} (h : Within D repo s s' mails)
    (hid : repo'.id ≠ repo.id) (hname : D.cached = true → fullName repo' ≠ fullName repo) :
    s'.view repo' = s.view repo' := by
  rw [State.view, State.view, h.now, h.rows repo'.id hid,
    h.entries _ (fun hcached => releaseKey_ne (hname hcached))]

theorem id_ne_of_mem {repo : TrackedRepository}
    (hids : ((repo :: repos).map TrackedRepository.id).Nodup) :
    ∀ repo' ∈ repos, repo'.id ≠ repo.id := by
  intro repo' hrepo' heq
  rw [List.map_cons, List.nodup_cons] at hids
  exact hids.1 (heq ▸ List.mem_map_of_mem hrepo')

/-- After the first member of a list the views of the others are as before. -/
theorem Within.views {repo : TrackedRepository} (h : Within D repo s s' mails)
    (hids : ((repo :: repos).map TrackedRepository.id).Nodup)
    (hnames : D.cached = true → ((repo :: repos).map fullName).Nodup)
    (hview : ∀ repo' ∈ repo :: repos, (start repo').view repo' = s.view repo') :
    ∀ repo' ∈ repos, (start repo').view repo' = s'.view repo' := by
  intro repo' hrepo'
  have hname : D.cached = true → fullName repo' ≠ fullName repo := by
    intro hcached heq
    have hnodup := hnames hcached
    rw [List.map_cons, List.nodup_cons] at hnodup
    exact hnodup.1 (heq ▸ List.mem_map_of_mem hrepo')
  rw [h.view (id_ne_of_mem hids repo' hrepo') hname]
  exact hview repo' (List.mem_cons_of_mem _ hrepo')

/-- From the scans alone to the scan of the list. -/
theorem scanAll_play (hids : (repos.map TrackedRepository.id).Nodup)
    (hnames : D.cached = true → (repos.map fullName).Nodup)
    (hview : ∀ repo ∈ repos, (start repo).view repo = s.view repo)
    (halone : ∀ repo ∈ repos,
      (scanRepository D repo).play exec (start repo) (outcomes repo) = some ((), alone repo, [])) :
    ∃ s', (scanAll D repos).play exec s (script outcomes repos) = some ((), s', []) ∧
      Scanned repos start alone s s' := by
  induction repos generalizing s with
  | nil =>
    refine ⟨s, rfl, ?_, fun _ _ => rfl, ?_, (List.append_nil _).symm⟩
    · exact fun repo hrepo => absurd hrepo List.not_mem_nil
    · exact fun repo hrepo => absurd hrepo List.not_mem_nil
  | cons repo repos ih =>
    have hne := id_ne_of_mem hids
    obtain ⟨s₁, hs₁, hlike⟩ := scanRepository_alike (hview repo List.mem_cons_self)
      (halone repo List.mem_cons_self)
    obtain ⟨hview₁, mails, hmails, hstart, hwithin⟩ := hlike
    -- the rest of the list finds its own views unchanged
    obtain ⟨s', hs', hrest⟩ := ih (List.nodup_cons.mp hids).2
      (fun hcached => (List.nodup_cons.mp (hnames hcached)).2) (hwithin.views hids hnames hview)
      (fun repo' hrepo' => halone repo' (List.mem_cons_of_mem _ hrepo'))
    have hsince : mailsSince (start repo) (alone repo) = mails := mailsSince_of_append hstart.sent
    refine ⟨s', ?_, ?_, fun id hid => ?_, ?_, ?_⟩
    · show ((scanRepository D repo) >>= fun _ => scanAll D repos).play exec s
        (outcomes repo ++ script outcomes repos) = _
      rw [Prog.play_bind, Prog.play_append hs₁]
      exact hs'
    · intro repo' hrepo'
      rcases List.mem_cons.mp hrepo' with rfl | hrepo'
      · -- nobody after it touches its row
        rw [hrest.others _ (fun r hr => (hne r hr).symm)]
        exact (congrArg View.row hview₁).symm
      · exact hrest.rows repo' hrepo'
    · rw [hrest.others id (fun r hr => hid r (List.mem_cons_of_mem _ hr))]
      exact hwithin.rows id (hid repo List.mem_cons_self)
    · intro repo' hrepo'
      rcases List.mem_cons.mp hrepo' with rfl | hrepo'
      · rw [hsince]
        exact ⟨hstart.sent, hmails⟩
      · exact hrest.mails repo' hrepo'
    · rw [hrest.sent, hwithin.sent, List.flatMap_cons, hsince, List.append_assoc]

/-- From the scan of the list to the scans alone: its outcomes are those of its
members, one after the other. -/
theorem of_scanAll_play (hids : (repos.map TrackedRepository.id).Nodup)
    (hnames : D.cached = true → (repos.map fullName).Nodup)
    (hview : ∀ repo ∈ repos, (start repo).view repo = s.view repo) {ds : List Decision}
    (hctx : Decision.ends (.answer true) ∉ ds)
    (h : (scanAll D repos).play exec s ds = some ((), s', [])) :
    ∃ outcomes, ds = script outcomes repos ∧ ∀ repo ∈ repos, ∃ t',
      (scanRepository D repo).play exec (start repo) (outcomes repo) = some ((), t', []) := by
  induction repos generalizing s ds with
  | nil =>
    refine ⟨fun _ => [], ?_, fun repo hrepo => absurd hrepo List.not_mem_nil⟩
    cases h
    rfl
  | cons repo repos ih =>
    have hne := id_ne_of_mem hids
    obtain ⟨d, ds', b, s₀, rfl, hd, hk⟩ := Prog.of_play_op h
    -- the loop asks for the context first, which changes nothing
    obtain ⟨rfl, rfl⟩ : d = .ends (.answer b) ∧ s₀ = s := by
      simp only [exec] at hd
      split at hd
      · cases hd
        exact ⟨rfl, rfl⟩
      · cases hd
    cases b with
    | true => exact absurd List.mem_cons_self hctx
    | false =>
      have hbind : ((scanRepository D repo) >>= fun _ => scanAll D repos).play exec s₀ ds'
          = some ((), s', []) := hk
      rw [Prog.play_bind] at hbind
      obtain ⟨⟨u, s₁, rest⟩, hs₁, hrest⟩ := Option.bind_eq_some_iff.mp hbind
      -- what the first member uses up of the outcomes is what it gets alone
      obtain ⟨used, rfl, hused⟩ := Prog.play_used hs₁
      obtain ⟨t', ht', hlike⟩ := scanRepository_alike (hview repo List.mem_cons_self).symm hused
      obtain ⟨-, mails, -, hwithin, -⟩ := hlike
      obtain ⟨outcomes, rfl, halone⟩ := ih (List.nodup_cons.mp hids).2
        (fun hcached => (List.nodup_cons.mp (hnames hcached)).2)
        (hwithin.views hids hnames hview)
        (fun hmem => hctx (List.mem_cons_of_mem _ (List.mem_append_right _ hmem))) hrest
      -- no other member of the list is this repository
      have hother : ∀ repo' ∈ repos,
          Function.update outcomes repo used repo' = outcomes repo' :=
        fun repo' hrepo' =>
          Function.update_of_ne (fun heq => hne repo' hrepo' (by rw [heq])) _ _
      have hscript :
          script (Function.update outcomes repo used) repos = script outcomes repos :=
        List.flatMap_congr (fun r hr => by rw [hother r hr])
      refine ⟨Function.update outcomes repo used, ?_, fun repo' hrepo' => ?_⟩
      · show _ = (.ends (.answer false) :: Function.update outcomes repo used repo)
          ++ script (Function.update outcomes repo used) repos
        rw [Function.update_self, hscript]
        rfl
      · rcases List.mem_cons.mp hrepo' with rfl | hrepo'
        · rw [Function.update_self]
          exact ⟨t', ht'⟩
        · rw [hother repo' hrepo']
          exact halone repo' hrepo'

end List

/-! ## The scan -/

/-- Operations while `GetAll` lists `repos`, in whatever order. -/
def execOver (repos : List TrackedRepository) (s : State) :
    (o : Op) → Decision → Option (o.Res × State)
  | .stmtGetAll => fun
    | .ends .ok => some (.ok repos, s)
    | d => exec s .stmtGetAll d
  | o => exec s o

/-- One scan that takes the lock and is given `repos`, under the outcomes `ds` of
what follows. -/
def scanOver (D : Config) (number : Nat) (repos : List TrackedRepository) (s : State)
    (ds : List Decision) : Option State :=
  match (scan D number).play (execOver repos) s
      (.ends .ok :: .ends .ok :: (ds ++ [.ends .ok])) with
  | some (_, s', []) => some s'
  | _ => none

section Scan

variable {D : Config} {number : Nat} {repos : List TrackedRepository} {s s' : State}
variable {ds : List Decision}

/-- The list of repositories is read once, before the loop. -/
theorem scanAll_uses : (scanAll D repos).Uses (fun o => o ≠ .stmtGetAll) := by
  induction repos with
  | nil => trivial
  | cons repo repos ih =>
    refine ⟨Op.noConfusion, fun done => ?_⟩
    cases done with
    | true => trivial
    | false =>
      show (scanRepository D repo >>= fun _ => scanAll D repos).Uses _
      refine Prog.Uses.bind (scanRepository_about.mono (fun o ho heq => ?_)) (fun _ => ih)
      rw [heq] at ho
      exact ho

/-- Replacing that list changes nothing else. -/
theorem execOver_of_ne {o : Op} (ho : o ≠ .stmtGetAll) (s : State) (d : Decision) :
    execOver repos s o d = exec s o d := by
  cases o with
  | stmtGetAll => exact absurd rfl ho
  | _ => rfl

/-- With the lock free, a scan is its loop and the unlocking. -/
theorem play_scan (hlock : s.scanLock = none) (cs : List Decision) :
    (scan D number).play (execOver repos) s (.ends .ok :: .ends .ok :: cs)
      = (scanAll D repos >>= fun _ => perform .unlock).play (execOver repos)
          { s with scanLock := some number } cs := by
  have hfirst : execOver repos s (.tryLock number) (.ends .ok)
      = some (true, { s with scanLock := some number }) := by
    simp only [execOver, exec, hlock, Option.isSome_none, Bool.false_eq_true, if_false]
  exact Prog.play_op hfirst

theorem scanOver_eq_some (hlock : s.scanLock = none) :
    scanOver D number repos s ds = some s' ↔
      ∃ s₁, (scanAll D repos).play exec { s with scanLock := some number } ds = some ((), s₁, []) ∧
        s' = { s₁ with scanLock := none } := by
  have hplay : scanOver D number repos s ds = some s' ↔
      (scan D number).play (execOver repos) s (.ends .ok :: .ends .ok :: (ds ++ [.ends .ok]))
        = some ((), s', []) := by
    unfold scanOver
    split
    · next u t heq => simp [heq]
    · next hne => exact ⟨nofun, fun h => absurd h (hne () s')⟩
  have hover : ∀ (t : State) (cs : List Decision), (scanAll D repos).play (execOver repos) t cs
      = (scanAll D repos).play exec t cs :=
    scanAll_uses.play_eq (fun t o d ho => execOver_of_ne ho t d)
  rw [hplay, play_scan hlock, Prog.play_bind, hover]
  constructor
  · intro h
    obtain ⟨⟨u, s₁, rest⟩, hs₁, hunlock⟩ := Option.bind_eq_some_iff.mp h
    obtain ⟨d, rest', v, s₂, rfl, hd, hend⟩ := Prog.of_play_op hunlock
    obtain ⟨rfl, rfl⟩ : rest' = [] ∧ s₂ = s' := by
      cases hend
      exact ⟨rfl, rfl⟩
    obtain ⟨used, hds, hused⟩ := Prog.play_used hs₁
    -- the loop leaves one choice, the one for `Unlock`
    obtain ⟨rfl, heq⟩ := List.append_inj' hds rfl
    cases heq
    cases hd
    exact ⟨s₁, hused, rfl⟩
  · rintro ⟨s₁, hs₁, rfl⟩
    rw [Prog.play_append hs₁]
    rfl

/-- In the model `GetAll` lists the table by id. -/
theorem scan_lists_table (number : Nat) (hlock : s.scanLock = none) (cs : List Decision) :
    (scan D number).play exec s (.ends .ok :: .ends .ok :: cs)
      = (scan D number).play (execOver s.tracked.getAllQuery) s (.ends .ok :: .ends .ok :: cs) := by
  have hunlock : (perform .unlock).Uses (fun o => o ≠ .stmtGetAll) :=
    ⟨Op.noConfusion, fun _ => trivial⟩
  have hover : ∀ (t : State) (cs : List Decision),
      (scanAll D s.tracked.getAllQuery >>= fun _ => perform .unlock).play
          (execOver s.tracked.getAllQuery) t cs
        = (scanAll D s.tracked.getAllQuery >>= fun _ => perform .unlock).play exec t cs :=
    (scanAll_uses.bind (fun _ => hunlock)).play_eq (fun t o d ho => execOver_of_ne ho t d)
  have hfirst : exec s (.tryLock number) (.ends .ok)
      = some (true, { s with scanLock := some number }) := by
    simp only [exec, hlock, Option.isSome_none, Bool.false_eq_true, if_false]
  rw [play_scan hlock, hover]
  exact Prog.play_op hfirst

/-- A scan of one repository is the body of the loop. -/
theorem play_single (repo : TrackedRepository) (outcomes : TrackedRepository → List Decision) :
    (scanAll D [repo]).play exec s (script outcomes [repo])
      = (scanRepository D repo).play exec s (outcomes repo) := by
  have hscript : script outcomes [repo] = .ends (.answer false) :: outcomes repo := by
    simp only [script, List.flatMap_cons, List.flatMap_nil, List.append_nil]
  have hstep : (scanAll D [repo]).play exec s (script outcomes [repo])
      = (scanRepository D repo >>= fun _ => scanAll D []).play exec s (outcomes repo) := by
    rw [hscript]
    rfl
  rw [hstep, Prog.play_bind]
  cases (scanRepository D repo).play exec s (outcomes repo) with
  | none => rfl
  | some x => rfl

/-- Given the lock, and given the same views of its members, the scan of a list
comes to its end under the outcomes of its members exactly if each of them does
so alone, and it does to each of them what happens to it alone. -/
theorem scan_independent (D : Config) (number : Nat) (repos : List TrackedRepository)
    (hids : (repos.map TrackedRepository.id).Nodup)
    (hnames : D.cached = true → (repos.map fullName).Nodup)
    (s : State) (hlock : s.scanLock = none) (start : TrackedRepository → State)
    (hstart : ∀ repo ∈ repos,
      (start repo).scanLock = none ∧ (start repo).view repo = s.view repo) :
    (∀ (outcomes : TrackedRepository → List Decision) (alone : TrackedRepository → State),
      (∀ repo ∈ repos,
        scanOver D number [repo] (start repo) (script outcomes [repo]) = some (alone repo)) →
      ∃ s', scanOver D number repos s (script outcomes repos) = some s' ∧
        Scanned repos start alone s s') ∧
    ∀ (ds : List Decision) (s' : State), Decision.ends (.answer true) ∉ ds →
      scanOver D number repos s ds = some s' →
      ∃ (outcomes : TrackedRepository → List Decision) (alone : TrackedRepository → State),
        ds = script outcomes repos ∧ ∀ repo ∈ repos,
          scanOver D number [repo] (start repo) (script outcomes [repo]) = some (alone repo) := by
  let locked : State → State := fun t => { t with scanLock := some number }
  have hview : ∀ repo ∈ repos, (locked (start repo)).view repo = (locked s).view repo :=
    fun repo hrepo => (hstart repo hrepo).2
  constructor
  · intro outcomes alone halone
    have hsingle : ∀ repo, ∃ t, repo ∈ repos →
        (scanRepository D repo).play exec (locked (start repo)) (outcomes repo) = some ((), t, []) ∧
          alone repo = { t with scanLock := none } := by
      intro repo
      by_cases hrepo : repo ∈ repos
      · obtain ⟨t, ht, halone'⟩ := (scanOver_eq_some (hstart repo hrepo).1).mp (halone repo hrepo)
        rw [play_single] at ht
        exact ⟨t, fun _ => ⟨ht, halone'⟩⟩
      · exact ⟨s, fun h => absurd h hrepo⟩
    -- the states in which the scans alone unlock
    choose t ht using hsingle
    obtain ⟨s₁, hs₁, hscanned⟩ := scanAll_play hids hnames hview
      (fun repo hrepo => (ht repo hrepo).1)
    refine ⟨_, (scanOver_eq_some hlock).mpr ⟨s₁, hs₁, rfl⟩, ?_⟩
    have hsent : ∀ repo ∈ repos,
        mailsSince (start repo) (alone repo) = mailsSince (locked (start repo)) (t repo) := by
      intro repo hrepo
      rw [(ht repo hrepo).2]
      rfl
    refine ⟨fun repo hrepo => ?_, hscanned.others, fun repo hrepo => ?_, ?_⟩
    · rw [(ht repo hrepo).2]
      exact hscanned.rows repo hrepo
    · rw [(ht repo hrepo).2]
      exact hscanned.mails repo hrepo
    · rw [List.flatMap_congr hsent]
      exact hscanned.sent
  · intro ds s' hctx hs'
    obtain ⟨s₁, hs₁, -⟩ := (scanOver_eq_some hlock).mp hs'
    obtain ⟨outcomes, hds, halone⟩ := of_scanAll_play hids hnames hview hctx hs₁
    have hsingle : ∀ repo, ∃ t, repo ∈ repos →
        scanOver D number [repo] (start repo) (script outcomes [repo]) = some t := by
      intro repo
      by_cases hrepo : repo ∈ repos
      · obtain ⟨t, ht⟩ := halone repo hrepo
        rw [← play_single] at ht
        exact ⟨_, fun _ => (scanOver_eq_some (hstart repo hrepo).1).mpr ⟨t, ht, rfl⟩⟩
      · exact ⟨s, fun h => absurd h hrepo⟩
    choose alone ht using hsingle
    exact ⟨outcomes, alone, hds, ht⟩

/-- A table of one row. -/
def Tracked.only (repo : TrackedRepository) : Tracked where
  rows := [repo]
  nextID := repo.id + 1
  idsBelow := by simp
  idsUnique := List.nodup_singleton _
  reposUnique := List.nodup_singleton _

/-- Two rows, of `o/a` and `o/b`. -/
def sampleTracked : Tracked := (Tracked.empty.upsertQuery "o" "a").upsertQuery "o" "b"

/-- GitHub fails for the first, and has a release of the second with two
subscribers. -/
def sampleOutcomes (repo : TrackedRepository) : List Decision :=
  if repo.name = "a" then [.ends .ok, .ends (.fail (.io "502"))]
  else [.ends .ok, .release (some (sampleRelease "v1")), .ends .ok, .ends .ok,
    .emails ["x@y", "z@y"], .moves .handOver, .moves .handOver, .moves (.send 1),
    .ends (.fail (.io "smtp")), .moves (.send 0), .ends .ok]

/-- GitHub fails for one repository, and the other is scanned as if alone. -/
theorem scan_independent_pair :
    ∃ (alone : TrackedRepository → State) (s' : State),
      (∀ repo ∈ sampleTracked.rows, scanOver (sample true) 1 [repo]
        { State.init with tracked := .only repo } (script sampleOutcomes [repo])
          = some (alone repo)) ∧
      scanOver (sample true) 1 sampleTracked.rows { State.init with tracked := sampleTracked }
        (script sampleOutcomes sampleTracked.rows) = some s' ∧
      Scanned sampleTracked.rows (fun repo => { State.init with tracked := .only repo }) alone
        { State.init with tracked := sampleTracked } s' := by
  have hruns : ∀ repo ∈ sampleTracked.rows, (scanOver (sample true) 1 [repo]
      { State.init with tracked := .only repo } (script sampleOutcomes [repo])).isSome = true := by
    decide
  have halone : ∀ repo ∈ sampleTracked.rows, scanOver (sample true) 1 [repo]
      { State.init with tracked := .only repo } (script sampleOutcomes [repo])
        = some ((scanOver (sample true) 1 [repo]
          { State.init with tracked := .only repo } (script sampleOutcomes [repo])).getD .init) := by
    intro repo hrepo
    obtain ⟨t, ht⟩ := Option.isSome_iff_exists.mp (hruns repo hrepo)
    rw [ht]
    rfl
  have hviews : ∀ repo ∈ sampleTracked.rows,
      ({ State.init with tracked := .only repo } : State).scanLock = none ∧
        ({ State.init with tracked := .only repo } : State).view repo
          = ({ State.init with tracked := sampleTracked } : State).view repo := by
    decide
  obtain ⟨s', hs', hscanned⟩ := (scan_independent (sample true) 1 sampleTracked.rows
    (by decide) (fun _ => by decide) { State.init with tracked := sampleTracked }
    rfl (fun repo => { State.init with tracked := .only repo }) hviews).1 sampleOutcomes _ halone
  exact ⟨_, s', halone, hs', hscanned⟩

end Scan

end ReleaseNotifier.Poller
