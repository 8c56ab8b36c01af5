/-
The `subscriptions` and `tracked_repositories` tables
(`migrations/000001_init_schema.up.sql`) and the statements of
`internal/subscription/repo.go` and `internal/repository/store.go` on them.

`Tables` carries the declared constraints as fields, so a table that breaks
one cannot be written down. A statement that would break one fails with the
error Postgres reports for it and leaves the tables as they were; this is the
only assumption made about the server. `created_at`, `updated_at` and the
trigger that maintains them are left out; no modelled function reads them.
-/
import ReleaseNotifier.Errors
import ReleaseNotifier.Table

set_option autoImplicit false

namespace ReleaseNotifier

/-- `subscription.Status`. -/
inductive Status
  | pending
  | active
  | unsubscribed
  deriving DecidableEq, Repr

/-- The stored text of a status. -/
def Status.text : Status → String
  | .pending => "pending"
  | .active => "active"
  | .unsubscribed => "unsubscribed"

/-- The normalized triple a subscription is for. -/
structure Key where
  email : String
  owner : String
  name : String
  deriving DecidableEq, Repr

/-- One row of `subscriptions`, and `subscription.Subscription`. -/
structure Subscription where
  id : Nat
  email : String
  repoOwner : String
  repoName : String
  token : String
  status : Status
  deriving DecidableEq, Repr

/-- One row of `tracked_repositories`. -/
structure TrackedRepository where
  id : Nat
  owner : String
  name : String
  lastSeenTag : Option String
  lastCheckedAt : Option Nat
  deriving DecidableEq, Repr

/-- The triple a row is for. -/
def Subscription.key (r : Subscription) : Key := ⟨r.email, r.repoOwner, r.repoName⟩

/-- The predicate of the partial unique index: `status != 'unsubscribed'`. -/
def Subscription.live (r : Subscription) : Bool := decide (r.status ≠ .unsubscribed)

@[simp] theorem Subscription.live_eq_true {r : Subscription} :
    r.live = true ↔ r.status ≠ .unsubscribed := by simp [Subscription.live]

/-- `idx_subscriptions_email_repo_active`, the partial unique index. -/
def emailRepoActiveIndex : String := "idx_subscriptions_email_repo_active"

/-- The constraint Postgres names after `token ... UNIQUE`. -/
def tokenKey : String := "subscriptions_token_key"

/-- The foreign key to `tracked_repositories`. -/
def fkSubscriptionsRepo : String := "fk_subscriptions_repo"

/-- The foreign key's target exists. -/
def repoTracked (repos : List TrackedRepository) (owner name : String) : Bool :=
  repos.any (fun r => decide (r.owner = owner) && decide (r.name = name))

/-- The two tables with their sequences and declared constraints. -/
structure Tables where
  subscriptions : List Subscription
  nextSubscriptionID : Nat
  trackedRepositories : List TrackedRepository
  nextRepositoryID : Nat
  idsBelow : ∀ r ∈ subscriptions, r.id < nextSubscriptionID
  idsUnique : (subscriptions.map Subscription.id).Nodup
  tokensUnique : (subscriptions.map Subscription.token).Nodup
  liveUnique : ∀ a ∈ subscriptions, ∀ b ∈ subscriptions, a.live = true → b.live = true →
    a.key = b.key → a = b
  references : ∀ r ∈ subscriptions, repoTracked trackedRepositories r.repoOwner r.repoName = true
  reposUnique : (trackedRepositories.map (fun r => (r.owner, r.name))).Nodup

/-- The tables after the migrations, before the first request. -/
def Tables.empty : Tables where
  subscriptions := []
  nextSubscriptionID := 1
  trackedRepositories := []
  nextRepositoryID := 1
  idsBelow := by simp
  idsUnique := by simp
  tokensUnique := by simp
  liveUnique := by simp
  references := by simp
  reposUnique := by simp

namespace Tables

variable {t : Tables} {id : Nat} {r : Subscription}

/-- The row with primary key `id`. -/
def byID (t : Tables) (id : Nat) : Option Subscription :=
  Table.lookup Subscription.id t.subscriptions id

theorem byID_mem (h : t.byID id = some r) : r ∈ t.subscriptions := Table.lookup_mem h

theorem byID_id (h : t.byID id = some r) : r.id = id := Table.lookup_key h

/-- Ids are unique, so a row is what its id finds. -/
theorem byID_of_mem (h : r ∈ t.subscriptions) : t.byID r.id = some r :=
  Table.lookup_of_mem t.idsUnique h

/-- The sequence is ahead of every id in the table. -/
theorem byID_lt (h : t.byID id = some r) : id < t.nextSubscriptionID := by
  have := t.idsBelow r (byID_mem h)
  rwa [byID_id h] at this

/-- Two rows with one token are one row. -/
theorem eq_of_token {a b : Subscription} (ha : a ∈ t.subscriptions) (hb : b ∈ t.subscriptions)
    (h : a.token = b.token) : a = b :=
  List.inj_on_of_nodup_map t.tokensUnique ha hb h

/-! ## Queries -/

/-- `getByTokenQuery`. -/
def getByTokenQuery (t : Tables) (token : String) : Option Subscription :=
  t.subscriptions.find? (fun r => decide (r.token = token))

/-- `getByEmailAndRepoQuery`, whose `$4` is `'unsubscribed'`. -/
def getByEmailAndRepoQuery (t : Tables) (k : Key) : Option Subscription :=
  t.subscriptions.find? (fun r => decide (r.key = k) && r.live)

variable {token : String}

theorem getByTokenQuery_some (h : t.getByTokenQuery token = some r) :
    t.byID r.id = some r ∧ r.token = token := by
  refine ⟨byID_of_mem (List.mem_of_find?_eq_some h), ?_⟩
  have := List.find?_some h
  simpa using this

variable {k : Key}

/-- The lookup of `Subscribe` finds live rows only. -/
theorem getByEmailAndRepoQuery_some (h : t.getByEmailAndRepoQuery k = some r) :
    t.byID r.id = some r ∧ r.key = k ∧ r.status ≠ .unsubscribed := by
  have hp := List.find?_some h
  simp only [Bool.and_eq_true, decide_eq_true_eq, Subscription.live_eq_true] at hp
  exact ⟨byID_of_mem (List.mem_of_find?_eq_some h), hp.1, hp.2⟩

/-- A triple is free exactly if all its rows are unsubscribed. -/
theorem getByEmailAndRepoQuery_none :
    t.getByEmailAndRepoQuery k = none ↔
      ∀ r ∈ t.subscriptions, r.key = k → r.status = .unsubscribed := by
  simp [getByEmailAndRepoQuery, List.find?_eq_none, Subscription.live]

/-- The row that carries a token is the one `getByTokenQuery` finds. -/
theorem getByTokenQuery_of_byID (h : t.byID id = some r) :
    t.getByTokenQuery r.token = some r := by
  cases hq : t.getByTokenQuery r.token with
  | none =>
    simp only [getByTokenQuery, List.find?_eq_none, decide_eq_true_eq] at hq
    exact absurd rfl (hq r (byID_mem h))
  | some x =>
    have hx := getByTokenQuery_some hq
    rw [eq_of_token (byID_mem hx.1) (byID_mem h) hx.2]

/-! ## Constraint checks -/

/-- Another row already holds the index entry of `k`. -/
def indexTaken (t : Tables) (id : Nat) (k : Key) : Bool :=
  t.subscriptions.any (fun r => decide (r.id ≠ id) && decide (r.key = k) && r.live)

/-- Another row already has this token. -/
def tokenTaken (t : Tables) (id : Nat) (token : String) : Bool :=
  t.subscriptions.any (fun r => decide (r.id ≠ id) && decide (r.token = token))

/-- When the partial unique index lets a row live under a key. -/
theorem indexTaken_eq_false : t.indexTaken id k = false ↔
    ∀ r ∈ t.subscriptions, r.id ≠ id → r.key = k → r.status = .unsubscribed := by
  simp only [indexTaken, List.any_eq_false, Bool.and_eq_true, decide_eq_true_eq,
    Subscription.live_eq_true]
  constructor
  · intro h r hr hid hk
    by_contra hne
    exact h r hr ⟨⟨hid, hk⟩, hne⟩
  · rintro h r hr ⟨⟨hid, hk⟩, hne⟩
    exact hne (h r hr hid hk)

theorem tokenTaken_eq_false : t.tokenTaken id token = false ↔
    ∀ r ∈ t.subscriptions, r.id ≠ id → r.token ≠ token := by
  simp only [tokenTaken, List.any_eq_false, Bool.and_eq_true, decide_eq_true_eq]
  constructor
  · intro h r hr hid hk
    exact h r hr ⟨hid, hk⟩
  · rintro h r hr ⟨hid, hk⟩
    exact h r hr hid hk

/-- The declared widths of the columns `createQuery` writes. -/
def fitsColumns (k : Key) (token : String) : Bool :=
  decide (k.email.length ≤ 255) && decide (k.owner.length ≤ 100) &&
    decide (k.name.length ≤ 100) && decide (token.length ≤ 64)

theorem fitsColumns_iff : fitsColumns k token = true ↔
    k.email.length ≤ 255 ∧ k.owner.length ≤ 100 ∧ k.name.length ≤ 100 ∧ token.length ≤ 64 := by
  simp only [fitsColumns, Bool.and_eq_true, decide_eq_true_eq, and_assoc]

/-! ## What a statement writes -/

/-- Rewrite the row with primary key `id`. -/
def rewriteRow (id : Nat) (f : Subscription → Subscription) (l : List Subscription) :
    List Subscription :=
  Table.update (fun x => decide (x.id = id)) f l

variable {f : Subscription → Subscription}

/-- An `UPDATE … WHERE id = …` rewrites one row and keeps the others. -/
theorem mem_rewriteRow {l : List Subscription} (h : r ∈ rewriteRow id f l) :
    ∃ x ∈ l, (x.id = id ∧ r = f x) ∨ (x.id ≠ id ∧ r = x) := by
  obtain ⟨x, hx, hr⟩ := Table.mem_update.mp h
  refine ⟨x, hx, ?_⟩
  by_cases hid : x.id = id
  · rw [if_pos (by simpa using hid)] at hr
    exact .inl ⟨hid, hr.symm⟩
  · rw [if_neg (by simpa using hid)] at hr
    exact .inr ⟨hid, hr.symm⟩

/-- A column the rewriting leaves alone keeps its values. -/
theorem map_rewriteRow {γ : Type} {g : Subscription → γ} {l : List Subscription}
    (hg : ∀ x, g (f x) = g x) : (rewriteRow id f l).map g = l.map g :=
  Table.map_update (fun x _ => hg x)

/-- The row `id` would meet another one in the index under the new status. -/
def entersTaken (t : Tables) (id : Nat) (status : Status) : Bool :=
  match t.byID id with
  | some r => decide (status ≠ .unsubscribed) && t.indexTaken id r.key
  | none => false

/-- A row that may enter the index finds its key free there. -/
theorem indexTaken_of_entersTaken {status : Status} (h : t.entersTaken id status = false)
    (hr : t.byID id = some r) (hs : status ≠ .unsubscribed) : t.indexTaken id r.key = false := by
  rw [entersTaken, hr] at h
  simpa [hs] using h

/-- Set the status of row `id`; a row that enters the index must not meet
another one there. -/
def setStatus (t : Tables) (id : Nat) (status : Status) (h : t.entersTaken id status = false) :
    Tables where
  subscriptions := rewriteRow id (fun x => { x with status := status }) t.subscriptions
  nextSubscriptionID := t.nextSubscriptionID
  trackedRepositories := t.trackedRepositories
  nextRepositoryID := t.nextRepositoryID
  idsBelow := by
    intro r hr
    obtain ⟨x, hx, ⟨_, rfl⟩ | ⟨_, rfl⟩⟩ := mem_rewriteRow hr
    · exact t.idsBelow x hx
    · exact t.idsBelow r hx
  idsUnique := by
    rw [map_rewriteRow]
    · exact t.idsUnique
    · exact fun _ => rfl
  tokensUnique := by
    rw [map_rewriteRow]
    · exact t.tokensUnique
    · exact fun _ => rfl
  liveUnique := by
    -- two live rows with one key: at most one of them is the row that was set,
    -- and if one is, the other one was checked against it
    intro a ha b hb hla hlb hk
    obtain ⟨x, hx, ⟨hxid, rfl⟩ | ⟨hxid, rfl⟩⟩ := mem_rewriteRow ha <;>
      obtain ⟨y, hy, ⟨hyid, rfl⟩ | ⟨hyid, rfl⟩⟩ := mem_rewriteRow hb
    · rw [List.inj_on_of_nodup_map t.idsUnique hx hy (hxid.trans hyid.symm)]
    · have hbx : t.byID id = some x := hxid ▸ byID_of_mem hx
      have := indexTaken_eq_false.mp
        (indexTaken_of_entersTaken h hbx (by simpa using hla)) b hy hyid hk.symm
      simp [this] at hlb
    · have hby : t.byID id = some y := hyid ▸ byID_of_mem hy
      have := indexTaken_eq_false.mp
        (indexTaken_of_entersTaken h hby (by simpa using hlb)) a hx hxid hk
      simp [this] at hla
    · exact t.liveUnique a hx b hy hla hlb hk
  references := by
    intro r hr
    obtain ⟨x, hx, ⟨_, rfl⟩ | ⟨_, rfl⟩⟩ := mem_rewriteRow hr
    · exact t.references x hx
    · exact t.references r hx
  reposUnique := t.reposUnique

/-- Set the token of row `id` to one no other row has. -/
def setToken (t : Tables) (id : Nat) (token : String) (h : t.tokenTaken id token = false) :
    Tables where
  subscriptions := rewriteRow id (fun x => { x with token := token }) t.subscriptions
  nextSubscriptionID := t.nextSubscriptionID
  trackedRepositories := t.trackedRepositories
  nextRepositoryID := t.nextRepositoryID
  idsBelow := by
    intro r hr
    obtain ⟨x, hx, ⟨_, rfl⟩ | ⟨_, rfl⟩⟩ := mem_rewriteRow hr
    · exact t.idsBelow x hx
    · exact t.idsBelow r hx
  idsUnique := by
    rw [map_rewriteRow]
    · exact t.idsUnique
    · exact fun _ => rfl
  tokensUnique := by
    rw [rewriteRow, Table.update, List.map_map, List.nodup_map_iff_inj_on t.idsUnique.of_map]
    intro x hx y hy hxy
    simp only [Function.comp_apply, decide_eq_true_eq] at hxy
    by_cases hxid : x.id = id <;> by_cases hyid : y.id = id
    · exact List.inj_on_of_nodup_map t.idsUnique hx hy (hxid.trans hyid.symm)
    · rw [if_pos hxid, if_neg hyid] at hxy
      exact absurd hxy.symm (tokenTaken_eq_false.mp h y hy hyid)
    · rw [if_neg hxid, if_pos hyid] at hxy
      exact absurd hxy (tokenTaken_eq_false.mp h x hx hxid)
    · rw [if_neg hxid, if_neg hyid] at hxy
      exact eq_of_token hx hy hxy
  liveUnique := by
    intro a ha b hb hla hlb hk
    obtain ⟨x, hx, ⟨hxid, rfl⟩ | ⟨hxid, rfl⟩⟩ := mem_rewriteRow ha <;>
      obtain ⟨y, hy, ⟨hyid, rfl⟩ | ⟨hyid, rfl⟩⟩ := mem_rewriteRow hb
    · rw [t.liveUnique x hx y hy hla hlb hk]
    · exact absurd (t.liveUnique x hx b hy hla hlb hk ▸ hxid) hyid
    · exact absurd (t.liveUnique a hx y hy hla hlb hk ▸ hyid) hxid
    · exact t.liveUnique a hx b hy hla hlb hk
  references := by
    intro r hr
    obtain ⟨x, hx, ⟨_, rfl⟩ | ⟨_, rfl⟩⟩ := mem_rewriteRow hr
    · exact t.references x hx
    · exact t.references r hx
  reposUnique := t.reposUnique

/-- The row `createQuery` inserts: the next id of the sequence, the given
columns. -/
def newRow (t : Tables) (k : Key) (token : String) (status : Status) : Subscription :=
  ⟨t.nextSubscriptionID, k.email, k.owner, k.name, token, status⟩

theorem id_ne_next (h : r ∈ t.subscriptions) : r.id ≠ t.nextSubscriptionID :=
  Nat.ne_of_lt (t.idsBelow r h)

/-- Insert a row whose token, index entry and repository were checked. -/
def insertRow (t : Tables) (k : Key) (token : String) (status : Status)
    (htok : t.tokenTaken t.nextSubscriptionID token = false)
    (hidx : status ≠ .unsubscribed → t.indexTaken t.nextSubscriptionID k = false)
    (hrepo : repoTracked t.trackedRepositories k.owner k.name = true) : Tables where
  subscriptions := t.subscriptions ++ [t.newRow k token status]
  nextSubscriptionID := t.nextSubscriptionID + 1
  trackedRepositories := t.trackedRepositories
  nextRepositoryID := t.nextRepositoryID
  idsBelow := by
    intro r hr
    rcases List.mem_append.mp hr with hr | hr
    · exact Nat.lt_succ_of_lt (t.idsBelow r hr)
    · rw [List.mem_singleton.mp hr]; exact Nat.lt_succ_self _
  idsUnique := by
    rw [List.map_append, List.nodup_append]
    refine ⟨t.idsUnique, by simp, ?_⟩
    intro a ha b hb
    obtain ⟨r, hr, rfl⟩ := List.mem_map.mp ha
    rw [List.map_singleton, List.mem_singleton] at hb
    rw [hb]
    exact id_ne_next hr
  tokensUnique := by
    rw [List.map_append, List.nodup_append]
    refine ⟨t.tokensUnique, by simp, ?_⟩
    intro a ha b hb
    obtain ⟨r, hr, rfl⟩ := List.mem_map.mp ha
    rw [List.map_singleton, List.mem_singleton] at hb
    rw [hb]
    exact tokenTaken_eq_false.mp htok r hr (id_ne_next hr)
  liveUnique := by
    intro a ha b hb hla hlb hk
    rcases List.mem_append.mp ha with ha | ha <;> rcases List.mem_append.mp hb with hb | hb
    · exact t.liveUnique a ha b hb hla hlb hk
    · rw [List.mem_singleton] at hb
      subst hb
      have := indexTaken_eq_false.mp (hidx (by simpa [newRow] using hlb)) a ha (id_ne_next ha) hk
      simp [this] at hla
    · rw [List.mem_singleton] at ha
      subst ha
      have := indexTaken_eq_false.mp (hidx (by simpa [newRow] using hla)) b hb
        (id_ne_next hb) hk.symm
      simp [this] at hlb
    · rw [List.mem_singleton.mp ha, List.mem_singleton.mp hb]
  references := by
    intro r hr
    rcases List.mem_append.mp hr with hr | hr
    · exact t.references r hr
    · rw [List.mem_singleton.mp hr]; exact hrepo
  reposUnique := t.reposUnique

/-! ## Statements

A statement answers with the new tables and the number of affected rows, or
with the error the server reports. -/

/-- `updateStatusQuery`: `UPDATE subscriptions SET status = $1 WHERE id = $2`. -/
def updateStatusQuery (t : Tables) (status : Status) (id : Nat) : Except Err (Tables × Nat) :=
  if h : t.entersTaken id status = false then
    .ok (t.setStatus id status h, if (t.byID id).isSome then 1 else 0)
  else .error (.pq pgUniqueViolation emailRepoActiveIndex)

/-- `updateTokenQuery`:
`UPDATE subscriptions SET token = $1 WHERE id = $2 AND token = $3`. -/
def updateTokenQuery (t : Tables) (newToken : String) (id : Nat) (oldToken : String) :
    Except Err (Tables × Nat) :=
  if (t.byID id).map Subscription.token = some oldToken then
    if newToken.length ≤ 64 then
      if h : t.tokenTaken id newToken = false then .ok (t.setToken id newToken h, 1)
      else .error (.pq pgUniqueViolation tokenKey)
    else .error (.pq pgStringDataRightTruncation "")
  else .ok (t, 0)

/-- `createQuery`: the tables after the insertion; the row's id is the one the
sequence gave. Postgres also uses up the id of a row it refuses; gaps between
ids make no difference to anything here and are not modelled. -/
def createQuery (t : Tables) (k : Key) (token : String) (status : Status) :
    Except Err Tables :=
  if fitsColumns k token then
    if htok : t.tokenTaken t.nextSubscriptionID token = false then
      if hidx : status ≠ .unsubscribed → t.indexTaken t.nextSubscriptionID k = false then
        if hrepo : repoTracked t.trackedRepositories k.owner k.name = true then
          .ok (t.insertRow k token status htok hidx hrepo)
        else .error (.pq pgForeignKeyViolation fkSubscriptionsRepo)
      else .error (.pq pgUniqueViolation emailRepoActiveIndex)
    else .error (.pq pgUniqueViolation tokenKey)
  else .error (.pq pgStringDataRightTruncation "")

/-- `upsertQuery`: `INSERT INTO tracked_repositories ... ON CONFLICT (owner, name)
DO NOTHING`. -/
def upsertQuery (t : Tables) (owner name : String) : Tables :=
  if h : repoTracked t.trackedRepositories owner name = true then t
  else
    { t with
      trackedRepositories := t.trackedRepositories ++ [⟨t.nextRepositoryID, owner, name, none, none⟩]
      nextRepositoryID := t.nextRepositoryID + 1
      references := by
        intro r hr
        have := t.references r hr
        simp only [repoTracked, List.any_append, Bool.or_eq_true] at this ⊢
        exact .inl this
      reposUnique := by
        rw [List.map_append, List.nodup_append]
        refine ⟨t.reposUnique, by simp, ?_⟩
        intro a ha b hb hab
        obtain ⟨r, hr, rfl⟩ := List.mem_map.mp ha
        rw [List.map_singleton, List.mem_singleton] at hb
        rw [hb, Prod.mk.injEq] at hab
        refine h (List.any_eq_true.mpr ⟨r, hr, ?_⟩)
        simp [hab.1, hab.2] }

/-! ## What the rows look like after a statement

One lemma for each statement, in terms of `byID`. -/

variable {t' : Tables}

/-- What a statement on row `id` does to the row found under any key. -/
theorem byID_rewriteRow (hsub : t'.subscriptions = rewriteRow id f t.subscriptions)
    (hf : ∀ x, (f x).id = x.id) (i : Nat) :
    t'.byID i = (t.byID i).map (fun r => if i = id then f r else r) := by
  rw [byID, hsub, rewriteRow, Table.lookup_update (fun x _ => hf x)]
  cases hr : Table.lookup Subscription.id t.subscriptions i with
  | none => simp [byID, hr]
  | some r =>
    have hid : r.id = i := Table.lookup_key hr
    simp [byID, hr, hid]

/-- A status update that violates nothing, as seen by every lookup afterwards. -/
theorem updateStatusQuery_ok {status : Status} {n : Nat}
    (h : t.updateStatusQuery status id = .ok (t', n)) :
    (∀ i, t'.byID i = (t.byID i).map (fun r => if i = id then { r with status := status } else r)) ∧
      n = (if (t.byID id).isSome then 1 else 0) ∧
      t'.nextSubscriptionID = t.nextSubscriptionID := by
  unfold updateStatusQuery at h
  split at h
  · next hfree =>
    simp only [Except.ok.injEq, Prod.mk.injEq] at h
    obtain ⟨rfl, rfl⟩ := h
    exact ⟨byID_rewriteRow rfl (fun _ => rfl), rfl, rfl⟩
  · cases h

/-- Cancelling is never refused: the row leaves the index. -/
theorem updateStatusQuery_unsubscribed (t : Tables) (id : Nat) :
    ∃ t', t.updateStatusQuery .unsubscribed id
      = .ok (t', if (t.byID id).isSome then 1 else 0) := by
  have hfree : t.entersTaken id .unsubscribed = false := by
    unfold entersTaken
    cases t.byID id with
    | none => rfl
    | some r => simp
  exact ⟨t.setStatus id .unsubscribed hfree, by rw [updateStatusQuery, dif_pos hfree]⟩

/-- A row that is in the index may take any status. -/
theorem updateStatusQuery_live (status : Status) (hr : t.byID id = some r)
    (hl : r.status ≠ .unsubscribed) : ∃ t', t.updateStatusQuery status id = .ok (t', 1) := by
  have hfree : t.entersTaken id status = false := by
    rw [entersTaken, hr]
    have htaken : t.indexTaken id r.key = false := by
      rw [indexTaken_eq_false]
      intro x hx hid hk
      by_contra hlive
      have hxr : x = r := t.liveUnique x hx r (byID_mem hr) (by simpa using hlive)
        (by simpa using hl) hk
      exact hid (by rw [hxr, byID_id hr])
    simp [htaken]
  exact ⟨t.setStatus id status hfree, by rw [updateStatusQuery, dif_pos hfree, hr]; rfl⟩

/-- The token is replaced only while the row still carries the old one. -/
theorem updateTokenQuery_ok {newToken oldToken : String} {n : Nat}
    (h : t.updateTokenQuery newToken id oldToken = .ok (t', n)) :
    (n = 0 ∧ t' = t ∧ ∀ r, t.byID id = some r → r.token ≠ oldToken) ∨
      (n = 1 ∧ ∃ r, t.byID id = some r ∧ r.token = oldToken ∧
        (∀ i, t'.byID i = (t.byID i).map (fun r => if i = id then { r with token := newToken } else r)) ∧
        t'.nextSubscriptionID = t.nextSubscriptionID) := by
  unfold updateTokenQuery at h
  split_ifs at h with hold _ hfree
  · simp only [Except.ok.injEq, Prod.mk.injEq] at h
    obtain ⟨rfl, rfl⟩ := h
    obtain ⟨r, hr, hrt⟩ := Option.map_eq_some_iff.mp hold
    exact .inr ⟨rfl, r, hr, hrt, byID_rewriteRow rfl (fun _ => rfl), rfl⟩
  · simp only [Except.ok.injEq, Prod.mk.injEq] at h
    obtain ⟨rfl, rfl⟩ := h
    refine .inl ⟨rfl, rfl, fun r hr hrt => hold ?_⟩
    rw [hr, Option.map_some, hrt]

/-- An insert adds one row, under the next id. -/
theorem createQuery_ok {status : Status} (h : t.createQuery k token status = .ok t') :
    (∀ i, t'.byID i = if i = t.nextSubscriptionID then some (t.newRow k token status)
      else t.byID i) ∧ t'.nextSubscriptionID = t.nextSubscriptionID + 1 := by
  unfold createQuery at h
  split_ifs at h with _ htok hidx hrepo
  simp only [Except.ok.injEq] at h
  subst h
  refine ⟨fun i => ?_, rfl⟩
  rw [byID, insertRow, Table.lookup_append_singleton]
  by_cases hi : i = t.nextSubscriptionID
  · have hnone : Table.lookup Subscription.id t.subscriptions i = none := by
      rw [Table.lookup_eq_none]
      intro r hr
      rw [hi]
      exact id_ne_next hr
    rw [if_pos hi, hnone, Option.none_or]
    simp [newRow, hi]
  · have hne : ¬ (t.newRow k token status).id = i := fun he => hi he.symm
    rw [if_neg hi, if_neg hne, Option.or_none, byID]

/-- Tracking a repository touches no subscription. -/
theorem byID_upsertQuery (t : Tables) (owner name : String) (i : Nat) :
    (t.upsertQuery owner name).byID i = t.byID i := by
  unfold upsertQuery
  split <;> rfl

theorem nextSubscriptionID_upsertQuery (t : Tables) (owner name : String) :
    (t.upsertQuery owner name).nextSubscriptionID = t.nextSubscriptionID := by
  unfold upsertQuery
  split <;> rfl

end Tables

end ReleaseNotifier
