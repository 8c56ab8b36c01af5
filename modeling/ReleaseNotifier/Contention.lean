/-
Who wins a reservation?

Any number of `Subscribe` calls for one triple have performed their lookup, and
none has written yet. If the lookup found nothing they all go on to `Upsert` and
`Create`, where the partial unique index lets one row in; if it found a pending
row they all go on to `UpdateToken`, where the compare-and-swap lets one token
in. Two mechanisms, one verdict: exactly one call gets a subscription, the one
that is stored, and the others get `ErrAlreadyExists` and change no row.

That is so where the values fit their columns. `NewAddress` has no limit and the
column `email` is a `VARCHAR(255)`: for an address that is longer Postgres refuses
every insertion for its length, nobody wins and nobody gets `ErrAlreadyExists`
(`none_reserves_long_address`).

The contest is a machine of its own, whose calls run what is left of
`reserveSubscription`. Whatever else the system does in the meantime is a step
of the world, which may be anything that leaves the pair alone (`Aside`). The
invariant has two shapes: the contest is `Open`, or it is `Decided` for one call.
-/
import ReleaseNotifier.Addresses

set_option autoImplicit false

namespace ReleaseNotifier

open Conc

/-! ## The contest -/

/-- A contest for one triple: the state in which every contender looked it up,
and the tokens they drew, which are distinct and in no row. -/
structure Contest where
  addr : String
  ref : Ref
  tokens : List String
  before : State
  distinct : tokens.Nodup
  fresh : ∀ row ∈ before.tables.subscriptions, row.token ∉ tokens
  /-- The lookup found no live row, or a pending one. -/
  pending : ∀ sub, before.tables.getByEmailAndRepoQuery ⟨addr, ref.owner, ref.name⟩ = some sub →
    sub.status = .pending

namespace Contest

/-- The triple. -/
def key (C : Contest) : Key := ⟨C.addr, C.ref.owner, C.ref.name⟩

/-- The email, the repository and the tokens are no longer than their columns. -/
def Fits (C : Contest) : Prop := ∀ token ∈ C.tokens, Tables.fitsColumns C.key token = true

/-- What every contender found. -/
def found (C : Contest) : Option Subscription := C.before.tables.getByEmailAndRepoQuery C.key

/-- What is left of `reserveSubscription` after the lookup. -/
def remaining (C : Contest) (token : String) : P (Except Err Subscription) :=
  (reserveSubscription C.addr C.ref (.ok token)).answered
    (fun o => (exec C.before o .ok).map Prod.fst)

/-- The machine: no contender joins, and the world may do anything. -/
def machine (C : Contest) :
    Machine Op Op.Res State Choice String (State → Option State) (Except Err Subscription) where
  program := C.remaining
  enter _ _ := none
  exec := exec
  env f s := f s

/-- Every contender has performed its lookup. -/
def start (C : Contest) : Pool Op Op.Res State String (Except Err Subscription) :=
  ⟨C.before, C.tokens.map (fun token => ⟨token, C.remaining token, none⟩)⟩

end Contest

/-- The other operations leave the pair alone: its rows stay what they are, its
repository stays tracked, and nobody else uses the contenders' tokens. -/
structure Aside (C : Contest) (s s' : State) : Prop where
  rows : ∀ row, row.key = C.key →
    (row ∈ s'.tables.subscriptions ↔ row ∈ s.tables.subscriptions)
  tokens : ∀ row ∈ s'.tables.subscriptions, row.key ≠ C.key → row.token ∉ C.tokens
  tracked : repoTracked s.tables.trackedRepositories C.ref.owner C.ref.name = true →
    repoTracked s'.tables.trackedRepositories C.ref.owner C.ref.name = true

/-- Every statement reaches the database and its answer comes back, no contender dies,
and the world leaves the pair alone. What Postgres says to a statement is not restricted:
a refusal is an answer. -/
def Fair (C : Contest) (p : Pool Op Op.Res State String (Except Err Subscription)) :
    Event Choice String (State → Option State) → Prop
  | .run _ ch => ch = .ok
  | .env f => ∀ s' ∈ f p.state, Aside C p.state s'
  | .kill _ => False
  | .call _ => False

/-! ## Where a contender stands -/

/-- The continuation of `Create`: a new row is the result, and a violation of the
partial index is reported as `ErrAlreadyExists`. -/
structure Inserts (C : Contest) (token : String)
    (k : (Op.stmtCreate C.key token .pending).Res → P (Except Err Subscription)) : Prop where
  won : ∀ id, k (.ok id) = .ret (.ok ⟨id, C.addr, C.ref.owner, C.ref.name, token, .pending⟩)
  lost : ∀ e, e.asPq? = some (pgUniqueViolation, emailRepoActiveIndex) →
    ∃ e', k (.error e) = .ret (.error e') ∧ e'.is .errAlreadyExists = true

/-- The programs of a contender that has not returned. -/
inductive Stage (C : Contest) (s : State) (token : String) : P (Except Err Subscription) → Prop
  | refresh {sub : Subscription}
      {k : (Op.stmtUpdateToken token sub.id sub.token).Res → P (Except Err Subscription)}
      (found : C.found = some sub)
      (won : k (.ok (.ok 1)) = .ret (.ok { sub with token := token }))
      (lost : ∃ e, k (.ok (.ok 0)) = .ret (.error e) ∧ e.is .errAlreadyExists = true) :
      Stage C s token (.op (.stmtUpdateToken token sub.id sub.token) k)
  | upsert {k : (Op.stmtUpsert C.ref.owner C.ref.name).Res → P (Except Err Subscription)}
      {k' : (Op.stmtCreate C.key token .pending).Res → P (Except Err Subscription)}
      (found : C.found = none) (next : k (.ok ()) = .op (.stmtCreate C.key token .pending) k')
      (inserts : Inserts C token k') :
      Stage C s token (.op (.stmtUpsert C.ref.owner C.ref.name) k)
  | create {k : (Op.stmtCreate C.key token .pending).Res → P (Except Err Subscription)}
      (found : C.found = none)
      (tracked : repoTracked s.tables.trackedRepositories C.ref.owner C.ref.name = true)
      (inserts : Inserts C token k) :
      Stage C s token (.op (.stmtCreate C.key token .pending) k)

section Stages

variable {C : Contest} {s s' : State} {token : String}

/-- A contender stands where it stood as long as the repository is tracked. -/
theorem Stage.imp {q : P (Except Err Subscription)} (h : Stage C s token q)
    (ht : repoTracked s.tables.trackedRepositories C.ref.owner C.ref.name = true →
      repoTracked s'.tables.trackedRepositories C.ref.owner C.ref.name = true) :
    Stage C s' token q := by
  cases h with
  | refresh found won lost => exact .refresh found won lost
  | upsert found next inserts => exact .upsert found next inserts
  | create found tracked inserts => exact .create found (ht tracked) inserts

/-- What a contender has still to do, after the lookup. -/
theorem Contest.remaining_eq (C : Contest) (token : String) :
    C.remaining token = match C.found with
      | some sub =>
        if sub.status = .active then .ret (.error (.sentinel .errAlreadyExists))
        else refreshPendingSubscription sub (.ok token)
      | none => createPendingSubscription C.addr C.ref (.ok token) := by
  have hx : exec C.before (.stmtGetByEmailAndRepo C.key) .ok = some (.ok C.found, C.before) := rfl
  rw [Contest.remaining, reserveSubscription, Repo.getByEmailAndRepo, statement, Prog.op_bind]
  rw [Prog.answered_op (r := .ok C.found)]
  · cases C.found with
    | none => rfl
    | some sub => rfl
  · rfl

theorem insertsPending (C : Contest) (token : String) :
    ∃ k k', createPendingSubscription C.addr C.ref (.ok token)
        = .op (.stmtUpsert C.ref.owner C.ref.name) k ∧
      k (.ok ()) = .op (.stmtCreate C.key token .pending) k' ∧ Inserts C token k' := by
  refine ⟨_, _, rfl, rfl, fun id => rfl, fun e he => ?_⟩
  refine ⟨.wrap "creating subscription" (.sentinel .errAlreadyExists), ?_, rfl⟩
  simp [he, Prog.bind]

/-- Every contender starts on one of the two ways. -/
theorem Contest.stage (C : Contest) (s : State) (token : String) :
    Stage C s token (C.remaining token) := by
  rw [C.remaining_eq]
  cases hf : C.found with
  | none =>
    obtain ⟨k, k', heq, hnext, hins⟩ := insertsPending C token
    dsimp only
    rw [heq]
    exact .upsert hf hnext hins
  | some sub =>
    have hpend := C.pending sub hf
    dsimp only
    rw [if_neg (by rw [hpend]; simp)]
    exact .refresh hf rfl ⟨.sentinel .errAlreadyExists, rfl, rfl⟩

end Stages

/-! ## The two shapes of a contest -/

/-- A contender that has lost. -/
def Lost (q : P (Except Err Subscription)) : Prop :=
  ∃ e, q = .ret (.error e) ∧ e.is .errAlreadyExists = true

/-- A contender that is still at work. -/
def AtWork (C : Contest) (s : State)
    (th : Thread Op Op.Res String (Except Err Subscription)) : Prop :=
  th.ended = none ∧ Stage C s th.call th.prog

/-- Nobody has won: the lookup would find what it found, and no token of a
contender is in any row. -/
structure Open (C : Contest) (p : Pool Op Op.Res State String (Except Err Subscription)) :
    Prop where
  query : p.state.tables.getByEmailAndRepoQuery C.key = C.found
  free : ∀ row ∈ p.state.tables.subscriptions, row.token ∉ C.tokens
  atWork : ∀ (i : Nat) th, p.threads[i]? = some th → AtWork C p.state th

/-- `sub` is the row of the triple, under the token of a contender, and no other
row has a contender's token. -/
structure Taken (C : Contest) (s : State) (sub : Subscription) : Prop where
  stored : sub ∈ s.tables.subscriptions
  key : sub.key = C.key
  pending : sub.status = .pending
  drawn : sub.token ∈ C.tokens
  same : ∀ sub₀, C.found = some sub₀ → sub.id = sub₀.id
  free : ∀ row ∈ s.tables.subscriptions, row.token ∈ C.tokens → row = sub

/-- Call `i` has won with `sub`; the others have lost or are still at work. -/
structure Decided (C : Contest) (p : Pool Op Op.Res State String (Except Err Subscription))
    (i : Nat) (sub : Subscription) : Prop where
  winner : ∃ th, p.threads[i]? = some th ∧ th.ended ≠ none ∧ th.prog = .ret (.ok sub) ∧
    th.call = sub.token
  taken : Taken C p.state sub
  others : ∀ (j : Nat) th, j ≠ i → p.threads[j]? = some th →
    AtWork C p.state th ∨ (th.ended ≠ none ∧ Lost th.prog)

/-! ## One statement -/

section Statements

variable {C : Contest} {s s' : State} {token : String} {sub : Subscription}

theorem exec_updateToken_eq (s : State) (newToken : String) (id : Nat) (oldToken : String) :
    exec s (.stmtUpdateToken newToken id oldToken) .ok
      = match s.tables.updateTokenQuery newToken id oldToken with
        | .ok (t, n) => some (.ok (.ok n), { s with tables := t })
        | .error e => some (.error e, s) := by
  simp only [exec]
  cases s.tables.updateTokenQuery newToken id oldToken with
  | error e => rfl
  | ok x => rfl

/-- Without a fault an insert is decided by the table. -/
theorem exec_create_eq (s : State) (k : Key) (token : String) (status : Status) :
    exec s (.stmtCreate k token status) .ok
      = match s.tables.createQuery k token status with
        | .ok t => some (.ok s.tables.nextSubscriptionID, { s with tables := t })
        | .error e => some (.error e, s) := by
  simp only [exec]
  cases s.tables.createQuery k token status with
  | error e => rfl
  | ok t => rfl

/-- The compare-and-swap of a contender while the contest is open: its token is
in. -/
theorem updateToken_wins (hquery : s.tables.getByEmailAndRepoQuery C.key = C.found)
    (hfree : ∀ row ∈ s.tables.subscriptions, row.token ∉ C.tokens) (hf : C.found = some sub)
    (htok : token ∈ C.tokens) (hfits : C.Fits)
    {r : (Op.stmtUpdateToken token sub.id sub.token).Res}
    (hx : exec s (.stmtUpdateToken token sub.id sub.token) .ok = some (r, s')) :
    r = .ok (.ok 1) ∧ Taken C s' { sub with token := token } ∧
      s'.tables.trackedRepositories = s.tables.trackedRepositories := by
  obtain ⟨hrow, hkey, _⟩ := Tables.getByEmailAndRepoQuery_some (hquery.trans hf)
  -- no row carries a token of the contest, so the unique key does not object
  have hunused : s.tables.tokenTaken sub.id token = false :=
    Tables.tokenTaken_eq_false.mpr (fun row hr _ he => hfree row hr (by rw [he]; exact htok))
  have hlen : token.length ≤ 64 := (Tables.fitsColumns_iff.mp (hfits token htok)).2.2.2
  rw [exec_updateToken_eq, Tables.updateTokenQuery, if_pos (by rw [hrow]; rfl), if_pos hlen,
    dif_pos hunused] at hx
  simp only [Option.some.injEq, Prod.mk.injEq] at hx
  obtain ⟨rfl, rfl⟩ := hx
  have hsub : (s.tables.setToken sub.id token hunused).subscriptions
      = Tables.rewriteRow sub.id (fun x => { x with token := token }) s.tables.subscriptions := rfl
  have hset : (s.tables.setToken sub.id token hunused).byID sub.id
      = some { sub with token := token } := by
    rw [Tables.byID_rewriteRow hsub (fun _ => rfl), hrow]
    simp
  refine ⟨rfl, ⟨?_, hkey, C.pending sub hf, htok, ?_, ?_⟩, rfl⟩
  · exact Tables.byID_mem hset
  · intro sub₀ hf₀
    rw [hf, Option.some.injEq] at hf₀
    rw [hf₀]
  · intro row hr hrt
    obtain ⟨x, hx, ⟨hid, rfl⟩ | ⟨_, rfl⟩⟩ := Tables.mem_rewriteRow hr
    · have hxs := Tables.byID_of_mem hx
      rw [hid, hrow, Option.some.injEq] at hxs
      rw [← hxs]
    · exact absurd hrt (hfree row hx)

/-- The compare-and-swap of a contender when another one has won: the token it
asks for is gone. -/
theorem updateToken_loses (ht : Taken C s sub) {sub₀ : Subscription} (hf : C.found = some sub₀)
    {r : (Op.stmtUpdateToken token sub₀.id sub₀.token).Res}
    (hx : exec s (.stmtUpdateToken token sub₀.id sub₀.token) .ok = some (r, s')) :
    r = .ok (.ok 0) ∧ s' = s := by
  have hrow : s.tables.byID sub₀.id = some sub := by
    rw [← ht.same sub₀ hf]
    exact Tables.byID_of_mem ht.stored
  have hne : sub.token ≠ sub₀.token := by
    intro he
    have hmem := Tables.byID_mem (Tables.getByEmailAndRepoQuery_some hf).1
    exact C.fresh sub₀ hmem (by rw [← he]; exact ht.drawn)
  rw [exec_updateToken_eq, Tables.updateTokenQuery, if_neg (by rw [hrow]; simpa using hne)] at hx
  simp only [Option.some.injEq, Prod.mk.injEq] at hx
  exact ⟨hx.1.symm, hx.2.symm⟩

/-- The insertion of a contender while the contest is open: its row is in. -/
theorem create_wins (hquery : s.tables.getByEmailAndRepoQuery C.key = C.found)
    (hfree : ∀ row ∈ s.tables.subscriptions, row.token ∉ C.tokens) (hf : C.found = none)
    (htrack : repoTracked s.tables.trackedRepositories C.ref.owner C.ref.name = true)
    (htok : token ∈ C.tokens) (hfits : C.Fits) {r : (Op.stmtCreate C.key token .pending).Res}
    (hx : exec s (.stmtCreate C.key token .pending) .ok = some (r, s')) :
    r = .ok s.tables.nextSubscriptionID ∧
      Taken C s' ⟨s.tables.nextSubscriptionID, C.addr, C.ref.owner, C.ref.name, token, .pending⟩ ∧
      s'.tables.trackedRepositories = s.tables.trackedRepositories := by
  have hunused : s.tables.tokenTaken s.tables.nextSubscriptionID token = false :=
    Tables.tokenTaken_eq_false.mpr (fun row hr _ he => hfree row hr (by rw [he]; exact htok))
  have hindex : s.tables.indexTaken s.tables.nextSubscriptionID C.key = false :=
    Tables.indexTaken_eq_false.mpr (fun row hr _ hk =>
      Tables.getByEmailAndRepoQuery_none.mp (hquery.trans hf) row hr hk)
  have hrepo : repoTracked s.tables.trackedRepositories C.key.owner C.key.name = true := htrack
  rw [exec_create_eq, Tables.createQuery, if_pos (hfits token htok), dif_pos hunused,
    dif_pos (fun _ => hindex), dif_pos hrepo] at hx
  simp only [Option.some.injEq, Prod.mk.injEq] at hx
  obtain ⟨rfl, rfl⟩ := hx
  refine ⟨rfl, ⟨?_, rfl, rfl, htok, ?_, ?_⟩, rfl⟩
  · exact List.mem_append_right _ (List.mem_singleton.mpr rfl)
  · intro sub₀ hf₀
    rw [hf] at hf₀
    cases hf₀
  · intro row hr hrt
    rcases List.mem_append.mp hr with hr | hr
    · exact absurd hrt (hfree row hr)
    · exact List.mem_singleton.mp hr

/-- The insertion of a contender when another one has won: the partial index
refuses it. -/
theorem create_loses (ht : Taken C s sub) (htok : token ∈ C.tokens) (hfits : C.Fits)
    (hne : token ≠ sub.token) {r : (Op.stmtCreate C.key token .pending).Res}
    (hx : exec s (.stmtCreate C.key token .pending) .ok = some (r, s')) :
    r = .error (.pq pgUniqueViolation emailRepoActiveIndex) ∧ s' = s := by
  have hunused : s.tables.tokenTaken s.tables.nextSubscriptionID token = false := by
    refine Tables.tokenTaken_eq_false.mpr (fun row hr _ he => hne ?_)
    rw [← ht.free row hr (by rw [he]; exact htok), he]
  have hindex : ¬ s.tables.indexTaken s.tables.nextSubscriptionID C.key = false := by
    intro hfree
    have hun := Tables.indexTaken_eq_false.mp hfree sub ht.stored
      (Tables.id_ne_next ht.stored) ht.key
    rw [ht.pending] at hun
    cases hun
  rw [exec_create_eq, Tables.createQuery, if_pos (hfits token htok), dif_pos hunused,
    dif_neg (fun h => hindex (h (by simp)))] at hx
  simp only [Option.some.injEq, Prod.mk.injEq] at hx
  exact ⟨hx.1.symm, hx.2.symm⟩

/-- `Upsert` makes sure that the repository is tracked and changes no
subscription. -/
theorem upsert_tracks {owner name : String} {r : (Op.stmtUpsert owner name).Res}
    (hx : exec s (.stmtUpsert owner name) .ok = some (r, s')) :
    r = .ok () ∧ s'.tables.subscriptions = s.tables.subscriptions ∧
      repoTracked s'.tables.trackedRepositories owner name = true := by
  have hs : some ((.ok () : Except Err Unit),
      ({ s with tables := s.tables.upsertQuery owner name } : State)) = some (r, s') := hx
  simp only [Option.some.injEq, Prod.mk.injEq] at hs
  obtain ⟨rfl, rfl⟩ := hs
  refine ⟨rfl, ?_, ?_⟩
  · show (s.tables.upsertQuery owner name).subscriptions = _
    unfold Tables.upsertQuery
    split <;> rfl
  · show repoTracked (s.tables.upsertQuery owner name).trackedRepositories owner name = true
    unfold Tables.upsertQuery
    split
    · next h => exact h
    · simp [repoTracked]

/-- One statement of a contender while nobody has won: it moves on, or it wins. -/
theorem Stage.race {o : Op} {k : o.Res → P (Except Err Subscription)} {r : o.Res}
    (h : Stage C s token (.op o k)) (htok : token ∈ C.tokens)
    (hquery : s.tables.getByEmailAndRepoQuery C.key = C.found)
    (hfree : ∀ row ∈ s.tables.subscriptions, row.token ∉ C.tokens)
    (hfits : C.Fits) (hx : exec s o .ok = some (r, s')) :
    (repoTracked s.tables.trackedRepositories C.ref.owner C.ref.name = true →
      repoTracked s'.tables.trackedRepositories C.ref.owner C.ref.name = true) ∧
    ((s'.tables.subscriptions = s.tables.subscriptions ∧ Stage C s' token (k r)) ∨
      ∃ sub, k r = .ret (.ok sub) ∧ sub.token = token ∧ Taken C s' sub) := by
  cases h with
  | refresh found won lost =>
    obtain ⟨rfl, ht, hrepos⟩ := updateToken_wins hquery hfree found htok hfits hx
    exact ⟨fun h => by rw [hrepos]; exact h, .inr ⟨_, won, rfl, ht⟩⟩
  | upsert found next inserts =>
    obtain ⟨rfl, hsubs, htrack⟩ := upsert_tracks hx
    refine ⟨fun _ => htrack, .inl ⟨hsubs, ?_⟩⟩
    rw [next]
    exact .create found htrack inserts
  | create found tracked inserts =>
    obtain ⟨rfl, ht, hrepos⟩ := create_wins hquery hfree found tracked htok hfits hx
    exact ⟨fun h => by rw [hrepos]; exact h, .inr ⟨_, inserts.won _, rfl, ht⟩⟩

/-- One statement of a contender when another one has won: it moves on, or it
loses and changes nothing. -/
theorem Stage.trail {o : Op} {k : o.Res → P (Except Err Subscription)} {r : o.Res}
    (h : Stage C s token (.op o k)) (htok : token ∈ C.tokens) (ht : Taken C s sub)
    (hfits : C.Fits) (hne : token ≠ sub.token) (hx : exec s o .ok = some (r, s')) :
    (repoTracked s.tables.trackedRepositories C.ref.owner C.ref.name = true →
      repoTracked s'.tables.trackedRepositories C.ref.owner C.ref.name = true) ∧
    s'.tables.subscriptions = s.tables.subscriptions ∧
    (Stage C s' token (k r) ∨ Lost (k r)) := by
  cases h with
  | refresh found won lost =>
    obtain ⟨rfl, rfl⟩ := updateToken_loses ht found hx
    exact ⟨fun h => h, rfl, .inr lost⟩
  | upsert found next inserts =>
    obtain ⟨rfl, hsubs, htrack⟩ := upsert_tracks hx
    refine ⟨fun _ => htrack, hsubs, .inl ?_⟩
    rw [next]
    exact .create found htrack inserts
  | create found tracked inserts =>
    obtain ⟨rfl, rfl⟩ := create_loses ht htok hfits hne hx
    exact ⟨fun h => h, rfl, .inr (inserts.lost _ rfl)⟩

/-- Nothing about a taken row changes while the subscriptions stay. -/
theorem Taken.of_subscriptions (h : Taken C s sub)
    (hs : s'.tables.subscriptions = s.tables.subscriptions) : Taken C s' sub :=
  ⟨by rw [hs]; exact h.stored, h.key, h.pending, h.drawn, h.same, by rw [hs]; exact h.free⟩

/-- The world leaves a taken row alone. -/
theorem Taken.aside (h : Taken C s sub) (ha : Aside C s s') : Taken C s' sub := by
  refine ⟨(ha.rows sub h.key).mpr h.stored, h.key, h.pending, h.drawn, h.same, ?_⟩
  intro row hr hrt
  by_cases hk : row.key = C.key
  · exact h.free row ((ha.rows row hk).mp hr) hrt
  · exact absurd hrt (ha.tokens row hr hk)

/-- The lookup finds the live row of its triple. -/
theorem query_eq_some_iff {t : Tables} {k : Key} {row : Subscription} :
    t.getByEmailAndRepoQuery k = some row ↔
      row ∈ t.subscriptions ∧ row.key = k ∧ row.status ≠ .unsubscribed := by
  constructor
  · intro h
    obtain ⟨hrow, hk, hlive⟩ := Tables.getByEmailAndRepoQuery_some h
    exact ⟨Tables.byID_mem hrow, hk, hlive⟩
  · rintro ⟨hmem, hk, hlive⟩
    cases hq : t.getByEmailAndRepoQuery k with
    | none => exact absurd (Tables.getByEmailAndRepoQuery_none.mp hq row hmem hk) hlive
    | some row' =>
      obtain ⟨hrow', hk', hlive'⟩ := Tables.getByEmailAndRepoQuery_some hq
      rw [t.liveUnique row' (Tables.byID_mem hrow') row hmem (by simpa using hlive')
        (by simpa using hlive) (hk'.trans hk.symm)]

/-- The world does not change what the lookup finds. -/
theorem query_aside (ha : Aside C s s') :
    s'.tables.getByEmailAndRepoQuery C.key = s.tables.getByEmailAndRepoQuery C.key := by
  refine Option.ext (fun row => ?_)
  rw [query_eq_some_iff, query_eq_some_iff]
  constructor
  · rintro ⟨hmem, hk, hlive⟩
    exact ⟨(ha.rows row hk).mp hmem, hk, hlive⟩
  · rintro ⟨hmem, hk, hlive⟩
    exact ⟨(ha.rows row hk).mpr hmem, hk, hlive⟩

end Statements

/-! ## One event -/

section Events

variable {C : Contest} {p p' : Pool Op Op.Res State String (Except Err Subscription)}
variable {i : Nat} {sub : Subscription}

/-- What a fair event on a contender does: an executed statement. -/
theorem fair_run {ch : Choice} (hfair : Fair C p (.run i ch))
    (hs : C.machine.step p (.run i ch) = some p') :
    ∃ th o k r s, p.threads[i]? = some th ∧ th.ended = none ∧ th.prog = .op o k ∧
      exec p.state o .ok = some (r, s) ∧
      p' = ⟨s, p.threads.set i (th.resume p.threads.length (k r))⟩ := by
  obtain ⟨th, o, k, r, s, hth, hend, hp, hx, rfl⟩ := Machine.step_run _ hs
  cases (show ch = .ok from hfair)
  exact ⟨th, o, k, r, s, hth, hend, hp, hx, rfl⟩

variable {th : Thread Op Op.Res String (Except Err Subscription)}

/-- A contender that moves on is at work. -/
theorem atWork_resume {s : State} {n : Nat} {q : P (Except Err Subscription)}
    (h : Stage C s th.call q) : AtWork C s (th.resume n q) := by
  refine ⟨?_, h⟩
  cases h with
  | refresh => rfl
  | upsert => rfl
  | create => rfl

/-- The threads after thread `i` has moved on. -/
theorem Open.run {ch : Choice} (h : Open C p) (hfits : C.Fits) (hcalls : p.calls = C.tokens)
    (hfair : Fair C p (.run i ch)) (hs : C.machine.step p (.run i ch) = some p') :
    (Open C p' ∧ p'.state.tables.subscriptions = p.state.tables.subscriptions) ∨
      ∃ sub, Decided C p' i sub := by
  obtain ⟨th, o, k, r, s, hth, hend, hp, hx, rfl⟩ := fair_run hfair hs
  have hmine : th.call ∈ C.tokens := by
    rw [← hcalls]
    exact List.mem_of_getElem? (Pool.calls_of_thread hth)
  have hstage := (h.atWork i th hth).2
  rw [hp] at hstage
  obtain ⟨htrack, hcase⟩ := hstage.race hmine h.query h.free hfits hx
  have hothers : ∀ (j : Nat) th', p.threads[j]? = some th' → AtWork C s th' :=
    fun j th' hth' => ⟨(h.atWork j th' hth').1, (h.atWork j th' hth').2.imp htrack⟩
  rcases hcase with ⟨hsubs, hnext⟩ | ⟨sub, hret, htok, htaken⟩
  · refine .inl ⟨⟨?_, by rw [hsubs]; exact h.free, ?_⟩, hsubs⟩
    · rw [← h.query, Tables.getByEmailAndRepoQuery, Tables.getByEmailAndRepoQuery, hsubs]
    · intro j th' hth'
      rcases getElem?_set_cases hth' with ⟨_, rfl⟩ | ⟨_, hold⟩
      · exact atWork_resume hnext
      · exact hothers j th' hold
  · refine .inr ⟨sub, ⟨_, List.getElem?_set_self (List.getElem?_eq_some_iff.mp hth).1, ?_, ?_, ?_⟩,
      htaken, ?_⟩
    · simp [Thread.resume, hret]
    · rw [Thread.resume_prog, hret]
    · rw [Thread.resume_call, htok]
    · intro j th' hji hth'
      rcases getElem?_set_cases hth' with ⟨hj, _⟩ | ⟨_, hold⟩
      · exact absurd hj hji
      · exact .inl (hothers j th' hold)

/-- Once a contender has won, no step changes that. -/
theorem Decided.run {j : Nat} {ch : Choice} (h : Decided C p i sub) (hfits : C.Fits)
    (hcalls : p.calls = C.tokens) (hfair : Fair C p (.run j ch))
    (hs : C.machine.step p (.run j ch) = some p') :
    Decided C p' i sub ∧ p'.state.tables.subscriptions = p.state.tables.subscriptions := by
  obtain ⟨thi, hthi, hendi, hreti, hcalli⟩ := h.winner
  have hkept := Machine.step_ended _ hs hthi hendi
  obtain ⟨th, o, k, r, s, hth, hend, hp, hx, rfl⟩ := fair_run hfair hs
  -- the winner has returned, so it is another contender that moves
  have hji : j ≠ i := by
    rintro rfl
    rw [hthi, Option.some.injEq] at hth
    rw [hth] at hendi
    exact hendi hend
  have hmine : th.call ∈ C.tokens := by
    rw [← hcalls]
    exact List.mem_of_getElem? (Pool.calls_of_thread hth)
  -- and its token is its own
  have hne : th.call ≠ sub.token := by
    intro he
    have hj := Pool.calls_of_thread hth
    have hi := Pool.calls_of_thread hthi
    rw [hcalls] at hj hi
    rw [hcalli, ← he] at hi
    exact hji ((List.getElem?_inj (List.getElem?_eq_some_iff.mp hj).1 C.distinct).mp
      (hj.trans hi.symm))
  have hstage : Stage C p.state th.call (.op o k) := by
    rcases h.others j th hji hth with hw | ⟨hended, _⟩
    · rw [← hp]
      exact hw.2
    · exact absurd hend hended
  obtain ⟨htrack, hsubs, hcase⟩ := hstage.trail hmine h.taken hfits hne hx
  refine ⟨⟨⟨thi, hkept, hendi, hreti, hcalli⟩, h.taken.of_subscriptions hsubs, ?_⟩, hsubs⟩
  intro j' th' hj' hth'
  rcases getElem?_set_cases hth' with ⟨_, rfl⟩ | ⟨_, hold⟩
  · rcases hcase with hnext | ⟨e, he, his⟩
    · exact .inl (atWork_resume hnext)
    · exact .inr ⟨by simp [Thread.resume, he], e, he, his⟩
  · rcases h.others j' th' hj' hold with hw | hlost
    · exact .inl ⟨hw.1, hw.2.imp htrack⟩
    · exact .inr hlost

/-- The state of a contest. -/
def Contested (C : Contest) (p : Pool Op Op.Res State String (Except Err Subscription)) : Prop :=
  p.calls = C.tokens ∧ (Open C p ∨ ∃ i sub, Decided C p i sub)

theorem Contested.start (C : Contest) : Contested C C.start := by
  refine ⟨?_, .inl ⟨rfl, C.fresh, fun i th hth => ?_⟩⟩
  · simp [Pool.calls, Contest.start, Function.comp_def]
  · rw [Contest.start, List.getElem?_map] at hth
    obtain ⟨token, _, rfl⟩ := Option.map_eq_some_iff.mp hth
    exact ⟨rfl, C.stage C.before token⟩

/-- Every fair event keeps the contest in one of its shapes, and a statement
that changes a row is the winner's. -/
theorem Contested.step {e : Event Choice String (State → Option State)} (h : Contested C p)
    (hfits : C.Fits) (hfair : Fair C p e) (hs : C.machine.step p e = some p') :
    Contested C p' ∧ ∀ j ch, e = .run j ch →
      p'.state.tables.subscriptions = p.state.tables.subscriptions ∨
        ∃ sub, Decided C p' j sub := by
  obtain ⟨hcalls, hcase⟩ := h
  have hcalls' : p'.calls = C.tokens := by
    rcases Machine.step_calls _ hs with hc | ⟨c, rfl, _⟩
    · rw [hc]; exact hcalls
    · exact hfair.elim
  cases e with
  | call c => exact hfair.elim
  | kill i => exact hfair.elim
  | run j ch =>
    rcases hcase with hopen | ⟨i, sub, hdec⟩
    · rcases hopen.run hfits hcalls hfair hs with ⟨hopen', hsubs⟩ | ⟨sub, hdec⟩
      · exact ⟨⟨hcalls', .inl hopen'⟩, fun _ _ _ => .inl hsubs⟩
      · refine ⟨⟨hcalls', .inr ⟨j, sub, hdec⟩⟩, fun j' ch' he => .inr ⟨sub, ?_⟩⟩
        cases he
        exact hdec
    · obtain ⟨hdec', hsubs⟩ := hdec.run hfits hcalls hfair hs
      exact ⟨⟨hcalls', .inr ⟨i, sub, hdec'⟩⟩, fun _ _ _ => .inl hsubs⟩
  | env f =>
    obtain ⟨s, henv, rfl⟩ := Machine.step_env _ hs
    have ha : Aside C p.state s := hfair s henv
    refine ⟨⟨hcalls', ?_⟩, fun j ch he => by cases he⟩
    rcases hcase with hopen | ⟨i, sub, hdec⟩
    · refine .inl ⟨(query_aside ha).trans hopen.query, fun row hr hrt => ?_, fun j th hth => ?_⟩
      · by_cases hk : row.key = C.key
        · exact hopen.free row ((ha.rows row hk).mp hr) hrt
        · exact ha.tokens row hr hk hrt
      · exact ⟨(hopen.atWork j th hth).1, (hopen.atWork j th hth).2.imp ha.tracked⟩
    · refine .inr ⟨i, sub, hdec.winner, hdec.taken.aside ha, fun j th hji hth => ?_⟩
      rcases hdec.others j th hji hth with hw | hlost
      · exact .inl ⟨hw.1, hw.2.imp ha.tracked⟩
      · exact .inr hlost

/-- In every run the contest is open or decided. -/
theorem contested_run {es : List (Event Choice String (State → Option State))} (hfits : C.Fits)
    (h : C.machine.Run (Fair C) C.start es p) : Contested C p :=
  h.invariant (Contested.start C) (fun _ _ _ hp hc hs => (hp.step hfits hc hs).1)

/-- A contender at work can execute its next statement. -/
theorem AtWork.moves (h : AtWork C p.state th) (hth : p.threads[i]? = some th) :
    ∃ p', C.machine.step p (.run i .ok) = some p' := by
  have hmove : ∀ {o : Op} {k : o.Res → P (Except Err Subscription)}, th.prog = .op o k →
      (∃ x, exec p.state o .ok = some x) → ∃ p', C.machine.step p (.run i .ok) = some p' := by
    rintro o k hp ⟨x, hx⟩
    have hx' : C.machine.exec p.state o .ok = some x := hx
    simp only [Machine.step, hth, h.1, hp, hx']
    exact ⟨_, rfl⟩
  obtain ⟨_, hstage⟩ := h
  generalize hq : th.prog = q at hstage
  cases hstage with
  | refresh =>
    refine hmove hq ?_
    rw [exec_updateToken_eq]
    split <;> exact ⟨_, rfl⟩
  | upsert => exact hmove hq ⟨_, rfl⟩
  | create =>
    refine hmove hq ?_
    rw [exec_create_eq]
    split <;> exact ⟨_, rfl⟩

/-- In every contest a contender that has not returned is at work. -/
theorem Contested.moves (h : Contested C p) (hth : p.threads[i]? = some th)
    (hend : th.ended = none) : ∃ p', C.machine.step p (.run i .ok) = some p' := by
  rcases h.2 with hopen | ⟨w, sub, hdec⟩
  · exact (hopen.atWork i th hth).moves hth
  · by_cases hiw : i = w
    · subst hiw
      obtain ⟨thi, hthi, hendi, _⟩ := hdec.winner
      rw [hth, Option.some.injEq] at hthi
      rw [← hthi] at hendi
      exact absurd hend hendi
    · rcases hdec.others i th hiw hth with hw | ⟨hended, _⟩
      · exact hw.moves hth
      · exact absurd hend hended

/-- What a contender that has returned keeps returning. -/
theorem returned_kept {q : Pool Op Op.Res State String (Except Err Subscription)}
    {es : List (Event Choice String (State → Option State))} (h : C.machine.Run (Fair C) q es p)
    (hth : q.threads[i]? = some th) (hend : th.ended ≠ none) : p.threads[i]? = some th :=
  h.invariant (J := fun p => p.threads[i]? = some th) hth
    (fun _ _ _ hp _ hs => Machine.step_ended _ hs hp hend)

/-- Only one call wins. -/
theorem Decided.unique {j : Nat} {sub' : Subscription} (h : Decided C p i sub)
    (hth : p.threads[j]? = some th) (hend : th.ended ≠ none) (hret : th.prog = .ret (.ok sub')) :
    j = i := by
  by_contra hji
  rcases h.others j th hji hth with ⟨hnone, _⟩ | ⟨_, e, he, _⟩
  · exact hend hnone
  · rw [hret] at he
    cases he

end Events

/-- A fair contest whose values fit their columns: a contender that has not returned can
execute its next statement, and when all have returned, exactly one of them, call `i`, has
returned a subscription. It is the stored row of the triple, under the token
that call drew. Every other call has returned an error that is
`ErrAlreadyExists`, and no statement of it has changed the subscriptions. -/
theorem one_contender_reserves (C : Contest) (hsome : C.tokens ≠ []) (hfits : C.Fits)
    (es : List (Event Choice String (State → Option State)))
    (p : Pool Op Op.Res State String (Except Err Subscription))
    (h : C.machine.Run (Fair C) C.start es p) :
    p.calls = C.tokens ∧
    (∀ (i : Nat) th, p.threads[i]? = some th → th.ended = none →
      ∃ p', C.machine.step p (.run i .ok) = some p') ∧
    ((∀ th ∈ p.threads, th.ended ≠ none) →
    ∃ i sub, (∃ th, p.threads[i]? = some th ∧ th.prog = .ret (.ok sub) ∧ th.call = sub.token) ∧
      p.state.tables.byID sub.id = some sub ∧ sub.key = C.key ∧ sub.status = .pending ∧
      ∀ j, j ≠ i →
        (∀ th, p.threads[j]? = some th →
          ∃ e, th.prog = .ret (.error e) ∧ e.is .errAlreadyExists = true) ∧
        ∀ es₁ ch es₂ q q', es = es₁ ++ .run j ch :: es₂ → C.machine.steps C.start es₁ = some q →
          C.machine.step q (.run j ch) = some q' →
          q'.state.tables.subscriptions = q.state.tables.subscriptions) := by
  have hcontest := contested_run hfits h
  refine ⟨hcontest.1, fun i th hth hend => hcontest.moves hth hend, fun hall => ?_⟩
  obtain ⟨hcalls, hopen | ⟨i, sub, hdec⟩⟩ := hcontest
  · -- somebody is still at work
    obtain ⟨token, tokens, htokens⟩ := List.exists_cons_of_ne_nil hsome
    have hlen : 0 < p.threads.length := by
      have hl := congrArg List.length hcalls
      rw [Pool.calls, List.length_map, htokens, List.length_cons] at hl
      omega
    have hth := List.getElem?_eq_getElem hlen
    exact absurd (hopen.atWork 0 _ hth).1 (hall _ (List.getElem_mem hlen))
  · obtain ⟨thi, hthi, hendi, hreti, hcalli⟩ := hdec.winner
    refine ⟨i, sub, ⟨thi, hthi, hreti, hcalli⟩, Tables.byID_of_mem hdec.taken.stored,
      hdec.taken.key, hdec.taken.pending, fun j hji => ⟨fun th hth => ?_, ?_⟩⟩
    · rcases hdec.others j th hji hth with ⟨hnone, _⟩ | ⟨_, hlost⟩
      · exact absurd hnone (hall th (List.mem_of_getElem? hth))
      · exact hlost
    · intro es₁ ch es₂ q q' hes hq hs
      -- the event in question is one of the run's, and `q` is where it happened
      obtain ⟨q₁, q₂, hrun₁, hfair, hstep, hlast⟩ := h.cut hes
      have hq₁ := hrun₁.steps_eq
      rw [hq, Option.some.injEq] at hq₁
      subst hq₁
      rw [hs, Option.some.injEq] at hstep
      subst hstep
      obtain ⟨_, hchange⟩ := (contested_run hfits hrun₁).step hfits hfair hs
      rcases hchange j ch rfl with hsame | ⟨sub', hdec'⟩
      · exact hsame
      · obtain ⟨thj, hthj, hendj, hretj, _⟩ := hdec'.winner
        exact absurd (hdec.unique (returned_kept hlast hthj hendj) hendj hretj) hji

/-- Two requests of a new subscriber. -/
def newcomer (addr : String) : Contest where
  addr := addr
  ref := ⟨"o", "n"⟩
  tokens := ["t1", "t2"]
  before := .init
  distinct := by decide
  fresh row hrow := absurd hrow List.not_mem_nil
  pending sub hsub := absurd hsub (Option.some_ne_none sub).symm

/-- With a short address. -/
def sampleContest : Contest := newcomer "a@b.c"

/-- Both upsert the repository; the second one is the first to insert. -/
def sampleRace : List (Event Choice String (State → Option State)) :=
  [.run 0 .ok, .run 1 .ok, .run 1 .ok, .run 0 .ok]

/-- The event is a statement of a contender that is executed. -/
def executed? (_ : Pool Op Op.Res State String (Except Err Subscription)) :
    Event Choice String (State → Option State) → Bool
  | .run _ ch => decide (ch = .ok)
  | _ => false

theorem fair_of_executed {C : Contest} {p : Pool Op Op.Res State String (Except Err Subscription)}
    {e : Event Choice String (State → Option State)} (h : executed? p e = true) : Fair C p e := by
  cases e with
  | run i ch => exact (of_decide_eq_true h : ch = .ok)
  | _ => cases h

/-- The second of two contenders may be the one that reserves. -/
theorem one_contender_reserves_second :
    ∃ p sub, sampleContest.machine.Run (Fair sampleContest) sampleContest.start sampleRace p ∧
      p.state.tables.byID sub.id = some sub ∧ sub.token = "t2" ∧
      ∃ th ∈ p.threads, th.prog = .ret (.ok sub) := by
  have hrun : (sampleContest.machine.stepsWhere executed? sampleContest.start sampleRace).any
      (fun p => decide (∀ th ∈ p.threads, th.ended ≠ none) &&
        decide (p.state.tables.subscriptions.map Subscription.token = ["t2"])) = true := by
    decide
  obtain ⟨p, hp, hall⟩ := (Option.any_eq_true _ _).mp hrun
  simp only [Bool.and_eq_true, decide_eq_true_eq] at hall
  have h : sampleContest.machine.Run (Fair sampleContest) sampleContest.start sampleRace p :=
    Machine.Run.of_stepsWhere (fun _ _ he => fair_of_executed he) hp
  have hfits : sampleContest.Fits := by
    unfold Contest.Fits
    decide
  obtain ⟨_, _, hend⟩ := one_contender_reserves sampleContest (by decide) hfits sampleRace p h
  obtain ⟨i, sub, ⟨th, hth, hret, _⟩, hrow, _⟩ := hend hall.1
  have htok : sub.token ∈ ["t2"] := by
    rw [← hall.2]
    exact List.mem_map_of_mem (Tables.byID_mem hrow)
  exact ⟨p, sub, h, hrow, List.mem_singleton.mp htok, th, List.mem_of_getElem? hth, hret⟩

/-- Postgres refuses every insertion of an address that is longer than its column. -/
theorem exec_create_long {k : Key} (hlong : 255 < k.email.length) (s : State) (token : String) :
    exec s (.stmtCreate k token .pending) .ok
      = some (.error (.pq pgStringDataRightTruncation ""), s) := by
  have hfits : ¬ Tables.fitsColumns k token = true :=
    fun h => absurd (Tables.fitsColumns_iff.mp h).1 (Nat.not_le.mpr hlong)
  rw [exec_create_eq, Tables.createQuery, if_neg hfits]

/-- With a long address both requests fail, and for another reason than a subscription that
is there. -/
theorem newcomer_refused {addr : String} (hlong : 255 < addr.length) :
    ∃ p, (newcomer addr).machine.Run (Fair (newcomer addr)) (newcomer addr).start sampleRace p ∧
      p.calls = (newcomer addr).tokens ∧ p.state.tables.subscriptions = [] ∧
      ∀ th ∈ p.threads, th.ended ≠ none ∧
        ∃ e, th.prog = .ret (.error e) ∧ e.is .errAlreadyExists = false := by
  have hfair : ∀ p i, Fair (newcomer addr) p (.run i .ok) := fun _ _ => rfl
  have hcreate := exec_create_long (k := (newcomer addr).key) hlong
  -- both upsert, then both try to insert
  have h₀ : (newcomer addr).machine.Run (Fair (newcomer addr)) (newcomer addr).start []
      (newcomer addr).start := .nil
  have h₁ := h₀.snoc (hfair _ 0) rfl
  have h₂ := h₁.snoc (hfair _ 1) rfl
  have h₃ := h₂.snoc (hfair _ 1)
    ((newcomer addr).machine.step_run_of_exec rfl rfl rfl (hcreate _ _))
  have h₄ := h₃.snoc (hfair _ 0)
    ((newcomer addr).machine.step_run_of_exec rfl rfl rfl (hcreate _ _))
  refine ⟨_, h₄, rfl, rfl, fun th hth => ?_⟩
  rcases List.mem_pair.mp hth with rfl | rfl
  · exact ⟨nofun, _, rfl, rfl⟩
  · exact ⟨nofun, _, rfl, rfl⟩

/-- An address of 256 characters. -/
def longAddress : List Char := List.replicate 252 'a' ++ ['@', 'b', '.', 'c']

/-- `NewAddress` accepts the address as it is, every statement of both contenders is
executed and both return, but neither has reserved anything and neither error is
`ErrAlreadyExists`: the column is too short for the address. -/
theorem none_reserves_long_address :
    let addr := String.ofList longAddress
    Email.newAddress Email.noLiterals (utf8 addr) = some (utf8 addr) ∧
      ∃ p, (newcomer addr).machine.Run (Fair (newcomer addr)) (newcomer addr).start sampleRace p ∧
        p.calls = (newcomer addr).tokens ∧ p.state.tables.subscriptions = [] ∧
        ∀ th ∈ p.threads, th.ended ≠ none ∧
          ∃ e, th.prog = .ret (.error e) ∧ e.is .errAlreadyExists = false := by
  intro addr
  have hparse : Text.Mailbox.parseAddress Email.noLiterals longAddress = some longAddress := by
    decide +kernel
  have hlower : longAddress.map Text.Unicode.toLower = longAddress := by decide +kernel
  have hlong : 255 < addr.length := by
    rw [String.length_ofList]
    decide +kernel
  refine ⟨?_, newcomer_refused hlong⟩
  rw [utf8_ofList, Email.newAddress_encode, hparse, Option.map_some, hlower]

end ReleaseNotifier
