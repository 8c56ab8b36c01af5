/-
Does the link of a successful `Subscribe` work?

Several sagas may refer to one row, because a second `Subscribe` refreshes a
pending row in place. The `Cancel` of an older saga is `WHERE id = $2` and asks
for no token, so it withdraws the row under the token of the retry that has
succeeded in the meantime. An `Unsubscribe` with an older token and a refresh
that overlaps with the request whose token it replaces do the same.

`LinksUndisturbed` asks that a row is withdrawn only while it carries the token
it is withdrawn for, and that a token is replaced on a live row only, by a
`Subscribe` made after the request that issued the token has ended. Then the
link works. `Sound` is what carries the argument: the row carries the token,
and if it is withdrawn there is an `Unsubscribe` with that token or a saga with
that token to blame. The saga cannot be, since tokens are drawn once and the
request's own saga is completed.
-/
import ReleaseNotifier.Ready
import ReleaseNotifier.Calls

set_option autoImplicit false

namespace ReleaseNotifier

open Conc

/-! ## The condition -/

/-- The token on whose behalf a status is written. -/
def Origin.token : Origin → String
  | .confirm token => token
  | .unsubscribe token => token
  | .compensation _ token => token
  | .rollback token => token

/-- The row an operation withdraws, and the token it does so for. -/
def Op.withdrawsFor? : Op → Option (Nat × String)
  | .stmtUpdateStatus origin .unsubscribed id => some (id, origin.token)
  | _ => none

/-- The row an operation refreshes, and the token it replaces. -/
def Op.replaces? : Op → Option (Nat × String)
  | .stmtUpdateToken _ id oldToken => some (id, oldToken)
  | _ => none

/-- A row is withdrawn only while it carries the token it is withdrawn for. A
token is replaced on a live row only, and by a call made after the request that
drew the token has ended. Sagas are started by `Subscribe` only. -/
def LinksUndisturbed (p : Pool Op Op.Res State Call Ret) : Event Choice Call WorldEvent → Prop
  | .run i _ => ∀ x ∈ p.due? i,
      (∀ w ∈ x.2.withdrawsFor?, ∀ row ∈ p.state.tables.byID w.1, row.token = w.2) ∧
      (∀ w ∈ x.2.replaces?, (∀ row ∈ p.state.tables.byID w.1, row.status ≠ .unsubscribed) ∧
        ∀ th ∈ p.threads, th.call.token? = some w.2 → th.ended.any (fun n => decide (n ≤ i)) = true)
  | .call (.startAndWait _ _ _) => False
  | _ => True

instance (p : Pool Op Op.Res State Call Ret) : DecidablePred (LinksUndisturbed p)
  | .run i _ => inferInstanceAs (Decidable (∀ x ∈ p.due? i,
      (∀ w ∈ x.2.withdrawsFor?, ∀ row ∈ p.state.tables.byID w.1, row.token = w.2) ∧
      (∀ w ∈ x.2.replaces?, (∀ row ∈ p.state.tables.byID w.1, row.status ≠ .unsubscribed) ∧
        ∀ th ∈ p.threads, th.call.token? = some w.2 →
          th.ended.any (fun n => decide (n ≤ i)) = true)))
  | .call (.startAndWait _ _ _) => isFalse id
  | .call (.subscribe _ _ _ _) => isTrue trivial
  | .call (.confirm _) => isTrue trivial
  | .call (.unsubscribe _) => isTrue trivial
  | .call (.handleReply _) => isTrue trivial
  | .call .reap => isTrue trivial
  | .kill _ => isTrue trivial
  | .env _ => isTrue trivial

/-! ## What the argument is about -/

/-- A saga with this token is being undone. -/
def Blamed (token : String) (s : State) : Prop :=
  ∃ x inst, s.sagas.get x = some inst ∧ inst.data.token = token ∧ inst.state.Undoing

/-- Row `id` carries the token, and it is withdrawn only if an `Unsubscribe`
with the token was called or a saga with the token is being undone. -/
def Sound (token : String) (id : Nat) (s : State) : Prop :=
  ∃ row, s.tables.byID id = some row ∧ row.token = token ∧
    (row.status = .unsubscribed → .unsubscribe token ∈ s.calls ∨ Blamed token s)

/-- What holds between any two operations: sagas belong to `Subscribe` calls,
and carry the token of their call. -/
structure LinkInv (s : State) : Prop where
  subscribed : ∀ c ∈ s.calls, ∀ ctx data x, c ≠ .startAndWait ctx data x
  sagas : ∀ {x inst}, s.sagas.get x = some inst →
    ∃ c ∈ s.calls, c.sagaID? = some x ∧ c.token? = some inst.data.token

/-- What is known of an operation under the condition. -/
structure Tied (D : Deps) (c : Call) (o : Op) (r : o.Res) (s s' : State) : Prop where
  recorded : Recorded D c o r s s'
  made : c ∈ s.calls
  withdrawn : ∀ w ∈ o.withdrawsFor?, ∀ row ∈ s.tables.byID w.1, row.token = w.2
  replaced : ∀ w ∈ o.replaces?, ∀ row ∈ s.tables.byID w.1, row.status ≠ .unsubscribed

/-- A call counts on the others to keep the row it has reserved sound. -/
def linkContract : Contract Op Op.Res State Call where
  inv := LinkInv
  rely c _ a b := Evolves a b ∧ ∀ token id, c.token? = some token → Sound token id a →
    Sound token id b
  guar _ _ _ _ _ := True

/-- What a call that returned nil leaves behind: its saga, and a sound row. -/
def Linked (c : Call) (token : String) (s : State) : Prop :=
  ∃ x inst, c.sagaID? = some x ∧ s.sagas.get x = some inst ∧
    Sound token inst.data.subscriptionID s

/-- What a call establishes when it returns. -/
def LinkReturned (c : Call) (ret : Ret) (s : State) : Prop :=
  ∀ token, c.token? = some token → ret = .error none → Linked c token s

/-! ## One operation -/

section Steps

variable {D : Deps} {c : Call} {s s' : State} {o : Op} {r : o.Res} {token : String} {id : Nat}

theorem Blamed.evolves (h : Blamed token s) (he : Evolves s s') : Blamed token s' := by
  obtain ⟨x, inst, hx, htok, hu⟩ := h
  obtain ⟨inst', hx', hdata, _, hfol⟩ := he.sagas hx
  exact ⟨x, inst', hx', by rw [hdata]; exact htok, hfol.undoing hu⟩

/-- A step that does not touch the row keeps it sound. -/
theorem Sound.evolves (h : Sound token id s) (he : Evolves s s')
    (hrow : s'.tables.byID id = s.tables.byID id) : Sound token id s' := by
  obtain ⟨row, hr, htok, hst⟩ := h
  refine ⟨row, by rw [hrow]; exact hr, htok, fun hun => ?_⟩
  rcases hst hun with hc | hb
  · exact .inl (he.calls _ hc)
  · exact .inr (hb.evolves he)

/-- A withdrawal for this token is an `Unsubscribe`'s or a saga's, if it is not
the rollback of the call that drew the token. -/
theorem Tied.blame {origin : Origin} {status : Status}
    {r : (Op.stmtUpdateStatus origin status id).Res}
    (h : Tied D c (.stmtUpdateStatus origin status id) r s s') (htok : origin.token = token)
    (hun : status = .unsubscribed) (hroll : origin ≠ .rollback token) :
    .unsubscribe token ∈ s.calls ∨ Blamed token s := by
  obtain ⟨ch, hk⟩ := h.recorded
  have hready := hk.ready
  cases origin with
  | confirm t =>
    -- `Confirm` only ever writes the active status
    have hact : status = .active := hready.1
    rw [hact] at hun
    cases hun
  | unsubscribe t =>
    have ht : t = token := htok
    subst ht
    have hc : c = .unsubscribe t := hready.2
    exact .inl (hc ▸ h.made)
  | compensation x t =>
    have ht : t = token := htok
    subst ht
    -- the saga on whose behalf the row is withdrawn is being undone, and it carries the token
    obtain ⟨_, inst, hx, _, hdata, hu⟩ := hready
    exact .inr ⟨x, inst, hx, hdata, hu⟩
  | rollback t =>
    have ht : t = token := htok
    subst ht
    exact absurd rfl hroll

/-- An operation keeps a row sound unless it replaces the token or is the
rollback of the call that drew it. -/
theorem Sound.step (h : Sound token id s) (hk : Tied D c o r s s')
    (hrep : o.replaces? ≠ some (id, token))
    (hroll : ∀ status id', o ≠ .stmtUpdateStatus (.rollback token) status id') :
    Sound token id s' := by
  obtain ⟨row, hrow, htok, hst⟩ := h
  obtain ⟨ch, hx⟩ := hk.recorded
  have he := exec_evolves hx.exec
  obtain ⟨row', hrow', hchange⟩ := (exec_rows hx.exec).row hrow
  -- an excuse for a withdrawn row does not go away: calls and sagas are only ever added
  have hblame : .unsubscribe token ∈ s.calls ∨ Blamed token s →
      .unsubscribe token ∈ s'.calls ∨ Blamed token s' := by
    rintro (hc | hb)
    · exact .inl (he.calls _ hc)
    · exact .inr (hb.evolves he)
  refine ⟨row', hrow', ?_⟩
  cases hchange with
  | same eq => rw [eq]; exact ⟨htok, fun hun => hblame (hst hun)⟩
  | @status origin status eq =>
    rw [eq]
    refine ⟨htok, fun hun => hblame ?_⟩
    have hun' : status = .unsubscribed := hun
    -- a row is withdrawn for the token it carries, so the writer acts for this token
    have horigin : origin.token = token := by
      rw [← htok]
      refine (hk.withdrawn (id, origin.token) ?_ row hrow).symm
      rw [hun']
      rfl
    exact hk.blame horigin hun' (fun h => hroll status id (by rw [h]))
  | token old eq =>
    rw [← old, htok] at hrep
    exact absurd rfl hrep

/-- The saga data of a `Subscribe` carries the token it drew. -/
theorem OwnData.token_eq {data : SubscriptionData} (h : OwnData D c s data)
    (hc : ∀ ctx data x, c ≠ .startAndWait ctx data x) : c.token? = some data.token := by
  cases c with
  | startAndWait ctx own x => exact absurd rfl (hc ctx own x)
  | subscribe ctx rawEmail rawRepo draws => exact h.1
  | _ => exact h.elim

/-- Only `sagaCreate` adds a saga, and it is the call's own. -/
theorem LinkInv.step (h : LinkInv s) (hk : Tied D c o r s s') : LinkInv s' := by
  obtain ⟨ch, hx⟩ := hk.recorded
  have hcalls := (exec_frame hx.exec).calls
  refine ⟨by rw [hcalls]; exact h.subscribed, fun {x inst'} hx' => ?_⟩
  rw [hcalls]
  -- an old saga keeps its data; a new one was made by the call that is acting
  cases hget : s.sagas.get x with
  | some inst =>
    obtain ⟨i, hi, hdata, _⟩ := (exec_sagas hx.exec).follows hget
    rw [hx', Option.some.injEq] at hi
    rw [hi, hdata]
    exact h.sagas hget
  | none =>
    obtain ⟨timeout, rfl, _⟩ := (exec_sagas hx.exec).created hget hx'
    obtain ⟨hid, hown, _⟩ := hx.ready
    exact ⟨c, hk.made, hid, OwnData.token_eq hown (h.subscribed c hk.made)⟩

end Steps

theorem link_annotates (D : Deps) : Annotates (Tied D) linkContract (fun _ _ _ => True) where
  keeps := fun hinv _ hk => ⟨LinkInv.step hinv hk, trivial⟩
  stable := fun _ _ _ _ => trivial

/-! ## The programs -/

section Programs

variable {D : Deps} {c : Call} {s : State} {token : String}

/-- A `Subscribe` reserves a sound row: the one it has just created, or a live
one that it has given its token. -/
theorem link_reserving {k : Key} {draw : Except Fault String} (hdraw : draw = .ok token) :
    Reserving (Tied D) linkContract (fun _ _ _ => True) c k draw (fun _ _ => True)
      (Sound token) where
  annotates := link_annotates D
  executes := fun hk => by
    obtain ⟨ch, hx⟩ := hk.recorded
    exact ⟨ch, hx.exec⟩
  lookup := fun _ => trivial
  upsert := fun _ => trivial
  create := fun _ _ _ => trivial
  refresh := fun _ _ => trivial
  found := fun _ _ _ => trivial
  held := fun _ _ => trivial
  refreshed := by
    rintro new id old n a b hnew _ hk
    rw [hdraw, Except.ok.injEq] at hnew
    subst hnew
    obtain ⟨ch, hx⟩ := hk.recorded
    rcases exec_updateToken hx.exec with ⟨_, e, he⟩ | ⟨t, m, ht, rfl, hr⟩
    · cases he
    · have hm : m = n + 1 := by
        rcases hr with hr | ⟨f, hr⟩ | ⟨f, hr⟩
        · cases hr; rfl
        · cases hr
        · cases hr
      rcases Tables.updateTokenQuery_ok ht with ⟨hzero, _⟩ | ⟨_, row, hrow, _, hrows, _⟩
      · omega
      · refine ⟨{ row with token := token }, ?_, rfl, fun hun => ?_⟩
        · show t.byID id = _
          rw [hrows, hrow]
          simp
        · -- a token is only written over in a live row
          exact absurd hun (hk.replaced (id, old) rfl row hrow)
  created := by
    rintro new n a b hnew hk
    rw [hdraw, Except.ok.injEq] at hnew
    subst hnew
    obtain ⟨ch, hx⟩ := hk.recorded
    rcases exec_create hx.exec with ⟨_, e, he⟩ | ⟨t, ht, rfl, hr | ⟨f, hr⟩⟩
    · cases he
    · cases hr
      refine ⟨a.tables.newRow k token .pending, by simp [(Tables.createQuery_ok ht).1], rfl, ?_⟩
      -- a new row is pending
      intro hun
      cases hun
    · cases hr

/-- The saga and the row, from the creation of the saga on. -/
def Underway (token x : String) (data : SubscriptionData) (s : State) : Prop :=
  Sound token data.subscriptionID s ∧ ∃ inst, s.sagas.get x = some inst ∧ inst.data = data

variable {data : SubscriptionData}

theorem Underway.linked {x : String} (hid : c.sagaID? = some x) (h : Underway token x data s) :
    Linked c token s := by
  obtain ⟨hsound, inst, hx, hdata⟩ := h
  exact ⟨x, inst, hid, hx, by rw [hdata]; exact hsound⟩

/-- What `StartAndWait` does once its saga is created neither rolls back nor
replaces a token. -/
theorem follows_link {α : Type} {p : P α} {x : String} (hp : p.Uses (fun o => o.follows = true))
    (htok : c.token? = some token) (h : Underway token x data s) :
    Safe (Tied D) linkContract c (fun _ b => Underway token x data b) p s := by
  refine (link_annotates D).uses_frame (Underway token x data) hp h ?_ ?_
  · rintro o a b ⟨hsound, hsaga⟩ ⟨he, hrely⟩
    exact ⟨hrely token _ htok hsound, saga_stable a b hsaga he⟩
  · rintro o r a b ho ⟨hsound, hsaga⟩ hk
    obtain ⟨ch, hx⟩ := hk.recorded
    refine ⟨trivial, hsound.step hk ?_ ?_, saga_stable a b hsaga (exec_evolves hx.exec)⟩
    · cases o with
      | stmtUpdateToken => cases ho
      | _ => simp [Op.replaces?]
    · rintro status id' rfl
      cases ho

/-- Nil means that the link of the mail still finds its row. -/
theorem startAndWait_link {ctx : Context} {x : String} (hid : c.sagaID? = some x)
    (htok : c.token? = some token) (h : Sound token data.subscriptionID s) :
    Safe (Tied D) linkContract c (fun res b => res = none → Linked c token b)
      (startAndWait D ctx data x) s := by
  have hcreate : Safe (Tied D) linkContract c
      (fun res b => res = none → Underway token x data b)
      (SagaStore.create x data D.timeout) s := by
    refine (link_annotates D).op (Sound token data.subscriptionID)
      (fun a b hq hrely => hrely.2 token _ htok hq) trivial h ?_
    rintro a r b _ hsound hk
    refine Safe.ret (fun hres => ⟨hsound.step hk (by simp [Op.replaces?]) (by simp), ?_⟩)
    obtain ⟨ch, hx⟩ := hk.recorded
    rcases exec_sagaCreate hx.exec with ⟨_, e, rfl⟩ | ⟨hnone, rfl⟩
    · cases hres
    · exact ⟨⟨x, .awaitingConfirmation, data, a.now + D.timeout⟩,
        by simp [SagaTable.get_insert], rfl⟩
  refine Safe.bind hcreate (fun res b hres => ?_)
  cases res with
  | some err =>
    -- the rollback comes with an error, so nothing is promised of the row it withdraws
    have hcancel : Safe (Tied D) linkContract c (fun _ _ => True)
        (cancel (.rollback data.token) data.subscriptionID) b :=
      (link_annotates D).any (fun _ => trivial) (fun _ _ => trivial)
    exact Safe.bind hcancel (fun _ _ _ => Safe.ret (fun hn => by cases hn))
  | none =>
    -- all that follows only sends, waits and moves the saga
    exact (follows_link registered_uses htok (hres rfl)).mono (fun _ _ hu _ => hu.linked hid)

theorem subscribe_link {ctx : Context} {rawEmail rawRepo : String} {draws : Draws}
    (hc : c = .subscribe ctx rawEmail rawRepo draws) (htok : c.token? = some token) :
    Safe (Tied D) linkContract c (fun res b => res = none → Linked c token b)
      (subscribe D ctx rawEmail rawRepo draws) s := by
  have hdraw : draws.token = .ok token := by
    rw [hc] at htok
    obtain ⟨tok, sid⟩ := draws
    cases tok with
    | error f => cases htok
    | ok t => cases htok; rfl
  refine subscribe_rule (link_annotates D) (fun _ _ _ => trivial)
    (fun _ _ _ => link_reserving hdraw) ?_
  intro sub ref s hsound _
  exact startAndWait_link (by rw [hc]; rfl) htok hsound

/-- Only `Subscribe` hands out links. -/
theorem program_link (D : Deps) (c : Call) (s : State) :
    Safe (Tied D) linkContract c (LinkReturned c) (program D c) s := by
  cases htok : c.token? with
  | none =>
    refine (link_annotates D).any (fun _ => trivial) (fun ret b token ht => ?_)
    rw [htok] at ht
    cases ht
  | some token =>
    cases c with
    | subscribe ctx rawEmail rawRepo draws =>
      refine Safe.bind (subscribe_link rfl htok) (fun res b hb => Safe.ret ?_)
      intro token' ht hret
      rw [htok, Option.some.injEq] at ht
      subst ht
      exact hb (by simpa using hret)
    | _ => cases htok

end Programs

/-! ## Every run -/

section Runs

variable {D : Deps} {p : Pool Op Op.Res State Call Ret} {i : Nat}
variable {th : Thread Op Op.Res Call Ret} {o : Op} {k : o.Res → P Ret}

theorem LinksUndisturbed.tied {ch : Choice} {r : o.Res} {s : State}
    (h : LinksUndisturbed p (.run i ch)) (hsafe : MonolithSafe D p) (hreg : Registered p)
    (hth : p.threads[i]? = some th) (hend : th.ended = none) (hp : th.prog = .op o k)
    (hx : exec p.state o ch = some (r, s)) : Tied D th.call o r p.state s := by
  obtain ⟨hwith, hrep⟩ := h _ (Pool.due?_of_op hth hend hp)
  exact ⟨⟨ch, hsafe.known hth hend hp hx⟩, hreg.thread_mem hth, hwith,
    fun w hw => (hrep w hw).1⟩

/-- The rollback of a token is issued by the call that drew it. -/
theorem Tied.rollback {c : Call} {s s' : State} {r : o.Res} (hk : Tied D c o r s s')
    (hinv : LinkInv s) {token : String} {status : Status} {id : Nat}
    (ho : o = .stmtUpdateStatus (.rollback token) status id) : c.token? = some token := by
  subst ho
  obtain ⟨ch, hx⟩ := hk.recorded
  obtain ⟨_, data, hown, htok, _⟩ := hx.ready
  rw [← htok]
  exact OwnData.token_eq hown (hinv.subscribed c hk.made)

/-- Who disturbs a link is excluded by the condition or is the call itself. -/
theorem link_respects (D : Deps) :
    Respects (monolith D)
      (fun p e => (LinksUndisturbed p e ∧ MonolithSafe D p) ∧ Registered p)
      (Tied D) linkContract LinkReturned Anything := by
  -- a step that leaves the subscriptions alone keeps every row sound
  have hquiet : ∀ {th : Thread Op Op.Res Call Ret} {s s' : State}, Evolves s s' →
      s'.tables = s.tables → Stands linkContract Anything th s s' :=
    fun he ht => ⟨fun _ _ => ⟨he, fun _ _ _ hs => hs.evolves he (by rw [ht])⟩,
      fun _ _ _ => trivial⟩
  refine ⟨fun _ _ _ _ _ => trivial, ?_, ?_, ?_, ?_⟩
  · rintro p c s ⟨⟨hcond, _⟩, _⟩ hp hent
    have hs := (enter_eq hent).2
    have hinv : LinkInv s := by
      subst hs
      refine ⟨fun c' hc' => ?_, fun hx => ?_⟩
      · rcases List.mem_cons.mp hc' with rfl | hold
        · rintro ctx data x rfl
          exact hcond
        · exact hp.1.subscribed c' hold
      · obtain ⟨c', hc', hid, htok⟩ := hp.1.sagas hx
        exact ⟨c', List.mem_cons_of_mem _ hc', hid, htok⟩
    exact ⟨hinv, program_link D c s, fun _ _ _ => hquiet (enter_evolves hent) (by rw [hs])⟩
  · rintro p i ch th o k r s ⟨⟨hcond, hsafe⟩, hreg⟩ _ hth hend hp hx
    exact hcond.tied hsafe hreg hth hend hp hx
  · rintro p i ch th o k r s ⟨⟨hcond, hsafe⟩, hreg⟩ hpool hth hend hp hx _ _ j th' hji hth'
    have hk := hcond.tied hsafe hreg hth hend hp hx
    refine ⟨fun o' ho' => ⟨exec_evolves hx, fun token id htok hs => ?_⟩, fun _ _ _ => trivial⟩
    refine hs.step hk (fun hrep => ?_) (fun status id' ho => ?_)
    · -- the request that drew the token is still running
      have hended := ((hcond _ (Pool.due?_of_op hth hend hp)).2 _ hrep).2 th'
        (List.mem_of_getElem? hth') htok
      rw [(Thread.pending?_eq_some ho').1] at hended
      cases hended
    · -- a rollback withdraws a row for the token of its own call, and tokens are drawn once
      exact hji (hreg.index_of_token hth' hth htok (hk.rollback hpool.1 ho))
  · intro p e s _ hp henv
    rcases world_eq henv with ⟨d, rfl⟩ | rfl
    · exact ⟨⟨hp.1.subscribed, hp.1.sagas⟩, fun _ _ _ => hquiet (world_evolves henv) rfl⟩
    · exact ⟨⟨hp.1.subscribed, hp.1.sagas⟩, fun _ _ _ => hquiet (world_evolves henv) rfl⟩

/-- The row of a saga that a `Subscribe` started is for the call's triple. -/
theorem OwnData.key {c : Call} {s : State} {data : SubscriptionData} {token : String}
    (h : OwnData D c s data) (htok : c.token? = some token) :
    ∃ row, s.tables.byID data.subscriptionID = some row ∧ c.key? D = some row.key := by
  cases c with
  | subscribe ctx rawEmail rawRepo draws => exact h.2.2
  | _ => cases htok

/-- Whoever replaces the token of a sound row of a completed request is a
`Subscribe` for the same triple. -/
theorem Linked.replaced {c c' : Call} {s s' : State} {token newToken oldToken x : String}
    {inst : Instance} {r : (Op.stmtUpdateToken newToken inst.data.subscriptionID oldToken).Res}
    (hret : Returned D c (.error none) s) (htok : c.token? = some token)
    (hid : c.sagaID? = some x) (hx : s.sagas.get x = some inst)
    (hk : Tied D c' (.stmtUpdateToken newToken inst.data.subscriptionID oldToken) r s s') :
    c'.key? D = c.key? D := by
  -- both calls have looked the row up: the one that returned for the data of its saga, the
  -- other one before it wrote the token
  obtain ⟨x', inst', hid', hx', hown, _⟩ := hret (by rw [hid]; rfl) rfl
  rw [hid, Option.some.injEq] at hid'
  subst hid'
  rw [hx, Option.some.injEq] at hx'
  subst hx'
  obtain ⟨row, hrow, hkey⟩ := OwnData.key hown htok
  obtain ⟨ch, hkn⟩ := hk.recorded
  obtain ⟨_, row', hrow', hkey'⟩ := hkn.ready
  rw [hrow, Option.some.injEq] at hrow'
  rw [hkey, hkey', hrow']

/-- Every request that returned nil still has its saga and a sound row, or a
`Subscribe` for the same triple was called after it had ended. -/
def LinksKept (D : Deps) (p : Pool Op Op.Res State Call Ret) : Prop :=
  ∀ (i n : Nat) th token, p.threads[i]? = some th → th.ended = some n →
    th.prog = .ret (.error none) → th.call.token? = some token →
    Linked th.call token p.state ∨
      ∃ j c, n ≤ j ∧ p.calls[j]? = some c ∧ c.key? D = th.call.key? D

theorem Linked.evolves {c : Call} {token : String} {s s' : State} (h : Linked c token s)
    (he : Evolves s s') (ht : s'.tables = s.tables) : Linked c token s' := by
  obtain ⟨x, inst, hid, hx, hs⟩ := h
  obtain ⟨inst', hx', hdata, _⟩ := he.sagas hx
  exact ⟨x, inst', hid, hx', by rw [hdata]; exact hs.evolves he (by rw [ht])⟩

/-- What is known of a pool in a run under the condition. -/
structure LinkSafe (D : Deps) (p : Pool Op Op.Res State Call Ret) : Prop where
  safe : MonolithSafe D p
  registered : Registered p
  links : PoolSafe (Tied D) linkContract LinkReturned Anything p
  ended : ∀ (i : Nat) th a, p.threads[i]? = some th → th.prog = .ret a → th.ended ≠ none

theorem link_safe {es : List (Event Choice Call WorldEvent)}
    (h : (monolith D).Run LinksUndisturbed monolithInit es p) : LinkSafe D p := by
  have hinit : PoolSafe (Tied D) linkContract LinkReturned Anything monolithInit := by
    refine ⟨⟨by simp [monolithInit, State.init], fun hx => ?_⟩,
      fun i th hth => by simp [monolithInit] at hth⟩
    simp [monolithInit, State.init] at hx
  have hrun := (run_safe h).strengthen
    (F := fun p _ => Registered p) (fun _ _ _ hr _ => run_registered hr)
  exact ⟨monolith_safe h, run_registered h, hinit.run (link_respects D) hrun,
    h.ended_of_ret rfl⟩

/-- One operation keeps the links of the requests that have ended. -/
theorem LinksKept.run {ch : Choice} {r : o.Res} {s : State} (h : LinksKept D p)
    (hcond : LinksUndisturbed p (.run i ch)) (hl : LinkSafe D p)
    (hth : p.threads[i]? = some th) (hend : th.ended = none) (hp : th.prog = .op o k)
    (hx : exec p.state o ch = some (r, s)) :
    LinksKept D ⟨s, p.threads.set i (th.resume p.threads.length (k r))⟩ := by
  have hk := hcond.tied hl.safe hl.registered hth hend hp hx
  have hcalls : Pool.calls ⟨s, p.threads.set i (th.resume p.threads.length (k r))⟩ = p.calls :=
    Machine.map_call_set hth rfl
  intro i' n th' token hth' hend' hret htok
  rw [hcalls]
  rcases getElem?_set_cases hth' with ⟨_, rfl⟩ | ⟨hne, hold⟩
  · -- the request that returns just now
    obtain ⟨_, _, hsafe⟩ := hl.links.exec hth hend hp hk
    rw [Thread.resume_prog] at hret
    rw [hret] at hsafe
    exact .inl (hsafe token htok rfl)
  · rcases h i' n th' token hold hend' hret htok with ⟨x, inst, hid, hsx, hsound⟩ | hlater
    · by_cases hrep : o.replaces? = some (inst.data.subscriptionID, token)
      · -- its token is replaced, by a call that was made afterwards
        refine .inr ⟨i, th.call, ?_, Pool.calls_of_thread hth, ?_⟩
        · have hended := ((hcond _ (Pool.due?_of_op hth hend hp)).2 _ hrep).2 th'
            (List.mem_of_getElem? hold) htok
          rw [hend'] at hended
          exact of_decide_eq_true hended
        · cases o with
          | stmtUpdateToken newToken id oldToken =>
            simp only [Op.replaces?, Option.some.injEq, Prod.mk.injEq] at hrep
            obtain ⟨rfl, rfl⟩ := hrep
            exact Linked.replaced ((hl.safe.2 i' th' hold).2 _ hret) htok hid hsx hk
          | _ => cases hrep
      · left
        obtain ⟨inst', hx', hdata, _⟩ := (exec_evolves hx).sagas hsx
        refine ⟨x, inst', hid, hx', ?_⟩
        rw [hdata]
        refine hsound.step hk hrep (fun status id' ho => hne ?_)
        exact hl.registered.index_of_token hold hth htok (hk.rollback hl.links.1 ho)
    · exact .inr hlater

/-- A link that was handed out is kept until the triple is subscribed to again. -/
theorem LinksKept.step {e : Event Choice Call WorldEvent} {p' : Pool Op Op.Res State Call Ret}
    (h : LinksKept D p) (hcond : LinksUndisturbed p e) (hl : LinkSafe D p)
    (hs : (monolith D).step p e = some p') : LinksKept D p' := by
  cases e with
  | call c =>
    obtain ⟨s, hent, rfl⟩ := Machine.step_call _ hs
    have ht : s.tables = p.state.tables := by rw [(enter_eq hent).2]
    intro i n th token hth hend hret htok
    -- the new call is the last thread; the calls made before it keep their numbers
    rcases getElem?_append_singleton hth with hold | ⟨_, rfl⟩
    · rcases h i n th token hold hend hret htok with hlinked | ⟨j, c', hj, hc', hkey⟩
      · exact .inl (hlinked.evolves (enter_evolves hent) ht)
      · refine .inr ⟨j, c', hj, ?_, hkey⟩
        rw [Pool.calls] at hc' ⊢
        rw [List.map_append, List.getElem?_append_left (List.getElem?_eq_some_iff.mp hc').1]
        exact hc'
    · -- a call may return without a single operation
      have hsafe := program_link D c s
      have hprog : program D c = .ret (.error none) := hret
      rw [hprog] at hsafe
      exact .inl (hsafe token htok rfl)
  | run i ch =>
    obtain ⟨th, o, k, r, s, hth, hend, hp, hx, rfl⟩ := Machine.step_run _ hs
    exact h.run hcond hl hth hend hp hx
  | kill i =>
    obtain ⟨th, hth, hend, rfl⟩ := Machine.step_kill _ hs
    have hcalls : Pool.calls ⟨p.state, p.threads.set i { th with ended := some p.threads.length }⟩
        = p.calls := Machine.map_call_set hth rfl
    intro i' n th' token hth' hend' hret htok
    rw [hcalls]
    rcases getElem?_set_cases hth' with ⟨_, rfl⟩ | ⟨_, hth'⟩
    · -- a call that is killed has not returned
      exact absurd hend (hl.ended i th _ hth hret)
    · exact h i' n th' token hth' hend' hret htok
  | env w =>
    obtain ⟨s, henv, rfl⟩ := Machine.step_env _ hs
    have ht : s.tables = p.state.tables := by
      rcases world_eq henv with ⟨d, rfl⟩ | rfl <;> rfl
    intro i n th token hth hend hret htok
    rcases h i n th token hth hend hret htok with hlinked | hlater
    · exact .inl (hlinked.evolves (world_evolves henv) ht)
    · exact .inr hlater

theorem links_kept {es : List (Event Choice Call WorldEvent)}
    (h : (monolith D).Run LinksUndisturbed monolithInit es p) : LinksKept D p := by
  have hrun := h.strengthen (F := fun p _ => LinkSafe D p) (fun _ _ _ hr _ => link_safe hr)
  refine hrun.invariant ?_ (fun _ _ _ hk ⟨hcond, hl⟩ hs => hk.step hcond hl hs)
  intro i n th token hth
  simp [monolithInit] at hth

/-- A saga that is being undone is not the completed one of the call that drew
its token. -/
theorem LinkSafe.not_blamed (hl : LinkSafe D p) {c : Call} {token x : String} {inst : Instance}
    (hc : c ∈ p.state.calls) (htok : c.token? = some token) (hid : c.sagaID? = some x)
    (hx : p.state.sagas.get x = some inst) (hst : inst.state = .completed) :
    ¬ Blamed token p.state := by
  rintro ⟨y, inst', hy, htok', hu⟩
  obtain ⟨c', hc', hid', hdraw⟩ := hl.links.1.sagas hy
  rw [htok'] at hdraw
  have hcc := hl.registered.eq_of_token hc hc' htok hdraw
  rw [← hcc, hid, Option.some.injEq] at hid'
  rw [← hid', hx, Option.some.injEq] at hy
  rw [← hy, hst] at hu
  rcases hu with hu | hu <;> cases hu

/-- `Confirm` with the token of a live row returns nil. -/
theorem confirm_of_live {s : State} {id : Nat} {row : Subscription}
    (hrow : s.tables.byID id = some row) (hlive : row.status ≠ .unsubscribed) :
    ∃ s', (confirm row.token).run (fun s o => exec s o .ok) s = some (none, s') := by
  have hget : exec s (.stmtGetByToken row.token) .ok = some (.ok (some row), s) := by
    simp [exec, attempt, Tables.getByTokenQuery_of_byID hrow]
  -- the lookup by token finds this row: no other row carries the token
  have hrun : (Repo.getByToken row.token).run (fun s o => exec s o .ok) s
      = some (.ok row, s) := by
    rw [Repo.getByToken, statement, Prog.run_op hget]
    rfl
  rw [confirm, Prog.run_bind, hrun, Option.bind_some]
  dsimp only
  cases hst : row.status with
  | active => exact ⟨s, rfl⟩
  | pending =>
    -- a live row may change its status without violating the unique index
    obtain ⟨t, ht⟩ := Tables.updateStatusQuery_live .active hrow hlive
    have hput : ∃ s', exec s (.stmtUpdateStatus (.confirm row.token) .active row.id) .ok
        = some (.ok (.ok 1), s') := by
      rw [Tables.byID_id hrow]
      simp [exec, ht, attemptUpdate, attempt, Except.map]
    obtain ⟨s', hs'⟩ := hput
    refine ⟨s', ?_⟩
    rw [if_neg (by simp), if_neg (by simp), Repo.updateStatus, statement, Prog.run_op hs']
    rfl
  | unsubscribed => exact absurd hst hlive

end Runs

/-- In every run in which rows are withdrawn for the token they carry and tokens
are replaced by later requests only: a `Subscribe` that returned nil has
reserved row `inst.data.subscriptionID` with token `t`, and until `Unsubscribe`
is called with `t` or a later `Subscribe` for the same triple is called, the row
carries `t`, is pending or active, and `Confirm` with `t` returns nil. -/
theorem subscribed_link_works (D : Deps) (es : List (Event Choice Call WorldEvent))
    (p : Pool Op Op.Res State Call Ret)
    (h : (monolith D).Run LinksUndisturbed monolithInit es p) (i n : Nat)
    (th : Thread Op Op.Res Call Ret) (hth : p.threads[i]? = some th) (hend : th.ended = some n)
    (hret : th.prog = .ret (.error none)) (ctx : Context) (rawEmail rawRepo t x : String)
    (hcall : th.call = .subscribe ctx rawEmail rawRepo ⟨.ok t, x⟩)
    (hunsub : .unsubscribe t ∉ p.state.calls)
    (hlater : ∀ j c, n ≤ j → p.calls[j]? = some c → c.key? D ≠ th.call.key? D) :
    ∃ inst row, p.state.sagas.get x = some inst ∧ inst.data.token = t ∧
      p.state.tables.byID inst.data.subscriptionID = some row ∧
      th.call.key? D = some row.key ∧ row.token = t ∧
      (row.status = .pending ∨ row.status = .active) ∧
      ∃ s', (confirm t).run (fun s o => exec s o .ok) p.state = some (none, s') := by
  have htok : th.call.token? = some t := by rw [hcall]; rfl
  have hid : th.call.sagaID? = some x := by rw [hcall]; rfl
  have hl := link_safe h
  -- a nil answer means that the saga of the call is completed
  obtain ⟨x', inst, hid', hx, hown, hst⟩ := (hl.safe.2 i th hth).2 _ hret (by rw [hid]; rfl) rfl
  rw [hid, Option.some.injEq] at hid'
  subst hid'
  rcases links_kept h i n th t hth hend hret htok with hlinked | ⟨j, c, hj, hc, hkey⟩
  · obtain ⟨y, inst', hidy, hy, row, hrow, hrt, hun⟩ := hlinked
    rw [hid, Option.some.injEq] at hidy
    subst hidy
    rw [hx, Option.some.injEq] at hy
    subst hy
    -- the row could only have been withdrawn by an `Unsubscribe`, or for a saga that is being
    -- undone, and the one that drew this token is completed
    have hlive : row.status ≠ .unsubscribed := by
      intro hu
      rcases hun hu with hc | hb
      · exact hunsub hc
      · exact hl.not_blamed (hl.registered.thread_mem hth) htok hid hx hst hb
    have hdt := OwnData.token_eq hown (hl.links.1.subscribed _ (hl.registered.thread_mem hth))
    rw [htok, Option.some.injEq] at hdt
    obtain ⟨row', hrow', hk⟩ := OwnData.key hown htok
    rw [hrow, Option.some.injEq] at hrow'
    subst hrow'
    refine ⟨inst, row, hx, hdt.symm, hrow, hk, hrt, ?_, hrt ▸ confirm_of_live hrow hlive⟩
    cases hs : row.status with
    | pending => exact .inl rfl
    | active => exact .inr rfl
    | unsubscribed => exact absurd hs hlive
  · exact absurd hkey (hlater j c hj hc)

/-- The first request runs into its timeout. The second one refreshes the row,
and its mail is sent. -/
def retried : List (Event Choice Call WorldEvent) :=
  sampleMailed ++ [.env (.tick 31), .run 0 .timeout, .run 0 .ok,
    .call sampleSubscribe₂, .run 1 (.answer true), .run 1 .ok, .run 1 .ok, .run 1 .ok, .run 1 .ok,
    .run 1 .ok, .call (.handleReply (sampleSent "s2")), .run 2 .ok, .run 2 .ok, .run 2 .ok, .run 1 .receive,
    .run 1 .ok]

/-- A subscriber who tries again gets a link that works. -/
theorem subscribed_link_works_retried :
    ∃ p row, (monolith sample).Run LinksUndisturbed monolithInit retried p ∧
      p.state.tables.byID 1 = some row ∧ row.token = "t2" ∧
      (row.status = .pending ∨ row.status = .active) := by
  have hrun : ((monolith sample).stepsWhere (fun p e => decide (LinksUndisturbed p e))
      monolithInit retried).any (fun p =>
        (p.threads[1]?).any (fun th => decide (th.ended = some 3) &&
          decide (th.prog.result? = some (.error none)) && decide (th.call = sampleSubscribe₂)) &&
        decide (p.state.calls = [.handleReply (sampleSent "s2"), sampleSubscribe₂, sampleSubscribe₁]) &&
        decide (p.calls.length = 3) &&
        decide ((p.state.sagas.get "s2").map (·.data.subscriptionID) = some 1)) = true := by
    decide
  obtain ⟨p, hp, hall⟩ := (Option.any_eq_true _ _).mp hrun
  simp only [Bool.and_eq_true, decide_eq_true_eq] at hall
  obtain ⟨⟨⟨hthread, hcalls⟩, hlen⟩, hsaga⟩ := hall
  obtain ⟨th, hth, hdone⟩ := (Option.any_eq_true _ _).mp hthread
  simp only [Bool.and_eq_true, decide_eq_true_eq] at hdone
  obtain ⟨⟨hend, hret⟩, hcall⟩ := hdone
  have h := Machine.Run.of_stepsWhere (fun _ _ h => of_decide_eq_true h) hp
  obtain ⟨inst, row, hx, _, hrow, _, htok, hst, _⟩ := subscribed_link_works sample retried p h 1 3
    th hth hend (Prog.result?_eq_some.mp hret) ⟨none⟩ "a@b.c" "o/n" "t2" "s2" hcall
    (by rw [hcalls]; decide) (fun j c hj hc => by
      have := (List.getElem?_eq_some_iff.mp hc).1
      omega)
  rw [hx, Option.map_some, Option.some.injEq] at hsaga
  rw [hsaga] at hrow
  exact ⟨p, row, h, hrow, htok, hst⟩

/-- After that, the reaper gets round to the first request's saga. -/
def reapedAfterRetry : List (Event Choice Call WorldEvent) :=
  retried ++ [.call .reap, .run 3 .ok, .run 3 (.answer false), .run 3 .ok, .run 3 .ok]

/-- The second request has returned nil with token `t2`, nobody unsubscribed and
nobody subscribed again, and its row is withdrawn: `Confirm` with `t2` fails. -/
theorem reaper_breaks_link :
    ∃ p th row, (monolith sample).steps monolithInit reapedAfterRetry = some p ∧
      p.threads[1]? = some th ∧ th.call = sampleSubscribe₂ ∧ th.ended = some 3 ∧
      th.prog = .ret (.error none) ∧
      p.calls = [sampleSubscribe₁, sampleSubscribe₂, .handleReply (sampleSent "s2"), .reap] ∧
      p.state.tables.byID 1 = some row ∧ row.token = "t2" ∧ row.status = .unsubscribed ∧
      ((confirm "t2").run (fun s o => exec s o .ok) p.state).map Prod.fst
        = some (some (.sentinel .errSubscriptionInactive)) := by
  have hrun : ((monolith sample).steps monolithInit reapedAfterRetry).any (fun p =>
      (p.threads[1]?).any (fun th => decide (th.call = sampleSubscribe₂) &&
        decide (th.ended = some 3) && decide (th.prog.result? = some (.error none))) &&
      decide (p.calls = [sampleSubscribe₁, sampleSubscribe₂, .handleReply (sampleSent "s2"), .reap]) &&
      decide (p.state.tables.byID 1 = some ⟨1, "a@b.c", "o", "n", "t2", .unsubscribed⟩) &&
      decide (((confirm "t2").run (fun s o => exec s o .ok) p.state).map Prod.fst
        = some (some (.sentinel .errSubscriptionInactive)))) = true := by
    decide
  obtain ⟨p, hp, hall⟩ := (Option.any_eq_true _ _).mp hrun
  simp only [Bool.and_eq_true, decide_eq_true_eq] at hall
  obtain ⟨⟨⟨hthread, hcalls⟩, hrow⟩, hconfirm⟩ := hall
  obtain ⟨th, hth, hdone⟩ := (Option.any_eq_true _ _).mp hthread
  simp only [Bool.and_eq_true, decide_eq_true_eq] at hdone
  exact ⟨p, th, _, hp, hth, hdone.1.1, hdone.1.2, Prog.result?_eq_some.mp hdone.2, hcalls, hrow,
    rfl, rfl, hconfirm⟩

end ReleaseNotifier
