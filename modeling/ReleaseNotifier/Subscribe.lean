/-
The shape of `Subscribe`, for any contract.

Every argument about `Subscribe` goes the same way: something is known of the
row the lookup found until it is refreshed, something is known of the row that
was refreshed or created, and that is what the saga starts with. `Reserving`
lists the obligations of one such argument, and the two rules at the end carry
it through the code once and for all.
-/
import ReleaseNotifier.Steps
import ReleaseNotifier.Conc.RelyGuarantee

set_option autoImplicit false

namespace ReleaseNotifier

open Conc

/-- An argument about the reservation of a row for `k`: `Before` is what is known
of a pending row that was found, `After` of the row that was reserved. -/
structure Reserving (known : Call → (o : Op) → o.Res → State → State → Prop)
    (K : Contract Op Op.Res State Call) (ann : Call → State → Op → Prop) (c : Call) (k : Key)
    (draw : Except Fault String) (Before After : Nat → State → Prop) : Prop where
  annotates : Annotates known K ann
  executes : ∀ {o r a b}, known c o r a b → Executed c o r a b
  -- the assertions in front of the four statements
  lookup : ∀ s, ann c s (.stmtGetByEmailAndRepo k)
  upsert : ∀ s, ann c s (.stmtUpsert k.owner k.name)
  create : ∀ s token, draw = .ok token → ann c s (.stmtCreate k token .pending)
  refresh : ∀ {s token id old}, draw = .ok token → Before id s →
    ann c s (.stmtUpdateToken token id old)
  -- where `Before` and `After` come from, and that nobody spoils `Before`
  found : ∀ {s sub}, s.tables.byID sub.id = some sub → sub.key = k → sub.status = .pending →
    Before sub.id s
  held : ∀ {token id old a b}, Before id a → K.rely c (.stmtUpdateToken token id old) a b →
    Before id b
  refreshed : ∀ {token id old n a b}, draw = .ok token → Before id a →
    known c (.stmtUpdateToken token id old) (.ok (.ok (n + 1))) a b → After id b
  created : ∀ {token n a b}, draw = .ok token →
    known c (.stmtCreate k token .pending) (.ok n) a b → After n b

section Rules

variable {known : Call → (o : Op) → o.Res → State → State → Prop}
variable {K : Contract Op Op.Res State Call} {ann : Call → State → Op → Prop}
variable {D : Deps} {c : Call} {s : State} {draw : Except Fault String}
variable {Before After : Nat → State → Prop}

/-- What a reservation that returned a subscription leaves behind. -/
def ReservedRow (After : Nat → State → Prop) (draw : Except Fault String)
    (res : Except Err Subscription) (s : State) : Prop :=
  ∀ sub, res = .ok sub → After sub.id s ∧ draw = .ok sub.token

/-- An error reserves nothing. -/
theorem ReservedRow.error {e : Err} : ReservedRow After draw (.error e) s :=
  fun _ h => by cases h

/-- A pending row is given the new token, unless somebody else was first. -/
theorem Reserving.refreshPendingSubscription {k : Key} {sub : Subscription}
    (h : Reserving known K ann c k draw Before After) (hsub : Before sub.id s) :
    Safe known K c (ReservedRow After draw) (refreshPendingSubscription sub draw) s := by
  cases draw with
  | error f => exact Safe.ret .error
  | ok token =>
    have hstmt : Safe known K c (fun res b => res = none → After sub.id b)
        (Repo.updateToken sub.id sub.token token) s := by
      refine h.annotates.op (Before sub.id) (fun a b => h.held) (h.refresh rfl hsub) hsub ?_
      intro a r b _ hbefore hk
      refine Safe.ret (fun hres => ?_)
      rcases r with e | e | _ | n
      · cases hres
      · cases hres
      · cases hres
      · exact h.refreshed rfl hbefore hk
    refine Safe.bind hstmt (fun res b hafter => ?_)
    cases res with
    | some err =>
      dsimp only
      split
      · exact Safe.ret .error
      · exact Safe.ret .error
    | none =>
      refine Safe.ret (fun sub' hsub' => ?_)
      cases hsub'
      exact ⟨hafter rfl, rfl⟩

/-- A new row is made under the token that was drawn. -/
theorem Reserving.createPendingSubscription {addr : String} {ref : Ref}
    (h : Reserving known K ann c ⟨addr, ref.owner, ref.name⟩ draw Before After) :
    Safe known K c (ReservedRow After draw) (createPendingSubscription addr ref draw) s := by
  cases draw with
  | error f => exact Safe.ret .error
  | ok token =>
    have hupsert : Safe known K c (fun _ _ => True) (Repo.upsert ref.owner ref.name) s :=
      h.annotates.op (fun _ => True) (fun _ _ _ _ => trivial) (h.upsert s) trivial
        (fun _ _ _ _ _ _ => Safe.ret trivial)
    refine Safe.bind hupsert (fun res b _ => ?_)
    cases res with
    | some err => exact Safe.ret .error
    | none =>
      -- only a `Create` without an error has made a row
      have hcreate : Safe known K c (fun res b => ∀ id, res = .ok id → After id b)
          (Repo.create ⟨addr, ref.owner, ref.name⟩ token .pending) b := by
        refine h.annotates.op (fun _ => True) (fun _ _ _ _ => trivial)
          (h.create b token rfl) trivial ?_
        intro a r b _ _ hk
        refine Safe.ret (fun id hid => ?_)
        cases r with
        | error e =>
          dsimp only at hid
          split at hid <;> cases hid
        | ok n =>
          cases hid
          exact h.created rfl hk
      refine Safe.bind hcreate (fun res b hafter => ?_)
      cases res with
      | error err => exact Safe.ret .error
      | ok id =>
        refine Safe.ret (fun sub' hsub' => ?_)
        cases hsub'
        exact ⟨hafter id rfl, rfl⟩

/-- The rule for `reserveSubscription`. -/
theorem Reserving.reserveSubscription {addr : String} {ref : Ref}
    (h : Reserving known K ann c ⟨addr, ref.owner, ref.name⟩ draw Before After) :
    Safe known K c (ReservedRow After draw) (reserveSubscription addr ref draw) s := by
  have hget : Safe known K c
      (fun res b => ∀ sub, res = .ok sub → b.tables.byID sub.id = some sub ∧
        sub.key = ⟨addr, ref.owner, ref.name⟩ ∧ sub.status ≠ .unsubscribed)
      (Repo.getByEmailAndRepo ⟨addr, ref.owner, ref.name⟩) s := by
    refine h.annotates.op (fun _ => True) (fun _ _ _ _ => trivial) (h.lookup s) trivial ?_
    intro a r b _ _ hk
    refine Safe.ret (fun sub hsub => ?_)
    obtain ⟨ch, hex⟩ := h.executes hk
    obtain ⟨rfl, hfound⟩ := exec_getByEmailAndRepo hex
    rcases r with e | _ | sub'
    · cases hsub
    · cases hsub
    · cases hsub
      exact Tables.getByEmailAndRepoQuery_some (hfound _ rfl).symm
  refine Safe.bind hget (fun res b hsub => ?_)
  cases res with
  | error err =>
    dsimp only
    split
    · exact h.createPendingSubscription
    · exact Safe.ret .error
  | ok sub =>
    obtain ⟨hrow, hk, hlive⟩ := hsub sub rfl
    dsimp only
    split
    · exact Safe.ret .error
    · next hactive =>
      refine h.refreshPendingSubscription (h.found hrow hk ?_)
      -- found, not unsubscribed and not active
      cases hst : sub.status with
      | pending => rfl
      | active => exact absurd hst hactive
      | unsubscribed => exact absurd hst hlive

/-- The rule for `Subscribe`: what its saga establishes when it is completed is
what `Subscribe` establishes when it returns nil. -/
theorem subscribe_rule {ctx : Context} {rawEmail rawRepo : String} {draws : Draws}
    {Q : State → Prop} (hK : Annotates known K ann)
    (hgithub : ∀ s owner name, ann c s (.githubRepoExists owner name))
    (hreserve : ∀ addr ref, parseSubscribeInput D rawEmail rawRepo = .ok (addr, ref) →
      Reserving known K ann c ⟨addr, ref.owner, ref.name⟩ draws.token Before After)
    (hstart : ∀ sub ref s, After sub.id s → draws.token = .ok sub.token →
      Safe known K c (fun res b => res = none → Q b)
        (startAndWait D ctx (sagaData D sub ref) draws.sagaID) s) :
    Safe known K c (fun res b => res = none → Q b) (subscribe D ctx rawEmail rawRepo draws) s := by
  unfold subscribe
  cases hparse : parseSubscribeInput D rawEmail rawRepo with
  | error e => exact Safe.ret (fun h => by cases h)
  | ok x =>
    obtain ⟨addr, ref⟩ := x
    have hexists : Safe known K c (fun _ _ => True) (ensureRepoExistsOnGitHub ref) s := by
      refine hK.op (fun _ => True) (fun _ _ _ _ => trivial) (hgithub s _ _) trivial ?_
      intro a r b _ _ _
      rcases r with e | _ | _ <;> exact Safe.ret trivial
    refine Safe.bind hexists (fun res b _ => ?_)
    cases res with
    | some err => exact Safe.ret (fun h => by cases h)
    | none =>
      refine Safe.bind (hreserve addr ref hparse).reserveSubscription (fun res b hres => ?_)
      cases res with
      | error err => exact Safe.ret (fun h => by cases h)
      | ok sub =>
        obtain ⟨hafter, htok⟩ := hres sub rfl
        refine Safe.bind (hstart sub ref b hafter htok) (fun res b hb => ?_)
        cases res with
        | some err => exact Safe.ret (fun h => by cases h)
        | none => exact Safe.ret (fun _ => hb rfl)

end Rules

end ReleaseNotifier
