/-
Protocols: in which order a program issues its operations.

A footprint says which operations a program may issue; a `Protocol` also says
when. It is an automaton that reads the operations together with their answers,
and `Obeys` holds of a program that only issues what the current stage allows,
whatever it is answered. The stage is not part of any state: it is a way of
knowing, from what a program has left to do, what must have happened before.

Two uses are made of it. An execution of one program alone, complete or cut off
anywhere, is a list of operations and answers (`Steps`), and a relation between
stage, list and state that every allowed step keeps holds of all of them. In a
pool, every call is at some stage of the protocol at any time.
-/
import ReleaseNotifier.Conc.Pool

set_option autoImplicit false

namespace Conc

/-- What may be issued in a stage, and the stage an answered operation leads to. -/
structure Protocol (Op : Type) (Res : Op → Type) (σ : Type) where
  allows : σ → Op → Prop
  next : σ → (o : Op) → Res o → σ

section

variable {Op : Type} {Res : Op → Type} {σ α β S C Call Env Ret : Type}

/-- The program keeps to the protocol from stage `q` on, and `post` holds of
its result and of the stage it returns in. -/
def Prog.Obeys (A : Protocol Op Res σ) (post : α → σ → Prop) : Prog Op Res α → σ → Prop
  | .ret a, q => post a q
  | .op o k, q => A.allows q o ∧ ∀ r, (k r).Obeys A post (A.next q o r)

namespace Prog

variable {A : Protocol Op Res σ} {post : α → σ → Prop} {q : σ}

@[simp] theorem obeys_ret {a : α} : (.ret a : Prog Op Res α).Obeys A post q ↔ post a q := Iff.rfl

@[simp] theorem obeys_op {o : Op} {k : Res o → Prog Op Res α} :
    (Prog.op o k).Obeys A post q ↔ A.allows q o ∧ ∀ r, (k r).Obeys A post (A.next q o r) := Iff.rfl

variable {p : Prog Op Res α}

/-- A weaker postcondition is enough. -/
theorem Obeys.mono {post' : α → σ → Prop} (h : p.Obeys A post q)
    (hpp : ∀ a q, post a q → post' a q) : p.Obeys A post' q := by
  induction p generalizing q with
  | ret a => exact hpp a q h
  | op o k ih => exact ⟨h.1, fun r => ih r (h.2 r)⟩

/-- Sequencing: the second part goes on in the stage the first one ended in. -/
theorem Obeys.bind {post' : β → σ → Prop} {f : α → Prog Op Res β} (hp : p.Obeys A post q)
    (hf : ∀ a q, post a q → (f a).Obeys A post' q) : (p >>= f).Obeys A post' q := by
  induction p generalizing q with
  | ret a => exact hf a q hp
  | op o k ih => exact ⟨hp.1, fun r => ih r (hp.2 r)⟩

/-- A program whose footprint is allowed in a set of stages that it does not
leave. -/
theorem Uses.obeys {P : Op → Prop} (hp : p.Uses P) (Q : σ → Prop) (hq : Q q)
    (hstep : ∀ q o, Q q → P o → A.allows q o ∧ ∀ r, Q (A.next q o r)) :
    p.Obeys A (fun _ q => Q q) q := by
  induction p generalizing q with
  | ret a => exact hq
  | op o k ih =>
    obtain ⟨hallow, hnext⟩ := hstep q o hq hp.1
    exact ⟨hallow, fun r => ih r (hp.2 r) (hnext r)⟩

/-- Nothing is asked of the order, and nothing is promised. -/
theorem obeys_any (p : Prog Op Res α) (hall : ∀ q o, A.allows q o) (hpost : ∀ a q, post a q) :
    p.Obeys A post q := by
  induction p generalizing q with
  | ret a => exact hpost a q
  | op o k ih => exact ⟨hall q o, fun r => ih r⟩

/-! ## One program alone -/

/-- Some execution without interference: the operations with their answers, the
program that is left and the state it is left in. -/
inductive Steps (exec : S → (o : Op) → C → Option (Res o × S)) :
    Prog Op Res α → S → List ((o : Op) × Res o) → Prog Op Res α → S → Prop
  | nil (p : Prog Op Res α) (s : S) : Steps exec p s [] p s
  | cons {o : Op} {k : Res o → Prog Op Res α} {ch : C} {r : Res o} {s s₁ s' : S}
      {tr : List ((o : Op) × Res o)} {p' : Prog Op Res α} :
      exec s o ch = some (r, s₁) → Steps exec (k r) s₁ tr p' s' →
      Steps exec (.op o k) s (⟨o, r⟩ :: tr) p' s'

/-- Run a program under a list of choices, for as long as there are some. -/
def follow (exec : S → (o : Op) → C → Option (Res o × S)) :
    Prog Op Res α → List C → S → Option (List ((o : Op) × Res o) × Prog Op Res α × S)
  | p, [], s => some ([], p, s)
  | .ret _, _ :: _, _ => none
  | .op o k, ch :: chs, s =>
    match exec s o ch with
    | some (r, s₁) => (follow exec (k r) chs s₁).map (fun x => (⟨o, r⟩ :: x.1, x.2))
    | none => none

variable {exec : S → (o : Op) → C → Option (Res o × S)} {tr : List ((o : Op) × Res o)}

theorem Steps.of_follow {chs : List C} {p p' : Prog Op Res α} {s s' : S}
    (h : p.follow exec chs s = some (tr, p', s')) : Steps exec p s tr p' s' := by
  induction chs generalizing p s tr with
  | nil =>
    simp only [follow, Option.some.injEq, Prod.mk.injEq] at h
    obtain ⟨rfl, rfl, rfl⟩ := h
    exact .nil p s
  | cons ch chs ih =>
    cases p with
    | ret a => cases h
    | op o k =>
      simp only [follow] at h
      cases hx : exec s o ch with
      | none => rw [hx] at h; cases h
      | some x =>
        rw [hx] at h
        obtain ⟨⟨tr₁, p₁, s₁⟩, hrest, heq⟩ := Option.map_eq_some_iff.mp h
        simp only [Prod.mk.injEq] at heq
        obtain ⟨rfl, rfl, rfl⟩ := heq
        exact .cons hx (ih hrest)

/-- An execution that has come to its end is one that returns. -/
theorem Steps.returns {s s' : S} {a : α} (h : Steps exec p s tr (.ret a) s') :
    Returns exec p s a s' := by
  generalize hret : (Prog.ret a : Prog Op Res α) = last at h
  induction h with
  | nil p s => rw [← hret]; exact .ret a s
  | cons hx _ ih => exact .op hx (ih hret)

/-- What every allowed step keeps holds after any execution, of the stage, the
operations so far and the state; the program left obeys the protocol there. -/
theorem Obeys.steps {p p' : Prog Op Res α}
    {s s' : S} (R : σ → List ((o : Op) × Res o) → S → Prop)
    (hp : p.Obeys A post q) (h : Steps exec p s tr p' s') (h₀ : R q [] s)
    (hstep : ∀ q tr s o r ch s', R q tr s → A.allows q o → exec s o ch = some (r, s') →
      R (A.next q o r) (tr ++ [⟨o, r⟩]) s') :
    ∃ q', p'.Obeys A post q' ∧ R q' tr s' := by
  -- the induction peels operations off the front, so the ones already seen are kept apart
  have hgen : ∀ acc, R q acc s → ∃ q', p'.Obeys A post q' ∧ R q' (acc ++ tr) s' := by
    clear h₀
    induction h generalizing q with
    | nil p s =>
      intro acc hR
      exact ⟨q, hp, by rw [List.append_nil]; exact hR⟩
    | @cons o k ch r s s₁ s' tr p' hx _ ih =>
      intro acc hR
      obtain ⟨q', hq', hR'⟩ := ih (hp.2 r) (acc ++ [⟨o, r⟩])
        (hstep q acc s o r ch s₁ hR hp.1 hx)
      exact ⟨q', hq', by rw [List.append_assoc] at hR'; exact hR'⟩
  exact hgen [] h₀

end Prog

/-! ## The calls of a pool -/

/-- Every call is at some stage of the protocol. -/
def Pool.Obeys (A : Protocol Op Res σ) (p : Pool Op Res S Call Ret) : Prop :=
  ∀ (i : Nat) th, p.threads[i]? = some th → ∃ q, th.prog.Obeys A (fun _ _ => True) q

variable {M : Machine Op Res S C Call Env Ret} {A : Protocol Op Res σ} {q₀ : σ}

variable {p p' : Pool Op Res S Call Ret} {e : Event C Call Env}

/-- A step of the pool moves one call along its protocol. -/
theorem Pool.Obeys.step (hprog : ∀ c, (M.program c).Obeys A (fun _ _ => True) q₀) (h : p.Obeys A)
    (hs : M.step p e = some p') : p'.Obeys A := by
  cases e with
  | call c =>
    obtain ⟨s, _, rfl⟩ := M.step_call hs
    intro i th hth
    rcases getElem?_append_singleton hth with hold | ⟨_, rfl⟩
    · exact h i th hold
    · exact ⟨q₀, hprog c⟩
  | run i ch =>
    obtain ⟨th, o, k, r, s, hth, _, hp, _, rfl⟩ := M.step_run hs
    intro j th' hth'
    rcases getElem?_set_cases hth' with ⟨_, rfl⟩ | ⟨_, hold⟩
    · obtain ⟨q, hq⟩ := h i th hth
      rw [hp] at hq
      exact ⟨A.next q o r, hq.2 r⟩
    · exact h j th' hold
  | kill i =>
    obtain ⟨th, hth, _, rfl⟩ := M.step_kill hs
    intro j th' hth'
    rcases getElem?_set_cases hth' with ⟨_, rfl⟩ | ⟨_, hold⟩
    · exact h i th hth
    · exact h j th' hold
  | env e =>
    obtain ⟨s, _, rfl⟩ := M.step_env hs
    exact h

/-! ## Stages with assertions

A stage may come with an assertion about the shared state. A running call, or
one that has returned, is *tracked* if it is at a stage whose assertion holds.
Unlike the assertions of a contract these are there also while the next
operation is blocked. -/

/-- The call is still running, or has returned; it was not killed. -/
def Thread.Unharmed (th : Thread Op Res Call Ret) : Prop :=
  th.ended = none ∨ th.prog.result?.isSome = true

/-- One that is not running any more has returned. -/
theorem Thread.Unharmed.returned {th : Thread Op Res Call Ret} {A : Protocol Op Res σ}
    {post : Ret → σ → Prop} {q : σ} (h : th.Unharmed) (hend : th.ended ≠ none)
    (hobeys : th.prog.Obeys A post q) : ∃ a, th.prog = .ret a ∧ post a q := by
  rcases h with hnone | hret
  · exact absurd hnone hend
  · obtain ⟨a, ha⟩ := Option.isSome_iff_exists.mp hret
    have hprog := Prog.result?_eq_some.mp ha
    rw [hprog] at hobeys
    exact ⟨a, hprog, hobeys⟩

theorem Thread.unharmed_resume (n : Nat) (th : Thread Op Res Call Ret) (p : Prog Op Res Ret) :
    (th.resume n p).Unharmed := by
  cases hp : p.result? with
  | none => exact .inl (by simp [Thread.resume, hp])
  | some a => exact .inr (by simp [Thread.resume, hp])

/-- No call was killed. -/
def Pool.Intact (p : Pool Op Res S Call Ret) : Prop :=
  ∀ (i : Nat) th, p.threads[i]? = some th → th.Unharmed

/-- While no call is killed, all of them are intact. -/
theorem Pool.Intact.step (h : p.Intact) (hs : M.step p e = some p') (halive : ∀ i, e ≠ .kill i) :
    p'.Intact := by
  cases e with
  | call c =>
    obtain ⟨s, _, rfl⟩ := M.step_call hs
    intro i th hth
    rcases getElem?_append_singleton hth with hold | ⟨_, rfl⟩
    · exact h i th hold
    · exact Thread.unharmed_resume _ _ _
  | run i ch =>
    obtain ⟨th, o, k, r, s, hth, _, hp, _, rfl⟩ := M.step_run hs
    intro j th' hth'
    rcases getElem?_set_cases hth' with ⟨_, rfl⟩ | ⟨_, hold⟩
    · exact Thread.unharmed_resume _ _ _
    · exact h j th' hold
  | kill i => exact absurd rfl (halive i)
  | env e =>
    obtain ⟨s, _, rfl⟩ := M.step_env hs
    exact h

/-- Every such call is at a stage whose assertion holds. -/
def Pool.Tracks (A : Call → Protocol Op Res σ) (post : Call → Ret → σ → Prop)
    (R : Call → σ → S → Prop) (p : Pool Op Res S Call Ret) : Prop :=
  ∀ (i : Nat) th, p.threads[i]? = some th → th.Unharmed →
    ∃ q, th.prog.Obeys (A th.call) (post th.call) q ∧ R th.call q p.state

/-- One event: a new call starts with its assertion, the call that moves gets
to the next stage with the next assertion, and the others keep theirs. -/
theorem Pool.Tracks.step {A : Call → Protocol Op Res σ} {post : Call → Ret → σ → Prop}
    {R : Call → σ → S → Prop}
    (hprog : ∀ c, (M.program c).Obeys (A c) (post c) q₀) (h : p.Tracks A post R)
    (hs : M.step p e = some p')
    (henter : ∀ c s, e = .call c → M.enter c p.state = some s → R c q₀ s)
    (hown : ∀ i ch th o k r s q, e = .run i ch → p.threads[i]? = some th → th.prog = .op o k →
      M.exec p.state o ch = some (r, s) → (A th.call).allows q o → R th.call q p.state →
      R th.call ((A th.call).next q o r) s)
    (hothers : ∀ (j : Nat) th q, p.threads[j]? = some th → th.Unharmed → (∀ ch, e ≠ .run j ch) →
      th.prog.Obeys (A th.call) (post th.call) q → R th.call q p.state → R th.call q p'.state) :
    p'.Tracks A post R := by
  have hstay : ∀ (j : Nat) th, p.threads[j]? = some th → th.Unharmed → (∀ ch, e ≠ .run j ch) →
      ∃ q, th.prog.Obeys (A th.call) (post th.call) q ∧ R th.call q p'.state := by
    intro j th hth hun hne
    obtain ⟨q, hq, hR⟩ := h j th hth hun
    exact ⟨q, hq, hothers j th q hth hun hne hq hR⟩
  cases e with
  | call c =>
    obtain ⟨s, hent, rfl⟩ := M.step_call hs
    intro j th hth hun
    rcases getElem?_append_singleton hth with hold | ⟨_, rfl⟩
    · exact hstay j th hold hun (fun _ h => by cases h)
    · exact ⟨q₀, hprog c, henter c s rfl hent⟩
  | run i ch =>
    obtain ⟨th, o, k, r, s, hth, hend, hp, hx, rfl⟩ := M.step_run hs
    intro j th' hth' hun
    rcases getElem?_set_cases hth' with ⟨_, rfl⟩ | ⟨hne, hold⟩
    · obtain ⟨q, hq, hR⟩ := h i th hth (.inl hend)
      rw [hp] at hq
      exact ⟨_, hq.2 r, hown i ch th o k r s q rfl hth hp hx hq.1 hR⟩
    · exact hstay j th' hold hun (fun _ heq => by cases heq; exact hne rfl)
  | kill i =>
    obtain ⟨th, hth, hend, rfl⟩ := M.step_kill hs
    intro j th' hth' hun
    rcases getElem?_set_cases hth' with ⟨_, rfl⟩ | ⟨_, hold⟩
    · -- killing changes neither the program nor the state
      exact h i th hth (.inl hend)
    · exact h j th' hold hun
  | env w =>
    obtain ⟨s, _, rfl⟩ := M.step_env hs
    intro j th hth hun
    exact hstay j th hth hun (fun _ h => by cases h)

end

end Conc
