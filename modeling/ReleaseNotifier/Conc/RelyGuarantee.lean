/-
Rely and guarantee for the calls of a pool.

A `Contract` fixes an invariant of the shared state, what a call may count on
the others to leave alone while it is about to issue a given operation
(`rely`), and what it promises of each of its own operations (`guar`). `Safe`
is the obligation of one call on its own: wherever the others may have moved
the state in the meantime, its next operation keeps the invariant, meets the
promise, and leaves a program that is safe again. The soundness theorem at the
end puts the calls together: if every promise implies what the other calls rely
on, then every call of every run is safe all along.

`rely` depends on the operation that is due. A call that has read a row and is
about to write it needs more from its neighbours than one that has not started,
and a condition on runs ("no row is cancelled while a call is about to ...")
is exactly a rely of this kind.

The parameter `known` is what has already been established of every operation
of every run. A first contract is proved with what `exec` says, and a second
one may then use the first one's guarantee.
-/
import ReleaseNotifier.Conc.Pool
import Mathlib.Logic.Relation

set_option autoImplicit false

namespace Conc

/-- Invariant, rely and guarantee of the calls of a pool. -/
structure Contract (Op : Type) (Res : Op → Type) (S Call : Type) where
  inv : S → Prop
  rely : Call → Op → S → S → Prop
  guar : Call → (o : Op) → Res o → S → S → Prop

section

variable {Op : Type} {Res : Op → Type} {S C Call Env Ret α β : Type}

/-- The states the others may have moved to while `c` is about to issue `o`. -/
def Contract.Interference (K : Contract Op Res S Call) (c : Call) (o : Op) : S → S → Prop :=
  Relation.ReflTransGen (fun a b => K.inv a ∧ K.inv b ∧ K.rely c o a b)

/-- One call's obligation, for what is left of its program. -/
def Safe (known : Call → (o : Op) → Res o → S → S → Prop) (K : Contract Op Res S Call)
    (c : Call) (post : α → S → Prop) : Prog Op Res α → S → Prop
  | .ret a, s => post a s
  | .op o k, s => ∀ s', K.Interference c o s s' → K.inv s' → ∀ r s'', known c o r s' s'' →
      K.inv s'' ∧ K.guar c o r s' s'' ∧ Safe known K c post (k r) s''

namespace Safe

variable {known : Call → (o : Op) → Res o → S → S → Prop} {K : Contract Op Res S Call}
variable {c : Call} {post : α → S → Prop} {s : S}

theorem ret {a : α} (h : post a s) : Safe known K c post (.ret a) s := h

/-- The rule for one operation: an assertion `P` that holds now and that the
others keep, and what the operation does from there. -/
theorem op {o : Op} {k : Res o → Prog Op Res α} (P : S → Prop) (hP : P s)
    (hstable : ∀ a b, K.inv a → K.inv b → P a → K.rely c o a b → P b)
    (hstep : ∀ a r b, K.inv a → P a → known c o r a b →
      K.inv b ∧ K.guar c o r a b ∧ Safe known K c post (k r) b) :
    Safe known K c post (.op o k) s := by
  intro s' hint hinv r s'' hk
  have hP' : P s' := by
    clear hinv hk
    induction hint with
    | refl => exact hP
    | tail _ hlast ih => exact hstable _ _ hlast.1 hlast.2.1 ih hlast.2.2
  exact hstep s' r s'' hinv hP' hk

variable {p : Prog Op Res α}

/-- A weaker postcondition is enough. -/
theorem mono {post' : α → S → Prop} (h : Safe known K c post p s)
    (hpp : ∀ a s, post a s → post' a s) : Safe known K c post' p s := by
  induction p generalizing s with
  | ret a => exact hpp a s h
  | op o k ih =>
    intro s' hint hinv r s'' hk
    obtain ⟨h₁, h₂, h₃⟩ := h s' hint hinv r s'' hk
    exact ⟨h₁, h₂, ih r h₃⟩

/-- Sequencing: the postcondition of the first part starts the second. -/
theorem bind {post' : β → S → Prop} {f : α → Prog Op Res β} (hp : Safe known K c post p s)
    (hf : ∀ a s, post a s → Safe known K c post' (f a) s) : Safe known K c post' (p >>= f) s := by
  induction p generalizing s with
  | ret a => exact hf a s hp
  | op o k ih =>
    intro s' hint hinv r s'' hk
    obtain ⟨h₁, h₂, h₃⟩ := hp s' hint hinv r s'' hk
    exact ⟨h₁, h₂, ih r h₃⟩

/-- The frame rule: what neither the others nor the call's own operations
disturb still holds at the end. -/
theorem frame {Q : S → Prop} (h : Safe known K c post p s) (hQ : Q s)
    (hrely : ∀ o a b, K.inv a → K.inv b → Q a → K.rely c o a b → Q b)
    (hown : ∀ o r a b, K.inv a → Q a → known c o r a b → Q b) :
    Safe known K c (fun a s => post a s ∧ Q s) p s := by
  induction p generalizing s with
  | ret a => exact ⟨h, hQ⟩
  | op o k ih =>
    intro s' hint hinv r s'' hk
    obtain ⟨h₁, h₂, h₃⟩ := h s' hint hinv r s'' hk
    have hQ' : Q s' := by
      clear hinv hk h₁ h₂ h₃ h
      induction hint with
      | refl => exact hQ
      | tail _ hlast ih => exact hrely o _ _ hlast.1 hlast.2.1 ih hlast.2.2
    exact ⟨h₁, h₂, ih r h₃ (hown o r s' s'' hinv hQ' hk)⟩

/-- Interference before the next operation does no harm. -/
theorem interfere {o : Op} {k : Res o → Prog Op Res α} {s' : S}
    (h : Safe known K c post (.op o k) s) (hrely : K.rely c o s s') (hi : K.inv s)
    (hi' : K.inv s') : Safe known K c post (.op o k) s' :=
  fun t hint hinv r t' hk => h t (Relation.ReflTransGen.head ⟨hi, hi', hrely⟩ hint) hinv r t' hk

end Safe

/-! ## Assertions in front of operations

The usual way to meet a contract: every operation has an assertion, which the
others keep and from which the operation keeps the invariant and the promise. -/

/-- `ann c s o` is the assertion in front of operation `o` of call `c`. -/
structure Annotates (known : Call → (o : Op) → Res o → S → S → Prop)
    (K : Contract Op Res S Call) (ann : Call → S → Op → Prop) : Prop where
  keeps : ∀ {c o r a b}, K.inv a → ann c a o → known c o r a b → K.inv b ∧ K.guar c o r a b
  stable : ∀ {c o a b}, K.inv a → K.inv b → ann c a o → K.rely c o a b → ann c b o

section Annotated

variable {known : Call → (o : Op) → Res o → S → S → Prop} {K : Contract Op Res S Call}
variable {ann : Call → S → Op → Prop} {c : Call} {post : α → S → Prop} {s : S}

/-- The rule for an operation under its assertion; `Q` is what else is worth
remembering until it is issued. -/
theorem Annotates.op (hK : Annotates known K ann) {o : Op} {k : Res o → Prog Op Res α}
    (Q : S → Prop) (hstable : ∀ a b, Q a → K.rely c o a b → Q b) (hann : ann c s o) (hQ : Q s)
    (hstep : ∀ a r b, K.inv a → Q a → known c o r a b → Safe known K c post (k r) b) :
    Safe known K c post (.op o k) s := by
  refine Safe.op (fun s => ann c s o ∧ Q s) ⟨hann, hQ⟩ ?_ ?_
  · rintro a b hia hib ⟨ha, hq⟩ hrely
    exact ⟨hK.stable hia hib ha hrely, hstable a b hq hrely⟩
  · rintro a r b hinv ⟨ha, hq⟩ hk
    obtain ⟨hinv', hguar⟩ := hK.keeps hinv ha hk
    exact ⟨hinv', hguar, hstep a r b hinv hq hk⟩

variable {p : Prog Op Res α}

/-- A program with a footprint is safe when no operation of the footprint needs
an assertion, and keeps what neither these operations nor the others disturb. -/
theorem Annotates.uses_frame (hK : Annotates known K ann) {F : Op → Prop} (Q : S → Prop)
    (hp : p.Uses F) (hQ : Q s) (hrely : ∀ o a b, Q a → K.rely c o a b → Q b)
    (hown : ∀ {o r a b}, F o → Q a → known c o r a b → ann c a o ∧ Q b) :
    Safe known K c (fun _ b => Q b) p s := by
  induction p generalizing s with
  | ret a => exact hQ
  | op o k ih =>
    refine Safe.op Q hQ (fun a b _ _ => hrely o a b) (fun a r b hinv hq hk => ?_)
    obtain ⟨ha, hq'⟩ := hown hp.1 hq hk
    obtain ⟨hinv', hguar⟩ := hK.keeps hinv ha hk
    exact ⟨hinv', hguar, ih r (hp.2 r) hq'⟩

/-- A program is safe when no operation of its footprint needs an assertion. -/
theorem Annotates.uses (hK : Annotates known K ann) {F : Op → Prop} (hp : p.Uses F)
    (hann : ∀ {o r a b}, F o → known c o r a b → ann c a o) (hpost : ∀ a s, post a s) :
    Safe known K c post p s :=
  (hK.uses_frame (fun _ => True) hp trivial (fun _ _ _ _ _ => trivial)
    (fun ho _ hk => ⟨hann ho hk, trivial⟩)).mono (fun a s _ => hpost a s)

/-- A program is safe when all its operations are issued under assertions that hold
in every state. -/
theorem Annotates.free (hK : Annotates known K ann) (hp : p.Uses (fun o => ∀ s, ann c s o)) :
    Safe known K c (fun _ _ => True) p s :=
  hK.uses hp (fun ho _ => ho _) (fun _ _ => trivial)

/-- A program is safe when none of the known operations needs an assertion. -/
theorem Annotates.any (hK : Annotates known K ann) (hann : ∀ {o r a b}, known c o r a b → ann c a o)
    (hpost : ∀ a s, post a s) : Safe known K c post p s :=
  hK.uses (Prog.uses_any p) (fun _ hk => hann hk) hpost

end Annotated

/-- The contract that consists of the assertions alone: the others keep them,
and every operation is issued under its own. -/
def Contract.ofAssertions (inv : S → Prop) (ann : Call → S → Op → Prop) :
    Contract Op Res S Call where
  inv := inv
  rely c o a b := ann c a o → ann c b o
  guar c o _ a _ := ann c a o

theorem Annotates.ofAssertions {known : Call → (o : Op) → Res o → S → S → Prop} {inv : S → Prop}
    {ann : Call → S → Op → Prop}
    (hinv : ∀ {c o r a b}, inv a → ann c a o → known c o r a b → inv b) :
    Annotates known (Contract.ofAssertions inv ann) ann where
  keeps := fun hi ha hk => ⟨hinv hi ha hk, ha⟩
  stable := fun _ _ ha hrely => hrely ha

/-! ## Soundness -/

section Soundness

variable (M : Machine Op Res S C Call Env Ret)
variable (Cond : Pool Op Res S Call Ret → Event C Call Env → Prop)
variable (known : Call → (o : Op) → Res o → S → S → Prop)
variable (K : Contract Op Res S Call) (fin post : Call → Ret → S → Prop)

/-- A call that is safe as far as it has come: what is left of a running call
is safe and establishes `fin` when it returns, and what is to remain of that
later on, `post`, holds of an ended one. -/
def ThreadSafe (th : Thread Op Res Call Ret) (s : S) : Prop :=
  (th.ended = none → ∀ o k, th.prog = .op o k →
      Safe known K th.call (fin th.call) (.op o k) s) ∧
    ∀ a, th.prog = .ret a → post th.call a s

/-- A pool whose invariant holds and whose calls are all safe. -/
def PoolSafe (p : Pool Op Res S Call Ret) : Prop :=
  K.inv p.state ∧ ∀ (i : Nat) th, p.threads[i]? = some th → ThreadSafe known K fin post th p.state

/-- A step of the state that a call can stand: it keeps what the call relies on
before its next operation, and what holds of its result. -/
def Stands (th : Thread Op Res Call Ret) (s s' : S) : Prop :=
  (∀ o, th.pending? = some o → K.rely th.call o s s') ∧
    ∀ a, th.prog = .ret a → post th.call a s → post th.call a s'

/-- What has to be proved to put the calls of a machine together. -/
structure Respects : Prop where
  /-- What a call establishes at its end is enough for what is to remain. -/
  ret : ∀ c a s, K.inv s → fin c a s → post c a s
  /-- A new call keeps the invariant, starts safe, and disturbs nobody. -/
  enter : ∀ p c s, Cond p (.call c) → PoolSafe known K fin post p → M.enter c p.state = some s →
    K.inv s ∧ Safe known K c (fin c) (M.program c) s ∧
      ∀ (i : Nat) th, p.threads[i]? = some th → Stands K post th p.state s
  /-- Every operation that meets the condition is one of the known ones. -/
  knows : ∀ p i ch th o k r s, Cond p (.run i ch) → PoolSafe known K fin post p →
    p.threads[i]? = some th → th.ended = none → th.prog = .op o k →
    M.exec p.state o ch = some (r, s) → known th.call o r p.state s
  /-- What a call promises of its operation is what the others count on. -/
  run : ∀ p i ch th o k r s, Cond p (.run i ch) → PoolSafe known K fin post p →
    p.threads[i]? = some th → th.ended = none → th.prog = .op o k →
    M.exec p.state o ch = some (r, s) → K.inv s → K.guar th.call o r p.state s →
    ∀ (j : Nat) th', j ≠ i → p.threads[j]? = some th' → Stands K post th' p.state s
  /-- The world keeps the invariant and disturbs nobody. -/
  env : ∀ p e s, Cond p (.env e) → PoolSafe known K fin post p → M.env e p.state = some s →
    K.inv s ∧ ∀ (i : Nat) th, p.threads[i]? = some th → Stands K post th p.state s

variable {M Cond known K fin post}

variable {th : Thread Op Res Call Ret}

theorem ThreadSafe.stands {s s' : S} (h : ThreadSafe known K fin post th s)
    (hs : Stands K post th s s') (hi : K.inv s) (hi' : K.inv s') :
    ThreadSafe known K fin post th s' := by
  refine ⟨fun hend o k hp => ?_, fun a ha => hs.2 a ha (h.2 a ha)⟩
  exact (h.1 hend o k hp).interfere (hs.1 o (Thread.pending?_of_op hend hp)) hi hi'

theorem ThreadSafe.of_resume {n : Nat} {p : Prog Op Res Ret} {s : S}
    (h : Safe known K th.call (fin th.call) p s) (hret : ∀ a, fin th.call a s → post th.call a s) :
    ThreadSafe known K fin post (th.resume n p) s := by
  refine ⟨fun _ o k hp => ?_, fun a ha => ?_⟩
  · rw [Thread.resume_prog] at hp
    subst hp
    exact h
  · rw [Thread.resume_prog] at ha
    subst ha
    exact hret a h

/-- The operation a safe pool executes next meets its call's promise, and the
call is safe after it. -/
theorem PoolSafe.exec {p : Pool Op Res S Call Ret} {i : Nat} {o : Op} {k : Res o → Prog Op Res Ret}
    {r : Res o} {s : S} (h : PoolSafe known K fin post p) (hth : p.threads[i]? = some th)
    (hend : th.ended = none) (hp : th.prog = .op o k) (hk : known th.call o r p.state s) :
    K.inv s ∧ K.guar th.call o r p.state s ∧ Safe known K th.call (fin th.call) (k r) s :=
  (h.2 i th hth).1 hend o k hp p.state Relation.ReflTransGen.refl h.1 r s hk

/-- **Soundness, one event.** -/
theorem PoolSafe.step (hR : Respects M Cond known K fin post) {p p' : Pool Op Res S Call Ret}
    {e : Event C Call Env} (h : PoolSafe known K fin post p) (hc : Cond p e)
    (hs : M.step p e = some p') : PoolSafe known K fin post p' := by
  cases e with
  | call c =>
    obtain ⟨s, hent, rfl⟩ := M.step_call hs
    obtain ⟨hinv, hsafe, hst⟩ := hR.enter p c s hc h hent
    refine ⟨hinv, fun i th hth => ?_⟩
    rcases getElem?_append_singleton hth with hold | ⟨_, rfl⟩
    · exact (h.2 i th hold).stands (hst i th hold) h.1 hinv
    · exact ThreadSafe.of_resume hsafe (fun a => hR.ret c a s hinv)
  | run i ch =>
    obtain ⟨th, o, k, r, s, hth, hend, hp, hx, rfl⟩ := M.step_run hs
    have hk := hR.knows p i ch th o k r s hc h hth hend hp hx
    obtain ⟨hinv, hg, hsafe⟩ := h.exec hth hend hp hk
    refine ⟨hinv, fun j th' hth' => ?_⟩
    rcases getElem?_set_cases hth' with ⟨_, rfl⟩ | ⟨hji, hold⟩
    · exact ThreadSafe.of_resume hsafe (fun a => hR.ret th.call a s hinv)
    · -- the others rely on what this operation was allowed to do
      exact (h.2 j th' hold).stands
        (hR.run p i ch th o k r s hc h hth hend hp hx hinv hg j th' hji hold) h.1 hinv
  | kill i =>
    obtain ⟨th, hth, hend, rfl⟩ := M.step_kill hs
    refine ⟨h.1, fun j th' hth' => ?_⟩
    rcases getElem?_set_cases hth' with ⟨_, rfl⟩ | ⟨_, hold⟩
    · -- a killed thread has no operation left to issue
      exact ⟨fun hnone => (by simp at hnone), (h.2 i th hth).2⟩
    · exact h.2 j th' hold
  | env e =>
    obtain ⟨s, henv, rfl⟩ := M.step_env hs
    obtain ⟨hinv, hst⟩ := hR.env p e s hc h henv
    exact ⟨hinv, fun i th hth => (h.2 i th hth).stands (hst i th hth) h.1 hinv⟩

/-- **Soundness.** Every call of every run is safe all along. -/
theorem PoolSafe.run (hR : Respects M Cond known K fin post) {p₀ p : Pool Op Res S Call Ret}
    {es : List (Event C Call Env)} (h₀ : PoolSafe known K fin post p₀) (h : M.Run Cond p₀ es p) :
    PoolSafe known K fin post p :=
  h.invariant h₀ (fun _ _ _ hp hc hs => hp.step hR hc hs)

end Soundness

end

end Conc
