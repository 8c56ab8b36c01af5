/-
Programs that talk to a shared state one atomic operation at a time.

A `Prog` is the tree of a program's possible conversations with the outside: it
either returns, or names the operation it wants executed next and continues
with whatever the outside answers. Nothing is said here about what an operation
does, so the same program can be run alone, run against a scheduler that
interleaves it with others, or inspected for the operations it may ever issue.
That separation is the point: a program is translated once, and every question
about interleaving is asked of the same tree.

`Op` is the type of operations and `Res o` the type of answers to `o`.
-/
import Mathlib.Logic.Basic

set_option autoImplicit false

namespace Conc

/-- A program over the operations `Op` that returns an `α`. -/
inductive Prog (Op : Type) (Res : Op → Type) (α : Type) : Type
  | ret (a : α) : Prog Op Res α
  | op (o : Op) (k : Res o → Prog Op Res α) : Prog Op Res α

namespace Prog

variable {Op : Type} {Res : Op → Type} {α β S : Type}

/-- Sequencing: run `p`, then continue with what it returned. -/
def bind (p : Prog Op Res α) (f : α → Prog Op Res β) : Prog Op Res β :=
  match p with
  | .ret a => f a
  | .op o k => .op o (fun r => (k r).bind f)

instance : Monad (Prog Op Res) where
  pure := .ret
  bind := bind

/-- Issue one operation and return its answer. -/
def perform (o : Op) : Prog Op Res (Res o) := .op o .ret

@[simp] theorem pure_eq (a : α) : (pure a : Prog Op Res α) = .ret a := rfl

@[simp] theorem ret_bind (a : α) (f : α → Prog Op Res β) :
    ((.ret a : Prog Op Res α) >>= f) = f a := rfl

/-- Sequencing goes past an operation into its continuation, so a program's first step shows. -/
@[simp] theorem op_bind (o : Op) (k : Res o → Prog Op Res α) (f : α → Prog Op Res β) :
    ((.op o k : Prog Op Res α) >>= f) = .op o (fun r => k r >>= f) := rfl

@[simp] theorem perform_bind (o : Op) (f : Res o → Prog Op Res β) :
    ((perform o : Prog Op Res (Res o)) >>= f) = .op o f := rfl

/-- The operation a program issues next, if it has not returned. -/
def next? : Prog Op Res α → Option Op
  | .ret _ => none
  | .op o _ => some o

@[simp] theorem next?_ret (a : α) : (.ret a : Prog Op Res α).next? = none := rfl

@[simp] theorem next?_op (o : Op) (k : Res o → Prog Op Res α) :
    (Prog.op o k).next? = some o := rfl

/-- What a program has returned, if it has. -/
def result? : Prog Op Res α → Option α
  | .ret a => some a
  | .op _ _ => none

@[simp] theorem result?_ret (a : α) : (.ret a : Prog Op Res α).result? = some a := rfl

@[simp] theorem result?_op (o : Op) (k : Res o → Prog Op Res α) :
    (Prog.op o k).result? = none := rfl

variable {p : Prog Op Res α}

/-- A program that has a result is at its end. -/
theorem result?_eq_some {a : α} : p.result? = some a ↔ p = .ret a := by
  cases p with
  | ret b => simp
  | op o k => simp

/-- The program once its next operation has been answered, if there is an
answer to it. -/
def answered (answer : (o : Op) → Option (Res o)) : Prog Op Res α → Prog Op Res α
  | .ret a => .ret a
  | .op o k =>
    match answer o with
    | some r => k r
    | none => .op o k

/-- An operation whose answer is known is passed. -/
theorem answered_op {answer : (o : Op) → Option (Res o)} {o : Op} {k : Res o → Prog Op Res α}
    {r : Res o} (h : answer o = some r) : (Prog.op o k).answered answer = k r := by
  simp only [answered, h]

/-! ## Running a program alone

With nobody else at work the answers are a function of the state, and the
program is a state transformer. `none` means that an operation blocked. -/

/-- Run a program to its end against a deterministic environment. -/
def run (exec : S → (o : Op) → Option (Res o × S)) : Prog Op Res α → S → Option (α × S)
  | .ret a, s => some (a, s)
  | .op o k, s =>
    match exec s o with
    | some (r, s') => (k r).run exec s'
    | none => none

@[simp] theorem run_ret (exec : S → (o : Op) → Option (Res o × S)) (a : α) (s : S) :
    (.ret a : Prog Op Res α).run exec s = some (a, s) := rfl

/-- One step of a run, once the answer is known. -/
theorem run_op {exec : S → (o : Op) → Option (Res o × S)} {o : Op}
    {k : Res o → Prog Op Res α} {s s' : S} {r : Res o} (h : exec s o = some (r, s')) :
    (Prog.op o k).run exec s = (k r).run exec s' := by
  simp only [run, h]

/-- Running a sequence is running its parts one after the other. -/
theorem run_bind (exec : S → (o : Op) → Option (Res o × S)) (p : Prog Op Res α)
    (f : α → Prog Op Res β) (s : S) :
    (p >>= f).run exec s = (p.run exec s).bind (fun x => (f x.1).run exec x.2) := by
  induction p generalizing s with
  | ret a => rfl
  | op o k ih =>
    rw [op_bind]
    simp only [run]
    cases exec s o with
    | none => rfl
    | some x => exact ih x.1 x.2

/-- Some execution without interference, under choices `C` of the environment,
returns `a` and leaves `s'`. -/
inductive Returns {C : Type} (exec : S → (o : Op) → C → Option (Res o × S)) :
    Prog Op Res α → S → α → S → Prop
  | ret (a : α) (s : S) : Returns exec (.ret a) s a s
  | op {o : Op} {k : Res o → Prog Op Res α} {ch : C} {r : Res o} {s s₁ s' : S} {a : α} :
      exec s o ch = some (r, s₁) → Returns exec (k r) s₁ a s' → Returns exec (.op o k) s a s'

section Returns

variable {C : Type} {exec : S → (o : Op) → C → Option (Res o × S)}

theorem returns_ret {a b : α} {s s' : S} (h : Returns exec (.ret a) s b s') : b = a ∧ s' = s := by
  cases h
  exact ⟨rfl, rfl⟩

/-- A run that returns has a first step. -/
theorem returns_op {o : Op} {k : Res o → Prog Op Res α} {s s' : S} {a : α}
    (h : Returns exec (.op o k) s a s') :
    ∃ ch r s₁, exec s o ch = some (r, s₁) ∧ Returns exec (k r) s₁ a s' := by
  cases h with
  | op hx h => exact ⟨_, _, _, hx, h⟩

variable {p : Prog Op Res α}

/-- An execution of a sequence is one of each part. -/
theorem returns_bind {f : α → Prog Op Res β} {s s' : S} {b : β}
    (h : Returns exec (p >>= f) s b s') :
    ∃ a s₁, Returns exec p s a s₁ ∧ Returns exec (f a) s₁ b s' := by
  induction p generalizing s with
  | ret a => exact ⟨a, s, .ret a s, h⟩
  | op o k ih =>
    obtain ⟨ch, r, s₁, hx, hk⟩ := returns_op h
    obtain ⟨a, s₂, hp, hf⟩ := ih r hk
    exact ⟨a, s₂, .op hx hp, hf⟩

/-- Running under a fixed choice is one of the executions. -/
theorem Returns.of_run {ch : C} {s s' : S} {a : α}
    (h : p.run (fun s o => exec s o ch) s = some (a, s')) : Returns exec p s a s' := by
  induction p generalizing s with
  | ret b =>
    simp only [run_ret, Option.some.injEq, Prod.mk.injEq] at h
    rw [← h.1, ← h.2]
    exact .ret b s
  | op o k ih =>
    simp only [run] at h
    cases hx : exec s o ch with
    | none => rw [hx] at h; cases h
    | some x =>
      rw [hx] at h
      exact .op hx (ih x.1 h)

/-- Whatever the environment chooses, if the program returns, `post` holds of
its result and of the state it leaves. -/
def Ensures (exec : S → (o : Op) → C → Option (Res o × S)) (p : Prog Op Res α) (s : S)
    (post : α → S → Prop) : Prop :=
  ∀ a s', Returns exec p s a s' → post a s'

theorem Ensures.ret {a : α} {s : S} {post : α → S → Prop} (h : post a s) :
    (.ret a : Prog Op Res α).Ensures exec s post := by
  intro b s' hr
  obtain ⟨rfl, rfl⟩ := returns_ret hr
  exact h

/-- The rule for one operation: whatever it answers, the rest ensures the same. -/
theorem Ensures.op {o : Op} {k : Res o → Prog Op Res α} {s : S} {post : α → S → Prop}
    (h : ∀ ch r s₁, exec s o ch = some (r, s₁) → (k r).Ensures exec s₁ post) :
    (Prog.op o k).Ensures exec s post := by
  intro a s' hr
  obtain ⟨ch, r, s₁, hx, hk⟩ := returns_op hr
  exact h ch r s₁ hx a s' hk

/-- The rule for sequencing, with an assertion in between. -/
theorem Ensures.bind {f : α → Prog Op Res β} {s : S} {mid : α → S → Prop} {post : β → S → Prop}
    (hp : p.Ensures exec s mid) (hf : ∀ a s₁, mid a s₁ → (f a).Ensures exec s₁ post) :
    (p >>= f).Ensures exec s post := by
  intro b s' hr
  obtain ⟨a, s₁, ha, hb⟩ := returns_bind hr
  exact hf a s₁ (hp a s₁ ha) b s' hb

theorem Ensures.mono {s : S} {post post' : α → S → Prop} (h : p.Ensures exec s post)
    (hpp : ∀ a s, post a s → post' a s) : p.Ensures exec s post' :=
  fun a s' hr => hpp a s' (h a s' hr)

end Returns

/-! ## Footprints

The operations a program may issue, whatever it is answered. A footprint is
what frame arguments need: a program that never issues an operation cannot be
the one that broke what only this operation breaks. -/

/-- Every operation the program may ever issue satisfies `P`. -/
def Uses (P : Op → Prop) : Prog Op Res α → Prop
  | .ret _ => True
  | .op o k => P o ∧ ∀ r, (k r).Uses P

@[simp] theorem uses_ret (P : Op → Prop) (a : α) : (.ret a : Prog Op Res α).Uses P := trivial

@[simp] theorem uses_op (P : Op → Prop) (o : Op) (k : Res o → Prog Op Res α) :
    (Prog.op o k).Uses P ↔ P o ∧ ∀ r, (k r).Uses P := Iff.rfl

variable {P : Op → Prop}

/-- A footprint of the parts is one of the whole. -/
theorem Uses.bind {f : α → Prog Op Res β} (hp : p.Uses P) (hf : ∀ a, (f a).Uses P) :
    (p >>= f).Uses P := by
  induction p with
  | ret a => exact hf a
  | op o k ih => exact ⟨hp.1, fun r => ih r (hp.2 r)⟩

/-- A program that looks at a result, whether it failed or not. -/
theorem Uses.bind_except {ε : Type} {p : Prog Op Res (Except ε α)} {f : Except ε α → Prog Op Res β}
    (hp : p.Uses P) (herror : ∀ err, (f (.error err)).Uses P) (hok : ∀ a, (f (.ok a)).Uses P) :
    (p >>= f).Uses P := by
  refine hp.bind fun r => ?_
  cases r with
  | error err => exact herror err
  | ok a => exact hok a

/-- A footprint may be widened. -/
theorem Uses.mono {P Q : Op → Prop} (hp : p.Uses P) (h : ∀ o, P o → Q o) : p.Uses Q := by
  induction p with
  | ret a => trivial
  | op o k ih => exact ⟨h o hp.1, fun r => ih r (hp.2 r)⟩

/-- The next operation is in the footprint. -/
theorem Uses.next (hp : p.Uses P) {o : Op} (ho : p.next? = some o) : P o := by
  cases p with
  | ret a => cases ho
  | op o' k =>
    cases ho
    exact hp.1

/-- Environments that agree on the footprint of a program run it alike. -/
theorem Uses.run_eq {exec exec' : S → (o : Op) → Option (Res o × S)} (hp : p.Uses P)
    (h : ∀ s o, P o → exec s o = exec' s o) (s : S) : p.run exec s = p.run exec' s := by
  induction p generalizing s with
  | ret a => rfl
  | op o k ih =>
    simp only [run, h s o hp.1]
    cases exec' s o with
    | none => rfl
    | some x => exact ih x.1 (hp.2 x.1) x.2

/-- An environment whose choices make no difference on the footprint of a program runs it
as the deterministic one does. -/
theorem Uses.returns_iff {C : Type} {exec : S → (o : Op) → C → Option (Res o × S)}
    {exec' : S → (o : Op) → Option (Res o × S)} (hp : p.Uses P)
    (h : ∀ s o ch, P o → exec s o ch = exec' s o) (ch : C) {s s' : S} {a : α} :
    Returns exec p s a s' ↔ p.run exec' s = some (a, s') := by
  constructor
  · intro hret
    induction p generalizing s with
    | ret b =>
      obtain ⟨rfl, rfl⟩ := returns_ret hret
      rfl
    | op o k ih =>
      obtain ⟨ch', r, s₁, hx, hret⟩ := returns_op hret
      rw [h s o ch' hp.1] at hx
      rw [run_op hx]
      exact ih r (hp.2 r) hret
  · intro hrun
    rw [← hp.run_eq (fun s o ho => h s o ch ho)] at hrun
    exact Returns.of_run hrun

/-- Some conversation of the program reaches this operation. -/
def Issues (o : Op) : Prog Op Res α → Prop
  | .ret _ => False
  | .op o' k => o' = o ∨ ∃ r, (k r).Issues o

/-- What a program issues is in its footprint. -/
theorem Uses.issues (hp : p.Uses P) {o : Op} (ho : p.Issues o) : P o := by
  induction p with
  | ret a => cases ho
  | op o' k ih =>
    rcases ho with rfl | ⟨r, hr⟩
    · exact hp.1
    · exact ih r (hp.2 r) hr

/-- Any program has the footprint that excludes nothing. -/
theorem uses_any (p : Prog Op Res α) : p.Uses (fun _ => True) := by
  induction p with
  | ret a => trivial
  | op o k ih => exact ⟨trivial, ih⟩

end Prog

end Conc
