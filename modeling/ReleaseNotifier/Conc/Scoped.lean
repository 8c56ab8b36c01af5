/-
Programs whose operations are issued under a context.

A program may pass a context to what it calls and to what it logs. `Scoped`
puts that on record: an operation of a scoped program is one issued under a
context, one that takes none, or a log line. `erase` forgets all of it and gives
the plain program back, so a scoped program is a plain one with more said about
it, and what holds of the plain one need not be proved again.

`interpret` reads a program in terms of another's operations, each operation
being a program of its own. This is how an interface is filled in: a handler is
translated against the interface it is given, and meets its implementation here.
-/
import ReleaseNotifier.Conc.Prog

set_option autoImplicit false

namespace Conc

/-- An operation under a context, without one, or a log line. -/
inductive Scoped (Ctx Op : Type)
  | within (ctx : Ctx) (o : Op)
  | free (o : Op)
  | log (ctx : Ctx) (event : String)
  deriving DecidableEq

/-- What it is answered. -/
abbrev Scoped.Res {Ctx Op : Type} (Res : Op → Type) : Scoped Ctx Op → Type
  | .within _ o => Res o
  | .free o => Res o
  | .log _ _ => Unit

/-- The context of the operation, if it has one, satisfies `P`. -/
def Scoped.Under {Ctx Op : Type} (P : Ctx → Prop) : Scoped Ctx Op → Prop
  | .within ctx _ => P ctx
  | .free _ => True
  | .log ctx _ => P ctx

namespace Prog

variable {Ctx Op : Type} {Res : Op → Type} {α β : Type}

/-- Scoped programs. -/
abbrev Traced (Ctx Op : Type) (Res : Op → Type) (α : Type) : Type :=
  Prog (Scoped Ctx Op) (Scoped.Res Res) α

/-- Every operation of a program under the same context. -/
def within (ctx : Ctx) : Prog Op Res α → Traced Ctx Op Res α
  | .ret a => .ret a
  | .op o k => .op (.within ctx o) (fun r => (k r).within ctx)

/-- Every operation of a program without a context. -/
def free : Prog Op Res α → Traced Ctx Op Res α
  | .ret a => .ret a
  | .op o k => .op (.free o) (fun r => (k r).free)

/-- Write a log line. -/
def log (ctx : Ctx) (event : String) : Traced Ctx Op Res Unit := .op (.log ctx event) .ret

/-- The program without its contexts and its log lines. -/
def erase : Traced Ctx Op Res α → Prog Op Res α
  | .ret a => .ret a
  | .op (.within _ o) k => .op o (fun r => (k r).erase)
  | .op (.free o) k => .op o (fun r => (k r).erase)
  | .op (.log _ _) k => (k ()).erase

@[simp] theorem erase_ret (a : α) : (.ret a : Traced Ctx Op Res α).erase = .ret a := rfl

/-- Erasing the contexts goes through sequencing. -/
@[simp] theorem erase_bind (p : Traced Ctx Op Res α) (f : α → Traced Ctx Op Res β) :
    (p >>= f).erase = p.erase >>= fun a => (f a).erase := by
  induction p with
  | ret a => rfl
  | op o k ih =>
    rw [op_bind]
    cases o with
    | within ctx o =>
      simp only [erase, op_bind]
      exact congrArg _ (funext ih)
    | free o =>
      simp only [erase, op_bind]
      exact congrArg _ (funext ih)
    | log ctx event =>
      simp only [erase]
      exact ih ()

/-- A program that runs within a context does what it does without one. -/
@[simp] theorem erase_within (ctx : Ctx) (p : Prog Op Res α) : (p.within ctx).erase = p := by
  induction p with
  | ret a => rfl
  | op o k ih => exact congrArg _ (funext ih)

@[simp] theorem erase_free (p : Prog Op Res α) :
    (p.free : Traced Ctx Op Res α).erase = p := by
  induction p with
  | ret a => rfl
  | op o k ih => exact congrArg _ (funext ih)

/-- What is logged is no part of what is done. -/
@[simp] theorem erase_log (ctx : Ctx) (event : String) :
    (log ctx event : Traced Ctx Op Res Unit).erase = .ret () := rfl

section Under

variable {P : Ctx → Prop} {ctx : Ctx}

/-- A program that runs within a context mentions no other. -/
theorem uses_within (h : P ctx) (p : Prog Op Res α) : (p.within ctx).Uses (Scoped.Under P) := by
  induction p with
  | ret a => trivial
  | op o k ih => exact ⟨h, ih⟩

theorem uses_free (p : Prog Op Res α) :
    (p.free : Traced Ctx Op Res α).Uses (Scoped.Under P) := by
  induction p with
  | ret a => trivial
  | op o k ih => exact ⟨trivial, ih⟩

end Under

/-! ## Filling in an interface -/

variable {Op' : Type} {Res' : Op' → Type}

/-- A program with each operation replaced by a program. -/
def interpret (f : (o : Op) → Prog Op' Res' (Res o)) : Prog Op Res α → Prog Op' Res' α
  | .ret a => .ret a
  | .op o k => f o >>= fun r => (k r).interpret f

variable (f : (o : Op) → Prog Op' Res' (Res o))

@[simp] theorem interpret_ret (a : α) : (.ret a : Prog Op Res α).interpret f = .ret a := rfl

@[simp] theorem interpret_op (o : Op) (k : Res o → Prog Op Res α) :
    (Prog.op o k).interpret f = f o >>= fun r => (k r).interpret f := rfl

end Prog

end Conc
