/-
Runs under a script.

`Returns` says that a program may end in some way. Here the choices of the
environment are written down, one for each operation, and the run is a function
of them: that two runs have met the same outcomes is then that they have the
same script. A script of a sequence is the script of the first part followed by
that of the second.

Two states in which every operation of a program's footprint is answered alike
cannot be told apart by the program: `Uses.play_sim` carries a relation between
them along the whole run.

`recording` is the other direction: it makes a program return what it was
answered on the way.
-/
import ReleaseNotifier.Conc.Prog

set_option autoImplicit false

namespace Conc.Prog

variable {Op : Type} {Res : Op → Type} {α β S T C : Type}

/-- Run a program under a script. What is left of the script comes with the
result; `none` means that a choice was not one the operation admits, or that the
script was too short. -/
def play (exec : S → (o : Op) → C → Option (Res o × S)) :
    Prog Op Res α → S → List C → Option (α × S × List C)
  | .ret a, s, cs => some (a, s, cs)
  -- the script ends before the program does
  | .op _ _, _, [] => none
  | .op o k, s, c :: cs =>
    match exec s o c with
    | some (r, s') => (k r).play exec s' cs
    | none => none

variable {exec : S → (o : Op) → C → Option (Res o × S)}

@[simp] theorem play_ret (a : α) (s : S) (cs : List C) :
    (.ret a : Prog Op Res α).play exec s cs = some (a, s, cs) := rfl

variable {s s' : S}

/-- A script gives the answers in order. -/
theorem play_op {o : Op} {k : Res o → Prog Op Res α} {c : C} {r : Res o} {cs : List C}
    (h : exec s o c = some (r, s')) :
    (Prog.op o k).play exec s (c :: cs) = (k r).play exec s' cs := by
  simp only [play, h]

variable {cs rest : List C}

/-- The first operation of a run that comes to its end. -/
theorem of_play_op {o : Op} {k : Res o → Prog Op Res α} {a : α}
    (h : (Prog.op o k).play exec s cs = some (a, s', rest)) :
    ∃ c cs' r s₁, cs = c :: cs' ∧ exec s o c = some (r, s₁) ∧
      (k r).play exec s₁ cs' = some (a, s', rest) := by
  cases cs with
  | nil => cases h
  | cons c cs =>
    simp only [play] at h
    cases hx : exec s o c with
    | none => rw [hx] at h; cases h
    | some x =>
      rw [hx] at h
      exact ⟨c, cs, x.1, x.2, rfl, hx, h⟩

/-- The second part of a sequence goes on with what the first part leaves of the
script. -/
theorem play_bind (p : Prog Op Res α) (f : α → Prog Op Res β) (s : S) (cs : List C) :
    (p >>= f).play exec s cs
      = (p.play exec s cs).bind (fun x => (f x.1).play exec x.2.1 x.2.2) := by
  induction p generalizing s cs with
  | ret a => rfl
  | op o k ih =>
    rw [op_bind]
    cases cs with
    | nil => rfl
    | cons c cs =>
      simp only [play]
      cases exec s o c with
      | none => rfl
      | some x => exact ih x.1 x.2 cs

variable {p : Prog Op Res α}

/-- A script may be continued. -/
theorem play_append {a : α} (h : p.play exec s cs = some (a, s', rest)) (more : List C) :
    p.play exec s (cs ++ more) = some (a, s', rest ++ more) := by
  induction p generalizing s cs with
  | ret b =>
    simp only [play_ret, Option.some.injEq, Prod.mk.injEq] at h ⊢
    exact ⟨h.1, h.2.1, by rw [h.2.2]⟩
  | op o k ih =>
    obtain ⟨c, cs', r, s₁, rfl, hx, hk⟩ := of_play_op h
    rw [List.cons_append, play_op hx]
    exact ih r hk

/-- A run uses up a part of its script and does not look at the rest. -/
theorem play_used {a : α} (h : p.play exec s cs = some (a, s', rest)) :
    ∃ used, cs = used ++ rest ∧ p.play exec s used = some (a, s', []) := by
  induction p generalizing s cs with
  | ret b =>
    simp only [play_ret, Option.some.injEq, Prod.mk.injEq] at h
    obtain ⟨rfl, rfl, rfl⟩ := h
    exact ⟨[], rfl, rfl⟩
  | op o k ih =>
    -- one choice for the first operation, and the rest by induction
    obtain ⟨c, cs', r, s₁, rfl, hx, hk⟩ := of_play_op h
    obtain ⟨used, rfl, hused⟩ := ih r hk
    exact ⟨c :: used, rfl, by rw [play_op hx]; exact hused⟩

/-- Environments that agree on the footprint of a program play it alike. -/
theorem Uses.play_eq {exec' : S → (o : Op) → C → Option (Res o × S)} {P : Op → Prop} (hp : p.Uses P)
    (h : ∀ s o c, P o → exec s o c = exec' s o c) (s : S) (cs : List C) :
    p.play exec s cs = p.play exec' s cs := by
  induction p generalizing s cs with
  | ret a => rfl
  | op o k ih =>
    cases cs with
    | nil => rfl
    | cons c cs =>
      simp only [play, h s o c hp.1]
      cases exec' s o c with
      | none => rfl
      | some x => exact ih x.1 (hp.2 x.1) x.2 cs

/-- Related states stay related along a run whose operations are answered alike
in them. -/
theorem Uses.play_sim {exec' : T → (o : Op) → C → Option (Res o × T)} {P : Op → Prop}
    {R : S → T → Prop} (hp : p.Uses P)
    (hstep : ∀ s t o c r s', P o → R s t → exec s o c = some (r, s') →
      ∃ t', exec' t o c = some (r, t') ∧ R s' t')
    {t : T} {a : α} (hR : R s t)
    (h : p.play exec s cs = some (a, s', rest)) :
    ∃ t', p.play exec' t cs = some (a, t', rest) ∧ R s' t' := by
  induction p generalizing s t cs with
  | ret b =>
    simp only [play_ret, Option.some.injEq, Prod.mk.injEq] at h
    obtain ⟨rfl, rfl, rfl⟩ := h
    exact ⟨t, rfl, hR⟩
  | op o k ih =>
    obtain ⟨c, cs', r, s₁, rfl, hx, hk⟩ := of_play_op h
    obtain ⟨t₁, ht₁, hR₁⟩ := hstep _ _ _ _ _ _ hp.1 hR hx
    obtain ⟨t', ht', hR'⟩ := ih r (hp.2 r) hR₁ hk
    exact ⟨t', by rw [play_op ht₁]; exact ht', hR'⟩

/-! ## Records -/

/-- The program that also returns, in order, what `f` takes down of the answers
it gets. -/
def recording (f : (o : Op) → Res o → List β) :
    Prog Op Res α → List β → Prog Op Res (α × List β)
  | .ret a, bs => .ret (a, bs)
  | .op o k, bs => .op o (fun r => (k r).recording f (bs ++ f o r))

variable {γ : Type} (f : (o : Op) → Res o → List γ)

@[simp] theorem recording_ret (a : α) (cs : List γ) :
    (.ret a : Prog Op Res α).recording f cs = .ret (a, cs) := rfl

@[simp] theorem recording_op (o : Op) (k : Res o → Prog Op Res α) (cs : List γ) :
    (Prog.op o k).recording f cs = .op o (fun r => (k r).recording f (cs ++ f o r)) := rfl

/-- What is recorded runs through sequencing. -/
theorem recording_bind (p : Prog Op Res α) (g : α → Prog Op Res β) (cs : List γ) :
    (p >>= g).recording f cs
      = p.recording f cs >>= fun x => (g x.1).recording f x.2 := by
  induction p generalizing cs with
  | ret a => rfl
  | op o k ih => exact congrArg (Prog.op o) (funext fun r => ih r _)

end Conc.Prog
