/-
Two pools side by side.

Two machines that share no state still depend on each other when one is only
called with what the other has produced. A `JointRun` interleaves the events of
the two, each under a condition that may look at both pools; a condition such as
"this call's argument has been published over there" is all there is of a
channel that may lose, repeat and reorder what goes through it.

Each side of a joint run is a run of its own machine, so what is known of every
run of one machine is known here. The invariant rule passes that on.
-/
import ReleaseNotifier.Conc.Pool

set_option autoImplicit false

namespace Conc

section

variable {Op₁ Op₂ : Type} {Res₁ : Op₁ → Type} {Res₂ : Op₂ → Type}
variable {S₁ C₁ Call₁ Env₁ Ret₁ S₂ C₂ Call₂ Env₂ Ret₂ : Type}

/-- An event of one of two machines. -/
inductive JointEvent (C₁ Call₁ Env₁ C₂ Call₂ Env₂ : Type) : Type
  | left (e : Event C₁ Call₁ Env₁)
  | right (e : Event C₂ Call₂ Env₂)

variable (M₁ : Machine Op₁ Res₁ S₁ C₁ Call₁ Env₁ Ret₁)
variable (M₂ : Machine Op₂ Res₂ S₂ C₂ Call₂ Env₂ Ret₂)

/-- An interleaving of two runs, from `p₀` and `q₀`, all of whose events meet
`Cond` in the pools before them. -/
inductive JointRun (Cond : Pool Op₁ Res₁ S₁ Call₁ Ret₁ → Pool Op₂ Res₂ S₂ Call₂ Ret₂ →
      JointEvent C₁ Call₁ Env₁ C₂ Call₂ Env₂ → Prop)
    (p₀ : Pool Op₁ Res₁ S₁ Call₁ Ret₁) (q₀ : Pool Op₂ Res₂ S₂ Call₂ Ret₂) :
    List (JointEvent C₁ Call₁ Env₁ C₂ Call₂ Env₂) → Pool Op₁ Res₁ S₁ Call₁ Ret₁ →
      Pool Op₂ Res₂ S₂ Call₂ Ret₂ → Prop
  | nil : JointRun Cond p₀ q₀ [] p₀ q₀
  | left {es : List (JointEvent C₁ Call₁ Env₁ C₂ Call₂ Env₂)} {p p' : Pool Op₁ Res₁ S₁ Call₁ Ret₁}
      {q : Pool Op₂ Res₂ S₂ Call₂ Ret₂} {e : Event C₁ Call₁ Env₁} :
      JointRun Cond p₀ q₀ es p q → Cond p q (.left e) → M₁.step p e = some p' →
      JointRun Cond p₀ q₀ (es ++ [.left e]) p' q
  | right {es : List (JointEvent C₁ Call₁ Env₁ C₂ Call₂ Env₂)} {p : Pool Op₁ Res₁ S₁ Call₁ Ret₁}
      {q q' : Pool Op₂ Res₂ S₂ Call₂ Ret₂} {e : Event C₂ Call₂ Env₂} :
      JointRun Cond p₀ q₀ es p q → Cond p q (.right e) → M₂.step q e = some q' →
      JointRun Cond p₀ q₀ (es ++ [.right e]) p q'

namespace JointRun

variable {M₁ M₂}
variable {Cond : Pool Op₁ Res₁ S₁ Call₁ Ret₁ → Pool Op₂ Res₂ S₂ Call₂ Ret₂ →
  JointEvent C₁ Call₁ Env₁ C₂ Call₂ Env₂ → Prop}
variable {p₀ p : Pool Op₁ Res₁ S₁ Call₁ Ret₁} {q₀ q : Pool Op₂ Res₂ S₂ Call₂ Ret₂}
variable {es : List (JointEvent C₁ Call₁ Env₁ C₂ Call₂ Env₂)}

/-- The left side is a run of the left machine. -/
theorem left_run (h : JointRun M₁ M₂ Cond p₀ q₀ es p q) :
    ∃ es₁, M₁.Run (fun _ _ => True) p₀ es₁ p := by
  induction h with
  | nil => exact ⟨[], .nil⟩
  | left _ _ hs ih =>
    obtain ⟨es₁, hr⟩ := ih
    exact ⟨_, hr.snoc trivial hs⟩
  | right _ _ _ ih => exact ih

/-- The right side is a run of the right machine. -/
theorem right_run (h : JointRun M₁ M₂ Cond p₀ q₀ es p q) :
    ∃ es₂, M₂.Run (fun _ _ => True) q₀ es₂ q := by
  induction h with
  | nil => exact ⟨[], .nil⟩
  | left _ _ _ ih => exact ih
  | right _ _ hs ih =>
    obtain ⟨es₂, hr⟩ := ih
    exact ⟨_, hr.snoc trivial hs⟩

/-- The invariant rule. `F` and `G` are what is known of every run of the left
and of the right machine. -/
theorem invariant {F : Pool Op₁ Res₁ S₁ Call₁ Ret₁ → Prop} {G : Pool Op₂ Res₂ S₂ Call₂ Ret₂ → Prop}
    {J : Pool Op₁ Res₁ S₁ Call₁ Ret₁ → Pool Op₂ Res₂ S₂ Call₂ Ret₂ → Prop}
    (h : JointRun M₁ M₂ Cond p₀ q₀ es p q)
    (hF : ∀ es p, M₁.Run (fun _ _ => True) p₀ es p → F p)
    (hG : ∀ es q, M₂.Run (fun _ _ => True) q₀ es q → G q) (h₀ : J p₀ q₀)
    (hleft : ∀ p q e p', F p → G q → J p q → Cond p q (.left e) → M₁.step p e = some p' → J p' q)
    (hright : ∀ p q e q', F p → G q → J p q → Cond p q (.right e) → M₂.step q e = some q' →
      J p q') : J p q := by
  have hknown : ∀ {es p q}, JointRun M₁ M₂ Cond p₀ q₀ es p q → F p ∧ G q := by
    intro es p q hr
    obtain ⟨es₁, h₁⟩ := hr.left_run
    obtain ⟨es₂, h₂⟩ := hr.right_run
    exact ⟨hF es₁ p h₁, hG es₂ q h₂⟩
  induction h with
  | nil => exact h₀
  | left hr hc hs ih => exact hleft _ _ _ _ (hknown hr).1 (hknown hr).2 ih hc hs
  | right hr hc hs ih => exact hright _ _ _ _ (hknown hr).1 (hknown hr).2 ih hc hs

variable (M₁ M₂) in
/-- One event of either machine, if it is allowed. -/
def stepWhere (ok : Pool Op₁ Res₁ S₁ Call₁ Ret₁ → Pool Op₂ Res₂ S₂ Call₂ Ret₂ →
      JointEvent C₁ Call₁ Env₁ C₂ Call₂ Env₂ → Bool)
    (x : Pool Op₁ Res₁ S₁ Call₁ Ret₁ × Pool Op₂ Res₂ S₂ Call₂ Ret₂)
    (e : JointEvent C₁ Call₁ Env₁ C₂ Call₂ Env₂) :
    Option (Pool Op₁ Res₁ S₁ Call₁ Ret₁ × Pool Op₂ Res₂ S₂ Call₂ Ret₂) :=
  if ok x.1 x.2 e then
    match e with
    | .left e => (M₁.step x.1 e).map (fun p => (p, x.2))
    | .right e => (M₂.step x.2 e).map (fun q => (x.1, q))
  else none

/-- A checked execution is a joint run under what was checked. -/
theorem of_stepWhere {ok : Pool Op₁ Res₁ S₁ Call₁ Ret₁ → Pool Op₂ Res₂ S₂ Call₂ Ret₂ →
      JointEvent C₁ Call₁ Env₁ C₂ Call₂ Env₂ → Bool}
    (hok : ∀ p q e, ok p q e = true → Cond p q e)
    {es' : List (JointEvent C₁ Call₁ Env₁ C₂ Call₂ Env₂)}
    (hr : JointRun M₁ M₂ Cond p₀ q₀ es p q)
    {x : Pool Op₁ Res₁ S₁ Call₁ Ret₁ × Pool Op₂ Res₂ S₂ Call₂ Ret₂}
    (h : es'.foldlM (stepWhere M₁ M₂ ok) (p, q) = some x) :
    JointRun M₁ M₂ Cond p₀ q₀ (es ++ es') x.1 x.2 := by
  induction es' generalizing es p q with
  | nil =>
    rw [List.foldlM_nil] at h
    cases h
    rw [List.append_nil]
    exact hr
  | cons e es' ih =>
    rw [List.foldlM_cons] at h
    obtain ⟨⟨p₁, q₁⟩, hstep, hrest⟩ := Option.bind_eq_some_iff.mp h
    have hnext : JointRun M₁ M₂ Cond p₀ q₀ (es ++ [e]) p₁ q₁ := by
      unfold stepWhere at hstep
      split at hstep
      · next hc =>
        cases e with
        | left e =>
          obtain ⟨p₂, hs, heq⟩ := Option.map_eq_some_iff.mp hstep
          cases heq
          exact hr.left (hok _ _ _ hc) hs
        | right e =>
          obtain ⟨q₂, hs, heq⟩ := Option.map_eq_some_iff.mp hstep
          cases heq
          exact hr.right (hok _ _ _ hc) hs
      · cases hstep
    have hall := ih hnext hrest
    rw [List.append_assoc] at hall
    exact hall

end JointRun

end

end Conc
