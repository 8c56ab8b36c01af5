/-
What the environment decides about one operation.

A call that leaves the process may succeed, fail before it had any effect, or
report an error although it took effect: a commit whose acknowledgement is lost,
a message the broker has but did not confirm. `attempt` is this for an effect on
any state; the monolith's statements and the notifier's share it, so that a run
with failures means the same on both sides of the broker.
-/
import ReleaseNotifier.Errors

set_option autoImplicit false

namespace ReleaseNotifier

/-- The environment's part in one operation. -/
inductive Choice
  /-- it succeeds, or does the one thing it can do -/
  | ok
  /-- it fails and has no effect -/
  | fail (f : Fault)
  /-- it reports an error although it took effect -/
  | failApplied (f : Fault)
  /-- it took effect but `RowsAffected` fails -/
  | noCount (f : Fault)
  /-- it took effect but the `data` column does not decode -/
  | badData (f : Fault)
  /-- GitHub's answer, or whether the context is done -/
  | answer (b : Bool)
  /-- the `select` receives, times out, or sees its context done -/
  | receive
  | timeout
  | done (f : Fault)
  deriving DecidableEq, Repr

variable {α S : Type}

/-- A statement that would answer `a` and move to `s'`, or be refused. -/
def attempt (s : S) (effect : Except Err (α × S)) : Choice → Option (Except Err α × S)
  | .ok =>
    match effect with
    | .ok (a, s') => some (.ok a, s')
    | .error e => some (.error e, s)
  | .fail f => some (.error f.err, s)
  | .failApplied f =>
    match effect with
    | .ok (_, s') => some (.error f.err, s')
    | .error _ => none
  | _ => none

variable {s t : S} {ch : Choice}

/-- A statement either fails and changes nothing, or takes effect, with or
without an error. -/
theorem attempt_cases {effect : Except Err (α × S)} {r : Except Err α}
    (h : attempt s effect ch = some (r, t)) :
    (∃ e, r = .error e ∧ t = s ∧ (effect = .error e ∨ ∃ f : Fault, e = f.err)) ∨
      ∃ a, effect = .ok (a, t) ∧ (r = .ok a ∨ ∃ f : Fault, r = .error f.err) := by
  cases ch with
  | ok =>
    cases effect with
    | error e =>
      simp only [attempt, Option.some.injEq, Prod.mk.injEq] at h
      exact .inl ⟨e, h.1.symm, h.2.symm, .inl rfl⟩
    | ok x =>
      simp only [attempt, Option.some.injEq, Prod.mk.injEq] at h
      obtain ⟨rfl, rfl⟩ := h
      exact .inr ⟨x.1, rfl, .inl rfl⟩
  | fail f =>
    simp only [attempt, Option.some.injEq, Prod.mk.injEq] at h
    exact .inl ⟨f.err, h.1.symm, h.2.symm, .inr ⟨f, rfl⟩⟩
  | failApplied f =>
    cases effect with
    | error e' => simp [attempt] at h
    | ok x =>
      simp only [attempt, Option.some.injEq, Prod.mk.injEq] at h
      obtain ⟨rfl, rfl⟩ := h
      exact .inr ⟨x.1, rfl, .inr ⟨f, rfl⟩⟩
  | _ => simp [attempt] at h

/-- An answer without an error is the effect's own. -/
theorem attempt_ok {effect : Except Err (α × S)} {a : α}
    (h : attempt s effect ch = some (.ok a, t)) : effect = .ok (a, t) := by
  rcases attempt_cases h with ⟨e, he, _⟩ | ⟨b, hb, hr | ⟨f, hf⟩⟩
  · cases he
  · cases hr; exact hb
  · cases hf

end ReleaseNotifier
