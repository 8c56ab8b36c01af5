/-
The record of calls and what it says about draws.

`enter` admits a call only if what it draws has not been drawn before, and
enters it into `calls`. So the record is the list of the pool's calls, and a
token names the one call that drew it.
-/
import ReleaseNotifier.Steps

set_option autoImplicit false

namespace ReleaseNotifier

open Conc

/-- A fresh token was drawn by no earlier call. -/
theorem State.fresh_token {s : State} {c : Call} {token : String} (h : s.fresh c = true)
    (ht : c.token? = some token) : ∀ c' ∈ s.calls, c'.token? ≠ some token := by
  intro c' hc' ht'
  have hall := List.all_eq_true.mp h c' hc'
  simp [ht, ht'] at hall

/-- The record lists the calls of the pool, newest first, and no two of them
drew the same token. -/
structure Registered (p : Pool Op Op.Res State Call Ret) : Prop where
  calls : p.state.calls = p.calls.reverse
  tokens : ∀ {i j : Nat} {c c' : Call} {token : String}, p.calls[i]? = some c →
    p.calls[j]? = some c' → c.token? = some token → c'.token? = some token → i = j

namespace Registered

variable {p : Pool Op Op.Res State Call Ret}

theorem mem_iff (h : Registered p) {c : Call} :
    c ∈ p.state.calls ↔ ∃ i : Nat, p.calls[i]? = some c := by
  rw [h.calls, List.mem_reverse, List.mem_iff_getElem?]

theorem thread_mem (h : Registered p) {i : Nat} {th : Thread Op Op.Res Call Ret}
    (hth : p.threads[i]? = some th) : th.call ∈ p.state.calls :=
  h.mem_iff.mpr ⟨i, Pool.calls_of_thread hth⟩

/-- A token names the call that drew it. -/
theorem eq_of_token (h : Registered p) {c c' : Call} {token : String} (hc : c ∈ p.state.calls)
    (hc' : c' ∈ p.state.calls) (ht : c.token? = some token) (ht' : c'.token? = some token) :
    c = c' := by
  obtain ⟨i, hi⟩ := h.mem_iff.mp hc
  obtain ⟨j, hj⟩ := h.mem_iff.mp hc'
  have hij := h.tokens hi hj ht ht'
  subst hij
  rw [hi, Option.some.injEq] at hj
  exact hj

/-- Two threads that drew the same token are the same. -/
theorem index_of_token (h : Registered p) {i j : Nat} {th th' : Thread Op Op.Res Call Ret}
    {token : String} (hi : p.threads[i]? = some th) (hj : p.threads[j]? = some th')
    (ht : th.call.token? = some token) (ht' : th'.call.token? = some token) : i = j :=
  h.tokens (Pool.calls_of_thread hi) (Pool.calls_of_thread hj) ht ht'

variable {p' : Pool Op Op.Res State Call Ret}

/-- An event that makes no call changes neither list. -/
theorem of_calls (h : Registered p) (hs : p'.state.calls = p.state.calls)
    (hp : p'.calls = p.calls) : Registered p' := by
  refine ⟨by rw [hs, hp]; exact h.calls, ?_⟩
  rw [hp]
  exact h.tokens

/-- A call that draws afresh is added to both lists. -/
theorem of_enter (h : Registered p) {c : Call} {s : State} (hent : enter c p.state = some s)
    (hs : p'.state = s) (hp : p'.calls = p.calls ++ [c]) : Registered p' := by
  obtain ⟨hfresh, hcalls⟩ := enter_eq hent
  have hnew : ∀ {i : Nat} {c' : Call} {token : String}, p.calls[i]? = some c' →
      c'.token? = some token → c.token? = some token → False := by
    intro i c' token hi ht' ht
    exact State.fresh_token hfresh ht c' (h.mem_iff.mpr ⟨i, hi⟩) ht'
  refine ⟨?_, ?_⟩
  · rw [hs, hcalls, hp, List.reverse_append, ← h.calls]
    rfl
  · rw [hp]
    intro i j d d' token hi hj ht ht'
    rcases getElem?_append_singleton hi with hold | ⟨hlast, rfl⟩
    · rcases getElem?_append_singleton hj with hold' | ⟨_, rfl⟩
      · exact h.tokens hold hold' ht ht'
      · exact (hnew hold ht ht').elim
    · rcases getElem?_append_singleton hj with hold' | ⟨hlast', _⟩
      · exact (hnew hold' ht' ht).elim
      · rw [hlast, hlast']

theorem step {D : Deps} {e : Event Choice Call WorldEvent} (h : Registered p)
    (hs : (monolith D).step p e = some p') : Registered p' := by
  cases e with
  | call c =>
    obtain ⟨s, hent, rfl⟩ := Machine.step_call _ hs
    exact h.of_enter hent rfl (by simp [Pool.calls, Machine.start])
  | run i ch =>
    obtain ⟨th, o, k, r, s, hth, _, _, hx, rfl⟩ := Machine.step_run _ hs
    exact h.of_calls (exec_frame hx).calls (Machine.map_call_set hth rfl)
  | kill i =>
    obtain ⟨th, hth, _, rfl⟩ := Machine.step_kill _ hs
    exact h.of_calls rfl (Machine.map_call_set hth rfl)
  | env e =>
    obtain ⟨s, henv, rfl⟩ := Machine.step_env _ hs
    rcases world_eq henv with ⟨d, rfl⟩ | rfl
    · exact h.of_calls rfl rfl
    · exact h.of_calls rfl rfl

end Registered

/-- Every run keeps the record. -/
theorem run_registered {D : Deps} {Cond : Pool Op Op.Res State Call Ret →
      Event Choice Call WorldEvent → Prop} {es : List (Event Choice Call WorldEvent)}
    {p : Pool Op Op.Res State Call Ret} (h : (monolith D).Run Cond monolithInit es p) :
    Registered p := by
  have hinit : Registered monolithInit := ⟨rfl, fun hi => by simp [monolithInit, Pool.calls] at hi⟩
  exact h.invariant hinit (fun _ _ _ hp _ hs => hp.step hs)

end ReleaseNotifier
