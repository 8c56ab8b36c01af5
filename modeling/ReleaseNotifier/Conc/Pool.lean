/-
A pool of calls running side by side on one shared state.

A `Machine` says what a call runs (`program`), what one operation does to the
shared state under a choice of the environment (`exec`), what making a call
changes by itself (`enter`) and what the world may do on its own (`env`). The
pool then takes one event at a time: a new call, one operation of one running
call, the death of a running call, a step of the world. A run is a list of
events, so "for every interleaving" is a quantifier over lists.

A call keeps its place in the list for ever and the list only grows at its
end, so a position names a call and the positions are in the order in which
the calls were made. `ended` records how many calls had been made when the
call came to its end, which is what "this call was made after that one had
ended" is stated with.
-/
import ReleaseNotifier.Conc.Prog

set_option autoImplicit false

namespace Conc

/-- The parts of a system of concurrent calls. A `none` of `enter`, `exec` or
`env` means that the event cannot happen in this state. -/
structure Machine (Op : Type) (Res : Op → Type) (S C Call Env Ret : Type) where
  program : Call → Prog Op Res Ret
  enter : Call → S → Option S
  exec : S → (o : Op) → C → Option (Res o × S)
  env : Env → S → Option S

/-- A call and what is left of its program. -/
structure Thread (Op : Type) (Res : Op → Type) (Call Ret : Type) where
  call : Call
  prog : Prog Op Res Ret
  /-- How many calls had been made when this one returned or died. -/
  ended : Option Nat

/-- The shared state and every call made so far. -/
structure Pool (Op : Type) (Res : Op → Type) (S Call Ret : Type) where
  state : S
  threads : List (Thread Op Res Call Ret)

/-- Where an element of a list with one more element stands. -/
theorem getElem?_append_singleton {τ : Type} {l : List τ} {x y : τ} {i : Nat}
    (h : (l ++ [x])[i]? = some y) : l[i]? = some y ∨ (i = l.length ∧ y = x) := by
  rcases Nat.lt_or_ge i l.length with hlt | hge
  · rw [List.getElem?_append_left hlt] at h
    exact .inl h
  · rw [List.getElem?_append_right hge] at h
    cases hi : i - l.length with
    | zero =>
      rw [hi, List.getElem?_cons_zero, Option.some.injEq] at h
      exact .inr ⟨by omega, h.symm⟩
    | succ n => rw [hi] at h; simp at h

/-- Where an element of a list with one element replaced stands. -/
theorem getElem?_set_cases {τ : Type} {l : List τ} {i j : Nat} {x y : τ}
    (h : (l.set i x)[j]? = some y) : (j = i ∧ y = x) ∨ (j ≠ i ∧ l[j]? = some y) := by
  rw [List.getElem?_set] at h
  split at h
  · next hij =>
    split at h
    · exact .inl ⟨hij.symm, (Option.some.inj h).symm⟩
    · cases h
  · next hij => exact .inr ⟨fun h => hij h.symm, h⟩

/-- Counting in a list with one element replaced. -/
theorem countP_set_add {τ : Type} {f : τ → Bool} {l : List τ} {i : Nat} {x y : τ}
    (h : l[i]? = some x) :
    (l.set i y).countP f + (if f x = true then 1 else 0)
      = l.countP f + (if f y = true then 1 else 0) := by
  obtain ⟨hi, hx⟩ := List.getElem?_eq_some_iff.mp h
  rw [List.countP_set hi, hx]
  by_cases hf : f x = true
  · have hpos : 0 < l.countP f := List.countP_pos_iff.mpr ⟨x, List.mem_of_getElem? h, hf⟩
    simp only [hf, if_true]
    omega
  · simp only [hf, Bool.false_eq_true, if_false]
    omega

/-- What can happen to a pool. -/
inductive Event (C Call Env : Type) : Type
  | call (c : Call)
  | run (i : Nat) (ch : C)
  | kill (i : Nat)
  | env (e : Env)

section

variable {Op : Type} {Res : Op → Type} {S C Call Env Ret : Type}

namespace Thread

/-- The thread after `n` calls in all, with `p` left to run. -/
def resume (n : Nat) (th : Thread Op Res Call Ret) (p : Prog Op Res Ret) :
    Thread Op Res Call Ret :=
  { th with prog := p, ended := if p.result?.isSome then some n else none }

/-- The operation a running call issues next. -/
def pending? (th : Thread Op Res Call Ret) : Option Op :=
  if th.ended.isNone then th.prog.next? else none

@[simp] theorem resume_call (n : Nat) (th : Thread Op Res Call Ret) (p : Prog Op Res Ret) :
    (th.resume n p).call = th.call := rfl

@[simp] theorem resume_prog (n : Nat) (th : Thread Op Res Call Ret) (p : Prog Op Res Ret) :
    (th.resume n p).prog = p := rfl

/-- A call about to issue an operation is running and has it in front. -/
theorem pending?_eq_some {th : Thread Op Res Call Ret} {o : Op} (h : th.pending? = some o) :
    th.ended = none ∧ ∃ k, th.prog = .op o k := by
  unfold pending? at h
  split at h
  · next hend =>
    refine ⟨Option.isNone_iff_eq_none.mp hend, ?_⟩
    cases hp : th.prog with
    | ret a => rw [hp] at h; simp at h
    | op o' k =>
      rw [hp, Prog.next?_op, Option.some.injEq] at h
      subst h
      exact ⟨k, rfl⟩
  · cases h

theorem pending?_of_op {th : Thread Op Res Call Ret} {o : Op} {k : Res o → Prog Op Res Ret}
    (hend : th.ended = none) (hp : th.prog = .op o k) : th.pending? = some o := by
  simp [pending?, hend, hp]

end Thread

/-- The call of thread `i` and the operation it issues next. -/
def Pool.due? (p : Pool Op Res S Call Ret) (i : Nat) : Option (Call × Op) :=
  match p.threads[i]? with
  | some th => th.pending?.map (fun o => (th.call, o))
  | none => none

variable {p : Pool Op Res S Call Ret} {th : Thread Op Res Call Ret} {i : Nat}

theorem Pool.due?_of_op {o : Op} {k : Res o → Prog Op Res Ret} (hth : p.threads[i]? = some th)
    (hend : th.ended = none) (hp : th.prog = .op o k) : p.due? i = some (th.call, o) := by
  simp [Pool.due?, hth, Thread.pending?_of_op hend hp]

/-- The call that is due is one of the pool. -/
theorem Pool.due?_eq_some {c : Call} {o : Op} (h : p.due? i = some (c, o)) :
    ∃ th, p.threads[i]? = some th ∧ th.call = c ∧ th.pending? = some o := by
  unfold Pool.due? at h
  split at h
  · next th hth =>
    obtain ⟨o', ho', heq⟩ := Option.map_eq_some_iff.mp h
    cases heq
    exact ⟨th, hth, rfl, ho'⟩
  · cases h

/-- The calls made so far, in the order in which they were made. -/
def Pool.calls (p : Pool Op Res S Call Ret) : List Call := p.threads.map Thread.call

theorem Pool.calls_of_thread (h : p.threads[i]? = some th) : p.calls[i]? = some th.call := by
  simp [Pool.calls, h]

/-- No call is about to issue an operation of this kind. -/
def Pool.NoneDue (p : Pool Op Res S Call Ret) (kind : Call → Op → Bool) : Prop :=
  ∀ th ∈ p.threads, ∀ o ∈ th.pending?, kind th.call o = false

instance (p : Pool Op Res S Call Ret) (kind : Call → Op → Bool) : Decidable (p.NoneDue kind) :=
  inferInstanceAs (Decidable (∀ th ∈ p.threads, ∀ o ∈ th.pending?, kind th.call o = false))

theorem Pool.NoneDue.pending {kind : Call → Op → Bool} (h : p.NoneDue kind)
    (hth : p.threads[i]? = some th) {o : Op} (ho : th.pending? = some o) : kind th.call o = false :=
  h th (List.mem_of_getElem? hth) o ho

namespace Machine

variable (M : Machine Op Res S C Call Env Ret)

/-- The thread a new call starts, the `n`th call included. -/
def start (n : Nat) (c : Call) : Thread Op Res Call Ret :=
  Thread.resume n ⟨c, M.program c, none⟩ (M.program c)

/-- One event. -/
def step (p : Pool Op Res S Call Ret) : Event C Call Env → Option (Pool Op Res S Call Ret)
  | .call c =>
    match M.enter c p.state with
    | some s => some ⟨s, p.threads ++ [M.start (p.threads.length + 1) c]⟩
    | none => none
  | .run i ch =>
    match p.threads[i]? with
    | some th =>
      if th.ended.isNone then
        match th.prog with
        | .op o k =>
          match M.exec p.state o ch with
          | some (r, s) => some ⟨s, p.threads.set i (th.resume p.threads.length (k r))⟩
          | none => none
        | .ret _ => none
      else none
    | none => none
  | .kill i =>
    match p.threads[i]? with
    | some th =>
      if th.ended.isNone then
        some ⟨p.state, p.threads.set i { th with ended := some p.threads.length }⟩
      else none
    | none => none
  | .env e =>
    match M.env e p.state with
    | some s => some ⟨s, p.threads⟩
    | none => none

/-- A list of events from one pool to another. -/
def steps (p : Pool Op Res S Call Ret) : List (Event C Call Env) → Option (Pool Op Res S Call Ret)
  | [] => some p
  | e :: es =>
    match M.step p e with
    | some p' => steps p' es
    | none => none

/-! ## What one event can do

One inversion lemma per kind of event. Every invariant below is proved from
these; none of them looks inside `step` again. -/

/-- A new call is appended. -/
theorem step_call {p p' : Pool Op Res S Call Ret} {c : Call} (h : M.step p (.call c) = some p') :
    ∃ s, M.enter c p.state = some s ∧
      p' = ⟨s, p.threads ++ [M.start (p.threads.length + 1) c]⟩ := by
  simp only [step] at h
  cases hs : M.enter c p.state with
  | none => rw [hs] at h; cases h
  | some s =>
    rw [hs] at h
    exact ⟨s, rfl, (Option.some.inj h).symm⟩

/-- A call that may be made starts its program. -/
theorem step_call_of_enter {p : Pool Op Res S Call Ret} {c : Call} {s : S}
    (h : M.enter c p.state = some s) :
    M.step p (.call c) = some ⟨s, p.threads ++ [M.start (p.threads.length + 1) c]⟩ := by
  simp only [step, h]

variable {i : Nat}

/-- One operation of one call; the others keep their programs. -/
theorem step_run {p p' : Pool Op Res S Call Ret} {ch : C} (h : M.step p (.run i ch) = some p') :
    ∃ th o k r s, p.threads[i]? = some th ∧ th.ended = none ∧ th.prog = .op o k ∧
      M.exec p.state o ch = some (r, s) ∧
      p' = ⟨s, p.threads.set i (th.resume p.threads.length (k r))⟩ := by
  simp only [step] at h
  cases hth : p.threads[i]? with
  | none => rw [hth] at h; cases h
  | some th =>
    rw [hth] at h
    dsimp only at h
    split at h
    · next hend =>
      cases hp : th.prog with
      | ret a => rw [hp] at h; cases h
      | op o k =>
        rw [hp] at h
        dsimp only at h
        cases hx : M.exec p.state o ch with
        | none => rw [hx] at h; cases h
        | some x =>
          rw [hx] at h
          exact ⟨th, o, k, x.1, x.2, rfl, Option.isNone_iff_eq_none.mp hend, hp, hx,
            (Option.some.inj h).symm⟩
    · cases h

/-- A running call whose next operation can be executed can take a step. -/
theorem step_run_of_exec {p : Pool Op Res S Call Ret} {ch : C} {th : Thread Op Res Call Ret}
    {o : Op} {k : Res o → Prog Op Res Ret} {r : Res o} {s : S} (hth : p.threads[i]? = some th)
    (hend : th.ended = none) (hp : th.prog = .op o k) (hx : M.exec p.state o ch = some (r, s)) :
    M.step p (.run i ch) = some ⟨s, p.threads.set i (th.resume p.threads.length (k r))⟩ := by
  simp only [step, hth, hend, hp, hx, Option.isNone_none, if_true]

/-- A call that is killed keeps its program and never runs again. -/
theorem step_kill {p p' : Pool Op Res S Call Ret} (h : M.step p (.kill i) = some p') :
    ∃ th, p.threads[i]? = some th ∧ th.ended = none ∧
      p' = ⟨p.state, p.threads.set i { th with ended := some p.threads.length }⟩ := by
  simp only [step] at h
  cases hth : p.threads[i]? with
  | none => rw [hth] at h; cases h
  | some th =>
    rw [hth] at h
    dsimp only at h
    split at h
    · next hend =>
      exact ⟨th, rfl, Option.isNone_iff_eq_none.mp hend, (Option.some.inj h).symm⟩
    · cases h

/-- The world changes the state and no call. -/
theorem step_env {p p' : Pool Op Res S Call Ret} {e : Env} (h : M.step p (.env e) = some p') :
    ∃ s, M.env e p.state = some s ∧ p' = ⟨s, p.threads⟩ := by
  simp only [step] at h
  cases hs : M.env e p.state with
  | none => rw [hs] at h; cases h
  | some s =>
    rw [hs] at h
    exact ⟨s, rfl, (Option.some.inj h).symm⟩

variable {e : Event C Call Env}

/-- Where the state after an event comes from: an operation of a call, or else
making a call or a step of the world, if the state has changed at all. -/
theorem step_state {p p' : Pool Op Res S Call Ret} (h : M.step p e = some p') :
    (∃ i ch th o k r, e = .run i ch ∧ p.threads[i]? = some th ∧ th.ended = none ∧
        th.prog = .op o k ∧ M.exec p.state o ch = some (r, p'.state)) ∨
      p'.state = p.state ∨ (∃ c, M.enter c p.state = some p'.state) ∨
      ∃ w, M.env w p.state = some p'.state := by
  cases e with
  | call c =>
    obtain ⟨s, hs, rfl⟩ := M.step_call h
    exact .inr (.inr (.inl ⟨c, hs⟩))
  | run i ch =>
    obtain ⟨th, o, k, r, s, hth, hend, hp, hx, rfl⟩ := M.step_run h
    exact .inl ⟨i, ch, th, o, k, r, rfl, hth, hend, hp, hx⟩
  | kill i =>
    obtain ⟨th, _, _, rfl⟩ := M.step_kill h
    exact .inr (.inl rfl)
  | env w =>
    obtain ⟨s, hs, rfl⟩ := M.step_env h
    exact .inr (.inr (.inr ⟨w, hs⟩))

/-- A thread that moves on is still the thread of its call. -/
theorem map_call_set {l : List (Thread Op Res Call Ret)} {th th' : Thread Op Res Call Ret}
    (hth : l[i]? = some th) (hcall : th'.call = th.call) :
    (l.set i th').map Thread.call = l.map Thread.call := by
  refine List.ext_getElem? (fun j => ?_)
  rw [List.map_set, List.getElem?_set, hcall]
  split
  · next hij =>
    subst hij
    rw [List.getElem?_map, hth, if_pos (by simpa using (List.getElem?_eq_some_iff.mp hth).1)]
    rfl
  · rfl

/-- Calls are only ever added. -/
theorem step_calls {p p' : Pool Op Res S Call Ret} (h : M.step p e = some p') :
    p'.calls = p.calls ∨ ∃ c, e = .call c ∧ p'.calls = p.calls ++ [c] := by
  cases e with
  | call c =>
    obtain ⟨s, _, rfl⟩ := M.step_call h
    exact .inr ⟨c, rfl, by simp [Pool.calls, start]⟩
  | run i ch =>
    obtain ⟨th, o, k, r, s, hth, _, _, _, rfl⟩ := M.step_run h
    exact .inl (map_call_set hth rfl)
  | kill i =>
    obtain ⟨th, hth, _, rfl⟩ := M.step_kill h
    exact .inl (map_call_set hth rfl)
  | env e =>
    obtain ⟨s, _, rfl⟩ := M.step_env h
    exact .inl rfl

/-- A call that has ended is not touched again. -/
theorem step_ended {p p' : Pool Op Res S Call Ret} (h : M.step p e = some p')
    {th : Thread Op Res Call Ret} (hth : p.threads[i]? = some th) (hend : th.ended ≠ none) :
    p'.threads[i]? = some th := by
  have hset : ∀ {j : Nat} {th' new : Thread Op Res Call Ret}, p.threads[j]? = some th' →
      th'.ended = none → (p.threads.set j new)[i]? = some th := by
    intro j th' new hth' hnone
    by_cases hji : j = i
    · subst hji
      rw [hth, Option.some.injEq] at hth'
      subst hth'
      exact absurd hnone hend
    · rw [List.getElem?_set_ne hji]
      exact hth
  cases e with
  | call c =>
    obtain ⟨s, _, rfl⟩ := M.step_call h
    rw [List.getElem?_append_left (List.getElem?_eq_some_iff.mp hth).1]
    exact hth
  | run j ch =>
    obtain ⟨th', o, k, r, s, hth', hnone, _, _, rfl⟩ := M.step_run h
    exact hset hth' hnone
  | kill j =>
    obtain ⟨th', hth', hnone, rfl⟩ := M.step_kill h
    exact hset hth' hnone
  | env e =>
    obtain ⟨s, _, rfl⟩ := M.step_env h
    exact hth

/-- A call that is running was running before, or has just been made. -/
theorem step_running {p p' : Pool Op Res S Call Ret} (h : M.step p e = some p')
    {th' : Thread Op Res Call Ret} (hth' : p'.threads[i]? = some th') (hend : th'.ended = none) :
    (∃ th, p.threads[i]? = some th ∧ th.ended = none ∧ th.call = th'.call) ∨
      (i = p.threads.length ∧ e = .call th'.call) := by
  cases e with
  | call c =>
    obtain ⟨s, _, rfl⟩ := M.step_call h
    rcases getElem?_append_singleton hth' with hold | ⟨hi, rfl⟩
    · exact .inl ⟨th', hold, hend, rfl⟩
    · exact .inr ⟨hi, rfl⟩
  | run j ch =>
    obtain ⟨th, o, k, r, s, hth, hnone, _, _, rfl⟩ := M.step_run h
    rcases getElem?_set_cases hth' with ⟨rfl, rfl⟩ | ⟨_, hold⟩
    · exact .inl ⟨th, hth, hnone, rfl⟩
    · exact .inl ⟨th', hold, hend, rfl⟩
  | kill j =>
    obtain ⟨th, hth, _, rfl⟩ := M.step_kill h
    rcases getElem?_set_cases hth' with ⟨_, rfl⟩ | ⟨_, hold⟩
    · cases hend
    · exact .inl ⟨th', hold, hend, rfl⟩
  | env e =>
    obtain ⟨s, _, rfl⟩ := M.step_env h
    exact .inl ⟨th', hth', hend, rfl⟩

/-! ## Runs -/

/-- A run from `p₀` all of whose events meet `Cond` in the pool before them. -/
inductive Run (Cond : Pool Op Res S Call Ret → Event C Call Env → Prop)
    (p₀ : Pool Op Res S Call Ret) : List (Event C Call Env) → Pool Op Res S Call Ret → Prop
  | nil : Run Cond p₀ [] p₀
  | snoc {es : List (Event C Call Env)} {p p' : Pool Op Res S Call Ret} {e : Event C Call Env} :
      Run Cond p₀ es p → Cond p e → M.step p e = some p' → Run Cond p₀ (es ++ [e]) p'

variable {M}
variable {Cond Cond' : Pool Op Res S Call Ret → Event C Call Env → Prop}
variable {p₀ p p' : Pool Op Res S Call Ret} {es es' : List (Event C Call Env)}

/-- The invariant rule: what holds at the start and is kept by every event that
meets the condition holds wherever the run gets. -/
theorem Run.invariant {J : Pool Op Res S Call Ret → Prop} (h : M.Run Cond p₀ es p) (h₀ : J p₀)
    (hstep : ∀ p e p', J p → Cond p e → M.step p e = some p' → J p') : J p := by
  induction h with
  | nil => exact h₀
  | snoc _ hc hs ih => exact hstep _ _ _ ih hc hs

/-- Two runs, one after the other. -/
theorem Run.append (h : M.Run Cond p₀ es p) (h' : M.Run Cond p es' p') :
    M.Run Cond p₀ (es ++ es') p' := by
  induction h' with
  | nil => rw [List.append_nil]; exact h
  | snoc _ hc hs ih =>
    rw [← List.append_assoc]
    exact ih.snoc hc hs

theorem steps_append {p q : Pool Op Res S Call Ret} (h : M.steps p es = some q)
    (es' : List (Event C Call Env)) : M.steps p (es ++ es') = M.steps q es' := by
  induction es generalizing p with
  | nil =>
    simp only [steps, Option.some.injEq] at h
    rw [h, List.nil_append]
  | cons e es ih =>
    rw [List.cons_append]
    simp only [steps] at h ⊢
    cases hs : M.step p e with
    | none => rw [hs] at h; cases h
    | some p₁ =>
      rw [hs] at h
      exact ih h

/-- The events of a run determine where it gets. -/
theorem Run.steps_eq (h : M.Run Cond p₀ es p) : M.steps p₀ es = some p := by
  induction h with
  | nil => rfl
  | snoc _ _ hs ih =>
    rw [steps_append ih]
    simp only [steps, hs]

/-- A run can be cut at any of its events. -/
theorem Run.cut (h : M.Run Cond p₀ es p) {es₁ es₂ : List (Event C Call Env)}
    (hes : es = es₁ ++ e :: es₂) :
    ∃ q q', M.Run Cond p₀ es₁ q ∧ Cond q e ∧ M.step q e = some q' ∧ M.Run Cond q' es₂ p := by
  induction h generalizing es₂ with
  | nil => exact absurd hes.symm (by simp)
  | @snoc es' p₁ p₂ e' hr hc hs ih =>
    rcases List.eq_nil_or_concat es₂ with rfl | ⟨es₃, e₃, rfl⟩
    · -- the last event
      obtain ⟨rfl, heq⟩ := List.append_inj' hes rfl
      cases heq
      exact ⟨p₁, p₂, hr, hc, hs, .nil⟩
    · have hes' : es' ++ [e'] = (es₁ ++ e :: es₃) ++ [e₃] := by simpa using hes
      obtain ⟨hinit, heq⟩ := List.append_inj' hes' rfl
      cases heq
      obtain ⟨q, q', hq, hcq, hsq, hrest⟩ := ih hinit
      rw [List.concat_eq_append]
      exact ⟨q, q', hq, hcq, hsq, hrest.snoc hc hs⟩

/-- A condition may be weakened. -/
theorem Run.mono (h : M.Run Cond p₀ es p) (hcc : ∀ p e, Cond p e → Cond' p e) :
    M.Run Cond' p₀ es p := by
  induction h with
  | nil => exact .nil
  | snoc _ hc hs ih => exact ih.snoc (hcc _ _ hc) hs

/-- What is known of every event of every run may be added to its condition. -/
theorem Run.strengthen {F : Pool Op Res S Call Ret → Event C Call Env → Prop}
    (h : M.Run Cond p₀ es p)
    (hfact : ∀ es p e, M.Run Cond p₀ es p → Cond p e → F p e) :
    M.Run (fun p e => Cond p e ∧ F p e) p₀ es p := by
  induction h with
  | nil => exact .nil
  | snoc hr hc hs ih => exact ih.snoc ⟨hc, hfact _ _ _ hr hc⟩ hs

/-- In a run from a pool without calls, a call that has returned has ended. -/
theorem Run.ended_of_ret (h : M.Run Cond p₀ es p) (h₀ : p₀.threads = []) :
    ∀ (i : Nat) th a, p.threads[i]? = some th → th.prog = .ret a → th.ended ≠ none := by
  -- `resume` ends the thread of a program that has come to its end
  have hresume : ∀ {n : Nat} {th : Thread Op Res Call Ret} {q : Prog Op Res Ret} {a : Ret},
      (th.resume n q).prog = .ret a → (th.resume n q).ended ≠ none := by
    intro n th q a hq
    rw [Thread.resume_prog] at hq
    simp [Thread.resume, hq]
  have hset : ∀ {l : List (Thread Op Res Call Ret)} {i : Nat} {new : Thread Op Res Call Ret},
      (∀ a, new.prog = .ret a → new.ended ≠ none) →
      (∀ (j : Nat) th a, l[j]? = some th → th.prog = .ret a → th.ended ≠ none) →
      ∀ (j : Nat) th a, (l.set i new)[j]? = some th → th.prog = .ret a → th.ended ≠ none := by
    intro l i new hnew hold j th a hth ha
    rcases getElem?_set_cases hth with ⟨_, rfl⟩ | ⟨_, hth⟩
    · exact hnew a ha
    · exact hold j th a hth ha
  refine h.invariant (J := fun p => ∀ (i : Nat) th a, p.threads[i]? = some th →
    th.prog = .ret a → th.ended ≠ none) ?_ (fun p e p' hp _ hs => ?_)
  · intro i th a hth
    rw [h₀] at hth
    simp at hth
  · cases e with
    | call c =>
      obtain ⟨s, _, rfl⟩ := M.step_call hs
      intro i th a hth ha
      rcases getElem?_append_singleton hth with hold | ⟨_, rfl⟩
      · exact hp i th a hold ha
      · exact hresume ha
    | run i ch =>
      obtain ⟨th, o, k, r, s, _, _, _, _, rfl⟩ := M.step_run hs
      exact hset (fun a => hresume) hp
    | kill i =>
      obtain ⟨th, _, _, rfl⟩ := M.step_kill hs
      exact hset (fun _ _ hnone => by cases hnone) hp
    | env e =>
      obtain ⟨s, _, rfl⟩ := M.step_env hs
      exact hp

/-- Executing a list of events is a run, whatever the events. -/
theorem Run.of_steps_any (hc : ∀ p e, Cond p e) {p₀ : Pool Op Res S Call Ret}
    (h : M.steps p₀ es = some p) : M.Run Cond p₀ es p := by
  induction es generalizing p₀ with
  | nil =>
    simp only [steps, Option.some.injEq] at h
    subst h
    exact .nil
  | cons e es ih =>
    simp only [steps] at h
    cases hs : M.step p₀ e with
    | none => rw [hs] at h; cases h
    | some q =>
      rw [hs] at h
      have hfirst : M.Run Cond p₀ ([] ++ [e]) q := Run.nil.snoc (hc p₀ e) hs
      exact hfirst.append (ih h)

theorem Run.of_steps {p₀ : Pool Op Res S Call Ret} (h : M.steps p₀ es = some p) :
    M.Run (fun _ _ => True) p₀ es p :=
  .of_steps_any (fun _ _ => trivial) h

variable (M) in
/-- Execute a list of events, checking each one where it happens. -/
def stepsWhere (ok : Pool Op Res S Call Ret → Event C Call Env → Bool)
    (p : Pool Op Res S Call Ret) : List (Event C Call Env) → Option (Pool Op Res S Call Ret)
  | [] => some p
  | e :: es =>
    if ok p e then
      match M.step p e with
      | some p' => stepsWhere ok p' es
      | none => none
    else none

/-- A checked execution is a run under what was checked. -/
theorem Run.of_stepsWhere {ok : Pool Op Res S Call Ret → Event C Call Env → Bool}
    (hok : ∀ p e, ok p e = true → Cond p e) {p₀ : Pool Op Res S Call Ret}
    (h : M.stepsWhere ok p₀ es = some p) : M.Run Cond p₀ es p := by
  induction es generalizing p₀ with
  | nil =>
    simp only [stepsWhere, Option.some.injEq] at h
    subst h
    exact .nil
  | cons e es ih =>
    simp only [stepsWhere] at h
    split at h
    · next hc =>
      cases hs : M.step p₀ e with
      | none => rw [hs] at h; cases h
      | some q =>
        rw [hs] at h
        have hfirst : M.Run Cond p₀ ([] ++ [e]) q := Run.nil.snoc (hok p₀ e hc) hs
        exact hfirst.append (ih h)
    · cases h

end Machine

/-! ## Calls that are made one at a time -/

/-- No call of this kind is running. -/
def Pool.NoneRunning (kind : Call → Bool) (p : Pool Op Res S Call Ret) : Prop :=
  ∀ th ∈ p.threads, kind th.call = true → th.ended.isSome = true

instance (kind : Call → Bool) (p : Pool Op Res S Call Ret) : Decidable (p.NoneRunning kind) :=
  inferInstanceAs (Decidable (∀ th ∈ p.threads, kind th.call = true → th.ended.isSome = true))

/-- At most one is. -/
def Pool.OneRunning (kind : Call → Bool) (p : Pool Op Res S Call Ret) : Prop :=
  ∀ (i j : Nat) (th th' : Thread Op Res Call Ret), p.threads[i]? = some th →
    p.threads[j]? = some th' → kind th.call = true → kind th'.call = true →
    th.ended = none → th'.ended = none → i = j

theorem Pool.NoneRunning.not_running {kind : Call → Bool} (h : p.NoneRunning kind)
    (hth : p.threads[i]? = some th) (hkind : kind th.call = true) : th.ended ≠ none := by
  intro hend
  have hsome := h th (List.mem_of_getElem? hth) hkind
  rw [hend] at hsome
  cases hsome

/-- This stays so if one is made only when none is running. -/
theorem Pool.OneRunning.step {M : Machine Op Res S C Call Env Ret} {kind : Call → Bool}
    {p p' : Pool Op Res S Call Ret} {e : Event C Call Env} (h : p.OneRunning kind)
    (hs : M.step p e = some p') (hcall : ∀ c, e = .call c → kind c = true → p.NoneRunning kind) :
    p'.OneRunning kind := by
  intro i j th th' hi hj hk hk' hend hend'
  rcases M.step_running hs hi hend with ⟨t, ht, htend, htc⟩ | ⟨hilast, he⟩
  · rcases M.step_running hs hj hend' with ⟨t', ht', htend', htc'⟩ | ⟨_, he⟩
    · exact h i j t t' ht ht' (htc ▸ hk) (htc' ▸ hk') htend htend'
    · exact absurd htend ((hcall _ he hk').not_running ht (htc ▸ hk))
  · rcases M.step_running hs hj hend' with ⟨t', ht', htend', htc'⟩ | ⟨hjlast, _⟩
    · exact absurd htend' ((hcall _ he hk).not_running ht' (htc' ▸ hk'))
    · rw [hilast, hjlast]

/-! ## Numbered calls -/

/-- Some calls carry a number, or another mark of their own. The ones handed out
so far are part of the state, and no two calls have the same one. -/
structure Pool.Numbered {N : Type} (number? : Call → Option N) (used : S → List N)
    (p : Pool Op Res S Call Ret) : Prop where
  recorded : ∀ c ∈ p.calls, ∀ n ∈ number? c, n ∈ used p.state
  distinct : ∀ (i j : Nat) (c c' : Call) (n : N), p.calls[i]? = some c → p.calls[j]? = some c' →
    number? c = some n → number? c' = some n → i = j

/-- Numbers stay distinct if a call is only made with one that is new and is
then recorded. -/
theorem Pool.Numbered.step {N : Type} {M : Machine Op Res S C Call Env Ret}
    {number? : Call → Option N} {used : S → List N} {p p' : Pool Op Res S Call Ret}
    {e : Event C Call Env}
    (h : p.Numbered number? used) (hs : M.step p e = some p')
    (hused : ∀ n ∈ used p.state, n ∈ used p'.state)
    (henter : ∀ c s, M.enter c p.state = some s →
      ∀ n ∈ number? c, n ∉ used p.state ∧ n ∈ used s) : p'.Numbered number? used := by
  rcases M.step_calls hs with heq | ⟨c, rfl, heq⟩
  · refine ⟨fun c hc n hn => hused n (h.recorded c (heq ▸ hc) n hn), ?_⟩
    rw [heq]
    exact h.distinct
  · obtain ⟨s, hs', rfl⟩ := M.step_call hs
    -- a number already in use is not the new one
    have hold : ∀ (i : Nat) c' n, p.calls[i]? = some c' → number? c' = some n →
        number? c ≠ some n := fun i c' n hi hn hc =>
      (henter c s hs' n hc).1 (h.recorded c' (List.mem_of_getElem? hi) n hn)
    refine ⟨fun c' hc' n hn => ?_, fun i j c₁ c₂ n hi hj h₁ h₂ => ?_⟩
    · rw [heq] at hc'
      rcases List.mem_append.mp hc' with hc' | hc'
      · exact hused n (h.recorded c' hc' n hn)
      · rw [List.mem_singleton.mp hc'] at hn
        exact (henter c s hs' n hn).2
    · rw [heq] at hi hj
      rcases getElem?_append_singleton hi with hi' | ⟨rfl, rfl⟩
      · rcases getElem?_append_singleton hj with hj' | ⟨rfl, rfl⟩
        · exact h.distinct i j c₁ c₂ n hi' hj' h₁ h₂
        · exact absurd h₂ (hold i c₁ n hi' h₁)
      · rcases getElem?_append_singleton hj with hj' | ⟨rfl, rfl⟩
        · exact absurd h₁ (hold j c₂ n hj' h₂)
        · rfl

end

end Conc
