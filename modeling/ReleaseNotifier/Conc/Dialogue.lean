/-
Talking to a peer that may answer anything.

A peer is a function from what has been said so far and the operation at hand to an
answer, so all sequences of answers are covered by all peers, and a program always
comes to its end. The conversation is kept in a log, and what is claimed about a
program is claimed about its result and the log. A program that obeys a protocol leaves
a log that conforms to it, whoever it talked to.
-/
import ReleaseNotifier.Conc.Protocol
import Mathlib.Data.List.Induction

set_option autoImplicit false

namespace Conc

/-- An operation and the answer to it. -/
structure Exchange (Op : Type) (Res : Op → Type) where
  op : Op
  answer : Res op

/-- Somebody who answers. -/
abbrev Peer (Op : Type) (Res : Op → Type) := List (Exchange Op Res) → (o : Op) → Res o

namespace Prog

variable {Op : Type} {Res : Op → Type} {α β : Type}

/-- Run a program against a peer, after a conversation `log`. -/
def converse (peer : Peer Op Res) : Prog Op Res α → List (Exchange Op Res) →
    α × List (Exchange Op Res)
  | .ret a, log => (a, log)
  | .op o k, log => (k (peer log o)).converse peer (log ++ [⟨o, peer log o⟩])

@[simp] theorem converse_ret (peer : Peer Op Res) (a : α) (log : List (Exchange Op Res)) :
    (.ret a : Prog Op Res α).converse peer log = (a, log) := rfl

@[simp] theorem converse_op (peer : Peer Op Res) (o : Op) (k : Res o → Prog Op Res α)
    (log : List (Exchange Op Res)) :
    (Prog.op o k).converse peer log =
      (k (peer log o)).converse peer (log ++ [⟨o, peer log o⟩]) := rfl

@[simp] theorem converse_perform (peer : Peer Op Res) (o : Op) (log : List (Exchange Op Res)) :
    (perform o : Prog Op Res (Res o)).converse peer log = (peer log o, log ++ [⟨o, peer log o⟩]) :=
  rfl

/-- A sequence goes on where its first part ended. -/
theorem converse_bind (peer : Peer Op Res) (p : Prog Op Res α) (f : α → Prog Op Res β)
    (log : List (Exchange Op Res)) :
    (p >>= f).converse peer log =
      (f (p.converse peer log).1).converse peer (p.converse peer log).2 := by
  induction p generalizing log with
  | ret a => rfl
  | op o k ih =>
    rw [op_bind, converse_op, converse_op]
    exact ih _ _

/-! ### Programs that can fail -/

section Fallible

variable {ε : Type} {p : ExceptT ε (Prog Op Res) α} {f : α → ExceptT ε (Prog Op Res) β}

/-- A sequence whose first part succeeds is its second part from there. -/
theorem converse_bind_ok {peer : Peer Op Res} {log log' : List (Exchange Op Res)} {a : α}
    (h : p.run.converse peer log = (.ok a, log')) :
    (p >>= f).run.converse peer log = (f a).run.converse peer log' := by
  rw [ExceptT.run_bind, converse_bind, h]

/-- The first failure ends a sequence. -/
theorem converse_bind_error {peer : Peer Op Res} {log log' : List (Exchange Op Res)} {e : ε}
    (h : p.run.converse peer log = (.error e, log')) :
    (p >>= f).run.converse peer log = (.error e, log') := by
  rw [ExceptT.run_bind, converse_bind, h]
  rfl

theorem Uses.bind_run {P : Op → Prop} (hp : p.run.Uses P) (hf : ∀ a, (f a).run.Uses P) :
    (p >>= f).run.Uses P := by
  rw [ExceptT.run_bind]
  exact hp.bind_except (fun _ => trivial) hf

end Fallible

/-- A program adds to the log, and only operations of its footprint. -/
theorem Uses.converse {P : Op → Prop} {p : Prog Op Res α} (h : p.Uses P) (peer : Peer Op Res)
    (log : List (Exchange Op Res)) :
    ∃ more, (p.converse peer log).2 = log ++ more ∧ ∀ e ∈ more, P e.op := by
  induction p generalizing log with
  | ret a => exact ⟨[], (List.append_nil log).symm, fun e he => absurd he List.not_mem_nil⟩
  | op o k ih =>
    obtain ⟨more, hmore, hall⟩ := ih (peer log o) (h.2 _) (log ++ [⟨o, peer log o⟩])
    refine ⟨⟨o, peer log o⟩ :: more, ?_, List.forall_mem_cons.mpr ⟨h.1, hall⟩⟩
    rw [converse_op, hmore, List.append_assoc, List.singleton_append]

/-- Two answers that `S` relates are the same to the program: it returns at once, with
one result. -/
def Settles (S : (o : Op) → Res o → Res o → Prop) : Prog Op Res α → Prop
  | .ret _ => True
  | .op o k => (∀ r, (k r).Settles S) ∧ ∀ r r', S o r r' → ∃ a, k r = .ret a ∧ k r' = .ret a

/-- Peers whose answers differ in nothing else lead to one result. -/
theorem Settles.converse_eq {S : (o : Op) → Res o → Res o → Prop} {p : Prog Op Res α}
    (h : p.Settles S) {peer peer' : Peer Op Res}
    (hpeers : ∀ log o, peer log o = peer' log o ∨ S o (peer log o) (peer' log o))
    (log : List (Exchange Op Res)) : (p.converse peer log).1 = (p.converse peer' log).1 := by
  -- the logs are the same up to the answer that differs, and that one is the last
  induction p generalizing log with
  | ret a => rfl
  | op o k ih =>
    rw [converse_op, converse_op]
    rcases hpeers log o with heq | hsame
    · rw [← heq]
      exact ih _ (h.1 _) _
    · obtain ⟨a, ha, ha'⟩ := h.2 _ _ hsame
      rw [ha, ha']
      rfl

end Prog

/-! ## Protocols -/

section Protocols

variable {Op : Type} {Res : Op → Type} {σ α β ε : Type}

namespace Protocol

variable (A : Protocol Op Res σ)

/-- The stage a conversation leads to. -/
def reach (q : σ) (log : List (Exchange Op Res)) : σ :=
  log.foldl (fun q e => A.next q e.op e.answer) q

/-- The stage after one more exchange. -/
theorem reach_concat (q : σ) (log : List (Exchange Op Res)) (e : Exchange Op Res) :
    A.reach q (log ++ [e]) = A.next (A.reach q log) e.op e.answer := by
  rw [reach, List.foldl_append]
  rfl

/-- Every operation of the conversation was allowed when it was issued. -/
def Conforms : σ → List (Exchange Op Res) → Prop
  | _, [] => True
  | q, e :: log => A.allows q e.op ∧ Conforms (A.next q e.op e.answer) log

/-- A log conforms if its parts do, one after the other. -/
theorem conforms_append {A : Protocol Op Res σ} {q : σ} {log more : List (Exchange Op Res)} :
    A.Conforms q (log ++ more) ↔ A.Conforms q log ∧ A.Conforms (A.reach q log) more := by
  induction log generalizing q with
  | nil => exact (true_and _).symm.to_iff
  | cons e log ih =>
    change _ ∧ A.Conforms _ (log ++ more) ↔ (_ ∧ _) ∧ _
    rw [ih, and_assoc]
    rfl

/-- A relation between conversation and stage that every allowed exchange keeps holds of
every conversation that conforms. -/
theorem Conforms.invariant {A : Protocol Op Res σ} {q : σ} {log : List (Exchange Op Res)}
    (h : A.Conforms q log) (R : List (Exchange Op Res) → σ → Prop) (h₀ : R [] q)
    (hstep : ∀ log q (e : Exchange Op Res), R log q → A.allows q e.op →
      R (log ++ [e]) (A.next q e.op e.answer)) : R log (A.reach q log) := by
  induction log using List.reverseRecOn with
  | nil => exact h₀
  | append_singleton log e ih =>
    obtain ⟨hlog, hlast⟩ := conforms_append.mp h
    rw [reach_concat]
    exact hstep log _ e (ih hlog) hlast.1

end Protocol

namespace Prog

variable {A : Protocol Op Res σ} {q : σ}

/-- A program that obeys a protocol adds to the log what conforms to it. -/
theorem Obeys.converse {post : α → σ → Prop} {p : Prog Op Res α} (h : p.Obeys A post q)
    (peer : Peer Op Res) (log : List (Exchange Op Res)) :
    ∃ more, (p.converse peer log).2 = log ++ more ∧ A.Conforms q more ∧
      post (p.converse peer log).1 (A.reach q more) := by
  induction p generalizing q log with
  | ret a => exact ⟨[], (List.append_nil log).symm, trivial, h⟩
  | op o k ih =>
    obtain ⟨more, hmore, hconf, hpost⟩ := ih (peer log o) (h.2 _) (log ++ [⟨o, peer log o⟩])
    refine ⟨⟨o, peer log o⟩ :: more, ?_, ⟨h.1, hconf⟩, hpost⟩
    rw [converse_op, hmore, List.append_assoc, List.singleton_append]

/-- What holds of a result that may be an error. -/
def OnResult (P : α → σ → Prop) (E : ε → σ → Prop) : Except ε α → σ → Prop
  | .ok a, q => P a q
  | .error e, q => E e q

variable {P : α → σ → Prop} {E : ε → σ → Prop}

/-- Sequencing after a call that may fail. -/
theorem Obeys.bind_except {post : β → σ → Prop} {p : Prog Op Res (Except ε α)}
    {f : Except ε α → Prog Op Res β} (hp : p.Obeys A (OnResult P E) q)
    (herr : ∀ e q, E e q → (f (.error e)).Obeys A post q)
    (hok : ∀ a q, P a q → (f (.ok a)).Obeys A post q) : (p >>= f).Obeys A post q := by
  refine hp.bind (fun r q hr => ?_)
  cases r with
  | error e => exact herr e q hr
  | ok a => exact hok a q hr

/-- The same inside `ExceptT`. -/
theorem Obeys.bind_run {Q : β → σ → Prop} {p : ExceptT ε (Prog Op Res) α}
    {f : α → ExceptT ε (Prog Op Res) β} (hp : p.run.Obeys A (OnResult P E) q)
    (hf : ∀ a q, P a q → (f a).run.Obeys A (OnResult Q E) q) :
    (p >>= f).run.Obeys A (OnResult Q E) q := by
  rw [ExceptT.run_bind]
  exact hp.bind_except (fun e q he => he) hf

end Prog

end Protocols

end Conc
