import ImportProxy.Lib.Pool

/-!
# Refinement of programs

A program whose threads stand for threads of another one on the same shared
state. Each of its steps is a step of the other program, or changes nothing
there; its runs are then runs of the other program.
-/

namespace Lib

universe u v v' w x x' y

variable {σ : Type u} {τ : Type v} {τ' : Type v'} {α : Type w} {ι : Type x} {ι' : Type x'}
  {ε : Type y}

/-- The threads that the threads stand for. -/
def Pool.mapThreads (f : τ → τ') (s : Pool σ τ) : Pool σ τ' := ⟨s.shared, s.threads.map f⟩

namespace Program

/-- Every step of `P` is one of `Q`, or changes nothing there. -/
structure Refines (P : Program σ τ α ι ε) (Q : Program σ τ' α ι' ε) (f : τ → τ') : Prop where
  start : ∀ a, f (P.start a) = Q.start a
  act : ∀ s i t x, (∃ y, Q.act s i (f t) y = ((P.act s i t x).1, f (P.act s i t x).2)) ∨
    ((P.act s i t x).1 = s ∧ f (P.act s i t x).2 = f t)
  env : ∀ s e, P.env s e = Q.env s e

variable {P : Program σ τ α ι ε} {Q : Program σ τ' α ι' ε} {f : τ → τ'}

/-- A move of `P` is a schedule of `Q` of at most one move. -/
theorem Refines.exists_step (h : Refines P Q f) (s : Pool σ τ) (move : Move α ι ε) :
    ∃ moves, (P.step s move).mapThreads f = Q.after (s.mapThreads f) moves := by
  cases move with
  | spawn a =>
    refine ⟨[.spawn a], ?_⟩
    simp only [Pool.mapThreads, after, step, List.foldl_cons, List.foldl_nil, List.map_append,
      List.map_singleton, h.start]
  | env e =>
    refine ⟨[.env e], ?_⟩
    simp only [Pool.mapThreads, after, step, List.foldl_cons, List.foldl_nil, h.env]
  | run i x =>
    cases ht : s.threads[i]? with
    | none =>
      rw [step_run_none ht]
      exact ⟨[], rfl⟩
    | some t =>
      have hf : (s.mapThreads f).threads[i]? = some (f t) := by
        simp only [Pool.mapThreads, List.getElem?_map, ht, Option.map_some]
      rw [step_run ht]
      rcases h.act s.shared i t x with ⟨y, hy⟩ | ⟨hs, hsame⟩
      · refine ⟨[.run i y], ?_⟩
        have hact : Q.act (s.mapThreads f).shared i (f t) y =
            ((P.act s.shared i t x).1, f (P.act s.shared i t x).2) := hy
        simp only [after, List.foldl_cons, List.foldl_nil]
        rw [step_run hf, hact]
        simp only [Pool.mapThreads, List.map_set]
      · refine ⟨[], ?_⟩
        have hset : (s.threads.map f).set i (f t) = s.threads.map f := by
          obtain ⟨hi, hget⟩ := List.getElem?_eq_some_iff.mp hf
          rw [← hget]
          exact List.set_getElem_self hi
        simp only [Pool.mapThreads, List.map_set, hs, hsame, hset]
        rfl

/-- A run of `P` is a run of `Q`. -/
theorem Refines.exists_after (h : Refines P Q f) (s : Pool σ τ) (moves : List (Move α ι ε)) :
    ∃ moves', (P.after s moves).mapThreads f = Q.after (s.mapThreads f) moves' := by
  induction moves generalizing s with
  | nil => exact ⟨[], rfl⟩
  | cons move moves ih =>
    obtain ⟨first, hfirst⟩ := h.exists_step s move
    obtain ⟨rest, hrest⟩ := ih (P.step s move)
    refine ⟨first ++ rest, ?_⟩
    rw [after_append, ← hfirst]
    exact hrest

end Program
end Lib
