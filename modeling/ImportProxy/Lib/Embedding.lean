import ImportProxy.Lib.Pool

/-!
# A program inside a larger one

A program whose threads and whose environment take the steps of a smaller one on a part
of their state. What the environment does to that part beyond the smaller program is an
interference: stable properties of the smaller program that the interference keeps are
stable properties of the larger one. A larger program that does not interfere drives the
smaller one: its runs are runs of the smaller one.
-/

namespace Lib
namespace Program

universe u v w x y z u' v' y'

variable {σ : Type u} {τ : Type v} {α : Type w} {ι : Type x} {ε : Type y} {σ' : Type u'}
  {τ' : Type v'} {ε' : Type y'}

/-- On the part `g` of the shared state, and seen through `f`, a thread of `Q` takes a step of
`P` or waits, and the environment takes a step of `P` or interferes. -/
structure Embeds (Q : Program σ' τ' α ι ε') (P : Program σ τ α ι ε) (g : σ' → σ) (f : τ' → τ)
    (interferes : σ → σ → Prop) : Prop where
  start : ∀ a, f (Q.start a) = P.start a
  act : ∀ s i t x,
    (g (Q.act s i t x).1 = (P.act (g s) i (f t) x).1 ∧
      f (Q.act s i t x).2 = (P.act (g s) i (f t) x).2) ∨
    (g (Q.act s i t x).1 = g s ∧ f (Q.act s i t x).2 = f t)
  env : ∀ s e, (∃ e', g (Q.env s e) = P.env (g s) e') ∨ interferes (g s) (g (Q.env s e))

variable {Q : Program σ' τ' α ι ε'} {P : Program σ τ α ι ε} {g : σ' → σ} {f : τ' → τ}
  {interferes : σ → σ → Prop} {I : σ → Prop}

/-- A property of the shared state that `P` and the interference keep holds throughout the runs
of `Q`. -/
theorem Embeds.invariant (h : Embeds Q P g f interferes)
    (hact : ∀ s i t x, I s → I (P.act s i t x).1) (henv : ∀ s e, I s → I (P.env s e))
    (hinterferes : ∀ s s', interferes s s' → I s → I s') {s : Pool σ' τ'} (hs : I (g s.shared))
    (moves : List (Move α ι ε')) : I (g (Q.after s moves).shared) := by
  refine run_invariant (fun s : Pool σ' τ' ↦ I (g s.shared)) hs ?_
  intro s move hs
  cases move with
  | spawn a => exact hs
  | env e =>
    show I (g (Q.env s.shared e))
    rcases h.env s.shared e with ⟨e', he⟩ | he
    · rw [he]
      exact henv _ _ hs
    · exact hinterferes _ _ he hs
  | run i x =>
    cases ht : s.threads[i]? with
    | none =>
      rw [step_run_none ht]
      exact hs
    | some t =>
      rw [step_run ht]
      show I (g (Q.act s.shared i t x).1)
      rcases h.act s.shared i t x with ⟨he, -⟩ | ⟨he, -⟩
      · rw [he]
        exact hact _ _ _ _ hs
      · rwa [he]

/-- Stable properties of `P` that the interference keeps are stable in `Q`. -/
theorem Embeds.stableAt {J : σ → Nat → Option τ → Prop} (h : Embeds Q P g f interferes)
    (hP : StableAt P I J) (hI : ∀ s s', interferes s s' → I s → I s')
    (hJ : ∀ s s' i u, interferes s s' → I s → J s i u → J s' i u) :
    StableAt Q (fun s ↦ I (g s)) (fun s i u ↦ J (g s) i (u.map f)) where
  start s i a hs hu := by
    rw [Option.map_some, h.start]
    exact hP.start _ i a hs hu
  act s i t x hs ht := by
    rw [Option.map_some] at ht ⊢
    rcases h.act s i t x with ⟨hshared, hthread⟩ | ⟨hshared, hthread⟩
    · rw [hshared, hthread]
      exact hP.act _ i _ x hs ht
    · rw [hshared, hthread]
      exact ⟨hs, ht⟩
  other s i t j u x hij hs ht hu := by
    rcases h.act s i t x with ⟨hshared, -⟩ | ⟨hshared, -⟩
    · rw [hshared]
      exact hP.other _ i _ j _ x hij hs ht hu
    · rwa [hshared]
  env s e hs := by
    rcases h.env s e with ⟨e', he⟩ | he
    · rw [he]
      exact hP.env _ e' hs
    · exact hI _ _ he hs
  envThread s e i u hs hu := by
    rcases h.env s e with ⟨e', he⟩ | he
    · rw [he]
      exact hP.envThread _ e' i _ hs hu
    · exact hJ _ _ i _ he hs hu

/-- On the part `g` of the shared state the threads of `Q` take the steps of `P`, and an event of
the environment of `Q` is one of `P`, or leaves that part. -/
structure Drives (Q : Program σ' τ α ι ε') (P : Program σ τ α ι ε) (g : σ' → σ)
    (driven : σ' → ε' → Option ε) : Prop where
  start : ∀ a, Q.start a = P.start a
  shared : ∀ s i t x, g (Q.act s i t x).1 = (P.act (g s) i t x).1
  thread : ∀ s i t x, (Q.act s i t x).2 = (P.act (g s) i t x).2
  env : ∀ s e, g (Q.env s e) = (driven s e).elim (g s) (P.env (g s))

/-- The threads on a part of the shared state. -/
def mapShared (g : σ' → σ) (s : Pool σ' τ) : Pool σ τ := ⟨g s.shared, s.threads⟩

/-- The move of the smaller program. -/
def drivenMove (driven : σ' → ε' → Option ε) (s : Pool σ' τ) :
    Move α ι ε' → Option (Move α ι ε)
  | .spawn a => some (.spawn a)
  | .run i x => some (.run i x)
  | .env e => (driven s.shared e).map .env

variable {Q : Program σ' τ α ι ε'} {driven : σ' → ε' → Option ε}

/-- A move of the larger program is one of the smaller one, or none. -/
theorem Drives.step (h : Drives Q P g driven) (s : Pool σ' τ) (move : Move α ι ε') :
    mapShared g (Q.step s move) =
      (drivenMove driven s move).elim (mapShared g s) (P.step (mapShared g s)) := by
  cases move with
  | spawn a =>
    show (⟨g s.shared, s.threads ++ [Q.start a]⟩ : Pool σ τ) = _
    rw [h.start]
    rfl
  | env e =>
    show (⟨g (Q.env s.shared e), s.threads⟩ : Pool σ τ) = _
    rw [h.env, drivenMove]
    cases driven s.shared e <;> rfl
  | run i x =>
    show _ = P.step (mapShared g s) (.run i x)
    cases ht : s.threads[i]? with
    | none => rw [step_run_none ht, step_run_none (s := mapShared g s) ht]
    | some t =>
      rw [step_run ht, step_run (s := mapShared g s) ht, mapShared, h.shared, h.thread]
      rfl

/-- A run of the larger program is one of the smaller one. -/
theorem Drives.after (h : Drives Q P g driven) (s : Pool σ' τ) (moves : List (Move α ι ε')) :
    ∃ moves', mapShared g (Q.after s moves) = P.after (mapShared g s) moves' := by
  induction moves generalizing s with
  | nil => exact ⟨[], rfl⟩
  | cons move moves ih =>
    obtain ⟨moves', hrun⟩ := ih (Q.step s move)
    have hstep := h.step s move
    cases hmove : drivenMove driven s move with
    | none =>
      rw [hmove] at hstep
      rw [hstep] at hrun
      exact ⟨moves', hrun⟩
    | some move' =>
      rw [hmove] at hstep
      rw [hstep] at hrun
      exact ⟨move' :: moves', hrun⟩

end Program
end Lib
