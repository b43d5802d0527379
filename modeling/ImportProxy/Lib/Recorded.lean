import ImportProxy.Lib.Pool

/-!
# Recorded runs

The runs of a program whose threads log what their steps emit. The logs take no
part in the run: without them it is a run of the program itself.
-/

namespace Lib

universe u v w x y z

variable {σ : Type u} {τ : Type v} {α : Type w} {ι : Type x} {ε : Type y} {β : Type z}

/-- The threads without their logs. -/
def Pool.forget (s : Pool σ (τ × List β)) : Pool σ τ := ⟨s.shared, s.threads.map Prod.fst⟩

namespace Program

variable (P : Program σ τ α ι ε) (emit : σ → τ → ι → List β)

/-- The program whose threads log what their steps emit. -/
def recorded : Program σ (τ × List β) α ι ε where
  start a := (P.start a, [])
  act s i t x := ((P.act s i t.1 x).1, ((P.act s i t.1 x).2, t.2 ++ emit s t.1 x))
  env := P.env

variable {P emit} {s : Pool σ (τ × List β)}

/-- A recorded move is a move. -/
theorem forget_step (move : Move α ι ε) :
    ((P.recorded emit).step s move).forget = P.step s.forget move := by
  cases move with
  | spawn a => simp only [step, Pool.forget, recorded, List.map_append, List.map_singleton]
  | run i x =>
    cases ht : s.threads[i]? with
    | none =>
      have hf : s.forget.threads[i]? = none := by simp only [Pool.forget, List.getElem?_map, ht,
        Option.map_none]
      rw [step_run_none ht, step_run_none hf]
    | some t =>
      have hf : s.forget.threads[i]? = some t.1 := by simp only [Pool.forget, List.getElem?_map,
        ht, Option.map_some]
      rw [step_run ht, step_run hf]
      simp only [Pool.forget, recorded, List.map_set]
  | env e => rfl

/-- A recorded run is a run. -/
theorem forget_after (moves : List (Move α ι ε)) :
    ((P.recorded emit).after s moves).forget = P.after s.forget moves := by
  induction moves generalizing s with
  | nil => rfl
  | cons move moves ih =>
    have hrest := ih (s := (P.recorded emit).step s move)
    rw [forget_step] at hrest
    exact hrest

end Program

/-- An entry is in a log when it is counted there. -/
theorem mem_iff_countP_ne_zero {log : List β} {p : β → Bool} {entry : β}
    (h : ∀ x, p x = true ↔ x = entry) : entry ∈ log ↔ log.countP p ≠ 0 := by
  rw [← Nat.pos_iff_ne_zero, List.countP_pos_iff]
  constructor
  · intro hmem
    exact ⟨entry, hmem, (h entry).mpr rfl⟩
  · rintro ⟨x, hmem, hx⟩
    exact (h x).mp hx ▸ hmem

/-- A log that goes on after an entry ends with it, or goes on without its last entry too. -/
theorem concat_eq_append_cons {log before rest : List β} {last entry : β}
    (h : log ++ [last] = before ++ entry :: rest) :
    (rest = [] ∧ log = before ∧ last = entry) ∨ ∃ rest', log = before ++ entry :: rest' := by
  rcases List.eq_nil_or_concat rest with rfl | ⟨rest, x, rfl⟩
  · obtain ⟨hlog, hlast⟩ := List.append_inj' h rfl
    exact Or.inl ⟨rfl, hlog, List.singleton_injective hlast⟩
  · rw [List.concat_eq_append, ← List.cons_append, ← List.append_assoc] at h
    exact Or.inr ⟨rest, (List.append_inj' h rfl).1⟩

end Lib
