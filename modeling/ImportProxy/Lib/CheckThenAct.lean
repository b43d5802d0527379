import ImportProxy.Lib.Pool

/-!
# Checks before actions

Threads that compare a shared quantity with a bound, and add to it in a later step. The quantity
stays within the bound in every run in which no thread adds while another one, whose comparison
has passed, is yet to add.
-/

namespace Lib.Program

universe u v w x y

variable {σ : Type u} {τ : Type v} {α : Type w} {ι : Type x} {ε : Type y}

/-- A thread waits only when its comparison has found the quantity below the bound, and adds at
most one to it, when it waits; nothing else adds to it. -/
structure Checks (P : Program σ τ α ι ε) (quantity : σ → Int) (bound : Int) (waits : τ → Bool)
    (adds : σ → τ → ι → Bool) : Prop where
  start : ∀ a, waits (P.start a) = false
  passed : ∀ s i t x, waits (P.act s i t x).2 = true → waits t = true ∨ quantity s < bound
  kept : ∀ s i t x, adds s t x = false → quantity (P.act s i t x).1 ≤ quantity s
  added : ∀ s i t x, adds s t x = true → quantity (P.act s i t x).1 ≤ quantity s + 1
  waited : ∀ s t x, adds s t x = true → waits t = true
  settled : ∀ s i t x, adds s t x = true → waits (P.act s i t x).2 = false
  env : ∀ s e, quantity (P.env s e) ≤ quantity s

/-- The move adds to the quantity while another thread waits. -/
def addsBetween (waits : τ → Bool) (adds : σ → τ → ι → Bool) (s : Pool σ τ) :
    Move α ι ε → Bool
  | .run i x =>
    match s.threads[i]? with
    | some t => adds s.shared t x && 1 < s.threads.countP waits
    | none => false
  | .spawn _ | .env _ => false

/-- The quantity is within the bound, and below it as long as a thread waits. -/
structure Below (quantity : σ → Int) (bound : Int) (waits : τ → Bool) (s : Pool σ τ) : Prop where
  le : quantity s.shared ≤ bound
  lt : ∀ t ∈ s.threads, waits t = true → quantity s.shared < bound

namespace Checks

variable {P : Program σ τ α ι ε} {quantity : σ → Int} {bound : Int} {waits : τ → Bool}
  {adds : σ → τ → ι → Bool} {s : Pool σ τ}

/-- When the only thread that waits adds to the quantity, none waits afterwards. -/
theorem not_waits (h : Checks P quantity bound waits adds) {i : Nat} {t : τ} {x : ι}
    (ht : s.threads[i]? = some t) (hadds : adds s.shared t x = true)
    (halone : s.threads.countP waits ≤ 1) :
    ∀ u ∈ s.threads.set i (P.act s.shared i t x).2, waits u = false := by
  obtain ⟨hi, hget⟩ := List.getElem?_eq_some_iff.mp ht
  have hsettled := h.settled s.shared i t x hadds
  have hwaited := h.waited s.shared t x hadds
  have hcount : (s.threads.set i (P.act s.shared i t x).2).countP waits = 0 := by
    rw [List.countP_set hi, hget, hwaited, hsettled]
    simp only [if_true, Bool.false_eq_true, if_false]
    omega
  intro u hu
  exact Bool.eq_false_iff.mpr (List.countP_eq_zero.mp hcount u hu)

/-- A move that adds to the quantity only when no other thread waits keeps it within the bound. -/
theorem step (h : Checks P quantity bound waits adds) (hs : Below quantity bound waits s)
    (move : Move α ι ε) (hok : addsBetween waits adds s move = false) :
    Below quantity bound waits (P.step s move) := by
  cases move with
  | spawn a =>
    refine ⟨hs.le, fun t hmem hwaits ↦ ?_⟩
    rcases List.mem_append.mp hmem with hmem | hmem
    · exact hs.lt t hmem hwaits
    · rw [List.mem_singleton.mp hmem, h.start a] at hwaits
      cases hwaits
  | env e =>
    have henv := h.env s.shared e
    exact ⟨henv.trans hs.le, fun t hmem hwaits ↦ henv.trans_lt (hs.lt t hmem hwaits)⟩
  | run i x =>
    cases ht : s.threads[i]? with
    | none =>
      rw [step_run_none ht]
      exact hs
    | some t =>
      have hmem : t ∈ s.threads := List.mem_of_getElem? ht
      rw [step_run ht]
      cases hadds : adds s.shared t x with
      | true =>
        have hlt := hs.lt t hmem (h.waited s.shared t x hadds)
        have hadded := h.added s.shared i t x hadds
        have halone : s.threads.countP waits ≤ 1 := by
          simpa [addsBetween, ht, hadds] using hok
        refine ⟨by dsimp only; omega, fun u hu hwaits ↦ ?_⟩
        rw [h.not_waits ht hadds halone u hu] at hwaits
        cases hwaits
      | false =>
        have hkept := h.kept s.shared i t x hadds
        refine ⟨hkept.trans hs.le, fun u hu hwaits ↦ hkept.trans_lt ?_⟩
        rcases List.mem_or_eq_of_mem_set hu with hu | rfl
        · exact hs.lt u hu hwaits
        · rcases h.passed s.shared i t x hwaits with hold | hlt
          · exact hs.lt t hmem hold
          · exact hlt

/-- The quantity stays within the bound in every run in which no thread adds while another one
waits. -/
theorem after_le (h : Checks P quantity bound waits adds) (hs : Below quantity bound waits s)
    {moves : List (Move α ι ε)}
    (hok : Along P.step (fun s move ↦ addsBetween waits adds s move = false) s moves) :
    quantity (P.after s moves).shared ≤ bound := by
  have hbelow : Below quantity bound waits (P.after s moves) :=
    hok.invariant (Below quantity bound waits) hs fun _ move hinv hmove ↦ h.step hinv move hmove
  exact hbelow.le

end Checks
end Lib.Program
