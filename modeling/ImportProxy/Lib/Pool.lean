import ImportProxy.Lib.Machine
import Mathlib.Algebra.BigOperators.Group.List.Basic
import Mathlib.Tactic.Ring

/-!
# Threads on a shared state

Any number of threads that take atomic steps on a shared state, in any order,
while new threads start and the environment acts on the shared state. A schedule
is a list of moves. Two rules carry a proof from one step to every schedule: what
every thread preserves, and what the steps of the threads add up to.
-/

namespace Lib

universe u v w x y

/-- A shared state and the threads on it, in the order in which they started. -/
structure Pool (σ : Type u) (τ : Type v) where
  shared : σ
  threads : List τ
  deriving DecidableEq

/-- A thread starts, a thread takes a step with an outcome that the environment chooses, or the
environment acts. -/
inductive Move (α : Type w) (ι : Type x) (ε : Type y) where
  | spawn (a : α)
  | run (i : Nat) (x : ι)
  | env (e : ε)
  deriving DecidableEq

/-- How threads start and step, and how the environment acts. A thread knows its position. -/
structure Program (σ : Type u) (τ : Type v) (α : Type w) (ι : Type x) (ε : Type y) where
  start : α → τ
  act : σ → Nat → τ → ι → σ × τ
  env : σ → ε → σ

namespace Program

variable {σ : Type u} {τ : Type v} {α : Type w} {ι : Type x} {ε : Type y}
  (P : Program σ τ α ι ε)

/-- One move. A move of a thread that does not exist changes nothing. -/
def step (s : Pool σ τ) : Move α ι ε → Pool σ τ
  | .spawn a => { s with threads := s.threads ++ [P.start a] }
  | .run i x =>
    match s.threads[i]? with
    | none => s
    | some t => ⟨(P.act s.shared i t x).1, s.threads.set i (P.act s.shared i t x).2⟩
  | .env e => { s with shared := P.env s.shared e }

/-- The state after a schedule. -/
def after (s : Pool σ τ) (moves : List (Move α ι ε)) : Pool σ τ := moves.foldl P.step s

/-- What the steps of thread `i` add to a quantity of the shared state. -/
def changeBy (m : σ → Int) (i : Nat) : Pool σ τ → List (Move α ι ε) → Int
  | _, [] => 0
  | s, .run j x :: moves =>
    (if j = i then m (P.step s (.run j x)).shared - m s.shared else 0)
      + changeBy m i (P.step s (.run j x)) moves
  | s, move :: moves => changeBy m i (P.step s move) moves

variable {P} {s : Pool σ τ} {t : τ} {i : Nat} {x : ι}

theorem step_run (h : s.threads[i]? = some t) : P.step s (.run i x) =
    ⟨(P.act s.shared i t x).1, s.threads.set i (P.act s.shared i t x).2⟩ := by
  simp only [step, h]

theorem step_run_none (h : s.threads[i]? = none) : P.step s (.run i x) = s := by
  simp only [step, h]

/-- A step of a thread starts none. -/
theorem length_step_run (s : Pool σ τ) (i : Nat) (x : ι) :
    (P.step s (.run i x)).threads.length = s.threads.length := by
  cases hi : s.threads[i]? with
  | none => rw [step_run_none hi]
  | some t => rw [step_run hi, List.length_set]

/-- A move that is no step of thread `i` keeps that thread. -/
theorem getElem?_step_of_ne (h : s.threads[i]? = some t) {move : Move α ι ε}
    (hne : ∀ x, move ≠ .run i x) : (P.step s move).threads[i]? = some t := by
  cases move with
  | spawn a =>
    simp only [step]
    rw [List.getElem?_append_left (List.getElem?_eq_some_iff.mp h).1]
    exact h
  | run j x =>
    have hij : j ≠ i := fun he ↦ hne x (he ▸ rfl)
    cases hj : s.threads[j]? with
    | none =>
      rw [step_run_none hj]
      exact h
    | some u =>
      rw [step_run hj]
      simp only [List.getElem?_set_ne hij]
      exact h
  | env e => exact h

/-- A step of thread `i` replaces that thread. -/
theorem getElem?_step_run (h : s.threads[i]? = some t) (x : ι) :
    (P.step s (.run i x)).threads[i]? = some (P.act s.shared i t x).2 := by
  rw [step_run h]
  exact List.getElem?_set_self (List.getElem?_eq_some_iff.mp h).1

@[simp] theorem after_append (moves moves' : List (Move α ι ε)) :
    P.after s (moves ++ moves') = P.after (P.after s moves) moves' := List.foldl_append

/-- The shared property holds, and that of every position with its thread, or with none. -/
def HoldsAt (I : σ → Prop) (J : σ → Nat → Option τ → Prop) (s : Pool σ τ) : Prop :=
  I s.shared ∧ ∀ i, J s.shared i s.threads[i]?

/-- A property of the shared state and one of each position, such that every step of a thread
keeps the shared one, its own, and the one of any other position. -/
structure StableAt (P : Program σ τ α ι ε) (I : σ → Prop) (J : σ → Nat → Option τ → Prop) :
    Prop where
  start : ∀ s i a, I s → J s i none → J s i (some (P.start a))
  act : ∀ s i t x, I s → J s i (some t) →
    I (P.act s i t x).1 ∧ J (P.act s i t x).1 i (some (P.act s i t x).2)
  other : ∀ s i t j u x, i ≠ j → I s → J s i (some t) → J s j u → J (P.act s i t x).1 j u
  env : ∀ s e, I s → I (P.env s e)
  envThread : ∀ s e i u, I s → J s i u → J (P.env s e) i u

/-- Stable properties hold after every move. -/
theorem StableAt.step {I : σ → Prop} {J : σ → Nat → Option τ → Prop} (h : StableAt P I J)
    (hs : HoldsAt I J s) (move : Move α ι ε) : HoldsAt I J (P.step s move) := by
  obtain ⟨hI, hJ⟩ := hs
  cases move with
  | spawn a =>
    refine ⟨hI, ?_⟩
    intro i
    have hi := hJ i
    simp only [Program.step]
    rcases Nat.lt_trichotomy i s.threads.length with hlt | rfl | hgt
    · rw [List.getElem?_append_left hlt]
      exact hi
    · rw [List.getElem?_eq_none (Nat.le_refl _)] at hi
      rw [List.getElem?_concat_length]
      exact h.start _ _ a hI hi
    · rw [List.getElem?_eq_none (by omega)] at hi
      rw [List.getElem?_eq_none (by simp; omega)]
      exact hi
  | run i x =>
    cases ht : s.threads[i]? with
    | none =>
      rw [step_run_none ht]
      exact ⟨hI, hJ⟩
    | some t =>
      have hi := ht ▸ hJ i
      have hact := h.act s.shared i t x hI hi
      rw [step_run ht]
      refine ⟨hact.1, ?_⟩
      intro j
      dsimp only
      by_cases hij : i = j
      · subst hij
        rw [List.getElem?_set_self (List.getElem?_eq_some_iff.mp ht).1]
        exact hact.2
      · rw [List.getElem?_set_ne hij]
        exact h.other _ i t j _ x hij hI hi (hJ j)
  | env e => exact ⟨h.env _ e hI, fun i ↦ h.envThread _ e i _ hI (hJ i)⟩

/-- Stable properties hold after every schedule. -/
theorem StableAt.after {I : σ → Prop} {J : σ → Nat → Option τ → Prop} (h : StableAt P I J)
    (hs : HoldsAt I J s) (moves : List (Move α ι ε)) : HoldsAt I J (P.after s moves) :=
  run_invariant (HoldsAt I J) hs fun _ move hs ↦ h.step hs move

/-- The shared property holds, and that of each thread at its position. -/
def Holds (I : σ → Prop) (J : σ → Nat → τ → Prop) (s : Pool σ τ) : Prop :=
  I s.shared ∧ ∀ i t, s.threads[i]? = some t → J s.shared i t

theorem Holds.of_mem {I : σ → Prop} {J : σ → τ → Prop} (h : Holds I (fun s _ t ↦ J s t) s)
    (ht : t ∈ s.threads) : J s.shared t := by
  obtain ⟨i, hi⟩ := List.mem_iff_getElem?.mp ht
  exact h.2 i t hi

/-- Properties of the shared state and of the threads that say nothing of positions without a
thread. -/
structure Stable (P : Program σ τ α ι ε) (I : σ → Prop) (J : σ → Nat → τ → Prop) : Prop where
  start : ∀ s i a, I s → J s i (P.start a)
  act : ∀ s i t x, I s → J s i t → I (P.act s i t x).1 ∧ J (P.act s i t x).1 i (P.act s i t x).2
  other : ∀ s i t j u x, i ≠ j → I s → J s i t → J s j u → J (P.act s i t x).1 j u
  env : ∀ s e, I s → I (P.env s e)
  envThread : ∀ s e i t, I s → J s i t → J (P.env s e) i t

theorem Stable.toStableAt {I : σ → Prop} {J : σ → Nat → τ → Prop} (h : Stable P I J) :
    StableAt P I (fun s i u ↦ ∀ t, u = some t → J s i t) where
  start s i a hI _ t ht := Option.some.inj ht ▸ h.start s i a hI
  act s i t x hI ht := by
    have hact := h.act s i t x hI (ht t rfl)
    exact ⟨hact.1, fun u hu ↦ Option.some.inj hu ▸ hact.2⟩
  other s i t j u x hij hI ht hu v hv := h.other s i t j v x hij hI (ht t rfl) (hu v hv)
  env := h.env
  envThread s e i _ hI hu t ht := h.envThread s e i t hI (hu t ht)

/-- Stable properties hold after every move. -/
theorem Stable.step {I : σ → Prop} {J : σ → Nat → τ → Prop} (h : Stable P I J)
    (hs : Holds I J s) (move : Move α ι ε) : Holds I J (P.step s move) :=
  h.toStableAt.step hs move

/-- Stable properties hold after every schedule. -/
theorem Stable.after {I : σ → Prop} {J : σ → Nat → τ → Prop} (h : Stable P I J)
    (hs : Holds I J s) (moves : List (Move α ι ε)) : Holds I J (P.after s moves) :=
  h.toStableAt.after hs moves

/-- What the events of thread `i` add up to. -/
def ownSteps (c : ι → Nat) (i : Nat) : List (Move α ι ε) → Nat
  | [] => 0
  | .run j x :: moves => (if j = i then c x else 0) + ownSteps c i moves
  | _ :: moves => ownSteps c i moves

/-- A step of thread `i` meets the guard; so does every other move. -/
def meets (guard : σ → τ → Bool) (i : Nat) (s : Pool σ τ) : Move α ι ε → Bool
  | .run j _ =>
    match s.threads[j]? with
    | some t => j != i || guard s.shared t
    | none => true
  | _ => true

/-- What every guarded step of a thread brings about, the steps of the others do not prevent. -/
theorem progress {I : σ → Prop} {Q : Nat → τ → Prop} {guard : σ → τ → Bool} {c : ι → Nat}
    {N n : Nat} (hI : ∀ s j t x, I s → I (P.act s j t x).1) (henv : ∀ s e, I s → I (P.env s e))
    (hstep : ∀ n s t x, I s → guard s t = true → Q n t → n + c x ≤ N →
      Q (n + c x) (P.act s i t x).2)
    {moves : List (Move α ι ε)} (hs : I s.shared) (ht : s.threads[i]? = some t) (hQ : Q n t)
    (h : Along P.step (fun s move ↦ meets guard i s move = true) s moves)
    (hle : n + ownSteps c i moves ≤ N) :
    ∃ t', (P.after s moves).threads[i]? = some t' ∧ Q (n + ownSteps c i moves) t' := by
  induction moves generalizing s t n with
  | nil => exact ⟨t, ht, hQ⟩
  | cons move moves ih =>
    obtain ⟨hmove, hrest⟩ := h
    cases move with
    | spawn a => exact ih hs (getElem?_step_of_ne ht nofun) hQ hrest hle
    | env e => exact ih (henv _ e hs) ht hQ hrest hle
    | run j x =>
      have hs' : I (P.step s (.run j x)).shared := by
        cases hj : s.threads[j]? with
        | none =>
          rw [step_run_none hj]
          exact hs
        | some u =>
          rw [step_run hj]
          exact hI _ j u x hs
      by_cases hij : j = i
      · subst hij
        have hguard : guard s.shared t = true := by simpa [meets, ht] using hmove
        rw [ownSteps, if_pos rfl, ← Nat.add_assoc] at hle ⊢
        exact ih hs' (getElem?_step_run ht x) (hstep n _ t x hs hguard hQ (by omega)) hrest hle
      · have hne : ∀ y, Move.run (α := α) (ε := ε) j x ≠ .run i y :=
          fun y he ↦ hij (Move.run.inj he).1
        rw [ownSteps, if_neg hij, Nat.zero_add] at hle ⊢
        exact ih hs' (getElem?_step_of_ne ht hne) hQ hrest hle

/-- Replacing one element changes a sum by the difference. -/
theorem sum_map_set {w : τ → Int} {l : List τ} {t t' : τ} {i : Nat} (h : l[i]? = some t) :
    ((l.set i t').map w).sum = (l.map w).sum - w t + w t' := by
  induction l generalizing i with
  | nil => cases h
  | cons c l ih =>
    cases i with
    | zero =>
      cases h
      simp only [List.set_cons_zero, List.map_cons, List.sum_cons]
      ring
    | succ i =>
      simp only [List.set_cons_succ, List.map_cons, List.sum_cons, ih (i := i) h]
      ring

/-- The same for weights that are natural numbers. -/
theorem sum_map_set_add {w : τ → Nat} {l : List τ} {t t' : τ} {i : Nat} (h : l[i]? = some t) :
    ((l.set i t').map w).sum + w t = (l.map w).sum + w t' := by
  induction l generalizing i with
  | nil => cases h
  | cons c l ih =>
    cases i with
    | zero =>
      cases h
      simp only [List.set_cons_zero, List.map_cons, List.sum_cons]
      omega
    | succ i =>
      have hrest := ih (i := i) h
      simp only [List.set_cons_succ, List.map_cons, List.sum_cons]
      omega

/-- Replacing one element that gives nothing adds what the new one gives. -/
theorem perm_flatMap_set {β : Type w} {f : τ → List β} {l : List τ} {t t' : τ} {i : Nat}
    (h : l[i]? = some t) (ht : f t = []) :
    ((l.set i t').flatMap f).Perm (l.flatMap f ++ f t') := by
  induction l generalizing i with
  | nil => cases h
  | cons c l ih =>
    cases i with
    | zero =>
      cases h
      rw [List.set_cons_zero, List.flatMap_cons, List.flatMap_cons, ht, List.nil_append]
      exact List.perm_append_comm
    | succ i =>
      rw [List.set_cons_succ, List.flatMap_cons, List.flatMap_cons, List.append_assoc]
      exact (ih (i := i) h).append_left (f c)

/-- A sum of weights that are at least one where a predicate holds, and never negative, is at
least the count. -/
theorem countP_le_sum_map {w : τ → Int} {p : τ → Bool} {l : List τ}
    (h : ∀ t ∈ l, (if p t then 1 else 0) ≤ w t) : (l.countP p : Int) ≤ (l.map w).sum := by
  induction l with
  | nil => rfl
  | cons t l ih =>
    have hrest := ih fun u hu ↦ h u (List.mem_cons_of_mem t hu)
    have ht := h t List.mem_cons_self
    rw [List.map_cons, List.sum_cons, List.countP_cons]
    cases hp : p t with
    | false =>
      simp only [hp, Bool.false_eq_true, if_false] at ht ⊢
      omega
    | true =>
      simp only [hp, if_true] at ht ⊢
      omega

/-- A sum of weights that are one or zero is a count. -/
theorem sum_map_eq_countP {w : τ → Int} {p : τ → Bool} {l : List τ}
    (h : ∀ t ∈ l, w t = if p t then 1 else 0) : (l.map w).sum = l.countP p := by
  induction l with
  | nil => rfl
  | cons t l ih =>
    rw [List.map_cons, List.sum_cons, ih fun u hu ↦ h u (List.mem_cons_of_mem t hu),
      h t List.mem_cons_self, List.countP_cons]
    cases p t with
    | false => simp
    | true =>
      simp only [if_true]
      omega

/-- Replacing one element of a list whose elements all have a property. -/
theorem forall_mem_set_iff {p : τ → Prop} {q : Prop} {l : List τ} {t t' : τ} {i : Nat}
    (h : l[i]? = some t) (hp : p t' ↔ p t ∧ q) :
    (∀ u ∈ l.set i t', p u) ↔ (∀ u ∈ l, p u) ∧ q := by
  induction l generalizing i with
  | nil => cases h
  | cons c l ih =>
    cases i with
    | zero =>
      cases h
      simp only [List.set_cons_zero, List.forall_mem_cons, hp]
      exact and_right_comm
    | succ i =>
      simp only [List.set_cons_succ, List.forall_mem_cons, ih (i := i) h, and_assoc]

/-- Where the stable properties hold, every step of a thread changes the quantity `m` of the
shared state by what it changes the thread's weight. -/
structure Weighs (P : Program σ τ α ι ε) (I : σ → Prop) (J : σ → Nat → τ → Prop) (m : σ → Int)
    (w : τ → Int) : Prop extends Stable P I J where
  weight_start : ∀ a, w (P.start a) = 0
  weight_act : ∀ s i t x, I s → J s i t → m (P.act s i t x).1 - m s = w (P.act s i t x).2 - w t
  weight_env : ∀ s e, I s → m (P.env s e) = m s

namespace Weighs

variable {I : σ → Prop} {J : σ → Nat → τ → Prop} {m : σ → Int} {w : τ → Int}

/-- A move keeps the difference between the quantity and the sum of the weights. -/
theorem sum_step (h : Weighs P I J m w) (hs : Holds I J s) (move : Move α ι ε) :
    m (P.step s move).shared - ((P.step s move).threads.map w).sum =
      m s.shared - (s.threads.map w).sum := by
  cases move with
  | spawn a =>
    simp only [Program.step, List.map_append, List.sum_append, List.map_cons, List.map_nil,
      List.sum_singleton, h.weight_start a, add_zero]
  | run i x =>
    cases ht : s.threads[i]? with
    | none => rw [step_run_none ht]
    | some t =>
      have hact := h.weight_act s.shared i t x hs.1 (hs.2 i t ht)
      rw [step_run ht]
      dsimp only
      rw [sum_map_set ht]
      omega
  | env e => simp only [Program.step, h.weight_env _ e hs.1]

/-- After every schedule the quantity has grown by the sum of the weights. -/
theorem sum_after (h : Weighs P I J m w) (hs : Holds I J s) (moves : List (Move α ι ε)) :
    m (P.after s moves).shared - ((P.after s moves).threads.map w).sum =
      m s.shared - (s.threads.map w).sum := by
  induction moves generalizing s with
  | nil => rfl
  | cons move moves ih => exact (ih (h.step hs move)).trans (h.sum_step hs move)

/-- The weight of thread `i`, zero before it starts. -/
def weightAt (w : τ → Int) (i : Nat) (s : Pool σ τ) : Int := (s.threads[i]?.map w).getD 0

/-- A move that is no step of thread `i` keeps its weight. -/
theorem weightAt_step_of_ne (h : Weighs P I J m w) (s : Pool σ τ) {move : Move α ι ε}
    (hne : ∀ x, move ≠ .run i x) : weightAt w i (P.step s move) = weightAt w i s := by
  unfold weightAt
  cases move with
  | spawn a =>
    simp only [Program.step]
    rcases Nat.lt_trichotomy i s.threads.length with hlt | rfl | hgt
    · rw [List.getElem?_append_left hlt]
    · simp [h.weight_start a]
    · rw [List.getElem?_eq_none (by simp; omega), List.getElem?_eq_none (by omega)]
  | run j x =>
    have hij : j ≠ i := fun he ↦ hne x (he ▸ rfl)
    cases ht : s.threads[j]? with
    | none => rw [step_run_none ht]
    | some t =>
      rw [step_run ht]
      simp only [List.getElem?_set_ne hij]
  | env e => rfl

/-- A step of thread `i` changes the quantity by what it changes its weight. -/
theorem weightAt_step_self (h : Weighs P I J m w) (hs : Holds I J s) (x : ι) :
    m (P.step s (.run i x)).shared - m s.shared =
      weightAt w i (P.step s (.run i x)) - weightAt w i s := by
  cases ht : s.threads[i]? with
  | none => simp [step_run_none ht]
  | some t =>
    have hact := h.weight_act s.shared i t x hs.1 (hs.2 i t ht)
    have hlt : i < s.threads.length := (List.getElem?_eq_some_iff.mp ht).1
    have hw : weightAt w i s = w t := by simp [weightAt, ht]
    have hw' : weightAt w i (P.step s (.run i x)) = w (P.act s.shared i t x).2 := by
      simp [weightAt, step_run ht, hlt]
    rw [hw, hw', step_run ht]
    exact hact

/-- The steps of a thread add up to its weight. -/
theorem changeBy_eq (h : Weighs P I J m w) (hs : Holds I J s) (i : Nat)
    (moves : List (Move α ι ε)) :
    P.changeBy m i s moves = weightAt w i (P.after s moves) - weightAt w i s := by
  induction moves generalizing s with
  | nil => simp [changeBy, Program.after]
  | cons move moves ih =>
    have hrest := ih (h.step hs move)
    change _ = weightAt w i (P.after (P.step s move) moves) - _
    cases move with
    | spawn a =>
      have hw : weightAt w i (P.step s (.spawn a)) = weightAt w i s :=
        h.weightAt_step_of_ne s nofun
      rw [changeBy, hrest, hw]
      nofun
    | env e =>
      have hw : weightAt w i (P.step s (.env e)) = weightAt w i s :=
        h.weightAt_step_of_ne s nofun
      rw [changeBy, hrest, hw]
      nofun
    | run j x =>
      rw [changeBy, hrest]
      by_cases hij : j = i
      · subst hij
        have hself := h.weightAt_step_self (i := j) hs x
        rw [if_pos rfl]
        omega
      · have hw : weightAt w i (P.step s (.run j x)) = weightAt w i s :=
          h.weightAt_step_of_ne s fun y he ↦ hij (Move.run.inj he).1
        rw [if_neg hij, hw, zero_add]

end Weighs
end Program
end Lib
