import ImportProxy.Lib.Machine

/-!
# Termination in rounds

Parties take steps in any order. A rank that no step increases, and at every moment before the
end a party whose next step decreases it, bound the number of rounds until the end: a round is
any list of steps in which every party has at least one. In an endless run of rounds the end
comes, and one end leads to the next.
-/

namespace Lib

universe u v w u' v'

variable {σ : Type u} {ι : Type v} {α : Type w} {σ' : Type u'} {ι' : Type v'}

/-- What does not hold before a run and holds behind it comes about in one of its steps. -/
theorem exists_first_step {step : σ → ι → σ} {p : σ → Prop} {s : σ} (hs : ¬p s) {is : List ι}
    (h : p (is.foldl step s)) : ∃ js i ks, is = js ++ i :: ks ∧ ¬p (js.foldl step s) ∧
      p (step (js.foldl step s) i) := by
  induction is generalizing s with
  | nil => exact absurd h hs
  | cons i is ih =>
    by_cases hi : p (step s i)
    · exact ⟨[], i, is, rfl, hs, hi⟩
    · obtain ⟨js, j, ks, heq, hbefore, hafter⟩ := ih hi h
      exact ⟨i :: js, j, ks, congrArg (i :: ·) heq, hbefore, hafter⟩

/-- No step increases the rank. Before the end some party helps: its own steps decrease the rank,
and the steps of the others leave it helpful, or decrease the rank themselves. -/
structure Ranked (step : σ → ι → σ) (mover : ι → Option α) (inv done : σ → Prop)
    (helps : σ → α → Prop) (rank : σ → Nat) : Prop where
  inv_step : ∀ s i, inv s → inv (step s i)
  done_step : ∀ s i, inv s → done s → done (step s i)
  rank_step : ∀ s i, inv s → ¬done s → done (step s i) ∨ rank (step s i) ≤ rank s
  exists_helps : ∀ s, inv s → ¬done s → ∃ a, helps s a
  helped : ∀ s i a, inv s → ¬done s → helps s a → mover i = some a →
    done (step s i) ∨ rank (step s i) < rank s
  kept : ∀ s i a, inv s → ¬done s → helps s a → mover i ≠ some a →
    done (step s i) ∨ rank (step s i) < rank s ∨ helps (step s i) a

namespace Ranked

variable {step : σ → ι → σ} {mover : ι → Option α} {inv done : σ → Prop}
  {helps : σ → α → Prop} {rank : σ → Nat} {s : σ} {a : α}

theorem inv_run (h : Ranked step mover inv done helps rank) (hs : inv s) (is : List ι) :
    inv (is.foldl step s) :=
  run_invariant inv hs h.inv_step

/-- What has ended stays so. -/
theorem done_run (h : Ranked step mover inv done helps rank) (hs : inv s) (hd : done s)
    (is : List ι) : done (is.foldl step s) := by
  have hrun : inv (is.foldl step s) ∧ done (is.foldl step s) :=
    run_invariant (fun s ↦ inv s ∧ done s) ⟨hs, hd⟩
      fun s i hi ↦ ⟨h.inv_step s i hi.1, h.done_step s i hi.1 hi.2⟩
  exact hrun.2

/-- Steps do not increase the rank. -/
theorem rank_run (h : Ranked step mover inv done helps rank) (hs : inv s) (is : List ι) :
    done (is.foldl step s) ∨ rank (is.foldl step s) ≤ rank s := by
  induction is generalizing s with
  | nil => exact Or.inr (Nat.le_refl _)
  | cons i is ih =>
    by_cases hd : done s
    · exact Or.inl (h.done_run hs hd (i :: is))
    · rcases h.rank_step s i hs hd with hd' | hle
      · exact Or.inl (h.done_run (h.inv_step s i hs) hd' is)
      · exact (ih (h.inv_step s i hs)).imp id fun hrest ↦ Nat.le_trans hrest hle

/-- A round in which the helpful party has a step decreases the rank. -/
theorem rank_round (h : Ranked step mover inv done helps rank) (hs : inv s) (ha : helps s a)
    {is : List ι} (hmem : ∃ i ∈ is, mover i = some a) :
    done (is.foldl step s) ∨ rank (is.foldl step s) < rank s := by
  induction is generalizing s with
  | nil =>
    obtain ⟨i, hi, -⟩ := hmem
    cases hi
  | cons i is ih =>
    by_cases hd : done s
    · exact Or.inl (h.done_run hs hd (i :: is))
    · have hs' := h.inv_step s i hs
      -- behind a step that decreases the rank, the rest of the round only has to keep it
      have settle (hstep : done (step s i) ∨ rank (step s i) < rank s) :
          done ((i :: is).foldl step s) ∨ rank ((i :: is).foldl step s) < rank s := by
        rcases hstep with hd' | hlt
        · exact Or.inl (h.done_run hs' hd' is)
        · exact (h.rank_run hs' is).imp id fun hrest ↦ Nat.lt_of_le_of_lt hrest hlt
      by_cases hi : mover i = some a
      · exact settle (h.helped s i a hs hd ha hi)
      · obtain ⟨j, hj, hja⟩ := hmem
        have hrest : j ∈ is := by
          rcases List.mem_cons.mp hj with rfl | hj
          · exact absurd hja hi
          · exact hj
        rcases h.kept s i a hs hd ha hi with hd' | hlt | ha'
        · exact settle (Or.inl hd')
        · exact settle (Or.inr hlt)
        · rcases h.rank_step s i hs hd with hd' | hle
          · exact settle (Or.inl hd')
          · exact (ih hs' ha' ⟨j, hrest, hja⟩).imp id fun hlt ↦ Nat.lt_of_lt_of_le hlt hle

/-- More rounds than the rank bring the end. -/
theorem finishes (h : Ranked step mover inv done helps rank) {complete : σ → List ι → Prop}
    (hcomplete : ∀ s is a, inv s → complete s is → helps s a → ∃ i ∈ is, mover i = some a)
    (hs : inv s) {rounds : List (List ι)}
    (hrounds : Along (fun s is ↦ is.foldl step s) complete s rounds)
    (hlen : rank s < rounds.length) : done (rounds.flatten.foldl step s) := by
  induction rounds generalizing s with
  | nil => cases hlen
  | cons is rounds ih =>
    obtain ⟨his, hrest⟩ := hrounds
    rw [List.flatten_cons, List.foldl_append]
    by_cases hd : done s
    · exact h.done_run (h.inv_run hs is) (h.done_run hs hd is) _
    · obtain ⟨a, ha⟩ := h.exists_helps s hs hd
      rcases h.rank_round hs ha (hcomplete s is a hs his ha) with hd' | hlt
      · exact h.done_run (h.inv_run hs is) hd' _
      · rw [List.length_cons] at hlen
        exact ih (h.inv_run hs is) hrest (by omega)

/-- Where one party alone brings the end nearer, and no other takes it further away. -/
theorem single {step : σ → ι → σ} {mover : ι → Option α} {inv done : σ → Prop} {rank : σ → Nat}
    {a : α} (hinv : ∀ s i, inv s → inv (step s i))
    (hdone : ∀ s i, inv s → done s → done (step s i))
    (hown : ∀ s i, inv s → ¬done s → mover i = some a →
      done (step s i) ∨ rank (step s i) < rank s)
    (hother : ∀ s i, inv s → ¬done s → mover i ≠ some a →
      done (step s i) ∨ rank (step s i) ≤ rank s) :
    Ranked step mover inv done (fun _ b ↦ b = a) rank where
  inv_step := hinv
  done_step := hdone
  rank_step s i hs hd := by
    by_cases hi : mover i = some a
    · exact (hown s i hs hd hi).imp id Nat.le_of_lt
    · exact hother s i hs hd hi
  exists_helps _ _ _ := ⟨a, rfl⟩
  helped s i b hs hd hb hi := hown s i hs hd (hb ▸ hi)
  kept _ _ _ _ _ hb _ := Or.inr (Or.inr hb)

/-- The rank of a part of the state, when each step takes the part one of its own steps further, by
the same party, or leaves it. -/
theorem lift (h : Ranked step mover inv done helps rank) {step' : σ' → ι' → σ'}
    {mover' : ι' → Option α} {inv' : σ' → Prop} {g : σ' → σ} {f : σ' → ι' → Option ι}
    (hinv : ∀ s, inv' s → inv (g s)) (hstep : ∀ s i, inv' s → inv' (step' s i))
    (hg : ∀ s i, inv' s → g (step' s i) = (f s i).elim (g s) (step (g s)))
    (hmover : ∀ s i, inv' s → ¬done (g s) → (f s i).bind mover = mover' i) :
    Ranked step' mover' inv' (fun s ↦ done (g s)) (fun s ↦ helps (g s)) fun s ↦ rank (g s) where
  inv_step := hstep
  done_step s i hs hd := by
    rw [hg s i hs]
    cases f s i with
    | none => exact hd
    | some j => exact h.done_step (g s) j (hinv s hs) hd
  rank_step s i hs hd := by
    rw [hg s i hs]
    cases f s i with
    | none => exact Or.inr (Nat.le_refl _)
    | some j => exact h.rank_step (g s) j (hinv s hs) hd
  exists_helps s hs hd := h.exists_helps (g s) (hinv s hs) hd
  helped s i a hs hd ha hi := by
    have hf := hmover s i hs hd
    rw [hg s i hs]
    cases hj : f s i with
    | none =>
      rw [hj, Option.bind_none, hi] at hf
      cases hf
    | some j =>
      rw [hj, Option.bind_some, hi] at hf
      exact h.helped (g s) j a (hinv s hs) hd ha hf
  kept s i a hs hd ha hi := by
    have hf := hmover s i hs hd
    rw [hg s i hs]
    cases hj : f s i with
    | none => exact Or.inr (Or.inr ha)
    | some j =>
      rw [hj, Option.bind_some] at hf
      exact h.kept (g s) j a (hinv s hs) hd ha (hf ▸ hi)

end Ranked

section LeadsTo

variable (step : σ → ι → σ)

/-- The states of an endless run of rounds: behind so many of them. -/
def afterRounds (s : σ) (rounds : Nat → List ι) : Nat → σ
  | 0 => s
  | n + 1 => (rounds n).foldl step (afterRounds s rounds n)

/-- The first rounds, and the rest of the run from there. -/
theorem afterRounds_add (s : σ) (rounds : Nat → List ι) (m n : Nat) :
    afterRounds step s rounds (m + n) =
      afterRounds step (afterRounds step s rounds m) (fun k ↦ rounds (m + k)) n := by
  induction n with
  | zero => rfl
  | succ n ih =>
    show (rounds (m + n)).foldl step (afterRounds step s rounds (m + n)) = _
    rw [ih]
    rfl

/-- Every round of the run meets the guard, in the state in which the round starts. -/
def Rounds (guard : σ → List ι → Prop) (s : σ) (rounds : Nat → List ι) : Prop :=
  ∀ n, guard (afterRounds step s rounds n) (rounds n)

/-- In every endless run that meets the guard, a state with the first property is followed by one
with the second. -/
def LeadsTo (guard : σ → List ι → Prop) (p q : σ → Prop) : Prop :=
  ∀ s rounds, p s → Rounds step guard s rounds → ∃ n, q (afterRounds step s rounds n)

variable {step} {guard : σ → List ι → Prop} {p q r : σ → Prop} {s : σ} {rounds : Nat → List ι}

theorem Rounds.drop (h : Rounds step guard s rounds) (m : Nat) :
    Rounds step guard (afterRounds step s rounds m) fun k ↦ rounds (m + k) := by
  intro n
  rw [← afterRounds_add]
  exact h (m + n)

/-- What the guarded rounds keep holds throughout. -/
theorem Rounds.invariant {inv : σ → Prop} (h : Rounds step guard s rounds) (h0 : inv s)
    (hround : ∀ s is, inv s → guard s is → inv (is.foldl step s)) (n : Nat) :
    inv (afterRounds step s rounds n) := by
  induction n with
  | zero => exact h0
  | succ n ih => exact hround _ _ ih (h n)

theorem LeadsTo.of_imp (h : ∀ s, p s → q s) : LeadsTo step guard p q :=
  fun s _ hp _ ↦ ⟨0, h s hp⟩

theorem LeadsTo.trans (hpq : LeadsTo step guard p q) (hqr : LeadsTo step guard q r) :
    LeadsTo step guard p r := by
  intro s rounds hp hrounds
  obtain ⟨m, hq⟩ := hpq s rounds hp hrounds
  obtain ⟨n, hr⟩ := hqr _ _ hq (hrounds.drop m)
  refine ⟨m + n, ?_⟩
  rw [afterRounds_add]
  exact hr

/-- What has a rank comes to its end. -/
theorem Ranked.leadsTo {mover : ι → Option α} {inv done : σ → Prop} {helps : σ → α → Prop}
    {rank : σ → Nat} (h : Ranked step mover inv done helps rank)
    (hguard : ∀ s is a, inv s → ¬done s → guard s is → helps s a → ∃ i ∈ is, mover i = some a) :
    LeadsTo step guard inv fun s ↦ inv s ∧ done s := by
  intro s rounds hs hrounds
  induction hr : rank s using Nat.strongRecOn generalizing s rounds with
  | ind r ih =>
    by_cases hd : done s
    · exact ⟨0, hs, hd⟩
    · obtain ⟨a, ha⟩ := h.exists_helps s hs hd
      have hs' := h.inv_run hs (rounds 0)
      rcases h.rank_round hs ha (hguard s _ a hs hd (hrounds 0) ha) with hd' | hlt
      · exact ⟨1, hs', hd'⟩
      · obtain ⟨n, hn⟩ := ih _ (hr ▸ hlt) _ _ hs' (hrounds.drop 1) rfl
        refine ⟨1 + n, ?_⟩
        rw [afterRounds_add]
        exact hn

end LeadsTo
end Lib
