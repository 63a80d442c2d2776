import Mathlib.Algebra.GroupWithZero.Nat
import Mathlib.Logic.Function.Iterate

/-! # Transition systems

Machines that are stepped until they halt, with a rank that bounds the number of
steps and a meaning that no step changes, and labelled systems that may refuse a
label, with the invariants of their runs.
-/

namespace Transition

section Machine

variable {σ β : Type*} {step : σ → σ} {halted I : σ → Prop} {rank : σ → ℕ} {meaning : σ → β}

/-- Every step keeps the invariant and the meaning, and lowers the rank before halting. -/
structure Converges (step : σ → σ) (halted I : σ → Prop) (rank : σ → ℕ) (meaning : σ → β) :
    Prop where
  inv : ∀ s, I s → I (step s)
  kept : ∀ s, I s → meaning (step s) = meaning s
  falls : ∀ s, I s → ¬ halted s → rank (step s) < rank s
  rests : ∀ s, halted s → step s = s

/-- A converging machine halts for good, in a state with the meaning of the first. -/
theorem Converges.eventually (h : Converges step halted I rank meaning) {s : σ} (hs : I s) :
    ∃ n, ∀ m, n ≤ m →
      halted (step^[m] s) ∧ I (step^[m] s) ∧ meaning (step^[m] s) = meaning s := by
  induction hr : rank s using Nat.strongRecOn generalizing s with
  | ind r ih =>
    by_cases hhalt : halted s
    · refine ⟨0, fun m _ => ?_⟩
      rw [Function.iterate_fixed (h.rests s hhalt)]
      exact ⟨hhalt, hs, rfl⟩
    · obtain ⟨n, hn⟩ := ih _ (hr ▸ h.falls s hs hhalt) (h.inv s hs) rfl
      refine ⟨n + 1, fun m hm => ?_⟩
      obtain ⟨m, rfl⟩ : ∃ k, m = k + 1 := ⟨m - 1, by omega⟩
      obtain ⟨hhalt', hinv, hmeaning⟩ := hn m (by omega)
      rw [Function.iterate_succ_apply]
      exact ⟨hhalt', hinv, hmeaning.trans (h.kept s hs)⟩

end Machine

section Labelled

variable {σ ℓ : Type*} {step : σ → ℓ → Option σ} {s t : σ} {ls : List ℓ}

/-- Take the labels in order; the run ends without a state if one is refused. -/
def run (step : σ → ℓ → Option σ) (s : σ) : List ℓ → Option σ
  | [] => some s
  | l :: ls => (step s l).bind fun t => run step t ls

theorem run_cons {l : ℓ} : run step s (l :: ls) = some t ↔
    ∃ u, step s l = some u ∧ run step u ls = some t :=
  Option.bind_eq_some_iff

theorem run_append {ls' : List ℓ} : run step s (ls ++ ls') = some t ↔
    ∃ u, run step s ls = some u ∧ run step u ls' = some t := by
  induction ls generalizing s with
  | nil => simp [run]
  | cons l ls ih =>
    simp only [List.cons_append, run_cons, ih]
    constructor
    · rintro ⟨u, hu, v, hv, ht⟩
      exact ⟨v, ⟨u, hu, hv⟩, ht⟩
    · rintro ⟨v, ⟨u, hu, hv⟩, ht⟩
      exact ⟨u, hu, v, hv, ht⟩

/-- Every label is taken in a state it suits. -/
def Along (step : σ → ℓ → Option σ) (P : σ → ℓ → Prop) (s : σ) : List ℓ → Prop
  | [] => True
  | l :: ls => P s l ∧ ∀ t ∈ step s l, Along step P t ls

instance decidableAlong (P : σ → ℓ → Prop) [∀ s l, Decidable (P s l)] :
    ∀ s ls, Decidable (Along step P s ls)
  | _, [] => .isTrue trivial
  | s, l :: ls =>
    have := fun t => decidableAlong P t ls
    inferInstanceAs (Decidable (P s l ∧ ∀ t ∈ step s l, Along step P t ls))

theorem Along.of_forall {P : ℓ → Prop} (h : ∀ l ∈ ls, P l) : Along step (fun _ => P) s ls := by
  induction ls generalizing s with
  | nil => trivial
  | cons l ls ih =>
    obtain ⟨hl, hls⟩ := List.forall_mem_cons.mp h
    exact ⟨hl, fun t _ => ih hls⟩

theorem along_append {P : σ → ℓ → Prop} {ms : List ℓ} :
    Along step P s (ls ++ ms) ↔ Along step P s ls ∧ ∀ t ∈ run step s ls, Along step P t ms := by
  induction ls generalizing s with
  | nil => simp [Along, run]
  | cons l ls ih =>
    simp only [List.cons_append, Along, ih, and_assoc]
    refine and_congr_right fun _ => ?_
    constructor
    · intro h
      refine ⟨fun t ht => (h t ht).1, fun u hu => ?_⟩
      obtain ⟨t, ht, hu⟩ := run_cons.mp hu
      exact (h t ht).2 u hu
    · rintro ⟨hls, hms⟩ t ht
      exact ⟨hls t ht, fun u hu => hms u (run_cons.mpr ⟨t, ht, hu⟩)⟩

theorem Along.and {P Q : σ → ℓ → Prop} (hP : Along step P s ls) (hQ : Along step Q s ls) :
    Along step (fun s l => P s l ∧ Q s l) s ls := by
  induction ls generalizing s with
  | nil => trivial
  | cons l ls ih => exact ⟨⟨hP.1, hQ.1⟩, fun t ht => ih (hP.2 t ht) (hQ.2 t ht)⟩

/-- An invariant indexed by the weight of the labels taken so far, for suitable runs that
stay below a bound. -/
theorem run_weighted_along {I : ℕ → σ → Prop} {P : σ → ℓ → Prop} {weight : ℓ → ℕ} {bound : ℕ}
    (hstep : ∀ n s l t, I n s → P s l → n + weight l < bound → step s l = some t →
      I (n + weight l) t)
    {n : ℕ} (hs : I n s) (hP : Along step P s ls) (hn : n + (ls.map weight).sum < bound)
    (h : run step s ls = some t) : I (n + (ls.map weight).sum) t := by
  induction ls generalizing n s with
  | nil =>
    obtain rfl := Option.some.inj h
    exact hs
  | cons l ls ih =>
    obtain ⟨u, hu, ht⟩ := run_cons.mp h
    rw [List.map_cons, List.sum_cons, ← Nat.add_assoc] at hn ⊢
    exact ih (hstep n s l u hs hP.1 (by omega) hu) (hP.2 u hu) hn ht

theorem run_weighted {I : ℕ → σ → Prop} {P : ℓ → Prop} {weight : ℓ → ℕ} {bound : ℕ}
    (hstep : ∀ n s l t, I n s → P l → n + weight l < bound → step s l = some t →
      I (n + weight l) t)
    {n : ℕ} (hs : I n s) (hP : ∀ l ∈ ls, P l) (hn : n + (ls.map weight).sum < bound)
    (h : run step s ls = some t) : I (n + (ls.map weight).sum) t :=
  run_weighted_along hstep hs (Along.of_forall hP) hn h

theorem run_invariant {I : σ → Prop} (hstep : ∀ s l t, I s → step s l = some t → I t)
    (hs : I s) (h : run step s ls = some t) : I t := by
  induction ls generalizing s with
  | nil =>
    obtain rfl := Option.some.inj h
    exact hs
  | cons l ls ih =>
    obtain ⟨u, hu, ht⟩ := run_cons.mp h
    exact ih (hstep s l u hs hu) ht

/-- What holds first and not at the end is broken by some step in between. -/
theorem exists_step_of_not {I : σ → Prop} (hs : I s) (h : run step s ls = some t) (ht : ¬ I t) :
    ∃ earlier l later u v, ls = earlier ++ l :: later ∧ run step s earlier = some u ∧
      step u l = some v ∧ I u ∧ ¬ I v := by
  induction ls generalizing s with
  | nil =>
    obtain rfl := Option.some.inj h
    exact absurd hs ht
  | cons l ls ih =>
    obtain ⟨u, hu, hrest⟩ := run_cons.mp h
    by_cases hI : I u
    · obtain ⟨earlier, l', later, v, w, rfl, hrun, hstep, hv, hw⟩ := ih hI hrest
      exact ⟨l :: earlier, l', later, v, w, rfl, run_cons.mpr ⟨u, hu, hrun⟩, hstep, hv, hw⟩
    · exact ⟨[], l, ls, s, u, rfl, rfl, hu, hs, hI⟩

theorem run_along {I : σ → Prop} {P : σ → ℓ → Prop}
    (hstep : ∀ s l t, I s → P s l → step s l = some t → I t)
    (hs : I s) (hP : Along step P s ls) (h : run step s ls = some t) : I t := by
  induction ls generalizing s with
  | nil =>
    obtain rfl := Option.some.inj h
    exact hs
  | cons l ls ih =>
    obtain ⟨u, hu, ht⟩ := run_cons.mp h
    exact ih (hstep s l u hs hP.1 hu) (hP.2 u hu) ht

/-- A run of states in which every suitable step lowers the rank is no longer than the rank. -/
theorem length_le_of_along {I : σ → Prop} {P : σ → ℓ → Prop} {rank : σ → ℕ}
    (hstep : ∀ s l t, I s → P s l → step s l = some t → I t ∧ rank t < rank s)
    (hs : I s) (hP : Along step P s ls) (h : run step s ls = some t) :
    ls.length + rank t ≤ rank s := by
  induction ls generalizing s with
  | nil =>
    obtain rfl := Option.some.inj h
    exact Nat.le_of_eq (Nat.zero_add _)
  | cons l ls ih =>
    obtain ⟨u, hu, ht⟩ := run_cons.mp h
    obtain ⟨hinv, hlt⟩ := hstep s l u hs hP.1 hu
    have hrest := ih hinv (hP.2 u hu) ht
    rw [List.length_cons]
    omega

theorem countP_le_of_along {I : σ → Prop} {P : σ → ℓ → Prop} {rank : σ → ℕ} {own : ℓ → Bool}
    (hstep : ∀ s l t, I s → P s l → step s l = some t →
      I t ∧ rank t + (if own l then 1 else 0) ≤ rank s)
    (hs : I s) (hP : Along step P s ls) (h : run step s ls = some t) :
    ls.countP own + rank t ≤ rank s := by
  induction ls generalizing s with
  | nil =>
    obtain rfl := Option.some.inj h
    simp
  | cons l ls ih =>
    obtain ⟨u, hu, ht⟩ := run_cons.mp h
    obtain ⟨hinv, hle⟩ := hstep s l u hs hP.1 hu
    have hrest := ih hinv (hP.2 u hu) ht
    rw [List.countP_cons]
    omega

/-- A run in which each own step lowers the rank: the own steps are paid for by the rank, by what
the run gains and by its extra steps. -/
theorem countP_le_of_weighted {I : ℕ → σ → Prop} {P : ℓ → Prop} {weight : ℓ → ℕ} {bound : ℕ}
    {rank gain : σ → ℕ} {own extra : ℓ → Bool}
    (hstep : ∀ n s l t, I n s → P l → n + weight l < bound → step s l = some t →
      I (n + weight l) t ∧ rank t + gain s + (if own l then 1 else 0) ≤
        rank s + gain t + (if extra l then 1 else 0))
    {n : ℕ} (hs : I n s) (hP : ∀ l ∈ ls, P l) (hn : n + (ls.map weight).sum < bound)
    (h : run step s ls = some t) :
    ls.countP own + rank t + gain s ≤ rank s + gain t + ls.countP extra := by
  induction ls generalizing n s with
  | nil =>
    obtain rfl := Option.some.inj h
    simp
  | cons l ls ih =>
    obtain ⟨u, hu, ht⟩ := run_cons.mp h
    obtain ⟨hl, hls⟩ := List.forall_mem_cons.mp hP
    rw [List.map_cons, List.sum_cons, ← Nat.add_assoc] at hn
    obtain ⟨hinv, hle⟩ := hstep n s l u hs hl (by omega) hu
    have hrest := ih hinv hls hn ht
    rw [List.countP_cons, List.countP_cons]
    omega

theorem sum_map_set {α : Type*} {f : α → ℕ} {l : List α} {i : ℕ} {a b : α} (hi : l[i]? = some a) :
    ((l.set i b).map f).sum + f a = (l.map f).sum + f b := by
  induction l generalizing i with
  | nil => simp at hi
  | cons c l ih =>
    cases i with
    | zero =>
      obtain rfl := Option.some.inj hi
      simp only [List.set_cons_zero, List.map_cons, List.sum_cons]
      omega
    | succ i =>
      have hrest := ih hi
      simp only [List.set_cons_succ, List.map_cons, List.sum_cons]
      omega

theorem run_map {τ : Type*} {step' : τ → ℓ → Option τ} {f : σ → τ}
    (h : ∀ s l, (step s l).map f = step' (f s) l) (s : σ) (ls : List ℓ) :
    (run step s ls).map f = run step' (f s) ls := by
  induction ls generalizing s with
  | nil => rfl
  | cons l ls ih =>
    rw [run, run, ← h s l]
    cases step s l with
    | none => rfl
    | some u => exact ih u

/-- A forward simulation: each admitted step of a system is no step of another, or one of the
same weight. -/
theorem exists_run_of_simulation {τ m M : Type*} [AddMonoid M] {step' : τ → m → Option τ}
    (f : σ → τ) {I : σ → Prop} {P : ℓ → Prop} {Q : m → Prop} (weight : ℓ → M) (weight' : m → M)
    (hstep : ∀ s l t, I s → P l → step s l = some t →
      I t ∧ ((f t = f s ∧ weight l = 0) ∨
        ∃ l', Q l' ∧ weight' l' = weight l ∧ step' (f s) l' = some (f t)))
    (hs : I s) (hP : ∀ l ∈ ls, P l) (h : run step s ls = some t) :
    ∃ ls', (∀ l' ∈ ls', Q l') ∧ (ls'.map weight').sum = (ls.map weight).sum ∧
      run step' (f s) ls' = some (f t) := by
  induction ls generalizing s with
  | nil =>
    obtain rfl := Option.some.inj h
    exact ⟨[], by simp, rfl, rfl⟩
  | cons l ls ih =>
    obtain ⟨u, hu, ht⟩ := run_cons.mp h
    obtain ⟨hl, hls⟩ := List.forall_mem_cons.mp hP
    obtain ⟨hinv, hsim⟩ := hstep s l u hs hl hu
    obtain ⟨ls', hQ, hsum, hrun⟩ := ih hinv hls ht
    rcases hsim with ⟨hsame, hweight⟩ | ⟨l', hl', hweight, hstep'⟩
    · exact ⟨ls', hQ, by simp [hsum, hweight], hsame ▸ hrun⟩
    · refine ⟨l' :: ls', List.forall_mem_cons.mpr ⟨hl', hQ⟩, by simp [hsum, hweight], ?_⟩
      exact run_cons.mpr ⟨f u, hstep', hrun⟩

/-- A simulation by a relation. A step may be answered later: the weight that is still owed is
the debt of the relation. -/
theorem exists_run_of_relation {τ m : Type*} {step' : τ → m → Option τ} {R : ℕ → σ → τ → Prop}
    {P : σ → ℓ → Prop} {weight : ℓ → ℕ} {weight' : m → ℕ}
    (hstep : ∀ k s l t u, R k s u → P s l → step s l = some t →
      ∃ ls' k' u', run step' u ls' = some u' ∧ R k' t u' ∧
        (ls'.map weight').sum + k' = k + weight l)
    {k : ℕ} {u : τ} (hs : R k s u) (hP : Along step P s ls) (h : run step s ls = some t) :
    ∃ ls' k' u', run step' u ls' = some u' ∧ R k' t u' ∧
      (ls'.map weight').sum + k' = k + (ls.map weight).sum := by
  induction ls generalizing k s u with
  | nil =>
    obtain rfl := Option.some.inj h
    exact ⟨[], k, u, rfl, hs, by simp⟩
  | cons l ls ih =>
    obtain ⟨v, hv, ht⟩ := run_cons.mp h
    obtain ⟨first, k₁, u₁, hrun₁, hR₁, hsum₁⟩ := hstep k s l v u hs hP.1 hv
    obtain ⟨others, k₂, u₂, hrun₂, hR₂, hsum₂⟩ := ih hR₁ (hP.2 v hv) ht
    refine ⟨first ++ others, k₂, u₂, run_append.mpr ⟨u₁, hrun₁, hrun₂⟩, hR₂, ?_⟩
    rw [List.map_append, List.sum_append, List.map_cons, List.sum_cons]
    omega

end Labelled

end Transition
