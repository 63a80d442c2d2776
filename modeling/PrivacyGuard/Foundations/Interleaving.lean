import Mathlib.Data.List.Basic

/-! # Interleavings of independent agents

A machine that answers every action. When the actions of different agents commute,
two action lists with the same projection to every agent drive the machine to the
same state, and every agent reads the same answers in both.
-/

namespace Interleaving

variable {σ α β ι : Type*}

def perform (step : σ → α → σ × β) (s : σ) : List α → σ × List (α × β)
  | [] => (s, [])
  | a :: as =>
    let (t, log) := perform step (step s a).1 as
    (t, (a, (step s a).2) :: log)

variable [DecidableEq ι]

def project (agent : α → ι) (i : ι) (as : List α) : List α := as.filter (agent · = i)

section Project

variable {agent : α → ι} {i : ι} {a : α} {as bs : List α}

theorem project_cons_self : project agent (agent a) (a :: as) = a :: project agent (agent a) as :=
  List.filter_cons_of_pos (by simp)

theorem project_cons_ne (h : agent a ≠ i) : project agent i (a :: as) = project agent i as :=
  List.filter_cons_of_neg (by simpa using h)

theorem project_append :
    project agent i (as ++ bs) = project agent i as ++ project agent i bs :=
  List.filter_append _ _

theorem project_eq_nil_iff : project agent i as = [] ↔ ∀ a ∈ as, agent a ≠ i := by
  simp [project]

end Project

variable {step : σ → α → σ × β} {agent : α → ι} {I : σ → Prop} {P : α → Prop}

/-- From the states of interest, admitted actions of different agents commute. -/
structure Commutes (step : σ → α → σ × β) (agent : α → ι) (I : σ → Prop) (P : α → Prop) :
    Prop where
  inv : ∀ s a, I s → P a → I (step s a).1
  state : ∀ s a b, I s → P a → P b → agent a ≠ agent b →
    (step (step s a).1 b).1 = (step (step s b).1 a).1
  answer : ∀ s a b, I s → P a → P b → agent a ≠ agent b → (step (step s a).1 b).2 = (step s b).2

/-- The same final state, and the same actions and answers for every agent. -/
structure Alike (agent : α → ι) (r r' : σ × List (α × β)) : Prop where
  state : r.1 = r'.1
  answers : ∀ i, project (agent ∘ Prod.fst) i r.2 = project (agent ∘ Prod.fst) i r'.2

namespace Alike

variable {r r' r'' : σ × List (α × β)}

theorem refl (r : σ × List (α × β)) : Alike agent r r := ⟨rfl, fun _ => rfl⟩

theorem trans (h : Alike agent r r') (h' : Alike agent r' r'') : Alike agent r r'' :=
  ⟨h.state.trans h'.state, fun i => (h.answers i).trans (h'.answers i)⟩

theorem cons {s : σ} {a : α} {as bs : List α}
    (h : Alike agent (perform step (step s a).1 as) (perform step (step s a).1 bs)) :
    Alike agent (perform step s (a :: as)) (perform step s (a :: bs)) where
  state := h.state
  answers i := by
    change project _ i (_ :: (perform step _ as).2) = project _ i (_ :: (perform step _ bs).2)
    simp only [project, List.filter_cons] at h ⊢
    rw [← project, ← project, h.answers i]

end Alike

namespace Commutes

variable {s : σ} {a b : α} {as bs : List α}

theorem swap (h : Commutes step agent I P) (hs : I s) (ha : P a) (hb : P b)
    (hne : agent a ≠ agent b) (as : List α) :
    Alike agent (perform step s (a :: b :: as)) (perform step s (b :: a :: as)) where
  state := by
    change (perform step (step (step s a).1 b).1 as).1 = _
    rw [h.state s a b hs ha hb hne]
    rfl
  answers i := by
    change project _ i ((a, (step s a).2) :: (b, (step (step s a).1 b).2) ::
        (perform step (step (step s a).1 b).1 as).2) =
      project _ i ((b, (step s b).2) :: (a, (step (step s b).1 a).2) ::
        (perform step (step (step s b).1 a).1 as).2)
    rw [h.state s a b hs ha hb hne, h.answer s a b hs ha hb hne,
      h.answer s b a hs hb ha hne.symm]
    by_cases hi : agent a = i
    · have hbi : agent b ≠ i := fun hbi => hne (hi.trans hbi.symm)
      simp [project, hi, hbi]
    · by_cases hbi : agent b = i
      · simp [project, hi, hbi]
      · simp [project, hi, hbi]

/-- An action can be moved to the front past actions of other agents. -/
theorem move (h : Commutes step agent I P) (hs : I s) (ha : P a) (has : ∀ b ∈ as, P b)
    (hne : ∀ b ∈ as, agent b ≠ agent a) (bs : List α) :
    Alike agent (perform step s (as ++ a :: bs)) (perform step s (a :: (as ++ bs))) := by
  induction as generalizing s with
  | nil => exact Alike.refl _
  | cons b as ih =>
    obtain ⟨hb, has⟩ := List.forall_mem_cons.mp has
    obtain ⟨hba, hne⟩ := List.forall_mem_cons.mp hne
    exact (ih (h.inv s b hs hb) has hne).cons.trans (h.swap hs hb ha hba _)

/-- Interleavings with the same projections cannot be told apart by any agent. -/
theorem alike (h : Commutes step agent I P) (hs : I s) (has : ∀ a ∈ as, P a)
    (hbs : ∀ b ∈ bs, P b) (hproj : ∀ i, project agent i as = project agent i bs) :
    Alike agent (perform step s as) (perform step s bs) := by
  induction as generalizing s bs with
  | nil =>
    cases bs with
    | nil => exact Alike.refl _
    | cons b bs =>
      have hb := hproj (agent b)
      rw [project_cons_self] at hb
      cases hb
  | cons a as ih =>
    obtain ⟨ha, has⟩ := List.forall_mem_cons.mp has
    have hself := hproj (agent a)
    rw [project_cons_self, eq_comm, project, List.filter_eq_cons_iff] at hself
    obtain ⟨pre, post, rfl, hpre, -, hpost⟩ := hself
    have hne : ∀ b ∈ pre, agent b ≠ agent a := fun b hb => by simpa using hpre b hb
    have hmem : ∀ b ∈ pre ++ post, P b := fun b hb =>
      hbs b (List.mem_append.mpr ((List.mem_append.mp hb).imp_right (List.mem_cons_of_mem a)))
    have hrest : ∀ i, project agent i as = project agent i (pre ++ post) := by
      intro i
      rw [project_append]
      by_cases hi : agent a = i
      · subst hi
        rw [project_eq_nil_iff.mpr hne, List.nil_append]
        exact hpost.symm
      · have hi' := hproj i
        rwa [project_cons_ne hi, project_append, project_cons_ne hi] at hi'
    have hmove := h.move hs ha (fun b hb => hmem b (by simp [hb])) hne post
    have hcons := (ih (h.inv s a hs ha) has hmem hrest).cons
    exact hcons.trans ⟨hmove.state.symm, fun i => (hmove.answers i).symm⟩

end Commutes

end Interleaving
