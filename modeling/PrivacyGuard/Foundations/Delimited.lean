import Mathlib.Data.List.Basic

/-! # Delimited sequences

Sequences cut at a separator: the position of the first separator, the complete
pieces that a separator ends, and the piece left over after the last one.
-/

namespace Delimited

variable {α : Type*} [DecidableEq α] {sep : α} {front rest l : List α} {n : ℕ}

theorem idxOf?_append_cons (h : sep ∉ front) :
    (front ++ sep :: rest).idxOf? sep = some front.length := by
  induction front with
  | nil => simp [List.idxOf?_cons]
  | cons a front ih =>
    obtain ⟨hne, hfront⟩ := not_or.mp (mt List.mem_cons.mpr h)
    simp [List.idxOf?_cons, Ne.symm hne, ih hfront]

theorem idxOf?_eq_some_iff_append :
    l.idxOf? sep = some n ↔
      ∃ front rest, l = front ++ sep :: rest ∧ sep ∉ front ∧ front.length = n := by
  constructor
  · intro h
    have hmem : sep ∈ l := by
      rw [← List.isSome_idxOf?, h]
      rfl
    obtain ⟨front, rest, hl, hf⟩ := List.eq_append_cons_of_mem hmem
    subst hl
    rw [idxOf?_append_cons hf] at h
    exact ⟨front, rest, rfl, hf, Option.some.inj h⟩
  · rintro ⟨front, rest, rfl, hf, rfl⟩
    exact idxOf?_append_cons hf

theorem take_append_drop_of_idxOf? (h : l.idxOf? sep = some n) :
    l.take n ++ sep :: l.drop (n + 1) = l ∧ sep ∉ l.take n := by
  obtain ⟨front, rest, rfl, hfront, rfl⟩ := idxOf?_eq_some_iff_append.mp h
  have hdrop : (front ++ sep :: rest).drop (front.length + 1) = rest := by
    rw [List.append_cons]
    exact List.drop_left' (by simp)
  rw [List.take_left, hdrop]
  exact ⟨rfl, hfront⟩

/-- The first separator cuts a sequence in one way. -/
theorem append_cons_inj {front' rest' : List α} (h : sep ∉ front) (h' : sep ∉ front')
    (heq : front ++ sep :: rest = front' ++ sep :: rest') : front = front' ∧ rest = rest' := by
  have hlen : front.length = front'.length := by
    have hidx := congrArg (List.idxOf? sep) heq
    rw [idxOf?_append_cons h, idxOf?_append_cons h'] at hidx
    exact Option.some.inj hidx
  obtain ⟨hfront, hrest⟩ := List.append_inj heq hlen
  exact ⟨hfront, (List.cons.inj hrest).2⟩

omit [DecidableEq α] in
theorem prefix_of_notMem {l' : List α} (h : sep ∉ l) (heq : l ++ l' = front ++ sep :: rest) :
    l <+: front := by
  rcases List.append_eq_append_iff.mp heq with ⟨piece, hfront, -⟩ | ⟨piece, hl, hpiece⟩
  · exact ⟨piece, hfront.symm⟩
  · cases piece with
    | nil => exact ⟨[], by rw [hl, List.append_nil, List.append_nil]⟩
    | cons a piece =>
      obtain ⟨rfl, -⟩ := List.cons.inj hpiece
      exact absurd (hl ▸ by simp) h

omit [DecidableEq α] in
theorem exists_append_cons_of_lt (h : n < l.length) :
    ∃ front a rest, l = front ++ a :: rest ∧ front.length = n :=
  ⟨l.take n, l[n], l.drop (n + 1), by simp, by simp; omega⟩

omit [DecidableEq α] in
theorem getLast?_append_cons (front : List α) (h : rest ≠ []) :
    (front ++ sep :: rest).getLast? = rest.getLast? := by
  rw [List.getLast?_append_of_ne_nil _ (List.cons_ne_nil _ _), List.getLast?_cons_of_ne_nil h]

theorem notMem_of_mem_splitOn {piece : List α} (h : piece ∈ l.splitOn sep) : sep ∉ piece := by
  induction l generalizing piece with
  | nil =>
    obtain rfl : piece = [] := by simpa [List.splitOn_nil] using h
    exact List.not_mem_nil
  | cons a l ih =>
    rw [List.splitOn_cons_eq_if_modifyHead] at h
    split at h
    case isTrue =>
      rcases List.mem_cons.mp h with rfl | h
      · exact List.not_mem_nil
      · exact ih h
    case isFalse hne =>
      obtain ⟨first, pieces, hs⟩ := List.exists_cons_of_ne_nil (List.splitOn_ne_nil sep l)
      rw [hs, List.modifyHead_cons] at h
      rcases List.mem_cons.mp h with rfl | h
      · have hfirst := ih (hs ▸ List.mem_cons_self)
        rintro (- | ⟨-, hmem⟩)
        · exact hne (by simp)
        · exact hfirst hmem
      · exact ih (hs ▸ List.mem_cons_of_mem _ h)

/-- The pieces ended by a separator. -/
def complete (sep : α) (l : List α) : List (List α) := (l.splitOn sep).dropLast

/-- The piece after the last separator. -/
def remainder (sep : α) (l : List α) : List α := (l.splitOn sep).getLast (List.splitOn_ne_nil sep l)

theorem complete_of_notMem (h : sep ∉ l) : complete sep l = [] := by
  simp [complete, List.splitOn_eq_singleton h]

theorem remainder_of_notMem (h : sep ∉ l) : remainder sep l = l := by
  simp [remainder, List.splitOn_eq_singleton h]

theorem complete_append_cons (h : sep ∉ front) :
    complete sep (front ++ sep :: rest) = front :: complete sep rest := by
  rw [complete, List.splitOn_append_cons_self_of_not_mem h,
    List.dropLast_cons_of_ne_nil (List.splitOn_ne_nil sep rest)]
  rfl

theorem remainder_append_cons (h : sep ∉ front) :
    remainder sep (front ++ sep :: rest) = remainder sep rest := by
  simp only [remainder, List.splitOn_append_cons_self_of_not_mem h]
  rw [List.getLast_cons]

/-- More input continues the last piece. -/
theorem complete_append (l l' : List α) :
    complete sep (l ++ l') = complete sep l ++ complete sep (remainder sep l ++ l') := by
  induction hn : l.length using Nat.strongRecOn generalizing l with
  | ind n ih =>
    by_cases h : sep ∈ l
    · obtain ⟨front, rest, rfl, hf⟩ := List.eq_append_cons_of_mem h
      rw [List.append_assoc, List.cons_append, complete_append_cons hf, complete_append_cons hf,
        remainder_append_cons hf, List.cons_append]
      rw [ih rest.length (by simp at hn; omega) rest rfl]
    · rw [complete_of_notMem h, remainder_of_notMem h, List.nil_append]

end Delimited
