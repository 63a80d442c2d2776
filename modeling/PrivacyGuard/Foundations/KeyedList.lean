import Mathlib.Algebra.GroupWithZero.Nat
import Mathlib.Data.Finset.Card
import Mathlib.Data.List.AList

/-! # Association lists under update in place

Lookup and counting rules for the operations of `AList` that keep the order of the
entries: replacing one value, mapping every value and filtering the entries. A loop
that erases the entries satisfying a predicate is a filter.
-/

namespace AList

variable {α : Type*} {β γ : α → Type*}

def mapVal (f : ∀ a, β a → γ a) (s : AList β) : AList γ :=
  ⟨s.entries.map (Sigma.map id f), s.nodupKeys.map₂ f⟩

@[simp] theorem keys_mapVal (f : ∀ a, β a → γ a) (s : AList β) : (s.mapVal f).keys = s.keys :=
  List.map₂_keys f _

theorem entries_mapVal (f : ∀ a, β a → γ a) (s : AList β) :
    (s.mapVal f).entries = s.entries.map (Sigma.map id f) := rfl

theorem mem_mapVal {f : ∀ a, β a → γ a} {s : AList β} {a : α} : a ∈ s.mapVal f ↔ a ∈ s := by
  rw [mem_keys, mem_keys, keys_mapVal]

theorem mapVal_mapVal {δ : α → Type*} (g : ∀ a, γ a → δ a) (f : ∀ a, β a → γ a) (s : AList β) :
    (s.mapVal f).mapVal g = s.mapVal fun a b => g a (f a b) :=
  AList.ext List.map_map

def filter (p : Sigma β → Bool) (s : AList β) : AList β :=
  ⟨s.entries.filter p, s.nodupKeys.sublist List.filter_sublist⟩

@[simp] theorem entries_filter (p : Sigma β → Bool) (s : AList β) :
    (s.filter p).entries = s.entries.filter p := rfl

theorem mapVal_filter (f : ∀ a, β a → γ a) (s : AList β) (p : Sigma γ → Bool) :
    (s.mapVal f).filter p = (s.filter (p ∘ Sigma.map id f)).mapVal f :=
  AList.ext List.filter_map

theorem sum_map_toNat (p : Sigma β → Bool) (l : List (Sigma β)) :
    (l.map fun e => (p e).toNat).sum = l.countP p := by
  induction l with
  | nil => rfl
  | cons e l ih =>
    rw [List.map_cons, List.sum_cons, List.countP_cons, ih, Nat.add_comm]
    cases p e <;> rfl

variable [DecidableEq α]

theorem mem_entries_iff {a : α} {b : β a} {s : AList β} :
    (⟨a, b⟩ : Sigma β) ∈ s.entries ↔ s.lookup a = some b :=
  mem_lookup_iff.symm

theorem forall_entries_iff {s : AList β} {P : Sigma β → Prop} :
    (∀ e ∈ s.entries, P e) ↔ ∀ a b, s.lookup a = some b → P ⟨a, b⟩ := by
  constructor
  · intro h a b hb; exact h _ (mem_entries_iff.mpr hb)
  · rintro h ⟨a, b⟩ he; exact h a b (mem_entries_iff.mp he)

theorem exists_entries_iff {s : AList β} {P : Sigma β → Prop} :
    (∃ e ∈ s.entries, P e) ↔ ∃ a b, s.lookup a = some b ∧ P ⟨a, b⟩ := by
  constructor
  · rintro ⟨⟨a, b⟩, he, h⟩; exact ⟨a, b, mem_entries_iff.mp he, h⟩
  · rintro ⟨a, b, hb, h⟩; exact ⟨_, mem_entries_iff.mpr hb, h⟩

theorem entries_eq_nil_iff {s : AList β} : s.entries = [] ↔ ∀ a, s.lookup a = none := by
  simp only [lookup_eq_none, mem_keys]
  constructor
  · intro h a; simp [AList.keys, h]
  · intro h
    have hk : s.entries.keys = [] := List.eq_nil_iff_forall_not_mem.mpr h
    simpa [List.keys] using hk

section Replace

variable {a a' : α} {b : β a}

theorem kreplace_cons_eq {e : Sigma β} (l : List (Sigma β)) (h : a = e.1) :
    (e :: l).kreplace a b = ⟨a, b⟩ :: l :=
  List.lookmap_cons_some _ _ (if_pos h)

theorem kreplace_cons_ne {e : Sigma β} (l : List (Sigma β)) (h : a ≠ e.1) :
    (e :: l).kreplace a b = e :: l.kreplace a b :=
  List.lookmap_cons_none _ _ (if_neg h)

theorem dlookup_kreplace {l : List (Sigma β)} (h : a ∈ l.keys) :
    (l.kreplace a b).dlookup a = some b := by
  induction l with
  | nil => simp at h
  | cons e l ih =>
    by_cases hk : a = e.1
    · rw [kreplace_cons_eq l hk, List.dlookup_cons_eq]
    · rw [kreplace_cons_ne l hk, List.dlookup_cons_ne _ _ hk]
      exact ih (by simpa [hk] using h)

theorem dlookup_kreplace_ne (hne : a' ≠ a) (l : List (Sigma β)) :
    (l.kreplace a b).dlookup a' = l.dlookup a' := by
  induction l with
  | nil => rfl
  | cons e l ih =>
    by_cases hk : a = e.1
    · rw [kreplace_cons_eq l hk, List.dlookup_cons_ne _ _ hne,
        List.dlookup_cons_ne _ _ (hk ▸ hne)]
    · obtain ⟨k, v⟩ := e
      rw [kreplace_cons_ne l hk]
      by_cases hk' : a' = k
      · subst hk'; simp
      · rw [List.dlookup_cons_ne _ _ hk', List.dlookup_cons_ne _ _ hk', ih]

theorem kreplace_comm {b' : β a'} (hne : a ≠ a') (l : List (Sigma β)) :
    (l.kreplace a b).kreplace a' b' = (l.kreplace a' b').kreplace a b := by
  induction l with
  | nil => rfl
  | cons e l ih =>
    by_cases h : a = e.1
    · have h' : a' ≠ e.1 := fun h' => hne (h.trans h'.symm)
      rw [kreplace_cons_eq l h, kreplace_cons_ne l h', kreplace_cons_eq _ h,
        kreplace_cons_ne (e := ⟨a, b⟩) l hne.symm]
    · by_cases h' : a' = e.1
      · rw [kreplace_cons_ne l h, kreplace_cons_eq l h', kreplace_cons_eq _ h',
          kreplace_cons_ne (e := ⟨a', b'⟩) l hne]
      · rw [kreplace_cons_ne l h, kreplace_cons_ne l h', kreplace_cons_ne _ h',
          kreplace_cons_ne _ h, ih]

theorem kerase_kreplace (hne : a ≠ a') (l : List (Sigma β)) :
    (l.kreplace a b).kerase a' = (l.kerase a').kreplace a b := by
  induction l with
  | nil => rfl
  | cons e l ih =>
    by_cases h : a = e.1
    · have h' : a' ≠ e.1 := fun h' => hne (h.trans h'.symm)
      rw [kreplace_cons_eq l h, List.kerase_cons_ne h', kreplace_cons_eq _ h,
        List.kerase_cons_ne (s := ⟨a, b⟩) hne.symm]
    · by_cases h' : a' = e.1
      · rw [kreplace_cons_ne l h, List.kerase_cons_eq h', List.kerase_cons_eq h']
      · rw [kreplace_cons_ne l h, List.kerase_cons_ne h', List.kerase_cons_ne h',
          kreplace_cons_ne _ h, ih]

theorem replace_comm {b' : β a'} (hne : a ≠ a') (s : AList β) :
    (s.replace a b).replace a' b' = (s.replace a' b').replace a b :=
  AList.ext (kreplace_comm hne s.entries)

theorem erase_replace (hne : a ≠ a') (s : AList β) :
    (s.replace a b).erase a' = (s.erase a').replace a b :=
  AList.ext (kerase_kreplace hne s.entries)

theorem lookup_replace {s : AList β} (h : a ∈ s) : (s.replace a b).lookup a = some b :=
  dlookup_kreplace (mem_keys.mp h)

theorem lookup_replace_ne {s : AList β} (h : a' ≠ a) :
    (s.replace a b).lookup a' = s.lookup a' :=
  dlookup_kreplace_ne h _

end Replace

@[simp] theorem lookup_mapVal (f : ∀ a, β a → γ a) (s : AList β) (a : α) :
    (s.mapVal f).lookup a = (s.lookup a).map (f a) := by
  simp only [lookup, mapVal]
  exact List.dlookup_map₂ a

theorem lookup_filter_eq_some {p : Sigma β → Bool} {s : AList β} {a : α} {b : β a} :
    (s.filter p).lookup a = some b ↔ s.lookup a = some b ∧ p ⟨a, b⟩ = true := by
  rw [← mem_entries_iff, ← mem_entries_iff, entries_filter, List.mem_filter]

theorem lookup_filter_eq_none {p : Sigma β → Bool} {s : AList β} {a : α} :
    (s.filter p).lookup a = none ↔ ∀ b, s.lookup a = some b → p ⟨a, b⟩ = false := by
  simp only [Option.eq_none_iff_forall_ne_some, ne_eq, lookup_filter_eq_some, not_and,
    Bool.not_eq_true]

theorem filter_key (a : α) {l : List (Sigma β)} (hl : l.NodupKeys) :
    l.filter (fun e => decide (e.1 = a)) = (l.dlookup a).toList.map fun b => ⟨a, b⟩ := by
  induction l with
  | nil => rfl
  | cons e l ih =>
    obtain ⟨key, b⟩ := e
    obtain ⟨hn, htail⟩ := List.nodupKeys_cons.mp hl
    by_cases he : a = key
    · subst he
      have hrest : l.filter (fun e => decide (e.1 = a)) = [] := by
        rw [ih htail, List.dlookup_eq_none.mpr hn]
        rfl
      rw [List.filter_cons_of_pos (by simp), hrest, List.dlookup_cons_eq]
      rfl
    · rw [List.filter_cons_of_neg (by simpa using Ne.symm he), ih htail,
        List.dlookup_cons_ne _ _ he]

theorem entries_filter_key (a : α) (s : AList β) :
    (s.filter fun e => decide (e.1 = a)).entries = (s.lookup a).toList.map fun b => ⟨a, b⟩ :=
  filter_key a s.nodupKeys

/-- Counting the entries key by key. -/
theorem sum_map_keys {f : α → ℕ} {p : Sigma β → Bool} {s : AList β}
    (h : ∀ a b, s.lookup a = some b → f a = (p ⟨a, b⟩).toNat) :
    (s.keys.map f).sum = s.entries.countP p := by
  have hentry : ∀ e ∈ s.entries, f e.1 = (p e).toNat := forall_entries_iff.mpr h
  rw [AList.keys, List.keys, List.map_map, ← sum_map_toNat]
  exact congrArg List.sum (List.map_congr_left hentry)

theorem lookup_erase_eq_some {a a' : α} {b : β a'} {s : AList β} :
    (s.erase a).lookup a' = some b ↔ a' ≠ a ∧ s.lookup a' = some b := by
  by_cases h : a' = a
  · subst h; simp
  · simp [lookup_erase_ne h, h]

section Erase

theorem kerase_eq_filter (a : α) {l : List (Sigma β)} (hl : l.NodupKeys) :
    l.kerase a = l.filter (fun e => decide (e.1 ≠ a)) := by
  induction l with
  | nil => rfl
  | cons e l ih =>
    obtain ⟨hn, hl⟩ := List.nodupKeys_cons.mp hl
    by_cases he : a = e.1
    · rw [List.kerase_cons_eq he, List.filter_cons_of_neg (by simp [he])]
      refine (List.filter_eq_self.mpr fun e' he' => decide_eq_true ?_).symm
      rintro rfl
      exact hn (he ▸ List.mem_keys_of_mem he')
    · rw [List.kerase_cons_ne he, ih hl, List.filter_cons_of_pos (by simpa using Ne.symm he)]

theorem entries_erase (a : α) (s : AList β) :
    (s.erase a).entries = s.entries.filter (fun e => decide (e.1 ≠ a)) :=
  kerase_eq_filter a s.nodupKeys

theorem keys_erase_eq_filter (a : α) (s : AList β) :
    (s.erase a).keys = s.keys.filter (fun b => decide (b ≠ a)) := by
  rw [keys_erase, s.keys_nodup.erase_eq_filter]
  apply List.filter_congr
  intro b _
  rw [Bool.eq_iff_iff]
  simp

/-- Erase, one after another, the keys of the listed entries that satisfy a predicate. -/
def eraseAll (p : Sigma β → Bool) (s : AList β) (l : List (Sigma β)) : AList β :=
  l.foldl (fun t e => if p e then t.erase e.1 else t) s

theorem entries_eraseAll (p : Sigma β → Bool) (s : AList β) (l : List (Sigma β)) :
    (s.eraseAll p l).entries =
      s.entries.filter (fun e => decide (∀ e' ∈ l, p e' = true → e.1 ≠ e'.1)) := by
  induction l generalizing s with
  | nil => simp [eraseAll]
  | cons e l ih =>
    change ((if p e then s.erase e.1 else s).eraseAll p l).entries = _
    rw [ih]
    by_cases hp : p e = true
    · rw [if_pos hp, entries_erase, List.filter_filter]
      congr 1; funext x; simp [hp, Bool.and_comm]
    · rw [if_neg hp]
      congr 1; funext x; simp [hp]

/-- A loop over all entries, in any order, that erases those satisfying a predicate keeps
exactly the others. -/
theorem eraseAll_of_mem_iff (p : Sigma β → Bool) {s : AList β} {l : List (Sigma β)}
    (hl : ∀ e, e ∈ l ↔ e ∈ s.entries) : s.eraseAll p l = s.filter (fun e => !p e) := by
  apply AList.ext
  rw [entries_eraseAll, entries_filter]
  apply List.filter_congr
  intro e he
  rw [Bool.eq_iff_iff, decide_eq_true_iff]
  constructor
  · intro h
    by_contra hp
    exact h e ((hl e).mpr he) (by simpa using hp) rfl
  · intro hp e' he' hp' heq
    obtain rfl : e = e' := s.nodupKeys.eq_of_fst_eq he ((hl e').mp he') heq
    simp [hp'] at hp

theorem eraseAll_entries (p : Sigma β → Bool) (s : AList β) :
    s.eraseAll p s.entries = s.filter (fun e => !p e) :=
  eraseAll_of_mem_iff p fun _ => Iff.rfl

end Erase

section Count

variable (p : Sigma β → Bool) {a : α} {b b' : β a} {s : AList β}

theorem countP_kreplace {l : List (Sigma β)} (hl : l.NodupKeys) (h : ⟨a, b⟩ ∈ l) :
    (l.kreplace a b').countP p + (if p ⟨a, b⟩ then 1 else 0) =
      l.countP p + (if p ⟨a, b'⟩ then 1 else 0) := by
  induction l with
  | nil => simp at h
  | cons e l ih =>
    obtain ⟨hn, hl'⟩ := List.nodupKeys_cons.mp hl
    rcases List.mem_cons.mp h with rfl | h
    · rw [kreplace_cons_eq (e := ⟨a, b⟩) l rfl, List.countP_cons, List.countP_cons]
      exact Nat.add_right_comm _ _ _
    · have hne : a ≠ e.1 := fun he => hn (he ▸ List.mem_keys_of_mem h)
      rw [kreplace_cons_ne l hne, List.countP_cons, List.countP_cons]
      have := ih hl' h
      omega

/-- Replacing a value moves a count by what the old and the new value contribute. -/
theorem countP_replace (h : s.lookup a = some b) (b' : β a) :
    (s.replace a b').entries.countP p + (if p ⟨a, b⟩ then 1 else 0) =
      s.entries.countP p + (if p ⟨a, b'⟩ then 1 else 0) :=
  countP_kreplace p s.nodupKeys (mem_entries_iff.mpr h)

theorem countP_kerase {l : List (Sigma β)} (hl : l.NodupKeys) (h : ⟨a, b⟩ ∈ l) :
    (l.kerase a).countP p + (if p ⟨a, b⟩ then 1 else 0) = l.countP p := by
  induction l with
  | nil => simp at h
  | cons e l ih =>
    obtain ⟨hn, hl'⟩ := List.nodupKeys_cons.mp hl
    rcases List.mem_cons.mp h with rfl | h
    · rw [List.kerase_cons_eq (s := ⟨a, b⟩) rfl, List.countP_cons]
    · have hne : a ≠ e.1 := fun he => hn (he ▸ List.mem_keys_of_mem h)
      rw [List.kerase_cons_ne hne, List.countP_cons, List.countP_cons]
      have := ih hl' h
      omega

theorem countP_erase (h : s.lookup a = some b) :
    (s.erase a).entries.countP p + (if p ⟨a, b⟩ then 1 else 0) = s.entries.countP p :=
  countP_kerase p s.nodupKeys (mem_entries_iff.mpr h)

theorem card_filter_keys (s : AList β) :
    (s.keys.toFinset.filter fun a => (s.lookup a).any fun b => p ⟨a, b⟩).card =
      s.entries.countP p := by
  have hkeys : (s.keys.toFinset.filter fun a => (s.lookup a).any fun b => p ⟨a, b⟩) =
      (s.filter p).keys.toFinset := by
    ext a
    rw [Finset.mem_filter, List.mem_toFinset, List.mem_toFinset, ← mem_keys, ← mem_keys,
      ← lookup_isSome, ← lookup_isSome, Option.any_eq_true]
    simp only [Option.isSome_iff_exists, lookup_filter_eq_some]
    constructor
    · rintro ⟨-, b, hb, hp⟩
      exact ⟨b, hb, hp⟩
    · rintro ⟨b, hb, hp⟩
      exact ⟨⟨b, hb⟩, b, hb, hp⟩
  rw [hkeys, List.toFinset_card_of_nodup (s.filter p).keys_nodup, List.countP_eq_length_filter]
  exact List.length_map _

theorem length_erase_add_one (h : s.lookup a = some b) :
    (s.erase a).entries.length + 1 = s.entries.length := by
  simpa using countP_erase (fun _ => true) h

end Count

section MapVal

variable (f : ∀ a, β a → γ a) (s : AList β) (a : α)

theorem mapVal_replace (b : β a) : (s.replace a b).mapVal f = (s.mapVal f).replace a (f a b) := by
  apply AList.ext
  change (s.entries.kreplace a b).map (Sigma.map id f) =
    (s.entries.map (Sigma.map id f)).kreplace a (f a b)
  induction s.entries with
  | nil => rfl
  | cons e l ih =>
    by_cases hk : a = e.1
    · rw [kreplace_cons_eq l hk, List.map_cons, List.map_cons,
        kreplace_cons_eq (e := Sigma.map id f e) _ hk]
      rfl
    · rw [kreplace_cons_ne l hk, List.map_cons, List.map_cons,
        kreplace_cons_ne (e := Sigma.map id f e) _ hk, ih]

theorem mapVal_erase : (s.erase a).mapVal f = (s.mapVal f).erase a := by
  apply AList.ext
  rw [entries_mapVal, entries_erase, entries_erase, entries_mapVal, List.filter_map]
  rfl

theorem mapVal_insert (b : β a) : (s.insert a b).mapVal f = (s.mapVal f).insert a (f a b) := by
  apply AList.ext
  rw [entries_mapVal, entries_insert, entries_insert, List.map_cons,
    kerase_eq_filter a s.nodupKeys, kerase_eq_filter a (s.mapVal f).nodupKeys, entries_mapVal,
    List.filter_map]
  rfl
end MapVal

end AList
