import Mathlib.Data.List.Infix
import Mathlib.Tactic.Common

/-! # Lower case in context

The full lower-casing of UTF-16 strings. A code point is mapped by the character data,
except that a capital sigma depends on the letters around it. What a part of a string
becomes is compared with what it becomes alone.
-/

/-- A string of UTF-16 code units, in which surrogates need not come in pairs. -/
abbrev Utf16 := List UInt16

namespace Utf16

def isHighSurrogate (u : UInt16) : Bool := 0xD800 ≤ u && u ≤ 0xDBFF
def isLowSurrogate (u : UInt16) : Bool := 0xDC00 ≤ u && u ≤ 0xDFFF

def codePoint (high low : UInt16) : ℕ :=
  0x10000 + (high.toNat - 0xD800) * 0x400 + (low.toNat - 0xDC00)

/-- The code points of a string; a surrogate without its partner is one of them. -/
def decode : Utf16 → List ℕ
  | [] => []
  | [u] => [u.toNat]
  | u :: v :: s =>
    if isHighSurrogate u && isLowSurrogate v then codePoint u v :: decode s
    else u.toNat :: decode (v :: s)

def fullStop : UInt16 := 0x2E
def capitalSigma : UInt16 := 0x3A3
def smallSigma : UInt16 := 0x3C3
def smallFinalSigma : UInt16 := 0x3C2

structure CaseData where
  /-- The lowercase mapping, as a string. -/
  lower : ℕ → Utf16
  cased : ℕ → Bool
  caseIgnorable : ℕ → Bool
  lower_ne_nil : ∀ c, lower c ≠ []
  /-- Code points outside the basic plane are mapped to such code points. -/
  length_lower : ∀ c, 0x10000 ≤ c → (lower c).length = 2
  lower_surrogate : ∀ u, isHighSurrogate u || isLowSurrogate u → lower u.toNat = [u]
  lower_fullStop : lower fullStop.toNat = [fullStop]
  head?_lower : ∀ c, (lower c).head? = some fullStop → c = fullStop.toNat
  cased_fullStop : cased fullStop.toNat = false

namespace CaseData

variable (d : CaseData)

/-- A cased code point comes after case-ignorable ones only. -/
def reachesCased : List ℕ → Bool
  | [] => false
  | c :: cs => d.cased c || d.caseIgnorable c && reachesCased cs

/-- The condition for a final sigma between the code points before it, nearest first, and
those after it. -/
def finalSigma (before after : List ℕ) : Bool := d.reachesCased before && !d.reachesCased after

/-- The lower case of one code point in its context. -/
def lowerIn (before : List ℕ) (c : ℕ) (after : List ℕ) : Utf16 :=
  if c = capitalSigma.toNat then
    if d.finalSigma before after then [smallFinalSigma] else [smallSigma]
  else d.lower c

def lowerFrom (before : List ℕ) : List ℕ → Utf16
  | [] => []
  | c :: after => d.lowerIn before c after ++ lowerFrom (c :: before) after

def toLowerCase (s : Utf16) : Utf16 := d.lowerFrom [] (decode s)

end CaseData

/-! ### Cut pairs -/

/-- A surrogate pair lies across the border of two strings. -/
def Cut (s t : Utf16) : Prop :=
  ∃ high ∈ s.getLast?, ∃ low ∈ t.head?, isHighSurrogate high ∧ isLowSurrogate low

variable {s t a b : Utf16} {u v : UInt16}

theorem bounds_of_surrogate (h : isHighSurrogate u || isLowSurrogate u) :
    0xD800 ≤ u.toNat ∧ u.toNat < 0xE000 := by
  simp only [isHighSurrogate, isLowSurrogate, Bool.or_eq_true, Bool.and_eq_true,
    decide_eq_true_eq, UInt16.le_iff_toNat_le, UInt16.reduceToNat] at h
  omega

theorem not_isLowSurrogate_of_high (h : isHighSurrogate u) : ¬ isLowSurrogate u := by
  simp only [isHighSurrogate, isLowSurrogate, Bool.and_eq_true, decide_eq_true_eq,
    UInt16.le_iff_toNat_le, UInt16.reduceToNat] at h ⊢
  omega

@[simp] theorem not_cut_nil_left (t : Utf16) : ¬ Cut [] t := by simp [Cut]

@[simp] theorem not_cut_nil_right (s : Utf16) : ¬ Cut s [] := by simp [Cut]

@[simp] theorem cut_concat_cons :
    Cut (s ++ [u]) (v :: t) ↔ isHighSurrogate u ∧ isLowSurrogate v := by
  simp [Cut]

theorem decode_append (h : ¬ Cut s t) : decode (s ++ t) = decode s ++ decode t := by
  induction s using decode.induct with
  | case1 => rfl
  | case2 u =>
    cases t with
    | nil => rfl
    | cons v t =>
      have hpair : ¬ (isHighSurrogate u && isLowSurrogate v) := by
        simpa [Cut] using h
      simp [decode, hpair]
  | case3 u v s hpair ih =>
    have hcut : ¬ Cut s t := by
      rintro ⟨high, hhigh, hrest⟩
      refine h ⟨high, ?_, hrest⟩
      simp_all [List.getLast?_cons]
    simp [decode, hpair, ih hcut]
  | case4 u v s hpair ih =>
    have hcut : ¬ Cut (v :: s) t := by
      rintro ⟨high, hhigh, hrest⟩
      refine h ⟨high, ?_, hrest⟩
      simpa [List.getLast?_cons] using hhigh
    have ih := ih hcut
    simp only [List.cons_append] at ih ⊢
    rw [decode, if_neg hpair, ih, decode, if_neg hpair, List.cons_append]

/-! ### Strings in their place -/

namespace CaseData

variable (d : CaseData)

/-- What one code unit contributes to the lower case of its string. The halves of a pair
contribute the halves of its lower case. -/
def piece (before : Utf16) (u : UInt16) (after : Utf16) : Utf16 :=
  if isHighSurrogate u then
    match after.head? with
    | some v => if isLowSurrogate v then (d.lower (codePoint u v)).take 1 else [u]
    | none => [u]
  else if isLowSurrogate u then
    match before.getLast? with
    | some v => if isHighSurrogate v then (d.lower (codePoint v u)).drop 1 else [u]
    | none => [u]
  else d.lowerIn (decode before).reverse u.toNat (decode after)

def inPlace (before : Utf16) : Utf16 → Utf16 → Utf16
  | [], _ => []
  | u :: s, after => d.piece before u (s ++ after) ++ inPlace (before ++ [u]) s after

theorem inPlace_append (a s t b : Utf16) :
    d.inPlace a (s ++ t) b = d.inPlace a s (t ++ b) ++ d.inPlace (a ++ s) t b := by
  induction s generalizing a with
  | nil => simp [inPlace]
  | cons u s ih => simp [inPlace, ih]

theorem lowerIn_of_ne {before after : List ℕ} {c : ℕ} (h : c ≠ capitalSigma.toNat) :
    d.lowerIn before c after = d.lower c :=
  if_neg h

theorem codePoint_ne_capitalSigma : codePoint u v ≠ capitalSigma.toNat := by
  have hsigma : capitalSigma.toNat = 0x3A3 := rfl
  unfold codePoint
  omega

theorem ne_capitalSigma_of_surrogate (h : isHighSurrogate u || isLowSurrogate u) :
    u.toNat ≠ capitalSigma.toNat := by
  intro hu
  obtain rfl := UInt16.toNat_inj.mp hu
  exact absurd h (by decide)

/-- A surrogate without its partner is its own lower case. -/
theorem piece_of_alone (hhigh : isHighSurrogate u → ¬ Cut [u] b)
    (hlow : isLowSurrogate u → ¬ Cut a [u]) :
    d.piece a u b = d.lowerIn (decode a).reverse u.toNat (decode b) := by
  unfold piece
  split
  case isTrue h =>
    have hs : isHighSurrogate u || isLowSurrogate u := by simp [h]
    rw [d.lowerIn_of_ne (ne_capitalSigma_of_surrogate hs), d.lower_surrogate u hs]
    cases b with
    | nil => rfl
    | cons v b =>
      have hv : ¬ isLowSurrogate v := fun hv => hhigh h ⟨u, rfl, v, rfl, h, hv⟩
      simp [hv]
  case isFalse =>
    split
    case isFalse => rfl
    case isTrue h =>
      have hs : isHighSurrogate u || isLowSurrogate u := by simp [h]
      rw [d.lowerIn_of_ne (ne_capitalSigma_of_surrogate hs), d.lower_surrogate u hs]
      cases ha : a.getLast? with
      | none => rfl
      | some v =>
        have hv : ¬ isHighSurrogate v := fun hv => hlow h ⟨v, ha, u, rfl, hv, h⟩
        simp [hv]

theorem piece_high (hu : isHighSurrogate u) (hv : isLowSurrogate v) (a s : Utf16) :
    d.piece a u (v :: s) = (d.lower (codePoint u v)).take 1 := by
  simp [piece, hu, hv]

theorem piece_low (hu : isHighSurrogate u) (hv : isLowSurrogate v) (a s : Utf16) :
    d.piece (a ++ [u]) v s = (d.lower (codePoint u v)).drop 1 := by
  have hv' : ¬ isHighSurrogate v := fun h => not_isLowSurrogate_of_high h hv
  simp [piece, hu, hv, hv']

theorem lowerFrom_decode (h : ¬ Cut a s) :
    d.lowerFrom (decode a).reverse (decode s) = d.inPlace a s [] := by
  induction s using decode.induct generalizing a with
  | case1 => rfl
  | case2 u =>
    have hpiece := d.piece_of_alone (a := a) (u := u) (b := [])
      (fun _ => not_cut_nil_right _) (fun _ => h)
    simp [decode, lowerFrom, inPlace, hpiece]
  | case3 u v s hpair ih =>
    obtain ⟨hu, hv⟩ : isHighSurrogate u ∧ isLowSurrogate v := by simpa using hpair
    have hcut : ¬ Cut (a ++ [u] ++ [v]) s := by
      rintro ⟨high, hhigh, low, -, hs, -⟩
      obtain rfl : v = high := by simpa using hhigh
      exact not_isLowSurrogate_of_high hs hv
    have hdecode : decode (a ++ [u] ++ [v]) = decode a ++ [codePoint u v] := by
      rw [List.append_assoc]
      exact (decode_append (t := [u, v]) h).trans (by simp [decode, hu, hv])
    have htail := ih hcut
    rw [hdecode, List.reverse_append] at htail
    rw [decode, if_pos hpair, lowerFrom, inPlace, inPlace, List.append_nil, List.append_nil,
      d.piece_low hu hv, d.piece_high hu hv, ← htail, ← List.append_assoc,
      List.take_append_drop, d.lowerIn_of_ne codePoint_ne_capitalSigma]
    rfl
  | case4 u v s hpair ih =>
    have hcut : ¬ Cut (a ++ [u]) (v :: s) := by simpa using hpair
    have hpiece := d.piece_of_alone (a := a) (u := u) (b := v :: s)
      (fun _ => by simpa [Cut] using hpair) (fun _ => h)
    have hdecode : decode (a ++ [u]) = decode a ++ [u.toNat] := decode_append h
    rw [decode, if_neg hpair, lowerFrom, inPlace, List.append_nil, ← ih hcut, hpiece, hdecode,
      List.reverse_append]
    rfl

theorem toLowerCase_eq (s : Utf16) : d.toLowerCase s = d.inPlace [] s [] :=
  d.lowerFrom_decode (not_cut_nil_left s)

theorem toLowerCase_append (a s b : Utf16) :
    d.toLowerCase (a ++ s ++ b) =
      d.inPlace [] a (s ++ b) ++ d.inPlace a s b ++ d.inPlace (a ++ s) b [] := by
  rw [toLowerCase_eq, inPlace_append, inPlace_append]
  simp

/-! ### What the surroundings change -/

/-- The final sigmas of `s`, and the halves of pairs that its borders cut, are not changed by
the surroundings. -/
structure Kept (a s b : Utf16) : Prop where
  sigma : ∀ before after, s = before ++ capitalSigma :: after →
    d.finalSigma (decode (a ++ before)).reverse (decode (after ++ b)) =
      d.finalSigma (decode before).reverse (decode after)
  low : ∀ high ∈ a.getLast?, ∀ low ∈ s.head?, isHighSurrogate high → isLowSurrogate low →
    (d.lower (codePoint high low)).drop 1 = [low]
  high : ∀ high ∈ s.getLast?, ∀ low ∈ b.head?, isHighSurrogate high → isLowSurrogate low →
    (d.lower (codePoint high low)).take 1 = [high]

theorem length_piece_of_surrogate (h : isHighSurrogate u || isLowSurrogate u) (a b : Utf16) :
    (d.piece a u b).length = 1 := by
  have hpair : ∀ high low, (d.lower (codePoint high low)).length = 2 :=
    fun high low => d.length_lower _ (by unfold codePoint; omega)
  unfold piece
  split
  case isTrue =>
    cases b.head? with
    | none => rfl
    | some v =>
      simp only
      split
      · simp [hpair]
      · rfl
  case isFalse hhigh =>
    rw [if_pos (by simpa [hhigh] using h)]
    cases a.getLast? with
    | none => rfl
    | some v =>
      simp only
      split
      · simp [hpair]
      · rfl

theorem piece_of_not_surrogate (h : ¬ (isHighSurrogate u || isLowSurrogate u)) (a b : Utf16) :
    d.piece a u b = d.lowerIn (decode a).reverse u.toNat (decode b) := by
  obtain ⟨hhigh, hlow⟩ : ¬ isHighSurrogate u ∧ ¬ isLowSurrogate u := by simpa using h
  rw [piece, if_neg hhigh, if_neg hlow]

theorem length_piece (a a' b b' : Utf16) (u : UInt16) :
    (d.piece a u b).length = (d.piece a' u b').length := by
  by_cases h : isHighSurrogate u || isLowSurrogate u
  · rw [d.length_piece_of_surrogate h, d.length_piece_of_surrogate h]
  · rw [d.piece_of_not_surrogate h, d.piece_of_not_surrogate h]
    unfold lowerIn
    split
    · split <;> split <;> rfl
    · rfl

theorem length_inPlace (a a' s b b' : Utf16) :
    (d.inPlace a s b).length = (d.inPlace a' s b').length := by
  induction s generalizing a a' with
  | nil => rfl
  | cons u s ih =>
    rw [inPlace, inPlace, List.length_append, List.length_append, d.length_piece a a',
      ih (a ++ [u]) (a' ++ [u])]

/-- A part of a string becomes what it becomes elsewhere if each unit does. -/
theorem inPlace_eq_iff {a a' b b' : Utf16} :
    d.inPlace a s b = d.inPlace a' s b' ↔ ∀ before u after, s = before ++ u :: after →
      d.piece (a ++ before) u (after ++ b) = d.piece (a' ++ before) u (after ++ b') := by
  induction s generalizing a a' with
  | nil => simp [inPlace]
  | cons w s ih =>
    constructor
    · intro h before u after hs
      obtain ⟨hw, htail⟩ := List.append_inj h (d.length_piece _ _ _ _ _)
      cases before with
      | nil =>
        obtain ⟨rfl, rfl⟩ : w = u ∧ s = after := by simpa using hs
        simpa using hw
      | cons x before =>
        obtain ⟨rfl, rfl⟩ : w = x ∧ s = before ++ u :: after := by simpa using hs
        simpa using ih.mp htail before u after rfl
    · intro h
      have hw := h [] w s rfl
      have htail : d.inPlace (a ++ [w]) s b = d.inPlace (a' ++ [w]) s b' := by
        refine ih.mpr fun before u after hs => ?_
        simpa using h (w :: before) u after (by rw [hs, List.cons_append])
      simp only [List.append_nil] at hw
      rw [inPlace, inPlace, hw, htail]

theorem piece_capitalSigma (a b : Utf16) : d.piece a capitalSigma b =
    if d.finalSigma (decode a).reverse (decode b) then [smallFinalSigma] else [smallSigma] := by
  rw [d.piece_of_not_surrogate (by decide), lowerIn, if_pos rfl]

theorem piece_congr_high (hu : isHighSurrogate u) {a a' b b' : Utf16} (hb : b.head? = b'.head?) :
    d.piece a u b = d.piece a' u b' := by
  rw [piece, piece, if_pos hu, if_pos hu, hb]

theorem piece_congr_low (hu : isLowSurrogate u) {a a' b b' : Utf16}
    (ha : a.getLast? = a'.getLast?) : d.piece a u b = d.piece a' u b' := by
  have hu' : ¬ isHighSurrogate u := fun h => not_isLowSurrogate_of_high h hu
  rw [piece, piece, if_neg hu', if_neg hu', if_pos hu, if_pos hu, ha]

theorem Kept.piece_high (h : d.Kept (s := s ++ [u]) a b) (hu : isHighSurrogate u) :
    d.piece (a ++ s) u b = d.piece s u [] := by
  cases b with
  | nil => exact d.piece_congr_high hu rfl
  | cons v b =>
    have halone : d.piece s u [] = [u] := by simp [piece, hu]
    by_cases hv : isLowSurrogate v
    · rw [d.piece_high hu hv, halone]
      exact h.high u (by simp) v rfl hu hv
    · simp [piece, hu, hv]

theorem Kept.piece_low (h : d.Kept (s := u :: s) a b) (hu : isLowSurrogate u) :
    d.piece a u (s ++ b) = d.piece [] u s := by
  have hu' : ¬ isHighSurrogate u := fun h => not_isLowSurrogate_of_high h hu
  have halone : d.piece [] u s = [u] := by simp [piece, hu, hu']
  rw [halone]
  cases ha : a.getLast? with
  | none => simp [piece, hu, hu', ha]
  | some v =>
    by_cases hv : isHighSurrogate v
    · obtain ⟨a, rfl⟩ := List.getLast?_eq_some_iff.mp ha
      rw [d.piece_low hv hu]
      exact h.low v ha u rfl hv hu
    · simp [piece, hu, hu', ha, hv]

theorem piece_eq_iff_kept : (∀ before u after, s = before ++ u :: after →
    d.piece (a ++ before) u (after ++ b) = d.piece before u after) ↔ d.Kept a s b := by
  constructor
  · intro h
    constructor
    case sigma =>
      intro before after hs
      have hpiece := h before capitalSigma after hs
      rw [piece_capitalSigma, piece_capitalSigma] at hpiece
      have hne : [smallFinalSigma] ≠ [smallSigma] := by decide
      grind
    case low =>
      intro high hhigh low hlow hh hl
      obtain ⟨s, rfl⟩ := List.head?_eq_some_iff.mp hlow
      obtain ⟨a, rfl⟩ := List.getLast?_eq_some_iff.mp hhigh
      have hpiece := h [] low s rfl
      rw [List.append_nil, d.piece_low hh hl] at hpiece
      have hl' : ¬ isHighSurrogate low := fun h => not_isLowSurrogate_of_high h hl
      simpa [piece, hl, hl'] using hpiece
    case high =>
      intro high hhigh low hlow hh hl
      obtain ⟨b, rfl⟩ := List.head?_eq_some_iff.mp hlow
      obtain ⟨s, rfl⟩ := List.getLast?_eq_some_iff.mp hhigh
      have hpiece := h s high [] rfl
      rw [List.nil_append, d.piece_high hh hl] at hpiece
      simpa [piece, hh] using hpiece
  · intro h before u after hs
    by_cases hhigh : isHighSurrogate u
    · cases after with
      | nil => exact Kept.piece_high d (hs ▸ h) hhigh
      | cons v after => exact d.piece_congr_high hhigh rfl
    · by_cases hlow : isLowSurrogate u
      · cases before using List.reverseRecOn with
        | nil => exact Kept.piece_low d (by simpa [hs] using h) hlow
        | append_singleton before v => exact d.piece_congr_low hlow (by simp)
      · have hu : ¬ (isHighSurrogate u || isLowSurrogate u) := by simp [hhigh, hlow]
        rw [d.piece_of_not_surrogate hu, d.piece_of_not_surrogate hu]
        by_cases hsigma : u = capitalSigma
        · subst hsigma
          rw [lowerIn, lowerIn, h.sigma before after hs]
        · have hne : u.toNat ≠ capitalSigma.toNat := fun h => hsigma (UInt16.toNat_inj.mp h)
          rw [d.lowerIn_of_ne hne, d.lowerIn_of_ne hne]

theorem inPlace_eq_iff_kept : d.inPlace a s b = d.toLowerCase s ↔ d.Kept a s b := by
  rw [toLowerCase_eq, inPlace_eq_iff, ← piece_eq_iff_kept]
  simp

theorem kept_of_plain (h : ∀ u ∈ s, u ≠ capitalSigma ∧ ¬ (isHighSurrogate u || isLowSurrogate u))
    (a b : Utf16) : d.Kept a s b := by
  constructor
  case sigma =>
    rintro before after rfl
    exact absurd rfl (h capitalSigma (by simp)).1
  case low =>
    intro high _ low hlow _ hl
    have hplain := (h low (List.mem_of_mem_head? hlow)).2
    simp [hl] at hplain
  case high =>
    intro high hhigh low _ hh _
    have hplain := (h high (List.mem_of_mem_getLast? hhigh)).2
    simp [hh] at hplain

/-! ### Full stops -/

theorem reachesCased_append_fullStop (cs : List ℕ) :
    d.reachesCased (cs ++ [fullStop.toNat]) = d.reachesCased cs := by
  induction cs with
  | nil => simp [reachesCased, d.cased_fullStop]
  | cons c cs ih => rw [List.cons_append, reachesCased, reachesCased, ih]

theorem kept_fullStop (s : Utf16) : d.Kept [fullStop] s [] := by
  constructor
  case sigma =>
    rintro before after rfl
    have hcut : ¬ Cut [fullStop] before := by
      rintro ⟨high, hhigh, low, -, hh, -⟩
      obtain rfl : fullStop = high := by simpa using hhigh
      exact absurd hh (by decide)
    have hdecode : decode ([fullStop] ++ before) = fullStop.toNat :: decode before :=
      decode_append hcut
    rw [hdecode, List.reverse_cons, List.append_nil, finalSigma, finalSigma,
      reachesCased_append_fullStop]
  case low =>
    intro high hhigh low _ hh
    obtain rfl : fullStop = high := by simpa using hhigh
    exact absurd hh (by decide)
  case high => simp

theorem toLowerCase_fullStop_cons (s : Utf16) :
    d.toLowerCase (fullStop :: s) = fullStop :: d.toLowerCase s := by
  have hpiece : d.piece [] fullStop s = [fullStop] := by
    rw [d.piece_of_not_surrogate (by decide), d.lowerIn_of_ne (by decide), d.lower_fullStop]
  have hrest := (d.inPlace_eq_iff_kept).mpr (d.kept_fullStop s)
  rw [toLowerCase_eq, inPlace, List.append_nil, List.nil_append, hpiece, hrest]
  rfl

theorem head?_decode : (decode s).head? = some fullStop.toNat ↔ s.head? = some fullStop := by
  have htoNat : ∀ u : UInt16, u.toNat = fullStop.toNat ↔ u = fullStop :=
    fun u => UInt16.toNat_inj
  cases s using decode.induct with
  | case1 => simp [decode]
  | case2 u => simp [decode, htoNat]
  | case3 u v s hpair =>
    obtain ⟨hu, -⟩ : isHighSurrogate u ∧ isLowSurrogate v := by simpa using hpair
    have hne : u ≠ fullStop := by
      rintro rfl
      exact absurd hu (by decide)
    have hcode : codePoint u v ≠ fullStop.toNat := by
      have hstop : fullStop.toNat = 0x2E := rfl
      unfold codePoint
      omega
    simp [decode, hpair, hne, hcode]
  | case4 u v s hpair => simp [decode, hpair, htoNat]

theorem head?_lowerFrom {before cs : List ℕ} :
    (d.lowerFrom before cs).head? = some fullStop ↔ cs.head? = some fullStop.toNat := by
  cases cs with
  | nil => simp [lowerFrom]
  | cons c cs =>
    rw [lowerFrom, lowerIn]
    split
    case isTrue hc =>
      subst hc
      split <;> simp <;> decide
    case isFalse =>
      rw [List.head?_append_of_ne_nil _ (d.lower_ne_nil c)]
      constructor
      · intro h
        simp [d.head?_lower c h]
      · intro h
        obtain rfl : c = fullStop.toNat := by simpa using h
        rw [d.lower_fullStop]
        rfl

theorem head?_toLowerCase :
    (d.toLowerCase s).head? = some fullStop ↔ s.head? = some fullStop :=
  d.head?_lowerFrom.trans head?_decode

end CaseData

end Utf16
