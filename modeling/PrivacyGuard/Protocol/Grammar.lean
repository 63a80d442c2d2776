import Mathlib.Data.List.TakeWhile
import PrivacyGuard.Foundations.Delimited
import PrivacyGuard.Protocol.Frame

/-! # The PG/1 grammar

The lines that stand for a frame, written out as texts, and the proof that the
parser accepts exactly these lines.
-/

namespace PrivacyGuard

structure HexGroup (n : ℕ) (group : Bytes) : Prop where
  length : group.length = n
  digits : ∀ c ∈ group, c ∈ ascii "0123456789abcdefABCDEF"

inductive Uuid : Bytes → Prop
  | intro {a b c d e : Bytes} (ha : HexGroup 8 a) (hb : HexGroup 4 b) (hc : HexGroup 4 c)
      (hd : HexGroup 4 d) (he : HexGroup 12 e) :
      Uuid (a ++ dash :: (b ++ dash :: (c ++ dash :: (d ++ dash :: e))))

/-- One or more decimal digits, leading zeros allowed, that stand for a number. -/
structure Numeral (digits : Bytes) (n : ℕ) : Prop where
  nonempty : digits ≠ []
  decimal : ∀ c ∈ digits, c ∈ ascii "0123456789"
  value : Nat.ofDigits 10 (digits.reverse.map fun c => c.toNat - 48) = n

/-- The lines of PG/1 and their frames. -/
inductive Grammar : Bytes → Frame → Prop
  | hello {u : Bytes} (hu : Uuid u) :
      Grammar (ascii "PG/1 HELLO " ++ u) { kind := .hello, clientId := u }
  | safe {digits : Bytes} {n : UInt64} (hd : Numeral digits n.toNat) :
      Grammar (ascii "PG/1 STATE " ++ digits ++ ascii " SAFE")
        { kind := .state, sequence := n, sensitive := false }
  | sensitive {digits : Bytes} {n : UInt64} (hd : Numeral digits n.toNat) :
      Grammar (ascii "PG/1 STATE " ++ digits ++ ascii " SENSITIVE")
        { kind := .state, sequence := n, sensitive := true }
  | goodbye : Grammar (ascii "PG/1 GOODBYE") { kind := .goodbye }

inductive Malformed : Bytes → Prop
  | doubledSpace (a b : Bytes) : Malformed (a ++ space :: space :: b)
  | leadingSpace (b : Bytes) : Malformed (space :: b)
  | trailingSpace (a : Bytes) : Malformed (a ++ [space])
  /-- Carriage returns, tabs, NUL and the other control characters. -/
  | control {line : Bytes} {c : UInt8} (hc : c ∈ line) (h : c < space) : Malformed line
  | sign {token : Bytes} {c : UInt8} (hc : c ∈ token) (h : c ∈ ascii "+-") (hs : space ∉ token)
      (rest : Bytes) : Malformed (ascii "PG/1 STATE " ++ token ++ space :: rest)
  | overflow {digits : Bytes} {n : ℕ} (hd : Numeral digits n) (hn : wordSize ≤ n)
      (rest : Bytes) : Malformed (ascii "PG/1 STATE " ++ digits ++ space :: rest)
  | extraToken {line : Bytes} {f : Frame} (h : Grammar line f) (rest : Bytes) :
      Malformed (line ++ space :: rest)

/-! ### Tokens -/

/-- The line consists of these tokens, separated by single spaces. -/
structure Words (line : Bytes) (tokens : List Bytes) : Prop where
  line_eq : line = [space].intercalate tokens
  tokens : ∀ t ∈ tokens, t ≠ [] ∧ space ∉ t

theorem Words.splitOn {line : Bytes} {tokens : List Bytes} (h : Words line tokens)
    (hne : tokens ≠ []) : line.splitOn space = tokens := by
  rw [h.line_eq]
  exact List.splitOn_intercalate space (fun t ht => (h.tokens t ht).2) hne

/-- Without a trailing space the loop returns all pieces, or none if a piece is empty. -/
theorem splitTokensLoop_eq (tokens : List Bytes) {rest : Bytes} (hne : rest ≠ [])
    (hlast : rest.getLast? ≠ some space) :
    splitTokensLoop tokens rest =
      if [] ∈ rest.splitOn space then [] else tokens ++ rest.splitOn space := by
  induction hn : rest.length using Nat.strong_induction_on generalizing rest tokens with
  | _ n ih =>
    rw [splitTokensLoop, dif_neg hne]
    split
    case h_1 hnone =>
      rw [List.splitOn_eq_singleton (List.idxOf?_eq_none_iff.mp hnone)]
      simp [Ne.symm hne]
    case h_2 hzero =>
      obtain ⟨front, tail, rfl, hf, hlen⟩ := Delimited.idxOf?_eq_some_iff_append.mp hzero
      obtain rfl := List.length_eq_zero_iff.mp hlen
      rw [List.splitOn_append_cons_self_of_not_mem hf, if_pos List.mem_cons_self]
    case h_3 length hsome =>
      obtain ⟨front, tail, rfl, hf, hlen⟩ := Delimited.idxOf?_eq_some_iff_append.mp hsome
      have htail : tail ≠ [] := by
        rintro rfl
        simp at hlast
      have hlast' : tail.getLast? ≠ some space := by
        rwa [Delimited.getLast?_append_cons front htail] at hlast
      have htake : (front ++ space :: tail).take (length + 1) = front :=
        List.take_left' hlen
      have hdrop : (front ++ space :: tail).drop (length + 2) = tail := by
        rw [List.append_cons]
        exact List.drop_left' (by simp [hlen])
      have hfront : front ≠ [] := by
        rintro rfl
        simp at hlen
      rw [htake, hdrop, ih tail.length (by simp [← hn]; omega) _ htail hlast' rfl,
        List.splitOn_append_cons_self_of_not_mem hf]
      simp [List.append_assoc, Ne.symm hfront]

theorem splitTokens_eq_iff {line : Bytes} {tokens : List Bytes} (hne : line ≠ [])
    (hlast : line.getLast? ≠ some space) (htokens : tokens ≠ []) :
    splitTokens line = tokens ↔ Words line tokens := by
  rw [splitTokens, splitTokensLoop_eq [] hne hlast, List.nil_append]
  constructor
  · intro h
    split at h
    case isTrue => exact absurd h.symm htokens
    case isFalse hempty =>
      subst h
      exact ⟨(List.intercalate_splitOn space).symm,
        fun t ht => ⟨fun hnil => hempty (hnil ▸ ht), Delimited.notMem_of_mem_splitOn ht⟩⟩
  · intro h
    rw [h.splitOn htokens, if_neg fun hmem => (h.tokens [] hmem).1 rfl]

/-! ### Numbers and identifiers -/

theorem mem_decimal_iff (c : UInt8) : c ∈ ascii "0123456789" ↔ Decimal.isDigit c = true := by
  simp only [ascii, Decimal.isDigit, Bool.and_eq_true, decide_eq_true_iff,
    UInt8.le_iff_toNat_le]
  simp [← UInt8.toNat_inj]
  omega

theorem mem_hexadecimal_iff (c : UInt8) :
    c ∈ ascii "0123456789abcdefABCDEF" ↔ isHexadecimal c = true := by
  simp only [ascii, isHexadecimal, Bool.and_eq_true, Bool.or_eq_true, decide_eq_true_iff,
    UInt8.le_iff_toNat_le]
  simp [← UInt8.toNat_inj]
  omega

/-- A sequence is parsed exactly when it is a numeral of a 64-bit number. -/
theorem parseSequence_eq_some_iff {value : Bytes} {sequence : UInt64} :
    parseSequence value = some sequence ↔ Numeral value sequence.toNat := by
  have hvalue : ∀ l : Bytes, Decimal.value l =
      Nat.ofDigits 10 (l.reverse.map fun c => c.toNat - 48) := Decimal.value_eq_ofDigits
  constructor
  · intro h
    unfold parseSequence at h
    split at h
    case h_2 => simp at h
    case h_1 number hsome =>
      obtain rfl := Option.some.inj h
      unfold fromChars at hsome
      simp only at hsome
      split at hsome
      case isTrue => simp at hsome
      case isFalse hne =>
        split at hsome
        case isFalse => simp at hsome
        case isTrue hlt =>
          obtain ⟨hnumber, hdrop⟩ := Prod.mk.inj (Option.some.inj hsome)
          have htake : value.takeWhile Decimal.isDigit = value := by
            conv_rhs => rw [← List.takeWhile_append_dropWhile (p := Decimal.isDigit) (l := value)]
            rw [hdrop, List.append_nil]
          rw [htake] at hne hlt hnumber
          refine ⟨hne, fun c hc => (mem_decimal_iff c).mpr ?_, ?_⟩
          · exact List.takeWhile_eq_self_iff.mp htake c hc
          · rw [← hvalue, ← hnumber, UInt64.toNat_ofNat_of_lt' hlt]
  · rintro ⟨hne, hdec, hval⟩
    have hall : ∀ c ∈ value, Decimal.isDigit c = true := fun c hc =>
      (mem_decimal_iff c).mp (hdec c hc)
    have htake : value.takeWhile Decimal.isDigit = value := List.takeWhile_eq_self_iff.mpr hall
    have hdrop : value.dropWhile Decimal.isDigit = [] := List.dropWhile_eq_nil_iff.mpr hall
    have hlt : Decimal.value value < wordSize := by
      rw [hvalue, hval]
      exact sequence.toNat_lt
    simp only [parseSequence, fromChars, htake, hdrop, if_neg hne, if_pos hlt]
    rw [hvalue, hval, UInt64.ofNat_toNat]

theorem all_zipIdx_group {group : Bytes} {k : ℕ}
    (hk : ∀ i, k ≤ i → i < k + group.length → i ∉ separators) :
    (group.zipIdx k).all isUuidCharacter = true ↔ ∀ c ∈ group, isHexadecimal c = true := by
  induction group generalizing k with
  | nil => simp
  | cons c group ih =>
    have hrest := ih (k := k + 1) fun i hi hlt => hk i (by omega) (by simp; omega)
    simp only [List.zipIdx_cons, List.all_cons, Bool.and_eq_true, hrest, List.forall_mem_cons]
    rw [isUuidCharacter, if_neg (hk k le_rfl (by simp))]

theorem isUuid_append_iff {a b c d e : Bytes} {w x y z : UInt8} (ha : a.length = 8)
    (hb : b.length = 4) (hc : c.length = 4) (hd : d.length = 4) (he : e.length = 12) :
    isUuid (a ++ w :: (b ++ x :: (c ++ y :: (d ++ z :: e)))) = true ↔
      ((∀ i ∈ a, isHexadecimal i = true) ∧ w = dash) ∧
        ((∀ i ∈ b, isHexadecimal i = true) ∧ x = dash) ∧
          ((∀ i ∈ c, isHexadecimal i = true) ∧ y = dash) ∧
            ((∀ i ∈ d, isHexadecimal i = true) ∧ z = dash) ∧ ∀ i ∈ e, isHexadecimal i = true := by
  have hlen : (a ++ w :: (b ++ x :: (c ++ y :: (d ++ z :: e)))).length = 36 := by
    simp [ha, hb, hc, hd, he]
  have hdash : ∀ (i : UInt8) (k : ℕ), k ∈ separators →
      (isUuidCharacter (i, k) = true ↔ i = dash) := fun i k hk => by simp [isUuidCharacter, hk]
  have hgroup : ∀ (l : Bytes) (k n : ℕ), l.length = n →
      (∀ i, k ≤ i → i < k + n → i ∉ separators) →
      ((l.zipIdx k).all isUuidCharacter = true ↔ ∀ i ∈ l, isHexadecimal i = true) :=
    fun l k n hl hk => all_zipIdx_group (hl ▸ hk)
  simp only [isUuid, hlen, decide_true, Bool.true_and, List.zipIdx_append, List.zipIdx_cons,
    List.all_append, List.all_cons, Bool.and_eq_true, ha, hb, hc, hd]
  rw [hgroup a 0 8 ha (by simp [separators]; omega), hdash w _ (by simp [separators]),
    hgroup b _ 4 hb (by simp [separators]; omega), hdash x _ (by simp [separators]),
    hgroup c _ 4 hc (by simp [separators]; omega), hdash y _ (by simp [separators]),
    hgroup d _ 4 hd (by simp [separators]; omega), hdash z _ (by simp [separators]),
    hgroup e _ 12 he (by simp [separators]; omega)]
  simp only [and_assoc]

theorem isUuid_iff {value : Bytes} : isUuid value = true ↔ Uuid value := by
  have hex : ∀ l : Bytes, (∀ i ∈ l, isHexadecimal i = true) ↔
      ∀ i ∈ l, i ∈ ascii "0123456789abcdefABCDEF" := fun l =>
    forall₂_congr fun i _ => (mem_hexadecimal_iff i).symm
  constructor
  · intro h
    have hlen : value.length = 36 := by
      rw [isUuid, Bool.and_eq_true, decide_eq_true_iff] at h
      exact h.1
    obtain ⟨a, w, r, rfl, ha⟩ := Delimited.exists_append_cons_of_lt (l := value) (n := 8)
      (by omega)
    obtain ⟨b, x, r, rfl, hb⟩ := Delimited.exists_append_cons_of_lt (l := r) (n := 4)
      (by simp at hlen; omega)
    obtain ⟨c, y, r, rfl, hc⟩ := Delimited.exists_append_cons_of_lt (l := r) (n := 4)
      (by simp at hlen; omega)
    obtain ⟨d, z, e, rfl, hd⟩ := Delimited.exists_append_cons_of_lt (l := r) (n := 4)
      (by simp at hlen; omega)
    have he : e.length = 12 := by simp at hlen; omega
    obtain ⟨⟨ha', rfl⟩, ⟨hb', rfl⟩, ⟨hc', rfl⟩, ⟨hd', rfl⟩, he'⟩ :=
      (isUuid_append_iff ha hb hc hd he).mp h
    exact .intro ⟨ha, (hex a).mp ha'⟩ ⟨hb, (hex b).mp hb'⟩ ⟨hc, (hex c).mp hc'⟩
      ⟨hd, (hex d).mp hd'⟩ ⟨he, (hex e).mp he'⟩
  · rintro ⟨ha, hb, hc, hd, he⟩
    rw [isUuid_append_iff ha.length hb.length hc.length hd.length he.length]
    exact ⟨⟨(hex _).mpr ha.digits, rfl⟩, ⟨(hex _).mpr hb.digits, rfl⟩,
      ⟨(hex _).mpr hc.digits, rfl⟩, ⟨(hex _).mpr hd.digits, rfl⟩, (hex _).mpr he.digits⟩

/-! ### The parser -/

inductive Shape : List Bytes → Frame → Prop
  | hello {u : Bytes} (hu : Uuid u) :
      Shape [ascii "PG/1", ascii "HELLO", u] { kind := .hello, clientId := u }
  | safe {digits : Bytes} {n : UInt64} (hd : Numeral digits n.toNat) :
      Shape [ascii "PG/1", ascii "STATE", digits, ascii "SAFE"]
        { kind := .state, sequence := n, sensitive := false }
  | sensitive {digits : Bytes} {n : UInt64} (hd : Numeral digits n.toNat) :
      Shape [ascii "PG/1", ascii "STATE", digits, ascii "SENSITIVE"]
        { kind := .state, sequence := n, sensitive := true }
  | goodbye : Shape [ascii "PG/1", ascii "GOODBYE"] { kind := .goodbye }

theorem Uuid.forall_mem {u : Bytes} (h : Uuid u) {P : UInt8 → Prop}
    (hex : ∀ c ∈ ascii "0123456789abcdefABCDEF", P c) (hdash : P dash) : ∀ c ∈ u, P c := by
  obtain ⟨ha, hb, hc, hd, he⟩ := h
  intro i hi
  simp only [List.mem_append, List.mem_cons] at hi
  rcases hi with hi | rfl | hi | rfl | hi | rfl | hi | rfl | hi
  · exact hex i (ha.digits i hi)
  · exact hdash
  · exact hex i (hb.digits i hi)
  · exact hdash
  · exact hex i (hc.digits i hi)
  · exact hdash
  · exact hex i (hd.digits i hi)
  · exact hdash
  · exact hex i (he.digits i hi)

theorem Uuid.ne_nil {u : Bytes} (h : Uuid u) : u ≠ [] := by
  obtain ⟨-, -, -, -, -⟩ := h
  simp

theorem Uuid.space_notMem {u : Bytes} (h : Uuid u) : space ∉ u := fun hmem =>
  h.forall_mem (P := (· ≠ space)) (by decide +kernel) (by decide) space hmem rfl

theorem Numeral.space_notMem {digits : Bytes} {n : ℕ} (h : Numeral digits n) :
    space ∉ digits := fun hmem => absurd (h.decimal _ hmem) (by decide)

theorem Shape.words {tokens : List Bytes} {f : Frame} (h : Shape tokens f) :
    ∀ t ∈ tokens, t ≠ [] ∧ space ∉ t := by
  cases h with
  | hello hu => simpa using ⟨by decide, by decide, hu.ne_nil, hu.space_notMem⟩
  | safe hd => simpa using ⟨by decide, by decide, ⟨hd.nonempty, hd.space_notMem⟩, by decide⟩
  | sensitive hd =>
    simpa using ⟨by decide, by decide, ⟨hd.nonempty, hd.space_notMem⟩, by decide⟩
  | goodbye => decide

theorem Shape.ne_nil {tokens : List Bytes} {f : Frame} (h : Shape tokens f) : tokens ≠ [] := by
  cases h <;> simp

theorem intercalate_hello (u : Bytes) :
    [space].intercalate [ascii "PG/1", ascii "HELLO", u] = ascii "PG/1 HELLO " ++ u := by
  simp [List.intercalate]
  rfl

theorem intercalate_state (digits status : Bytes) :
    [space].intercalate [ascii "PG/1", ascii "STATE", digits, status] =
      ascii "PG/1 STATE " ++ digits ++ space :: status := by
  simp [List.intercalate]
  rfl

/-- A line of the grammar is a shape joined by single spaces. -/
theorem grammar_iff {line : Bytes} {f : Frame} :
    Grammar line f ↔ ∃ tokens, Shape tokens f ∧ Words line tokens := by
  constructor
  · rintro (hu | hd | hd | -)
    · exact ⟨_, .hello hu, (intercalate_hello _).symm, (Shape.hello hu).words⟩
    · exact ⟨_, .safe hd, (intercalate_state _ _).symm, (Shape.safe hd).words⟩
    · exact ⟨_, .sensitive hd, (intercalate_state _ _).symm, (Shape.sensitive hd).words⟩
    · exact ⟨_, .goodbye, by decide, Shape.goodbye.words⟩
  · rintro ⟨tokens, h, hw⟩
    rw [hw.line_eq]
    cases h with
    | hello hu => exact intercalate_hello _ ▸ Grammar.hello hu
    | safe hd => exact intercalate_state _ _ ▸ Grammar.safe hd
    | sensitive hd => exact intercalate_state _ _ ▸ Grammar.sensitive hd
    | goodbye => exact Grammar.goodbye

theorem Grammar.space_le {line : Bytes} {f : Frame} (h : Grammar line f) :
    ∀ c ∈ line, space ≤ c := by
  have hdec : ∀ {digits : Bytes} {n : ℕ}, Numeral digits n → ∀ c ∈ digits, space ≤ c :=
    fun hd c hc => (show ∀ c ∈ ascii "0123456789", space ≤ c by decide +kernel) c (hd.decimal c hc)
  cases h with
  | hello hu =>
    exact List.forall_mem_append.mpr
      ⟨by decide +kernel, hu.forall_mem (by decide +kernel) (by decide +kernel)⟩
  | safe hd =>
    exact List.forall_mem_append.mpr
      ⟨List.forall_mem_append.mpr ⟨by decide +kernel, hdec hd⟩, by decide +kernel⟩
  | sensitive hd =>
    exact List.forall_mem_append.mpr
      ⟨List.forall_mem_append.mpr ⟨by decide +kernel, hdec hd⟩, by decide +kernel⟩
  | goodbye => decide +kernel

theorem nil_mem_splitOn_of_head? {line : Bytes} (h : line.head? = some space) :
    [] ∈ line.splitOn space := by
  obtain ⟨b, rfl⟩ := List.head?_eq_some_iff.mp h
  rw [← List.nil_append (space :: b), List.splitOn_append_cons_self_of_not_mem List.not_mem_nil]
  exact List.mem_cons_self

theorem nil_mem_splitOn_of_getLast? {line : Bytes} (h : line.getLast? = some space) :
    [] ∈ line.splitOn space := by
  obtain ⟨a, rfl⟩ := List.getLast?_eq_some_iff.mp h
  rw [List.splitOn_append_cons_self]
  exact List.mem_append_right _ (by simp)

theorem Words.nil_notMem_splitOn {line : Bytes} {tokens : List Bytes} (h : Words line tokens)
    (hne : tokens ≠ []) : [] ∉ line.splitOn space := fun hmem =>
  (h.tokens [] (h.splitOn hne ▸ hmem)).1 rfl

theorem parseFrame_of_shape {line : Bytes} {tokens : List Bytes} {f : Frame}
    (hlen : line.length ≤ maxFrameSize) (h : Shape tokens f) (hw : Words line tokens) :
    parseFrame line = some f := by
  have hempty := hw.nil_notMem_splitOn h.ne_nil
  have hlast : line.getLast? ≠ some space := fun hs =>
    hempty (nil_mem_splitOn_of_getLast? hs)
  have hne : line ≠ [] := by
    rintro rfl
    exact hempty (by simp)
  have hcr : line.getLast? ≠ some carriageReturn := fun hs =>
    absurd ((grammar_iff.mpr ⟨tokens, h, hw⟩).space_le _ (List.mem_of_getLast? hs)) (by decide)
  have hguard : ¬ (line = [] ∨ maxFrameSize < line.length ∨ line.head? = some space ∨
      line.getLast? = some space ∨ line.getLast? = some carriageReturn) := by
    rintro (hs | hs | hs | hs | hs)
    · exact hne hs
    · omega
    · exact hempty (nil_mem_splitOn_of_head? hs)
    · exact hlast hs
    · exact hcr hs
  rw [parseFrame, if_neg hguard, (splitTokens_eq_iff hne hlast h.ne_nil).mpr hw]
  cases h with
  | hello hu => simp [isUuid_iff.mpr hu]
  | safe hd =>
    simp only [parseSequence_eq_some_iff.mpr hd]
    rfl
  | sensitive hd =>
    simp only [parseSequence_eq_some_iff.mpr hd]
    rfl
  | goodbye => decide

theorem shape_of_parseFrame {line : Bytes} {f : Frame} (h : parseFrame line = some f) :
    line.length ≤ maxFrameSize ∧ ∃ tokens, Shape tokens f ∧ Words line tokens := by
  unfold parseFrame at h
  split at h
  case isTrue => simp at h
  case isFalse hguard =>
    simp only [not_or, not_lt] at hguard
    obtain ⟨hne, hlen, -, hlast, -⟩ := hguard
    refine ⟨hlen, ?_⟩
    split at h
    case h_2 => simp at h
    case h_1 version command arguments htokens =>
      have hw := (splitTokens_eq_iff hne hlast (by simp)).mp htokens
      refine ⟨_, ?_, hw⟩
      split at h
      case isTrue => simp at h
      case isFalse hversion =>
        obtain rfl := not_not.mp hversion
        split at h
        case isTrue hhello =>
          subst hhello
          split at h
          case h_2 => simp at h
          case h_1 clientId =>
            split at h
            case isFalse => simp at h
            case isTrue hu =>
              obtain rfl := Option.some.inj h
              exact .hello (isUuid_iff.mp hu)
        case isFalse =>
          split at h
          case isTrue hstate =>
            subst hstate
            split at h
            case h_2 => simp at h
            case h_1 number status =>
              split at h
              case h_2 => simp at h
              case h_1 sequence hnumber =>
                have hd := parseSequence_eq_some_iff.mp hnumber
                split at h
                case isTrue => simp at h
                case isFalse hstatus =>
                  obtain rfl := Option.some.inj h
                  rcases not_and_or.mp hstatus with hs | hs
                  · obtain rfl := not_not.mp hs
                    exact .safe hd
                  · obtain rfl := not_not.mp hs
                    exact .sensitive hd
          case isFalse =>
            split at h
            case isFalse => simp at h
            case isTrue hgoodbye =>
              obtain ⟨rfl, rfl⟩ := hgoodbye
              obtain rfl := Option.some.inj h
              exact .goodbye

theorem parseFrame_eq_some_iff {line : Bytes} {f : Frame} :
    parseFrame line = some f ↔ line.length ≤ maxFrameSize ∧ Grammar line f := by
  rw [grammar_iff]
  constructor
  · exact shape_of_parseFrame
  · rintro ⟨hlen, tokens, hs, hw⟩
    exact parseFrame_of_shape hlen hs hw

/-! ### Malformed lines -/

/-- The third token of a state line, whatever follows it. -/
theorem splitOn_state {token : Bytes} (hs : space ∉ token) (rest : Bytes) :
    (ascii "PG/1 STATE " ++ token ++ space :: rest).splitOn space =
      ascii "PG/1" :: ascii "STATE" :: token :: rest.splitOn space := by
  have hline : ascii "PG/1 STATE " ++ token ++ space :: rest =
      ascii "PG/1" ++ space :: (ascii "STATE" ++ space :: (token ++ space :: rest)) := by
    simp
    rfl
  rw [hline, List.splitOn_append_cons_self_of_not_mem (by decide),
    List.splitOn_append_cons_self_of_not_mem (by decide),
    List.splitOn_append_cons_self_of_not_mem hs]

theorem Shape.numeral {token : Bytes} {tokens : List Bytes} {f : Frame}
    (h : Shape (ascii "PG/1" :: ascii "STATE" :: token :: tokens) f) :
    ∃ n, Numeral token n ∧ n < wordSize := by
  generalize ht : ascii "PG/1" :: ascii "STATE" :: token :: tokens = ts at h
  cases h with
  | hello hu => exact absurd (List.cons.inj (List.cons.inj ht).2).1 (by decide)
  | safe hd =>
    obtain ⟨rfl, -⟩ := List.cons.inj (List.cons.inj (List.cons.inj ht).2).2
    exact ⟨_, hd, UInt64.toNat_lt _⟩
  | sensitive hd =>
    obtain ⟨rfl, -⟩ := List.cons.inj (List.cons.inj (List.cons.inj ht).2).2
    exact ⟨_, hd, UInt64.toNat_lt _⟩
  | goodbye => simp at ht

/-- No shape is a proper prefix of another. -/
theorem Shape.eq_nil_of_append {ts us : List Bytes} {f g : Frame} (h : Shape ts f)
    (h' : Shape (ts ++ us) g) : us = [] := by
  generalize ht : ts ++ us = vs at h'
  cases h <;> cases h' <;> simp_all [ascii]

theorem Malformed.not_grammar {line : Bytes} (hm : Malformed line) (f : Frame) :
    ¬ Grammar line f := by
  intro hg
  obtain ⟨tokens, hs, hw⟩ := grammar_iff.mp hg
  have hsplit := hw.splitOn hs.ne_nil
  have hempty := hw.nil_notMem_splitOn hs.ne_nil
  cases hm with
  | doubledSpace a b =>
    refine hempty ?_
    rw [List.splitOn_append_cons_self]
    exact List.mem_append_right _ (nil_mem_splitOn_of_head? rfl)
  | leadingSpace b => exact hempty (nil_mem_splitOn_of_head? rfl)
  | trailingSpace a => exact hempty (nil_mem_splitOn_of_getLast? (by simp))
  | control hc hlt => exact absurd (hg.space_le _ hc) (by simpa using hlt)
  | sign hc hsign hspace rest =>
    rw [splitOn_state hspace] at hsplit
    obtain ⟨n, hd, -⟩ := (hsplit ▸ hs).numeral
    have hsigns : ∀ c ∈ ascii "+-", c ∉ ascii "0123456789" := by decide +kernel
    exact hsigns _ hsign (hd.decimal _ hc)
  | overflow hd hn rest =>
    rw [splitOn_state hd.space_notMem] at hsplit
    obtain ⟨m, hd', hm⟩ := (hsplit ▸ hs).numeral
    have := hd.value.symm.trans hd'.value
    omega
  | extraToken h rest =>
    obtain ⟨ts, hs', hw'⟩ := grammar_iff.mp h
    rw [List.splitOn_append_cons_self, hw'.splitOn hs'.ne_nil] at hsplit
    exact List.splitOn_ne_nil space rest (hs'.eq_nil_of_append (hsplit ▸ hs))

/-- The parser accepts exactly the lines of the grammar within the size limit, with the
frame the grammar gives them; malformed lines are rejected. -/
theorem parseFrame_iff_grammar (line : Bytes) :
    (∀ f, parseFrame line = some f ↔ line.length ≤ maxFrameSize ∧ Grammar line f) ∧
      (Malformed line → parseFrame line = none) := by
  refine ⟨fun f => parseFrame_eq_some_iff, fun hm => ?_⟩
  rw [Option.eq_none_iff_forall_ne_some]
  intro f hf
  exact hm.not_grammar f (parseFrame_eq_some_iff.mp hf).2

example : parseFrame (ascii "PG/1 STATE 007 SENSITIVE") =
    some { kind := .state, sequence := 7, sensitive := true } := by decide +kernel

example : parseFrame (ascii "PG/1 STATE 7 SAFE ") = none := by decide +kernel

end PrivacyGuard
