import PrivacyGuard.Foundations.LowerCase

/-! # Privacy rules

The rules of the user settings, and the file names they match. A rule that ignores case
compares the lower case of the name with the lower case of its value.
-/

namespace PrivacyGuard

open Utf16

def utf16 (text : String) : Utf16 := text.toList.map fun c => UInt16.ofNat c.toNat

/-- Rule names match the values exposed by the configuration schema. -/
inductive RuleType
  | extension
  | startsWith
  | endsWith
  | includes
  deriving DecidableEq, Repr

def RuleType.text : RuleType → Utf16
  | .extension => utf16 "extension"
  | .startsWith => utf16 "startsWith"
  | .endsWith => utf16 "endsWith"
  | .includes => utf16 "includes"

def ruleTypes : List RuleType := [.extension, .startsWith, .endsWith, .includes]

structure PrivacyRule where
  id : Utf16
  type : RuleType
  value : Utf16
  caseSensitive : Option Bool := none
  deriving DecidableEq, Repr

/-! ### Settings -/

inductive Unknown
  | undefined
  | null
  | boolean (value : Bool)
  | string (value : Utf16)
  | object (properties : List (String × Unknown))
  /-- Numbers, symbols and functions. -/
  | other

def Unknown.property (properties : List (String × Unknown)) (name : String) : Unknown :=
  (properties.lookup name).getD .undefined

def isWhiteSpace (u : UInt16) : Bool :=
  u ∈ [0x09, 0x0A, 0x0B, 0x0C, 0x0D, 0x20, 0xA0, 0x1680, 0x2028, 0x2029, 0x202F, 0x205F, 0x3000,
    0xFEFF] || 0x2000 ≤ u && u ≤ 0x200A

def trim (s : Utf16) : Utf16 :=
  ((s.dropWhile isWhiteSpace).reverse.dropWhile isWhiteSpace).reverse

/-- Reject malformed user settings before they reach the filename matcher. -/
def isPrivacyRule : Unknown → Bool
  | .object properties =>
    let candidate := Unknown.property properties
    (match candidate "id" with
      | .string id => decide ((trim id).length > 0)
      | _ => false) &&
    (match candidate "value" with
      | .string value => decide (value.length > 0)
      | _ => false) &&
    (match candidate "type" with
      | .string type => decide (type ∈ ruleTypes.map RuleType.text)
      | _ => false) &&
    (match candidate "caseSensitive" with
      | .undefined => true
      | .boolean _ => true
      | _ => false)
  | _ => false

def PrivacyRule.object (rule : PrivacyRule) : Unknown :=
  .object ([("id", .string rule.id), ("type", .string rule.type.text),
    ("value", .string rule.value)] ++
      rule.caseSensitive.toList.map fun b => ("caseSensitive", .boolean b))

/-! ### File names -/

def isPathSeparator (u : UInt16) : Bool := u == 0x2F || u == 0x5C

def isWindowsDeviceRoot (u : UInt16) : Bool := 0x41 ≤ u && u ≤ 0x5A || 0x61 ≤ u && u ≤ 0x7A

/-- `win32.basename`: a drive letter and separators at the end are no part of the name. -/
def basename (path : Utf16) : Utf16 :=
  let path :=
    match path with
    | root :: 0x3A :: rest => if isWindowsDeviceRoot root then rest else path
    | _ => path
  ((path.reverse.dropWhile isPathSeparator).takeWhile fun u => !isPathSeparator u).reverse

/-- The value of an extension rule with its full stop. -/
def normalize (expected : Utf16) : Utf16 :=
  if [fullStop] <+: expected then expected else fullStop :: expected

/-- Normalize both values once so each rule type has identical case semantics. -/
def matchesRule (d : CaseData) (fileName : Utf16) (rule : PrivacyRule) : Bool :=
  let caseSensitive := rule.caseSensitive.getD false
  let actual := if caseSensitive then fileName else d.toLowerCase fileName
  let expected := if caseSensitive then rule.value else d.toLowerCase rule.value
  match rule.type with
  | .extension =>
    let normalized := normalize expected
    decide (actual = normalized) || decide (normalized <:+ actual)
  | .startsWith => decide (expected <+: actual)
  | .endsWith => decide (expected <:+ actual)
  | .includes => decide (expected <:+: actual)

/-- Rules intentionally inspect only the basename, never file contents or paths. -/
def matchesFile (d : CaseData) (filePath : Utf16) (rules : List PrivacyRule) : Bool :=
  rules.any (matchesRule d (basename filePath))

/-! ### Where a rule looks -/

def RuleType.sought : RuleType → Utf16 → Utf16
  | .extension, value => normalize value
  | _, value => value

/-- The parts of a name that a rule type allows around its text. -/
def RuleType.Looks : RuleType → Utf16 → Utf16 → Prop
  | .startsWith, before, _ => before = []
  | .includes, _, _ => True
  | _, _, after => after = []

variable {d : CaseData} {fileName text : Utf16} {rule : PrivacyRule}

theorem fullStop_prefix_iff {s : Utf16} : [fullStop] <+: s ↔ s.head? = some fullStop := by
  cases s with
  | nil => simp
  | cons u s => simp [eq_comm]

/-- Lower-casing commutes with adding the full stop. -/
theorem normalize_toLowerCase (d : CaseData) (value : Utf16) :
    normalize (d.toLowerCase value) = d.toLowerCase (normalize value) := by
  unfold normalize
  by_cases h : value.head? = some fullStop
  · rw [if_pos (fullStop_prefix_iff.mpr (d.head?_toLowerCase.mpr h)),
      if_pos (fullStop_prefix_iff.mpr h)]
  · rw [if_neg fun h' => h (d.head?_toLowerCase.mp (fullStop_prefix_iff.mp h')),
      if_neg fun h' => h (fullStop_prefix_iff.mp h'), d.toLowerCase_fullStop_cons]

theorem sought_toLowerCase (d : CaseData) (type : RuleType) (value : Utf16) :
    type.sought (d.toLowerCase value) = d.toLowerCase (type.sought value) := by
  cases type with
  | extension => exact normalize_toLowerCase d value
  | startsWith => rfl
  | endsWith => rfl
  | includes => rfl

theorem matchesRule_iff (d : CaseData) (fileName : Utf16) (rule : PrivacyRule) :
    matchesRule d fileName rule = true ↔ ∃ before after,
      (if rule.caseSensitive.getD false then fileName else d.toLowerCase fileName) =
        before ++ rule.type.sought (if rule.caseSensitive.getD false then rule.value
          else d.toLowerCase rule.value) ++ after ∧ rule.type.Looks before after := by
  dsimp only [matchesRule]
  generalize (if rule.caseSensitive.getD false then fileName else d.toLowerCase fileName) = actual
  generalize (if rule.caseSensitive.getD false then rule.value
    else d.toLowerCase rule.value) = expected
  cases rule.type with
  | extension =>
    simp only [Bool.or_eq_true, decide_eq_true_eq, RuleType.sought, RuleType.Looks]
    constructor
    · rintro (h | ⟨before, h⟩)
      · exact ⟨[], [], by simp [h]⟩
      · exact ⟨before, [], by simp [h], rfl⟩
    · rintro ⟨before, after, h, rfl⟩
      exact Or.inr ⟨before, by simp [h]⟩
  | startsWith =>
    simp only [decide_eq_true_eq, RuleType.sought, RuleType.Looks]
    constructor
    · rintro ⟨after, h⟩
      exact ⟨[], after, by simp [h], rfl⟩
    · rintro ⟨before, after, h, rfl⟩
      exact ⟨after, by simp [h]⟩
  | endsWith =>
    simp only [decide_eq_true_eq, RuleType.sought, RuleType.Looks]
    constructor
    · rintro ⟨before, h⟩
      exact ⟨before, [], by simp [h], rfl⟩
    · rintro ⟨before, after, h, rfl⟩
      exact ⟨before, by simp [h]⟩
  | includes =>
    simp only [decide_eq_true_eq, RuleType.sought, RuleType.Looks]
    constructor
    · rintro ⟨before, after, h⟩
      exact ⟨before, after, h.symm, trivial⟩
    · rintro ⟨before, after, h, -⟩
      exact ⟨before, after, h.symm⟩

/-- The text of the rule stands in the name where the rule looks. -/
structure Stands (fileName : Utf16) (rule : PrivacyRule) (before after : Utf16) : Prop where
  name : fileName = before ++ rule.type.sought rule.value ++ after
  looks : rule.type.Looks before after

theorem matchesRule_sensitive :
    matchesRule d fileName { rule with caseSensitive := some true } = true ↔
      ∃ before after, Stands fileName rule before after := by
  rw [matchesRule_iff]
  simp only [Option.getD_some, if_true]
  constructor
  · rintro ⟨before, after, hname, hlooks⟩
    exact ⟨before, after, hname, hlooks⟩
  · rintro ⟨before, after, hname, hlooks⟩
    exact ⟨before, after, hname, hlooks⟩

theorem matchesRule_insensitive {caseSensitive : Option Bool}
    (h : caseSensitive ∈ [some false, none]) :
    matchesRule d fileName { rule with caseSensitive } = true ↔ ∃ before after,
      d.toLowerCase fileName = before ++ d.toLowerCase (rule.type.sought rule.value) ++ after ∧
        rule.type.Looks before after := by
  have hgetD : caseSensitive.getD false = false := by
    rcases List.mem_pair.mp h with rfl | rfl <;> rfl
  rw [matchesRule_iff]
  simp only [hgetD, Bool.false_eq_true, if_false, sought_toLowerCase]

/-! ### Matches that are lost -/

/-- The lower case of the text stands in that of the name, but not where the text does. -/
def Elsewhere (d : CaseData) (fileName text : Utf16) : Prop :=
  ∃ before' after', d.toLowerCase fileName = before' ++ d.toLowerCase text ++ after' ∧
    ∀ before after, fileName = before ++ text ++ after →
      before'.length ≠ (d.inPlace [] before (text ++ after)).length

/-- Why a name that a rule matches is matched when the rule ignores case. -/
inductive Retained (d : CaseData) (fileName : Utf16) (others : List PrivacyRule)
    (rule : PrivacyRule) : Prop
  | other {other : PrivacyRule} (hmem : other ∈ others) (h : matchesRule d fileName other = true)
  | absent (h : ∀ before after, ¬ Stands fileName rule before after)
  | kept {before after : Utf16} (h : Stands fileName rule before after)
      (hkept : d.Kept before (rule.type.sought rule.value) after)
  | elsewhere (htype : rule.type = .includes) (h : Elsewhere d fileName rule.value)

/-- Where the lower case of the text stands in the image of the text, its surroundings
have not changed it. -/
theorem kept_of_image {before after before' after' : Utf16}
    (hname : fileName = before ++ text ++ after)
    (himage : d.toLowerCase fileName = before' ++ d.toLowerCase text ++ after')
    (hlength : before'.length = (d.inPlace [] before (text ++ after)).length) :
    d.Kept before text after := by
  rw [hname, d.toLowerCase_append, List.append_assoc, List.append_assoc] at himage
  have hrest := (List.append_inj himage hlength.symm).2
  have htext : (d.inPlace before text after).length = (d.toLowerCase text).length := by
    rw [d.toLowerCase_eq]
    exact d.length_inPlace _ _ _ _ _
  exact d.inPlace_eq_iff_kept.mp (List.append_inj hrest htext).1

theorem image_of_kept {before after : Utf16} (hname : fileName = before ++ text ++ after)
    (h : d.Kept before text after) :
    d.toLowerCase fileName = d.inPlace [] before (text ++ after) ++ d.toLowerCase text ++
      d.inPlace (before ++ text) after [] := by
  rw [hname, d.toLowerCase_append, d.inPlace_eq_iff_kept.mpr h]

theorem length_of_suffix {before before' : Utf16} (hname : fileName = before ++ text)
    (himage : d.toLowerCase fileName = before' ++ d.toLowerCase text) :
    before'.length = (d.inPlace [] before text).length := by
  have hlower := d.toLowerCase_append before text []
  have htext : (d.inPlace before text []).length = (d.toLowerCase text).length := by
    rw [d.toLowerCase_eq]
    exact d.length_inPlace _ _ _ _ _
  rw [List.append_nil, List.append_nil, ← hname, himage] at hlower
  have hlength := congrArg List.length hlower
  simp only [List.length_append, htext, CaseData.inPlace, List.length_nil] at hlength
  omega

/-- A rule type that looks at one end of the name leaves no choice of the place. -/
theorem length_of_looks {type : RuleType} (htype : type ≠ .includes)
    {before after before' after' : Utf16} (hname : fileName = before ++ text ++ after)
    (himage : d.toLowerCase fileName = before' ++ d.toLowerCase text ++ after')
    (hlooks : type.Looks before after) (hlooks' : type.Looks before' after') :
    before'.length = (d.inPlace [] before (text ++ after)).length := by
  have hend : after = [] → after' = [] →
      before'.length = (d.inPlace [] before (text ++ after)).length := by
    rintro rfl rfl
    rw [List.append_nil] at hname himage ⊢
    exact length_of_suffix hname himage
  cases type with
  | extension => exact hend hlooks hlooks'
  | endsWith => exact hend hlooks hlooks'
  | startsWith =>
    obtain rfl : before = [] := hlooks
    obtain rfl : before' = [] := hlooks'
    rfl
  | includes => exact absurd rfl htype

theorem looks_image {type : RuleType} {before after : Utf16} (h : type.Looks before after)
    (s t : Utf16) : type.Looks (d.inPlace [] before s) (d.inPlace t after []) := by
  cases type with
  | extension => exact congrArg (d.inPlace t · []) h
  | endsWith => exact congrArg (d.inPlace t · []) h
  | startsWith => exact congrArg (d.inPlace [] · s) h
  | includes => trivial

/-- For a text that stands in the name, its lower case is found exactly where the surroundings
do not change it, or elsewhere. -/
theorem insensitive_iff_of_stands {before after : Utf16} (h : Stands fileName rule before after) :
    (∃ before' after', d.toLowerCase fileName =
        before' ++ d.toLowerCase (rule.type.sought rule.value) ++ after' ∧
          rule.type.Looks before' after') ↔
      (∃ before after, Stands fileName rule before after ∧
        d.Kept before (rule.type.sought rule.value) after) ∨
      rule.type = .includes ∧ Elsewhere d fileName rule.value := by
  constructor
  · rintro ⟨before', after', himage, hlooks'⟩
    by_cases htype : rule.type = .includes
    · by_cases hplace : ∃ before after, fileName = before ++ rule.value ++ after ∧
          before'.length = (d.inPlace [] before (rule.value ++ after)).length
      · obtain ⟨before, after, hname, hlength⟩ := hplace
        rw [htype] at himage
        refine Or.inl ⟨before, after, ?_, ?_⟩
        · exact ⟨by rw [htype]; exact hname, by rw [htype]; trivial⟩
        · rw [htype]
          exact kept_of_image hname himage hlength
      · rw [htype] at himage
        refine Or.inr ⟨htype, before', after', himage, fun before after hname hlength => ?_⟩
        exact hplace ⟨before, after, hname, hlength⟩
    · have hlength := length_of_looks htype h.name himage h.looks hlooks'
      exact Or.inl ⟨before, after, h, kept_of_image h.name himage hlength⟩
  · rintro (⟨before, after, ⟨hname, hlooks⟩, hkept⟩ | ⟨htype, before', after', himage, -⟩)
    · exact ⟨_, _, image_of_kept hname hkept, looks_image hlooks _ _⟩
    · rw [htype]
      exact ⟨before', after', himage, trivial⟩

theorem matchesFile_append_cons (d : CaseData) (filePath : Utf16) (before after : List PrivacyRule)
    (rule : PrivacyRule) : matchesFile d filePath (before ++ rule :: after) = true ↔
      (∃ other ∈ before ++ after, matchesRule d (basename filePath) other = true) ∨
        matchesRule d (basename filePath) rule = true := by
  simp only [matchesFile, List.any_append, List.any_cons, Bool.or_eq_true, List.any_eq_true,
    List.mem_append]
  grind

/-- Ignoring case loses no match of a rule exactly when the match is retained. -/
theorem insensitive_iff_retained (d : CaseData) (filePath : Utf16)
    (before after : List PrivacyRule) (rule : PrivacyRule) :
    (matchesFile d filePath (before ++ { rule with caseSensitive := some true } :: after) = true →
      ∀ caseSensitive ∈ [some false, none],
        matchesFile d filePath (before ++ { rule with caseSensitive } :: after) = true) ↔
    Retained d (basename filePath) (before ++ after) rule := by
  simp only [matchesFile_append_cons]
  constructor
  · intro h
    by_cases hother : ∃ other ∈ before ++ after, matchesRule d (basename filePath) other = true
    · obtain ⟨other, hmem, hmatches⟩ := hother
      exact .other hmem hmatches
    by_cases hstands : ∃ before after, Stands (basename filePath) rule before after
    · have hmatches := h (Or.inr (matchesRule_sensitive.mpr hstands)) none (by simp)
      have hnone := hmatches.resolve_left hother
      obtain ⟨front, back, hstands⟩ := hstands
      rw [matchesRule_insensitive (by simp), insensitive_iff_of_stands hstands] at hnone
      rcases hnone with ⟨front, back, hstands, hkept⟩ | ⟨htype, helsewhere⟩
      · exact .kept hstands hkept
      · exact .elsewhere htype helsewhere
    · exact .absent fun front back h => hstands ⟨front, back, h⟩
  · intro h hmatches caseSensitive hcase
    cases h with
    | other hmem hother => exact Or.inl ⟨_, hmem, hother⟩
    | absent habsent =>
      rcases hmatches with hother | hmatches
      · exact Or.inl hother
      · obtain ⟨front, back, hstands⟩ := matchesRule_sensitive.mp hmatches
        exact absurd hstands (habsent front back)
    | kept hstands hkept =>
      refine Or.inr ((matchesRule_insensitive hcase).mpr ?_)
      exact (insensitive_iff_of_stands hstands).mpr (Or.inl ⟨_, _, hstands, hkept⟩)
    | elsewhere htype helsewhere =>
      obtain ⟨front, back, himage, -⟩ := helsewhere
      refine Or.inr ((matchesRule_insensitive hcase).mpr ⟨front, back, ?_, ?_⟩)
      · rw [htype]
        exact himage
      · rw [htype]
        trivial

theorem retained_of_plain (d : CaseData) (fileName : Utf16) (others : List PrivacyRule)
    (h : ∀ u ∈ rule.value, u ≠ capitalSigma ∧ ¬ (isHighSurrogate u || isLowSurrogate u)) :
    Retained d fileName others rule := by
  have hsought : ∀ u ∈ rule.type.sought rule.value,
      u ≠ capitalSigma ∧ ¬ (isHighSurrogate u || isLowSurrogate u) := by
    intro u hu
    have hcases : u = fullStop ∨ u ∈ rule.value := by
      unfold RuleType.sought normalize at hu
      grind
    rcases hcases with rfl | hu
    · decide
    · exact h u hu
  by_cases hstands : ∃ before after, Stands fileName rule before after
  · obtain ⟨before, after, hstands⟩ := hstands
    exact .kept hstands (d.kept_of_plain hsought before after)
  · exact .absent fun before after h => hstands ⟨before, after, h⟩

/-! ### A lost match -/

/-- The lowercase mapping of ASCII and of the Greek capitals; other code points are kept. -/
def greekLower (c : ℕ) : Utf16 :=
  if 0x10000 ≤ c then
    [.ofNat (0xD800 + (c - 0x10000) / 0x400 % 0x400), .ofNat (0xDC00 + (c - 0x10000) % 0x400)]
  else if 0x41 ≤ c ∧ c ≤ 0x5A ∨ 0x391 ≤ c ∧ c ≤ 0x3A9 ∧ c ≠ 0x3A2 then [.ofNat (c + 0x20)]
  else [.ofNat c]

def greek : CaseData where
  lower := greekLower
  cased c := 0x41 ≤ c && c ≤ 0x5A || 0x61 ≤ c && c ≤ 0x7A || 0x391 ≤ c && c ≤ 0x3A9 && c != 0x3A2 ||
    0x3B1 ≤ c && c ≤ 0x3C9
  caseIgnorable c := c ∈ [0x27, 0x2E, 0x3A, 0x5E, 0x60]
  lower_ne_nil c := by
    unfold greekLower
    split
    · simp
    · split <;> simp
  length_lower c hc := by
    rw [greekLower, if_pos hc]
    rfl
  lower_surrogate u hu := by
    obtain ⟨hlow, hhigh⟩ : 0xD800 ≤ u.toNat ∧ u.toNat < 0xE000 := bounds_of_surrogate hu
    rw [greekLower, if_neg (by omega), if_neg (by omega), UInt16.ofNat_toNat]
  lower_fullStop := by decide
  head?_lower c hc := by
    have hhead : ∀ n : ℕ, UInt16.ofNat n = fullStop → n % 0x10000 = 0x2E := by
      intro n hn
      have h := congrArg UInt16.toNat hn
      rwa [UInt16.toNat_ofNat'] at h
    have hstop : fullStop.toNat = 0x2E := rfl
    unfold greekLower at hc
    split at hc
    case isTrue =>
      have h := hhead _ (Option.some.inj hc)
      omega
    case isFalse =>
      split at hc
      · have h := hhead _ (Option.some.inj hc)
        omega
      · have h := hhead _ (Option.some.inj hc)
        omega
  cased_fullStop := by decide

def odosPath : Utf16 := utf16 "C:/project/ΟΔΟΣ.txt"

def odosRule (caseSensitive : Option Bool) : PrivacyRule :=
  { id := utf16 "odos", type := .startsWith, value := utf16 "ΟΔΟΣ", caseSensitive }

/-- The name begins with the value, but the sigma is final in the value alone. -/
theorem sigma_lost :
    (∀ caseSensitive ∈ [some true, some false, none],
      isPrivacyRule (odosRule caseSensitive).object = true) ∧
    matchesFile greek odosPath [odosRule (some true)] = true ∧
    matchesFile greek odosPath [odosRule (some false)] = false ∧
    matchesFile greek odosPath [odosRule none] = false := by
  decide

end PrivacyGuard
