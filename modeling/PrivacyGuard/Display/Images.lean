import PrivacyGuard.Display.Controller
import PrivacyGuard.Foundations.Transition

/-! # Privacy images and their textures

`ImageRenderer` draws the selected image. Any thread selects one under the mutex; the
render thread alone owns the texture and rebuilds it in `update_texture`, between two locked
sections. The generation stored in the second one is the generation read in the first.
-/

namespace PrivacyGuard

structure Picture where
  width : ℕ
  height : ℕ
  pixels : Bytes
  deriving DecidableEq, Repr

abbrev QImage := Option Picture

structure ImageRenderer where
  selectedImage : QImage := none
  selectedGeneration : ℕ := 1
  textureGeneration : ℕ := 0
  /-- What the texture shows, if there is one. -/
  texture : Option Picture := none
  textureWidth : ℕ := 0
  textureHeight : ℕ := 0
  deriving DecidableEq, Repr

namespace ImageRenderer

def select (r : ImageRenderer) (image : QImage) : ImageRenderer :=
  { r with selectedImage := image, selectedGeneration := increment r.selectedGeneration }

def clear (r : ImageRenderer) : ImageRenderer := r.select none

/-- The bundled image of a mode, or the black fallback; `load` is what Qt reads at a path. -/
def selectDefault (r : ImageRenderer) (mode : Mode) (load : Bytes → QImage) :
    ImageRenderer × Bool :=
  let image := load (resourcePath mode)
  if image.isNone then (r.clear, false) else (r.select image, true)

def selectCustom (r : ImageRenderer) (path : Bytes) (load : Bytes → QImage) :
    ImageRenderer × Bool :=
  let image := load path
  if image.isNone then (r, false) else (r.select image, true)

def selectResource (r : ImageRenderer) (path : Bytes) (load : Bytes → QImage) :
    ImageRenderer × Bool :=
  let image := load path
  if image.isNone then (r, false) else (r.select image, true)

/-- The first locked section of `update_texture`: a copy of the selection, unless the texture
was built from it. -/
def readSelection (r : ImageRenderer) : Option (QImage × ℕ) :=
  if r.textureGeneration = r.selectedGeneration then none
  else some (r.selectedImage, r.selectedGeneration)

/-- The texture work of `update_texture`; `created` tells whether a texture can be created. -/
def rebuildTexture (r : ImageRenderer) (selected : QImage) (created : Bool) : ImageRenderer :=
  let r : ImageRenderer := { r with texture := none, textureWidth := 0, textureHeight := 0 }
  match selected with
  | none => r
  | some picture =>
    if created then
      { r with
        texture := some picture
        textureWidth := picture.width
        textureHeight := picture.height }
    else r

/-- The second locked section of `update_texture`. -/
def storeGeneration (r : ImageRenderer) (generation : ℕ) : ImageRenderer :=
  { r with textureGeneration := generation }

def shutdown (r : ImageRenderer) : ImageRenderer := { r with texture := none }

end ImageRenderer

/-- The calls by which other threads change the selection. -/
inductive SelectCall
  | clear
  | selectDefault (mode : Mode) (load : Bytes → QImage)
  | selectCustom (path : Bytes) (load : Bytes → QImage)
  | selectResource (path : Bytes) (load : Bytes → QImage)

namespace SelectCall

def perform (r : ImageRenderer) : SelectCall → ImageRenderer
  | .clear => r.clear
  | .selectDefault mode load => (r.selectDefault mode load).1
  | .selectCustom path load => (r.selectCustom path load).1
  | .selectResource path load => (r.selectResource path load).1

def image : SelectCall → Option QImage
  | .clear => some none
  | .selectDefault mode load => some (load (resourcePath mode))
  | .selectCustom path load => (load path).map some
  | .selectResource path load => (load path).map some

theorem perform_eq (call : SelectCall) (r : ImageRenderer) :
    call.perform r = match call.image with
      | some image => r.select image
      | none => r := by
  cases call with
  | clear => rfl
  | selectDefault mode load =>
    simp only [perform, image, ImageRenderer.selectDefault]
    cases load (resourcePath mode) <;> rfl
  | selectCustom path load =>
    simp only [perform, image, ImageRenderer.selectCustom]
    cases load path <;> rfl
  | selectResource path load =>
    simp only [perform, image, ImageRenderer.selectResource]
    cases load path <;> rfl

end SelectCall

inductive RenderPoint
  | outside
  /-- Before the first locked section of `update_texture`. -/
  | entered
  /-- Behind it, with the copies it made. -/
  | copied (selected : QImage) (generation : ℕ)
  /-- Before the second locked section. -/
  | rebuilt (generation : ℕ)
  | returned
  deriving DecidableEq, Repr

/-- A selection with its number; the null image of a new renderer is number 1. -/
structure Selection where
  number : ℕ
  image : QImage
  deriving DecidableEq, Repr

/-- The renderer and the render thread, with a record of the selections in question. -/
structure Rendering where
  renderer : ImageRenderer := {}
  point : RenderPoint := .outside
  /-- The number of the current selection. -/
  number : ℕ := 1
  /-- Its value when `update_texture` was last entered. -/
  begun : ℕ := 1
  /-- The selection at the last first locked section. -/
  seen : Selection := { number := 1, image := none }
  /-- The selection that the texture was last rebuilt from. -/
  source : Selection := { number := 1, image := none }
  /-- The number of the selection whose generation was stored last. -/
  stored : ℕ := 0
  deriving DecidableEq, Repr

inductive RenderStep
  /-- A call by another thread. -/
  | other (call : SelectCall)
  | enter
  | check
  | rebuild (created : Bool)
  | store
  /-- The graphics lock keeps the shutdown out of `update_texture`. -/
  | shutdown

def RenderStep.selections : RenderStep → ℕ
  | .other call => if call.image.isSome then 1 else 0
  | _ => 0

namespace Rendering

def current (s : Rendering) : Selection :=
  { number := s.number, image := s.renderer.selectedImage }

def step (s : Rendering) : RenderStep → Option Rendering
  | .other call =>
    some { s with
      renderer := call.perform s.renderer
      number := if call.image.isSome then s.number + 1 else s.number }
  | .enter =>
    match s.point with
    | .outside => some { s with point := .entered, begun := s.number }
    | .returned => some { s with point := .entered, begun := s.number }
    | _ => none
  | .check =>
    match s.point with
    | .entered =>
      match s.renderer.readSelection with
      | none => some { s with point := .returned, seen := s.current }
      | some (selected, generation) =>
        some { s with point := .copied selected generation, seen := s.current }
    | _ => none
  | .rebuild created =>
    match s.point with
    | .copied selected generation =>
      some { s with
        renderer := s.renderer.rebuildTexture selected created
        point := .rebuilt generation
        source := s.seen }
    | _ => none
  | .store =>
    match s.point with
    | .rebuilt generation =>
      some { s with
        renderer := s.renderer.storeGeneration generation
        point := .returned
        stored := s.seen.number }
    | _ => none
  | .shutdown =>
    match s.point with
    | .outside => some { s with renderer := s.renderer.shutdown }
    | .returned => some { s with renderer := s.renderer.shutdown, point := .outside }
    | _ => none

inductive Moves (s : Rendering) : RenderStep → Rendering → Prop
  | select {call : SelectCall} {image : QImage} (himage : call.image = some image) :
      Moves s (.other call)
        { s with renderer := s.renderer.select image, number := s.number + 1 }
  | unselected {call : SelectCall} (himage : call.image = none) : Moves s (.other call) s
  | enter (hp : s.point = .outside ∨ s.point = .returned) :
      Moves s .enter { s with point := .entered, begun := s.number }
  | hit (hp : s.point = .entered)
      (heq : s.renderer.textureGeneration = s.renderer.selectedGeneration) :
      Moves s .check { s with point := .returned, seen := s.current }
  | miss (hp : s.point = .entered)
      (hne : s.renderer.textureGeneration ≠ s.renderer.selectedGeneration) :
      Moves s .check
        { s with
          point := .copied s.renderer.selectedImage s.renderer.selectedGeneration
          seen := s.current }
  | rebuild {selected : QImage} {generation : ℕ} (hp : s.point = .copied selected generation)
      (created : Bool) :
      Moves s (.rebuild created)
        { s with
          renderer := s.renderer.rebuildTexture selected created
          point := .rebuilt generation
          source := s.seen }
  | store {generation : ℕ} (hp : s.point = .rebuilt generation) :
      Moves s .store
        { s with
          renderer := s.renderer.storeGeneration generation
          point := .returned
          stored := s.seen.number }
  | shutdown (hp : s.point = .outside ∨ s.point = .returned) :
      Moves s .shutdown { s with renderer := s.renderer.shutdown, point := .outside }

theorem moves_of_step {s t : Rendering} {act : RenderStep} (h : s.step act = some t) :
    Moves s act t := by
  cases act with
  | other call =>
    obtain rfl := Option.some.inj h
    rw [SelectCall.perform_eq]
    cases himage : call.image with
    | none => exact .unselected himage
    | some image => exact .select himage
  | enter =>
    cases hp : s.point <;> simp only [step, hp, reduceCtorEq] at h
    case outside => exact Option.some.inj h ▸ .enter (Or.inl hp)
    case returned => exact Option.some.inj h ▸ .enter (Or.inr hp)
  | check =>
    cases hp : s.point <;> simp only [step, hp, reduceCtorEq] at h
    by_cases heq : s.renderer.textureGeneration = s.renderer.selectedGeneration
    · rw [ImageRenderer.readSelection, if_pos heq] at h
      exact Option.some.inj h ▸ .hit hp heq
    · rw [ImageRenderer.readSelection, if_neg heq] at h
      exact Option.some.inj h ▸ .miss hp heq
  | rebuild created =>
    cases hp : s.point <;> simp only [step, hp, reduceCtorEq] at h
    exact Option.some.inj h ▸ .rebuild hp created
  | store =>
    cases hp : s.point <;> simp only [step, hp, reduceCtorEq] at h
    exact Option.some.inj h ▸ .store hp
  | shutdown =>
    cases hp : s.point <;> simp only [step, hp, reduceCtorEq] at h
    case outside => exact Option.some.inj h ▸ .shutdown (Or.inl hp)
    case returned => exact Option.some.inj h ▸ .shutdown (Or.inr hp)

/-! ### What the generations stand for -/

/-- The texture, if there is one, was built from the selection whose generation is stored. -/
def Settled (s : Rendering) : Prop :=
  s.renderer.texture = none ∨ s.source.number = s.stored

/-- A selection that has been made; only the current one has the current number. -/
structure Dated (current sel : Selection) : Prop where
  pos : 0 < sel.number
  le : sel.number ≤ current.number
  eq : sel.number = current.number → sel = current

def Placed (s : Rendering) : Prop :=
  match s.point with
  | .outside => s.Settled
  | .entered => s.Settled ∧ s.begun ≤ s.number
  | .copied selected generation =>
    s.Settled ∧ s.begun ≤ s.seen.number ∧ s.stored < s.seen.number ∧ selected = s.seen.image ∧
      generation = s.seen.number % wordSize
  | .rebuilt generation =>
    s.source = s.seen ∧ s.begun ≤ s.seen.number ∧ s.stored < s.seen.number ∧
      generation = s.seen.number % wordSize
  | .returned =>
    s.Settled ∧ s.begun ≤ s.seen.number ∧ (s.renderer.texture = none ∨ s.source = s.seen)

/-- The texture shows the image of its source, in its size. -/
structure Painted (r : ImageRenderer) (image : QImage) : Prop where
  image : image = r.texture
  size : ∀ picture, r.texture = some picture →
    r.textureWidth = picture.width ∧ r.textureHeight = picture.height

structure Tracked (n : ℕ) (s : Rendering) : Prop where
  number : s.number = n + 1
  selectedGeneration : s.renderer.selectedGeneration = s.number % wordSize
  textureGeneration : s.renderer.textureGeneration = s.stored % wordSize
  stored_le : s.stored ≤ s.number
  seen : Dated s.current s.seen
  source : Dated s.current s.source
  painted : s.renderer.texture = none ∨ Painted s.renderer s.source.image
  placed : s.Placed

variable {n : ℕ} {s t : Rendering}

theorem Tracked.dated_current (h : Tracked n s) : Dated s.current s.current where
  pos := by
    have hnumber : s.current.number = n + 1 := h.number
    omega
  le := Nat.le_refl _
  eq _ := rfl

theorem Dated.select {sel : Selection} (h : Dated s.current sel) (image : QImage) :
    Dated { number := s.number + 1, image } sel where
  pos := h.pos
  le := Nat.le_succ_of_le h.le
  eq hn := absurd hn (Nat.ne_of_lt (Nat.lt_succ_of_le h.le))

theorem tracked_init : Tracked 0 {} where
  number := rfl
  selectedGeneration := by decide
  textureGeneration := by decide
  stored_le := by decide
  seen := ⟨by decide, by decide, fun _ => rfl⟩
  source := ⟨by decide, by decide, fun _ => rfl⟩
  painted := Or.inl rfl
  placed := Or.inl rfl

/-- Equal generations belong to the same selection, or nothing was stored yet. -/
theorem Tracked.stored_eq (h : Tracked n s) (hn : n < wordSize)
    (heq : s.renderer.textureGeneration = s.renderer.selectedGeneration) :
    s.stored = s.number ∨ s.stored = 0 ∧ s.number = wordSize := by
  rw [h.textureGeneration, h.selectedGeneration] at heq
  have hle := h.stored_le
  have hnumber := h.number
  by_cases hlast : s.number = wordSize
  · rw [hlast, Nat.mod_self] at heq
    by_cases hstored : s.stored = wordSize
    · exact Or.inl (hstored.trans hlast.symm)
    · rw [Nat.mod_eq_of_lt (by omega)] at heq
      exact Or.inr ⟨heq, hlast⟩
  · rw [Nat.mod_eq_of_lt (by omega), Nat.mod_eq_of_lt (by omega)] at heq
    exact Or.inl heq

theorem Tracked.source_eq (h : Tracked n s) (hn : n < wordSize) (hs : s.Settled)
    (heq : s.renderer.textureGeneration = s.renderer.selectedGeneration) :
    s.renderer.texture = none ∨ s.source = s.current := by
  rcases hs with hnone | hsource
  · exact Or.inl hnone
  · rcases h.stored_eq hn heq with hstored | ⟨hzero, -⟩
    · exact Or.inr (h.source.eq (hsource.trans hstored))
    · have := h.source.pos
      omega

/-! ### Every step keeps track -/

theorem Placed.select (h : s.Placed) (image : QImage) :
    Placed { s with renderer := s.renderer.select image, number := s.number + 1 } := by
  unfold Placed at h ⊢
  cases hp : s.point <;> simp only [hp] at h ⊢
  case outside => exact h
  case entered => exact ⟨h.1, Nat.le_succ_of_le h.2⟩
  case copied => exact h
  case rebuilt => exact h
  case returned => exact h

theorem Tracked.select (h : Tracked n s) (image : QImage) :
    Tracked (n + 1) { s with
      renderer := s.renderer.select image, number := s.number + 1 } where
  number := congrArg (· + 1) h.number
  selectedGeneration := by
    change increment s.renderer.selectedGeneration = _
    rw [h.selectedGeneration, increment, Nat.mod_add_mod]
  textureGeneration := h.textureGeneration
  stored_le := Nat.le_succ_of_le h.stored_le
  seen := h.seen.select image
  source := h.source.select image
  painted := h.painted.imp_right fun hp => ⟨hp.image, hp.size⟩
  placed := h.placed.select image

theorem painted_rebuildTexture (r : ImageRenderer) (selected : QImage) (created : Bool) :
    (r.rebuildTexture selected created).texture = none ∨
      Painted (r.rebuildTexture selected created) selected := by
  cases selected with
  | none => exact Or.inl rfl
  | some picture =>
    cases created with
    | false => exact Or.inl rfl
    | true =>
      refine Or.inr ⟨rfl, ?_⟩
      rintro _ ⟨⟩
      exact ⟨rfl, rfl⟩

theorem rebuildTexture_generations (r : ImageRenderer) (selected : QImage) (created : Bool) :
    (r.rebuildTexture selected created).selectedImage = r.selectedImage ∧
      (r.rebuildTexture selected created).selectedGeneration = r.selectedGeneration ∧
        (r.rebuildTexture selected created).textureGeneration = r.textureGeneration := by
  cases selected with
  | none => exact ⟨rfl, rfl, rfl⟩
  | some picture => cases created <;> exact ⟨rfl, rfl, rfl⟩

theorem Placed.settled (h : s.Placed) (hp : s.point = .outside ∨ s.point = .returned) :
    s.Settled := by
  rcases hp with hp | hp
  · rw [Placed, hp] at h
    exact h
  · rw [Placed, hp] at h
    exact h.1

/-- The texture is rebuilt from the copy, whatever has been selected in the meantime. -/
theorem Tracked.rebuild (h : Tracked n s) {selected : QImage} {generation : ℕ}
    (hp : s.point = .copied selected generation) (created : Bool) :
    Tracked n { s with
      renderer := s.renderer.rebuildTexture selected created
      point := .rebuilt generation
      source := s.seen } := by
  have hplaced := h.placed
  rw [Placed, hp] at hplaced
  obtain ⟨-, hbegun, hstored, rfl, hgeneration⟩ := hplaced
  obtain ⟨hselected, hselectedGeneration, htextureGeneration⟩ :=
    rebuildTexture_generations s.renderer s.seen.image created
  have hcurrent : Rendering.current { s with
      renderer := s.renderer.rebuildTexture s.seen.image created
      point := .rebuilt generation
      source := s.seen } = s.current := by
    rw [current, current, hselected]
  have hseen := h.seen
  constructor
  case number => exact h.number
  case selectedGeneration => exact hselectedGeneration.trans h.selectedGeneration
  case textureGeneration => exact htextureGeneration.trans h.textureGeneration
  case stored_le => exact h.stored_le
  case seen => rwa [hcurrent]
  case source => rwa [hcurrent]
  case painted => exact painted_rebuildTexture s.renderer s.seen.image created
  case placed => exact ⟨rfl, hbegun, hstored, hgeneration⟩

theorem Tracked.store (h : Tracked n s) {generation : ℕ} (hp : s.point = .rebuilt generation) :
    Tracked n { s with
      renderer := s.renderer.storeGeneration generation
      point := .returned
      stored := s.seen.number } := by
  have hplaced := h.placed
  rw [Placed, hp] at hplaced
  obtain ⟨hsource, hbegun, -, hgeneration⟩ := hplaced
  constructor
  case number => exact h.number
  case selectedGeneration => exact h.selectedGeneration
  case textureGeneration => exact hgeneration
  case stored_le => exact h.seen.le
  case seen => exact h.seen
  case source => exact h.source
  case painted => exact h.painted.imp_right fun hpaint => ⟨hpaint.image, hpaint.size⟩
  case placed => exact ⟨Or.inr (congrArg Selection.number hsource), hbegun, Or.inr hsource⟩

theorem Tracked.shutdown (h : Tracked n s) :
    Tracked n { s with renderer := s.renderer.shutdown, point := .outside } where
  number := h.number
  selectedGeneration := h.selectedGeneration
  textureGeneration := h.textureGeneration
  stored_le := h.stored_le
  seen := h.seen
  source := h.source
  painted := Or.inl rfl
  placed := Or.inl rfl

theorem Tracked.step (h : Tracked n s) {act : RenderStep} (hn : n + act.selections < wordSize)
    (hs : s.step act = some t) : Tracked (n + act.selections) t := by
  have hplaced := h.placed
  cases moves_of_step hs with
  | select himage =>
    rw [RenderStep.selections, himage]
    exact h.select _
  | unselected himage =>
    rw [RenderStep.selections, himage]
    exact h
  | enter hp => exact { h with placed := ⟨hplaced.settled hp, Nat.le_refl _⟩ }
  | hit hp heq =>
    rw [Placed, hp] at hplaced
    exact { h with
      seen := h.dated_current
      placed := ⟨hplaced.1, hplaced.2, h.source_eq hn hplaced.1 heq⟩ }
  | miss hp hne =>
    rw [Placed, hp] at hplaced
    have hstored : s.stored ≠ s.number := by
      intro hstored
      rw [h.textureGeneration, h.selectedGeneration, hstored] at hne
      exact hne rfl
    exact { h with
      seen := h.dated_current
      placed := ⟨hplaced.1, hplaced.2, Nat.lt_of_le_of_ne h.stored_le hstored, rfl,
        h.selectedGeneration⟩ }
  | rebuild hp created => exact h.rebuild hp created
  | store hp => exact h.store hp
  | shutdown hp => exact h.shutdown

theorem tracked_of_run {acts : List RenderStep}
    (hn : (acts.map RenderStep.selections).sum < wordSize)
    (h : Transition.run step {} acts = some t) :
    Tracked (acts.map RenderStep.selections).sum t := by
  have htracked : Tracked (0 + (acts.map RenderStep.selections).sum) t :=
    Transition.run_weighted (P := fun _ => True)
      (fun _ _ _ _ hs _ hlt hstep => hs.step hlt hstep) tracked_init (fun _ _ => trivial)
      (by omega) h
  rwa [Nat.zero_add] at htracked

/-- No stale image is drawn. The step after the texture work is the only one at which the
last of all generations can be taken for the one before the first. -/
structure Fresh (n : ℕ) (s : Rendering) : Prop where
  /-- When `update_texture` has returned. -/
  returned : s.point = .returned →
    s.renderer.texture = none ∨
      s.renderer.texture = s.seen.image ∧ s.source = s.seen ∧ s.begun ≤ s.source.number
  current : s.renderer.textureGeneration = s.renderer.selectedGeneration →
    (n + 1 < wordSize ∨ ∀ generation, s.point ≠ .rebuilt generation) →
      s.renderer.texture = none ∨ s.renderer.texture = s.renderer.selectedImage
  size : ∀ picture, s.renderer.texture = some picture →
    s.renderer.textureWidth = picture.width ∧ s.renderer.textureHeight = picture.height

theorem Tracked.texture_eq (h : Tracked n s) :
    s.renderer.texture = none ∨ s.renderer.texture = s.source.image :=
  h.painted.imp_right fun hp => hp.image.symm

theorem Placed.settled_of_ne (h : s.Placed) (hp : ∀ generation, s.point ≠ .rebuilt generation) :
    s.Settled := by
  unfold Placed at h
  cases hpoint : s.point <;> simp only [hpoint] at h
  case outside => exact h
  case rebuilt generation => exact absurd hpoint (hp generation)
  all_goals exact h.1

theorem Tracked.fresh (h : Tracked n s) (hn : n < wordSize) : Fresh n s := by
  constructor
  case returned =>
    intro hp
    have hplaced := h.placed
    rw [Placed, hp] at hplaced
    rcases hplaced.2.2 with hnone | hsource
    · exact Or.inl hnone
    · exact h.texture_eq.imp_right fun himage =>
        ⟨hsource ▸ himage, hsource, hsource ▸ hplaced.2.1⟩
  case current =>
    intro heq hpoint
    by_cases hp : ∀ generation, s.point ≠ .rebuilt generation
    · rcases h.source_eq hn (h.placed.settled_of_ne hp) heq with hnone | hsource
      · exact Or.inl hnone
      · exact h.texture_eq.imp_right fun himage =>
          himage.trans (congrArg Selection.image hsource)
    · -- A stored generation is older here, so that equal ones can only be the wrapped ones.
      have hlt := hpoint.resolve_right hp
      obtain ⟨generation, hrebuilt⟩ := not_forall_not.mp hp
      have hplaced := h.placed
      rw [Placed, hrebuilt] at hplaced
      have hstored := hplaced.2.2.1
      have hle : s.seen.number ≤ s.number := h.seen.le
      have hnumber := h.number
      rcases h.stored_eq hn heq with hsame | ⟨-, hlast⟩ <;> omega
  case size =>
    intro picture hpicture
    rcases h.painted with hnone | hpainted
    · rw [hnone] at hpicture
      cases hpicture
    · exact hpainted.size picture hpicture

/-- Whatever the other threads select and whichever textures can be created, a rendering is
fresh. -/
theorem fresh_of_run {acts : List RenderStep}
    (hn : (acts.map RenderStep.selections).sum < wordSize)
    (h : Transition.run step {} acts = some t) :
    Fresh (acts.map RenderStep.selections).sum t :=
  (tracked_of_run hn h).fresh hn

def pixel : Picture := { width := 1, height := 1, pixels := [0, 0, 0, 255] }

def clearedMeanwhile : List RenderStep :=
  [.other (.selectCustom [] fun _ => some pixel), .enter, .check, .other .clear, .rebuild true,
    .store]

theorem fresh_clearedMeanwhile : ∃ t, Transition.run step {} clearedMeanwhile = some t ∧
    Fresh (clearedMeanwhile.map RenderStep.selections).sum t := by
  obtain ⟨t, ht⟩ : ∃ t, Transition.run step {} clearedMeanwhile = some t := ⟨_, rfl⟩
  exact ⟨t, ht, fresh_of_run (by decide) ht⟩

/-! ### The last generation -/

/-- A texture whose generation has not been stored yet, after its image was cleared. -/
structure Stale (number : ℕ) (s : Rendering) : Prop where
  texture : s.renderer.texture = some pixel
  textureGeneration : s.renderer.textureGeneration = 0
  selectedImage : s.renderer.selectedImage = none
  selectedGeneration : s.renderer.selectedGeneration = number % wordSize

theorem Stale.replicate {number : ℕ} (h : Stale number s) (k : ℕ) :
    ∃ t, Transition.run step s (List.replicate k (.other .clear)) = some t ∧
      Stale (number + k) t := by
  induction k generalizing number s with
  | zero => exact ⟨s, rfl, h⟩
  | succ k ih =>
    have hclear : Stale (number + 1)
        { s with renderer := s.renderer.clear, number := s.number + 1 } := by
      refine ⟨h.texture, h.textureGeneration, rfl, ?_⟩
      change increment s.renderer.selectedGeneration = _
      rw [h.selectedGeneration, increment, Nat.mod_add_mod]
    obtain ⟨t, hrun, ht⟩ := ih hclear
    refine ⟨t, Transition.run_cons.mpr ⟨_, rfl, hrun⟩, ?_⟩
    rwa [Nat.add_assoc, Nat.add_comm 1 k] at ht

/-- With the last selection the generation comes back to that of the empty texture, while
the texture work of the first call is done and its generation not stored. -/
theorem exists_run_stale : ∃ acts t, Transition.run step {} acts = some t ∧
    (acts.map RenderStep.selections).sum < wordSize ∧
      t.renderer.textureGeneration = t.renderer.selectedGeneration ∧
        t.renderer.texture ≠ none ∧ t.renderer.texture ≠ t.renderer.selectedImage := by
  obtain ⟨k, hk⟩ : ∃ k, 3 + k = wordSize := ⟨wordSize - 3, by simp [wordSize]⟩
  let start : List RenderStep := [.other (.selectCustom [] fun _ => some pixel), .enter, .check,
    .rebuild true, .other .clear]
  obtain ⟨s, hstart, hs⟩ : ∃ s, Transition.run step {} start = some s ∧ Stale 3 s :=
    ⟨_, rfl, rfl, rfl, rfl, by decide⟩
  obtain ⟨t, hrun, ht⟩ := hs.replicate k
  rw [hk] at ht
  refine ⟨start ++ List.replicate k (.other .clear), t,
    Transition.run_append.mpr ⟨s, hstart, hrun⟩, ?_, ?_, ?_, ?_⟩
  · have hsum : (start.map RenderStep.selections).sum = 2 := rfl
    rw [List.map_append, List.sum_append, hsum, List.map_replicate, List.sum_replicate_nat]
    simp only [RenderStep.selections, SelectCall.image, Option.isSome_some, if_true]
    omega
  · rw [ht.textureGeneration, ht.selectedGeneration, Nat.mod_self]
  · rw [ht.texture]
    exact Option.some_ne_none _
  · rw [ht.texture, ht.selectedImage]
    exact Option.some_ne_none _

end Rendering

end PrivacyGuard
