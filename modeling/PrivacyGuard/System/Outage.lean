import PrivacyGuard.System.Calls

/-! # An outage stays hidden

Once more connections have failed than others have yet to publish, nobody who is connected can
make up for it. From the first mode that the callback forwards afterwards, the output is
covered, whatever the windows, the server, the settings dialog and OBS do, until protection is
switched or somebody new publishes.
-/

namespace PrivacyGuard

open Utf16

open PrivacyState (Counted)

def Record.event (r : Record) : Event := (r.op, r.reply)

namespace Broadcast

variable {d : CaseData} {b₀ b b' : Broadcast} {n₀ n m : ℕ}

/-- More failures are outstanding than connections whose next STATE counts as their first. -/
structure Outage (b : Broadcast) : Prop where
  enabled : b.server.privacyState.enabled = true
  outstanding : b.server.privacyState.clients.entries.countP waitingEntry <
    b.server.privacyState.disconnectedClients

/-- The calls since `b₀`, newest first. -/
def since (b₀ b : Broadcast) : List Event :=
  (b.server.log.take (b.server.log.length - b₀.server.log.length)).map Record.event

/-- A connection opened since `b₀` has had a STATE accepted. -/
def Joined (b₀ b : Broadcast) : Prop := FreshState (b₀.since b)

theorem Outage.hidden (h : Outage b) (hc : Counted n b.server.privacyState) :
    Hidden n [] b.server.privacyState where
  opened id c hid hl := by
    have := hc.keys id c hl
    omega
  covered := by
    left
    refine lt_of_le_of_lt (List.countP_mono_left fun e _ he => ?_) h.outstanding
    exact (Bool.and_eq_true_iff.mp he).2

/-! ### The privacy state -/

/-- Nobody who was there at `b₀` can make up for its failures. -/
structure Dark (d : CaseData) (b₀ : Broadcast) (n₀ n : ℕ) (b : Broadcast) : Prop where
  linked : Linked d n b
  le : n₀ ≤ n
  length_le : b₀.server.log.length ≤ b.server.log.length
  hidden : Joined b₀ b ∨ b.server.privacyState.enabled = true ∧
    Hidden n₀ (b₀.since b) b.server.privacyState

theorem Outage.dark (h : Outage b) (hlinked : Linked d n b) : Dark d b n n b where
  linked := hlinked
  le := le_rfl
  length_le := le_rfl
  hidden := by
    have hnone : b.since b = [] := by simp [since]
    rw [hnone]
    exact .inr ⟨h.enabled, h.hidden hlinked.system.counted⟩

theorem since_of_silent (h : Server.Silent b.server b'.server) : b₀.since b' = b₀.since b := by
  rw [since, since, h.log]

theorem since_of_performs {op : Op} (h : Server.Performs b.server b'.server op)
    (hle : b₀.server.log.length ≤ b.server.log.length) :
    b₀.since b' = (op, (b.server.privacyState.perform op).2) :: b₀.since b := by
  rw [since, since, h.log, List.length_cons, Nat.sub_add_comm hle, List.take_succ_cons,
    List.map_cons]
  rfl

theorem Dark.step (h : Dark d b₀ n₀ n b) {label : Label} (hlabel : b.switches label = false)
    (hn : n + label.opens < wordSize) (hs : b.step d label = some b') :
    Dark d b₀ n₀ (n + label.opens) b' := by
  have hlinked := h.linked.step hn hs
  rcases calls_of_step hs with hsilent | ⟨op, hopens, hop, hperforms⟩
  · refine ⟨hlinked, h.le.trans (Nat.le_add_right n _), ?_, ?_⟩
    · rw [hsilent.log]
      exact h.length_le
    · rw [Joined, since_of_silent hsilent, hsilent.privacyState]
      exact h.hidden
  · have hsince := since_of_performs hperforms h.length_le
    refine ⟨hlinked, h.le.trans (Nat.le_add_right n _), ?_, ?_⟩
    · rw [hperforms.log, List.length_cons]
      exact h.length_le.trans (Nat.le_succ _)
    · by_cases hjoined : Joined b₀ b'
      · exact .inl hjoined
      · right
        rw [Joined, hsince] at hjoined
        obtain ⟨henabled, hhidden⟩ := h.hidden.resolve_left fun hold =>
          hjoined (hold.mono (List.subset_cons_self _ _))
        have hkept : b.server.privacyState.switches op = false :=
          Bool.eq_false_iff.mpr fun h => Bool.eq_false_iff.mp hlabel (hop h)
        rw [hsince, hperforms.privacyState, PrivacyState.perform_enabled_of_switches hkept]
        exact ⟨henabled, hhidden.perform h.linked.system.counted h.le op (hopens ▸ hn)
          (fun _ => henabled) hjoined⟩

theorem Dark.mode (h : Dark d b₀ n₀ n b) :
    Joined b₀ b ∨ isProtectedMode b.server.privacyState.mode = true :=
  h.hidden.imp id fun ⟨henabled, hhidden⟩ =>
    isProtectedMode_of_ne_safe henabled hhidden.mode_ne_safe

theorem Joined.step (h : Joined b₀ b) (hle : b₀.server.log.length ≤ b.server.log.length)
    {label : Label} (hs : b.step d label = some b') : Joined b₀ b' := by
  rcases calls_of_step hs with hsilent | ⟨op, -, -, hperforms⟩
  · rwa [Joined, since_of_silent hsilent]
  · rw [Joined, since_of_performs hperforms hle]
    exact h.mono (List.subset_cons_self _ _)

/-! ### The callback and the display -/

def Reads (b : Broadcast) : Prop :=
  ∀ mode, b.tickPoint = .read mode → isProtectedMode mode = true

/-- The callback has read a mode since, and holds protected ones only. -/
structure Dim (d : CaseData) (b₀ : Broadcast) (n₀ n : ℕ) (b : Broadcast) : Prop where
  dark : Dark d b₀ n₀ n b
  reads : Joined b₀ b ∨ Reads b

theorem Dim.step (h : Dim d b₀ n₀ n b) {label : Label} (hlabel : b.switches label = false)
    (hn : n + label.opens < wordSize) (hs : b.step d label = some b') :
    Dim d b₀ n₀ (n + label.opens) b' := by
  refine ⟨h.dark.step hlabel hn hs, ?_⟩
  rcases h.reads with hjoined | hreads
  · exact .inl (hjoined.step h.dark.length_le hs)
  · cases moves_of_step hs with
    | mode hp =>
      refine h.dark.mode.imp (·.step h.dark.length_le hs) ?_
      rintro hprotected mode ⟨⟩
      exact hprotected
    | tick hp now => exact .inr (by simp [Reads])
    | forward hp => exact .inr (by simp [Reads])
    | _ => exact .inr hreads

theorem Dark.dim (h : Dark d b₀ n₀ n b) (hn : n < wordSize) (hs : b.step d .mode = some b') :
    Dim d b₀ n₀ n b' := by
  refine ⟨h.step rfl ?_ hs, ?_⟩
  · exact hn
  cases moves_of_step hs with
  | mode hp =>
    refine h.mode.imp (·.step h.length_le hs) ?_
    rintro hprotected mode ⟨⟩
    exact hprotected

/-- The callback has forwarded a mode since, and forwards protected ones only. -/
structure Off (d : CaseData) (b₀ : Broadcast) (n₀ n : ℕ) (b : Broadcast) : Prop where
  dim : Dim d b₀ n₀ n b
  forwarded : Joined b₀ b ∨ isProtectedMode b.display.forwarded = true

theorem forwarded_tickPrivacyState (display : Display) (currentMode : Mode) :
    (display.tickPrivacyState currentMode).forwarded = currentMode := by
  unfold Display.tickPrivacyState Display.forwarded
  split
  case isTrue hlogged => rw [hlogged, Option.getD_some]
  case isFalse => rfl

theorem Dim.off (h : Dim d b₀ n₀ n b) (hn : n < wordSize) (hs : b.step d .forward = some b') :
    Off d b₀ n₀ n b' := by
  refine ⟨h.step rfl ?_ hs, ?_⟩
  · exact hn
  rcases h.reads with hjoined | hreads
  · exact .inl (hjoined.step h.dark.length_le hs)
  · cases moves_of_step hs with
    | forward hp =>
      right
      rw [forwarded_tickPrivacyState]
      exact hreads _ hp

theorem Off.step (h : Off d b₀ n₀ n b) {label : Label} (hlabel : b.switches label = false)
    (hn : n + label.opens < wordSize) (hs : b.step d label = some b') :
    Off d b₀ n₀ (n + label.opens) b' := by
  refine ⟨h.dim.step hlabel hn hs, ?_⟩
  rcases h.forwarded with hjoined | hprotected
  · exact .inl (hjoined.step h.dim.dark.length_le hs)
  · cases moves_of_step hs with
    | forward hp =>
      refine h.dim.reads.imp (·.step h.dim.dark.length_le hs) fun hreads => ?_
      rw [forwarded_tickPrivacyState]
      exact hreads _ hp
    | display hlogged hstep =>
      right
      rwa [Display.forwarded, hlogged]
    | _ => exact .inr hprotected

/-! ### Runs -/

theorem keeps_of_run {I : ℕ → Broadcast → Prop}
    (hstep : ∀ n b label b', I n b → b.switches label = false → n + label.opens < wordSize →
      b.step d label = some b' → I (n + label.opens) b')
    {labels : List Label} (h : I n b)
    (hswitches : Transition.Along (step d) (fun b l => b.switches l = false) b labels)
    (hn : n + (labels.map Label.opens).sum < wordSize)
    (hrun : Transition.run (step d) b labels = some b') :
    I (n + (labels.map Label.opens).sum) b' :=
  Transition.run_weighted_along (fun n b l b' h hl hn hs => hstep n b l b' h hl hn hs) h hswitches
    hn hrun

/-- In a run without a switch, every mode that is read after an outage and forwarded is protected,
and so is every later one. -/
theorem Outage.off (h : Outage b₀) (hlinked : Linked d n b₀) {earlier more later : List Label}
    (hswitches : Transition.Along (step d) (fun b l => b.switches l = false) b₀
      (earlier ++ .mode :: (more ++ .forward :: later)))
    (hn : n + ((earlier ++ .mode :: (more ++ .forward :: later)).map Label.opens).sum < wordSize)
    (hrun : Transition.run (step d) b₀ (earlier ++ .mode :: (more ++ .forward :: later)) =
      some b) : ∃ m, Off d b₀ n m b := by
  obtain ⟨b₁, hrun₁, hrun⟩ := Transition.run_append.mp hrun
  obtain ⟨b₂, hmode, hrun⟩ := Transition.run_cons.mp hrun
  obtain ⟨b₃, hrun₃, hrun⟩ := Transition.run_append.mp hrun
  obtain ⟨b₄, hforward, hrun⟩ := Transition.run_cons.mp hrun
  obtain ⟨hearlier, hswitches⟩ := Transition.along_append.mp hswitches
  obtain ⟨hmore, hswitches⟩ := Transition.along_append.mp ((hswitches b₁ hrun₁).2 b₂ hmode)
  have hlater := (hswitches b₃ hrun₃).2 b₄ hforward
  simp only [List.map_append, List.map_cons, List.sum_append, List.sum_cons, Label.opens] at hn
  have hdark := keeps_of_run (I := Dark d b₀ n) (fun _ _ _ _ h => h.step) (h.dark hlinked)
    hearlier (by omega) hrun₁
  have hdim := keeps_of_run (I := Dim d b₀ n) (fun _ _ _ _ h => h.step)
    (hdark.dim (by omega) hmode) hmore (by omega) hrun₃
  have hoff := keeps_of_run (I := Off d b₀ n) (fun _ _ _ _ h => h.step)
    (hdim.off (by omega) hforward) hlater (by omega) hrun
  exact ⟨_, hoff⟩

/-- After an outage, from the first mode that has been read since and forwarded on, the output is
not open until protection is switched or somebody new has published. -/
theorem hidden_of_outage {timeout : ℤ} {clientIds : List { clientId : Bytes // Uuid clientId }}
    {watermarkAvailable : Bool} {labels earlier more later : List Label}
    (hn : ((labels ++ (earlier ++ .mode :: (more ++ .forward :: later))).map
      Label.opens).sum < wordSize)
    (hm : ((labels ++ (earlier ++ .mode :: (more ++ .forward :: later))).map
      Label.requests).sum < wordSize)
    (hrun : Transition.run (step d) (start timeout clientIds watermarkAvailable) labels = some b₀)
    (houtage : b₀.Outage)
    (hbetween : Transition.run (step d) b₀ (earlier ++ .mode :: (more ++ .forward :: later)) =
      some b)
    (hswitches : Transition.Along (step d) (fun b l => b.switches l = false) b₀
      (earlier ++ .mode :: (more ++ .forward :: later)))
    (hjoined : ¬ Joined b₀ b) : ¬ b.Open := by
  have hsound := run_sound hn hm (Transition.run_append.mpr ⟨b₀, hrun, hbetween⟩)
  rw [List.map_append, List.sum_append] at hn
  obtain ⟨n', hoff⟩ := houtage.off (linked_of_run (by omega) hrun) hswitches hn hbetween
  exact not_open_of_covers (hsound.covered (hoff.forwarded.resolve_left hjoined))

def losing : List Label :=
  streaming ++ [.system (.server (.proceed 0)), .system (.server (.ended 0)),
    .system (.server (.proceed 0)), .system (.server (.call 0 40))]

def lost : Broadcast :=
  (Transition.run (step greek) (start 2000 oneWindow true) losing).get (by decide +kernel)

def mourning : List Label :=
  [.display (.apply 0 {}), .display (.updateSettings {}), .display (.apply 0 {})]

def mourned : Broadcast :=
  (Transition.run (step greek) lost ([.tick 50] ++ .mode :: ([] ++ .forward :: mourning))).get
    (by decide +kernel)

theorem not_joined_mourned : ¬ Joined lost mourned := by
  rintro ⟨id, ⟨now, hmem⟩, -⟩
  have hopens : ∀ e ∈ lost.since mourned, opens e.1 = 0 := by decide +kernel
  exact absurd (hopens _ hmem) (by simp [opens])

theorem hidden_lost : lost.Open ∧ ¬ mourned.Open :=
  ⟨⟨by decide +kernel, by decide +kernel⟩,
    hidden_of_outage (by decide) (by decide) (Option.some_get _).symm
      ⟨by decide +kernel, by decide +kernel⟩ (Option.some_get _).symm (by decide +kernel)
      not_joined_mourned⟩

end Broadcast

end PrivacyGuard
