import Mathlib.Data.List.Count
import PrivacyGuard.Pipe.Framing

/-! # Bounded buffering

What a worker keeps in its buffer, whatever its pipe delivers and however the privacy state
answers. The worker is observed together with the bytes it has read, the lines it has
removed from the buffer, and the rounds of its extraction loop.
-/

namespace PrivacyGuard

/-- A worker inside its extraction loop. -/
def Point.extracting : Point → Bool
  | .scan => true
  | .apply _ _ => true
  | _ => false

/-- A worker with a record of what went through its buffer. -/
structure Buffering where
  worker : Worker := {}
  /-- The bytes read so far. -/
  received : Bytes := []
  /-- The lines removed from the buffer, without their newlines. -/
  lines : List Bytes := []
  /-- The newlines in the buffer when the extraction loop was last entered. -/
  newlines : ℕ := 0
  /-- The times its body was entered since. -/
  rounds : ℕ := 0
  deriving DecidableEq, Repr

namespace Worker

variable {w : Worker}

theorem scanPending_of_mem (h : newline ∈ w.pending) :
    (∃ frame position, w.scanPending.point = .apply frame position) ∨
      w.scanPending.point = .fail := by
  unfold scanPending
  split
  case h_1 position _ =>
    split
    case h_1 frame _ => exact Or.inl ⟨frame, position, rfl⟩
    case h_2 => exact Or.inr rfl
  case h_2 hnone => exact absurd h (List.idxOf?_eq_none_iff.mp hnone)

theorem scanPending_of_notMem (h : newline ∉ w.pending) :
    w.scanPending.point = .fail ∨ w.scanPending.point = .loop := by
  unfold scanPending
  rw [List.idxOf?_eq_none_iff.mpr h]
  simp only
  split
  case isTrue => exact Or.inl rfl
  case isFalse => exact Or.inr rfl

end Worker

namespace Buffering

def record (b : Buffering) (input : Input) (w : Worker) : Buffering :=
  match b.worker.point, input with
  | .read, .bytes chunk =>
    { b with
      worker := w
      received := b.received ++ chunk
      newlines := w.pending.count newline
      rounds := 0 }
  | .scan, _ =>
    { b with
      worker := w
      rounds := if newline ∈ b.worker.pending then b.rounds + 1 else b.rounds }
  | .apply frame position, .reply accepted =>
    -- The line of an invalid frame stays in the buffer.
    if applyFrame frame accepted = .invalid then { b with worker := w }
    else { b with worker := w, lines := b.lines ++ [b.worker.pending.take position] }
  | _, _ => { b with worker := w }

def step (b : Buffering) (input : Input) : Option Buffering :=
  (b.worker.step input).map (b.record input)

@[simp] theorem record_worker (b : Buffering) (input : Input) (w : Worker) :
    (b.record input w).worker = w := by
  unfold record
  split
  case h_3 => split <;> rfl
  all_goals rfl

/-- Recording does not restrict the worker. -/
theorem run_worker (b : Buffering) (inputs : List Input) :
    (Transition.run step b inputs).map worker = Transition.run Worker.step b.worker inputs := by
  refine Transition.run_map (fun b input => ?_) b inputs
  rw [step, Option.map_map]
  cases b.worker.step input with
  | none => rfl
  | some w => exact congrArg some (b.record_worker input w)

/-- The bytes of the removed lines, each with its newline. -/
def extracted (b : Buffering) : Bytes := b.lines.flatMap fun line => line ++ [newline]

/-- How the rounds of the extraction loop stand to the newlines that were in the buffer when
it was entered. A round has begun before the line it found is removed. -/
def Paced (b : Buffering) : Prop :=
  match b.worker.point with
  | .scan => b.rounds + b.worker.pending.count newline = b.newlines
  | .apply _ _ => b.rounds + b.worker.pending.count newline = b.newlines + 1
  | _ => b.rounds ≤ b.newlines

structure Kept (b : Buffering) : Prop where
  placed : b.worker.Placed
  size : b.worker.pending.length ≤ maxFrameSize + pipeBufferSize
  exact : b.extracted ++ b.worker.pending = b.received
  whole : ∀ line ∈ b.lines, newline ∉ line
  paced : b.Paced

theorem kept_init : ({} : Buffering).Kept where
  placed := Worker.placed_init
  size := Nat.zero_le _
  exact := rfl
  whole := by simp
  paced := Nat.le_refl _

variable {b b' : Buffering}

theorem Kept.settled (h : b.Kept) (hp : b.worker.point.extracting = false) :
    b.rounds ≤ b.newlines := by
  have hpaced := h.paced
  unfold Paced at hpaced
  split at hpaced
  case h_1 hscan => rw [hscan] at hp; cases hp
  case h_2 happly => rw [happly] at hp; cases hp
  case h_3 => exact hpaced

theorem Kept.began (h : b.Kept) {frame : Frame} {position : ℕ}
    (hp : b.worker.point = .apply frame position) :
    newline ∉ b.worker.pending.take position ∧
      b.worker.pending.take position ++ newline :: b.worker.pending.drop (position + 1) =
        b.worker.pending ∧
      b.worker.pending.count newline =
        (b.worker.pending.drop (position + 1)).count newline + 1 := by
  have hat := h.placed.2
  rw [hp] at hat
  obtain ⟨heq, hline⟩ := Delimited.take_append_drop_of_idxOf? hat.2.1
  refine ⟨hline, heq, ?_⟩
  have hcount := congrArg (List.count newline) heq
  rw [List.count_append, List.count_eq_zero_of_not_mem hline, List.count_cons_self] at hcount
  omega

theorem Kept.moved (h : b.Kept) {w : Worker} (hplaced : w.Placed)
    (hpending : w.pending = b.worker.pending) (hle : b.rounds ≤ b.newlines)
    (hpoint : w.point.extracting = false) : Kept { b with worker := w } where
  placed := hplaced
  size := by rw [hpending]; exact h.size
  exact := by rw [hpending]; exact h.exact
  whole := h.whole
  paced := by
    unfold Paced
    simp only
    split
    case h_1 hp => rw [hp] at hpoint; cases hpoint
    case h_2 hp => rw [hp] at hpoint; cases hpoint
    case h_3 => exact hle

/-- The test of the extraction loop begins a round exactly where there is a newline. -/
theorem Kept.scanned (h : b.Kept) (hp : b.worker.point = .scan) :
    Kept { b with
      worker := b.worker.scanPending
      rounds := if newline ∈ b.worker.pending then b.rounds + 1 else b.rounds } := by
  have hpaced := h.paced
  simp only [Paced, hp] at hpaced
  have hplaced := h.placed.scanPending hp
  have hpending : b.worker.scanPending.pending = b.worker.pending := Worker.scanPending_pending
  constructor
  case placed => exact hplaced
  case size => rw [hpending]; exact h.size
  case exact => rw [hpending]; exact h.exact
  case whole => exact h.whole
  case paced =>
    simp only [Paced, hpending]
    by_cases hmem : newline ∈ b.worker.pending
    · have hpos : 0 < b.worker.pending.count newline := List.count_pos_iff.mpr hmem
      rw [if_pos hmem]
      rcases Worker.scanPending_of_mem hmem with ⟨frame, position, hpoint⟩ | hpoint
      · rw [hpoint]
        simp only
        omega
      · rw [hpoint]
        simp only
        omega
    · rw [if_neg hmem]
      rcases Worker.scanPending_of_notMem hmem with hpoint | hpoint
      · rw [hpoint]
        simp only
        omega
      · rw [hpoint]
        simp only
        omega

theorem Kept.removed (h : b.Kept) {frame : Frame} {position : ℕ}
    (hp : b.worker.point = .apply frame position) {w : Worker} (hplaced : w.Placed)
    (hpending : w.pending = b.worker.pending.drop (position + 1))
    (hpoint : w.point = .scan ∨ w.point = .loop) :
    Kept { b with worker := w, lines := b.lines ++ [b.worker.pending.take position] } := by
  have hpaced := h.paced
  simp only [Paced, hp] at hpaced
  obtain ⟨hline, heq, hcount⟩ := h.began hp
  rw [← hpending] at heq hcount
  constructor
  case placed => exact hplaced
  case size =>
    have hsize := h.size
    rw [← heq, List.length_append, List.length_cons] at hsize
    change w.pending.length ≤ _
    omega
  case exact =>
    calc
      _ = b.extracted ++ (b.worker.pending.take position ++ newline :: w.pending) := by
        simp [extracted]
      _ = b.received := by rw [heq, h.exact]
  case whole =>
    intro line hmem
    rcases List.mem_append.mp hmem with hmem | hmem
    · exact h.whole line hmem
    · exact List.mem_singleton.mp hmem ▸ hline
  case paced =>
    simp only [Paced]
    rcases hpoint with hpoint | hpoint
    · rw [hpoint]
      simp only
      omega
    · rw [hpoint]
      simp only
      omega

theorem Kept.read (h : b.Kept) (hp : b.worker.point = .read) {chunk : Bytes}
    (hlen : chunk.length ≤ pipeBufferSize) {w : Worker} (hplaced : w.Placed)
    (hpending : w.pending = b.worker.pending ++ chunk) (hpoint : w.point = .scan) :
    Kept { b with
      worker := w
      received := b.received ++ chunk
      newlines := w.pending.count newline
      rounds := 0 } := by
  have hat := h.placed.2
  rw [hp] at hat
  constructor
  case placed => exact hplaced
  case size =>
    have hdrained := hat.2.length_le
    rw [hpending, List.length_append]
    omega
  case exact => rw [hpending, ← h.exact, ← List.append_assoc]; rfl
  case whole => exact h.whole
  case paced => simp only [Paced, hpoint, Nat.zero_add]

theorem Kept.step (h : b.Kept) {input : Input} (hs : b.step input = some b') : b'.Kept := by
  obtain ⟨w, hw, rfl⟩ := Option.map_eq_some_iff.mp hs
  have hplaced := h.placed.step hw
  cases Worker.moves_of_step hw with
  | loop hp running =>
    simp only [record, hp]
    refine h.moved hplaced rfl (h.settled (by rw [hp]; rfl)) ?_
    cases running <;> cases b.worker.graceful <;> rfl
  | scan hp running =>
    simp only [record, hp]
    exact h.scanned hp
  | cleanup hp running =>
    simp only [record, hp]
    refine h.moved hplaced rfl (h.settled (by rw [hp]; rfl)) ?_
    cases running <;> cases b.worker.stateEntryActive <;> rfl
  | nothing hp =>
    simp only [record, hp]
    exact h.moved hplaced rfl (h.settled (by rw [hp]; rfl)) rfl
  | bytes hp hne hlen =>
    simp only [record, hp]
    exact h.read hp hlen hplaced rfl rfl
  | ended hp =>
    simp only [record, hp]
    exact h.moved hplaced rfl (h.settled (by rw [hp]; rfl)) rfl
  | apply hp accepted =>
    rename_i frame position
    simp only [record, hp]
    cases hresult : applyFrame frame accepted with
    | invalid =>
      rw [hresult] at hplaced
      have hpaced := h.paced
      have hcount := (h.began hp).2.2
      simp only [Paced, hp] at hpaced
      exact h.moved hplaced rfl (by omega) rfl
    | continues =>
      rw [hresult] at hplaced
      exact h.removed hp hplaced rfl (Or.inl rfl)
    | goodbye =>
      rw [hresult] at hplaced
      exact h.removed hp hplaced rfl (Or.inr rfl)
  | fail hp accepted =>
    simp only [record, hp]
    exact h.moved hplaced rfl (h.settled (by rw [hp]; rfl)) rfl
  | close hp accepted =>
    simp only [record, hp]
    exact h.moved hplaced rfl (h.settled (by rw [hp]; rfl)) rfl

theorem kept_of_inputs {inputs : List Input} (h : Transition.run step {} inputs = some b) : b.Kept :=
  Transition.run_invariant (fun _ _ _ hb hs => hb.step hs) kept_init h

/-! ### The extraction loop ends -/

def Extracting (b : Buffering) : Prop := b.worker.point.extracting = true

/-- A bound on the moves left inside the loop: two for each newline, and the last test. -/
def remaining (b : Buffering) : ℕ :=
  match b.worker.point with
  | .scan => 2 * b.worker.pending.count newline + 1
  | .apply _ _ => 2 * b.worker.pending.count newline
  | _ => 0

theorem remaining_step (h : b.Kept) (he : b.Extracting) {input : Input}
    (hs : b.step input = some b') : b'.remaining < b.remaining := by
  obtain ⟨w, hw, rfl⟩ := Option.map_eq_some_iff.mp hs
  simp only [remaining, record_worker]
  cases Worker.moves_of_step hw with
  | scan hp running =>
    rw [hp, Worker.scanPending_pending]
    by_cases hmem : newline ∈ b.worker.pending
    · rcases Worker.scanPending_of_mem hmem with ⟨frame, position, hpoint⟩ | hpoint <;>
        simp [hpoint]
    · rcases Worker.scanPending_of_notMem hmem with hpoint | hpoint <;> simp [hpoint]
  | apply hp accepted =>
    rename_i frame position
    have hcount := (h.began hp).2.2
    rw [hp]
    cases applyFrame frame accepted <;> simp only [Worker.applied] <;> omega
  | loop hp => rw [Extracting, hp] at he; cases he
  | cleanup hp => rw [Extracting, hp] at he; cases he
  | nothing hp => rw [Extracting, hp] at he; cases he
  | bytes hp => rw [Extracting, hp] at he; cases he
  | ended hp => rw [Extracting, hp] at he; cases he
  | fail hp => rw [Extracting, hp] at he; cases he
  | close hp => rw [Extracting, hp] at he; cases he

theorem exists_step (he : b.Extracting) :
    (∀ running, (b.step (.proceed running)).isSome) ∨
      ∀ accepted, (b.step (.reply accepted)).isSome := by
  unfold Extracting at he
  cases hp : b.worker.point with
  | scan => exact Or.inl fun running => by simp [step, Worker.step, hp]
  | apply frame position => exact Or.inr fun accepted => by simp [step, Worker.step, hp]
  | _ => rw [hp] at he; cases he

/-- The protection against a client that lets the buffer grow. -/
structure Bounded (b : Buffering) : Prop where
  /-- The body of the read loop is entered with an incomplete line within the limit. -/
  entered : b.worker.point = .read →
    b.worker.pending.length ≤ maxFrameSize ∧ newline ∉ b.worker.pending
  size : b.worker.pending.length ≤ maxFrameSize + pipeBufferSize
  rounds : b.rounds ≤ b.newlines
  /-- The worker is not stuck inside the loop. -/
  goesOn : b.Extracting →
    (∀ running, (b.step (.proceed running)).isSome) ∨
      ∀ accepted, (b.step (.reply accepted)).isSome
  /-- No run stays inside the loop for longer than its newlines last. -/
  ends : ∀ inputs b', Transition.run step b inputs = some b' →
    Transition.Along step (fun c _ => c.Extracting) b inputs →
      inputs.length ≤ 2 * b.worker.pending.count newline + 1
  exact : b.extracted ++ b.worker.pending = b.received
  whole : ∀ line ∈ b.lines, newline ∉ line

/-- Every worker stays within its bounds, for all reads and all answers. -/
theorem bounded_of_run {inputs : List Input} (h : Transition.run step {} inputs = some b) :
    Bounded b := by
  have hkept := kept_of_inputs h
  constructor
  case entered =>
    intro hp
    have hat := hkept.placed.2
    rw [hp] at hat
    exact ⟨hat.2.length_le, hat.2.notMem⟩
  case size => exact hkept.size
  case rounds =>
    have hpaced := hkept.paced
    cases hp : b.worker.point with
    | scan =>
      simp only [Paced, hp] at hpaced
      omega
    | apply frame position =>
      have hcount := (hkept.began hp).2.2
      simp only [Paced, hp] at hpaced
      omega
    | _ => exact hkept.settled (by rw [hp]; rfl)
  case goesOn => exact exists_step
  case ends =>
    intro inputs b' hrun halong
    have hlength : inputs.length + b'.remaining ≤ b.remaining :=
      Transition.length_le_of_along (I := Kept)
        (fun c _ c' hc he hs => ⟨hc.step hs, remaining_step hc he hs⟩) hkept halong hrun
    have hle : b.remaining ≤ 2 * b.worker.pending.count newline + 1 := by
      unfold remaining
      split <;> omega
    omega
  case exact => exact hkept.exact
  case whole => exact hkept.whole

theorem bounded_goodbye : ∃ b : Buffering,
    Transition.run step {} [.proceed true, .bytes (ascii "PG/1 GOOD"), .proceed true, .proceed true,
      .bytes (ascii "BYE" ++ newline :: ascii "PG/1"), .proceed true, .reply true] = some b ∧
        Bounded b := by
  obtain ⟨b, hb⟩ := Option.isSome_iff_exists.mp (by decide +kernel :
    (Transition.run step {} [.proceed true, .bytes (ascii "PG/1 GOOD"), .proceed true,
      .proceed true, .bytes (ascii "BYE" ++ newline :: ascii "PG/1"), .proceed true,
      .reply true]).isSome = true)
  exact ⟨b, hb, bounded_of_run hb⟩

end Buffering

end PrivacyGuard
