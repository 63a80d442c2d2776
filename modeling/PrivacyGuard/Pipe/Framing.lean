import PrivacyGuard.Foundations.Delimited
import PrivacyGuard.Foundations.Transition
import PrivacyGuard.Pipe.Worker

/-! # Framing

The calls of a worker depend on the bytes of its stream only, not on the reads that
deliver them. The batch reference cuts the whole stream at its newlines first; every
step of a worker keeps what the reference says about the bytes still to be handled.
-/

namespace PrivacyGuard

/-- The buffer between two rounds of the read loop: an incomplete line within the limit. -/
structure Drained (pending : Bytes) : Prop where
  notMem : newline ∉ pending
  length_le : pending.length ≤ maxFrameSize

namespace Worker

/-- What the locals satisfy at each program point. -/
def Placed (w : Worker) : Prop :=
  w.stateEntryActive = !w.graceful ∧
    match w.point with
    | .loop => w.graceful = false → Drained w.pending
    | .read => w.graceful = false ∧ Drained w.pending
    | .scan => w.graceful = false
    | .apply frame position =>
      w.graceful = false ∧ w.pending.idxOf? newline = some position ∧
        parseFrame (w.pending.take position) = some frame
    | .cleanup => w.graceful = false → Drained w.pending
    | _ => True

theorem placed_init : ({} : Worker).Placed :=
  ⟨rfl, fun _ => ⟨List.not_mem_nil, Nat.zero_le _⟩⟩

variable {w w' : Worker}

theorem scanPending_pending : w.scanPending.pending = w.pending := by
  unfold scanPending
  split <;> split <;> rfl

theorem Placed.scanPending (h : w.Placed) (hpoint : w.point = .scan) : w.scanPending.Placed := by
  obtain ⟨hactive, hgraceful⟩ := h
  rw [hpoint] at hgraceful
  unfold Worker.scanPending
  split
  case h_1 position hposition =>
    split
    case h_1 frame hframe => exact ⟨hactive, hgraceful, hposition, hframe⟩
    case h_2 => exact ⟨hactive, trivial⟩
  case h_2 hnone =>
    split
    case isTrue => exact ⟨hactive, trivial⟩
    case isFalse hsize =>
      refine ⟨hactive, fun _ => ⟨List.idxOf?_eq_none_iff.mp hnone, ?_⟩⟩
      simpa [hgraceful] using hsize

theorem Placed.applied (h : w.Placed) {frame : Frame} {position : ℕ}
    (hpoint : w.point = .apply frame position) (result : FrameResult) :
    (w.applied position result).Placed := by
  obtain ⟨hactive, hgraceful⟩ := h
  rw [hpoint] at hgraceful
  cases result with
  | invalid => exact ⟨hactive, trivial⟩
  | continues => exact ⟨hactive, hgraceful.1⟩
  | goodbye => exact ⟨rfl, by simp [Worker.applied]⟩

theorem Placed.step (h : w.Placed) {input : Input} (hs : w.step input = some w') :
    w'.Placed := by
  have hat := h.2
  cases moves_of_step hs with
  | loop hp running =>
    rw [hp] at hat
    refine ⟨h.1, ?_⟩
    cases hg : w.graceful with
    | true => simp
    | false => cases running <;> simp [hat hg]
  | scan hp running => exact h.scanPending hp
  | cleanup hp running =>
    refine ⟨h.1, ?_⟩
    cases w.stateEntryActive <;> cases running <;> trivial
  | nothing hp =>
    rw [hp] at hat
    exact ⟨h.1, fun _ => hat.2⟩
  | bytes hp hne hlen =>
    rw [hp] at hat
    exact ⟨h.1, hat.1⟩
  | ended hp =>
    rw [hp] at hat
    exact ⟨h.1, fun _ => hat.2⟩
  | apply hp accepted => exact h.applied hp _
  | fail hp accepted => exact ⟨rfl, by simp⟩
  | close hp accepted => exact ⟨h.1, trivial⟩

end Worker

/-! ### The batch reference -/

/-- Handle the complete lines of a stream in order, then its unterminated tail; the calls
so far are newest first. -/
def applyLines (accepts : List Call → Bool) (tail : Bytes) (calls : List Call) :
    List Bytes → List Call
  | [] => (if maxFrameSize < tail.length then .protocolError else .connectionClosed) :: calls
  | line :: lines =>
    match parseFrame line with
    | none => .protocolError :: calls
    | some frame =>
      let calls := frame.call :: calls
      if !accepts calls then .protocolError :: calls
      else if frame.kind = .goodbye then calls
      else applyLines accepts tail calls lines

def stops (accepts : List Call → Bool) (calls : List Call) : List Bytes → Bool
  | [] => false
  | line :: lines =>
    match parseFrame line with
    | none => true
    | some frame =>
      !accepts (frame.call :: calls) || decide (frame.kind = .goodbye) ||
        stops accepts (frame.call :: calls) lines

def batchFrom (accepts : List Call → Bool) (calls : List Call) (stream : Bytes) : List Call :=
  applyLines accepts (Delimited.remainder newline stream) calls (Delimited.complete newline stream)

def batch (accepts : List Call → Bool) (stream : Bytes) : List Call :=
  (batchFrom accepts [] stream).reverse

section Batch

variable {accepts : List Call → Bool} {calls : List Call} {line rest stream : Bytes}

theorem batchFrom_of_notMem (h : newline ∉ stream) :
    batchFrom accepts calls stream =
      (if maxFrameSize < stream.length then .protocolError else .connectionClosed) :: calls := by
  rw [batchFrom, Delimited.complete_of_notMem h, Delimited.remainder_of_notMem h, applyLines]

theorem batchFrom_of_invalid (h : newline ∉ line) (hp : parseFrame line = none) :
    batchFrom accepts calls (line ++ newline :: rest) = .protocolError :: calls := by
  simp only [batchFrom, Delimited.complete_append_cons h, applyLines, hp]

theorem batchFrom_of_frame (h : newline ∉ line) {frame : Frame}
    (hp : parseFrame line = some frame) :
    batchFrom accepts calls (line ++ newline :: rest) =
      if !accepts (frame.call :: calls) then .protocolError :: frame.call :: calls
      else if frame.kind = .goodbye then frame.call :: calls
      else batchFrom accepts (frame.call :: calls) rest := by
  simp only [batchFrom, Delimited.complete_append_cons h, Delimited.remainder_append_cons h,
    applyLines, hp]

theorem parseFrame_of_oversize (h : maxFrameSize < line.length) : parseFrame line = none := by
  rw [parseFrame, if_pos (Or.inr (Or.inl h))]

/-- A line that is too long fails, whether or not its newline has arrived. -/
theorem batchFrom_of_oversize (h : newline ∉ line) (hlen : maxFrameSize < line.length) :
    batchFrom accepts calls (line ++ rest) = .protocolError :: calls := by
  by_cases hrest : newline ∈ rest
  · obtain ⟨front, tail, rfl, hfront⟩ := List.eq_append_cons_of_mem hrest
    rw [← List.append_assoc]
    refine batchFrom_of_invalid ?_ (parseFrame_of_oversize ?_)
    · simpa [List.mem_append] using ⟨h, hfront⟩
    · rw [List.length_append]
      omega
  · rw [batchFrom_of_notMem (by simpa [List.mem_append] using ⟨h, hrest⟩),
      if_pos (by rw [List.length_append]; omega)]

/-- Nothing after the line that stops the worker matters. -/
theorem applyLines_of_stops {tail tail' : Bytes} {lines more : List Bytes}
    (h : stops accepts calls lines = true) :
    applyLines accepts tail calls (lines ++ more) = applyLines accepts tail' calls lines := by
  induction lines generalizing calls with
  | nil => simp [stops] at h
  | cons line lines ih =>
    simp only [List.cons_append, applyLines]
    cases hp : parseFrame line with
    | none => rfl
    | some frame =>
      simp only [stops, hp, Bool.or_eq_true, decide_eq_true_eq] at h
      simp only
      split
      case isTrue => rfl
      case isFalse haccepts =>
        split
        case isTrue => rfl
        case isFalse hkind =>
          exact ih (h.resolve_left (by simp [hkind] at haccepts ⊢; exact haccepts))

theorem batch_of_stops (h : stops accepts [] (Delimited.complete newline stream) = true) :
    batch accepts (stream ++ rest) = batch accepts stream := by
  rw [batch, batchFrom, Delimited.complete_append, applyLines_of_stops h, batch, batchFrom]

end Batch

/-! ### A session makes the calls of the reference -/

namespace Session

structure Proper (s : Session) : Prop where
  placed : s.worker.Placed
  reads : ∀ chunk ∈ s.reads, chunk ≠ [] ∧ chunk.length ≤ pipeBufferSize

def rest (s : Session) : Bytes := s.worker.pending ++ s.reads.flatten

/-- The calls the reference makes from here on, after those already made. -/
def meaning (accepts : List Call → Bool) (s : Session) : List Call :=
  match s.worker.point with
  | .loop => if s.worker.graceful then s.calls else batchFrom accepts s.calls s.rest
  | .read => batchFrom accepts s.calls s.rest
  | .scan => batchFrom accepts s.calls s.rest
  | .apply _ _ => batchFrom accepts s.calls s.rest
  | .fail => .protocolError :: s.calls
  | .cleanup => if s.worker.graceful then s.calls else .connectionClosed :: s.calls
  | .close => .connectionClosed :: s.calls
  | .returned => s.calls

def pointRank : Point → ℕ
  | .scan => 7
  | .apply _ _ => 6
  | .fail => 5
  | .loop => 4
  | .read => 3
  | .cleanup => 2
  | .close => 1
  | .returned => 0

/-- A bound on the steps to come: five for each byte and each read, and the way to the end. -/
def rank (s : Session) : ℕ :=
  5 * (s.rest.length + s.reads.length) + pointRank s.worker.point

variable {accepts : List Call → Bool} {s : Session}

theorem placed_advance (h : s.worker.Placed) (input : Input) : (s.advance input).worker.Placed := by
  unfold advance
  cases hs : s.worker.step input with
  | none => exact h
  | some w => exact h.step hs

theorem Proper.step (h : s.Proper) : (s.step accepts).Proper := by
  unfold Session.step
  split
  case h_1 call _ => exact ⟨placed_advance (s := { s with calls := _ }) h.placed _, h.reads⟩
  case h_2 =>
    split
    case h_1 chunk reads _ hreads =>
      refine ⟨placed_advance (s := { s with reads }) h.placed _, fun c hc => h.reads c ?_⟩
      exact hreads ▸ List.mem_cons_of_mem _ hc
    case h_2 => exact ⟨placed_advance h.placed _, h.reads⟩
    case h_3 => exact ⟨placed_advance h.placed _, h.reads⟩

theorem meaning_read_nil {w : Worker} (hp : w.point = .read) (hg : w.graceful = false)
    (hd : Drained w.pending) {calls : List Call} :
    meaning accepts (Session.step accepts ⟨w, [], calls⟩) = meaning accepts ⟨w, [], calls⟩ := by
  simp only [Session.step, Worker.call, advance, Worker.step, meaning, rest, hp, hg]
  simp only [List.flatten_nil, List.append_nil, if_true, Option.getD_some]
  rw [batchFrom_of_notMem hd.notMem, if_neg (Nat.not_lt.mpr hd.length_le)]
  rfl

theorem meaning_read_cons {w : Worker} (hp : w.point = .read) {chunk : Bytes}
    (hne : chunk ≠ []) (hlen : chunk.length ≤ pipeBufferSize) {reads : List Bytes}
    {calls : List Call} :
    meaning accepts (Session.step accepts ⟨w, chunk :: reads, calls⟩) =
      meaning accepts ⟨w, chunk :: reads, calls⟩ := by
  have hstep : w.step (.bytes chunk) =
      some { w with pending := w.pending ++ chunk, point := .scan } :=
    if_pos ⟨hp, hne, hlen⟩
  simp only [Session.step, Worker.call, advance, hstep, meaning, rest, hp, Option.getD_some]
  rw [List.append_assoc, List.flatten_cons]

theorem meaning_scan {w : Worker} (hp : w.point = .scan) (hg : w.graceful = false)
    {reads : List Bytes} {calls : List Call} :
    meaning accepts (Session.step accepts ⟨w, reads, calls⟩) =
      meaning accepts ⟨w, reads, calls⟩ := by
  simp only [Session.step, Worker.call, advance, Worker.step, hp, Option.getD_some]
  unfold Worker.scanPending
  split
  case h_1 position hposition =>
    obtain ⟨hcut, hline⟩ := Delimited.take_append_drop_of_idxOf? hposition
    split
    case h_1 frame _ => simp only [meaning, rest, hp]
    case h_2 hinvalid =>
      have hbatch : batchFrom accepts calls (w.pending ++ reads.flatten) =
          .protocolError :: calls := by
        rw [← hcut, List.append_assoc, List.cons_append]
        exact batchFrom_of_invalid hline hinvalid
      simp only [meaning, rest, hp, hbatch]
  case h_2 hnone =>
    have hnot := List.idxOf?_eq_none_iff.mp hnone
    simp only [hg, Bool.not_false, Bool.true_and, decide_eq_true_eq]
    split
    case isTrue hsize => simp only [meaning, rest, hp, batchFrom_of_oversize hnot hsize]
    case isFalse => simp [meaning, rest, hp]

theorem meaning_apply {w : Worker} {frame : Frame} {position : ℕ}
    (hp : w.point = .apply frame position)
    (hposition : w.pending.idxOf? newline = some position)
    (hframe : parseFrame (w.pending.take position) = some frame) {reads : List Bytes}
    {calls : List Call} :
    meaning accepts (Session.step accepts ⟨w, reads, calls⟩) =
      meaning accepts ⟨w, reads, calls⟩ := by
  obtain ⟨hcut, hline⟩ := Delimited.take_append_drop_of_idxOf? hposition
  have hrest : w.pending ++ reads.flatten = w.pending.take position ++
      newline :: (w.pending.drop (position + 1) ++ reads.flatten) := by
    rw [← List.cons_append, ← List.append_assoc, hcut]
  have hbefore : meaning accepts ⟨w, reads, calls⟩ =
      if !accepts (frame.call :: calls) then .protocolError :: frame.call :: calls
      else if frame.kind = .goodbye then frame.call :: calls
      else batchFrom accepts (frame.call :: calls)
        (w.pending.drop (position + 1) ++ reads.flatten) := by
    simp only [meaning, rest, hp]
    rw [hrest]
    exact batchFrom_of_frame hline hframe
  rw [hbefore]
  simp only [Session.step, Worker.call, advance, Worker.step, hp, Option.getD_some]
  cases hacc : accepts (frame.call :: calls) <;> cases hkind : frame.kind <;>
    simp [applyFrame, Worker.applied, hkind, meaning, rest]

theorem meaning_step (h : s.Proper) : meaning accepts (s.step accepts) = meaning accepts s := by
  obtain ⟨hactive, hat⟩ := h.placed
  obtain ⟨w, reads, calls⟩ := s
  simp only at hactive hat
  cases hp : w.point with
  | read =>
    rw [hp] at hat
    cases reads with
    | nil => exact meaning_read_nil hp hat.1 hat.2
    | cons chunk reads =>
      obtain ⟨hne, hlen⟩ := h.reads chunk List.mem_cons_self
      exact meaning_read_cons hp hne hlen
  | scan =>
    rw [hp] at hat
    exact meaning_scan hp hat
  | apply frame position =>
    rw [hp] at hat
    exact meaning_apply hp hat.2.1 hat.2.2
  | loop =>
    simp only [Session.step, Worker.call, advance, Worker.step, meaning, hp, Option.getD_some]
    cases w.graceful <;> simp [rest]
  | cleanup =>
    simp only [Session.step, Worker.call, advance, Worker.step, meaning, hp, Option.getD_some]
    cases hg : w.graceful <;> simp [hactive, hg]
  | fail =>
    simp [Session.step, Worker.call, advance, Worker.step, meaning, hp]
  | close =>
    simp [Session.step, Worker.call, advance, Worker.step, meaning, hp]
  | returned =>
    simp [Session.step, Worker.call, advance, Worker.step, meaning, hp]

theorem rank_step (h : s.Proper) (hp : s.worker.point ≠ .returned) :
    rank (s.step accepts) < rank s := by
  obtain ⟨-, hat⟩ := h.placed
  obtain ⟨w, reads, calls⟩ := s
  simp only at hat hp
  cases hpoint : w.point with
  | read =>
    cases reads with
    | nil => simp [Session.step, Worker.call, advance, Worker.step, hpoint, rank, rest, pointRank]
    | cons chunk reads =>
      have hchunk := h.reads chunk List.mem_cons_self
      simp [Session.step, Worker.call, advance, Worker.step, hpoint, hchunk, rank, rest, pointRank]
      omega
  | scan =>
    have hlt : pointRank w.scanPending.point < 7 := by
      unfold Worker.scanPending
      split <;> split <;> simp [pointRank]
    simp [Session.step, Worker.call, advance, Worker.step, hpoint, rank, rest,
      Worker.scanPending_pending]
    simpa [pointRank] using hlt
  | apply frame position =>
    rw [hpoint] at hat
    obtain ⟨line, tail, hpending, -, rfl⟩ := Delimited.idxOf?_eq_some_iff_append.mp hat.2.1
    have hlen : line.length + 1 ≤ w.pending.length := by
      rw [hpending]
      simp
    simp only [Session.step, Worker.call, advance, Worker.step, hpoint, Option.getD_some, rank,
      rest]
    cases applyFrame frame (accepts (frame.call :: calls)) <;>
      simp [Worker.applied, pointRank] <;> omega
  | loop =>
    simp only [Session.step, Worker.call, advance, Worker.step, hpoint, Option.getD_some, rank,
      rest]
    cases w.graceful <;> simp [pointRank]
  | cleanup =>
    simp only [Session.step, Worker.call, advance, Worker.step, hpoint, Option.getD_some, rank,
      rest]
    cases w.stateEntryActive <;> simp [pointRank]
  | fail =>
    simp [Session.step, Worker.call, advance, Worker.step, hpoint, rank, rest, pointRank]
  | close =>
    simp [Session.step, Worker.call, advance, Worker.step, hpoint, rank, rest, pointRank]
  | returned => exact absurd hpoint hp

theorem converges (accepts : List Call → Bool) :
    Transition.Converges (Session.step accepts) (fun s => s.worker.point = .returned) Proper rank
      (meaning accepts) where
  inv _ h := h.step
  kept _ h := meaning_step h
  falls _ h hp := rank_step h hp
  rests s hp := by
    simp [Session.step, Worker.call, advance, Worker.step, hp]

end Session

/-- The worker returns after making exactly these calls. -/
def Makes (accepts : List Call → Bool) (reads : List Bytes) (calls : List Call) : Prop :=
  ∃ n, ∀ m, n ≤ m →
    ((Session.step accepts)^[m] { reads }).worker.point = .returned ∧
      ((Session.step accepts)^[m] { reads }).calls.reverse = calls

def ValidReads (reads : List Bytes) : Prop :=
  ∀ chunk ∈ reads, chunk ≠ [] ∧ chunk.length ≤ pipeBufferSize

theorem makes_batch (accepts : List Call → Bool) {reads : List Bytes} (h : ValidReads reads) :
    Makes accepts reads (batch accepts reads.flatten) := by
  obtain ⟨n, hn⟩ := (Session.converges accepts).eventually (s := { reads })
    ⟨Worker.placed_init, h⟩
  refine ⟨n, fun m hm => ?_⟩
  obtain ⟨hreturned, -, hmeaning⟩ := hn m hm
  refine ⟨hreturned, ?_⟩
  simp only [Session.meaning, hreturned] at hmeaning
  rw [hmeaning]
  rfl

theorem Makes.eq {accepts : List Call → Bool} {reads : List Bytes} {calls calls' : List Call}
    (h : Makes accepts reads calls) (h' : Makes accepts reads calls') : calls = calls' := by
  obtain ⟨n, hn⟩ := h
  obtain ⟨n', hn'⟩ := h'
  exact (hn (max n n') (le_max_left _ _)).2.symm.trans (hn' _ (le_max_right _ _)).2

/-- The calls of a worker are those of the batch reference. Reads that carry the same stream
give the same calls, and nothing that is read after the worker has stopped matters. -/
theorem processConnection_makes_batch (accepts : List Call → Bool) (reads : List Bytes)
    (h : ValidReads reads) :
    Makes accepts reads (batch accepts reads.flatten) ∧
      (∀ reads', ValidReads reads' → reads'.flatten = reads.flatten →
        ∀ calls, Makes accepts reads' calls ↔ Makes accepts reads calls) ∧
      (stops accepts [] (Delimited.complete newline reads.flatten) = true →
        ∀ more, ValidReads more → Makes accepts (reads ++ more) (batch accepts reads.flatten)) := by
  have hmakes := makes_batch accepts h
  refine ⟨hmakes, fun reads' h' heq calls => ?_, fun hstops more hmore => ?_⟩
  · have hmakes' := makes_batch accepts h'
    rw [heq] at hmakes'
    exact ⟨fun hc => hc.eq hmakes' ▸ hmakes, fun hc => hc.eq hmakes ▸ hmakes'⟩
  · have hall := makes_batch accepts (List.forall_mem_append.mpr ⟨h, hmore⟩)
    rwa [List.flatten_append, batch_of_stops hstops] at hall

theorem makes_goodbye : Makes (fun _ => true)
    [ascii "PG/1 GOOD", ascii "BYE" ++ [newline]] [.goodbyeReceived] := by
  have hbatch : batch (fun _ => true) (ascii "PG/1 GOODBYE" ++ [newline]) =
      [.goodbyeReceived] := by decide +kernel
  exact hbatch ▸ (processConnection_makes_batch (fun _ => true)
    [ascii "PG/1 GOOD", ascii "BYE" ++ [newline]] (by unfold ValidReads; decide)).1

end PrivacyGuard
