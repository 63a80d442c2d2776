import PrivacyGuard.Extension.Frames
import PrivacyGuard.Pipe.Framing

/-! # Delivery of whole texts

A worker whose pipe carries a list of well-formed texts works through them one by one:
whatever the reads are, every line it scans is the next text.
-/

namespace PrivacyGuard

/-- The text is the line of a frame with its newline. -/
structure Spells (text : Bytes) (frame : Frame) : Prop where
  ends : text.dropLast ++ [newline] = text
  notMem : newline ∉ text.dropLast
  parses : parseFrame text.dropLast = some frame

theorem Spells.length_le {text : Bytes} {frame : Frame} (h : Spells text frame) :
    text.dropLast.length ≤ maxFrameSize := by
  by_contra hlen
  have := h.parses
  rw [parseFrame_of_oversize (Nat.lt_of_not_le hlen)] at this
  cases this

namespace Worker

/-- The worker has yet to apply the texts, whose bytes are buffered or still unread. -/
structure Fed (texts : List Bytes) (unread : Bytes) (w : Worker) : Prop where
  spelled : ∀ text ∈ texts, ∃ frame, Spells text frame
  stream : w.pending ++ unread = texts.flatten
  applying : ∀ frame position, w.point = .apply frame position →
    ∃ text later, texts = text :: later ∧ Spells text frame ∧ text <+: w.pending ∧
      text.length = position + 1

variable {w w' : Worker} {texts later : List Bytes} {text unread : Bytes} {frame : Frame}
  {position : ℕ}

theorem Fed.congr (h : Fed texts unread w) (hpending : w'.pending = w.pending)
    (hpoint : ∀ frame position, w'.point ≠ .apply frame position) : Fed texts unread w' :=
  ⟨h.spelled, hpending ▸ h.stream, fun frame position hp => absurd hp (hpoint frame position)⟩

/-- A complete line in the buffer is the next text. -/
theorem Fed.next (h : Fed texts unread w) (hposition : w.pending.idxOf? newline = some position) :
    ∃ text later frame, texts = text :: later ∧ Spells text frame ∧ text <+: w.pending ∧
      text.length = position + 1 ∧ w.pending.take position = text.dropLast := by
  obtain ⟨line, tail, hpending, hline, hlen⟩ := Delimited.idxOf?_eq_some_iff_append.mp hposition
  have hstream := h.stream
  rw [hpending, List.append_assoc, List.cons_append] at hstream
  cases texts with
  | nil => simp at hstream
  | cons text later =>
    obtain ⟨frame, hspells⟩ := h.spelled text List.mem_cons_self
    rw [List.flatten_cons, ← hspells.ends, List.append_assoc, List.singleton_append] at hstream
    obtain ⟨hfirst, -⟩ := Delimited.append_cons_inj hline hspells.notMem hstream
    have hlength : text.length = position + 1 := by
      rw [← hspells.ends, ← hfirst, List.length_append, List.length_singleton, hlen]
    refine ⟨text, later, frame, rfl, hspells, ⟨tail, ?_⟩, hlength, ?_⟩
    · rw [← hspells.ends, ← hfirst, hpending, List.append_assoc, List.singleton_append]
    · rw [hpending, ← hlen, List.take_left, hfirst]

theorem Fed.length_pending_le (h : Fed texts unread w) (hnone : newline ∉ w.pending) :
    w.pending.length ≤ maxFrameSize := by
  cases texts with
  | nil => simp [(List.append_eq_nil_iff.mp h.stream).1]
  | cons text later =>
    obtain ⟨frame, hspells⟩ := h.spelled text List.mem_cons_self
    have hstream := h.stream
    rw [List.flatten_cons, ← hspells.ends, List.append_assoc, List.singleton_append] at hstream
    exact (Delimited.prefix_of_notMem hnone hstream).length_le.trans hspells.length_le

theorem Fed.scanPending (h : Fed texts unread w) :
    Fed texts unread w.scanPending ∧
      ((∃ frame position, w.scanPending.point = .apply frame position) ∨
        w.scanPending.point = .loop ∧ newline ∉ w.pending) := by
  unfold Worker.scanPending
  split
  case h_1 position hposition =>
    obtain ⟨text, later, frame, htexts, hspells, hprefix, hlen, htake⟩ := h.next hposition
    rw [htake, hspells.parses]
    refine ⟨⟨h.spelled, h.stream, fun frame' position' hp => ?_⟩, Or.inl ⟨frame, position, rfl⟩⟩
    obtain ⟨rfl, rfl⟩ := Point.apply.inj hp
    exact ⟨text, later, htexts, hspells, hprefix, hlen⟩
  case h_2 hnone =>
    have hnot := List.idxOf?_eq_none_iff.mp hnone
    rw [if_neg (by simp [h.length_pending_le hnot])]
    exact ⟨h.congr rfl (by simp), Or.inr ⟨rfl, hnot⟩⟩

theorem Fed.read {chunk : Bytes} (h : Fed texts (chunk ++ unread) w) :
    Fed texts unread { w with pending := w.pending ++ chunk, point := .scan } :=
  ⟨h.spelled, by rw [List.append_assoc, h.stream], by simp⟩

/-- An applied text leaves the buffer. -/
theorem Fed.applied (h : Fed texts unread w) (hpoint : w.point = .apply frame position)
    {result : FrameResult} (hresult : result ≠ .invalid) :
    ∃ text later, texts = text :: later ∧ Spells text frame ∧
      Fed later unread (w.applied position result) := by
  obtain ⟨text, later, rfl, hspells, ⟨tail, htail⟩, hlen⟩ := h.applying frame position hpoint
  have hstream := h.stream
  rw [← htail, List.flatten_cons, List.append_assoc] at hstream
  have hdrop : w.pending.drop (position + 1) = tail := by rw [← htail, List.drop_left' hlen]
  refine ⟨text, later, rfl, hspells, fun t ht => h.spelled t (List.mem_cons_of_mem _ ht), ?_, ?_⟩
  · have hpending : (w.applied position result).pending = tail := by
      cases result <;> simp_all [Worker.applied]
    rw [hpending, List.append_cancel_left hstream]
  · intro frame' position' hp
    cases result <;> simp [Worker.applied] at hp hresult

/-- Moves that neither read nor apply a frame leave the texts where they are. -/
theorem Fed.step (h : Fed texts unread w) {input : Input} (hs : w.step input = some w')
    (hbytes : ∀ chunk, input ≠ .bytes chunk)
    (hreply : ∀ accepted, input = .reply accepted → ∀ frame position,
      w.point = .apply frame position → applyFrame frame accepted = .invalid) :
    Fed texts unread w' := by
  cases moves_of_step hs with
  | loop hp running => exact h.congr rfl fun _ _ => by simp only; split <;> simp
  | scan hp running => exact h.scanPending.1
  | cleanup hp running => exact h.congr rfl fun _ _ => by simp only; split <;> simp
  | nothing hp => exact h.congr rfl (by simp)
  | bytes hp => exact absurd rfl (hbytes _)
  | ended hp => exact h.congr rfl (by simp)
  | apply hp accepted =>
    rw [hreply accepted rfl _ _ hp]
    exact h.congr rfl (by simp [Worker.applied])
  | fail hp accepted => exact h.congr rfl (by simp)
  | close hp accepted => exact h.congr rfl (by simp)

theorem Fed.append (h : Fed texts unread w) {more : List Bytes}
    (hmore : ∀ text ∈ more, ∃ frame, Spells text frame) :
    Fed (texts ++ more) (unread ++ more.flatten) w where
  spelled := List.forall_mem_append.mpr ⟨h.spelled, hmore⟩
  stream := by rw [← List.append_assoc, h.stream, List.flatten_append]
  applying frame position hp := by
    obtain ⟨text, later, rfl, hspells, hprefix, hlen⟩ := h.applying frame position hp
    exact ⟨text, later ++ more, rfl, hspells, hprefix, hlen⟩

theorem Fed.eq_nil (h : Fed texts [] w) (hnone : newline ∉ w.pending) : texts = [] := by
  cases texts with
  | nil => rfl
  | cons text later =>
    obtain ⟨frame, hspells⟩ := h.spelled text List.mem_cons_self
    have hstream := h.stream
    rw [List.append_nil, List.flatten_cons, ← hspells.ends] at hstream
    exact absurd (hstream ▸ by simp) hnone

end Worker

theorem Message.spells {clientId : Bytes} {m : Message} (hu : Uuid clientId) (hm : m.Fits) :
    Spells (m.text clientId) (m.frame clientId) where
  ends := (m.text_eq clientId).symm
  notMem := m.newline_notMem_line hu hm
  parses := m.parseFrame_line hu hm

end PrivacyGuard
