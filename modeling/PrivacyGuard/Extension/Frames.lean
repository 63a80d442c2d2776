import PrivacyGuard.Protocol.Grammar

/-! # Frames of the extension

The frame builders of the extension, as the bytes they put on the pipe, and the
frames that the plugin parses back from them.
-/

namespace PrivacyGuard

inductive PrivacyStatus
  | safe
  | sensitive
  deriving DecidableEq, Repr

def PrivacyStatus.text : PrivacyStatus → Bytes
  | .safe => ascii "safe"
  | .sensitive => ascii "sensitive"

/-- `toUpperCase` on ASCII text. -/
def toUpperCase (text : Bytes) : Bytes :=
  text.map fun c => if 97 ≤ c ∧ c ≤ 122 then c - 32 else c

def helloFrame (clientId : Bytes) : Bytes := ascii "PG/1 HELLO " ++ clientId ++ [newline]

/-- Sequences are printed as plain decimal integers. -/
def stateFrame (sequence : ℕ) (status : PrivacyStatus) : Bytes :=
  ascii "PG/1 STATE " ++ Decimal.numeral sequence ++ ascii " " ++ toUpperCase status.text ++
    [newline]

def goodbyeFrame : Bytes := ascii "PG/1 GOODBYE" ++ [newline]

inductive Message
  | hello
  | state (sequence : ℕ) (status : PrivacyStatus)
  | goodbye
  deriving DecidableEq, Repr

namespace Message

def text (clientId : Bytes) : Message → Bytes
  | .hello => helloFrame clientId
  | .state sequence status => stateFrame sequence status
  | .goodbye => goodbyeFrame

def frame (clientId : Bytes) : Message → Frame
  | .hello => { kind := .hello, clientId }
  | .state sequence status =>
    { kind := .state, sequence := .ofNat sequence, sensitive := decide (status = .sensitive) }
  | .goodbye => { kind := .goodbye }

/-- Sequences of 64 bits. -/
def Fits : Message → Prop
  | .state sequence _ => sequence < wordSize
  | _ => True

def line (clientId : Bytes) (m : Message) : Bytes := (m.text clientId).dropLast

variable {clientId : Bytes} {m : Message}

theorem text_eq (clientId : Bytes) (m : Message) :
    m.text clientId = m.line clientId ++ [newline] := by
  cases m <;> simp [line, text, helloFrame, stateFrame, goodbyeFrame]

theorem numeral_numeral (n : ℕ) : Numeral (Decimal.numeral n) n where
  nonempty := Decimal.numeral_ne_nil n
  decimal c hc := (mem_decimal_iff c).mpr (Decimal.isDigit_of_mem_numeral hc)
  value := (Decimal.value_eq_ofDigits _).symm.trans (Decimal.value_numeral n)

theorem grammar_line (hu : Uuid clientId) (hm : m.Fits) :
    Grammar (m.line clientId) (m.frame clientId) := by
  cases m with
  | hello =>
    simp only [line, text, helloFrame, List.dropLast_concat]
    exact .hello hu
  | state sequence status =>
    have hn : Numeral (Decimal.numeral sequence) (UInt64.ofNat sequence).toNat := by
      rw [UInt64.toNat_ofNat_of_lt' hm]
      exact numeral_numeral sequence
    simp only [line, text, stateFrame, List.dropLast_concat]
    rw [List.append_assoc]
    cases status with
    | safe => exact Grammar.safe hn
    | sensitive => exact Grammar.sensitive hn
  | goodbye =>
    simp only [line, text, goodbyeFrame, List.dropLast_concat]
    exact .goodbye

theorem newline_notMem_line (hu : Uuid clientId) (hm : m.Fits) : newline ∉ m.line clientId :=
  fun h => absurd ((grammar_line hu hm).space_le _ h) (by decide)

theorem length_line_le (hu : Uuid clientId) (hm : m.Fits) :
    (m.line clientId).length ≤ maxFrameSize := by
  cases m with
  | hello =>
    have hlen : clientId.length = 36 := by
      obtain ⟨ha, hb, hc, hd, he⟩ := hu
      simp [ha.length, hb.length, hc.length, hd.length, he.length]
    have hprefix : (ascii "PG/1 HELLO ").length = 11 := rfl
    simp only [line, text, helloFrame, List.dropLast_concat, List.length_append]
    unfold maxFrameSize
    omega
  | state sequence status =>
    have hlen : (Decimal.numeral sequence).length ≤ 20 :=
      Decimal.length_numeral_le (by norm_num) (lt_of_lt_of_le hm (by norm_num [wordSize]))
    have hstatus : (toUpperCase status.text).length ≤ 9 := by cases status <;> decide
    have hprefix : (ascii "PG/1 STATE ").length = 11 := rfl
    have hspace : (ascii " ").length = 1 := rfl
    simp only [line, text, stateFrame, List.dropLast_concat, List.length_append]
    unfold maxFrameSize
    omega
  | goodbye =>
    simp only [line, text, goodbyeFrame, List.dropLast_concat]
    decide

theorem parseFrame_line (hu : Uuid clientId) (hm : m.Fits) :
    parseFrame (m.line clientId) = some (m.frame clientId) :=
  parseFrame_eq_some_iff.mpr ⟨length_line_le hu hm, grammar_line hu hm⟩

end Message

/-! ### Round trip -/

/-- A frame built by the extension, with the arguments of its builder. -/
inductive Built
  | helloFrame (clientId : Bytes)
  | stateFrame (sequence : ℕ) (status : PrivacyStatus)
  | goodbyeFrame
  deriving DecidableEq, Repr

namespace Built

def text : Built → Bytes
  | .helloFrame clientId => PrivacyGuard.helloFrame clientId
  | .stateFrame sequence status => PrivacyGuard.stateFrame sequence status
  | .goodbyeFrame => PrivacyGuard.goodbyeFrame

def frame : Built → Frame
  | .helloFrame clientId => { kind := .hello, clientId }
  | .stateFrame sequence status =>
    { kind := .state, sequence := .ofNat sequence, sensitive := decide (status = .sensitive) }
  | .goodbyeFrame => { kind := .goodbye }

/-- Canonical identities, and sequences that are safe integers. -/
def Valid : Built → Prop
  | .helloFrame clientId => Uuid clientId
  | .stateFrame sequence _ => sequence < 2 ^ 53
  | .goodbyeFrame => True

def zeroUuid : Bytes := ascii "00000000-0000-0000-0000-000000000000"

theorem uuid_zeroUuid : Uuid zeroUuid := isUuid_iff.mp (by decide)

/-- A built frame is one line without newlines that the plugin reads back. -/
theorem exists_line {b : Built} (hb : b.Valid) :
    ∃ line, b.text = line ++ [newline] ∧ newline ∉ line ∧ parseFrame line = some b.frame := by
  cases b with
  | helloFrame clientId =>
    have hm : Message.hello.Fits := trivial
    exact ⟨_, Message.text_eq clientId .hello, Message.newline_notMem_line hb hm,
      Message.parseFrame_line hb hm⟩
  | stateFrame sequence status =>
    -- Only a HELLO carries an identity, so any identity will do.
    have hm : (Message.state sequence status).Fits := lt_trans hb (by norm_num [wordSize])
    exact ⟨_, Message.text_eq zeroUuid (.state sequence status),
      Message.newline_notMem_line uuid_zeroUuid hm, Message.parseFrame_line uuid_zeroUuid hm⟩
  | goodbyeFrame =>
    have hm : Message.goodbye.Fits := trivial
    exact ⟨_, Message.text_eq zeroUuid .goodbye, Message.newline_notMem_line uuid_zeroUuid hm,
      Message.parseFrame_line uuid_zeroUuid hm⟩

/-- Cutting a stream of built frames at the newlines and parsing every line gives the frames
back, and leaves nothing over. -/
theorem parseFrame_stream {bs : List Built} (hbs : ∀ b ∈ bs, b.Valid) :
    (Delimited.complete newline (bs.flatMap text)).map parseFrame = bs.map (some ∘ frame) ∧
      Delimited.remainder newline (bs.flatMap text) = [] := by
  induction bs with
  | nil =>
    have hnil : newline ∉ ([] : Bytes) := List.not_mem_nil
    exact ⟨by rw [List.flatMap_nil, Delimited.complete_of_notMem hnil]; rfl,
      Delimited.remainder_of_notMem hnil⟩
  | cons b bs ih =>
    obtain ⟨hb, hbs⟩ := List.forall_mem_cons.mp hbs
    obtain ⟨hlines, hrest⟩ := ih hbs
    obtain ⟨line, htext, hline, hparse⟩ := exists_line hb
    have hstream : (b :: bs).flatMap text = line ++ newline :: bs.flatMap text := by
      rw [List.flatMap_cons, htext, List.append_assoc, List.singleton_append]
    rw [hstream, Delimited.complete_append_cons hline, Delimited.remainder_append_cons hline,
      List.map_cons, List.map_cons, hparse, hlines]
    exact ⟨rfl, hrest⟩

theorem parseFrame_stream_session :
    (Delimited.complete newline ([.helloFrame zeroUuid, .stateFrame 0 .sensitive,
        .stateFrame (2 ^ 53 - 1) .safe, .goodbyeFrame].flatMap text)).map parseFrame =
      [.helloFrame zeroUuid, .stateFrame 0 .sensitive, .stateFrame (2 ^ 53 - 1) .safe,
        .goodbyeFrame].map (some ∘ frame) := by
  have hall : ∀ b ∈ [helloFrame zeroUuid, .stateFrame 0 .sensitive,
      .stateFrame (2 ^ 53 - 1) .safe, .goodbyeFrame], b.Valid := by
    simp only [List.forall_mem_cons]
    refine ⟨uuid_zeroUuid, ?_, ?_, trivial, by simp⟩
    · change 0 < 2 ^ 53
      norm_num
    · change 2 ^ 53 - 1 < 2 ^ 53
      norm_num
  exact (parseFrame_stream hall).1

end Built

end PrivacyGuard
