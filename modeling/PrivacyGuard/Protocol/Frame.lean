import PrivacyGuard.State.Basic
import PrivacyGuard.Foundations.Decimal

/-! # The frame parser

`parseFrame` turns one line of the transport, without its newline, into a frame.
Lines are byte strings; character constants are their ASCII codes.
-/

namespace PrivacyGuard

def ascii (text : String) : Bytes := text.toList.map fun c => UInt8.ofNat c.toNat

def newline : UInt8 := 10
def carriageReturn : UInt8 := 13
def space : UInt8 := 32
def dash : UInt8 := 45

/-- Hard limit prevents an untrusted local client from growing buffers forever. -/
def maxFrameSize : ℕ := 1024

inductive FrameKind
  | hello
  | state
  | goodbye
  deriving DecidableEq, Repr

/-- Parsed representation shared by the transport and the privacy state. -/
structure Frame where
  kind : FrameKind
  clientId : Bytes := []
  sequence : UInt64 := 0
  sensitive : Bool := false
  deriving DecidableEq, Repr

def splitTokensLoop (tokens : List Bytes) (rest : Bytes) : List Bytes :=
  if _ : rest = [] then tokens
  else
    match rest.idxOf? space with
    | none => tokens ++ [rest]
    | some 0 => []
    | some (length + 1) =>
      splitTokensLoop (tokens ++ [rest.take (length + 1)]) (rest.drop (length + 2))
termination_by rest.length
decreasing_by
  have := List.length_pos_iff.mpr ‹¬rest = []›
  simp only [List.length_drop]
  omega

/-- Split strictly on single spaces; empty tokens make a frame invalid. -/
def splitTokens (line : Bytes) : List Bytes := splitTokensLoop [] line

def isHexadecimal (character : UInt8) : Bool :=
  (decide (48 ≤ character) && decide (character ≤ 57)) ||
    (decide (97 ≤ character) && decide (character ≤ 102)) ||
    (decide (65 ≤ character) && decide (character ≤ 70))

def separators : List ℕ := [8, 13, 18, 23]

def isUuidCharacter (e : UInt8 × ℕ) : Bool :=
  if e.2 ∈ separators then e.1 == dash else isHexadecimal e.1

/-- Client IDs use the canonical 8-4-4-4-12 UUID shape. -/
def isUuid (value : Bytes) : Bool :=
  decide (value.length = 36) && value.zipIdx.all isUuidCharacter

/-- `std::from_chars` for an unsigned 64-bit integer in base ten: the value of the longest
prefix of digits and the text after it; nothing without a digit or on overflow. -/
def fromChars (value : Bytes) : Option (UInt64 × Bytes) :=
  let digits := value.takeWhile Decimal.isDigit
  if digits = [] then none
  else if Decimal.value digits < wordSize then
    some (UInt64.ofNat (Decimal.value digits), value.dropWhile Decimal.isDigit)
  else none

/-- `fromChars` rejects signs and whitespace; partially parsed sequences are rejected here. -/
def parseSequence (value : Bytes) : Option UInt64 :=
  match fromChars value with
  | some (sequence, []) => some sequence
  | _ => none

/-- Only exact PG/1 frame shapes are accepted; unknown input fails closed. -/
def parseFrame (line : Bytes) : Option Frame :=
  if line = [] ∨ maxFrameSize < line.length ∨ line.head? = some space ∨
      line.getLast? = some space ∨ line.getLast? = some carriageReturn then
    none
  else
    match splitTokens line with
    | version :: command :: arguments =>
      if version ≠ ascii "PG/1" then none
      else if command = ascii "HELLO" then
        match arguments with
        | [clientId] => if isUuid clientId then some { kind := .hello, clientId } else none
        | _ => none
      else if command = ascii "STATE" then
        match arguments with
        | [number, status] =>
          match parseSequence number with
          | some sequence =>
            if status ≠ ascii "SAFE" ∧ status ≠ ascii "SENSITIVE" then none
            else some { kind := .state, sequence, sensitive := status == ascii "SENSITIVE" }
          | none => none
        | _ => none
      else if command = ascii "GOODBYE" ∧ arguments = [] then some { kind := .goodbye }
      else none
    | _ => none

end PrivacyGuard
