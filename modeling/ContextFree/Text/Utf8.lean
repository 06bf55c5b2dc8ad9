import ContextFree.Text.Quoted

/-!
Bytes read as UTF-8. A character is a lead byte and the continuation bytes that it asks for; the second
byte is limited further by some lead bytes, so that no character has two spellings and none is a
surrogate. A fault names the bytes that were accepted before it.
-/
namespace ContextFree.Text

inductive Utf8Reason where
  | badLead
  | badContinuation
  | endOfData
  deriving DecidableEq

/-- What is wrong, where the character starts, and how many of its bytes are at fault. -/
structure Utf8Fault where
  reason : Utf8Reason
  position : Nat
  count : Nat
  /-- The first byte at fault. -/
  byte : UInt8
  deriving DecidableEq

def Utf8Reason.message : Utf8Reason → String
  | badLead => "invalid start byte"
  | badContinuation => "invalid continuation byte"
  | endOfData => "unexpected end of data"

def Utf8Fault.message (f : Utf8Fault) : String :=
  let place :=
    if f.count = 1 then
      "byte 0x" ++ String.ofList (hexadecimal 2 f.byte.toNat) ++ " in position "
        ++ toString f.position
    else
      "bytes in position " ++ toString f.position ++ "-" ++ toString (f.position + f.count - 1)
  "'utf-8' codec can't decode " ++ place ++ ": " ++ f.reason.message

/-- How many continuation bytes a lead byte asks for, and the bits that it holds itself. -/
def leadByte? (b : Nat) : Option (Nat × Nat) :=
  if b < 0x80 then some (0, b)
  else if b < 0xC2 then none
  else if b < 0xE0 then some (1, b - 0xC0)
  else if b < 0xF0 then some (2, b - 0xE0)
  else if b < 0xF5 then some (3, b - 0xF0)
  else none

/-- Whether `b` may stand `index` bytes after the lead byte. -/
def continues (lead index b : Nat) : Bool :=
  let low := if index ≠ 1 then 0x80 else if lead = 0xE0 then 0xA0 else if lead = 0xF0 then 0x90 else 0x80
  let high := if index ≠ 1 then 0xBF else if lead = 0xED then 0x9F else if lead = 0xF4 then 0x8F else 0xBF
  low ≤ b && b ≤ high

/-- The character that `value` and `owed` more bytes make up, `index` bytes having been read, and the
rest. -/
def readTail (lead index : Nat) (value : Nat) :
    (owed : Nat) → List UInt8 → Except (Utf8Reason × Nat) (Char × List UInt8)
  | 0, bytes => .ok (Char.ofNat value, bytes)
  | _ + 1, [] => .error (.endOfData, index)
  | owed + 1, b :: bytes =>
    if continues lead index b.toNat then
      readTail lead (index + 1) (value * 64 + b.toNat % 64) owed bytes
    else .error (.badContinuation, index)

theorem length_readTail {lead index value owed : Nat} {bytes rest : List UInt8} {c : Char}
    (h : readTail lead index value owed bytes = .ok (c, rest)) : rest.length ≤ bytes.length := by
  induction owed generalizing index value bytes with
  | zero => cases h; exact Nat.le_refl _
  | succ owed ih =>
    cases bytes with
    | nil => cases h
    | cons b bytes =>
      rw [readTail] at h
      split at h
      · exact Nat.le_succ_of_le (ih h)
      · cases h

/-- The characters of `bytes`, which start at `position`. -/
def decodeFrom (position : Nat) (bytes : List UInt8) : Except Utf8Fault (List Char) :=
  match bytes with
  | [] => .ok []
  | lead :: rest =>
    match leadByte? lead.toNat with
    | none => .error ⟨.badLead, position, 1, lead⟩
    | some (owed, value) =>
      match h : readTail lead.toNat 1 value owed rest with
      | .error (reason, count) => .error ⟨reason, position, count, lead⟩
      | .ok (c, after) => (decodeFrom (position + 1 + owed) after).map (c :: ·)
termination_by bytes.length
decreasing_by exact Nat.lt_succ_of_le (length_readTail h)

def decode (bytes : List UInt8) : Except Utf8Fault (List Char) := decodeFrom 0 bytes

/-- A text with a line feed for every carriage return, alone or before a line feed. -/
def plainLineEnds : List Char → List Char
  | [] => []
  | '\r' :: '\n' :: cs => '\n' :: plainLineEnds cs
  | c :: cs => (if c = '\r' then '\n' else c) :: plainLineEnds cs

end ContextFree.Text
