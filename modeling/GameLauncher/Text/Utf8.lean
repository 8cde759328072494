namespace GameLauncher

abbrev Bytes := List UInt8

namespace Text

inductive Utf8Reason
  | badStart
  | badContinuation
  | endsEarly
  deriving DecidableEq

/-- The first sequence of bytes that is no character: its first byte, where it stands and how many
bytes are blamed. -/
structure Utf8Fault where
  first : UInt8
  offset : Nat
  length : Nat
  reason : Utf8Reason
  deriving DecidableEq

structure OpenChar where
  first : UInt8
  offset : Nat
  seen : Nat
  left : Nat
  low : UInt8
  high : UInt8

/-- What a character's first byte promises: none, or the number of bytes to follow and the bounds
of the next one, which keep out surrogates, overlong forms and what lies past the last code point. -/
def leadByte (b : UInt8) : Option (Nat × UInt8 × UInt8) :=
  if b < 0x80 then some (0, 0x80, 0xbf)
  else if b < 0xc2 then none
  else if b < 0xe0 then some (1, 0x80, 0xbf)
  else if b = 0xe0 then some (2, 0xa0, 0xbf)
  else if b = 0xed then some (2, 0x80, 0x9f)
  else if b < 0xf0 then some (2, 0x80, 0xbf)
  else if b = 0xf0 then some (3, 0x90, 0xbf)
  else if b < 0xf4 then some (3, 0x80, 0xbf)
  else if b = 0xf4 then some (3, 0x80, 0x8f)
  else none

def utf8Fault? (offset : Nat) : Option OpenChar → List UInt8 → Option Utf8Fault
  | none, [] => none
  | some o, [] => some ⟨o.first, o.offset, o.seen, .endsEarly⟩
  | none, b :: r => match leadByte b with
    | none => some ⟨b, offset, 1, .badStart⟩
    | some (0, _, _) => utf8Fault? (offset + 1) none r
    | some (n + 1, low, high) => utf8Fault? (offset + 1) (some ⟨b, offset, 1, n + 1, low, high⟩) r
  | some o, b :: r =>
    if b < o.low || o.high < b then some ⟨o.first, o.offset, o.seen, .badContinuation⟩
    else if o.left ≤ 1 then utf8Fault? (offset + 1) none r
    else utf8Fault? (offset + 1) (some ⟨o.first, o.offset, o.seen + 1, o.left - 1, 0x80, 0xbf⟩) r

def encodeUtf8 (s : String) : List UInt8 := s.toUTF8.data.toList

def decodeUtf8 (bytes : List UInt8) : Except Utf8Fault String :=
  match String.fromUTF8? ⟨bytes.toArray⟩ with
  | some s => .ok s
  | none => .error ((utf8Fault? 0 none bytes).getD ⟨0, 0, 1, .badStart⟩)

theorem decodeUtf8_encodeUtf8 (s : String) : decodeUtf8 (encodeUtf8 s) = .ok s := by
  have h : String.fromUTF8? ⟨(encodeUtf8 s).toArray⟩ = some s := by
    simp [encodeUtf8, String.fromUTF8?, String.fromUTF8, String.toUTF8, s.isValidUTF8]
  simp [decodeUtf8, h]

end Text

end GameLauncher
