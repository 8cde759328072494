import GameLauncher.Image.Crc32
import GameLauncher.Text.Utf8

namespace GameLauncher.Image

structure Size where
  width : Int
  height : Int
  deriving DecidableEq

/-- The pixels that room is made for. A side counts as one at least. -/
def Size.pixels (s : Size) : Nat := (max 1 s.width).toNat * (max 1 s.height).toNat

def bigEndian (bytes : Bytes) : Nat := bytes.foldl (fun a b ↦ a * 256 + b.toNat) 0

def littleEndian (bytes : Bytes) : Nat := bigEndian bytes.reverse

def field? (bytes : Bytes) (offset length : Nat) : Option Bytes :=
  if offset + length ≤ bytes.length then some ((bytes.drop offset).take length) else none

def ascii (s : String) : Bytes := s.toUTF8.data.toList

namespace Png

def signature : Bytes := 0x89 :: ascii "PNG\r\n" ++ [0x1a, 0x0a]

def depths (colourType : UInt8) : List UInt8 :=
  if colourType = 0 then [1, 2, 4, 8, 16]
  else if colourType = 2 then [8, 16]
  else if colourType = 3 then [1, 2, 4, 8]
  else if colourType = 4 || colourType = 6 then [8, 16]
  else []

def headerSize? (header : Bytes) : Option Size :=
  match header with
  | [a, b, c, d, e, f, g, h, depth, colourType, _, filter, _] =>
    if (depths colourType).contains depth && filter = 0 then
      some ⟨bigEndian [a, b, c, d], bigEndian [e, f, g, h]⟩
    else none
  | _ => none

/-- The header's checksum has to be right, and image data has to begin right behind it. -/
def size? (bytes : Bytes) : Option Size := do
  guard ((← field? bytes 0 8) = signature)
  guard (bigEndian (← field? bytes 8 4) = 13)
  guard ((← field? bytes 12 4) = ascii "IHDR")
  let header ← field? bytes 16 13
  guard (bigEndian (← field? bytes 29 4) = (crc32 (ascii "IHDR" ++ header)).toNat)
  guard ((← field? bytes 37 4) = ascii "IDAT")
  headerSize? header

end Png

namespace Gif

def skipBlocks : Nat → Bytes → Bytes
  | fuel + 1, n :: r => if n = 0 then r else skipBlocks fuel (r.drop n.toNat)
  | _, r => r

def paletteLength (flags : UInt8) : Nat :=
  if flags &&& 0x80 = 0 then 0 else 3 * Nat.pow 2 ((flags &&& 7).toNat + 1)

def frameCorner? : Nat → Bytes → Option (Nat × Nat)
  | 0, _ => none
  | _, [] => none
  | fuel + 1, b :: r =>
    if b = 0x3b then none
    else if b = 0x21 then frameCorner? fuel (skipBlocks r.length (r.drop 1))
    else if b = 0x2c then do
      let frame ← field? r 0 9
      let flags ← frame.getLast?
      guard (9 + paletteLength flags < r.length)
      let at2 (i : Nat) := littleEndian ((frame.drop i).take 2)
      return (at2 0 + at2 4, at2 2 + at2 6)
    else frameCorner? fuel r

/-- The screen's size, enlarged to hold the first frame. -/
def size? (bytes : Bytes) : Option Size := do
  let signature ← field? bytes 0 6
  guard (signature = ascii "GIF87a" || signature = ascii "GIF89a")
  let screen ← field? bytes 6 7
  let width := littleEndian (screen.take 2)
  let height := littleEndian ((screen.drop 2).take 2)
  let flags ← screen[4]?
  let body := bytes.drop (13 + paletteLength flags)
  let (right, bottom) ← frameCorner? (body.length + 1) body
  return ⟨max width right, max height bottom⟩

end Gif

namespace Bmp

def magnitude (n : Nat) : Nat := if n < 0x80000000 then n else 0x100000000 - n

/-- Uncompressed images of 24 bits a pixel. A negative height turns the image upside down. -/
def size? (bytes : Bytes) : Option Size := do
  guard ((← field? bytes 0 2) = ascii "BM")
  guard (littleEndian (← field? bytes 14 4) = 40)
  let header ← field? bytes 18 36
  guard (littleEndian ((header.drop 10).take 2) = 24)
  guard (littleEndian ((header.drop 12).take 4) = 0)
  return ⟨littleEndian (header.take 4), magnitude (littleEndian ((header.drop 4).take 4))⟩

end Bmp

/-- The size that the header of a picture in one of the three formats gives. A picture without pixels
is none. -/
def size? (bytes : Bytes) : Option Size :=
  ([Png.size?, Gif.size?, Bmp.size?].findSome? fun read ↦ read bytes).filter fun s ↦
    0 < s.width && 0 < s.height

end GameLauncher.Image
