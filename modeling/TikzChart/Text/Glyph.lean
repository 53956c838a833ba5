/-!
Bytes read as UTF-8 text. A glyph is a character, or a stretch of bytes that belongs to none: the
longest beginning of a character that breaks off there, or else a single byte.

No byte is lost: `encode` gives back the bytes that `read` was given. When glyphs from different
places are put together, stray bytes can make up a character, so their bytes have to be read anew.
-/

set_option autoImplicit false

namespace TikzChart

inductive Glyph where
  | char (c : Char)
  | stray (bytes : List UInt8)
deriving DecidableEq, Repr

namespace Glyph

def bytes : Glyph → List UInt8
  | char c => String.utf8EncodeChar c
  | stray bytes => bytes

def size : Glyph → Nat
  | char c => c.utf8Size
  | stray bytes => bytes.length

/-- Whether a byte continues a character. -/
def isContinuation (byte : UInt8) : Bool := decide (0x80 ≤ byte) && decide (byte ≤ 0xBF)

/-- Whether a byte can follow a first byte of a character of three or four bytes: surrogates, code
points beyond the last one and needlessly long forms are excluded by the second byte. -/
def canFollow (first second : UInt8) : Bool :=
  let least : UInt8 := if first = 0xE0 then 0xA0 else if first = 0xF0 then 0x90 else 0x80
  let greatest : UInt8 := if first = 0xED then 0x9F else if first = 0xF4 then 0x8F else 0xBF
  decide (least ≤ second) && decide (second ≤ greatest)

/-- The length of the broken beginning of a character. -/
def straySize (first : UInt8) (rest : List UInt8) : Nat :=
  if 0xE0 ≤ first ∧ first ≤ 0xF4 then
    match rest with
    | second :: third :: _ =>
      if canFollow first second then
        if 0xF0 ≤ first ∧ isContinuation third then 3 else 2
      else 1
    | [second] => if canFollow first second then 2 else 1
    | [] => 1
  else 1

/-- The glyphs of the bytes from a position on. -/
def readFrom (bytes : ByteArray) (position : Nat) : List Glyph :=
  if h : position < bytes.size then
    match bytes.utf8DecodeChar? position with
    | some c => char c :: readFrom bytes (position + c.utf8Size)
    | none =>
      let rest := (bytes.extract (position + 1) (position + 3)).toList
      let size := straySize bytes[position] rest
      stray (bytes[position] :: rest.take (size - 1)) :: readFrom bytes (position + max size 1)
  else []
termination_by bytes.size - position
decreasing_by
  · have := c.utf8Size_pos; omega
  · omega

def read (bytes : ByteArray) : List Glyph := readFrom bytes 0

/-- The bytes of glyphs one after the other. -/
def encode (glyphs : List Glyph) : ByteArray := (glyphs.flatMap bytes).toByteArray

/-- The text, or the number of bytes before the first stray glyph. -/
def text (glyphs : List Glyph) : Except Nat (List Char) :=
  match glyphs with
  | [] => .ok []
  | stray _ :: _ => .error 0
  | char c :: rest =>
    match text rest with
    | .ok chars => .ok (c :: chars)
    | .error before => .error (c.utf8Size + before)

def shown (glyphs : List Glyph) : String :=
  String.ofList (glyphs.map fun glyph =>
    match glyph with
    | char c => c
    | stray _ => '\uFFFD')

end Glyph

end TikzChart
