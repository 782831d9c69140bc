/-!
# Bytes as text

UTF-8 is read by a state machine over single bytes. What is not well formed becomes one
replacement character for each maximal beginning of a well-formed sequence, and one for each byte
that begins none.

* `Lead`, the ways in which a character can begin;
* `Tail`, a character that has begun: the range of its next byte and what follows;
* **`decodeLossy`**: every list of bytes is some text.
-/

namespace LineClient

/-- The character that stands for what cannot be read. -/
def replacement : Char := '\uFFFD'

/-- A character that has begun. The next byte lies from `low` to `high`, and `more` bytes follow
it; `code` collects the bits read so far. -/
structure Tail where
  low : UInt8
  high : UInt8
  more : Nat
  code : Nat
  deriving DecidableEq, Repr

/-- What a byte can be at the beginning of a character. -/
inductive Lead where
  /-- The byte is a character by itself. -/
  | whole (c : Char)
  /-- The byte begins a longer character. -/
  | opens (tail : Tail)
  /-- No character begins so. -/
  | stray
  deriving DecidableEq, Repr

/-- Classifies a byte at the beginning of a character. The ranges leave out overlong forms,
surrogates and everything above the last code point. -/
def Lead.ofByte (b : UInt8) : Lead :=
  let n := b.toNat
  if n < 0x80 then .whole (Char.ofNat n)
  else if n < 0xC2 then .stray
  else if n < 0xE0 then .opens ⟨0x80, 0xBF, 0, n - 0xC0⟩
  else if n < 0xF0 then
    .opens ⟨if n = 0xE0 then 0xA0 else 0x80, if n = 0xED then 0x9F else 0xBF, 1, n - 0xE0⟩
  else if n < 0xF5 then
    .opens ⟨if n = 0xF0 then 0x90 else 0x80, if n = 0xF4 then 0x8F else 0xBF, 2, n - 0xF0⟩
  else .stray

/-- The code of a character after one more byte of it. -/
def Tail.extend (t : Tail) (b : UInt8) : Nat := t.code * 64 + (b.toNat - 0x80)

/-- What one byte at the beginning of a character yields. -/
def Lead.read (b : UInt8) : List Char × Option Tail :=
  match Lead.ofByte b with
  | .whole c => ([c], none)
  | .opens t => ([], some t)
  | .stray => ([replacement], none)

/-- What one byte yields after the beginning of a character, if there is one: the characters that
it completes, and the character that it leaves open. -/
def readByte : Option Tail → UInt8 → List Char × Option Tail
  | none, b => Lead.read b
  | some t, b =>
    if t.low ≤ b ∧ b ≤ t.high then
      match t.more with
      | 0 => ([Char.ofNat (t.extend b)], none)
      | more + 1 => ([], some ⟨0x80, 0xBF, more, t.extend b⟩)
    else
      let (cs, tail) := Lead.read b
      (replacement :: cs, tail)

/-- Reads one more byte after some text, which is kept in reverse. -/
def pushByte (state : List Char × Option Tail) (b : UInt8) : List Char × Option Tail :=
  let (cs, tail) := readByte state.2 b
  (cs.reverse ++ state.1, tail)

/-- Reads bytes; a character that is still open at the end is replaced. -/
def decodeChars (bytes : List UInt8) : List Char :=
  let (cs, tail) := bytes.foldl pushByte ([], none)
  match tail with
  | none => cs.reverse
  | some _ => (replacement :: cs).reverse

/-- Reads bytes as text; what is not well formed becomes replacement characters. -/
def decodeLossy (bytes : List UInt8) : String := String.ofList (decodeChars bytes)

/-- The bytes of a text. -/
def utf8Bytes (text : String) : List UInt8 := text.toUTF8.data.toList

end LineClient
