import ProgramInterface.Text.Basic

/-!
# UTF-8

Decoding reports the first place where the bytes are not UTF-8 and why: a byte that begins no
character, a character broken off by a byte that does not go on with it, or the end of the data
inside a character. Encoding fails on surrogates only and reports the first run of them.
-/

namespace ProgramInterface

namespace Utf8

/-- Why a byte sequence is not UTF-8 at a given place. -/
inductive DecodeCause where
  | invalidStart
  | invalidContinuation
  | unexpectedEnd
  deriving DecidableEq

/-- The first fault of a byte sequence: the cause, the bytes `first` to `last` it spans, and the
value of the first of them. -/
structure DecodeFault where
  cause : DecodeCause
  first : Nat
  last : Nat
  byte : UInt8
  deriving DecidableEq

/-- The first run of surrogates in a text: the positions `first` to `last`, and the first code
point. -/
structure EncodeFault where
  first : Nat
  last : Nat
  point : CodePoint
  deriving DecidableEq

/-- The wording of a decoding cause. -/
def DecodeCause.message : DecodeCause → String
  | invalidStart => "invalid start byte"
  | invalidContinuation => "invalid continuation byte"
  | unexpectedEnd => "unexpected end of data"

/-- The wording of a decoding fault. -/
def DecodeFault.message (fault : DecodeFault) : String :=
  if fault.first = fault.last then
    "'utf-8' codec can't decode byte 0x" ++ String.ofList (Text.hexadecimal 2 fault.byte.toNat) ++
      " in position " ++ toString fault.first ++ ": " ++ fault.cause.message
  else
    "'utf-8' codec can't decode bytes in position " ++ toString fault.first ++ "-" ++
      toString fault.last ++ ": " ++ fault.cause.message

/-- The wording of an encoding fault. -/
def EncodeFault.message (fault : EncodeFault) : String :=
  if fault.first = fault.last then
    "'utf-8' codec can't encode character '\\u" ++
      String.ofList (Text.hexadecimal 4 fault.point.val) ++ "' in position " ++
      toString fault.first ++ ": surrogates not allowed"
  else
    "'utf-8' codec can't encode characters in position " ++ toString fault.first ++ "-" ++
      toString fault.last ++ ": surrogates not allowed"

/-- Whether a byte goes on with a character of several bytes. -/
def isContinuation (b : UInt8) : Bool :=
  0x80 ≤ b && b ≤ 0xBF

/-- Whether `second` may follow the first byte `lead` of a character of several bytes. -/
def isSecond (lead second : UInt8) : Bool :=
  if lead = 0xE0 then 0xA0 ≤ second && second ≤ 0xBF
  else if lead = 0xED then 0x80 ≤ second && second ≤ 0x9F
  else if lead = 0xF0 then 0x90 ≤ second && second ≤ 0xBF
  else if lead = 0xF4 then 0x80 ≤ second && second ≤ 0x8F
  else isContinuation second

/-- The number of bytes of the character that a byte begins, if it begins one. -/
def width? (lead : UInt8) : Option Nat :=
  if lead < 0x80 then some 1
  else if lead < 0xC2 then none
  else if lead < 0xE0 then some 2
  else if lead < 0xF0 then some 3
  else if lead < 0xF5 then some 4
  else none

/-- The six low bits of a continuation byte. -/
def tailBits (b : UInt8) : Nat :=
  b.toNat % 0x40

/-- The rest of a character after its first byte and `good` bytes that go on with it: `missing` more
are wanted, and `number` is the number read so far. Gives the number and the bytes after the
character, or the cause and how many good bytes there are. -/
def readTail (good missing number : Nat) (accepts : UInt8 → Bool) (bytes : List UInt8) :
    Except (DecodeCause × Nat) (Nat × List UInt8) :=
  match missing, bytes with
  | 0, rest => .ok (number, rest)
  | _ + 1, [] => .error (.unexpectedEnd, good)
  | missing + 1, b :: rest =>
    if accepts b then
      readTail (good + 1) missing (number * 0x40 + tailBits b) isContinuation rest
    else .error (.invalidContinuation, good)

/-- The bits of the number of a character that its first byte holds. -/
def leadBits (lead : UInt8) : Nat :=
  if lead < 0x80 then lead.toNat
  else if lead < 0xE0 then lead.toNat % 0x20
  else if lead < 0xF0 then lead.toNat % 0x10
  else lead.toNat % 0x08

/-- One character at the head of a non-empty byte sequence, with the number of its bytes. -/
def readChar (lead : UInt8) (rest : List UInt8) :
    Except (DecodeCause × Nat) (Char × Nat × List UInt8) :=
  match width? lead with
  | none => .error (.invalidStart, 0)
  | some width => do
    let (number, rest) ← readTail 0 (width - 1) (leadBits lead) (isSecond lead) rest
    return (Char.ofNat number, width, rest)

/-- The characters of a byte sequence whose first byte has number `position`; `fuel` bounds the
number of characters. -/
def decodeFrom (fuel position : Nat) (bytes : List UInt8) (done : List Char) :
    Except DecodeFault (List Char) :=
  match fuel, bytes with
  | _, [] => .ok done.reverse
  | 0, _ => .ok done.reverse
  | fuel + 1, lead :: rest =>
    match readChar lead rest with
    | .ok (c, width, rest) => decodeFrom fuel (position + width) rest (c :: done)
    | .error (cause, good) => .error ⟨cause, position, position + good, lead⟩

/-- The string that a byte sequence encodes, or its first fault. -/
def decode (bytes : List UInt8) : Except DecodeFault String :=
  (decodeFrom bytes.length 0 bytes []).map String.ofList

/-- The characters of a byte sequence as `decodeFrom` reads them, put in front of `done` in reverse, and
the bytes of a character that the sequence ends in the middle of. -/
def decodePart (fuel position : Nat) (bytes : List UInt8) (done : List Char) :
    Except DecodeFault (List Char × List UInt8) :=
  match fuel, bytes with
  | _, [] => .ok (done, [])
  | 0, rest => .ok (done, rest)
  | fuel + 1, lead :: rest =>
    match readChar lead rest with
    | .ok (c, width, rest) => decodePart fuel (position + width) rest (c :: done)
    | .error (.unexpectedEnd, _) => .ok (done, lead :: rest)
    | .error (cause, good) => .error ⟨cause, position, position + good, lead⟩

/-- The number of bytes that are read at a time from a file. -/
def blockSize : Nat := 8192

/-- The characters of a byte sequence that is read block by block; `pending` are the bytes of an
unfinished character of the blocks before, and `fuel` bounds the number of blocks. The positions of a
fault count from the first of the bytes that are looked at together. -/
def decodeBlocksFrom (fuel : Nat) (pending bytes : List UInt8) (done : List Char) :
    Except DecodeFault (List Char) :=
  match fuel, bytes with
  | _, [] => decodeFrom pending.length 0 pending done
  | 0, _ => .ok done.reverse
  | fuel + 1, bytes => do
    let together := pending ++ bytes.take blockSize
    let (done, pending) ← decodePart together.length 0 together done
    decodeBlocksFrom fuel pending (bytes.drop blockSize) done

/-- The characters that a byte sequence encodes, read block by block. -/
def decodeBlocks (bytes : List UInt8) : Except DecodeFault (List Char) :=
  decodeBlocksFrom (bytes.length / blockSize + 1) [] bytes []

/-- The bytes that characters are encoded as. -/
def encodeChars (chars : List Char) : List UInt8 :=
  chars.flatMap String.utf8EncodeChar

/-- The number of surrogates that a text begins with. -/
def surrogateRun (t : Text) : Nat :=
  (t.takeWhile CodePoint.isSurrogate).length

/-- The first run of surrogates in a text, if it has one. -/
def encodeFault? (t : Text) : Option EncodeFault :=
  match t.findIdx? CodePoint.isSurrogate with
  | none => none
  | some first =>
    let run := t.drop first
    some ⟨first, first + surrogateRun run - 1, run.headD default⟩

/-- The string that a text can be written as, or the first run of surrogates that prevents it. -/
def encode (t : Text) : Except EncodeFault String :=
  match encodeFault? t with
  | some fault => .error fault
  | none => .ok (String.ofList (t.filterMap CodePoint.char?))

end Utf8

end ProgramInterface
