/-!
# The bytes of a text

Offsets count the bytes of a text's UTF-8 form, lines are numbered from one and end at a line feed.
`lineOf` takes an offset to its line and `lineStart` takes a line to the offset at which it starts.

`Utf8.decode` reads bytes as UTF-8 and says where the first fault lies: the index at which the
longest valid start ends, and how many bytes from there on can be recognised as an ill-formed
sequence.  A sequence that is cut off by the end of the input is incomplete.
-/

namespace TableLineage.Text

/-! ## Byte offsets and lines -/

/-- The number of bytes of the UTF-8 form. -/
def byteLength (cs : List Char) : Nat :=
  cs.foldr (fun c length => c.utf8Size + length) 0

/-- The number of line feeds. -/
def lineFeeds (cs : List Char) : Nat :=
  cs.count '\n'

/-- The characters that start before a byte offset. -/
def takeBytes : List Char → Nat → List Char
  | [], _ => []
  | c :: cs, offset => if offset = 0 then [] else c :: takeBytes cs (offset - c.utf8Size)

/-- The line of a byte offset; an offset past the end belongs to the last line. -/
def lineOf (text : List Char) (offset : Nat) : Nat :=
  lineFeeds (takeBytes text offset) + 1

/-- The text before a line; the whole text if there are fewer lines. -/
def beforeLine : List Char → Nat → List Char
  | [], _ => []
  | c :: cs, line =>
    if line ≤ 1 then [] else c :: beforeLine cs (if c = '\n' then line - 1 else line)

/-- The byte offset at which a line starts, the length of the text if there are fewer lines. -/
def lineStart (text : List Char) (line : Nat) : Nat :=
  byteLength (beforeLine text line)

end TableLineage.Text

namespace TableLineage.Text.Utf8

/-! ## Decoding -/

/-- Why bytes are not UTF-8. -/
inductive Fault where
  /-- The bytes from `index` on start with an ill-formed sequence of `length` bytes. -/
  | invalid (index length : Nat)
  /-- The bytes end within the sequence that starts at `index`. -/
  | incomplete (index : Nat)
  deriving DecidableEq, Repr

/-- The text of a fault. -/
def Fault.message : Fault → String
  | .invalid index length => s!"invalid utf-8 sequence of {length} bytes from index {index}"
  | .incomplete index => s!"incomplete utf-8 byte sequence from index {index}"

/-- What a sequence's bytes say about it. -/
inductive Sequence where
  /-- A character that takes `more` bytes after the first. -/
  | char (c : Char) (more : Nat)
  /-- An ill-formed sequence of `length` bytes. -/
  | invalid (length : Nat)
  | incomplete
  deriving DecidableEq, Repr

/-- Whether a byte may follow the first byte of a sequence. -/
def isContinuation (b : UInt8) : Bool :=
  decide (0x80 ≤ b.toNat ∧ b.toNat ≤ 0xBF)

/-- Whether a byte may follow `first`, the first byte of a sequence of three or four bytes: it may
not make the sequence longer than needed, nor name a surrogate or a code above `0x10FFFF`. -/
def isSecond (first second : UInt8) : Bool :=
  let low := if first = 0xE0 then 0xA0 else if first = 0xF0 then 0x90 else 0x80
  let high := if first = 0xED then 0x9F else if first = 0xF4 then 0x8F else 0xBF
  decide (low ≤ second.toNat ∧ second.toNat ≤ high)

/-- The code that a first byte's low bits and further bytes' six low bits spell. -/
def codeOf (lead : Nat) (tail : List UInt8) : Char :=
  Char.ofNat (tail.foldl (fun code b => code * 64 + b.toNat % 64) lead)

/-- The sequence that starts with `first` and goes on with `rest`. -/
def sequenceOf (first : UInt8) (rest : List UInt8) : Sequence :=
  let n := first.toNat
  if n < 0x80 then
    .char (Char.ofNat n) 0
  else if n < 0xC2 then
    .invalid 1
  else if n < 0xE0 then
    match rest with
    | [] => .incomplete
    | b :: _ => if isContinuation b then .char (codeOf (n % 32) [b]) 1 else .invalid 1
  else if n < 0xF0 then
    match rest with
    | [] => .incomplete
    | b :: rest =>
      if !isSecond first b then .invalid 1
      else match rest with
        | [] => .incomplete
        | c :: _ => if isContinuation c then .char (codeOf (n % 16) [b, c]) 2 else .invalid 2
  else if n < 0xF5 then
    match rest with
    | [] => .incomplete
    | b :: rest =>
      if !isSecond first b then .invalid 1
      else match rest with
        | [] => .incomplete
        | c :: rest =>
          if !isContinuation c then .invalid 2
          else match rest with
            | [] => .incomplete
            | d :: _ => if isContinuation d then .char (codeOf (n % 8) [b, c, d]) 3 else .invalid 3
  else
    .invalid 1

/-- The characters of the bytes that start at `index`; the first `skip` bytes belong to a character
that is already read. -/
def decodeFrom (index : Nat) : Nat → List UInt8 → Except Fault (List Char)
  | _, [] => .ok []
  | skip + 1, _ :: rest => decodeFrom (index + 1) skip rest
  | 0, first :: rest =>
    match sequenceOf first rest with
    | .invalid length => .error (.invalid index length)
    | .incomplete => .error (.incomplete index)
    | .char c more =>
      match decodeFrom (index + 1) more rest with
      | .error fault => .error fault
      | .ok cs => .ok (c :: cs)

/-- The text that bytes spell in UTF-8. -/
def decode (bytes : List UInt8) : Except Fault String :=
  (decodeFrom 0 0 bytes).map String.ofList

/-- The bytes of a text's UTF-8 form. -/
def encode (text : String) : List UInt8 :=
  text.toUTF8.toList

end TableLineage.Text.Utf8
