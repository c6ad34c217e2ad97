/-!
# UTF-8

Reading bytes as text.  A fault is described by the place of the first byte that belongs to no
character and by how many bytes of a broken character were seen.

* `decode` — the text of a sequence of bytes, or the first fault.
* `encode` — the bytes of a text.
* `Utf8Error.message` — the wording of a fault.
-/

namespace SqfLayout.Text

/-- **The first fault of a byte sequence.**  `length` counts the bytes of the broken character; it is
missing when the bytes end inside a character that could still have been completed. -/
structure Utf8Error where
  index : Nat
  length : Option Nat
  deriving DecidableEq, Repr

/-- The wording of a fault. -/
def Utf8Error.message (e : Utf8Error) : String :=
  match e.length with
  | some n => s!"invalid utf-8 sequence of {n} bytes from index {e.index}"
  | none => s!"incomplete utf-8 byte sequence from index {e.index}"

/-- A byte that continues a character. -/
def isContinuation (b : UInt8) : Bool := 0x80 ≤ b && b ≤ 0xBF

/-- The second bytes that may follow the first byte of a three-byte character: no overlong forms and
no surrogates. -/
def secondOfThree (first second : UInt8) : Bool :=
  if first == 0xE0 then 0xA0 ≤ second && second ≤ 0xBF
  else if first == 0xED then 0x80 ≤ second && second ≤ 0x9F
  else isContinuation second

/-- The second bytes that may follow the first byte of a four-byte character: no overlong forms and
nothing above the last code point. -/
def secondOfFour (first second : UInt8) : Bool :=
  if first == 0xF0 then 0x90 ≤ second && second ≤ 0xBF
  else if first == 0xF4 then 0x80 ≤ second && second ≤ 0x8F
  else isContinuation second

/-- The payload of a continuation byte put behind the bits read so far. -/
def pushBits (bits : Nat) (b : UInt8) : Nat := bits * 64 + b.toNat % 64

/-- Reads on at a byte index, with the characters read so far in reverse order. -/
def decodeFrom : List Char → Nat → List UInt8 → Except Utf8Error (List Char)
  | done, _, [] => .ok done.reverse
  | done, i, a :: rest =>
    if a < 0x80 then decodeFrom (Char.ofNat a.toNat :: done) (i + 1) rest
    else if 0xC2 ≤ a && a ≤ 0xDF then
      match rest with
      | [] => .error ⟨i, none⟩
      | b :: rest =>
        if isContinuation b then
          decodeFrom (Char.ofNat (pushBits (a.toNat % 32) b) :: done) (i + 2) rest
        else .error ⟨i, some 1⟩
    else if 0xE0 ≤ a && a ≤ 0xEF then
      match rest with
      | [] => .error ⟨i, none⟩
      | b :: rest =>
        if secondOfThree a b then
          match rest with
          | [] => .error ⟨i, none⟩
          | c :: rest =>
            if isContinuation c then
              decodeFrom (Char.ofNat (pushBits (pushBits (a.toNat % 16) b) c) :: done) (i + 3) rest
            else .error ⟨i, some 2⟩
        else .error ⟨i, some 1⟩
    else if 0xF0 ≤ a && a ≤ 0xF4 then
      match rest with
      | [] => .error ⟨i, none⟩
      | b :: rest =>
        if secondOfFour a b then
          match rest with
          | [] => .error ⟨i, none⟩
          | c :: rest =>
            if isContinuation c then
              match rest with
              | [] => .error ⟨i, none⟩
              | d :: rest =>
                if isContinuation d then
                  decodeFrom
                    (Char.ofNat (pushBits (pushBits (pushBits (a.toNat % 8) b) c) d) :: done)
                    (i + 4) rest
                else .error ⟨i, some 3⟩
            else .error ⟨i, some 2⟩
        else .error ⟨i, some 1⟩
    else .error ⟨i, some 1⟩

/-- **The text of a sequence of bytes**, or its first fault. -/
def decode (bytes : List UInt8) : Except Utf8Error (List Char) := decodeFrom [] 0 bytes

/-- **The bytes of a text.** -/
def encode (cs : List Char) : List UInt8 := cs.flatMap String.utf8EncodeChar

end SqfLayout.Text
