/-!
# Byte offsets

Places in a text are counted in bytes of its UTF-8 form.

* `byteLength` — the offset of the end of a text.
* `splitAtByte?` — the two parts of a text at an offset, unless the offset falls inside a character
  or beyond the end.
* `slice?` — the part between two offsets.
-/

namespace SqfLayout.Text

/-- The number of bytes of a text. -/
def byteLength : List Char → Nat
  | [] => 0
  | c :: cs => c.utf8Size + byteLength cs

/-- **The parts of a text before and after an offset.**  An offset inside a character or beyond the
end of the text has none. -/
def splitAtByte? : Nat → List Char → Option (List Char × List Char)
  | 0, cs => some ([], cs)
  | _ + 1, [] => none
  | n + 1, c :: cs =>
    if c.utf8Size ≤ n + 1 then
      (splitAtByte? (n + 1 - c.utf8Size) cs).map fun parts => (c :: parts.1, parts.2)
    else
      none

/-- **The part of a text between two offsets**, if both are boundaries and in order. -/
def slice? (start stop : Nat) (cs : List Char) : Option (List Char) :=
  if start ≤ stop then
    (splitAtByte? start cs).bind fun parts =>
      (splitAtByte? (stop - start) parts.2).map fun inner => inner.1
  else
    none

end SqfLayout.Text
