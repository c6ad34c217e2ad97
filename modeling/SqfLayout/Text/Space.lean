/-!
# White space

* `isSpace` — the Unicode property `White_Space`, line breaks included.
* `isBlank` — a space or a tab, the white space that stays within a line.
* `trimStart`, `trimEnd`, `trim` — a text without the white space at its ends.
* `words` — the maximal runs of other characters.
-/

namespace SqfLayout.Text

/-- The Unicode property `White_Space`. -/
def isSpace (c : Char) : Bool :=
  let n := c.toNat
  (9 ≤ n && n ≤ 13) || n == 32 || n == 0x85 || n == 0xA0 || n == 0x1680
    || (0x2000 ≤ n && n ≤ 0x200A) || n == 0x2028 || n == 0x2029 || n == 0x202F || n == 0x205F
    || n == 0x3000

/-- A space or a tab. -/
def isBlank (c : Char) : Bool := c == ' ' || c == '\t'

/-- A list without its longest final stretch of elements that satisfy the test. -/
def dropEndWhile {α : Type} (p : α → Bool) (xs : List α) : List α :=
  (xs.reverse.dropWhile p).reverse

/-- A text without leading white space. -/
def trimStart (cs : List Char) : List Char := cs.dropWhile isSpace

/-- A text without trailing white space. -/
def trimEnd (cs : List Char) : List Char := dropEndWhile isSpace cs

/-- A text without white space at either end. -/
def trim (cs : List Char) : List Char := trimStart (trimEnd cs)

/-- Whether a text has nothing but white space. -/
def isBare (cs : List Char) : Bool := cs.all isSpace

/-- The words of a text after a word that is being read; an empty word is not kept. -/
def wordsAfter : List Char → List Char → List (List Char)
  | word, [] => if word.isEmpty then [] else [word.reverse]
  | word, c :: rest =>
    if isSpace c then
      if word.isEmpty then wordsAfter [] rest else word.reverse :: wordsAfter [] rest
    else wordsAfter (c :: word) rest

/-- **The words of a text**: its maximal runs of characters that are not white space. -/
def words (cs : List Char) : List (List Char) := wordsAfter [] cs

end SqfLayout.Text
