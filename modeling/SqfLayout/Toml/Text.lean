import SqfLayout.Text.Space

/-!
# Texts and keys

The smallest parts of a TOML document.  A reader gives what it has read and the characters behind it,
or nothing if the document is malformed there.

* `basicText`, `literalText` — texts on one line, with and without escapes.
* `basicBlock`, `literalBlock` — texts of several lines.
* `readText?` — a text of any of the four forms.
* `dottedKey?` — a key, or several with dots between them.
* `endOfLine?` — what may follow an entry on its line.
-/

namespace SqfLayout.Toml

open SqfLayout.Text

/-! ## Line breaks and comments -/

/-- The characters that may stand in texts and comments: all but the control characters of ASCII, of
which only the tab may. -/
def isTextChar (c : Char) : Bool := c == '\t' || (0x20 ≤ c.toNat && c.toNat != 0x7F)

/-- The characters behind a line break: a line feed, with a carriage return before it if one is
wanted. -/
def newline? : List Char → Option (List Char)
  | '\n' :: rest => some rest
  | '\r' :: '\n' :: rest => some rest
  | _ => none

/-- The characters from the first one that is neither blank nor part of a line break. -/
def skipBreaks : List Char → List Char
  | ' ' :: rest => skipBreaks rest
  | '\t' :: rest => skipBreaks rest
  | '\n' :: rest => skipBreaks rest
  | '\r' :: '\n' :: rest => skipBreaks rest
  | rest => rest

theorem length_skipBreaks_le (cs : List Char) : (skipBreaks cs).length ≤ cs.length := by
  fun_induction skipBreaks cs <;> simp_all <;> omega

/-- The characters behind a comment, if one starts here. -/
def skipComment : List Char → List Char
  | '#' :: rest => rest.dropWhile isTextChar
  | rest => rest

/-- **The characters of the next line**, if nothing but blanks and a comment is left on this one. -/
def endOfLine? (cs : List Char) : Option (List Char) :=
  match skipComment (cs.dropWhile isBlank) with
  | [] => some []
  | rest => newline? rest

/-- The characters from the first one that belongs to no blank, line break or comment.  The flag tells
whether a comment is being read. -/
def skipTrivia : Bool → List Char → List Char
  | _, [] => []
  | _, '\n' :: rest => skipTrivia false rest
  | _, '\r' :: '\n' :: rest => skipTrivia false rest
  | false, '#' :: rest => skipTrivia true rest
  | commented, c :: rest =>
    if (if commented then isTextChar c else isBlank c) then skipTrivia commented rest else c :: rest

/-! ## Escapes -/

/-- The value of a hexadecimal digit. -/
def hexDigit? (c : Char) : Option Nat :=
  if '0' ≤ c ∧ c ≤ '9' then some (c.toNat - 48)
  else if 'a' ≤ c ∧ c ≤ 'f' then some (c.toNat - 87)
  else if 'A' ≤ c ∧ c ≤ 'F' then some (c.toNat - 55)
  else none

/-- The character with a code point in hexadecimal digits; surrogates and numbers above the last code
point name none. -/
def codePoint? (digits : List Char) : Option Char := do
  let values ← digits.mapM hexDigit?
  let code := values.foldl (fun n d => n * 16 + d) 0
  if code.isValidChar then some (Char.ofNat code) else none

/-- The character that an escape letter stands for. -/
def escaped? : Char → Option Char
  | 'b' => some '\x08'
  | 't' => some '\t'
  | 'n' => some '\n'
  | 'f' => some '\x0c'
  | 'r' => some '\r'
  | '"' => some '"'
  | '\\' => some '\\'
  | _ => none

/-! ## Texts -/

/-- A character put in front of a text that has been read. -/
def prepend (c : Char) (read : Option (List Char × List Char)) : Option (List Char × List Char) :=
  read.map fun (text, rest) => (c :: text, rest)

/-- **A text on one line behind its opening quote**, with escapes. -/
def basicText : List Char → Option (List Char × List Char)
  | [] => none
  | '"' :: rest => some ([], rest)
  | '\\' :: 'u' :: a :: b :: c :: d :: rest =>
    (codePoint? [a, b, c, d]).bind fun x => prepend x (basicText rest)
  | '\\' :: 'U' :: a :: b :: c :: d :: e :: f :: g :: h :: rest =>
    (codePoint? [a, b, c, d, e, f, g, h]).bind fun x => prepend x (basicText rest)
  | '\\' :: c :: rest => (escaped? c).bind fun x => prepend x (basicText rest)
  | c :: rest => if isTextChar c then prepend c (basicText rest) else none

/-- **A text on one line behind its opening apostrophe**, taken as it stands. -/
def literalText : List Char → Option (List Char × List Char)
  | [] => none
  | '\'' :: rest => some ([], rest)
  | c :: rest => if isTextChar c then prepend c (literalText rest) else none

/-- The end of a text of several lines behind its three closing marks.  Up to two marks more belong to
the text. -/
def closeBlock (mark : Char) (rest : List Char) : List Char × List Char :=
  let extra := (rest.take 2).takeWhile (· == mark)
  (extra, rest.drop extra.length)

/-- **A text of several lines behind its opening quotes**, with escapes.  A backslash at the end of a
line takes out the white space up to the next character. -/
def basicBlock : List Char → Option (List Char × List Char)
  | [] => none
  | '"' :: '"' :: '"' :: rest => some (closeBlock '"' rest)
  | '\\' :: 'u' :: a :: b :: c :: d :: rest =>
    (codePoint? [a, b, c, d]).bind fun x => prepend x (basicBlock rest)
  | '\\' :: 'U' :: a :: b :: c :: d :: e :: f :: g :: h :: rest =>
    (codePoint? [a, b, c, d, e, f, g, h]).bind fun x => prepend x (basicBlock rest)
  | '\\' :: c :: rest =>
    if (newline? ((c :: rest).dropWhile isBlank)).isSome then basicBlock (skipBreaks (c :: rest))
    else (escaped? c).bind fun x => prepend x (basicBlock rest)
  | '\n' :: rest => prepend '\n' (basicBlock rest)
  | '\r' :: '\n' :: rest => prepend '\n' (basicBlock rest)
  | c :: rest => if isTextChar c then prepend c (basicBlock rest) else none
termination_by cs => cs.length
decreasing_by
  all_goals simp only [List.length_cons]
  all_goals first
    | omega
    | exact Nat.lt_succ_of_le (length_skipBreaks_le _)

/-- **A text of several lines behind its opening apostrophes**, taken as it stands. -/
def literalBlock : List Char → Option (List Char × List Char)
  | [] => none
  | '\'' :: '\'' :: '\'' :: rest => some (closeBlock '\'' rest)
  | '\n' :: rest => prepend '\n' (literalBlock rest)
  | '\r' :: '\n' :: rest => prepend '\n' (literalBlock rest)
  | c :: rest => if isTextChar c then prepend c (literalBlock rest) else none

/-- The characters behind a line break, or all if there is none. -/
def dropNewline (cs : List Char) : List Char := (newline? cs).getD cs

/-- **A text of any form.**  A line break directly behind the opening of a text of several lines does
not count. -/
def readText? : List Char → Option (List Char × List Char)
  | '"' :: '"' :: '"' :: rest => basicBlock (dropNewline rest)
  | '"' :: rest => basicText rest
  | '\'' :: '\'' :: '\'' :: rest => literalBlock (dropNewline rest)
  | '\'' :: rest => literalText rest
  | _ => none

/-! ## Keys -/

/-- The characters of a key without quotes. -/
def isBareKeyChar (c : Char) : Bool := c.isAlphanum || c == '_' || c == '-'

/-- A single key: bare, or a text on one line. -/
def key? : List Char → Option (List Char × List Char)
  | '"' :: rest => basicText rest
  | '\'' :: rest => literalText rest
  | cs =>
    let name := cs.takeWhile isBareKeyChar
    if name.isEmpty then none else some (name, cs.dropWhile isBareKeyChar)

/-- **A key, or several with dots between them.**  Blanks may stand around each. -/
def dottedKey? (cs : List Char) : Option (List (List Char) × List Char) := do
  let (first, rest) ← key? (cs.dropWhile isBlank)
  match rest.dropWhile isBlank with
  | '.' :: rest =>
    if rest.length < cs.length then
      let (others, rest) ← dottedKey? rest
      some (first :: others, rest)
    else none
  | rest => some ([first], rest)
termination_by cs.length

end SqfLayout.Toml
