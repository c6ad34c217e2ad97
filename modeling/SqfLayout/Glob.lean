/-!
# Glob patterns

Patterns for paths that are to be left out.

* `GlobToken` — a character, any character, a class of characters, any run of characters, or any run of
  whole folders.
* `readGlob` — the tokens of a pattern, or where and why it is malformed.
* `globMatches` — whether a text matches a pattern as a whole, by one sweep of marks for each token.
-/

namespace SqfLayout

/-! ## Patterns -/

/-- A part of a class of characters. -/
inductive CharRange
  | single (char : Char)
  | span (first last : Char)
  deriving DecidableEq, Repr

/-- **A part of a pattern.** -/
inductive GlobToken
  | char (char : Char)
  | anyChar
  | oneOf (ranges : List CharRange)
  | noneOf (ranges : List CharRange)
  | run
  | folders
  deriving DecidableEq, Repr

/-- Why a pattern is malformed. -/
inductive GlobFault
  | tooManyStars
  | notAComponent
  | badClass
  deriving DecidableEq, Repr

/-- **A fault of a pattern** and the character at which it was found. -/
structure GlobError where
  position : Nat
  fault : GlobFault
  deriving DecidableEq, Repr

/-- The wording of a fault. -/
def GlobFault.message : GlobFault → String
  | .tooManyStars => "wildcards are either regular `*` or recursive `**`"
  | .notAComponent => "recursive wildcards must form a single path component"
  | .badClass => "invalid range pattern"

/-- The wording of a fault with its position. -/
def GlobError.message (e : GlobError) : String :=
  let reason := e.fault.message
  s!"Pattern syntax error near position {e.position}: {reason}"

/-! ## Reading -/

/-- The ranges of a class. -/
def readRanges : List Char → List CharRange
  | a :: '-' :: b :: rest => .span a b :: readRanges rest
  | a :: rest => .single a :: readRanges rest
  | [] => []

/-- A class behind its opening bracket: the characters in it and those behind it.  The first character
belongs to it even if it is a bracket. -/
def closeClass? : List Char → Option (List Char × List Char)
  | [] => none
  | c :: rest =>
    match rest.dropWhile (· != ']') with
    | [] => none
    | _ :: behind => some (c :: rest.takeWhile (· != ']'), behind)

/-- The token of a class behind its opening bracket, and the characters behind it. -/
def readClass? : List Char → Option (GlobToken × List Char)
  | '!' :: rest => (closeClass? rest).map fun (chars, behind) => (.noneOf (readRanges chars), behind)
  | rest => (closeClass? rest).map fun (chars, behind) => (.oneOf (readRanges chars), behind)

/-- **The tokens of a pattern** from a position on, behind a given character.  Two stars stand for
folders only as a whole component; the slash behind them belongs to them. -/
def readGlobFrom (position : Nat) (before : Option Char) :
    List Char → Except GlobError (List GlobToken)
  | [] => .ok []
  | '?' :: rest => (.anyChar :: ·) <$> readGlobFrom (position + 1) (some '?') rest
  | '*' :: '*' :: '*' :: _ => .error ⟨position + 2, .tooManyStars⟩
  | '*' :: '*' :: rest =>
    if before.all (· == '/') then
      match rest with
      | [] => .ok [.folders]
      | '/' :: rest => (.folders :: ·) <$> readGlobFrom (position + 3) (some '/') rest
      | _ => .error ⟨position + 2, .notAComponent⟩
    else .error ⟨position - 1, .notAComponent⟩
  | '*' :: rest => (.run :: ·) <$> readGlobFrom (position + 1) (some '*') rest
  | '[' :: rest =>
    match readClass? rest with
    | none => .error ⟨position, .badClass⟩
    | some (token, behind) =>
      if behind.length ≤ rest.length then
        (token :: ·) <$> readGlobFrom (position + 1 + (rest.length - behind.length)) (some ']') behind
      else .error ⟨position, .badClass⟩
  | c :: rest => (.char c :: ·) <$> readGlobFrom (position + 1) (some c) rest
termination_by cs => cs.length

/-- **The tokens of a pattern.** -/
def readGlob (pattern : List Char) : Except GlobError (List GlobToken) := readGlobFrom 0 none pattern

/-! ## Matching -/

/-- Whether a character is in a range. -/
def CharRange.holds (c : Char) : CharRange → Bool
  | .single wanted => c == wanted
  | .span first last => first ≤ c && c ≤ last

/-- Whether a single-character token takes a character. -/
def GlobToken.takes (c : Char) : GlobToken → Bool
  | .char wanted => c == wanted
  | .anyChar => true
  | .oneOf ranges => ranges.any (·.holds c)
  | .noneOf ranges => !ranges.any (·.holds c)
  | .run => false
  | .folders => false

/-- **Marks on a text**: one before each character and one at the end.  A mark is set where the tokens
read so far may end. -/
abbrev Marks := List Bool

/-- The marks behind a token for one character.  It carries a mark over the character that it takes. -/
def passOne (takes : Char → Bool) : Bool → List Char → Marks → Marks
  | arrived, c :: cs, mark :: marks => arrived :: passOne takes (mark && takes c) cs marks
  | arrived, _, _ => [arrived]

/-- The marks behind a run: all from the first one on. -/
def passRun : Bool → Marks → Marks
  | _, [] => []
  | started, mark :: marks => (started || mark) :: passRun (started || mark) marks

/-- The marks behind folders: those that were set, and once one was set, those behind a slash and the
one at the end. -/
def passFolders : Bool → Bool → List Char → Marks → Marks
  | started, behindSlash, c :: cs, mark :: marks =>
    (mark || (started && behindSlash)) :: passFolders (started || mark) (c == '/') cs marks
  | started, _, _, marks => [started || marks.any id]

/-- The marks behind a token. -/
def GlobToken.pass (cs : List Char) (marks : Marks) : GlobToken → Marks
  | .run => passRun false marks
  | .folders => passFolders false false cs marks
  | token => passOne (fun c => token.takes c) false cs marks

/-- **Whether a text matches a pattern as a whole.**  A run takes any characters, slashes too.  Folders
take nothing, whole folders with their slashes, or everything. -/
def globMatches (tokens : List GlobToken) (cs : List Char) : Bool :=
  (tokens.foldl (fun marks token => token.pass cs marks) (true :: cs.map fun _ => false)).getLast?
    == some true

end SqfLayout
