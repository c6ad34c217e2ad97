/-!
# Numbers in arguments

Unsigned numbers of 64 bits in decimal notation.

* `readNumber` — the number written by a text, or why there is none.
* `NumberError.message` — the wording of the refusal.
-/

namespace SqfLayout.Text

/-- Why a text is not a number. -/
inductive NumberError
  | empty
  | badDigit
  | tooLarge
  deriving DecidableEq, Repr

/-- The wording of a refusal. -/
def NumberError.message : NumberError → String
  | .empty => "cannot parse integer from empty string"
  | .badDigit => "invalid digit found in string"
  | .tooLarge => "number too large to fit in target type"

/-- The value of an ASCII digit. -/
def digit? (c : Char) : Option Nat :=
  if '0' ≤ c ∧ c ≤ '9' then some (c.toNat - 48) else none

/-- Reads digits behind a number, and stops at the first that is none or that makes the number too
large. -/
def readDigits : Nat → List Char → Except NumberError Nat
  | n, [] => .ok n
  | n, c :: rest =>
    match digit? c with
    | none => .error .badDigit
    | some d => if n * 10 + d < 2 ^ 64 then readDigits (n * 10 + d) rest else .error .tooLarge

/-- **The number that a text writes**: digits, with a plus sign in front if one is wanted. -/
def readNumber : List Char → Except NumberError Nat
  | [] => .error .empty
  | ['+'] => .error .badDigit
  | '+' :: digits => readDigits 0 digits
  | digits => readDigits 0 digits

end SqfLayout.Text
