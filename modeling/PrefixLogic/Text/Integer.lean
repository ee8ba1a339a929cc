import PrefixLogic.Text.Blank
import PrefixLogic.Text.DecimalDigit

/-!
# Reading integers

An integer is written in base ten with the digits of any script, after an optional sign; a single
underscore may stand between two digits, and padding may stand at both ends.
-/

namespace PrefixLogic.Text

/-- The padding around a number: every blank but the four separators U+001C to U+001F. -/
def isNumberPadding (c : Char) : Bool :=
  isBlank c && !(0x1C ≤ c.toNat && c.toNat ≤ 0x1F)

/-- The longest number that is read, in digits. -/
def maxNumberDigits : Nat := 4300

/-- The values of the digits of a number, in order. An underscore is skipped where digits stand
on both sides of it. -/
def readDigits : List Char → Option (List Nat)
  | [] => none
  | [c] => (decimalDigit? c).map fun digit => [digit]
  | c :: '_' :: rest => do return (← decimalDigit? c) :: (← readDigits rest)
  | c :: rest => do return (← decimalDigit? c) :: (← readDigits rest)

/-- The number with the given digits, of which there must not be too many. -/
def numberOfDigits? (digits : List Nat) : Option Nat :=
  if digits.length ≤ maxNumberDigits then
    some (digits.foldl (fun number digit => 10 * number + digit) 0)
  else none

/-- Reads the digits of a number. -/
def readNat? (text : List Char) : Option Nat := (readDigits text).bind numberOfDigits?

/-- Reads an integer. -/
def readInt? (text : String) : Option Int :=
  match (trimBy isNumberPadding text).toList with
  | '-' :: digits => (readNat? digits).map fun n => -(n : Int)
  | '+' :: digits => (readNat? digits).map fun n => (n : Int)
  | digits => (readNat? digits).map fun n => (n : Int)

end PrefixLogic.Text
