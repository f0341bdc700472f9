import ApiSections.Number.Binary64
import ApiSections.Text.Blank
import ApiSections.Text.Word

/-!
Numeric literals: reading them in every base, and the one decimal spelling in which they are shown.
-/

namespace ApiSections.Number

open Text

/-- Digits of other scripts become ASCII digits and blanks beyond ASCII become spaces. -/
def plainChar (c : Char) : Char :=
  if c.toNat < 0x7F then c
  else if isBlank c then ' '
  else match digitValue? c with
    | some value => Char.ofNat (48 + value)
    | none => '?'

def isSpace (c : Char) : Bool := c == ' ' || (9 ≤ c.toNat && c.toNat ≤ 13)

/-- The characters of a number without the spaces around them. -/
def bare (text : List Char) : List Char :=
  dropTail isSpace ((text.map plainChar).dropWhile isSpace)

/-- Whether a minus sign leads, and what follows the sign. -/
def splitSign : List Char → Bool × List Char
  | '-' :: rest => (true, rest)
  | '+' :: rest => (false, rest)
  | text => (false, text)

/-- The value of a digit in bases up to sixteen. -/
def digitOf? (c : Char) : Option Nat :=
  if c.isDigit then some (c.toNat - 48)
  else if 'a' ≤ c ∧ c ≤ 'f' then some (c.toNat - 87)
  else if 'A' ≤ c ∧ c ≤ 'F' then some (c.toNat - 55)
  else none

/-- Reads digits from the left onto what has been read so far. -/
def readDigitsFrom (base : Nat) : Nat → List Char → Option Nat
  | value, [] => some value
  | value, c :: rest =>
    match digitOf? c with
    | some digit => if digit < base then readDigitsFrom base (value * base + digit) rest else none
    | none => none

/-- Reads a number that consists of digits only and has at least one. -/
def readDigits (base : Nat) : List Char → Option Nat
  | [] => none
  | text => readDigitsFrom base 0 text

/-- The greatest number of decimal digits that an integer may have, in its text or when written. -/
def maxDigits : Nat := 4300

/-- Reads an integer without a sign. A leading zero announces a base or stands among zeros only. -/
def readNatural (text : List Char) : Option Nat :=
  match text with
  | '0' :: 'x' :: rest | '0' :: 'X' :: rest => readDigits 16 rest
  | '0' :: 'o' :: rest | '0' :: 'O' :: rest => readDigits 8 rest
  | '0' :: 'b' :: rest | '0' :: 'B' :: rest => readDigits 2 rest
  | '0' :: rest =>
    if rest.all (· == '0') && rest.length < maxDigits then some 0 else none
  | _ => if text.length ≤ maxDigits then readDigits 10 text else none

def decimalText (value : Nat) : String := String.ofList (Nat.toDigits 10 value)

def signedText (negative : Bool) (value : Nat) : String :=
  (if negative && value != 0 then "-" else "") ++ decimalText value

/-- The decimal spelling of an integer literal. -/
def integerText? (text : List Char) : Option String :=
  let (negative, digits) := splitSign (bare text)
  match readNatural digits with
  | some value =>
    if (Nat.toDigits 10 value).length ≤ maxDigits then some (signedText negative value) else none
  | none => none

/-- The exponent after a mantissa: nothing, or a mark, a sign and digits. -/
def readExponent : List Char → Option Int
  | [] => some 0
  | c :: rest =>
    if c == 'e' || c == 'E' then
      let (negative, digits) := splitSign rest
      (readDigits 10 digits).map fun value => if negative then -(value : Int) else value
    else none

/-- Reads a decimal without a sign as digits and a power of ten. -/
def readDecimal (text : List Char) : Option (Nat × Int) :=
  let whole := text.takeWhile Char.isDigit
  let rest := text.dropWhile Char.isDigit
  let (fraction, rest) := match rest with
    | '.' :: after => (after.takeWhile Char.isDigit, after.dropWhile Char.isDigit)
    | _ => ([], rest)
  match readDigits 10 (whole ++ fraction), readExponent rest with
  | some digits, some power => some (digits, power - fraction.length)
  | _, _ => none

/-- Reads a decimal, an infinity or not-a-number to the nearest double. -/
def readBinary64 (text : List Char) : Option Binary64 :=
  let (negative, rest) := splitSign (bare text)
  match String.ofList (rest.map Char.toLower) with
  | "inf" | "infinity" => some (.infinite negative)
  | "nan" => some .nan
  | _ => (readDecimal rest).map fun (digits, power) => .ofDecimal negative digits power

/-- The text of a double: integers below `10 ^ 21` in full, all else with the fewest digits. -/
def doubleText (value : Binary64) : String :=
  match value.toInt? with
  | some integer =>
    if integer.natAbs < Nat.pow 10 21 then signedText (integer < 0) integer.natAbs
    else value.render plainStyle
  | none => value.render plainStyle

/-- The decimal spelling of a numeric literal; text that is no number stays as it is. -/
def literalText (raw : String) : String :=
  let text := raw.toList.filter (· != '_')
  match integerText? text with
  | some shown => shown
  | none => match readBinary64 text with
    | some value => doubleText value
    | none => raw

end ApiSections.Number
