import Mathlib.Algebra.Order.Ring.Nat
import Mathlib.Data.List.DropRight
import Mathlib.Tactic.Common

/-!
# Numbers as text

The text of an integer in the format `%.14g`, and the number that a text spells: a decimal or a
hexadecimal numeral with a fraction and an exponent, which is rounded to 53 significant bits and cut to
an integer.
-/

namespace Numeral

/-! ### Rounding -/

/-- The integer next to a fraction, the even one of two. -/
def roundHalfEven (num den : Nat) : Nat :=
  let r := 2 * (num % den)
  if den < r ∨ r = den ∧ num / den % 2 = 1 then num / den + 1 else num / den

/-- The number of binary digits. -/
def bitCount (n : Nat) : Nat := if n = 0 then 0 else n.log2 + 1

/-- The integer part of the number with 53 significant bits that is next to a fraction. -/
def truncDouble (num den : Nat) : Nat :=
  let bits := bitCount (num / den)
  if bits ≤ 53 then roundHalfEven (num * 2 ^ (53 - bits)) den / 2 ^ (53 - bits)
  else roundHalfEven num (den * 2 ^ (bits - 53)) * 2 ^ (bits - 53)

/-! ### Writing -/

/-- The decimal digits of a number. -/
def digits (n : Nat) : List UInt8 := (Nat.toDigits 10 n).map fun c => UInt8.ofNat c.toNat

/-- `%.14g` of an integer: its digits if there are 14 at most, else 14 digits of it with an exponent
and without the zeros at their end. -/
def format (n : Int) : List UInt8 :=
  let sign : List UInt8 := if n < 0 then [45] else []
  let len := (digits n.natAbs).length
  if len ≤ 14 then sign ++ digits n.natAbs
  else
    let rounded := roundHalfEven n.natAbs (10 ^ (len - 14))
    let exponent := if rounded = 10 ^ 14 then len else len - 1
    let mantissa := (digits rounded).rdropWhile (· = 48)
    let fraction : List UInt8 := if mantissa.length ≤ 1 then [] else 46 :: mantissa.drop 1
    sign ++ mantissa.take 1 ++ fraction ++ [101, 43] ++ digits exponent

/-! ### Reading -/

/-- `isspace`. -/
def isSpace (c : UInt8) : Bool := c = 32 || 9 ≤ c && c ≤ 13

/-- The value of a digit or a letter, upper or lower case. -/
def digitValue (c : UInt8) : Nat :=
  if 48 ≤ c ∧ c ≤ 57 then c.toNat - 48
  else if 65 ≤ c ∧ c ≤ 90 then c.toNat - 55
  else if 97 ≤ c ∧ c ≤ 122 then c.toNat - 87
  else 36

/-- The digits of a base at the start of a text, and the rest. -/
def scanDigits (base : Nat) (s : List UInt8) : List UInt8 × List UInt8 :=
  s.span fun c => digitValue c < base

def digitsValue (base : Nat) (ds : List UInt8) : Nat :=
  ds.foldl (fun acc c => acc * base + digitValue c) 0

/-- A sign, if there is one. -/
def scanSign : List UInt8 → Bool × List UInt8
  | 43 :: s => (false, s)
  | 45 :: s => (true, s)
  | s => (false, s)

/-- The sign and the digits behind the mark of an exponent, a letter. -/
def scanExponent (mark : UInt8) : List UInt8 → Option (Bool × Nat × List UInt8)
  | [] => none
  | c :: s =>
    let (neg, s) := scanSign s
    let (ds, rest) := scanDigits 10 s
    if digitValue c = digitValue mark ∧ ds ≠ [] then some (neg, digitsValue 10 ds, rest) else none

/-- A numeral as a fraction, and the rest of the text. -/
def scanNumeral (base expBase : Nat) (mark : UInt8) (s : List UInt8) :
    Option (Nat × Nat × List UInt8) :=
  let (whole, s) := scanDigits base s
  let (frac, s) := match s with
    | 46 :: t => scanDigits base t
    | s => ([], s)
  let num := digitsValue base (whole ++ frac)
  let den := base ^ frac.length
  if whole ++ frac = [] then none
  else match scanExponent mark s with
    | some (false, e, rest) => some (num * expBase ^ e, den, rest)
    | some (true, e, rest) => some (num, den * expBase ^ e, rest)
    | none => some (num, den, s)

/-- A hexadecimal numeral after `0x`, else a decimal one. -/
def scanPrefixed : List UInt8 → Option (Nat × Nat × List UInt8)
  | 48 :: 120 :: s => scanNumeral 16 2 112 s
  | 48 :: 88 :: s => scanNumeral 16 2 112 s
  | s => scanNumeral 10 10 101 s

/-- The integer part of the number that a text up to its first zero spells, with spaces around it; zero
if it spells none or one that does not fit 64 bits. -/
def read (s : List UInt8) : Int :=
  let (neg, s) := scanSign ((s.takeWhile (· ≠ 0)).dropWhile isSpace)
  match scanPrefixed s with
  | some (num, den, rest) =>
    let n := truncDouble num den
    if rest.all isSpace && decide (n < 2 ^ 63) then (if neg then -n else n) else 0
  | none => 0

-- " -12.75e1 "
example : read [32, 45, 49, 50, 46, 55, 53, 101, 49, 32] = -127 := by decide

-- 123456789012345678 is 1.2345678901235e+17
example : format 123456789012345678 =
    [49, 46, 50, 51, 52, 53, 54, 55, 56, 57, 48, 49, 50, 51, 53, 101, 43, 49, 55] := by decide

end Numeral
