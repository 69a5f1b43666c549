import CosmosPay.Text.Numeral
import Mathlib.Data.List.DropRight

/-!
# JavaScript's numbers

The operations on `Number` that sums of amounts go through.  `Numbers.exact` computes on
the decimals themselves, and prints them the way ECMAScript prints numbers: with an
exponent below `10 ^ -6` and from `10 ^ 21` on.
-/

namespace Text

/-- An arithmetic of `Number`. -/
structure Numbers where
  Value : Type
  ofNat : Nat → Value
  /-- `Number(text)` -/
  number : String → Value
  /-- `Number.isFinite` -/
  isFinite : Value → Bool
  isNaN : Value → Bool
  add : Value → Value → Value
  mul : Value → Value → Value
  div : Value → Value → Value
  /-- `Math.round` -/
  round : Value → Value
  /-- `Number(value.toFixed(7))` -/
  toFixed : Value → Value
  toString : Value → String
  less : Value → Value → Bool

/-! ## Printing -/

/-- The digits of a number without the zeros at the end. -/
def significant (count : Nat) : List Char :=
  (Nat.toDigits 10 count).rdropWhile (· = '0')

/-- One digit before the point, and an exponent. -/
def scientific (digits : List Char) (exponent : Int) : List Char :=
  digits.take 1 ++ (if digits.length = 1 then [] else '.' :: digits.drop 1) ++
    'e' :: (if exponent < 0 then '-' else '+') :: Nat.toDigits 10 exponent.natAbs

/-- `Number::toString` on `digits * 10 ^ (point - digits.length)`. -/
def decimalNotation (digits : List Char) (point : Int) : List Char :=
  if digits.length ≤ point ∧ point ≤ 21 then
    digits ++ List.replicate (point - digits.length).toNat '0'
  else if 0 < point ∧ point ≤ 21 then
    digits.take point.toNat ++ '.' :: digits.drop point.toNat
  else if -6 < point ∧ point ≤ 0 then
    '0' :: '.' :: (List.replicate (-point).toNat '0' ++ digits)
  else scientific digits (point - 1)

/-- A count of units of `10 ^ -places`, printed as a number. -/
def numberText (places count : Nat) : String :=
  if count = 0 then "0"
  else String.ofList (decimalNotation (significant count)
    ((Nat.toDigits 10 count).length - places))

/-! ## Reading -/

/-- `e+21` and `e-7`; nothing stands for the exponent zero. -/
def exponent? : List Char → Option Int
  | [] => some 0
  | 'e' :: '+' :: digits => if IsNumeral (.ofList digits) then some (Nat.ofDigitChars 10 digits 0)
      else none
  | 'e' :: '-' :: digits => if IsNumeral (.ofList digits) then some (-Nat.ofDigitChars 10 digits 0)
      else none
  | _ => none

/-- The value of a decimal, with or without an exponent. -/
def decimalValue (text : String) : Option Rat :=
  (decimalDigits (.ofList (text.toList.takeWhile (· ≠ 'e')))).bind fun (digits, places) =>
    (exponent? (text.toList.dropWhile (· ≠ 'e'))).map fun exponent =>
      ((Nat.ofDigitChars 10 digits 0 * 10 ^ exponent.toNat : Nat) : Rat) /
        (10 ^ (places + (-exponent).toNat) : Nat)

/-! ## Exact arithmetic -/

/-- Rational numbers, and `NaN`. -/
def Numbers.exact : Numbers where
  Value := Option Rat
  ofNat count := some count
  number := decimalValue
  isFinite := Option.isSome
  isNaN := Option.isNone
  add first second := first.bind fun first => second.map (first + ·)
  mul first second := first.bind fun first => second.map (first * ·)
  div first second := first.bind fun first => (second.filter (· ≠ 0)).map (first / ·)
  round value := value.map fun value => ((value + 1 / 2).floor : Rat)
  toFixed value := value.map fun value => ((value * 10 ^ 7 + 1 / 2).floor : Rat) / 10 ^ 7
  toString
    | some value => numberText 7 (value * 10 ^ 7).floor.toNat
    | none => "NaN"
  less
    | some first, some second => first < second
    | _, _ => false

namespace Numbers

/-- An exact number. -/
def ofRat (value : Rat) : Numbers.exact.Value :=
  some value

theorem exact_ofNat (count : Nat) : Numbers.exact.ofNat count = ofRat count :=
  rfl

theorem exact_add (first second : Rat) :
    Numbers.exact.add (ofRat first) (ofRat second) = ofRat (first + second) :=
  rfl

theorem exact_number {text : String} {value : Rat} (isValue : decimalValue text = some value) :
    Numbers.exact.number text = ofRat value := by
  simp only [exact, ofRat, isValue]

theorem exact_isFinite (text : String) :
    Numbers.exact.isFinite (Numbers.exact.number text) = (decimalValue text).isSome := by
  simp only [exact]

theorem exact_isNaN (text : String) :
    Numbers.exact.isNaN (Numbers.exact.number text) = (decimalValue text).isNone := by
  simp only [exact]

end Numbers

example : Numbers.exact.toString (Numbers.exact.number "0.0000001") = "1e-7" := by
  decide +kernel

example : Numbers.exact.toString (Numbers.exact.number "25.50") = "25.5" := by
  decide +kernel

end Text
