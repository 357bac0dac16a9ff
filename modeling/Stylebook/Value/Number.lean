namespace Stylebook

/-- The number `digits * 10 ^ exponent`, with its sign apart for the sake of a negative zero. -/
structure Decimal where
  negative : Bool
  digits : Nat
  exponent : Int
deriving DecidableEq, Repr

inductive Number
  | integer (value : Int)
  | decimal (value : Decimal)
deriving DecidableEq, Repr

/-- The greatest integer, which takes 64 bits. -/
def Number.greatest : Nat := 0xFFFFFFFFFFFFFFFF

/-- The absolute value of the least integer. -/
def Number.least : Nat := 0x8000000000000000

/-- An integer out of range is taken for a decimal, and so is a negative zero. -/
def Number.ofWhole (negative : Bool) (n : Nat) : Number :=
  if negative then
    if n = 0 ∨ Number.least < n then .decimal ⟨true, n, 0⟩ else .integer (-n)
  else if Number.greatest < n then .decimal ⟨false, n, 0⟩
  else .integer n

namespace Decimal

/-- Move the trailing zeros of the digits into the exponent, `fuel` of them at most. -/
def trimZeros : Nat → Nat → Int → Nat × Int
  | 0, digits, exponent => (digits, exponent)
  | fuel + 1, digits, exponent =>
    if digits % 10 = 0 then trimZeros fuel (digits / 10) (exponent + 1) else (digits, exponent)

/-- The same number with no trailing zero among its digits; zero has the exponent zero. -/
def trimmed (d : Decimal) : Decimal :=
  if d.digits = 0 then ⟨d.negative, 0, 0⟩
  else
    let (digits, exponent) := trimZeros (Nat.toDigits 10 d.digits).length d.digits d.exponent
    ⟨d.negative, digits, exponent⟩

/-- How many digits may stand before the point, and zeros after it, until an exponent is used. -/
structure Layout where
  digitsBefore : Int
  zerosAfter : Int

/-- Sixteen digits before the point and four zeros after it. -/
def layout : Layout := ⟨16, 4⟩

/-- An exponent always shows its sign. -/
def exponentText (exponent : Int) : List Char :=
  (if exponent < 0 then '-' else '+') :: Nat.toDigits 10 exponent.natAbs

/-- A decimal always shows a point or an exponent. -/
def text (d : Decimal) : String :=
  let d := d.trimmed
  let digits := Nat.toDigits 10 d.digits
  let point : Int := digits.length + d.exponent
  let zeros (n : Int) : List Char := List.replicate n.toNat '0'
  let body : List Char :=
    if 0 ≤ d.exponent ∧ point ≤ layout.digitsBefore then digits ++ zeros d.exponent ++ ['.', '0']
    else if 0 < point ∧ point ≤ layout.digitsBefore then
      digits.take point.toNat ++ '.' :: digits.drop point.toNat
    else if -layout.zerosAfter ≤ point ∧ point ≤ 0 then '0' :: '.' :: (zeros (-point) ++ digits)
    else
      let exponent := exponentText (point - 1)
      match digits with
      | [] => []
      | [digit] => digit :: 'e' :: exponent
      | digit :: more => digit :: '.' :: (more ++ 'e' :: exponent)
  String.ofList (if d.negative then '-' :: body else body)

end Decimal

def Number.text : Number → String
  | .integer value => toString value
  | .decimal value => value.text

end Stylebook
