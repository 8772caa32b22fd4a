import GameText.Text.Decimal

namespace GameText.Text

-- A number that is written with a point or an exponent: its digits, counted in a
-- power of ten, or a word for what no digits say.
inductive Fraction where
  | decimal (negative : Bool) (digits : Nat) (exponent : Int)
  | infinite (negative : Bool)
  | undefined
  deriving DecidableEq, Repr

namespace Fraction

def lies (digits : Nat) (exponent : Int) (low high denominator : Nat) : Bool :=
  let number := digits * Nat.pow 10 exponent.toNat * denominator
  let unit := Nat.pow 10 (-exponent).toNat
  low * unit ≤ number && number ≤ high * unit

-- The binary number of 53 digits that is nearest, where it is a whole number of
-- one decimal digit. Half of the distance to its neighbours belongs to a number;
-- below a power of two they are twice as close.
def rounds (digits : Nat) (exponent : Int) : Nat → Bool
  | 0 => lies digits exponent 0 1 (Nat.pow 2 1075)
  | value =>
    let leading := Nat.pow 2 value.log2
    let unit := Nat.pow 2 54
    let below := if value = leading then leading else 2 * leading
    lies digits exponent (value * unit - below) (value * unit + 2 * leading) unit

-- A number of many places is told to be tiny or large without being counted out.
def whole? (most : Nat) : Fraction → Option (Bool × Nat)
  | decimal negative digits exponent =>
    let places := (natText digits).length + exponent
    if digits = 0 ∨ places < -400 then some (negative,0)
    else if 2 < places then none
    else ((List.range (most + 1)).find? (rounds digits exponent)).bind fun value =>
      if negative ∧ value ≠ 0 then none else some (negative,value)
  | _ => none

def text : Fraction → List Char
  | decimal negative digits exponent =>
    (if negative then ['-'] else []) ++ (natText digits).toList ++ 'e' :: (intText exponent).toList
  | infinite negative => (if negative then ['-'] else []) ++ "Infinity".toList
  | undefined => "NaN".toList

example : whole? 8 (.decimal false 10 (-1)) = some (false,1) ∧ whole? 8 (.decimal false 15 (-1)) = none ∧
    whole? 8 (.decimal false 99999999999999999 (-17)) = some (false,1) ∧
    whole? 8 (.decimal false 9999999999999999 (-16)) = none ∧ whole? 8 (.decimal true 0 (-1)) = some (true,0) := by
  decide +kernel

end Fraction
end GameText.Text
