import PopulationSearch.Number.Binary64

/-! Doubles as decimal text, with the fewest digits that read back as the same double. -/

namespace PopulationSearch

open Binary64 (Magnitude)

structure Decimal where
  digits : Nat
  exponent : Int
  deriving DecidableEq, Repr

namespace Decimal

def tenTo (k : Nat) : Nat := Nat.pow 10 k

def compareDyadic (d : Decimal) (n : Nat) (e : Int) : Ordering :=
  compare ((d.digits * tenTo d.exponent.toNat) <<< (-e).toNat)
    ((n * tenTo (-d.exponent).toNat) <<< e.toNat)

/-- The decimal lies between the midpoints from `m` to its neighbours, which belong to it if its
mantissa is even. Below a power of two the gap is half as wide. -/
def readsBack (m : Magnitude) (d : Decimal) : Bool :=
  let narrow := m.mantissa = Binary64.leadingBit ∧ -1074 < m.exponent
  let lower := compareDyadic d (if narrow then 4 * m.mantissa - 1 else 4 * m.mantissa - 2)
    (m.exponent - 2)
  let upper := compareDyadic d (4 * m.mantissa + 2) (m.exponent - 2)
  let even := m.mantissa % 2 = 0
  (lower = .gt || even && lower = .eq) && (upper = .lt || even && upper = .eq)

def floorOn (m : Magnitude) (exponent : Int) : Nat :=
  (m.mantissa * tenTo (-exponent).toNat) <<< m.exponent.toNat
    / tenTo exponent.toNat <<< (-m.exponent).toNat

def onGrid? (m : Magnitude) (exponent : Int) : Option Decimal :=
  let low : Decimal := ⟨floorOn m exponent, exponent⟩
  let high : Decimal := ⟨low.digits + 1, exponent⟩
  -- the midpoint of the two, in halves of the grid
  let middle : Decimal := ⟨5 * (2 * low.digits + 1), exponent - 1⟩
  let highIsNearer := compareDyadic middle m.mantissa m.exponent != .gt
  if readsBack m high && (highIsNearer || !readsBack m low) then some high
  else if readsBack m low then some low
  else none

def grids : List Int := (List.range 634).map fun (k : Nat) => 309 - (k : Int)

/-- The exact value of `m` stands in where no grid of the list has a decimal that reads back. -/
def shortest (m : Magnitude) : Decimal :=
  (grids.findSome? (onGrid? m)).getD ⟨floorOn m (min m.exponent 0), min m.exponent 0⟩

def positional (d : Decimal) : String :=
  let digits := Nat.toDigits 10 d.digits
  let places := (-d.exponent).toNat
  if 0 ≤ d.exponent then String.ofList (digits ++ List.replicate d.exponent.toNat '0')
  else if places < digits.length then
    let whole := digits.length - places
    String.ofList (digits.take whole ++ '.' :: digits.drop whole)
  else String.ofList ('0' :: '.' :: (List.replicate (places - digits.length) '0' ++ digits))

def text (x : Float) : String :=
  if x.isNaN then "NaN"
  else
    let magnitude :=
      if x.isInf then "inf"
      else if Binary64.magnitude x = ⟨0, -1074⟩ then "0"
      else (shortest (Binary64.magnitude x)).positional
    if Binary64.negative x then "-" ++ magnitude else magnitude

end Decimal
end PopulationSearch
