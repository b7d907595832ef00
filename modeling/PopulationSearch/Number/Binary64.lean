/-! Doubles as exact dyadic numbers, rounded back to the nearest double, ties to even. -/

namespace PopulationSearch.Binary64

def leadingBit : Nat := 0x10000000000000

structure Magnitude where
  mantissa : Nat
  exponent : Int
  deriving DecidableEq, Repr

def negative (x : Float) : Bool := x.toBits >>> 63 == 1

def magnitude (x : Float) : Magnitude :=
  let field := ((x.toBits >>> 52) &&& 0x7FF).toNat
  let fraction := (x.toBits &&& 0xFFFFFFFFFFFFF).toNat
  if field = 0 then ⟨fraction, -1074⟩ else ⟨leadingBit + fraction, (field : Int) - 1075⟩

def bitLength (n : Nat) : Nat := if n = 0 then 0 else n.log2 + 1

def shiftRounding (n k : Nat) : Nat :=
  let quotient := n >>> k
  let twice := 2 * (n % (1 <<< k))
  if twice < 1 <<< k then quotient
  else if 1 <<< k < twice then quotient + 1
  else quotient + quotient % 2

def nearest (n : Nat) (e : Int) : Float :=
  -- keep 53 bits, but none below the spacing of the smallest doubles
  let shift := max ((bitLength n : Int) - 53) (-1074 - e)
  let kept := if 0 ≤ shift then shiftRounding n shift.toNat else n <<< (-shift).toNat
  if kept = 0 then 0
  else
    let bits := (e + shift + 1074).toNat * leadingBit + kept
    if 0x7FF * leadingBit ≤ bits then Float.ofBits 0x7FF0000000000000
    else Float.ofBits (UInt64.ofNat bits)

def floorSqrt (n : Nat) : Nat :=
  (List.range (bitLength n / 2 + 1)).reverse.foldl
    (fun root bit =>
      let longer := root + 1 <<< bit
      if longer * longer ≤ n then longer else root) 0

/-- The length of the vector `(x, y)`, rounded once. It is infinite as soon as one coordinate is. -/
def norm (x y : Float) : Float :=
  if x.isInf || y.isInf then Float.ofBits 0x7FF0000000000000
  else if x.isNaN || y.isNaN then 0 / 0
  else
    let a := magnitude x
    let b := magnitude y
    let e := min a.exponent b.exponent
    let u := a.mantissa <<< (a.exponent - e).toNat
    let v := b.mantissa <<< (b.exponent - e).toNat
    let square := u * u + v * v
    -- scale the radicand so that its root has bits to spare, then keep a bit for the remainder
    let spare := 60 - bitLength square / 2
    let radicand := square <<< (2 * spare)
    let root := floorSqrt radicand
    nearest (2 * root + if root * root = radicand then 0 else 1) (e - spare - 1)

/-- The nearest whole number, halves upwards, cut to the range of 64-bit words. -/
def nearestNat (x : Float) : Nat :=
  if x.isNaN || x ≤ 0 then 0
  else if x.isInf then UInt64.size - 1
  else
    let m := magnitude x
    let whole :=
      if 0 ≤ m.exponent then m.mantissa <<< m.exponent.toNat
      else (2 * m.mantissa + 1 <<< (-m.exponent).toNat) >>> ((-m.exponent).toNat + 1)
    min whole (UInt64.size - 1)

end PopulationSearch.Binary64
