import PopulationSearch.Error

/-! The numbers a search computes with: the operations of doubles and no laws. Doubles are the
instance that runs, an exact field is another one. -/

namespace PopulationSearch

class Scalar (α : Type) extends
    Zero α, One α, Add α, Sub α, Mul α, Div α, Neg α, LT α, LE α, BEq α where
  decidableLT : DecidableLT α
  decidableLE : DecidableLE α
  isFinite : α → Bool
  isNaN : α → Bool
  count : Nat → α
  nearestNat : α → Nat

attribute [reducible, instance] Scalar.decidableLT Scalar.decidableLE

class Power (α : Type) where
  power : α → α → α

instance : Scalar Float where
  zero := 0
  one := 1
  decidableLT := fun a b => Float.decLt a b
  decidableLE := fun a b => Float.decLe a b
  isFinite := Float.isFinite
  isNaN := Float.isNaN
  count := Float.ofNat
  nearestNat := Binary64.nearestNat

instance : Power Float where
  power := Float.pow

namespace Scalar

variable {α : Type} [Scalar α]

/-- The sum from left to right. It starts from negative zero, which changes no summand. -/
def sum (l : List α) : α := l.foldl (· + ·) (-0)

/-- The larger number, the second one on a tie, and the other one if one is no number. -/
def larger (a b : α) : α := if b < a || isNaN b then a else b

def clip (lo hi x : α) : α := if x < lo then lo else if hi < x then hi else x

def infinity : α := 1 / 0

end Scalar

namespace Interval

variable {α : Type} [Scalar α]

def contains (lo hi x : α) : Bool := lo ≤ x && x ≤ hi

def isSound (lo hi : α) : Bool :=
  Scalar.isFinite lo && Scalar.isFinite hi && !(hi < lo) && Scalar.isFinite (hi - lo)

def clamp (lo hi x : α) : Except Fault α :=
  if lo ≤ hi then .ok (Scalar.clip lo hi x) else .error .undefined

end Interval

namespace Requirement

variable {α : Type} [Scalar α]

def atLeast (parameter : Parameter) (least given : Nat) : Except (ConfigError α) Unit :=
  if given < least then .error (.tooSmall parameter least) else .ok ()

def finite (parameter : Parameter) (value : α) : Except (ConfigError α) Unit :=
  if Scalar.isFinite value then .ok () else .error (.notFinite parameter value)

def nonnegative (parameter : Parameter) (value : α) : Except (ConfigError α) Unit :=
  if Scalar.isFinite value ∧ 0 ≤ value then .ok () else .error (.notNonnegative parameter value)

def rate (parameter : Parameter) (value : α) : Except (ConfigError α) Unit :=
  if 0 ≤ value ∧ value ≤ 1 then .ok () else .error (.notRate parameter value)

def share (parameter : Parameter) (value : α) : Except (ConfigError α) Unit :=
  if 0 < value ∧ value ≤ 1 then .ok () else .error (.notShare parameter value)

def configured (checked : Except (ConfigError α) Unit) : Except (Failure α) Unit :=
  match checked with
  | .ok () => .ok ()
  | .error cause => .error (.invalid (.invalidConfig cause))

end Requirement
end PopulationSearch
