/-! The key stream of the ChaCha cipher with eight rounds, block by block. -/

namespace PopulationSearch.ChaCha

structure Row where
  a : UInt32
  b : UInt32
  c : UInt32
  d : UInt32
  deriving DecidableEq, Repr

namespace Row

def add (x y : Row) : Row := ⟨x.a + y.a, x.b + y.b, x.c + y.c, x.d + y.d⟩

def xor (x y : Row) : Row := ⟨x.a ^^^ y.a, x.b ^^^ y.b, x.c ^^^ y.c, x.d ^^^ y.d⟩

def rotateBits (k : UInt32) (x : Row) : Row :=
  let turn (w : UInt32) : UInt32 := (w <<< k) ||| (w >>> (32 - k))
  ⟨turn x.a, turn x.b, turn x.c, turn x.d⟩

def rotateWords (x : Row) : Row := ⟨x.b, x.c, x.d, x.a⟩

def toList (x : Row) : List UInt32 := [x.a, x.b, x.c, x.d]

end Row

structure Square where
  first : Row
  second : Row
  third : Row
  fourth : Row
  deriving DecidableEq, Repr

namespace Square

def add (x y : Square) : Square :=
  ⟨x.first.add y.first, x.second.add y.second, x.third.add y.third, x.fourth.add y.fourth⟩

def toList (x : Square) : List UInt32 :=
  x.first.toList ++ x.second.toList ++ x.third.toList ++ x.fourth.toList

def columnRound (x : Square) : Square :=
  let a := x.first.add x.second
  let d := (x.fourth.xor a).rotateBits 16
  let c := x.third.add d
  let b := (x.second.xor c).rotateBits 12
  let a := a.add b
  let d := (d.xor a).rotateBits 8
  let c := c.add d
  let b := (b.xor c).rotateBits 7
  ⟨a, b, c, d⟩

def doubleRound (x : Square) : Square :=
  let y := x.columnRound
  let z := columnRound ⟨y.first, y.second.rotateWords, y.third.rotateWords.rotateWords,
    y.fourth.rotateWords.rotateWords.rotateWords⟩
  ⟨z.first, z.second.rotateWords.rotateWords.rotateWords, z.third.rotateWords.rotateWords,
    z.fourth.rotateWords⟩

end Square

structure Key where
  low : Row
  high : Row
  deriving DecidableEq, Repr

def block (key : Key) (number : UInt64) : List UInt32 :=
  let start : Square :=
    ⟨⟨0x61707865, 0x3320646e, 0x79622d32, 0x6b206574⟩, key.low, key.high,
      ⟨number.toUInt32, (number >>> 32).toUInt32, 0, 0⟩⟩
  (start.doubleRound.doubleRound.doubleRound.doubleRound.add start).toList

structure Stream where
  key : Key
  next : UInt64
  pending : List UInt32
  deriving DecidableEq, Repr

namespace Stream

def ofKey (key : Key) : Stream := ⟨key, 0, []⟩

def word (s : Stream) : UInt32 × Stream :=
  match s.pending with
  | w :: rest => (w, { s with pending := rest })
  | [] =>
    match block s.key s.next with
    | w :: rest => (w, ⟨s.key, s.next + 1, rest⟩)
    | [] => (0, s)

def doubleWord (s : Stream) : UInt64 × Stream :=
  let (low, s) := s.word
  let (high, s) := s.word
  ((high.toUInt64 <<< 32) ||| low.toUInt64, s)

end Stream
end PopulationSearch.ChaCha
