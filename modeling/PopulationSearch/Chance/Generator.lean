import PopulationSearch.Chance.Source
import PopulationSearch.Chance.Stream

/-! The seeded generator: a cipher stream keyed from a seed, and the draws made from its words. -/

namespace PopulationSearch

abbrev Generator := ChaCha.Stream

namespace Generator

open ChaCha (Key Row Stream)

def defaultSeed : Nat := 0xD5F1306

def keyWord (state : UInt64) : UInt32 × UInt64 :=
  let state := state * 6364136223846793005 + 11634580027462260723
  let mixed := (((state >>> 18) ^^^ state) >>> 27).toUInt32
  let turn := (state >>> 59).toUInt32
  ((mixed >>> turn) ||| (mixed <<< ((32 - turn) % 32)), state)

def keyRow (state : UInt64) : Row × UInt64 :=
  let (a, state) := keyWord state
  let (b, state) := keyWord state
  let (c, state) := keyWord state
  let (d, state) := keyWord state
  (⟨a, b, c, d⟩, state)

def ofSeed (seed : Nat) : Generator :=
  let (low, state) := keyRow (UInt64.ofNat seed)
  let (high, _) := keyRow state
  Stream.ofKey ⟨low, high⟩

/-- The upper part of a word times `n`. If the lower part comes close to `base`, a second word
decides whether it would carry over. -/
def scaled (base : Nat) (word : Generator → Nat × Generator) (n : Nat) (g : Generator) :
    Nat × Generator :=
  let (w, g) := word g
  let high := w * n / base
  let low := w * n % base
  if base - n < low then
    let (w, g) := word g
    (if base ≤ low + w * n / base then high + 1 else high, g)
  else (high, g)

def index (n : Nat) (g : Generator) : Nat × Generator :=
  if n < UInt32.size then scaled UInt32.size (fun g => (g.word.1.toNat, g.word.2)) n g
  else scaled UInt64.size (fun g => (g.doubleWord.1.toNat, g.doubleWord.2)) n g

def unit (g : Generator) : Float × Generator :=
  let (w, g) := g.doubleWord
  ((w >>> 11).toFloat * Float.ofBits 0x3CA0000000000000, g)

def between (lo hi : Float) (g : Generator) : Float × Generator :=
  let (w, g) := g.doubleWord
  ((w >>> 12).toFloat * Float.ofBits 0x3CB0000000000000 * (hi - lo) + lo, g)

/-- The product `m * (m + 1) * …` as long as it stays below `2 ^ 32`, and the next factor. -/
def chunk (m : Nat) : Nat × Nat :=
  go 32 m (m + 1)
where
  go : Nat → Nat → Nat → Nat × Nat
    | 0, product, factor => (product, factor)
    | fuel + 1, product, factor =>
      if product * factor < UInt32.size then go fuel (product * factor) (factor + 1)
      else (product, factor)

def swapAt (l : List Nat) (i j : Nat) : List Nat :=
  match l[i]?, l[j]? with
  | some x, some y => (l.set i y).set j x
  | _, _ => l

/-- Swaps each place with one not after it. One draw serves `left` more places: it is taken below a
product of their counts and split by division. -/
def shufflePlaces : List Nat → Nat → Nat → List Nat → Generator → List Nat × Generator
  | [], _, _, l, g => (l, g)
  | i :: places, code, left, l, g =>
    let m := i + 1
    let (code, left, g) :=
      if left = 0 then
        let (product, factor) := chunk m
        let (code, g) := index product g
        (code, factor - m, g)
      else (code, left, g)
    if left = 1 then shufflePlaces places code 0 (swapAt l i code) g
    else shufflePlaces places (code / m) (left - 1) (swapAt l i (code % m)) g

def shuffle (l : List Nat) (g : Generator) : List Nat × Generator :=
  if l.length ≤ 1 then (l, g) else shufflePlaces (List.range l.length) 0 1 l g

/-- Adds one number below each bound. A number that is taken already makes way: its place in the
list goes to the greatest number below the bound, which is still free. -/
def sampleBelow : List Nat → List Nat → Generator → List Nat × Generator
  | [], chosen, g => (chosen, g)
  | j :: bounds, chosen, g =>
    let (t, g) := index (j + 1) g
    sampleBelow bounds (chosen.map (fun c => if c = t then j else c) ++ [t]) g

def sample (n amount : Nat) (g : Generator) : List Nat × Generator :=
  sampleBelow (List.range' (n - amount) amount) [] g

instance : Source Generator Float where
  index := index
  unit := unit
  between := between
  shuffle := shuffle
  sample := sample

end Generator
end PopulationSearch
