/-!
The ChaCha block function with 20 rounds, and the endless stream of words that a 64-bit seed gives.
The state of the cipher is held as four rows of four words. A column round works on all columns at
once; a diagonal round is a column round between two rotations of the rows.

The stream is described by what is still to come: the words left of the current block, and the
number of the next one.
-/

namespace OneTwo.Random

structure Row where
  a : UInt32
  b : UInt32
  c : UInt32
  d : UInt32

namespace Row

def map (f : UInt32 → UInt32) (x : Row) : Row :=
  ⟨f x.a, f x.b, f x.c, f x.d⟩

def zipWith (f : UInt32 → UInt32 → UInt32) (x y : Row) : Row :=
  ⟨f x.a y.a, f x.b y.b, f x.c y.c, f x.d y.d⟩

def rotate (x : Row) : Row :=
  ⟨x.b, x.c, x.d, x.a⟩

def toList (x : Row) : List UInt32 :=
  [x.a, x.b, x.c, x.d]

end Row

namespace ChaCha

structure Block where
  first : Row
  second : Row
  third : Row
  fourth : Row

def rotateLeft (count : UInt32) (word : UInt32) : UInt32 :=
  word <<< count ||| word >>> (32 - count)

def columnRound (x : Block) : Block :=
  let mix (count : UInt32) (x y : Row) : Row := (Row.zipWith (· ^^^ ·) x y).map (rotateLeft count)
  let add := Row.zipWith (· + ·)
  let first := add x.first x.second
  let fourth := mix 16 x.fourth first
  let third := add x.third fourth
  let second := mix 12 x.second third
  let first := add first second
  let fourth := mix 8 fourth first
  let third := add third fourth
  let second := mix 7 second third
  ⟨first, second, third, fourth⟩

def diagonalRound (x : Block) : Block :=
  let y := columnRound
    ⟨x.first, x.second.rotate, x.third.rotate.rotate, x.fourth.rotate.rotate.rotate⟩
  ⟨y.first, y.second.rotate.rotate.rotate, y.third.rotate.rotate, y.fourth.rotate⟩

def doubleRounds : Nat → Block → Block
  | 0, x => x
  | count + 1, x => doubleRounds count (diagonalRound (columnRound x))

structure Key where
  low : Row
  high : Row

def initial (key : Key) (counter : UInt64) : Block :=
  ⟨⟨0x61707865, 0x3320646e, 0x79622d32, 0x6b206574⟩, key.low, key.high,
    ⟨counter.toUInt32, (counter >>> 32).toUInt32, 0, 0⟩⟩

/-- One block of the stream: the initial state added to what the rounds make of it. -/
def block (key : Key) (counter : UInt64) : Block :=
  let before := initial key counter
  let after := doubleRounds 10 before
  let sum (row : Block → Row) := Row.zipWith (· + ·) (row before) (row after)
  ⟨sum Block.first, sum Block.second, sum Block.third, sum Block.fourth⟩

def Block.afterFirst (x : Block) : List UInt32 :=
  [x.first.b, x.first.c, x.first.d] ++ x.second.toList ++ x.third.toList ++ x.fourth.toList

structure Stream where
  key : Key
  counter : UInt64
  left : List UInt32

namespace Stream

def next (s : Stream) : UInt32 × Stream :=
  match s.left with
  | word :: left => (word, { s with left })
  | [] =>
    let x := block s.key s.counter
    (x.first.a, { s with counter := s.counter + 1, left := x.afterFirst })

/-- One step of the generator that spreads a seed over the words of a key. -/
def spread (seed : UInt64) : UInt32 × UInt64 :=
  let seed := seed * 6364136223846793005 + 11634580027462260723
  let word := (((seed >>> 18) ^^^ seed) >>> 27).toUInt32
  let count := (seed >>> 59).toUInt32
  (rotateLeft (32 - count) word, seed)

def spreadRow (seed : UInt64) : Row × UInt64 :=
  let (a, seed) := spread seed
  let (b, seed) := spread seed
  let (c, seed) := spread seed
  let (d, seed) := spread seed
  (⟨a, b, c, d⟩, seed)

def ofSeed (seed : UInt64) : Stream :=
  let (low, seed) := spreadRow seed
  let (high, _) := spreadRow seed
  ⟨⟨low, high⟩, 0, []⟩

end Stream

end ChaCha

end OneTwo.Random
