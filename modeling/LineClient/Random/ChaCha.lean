import LineClient.Random.Generator

/-!
# ChaCha as a generator

The words of the key stream of ChaCha with twelve rounds, one after the other. The key is made
from a seed of 64 bits by a permuted congruential generator.

* `ChaCha.block`, sixteen words of the key stream;
* `ChaCha.ofSeed`, `ChaCha.generator`.
-/

namespace LineClient

/-- A word rotated to the left. -/
def rotateLeft (w : UInt32) (n : UInt32) : UInt32 := (w <<< n) ||| (w >>> (32 - n))

/-- The key stream of a key: what is left of the current block, and the number of the next one. -/
structure ChaCha where
  key : Vector UInt32 8
  rest : List UInt32
  next : UInt64
  deriving DecidableEq, Repr

namespace ChaCha

/-- The words of a block. -/
abbrev Block := Vector UInt32 16

/-- Mixes four words of a block. -/
def quarterRound (a b c d : Fin 16) (v : Block) : Block :=
  let v := v.set a (v[a] + v[b])
  let v := v.set d (rotateLeft (v[d] ^^^ v[a]) 16)
  let v := v.set c (v[c] + v[d])
  let v := v.set b (rotateLeft (v[b] ^^^ v[c]) 12)
  let v := v.set a (v[a] + v[b])
  let v := v.set d (rotateLeft (v[d] ^^^ v[a]) 8)
  let v := v.set c (v[c] + v[d])
  v.set b (rotateLeft (v[b] ^^^ v[c]) 7)

/-- A round on the columns and a round on the diagonals. -/
def doubleRound (v : Block) : Block :=
  let v := quarterRound 0 4 8 12 v
  let v := quarterRound 1 5 9 13 v
  let v := quarterRound 2 6 10 14 v
  let v := quarterRound 3 7 11 15 v
  let v := quarterRound 0 5 10 15 v
  let v := quarterRound 1 6 11 12 v
  let v := quarterRound 2 7 8 13 v
  quarterRound 3 4 9 14 v

/-- The block before the rounds: four constants, the key, the number of the block, two zeros. -/
def start (key : Vector UInt32 8) (n : UInt64) : Block :=
  #v[0x61707865, 0x3320646E, 0x79622D32, 0x6B206574, key[0], key[1], key[2], key[3], key[4],
    key[5], key[6], key[7], n.toUInt32, (n >>> 32).toUInt32, 0, 0]

/-- A block of the key stream. -/
def block (key : Vector UInt32 8) (n : UInt64) : Block :=
  let v := start key n
  v.zipWith (· + ·) (doubleRound (doubleRound (doubleRound (doubleRound (doubleRound
    (doubleRound v))))))

/-! ## Words -/

/-- The next word of the key stream. -/
def word (s : ChaCha) : UInt32 × ChaCha :=
  match s.rest with
  | w :: rest => (w, { s with rest })
  | [] =>
    match (block s.key s.next).toList with
    | w :: rest => (w, { s with rest, next := s.next + 1 })
    | [] => (0, s)

/-- The words of the key stream, two of them for a word of 64 bits, the lower half first. -/
def generator : Generator ChaCha where
  word32 := word
  word64 s :=
    let (low, s) := word s
    let (high, s) := word s
    (low.toUInt64 ||| (high.toUInt64 <<< 32), s)

/-! ## Seeds -/

/-- One step of the congruential generator: a word, and the next state. -/
def seedStep (state : UInt64) : UInt32 × UInt64 :=
  let state := state * 6364136223846793005 + 11634580027462260723
  let mixed := (((state >>> 18) ^^^ state) >>> 27).toUInt32
  let turn := (state >>> 59).toUInt32
  (if turn = 0 then mixed else rotateLeft mixed (32 - turn), state)

/-- The words that follow from a seed. -/
def seedWords : (count : Nat) → UInt64 → List UInt32
  | 0, _ => []
  | count + 1, state =>
    let (w, state) := seedStep state
    w :: seedWords count state

theorem length_seedWords (count : Nat) (state : UInt64) :
    (seedWords count state).length = count := by
  induction count generalizing state with
  | zero => rfl
  | succ count ih => simp [seedWords, ih]

/-- The key stream of a seed. -/
def ofSeed (seed : UInt64) : ChaCha where
  key := ⟨(seedWords 8 seed).toArray, by simp [length_seedWords]⟩
  rest := []
  next := 0

end ChaCha

end LineClient
