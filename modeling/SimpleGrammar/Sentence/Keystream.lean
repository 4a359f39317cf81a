/-
The seeded source of draws: the keystream of the ChaCha cipher with twelve rounds.

The 64-bit seed is stretched to a key of eight words by a congruential generator with permuted output. Block `k` of the
stream is the cipher's block function at counter `k` with a zero nonce, and the draws are the sixteen words of each
block in turn. The counter has 64 bits, so the stream ends after 2^64 blocks.
-/
import SimpleGrammar.Sentence.Draws

namespace SimpleGrammar

namespace Keystream

/-! ## The key -/

/-- `x` rotated left by `n` bits -/
def rotateLeft (x n : UInt32) : UInt32 := (x <<< n) ||| (x >>> (32 - n))

/-- `x` rotated right by `n` bits -/
def rotateRight (x n : UInt32) : UInt32 := (x >>> n) ||| (x <<< (32 - n))

/-- the next state of the congruential generator -/
def nextState (s : UInt64) : UInt64 := s * 6364136223846793005 + 11634580027462260723

/-- the word that a state of the generator gives: its upper bits folded, then rotated by its highest five -/
def stateWord (s : UInt64) : UInt32 :=
  rotateRight (((s >>> 18) ^^^ s) >>> 27).toUInt32 (s >>> 59).toUInt32

/-- the key of a seed: the words of the eight states after it -/
def key (seed : UInt64) : Vector UInt32 8 :=
  Vector.ofFn fun i => stateWord (Nat.repeat nextState (i + 1) seed)

/-! ## The block function -/

abbrev Block := Vector UInt32 16

/-- four words of the block added, combined and rotated into each other -/
def quarterRound (b : Block) (i j k l : Fin 16) : Block :=
  let p := b[i] + b[j]
  let s := rotateLeft (b[l] ^^^ p) 16
  let r := b[k] + s
  let q := rotateLeft (b[j] ^^^ r) 12
  let p := p + q
  let s := rotateLeft (s ^^^ p) 8
  let r := r + s
  let q := rotateLeft (q ^^^ r) 7
  (((b.set i p).set j q).set k r).set l s

/-- a round on the columns of the block, read as a square, and one on its diagonals -/
def doubleRound (b : Block) : Block :=
  let b := quarterRound b 0 4 8 12
  let b := quarterRound b 1 5 9 13
  let b := quarterRound b 2 6 10 14
  let b := quarterRound b 3 7 11 15
  let b := quarterRound b 0 5 10 15
  let b := quarterRound b 1 6 11 12
  let b := quarterRound b 2 7 8 13
  quarterRound b 3 4 9 14

/-- the block before the rounds: constants, key, counter and nonce -/
def initial (key : Vector UInt32 8) (counter : UInt64) : Block :=
  #v[0x61707865, 0x3320646e, 0x79622d32, 0x6b206574,
    key[0], key[1], key[2], key[3], key[4], key[5], key[6], key[7],
    counter.toUInt32, (counter >>> 32).toUInt32, 0, 0]

/-- six double rounds, and the words before them added to the words after -/
def block (key : Vector UInt32 8) (counter : UInt64) : Block :=
  let start := initial key counter
  (Nat.repeat doubleRound 6 start).zipWith (· + ·) start

end Keystream

/-- the keystream of `seed` -/
def Draws.seeded (seed : UInt64) : Draws :=
  let key := Keystream.key seed
  ⟨16 * UInt64.size, fun i => (Keystream.block key (i / 16).toUInt64).get (Fin.ofNat 16 i)⟩

end SimpleGrammar
