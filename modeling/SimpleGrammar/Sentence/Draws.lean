/-
Sources of random draws.

A source answers for every position with a 32-bit word. It has a length, and beyond it every draw is zero; the zero draw
settles any choice, so a reader of draws never waits for ever. Reading a source changes nothing: who reads keeps the
position.
-/
namespace SimpleGrammar

structure Draws where
  /-- how many draws there are before the zeros -/
  length : Nat
  /-- the draws by position, meaningful below `length` -/
  word : Nat → UInt32

namespace Draws

/-- the draw at a position -/
def get (d : Draws) (position : Nat) : UInt32 :=
  if position < d.length then d.word position else 0

/-- the given words, then zeros -/
def ofList (words : List UInt32) : Draws :=
  let table := words.toArray
  ⟨table.size, fun i => table.getD i 0⟩

end Draws

end SimpleGrammar
