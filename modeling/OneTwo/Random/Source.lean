import OneTwo.Random.ChaCha

/-!
A source of random words: some state, how a seed begins it, and how it gives the next word. What is
drawn from a source depends on nothing else.
-/

namespace OneTwo.Random

structure Source where
  State : Type
  ofSeed : UInt64 → State
  next : State → UInt32 × State

def Source.chaCha : Source where
  State := ChaCha.Stream
  ofSeed := ChaCha.Stream.ofSeed
  next := ChaCha.Stream.next

end OneTwo.Random
