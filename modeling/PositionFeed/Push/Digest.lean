import PositionFeed.Word

namespace PositionFeed

/-!
# The SHA-1 digest

A message is filled up to whole blocks of sixteen words: a one bit follows it,
then zeros, then its length in bits.  Each block is stretched to eighty words,
and each of these turns a state of five words once.  What the turns of a block
come to is added to the state before them.
-/

namespace Sha1

/-- The words that are turned. -/
structure State where
  /-- The newest word. -/
  first : UInt32
  /-- The word of one turn before. -/
  second : UInt32
  /-- The word of two turns before. -/
  third : UInt32
  /-- The word of three turns before. -/
  fourth : UInt32
  /-- The word of four turns before. -/
  fifth : UInt32
  deriving Repr, DecidableEq

/-- The state before the first block. -/
def State.initial : State :=
  ⟨0x67452301, 0xefcdab89, 0x98badcfe, 0x10325476, 0xc3d2e1f0⟩

/-- The sums of the words of two states. -/
def State.add (state other : State) : State :=
  ⟨state.first + other.first, state.second + other.second,
    state.third + other.third, state.fourth + other.fourth,
    state.fifth + other.fifth⟩

/-- The words of a state, one after the other. -/
def State.bytes (state : State) : List UInt8 :=
  [state.first, state.second, state.third, state.fourth, state.fifth].flatMap
    fun word => Word.toBytes 4 word.toNat

/-- A word whose highest bits were moved to its lower end. -/
def rotate (bits word : UInt32) : UInt32 :=
  word <<< bits ||| word >>> (32 - bits)

/-- What follows a message of so many bytes. -/
def padding (size : Nat) : List UInt8 :=
  0x80 :: List.replicate ((119 - size % 64) % 64) 0 ++ Word.toBytes 8 (8 * size)

/-- The words that bytes spell. -/
def words : List UInt8 → List UInt32
  | first :: second :: third :: fourth :: rest =>
      UInt32.ofNat (Word.ofBytes [first, second, third, fourth]) :: words rest
  | _ => []

/-- Stretches words, the newest of which comes first, by so many. -/
def stretch : Nat → List UInt32 → List UInt32
  | 0, words => words
  | count + 1, words =>
      let word (age : Nat) : UInt32 := words.getD (age - 1) 0
      stretch count (rotate 1 (word 3 ^^^ word 8 ^^^ word 14 ^^^ word 16) :: words)

/-- What the three middle words add to a turn. -/
def mixture (state : State) (turn : Nat) : UInt32 :=
  let ⟨_, second, third, fourth, _⟩ := state
  if turn < 20 then (second &&& third ||| ~~~ second &&& fourth) + 0x5a827999
  else if turn < 40 then (second ^^^ third ^^^ fourth) + 0x6ed9eba1
  else if turn < 60 then
    (second &&& third ||| second &&& fourth ||| third &&& fourth) + 0x8f1bbcdc
  else (second ^^^ third ^^^ fourth) + 0xca62c1d6

/-- One turn, with a word and the number of turns before it. -/
def turn (state : State) (item : UInt32 × Nat) : State :=
  ⟨rotate 5 state.first + mixture state item.2 + state.fifth + item.1,
    state.first, rotate 30 state.second, state.third, state.fourth⟩

/-- The state after a block. -/
def afterBlock (state : State) (block : List UInt32) : State :=
  state.add ((stretch 64 block.reverse).reverse.zipIdx.foldl turn state)

/-- The state after so many blocks. -/
def afterBlocks : Nat → List UInt32 → State → State
  | 0, _, state => state
  | count + 1, words, state =>
      afterBlocks count (words.drop 16) (afterBlock state (words.take 16))

def digest (message : List UInt8) : List UInt8 :=
  let words := words (message ++ padding message.length)
  (afterBlocks (words.length / 16) words .initial).bytes

end Sha1

end PositionFeed
