import ContentStore.Hash.Iterated

/-!
Contract: the MD5 message digest.

Owns: the four-word chaining state, the 64 rounds, and `digest`, which always
has sixteen octets.
-/

namespace ContentStore.Hash.Md5

/-- The four words that are carried from block to block. -/
structure Words where
  a : UInt32
  b : UInt32
  c : UInt32
  d : UInt32
deriving DecidableEq, Repr

/-- The chaining state before the first block. -/
def initial : Words :=
  ⟨0x67452301, 0xefcdab89, 0x98badcfe, 0x10325476⟩

def constants : List UInt32 :=
  [0xd76aa478, 0xe8c7b756, 0x242070db, 0xc1bdceee, 0xf57c0faf, 0x4787c62a, 0xa8304613, 0xfd469501,
   0x698098d8, 0x8b44f7af, 0xffff5bb1, 0x895cd7be, 0x6b901122, 0xfd987193, 0xa679438e, 0x49b40821,
   0xf61e2562, 0xc040b340, 0x265e5a51, 0xe9b6c7aa, 0xd62f105d, 0x02441453, 0xd8a1e681, 0xe7d3fbc8,
   0x21e1cde6, 0xc33707d6, 0xf4d50d87, 0x455a14ed, 0xa9e3e905, 0xfcefa3f8, 0x676f02d9, 0x8d2a4c8a,
   0xfffa3942, 0x8771f681, 0x6d9d6122, 0xfde5380c, 0xa4beea44, 0x4bdecfa9, 0xf6bb4b60, 0xbebfbc70,
   0x289b7ec6, 0xeaa127fa, 0xd4ef3085, 0x04881d05, 0xd9d4d039, 0xe6db99e5, 0x1fa27cf8, 0xc4ac5665,
   0xf4292244, 0x432aff97, 0xab9423a7, 0xfc93a039, 0x655b59c3, 0x8f0ccc92, 0xffeff47d, 0x85845dd1,
   0x6fa87e4f, 0xfe2ce6e0, 0xa3014314, 0x4e0811a1, 0xf7537e82, 0xbd3af235, 0x2ad7d2bb, 0xeb86d391]

/-- The left rotations, a pattern of four for each sixteen rounds. -/
def rotations : List (List UInt32) :=
  [[7, 12, 17, 22], [5, 9, 14, 20], [4, 11, 16, 23], [6, 10, 15, 21]]

/-- What one round adds, by how much it rotates and which word it reads. -/
structure Round where
  number : Nat
  constant : UInt32
  rotation : UInt32
  wordIndex : Nat

/-- The word that a round reads: each sixteen rounds walk the block in their
own stride. -/
def wordIndexOf (number : Nat) : Nat :=
  if number < 16 then number
  else if number < 32 then (5 * number + 1) % 16
  else if number < 48 then (3 * number + 5) % 16
  else 7 * number % 16

/-- The 64 rounds in order. -/
def rounds : List Round :=
  constants.zipIdx.map fun (constant, number) =>
    ⟨number, constant, (rotations.getD (number / 16) []).getD (number % 4) 0, wordIndexOf number⟩

/-- The words of a block, four octets each, least significant first. -/
def blockWords : Bytes → List UInt32
  | first :: second :: third :: fourth :: rest =>
    (first.toUInt32 ||| (second.toUInt32 <<< 8) ||| (third.toUInt32 <<< 16) |||
      (fourth.toUInt32 <<< 24)) :: blockWords rest
  | _ => []

def rotateLeft (word amount : UInt32) : UInt32 :=
  (word <<< amount) ||| (word >>> (32 - amount))

/-- The Boolean function of a round. -/
def mix (number : Nat) (b c d : UInt32) : UInt32 :=
  if number < 16 then (b &&& c) ||| ((~~~b) &&& d)
  else if number < 32 then (d &&& b) ||| ((~~~d) &&& c)
  else if number < 48 then b ^^^ c ^^^ d
  else c ^^^ (b ||| (~~~d))

def step (block : Array UInt32) (words : Words) (round : Round) : Words :=
  let sum := words.a + mix round.number words.b words.c words.d + round.constant +
    block.getD round.wordIndex 0
  ⟨words.d, words.b + rotateLeft sum round.rotation, words.b, words.c⟩

/-- The chaining state after one more block. -/
def compress (words : Words) (block : Bytes) : Words :=
  let mixed := rounds.foldl (step (blockWords block).toArray) words
  ⟨words.a + mixed.a, words.b + mixed.b, words.c + mixed.c, words.d + mixed.d⟩

/-- The sixteen octets of a chaining state. -/
def output (words : Words) : Bytes :=
  [words.a, words.b, words.c, words.d].flatMap fun word => Bytes.littleEndian 4 word.toNat

/-- MD5 as an iterated hash function. -/
def scheme : Scheme Words where
  initial := initial
  compress := compress
  lengthField := fun bits => Bytes.littleEndian 8 bits
  output := output

/-- The MD5 digest of a message. -/
def digest (message : Bytes) : Bytes :=
  scheme.digest message

/-- Every digest has sixteen octets. -/
@[simp]
theorem length_output (words : Words) : (output words).length = 16 := by
  simp [output]

@[simp]
theorem length_finish (progress : Progress Words) : (scheme.finish progress).length = 16 :=
  length_output _

@[simp]
theorem length_digest (message : Bytes) : (digest message).length = 16 :=
  length_output _

end ContentStore.Hash.Md5
