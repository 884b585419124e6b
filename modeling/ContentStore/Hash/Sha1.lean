import ContentStore.Hash.Iterated

/-!
Contract: the SHA-1 message digest and the keyed digest HMAC-SHA1.

Owns:
- the five-word chaining state, the message schedule and the 80 rounds;
- `digest`, twenty octets, and `authenticate`, the keyed form.
-/

namespace ContentStore.Hash.Sha1

/-- The five words that are carried from block to block. -/
structure Words where
  a : UInt32
  b : UInt32
  c : UInt32
  d : UInt32
  e : UInt32
deriving DecidableEq, Repr

/-- The chaining state before the first block. -/
def initial : Words :=
  ⟨0x67452301, 0xefcdab89, 0x98badcfe, 0x10325476, 0xc3d2e1f0⟩

/-- The words of a block, four octets each, most significant first. -/
def blockWords : Bytes → List UInt32
  | first :: second :: third :: fourth :: rest =>
    ((first.toUInt32 <<< 24) ||| (second.toUInt32 <<< 16) ||| (third.toUInt32 <<< 8) |||
      fourth.toUInt32) :: blockWords rest
  | _ => []

def rotateLeft (word amount : UInt32) : UInt32 :=
  (word <<< amount) ||| (word >>> (32 - amount))

/-- The message schedule: the sixteen words of the block, then each word the
rotated exclusive or of four earlier ones. -/
def schedule (block : Bytes) : Array UInt32 :=
  (List.range 64).foldl
    (fun words _ =>
      let earlier (distance : Nat) := words.getD (words.size - distance) 0
      words.push (rotateLeft (earlier 3 ^^^ earlier 8 ^^^ earlier 14 ^^^ earlier 16) 1))
    (blockWords block).toArray

/-- The Boolean function of a round. -/
def mix (number : Nat) (b c d : UInt32) : UInt32 :=
  if number < 20 then (b &&& c) ||| ((~~~b) &&& d)
  else if number < 40 then b ^^^ c ^^^ d
  else if number < 60 then (b &&& c) ||| (b &&& d) ||| (c &&& d)
  else b ^^^ c ^^^ d

def constant (number : Nat) : UInt32 :=
  if number < 20 then 0x5a827999
  else if number < 40 then 0x6ed9eba1
  else if number < 60 then 0x8f1bbcdc
  else 0xca62c1d6

/-- One round over the message schedule. -/
def step (words : Array UInt32) (state : Words) (number : Nat) : Words :=
  let sum := rotateLeft state.a 5 + mix number state.b state.c state.d + state.e +
    constant number + words.getD number 0
  ⟨sum, state.a, rotateLeft state.b 30, state.c, state.d⟩

/-- The chaining state after one more block. -/
def compress (state : Words) (block : Bytes) : Words :=
  let mixed := (List.range 80).foldl (step (schedule block)) state
  ⟨state.a + mixed.a, state.b + mixed.b, state.c + mixed.c, state.d + mixed.d,
    state.e + mixed.e⟩

/-- The twenty octets of a chaining state. -/
def output (state : Words) : Bytes :=
  [state.a, state.b, state.c, state.d, state.e].flatMap fun word =>
    Bytes.bigEndian 4 word.toNat

/-- SHA-1 as an iterated hash function. -/
def scheme : Scheme Words where
  initial := initial
  compress := compress
  lengthField := fun bits => Bytes.bigEndian 8 bits
  output := output

/-- The SHA-1 digest of a message. -/
def digest (message : Bytes) : Bytes :=
  scheme.digest message

/-- Every digest has twenty octets. -/
@[simp]
theorem length_digest (message : Bytes) : (digest message).length = 20 := by
  simp [digest, Scheme.digest, Scheme.finish, scheme, output]

/-- The key of one block: a longer one is hashed first, a shorter one is
filled up with zeros. -/
def blockKey (key : Bytes) : Bytes :=
  let short := if key.length ≤ 64 then key else digest key
  short ++ List.replicate (64 - short.length) 0

/-- The HMAC-SHA1 of a message under a key. -/
def authenticate (key message : Bytes) : Bytes :=
  let inner := (blockKey key).map (· ^^^ 0x36)
  let outer := (blockKey key).map (· ^^^ 0x5c)
  digest (outer ++ digest (inner ++ message))

end ContentStore.Hash.Sha1
