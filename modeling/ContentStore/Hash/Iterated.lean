import ContentStore.Bytes.Basic

/-!
Contract: hash functions that compress a padded message block by block.

Owns:
- the description `Scheme` of such a function: chaining state, compression of
  one 64-byte block, spelling of the message length, and the final output;
- the running `Progress`, absorbed one octet at a time, and `finish`.

Absorbing a string in pieces is absorbing their concatenation, because
absorption is a left fold over the octets.

Does not own: the compression of any one hash function.
-/

namespace ContentStore.Hash

/-- An iterated hash function over 64-byte blocks. -/
structure Scheme (State : Type) where
  /-- The chaining state before the first block. -/
  initial : State
  /-- The chaining state after one more block of 64 octets. -/
  compress : State → Bytes → State
  /-- The eight octets that spell the message length in bits. -/
  lengthField : Nat → Bytes
  /-- The digest of a final chaining state. -/
  output : State → Bytes

/-- What a hash function remembers of the octets absorbed so far. -/
structure Progress (State : Type) where
  chain : State
  /-- The octets since the last full block, latest first. -/
  pending : Bytes
  /-- How many octets were absorbed in all. -/
  absorbed : Nat

namespace Scheme

variable {State : Type}

/-- Nothing absorbed yet. -/
def start (scheme : Scheme State) : Progress State :=
  ⟨scheme.initial, [], 0⟩

/-- Absorb one octet, compressing when it completes a block. -/
def absorb (scheme : Scheme State) (progress : Progress State) (octet : UInt8) :
    Progress State :=
  let pending := octet :: progress.pending
  let absorbed := progress.absorbed + 1
  if absorbed % 64 = 0 then
    ⟨scheme.compress progress.chain pending.reverse, [], absorbed⟩
  else
    ⟨progress.chain, pending, absorbed⟩

/-- Absorb a string of octets in order. -/
def update (scheme : Scheme State) (progress : Progress State) (octets : Bytes) :
    Progress State :=
  octets.foldl scheme.absorb progress

/-- The padding after `absorbed` octets: one octet `0x80`, then zeros up to
eight octets before the end of a block, then the length in bits. -/
def padding (scheme : Scheme State) (absorbed : Nat) : Bytes :=
  0x80 :: List.replicate ((119 - absorbed % 64) % 64) 0 ++ scheme.lengthField (8 * absorbed)

/-- The digest of all that was absorbed. -/
def finish (scheme : Scheme State) (progress : Progress State) : Bytes :=
  scheme.output (scheme.update progress (scheme.padding progress.absorbed)).chain

def digest (scheme : Scheme State) (message : Bytes) : Bytes :=
  scheme.finish (scheme.update scheme.start message)

/-- Absorbing two strings in turn is absorbing their concatenation. -/
theorem update_append (scheme : Scheme State) (progress : Progress State)
    (front back : Bytes) :
    scheme.update progress (front ++ back) =
      scheme.update (scheme.update progress front) back :=
  List.foldl_append

end Scheme

end ContentStore.Hash
