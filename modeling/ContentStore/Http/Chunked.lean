import ContentStore.Bytes.Hex
import ContentStore.Http.Message

/-!
Contract: bodies that are sent in chunks.

A chunk is its length in hexadecimal on a line of its own, its octets, and a
line end.  A chunk of length zero is the last one; lines with further headers
may follow it up to an empty line.

Owns:
- `sizeLine?`, which reads the line with a length; what follows a semicolon on
  it is passed over;
- `endsWell`, whether the lines after the last chunk are headers and end with
  an empty line;
- `read`, the octets of a body and whether the body was complete.
-/

namespace ContentStore.Http.Chunked

def carriageReturn : UInt8 := 0x0d

def lineFeed : UInt8 := 0x0a

def symbolOf (octet : UInt8) : Char :=
  Char.ofNat octet.toNat

def digit? (octet : UInt8) : Option Nat :=
  Bytes.Hex.value? (symbolOf octet)

def isBlank (octet : UInt8) : Bool :=
  octet == 0x20 || octet == 0x09

/-- Lengths are 64-bit words. -/
def sizeLimit : Nat := Nat.pow 2 64

def dropExtension : Bytes → Bytes
  | 0x3b :: rest => rest.dropWhile fun octet => octet != carriageReturn && octet != lineFeed
  | octets => octets

/-- The length on a line, and what follows the line. -/
def sizeLine? (octets : Bytes) : Option (Nat × Bytes) :=
  let digits := octets.takeWhile fun octet => (digit? octet).isSome
  let size := (digits.filterMap digit?).foldl (fun total value => total * 16 + value) 0
  let rest := (octets.dropWhile fun octet => (digit? octet).isSome).dropWhile isBlank
  match dropExtension rest with
  | 0x0d :: 0x0a :: rest =>
    if digits.isEmpty ∨ sizeLimit ≤ size then none else some (size, rest)
  | _ => none

def isHeaderLine (line : Bytes) : Bool :=
  let symbols := line.map symbolOf
  Header.isName (String.ofList (symbols.takeWhile (· != ':'))) && symbols.contains ':' &&
    Header.isValue (String.ofList ((symbols.dropWhile (· != ':')).drop 1))

/-- Whether octets consist of headers up to an empty line; `current` holds the
octets of the line that is being read, latest first. -/
def endsWell (current : Bytes) : Bytes → Bool
  | [] => false
  | [_] => false
  | 0x0d :: 0x0a :: rest =>
    current.isEmpty || (isHeaderLine current.reverse && endsWell [] rest)
  | 0x0d :: _ => false
  | octet :: rest => endsWell (octet :: current) rest

/-- Dropping a class of octets lengthens nothing. -/
theorem length_dropWhile_le (isDropped : UInt8 → Bool) (octets : Bytes) :
    (octets.dropWhile isDropped).length ≤ octets.length :=
  (List.dropWhile_sublist isDropped).length_le

/-- Dropping an extension lengthens nothing. -/
theorem length_dropExtension_le (octets : Bytes) :
    (dropExtension octets).length ≤ octets.length := by
  unfold dropExtension
  split
  · exact Nat.le_succ_of_le (length_dropWhile_le _ _)
  · exact Nat.le_refl _

private theorem length_sizeLine_lt {octets rest : Bytes} {size : Nat}
    (found : sizeLine? octets = some (size, rest)) : rest.length < octets.length := by
  simp only [sizeLine?] at found
  split at found
  · rename_i line
    split at found
    · simp at found
    · simp only [Option.some.injEq, Prod.mk.injEq] at found
      obtain ⟨_, rfl⟩ := found
      have afterExtension := congrArg List.length line
      simp only [List.length_cons] at afterExtension
      have extension := length_dropExtension_le
        ((octets.dropWhile fun octet => (digit? octet).isSome).dropWhile isBlank)
      have blanks := length_dropWhile_le isBlank
        (octets.dropWhile fun octet => (digit? octet).isSome)
      have digits := length_dropWhile_le (fun octet => (digit? octet).isSome) octets
      omega
  · simp at found

/-- The octets of a body in chunks, and whether the body was complete. -/
def read (octets : Bytes) : Bytes × Bool :=
  match found : sizeLine? octets with
  | none => ([], false)
  | some (0, rest) => ([], endsWell [] rest)
  | some (size + 1, rest) =>
    match line : rest.drop (size + 1) with
    | 0x0d :: 0x0a :: later =>
      have : later.length < octets.length := by
        have shorter := length_sizeLine_lt found
        have dropped := congrArg List.length line
        simp only [List.length_drop, List.length_cons] at dropped
        omega
      let (content, isComplete) := read later
      (rest.take (size + 1) ++ content, isComplete)
    | _ => (rest.take (size + 1), false)
termination_by octets.length
decreasing_by all_goals assumption

end ContentStore.Http.Chunked
