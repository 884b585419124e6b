import ContentStore.Bytes.Basic

/-!
Contract: the lines of a byte string.

Owns: `lines`, which ends a line at each line feed, drops one carriage return
before it, and yields no empty line after the last line feed.
-/

namespace ContentStore.Text

def withoutReturn (line : Bytes) : Bytes :=
  if line.getLast? = some 0x0d then line.dropLast else line

/-- The lines of a byte string; `current` holds the octets of the line that is
being read, latest first. -/
def linesFrom (current : Bytes) : Bytes → List Bytes
  | [] => if current.isEmpty then [] else [current.reverse]
  | octet :: rest =>
    if octet = 0x0a then withoutReturn current.reverse :: linesFrom [] rest
    else linesFrom (octet :: current) rest

def lines (octets : Bytes) : List Bytes :=
  linesFrom [] octets

end ContentStore.Text
