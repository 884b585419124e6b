import ContentStore.Bytes.Basic

/-!
Contract: the padded base-64 spelling of byte strings.

Owns: the standard alphabet, padding included, and `encode`.
-/

namespace ContentStore.Bytes.Base64

/-- The sixty-four symbols in the order of their values. -/
def alphabet : List Char :=
  "ABCDEFGHIJKLMNOPQRSTUVWXYZabcdefghijklmnopqrstuvwxyz0123456789+/".toList

/-- The symbol of a number below sixty-four. -/
def symbol (number : Nat) : Char :=
  alphabet.getD number '='

/-- Three octets become four symbols; a shorter end is padded with `=`. -/
def encode : Bytes → List Char
  | first :: second :: third :: rest =>
    let group := first.toNat * 65536 + second.toNat * 256 + third.toNat
    symbol (group / 262144) :: symbol (group / 4096 % 64) ::
      symbol (group / 64 % 64) :: symbol (group % 64) :: encode rest
  | [first, second] =>
    let group := first.toNat * 1024 + second.toNat * 4
    [symbol (group / 4096), symbol (group / 64 % 64), symbol (group % 64), '=']
  | [first] =>
    let group := first.toNat * 16
    [symbol (group / 64), symbol (group % 64), '=', '=']
  | [] => []

end ContentStore.Bytes.Base64
