import ContentStore.Bytes.Base64
import Mathlib.Data.List.GetD
import Mathlib.Data.List.Nodup

/-!
Contract: base-64 spellings stand for one byte string each.

Owns: `encode_injective`, from the symbols of one group of octets.

Does not own: which spellings there are.
-/

namespace ContentStore.Bytes.Base64

variable {number other group group' : Nat} {first second third first' second' third' : UInt8}

/-! ## Symbols -/

private theorem symbol_eq_getElem (small : number < alphabet.length) :
    symbol number = alphabet[number] :=
  List.getD_eq_getElem alphabet '=' small

private theorem length_alphabet : alphabet.length = 64 := by decide

private theorem symbol_injective (small : number < 64) (otherSmall : other < 64)
    (same : symbol number = symbol other) : number = other := by
  have distinct : alphabet.Nodup := by decide
  rw [← length_alphabet] at small otherSmall
  rw [symbol_eq_getElem small, symbol_eq_getElem otherSmall] at same
  exact (distinct.getElem_inj_iff).mp same

/-- The padding is not the symbol of any number. -/
theorem symbol_ne_padding (small : number < 64) : symbol number ≠ '=' := by
  have unused : '=' ∉ alphabet := by decide
  rw [← length_alphabet] at small
  rw [symbol_eq_getElem small]
  intro same
  exact unused (same ▸ List.getElem_mem small)

/-! ## Groups of octets -/

/-- Three octets are determined by the four digits of the number that they spell. -/
theorem octets_of_symbols (spelt : group = first.toNat * 65536 + second.toNat * 256 + third.toNat)
    (spelt' : group' = first'.toNat * 65536 + second'.toNat * 256 + third'.toNat)
    (same₁ : symbol (group / 262144) = symbol (group' / 262144))
    (same₂ : symbol (group / 4096 % 64) = symbol (group' / 4096 % 64))
    (same₃ : symbol (group / 64 % 64) = symbol (group' / 64 % 64))
    (same₄ : symbol (group % 64) = symbol (group' % 64)) :
    first = first' ∧ second = second' ∧ third = third' := by
  have bounds := And.intro first.toNat_lt (And.intro second.toNat_lt third.toNat_lt)
  have bounds' := And.intro first'.toNat_lt (And.intro second'.toNat_lt third'.toNat_lt)
  have digit₁ := symbol_injective (by omega) (by omega) same₁
  have digit₂ := symbol_injective (by omega) (by omega) same₂
  have digit₃ := symbol_injective (by omega) (by omega) same₃
  have digit₄ := symbol_injective (by omega) (by omega) same₄
  have groups : group = group' := by omega
  refine ⟨UInt8.toNat_inj.mp ?_, UInt8.toNat_inj.mp ?_, UInt8.toNat_inj.mp ?_⟩ <;> omega

/-- Two octets at the end are determined by three digits. -/
theorem octets_of_three_symbols (spelt : group = first.toNat * 1024 + second.toNat * 4)
    (spelt' : group' = first'.toNat * 1024 + second'.toNat * 4)
    (same₁ : symbol (group / 4096) = symbol (group' / 4096))
    (same₂ : symbol (group / 64 % 64) = symbol (group' / 64 % 64))
    (same₃ : symbol (group % 64) = symbol (group' % 64)) :
    first = first' ∧ second = second' := by
  have bounds := And.intro first.toNat_lt second.toNat_lt
  have bounds' := And.intro first'.toNat_lt second'.toNat_lt
  have digit₁ := symbol_injective (by omega) (by omega) same₁
  have digit₂ := symbol_injective (by omega) (by omega) same₂
  have digit₃ := symbol_injective (by omega) (by omega) same₃
  have groups : group = group' := by omega
  refine ⟨UInt8.toNat_inj.mp ?_, UInt8.toNat_inj.mp ?_⟩ <;> omega

/-- One octet at the end is determined by two digits. -/
theorem octet_of_two_symbols (spelt : group = first.toNat * 16)
    (spelt' : group' = first'.toNat * 16)
    (same₁ : symbol (group / 64) = symbol (group' / 64))
    (same₂ : symbol (group % 64) = symbol (group' % 64)) : first = first' := by
  have bounds := And.intro first.toNat_lt first'.toNat_lt
  have digit₁ := symbol_injective (by omega) (by omega) same₁
  have digit₂ := symbol_injective (by omega) (by omega) same₂
  exact UInt8.toNat_inj.mp (by omega)

/-! ## Byte strings -/

/-- No two byte strings have the same spelling: each group is determined by its
symbols, and the padding tells how long the last one is. -/
theorem encode_injective {octets others : Bytes} (same : encode octets = encode others) :
    octets = others := by
  have unpadded (group : Nat) : symbol (group % 64) ≠ '=' :=
    symbol_ne_padding (Nat.mod_lt _ (by decide))
  induction octets using encode.induct generalizing others with
  | case1 first second third rest inductionHypothesis =>
    match others with
    | first' :: second' :: third' :: rest' =>
      simp only [encode, List.cons.injEq] at same
      obtain ⟨same₁, same₂, same₃, same₄, later⟩ := same
      obtain ⟨rfl, rfl, rfl⟩ := octets_of_symbols rfl rfl same₁ same₂ same₃ same₄
      rw [inductionHypothesis later]
    | [_, _] | [_] =>
      simp only [encode, List.cons.injEq] at same
      exact absurd same.2.2.2.1 (unpadded _)
    | [] => exact absurd same (List.cons_ne_nil _ _)
  | case2 first second =>
    match others with
    | [first', second'] =>
      simp only [encode, List.cons.injEq] at same
      obtain ⟨rfl, rfl⟩ := octets_of_three_symbols rfl rfl same.1 same.2.1 same.2.2.1
      rfl
    | _ :: _ :: _ :: _ =>
      simp only [encode, List.cons.injEq] at same
      exact absurd same.2.2.2.1.symm (unpadded _)
    | [_] =>
      simp only [encode, List.cons.injEq] at same
      exact absurd same.2.2.1 (unpadded _)
    | [] => exact absurd same (List.cons_ne_nil _ _)
  | case3 first =>
    match others with
    | [first'] =>
      simp only [encode, List.cons.injEq] at same
      rw [octet_of_two_symbols rfl rfl same.1 same.2.1]
    | _ :: _ :: _ :: _ =>
      simp only [encode, List.cons.injEq] at same
      exact absurd same.2.2.2.1.symm (unpadded _)
    | [_, _] =>
      simp only [encode, List.cons.injEq] at same
      exact absurd same.2.2.1.symm (unpadded _)
    | [] => exact absurd same (List.cons_ne_nil _ _)
  | case4 =>
    match others with
    | [] => rfl
    | _ :: _ :: _ :: _ | [_, _] | [_] => exact absurd same.symm (List.cons_ne_nil _ _)

end ContentStore.Bytes.Base64
