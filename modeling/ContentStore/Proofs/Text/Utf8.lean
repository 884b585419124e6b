import ContentStore.Text.Utf8

/-!
Contract: reading a text back from its octets.

Owns:
- the octets of a text, character by character;
- `nextSymbol_encodeChar`, by which the octets of a character are read as it,
  whatever follows them;
- that every text is read back, so that no two have the same octets;
- `text?_eq_some_iff`, by which strict reading accepts the octets of texts, and
  no others.

Does not own: what malformed octets are read as.
-/

namespace ContentStore.Text.Utf8

variable {owed low high code octet : Nat} {rest remaining octets : Bytes} {symbol : Char}
  {symbols : List Char} {lead second third fourth : UInt8}

/-! ## Writing -/

theorem length_encodeChar_pos (symbol : Char) : 1 ≤ (String.utf8EncodeChar symbol).length :=
  List.length_pos_iff.mpr String.utf8EncodeChar_ne_nil

theorem encodeSymbols_cons (symbol : Char) (rest : List Char) :
    encodeSymbols (symbol :: rest) = String.utf8EncodeChar symbol ++ encodeSymbols rest :=
  List.flatMap_cons

theorem encodeSymbols_append (front back : List Char) :
    encodeSymbols (front ++ back) = encodeSymbols front ++ encodeSymbols back :=
  List.flatMap_append

theorem length_encodeSymbols
    (single : ∀ symbol ∈ symbols, (String.utf8EncodeChar symbol).length = 1) :
    (encodeSymbols symbols).length = symbols.length := by
  induction symbols with
  | nil => rfl
  | cons symbol rest inductionHypothesis =>
    have later := inductionHypothesis fun other member =>
      single other (List.mem_cons_of_mem _ member)
    rw [encodeSymbols_cons, List.length_append, single symbol List.mem_cons_self, later,
      List.length_cons, Nat.add_comm]

/-! ## Reading -/

private theorem readTail_succ (small : octet < 256) (bounds : low ≤ octet ∧ octet ≤ high) :
    readTail (owed + 1) low high code (UInt8.ofNat octet :: rest) =
      readTail owed 0x80 0xbf (code * 64 + octet % 64) rest := by
  have value : (UInt8.ofNat octet).toNat = octet := by
    rw [UInt8.toNat_ofNat']
    omega
  rw [readTail, value, if_pos bounds]

private theorem readTail_zero {total : Nat} (complete : total = code) :
    readTail 0 low high total rest = .symbol (Char.ofNat code) rest := by
  rw [readTail, complete]

private theorem nextSymbol_one (ascii : code < 0x80) (rest : Bytes) :
    nextSymbol (UInt8.ofNat code) rest = .symbol (Char.ofNat code) rest := by
  have value : (UInt8.ofNat code).toNat = code := by
    rw [UInt8.toNat_ofNat']
    omega
  simp only [nextSymbol, value, if_pos ascii]

private theorem nextSymbol_two (above : 0x80 ≤ code) (below : code < 0x800) (rest : Bytes) :
    nextSymbol (UInt8.ofNat (code / 64 % 32 + 192)) (UInt8.ofNat (code % 64 + 128) :: rest) =
      .symbol (Char.ofNat code) rest := by
  have value : (UInt8.ofNat (code / 64 % 32 + 192)).toNat = code / 64 + 192 := by
    rw [UInt8.toNat_ofNat']
    omega
  have notAscii : ¬ code / 64 + 192 < 0x80 := by omega
  have valid : ¬ code / 64 + 192 < 0xc2 := by omega
  have two : code / 64 + 192 < 0xe0 := by omega
  simp only [nextSymbol, value, if_neg notAscii, if_neg valid, if_pos two]
  rw [readTail_succ (by omega) (by omega)]
  exact readTail_zero (by omega)

private theorem nextSymbol_three (above : 0x800 ≤ code) (below : code < 0x10000)
    (scalar : code < 0xd800 ∨ 0xdfff < code) (rest : Bytes) :
    nextSymbol (UInt8.ofNat (code / 4096 % 16 + 224))
        (UInt8.ofNat (code / 64 % 64 + 128) :: UInt8.ofNat (code % 64 + 128) :: rest) =
      .symbol (Char.ofNat code) rest := by
  have value : (UInt8.ofNat (code / 4096 % 16 + 224)).toNat = code / 4096 + 224 := by
    rw [UInt8.toNat_ofNat']
    omega
  have notAscii : ¬ code / 4096 + 224 < 0x80 := by omega
  have valid : ¬ code / 4096 + 224 < 0xc2 := by omega
  have notTwo : ¬ code / 4096 + 224 < 0xe0 := by omega
  have three : code / 4096 + 224 < 0xf0 := by omega
  simp only [nextSymbol, value, if_neg notAscii, if_neg valid, if_neg notTwo, if_pos three]
  -- The first and the last of the leading octets leave less room for the second.
  split
  · rw [readTail_succ (by omega) (by omega), readTail_succ (by omega) (by omega)]
    exact readTail_zero (by omega)
  · split
    · rw [readTail_succ (by omega) (by omega), readTail_succ (by omega) (by omega)]
      exact readTail_zero (by omega)
    · rw [readTail_succ (by omega) (by omega), readTail_succ (by omega) (by omega)]
      exact readTail_zero (by omega)

private theorem nextSymbol_four (above : 0x10000 ≤ code) (below : code < 0x110000) (rest : Bytes) :
    nextSymbol (UInt8.ofNat (code / 262144 % 8 + 240))
        (UInt8.ofNat (code / 4096 % 64 + 128) :: UInt8.ofNat (code / 64 % 64 + 128) ::
          UInt8.ofNat (code % 64 + 128) :: rest) =
      .symbol (Char.ofNat code) rest := by
  have value : (UInt8.ofNat (code / 262144 % 8 + 240)).toNat = code / 262144 + 240 := by
    rw [UInt8.toNat_ofNat']
    omega
  have notAscii : ¬ code / 262144 + 240 < 0x80 := by omega
  have valid : ¬ code / 262144 + 240 < 0xc2 := by omega
  have notTwo : ¬ code / 262144 + 240 < 0xe0 := by omega
  have notLow : code / 262144 + 240 ≠ 0xe0 := by omega
  have notSurrogate : code / 262144 + 240 ≠ 0xed := by omega
  have notThree : ¬ code / 262144 + 240 < 0xf0 := by omega
  simp only [nextSymbol, value, if_neg notAscii, if_neg valid, if_neg notTwo, if_neg notLow,
    if_neg notSurrogate, if_neg notThree]
  split
  · rw [readTail_succ (by omega) (by omega), readTail_succ (by omega) (by omega),
      readTail_succ (by omega) (by omega)]
    exact readTail_zero (by omega)
  · split
    · rw [readTail_succ (by omega) (by omega), readTail_succ (by omega) (by omega),
        readTail_succ (by omega) (by omega)]
      exact readTail_zero (by omega)
    · rw [if_pos (by omega), readTail_succ (by omega) (by omega),
        readTail_succ (by omega) (by omega), readTail_succ (by omega) (by omega)]
      exact readTail_zero (by omega)

/-- Reading the octets of a character gives it back. -/
theorem nextSymbol_encodeChar (symbol : Char) (rest : Bytes) :
    ∃ lead others, String.utf8EncodeChar symbol = lead :: others ∧
      nextSymbol lead (others ++ rest) = .symbol symbol rest := by
  have scalar : symbol.toNat < 0xd800 ∨ 0xdfff < symbol.toNat ∧ symbol.toNat < 0x110000 :=
    symbol.valid
  have same := Char.ofNat_toNat symbol
  unfold String.utf8EncodeChar
  rw [show symbol.val.toNat = symbol.toNat from rfl]
  generalize symbol.toNat = code at scalar same
  rw [← same]
  simp only
  split
  · exact ⟨_, _, rfl, nextSymbol_one (by omega) rest⟩
  · split
    · exact ⟨_, _, rfl, nextSymbol_two (by omega) (by omega) rest⟩
    · split
      · exact ⟨_, _, rfl, nextSymbol_three (by omega) (by omega) (by omega) rest⟩
      · exact ⟨_, _, rfl, nextSymbol_four (by omega) (by omega) rest⟩

/-- Every text is read back from its octets. -/
theorem decodeLossy_encodeSymbols (symbols : List Char) :
    decodeLossy (encodeSymbols symbols) = symbols := by
  induction symbols with
  | nil => simp [encodeSymbols, decodeLossy]
  | cons symbol rest inductionHypothesis =>
    obtain ⟨lead, others, octets, read⟩ := nextSymbol_encodeChar symbol (encodeSymbols rest)
    rw [encodeSymbols_cons, octets, List.cons_append, decodeLossy]
    split
    · rename_i reading
      rw [read] at reading
      obtain ⟨rfl, rfl⟩ := Reading.symbol.inj reading
      rw [inductionHypothesis]
    · rename_i reading
      rw [read] at reading
      exact Reading.noConfusion reading

theorem textLossy_encode (text : String) : textLossy (encode text) = text := by
  unfold textLossy encode
  rw [decodeLossy_encodeSymbols, String.ofList_toList]

theorem encodeSymbols_injective {left right : List Char}
    (same : encodeSymbols left = encodeSymbols right) : left = right := by
  rw [← decodeLossy_encodeSymbols left, same, decodeLossy_encodeSymbols]

/-! ## Octets that are well formed -/

/-- The octets of the character with a given number. -/
theorem encodeChar_ofNat (scalar : code.isValidChar) :
    String.utf8EncodeChar (Char.ofNat code) =
      if code ≤ 0x7f then [UInt8.ofNat code]
      else if code ≤ 0x7ff then
        [UInt8.ofNat (code / 64 % 32 + 192), UInt8.ofNat (code % 64 + 128)]
      else if code ≤ 0xffff then
        [UInt8.ofNat (code / 4096 % 16 + 224), UInt8.ofNat (code / 64 % 64 + 128),
          UInt8.ofNat (code % 64 + 128)]
      else
        [UInt8.ofNat (code / 262144 % 8 + 240), UInt8.ofNat (code / 4096 % 64 + 128),
          UInt8.ofNat (code / 64 % 64 + 128), UInt8.ofNat (code % 64 + 128)] := by
  unfold Char.ofNat
  rw [dif_pos scalar]
  rfl

private theorem ofNat_eq (read : UInt8) (same : read.toNat = octet) : UInt8.ofNat octet = read := by
  rw [← same, UInt8.ofNat_toNat]

private theorem encodeChar_one (below : code < 0x80) (isLead : lead.toNat = code) :
    String.utf8EncodeChar (Char.ofNat code) = [lead] := by
  rw [encodeChar_ofNat (by left; omega), if_pos (by omega), ofNat_eq lead isLead]

private theorem encodeChar_two (above : 0x80 ≤ code) (below : code < 0x800)
    (isLead : lead.toNat = code / 64 + 192) (isSecond : second.toNat = code % 64 + 128) :
    String.utf8EncodeChar (Char.ofNat code) = [lead, second] := by
  rw [encodeChar_ofNat (by left; omega), if_neg (by omega), if_pos (by omega),
    ofNat_eq lead (by omega), ofNat_eq second (by omega)]

private theorem encodeChar_three (above : 0x800 ≤ code) (below : code < 0x10000)
    (scalar : code < 0xd800 ∨ 0xdfff < code) (isLead : lead.toNat = code / 4096 + 224)
    (isSecond : second.toNat = code / 64 % 64 + 128) (isThird : third.toNat = code % 64 + 128) :
    String.utf8EncodeChar (Char.ofNat code) = [lead, second, third] := by
  rw [encodeChar_ofNat (by omega), if_neg (by omega), if_neg (by omega), if_pos (by omega),
    ofNat_eq lead (by omega), ofNat_eq second (by omega), ofNat_eq third (by omega)]

private theorem encodeChar_four (above : 0x10000 ≤ code) (below : code < 0x110000)
    (isLead : lead.toNat = code / 262144 + 240)
    (isSecond : second.toNat = code / 4096 % 64 + 128)
    (isThird : third.toNat = code / 64 % 64 + 128) (isFourth : fourth.toNat = code % 64 + 128) :
    String.utf8EncodeChar (Char.ofNat code) = [lead, second, third, fourth] := by
  rw [encodeChar_ofNat (by omega), if_neg (by omega), if_neg (by omega), if_neg (by omega),
    ofNat_eq lead (by omega), ofNat_eq second (by omega), ofNat_eq third (by omega),
    ofNat_eq fourth (by omega)]

/-- A continuation octet that was read stands in its bounds. -/
theorem of_readTail_succ
    (read : readTail (owed + 1) low high code octets = .symbol symbol remaining) :
    ∃ next rest, octets = next :: rest ∧ low ≤ next.toNat ∧ next.toNat ≤ high ∧
      readTail owed 0x80 0xbf (code * 64 + next.toNat % 64) rest = .symbol symbol remaining := by
  cases octets with
  | nil => exact Reading.noConfusion read
  | cons next rest =>
    rw [readTail] at read
    split at read
    · rename_i bounds
      exact ⟨next, rest, rfl, bounds.1, bounds.2, read⟩
    · exact Reading.noConfusion read

private theorem of_readTail_zero
    (read : readTail 0 low high code octets = .symbol symbol remaining) :
    Char.ofNat code = symbol ∧ octets = remaining := by
  rw [readTail] at read
  exact Reading.symbol.inj read

private theorem octets_of_one_owed (above : 0xc2 ≤ lead.toNat) (below : lead.toNat < 0xe0)
    (read : readTail 1 0x80 0xbf (lead.toNat % 32) rest = .symbol symbol remaining) :
    String.utf8EncodeChar symbol ++ remaining = lead :: rest := by
  obtain ⟨second, _, rfl, low, high, read⟩ := of_readTail_succ read
  obtain ⟨rfl, rfl⟩ := of_readTail_zero read
  have encoded : String.utf8EncodeChar (Char.ofNat (lead.toNat % 32 * 64 + second.toNat % 64)) =
      [lead, second] :=
    encodeChar_two (by omega) (by omega) (by omega) (by omega)
  rw [encoded]
  rfl

/-- The bounds of the second octet keep the number above those that fewer octets
hold, and away from the surrogates. -/
theorem octets_of_two_owed (above : 0xe0 ≤ lead.toNat) (below : lead.toNat < 0xf0)
    (long : lead.toNat = 0xe0 → 0xa0 ≤ low) (scalar : lead.toNat = 0xed → high ≤ 0x9f)
    (tail : 0x80 ≤ low ∧ high ≤ 0xbf)
    (read : readTail 2 low high (lead.toNat % 16) rest = .symbol symbol remaining) :
    String.utf8EncodeChar symbol ++ remaining = lead :: rest := by
  obtain ⟨second, _, rfl, lowSecond, highSecond, read⟩ := of_readTail_succ read
  obtain ⟨third, _, rfl, lowThird, highThird, read⟩ := of_readTail_succ read
  obtain ⟨rfl, rfl⟩ := of_readTail_zero read
  have encoded : String.utf8EncodeChar (Char.ofNat
      ((lead.toNat % 16 * 64 + second.toNat % 64) * 64 + third.toNat % 64)) =
      [lead, second, third] :=
    encodeChar_three (by omega) (by omega) (by omega) (by omega) (by omega) (by omega)
  rw [encoded]
  rfl

/-- The bounds of the second octet keep the number above those that fewer octets
hold, and below the end of all characters. -/
theorem octets_of_three_owed (above : 0xf0 ≤ lead.toNat) (below : lead.toNat < 0xf5)
    (long : lead.toNat = 0xf0 → 0x90 ≤ low) (scalar : lead.toNat = 0xf4 → high ≤ 0x8f)
    (tail : 0x80 ≤ low ∧ high ≤ 0xbf)
    (read : readTail 3 low high (lead.toNat % 8) rest = .symbol symbol remaining) :
    String.utf8EncodeChar symbol ++ remaining = lead :: rest := by
  obtain ⟨second, _, rfl, lowSecond, highSecond, read⟩ := of_readTail_succ read
  obtain ⟨third, _, rfl, lowThird, highThird, read⟩ := of_readTail_succ read
  obtain ⟨fourth, _, rfl, lowFourth, highFourth, read⟩ := of_readTail_succ read
  obtain ⟨rfl, rfl⟩ := of_readTail_zero read
  have encoded : String.utf8EncodeChar (Char.ofNat
      (((lead.toNat % 8 * 64 + second.toNat % 64) * 64 + third.toNat % 64) * 64 +
        fourth.toNat % 64)) = [lead, second, third, fourth] :=
    encodeChar_four (by omega) (by omega) (by omega) (by omega) (by omega) (by omega)
  rw [encoded]
  rfl

/-- What is read as a character is its octets. -/
theorem octets_of_nextSymbol (read : nextSymbol lead rest = .symbol symbol remaining) :
    String.utf8EncodeChar symbol ++ remaining = lead :: rest := by
  unfold nextSymbol at read
  simp only at read
  split at read
  · rename_i ascii
    obtain ⟨rfl, rfl⟩ := Reading.symbol.inj read
    rw [encodeChar_one ascii rfl]
    rfl
  split at read
  · exact Reading.noConfusion read
  split at read
  · exact octets_of_one_owed (by omega) (by omega) read
  split at read
  · rename_i isLead
    have tail : readTail 2 0xa0 0xbf (lead.toNat % 16) rest = .symbol symbol remaining := by
      rw [isLead]
      exact read
    exact octets_of_two_owed (by omega) (by omega) (by omega) (by omega) (by omega) tail
  split at read
  · rename_i isLead
    have tail : readTail 2 0x80 0x9f (lead.toNat % 16) rest = .symbol symbol remaining := by
      rw [isLead]
      exact read
    exact octets_of_two_owed (by omega) (by omega) (by omega) (by omega) (by omega) tail
  split at read
  · exact octets_of_two_owed (by omega) (by omega) (by omega) (by omega) (by omega) read
  split at read
  · rename_i isLead
    have tail : readTail 3 0x90 0xbf (lead.toNat % 8) rest = .symbol symbol remaining := by
      rw [isLead]
      exact read
    exact octets_of_three_owed (by omega) (by omega) (by omega) (by omega) (by omega) tail
  split at read
  · exact octets_of_three_owed (by omega) (by omega) (by omega) (by omega) (by omega) read
  split at read
  · rename_i isLead
    have tail : readTail 3 0x80 0x8f (lead.toNat % 8) rest = .symbol symbol remaining := by
      rw [isLead]
      exact read
    exact octets_of_three_owed (by omega) (by omega) (by omega) (by omega) (by omega) tail
  · exact Reading.noConfusion read

private theorem decode_encodeSymbols (symbols : List Char) :
    decode (encodeSymbols symbols) = some symbols := by
  induction symbols with
  | nil => simp [encodeSymbols, decode]
  | cons symbol rest inductionHypothesis =>
    obtain ⟨lead, others, octets, read⟩ := nextSymbol_encodeChar symbol (encodeSymbols rest)
    rw [encodeSymbols_cons, octets, List.cons_append, decode]
    split
    · rename_i reading
      rw [read] at reading
      obtain ⟨rfl, rfl⟩ := Reading.symbol.inj reading
      rw [inductionHypothesis]
      rfl
    · rename_i reading
      rw [read] at reading
      exact Reading.noConfusion reading

private theorem encodeSymbols_of_decode {symbols : List Char}
    (decoded : decode octets = some symbols) :
    encodeSymbols symbols = octets := by
  fun_induction decode octets generalizing symbols with
  | case1 =>
    rw [← Option.some.inj decoded]
    rfl
  | case2 lead rest read remaining reading shorter inductionHypothesis =>
    obtain ⟨others, decodedOthers, rfl⟩ := Option.map_eq_some_iff.mp decoded
    rw [encodeSymbols_cons, inductionHypothesis decodedOthers]
    exact octets_of_nextSymbol reading
  | case3 => exact absurd decoded (by simp)

/-- A text is read from its octets, and from no others. -/
theorem text?_eq_some_iff {text : String} : text? octets = some text ↔ encode text = octets := by
  unfold text? encode
  constructor
  · intro read
    obtain ⟨symbols, decoded, rfl⟩ := Option.map_eq_some_iff.mp read
    rw [String.toList_ofList]
    exact encodeSymbols_of_decode decoded
  · rintro rfl
    rw [decode_encodeSymbols, Option.map_some, String.ofList_toList]

end ContentStore.Text.Utf8
