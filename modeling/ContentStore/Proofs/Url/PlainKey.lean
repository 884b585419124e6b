import ContentStore.Fingerprint
import ContentStore.Proofs.Url.Base
import Mathlib.Data.List.DropRight
import Mathlib.Data.List.TakeWhile

/-!
Contract: which keys an address is read back as.

Owns:
- `PlainKey`, the keys that stand for themselves in a path;
- that the path that is made of a key stands for the key exactly if the key is
  plain, and that no query is made of it then;
- that fingerprints are plain, and their paths spell them as they are.

Does not own: where addresses are sent.
-/

namespace ContentStore.Url

/-- A key that an address can hold as it is: nothing in it vanishes, ends the
path, separates like a slash, spells an octet or stands for another segment. -/
structure PlainKey (key : String) : Prop where
  lasting : ∀ symbol ∈ key.toList,
    isDropped symbol = false ∧ endsPath symbol = false ∧ symbol ≠ '\\'
  ended : ∀ symbol, key.toList.getLast? = some symbol → isTrimmed symbol = false
  unspelled : percentDecode key.toList = Text.Utf8.encode key
  pointless : ∀ segment ∈ Text.fields (· == '/') key.toList,
    segment ≠ ['.'] ∧ segment ≠ ['.', '.']

variable {key : String} {symbols part : List Char}

/-! ## Octets of parts -/

private theorem length_encodeSymbols_le (sublist : part.Sublist symbols) :
    (Text.Utf8.encodeSymbols part).length ≤ (Text.Utf8.encodeSymbols symbols).length := by
  induction sublist with
  | slnil => exact Nat.le_refl 0
  | cons symbol shorter inductionHypothesis =>
    rw [Text.Utf8.encodeSymbols_cons, List.length_append]
    omega
  | cons_cons symbol shorter inductionHypothesis =>
    rw [Text.Utf8.encodeSymbols_cons, Text.Utf8.encodeSymbols_cons, List.length_append,
      List.length_append]
    omega

/-- A part of a text with as many octets is the whole. -/
theorem eq_of_sublist_of_length (sublist : part.Sublist symbols)
    (same : (Text.Utf8.encodeSymbols part).length = (Text.Utf8.encodeSymbols symbols).length) :
    part = symbols := by
  induction sublist with
  | slnil => rfl
  | cons symbol shorter inductionHypothesis =>
    have bound := length_encodeSymbols_le shorter
    have more := Text.Utf8.length_encodeChar_pos symbol
    rw [Text.Utf8.encodeSymbols_cons, List.length_append] at same
    omega
  | cons_cons symbol shorter inductionHypothesis =>
    rw [Text.Utf8.encodeSymbols_cons, Text.Utf8.encodeSymbols_cons, List.length_append,
      List.length_append] at same
    rw [inductionHypothesis (Nat.add_left_cancel same)]

private theorem isSlash_eq_of_ne {symbol : Char} (notBack : symbol ≠ '\\') :
    isSlash symbol = (symbol == '/') := by
  simp [isSlash, notBack]

private theorem straightened_eq_self_iff (symbols : List Char) :
    straightened symbols = symbols ↔ '\\' ∉ symbols := by
  constructor
  · intro same back
    have kept : symbols.map (fun symbol => if isSlash symbol then '/' else symbol) =
        symbols.map id := by
      rw [List.map_id]
      exact same
    exact absurd (List.map_inj_left.mp kept '\\' back) (by decide)
  · intro notBack
    unfold straightened
    conv_rhs => rw [← List.map_id symbols]
    apply List.map_congr_left
    intro symbol member
    have different : symbol ≠ '\\' := fun same => notBack (same ▸ member)
    rw [isSlash_eq_of_ne different]
    split
    · rename_i slash
      exact (beq_iff_eq.mp slash).symm
    · rfl

/-! ## What is read of a key -/

private theorem trimEnd_sublist (symbols : List Char) :
    (Text.trimEnd isTrimmed symbols).Sublist symbols :=
  (List.rdropWhile_prefix isTrimmed symbols).sublist

private theorem trimEnd_eq_self_iff (symbols : List Char) :
    Text.trimEnd isTrimmed symbols = symbols ↔
      ∀ symbol, symbols.getLast? = some symbol → isTrimmed symbol = false := by
  have sameTrim : Text.trimEnd isTrimmed symbols = symbols.rdropWhile isTrimmed := rfl
  rw [sameTrim, List.rdropWhile_eq_self_iff]
  constructor
  · intro kept symbol last
    obtain ⟨front, rfl⟩ := List.getLast?_eq_some_iff.mp last
    simpa using kept (by simp)
  · intro kept some_symbols
    simp [kept _ (List.getLast?_eq_some_getLast some_symbols)]

private theorem readable_sublist (key : String) : (readable key).Sublist key.toList :=
  List.filter_sublist.trans (trimEnd_sublist key.toList)

/-- A key is read as it is exactly if nothing in it vanishes and its end is not
trimmed. -/
theorem readable_eq_self_iff (key : String) :
    readable key = key.toList ↔
      (∀ symbol ∈ key.toList, isDropped symbol = false) ∧
        ∀ symbol, key.toList.getLast? = some symbol → isTrimmed symbol = false := by
  rw [← trimEnd_eq_self_iff]
  constructor
  · intro same
    have notTrimmed : Text.trimEnd isTrimmed key.toList = key.toList := by
      apply (trimEnd_sublist key.toList).eq_of_length_le
      have lengths := congrArg List.length same
      have fewer := List.length_filter_le (fun symbol => !isDropped symbol)
        (Text.trimEnd isTrimmed key.toList)
      unfold readable visible at lengths
      omega
    unfold readable at same
    rw [notTrimmed] at same
    refine ⟨?_, notTrimmed⟩
    intro symbol member
    simpa using List.filter_eq_self.mp same symbol member
  · rintro ⟨lasting, notTrimmed⟩
    unfold readable visible
    rw [notTrimmed, List.filter_eq_self]
    intro symbol member
    simp [lasting symbol member]

/-! ## Paths of plain keys -/

private theorem percentDecode_of_mem {segments : List (List Char)}
    (whole : percentDecode (joined segments) = Text.Utf8.encodeSymbols (joined segments)) :
    ∀ segment ∈ segments, percentDecode segment = Text.Utf8.encodeSymbols segment := by
  induction segments with
  | nil => simp
  | cons segment rest inductionHypothesis =>
    have lengths := congrArg List.length whole
    rw [percentDecode_joined_cons, joined_cons, Text.Utf8.encodeSymbols_append,
      Text.Utf8.encodeSymbols_cons] at lengths
    simp only [List.length_append, List.length_cons] at lengths
    have slash : (String.utf8EncodeChar '/').length = 1 := rfl
    have bound := length_percentDecode_le segment
    have boundRest := length_percentDecode_le (joined rest)
    intro other member
    rcases List.mem_cons.mp member with rfl | later
    · exact percentDecode_eq_of_length (by omega)
    · exact inductionHypothesis (percentDecode_eq_of_length (by omega)) other later

/-- Nothing in an escaped text has to be escaped. -/
theorem not_escaped_of_mem {symbol : Char}
    (member : symbol ∈ percentEncode isEscapedInPath symbols) : isEscapedInPath symbol = false := by
  obtain ⟨source, _, spelled⟩ := List.mem_flatMap.mp member
  split at spelled
  · obtain ⟨octet, _, digits⟩ := List.mem_flatMap.mp spelled
    have bound := octet.toNat_lt
    simp only [percentOctet, List.mem_cons, List.not_mem_nil, or_false] at digits
    rcases digits with rfl | rfl | rfl
    · exact not_escaped_percent
    · exact kept_of_value? (value?_upperDigit (by omega))
    · exact kept_of_value? (value?_upperDigit (by omega))
  · rename_i kept
    rw [List.mem_singleton.mp spelled]
    exact Bool.not_eq_true _ ▸ kept

namespace PlainKey

private theorem noBackslash (plain : PlainKey key) : '\\' ∉ key.toList :=
  fun back => (plain.lasting '\\' back).2.2 rfl

private theorem readable (plain : PlainKey key) : readable key = key.toList :=
  (readable_eq_self_iff key).mpr ⟨fun symbol member => (plain.lasting symbol member).1, plain.ended⟩

/-- No segment of a plain key stands for another one. -/
theorem noDots (plain : PlainKey key) :
    ∀ segment ∈ escapedFields key.toList, isDots segment = false := by
  intro segment member
  obtain ⟨field, among, rfl⟩ := List.mem_map.mp member
  have straight := (straightened_eq_self_iff key.toList).mpr plain.noBackslash
  have whole : percentDecode (joined (Text.fields isSlash key.toList)) =
      Text.Utf8.encodeSymbols (joined (Text.fields isSlash key.toList)) := by
    rw [joined_fields, straight, Text.Utf8.encodeSymbols_cons]
    show percentDecode ([] ++ '/' :: key.toList) = _
    rw [percentDecode_append_slash, plain.unspelled]
    rfl
  have itself := percentDecode_of_mem whole field among
  have sameFields : Text.fields isSlash key.toList = Text.fields (· == '/') key.toList :=
    Text.fields_congr fun symbol inKey => isSlash_eq_of_ne (plain.lasting symbol inKey).2.2
  rw [sameFields] at among
  obtain ⟨notPoint, notPoints⟩ := plain.pointless field among
  cases dots : isDots (percentEncode isEscapedInPath field) with
  | false => rfl
  | true =>
    rcases Bool.or_eq_true _ _ ▸ dots with double | single
    · have decoded := percentDecode_of_isDoubleDot double
      rw [percentDecode_percentEncode, itself] at decoded
      exact absurd (Text.Utf8.encodeSymbols_injective decoded) notPoints
    · have decoded := percentDecode_of_isSingleDot single
      rw [percentDecode_percentEncode, itself] at decoded
      exact absurd (Text.Utf8.encodeSymbols_injective decoded) notPoint

private theorem endless (plain : PlainKey key) :
    ∀ symbol ∈ key.toList, (!endsPath symbol) = true := by
  intro symbol member
  simp [(plain.lasting symbol member).2.1]

/-- The path that is made of a plain key stands for it, -/
theorem percentDecode_pathOf (plain : PlainKey key) :
    percentDecode (pathOf ('/' :: key.toList)) = Text.Utf8.encode ("/" ++ key) := by
  rw [Url.percentDecode_pathOf plain.noDots,
    (straightened_eq_self_iff key.toList).mpr plain.noBackslash, plain.unspelled]
  unfold Text.Utf8.encode
  rw [String.toList_append]
  rfl

/-- and holds no question mark. -/
theorem question_notMem_pathOf (plain : PlainKey key) : '?' ∉ pathOf ('/' :: key.toList) := by
  rw [pathOf_cons_slash, resolveDots_of_none [] plain.noDots, List.reverse_nil, List.nil_append]
  intro member
  obtain ⟨segment, among, inside⟩ := List.mem_flatMap.mp member
  obtain ⟨field, _, rfl⟩ := List.mem_map.mp among
  rcases List.mem_cons.mp inside with slash | escaped
  · exact absurd slash (by decide)
  · exact absurd (not_escaped_of_mem escaped) (by decide)

end PlainKey

/-- A key is plain if the path that is made of what is read of it stands for
it. -/
theorem plainKey_of_percentDecode_pathOf
    (stands : percentDecode (pathOf ('/' :: (readable key).takeWhile (!endsPath ·))) =
      Text.Utf8.encode ("/" ++ key)) : PlainKey key := by
  have cut : ((readable key).takeWhile (!endsPath ·)).Sublist key.toList :=
    (List.takeWhile_sublist _).trans (readable_sublist key)
  have keyOctets : Text.Utf8.encode ("/" ++ key) = 0x2f :: Text.Utf8.encodeSymbols key.toList := by
    unfold Text.Utf8.encode
    rw [String.toList_append]
    rfl
  have bound := length_percentDecode_pathOf_le ((readable key).takeWhile (!endsPath ·))
  have boundCut := length_encodeSymbols_le cut
  rw [stands, keyOctets, List.length_cons] at bound
  -- Every loss on the way would make the path stand for fewer octets.
  have whole : (readable key).takeWhile (!endsPath ·) = key.toList :=
    eq_of_sublist_of_length cut (by omega)
  have wholeRead : readable key = key.toList := by
    apply (readable_sublist key).eq_of_length_le
    rw [← whole]
    exact (List.takeWhile_sublist _).length_le
  obtain ⟨lasting, ended⟩ := (readable_eq_self_iff key).mp wholeRead
  rw [whole] at stands
  have lengths := congrArg List.length stands
  rw [keyOctets, List.length_cons, Nat.add_comm] at lengths
  obtain ⟨noDots, unspelled⟩ := of_length_percentDecode_pathOf lengths
  rw [percentDecode_pathOf noDots, unspelled, keyOctets] at stands
  have straight := Text.Utf8.encodeSymbols_injective (List.cons.inj stands).2
  have noBackslash := (straightened_eq_self_iff key.toList).mp straight
  rw [straight] at unspelled
  rw [wholeRead] at whole
  have endless := List.takeWhile_eq_self_iff.mp whole
  refine ⟨?_, ended, unspelled, ?_⟩
  · intro symbol member
    refine ⟨lasting symbol member, by simpa using endless symbol member, ?_⟩
    rintro rfl
    exact noBackslash member
  · intro segment among
    have sameFields : Text.fields isSlash key.toList = Text.fields (· == '/') key.toList := by
      apply Text.fields_congr
      intro symbol member
      apply isSlash_eq_of_ne
      rintro rfl
      exact noBackslash member
    rw [← sameFields] at among
    have notDots := noDots _ (List.mem_map_of_mem among)
    refine ⟨?_, ?_⟩
    · rintro rfl
      exact absurd notDots (by decide)
    · rintro rfl
      exact absurd notDots (by decide)

/-! ## Addresses of keys -/

/-- The target of an address is its path, unless it has a query. -/
theorem target_of_noQuery {url : Url} (noQuery : url.query = none) : url.target = url.path := by
  unfold target
  rw [noQuery]

private theorem question_mem_target {url : Url} {query : String} (asks : url.query = some query) :
    '?' ∈ url.target.toList := by
  unfold target
  rw [asks, String.toList_append, String.toList_append]
  simp

/-- The target of an address of a plain key is the path that is made of it. -/
theorem target_ofOrigin (scheme : Scheme) (origin : Option (String × String) × Host × Option Nat)
    (plain : PlainKey key) :
    (ofOrigin scheme origin (readable key)).target = String.ofList (pathOf ('/' :: key.toList)) := by
  unfold ofOrigin
  rw [plain.readable, List.takeWhile_eq_self_iff.mpr plain.endless,
    List.dropWhile_eq_nil_iff.mpr plain.endless]
  rfl

/-- The address of a key behind a host stands for the key, and for nothing else,
exactly if the key is plain. -/
theorem target_stands_iff {scheme : Scheme} {authority : List Char} {base : String} {url : Url}
    (isBase : BaseOf scheme authority base) (found : ofText? (base ++ "/" ++ key) = some url) :
    ('?' ∉ url.target.toList ∧
      percentDecode url.target.toList = Text.Utf8.encode ("/" ++ key)) ↔ PlainKey key := by
  rw [ofText?_of_base isBase] at found
  obtain ⟨origin, _, made⟩ := Option.bind_eq_some_iff.mp found
  have same : url = ofOrigin scheme origin (readable key) := by
    split at made
    · exact absurd made (by simp)
    · exact (Option.some.inj made).symm
  constructor
  · rintro ⟨noQuestion, stands⟩
    have noQuery : url.query = none := by
      cases asks : url.query with
      | none => rfl
      | some query => exact absurd (question_mem_target asks) noQuestion
    rw [target_of_noQuery noQuery, same] at stands
    apply plainKey_of_percentDecode_pathOf
    rw [← stands]
    unfold ofOrigin
    rw [String.toList_ofList]
  · intro plain
    rw [same, target_ofOrigin scheme origin plain, String.toList_ofList]
    exact ⟨plain.question_notMem_pathOf, plain.percentDecode_pathOf⟩

/-! ## Fingerprints as keys -/

private theorem percentDecode_of_notMem (unmarked : '%' ∉ symbols) :
    percentDecode symbols = Text.Utf8.encodeSymbols symbols := by
  induction symbols with
  | nil => rfl
  | cons symbol rest inductionHypothesis =>
    rw [percentDecode_cons, Text.Utf8.encodeSymbols_cons, inductionHypothesis]
    · exact fun later => unmarked (List.mem_cons_of_mem _ later)
    · rintro rfl
      exact absurd List.mem_cons_self unmarked

private theorem percentEncode_of_none {isEscaped : Char → Bool}
    (none_escaped : ∀ symbol ∈ symbols, isEscaped symbol = false) :
    percentEncode isEscaped symbols = symbols := by
  induction symbols with
  | nil => rfl
  | cons symbol rest inductionHypothesis =>
    rw [percentEncode_cons_of_kept (none_escaped symbol List.mem_cons_self),
      inductionHypothesis fun later member => none_escaped later (List.mem_cons_of_mem _ member)]

private theorem value?_of_isDigit {symbol : Char} (digit : Bytes.Hex.IsDigit symbol) :
    ∃ number, Bytes.Hex.value? symbol = some number := by
  unfold Bytes.Hex.value?
  rcases digit with numeral | letter
  · exact ⟨_, if_pos numeral⟩
  · by_cases numeral : '0' ≤ symbol ∧ symbol ≤ '9'
    · exact ⟨_, if_pos numeral⟩
    · exact ⟨_, by rw [if_neg numeral, if_pos letter]⟩

private theorem isTrimmed_of_isDigit {symbol : Char} (digit : Bytes.Hex.IsDigit symbol) :
    isTrimmed symbol = false := by
  have range := Text.range_of_isDigit digit
  simp only [isTrimmed, decide_eq_false_iff_not]
  omega

/-- A digit is none of the characters that matter in addresses. -/
theorem notMem_of_isDigit {symbol : Char} (digit : Bytes.Hex.IsDigit symbol) :
    symbol ∉ ['\t', '\n', '\r', '?', '#', '\\', '/', '%'] := by
  intro mark
  have everyMark : ∀ mark ∈ ['\t', '\n', '\r', '?', '#', '\\', '/', '%'],
      ¬ Bytes.Hex.IsDigit mark := by decide
  exact everyMark symbol mark digit

/-- Fingerprints are plain keys. -/
theorem plainKey_fingerprint (fingerprint : Fingerprint) : PlainKey fingerprint.text := by
  obtain ⟨length, digits⟩ := fingerprint.wellFormed
  have noMarks : ∀ symbol ∈ fingerprint.text.toList,
      symbol ∉ ['\t', '\n', '\r', '?', '#', '\\', '/', '%'] :=
    fun symbol member => notMem_of_isDigit (digits symbol member)
  refine ⟨?_, ?_, ?_, ?_⟩
  · intro symbol member
    have noMark := noMarks symbol member
    simp only [List.mem_cons, List.not_mem_nil, or_false, not_or] at noMark
    refine ⟨?_, ?_, noMark.2.2.2.2.2.1⟩
    · simp [isDropped, noMark]
    · simp [endsPath, noMark]
  · intro symbol last
    exact isTrimmed_of_isDigit (digits symbol (List.mem_of_getLast? last))
  · apply percentDecode_of_notMem
    intro percent
    exact noMarks '%' percent (by decide)
  · have whole : Text.fields (· == '/') fingerprint.text.toList = [fingerprint.text.toList] := by
      apply Text.fields_of_none
      intro symbol member
      have noMark := noMarks symbol member
      simp only [List.mem_cons, List.not_mem_nil, or_false, not_or] at noMark
      simp [noMark]
    intro segment among
    rw [whole, List.mem_singleton] at among
    rw [← among] at length
    refine ⟨?_, ?_⟩
    · rintro rfl
      exact absurd length (by decide)
    · rintro rfl
      exact absurd length (by decide)

/-- The path of a fingerprint is the fingerprint behind a slash. -/
theorem pathOf_fingerprint (fingerprint : Fingerprint) :
    pathOf ('/' :: fingerprint.text.toList) = '/' :: fingerprint.text.toList := by
  obtain ⟨_, digits⟩ := fingerprint.wellFormed
  have whole : Text.fields isSlash fingerprint.text.toList = [fingerprint.text.toList] := by
    apply Text.fields_of_none
    intro symbol member
    have noMark := notMem_of_isDigit (digits symbol member)
    simp only [List.mem_cons, List.not_mem_nil, or_false, not_or] at noMark
    simp [isSlash, noMark]
  have unescaped : percentEncode isEscapedInPath fingerprint.text.toList =
      fingerprint.text.toList := by
    apply percentEncode_of_none
    intro symbol member
    obtain ⟨number, value⟩ := value?_of_isDigit (digits symbol member)
    exact kept_of_value? value
  have fields : escapedFields fingerprint.text.toList = [fingerprint.text.toList] := by
    unfold escapedFields
    rw [whole, List.map_singleton, unescaped]
  rw [pathOf_cons_slash, resolveDots_of_none [] (plainKey_fingerprint fingerprint).noDots,
    fields]
  simp [joined]

end ContentStore.Url
