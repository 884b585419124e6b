import ContentStore.Proofs.Toml.Number
import ContentStore.Proofs.Toml.Quoted
import ContentStore.Toml.Document

/-!
Contract: documents that bind keys to strings and integers.

Owns:
- `SpellsItem` and `SpellsKey`, all ways to write a string of one line between double
  quotes, an integer, and a key of one part;
- `Line` and `Flat`, documents of lines that bind such keys, or bind nothing, with
  blanks wherever they may stand;
- that a document is read as its bindings in their order, if no key is bound twice.

Does not own: headers, keys of several parts, and other values.
-/

namespace ContentStore.Toml

/-! ## Values -/

/-- The ways to write a text between double quotes, and an integer of 64 bits. -/
inductive SpellsItem : Item → List Char → Prop where
  | text {content spelled : List Char} (spells : SpellsBasic content spelled) :
      SpellsItem (.text (String.ofList content)) ('"' :: spelled ++ ['"'])
  | integer {number : Int} {spelled : List Char} (fits : Fits number)
      (spells : SpellsInteger number spelled) : SpellsItem (.integer number) spelled

variable {item : Item} {key : String} {spelled tail rest : List Char} {number : Int}

/-- An integer begins with a digit or with a sign. -/
theorem SpellsInteger.exists_head (spells : SpellsInteger number spelled) :
    ∃ first more, spelled = first :: more ∧
      (Text.Decimal.isDigit first = true ∨ first ∈ ['+', '-']) := by
  cases spells with
  | decimal signed grouped =>
    obtain ⟨symbol, more, rfl, digit⟩ := isDigit_of_grouped grouped
    simp only [List.mem_cons, List.not_mem_nil, or_false] at signed
    rcases signed with rfl | rfl | rfl
    · exact ⟨_, _, rfl, Or.inl digit⟩
    · exact ⟨_, _, rfl, Or.inr (by decide)⟩
    · exact ⟨_, _, rfl, Or.inr (by decide)⟩
  | based => exact ⟨_, _, rfl, Or.inl (by decide)⟩

/-- What begins with a digit or a sign is read as a number or a date. -/
theorem readValue_of_number (depth : Nat) {first : Char}
    (begins : Text.Decimal.isDigit first = true ∨ first ∈ ['+', '-']) (rest : List Char) :
    readValue depth (first :: rest) = readNumberOrDate (first :: rest) := by
  have other {mark : Char} (marked : mark ∈ ['[', '\x7b', '"', '\'', 't', 'f']) : first ≠ mark := by
    have everyMark : ∀ mark ∈ ['[', '\x7b', '"', '\'', 't', 'f'],
        ¬ (Text.Decimal.isDigit mark = true ∨ mark ∈ ['+', '-']) := by
      decide
    rintro rfl
    exact everyMark first marked begins
  unfold readValue
  split
  all_goals first
    | rfl
    | (rename_i same
       exact absurd (List.cons.inj same).1 (other (by decide)))

/-- A value is read up to what may stand behind it. -/
theorem SpellsItem.readValue_append (spells : SpellsItem item spelled) (depth : Nat)
    (ends : Ends tail) : readValue depth (spelled ++ tail) = some (item, tail) := by
  cases spells with
  | @text content spelled spells =>
    have ended : tail.head? ≠ some '"' := by
      intro quote
      exact absurd (ends '"' quote) (by decide)
    have read := spells.readText_append ended
    have asText : readValue depth ('"' :: (spelled ++ ['"'] ++ tail)) =
        (readText ('"' :: (spelled ++ ['"'] ++ tail))).map fun read =>
          (.text (String.ofList read.1), read.2) := by
      cases depth <;> rfl
    rw [List.cons_append, List.cons_append, asText, List.append_assoc]
    rw [List.cons_append] at read
    rw [List.singleton_append, read]
    rfl
  | integer fits spells =>
    have read := spells.readNumberOrDate_append fits ends
    obtain ⟨first, more, rfl, begins⟩ := spells.exists_head
    rw [List.cons_append, readValue_of_number depth begins]
    exact read

/-! ## Keys -/

/-- The ways to write a key of one part. -/
inductive SpellsKey (key : String) : List Char → Prop where
  | bare (some_symbol : key.toList ≠ []) (plain : ∀ symbol ∈ key.toList, isBare symbol = true) :
      SpellsKey key key.toList
  | basic {spelled : List Char} (spells : SpellsBasic key.toList spelled) :
      SpellsKey key ('"' :: spelled ++ ['"'])
  | literal (plain : ∀ symbol ∈ key.toList, isLiteral symbol = true) :
      SpellsKey key ('\'' :: key.toList ++ ['\''])

private theorem readLiteralRest_append {text : List Char}
    (plain : ∀ symbol ∈ text, isLiteral symbol = true) (rest : List Char) :
    readLiteralRest (text ++ '\'' :: rest) = some (text, rest) := by
  induction text with
  | nil => rfl
  | cons symbol more inductionHypothesis =>
    obtain ⟨literal, others⟩ := List.forall_mem_cons.mp plain
    have notQuote : symbol ≠ '\'' := by
      rintro rfl
      exact absurd literal (by decide)
    rw [List.cons_append, readLiteralRest, if_pos literal, inductionHypothesis others]
    · rfl
    · exact notQuote

/-- A key is read up to what cannot belong to it. -/
theorem SpellsKey.readKeyPart_append (spells : SpellsKey key spelled)
    (ended : ∀ symbol ∈ rest.head?, isBare symbol = false) :
    readKeyPart (spelled ++ rest) = some (key, rest) := by
  cases spells with
  | bare some_symbol plain =>
    have dropped := dropWhile_append_exact plain ended
    have parts : (key.toList ++ rest).takeWhile isBare ++ (key.toList ++ rest).dropWhile isBare =
        key.toList ++ rest :=
      List.takeWhile_append_dropWhile
    rw [dropped] at parts
    have taken := List.append_cancel_right parts
    unfold readKeyPart
    split
    · rename_i same
      obtain ⟨first, more, spelled⟩ := List.exists_cons_of_ne_nil some_symbol
      rw [spelled] at same plain
      rw [(List.cons.inj same).1] at plain
      exact absurd (plain '"' List.mem_cons_self) (by decide)
    · rename_i same
      obtain ⟨first, more, spelled⟩ := List.exists_cons_of_ne_nil some_symbol
      rw [spelled] at same plain
      rw [(List.cons.inj same).1] at plain
      exact absurd (plain '\'' List.mem_cons_self) (by decide)
    · simp only [taken, dropped, List.isEmpty_iff, some_symbol, if_false, String.ofList_toList]
      rfl
  | @basic spelled spells =>
    have enough : key.toList.length ≤ (spelled ++ '"' :: rest).length + 1 := by
      have shorter := spells.length_le
      simp only [List.length_append]
      omega
    rw [List.cons_append, List.cons_append, List.append_assoc, List.singleton_append, readKeyPart,
      spells.readBasicRest_append enough]
    show some (String.ofList key.toList, rest) = _
    rw [String.ofList_toList]
  | literal plain =>
    rw [List.cons_append, List.cons_append, List.append_assoc, List.singleton_append, readKeyPart,
      readLiteralRest_append plain]
    show some (String.ofList key.toList, rest) = _
    rw [String.ofList_toList]

/-- A key does not begin with a blank, and not with what a line without a key begins
with. -/
theorem SpellsKey.exists_head (spells : SpellsKey key spelled) :
    ∃ first more, spelled = first :: more ∧
      first ∉ [' ', '\t', '#', '\n', '\r', '[', '\ufeff'] := by
  have everyMark : ∀ mark ∈ [' ', '\t', '#', '\n', '\r', '[', '\ufeff'],
      isBare mark = false := by
    decide
  cases spells with
  | bare some_symbol plain =>
    obtain ⟨first, more, spelled⟩ := List.exists_cons_of_ne_nil some_symbol
    refine ⟨first, more, spelled, fun marked => ?_⟩
    have bare := plain first (by rw [spelled]; exact List.mem_cons_self)
    rw [everyMark first marked] at bare
    exact Bool.false_ne_true bare
  | basic => exact ⟨_, _, rfl, by decide⟩
  | literal => exact ⟨_, _, rfl, by decide⟩

private theorem isBlank_eq_false {symbol : Char} (notSpace : symbol ≠ ' ')
    (notTab : symbol ≠ '\t') :
    isBlank symbol = false := by
  simp [isBlank, notSpace, notTab]

private theorem not_isBare_of_isBlank {symbol : Char} (blank : isBlank symbol = true) :
    isBare symbol = false := by
  simp only [isBlank, Bool.or_eq_true, beq_iff_eq] at blank
  rcases blank with rfl | rfl <;> decide

/-- A key of one part is read up to the sign behind it. -/
theorem SpellsKey.readKey_append (spells : SpellsKey key spelled) {gap : List Char}
    (blank : AllBlank gap) (fuel : Nat) (rest : List Char) :
    readKey (fuel + 1) (spelled ++ (gap ++ '=' :: rest)) = some ([key], '=' :: rest) := by
  have ended : ∀ symbol ∈ (gap ++ '=' :: rest).head?, isBare symbol = false := by
    cases gap with
    | nil => exact fun symbol first => Option.some.inj first ▸ (by decide)
    | cons head more =>
      exact fun symbol first =>
        Option.some.inj first ▸ not_isBare_of_isBlank (blank head List.mem_cons_self)
  have skipped : skipBlanks (gap ++ '=' :: rest) = '=' :: rest :=
    skipBlanks_append blank fun symbol first => Option.some.inj first ▸ (by decide)
  have begins : skipBlanks (spelled ++ (gap ++ '=' :: rest)) = spelled ++ (gap ++ '=' :: rest) := by
    obtain ⟨first, more, rfl, other⟩ := spells.exists_head
    refine skipBlanks_append (fun _ member => absurd member List.not_mem_nil) ?_
    intro symbol isFirst
    obtain rfl : first = symbol := Option.some.inj isFirst
    apply isBlank_eq_false <;> rintro rfl <;> exact other (by decide)
  unfold readKey
  rw [begins, spells.readKeyPart_append ended]
  simp only [Option.bind_eq_bind, Option.bind_some, skipped]
  rfl

/-! ## Lines -/

/-- The ways to write a line that binds nothing or one key, without its end. -/
inductive Line : Entries → List Char → Prop where
  | filler {blanks comment : List Char} (blank : AllBlank blanks) (written : Comment comment) :
      Line [] (blanks ++ comment)
  | binding {indent name gap space value trail comment : List Char} {key : String} {item : Item}
      (indented : AllBlank indent) (named : SpellsKey key name) (apart : AllBlank gap)
      (spaced : AllBlank space) (valued : SpellsItem item value) (trailed : AllBlank trail)
      (written : Comment comment) :
      Line [(key, item)]
        (indent ++ (name ++ (gap ++ '=' :: (space ++ (value ++ (trail ++ comment))))))

/-- The part of a document that is being read, with more bindings. -/
def Progress.adding (progress : Progress) (entries : Entries) : Progress :=
  { progress with
    current := { progress.current with entries := progress.current.entries ++ entries } }

private theorem Entries.bind_of_fresh {entries : Entries} (fresh : entries.lookup key = none)
    (item : Item) : entries.bind [] key item = some (entries ++ [(key, item)]) := by
  unfold bind descend
  simp [fresh]

/-- A value does not begin with a blank. -/
theorem SpellsItem.exists_head (spells : SpellsItem item spelled) :
    ∃ first more, spelled = first :: more ∧ isBlank first = false := by
  cases spells with
  | text => exact ⟨_, _, rfl, by decide⟩
  | integer _ spells =>
    obtain ⟨first, more, rfl, digit | sign⟩ := spells.exists_head
    · refine ⟨first, more, rfl, ?_⟩
      apply isBlank_eq_false <;> rintro rfl <;> exact absurd digit (by decide)
    · have everySign : ∀ sign ∈ ['+', '-'], isBlank sign = false := by decide
      exact ⟨first, more, rfl, everySign first sign⟩

private theorem readBinding_append {progress : Progress}
    {name gap space value trail comment : List Char}
    (named : SpellsKey key name) (apart : AllBlank gap) (spaced : AllBlank space)
    (valued : SpellsItem item value) (trailed : AllBlank trail) (written : Comment comment)
    (closes : Closes tail rest) (fresh : progress.current.entries.lookup key = none) :
    readBinding progress
        (name ++ (gap ++ '=' :: (space ++ (value ++ (trail ++ (comment ++ tail)))))) =
      some (progress.adding [(key, item)], rest) := by
  have skipped : skipBlanks (space ++ (value ++ (trail ++ (comment ++ tail)))) =
      value ++ (trail ++ (comment ++ tail)) := by
    obtain ⟨first, more, rfl, visible⟩ := valued.exists_head
    exact skipBlanks_append spaced fun symbol isFirst => Option.some.inj isFirst ▸ visible
  have ends := ends_append trailed written closes
  have bound := Entries.bind_of_fresh fresh item
  unfold readBinding
  rw [show nestingLimit = 78 + 1 from rfl, named.readKey_append apart]
  simp only [Option.bind_eq_bind, Option.bind_some, skipped, valued.readValue_append _ ends,
    afterLineEnd?_append trailed written closes, List.dropLast_singleton, List.getLastD_cons,
    List.getLastD_nil, bound]
  rfl

/-- A line is read up to its end. -/
theorem Line.readLine_append {entries : Entries} (line : Line entries spelled)
    (closes : Closes tail rest) {progress : Progress}
    (fresh : ∀ entry ∈ entries, progress.current.entries.lookup entry.1 = none) :
    readLine progress (spelled ++ tail) = some (progress.adding entries, rest) := by
  cases line with
  | @filler blanks comment blank written =>
    have ended := afterLineEnd?_append blank written closes
    have marked := head_mem_of_comment written closes
    have everyMark : ∀ symbol ∈ ['#', '\n', '\r'], isBlank symbol = false := by decide
    have skipped : skipBlanks (blanks ++ (comment ++ tail)) = comment ++ tail :=
      skipBlanks_append blank fun symbol first => everyMark symbol (marked symbol first)
    have same : progress.adding [] = progress := by
      unfold Progress.adding
      rw [List.append_nil]
    rw [List.append_assoc, same]
    unfold readLine
    rw [skipped, ended]
    cases remaining : comment ++ tail with
    | nil => rw [closes.eq_nil (List.append_eq_nil_iff.mp remaining).2]
    | cons first more =>
      have listed := marked first (by rw [remaining]; rfl)
      simp only [List.mem_cons, List.not_mem_nil, or_false] at listed
      rcases listed with rfl | rfl | rfl <;> rfl
  | @binding indent name gap space value trail comment key item indented named apart spaced valued
      trailed written =>
    have unbound : progress.current.entries.lookup key = none := fresh _ List.mem_cons_self
    have bound := readBinding_append named apart spaced valued trailed written closes unbound
    have whole :
        indent ++ (name ++ (gap ++ '=' :: (space ++ (value ++ (trail ++ comment))))) ++ tail =
          indent ++
            (name ++ (gap ++ '=' :: (space ++ (value ++ (trail ++ (comment ++ tail)))))) := by
      simp only [List.append_assoc, List.cons_append]
    obtain ⟨first, more, begins, other⟩ := named.exists_head
    rw [begins, List.cons_append] at bound
    have skipped (rest : List Char) : skipBlanks (indent ++ first :: rest) = first :: rest := by
      refine skipBlanks_append indented fun symbol isFirst => ?_
      obtain rfl : first = symbol := Option.some.inj isFirst
      apply isBlank_eq_false <;> rintro rfl <;> exact other (by decide)
    have apart {mark : Char} (marked : mark ∈ ['#', '\n', '\r', '[']) : first ≠ mark := by
      have everyMark : ∀ mark ∈ ['#', '\n', '\r', '['],
          mark ∈ [' ', '\t', '#', '\n', '\r', '[', '\ufeff'] := by
        decide
      rintro rfl
      exact other (everyMark first marked)
    rw [whole, begins, List.cons_append, readLine, skipped, ← bound]
    -- the first character of a key is none of those that other lines begin with
    split
    · rename_i same
      exact absurd same (List.cons_ne_nil _ _)
    all_goals first
      | rfl
      | (rename_i same
         exact absurd (List.cons.inj same).1 (apart (by decide)))

/-! ## Documents -/

/-- The ways to write a document that binds keys of one part, in their order. -/
inductive Flat : Entries → List Char → Prop where
  | last {entries : Entries} {spelled : List Char} (line : Line entries spelled) :
      Flat entries spelled
  | more {entries others : Entries} {spelled ending rest : List Char}
      (line : Line entries spelled) (newline : Newline ending) (lines : Flat others rest) :
      Flat (entries ++ others) (spelled ++ (ending ++ rest))

private theorem readLines_succ {symbols : List Char} (some_symbol : symbols ≠ []) (fuel : Nat)
    (progress : Progress) :
    readLines (fuel + 1) progress symbols =
      (readLine progress symbols).bind fun (progress, rest) => readLines fuel progress rest := by
  cases symbols with
  | nil => exact absurd rfl some_symbol
  | cons first more => rfl

private theorem Progress.adding_append (progress : Progress) (entries others : Entries) :
    (progress.adding entries).adding others = progress.adding (entries ++ others) := by
  simp only [adding, List.append_assoc]

/-- A binding is fresh if no key is bound twice. -/
theorem lookup_eq_none_of_nodup {entries others : Entries}
    (distinct : ((entries ++ others).map Prod.fst).Nodup) :
    ∀ entry ∈ others, entries.lookup entry.1 = none := by
  intro entry member
  rw [List.map_append] at distinct
  rw [List.lookup_eq_none_iff]
  intro other memberToo
  have apart := (List.nodup_append.mp distinct).2.2 other.1 (List.mem_map_of_mem memberToo) entry.1
    (List.mem_map_of_mem member)
  simpa using apart.symm

/-- Lines are read to the last one, and each adds what it binds. -/
theorem Flat.readLines_eq {entries : Entries} {document : List Char} (flat : Flat entries document)
    {fuel : Nat} (enough : document.length ≤ fuel) {progress : Progress}
    (distinct : ((progress.current.entries ++ entries).map Prod.fst).Nodup) :
    readLines fuel progress document = some (progress.adding entries) := by
  induction flat generalizing fuel progress with
  | @last entries spelled line =>
    have read := line.readLine_append .document (lookup_eq_none_of_nodup distinct)
    rw [List.append_nil] at read
    cases spelled with
    | nil =>
      have nothing : some (progress, []) = some (progress.adding entries, []) := read
      rw [← (Prod.mk.inj (Option.some.inj nothing)).1]
      cases fuel <;> rfl
    | cons first more =>
      obtain ⟨less, rfl⟩ := Nat.exists_eq_add_of_lt (Nat.lt_of_lt_of_le (Nat.succ_pos _) enough)
      rw [Nat.zero_add, readLines_succ (List.cons_ne_nil _ _), read]
      cases less <;> rfl
  | @more entries others spelled ending rest line newline _ inductionHypothesis =>
    rw [← List.append_assoc] at distinct
    have read := line.readLine_append (.line newline rest) (lookup_eq_none_of_nodup
      (distinct.sublist ((List.sublist_append_left _ others).map Prod.fst)))
    have some_end : 0 < ending.length := by cases newline <;> exact Nat.succ_pos _
    have some_symbol : spelled ++ (ending ++ rest) ≠ [] := by
      intro nothing
      rw [List.append_eq_nil_iff, List.append_eq_nil_iff] at nothing
      rw [nothing.2.1] at some_end
      exact Nat.lt_irrefl 0 some_end
    simp only [List.length_append] at enough
    obtain ⟨less, rfl⟩ : ∃ less, fuel = less + 1 := ⟨fuel - 1, by omega⟩
    rw [readLines_succ some_symbol, read]
    show readLines less (progress.adding entries) rest = _
    have shorter : rest.length ≤ less := by omega
    have distinctStill :
        (((progress.adding entries).current.entries ++ others).map Prod.fst).Nodup := distinct
    rw [inductionHypothesis shorter distinctStill, Progress.adding_append]

private theorem head_ne_of_blank {blanks symbols : List Char} (blank : AllBlank blanks)
    (other : symbols.head? ≠ some '\ufeff') : (blanks ++ symbols).head? ≠ some '\ufeff' := by
  cases blanks with
  | nil => exact other
  | cons first more =>
    intro same
    have isBlank := blank first List.mem_cons_self
    rw [Option.some.inj same] at isBlank
    exact absurd isBlank (by decide)

/-- No document begins with a byte order mark. -/
theorem Flat.head_ne {entries : Entries} {document : List Char} (flat : Flat entries document) :
    document.head? ≠ some '\ufeff' := by
  have ofLine {entries : Entries} {spelled : List Char} (line : Line entries spelled) :
      spelled.head? ≠ some '\ufeff' := by
    cases line with
    | filler blank written =>
      refine head_ne_of_blank blank ?_
      cases written <;> simp
    | binding indented named =>
      refine head_ne_of_blank indented ?_
      obtain ⟨first, more, rfl, other⟩ := named.exists_head
      intro same
      rw [Option.some.inj same] at other
      exact other (by decide)
  cases flat with
  | last line => exact ofLine line
  | @more _ _ spelled _ _ line newline =>
    cases spelled with
    | nil => cases newline <;> simp
    | cons => exact fun same => ofLine line same

/-- A document is read as the bindings of its lines. -/
theorem Flat.ofText?_eq {entries : Entries} {document : String}
    (flat : Flat entries document.toList) (distinct : (entries.map Prod.fst).Nodup) :
    Entries.ofText? document = some entries := by
  let start : Progress := ⟨[], ⟨[], false, []⟩⟩
  have read : readLines (document.toList.length + 1) start document.toList =
      some (start.adding entries) :=
    flat.readLines_eq (Nat.le_succ _) distinct
  have unmarked := flat.head_ne
  unfold Entries.ofText?
  split
  · rename_i same
    rw [same] at unmarked
    exact absurd rfl unmarked
  · show (readLines (document.toList.length + 1) start document.toList).bind _ = _
    rw [read]
    rfl

/-! ## Writing -/

/-- Whether a value is a text or an integer of 64 bits. -/
def Item.IsPlain : Item → Prop
  | .text _ => True
  | .integer number => Fits number
  | _ => False

def writeItem : Item → List Char
  | .text content => writeBasic content.toList
  | .integer number => writeInteger number
  | _ => []

/-- A line for each binding, without blanks. -/
def writeEntries (entries : Entries) : List Char :=
  entries.flatMap fun (key, item) => key.toList ++ '=' :: writeItem item ++ ['\n']

/-- A key that needs no quotes. -/
def IsBareKey (key : String) : Prop :=
  key.toList ≠ [] ∧ ∀ symbol ∈ key.toList, isBare symbol = true

instance (key : String) : Decidable (IsBareKey key) :=
  inferInstanceAs (Decidable (_ ∧ ∀ symbol ∈ key.toList, isBare symbol = true))

private theorem spellsItem_write (plain : item.IsPlain) : SpellsItem item (writeItem item) := by
  cases item with
  | text content =>
    have spells := SpellsItem.text (spellsBasic_write content.toList)
    rw [String.ofList_toList] at spells
    exact spells
  | integer number => exact .integer plain (spellsInteger_write number)
  | truth | float | date | array | table | tables => exact absurd plain id

/-- There is a document for all texts and integers under keys that need no quotes. -/
theorem flat_write {entries : Entries}
    (plain : ∀ entry ∈ entries, IsBareKey entry.1 ∧ entry.2.IsPlain) :
    Flat entries (writeEntries entries) := by
  have nothing : AllBlank [] := fun _ member => absurd member List.not_mem_nil
  induction entries with
  | nil => exact .last (.filler nothing .none)
  | cons entry rest inductionHypothesis =>
    obtain ⟨⟨bare, isPlain⟩, others⟩ := List.forall_mem_cons.mp plain
    have line := Line.binding nothing (.bare bare.1 bare.2) nothing nothing
      (spellsItem_write isPlain) nothing .none
    have written := Flat.more line .feed (inductionHypothesis others)
    have whole : writeEntries (entry :: rest) =
        entry.1.toList ++ '=' :: writeItem entry.2 ++ ['\n'] ++ writeEntries rest :=
      List.flatMap_cons
    rw [whole]
    simpa using written

end ContentStore.Toml
