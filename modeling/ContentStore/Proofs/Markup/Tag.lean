import ContentStore.Markup.Node
import ContentStore.Proofs.Text.Blank
import ContentStore.Proofs.Text.Split
import ContentStore.Proofs.Text.Symbols

/-!
Contract: tags, and what else stands in angle brackets, as they are written.

Owns:
- `Attribute` and `Tag`, a tag with its name and its attributes, and how they are
  written;
- that each of them is read as the piece it was written for, whatever follows it;
- that the attributes of a tag are well formed.

Does not own: which tags belong together.
-/

namespace ContentStore.Markup

variable {front back rest content name : List Char} {last symbol : Char}

/-! ## Names, attributes and tags -/

/-- What stands in names. -/
def isNameSymbol (symbol : Char) : Bool :=
  !isBlank symbol && !"<>/=!?&\"'".toList.contains symbol

def IsName (name : List Char) : Prop :=
  name ≠ [] ∧ ∀ symbol ∈ name, isNameSymbol symbol = true

instance (name : List Char) : Decidable (IsName name) :=
  inferInstanceAs (Decidable (_ ∧ _))

/-- Blanks, or nothing. -/
def IsGap (symbols : List Char) : Prop :=
  ∀ symbol ∈ symbols, isBlank symbol = true

instance (symbols : List Char) : Decidable (IsGap symbols) :=
  inferInstanceAs (Decidable (∀ symbol ∈ symbols, isBlank symbol = true))

/-- A name with a value in quotes, behind some blanks. -/
structure Attribute where
  gap : List Char
  name : List Char
  quote : Char
  value : List Char

namespace Attribute

def write (setting : Attribute) : List Char :=
  setting.gap ++ (setting.name ++ '=' :: setting.quote ::
    (setting.value ++ [setting.quote]))

structure Sound (setting : Attribute) : Prop where
  apart : setting.gap ≠ []
  gap : IsGap setting.gap
  name : IsName setting.name
  quote : setting.quote = '"' ∨ setting.quote = '\''
  value : setting.quote ∉ setting.value

end Attribute

/-- What stands between the brackets of a tag, but for slashes. -/
structure Tag where
  name : List Char
  attributes : List Attribute
  /-- The blanks at the end. -/
  gap : List Char

namespace Tag

/-- The tag of a name alone. -/
def named (name : String) : Tag :=
  ⟨name.toList, [], []⟩

def attributeText (tag : Tag) : List Char :=
  tag.attributes.flatMap Attribute.write ++ tag.gap

def text (tag : Tag) : List Char :=
  tag.name ++ tag.attributeText

structure Sound (tag : Tag) : Prop where
  name : IsName tag.name
  attributes : ∀ setting ∈ tag.attributes, setting.Sound
  once : (tag.attributes.map Attribute.name).Nodup
  gap : IsGap tag.gap

theorem sound_named {name : String} (isName : IsName name.toList) : (named name).Sound where
  name := isName
  attributes := List.forall_mem_nil _
  once := List.nodup_nil
  gap := List.forall_mem_nil _

end Tag

/-! ## Brackets that end a tag -/

/-- No bracket in a text ends a tag, and no quote in it is left open. -/
def Passes (front : List Char) : Prop :=
  ∀ rest, cutTag none (front ++ rest) =
    (cutTag none rest).map fun (before, after) => (front ++ before, after)

private theorem passes_nil : Passes [] := by
  intro rest
  simp

private theorem Passes.append (passesFront : Passes front) (passesBack : Passes back) :
    Passes (front ++ back) := by
  intro rest
  rw [List.append_assoc, passesFront, passesBack, Option.map_map]
  simp only [Function.comp_def, List.append_assoc]

private theorem passes_of_plain
    (plain : ∀ symbol ∈ front, symbol ≠ '>' ∧ symbol ≠ '"' ∧ symbol ≠ '\'') : Passes front := by
  induction front with
  | nil => exact passes_nil
  | cons symbol front inductionHypothesis =>
    intro rest
    obtain ⟨notEnd, notDouble, notSingle⟩ := plain symbol List.mem_cons_self
    have later := inductionHypothesis
      (fun other member => plain other (List.mem_cons_of_mem _ member)) rest
    rw [List.cons_append]
    simp only [cutTag, if_neg notEnd, notDouble, notSingle, or_self, if_false, later,
      Option.map_map, Function.comp_def, List.cons_append]

private theorem cutTag_quoted (free : symbol ∉ content) (rest : List Char) :
    cutTag (some symbol) (content ++ symbol :: rest) =
      (cutTag none rest).map fun (before, after) => (content ++ symbol :: before, after) := by
  induction content with
  | nil => simp [cutTag]
  | cons other content inductionHypothesis =>
    have different : other ≠ symbol := by
      rintro rfl
      exact free List.mem_cons_self
    have later := inductionHypothesis fun member => free (List.mem_cons_of_mem _ member)
    rw [List.cons_append]
    simp only [cutTag, if_neg different, later, Option.map_map, Function.comp_def,
      List.cons_append]

private theorem plain_of_isNameSymbol (named : isNameSymbol symbol = true) :
    isBlank symbol = false ∧ symbol ∉ "<>/=!?&\"'".toList := by
  unfold isNameSymbol at named
  simpa using named

private theorem not_isBlank_of_isNameSymbol (named : isNameSymbol symbol = true) :
    isBlank symbol = false :=
  (plain_of_isNameSymbol named).1

private theorem ne_of_isNameSymbol {mark : Char} (named : isNameSymbol symbol = true)
    (isMark : mark ∈ "<>/=!?&\"'".toList) : symbol ≠ mark := by
  rintro rfl
  exact (plain_of_isNameSymbol named).2 isMark

theorem eq_of_isBlank (blank : isBlank symbol = true) :
    symbol = ' ' ∨ symbol = '\t' ∨ symbol = '\r' ∨ symbol = '\n' := by
  unfold isBlank at blank
  simpa [or_assoc] using blank

private theorem passes_name (isName : IsName name) : Passes name := by
  apply passes_of_plain
  intro symbol member
  have named := isName.2 symbol member
  exact ⟨ne_of_isNameSymbol named (by decide), ne_of_isNameSymbol named (by decide),
    ne_of_isNameSymbol named (by decide)⟩

private theorem passes_gap (isGap : IsGap front) : Passes front := by
  apply passes_of_plain
  intro symbol member
  rcases eq_of_isBlank (isGap symbol member) with rfl | rfl | rfl | rfl <;> decide

/-- A value in quotes is passed, brackets in it included. -/
theorem passes_quoted {quote : Char} (isQuote : quote = '"' ∨ quote = '\'')
    (free : quote ∉ content) : Passes (quote :: (content ++ [quote])) := by
  intro rest
  have notEnd : quote ≠ '>' := by
    rcases isQuote with rfl | rfl <;> decide
  have valueRead := cutTag_quoted free rest
  simp only [List.cons_append, List.append_assoc, List.nil_append]
  rw [cutTag]
  simp only [if_neg notEnd, if_pos isQuote, valueRead, Option.map_map, Function.comp_def]

/-- The text of a tag does not look like that of an element without content. -/
abbrev EndsOpen (symbols : List Char) : Prop :=
  symbols.getLast? ≠ some '/'

private theorem endsOpen_append (opensFront : EndsOpen front) (opensBack : EndsOpen back) :
    EndsOpen (front ++ back) := by
  unfold EndsOpen
  rw [List.getLast?_append]
  cases last : back.getLast? with
  | none => exact opensFront
  | some symbol => exact fun slash => opensBack (last.trans slash)

private theorem endsOpen_of_notMem (free : '/' ∉ front) : EndsOpen front :=
  fun slash => free (List.mem_of_getLast? slash)

private theorem endsOpen_name (isName : IsName name) : EndsOpen name := by
  apply endsOpen_of_notMem
  intro slash
  exact ne_of_isNameSymbol (isName.2 '/' slash) (by decide) rfl

private theorem endsOpen_gap (isGap : IsGap front) : EndsOpen front := by
  apply endsOpen_of_notMem
  intro slash
  exact absurd (isGap '/' slash) (by decide)

/-- What follows a slash decides whether the slash ends a tag. -/
theorem endsOpen_append_of_ne_nil (some_back : back ≠ []) (opensBack : EndsOpen back)
    (front : List Char) : EndsOpen (front ++ back) := by
  unfold EndsOpen
  rw [List.getLast?_append_of_ne_nil front some_back]
  exact opensBack

/-- What can stand between the name of a tag and its end. -/
structure FollowsName (attributes : List Char) : Prop where
  /-- It is set apart from the name. -/
  begins : ∀ symbol ∈ attributes.head?, isBlank symbol = true
  passes : Passes attributes
  endsOpen : EndsOpen attributes

private theorem followsName_of_gap (isGap : IsGap front) : FollowsName front where
  begins := fun symbol begins => isGap symbol (List.mem_of_mem_head? begins)
  passes := passes_gap isGap
  endsOpen := endsOpen_gap isGap

/-- The ways to write attributes: each is set apart by blanks and has a value in quotes,
and there may be blanks around the equality sign and at the end. -/
inductive WritesAttributes : List Char → Prop where
  | gap {gap : List Char} (isGap : IsGap gap) : WritesAttributes gap
  | setting {gap name gapBefore gapAfter value rest : List Char} {quote : Char}
    (apart : gap ≠ []) (isGap : IsGap gap) (isName : IsName name) (isGapBefore : IsGap gapBefore)
    (isGapAfter : IsGap gapAfter) (isQuote : quote = '"' ∨ quote = '\'') (free : quote ∉ value)
    (later : WritesAttributes rest) :
    WritesAttributes (gap ++ (name ++ (gapBefore ++ '=' ::
      (gapAfter ++ quote :: (value ++ quote :: rest)))))

theorem WritesAttributes.followsName {attributes : List Char}
    (writes : WritesAttributes attributes) : FollowsName attributes := by
  induction writes with
  | gap isGap => exact followsName_of_gap isGap
  | @setting gap name gapBefore gapAfter value rest quote apart isGap isName isGapBefore
      isGapAfter isQuote free later inductionHypothesis =>
    refine ⟨?_, ?_, ?_⟩
    · intro symbol begins
      obtain ⟨blank, more, rfl⟩ := List.exists_cons_of_ne_nil apart
      rw [← Option.some.inj begins]
      exact isGap blank List.mem_cons_self
    · have passesSign : Passes ['='] := passes_of_plain (by decide)
      have passesValue := (passes_quoted isQuote free).append inductionHypothesis.passes
      have passesSetting := (passes_gap isGapBefore).append
        (passesSign.append ((passes_gap isGapAfter).append passesValue))
      have passes := (passes_gap isGap).append ((passes_name isName).append passesSetting)
      simpa using passes
    · have endsQuote : EndsOpen [quote] := by
        apply endsOpen_of_notMem
        rcases isQuote with rfl | rfl <;> decide
      have ends := endsOpen_append_of_ne_nil (List.cons_ne_nil quote rest)
        (endsOpen_append endsQuote inductionHypothesis.endsOpen)
        (gap ++ (name ++ (gapBefore ++ '=' :: (gapAfter ++ quote :: value))))
      simpa using ends

private theorem Tag.Sound.writesAttributes {tag : Tag} (sound : tag.Sound) :
    WritesAttributes tag.attributeText := by
  have each := sound.attributes
  unfold Tag.attributeText
  generalize tag.attributes = settings at each ⊢
  induction settings with
  | nil => exact .gap sound.gap
  | cons setting rest inductionHypothesis =>
    have soundFirst := each setting List.mem_cons_self
    have noGap : IsGap [] := List.forall_mem_nil _
    have writes := WritesAttributes.setting soundFirst.apart soundFirst.gap soundFirst.name
      noGap noGap soundFirst.quote soundFirst.value
      (inductionHypothesis fun other member => each other (List.mem_cons_of_mem _ member))
    rw [List.flatMap_cons, Attribute.write]
    simpa using writes

/-- What begins with none of the marks is read as a tag. -/
theorem readMarkup_of_unmarked (unmarked : symbol ≠ '!' ∧ symbol ≠ '?' ∧ symbol ≠ '/')
    (rest : List Char) :
    readMarkup (symbol :: rest) =
      (cutTag none (symbol :: rest)).map fun (body, after) => (tag body, after) := by
  obtain ⟨notBang, notQuestion, notSlash⟩ := unmarked
  unfold readMarkup
  split
  case h_7 => rfl
  case h_6 begun => exact absurd (List.cons.inj begun).1 notSlash
  case h_5 begun => exact absurd (List.cons.inj begun).1 notQuestion
  case h_4 begun => exact absurd (List.cons.inj begun).1 notQuestion
  all_goals
    rename_i begun
    exact absurd (List.cons.inj begun).1 notBang

/-! ## Tags as pieces -/

namespace FollowsName

variable {attributes : List Char}

private theorem tagName_eq (isName : IsName name) (follows : FollowsName attributes) :
    tagName (name ++ attributes) = name ∧ tagAttributes (name ++ attributes) = attributes := by
  have named : ∀ symbol ∈ name, (!isBlank symbol) = true := by
    intro symbol member
    rw [not_isBlank_of_isNameSymbol (isName.2 symbol member)]
    rfl
  unfold tagName tagAttributes
  rw [List.takeWhile_append_of_pos named, List.dropWhile_append_of_pos named]
  cases attributes with
  | nil => simp
  | cons first more =>
    have blank := follows.begins first rfl
    rw [List.takeWhile_cons_of_neg (by simp [blank]),
      List.dropWhile_cons_of_neg (by simp [blank]), List.append_nil]
    exact ⟨rfl, rfl⟩

/-- What begins with a name is a tag, and is read up to its bracket. -/
theorem readMarkup_eq (isName : IsName name) (passes : Passes back) (rest : List Char) :
    readMarkup (name ++ (back ++ '>' :: rest)) = some (tag (name ++ back), rest) := by
  have whole : cutTag none (name ++ (back ++ '>' :: rest)) = some (name ++ back, rest) := by
    rw [← List.append_assoc, (passes_name isName).append passes]
    simp [cutTag]
  obtain ⟨first, more, spelled⟩ := List.exists_cons_of_ne_nil isName.1
  have named : isNameSymbol first = true := isName.2 first (spelled ▸ List.mem_cons_self)
  have unmarked : first ≠ '!' ∧ first ≠ '?' ∧ first ≠ '/' :=
    ⟨ne_of_isNameSymbol named (by decide), ne_of_isNameSymbol named (by decide),
      ne_of_isNameSymbol named (by decide)⟩
  have begins : name ++ (back ++ '>' :: rest) = first :: (more ++ (back ++ '>' :: rest)) := by
    rw [spelled, List.cons_append]
  rw [begins, readMarkup_of_unmarked unmarked, ← begins, whole]
  rfl

theorem readMarkup_opening (isName : IsName name) (follows : FollowsName attributes)
    (rest : List Char) :
    readMarkup (name ++ (attributes ++ '>' :: rest)) = some (.opening name attributes, rest) := by
  obtain ⟨sameName, sameAttributes⟩ := tagName_eq isName follows
  have isTag : tag (name ++ attributes) = .opening name attributes := by
    unfold tag
    rw [if_neg (endsOpen_append (endsOpen_name isName) follows.endsOpen), sameName,
      sameAttributes]
  rw [readMarkup_eq isName follows.passes, isTag]

theorem readMarkup_standalone (isName : IsName name) (follows : FollowsName attributes)
    (rest : List Char) :
    readMarkup (name ++ (attributes ++ '/' :: '>' :: rest)) =
      some (.standalone name attributes, rest) := by
  obtain ⟨sameName, sameAttributes⟩ := tagName_eq isName follows
  have passesSlash : Passes ['/'] := passes_of_plain (by decide)
  have isTag : tag (name ++ (attributes ++ ['/'])) = .standalone name attributes := by
    unfold tag
    rw [← List.append_assoc, if_pos (by simp), List.dropLast_concat, sameName, sameAttributes]
  have read := readMarkup_eq isName (follows.passes.append passesSlash) rest
  rwa [isTag, List.append_assoc, List.singleton_append] at read

end FollowsName

namespace Tag

variable {tag : Tag}

private theorem Sound.followsName (sound : tag.Sound) : FollowsName tag.attributeText :=
  sound.writesAttributes.followsName

theorem readMarkup_opening (sound : tag.Sound) (rest : List Char) :
    readMarkup (tag.text ++ '>' :: rest) =
      some (.opening tag.name tag.attributeText, rest) := by
  unfold text
  rw [List.append_assoc]
  exact sound.followsName.readMarkup_opening sound.name rest

theorem readMarkup_standalone (sound : tag.Sound) (rest : List Char) :
    readMarkup (tag.text ++ '/' :: '>' :: rest) =
      some (.standalone tag.name tag.attributeText, rest) := by
  unfold text
  rw [List.append_assoc]
  exact sound.followsName.readMarkup_standalone sound.name rest

end Tag

private theorem trimEnd_name (isName : IsName name) {gap : List Char} (isGap : IsGap gap) :
    Text.trimEnd isBlank (name ++ gap) = name := by
  have dropped : ∀ symbol ∈ gap.reverse, isBlank symbol = true :=
    fun symbol member => isGap symbol (List.mem_reverse.mp member)
  have untrimmed : Text.trimEnd isBlank name = name := by
    apply Text.trimEnd_eq_self
    intro symbol last
    exact not_isBlank_of_isNameSymbol (isName.2 symbol (List.mem_of_getLast? last))
  unfold Text.trimEnd at untrimmed ⊢
  rw [List.reverse_append, List.dropWhile_append_of_pos dropped, untrimmed]

/-- A closing tag may have blanks behind its name. -/
theorem readMarkup_closing_gap (isName : IsName name) {gap : List Char} (isGap : IsGap gap)
    (rest : List Char) :
    readMarkup ('/' :: (name ++ (gap ++ '>' :: rest))) = some (.closing name, rest) := by
  have whole : cutTag none (name ++ (gap ++ '>' :: rest)) = some (name ++ gap, rest) := by
    rw [← List.append_assoc, (passes_name isName).append (passes_gap isGap)]
    simp [cutTag]
  have notBlank : (name ++ gap).all isBlank = false := by
    obtain ⟨first, more, rfl⟩ := List.exists_cons_of_ne_nil isName.1
    rw [List.cons_append, List.all_cons,
      not_isBlank_of_isNameSymbol (isName.2 first List.mem_cons_self)]
    rfl
  unfold readMarkup
  simp only [whole, Option.map_some, closingName, notBlank, trimEnd_name isName isGap]
  rfl

theorem readMarkup_closing (isName : IsName name) (rest : List Char) :
    readMarkup ('/' :: (name ++ '>' :: rest)) = some (.closing name, rest) :=
  readMarkup_closing_gap isName (List.forall_mem_nil _) rest

theorem readMarkup_verbatim (free : ¬ "]]>".toList <:+: content) (rest : List Char) :
    readMarkup ("![CDATA[".toList ++ (content ++ ("]]>".toList ++ rest))) =
      some (.segment (.verbatim content), rest) := by
  have lone : '>' ∉ "]]".toList := by decide
  have whole : Text.cut "]]>".toList (content ++ ("]]>".toList ++ rest)) =
      some (content, rest) := Text.cut_append_mark lone free rest
  show (Text.cut "]]>".toList (content ++ ("]]>".toList ++ rest))).map _ = _
  rw [whole]
  rfl

theorem readMarkup_comment (free : ¬ "-->".toList <:+: content) (rest : List Char) :
    readMarkup ("!--".toList ++ (content ++ ("-->".toList ++ rest))) = some (.aside, rest) := by
  have lone : '>' ∉ "--".toList := by decide
  have whole : Text.cut "-->".toList (content ++ ("-->".toList ++ rest)) =
      some (content, rest) := Text.cut_append_mark lone free rest
  show (Text.cut "-->".toList (content ++ ("-->".toList ++ rest))).map _ = _
  rw [whole]
  rfl

theorem readMarkup_question (begins : rest.head? ≠ some '>') :
    readMarkup ('?' :: rest) =
      (Text.cut "?>".toList rest).map fun (_, after) => (.aside, after) := by
  have notBang : ('?' : Char) ≠ '!' := by decide
  have notSlash : ('?' : Char) ≠ '/' := by decide
  unfold readMarkup
  split
  case h_4 begun =>
    rw [(List.cons.inj begun).2] at begins
    exact absurd rfl begins
  case h_5 begun =>
    rw [(List.cons.inj begun).2]
  case h_6 begun => exact absurd (List.cons.inj begun).1 notSlash
  case h_7 notQuestion _ => exact (notQuestion rest rfl).elim
  all_goals
    rename_i begun
    exact absurd (List.cons.inj begun).1 notBang

theorem readMarkup_instruction (free : ¬ "?>".toList <:+: content)
    (begins : content.head? ≠ some '>') (rest : List Char) :
    readMarkup ('?' :: (content ++ ("?>".toList ++ rest))) = some (.aside, rest) := by
  have lone : '>' ∉ "?".toList := by decide
  have whole : Text.cut "?>".toList (content ++ ("?>".toList ++ rest)) =
      some (content, rest) := Text.cut_append_mark lone free rest
  have beginsWhole : (content ++ ("?>".toList ++ rest)).head? ≠ some '>' := by
    cases content with
    | nil =>
      intro marked
      have same : '?' = '>' := Option.some.inj marked
      exact absurd same (by decide)
    | cons first more => exact begins
  rw [readMarkup_question beginsWhole, whole]
  rfl

/-! ## Attributes that are well formed -/

private theorem trimStart_visible (visible : isBlank symbol = false) (more : List Char) :
    Text.trimStart isBlank (symbol :: more) = symbol :: more := by
  apply Text.trimStart_eq_self
  intro first begins
  rw [← Option.some.inj begins]
  exact visible

private theorem trimStart_gap (isGap : IsGap front) (rest : List Char) :
    Text.trimStart isBlank (front ++ rest) = Text.trimStart isBlank rest :=
  List.dropWhile_append_of_pos isGap

/-- An attribute is well formed if its name is a new one; what follows it is
read next. -/
theorem attributesAreSoundWithin_write {setting : Attribute} (sound : setting.Sound)
    (seen : List (List Char)) (fuel : Nat) (rest : List Char) :
    attributesAreSoundWithin seen (fuel + 1) (setting.write ++ rest) =
      (!seen.contains setting.name &&
        attributesAreSoundWithin (setting.name :: seen) fuel rest) := by
  obtain ⟨some_name, symbols⟩ := sound.name
  obtain ⟨first, more, spelled⟩ := List.exists_cons_of_ne_nil some_name
  have firstNamed : isNameSymbol first = true := symbols first (spelled ▸ List.mem_cons_self)
  have trimmed : Text.trimStart isBlank (setting.write ++ rest) =
      first :: (more ++ '=' :: setting.quote :: (setting.value ++ setting.quote :: rest)) := by
    have written : setting.write ++ rest = setting.gap ++ first ::
        (more ++ '=' :: setting.quote :: (setting.value ++ setting.quote :: rest)) := by
      unfold Attribute.write
      rw [spelled]
      simp
    rw [written, trimStart_gap sound.gap,
      trimStart_visible (not_isBlank_of_isNameSymbol firstNamed)]
  have inName : ∀ symbol ∈ more, (symbol != '=' && !isBlank symbol) = true := by
    intro symbol member
    have named := symbols symbol (spelled ▸ List.mem_cons_of_mem _ member)
    rw [not_isBlank_of_isNameSymbol named, bne_iff_ne.mpr (ne_of_isNameSymbol named (by decide))]
    rfl
  have quoteVisible : isBlank setting.quote = false := by
    rcases sound.quote with quote | quote <;> rw [quote] <;> decide
  have isQuote : (setting.quote == '"' || setting.quote == '\'') = true := by
    simpa using sound.quote
  rw [attributesAreSoundWithin, trimmed]
  simp only [List.takeWhile_append_of_pos inName, List.dropWhile_append_of_pos inName]
  rw [List.takeWhile_cons_of_neg (by decide), List.dropWhile_cons_of_neg (by decide),
    List.append_nil, ← spelled]
  simp only [trimStart_visible (show isBlank '=' = false by decide),
    trimStart_visible quoteVisible, isQuote, Text.cut_quote sound.value, Bool.true_and]

theorem trimStart_of_isGap (isGap : IsGap front) : Text.trimStart isBlank front = [] := by
  rw [← List.append_nil front, trimStart_gap isGap]
  rfl

private theorem attributesAreSoundWithin_gap (isGap : IsGap front) (seen : List (List Char))
    (fuel : Nat) : attributesAreSoundWithin seen fuel front = true := by
  cases fuel with
  | zero => rfl
  | succ fuel =>
    rw [attributesAreSoundWithin, trimStart_of_isGap isGap]

private theorem attributesAreSoundWithin_flatMap {attributes : List Attribute} {gap : List Char}
    (sound : ∀ setting ∈ attributes, setting.Sound) (isGap : IsGap gap)
    (once : (attributes.map Attribute.name).Nodup) {seen : List (List Char)}
    (unseen : ∀ setting ∈ attributes, setting.name ∉ seen) (fuel : Nat) :
    attributesAreSoundWithin seen fuel (attributes.flatMap Attribute.write ++ gap) = true := by
  induction attributes generalizing seen fuel with
  | nil => exact attributesAreSoundWithin_gap isGap seen fuel
  | cons setting rest inductionHypothesis =>
    cases fuel with
    | zero => rfl
    | succ fuel =>
      obtain ⟨newName, onceLater⟩ := List.nodup_cons.mp once
      have unseenLater : ∀ other ∈ rest, other.name ∉ setting.name :: seen := by
        intro other member
        simp only [List.mem_cons, not_or]
        refine ⟨?_, unseen other (List.mem_cons_of_mem _ member)⟩
        intro same
        exact newName (same ▸ List.mem_map_of_mem member)
      rw [List.flatMap_cons, List.append_assoc,
        attributesAreSoundWithin_write (sound setting List.mem_cons_self),
        inductionHypothesis (fun other member => sound other (List.mem_cons_of_mem _ member))
          onceLater unseenLater]
      simpa using unseen setting List.mem_cons_self

theorem Tag.Sound.attributesAreSound {tag : Tag} (sound : tag.Sound) :
    attributesAreSound tag.attributeText = true :=
  attributesAreSoundWithin_flatMap sound.attributes sound.gap sound.once
    (fun _ _ => List.not_mem_nil) _

end ContentStore.Markup
