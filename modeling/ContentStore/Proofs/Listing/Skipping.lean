import ContentStore.Listing
import ContentStore.Proofs.Markup.Insertion

/-!
Contract: records with elements in them that they do not know.

Owns:
- the names of the fields of buckets, objects and owners;
- `Keeps`, by which one reading succeeds with the value of another;
- `keeps_readRecord`, by which a record is read as before after an insertion into it or
  into one of its fields, and what this says of owners and of objects.

Does not own: buckets and documents as a whole.
-/

namespace ContentStore.Listing

open Markup (Node Segment Inserts InsertsIn LeadsTo WellFormed textOf)

/-! ## Fields by their names -/

/-- The name by which an element is known. -/
def labelOf (name : List Char) : String :=
  String.ofList (Node.localPart name)

def listingLabels : List String :=
  ["Name", "Prefix", "Marker", "MaxKeys", "IsTruncated", "Contents"]

def objectLabels : List String :=
  ["Key", "LastModified", "ETag", "Size", "Owner", "StorageClass"]

def ownerLabels : List String :=
  ["ID", "DisplayName"]

/-- The fields of the records below a bucket. -/
def recordLabels (label : String) : Option (List String) :=
  if label = "Contents" then some objectLabels
  else if label = "Owner" then some ownerLabels
  else none

variable {Draft Value Other : Type} {add : Draft → String → Node → Except ListingFault Draft}
  {added node node' child child' : Node} {content content' rest rest' : List Node}
  {name attributes : List Char} {path : List (List Char)} {label : String} {draft : Draft}

private theorem addToOwner_of_unknown (unknown : label ∉ ownerLabels) (owner : ObjectOwner)
    (node : Node) :
    addToOwner owner label node = passOver owner node := by
  unfold addToOwner
  split
  case h_3 => rfl
  all_goals exact absurd (by decide) unknown

private theorem addToObject_of_unknown (unknown : label ∉ objectLabels) (draft : ObjectDraft)
    (node : Node) : addToObject draft label node = passOver draft node := by
  unfold addToObject
  split
  case h_7 => rfl
  all_goals exact absurd (by decide) unknown

theorem addToListing_of_unknown (unknown : label ∉ listingLabels) (draft : Listing.Draft)
    (node : Node) : addToListing draft label node = passOver draft node := by
  unfold addToListing
  split
  case h_7 => rfl
  all_goals exact absurd (by decide) unknown

/-- An element of a name, closed, in which all text can be read. -/
def IsWhole (name : List Char) (node : Node) : Prop :=
  ∃ attributes content, node = .element name attributes content true ∧
    Node.allSound content = true

theorem IsWhole.isSound (whole : IsWhole name node) : node.isSound = true := by
  obtain ⟨attributes, content, rfl, sound⟩ := whole
  rw [Node.isSound, sound]
  rfl

theorem IsWhole.addChild_eq (whole : IsWhole name node)
    (passes : ∀ draft node, add draft (labelOf name) node = passOver draft node) (draft : Draft) :
    addChild add draft node = .ok draft := by
  obtain ⟨attributes, content, rfl, _⟩ := whole
  exact passes draft _

/-! ## Readings that agree -/

/-- Readings one after the other succeed only if each of them does. -/
theorem exists_of_bind {first : Except ListingFault Value}
    {next : Value → Except ListingFault Other} {other : Other}
    (succeeds : (first >>= next) = .ok other) :
    ∃ value, first = .ok value ∧ next value = .ok other := by
  cases first with
  | error fault => exact absurd succeeds (by simp [Bind.bind, Except.bind])
  | ok value => exact ⟨value, rfl, succeeds⟩

/-- Whatever the first reading gives, the second gives as well. -/
def Keeps (first second : Except ListingFault Value) : Prop :=
  ∀ value, first = .ok value → second = .ok value

namespace Keeps

variable {first second : Except ListingFault Value}

theorem refl (read : Except ListingFault Value) : Keeps read read :=
  fun _ succeeds => succeeds

theorem bind {next next' : Value → Except ListingFault Other} (keeps : Keeps first second)
    (keepsNext : ∀ value, Keeps (next value) (next' value)) :
    Keeps (first >>= next) (second >>= next') := by
  intro other succeeds
  obtain ⟨value, read, readNext⟩ := exists_of_bind succeeds
  rw [keeps value read]
  exact keepsNext value other readNext

private theorem once (keeps : Keeps first second) (held : Option Value) (field : String) :
    Keeps (Listing.once held field first) (Listing.once held field second) := by
  unfold Listing.once
  split
  · exact refl _
  · intro value succeeds
    cases read : first with
    | error fault =>
      rw [read] at succeeds
      exact absurd succeeds (by simp [Except.map])
    | ok inner =>
      rw [read] at succeeds
      rw [keeps inner read]
      exact succeeds

/-- A field is read as before if its value is. -/
theorem field (keeps : Keeps first second) (held : Option Value) (label : String)
    (next : Option Value → Except ListingFault Other) :
    Keeps (Listing.once held label first >>= next) (Listing.once held label second >>= next) :=
  (keeps.once held label).bind fun _ => refl _

end Keeps

/-! ## Texts and elements that are passed over -/

private theorem text_of_readText {text : String} (read : readText node = .ok text) :
    ∃ name attributes content closed, node = .element name attributes content closed ∧
      ∀ inner ∈ content, ∃ held, inner = .text held := by
  unfold readText at read
  split at read
  · exact ⟨_, _, _, _, rfl, List.forall_mem_nil _⟩
  · exact ⟨_, _, _, _, rfl, List.forall_mem_singleton.mpr ⟨_, rfl⟩⟩
  · exact absurd read (by simp)

private theorem addChild_of_insertsIn (inserts : InsertsIn added (name :: path) node node')
    (add : Draft → String → Node → Except ListingFault Draft) (draft : Draft) :
    addChild add draft node = add draft (labelOf name) node ∧
      addChild add draft node' = add draft (labelOf name) node' := by
  obtain ⟨_, _, _, _, _, _, samePath, rfl, rfl⟩ := inserts.exists_elements
  obtain ⟨rfl, _⟩ := List.cons.inj samePath
  exact ⟨rfl, rfl⟩

private theorem keeps_passOver (inserts : InsertsIn added path node node') (draft : Draft) :
    Keeps (passOver draft node) (passOver draft node') := by
  obtain ⟨_, _, _, _, _, closed, _, rfl, rfl⟩ := inserts.exists_elements
  cases closed <;> exact .refl _

/-- The element at the end of a path is a record that has no field of a name. -/
def IsUnknownAt (label : String) (path : List (List Char)) : Prop :=
  ∃ innermost labels, path.getLast? = some innermost ∧
    recordLabels (labelOf innermost) = some labels ∧ label ∉ labels

private theorem IsUnknownAt.deeper (unknown : IsUnknownAt label (name :: path))
    (some_path : path ≠ []) :
    IsUnknownAt label path := by
  obtain ⟨innermost, labels, last, rest⟩ := unknown
  rw [List.getLast?_cons_of_ne_nil some_path] at last
  exact ⟨innermost, labels, last, rest⟩

private theorem IsUnknownAt.here (unknown : IsUnknownAt label [name]) :
    ∃ labels, recordLabels (labelOf name) = some labels ∧ label ∉ labels := by
  obtain ⟨innermost, labels, last, rest⟩ := unknown
  rw [← Option.some.inj last] at rest
  exact ⟨labels, rest⟩

/-- A field that holds a text has no place for elements in it. -/
theorem keeps_readText (inserts : InsertsIn added (name :: path) node node')
    (unknown : IsUnknownAt label (name :: path)) (noRecord : recordLabels (labelOf name) = none) :
    Keeps (readText node) (readText node') := by
  intro text read
  obtain ⟨_, _, _, _, rfl, onlyText⟩ := text_of_readText read
  cases inserts with
  | here inserts =>
    obtain ⟨labels, isRecord, _⟩ := unknown.here
    rw [noRecord] at isRecord
    exact absurd isRecord (by simp)
  | inside deeper =>
    obtain ⟨_, _, _, _, _, _, _, rfl, rfl⟩ := deeper.exists_elements
    obtain ⟨held, isText⟩ := onlyText _ (List.mem_append_right _ List.mem_cons_self)
    exact absurd isText (by simp)

/-! ## Records -/

/-- Text in a record is passed over, if it can be read. -/
theorem foldlM_textOf {run : List Segment} (legible : ∀ segment ∈ run, segment.IsLegible)
    (draft : Draft) : (textOf run).toList.foldlM (addChild add) draft = .ok draft := by
  have sound := Markup.allSound_textOf.mpr legible
  cases isText : textOf run with
  | none => rfl
  | some node =>
    obtain ⟨content, rfl⟩ := Markup.exists_of_mem_textOf isText
    rw [isText, Option.toList_some, Node.allSound, Node.isSound, Bool.and_eq_true] at sound
    obtain ⟨text, rfl⟩ := Option.isSome_iff_exists.mp sound.1
    rfl

theorem legible_of_foldlM_textOf {run : List Segment} {after : Draft}
    (read : (textOf run).toList.foldlM (addChild add) draft = .ok after) :
    after = draft ∧ ∀ segment ∈ run, segment.IsLegible := by
  rw [← Markup.allSound_textOf]
  cases isText : textOf run with
  | none =>
    rw [isText] at read
    exact ⟨(Except.ok.inj read).symm, rfl⟩
  | some node =>
    obtain ⟨content, rfl⟩ := Markup.exists_of_mem_textOf isText
    rw [isText] at read
    cases content with
    | none => exact absurd read (by simp [addChild, Bind.bind, Except.bind])
    | some text => exact ⟨(Except.ok.inj read).symm, rfl⟩

/-- A record is read as before with one more child that is passed over. -/
theorem keeps_foldlM_of_inserts (inserts : Inserts added content content')
    (passed : ∀ draft, addChild add draft added = .ok draft) (draft : Draft) :
    Keeps (content.foldlM (addChild add) draft) (content'.foldlM (addChild add) draft) := by
  obtain @⟨before, after, whole, left, right, cuts⟩ := inserts
  rw [List.foldlM_append, List.foldlM_append]
  refine (Keeps.refl _).bind fun between value read => ?_
  rw [List.foldlM_append] at read
  obtain ⟨reached, isText, readAfter⟩ := exists_of_bind read
  obtain ⟨rfl, legible⟩ := legible_of_foldlM_textOf isText
  obtain ⟨legibleLeft, legibleRight⟩ := cuts.legible legible
  rw [List.foldlM_append, foldlM_textOf legibleLeft]
  show (added :: ((textOf right).toList ++ after)).foldlM (addChild add) reached = .ok value
  rw [List.foldlM_cons, passed]
  show ((textOf right).toList ++ after).foldlM (addChild add) reached = .ok value
  rw [List.foldlM_append, foldlM_textOf legibleRight]
  exact readAfter

/-- A record is read as before if one of its children is. -/
theorem keeps_foldlM_of_child
    (keeps : ∀ draft, Keeps (addChild add draft child) (addChild add draft child'))
    (before after : List Node) (draft : Draft) :
    Keeps ((before ++ child :: after).foldlM (addChild add) draft)
      ((before ++ child' :: after).foldlM (addChild add) draft) := by
  rw [List.foldlM_append, List.foldlM_append]
  refine (Keeps.refl _).bind fun between => ?_
  rw [List.foldlM_cons, List.foldlM_cons]
  exact (keeps between).bind fun reached => .refl _

private theorem keeps_readRecord_of_content
    (keeps : ∀ draft, Keeps (content.foldlM (addChild add) draft)
      (content'.foldlM (addChild add) draft)) (start : Draft) (closed : Bool) :
    Keeps (readRecord add start (.element name attributes content closed))
      (readRecord add start (.element name attributes content' closed)) := by
  cases sound : Markup.attributesAreSound attributes with
  | false =>
    simp only [readRecord, sound]
    exact .refl _
  | true =>
    simp only [readRecord, sound, if_true]
    exact (keeps start).bind fun _ => .refl _

/-- A record is read as before if what is put into it is passed over, or is put into a field
that is read as before. -/
theorem keeps_readRecord (inserts : InsertsIn added (name :: path) node node')
    (passed : path = [] → ∀ draft, addChild add draft added = .ok draft)
    (field : ∀ inner later child child', path = inner :: later →
      InsertsIn added (inner :: later) child child' → ∀ draft,
        Keeps (add draft (labelOf inner) child) (add draft (labelOf inner) child'))
    (start : Draft) : Keeps (readRecord add start node) (readRecord add start node') := by
  cases inserts with
  | here inserts =>
    exact keeps_readRecord_of_content (keeps_foldlM_of_inserts inserts (passed rfl)) start _
  | @inside _ _ before after child child' _ _ deeper =>
    obtain ⟨inner, later, _, _, _, _, rfl, _⟩ := deeper.exists_elements
    have keepsChild : ∀ draft, Keeps (addChild add draft child) (addChild add draft child') := by
      intro draft
      obtain ⟨isField, isField'⟩ := addChild_of_insertsIn deeper add draft
      rw [isField, isField']
      exact field inner later child child' rfl deeper draft
    exact keeps_readRecord_of_content (keeps_foldlM_of_child keepsChild before after) start _

private theorem keeps_readNumber (keepsText : Keeps (readText node) (readText node'))
    (limit : Nat) :
    Keeps (readNumber limit node) (readNumber limit node') :=
  keepsText.bind fun _ => .refl _

private theorem keeps_readTruth (keepsText : Keeps (readText node) (readText node')) :
    Keeps (readTruth node) (readTruth node') :=
  keepsText.bind fun _ => .refl _

/-! ## Records that are read as before -/

private theorem keeps_addToOwner (inserts : InsertsIn added (name :: path) node node')
    (unknown : IsUnknownAt label (name :: path)) (owner : ObjectOwner) :
    Keeps (addToOwner owner (labelOf name) node) (addToOwner owner (labelOf name) node') := by
  by_cases known : labelOf name ∈ ownerLabels
  · have noRecord : ∀ label ∈ ownerLabels, recordLabels label = none := by decide
    have keepsText := keeps_readText inserts unknown (noRecord _ known)
    simp only [ownerLabels, List.mem_cons, List.not_mem_nil, or_false] at known
    rcases known with isID | isDisplayName
    · rw [isID]
      exact keepsText.field _ _ _
    · rw [isDisplayName]
      exact keepsText.field _ _ _
  · rw [addToOwner_of_unknown known, addToOwner_of_unknown known]
    exact keeps_passOver inserts owner

section Unknown

variable {unknownName : List Char} (whole : IsWhole unknownName added)
  (inserts : InsertsIn added (name :: path) node node')
  (unknown : IsUnknownAt (labelOf unknownName) (name :: path))

include whole inserts unknown

private theorem keeps_readOwner (isOwner : labelOf name = "Owner") (start : ObjectOwner) :
    Keeps (readRecord addToOwner start node) (readRecord addToOwner start node') := by
  refine keeps_readRecord inserts ?_ ?_ start
  · rintro rfl
    obtain ⟨labels, isRecord, notField⟩ := unknown.here
    rw [isOwner] at isRecord
    obtain rfl : ownerLabels = labels := Option.some.inj isRecord
    exact whole.addChild_eq (addToOwner_of_unknown notField)
  · rintro inner later child child' rfl deeper
    exact keeps_addToOwner deeper (unknown.deeper (List.cons_ne_nil _ _))

private theorem keeps_addToObject (draft : ObjectDraft) :
    Keeps (addToObject draft (labelOf name) node) (addToObject draft (labelOf name) node') := by
  by_cases known : labelOf name ∈ objectLabels
  · by_cases isOwner : labelOf name = "Owner"
    · have keepsOwner := keeps_readOwner whole inserts unknown isOwner ⟨none, none⟩
      rw [isOwner]
      exact keepsOwner.field _ _ _
    · have noRecord : ∀ label ∈ objectLabels, label ≠ "Owner" → recordLabels label = none := by
        decide
      have keepsText := keeps_readText inserts unknown (noRecord _ known isOwner)
      have keepsNumber := keeps_readNumber keepsText Text.Decimal.words64
      simp only [objectLabels, List.mem_cons, List.not_mem_nil, or_false] at known
      rcases known with isKey | isModified | isTag | isSize | isField | isClass
      · rw [isKey]
        exact keepsText.field _ _ _
      · rw [isModified]
        exact keepsText.field _ _ _
      · rw [isTag]
        exact keepsText.field _ _ _
      · rw [isSize]
        exact keepsNumber.field _ _ _
      · exact absurd isField isOwner
      · rw [isClass]
        exact keepsText.field _ _ _
  · rw [addToObject_of_unknown known, addToObject_of_unknown known]
    exact keeps_passOver inserts draft

theorem keeps_readObject (isObject : labelOf name = "Contents") :
    Keeps (readObject node) (readObject node') := by
  refine (keeps_readRecord inserts ?_ ?_ _).bind fun _ => .refl _
  · rintro rfl
    obtain ⟨labels, isRecord, notField⟩ := unknown.here
    rw [isObject] at isRecord
    obtain rfl : objectLabels = labels := Option.some.inj isRecord
    exact whole.addChild_eq (addToObject_of_unknown notField)
  · rintro inner later child child' rfl deeper
    exact keeps_addToObject whole deeper (unknown.deeper (List.cons_ne_nil _ _))

omit whole in
theorem keeps_addToListing (draft : Listing.Draft) :
    Keeps (addToListing draft (labelOf name) node) (addToListing draft (labelOf name) node') := by
  by_cases known : labelOf name ∈ listingLabels
  · by_cases isObject : labelOf name = "Contents"
    · rw [isObject]
      exact .refl _
    · have noRecord : ∀ label ∈ listingLabels, label ≠ "Contents" →
          recordLabels label = none := by decide
      have keepsText := keeps_readText inserts unknown (noRecord _ known isObject)
      have keepsNumber := keeps_readNumber keepsText Text.Decimal.words32
      simp only [listingLabels, List.mem_cons, List.not_mem_nil, or_false] at known
      rcases known with isName | isPrefix | isMarker | isLimit | isTruncation | isField
      · rw [isName]
        exact keepsText.field _ _ _
      · rw [isPrefix]
        exact keepsText.field _ _ _
      · rw [isMarker]
        exact keepsText.field _ _ _
      · rw [isLimit]
        exact keepsNumber.field _ _ _
      · rw [isTruncation]
        exact (keeps_readTruth keepsText).field _ _ _
      · exact absurd isField isObject
  · rw [addToListing_of_unknown known, addToListing_of_unknown known]
    exact keeps_passOver inserts draft

end Unknown

end ContentStore.Listing
