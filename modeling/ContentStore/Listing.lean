import ContentStore.StoreError
import ContentStore.Markup.Node
import ContentStore.Text.Blank
import ContentStore.Text.Utf8

/-!
Contract: bucket listings and the documents that carry them.

Owns:
- `Listing`, `ListedObject` and `ObjectOwner`, what a remote tells about a
  bucket and its objects;
- `Listing.ofDocument`, which reads a listing from a document.

Elements are known by their local names.  In a record, an unknown element and
stray text are passed over, a known element twice is a fault, and an absent one
takes its default.  The records of the objects may be interrupted by other
elements of the bucket; text between them is a fault.

Does not own: the markup of documents.
-/

namespace ContentStore

open Markup (Node)

structure ObjectOwner where
  id : Option String
  displayName : Option String
deriving DecidableEq, Repr

/-- An object as a remote lists it. -/
structure ListedObject where
  key : String
  lastModified : Option String
  /-- The entity tag without its quotes. -/
  etag : String
  size : UInt64
  owner : Option ObjectOwner
  storageClass : Option String
deriving DecidableEq, Repr

/-- What a remote tells about a bucket. -/
structure Listing where
  name : Option String
  keyPrefix : Option String
  marker : Option String
  maxKeys : Option Nat
  /-- Whether the remote gave the first page only. -/
  isTruncated : Bool
  contents : List ListedObject
deriving DecidableEq, Repr

namespace ListedObject

/-- The object of which only key, entity tag and size are told. -/
def named (key etag : String) (size : UInt64) : ListedObject :=
  ⟨key, none, etag, size, none, none⟩

/-- The entity tag as a fingerprint, if it is one. -/
def fingerprint? (object : ListedObject) : Option Fingerprint :=
  Fingerprint.ofText? object.etag

end ListedObject

namespace Listing

/-- Set a field that is not set yet. -/
def once {Value : Type} (held : Option Value) (field : String)
    (read : Except ListingFault Value) : Except ListingFault (Option Value) :=
  if held.isSome then .error (.duplicateField field) else read.map some

/-- The text of an element that holds nothing else. -/
def readText : Node → Except ListingFault String
  | .element _ _ [] true => .ok ""
  | .element _ _ [.text (some content)] true => .ok (String.ofList content)
  | _ => .error .malformed

def readNumber (limit : Nat) (node : Node) : Except ListingFault Nat := do
  let text ← readText node
  match Text.Decimal.read limit text.toList with
  | .ok number => return number
  | .error cause => throw (.number cause)

def trueSpellings : List String :=
  ["true", "1", "True", "TRUE", "t", "Yes", "YES", "yes", "y"]

def falseSpellings : List String :=
  ["false", "0", "False", "FALSE", "f", "No", "NO", "no", "n"]

def readTruth (node : Node) : Except ListingFault Bool := do
  let text ← readText node
  if trueSpellings.contains text then return true
  else if falseSpellings.contains text then return false
  else throw (.notATruthValue text)

/-- Read one child of a record: text is passed over, and an element is given
to `add` under its local name. -/
def addChild {Draft : Type} (add : Draft → String → Node → Except ListingFault Draft)
    (draft : Draft) : Node → Except ListingFault Draft
  | .text (some _) => .ok draft
  | .text none => .error .malformed
  | node@(.element name _ _ _) => add draft (String.ofList (Node.localPart name)) node

/-- Read a record, an element with fields inside, from the fields in `start`. -/
def readRecord {Draft : Type} (add : Draft → String → Node → Except ListingFault Draft)
    (start : Draft) : Node → Except ListingFault Draft
  | .text _ => .error .malformed
  | .element _ attributes content closed => do
    unless Markup.attributesAreSound attributes do throw .malformed
    let draft ← content.foldlM (addChild add) start
    unless closed do throw .malformed
    return draft

def passOver {Draft : Type} (draft : Draft) : Node → Except ListingFault Draft
  | .element _ _ _ true => .ok draft
  | _ => .error .malformed

def addToOwner (owner : ObjectOwner) (field : String) (node : Node) :
    Except ListingFault ObjectOwner :=
  match field with
  | "ID" => do return { owner with id := ← once owner.id field (readText node) }
  | "DisplayName" => do
    return { owner with displayName := ← once owner.displayName field (readText node) }
  | _ => passOver owner node

/-- The fields of an object that have been read. -/
structure ObjectDraft where
  key : Option String
  lastModified : Option String
  etag : Option String
  size : Option Nat
  owner : Option ObjectOwner
  storageClass : Option String

def addToObject (draft : ObjectDraft) (field : String) (node : Node) :
    Except ListingFault ObjectDraft :=
  match field with
  | "Key" => do return { draft with key := ← once draft.key field (readText node) }
  | "LastModified" => do
    return { draft with lastModified := ← once draft.lastModified field (readText node) }
  | "ETag" => do return { draft with etag := ← once draft.etag field (readText node) }
  | "Size" => do
    return { draft with size := ← once draft.size field (readNumber Text.Decimal.words64 node) }
  | "Owner" => do
    return { draft with
      owner := ← once draft.owner field (readRecord addToOwner ⟨none, none⟩ node) }
  | "StorageClass" => do
    return { draft with storageClass := ← once draft.storageClass field (readText node) }
  | _ => passOver draft node

/-- An entity tag without the blanks around it, and then without the quotes. -/
def unquoteTag (tag : String) : String :=
  String.ofList (Text.trim (· == '"') (Text.trim Text.isBlank tag.toList))

def readObject (node : Node) : Except ListingFault ListedObject := do
  let draft ← readRecord addToObject ⟨none, none, none, none, none, none⟩ node
  match draft.key with
  | none => throw (.missingField "Key")
  | some key =>
    return ⟨key, draft.lastModified, unquoteTag (draft.etag.getD ""),
      UInt64.ofNat (draft.size.getD 0), draft.owner, draft.storageClass⟩

/-- Read the records of objects, all elements of one name, and keep the other
elements between and after them for later. -/
def readObjects (name : List Char) :
    List Node → Except ListingFault (List ListedObject × List Node)
  | [] => .ok ([], [])
  | .text none :: _ => .error .malformed
  | .text (some content) :: _ => .error (.unexpectedText (String.ofList content) "Contents")
  | node@(.element other _ _ _) :: rest =>
    if other = name then do
      let object ← readObject node
      let (objects, kept) ← readObjects name rest
      return (object :: objects, kept)
    else if node.isSound then do
      let (objects, kept) ← readObjects name rest
      return (objects, node :: kept)
    else .error .malformed

/-- The fields of a bucket that have been read. -/
structure Draft where
  name : Option String
  keyPrefix : Option String
  marker : Option String
  maxKeys : Option Nat
  isTruncated : Option Bool
  contents : Option (List ListedObject)

/-- Read a field of a bucket other than the first record of an object. -/
def addToListing (draft : Draft) (field : String) (node : Node) : Except ListingFault Draft :=
  match field with
  | "Name" => do return { draft with name := ← once draft.name field (readText node) }
  | "Prefix" => do return { draft with keyPrefix := ← once draft.keyPrefix field (readText node) }
  | "Marker" => do return { draft with marker := ← once draft.marker field (readText node) }
  | "MaxKeys" => do
    return { draft with
      maxKeys := ← once draft.maxKeys field (readNumber Text.Decimal.words32 node) }
  | "IsTruncated" => do
    return { draft with isTruncated := ← once draft.isTruncated field (readTruth node) }
  | "Contents" => .error (.duplicateField field)
  | _ => passOver draft node

/-- Read the content of a bucket.  The first record of an object makes all
later records of its name one list, after which the other elements follow. -/
def readContent (closed : Bool) (draft : Draft) : List Node → Except ListingFault Draft
  | [] => if closed then .ok draft else .error .malformed
  | node :: rest =>
    match node with
    | .element name _ _ _ =>
      if Node.localPart name = "Contents".toList then do
        let (objects, kept) ← readObjects name (node :: rest)
        unless closed do throw .malformed
        kept.foldlM (addChild addToListing) { draft with contents := some objects }
      else do
        let draft ← addChild addToListing draft node
        readContent closed draft rest
    | .text _ => do
      let draft ← addChild addToListing draft node
      readContent closed draft rest

def ofNode : Node → Except ListingFault Listing
  | .text none => .error .malformed
  | .text (some content) => .error (.unexpectedText (String.ofList content) "ListBucketResult")
  | .element _ attributes content closed => do
    unless Markup.attributesAreSound attributes do throw .malformed
    let draft ← readContent closed ⟨none, none, none, none, none, none⟩ content
    return ⟨draft.name, draft.keyPrefix, draft.marker, draft.maxKeys,
      draft.isTruncated.getD false, draft.contents.getD []⟩

/-- The listing in a document.  Its first node decides; a byte order mark
before it is passed over. -/
def ofDocument (document : String) : Except StoreError Listing :=
  let symbols :=
    match document.toList with
    | '\ufeff' :: rest => rest
    | symbols => symbols
  let read : Except ListingFault Listing :=
    match Markup.nodes symbols with
    | [] => .error .malformed
    | node :: _ => ofNode node
  read.mapError .listing

end Listing

end ContentStore
