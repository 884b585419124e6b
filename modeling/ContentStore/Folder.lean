import ContentStore.Stream

/-!
Contract: the folder of files that a cache keeps on disk.

Owns:
- `FileName`, the names in the folder: fingerprints and temporary names;
- reading, creating, unlinking and renaming files, and how each is refused;
- what others may do behind the cache's back: write and delete files, put
  directories in their place, and lock names against the cache.

A directory can be neither unlinked nor replaced by a file.  A locked name is
refused whatever stands under it.

Does not own: which files a cache keeps, and for how long.
-/

namespace ContentStore

inductive FileName where
  /-- The final name of a file. -/
  | stored (fingerprint : Fingerprint)
  /-- The name of a file that is still being written. -/
  | temporary (serial : Nat)
deriving DecidableEq

def FileName.text : FileName → String
  | .stored fingerprint => fingerprint.text
  | .temporary serial => "tmp-" ++ Text.Decimal.text serial

/-- What stands under a name. -/
inductive FolderItem where
  | file (content : Bytes)
  | directory
deriving DecidableEq

structure Folder where
  /-- What stands under each name, at most once under each. -/
  items : List (FileName × FolderItem)
  /-- The names under which nothing can be unlinked or replaced. -/
  locked : List FileName
  /-- How writes to a new file go. -/
  medium : Writer

namespace Folder

def empty : Folder :=
  ⟨[], [], Writer.unlimited⟩

def item? (folder : Folder) (name : FileName) : Option FolderItem :=
  folder.items.lookup name

def erase (folder : Folder) (name : FileName) : Folder :=
  { folder with items := folder.items.filter fun item => item.1 ≠ name }

/-- Put something under a name, in place of what stood there. -/
def set (folder : Folder) (name : FileName) (item : FolderItem) : Folder :=
  { folder with items := (name, item) :: (folder.erase name).items }

def serialOf : FileName → Nat
  | .stored _ => 0
  | .temporary serial => serial

/-- A temporary name under which nothing stands. -/
def freshName (folder : Folder) : FileName :=
  .temporary (1 + (folder.items.map fun item => serialOf item.1).foldl max 0)

def create (folder : Folder) (content : Bytes) : FileName × Folder :=
  (folder.freshName, folder.set folder.freshName (.file content))

def read (folder : Folder) (name : FileName) : Except IoKind Bytes :=
  match folder.item? name with
  | none => .error .notFound
  | some .directory => .error .isADirectory
  | some (.file content) => .ok content

/-- The number of octets in a file; none if there is no such file. -/
def sizeOf (folder : Folder) (name : FileName) : Nat :=
  match folder.item? name with
  | some (.file content) => content.length
  | _ => 0

def unlink (folder : Folder) (name : FileName) : Except IoKind Folder :=
  match folder.item? name with
  | none => .error .notFound
  | some .directory => .error .isADirectory
  | some (.file _) =>
    if name ∈ folder.locked then .error .permissionDenied else .ok (folder.erase name)

/-- See to it that no file stands under a name; nothing if the file could not
be unlinked. -/
def clear? (folder : Folder) (name : FileName) : Option Folder :=
  match folder.unlink name with
  | .ok after => some after
  | .error .notFound => some folder
  | .error _ => none

def discard (folder : Folder) (name : FileName) : Folder :=
  (folder.clear? name).getD folder

/-- Rename a file, replacing the file that has the new name. -/
def rename (folder : Folder) (source target : FileName) : Except IoKind Folder :=
  match folder.item? source with
  | none => .error .notFound
  | some item =>
    if folder.item? target = some .directory then .error .isADirectory
    else if source ∈ folder.locked ∨ target ∈ folder.locked then .error .permissionDenied
    else .ok ((folder.erase source).set target item)

def write (folder : Folder) (name : FileName) (content : Bytes) : Except IoKind Folder :=
  match folder.item? name with
  | some .directory => .error .isADirectory
  | _ => .ok (folder.set name (.file content))

/-- Put a directory in the place of a file from outside. -/
def occupy (folder : Folder) (name : FileName) : Except IoKind Folder :=
  match folder.item? name with
  | some .directory => .error .alreadyExists
  | _ => .ok (folder.set name .directory)

/-- Take a directory away from outside. -/
def vacate (folder : Folder) (name : FileName) : Except IoKind Folder :=
  match folder.item? name with
  | none => .error .notFound
  | some (.file _) => .error .notADirectory
  | some .directory => .ok (folder.erase name)

/-- The names in the folder, in ascending order, those of directories with a
slash at the end. -/
def names (folder : Folder) : List String :=
  let shown := folder.items.map fun (name, item) =>
    match item with
    | .file _ => name.text
    | .directory => name.text ++ "/"
  shown.mergeSort fun left right => !decide (right < left)

/-! ### What stands under a name after a change -/

/-- A name stands for what was put under it last. -/
theorem item?_set_self (folder : Folder) (name : FileName) (item : FolderItem) :
    (folder.set name item).item? name = some item := by
  simp [set, item?]

/-- A name that was taken out stands for nothing. -/
theorem item?_erase_self (folder : Folder) (name : FileName) :
    (folder.erase name).item? name = none := by
  simp only [erase, item?]
  induction folder.items with
  | nil => rfl
  | cons head tail inductionHypothesis =>
    simp only [List.filter_cons]
    split
    · rename_i different
      have unequal : (name == head.1) = false := by
        simp only [ne_eq, decide_not, Bool.not_eq_eq_eq_not, Bool.not_true,
          decide_eq_false_iff_not] at different
        simpa using fun same => different same.symm
      rw [show head = (head.1, head.2) from rfl, List.lookup_cons, unequal]
      exact inductionHypothesis
    · exact inductionHypothesis

/-- Taking a name out changes nothing under the others. -/
theorem item?_erase_of_ne (folder : Folder) {name other : FileName} (different : other ≠ name) :
    (folder.erase name).item? other = folder.item? other := by
  simp only [erase, item?]
  induction folder.items with
  | nil => rfl
  | cons head tail inductionHypothesis =>
    simp only [List.filter_cons]
    rw [show head = (head.1, head.2) from rfl, List.lookup_cons]
    split
    · rw [List.lookup_cons, inductionHypothesis]
    · rename_i same
      have sameName : head.1 = name := by simpa using same
      have unequal : (other == head.1) = false := by simpa [sameName] using different
      rw [unequal]
      exact inductionHypothesis

/-- Putting something under a name changes nothing under the others. -/
theorem item?_set_of_ne (folder : Folder) {name other : FileName} (item : FolderItem)
    (different : other ≠ name) : (folder.set name item).item? other = folder.item? other := by
  have unequal : (other == name) = false := by simpa using different
  simp only [set, item?, List.lookup_cons, unequal]
  exact item?_erase_of_ne folder different

end Folder

end ContentStore
