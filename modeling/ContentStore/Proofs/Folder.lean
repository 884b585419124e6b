import ContentStore.Folder
import Mathlib.Data.List.Nodup

/-!
Contract: what each operation on a folder does to the names in it.

Owns:
- `Folder.Refuses`, the names whose files cannot be unlinked;
- equations for unlinking and discarding, in which only one name changes;
- what a rename that succeeds leaves under the two names and under all others;
- `Folder.Distinct`, by which nothing stands under a name twice, and that the
  name of a new file is free;
- `Folder.SameFinal`, by which only temporary files differ;
- `Folder.Free`, by which every write, every unlinking and every renaming of a
  file succeeds.

Does not own: which files a cache unlinks or renames.
-/

namespace ContentStore.Folder

variable {folder after : Folder} {name other source target : FileName} {item : FolderItem}

/-! ### Taking a name out -/

/-- Taking out a name under which nothing stands changes nothing. -/
theorem erase_of_absent (absent : folder.item? name = none) : folder.erase name = folder := by
  have untouched : folder.items.filter (fun item => item.1 ≠ name) = folder.items := by
    rw [List.filter_eq_self]
    intro item member
    have different := List.lookup_eq_none_iff.mp absent item member
    simp only [bne_iff_ne, ne_eq] at different
    simpa using fun same => different same.symm
  unfold erase
  rw [untouched]

/-! ### Unlinking -/

/-- Whether something stands under a name that cannot be unlinked: a directory,
or anything under a locked name. -/
def Refuses (folder : Folder) (name : FileName) : Prop :=
  folder.item? name ≠ none ∧ (folder.item? name = some .directory ∨ name ∈ folder.locked)

instance (folder : Folder) (name : FileName) : Decidable (folder.Refuses name) := by
  unfold Refuses
  infer_instance

/-- Taking a name out makes the others neither easier nor harder to unlink. -/
theorem refuses_erase_of_ne (different : other ≠ name) :
    (folder.erase name).Refuses other ↔ folder.Refuses other := by
  have same := item?_erase_of_ne folder different
  unfold Refuses
  rw [same]
  rfl

/-- Taking a name out makes nothing harder to unlink. -/
theorem refuses_of_erase (refused : (folder.erase name).Refuses other) : folder.Refuses other := by
  have different : other ≠ name := by
    rintro rfl
    exact refused.1 (item?_erase_self folder other)
  exact (refuses_erase_of_ne different).mp refused

/-- Either what stands under a name cannot be unlinked, or nothing stands
there afterwards. -/
theorem clear?_eq (folder : Folder) (name : FileName) :
    folder.clear? name = if folder.Refuses name then none else some (folder.erase name) := by
  match found : folder.item? name with
  | none => simp [clear?, unlink, Refuses, found, erase_of_absent found]
  | some .directory => simp [clear?, unlink, Refuses, found]
  | some (.file content) =>
    by_cases locked : name ∈ folder.locked <;> simp [clear?, unlink, Refuses, found, locked]

/-- A discarded file is gone unless it cannot be unlinked. -/
theorem discard_eq (folder : Folder) (name : FileName) :
    folder.discard name = if folder.Refuses name then folder else folder.erase name := by
  unfold discard
  rw [clear?_eq]
  by_cases refused : folder.Refuses name <;> simp [refused]

/-- Discarding a file changes nothing under the other names. -/
theorem item?_discard_of_ne (folder : Folder) (different : other ≠ name) :
    (folder.discard name).item? other = folder.item? other := by
  rw [discard_eq]
  split
  · rfl
  · exact item?_erase_of_ne folder different

@[simp]
theorem discard_medium (folder : Folder) (name : FileName) :
    (folder.discard name).medium = folder.medium := by
  rw [discard_eq]
  split <;> rfl

/-! ### Renaming -/

/-- A rename that succeeds moves what stood under the old name. -/
theorem rename_ok (renamed : folder.rename source target = .ok after) :
    ∃ item, folder.item? source = some item ∧ after = (folder.erase source).set target item := by
  match found : folder.item? source with
  | none => simp [rename, found] at renamed
  | some item =>
    simp only [rename, found] at renamed
    split at renamed
    · exact absurd renamed (by simp)
    · split at renamed
      · exact absurd renamed (by simp)
      · exact ⟨item, rfl, (Except.ok.inj renamed).symm⟩

/-- No file is renamed to the name of a directory. -/
theorem rename_of_directory (present : folder.item? source ≠ none)
    (directory : folder.item? target = some .directory) :
    folder.rename source target = .error .isADirectory := by
  obtain ⟨item, found⟩ := Option.ne_none_iff_exists'.mp present
  simp only [rename, found, directory, if_true]

/-- The new name stands for what the old name stood for. -/
theorem item?_rename_target (renamed : folder.rename source target = .ok after) :
    after.item? target = folder.item? source := by
  obtain ⟨item, found, rfl⟩ := rename_ok renamed
  rw [item?_set_self, found]

/-- A rename changes nothing under other names. -/
theorem item?_rename_of_ne (renamed : folder.rename source target = .ok after)
    (notSource : other ≠ source) (notTarget : other ≠ target) :
    after.item? other = folder.item? other := by
  obtain ⟨item, _, rfl⟩ := rename_ok renamed
  rw [item?_set_of_ne _ _ notTarget, item?_erase_of_ne _ notSource]

/-- A rename makes other names neither easier nor harder to unlink. -/
theorem refuses_rename_of_ne (renamed : folder.rename source target = .ok after)
    (notSource : other ≠ source) (notTarget : other ≠ target) :
    after.Refuses other ↔ folder.Refuses other := by
  have same := item?_rename_of_ne renamed notSource notTarget
  obtain ⟨item, _, rfl⟩ := rename_ok renamed
  unfold Refuses
  rw [same]
  rfl

theorem rename_medium (renamed : folder.rename source target = .ok after) :
    after.medium = folder.medium := by
  obtain ⟨item, _, rfl⟩ := rename_ok renamed
  rfl

/-- Nothing stands under the old name any more. -/
theorem item?_rename_source (renamed : folder.rename source target = .ok after)
    (different : source ≠ target) : after.item? source = none := by
  obtain ⟨item, _, rfl⟩ := rename_ok renamed
  rw [item?_set_of_ne _ _ different, item?_erase_self]

/-! ### New files -/

/-- Nothing stands under the name of the next new file: its serial number is
above all others. -/
theorem item?_freshName (folder : Folder) : folder.item? folder.freshName = none := by
  unfold item?
  apply List.lookup_eq_none_iff.mpr
  intro item member
  rw [bne_iff_ne]
  intro same
  have bounded : serialOf item.1 ≤ (folder.items.map fun item => serialOf item.1).foldl max 0 := by
    have largest : (0 :: folder.items.map fun item => serialOf item.1).max? =
        some ((folder.items.map fun item => serialOf item.1).foldl max 0) := List.max?_cons'
    exact (List.max?_eq_some_iff.mp largest).2 _
      (List.mem_cons_of_mem _ (List.mem_map_of_mem member))
  rw [← same] at bounded
  simp only [freshName, serialOf] at bounded
  omega

theorem item?_create_of_ne (content : Bytes) (different : other ≠ folder.freshName) :
    (folder.create content).2.item? other = folder.item? other :=
  item?_set_of_ne folder _ different

/-- Taking out what was put under a free name leaves the folder as it was. -/
theorem erase_set_self (absent : folder.item? name = none) (item : FolderItem) :
    (folder.set name item).erase name = folder := by
  have before := erase_of_absent absent
  have again := erase_of_absent (item?_erase_self folder name)
  unfold set
  unfold erase at before again ⊢
  rw [List.filter_cons_of_neg (by simp)]
  exact again.trans before

/-- A new file that is discarded again leaves the folder as it was, if it can be
unlinked. -/
theorem create_discard_eq (content : Bytes)
    (yielding : ¬ (folder.create content).2.Refuses folder.freshName) :
    (folder.create content).2.discard folder.freshName = folder := by
  rw [discard_eq, if_neg yielding]
  exact erase_set_self folder.item?_freshName _

/-- A new file can be unlinked unless its name is locked. -/
theorem not_refuses_create (unlocked : folder.freshName ∉ folder.locked) (content : Bytes) :
    ¬ (folder.create content).2.Refuses folder.freshName := by
  have file : (folder.create content).2.item? folder.freshName = some (.file content) :=
    item?_set_self folder _ _
  rintro ⟨_, directory | locked⟩
  · rw [file] at directory
    exact absurd directory (by simp)
  · exact unlocked locked

/-! ### Names that stand once -/

def Distinct (folder : Folder) : Prop :=
  (folder.items.map Prod.fst).Nodup

theorem mem_names_iff : name ∈ folder.items.map Prod.fst ↔ folder.item? name ≠ none := by
  constructor
  · intro member absent
    obtain ⟨item, among, rfl⟩ := List.mem_map.mp member
    have different := List.lookup_eq_none_iff.mp absent item among
    simp at different
  · intro present
    by_contra missing
    apply present
    apply List.lookup_eq_none_iff.mpr
    intro item among
    rw [bne_iff_ne]
    rintro rfl
    exact missing (List.mem_map_of_mem among)

namespace Distinct

private theorem erase (distinct : folder.Distinct) (name : FileName) :
    (folder.erase name).Distinct :=
  distinct.sublist (List.filter_sublist.map _)

private theorem set (distinct : folder.Distinct) (name : FileName) (item : FolderItem) :
    (folder.set name item).Distinct := by
  refine List.nodup_cons.mpr ⟨?_, distinct.erase name⟩
  intro member
  exact mem_names_iff.mp member (item?_erase_self folder name)

theorem create (distinct : folder.Distinct) (content : Bytes) :
    (folder.create content).2.Distinct :=
  distinct.set _ _

theorem rename (distinct : folder.Distinct) (renamed : folder.rename source target = .ok after) :
    after.Distinct := by
  obtain ⟨item, _, rfl⟩ := rename_ok renamed
  exact (distinct.erase source).set target item

/-- What is listed under a name stands there. -/
theorem item?_eq_some_of_mem (distinct : folder.Distinct) (member : (name, item) ∈ folder.items) :
    folder.item? name = some item := by
  cases found : folder.item? name with
  | none => exact absurd found (mem_names_iff.mp (List.mem_map_of_mem member))
  | some other =>
    obtain ⟨front, back, split, _⟩ := List.lookup_eq_some_iff.mp found
    have otherMember : (name, other) ∈ folder.items := by simp [split]
    have same := List.inj_on_of_nodup_map distinct member otherMember rfl
    rw [(Prod.mk.inj same).2]

end Distinct

/-! ### Taking many names out -/

theorem item?_foldl_erase (names : List FileName) (folder : Folder) (name : FileName) :
    (names.foldl erase folder).item? name = if name ∈ names then none else folder.item? name := by
  induction names generalizing folder with
  | nil => rfl
  | cons first rest inductionHypothesis =>
    rw [List.foldl_cons, inductionHypothesis]
    by_cases same : name = first
    · simp [same, item?_erase_self]
    · simp [same, item?_erase_of_ne folder same]

theorem Distinct.foldl_erase (distinct : folder.Distinct) (names : List FileName) :
    (names.foldl Folder.erase folder).Distinct := by
  induction names generalizing folder with
  | nil => exact distinct
  | cons first rest inductionHypothesis => exact inductionHypothesis (distinct.erase first)

/-! ### Changes to temporary files alone -/

/-- Two folders with the same things under all final names, and the same way of
writing. -/
structure SameFinal (before after : Folder) : Prop where
  item : ∀ fingerprint, after.item? (.stored fingerprint) = before.item? (.stored fingerprint)
  medium : after.medium = before.medium

namespace SameFinal

private theorem trans {first second third : Folder} (left : first.SameFinal second)
    (right : second.SameFinal third) : first.SameFinal third where
  item := fun fingerprint => (right.item fingerprint).trans (left.item fingerprint)
  medium := right.medium.trans left.medium

/-- Creating a temporary file leaves all final names alone. -/
theorem create (folder : Folder) (content : Bytes) :
    folder.SameFinal (folder.create content).2 where
  item := fun _ => item?_set_of_ne folder _ FileName.noConfusion
  medium := rfl

/-- Discarding a temporary file leaves all final names alone. -/
theorem discard (folder : Folder) (serial : Nat) :
    folder.SameFinal (folder.discard (.temporary serial)) where
  item := fun _ => item?_discard_of_ne folder FileName.noConfusion
  medium := discard_medium folder _

/-- A temporary file that is created and discarded again leaves all final names
alone. -/
theorem create_discard (folder : Folder) (content : Bytes) :
    folder.SameFinal ((folder.create content).2.discard (folder.create content).1) :=
  (create folder content).trans (discard _ _)

end SameFinal

/-! ### Folders that refuse nothing -/

/-- A folder of files alone, none of them locked, in which all writes succeed. -/
structure Free (folder : Folder) : Prop where
  unlocked : folder.locked = []
  willing : folder.medium = Writer.unlimited
  files : ∀ name, folder.item? name ≠ some .directory

namespace Free

theorem empty : Folder.empty.Free :=
  ⟨rfl, rfl, fun _ => by simp [Folder.empty, item?]⟩

theorem not_refuses (free : folder.Free) (name : FileName) : ¬ folder.Refuses name := by
  rintro ⟨_, directory | locked⟩
  · exact free.files name directory
  · rw [free.unlocked] at locked
    exact List.not_mem_nil locked

theorem erase (free : folder.Free) (name : FileName) : (folder.erase name).Free := by
  refine ⟨free.unlocked, free.willing, ?_⟩
  intro other
  by_cases same : other = name
  · rw [same, item?_erase_self]
    simp
  · rw [item?_erase_of_ne folder same]
    exact free.files other

private theorem set (free : folder.Free) (name : FileName) (content : Bytes) :
    (folder.set name (.file content)).Free := by
  refine ⟨free.unlocked, free.willing, ?_⟩
  intro other
  by_cases same : other = name
  · rw [same, item?_set_self]
    simp
  · rw [item?_set_of_ne folder _ same]
    exact free.files other

theorem create (free : folder.Free) (content : Bytes) : (folder.create content).2.Free :=
  free.set _ content

theorem discard (free : folder.Free) (name : FileName) : (folder.discard name).Free := by
  rw [discard_eq, if_neg (free.not_refuses name)]
  exact free.erase name

theorem rename (free : folder.Free) {content : Bytes} (target : FileName)
    (present : folder.item? source = some (.file content)) :
    ∃ after, folder.rename source target = .ok after ∧ after.Free := by
  have notDirectory := free.files target
  have notLocked : ¬ (source ∈ folder.locked ∨ target ∈ folder.locked) := by
    rw [free.unlocked]
    simp
  refine ⟨(folder.erase source).set target (.file content), ?_, (free.erase source).set _ _⟩
  simp only [Folder.rename, present, if_neg notDirectory, if_neg notLocked]

end Free

end ContentStore.Folder
