import ContentStore.Settings

/-!
Contract: which settings are valid.

Owns:
- `Settings.Valid`, by which nothing that is required is blank, requests may take
  some time, and the size of the cache is a size;
- that validation accepts the valid settings and no others;
- that no document and no file gives settings that are not valid.

Does not own: which texts are sizes.
-/

namespace ContentStore.Settings

variable {settings other : Settings}

/-- Settings that a store can be opened with. -/
structure Valid (settings : Settings) : Prop where
  visible : ∀ field ∈ settings.requiredFields, Text.isBlankText field.2 = false
  positive : settings.timeoutSeconds ≠ 0
  sized : ∃ budget, settings.cacheBytes = .ok budget

theorem validate_eq_ok_iff : settings.validate = .ok () ↔ settings.Valid := by
  have visible_iff :
      (settings.requiredFields.find? fun field => Text.isBlankText field.2) = none ↔
        ∀ field ∈ settings.requiredFields, Text.isBlankText field.2 = false := by
    rw [List.find?_eq_none]
    simp only [Bool.not_eq_true]
  unfold validate
  constructor
  · intro accepted
    split at accepted
    · exact absurd accepted (by simp)
    · rename_i allVisible
      split at accepted
      · exact absurd accepted (by simp)
      · rename_i positive
        refine ⟨visible_iff.mp allVisible, positive, ?_⟩
        cases sized : settings.cacheBytes with
        | error cause =>
          rw [sized] at accepted
          exact absurd accepted (by simp [Except.map])
        | ok budget => exact ⟨budget, rfl⟩
  · rintro ⟨visible, positive, budget, sized⟩
    rw [visible_iff.mpr visible, sized]
    exact if_neg positive

theorem validated_eq_ok_iff :
    settings.validated = .ok other ↔ other = settings ∧ settings.Valid := by
  rw [← validate_eq_ok_iff]
  unfold validated
  cases settings.validate with
  | error cause => simp [Except.map]
  | ok => simp [Except.map, eq_comm]

/-- The secret of valid settings is not empty. -/
theorem Valid.secret_ne_empty (valid : settings.Valid) : settings.secretAccessKey ≠ "" := by
  intro empty
  have visible := valid.visible ("secret_access_key", settings.secretAccessKey)
    (by simp [requiredFields])
  rw [empty] at visible
  exact absurd visible (by decide)

private theorem valid_of_ofToml {text : String} (loaded : ofToml text = .ok settings) :
    settings.Valid := by
  unfold ofToml at loaded
  split at loaded
  · rename_i entries _
    cases read : ofEntries entries with
    | error cause =>
      rw [read] at loaded
      exact absurd loaded (by simp [Bind.bind, Except.bind])
    | ok given =>
      rw [read] at loaded
      obtain ⟨rfl, valid⟩ := validated_eq_ok_iff.mp loaded
      exact valid
  · exact absurd loaded (by simp)

theorem valid_of_ofFileContent {content : Bytes} (loaded : ofFileContent content = .ok settings) :
    settings.Valid := by
  unfold ofFileContent at loaded
  split at loaded
  · exact valid_of_ofToml loaded
  · exact absurd loaded (by simp)

end ContentStore.Settings
