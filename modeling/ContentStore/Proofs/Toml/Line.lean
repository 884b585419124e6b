import ContentStore.Toml.Line

/-!
Contract: how a line ends.

Owns:
- `AllBlank`, `Comment` and `Newline`, what may be written there;
- `Closes`, by which a line ends with the document or with a newline that others follow;
- that blanks, a comment and the end of a line are skipped together;
- `Ends`, the characters that may stand behind a value.

Does not own: what stands on a line.
-/

namespace ContentStore.Toml

/-- Any number of blanks, none included. -/
def AllBlank (symbols : List Char) : Prop :=
  ∀ symbol ∈ symbols, isBlank symbol = true

/-- A comment, or none. -/
inductive Comment : List Char → Prop where
  | none : Comment []
  | remark {words : List Char} (plain : ∀ symbol ∈ words, isPlain symbol = true) :
      Comment ('#' :: words)

inductive Newline : List Char → Prop where
  | feed : Newline ['\n']
  | returned : Newline ['\r', '\n']

/-- What stands behind the last character of a line, and what is left of it once the
line is read. -/
inductive Closes : List Char → List Char → Prop where
  | document : Closes [] []
  | line {ending : List Char} (newline : Newline ending) (rest : List Char) :
      Closes (ending ++ rest) rest

/-- Nothing at all, or something that begins with a blank, a comment or a newline. -/
def Ends (symbols : List Char) : Prop :=
  ∀ symbol ∈ symbols.head?, symbol ∈ [' ', '\t', '#', '\n', '\r']

variable {blanks comment symbols rest : List Char}

/-- Exactly what belongs to a class is dropped, if it ends there. -/
theorem dropWhile_append_exact {dropped : Char → Bool}
    (inside : ∀ symbol ∈ blanks, dropped symbol = true)
    (ended : ∀ symbol ∈ symbols.head?, dropped symbol = false) :
    (blanks ++ symbols).dropWhile dropped = symbols := by
  rw [List.dropWhile_append_of_pos inside]
  cases symbols with
  | nil => rfl
  | cons first more => exact List.dropWhile_cons_of_neg (by simp [ended first rfl])

theorem skipBlanks_append (blank : AllBlank blanks)
    (ended : ∀ symbol ∈ symbols.head?, isBlank symbol = false) :
    skipBlanks (blanks ++ symbols) = symbols :=
  dropWhile_append_exact blank ended

private theorem Closes.head_mem (closes : Closes symbols rest) :
    ∀ symbol ∈ symbols.head?, symbol ∈ ['\n', '\r'] := by
  cases closes with
  | document => simp
  | line newline rest => cases newline <;> simp

theorem Closes.eq_nil (closes : Closes symbols rest) (nothing : symbols = []) : rest = [] := by
  cases closes with
  | document => rfl
  | line newline rest => exact (List.append_eq_nil_iff.mp nothing).2

private theorem skipComment_append (written : Comment comment) (closes : Closes symbols rest) :
    skipComment (comment ++ symbols) = symbols := by
  have ended := closes.head_mem
  cases written with
  | none =>
    cases symbols with
    | nil => rfl
    | cons first more =>
      have either := ended first rfl
      rw [List.nil_append, skipComment]
      intro tail spelled
      rw [(List.cons.inj spelled).1] at either
      exact absurd either (by decide)
  | remark plain =>
    have everyNewline : ∀ symbol ∈ ['\n', '\r'], isPlain symbol = false := by decide
    exact dropWhile_append_exact plain fun symbol first => everyNewline symbol (ended symbol first)

/-- What stands between the last character of a line and its end. -/
theorem head_mem_of_comment (written : Comment comment) (closes : Closes symbols rest) :
    ∀ symbol ∈ (comment ++ symbols).head?, symbol ∈ ['#', '\n', '\r'] := by
  cases written with
  | none =>
    intro symbol first
    exact List.mem_cons_of_mem _ (closes.head_mem symbol first)
  | remark => simp

theorem afterLineEnd?_append (blank : AllBlank blanks)
    (written : Comment comment) (closes : Closes symbols rest) :
    afterLineEnd? (blanks ++ (comment ++ symbols)) = some rest := by
  have everyMark : ∀ symbol ∈ ['#', '\n', '\r'], isBlank symbol = false := by decide
  have skipped : skipComment (skipBlanks (blanks ++ (comment ++ symbols))) = symbols := by
    rw [skipBlanks_append blank fun symbol first =>
      everyMark symbol (head_mem_of_comment written closes symbol first)]
    exact skipComment_append written closes
  unfold afterLineEnd?
  rw [skipped]
  cases closes with
  | document => rfl
  | line newline rest => cases newline <;> rfl

theorem ends_append (blank : AllBlank blanks)
    (written : Comment comment) (closes : Closes symbols rest) :
    Ends (blanks ++ (comment ++ symbols)) := by
  cases blanks with
  | nil =>
    intro symbol first
    have marked := head_mem_of_comment written closes symbol first
    exact List.mem_cons_of_mem _ (List.mem_cons_of_mem _ marked)
  | cons head more =>
    intro symbol first
    obtain rfl : head = symbol := Option.some.inj first
    have isBlank := blank head List.mem_cons_self
    simp only [Toml.isBlank, Bool.or_eq_true, beq_iff_eq] at isBlank
    rcases isBlank with rfl | rfl <;> decide

end ContentStore.Toml
