import ContentStore.Stream
import ContentStore.Proofs.Bucket.Truthful

/-!
Contract: what callers of a store would be given by a plain map.

Owns:
- `Call` and `Answer`, what callers ask for and what they are given;
- what a map of contents answers to calls, and what becomes of it;
- the same for a bucket, all of whose keys matter;
- `Distinct`, by which the contents that occur in a run have different
  fingerprints.

Does not own: caches.
-/

namespace ContentStore

/-! ## Adding a content -/

/-- Add a content, unless something stands under its fingerprint. -/
def Contents.adding (contents : Contents) (content : Bytes) : Contents :=
  if contents (Fingerprint.ofContent content) = none then
    Function.update contents (Fingerprint.ofContent content) (some content)
  else contents

namespace Bucket

variable {bucket other : Bucket} {content : Bytes}

def adding (bucket : Bucket) (content : Bytes) : Bucket :=
  if bucket.contents (Fingerprint.ofContent content) = none then
    bucket.insert (Fingerprint.ofContent content).text (objectOf content)
  else bucket

theorem contents_adding (bucket : Bucket) (content : Bytes) :
    (bucket.adding content).contents = bucket.contents.adding content := by
  unfold adding Contents.adding
  split
  · exact contents_insert bucket content
  · rfl

/-- What becomes of a bucket without faults that is asked for the fingerprint of a
content, and is given the content if it does not hold this fingerprint. -/
def offered (bucket : Bucket) (content : Bytes) : Bucket :=
  if bucket.contents (Fingerprint.ofContent content) = none then
    ((bucket.noting .head (Fingerprint.ofContent content).text).noting .put
      (Fingerprint.ofContent content).text).insert (Fingerprint.ofContent content).text
        (objectOf content)
  else bucket.noting .head (Fingerprint.ofContent content).text

theorem objects_offered (bucket : Bucket) (content : Bytes) :
    (bucket.offered content).objects = (bucket.adding content).objects := by
  unfold offered adding
  split <;> rfl

theorem faults_offered (bucket : Bucket) (content : Bytes) :
    (bucket.offered content).faults = bucket.faults := by
  unfold offered
  split <;> rfl

private theorem objects_adding (same : bucket.objects = other.objects) (content : Bytes) :
    (bucket.adding content).objects = (other.adding content).objects := by
  unfold adding
  rw [contents_of_objects same]
  split
  · unfold insert
    rw [same]
  · exact same

end Bucket

namespace Contents

variable {contents : Contents} {fingerprint : Fingerprint} {content held : Bytes}

/-- What was there stays. -/
theorem adding_of_some (content : Bytes) (present : contents fingerprint = some held) :
    contents.adding content fingerprint = some held := by
  unfold adding
  split
  · rename_i absent
    have different : fingerprint ≠ Fingerprint.ofContent content := by
      rintro rfl
      rw [absent] at present
      exact absurd present (by simp)
    rw [Function.update_of_ne different]
    exact present
  · exact present

/-- What is there afterwards was there, or is what was added. -/
theorem adding_eq_some (present : contents.adding content fingerprint = some held) :
    contents fingerprint = some held ∨ held = content := by
  unfold adding at present
  split at present
  · by_cases same : fingerprint = Fingerprint.ofContent content
    · rw [same, Function.update_self] at present
      exact Or.inr (Option.some.inj present).symm
    · rw [Function.update_of_ne same] at present
      exact Or.inl present
  · exact Or.inl present

/-- A content that is added is there, unless another one with its fingerprint
was. -/
theorem adding_self
    (alone : ∀ held, contents (Fingerprint.ofContent content) = some held → held = content) :
    contents.adding content (Fingerprint.ofContent content) = some content := by
  unfold adding
  split
  · rw [Function.update_self]
  · rename_i present
    obtain ⟨held, found⟩ := Option.ne_none_iff_exists'.mp present
    rw [found, alone held found]

/-- Something is there afterwards if something was, or under what was added. -/
theorem adding_ne_none_iff :
    contents.adding content fingerprint ≠ none ↔
      contents fingerprint ≠ none ∨ fingerprint = Fingerprint.ofContent content := by
  unfold adding
  split <;> rename_i absent <;> by_cases same : fingerprint = Fingerprint.ofContent content
  · rw [same, Function.update_self]
    simp
  · rw [Function.update_of_ne same]
    simp [same]
  · rw [same]
    simp [absent]
  · simp [same]

end Contents

/-! ## Calls -/

namespace Store

inductive Call where
  | put (reader : Reader)
  | get (fingerprint : Fingerprint)
  | length (fingerprint : Fingerprint)

/-- What a caller is given; of a binary, all that can be learnt from it. -/
inductive Answer where
  | binary (fingerprint : Fingerprint) (content : Except IoKind Bytes) (length : Nat)
  | length (length : Nat)
  | failure (cause : StoreError)
deriving DecidableEq

namespace Call

/-- What a map gives. -/
def answer (contents : Contents) : Call → Answer
  | .put reader =>
    match reader.content with
    | (content, none) => .binary (Fingerprint.ofContent content) (.ok content) content.length
    | (_, some kind) => .failure (.system kind)
  | .get fingerprint =>
    match contents fingerprint with
    | some content => .binary fingerprint (.ok content) content.length
    | none => .failure (.notFound fingerprint.text)
  | .length fingerprint => .length ((contents fingerprint).elim 0 List.length)

/-- The content that a call adds, if it adds one. -/
def added? : Call → Option Bytes
  | .put reader =>
    match reader.content with
    | (content, none) => some content
    | (_, some _) => none
  | _ => none

/-- What becomes of a map. -/
def after (contents : Contents) (call : Call) : Contents :=
  call.added?.elim contents contents.adding

/-- What becomes of a bucket. -/
def settle (bucket : Bucket) (call : Call) : Bucket :=
  call.added?.elim bucket bucket.adding

theorem contents_settle (call : Call) (bucket : Bucket) :
    (call.settle bucket).contents = call.after bucket.contents := by
  unfold settle after
  cases call.added? with
  | none => rfl
  | some content => exact Bucket.contents_adding bucket content

private theorem objects_settle (call : Call) {bucket other : Bucket}
    (same : bucket.objects = other.objects) :
    (call.settle bucket).objects = (call.settle other).objects := by
  unfold settle
  cases call.added? with
  | none => exact same
  | some content => exact Bucket.objects_adding same content

theorem objects_foldl_settle (calls : List Call) {bucket other : Bucket}
    (same : bucket.objects = other.objects) :
    (calls.foldl settle bucket).objects = (calls.foldl settle other).objects := by
  induction calls generalizing bucket other with
  | nil => exact same
  | cons call rest inductionHypothesis => exact inductionHypothesis (objects_settle call same)

theorem contents_foldl_settle (calls : List Call) (bucket : Bucket) :
    (calls.foldl settle bucket).contents = calls.foldl after bucket.contents := by
  induction calls generalizing bucket with
  | nil => rfl
  | cons call rest inductionHypothesis =>
    rw [List.foldl_cons, inductionHypothesis, contents_settle, List.foldl_cons]

end Call

/-- What a map gives for one call after the other. -/
def plainAnswers : List Call → Contents → List Answer
  | [], _ => []
  | call :: rest, contents => call.answer contents :: plainAnswers rest (call.after contents)

/-! ## Contents that are told apart -/

/-- A content that a map holds, or that some call adds. -/
inductive Occurs (contents : Contents) (calls : List Call) (content : Bytes) : Prop where
  | held (fingerprint : Fingerprint) (present : contents fingerprint = some content)
  | added (call : Call) (asked : call ∈ calls) (adds : call.added? = some content)

/-- No two contents that occur have the same fingerprint. -/
def Distinct (contents : Contents) (calls : List Call) : Prop :=
  ∀ left right, Occurs contents calls left → Occurs contents calls right →
    Fingerprint.ofContent left = Fingerprint.ofContent right → left = right

variable {contents : Contents} {call : Call} {rest : List Call} {content : Bytes}

/-- Nothing occurs later that has not occurred from the beginning. -/
theorem Occurs.before (occurs : Occurs (call.after contents) rest content) :
    Occurs contents (call :: rest) content := by
  cases occurs with
  | added other asked adds => exact .added other (List.mem_cons_of_mem _ asked) adds
  | held fingerprint present =>
    unfold Call.after at present
    cases adds : call.added? with
    | none =>
      rw [adds] at present
      exact .held fingerprint present
    | some added =>
      rw [adds] at present
      rcases Contents.adding_eq_some present with before | rfl
      · exact .held fingerprint before
      · exact .added call List.mem_cons_self adds

theorem Distinct.after (distinct : Distinct contents (call :: rest)) :
    Distinct (call.after contents) rest :=
  fun left right leftOccurs rightOccurs => distinct left right leftOccurs.before rightOccurs.before

end Store

end ContentStore
