import ContentStore.Proofs.Url.Path

/-!
Contract: addresses that are made by putting a text behind a host.

Owns:
- `BaseOf`, by which an address names a host and nothing behind it;
- `origin?`, what the host part of an address tells;
- `ofText?_of_base`, by which a text that is put behind such an address and a
  slash becomes its path, and its query if it holds a question mark.

Does not own: what the path stands for.
-/

namespace ContentStore.Url

/-- The characters of an address when those that vanish are gone. -/
def visible (symbols : List Char) : List Char :=
  symbols.filter fun symbol => !isDropped symbol

/-- What is read of a text at the end of an address. -/
def readable (key : String) : List Char :=
  visible (Text.trimEnd isTrimmed key.toList)

/-- An address that ends with its host, as in `https://localhost:9000`. -/
structure BaseOf (scheme : Scheme) (authority : List Char) (base : String) : Prop where
  /-- The scheme may be written in either case, and there may be any slashes. -/
  spelled : ∃ name slashes,
    visible (Text.trimStart isTrimmed base.toList) = name ++ ':' :: (slashes ++ authority) ∧
      name.map Char.toLower = scheme.name.toList ∧ ∀ symbol ∈ slashes, isSlash symbol = true
  some_host : authority ≠ []
  inside : ∀ symbol ∈ authority, isSlash symbol = false ∧ endsPath symbol = false

/-- The login, the host and the port that are written before a path. -/
def origin? (scheme : Scheme) (authority : List Char) :
    Option (Option (String × String) × Host × Option Nat) := do
  let (login, address) :=
    match cutLast '@' authority with
    | some (login, address) => (loginOf login, address)
    | none => (none, authority)
  let (host, port) := cutPort false address
  let host ← Host.ofSymbols? host
  let port ← portOf? scheme port
  return (login, host, port)

/-- The address of a host and of what is read behind it. -/
def ofOrigin (scheme : Scheme) (origin : Option (String × String) × Host × Option Nat)
    (symbols : List Char) : Url :=
  ⟨scheme, origin.1, String.ofList origin.2.1.text, origin.2.2,
    String.ofList (pathOf ('/' :: symbols.takeWhile (!endsPath ·))),
    (queryOf (symbols.dropWhile (!endsPath ·))).map String.ofList⟩

variable {scheme : Scheme} {authority : List Char} {base : String}

private theorem Scheme.ofName?_name (scheme : Scheme) : ofName? scheme.name = some scheme := by
  cases scheme <;> decide

/-- A scheme is read up to its colon, in either case. -/
theorem Scheme.cut?_append {name : List Char} (isName : name.map Char.toLower = scheme.name.toList)
    (rest : List Char) : cut? (name ++ ':' :: rest) = some (scheme, rest) := by
  have colonless : ∀ symbol ∈ name, (symbol != ':') = true := by
    intro symbol member
    rw [bne_iff_ne]
    rintro rfl
    have among : ':' ∈ scheme.name.toList := isName ▸ List.mem_map_of_mem member
    have noColon : ':' ∉ scheme.name.toList := by cases scheme <;> decide
    exact noColon among
  have before : (name ++ ':' :: rest).takeWhile (fun symbol => symbol != ':') = name := by
    rw [List.takeWhile_append_of_pos colonless, List.takeWhile_cons_of_neg (by decide),
      List.append_nil]
  have after : (name ++ ':' :: rest).dropWhile (fun symbol => symbol != ':') = ':' :: rest := by
    rw [List.dropWhile_append_of_pos colonless, List.dropWhile_cons_of_neg (by decide)]
  unfold cut?
  simp only [before, after, isName, String.ofList_toList, ofName?_name]
  rfl

private theorem visible_append (front back : List Char) :
    visible (front ++ back) = visible front ++ visible back :=
  List.filter_append front back

private theorem trimEnd_append_slash (front back : List Char) :
    Text.trimEnd isTrimmed (front ++ '/' :: back) =
      front ++ '/' :: Text.trimEnd isTrimmed back := by
  have notTrimmed : isTrimmed '/' = false := by decide
  unfold Text.trimEnd
  rw [List.reverse_append, List.reverse_cons, List.append_assoc, List.dropWhile_append]
  split
  · rename_i allTrimmed
    rw [List.isEmpty_iff.mp allTrimmed]
    simp [notTrimmed]
  · simp

/-- What an address that is made of a base and a key is read as. -/
theorem visible_trim (isBase : BaseOf scheme authority base) (key : String) :
    visible (Text.trim isTrimmed (base ++ "/" ++ key).toList) =
      visible (Text.trimStart isTrimmed base.toList) ++ '/' :: readable key := by
  have notVoid : Text.trimStart isTrimmed base.toList ≠ [] := by
    intro void
    obtain ⟨name, slashes, spelled, _, _⟩ := isBase.spelled
    rw [void] at spelled
    exact absurd (List.append_eq_nil_iff.mp spelled.symm).2 (by simp)
  have text : (base ++ "/" ++ key).toList = base.toList ++ '/' :: key.toList := by
    rw [String.toList_append, String.toList_append, List.append_assoc]
    rfl
  have started : Text.trimStart isTrimmed (base.toList ++ '/' :: key.toList) =
      Text.trimStart isTrimmed base.toList ++ '/' :: key.toList := by
    unfold Text.trimStart at notVoid ⊢
    rw [List.dropWhile_append, if_neg (by simpa using notVoid)]
  rw [text, Text.trim, started, trimEnd_append_slash, visible_append]
  rfl

/-- A text behind a base is read as a path and a query. -/
theorem ofText?_of_base (isBase : BaseOf scheme authority base) (key : String) :
    ofText? (base ++ "/" ++ key) = (origin? scheme authority).bind fun origin =>
      if lengthLimit < (ofOrigin scheme origin (readable key)).text.length then none
      else some (ofOrigin scheme origin (readable key)) := by
  have read := visible_trim isBase key
  obtain ⟨name, slashes, spelled, isScheme, areSlashes⟩ := isBase.spelled
  rw [spelled, List.append_assoc, List.cons_append, List.append_assoc] at read
  have cut := Scheme.cut?_append isScheme (slashes ++ (authority ++ '/' :: readable key))
  have afterScheme : (slashes ++ (authority ++ '/' :: readable key)).dropWhile isSlash =
      authority ++ '/' :: readable key := by
    rw [List.dropWhile_append_of_pos areSlashes]
    obtain ⟨first, others, rfl⟩ := List.exists_cons_of_ne_nil isBase.some_host
    rw [List.cons_append, List.dropWhile_cons_of_neg]
    simp [(isBase.inside first List.mem_cons_self).1]
  have inAuthority : ∀ symbol ∈ authority, (!isSlash symbol && !endsPath symbol) = true := by
    intro symbol member
    obtain ⟨notSlash, notEnd⟩ := isBase.inside symbol member
    simp [notSlash, notEnd]
  have slashEnds : (!isSlash '/' && !endsPath '/') = false := by decide
  have host : (authority ++ '/' :: readable key).takeWhile
      (fun symbol => !isSlash symbol && !endsPath symbol) = authority := by
    rw [List.takeWhile_append_of_pos inAuthority, List.takeWhile_cons_of_neg (by simp [slashEnds]),
      List.append_nil]
  have afterHost : (authority ++ '/' :: readable key).dropWhile
      (fun symbol => !isSlash symbol && !endsPath symbol) = '/' :: readable key := by
    rw [List.dropWhile_append_of_pos inAuthority, List.dropWhile_cons_of_neg (by simp [slashEnds])]
  have notEnd : endsPath '/' = false := by decide
  have path : ('/' :: readable key).takeWhile (!endsPath ·) =
      '/' :: (readable key).takeWhile (!endsPath ·) := by
    rw [List.takeWhile_cons_of_pos (by simp [notEnd])]
  have query : ('/' :: readable key).dropWhile (!endsPath ·) =
      (readable key).dropWhile (!endsPath ·) := by
    rw [List.dropWhile_cons_of_pos (by simp [notEnd])]
  unfold ofText?
  simp only [show (Text.trim isTrimmed (base ++ "/" ++ key).toList).filter
      (fun symbol => !isDropped symbol) = _ from read, cut, bind, Option.bind_some, afterScheme,
    host, afterHost, path, query]
  unfold origin? ofOrigin
  cases cutLast '@' authority with
  | none =>
    simp only
    cases Host.ofSymbols? (cutPort false authority).1 with
    | none => rfl
    | some host => cases portOf? scheme (cutPort false authority).2 <;> rfl
  | some cut =>
    simp only
    cases Host.ofSymbols? (cutPort false cut.2).1 with
    | none => rfl
    | some host => cases portOf? scheme (cutPort false cut.2).2 <;> rfl

end ContentStore.Url
