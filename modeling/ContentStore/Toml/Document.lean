import ContentStore.Toml.Moment
import ContentStore.Toml.Quoted

/-!
Contract: reading a whole TOML document.

Owns:
- keys, arrays and inline tables, nested at most 79 deep;
- headers and the tables they open;
- `Entries.ofText?`, the bindings of a well-formed document.

Does not own: what the bindings mean.
-/

namespace ContentStore.Toml

/-- A character of a key without quotes. -/
def isBare (symbol : Char) : Bool :=
  symbol.isAlphanum || symbol == '-' || symbol == '_'

def readKeyPart : Reader String := fun symbols => do
  match symbols with
  | '"' :: rest =>
    let (part, rest) ← readBasicRest (rest.length + 1) rest
    return (String.ofList part, rest)
  | '\'' :: rest =>
    let (part, rest) ← readLiteralRest rest
    return (String.ofList part, rest)
  | _ =>
    let part := symbols.takeWhile isBare
    if part.isEmpty then none
    else return (String.ofList part, symbols.dropWhile isBare)

/-- A key: parts with points between them.  `fuel` bounds their number. -/
def readKey : (fuel : Nat) → Reader (List String)
  | 0, _ => none
  | fuel + 1, symbols => do
    let (part, rest) ← readKeyPart (skipBlanks symbols)
    match skipBlanks rest with
    | '.' :: rest =>
      let (parts, rest) ← readKey fuel rest
      return (part :: parts, rest)
    | rest => return ([part], rest)

/-- How deep values and keys may nest. -/
def nestingLimit : Nat := 79

/-- Drop blanks, line ends and comments, as between the values of an array. -/
def skipFiller : (fuel : Nat) → List Char → List Char
  | 0, symbols => symbols
  | fuel + 1, symbols =>
    let rest := skipBlanks symbols
    match afterNewline? (skipComment rest) with
    | some rest => skipFiller fuel rest
    | none => rest

/-- Drop everything that may stand between the values of an array. -/
def skipBetween (symbols : List Char) : List Char :=
  skipFiller (symbols.length + 1) symbols

/-- The values of an array up to its bracket, each followed by a comma or the
bracket. -/
def readElements (readElement : Reader Item) : (fuel : Nat) → Reader (List Item)
  | 0, _ => none
  | fuel + 1, symbols =>
    match skipBetween symbols with
    | ']' :: rest => some ([], rest)
    | start => do
      let (element, rest) ← readElement start
      match skipBetween rest with
      | ',' :: rest =>
        let (elements, rest) ← readElements readElement fuel rest
        return (element :: elements, rest)
      | ']' :: rest => return ([element], rest)
      | _ => none

/-- Add one binding between braces. -/
def bindPair (readElement : Reader Item) (entries : Entries) : Reader Entries := fun symbols => do
  let (key, rest) ← readKey nestingLimit symbols
  match rest with
  | '=' :: rest =>
    let (item, rest) ← readElement (skipBlanks rest)
    let entries ← entries.bindClosed key.dropLast (key.getLastD "") item
    return (entries, skipBlanks rest)
  | _ => none

/-- The bindings between braces after the first, each after a comma. -/
def readMorePairs (readElement : Reader Item) : (fuel : Nat) → Entries → Reader Entries
  | 0, _, _ => none
  | fuel + 1, entries, symbols =>
    match symbols with
    | '}' :: rest => some (entries, rest)
    | ',' :: rest => do
      let (entries, rest) ← bindPair readElement entries rest
      readMorePairs readElement fuel entries rest
    | _ => none

/-- The bindings between braces. -/
def readPairs (readElement : Reader Item) : Reader Entries := fun symbols =>
  match skipBlanks symbols with
  | '}' :: rest => some ([], rest)
  | start => do
    let (entries, rest) ← bindPair readElement [] start
    readMorePairs readElement (rest.length + 1) entries rest

def readWord (word : List Char) (item : Item) : Reader Item := fun symbols =>
  if word.isPrefixOf symbols then some (item, symbols.drop word.length) else none

/-- A value, in which at most `depth` arrays and inline tables nest. -/
def readValue : (depth : Nat) → Reader Item
  | depth, symbols =>
    match depth, symbols with
    | 0, '[' :: _ => none
    | 0, '\x7b' :: _ => none
    | depth + 1, '[' :: rest =>
      (readElements (readValue depth) (rest.length + 1) rest).map fun (items, rest) =>
        (.array items, rest)
    | depth + 1, '\x7b' :: rest =>
      (readPairs (readValue depth) rest).map fun (entries, rest) =>
        (.table .closed entries, rest)
    | _, '"' :: _ | _, '\'' :: _ =>
      (readText symbols).map fun (content, rest) => (.text (String.ofList content), rest)
    | _, 't' :: _ => readWord "true".toList (.truth true) symbols
    | _, 'f' :: _ => readWord "false".toList (.truth false) symbols
    | _, _ => readNumberOrDate symbols

/-- The part of a document that a header opens: where it belongs, whether it is
one more element of an array of tables, and its bindings so far. -/
structure Section where
  path : List String
  isElement : Bool
  entries : Entries

/-- The document read so far: the finished sections and the one being read. -/
structure Progress where
  root : Entries
  current : Section

/-- The table of a section, put where it belongs. -/
def Progress.finish (progress : Progress) : Option Entries :=
  match progress.current.path.getLast? with
  | none => some progress.current.entries
  | some key =>
    let parent := progress.current.path.dropLast
    progress.root.descend false
      (fun _ below =>
        if progress.current.isElement then
          match below.lookup key with
          | none => some (below ++ [(key, .tables [progress.current.entries])])
          | some (.tables elements) =>
            some (Entries.rebind below key (.tables (elements ++ [progress.current.entries])))
          | some _ => none
        else if (below.lookup key).isSome then none
        else some (below ++ [(key, .table .header progress.current.entries)]))
      parent .header

/-- Open the table that a header in single brackets names.  A table that so far
is only implied keeps its bindings; any other may not be opened again. -/
def Progress.openTable (progress : Progress) (path : List String) : Option Progress := do
  let root ← progress.finish
  let parent := path.dropLast
  let key := path.getLastD ""
  let taken ← root.descend false
    (fun _ below =>
      match below.lookup key with
      | none => some below
      | some (.table .implied _) => some below
      | some _ => none)
    parent .header
  let found := (locate taken parent).bind (·.lookup key)
  let entries :=
    match found with
    | some (.table _ entries) => entries
    | _ => []
  let root ← taken.descend false (fun _ below => some (Entries.without below key)) parent .header
  return ⟨root, ⟨path, false, entries⟩⟩
where
  /-- The bindings of the table at the end of a path. -/
  locate (entries : Entries) : List String → Option Entries
    | [] => some entries
    | key :: path =>
      match entries.lookup key with
      | some (.table _ below) => locate below path
      | some (.tables elements) => elements.getLast?.bind (locate · path)
      | _ => none

/-- Open one more element of the array of tables that a header in double
brackets names. -/
def Progress.openElement (progress : Progress) (path : List String) : Option Progress := do
  let root ← progress.finish
  let key := path.getLastD ""
  let root ← root.descend false
    (fun _ below =>
      match below.lookup key with
      | none => some below
      | some (.tables _) => some below
      | some _ => none)
    path.dropLast .header
  return ⟨root, ⟨path, true, []⟩⟩

/-- Read a header in double brackets, after the brackets. -/
def readElementHeader (progress : Progress) : Reader Progress := fun symbols => do
  let (path, rest) ← readKey nestingLimit symbols
  match rest with
  | ']' :: ']' :: rest => return (← progress.openElement path, ← afterLineEnd? rest)
  | _ => none

/-- Read a header in single brackets, after the bracket. -/
def readTableHeader (progress : Progress) : Reader Progress := fun symbols => do
  let (path, rest) ← readKey nestingLimit symbols
  match rest with
  | ']' :: rest => return (← progress.openTable path, ← afterLineEnd? rest)
  | _ => none

def readBinding (progress : Progress) : Reader Progress := fun symbols => do
  let (key, rest) ← readKey nestingLimit symbols
  match rest with
  | '=' :: rest =>
    let (item, rest) ← readValue nestingLimit (skipBlanks rest)
    let rest ← afterLineEnd? rest
    let entries ← progress.current.entries.bind key.dropLast (key.getLastD "") item
    return (⟨progress.root, { progress.current with entries := entries }⟩, rest)
  | _ => none

def readLine (progress : Progress) : Reader Progress := fun symbols =>
  match skipBlanks symbols with
  | [] => some (progress, [])
  | '#' :: _ => (afterLineEnd? symbols).map (progress, ·)
  | '\n' :: _ => (afterLineEnd? symbols).map (progress, ·)
  | '\r' :: _ => (afterLineEnd? symbols).map (progress, ·)
  | '[' :: '[' :: rest => readElementHeader progress rest
  | '[' :: rest => readTableHeader progress rest
  | start => readBinding progress start

/-- Read the remaining lines of a document, at most `fuel` of them. -/
def readLines : (fuel : Nat) → Progress → List Char → Option Progress
  | _, progress, [] => some progress
  | 0, _, _ => none
  | fuel + 1, progress, symbols => do
    let (progress, rest) ← readLine progress symbols
    readLines fuel progress rest

/-- The bindings of a document; a byte order mark before it is ignored. -/
def Entries.ofText? (text : String) : Option Entries := do
  let symbols :=
    match text.toList with
    | '\ufeff' :: rest => rest
    | symbols => symbols
  let progress ← readLines (symbols.length + 1) ⟨[], ⟨[], false, []⟩⟩ symbols
  progress.finish

end ContentStore.Toml
