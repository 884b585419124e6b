import ContentStore.Markup.Piece
import ContentStore.Markup.Reference

/-!
Contract: the elements and the text of a document.

Owns:
- `Node`, an element with its content, or a run of text;
- `nodes`, the nodes of a document;
- `textOf`, what a run of text stands for;
- `attributesAreSound`, whether the attributes of a tag are well formed.

A document is read as far as it goes: an element whose closing tag is missing
or does not match is kept, with what was read of it, and is marked as not
closed.  So is text with a reference that stands for nothing.  Whether this
matters is for those to decide who look at the node.
-/

namespace ContentStore.Markup

/-- A part of a document. -/
inductive Node where
  /-- An element; `closed` tells whether its closing tag was found. -/
  | element (name attributes : List Char) (content : List Node) (closed : Bool)
  /-- A run of text; nothing if a reference in it stands for nothing. -/
  | text (content : Option (List Char))

namespace Node

/-- The part of a name after its first colon, or all of it. -/
def localPart (name : List Char) : List Char :=
  match name.dropWhile (· != ':') with
  | _ :: rest => rest
  | [] => name

mutual

/-- Whether an element is closed, and all text in it could be read. -/
def isSound : Node → Bool
  | element _ _ content closed => closed && allSound content
  | text content => content.isSome

def allSound : List Node → Bool
  | [] => true
  | node :: rest => node.isSound && allSound rest

end

end Node

/-- A segment of plain text without the blanks at its end. -/
def Segment.trimEnd : Segment → Segment
  | .plain raw => .plain (Text.trimEnd isBlank raw)
  | segment => segment

def Segment.content? : Segment → Option (List Char)
  | .plain raw => resolve raw
  | .verbatim content => some content

/-- Drop the blanks before a run of text, and the plain segments that hold
nothing else. -/
def trimRunStart : List Segment → List Segment
  | .plain raw :: rest =>
    let trimmed := Text.trimStart isBlank raw
    if trimmed.isEmpty then trimRunStart rest else .plain trimmed :: rest
  | run => run

/-- Drop the blanks at the end of the last segment of a run of text. -/
def trimRunEnd (run : List Segment) : List Segment :=
  match run.getLast? with
  | some last => run.dropLast ++ [last.trimEnd]
  | none => []

/-- What a run of text stands for; a run of blanks is no text at all. -/
def textOf (run : List Segment) : Option Node :=
  match trimRunEnd (trimRunStart run) with
  | [] => none
  | segments => some (.text ((segments.mapM Segment.content?).map List.flatten))

/-- An element whose closing tag is still to come, and the nodes before it in
the same element, latest first. -/
structure OpenElement where
  name : List Char
  attributes : List Char
  before : List Node

/-- The nodes of a document that ends inside some elements. -/
def finish : (opened : List OpenElement) → (content : List Node) → List Node
  | [], content => content.reverse
  | ⟨name, attributes, before⟩ :: outer, content =>
    finish outer (.element name attributes content.reverse false :: before)

/-- Add a run of text, latest segment first, to the nodes before it. -/
def addText (run : List Segment) (content : List Node) : List Node :=
  match textOf run.reverse with
  | some node => node :: content
  | none => content

/-- Read pieces into nodes, inside the elements `opened`, innermost first,
after the nodes `content` and the segments `run`, both latest first. -/
def grow (opened : List OpenElement) (content : List Node) (run : List Segment) :
    List Piece → List Node
  | [] => finish opened (addText run content)
  | .aside :: rest => grow opened content run rest
  | .segment segment :: rest => grow opened content (segment :: run) rest
  | .documentType :: rest => grow opened (addText run content) [] rest
  | .opening name attributes :: rest =>
    grow (⟨name, attributes, addText run content⟩ :: opened) [] [] rest
  | .standalone name attributes :: rest =>
    grow opened (.element name attributes [] true :: addText run content) [] rest
  | .closing name :: rest =>
    match opened with
    | innermost :: outer =>
      if innermost.name = name then
        grow outer
          (.element name innermost.attributes (addText run content).reverse true ::
            innermost.before)
          [] rest
      else finish opened (addText run content)
    | [] => finish [] (addText run content)

def nodes (document : List Char) : List Node :=
  grow [] [] [] (pieces document)

/-- Whether attributes are well formed, after those named `seen`: each has a
name that is not seen before, an equality sign, and a value in quotes.
`fuel` bounds their number. -/
def attributesAreSoundWithin (seen : List (List Char)) : (fuel : Nat) → List Char → Bool
  | 0, _ => true
  | fuel + 1, symbols =>
    match Text.trimStart isBlank symbols with
    | [] => true
    | first :: rest =>
      let inName := fun symbol => symbol != '=' && !isBlank symbol
      let name := first :: rest.takeWhile inName
      match Text.trimStart isBlank (rest.dropWhile inName) with
      | '=' :: rest =>
        !seen.contains name &&
          match Text.trimStart isBlank rest with
          | quote :: rest =>
            (quote == '"' || quote == '\'') &&
              match Text.cut [quote] rest with
              | some (_, after) => attributesAreSoundWithin (name :: seen) fuel after
              | none => false
          | [] => false
      | _ => false

/-- Whether the attributes of a tag are well formed. -/
def attributesAreSound (attributes : List Char) : Bool :=
  attributesAreSoundWithin [] attributes.length attributes

end ContentStore.Markup
