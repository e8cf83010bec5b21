import SkillLint.Yaml.Event
import SkillLint.Yaml.Kind

/-!
# YAML documents

A document is its events together with the positions of its anchored nodes. A node is given by the events from its own
on, so that reading it is reading a list from the front; where an alias stands, reading goes on at the anchor. Each
question about a node (its text, its number, its items, its members) is answered with an error when the node is of another
kind; a node of which nothing is written counts as an empty collection.

What is wrong with a text comes out where its events end, so that an error of what stands before is told first.
-/

namespace SkillLint.Yaml

/-- A node, given by the events from its own on, with their places. -/
abbrev Node := List (Mark × Event Nat)

/-- The first document of a text. -/
structure Document where
  /-- The events, in which aliases carry the numbers of anchors. -/
  events : Node
  /-- Numbers of anchors and the positions of their nodes; the first entry of a number counts. -/
  anchors : List (Nat × Nat) := []
  /-- Why there are no more events, if the document is not complete. -/
  failure : Option Error := none
  /-- Whether there is more behind the document. -/
  several : Bool := false

/-- What a node says to someone who has come to it on a route. -/
abbrev Reader (α : Type) := Route → Node → Except Error α

namespace Document

/-- What is known of the anchors while the events of a document are numbered. -/
structure Numbering where
  /-- The anchors by name, with the number that each has at present. -/
  names : List (List Char × Nat) := []
  /-- The numbers given so far and the positions of their nodes, the last one first. -/
  places : List (Nat × Nat) := []

/-- Gives an anchor at a position the number of the distinct names before it. -/
def Numbering.declare (n : Numbering) (anchor : Option (List Char)) (position : Nat) : Numbering :=
  match anchor with
  | none => n
  | some name =>
    let number := n.names.length
    { names := (name, number) :: n.names.filter fun known => known.1 != name, places := (number, position) :: n.places }

/-- The document made of events from a position on, up to an alias that has no anchor before it. -/
def number (n : Numbering) (position : Nat) : List (Mark × Event (List Char)) → Document
  | [] => { events := [], anchors := n.places }
  | (mark, e) :: more =>
    let prepend (e : Event Nat) (n : Numbering) : Document :=
      let d := number n (position + 1) more
      { d with events := (mark, e) :: d.events }
    match e with
    | .alias name =>
      match n.names.lookup name with
      | none => { events := [], anchors := n.places, failure := some (.unknownAnchor mark) }
      | some number => prepend (.alias number) n
    | .scalar anchor tag style text => prepend (.scalar anchor tag style text) (n.declare anchor position)
    | .sequenceStart anchor => prepend (.sequenceStart anchor) (n.declare anchor position)
    | .mappingStart anchor => prepend (.mappingStart anchor) (n.declare anchor position)
    | .sequenceEnd => prepend .sequenceEnd n
    | .mappingEnd => prepend .mappingEnd n

/-- The first document that some tokens make up. -/
def ofTokens (tokens : Tokens) : Document :=
  let reading := Event.readDocument tokens
  let d := number {} 0 reading.events.reverse
  match reading.rest with
  | .error flaw => { d with failure := some (d.failure.getD (.illFormed flaw)) }
  | .ok rest => { d with several := !rest.onlyEnds }

/-- The first document in a text, which must have printable characters only. -/
def ofText (s : List Char) : Document :=
  if s.all isPrintable then ofTokens (Tokens.ofText s)
  else { events := [], failure := some (.control (Cursor.byteCount (s.takeWhile isPrintable))) }

/-- The error of a reader that needs more events than there are. -/
def lack (d : Document) : Error :=
  d.failure.getD .noDocument

/-- What has been read of the document, if nothing is wrong with the rest of the text. -/
def finish {α : Type} (d : Document) (a : α) : Except Error α :=
  match d.failure with
  | some error => .error error
  | none => if d.several then .error .severalDocuments else .ok a

/-- The node itself, or the one that an alias means. -/
def follow (d : Document) (node : Node) : Node :=
  match node with
  | (_, .alias number) :: _ =>
    match d.anchors.lookup number with
    | some position => d.events.drop position
    | none => []
  | _ => node

/-- The error of a node that is not what is expected. -/
def unexpected (d : Document) (expected : String) (route : Route) (node : Node) : Error :=
  match node with
  | [] => d.lack
  | (mark, e) :: _ =>
    .mismatch route mark
      (match e with
        | .scalar _ tag style text => .ofScalar tag style text expected
        | .mappingStart _ => .kind .mapping expected
        | _ => .kind .sequence expected)

/-- The events behind the end of `depth` open collections, or behind one node when none is open. -/
def behind (depth : Nat) : Node → Node
  | [] => []
  | (_, .sequenceStart _) :: rest => behind (depth + 1) rest
  | (_, .mappingStart _) :: rest => behind (depth + 1) rest
  | (_, .sequenceEnd) :: rest => if depth ≤ 1 then rest else behind (depth - 1) rest
  | (_, .mappingEnd) :: rest => if depth ≤ 1 then rest else behind (depth - 1) rest
  | (_, .alias _) :: rest => if depth = 0 then rest else behind depth rest
  | (_, .scalar _ _ _ _) :: rest => if depth = 0 then rest else behind depth rest

/-- Whether nothing is written of a node in a complete document. -/
def isBlank (d : Document) : Node → Bool
  | [] => d.failure.isNone
  | (_, .scalar _ _ .plain []) :: _ => true
  | _ => false

/-- The nodes up to the end of the collection that they are members of; there are at most `fuel`. Where the events end
first, the last node has none. -/
def siblings : Nat → Node → List Node
  | 0, _ => []
  | _ + 1, [] => [[]]
  | _ + 1, (_, .sequenceEnd) :: _ => []
  | _ + 1, (_, .mappingEnd) :: _ => []
  | fuel + 1, node => node :: siblings fuel (behind 0 node)

/-- Nodes two by two; the last one may be alone. -/
def pairs : List Node → List (Node × Node)
  | key :: value :: rest => (key, value) :: pairs rest
  | [key] => [(key, [])]
  | [] => []

/-- The text of a scalar, in whatever way it is written. -/
def text (d : Document) (expected : String) : Reader String := fun route node =>
  let node := d.follow node
  match node with
  | (_, .scalar _ _ _ text) :: _ => .ok (String.ofList text)
  | _ => .error (d.unexpected expected route node)

/-- The number that a plain scalar stands for, or a literal block that is tagged as one, if 64 bits hold it. -/
def nat (d : Document) : Reader Nat := fun route node =>
  let node := d.follow node
  let number : Option Nat :=
    match node with
    | (_, .scalar _ tag style text) :: _ =>
      if style = .plain || (style = .literal && tag = some wholeTag) then naturalOf? text else none
    | _ => none
  match number.filter (· < powerOfTwo 64) with
  | some n => .ok n
  | none => .error (d.unexpected "usize" route node)

/-- The items of a sequence, each as it is read with its route. -/
def items {α : Type} (d : Document) (read : Reader α) : Reader (List α) := fun route node =>
  let node := d.follow node
  match node with
  | (_, .sequenceStart _) :: rest =>
    (siblings (rest.length + 1) rest).zipIdx.mapM fun (item, index) => read (.item index :: route) item
  | _ => if d.isBlank node then .ok [] else .error (d.unexpected "a sequence" route node)

/-- A member that a mapping may have: its key, and what its value makes of what has been read before. -/
structure Field (σ : Type) where
  key : String
  read : Route → Node → σ → Except Error σ

/-- The step to the value of a key. -/
def stepTo (key : Node) (name : String) : Step :=
  match key with
  | (_, .alias _) :: _ => .aliased
  | _ => .key name

/-- Reads one member of a mapping at `mark`, given the keys of the fields before it. Other members are passed over. -/
def readMember {σ : Type} (d : Document) (fields : List (Field σ)) (route : Route) (mark : Mark)
    (read : List String × σ) (key value : Node) : Except Error (List String × σ) := do
  let name ← d.text "field identifier" route key
  match fields.find? fun field => field.key == name with
  | none => return read
  | some field =>
    if read.1.contains name then throw (.mismatch route mark (.repeated name))
    else return (name :: read.1, ← field.read (stepTo key name :: route) value read.2)

/-- What the members of a mapping make of some value. -/
def members {σ : Type} (d : Document) (expected : String) (fields : List (Field σ)) (first : σ) : Reader σ :=
  fun route node =>
    let node := d.follow node
    match node with
    | (mark, .mappingStart _) :: rest => do
      let (_, last) ← (pairs (siblings (rest.length + 1) rest)).foldlM
        (fun read (key, value) => d.readMember fields route mark read key value) ([], first)
      return last
    | _ => if d.isBlank node then .ok first else .error (d.unexpected expected route node)

end Document

end SkillLint.Yaml
