import SkillLint.Yaml.Token

/-!
# Events

The structure of a YAML document as a list of events with their places: each scalar and each alias is one event, and a
collection is the events of its members between two of its own. The grammar reads tokens by descent; the amount of fuel,
which only the wrapper at the end mentions, bounds the depth of the descent and is never used up by that many tokens.

A text that is ill-formed has the events before the flaw.
-/

namespace SkillLint.Yaml

/-- One event; an alias carries what tells which anchor it means. -/
inductive Event (α : Type) where
  | alias (target : α)
  | scalar (anchor : Option (List Char)) (tag : Option TagName) (style : ScalarStyle) (text : List Char)
  | sequenceStart (anchor : Option (List Char))
  | sequenceEnd
  | mappingStart (anchor : Option (List Char))
  | mappingEnd
deriving Repr

/-- The place on the same line behind one character. -/
def Mark.next (m : Mark) : Mark :=
  { m with column := m.column + 1 }

namespace Tokens

/-- Whether the next token is one of some kind. -/
def startsWith (tokens : Tokens) (kind : Token → Bool) : Bool :=
  tokens.head?.any kind

/-- Whether the text ends with no more tokens. -/
def isDone : Tokens → Bool
  | done _ => true
  | _ => false

/-- Whether there are markers for the end of a document only. -/
def onlyEnds : Tokens → Bool
  | done _ => true
  | next .documentEnd _ rest => rest.onlyEnds
  | _ => false

end Tokens

/-- Events that have been read, with their places; the last one comes first. -/
abbrev Events := List (Mark × Event (List Char))

/-- What has been read of a document. -/
structure Reading where
  events : Events
  /-- The tokens behind the events, if nothing is wrong there. -/
  rest : Except Flaw Tokens

namespace Reading

/-- Nothing more can be read. -/
def lost (flaw : Flaw) (read : Events) : Reading :=
  ⟨read, .error flaw⟩

/-- One more event has been read. -/
def one (mark : Mark) (event : Event (List Char)) (rest : Tokens) (read : Events) : Reading :=
  ⟨(mark, event) :: read, .ok rest⟩

/-- One more event that takes no tokens, at the place of the next one. -/
def before (event : Event (List Char)) (tokens : Tokens) (read : Events) : Reading :=
  match tokens.mark with
  | .error flaw => lost flaw read
  | .ok mark => one mark event tokens read

/-- What has been read, and what can be read behind it. -/
def andThen (r : Reading) (more : Tokens → Events → Reading) : Reading :=
  match r.rest with
  | .error _ => r
  | .ok rest => more rest r.events

end Reading

namespace Event

/-- The scalar that stands for a node of which nothing is written. -/
def nothing {α : Type} : Event α :=
  .scalar none none .plain []

/-- What tag handles stand for. -/
abbrev Handles := List (List Char × TagName)

/-- The handles that every document has. -/
def standardHandles : Handles :=
  [(['!'], TagName.ofText ['!']), (['!', '!'], TagName.ofText "tag:yaml.org,2002:".toList)]

/-- What is written before a node. -/
structure Properties where
  anchor : Option (List Char) := none
  /-- The handle and the suffix of the tag, behind its place. -/
  tag : Option (Mark × List Char × TagName) := none

/-- The properties before a node, in either order, and the tokens behind them. -/
def readProperties : Tokens → Properties × Tokens
  | .next (.anchor name) _ (.next (.tag handle suffix) mark rest) => (⟨some name, some (mark, handle, suffix)⟩, rest)
  | .next (.anchor name) _ rest => (⟨some name, none⟩, rest)
  | .next (.tag handle suffix) mark (.next (.anchor name) _ rest) => (⟨some name, some (mark, handle, suffix)⟩, rest)
  | .next (.tag handle suffix) mark rest => (⟨none, some (mark, handle, suffix)⟩, rest)
  | rest => ({}, rest)

/-- The whole name of a tag, if there is one, before a node that starts at `start`; its handle must be known. -/
def Properties.tagName (p : Properties) (handles : Handles) (start : Mark) : Except Flaw (Option TagName) :=
  match p.tag with
  | none => .ok none
  | some (mark, handle, suffix) =>
    if handle.isEmpty then .ok (some suffix)
    else
      match handles.lookup handle with
      | some front => .ok (some (front ++ suffix))
      | none => .error ⟨.unknownHandle, mark, some (.parsing .node, start)⟩

/-- Reads what stands before a node: the place where the node starts, its anchor and its tag. -/
def readFront (handles : Handles) (tokens : Tokens) :
    Except Flaw (Mark × Option (List Char) × Option TagName × Tokens) := do
  let start ← tokens.mark
  let (properties, rest) := readProperties tokens
  let _ ← rest.mark
  return (start, properties.anchor, ← properties.tagName handles start, rest)

/-- A node of which only the properties are written, which must be there. -/
def readBare (block : Bool) (start : Mark) (anchor : Option (List Char)) (tag : Option TagName) (rest : Tokens)
    (read : Events) : Reading :=
  if anchor.isSome || tag.isSome then .one start (.scalar anchor tag .plain []) rest read
  else .lost (rest.unexpected .expectedContent (some (.parsing (if block then .blockNode else .flowNode), start))) read

/-- Whether a block mapping goes on or ends with a token. -/
def isMappingToken : Token → Bool
  | .key | .value | .blockEnd => true
  | _ => false

/-- Whether an item of a collection in brackets ends with a token, given the closing bracket. -/
def endsFlowItem (closing token : Token) : Bool :=
  token = .flowEntry || token = closing

mutual

/-- Reads a node. Block collections are read where `block` allows it, and a sequence without indentation of its own where
`flush` does. -/
def readNode (handles : Handles) : Nat → Bool → Bool → Tokens → Events → Reading
  | 0, _, _, tokens, read => .lost (tokens.unexpected .expectedContent none) read
  | fuel + 1, block, flush, tokens, read =>
    match tokens with
    | .next (.alias name) mark rest => .one mark (.alias name) rest read
    | _ =>
      match readFront handles tokens with
      | .error flaw => .lost flaw read
      | .ok (start, anchor, tag, rest) =>
        match rest with
        | .next .blockEntry _ _ =>
          if flush then readFlushItems handles fuel rest ((start, .sequenceStart anchor) :: read)
          else readBare block start anchor tag rest read
        | .next (.scalar style text) _ more =>
          .one start (.scalar anchor (if tag = some (TagName.ofText ['!']) then none else tag) style text) more read
        | .next .flowSequenceStart mark more =>
          readFlowItems handles fuel mark true more ((start, .sequenceStart anchor) :: read)
        | .next .flowMappingStart mark more =>
          readFlowMembers handles fuel mark true more ((start, .mappingStart anchor) :: read)
        | .next .blockSequenceStart mark more =>
          if block then readItems handles fuel mark more ((start, .sequenceStart anchor) :: read)
          else readBare block start anchor tag rest read
        | .next .blockMappingStart mark more =>
          if block then readMembers handles fuel mark more ((start, .mappingStart anchor) :: read)
          else readBare block start anchor tag rest read
        | _ => readBare block start anchor tag rest read

/-- Reads the items of a block sequence, which starts at `start`, and its end. -/
def readItems (handles : Handles) : Nat → Mark → Tokens → Events → Reading
  | 0, _, tokens, read => .lost (tokens.unexpected .expectedHyphen none) read
  | fuel + 1, start, .next .blockEntry mark rest, read =>
    (if rest.startsWith (fun t => t = .blockEntry || t = .blockEnd) then .one mark.next nothing rest read
      else readNode handles fuel true false rest read).andThen (readItems handles fuel start)
  | _ + 1, _, .next .blockEnd mark rest, read => .one mark .sequenceEnd rest read
  | _ + 1, start, tokens, read =>
    .lost (tokens.unexpected .expectedHyphen (some (.parsing .blockCollection, start))) read

/-- Reads the items of a sequence that has no indentation of its own. -/
def readFlushItems (handles : Handles) : Nat → Tokens → Events → Reading
  | 0, tokens, read => .lost (tokens.unexpected .expectedHyphen none) read
  | fuel + 1, .next .blockEntry mark rest, read =>
    (if rest.startsWith (fun t => t = .blockEntry || isMappingToken t) then .one mark.next nothing rest read
      else readNode handles fuel true false rest read).andThen (readFlushItems handles fuel)
  | _ + 1, tokens, read => .before .sequenceEnd tokens read

/-- Reads the members of a block mapping, which starts at `start`, and its end. -/
def readMembers (handles : Handles) : Nat → Mark → Tokens → Events → Reading
  | 0, _, tokens, read => .lost (tokens.unexpected .expectedKey none) read
  | fuel + 1, start, .next .key mark rest, read =>
    ((if rest.startsWith isMappingToken then .one mark.next nothing rest read
      else readNode handles fuel true true rest read).andThen (readValue handles fuel)).andThen
        (readMembers handles fuel start)
  | _ + 1, _, .next .blockEnd mark rest, read => .one mark .mappingEnd rest read
  | _ + 1, start, tokens, read => .lost (tokens.unexpected .expectedKey (some (.parsing .blockMapping, start))) read

/-- Reads the value behind a key of a block mapping. -/
def readValue (handles : Handles) : Nat → Tokens → Events → Reading
  | 0, tokens, read => .lost (tokens.unexpected .expectedContent none) read
  | fuel + 1, .next .value mark rest, read =>
    if rest.startsWith isMappingToken then .one mark.next nothing rest read
    else readNode handles fuel true true rest read
  | _ + 1, tokens, read => .before nothing tokens read

/-- Reads the items of a flow sequence, which starts at `start`, and its end. An item may stand at the start and behind
each comma. An item that is a key is a mapping with one member. -/
def readFlowItems (handles : Handles) : Nat → Mark → Bool → Tokens → Events → Reading
  | 0, _, _, tokens, read => .lost (tokens.unexpected .expectedCommaOrBracket none) read
  | _ + 1, _, _, .next .flowSequenceEnd mark rest, read => .one mark .sequenceEnd rest read
  | fuel + 1, start, true, .next .key mark rest, read =>
    (readFlowPair handles fuel rest ((mark, .mappingStart none) :: read)).andThen
      (readFlowItems handles fuel start false)
  | fuel + 1, start, true, tokens, read =>
    (readNode handles fuel false false tokens read).andThen (readFlowItems handles fuel start false)
  | fuel + 1, start, false, .next .flowEntry _ rest, read => readFlowItems handles fuel start true rest read
  | _ + 1, start, false, tokens, read =>
    .lost (tokens.unexpected .expectedCommaOrBracket (some (.parsing .flowSequence, start))) read

/-- Reads the member of a mapping that is an item of a flow sequence, and the end of the mapping. Where its key is left
out, the token in its place is passed over. -/
def readFlowPair (handles : Handles) : Nat → Tokens → Events → Reading
  | 0, tokens, read => .lost (tokens.unexpected .expectedContent none) read
  | fuel + 1, tokens, read =>
    let key : Reading :=
      match tokens with
      | .next token mark rest =>
        if token = .value || endsFlowItem .flowSequenceEnd token then .one mark.next nothing rest read
        else readNode handles fuel false false tokens read
      | _ => readNode handles fuel false false tokens read
    (key.andThen (readFlowValue handles fuel .flowSequenceEnd)).andThen (.before .mappingEnd)

/-- Reads the value behind a key inside brackets. -/
def readFlowValue (handles : Handles) : Nat → Token → Tokens → Events → Reading
  | 0, _, tokens, read => .lost (tokens.unexpected .expectedContent none) read
  | fuel + 1, closing, .next .value _ rest, read =>
    if rest.startsWith (endsFlowItem closing) then .before nothing rest read
    else readNode handles fuel false false rest read
  | _ + 1, _, tokens, read => .before nothing tokens read

/-- Reads the members of a flow mapping, which starts at `start`, and its end. A member may stand at the start and behind
each comma. -/
def readFlowMembers (handles : Handles) : Nat → Mark → Bool → Tokens → Events → Reading
  | 0, _, _, tokens, read => .lost (tokens.unexpected .expectedCommaOrBrace none) read
  | _ + 1, _, _, .next .flowMappingEnd mark rest, read => .one mark .mappingEnd rest read
  | fuel + 1, start, true, .next .key _ rest, read =>
    ((if rest.startsWith (fun t => t = .value || endsFlowItem .flowMappingEnd t) then .before nothing rest read
      else readNode handles fuel false false rest read).andThen (readFlowValue handles fuel .flowMappingEnd)).andThen
        (readFlowMembers handles fuel start false)
  | fuel + 1, start, true, tokens, read =>
    ((readNode handles fuel false false tokens read).andThen (.before nothing)).andThen
      (readFlowMembers handles fuel start false)
  | fuel + 1, start, false, .next .flowEntry _ rest, read => readFlowMembers handles fuel start true rest read
  | _ + 1, start, false, tokens, read =>
    .lost (tokens.unexpected .expectedCommaOrBrace (some (.parsing .flowMapping, start))) read

end

/-- The handles that the directives before a document declare, and the tokens behind them. One version at most may be
given, and each handle once. -/
def readDirectives (versioned : Bool) (handles : Handles) : Tokens → Except Flaw (Handles × Tokens)
  | .next (.directive (.version major minor)) mark rest =>
    if versioned then .error ⟨.repeatedVersion, mark, none⟩
    else if major = 1 && (minor = 1 || minor = 2) then readDirectives true handles rest
    else .error ⟨.otherVersion, mark, none⟩
  | .next (.directive (.tag handle start)) mark rest =>
    if handles.any fun known => known.1 = handle then .error ⟨.repeatedHandle, mark, none⟩
    else readDirectives versioned (handles ++ [(handle, start)]) rest
  | tokens => .ok (handles, tokens)

/-- Whether a document can begin with a token explicitly. -/
def startsDocument : Token → Bool
  | .directive _ | .documentStart => true
  | _ => false

/-- Reads a document whose tokens start with directives or with its marker. -/
def readExplicit (fuel : Nat) (tokens : Tokens) : Reading :=
  match readDirectives false [] tokens with
  | .error flaw => .lost flaw []
  | .ok (handles, .next .documentStart _ rest) =>
    if rest.isDone || rest.startsWith (fun t => startsDocument t || t = .documentEnd) then .before nothing rest []
    else readNode (handles ++ standardHandles) fuel true false rest []
  | .ok (_, rest) => .lost (rest.unexpected .expectedDocumentStart none) []

/-- Reads the first document that some tokens make up, if something stands there, and looks at the token behind it. -/
def readDocument (tokens : Tokens) : Reading :=
  let fuel := 3 * tokens.length + 3
  let document : Reading :=
    if tokens.isDone then ⟨[], .ok tokens⟩
    else if tokens.startsWith startsDocument then readExplicit fuel tokens
    else readNode standardHandles fuel true false tokens []
  document.andThen fun rest read => ⟨read, rest.mark.map fun _ => rest⟩

end Event

end SkillLint.Yaml
