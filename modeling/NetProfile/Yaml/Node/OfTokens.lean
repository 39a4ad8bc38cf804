import NetProfile.Yaml.Node
import NetProfile.Yaml.Token.Stream

/-!
# From tokens to nodes

Reads the tokens of a text into documents, one token after the other, without
ever going back.

## Main definitions

- `Builder` — the tokens still to come and the names in force
- `Builder.node` — reads one node
- `Yaml.readFirst` — the first document of a text, and whether there is more

## Design notes

Reading never fails as a whole: where it cannot go on, it puts a broken node and
drops the tokens that are left, so that everything around ends there as well.
What has been read before stays and can be looked into.

The functions that read nodes call each other once for every collection and
every entry. `fuel` bounds the depth of these calls; twice the number of tokens
is enough, since each second call has taken a token.
-/

namespace NetProfile

namespace Yaml

/-- The state of building nodes. -/
structure Builder where
  /-- The tokens still to come. -/
  tokens : List Token
  /-- Why there are no more than these, unless the text ends. -/
  stop : SyntaxError := ⟨"unexpected end", none⟩
  /-- The anchors so far with the numbers they carry. -/
  anchors : List (String × Nat) := []
  /-- What the handles of tags are short for. -/
  handles : List (String × Tag) := []
  deriving Repr

/-- A step of building nodes. -/
abbrev Build (α : Type) := Builder → α × Builder

namespace Builder

/-- The handles that every document knows. -/
def defaultHandles : List (String × Tag) := [("!", .mark), ("!!", .schemaLead)]

/-- Whether reading cannot go on. -/
def halted (b : Builder) : Bool := b.tokens.isEmpty

/-- The node that stands where reading cannot go on. -/
def gap (b : Builder) : Node := .broken b.stop

/-- Ends the reading. -/
def halt (b : Builder) (problem : String) : Builder :=
  { b with tokens := [], stop := ⟨problem, none⟩ }

/-- Ends the reading in the place of a node. -/
def giveUp (b : Builder) (problem : String) : Node × Builder :=
  let b := b.halt problem
  (b.gap, b)

/-- Ends the reading in the place of an item. -/
def giveUpItem (b : Builder) (problem : String) : List Node × Builder :=
  let b := b.halt problem
  ([b.gap], b)

/-- Ends the reading in the place of an entry. -/
def giveUpEntry (b : Builder) (problem : String) : List (Node × Node) × Builder :=
  let b := b.halt problem
  ([(b.gap, b.gap)], b)

/-- Passes over the next token. -/
def advance (b : Builder) : Builder := { b with tokens := b.tokens.drop 1 }

/-- Names an anchor and answers the number that its aliases carry: the number of
different names so far. -/
def nameAnchor (b : Builder) (name : String) : Nat × Builder :=
  let n := b.anchors.length
  (n, { b with anchors := (name, n) :: b.anchors.filter (fun a => a.1 != name) })

/-- The full tag, unless its handle is unknown. -/
def fullTag? (b : Builder) (handle : String) (suffix : Tag) : Option Tag :=
  if handle = "" then some suffix else (b.handles.lookup handle).map (· ++ suffix)

/-- What stands before a node, as written. -/
structure WrittenMarks where
  anchor : Option String := none
  tag : Option (String × Tag) := none
  deriving DecidableEq, Repr

/-- Reads the anchor and the tag of a node, in either order. -/
def writtenMarks (b : Builder) : WrittenMarks × Builder :=
  match b.tokens with
  | .anchor name :: .tag handle suffix :: rest =>
    (⟨some name, some (handle, suffix)⟩, { b with tokens := rest })
  | .tag handle suffix :: .anchor name :: rest =>
    (⟨some name, some (handle, suffix)⟩, { b with tokens := rest })
  | .anchor name :: rest => (⟨some name, none⟩, { b with tokens := rest })
  | .tag handle suffix :: rest => (⟨none, some (handle, suffix)⟩, { b with tokens := rest })
  | _ => (⟨none, none⟩, b)

/-- What stands before a node, its tag in full. An anchor gets its number only if
the node has content. -/
def marks : Build Marks := fun b =>
  let (written, b) := b.writtenMarks
  let tag := written.tag.map (fun tag => b.fullTag? tag.1 tag.2)
  if tag = some none then ({}, b.halt "found undefined tag handle")
  else if b.halted then ({}, b)
  else
    match written.anchor with
    | some name =>
      let (n, b) := b.nameAnchor name
      (⟨some n, tag.join⟩, b)
    | none => (⟨none, tag.join⟩, b)

/-- Where a node stands. -/
inductive Place where
  /-- In a block, where block collections may begin. -/
  | block
  /-- The same, behind a key: a sequence may begin without further indentation. -/
  | blockEntry
  /-- In a flow collection. -/
  | flow
  deriving DecidableEq, Repr

/-- Whether an absent node may stand before the token in a block mapping. -/
def endsBlockNode : Token → Bool
  | .key | .value | .blockEnd => true
  | _ => false

/-- Whether the token ends an item or entry of a flow sequence. -/
def endsFlowItem : Token → Bool
  | .flowEntry | .flowSequenceEnd => true
  | _ => false

/-- Whether the token ends an entry of a flow mapping. -/
def endsFlowPair : Token → Bool
  | .flowEntry | .flowMappingEnd => true
  | _ => false

mutual

/-- Reads a node. -/
def node (fuel : Nat) (place : Place) : Build Node := fun b =>
  match fuel with
  | 0 => b.giveUp "nested too deeply"
  | fuel + 1 =>
    match b.tokens with
    | .alias name :: _ =>
      match b.anchors.lookup name with
      | some n => (.alias n, b.advance)
      | none => b.giveUp "unknown anchor"
    | _ =>
      let (marks, b) := marks b
      match b.tokens with
      | [] => (b.gap, b)
      | .scalar text plain :: _ => (.scalar marks text plain, b.advance)
      | .flowSequenceStart :: _ =>
        let (items, b) := flowItems fuel true b.advance
        (.sequence marks items, b)
      | .flowMappingStart :: _ =>
        let (entries, b) := flowEntries fuel true b.advance
        (.mapping marks entries, b)
      | t :: _ =>
        if place ≠ .flow ∧ t = .blockSequenceStart then
          let (items, b) := blockItems fuel b.advance
          (.sequence marks items, b)
        else if place ≠ .flow ∧ t = .blockMappingStart then
          let (entries, b) := blockEntries fuel b.advance
          (.mapping marks entries, b)
        else if place = .blockEntry ∧ t = .blockEntry then
          let (items, b) := bareItems fuel b
          (.sequence marks items, b)
        else if marks ≠ {} then (.scalar marks "" true, b)
        else b.giveUp "did not find expected node content"
termination_by structural fuel

/-- Reads the items of a block sequence and its end. -/
def blockItems (fuel : Nat) : Build (List Node) := fun b =>
  match fuel with
  | 0 => b.giveUpItem "nested too deeply"
  | fuel + 1 =>
    match b.tokens with
    | [] => ([b.gap], b)
    | .blockEnd :: _ => ([], b.advance)
    | .blockEntry :: rest =>
      let (item, b) :=
        if rest.head?.any (fun t => t == .blockEntry || t == .blockEnd) then (.empty, b.advance)
        else node fuel .block b.advance
      let (items, b) := blockItems fuel b
      (item :: items, b)
    | _ => b.giveUpItem "did not find expected '-' indicator"
termination_by structural fuel

/-- Reads the items of a sequence that is not indented beyond its key. -/
def bareItems (fuel : Nat) : Build (List Node) := fun b =>
  match fuel with
  | 0 => b.giveUpItem "nested too deeply"
  | fuel + 1 =>
    match b.tokens with
    | [] => ([b.gap], b)
    | .blockEntry :: rest =>
      let (item, b) :=
        if rest.head?.any (fun t => t == .blockEntry || endsBlockNode t) then (.empty, b.advance)
        else node fuel .block b.advance
      let (items, b) := bareItems fuel b
      (item :: items, b)
    | _ => ([], b)
termination_by structural fuel

/-- Reads the entries of a block mapping and its end. -/
def blockEntries (fuel : Nat) : Build (List (Node × Node)) := fun b =>
  match fuel with
  | 0 => b.giveUpEntry "nested too deeply"
  | fuel + 1 =>
    match b.tokens with
    | [] => ([(b.gap, b.gap)], b)
    | .blockEnd :: _ => ([], b.advance)
    | .key :: rest =>
      let (k, b) :=
        if rest.head?.any endsBlockNode then (.empty, b.advance)
        else node fuel .blockEntry b.advance
      let (v, b) := blockValue fuel b
      let (entries, b) := blockEntries fuel b
      ((k, v) :: entries, b)
    | _ => b.giveUpEntry "did not find expected key"
termination_by structural fuel

/-- Reads the value of an entry of a block mapping. -/
def blockValue (fuel : Nat) : Build Node := fun b =>
  match fuel with
  | 0 => b.giveUp "nested too deeply"
  | fuel + 1 =>
    match b.tokens with
    | [] => (b.gap, b)
    | .value :: rest =>
      if rest.head?.any endsBlockNode then (.empty, b.advance)
      else node fuel .blockEntry b.advance
    | _ => (.empty, b)
termination_by structural fuel

/-- Reads the items of a flow sequence and its end; `first` tells that no comma
is expected. -/
def flowItems (fuel : Nat) (first : Bool) : Build (List Node) := fun b =>
  match fuel with
  | 0 => b.giveUpItem "nested too deeply"
  | fuel + 1 =>
    let next := b.tokens.head?
    if b.halted then ([b.gap], b)
    else if next = some .flowSequenceEnd then ([], b.advance)
    else if !first && next != some .flowEntry then
      b.giveUpItem "did not find expected ',' or ']'"
    else
      let b := if first then b else b.advance
      match b.tokens with
      | [] => ([b.gap], b)
      | .flowSequenceEnd :: _ => ([], b.advance)
      | .key :: _ =>
        let (k, b) := flowItemKey fuel b.advance
        let (v, b) := flowItemValue fuel b
        let pair := if b.halted then [(k, v), (b.gap, b.gap)] else [(k, v)]
        let (items, b) := flowItems fuel false b
        (.mapping {} pair :: items, b)
      | _ =>
        let (item, b) := node fuel .flow b
        let (items, b) := flowItems fuel false b
        (item :: items, b)
termination_by structural fuel

/-- Reads the key of a pair in a flow sequence. The token behind an absent key is
passed over with it. -/
def flowItemKey (fuel : Nat) : Build Node := fun b =>
  match fuel with
  | 0 => b.giveUp "nested too deeply"
  | fuel + 1 =>
    if b.tokens.head?.any (fun t => t == .value || endsFlowItem t) then (.empty, b.advance)
    else node fuel .flow b
termination_by structural fuel

/-- Reads the value of a pair in a flow sequence. -/
def flowItemValue (fuel : Nat) : Build Node := fun b =>
  match fuel with
  | 0 => b.giveUp "nested too deeply"
  | fuel + 1 =>
    match b.tokens with
    | [] => (b.gap, b)
    | .value :: rest =>
      if rest.head?.any endsFlowItem then (.empty, b.advance) else node fuel .flow b.advance
    | _ => (.empty, b)
termination_by structural fuel

/-- Reads the entries of a flow mapping and its end; `first` tells that no comma
is expected. -/
def flowEntries (fuel : Nat) (first : Bool) : Build (List (Node × Node)) := fun b =>
  match fuel with
  | 0 => b.giveUpEntry "nested too deeply"
  | fuel + 1 =>
    let next := b.tokens.head?
    if b.halted then ([(b.gap, b.gap)], b)
    else if next = some .flowMappingEnd then ([], b.advance)
    else if !first && next != some .flowEntry then
      b.giveUpEntry "did not find expected ',' or '\x7d'"
    else
      let b := if first then b else b.advance
      match b.tokens with
      | [] => ([(b.gap, b.gap)], b)
      | .flowMappingEnd :: _ => ([], b.advance)
      | .key :: rest =>
        let (k, b) :=
          if rest.head?.any (fun t => t == .value || endsFlowPair t) then (.empty, b.advance)
          else node fuel .flow b.advance
        let (v, b) := flowValue fuel b
        let (entries, b) := flowEntries fuel false b
        ((k, v) :: entries, b)
      | _ =>
        let (k, b) := node fuel .flow b
        let v := if b.halted then b.gap else .empty
        let (entries, b) := flowEntries fuel false b
        ((k, v) :: entries, b)
termination_by structural fuel

/-- Reads the value of an entry of a flow mapping. -/
def flowValue (fuel : Nat) : Build Node := fun b =>
  match fuel with
  | 0 => b.giveUp "nested too deeply"
  | fuel + 1 =>
    match b.tokens with
    | [] => (b.gap, b)
    | .value :: rest =>
      if rest.head?.any endsFlowPair then (.empty, b.advance) else node fuel .flow b.advance
    | _ => (.empty, b)
termination_by structural fuel

end

/-- Whether the token begins or ends a document. -/
def isDocumentToken : Token → Bool
  | .versionDirective .. | .tagDirective .. | .documentStart | .documentEnd | .streamEnd => true
  | _ => false

/-- Adds a handle of the document; naming one twice is an error. -/
def addHandle (own : List (String × Tag)) (handle : String) (lead : Tag) :
    Except SyntaxError (List (String × Tag)) :=
  if (own.lookup handle).isSome then .error ⟨"found duplicate %TAG directive", none⟩
  else .ok ((handle, lead) :: own)

/-- Reads the directives of a document; `versioned` tells that there was a
version, and `own` holds the handles so far. -/
def directives (versioned : Bool) (own : List (String × Tag)) :
    List Token → Except SyntaxError (List (String × Tag) × List Token)
  | .versionDirective major minor :: rest =>
    if versioned then .error ⟨"found duplicate %YAML directive", none⟩
    else if major = 1 ∧ (minor = 1 ∨ minor = 2) then directives true own rest
    else .error ⟨"found incompatible YAML document", none⟩
  | .tagDirective handle lead :: rest => do
    let own ← addHandle own handle lead
    directives versioned own rest
  | rest => .ok (own, rest)

/-- How deep the reading of nodes may go for the tokens left. -/
def fuel (b : Builder) : Nat := 2 * b.tokens.length + 2

/-- Reads the content of a document. -/
def content : Build Node := fun b => node b.fuel .block b

/-- Reads a document that begins with a marker; it may be empty. -/
def markedDocument : Build Node := fun b =>
  match directives false [] b.tokens with
  | .error e => b.giveUp e.problem
  | .ok (own, rest) =>
    let b := { b with handles := own ++ defaultHandles, tokens := rest }
    match b.tokens with
    | [] => (b.gap, b)
    | .documentStart :: rest =>
      if rest.head?.any isDocumentToken then (.empty, b.advance) else content b.advance
    | _ => b.giveUp "did not find expected <document start>"

/-- Reads the first document, if there is one, up to the marker of its end. -/
def firstDocument (b : Builder) : Option Node × Builder :=
  match b.tokens with
  | .streamEnd :: _ => (none, b)
  | .versionDirective .. :: _ | .tagDirective .. :: _ | .documentStart :: _ =>
    let (root, b) := markedDocument b
    (some root, b)
  | _ =>
    let (root, b) := content { b with handles := defaultHandles }
    (some root, b)

/-- Whether anything but end markers follows a document, be it broken. -/
def hasMore (b : Builder) : Bool :=
  match b.tokens.dropWhile (· == .documentEnd) with
  | .streamEnd :: _ => false
  | _ => true

end Builder

/-- What a text begins with. -/
structure FirstDocument where
  /-- The document; none when the text holds none. -/
  document : Option Document
  /-- Why the document could not be read to its end, if so. -/
  failure : Option SyntaxError
  /-- Whether another document follows. -/
  hasMore : Bool
  deriving Repr

/-- Reads the first document of a text. What follows it is not looked into. -/
def readFirst (text : String) : FirstDocument :=
  let stream := tokens text.toList
  let start : Builder := { tokens := stream.tokens, stop := stream.stop }
  let (root, b) := start.firstDocument
  { document := root.map Document.ofRoot
    failure := if b.halted then some b.stop else none
    hasMore := root.isSome && b.hasMore }

end Yaml

end NetProfile
