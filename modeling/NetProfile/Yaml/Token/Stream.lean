import NetProfile.Yaml.Token
import NetProfile.Yaml.Token.Directive
import NetProfile.Yaml.Token.PlainScalar
import NetProfile.Yaml.Token.QuotedScalar

/-!
# From text to tokens

Reads a text into tokens from left to right. Two things make this more than
cutting: indentation opens and closes block collections, and a key is recognised
only by the colon behind it.

## Main definitions

- `Scanner` — what has been read and what is open
- `Scanner.fetch` — reads up to the end of the next token
- `Scanner.settled` — the tokens that nothing to come can change
- `Yaml.tokens` — all tokens of a text, up to the first error

## Design notes

Wherever a key may begin, the place in the token sequence is remembered for each
level of flow collections (`PossibleKey`). When the colon comes, the key token
is put in there, and before it the start of a block mapping if this key is the
first at its indentation. A place is given up at the end of its line and after
1024 bytes; in a block, a key at the indentation of its mapping cannot be given
up, and that is an error.

The tokens behind a place where a key may have begun wait until that is settled.
Where reading fails before, they are lost with what follows them.

Characters that no document contains are looked for in one stretch of the text
at a time, before the first character of the stretch is read.
-/

namespace NetProfile

namespace Yaml

/-- A place where a key may have begun. -/
structure PossibleKey where
  /-- The number of tokens before. -/
  before : Nat
  position : Position
  /-- Whether the place cannot hold anything but a key. -/
  required : Bool
  deriving DecidableEq, Repr

/-- The state of reading. -/
structure Scanner where
  rest : List Char
  /-- Where the first stretch with a forbidden character begins, if there is one. -/
  limit : Option Nat := none
  position : Position := {}
  /-- The tokens read so far, last first. -/
  tokens : List Token := []
  /-- The number of tokens. -/
  count : Nat := 0
  /-- The column of the block collection around, -1 outside of any. -/
  indent : Int := -1
  /-- The columns of the collections around that one, innermost first. -/
  outerIndents : List Int := []
  /-- The place of a possible key outside of flow collections. -/
  blockKey : Option PossibleKey := none
  /-- The same for each open flow collection, innermost first. -/
  flowKeys : List (Option PossibleKey) := []
  /-- Whether a key may begin here. -/
  keyAllowed : Bool := true
  deriving Repr

namespace Scanner

/-- Whether a flow collection is open. -/
def inFlow (s : Scanner) : Bool := !s.flowKeys.isEmpty

/-- Adds a token. -/
def emit (s : Scanner) (t : Token) : Scanner :=
  { s with tokens := t :: s.tokens, count := s.count + 1 }

/-- Adds a token behind the first `before` tokens. -/
def emitAt (s : Scanner) (before : Nat) (t : Token) : Scanner :=
  { s with tokens := s.tokens.insertIdx (s.count - before) t, count := s.count + 1 }

/-- Moves on to what is behind a piece. -/
def behind {α : Type} (s : Scanner) (piece : Piece α) : Scanner :=
  { s with rest := piece.rest, position := piece.position }

/-- Passes over `n` characters of the line. -/
def skip (s : Scanner) (n : Nat) : Scanner :=
  { s with rest := s.rest.drop n, position := s.position.right n }

/-- A failure here. -/
def fail {α : Type} (s : Scanner) (problem : String) : Except SyntaxError α :=
  failAt s.position problem

/-- Whether a key can no longer begin at `k`. -/
def isStale (s : Scanner) (k : PossibleKey) : Bool :=
  decide (k.position.line < s.position.line ∨ k.position.index + 1024 < s.position.index)

/-- The place of a possible key on the innermost level. -/
def possibleKey (s : Scanner) : Option PossibleKey :=
  match s.flowKeys with
  | [] => s.blockKey
  | k :: _ => k.filter (fun k => !s.isStale k)

/-- Sets the place of a possible key on the innermost level. -/
def setPossibleKey (s : Scanner) (k : Option PossibleKey) : Scanner :=
  match s.flowKeys with
  | [] => { s with blockKey := k }
  | _ :: outer => { s with flowKeys := k :: outer }

/-- Gives up the place of a possible key on the innermost level. -/
def dropKey (s : Scanner) : Except SyntaxError Scanner :=
  if s.possibleKey.any (·.required) then s.fail "could not find expected ':'"
  else .ok (s.setPossibleKey none)

/-- Remembers this place as that of a possible key, where one may begin. -/
def saveKey (s : Scanner) : Except SyntaxError Scanner :=
  if s.keyAllowed then do
    let required := !s.inFlow && s.indent == (s.position.column : Int)
    let s' ← s.dropKey
    return s'.setPossibleKey (some ⟨s.count, s.position, required⟩)
  else .ok s

/-- Gives up the place of a possible key outside of flow collections if it is too
far back. Those inside are looked at when they are needed. -/
def dropStaleKey (s : Scanner) : Except SyntaxError Scanner :=
  match s.blockKey with
  | none => .ok s
  | some k =>
    if s.isStale k then
      if k.required then s.fail "could not find expected ':'" else .ok { s with blockKey := none }
    else .ok s

/-- Opens a block collection at a column deeper than the one around; its token
goes behind the first `before` tokens, or to the end. -/
def openBlock (s : Scanner) (column : Nat) (before : Option Nat) (t : Token) : Scanner :=
  if !s.inFlow && decide (s.indent < (column : Int)) then
    let s' := { s with indent := (column : Int), outerIndents := s.indent :: s.outerIndents }
    match before with
    | none => s'.emit t
    | some n => s'.emitAt n t
  else s

/-- Closes the block collections that are deeper than a column, given the
columns of those around. -/
def closeBlocksFrom (column : Int) (outer : List Int) (s : Scanner) : Scanner :=
  match outer with
  | [] => { s with outerIndents := [] }
  | next :: further =>
    if column < s.indent then
      closeBlocksFrom column further { s.emit .blockEnd with indent := next }
    else { s with outerIndents := next :: further }

/-- Closes the block collections that are deeper than a column. -/
def closeBlocks (s : Scanner) (column : Int) : Scanner :=
  if s.inFlow then s else closeBlocksFrom column s.outerIndents s

/-- Passes over spaces, comments and line breaks. Tabs are spaces only where they
cannot be taken for indentation, and in a block a key may begin on each new line. -/
def skipGapFrom (inFlow inComment keyAllowed : Bool) (p : Position) :
    List Char → Piece Bool
  | [] => ⟨keyAllowed, [], p⟩
  | '\r' :: '\n' :: rest =>
    skipGapFrom inFlow false (keyAllowed || !inFlow) (p.nextLine 2) rest
  | c :: rest =>
    if isBreak c then
      skipGapFrom inFlow false (keyAllowed || !inFlow) (p.nextLine c.utf8Size) rest
    else if inComment then skipGapFrom inFlow true keyAllowed (p.past c) rest
    else if c = byteOrderMark ∧ p.column = 0 then
      skipGapFrom inFlow false keyAllowed (p.past c) rest
    else if c = ' ' ∨ (c = '\t' ∧ (inFlow ∨ !keyAllowed)) then
      skipGapFrom inFlow false keyAllowed (p.right 1) rest
    else if c = '#' then skipGapFrom inFlow true keyAllowed (p.right 1) rest
    else ⟨keyAllowed, c :: rest, p⟩

/-- Passes over what stands before the next token. -/
def skipGap (s : Scanner) : Scanner :=
  let gap := skipGapFrom s.inFlow false s.keyAllowed s.position s.rest
  { s.behind gap with keyAllowed := gap.value }

/-- Reads the end of the text, which ends the line too. -/
def fetchEnd (s : Scanner) : Except SyntaxError Scanner := do
  let s := if s.position.column = 0 then s else { s with position := s.position.nextLine 0 }
  let s ← (s.closeBlocks (-1)).dropKey
  return { s with keyAllowed := false }.emit .streamEnd

/-- Reads a directive. -/
def fetchDirective (s : Scanner) : Except SyntaxError Scanner := do
  let s ← (s.closeBlocks (-1)).dropKey
  let directive ← scanDirective (s.position.right 1) (s.rest.drop 1)
  return ({ s with keyAllowed := false }.behind directive).emit directive.value

/-- Reads a document marker. -/
def fetchMarker (s : Scanner) (t : Token) : Except SyntaxError Scanner := do
  let s ← (s.closeBlocks (-1)).dropKey
  return ({ s with keyAllowed := false }.skip 3).emit t

/-- Reads the start of a flow collection, which may be a key as a whole. -/
def fetchFlowStart (s : Scanner) (t : Token) : Except SyntaxError Scanner := do
  let s ← s.saveKey
  return ({ s with flowKeys := none :: s.flowKeys, keyAllowed := true }.skip 1).emit t

/-- Reads the end of a flow collection. -/
def fetchFlowEnd (s : Scanner) (t : Token) : Except SyntaxError Scanner := do
  let s ← s.dropKey
  return ({ s with flowKeys := s.flowKeys.drop 1, keyAllowed := false }.skip 1).emit t

/-- Reads a comma. -/
def fetchFlowEntry (s : Scanner) : Except SyntaxError Scanner := do
  let s ← s.dropKey
  return ({ s with keyAllowed := true }.skip 1).emit .flowEntry

/-- Reads the dash of an item. -/
def fetchBlockEntry (s : Scanner) : Except SyntaxError Scanner := do
  if !s.inFlow && !s.keyAllowed then
    s.fail "block sequence entries are not allowed in this context"
  else
    let s ← (s.openBlock s.position.column none .blockSequenceStart).dropKey
    return ({ s with keyAllowed := true }.skip 1).emit .blockEntry

/-- Reads the question mark of a key. -/
def fetchKey (s : Scanner) : Except SyntaxError Scanner := do
  if !s.inFlow && !s.keyAllowed then
    s.fail "mapping keys are not allowed in this context"
  else
    let s ← (s.openBlock s.position.column none .blockMappingStart).dropKey
    return ({ s with keyAllowed := !s.inFlow }.skip 1).emit .key

/-- Reads a colon. If a key may have begun before, that is where it began. -/
def fetchValue (s : Scanner) : Except SyntaxError Scanner :=
  match s.possibleKey with
  | some place =>
    let s := (s.emitAt place.before .key).openBlock place.position.column (some place.before)
      .blockMappingStart
    .ok (({ s.setPossibleKey none with keyAllowed := false }.skip 1).emit .value)
  | none =>
    if !s.inFlow && !s.keyAllowed then
      s.fail "mapping values are not allowed in this context"
    else
      let s := s.openBlock s.position.column none .blockMappingStart
      .ok (({ s with keyAllowed := !s.inFlow }.skip 1).emit .value)

/-- Whether an anchor's name may end before `rest`. -/
def endsAnchor (rest : List Char) : Bool :=
  endsWord rest || rest.head?.any (fun c => "?:,]\x7d%@`".toList.contains c)

/-- Reads an anchor or alias. -/
def fetchAnchor (s : Scanner) (token : String → Token) : Except SyntaxError Scanner := do
  let s ← s.saveKey
  let name := takeRun isNameChar (s.position.right 1) (s.rest.drop 1)
  if name.value.isEmpty || !endsAnchor name.rest then
    failAt name.position "did not find expected alphabetic or numeric character"
  else
    return ({ s with keyAllowed := false }.behind name).emit (token (String.ofList name.value))

/-- Reads a tag. -/
def fetchTag (s : Scanner) : Except SyntaxError Scanner := do
  let s ← s.saveKey
  let tag ← scanTag s.inFlow s.position s.rest
  return ({ s with keyAllowed := false }.behind tag).emit
    (.tag (String.ofList tag.value.handle) tag.value.suffix)

/-- Reads a block scalar. -/
def fetchBlockScalar (s : Scanner) (folds : Bool) : Except SyntaxError Scanner := do
  let s ← s.dropKey
  let text ← scanBlock folds s.indent (s.position.right 1) (s.rest.drop 1)
  return ({ s with keyAllowed := true }.behind text).emit (.scalar (String.ofList text.value) false)

/-- Reads a quoted scalar. -/
def fetchQuoted (s : Scanner) (double : Bool) : Except SyntaxError Scanner := do
  let s ← s.saveKey
  let text ← scanQuoted double (s.position.right 1) (s.rest.drop 1)
  return ({ s with keyAllowed := false }.behind text).emit (.scalar (String.ofList text.value) false)

/-- Reads a plain scalar. Behind a line break a key may begin again. -/
def fetchPlain (s : Scanner) : Except SyntaxError Scanner := do
  let s ← s.saveKey
  let plain ← scanPlain ⟨s.inFlow, (s.indent + 1).toNat⟩ s.position s.rest
  return ({ s with keyAllowed := plain.value.endsOnNewLine }.behind plain).emit
    (.scalar (String.ofList plain.value.text) true)

/-- Characters that cannot start a plain scalar on their own. -/
def indicators : List Char := "-?:,[]\x7b\x7d#&*!|>'\"%@`".toList

/-- Whether a plain scalar may start with the text. -/
def startsPlain (inFlow : Bool) : List Char → Bool
  | [] => false
  | c :: rest =>
    (!isSpace c && !isBreak c && !indicators.contains c)
      || (c == '-' && !(rest.head?.any isSpace))
      || (!inFlow && (c == '?' || c == ':') && !endsWord rest)

/-- Reads the token that starts here. -/
def fetchHere (s : Scanner) : Except SyntaxError Scanner :=
  match s.rest with
  | [] => s.fetchEnd
  | c :: rest =>
    if s.position.column = 0 ∧ c = '%' then s.fetchDirective
    else if s.position.column = 0 ∧ startsDocument s.rest then s.fetchMarker .documentStart
    else if s.position.column = 0 ∧ endsDocument s.rest then s.fetchMarker .documentEnd
    else if c = '[' then s.fetchFlowStart .flowSequenceStart
    else if c = Char.ofNat 0x7B then s.fetchFlowStart .flowMappingStart
    else if c = ']' then s.fetchFlowEnd .flowSequenceEnd
    else if c = Char.ofNat 0x7D then s.fetchFlowEnd .flowMappingEnd
    else if c = ',' then s.fetchFlowEntry
    else if c = '-' ∧ endsWord rest then s.fetchBlockEntry
    else if c = '?' ∧ (s.inFlow ∨ endsWord rest) then s.fetchKey
    else if c = ':' ∧ (s.inFlow ∨ endsWord rest) then s.fetchValue
    else if c = '*' then s.fetchAnchor .alias
    else if c = '&' then s.fetchAnchor .anchor
    else if c = '!' then s.fetchTag
    else if c = '|' ∧ !s.inFlow then s.fetchBlockScalar false
    else if c = '>' ∧ !s.inFlow then s.fetchBlockScalar true
    else if c = '\'' then s.fetchQuoted false
    else if c = '"' then s.fetchQuoted true
    else if startsPlain s.inFlow s.rest then s.fetchPlain
    else s.fail "found character that cannot start any token"

/-- The error where a stretch has a forbidden character. -/
def forbidden : SyntaxError := ⟨"control characters are not allowed", none⟩

/-- Fails if the text has to be read beyond the stretches without forbidden
characters to get to the place `index`. -/
def requireUpTo (s : Scanner) (index : Nat) : Except SyntaxError Unit :=
  if s.limit.any (· < index) then .error forbidden else .ok ()

/-- How many characters are looked at to tell which token begins. -/
def lookahead : Nat := 4

/-- Passes over what stands before the next token and reads it, with the block
collections that end before it. The place of a possible key may be given up in
front of the token and behind it. -/
def fetch (s : Scanner) : Except SyntaxError Scanner := do
  let s ← s.skipGap.dropStaleKey
  let s := s.closeBlocks s.position.column
  s.requireUpTo ((s.rest.take lookahead).foldl Position.past s.position).index
  let s ← s.fetchHere
  s.requireUpTo s.position.index
  s.dropStaleKey

/-- The places where keys may have begun. -/
def possibleKeys (s : Scanner) : List PossibleKey :=
  ((s.blockKey :: s.flowKeys).filterMap id).filter (fun k => !s.isStale k)

/-- How many of the tokens so far nothing to come can change: those before the
first place where a key may have begun. -/
def settledCount (s : Scanner) : Nat :=
  s.possibleKeys.foldl (fun n k => min n k.before) s.count

/-- The tokens so far that nothing to come can change. -/
def settled (s : Scanner) : List Token := s.tokens.reverse.take s.settledCount

end Scanner

/-- The tokens of a text, and why there are no more, unless the text ends. -/
structure TokenStream where
  tokens : List Token
  stop : SyntaxError := ⟨"unexpected end", none⟩
  deriving DecidableEq, Repr

/-- Reads tokens until the end or an error, at most `fuel` times. -/
def fetchAll : Nat → Scanner → TokenStream
  | 0, s => ⟨s.settled, ⟨"did not reach the end", some s.position⟩⟩
  | fuel + 1, s =>
    match s.fetch with
    | .error e => ⟨s.settled, e⟩
    | .ok s' =>
      if s'.tokens.head? = some .streamEnd then { tokens := s'.tokens.reverse }
      else fetchAll fuel s'

/-- How many bytes are looked through at a time. -/
def stretchSize : Nat := 16384

/-- Where the first stretch with a forbidden character begins, of a text that
begins at `index` in the stretch that begins at `start`. -/
def forbiddenStretch? (start index : Nat) : List Char → Option Nat
  | [] => none
  | c :: rest =>
    let next := index + c.utf8Size
    let start := if start + stretchSize < next then index else start
    if isAllowed c then forbiddenStretch? start next rest else some start

/-- The tokens of a text. Each reading takes at least one character, and the last
finds the end. -/
def tokens (text : List Char) : TokenStream :=
  fetchAll (text.length + 1) { rest := text, limit := forbiddenStretch? 0 0 text }

end Yaml

end NetProfile
