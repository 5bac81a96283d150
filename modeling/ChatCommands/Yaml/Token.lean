import ChatCommands.Yaml.Scalar

/-!
# Tokens of a YAML document

The marks and scalars of a document, together with the starts and ends of blocks,
which only the columns show.  A key is recognised by the colon behind it, so that
the tokens of its start are inserted before tokens that were read already.
-/

namespace ChatCommands.Yaml

/-- A token of a document. -/
inductive Token where
  | scalar (plain : Bool) (text : String)
  | blockSequence
  | blockMapping
  | blockEnd
  | entry
  | key
  | value
  | openSequence
  | closeSequence
  | openMapping
  | closeMapping
  | comma
  | documentStart
  | documentEnd
deriving DecidableEq

/-- A place where a key may have started. -/
structure KeyPlace where
  /-- Whether nothing else than a key can stand there. -/
  required : Bool
  /-- Number of tokens before it. -/
  position : Nat
  index : Nat
  line : Nat
  column : Nat

/-- The greatest number of characters of a key that is recognised by its colon. -/
def maxKeyLength : Nat := 1024

/-- The state of cutting a document into tokens. -/
structure Layout where
  cursor : Cursor
  /-- The tokens so far, the last one first. -/
  done : List Token := []
  /-- The columns of the blocks that are open, the innermost first. -/
  indents : List Nat := []
  /-- Whether a key may start here. -/
  keyAllowed : Bool := true
  /-- Where a key may have started, in the innermost flow collection or block. -/
  place : Option KeyPlace := none
  /-- The same for the collections around, of which there are as many as open
  flow collections. -/
  outerPlaces : List (Option KeyPlace) := []

namespace Layout

/-- Whether the cursor is within a flow collection. -/
def inFlow (l : Layout) : Bool :=
  !l.outerPlaces.isEmpty

/-- The least column of a continued plain scalar. -/
def nextIndent (l : Layout) : Nat :=
  (l.indents.head?.map (· + 1)).getD 0

/-- Adds a token. -/
def emit (l : Layout) (t : Token) : Layout :=
  { l with done := t :: l.done }

/-- Adds a token behind a number of others. -/
def emitAt (l : Layout) (position : Nat) (t : Token) : Layout :=
  let behind := l.done.length - position
  { l with done := l.done.take behind ++ t :: l.done.drop behind }

/-- Opens a block at a column that is further right than those of the open
blocks. -/
def openBlock (l : Layout) (column position : Nat) (t : Token) : Layout :=
  if l.inFlow || l.indents.head?.any (column ≤ ·) then l
  else { l.emitAt position t with indents := column :: l.indents }

/-- Closes the blocks that are further right than a column. -/
def closeBlocks (l : Layout) (column : Nat) : Layout :=
  if l.inFlow then l
  else
    let closed := l.indents.takeWhile (column < ·)
    { l with
      indents := l.indents.drop closed.length
      done := closed.map (fun _ => Token.blockEnd) ++ l.done }

/-- Closes all blocks. -/
def closeAll (l : Layout) : Layout :=
  if l.inFlow then l
  else { l with indents := [], done := l.indents.map (fun _ => Token.blockEnd) ++ l.done }

/-- Gives up a place where a key was possible; it must not be required there. -/
def dropPlace (l : Layout) : Option Layout :=
  if l.place.any (·.required) then none else some { l with place := none }

/-- Whether the cursor is too far behind a place for it to start a key. -/
def isStale (c : Cursor) (k : KeyPlace) : Bool :=
  k.line < c.line || k.index + maxKeyLength < c.index

/-- Gives up the places that are too far behind. -/
def dropStale (l : Layout) : Option Layout :=
  let stale := isStale l.cursor
  if (l.place :: l.outerPlaces).any fun k => k.any fun k => stale k && k.required then none
  else
    some { l with
      place := l.place.filter (!stale ·)
      outerPlaces := l.outerPlaces.map fun k => k.filter (!stale ·) }

/-- Takes note that a key may start here. -/
def markPlace (l : Layout) : Option Layout :=
  if l.keyAllowed then do
    let c := l.cursor
    let required := !l.inFlow && l.indents.head? == some c.column
    let l ← l.dropPlace
    return { l with place := some ⟨required, l.done.length, c.index, c.line, c.column⟩ }
  else some l

/-- Goes past a number of characters. -/
def skip (l : Layout) (count : Nat) : Layout :=
  { l with cursor := l.cursor.skip count }

/-- Says whether a key may come next. -/
def allowKey (l : Layout) (allowed : Bool) : Layout :=
  { l with keyAllowed := allowed }

/-- Goes past blanks, comments and line breaks up to the next token. -/
def skipBlanks : Nat → Layout → Layout
  | 0, l => l
  | fuel + 1, l =>
    let tabs := l.inFlow || !l.keyAllowed
    let c := (l.cursor.skipWhile fun x => x == ' ' || (tabs && x == '\t')).skipComment
    if c.next.any isBreak then
      skipBlanks fuel { l with cursor := c.takeBreak.2, keyAllowed := l.keyAllowed || !l.inFlow }
    else { l with cursor := c }

/-- A mark that opens a flow collection. -/
def openFlow (l : Layout) (t : Token) : Option Layout := do
  let l ← l.markPlace
  let inner := { l with place := none, outerPlaces := l.place :: l.outerPlaces }
  return ((inner.emit t).skip 1).allowKey true

/-- A mark that closes a flow collection. -/
def closeFlow (l : Layout) (t : Token) : Option Layout := do
  let l ← l.dropPlace
  let l := match l.outerPlaces with
    | place :: outer => { l with place, outerPlaces := outer }
    | [] => l
  return ((l.emit t).skip 1).allowKey false

/-- A comma of a flow collection. -/
def comma (l : Layout) : Option Layout := do
  return (((← l.dropPlace).emit .comma).skip 1).allowKey true

/-- The dash of an entry of a block sequence. -/
def entry (l : Layout) : Option Layout := do
  if !l.inFlow && !l.keyAllowed then none
  else
    let l ← (l.openBlock l.cursor.column l.done.length .blockSequence).dropPlace
    return ((l.emit .entry).skip 1).allowKey true

/-- A question mark before a key. -/
def key (l : Layout) : Option Layout := do
  if !l.inFlow && !l.keyAllowed then none
  else
    let l ← (l.openBlock l.cursor.column l.done.length .blockMapping).dropPlace
    return ((l.emit .key).skip 1).allowKey (!l.inFlow)

/-- A colon before a value. -/
def value (l : Layout) : Option Layout :=
  match l.place with
  | some k =>
    let l := (l.emitAt k.position .key).openBlock k.column k.position .blockMapping
    some ((({ l with place := none }.emit .value).skip 1).allowKey false)
  | none =>
    if !l.inFlow && !l.keyAllowed then none
    else
      let l := l.openBlock l.cursor.column l.done.length .blockMapping
      some (((l.emit .value).skip 1).allowKey (!l.inFlow))

/-- A mark before or behind a document. -/
def boundary (l : Layout) (t : Token) : Option Layout := do
  return (((← l.closeAll.dropPlace).emit t).skip 3).allowKey false

/-- A scalar that ends at a cursor. -/
def scalar (l : Layout) (plain : Bool) (text : List Char) (c : Cursor) : Layout :=
  { l.emit (.scalar plain (String.ofList text)) with cursor := c }

/-- A block scalar behind its indicator. -/
def blockScalar (l : Layout) (folded : Bool) : Option Layout := do
  let l ← l.dropPlace
  let (text, c) ← readBlock folded l.indents.head? (l.cursor.skip 1)
  return (l.scalar false text c).allowKey true

/-- A quoted scalar. -/
def quotedScalar (l : Layout) (quote : Char) : Option Layout := do
  let l ← l.markPlace
  let (text, c) ← readQuoted quote l.cursor.rest.length (l.cursor.skip 1)
  return (l.scalar false text c).allowKey false

/-- A plain scalar.  A key may come next if it is followed by a line break. -/
def plainScalar (l : Layout) : Option Layout := do
  let l ← l.markPlace
  let (text, broken, c) ←
    readPlain l.inFlow l.nextIndent (l.cursor.rest.length + 1) {} l.cursor
  return (l.scalar true text c).allowKey broken

/-- The characters that start no plain scalar. -/
def isIndicator (c : Char) : Bool :=
  "-?:,[]\x7b\x7d#&*!|>'\"%@\x60".toList.contains c

/-- Whether a plain scalar starts at the cursor. -/
def startsPlain (l : Layout) (c : Char) : Bool :=
  (!isIndicator c && !endsWord (some c)) || (c == '-' && !(l.cursor.ahead 1).any isGap) ||
    (!l.inFlow && (c == '?' || c == ':') && !endsWord (l.cursor.ahead 1))

/-- The token that starts with a character. -/
def token (l : Layout) (c : Char) : Option Layout :=
  let alone := endsWord (l.cursor.ahead 1)
  if l.cursor.column == 0 && c == '%' then none
  else if l.cursor.atMarker '-' then l.boundary .documentStart
  else if l.cursor.atMarker '.' then l.boundary .documentEnd
  else if c == '[' then l.openFlow .openSequence
  else if c == '{' then l.openFlow .openMapping
  else if c == ']' then l.closeFlow .closeSequence
  else if c == '}' then l.closeFlow .closeMapping
  else if c == ',' then l.comma
  else if c == '-' && alone then l.entry
  else if c == '?' && (l.inFlow || alone) then l.key
  else if c == ':' && (l.inFlow || alone) then l.value
  else if c == '|' && !l.inFlow then l.blockScalar false
  else if c == '>' && !l.inFlow then l.blockScalar true
  else if c == '\'' || c == '"' then l.quotedScalar c
  else if l.startsPlain c then l.plainScalar
  else none

/-- Cuts the rest of a document into tokens. -/
def tokens? : Nat → Layout → Option (List Token)
  | 0, _ => none
  | fuel + 1, l => do
    let l ← (l.skipBlanks l.cursor.rest.length.succ).dropStale
    match l.cursor.next with
    | some c =>
      let l ← (l.closeBlocks l.cursor.column).token c
      tokens? fuel l
    | none =>
      let l ← l.closeAll.dropPlace
      return l.done.reverse

end Layout

/-- The tokens of a document.  A byte order mark at its front is passed over, and the
text behind it starts in the second column. -/
def Token.ofText? (s : String) : Option (List Token) :=
  let start : Cursor := { rest := s.toList }
  let marked := start.next.any fun c => c.toNat == 0xfeff
  let layout : Layout := { cursor := if marked then start.skip 1 else start }
  if start.rest.all isAllowed then layout.tokens? (start.rest.length + 1) else none

end ChatCommands.Yaml
