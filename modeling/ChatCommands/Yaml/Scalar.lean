import ChatCommands.Number.Numeral
import ChatCommands.Yaml.Cursor

/-!
# Scalars of a YAML document

The four ways of writing a text: plain, in single or double quotes, and as a
block of lines.  A single line break within a text becomes a space; further
line breaks are kept.
-/

namespace ChatCommands.Yaml

/-! ## Gaps between words -/

/-- The blanks between two words: spaces and tabs on one line, or line breaks, of
which the first is apart. -/
structure Gap where
  blanks : List Char := []
  breaks : Option (List Char × List Char) := none

namespace Gap

/-- The characters that a gap stands for. -/
def fold (g : Gap) : List Char :=
  match g.breaks with
  | none => g.blanks
  | some (first, more) =>
    if first == ['\n'] then (if more.isEmpty then [' '] else more) else first ++ more

/-- Adds a space or a tab, which counts only before the line breaks. -/
def addBlank (g : Gap) (c : Char) : Gap :=
  if g.breaks.isNone then { g with blanks := g.blanks ++ [c] } else g

/-- Adds a line break. -/
def addBreak (g : Gap) (b : List Char) : Gap :=
  match g.breaks with
  | none => ⟨[], some (b, [])⟩
  | some (first, more) => { g with breaks := some (first, more ++ b) }

end Gap

/-- Reads on in a gap.  On later lines no tab may stand before column `floor`. -/
def readGap (floor : Nat) : Nat → Gap → Cursor → Option (Gap × Cursor)
  | 0, g, c => some (g, c)
  | fuel + 1, g, c =>
    match c.next with
    | none => some (g, c)
    | some x =>
      if x == '\t' && g.breaks.isSome && c.column < floor then none
      else if isGap x then readGap floor fuel (g.addBlank x) (c.skip 1)
      else if isBreak x then
        let (b, c) := c.takeBreak
        readGap floor fuel (g.addBreak b) c
      else some (g, c)

/-! ## Plain scalars -/

/-- Whether a character belongs to the notation of flow collections. -/
def isFlowMark (c : Char) : Bool :=
  c == ',' || c == '[' || c == ']' || c == '{' || c == '}'

/-- Number of characters of a word of a plain scalar.  A colon right before a
mark of a flow collection is an error there. -/
def plainWord (inFlow : Bool) : List Char → Option Nat
  | [] => some 0
  | c :: rest =>
    if endsWord (some c) then some 0
    else if inFlow && c == ':' && rest.head?.any (fun x => isFlowMark x || x == '?') then none
    else if (c == ':' && endsWord rest.head?) || (inFlow && isFlowMark c) then some 0
    else (plainWord inFlow rest).map (· + 1)

/-- The words of a plain scalar behind a gap.  The result says whether the scalar
is followed by a line break. -/
def readPlain (inFlow : Bool) (indent : Nat) :
    Nat → Gap → Cursor → Option (List Char × Bool × Cursor)
  | 0, _, _ => none
  | fuel + 1, g, c => do
    let stop := some ([], g.breaks.isSome, c)
    if c.atBoundary || c.next == some '#' then stop
    else
      let count ← plainWord inFlow c.rest
      let word := c.rest.take count
      let after := c.skip count
      let (text, g) := if count = 0 then ([], g) else (g.fold ++ word, {})
      let (g, after) ← readGap indent fuel g after
      if after.index = c.index + count || (!inFlow && after.column < indent) then
        return (text, g.breaks.isSome, after)
      let (more, broken, c) ← readPlain inFlow indent fuel g after
      return (text ++ more, broken, c)

/-! ## Quoted scalars -/

/-- The character of a number of hexadecimal digits. -/
def readCode? (count : Nat) (cs : List Char) : Option Char :=
  let digits := cs.take count
  if digits.length < count then none
  else do
    let code ← Numeral.readIn? 16 digits
    if code < 0xd800 || (0xdfff < code && code ≤ 0x10ffff) then return Char.ofNat code else none

/-- The character behind a backslash and how many characters it takes. -/
def readEscape? : List Char → Option (Char × Nat)
  | '0' :: _ => some (Char.ofNat 0, 1)
  | 'a' :: _ => some (Char.ofNat 7, 1)
  | 'b' :: _ => some (Char.ofNat 8, 1)
  | 't' :: _ | '\t' :: _ => some ('\t', 1)
  | 'n' :: _ => some ('\n', 1)
  | 'v' :: _ => some (Char.ofNat 11, 1)
  | 'f' :: _ => some (Char.ofNat 12, 1)
  | 'r' :: _ => some ('\r', 1)
  | 'e' :: _ => some (Char.ofNat 27, 1)
  | ' ' :: _ => some (' ', 1)
  | '"' :: _ => some ('"', 1)
  | '/' :: _ => some ('/', 1)
  | '\\' :: _ => some ('\\', 1)
  | 'N' :: _ => some (Char.ofNat 0x85, 1)
  | '_' :: _ => some (Char.ofNat 0xa0, 1)
  | 'L' :: _ => some (Char.ofNat 0x2028, 1)
  | 'P' :: _ => some (Char.ofNat 0x2029, 1)
  | 'x' :: rest => (readCode? 2 rest).map (·, 3)
  | 'u' :: rest => (readCode? 4 rest).map (·, 5)
  | 'U' :: rest => (readCode? 8 rest).map (·, 9)
  | _ => none

/-- What comes next in a quoted scalar. -/
inductive QuotedPart where
  | char (c : Char) (count : Nat)
  /-- A line break that a backslash takes away. -/
  | hiddenBreak
  | close
  | gap

/-- The next part of a quoted scalar. -/
def quotedPart? (quote : Char) : List Char → Option QuotedPart
  | [] => none
  | c :: rest =>
    if c == quote then
      if quote == '\'' && rest.head? == some quote then some (.char quote 2) else some .close
    else if endsWord (some c) then some .gap
    else if quote == '"' && c == '\\' then
      if rest.head?.any isBreak then some .hiddenBreak
      else (readEscape? rest).map fun (c, count) => .char c (count + 1)
    else some (.char c 1)

/-- The rest of a quoted scalar, up to and with its closing quote. -/
def readQuoted (quote : Char) : Nat → Cursor → Option (List Char × Cursor)
  | 0, _ => none
  | fuel + 1, c =>
    if c.atBoundary then none
    else
      match quotedPart? quote c.rest with
      | none => none
      | some .close => some ([], c.skip 1)
      | some (.char x count) =>
        (readQuoted quote fuel (c.skip count)).map fun (text, c) => (x :: text, c)
      | some .hiddenBreak => do
        let (g, c) ← readGap 0 fuel { breaks := some ([], []) } (c.skip 1).takeBreak.2
        let (text, c) ← readQuoted quote fuel c
        return (g.fold ++ text, c)
      | some .gap => do
        let (g, c) ← readGap 0 fuel {} c
        let (text, c) ← readQuoted quote fuel c
        return (g.fold ++ text, c)

/-! ## Block scalars -/

/-- What becomes of the line breaks at the end of a block. -/
inductive Chomping where
  | strip
  | clip
  | keep

/-- The marks behind the indicator of a block scalar: the chomping and the number
of columns by which the block is indented. -/
structure BlockHeader where
  chomping : Chomping := .clip
  indent : Option Nat := none

/-- The chomping that a character stands for. -/
def chomping? : Option Char → Option Chomping
  | some '+' => some .keep
  | some '-' => some .strip
  | _ => none

/-- The digit at the cursor, if there is one. -/
def digit? (c : Cursor) : Option Nat :=
  (c.next.filter Char.isDigit).map fun d => d.toNat - '0'.toNat

/-- The marks of a block scalar, which come in any order. -/
def readHeader (c : Cursor) : Option (BlockHeader × Cursor) :=
  let (header, c) : BlockHeader × Cursor :=
    match chomping? c.next, digit? c with
    | some chomping, _ =>
      let c := c.skip 1
      match digit? c with
      | some n => (⟨chomping, some n⟩, c.skip 1)
      | none => (⟨chomping, none⟩, c)
    | none, some n =>
      let c := c.skip 1
      match chomping? c.next with
      | some chomping => (⟨chomping, some n⟩, c.skip 1)
      | none => ({ indent := some n }, c)
    | none, none => ({}, c)
  if header.indent == some 0 then none else some (header, c)

/-- Reads on through lines that hold no text.  The indentation of the block is
given or still open; the result holds the line breaks and the greatest column
that was reached. -/
def readEmptyLines (indent : Option Nat) :
    Nat → Nat → Cursor → Option (List Char × Nat × Cursor)
  | 0, reached, c => some ([], reached, c)
  | fuel + 1, reached, c =>
    let inside (column : Nat) := indent.any (· ≤ column)
    let room := (indent.map (· - c.column)).getD c.rest.length
    let c := c.skip (((c.rest.take room).takeWhile (· == ' ')).length)
    let reached := max reached c.column
    if c.next == some '\t' && !inside c.column then none
    else if c.next.any isBreak then
      let (b, c) := c.takeBreak
      (readEmptyLines indent fuel reached c).map fun (more, reached, c) => (b ++ more, reached, c)
    else some ([], reached, c)

/-- The rest of a block scalar.  `pending` is the break behind the last line, and
`blankBefore` says whether that line started with a blank. -/
def readLines (folded : Bool) (indent : Nat) (chomping : Chomping) :
    Nat → (pending empty : List Char) → (blankBefore : Bool) → Cursor →
    Option (List Char × Cursor)
  | 0, _, _, _, _ => none
  | fuel + 1, pending, empty, blankBefore, c =>
    if c.column == indent && c.next.isSome then do
      let blank := c.next.any isGap
      let joined :=
        if folded && pending == ['\n'] && !blankBefore && !blank then
          if empty.isEmpty then [' '] else empty
        else pending ++ empty
      let line := c.rest.takeWhile (!isBreak ·)
      let (b, c) := (c.skip line.length).takeBreak
      let (empty, _, c) ← readEmptyLines (some indent) fuel 0 c
      let (text, c) ← readLines folded indent chomping fuel b empty blank c
      return (joined ++ line ++ text, c)
    else
      some (match chomping with
        | .strip => []
        | .clip => pending
        | .keep => pending ++ empty, c)

/-- A block scalar behind its indicator, in a block that is indented by `parent`
columns, or in none. -/
def readBlock (folded : Bool) (parent : Option Nat) (c : Cursor) : Option (List Char × Cursor) := do
  let (header, c) ← readHeader c
  let c := c.skipGap.skipComment
  if !endsWord c.next then none
  let fuel := c.rest.length + 1
  let c := c.takeBreak.2
  let floor := (parent.map (· + 1)).getD 0
  let given := header.indent.map fun n => parent.getD 0 + n
  let (empty, reached, c) ← readEmptyLines given fuel 0 c
  let indent := given.getD (max 1 (max floor reached))
  readLines folded indent header.chomping fuel [] empty false c

end ChatCommands.Yaml
