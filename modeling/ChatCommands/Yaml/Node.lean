import ChatCommands.Yaml.Token

/-!
# YAML values

The value that a document holds, without any meaning of its scalars.
-/

namespace ChatCommands.Yaml

/-- A value.  Plain scalars are told from quoted ones, since only they can stand
for anything but a text. -/
inductive Node where
  | scalar (plain : Bool) (text : String)
  | sequence (items : List Node)
  | mapping (entries : List (Node × Node))

namespace Node

/-- What stands where nothing is written. -/
def empty : Node :=
  .scalar true ""

/-- Whether a token ends a place where a value may be missing. -/
def isAbsentAt (ends : List Token) (tokens : List Token) : Bool :=
  tokens.head?.all ends.contains

mutual

/-- A value.  In a block, it may be a block itself, and as the value of a key also
a sequence whose dashes stand right below the key. -/
def ofTokens (block belowKey : Bool) : Nat → List Token → Option (Node × List Token)
  | 0, _ => none
  | fuel + 1, tokens =>
    match tokens with
    | .scalar plain text :: rest => some (.scalar plain text, rest)
    | .openSequence :: rest =>
      (flowItems true fuel rest).map fun (items, rest) => (.sequence items, rest)
    | .openMapping :: rest =>
      (flowEntries true fuel rest).map fun (entries, rest) => (.mapping entries, rest)
    | .blockSequence :: rest =>
      if block then (blockItems fuel rest).map fun (items, rest) => (.sequence items, rest)
      else none
    | .blockMapping :: rest =>
      if block then (blockEntries fuel rest).map fun (entries, rest) => (.mapping entries, rest)
      else none
    | .entry :: _ =>
      if belowKey then (bareItems fuel tokens).map fun (items, rest) => (.sequence items, rest)
      else none
    | _ => none

/-- A value that is missing before any of some tokens. -/
def ofTokensBefore (ends : List Token) (block belowKey : Bool) :
    Nat → List Token → Option (Node × List Token)
  | 0, _ => none
  | fuel + 1, tokens =>
    if isAbsentAt ends tokens then some (empty, tokens) else ofTokens block belowKey fuel tokens

/-- The items of a block sequence up to its end. -/
def blockItems : Nat → List Token → Option (List Node × List Token)
  | 0, _ => none
  | fuel + 1, tokens =>
    match tokens with
    | .entry :: rest => do
      let (item, rest) ← ofTokensBefore [.entry, .blockEnd] true false fuel rest
      let (items, rest) ← blockItems fuel rest
      return (item :: items, rest)
    | .blockEnd :: rest => some ([], rest)
    | _ => none

/-- The items of a sequence that no block encloses. -/
def bareItems : Nat → List Token → Option (List Node × List Token)
  | 0, _ => none
  | fuel + 1, tokens =>
    match tokens with
    | .entry :: rest => do
      let (item, rest) ← ofTokensBefore [.entry, .key, .value, .blockEnd] true false fuel rest
      let (items, rest) ← bareItems fuel rest
      return (item :: items, rest)
    | _ => some ([], tokens)

/-- The entries of a block mapping up to its end. -/
def blockEntries : Nat → List Token → Option (List (Node × Node) × List Token)
  | 0, _ => none
  | fuel + 1, tokens =>
    match tokens with
    | .blockEnd :: rest => some ([], rest)
    | .key :: rest => do
      let (key, rest) ← ofTokensBefore [.key, .value, .blockEnd] true true fuel rest
      let (value, rest) ← blockValue fuel rest
      let (entries, rest) ← blockEntries fuel rest
      return ((key, value) :: entries, rest)
    | _ => none

/-- The value of a key in a block mapping. -/
def blockValue : Nat → List Token → Option (Node × List Token)
  | 0, _ => none
  | fuel + 1, tokens =>
    match tokens with
    | .value :: rest => ofTokensBefore [.key, .value, .blockEnd] true true fuel rest
    | _ => some (empty, tokens)

/-- The items of a flow sequence up to its end.  An item with a key is a mapping
of one entry. -/
def flowItems (first : Bool) : Nat → List Token → Option (List Node × List Token)
  | 0, _ => none
  | fuel + 1, tokens =>
    match tokens, first with
    | .closeSequence :: rest, _ => some ([], rest)
    | .comma :: rest, false => flowItem fuel rest
    | _, true => flowItem fuel tokens
    | _, false => none

/-- An item of a flow sequence, if there is one, and those behind it. -/
def flowItem : Nat → List Token → Option (List Node × List Token)
  | 0, _ => none
  | fuel + 1, tokens =>
    match tokens with
    | .closeSequence :: rest => some ([], rest)
    | .key :: rest => do
      let (key, rest) ←
        ofTokensBefore [.value, .comma, .closeSequence] false false fuel rest
      let (value, rest) ← flowValue .closeSequence fuel rest
      let (items, rest) ← flowItems false fuel rest
      return (.mapping [(key, value)] :: items, rest)
    | _ => do
      let (item, rest) ← ofTokens false false fuel tokens
      let (items, rest) ← flowItems false fuel rest
      return (item :: items, rest)

/-- The value of a key in a flow collection that ends with a token. -/
def flowValue (close : Token) : Nat → List Token → Option (Node × List Token)
  | 0, _ => none
  | fuel + 1, tokens =>
    match tokens with
    | .value :: rest => ofTokensBefore [.comma, close] false false fuel rest
    | _ => some (empty, tokens)

/-- The entries of a flow mapping up to its end. -/
def flowEntries (first : Bool) : Nat → List Token → Option (List (Node × Node) × List Token)
  | 0, _ => none
  | fuel + 1, tokens =>
    match tokens, first with
    | .closeMapping :: rest, _ => some ([], rest)
    | .comma :: rest, false => flowEntry fuel rest
    | _, true => flowEntry fuel tokens
    | _, false => none

/-- An entry of a flow mapping, if there is one, and those behind it. -/
def flowEntry : Nat → List Token → Option (List (Node × Node) × List Token)
  | 0, _ => none
  | fuel + 1, tokens =>
    match tokens with
    | .closeMapping :: rest => some ([], rest)
    | .key :: rest => do
      let (key, rest) ←
        ofTokensBefore [.value, .comma, .closeMapping] false false fuel rest
      let (value, rest) ← flowValue .closeMapping fuel rest
      let (entries, rest) ← flowEntries false fuel rest
      return ((key, value) :: entries, rest)
    | _ => do
      let (key, rest) ← ofTokens false false fuel tokens
      let (entries, rest) ← flowEntries false fuel rest
      return ((key, empty) :: entries, rest)

end

/-- The value between the marks of a document.  There is one document at most. -/
def ofDocument? (tokens : List Token) : Option Node := do
  let fuel := 4 * tokens.length + 4
  let (node, rest) ← match tokens with
    | [] => some (empty, [])
    | .documentStart :: rest => ofTokensBefore [.documentStart, .documentEnd] true false fuel rest
    | _ => ofTokens true false fuel tokens
  if rest.all (· == .documentEnd) then return node else none

/-- The value of a document. -/
def ofText? (s : String) : Option Node :=
  (Token.ofText? s).bind ofDocument?

end Node

end ChatCommands.Yaml
