import ChatCommands.Diagnostic.Violation
import ChatCommands.Dict
import ChatCommands.Text.Blank
import ChatCommands.Text.Case

/-!
# Declaration strings

The three little languages in which flags, choices and conditions are declared:
`key=value,key2`, `label=value,label2` and `name:config|name2`.  Blank entries
are skipped everywhere.
-/

namespace ChatCommands

/-- A choice, shown under its label and standing for its value. -/
structure Choice where
  label : String
  value : String
deriving DecidableEq

/-- Whether a choice goes by the given text, which is its label or its value in
any case. -/
def Choice.answersTo (choice : Choice) (text : String) : Bool :=
  Text.caselessEq choice.label text || Text.caselessEq choice.value text

/-- A condition that a parameter names, with the text handed to it. -/
structure ConditionUse where
  name : String
  config : Option String
deriving DecidableEq

namespace Declaration

/-- The entries of a declaration string without the blank ones. -/
def entries (separator : Char) (spec : String) : List String :=
  ((Text.splitOn separator spec).map Text.trim).filter (· != "")

/-- The trimmed parts of an entry around the first separator. -/
def parts (separator : Char) (entry : String) : String × Option String :=
  match Text.splitOnce separator entry with
  | some (before, after) => (Text.trim before, some (Text.trim after))
  | none => (entry, none)

/-- A flag: its key in lowercase and its value, which may be empty. -/
def readFlag (entry : String) : Except DeclarationFault (String × String) :=
  let (key, value) := parts '=' entry
  if key = "" then .error (.flagWithoutKey entry)
  else .ok (Text.asciiLower key, value.getD "")

/-- The flags of a declaration string, of which the last one for a key counts. -/
def readFlags (spec : String) : Except DeclarationFault (Dict String) :=
  ((entries ',' spec).mapM readFlag).map Dict.ofList

/-- A choice; an entry without a label is its own value. -/
def readChoice (entry : String) : Except DeclarationFault Choice :=
  let (label, value) := parts '=' entry
  let value := value.getD entry
  if label = "" ∨ value = "" then .error (.incompleteChoice entry)
  else .ok ⟨label, value⟩

/-- Adds a choice behind others, whose labels differ even without regard to
case. -/
def addChoice (choices : List Choice) (entry : String) :
    Except DeclarationFault (List Choice) := do
  let choice ← readChoice entry
  if choices.any fun other => Text.caselessEq other.label choice.label then
    throw (.repeatedChoice choice.label)
  return choices ++ [choice]

/-- The choices of a declaration string, in order. -/
def readChoices (spec : String) : Except DeclarationFault (List Choice) :=
  (entries ',' spec).foldlM addChoice []

/-- A condition: its name in lowercase and its configuration as it stands. -/
def readCondition (entry : String) : Except DeclarationFault ConditionUse :=
  let (name, config) := parts ':' entry
  if name = "" then .error (.namelessCondition entry)
  else .ok ⟨Text.asciiLower name, config⟩

/-- The conditions of a declaration string, in order. -/
def readConditions (spec : String) : Except DeclarationFault (List ConditionUse) :=
  (entries '|' spec).mapM readCondition

end Declaration

end ChatCommands
