import ChatCommands.Number.SizedInt
import ChatCommands.Text.Case

/-!
# Types of parameters

The declared types, their keywords, and the type of option under which the
platform shows each of them.
-/

namespace ChatCommands

/-- The declared type of a parameter.  A named type is an enumeration or a type
of the application. -/
inductive ParamType where
  | bool
  | integer (width : Width)
  | float32
  | float64
  | decimal
  | number
  | string
  | strings
  | user
  | member
  | channel
  | role
  | mentionable
  | emoji
  | guild
  | anyEnum
  | named (name : String)
deriving DecidableEq

namespace ParamType

/-- The type that a keyword stands for; an unknown keyword names a type. -/
def ofKeyword (keyword : String) : ParamType :=
  match Text.asciiLower keyword with
  | "bool" | "boolean" => bool
  | "i8" | "byte" => integer .w8
  | "i16" | "short" => integer .w16
  | "i32" | "int" | "integer" => integer .w32
  | "i64" | "long" => integer .w64
  | "f32" | "float" => float32
  | "f64" | "double" => float64
  | "decimal" | "bigdecimal" => decimal
  | "number" => number
  | "string" | "str" | "text" => string
  | "strings" | "string[]" => strings
  | "user" => user
  | "member" => member
  | "channel" => channel
  | "role" => role
  | "mentionable" => mentionable
  | "emoji" | "emote" => emoji
  | "guild" | "server" => guild
  | _ => named keyword

/-- The keyword by which messages call a type. -/
def keyword : ParamType → String
  | bool => "bool"
  | integer .w8 => "i8"
  | integer .w16 => "i16"
  | integer .w32 => "i32"
  | integer .w64 => "i64"
  | float32 => "f32"
  | float64 => "f64"
  | decimal => "decimal"
  | number => "number"
  | string => "string"
  | strings => "strings"
  | user => "user"
  | member => "member"
  | channel => "channel"
  | role => "role"
  | mentionable => "mentionable"
  | emoji => "emoji"
  | guild => "guild"
  | anyEnum => "enum"
  | named name => name

/-- Whether a type holds integers. -/
def isInteger : ParamType → Bool
  | integer _ => true
  | _ => false

/-- Whether a type holds numbers with places. -/
def isFractional : ParamType → Bool
  | float32 | float64 | decimal | number => true
  | _ => false

/-- Whether a type holds numbers. -/
def isNumeric (t : ParamType) : Bool :=
  t.isInteger || t.isFractional

/-- Whether a type holds entities that a user can point at. -/
def isEntity : ParamType → Bool
  | user | member | channel | role | mentionable | emoji => true
  | _ => false

/-- Whether a parameter of the type takes all input that is left. -/
def isVariadic : ParamType → Bool
  | strings => true
  | _ => false

end ParamType

/-- The types of options that the platform knows. -/
inductive OptionType where
  | string
  | long
  | decimal
  | boolean
  | user
  | channel
  | role
  | mentionable
deriving DecidableEq

namespace OptionType

/-- The name of an option type in published schemas. -/
def name : OptionType → String
  | string => "STRING"
  | long => "LONG"
  | decimal => "DECIMAL"
  | boolean => "BOOLEAN"
  | user => "USER"
  | channel => "CHANNEL"
  | role => "ROLE"
  | mentionable => "MENTIONABLE"

/-- Whether values of the type are numbers. -/
def isNumeric : OptionType → Bool
  | long | decimal => true
  | _ => false

end OptionType

/-- The option type under which a declared type is shown. -/
def ParamType.optionType : ParamType → OptionType
  | integer _ => .long
  | float32 | float64 | decimal | number => .decimal
  | bool => .boolean
  | user | member => .user
  | channel => .channel
  | role => .role
  | mentionable => .mentionable
  | _ => .string

end ChatCommands
