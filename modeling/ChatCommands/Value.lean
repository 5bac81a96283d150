import ChatCommands.Chat.Entity
import ChatCommands.Number.Decimal
import ChatCommands.Number.SizedInt

/-!
# Values of arguments

What a parameter is worth once its input has been resolved.
-/

namespace ChatCommands

/-- A resolved value.  An optional parameter without input is absent. -/
inductive Value where
  | absent
  | bool (b : Bool)
  | integer (width : Width) (n : SizedInt width)
  | float32 (x : Single)
  | float64 (x : Double)
  | decimal (d : Decimal)
  | string (s : String)
  | strings (items : List String)
  | enumMember (type member : String)
  | user (user : User)
  | member (member : Member)
  | channel (channel : Channel)
  | role (role : Role)
  | emoji (emoji : Emoji)
  | guild (guild : Guild)
  /-- A value of a type that only the application knows, here held as text. -/
  | custom (payload : String)

namespace Value

/-- Whether nothing was given. -/
def isAbsent : Value → Bool
  | absent => true
  | _ => false

/-- Equality of values.  Numbers are compared as numbers, and values of the
application are not known to be equal. -/
def same : Value → Value → Bool
  | absent, absent => true
  | bool a, bool b => a == b
  | integer v m, integer w n => v == w && m.val == n.val
  | float32 x, float32 y => x.numericEq y
  | float64 x, float64 y => x.numericEq y
  | decimal a, decimal b => a.numericEq b
  | string a, string b => a == b
  | strings a, strings b => a == b
  | enumMember t m, enumMember u n => t == u && m == n
  | user a, user b => a == b
  | member a, member b => a == b
  | channel a, channel b => a == b
  | role a, role b => a == b
  | emoji a, emoji b => a == b
  | guild a, guild b => a == b
  | _, _ => false

/-- The name of the kind of a value. -/
def kindName : Value → String
  | absent => "absent"
  | bool _ => "bool"
  | integer .w8 _ => "i8"
  | integer .w16 _ => "i16"
  | integer .w32 _ => "i32"
  | integer .w64 _ => "i64"
  | float32 _ => "f32"
  | float64 _ => "f64"
  | decimal _ => "decimal"
  | string _ => "string"
  | strings _ => "strings"
  | enumMember _ _ => "enum"
  | user _ => "user"
  | member _ => "member"
  | channel _ => "channel"
  | role _ => "role"
  | emoji _ => "emoji"
  | guild _ => "guild"
  | custom _ => "custom"

/-- An integer of any width. -/
def integer? : Value → Option Int
  | integer _ n => some n.val
  | _ => none

/-- A number of any kind but a decimal, as a double. -/
def double? : Value → Option Double
  | float32 x => some (x.convert .double)
  | float64 x => some x
  | integer _ n => some (.ofInt .double n.val)
  | _ => none

/-- A truth value. -/
def bool? : Value → Option Bool
  | bool b => some b
  | _ => none

/-- A text, or the member of an enumeration. -/
def string? : Value → Option String
  | string s => some s
  | enumMember _ name => some name
  | _ => none

/-- A list of texts. -/
def strings? : Value → Option (List String)
  | strings items => some items
  | _ => none

/-- A user, or the user behind a member. -/
def user? : Value → Option User
  | user u => some u
  | member m => some m.user
  | _ => none

/-- A member of a guild. -/
def member? : Value → Option Member
  | member m => some m
  | _ => none

/-- A channel. -/
def channel? : Value → Option Channel
  | channel c => some c
  | _ => none

/-- A role. -/
def role? : Value → Option Role
  | role r => some r
  | _ => none

/-- A value of the application. -/
def custom? : Value → Option String
  | custom payload => some payload
  | _ => none

end Value

/-- Values under the names of their parameters, in the order of declaration. -/
abbrev Arguments := List (String × Value)

namespace Arguments

/-- The value under a name. -/
def get? (args : Arguments) (name : String) : Option Value :=
  (args.find? (·.1 == name)).map (·.2)

/-- The value under a name, unless it is absent. -/
def present? (args : Arguments) (name : String) : Option Value :=
  (args.get? name).filter (!·.isAbsent)

/-- The names, in order. -/
def names (args : Arguments) : List String :=
  args.map (·.1)

/-- Equality of names and values, in order. -/
def same (a b : Arguments) : Bool :=
  a.length == b.length &&
    (a.zip b).all fun (x, y) => x.1 == y.1 && x.2.same y.2

end Arguments

end ChatCommands
