import ChatCommands.Chat.Entity
import ChatCommands.Text.Word

/-!
# Mentions

The forms in which messages mention entities: an identifier between angle
brackets behind a mark that tells the kind of entity.
-/

namespace ChatCommands.Mention

/-- Digits and a closing bracket, and nothing behind. -/
def closeId? (cs : List Char) : Option Snowflake :=
  match cs.span Char.isDigit with
  | (digits, ['>']) => if digits.isEmpty then none else Snowflake.read? digits
  | _ => none

/-- `<@id>` or `<@!id>`. -/
def user? (s : String) : Option Snowflake :=
  match s.toList with
  | '<' :: '@' :: '!' :: rest => closeId? rest
  | '<' :: '@' :: rest => closeId? rest
  | _ => none

/-- `<#id>`. -/
def channel? (s : String) : Option Snowflake :=
  match s.toList with
  | '<' :: '#' :: rest => closeId? rest
  | _ => none

/-- `<@&id>`. -/
def role? (s : String) : Option Snowflake :=
  match s.toList with
  | '<' :: '@' :: '&' :: rest => closeId? rest
  | _ => none

/-- A name between colons and then the identifier. -/
def namedId? (cs : List Char) : Option Snowflake :=
  match cs with
  | ':' :: rest =>
    match rest.span Text.isWordChar with
    | (name, ':' :: rest) => if name.isEmpty then none else closeId? rest
    | _ => none
  | _ => none

/-- `<:name:id>`, or `<a:name:id>` for an animated emoji. -/
def emoji? (s : String) : Option Snowflake :=
  match s.toList with
  | '<' :: 'a' :: rest => namedId? rest
  | '<' :: rest => namedId? rest
  | _ => none

end ChatCommands.Mention
