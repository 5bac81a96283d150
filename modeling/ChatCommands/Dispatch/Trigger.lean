import ChatCommands.Chat.Entity
import ChatCommands.Text.Word

/-!
# Triggers

What makes a message a command: one of the configured texts at its front, or a
mention of the bot.  Blanks before a trigger are passed over.
-/

namespace ChatCommands

/-- What marks messages as commands. -/
structure Triggers where
  texts : List String
  /-- The bot whose mention is a trigger too. -/
  mentioned : Option Snowflake := none

namespace Triggers

/-- The two ways of mentioning a user. -/
def mentionForms (id : Snowflake) : List String :=
  ["<@" ++ id.text ++ ">", "<@!" ++ id.text ++ ">"]

/-- What is left behind a text at the front. -/
def behind? (body : List Char) (text : String) : Option (String × List Char) :=
  (Text.dropLead text.toList body).map (text, ·)

/-- What is left behind a mention, which ends at a blank or with the message. -/
def behindMention? (body : List Char) (mention : String) : Option (String × List Char) :=
  (behind? body mention).filter fun (_, rest) => (rest.head?).all Text.isBlank

/-- The trigger at the front of a message without leading blanks, and what is
left behind it.  Mentions go before texts, and empty texts are no triggers. -/
def find? (t : Triggers) (body : List Char) : Option (String × List Char) :=
  ((t.mentioned.toList.flatMap mentionForms).findSome? (behindMention? body)).or <|
    (t.texts.filter (· != "")).findSome? (behind? body)

/-- How many bytes of a message come before its command, and the characters of
the command. -/
def strip? (t : Triggers) (raw : String) : Option (Nat × List Char) :=
  let (lead, body) := raw.toList.span Text.isBlank
  (t.find? body).map fun (trigger, rest) =>
    (Text.byteLength lead + Text.byteLength trigger.toList, rest)

end Triggers

end ChatCommands
