/-!
# Spans

Ranges of bytes in the raw text of a command.
-/

namespace ChatCommands

/-- The bytes from `start` up to, but without, `stop`. -/
structure Span where
  start : Nat
  stop : Nat
deriving DecidableEq

namespace Span

/-- The span without bytes at the front of a text. -/
def zero : Span := ⟨0, 0⟩

/-- Number of bytes; a span that ends before it starts has none. -/
def length (s : Span) : Nat :=
  s.stop - s.start

/-- Whether a span holds no byte. -/
def isEmpty (s : Span) : Bool :=
  s.length == 0

/-- The smallest span around two spans. -/
def join (a b : Span) : Span :=
  ⟨min a.start b.start, max a.stop b.stop⟩

/-- A span moved to the right. -/
def shift (offset : Nat) (s : Span) : Span :=
  ⟨s.start + offset, s.stop + offset⟩

end Span

end ChatCommands
