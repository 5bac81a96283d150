import ChatCommands.Text.Blank

/-!
# Line differences

Two texts are compared line by line, along a longest sequence of lines that both
have in common.  The sequence is found from the last lines of both texts back to
the first ones: equal lines are taken into it, and where either text could drop a
line without loss, the old one does.
-/

namespace ChatCommands.Text

/-- Lines that both texts have, or only one of them. -/
inductive Change where
  | same (lines : List String)
  | removed (lines : List String)
  | added (lines : List String)
deriving DecidableEq

namespace LineDiff

/-- A sequence of common lines, with its length. -/
structure Shared where
  length : Nat
  lines : List String

namespace Shared

/-- No common lines. -/
def empty : Shared := ⟨0, []⟩

/-- The sequence with one more line in front. -/
def cons (line : String) (s : Shared) : Shared := ⟨s.length + 1, line :: s.lines⟩

end Shared

/-- What a line shares with each end of a text: the result has a place for each end,
the whole text first.  `rest` has the same for the lines that follow the given one. -/
def sharedWith (line : String) : List String → List Shared → List Shared
  | x :: xs, skipped :: rest =>
    let row := sharedWith line xs rest
    let dropped := row.headD .empty
    let here :=
      if line == x then Shared.cons line (rest.headD .empty)
      else if skipped.length < dropped.length then dropped
      else skipped
    here :: row
  | _, rest => rest

/-- A longest sequence of common lines.  Where a line of the old text can be dropped
without loss, it is dropped before a line of the new one. -/
def longestShared (old new : List String) : List String :=
  let start := List.replicate (new.length + 1) Shared.empty
  ((old.foldr (fun line rest => sharedWith line new rest) start).headD .empty).lines

/-- The common lines of two texts. -/
def common (old new : List String) : List String :=
  (longestShared old.reverse new.reverse).reverse

/-- Splits off the lines before the next common line. -/
def spanUntil (next : Option String) (lines : List String) : List String × List String :=
  lines.span fun line => some line != next

/-- Splits off the lines that both texts and the common lines begin with. -/
def spanSame : List String → List String → List String →
    List String × List String × List String × List String
  | a :: as, b :: bs, c :: cs =>
    if a == c && b == c then
      let (same, rest) := spanSame as bs cs
      (a :: same, rest)
    else ([], a :: as, b :: bs, c :: cs)
  | as, bs, cs => ([], as, bs, cs)

/-- A change, unless it has no lines. -/
def unlessEmpty (change : List String → Change) (lines : List String) : List Change :=
  if lines.isEmpty then [] else [change lines]

/-- The changes between two texts along their common lines. -/
def merge : Nat → List String → List String → List String → List Change
  | 0, _, _, _ => []
  | fuel + 1, as, bs, cs =>
    if as.isEmpty && bs.isEmpty then []
    else
      let (same, as, bs, cs) := spanSame as bs cs
      let (removed, as) := spanUntil cs.head? as
      let (added, bs) := spanUntil cs.head? bs
      unlessEmpty .same same ++ unlessEmpty .removed removed ++ unlessEmpty .added added ++
        merge fuel as bs cs

/-- The changes from one text to another. -/
def changes (old new : String) : List Change :=
  let a := splitOn '\n' old
  let b := splitOn '\n' new
  merge (a.length + b.length + 1) a b (common a b)

end LineDiff

end ChatCommands.Text
