import ChatCommands.Publish.Task

/-!
# Tasks in a line

Tasks that are ready stand in a line and take their turns from its front.  A task that
asked the platform stands aside until the next pause, when those that stand aside go to
the end of the line, the last one first.  A task that waits for its root goes there as
soon as the task before it is done.
-/

namespace ChatCommands

open Schema

/-- When a line makes a pause, apart from having no one left in it. -/
inductive Pace where
  /-- After a number of turns. -/
  | every (turns : Nat)
  /-- When since the last pause or outcome there were as many turns as tasks are left. -/
  | byRound
deriving DecidableEq

/-- Tasks and the order in which they take their turns. -/
structure Line where
  publisher : Publisher
  tasks : List Task
  ready : List Nat
  /-- The tasks that stand aside, the last one first. -/
  aside : List Nat := []
  /-- The turns since the last pause. -/
  turns : Nat := 0

namespace Line

/-- Trees in a line, in their order. -/
def ofTrees (p : Publisher) (trees : List Tree) : Line :=
  { publisher := p, tasks := trees.map .waiting, ready := List.range trees.length }

/-- Lets the tasks that stand aside go to the end of the line. -/
def pause (l : Line) : Line :=
  { l with ready := l.ready ++ l.aside, aside := [], turns := 0 }

/-- Whether it is time for a pause. -/
def isTired (pace : Pace) (l : Line) : Bool :=
  match pace with
  | .every turns => turns ≤ l.turns
  | .byRound => (l.tasks.filter (!·.isDone)).length ≤ l.turns

/-- The task that waited longest for a root. -/
def heldUpBy? (l : Line) (root : String) : Option Nat :=
  (l.tasks.zipIdx.find? fun (task, i) =>
    task.waitsFor? == some root && !l.ready.contains i).map (·.2)

/-- Lets the task that waited longest for a root go to the end of the line. -/
def release (l : Line) (root : String) : Line :=
  { l with ready := l.ready ++ (l.heldUpBy? root).toList }

/-- What becomes of the line after a turn of a task for a root. -/
def settle (pace : Pace) (l : Line) (i : Nat) (root : Option String) : Task → Line
  | .waiting _ => { l with turns := l.turns + 1 }
  | .asked _ _ => { l with aside := i :: l.aside, turns := l.turns + 1 }
  | .done _ =>
    let turns := if pace = .byRound then 0 else l.turns + 1
    root.elim { l with turns } ({ l with turns }.release ·)

/-- One turn of the task at the front, and a pause if it is time for one. -/
def advance (platform : Platform) (pace : Pace) (l : Line) : Line :=
  match l.ready with
  | [] => l.pause
  | i :: ready =>
    let l := { l with ready }
    match l.tasks[i]? with
    | none => l
    | some task =>
      let (next, publisher) := l.publisher.turn platform task
      let l := { l with publisher, tasks := l.tasks.set i next }
      let l := l.settle pace i task.root? next
      if l.isTired pace then l.pause else l

/-- Turns until all tasks are done. -/
def run (platform : Platform) (pace : Pace) : Nat → Line → Line
  | 0, l => l
  | fuel + 1, l =>
    if l.tasks.all Task.isDone then l else run platform pace fuel (l.advance platform pace)

end Line

end ChatCommands
