import ChatCommands.Publish.Line

/-!
# Publishing trees

Trees are published together or apart.  A few trees together take their turns in rounds,
in their order; all others stand in a line.
-/

namespace ChatCommands.Publisher

open Schema

/-- One turn of every task, in order. -/
def round (platform : Platform) (p : Publisher) : List Task → List Task × Publisher
  | [] => ([], p)
  | task :: rest =>
    let (task, p) := p.turn platform task
    let (rest, p) := round platform p rest
    (task :: rest, p)

/-- Rounds of turns until all tasks are done. -/
def rounds (platform : Platform) : Nat → Publisher → List Task → List Task × Publisher
  | 0, p, tasks => (tasks, p)
  | fuel + 1, p, tasks =>
    if tasks.all Task.isDone then (tasks, p)
    else
      let (tasks, p) := p.round platform tasks
      rounds platform fuel p tasks

/-- The outcomes of tasks that are done. -/
def outcomes (tasks : List Task) : List (Except CommandError Publication) :=
  tasks.filterMap Task.outcome?

/-- How many trees are published in rounds. -/
def maxTogether : Nat := 30

/-- How many turns tasks that run on their own take between two pauses. -/
def turnsApart : Nat := 61

/-- Publishes trees from a line.  A task has three turns at most, and asks once before
a pause. -/
def publishInLine (platform : Platform) (pace : Pace) (p : Publisher) (trees : List Tree) :
    List (Except CommandError Publication) × Publisher :=
  let l := (Line.ofTrees p trees).run platform pace (4 * trees.length)
  (outcomes l.tasks, l.publisher)

/-- Publishes trees together.  In every round some task is brought forward, and a task is
brought forward twice. -/
def publishAll (platform : Platform) (p : Publisher) (trees : List Tree) :
    List (Except CommandError Publication) × Publisher :=
  if trees.length ≤ maxTogether then
    let (tasks, p) := rounds platform (2 * trees.length) p (trees.map .waiting)
    (outcomes tasks, p)
  else p.publishInLine platform .byRound trees

/-- Publishes one tree. -/
def publish (platform : Platform) (p : Publisher) (tree : Tree) :
    List (Except CommandError Publication) × Publisher :=
  p.publishAll platform [tree]

/-- Publishes trees by tasks that run on their own. -/
def publishApart (platform : Platform) (p : Publisher) (trees : List Tree) :
    List (Except CommandError Publication) × Publisher :=
  p.publishInLine platform (.every turnsApart) trees

end ChatCommands.Publisher
