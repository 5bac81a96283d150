import ChatCommands.Publish.Folder
import ChatCommands.Publish.Registry

/-!
# Trees on their way

A tree is published by a task that takes turns.  It waits while another tree of its
root is being published, asks the platform, and takes note of the answer on a later
turn.  Nothing is tried twice.
-/

namespace ChatCommands

open Schema

/-- What the platform answers to the payload of a call, given the number of the
call: an identifier or a refusal. -/
abbrev Platform := Nat → Payload → Except String String

/-- How a tree came to be known to the platform. -/
inductive Publication where
  | unchanged (id : String)
  | registered (id : String)
deriving DecidableEq

/-- A publisher with its memory: the registry, the snapshot folder if there is
one, and the payloads that were sent. -/
structure Publisher where
  registry : Registry
  folder : Option Folder
  sent : List Payload

/-- One tree on its way. -/
inductive Task where
  | waiting (tree : Tree)
  /-- The platform was asked, and its answer is about to arrive. -/
  | asked (tree : Tree) (answer : Except String String)
  | done (outcome : Except CommandError Publication)

namespace Task

/-- Whether nothing is left to do. -/
def isDone : Task → Bool
  | done _ => true
  | _ => false

/-- The root of a tree that waits for its turn. -/
def waitsFor? : Task → Option String
  | waiting tree => some (Text.lower tree.name)
  | _ => none

/-- The root of a tree that is not done. -/
def root? : Task → Option String
  | waiting tree | asked tree _ => some (Text.lower tree.name)
  | done _ => none

/-- The outcome, once there is one. -/
def outcome? : Task → Option (Except CommandError Publication)
  | done outcome => some outcome
  | _ => none

end Task

namespace Publisher

/-- A publisher that keeps its snapshots in a folder and starts from those that
are there. -/
def start (folder : Option Folder) (sent : List Payload) : Publisher :=
  ⟨.ofSnapshots ((folder.map Folder.snapshots).getD []), folder, sent⟩

/-- Takes note of a confirmed tree. -/
def confirm (p : Publisher) (s : Snapshot) : Publisher :=
  { p with registry := p.registry.confirm s, folder := p.folder.map (·.save s) }

/-- One turn of a task. -/
def turn (platform : Platform) (p : Publisher) : Task → Task × Publisher
  | .waiting tree =>
    match p.registry.offer tree with
    | (.busy, _) => (.waiting tree, p)
    | (.unchanged id, _) => (.done (.ok (.unchanged id)), p)
    | (.asked, registry) =>
      (.asked tree (platform p.sent.length tree.payload),
        { p with registry, sent := p.sent ++ [tree.payload] })
  | .asked tree (.ok id) =>
    (.done (.ok (.registered id)), p.confirm ⟨id, tree.markRegistered⟩)
  | .asked tree (.error message) =>
    (.done (.error (.registration tree.name message)),
      { p with registry := p.registry.refuse tree.name })
  | .done outcome => (.done outcome, p)

end Publisher

end ChatCommands
