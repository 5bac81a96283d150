import ChatCommands.Diagnostic.CommandError
import ChatCommands.Schema.Payload
import ChatCommands.Schema.Snapshot
import ChatCommands.Text.Case

/-!
# Confirmed trees

For every root a registry keeps the tree that the platform confirmed last.  While
the platform is asked about a tree of a root, no other tree of that root can be
published, and a tree that equals the confirmed one is never sent again.
-/

namespace ChatCommands

open Schema

/-- What is known about a root. -/
structure RootState where
  confirmed : Option Snapshot := none
  /-- The tree about which the platform is being asked. -/
  pending : Option Tree := none

/-- The roots with what is known about them, under their names in lowercase. -/
abbrev Registry := Dict RootState

/-- What happens to a tree that is to be published. -/
inductive Admission where
  /-- Another tree of the root is being published. -/
  | busy
  /-- The platform has confirmed an equal tree. -/
  | unchanged (id : String)
  /-- The platform is asked. -/
  | asked

namespace Registry

/-- What is known about a root. -/
def slot (r : Registry) (root : String) : RootState :=
  (r.get? (Text.lower root)).getD {}

/-- Replaces what is known about a root. -/
def setSlot (r : Registry) (root : String) (s : RootState) : Registry :=
  r.insert (Text.lower root) s

/-- Starts to publish a tree. -/
def offer (r : Registry) (t : Tree) : Admission × Registry :=
  let s := r.slot t.name
  if s.pending.isSome then (.busy, r)
  else
    match s.confirmed with
    | some snapshot =>
      if snapshot.tree.same t then (.unchanged snapshot.externalId, r)
      else (.asked, r.setSlot t.name { s with pending := some t })
    | none => (.asked, r.setSlot t.name { s with pending := some t })

/-- Takes note that the platform confirmed a tree. -/
def confirm (r : Registry) (snapshot : Snapshot) : Registry :=
  r.setSlot snapshot.tree.name { confirmed := some snapshot }

/-- Takes note that the platform refused the tree of a root. -/
def refuse (r : Registry) (root : String) : Registry :=
  r.setSlot root { r.slot root with pending := none }

/-- Whether the tree of a root is confirmed and no other is being published. -/
def isRegistered (r : Registry) (root : String) : Bool :=
  let s := r.slot root
  s.pending.isNone && s.confirmed.any (·.tree.isRegistered)

/-- The registry of some snapshots, of which the last one for a root counts. -/
def ofSnapshots (snapshots : List Snapshot) : Registry :=
  snapshots.foldl confirm Dict.empty

end Registry

end ChatCommands
