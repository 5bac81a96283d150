import Mathlib.Data.Nat.Find
import ChatCommands.Proofs.Publish.Session

/-!
# The protocol of publishing

Whatever the order of turns and whatever the platform answers, the slot of a root holds what
the platform confirmed last for it.  A tree that is in the slot already is not sent again.
-/

namespace ChatCommands

open Schema

namespace Session

variable {platform : Platform} {s t : Session} {loaded : List Snapshot} {i j : Nat} {tree : Tree}
  {root : String}

/-- What the platform confirmed last for a root within a session, or else what was loaded
for it. -/
def lastConfirmed (loaded confirmed : List Snapshot) (root : String) : Option Snapshot :=
  Snapshot.last? (loaded ++ confirmed.map noted) root

theorem isOf_noted (x : Snapshot) (root : String) : (noted x).isOf root = x.isOf root := by
  rw [Snapshot.isOf, noted, Tree.name_markRegistered, Snapshot.isOf]

theorem lastConfirmed_concat (loaded confirmed : List Snapshot) (x : Snapshot) (root : String) :
    lastConfirmed loaded (confirmed ++ [x]) root =
      if x.isOf root then some (noted x) else lastConfirmed loaded confirmed root := by
  rw [lastConfirmed, List.map_append, List.map_singleton, ← List.append_assoc,
    Snapshot.last?_concat, isOf_noted, lastConfirmed]

theorem slot_asking (s : Session) (tree : Tree) (root : String) :
    (s.asking tree).registry.slot root =
      if Text.lower tree.name = Text.lower root then { s.slot tree.name with pending := some tree }
      else s.slot root :=
  Registry.slot_setSlot _ _ _ _

theorem confirmed_asking (s : Session) (tree : Tree) (root : String) :
    ((s.asking tree).registry.slot root).confirmed = (s.slot root).confirmed := by
  rw [slot_asking]
  by_cases hroot : Text.lower tree.name = Text.lower root
  · rw [if_pos hroot, slot_eq_of_lower s hroot]
  · rw [if_neg hroot]

theorem slot_refuse (s : Session) (tree : Tree) (root : String) :
    (s.publisher.registry.refuse tree.name).slot root =
      if Text.lower tree.name = Text.lower root then { s.slot tree.name with pending := none }
      else s.slot root :=
  Registry.slot_refuse _ _ _

theorem confirmed_refuse (s : Session) (tree : Tree) (root : String) :
    ((s.publisher.registry.refuse tree.name).slot root).confirmed = (s.slot root).confirmed := by
  rw [slot_refuse]
  by_cases hroot : Text.lower tree.name = Text.lower root
  · rw [if_pos hroot, slot_eq_of_lower s hroot]
  · rw [if_neg hroot]

theorem slot_confirm (s : Session) (x : Snapshot) (root : String) :
    (s.publisher.registry.confirm (noted x)).slot root =
      if Text.lower x.tree.name = Text.lower root then { confirmed := some (noted x) }
      else s.slot root := by
  rw [Registry.slot_confirm, isOf_noted, Snapshot.isOf]
  simp only [beq_iff_eq]
  rfl

/-! ## Runs -/

/-- What holds on all runs of a session. -/
structure Sound (loaded : List Snapshot) (s : Session) : Prop where
  locks : s.Locks
  /-- The slot of a root holds what the platform confirmed last for it. -/
  content : ∀ root, (s.slot root).confirmed = lastConfirmed loaded s.confirmed root
  /-- What is confirmed is never the same as what was confirmed last for the root. -/
  changes : ∀ {n : Nat} {x y : Snapshot}, s.confirmed[n]? = some x →
    lastConfirmed loaded (s.confirmed.take n) x.tree.name = some y → y.tree.same x.tree = false

/-- A turn on which nothing is confirmed keeps what was confirmed. -/
theorem Sound.silent (h : s.Sound loaded) (hlocks : t.Locks)
    (hslot : ∀ root, (t.slot root).confirmed = (s.slot root).confirmed)
    (hconfirmed : t.confirmed = s.confirmed) : t.Sound loaded := by
  refine ⟨hlocks, ?_, ?_⟩
  · intro root
    rw [hslot, hconfirmed]
    exact h.content root
  · rw [hconfirmed]
    exact h.changes

/-- Whatever a task does on its turn keeps a session sound. -/
theorem Sound.step (h : s.Sound loaded) (hstep : Step platform s i t) : t.Sound loaded := by
  cases hstep with
  | idle => exact h
  | settled htask hfree hsettled =>
      apply h.silent
      · exact h.locks.done htask rfl (fun _ _ => rfl) (fun _ hasks => hasks.elim)
      · exact fun _ => rfl
      · rfl
  | @asks tree htask hfree hnew =>
      apply h.silent
      · exact h.locks.asks htask hfree hnew rfl (slot_asking s tree)
      · exact confirmed_asking s tree
      · rfl
  | @confirmed tree id htask =>
      have hslot := slot_confirm s ⟨id, tree⟩
      constructor
      case locks =>
        apply h.locks.done htask rfl
        · exact fun root hasks => (hslot root).trans (if_neg hasks)
        · exact fun root hasks => congrArg RootState.pending ((hslot root).trans (if_pos hasks))
      case content =>
        intro root
        refine (congrArg RootState.confirmed (hslot root)).trans ?_
        rw [lastConfirmed_concat, Snapshot.isOf]
        simp only [beq_iff_eq]
        split
        · rfl
        · exact h.content root
      case changes =>
        intro n x y hx hy
        by_cases hn : n < s.confirmed.length
        · rw [List.getElem?_append_left hn] at hx
          rw [List.take_append_of_le_length (Nat.le_of_lt hn)] at hy
          exact h.changes hx hy
        · -- What was confirmed last is what stood in the slot when the platform was asked.
          have hlast : n = s.confirmed.length := by
            have hlt := (List.getElem?_eq_some_iff.mp hx).1
            rw [List.length_append, List.length_singleton] at hlt
            omega
          rw [hlast, List.getElem?_concat_length, Option.some.injEq] at hx
          rw [hlast, List.take_left, ← h.content, ← hx] at hy
          rw [← hx, ← Bool.not_eq_true]
          exact fun hsame => h.locks.fresh htask y.externalId ⟨y, hy, hsame, rfl⟩
  | @refused tree message htask =>
      have hslot := slot_refuse s tree
      apply h.silent
      · apply h.locks.done htask rfl
        · exact fun root hasks => (hslot root).trans (if_neg hasks)
        · exact fun root hasks => congrArg RootState.pending ((hslot root).trans (if_pos hasks))
      · exact confirmed_refuse s tree
      · rfl

theorem Sound.turn (h : s.Sound loaded) (i : Nat) : (s.turn platform i).Sound loaded :=
  h.step (step_turn platform s i)

theorem Sound.run (h : s.Sound loaded) (platform : Platform) (schedule : List Nat) :
    (s.run platform schedule).Sound loaded := by
  induction schedule generalizing s with
  | nil => exact h
  | cons i rest ih => exact ih (h.turn i)

/-! ## The protocol -/

end Session

end ChatCommands
