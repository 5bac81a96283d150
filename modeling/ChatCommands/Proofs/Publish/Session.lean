import ChatCommands.Proofs.Publish.Registry
import ChatCommands.Proofs.Schema.Position
import ChatCommands.Publish.Publisher

/-!
# Trees that are published together

Tasks share a publisher and take turns in any order whatever.  A task that has asked the
platform holds the root of its tree until the answer arrives, and no other tree of that root
is looked at in the meantime.
-/

namespace ChatCommands

open Schema

/-- Tasks that share a publisher, and the trees that the platform confirmed to them, the
first one first. -/
structure Session where
  publisher : Publisher
  tasks : List Task
  confirmed : List Snapshot := []

namespace Session

variable {platform : Platform} {s t : Session} {loaded : List Snapshot} {i j : Nat} {tree : Tree}
  {root : String}

/-- Trees that are to be published, and a publisher that starts from what is kept in a
folder. -/
def start (folder : Option Folder) (sent : List Payload) (trees : List Tree) : Session :=
  { publisher := .start folder sent, tasks := trees.map .waiting }

/-- What the platform confirms on the next turn of a task. -/
def confirms? : Task → Option Snapshot
  | .asked tree (.ok id) => some ⟨id, tree⟩
  | _ => none

/-- One turn of a task. -/
def turn (platform : Platform) (s : Session) (i : Nat) : Session :=
  match s.tasks[i]? with
  | some task =>
    let (next, publisher) := s.publisher.turn platform task
    { publisher, tasks := s.tasks.set i next,
      confirmed := s.confirmed ++ (confirms? task).toList }
  | none => s

/-- Turns of tasks in a given order. -/
def run (platform : Platform) (s : Session) (schedule : List Nat) : Session :=
  schedule.foldl (turn platform) s

/-- The tree that a task takes note of when it is confirmed. -/
def noted (s : Snapshot) : Snapshot :=
  { s with tree := s.tree.markRegistered }

/-- What is known about a root. -/
def slot (s : Session) (root : String) : RootState :=
  s.publisher.registry.slot root

/-- A task has asked the platform about a tree of a root, and the answer has not arrived. -/
def AsksFor (root : String) : Task → Prop
  | .asked tree _ => Text.lower tree.name = Text.lower root
  | _ => False

/-- A task holds a root. -/
def Holds (s : Session) (i : Nat) (root : String) : Prop :=
  ∃ task, s.tasks[i]? = some task ∧ AsksFor root task

/-- The tree is the one that the platform has confirmed, with the given identifier. -/
def Settled (s : Session) (tree : Tree) (id : String) : Prop :=
  s.publisher.registry.IsSettled tree id

/-! ## One turn -/

theorem turn_eq {task next : Task} {publisher : Publisher} (htask : s.tasks[i]? = some task)
    (hturn : s.publisher.turn platform task = (next, publisher)) :
    s.turn platform i =
      { publisher, tasks := s.tasks.set i next,
        confirmed := s.confirmed ++ (confirms? task).toList } := by
  rw [turn, htask]
  simp only [hturn]

theorem set_self {task : Task} (htask : s.tasks[i]? = some task) :
    s.tasks.set i task = s.tasks := by
  obtain ⟨hi, rfl⟩ := List.getElem?_eq_some_iff.mp htask
  exact List.set_getElem_self hi

/-- A turn on which nothing is confirmed. -/
theorem turn_silent {task next : Task} {publisher : Publisher} (htask : s.tasks[i]? = some task)
    (hturn : s.publisher.turn platform task = (next, publisher)) (hsilent : confirms? task = none) :
    s.turn platform i = { s with publisher, tasks := s.tasks.set i next } := by
  rw [turn_eq htask hturn, hsilent, Option.toList_none, List.append_nil]

theorem turn_none (h : s.tasks[i]? = none) : s.turn platform i = s := by
  rw [turn, h]

theorem turn_done {outcome : Except CommandError Publication}
    (htask : s.tasks[i]? = some (.done outcome)) : s.turn platform i = s := by
  rw [turn_silent htask rfl rfl, set_self htask]

theorem turn_held (htask : s.tasks[i]? = some (.waiting tree))
    (hheld : (s.slot tree.name).pending ≠ none) : s.turn platform i = s := by
  have hturn : s.publisher.turn platform (.waiting tree) = (.waiting tree, s.publisher) := by
    rw [Publisher.turn, Registry.offer_of_pending hheld]
  rw [turn_silent htask hturn rfl, set_self htask]

theorem turn_settled (htask : s.tasks[i]? = some (.waiting tree))
    (hfree : (s.slot tree.name).pending = none) {id : String}
    (hsettled : s.Settled tree id) :
    s.turn platform i = { s with tasks := s.tasks.set i (.done (.ok (.unchanged id))) } := by
  have hturn : s.publisher.turn platform (.waiting tree) =
      (.done (.ok (.unchanged id)), s.publisher) := by
    rw [Publisher.turn, Registry.offer_of_settled hfree hsettled]
  exact turn_silent htask hturn rfl

/-- What a publisher is when it has asked about a tree. -/
def asking (s : Session) (tree : Tree) : Publisher :=
  { s.publisher with
    registry := s.publisher.registry.setSlot tree.name { s.slot tree.name with pending := some tree }
    sent := s.publisher.sent ++ [tree.payload] }

theorem turn_asks (htask : s.tasks[i]? = some (.waiting tree))
    (hfree : (s.slot tree.name).pending = none)
    (hnew : ∀ id, ¬ s.Settled tree id) :
    s.turn platform i =
      { s with
        publisher := s.asking tree
        tasks := s.tasks.set i
          (.asked tree (platform s.publisher.sent.length tree.payload)) } := by
  have hturn : s.publisher.turn platform (.waiting tree) =
      (.asked tree (platform s.publisher.sent.length tree.payload), s.asking tree) := by
    rw [Publisher.turn, Registry.offer_of_not_settled hfree hnew]
    rfl
  exact turn_silent htask hturn rfl

theorem turn_confirmed {id : String} (htask : s.tasks[i]? = some (.asked tree (.ok id))) :
    s.turn platform i =
      { publisher := s.publisher.confirm (noted ⟨id, tree⟩)
        tasks := s.tasks.set i (.done (.ok (.registered id)))
        confirmed := s.confirmed ++ [⟨id, tree⟩] } := by
  rw [turn_eq htask rfl, confirms?, Option.toList_some]
  rfl

theorem turn_refused {message : String} (htask : s.tasks[i]? = some (.asked tree (.error message))) :
    s.turn platform i =
      { s with
        publisher := { s.publisher with registry := s.publisher.registry.refuse tree.name }
        tasks := s.tasks.set i (.done (.error (.registration tree.name message))) } :=
  turn_silent htask rfl rfl

/-- The ways in which a session goes on when a task takes a turn. -/
inductive Step (platform : Platform) (s : Session) (i : Nat) : Session → Prop
  | idle : Step platform s i s
  | settled {tree : Tree} {id : String} (htask : s.tasks[i]? = some (.waiting tree))
      (hfree : (s.slot tree.name).pending = none)
      (hsettled : s.Settled tree id) :
      Step platform s i { s with tasks := s.tasks.set i (.done (.ok (.unchanged id))) }
  | asks {tree : Tree} (htask : s.tasks[i]? = some (.waiting tree))
      (hfree : (s.slot tree.name).pending = none)
      (hnew : ∀ id, ¬ s.Settled tree id) :
      Step platform s i
        { s with
          publisher := s.asking tree
          tasks := s.tasks.set i
            (.asked tree (platform s.publisher.sent.length tree.payload)) }
  | confirmed {tree : Tree} {id : String} (htask : s.tasks[i]? = some (.asked tree (.ok id))) :
      Step platform s i
        { publisher := s.publisher.confirm (noted ⟨id, tree⟩)
          tasks := s.tasks.set i (.done (.ok (.registered id)))
          confirmed := s.confirmed ++ [⟨id, tree⟩] }
  | refused {tree : Tree} {message : String}
      (htask : s.tasks[i]? = some (.asked tree (.error message))) :
      Step platform s i
        { s with
          publisher := { s.publisher with registry := s.publisher.registry.refuse tree.name }
          tasks := s.tasks.set i (.done (.error (.registration tree.name message))) }

theorem step_turn (platform : Platform) (s : Session) (i : Nat) :
    Step platform s i (s.turn platform i) := by
  cases htask : s.tasks[i]? with
  | none =>
      rw [turn_none htask]
      exact .idle
  | some task =>
      match task with
      | .done outcome =>
          rw [turn_done htask]
          exact .idle
      | .asked tree (.ok id) =>
          rw [turn_confirmed htask]
          exact .confirmed htask
      | .asked tree (.error message) =>
          rw [turn_refused htask]
          exact .refused htask
      | .waiting tree =>
          by_cases hfree : (s.slot tree.name).pending = none
          · by_cases hsettled : ∃ id, s.Settled tree id
            · obtain ⟨id, hsettled⟩ := hsettled
              rw [turn_settled htask hfree hsettled]
              exact .settled htask hfree hsettled
            · have hnew : ∀ id, ¬ s.Settled tree id :=
                fun id h => hsettled ⟨id, h⟩
              rw [turn_asks htask hfree hnew]
              exact .asks htask hfree hnew
          · rw [turn_held htask hfree]
            exact .idle

/-! ## Locks -/

theorem holds_asked {answer : Except String String}
    (htask : s.tasks[i]? = some (.asked tree answer)) : s.Holds i tree.name :=
  ⟨_, htask, rfl⟩

theorem exists_asked (h : s.Holds i root) :
    ∃ tree answer, s.tasks[i]? = some (.asked tree answer) ∧
      Text.lower tree.name = Text.lower root := by
  obtain ⟨task, htask, hasks⟩ := h
  cases task with
  | asked tree answer => exact ⟨tree, answer, htask, hasks⟩
  | waiting tree => cases hasks
  | done outcome => cases hasks

theorem slot_eq_of_lower (s : Session) {root other : String}
    (h : Text.lower root = Text.lower other) : s.slot root = s.slot other :=
  Registry.slot_eq_of_lower _ h

theorem settled_iff (h : (t.slot tree.name).confirmed = (s.slot tree.name).confirmed)
    {id : String} : t.Settled tree id ↔ s.Settled tree id := by
  have hconfirmed : (t.publisher.registry.slot tree.name).confirmed =
      (s.publisher.registry.slot tree.name).confirmed := h
  rw [Settled, Settled, Registry.IsSettled, Registry.IsSettled, hconfirmed]

theorem getElem?_of_set {next : Task} (htasks : t.tasks = s.tasks.set i next) (hij : i ≠ j) :
    t.tasks[j]? = s.tasks[j]? := by
  rw [htasks, List.getElem?_set_ne hij]

/-- When a task goes on, the other tasks hold what they held. -/
theorem holds_iff_of_set {task next : Task} (htask : s.tasks[i]? = some task)
    (htasks : t.tasks = s.tasks.set i next) :
    t.Holds j root ↔ (i = j ∧ AsksFor root next) ∨ (i ≠ j ∧ s.Holds j root) := by
  have hi : i < s.tasks.length := (List.getElem?_eq_some_iff.mp htask).1
  by_cases hij : i = j
  · have hself : t.tasks[j]? = some next := by
      rw [htasks, ← hij, List.getElem?_set_self hi]
    simp only [Holds, hself, hij, true_and, ne_eq, not_true, false_and, or_false,
      Option.some.injEq, exists_eq_left']
  · simp only [Holds, getElem?_of_set htasks hij, hij, false_and, false_or, ne_eq, not_false_iff,
      true_and]

/-- A root is held by the one task that has asked about a tree of it, and the tree is not
the one that the platform has confirmed. -/
structure Locks (s : Session) : Prop where
  pending : ∀ {i : Nat} {tree : Tree} {answer : Except String String},
    s.tasks[i]? = some (.asked tree answer) → (s.slot tree.name).pending = some tree
  holder : ∀ {root : String}, (s.slot root).pending ≠ none → ∃ i, s.Holds i root
  alone : ∀ {i j : Nat} {root : String}, s.Holds i root → s.Holds j root → i = j
  fresh : ∀ {i : Nat} {tree : Tree} {answer : Except String String},
    s.tasks[i]? = some (.asked tree answer) → ∀ id, ¬ s.Settled tree id

namespace Locks

variable (h : s.Locks)

include h

theorem pending_ne_none_iff : (s.slot root).pending ≠ none ↔ ∃ i, s.Holds i root := by
  constructor
  · exact h.holder
  · rintro ⟨i, hi⟩
    obtain ⟨tree, answer, htask, hroot⟩ := exists_asked hi
    rw [← slot_eq_of_lower s hroot, h.pending htask]
    exact Option.some_ne_none tree

theorem pending_eq_none_iff : (s.slot root).pending = none ↔ ∀ i, ¬ s.Holds i root := by
  rw [← not_exists, ← h.pending_ne_none_iff, not_not]

/-- A task is done that may have held a root before, and the root is free. -/
theorem done {task : Task} {outcome : Except CommandError Publication}
    (htask : s.tasks[i]? = some task) (htasks : t.tasks = s.tasks.set i (.done outcome))
    (hkept : ∀ root, ¬ AsksFor root task → t.slot root = s.slot root)
    (hfreed : ∀ root, AsksFor root task → (t.slot root).pending = none) : t.Locks := by
  have hold : ∀ {j : Nat} {root : String}, t.Holds j root ↔ i ≠ j ∧ s.Holds j root := by
    intro j root
    rw [holds_iff_of_set htask htasks]
    exact or_iff_right fun h => h.2
  -- A tree that another task has asked about belongs to another root.
  have hslot : ∀ {j : Nat} {tree : Tree} {answer : Except String String},
      t.tasks[j]? = some (.asked tree answer) →
        s.tasks[j]? = some (.asked tree answer) ∧ t.slot tree.name = s.slot tree.name := by
    intro j tree answer hj
    obtain ⟨hij, hholds⟩ := hold.mp (holds_asked hj)
    rw [getElem?_of_set htasks hij] at hj
    refine ⟨hj, hkept _ fun hasks => ?_⟩
    exact hij (h.alone ⟨task, htask, hasks⟩ hholds)
  constructor
  case pending =>
    intro j tree answer hj
    obtain ⟨hj, hsame⟩ := hslot hj
    rw [hsame]
    exact h.pending hj
  case holder =>
    intro root hpending
    have hnot : ¬ AsksFor root task := fun hasks => hpending (hfreed root hasks)
    rw [hkept root hnot] at hpending
    obtain ⟨j, held, hheld, hasks⟩ := h.holder hpending
    have hij : i ≠ j := by
      rintro rfl
      rw [htask, Option.some.injEq] at hheld
      exact hnot (hheld ▸ hasks)
    exact ⟨j, hold.mpr ⟨hij, held, hheld, hasks⟩⟩
  case alone => exact fun hi hj => h.alone (hold.mp hi).2 (hold.mp hj).2
  case fresh =>
    intro j tree answer hj id
    obtain ⟨hj, hsame⟩ := hslot hj
    rw [settled_iff (congrArg RootState.confirmed hsame)]
    exact h.fresh hj id

/-- A task asks about a tree of a free root. -/
theorem asks {answer : Except String String}
    (htask : s.tasks[i]? = some (.waiting tree)) (hfree : (s.slot tree.name).pending = none)
    (hnew : ∀ id, ¬ s.Settled tree id) (htasks : t.tasks = s.tasks.set i (.asked tree answer))
    (hslot : ∀ root, t.slot root =
      if Text.lower tree.name = Text.lower root then { s.slot tree.name with pending := some tree }
      else s.slot root) : t.Locks := by
  have hi : i < s.tasks.length := (List.getElem?_eq_some_iff.mp htask).1
  have hself : t.tasks[i]? = some (.asked tree answer) := by
    rw [htasks, List.getElem?_set_self hi]
  have hconfirmed : ∀ root, (t.slot root).confirmed = (s.slot root).confirmed := by
    intro root
    rw [hslot]
    by_cases hroot : Text.lower tree.name = Text.lower root
    · rw [if_pos hroot, slot_eq_of_lower s hroot]
    · rw [if_neg hroot]
  -- The root was free, so that no other task holds it.
  have hapart : ∀ {j : Nat} {root : String}, s.Holds j root →
      Text.lower tree.name ≠ Text.lower root := by
    intro j root hholds hroot
    rw [slot_eq_of_lower s hroot] at hfree
    exact h.pending_eq_none_iff.mp hfree j hholds
  have hold : ∀ {j : Nat} {root : String}, t.Holds j root ↔
      (i = j ∧ Text.lower tree.name = Text.lower root) ∨ (i ≠ j ∧ s.Holds j root) :=
    holds_iff_of_set htask htasks
  -- What a task has asked about is the new tree or what it had asked about before.
  have hasked : ∀ {j : Nat} {other : Tree} {answer' : Except String String},
      t.tasks[j]? = some (.asked other answer') →
        other = tree ∨ s.tasks[j]? = some (.asked other answer') := by
    intro j other answer' hj
    by_cases hij : i = j
    · rw [← hij, hself, Option.some.injEq, Task.asked.injEq] at hj
      exact .inl hj.1.symm
    · exact .inr ((getElem?_of_set htasks hij).symm.trans hj)
  constructor
  case pending =>
    intro j other answer' hj
    rw [hslot]
    rcases hasked hj with rfl | hj
    · rw [if_pos rfl]
    · rw [if_neg (hapart (holds_asked hj))]
      exact h.pending hj
  case holder =>
    intro root hpending
    rw [hslot] at hpending
    by_cases hroot : Text.lower tree.name = Text.lower root
    · exact ⟨i, hold.mpr (.inl ⟨rfl, hroot⟩)⟩
    · rw [if_neg hroot] at hpending
      obtain ⟨j, task, hj, hasks⟩ := h.holder hpending
      have hij : i ≠ j := by
        rintro rfl
        rw [htask, Option.some.injEq] at hj
        rw [← hj] at hasks
        cases hasks
      exact ⟨j, hold.mpr (.inr ⟨hij, task, hj, hasks⟩)⟩
  case alone =>
    intro j k root hj hk
    rcases hold.mp hj with ⟨rfl, hroot⟩ | ⟨-, hj⟩
    · rcases hold.mp hk with ⟨rfl, -⟩ | ⟨-, hk⟩
      · rfl
      · exact absurd hroot (hapart hk)
    · rcases hold.mp hk with ⟨-, hroot⟩ | ⟨-, hk⟩
      · exact absurd hroot (hapart hj)
      · exact h.alone hj hk
  case fresh =>
    intro j other answer' hj id
    rw [settled_iff (hconfirmed _)]
    rcases hasked hj with rfl | hj
    · exact hnew id
    · exact h.fresh hj id

end Locks

end Session

end ChatCommands
