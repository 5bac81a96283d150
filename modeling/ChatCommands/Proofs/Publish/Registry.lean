import Mathlib.Data.List.Induction
import ChatCommands.Proofs.Dict
import ChatCommands.Proofs.Schema.Tree
import ChatCommands.Publish.Registry

/-!
# What a registry knows about a root

A root has one slot, whatever the case of its name.  What is done for a root changes its
slot and no other one.
-/

namespace ChatCommands

open Schema

namespace Schema.Tree

theorem rootNode_markRegistered (t : Tree) :
    t.markRegistered.rootNode = { t.rootNode with registered := true } := by
  have hroot : t.markRegistered.node? t.root = some { t.rootNode with registered := true } := by
    rw [markRegistered, node?_modify, node?_root, Option.map_some, if_pos rfl]
  exact Option.some.inj (t.markRegistered.node?_root.symm.trans hroot)

@[simp]
theorem name_markRegistered (t : Tree) : t.markRegistered.name = t.name := by
  rw [name, rootNode_markRegistered, name]

@[simp]
theorem isRegistered_markRegistered (t : Tree) : t.markRegistered.isRegistered = true := by
  rw [isRegistered, rootNode_markRegistered]

end Schema.Tree

/-- Whether a snapshot is one of a root. -/
def Schema.Snapshot.isOf (root : String) (s : Snapshot) : Bool :=
  Text.lower s.tree.name == Text.lower root

/-- The last of some snapshots of a root. -/
def Schema.Snapshot.last? (snapshots : List Snapshot) (root : String) : Option Snapshot :=
  snapshots.reverse.find? (Snapshot.isOf root)

/-- The last of some values that satisfies a condition, when one more is added. -/
theorem find?_reverse_concat {α : Type} (p : α → Bool) (l : List α) (a : α) :
    (l ++ [a]).reverse.find? p = if p a then some a else l.reverse.find? p := by
  rw [List.reverse_concat, List.find?_cons]
  cases p a <;> rfl

theorem Schema.Snapshot.last?_concat (snapshots : List Snapshot) (s : Snapshot) (root : String) :
    last? (snapshots ++ [s]) root = if s.isOf root then some s else last? snapshots root :=
  find?_reverse_concat _ _ _

theorem Schema.Snapshot.mem_of_last? {snapshots : List Snapshot} {root : String} {s : Snapshot}
    (h : last? snapshots root = some s) : s ∈ snapshots :=
  List.mem_reverse.mp (List.mem_of_find?_eq_some h)

namespace Registry

variable {r : Registry} {t : Tree}

theorem slot_setSlot (r : Registry) (root other : String) (s : RootState) :
    (r.setSlot root s).slot other =
      if Text.lower root = Text.lower other then s else r.slot other := by
  rw [slot, setSlot, Dict.get?_insert, slot]
  split
  · rfl
  · rfl

theorem slot_confirm (r : Registry) (s : Snapshot) (root : String) :
    (r.confirm s).slot root = if s.isOf root then { confirmed := some s } else r.slot root := by
  rw [confirm, slot_setSlot, Snapshot.isOf]
  simp only [beq_iff_eq]

theorem slot_refuse (r : Registry) (root other : String) :
    (r.refuse root).slot other =
      if Text.lower root = Text.lower other then { r.slot root with pending := none }
      else r.slot other :=
  slot_setSlot r root other _

theorem slot_eq_of_lower (r : Registry) {root other : String}
    (h : Text.lower root = Text.lower other) : r.slot root = r.slot other := by
  rw [slot, slot, h]

/-- A registry starts with the last snapshot of every root. -/
theorem slot_ofSnapshots (snapshots : List Snapshot) (root : String) :
    (ofSnapshots snapshots).slot root = { confirmed := Snapshot.last? snapshots root } := by
  induction snapshots using List.reverseRecOn with
  | nil => rfl
  | append_singleton snapshots s ih =>
      rw [ofSnapshots, List.foldl_concat, slot_confirm, Snapshot.last?_concat]
      split
      · rfl
      · exact ih

/-- Whether the platform has confirmed a tree that is the same. -/
def IsSettled (r : Registry) (t : Tree) (id : String) : Prop :=
  ∃ s, (r.slot t.name).confirmed = some s ∧ s.tree.same t = true ∧ s.externalId = id

/-! ## Offering a tree -/

theorem offer_of_pending (h : (r.slot t.name).pending ≠ none) : r.offer t = (.busy, r) := by
  rw [offer, if_pos (Option.isSome_iff_ne_none.mpr h)]

theorem offer_of_settled (hfree : (r.slot t.name).pending = none) {id : String}
    (h : r.IsSettled t id) : r.offer t = (.unchanged id, r) := by
  obtain ⟨s, hconfirmed, hsame, rfl⟩ := h
  rw [offer, hfree, hconfirmed]
  simp [hsame]

theorem offer_of_not_settled (hfree : (r.slot t.name).pending = none)
    (h : ∀ id, ¬ r.IsSettled t id) :
    r.offer t = (.asked, r.setSlot t.name { r.slot t.name with pending := some t }) := by
  rw [offer, hfree]
  cases hconfirmed : (r.slot t.name).confirmed with
  | none => simp [hconfirmed]
  | some s =>
      have hdiffers : s.tree.same t ≠ true := fun hsame => h s.externalId ⟨s, hconfirmed, hsame, rfl⟩
      simp [hdiffers, hconfirmed]

end Registry

end ChatCommands
