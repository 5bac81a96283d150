import ChatCommands.Schema.Tree
import ChatCommands.Proofs.Outcome

/-!
# Growing trees

What adding a child and changing a node do to the numbered nodes.
-/

namespace ChatCommands.Schema.Tree

theorem node?_root (t : Tree) : t.node? t.root = some t.rootNode := by
  simp [node?, rootNode, t.root_lt]

/-- A child is added behind all nodes, and its parent lists it last. -/
theorem addChild_eq_ok {t t' : Tree} {parent id : Nat} {kind : NodeKind}
    {name description : String}
    (h : t.addChild parent kind name description = .ok (id, t')) :
    t.childNamed? parent name = none ∧ parent < t.size ∧ id = t.size ∧ t'.root = t.root ∧
      t'.nodes =
        t.nodes.modify parent (fun n => { n with children := n.children ++ [id] }) ++
          [{ kind, name, description, parent := some parent }] := by
  unfold addChild at h
  split at h
  next => contradiction
  next hfresh =>
    split at h
    next hparent =>
      simp only [Except.ok.injEq, Prod.mk.injEq] at h
      obtain ⟨rfl, rfl⟩ := h
      exact ⟨by simpa using hfresh, hparent, rfl, rfl, rfl⟩
    next => contradiction

theorem node?_addChild {t t' : Tree} {parent id : Nat} {kind : NodeKind}
    {name description : String}
    (h : t.addChild parent kind name description = .ok (id, t')) (i : Nat) :
    t'.node? i =
      if i = t.size then some { kind, name, description, parent := some parent }
      else (t.node? i).map fun n =>
        if i = parent then { n with children := n.children ++ [id] } else n := by
  obtain ⟨-, -, -, -, hnodes⟩ := addChild_eq_ok h
  rw [node?, hnodes]
  by_cases hold : i < t.nodes.length
  · have hne : i ≠ t.size := Nat.ne_of_lt hold
    rw [List.getElem?_append_left (by simpa using hold), List.getElem?_modify, if_neg hne, node?]
    by_cases hparent : parent = i
    · simp [hparent]
    · simp [hparent, Ne.symm hparent]
  · by_cases hnew : i = t.size
    · rw [List.getElem?_append_right (by simp [hnew, size]), if_pos hnew]
      simp [hnew, size]
    · have hbeyond : t.nodes.length < i :=
        Nat.lt_of_le_of_ne (Nat.le_of_not_lt hold) (Ne.symm hnew)
      rw [if_neg hnew, List.getElem?_eq_none (by simp; omega), node?,
        List.getElem?_eq_none (Nat.le_of_lt hbeyond), Option.map_none]

theorem node?_modify (t : Tree) (id : Nat) (change : Node → Node) (i : Nat) :
    (t.modify id change).node? i =
      (t.node? i).map fun n => if i = id then change n else n := by
  rw [node?, node?, modify, List.getElem?_modify]
  by_cases h : id = i
  · simp [h]
  · simp [h, Ne.symm h]

end ChatCommands.Schema.Tree
