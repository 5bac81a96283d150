import ChatCommands.Proofs.Schema.Arena

/-!
# Trees that are built

A tree starts as a root and is changed by adding children, by setting properties and by
marking it as confirmed.  Whatever is done in whatever order, its links agree.
-/

namespace ChatCommands.Schema.Tree

variable {t t' : Tree}

/-- Trees that are made by the operations on trees. -/
inductive Built : Tree → Prop
  | new (name description : String) : Built (new name description)
  | addChild {t t' : Tree} {parent id : Nat} {kind : NodeKind} {name description : String}
      (ht : Built t) (h : t.addChild parent kind name description = .ok (id, t')) : Built t'
  | setProperty {t : Tree} (ht : Built t) (id : Nat) (key : String) (value : Json) :
      Built (t.setProperty id key value)
  | markRegistered {t : Tree} (ht : Built t) : Built t.markRegistered

/-- The tree with another child, or the tree alone if the child cannot be added. -/
def withChild (t : Tree) (parent : Nat) (kind : NodeKind) (name description : String) : Tree :=
  match t.addChild parent kind name description with
  | .ok (_, grown) => grown
  | .error _ => t

theorem Built.withChild (ht : Built t) (parent : Nat) (kind : NodeKind)
    (name description : String) : Built (t.withChild parent kind name description) := by
  rw [Tree.withChild]
  split
  next h => exact .addChild ht h
  next => exact ht

/-! ## Changes that keep the links -/

/-- A change of a node that leaves its name and its links alone. -/
structure KeepsLinks (change : Node → Node) : Prop where
  name : ∀ n, (change n).name = n.name
  children : ∀ n, (change n).children = n.children
  parent : ∀ n, (change n).parent = n.parent

namespace KeepsLinks

variable {change : Node → Node} (h : KeepsLinks change)

include h

/-- The nodes of a changed tree are those that were there, with the same links. -/
theorem exists_node? {id i : Nat} {n : Node} (hn : (t.modify id change).node? i = some n) :
    ∃ m, t.node? i = some m ∧ n.name = m.name ∧ n.children = m.children ∧
      n.parent = m.parent := by
  rw [node?_modify] at hn
  obtain ⟨m, hm, rfl⟩ := Option.map_eq_some_iff.mp hn
  refine ⟨m, hm, ?_⟩
  by_cases hi : i = id
  · rw [if_pos hi]
    exact ⟨h.name m, h.children m, h.parent m⟩
  · rw [if_neg hi]
    exact ⟨rfl, rfl, rfl⟩

theorem exists_modify (id : Nat) {i : Nat} {m : Node} (hm : t.node? i = some m) :
    ∃ n, (t.modify id change).node? i = some n ∧ n.name = m.name ∧ n.children = m.children ∧
      n.parent = m.parent := by
  have hn : (t.modify id change).node? i = some (if i = id then change m else m) := by
    rw [node?_modify, hm, Option.map_some]
  obtain ⟨m', hm', hlinks⟩ := h.exists_node? hn
  obtain rfl := Option.some.inj (hm.symm.trans hm')
  exact ⟨_, hn, hlinks⟩

theorem lists {id i j : Nat} (hlists : t.Lists j i) : (t.modify id change).Lists j i := by
  obtain ⟨m, hm, hmem⟩ := hlists
  obtain ⟨n, hn, -, hchildren, -⟩ := h.exists_modify id hm
  exact ⟨n, hn, hchildren ▸ hmem⟩

theorem childNames (id i : Nat) : (t.modify id change).childNames i = t.childNames i := by
  rw [Tree.childNames, Tree.childNames]
  cases hm : t.node? i with
  | none =>
      have hnone : (t.modify id change).node? i = none := by rw [node?_modify, hm, Option.map_none]
      rw [childrenOf_eq_nil hm, childrenOf_eq_nil hnone]
  | some m =>
      obtain ⟨n, hn, -, hchildren, -⟩ := h.exists_modify id hm
      rw [map_childrenOf_of_node? Node.name hn, map_childrenOf_of_node? Node.name hm, hchildren]
      apply List.filterMap_congr
      intro child _
      rw [node?_modify, Option.map_map]
      congr 1
      funext m
      by_cases hchild : child = id
      · simp [hchild, h.name]
      · simp [hchild]

theorem isLinked (ht : t.IsLinked) (id : Nat) : (t.modify id change).IsLinked := by
  constructor
  case root_eq => exact ht.root_eq
  case root_parent =>
    intro n hn
    obtain ⟨m, hm, -, -, hparent⟩ := h.exists_node? hn
    exact hparent.trans (ht.root_parent hm)
  case parent_lt =>
    intro i n hn hi
    obtain ⟨m, hm, -, -, hparent⟩ := h.exists_node? hn
    rw [hparent]
    exact ht.parent_lt hm hi
  case listed =>
    intro i j n hn hj
    obtain ⟨m, hm, -, -, hparent⟩ := h.exists_node? hn
    exact h.lists (ht.listed hm (hparent ▸ hj))
  case child =>
    intro i j m hm hi
    obtain ⟨m', hm', -, hchildren, -⟩ := h.exists_node? hm
    obtain ⟨k, hk, hj⟩ := ht.child hm' (hchildren ▸ hi)
    obtain ⟨n, hn, -, -, hparent⟩ := h.exists_modify id hk
    exact ⟨n, hn, hparent.trans hj⟩
  case nodup =>
    intro j m hm
    obtain ⟨m', hm', -, hchildren, -⟩ := h.exists_node? hm
    rw [hchildren]
    exact ht.nodup hm'
  case apart =>
    intro j
    rw [h.childNames]
    exact ht.apart j

end KeepsLinks

theorem IsLinked.setProperty (ht : t.IsLinked) (id : Nat) (key : String) (value : Json) :
    (t.setProperty id key value).IsLinked := by
  have hkeeps : KeepsLinks fun n => { n with properties := n.properties.insert key value } :=
    ⟨fun _ => rfl, fun _ => rfl, fun _ => rfl⟩
  exact hkeeps.isLinked ht id

theorem IsLinked.markRegistered (ht : t.IsLinked) : t.markRegistered.IsLinked := by
  have hkeeps : KeepsLinks fun n => { n with registered := true } :=
    ⟨fun _ => rfl, fun _ => rfl, fun _ => rfl⟩
  exact hkeeps.isLinked ht t.root

/-- The links of every tree that is built agree. -/
theorem Built.isLinked (h : Built t) : t.IsLinked := by
  induction h with
  | new name description => exact isLinked_new name description
  | addChild _ h ih =>
      obtain ⟨-, hgains⟩ := gains_addChild h
      exact hgains.isLinked ih
  | setProperty _ id key value ih => exact ih.setProperty id key value
  | markRegistered _ ih => exact ih.markRegistered

end ChatCommands.Schema.Tree
