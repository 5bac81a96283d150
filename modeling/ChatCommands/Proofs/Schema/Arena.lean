import Mathlib.Data.List.Nodup
import Mathlib.Logic.Relation
import ChatCommands.Proofs.Schema.Tree

/-!
# Links of an arena

The numbers under which nodes name their parents and their children agree with
each other, and siblings go by different names.  A tree of one node is linked in
this way, and so is every tree that grows from it by adding children.  In a linked
tree every node can be reached from the root.
-/

namespace ChatCommands.Schema.Tree

/-- One node has another among its children. -/
def Lists (t : Tree) (parent child : Nat) : Prop :=
  ∃ n, t.node? parent = some n ∧ child ∈ n.children

/-- The names of the children of a node. -/
def childNames (t : Tree) (id : Nat) : List String :=
  (t.childrenOf id).map (·.2.name)

/-- The kinds of the children of a node. -/
def childKinds (t : Tree) (id : Nat) : List NodeKind :=
  (t.childrenOf id).map (·.2.kind)

/-- The links of an arena agree, and siblings have different names. -/
structure IsLinked (t : Tree) : Prop where
  root_eq : t.root = 0
  root_parent : ∀ {n}, t.node? 0 = some n → n.parent = none
  parent_lt : ∀ {i n}, t.node? i = some n → i ≠ 0 → ∃ j < i, n.parent = some j
  listed : ∀ {i j n}, t.node? i = some n → n.parent = some j → t.Lists j i
  child : ∀ {i j m}, t.node? j = some m → i ∈ m.children →
    ∃ n, t.node? i = some n ∧ n.parent = some j
  nodup : ∀ {j m}, t.node? j = some m → m.children.Nodup
  apart : ∀ j, (t.childNames j).Pairwise fun a b => Text.asciiEq a b = false

variable {t t' : Tree}

theorem lt_size_of_node? {i : Nat} {n : Node} (h : t.node? i = some n) : i < t.size :=
  (List.getElem?_eq_some_iff.mp h).1

theorem node?_size : t.node? t.size = none :=
  List.getElem?_eq_none (Nat.le_refl _)

theorem childrenOf_of_node? {i : Nat} {n : Node} (h : t.node? i = some n) :
    t.childrenOf i = n.children.filterMap fun child => (t.node? child).map fun m => (child, m) := by
  rw [childrenOf, h]

theorem map_childrenOf_of_node? {α : Type} (view : Node → α) {i : Nat} {n : Node}
    (h : t.node? i = some n) :
    (t.childrenOf i).map (view ·.2) =
      n.children.filterMap fun child => (t.node? child).map fun m => view m := by
  rw [childrenOf_of_node? h, List.map_filterMap]
  congr 1
  funext child
  rw [Option.map_map]
  rfl

theorem childrenOf_eq_nil {i : Nat} (h : t.node? i = none) : t.childrenOf i = [] := by
  rw [childrenOf, h]

theorem ne_of_childNamed?_eq_none {i : Nat} {name : String} (h : t.childNamed? i name = none) :
    ∀ other ∈ t.childNames i, Text.asciiEq other name = false := by
  intro other hother
  obtain ⟨child, hchild, rfl⟩ := List.mem_map.mp hother
  simpa using List.find?_eq_none.mp h child hchild

theorem mem_childrenOf_iff {i : Nat} {child : Nat × Node} :
    child ∈ t.childrenOf i ↔ t.Lists i child.1 ∧ t.node? child.1 = some child.2 := by
  constructor
  · intro h
    cases hn : t.node? i with
    | none =>
        rw [childrenOf, hn] at h
        cases h
    | some n =>
        rw [childrenOf_of_node? hn, List.mem_filterMap] at h
        obtain ⟨id, hid, h⟩ := h
        obtain ⟨m, hm, rfl⟩ := Option.map_eq_some_iff.mp h
        exact ⟨⟨n, hn, hid⟩, hm⟩
  · rintro ⟨⟨n, hn, hid⟩, hm⟩
    rw [childrenOf_of_node? hn, List.mem_filterMap]
    exact ⟨child.1, hid, by rw [hm]; rfl⟩

/-- Parents have smaller numbers than their children. -/
theorem IsLinked.lt_of_parent (ht : t.IsLinked) {i j : Nat} {n : Node} (hn : t.node? i = some n)
    (hparent : n.parent = some j) : j < i := by
  by_cases hi : i = 0
  · subst hi
    rw [ht.root_parent hn] at hparent
    cases hparent
  · obtain ⟨k, hk, hparent'⟩ := ht.parent_lt hn hi
    obtain rfl : k = j := Option.some.inj (hparent'.symm.trans hparent)
    exact hk

/-! ## Growing -/

/-- A tree gains a child: it is a node of its own behind all others and stands last
among the children of its parent.  Nothing else changes. -/
structure Gains (t : Tree) (parent : Nat) (child : Node) (t' : Tree) : Prop where
  parent_lt : parent < t.size
  fresh : t.childNamed? parent child.name = none
  leaf : child.children = []
  parent_eq : child.parent = some parent
  root_eq : t'.root = t.root
  node?_eq : ∀ i, t'.node? i =
    if i = t.size then some child
    else (t.node? i).map fun n =>
      if i = parent then { n with children := n.children ++ [t.size] } else n

theorem gains_addChild {parent id : Nat} {kind : NodeKind} {name description : String}
    (h : t.addChild parent kind name description = .ok (id, t')) :
    id = t.size ∧ t.Gains parent { kind, name, description, parent := some parent } t' := by
  obtain ⟨hfresh, hparent, rfl, hroot, -⟩ := addChild_eq_ok h
  exact ⟨rfl, hparent, hfresh, rfl, rfl, hroot, node?_addChild h⟩

/-- What is done to the properties of the new child alone may be taken together with
the step that adds it. -/
theorem Gains.modify {parent : Nat} {child : Node} (h : t.Gains parent child t')
    (properties : Properties) :
    t.Gains parent { child with properties }
      (t'.modify t.size fun n => { n with properties }) := by
  refine ⟨h.parent_lt, h.fresh, h.leaf, h.parent_eq, h.root_eq, ?_⟩
  intro i
  rw [node?_modify, h.node?_eq]
  by_cases hnew : i = t.size
  · simp only [hnew, if_true, Option.map_some]
  · simp only [hnew, if_false, Option.map_map]
    rfl

namespace Gains

variable {parent : Nat} {child : Node} (h : t.Gains parent child t')

include h

theorem node?_new : t'.node? t.size = some child := by
  rw [h.node?_eq, if_pos rfl]

theorem node?_of_node? {i : Nat} {n : Node} (hn : t.node? i = some n) :
    t'.node? i =
      some (if i = parent then { n with children := n.children ++ [t.size] } else n) := by
  have hold : i ≠ t.size := Nat.ne_of_lt (lt_size_of_node? hn)
  rw [h.node?_eq, if_neg hold, hn, Option.map_some]

theorem node?_of_ne {i : Nat} {n : Node} (hn : t.node? i = some n) (hi : i ≠ parent) :
    t'.node? i = some n := by
  rw [h.node?_of_node? hn, if_neg hi]

theorem exists_node?_parent : ∃ n, t.node? parent = some n :=
  ⟨t.nodes.get ⟨parent, h.parent_lt⟩, List.getElem?_eq_getElem h.parent_lt⟩

theorem eq_of_node? {i : Nat} {n : Node} (hn : t'.node? i = some n) :
    (i = t.size ∧ n = child) ∨
      ∃ m, t.node? i = some m ∧
        n = if i = parent then { m with children := m.children ++ [t.size] } else m := by
  rw [h.node?_eq] at hn
  split at hn
  next hnew => exact .inl ⟨hnew, (Option.some.inj hn).symm⟩
  next hold =>
    obtain ⟨m, hm, heq⟩ := Option.map_eq_some_iff.mp hn
    exact .inr ⟨m, hm, heq.symm⟩

/-- The links of a node: those of the new one, or the old ones and perhaps the new
child. -/
theorem links_of_node? {i : Nat} {n : Node} (hn : t'.node? i = some n) :
    (i = t.size ∧ n = child) ∨
      ∃ m, t.node? i = some m ∧ n.parent = m.parent ∧
        n.children = if i = parent then m.children ++ [t.size] else m.children := by
  rcases h.eq_of_node? hn with hnew | ⟨m, hm, rfl⟩
  · exact .inl hnew
  · refine .inr ⟨m, hm, ?_⟩
    split
    · exact ⟨rfl, rfl⟩
    · exact ⟨rfl, rfl⟩

theorem lists {i j : Nat} (hlists : t.Lists j i) : t'.Lists j i := by
  obtain ⟨m, hm, hi⟩ := hlists
  refine ⟨_, h.node?_of_node? hm, ?_⟩
  split
  · exact List.mem_append_left _ hi
  · exact hi

theorem lists_new : t'.Lists parent t.size := by
  obtain ⟨m, hm⟩ := h.exists_node?_parent
  refine ⟨_, h.node?_of_node? hm, ?_⟩
  rw [if_pos rfl]
  exact List.mem_append_right _ (List.mem_singleton_self _)

/-- What the children of a node that was there before say apart from their links. -/
theorem map_childrenOf (ht : t.IsLinked) {α : Type} (view : Node → α)
    (hview : ∀ n children, view { n with children } = view n) {i : Nat} {n : Node}
    (hn : t.node? i = some n) :
    (t'.childrenOf i).map (view ·.2) =
      (t.childrenOf i).map (view ·.2) ++ if i = parent then [view child] else [] := by
  have hsame : (n.children.filterMap fun c => (t'.node? c).map fun m => view m) =
      n.children.filterMap fun c => (t.node? c).map fun m => view m := by
    refine List.filterMap_congr ?_
    intro c hc
    obtain ⟨m, hm, -⟩ := ht.child hn hc
    rw [h.node?_of_node? hm, hm, Option.map_some, Option.map_some]
    split
    · exact congrArg some (hview m _)
    · rfl
  rw [map_childrenOf_of_node? view (h.node?_of_node? hn), map_childrenOf_of_node? view hn]
  by_cases hparent : i = parent
  · simp only [if_pos hparent, List.filterMap_append, hsame, List.filterMap_cons, h.node?_new,
      Option.map_some, List.filterMap_nil]
  · simp only [if_neg hparent, hsame, List.append_nil]

/-- What holds of the kinds of the children and of the kind of the new one. -/
theorem forall_childKinds (ht : t.IsLinked) {P : NodeKind → Prop} {m : Node}
    (hm : t.node? parent = some m) (hold : ∀ kind ∈ t.childKinds parent, P kind)
    (hchild : P child.kind) : ∀ kind ∈ t'.childKinds parent, P kind := by
  have hkinds := h.map_childrenOf ht Node.kind (fun _ _ => rfl) hm
  rw [if_pos rfl] at hkinds
  intro kind hk
  rw [childKinds, hkinds] at hk
  rcases List.mem_append.mp hk with hk | hk
  · exact hold kind hk
  · exact List.mem_singleton.mp hk ▸ hchild

/-- The children of the parent: the old ones, which are still what they were, and
the new one. -/
theorem childrenOf_parent (ht : t.IsLinked) :
    t'.childrenOf parent = t.childrenOf parent ++ [(t.size, child)] := by
  obtain ⟨n, hn⟩ := h.exists_node?_parent
  have hold : (n.children.filterMap fun c => (t'.node? c).map fun m => (c, m)) =
      t.childrenOf parent := by
    rw [childrenOf_of_node? hn]
    refine List.filterMap_congr ?_
    intro c hc
    obtain ⟨m, hm, hparent⟩ := ht.child hn hc
    have hne : c ≠ parent := Nat.ne_of_gt (ht.lt_of_parent hm hparent)
    rw [h.node?_of_ne hm hne, hm]
  rw [childrenOf_of_node? (h.node?_of_node? hn), if_pos rfl, List.filterMap_append, hold]
  simp only [List.filterMap_cons, h.node?_new, Option.map_some, List.filterMap_nil]

/-- The children of a node that neither is the parent nor has it for a child. -/
theorem childrenOf_of_ne (ht : t.IsLinked) {i : Nat} {n : Node} (hn : t.node? i = some n)
    (hi : i ≠ parent) (hchild : ∀ c ∈ t.childrenOf i, c.1 ≠ parent) :
    t'.childrenOf i = t.childrenOf i := by
  rw [childrenOf_of_node? (h.node?_of_ne hn hi), childrenOf_of_node? hn]
  refine List.filterMap_congr ?_
  intro c hc
  obtain ⟨m, hm, -⟩ := ht.child hn hc
  have hne : c ≠ parent := hchild (c, m) (mem_childrenOf_iff.mpr ⟨⟨n, hn, hc⟩, hm⟩)
  rw [h.node?_of_ne hm hne, hm]

theorem childrenOf_new : t'.childrenOf t.size = [] := by
  rw [childrenOf_of_node? h.node?_new, h.leaf, List.filterMap_nil]

theorem exists_child (ht : t.IsLinked) {i j : Nat} {m : Node} (hm : t'.node? j = some m)
    (hi : i ∈ m.children) : ∃ k, t'.node? i = some k ∧ k.parent = some j := by
  have hkept : ∀ {n}, t.node? j = some n → i ∈ n.children →
      ∃ k, t'.node? i = some k ∧ k.parent = some j := by
    intro n hn hi
    obtain ⟨k, hk, hj⟩ := ht.child hn hi
    refine ⟨_, h.node?_of_node? hk, ?_⟩
    split
    · exact hj
    · exact hj
  rcases h.links_of_node? hm with ⟨-, rfl⟩ | ⟨n, hn, -, hchildren⟩
  · rw [h.leaf] at hi
    cases hi
  · rw [hchildren] at hi
    by_cases hj : j = parent
    · rw [if_pos hj] at hi
      rcases List.mem_append.mp hi with hi | hi
      · exact hkept hn hi
      · rw [List.mem_singleton.mp hi]
        exact ⟨child, h.node?_new, hj ▸ h.parent_eq⟩
    · rw [if_neg hj] at hi
      exact hkept hn hi

theorem nodup_children (ht : t.IsLinked) {j : Nat} {m : Node} (hm : t'.node? j = some m) :
    m.children.Nodup := by
  rcases h.links_of_node? hm with ⟨-, rfl⟩ | ⟨n, hn, -, hchildren⟩
  · rw [h.leaf]
    exact List.nodup_nil
  · rw [hchildren]
    by_cases hj : j = parent
    · rw [if_pos hj]
      refine List.nodup_append.mpr ⟨ht.nodup hn, List.nodup_singleton _, ?_⟩
      rintro i hi fresh hfresh rfl
      obtain ⟨k, hk, -⟩ := ht.child hn hi
      rw [List.mem_singleton.mp hfresh, node?_size] at hk
      cases hk
    · rw [if_neg hj]
      exact ht.nodup hn

theorem pairwise_childNames (ht : t.IsLinked) (j : Nat) :
    (t'.childNames j).Pairwise fun a b => Text.asciiEq a b = false := by
  cases hj : t'.node? j with
  | none =>
      rw [childNames, childrenOf_eq_nil hj]
      exact .nil
  | some m =>
      rcases h.links_of_node? hj with ⟨rfl, -⟩ | ⟨n, hn, -⟩
      · rw [childNames, h.childrenOf_new]
        exact .nil
      · rw [childNames, h.map_childrenOf ht Node.name (fun _ _ => rfl) hn]
        by_cases heq : j = parent
        · rw [if_pos heq]
          refine List.pairwise_append.mpr ⟨ht.apart j, List.pairwise_singleton _ _, ?_⟩
          intro other hother fresh hfresh
          rw [List.mem_singleton.mp hfresh]
          exact ne_of_childNamed?_eq_none h.fresh other (heq ▸ hother)
        · rw [if_neg heq, List.append_nil]
          exact ht.apart j

/-- Gaining a child keeps an arena linked. -/
theorem isLinked (ht : t.IsLinked) : t'.IsLinked := by
  have hparent := h.parent_lt
  constructor
  case root_eq => exact h.root_eq.trans ht.root_eq
  case root_parent =>
    intro n hn
    rcases h.links_of_node? hn with ⟨hsize, -⟩ | ⟨m, hm, hlink, -⟩
    · omega
    · exact hlink.trans (ht.root_parent hm)
  case parent_lt =>
    intro i n hn hi
    rcases h.links_of_node? hn with ⟨rfl, rfl⟩ | ⟨m, hm, hlink, -⟩
    · exact ⟨parent, hparent, h.parent_eq⟩
    · rw [hlink]
      exact ht.parent_lt hm hi
  case listed =>
    intro i j n hn hj
    rcases h.links_of_node? hn with ⟨rfl, rfl⟩ | ⟨m, hm, hlink, -⟩
    · rw [h.parent_eq, Option.some.injEq] at hj
      exact hj ▸ h.lists_new
    · exact h.lists (ht.listed hm (hlink ▸ hj))
  case child => exact h.exists_child ht
  case nodup => exact h.nodup_children ht
  case apart => exact h.pairwise_childNames ht

end Gains

theorem node?_new {name description : String} {i : Nat} {n : Node}
    (h : (new name description).node? i = some n) :
    i = 0 ∧ n = { kind := .root, name, description } := by
  cases i with
  | zero => exact ⟨rfl, (Option.some.inj h).symm⟩
  | succ i => cases h

theorem childrenOf_new (name description : String) (i : Nat) :
    (new name description).childrenOf i = [] := by
  cases i with
  | zero => rfl
  | succ i => rfl

theorem isLinked_new (name description : String) : (new name description).IsLinked := by
  constructor
  case root_eq => rfl
  case root_parent =>
    intro n hn
    rw [(node?_new hn).2]
  case parent_lt => exact fun hn hi => absurd (node?_new hn).1 hi
  case listed =>
    intro i j n hn hj
    rw [(node?_new hn).2] at hj
    cases hj
  case child =>
    intro i j m hm hi
    rw [(node?_new hm).2] at hi
    cases hi
  case nodup =>
    intro j m hm
    rw [(node?_new hm).2]
    exact List.nodup_nil
  case apart =>
    intro j
    rw [childNames, childrenOf_new]
    exact .nil

/-! ## Reaching -/

/-- In a linked arena a way down leads from the root to every node. -/
theorem IsLinked.reachable (ht : t.IsLinked) {i : Nat} {n : Node} (hn : t.node? i = some n) :
    Relation.ReflTransGen t.Lists t.root i := by
  -- Parents have smaller numbers than their children.
  induction i using Nat.strongRecOn generalizing n with
  | ind i ih =>
      rw [ht.root_eq]
      by_cases hi : i = 0
      · rw [hi]
      · obtain ⟨j, hj, hparent⟩ := ht.parent_lt hn hi
        have hlists := ht.listed hn hparent
        obtain ⟨m, hm, hmem⟩ := hlists
        have hdown := ih j hj hm
        rw [ht.root_eq] at hdown
        exact hdown.tail ⟨m, hm, hmem⟩

/-- A child stands among the children of its parent exactly once. -/
theorem IsLinked.count_children (ht : t.IsLinked) {i j : Nat} {m : Node}
    (hm : t.node? j = some m) (hi : i ∈ m.children) : m.children.count i = 1 :=
  List.count_eq_one_of_mem (ht.nodup hm) hi

end ChatCommands.Schema.Tree
