import Mathlib.Algebra.Order.BigOperators.Group.List
import Mathlib.Algebra.Order.Group.Nat
import Mathlib.Data.List.Perm.Subperm
import ChatCommands.Proofs.Schema.Bounds
import ChatCommands.Proofs.Schema.Shape

/-!
# How large a tree can be

Every node of a tree that was laid out stands at most three steps below the root, and no node
has more than 25 children.
-/

namespace ChatCommands.Schema

namespace Tree

variable {t : Tree} {i j depth : Nat}

/-- The nodes that stand a number of steps below the root. -/
def level (t : Tree) : Nat → List Nat
  | 0 => [t.root]
  | depth + 1 => (t.level depth).flatMap fun id => ((t.node? id).map Node.children).getD []

theorem mem_level_succ (hj : j ∈ t.level depth) (hlists : t.Lists j i) :
    i ∈ t.level (depth + 1) := by
  obtain ⟨n, hn, hi⟩ := hlists
  rw [level, List.mem_flatMap]
  refine ⟨j, hj, ?_⟩
  rw [hn]
  exact hi

/-- Where no node has too many children, the levels grow by that number at most. -/
theorem length_level_le {width : Nat}
    (h : ∀ {i n}, t.node? i = some n → n.children.length ≤ width) (depth : Nat) :
    (t.level depth).length ≤ width ^ depth := by
  induction depth with
  | zero => exact Nat.le_refl _
  | succ depth ih =>
      let below (id : Nat) : Nat := (((t.node? id).map Node.children).getD []).length
      have hbelow : ∀ count ∈ (t.level depth).map below, count ≤ width := by
        intro count hcount
        obtain ⟨id, -, rfl⟩ := List.mem_map.mp hcount
        cases hn : t.node? id with
        | none => simp [below, hn]
        | some n => simpa [below, hn] using h hn
      calc (t.level (depth + 1)).length = ((t.level depth).map below).sum := List.length_flatMap
        _ ≤ ((t.level depth).map below).length * width := List.sum_le_card_nsmul _ _ hbelow
        _ = (t.level depth).length * width := by rw [List.length_map]
        _ ≤ width ^ depth * width := Nat.mul_le_mul_right width ih
        _ = width ^ (depth + 1) := rfl

end Tree

namespace Vocabulary

variable {v : Vocabulary} {root : String} {commands : List CommandInfo} {groups : List Group}
  {t : Tree}

namespace Shaped

variable (h : v.Shaped root commands t) {i : Nat} {n : Node}

include h

theorem zero_mem_level : 0 ∈ t.level 0 := by
  rw [Tree.level, h.root_eq]
  exact List.mem_singleton_self 0

/-- A node other than the root is listed by a node that is no parameter. -/
theorem exists_lists (hn : t.node? i = some n) (hi : i ≠ 0) :
    ∃ j m, t.Lists j i ∧ t.node? j = some m ∧ m.kind ≠ .parameter ∧ (i, n) ∈ t.childrenOf j := by
  obtain ⟨j, m, -, -, hm, hcount, -⟩ := h.parent hn hi
  have hlisted : i ∈ m.children := List.count_pos_iff.mp (by omega)
  refine ⟨j, m, ⟨m, hm, hlisted⟩, hm, ?_, Tree.mem_childrenOf_iff.mpr ⟨⟨m, hm, hlisted⟩, hn⟩⟩
  intro hkind
  rw [h.parameter hm hkind] at hlisted
  cases hlisted

theorem mem_level_of_group (hn : t.node? i = some n) (hkind : n.kind = .group) :
    i ∈ t.level 1 := by
  have hi : i ≠ 0 := fun hi => by simp [(h.only_root hn).mpr hi] at hkind
  obtain ⟨j, m, -, hup, hm, hcount, -⟩ := h.parent hn hi
  obtain rfl : j = 0 := Option.some.inj (hup.symm.trans (h.group hn hkind).1)
  exact Tree.mem_level_succ h.zero_mem_level ⟨m, hm, List.count_pos_iff.mp (by omega)⟩

theorem mem_level_of_subcommand (hn : t.node? i = some n) (hkind : n.kind = .subcommand) :
    i ∈ t.level 1 ∨ i ∈ t.level 2 := by
  have hi : i ≠ 0 := fun hi => by simp [(h.only_root hn).mpr hi] at hkind
  obtain ⟨j, m, hlists, hm, hparameter, hchild⟩ := h.exists_lists hn hi
  cases hup : m.kind with
  | root =>
      obtain rfl := (h.only_root hm).mp hup
      exact .inl (Tree.mem_level_succ h.zero_mem_level hlists)
  | group => exact .inr (Tree.mem_level_succ (h.mem_level_of_group hm hup) hlists)
  | subcommand =>
      have hother := h.subcommand hm hup _ hchild
      simp [hkind] at hother
  | parameter => exact absurd hup hparameter

/-- A node stands below the root, below a group or below a subcommand, or is the root. -/
theorem mem_level (hn : t.node? i = some n) : ∃ depth < 4, i ∈ t.level depth := by
  cases hkind : n.kind with
  | root => exact ⟨0, by decide, (h.only_root hn).mp hkind ▸ h.zero_mem_level⟩
  | group => exact ⟨1, by decide, h.mem_level_of_group hn hkind⟩
  | subcommand =>
      rcases h.mem_level_of_subcommand hn hkind with hlevel | hlevel
      · exact ⟨1, by decide, hlevel⟩
      · exact ⟨2, by decide, hlevel⟩
  | parameter =>
      have hi : i ≠ 0 := fun hi => by simp [(h.only_root hn).mpr hi] at hkind
      obtain ⟨j, m, hlists, hm, hparameter, hchild⟩ := h.exists_lists hn hi
      cases hup : m.kind with
      | root =>
          obtain rfl := (h.only_root hm).mp hup
          exact ⟨1, by decide, Tree.mem_level_succ h.zero_mem_level hlists⟩
      | group =>
          have hother := (h.group hm hup).2.2 _ hchild
          simp [hkind] at hother
      | subcommand =>
          rcases h.mem_level_of_subcommand hm hup with hlevel | hlevel
          · exact ⟨2, by decide, Tree.mem_level_succ hlevel hlists⟩
          · exact ⟨3, by decide, Tree.mem_level_succ hlevel hlists⟩
      | parameter => exact absurd hup hparameter

end Shaped

/-- The name of a tree that was laid out has 1 to 32 characters. -/
theorem length_name_of_layout (h : v.layout root commands groups = .ok t) :
    1 ≤ t.name.length ∧ t.name.length ≤ 32 := by
  obtain ⟨-, -, -, -, hlimits⟩ := layout_eq_ok h
  exact (Tree.check_eq_ok_iff.mp hlimits t.node?_root).1.name

/-- A tree that was laid out has at most 16276 nodes. -/
theorem size_le_of_layout (h : v.layout root commands groups = .ok t) : t.size ≤ 16276 := by
  obtain ⟨hchecked, -, -, -, hlimits⟩ := layout_eq_ok h
  obtain ⟨bare, hgrown⟩ := grown_layout h
  have hshaped := hgrown.shaped hchecked hlimits
  have hwidth : ∀ {i n}, t.node? i = some n → n.children.length ≤ 25 := by
    intro i n hn
    exact (Tree.check_eq_ok_iff.mp hlimits hn).1.children
  have hlength := Tree.length_level_le hwidth
  let levels := t.level 0 ++ (t.level 1 ++ (t.level 2 ++ t.level 3))
  have hall : List.range t.size ⊆ levels := by
    intro i hi
    obtain ⟨n, hn⟩ : ∃ n, t.node? i = some n :=
      ⟨_, List.getElem?_eq_getElem (List.mem_range.mp hi)⟩
    obtain ⟨depth, hdepth, hmem⟩ := hshaped.mem_level hn
    simp only [levels, List.mem_append]
    match depth, hdepth, hmem with
    | 0, _, hmem => exact .inl hmem
    | 1, _, hmem => exact .inr (.inl hmem)
    | 2, _, hmem => exact .inr (.inr (.inl hmem))
    | 3, _, hmem => exact .inr (.inr (.inr hmem))
  have hle := (List.subperm_of_subset List.nodup_range hall).length_le
  simp only [levels, List.length_range, List.length_append] at hle
  have h0 := hlength 0
  have h1 := hlength 1
  have h2 := hlength 2
  have h3 := hlength 3
  omega

end Vocabulary

end ChatCommands.Schema
