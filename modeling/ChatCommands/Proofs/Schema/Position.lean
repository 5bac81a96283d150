import Mathlib.Data.List.Lex
import Mathlib.Data.Option.Basic
import ChatCommands.Proofs.Schema.Agreement
import ChatCommands.Proofs.Schema.Arena

/-!
# Positions

A position says how to walk down a tree: which child to take first, which child of that one
next, and so on.  Two trees are compared by what stands at the same positions, so that the
numbers of the nodes make no difference.  For trees whose links agree, this is what the
comparison with fuel decides.
-/

namespace ChatCommands.Schema.Tree

variable {a b c t : Tree} {i j fuel : Nat} {x y : Node}

/-- The number of the node that is reached from another by taking children at the given
places. -/
def descend (t : Tree) (i : Nat) : List Nat → Option Nat
  | [] => some i
  | k :: rest => (t.node? i).bind fun n => n.children[k]?.bind fun child => t.descend child rest

/-- The node at a position below another. -/
def below? (t : Tree) (i : Nat) (position : List Nat) : Option Node :=
  (t.descend i position).bind t.node?

theorem below?_nil (t : Tree) (i : Nat) : t.below? i [] = t.node? i := rfl

theorem descend_cons (hx : t.node? i = some x) (k : Nat) (rest : List Nat) :
    t.descend i (k :: rest) = x.children[k]?.bind fun child => t.descend child rest := by
  rw [descend, hx, Option.bind_some]

theorem below?_cons (hx : t.node? i = some x) (k : Nat) (rest : List Nat) :
    t.below? i (k :: rest) = x.children[k]?.bind fun child => t.below? child rest := by
  rw [below?, descend_cons hx, Option.bind_assoc]
  rfl

theorem rel_agrees_symm {m n : Option Node} (h : Option.Rel Node.Agrees m n) :
    Option.Rel Node.Agrees n m := by
  cases h with
  | some h => exact .some h.symm
  | none => exact .none

theorem rel_agrees_trans {l m n : Option Node} (hlm : Option.Rel Node.Agrees l m)
    (hmn : Option.Rel Node.Agrees m n) : Option.Rel Node.Agrees l n := by
  cases hlm with
  | some hlm =>
      cases hmn with
      | some hmn => exact .some (hlm.trans hmn)
  | none => exact hmn

/-- At a position below two nodes there is nothing on both sides, or nodes that agree. -/
def AgreesBelow (a b : Tree) (i j : Nat) (position : List Nat) : Prop :=
  Option.Rel Node.Agrees (a.below? i position) (b.below? j position)

/-! ## Fuel -/

/-- A child of a node: it exists, and its number is greater. -/
theorem IsLinked.exists_greater (ht : t.IsLinked) (hx : t.node? i = some x) {k child : Nat}
    (hk : x.children[k]? = some child) : ∃ n, t.node? child = some n ∧ i < child := by
  obtain ⟨n, hn, hparent⟩ := ht.child hx (List.mem_of_getElem? hk)
  exact ⟨n, hn, ht.lt_of_parent hn hparent⟩

theorem sameBelow_succ (hx : a.node? i = some x) (hy : b.node? j = some y) :
    a.sameBelow b (fuel + 1) i j = true ↔
      x.Agrees y ∧ x.children.length = y.children.length ∧
        ∀ pair ∈ x.children.zip y.children, a.sameBelow b fuel pair.1 pair.2 = true := by
  rw [sameBelow, hx, hy, ← Node.sameFields_iff]
  simp only [Bool.and_eq_true, beq_iff_eq, List.all_eq_true, and_assoc]

/-- Children at the same place of two nodes: both of them exist, and their numbers are
greater. -/
theorem exists_children (ha : a.IsLinked) (hb : b.IsLinked) (hx : a.node? i = some x)
    (hy : b.node? j = some y) {k : Nat} {pair : Nat × Nat}
    (hpair : (x.children.zip y.children)[k]? = some pair) :
    ∃ m n, a.node? pair.1 = some m ∧ b.node? pair.2 = some n ∧ i < pair.1 := by
  obtain ⟨hleft, hright⟩ := List.getElem?_zip_eq_some.mp hpair
  obtain ⟨m, hm, hlt⟩ := ha.exists_greater hx hleft
  obtain ⟨n, hn, -⟩ := hb.exists_greater hy hright
  exact ⟨m, n, hm, hn, hlt⟩

theorem agreesBelow_cons (hx : a.node? i = some x) (hy : b.node? j = some y)
    (hlength : x.children.length = y.children.length) (k : Nat) (rest : List Nat) :
    a.AgreesBelow b i j (k :: rest) ↔
      ∀ pair, (x.children.zip y.children)[k]? = some pair →
        a.AgreesBelow b pair.1 pair.2 rest := by
  rw [AgreesBelow, below?_cons hx, below?_cons hy]
  by_cases hk : k < x.children.length
  · have hk' : k < y.children.length := hlength ▸ hk
    have hpair : (x.children.zip y.children)[k]? = some (x.children[k], y.children[k]) :=
      List.getElem?_zip_eq_some.mpr ⟨List.getElem?_eq_getElem hk, List.getElem?_eq_getElem hk'⟩
    rw [List.getElem?_eq_getElem hk, List.getElem?_eq_getElem hk', hpair]
    simp [AgreesBelow]
  · have hnone : x.children[k]? = none := List.getElem?_eq_none (Nat.le_of_not_lt hk)
    have hnone' : y.children[k]? = none :=
      List.getElem?_eq_none (hlength ▸ Nat.le_of_not_lt hk)
    have hpair : (x.children.zip y.children)[k]? = none := by
      apply List.getElem?_eq_none
      rw [List.length_zip, ← hlength, Nat.min_self]
      exact Nat.le_of_not_lt hk
    rw [hnone, hnone', hpair]
    simp

/-- Nodes with agreeing children have as many of them. -/
theorem length_le_of_agreesBelow (ha : a.IsLinked) (hx : a.node? i = some x)
    (hy : b.node? j = some y) (h : ∀ position, a.AgreesBelow b i j position) :
    x.children.length ≤ y.children.length := by
  by_contra hless
  -- The first place behind the children of the one node is taken in the other.
  have hk : y.children.length < x.children.length := Nat.lt_of_not_le hless
  have hplace := h [y.children.length]
  rw [AgreesBelow, below?_cons hx, below?_cons hy, List.getElem?_eq_getElem hk,
    List.getElem?_eq_none (Nat.le_refl _)] at hplace
  obtain ⟨n, hn, -⟩ := ha.exists_greater hx (List.getElem?_eq_getElem hk)
  rw [Option.bind_some, below?_nil, hn] at hplace
  cases hplace

/-- With enough fuel, two nodes are the same if what stands at every position below them
agrees. -/
theorem sameBelow_iff (ha : a.IsLinked) (hb : b.IsLinked) (hx : a.node? i = some x)
    (hy : b.node? j = some y) (hfuel : a.size < i + fuel) :
    a.sameBelow b fuel i j = true ↔ ∀ position, a.AgreesBelow b i j position := by
  induction fuel generalizing i j x y with
  | zero =>
      have hlast := lt_size_of_node? hx
      omega
  | succ fuel ih =>
      have hchild : ∀ {k : Nat} {pair : Nat × Nat},
          (x.children.zip y.children)[k]? = some pair →
            (a.sameBelow b fuel pair.1 pair.2 = true ↔
              ∀ position, a.AgreesBelow b pair.1 pair.2 position) := by
        intro k pair hpair
        obtain ⟨m, n, hm, hn, hlt⟩ := exists_children ha hb hx hy hpair
        exact ih hm hn (by omega)
      rw [sameBelow_succ hx hy]
      constructor
      · rintro ⟨hagrees, hlength, hall⟩ position
        cases position with
        | nil =>
            rw [AgreesBelow, below?_nil, below?_nil, hx, hy]
            exact .some hagrees
        | cons k rest =>
            rw [agreesBelow_cons hx hy hlength]
            intro pair hpair
            exact (hchild hpair).mp (hall pair (List.mem_of_getElem? hpair)) rest
      · intro h
        have hhere := h []
        rw [AgreesBelow, below?_nil, below?_nil, hx, hy] at hhere
        have hlength : x.children.length = y.children.length :=
          Nat.le_antisymm (length_le_of_agreesBelow ha hx hy h)
            (length_le_of_agreesBelow hb hy hx fun position => rel_agrees_symm (h position))
        have hagrees : x.Agrees y := by
          cases hhere with
          | some hagrees => exact hagrees
        refine ⟨hagrees, hlength, ?_⟩
        intro pair hmem
        obtain ⟨k, hpair⟩ := List.mem_iff_getElem?.mp hmem
        apply (hchild hpair).mpr
        intro position
        exact (agreesBelow_cons hx hy hlength k position).mp (h (k :: position)) pair hpair

/-- Trees are the same if what stands at every position agrees. -/
theorem same_iff (ha : a.IsLinked) (hb : b.IsLinked) :
    a.same b = true ↔ ∀ position, a.AgreesBelow b a.root b.root position := by
  apply sameBelow_iff ha hb a.node?_root b.node?_root
  omega

theorem IsLinked.same_refl (ha : a.IsLinked) : a.same a = true := by
  apply (same_iff ha ha).mpr
  intro position
  rw [AgreesBelow]
  cases a.below? a.root position with
  | none => exact .none
  | some n => exact .some n.agrees_refl

theorem same_symm (ha : a.IsLinked) (hb : b.IsLinked) (h : a.same b = true) :
    b.same a = true := by
  rw [same_iff hb ha]
  rw [same_iff ha hb] at h
  exact fun position => rel_agrees_symm (h position)

theorem same_trans (ha : a.IsLinked) (hb : b.IsLinked) (hc : c.IsLinked)
    (hab : a.same b = true) (hbc : b.same c = true) : a.same c = true := by
  rw [same_iff ha hc]
  rw [same_iff ha hb] at hab
  rw [same_iff hb hc] at hbc
  exact fun position => rel_agrees_trans (hab position) (hbc position)

/-! ## Other numbers -/

/-- The nodes of a tree stand in another one under other numbers.  Marks of confirmation
may differ. -/
structure Renumbers (number : Nat → Nat) (a b : Tree) : Prop where
  root : b.root = number a.root
  node : ∀ {i x}, a.node? i = some x → ∃ y, b.node? (number i) = some y ∧ x.Agrees y ∧
    y.children = x.children.map number

namespace Renumbers

variable {number : Nat → Nat} (h : Renumbers number a b)

include h

theorem agreesBelow (ha : a.IsLinked) (hx : a.node? i = some x) (position : List Nat) :
    a.AgreesBelow b i (number i) position := by
  induction position generalizing i x with
  | nil =>
      obtain ⟨y, hy, hagrees, -⟩ := h.node hx
      rw [AgreesBelow, below?_nil, below?_nil, hx, hy]
      exact .some hagrees
  | cons k rest ih =>
      obtain ⟨y, hy, -, hchildren⟩ := h.node hx
      rw [AgreesBelow, below?_cons hx, below?_cons hy, hchildren, List.getElem?_map]
      cases hk : x.children[k]? with
      | none => exact .none
      | some child =>
          obtain ⟨n, hn, -⟩ := ha.exists_greater hx hk
          exact ih hn

/-- Under other numbers a tree is still the same. -/
theorem same (ha : a.IsLinked) (hb : b.IsLinked) : a.same b = true := by
  rw [same_iff ha hb, h.root]
  exact h.agreesBelow ha a.node?_root

end Renumbers

/-! ## The mark of confirmation -/

theorem node?_markRegistered (t : Tree) (i : Nat) :
    t.markRegistered.node? i =
      (t.node? i).map fun n => if i = t.root then { n with registered := true } else n :=
  node?_modify t t.root _ i

theorem size_markRegistered (t : Tree) : t.markRegistered.size = t.size :=
  List.length_modify _ _ _

theorem sameBelow_markRegistered_left (a b : Tree) (fuel i j : Nat) :
    a.markRegistered.sameBelow b fuel i j = a.sameBelow b fuel i j := by
  induction fuel generalizing i j with
  | zero => rfl
  | succ fuel ih =>
      rw [sameBelow, sameBelow, node?_markRegistered]
      simp only [ih]
      cases a.node? i with
      | none => rfl
      | some x =>
          by_cases hroot : i = a.root
          · simp only [hroot, if_true, Option.map_some]
            cases b.node? j with
            | none => rfl
            | some y => rfl
          · simp only [hroot, if_false, Option.map_some]

theorem sameBelow_markRegistered_right (a b : Tree) (fuel i j : Nat) :
    a.sameBelow b.markRegistered fuel i j = a.sameBelow b fuel i j := by
  induction fuel generalizing i j with
  | zero => rfl
  | succ fuel ih =>
      rw [sameBelow, sameBelow, node?_markRegistered]
      simp only [ih]
      cases b.node? j with
      | none => rfl
      | some y =>
          by_cases hroot : j = b.root
          · simp only [hroot, if_true, Option.map_some]
            cases a.node? i with
            | none => rfl
            | some x => rfl
          · simp only [hroot, if_false, Option.map_some]

@[simp]
theorem same_markRegistered_left (a b : Tree) : a.markRegistered.same b = a.same b := by
  rw [same, size_markRegistered]
  exact sameBelow_markRegistered_left a b _ _ _

@[simp]
theorem same_markRegistered_right (a b : Tree) : a.same b.markRegistered = a.same b :=
  sameBelow_markRegistered_right a b _ _ _

end ChatCommands.Schema.Tree
