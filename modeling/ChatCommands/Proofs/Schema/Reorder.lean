import Mathlib.Data.List.Perm.Basic
import ChatCommands.Proofs.Schema.Placing

/-!
# Trees up to the order of children

Two trees may number their nodes differently and still show the same.  Nodes are matched
with what hangs below them: subcommands and groups may change places among their siblings,
and parameters may not.
-/

namespace ChatCommands.Schema

/-- Related elements may be taken to be elements of their lists. -/
theorem forall₂_imp_of_mem {α β : Type} {R S : α → β → Prop} {xs : List α} {ys : List β}
    (h : List.Forall₂ R xs ys) (hS : ∀ x ∈ xs, ∀ y ∈ ys, R x y → S x y) : List.Forall₂ S xs ys := by
  rw [List.forall₂_iff_zip] at h ⊢
  refine ⟨h.1, fun {x y} hpair => ?_⟩
  obtain ⟨hx, hy⟩ := List.of_mem_zip hpair
  exact hS x hx y hy (h.2 hpair)

/-- What goes by the same different names on both sides can be put into one order. -/
theorem exists_perm_forall₂ {α β κ : Type} {f : α → κ} {g : β → κ} {R : α → β → Prop}
    {xs : List α} {ys : List β} (hxs : (xs.map f).Nodup) (hys : (ys.map g).Nodup)
    (hto : ∀ x ∈ xs, ∃ y ∈ ys, f x = g y ∧ R x y) (hfrom : ∀ y ∈ ys, ∃ x ∈ xs, f x = g y) :
    ∃ zs : List α, zs.Perm xs ∧ List.Forall₂ R zs ys := by
  have hnames : (ys.map g).Perm (xs.map f) := by
    refine (List.perm_ext_iff_of_nodup hys hxs).mpr fun name => ?_
    constructor
    · intro hname
      obtain ⟨y, hy, rfl⟩ := List.mem_map.mp hname
      obtain ⟨x, hx, hxy⟩ := hfrom y hy
      exact List.mem_map.mpr ⟨x, hx, hxy⟩
    · intro hname
      obtain ⟨x, hx, rfl⟩ := List.mem_map.mp hname
      obtain ⟨y, hy, hxy, -⟩ := hto x hx
      exact List.mem_map.mpr ⟨y, hy, hxy.symm⟩
  have hnamed : List.Forall₂ (fun name x => f x = name) (xs.map f) xs := by
    rw [List.forall₂_map_left_iff]
    exact List.forall₂_same.mpr fun x _ => rfl
  -- The elements follow their names, which stand in the order of the other side.
  obtain ⟨zs, hzs, hperm⟩ := List.perm_comp_forall₂ hnames hnamed
  rw [List.forall₂_map_left_iff] at hzs
  refine ⟨zs, hperm, forall₂_imp_of_mem hzs.flip fun x hx y hy hxy => ?_⟩
  obtain ⟨y', hy', hxy', hR⟩ := hto x (hperm.subset hx)
  rwa [List.inj_on_of_nodup_map hys hy hy' (hxy.symm.trans hxy')]

/-- What a node says apart from its links. -/
def Node.unlinked (n : Node) : Node :=
  { n with children := [], parent := none }

theorem Node.unlinked_eq_iff {x y : Node} :
    x.unlinked = y.unlinked ↔ x.kind = y.kind ∧ x.name = y.name ∧ x.description = y.description ∧
      x.properties = y.properties ∧ x.registered = y.registered := by
  simp [unlinked]

namespace Tree

/-- Nodes of two trees say the same, and what hangs below them is matched one to one.
Matched children stand in the same order, unless they hang below the root or a group and
none of them is a parameter. -/
inductive SameUpToOrder (a b : Tree) : Nat → Nat → Prop
  | node {i j : Nat} {x y : Node} {order : List Nat} (left : a.node? i = some x)
      (right : b.node? j = some y) (fields : x.unlinked = y.unlinked)
      (perm : order.Perm x.children)
      (kept : order = x.children ∨
        (x.kind = .root ∨ x.kind = .group) ∧ NodeKind.parameter ∉ a.childKinds i)
      (below : List.Forall₂ (SameUpToOrder a b) order y.children) : SameUpToOrder a b i j

variable {a b t : Tree}

theorem IsLinked.nodup_childNames (ht : t.IsLinked) (i : Nat) : (t.childNames i).Nodup := by
  refine (ht.apart i).imp ?_
  rintro name _ hfalse rfl
  rw [Text.asciiEq_refl] at hfalse
  cases hfalse

namespace SameUpToOrder

theorem of_perm (ha : a.IsLinked) (hb : b.IsLinked) {i j : Nat} {x y : Node}
    (hx : a.node? i = some x) (hy : b.node? j = some y) (hfields : x.unlinked = y.unlinked)
    {order : List (Nat × Node)} (hperm : order.Perm (a.childrenOf i))
    (hkept : order = a.childrenOf i ∨
      (x.kind = .root ∨ x.kind = .group) ∧ NodeKind.parameter ∉ a.childKinds i)
    (hbelow : List.Forall₂ (fun x y => a.SameUpToOrder b x.1 y.1) order (b.childrenOf j)) :
    a.SameUpToOrder b i j := by
  have hids : (order.map (·.1)).Perm x.children := ha.map_fst_childrenOf hx ▸ hperm.map _
  refine .node hx hy hfields hids (hkept.imp_left fun hsame => ?_) ?_
  · rw [hsame, ha.map_fst_childrenOf hx]
  · rw [← hb.map_fst_childrenOf hy, List.forall₂_map_left_iff, List.forall₂_map_right_iff]
    exact hbelow

/-- Matching children by their names. -/
theorem of_names (ha : a.IsLinked) (hb : b.IsLinked) {i j : Nat} {x y : Node}
    (hx : a.node? i = some x) (hy : b.node? j = some y) (hfields : x.unlinked = y.unlinked)
    (hkind : x.kind = .root ∨ x.kind = .group)
    (hchildren : ∀ child ∈ a.childrenOf i, child.2.kind ≠ .parameter)
    (hto : ∀ child ∈ a.childrenOf i, ∃ other ∈ b.childrenOf j, child.2.name = other.2.name ∧
      a.SameUpToOrder b child.1 other.1)
    (hfrom : ∀ other ∈ b.childrenOf j, ∃ child ∈ a.childrenOf i, child.2.name = other.2.name) :
    a.SameUpToOrder b i j := by
  obtain ⟨order, hperm, hbelow⟩ :=
    exists_perm_forall₂ (ha.nodup_childNames i) (hb.nodup_childNames j) hto hfrom
  refine .of_perm ha hb hx hy hfields hperm (.inr ⟨hkind, fun hmem => ?_⟩) hbelow
  obtain ⟨child, hchild, hparameter⟩ := List.mem_map.mp hmem
  exact hchildren child hchild hparameter

/-- Every node of the second tree is matched. -/
theorem exists_left (h : a.SameUpToOrder b a.root b.root) (hb : b.IsLinked) {j : Nat} {y : Node}
    (hy : b.node? j = some y) : ∃ i, a.SameUpToOrder b i j := by
  have hreach := hb.reachable hy
  clear hy
  induction hreach with
  | refl => exact ⟨a.root, h⟩
  | tail _ hlists ih =>
      obtain ⟨i, hi⟩ := ih
      obtain ⟨n, hn, hmem⟩ := hlists
      cases hi with
      | node _ right _ _ _ below =>
          obtain rfl := Option.some.inj (hn.symm.trans right)
          obtain ⟨k, hk, rfl⟩ := List.mem_iff_getElem.mp hmem
          exact ⟨_, below.get (below.length_eq ▸ hk) hk⟩

/-- The limits do not see the order of children. -/
theorem check_eq_ok (h : a.SameUpToOrder b a.root b.root) (hb : b.IsLinked)
    (hcheck : a.check = .ok ()) : b.check = .ok () := by
  rw [check, forM_eq_ok]
  rintro ⟨y, j⟩ hmem
  have hy : b.node? j = some y := List.mem_zipIdx_iff_getElem?.mp hmem
  obtain ⟨i, hi⟩ := h.exists_left hb hy
  cases hi with
  | @node _ _ x _ order left right fields perm _ below =>
      obtain rfl := Option.some.inj (hy.symm.trans right)
      obtain ⟨hkind, hname, hdescription, -⟩ := Node.unlinked_eq_iff.mp fields
      have hlength : x.children.length = y.children.length :=
        perm.length_eq.symm.trans below.length_eq
      have hchecked := checkNode_eq_ok_iff.mp (checkNode_of_check hcheck left)
      rw [← List.length_eq_zero_iff, hname, hdescription, hkind, hlength,
        List.length_eq_zero_iff] at hchecked
      exact checkNode_eq_ok_iff.mpr hchecked

end SameUpToOrder

theorem IsLinked.sameUpToOrder_refl (ht : t.IsLinked) {i : Nat} {n : Node}
    (hn : t.node? i = some n) : t.SameUpToOrder t i i := by
  -- Children have greater numbers, and these end at the size of the tree.
  induction hleft : t.size - i using Nat.strongRecOn generalizing i n with
  | ind left ih =>
      refine .of_perm ht ht hn hn rfl (List.Perm.refl _) (.inl rfl) ?_
      refine List.forall₂_same.mpr ?_
      rintro ⟨c, m⟩ hchild
      obtain ⟨hm, hparent⟩ := ht.mem_childrenOf_iff.mp hchild
      have hlater := ht.lt_of_parent hm hparent
      have hlast := lt_size_of_node? hm
      exact ih (t.size - c) (by omega) hm rfl

end Tree

end ChatCommands.Schema
