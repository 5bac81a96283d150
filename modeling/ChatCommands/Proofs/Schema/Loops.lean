import Mathlib.Data.List.Duplicate
import Mathlib.Data.List.Perm.Subperm
import ChatCommands.Proofs.Schema.Bounds
import ChatCommands.Proofs.Schema.Snapshot

/-!
# Loops in an arena

Reading a snapshot checks that its links lead to nodes.  It does not check that they lead
anywhere else than back, so that a node may be its own ancestor.  A walk along the links comes
to an end if there is no loop: a way of as many links as there are nodes meets a node twice.
Conversely a walk around a loop takes any number of steps.  Trees that were laid out have no
loops, because children have greater numbers than their parents.
-/

namespace ChatCommands.Schema

/-! ## Ways through numbers -/

section Ways

open Relation

variable {R : Nat → Nat → Prop} {bound i j n : Nat}

/-- A way of some length leads on from a number. -/
def GoesOn (R : Nat → Nat → Prop) : Nat → Nat → Prop
  | 0, _ => True
  | n + 1, i => ∃ j, R i j ∧ GoesOn R n j

/-- Around a loop a way can have any length. -/
theorem goesOn_of_loop (h : TransGen R i i) (n : Nat) : GoesOn R n i := by
  induction n generalizing i with
  | zero => trivial
  | succ n ih =>
      obtain ⟨j, hij, hji⟩ := TransGen.head'_iff.mp h
      exact ⟨j, hij, ih (TransGen.tail' hji hij)⟩

theorem goesOn_of_reaches (hreach : ReflTransGen R i j) (hloop : TransGen R j j) (n : Nat) :
    GoesOn R n i := by
  induction hreach using ReflTransGen.head_induction_on generalizing n with
  | refl => exact goesOn_of_loop hloop n
  | head hstep _ ih =>
      cases n with
      | zero => trivial
      | succ n => exact ⟨_, hstep, ih n⟩

theorem GoesOn.exists_chain (h : GoesOn R n i) :
    ∃ way : List Nat, way.length = n ∧ (i :: way).IsChain R := by
  induction n generalizing i with
  | zero => exact ⟨[], rfl, .singleton i⟩
  | succ n ih =>
      obtain ⟨j, hij, hj⟩ := h
      obtain ⟨way, hlength, hchain⟩ := ih hj
      exact ⟨j :: way, congrArg (· + 1) hlength, hchain.cons_cons hij⟩

/-- A way that is longer than there are numbers meets one of them twice. -/
theorem GoesOn.exists_loop (h : GoesOn R bound i) (hi : i < bound)
    (hbound : ∀ {i j}, R i j → j < bound) : ∃ j, ReflTransGen R i j ∧ TransGen R j j := by
  obtain ⟨way, hlength, hchain⟩ := h.exists_chain
  have hpairs : (i :: way).Pairwise (TransGen R) :=
    (hchain.imp fun _ _ hab => TransGen.single hab).pairwise
  have hfrom : ∀ j ∈ i :: way, ReflTransGen R i j := by
    intro j hj
    rcases List.mem_cons.mp hj with rfl | hj
    · exact .refl
    · exact ((List.pairwise_cons.mp hpairs).1 j hj).to_reflTransGen
  have hwithin : i :: way ⊆ List.range bound := by
    intro j hj
    rw [List.mem_range]
    rcases List.mem_cons.mp hj with rfl | hj
    · exact hi
    · obtain ⟨k, -, hkj⟩ := TransGen.tail'_iff.mp ((List.pairwise_cons.mp hpairs).1 j hj)
      exact hbound hkj
  have htwice : ¬ (i :: way).Nodup := by
    intro hnodup
    have hle := (hnodup.subperm hwithin).length_le
    rw [List.length_cons, hlength, List.length_range] at hle
    exact Nat.not_succ_le_self _ hle
  obtain ⟨j, hj⟩ := List.exists_duplicate_iff_not_nodup.mpr htwice
  have hloop : [j, j].Pairwise (TransGen R) := hpairs.sublist (List.duplicate_iff_sublist.mp hj)
  exact ⟨j, hfrom j hj.mem, (List.pairwise_cons.mp hloop).1 j (List.mem_singleton_self j)⟩

/-- A walk that only looks at what it finds behind the next steps finds nothing more once every
way has ended. -/
theorem walk_eq_of_not_goesOn {α : Type} (walk : Nat → Nat → α)
    (hstep : ∀ {i n k}, (∀ j, R i j → walk n j = walk k j) → walk (n + 1) i = walk (k + 1) i)
    {k : Nat} (h : ¬ GoesOn R k i) (hn : k ≤ n) : walk n i = walk k i := by
  induction k generalizing i n with
  | zero => exact absurd trivial h
  | succ k ih =>
      cases n with
      | zero => exact absurd hn (Nat.not_succ_le_zero k)
      | succ n =>
          exact hstep fun j hij =>
            ih (fun hj => h ⟨j, hij, hj⟩) (Nat.le_of_succ_le_succ hn)

end Ways

/-! ## Links that were checked -/

theorem lt_of_danglingLink?_eq_none {nodes : List Node} (h : danglingLink? nodes = none) :
    ∀ n ∈ nodes, ∀ link ∈ n.links, link < nodes.length := by
  intro n hn link hlink
  rw [danglingLink?, List.findSome?_eq_none_iff] at h
  obtain ⟨id, hid⟩ := List.getElem?_of_mem hn
  have hnone := h (n, id) (List.mk_mem_zipIdx_iff_getElem?.mpr hid)
  rw [Option.map_eq_none_iff, List.find?_eq_none] at hnone
  simpa using hnone link hlink

namespace Tree

open Relation

variable {t : Tree} {i k n : Nat}

theorem links_lt_of_ofNodes {nodes : List Node} {root : Nat} (h : ofNodes nodes root = .ok t) :
    ∀ n ∈ t.nodes, ∀ link ∈ n.links, link < t.size := by
  unfold ofNodes at h
  split at h
  next =>
    split at h
    next => cases h
    next =>
      split at h
      next => cases h
      next hlinks =>
        obtain rfl := Except.ok.inj h
        exact lt_of_danglingLink?_eq_none hlinks
  next => cases h

/-- One node names another as its parent. -/
def Names (t : Tree) (child parent : Nat) : Prop :=
  ∃ n, t.node? child = some n ∧ n.parent = some parent

/-- A way down from the root comes back to where it was. -/
def LoopsDown (t : Tree) : Prop :=
  ∃ i, ReflTransGen t.Lists t.root i ∧ TransGen t.Lists i i

/-- A way up comes back to where it starts. -/
def LoopsUp (t : Tree) : Prop :=
  ∃ i, TransGen t.Names i i

theorem loopsDown_iff_goesOn (hlinks : ∀ n ∈ t.nodes, ∀ link ∈ n.links, link < t.size) :
    t.LoopsDown ↔ GoesOn t.Lists t.size t.root := by
  constructor
  · rintro ⟨i, hreach, hloop⟩
    exact goesOn_of_reaches hreach hloop t.size
  · intro h
    refine h.exists_loop t.root_lt ?_
    rintro i j ⟨n, hn, hj⟩
    exact hlinks n (List.mem_of_getElem? hn) j (List.mem_append_left _ hj)

theorem loopsUp_of_goesOn (hlinks : ∀ n ∈ t.nodes, ∀ link ∈ n.links, link < t.size)
    (h : GoesOn t.Names t.size i) : t.LoopsUp := by
  have hi : i < t.size := by
    cases hsize : t.size with
    | zero => exact absurd t.root_lt (by rw [← size, hsize]; exact Nat.not_lt_zero _)
    | succ size =>
        rw [hsize] at h
        obtain ⟨j, ⟨n, hn, -⟩, -⟩ := h
        exact hsize ▸ lt_size_of_node? hn
  obtain ⟨j, -, hloop⟩ := h.exists_loop hi <| by
    rintro i j ⟨n, hn, hj⟩
    refine hlinks n (List.mem_of_getElem? hn) j (List.mem_append_right _ ?_)
    exact Option.mem_toList.mpr hj
  exact ⟨j, hloop⟩

/-! ## The way up -/

/-- The names on the way up are the name of the node and those on the way up from its
parent. -/
theorem namesUp_step {i n k : Nat}
    (h : ∀ j, t.Names i j → t.namesUp n (some j) = t.namesUp k (some j)) :
    t.namesUp (n + 1) (some i) = t.namesUp (k + 1) (some i) := by
  rw [namesUp, namesUp]
  split
  next node hnode =>
    cases hparent : node.parent with
    | none => cases n <;> cases k <;> rfl
    | some j => rw [h j ⟨node, hnode, hparent⟩]
  next => rfl

/-- As long as a way up goes on, every step finds a name. -/
theorem length_namesUp (h : GoesOn t.Names n i) : (t.namesUp n (some i)).length = n := by
  induction n generalizing i with
  | zero => rfl
  | succ n ih =>
      obtain ⟨j, ⟨node, hnode, hparent⟩, hj⟩ := h
      simp only [namesUp, hnode, hparent, List.length_cons, ih hj]

/-- Without a loop on the way up, as many steps as there are nodes find all names, and with one
they do not. -/
theorem not_loopsUp_iff (hlinks : ∀ n ∈ t.nodes, ∀ link ∈ n.links, link < t.size) :
    ¬ t.LoopsUp ↔ ∀ i n, t.size ≤ n → t.namesUp n (some i) = t.namesUp t.size (some i) := by
  constructor
  · intro hfree i n hn
    exact walk_eq_of_not_goesOn (fun n i => t.namesUp n (some i)) namesUp_step
      (fun h => hfree (loopsUp_of_goesOn hlinks h)) hn
  · rintro hends ⟨i, hloop⟩
    have hlength := congrArg List.length (hends i (t.size + 1) (Nat.le_succ _))
    rw [length_namesUp (goesOn_of_loop hloop _), length_namesUp (goesOn_of_loop hloop _)] at hlength
    exact Nat.succ_ne_self _ hlength

/-! ## The way down -/

end Tree

/-- Parts of a payload hang below each other to some depth. -/
def Payload.Hangs : Nat → Payload → Prop
  | 0, _ => True
  | n + 1, p => ∃ q ∈ p.options, q.Hangs n

namespace Tree

variable {t : Tree} {i j k n : Nat}

theorem payloadFrom_step {i n k : Nat}
    (h : ∀ j, t.Lists i j → t.payloadFrom n j = t.payloadFrom k j) :
    t.payloadFrom (n + 1) i = t.payloadFrom (k + 1) i := by
  rw [payloadFrom, payloadFrom]
  split
  next node hnode =>
    congr 1
    exact List.map_congr_left fun child hchild => h child.1 (mem_childrenOf_iff.mp hchild).1
  next => rfl

/-- As long as a way down goes on, every step finds a part below the last. -/
theorem hangs_payloadFrom (hlinks : ∀ n ∈ t.nodes, ∀ link ∈ n.links, link < t.size)
    (h : GoesOn t.Lists n i) : (t.payloadFrom (n + 1) i).Hangs n := by
  induction n generalizing i with
  | zero => trivial
  | succ n ih =>
      obtain ⟨j, hlists, hj⟩ := h
      obtain ⟨node, hnode, hmem⟩ := hlists
      have hlt : j < t.nodes.length :=
        hlinks node (List.mem_of_getElem? hnode) j (List.mem_append_left _ hmem)
      refine ⟨t.payloadFrom (n + 1) j, ?_, ih hj⟩
      rw [payloadFrom_succ hnode, Node.options_payload]
      exact List.mem_map.mpr ⟨(j, t.nodes[j]),
        mem_childrenOf_iff.mpr ⟨⟨node, hnode, hmem⟩, List.getElem?_eq_getElem hlt⟩, rfl⟩

theorem not_hangs_payloadFrom (n i : Nat) : ¬ (t.payloadFrom n i).Hangs (n + 1) := by
  induction n generalizing i with
  | zero =>
      rintro ⟨q, hq, -⟩
      cases hq
  | succ n ih =>
      rintro ⟨q, hq, hhangs⟩
      rw [payloadFrom] at hq
      split at hq
      next node hnode =>
        rw [Node.options_payload] at hq
        obtain ⟨child, -, rfl⟩ := List.mem_map.mp hq
        exact ih child.1 hhangs
      next => cases hq

theorem not_loopsDown_iff (hlinks : ∀ n ∈ t.nodes, ∀ link ∈ n.links, link < t.size) :
    ¬ t.LoopsDown ↔ ∀ n, t.size < n → t.payloadFrom n t.root = t.payload := by
  rw [loopsDown_iff_goesOn hlinks]
  constructor
  · intro hends n hn
    rw [payload, walk_eq_of_not_goesOn t.payloadFrom payloadFrom_step hends (Nat.le_of_lt hn),
      walk_eq_of_not_goesOn t.payloadFrom payloadFrom_step hends (Nat.le_succ _)]
  · intro hsame hgoes
    obtain ⟨i, hreach, hloop⟩ := (loopsDown_iff_goesOn hlinks).mpr hgoes
    have hdeep := hangs_payloadFrom hlinks (goesOn_of_reaches hreach hloop (t.size + 2))
    rw [hsame (t.size + 2 + 1) (by omega)] at hdeep
    exact not_hangs_payloadFrom (t.size + 1) t.root hdeep

variable {b : Tree}

theorem sameBelow_step {i n k : Nat}
    (h : ∀ c, t.Lists i c → t.sameBelow b n c = t.sameBelow b k c) :
    t.sameBelow b (n + 1) i = t.sameBelow b (k + 1) i := by
  funext j
  rw [Bool.eq_iff_iff]
  cases hx : t.node? i with
  | none => cases hy : b.node? j <;> simp only [sameBelow, hx, hy]
  | some x =>
      cases hy : b.node? j with
      | none => simp only [sameBelow, hx, hy]
      | some y =>
          rw [sameBelow_succ hx hy, sameBelow_succ hx hy]
          refine and_congr_right fun _ => and_congr_right fun _ => ?_
          refine forall₂_congr fun pair hpair => ?_
          rw [h pair.1 ⟨x, hx, (List.of_mem_zip hpair).1⟩]

theorem differenceBelow_step {i n k : Nat}
    (h : ∀ c, t.Lists i c → t.differenceBelow b n c = t.differenceBelow b k c) :
    t.differenceBelow b (n + 1) i = t.differenceBelow b (k + 1) i := by
  funext j
  rw [differenceBelow, differenceBelow]
  split
  next x y hx hy =>
    have hchildren : (x.children.zip y.children).map
          (fun pair => t.differenceBelow b n pair.1 pair.2) =
        (x.children.zip y.children).map (fun pair => t.differenceBelow b k pair.1 pair.2) := by
      refine List.map_congr_left fun pair hpair => ?_
      rw [h pair.1 ⟨x, hx, (List.of_mem_zip hpair).1⟩]
    have hfirst := congrArg (List.findSome? id) hchildren
    rw [List.findSome?_map, List.findSome?_map, Function.id_comp, Function.id_comp] at hfirst
    rw [hfirst]
  next => rfl

/-! ## Arenas that were read -/

/-- Every walk along the links of an arena that passed the checks of a snapshot comes to an end
exactly if no way comes back to where it was: the way up from a node, and the way down from the
root.  Then the way down beside any other arena comes to an end too, and what is told of a
difference names a way up. -/
theorem walks_end_iff {nodes : List Node} {root : Nat} (h : ofNodes nodes root = .ok t) :
    (¬ t.LoopsUp ↔ ∀ i n, t.size ≤ n → t.namesUp n (some i) = t.namesUp t.size (some i)) ∧
    (¬ t.LoopsDown ↔ ∀ n, t.size < n → t.payloadFrom n t.root = t.payload) ∧
    (¬ t.LoopsDown → ∀ (b : Tree) n, t.size < n →
      t.sameBelow b n t.root b.root = t.same b ∧
        t.differenceBelow b n t.root b.root = t.difference? b) := by
  have hlinks := links_lt_of_ofNodes h
  refine ⟨not_loopsUp_iff hlinks, not_loopsDown_iff hlinks, ?_⟩
  intro hfree b n hn
  rw [loopsDown_iff_goesOn hlinks] at hfree
  have hends : ∀ {α : Type} (walk : Nat → Nat → α),
      (∀ {i n k}, (∀ c, t.Lists i c → walk n c = walk k c) → walk (n + 1) i = walk (k + 1) i) →
      walk n t.root = walk (t.size + 1) t.root := fun walk hstep =>
    (walk_eq_of_not_goesOn walk hstep hfree (Nat.le_of_lt hn)).trans
      (walk_eq_of_not_goesOn walk hstep hfree (Nat.le_succ _)).symm
  exact ⟨congrFun (hends (t.sameBelow b) sameBelow_step) b.root,
    congrFun (hends (t.differenceBelow b) differenceBelow_step) b.root⟩

/-- In a linked arena links lead up to smaller numbers and down to greater ones, and so never
back. -/
theorem IsLinked.not_loops (ht : t.IsLinked) : ¬ t.LoopsUp ∧ ¬ t.LoopsDown := by
  have hup : t.Names ≤ (· > ·) := fun _ _ ⟨_, hn, hparent⟩ => ht.lt_of_parent hn hparent
  have hdown : t.Lists ≤ (· < ·) := by
    rintro i j ⟨m, hm, hmem⟩
    obtain ⟨n, hn, hparent⟩ := ht.child hm hmem
    exact ht.lt_of_parent hn hparent
  constructor
  · rintro ⟨i, hloop⟩
    exact Nat.lt_irrefl i (Relation.transGen_minimal hup i i hloop)
  · rintro ⟨i, -, hloop⟩
    exact Nat.lt_irrefl i (Relation.transGen_minimal hdown i i hloop)

/-- The walks end in the arena of a root with one subcommand. -/
theorem walks_end_role :
    ∃ t, (new "role" "Roles").addChild 0 .subcommand "add" "Adds" = .ok (1, t) ∧
      ofNodes t.nodes t.root = .ok t ∧
      (∀ i n, t.size ≤ n → t.namesUp n (some i) = t.namesUp t.size (some i)) ∧
      ∀ n, t.size < n → t.payloadFrom n t.root = t.payload := by
  obtain ⟨⟨id, t⟩, hadd⟩ :=
    exists_eq_ok (x := (new "role" "Roles").addChild 0 .subcommand "add" "Adds") rfl
  obtain ⟨rfl, hgains⟩ := gains_addChild hadd
  obtain ⟨hup, hdown⟩ := (hgains.isLinked (isLinked_new "role" "Roles")).not_loops
  have hread : ofNodes t.nodes t.root = .ok t := by
    cases hadd
    rfl
  obtain ⟨hnames, hpayload, -⟩ := walks_end_iff hread
  exact ⟨t, hadd, hread, hnames.mp hup, hpayload.mp hdown⟩

/-- A root that has itself for a child and for a parent. -/
def selfListed : Node where
  kind := .root
  name := "a"
  description := "A"
  children := [0]
  parent := some 0

/-- The checks of a snapshot accept a root that is its own child and its own parent, although
the way up from it never ends. -/
theorem loops_selfListed :
    ∃ t, ofNodes [selfListed] 0 = .ok t ∧ t.LoopsUp ∧ t.LoopsDown ∧
      ∀ n, (t.namesUp n (some 0)).length = n := by
  let t : Tree := ⟨[selfListed], 0, by decide⟩
  have hparent : Relation.TransGen t.Names 0 0 := .single ⟨selfListed, rfl, rfl⟩
  have hchild : Relation.TransGen t.Lists 0 0 :=
    .single ⟨selfListed, rfl, List.mem_singleton_self 0⟩
  exact ⟨t, rfl, ⟨0, hparent⟩, ⟨0, .refl, hchild⟩,
    fun n => length_namesUp (goesOn_of_loop hparent n)⟩

end Tree

end ChatCommands.Schema
