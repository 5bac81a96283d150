import Mathlib.Data.List.Forall2
import ChatCommands.Proofs.Json.Record
import ChatCommands.Proofs.Publish.Registry
import ChatCommands.Proofs.Schema.Position
import ChatCommands.Schema.Snapshot

/-!
# Snapshots are read back

A snapshot is read back from its text, if the links of its tree are in order and the numbers
among the properties are read back.
-/

namespace ChatCommands.Schema

open Json (Scan Readable)
open Json.Scan

/-- How deeply the properties of a node may be nested in the text of a snapshot. -/
def propertyRoom : Nat := 122

/-- A tree that is read back from the text of its snapshot. -/
structure Tree.IsKept (t : Tree) : Prop where
  kind : t.rootNode.kind = .root
  links : ∀ n ∈ t.nodes, ∀ link ∈ n.links, link < t.size
  size : t.size ≤ Numeral.max64
  values : ∀ n ∈ t.nodes, ∀ entry ∈ n.properties.entries, Readable propertyRoom entry.2

variable {t : Tree}

/-! ## Links -/

theorem danglingLink?_eq_none {nodes : List Node}
    (h : ∀ n ∈ nodes, ∀ link ∈ n.links, link < nodes.length) : danglingLink? nodes = none := by
  rw [danglingLink?, List.findSome?_eq_none_iff]
  rintro ⟨n, id⟩ hn
  have hmem : n ∈ nodes := List.fst_mem_of_mem_zipIdx hn
  rw [Option.map_eq_none_iff, List.find?_eq_none]
  intro link hlink
  have hlt := h n hmem link hlink
  simpa using hlt

theorem Tree.ofNodes_of_isKept (h : t.IsKept) : Tree.ofNodes t.nodes t.root = .ok t := by
  have hkind : ∀ hlt : t.root < t.nodes.length, t.nodes[t.root].kind = .root := fun _ => h.kind
  rw [Tree.ofNodes, dif_pos t.root_lt, if_neg (not_not.mpr (hkind t.root_lt)),
    danglingLink?_eq_none h.links]

/-! ## Marked trees -/

theorem Tree.exists_of_mem_markRegistered {n : Node} (hn : n ∈ t.markRegistered.nodes) :
    ∃ m ∈ t.nodes, n.links = m.links ∧ n.properties = m.properties := by
  obtain ⟨i, hi⟩ := List.getElem?_of_mem hn
  have hi' : t.markRegistered.node? i = some n := hi
  rw [Tree.node?_markRegistered] at hi'
  obtain ⟨m, hm, rfl⟩ := Option.map_eq_some_iff.mp hi'
  refine ⟨m, List.mem_of_getElem? hm, ?_⟩
  by_cases hroot : i = t.root
  · rw [if_pos hroot]
    exact ⟨rfl, rfl⟩
  · rw [if_neg hroot]
    exact ⟨rfl, rfl⟩

/-- The mark makes no difference to what is read back. -/
theorem Tree.IsKept.markRegistered (h : t.IsKept) : t.markRegistered.IsKept := by
  constructor
  case kind =>
    rw [Tree.rootNode_markRegistered]
    exact h.kind
  case links =>
    intro n hn link hlink
    obtain ⟨m, hm, hlinks, -⟩ := Tree.exists_of_mem_markRegistered hn
    rw [Tree.size_markRegistered]
    exact h.links m hm link (hlinks ▸ hlink)
  case size =>
    rw [Tree.size_markRegistered]
    exact h.size
  case values =>
    intro n hn entry hentry
    obtain ⟨m, hm, -, hproperties⟩ := Tree.exists_of_mem_markRegistered hn
    exact h.values m hm entry (hproperties ▸ hentry)

namespace Snapshot

/-! ## Nodes -/

theorem find?_kinds (kind : NodeKind) :
    kinds.find? (·.1 == kind.savedName) = some (kind.savedName, kind) := by
  cases kind <;> decide

variable {room : Nat} {n : Node}

theorem readsAs_kind (kind : NodeKind) :
    (oneOf kinds).ReadsAs room (.string kind.savedName) kind :=
  readsAs_oneOf (find?_kinds kind)

theorem readsAs_properties (h : ∀ entry ∈ n.properties.entries, Readable room entry.2) :
    (Scan.dict Scan.value).ReadsAs (room + 1) (.object n.properties.entries) n.properties := by
  have hfields : List.Forall₂ (FieldReadsAs Scan.value room) n.properties.entries
      n.properties.entries :=
    List.forall₂_same.mpr fun entry hentry => ⟨rfl, readsAs_value (h entry hentry)⟩
  have hdict : (Scan.dict Scan.value).ReadsAs (room + 1) (.object n.properties.entries)
      (.ofList n.properties.entries) := readsAs_dict hfields
  rwa [Dict.ofList_entries] at hdict

theorem readsAs_children (h : ∀ id ∈ n.children, id ≤ Numeral.max64) :
    (Scan.list Scan.count).ReadsAs (room + 1)
      (.array (n.children.map fun (id : Nat) => .integer id)) n.children := by
  apply readsAs_list
  rw [List.forall₂_map_left_iff, List.forall₂_same]
  exact fun id hid => readsAs_count (h id hid)

theorem readsAs_parent (h : ∀ id ∈ n.parent, id ≤ Numeral.max64) :
    (Scan.orNothing Scan.count).ReadsAs room
      (n.parent.elim .null fun (id : Nat) => .integer id) n.parent := by
  cases hparent : n.parent with
  | none => exact readsAs_orNothing_null _
  | some id =>
      apply readsAs_orNothing (readsAs_count (h id hparent))
      intro level
      obtain ⟨c, cs, hcons, hc⟩ := exists_natural_eq_cons id level
      exact ⟨c, cs, hcons, isGap_of_isDigit hc, ne_of_isDigit hc rfl⟩

/-- A node is read back. -/
theorem readsAs_node (hvalues : ∀ entry ∈ n.properties.entries, Readable room entry.2)
    (hlinks : ∀ link ∈ n.links, link ≤ Numeral.max64) :
    scanNode.ReadsAs (room + 2) (nodeJson n) n := by
  have hchildren : ∀ id ∈ n.children, id ≤ Numeral.max64 :=
    fun id hid => hlinks id (List.mem_append_left _ hid)
  have hparent : ∀ id ∈ n.parent, id ≤ Numeral.max64 :=
    fun id hid => hlinks id (List.mem_append_right _ (Option.mem_toList.mpr hid))
  refine readsAs_record _ (NodeFields.mk (some n.kind) (some n.name) (some n.description)
    (some n.properties) (some n.children) (some n.parent) (some n.registered)) ?_ rfl
  refine .cons rfl rfl (readsAs_kind n.kind).map ?_
  refine .cons rfl rfl (readsAs_text n.name).map ?_
  refine .cons rfl rfl (readsAs_text n.description).map ?_
  refine .cons rfl rfl (readsAs_properties hvalues).map ?_
  refine .cons rfl rfl (readsAs_children hchildren).map ?_
  refine .cons rfl rfl (readsAs_parent hparent).map ?_
  refine .cons rfl rfl (readsAs_flag n.registered).map ?_
  exact .nil _

/-! ## Trees -/

/-- A tree is read back. -/
theorem readsAs_tree (h : t.IsKept) : scanTree.ReadsAs (propertyRoom + 4) (treeJson t) t := by
  have hle : ∀ {link : Nat}, link < t.size → link ≤ Numeral.max64 :=
    fun hlt => Nat.le_trans (Nat.le_of_lt hlt) h.size
  have hnodes : (Scan.list scanNode).ReadsAs (propertyRoom + 3) (.array (t.nodes.map nodeJson))
      t.nodes := by
    apply readsAs_list
    rw [List.forall₂_map_left_iff, List.forall₂_same]
    exact fun n hn => readsAs_node (h.values n hn) fun link hlink => hle (h.links n hn link hlink)
  have hroot : Scan.count.ReadsAs (propertyRoom + 3) (.integer t.root) t.root :=
    readsAs_count (hle t.root_lt)
  intro level blanks rest hblanks hends
  refine (readsAs_record (a := (t.nodes, t.root)) _ (TreeFields.mk (some t.nodes) (some t.root))
    ?_ rfl level hblanks hends).bind ?_
  · refine .cons rfl rfl hnodes.map ?_
    refine .cons rfl rfl hroot.map ?_
    exact .nil _
  · simp only [Tree.ofNodes_of_isKept h]
    exact reads_pure _ _ _

/-- A snapshot is read back. -/
theorem readsAs_snapshot {s : Snapshot} (h : s.tree.IsKept) :
    scan.ReadsAs Json.maxDepth s.toJson s := by
  refine readsAs_record _ (Fields.mk (some s.externalId) (some s.tree)) ?_ rfl
  refine .cons rfl rfl (readsAs_text s.externalId).map ?_
  refine .cons rfl rfl (readsAs_tree h).map ?_
  exact .nil _

/-- The text of a snapshot is read as that snapshot. -/
theorem read_pretty {s : Snapshot} (h : s.tree.IsKept) : read s.toJson.pretty = .ok s := by
  have hread := readsAs_snapshot h 0 Json.isGap_nil Json.ends_nil
  rw [List.nil_append, List.append_nil] at hread
  exact whole_of_reads hread Json.isGap_nil

end Snapshot

end ChatCommands.Schema
