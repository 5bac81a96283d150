import ChatCommands.Proofs.Schema.Size
import ChatCommands.Proofs.Schema.Snapshot

/-!
# Trees that were laid out are read back

What is published about a parameter nests no deeper than the entries of its choices, so that a
tree that was laid out is read back as soon as the numbers in it are.
-/

namespace ChatCommands.Schema

open Json (NumbersReadBack Readable)

/-- Every number among the properties of a tree is read back when it is written alone. -/
def Tree.NumbersReadBack (t : Tree) : Prop :=
  ∀ n ∈ t.nodes, ∀ entry ∈ n.properties.entries, Json.NumbersReadBack entry.2

/-! ## Properties -/

variable {table : ResolverTable} {p : Param} {room : Nat} {value : Json}

theorem isScalar_choiceValue (numeric : Bool) (s : String) : (choiceValue numeric s).IsScalar := by
  rw [choiceValue]
  split
  · split
    · trivial
    · cases Double.read? s with
      | none => trivial
      | some x => cases x <;> trivial
  · trivial

theorem readable_choicesValue (hvalue : choicesValue table p = some value)
    (hnumbers : value.NumbersReadBack) : Readable (room + 2) value := by
  rw [choicesValue] at hvalue
  split at hvalue
  next => cases hvalue
  next choices _ =>
    obtain rfl := Option.some.inj hvalue
    apply Readable.array
    intro item hitem
    have hitem' := hnumbers.item hitem
    obtain ⟨choice, -, rfl⟩ := List.mem_map.mp hitem
    apply Readable.object
    · have hless : "name" < "value" := by decide
      exact List.pairwise_pair.mpr hless
    · intro field hfield
      have hfield' := hitem'.field hfield
      simp only [List.mem_cons, List.not_mem_nil, or_false] at hfield
      rcases hfield with rfl | rfl
      · exact .string _
      · exact hfield'.readable (isScalar_choiceValue _ _) room

theorem readable_channelTypes (hvalue : channelTypes p = some value)
    (hnumbers : value.NumbersReadBack) : Readable (room + 1) value := by
  rw [channelTypes] at hvalue
  split at hvalue
  next => cases hvalue
  next kinds _ =>
    obtain rfl := Option.some.inj hvalue
    apply Readable.array
    intro item hitem
    have hitem' := hnumbers.item hitem
    obtain ⟨kind, -, rfl⟩ := List.mem_map.mp hitem
    exact hitem'.readable trivial room

theorem isScalar_leastValue (hvalue : leastValue p = some value) : value.IsScalar := by
  rw [leastValue] at hvalue
  split at hvalue
  · obtain ⟨b, -, rfl⟩ := Option.map_eq_some_iff.mp hvalue
    trivial
  · obtain ⟨b, -, rfl⟩ := Option.map_eq_some_iff.mp hvalue
    cases b.toDouble <;> trivial
  · cases hvalue

theorem isScalar_greatestValue (hvalue : greatestValue p = some value) : value.IsScalar := by
  rw [greatestValue] at hvalue
  split at hvalue
  · obtain ⟨b, -, rfl⟩ := Option.map_eq_some_iff.mp hvalue
    trivial
  · obtain ⟨b, -, rfl⟩ := Option.map_eq_some_iff.mp hvalue
    cases b.toDouble <;> trivial
  · cases hvalue

theorem isScalar_lengthLimit {limit : Option Nat} (hvalue : lengthLimit p limit = some value) :
    value.IsScalar := by
  rw [lengthLimit] at hvalue
  split at hvalue
  · obtain ⟨n, -, rfl⟩ := Option.map_eq_some_iff.mp hvalue
    trivial
  · cases hvalue

theorem of_mem_property {key : String} {value : Option Json} {entry : String × Json}
    (h : entry ∈ property key value) : value = some entry.2 := by
  obtain ⟨v, hv, rfl⟩ := List.mem_map.mp h
  exact Option.mem_toList.mp hv

/-- What is published about a parameter is read back. -/
theorem readable_of_mem_parameterProperties {entry : String × Json}
    (h : entry ∈ (parameterProperties table p).entries) (hnumbers : entry.2.NumbersReadBack) :
    Readable (room + 2) entry.2 := by
  have hmem := Dict.mem_of_mem_ofList h
  simp only [List.mem_append, List.mem_cons, List.not_mem_nil, or_false] at hmem
  rcases hmem with (((((((rfl | rfl) | hmem) | hmem) | hmem) | hmem) | hmem) | hmem) | hmem
  · exact .string _
  · exact .bool _
  · exact readable_choicesValue (of_mem_property hmem) hnumbers
  · exact hnumbers.readable (isScalar_leastValue (of_mem_property hmem)) _
  · exact hnumbers.readable (isScalar_greatestValue (of_mem_property hmem)) _
  · exact hnumbers.readable (isScalar_lengthLimit (of_mem_property hmem)) _
  · exact hnumbers.readable (isScalar_lengthLimit (of_mem_property hmem)) _
  · exact readable_channelTypes (of_mem_property hmem) hnumbers
  · have hvalue := of_mem_property hmem
    rw [Option.ite_none_right_eq_some] at hvalue
    rw [← Option.some.inj hvalue.2]
    exact .bool true

/-! ## Trees -/

variable {v : Vocabulary} {root : String} {commands : List CommandInfo} {groups : List Group}
  {t : Tree}

theorem Tree.IsLinked.links_lt (ht : t.IsLinked) {n : Node} (hn : n ∈ t.nodes) {link : Nat}
    (hlink : link ∈ n.links) : link < t.size := by
  obtain ⟨i, hi⟩ := List.getElem?_of_mem hn
  rcases List.mem_append.mp hlink with hchild | hparent
  · obtain ⟨m, hm, -⟩ := ht.child hi hchild
    exact Tree.lt_size_of_node? hm
  · have hup : n.parent = some link := Option.mem_toList.mp hparent
    exact Nat.lt_trans (ht.lt_of_parent hi hup) (Tree.lt_size_of_node? hi)

/-- A tree that was laid out is read back, if its numbers are. -/
theorem Vocabulary.isKept_of_layout (h : v.layout root commands groups = .ok t)
    (hnumbers : t.NumbersReadBack) : t.IsKept := by
  obtain ⟨bare, hgrown⟩ := grown_layout h
  constructor
  case kind => exact (hgrown.kind_root t.node?_root).mpr hgrown.linked.root_eq
  case links => exact fun n hn link hlink => hgrown.linked.links_lt hn hlink
  case size => exact Nat.le_trans (size_le_of_layout h) (by decide)
  case values =>
    intro n hn entry hentry
    have hentry' := hnumbers n hn entry hentry
    obtain ⟨i, hi⟩ := List.getElem?_of_mem hn
    by_cases hkind : n.kind = .parameter
    · obtain ⟨c, j, p, -, -, -, rfl⟩ := published_of_parameter h hi hkind
      exact readable_of_mem_parameterProperties hentry hentry'
    · rw [properties_eq_empty h hi hkind] at hentry
      cases hentry

/-- A tree that was laid out, from any commands and against any vocabulary. -/
def Tree.IsLaidOut (t : Tree) : Prop :=
  ∃ (v : Vocabulary) (root : String) (commands : List CommandInfo) (groups : List Group),
    v.layout root commands groups = .ok t

theorem Tree.IsLaidOut.isKept (h : t.IsLaidOut) (hnumbers : t.NumbersReadBack) : t.IsKept := by
  obtain ⟨v, root, commands, groups, h⟩ := h
  exact Vocabulary.isKept_of_layout h hnumbers

theorem Tree.IsLaidOut.isLinked (h : t.IsLaidOut) : t.IsLinked := by
  obtain ⟨v, root, commands, groups, h⟩ := h
  obtain ⟨bare, hgrown⟩ := Vocabulary.grown_layout h
  exact hgrown.linked

theorem Tree.IsLaidOut.length_name (h : t.IsLaidOut) : 1 ≤ t.name.length ∧ t.name.length ≤ 32 := by
  obtain ⟨v, root, commands, groups, h⟩ := h
  exact Vocabulary.length_name_of_layout h

/-- Without parameters there are no numbers. -/
theorem Vocabulary.numbersReadBack_of_layout (h : v.layout root commands groups = .ok t)
    (hparams : ∀ c ∈ commands, c.params = []) : t.NumbersReadBack := by
  intro n hn entry hentry
  obtain ⟨i, hi⟩ := List.getElem?_of_mem hn
  have hkind : n.kind ≠ .parameter := by
    intro hkind
    obtain ⟨c, j, p, hc, -, hp, -⟩ := published_of_parameter h hi hkind
    have hp := (List.mem_filter.mp hp).1
    rw [hparams c (List.mem_of_find?_eq_some hc.first)] at hp
    cases hp
  rw [properties_eq_empty h hi hkind] at hentry
  cases hentry

end ChatCommands.Schema
