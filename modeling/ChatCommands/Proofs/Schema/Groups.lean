import ChatCommands.Proofs.Catalog.Routing
import ChatCommands.Proofs.Command.Declared
import ChatCommands.Proofs.Schema.Stages

/-!
# Declared groups

A group that is declared for a root gets a node of its own below the root, which the
limits refuse to leave empty.  One case escapes: where a command has the path of the
group, the tree shows the command, and the group is passed over without a word.
-/

namespace ChatCommands.Schema

/-- A group is in a tree: it hangs below the root under its name with a subcommand below
it, and no subcommand hangs below the root under that name. -/
structure Realised (t : Tree) (name : String) : Prop where
  group : ∃ child ∈ t.childrenOf t.root, child.2.kind = .group ∧ child.2.name = name ∧
    ∃ sub ∈ t.childrenOf child.1, sub.2.kind = .subcommand
  apart : ∀ child ∈ t.childrenOf t.root, child.2.kind = .subcommand → child.2.name ≠ name

theorem mem_groupsOf {root name : String} {groups : List Group} {g : Group} (hg : g ∈ groups)
    (hpath : g.path = [root, name]) : g ∈ groupsOf root groups := by
  simp [groupsOf, List.mem_filter, hg, hpath]

theorem groupName_of_path {root name : String} {g : Group} (hpath : g.path = [root, name]) :
    groupName g = name := by
  simp [groupName, hpath]

theorem isLower_groupName {g : Group} (h : g.IsDeclared) : Text.IsLower (groupName g) := by
  rw [groupName]
  cases hword : g.path[1]? with
  | none => exact fun c hc => absurd hc List.not_mem_nil
  | some word => exact h.isLower_of_mem_path (List.mem_of_getElem? hword)

namespace Vocabulary

variable {v : Vocabulary} {start t : Tree} {root : String} {members done : List CommandInfo}
  {groups declared : List Group} {words : List String}

/-- The words of commands and of groups in lowercase make words in lowercase. -/
theorem isLower_of_mem_words (hdone : ∀ c ∈ done, ∀ word ∈ c.sub, Text.IsLower word)
    (hgroups : ∀ g ∈ groups, g.IsDeclared) {word : String}
    (hword : word ∈ done.filterMap groupWord? ++ (groupsOf root groups).map groupName) :
    Text.IsLower word := by
  rcases List.mem_append.mp hword with hword | hword
  · obtain ⟨c, hc, hcword⟩ := List.mem_filterMap.mp hword
    unfold groupWord? at hcword
    split at hcword
    next first last hsub =>
      obtain rfl : first = word := Option.some.inj hcword
      exact hdone c hc first (hsub ▸ List.mem_cons_self)
    next => cases hcword
  · obtain ⟨g, hg, rfl⟩ := List.mem_map.mp hword
    exact isLower_groupName (hgroups g (List.mem_filter.mp hg).1)

/-- Names below the root are in lowercase when all words are. -/
theorem Placed.isLower_of_child (h : v.Placed start members declared done words t)
    (hdone : ∀ c ∈ done, ∀ word ∈ c.sub, Text.IsLower word)
    (hwords : ∀ word ∈ words, Text.IsLower word) {child : Nat × Node}
    (hchild : child ∈ t.childrenOf 0) : Text.IsLower child.2.name := by
  obtain ⟨n, hn, hkind⟩ := h.exists_root
  rcases h.kind_of_child hn (.inl hkind) hchild with hsub | ⟨hgroup, -⟩
  · obtain ⟨c, hc, hcsub⟩ := h.exists_sub_eq hchild hsub
    exact hdone c hc _ (hcsub ▸ List.mem_singleton_self _)
  · exact hwords _ (h.group (h.grown.linked.mem_childrenOf_iff.mp hchild).1 hgroup).2

/-- Every word in lowercase is the name of something below the root. -/
theorem Placed.exists_child_named (h : v.Placed start members declared done words t)
    (hdone : ∀ c ∈ done, ∀ word ∈ c.sub, Text.IsLower word)
    (hwords : ∀ word ∈ words, Text.IsLower word) {word : String} (hword : word ∈ words) :
    ∃ child ∈ t.childrenOf 0, child.2.name = word := by
  obtain ⟨child, hchild, hnamed⟩ := h.realised word hword
  have hname := h.isLower_of_child hdone hwords hchild
  exact ⟨child, hchild, (Text.asciiEq_iff_of_isLower hname (hwords word hword)).mp hnamed⟩

theorem showsBare_of_mem_groupsOf {commands : List CommandInfo} {g : Group}
    (hg : g ∈ groupsOf root groups) : showsBare root commands groups = false := by
  rw [Bool.eq_false_iff]
  intro hbare
  rw [(showsBare_iff.mp hbare).1] at hg
  cases hg

theorem realised_iff_of_isLower {commands : List CommandInfo}
    (hlower : ∀ c ∈ commands, ∀ word ∈ c.path, Text.IsLower word)
    (hgroups : ∀ g ∈ groups, g.IsDeclared) (h : v.layout root commands groups = .ok t) {g : Group}
    (hg : g ∈ groups) {name : String} (hpath : g.path = [root, name]) :
    Realised t name ↔ ∀ c ∈ commands, c.path ≠ [root, name] := by
  have hdeclared := mem_groupsOf hg hpath
  obtain ⟨-, -, -, -, hlimits⟩ := layout_eq_ok h
  have hplaced := placed_layout h (showsBare_of_mem_groupsOf hdeclared)
  have hlinked := hplaced.grown.linked
  have hmember : ∀ c ∈ firstOfEachPath (ofRoot root commands), c ∈ commands ∧ c.root = root :=
    fun c hc => mem_ofRoot_iff.mp (mem_of_mem_firstOfEachPath hc)
  have hsub : ∀ c ∈ firstOfEachPath (ofRoot root commands), ∀ word ∈ c.sub, Text.IsLower word :=
    fun c hc word hword => hlower c (hmember c hc).1 word (List.mem_cons_of_mem _ hword)
  -- Something below the root has the name of the group.
  have hword := List.mem_append_right
    ((firstOfEachPath (ofRoot root commands)).filterMap groupWord?)
    (List.mem_map_of_mem (f := groupName) hdeclared)
  obtain ⟨child, hchild, hname⟩ := hplaced.exists_child_named hsub
    (fun word hword => isLower_of_mem_words hsub hgroups hword) hword
  rw [groupName_of_path hpath] at hname
  constructor
  · rintro ⟨-, hapart⟩ c hc hcpath
    obtain ⟨hroot, hcsub⟩ := List.cons.inj hcpath
    have hne : c.sub ≠ [] := by simp [hcsub]
    -- The first command with that path is shown as a subcommand below the root.
    obtain ⟨d, hd, hdsub⟩ := exists_published groups hc hroot hne
    have hspot : Spot (groupsOf root groups) t d.sub 0 name := by
      rw [hdsub, hcsub]
      exact .root
    obtain ⟨shown, hshown, hname, hkind, -⟩ :=
      hplaced.exists_child_of_spot (published_iff.mp hd).1 hspot
    rw [hlinked.root_eq] at hapart
    exact hapart shown hshown hkind hname
  · intro hfree
    have hnone : ∀ other ∈ t.childrenOf 0, other.2.kind = .subcommand → other.2.name ≠ name := by
      rintro other hother hkind rfl
      obtain ⟨c, hc, hcsub⟩ := hplaced.exists_sub_eq hother hkind
      obtain ⟨hmem, hroot⟩ := hmember c hc
      exact hfree c hmem (by rw [CommandInfo.path, hroot, hcsub])
    obtain ⟨n, hn, hkind⟩ := hplaced.exists_root
    have hgroup : child.2.kind = .group := by
      rcases hplaced.kind_of_child hn (.inl hkind) hchild with hsub | ⟨hgroup, -⟩
      · exact absurd hname (hnone child hchild hsub)
      · exact hgroup
    have hbelow := hplaced.grown.exists_subcommand hlimits
      (hlinked.mem_childrenOf_iff.mp hchild).1 hgroup
    rw [← hlinked.root_eq] at hchild hnone
    exact ⟨⟨child, hchild, hgroup, hname, hbelow⟩, hnone⟩

/-- A declared group is in the tree of its root, or else a command has its path. -/
theorem realised_iff {commands : List Command} (hcommands : ∀ c ∈ commands, c.IsDeclared)
    (hgroups : ∀ g ∈ groups, g.IsDeclared)
    (h : v.layout root (commands.map (·.toCommandInfo)) groups = .ok t) {g : Group}
    (hg : g ∈ groups) {name : String} (hpath : g.path = [root, name]) :
    Realised t name ↔ ∀ c ∈ commands, c.path ≠ [root, name] := by
  have hlower := isLower_of_mem_map_toCommandInfo hcommands
  rw [realised_iff_of_isLower hlower hgroups h hg hpath, List.forall_mem_map]

/-- A declared group with one subcommand, beside a subcommand of another name. -/
theorem realised_color :
    let v : Vocabulary := ⟨.standard, .standard⟩
    let commands := [Catalog.plain "role" ["give"], Catalog.plain "role" ["color", "set"]]
    let groups := [Group.declare "role color" "Colors" []]
    (∀ c ∈ commands, c.IsDeclared) ∧ (∀ g ∈ groups, g.IsDeclared) ∧
      ∃ t, v.layout "role" (commands.map (·.toCommandInfo)) groups = .ok t ∧
        Realised t "color" := by
  intro v commands groups
  have hcommands : ∀ c ∈ commands, c.IsDeclared := by
    simp only [commands, List.forall_mem_cons, List.not_mem_nil, false_imp_iff, implies_true,
      and_true]
    exact ⟨Catalog.isDeclared_plain_of_build "role give" rfl,
      Catalog.isDeclared_plain_of_build "role color set" rfl⟩
  have hgroups : ∀ g ∈ groups, g.IsDeclared := by
    intro g hg
    rw [List.mem_singleton.mp hg]
    exact ⟨_, _, _, rfl⟩
  have hok : (v.layout "role" (commands.map (·.toCommandInfo)) groups).isOk = true := by
    decide +kernel
  obtain ⟨t, h⟩ := exists_eq_ok hok
  refine ⟨hcommands, hgroups, t, h, ?_⟩
  refine (realised_iff hcommands hgroups h (List.mem_singleton_self _) rfl).mpr ?_
  decide +kernel

/-- A group under the path of a command is not in the tree, which is laid out all the
same. -/
theorem not_realised_taken_name :
    let v : Vocabulary := ⟨.standard, .standard⟩
    let commands := [Catalog.plain "r" ["a"]]
    let groups := [Group.declare "r a" "A" []]
    (∀ c ∈ commands, c.IsDeclared) ∧ (∀ g ∈ groups, g.IsDeclared) ∧
      (∃ g ∈ groups, g.path = ["r", "a"]) ∧
      ∃ t, v.layout "r" (commands.map (·.toCommandInfo)) groups = .ok t ∧ ¬ Realised t "a" := by
  intro v commands groups
  refine ⟨?_, ?_, by decide +kernel, ?_⟩
  · intro c hc
    rw [List.mem_singleton.mp hc]
    exact Catalog.isDeclared_plain_of_build "r a" rfl
  · intro g hg
    rw [List.mem_singleton.mp hg]
    exact ⟨_, _, _, rfl⟩
  · have hok : (v.layout "r" (commands.map (·.toCommandInfo)) groups).isOk = true := by
      decide +kernel
    obtain ⟨t, h⟩ := exists_eq_ok hok
    refine ⟨t, h, fun hrealised => ?_⟩
    obtain ⟨child, hchild, hgroup, -⟩ := hrealised.group
    have hkinds : (v.layout "r" (commands.map (·.toCommandInfo)) groups).toOption.map
        (fun t => t.childKinds t.root) = some [.subcommand] := by
      decide +kernel
    rw [h] at hkinds
    have hone : t.childKinds t.root = [.subcommand] := Option.some.inj hkinds
    have hmem : child.2.kind ∈ t.childKinds t.root := List.mem_map.mpr ⟨child, hchild, rfl⟩
    rw [hone, List.mem_singleton, hgroup] at hmem
    cases hmem

end Vocabulary

end ChatCommands.Schema
