import Mathlib.Data.List.Find
import ChatCommands.Proofs.Schema.Placing

/-!
# The stages of a layout

A layout checks the commands of its root, places the first of each path and then the
declared groups, and checks the tree.  What the tree shows in the end is said command by
command: the published commands are found under their words with their parameters, and
every subcommand and every parameter comes from one of them.
-/

namespace ChatCommands.Schema

/-! ## The first command of each path -/

theorem find?_filter_otherPath {members : List CommandInfo} {first : CommandInfo}
    {path : List String} (hne : first.path ≠ path) :
    (members.filter (otherPath first)).find? (·.path == path) =
      members.find? (·.path == path) := by
  rw [List.find?_filter]
  refine List.find?_congr ?_
  intro b _
  by_cases hb : b.path = path
  · simp [otherPath, hb, Ne.symm hne]
  · simp [hb]

/-- The first command of a path is the one that is found under it. -/
theorem mem_firstOfEachPath_iff {members : List CommandInfo} {c : CommandInfo} :
    c ∈ firstOfEachPath members ↔ members.find? (·.path == c.path) = some c := by
  induction members using filter_induction otherPath with
  | nil => simp [firstOfEachPath]
  | cons first rest ih =>
      rw [firstOfEachPath_cons, List.mem_cons, List.find?_cons]
      by_cases hpath : first.path = c.path
      · simp only [hpath, beq_self_eq_true, Option.some.injEq]
        constructor
        · rintro (rfl | hc)
          · rfl
          · have hother := (List.mem_filter.mp (mem_of_mem_firstOfEachPath hc)).2
            simp [otherPath, hpath] at hother
        · exact fun h => .inl h.symm
      · rw [ih, find?_filter_otherPath hpath]
        simp only [beq_eq_false_iff_ne.mpr hpath]
        constructor
        · rintro (rfl | hc)
          · exact absurd rfl hpath
          · exact hc
        · exact .inr

/-- For every command the first one of its path is left. -/
theorem exists_mem_firstOfEachPath {members : List CommandInfo} {c : CommandInfo}
    (hc : c ∈ members) : ∃ d ∈ firstOfEachPath members, d.path = c.path := by
  have hsome : (members.find? (·.path == c.path)).isSome = true :=
    List.find?_isSome.mpr ⟨c, hc, by simp⟩
  obtain ⟨d, hd⟩ := Option.isSome_iff_exists.mp hsome
  have hpath : d.path = c.path := by simpa using List.find?_some hd
  exact ⟨d, mem_firstOfEachPath_iff.mpr (hpath ▸ hd), hpath⟩

namespace Vocabulary

variable {v : Vocabulary} {start t t' : Tree} {root : String} {commands : List CommandInfo}
  {groups : List Group}

/-! ## Runs -/

namespace Placed

variable {members done : List CommandInfo} {declared : List Group} {words : List String}

theorem new (v : Vocabulary) (members : List CommandInfo) (declared : List Group)
    (name description : String) :
    v.Placed (Tree.new name description) members declared [] [] (Tree.new name description) := by
  constructor
  case grown => exact v.grown_new_open members name description
  case growsTo => exact .refl _
  case complete => exact fun c hc => absurd hc List.not_mem_nil
  case sound =>
    intro i n hn hkind
    rw [(Tree.node?_new hn).2] at hkind
    cases hkind
  case group =>
    intro i n hn hkind
    rw [(Tree.node?_new hn).2] at hkind
    cases hkind
  case realised => exact fun word hword => absurd hword List.not_mem_nil
  case apart => exact .nil

theorem placeAll {todo : List CommandInfo}
    (h : v.Placed start members declared done (done.filterMap groupWord?) t)
    (hmembers : ∀ c ∈ todo, c ∈ members)
    (hall : todo.foldlM (v.place declared false) t = .ok t') :
    v.Placed start members declared (done ++ todo) ((done ++ todo).filterMap groupWord?) t' := by
  induction todo generalizing done t with
  | nil =>
      rw [List.foldlM_nil] at hall
      rw [List.append_nil, ← Except.ok.inj hall]
      exact h
  | cons c rest ih =>
      rw [List.foldlM_cons, bind_eq_ok] at hall
      obtain ⟨next, hnext, hrest⟩ := hall
      have hplaced := h.place (hmembers c List.mem_cons_self) hnext
      have hdone := ih hplaced (fun d hd => hmembers d (List.mem_cons_of_mem c hd)) hrest
      rwa [List.append_assoc] at hdone

theorem placeGroups {todo : List Group} (h : v.Placed start members declared done words t)
    (hall : todo.foldlM (Schema.placeGroup declared) t = .ok t') :
    v.Placed start members declared done (words ++ todo.map groupName) t' := by
  induction todo generalizing words t with
  | nil =>
      rw [List.foldlM_nil] at hall
      rw [List.map_nil, List.append_nil, ← Except.ok.inj hall]
      exact h
  | cons g rest ih =>
      rw [List.foldlM_cons, bind_eq_ok] at hall
      obtain ⟨next, hnext, hrest⟩ := hall
      have hdone := ih (h.placeGroup hnext) hrest
      rwa [List.append_assoc] at hdone

theorem find?_eq (h : v.Placed start members declared done words t) {c : CommandInfo} {i : Nat}
    (hleads : v.Leads declared t c i) : t.find? c.sub = some i := by
  have hlinked := h.grown.linked
  obtain ⟨parent, name, hspot, hat⟩ := hleads
  obtain ⟨_, hi⟩ := hlinked.exists_child hat.holds rfl
  have hlast := hlinked.childNamed?_eq_some hi (Text.asciiEq_refl name)
  rw [Tree.find?, hlinked.root_eq]
  generalize c.sub = words at hspot ⊢
  cases hspot with
  | root => rw [Tree.findFrom, hlast]; rfl
  | group named holds =>
      obtain ⟨_, hj⟩ := hlinked.exists_child holds rfl
      rw [Tree.findFrom, hlinked.childNamed?_eq_some hj named, Option.bind_some, Tree.findFrom,
        hlast]
      rfl

theorem eq_of_leads (h : v.Placed start members declared done words t) {c d : CommandInfo}
    (hc : c ∈ done) (hd : d ∈ done) {i : Nat} (hci : v.Leads declared t c i)
    (hdi : v.Leads declared t d i) : c = d := by
  have hsymm : Std.Symm fun c d => ¬ Clash c d := ⟨fun c d hcd hdc => hcd hdc.symm⟩
  by_contra hne
  refine h.apart.forall hc hd hne ?_
  obtain ⟨parent, name, hspot, hat⟩ := hci
  obtain ⟨children, hi⟩ := h.grown.linked.exists_child hat.holds rfl
  exact h.clash_of_spots hspot (hdi.spot h.grown.linked hi) (Text.asciiEq_refl name)

end Placed

/-- What a layout has placed in the end, when the root shows no parameters. -/
theorem placed_layout (h : v.layout root commands groups = .ok t)
    (hbare : showsBare root commands groups = false) :
    v.Placed (rootAlone root commands groups) (ofRoot root commands) (groupsOf root groups)
      (firstOfEachPath (ofRoot root commands))
      ((firstOfEachPath (ofRoot root commands)).filterMap groupWord? ++
        (groupsOf root groups).map groupName) t := by
  obtain ⟨-, placed, hplaced, hgrouped, -⟩ := layout_eq_ok h
  rw [hbare] at hplaced
  have hnew := Placed.new v (ofRoot root commands) (groupsOf root groups) root
    (rootDescription root (ofRoot root commands) groups)
  exact (hnew.placeAll (fun c => mem_of_mem_firstOfEachPath) hplaced).placeGroups hgrouped

end Vocabulary

/-! ## What is published -/

/-- The commands that the tree of a root shows: the first one of each path, and one whose
path is the root alone only when nothing else is declared below the root. -/
structure Published (root : String) (commands : List CommandInfo) (groups : List Group)
    (c : CommandInfo) : Prop where
  first : commands.find? (·.path == c.path) = some c
  root_eq : c.root = root
  alone : c.sub = [] →
    groupsOf root groups = [] ∧ ∀ other ∈ commands, other.root = root → other.sub = []

theorem find?_ofRoot {root : String} {commands : List CommandInfo} {sub : List String} :
    (ofRoot root commands).find? (·.path == root :: sub) =
      commands.find? (·.path == root :: sub) := by
  rw [List.find?_filter]
  refine List.find?_congr fun c _ => ?_
  rw [Bool.eq_iff_iff]
  by_cases hroot : c.root = root
  · simp [CommandInfo.path, hroot]
  · simp [CommandInfo.path, hroot]

theorem Vocabulary.showsBare_iff {root : String} {commands : List CommandInfo}
    {groups : List Group} :
    showsBare root commands groups = true ↔
      groupsOf root groups = [] ∧ ∀ c ∈ commands, c.root = root → c.sub = [] := by
  simp [showsBare, List.all_eq_true, imp_iff_not_or]

theorem published_iff {root : String} {commands : List CommandInfo} {groups : List Group}
    {c : CommandInfo} :
    Published root commands groups c ↔
      c ∈ firstOfEachPath (ofRoot root commands) ∧
        (c.sub = [] → Vocabulary.showsBare root commands groups = true) := by
  rw [mem_firstOfEachPath_iff]
  constructor
  · rintro ⟨hfirst, rfl, halone⟩
    exact ⟨find?_ofRoot.trans hfirst, fun hsub => Vocabulary.showsBare_iff.mpr (halone hsub)⟩
  · rintro ⟨hfirst, halone⟩
    obtain ⟨-, rfl⟩ := mem_ofRoot_iff.mp (List.mem_of_find?_eq_some hfirst)
    exact ⟨find?_ofRoot.symm.trans hfirst, rfl,
      fun hsub => Vocabulary.showsBare_iff.mp (halone hsub)⟩

/-- For every path behind a root one command is published. -/
theorem exists_published {root : String} {commands : List CommandInfo} (groups : List Group)
    {c : CommandInfo} (hc : c ∈ commands) (hroot : c.root = root) (hne : c.sub ≠ []) :
    ∃ d, Published root commands groups d ∧ d.sub = c.sub := by
  obtain ⟨d, hd, hpath⟩ := exists_mem_firstOfEachPath (mem_ofRoot_iff.mpr ⟨hc, hroot⟩)
  have hsub : d.sub = c.sub := (List.cons.inj hpath).2
  exact ⟨d, published_iff.mpr ⟨hd, fun hempty => absurd (hsub.symm.trans hempty) hne⟩, hsub⟩

namespace Vocabulary

variable {v : Vocabulary} {t : Tree} {root : String} {commands : List CommandInfo}
  {groups : List Group}

/-- Only below subcommands hang parameters, when the root shows none. -/
theorem Grown.kind_of_parameter {members : List CommandInfo}
    (h : v.Grown members false [] t) {i : Nat} {n : Node} {child : Nat × Node}
    (hn : t.node? i = some n) (hchild : child ∈ t.childrenOf i)
    (hkind : child.2.kind = .parameter) : n.kind = .subcommand := by
  have hbears := h.bears hn List.not_mem_nil
  have hmem : child.2.kind ∈ t.childKinds i := List.mem_map.mpr ⟨child, hchild, rfl⟩
  cases hcase : n.kind with
  | root =>
      rw [hcase] at hbears
      rcases hbears _ hmem with hother | hother
      · simp [hkind] at hother
      · simp [hkind] at hother
  | group =>
      rw [hcase] at hbears
      have hother := hbears _ hmem
      simp [hkind] at hother
  | subcommand => rfl
  | parameter => exact absurd hcase (h.kind_ne_parameter hn hchild)

/-- What a layout has done when the root shows the parameters of a command. -/
structure RowShown (v : Vocabulary) (start : Tree) (c : CommandInfo) (t : Tree) : Prop where
  grown : v.Grown [c] true [] t
  added : RowAdded start 0 t
  shows : v.Shows t 0 (v.shownParams c)

theorem rowShown_addParams {name description : String} {c : CommandInfo}
    (h : v.addParams (Tree.new name description) 0 c = .ok t) :
    v.RowShown (Tree.new name description) c t := by
  have hnew : v.Shows (Tree.new name description) 0 [] := by simp [Shows, Tree.childrenOf_new]
  exact ⟨(v.grown_new [c] true name description).addParams (Tree.node?_root _) (.inr ⟨rfl, rfl⟩)
      (Tree.childrenOf_new _ _ _) (List.mem_singleton_self c) h,
    rowAdded_addParams h, hnew.addRow (Tree.isLinked_new _ _) h⟩

/-- All nodes but the root are parameters then. -/
theorem RowShown.eq_zero {name description : String} {c : CommandInfo}
    (h : v.RowShown (Tree.new name description) c t) {i : Nat} {n : Node}
    (hn : t.node? i = some n) (hkind : n.kind ≠ .parameter) : i = 0 := by
  obtain ⟨m, hm⟩ := h.added.old hn hkind
  exact (Tree.node?_new hm).1

/-- The root says what it said before anything was placed. -/
theorem holds_root (h : v.layout root commands groups = .ok t) :
    t.Holds 0 ⟨.root, root, rootDescription root (ofRoot root commands) groups, Dict.empty, [], none,
      false⟩ := by
  have hstart := Tree.holds_of_node? (Tree.node?_root (rootAlone root commands groups))
  cases hbare : showsBare root commands groups with
  | true =>
      rcases addParams_of_layout h hbare with ⟨-, rfl⟩ | ⟨c, -, -, hrow⟩
      · exact hstart
      · exact (rowShown_addParams hrow).added.holds hstart
  | false => exact (placed_layout h hbare).growsTo.holds hstart

theorem name_layout (h : v.layout root commands groups = .ok t) : t.name = root := by
  obtain ⟨bare, hgrown⟩ := grown_layout h
  obtain ⟨children, hn⟩ := holds_root h
  rw [← hgrown.linked.root_eq, t.node?_root, Option.some.injEq] at hn
  rw [Tree.name, hn]

/-- A published command is found under its words, with its parameters below it. -/
theorem exists_shows_of_published (h : v.layout root commands groups = .ok t) {c : CommandInfo}
    (hc : Published root commands groups c) :
    ∃ i n, t.find? c.sub = some i ∧ t.node? i = some n ∧ v.Shows t i (v.shownParams c) ∧
      (c.sub ≠ [] → n.kind = .subcommand ∧ c.sub.getLast? = some n.name ∧
        n.description = c.description) := by
  obtain ⟨hfirst, halone⟩ := published_iff.mp hc
  cases hbare : showsBare root commands groups with
  | true =>
      rcases addParams_of_layout h hbare with ⟨hnone, -⟩ | ⟨d, hone, hsub, hrow⟩
      · rw [hnone] at hfirst
        cases hfirst
      · rw [hone, List.mem_singleton] at hfirst
        subst hfirst
        have hshown := rowShown_addParams hrow
        obtain ⟨children, hn⟩ := hshown.added.holds (Tree.holds_of_node? (Tree.node?_root _))
        refine ⟨0, _, ?_, hn, hshown.shows, fun hne => absurd hsub hne⟩
        rw [hsub, Tree.find?, hshown.added.root_eq]
        rfl
  | false =>
      have hplaced := placed_layout h hbare
      have hne : c.sub ≠ [] := by
        intro hsub
        rw [halone hsub] at hbare
        cases hbare
      obtain ⟨i, hleads⟩ := hplaced.complete c hfirst hne
      have hfind := hplaced.find?_eq hleads
      obtain ⟨parent, name, hspot, hat⟩ := hleads
      obtain ⟨children, hn⟩ := hat.holds
      exact ⟨i, _, hfind, hn, hat.shows, fun _ => ⟨rfl, hspot.getLast?_eq, rfl⟩⟩

/-- A root that shows parameters has neither subcommands nor groups. -/
theorem showsBare_eq_false (h : v.layout root commands groups = .ok t) {i : Nat} {n : Node}
    (hn : t.node? i = some n) (hkind : n.kind = .subcommand ∨ n.kind = .group) :
    showsBare root commands groups = false := by
  have hroot : n.kind ≠ .root := by
    rcases hkind with hkind | hkind <;> simp [hkind]
  have hparam : n.kind ≠ .parameter := by
    rcases hkind with hkind | hkind <;> simp [hkind]
  rw [Bool.eq_false_iff]
  intro hbare
  rcases addParams_of_layout h hbare with ⟨-, rfl⟩ | ⟨c, -, -, hrow⟩
  · rw [(Tree.node?_new hn).2] at hroot
    exact hroot rfl
  · have hshown := rowShown_addParams hrow
    exact hroot ((hshown.grown.kind_root hn).mpr (hshown.eq_zero hn hparam))

/-- Every subcommand is that of a published command. -/
theorem published_of_subcommand (h : v.layout root commands groups = .ok t) {i : Nat} {n : Node}
    (hn : t.node? i = some n) (hkind : n.kind = .subcommand) :
    ∃ c, Published root commands groups c ∧ c.sub ≠ [] ∧ t.find? c.sub = some i := by
  have hplaced := placed_layout h (showsBare_eq_false h hn (.inl hkind))
  obtain ⟨c, hc, hleads⟩ := hplaced.sound hn hkind
  have hfind := hplaced.find?_eq hleads
  obtain ⟨parent, name, hspot, -⟩ := hleads
  have hne := hspot.ne_nil
  exact ⟨c, published_iff.mpr ⟨hc, fun hsub => absurd hsub hne⟩, hne, hfind⟩

/-- Different published commands are found at different nodes. -/
theorem eq_of_find? (h : v.layout root commands groups = .ok t) {c d : CommandInfo}
    (hc : Published root commands groups c) (hd : Published root commands groups d)
    (hne : c.sub ≠ []) (hne' : d.sub ≠ []) {i : Nat} (hci : t.find? c.sub = some i)
    (hdi : t.find? d.sub = some i) : c = d := by
  have hbare : showsBare root commands groups = false := by
    rw [Bool.eq_false_iff]
    intro hbare
    exact hne ((showsBare_iff.mp hbare).2 c (List.mem_of_find?_eq_some hc.first) hc.root_eq)
  have hplaced := placed_layout h hbare
  obtain ⟨hcfirst, -⟩ := published_iff.mp hc
  obtain ⟨hdfirst, -⟩ := published_iff.mp hd
  obtain ⟨j, hcj⟩ := hplaced.complete c hcfirst hne
  obtain ⟨k, hdk⟩ := hplaced.complete d hdfirst hne'
  obtain rfl : j = i := Option.some.inj ((hplaced.find?_eq hcj).symm.trans hci)
  obtain rfl : k = j := Option.some.inj ((hplaced.find?_eq hdk).symm.trans hdi)
  exact hplaced.eq_of_leads hcfirst hdfirst hcj hdk

/-- Every parameter is one that a published command shows, below the node of the command. -/
theorem published_of_parameter (h : v.layout root commands groups = .ok t) {i : Nat} {n : Node}
    (hn : t.node? i = some n) (hkind : n.kind = .parameter) :
    ∃ c j p, Published root commands groups c ∧ t.find? c.sub = some j ∧ p ∈ v.shownParams c ∧
      n = v.parameterNode j p := by
  obtain ⟨bare, hgrown⟩ := grown_layout h
  obtain ⟨j, m, -, hm, hnot, hchild⟩ := hgrown.exists_parent hn (by simp [hkind])
  cases hbare : showsBare root commands groups with
  | true =>
      rcases addParams_of_layout h hbare with ⟨-, rfl⟩ | ⟨c, hone, hsub, hadd⟩
      · rw [(Tree.node?_new hn).2] at hkind
        cases hkind
      · have hshown := rowShown_addParams hadd
        obtain rfl : j = 0 := hshown.eq_zero hm hnot
        obtain ⟨p, hp, heq⟩ := hshown.shows.exists_parameterNode hchild
        have hpublished : Published root commands groups c :=
          published_iff.mpr ⟨hone ▸ List.mem_singleton_self c, fun _ => hbare⟩
        refine ⟨c, 0, p, hpublished, ?_, hp, heq⟩
        rw [hsub, Tree.find?, hgrown.linked.root_eq]
        rfl
  | false =>
      have hplaced := placed_layout h hbare
      have hsub := hplaced.grown.kind_of_parameter hm hchild hkind
      obtain ⟨c, hc, hleads⟩ := hplaced.sound hm hsub
      have hfind := hplaced.find?_eq hleads
      obtain ⟨parent, name, hspot, hat⟩ := hleads
      obtain ⟨p, hp, heq⟩ := hat.shows.exists_parameterNode hchild
      have hpublished : Published root commands groups c :=
        published_iff.mpr ⟨hc, fun hsub => absurd hsub hspot.ne_nil⟩
      exact ⟨c, j, p, hpublished, hfind, hp, heq⟩

end Vocabulary

end ChatCommands.Schema
