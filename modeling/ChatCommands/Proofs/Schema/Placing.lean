import Mathlib.Data.List.Pairwise
import Mathlib.Data.List.Zip
import ChatCommands.Proofs.Schema.Shape
import ChatCommands.Proofs.Text.Lowercase

/-!
# Where commands are placed

Below a root that shows no parameters of its own, every command has a spot: its last
word hangs below the root, or below the group of the word before.  Placing a command
fills its spot and leaves all others as they are.  So the subcommands of a tree are at
all times those of the commands that were placed, and a further command can be placed
exactly when no path before it ends where this one goes on, or the other way round.
-/

namespace ChatCommands.Schema

namespace Tree

variable {t t' : Tree}

/-! ## Children by name -/

theorem IsLinked.mem_childrenOf_iff (ht : t.IsLinked) {i : Nat} {child : Nat × Node} :
    child ∈ t.childrenOf i ↔ t.node? child.1 = some child.2 ∧ child.2.parent = some i := by
  rw [Tree.mem_childrenOf_iff]
  constructor
  · rintro ⟨hlists, hn⟩
    obtain ⟨n, hn', hparent⟩ := ht.parent_of_lists hlists
    rw [hn, Option.some.injEq] at hn'
    exact ⟨hn, hn' ▸ hparent⟩
  · rintro ⟨hn, hparent⟩
    exact ⟨ht.listed hn hparent, hn⟩

/-- A child is known by its name, in any case. -/
theorem IsLinked.eq_of_asciiEq (ht : t.IsLinked) {i : Nat} {a b : Nat × Node}
    (ha : a ∈ t.childrenOf i) (hb : b ∈ t.childrenOf i)
    (hname : Text.asciiEq a.2.name b.2.name = true) : a = b := by
  have hsymm : Std.Symm fun a b : Nat × Node => Text.asciiEq a.2.name b.2.name = false := by
    refine ⟨fun a b hab => ?_⟩
    rw [Bool.eq_false_iff] at hab ⊢
    exact fun hba => hab (Text.asciiEq_symm hba)
  by_contra hne
  have hfalse := (List.pairwise_map.mp (ht.apart i)).forall ha hb hne
  rw [hname] at hfalse
  cases hfalse

theorem IsLinked.childNamed?_eq_some (ht : t.IsLinked) {i : Nat} {name : String}
    {child : Nat × Node} (hchild : child ∈ t.childrenOf i)
    (hname : Text.asciiEq child.2.name name = true) : t.childNamed? i name = some child := by
  cases hfound : t.childNamed? i name with
  | none =>
      have hne := List.find?_eq_none.mp hfound child hchild
      exact absurd hname hne
  | some other =>
      have hother := List.mem_of_find?_eq_some hfound
      have hsame : Text.asciiEq other.2.name name = true := by simpa using List.find?_some hfound
      rw [ht.eq_of_asciiEq hother hchild (Text.asciiEq_trans hsame (Text.asciiEq_symm hname))]

theorem of_childNamed?_eq_some {i : Nat} {name : String} {child : Nat × Node}
    (h : t.childNamed? i name = some child) :
    child ∈ t.childrenOf i ∧ Text.asciiEq child.2.name name = true :=
  ⟨List.mem_of_find?_eq_some h, by simpa using List.find?_some h⟩

/-! ## Growing -/

/-- A node says what another does, whatever its children are. -/
def Holds (t : Tree) (i : Nat) (n : Node) : Prop :=
  ∃ children, t.node? i = some { n with children }

theorem holds_of_node? {i : Nat} {n : Node} (hn : t.node? i = some n) : t.Holds i n :=
  ⟨n.children, hn⟩

theorem Holds.eq {i : Nat} {m n : Node} (h : t.Holds i n) (hm : t.node? i = some m) :
    m = { n with children := m.children } := by
  obtain ⟨children, hn⟩ := h
  rw [hn, Option.some.injEq] at hm
  rw [← hm]

theorem Holds.kind_eq {i : Nat} {m n : Node} (h : t.Holds i m) (h' : t.Holds i n) :
    m.kind = n.kind := by
  obtain ⟨children, hm⟩ := h
  have hsame := congrArg Node.kind (h'.eq hm)
  exact hsame

theorem Holds.name_eq {i : Nat} {m n : Node} (h : t.Holds i m) (h' : t.Holds i n) :
    m.name = n.name := by
  obtain ⟨children, hm⟩ := h
  have hsame := congrArg Node.name (h'.eq hm)
  exact hsame

theorem IsLinked.exists_child (ht : t.IsLinked) {i parent : Nat} {n : Node} (h : t.Holds i n)
    (hparent : n.parent = some parent) : ∃ children, (i, { n with children }) ∈ t.childrenOf parent := by
  obtain ⟨children, hn⟩ := h
  exact ⟨children, ht.mem_childrenOf_iff.mpr ⟨hn, hparent⟩⟩

/-- A tree has grown: every node says what it said, and subcommands and parameters have
the children they had. -/
structure GrowsTo (t t' : Tree) : Prop where
  holds : ∀ {i n}, t.Holds i n → t'.Holds i n
  kept : ∀ {i n}, t.node? i = some n → n.kind = .subcommand ∨ n.kind = .parameter →
    t'.node? i = some n

theorem GrowsTo.refl (t : Tree) : t.GrowsTo t :=
  ⟨id, fun hn _ => hn⟩

theorem GrowsTo.trans {s : Tree} (h : s.GrowsTo t) (h' : t.GrowsTo t') : s.GrowsTo t' :=
  ⟨fun hn => h'.holds (h.holds hn), fun hn hkind => h'.kept (h.kept hn hkind) hkind⟩

theorem Gains.holds {parent : Nat} {child : Node} (g : t.Gains parent child t') {i : Nat}
    {n : Node} (h : t.Holds i n) : t'.Holds i n := by
  obtain ⟨children, hn⟩ := h
  have hnode := g.node?_of_node? hn
  by_cases hi : i = parent
  · rw [if_pos hi] at hnode
    exact ⟨_, hnode⟩
  · rw [if_neg hi] at hnode
    exact ⟨children, hnode⟩

theorem Gains.growsTo {parent : Nat} {child m : Node} (g : t.Gains parent child t')
    (hm : t.node? parent = some m) (hkind : m.kind = .root ∨ m.kind = .group) :
    t.GrowsTo t' := by
  refine ⟨g.holds, ?_⟩
  intro i n hn hn'
  refine g.node?_of_ne hn ?_
  rintro rfl
  rw [hm, Option.some.injEq] at hn
  rw [← hn] at hn'
  rcases hkind with hkind | hkind <;> simp [hkind] at hn'

/-- The children of a subcommand stay the same while the tree grows. -/
theorem GrowsTo.childrenOf_eq (h : t.GrowsTo t') (ht : t.IsLinked) {i : Nat} {n : Node}
    (hn : t.node? i = some n) (hkind : n.kind = .subcommand)
    (hrow : ∀ child ∈ t.childrenOf i, child.2.kind = .parameter) :
    t'.childrenOf i = t.childrenOf i := by
  rw [childrenOf_of_node? (h.kept hn (.inl hkind)), childrenOf_of_node? hn]
  refine List.filterMap_congr ?_
  intro c hc
  obtain ⟨m, hm, -⟩ := ht.child hn hc
  have hchild : (c, m) ∈ t.childrenOf i := Tree.mem_childrenOf_iff.mpr ⟨⟨n, hn, hc⟩, hm⟩
  rw [h.kept hm (.inr (hrow _ hchild)), hm]

end Tree

namespace Vocabulary

variable {v : Vocabulary} {start t t' : Tree} {declared : List Group}

/-! ## Steps -/

/-- A node is the subcommand of a command under a name below another node. -/
structure SubcommandAt (v : Vocabulary) (t : Tree) (parent : Nat) (name : String)
    (c : CommandInfo) (i : Nat) : Prop where
  holds : t.Holds i (subcommandNode parent name c)
  shows : v.Shows t i (v.shownParams c)

theorem SubcommandAt.growsTo {parent i : Nat} {name : String} {c : CommandInfo}
    (h : v.SubcommandAt t parent name c i) (ht : t.IsLinked) (g : t.GrowsTo t') :
    v.SubcommandAt t' parent name c i := by
  refine ⟨g.holds h.holds, ?_⟩
  obtain ⟨children, hn⟩ := h.holds
  rw [Shows, g.childrenOf_eq ht hn rfl h.shows.kind_eq]
  exact h.shows

/-- Adding the parameters of a command below a node changes no other node and adds
nothing but parameters. -/
structure RowAdded (t : Tree) (parent : Nat) (t' : Tree) : Prop where
  root_eq : t'.root = t.root
  other : ∀ {i n}, t.node? i = some n → i ≠ parent → t'.node? i = some n
  holds : ∀ {n}, t.Holds parent n → t'.Holds parent n
  old : ∀ {i n}, t'.node? i = some n → n.kind ≠ .parameter → ∃ m, t.node? i = some m

theorem rowAdded_addParams {parent : Nat} {c : CommandInfo}
    (h : v.addParams t parent c = .ok t') : RowAdded t parent t' := by
  refine foldlM_induction (RowAdded t parent) ?_ ?_ h
  · exact ⟨rfl, fun hn _ => hn, id, fun hn _ => ⟨_, hn⟩⟩
  · intro p _ before after hbefore hstep
    have g := gains_addParam hstep
    refine ⟨g.root_eq.trans hbefore.root_eq,
      fun hn hi => g.node?_of_ne (hbefore.other hn hi) hi,
      fun hn => g.holds (hbefore.holds hn), ?_⟩
    intro i n hn hkind
    rcases g.eq_of_node? hn with ⟨-, rfl⟩ | ⟨m, hm, rfl⟩
    · exact absurd rfl hkind
    · refine hbefore.old hm fun hparam => hkind ?_
      split <;> exact hparam

theorem Shows.addRow {parent : Nat} {before params : List Param} (hs : v.Shows t parent before)
    (ht : t.IsLinked) (hrow : params.foldlM (v.addParam parent) t = .ok t') :
    v.Shows t' parent (before ++ params) := by
  induction params generalizing t before with
  | nil =>
      rw [List.foldlM_nil] at hrow
      rw [List.append_nil, ← Except.ok.inj hrow]
      exact hs
  | cons p rest ih =>
      rw [List.foldlM_cons, bind_eq_ok] at hrow
      obtain ⟨next, hnext, hrest⟩ := hrow
      have g := gains_addParam hnext
      have hall := ih (hs.gain ht g) (g.isLinked ht) hrest
      rwa [List.append_assoc] at hall

/-- What adding a subcommand does: its spot was free, and apart from parameters it is
the only new node. -/
structure SubcommandAdded (v : Vocabulary) (t : Tree) (parent : Nat) (name : String)
    (c : CommandInfo) (t' : Tree) : Prop where
  fresh : t.childNamed? parent name = none
  growsTo : t.GrowsTo t'
  shown : v.SubcommandAt t' parent name c t.size
  old : ∀ {i n}, t'.node? i = some n → n.kind ≠ .parameter → i ≠ t.size →
    ∃ m, t.node? i = some m

theorem subcommandAdded {commands : List CommandInfo} {parent : Nat} {m : Node} {name : String}
    {c : CommandInfo} (h : v.Grown commands false [] t) (hm : t.node? parent = some m)
    (hkind : m.kind = .root ∨ m.kind = .group) (hadd : v.addSubcommand t parent name c = .ok t') :
    v.SubcommandAdded t parent name c t' := by
  obtain ⟨next, g, hrow⟩ := addSubcommand_eq_ok hadd
  have hrows := rowAdded_addParams hrow
  have hsize : ∀ {i n}, t.node? i = some n → i ≠ t.size :=
    fun hn => Nat.ne_of_lt (Tree.lt_size_of_node? hn)
  have hgrows := g.growsTo hm hkind
  refine ⟨g.fresh, ⟨?_, ?_⟩, ⟨?_, ?_⟩, ?_⟩
  · intro i n hn
    obtain ⟨children, hn'⟩ := hgrows.holds hn
    obtain ⟨_, hi⟩ := hn
    exact ⟨children, hrows.other hn' (hsize hi)⟩
  · intro i n hn hn'
    exact hrows.other (hgrows.kept hn hn') (hsize hn)
  · exact hrows.holds ⟨[], g.node?_new⟩
  · have hshows : v.Shows next t.size [] := by simp [Shows, g.childrenOf_new]
    exact hshows.addRow (g.isLinked h.linked) hrow
  · intro i n hn hn' hi
    obtain ⟨m', hm'⟩ := hrows.old hn hn'
    rcases g.eq_of_node? hm' with ⟨hnew, -⟩ | ⟨k, hk, -⟩
    · exact absurd hnew hi
    · exact ⟨k, hk⟩

/-! ## Spots -/

/-- The spot of the words behind a root: the node below which the last word hangs. -/
inductive Spot (declared : List Group) (t : Tree) : List String → Nat → String → Prop
  | root {name : String} : Spot declared t [name] 0 name
  | group {word group name : String} {j : Nat} (named : Text.asciiEq group word = true)
      (holds : t.Holds j (groupNode declared group)) : Spot declared t [word, name] j name

theorem Spot.ne_nil {sub : List String} {parent : Nat} {name : String}
    (h : Spot declared t sub parent name) : sub ≠ [] := by
  cases h with
  | root => exact List.cons_ne_nil _ _
  | group => exact List.cons_ne_nil _ _

theorem Spot.getLast?_eq {sub : List String} {parent : Nat} {name : String}
    (h : Spot declared t sub parent name) : sub.getLast? = some name := by
  cases h with
  | root => rfl
  | group => rfl

/-- The path of a command leads to a node. -/
def Leads (v : Vocabulary) (declared : List Group) (t : Tree) (c : CommandInfo) (i : Nat) : Prop :=
  ∃ parent name, Spot declared t c.sub parent name ∧ v.SubcommandAt t parent name c i

/-- One of two paths goes on where the other ends, or both are the same. -/
def Clash (c d : CommandInfo) : Prop :=
  c.sub ≠ [] ∧ d.sub ≠ [] ∧ ∀ pair ∈ c.sub.zip d.sub, Text.asciiEq pair.1 pair.2 = true

theorem Clash.symm {c d : CommandInfo} (h : Clash c d) : Clash d c := by
  obtain ⟨hc, hd, hall⟩ := h
  refine ⟨hd, hc, ?_⟩
  rintro ⟨a, b⟩ hpair
  rw [← List.zip_swap, List.mem_map] at hpair
  obtain ⟨⟨b', a'⟩, hmem, hswap⟩ := hpair
  rw [Prod.swap_prod_mk, Prod.mk.injEq] at hswap
  rw [← hswap.1, ← hswap.2]
  exact Text.asciiEq_symm (hall (b', a') hmem)

theorem Spot.growsTo {sub : List String} {parent : Nat} {name : String}
    (h : Spot declared t sub parent name) (g : t.GrowsTo t') : Spot declared t' sub parent name := by
  cases h with
  | root => exact .root
  | group named holds => exact .group named (g.holds holds)

theorem Leads.growsTo {c : CommandInfo} {i : Nat} (h : v.Leads declared t c i) (ht : t.IsLinked)
    (g : t.GrowsTo t') : v.Leads declared t' c i := by
  obtain ⟨parent, name, hspot, hat⟩ := h
  exact ⟨parent, name, hspot.growsTo g, hat.growsTo ht g⟩

/-- Words have at most one spot. -/
theorem Spot.eq {sub : List String} {i j : Nat} {last name : String}
    (h : Spot declared t sub i last) (ht : t.IsLinked) (h' : Spot declared t sub j name) :
    i = j ∧ last = name := by
  cases h with
  | root =>
      cases h' with
      | root => exact ⟨rfl, rfl⟩
  | group named holds =>
      cases h' with
      | group named' holds' =>
          obtain ⟨_, hi⟩ := ht.exists_child holds rfl
          obtain ⟨_, hj⟩ := ht.exists_child holds' rfl
          have hsame := ht.eq_of_asciiEq hi hj (Text.asciiEq_trans named (Text.asciiEq_symm named'))
          exact ⟨congrArg (·.1) hsame, rfl⟩

/-- A command that leads to a child has its spot there. -/
theorem Leads.spot {c : CommandInfo} {child : Nat × Node} (h : v.Leads declared t c child.1)
    (ht : t.IsLinked) {parent : Nat} (hchild : child ∈ t.childrenOf parent) :
    Spot declared t c.sub parent child.2.name := by
  obtain ⟨other, name, hspot, hat⟩ := h
  obtain ⟨hn, hparent⟩ := ht.mem_childrenOf_iff.mp hchild
  have heq := hat.holds.eq hn
  have hname : child.2.name = name := congrArg Node.name heq
  obtain rfl : other = parent := Option.some.inj ((congrArg Node.parent heq).symm.trans hparent)
  exact hname ▸ hspot

/-- The word of the group in which a command is placed. -/
def groupWord? (c : CommandInfo) : Option String :=
  match c.sub with
  | [word, _] => some word
  | _ => none

/-- A tree has grown from another: some commands are placed in it, and some words have
been looked for below its root and added as groups where nothing had them. -/
structure Placed (v : Vocabulary) (start : Tree) (members : List CommandInfo)
    (declared : List Group) (done : List CommandInfo) (words : List String) (t : Tree) :
    Prop where
  grown : v.Grown members false [] t
  growsTo : start.GrowsTo t
  complete : ∀ c ∈ done, c.sub ≠ [] → ∃ i, v.Leads declared t c i
  sound : ∀ {i n}, t.node? i = some n → n.kind = .subcommand →
    ∃ c ∈ done, v.Leads declared t c i
  group : ∀ {i n}, t.node? i = some n → n.kind = .group →
    t.Holds i (groupNode declared n.name) ∧ n.name ∈ words
  realised : ∀ word ∈ words,
    ∃ child ∈ t.childrenOf 0, Text.asciiEq child.2.name word = true
  apart : done.Pairwise fun c d => ¬ Clash c d

namespace Placed

variable {members done : List CommandInfo} {words : List String}

theorem exists_root (h : v.Placed start members declared done words t) :
    ∃ n, t.node? 0 = some n ∧ n.kind = .root := by
  have hn := t.node?_root
  rw [h.grown.linked.root_eq] at hn
  exact ⟨_, hn, h.grown.kind_node?_zero hn⟩

theorem exists_parent (h : v.Placed start members declared done words t) {sub : List String}
    {parent : Nat} {name : String} (hspot : Spot declared t sub parent name) :
    ∃ m, t.node? parent = some m ∧ (m.kind = .root ∨ m.kind = .group) := by
  cases hspot with
  | root =>
      obtain ⟨n, hn, hkind⟩ := h.exists_root
      exact ⟨n, hn, .inl hkind⟩
  | group _ holds =>
      obtain ⟨children, hn⟩ := holds
      exact ⟨_, hn, .inr rfl⟩

theorem not_holds_zero (h : v.Placed start members declared done words t) {group : String} :
    ¬ t.Holds 0 (groupNode declared group) := by
  intro hgroup
  obtain ⟨n, hn, hkind⟩ := h.exists_root
  have hroot := (Tree.holds_of_node? hn).kind_eq hgroup
  rw [hkind] at hroot
  cases hroot

/-- Below a spot hang subcommands, and below the root groups too. -/
theorem kind_of_child (h : v.Placed start members declared done words t) {parent : Nat} {m : Node}
    (hm : t.node? parent = some m) (hkind : m.kind = .root ∨ m.kind = .group) {child : Nat × Node}
    (hchild : child ∈ t.childrenOf parent) :
    child.2.kind = .subcommand ∨ child.2.kind = .group ∧ parent = 0 := by
  have hbears := h.grown.bears hm List.not_mem_nil
  have hmem : child.2.kind ∈ t.childKinds parent := List.mem_map.mpr ⟨child, hchild, rfl⟩
  rcases hkind with hkind | hkind
  · rw [hkind] at hbears
    have hzero := (h.grown.kind_root hm).mp hkind
    rcases hbears _ hmem with hsub | hgroup
    · exact .inl hsub
    · exact .inr ⟨hgroup, hzero⟩
  · rw [hkind] at hbears
    exact .inl (hbears _ hmem)

theorem kind_of_group_child (h : v.Placed start members declared done words t) {i : Nat}
    {group : String} (hi : t.Holds i (groupNode declared group)) {child : Nat × Node}
    (hchild : child ∈ t.childrenOf i) : child.2.kind = .subcommand := by
  obtain ⟨children, hn⟩ := hi
  rcases h.kind_of_child hn (.inr rfl) hchild with hsub | ⟨-, rfl⟩
  · exact hsub
  · exact absurd ⟨children, hn⟩ h.not_holds_zero

/-- A tree that has grown by the nodes of further commands and by further groups. -/
theorem grow {more : List CommandInfo} {moreWords : List String}
    (h : v.Placed start members declared done words t) (hgrown : v.Grown members false [] t')
    (g : t.GrowsTo t')
    (hnew : ∀ {i n}, t'.node? i = some n → t.node? i = none →
      (n.kind = .subcommand → ∃ c ∈ more, v.Leads declared t' c i) ∧
        (n.kind = .group → t'.Holds i (groupNode declared n.name) ∧ n.name ∈ moreWords))
    (hcomplete : ∀ c ∈ more, c.sub ≠ [] → ∃ i, v.Leads declared t' c i)
    (hrealised : ∀ word ∈ moreWords,
      ∃ child ∈ t'.childrenOf 0, Text.asciiEq child.2.name word = true)
    (hapart : (done ++ more).Pairwise fun c d => ¬ Clash c d) :
    v.Placed start members declared (done ++ more) (words ++ moreWords) t' := by
  have hlinked := h.grown.linked
  constructor
  case grown => exact hgrown
  case growsTo => exact h.growsTo.trans g
  case complete =>
    intro c hc hne
    rcases List.mem_append.mp hc with hc | hc
    · obtain ⟨i, hleads⟩ := h.complete c hc hne
      exact ⟨i, hleads.growsTo hlinked g⟩
    · exact hcomplete c hc hne
  case sound =>
    intro i n hn hkind
    cases hold : t.node? i with
    | none =>
        obtain ⟨c, hc, hleads⟩ := (hnew hn hold).1 hkind
        exact ⟨c, List.mem_append_right _ hc, hleads⟩
    | some m =>
        have heq := (g.holds (Tree.holds_of_node? hold)).eq hn
        rw [heq] at hkind
        obtain ⟨c, hc, hleads⟩ := h.sound hold hkind
        exact ⟨c, List.mem_append_left _ hc, hleads.growsTo hlinked g⟩
  case group =>
    intro i n hn hkind
    cases hold : t.node? i with
    | none =>
        obtain ⟨hholds, hname⟩ := (hnew hn hold).2 hkind
        exact ⟨hholds, List.mem_append_right _ hname⟩
    | some m =>
        have heq := (g.holds (Tree.holds_of_node? hold)).eq hn
        rw [heq] at hkind ⊢
        obtain ⟨hholds, hname⟩ := h.group hold hkind
        exact ⟨g.holds hholds, List.mem_append_left _ hname⟩
  case realised =>
    intro word hword
    rcases List.mem_append.mp hword with hword | hword
    · obtain ⟨child, hchild, hname⟩ := h.realised word hword
      obtain ⟨hn, hparent⟩ := hlinked.mem_childrenOf_iff.mp hchild
      obtain ⟨children, hchild'⟩ :=
        hgrown.linked.exists_child (g.holds (Tree.holds_of_node? hn)) hparent
      exact ⟨_, hchild', hname⟩
    · exact hrealised word hword
  case apart => exact hapart

/-- What is placed on a free spot clashes with nothing that was placed before. -/
theorem not_clash (h : v.Placed start members declared done words t) {c : CommandInfo} {parent : Nat}
    {name : String} (hspot : Spot declared t c.sub parent name)
    (hfresh : t.childNamed? parent name = none) : ∀ d ∈ done, ¬ Clash d c := by
  have hlinked := h.grown.linked
  rintro d hd ⟨hne, -, hall⟩
  obtain ⟨i, other, last, hspot', hat⟩ := h.complete d hd hne
  obtain ⟨children, hi⟩ := hlinked.exists_child hat.holds rfl
  have hfree : ∀ child ∈ t.childrenOf parent, ¬ Text.asciiEq child.2.name name = true :=
    List.find?_eq_none.mp hfresh
  clear hne
  generalize c.sub = words at hspot hall
  generalize d.sub = words' at hspot' hall
  cases hspot' with
  | root =>
      cases hspot with
      | root =>
          have hname : Text.asciiEq last name = true := by simpa using hall
          exact hfree _ hi hname
      | @group word group _ _ named holds =>
          -- The node would be a subcommand and a group at once.
          have hname : Text.asciiEq last word = true := by simpa using hall
          obtain ⟨_, hj⟩ := hlinked.exists_child holds rfl
          have hsame := hlinked.eq_of_asciiEq hi hj
            (Text.asciiEq_trans hname (Text.asciiEq_symm named))
          cases congrArg (·.2.kind) hsame
  | @group word' group' _ _ named' holds' =>
      obtain ⟨_, hk⟩ := hlinked.exists_child holds' rfl
      cases hspot with
      | root =>
          have hname : Text.asciiEq word' name = true := by simpa using hall
          exact hfree _ hk (Text.asciiEq_trans named' hname)
      | @group word group _ _ named holds =>
          obtain ⟨hwords, hname⟩ : Text.asciiEq word' word = true ∧
            Text.asciiEq last name = true := by simpa using hall
          obtain ⟨_, hj⟩ := hlinked.exists_child holds rfl
          have hsame := hlinked.eq_of_asciiEq hk hj
            (Text.asciiEq_trans (Text.asciiEq_trans named' hwords) (Text.asciiEq_symm named))
          obtain rfl : other = parent := congrArg (·.1) hsame
          exact hfree _ hi hname

theorem sub_eq_of_spot (h : v.Placed start members declared done words t) {sub : List String}
    {name : String} (hspot : Spot declared t sub 0 name) : sub = [name] := by
  cases hspot with
  | root => rfl
  | group _ holds => exact absurd holds h.not_holds_zero

theorem exists_words (h : v.Placed start members declared done words t) {sub : List String}
    {i : Nat} {group name : String} (hi : t.Holds i (groupNode declared group))
    (hspot : Spot declared t sub i name) :
    ∃ word, sub = [word, name] ∧ Text.asciiEq group word = true := by
  cases hspot with
  | root => exact absurd hi h.not_holds_zero
  | @group word other _ _ named holds =>
      obtain rfl : group = other := hi.name_eq holds
      exact ⟨word, rfl, named⟩

/-- A subcommand below the root is that of a command with its name behind the root. -/
theorem exists_sub_eq (h : v.Placed start members declared done words t)
    {child : Nat × Node} (hchild : child ∈ t.childrenOf 0) (hkind : child.2.kind = .subcommand) :
    ∃ c ∈ done, c.sub = [child.2.name] := by
  have hlinked := h.grown.linked
  obtain ⟨c, hc, hleads⟩ := h.sound (hlinked.mem_childrenOf_iff.mp hchild).1 hkind
  exact ⟨c, hc, h.sub_eq_of_spot (hleads.spot hlinked hchild)⟩

/-- Something hangs on the spot of every placed command. -/
theorem exists_child_of_spot (h : v.Placed start members declared done words t) {c : CommandInfo}
    (hc : c ∈ done) {parent : Nat} {name : String} (hspot : Spot declared t c.sub parent name) :
    ∃ child ∈ t.childrenOf parent, child.2.name = name ∧ child.2.kind = .subcommand ∧
      v.Leads declared t c child.1 := by
  have hlinked := h.grown.linked
  obtain ⟨i, hleads⟩ := h.complete c hc hspot.ne_nil
  have hsame := hleads
  obtain ⟨other, last, hspot', hat⟩ := hleads
  obtain ⟨rfl, rfl⟩ := hspot.eq hlinked hspot'
  obtain ⟨children, hi⟩ := hlinked.exists_child hat.holds rfl
  exact ⟨_, hi, rfl, rfl, hsame⟩

theorem clash_of_spots (h : v.Placed start members declared done words t) {c d : CommandInfo}
    {parent : Nat} {last name : String} (hspot : Spot declared t c.sub parent last)
    (hspot' : Spot declared t d.sub parent name) (hname : Text.asciiEq last name = true) :
    Clash c d := by
  rw [Clash]
  generalize c.sub = words at hspot ⊢
  generalize d.sub = words' at hspot' ⊢
  cases hspot with
  | root =>
      rw [h.sub_eq_of_spot hspot']
      simpa using hname
  | @group word group _ _ named holds =>
      cases hspot' with
      | root => exact absurd holds h.not_holds_zero
      | @group word' group' _ _ named' holds' =>
          obtain rfl : group = group' := holds.name_eq holds'
          simpa using ⟨Text.asciiEq_trans (Text.asciiEq_symm named) named', hname⟩

/-- A spot that clashes with nothing that was placed is free. -/
theorem fresh (h : v.Placed start members declared done words t) {c : CommandInfo} {parent : Nat}
    {name : String} (hspot : Spot declared t c.sub parent name)
    (hwords : parent = 0 → ∀ word ∈ words, ∃ d ∈ done, groupWord? d = some word)
    (hfree : ∀ d ∈ done, ¬ Clash d c) : t.childNamed? parent name = none := by
  obtain ⟨m, hm, hparent⟩ := h.exists_parent hspot
  by_contra hsome
  obtain ⟨⟨i, n⟩, hfound⟩ := Option.ne_none_iff_exists'.mp hsome
  obtain ⟨hchild, hname⟩ := Tree.of_childNamed?_eq_some hfound
  obtain ⟨hn, hup⟩ := h.grown.linked.mem_childrenOf_iff.mp hchild
  rcases h.kind_of_child hm hparent hchild with hkind | ⟨hkind, hroot⟩
  · -- A subcommand has been placed by a command before.
    obtain ⟨d, hd, hleads⟩ := h.sound hn hkind
    exact hfree d hd (h.clash_of_spots (hleads.spot h.grown.linked hchild) hspot hname)
  · -- A group has been brought in by a command before.
    subst hroot
    obtain ⟨-, hword⟩ := h.group hn hkind
    obtain ⟨d, hd, hdword⟩ := hwords rfl _ hword
    refine hfree d hd ?_
    rw [Clash, h.sub_eq_of_spot hspot]
    unfold groupWord? at hdword
    split at hdword
    next word last hdsub =>
      obtain rfl : word = n.name := Option.some.inj hdword
      rw [hdsub]
      simpa using hname
    next => cases hdword

/-! ## Placing -/

theorem addSubcommand (h : v.Placed start members declared done words t) {c : CommandInfo}
    (hc : c ∈ members) {parent : Nat} {name : String}
    (hspot : Spot declared t c.sub parent name)
    (hadd : v.addSubcommand t parent name c = .ok t') :
    v.Placed start members declared (done ++ [c]) words t' := by
  obtain ⟨m, hm, hkind⟩ := h.exists_parent hspot
  have hadded := subcommandAdded h.grown hm hkind hadd
  have hleads : v.Leads declared t' c t.size :=
    ⟨parent, name, hspot.growsTo hadded.growsTo, hadded.shown⟩
  rw [← List.append_nil words]
  refine h.grow (h.grown.addSubcommand hm hkind hc hadd) hadded.growsTo ?_ ?_ ?_ ?_
  · intro i n hn hold
    have hnew : n.kind ≠ .parameter → i = t.size := by
      intro hparam
      by_contra hi
      obtain ⟨k, hk⟩ := hadded.old hn hparam hi
      rw [hold] at hk
      cases hk
    constructor
    · intro hsub
      rw [hnew (by simp [hsub])]
      exact ⟨c, List.mem_singleton_self c, hleads⟩
    · intro hgroup
      rw [hnew (by simp [hgroup])] at hn
      have hother := hadded.shown.holds.kind_eq (Tree.holds_of_node? hn)
      rw [hgroup] at hother
      cases hother
  · intro d hd _
    exact ⟨t.size, List.mem_singleton.mp hd ▸ hleads⟩
  · exact fun word hword => absurd hword List.not_mem_nil
  · refine List.pairwise_append.mpr ⟨h.apart, List.pairwise_singleton _ _, ?_⟩
    intro d hd c' hc'
    rw [List.mem_singleton.mp hc']
    exact h.not_clash hspot hadded.fresh d hd

theorem realise (h : v.Placed start members declared done words t) {word : String}
    (hfound : (t.childNamed? 0 word).isSome = true) :
    v.Placed start members declared done (words ++ [word]) t := by
  obtain ⟨child, hchild⟩ := Option.isSome_iff_exists.mp hfound
  rw [← List.append_nil done]
  refine h.grow h.grown (.refl t) ?_ ?_ ?_ (by rw [List.append_nil]; exact h.apart)
  · intro i n hn hold
    rw [hold] at hn
    cases hn
  · exact fun c hc => absurd hc List.not_mem_nil
  · intro other hother
    rw [List.mem_singleton.mp hother]
    exact ⟨child, Tree.of_childNamed?_eq_some hchild⟩

theorem ensureGroup (h : v.Placed start members declared done words t) {word : String} {i : Nat}
    (hadd : ensureGroup declared t word = .ok (i, t')) :
    v.Placed start members declared done (words ++ [word]) t' ∧
      ∃ group, Text.asciiEq group word = true ∧ t'.Holds i (groupNode declared group) := by
  have hgrown := (h.grown.ensureGroup hadd).1
  have hroot := h.grown.linked.root_eq
  rcases ensureGroup_eq_ok hadd with ⟨n, hfound, hkind, rfl⟩ | ⟨rfl, g⟩
  · rw [hroot] at hfound
    obtain ⟨hchild, hname⟩ := Tree.of_childNamed?_eq_some hfound
    obtain ⟨hn, -⟩ := h.grown.linked.mem_childrenOf_iff.mp hchild
    exact ⟨h.realise (by rw [hfound]; rfl), _, hname, (h.group hn hkind).1⟩
  · rw [hroot] at g
    obtain ⟨n, hn, hkind⟩ := h.exists_root
    have hnode : t'.Holds t.size (groupNode declared word) := ⟨[], g.node?_new⟩
    obtain ⟨children, hchild⟩ := hgrown.linked.exists_child hnode rfl
    refine ⟨?_, word, Text.asciiEq_refl word, hnode⟩
    rw [← List.append_nil done]
    refine h.grow hgrown (g.growsTo hn (.inl hkind)) ?_ ?_ ?_ ?_
    · intro i n hn hold
      rcases g.eq_of_node? hn with ⟨rfl, rfl⟩ | ⟨m, hm, -⟩
      · exact ⟨fun hsub => by simp [groupNode] at hsub,
          fun _ => ⟨hnode, List.mem_singleton_self word⟩⟩
      · rw [hold] at hm
        cases hm
    · exact fun c hc => absurd hc List.not_mem_nil
    · intro other hother
      rw [List.mem_singleton.mp hother]
      exact ⟨_, hchild, Text.asciiEq_refl word⟩
    · rw [List.append_nil]
      exact h.apart

theorem placeGroup (h : v.Placed start members declared done words t) {g : Group}
    (hadd : placeGroup declared t g = .ok t') :
    v.Placed start members declared done (words ++ [groupName g]) t' := by
  rcases placeGroup_eq_ok hadd with ⟨hfound, rfl⟩ | ⟨id, hgrown⟩
  · rw [h.grown.linked.root_eq] at hfound
    exact h.realise hfound
  · exact (h.ensureGroup hgrown).1

/-- Placing a command, by the number of words behind its root. -/
theorem place (h : v.Placed start members declared done (done.filterMap groupWord?) t)
    {c : CommandInfo} (hc : c ∈ members) (hadd : v.place declared false t c = .ok t') :
    v.Placed start members declared (done ++ [c]) ((done ++ [c]).filterMap groupWord?) t' := by
  have hroot := h.grown.linked.root_eq
  rw [List.filterMap_append]
  rcases place_eq_ok hadd with
    ⟨hsub, rfl⟩ | ⟨name, hsub, hadd⟩ | ⟨word, name, id, next, hsub, hnext, hadd⟩
  · have hword : [c].filterMap groupWord? = [] := by simp [groupWord?, hsub]
    have hbare : ∀ d, ¬ Clash d c := fun d hclash => hclash.2.1 hsub
    rw [hword]
    refine h.grow h.grown (.refl t') ?_ ?_ ?_ ?_
    · intro i n hn hold
      rw [hold] at hn
      cases hn
    · intro d hd hne
      rw [List.mem_singleton.mp hd] at hne
      exact absurd hsub hne
    · exact fun word hword => absurd hword List.not_mem_nil
    · refine List.pairwise_append.mpr ⟨h.apart, List.pairwise_singleton _ _, ?_⟩
      intro d _ c' hc'
      rw [List.mem_singleton.mp hc']
      exact hbare d
  · have hword : [c].filterMap groupWord? = [] := by simp [groupWord?, hsub]
    rw [hroot] at hadd
    rw [hword, List.append_nil]
    exact h.addSubcommand hc (hsub ▸ .root) hadd
  · have hword : [c].filterMap groupWord? = [word] := by simp [groupWord?, hsub]
    obtain ⟨hplaced, group, hnamed, hholds⟩ := h.ensureGroup hnext
    rw [hword]
    exact hplaced.addSubcommand hc (hsub ▸ .group hnamed hholds) hadd

end Placed

end Vocabulary

end ChatCommands.Schema
