import Mathlib.Data.List.Dedup
import Mathlib.Tactic.MkIffOfInductiveProp
import ChatCommands.Proofs.Schema.Bounds
import ChatCommands.Proofs.Schema.Groups
import ChatCommands.Proofs.Schema.Progress
import ChatCommands.Proofs.Schema.Reorder

/-!
# Roots that are accepted

The rules for the commands of a root, said of the commands and groups themselves, are all that
a layout asks for.  Where they are kept, no stage gets stuck: the parameters pass in their order,
no two spots clash, no group stays empty, and every node keeps the limits.
-/

namespace ChatCommands.Schema

/-! ## The rules -/

/-- The word that a path goes on with behind other words. -/
def nextWord? (before : List String) (c : CommandInfo) : Option String :=
  if c.sub.take before.length = before then c.sub[before.length]? else none

/-- The words with which the paths of a root go on behind some words. -/
def wordsBehind (root : String) (commands : List CommandInfo) (before : List String) :
    List String :=
  ((ofRoot root commands).filterMap (nextWord? before)).dedup

namespace Vocabulary

/-- The rules for a command on its own.  Parameters that take input are those that are shown. -/
@[mk_iff]
structure Proper (v : Vocabulary) (c : CommandInfo) : Prop where
  path : c.path.length ≤ 3
  words : ∀ word ∈ c.path, 1 ≤ word.length ∧ word.length ≤ 32
  types : ∀ p ∈ c.params, (v.resolvers.find? p.type).isSome = true
  conditions : ∀ p ∈ c.params, ∀ use ∈ p.conditions, (v.conditions.find? use.name).isSome = true
  choices : ∀ p ∈ c.params, p.choices.length ≤ 25
  lists : (v.shownParams c).Pairwise fun p _ => p.type ≠ .strings
  required : (v.shownParams c).Pairwise fun p q => p.requiresInput = false → q.requiresInput = false

instance (v : Vocabulary) (c : CommandInfo) : Decidable (v.Proper c) :=
  decidable_of_iff' _ (proper_iff v c)

/-- The rules for the commands and groups of a root. -/
structure Acceptable (v : Vocabulary) (root : String) (commands : List CommandInfo)
    (groups : List Group) : Prop where
  declared : ∃ c ∈ commands, c.root = root
  proper : ∀ c ∈ commands, c.root = root → v.Proper c
  /-- No word behind the root is the last word of one path and not the last of another. -/
  apart : ∀ c ∈ commands, c.root = root → ∀ d ∈ commands, d.root = root →
    c.sub.length = 1 → d.sub.length = 2 → c.sub.head? ≠ d.sub.head?
  grouped : ∀ g ∈ groups, ∀ word, g.path = [root, word] →
    ∃ c ∈ commands, c.root = root ∧ ∃ name, c.sub = [word, name]
  rootDescribed : 1 ≤ (rootDescription root (ofRoot root commands) groups).length ∧
    (rootDescription root (ofRoot root commands) groups).length ≤ 100
  described : ∀ c, Published root commands groups c → c.sub ≠ [] →
    1 ≤ c.description.length ∧ c.description.length ≤ 100
  groupsDescribed : ∀ g ∈ groups, ∀ word, g.path = [root, word] → g.description.length ≤ 100
  params : ∀ c, Published root commands groups c → ∀ p ∈ v.shownParams c,
    (1 ≤ p.name.length ∧ p.name.length ≤ 32) ∧
      1 ≤ p.shownDescription.length ∧ p.shownDescription.length ≤ 100
  /-- What hangs below the root, where it shows no parameters, and below each group. -/
  below : ∀ before, (wordsBehind root commands before).length ≤ 25
  rows : ∀ c, Published root commands groups c → (v.shownParams c).length ≤ 25

end Vocabulary

/-! ## Commands on their own -/

namespace Vocabulary

variable {v : Vocabulary} {root : String} {commands : List CommandInfo} {groups : List Group}
  {t : Tree}

theorem exists_checkParam {p : Param} {r : Resolver} (hr : v.resolvers.find? p.type = some r)
    (hconditions : ∀ use ∈ p.conditions, (v.conditions.find? use.name).isSome = true)
    (hchoices : p.choices.length ≤ 25) : v.checkParam p = .ok r := by
  have hregistered : p.conditions.find? (fun use => (v.conditions.find? use.name).isNone) = none := by
    rw [List.find?_eq_none]
    intro use huse
    rw [Bool.not_eq_true, Option.isNone_eq_false_iff]
    exact hconditions use huse
  have hcount : checkChoices p.name p.choices.length = .ok () :=
    checkChoices_eq_ok_iff.mpr hchoices
  rw [checkParam, hr]
  simp only [hregistered, hcount]
  rfl

/-- Parameters pass behind others if those that take input stand in an order in which they can
be given, and the others rule none of them out. -/
theorem checkParams_of_pairwise {passed : Passed} {params : List Param}
    (hchecked : ∀ p ∈ params, ∃ r, v.checkParam p = .ok r)
    (hlists : (params.filter v.isShown).Pairwise fun p _ => p.type ≠ .strings)
    (hrequired : (params.filter v.isShown).Pairwise
      fun p q => p.requiresInput = false → q.requiresInput = false)
    (hvariadic : passed.variadic.isSome = true → params.filter v.isShown = [])
    (hoptional : passed.optional = true →
      ∀ q ∈ params.filter v.isShown, q.requiresInput = false) :
    v.checkParams passed params = .ok () := by
  induction params generalizing passed with
  | nil => rfl
  | cons p rest ih =>
      obtain ⟨r, hr⟩ := hchecked p List.mem_cons_self
      have hrest := fun q hq => hchecked q (List.mem_cons_of_mem p hq)
      have hshown := isShown_eq (checkParam_eq_ok hr)
      rw [checkParams, bind_eq_ok]
      refine ⟨r, hr, ?_⟩
      split
      next hissuer =>
        rw [List.filter_cons_of_neg (by simp [hshown, hissuer])] at hlists hrequired hvariadic hoptional
        exact ih hrest hlists hrequired hvariadic hoptional
      next htakes =>
        rw [List.filter_cons_of_pos (by simp [hshown, htakes])] at hlists hrequired hvariadic hoptional
        obtain ⟨hlist, hlists⟩ := List.pairwise_cons.mp hlists
        obtain ⟨hrequires, hrequired⟩ := List.pairwise_cons.mp hrequired
        have hnone : passed.variadic = none := by
          rw [← Option.not_isSome_iff_eq_none]
          intro hsome
          cases hvariadic hsome
        have hordered : ¬ (p.requiresInput && passed.optional) = true := by
          rw [Bool.and_eq_true]
          rintro ⟨hinput, hpassed⟩
          rw [hoptional hpassed p List.mem_cons_self] at hinput
          cases hinput
        rw [Passed.add, hnone]
        simp only [if_neg hordered]
        refine ih hrest hlists hrequired ?_ ?_
        · -- Behind a list nothing is shown any more.
          intro hsome
          rw [List.eq_nil_iff_forall_not_mem]
          intro q hq
          refine hlist q hq ?_
          cases htype : p.type <;> simp [htype, ParamType.isVariadic] at hsome ⊢
        · intro hpassed q hq
          rcases Bool.or_eq_true_iff.mp hpassed with hbefore | hfree
          · exact hoptional hbefore q (List.mem_cons_of_mem p hq)
          · exact hrequires q hq (by simpa using hfree)

theorem Proper.checkCommand {c : CommandInfo} (h : v.Proper c) : v.checkCommand c = .ok () := by
  have hwords : c.path.forM checkName = .ok () :=
    forM_eq_ok.mpr fun word hword => checkName_eq_ok_iff.mpr (h.words word hword)
  have hparams : v.checkParams {} c.params = .ok () := by
    refine checkParams_of_pairwise ?_ h.lists h.required ?_ ?_
    · intro p hp
      obtain ⟨r, hr⟩ := Option.isSome_iff_exists.mp (h.types p hp)
      exact ⟨r, exists_checkParam hr (h.conditions p hp) (h.choices p hp)⟩
    · intro hsome
      cases hsome
    · intro hpassed
      cases hpassed
  simp only [Vocabulary.checkCommand, check_eq_ok]
  refine ⟨Nat.not_lt.mpr h.path, ?_⟩
  rw [bind_eq_ok]
  exact ⟨(), hwords, hparams⟩

end Vocabulary

/-! ## Commands beside each other -/

/-- Children have different names, and so there are no more of them than of names they have. -/
theorem Tree.IsLinked.length_children_le {t : Tree} (ht : t.IsLinked) {i : Nat} {n : Node}
    (hn : t.node? i = some n) {names : List String}
    (hnames : ∀ child ∈ t.childrenOf i, child.2.name ∈ names) :
    n.children.length ≤ names.length := by
  have hsubset : t.childNames i ⊆ names := by
    intro name hname
    obtain ⟨child, hchild, rfl⟩ := List.mem_map.mp hname
    exact hnames child hchild
  calc
    n.children.length = (t.childNames i).length := by
      rw [← ht.map_fst_childrenOf hn, List.length_map, Tree.childNames, List.length_map]
    _ ≤ names.length := (List.subperm_of_subset (ht.nodup_childNames i) hsubset).length_le

theorem pairwise_path_firstOfEachPath (members : List CommandInfo) :
    (firstOfEachPath members).Pairwise fun c d => c.path ≠ d.path := by
  induction members using filter_induction otherPath with
  | nil => exact .nil
  | cons first rest ih =>
      rw [firstOfEachPath_cons]
      refine List.pairwise_cons.mpr ⟨fun d hd hpath => ?_, ih⟩
      have hother := (List.mem_filter.mp (mem_of_mem_firstOfEachPath hd)).2
      simp [otherPath, hpath] at hother

/-- Of one or two words on each side that agree as far as both go, one side may go on. -/
theorem eq_or_of_zip {xs ys : List String} (hxs : xs ≠ []) (hys : ys ≠ []) (hx : xs.length ≤ 2)
    (hy : ys.length ≤ 2) (h : ∀ pair ∈ xs.zip ys, pair.1 = pair.2) :
    xs = ys ∨ ∃ word name, xs = [word] ∧ ys = [word, name] ∨ ys = [word] ∧ xs = [word, name] := by
  match xs, ys, hxs, hys, hx, hy with
  | [a], [b], _, _, _, _ =>
    have heq : a = b := by simpa using h
    exact .inl (by rw [heq])
  | [a], [b, n], _, _, _, _ =>
    have heq : a = b := by simpa using h
    exact .inr ⟨b, n, .inl ⟨by rw [heq], rfl⟩⟩
  | [a, m], [b], _, _, _, _ =>
    have heq : a = b := by simpa using h
    exact .inr ⟨a, m, .inr ⟨by rw [heq], rfl⟩⟩
  | [a, m], [b, n], _, _, _, _ =>
    have heq : a = b ∧ m = n := by simpa using h
    exact .inl (by rw [heq.1, heq.2])

theorem mem_wordsBehind {root : String} {commands : List CommandInfo} {before rest : List String}
    {word : String} {c : CommandInfo} (hc : c ∈ ofRoot root commands)
    (hsub : c.sub = before ++ word :: rest) : word ∈ wordsBehind root commands before := by
  rw [wordsBehind, List.mem_dedup, List.mem_filterMap]
  refine ⟨c, hc, ?_⟩
  rw [nextWord?, hsub, List.take_left, if_pos rfl, List.getElem?_append_right (Nat.le_refl _),
    Nat.sub_self]
  rfl

theorem path_of_mem_groupsOf {root : String} {groups : List Group} {g : Group}
    (hg : g ∈ groupsOf root groups) : g ∈ groups ∧ g.path = [root, groupName g] := by
  obtain ⟨hmem, hpath⟩ := List.mem_filter.mp hg
  obtain ⟨hlength, hhead⟩ := Bool.and_eq_true_iff.mp hpath
  obtain ⟨first, word, hwords⟩ := List.length_eq_two.mp (beq_iff_eq.mp hlength)
  obtain rfl : first = root := by simpa [hwords] using hhead
  exact ⟨hmem, by rw [groupName, hwords]; rfl⟩

/-- The description of a group fits if what is declared for it does. -/
theorem groupDescription_length {declared : List Group} {name : String}
    (hname : 1 ≤ name.length ∧ name.length ≤ 32)
    (hdeclared : ∀ g ∈ declared, g.description.length ≤ 100) :
    1 ≤ (groupDescription declared name).length ∧
      (groupDescription declared name).length ≤ 100 := by
  simp only [groupDescription]
  cases hgiven : (((declared.find? fun g => Text.asciiEq (groupName g) name).map
      (·.description)).filter (· != "")) with
  | none =>
      have hsuffix : " commands".length = 9 := rfl
      rw [Option.getD_none, String.length_append, hsuffix]
      omega
  | some description =>
      obtain ⟨hsome, hne⟩ := Option.filter_eq_some_iff.mp hgiven
      obtain ⟨g, hg, rfl⟩ := Option.map_eq_some_iff.mp hsome
      rw [Option.getD_some]
      refine ⟨Nat.one_le_iff_ne_zero.mpr fun hzero => ?_,
        hdeclared g (List.mem_of_find?_eq_some hg)⟩
      simp [String.length_eq_zero_iff.mp hzero] at hne

namespace Vocabulary

variable {v : Vocabulary} {root : String} {commands : List CommandInfo} {groups : List Group}
  {t : Tree}

/-- All that is to be placed below a root is. -/
abbrev Complete (v : Vocabulary) (root : String) (commands : List CommandInfo)
    (groups : List Group) (t : Tree) : Prop :=
  v.Placed (rootAlone root commands groups) (firstOfEachPath (ofRoot root commands))
    (groupsOf root groups) (firstOfEachPath (ofRoot root commands))
    ((firstOfEachPath (ofRoot root commands)).filterMap groupWord? ++
      (groupsOf root groups).map groupName) t

namespace Acceptable

variable (h : v.Acceptable root commands groups)

include h

theorem length_sub {c : CommandInfo} (hc : c ∈ ofRoot root commands) : c.sub.length ≤ 2 := by
  obtain ⟨hmem, hroot⟩ := mem_ofRoot_iff.mp hc
  have hlength := (h.proper c hmem hroot).path
  rw [CommandInfo.path, List.length_cons] at hlength
  omega

theorem length_word {c : CommandInfo} (hc : c ∈ ofRoot root commands) {word : String}
    (hword : word ∈ c.sub) : 1 ≤ word.length ∧ word.length ≤ 32 := by
  obtain ⟨hmem, hroot⟩ := mem_ofRoot_iff.mp hc
  exact (h.proper c hmem hroot).words word (List.mem_cons_of_mem _ hword)

theorem pairwise_not_clash (hlower : ∀ c ∈ commands, ∀ word ∈ c.path, Text.IsLower word) :
    (firstOfEachPath (ofRoot root commands)).Pairwise fun c d => ¬ Clash c d := by
  refine (pairwise_path_firstOfEachPath _).imp_of_mem ?_
  rintro c d hc hd hne ⟨hcsub, hdsub, hall⟩
  have hc := mem_of_mem_firstOfEachPath hc
  have hd := mem_of_mem_firstOfEachPath hd
  obtain ⟨hcmem, hcroot⟩ := mem_ofRoot_iff.mp hc
  obtain ⟨hdmem, hdroot⟩ := mem_ofRoot_iff.mp hd
  have hwords : ∀ pair ∈ c.sub.zip d.sub, pair.1 = pair.2 := by
    intro pair hpair
    obtain ⟨hfirst, hsecond⟩ := List.of_mem_zip hpair
    have hfirst := hlower c hcmem _ (List.mem_cons_of_mem _ hfirst)
    have hsecond := hlower d hdmem _ (List.mem_cons_of_mem _ hsecond)
    exact (Text.asciiEq_iff_of_isLower hfirst hsecond).mp (hall pair hpair)
  rcases eq_or_of_zip hcsub hdsub (h.length_sub hc) (h.length_sub hd) hwords with
    heq | ⟨word, name, ⟨hone, htwo⟩ | ⟨hone, htwo⟩⟩
  · exact hne (by rw [CommandInfo.path, CommandInfo.path, hcroot, hdroot, heq])
  · exact h.apart c hcmem hcroot d hdmem hdroot (by rw [hone]; rfl) (by rw [htwo]; rfl)
      (by rw [hone, htwo]; rfl)
  · exact h.apart d hdmem hdroot c hcmem hcroot (by rw [hone]; rfl) (by rw [htwo]; rfl)
      (by rw [hone, htwo]; rfl)

/-- Every group that is placed has a command in it. -/
theorem exists_sub_eq_of_word {word : String}
    (hword : word ∈ (firstOfEachPath (ofRoot root commands)).filterMap groupWord? ++
      (groupsOf root groups).map groupName) :
    ∃ c ∈ firstOfEachPath (ofRoot root commands), ∃ name, c.sub = [word, name] := by
  rcases List.mem_append.mp hword with hword | hword
  · obtain ⟨c, hc, hcword⟩ := List.mem_filterMap.mp hword
    unfold groupWord? at hcword
    split at hcword
    next first last hsub =>
      obtain rfl : first = word := Option.some.inj hcword
      exact ⟨c, hc, last, hsub⟩
    next => cases hcword
  · obtain ⟨g, hg, rfl⟩ := List.mem_map.mp hword
    obtain ⟨hmem, hpath⟩ := path_of_mem_groupsOf hg
    obtain ⟨c, hc, hroot, name, hsub⟩ := h.grouped g hmem (groupName g) hpath
    obtain ⟨d, hd, hdpath⟩ := exists_mem_firstOfEachPath (mem_ofRoot_iff.mpr ⟨hc, hroot⟩)
    exact ⟨d, hd, name, (List.cons.inj hdpath).2.trans hsub⟩

/-! ## Nodes -/

/-- The root says what it said before anything hung below it. -/
theorem sized_root {n : Node} (hn : t.node? 0 = some n) (hholds : t.Holds 0
      ⟨.root, root, rootDescription root (ofRoot root commands) groups, Dict.empty, [], none, false⟩)
    (hchildren : n.children.length ≤ 25) : n.extent.Sized := by
  obtain ⟨c, hc, hroot⟩ := h.declared
  have hname := (h.proper c hc hroot).words root (hroot ▸ List.mem_cons_self)
  rw [hholds.eq hn]
  exact ⟨hname, h.rootDescribed, hchildren⟩

theorem sized_parameter {i : Nat} {c : CommandInfo} {p : Param}
    (hc : Published root commands groups c) (hp : p ∈ v.shownParams c) :
    (v.parameterNode i p).extent.Sized := by
  obtain ⟨hname, hdescription⟩ := h.params c hc p hp
  exact ⟨hname, hdescription, Nat.zero_le 25⟩

theorem length_children_of_shows (ht : t.IsLinked) {i : Nat} {n : Node} (hn : t.node? i = some n)
    {c : CommandInfo} (hc : Published root commands groups c) (hs : v.Shows t i (v.shownParams c)) :
    n.children.length ≤ 25 := by
  have hlength : (t.childrenOf i).length = (v.shownParams c).length := by
    simpa using congrArg List.length hs
  rw [← ht.map_fst_childrenOf hn, List.length_map, hlength]
  exact h.rows c hc

section

variable (ht : v.Complete root commands groups t)

include ht

theorem length_children_root {n : Node} (hn : t.node? 0 = some n) : n.children.length ≤ 25 := by
  have hlinked := ht.grown.linked
  refine Nat.le_trans (hlinked.length_children_le hn fun child hchild => ?_) (h.below [])
  rcases ht.kind_of_child hn (.inl (ht.grown.kind_node?_zero hn)) hchild with hsub | ⟨hgroup, -⟩
  · obtain ⟨c, hc, hcsub⟩ := ht.exists_sub_eq hchild hsub
    exact mem_wordsBehind (mem_of_mem_firstOfEachPath hc) hcsub
  · obtain ⟨-, hword⟩ := ht.group (hlinked.mem_childrenOf_iff.mp hchild).1 hgroup
    obtain ⟨c, hc, name, hcsub⟩ := h.exists_sub_eq_of_word hword
    exact mem_wordsBehind (mem_of_mem_firstOfEachPath hc) hcsub

theorem sized_group (hlower : ∀ c ∈ commands, ∀ word ∈ c.path, Text.IsLower word) {i : Nat}
    {n : Node} (hn : t.node? i = some n) (hkind : n.kind = .group) :
    n.extent.Sized ∧ n.children ≠ [] := by
  have hlinked := ht.grown.linked
  obtain ⟨hholds, hword⟩ := ht.group hn hkind
  obtain ⟨c, hc, name, hsub⟩ := h.exists_sub_eq_of_word hword
  have hmem := mem_of_mem_firstOfEachPath hc
  have hfirst : n.name ∈ c.sub := hsub ▸ List.mem_cons_self
  have hname := h.length_word hmem hfirst
  have hdescription : n.description = groupDescription (groupsOf root groups) n.name :=
    congrArg Node.description (hholds.eq hn)
  refine ⟨⟨hname, ?_, ?_⟩, ?_⟩
  · rw [Node.extent, hdescription]
    refine groupDescription_length hname fun g hg => ?_
    obtain ⟨hg, hpath⟩ := path_of_mem_groupsOf hg
    exact h.groupsDescribed g hg _ hpath
  · refine Nat.le_trans (hlinked.length_children_le hn fun child hchild => ?_) (h.below [n.name])
    have hchildKind := ht.kind_of_group_child hholds hchild
    obtain ⟨d, hd, hleads⟩ := ht.sound (hlinked.mem_childrenOf_iff.mp hchild).1 hchildKind
    obtain ⟨word, hdsub, hnamed⟩ := ht.exists_words hholds (hleads.spot hlinked hchild)
    -- The command calls the group by the name that it has.
    have hd := mem_of_mem_firstOfEachPath hd
    have hdword : word ∈ d.sub := hdsub ▸ List.mem_cons_self
    have hone := hlower c (mem_ofRoot_iff.mp hmem).1 n.name (List.mem_cons_of_mem _ hfirst)
    have htwo := hlower d (mem_ofRoot_iff.mp hd).1 word (List.mem_cons_of_mem _ hdword)
    obtain rfl := (Text.asciiEq_iff_of_isLower hone htwo).mp hnamed
    exact mem_wordsBehind hd hdsub
  · have hspot : Spot (groupsOf root groups) t c.sub i name :=
      hsub ▸ .group (Text.asciiEq_refl n.name) hholds
    obtain ⟨child, hchild, -⟩ := ht.exists_child_of_spot hc hspot
    intro hnone
    have hchild := List.mem_map_of_mem (f := (·.1)) hchild
    rw [hlinked.map_fst_childrenOf hn, hnone] at hchild
    cases hchild

theorem sized_subcommand {i : Nat} {n : Node} (hn : t.node? i = some n)
    (hkind : n.kind = .subcommand) : n.extent.Sized := by
  obtain ⟨c, hc, parent, name, hspot, hat⟩ := ht.sound hn hkind
  have hne := hspot.ne_nil
  have hpublished : Published root commands groups c :=
    published_iff.mpr ⟨hc, fun hsub => absurd hsub hne⟩
  have hword : name ∈ c.sub := List.mem_of_getLast? hspot.getLast?_eq
  have hchildren := h.length_children_of_shows ht.grown.linked hn hpublished hat.shows
  rw [hat.holds.eq hn]
  exact ⟨h.length_word (mem_of_mem_firstOfEachPath hc) hword, h.described c hpublished hne,
    hchildren⟩

theorem check_of_complete (hlower : ∀ c ∈ commands, ∀ word ∈ c.path, Text.IsLower word) :
    t.check = .ok () := by
  have hlinked := ht.grown.linked
  rw [Tree.check_eq_ok_iff]
  intro i n hn
  cases hkind : n.kind with
  | root =>
      obtain rfl := (ht.grown.kind_root hn).mp hkind
      have hholds := ht.growsTo.holds (Tree.holds_of_node? (Tree.node?_root _))
      exact ⟨h.sized_root hn hholds (h.length_children_root ht hn), nofun⟩
  | group =>
      obtain ⟨hsized, hne⟩ := h.sized_group ht hlower hn hkind
      exact ⟨hsized, fun _ => hne⟩
  | subcommand => exact ⟨h.sized_subcommand ht hn hkind, nofun⟩
  | parameter =>
      obtain ⟨j, m, -, hm, -, hchild⟩ := ht.grown.exists_parent hn (by simp [hkind])
      have hsub := ht.grown.kind_of_parameter hm hchild hkind
      obtain ⟨c, hc, parent, name, hspot, hat⟩ := ht.sound hm hsub
      obtain ⟨p, hp, rfl⟩ := hat.shows.exists_parameterNode hchild
      have hpublished : Published root commands groups c :=
        published_iff.mpr ⟨hc, fun hsub => absurd hsub hspot.ne_nil⟩
      exact ⟨h.sized_parameter hpublished hp, nofun⟩

end

theorem check_of_rowShown {c : CommandInfo} (hc : Published root commands groups c)
    (ht : v.RowShown (rootAlone root commands groups) c t) : t.check = .ok () := by
  have hlinked := ht.grown.linked
  rw [Tree.check_eq_ok_iff]
  intro i n hn
  by_cases hkind : n.kind = .parameter
  · obtain ⟨j, m, -, hm, hnot, hchild⟩ := ht.grown.exists_parent hn (by simp [hkind])
    obtain rfl := ht.eq_zero hm hnot
    obtain ⟨p, hp, rfl⟩ := ht.shows.exists_parameterNode hchild
    exact ⟨h.sized_parameter hc hp, nofun⟩
  · obtain rfl := ht.eq_zero hn hkind
    have hholds := ht.added.holds (Tree.holds_of_node? (Tree.node?_root _))
    have hchildren := h.length_children_of_shows hlinked hn hc ht.shows
    exact ⟨h.sized_root hn hholds hchildren, by simp [ht.grown.kind_node?_zero hn]⟩

/-! ## Stages -/

/-- Where the root is to show parameters, they are those of one command. -/
theorem exists_bare (hbare : showsBare root commands groups = true) :
    ∃ c, firstOfEachPath (ofRoot root commands) = [c] ∧ c.sub = [] ∧
      Published root commands groups c := by
  obtain ⟨-, hsub⟩ := showsBare_iff.mp hbare
  obtain ⟨first, hfirst, hroot⟩ := h.declared
  obtain ⟨d, hd, -⟩ := exists_mem_firstOfEachPath (mem_ofRoot_iff.mpr ⟨hfirst, hroot⟩)
  have hpath : ∀ c ∈ ofRoot root commands, c.path = [root] := by
    intro c hc
    obtain ⟨hmem, hroot⟩ := mem_ofRoot_iff.mp hc
    rw [CommandInfo.path, hroot, hsub c hmem hroot]
  rcases firstOfEachPath_of_path_eq hpath with hnone | ⟨c, hc, hone⟩
  · rw [hnone] at hd
    cases hd
  · have hcfirst : c ∈ firstOfEachPath (ofRoot root commands) := hone ▸ List.mem_singleton_self c
    obtain ⟨hmem, hroot⟩ := mem_ofRoot_iff.mp hc
    exact ⟨c, hone, hsub c hmem hroot, published_iff.mpr ⟨hcfirst, fun _ => hbare⟩⟩

theorem exists_layout (hlower : ∀ c ∈ commands, ∀ word ∈ c.path, Text.IsLower word)
    (hnames : ∀ c ∈ commands, c.params.Pairwise fun p q => Text.asciiEq p.name q.name = false) :
    ∃ t, v.layout root commands groups = .ok t := by
  have hchecked : ∀ c ∈ ofRoot root commands, v.checkCommand c = .ok () := by
    intro c hc
    obtain ⟨hmem, hroot⟩ := mem_ofRoot_iff.mp hc
    exact (h.proper c hmem hroot).checkCommand
  have hshown : ∀ c ∈ firstOfEachPath (ofRoot root commands),
      (v.shownParams c).Pairwise fun p q => Text.asciiEq p.name q.name = false := by
    intro c hc
    exact (hnames c (mem_ofRoot_iff.mp (mem_of_mem_firstOfEachPath hc)).1).filter v.isShown
  cases hbare : showsBare root commands groups with
  | true =>
      obtain ⟨c, hone, hsub, hc⟩ := h.exists_bare hbare
      have hnew : v.Shows (rootAlone root commands groups) 0 [] := by
        simp [Shows, Tree.childrenOf_new]
      obtain ⟨t, hrow⟩ := hnew.exists_addRow (Tree.isLinked_new _ _) (Tree.node?_root _)
        (hshown c (hone ▸ List.mem_singleton_self c))
      refine ⟨t, layout_eq_ok_iff.mpr ⟨hchecked, t, ?_, ?_, ?_⟩⟩
      · rw [hone, hbare, List.foldlM_cons, place_bare hsub, bind_eq_ok]
        exact ⟨t, hrow, rfl⟩
      · rw [(showsBare_iff.mp hbare).1]
        rfl
      · exact h.check_of_rowShown hc (rowShown_addParams hrow)
  | false =>
      obtain ⟨placed, t, hplaced, hgrouped, hcomplete⟩ :=
        exists_placed (fun c hc => h.length_sub (mem_of_mem_firstOfEachPath hc))
          (fun c hc _ => hshown c hc) (h.pairwise_not_clash hlower) (groupsOf root groups) root
          (rootDescription root (ofRoot root commands) groups)
      refine ⟨t, layout_eq_ok_iff.mpr ⟨hchecked, placed, ?_, hgrouped, ?_⟩⟩
      · rw [hbare]
        exact hplaced
      · exact h.check_of_complete hcomplete hlower

end Acceptable

/-- What keeps the rules is laid out. -/
theorem exists_layout_of_acceptable {commands : List Command}
    (hcommands : ∀ c ∈ commands, c.IsDeclared)
    (h : v.Acceptable root (commands.map (·.toCommandInfo)) groups) :
    ∃ t, v.layout root (commands.map (·.toCommandInfo)) groups = .ok t := by
  refine h.exists_layout (isLower_of_mem_map_toCommandInfo hcommands) ?_
  rw [List.forall_mem_map]
  exact fun c hc => (hcommands c hc).apartByName.asciiEq_eq_false

/-- A root with a command of its own path, an overload, a command in a group and a group that
is declared. -/
theorem exists_layout_role :
    let v : Vocabulary := ⟨.standard, .standard⟩
    let param (name : String) (type : ParamType) (optional : Bool) : Param :=
      ⟨name, type, optional, none, Dict.empty, Dict.empty, [], [], none, none, none, none, none⟩
    let give := Catalog.plain "role" ["give"]
    let commands : List Command :=
      [Catalog.plain "role" [],
       { give with params := [param "who" .user false, param "why" .strings true] }, give,
       Catalog.plain "role" ["color", "set"]]
    let groups := [Group.declare "role color" "" []]
    (∀ c ∈ commands, c.IsDeclared) ∧ v.Acceptable "role" (commands.map (·.toCommandInfo)) groups ∧
      ∃ t, v.layout "role" (commands.map (·.toCommandInfo)) groups = .ok t := by
  intro v param give commands groups
  have hcommands : ∀ c ∈ commands, c.IsDeclared := by
    simp only [commands, List.forall_mem_cons, List.not_mem_nil, false_imp_iff, implies_true,
      and_true]
    refine ⟨Catalog.isDeclared_plain_of_build "role" rfl, ⟨{
        path := "role give"
        description := "Does nothing"
        params := [⟨"who", .user, false, none, [], Dict.empty, none, none, none, none, none, none, none⟩,
          ⟨"why", .strings, true, none, [], Dict.empty, none, none, none, none, none, none, none⟩]
        handler := some Handler.idle }, rfl⟩, Catalog.isDeclared_plain_of_build "role give" rfl,
      Catalog.isDeclared_plain_of_build "role color set" rfl⟩
  have hrules : v.Acceptable "role" (commands.map (·.toCommandInfo)) groups := by
    have hmem : ∀ {c}, Published "role" (commands.map (·.toCommandInfo)) groups c →
        c ∈ commands.map (·.toCommandInfo) :=
      fun hc => List.mem_of_find?_eq_some hc.first
    constructor
    case declared => decide +kernel
    case proper => decide +kernel
    case apart => decide +kernel
    case grouped =>
      intro g hg word hpath
      rw [List.mem_singleton.mp hg] at hpath
      have hwritten : (Group.declare "role color" "" []).path = ["role", "color"] := by
        decide +kernel
      obtain rfl : "color" = word := by simpa [hwritten] using hpath
      exact ⟨_, List.mem_map_of_mem (List.mem_of_getElem? (i := 3) rfl), rfl, "set", rfl⟩
    case rootDescribed => decide +kernel
    case described =>
      have hall : ∀ c ∈ commands.map (·.toCommandInfo),
          1 ≤ c.description.length ∧ c.description.length ≤ 100 := by decide +kernel
      exact fun c hc _ => hall c (hmem hc)
    case groupsDescribed =>
      intro g hg _ _
      rw [List.mem_singleton.mp hg]
      decide
    case params =>
      have hall : ∀ c ∈ commands.map (·.toCommandInfo), ∀ p ∈ v.shownParams c,
          (1 ≤ p.name.length ∧ p.name.length ≤ 32) ∧
            1 ≤ p.shownDescription.length ∧ p.shownDescription.length ≤ 100 := by decide +kernel
      exact fun c hc => hall c (hmem hc)
    case below =>
      intro before
      have hwords := (List.dedup_sublist ((ofRoot "role" (commands.map (·.toCommandInfo))).filterMap
        (nextWord? before))).length_le.trans (List.length_filterMap_le _ _)
      exact hwords.trans (by decide +kernel)
    case rows =>
      have hall : ∀ c ∈ commands.map (·.toCommandInfo), (v.shownParams c).length ≤ 25 := by
        decide +kernel
      exact fun c hc => hall c (hmem hc)
  exact ⟨hcommands, hrules, exists_layout_of_acceptable hcommands hrules⟩

end Vocabulary

end ChatCommands.Schema
