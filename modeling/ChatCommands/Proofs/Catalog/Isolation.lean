import Mathlib.Data.List.Perm.Basic
import ChatCommands.Dispatch.Dispatcher
import ChatCommands.Proofs.Catalog.Routing

/-!
# Roots apart from each other

Every declared root ends up as a tree or as a failure.  Which of the two it is, and which tree
or failure, is determined by the commands of the root and by the groups declared for it or
below it.  A command that cannot be built therefore costs its own root and no other.
-/

namespace ChatCommands

/-! ## First occurrences -/

section FirstOccurrences

variable {α : Type} {xs : List α}

/-- The first of two elements in a list is found before every occurrence of the other one. -/
def ComesFirst (xs : List α) (a b : α) : Prop :=
  a ≠ b ∧ ∃ earlier later, xs = earlier ++ a :: later ∧ b ∉ earlier

theorem ComesFirst.of_filter {test : α → Bool} {a b : α} (hb : test b = true)
    (h : ComesFirst (xs.filter test) a b) : ComesFirst xs a b := by
  obtain ⟨hne, earlier, later, hsplit, hfirst⟩ := h
  obtain ⟨before, after, rfl, rfl, hafter⟩ := List.filter_eq_append_iff.mp hsplit
  obtain ⟨skipped, rest, rfl, hskipped, -, -⟩ := List.filter_eq_cons_iff.mp hafter
  refine ⟨hne, before ++ skipped, rest, by simp, ?_⟩
  rw [List.mem_append, not_or]
  exact ⟨fun hmem => hfirst (List.mem_filter.mpr ⟨hmem, hb⟩), fun hmem => hskipped b hmem hb⟩

theorem ComesFirst.cons {x a b : α} (hne : x ≠ b) (h : ComesFirst xs a b) :
    ComesFirst (x :: xs) a b := by
  obtain ⟨hab, earlier, later, rfl, hfirst⟩ := h
  refine ⟨hab, x :: earlier, later, rfl, ?_⟩
  rw [List.mem_cons, not_or]
  exact ⟨Ne.symm hne, hfirst⟩

variable [BEq α] [LawfulBEq α]

theorem eraseDups_filter (test : α → Bool) (xs : List α) :
    (xs.filter test).eraseDups = xs.eraseDups.filter test := by
  induction xs using Schema.filter_induction (fun x y : α => !y == x) with
  | nil => rfl
  | cons x rest ih =>
      have hcomm : (rest.filter test).filter (fun y => !y == x) =
          (rest.filter fun y => !y == x).filter test := List.filter_comm _ _ rest
      rw [List.eraseDups_cons]
      by_cases hx : test x = true
      · rw [List.filter_cons_of_pos hx, List.filter_cons_of_pos hx, List.eraseDups_cons, hcomm, ih]
      · -- The filter leaves nothing that equals the element it takes out.
        have hothers : (rest.filter test).filter (fun y => !y == x) = rest.filter test := by
          rw [List.filter_eq_self]
          intro y hy
          rw [Bool.not_eq_true', beq_eq_false_iff_ne]
          rintro rfl
          exact hx (List.mem_filter.mp hy).2
        rw [List.filter_cons_of_neg hx, List.filter_cons_of_neg hx, ← ih, ← hcomm, hothers]

/-- Without repetitions a list keeps the order of the first occurrences. -/
theorem pairwise_comesFirst (xs : List α) : xs.eraseDups.Pairwise (ComesFirst xs) := by
  induction xs using Schema.filter_induction (fun x y : α => !y == x) with
  | nil => exact .nil
  | cons x rest ih =>
      have hother : ∀ y ∈ (rest.filter fun y => !y == x).eraseDups, x ≠ y := by
        intro y hy
        have hy := (List.mem_filter.mp (List.mem_eraseDups.mp hy)).2
        rintro rfl
        simp at hy
      rw [List.eraseDups_cons]
      refine List.pairwise_cons.mpr ⟨?_, ?_⟩
      · intro y hy
        exact ⟨hother y hy, [], rest, rfl, List.not_mem_nil⟩
      · refine ih.imp_of_mem ?_
        intro a b _ hb h
        have hne := hother b hb
        exact (h.of_filter (by simpa using Ne.symm hne)).cons hne

end FirstOccurrences

namespace Schema

variable {root : String} {groups groups' : List Group}

/-- The groups declared for a root or below it. -/
def groupsUnder (root : String) (groups : List Group) : List Group :=
  groups.filter (·.path.head? == some root)

theorem groupsOf_groupsUnder : groupsOf root (groupsUnder root groups) = groupsOf root groups := by
  rw [groupsOf, groupsUnder, List.filter_filter, groupsOf]
  refine List.filter_congr fun g _ => ?_
  cases g.path.head? == some root <;> simp

theorem head?_of_isRoot {g : Group} (h : (g.isRoot && g.path == [root]) = true) :
    (g.path.head? == some root) = true := by
  obtain ⟨-, hpath⟩ := Bool.and_eq_true_iff.mp h
  rw [beq_iff_eq.mp hpath]
  simp

theorem rootDescription_groupsUnder (members : List CommandInfo) :
    rootDescription root members (groupsUnder root groups) =
      rootDescription root members groups := by
  have hscope : (groupsUnder root groups).find? (fun g => g.isRoot && g.path == [root]) =
      groups.find? fun g => g.isRoot && g.path == [root] := by
    rw [groupsUnder, List.find?_filter]
    refine List.find?_congr fun g _ => ?_
    by_cases hroot : (g.isRoot && g.path == [root]) = true
    · simp [hroot, head?_of_isRoot hroot]
    · simp [hroot]
  rw [rootDescription, hscope, rootDescription]

/-- The layout of a root depends on its commands and on the groups declared for it or below
it. -/
theorem Vocabulary.layout_eq_of_under {v : Vocabulary} {commands commands' : List CommandInfo}
    (hcommands : ofRoot root commands = ofRoot root commands')
    (hgroups : groupsUnder root groups = groupsUnder root groups') :
    v.layout root commands groups = v.layout root commands' groups' := by
  have hmembers : commands.filter (·.root == root) = commands'.filter (·.root == root) := hcommands
  have hbelow : groupsOf root groups = groupsOf root groups' := by
    rw [← groupsOf_groupsUnder, hgroups, groupsOf_groupsUnder]
  have hdescription : ∀ members,
      rootDescription root members groups = rootDescription root members groups' := by
    intro members
    rw [← rootDescription_groupsUnder, hgroups, rootDescription_groupsUnder]
  simp only [layout, hmembers, hbelow, hdescription]

end Schema

namespace Catalog

/-! ## Failures in closed form -/

/-- The failure of a root, if it cannot be laid out. -/
def failureOf? (v : Schema.Vocabulary) (commands : List Command) (groups : List Group)
    (root : String) : Option RootFailure :=
  match v.layout root (commands.map (·.toCommandInfo)) groups with
  | .ok _ => none
  | .error error => some ⟨root, error⟩

variable {v : Schema.Vocabulary} {commands commands' : List Command} {groups groups' : List Group}
  {root : String}

theorem failures_foldl_addRoot (roots : List String) (c : Catalog) :
    (roots.foldl (addRoot v commands groups) c).failures =
      c.failures ++ roots.filterMap (failureOf? v commands groups) := by
  induction roots generalizing c with
  | nil => simp
  | cons root rest ih =>
      have hone : (addRoot v commands groups c root).failures =
          c.failures ++ (failureOf? v commands groups root).toList := by
        unfold addRoot failureOf?
        cases v.layout root (commands.map (·.toCommandInfo)) groups with
        | ok tree => simp
        | error error => simp
      rw [List.foldl_cons, ih, hone, List.append_assoc, List.filterMap_cons]
      cases failureOf? v commands groups root <;> simp

theorem failures_compile :
    (compile v commands groups).failures =
      (rootsOf commands).filterMap (failureOf? v commands groups) := by
  rw [compile, failures_foldl_addRoot]
  simp [empty, rootsOf]

theorem name_of_treeOf? {t : Schema.Tree} (h : treeOf? v commands groups root = some t) :
    t.name = root :=
  Schema.Vocabulary.name_layout (toOption_eq_some_iff.mp h)

theorem root_of_failureOf? {f : RootFailure} (h : failureOf? v commands groups root = some f) :
    f.root = root ∧ treeOf? v commands groups root = none := by
  unfold failureOf? at h
  split at h
  next => cases h
  next error hlayout =>
    refine ⟨by rw [← Option.some.inj h], ?_⟩
    rw [treeOf?, hlayout]
    rfl

theorem exists_failureOf? (h : treeOf? v commands groups root = none) :
    ∃ f, failureOf? v commands groups root = some f := by
  unfold treeOf? at h
  unfold failureOf?
  split
  next tree hlayout =>
    rw [hlayout] at h
    cases h
  next error _ => exact ⟨_, rfl⟩

/-- What a list of roots is mapped to under the names of the roots. -/
theorem map_filterMap_name {β : Type} {f : String → Option β} {name : β → String}
    (hname : ∀ root b, f root = some b → name b = root) (roots : List String) :
    (roots.filterMap f).map name = roots.filter fun root => (f root).isSome := by
  induction roots with
  | nil => rfl
  | cons root rest ih =>
      cases hroot : f root with
      | none => rw [List.filterMap_cons_none hroot, ih, List.filter_cons_of_neg (by simp [hroot])]
      | some b =>
          rw [List.filterMap_cons_some hroot, List.map_cons, ih, hname root b hroot,
            List.filter_cons_of_pos (by simp [hroot])]

theorem map_name_trees :
    (compile v commands groups).trees.map (·.name) =
      (rootsOf commands).filter fun root => (treeOf? v commands groups root).isSome := by
  rw [trees_compile]
  exact map_filterMap_name (fun _ _ h => name_of_treeOf? h) _

theorem map_root_failures :
    (compile v commands groups).failures.map (·.root) =
      (rootsOf commands).filter fun root => !(treeOf? v commands groups root).isSome := by
  rw [failures_compile, map_filterMap_name (fun _ _ h => (root_of_failureOf? h).1)]
  refine List.filter_congr fun root _ => ?_
  cases htree : treeOf? v commands groups root with
  | none =>
      obtain ⟨f, hf⟩ := exists_failureOf? htree
      simp [hf]
  | some t =>
      cases hfailure : failureOf? v commands groups root with
      | none => rfl
      | some f => simp [(root_of_failureOf? hfailure).2] at htree

/-! ## One root among others -/

/-- A root is declared before another one. -/
abbrev DeclaredBefore (commands : List Command) : String → String → Prop :=
  ComesFirst (commands.map (·.root))

/-- The declared roots are those of the trees and those of the failures, each in the order of
declaration. -/
structure Covers (c : Catalog) (commands : List Command) : Prop where
  declared : ∀ root, root ∈ c.trees.map (·.name) ++ c.failures.map (·.root) ↔
    ∃ command ∈ commands, command.root = root
  once : (c.trees.map (·.name) ++ c.failures.map (·.root)).Nodup
  trees : (c.trees.map (·.name)).Pairwise (DeclaredBefore commands)
  failures : (c.failures.map (·.root)).Pairwise (DeclaredBefore commands)

theorem nodup_rootsOf (commands : List Command) : (rootsOf commands).Nodup :=
  (pairwise_comesFirst _).imp fun h => h.1

theorem covers_compile (v : Schema.Vocabulary) (commands : List Command) (groups : List Group) :
    (compile v commands groups).Covers commands := by
  have hperm := List.filter_append_perm (fun root => (treeOf? v commands groups root).isSome)
    (rootsOf commands)
  have horder := pairwise_comesFirst (commands.map (·.root))
  constructor
  case declared =>
    intro root
    rw [map_name_trees, map_root_failures, hperm.mem_iff, mem_rootsOf]
  case once =>
    rw [map_name_trees, map_root_failures, hperm.nodup_iff]
    exact nodup_rootsOf commands
  case trees =>
    rw [map_name_trees]
    exact horder.filter _
  case failures =>
    rw [map_root_failures]
    exact horder.filter _

/-- Two lists of commands and groups declare the same for a root. -/
structure Agree (root : String) (commands commands' : List Command) (groups groups' : List Group) :
    Prop where
  members : membersOf root commands = membersOf root commands'
  groups : Schema.groupsUnder root groups = Schema.groupsUnder root groups'

theorem ofRoot_map_toCommandInfo (root : String) (commands : List Command) :
    Schema.ofRoot root (commands.map (·.toCommandInfo)) =
      (membersOf root commands).map (·.toCommandInfo) := by
  rw [Schema.ofRoot, List.filter_map, membersOf]
  rfl

theorem Agree.layout_eq (h : Agree root commands commands' groups groups') :
    v.layout root (commands.map (·.toCommandInfo)) groups =
      v.layout root (commands'.map (·.toCommandInfo)) groups' := by
  refine Schema.Vocabulary.layout_eq_of_under ?_ h.groups
  rw [ofRoot_map_toCommandInfo, ofRoot_map_toCommandInfo, h.members]

theorem Agree.treeOf?_eq (h : Agree root commands commands' groups groups') :
    treeOf? v commands groups root = treeOf? v commands' groups' root := by
  rw [treeOf?, treeOf?, h.layout_eq]

theorem Agree.failureOf?_eq (h : Agree root commands commands' groups groups') :
    failureOf? v commands groups root = failureOf? v commands' groups' root := by
  rw [failureOf?, failureOf?, h.layout_eq]

theorem rootsOf_filter (test : String → Bool) (commands : List Command) :
    rootsOf (commands.filter fun c => test c.root) = (rootsOf commands).filter test := by
  rw [rootsOf, rootsOf, ← eraseDups_filter, List.filter_map]
  rfl

theorem filter_filterMap_name {β : Type} {f : String → Option β} {name : β → String}
    (hname : ∀ root b, f root = some b → name b = root) (test : String → Bool)
    (roots : List String) :
    (roots.filterMap f).filter (fun b => test (name b)) = (roots.filter test).filterMap f := by
  induction roots with
  | nil => rfl
  | cons root rest ih =>
      rw [List.filterMap_cons, List.filter_cons]
      cases hroot : f root with
      | none =>
          rw [ih]
          split
          · rw [List.filterMap_cons_none hroot]
          · rfl
      | some b =>
          rw [List.filter_cons, hname root b hroot, ih]
          split
          · rw [List.filterMap_cons_some hroot]
          · rfl

/-- The trees of some roots, whatever else is compiled with them. -/
theorem filter_trees (test : String → Bool) :
    (compile v commands groups).trees.filter (fun t => test t.name) =
      (rootsOf (commands.filter fun c => test c.root)).filterMap (treeOf? v commands groups) := by
  rw [trees_compile, filter_filterMap_name (fun _ _ h => name_of_treeOf? h), rootsOf_filter]

theorem filter_failures (test : String → Bool) :
    (compile v commands groups).failures.filter (fun f => test f.root) =
      (rootsOf (commands.filter fun c => test c.root)).filterMap
        (failureOf? v commands groups) := by
  rw [failures_compile, filter_filterMap_name (fun _ _ h => (root_of_failureOf? h).1),
    rootsOf_filter]

/-- What is declared for other roots changes neither the tree nor the failure of a root. -/
theorem Agree.compile_eq (h : Agree root commands commands' groups groups') :
    (compile v commands groups).trees.filter (·.name == root) =
        (compile v commands' groups').trees.filter (·.name == root) ∧
      (compile v commands groups).failures.filter (·.root == root) =
        (compile v commands' groups').failures.filter (·.root == root) := by
  have hmembers : commands.filter (·.root == root) = commands'.filter (·.root == root) := h.members
  have honly : ∀ other ∈ rootsOf (commands'.filter (·.root == root)), other = root := by
    intro other hother
    obtain ⟨c, hc, rfl⟩ := mem_rootsOf.mp hother
    simpa using (List.mem_filter.mp hc).2
  constructor
  · rw [filter_trees (· == root), filter_trees (· == root), hmembers]
    refine List.filterMap_congr fun other hother => ?_
    rw [honly other hother, h.treeOf?_eq]
  · rw [filter_failures (· == root), filter_failures (· == root), hmembers]
    refine List.filterMap_congr fun other hother => ?_
    rw [honly other hother, h.failureOf?_eq]

/-- Commands of one root that are left out take their tree with them and no other. -/
theorem trees_compile_filter (left : String) :
    (compile v (commands.filter (·.root != left)) groups).trees =
      (compile v commands groups).trees.filter (·.name != left) := by
  rw [filter_trees (· != left), trees_compile]
  refine List.filterMap_congr fun root hroot => ?_
  obtain ⟨c, hc, rfl⟩ := mem_rootsOf.mp hroot
  have hne : (c.root != left) = true := (List.mem_filter.mp hc).2
  have hagree : Agree c.root (commands.filter (·.root != left)) commands groups groups := by
    refine ⟨?_, rfl⟩
    rw [membersOf, List.filter_filter, membersOf]
    refine List.filter_congr fun other _ => ?_
    by_cases hother : other.root = c.root
    · simp [hother, hne]
    · simp [hother]
  exact hagree.treeOf?_eq

/-- Every word leads to members of a root that has a tree. -/
theorem exists_tree_of_get? {word : String} {found : List Command}
    (h : (compile v commands groups).routes.get? word = some found) :
    ∃ t ∈ (compile v commands groups).trees, found = membersOf t.name commands := by
  rw [get?_compile] at h
  obtain ⟨root, hroot, hroute⟩ := List.exists_of_findSome?_eq_some h
  unfold routeOf? at hroute
  split at hroute
  next hknown =>
    obtain ⟨t, ht⟩ := Option.isSome_iff_exists.mp (Bool.and_eq_true_iff.mp hknown).1
    refine ⟨t, ?_, ?_⟩
    · rw [trees_compile]
      exact List.mem_filterMap.mpr ⟨root, hroot, ht⟩
    · rw [name_of_treeOf? ht]
      exact (Option.some.inj hroute).symm
  next => cases hroute

/-- No word leads to a command of a root that failed. -/
theorem root_ne_of_get? {word : String} {found : List Command}
    (h : (compile v commands groups).routes.get? word = some found) {c : Command} (hc : c ∈ found)
    {f : RootFailure} (hf : f ∈ (compile v commands groups).failures) : f.root ≠ c.root := by
  obtain ⟨t, ht, rfl⟩ := exists_tree_of_get? h
  have hroot : c.root = t.name := by simpa using (List.mem_filter.mp hc).2
  obtain ⟨-, -, hapart⟩ := List.nodup_append.mp (covers_compile v commands groups).once
  rw [hroot]
  exact (hapart _ (List.mem_map_of_mem ht) _ (List.mem_map_of_mem hf)).symm

end Catalog

/-! ## Commands that cannot be built -/

namespace Application

variable {app : Application} {drafts : List CommandDraft} {draft : CommandDraft} {e : CommandError}

/-- What commands are checked against. -/
abbrev vocabulary (app : Application) : Schema.Vocabulary :=
  ⟨app.environment.resolvers, app.environment.conditions⟩

/-- The commands that could be built and whose root has no command that could not. -/
def kept (drafts : List CommandDraft) : List Command :=
  (built drafts).1.filter fun c => (built drafts).2.all (·.root != c.root)

theorem routes_catalog (app : Application) :
    app.catalog.routes = (Catalog.compile app.vocabulary (kept app.commands) app.groups).routes := rfl

theorem trees_catalog (app : Application) :
    app.catalog.trees = (Catalog.compile app.vocabulary (kept app.commands) app.groups).trees := rfl

theorem mem_kept {c : Command} (h : c ∈ kept drafts) :
    (∃ draft ∈ drafts, draft.build = .ok c) ∧ ∀ f ∈ (built drafts).2, f.root ≠ c.root := by
  obtain ⟨hbuilt, hroots⟩ := List.mem_filter.mp h
  obtain ⟨draft, hdraft, hbuild⟩ := List.mem_filterMap.mp hbuilt
  refine ⟨⟨draft, hdraft, toOption_eq_some_iff.mp hbuild⟩, ?_⟩
  simpa using hroots

theorem kept_of_build_eq_error {before after : List CommandDraft}
    (h : draft.build = .error e) :
    kept (before ++ draft :: after) =
      (kept (before ++ after)).filter (·.root != rootOf draft) := by
  have hbuilt : (built (before ++ draft :: after)).1 = (built (before ++ after)).1 := by
    simp [built, h, Except.toOption]
  have hfailures : ∀ c : Command, (built (before ++ draft :: after)).2.all (·.root != c.root) =
      ((c.root != rootOf draft) && (built (before ++ after)).2.all (·.root != c.root)) := by
    intro c
    have hsymm : (rootOf draft != c.root) = (c.root != rootOf draft) := bne_comm
    simp only [built, List.filterMap_append, List.filterMap_cons, h, List.all_append,
      List.all_cons, hsymm]
    exact Bool.and_left_comm _ _ _
  rw [kept, kept, hbuilt, List.filter_filter]
  exact List.filter_congr fun c _ => hfailures c

/-- A command that cannot be built takes the tree of its root with it and no other, and no word
leads to a command of its root. -/
theorem catalog_of_build_eq_error {before after : List CommandDraft}
    (hcommands : app.commands = before ++ draft :: after) (h : draft.build = .error e) :
    app.catalog.trees =
        ({ app with commands := before ++ after } : Application).catalog.trees.filter
          (·.name != rootOf draft) ∧
      ∀ word found, app.catalog.routes.get? word = some found →
        ∀ c ∈ found, c.root ≠ rootOf draft := by
  constructor
  · rw [trees_catalog, trees_catalog, hcommands, kept_of_build_eq_error h]
    exact Catalog.trees_compile_filter (rootOf draft)
  · intro word found hfound c hc
    rw [routes_catalog] at hfound
    obtain ⟨t, -, rfl⟩ := Catalog.exists_tree_of_get? hfound
    have hkept : c ∈ kept app.commands := (List.mem_filter.mp hc).1
    rw [hcommands, kept_of_build_eq_error h] at hkept
    simpa using (List.mem_filter.mp hkept).2

end Application

namespace Catalog

/-- Every declared root is a tree or a failure, and what is declared for other roots makes no
difference to it.  Words lead to no command of a root that failed.  In an application, a command
that cannot be built takes its root out and leaves the trees of all others. -/
theorem roots_isolated (v : Schema.Vocabulary) (commands : List Command) (groups : List Group) :
    (compile v commands groups).Covers commands ∧
    (∀ root commands' groups', Agree root commands commands' groups groups' →
      (compile v commands groups).trees.filter (·.name == root) =
          (compile v commands' groups').trees.filter (·.name == root) ∧
        (compile v commands groups).failures.filter (·.root == root) =
          (compile v commands' groups').failures.filter (·.root == root)) ∧
    (∀ word found, (compile v commands groups).routes.get? word = some found →
      ∀ c ∈ found, ∀ f ∈ (compile v commands groups).failures, f.root ≠ c.root) ∧
    ∀ (app : Application) before draft after e, app.commands = before ++ draft :: after →
      draft.build = .error e →
      app.catalog.trees =
          ({ app with commands := before ++ after } : Application).catalog.trees.filter
            (·.name != Application.rootOf draft) ∧
        ∀ word found, app.catalog.routes.get? word = some found →
          ∀ c ∈ found, c.root ≠ Application.rootOf draft := by
  refine ⟨covers_compile v commands groups, ?_, ?_, ?_⟩
  · exact fun root commands' groups' h => h.compile_eq
  · exact fun word found hfound c hc f hf => root_ne_of_get? hfound hc hf
  · exact fun app before draft after e => Application.catalog_of_build_eq_error

/-- An application in which one command has no handler. -/
def halfBuilt : Application where
  config := {}
  environment := ⟨.standard, .standard, World.empty.directory, .all⟩
  groups := []
  commands :=
    [{ path := "list", description := "Lists", handler := some Handler.idle },
     { path := "Role add", description := "Adds" },
     { path := "role drop", description := "Drops", handler := some Handler.idle }]

/-- A root whose path is too deep fails and leaves the other root as if it stood alone, and a
command without a handler leaves the other root of its application. -/
theorem roots_isolated_list :
    let v : Schema.Vocabulary := ⟨.standard, .standard⟩
    let commands := [plain "role" ["color", "set", "now"], plain "list" [], plain "role" ["add"]]
    let groups : List Group := [⟨["role"], "Roles", ["roles"]⟩]
    Agree "list" commands [plain "list" []] groups [] ∧
      (compile v commands groups).trees.map (·.name) = ["list"] ∧
      (compile v commands groups).failures.map (·.root) = ["role"] ∧
      (compile v commands groups).trees.filter (·.name == "list") =
        (compile v [plain "list" []] []).trees.filter (·.name == "list") ∧
      halfBuilt.catalog.trees.map (·.name) = ["list"] ∧
      ∀ word found, halfBuilt.catalog.routes.get? word = some found →
        ∀ c ∈ found, c.root ≠ "role" := by
  intro v commands groups
  obtain ⟨-, hframe, -, happ⟩ := roots_isolated v commands groups
  have hagree : Agree "list" commands [plain "list" []] groups [] := ⟨rfl, by decide⟩
  obtain ⟨htrees, hroutes⟩ := happ halfBuilt
    [{ path := "list", description := "Lists", handler := some Handler.idle }]
    { path := "Role add", description := "Adds" }
    [{ path := "role drop", description := "Drops", handler := some Handler.idle }] _ rfl rfl
  refine ⟨hagree, by decide +kernel, by decide +kernel, (hframe _ _ _ hagree).1, ?_, ?_⟩
  · rw [htrees]
    decide +kernel
  · exact hroutes

end Catalog

end ChatCommands
