import Mathlib.Data.List.Find
import ChatCommands.Catalog
import ChatCommands.Resolve.Standard
import ChatCommands.Proofs.Command.Declared
import ChatCommands.Proofs.Dict
import ChatCommands.Proofs.Schema.Stages

/-!
# Routes of the catalog

The routes of a catalog in closed form: a word leads to the members of the first
root that could be laid out and that the word names or is a further name of.
From this follows when a published tree can be dispatched.  A root is reached
under its own name unless a root declared before it has taken that name as a
further name; in that case its tree is published all the same.
-/

namespace ChatCommands

/-! ## Adding words -/

namespace Routes

theorem get?_add (r : Routes) (word wanted : String) (commands : List Command) :
    (r.add word commands).get? wanted =
      (r.get? wanted).or (if Text.lower word = Text.lower wanted then some commands else none) := by
  unfold add
  split
  next htaken =>
    by_cases hword : Text.lower word = Text.lower wanted
    · have hsome : (r.get? wanted).isSome = true := by
        rwa [contains, get?, hword] at htaken
      obtain ⟨found, hfound⟩ := Option.isSome_iff_exists.mp hsome
      simp [hfound]
    · simp [hword]
  next hfree =>
    rw [get?, Dict.get?_insert]
    by_cases hword : Text.lower word = Text.lower wanted
    · have hnone : r.get? wanted = none := by
        simpa [contains, get?, hword] using hfree
      simp [hword, hnone]
    · simp [hword, get?]

theorem get?_foldl_add (words : List String) (r : Routes) (wanted : String)
    (commands : List Command) :
    (words.foldl (·.add · commands) r).get? wanted =
      (r.get? wanted).or
        (if words.any (Text.lower · == Text.lower wanted) then some commands else none) := by
  induction words generalizing r with
  | nil => simp
  | cons word rest ih =>
      rw [List.foldl_cons, ih, get?_add, Option.or_assoc]
      by_cases hword : Text.lower word = Text.lower wanted
      · simp [hword]
      · simp [hword]

theorem sameWords_iff {a b : List String}
    (ha : ∀ word ∈ a, Text.IsLower word) (hb : ∀ word ∈ b, Text.IsLower word) :
    sameWords a b = true ↔ a = b := by
  induction a generalizing b with
  | nil => cases b <;> simp [sameWords]
  | cons word rest ih =>
      cases b with
      | nil => simp [sameWords]
      | cons other others =>
          have hhead : Text.asciiEq word other = true ↔ word = other :=
            Text.asciiEq_iff_of_isLower (ha word List.mem_cons_self) (hb other List.mem_cons_self)
          have htail := ih (fun w hw => ha w (List.mem_cons_of_mem word hw))
            (fun w hw => hb w (List.mem_cons_of_mem other hw))
          simp only [sameWords, Bool.and_eq_true, beq_iff_eq] at htail ⊢
          simp only [List.length_cons, List.zip_cons_cons, List.all_cons, Bool.and_eq_true,
            Nat.add_right_cancel_iff, List.cons.injEq, hhead, ← htail]
          constructor
          · rintro ⟨hlength, hword, hall⟩
            exact ⟨hword, hlength, hall⟩
          · rintro ⟨hword, hlength, hall⟩
            exact ⟨hlength, hword, hall⟩

end Routes

/-! ## The catalog in closed form -/

namespace Catalog

/-- The roots of commands in the order of their first declaration. -/
def rootsOf (commands : List Command) : List String :=
  (commands.map (·.root)).eraseDups

/-- The tree of a root, if it can be laid out. -/
def treeOf? (v : Schema.Vocabulary) (commands : List Command) (groups : List Group)
    (root : String) : Option Schema.Tree :=
  (v.layout root (commands.map (·.toCommandInfo)) groups).toOption

/-- Whether a word is a root or one of its further names, in any case. -/
def names (groups : List Group) (root word : String) : Bool :=
  (root :: rootAliases root groups).any (Text.lower · == Text.lower word)

/-- What a word leads to when only one root is compiled. -/
def routeOf? (v : Schema.Vocabulary) (commands : List Command) (groups : List Group)
    (word root : String) : Option (List Command) :=
  if (treeOf? v commands groups root).isSome && names groups root word then
    some (membersOf root commands)
  else none

section ClosedForm

variable (v : Schema.Vocabulary) (commands : List Command) (groups : List Group)

theorem get?_addRoot (c : Catalog) (root word : String) :
    (addRoot v commands groups c root).routes.get? word =
      (c.routes.get? word).or (routeOf? v commands groups word root) := by
  unfold addRoot routeOf? treeOf?
  split
  next tree hlayout =>
    rw [Routes.get?_foldl_add, hlayout]
    simp [Except.toOption, names]
  next error hlayout =>
    rw [hlayout]
    simp [Except.toOption]

theorem trees_addRoot (c : Catalog) (root : String) :
    (addRoot v commands groups c root).trees =
      c.trees ++ (treeOf? v commands groups root).toList := by
  unfold addRoot treeOf?
  split
  next tree hlayout => simp [hlayout, Except.toOption]
  next error hlayout => simp [hlayout, Except.toOption]

theorem get?_foldl_addRoot (roots : List String) (c : Catalog) (word : String) :
    (roots.foldl (addRoot v commands groups) c).routes.get? word =
      (c.routes.get? word).or (roots.findSome? (routeOf? v commands groups word)) := by
  induction roots generalizing c with
  | nil => simp
  | cons root rest ih =>
      rw [List.foldl_cons, ih, get?_addRoot, Option.or_assoc, List.findSome?_cons]
      cases routeOf? v commands groups word root <;> simp

theorem trees_foldl_addRoot (roots : List String) (c : Catalog) :
    (roots.foldl (addRoot v commands groups) c).trees =
      c.trees ++ roots.filterMap (treeOf? v commands groups) := by
  induction roots generalizing c with
  | nil => simp
  | cons root rest ih =>
      rw [List.foldl_cons, ih, trees_addRoot, List.append_assoc, List.filterMap_cons]
      cases treeOf? v commands groups root <;> simp

/-- A word leads to what it leads to for the first root that knows it. -/
theorem get?_compile (word : String) :
    (compile v commands groups).routes.get? word =
      (rootsOf commands).findSome? (routeOf? v commands groups word) := by
  rw [compile, get?_foldl_addRoot]
  simp [empty, Routes.empty, Routes.get?, rootsOf]

theorem trees_compile :
    (compile v commands groups).trees =
      (rootsOf commands).filterMap (treeOf? v commands groups) := by
  rw [compile, trees_foldl_addRoot]
  simp [empty, rootsOf]

end ClosedForm

/-! ## Dispatching what is published -/

/-- The commands that are shown in the tree of a root: the first one of each
path, where a path that is the root alone counts only when nothing else is
declared below the root. -/
structure Publishes (commands : List Command) (groups : List Group) (root : String)
    (c : Command) : Prop where
  first : commands.find? (·.path == c.path) = some c
  root_eq : c.root = root
  shown : c.sub ≠ [] ∨
    (Schema.groupsOf root groups = [] ∧ ∀ other ∈ commands, other.root = root → other.sub = [])

/-- What a published tree promises: its root leads to the commands declared for
it, and the path of every command that it shows leads to that command. -/
def Dispatches (routes : Routes) (commands : List Command) (groups : List Group)
    (root : String) : Prop :=
  routes.get? root = some (membersOf root commands) ∧
    ∀ c, Publishes commands groups root c → routes.find? c.path = some c

/-- A root that was declared and laid out before has the given root as a further
name. -/
def Captured (v : Schema.Vocabulary) (commands : List Command) (groups : List Group)
    (root : String) : Prop :=
  ∃ earlier ∈ (rootsOf commands).takeWhile (· != root),
    (treeOf? v commands groups earlier).isSome = true ∧
      ∃ word ∈ rootAliases earlier groups, Text.lower word = Text.lower root

section Dispatching

variable {v : Schema.Vocabulary} {commands : List Command} {groups : List Group}

theorem mem_rootsOf {root : String} :
    root ∈ rootsOf commands ↔ ∃ c ∈ commands, c.root = root := by
  rw [rootsOf, List.mem_eraseDups, List.mem_map]

theorem mem_trees_compile {t : Schema.Tree} (ht : t ∈ (compile v commands groups).trees) :
    t.name ∈ rootsOf commands ∧ treeOf? v commands groups t.name = some t := by
  rw [trees_compile, List.mem_filterMap] at ht
  obtain ⟨root, hroot, htree⟩ := ht
  have hlayout : v.layout root (commands.map (·.toCommandInfo)) groups = .ok t := by
    unfold treeOf? at htree
    revert htree
    cases v.layout root (commands.map (·.toCommandInfo)) groups <;> simp [Except.toOption]
  rw [Schema.Vocabulary.name_layout hlayout]
  exact ⟨hroot, htree⟩

theorem eq_takeWhile_append {root : String} {roots : List String} (h : root ∈ roots) :
    ∃ rest, roots = roots.takeWhile (· != root) ++ root :: rest := by
  induction roots with
  | nil => simp at h
  | cons first rest ih =>
      by_cases hfirst : first = root
      · exact ⟨rest, by simp [hfirst]⟩
      · have hrest : root ∈ rest := by simpa [Ne.symm hfirst] using h
        obtain ⟨others, hothers⟩ := ih hrest
        refine ⟨others, ?_⟩
        simp only [bne_iff_ne, ne_eq, hfirst, not_false_eq_true, List.takeWhile_cons_of_pos,
          List.cons_append, List.cons.injEq, true_and]
        exact hothers

theorem ne_of_mem_takeWhile {root other : String} {roots : List String}
    (h : other ∈ roots.takeWhile (· != root)) : other ≠ root := by
  simpa using List.all_eq_true.mp List.all_takeWhile other h

/-- A root that has a tree leads where the roots before it lead, or else to its
own members. -/
theorem get?_compile_root {root : String} (hroot : root ∈ rootsOf commands)
    (htree : (treeOf? v commands groups root).isSome = true) :
    (compile v commands groups).routes.get? root =
      (((rootsOf commands).takeWhile (· != root)).findSome?
        (routeOf? v commands groups root)).or (some (membersOf root commands)) := by
  obtain ⟨rest, hsplit⟩ := eq_takeWhile_append hroot
  have hown : routeOf? v commands groups root root = some (membersOf root commands) := by
    simp [routeOf?, htree, names]
  rw [get?_compile]
  conv => lhs; rw [hsplit]
  rw [List.findSome?_append, List.findSome?_cons, hown]

theorem lower_of_mem_rootsOf (hdeclared : ∀ c ∈ commands, c.IsDeclared) {root : String}
    (hroot : root ∈ rootsOf commands) : Text.lower root = root := by
  obtain ⟨c, hc, rfl⟩ := mem_rootsOf.mp hroot
  exact (hdeclared c hc).lower_root

/-- Roots are in lowercase, so that only a further name can take a root away. -/
theorem routeOf?_eq_none (hdeclared : ∀ c ∈ commands, c.IsDeclared) {root earlier : String}
    (hroot : root ∈ rootsOf commands) (hearlier : earlier ∈ rootsOf commands)
    (hne : earlier ≠ root)
    (hfree : (treeOf? v commands groups earlier).isSome = true →
      ∀ word ∈ rootAliases earlier groups, Text.lower word ≠ Text.lower root) :
    routeOf? v commands groups root earlier = none := by
  unfold routeOf?
  rw [if_neg]
  rw [Bool.and_eq_true, not_and]
  intro htree hnames
  simp only [names, List.any_cons, Bool.or_eq_true, beq_iff_eq, List.any_eq_true] at hnames
  rcases hnames with hname | ⟨word, hword, hname⟩
  · rw [lower_of_mem_rootsOf hdeclared hearlier, lower_of_mem_rootsOf hdeclared hroot] at hname
    exact hne hname
  · exact hfree htree word hword hname

theorem find?_of_get? (hdeclared : ∀ c ∈ commands, c.IsDeclared) {routes : Routes} {c : Command}
    (hget : routes.get? c.root = some (membersOf c.root commands))
    (hfirst : commands.find? (·.path == c.path) = some c) :
    routes.find? c.path = some c := by
  have hc : c ∈ commands := List.mem_of_find?_eq_some hfirst
  simp only [Routes.find?, CommandInfo.path, hget, Option.bind_some]
  rw [membersOf, List.find?_filter, ← hfirst]
  apply List.find?_congr
  intro other hother
  have hsub := Routes.sameWords_iff (a := other.sub) (b := c.sub)
    (fun _ hword => (hdeclared other hother).isLower_of_mem_sub hword)
    (fun _ hword => (hdeclared c hc).isLower_of_mem_sub hword)
  rw [Bool.eq_iff_iff]
  simp [CommandInfo.path, hsub]

/-- The name of a tree leads to the members of its root unless another root has taken it. -/
theorem get?_of_not_captured (hdeclared : ∀ c ∈ commands, c.IsDeclared) {t : Schema.Tree}
    (ht : t ∈ (compile v commands groups).trees)
    (hfree : ¬ Captured v commands groups t.name) :
    (compile v commands groups).routes.get? t.name = some (membersOf t.name commands) := by
  obtain ⟨hroot, htree⟩ := mem_trees_compile ht
  have hcompiled : (treeOf? v commands groups t.name).isSome = true := by rw [htree]; rfl
  have hnone : ((rootsOf commands).takeWhile (· != t.name)).findSome?
      (routeOf? v commands groups t.name) = none := by
    rw [List.findSome?_eq_none_iff]
    intro earlier hearlier
    refine routeOf?_eq_none hdeclared hroot (List.takeWhile_subset _ hearlier)
      (ne_of_mem_takeWhile hearlier) ?_
    intro hlaid word hword hname
    exact hfree ⟨earlier, hearlier, hlaid, word, hword, hname⟩
  rw [get?_compile_root hroot hcompiled, hnone, Option.none_or]

/-- A published tree can be dispatched unless another root has taken its name. -/
theorem dispatches_iff_not_captured
    (hdeclared : ∀ c ∈ commands, c.IsDeclared)
    {t : Schema.Tree} (ht : t ∈ (compile v commands groups).trees) :
    Dispatches (compile v commands groups).routes commands groups t.name ↔
      ¬ Captured v commands groups t.name := by
  obtain ⟨hroot, htree⟩ := mem_trees_compile ht
  have hcompiled : (treeOf? v commands groups t.name).isSome = true := by rw [htree]; rfl
  have hsplit := get?_compile_root hroot hcompiled
  constructor
  · rintro ⟨hget, -⟩ ⟨earlier, hbefore, hlaid, word, hword, hname⟩
    have hknows : routeOf? v commands groups t.name earlier = some (membersOf earlier commands) := by
      rw [routeOf?, if_pos]
      rw [hlaid, Bool.true_and, names, List.any_eq_true]
      exact ⟨word, List.mem_cons_of_mem earlier hword, by simp [hname]⟩
    have hsome : (((rootsOf commands).takeWhile (· != t.name)).findSome?
        (routeOf? v commands groups t.name)).isSome = true := by
      rw [List.findSome?_isSome_iff]
      exact ⟨earlier, hbefore, by rw [hknows]; rfl⟩
    obtain ⟨found, hfound⟩ := Option.isSome_iff_exists.mp hsome
    obtain ⟨first, hfirst, hroute⟩ := List.exists_of_findSome?_eq_some hfound
    rw [hsplit, hfound, Option.some_or, Option.some.injEq] at hget
    -- The first root before that knows the name leads to members of its own.
    have hfirstMembers : membersOf first commands = found := by
      unfold routeOf? at hroute
      split at hroute
      next => exact Option.some.inj hroute
      next => contradiction
    obtain ⟨c, hc, hcroot⟩ := mem_rootsOf.mp hroot
    have hmember : c ∈ membersOf first commands := by
      rw [hfirstMembers, hget]
      exact List.mem_filter.mpr ⟨hc, by simp [hcroot]⟩
    have hsame : c.root = first := by simpa using (List.mem_filter.mp hmember).2
    exact ne_of_mem_takeWhile hfirst (hsame.symm.trans hcroot)
  · intro hfree
    have hget := get?_of_not_captured hdeclared ht hfree
    refine ⟨hget, fun c hc => ?_⟩
    exact find?_of_get? hdeclared (hc.root_eq ▸ hget) hc.first

end Dispatching

/-! ## A name that is taken -/

/-- A command without parameters whose handler does nothing. -/
def plain (root : String) (sub : List String) : Command where
  root
  sub
  description := "Does nothing"
  help := ""
  permissions := Dict.empty
  params := []
  handler := Handler.idle

theorem isDeclared_plain_of_build {root : String} {sub : List String} (path : String)
    (h : CommandDraft.build { path, description := "Does nothing", handler := some Handler.idle } =
      .ok (plain root sub)) : (plain root sub).IsDeclared :=
  ⟨_, h⟩

/-- A further name of a root takes nothing away from a root with another name,
and a command is found behind the first one of its root. -/
theorem dispatches_list :
    let v : Schema.Vocabulary := ⟨.standard, .standard⟩
    let commands := [plain "role" ["add"], plain "list" [], plain "role" ["list"]]
    let groups : List Group := [⟨["role"], "Roles", ["roles"]⟩]
    (∀ c ∈ commands, c.IsDeclared) ∧
      ∃ t ∈ (compile v commands groups).trees, t.name = "list" ∧
        Dispatches (compile v commands groups).routes commands groups t.name := by
  intro v commands groups
  have hdeclared : ∀ c ∈ commands, c.IsDeclared := by
    simp only [commands, List.forall_mem_cons, List.not_mem_nil, false_imp_iff, implies_true,
      and_true]
    exact ⟨isDeclared_plain_of_build "role add" rfl, isDeclared_plain_of_build "list" rfl,
      isDeclared_plain_of_build "role list" rfl⟩
  obtain ⟨t, ht, hname⟩ : ∃ t ∈ (compile v commands groups).trees, t.name = "list" := by
    decide +kernel
  have hfree : ¬ Captured v commands groups t.name := by
    rw [hname, Captured]
    decide +kernel
  exact ⟨hdeclared, t, ht, hname, (dispatches_iff_not_captured hdeclared ht).mpr hfree⟩

/-- The tree of a root is published although a root declared before has its name
as a further name, and so takes everything that is sent to it. -/
theorem not_dispatches_taken_name :
    let v : Schema.Vocabulary := ⟨.standard, .standard⟩
    let commands := [plain "a" [], plain "b" []]
    let groups : List Group := [⟨["a"], "A", ["b"]⟩]
    (∀ c ∈ commands, c.IsDeclared) ∧
      (∃ t ∈ (compile v commands groups).trees, t.name = "b") ∧
      ¬ Dispatches (compile v commands groups).routes commands groups "b" := by
  intro v commands groups
  refine ⟨?_, by decide +kernel, ?_⟩
  · simp only [commands, List.forall_mem_cons, List.not_mem_nil, false_imp_iff, implies_true,
      and_true]
    exact ⟨isDeclared_plain_of_build "a" rfl,
      isDeclared_plain_of_build "b" rfl⟩
  · rintro ⟨hget, -⟩
    have hroots := congrArg (Option.map (List.map fun c => c.root)) hget
    revert hroots
    decide +kernel

end Catalog

end ChatCommands
