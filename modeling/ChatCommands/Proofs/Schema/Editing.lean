import ChatCommands.Proofs.Schema.Built
import ChatCommands.Proofs.Schema.Kept
import ChatCommands.Proofs.Schema.Loops
import ChatCommands.Proofs.Schema.Placing

/-!
# Trees changed in place

A tree grows by calls that change it in place, and any call may name a node that does not exist
or a child that is there already.  Such a call fails before it has changed anything.  So whatever
calls are made, the links up and the links down stay in step, and the names on the way down to a
node lead back to it: no sibling of a node on that way goes by the same name.
-/

namespace ChatCommands.Schema

/-! ## Names on the way down -/

namespace Tree

variable {t : Tree} {i j : Nat} {n : Node}

@[simp]
theorem namesUp_none (t : Tree) (fuel : Nat) : t.namesUp fuel none = [] := by
  cases fuel with
  | zero => rfl
  | succ fuel => rfl

theorem namesUp_succ (hn : t.node? i = some n) (fuel : Nat) :
    t.namesUp (fuel + 1) (some i) = n.name :: t.namesUp fuel n.parent := by
  simp only [namesUp, hn]

/-- The names on the way down to a node are those on the way down to its parent, if it has one,
and its own. -/
theorem IsLinked.pathOf_eq (ht : t.IsLinked) (hn : t.node? i = some n) :
    t.pathOf i = (t.namesUp t.size n.parent).reverse ++ [n.name] := by
  have hends := (not_loopsUp_iff fun _ => ht.links_lt).mp ht.not_loops.1
  rw [pathOf, ← hends i (t.size + 1) (Nat.le_succ _), namesUp_succ hn, List.reverse_cons]

theorem IsLinked.pathOf_ne_nil (ht : t.IsLinked) (hn : t.node? i = some n) : t.pathOf i ≠ [] := by
  rw [ht.pathOf_eq hn]
  exact List.append_ne_nil_of_right_ne_nil _ (List.cons_ne_nil _ _)

theorem findFrom_append (t : Tree) (i : Nat) (names names' : List String) :
    t.findFrom i (names ++ names') = (t.findFrom i names).bind fun j => t.findFrom j names' := by
  induction names generalizing i with
  | nil => rfl
  | cons name names ih =>
      simp only [List.cons_append, findFrom, ih, Option.bind_assoc]

/-- Below its parent a node is found by its name. -/
theorem IsLinked.findFrom_name (ht : t.IsLinked) (hn : t.node? i = some n)
    (hparent : n.parent = some j) : t.findFrom j [n.name] = some i := by
  have hchild : (i, n) ∈ t.childrenOf j := ht.mem_childrenOf_iff.mpr ⟨hn, hparent⟩
  rw [findFrom, ht.childNamed?_eq_some hchild (Text.asciiEq_refl n.name), Option.bind_some,
    findFrom]

theorem IsLinked.find?_pathOf (ht : t.IsLinked) (hn : t.node? i = some n) :
    t.find? (t.pathOf i).tail = some i := by
  -- Parents have smaller numbers than their children.
  induction i using Nat.strongRecOn generalizing n with
  | ind i ih =>
      rw [ht.pathOf_eq hn]
      by_cases hi : i = 0
      · have hparent : n.parent = none := ht.root_parent (hi ▸ hn)
        rw [hparent, namesUp_none, hi, ← ht.root_eq]
        rfl
      · obtain ⟨j, hj, hparent⟩ := ht.parent_lt hn hi
        obtain ⟨m, hm, -⟩ := ht.listed hn hparent
        have hfound : t.findFrom t.root (t.pathOf j).tail = some j := ih j hj hm
        rw [hparent, ← pathOf, List.tail_append_of_ne_nil (ht.pathOf_ne_nil hm), find?,
          findFrom_append, hfound, Option.bind_some, ht.findFrom_name hn hparent]

/-- The links up and the links down say the same, and names lead to every node. -/
structure IsInStep (t : Tree) : Prop where
  /-- The root has no parent. -/
  root : t.rootNode.parent = none
  /-- Every other node has a parent with a smaller number, which lists it once. -/
  parent : ∀ {i n}, t.node? i = some n → i ≠ t.root →
    ∃ j m, n.parent = some j ∧ j < i ∧ t.node? j = some m ∧ m.children.count i = 1
  /-- Nothing but its parent lists a node. -/
  listed : ∀ {i j m}, t.node? j = some m → i ∈ m.children →
    ∃ n, t.node? i = some n ∧ n.parent = some j
  /-- Siblings have different names, in any case of ASCII letters. -/
  apart : ∀ {i i' j n n'}, t.node? i = some n → t.node? i' = some n' → i ≠ i' →
    n.parent = some j → n'.parent = some j → Text.asciiEq n.name n'.name = false
  /-- The names on the way down to a node, but for that of the root, lead to it. -/
  found : ∀ i < t.size, t.find? (t.pathOf i).tail = some i

theorem IsLinked.isInStep (ht : t.IsLinked) : t.IsInStep := by
  constructor
  case root => exact ht.root_parent (ht.root_eq ▸ t.node?_root)
  case parent =>
    intro i n hn hi
    obtain ⟨j, hj, hparent⟩ := ht.parent_lt hn (ht.root_eq ▸ hi)
    obtain ⟨m, hm, hmem⟩ := ht.listed hn hparent
    exact ⟨j, m, hparent, hj, hm, ht.count_children hm hmem⟩
  case listed => exact ht.child
  case apart =>
    intro i i' j n n' hn hn' hne hparent hparent'
    rw [Bool.eq_false_iff]
    intro hname
    have hchild : (i, n) ∈ t.childrenOf j := ht.mem_childrenOf_iff.mpr ⟨hn, hparent⟩
    have hchild' : (i', n') ∈ t.childrenOf j := ht.mem_childrenOf_iff.mpr ⟨hn', hparent'⟩
    exact hne (congrArg Prod.fst (ht.eq_of_asciiEq hchild hchild' hname))
  case found =>
    intro i hi
    exact ht.find?_pathOf (List.getElem?_eq_getElem hi)

/-- The tree with a further node behind the others. -/
def push (t : Tree) (n : Node) : Tree :=
  ⟨t.nodes ++ [n], t.root, by simpa using Nat.lt_succ_of_lt t.root_lt⟩

end Tree

/-! ## Calls -/

/-- A call on a tree that is changed in place.  It leaves a tree even where it fails. -/
abbrev Call := ExceptT Violation (StateM Tree)

namespace Call

/-- What a call answers on a tree, and the tree that it leaves. -/
def on {α : Type} (call : Call α) (t : Tree) : Except Violation α × Tree :=
  call.run.run t

section

variable {α β : Type} (t : Tree)

@[simp]
theorem on_pure (a : α) : (pure a : Call α).on t = (.ok a, t) := rfl

@[simp]
theorem on_get_bind (next : Tree → Call α) : (get >>= next).on t = (next t).on t := rfl

@[simp]
theorem on_modify_bind (change : Tree → Tree) (next : PUnit → Call α) :
    (modify change >>= next).on t = (next ⟨⟩).on (change t) := rfl

@[simp]
theorem on_throw_bind (violation : Violation) (next : β → Call α) :
    (throw violation >>= next).on t = (.error violation, t) := rfl

end

/-- Adds a child.  Both checks are made before the parent lists it, and that before it is there. -/
def addChild (parent : Nat) (kind : NodeKind) (name description : String) : Call Nat := do
  let t ← get
  if (t.childNamed? parent name).isSome then
    throw (.duplicateSibling name)
  let id := t.size
  if (t.node? parent).isNone then
    throw (.invalidDeclaration (.missingParent parent))
  modify fun t => t.modify parent fun n => { n with children := n.children ++ [id] }
  modify fun t => t.push { kind, name, description, parent := some parent }
  return id

/-- In place a child is added as it is to a tree that stays what it was, and a call that fails has
changed nothing yet. -/
theorem on_addChild (t : Tree) (parent : Nat) (kind : NodeKind) (name description : String) :
    (addChild parent kind name description).on t =
      match t.addChild parent kind name description with
      | .ok (id, grown) => (.ok id, grown)
      | .error violation => (.error violation, t) := by
  rw [addChild, on_get_bind, Tree.addChild]
  by_cases hclash : (t.childNamed? parent name).isSome = true
  · rw [if_pos hclash, if_pos hclash, on_throw_bind]
  · rw [if_neg hclash, if_neg hclash]
    by_cases hparent : parent < t.nodes.length
    · have hthere : ¬ (t.node? parent).isNone = true := by simpa [Tree.node?] using hparent
      rw [if_pos hparent, if_neg hthere, on_modify_bind, on_modify_bind, on_pure]
      rfl
    · have hmissing : (t.node? parent).isNone = true := by simpa [Tree.node?] using hparent
      rw [if_neg hparent, if_pos hmissing, on_throw_bind]

/-- A child that cannot be added leaves the tree as it was. -/
theorem eq_of_on_addChild {t t' : Tree} {parent : Nat} {kind : NodeKind}
    {name description : String} {violation : Violation}
    (h : (addChild parent kind name description).on t = (.error violation, t')) : t' = t := by
  rw [on_addChild] at h
  split at h
  next => cases (Prod.mk.inj h).1
  next => exact (Prod.mk.inj h).2.symm

end Call

/-! ## Runs of calls -/

/-- A call with its arguments, which may be any. -/
inductive Edit where
  | addChild (parent : Nat) (kind : NodeKind) (name description : String)
  | setProperty (id : Nat) (key : String) (value : Json)
  | markRegistered

/-- The tree that a call leaves, done or not. -/
def Edit.apply (t : Tree) : Edit → Tree
  | addChild parent kind name description => ((Call.addChild parent kind name description).on t).2
  | setProperty id key value => t.setProperty id key value
  | markRegistered => t.markRegistered

namespace Tree

variable {t : Tree}

/-- The tree that is left after some calls. -/
def edited (t : Tree) (edits : List Edit) : Tree :=
  edits.foldl Edit.apply t

theorem Built.apply (ht : t.Built) (edit : Edit) : (edit.apply t).Built := by
  cases edit with
  | addChild parent kind name description =>
      rw [Edit.apply, Call.on_addChild]
      split
      next h => exact ht.addChild h
      next => exact ht
  | setProperty id key value => exact ht.setProperty id key value
  | markRegistered => exact ht.markRegistered

theorem Built.edited (ht : t.Built) (edits : List Edit) : (t.edited edits).Built := by
  induction edits generalizing t with
  | nil => exact ht
  | cons edit edits ih => exact ih (ht.apply edit)

/-- Whatever calls are made on a new tree, parents and children stay in step, names lead to every
node, and a child that cannot be added leaves the tree as it was. -/
theorem isInStep_edited (name description : String) (edits : List Edit) :
    ((new name description).edited edits).IsInStep ∧
      ∀ parent kind childName childDescription violation t',
        (Call.addChild parent kind childName childDescription).on
            ((new name description).edited edits) = (.error violation, t') →
          t' = (new name description).edited edits := by
  have hbuilt : ((new name description).edited edits).Built :=
    (Built.new name description).edited edits
  refine ⟨hbuilt.isLinked.isInStep, ?_⟩
  intro parent kind childName childDescription violation t' h
  exact Call.eq_of_on_addChild h

/-- Calls of which some fail: they give a name that is taken, or the number of no node. -/
def roleEdits : List Edit :=
  [.addChild 0 .subcommand "add" "Adds", .addChild 0 .subcommand "ADD" "Again",
    .addChild 7 .parameter "role" "Role", .addChild 1 .parameter "role" "Role",
    .setProperty 9 "type" (.string "ROLE"), .markRegistered]

theorem isInStep_role :
    ((new "role" "Roles").edited roleEdits).size = 3 ∧
      ((new "role" "Roles").edited roleEdits).find? ["add", "role"] = some 2 ∧
      ∃ t', (Call.addChild 1 .parameter "Role" "Again").on ((new "role" "Roles").edited roleEdits) =
          (.error (.duplicateSibling "Role"), t') ∧
        t' = (new "role" "Roles").edited roleEdits := by
  obtain ⟨hstep, hkept⟩ := isInStep_edited "role" "Roles" roleEdits
  obtain ⟨t', hfails⟩ : ∃ t', (Call.addChild 1 .parameter "Role" "Again").on
        ((new "role" "Roles").edited roleEdits) = (.error (.duplicateSibling "Role"), t') :=
    ⟨_, rfl⟩
  exact ⟨rfl, hstep.found 2 (by decide), t', hfails, hkept _ _ _ _ _ _ hfails⟩

end Tree

end ChatCommands.Schema
