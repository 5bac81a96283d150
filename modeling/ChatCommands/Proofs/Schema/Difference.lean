import ChatCommands.Proofs.Schema.Built
import ChatCommands.Proofs.Schema.Position

/-!
# The first difference and equality

The walk that looks for a difference compares children before it counts them, and the walk
that decides equality counts them first.  Both stop at the same trees.  The walk for a
difference visits positions in lexicographic order, a node before what hangs below it, so
that everything in front of a difference agrees.
-/

namespace ChatCommands.Schema.Tree

variable {a b c : Tree} {i j fuel : Nat} {x y : Node} {d : Difference}

/-- The ways in which a difference is found at or below two nodes: in what they say, below
the first children that differ, or in how many children there are. -/
theorem differenceBelow_eq_some (hx : a.node? i = some x) (hy : b.node? j = some y)
    (h : a.differenceBelow b (fuel + 1) i j = some d) :
    (¬ x.Agrees y ∧ d.path = a.pathText i) ∨
      (x.Agrees y ∧ ∃ (k : Nat) (pair : Nat × Nat), (x.children.zip y.children)[k]? = some pair ∧
        a.differenceBelow b fuel pair.1 pair.2 = some d ∧
        ∀ l < k, ∀ other : Nat × Nat, (x.children.zip y.children)[l]? = some other →
          a.differenceBelow b fuel other.1 other.2 = none) ∨
      (x.Agrees y ∧ x.children.length ≠ y.children.length ∧ d.path = a.pathText i ∧
        ∀ pair ∈ x.children.zip y.children, a.differenceBelow b fuel pair.1 pair.2 = none) := by
  rw [differenceBelow, hx, hy] at h
  cases hsaid : x.difference? y with
  | some what =>
      simp only [hsaid, Option.some.injEq] at h
      refine .inl ⟨?_, by rw [← h]⟩
      rw [← Node.difference?_eq_none_iff, hsaid]
      simp
  | none =>
      have hagrees : x.Agrees y := Node.difference?_eq_none_iff.mp hsaid
      simp only [hsaid, Option.or_eq_some_iff] at h
      rcases h with hbelow | ⟨hnone, hcount⟩
      · obtain ⟨front, pair, back, hzip, hpair, hfront⟩ := List.findSome?_eq_some_iff.mp hbelow
        refine .inr (.inl ⟨hagrees, front.length, pair, ?_, hpair, ?_⟩)
        · rw [hzip]
          simp
        · intro l hl other hother
          rw [hzip, List.getElem?_append_left hl] at hother
          exact hfront other (List.mem_of_getElem? hother)
      · by_cases hlength : x.children.length = y.children.length
        · rw [if_pos hlength] at hcount
          cases hcount
        · rw [if_neg hlength, Option.some.injEq] at hcount
          refine .inr (.inr ⟨hagrees, hlength, by rw [← hcount], ?_⟩)
          exact fun pair hpair => List.findSome?_eq_none_iff.mp hnone pair hpair

/-- Nothing is reported exactly when the nodes are the same with all that hangs below
them. -/
theorem differenceBelow_eq_none_iff (ha : a.IsLinked) (hb : b.IsLinked)
    (hx : a.node? i = some x) (hy : b.node? j = some y) :
    a.differenceBelow b fuel i j = none ↔ a.sameBelow b fuel i j = true := by
  induction fuel generalizing i j x y with
  | zero => exact ⟨fun _ => rfl, fun _ => rfl⟩
  | succ fuel ih =>
      rw [sameBelow_succ hx hy, differenceBelow, hx, hy]
      cases hsaid : x.difference? y with
      | some what =>
          have hdiffers : ¬ x.Agrees y := by
            rw [← Node.difference?_eq_none_iff, hsaid]
            simp
          simp [hsaid, hdiffers]
      | none =>
          have hagrees : x.Agrees y := Node.difference?_eq_none_iff.mp hsaid
          have hchildren : ∀ pair ∈ x.children.zip y.children,
              (a.differenceBelow b fuel pair.1 pair.2 = none ↔
                a.sameBelow b fuel pair.1 pair.2 = true) := by
            intro pair hpair
            obtain ⟨k, hk⟩ := List.mem_iff_getElem?.mp hpair
            obtain ⟨m, n, hm, hn, -⟩ := exists_children ha hb hx hy hk
            exact ih hm hn
          simp only [hsaid, Option.or_eq_none_iff, List.findSome?_eq_none_iff]
          constructor
          · rintro ⟨hbelow, hcount⟩
            refine ⟨hagrees, ?_, fun pair hpair => (hchildren pair hpair).mp (hbelow pair hpair)⟩
            by_contra hlength
            rw [if_neg hlength] at hcount
            cases hcount
          · rintro ⟨-, hlength, hbelow⟩
            exact ⟨fun pair hpair => (hchildren pair hpair).mpr (hbelow pair hpair),
              if_pos hlength⟩

/-- Where both trees have a node at a position below two nodes, these agree. -/
def Matches (a b : Tree) (i j : Nat) (position : List Nat) : Prop :=
  ∀ x y, a.below? i position = some x → b.below? j position = some y → x.Agrees y

theorem AgreesBelow.matches {position : List Nat} (h : a.AgreesBelow b i j position) :
    a.Matches b i j position := by
  intro x y hx hy
  rw [AgreesBelow, hx, hy] at h
  cases h with
  | some h => exact h

theorem matches_nil (hx : a.node? i = some x) (hy : b.node? j = some y) (h : x.Agrees y) :
    a.Matches b i j [] := by
  intro x' y' hx' hy'
  obtain rfl := Option.some.inj (hx.symm.trans hx')
  obtain rfl := Option.some.inj (hy.symm.trans hy')
  exact h

theorem matches_cons (hx : a.node? i = some x) (hy : b.node? j = some y) {k : Nat}
    {rest : List Nat}
    (h : ∀ pair, (x.children.zip y.children)[k]? = some pair →
      a.Matches b pair.1 pair.2 rest) :
    a.Matches b i j (k :: rest) := by
  intro x' y' hx' hy'
  rw [below?_cons hx] at hx'
  rw [below?_cons hy] at hy'
  obtain ⟨child, hchild, hbelow⟩ := Option.bind_eq_some_iff.mp hx'
  obtain ⟨other, hother, hbelow'⟩ := Option.bind_eq_some_iff.mp hy'
  exact h (child, other) (List.getElem?_zip_eq_some.mpr ⟨hchild, hother⟩) x' y' hbelow hbelow'

/-- A difference between two nodes at a position, and no difference in front of it. -/
structure FirstDifference (a b : Tree) (i j : Nat) (d : Difference) (position : List Nat) :
    Prop where
  /-- Both trees have nodes at the position, which do not say the same or have different
  numbers of children. -/
  differ : ∃ k l x y, a.descend i position = some k ∧ b.descend j position = some l ∧
    a.node? k = some x ∧ b.node? l = some y ∧ d.path = a.pathText k ∧
    (¬ x.Agrees y ∨
      x.children.length ≠ y.children.length ∧ ∀ rest, a.Matches b i j (position ++ rest))
  /-- Positions in front of it show no difference in what nodes say. -/
  before : ∀ earlier < position, a.Matches b i j earlier

theorem matches_of_children {position : List Nat} (hx : a.node? i = some x)
    (hy : b.node? j = some y) (hagrees : x.Agrees y)
    (h : ∀ pair ∈ x.children.zip y.children, ∀ rest, a.Matches b pair.1 pair.2 rest) :
    a.Matches b i j position := by
  cases position with
  | nil => exact matches_nil hx hy hagrees
  | cons k rest =>
      apply matches_cons hx hy
      exact fun pair hpair => h pair (List.mem_of_getElem? hpair) rest

/-- The first difference below two nodes that agree is the first difference below the first pair
of their children below which there is any. -/
theorem FirstDifference.below {k : Nat} {pair : Nat × Nat} {position : List Nat}
    (hx : a.node? i = some x) (hy : b.node? j = some y) (hagrees : x.Agrees y)
    (hpair : (x.children.zip y.children)[k]? = some pair)
    (hfront : ∀ l < k, ∀ other, (x.children.zip y.children)[l]? = some other →
      ∀ rest, a.Matches b other.1 other.2 rest)
    (h : FirstDifference a b pair.1 pair.2 d position) :
    FirstDifference a b i j d (k :: position) := by
  obtain ⟨hleft, hright⟩ := List.getElem?_zip_eq_some.mp hpair
  have hbelow : ∀ {rest}, a.Matches b pair.1 pair.2 rest → a.Matches b i j (k :: rest) := by
    intro rest hrest
    apply matches_cons hx hy
    intro other hother
    rw [Option.some.inj (hother.symm.trans hpair)]
    exact hrest
  constructor
  case differ =>
    obtain ⟨k', l', x', y', hk', hl', hx', hy', hpath, hdiffer⟩ := h.differ
    refine ⟨k', l', x', y', ?_, ?_, hx', hy', hpath, hdiffer.imp_right ?_⟩
    · rw [descend_cons hx, hleft, Option.bind_some, hk']
    · rw [descend_cons hy, hright, Option.bind_some, hl']
    · exact fun ⟨hlength, hall⟩ => ⟨hlength, fun rest => hbelow (hall rest)⟩
  case before =>
    intro earlier hearlier
    cases earlier with
    | nil => exact matches_nil hx hy hagrees
    | cons l rest =>
        rcases List.cons_lt_cons_iff.mp hearlier with hlt | ⟨rfl, hrest⟩
        · exact matches_cons hx hy fun other hother => hfront l hlt other hother rest
        · exact hbelow (h.before rest hrest)

theorem exists_firstDifference (ha : a.IsLinked) (hb : b.IsLinked)
    (hx : a.node? i = some x) (hy : b.node? j = some y) (hfuel : a.size < i + fuel)
    (h : a.differenceBelow b fuel i j = some d) :
    ∃ position, FirstDifference a b i j d position := by
  induction fuel generalizing i j x y with
  | zero => cases h
  | succ fuel ih =>
      have hmatches : ∀ {k : Nat} {pair : Nat × Nat},
          (x.children.zip y.children)[k]? = some pair →
            a.differenceBelow b fuel pair.1 pair.2 = none →
              ∀ rest, a.Matches b pair.1 pair.2 rest := by
        intro k pair hpair hnone rest
        obtain ⟨m, n, hm, hn, hlt⟩ := exists_children ha hb hx hy hpair
        have hsame := (differenceBelow_eq_none_iff ha hb hm hn).mp hnone
        exact ((sameBelow_iff ha hb hm hn (by omega)).mp hsame rest).matches
      have hnothing : ∀ earlier < ([] : List Nat), a.Matches b i j earlier :=
        fun earlier hearlier => absurd hearlier (List.not_lt_nil earlier)
      rcases differenceBelow_eq_some hx hy h with
        ⟨hdiffers, hpath⟩ | ⟨hagrees, k, pair, hpair, hbelow, hfront⟩ |
          ⟨hagrees, hlength, hpath, hall⟩
      · exact ⟨[], ⟨i, j, x, y, rfl, rfl, hx, hy, hpath, .inl hdiffers⟩, hnothing⟩
      · obtain ⟨m, n, hm, hn, hlt⟩ := exists_children ha hb hx hy hpair
        obtain ⟨position, hfirst⟩ := ih hm hn (by omega) hbelow
        exact ⟨k :: position, hfirst.below hx hy hagrees hpair
          fun l hl other hother => hmatches hother (hfront l hl other hother)⟩
      · have hrest : ∀ rest, a.Matches b i j rest := by
          intro rest
          apply matches_of_children hx hy hagrees
          intro pair hpair
          obtain ⟨k, hk⟩ := List.mem_iff_getElem?.mp hpair
          exact hmatches hk (hall pair hpair)
        exact ⟨[], ⟨i, j, x, y, rfl, rfl, hx, hy, hpath, .inr ⟨hlength, hrest⟩⟩, hnothing⟩

/-- Two trees report no difference exactly when they are the same.  A difference is reported
under the path of a node that stands at the same position in both trees, where the nodes
differ in what they say or in the number of their children, and the positions in front of
it show no difference in what nodes say.  Being the same is an equivalence that sees
neither the numbers of nodes nor the mark of confirmation. -/
theorem difference?_and_same (ha : a.Built) (hb : b.Built) (hc : c.Built) :
    (a.difference? b = none ↔ a.same b = true) ∧
      (∀ d, a.difference? b = some d → ∃ position, FirstDifference a b a.root b.root d position) ∧
      (a.same a = true ∧ (a.same b = true → b.same a = true) ∧
        (a.same b = true → b.same c = true → a.same c = true)) ∧
      (∀ number, Renumbers number a b → a.same b = true ∧ a.same c = b.same c) ∧
      a.markRegistered.same b = a.same b ∧ a.same b.markRegistered = a.same b := by
  have hla := ha.isLinked
  have hlb := hb.isLinked
  have hlc := hc.isLinked
  refine ⟨?_, ?_, ⟨?_, ?_, ?_⟩, ?_, ?_, ?_⟩
  · exact differenceBelow_eq_none_iff hla hlb a.node?_root b.node?_root
  · intro d hd
    exact exists_firstDifference hla hlb a.node?_root b.node?_root (by omega) hd
  · exact hla.same_refl
  · exact same_symm hla hlb
  · exact same_trans hla hlb hlc
  · intro number hnumber
    have hab : a.same b = true := hnumber.same hla hlb
    refine ⟨hab, ?_⟩
    rw [Bool.eq_iff_iff]
    constructor
    · exact same_trans hlb hla hlc (same_symm hla hlb hab)
    · exact same_trans hla hlb hlc hab
  · exact same_markRegistered_left a b
  · exact same_markRegistered_right a b

/-- The nodes of one tree are added in two orders; in a third tree the parameter has
another type. -/
theorem difference?_and_same_role :
    let type (s : String) : Properties := Dict.empty.insert "type" (.string s)
    let root (children : List Nat) : Node :=
      { kind := .root, name := "role", description := "Roles", children }
    let add (children : List Nat) : Node :=
      { kind := .subcommand, name := "add", description := "Add", children, parent := some 0 }
    let drop : Node :=
      { kind := .subcommand, name := "drop", description := "Drop", parent := some 0 }
    let who (s : String) : Node :=
      { kind := .parameter, name := "who", description := "Who", properties := type s,
        parent := some 1 }
    let a : Tree := ⟨[root [1, 2], add [3], drop, who "ROLE"], 0, by decide⟩
    let b : Tree := ⟨[root [1, 3], add [2], who "ROLE", drop], 0, by decide⟩
    let c : Tree := ⟨[root [1, 3], add [2], who "USER", drop], 0, by decide⟩
    let d : Difference := ⟨"role add who", "type \"ROLE\" -> \"USER\""⟩
    Renumbers (fun i => [0, 1, 3, 2].getD i 0) a b ∧ a.same b = true ∧ a.same c = false ∧
      a.difference? c = some d ∧ ∃ position, FirstDifference a c a.root c.root d position := by
  intro type root add drop who a b c d
  have hroot : (new "role" "Roles").Built := .new _ _
  have ha : a.Built :=
    (((hroot.withChild 0 .subcommand "add" "Add").withChild 0 .subcommand "drop" "Drop").withChild
      1 .parameter "who" "Who").setProperty 3 "type" (.string "ROLE")
  have hgrown := ((hroot.withChild 0 .subcommand "add" "Add").withChild 1 .parameter "who"
    "Who").withChild 0 .subcommand "drop" "Drop"
  have hb : b.Built := hgrown.setProperty 2 "type" (.string "ROLE")
  have hc : c.Built := hgrown.setProperty 2 "type" (.string "USER")
  have hnumber : Renumbers (fun i => [0, 1, 3, 2].getD i 0) a b := by
    refine ⟨rfl, fun {i x} hx => ?_⟩
    match i, hx with
    | 0, rfl => exact ⟨_, rfl, ⟨rfl, rfl, rfl, fun _ => sameValue_refl _⟩, rfl⟩
    | 1, rfl => exact ⟨_, rfl, ⟨rfl, rfl, rfl, fun _ => sameValue_refl _⟩, rfl⟩
    | 2, rfl => exact ⟨_, rfl, ⟨rfl, rfl, rfl, fun _ => sameValue_refl _⟩, rfl⟩
    | 3, rfl => exact ⟨_, rfl, ⟨rfl, rfl, rfl, fun _ => sameValue_refl _⟩, rfl⟩
  have hd : a.difference? c = some d := by decide +kernel
  have hsame := difference?_and_same ha hb hc
  have hdifference := difference?_and_same ha hc hb
  refine ⟨hnumber, (hsame.2.2.2.1 _ hnumber).1, ?_, hd, hdifference.2.1 d hd⟩
  rw [← Bool.not_eq_true, ← hdifference.1, hd]
  simp

end ChatCommands.Schema.Tree
