import ChatCommands.Schema.Layout
import ChatCommands.Proofs.Schema.Tree

/-!
# Laid out trees

A layout succeeds when each of its stages does.  Every command of the root has then
passed the checks, and with it the order and the types of its parameters.
-/

namespace ChatCommands.Schema

theorem Passed.variadic_of_add {passed after : Passed} {p : Param}
    (h : passed.add p = .ok after) (hvariadic : p.type.isVariadic = true) :
    after.variadic.isSome = true := by
  simp only [add, hvariadic, if_true] at h
  split at h
  next => cases h
  next =>
    split at h
    next => cases h
    next =>
      rw [← Except.ok.inj h]
      rfl

theorem Passed.optional_of_add {passed after : Passed} {p : Param}
    (h : passed.add p = .ok after) :
    after.optional = (passed.optional || !p.requiresInput) ∧
      (passed.optional = true → p.requiresInput = false) := by
  unfold add at h
  split at h
  next => cases h
  next =>
    split at h
    next => cases h
    next hordered =>
      refine ⟨by rw [← Except.ok.inj h], ?_⟩
      intro hoptional
      simpa [hoptional] using hordered

/-- The commands declared for a root. -/
abbrev ofRoot (root : String) (commands : List CommandInfo) : List CommandInfo :=
  commands.filter (·.root == root)

theorem mem_ofRoot_iff {root : String} {commands : List CommandInfo} {c : CommandInfo} :
    c ∈ ofRoot root commands ↔ c ∈ commands ∧ c.root = root := by
  rw [ofRoot, List.mem_filter, beq_iff_eq]

namespace Vocabulary

variable {v : Vocabulary} {t : Tree} {root : String} {commands : List CommandInfo}
  {groups : List Group}

/-- The root shows the parameters of a command: nothing else is declared below it. -/
def showsBare (root : String) (commands : List CommandInfo) (groups : List Group) : Bool :=
  (groupsOf root groups).isEmpty && (ofRoot root commands).all (·.sub.isEmpty)

/-- The tree of a root on which nothing is placed yet. -/
abbrev rootAlone (root : String) (commands : List CommandInfo) (groups : List Group) : Tree :=
  Tree.new root (rootDescription root (ofRoot root commands) groups)

/-- The stages of a layout, which end in a tree. -/
structure LaidOut (v : Vocabulary) (root : String) (commands : List CommandInfo)
    (groups : List Group) (t : Tree) : Prop where
  checked : ∀ c ∈ ofRoot root commands, v.checkCommand c = .ok ()
  grouped : ∃ placed,
    (firstOfEachPath (ofRoot root commands)).foldlM
        (v.place (groupsOf root groups) (showsBare root commands groups))
        (rootAlone root commands groups) = .ok placed ∧
      (groupsOf root groups).foldlM (placeGroup (groupsOf root groups)) placed = .ok t ∧
      t.check = .ok ()

theorem layout_eq_ok_iff :
    v.layout root commands groups = .ok t ↔ v.LaidOut root commands groups t := by
  have hchecks : (ofRoot root commands).forM
      (fun c => (v.checkCommand c).mapError (CommandError.violation c.qualifiedName)) = .ok () ↔
        ∀ c ∈ ofRoot root commands, v.checkCommand c = .ok () := by
    rw [forM_eq_ok]
    exact forall₂_congr fun c _ => mapError_eq_ok
  simp only [layout, bind_eq_ok, foldlM_mapError_eq_ok, mapError_eq_ok]
  constructor
  · rintro ⟨⟨⟩, hcheck, placed, hplaced, grouped, hgrouped, ⟨⟩, hlimits, hresult⟩
    obtain rfl : grouped = t := Except.ok.inj hresult
    exact ⟨hchecks.mp hcheck, placed, hplaced, hgrouped, hlimits⟩
  · rintro ⟨hcheck, placed, hplaced, hgrouped, hlimits⟩
    exact ⟨(), hchecks.mpr hcheck, placed, hplaced, t, hgrouped, (), hlimits, rfl⟩

theorem layout_eq_ok (h : v.layout root commands groups = .ok t) :
    v.LaidOut root commands groups t :=
  layout_eq_ok_iff.mp h

theorem checkCommand_of_layout (h : v.layout root commands groups = .ok t) {c : CommandInfo}
    (hc : c ∈ commands) (hroot : c.root = root) : v.checkCommand c = .ok () :=
  (layout_eq_ok h).checked c (mem_ofRoot_iff.mpr ⟨hc, hroot⟩)

/-! ## Checked parameters -/

theorem checkParam_eq_ok {p : Param} {r : Resolver} (h : v.checkParam p = .ok r) :
    v.resolvers.find? p.type = some r := by
  unfold checkParam at h
  split at h
  next => cases h
  next resolver hresolver =>
    split at h
    next => cases h
    next =>
      obtain ⟨⟨⟩, -, rfl⟩ := map_eq_ok.mp h
      exact hresolver

/-- The conditions of a checked parameter are registered. -/
theorem isSome_of_checkParam {p : Param} {r : Resolver} (h : v.checkParam p = .ok r) :
    ∀ use ∈ p.conditions, (v.conditions.find? use.name).isSome = true := by
  unfold checkParam at h
  split at h
  next => cases h
  next =>
    split at h
    next => cases h
    next hnone =>
      intro use huse
      have hfound := List.find?_eq_none.mp hnone use huse
      rwa [Bool.not_eq_true, Option.isNone_eq_false_iff] at hfound

/-- A checked parameter has a resolver, and unless the issuer settles it, it may
stand behind those that take input. -/
theorem checkParams_cons_eq_ok {passed : Passed} {p : Param} {rest : List Param}
    (h : v.checkParams passed (p :: rest) = .ok ()) :
    ∃ r, v.resolvers.find? p.type = some r ∧
      ((r.isIssuerOnly p = true ∧ v.checkParams passed rest = .ok ()) ∨
        (r.isIssuerOnly p = false ∧
          ∃ after, passed.add p = .ok after ∧ v.checkParams after rest = .ok ())) := by
  obtain ⟨r, hr, h⟩ := bind_eq_ok.mp h
  refine ⟨r, checkParam_eq_ok hr, ?_⟩
  split at h
  next hissuer => exact .inl ⟨hissuer, h⟩
  next htakes => exact .inr ⟨by simpa using htakes, bind_eq_ok.mp h⟩

theorem exists_checkParam_of_mem {passed : Passed} {params : List Param}
    (h : v.checkParams passed params = .ok ()) : ∀ p ∈ params, ∃ r, v.checkParam p = .ok r := by
  induction params generalizing passed with
  | nil => exact fun p hp => absurd hp List.not_mem_nil
  | cons p rest ih =>
      obtain ⟨r, hr, h⟩ := bind_eq_ok.mp h
      have hrest : ∃ after, v.checkParams after rest = .ok () := by
        split at h
        next => exact ⟨passed, h⟩
        next =>
          obtain ⟨after, -, h⟩ := bind_eq_ok.mp h
          exact ⟨after, h⟩
      obtain ⟨after, hrest⟩ := hrest
      intro q hq
      rcases List.mem_cons.mp hq with rfl | hq
      · exact ⟨r, hr⟩
      · exact ih hrest q hq

/-- Nothing behind a variadic parameter takes input. -/
theorem isIssuerOnly_of_variadic {passed : Passed} {params : List Param}
    (hvariadic : passed.variadic.isSome = true) (h : v.checkParams passed params = .ok ()) :
    ∀ p ∈ params, v.resolvers.isIssuerOnly p = true := by
  induction params with
  | nil => exact fun p hp => absurd hp List.not_mem_nil
  | cons p rest ih =>
      obtain ⟨r, hr, ⟨hissuer, hrest⟩ | ⟨-, after, hadd, -⟩⟩ := checkParams_cons_eq_ok h
      · intro q hq
        rcases List.mem_cons.mp hq with rfl | hq
        · simp only [ResolverTable.isIssuerOnly, hr, hissuer]
        · exact ih hrest q hq
      · obtain ⟨name, hname⟩ := Option.isSome_iff_exists.mp hvariadic
        simp [Passed.add, hname] at hadd

theorem isShown_eq {p : Param} {r : Resolver} (h : v.resolvers.find? p.type = some r) :
    v.isShown p = !r.isIssuerOnly p := by
  simp only [isShown, h]

theorem isIssuerOnly_of_isShown {p : Param} (h : v.isShown p = true) :
    v.resolvers.isIssuerOnly p = false := by
  unfold isShown at h
  split at h
  next r hr => simpa [ResolverTable.isIssuerOnly, hr] using h
  next => cases h

/-- Of checked parameters those are shown that take input. -/
theorem filter_isShown {passed : Passed} {params : List Param}
    (h : v.checkParams passed params = .ok ()) :
    params.filter v.isShown = params.filter fun p => !v.resolvers.isIssuerOnly p := by
  refine List.filter_congr ?_
  intro p hp
  obtain ⟨r, hr⟩ := exists_checkParam_of_mem h p hp
  have hresolver := checkParam_eq_ok hr
  rw [isShown_eq hresolver, ResolverTable.isIssuerOnly, hresolver]

/-- Of the checked parameters that are shown, those that require input come first. -/
theorem pairwise_requiresInput {passed : Passed} {params : List Param}
    (h : v.checkParams passed params = .ok ()) :
    (params.filter v.isShown).Pairwise
        (fun p q => p.requiresInput = false → q.requiresInput = false) ∧
      (passed.optional = true → ∀ q ∈ params.filter v.isShown, q.requiresInput = false) := by
  induction params generalizing passed with
  | nil => exact ⟨.nil, fun _ q hq => absurd hq List.not_mem_nil⟩
  | cons p rest ih =>
      obtain ⟨r, hr, ⟨hissuer, hrest⟩ | ⟨htakes, after, hadd, hrest⟩⟩ := checkParams_cons_eq_ok h
      · have hhidden : v.isShown p = false := by rw [isShown_eq hr, hissuer]; rfl
        rw [List.filter_cons_of_neg (by simp [hhidden])]
        exact ih hrest
      · have hshown : v.isShown p = true := by rw [isShown_eq hr, htakes]; rfl
        obtain ⟨hpairwise, hoptional⟩ := ih hrest
        obtain ⟨hafter, hp⟩ := Passed.optional_of_add hadd
        rw [List.filter_cons_of_pos hshown]
        constructor
        · refine List.pairwise_cons.mpr ⟨?_, hpairwise⟩
          intro q hq hfree
          exact hoptional (by simp [hafter, hfree]) q hq
        · intro hpassed q hq
          rcases List.mem_cons.mp hq with rfl | hq
          · exact hp hpassed
          · exact hoptional (by simp [hafter, hpassed]) q hq

/-- Of the checked parameters that are shown, only the last one is variadic. -/
theorem pairwise_isVariadic {passed : Passed} {params : List Param}
    (h : v.checkParams passed params = .ok ()) :
    (params.filter v.isShown).Pairwise fun p _ => p.type.isVariadic = false := by
  induction params generalizing passed with
  | nil => exact .nil
  | cons p rest ih =>
      obtain ⟨r, hr, ⟨hissuer, hrest⟩ | ⟨htakes, after, hadd, hrest⟩⟩ := checkParams_cons_eq_ok h
      · have hhidden : v.isShown p = false := by rw [isShown_eq hr, hissuer]; rfl
        rw [List.filter_cons_of_neg (by simp [hhidden])]
        exact ih hrest
      · have hshown : v.isShown p = true := by rw [isShown_eq hr, htakes]; rfl
        rw [List.filter_cons_of_pos hshown]
        refine List.pairwise_cons.mpr ⟨?_, ih hrest⟩
        intro q hq
        rw [Bool.eq_false_iff]
        intro hvariadic
        obtain ⟨hmem, hq⟩ := List.mem_filter.mp hq
        have hissuer := isIssuerOnly_of_variadic (Passed.variadic_of_add hadd hvariadic) hrest q hmem
        rw [isIssuerOnly_of_isShown hq] at hissuer
        cases hissuer

theorem length_le_of_checkCommand {c : CommandInfo} (h : v.checkCommand c = .ok ()) :
    c.sub.length ≤ 2 := by
  simp only [checkCommand, check_eq_ok] at h
  obtain ⟨hlength, -⟩ := h
  rw [CommandInfo.path, List.length_cons, Limits.pathWords] at hlength
  omega

theorem checkParams_of_checkCommand {c : CommandInfo} (h : v.checkCommand c = .ok ()) :
    v.checkParams {} c.params = .ok () := by
  simp only [checkCommand, check_eq_ok] at h
  obtain ⟨-, h⟩ := h
  obtain ⟨⟨⟩, -, h⟩ := bind_eq_ok.mp h
  exact h

end Vocabulary

end ChatCommands.Schema
