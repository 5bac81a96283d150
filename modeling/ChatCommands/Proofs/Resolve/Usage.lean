import ChatCommands.Proofs.Resolve.Intake
import ChatCommands.Proofs.Resolve.Permission
import ChatCommands.Proofs.Schema.Mirror

/-!
# When usage is shown

The usage of a command is shown only where input is missing that the command requires, and
where it is missing nothing is resolved.  For a text the number of words tells, for options
their names: no option goes by the name of a parameter that is published as required.
-/

namespace ChatCommands

/-- A parameter of a command is published as required, and no option goes by its name. -/
def Schema.Vocabulary.MissesOption (v : Schema.Vocabulary) (c : CommandInfo)
    (given : List TypedOption) : Prop :=
  ∃ p ∈ v.shownParams c,
    (Schema.parameterProperties v.resolvers p).get? "required" = some (.bool true) ∧
      (Input.options given).Lacks p.name

theorem Schema.Vocabulary.missesOption_iff {v : Schema.Vocabulary} {c : CommandInfo}
    {given : List TypedOption} :
    v.MissesOption c given ↔
      ∃ p ∈ v.shownParams c, p.requiresInput = true ∧ (Input.options given).Lacks p.name := by
  simp only [MissesOption, Schema.get?_required, Option.some.injEq, Json.bool.injEq]

/-- What a row of parameters misses, the nodes that show it tell. -/
theorem Schema.Vocabulary.Shows.missesOption_iff {v : Schema.Vocabulary} {t : Schema.Tree} {i : Nat}
    {c : CommandInfo} (h : v.Shows t i (v.shownParams c)) (given : List TypedOption) :
    v.MissesOption c given ↔
      ∃ child ∈ t.childrenOf i, child.2.kind = .parameter ∧
        child.2.properties.get? "required" = some (.bool true) ∧
          (Input.options given).Lacks child.2.name := by
  have hnodes : (∃ n ∈ (t.childrenOf i).map (·.2), n.kind = .parameter ∧
      n.properties.get? "required" = some (.bool true) ∧ (Input.options given).Lacks n.name) ↔
        ∃ n ∈ (v.shownParams c).map (v.parameterNode i), n.kind = .parameter ∧
          n.properties.get? "required" = some (.bool true) ∧
            (Input.options given).Lacks n.name := by
    rw [h]
  simpa only [MissesOption, List.mem_map, exists_exists_and_eq_and, parameterNode, true_and]
    using hnodes.symm

namespace Environment

variable {env : Environment} {invocation : Invocation} {p : Param} {r : Resolver}

/-- Usage is shown for some input only if something is missing, and then nothing is
resolved. -/
structure Demands (env : Environment) (invocation : Invocation) (c : CommandInfo) (input : Input)
    (missing : Prop) : Prop where
  shown : env.resolve invocation c input = .ok .showUsage → missing
  unresolved : missing → ∀ args, env.resolve invocation c input ≠ .ok (.resolved args)

/-! ## Words -/

theorem demands_text (ht : env.resolvers.IsStandard) {v : Schema.Vocabulary} {c : CommandInfo}
    (hchecked : ∀ params, c.params.mapM env.withResolver = .ok params →
      env.Checked v {} c.params params) (source : String) (tokens : List Token) :
    env.Demands invocation c (.text source tokens) (tokens.length < env.required c.params) where
  shown h := by
    obtain ⟨params, hparams, hmissing⟩ := resolve_eq_showUsage h
    exact ((hchecked params hparams).eq_none_iff ht hmissing).mp rfl
  unresolved hfew args h := by
    obtain ⟨params, hparams, hresolved⟩ := resolve_eq_ok h
    have hnone := ((hchecked params hparams).eq_none_iff ht hresolved).mpr hfew
    cases hnone

/-! ## Options -/

theorem demands_options (ht : env.resolvers.IsStandard) {v : Schema.Vocabulary}
    (hv : v.resolvers = env.resolvers) {c : Command} (hdeclared : c.IsDeclared)
    (given : List TypedOption) :
    env.Demands invocation c.toCommandInfo (.options given)
      (v.MissesOption c.toCommandInfo given) where
  shown h := by
    obtain ⟨params, hparams, hmissing⟩ := resolve_eq_showUsage h
    obtain ⟨p, r, rest, left, hreaches, hstops⟩ := resolveParams_eq_none.mp hmissing
    obtain ⟨htakes, hempty, hrequires⟩ := resolveParam_eq_none_iff.mp hstops
    have hmem := hreaches.mem (p, r) List.mem_cons_self
    have hr : v.resolvers.find? p.type = some r := hv ▸ find?_of_mapM hparams (p, r) hmem
    have hp : p ∈ c.params := map_fst_of_mapM hparams ▸ List.mem_map_of_mem hmem
    have hlacks := hreaches.lacks ht (find?_of_mapM hparams)
      (asciiEq_eq_false_of_mapM hdeclared hparams) (Input.lacks_iff.mpr hempty)
    refine Schema.Vocabulary.missesOption_iff.mpr ⟨p, List.mem_filter.mpr ⟨hp, ?_⟩, hrequires, hlacks⟩
    rw [Schema.Vocabulary.isShown_eq hr, htakes]
    rfl
  unresolved hmisses args h := by
    obtain ⟨p, hshown, hrequires, hlacks⟩ := Schema.Vocabulary.missesOption_iff.mp hmisses
    obtain ⟨hp, hshown⟩ := List.mem_filter.mp hshown
    obtain ⟨params, hparams, hresolved⟩ := resolve_eq_ok h
    obtain ⟨k, hdeclared⟩ := List.mem_iff_getElem?.mp hp
    obtain ⟨⟨q, r⟩, hk, hfound⟩ := exists_of_getElem?_mapM hparams hdeclared
    obtain ⟨rfl, hr⟩ : q = p ∧ env.resolvers.find? p.type = some r := withResolver_eq_ok hfound
    obtain ⟨rest, left, w, after, hdrop, hreaches, hvalue, -⟩ :=
      exists_reaches_of_resolveParams hresolved hk
    -- Options do not become more, so that the parameter misses its own when it is reached.
    have hleft : left.Lacks q.name := hreaches.keeps (fun other => Supply.keeps_lacks other q.name)
      ht (find?_of_mapM hparams) hlacks
    have htakes : r.isIssuerOnly q = false := by
      rw [← isIssuerOnly_eq hr, ← hv]
      exact Schema.Vocabulary.isIssuerOnly_of_isShown hshown
    rw [resolveParam_eq_none_iff.mpr ⟨htakes, Input.lacks_iff.mp hleft, hrequires⟩] at hvalue
    cases hvalue

/-- A compiled command shows its usage exactly for the lack of input that it requires: too
few words, or no option for a parameter that is published as required. -/
theorem demands_required {enums : List (String × List String)}
    (hresolvers : env.resolvers = .withEnums enums) {v : Schema.Vocabulary}
    (hv : v.resolvers = env.resolvers) {commands : List CommandInfo} {groups : List Group}
    {c : Command} (hdeclared : c.IsDeclared) (hc : c.toCommandInfo ∈ commands) {t : Schema.Tree}
    (hlayout : v.layout c.root commands groups = .ok t) (invocation : Invocation) :
    (∀ source tokens, env.Demands invocation c.toCommandInfo (.text source tokens)
        (tokens.length <
          ((Route.consuming env.resolvers c.toCommandInfo).filter (·.requiresInput)).length)) ∧
      (∀ given, env.Demands invocation c.toCommandInfo (.options given)
        (v.MissesOption c.toCommandInfo given)) ∧
      (Schema.Published c.root commands groups c.toCommandInfo →
        ∃ i, t.find? c.sub = some i ∧ ∀ given, v.MissesOption c.toCommandInfo given ↔
          ∃ child ∈ t.childrenOf i, child.2.kind = .parameter ∧
            child.2.properties.get? "required" = some (.bool true) ∧
              (Input.options given).Lacks child.2.name) := by
  have ht : env.resolvers.IsStandard := hresolvers ▸ ResolverTable.isStandard_withEnums enums
  refine ⟨?_, demands_options ht hv hdeclared, ?_⟩
  · exact demands_text ht fun params hparams => checked_of_layout hv hc hlayout hparams
  · intro hpublished
    obtain ⟨i, n, hfind, -, hshows, -⟩ :=
      Schema.Vocabulary.exists_shows_of_published hlayout hpublished
    exact ⟨i, hfind, hshows.missesOption_iff⟩

/-- A count as an option. -/
def dozen : TypedOption :=
  ⟨"count", .integer ⟨12, by decide, by decide⟩⟩

/-- One word is too few for a command that requires two, and so is one option. -/
theorem demands_required_paint :
    ∃ c t, paint.build = .ok c ∧
      Schema.Vocabulary.layout ⟨painting.resolvers, painting.conditions⟩ c.root
        [c.toCommandInfo] [] = .ok t ∧
      painting.resolve aside c.toCommandInfo (.text "12" [⟨"12", ⟨0, 2⟩⟩]) = .ok .showUsage ∧
      1 < ((Route.consuming painting.resolvers c.toCommandInfo).filter (·.requiresInput)).length ∧
      painting.resolve aside c.toCommandInfo (.options [dozen]) = .ok .showUsage ∧
      ∃ i, t.find? c.sub = some i ∧ ∃ child ∈ t.childrenOf i, child.2.kind = .parameter ∧
        child.2.properties.get? "required" = some (.bool true) ∧
          (Input.options [dozen]).Lacks child.2.name := by
  have hrun : (paint.build >>= fun c =>
      (Schema.Vocabulary.layout ⟨painting.resolvers, painting.conditions⟩ c.root
        [c.toCommandInfo] []).map fun _ =>
          (painting.resolve aside c.toCommandInfo (.text "12" [⟨"12", ⟨0, 2⟩⟩]),
            painting.resolve aside c.toCommandInfo (.options [dozen]))) =
      .ok (.ok .showUsage, .ok .showUsage) := rfl
  obtain ⟨c, hbuild, hlaid⟩ := bind_eq_ok.mp hrun
  obtain ⟨t, hlayout, hresolve⟩ := map_eq_ok.mp hlaid
  obtain ⟨htext, hoptions⟩ := Prod.mk.inj hresolve
  have hresolvers : painting.resolvers = .withEnums [("Color", ["Red", "Green"])] := rfl
  have hpublished : Schema.Published c.root [c.toCommandInfo] [] c.toCommandInfo :=
    ⟨by simp, rfl, fun hsub => ⟨rfl, by simp [hsub]⟩⟩
  obtain ⟨hwords, hnamed, hshown⟩ :=
    demands_required hresolvers rfl ⟨paint, hbuild⟩ List.mem_cons_self hlayout aside
  obtain ⟨i, hfind, hmisses⟩ := hshown hpublished
  exact ⟨c, t, hbuild, hlayout, htext, (hwords _ _).shown htext, hoptions, i, hfind,
    (hmisses [dozen]).mp ((hnamed [dozen]).shown hoptions)⟩

end Environment

end ChatCommands
