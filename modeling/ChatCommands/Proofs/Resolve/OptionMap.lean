import ChatCommands.Dispatch.Route
import ChatCommands.Proofs.Resolve.Errors
import ChatCommands.Proofs.Resolve.Lockstep
import ChatCommands.Proofs.Resolve.Permission

/-!
# Options as a map

Options are a map from the names of parameters to values, although they come as a list.
A parameter takes the first option of its name and leaves the others where they are, so
that the turn of a name finds the same value whatever has been taken before.  Where an
option stands, what comes later under the same name, and options of no parameter make no
difference.  The errors are the same too, and not only their causes, since without a text
they do not point anywhere.
-/

namespace ChatCommands

/-- The value that options give a name: that of the first option of the name in any case. -/
def Input.valueOf? (name : String) (input : Input) : Option OptionValue :=
  (input.first? name).map (·.value)

namespace Supply

/-- A name takes its value from options, and the other names keep theirs. -/
theorem exists_pop_options (name : String) (given : List TypedOption) :
    ∃ rest, pop { input := .options given } name =
        (((Input.options given).valueOf? name).map .typed, ⟨.options rest, none, none⟩) ∧
      ∀ other, Text.asciiEq name other = false →
        (Input.options rest).valueOf? other = (Input.options given).valueOf? other := by
  rw [Input.valueOf?, Input.first?, ← fst_takeNamed]
  simp only [pop]
  cases htaken : takeNamed name given with
  | none => exact ⟨given, rfl, fun _ _ => rfl⟩
  | some taken =>
      exact ⟨taken.2, rfl, fun _ hne => congrArg (Option.map _) (find?_of_takeNamed hne htaken)⟩

end Supply

namespace Environment

variable {env : Environment} {invocation : Invocation}

/-! ## Options of the same values -/

/-- Two lists of options give the same value, or none, to each parameter that takes input. -/
def SameValues (params : List (Param × Resolver)) (given given' : List TypedOption) : Prop :=
  ∀ found ∈ params, found.2.isIssuerOnly found.1 = false →
    (Input.options given).valueOf? found.1.name = (Input.options given').valueOf? found.1.name

/-- A parameter takes the same value from both, and leaves the same values for the others. -/
theorem exists_inStep_of_valueOf? {name : String} {given given' : List TypedOption}
    (h : (Input.options given).valueOf? name = (Input.options given').valueOf? name) :
    ∃ rest rest', Supply.InStep name { input := .options given } { input := .options given' }
        (.options rest) (.options rest') ∧
      ∀ other, Text.asciiEq name other = false →
        (Input.options rest).valueOf? other = (Input.options given).valueOf? other ∧
          (Input.options rest').valueOf? other = (Input.options given').valueOf? other := by
  obtain ⟨rest, hpop, hothers⟩ := Supply.exists_pop_options name given
  obtain ⟨rest', hpop', hothers'⟩ := Supply.exists_pop_options name given'
  refine ⟨rest, rest', ?_, fun other hne => ⟨hothers other hne, hothers' other hne⟩⟩
  rw [← h] at hpop'
  cases hvalue : (Input.options given).valueOf? name with
  | none =>
      rw [hvalue] at hpop hpop'
      exact .lacking none none hpop hpop'
  | some value =>
      rw [hvalue] at hpop hpop'
      exact .giving none none (.inl rfl) hpop hpop'

theorem agree_resolveParams_of_sameValues (ht : env.resolvers.IsStandard)
    {params : List (Param × Resolver)}
    (hresolvers : ∀ found ∈ params, env.resolvers.find? found.1.type = some found.2)
    (happart : params.Pairwise fun f g => Text.asciiEq f.1.name g.1.name = false)
    {given given' : List TypedOption} (hsame : SameValues params given given') :
    Agree Eq (env.resolveParams invocation params (.options given))
      (env.resolveParams invocation params (.options given')) := by
  -- What a parameter takes goes by its own name, so that the others still find the same.
  induction params generalizing given given' with
  | nil => exact rfl
  | cons found params ih =>
      obtain ⟨p, r⟩ := found
      obtain ⟨hhead, htail⟩ := List.pairwise_cons.mp happart
      have hr := hresolvers (p, r) List.mem_cons_self
      have hresolvers' := fun found hfound => hresolvers found (List.mem_cons_of_mem _ hfound)
      have hothers : SameValues params given given' :=
        fun found hfound => hsame found (List.mem_cons_of_mem _ hfound)
      cases hissuer : r.isIssuerOnly p with
      | true =>
          exact agree_resolveParams_cons (agree_resolveParam_of_isIssuerOnly ht hr hissuer _ _)
            (ih hresolvers' htail hothers)
      | false =>
          obtain ⟨rest, rest', hstep, hkept⟩ :=
            exists_inStep_of_valueOf? (hsame (p, r) List.mem_cons_self hissuer)
          have hrest : SameValues params rest rest' := by
            intro found hfound htakes
            obtain ⟨hleft, hleft'⟩ := hkept found.1.name (hhead found hfound)
            rw [hleft, hleft', hothers found hfound htakes]
          exact agree_resolveParams_cons
            (agree_resolveParam ht hr hissuer hstep fun _ _ => ⟨trivial, trivial⟩)
            (ih hresolvers' htail hrest)

/-- A declared command makes the same of any two lists of options that give each of its
parameters that take input the same value or none: the same arguments, the same wish to
show how it is used, or the same error. -/
theorem resolve_eq_of_values_eq {enums : List (String × List String)}
    (hresolvers : env.resolvers = .withEnums enums) {c : Command} (hc : c.IsDeclared)
    {given given' : List TypedOption}
    (hsame : ∀ p ∈ Route.consuming env.resolvers c.toCommandInfo,
      (Input.options given).valueOf? p.name = (Input.options given').valueOf? p.name) :
    env.resolve invocation c.toCommandInfo (.options given) =
      env.resolve invocation c.toCommandInfo (.options given') := by
  have ht : env.resolvers.IsStandard := hresolvers ▸ ResolverTable.isStandard_withEnums enums
  cases hparams : c.params.mapM env.withResolver with
  | error e => rw [resolve, resolve, hparams]; rfl
  | ok params =>
      have hfound := find?_of_mapM hparams
      have hvalues : SameValues params given given' := by
        intro found hmem htakes
        obtain ⟨p, hp, hresolver⟩ := exists_of_mem_mapM hparams hmem
        obtain ⟨rfl, hr⟩ := withResolver_eq_ok hresolver
        refine hsame _ (List.mem_filter.mpr ⟨hp, ?_⟩)
        rw [isIssuerOnly_eq hr, htakes, Bool.not_false]
      have hagree : Agree Eq (env.resolveParams invocation params (.options given))
          (env.resolveParams invocation params (.options given')) :=
        agree_resolveParams_of_sameValues ht hfound (asciiEq_eq_false_of_mapM hc hparams) hvalues
      have heq := hagree.mapError_unplaced
      rw [mapError_unplaced_resolveParams ht hfound rfl,
        mapError_unplaced_resolveParams ht hfound rfl] at heq
      rw [resolve_of_mapM hparams, resolve_of_mapM hparams, heq]

/-- Options in another order and in another case, among them one of no parameter, one of a
parameter of the issuer and a second one for the count, are resolved to the same arguments. -/
theorem resolve_paint_of_options :
    let given : List TypedOption :=
      [⟨"count", .integer ⟨12, by decide, by decide⟩⟩, ⟨"color", .string "green"⟩,
        ⟨"notes", .string "dots"⟩]
    let given' : List TypedOption :=
      [⟨"Notes", .string "dots"⟩, ⟨"shade", .boolean true⟩,
        ⟨"COUNT", .integer ⟨12, by decide, by decide⟩⟩, ⟨"who", .user 7⟩,
        ⟨"color", .string "green"⟩, ⟨"count", .integer ⟨90, by decide, by decide⟩⟩]
    ∃ c, paint.build = .ok c ∧
      (∀ p ∈ Route.consuming painting.resolvers c.toCommandInfo,
        (Input.options given).valueOf? p.name = (Input.options given').valueOf? p.name) ∧
      painting.resolve aside c.toCommandInfo (.options given) =
        painting.resolve aside c.toCommandInfo (.options given') ∧
      painting.resolve aside c.toCommandInfo (.options given) =
        .ok (.resolved [("who", .user aside.issuer),
          ("count", .integer .w8 ⟨12, by decide, by decide⟩),
          ("color", .enumMember "Color" "Green"), ("notes", .strings ["dots"])]) := by
  intro given given'
  have hrun : (paint.build.map fun c =>
      ((Route.consuming painting.resolvers c.toCommandInfo).map (·.name),
        painting.resolve aside c.toCommandInfo (.options given))) =
      .ok (["count", "color", "notes"], .ok (.resolved [("who", .user aside.issuer),
        ("count", .integer .w8 ⟨12, by decide, by decide⟩),
        ("color", .enumMember "Color" "Green"), ("notes", .strings ["dots"])])) := rfl
  obtain ⟨c, hbuild, h⟩ := map_eq_ok.mp hrun
  obtain ⟨hnames, hresolved⟩ := Prod.mk.inj h
  have hsame : ∀ p ∈ Route.consuming painting.resolvers c.toCommandInfo,
      (Input.options given).valueOf? p.name = (Input.options given').valueOf? p.name := by
    have hall : ∀ name ∈ ["count", "color", "notes"],
        (Input.options given).valueOf? name = (Input.options given').valueOf? name := by
      simp only [List.forall_mem_cons, List.not_mem_nil, false_imp_iff, implies_true, and_true]
      exact ⟨rfl, rfl, rfl⟩
    rw [← hnames] at hall
    exact fun p hp => hall p.name (List.mem_map_of_mem hp)
  exact ⟨c, hbuild, hsame, resolve_eq_of_values_eq rfl ⟨paint, hbuild⟩ hsame, hresolved⟩

end Environment

end ChatCommands
