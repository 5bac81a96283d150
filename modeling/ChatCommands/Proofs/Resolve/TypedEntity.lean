import ChatCommands.Proofs.Resolve.Lookup
import ChatCommands.Proofs.Resolve.Options

/-!
# Typed entities

An option may carry the identifier of an entity.  The parameter gets the entity
with the identifier; only when there is none where the parameter looks, the digits
are taken for a name, and an entity of that name may stand in.
-/

namespace ChatCommands

theorem World.isFaithful_directory (w : World) : w.directory.IsFaithful where
  user id u h := by simpa using List.find?_some h
  member guild id m h := by
    have hfound := List.find?_some h
    simp only [Bool.and_eq_true, beq_iff_eq] at hfound
    exact hfound.2
  channel id c h := by simpa using List.find?_some h
  role id r h := by simpa using List.find?_some h

/-- The identifier that an option carries, if it is the option of an entity. -/
def OptionValue.entityId? : OptionValue → Option Snowflake
  | user id | channel id | role id | mentionable id => some id
  | _ => none

namespace Environment

open Supply

variable {env : Environment} {invocation : Invocation} {p : Param} {r : Resolver}
  {isLast : Bool} {v : Value} {id : Snowflake} {option : TypedOption}

theorem text_of_entityId? {value : OptionValue} (h : value.entityId? = some id) :
    value.text = id.text := by
  cases value <;> cases h <;> rfl

theorem pop_of_offers {input : Input} {name : String} (h : input.Offers name option) :
    ∃ rest, pop { input } name = (some (.typed option.value), rest) := by
  cases input with
  | text source tokens => exact h.elim
  | options given =>
      obtain ⟨rest, htaken⟩ := takeNamed_of_find? h
      exact ⟨⟨.options rest, none, none⟩, by simp [pop, htaken]⟩

/-- Choices let a typed entity pass as it is, or refuse it. -/
theorem pop_of_applyChoices {input : Input} {chosen : Supply} (h : input.Offers p.name option)
    (hid : option.value.entityId? = some id) (hchosen : applyChoices p { input } = .ok chosen) :
    ∃ rest, chosen.pop p.name = (some (.typed option.value), rest) := by
  obtain ⟨rest, hpop⟩ := pop_of_offers h
  unfold applyChoices at hchosen
  split at hchosen
  next =>
    rw [← Except.ok.inj hchosen]
    exact ⟨rest, hpop⟩
  next =>
    rw [hpop] at hchosen
    simp only at hchosen
    split at hchosen
    next => cases hchosen
    next choice hchoice =>
      split at hchosen
      next token hpiece => cases hpiece
      next text hpiece =>
        rw [Piece.typed.inj hpiece] at hid
        cases hid
      next =>
        rw [← Except.ok.inj hchosen]
        exact ⟨_, rfl⟩

theorem hasInput_of_offers {input : Input} {name : String} (h : input.Offers name option) :
    hasInput { input } name = true := by
  obtain ⟨rest, hpop⟩ := pop_of_offers h
  rw [← pop_fst_isSome, hpop]
  rfl

/-- A parameter that looks entities up and is given one judges its digits. -/
theorem judgeEntity_of_resolveParam (ht : env.resolvers.IsStandard)
    (hr : env.resolvers.find? p.type = some r) (hlooks : p.looksUp = true)
    {input after : Input} (h : input.Offers p.name option)
    (hid : option.value.entityId? = some id)
    (hresolved : env.resolveParam invocation p r isLast input = .ok (some (v, after)))
    (hne : v ≠ .absent) :
    (env.slot invocation p isLast).judgeEntity id.text = .ok v := by
  let slot := env.slot invocation p isLast
  obtain ⟨missing, hreading⟩ := slot.reading_of_looksUp hlooks
  have hinput := hasInput_of_offers h
  rcases resolveParam_eq_ok hresolved with ⟨chosen, rest, hentry, hrun, -⟩ | ⟨habsent, -, -⟩
  · cases hentry with
    | issuer hissuer =>
        have htakes := ht.isIssuerOnly_of_reading slot hr (by simp [hreading])
        exact absurd hissuer (Bool.eq_false_iff.mp htakes)
    | chosen hstart hchosen =>
        cases hstart with
        | given =>
            obtain ⟨left, hpop⟩ := pop_of_applyChoices h hid hchosen
            have hslot : slot.param.name = p.name := rfl
            rw [ht.run_eq slot hr, hreading] at hrun
            simp only [Reading.run, Slot.withPiece, hslot, hpop] at hrun
            have hjudged := mapError_eq_ok.mp (congrArg Prod.fst hrun)
            simpa only [Piece.text, text_of_entityId? hid, id.trim_text] using hjudged
        | default _ hnone => cases hinput.symm.trans hnone
    | bare _ hnone => cases hinput.symm.trans hnone
  · exact absurd habsent hne

/-- The pool of a parameter in an invocation. -/
def pool? (env : Environment) (invocation : Invocation) (p : Param) : Option Pool :=
  (env.slot invocation p false).pool?

/-- A typed entity leads to the entity with its identifier, or else, when there is
none where the parameter looks, to the only one that has its digits for a name. -/
theorem byId_or_named_of_resolve {enums : List (String × List String)}
    (hresolvers : env.resolvers = .withEnums enums) (hfaithful : env.directory.IsFaithful)
    {c : Command} (hdeclared : c.IsDeclared) (hp : p ∈ c.params) (hlooks : p.looksUp = true)
    {given : List TypedOption} (hoption : given.find? (isNamed p.name) = some option)
    (hid : option.value.entityId? = some id) {args : Arguments}
    (h : env.resolve invocation c.toCommandInfo (.options given) = .ok (.resolved args))
    (hv : args.get? p.name = some v) (hne : v ≠ .absent) :
    ∃ pool, env.pool? invocation p = some pool ∧
      ((pool.byId id = some v ∧ v.entityId? = some id) ∨
        (pool.byId id = none ∧ pool.named id.text = [v])) := by
  have ht : env.resolvers.IsStandard := hresolvers ▸ ResolverTable.isStandard_withEnums enums
  obtain ⟨params, hparams, hresolved⟩ := resolve_eq_ok h
  have hfirst : (Input.options given).Offers p.name option := hoption
  obtain ⟨r, isLast, before, after, hr, hoffers, hparam⟩ :=
    exists_resolveParam_of_get? ht hdeclared.apartByName.asciiEq_eq_false
      (mapM_forall₂ hparams) hp hfirst hresolved hv
  have hjudged := judgeEntity_of_resolveParam ht hr hlooks hoffers hid hparam hne
  obtain ⟨pool, hpool, hleads⟩ := Slot.leadsTo_of_judgeEntity hjudged hne
  refine ⟨pool, hpool, ?_⟩
  cases hleads with
  | byId hfound => exact .inl ⟨hfound, Slot.entityId?_of_byId hfaithful hpool hfound⟩
  | named hunknown hnamed => exact .inr ⟨hunknown, hnamed⟩

/-! ## A name of digits -/

/-- A command with a parameter that looks a user up. -/
def seek : CommandDraft where
  path := "seek"
  description := "Looks a user up"
  handler := some Handler.idle
  params := [{ name := "who", type := .user, flags := ["other"] }]

/-- A user whose name reads like an identifier. -/
def digitNamed : User := ⟨7, "42", false⟩

/-- The environment of some users. -/
def ofUsers (users : List User) : Environment :=
  ofWorld ⟨users, [], [], [], []⟩ []

/-- The built command with its only parameter, and the arguments of a call. -/
theorem exists_seek (env : Environment) (input : Input) (args : Arguments)
    (h : (seek.build.map fun c =>
      (c.params.map fun p => (p.name, p.type, p.hasFlag "other"),
        env.resolve aside c.toCommandInfo input)) =
          .ok ([("who", .user, true)], .ok (.resolved args))) :
    ∃ c p, seek.build = .ok c ∧ p ∈ c.params ∧ p.name = "who" ∧ p.type = .user ∧
      p.hasFlag "other" = true ∧ env.resolve aside c.toCommandInfo input = .ok (.resolved args) := by
  obtain ⟨c, hbuild, hrun⟩ := map_eq_ok.mp h
  rw [Prod.mk.injEq, List.map_eq_singleton_iff] at hrun
  obtain ⟨⟨p, hp, hshape⟩, hresolve⟩ := hrun
  rw [Prod.mk.injEq, Prod.mk.injEq] at hshape
  obtain ⟨hname, htype, hother⟩ := hshape
  exact ⟨c, p, hbuild, hp ▸ List.mem_singleton_self p, hname, htype, hother, hresolve⟩

/-- The user with the identifier goes before one that has it for a name. -/
theorem byId_or_named_seek :
    let env := ofUsers [digitNamed, ⟨42, "bob", false⟩]
    ∃ c p, seek.build = .ok c ∧ p ∈ c.params ∧ p.looksUp = true ∧ env.directory.IsFaithful ∧
      env.resolve aside c.toCommandInfo (.options [⟨"who", .user 42⟩]) =
        .ok (.resolved [("who", .user ⟨42, "bob", false⟩)]) ∧
      ∃ pool, env.pool? aside p = some pool ∧
        ((pool.byId 42 = some (.user ⟨42, "bob", false⟩) ∧
            (Value.user ⟨42, "bob", false⟩).entityId? = some 42) ∨
          (pool.byId 42 = none ∧
            pool.named (Snowflake.text 42) = [.user ⟨42, "bob", false⟩])) := by
  intro env
  obtain ⟨c, p, hbuild, hp, hname, htype, hother, hresolve⟩ :=
    exists_seek (ofUsers [digitNamed, ⟨42, "bob", false⟩]) (.options [⟨"who", .user 42⟩])
      [("who", .user ⟨42, "bob", false⟩)] rfl
  have hlooks : p.looksUp = true := by
    rw [Param.looksUp, htype]
    exact hother
  have hoption : [(⟨"who", .user 42⟩ : TypedOption)].find? (isNamed p.name) =
      some ⟨"who", .user 42⟩ := by
    rw [hname]
    rfl
  refine ⟨c, p, hbuild, hp, hlooks, World.isFaithful_directory _, hresolve, ?_⟩
  refine byId_or_named_of_resolve rfl (World.isFaithful_directory _) ⟨seek, hbuild⟩ hp hlooks
    hoption rfl hresolve ?_ ?_
  · rw [hname]
    rfl
  · intro habsent
    cases habsent

/-- A typed user of whom nothing is known leads to the user that has the digits of
the identifier for a name, although every lookup by identifier is faithful. -/
theorem typed_user_found_by_name :
    let env := ofUsers [digitNamed]
    ∃ c p, seek.build = .ok c ∧ p ∈ c.params ∧ p.name = "who" ∧ p.type = .user ∧
      p.hasFlag "other" = true ∧ env.directory.IsFaithful ∧
      env.resolve aside c.toCommandInfo (.options [⟨"who", .user 42⟩]) =
        .ok (.resolved [("who", .user digitNamed)]) ∧
      (Value.user digitNamed).entityId? ≠ some 42 := by
  intro env
  obtain ⟨c, p, hbuild, hp, hname, htype, hother, hresolve⟩ :=
    exists_seek (ofUsers [digitNamed]) (.options [⟨"who", .user 42⟩])
      [("who", .user digitNamed)] rfl
  exact ⟨c, p, hbuild, hp, hname, htype, hother, World.isFaithful_directory _, hresolve,
    by decide⟩

end Environment

end ChatCommands
