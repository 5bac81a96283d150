import ChatCommands.Resolve.Resolution
import ChatCommands.Resolve.Standard
import ChatCommands.Proofs.Outcome
import ChatCommands.Proofs.Resolve.Reading

/-!
# One parameter at a time

The steps of a resolution taken apart.  What a parameter can come to is said once, as the ways
through it: its resolver is entered, from the invocation alone, with what the choices let through
or with nothing, or there is no need for that.  Every way leads to one outcome and every outcome
has a way, so that what holds of resolved parameters is shown by cases on the ways.
-/

namespace ChatCommands.Environment

open Supply

variable {env : Environment} {invocation : Invocation} {p : Param} {r : Resolver}
  {isLast : Bool} {v : Value}

/-- Choices restrict the input and leave some. -/
theorem hasInput_of_applyChoices {supply chosen : Supply} (hinput : supply.hasInput p.name = true)
    (h : applyChoices p supply = .ok chosen) : chosen.hasInput p.name = true := by
  unfold applyChoices at h
  split at h
  next => exact Except.ok.inj h ▸ hinput
  next =>
    obtain ⟨piece, rest, hpop⟩ := exists_pop_of_hasInput hinput
    rw [hpop] at h
    simp only at h
    split at h
    next => cases h
    next choice hchoice =>
      split at h
      next => exact Except.ok.inj h ▸ hasInput_give _
      next => exact Except.ok.inj h ▸ hasInput_give _
      next => exact Except.ok.inj h ▸ hasInput_give _

theorem keeps_of_applyChoices {I : Input → Prop} (hI : Keeps p.name I) {supply chosen : Supply}
    (h : I supply.input) (hchosen : applyChoices p supply = .ok chosen) : I chosen.input := by
  have hpop := hI.pop h
  unfold applyChoices at hchosen
  split at hchosen
  next => exact Except.ok.inj hchosen ▸ h
  next =>
    split at hchosen
    next rest heq =>
      rw [heq] at hpop
      exact Except.ok.inj hchosen ▸ hpop
    next piece rest heq =>
      rw [heq] at hpop
      simp only at hchosen
      split at hchosen
      next => cases hchosen
      next =>
        split at hchosen
        next => exact Except.ok.inj hchosen ▸ hpop
        next => exact Except.ok.inj hchosen ▸ hpop
        next => exact Except.ok.inj hchosen ▸ hpop

/-- What the choices of a parameter get to see: the input for it, or its default. -/
inductive Start (env : Environment) (invocation : Invocation) (p : Param) (r : Resolver)
    (input : Input) : Supply → Prop where
  | given (htakes : r.isIssuerOnly p = false) (hinput : hasInput { input } p.name = true)
      (hpermits : env.permits invocation p = true) : Start env invocation p r input { input }
  | default {text : String} (htakes : r.isIssuerOnly p = false)
      (hinput : hasInput { input } p.name = false) (hdefault : p.default = some text) :
      Start env invocation p r input (giveText { input } text)

theorem Start.hasInput {input : Input} {start : Supply}
    (h : Start env invocation p r input start) : start.hasInput p.name = true := by
  cases h with
  | given _ hinput => exact hinput
  | default => exact hasInput_give _

/-- With something for the choices to see, it is up to them and to the resolver. -/
theorem Start.resolveParam_eq {input : Input} {start : Supply}
    (h : Start env invocation p r input start) :
    env.resolveParam invocation p r isLast input =
      applyChoices p start >>= fun chosen =>
        env.accept invocation p (r.run (env.slot invocation p isLast) chosen) := by
  cases h with
  | given htakes hinput hpermits =>
      simp only [resolveParam, htakes, hinput, hpermits, Bool.false_eq_true, if_false, if_true]
  | default htakes hinput hdefault =>
      simp only [resolveParam, htakes, hinput, hdefault, Bool.false_eq_true, if_false]

/-- The ways into the resolver of a parameter, with the supply on which it is run: from the
invocation alone, with what the choices let through, and with nothing, where that is permitted
and the resolver makes something of it. -/
inductive Entry (env : Environment) (invocation : Invocation) (p : Param) (r : Resolver)
    (input : Input) : Supply → Prop where
  | issuer (hissuer : r.isIssuerOnly p = true) : Entry env invocation p r input { input }
  | chosen {start supply : Supply} (hstart : Start env invocation p r input start)
      (hchosen : applyChoices p start = .ok supply) : Entry env invocation p r input supply
  | bare (htakes : r.isIssuerOnly p = false) (hinput : hasInput { input } p.name = false)
      (hdefault : p.default = none) (hoptional : p.optional = true)
      (habsent : r.acceptsAbsent = true) (hpermits : env.permits invocation p = true) :
      Entry env invocation p r input { input }

/-- A resolver that is entered decides what comes of its parameter. -/
theorem Entry.resolveParam_eq {input : Input} {supply : Supply}
    (h : Entry env invocation p r input supply) :
    env.resolveParam invocation p r isLast input =
      env.accept invocation p (r.run (env.slot invocation p isLast) supply) := by
  cases h with
  | issuer hissuer => simp only [resolveParam, hissuer, if_true]
  | chosen hstart hchosen =>
      rw [hstart.resolveParam_eq, hchosen]
      rfl
  | bare htakes hinput hdefault hoptional habsent hpermits =>
      simp only [resolveParam, htakes, hinput, hdefault, hoptional, habsent, hpermits,
        Bool.false_eq_true, Bool.and_self, if_false, if_true]

theorem accept_eq_ok {outcome : Except CommandError Value × Supply}
    {found : Option (Value × Input)} (h : env.accept invocation p outcome = .ok found) :
    ∃ v rest, outcome = (.ok v, rest) ∧ found = some (v, rest.input) := by
  unfold accept at h
  split at h
  next => cases h
  next v rest =>
    split at h
    next => exact ⟨v, rest, rfl, (Except.ok.inj h).symm⟩
    next =>
      obtain ⟨⟨⟩, -, hfound⟩ := map_eq_ok.mp h
      exact ⟨v, rest, rfl, hfound.symm⟩

/-- Where there are no conditions, what a resolver gives is accepted. -/
theorem accept_of_unconditional (hconditions : p.conditions = []) (v : Value) (rest : Supply) :
    env.accept invocation p (.ok v, rest) = .ok (some (v, rest.input)) := by
  have hmeets : env.checkConditions invocation p rest v p.conditions = .ok () := by
    rw [hconditions]
    rfl
  rw [accept, hmeets]
  exact ite_self _

theorem accept_eq_some {outcome : Except CommandError Value × Supply} {after : Input}
    (h : env.accept invocation p outcome = .ok (some (v, after))) :
    ∃ rest, outcome = (.ok v, rest) ∧ rest.input = after := by
  obtain ⟨w, rest, hrun, hfound⟩ := accept_eq_ok h
  obtain ⟨rfl, rfl⟩ : v = w ∧ after = rest.input := by simpa using hfound
  exact ⟨rest, hrun, rfl⟩

theorem accept_ne_none (outcome : Except CommandError Value × Supply) :
    env.accept invocation p outcome ≠ .ok none := by
  intro h
  obtain ⟨v, rest, -, hfound⟩ := accept_eq_ok h
  cases hfound

/-- The ways through a parameter and what comes of them.  Its resolver is entered, or there is
no need for that: the choices refuse what they see, the permissions for the input are missing, or
there is nothing. -/
inductive Way (env : Environment) (invocation : Invocation) (p : Param) (r : Resolver)
    (isLast : Bool) (input : Input) : Except CommandError (Option (Value × Input)) → Prop where
  | entered {outcome} {supply : Supply} (hentry : Entry env invocation p r input supply)
      (haccept : env.accept invocation p (r.run (env.slot invocation p isLast) supply) =
        outcome) : Way env invocation p r isLast input outcome
  | refused {start : Supply} {e : CommandError} (hstart : Start env invocation p r input start)
      (hrefused : applyChoices p start = .error e) :
      Way env invocation p r isLast input (.error e)
  | denied (htakes : r.isIssuerOnly p = false) (hinput : hasInput { input } p.name = true)
      (hdenied : env.permits invocation p = false) :
      Way env invocation p r isLast input (.error (.permissionDenied p.name))
  | absent (htakes : r.isIssuerOnly p = false) (hinput : hasInput { input } p.name = false)
      (hdefault : p.default = none) (hoptional : p.optional = true)
      (hskips : ¬ (r.acceptsAbsent && env.permits invocation p) = true) :
      Way env invocation p r isLast input (.ok (some (.absent, input)))
  | missing (htakes : r.isIssuerOnly p = false) (hinput : hasInput { input } p.name = false)
      (hrequires : p.requiresInput = true) : Way env invocation p r isLast input (.ok none)

/-- A parameter is resolved in one of these ways. -/
theorem way_of_resolveParam {input : Input} {outcome : Except CommandError (Option (Value × Input))}
    (h : env.resolveParam invocation p r isLast input = outcome) :
    Way env invocation p r isLast input outcome := by
  have hstarted : ∀ {start}, Start env invocation p r input start →
      (applyChoices p start >>= fun chosen =>
        env.accept invocation p (r.run (env.slot invocation p isLast) chosen)) = outcome →
      Way env invocation p r isLast input outcome := by
    intro start hstart hrun
    cases hchoices : applyChoices p start with
    | error e =>
        rw [hchoices] at hrun
        exact hrun ▸ .refused hstart hchoices
    | ok chosen =>
        rw [hchoices] at hrun
        exact .entered (.chosen hstart hchoices) hrun
  simp only [resolveParam] at h
  split at h
  next hissuer => exact .entered (.issuer hissuer) h
  next htakes =>
    rw [Bool.not_eq_true] at htakes
    split at h
    next hinput =>
      split at h
      next hpermits => exact hstarted (.given htakes hinput hpermits) h
      next hdenied => exact h ▸ .denied htakes hinput (Bool.eq_false_iff.mpr hdenied)
    next hinput =>
      rw [Bool.not_eq_true] at hinput
      split at h
      next text hdefault => exact hstarted (.default htakes hinput hdefault) h
      next hdefault =>
        split at h
        next hoptional =>
          split at h
          next hruns =>
            obtain ⟨habsent, hpermits⟩ := Bool.and_eq_true_iff.mp hruns
            exact .entered (.bare htakes hinput hdefault hoptional habsent hpermits) h
          next hskips => exact h ▸ .absent htakes hinput hdefault hoptional hskips
        next hoptional =>
          have hrequires : p.requiresInput = true := by
            simp [Param.requiresInput, hdefault, hoptional]
          exact h ▸ .missing htakes hinput hrequires

/-- What comes of the way is what comes of the parameter. -/
theorem Way.resolveParam_eq {input : Input} {outcome : Except CommandError (Option (Value × Input))}
    (h : Way env invocation p r isLast input outcome) :
    env.resolveParam invocation p r isLast input = outcome := by
  cases h with
  | entered hentry haccept => rw [hentry.resolveParam_eq, haccept]
  | refused hstart hrefused =>
      rw [hstart.resolveParam_eq, hrefused]
      rfl
  | denied htakes hinput hdenied =>
      simp only [resolveParam, htakes, hinput, hdenied, Bool.false_eq_true, if_false, if_true]
  | absent htakes hinput hdefault hoptional hskips =>
      simp only [resolveParam, htakes, hinput, hdefault, hoptional, hskips, Bool.false_eq_true,
        if_false, if_true]
  | missing htakes hinput hrequires =>
      simp only [Param.requiresInput, Bool.and_eq_true, Bool.not_eq_true',
        Option.isNone_iff_eq_none] at hrequires
      simp [resolveParam, htakes, hinput, hrequires]

/-- A parameter with a value got it from its resolver, or it is optional and
absent. -/
theorem resolveParam_eq_ok {input after : Input}
    (h : env.resolveParam invocation p r isLast input = .ok (some (v, after))) :
    (∃ supply rest, Entry env invocation p r input supply ∧
        r.run (env.slot invocation p isLast) supply = (.ok v, rest) ∧ rest.input = after) ∨
      (v = .absent ∧ p.optional = true ∧ after = input) := by
  cases way_of_resolveParam h with
  | entered hentry haccept =>
      obtain ⟨rest, hrun, hleft⟩ := accept_eq_some haccept
      exact .inl ⟨_, rest, hentry, hrun, hleft⟩
  | absent _ _ _ hoptional => exact .inr ⟨rfl, hoptional, rfl⟩

theorem Start.keeps {I : Input → Prop} {input : Input} {start : Supply}
    (hstart : Start env invocation p r input start) (h : I input) : I start.input := by
  cases hstart with
  | given | default => exact h

theorem Entry.keeps {I : Input → Prop} (hI : Keeps p.name I) {input : Input} {supply : Supply}
    (hentry : Entry env invocation p r input supply) (h : I input) : I supply.input := by
  cases hentry with
  | issuer | bare => exact h
  | chosen hstart hchosen => exact keeps_of_applyChoices hI (hstart.keeps h) hchosen

/-- A parameter only takes pieces of its own from the input. -/
theorem keeps_of_resolveParam {I : Input → Prop} (hI : Keeps p.name I)
    (ht : env.resolvers.IsStandard) (hr : env.resolvers.find? p.type = some r)
    {input after : Input} (h : I input)
    (hresolved : env.resolveParam invocation p r isLast input = .ok (some (v, after))) :
    I after := by
  rcases resolveParam_eq_ok hresolved with ⟨supply, rest, hentry, hrun, rfl⟩ | ⟨-, -, rfl⟩
  · let slot := env.slot invocation p isLast
    have hslot : Keeps slot.param.name I := hI
    have hrest := slot.reading.keeps_run hslot (hentry.keeps hI h)
    rwa [← ht.run_eq slot hr, hrun] at hrest
  · exact h

/-- With input, the permissions decide whether the choices and the resolver get to see it. -/
theorem resolveParam_of_hasInput {input : Input} (htakes : r.isIssuerOnly p = false)
    (hinput : hasInput { input } p.name = true) :
    env.resolveParam invocation p r isLast input =
      if env.permits invocation p then
        applyChoices p { input } >>= fun supply =>
          env.accept invocation p (r.run (env.slot invocation p isLast) supply)
      else .error (.permissionDenied p.name) := by
  simp only [resolveParam, htakes, hinput, Bool.false_eq_true, if_false, if_true]

/-- Without choices, a parameter that is given permitted input shows it to its resolver. -/
theorem resolveParam_eq_accept {input : Input} (hchoices : p.choices = [])
    (hpermits : env.permits invocation p = true) (htakes : r.isIssuerOnly p = false)
    (hinput : hasInput { input } p.name = true) :
    env.resolveParam invocation p r isLast input =
      env.accept invocation p (r.run (env.slot invocation p isLast) { input }) := by
  have hchosen : applyChoices p { input } = .ok { input } := by
    rw [applyChoices, hchoices]
    rfl
  exact (Entry.chosen (.given htakes hinput hpermits) hchosen).resolveParam_eq

/-- Input is missing exactly where there is none and the parameter requires it. -/
theorem resolveParam_eq_none_iff {input : Input} :
    env.resolveParam invocation p r isLast input = .ok none ↔
      r.isIssuerOnly p = false ∧ hasInput { input } p.name = false ∧ p.requiresInput = true := by
  constructor
  · intro h
    cases way_of_resolveParam h with
    | missing htakes hinput hrequires => exact ⟨htakes, hinput, hrequires⟩
    | entered _ haccept => exact absurd haccept (accept_ne_none _)
  · rintro ⟨htakes, hinput, hrequires⟩
    exact (Way.missing htakes hinput hrequires).resolveParam_eq

/-- A resolver is entered where it does not read, where there is input, and where
the parameter is optional. -/
theorem Entry.ready {input : Input} {supply : Supply} (h : Entry env invocation p r input supply) :
    r.isIssuerOnly p = true ∨ supply.hasInput p.name = true ∨ p.optional = true := by
  cases h with
  | issuer hissuer => exact .inl hissuer
  | chosen hstart hchosen => exact .inr (.inl (hasInput_of_applyChoices hstart.hasInput hchosen))
  | bare _ _ _ hoptional => exact .inr (.inr hoptional)

/-- Resolved parameters: the value of the first, and those of the others from the
input that is left. -/
theorem resolveParams_cons_eq_ok {rest : List (Param × Resolver)} {input : Input}
    {args : Arguments}
    (h : env.resolveParams invocation ((p, r) :: rest) input = .ok (some args)) :
    ∃ v after others,
      env.resolveParam invocation p r
        (!r.isIssuerOnly p && rest.all fun (q, r) => r.isIssuerOnly q) input =
          .ok (some (v, after)) ∧
      env.resolveParams invocation rest after = .ok (some others) ∧
      args = (p.name, v) :: others := by
  simp only [resolveParams] at h
  split at h
  next => cases h
  next => cases h
  next v after hparam =>
    obtain ⟨found, hrest, hargs⟩ := map_eq_ok.mp h
    obtain ⟨others, rfl, rfl⟩ := Option.map_eq_some_iff.mp hargs
    exact ⟨v, after, others, hparam, hrest, rfl⟩

theorem resolve_of_mapM {command : CommandInfo} {params : List (Param × Resolver)}
    (h : command.params.mapM env.withResolver = .ok params) (input : Input) :
    env.resolve invocation command input =
      (env.resolveParams invocation params input).map
        fun found => found.elim .showUsage .resolved := by
  rw [resolve, h]
  change env.resolveParams invocation params input >>= _ = _
  cases env.resolveParams invocation params input with
  | error e => rfl
  | ok found => cases found <;> rfl

theorem resolve_eq_error {command : CommandInfo} {params : List (Param × Resolver)}
    (h : command.params.mapM env.withResolver = .ok params) {input : Input} {e : CommandError} :
    env.resolve invocation command input = .error e ↔
      env.resolveParams invocation params input = .error e := by
  rw [resolve_of_mapM h]
  cases env.resolveParams invocation params input with
  | error e' => simp [Except.map]
  | ok found => simp [Except.map]

/-- The resolvers of a successful resolution and what it made of the input. -/
theorem resolve_eq_ok {command : CommandInfo} {input : Input} {args : Arguments}
    (h : env.resolve invocation command input = .ok (.resolved args)) :
    ∃ params, command.params.mapM env.withResolver = .ok params ∧
      env.resolveParams invocation params input = .ok (some args) := by
  obtain ⟨params, hparams, -⟩ := bind_eq_ok.mp h
  rw [resolve_of_mapM hparams, map_eq_ok] at h
  obtain ⟨found, hfound, h⟩ := h
  refine ⟨params, hparams, ?_⟩
  cases found with
  | none => cases h
  | some others =>
      cases h
      exact hfound

theorem resolve_eq_showUsage {command : CommandInfo} {input : Input}
    (h : env.resolve invocation command input = .ok .showUsage) :
    ∃ params, command.params.mapM env.withResolver = .ok params ∧
      env.resolveParams invocation params input = .ok none := by
  obtain ⟨params, hparams, -⟩ := bind_eq_ok.mp h
  rw [resolve_of_mapM hparams, map_eq_ok] at h
  obtain ⟨found, hfound, h⟩ := h
  refine ⟨params, hparams, ?_⟩
  cases found with
  | none => exact hfound
  | some args => cases h

theorem withResolver_eq_ok {found : Param × Resolver} (h : env.withResolver p = .ok found) :
    found.1 = p ∧ env.resolvers.find? p.type = some found.2 := by
  unfold withResolver at h
  split at h
  next r hr =>
    cases h
    exact ⟨rfl, hr⟩
  next => cases h

theorem isIssuerOnly_eq {t : ResolverTable} (hr : t.find? p.type = some r) :
    t.isIssuerOnly p = r.isIssuerOnly p := by
  simp only [ResolverTable.isIssuerOnly, hr]

theorem map_fst_of_mapM {declared : List Param} {params : List (Param × Resolver)}
    (hparams : declared.mapM env.withResolver = .ok params) : params.map (·.1) = declared := by
  have hall := mapM_forall₂ hparams
  clear hparams
  induction hall with
  | nil => rfl
  | cons hfound _ ih => rw [List.map_cons, ih, (withResolver_eq_ok hfound).1]

/-- The environment of a world, with the standard conditions and resolvers, the
given enumerations, and every permission. -/
def ofWorld (world : World) (enums : List (String × List String)) : Environment :=
  ⟨.withEnums enums, .standard, world.directory, .all⟩

/-- An invocation by a user outside of all guilds. -/
def aside : Invocation :=
  ⟨⟨1, "ada", false⟩, none, none, ⟨2, none, "aside", .direct⟩⟩

/-- The environment with one enumeration and no entities. -/
def painting : Environment :=
  ofWorld .empty [("Color", ["Red", "Green"])]

/-- A command with a parameter of the issuer, a number, a member of an enumeration
whose name is written in another case, and an optional list. -/
def paint : CommandDraft where
  path := "paint"
  description := "Paints something"
  handler := some Handler.idle
  params :=
    [{ name := "who", type := .user }, { name := "count", type := .integer .w8 },
      { name := "color", type := .named "color" },
      { name := "notes", type := .strings, optional := true }]

end ChatCommands.Environment
