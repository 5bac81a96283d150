import ChatCommands.Proofs.Resolve.Conditions
import ChatCommands.Proofs.Resolve.Refusals
import ChatCommands.Proofs.Schema.Layout

/-!
# Errors for which the library is to blame

A command of a root that was laid out has resolvers for its types and registered
conditions.  What is left that can go wrong inside of the library is one type: that
of all enumerations has a resolver, and so it is accepted, but the resolver cannot
tell which enumeration is meant.
-/

namespace ChatCommands.Environment

open Supply Resolve

variable {env : Environment} {invocation : Invocation} {p : Param} {r : Resolver}
  {isLast : Bool} {e : CommandError}

/-- The resolver of a parameter gets to see something: input that is permitted and,
if there are choices, among them, or else a default among the choices. -/
def Asks (env : Environment) (invocation : Invocation) (p : Param) (input : Input) : Prop :=
  if hasInput { input } p.name then
    env.permits invocation p = true ∧ ∃ s, applyChoices p { input } = .ok s
  else ∃ text s, p.default = some text ∧ applyChoices p (giveText { input } text) = .ok s

/-- A resolution reaches a parameter of the type of all enumerations and asks its
resolver. -/
def AsksAnyEnum (env : Environment) (invocation : Invocation) (c : CommandInfo) (input : Input) :
    Prop :=
  ∃ params p r rest left, c.params.mapM env.withResolver = .ok params ∧
    env.Reaches invocation params input ((p, r) :: rest) left ∧ p.type = .anyEnum ∧
      env.Asks invocation p left

/-! ## Errors of the steps -/

theorem not_isInternal_applyChoices {s : Supply} (h : applyChoices p s = .error e) :
    ¬ e.IsInternal := by
  rintro ⟨fault, hfault⟩
  obtain ⟨text, labels, hcause⟩ := cause_of_applyChoices h
  rw [hcause] at hfault
  cases hfault

theorem not_isInternal_checkConditions {s : Supply} {v : Value} {uses : List ConditionUse}
    (hregistered : ∀ use ∈ uses, (env.conditions.find? use.name).isSome = true)
    (h : env.checkConditions invocation p s v uses = .error e) : ¬ e.IsInternal := by
  obtain ⟨before, use, after, rfl, -, hlast⟩ := checkConditions_eq_error h
  rcases hlast with ⟨hnone, -⟩ | ⟨message, -, rfl⟩
  · have hsome := hregistered use (List.mem_append_right _ List.mem_cons_self)
    rw [hnone] at hsome
    cases hsome
  · exact s.not_isInternal_refuse _ _

/-- A parameter whose resolver blames no more than the argument. -/
theorem not_isInternal_resolveParam {input : Input}
    (hregistered : ∀ use ∈ p.conditions, (env.conditions.find? use.name).isSome = true)
    (hrun : ∀ s e, (r.run (env.slot invocation p isLast) s).1 = .error e → ¬ e.IsInternal)
    (h : env.resolveParam invocation p r isLast input = .error e) : ¬ e.IsInternal := by
  rcases resolveParam_eq_error h with
    ⟨supply, _, -, hresult⟩ | ⟨_, _, _, -, -, -, hchecked⟩ | ⟨_, hrefused⟩ | rfl
  · exact hrun supply e (congrArg Prod.fst hresult)
  · exact not_isInternal_checkConditions hregistered hchecked
  · exact not_isInternal_applyChoices hrefused
  · rintro ⟨fault, hfault⟩
    cases hfault

/-! ## The type of all enumerations -/

/-- Whatever it is asked about, the resolver of all enumerations has no enumeration to
look in. -/
theorem run_enumeration_anyEnum (htype : p.type = .anyEnum) (s : Supply) :
    (enumeration (env.slot invocation p isLast) s).1 =
      .error (.internal (.notAnEnumeration p.name)) := by
  simp only [enumeration, slot, htype]
  rfl

theorem asks_iff {input : Input} (htakes : r.isIssuerOnly p = false) :
    env.Asks invocation p input ↔
      ∃ start s, Start env invocation p r input start ∧ applyChoices p start = .ok s := by
  unfold Asks
  split
  next hinput =>
    constructor
    · rintro ⟨hpermits, s, hs⟩
      exact ⟨_, s, .given htakes hinput hpermits, hs⟩
    · rintro ⟨_, s, hstart, hs⟩
      cases hstart with
      | given _ _ hpermits => exact ⟨hpermits, s, hs⟩
      | default _ hnone => exact absurd hinput (Bool.eq_false_iff.mp hnone)
  next hnone =>
    constructor
    · rintro ⟨text, s, hdefault, hs⟩
      exact ⟨_, s, .default htakes (Bool.eq_false_iff.mpr hnone) hdefault, hs⟩
    · rintro ⟨_, s, hstart, hs⟩
      cases hstart with
      | given _ hinput => exact absurd hinput hnone
      | default _ _ hdefault => exact ⟨_, s, hdefault, hs⟩

theorem resolveParam_anyEnum {input : Input} (htype : p.type = .anyEnum) :
    (∃ e, env.resolveParam invocation p (fromInput enumeration) isLast input = .error e ∧
      e.IsInternal) ↔ env.Asks invocation p input := by
  have htakes : (fromInput enumeration).isIssuerOnly p = false := rfl
  rw [asks_iff htakes]
  constructor
  · rintro ⟨e, he, hinternal⟩
    cases way_of_resolveParam he with
    | entered hentry =>
        cases hentry with
        | issuer hissuer => cases hissuer
        | chosen hstart hchosen => exact ⟨_, _, hstart, hchosen⟩
        | bare _ _ _ _ habsent => cases habsent
    | refused _ hrefused => exact absurd hinternal (not_isInternal_applyChoices hrefused)
    | denied =>
        obtain ⟨fault, hfault⟩ := hinternal
        cases hfault
  · rintro ⟨start, chosen, hstart, hchosen⟩
    refine ⟨.internal (.notAnEnumeration p.name), ?_, .notAnEnumeration p.name, rfl⟩
    rw [(Entry.chosen hstart hchosen).resolveParam_eq]
    exact accept_of_error (run_enumeration_anyEnum htype chosen)

/-- A parameter of any other type blames no more than its argument. -/
theorem not_isInternal_of_type_ne (ht : env.resolvers.IsStandard)
    (hr : env.resolvers.find? p.type = some r)
    (hregistered : ∀ use ∈ p.conditions, (env.conditions.find? use.name).isSome = true)
    (htype : p.type ≠ .anyEnum) {input : Input}
    (h : env.resolveParam invocation p r isLast input = .error e) : ¬ e.IsInternal := by
  refine not_isInternal_resolveParam hregistered ?_ h
  intro s e hrun
  rw [ht.run_eq (env.slot invocation p isLast) hr] at hrun
  refine Reading.IsPlain.not_isInternal (Slot.isPlain_reading htype ?_) hrun
  intro name hname
  rcases ht.eq_of_find? hr with hstandard | ⟨declared, hdeclared, hsome, -⟩
  · rw [show p.type = .named name from hname] at hstandard
    cases hstandard
  · rw [show p.type = .named name from hname, ParamType.named.injEq] at hdeclared
    exact hdeclared ▸ hsome

theorem eq_enumeration_of_type (ht : env.resolvers.IsStandard)
    (hr : env.resolvers.find? p.type = some r) (htype : p.type = .anyEnum) :
    r = fromInput enumeration := by
  rcases ht.eq_of_find? hr with hstandard | ⟨name, hname, -⟩
  · rw [htype] at hstandard
    exact (Option.some.inj hstandard).symm
  · rw [htype] at hname
    cases hname

/-! ## Commands of a root -/

/-- Of a root that the standard resolvers and any enumerations accept, a command fails
inside of the library exactly when its resolution asks the resolver of all
enumerations. -/
theorem resolve_isInternal_iff {enums : List (String × List String)}
    (hresolvers : env.resolvers = .withEnums enums) {root : String} {commands : List CommandInfo}
    {groups : List Group} {t : Schema.Tree}
    (hlayout : (⟨env.resolvers, env.conditions⟩ : Schema.Vocabulary).layout root commands groups =
      .ok t)
    {c : CommandInfo} (hc : c ∈ commands) (hroot : c.root = root) (input : Input) :
    (∃ e, env.resolve invocation c input = .error e ∧ e.IsInternal) ↔
      env.AsksAnyEnum invocation c input := by
  have ht : env.resolvers.IsStandard := hresolvers ▸ ResolverTable.isStandard_withEnums enums
  have hchecked : ∀ p ∈ c.params, ∃ r,
      (⟨env.resolvers, env.conditions⟩ : Schema.Vocabulary).checkParam p = .ok r :=
    Schema.Vocabulary.exists_checkParam_of_mem <|
      Schema.Vocabulary.checkParams_of_checkCommand <|
        Schema.Vocabulary.checkCommand_of_layout hlayout hc hroot
  obtain ⟨params, hparams⟩ : ∃ params, c.params.mapM env.withResolver = .ok params := by
    refine exists_mapM_eq_ok ?_
    intro p hp
    obtain ⟨r, hr⟩ := hchecked p hp
    refine ⟨(p, r), ?_⟩
    have hfind : env.resolvers.find? p.type = some r := Schema.Vocabulary.checkParam_eq_ok hr
    rw [withResolver, hfind]
  -- What the layout has checked of each parameter leaves one type to blame.
  have hplain : ∀ p r, (p, r) ∈ params → p.type ≠ .anyEnum → ∀ isLast left e,
      env.resolveParam invocation p r isLast left = .error e → ¬ e.IsInternal := by
    intro p r hmem htype isLast left e
    obtain ⟨q, hq, hfound⟩ := exists_of_mem_mapM hparams hmem
    obtain ⟨rfl, hr⟩ := withResolver_eq_ok hfound
    obtain ⟨s, hs⟩ := hchecked p hq
    exact not_isInternal_of_type_ne ht hr (Schema.Vocabulary.isSome_of_checkParam hs) htype
  have hanyEnum : ∀ p r, (p, r) ∈ params → p.type = .anyEnum → r = fromInput enumeration := by
    intro p r hmem htype
    obtain ⟨q, -, hfound⟩ := exists_of_mem_mapM hparams hmem
    obtain ⟨rfl, hr⟩ := withResolver_eq_ok hfound
    exact eq_enumeration_of_type ht hr htype
  simp only [resolve_eq_error hparams]
  constructor
  · rintro ⟨e, herror, hinternal⟩
    obtain ⟨p, r, rest, left, hreaches, hparam⟩ := resolveParams_eq_error.mp herror
    have hmem : (p, r) ∈ params := hreaches.mem _ List.mem_cons_self
    have htype : p.type = .anyEnum := by
      by_contra hother
      exact hplain p r hmem hother _ left e hparam hinternal
    obtain rfl := hanyEnum p r hmem htype
    exact ⟨params, p, _, rest, left, hparams, hreaches, htype,
      (resolveParam_anyEnum htype).mp ⟨e, hparam, hinternal⟩⟩
  · rintro ⟨params', p, r, rest, left, hparams', hreaches, htype, hasks⟩
    rw [hparams, Except.ok.injEq] at hparams'
    subst hparams'
    obtain rfl := hanyEnum p r (hreaches.mem _ List.mem_cons_self) htype
    obtain ⟨e, hparam, hinternal⟩ : ∃ e,
        env.resolveParam invocation p (fromInput enumeration)
          (isLastOf p (fromInput enumeration) rest) left = .error e ∧ e.IsInternal :=
      (resolveParam_anyEnum htype).mpr hasks
    exact ⟨e, resolveParams_eq_error.mpr ⟨p, _, rest, left, hreaches, hparam⟩, hinternal⟩

/-- A command that asks for a member of a declared enumeration and then for one of
any enumeration. -/
def pick : CommandInfo :=
  let param (name : String) (type : ParamType) : Param :=
    ⟨name, type, false, none, Dict.empty, Dict.empty, [], [], none, none, none, none, none⟩
  ⟨"pick", [], [param "color" (.named "color"), param "what" .anyEnum], "Picks", "", Dict.empty⟩

theorem exists_layout_pick :
    ∃ t, (⟨painting.resolvers, painting.conditions⟩ : Schema.Vocabulary).layout "pick" [pick] [] =
      .ok t := by
  cases h : (⟨painting.resolvers, painting.conditions⟩ : Schema.Vocabulary).layout "pick" [pick] []
    with
  | ok t => exact ⟨t, rfl⟩
  | error e =>
      have hok : ((⟨painting.resolvers, painting.conditions⟩ : Schema.Vocabulary).layout "pick"
        [pick] []).isOk = true := by decide +kernel
      rw [h] at hok
      cases hok

/-- A call that gets to the second parameter. -/
theorem asksAnyEnum_pick :
    let input : Input := .text "red red" [⟨"red", ⟨0, 3⟩⟩, ⟨"red", ⟨4, 7⟩⟩]
    painting.resolvers = .withEnums [("Color", ["Red", "Green"])] ∧
      (∃ t, (⟨painting.resolvers, painting.conditions⟩ : Schema.Vocabulary).layout "pick" [pick]
        [] = .ok t) ∧
      painting.AsksAnyEnum aside pick input := by
  intro input
  obtain ⟨t, ht⟩ := exists_layout_pick
  have hiff : (∃ e, painting.resolve aside pick input = .error e ∧ e.IsInternal) ↔
      painting.AsksAnyEnum aside pick input :=
    resolve_isInternal_iff rfl ht (List.mem_singleton_self pick) rfl input
  exact ⟨rfl, ⟨t, ht⟩, hiff.mp ⟨_, rfl, .notAnEnumeration "what", rfl⟩⟩

/-- The root is accepted, and yet its command fails inside of the library. -/
theorem resolve_isInternal_pick :
    (∃ t, (⟨painting.resolvers, painting.conditions⟩ : Schema.Vocabulary).layout "pick" [pick] [] =
      .ok t) ∧
      ∃ e, painting.resolve aside pick (.text "red red" [⟨"red", ⟨0, 3⟩⟩, ⟨"red", ⟨4, 7⟩⟩]) =
        .error e ∧ e.IsInternal :=
  ⟨exists_layout_pick, .internal (.notAnEnumeration "what"), rfl, .notAnEnumeration "what", rfl⟩

end ChatCommands.Environment
