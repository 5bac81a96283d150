import ChatCommands.Proofs.Command.Declared
import ChatCommands.Proofs.Resolve.Judgement
import ChatCommands.Proofs.Resolve.Parameter
import ChatCommands.Proofs.Resolve.Reading

/-!
# Types of resolved values

With the standard resolvers, a successful resolution has a value of the declared
type for every parameter, and leaves only optional parameters absent.  Values
are typed by their form.  The proof goes from the judgements to the readings,
from there to the four ways in which one parameter may be settled, and then along
the parameters.
-/

namespace ChatCommands

/-- The values that a declared type promises.  A mentionable is a user or a role,
and the members of an enumeration are those with which it was declared. -/
inductive HasType (enums : Enumerations) : ParamType → Value → Prop where
  | bool (b : Bool) : HasType enums .bool (.bool b)
  | integer (width : Width) (n : SizedInt width) :
      HasType enums (.integer width) (.integer width n)
  | float32 (x : Single) : HasType enums .float32 (.float32 x)
  | float64 (x : Double) : HasType enums .float64 (.float64 x)
  | number (x : Double) : HasType enums .number (.float64 x)
  | decimal (d : Decimal) : HasType enums .decimal (.decimal d)
  | string (s : String) : HasType enums .string (.string s)
  | strings (items : List String) : HasType enums .strings (.strings items)
  | user (u : User) : HasType enums .user (.user u)
  | member (m : Member) : HasType enums .member (.member m)
  | channel (c : Channel) : HasType enums .channel (.channel c)
  | role (r : Role) : HasType enums .role (.role r)
  | mentionableUser (u : User) : HasType enums .mentionable (.user u)
  | mentionableRole (r : Role) : HasType enums .mentionable (.role r)
  | emoji (e : Emoji) : HasType enums .emoji (.emoji e)
  | guild (g : Guild) : HasType enums .guild (.guild g)
  | named {name : String} {declared : Enumeration} {member : String}
      (hdeclared : enums.find? name = some declared) (hmember : member ∈ declared.members) :
      HasType enums (.named name) (.enumMember declared.name member)

/-- A value that fits a parameter: it has the declared type, or it is absent and
the parameter is optional. -/
structure Param.Fits (p : Param) (enums : Enumerations) (v : Value) : Prop where
  optional_of_absent : v = .absent → p.optional = true
  hasType : v ≠ .absent → HasType enums p.type v

variable {enums : Enumerations} {p : Param} {v : Value}

theorem HasType.ne_absent {type : ParamType} (h : HasType enums type v) : v ≠ .absent := by
  intro habsent
  cases h <;> cases habsent

theorem HasType.fits (h : HasType enums p.type v) : p.Fits enums v :=
  ⟨fun habsent => absurd habsent h.ne_absent, fun _ => h⟩

theorem Param.fits_absent (h : p.optional = true) : p.Fits enums .absent :=
  ⟨fun _ => h, fun hne => absurd rfl hne⟩

theorem Resolve.OfEntity.fits {α : Type} {value : α → Value} (h : Resolve.OfEntity p value v)
    (htype : ∀ e, HasType enums p.type (value e)) : p.Fits enums v := by
  rcases h with ⟨e, rfl⟩ | ⟨hoptional, rfl⟩
  · exact (htype e).fits
  · exact p.fits_absent hoptional

/-! ## Readings -/

/-- A reading gives fitting values: without input nothing or a value of the type,
and from input only what fits. -/
def Reading.IsSound (p : Param) (enums : Enumerations) : Reading → Prop
  | unread result => ∀ v, result = .ok v → p.Fits enums v
  | one missing judge =>
      (missing = .absent ∨ HasType enums p.type missing) ∧
        ∀ piece v, judge piece = .ok v → p.Fits enums v
  | all judge => ∀ pieces v, judge pieces = .ok v → (v = .absent ∧ pieces = []) ∨ p.Fits enums v

namespace Slot

open Resolve

variable {slot : Slot}

theorem fits_of_lacking {entity : String} (h : slot.lacking entity = .ok v) :
    slot.param.Fits enums v := by
  unfold lacking at h
  split at h
  next hoptional => exact Except.ok.inj h ▸ slot.param.fits_absent hoptional
  next => cases h

theorem absentOr_cases (p : Param) (self : Option Value) :
    absentOr p self = .absent ∨ ∃ v, self = some v ∧ absentOr p self = v := by
  unfold absentOr
  split
  · cases self with
    | none => exact .inl rfl
    | some v => exact .inr ⟨v, rfl, rfl⟩
  · exact .inl rfl

theorem isSound_ownReading {own : Except Refusal Value} {self : Option Value}
    {judge : String → Except Refusal Value}
    (hown : ∀ v, own = .ok v → slot.param.Fits enums v)
    (hself : ∀ v, self = some v → HasType enums slot.param.type v)
    (hjudge : ∀ text v, judge text = .ok v → slot.param.Fits enums v) :
    (slot.ownReading own self judge).IsSound slot.param enums := by
  unfold ownReading
  split
  · refine ⟨?_, fun piece v => hjudge (Text.trim piece.text) v⟩
    rcases absentOr_cases slot.param self with h | ⟨v, hv, h⟩
    · exact .inl h
    · exact .inr (h ▸ hself v hv)
  · exact hown

theorem isSound_stringReading (h : slot.param.type = .string) :
    slot.stringReading.IsSound slot.param enums := by
  have hlength : ∀ text v, judgeLength slot.param text = .ok v → slot.param.Fits enums v := by
    intro text v hv
    have htype : HasType enums slot.param.type (.string text) := h ▸ .string text
    exact judgeLength_eq_ok hv ▸ htype.fits
  unfold stringReading
  split
  · exact ⟨.inl rfl, fun piece v hv => hlength piece.text v hv⟩
  · split
    · intro pieces v hv
      rcases judgeLine_eq_ok hv with habsent | ⟨s, rfl⟩
      · exact .inl habsent
      · have htype : HasType enums slot.param.type (.string s) := h ▸ .string s
        exact .inr htype.fits
    · exact ⟨.inl rfl, fun piece v hv => hlength (Text.trim piece.text) v hv⟩

theorem isSound_memberReading {name : String} (h : slot.param.type = .named name) :
    (slot.memberReading name).IsSound slot.param slot.enums := by
  unfold memberReading
  split
  next declared hdeclared =>
    refine ⟨.inl rfl, fun piece v hv => ?_⟩
    obtain ⟨m, hm, rfl⟩ := judgeMember_eq_ok hv
    have htype : HasType slot.enums slot.param.type (.enumMember declared.name m) :=
      h ▸ .named hdeclared hm
    exact htype.fits
  next =>
    intro v hv
    cases hv

theorem isSound_floatReading
    (h : slot.param.type = .float32 ∨ slot.param.type = .float64 ∨ slot.param.type = .number) :
    (Reading.one .absent (judgeFloat slot.param)).IsSound slot.param enums := by
  refine ⟨.inl rfl, fun piece v hv => HasType.fits ?_⟩
  obtain ⟨x, rfl⟩ := judgeFloat_eq_ok hv
  rcases h with h | h | h
  · simpa only [h] using HasType.float32 (x.convert .single)
  · simpa only [h] using HasType.float64 x
  · simpa only [h] using HasType.number x

/-- The reading of every type gives fitting values. -/
theorem isSound_reading (slot : Slot) : slot.reading.IsSound slot.param slot.enums := by
  cases htype : slot.param.type with simp only [reading, htype]
  | bool =>
      refine ⟨.inl rfl, fun piece v hv => HasType.fits ?_⟩
      obtain ⟨b, rfl⟩ := judgeBool_eq_ok hv
      exact htype ▸ .bool b
  | integer width =>
      refine ⟨.inl rfl, fun piece v hv => HasType.fits ?_⟩
      obtain ⟨n, m, -, -, -, -, rfl⟩ := judgeInteger_eq_ok hv
      have hwidth : slot.param.type = .integer (widthOf slot.param.type) := by rw [htype]; rfl
      have hvalue : HasType slot.enums (.integer (widthOf slot.param.type))
          (.integer (widthOf slot.param.type) m) := .integer _ m
      rwa [← hwidth] at hvalue
  | float32 => exact isSound_floatReading (.inl htype)
  | float64 => exact isSound_floatReading (.inr (.inl htype))
  | number => exact isSound_floatReading (.inr (.inr htype))
  | decimal =>
      refine ⟨.inl rfl, fun piece v hv => HasType.fits ?_⟩
      obtain ⟨d, rfl⟩ := judgeDecimal_eq_ok hv
      exact htype ▸ .decimal d
  | string => exact isSound_stringReading htype
  | strings =>
      refine fun pieces v hv => .inr (HasType.fits ?_)
      rw [← Except.ok.inj hv, htype]
      exact .strings _
  | user =>
      refine isSound_ownReading ?_ ?_ ?_
      · intro v hv
        rw [← Except.ok.inj hv]
        exact HasType.fits (htype ▸ .user _)
      · intro v hv
        rw [← Option.some.inj hv, htype]
        exact .user _
      · exact fun text v hv => (ofEntity_judgeUser hv).fits fun u => htype ▸ .user u
  | member =>
      refine isSound_ownReading ?_ ?_ ?_
      · intro v hv
        split at hv
        next m hm =>
          rw [← Except.ok.inj hv]
          exact HasType.fits (htype ▸ .member m)
        next => exact fits_of_lacking hv
      · intro v hv
        obtain ⟨m, -, rfl⟩ := Option.map_eq_some_iff.mp hv
        exact htype ▸ .member m
      · exact fun text v hv => (ofEntity_judgeMemberOf hv).fits fun m => htype ▸ .member m
  | channel =>
      refine isSound_ownReading ?_ ?_ ?_
      · intro v hv
        rw [← Except.ok.inj hv]
        exact HasType.fits (htype ▸ .channel _)
      · intro v hv
        rw [← Option.some.inj hv, htype]
        exact .channel _
      · exact fun text v hv => (ofEntity_scoped hv).fits fun c => htype ▸ .channel c
  | role =>
      exact ⟨.inl rfl, fun piece v hv => (ofEntity_scoped hv).fits fun r => htype ▸ .role r⟩
  | mentionable =>
      refine ⟨.inl rfl, fun piece v hv => (ofEntity_scoped hv).fits fun m => ?_⟩
      rw [htype]
      cases m with
      | user u => exact .mentionableUser u
      | role r => exact .mentionableRole r
  | emoji =>
      exact ⟨.inl rfl, fun piece v hv => (ofEntity_scoped hv).fits fun e => htype ▸ .emoji e⟩
  | guild =>
      intro v hv
      split at hv
      next g hg =>
        rw [← Except.ok.inj hv]
        exact HasType.fits (htype ▸ .guild g)
      next => exact fits_of_lacking hv
  | anyEnum =>
      intro v hv
      cases hv
  | named name => exact isSound_memberReading htype

end Slot

/-! ## One parameter -/

namespace Environment

open Supply

variable {env : Environment} {invocation : Invocation} {r : Resolver} {isLast : Bool}

/-- A resolver gives a fitting value where it does not read, where there is input,
and where the parameter is optional. -/
theorem fits_of_run (ht : env.resolvers.IsStandard) (hr : env.resolvers.find? p.type = some r)
    {supply rest : Supply}
    (hready : r.isIssuerOnly p = true ∨ supply.hasInput p.name = true ∨ p.optional = true)
    (h : r.run (env.slot invocation p isLast) supply = (.ok v, rest)) :
    p.Fits env.resolvers.enums v := by
  let slot := env.slot invocation p isLast
  have hsound : slot.reading.IsSound p env.resolvers.enums := slot.isSound_reading
  have hreads : (∀ result, slot.reading ≠ .unread result) →
      supply.hasInput p.name = true ∨ p.optional = true := by
    intro hreading
    have htakes := ht.isIssuerOnly_of_reading slot hr hreading
    exact hready.resolve_left (Bool.eq_false_iff.mp htakes)
  rw [ht.run_eq slot hr] at h
  cases hreading : slot.reading with rw [hreading] at h hsound hreads
  | unread result => exact hsound v (mapError_eq_ok.mp (congrArg Prod.fst h))
  | one missing judge =>
      obtain ⟨hmissing, hjudge⟩ := hsound
      simp only [Reading.run, Slot.withPiece] at h
      split at h
      next after hpop =>
        -- Nothing was taken, so that the parameter is optional.
        have hnone : supply.hasInput p.name = false := by
          rw [← pop_fst_isSome, show supply.pop p.name = (none, after) from hpop]
          rfl
        have hoptional : p.optional = true :=
          (hreads (by simp)).resolve_left (Bool.eq_false_iff.mp hnone)
        have hv : missing = v := Except.ok.inj (congrArg Prod.fst h)
        rcases hmissing with habsent | htype
        · rw [← hv, habsent]
          exact p.fits_absent hoptional
        · exact hv ▸ htype.fits
      next piece after hpop =>
        exact hjudge piece v (mapError_eq_ok.mp (congrArg Prod.fst h))
  | all judge =>
      simp only [Reading.run, Slot.withRest] at h
      rcases hsound _ v (mapError_eq_ok.mp (congrArg Prod.fst h)) with ⟨rfl, hnil⟩ | hfits
      · refine p.fits_absent ?_
        rcases hreads (by simp) with hinput | hoptional
        · exact absurd hnil (popRest_ne_nil hinput)
        · exact hoptional
      · exact hfits

theorem fits_of_resolveParam (ht : env.resolvers.IsStandard)
    (hr : env.resolvers.find? p.type = some r) {input after : Input}
    (h : env.resolveParam invocation p r isLast input = .ok (some (v, after))) :
    p.Fits env.resolvers.enums v := by
  rcases resolveParam_eq_ok h with ⟨supply, rest, hentry, hrun, -⟩ | ⟨rfl, hoptional, -⟩
  · exact fits_of_run ht hr hentry.ready hrun
  · exact p.fits_absent hoptional

/-! ## All parameters -/

theorem fits_of_resolveParams (ht : env.resolvers.IsStandard) {declared : List Param}
    {params : List (Param × Resolver)}
    (hparams : List.Forall₂ (fun p found => env.withResolver p = .ok found) declared params)
    {input : Input} {args : Arguments}
    (h : env.resolveParams invocation params input = .ok (some args)) :
    List.Forall₂ (fun p arg => arg.1 = p.name ∧ p.Fits env.resolvers.enums arg.2)
      declared args := by
  induction hparams generalizing input args with
  | nil =>
      cases h
      exact .nil
  | cons hfound _ ih =>
      obtain ⟨rfl, hr⟩ := withResolver_eq_ok hfound
      obtain ⟨v, after, others, hparam, hrest, rfl⟩ := resolveParams_cons_eq_ok h
      exact .cons ⟨rfl, fits_of_resolveParam ht hr hparam⟩ (ih hrest)

theorem names_of_resolveParams {declared : List Param} {args : Arguments} {P : Param → Value → Prop}
    (h : List.Forall₂ (fun p arg => arg.1 = p.name ∧ P p arg.2) declared args) :
    args.names = declared.map (·.name) := by
  induction h with
  | nil => rfl
  | cons hfirst _ ih =>
      rw [List.map_cons, ← hfirst.1, ← ih]
      rfl

/-- The arguments of a call are those that its command declares, in order and
under different names, and every value fits its parameter. -/
theorem resolve_fits {enums : List (String × List String)}
    (hresolvers : env.resolvers = .withEnums enums) {c : Command} (hdeclared : c.IsDeclared)
    {input : Input} {args : Arguments}
    (h : env.resolve invocation c.toCommandInfo input = .ok (.resolved args)) :
    args.names.Nodup ∧
      List.Forall₂ (fun p arg => arg.1 = p.name ∧ p.Fits env.resolvers.enums arg.2)
        c.params args := by
  have ht : env.resolvers.IsStandard := hresolvers ▸ ResolverTable.isStandard_withEnums enums
  obtain ⟨params, hparams, hresolved⟩ := resolve_eq_ok h
  have hfits := fits_of_resolveParams ht (mapM_forall₂ hparams) hresolved
  refine ⟨?_, hfits⟩
  rw [names_of_resolveParams hfits, List.Nodup, List.pairwise_map]
  exact hdeclared.apartByName.distinct

/-- A call in which a value comes from the issuer, two come from words, and one is
absent. -/
theorem resolve_fits_paint :
    let input : Input := .text "12 green" [⟨"12", ⟨0, 2⟩⟩, ⟨"green", ⟨3, 8⟩⟩]
    let args : Arguments :=
      [("who", .user aside.issuer), ("count", .integer .w8 ⟨12, by decide, by decide⟩),
        ("color", .enumMember "Color" "Green"), ("notes", .absent)]
    ∃ c, paint.build = .ok c ∧
      painting.resolve aside c.toCommandInfo input = .ok (.resolved args) ∧
      args.names.Nodup ∧
      List.Forall₂ (fun p arg => arg.1 = p.name ∧ p.Fits painting.resolvers.enums arg.2)
        c.params args := by
  intro input args
  have hrun : (paint.build.map fun c => painting.resolve aside c.toCommandInfo input) =
      .ok (.ok (.resolved args)) := rfl
  obtain ⟨c, hbuild, hresolve⟩ := map_eq_ok.mp hrun
  exact ⟨c, hbuild, hresolve, resolve_fits rfl ⟨paint, hbuild⟩ hresolve⟩

end Environment

end ChatCommands
