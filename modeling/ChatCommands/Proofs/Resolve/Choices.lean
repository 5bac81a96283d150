import ChatCommands.Proofs.Resolve.Options
import ChatCommands.Proofs.Resolve.Reaching
import ChatCommands.Proofs.Resolve.Spelling

/-!
# What declared choices let through

A parameter with choices gets the value of one of them, as if it were the whole
input.  There are two ways around the choices.  A typed value that is no text only has
to name a choice and then stands for itself, and the issuer's own entity stands in for
input that is missing.
-/

namespace ChatCommands

/-- The entity of an invocation that a parameter of a type may stand for. -/
def Invocation.own? (invocation : Invocation) : ParamType → Option Value
  | .user => some (.user invocation.issuer)
  | .member => invocation.member.map .member
  | .channel => some (.channel invocation.channel)
  | _ => none

/-- The number of words that are left. -/
def Input.wordCount : Input → Nat
  | text _ tokens => tokens.length
  | options _ => 0

namespace Environment

open Supply Resolve

variable {env : Environment} {invocation : Invocation} {p : Param} {r : Resolver}
  {isLast : Bool} {v : Value}

/-- The values that a parameter with choices may get from the input that is left when
its turn comes. -/
inductive Chosen (env : Environment) (invocation : Invocation) (p : Param) (r : Resolver)
    (isLast : Bool) (left : Input) (v : Value) : Prop where
  /-- What the value of a choice resolves to. -/
  | listed (choice : Choice) (hmem : choice ∈ p.choices)
      (hvalue : env.aloneText invocation p r isLast choice.value = .ok v)
  /-- What a typed value that names a choice resolves to.  Unless it is a number with
  places for an integer or a decimal, it names the choice by a label or in another
  spelling. -/
  | typed (option : TypedOption) (choice : Choice) (hoffers : left.Offers p.name option)
      (htyped : option.value.isString = false) (hmem : choice ∈ p.choices)
      (hanswers : choice.answersTo (Text.trim option.value.text) = true)
      (hspelled : (option.value.isNumber = true ∧ p.type.isExact = true) ∨
        ∀ other ∈ p.choices, other.value ≠ option.value.text)
      (hvalue : env.alone invocation p r isLast (.typed option.value) = .ok v)
  /-- The issuer's own entity, without input and without a default. -/
  | own (hnone : hasInput { input := left } p.name = false) (hdefault : p.default = none)
      (hoptional : p.optional = true) (hother : p.hasFlag "other" = true)
      (hself : p.hasFlag "defaultself" = true) (hvalue : invocation.own? p.type = some v)

/-! ## Without input -/

theorem run_one_of_no_input {slot : Slot} {s : Supply} {missing : Value}
    {judge : Piece → Except Refusal Value} (h : s.hasInput slot.param.name = false) :
    ((Reading.one missing judge).run slot s).1 = .ok missing := by
  have hpop : (s.pop slot.param.name).1 = none := by
    rw [← Option.isNone_iff_eq_none, ← Option.not_isSome, pop_fst_isSome, h]
    rfl
  rw [Reading.run, Slot.withPiece,
    show s.pop slot.param.name = (none, (s.pop slot.param.name).2) from Prod.ext hpop rfl]

/-- What an optional parameter stands for without input. -/
theorem absentOr_eq {self : Option Value} (h : absentOr p self = v) (hne : v ≠ .absent) :
    p.hasFlag "defaultself" = true ∧ self = some v := by
  unfold absentOr at h
  split at h
  next hself =>
    refine ⟨hself, ?_⟩
    cases self with
    | none => exact absurd h.symm hne
    | some w => exact congrArg some h
  next => exact absurd h.symm hne

theorem own_of_run_ownReading {slot : Slot} {s : Supply} {own : Except Refusal Value}
    {self : Option Value} {judge : String → Except Refusal Value}
    (hinput : s.hasInput slot.param.name = false) (hother : slot.param.hasFlag "other" = true)
    (hrun : ((slot.ownReading own self judge).run slot s).1 = .ok v) (hne : v ≠ .absent) :
    slot.param.hasFlag "defaultself" = true ∧ self = some v := by
  rw [Slot.ownReading, if_pos hother, run_one_of_no_input hinput] at hrun
  exact absentOr_eq (Except.ok.inj hrun) hne

/-- The types whose resolvers run without input, and whether they take input. -/
theorem eq_of_acceptsAbsent (ht : env.resolvers.IsStandard) {type : ParamType}
    (hr : env.resolvers.find? type = some r) (habsent : r.acceptsAbsent = true) :
    (r.origin = .issuerUnlessOther ∧ (type = .user ∨ type = .member ∨ type = .channel)) ∨
      (r.origin = .input ∧ (type = .role ∨ type = .mentionable ∨ type = .emoji)) ∨
        r.origin = .issuer := by
  rcases ht.eq_of_find? hr with hstandard | ⟨name, -, -, rfl⟩
  · cases type <;> cases hstandard <;> simp [fromInput, orAbsent] at habsent ⊢
  · cases habsent

/-- Without input only an entity of the invocation can be a value. -/
theorem own_of_run (ht : env.resolvers.IsStandard) (slot : Slot) (s : Supply)
    (hr : env.resolvers.find? slot.param.type = some r)
    (htakes : r.isIssuerOnly slot.param = false) (hinput : s.hasInput slot.param.name = false)
    (habsent : r.acceptsAbsent = true) (hrun : (r.run slot s).1 = .ok v) (hne : v ≠ .absent) :
    slot.param.hasFlag "other" = true ∧ slot.param.hasFlag "defaultself" = true ∧
      slot.invocation.own? slot.param.type = some v := by
  rw [ht.run_eq slot hr] at hrun
  rcases eq_of_acceptsAbsent ht hr habsent with ⟨horigin, htype⟩ | ⟨-, htype⟩ | horigin
  · have hother : slot.param.hasFlag "other" = true := by
      simpa [Resolver.isIssuerOnly, horigin] using htakes
    rcases htype with htype | htype | htype
    · simp only [Slot.reading, htype] at hrun ⊢
      exact ⟨hother, own_of_run_ownReading hinput hother hrun hne⟩
    · simp only [Slot.reading, htype] at hrun ⊢
      exact ⟨hother, own_of_run_ownReading hinput hother hrun hne⟩
    · simp only [Slot.reading, htype] at hrun ⊢
      exact ⟨hother, own_of_run_ownReading hinput hother hrun hne⟩
  · -- The readings of these types leave the value absent.
    have habsent : (Except.ok Value.absent : Except CommandError Value) = .ok v := by
      rcases htype with htype | htype | htype
      · simpa only [Slot.reading, htype, run_one_of_no_input hinput] using hrun
      · simpa only [Slot.reading, htype, run_one_of_no_input hinput] using hrun
      · simpa only [Slot.reading, htype, run_one_of_no_input hinput] using hrun
    exact absurd (Except.ok.inj habsent).symm hne
  · rw [Resolver.isIssuerOnly, horigin] at htakes
    cases htakes

/-! ## One parameter -/

/-- With choices only a list of texts takes all input. -/
theorem type_of_reading_all {slot : Slot} {judge : List Piece → Except Refusal Value}
    (h : slot.reading = .all judge) (hchoices : slot.param.choices ≠ []) :
    slot.param.type = .strings := by
  have hempty : slot.param.choices.isEmpty = false := by
    rw [Bool.eq_false_iff, ne_eq, List.isEmpty_iff]
    exact hchoices
  have hall := slot.exists_reading_eq_all_iff.mp ⟨judge, h⟩
  rw [Param.takesAll, hempty, Bool.and_false, Bool.or_false] at hall
  exact ParamType.isVariadic_iff.mp hall

theorem text_of_pop {input : Input} {piece : Piece} {rest : Supply} {name source : String}
    {tokens : List Token} (hpop : pop { input } name = (some piece, rest))
    (hrest : rest.input = .text source tokens) :
    ∃ token, input = .text source (token :: tokens) := by
  unfold pop at hpop
  simp only at hpop
  split at hpop
  next token others =>
    cases hpop
    cases hrest
    exact ⟨token, rfl⟩
  next => cases hpop
  next given =>
    split at hpop
    next =>
      cases hpop
      cases hrest
    next => cases hpop

/-- A typed piece is the value of the first option for the parameter. -/
theorem offers_of_pop {input : Input} {value : OptionValue} {rest : Supply} {name : String}
    (hpop : pop { input } name = (some (.typed value), rest)) :
    ∃ option, input.Offers name option ∧ option.value = value := by
  unfold pop at hpop
  simp only at hpop
  split at hpop
  next => cases hpop
  next => cases hpop
  next given =>
    split at hpop
    next value' others htaken =>
      cases hpop
      have hvalue := fst_takeNamed name given
      rw [htaken, Option.map_some, eq_comm] at hvalue
      exact Option.map_eq_some_iff.mp hvalue
    next => cases hpop

/-- What stands in for a text that names a choice is judged as the value of the choice
alone. -/
theorem listed_of_judgeOne (ht : env.resolvers.IsStandard)
    (hr : env.resolvers.find? p.type = some r) {left : Input} {choice : Choice} {span : Span}
    (hmem : choice ∈ p.choices)
    (h : (env.slot invocation p isLast).reading.judgeOne (.word ⟨choice.value, span⟩) = .ok v) :
    Chosen env invocation p r isLast left v := by
  rw [Reading.judgeOne_word _ _ span .zero] at h
  exact .listed choice hmem ((alone_eq_ok_iff ht hr).mpr h)

/-- What stands in for an option that names a choice: the value of the choice if the
option is a text, and else the option itself, which is judged like the value of a choice
if it is spelled like one. -/
theorem chosen_of_typed (ht : env.resolvers.IsStandard)
    (hr : env.resolvers.find? p.type = some r) {left : Input} {option : TypedOption}
    {choice : Choice} {rest : Supply} (hoffers : left.Offers p.name option)
    (hmem : choice ∈ p.choices)
    (hanswers : choice.answersTo (Text.trim option.value.text) = true)
    (h : (env.slot invocation p isLast).reading.judgeOne
      (choice.standIn rest (.typed option.value)) = .ok v) :
    Chosen env invocation p r isLast left v := by
  by_cases hstring : option.value.isString = true
  · cases hvalue : option.value with
    | string text =>
        rw [hvalue] at h
        exact listed_of_judgeOne ht hr hmem h
    | _ =>
        rw [hvalue] at hstring
        cases hstring
  · rw [Bool.not_eq_true] at hstring
    have hstands : choice.standIn rest (.typed option.value) = .typed option.value := by
      cases hvalue : option.value with
      | string text =>
          rw [hvalue] at hstring
          cases hstring
      | _ => rfl
    rw [hstands] at h
    have halone : env.alone invocation p r isLast (.typed option.value) = .ok v :=
      (alone_eq_ok_iff ht hr).mpr h
    by_cases hnumber : option.value.isNumber = true ∧ p.type.isExact = true
    · exact .typed option choice hoffers hstring hmem hanswers (.inl hnumber) halone
    · by_cases hspelled : ∀ other ∈ p.choices, other.value ≠ option.value.text
      · exact .typed option choice hoffers hstring hmem hanswers (.inr hspelled) halone
      · push Not at hspelled
        obtain ⟨other, hother, hvalue⟩ := hspelled
        have hplain : p.type.isExact = true → option.value.isNumber = false := by
          intro hexact
          exact Bool.eq_false_iff.mpr fun hplaces => hnumber ⟨hplaces, hexact⟩
        rw [Slot.judgeOne_typed _ hstring hplain .zero, ← hvalue] at h
        exact listed_of_judgeOne ht hr hother h

/-- A resolver that is run on a piece and gives a value judges the piece to be the value,
unless a list of texts finds more words behind it. -/
theorem judgeOne_of_run_give (ht : env.resolvers.IsStandard)
    (hr : env.resolvers.find? p.type = some r) (hchoices : p.choices ≠ []) {s : Supply}
    {piece : Piece}
    (hrest : ∀ source tokens, s.input = .text source tokens → p.type = .strings → tokens = [])
    (h : (r.run (env.slot invocation p isLast) (s.give piece)).1 = .ok v) :
    (env.slot invocation p isLast).reading.judgeOne piece = .ok v := by
  let slot := env.slot invocation p isLast
  have hall : ∀ judge, slot.reading = .all judge →
      ∀ source tokens, s.input = .text source tokens → tokens = [] := by
    intro judge hreading source tokens hinput
    exact hrest source tokens hinput (type_of_reading_all hreading hchoices)
  rw [ht.run_eq slot hr] at h
  obtain ⟨after, heq⟩ := Reading.run_give slot slot.reading hall piece
  rwa [heq, mapError_eq_ok] at h

/-- What the choices let through is the value of a choice, or a typed value that names one. -/
theorem chosen_of_start (ht : env.resolvers.IsStandard)
    (hr : env.resolvers.find? p.type = some r) (hchoices : p.choices ≠ []) {left : Input}
    (hlist : p.type = .strings → left.wordCount ≤ 1) {start supply : Supply}
    (hstart : Start env invocation p r left start) (hchosen : applyChoices p start = .ok supply)
    (h : (r.run (env.slot invocation p isLast) supply).1 = .ok v) :
    Chosen env invocation p r isLast left v := by
  obtain ⟨piece, rest, choice, hpop, hchoice, rfl⟩ :=
    applyChoices_eq_ok hchoices hstart.hasInput hchosen
  have hmem := List.mem_of_find?_eq_some hchoice
  cases hstart with
  | given =>
      -- What was given names a choice, and the piece that stands in for it is judged.
      have hrest : ∀ source tokens, rest.input = .text source tokens → p.type = .strings →
          tokens = [] := by
        intro source tokens htext htype
        obtain ⟨token, hleft⟩ := text_of_pop hpop htext
        have hcount := hlist htype
        rw [hleft] at hcount
        simpa [Input.wordCount] using hcount
      have hjudge := judgeOne_of_run_give ht hr hchoices hrest h
      cases piece with
      | word token => exact listed_of_judgeOne ht hr hmem hjudge
      | typed value =>
          have hanswers : choice.answersTo (Text.trim value.text) = true := by
            exact List.find?_some (p := fun c : Choice => c.answersTo _) hchoice
          obtain ⟨option, hoffers, rfl⟩ := offers_of_pop hpop
          exact chosen_of_typed ht hr hoffers hmem hanswers hjudge
  | default _ hinput =>
      -- The default goes the same way, as a word that nothing follows.
      cases hpop
      refine listed_of_judgeOne ht hr hmem (judgeOne_of_run_give ht hr hchoices ?_ h)
      intro source tokens htext _
      have hleft : left = .text source tokens := htext
      simpa [Supply.hasInput, hleft] using hinput

/-- A parameter with choices that gets a value is given the value of a choice, a typed
value that names one, or the issuer's own entity.  A list of texts must not find more
than one word. -/
theorem chosen_of_resolveParam (ht : env.resolvers.IsStandard)
    (hr : env.resolvers.find? p.type = some r) (hchoices : p.choices ≠ []) {left after : Input}
    (hlist : p.type = .strings → left.wordCount ≤ 1)
    (h : env.resolveParam invocation p r isLast left = .ok (some (v, after)))
    (hne : v ≠ .absent) : Chosen env invocation p r isLast left v := by
  let slot := env.slot invocation p isLast
  cases way_of_resolveParam h with
  | absent => exact absurd rfl hne
  | entered hentry haccept =>
      obtain ⟨rest, hrun, -⟩ := accept_eq_some haccept
      cases hentry with
      | issuer hissuer =>
          -- The invocation settles the value whatever is given.
          obtain ⟨result, hreading⟩ := ht.reading_of_isIssuerOnly slot hr hissuer
          obtain ⟨choice, hmem⟩ := List.exists_mem_of_ne_nil p.choices hchoices
          rw [ht.run_eq slot hr, hreading] at hrun
          have hjudge : slot.reading.judgeOne (.word ⟨choice.value, .zero⟩) = .ok v := by
            rw [hreading]
            exact mapError_eq_ok.mp (congrArg Prod.fst hrun)
          exact listed_of_judgeOne ht hr hmem hjudge
      | chosen hstart hchosen =>
          exact chosen_of_start ht hr hchoices hlist hstart hchosen (congrArg Prod.fst hrun)
      | bare htakes hinput hdefault hoptional habsent =>
          obtain ⟨hother, hself, hown⟩ :=
            own_of_run ht slot { input := left } hr htakes hinput habsent
              (congrArg Prod.fst hrun) hne
          exact .own hinput hdefault hoptional hother hself hown

/-! ## All parameters -/

/-- The turn of a parameter of a command, by its place: its resolver, whether it is the
last one that takes input, and the input that the parameters before it have left. -/
def TurnOf (env : Environment) (invocation : Invocation) (c : CommandInfo) (input : Input)
    (k : Nat) (p : Param) (r : Resolver) (isLast : Bool) (left : Input) : Prop :=
  ∃ params rest, c.params.mapM env.withResolver = .ok params ∧ params.drop k = (p, r) :: rest ∧
    env.Reaches invocation params input (params.drop k) left ∧ isLast = isLastOf p r rest

/-- Whatever input a command resolves, a parameter with choices has a value that they let
through. -/
theorem chosen_of_resolve {enums : List (String × List String)}
    (hresolvers : env.resolvers = .withEnums enums) {c : CommandInfo} {input : Input}
    {args : Arguments} (h : env.resolve invocation c input = .ok (.resolved args)) {k : Nat}
    (hp : c.params[k]? = some p) (hchoices : p.choices ≠ []) :
    ∃ r isLast left v, env.TurnOf invocation c input k p r isLast left ∧
      args[k]? = some (p.name, v) ∧
        (v ≠ .absent → (p.type = .strings → left.wordCount ≤ 1) →
          Chosen env invocation p r isLast left v) := by
  have ht : env.resolvers.IsStandard := hresolvers ▸ ResolverTable.isStandard_withEnums enums
  obtain ⟨params, hparams, hresolved⟩ := resolve_eq_ok h
  obtain ⟨⟨q, r⟩, hk, hfound⟩ := exists_of_getElem?_mapM hparams hp
  obtain ⟨rfl, hr⟩ := withResolver_eq_ok hfound
  obtain ⟨rest, left, v, after, hdrop, hreaches, hvalue, harg⟩ :=
    exists_reaches_of_resolveParams hresolved hk
  refine ⟨r, isLastOf q r rest, left, v, ⟨params, rest, hparams, hdrop, hreaches, rfl⟩, harg, ?_⟩
  intro hne hlist
  exact chosen_of_resolveParam ht hr hchoices hlist hvalue hne

/-- A parameter that may be left to the issuer, with one choice. -/
def greeted : Param :=
  ⟨"who", .user, true, none, Dict.ofList [("other", ""), ("defaultself", "")], Dict.empty,
    [⟨"boss", "42"⟩], [], none, none, none, none, none⟩

/-- The draft of a command with the parameter. -/
def greet : CommandDraft where
  path := "greet"
  description := "Greets"
  handler := some Handler.idle
  params :=
    [{ name := "who", type := .user, optional := true, flags := ["other,defaultself"],
       choices := some "boss=42" }]

/-- The environment in which the choice is a user. -/
def greeting : Environment :=
  ofWorld ⟨[⟨42, "boss", false⟩], [], [], [], []⟩ []

theorem exists_greet (input : Input) (args : Arguments)
    (h : (greet.build.map fun c => greeting.resolve aside c.toCommandInfo input) =
      .ok (.ok (.resolved args))) :
    ∃ c, greet.build = .ok c ∧ c.params = [greeted] ∧
      greeting.resolve aside c.toCommandInfo input = .ok (.resolved args) := by
  obtain ⟨c, hbuild, hresolve⟩ := map_eq_ok.mp h
  refine ⟨c, hbuild, ?_, hresolve⟩
  have hparams : greet.build.map (·.params) = .ok [greeted] := rfl
  obtain ⟨c', hbuild', hparams⟩ := map_eq_ok.mp hparams
  rw [hbuild, Except.ok.injEq] at hbuild'
  exact hbuild' ▸ hparams

/-- A user who is named by the label of the choice. -/
theorem chosen_greet :
    ∃ c, greet.build = .ok c ∧ c.params[0]? = some greeted ∧ greeted.choices ≠ [] ∧
      greeting.resolve aside c.toCommandInfo (.text "Boss" [⟨"Boss", ⟨0, 4⟩⟩]) =
        .ok (.resolved [("who", .user ⟨42, "boss", false⟩)]) ∧
      ∃ r isLast left, Chosen greeting aside greeted r isLast left (.user ⟨42, "boss", false⟩) := by
  obtain ⟨c, hbuild, hparams, hresolve⟩ :=
    exists_greet (.text "Boss" [⟨"Boss", ⟨0, 4⟩⟩]) [("who", .user ⟨42, "boss", false⟩)] rfl
  have hp : c.params[0]? = some greeted := by rw [hparams]; rfl
  have hchoices : greeted.choices ≠ [] := by simp [greeted]
  have hresolvers : greeting.resolvers = .withEnums [] := rfl
  obtain ⟨r, isLast, left, v, -, hv, hchosen⟩ := chosen_of_resolve hresolvers hresolve hp hchoices
  obtain ⟨-, rfl⟩ : "who" = greeted.name ∧ Value.user ⟨42, "boss", false⟩ = v := by
    simpa using hv
  refine ⟨c, hbuild, hp, hchoices, hresolve, r, isLast, left, hchosen ?_ ?_⟩
  · intro habsent
    cases habsent
  · intro htype
    cases htype

/-- The issuer stands in for missing input although no choice resolves to the issuer. -/
theorem own_not_listed :
    ∃ c, greet.build = .ok c ∧ c.params = [greeted] ∧ greeted.choices ≠ [] ∧
      greeting.resolve aside c.toCommandInfo (.text "" []) =
        .ok (.resolved [("who", .user aside.issuer)]) ∧
      Value.user aside.issuer ≠ .absent ∧
      ∀ r, greeting.resolvers.find? greeted.type = some r → ∀ isLast,
        ∀ choice ∈ greeted.choices,
          greeting.aloneText aside greeted r isLast choice.value ≠ .ok (.user aside.issuer) := by
  obtain ⟨c, hbuild, hparams, hresolve⟩ :=
    exists_greet (.text "" []) [("who", .user aside.issuer)] rfl
  refine ⟨c, hbuild, hparams, by simp [greeted], hresolve, by simp, ?_⟩
  intro r hr isLast choice hchoice
  have huser : some (orAbsent .issuerUnlessOther user) = some r := hr
  have hboss : choice = ⟨"boss", "42"⟩ := by simpa [greeted] using hchoice
  obtain rfl := Option.some.inj huser
  have halone : greeting.aloneText aside greeted (orAbsent .issuerUnlessOther user) isLast "42" =
      .ok (.user ⟨42, "boss", false⟩) := by
    cases isLast with
    | true => rfl
    | false => rfl
  rw [hboss, halone]
  simp [aside]

end Environment

end ChatCommands
