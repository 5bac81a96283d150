import ChatCommands.Proofs.Param.Declared
import ChatCommands.Proofs.Resolve.Choices
import ChatCommands.Proofs.Resolve.TypedEntity
import ChatCommands.Proofs.Schema.Shape

/-!
# Published choices that come back

The values of the choices of a parameter are published, numbers as numbers, and the
platform sends the value of the choice that was picked back as an option.  The text of
that option is looked up among the labels and values of all choices.  It need not be the
spelling of the choice that was picked, and it may be the label or the value of an
earlier one.
-/

namespace ChatCommands

/-- The option that a published value comes back as. -/
def OptionValue.ofJson? : Json → Option OptionValue
  | .string s => some (.string s)
  | .integer n => (SizedInt.of? .w64 n).map .integer
  | .float x => some (.number (.finite x))
  | _ => none

namespace Schema

variable {table : ResolverTable} {p : Param}

/-- The published value of a choice of a parameter, by the place of the choice. -/
def publishedValue? (table : ResolverTable) (p : Param) (i : Nat) : Option Json :=
  match (parameterProperties table p).get? "choices" with
  | some (.array items) => items[i]?.bind (·.field? "value")
  | _ => none

theorem publishedValue?_eq_offered (table : ResolverTable) (p : Param) (i : Nat) :
    publishedValue? table p i =
      (offeredChoices table p)[i]?.map fun choice =>
        choiceValue p.type.optionType.isNumeric choice.value := by
  rw [publishedValue?, get?_choices, choicesValue]
  cases offeredChoices table p with
  | nil => rfl
  | cons first rest =>
      dsimp only
      rw [List.getElem?_map]
      cases (first :: rest)[i]? with
      | none => rfl
      | some choice => rfl

theorem publishedValue?_eq (h : p.choices ≠ []) (i : Nat) :
    publishedValue? table p i =
      p.choices[i]?.map fun choice => choiceValue p.type.optionType.isNumeric choice.value := by
  have hoffered : offeredChoices table p = p.choices := by simp [offeredChoices, h]
  rw [publishedValue?_eq_offered, hoffered]

/-- A published value comes back as the text itself, as the integer that the text is a
numeral of, or else as the number that it is read as. -/
theorem ofJson?_choiceValue {numeric : Bool} {s : String} {o : OptionValue}
    (h : OptionValue.ofJson? (choiceValue numeric s) = some o) :
    o = .string s ∨
      (numeric = true ∧ ∃ n, SizedInt.read? .w64 s.toList = some n ∧ o = .integer n) ∨
      (numeric = true ∧ ∃ x, Double.read? s = some (.finite x) ∧ o = .number (.finite x)) := by
  unfold choiceValue at h
  split at h
  next hnumeric =>
    split at h
    next n hn =>
      rw [OptionValue.ofJson?, SizedInt.of?_val, Option.map_some, Option.some.injEq] at h
      exact .inr (.inl ⟨hnumeric, n, hn, h.symm⟩)
    next =>
      cases hread : Double.read? s with
      | none =>
          rw [hread] at h
          exact .inl (Option.some.inj h).symm
      | some x =>
          rw [hread] at h
          cases x with
          | finite x => exact .inr (.inr ⟨hnumeric, x, rfl, (Option.some.inj h).symm⟩)
          | infinite negative => cases h
          | nan => cases h
  next => exact .inl (Option.some.inj h).symm

end Schema

/-! ## Choices -/

namespace Environment

open Supply Schema

variable {env : Environment} {invocation : Invocation} {p : Param} {r : Resolver}
  {isLast : Bool} {choice : Choice} {option : TypedOption} {input : Input}

/-- Input passes the choices of a parameter, and the parameter makes of it what it makes
of the value of a choice. -/
def ComesBack (env : Environment) (invocation : Invocation) (p : Param) (r : Resolver)
    (isLast : Bool) (choice : Choice) (input : Input) : Prop :=
  ∃ s, applyChoices p { input } = .ok s ∧
    SameOutcome (r.run (env.slot invocation p isLast) s).1
      (env.aloneText invocation p r isLast choice.value)

/-- What it takes for the published value of a choice to be told from an option. -/
def Recognizes (env : Environment) (invocation : Invocation) (p : Param) (r : Resolver)
    (isLast : Bool) (choice : Choice) : OptionValue → Prop
  -- A text stands for the first choice that has it as its label or its value.
  | .string s => ∃ first, p.choices.find? (·.answersTo s) = some first ∧
      SameOutcome (env.aloneText invocation p r isLast first.value)
        (env.aloneText invocation p r isLast choice.value)
  -- A number stands for itself, once any choice has its digits as label or value.
  | .integer n => ∃ other ∈ p.choices, other.answersTo (Numeral.intText n.val) = true
  | .number x => (∃ other ∈ p.choices, other.answersTo x.text = true) ∧
      (p.type.isExact = true →
        SameOutcome (env.alone invocation p r isLast (.typed (.number x)))
          (env.aloneText invocation p r isLast choice.value))
  | _ => False

theorem sameOutcome_alone_iff (ht : env.resolvers.IsStandard)
    (hr : env.resolvers.find? p.type = some r) (a b : Piece) :
    SameOutcome (env.alone invocation p r isLast a) (env.alone invocation p r isLast b) ↔
      SameOutcome ((env.slot invocation p isLast).reading.judgeOne a)
        ((env.slot invocation p isLast).reading.judgeOne b) := by
  obtain ⟨s, hs⟩ := run_alone ht hr invocation isLast a
  obtain ⟨t, ht⟩ := run_alone ht hr invocation isLast b
  rw [hs, ht, sameOutcome_mapError_left, sameOutcome_mapError_right]

/-- An option comes back as a choice if its text names one and what stands in for it
resolves to what the choice stands for. -/
theorem comesBack_iff_of_pop (ht : env.resolvers.IsStandard)
    (hr : env.resolvers.find? p.type = some r) (hchoices : p.choices ≠ []) {value : OptionValue}
    {rest : Supply} (hpop : pop { input } p.name = (some (.typed value), rest)) :
    env.ComesBack invocation p r isLast choice input ↔
      ∃ first, p.choices.find? (·.answersTo (Text.trim value.text)) = some first ∧
        SameOutcome (env.alone invocation p r isLast (first.standIn rest (.typed value)))
          (env.aloneText invocation p r isLast choice.value) := by
  let slot := env.slot invocation p isLast
  have hrest : ∀ source tokens, rest.input = .text source tokens → tokens = [] := by
    intro source tokens htext
    obtain ⟨token, rfl⟩ := text_of_pop hpop htext
    cases hpop
  have hrun : ∀ piece, SameOutcome (r.run slot (rest.give piece)).1
      (env.aloneText invocation p r isLast choice.value) ↔
        SameOutcome (env.alone invocation p r isLast piece)
          (env.aloneText invocation p r isLast choice.value) := by
    intro piece
    obtain ⟨after, hgive⟩ := Reading.run_give slot slot.reading (fun _ _ => hrest) piece
    obtain ⟨left, halone⟩ := run_alone ht hr invocation isLast piece
    rw [ht.run_eq slot hr, hgive, halone, sameOutcome_mapError_left, sameOutcome_mapError_left]
  have htext : (Piece.typed value).text = value.text := rfl
  rw [ComesBack, applyChoices_of_pop hchoices hpop, htext]
  cases p.choices.find? (·.answersTo (Text.trim value.text)) with
  | none => simp
  | some first =>
      constructor
      · rintro ⟨s, hs, hsame⟩
        rw [← Except.ok.inj hs] at hsame
        exact ⟨first, rfl, (hrun _).mp hsame⟩
      · rintro ⟨other, hother, hsame⟩
        rw [← Option.some.inj hother] at hsame
        exact ⟨_, rfl, (hrun _).mpr hsame⟩

theorem alone_word (ht : env.resolvers.IsStandard) (hr : env.resolvers.find? p.type = some r)
    (text : String) (span : Span) {outcome : Except CommandError Value} :
    SameOutcome (env.alone invocation p r isLast (.word ⟨text, span⟩)) outcome ↔
      SameOutcome (env.aloneText invocation p r isLast text) outcome := by
  obtain ⟨s, hs⟩ := run_alone ht hr invocation isLast (.word ⟨text, span⟩)
  obtain ⟨t, ht⟩ := run_alone ht hr invocation isLast (.word ⟨text, .zero⟩)
  rw [aloneText, hs, ht, sameOutcome_mapError_left, sameOutcome_mapError_left,
    Reading.judgeOne_word _ text span .zero]

theorem exists_find?_eq_some_iff {text : String} :
    (∃ first, p.choices.find? (·.answersTo text) = some first) ↔
      ∃ other ∈ p.choices, other.answersTo text = true := by
  rw [← Option.isSome_iff_exists, List.find?_isSome]

/-- The published value of a choice comes back as the choice exactly when it can be
told from the option. -/
theorem comesBack_iff {enums : List (String × List String)}
    (hresolvers : env.resolvers = .withEnums enums) (hdeclared : p.IsDeclared)
    (hr : env.resolvers.find? p.type = some r) {i : Nat} (hchoice : p.choices[i]? = some choice)
    (hpublished : (publishedValue? env.resolvers p i).bind OptionValue.ofJson? =
      some option.value)
    (hoffers : input.Offers p.name option) :
    env.ComesBack invocation p r isLast choice input ↔
      env.Recognizes invocation p r isLast choice option.value := by
  have ht : env.resolvers.IsStandard := hresolvers ▸ ResolverTable.isStandard_withEnums enums
  have hmem : choice ∈ p.choices := List.mem_of_getElem? hchoice
  have hchoices : p.choices ≠ [] := List.ne_nil_of_mem hmem
  have htrim : Text.trim choice.value = choice.value := hdeclared.trim_value hmem
  obtain ⟨rest, hpop⟩ := pop_of_offers hoffers
  rw [publishedValue?_eq hchoices, hchoice, Option.map_some, Option.bind_some] at hpublished
  rw [comesBack_iff_of_pop ht hr hchoices hpop]
  rcases ofJson?_choiceValue hpublished with hvalue | ⟨hnumeric, n, hread, hvalue⟩ |
    ⟨hnumeric, x, hread, hvalue⟩
  -- A text gives way to the value of the choice that it names, and a number stays what it
  -- is: an integer says what the numeral of the choice says whatever the type, a number with
  -- places only for the binary types.
  · rw [hvalue, OptionValue.text, htrim, Recognizes]
    simp only [Choice.standIn, alone_word ht hr]
  · have hsame : SameOutcome (env.alone invocation p r isLast (.typed (.integer n)))
        (env.aloneText invocation p r isLast choice.value) :=
      (sameOutcome_alone_iff ht hr _ _).mpr (Slot.sameOutcome_integer hnumeric hread htrim)
    rw [hvalue, OptionValue.text, Text.trim_intText, Recognizes, ← exists_find?_eq_some_iff]
    simp only [Choice.standIn, hsame, and_true]
  · have hbinary : p.type.isExact ≠ true →
        SameOutcome (env.alone invocation p r isLast (.typed (.number (.finite x))))
          (env.aloneText invocation p r isLast choice.value) := by
      intro hexact
      exact (sameOutcome_alone_iff ht hr _ _).mpr
        (Slot.sameOutcome_number hnumeric (Bool.eq_false_iff.mpr hexact) hread htrim)
    rw [hvalue, OptionValue.text, Text.trim_floatText, Recognizes, ← exists_find?_eq_some_iff]
    simp only [Choice.standIn, exists_and_right]
    exact and_congr_right fun _ =>
      ⟨fun hsame _ => hsame, fun hsame => (em _).elim hsame hbinary⟩

/-- A level that is one or ten. -/
def level : Param :=
  ⟨"level", .integer .w32, false, none, Dict.empty, Dict.empty,
    [⟨"small", "1"⟩, ⟨"big", "10"⟩], [], none, none, none, none, none⟩

/-- The draft of the level. -/
def levelDraft : ParamDraft where
  name := "level"
  type := .integer .w32
  choices := some "small=1,big=10"

/-- The value of the second level as an option. -/
def ten : TypedOption :=
  ⟨"level", .integer ⟨10, by decide, by decide⟩⟩

/-- The second level comes back. -/
theorem comesBack_level :
    level.IsDeclared ∧ level.choices[1]? = some ⟨"big", "10"⟩ ∧
      (publishedValue? painting.resolvers level 1).bind OptionValue.ofJson? = some ten.value ∧
      (Input.options [ten]).Offers level.name ten ∧
      ∃ r, painting.resolvers.find? level.type = some r ∧
        painting.ComesBack aside level r true ⟨"big", "10"⟩ (.options [ten]) := by
  have hdeclared : level.IsDeclared := ⟨levelDraft, rfl⟩
  have hpublished : (publishedValue? painting.resolvers level 1).bind OptionValue.ofJson? =
      some ten.value := by
    rw [publishedValue?_eq (by decide)]
    rfl
  have hoffers : (Input.options [ten]).Offers level.name ten := Input.offers_own ten.value []
  have hanswers : level.choices.any (·.answersTo "10") = true := by decide +kernel
  refine ⟨hdeclared, rfl, hpublished, hoffers, _, rfl, ?_⟩
  rw [comesBack_iff rfl hdeclared rfl rfl hpublished hoffers]
  exact List.any_eq_true.mp hanswers

/-- A factor that is one or a half. -/
def factor : Param :=
  ⟨"factor", .float64, false, none, Dict.empty, Dict.empty,
    [⟨"one", "1.0"⟩, ⟨"half", "0.5"⟩], [], none, none, none, none, none⟩

/-- The draft of the factor. -/
def factorDraft : ParamDraft where
  name := "factor"
  type := .float64
  choices := some "one=1.0,half=0.5"

deriving instance DecidableEq for BinaryFloat

/-- One as a double. -/
def one : FiniteFloat .double :=
  ⟨false, ⟨1023, by decide⟩, ⟨0, by decide⟩⟩

theorem choiceValue_one : choiceValue true "1.0" = .float one := by
  have hnone : SizedInt.read? .w64 "1.0".toList = none := by decide +kernel
  have hread : Double.read? "1.0" = some (.finite one) := by decide +kernel
  rw [choiceValue, if_pos rfl, hnone, hread]
  rfl

/-- The published value of the first factor is refused, because its text has no
places. -/
theorem not_comesBack_factor :
    factor.IsDeclared ∧ factor.choices[0]? = some ⟨"one", "1.0"⟩ ∧
      (publishedValue? painting.resolvers factor 0).bind OptionValue.ofJson? =
        some (.number (.finite one)) ∧
      (∃ s : Supply, applyChoices factor { input := .options [⟨"factor", .number (.finite one)⟩] } =
        .error (s.refuse "factor" (.notAChoice "1" ["one", "half"]))) ∧
      ∀ r isLast, ¬ painting.ComesBack aside factor r isLast ⟨"one", "1.0"⟩
        (.options [⟨"factor", .number (.finite one)⟩]) := by
  have hchoices : factor.choices ≠ [] := by decide
  have htext : (BinaryFloat.finite one).text = "1" := by decide +kernel
  have hnone : factor.choices.find? (·.answersTo (Text.trim "1")) = none := by decide +kernel
  have htrim : Text.trim "1" = "1" := by decide +kernel
  obtain ⟨rest, hpop⟩ : ∃ rest, pop { input := .options [⟨"factor", .number (.finite one)⟩] }
      factor.name = (some (.typed (.number (.finite one))), rest) := ⟨_, rfl⟩
  have hrefused : applyChoices factor
      { input := .options [⟨"factor", .number (.finite one)⟩] } =
        .error (rest.refuse "factor" (.notAChoice "1" ["one", "half"])) := by
    rw [applyChoices_of_pop hchoices hpop, Piece.text, OptionValue.text, htext, hnone, htrim]
    rfl
  refine ⟨⟨factorDraft, rfl⟩, rfl, ?_, ⟨rest, hrefused⟩, ?_⟩
  · have hfirst : factor.choices[0]? = some ⟨"one", "1.0"⟩ := rfl
    have hnumeric : factor.type.optionType.isNumeric = true := rfl
    rw [publishedValue?_eq hchoices, hfirst, hnumeric, Option.map_some, choiceValue_one]
    rfl
  · rintro r isLast ⟨s, hs, -⟩
    rw [hrefused] at hs
    cases hs

end Environment

end ChatCommands
