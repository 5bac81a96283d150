import ChatCommands.Proofs.Command.Declared
import ChatCommands.Proofs.Resolve.Parameter
import ChatCommands.Proofs.Resolve.Reading

/-!
# Options by name

A parameter takes options of its own name only.  The first option for a parameter
is therefore still the first when its turn comes, whatever the parameters before
it have taken.
-/

namespace ChatCommands

/-- The input consists of options, and the given one is the first of a name. -/
def Input.Offers (name : String) (option : TypedOption) : Input → Prop
  | options given => given.find? (Supply.isNamed name) = some option
  | text _ _ => False

variable {name other : String} {option : TypedOption}

/-- The first option of a name, in any case. -/
def Input.first? (name : String) : Input → Option TypedOption
  | options given => given.find? (Supply.isNamed name)
  | text _ _ => none

theorem Input.first?_eq_some_iff {input : Input} :
    input.first? name = some option ↔ input.Offers name option := by
  cases input with
  | text source tokens => simp [first?, Offers]
  | options given => rfl

theorem Input.offers_own (value : OptionValue) (given : List TypedOption) :
    (options (⟨name, value⟩ :: given)).Offers name ⟨name, value⟩ := by
  rw [Offers, List.find?_cons, Supply.isNamed_own]

namespace Supply

variable {s : Supply}

theorem isNamed_eq_false {o : TypedOption} (hne : Text.asciiEq other name = false)
    (h : isNamed other o = true) : isNamed name o = false := by
  simp only [isNamed, Text.asciiEq, beq_iff_eq, beq_eq_false_iff_ne] at h hne ⊢
  rw [h]
  exact hne

theorem find?_of_takeNamed (hne : Text.asciiEq other name = false) {given rest : List TypedOption}
    {value : OptionValue} (h : takeNamed other given = some (value, rest)) :
    rest.find? (isNamed name) = given.find? (isNamed name) := by
  induction given generalizing rest with
  | nil => cases h
  | cons first others ih =>
      by_cases hfirst : isNamed other first = true
      · rw [takeNamed, if_pos hfirst] at h
        cases h
        rw [List.find?_cons, isNamed_eq_false hne hfirst]
      · rw [takeNamed, if_neg hfirst, Option.map_eq_some_iff] at h
        obtain ⟨⟨taken, left⟩, hleft, heq⟩ := h
        cases heq
        rw [List.find?_cons, List.find?_cons, ih hleft]

theorem takeNamed_of_find? {given : List TypedOption}
    (h : given.find? (isNamed name) = some option) :
    ∃ rest, takeNamed name given = some (option.value, rest) := by
  have hvalue := fst_takeNamed name given
  rw [h, Option.map_some, Option.map_eq_some_iff] at hvalue
  obtain ⟨⟨_, rest⟩, htaken, rfl⟩ := hvalue
  exact ⟨rest, htaken⟩

/-- Who takes options of another name leaves the first of a name alone. -/
theorem keeps_first? (hne : Text.asciiEq other name = false) (first : Option TypedOption) :
    Keeps other (·.first? name = first) := by
  refine keeps_of_leaves ?_
  intro i j hleaves hi
  cases hleaves with
  | untouched | word | words => exact hi
  | option htaken => exact (find?_of_takeNamed hne htaken).trans hi

end Supply

theorem Supply.keeps_offers (hne : Text.asciiEq other name = false) :
    Keeps other (Input.Offers name option) := by
  have hoffers : Input.Offers name option = (·.first? name = some option) :=
    funext fun _ => propext Input.first?_eq_some_iff.symm
  exact hoffers ▸ keeps_first? hne (some option)

namespace Environment

variable {env : Environment} {invocation : Invocation} {p q : Param} {r : Resolver}
  {isLast : Bool} {v : Value}

/-- The value of an argument comes from resolving its parameter while its first
option is still there. -/
theorem exists_resolveParam_of_get? (ht : env.resolvers.IsStandard) {declared : List Param}
    (happart : declared.Pairwise fun p q => Text.asciiEq p.name q.name = false)
    {params : List (Param × Resolver)}
    (hparams : List.Forall₂ (fun p found => env.withResolver p = .ok found) declared params)
    (hp : p ∈ declared) {input : Input} (h : input.Offers p.name option) {args : Arguments}
    (hresolved : env.resolveParams invocation params input = .ok (some args))
    (hv : args.get? p.name = some v) :
    ∃ r isLast before after, env.resolvers.find? p.type = some r ∧ before.Offers p.name option ∧
      env.resolveParam invocation p r isLast before = .ok (some (v, after)) := by
  -- The parameters before take options of other names, so that the offer stands.
  induction hparams generalizing input args with
  | nil => exact absurd hp List.not_mem_nil
  | @cons q found rest others hfound hothers ih =>
      obtain ⟨rfl, hr⟩ := withResolver_eq_ok hfound
      obtain ⟨w, after, args', hparam, hrest, rfl⟩ := resolveParams_cons_eq_ok hresolved
      obtain ⟨hhead, htail⟩ := List.pairwise_cons.mp happart
      rcases List.mem_cons.mp hp with rfl | hp
      · have hw : w = v := by simpa [Arguments.get?] using hv
        exact ⟨found.2, _, input, after, hr, h, hw ▸ hparam⟩
      · have hne := hhead p hp
        have hother : (found.1.name == p.name) = false := by
          rw [beq_eq_false_iff_ne]
          intro heq
          rw [heq] at hne
          simp [Text.asciiEq] at hne
        have hv' : Arguments.get? args' p.name = some v := by
          rwa [Arguments.get?, List.find?_cons, hother] at hv
        have hafter := keeps_of_resolveParam (Supply.keeps_offers hne) ht hr h hparam
        exact ih htail hp hafter hrest hv'

end Environment

end ChatCommands
