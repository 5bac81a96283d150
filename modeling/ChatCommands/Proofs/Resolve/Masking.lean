import ChatCommands.Proofs.Resolve.Options

/-!
# Options whose values are hidden

The values of the options of one name are replaced by one and the same value.  A parameter
of another name makes the same of what is left, since it neither takes nor sees these
options.
-/

namespace ChatCommands

/-- The option with its value hidden if it goes by a name. -/
def TypedOption.mask (name : String) (option : TypedOption) : TypedOption :=
  if Supply.isNamed name option then { option with value := .boolean false } else option

/-- The input with the values of the options of a name hidden. -/
def Input.mask (name : String) : Input → Input
  | text source tokens => .text source tokens
  | options given => .options (given.map (TypedOption.mask name))

variable {name other : String}

namespace TypedOption

theorem mask_of_isNamed_eq_false {option : TypedOption}
    (h : Supply.isNamed name option = false) : option.mask name = option := by
  rw [mask, h]
  exact if_neg Bool.false_ne_true

@[simp]
theorem isNamed_mask (name other : String) (option : TypedOption) :
    Supply.isNamed other (option.mask name) = Supply.isNamed other option := by
  rw [mask]
  split
  · rfl
  · rfl

end TypedOption

/-- Options that differ only in the values of those of a name look the same when these
are hidden. -/
theorem Input.mask_eq_of_forall₂ {given given' : List TypedOption}
    (h : List.Forall₂ (fun a b => a.name = b.name ∧
      (Text.asciiEq a.name name = false → a.value = b.value)) given given') :
    (options given).mask name = (options given').mask name := by
  suffices hmap : given.map (TypedOption.mask name) = given'.map (TypedOption.mask name) from
    congrArg options hmap
  induction h with
  | nil => rfl
  | @cons a b as bs hab _ ih =>
      obtain ⟨aname, avalue⟩ := a
      obtain ⟨bname, bvalue⟩ := b
      obtain ⟨rfl, hvalue⟩ := hab
      rw [List.map_cons, List.map_cons, ih, List.cons.injEq]
      refine ⟨?_, rfl⟩
      by_cases hnamed : Text.asciiEq aname name = true
      · simp only [TypedOption.mask, Supply.isNamed, hnamed, if_true]
      · rw [Bool.not_eq_true] at hnamed
        have hsame : avalue = bvalue := hvalue hnamed
        rw [hsame]

/-! ## Supplies -/

namespace Supply

variable {s : Supply}

/-- The supply with the values of the options of a name hidden in its input. -/
def mask (name : String) (s : Supply) : Supply :=
  { s with input := s.input.mask name }

theorem hasInput_mask (name other : String) (s : Supply) :
    (s.mask name).hasInput other = s.hasInput other := by
  obtain ⟨input, back, span⟩ := s
  cases input with
  | text source tokens => rfl
  | options given =>
      have hany : (given.map (TypedOption.mask name)).any (isNamed other) =
          given.any (isNamed other) := by
        rw [List.any_map]
        exact congrArg given.any (funext (TypedOption.isNamed_mask name other))
      simp only [hasInput, mask, Input.mask, hany]

theorem refuse_mask (name : String) (s : Supply) (parameter : String) (fault : ArgumentFault) :
    (s.mask name).refuse parameter fault = s.refuse parameter fault := by
  obtain ⟨input, back, span⟩ := s
  cases input with
  | text source tokens => rfl
  | options given => rfl

theorem takeNamed_mask (hne : Text.asciiEq other name = false) (given : List TypedOption) :
    takeNamed other (given.map (TypedOption.mask name)) =
      (takeNamed other given).map fun taken =>
        (taken.1, taken.2.map (TypedOption.mask name)) := by
  induction given with
  | nil => rfl
  | cons option rest ih =>
      rw [List.map_cons, takeNamed, takeNamed, TypedOption.isNamed_mask]
      by_cases hnamed : isNamed other option = true
      · have hsame := TypedOption.mask_of_isNamed_eq_false (isNamed_eq_false hne hnamed)
        rw [if_pos hnamed, if_pos hnamed, hsame, Option.map_some]
      · rw [if_neg hnamed, if_neg hnamed, ih, Option.map_map, Option.map_map]
        rfl

theorem pop_mask (hne : Text.asciiEq other name = false) (s : Supply) :
    (s.mask name).pop other = ((s.pop other).1, (s.pop other).2.mask name) := by
  obtain ⟨input, back, span⟩ := s
  cases back with
  | some piece => rfl
  | none =>
      cases input with
      | text source tokens => cases tokens <;> rfl
      | options given =>
          simp only [pop, mask, Input.mask, takeNamed_mask hne]
          cases takeNamed other given with
          | none => rfl
          | some taken => rfl

theorem popRest_mask (hne : Text.asciiEq other name = false) (s : Supply) :
    (s.mask name).popRest other = ((s.popRest other).1, (s.popRest other).2.mask name) := by
  obtain ⟨input, back, span⟩ := s
  cases input with
  | text source tokens => rfl
  | options given =>
      have hpop := pop_mask hne ⟨.options given, back, span⟩
      simp only [popRest, mask, Input.mask] at hpop ⊢
      rw [hpop]
      cases hpopped : (⟨.options given, back, span⟩ : Supply).pop other with
      | mk piece rest =>
          cases piece with
          | none => rfl
          | some piece => rfl

end Supply

theorem Slot.settle_mask (slot : Slot) (name : String) (s : Supply)
    (result : Except Refusal Value) :
    slot.settle (s.mask name) result =
      ((slot.settle s result).1, (slot.settle s result).2.mask name) := by
  cases result with
  | ok v => rfl
  | error refusal =>
      cases refusal with
      | argument fault =>
          have hrefuse := s.refuse_mask name slot.param.name fault
          simp only [settle, Except.mapError, Refusal.toError, hrefuse]
      | internal fault => rfl

/-- A reading does not see options of other names. -/
theorem Reading.run_mask (reading : Reading) (slot : Slot)
    (hne : Text.asciiEq slot.param.name name = false) (s : Supply) :
    reading.run slot (s.mask name) =
      ((reading.run slot s).1, (reading.run slot s).2.mask name) := by
  cases reading with
  | unread result => exact slot.settle_mask name s result
  | one missing judge =>
      simp only [run, Slot.withPiece, Supply.pop_mask hne]
      cases hpop : s.pop slot.param.name with
      | mk piece rest =>
          cases piece with
          | none => rfl
          | some piece => exact slot.settle_mask name rest (judge piece)
  | all judge =>
      simp only [run, Slot.withRest, Supply.popRest_mask hne]
      exact slot.settle_mask name _ _

namespace Environment

variable {env : Environment} {invocation : Invocation} {p q : Param} {r : Resolver}
  {isLast : Bool}

theorem applyChoices_mask (hne : Text.asciiEq q.name name = false) (s : Supply) :
    applyChoices q (s.mask name) = (applyChoices q s).map (Supply.mask name) := by
  simp only [applyChoices, Supply.pop_mask hne]
  split
  next => rfl
  next =>
    cases hpop : s.pop q.name with
    | mk piece rest =>
        cases piece with
        | none => rfl
        | some piece =>
            dsimp only
            split
            next =>
              rw [Supply.refuse_mask]
              rfl
            next choice hchoice =>
              split
              next => rfl
              next => rfl
              next => rfl

theorem checkConditions_mask (s : Supply) (v : Value) (uses : List ConditionUse) :
    env.checkConditions invocation p (s.mask name) v uses =
      env.checkConditions invocation p s v uses := by
  induction uses with
  | nil => rfl
  | cons use rest ih => simp only [checkConditions, ih, Supply.refuse_mask]

/-- What is resolved, with the values of the options of a name hidden in what is left. -/
def maskFound (name : String) (found : Option (Value × Input)) : Option (Value × Input) :=
  found.map fun (v, left) => (v, left.mask name)

theorem accept_mask (outcome : Except CommandError Value × Supply) :
    env.accept invocation p (outcome.1, outcome.2.mask name) =
      (env.accept invocation p outcome).map (maskFound name) := by
  obtain ⟨result, rest⟩ := outcome
  cases result with
  | error e => rfl
  | ok v =>
      simp only [accept, checkConditions_mask]
      split
      next => rfl
      next => cases env.checkConditions invocation p rest v p.conditions <;> rfl

theorem Start.mask {input : Input} {start : Supply} (h : Start env invocation q r input start) :
    Start env invocation q r (input.mask name) (start.mask name) := by
  have hsame := Supply.hasInput_mask name q.name { input }
  cases h with
  | given htakes hinput hpermits => exact .given htakes (hsame.trans hinput) hpermits
  | default htakes hinput hdefault => exact .default htakes (hsame.trans hinput) hdefault

theorem Entry.mask (hne : Text.asciiEq q.name name = false) {input : Input} {supply : Supply}
    (h : Entry env invocation q r input supply) :
    Entry env invocation q r (input.mask name) (supply.mask name) := by
  cases h with
  | issuer hissuer => exact .issuer hissuer
  | chosen hstart hchosen =>
      refine .chosen hstart.mask ?_
      rw [applyChoices_mask hne, hchosen]
      rfl
  | bare htakes hinput hdefault hoptional habsent hpermits =>
      exact .bare htakes ((Supply.hasInput_mask name q.name { input }).trans hinput) hdefault
        hoptional habsent hpermits

/-- A parameter of another name makes the same of hidden values. -/
theorem resolveParam_mask (ht : env.resolvers.IsStandard)
    (hr : env.resolvers.find? q.type = some r) (hne : Text.asciiEq q.name name = false)
    (input : Input) :
    env.resolveParam invocation q r isLast (input.mask name) =
      (env.resolveParam invocation q r isLast input).map (maskFound name) := by
  let slot := env.slot invocation q isLast
  have hsame := Supply.hasInput_mask name q.name { input }
  generalize h : env.resolveParam invocation q r isLast input = outcome
  cases way_of_resolveParam h with
  | entered hentry haccept =>
      rw [ht.run_eq slot hr] at haccept
      rw [(hentry.mask hne).resolveParam_eq, ht.run_eq slot hr, slot.reading.run_mask slot hne,
        accept_mask, haccept]
  | refused hstart hrefused =>
      refine (Way.refused hstart.mask ?_).resolveParam_eq
      rw [applyChoices_mask hne, hrefused]
      rfl
  | denied htakes hinput hdenied =>
      exact (Way.denied htakes (hsame.trans hinput) hdenied).resolveParam_eq
  | absent htakes hinput hdefault hoptional hskips =>
      exact (Way.absent htakes (hsame.trans hinput) hdefault hoptional hskips).resolveParam_eq
  | missing htakes hinput hrequires =>
      exact (Way.missing htakes (hsame.trans hinput) hrequires).resolveParam_eq

end Environment

end ChatCommands
