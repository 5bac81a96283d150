import ChatCommands.Resolve.Supply

/-!
# Taking from a supply

There is a piece to take exactly when there is input for the name, and a piece
that was put back is taken next.  Words are taken from the front.
-/

namespace ChatCommands.Supply

variable {s : Supply} {name : String}

theorem cause_refuse (s : Supply) (parameter : String) (fault : ArgumentFault) :
    (s.refuse parameter fault).cause = .invalidArgument parameter fault := by
  unfold refuse
  split
  · rfl
  · rfl

/-- The option that is taken is the first one of the name. -/
theorem fst_takeNamed (name : String) (given : List TypedOption) :
    (takeNamed name given).map (·.1) = (given.find? (isNamed name)).map (·.value) := by
  induction given with
  | nil => rfl
  | cons option rest ih =>
      by_cases hnamed : isNamed name option = true
      · rw [takeNamed, if_pos hnamed, List.find?_cons_of_pos hnamed]
        rfl
      · rw [takeNamed, if_neg hnamed, List.find?_cons_of_neg hnamed, ← ih, Option.map_map]
        rfl

theorem takeNamed_isSome (given : List TypedOption) :
    (takeNamed name given).isSome = given.any (isNamed name) := by
  have hfound := congrArg Option.isSome (fst_takeNamed name given)
  rw [Option.isSome_map, Option.isSome_map] at hfound
  rw [hfound, Bool.eq_iff_iff, List.find?_isSome, List.any_eq_true]

theorem pop_fst_isSome : (s.pop name).1.isSome = s.hasInput name := by
  unfold pop hasInput
  split
  next piece hback => simp [hback]
  next hback =>
    rw [hback, Option.isSome_none, Bool.false_or]
    split
    next source token rest hinput => simp [hinput]
    next source hinput => simp [hinput]
    next given hinput =>
      simp only [hinput]
      rw [← takeNamed_isSome]
      cases takeNamed name given <;> rfl

theorem exists_pop_of_hasInput (h : s.hasInput name = true) :
    ∃ piece rest, s.pop name = (some piece, rest) := by
  rw [← pop_fst_isSome] at h
  obtain ⟨piece, hpiece⟩ := Option.isSome_iff_exists.mp h
  exact ⟨piece, (s.pop name).2, by rw [← hpiece]⟩

theorem popRest_ne_nil (h : s.hasInput name = true) : (s.popRest name).1 ≠ [] := by
  unfold popRest
  split
  next source tokens hinput =>
    cases hback : s.putBack with
    | none =>
        have htokens : tokens ≠ [] := by simpa [hasInput, hback, hinput] using h
        simpa using htokens
    | some piece => simp
  next given hinput =>
    obtain ⟨piece, rest, hpop⟩ := exists_pop_of_hasInput h
    rw [hpop]
    exact List.cons_ne_nil piece []

theorem isNamed_own (value : OptionValue) : isNamed name ⟨name, value⟩ = true := by
  simp [isNamed, Text.asciiEq]

theorem hasInput_give (piece : Piece) : (s.give piece).hasInput name = true := rfl

/-! ## What is left of the input -/

/-- What may be left of an input from which pieces were taken for a name: all of it, the
words behind the first, no words, or the options without the first of the name. -/
inductive Leaves (name : String) : Input → Input → Prop where
  | untouched (input : Input) : Leaves name input input
  | word (source : String) (token : Token) (rest : List Token) :
      Leaves name (.text source (token :: rest)) (.text source rest)
  | words (source : String) (tokens : List Token) :
      Leaves name (.text source tokens) (.text source [])
  | option {given rest : List TypedOption} {value : OptionValue}
      (htaken : takeNamed name given = some (value, rest)) :
      Leaves name (.options given) (.options rest)

theorem leaves_pop (s : Supply) (name : String) : Leaves name s.input (s.pop name).2.input := by
  unfold pop
  split
  next => exact .untouched s.input
  next =>
    split
    next source token rest hinput => exact hinput ▸ .word source token rest
    next => exact .untouched s.input
    next given hinput =>
      rw [hinput]
      split
      next value rest htaken => exact .option htaken
      next => exact hinput ▸ .untouched _

theorem leaves_popRest (s : Supply) (name : String) :
    Leaves name s.input (s.popRest name).2.input := by
  unfold popRest
  split
  next source tokens hinput => exact hinput ▸ .words source tokens
  next given hinput =>
    have hpop := s.leaves_pop name
    split
    next piece rest heq => rwa [heq] at hpop
    next rest heq => rwa [heq] at hpop

/-- What holds of the input still holds when pieces are taken for a name. -/
structure Keeps (name : String) (I : Input → Prop) : Prop where
  pop : ∀ {s : Supply}, I s.input → I (s.pop name).2.input
  popRest : ∀ {s : Supply}, I s.input → I (s.popRest name).2.input

theorem keeps_of_leaves {I : Input → Prop} (h : ∀ i j, Leaves name i j → I i → I j) :
    Keeps name I :=
  ⟨h _ _ (leaves_pop _ name), h _ _ (leaves_popRest _ name)⟩

/-- Without words there are none left. -/
theorem keeps_noWords (name source : String) : Keeps name (· = .text source []) := by
  refine keeps_of_leaves ?_
  rintro _ j hleaves rfl
  cases hleaves with
  | untouched | words => rfl

theorem keeps_source? (name : String) (source : Option String) :
    Keeps name (·.source? = source) := by
  refine keeps_of_leaves ?_
  intro i j hleaves hi
  cases hleaves with
  | untouched | word | words | option => exact hi

/-- A piece comes next, whether it was put back or not, and certain words come behind it. -/
structure Leads (s : Supply) (name source : String) (tokens : List Token) : Prop where
  pop : ∃ piece span, s.pop name = (some piece, ⟨.text source tokens, none, span⟩)
  popRest : (s.popRest name).2.input = .text source []

theorem leads_word (name source : String) (token : Token) (tokens : List Token) :
    Leads { input := .text source (token :: tokens) } name source tokens :=
  ⟨⟨_, _, rfl⟩, rfl⟩

theorem leads_give {source : String} {tokens : List Token} (h : s.input = .text source tokens)
    (piece : Piece) : (s.give piece).Leads name source tokens := by
  have hinput : (s.give piece).input = .text source tokens := h
  refine ⟨⟨piece, piece.span?.or s.lastSpan, ?_⟩, ?_⟩
  · simp [Supply.pop, give, h]
  · rw [Supply.popRest, hinput]

end ChatCommands.Supply
