import ChatCommands.Proofs.Resolve.Agreement
import ChatCommands.Proofs.Resolve.Parameter

/-!
# Resolving one piece alone

A resolver that finds a single piece of input judges that piece, whether it takes one
piece or all, and whether the piece is the whole input or was put back by the choices
of the parameter.
-/

namespace ChatCommands

/-- The input that consists of one piece for the parameter of a name. -/
def Piece.asInput (name : String) : Piece → Input
  | word token => .text token.text [token]
  | typed value => .options [⟨name, value⟩]

/-- A supply holds a single piece for a name. -/
structure Supply.Holds (s : Supply) (name : String) (piece : Piece) : Prop where
  pop : (s.pop name).1 = some piece
  popRest : (s.popRest name).1 = [piece]

namespace Supply

variable {s : Supply} {name : String} {piece : Piece}

theorem holds_asInput (name : String) (piece : Piece) :
    Holds { input := piece.asInput name } name piece := by
  cases piece with
  | word token => exact ⟨rfl, rfl⟩
  | typed value =>
      constructor
      · simp [Supply.pop, Piece.asInput, takeNamed, isNamed_own]
      · simp [Supply.popRest, Supply.pop, Piece.asInput, takeNamed, isNamed_own]

/-- What was put back is all there is, unless further words follow. -/
theorem holds_give (hrest : ∀ source tokens, s.input = .text source tokens → tokens = [])
    (piece : Piece) : (s.give piece).Holds name piece := by
  refine ⟨rfl, ?_⟩
  have hinput : (s.give piece).input = s.input := rfl
  unfold Supply.popRest
  split
  next source tokens heq =>
    rw [hrest source tokens (hinput ▸ heq)]
    rfl
  next => rfl

end Supply

namespace Reading

variable {slot : Slot} {s : Supply} {piece : Piece} {v : Value}

/-- What a reading makes of one piece alone. -/
def judgeOne (reading : Reading) (piece : Piece) : Except Refusal Value :=
  match reading with
  | unread result => result
  | one _ judge => judge piece
  | all judge => judge [piece]

/-- On a supply with one piece a reading judges that piece. -/
theorem run_of_holds (reading : Reading) (h : s.Holds slot.param.name piece) :
    ∃ after, (reading.run slot s).1 =
      (reading.judgeOne piece).mapError (Refusal.toError after slot.param.name) := by
  cases reading with
  | unread result => exact ⟨s, rfl⟩
  | one missing judge =>
      refine ⟨(s.pop slot.param.name).2, ?_⟩
      have hpop : s.pop slot.param.name = (some piece, (s.pop slot.param.name).2) :=
        Prod.ext h.pop rfl
      rw [run, Slot.withPiece, hpop]
      rfl
  | all judge =>
      refine ⟨(s.popRest slot.param.name).2, ?_⟩
      have hpop : s.popRest slot.param.name = ([piece], (s.popRest slot.param.name).2) :=
        Prod.ext h.popRest rfl
      rw [run, Slot.withRest, hpop]
      rfl

/-- A piece that was put back is judged, unless the reading takes all input and further
words follow. -/
theorem run_give (slot : Slot) (reading : Reading) (hrest : ∀ judge, reading = .all judge →
      ∀ source tokens, s.input = .text source tokens → tokens = []) (piece : Piece) :
    ∃ after, (reading.run slot (s.give piece)).1 =
      (reading.judgeOne piece).mapError (Refusal.toError after slot.param.name) := by
  cases reading with
  | unread result => exact ⟨s.give piece, rfl⟩
  | one missing judge =>
      exact ⟨((s.give piece).pop slot.param.name).2, rfl⟩
  | all judge => exact Reading.run_of_holds _ (Supply.holds_give (hrest judge rfl) piece)

/-- Where a word stands makes no difference to what it says. -/
theorem judgeOne_word (slot : Slot) (text : String) (a b : Span) :
    slot.reading.judgeOne (.word ⟨text, a⟩) = slot.reading.judgeOne (.word ⟨text, b⟩) := by
  have heven := slot.isEven_reading
  cases hreading : slot.reading with rw [hreading] at heven
  | unread result => rfl
  | one missing judge => exact heven _ _ (.word text a b)
  | all judge => exact heven _ _ (.word text a b)

end Reading

namespace Environment

variable {env : Environment} {invocation : Invocation} {p : Param} {r : Resolver}
  {isLast : Bool} {s : Supply} {piece : Piece} {v : Value}

/-- What the resolver of a parameter makes of a piece that is the whole input. -/
def alone (env : Environment) (invocation : Invocation) (p : Param) (r : Resolver) (isLast : Bool)
    (piece : Piece) : Except CommandError Value :=
  (r.run (env.slot invocation p isLast) { input := piece.asInput p.name }).1

/-- A text as the only word. -/
abbrev aloneText (env : Environment) (invocation : Invocation) (p : Param) (r : Resolver)
    (isLast : Bool) (text : String) : Except CommandError Value :=
  env.alone invocation p r isLast (.word ⟨text, .zero⟩)

theorem run_alone (ht : env.resolvers.IsStandard) (hr : env.resolvers.find? p.type = some r)
    (invocation : Invocation) (isLast : Bool) (piece : Piece) :
    ∃ after, env.alone invocation p r isLast piece =
      ((env.slot invocation p isLast).reading.judgeOne piece).mapError
        (Refusal.toError after p.name) := by
  rw [alone, ht.run_eq (env.slot invocation p isLast) hr]
  exact Reading.run_of_holds _ (Supply.holds_asInput p.name piece)

theorem alone_eq_ok_iff (ht : env.resolvers.IsStandard)
    (hr : env.resolvers.find? p.type = some r) :
    env.alone invocation p r isLast piece = .ok v ↔
      (env.slot invocation p isLast).reading.judgeOne piece = .ok v := by
  obtain ⟨after, hrun⟩ := run_alone ht hr invocation isLast piece
  rw [hrun, mapError_eq_ok]

end Environment

/-! ## Choices -/

/-- What stands in for the piece that named a choice: the value of the choice in the
place of a text, and the piece itself if it is typed and no text. -/
def Choice.standIn (choice : Choice) (s : Supply) : Piece → Piece
  | .word _ | .typed (.string _) => .word ⟨choice.value, s.lastSpan.getD .zero⟩
  | typed => typed

namespace Environment

variable {p : Param} {s rest chosen : Supply} {piece : Piece}

theorem applyChoices_of_pop (hchoices : p.choices ≠ []) (hpop : s.pop p.name = (some piece, rest)) :
    applyChoices p s =
      match p.choices.find? (·.answersTo (Text.trim piece.text)) with
      | none =>
          .error (rest.refuse p.name
            (.notAChoice (Text.trim piece.text) (p.choices.map (·.label))))
      | some choice => .ok (rest.give (choice.standIn rest piece)) := by
  have hempty : p.choices.isEmpty = false := by
    rw [Bool.eq_false_iff, ne_eq, List.isEmpty_iff]
    exact hchoices
  simp only [applyChoices, hempty, Bool.false_eq_true, if_false, hpop]
  cases p.choices.find? (·.answersTo (Text.trim piece.text)) with
  | none => rfl
  | some choice =>
      cases piece with
      | word token => rfl
      | typed value => cases value <;> rfl

/-- With choices, the piece that was given names one, and something stands in for
it. -/
theorem applyChoices_eq_ok (hchoices : p.choices ≠ []) (hinput : s.hasInput p.name = true)
    (h : applyChoices p s = .ok chosen) :
    ∃ piece rest choice, s.pop p.name = (some piece, rest) ∧
      p.choices.find? (·.answersTo (Text.trim piece.text)) = some choice ∧
      chosen = rest.give (choice.standIn rest piece) := by
  obtain ⟨piece, rest, hpop⟩ := Supply.exists_pop_of_hasInput hinput
  rw [applyChoices_of_pop hchoices hpop] at h
  split at h
  next => cases h
  next choice hchoice => exact ⟨piece, rest, choice, hpop, hchoice, (Except.ok.inj h).symm⟩

end Environment

end ChatCommands
