import ChatCommands.Proofs.Resolve.Alone

/-!
# Two resolutions in step

A parameter sees nothing of the input but the pieces that it takes.  Where two
resolutions hand it pieces that say the same, or both hand it nothing, it makes the same
of them, and each resolution goes on with what is left of its own input.
-/

namespace ChatCommands

/-- The same piece, or pieces that say the same. -/
def Piece.Even (x y : Piece) : Prop :=
  x = y ∨ Piece.Alike x y

namespace Piece.Even

variable {x y : Piece}

theorem text_eq (h : Even x y) : x.text = y.text := by
  rcases h with rfl | halike
  · rfl
  · exact halike.text_eq

/-- What stands in for a piece that named a choice depends on what the piece says. -/
theorem standIn (h : Even x y) (choice : Choice) (s t : Supply) :
    Even (choice.standIn s x) (choice.standIn t y) := by
  rcases h with rfl | halike
  · cases x with
    | word token => exact .inr (.word choice.value _ _)
    | typed value =>
        cases value with
        | string text => exact .inr (.word choice.value _ _)
        | _ => exact .inl rfl
  · cases halike with
    | word text a b => exact .inr (.word choice.value _ _)
    | typed text a hword => exact .inr (.word choice.value _ _)

end Piece.Even

theorem Reading.IsEven.judge_eq {missing : Value} {judge : Piece → Except Refusal Value}
    (h : (Reading.one missing judge).IsEven) {x y : Piece} (hxy : Piece.Even x y) :
    judge x = judge y := by
  rcases hxy with rfl | halike
  · rfl
  · exact h x y halike

theorem Reading.IsEven.judge_singleton_eq {judge : List Piece → Except Refusal Value}
    (h : (Reading.all judge).IsEven) {x y : Piece} (hxy : Piece.Even x y) :
    judge [x] = judge [y] := by
  rcases hxy with rfl | halike
  · rfl
  · exact h x y halike

/-! ## Supplies in step -/

/-- No words are left.  Of options one parameter takes one at the most, however many there
are. -/
def Input.NoWords : Input → Prop
  | text _ tokens => tokens = []
  | options _ => True

/-- Two supplies hand out even pieces for a name, or both have nothing for it, and the given
inputs are left behind. -/
inductive Supply.InStep (name : String) (s t : Supply) (i j : Input) : Prop where
  | lacking (a b : Option Span) (hs : s.pop name = (none, ⟨i, none, a⟩))
      (ht : t.pop name = (none, ⟨j, none, b⟩))
  | giving {x y : Piece} (a b : Option Span) (heven : Piece.Even x y)
      (hs : s.pop name = (some x, ⟨i, none, a⟩)) (ht : t.pop name = (some y, ⟨j, none, b⟩))

namespace Supply

variable {name : String} {s t rest : Supply} {i j : Input} {found : Option Piece}
  {span : Option Span}

theorem eq_of_pop_none (h : s.pop name = (none, rest)) : rest = s := by
  unfold pop at h
  split at h
  next => cases h
  next =>
    split at h
    next => cases h
    next => exact (Prod.mk.inj h).2.symm
    next =>
      split at h
      next => cases h
      next => exact (Prod.mk.inj h).2.symm

/-- Taking all input comes to taking one piece when no further words are left. -/
theorem exists_popRest_of_pop (h : s.pop name = (found, ⟨i, none, span⟩)) (hi : i.NoWords) :
    ∃ after, s.popRest name = (found.toList, ⟨i, none, after⟩) := by
  unfold popRest
  split
  next source tokens hinput =>
    unfold pop at h
    split at h
    next piece hback =>
      obtain ⟨rfl, hrest⟩ := Prod.mk.inj h
      obtain rfl : s.input = i := congrArg Supply.input hrest
      obtain rfl : tokens = [] := by rwa [hinput] at hi
      exact ⟨_, by rw [hback, hinput]; rfl⟩
    next hback =>
      rw [hback]
      split at h
      next source' token tokens' hwords =>
        obtain ⟨rfl, rfl⟩ := Input.text.inj (hinput.symm.trans hwords)
        obtain ⟨rfl, hrest⟩ := Prod.mk.inj h
        obtain rfl : Input.text source tokens' = i := congrArg Supply.input hrest
        obtain rfl : tokens' = [] := hi
        exact ⟨_, rfl⟩
      next source' hwords =>
        obtain ⟨rfl, rfl⟩ := Input.text.inj (hinput.symm.trans hwords)
        obtain ⟨rfl, hrest⟩ := Prod.mk.inj h
        obtain rfl : s.input = i := congrArg Supply.input hrest
        exact ⟨_, by rw [hinput]; rfl⟩
      next given hoptions =>
        rw [hinput] at hoptions
        cases hoptions
  next given hinput =>
    rw [h]
    cases found with
    | none => exact ⟨span, rfl⟩
    | some piece => exact ⟨span, rfl⟩

theorem inStep_give {x y : Piece} (h : Piece.Even x y) (s t : Supply) :
    InStep name (s.give x) (t.give y) s.input t.input :=
  .giving _ _ h rfl rfl

end Supply

/-! ## One parameter -/

/-- What two resolutions of a parameter make of it: both found no input that it
needs, or both have the same value and leave the given inputs. -/
inductive Onward (i j : Input) : Option (Value × Input) → Option (Value × Input) → Prop where
  | stop : Onward i j none none
  | next (v : Value) : Onward i j (some (v, i)) (some (v, j))

namespace Environment

open Supply

variable {env : Environment} {invocation : Invocation} {p : Param} {r : Resolver}
  {isLast : Bool} {s t : Supply} {i j : Input}

theorem agree_checkConditions (s t : Supply) (v : Value) (uses : List ConditionUse) :
    Agree Eq (env.checkConditions invocation p s v uses)
      (env.checkConditions invocation p t v uses) := by
  induction uses with
  | nil => exact rfl
  | cons use rest ih =>
      simp only [checkConditions]
      split
      next => exact rfl
      next condition hcondition =>
        split
        next message hmessage =>
          exact (s.unplaced_refuse _ _).trans (t.unplaced_refuse _ _).symm
        next => exact ih

theorem agree_refusal (slot : Slot) (s t : Supply) (refusal : Refusal) :
    Agree (Onward i j) (env.accept invocation p (slot.settle s (.error refusal)))
      (env.accept invocation p (slot.settle t (.error refusal))) := by
  cases refusal with
  | argument fault => exact (s.unplaced_refuse _ _).trans (t.unplaced_refuse _ _).symm
  | internal fault => exact rfl

/-- The same judgement is accepted or refused alike. -/
theorem agree_accept (slot : Slot) (result : Except Refusal Value) (hs : s.input = i)
    (ht : t.input = j) :
    Agree (Onward i j) (env.accept invocation p (slot.settle s result))
      (env.accept invocation p (slot.settle t result)) := by
  cases result with
  | error refusal => exact agree_refusal slot s t refusal
  | ok v =>
      simp only [Slot.settle, accept, mapError_ok, hs, ht]
      split
      next => exact .next v
      next => exact (agree_checkConditions s t v p.conditions).map fun _ _ _ => .next v

/-- The resolver of a parameter makes the same of supplies in step, unless it takes all
input while further words are left. -/
theorem agree_run (ht : env.resolvers.IsStandard) (hr : env.resolvers.find? p.type = some r)
    (htakes : r.isIssuerOnly p = false) (hstep : InStep p.name s t i j)
    (hall : ∀ judge, (env.slot invocation p isLast).reading = .all judge →
      i.NoWords ∧ j.NoWords) :
    Agree (Onward i j) (env.accept invocation p (r.run (env.slot invocation p isLast) s))
      (env.accept invocation p (r.run (env.slot invocation p isLast) t)) := by
  let slot := env.slot invocation p isLast
  have heven := slot.isEven_reading
  have hslot : slot.param.name = p.name := rfl
  rw [ht.run_eq slot hr, ht.run_eq slot hr]
  cases hreading : slot.reading with rw [hreading] at heven
  | unread result =>
      cases result with
      | ok v => exact absurd hreading (ht.reading_ne_unread slot hr rfl htakes v)
      | error refusal => exact agree_refusal slot s t refusal
  | one missing judge =>
      cases hstep with
      | lacking a b hs ht =>
          simp only [Reading.run, Slot.withPiece, hslot, hs, ht]
          exact agree_accept slot (.ok missing) rfl rfl
      | giving a b hxy hs ht =>
          simp only [Reading.run, Slot.withPiece, hslot, hs, ht, heven.judge_eq hxy]
          exact agree_accept slot _ rfl rfl
  | all judge =>
      obtain ⟨hi, hj⟩ := hall judge hreading
      cases hstep with
      | lacking a b hs ht =>
          obtain ⟨a', hs⟩ := exists_popRest_of_pop hs hi
          obtain ⟨b', ht⟩ := exists_popRest_of_pop ht hj
          simp only [Reading.run, Slot.withRest, hslot, hs, ht]
          exact agree_accept slot _ rfl rfl
      | giving a b hxy hs ht =>
          obtain ⟨a', hs⟩ := exists_popRest_of_pop hs hi
          obtain ⟨b', ht⟩ := exists_popRest_of_pop ht hj
          simp only [Reading.run, Slot.withRest, hslot, hs, ht, Option.toList_some,
            heven.judge_singleton_eq hxy]
          exact agree_accept slot _ rfl rfl

/-- The choices of a parameter leave supplies in step. -/
theorem agree_applyChoices (hstep : InStep p.name s t i j) :
    Agree (fun s t => InStep p.name s t i j) (applyChoices p s) (applyChoices p t) := by
  by_cases hchoices : p.choices = []
  · simp only [applyChoices, hchoices, List.isEmpty_nil, if_true]
    exact hstep
  · cases hstep with
    | lacking a b hs ht =>
        obtain rfl := eq_of_pop_none hs
        obtain rfl := eq_of_pop_none ht
        have hempty : p.choices.isEmpty = false := by simpa using hchoices
        simp only [applyChoices, hempty, hs, ht, Bool.false_eq_true, if_false]
        exact .lacking a b hs ht
    | giving a b hxy hs ht =>
        rw [applyChoices_of_pop hchoices hs, applyChoices_of_pop hchoices ht, ← hxy.text_eq]
        split
        next => exact (Supply.unplaced_refuse _ _ _).trans (Supply.unplaced_refuse _ _ _).symm
        next choice hchoice => exact inStep_give (hxy.standIn choice _ _) _ _

theorem agree_runChosen (ht : env.resolvers.IsStandard)
    (hr : env.resolvers.find? p.type = some r) (htakes : r.isIssuerOnly p = false)
    (hstep : InStep p.name s t i j)
    (hall : ∀ judge, (env.slot invocation p isLast).reading = .all judge →
      i.NoWords ∧ j.NoWords) :
    Agree (Onward i j)
      (applyChoices p s >>= fun s =>
        env.accept invocation p (r.run (env.slot invocation p isLast) s))
      (applyChoices p t >>= fun t =>
        env.accept invocation p (r.run (env.slot invocation p isLast) t)) :=
  (agree_applyChoices hstep).bind fun _ _ hchosen => agree_run ht hr htakes hchosen hall

/-- A parameter that takes input comes to the same with inputs in step, also where it falls
back on its default or is absent. -/
theorem agree_resolveParam (ht : env.resolvers.IsStandard)
    (hr : env.resolvers.find? p.type = some r) (htakes : r.isIssuerOnly p = false)
    {before before' : Input} (hstep : InStep p.name { input := before } { input := before' } i j)
    (hall : ∀ judge, (env.slot invocation p isLast).reading = .all judge →
      i.NoWords ∧ j.NoWords) :
    Agree (Onward i j) (env.resolveParam invocation p r isLast before)
      (env.resolveParam invocation p r isLast before') := by
  cases hstep with
  | giving a b hxy hs ht' =>
      have hinput : hasInput { input := before } p.name = true := by
        rw [← pop_fst_isSome, hs, Option.isSome_some]
      have hinput' : hasInput { input := before' } p.name = true := by
        rw [← pop_fst_isSome, ht', Option.isSome_some]
      rw [resolveParam_of_hasInput htakes hinput, resolveParam_of_hasInput htakes hinput']
      split
      next => exact agree_runChosen ht hr htakes (.giving a b hxy hs ht') hall
      next => exact rfl
  | lacking a b hs ht' =>
      have hinput : hasInput { input := before } p.name = false := by
        rw [← pop_fst_isSome, hs, Option.isSome_none]
      have hinput' : hasInput { input := before' } p.name = false := by
        rw [← pop_fst_isSome, ht', Option.isSome_none]
      obtain rfl : i = before := congrArg Supply.input (eq_of_pop_none hs)
      obtain rfl : j = before' := congrArg Supply.input (eq_of_pop_none ht')
      simp only [resolveParam, htakes, hinput, hinput', Bool.false_eq_true, if_false]
      cases p.default with
      | some text => exact agree_runChosen ht hr htakes (inStep_give (.inl rfl) _ _) hall
      | none =>
          simp only
          split
          next =>
            split
            next => exact agree_run ht hr htakes (.lacking a b hs ht') hall
            next => exact Onward.next .absent
          next => exact Onward.stop

/-- A parameter of the issuer leaves any two inputs alone. -/
theorem agree_resolveParam_of_isIssuerOnly (ht : env.resolvers.IsStandard)
    (hr : env.resolvers.find? p.type = some r) (hissuer : r.isIssuerOnly p = true)
    (i j : Input) :
    Agree (Onward i j) (env.resolveParam invocation p r isLast i)
      (env.resolveParam invocation p r isLast j) := by
  let slot := env.slot invocation p isLast
  obtain ⟨result, hreading⟩ := ht.reading_of_isIssuerOnly slot hr hissuer
  rw [(Entry.issuer hissuer).resolveParam_eq, (Entry.issuer hissuer).resolveParam_eq,
    ht.run_eq slot hr, ht.run_eq slot hr, hreading]
  exact agree_accept slot result rfl rfl

/-! ## All parameters -/

theorem agree_resolveParams_cons {rest : List (Param × Resolver)}
    {before before' after after' : Input}
    (hparam : Agree (Onward after after')
      (env.resolveParam invocation p r
        (!r.isIssuerOnly p && rest.all fun (q, r) => r.isIssuerOnly q) before)
      (env.resolveParam invocation p r
        (!r.isIssuerOnly p && rest.all fun (q, r) => r.isIssuerOnly q) before'))
    (hrest : Agree Eq (env.resolveParams invocation rest after)
      (env.resolveParams invocation rest after')) :
    Agree Eq (env.resolveParams invocation ((p, r) :: rest) before)
      (env.resolveParams invocation ((p, r) :: rest) before') := by
  simp only [resolveParams]
  revert hparam
  generalize env.resolveParam invocation p r _ before = x
  generalize env.resolveParam invocation p r _ before' = y
  intro hparam
  cases x with
  | error e =>
      cases y with
      | error f => exact hparam
      | ok found => exact hparam.elim
  | ok found =>
      cases y with
      | error f => exact hparam.elim
      | ok found' =>
          cases hparam with
          | stop => exact rfl
          | next v => exact hrest.map fun _ _ h => congrArg (Option.map ((p.name, v) :: ·)) h

end Environment

end ChatCommands
