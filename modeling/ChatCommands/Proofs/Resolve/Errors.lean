import ChatCommands.Proofs.Resolve.Agreement
import ChatCommands.Proofs.Resolve.Conditions

/-!
# Where errors come from

An error of a resolution names the parameter that was reached: its permissions are missing,
or its argument is refused with what was left of the input when it was.  Everything else is
the fault of the library.  A refusal points into a text, and so there is nothing at which an
error could point when the input consists of options.
-/

namespace ChatCommands

namespace Environment

variable {env : Environment} {invocation : Invocation} {p : Param} {r : Resolver}
  {isLast : Bool} {e : CommandError} {I : Input → Prop}

/-! ## Kinds of errors -/

/-- An error of a parameter: its permissions are missing, the library is to blame, or an
argument is refused with what is left of the input. -/
inductive ErrorOf (p : Param) (I : Input → Prop) : CommandError → Prop where
  | denied : ErrorOf p I (.permissionDenied p.name)
  | internal (fault : InternalFault) : ErrorOf p I (.internal fault)
  | refused {s : Supply} (hleft : I s.input) (fault : ArgumentFault) :
      ErrorOf p I (s.refuse p.name fault)

theorem errorOf_settle {slot : Slot} {s : Supply} {result : Except Refusal Value}
    (hleft : I s.input) (h : (slot.settle s result).1 = .error e) : ErrorOf slot.param I e := by
  cases result with
  | ok v => cases h
  | error refusal =>
      obtain rfl := Except.error.inj h
      cases refusal with
      | argument fault => exact .refused hleft fault
      | internal fault => exact .internal fault

theorem errorOf_run {slot : Slot} {s : Supply} (reading : Reading)
    (hI : Supply.Keeps slot.param.name I) (hleft : I s.input)
    (h : (reading.run slot s).1 = .error e) : ErrorOf slot.param I e := by
  cases reading with
  | unread result => exact errorOf_settle hleft h
  | one missing judge =>
      have hpop := hI.pop hleft
      simp only [Reading.run, Slot.withPiece] at h
      split at h
      next => cases h
      next piece rest heq =>
        rw [heq] at hpop
        exact errorOf_settle hpop h
  | all judge => exact errorOf_settle (hI.popRest hleft) h

theorem errorOf_applyChoices {s : Supply} (hI : Supply.Keeps p.name I) (hleft : I s.input)
    (h : applyChoices p s = .error e) : ErrorOf p I e := by
  have hpop := hI.pop hleft
  unfold applyChoices at h
  split at h
  next => cases h
  next =>
    split at h
    next => cases h
    next piece rest heq =>
      rw [heq] at hpop
      simp only at h
      split at h
      next =>
        obtain rfl := Except.error.inj h
        exact .refused hpop _
      next => split at h <;> cases h

theorem errorOf_accept (ht : env.resolvers.IsStandard) (hr : env.resolvers.find? p.type = some r)
    {s : Supply} (hI : Supply.Keeps p.name I) (hleft : I s.input)
    (h : env.accept invocation p (r.run (env.slot invocation p isLast) s) = .error e) :
    ErrorOf p I e := by
  let slot := env.slot invocation p isLast
  have hrest : I (slot.reading.run slot s).2.input := slot.reading.keeps_run hI hleft
  rw [ht.run_eq slot hr] at h
  rcases accept_eq_error h with ⟨rest, hrun⟩ | ⟨v, rest, hrun, -, hchecked⟩
  · exact errorOf_run slot.reading hI hleft (congrArg Prod.fst hrun)
  · obtain ⟨before, use, after, -, -, ⟨-, rfl⟩ | ⟨message, -, rfl⟩⟩ :=
      checkConditions_eq_error hchecked
    · exact .internal _
    · rw [hrun] at hrest
      exact .refused hrest _

theorem errorOf_resolveParam (ht : env.resolvers.IsStandard)
    (hr : env.resolvers.find? p.type = some r) (hI : Supply.Keeps p.name I) {input : Input}
    (hleft : I input) (h : env.resolveParam invocation p r isLast input = .error e) :
    ErrorOf p I e := by
  cases way_of_resolveParam h with
  | entered hentry hrefused => exact errorOf_accept ht hr hI (hentry.keeps hI hleft) hrefused
  | refused hstart hrefused => exact errorOf_applyChoices hI (hstart.keeps hleft) hrefused
  | denied => exact .denied

/-! ## Errors without a text -/

theorem ErrorOf.unplaced (h : ErrorOf p (·.source? = none) e) : e.unplaced = e := by
  cases h with
  | denied => rfl
  | internal fault => rfl
  | @refused s hleft fault =>
      rw [s.unplaced_refuse]
      simp only [Supply.refuse, hleft]

/-- Without a text no error points anywhere. -/
theorem mapError_unplaced_resolveParams (ht : env.resolvers.IsStandard)
    {params : List (Param × Resolver)}
    (hresolvers : ∀ found ∈ params, env.resolvers.find? found.1.type = some found.2)
    {input : Input} (hinput : input.source? = none) :
    (env.resolveParams invocation params input).mapError CommandError.unplaced =
      env.resolveParams invocation params input := by
  cases hresolved : env.resolveParams invocation params input with
  | ok found => rfl
  | error e =>
      obtain ⟨p, r, rest, left, hreaches, hparam⟩ := resolveParams_eq_error.mp hresolved
      have hleft := hreaches.keeps (fun name => Supply.keeps_source? name none) ht hresolvers hinput
      have hr := hresolvers _ (hreaches.mem _ List.mem_cons_self)
      exact congrArg Except.error
        (errorOf_resolveParam ht hr (Supply.keeps_source? p.name none) hleft hparam).unplaced

end Environment

end ChatCommands
