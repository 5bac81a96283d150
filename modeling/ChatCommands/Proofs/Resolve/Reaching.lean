import ChatCommands.Proofs.Resolve.Parameter

/-!
# How far a resolution gets

A resolution works its way along the parameters, each of which takes its part of the
input.  It fails exactly where it reaches a parameter that fails.
-/

namespace ChatCommands.Environment

/-- Whether a parameter is the last one that takes input. -/
def isLastOf (p : Param) (r : Resolver) (rest : List (Param × Resolver)) : Bool :=
  !r.isIssuerOnly p && rest.all fun (q, r) => r.isIssuerOnly q

/-- A resolution of some parameters gets to others, with the input that the ones
before them have left. -/
inductive Reaches (env : Environment) (invocation : Invocation) :
    List (Param × Resolver) → Input → List (Param × Resolver) → Input → Prop where
  | here (params : List (Param × Resolver)) (input : Input) :
      Reaches env invocation params input params input
  | later {p : Param} {r : Resolver} {rest remaining : List (Param × Resolver)}
      {input after left : Input} {v : Value}
      (hparam : env.resolveParam invocation p r (isLastOf p r rest) input = .ok (some (v, after)))
      (hrest : Reaches env invocation rest after remaining left) :
      Reaches env invocation ((p, r) :: rest) input remaining left

variable {env : Environment} {invocation : Invocation} {params remaining : List (Param × Resolver)}
  {input left : Input} {e : CommandError}

theorem Reaches.mem (h : env.Reaches invocation params input remaining left) :
    ∀ found ∈ remaining, found ∈ params := by
  induction h with
  | here params input => exact fun found hfound => hfound
  | later _ _ ih => exact fun found hfound => List.mem_cons_of_mem _ (ih found hfound)

theorem Reaches.keeps {I : Input → Prop} (hI : ∀ name, Supply.Keeps name I)
    (ht : env.resolvers.IsStandard) (h : env.Reaches invocation params input remaining left)
    (hresolvers : ∀ found ∈ params, env.resolvers.find? found.1.type = some found.2)
    (hinput : I input) : I left := by
  induction h with
  | here params input => exact hinput
  | later hparam _ ih =>
      have hr := hresolvers _ List.mem_cons_self
      exact ih (fun found hfound => hresolvers found (List.mem_cons_of_mem _ hfound))
        (keeps_of_resolveParam (hI _) ht hr hinput hparam)

/-! ## Where a resolution halts -/

/-- The outcome of a resolution that halts at a parameter: with an error, or because the
parameter needs input and got none. -/
def halted {α : Type} : Option CommandError → Except CommandError (Option α)
  | some e => .error e
  | none => .ok none

theorem resolveParams_cons_eq_halted {p : Param} {r : Resolver} {rest : List (Param × Resolver)}
    {cause : Option CommandError} :
    env.resolveParams invocation ((p, r) :: rest) input = halted cause ↔
      env.resolveParam invocation p r (isLastOf p r rest) input = halted cause ∨
        ∃ v after,
          env.resolveParam invocation p r (isLastOf p r rest) input = .ok (some (v, after)) ∧
            env.resolveParams invocation rest after = halted cause := by
  simp only [resolveParams, isLastOf]
  split
  next e' hparam => cases cause <;> simp [hparam, halted]
  next hparam => cases cause <;> simp [hparam, halted]
  next v after hparam =>
    rw [hparam]
    cases hrest : env.resolveParams invocation rest after with
    | error e' => cases cause <;> simp [Except.map, halted, hrest]
    | ok found => cases cause <;> simp [Except.map, halted, hrest]

/-- A resolution halts exactly where it reaches a parameter that halts. -/
theorem resolveParams_eq_halted (cause : Option CommandError) :
    env.resolveParams invocation params input = halted cause ↔
      ∃ p r rest left, env.Reaches invocation params input ((p, r) :: rest) left ∧
        env.resolveParam invocation p r (isLastOf p r rest) left = halted cause := by
  constructor
  · intro h
    induction params generalizing input with
    | nil => cases cause <;> cases h
    | cons found rest ih =>
        obtain ⟨p, r⟩ := found
        rcases resolveParams_cons_eq_halted.mp h with hparam | ⟨v, after, hparam, hrest⟩
        · exact ⟨p, r, rest, input, .here _ _, hparam⟩
        · obtain ⟨q, s, others, left, hreaches, hq⟩ := ih hrest
          exact ⟨q, s, others, left, .later hparam hreaches, hq⟩
  · rintro ⟨p, r, rest, left, hreaches, hhalts⟩
    generalize hremaining : (p, r) :: rest = remaining at hreaches
    induction hreaches with
    | here params input =>
        rw [← hremaining]
        exact resolveParams_cons_eq_halted.mpr (.inl hhalts)
    | later hparam _ ih =>
        exact resolveParams_cons_eq_halted.mpr (.inr ⟨_, _, hparam, ih hhalts hremaining⟩)

/-- An error is one of a parameter that was reached. -/
theorem resolveParams_eq_error :
    env.resolveParams invocation params input = .error e ↔
      ∃ p r rest left, env.Reaches invocation params input ((p, r) :: rest) left ∧
        env.resolveParam invocation p r (isLastOf p r rest) left = .error e :=
  resolveParams_eq_halted (some e)

/-- Input is missing for a parameter that was reached. -/
theorem resolveParams_eq_none :
    env.resolveParams invocation params input = .ok none ↔
      ∃ p r rest left, env.Reaches invocation params input ((p, r) :: rest) left ∧
        env.resolveParam invocation p r (isLastOf p r rest) left = .ok none :=
  resolveParams_eq_halted none

/-! ## Resolutions that succeed -/

/-- A successful resolution reaches every parameter, and the argument in its place is
the value that the parameter gets there. -/
theorem exists_reaches_of_resolveParams {args : Arguments}
    (h : env.resolveParams invocation params input = .ok (some args)) {k : Nat} {p : Param}
    {r : Resolver} (hk : params[k]? = some (p, r)) :
    ∃ rest left v after, params.drop k = (p, r) :: rest ∧
      env.Reaches invocation params input (params.drop k) left ∧
      env.resolveParam invocation p r (isLastOf p r rest) left = .ok (some (v, after)) ∧
      args[k]? = some (p.name, v) := by
  induction params generalizing k input args with
  | nil => cases hk
  | cons found rest ih =>
      obtain ⟨q, s⟩ := found
      obtain ⟨v, after, others, hparam, hrest, rfl⟩ := resolveParams_cons_eq_ok h
      cases k with
      | zero =>
          obtain ⟨rfl, rfl⟩ : q = p ∧ s = r := by simpa using hk
          exact ⟨rest, input, v, after, rfl, .here _ _, hparam, rfl⟩
      | succ k =>
          obtain ⟨remaining, left, w, last, hdrop, hreaches, hvalue, harg⟩ := ih hrest hk
          exact ⟨remaining, left, w, last, hdrop, .later hparam hreaches, hvalue, harg⟩

end ChatCommands.Environment
