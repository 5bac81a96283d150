import ChatCommands.Dispatch.Dispatcher
import ChatCommands.Proofs.Resolve.Choices

/-!
# Conditions as gates

A parameter names its conditions, and a value passes them in the order in which they are
named.  Wherever a value comes from, from the invocation, from the default or from a choice
as well as from what was typed, it gets no further than the first condition that it does not
meet.  What the resolvers do does not matter for that.
-/

namespace ChatCommands

/-! ## The conditions of one value -/

namespace Environment

variable {env : Environment} {invocation : Invocation} {p : Param} {r : Resolver}
  {isLast : Bool} {v : Value} {e : CommandError}

/-- A value meets a condition that is in the table. -/
def Meets (env : Environment) (invocation : Invocation) (p : Param) (v : Value)
    (use : ConditionUse) : Prop :=
  ∃ condition, env.conditions.find? use.name = some condition ∧
    condition invocation p use.config v = none

/-- A condition that is in the table rejects a value with a message. -/
def Rejects (env : Environment) (invocation : Invocation) (p : Param) (v : Value)
    (use : ConditionUse) (message : String) : Prop :=
  ∃ condition, env.conditions.find? use.name = some condition ∧
    condition invocation p use.config v = some message

/-- The first of the conditions of a parameter that a value does not meet rejects it. -/
def FailsFirst (env : Environment) (invocation : Invocation) (p : Param) (v : Value)
    (condition message : String) : Prop :=
  ∃ before use after, p.conditions = before ++ use :: after ∧
    (∀ earlier ∈ before, env.Meets invocation p v earlier) ∧
    use.name = condition ∧ env.Rejects invocation p v use message

theorem checkConditions_eq_ok_iff {s : Supply} {uses : List ConditionUse} :
    env.checkConditions invocation p s v uses = .ok () ↔
      ∀ use ∈ uses, env.Meets invocation p v use := by
  induction uses with
  | nil => simp [checkConditions]
  | cons use rest ih =>
      rw [checkConditions, List.forall_mem_cons, ← ih]
      split
      next hnone => simp [Meets, hnone]
      next condition hfind =>
        split
        next message hmessage => simp [Meets, hfind, hmessage]
        next hmet => simp [Meets, hfind, hmet]

/-- Conditions are tried until the first that is not met, which is not in the table or
rejects the value. -/
theorem checkConditions_eq_error {s : Supply} {uses : List ConditionUse}
    (h : env.checkConditions invocation p s v uses = .error e) :
    ∃ before use after, uses = before ++ use :: after ∧
      (∀ earlier ∈ before, env.Meets invocation p v earlier) ∧
      (env.conditions.find? use.name = none ∧ e = .internal (.unregisteredCondition use.name) ∨
        ∃ message, env.Rejects invocation p v use message ∧
          e = s.refuse p.name (.conditionFailed use.name message)) := by
  induction uses with
  | nil => cases h
  | cons use rest ih =>
      rw [checkConditions] at h
      split at h
      next hnone => exact ⟨[], use, rest, rfl, by simp, .inl ⟨hnone, (Except.error.inj h).symm⟩⟩
      next condition hfind =>
        split at h
        next message hmessage =>
          have hrejects : env.Rejects invocation p v use message := ⟨condition, hfind, hmessage⟩
          exact ⟨[], use, rest, rfl, by simp, .inr ⟨message, hrejects, (Except.error.inj h).symm⟩⟩
        next hmet =>
          obtain ⟨before, failing, after, rfl, hbefore, hcause⟩ := ih h
          refine ⟨use :: before, failing, after, rfl, ?_, hcause⟩
          exact List.forall_mem_cons.mpr ⟨⟨condition, hfind, hmet⟩, hbefore⟩

/-! ## One parameter -/

theorem meets_of_accept {outcome : Except CommandError Value × Supply} {after : Input}
    (h : env.accept invocation p outcome = .ok (some (v, after))) (hne : v ≠ .absent) :
    ∀ use ∈ p.conditions, env.Meets invocation p v use := by
  obtain ⟨rest, rfl, -⟩ := accept_eq_some h
  have hpresent : v.isAbsent = false := by
    cases v with
    | absent => exact absurd rfl hne
    | _ => rfl
  simp only [accept, hpresent, Bool.false_eq_true, if_false] at h
  obtain ⟨⟨⟩, hchecked, -⟩ := map_eq_ok.mp h
  exact checkConditions_eq_ok_iff.mp hchecked

theorem accept_of_error {outcome : Except CommandError Value × Supply}
    (h : outcome.1 = .error e) : env.accept invocation p outcome = .error e := by
  obtain ⟨result, s⟩ := outcome
  obtain rfl : result = .error e := h
  rfl

theorem accept_eq_error {outcome : Except CommandError Value × Supply}
    (h : env.accept invocation p outcome = .error e) :
    (∃ rest, outcome = (.error e, rest)) ∨
      ∃ v rest, outcome = (.ok v, rest) ∧ v ≠ .absent ∧
        env.checkConditions invocation p rest v p.conditions = .error e := by
  unfold accept at h
  split at h
  next error rest => exact .inl ⟨rest, by rw [Except.error.inj h]⟩
  next v rest =>
    split at h
    next => cases h
    next hpresent =>
      refine .inr ⟨v, rest, rfl, ?_, ?_⟩
      · rintro rfl
        exact hpresent rfl
      · cases hchecked : env.checkConditions invocation p rest v p.conditions with
        | ok _ =>
            rw [hchecked] at h
            cases h
        | error error =>
            rw [hchecked] at h
            rw [← Except.error.inj h]

/-- Whichever way a parameter got a value, the value is absent or meets its conditions. -/
theorem meets_of_resolveParam {input after : Input}
    (h : env.resolveParam invocation p r isLast input = .ok (some (v, after)))
    (hne : v ≠ .absent) : ∀ use ∈ p.conditions, env.Meets invocation p v use := by
  cases way_of_resolveParam h with
  | entered _ haccept => exact meets_of_accept haccept hne
  | absent => exact absurd rfl hne

/-- An error of a parameter is the answer of its resolver, or comes from the conditions on
the value of the resolver, from the choices or from the permissions. -/
theorem resolveParam_eq_error {input : Input}
    (h : env.resolveParam invocation p r isLast input = .error e) :
    (∃ supply rest, Entry env invocation p r input supply ∧
        r.run (env.slot invocation p isLast) supply = (.error e, rest)) ∨
      (∃ supply v rest, Entry env invocation p r input supply ∧
        r.run (env.slot invocation p isLast) supply = (.ok v, rest) ∧ v ≠ .absent ∧
        env.checkConditions invocation p rest v p.conditions = .error e) ∨
      (∃ supply, applyChoices p supply = .error e) ∨ e = .permissionDenied p.name := by
  cases way_of_resolveParam h with
  | entered hentry haccept =>
      rcases accept_eq_error haccept with ⟨rest, hrun⟩ | ⟨v, rest, hrun, hne, hchecked⟩
      · exact .inl ⟨_, rest, hentry, hrun⟩
      · exact .inr (.inl ⟨_, v, rest, hentry, hrun, hne, hchecked⟩)
  | refused _ hrefused => exact .inr (.inr (.inl ⟨_, hrefused⟩))
  | denied => exact .inr (.inr (.inr rfl))

/-- The choices of a parameter refuse what is no choice. -/
theorem cause_of_applyChoices {s : Supply} (h : applyChoices p s = .error e) :
    ∃ text labels, e.cause = .invalidArgument p.name (.notAChoice text labels) := by
  unfold applyChoices at h
  split at h
  next => cases h
  next =>
    split at h
    next => cases h
    next piece rest hpop =>
      simp only at h
      split at h
      next =>
        rw [← Except.error.inj h]
        exact ⟨_, _, rest.cause_refuse _ _⟩
      next => split at h <;> cases h

/-- A failed condition that no resolver made up is the first that the value of the
resolver does not meet. -/
theorem failsFirst_of_resolveParam {input : Input} {parameter condition message : String}
    (h : env.resolveParam invocation p r isLast input = .error e)
    (hcause : e.cause = .invalidArgument parameter (.conditionFailed condition message)) :
    (∃ supply rest, Entry env invocation p r input supply ∧
        r.run (env.slot invocation p isLast) supply = (.error e, rest)) ∨
      ∃ supply v rest, Entry env invocation p r input supply ∧
        r.run (env.slot invocation p isLast) supply = (.ok v, rest) ∧ v ≠ .absent ∧
        p.name = parameter ∧ env.FailsFirst invocation p v condition message := by
  rcases resolveParam_eq_error h with
    hown | ⟨supply, v, rest, hentry, hrun, hne, hchecked⟩ | ⟨supply, hrefused⟩ | rfl
  · exact .inl hown
  · obtain ⟨before, use, after, hsplit, hbefore, hlast⟩ := checkConditions_eq_error hchecked
    rcases hlast with ⟨-, rfl⟩ | ⟨told, hrejects, rfl⟩
    · cases hcause
    · rw [Supply.cause_refuse] at hcause
      obtain ⟨rfl, rfl, rfl⟩ : p.name = parameter ∧ use.name = condition ∧ told = message := by
        simpa using hcause
      exact .inr ⟨supply, v, rest, hentry, hrun, hne, rfl,
        before, use, after, hsplit, hbefore, rfl, hrejects⟩
  · obtain ⟨text, labels, hother⟩ := cause_of_applyChoices hrefused
    rw [hother] at hcause
    simp at hcause
  · cases hcause

/-! ## All parameters -/

/-- Arguments that are absent or meet the conditions of their parameters, one for each
parameter and under its name. -/
def AreVetted (env : Environment) (invocation : Invocation) (params : List Param)
    (args : Arguments) : Prop :=
  List.Forall₂ (fun p arg => arg.1 = p.name ∧
    (arg.2 ≠ .absent → ∀ use ∈ p.conditions, env.Meets invocation p arg.2 use)) params args

theorem areVetted_of_resolveParams {params : List (Param × Resolver)} {input : Input}
    {args : Arguments} (h : env.resolveParams invocation params input = .ok (some args)) :
    env.AreVetted invocation (params.map (·.1)) args := by
  induction params generalizing input args with
  | nil =>
      obtain rfl : [] = args := by simpa [resolveParams] using h
      exact .nil
  | cons found rest ih =>
      obtain ⟨v, after, others, hparam, hrest, rfl⟩ := resolveParams_cons_eq_ok h
      exact .cons ⟨rfl, meets_of_resolveParam hparam⟩ (ih hrest)

theorem areVetted_of_resolve {c : CommandInfo} {input : Input} {args : Arguments}
    (h : env.resolve invocation c input = .ok (.resolved args)) :
    env.AreVetted invocation c.params args := by
  obtain ⟨params, hparams, hresolved⟩ := resolve_eq_ok h
  rw [← map_fst_of_mapM hparams]
  exact areVetted_of_resolveParams hresolved

theorem Reaches.exists_drop {params remaining : List (Param × Resolver)} {input left : Input}
    (h : env.Reaches invocation params input remaining left) : ∃ k, params.drop k = remaining := by
  induction h with
  | here => exact ⟨0, rfl⟩
  | later _ _ ih =>
      obtain ⟨k, hk⟩ := ih
      exact ⟨k + 1, hk⟩

theorem TurnOf.getElem? {c : CommandInfo} {input left : Input} {k : Nat}
    (h : env.TurnOf invocation c input k p r isLast left) : c.params[k]? = some p := by
  obtain ⟨params, rest, hparams, hdrop, -, -⟩ := h
  have hk : params[k]? = some (p, r) := by rw [← List.head?_drop, hdrop, List.head?_cons]
  rw [← map_fst_of_mapM hparams, List.getElem?_map, hk]
  rfl

/-- The answer of the resolver of a parameter, which stands in a place of a command and got
its turn. -/
def Answers (env : Environment) (invocation : Invocation) (c : CommandInfo) (input : Input)
    (k : Nat) (p : Param) (answer : Except CommandError Value) : Prop :=
  ∃ r isLast left supply rest, env.TurnOf invocation c input k p r isLast left ∧
    Entry env invocation p r left supply ∧
    r.run (env.slot invocation p isLast) supply = (answer, rest)

theorem Answers.getElem? {c : CommandInfo} {input : Input} {k : Nat}
    {answer : Except CommandError Value} (h : env.Answers invocation c input k p answer) :
    c.params[k]? = some p := by
  obtain ⟨_, _, _, _, _, hturn, -⟩ := h
  exact hturn.getElem?

/-- A resolver that answers with an error ends the call with it. -/
theorem resolve_eq_error_of_answers {c : CommandInfo} {input : Input} {k : Nat}
    (h : env.Answers invocation c input k p (.error e)) :
    env.resolve invocation c input = .error e := by
  obtain ⟨r, _, left, supply, after, hturn, hentry, hrun⟩ := h
  obtain ⟨params, rest, hparams, hdrop, hreaches, rfl⟩ := hturn
  have hparam : env.resolveParam invocation p r (isLastOf p r rest) left = .error e := by
    rw [hentry.resolveParam_eq, hrun]
    rfl
  exact (resolve_eq_error hparams).mpr
    (resolveParams_eq_error.mpr ⟨p, r, rest, left, hdrop ▸ hreaches, hparam⟩)

theorem exists_internal_of_mapM {params : List Param}
    (h : params.mapM env.withResolver = .error e) : ∃ fault, e = .internal fault := by
  induction params with
  | nil => cases h
  | cons p rest ih =>
      cases hfirst : env.withResolver p with
      | error error =>
          rw [List.mapM_cons, hfirst] at h
          unfold withResolver at hfirst
          split at hfirst
          next => cases hfirst
          next =>
            cases hfirst
            exact ⟨_, (Except.error.inj h).symm⟩
      | ok found =>
          cases hrest : rest.mapM env.withResolver with
          | error error =>
              rw [List.mapM_cons, hfirst, hrest] at h
              exact ih (hrest.trans h)
          | ok others =>
              rw [List.mapM_cons, hfirst, hrest] at h
              cases h

/-- A call that fails otherwise than by an internal fault fails at the turn of a parameter. -/
theorem exists_turn_of_resolve {c : CommandInfo} {input : Input}
    (h : env.resolve invocation c input = .error e) :
    (∃ fault, e = .internal fault) ∨
      ∃ k p r isLast left, env.TurnOf invocation c input k p r isLast left ∧
        env.resolveParam invocation p r isLast left = .error e := by
  cases hparams : c.params.mapM env.withResolver with
  | error error =>
      obtain ⟨fault, rfl⟩ := exists_internal_of_mapM hparams
      rw [resolve, hparams] at h
      exact .inl ⟨fault, (Except.error.inj h).symm⟩
  | ok params =>
      obtain ⟨p, r, rest, left, hreaches, hparam⟩ :=
        resolveParams_eq_error.mp ((resolve_eq_error hparams).mp h)
      obtain ⟨k, hdrop⟩ := hreaches.exists_drop
      have hturn : env.TurnOf invocation c input k p r (isLastOf p r rest) left :=
        ⟨params, rest, hparams, hdrop, hdrop ▸ hreaches, rfl⟩
      exact .inr ⟨k, p, r, _, left, hturn, hparam⟩

/-- A call that fails a condition fails the first that the value of the named parameter does
not meet, unless the failure is the answer of a resolver. -/
theorem failsFirst_of_resolve {c : CommandInfo} {input : Input}
    {parameter condition message : String} (h : env.resolve invocation c input = .error e)
    (hcause : e.cause = .invalidArgument parameter (.conditionFailed condition message))
    (hresolvers : ∀ k p, ¬ env.Answers invocation c input k p (.error e)) :
    ∃ k p v, env.Answers invocation c input k p (.ok v) ∧ v ≠ .absent ∧ p.name = parameter ∧
      env.FailsFirst invocation p v condition message := by
  rcases exists_turn_of_resolve h with ⟨fault, rfl⟩ | ⟨k, p, r, isLast, left, hturn, hparam⟩
  · cases hcause
  · rcases failsFirst_of_resolveParam hparam hcause with
      ⟨supply, after, hentry, hrun⟩ | ⟨supply, v, after, hentry, hrun, hne, hname, hfails⟩
    · exact absurd ⟨r, isLast, left, supply, after, hturn, hentry, hrun⟩ (hresolvers k p)
    · exact ⟨k, p, v, ⟨r, isLast, left, supply, after, hturn, hentry, hrun⟩, hne, hname, hfails⟩

end Environment

/-! ## Calls of handlers -/

namespace Dispatcher

variable {d : Dispatcher} {invocation : Invocation}

/-- Handlers are only called for an invocation, and with arguments that meet the conditions
of their parameters. -/
def OnlyCallsVetted (d : Dispatcher) (invocation : Invocation) (events : List Event) : Prop :=
  ∀ call, .called call ∈ events → call.invocation = invocation ∧
    d.environment.AreVetted invocation call.command.params call.args

theorem eq_of_mem_call {c : Command} {args : Arguments} {made : Call}
    (h : .called made ∈ (call invocation c args).2) : made = ⟨invocation, args, c.toCommandInfo⟩ := by
  simpa [call, report, reply, List.mem_append, List.mem_map] using h

/-- A handler is called behind a resolution of its arguments. -/
theorem onlyCallsVetted_run (c : Command) (input : Input) :
    d.OnlyCallsVetted invocation (d.run invocation c input).2 := by
  intro made hmade
  unfold run at hmade
  split at hmade
  next =>
    split at hmade
    next => simp [reject, reply] at hmade
    next => simp [reply] at hmade
    next args hresolved =>
      rw [eq_of_mem_call hmade]
      exact ⟨rfl, Environment.areVetted_of_resolve hresolved⟩
  next => simp [reject, reply] at hmade

theorem onlyCallsVetted_onText (raw : String) :
    d.OnlyCallsVetted invocation (d.onText invocation raw).2 := by
  unfold onText
  split
  next => simp [OnlyCallsVetted]
  next =>
    split
    next => simp [OnlyCallsVetted]
    next => simp [OnlyCallsVetted]
    next c rest _ => exact onlyCallsVetted_run c _

theorem onlyCallsVetted_onOptions (path : String) (given : List TypedOption) :
    d.OnlyCallsVetted invocation (d.onOptions invocation path given).2 := by
  unfold onOptions
  split
  next => simp [OnlyCallsVetted]
  next c _ => exact onlyCallsVetted_run c _

end Dispatcher

namespace Environment

open Resolve

/-- Arguments of a resolved call are absent or meet the conditions of their parameters, a
failed condition that no resolver answers itself is the first that the value of its parameter
does not meet, and no handler is called with a value that a condition rejects. -/
theorem conditions_gate (env : Environment) (invocation : Invocation) :
    (∀ c input args, env.resolve invocation c input = .ok (.resolved args) →
      env.AreVetted invocation c.params args) ∧
    (∀ c input e parameter condition message, env.resolve invocation c input = .error e →
      e.cause = .invalidArgument parameter (.conditionFailed condition message) →
      (∀ k p, ¬ env.Answers invocation c input k p (.error e)) →
      ∃ k p v, c.params[k]? = some p ∧ env.Answers invocation c input k p (.ok v) ∧
        v ≠ .absent ∧ p.name = parameter ∧ env.FailsFirst invocation p v condition message) ∧
    ∀ d : Dispatcher, d.environment = env →
      (∀ raw, d.OnlyCallsVetted invocation (d.onText invocation raw).2) ∧
      ∀ path given, d.OnlyCallsVetted invocation (d.onOptions invocation path given).2 := by
  refine ⟨?_, ?_, ?_⟩
  · exact fun c input args h => areVetted_of_resolve h
  · intro c input e parameter condition message h hcause hresolvers
    obtain ⟨k, p, v, hanswers, hne, hname, hfails⟩ := failsFirst_of_resolve h hcause hresolvers
    exact ⟨k, p, v, hanswers.getElem?, hanswers, hne, hname, hfails⟩
  · rintro d -
    exact ⟨d.onlyCallsVetted_onText, d.onlyCallsVetted_onOptions⟩

/-- A parameter with two conditions. -/
def target : Param :=
  ⟨"who", .user, false, none, Dict.ofList [("other", "")], Dict.empty, [],
    [⟨"not-self", none⟩, ⟨"not-bot", none⟩], none, none, none, none, none⟩

/-- The draft of a command with the parameter. -/
def kick : CommandDraft where
  path := "kick"
  description := "Kicks"
  handler := some Handler.idle
  params :=
    [{ name := "who", type := .user, flags := ["other"],
       conditions := some "not-self | not-bot" }]

/-- The environment with a user who meets both conditions and one who fails the second. -/
def staffed : Environment :=
  ofWorld ⟨[⟨42, "boss", false⟩, ⟨43, "robo", true⟩], [], [], [], []⟩ []

/-- What the issuer typed. -/
def typed (name : String) : Input :=
  .text name [⟨name, ⟨0, name.utf8ByteSize⟩⟩]

/-- The resolver of the parameter finds the user and so has no error of its own. -/
theorem not_answers_kick {c : CommandInfo} (hparams : c.params = [target]) (k : Nat) (p : Param)
    (e : CommandError) : ¬ staffed.Answers aside c (typed "robo") k p (.error e) := by
  rintro ⟨r, isLast, left, supply, rest, ⟨params, others, hmapM, hdrop, hreaches, -⟩, hentry, hrun⟩
  have honly : c.params.mapM staffed.withResolver =
      .ok [(target, orAbsent .issuerUnlessOther user)] := by
    rw [hparams]
    rfl
  obtain rfl : [(target, orAbsent .issuerUnlessOther user)] = params :=
    Except.ok.inj (honly.symm.trans hmapM)
  cases k with
  | succ k => cases k <;> cases hdrop
  | zero =>
      cases hdrop
      cases hreaches with
      | later _ hrest => cases hrest
      | here =>
          cases hentry with
          | issuer hissuer => cases hissuer
          | bare _ hinput => cases hinput
          | chosen hstart hchosen =>
              cases hstart with
              | default _ hinput => cases hinput
              | given =>
                  cases hchosen
                  cases isLast <;> cases hrun

/-- The one who fails the second condition is refused, the other one let through. -/
theorem conditions_gate_kick :
    ∃ c, kick.build = .ok c ∧ c.params = [target] ∧
      (∃ e, staffed.resolve aside c.toCommandInfo (typed "robo") = .error e ∧
        e.cause = .invalidArgument "who" (.conditionFailed "not-bot" "robo is a bot.") ∧
        ∃ v, staffed.FailsFirst aside target v "not-bot" "robo is a bot.") ∧
      staffed.resolve aside c.toCommandInfo (typed "boss") =
        .ok (.resolved [("who", .user ⟨42, "boss", false⟩)]) ∧
      staffed.AreVetted aside c.params [("who", .user ⟨42, "boss", false⟩)] := by
  have hok : (kick.build.map fun c => (c.params,
      staffed.resolve aside c.toCommandInfo (typed "robo"),
      staffed.resolve aside c.toCommandInfo (typed "boss"))) =
    .ok ([target], .error ((CommandError.invalidArgument "who"
        (.conditionFailed "not-bot" "robo is a bot.")).located "robo" ⟨0, 4⟩),
      .ok (.resolved [("who", .user ⟨42, "boss", false⟩)])) := rfl
  obtain ⟨c, hbuild, h⟩ := map_eq_ok.mp hok
  obtain ⟨hparams, h⟩ := Prod.mk.inj h
  obtain ⟨hfails, hresolves⟩ := Prod.mk.inj h
  obtain ⟨hvetted, hfirst, -⟩ := conditions_gate staffed aside
  obtain ⟨k, p, v, hp, -, -, -, hrejected⟩ :=
    hfirst _ _ _ _ _ _ hfails rfl fun k p => not_answers_kick hparams k p _
  obtain rfl : p = target := by
    rw [hparams] at hp
    exact List.mem_singleton.mp (List.mem_of_getElem? hp)
  exact ⟨c, hbuild, hparams, ⟨_, hfails, rfl, v, hrejected⟩, hresolves, hvetted _ _ _ hresolves⟩

end Environment

end ChatCommands
