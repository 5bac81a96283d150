import Mathlib.Data.List.Basic
import ChatCommands.Dispatch.Dispatcher
import ChatCommands.Proofs.Resolve.Parameter

/-!
# Accounts of dispatches

The outcome of a dispatch says all that was seen of it: whether a handler was called, and which
replies were sent.  What an error says makes no difference to that unless it is meant for users.
-/

namespace ChatCommands

/-! ## What is seen -/

namespace Event

/-- The call of a handler. -/
def call? : Event → Option Call
  | called call => some call
  | replied _ _ => none

/-- A reply, and who gets it. -/
def reply? : Event → Option (Reply × User)
  | called _ => none
  | replied reply issuer => some (reply, issuer)

end Event

/-- Events consist of the given calls and of the given replies, these in any order. -/
structure Shows (events : List Event) (calls : List Call) (replies : List (Reply × User)) :
    Prop where
  calls : events.filterMap Event.call? = calls
  replies : (events.filterMap Event.reply?).Perm replies

theorem shows_nil : Shows [] [] [] :=
  ⟨rfl, .rfl⟩

theorem shows_reply (reply : Reply) (issuer : User) :
    Shows [.replied reply issuer] [] [(reply, issuer)] :=
  ⟨rfl, .rfl⟩

/-- A call, and replies to its issuer. -/
theorem shows_called (call : Call) (replies : List Reply) (issuer : User) :
    Shows (.called call :: replies.map fun reply => .replied reply issuer) [call]
      (replies.map (·, issuer)) := by
  have hcalls : (replies.map fun reply => Event.replied reply issuer).filterMap Event.call? = [] := by
    rw [List.filterMap_map, List.filterMap_eq_nil_iff]
    exact fun _ _ => rfl
  have hreplies : (replies.map fun reply => Event.replied reply issuer).filterMap Event.reply? =
      replies.map (·, issuer) := by
    rw [List.filterMap_map, ← List.filterMap_eq_map]
    rfl
  constructor
  · rw [List.filterMap_cons, hcalls, Event.call?]
  · rw [List.filterMap_cons, hreplies, Event.reply?]

/-! ## Runs of handlers -/

/-- Success, or an error that says nothing. -/
def Success.silenced : Success → Success
  | yes => yes
  | no _ => no ""

theorem Success.silenced_eq_yes {work : Success} : work.silenced = .yes ↔ work = .yes := by
  cases work <;> simp [silenced]

namespace HandlerRun

variable (run : HandlerRun)

/-- How many of the works that were left for later fail. -/
def failedWorks : Nat :=
  run.deferred.countP (· != .yes)

/-- The replies of a handler, and as many as given that tell of failures.  Those say of the
command what it is called, and nothing else. -/
def told (call : Call) (failures : Nat) : List Reply :=
  run.replies.map Reply.text ++
    List.replicate failures (Reply.error (Reply.failureText call.command.qualifiedName))

/-- The run whose errors say nothing. -/
def silenced : HandlerRun where
  replies := run.replies
  deferred := run.deferred.map Success.silenced
  succeeded := run.succeeded.silenced

theorem length_errors :
    run.errors.length = (if run.succeeded = .yes then 0 else 1) + run.failedWorks := by
  have hworks : (run.deferred.filterMap Success.error?).length = run.failedWorks := by
    rw [List.length_filterMap_eq_countP, failedWorks]
    congr 1
    funext work
    cases work <;> rfl
  rw [errors, List.length_append, hworks]
  cases run.succeeded <;> rfl

theorem length_errors_silenced : run.silenced.errors.length = run.errors.length := by
  have hworks : run.silenced.failedWorks = run.failedWorks := by
    rw [failedWorks, silenced, List.countP_map, failedWorks]
    congr 1
    funext work
    cases work <;> rfl
  rw [length_errors, length_errors, hworks]
  simp only [silenced, Success.silenced_eq_yes]

end HandlerRun

/-- Commands that differ in nothing but what the errors of their handlers say. -/
structure Command.SameButErrors (c c' : Command) : Prop where
  info : c.toCommandInfo = c'.toCommandInfo
  handler : ∀ call, (c.handler call).silenced = (c'.handler call).silenced

/-! ## Requests -/

/-- What a dispatcher is asked to do. -/
inductive Request where
  | text (raw : String)
  | options (path : String) (given : List TypedOption)

namespace Dispatcher

section Definitions

variable (d : Dispatcher) (invocation : Invocation)

/-- Dispatches a request. -/
def answer : Request → Outcome × List Event
  | .text raw => d.onText invocation raw
  | .options path given => d.onOptions invocation path given

/-- The command that a request leads to, and the input that it gets. -/
def reached : Request → Option (Command × Input)
  | .text raw =>
    if d.config.ignoreBots && invocation.issuer.bot then none
    else
      match d.route raw with
      | .notACommand => none
      | .unknown _ => none
      | .matched c rest => some (c, .text raw rest)
  | .options path given =>
    (d.catalog.routes.find? (Text.words path)).map fun c => (c, .options given)

/-- What comes of the input of a command, which is refused without its permissions. -/
def vet (c : Command) (input : Input) : Except CommandError Resolution :=
  if c.permissions.toList.all (d.environment.permissions invocation) then
    d.environment.resolve invocation c.toCommandInfo input
  else .error (.permissionDenied c.qualifiedName)

/-- What is seen of a request that leads to the given command, if to any, and that has the given
outcome. -/
def Accounts (reached : Option (Command × Input)) (events : List Event) : Outcome → Prop
  | .notACommand => reached = none ∧ Shows events [] []
  | .unknown => reached = none ∧ Shows events [] []
  | .showedUsage => ∃ c input, reached = some (c, input) ∧
      d.vet invocation c input = .ok .showUsage ∧
      Shows events [] [(.usage (Reply.usageText (d.usage c.toCommandInfo)), invocation.issuer)]
  | .rejected error => ∃ c input, reached = some (c, input) ∧
      d.vet invocation c input = .error error ∧
      Shows events [] [(.error (Reply.errorText error), invocation.issuer)]
  | .invoked => ∃ c input args, reached = some (c, input) ∧
      d.vet invocation c input = .ok (.resolved args) ∧
      let call : Call := ⟨invocation, args, c.toCommandInfo⟩
      let run := c.handler call
      run.succeeded = .yes ∧
        Shows events [call] ((run.told call run.failedWorks).map (·, invocation.issuer))
  | .handlerFailed => ∃ c input args, reached = some (c, input) ∧
      d.vet invocation c input = .ok (.resolved args) ∧
      let call : Call := ⟨invocation, args, c.toCommandInfo⟩
      let run := c.handler call
      run.succeeded ≠ .yes ∧
        Shows events [call] ((run.told call (1 + run.failedWorks)).map (·, invocation.issuer))

end Definitions

variable {d d' : Dispatcher} {invocation : Invocation} {request : Request} {c c' : Command}
  {input : Input} {args : Arguments}

theorem answer_of_reached (h : d.reached invocation request = some (c, input)) :
    d.answer invocation request = d.run invocation c input := by
  cases request with
  | text raw =>
      rw [reached] at h
      rw [answer, onText]
      by_cases hissuer : (d.config.ignoreBots && invocation.issuer.bot) = true
      · rw [if_pos hissuer] at h
        cases h
      · rw [if_neg hissuer] at h ⊢
        cases hroute : d.route raw with
        | notACommand => rw [hroute] at h; cases h
        | unknown word => rw [hroute] at h; cases h
        | matched found rest =>
            rw [hroute] at h
            obtain ⟨rfl, rfl⟩ := Prod.mk.inj (Option.some.inj h)
            rfl
  | options path given =>
      obtain ⟨found, hfound, h⟩ := Option.map_eq_some_iff.mp h
      obtain ⟨rfl, rfl⟩ := Prod.mk.inj h
      rw [answer, onOptions, hfound]

/-- A request that leads to no command has no consequences. -/
theorem answer_of_not_reached (h : d.reached invocation request = none) :
    d.answer invocation request = (.notACommand, []) ∨
      d.answer invocation request = (.unknown, []) := by
  cases request with
  | text raw =>
      rw [reached] at h
      rw [answer, onText]
      by_cases hissuer : (d.config.ignoreBots && invocation.issuer.bot) = true
      · exact .inl (if_pos hissuer)
      · rw [if_neg hissuer] at h ⊢
        cases hroute : d.route raw with
        | notACommand => exact .inl rfl
        | unknown word => exact .inr rfl
        | matched found rest => rw [hroute] at h; cases h
  | options path given =>
      rw [answer, onOptions, Option.map_eq_none_iff.mp h]
      exact .inr rfl

theorem run_eq : d.run invocation c input =
    match d.vet invocation c input with
    | .error error => reject invocation error
    | .ok .showUsage => (.showedUsage,
        [reply invocation (.usage (Reply.usageText (d.usage c.toCommandInfo)))])
    | .ok (.resolved args) => call invocation c args := by
  rw [run, vet]
  split <;> rfl

/-- All that a call brings about, told in one piece. -/
theorem call_eq : call invocation c args =
    let made : Call := ⟨invocation, args, c.toCommandInfo⟩
    let run := c.handler made
    (if run.succeeded = .yes then .invoked else .handlerFailed,
      .called made :: (run.told made run.errors.length).map (reply invocation)) := by
  simp only [call, HandlerRun.told, List.map_append, List.map_map, List.cons_append,
    ← List.map_const']
  cases (c.handler ⟨invocation, args, c.toCommandInfo⟩).succeeded <;> rfl

theorem accounts_call (hreached : d.reached invocation request = some (c, input))
    (hvet : d.vet invocation c input = .ok (.resolved args)) :
    d.Accounts invocation (d.reached invocation request) (call invocation c args).2
      (call invocation c args).1 := by
  rw [call_eq]
  have hlength := HandlerRun.length_errors (c.handler ⟨invocation, args, c.toCommandInfo⟩)
  by_cases hsucceeded : (c.handler ⟨invocation, args, c.toCommandInfo⟩).succeeded = .yes
  · rw [if_pos hsucceeded, Nat.zero_add] at hlength
    simp only [if_pos hsucceeded, hlength]
    exact ⟨c, input, args, hreached, hvet, hsucceeded, shows_called _ _ _⟩
  · rw [if_neg hsucceeded] at hlength
    simp only [if_neg hsucceeded, hlength]
    exact ⟨c, input, args, hreached, hvet, hsucceeded, shows_called _ _ _⟩

/-- Every outcome accounts for what is seen. -/
theorem accounts_answer (d : Dispatcher) (invocation : Invocation) (request : Request) :
    d.Accounts invocation (d.reached invocation request) (d.answer invocation request).2
      (d.answer invocation request).1 := by
  cases hreached : d.reached invocation request with
  | none =>
      rcases answer_of_not_reached hreached with h | h
      · rw [h]
        exact ⟨rfl, shows_nil⟩
      · rw [h]
        exact ⟨rfl, shows_nil⟩
  | some found =>
      obtain ⟨c, input⟩ := found
      rw [answer_of_reached hreached, run_eq, ← hreached]
      split
      next error hvet => exact ⟨c, input, hreached, hvet, shows_reply _ _⟩
      next hvet => exact ⟨c, input, hreached, hvet, shows_reply _ _⟩
      next args hvet => exact accounts_call hreached hvet

/-! ## What is not seen -/

theorem call_eq_of_sameButErrors (h : c.SameButErrors c') :
    call invocation c args = call invocation c' args := by
  rw [call_eq, call_eq, ← h.info]
  have hrun := h.handler ⟨invocation, args, c.toCommandInfo⟩
  have hlength := congrArg (fun run : HandlerRun => run.errors.length) hrun
  have hsucceeded := congrArg (fun run : HandlerRun => run.succeeded = .yes) hrun
  have hreplies := congrArg HandlerRun.replies hrun
  simp only [HandlerRun.length_errors_silenced] at hlength
  simp only [HandlerRun.silenced, Success.silenced_eq_yes] at hsucceeded hreplies
  simp only [HandlerRun.told, hlength, hreplies, hsucceeded]

theorem run_eq_of_sameButErrors (hconfig : d.config = d'.config)
    (henvironment : d.environment = d'.environment) (h : c.SameButErrors c') :
    d.run invocation c input = d'.run invocation c' input := by
  have hname : c.qualifiedName = c'.qualifiedName := congrArg CommandInfo.qualifiedName h.info
  have hvet : d.vet invocation c input = d'.vet invocation c' input := by
    rw [vet, vet, henvironment, hname, h.info]
  have husage : d.usage c.toCommandInfo = d'.usage c'.toCommandInfo := by
    rw [usage, usage, hconfig, henvironment, h.info]
  rw [run_eq, run_eq, hvet, husage]
  simp only [call_eq_of_sameButErrors h]

theorem answer_eq_of_rejected {error : CommandError}
    (h : (d.answer invocation request).1 = .rejected error) :
    d.answer invocation request = reject invocation error := by
  cases hreached : d.reached invocation request with
  | none =>
      rcases answer_of_not_reached hreached with h' | h' <;> rw [h'] at h <;> cases h
  | some found =>
      rw [answer_of_reached hreached, run_eq] at h ⊢
      split at h
      next => rw [Outcome.rejected.inj h]
      next => cases h
      next =>
        rw [call_eq] at h
        dsimp only at h
        split at h <;> cases h

end Dispatcher

theorem Reply.errorText_eq_of_not_isUserFacing {error error' : CommandError}
    (h : error.isUserFacing = false) (h' : error'.isUserFacing = false) :
    errorText error = errorText error' := by
  have hconst : ∀ e : CommandError, e.isUserFacing = false →
      errorText e = "Something went wrong while running this command." := by
    rintro ⟨cause, source, span, help⟩ he
    cases cause with
    | invalidArgument => cases he
    | permissionDenied => cases he
    | schema => rfl
    | registration => rfl
    | config => rfl
    | internal => rfl
  rw [hconst error h, hconst error' h']

namespace Dispatcher

/-- Every outcome accounts for what is seen of a request.  What an error says that is not meant
for users is not seen: neither is the error of a request that is rejected, nor are those of a
handler and of the works that it left for later. -/
theorem accounts (d : Dispatcher) (invocation : Invocation) (request : Request) :
    d.Accounts invocation (d.reached invocation request) (d.answer invocation request).2
        (d.answer invocation request).1 ∧
      (∀ (d' : Dispatcher) (invocation' : Invocation) (request' : Request)
          (error error' : CommandError),
        (d.answer invocation request).1 = .rejected error →
        (d'.answer invocation' request').1 = .rejected error' →
        error.isUserFacing = false → error'.isUserFacing = false →
        invocation.issuer = invocation'.issuer →
          (d.answer invocation request).2 = (d'.answer invocation' request').2) ∧
      ∀ (d' : Dispatcher) (request' : Request) (c c' : Command) (input : Input),
        d.config = d'.config → d.environment = d'.environment →
        d.reached invocation request = some (c, input) →
        d'.reached invocation request' = some (c', input) → c.SameButErrors c' →
          d.answer invocation request = d'.answer invocation request' := by
  refine ⟨accounts_answer d invocation request, ?_, ?_⟩
  · intro d' invocation' request' error error' hrejected hrejected' hinner hinner' hissuer
    rw [answer_eq_of_rejected hrejected, answer_eq_of_rejected hrejected', reject, reject, reply,
      reply, Reply.errorText_eq_of_not_isUserFacing hinner hinner', hissuer]
  · intro d' request' c c' input hconfig henvironment hreached hreached' hsame
    rw [answer_of_reached hreached, answer_of_reached hreached',
      run_eq_of_sameButErrors hconfig henvironment hsame]

/-- A command that fails with the given error, and so does one of the works that it leaves for
later. -/
def closing (error : String) : Command where
  root := "close"
  sub := []
  params := []
  description := "Closes the ledger"
  help := ""
  permissions := Dict.empty
  handler := fun _ =>
    { replies := ["Closing"], deferred := [.no error, .yes], succeeded := .no error }

/-- The draft of a command with a parameter of a type of the application. -/
def paying (path name : String) : CommandDraft where
  path
  description := "Pays a bill"
  handler := some Handler.idle
  params := [{ name, type := .named "Account" }]

/-- An application that resolves no account, and whose ledger cannot be closed. -/
def ledger (error : String) : Application where
  config := {}
  environment :=
    { Environment.painting with
      resolvers := Environment.painting.resolvers.register (.named "Account")
        ⟨.input, false, fun slot supply => (.error (.internal (.other slot.param.name)), supply)⟩ }
  groups := []
  commands :=
    [paying "pay" "payer", paying "bill" "debtor",
      { path := "close", description := "Closes the ledger",
        handler := some (closing error).handler }]

/-- The dispatcher of the application. -/
def clerk (error : String) : Dispatcher :=
  ⟨(ledger error).config, (ledger error).environment, (ledger error).catalog⟩

/-- Only the name of the command that fails is seen, twice, and nothing of two accounts that are
not resolved. -/
theorem accounts_clerk :
    (ledger "no funds").build = .ok (clerk "no funds") ∧
      Shows ((clerk "no funds").answer Environment.aside (.text "!close")).2
        [⟨Environment.aside, [], (closing "no funds").toCommandInfo⟩]
        ([.text "Closing", .error (Reply.failureText "close"),
          .error (Reply.failureText "close")].map (·, Environment.aside.issuer)) ∧
      (clerk "no funds").answer Environment.aside (.text "!close") =
        (clerk "no route").answer Environment.aside (.text "!close") ∧
      ((clerk "no funds").answer Environment.aside (.text "!pay 7")).2 =
        ((clerk "no funds").answer Environment.aside (.text "!bill 7")).2 := by
  obtain ⟨haccounts, -, hhandler⟩ := accounts (clerk "no funds") Environment.aside (.text "!close")
  obtain ⟨-, hresolver, -⟩ := accounts (clerk "no funds") Environment.aside (.text "!pay 7")
  have hfailed : ((clerk "no funds").answer Environment.aside (.text "!close")).1 =
      .handlerFailed := rfl
  have hreached : (clerk "no funds").reached Environment.aside (.text "!close") =
      some (closing "no funds", .text "!close" []) := rfl
  have hreached' : (clerk "no route").reached Environment.aside (.text "!close") =
      some (closing "no route", .text "!close" []) := rfl
  have hvet : (clerk "no funds").vet Environment.aside (closing "no funds")
      (.text "!close" []) = .ok (.resolved []) := rfl
  rw [hfailed] at haccounts
  obtain ⟨c, input, args, hfound, hargs, -, hshows⟩ := haccounts
  rw [hreached] at hfound
  obtain ⟨rfl, rfl⟩ := Prod.mk.inj (Option.some.inj hfound)
  rw [hvet] at hargs
  obtain rfl := Resolution.resolved.inj (Except.ok.inj hargs)
  refine ⟨rfl, hshows, ?_, ?_⟩
  · exact hhandler (clerk "no route") _ _ _ _ rfl rfl hreached hreached' ⟨rfl, fun _ => rfl⟩
  · exact hresolver (clerk "no funds") Environment.aside (.text "!bill 7")
      (.internal (.other "payer")) (.internal (.other "debtor")) rfl rfl rfl rfl rfl

end Dispatcher

end ChatCommands
