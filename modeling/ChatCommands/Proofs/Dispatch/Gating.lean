import ChatCommands.Dispatch.Dispatcher
import ChatCommands.Proofs.Resolve.Permission

/-!
# Permissions as gates

Permissions are asked for in two places.  A dispatcher asks for those of a command before it
looks at any input, and a resolution asks for those of a parameter before it looks at the
input of the parameter.
-/

namespace ChatCommands

namespace Dispatcher

variable {d : Dispatcher} {invocation : Invocation} {c : Command}

/-- Some permission of a command is not granted. -/
def Bars (d : Dispatcher) (invocation : Invocation) (c : Command) : Prop :=
  ∃ permission ∈ c.permissions.toList, d.environment.permissions invocation permission = false

/-- Whatever the input, a call of a command that is barred is rejected. -/
theorem run_of_bars (h : d.Bars invocation c) (input : Input) :
    d.run invocation c input =
      reject invocation (.permissionDenied c.qualifiedName) := by
  obtain ⟨permission, hmem, hfalse⟩ := h
  have hall : c.permissions.toList.all (d.environment.permissions invocation) = false := by
    rw [List.all_eq_false]
    exact ⟨permission, hmem, by rw [hfalse]; exact Bool.false_ne_true⟩
  rw [run, hall]
  exact if_neg Bool.false_ne_true

/-- What is told when a call is rejected, and nothing else. -/
theorem not_called_of_mem_reject {error : CommandError} {event : Event}
    (h : event ∈ (reject invocation error).2) (call : Call) : event ≠ .called call := by
  rw [List.mem_singleton.mp h]
  exact fun hcalled => by cases hcalled

/-- A dispatcher keeps an invocation out of a command: messages that lead to it come to the
same whatever words follow, structured calls of it come to the same whatever options they
have, and its handler is not called. -/
structure KeepsOut (d : Dispatcher) (invocation : Invocation) (c : Command) : Prop where
  text : ∀ {raw raw' rest rest'}, d.route raw = .matched c rest → d.route raw' = .matched c rest' →
    d.onText invocation raw = d.onText invocation raw'
  options : ∀ {path path'}, d.catalog.routes.find? (Text.words path) = some c →
    d.catalog.routes.find? (Text.words path') = some c → ∀ given given',
      d.onOptions invocation path given = d.onOptions invocation path' given'
  uncalled : ∀ {raw rest}, d.route raw = .matched c rest →
    ∀ call, .called call ∉ (d.onText invocation raw).2
  uncalledOptions : ∀ {path}, d.catalog.routes.find? (Text.words path) = some c →
    ∀ given call, .called call ∉ (d.onOptions invocation path given).2

theorem keepsOut_of_bars (h : d.Bars invocation c) : d.KeepsOut invocation c := by
  have htext : ∀ {raw rest}, d.route raw = .matched c rest → d.onText invocation raw =
      if d.config.ignoreBots && invocation.issuer.bot then (.notACommand, [])
      else reject invocation (.permissionDenied c.qualifiedName) := by
    intro raw rest hroute
    rw [onText, hroute]
    simp only [run_of_bars h]
  have hoptions : ∀ {path}, d.catalog.routes.find? (Text.words path) = some c → ∀ given,
      d.onOptions invocation path given =
        reject invocation (.permissionDenied c.qualifiedName) := by
    intro path hfind given
    rw [onOptions, hfind]
    exact run_of_bars h _
  constructor
  case text =>
    intro raw raw' rest rest' hroute hroute'
    rw [htext hroute, htext hroute']
  case options =>
    intro path path' hfind hfind' given given'
    rw [hoptions hfind, hoptions hfind']
  case uncalled =>
    intro raw rest hroute call
    rw [htext hroute]
    split
    · exact List.not_mem_nil
    · exact fun hmem => not_called_of_mem_reject hmem call rfl
  case uncalledOptions =>
    intro path hfind given call
    rw [hoptions hfind]
    exact fun hmem => not_called_of_mem_reject hmem call rfl

end Dispatcher

namespace Environment

variable {env : Environment} {enums : List (String × List String)} {c : Command} {k : Nat}
  {p : Param} {invocation : Invocation}

/-- Without its permissions, a parameter that takes input gets none: a call that is resolved
reached it without input, and the values of its options make no difference to any call.  A
dispatcher keeps an invocation without the permissions of a command out of it. -/
theorem permissions_gate (hresolvers : env.resolvers = .withEnums enums) (hc : c.IsDeclared)
    (hp : c.params[k]? = some p) (htakes : env.resolvers.isIssuerOnly p = false)
    (hdenies : env.Denies invocation p) :
    (∀ input args, env.resolve invocation c.toCommandInfo input = .ok (.resolved args) →
      ∃ r isLast left v, env.TurnOf invocation c.toCommandInfo input k p r isLast left ∧
        left.Lacks p.name ∧ (∀ given, input = .options given → input.Lacks p.name) ∧
        args[k]? = some (p.name, v) ∧ (v = .absent ∨ env.IsOfDefault invocation p r isLast v)) ∧
    (∀ given given', List.Forall₂ (fun a b => a.name = b.name ∧
        (Text.asciiEq a.name p.name = false → a.value = b.value)) given given' →
      env.resolve invocation c.toCommandInfo (.options given) =
        env.resolve invocation c.toCommandInfo (.options given')) ∧
    ∀ (d : Dispatcher) (invocation : Invocation) (c : Command), d.Bars invocation c →
      d.KeepsOut invocation c := by
  have ht : env.resolvers.IsStandard := hresolvers ▸ ResolverTable.isStandard_withEnums enums
  refine ⟨?_, ?_, ?_⟩
  · intro input args hresolved
    exact exists_turn_of_denies ht hc hp htakes hdenies hresolved
  · intro given given' hgiven
    have hmask := resolve_mask ht hc (List.mem_of_getElem? hp) htakes hdenies
    rw [← hmask (.options given), ← hmask (.options given'), Input.mask_eq_of_forall₂ hgiven]
  · exact fun d invocation c hbars => d.keepsOut_of_bars hbars

/-- A parameter with a default, and a permission. -/
def reason : Param :=
  ⟨"reason", .string, false, some "none", Dict.empty, Dict.ofList [("mod", ())], [], [], none, none,
    none, none, none⟩

/-- The draft of a command with the parameter behind another one. -/
def ban : CommandDraft where
  path := "ban"
  description := "Bans"
  handler := some Handler.idle
  params :=
    [{ name := "days", type := .bool },
     { name := "reason", type := .string, default := some "none",
       permissions := Dict.ofList [("mod", ())] }]

/-- The environment without the permission. -/
def unmoderated : Environment :=
  { painting with permissions := fun _ permission => permission != "mod" }

/-- Without the permission the default is taken, and a reason that is given is refused
whatever it is. -/
theorem permissions_gate_ban :
    ∃ c, ban.build = .ok c ∧ c.params[1]? = some reason ∧
      unmoderated.resolve aside c.toCommandInfo (.options [⟨"DAYS", .boolean true⟩]) =
        .ok (.resolved [("days", .bool true), ("reason", .string "none")]) ∧
      (∃ r isLast, unmoderated.IsOfDefault aside reason r isLast (.string "none")) ∧
      unmoderated.resolve aside c.toCommandInfo
          (.options [⟨"Reason", .string "spam"⟩, ⟨"days", .boolean true⟩]) =
        unmoderated.resolve aside c.toCommandInfo
          (.options [⟨"Reason", .string "rude"⟩, ⟨"days", .boolean true⟩]) := by
  have hok : (ban.build.map fun c => (c.params[1]?,
      unmoderated.resolve aside c.toCommandInfo (.options [⟨"DAYS", .boolean true⟩]))) =
    .ok (some reason, .ok (.resolved [("days", .bool true), ("reason", .string "none")])) := rfl
  obtain ⟨c, hbuild, h⟩ := map_eq_ok.mp hok
  obtain ⟨hp, hresolve⟩ := Prod.mk.inj h
  have hdenies : unmoderated.Denies aside reason := ⟨"mod", by decide, rfl⟩
  have hresolvers : unmoderated.resolvers = .withEnums [("Color", ["Red", "Green"])] := rfl
  obtain ⟨hturn, hsame, -⟩ := permissions_gate hresolvers ⟨ban, hbuild⟩ hp rfl hdenies
  obtain ⟨r, isLast, left, v, -, -, -, hv, hdefault⟩ := hturn _ _ hresolve
  obtain ⟨-, rfl⟩ : "reason" = reason.name ∧ Value.string "none" = v := by simpa using hv
  refine ⟨c, hbuild, hp, hresolve, ⟨r, isLast, hdefault.resolve_left (by simp)⟩, ?_⟩
  apply hsame
  refine .cons ⟨rfl, fun hnamed => ?_⟩ (.cons ⟨rfl, fun _ => rfl⟩ .nil)
  exact absurd hnamed (by decide)

end Environment

end ChatCommands
