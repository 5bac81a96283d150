import ChatCommands.Proofs.Dispatch.Places
import ChatCommands.Proofs.Resolve.Conditions
import ChatCommands.Proofs.Resolve.Permission

/-!
# Where errors point

An error about an argument of a message points at the words that its parameter has taken, from
the first to the last.  Choices take a word before the resolver does and put another text in its
place, resolvers take one word or all of them, and conditions are checked when they have; none of
this moves the span away from the words.

A default moves it.  It is put back in the place of a word, and as no word was taken that place is
the front of the message, where nobody has typed it.
-/

namespace ChatCommands

/-! ## Words in a supply -/

namespace Supply

variable {raw name : String} {tokens : List Token} {s : Supply} {slot : Slot}

/-- A supply of words of which none is spent: all of them are there, or the first is in hand,
whatever its text has become. -/
inductive Offers (raw : String) : List Token → Supply → Prop where
  | words (tokens : List Token) : Offers raw tokens { input := .text raw tokens }
  | held (first : Token) (rest : List Token) (text : String) (last : Option Span) :
      Offers raw (first :: rest) ⟨.text raw rest, some (.word ⟨text, first.span⟩), last⟩

/-- A supply in which some words are left, and which remembers the stretch of those before them. -/
structure Spent (raw : String) (taken left : List Token) (s : Supply) : Prop where
  input : s.input = .text raw left
  lastSpan : s.lastSpan = Tokens.stretch? taken

/-- The next piece stands in the place of the first word. -/
theorem Offers.pop (h : s.Offers raw tokens) (name : String) :
    (tokens = [] ∧ s.pop name = (none, s)) ∨
      ∃ first rest text, tokens = first :: rest ∧ s.pop name =
        (some (.word ⟨text, first.span⟩), ⟨.text raw rest, none, some first.span⟩) := by
  cases h with
  | words =>
      cases tokens with
      | nil => exact .inl ⟨rfl, rfl⟩
      | cons first rest => exact .inr ⟨first, rest, first.text, rfl, rfl⟩
  | held first rest text last => exact .inr ⟨first, rest, text, rfl, rfl⟩

theorem Offers.spent_pop (h : s.Offers raw tokens) (name : String) :
    ∃ taken left, tokens = taken ++ left ∧ (s.pop name).2.Spent raw taken left := by
  rcases h.pop name with ⟨rfl, hpop⟩ | ⟨first, rest, text, rfl, hpop⟩
  · rw [hpop]
    cases h
    exact ⟨[], [], rfl, rfl, rfl⟩
  · rw [hpop]
    exact ⟨[first], rest, rfl, rfl, rfl⟩

theorem Offers.spent_popRest (h : s.Offers raw tokens) (hplaced : Tokens.Placed raw tokens)
    (name : String) : (s.popRest name).2.Spent raw tokens [] := by
  refine ⟨by cases h <;> rfl, ?_⟩
  cases h with
  | words =>
      have hspan : ((spanOf (tokens.map .word)).or none) = Tokens.stretch? tokens := by
        rw [Option.or_none, hplaced.spanOf_words]
      exact hspan
  | held first rest text last =>
      -- The span of a piece does not look at its text.
      have hspan : (spanOf ((first :: rest).map .word)).or last =
          Tokens.stretch? (first :: rest) := by
        rw [hplaced.spanOf_words]
        rfl
      exact hspan

/-- A resolver spends words from the front, provided that it reads at all when one is in hand. -/
theorem Offers.spent_run (h : s.Offers raw tokens) (hplaced : Tokens.Placed raw tokens)
    (slot : Slot) (reading : Reading)
    (hreads : s.putBack.isSome = true → ∀ result, reading ≠ .unread result) :
    ∃ taken left, tokens = taken ++ left ∧ (reading.run slot s).2.Spent raw taken left := by
  cases reading with
  | unread result =>
      cases h with
      | words => exact ⟨[], tokens, rfl, rfl, rfl⟩
      | held => exact absurd rfl (hreads rfl result)
  | one missing judge =>
      obtain ⟨taken, left, htokens, hspent⟩ := h.spent_pop slot.param.name
      refine ⟨taken, left, htokens, ?_⟩
      rw [Reading.run, Slot.withPiece]
      split
      next heq => rwa [heq] at hspent
      next heq => rwa [heq] at hspent
  | all judge => exact ⟨tokens, [], (List.append_nil _).symm, h.spent_popRest hplaced _⟩

/-- Choices put a text in the place of the first word. -/
theorem Offers.applyChoices {p : Param} {chosen : Supply} (h : s.Offers raw tokens)
    (hchosen : Environment.applyChoices p s = .ok chosen) : chosen.Offers raw tokens := by
  unfold Environment.applyChoices at hchosen
  split at hchosen
  next => exact Except.ok.inj hchosen ▸ h
  next =>
    rcases h.pop p.name with ⟨rfl, hpop⟩ | ⟨first, rest, text, rfl, hpop⟩
    · rw [hpop] at hchosen
      exact Except.ok.inj hchosen ▸ h
    · rw [hpop] at hchosen
      simp only at hchosen
      split at hchosen
      next => cases hchosen
      next choice _ => exact Except.ok.inj hchosen ▸ .held first rest choice.value _

end Supply

/-! ## Where a parameter fails -/

namespace Environment

open Supply

variable {env : Environment} {invocation : Invocation} {p : Param} {r : Resolver}
  {isLast : Bool} {e : CommandError} {raw parameter : String} {fault : ArgumentFault}
  {input : Input} {s : Supply}

/-- A parameter fails with a supply: the choices refuse the piece they took, or the value that
its resolver makes of what they let through, or of nothing, is not accepted. -/
inductive FailsOn (env : Environment) (invocation : Invocation) (p : Param) (r : Resolver)
    (isLast : Bool) (input : Input) : Supply → CommandError → Prop where
  | choice {start s : Supply} {piece : Piece} {e : CommandError}
      (hstart : Start env invocation p r input start)
      (hpop : start.pop p.name = (some piece, s)) (hrefused : applyChoices p start = .error e) :
      FailsOn env invocation p r isLast input s e
  | value {start chosen s : Supply} {result : Except CommandError Value} {e : CommandError}
      (hstart : Start env invocation p r input start)
      (hchosen : applyChoices p start = .ok chosen)
      (hrun : r.run (env.slot invocation p isLast) chosen = (result, s))
      (hrefused : env.accept invocation p (result, s) = .error e) :
      FailsOn env invocation p r isLast input s e
  | bare {s : Supply} {result : Except CommandError Value} {e : CommandError}
      (hbare : r.isIssuerOnly p = true ∨
        hasInput { input } p.name = false ∧ p.default = none)
      (hrun : r.run (env.slot invocation p isLast) { input } = (result, s))
      (hrefused : env.accept invocation p (result, s) = .error e) :
      FailsOn env invocation p r isLast input s e

/-- Where a parameter fails, it fails with a supply, or its permissions are missing. -/
theorem failsOn_of_resolveParam (h : env.resolveParam invocation p r isLast input = .error e) :
    e = .permissionDenied p.name ∨ ∃ s, FailsOn env invocation p r isLast input s e := by
  cases way_of_resolveParam h with
  | entered hentry hrefused =>
      cases hentry with
      | issuer hissuer => exact .inr ⟨_, .bare (.inl hissuer) rfl hrefused⟩
      | chosen hstart hchosen => exact .inr ⟨_, .value hstart hchosen rfl hrefused⟩
      | bare _ hinput hdefault => exact .inr ⟨_, .bare (.inr ⟨hinput, hdefault⟩) rfl hrefused⟩
  | refused hstart hrefused =>
      obtain ⟨piece, rest, hpop⟩ := exists_pop_of_hasInput hstart.hasInput
      exact .inr ⟨_, .choice hstart hpop hrefused⟩
  | denied => exact .inl rfl

theorem FailsOn.keeps {I : Input → Prop} (ht : env.resolvers.IsStandard)
    (hr : env.resolvers.find? p.type = some r) (hI : Keeps p.name I)
    (h : FailsOn env invocation p r isLast input s e) (hinput : I input) : I s.input := by
  let slot := env.slot invocation p isLast
  have hslot : Keeps slot.param.name I := hI
  cases h with
  | choice hstart hpop =>
      have hrest := hI.pop (hstart.keeps hinput)
      rwa [hpop] at hrest
  | value hstart hchosen hrun =>
      have hleft := keeps_of_applyChoices hI (hstart.keeps hinput) hchosen
      have hrest := slot.reading.keeps_run hslot hleft
      rwa [← ht.run_eq slot hr, hrun] at hrest
  | bare _ hrun =>
      have hrest := slot.reading.keeps_run (s := { input }) hslot hinput
      rwa [← ht.run_eq slot hr, hrun] at hrest

/-! ## What it fails with -/

theorem exists_refusal_of_settle {slot : Slot} {supply : Supply} {result : Except Refusal Value}
    (h : slot.settle supply result = (.error e, s)) :
    ∃ refusal : Refusal, e = refusal.toError s slot.param.name := by
  cases result with
  | ok v => cases h
  | error refusal =>
      cases h
      exact ⟨refusal, rfl⟩

theorem exists_refusal_of_run {slot : Slot} {supply : Supply} (reading : Reading)
    (h : reading.run slot supply = (.error e, s)) :
    ∃ refusal : Refusal, e = refusal.toError s slot.param.name := by
  cases reading with
  | unread result => exact exists_refusal_of_settle h
  | one missing judge =>
      rw [Reading.run, Slot.withPiece] at h
      split at h
      next => cases h
      next => exact exists_refusal_of_settle h
  | all judge => exact exists_refusal_of_settle h

theorem exists_refusal_of_accept (ht : env.resolvers.IsStandard)
    (hr : env.resolvers.find? p.type = some r) {supply : Supply}
    {result : Except CommandError Value}
    (hrun : r.run (env.slot invocation p isLast) supply = (result, s))
    (hrefused : env.accept invocation p (result, s) = .error e) :
    ∃ refusal : Refusal, e = refusal.toError s p.name := by
  rw [ht.run_eq (env.slot invocation p isLast) hr] at hrun
  rcases accept_eq_error hrefused with ⟨rest, hresult⟩ | ⟨v, rest, hresult, -, hchecked⟩
  · obtain ⟨rfl, rfl⟩ := Prod.mk.inj hresult
    exact exists_refusal_of_run _ hrun
  · obtain ⟨rfl, rfl⟩ := Prod.mk.inj hresult
    obtain ⟨_, use, _, -, -, ⟨-, rfl⟩ | ⟨message, -, rfl⟩⟩ := checkConditions_eq_error hchecked
    · exact ⟨.internal (.unregisteredCondition use.name), rfl⟩
    · exact ⟨.argument (.conditionFailed use.name message), rfl⟩

/-- A parameter fails with a refusal at the supply it fails with. -/
theorem FailsOn.exists_refusal (ht : env.resolvers.IsStandard)
    (hr : env.resolvers.find? p.type = some r)
    (h : FailsOn env invocation p r isLast input s e) :
    ∃ refusal : Refusal, e = refusal.toError s p.name := by
  cases h with
  | choice hstart hpop hrefused =>
      unfold applyChoices at hrefused
      split at hrefused
      next => cases hrefused
      next =>
        rw [hpop] at hrefused
        simp only at hrefused
        split at hrefused
        next => exact ⟨.argument _, (Except.error.inj hrefused).symm⟩
        next => split at hrefused <;> cases hrefused
  | value _ _ hrun hrefused => exact exists_refusal_of_accept ht hr hrun hrefused
  | bare _ hrun hrefused => exact exists_refusal_of_accept ht hr hrun hrefused

theorem FailsOn.eq_refuse (ht : env.resolvers.IsStandard)
    (hr : env.resolvers.find? p.type = some r)
    (h : FailsOn env invocation p r isLast input s e)
    (hcause : e.cause = .invalidArgument parameter fault) :
    p.name = parameter ∧ e = s.refuse parameter fault := by
  obtain ⟨refusal, rfl⟩ := h.exists_refusal ht hr
  cases refusal with
  | internal => cases hcause
  | argument =>
      rw [Refusal.toError, cause_refuse] at hcause
      obtain ⟨rfl, rfl⟩ := Cause.invalidArgument.inj hcause
      exact ⟨rfl, rfl⟩

/-- A resolver that is given input and does not read it has no enumeration to look in. -/
theorem exists_internal_of_unread (ht : env.resolvers.IsStandard) (slot : Slot)
    (hr : env.resolvers.find? slot.param.type = some r) (henums : slot.enums = env.resolvers.enums)
    (htakes : r.isIssuerOnly slot.param = false) {result : Except Refusal Value}
    (hunread : slot.reading = .unread result) : ∃ fault, result = .error (.internal fault) := by
  rcases ht.eq_of_find? hr with hstandard | ⟨name, hname, hdeclared, rfl⟩
  · cases htype : slot.param.type <;> rw [htype] at hstandard <;> cases hstandard <;>
      simp [Resolver.isIssuerOnly, Resolve.fromInput, Resolve.orAbsent] at htakes <;>
      simp [Slot.reading, htype, Slot.ownReading, htakes] at hunread
    case string.refl =>
      unfold Slot.stringReading at hunread
      split at hunread
      next => cases hunread
      next => split at hunread <;> cases hunread
    case anyEnum.refl => exact ⟨_, hunread.symm⟩
  · obtain ⟨found, hfound⟩ := Option.isSome_iff_exists.mp hdeclared
    simp [Slot.reading, hname, Slot.memberReading, henums, hfound] at hunread

/-! ## Which words it has taken -/

variable {tokens ahead taken left : List Token}

theorem reads_of_run (ht : env.resolvers.IsStandard) (hr : env.resolvers.find? p.type = some r)
    (htakes : r.isIssuerOnly p = false) {supply : Supply} {result : Except CommandError Value}
    (hrun : r.run (env.slot invocation p isLast) supply = (result, s))
    (hrefused : env.accept invocation p (result, s) = .error e)
    (hcause : e.cause = .invalidArgument parameter fault) :
    ∀ unread, (env.slot invocation p isLast).reading ≠ .unread unread := by
  intro unread hunread
  obtain ⟨internal, rfl⟩ :=
    exists_internal_of_unread ht (env.slot invocation p isLast) hr rfl htakes hunread
  rw [ht.run_eq (env.slot invocation p isLast) hr, hunread] at hrun
  cases hrun
  obtain rfl : CommandError.internal internal = e := Except.error.inj hrefused
  cases hcause

/-- What a parameter has taken when it fails is taken from what was ahead of it. -/
theorem FailsOn.spent (ht : env.resolvers.IsStandard) (hr : env.resolvers.find? p.type = some r)
    (h : FailsOn env invocation p r isLast (.text raw tokens) s e)
    (hcause : e.cause = .invalidArgument parameter fault) (hplaced : Tokens.Placed raw ahead)
    (hstart : ∀ start, Start env invocation p r (.text raw tokens) start → start.Offers raw ahead)
    (hbare : r.isIssuerOnly p = true ∨ tokens = [] ∧ p.default = none → ahead = tokens) :
    ∃ taken left, ahead = taken ++ left ∧ s.Spent raw taken left := by
  let slot := env.slot invocation p isLast
  cases h with
  | choice hbegun hpop =>
      have hspent := (hstart _ hbegun).spent_pop p.name
      rwa [hpop] at hspent
  | value hbegun hchosen hrun hrefused =>
      have htakes : r.isIssuerOnly p = false := by cases hbegun <;> assumption
      have hreads := reads_of_run ht hr htakes hrun hrefused hcause
      have hoffers := (hstart _ hbegun).applyChoices hchosen
      have hspent := hoffers.spent_run hplaced slot slot.reading fun _ => hreads
      rwa [← ht.run_eq slot hr, hrun] at hspent
  | bare hnothing hrun =>
      have hempty : hasInput { input := .text raw tokens } p.name = false → tokens = [] := by
        intro hnone
        simpa [hasInput] using hnone
      obtain rfl : ahead = tokens := hbare (hnothing.imp_right (And.imp_left hempty))
      have hspent := (Offers.words ahead).spent_run hplaced slot slot.reading
        fun hheld => by cases hheld
      rwa [← ht.run_eq slot hr, hrun] at hspent

/-- A default stands in for input that is missing. -/
def StandsIn (p : Param) (r : Resolver) (tokens : List Token) : Prop :=
  r.isIssuerOnly p = false ∧ tokens = [] ∧ p.default.isSome = true

theorem FailsOn.spent_words (ht : env.resolvers.IsStandard)
    (hr : env.resolvers.find? p.type = some r)
    (h : FailsOn env invocation p r isLast (.text raw tokens) s e)
    (hcause : e.cause = .invalidArgument parameter fault) (hplaced : Tokens.Placed raw tokens)
    (hinput : ¬ StandsIn p r tokens) :
    ∃ taken left, tokens = taken ++ left ∧ s.Spent raw taken left := by
  refine h.spent ht hr hcause hplaced ?_ fun _ => rfl
  intro start hbegun
  cases hbegun with
  | given => exact .words tokens
  | default htakes hnone hdefault =>
      have hempty : tokens = [] := by simpa [hasInput] using hnone
      exact absurd ⟨htakes, hempty, by rw [hdefault]; rfl⟩ hinput

/-- A default is taken from the front of the message. -/
theorem FailsOn.lastSpan_of_standsIn (ht : env.resolvers.IsStandard)
    (hr : env.resolvers.find? p.type = some r)
    (h : FailsOn env invocation p r isLast (.text raw tokens) s e)
    (hcause : e.cause = .invalidArgument parameter fault) (hinput : StandsIn p r tokens) :
    s.lastSpan = some .zero := by
  obtain ⟨htakes, rfl, hdefault⟩ := hinput
  have hleft : s.input = .text raw [] := h.keeps ht hr (keeps_noWords p.name raw) rfl
  -- As if the message began with a word without characters.
  let front : Token := ⟨"", .zero⟩
  have hplaced : Tokens.Placed raw [front] := by
    refine ⟨fun t ht => ?_, List.pairwise_singleton _ _⟩
    obtain rfl := List.mem_singleton.mp ht
    exact ⟨[], raw.toList, rfl, rfl, rfl⟩
  obtain ⟨taken, left, hfront, hspent⟩ := h.spent ht hr hcause hplaced (by
    intro start hbegun
    cases hbegun with
    | given _ hgiven => cases hgiven
    | default => exact .held front [] _ none) (by
    rintro (hissuer | ⟨-, hnone⟩)
    · rw [htakes] at hissuer
      cases hissuer
    · rw [hnone] at hdefault
      cases hdefault)
  obtain rfl : left = [] := by simpa [hleft] using hspent.input.symm
  rw [hspent.lastSpan, ← List.append_nil taken, ← hfront]
  rfl

end Environment

/-! ## What the error shows -/

/-- An error points at words of a text, from the first to the last; without words it points
nowhere. -/
def CommandError.PointsAt (e : CommandError) (raw : String) : List Token → Prop
  | [] => e.span = none
  | first :: rest =>
    let span : Span := ⟨first.span.start, (rest.getLastD first).span.stop⟩
    e.source = some raw ∧ e.span = some span ∧
      ∃ slice, span.Cuts raw slice ∧ first.text.toList <+: slice ∧
        (rest.getLastD first).text.toList <:+ slice

theorem Supply.Spent.pointsAt_refuse {s : Supply} {raw : String} {taken left : List Token}
    (h : s.Spent raw taken left) (hplaced : Tokens.Placed raw taken) (parameter : String)
    (fault : ArgumentFault) : (s.refuse parameter fault).PointsAt raw taken := by
  cases taken with
  | nil => simp only [refuse, h.input, h.lastSpan, Input.source?, Tokens.stretch?]; rfl
  | cons first rest =>
      simp only [refuse, h.input, h.lastSpan, Input.source?, Tokens.stretch?]
      exact ⟨rfl, rfl, hplaced.exists_slice⟩

namespace Environment

open Supply

variable {env : Environment} {invocation : Invocation} {p : Param} {r : Resolver}
  {isLast : Bool} {e : CommandError} {raw parameter : String} {fault : ArgumentFault}
  {taken left : List Token} {input : Input} {s : Supply}

/-- The error of a parameter points at the words that it has taken, unless a default stands in
for them. -/
theorem FailsOn.pointsAt_iff (ht : env.resolvers.IsStandard)
    (hr : env.resolvers.find? p.type = some r)
    (h : FailsOn env invocation p r isLast (.text raw (taken ++ left)) s e)
    (hcause : e.cause = .invalidArgument parameter fault)
    (hplaced : Tokens.Placed raw (taken ++ left)) (hleft : s.input = .text raw left) :
    e.PointsAt raw taken ↔ ¬ StandsIn p r (taken ++ left) := by
  obtain ⟨-, rfl⟩ := h.eq_refuse ht hr hcause
  constructor
  · intro hpoints hinput
    obtain ⟨rfl, rfl⟩ := List.append_eq_nil_iff.mp hinput.2.1
    have hspan := h.lastSpan_of_standsIn ht hr hcause hinput
    simp [CommandError.PointsAt, refuse, hleft, hspan, Input.source?, CommandError.located,
      CommandError.invalidArgument] at hpoints
  · intro hinput
    obtain ⟨taken', left', hsplit, hspent⟩ := h.spent_words ht hr hcause hplaced hinput
    obtain rfl : left = left' := by simpa [hleft] using hspent.input
    obtain rfl := List.append_cancel_right hsplit
    exact hspent.pointsAt_refuse (hplaced.sublist (List.sublist_append_left _ _)) parameter fault

/-! ## Messages -/

/-- A command fails at one of its parameters, which has taken some of the words that are left
for it. -/
def FailsBehind (env : Environment) (invocation : Invocation) (c : CommandInfo) (raw : String)
    (rest : List Token) (p : Param) (r : Resolver) (taken left : List Token) (e : CommandError) :
    Prop :=
  ∃ k isLast s, env.TurnOf invocation c (.text raw rest) k p r isLast (.text raw (taken ++ left)) ∧
    s.input = .text raw left ∧
    FailsOn env invocation p r isLast (.text raw (taken ++ left)) s e

variable {c : CommandInfo} {rest tokens : List Token} {k : Nat}

/-- What is left of words comes at their end. -/
theorem keeps_suffix (name raw : String) (tokens : List Token) :
    Keeps name fun input => ∃ left, left <:+ tokens ∧ input = .text raw left := by
  refine keeps_of_leaves ?_
  rintro _ j hleaves ⟨words, hsuffix, rfl⟩
  cases hleaves with
  | untouched => exact ⟨words, hsuffix, rfl⟩
  | word _ first rest => exact ⟨rest, (List.suffix_cons _ _).trans hsuffix, rfl⟩
  | words => exact ⟨[], List.nil_suffix, rfl⟩

theorem TurnOf.exists_suffix (ht : env.resolvers.IsStandard)
    (h : env.TurnOf invocation c (.text raw rest) k p r isLast input) :
    ∃ tokens, tokens <:+ rest ∧ input = .text raw tokens := by
  obtain ⟨params, others, hparams, -, hreaches, -⟩ := h
  exact hreaches.keeps (keeps_suffix · raw rest) ht (find?_of_mapM hparams)
    ⟨rest, List.suffix_rfl, rfl⟩

theorem TurnOf.find? {left : Input} (h : env.TurnOf invocation c input k p r isLast left) :
    env.resolvers.find? p.type = some r := by
  obtain ⟨params, others, hparams, hdrop, -, -⟩ := h
  have hmem : (p, r) ∈ params.drop k := hdrop ▸ List.mem_cons_self
  exact find?_of_mapM hparams _ (List.mem_of_mem_drop hmem)

theorem exists_failsBehind (ht : env.resolvers.IsStandard)
    (h : env.resolve invocation c (.text raw rest) = .error e)
    (hcause : e.cause = .invalidArgument parameter fault) :
    ∃ p r taken left, env.FailsBehind invocation c raw rest p r taken left e := by
  rcases exists_turn_of_resolve h with ⟨internal, rfl⟩ | ⟨k, p, r, isLast, input, hturn, hparam⟩
  · cases hcause
  · obtain ⟨tokens, -, rfl⟩ := hturn.exists_suffix ht
    rcases failsOn_of_resolveParam hparam with rfl | ⟨s, hfails⟩
    · cases hcause
    · obtain ⟨left, ⟨taken, rfl⟩, hleft⟩ := hfails.keeps ht hturn.find?
        (keeps_suffix p.name raw tokens) ⟨tokens, List.suffix_rfl, rfl⟩
      exact ⟨p, r, taken, left, k, isLast, s, hturn, hleft, hfails⟩

/-- An argument of a message that is refused is refused at a parameter of the command that the
message leads to.  The error points at the words that this parameter has taken, wherever it was
raised, unless the default of the parameter stands in for them. -/
theorem pointsAt_iff_of_resolve {enums : List (String × List String)}
    (hresolvers : env.resolvers = .withEnums enums) {triggers : Triggers} {routes : Routes}
    {table : ResolverTable} {c : Command}
    (hroute : Route.ofText triggers routes table raw = .matched c rest)
    (h : env.resolve invocation c.toCommandInfo (.text raw rest) = .error e)
    (hcause : e.cause = .invalidArgument parameter fault) :
    (∃ p r taken left, env.FailsBehind invocation c.toCommandInfo raw rest p r taken left e) ∧
      ∀ p r taken left, env.FailsBehind invocation c.toCommandInfo raw rest p r taken left e →
        p.name = parameter ∧ Tokens.Placed raw (taken ++ left) ∧
          (e.PointsAt raw taken ↔ ¬ StandsIn p r (taken ++ left)) := by
  have ht : env.resolvers.IsStandard := hresolvers ▸ ResolverTable.isStandard_withEnums enums
  have hplaced := Route.placed_of_ofText hroute
  refine ⟨exists_failsBehind ht h hcause, ?_⟩
  rintro p r taken left ⟨k, isLast, s, hturn, hleft, hfails⟩
  obtain ⟨tokens, hsuffix, htokens⟩ := hturn.exists_suffix ht
  obtain rfl : taken ++ left = tokens := (Input.text.inj htokens).2
  have hwords := hplaced.sublist hsuffix.sublist
  exact ⟨(hfails.eq_refuse ht hturn.find? hcause).1, hwords,
    hfails.pointsAt_iff ht hturn.find? hcause hwords hleft⟩

/-- A number that may have a default. -/
def threshold (default : Option String) : Param :=
  ⟨"n", .integer .w32, false, default, Dict.empty, Dict.empty, [], [], none, none, none, none, none⟩

/-- A command with the number. -/
def setting (default : Option String) : Command where
  root := "set"
  sub := []
  params := [threshold default]
  description := "Sets the threshold"
  help := ""
  permissions := Dict.empty
  handler := Handler.idle

/-- The route of a message to the command. -/
def settingRoute (default : Option String) (raw : String) : Route :=
  .ofText ⟨["!"], none⟩ (Routes.empty.add "set" [setting default]) painting.resolvers raw

/-- What is no number is pointed at. -/
theorem pointsAt_word :
    let words : List Token := [⟨"abc", ⟨5, 8⟩⟩]
    ∃ e, settingRoute none "!set abc" = .matched (setting none) words ∧
      painting.resolve aside (setting none).toCommandInfo (.text "!set abc" words) = .error e ∧
      e.cause = .invalidArgument "n" (.notANumber "abc") ∧ e.PointsAt "!set abc" words := by
  intro words
  have hroute : settingRoute none "!set abc" = .matched (setting none) words := rfl
  let e : CommandError :=
    Supply.refuse ⟨.text "!set abc" [], none, some ⟨5, 8⟩⟩ "n" (.notANumber "abc")
  have hresolve : painting.resolve aside (setting none).toCommandInfo (.text "!set abc" words) =
      .error e := rfl
  have hfails : painting.FailsBehind aside (setting none).toCommandInfo "!set abc" words
      (threshold none) (Resolve.fromInput Resolve.integer) words [] e :=
    ⟨0, true, _, ⟨_, [], rfl, rfl, .here _ _, rfl⟩, rfl, .value (.given rfl rfl rfl) rfl rfl rfl⟩
  obtain ⟨-, hpoints⟩ := pointsAt_iff_of_resolve rfl hroute hresolve rfl
  refine ⟨e, hroute, hresolve, rfl, (hpoints _ _ _ _ hfails).2.2.mpr ?_⟩
  exact fun hinput => List.cons_ne_nil _ _ hinput.2.1

/-- A default that is no number is nowhere in the message, and yet the error points at the front
of it. -/
theorem not_pointsAt_default :
    ∃ e, settingRoute (some "many") "!set" = .matched (setting (some "many")) [] ∧
      painting.resolve aside (setting (some "many")).toCommandInfo (.text "!set" []) = .error e ∧
      e.cause = .invalidArgument "n" (.notANumber "many") ∧
      painting.FailsBehind aside (setting (some "many")).toCommandInfo "!set" []
        (threshold (some "many")) (Resolve.fromInput Resolve.integer) [] [] e ∧
      e.span = some ⟨0, 0⟩ ∧ ¬ e.PointsAt "!set" [] := by
  let e : CommandError :=
    Supply.refuse ⟨.text "!set" [], none, some .zero⟩ "n" (.notANumber "many")
  have hfails : painting.FailsBehind aside (setting (some "many")).toCommandInfo "!set" []
      (threshold (some "many")) (Resolve.fromInput Resolve.integer) [] [] e :=
    ⟨0, true, _, ⟨_, [], rfl, rfl, .here _ _, rfl⟩, rfl, .value (.default rfl rfl rfl) rfl rfl rfl⟩
  exact ⟨e, rfl, rfl, rfl, hfails, rfl, nofun⟩

end Environment

end ChatCommands
