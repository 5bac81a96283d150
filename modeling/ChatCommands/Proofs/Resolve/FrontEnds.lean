import ChatCommands.Dispatch.Route
import ChatCommands.Proofs.Resolve.Lockstep
import ChatCommands.Proofs.Resolve.Reaching
import ChatCommands.Proofs.Schema.Layout

/-!
# The two front ends agree

Words of a text that are handed out in order come to the same as options that
carry them under the names of the parameters which take input.  The proof runs
both inputs side by side.  Before each parameter the words that are left and the
options that are left belong together, and a parameter takes one of each or
neither.  A parameter that takes all input is the last to take any, so that there
is at most one word for it.
-/

namespace ChatCommands

/-! ## One parameter -/

namespace Environment

variable {env : Environment} {invocation : Invocation} {p : Param} {r : Resolver}
  {isLast : Bool}

/-- Without words and without options a parameter comes to the same. -/
theorem agree_resolveParam_of_empty (ht : env.resolvers.IsStandard)
    (hr : env.resolvers.find? p.type = some r) (htakes : r.isIssuerOnly p = false)
    (source : String) :
    Agree (Onward (.text source []) (.options []))
      (env.resolveParam invocation p r isLast (.text source []))
      (env.resolveParam invocation p r isLast (.options [])) :=
  agree_resolveParam ht hr htakes (.lacking none none rfl rfl) fun _ _ => ⟨rfl, trivial⟩

/-- A word, and an option of the parameter that carries it, come to the same. -/
theorem agree_resolveParam_of_word (ht : env.resolvers.IsStandard)
    (hr : env.resolvers.find? p.type = some r) (htakes : r.isIssuerOnly p = false)
    {source : String} {token : Token} {tokens : List Token} (given : List TypedOption)
    (hword : Text.IsWord token.text)
    (hall : ∀ judge, (env.slot invocation p isLast).reading = .all judge → tokens = []) :
    Agree (Onward (.text source tokens) (.options given))
      (env.resolveParam invocation p r isLast (.text source (token :: tokens)))
      (env.resolveParam invocation p r isLast
        (.options (⟨p.name, .string token.text⟩ :: given))) := by
  have hpop : Supply.pop { input := .options (⟨p.name, .string token.text⟩ :: given) } p.name =
      (some (.typed (.string token.text)), ⟨.options given, none, none⟩) := by
    simp [Supply.pop, Supply.takeNamed, Supply.isNamed_own]
  have halike := Piece.Alike.typed token.text token.span hword
  exact agree_resolveParam ht hr htakes (.giving (some token.span) none (.inr halike) rfl hpop)
    fun judge hjudge => ⟨hall judge hjudge, trivial⟩

end Environment

/-! ## All parameters -/

/-- Words as options for the given parameters. -/
def optionsFor (params : List Param) (tokens : List Token) : List TypedOption :=
  List.zipWith (fun p token => ⟨p.name, .string token.text⟩) params tokens

namespace Environment

variable {env : Environment} {invocation : Invocation}

theorem isIssuerOnly_of_all {declared : List Param} {params : List (Param × Resolver)}
    (hparams : List.Forall₂ (fun p found => env.withResolver p = .ok found) declared params)
    (h : (params.all fun (q, r) => r.isIssuerOnly q) = true) :
    ∀ p ∈ declared, env.resolvers.isIssuerOnly p = true := by
  induction hparams with
  | nil => exact fun p hp => absurd hp List.not_mem_nil
  | cons hfound _ ih =>
      obtain ⟨rfl, hr⟩ := withResolver_eq_ok hfound
      rw [List.all_cons, Bool.and_eq_true] at h
      intro p hp
      rcases List.mem_cons.mp hp with rfl | hp
      · exact (isIssuerOnly_eq hr).trans h.1
      · exact ih h.2 p hp

/-- Parameters that passed the checks behind others, with their resolvers. -/
structure Checked (env : Environment) (v : Schema.Vocabulary) (passed : Schema.Passed)
    (declared : List Param) (params : List (Param × Resolver)) : Prop where
  resolvers : v.resolvers = env.resolvers
  resolved : List.Forall₂ (fun p found => env.withResolver p = .ok found) declared params
  checks : v.checkParams passed declared = .ok ()

namespace Checked

variable {v : Schema.Vocabulary} {passed after : Schema.Passed} {p : Param} {r : Resolver}
  {declared : List Param} {params rest : List (Param × Resolver)}

theorem nil (h : env.Checked v passed [] params) : params = [] :=
  List.forall₂_nil_left_iff.mp h.resolved

/-- The first parameter is settled by the issuer, or it takes input and counts for those
behind it. -/
theorem cons (h : env.Checked v passed (p :: declared) params) :
    ∃ r rest, params = (p, r) :: rest ∧ env.resolvers.find? p.type = some r ∧
      ((r.isIssuerOnly p = true ∧ env.Checked v passed declared rest) ∨
        (r.isIssuerOnly p = false ∧
          ∃ after, passed.add p = .ok after ∧ env.Checked v after declared rest)) := by
  obtain ⟨⟨q, r⟩, rest, hfound, hothers, rfl⟩ := List.forall₂_cons_left_iff.mp h.resolved
  obtain ⟨rfl, hr⟩ : q = p ∧ env.resolvers.find? p.type = some r := withResolver_eq_ok hfound
  obtain ⟨r', hr', hcase⟩ := Schema.Vocabulary.checkParams_cons_eq_ok h.checks
  obtain rfl : r' = r := by simpa [h.resolvers, hr] using hr'.symm
  refine ⟨r', rest, rfl, hr, ?_⟩
  rcases hcase with ⟨hissuer, hrest⟩ | ⟨htakes, after, hadd, hrest⟩
  · exact .inl ⟨hissuer, h.resolvers, hothers, hrest⟩
  · exact .inr ⟨htakes, after, hadd, h.resolvers, hothers, hrest⟩

/-- Behind a parameter that takes all words, nothing takes input. -/
theorem filter_eq_nil (h : env.Checked v after declared rest) (hadd : passed.add p = .ok after)
    (hall : p.takesAll (isLastOf p r rest) = true) :
    declared.filter (fun q => !env.resolvers.isIssuerOnly q) = [] := by
  have hbehind : ∀ q ∈ declared, env.resolvers.isIssuerOnly q = true := by
    simp only [Param.takesAll, isLastOf, Bool.or_eq_true, Bool.and_eq_true] at hall
    rcases hall with hvariadic | hline
    · exact h.resolvers ▸ Schema.Vocabulary.isIssuerOnly_of_variadic
        (Schema.Passed.variadic_of_add hadd hvariadic) h.checks
    · exact isIssuerOnly_of_all h.resolved hline.1.1.1.2.2
  rw [List.filter_eq_nil_iff]
  intro q hq
  simp [hbehind q hq]

end Checked

theorem checked_of_layout {v : Schema.Vocabulary} (hv : v.resolvers = env.resolvers)
    {commands : List CommandInfo} {groups : List Group} {c : CommandInfo} (hc : c ∈ commands)
    {t : Schema.Tree} (hlayout : v.layout c.root commands groups = .ok t)
    {params : List (Param × Resolver)} (hparams : c.params.mapM env.withResolver = .ok params) :
    env.Checked v {} c.params params :=
  ⟨hv, mapM_forall₂ hparams, Schema.Vocabulary.checkParams_of_checkCommand
    (Schema.Vocabulary.checkCommand_of_layout hlayout hc rfl)⟩

/-- Checked parameters resolve words and the same words as options alike. -/
theorem agree_resolveParams (ht : env.resolvers.IsStandard) {v : Schema.Vocabulary}
    (hv : v.resolvers = env.resolvers) {declared : List Param} {params : List (Param × Resolver)}
    (hparams : List.Forall₂ (fun p found => env.withResolver p = .ok found) declared params)
    {passed : Schema.Passed} (hchecked : v.checkParams passed declared = .ok ()) (source : String)
    {tokens : List Token} (hwords : ∀ token ∈ tokens, Text.IsWord token.text)
    (hlength : tokens.length ≤
      (declared.filter fun p => !env.resolvers.isIssuerOnly p).length) :
    Agree Eq (env.resolveParams invocation params (.text source tokens))
      (env.resolveParams invocation params
        (.options (optionsFor (declared.filter fun p => !env.resolvers.isIssuerOnly p) tokens))) := by
  have hall : env.Checked v passed declared params := ⟨hv, hparams, hchecked⟩
  clear hparams hchecked
  -- The checks go on behind each parameter, and each one that takes input uses up a word.
  induction declared generalizing passed params tokens with
  | nil =>
      obtain rfl := hall.nil
      exact rfl
  | cons p others ih =>
      obtain ⟨r, rest, rfl, hr, ⟨honly, hrest⟩ | ⟨htakes, after, hadd, hrest⟩⟩ := hall.cons
      · simp only [isIssuerOnly_eq hr, honly, Bool.not_true, Bool.false_eq_true, not_false_eq_true,
          List.filter_cons_of_neg] at hlength ⊢
        exact agree_resolveParams_cons
          (agree_resolveParam_of_isIssuerOnly ht hr honly _ _) (ih hwords hlength hrest)
      · simp only [isIssuerOnly_eq hr, htakes, Bool.not_false, List.filter_cons_of_pos,
          List.length_cons] at hlength ⊢
        cases tokens with
        | nil =>
            have hempty := ih hwords (Nat.zero_le _) hrest
            simp only [optionsFor, List.zipWith_nil_right] at hempty ⊢
            exact agree_resolveParams_cons
              (agree_resolveParam_of_empty ht hr htakes source) hempty
        | cons token tokens =>
            have hword := hwords token List.mem_cons_self
            have hwords' : ∀ other ∈ tokens, Text.IsWord other.text :=
              fun other hother => hwords other (List.mem_cons_of_mem token hother)
            have hlength' := Nat.le_of_succ_le_succ hlength
            refine agree_resolveParams_cons
              (agree_resolveParam_of_word ht hr htakes _ hword ?_) (ih hwords' hlength' hrest)
            intro judge hjudge
            -- Nothing behind the parameter takes input, and so no word is left for it.
            have hline := (Slot.exists_reading_eq_all_iff _).mp ⟨judge, hjudge⟩
            rw [hrest.filter_eq_nil hadd hline, List.length_nil] at hlength'
            exact List.eq_nil_of_length_eq_zero (Nat.le_zero.mp hlength')

/-- A compiled command resolves the words of a text like options with the same
texts, one for each parameter that takes input, as far as the words go. -/
theorem resolve_text_eq_options {enums : List (String × List String)}
    (hresolvers : env.resolvers = .withEnums enums) {v : Schema.Vocabulary}
    (hv : v.resolvers = env.resolvers) {commands : List CommandInfo} {groups : List Group}
    {c : CommandInfo} (hc : c ∈ commands) {t : Schema.Tree}
    (hlayout : v.layout c.root commands groups = .ok t) (source : String) {tokens : List Token}
    (hwords : ∀ token ∈ tokens, Text.IsWord token.text)
    (hlength : tokens.length ≤ (Route.consuming env.resolvers c).length) :
    (env.resolve invocation c (.text source tokens)).mapError CommandError.unplaced =
      (env.resolve invocation c
        (.options (optionsFor (Route.consuming env.resolvers c) tokens))).mapError
          CommandError.unplaced := by
  have ht : env.resolvers.IsStandard := hresolvers ▸ ResolverTable.isStandard_withEnums enums
  have hchecked := Schema.Vocabulary.checkParams_of_checkCommand
    (Schema.Vocabulary.checkCommand_of_layout hlayout hc rfl)
  cases hparams : c.params.mapM env.withResolver with
  | error e => rw [resolve, resolve, hparams]; rfl
  | ok params =>
      rw [resolve_of_mapM hparams, resolve_of_mapM hparams]
      refine Agree.mapError_unplaced (Agree.map
        (agree_resolveParams ht hv (mapM_forall₂ hparams) hchecked source hwords hlength) ?_)
      intro found found' h
      rw [h]

/-- A call with a parameter of the issuer in front, an enumeration, and a list
that may get the rest of the words. -/
theorem resolve_paint_text_eq_options :
    let tokens : List Token := [⟨"12", ⟨0, 2⟩⟩, ⟨"green", ⟨3, 8⟩⟩, ⟨"dots", ⟨9, 13⟩⟩]
    ∃ c t, paint.build = .ok c ∧
      Schema.Vocabulary.layout ⟨painting.resolvers, painting.conditions⟩ c.root
        [c.toCommandInfo] [] = .ok t ∧
      (∀ token ∈ tokens, Text.IsWord token.text) ∧
      tokens.length ≤ (Route.consuming painting.resolvers c.toCommandInfo).length ∧
      (painting.resolve aside c.toCommandInfo (.text "12 green dots" tokens)).mapError
          CommandError.unplaced =
        (painting.resolve aside c.toCommandInfo
          (.options (optionsFor (Route.consuming painting.resolvers c.toCommandInfo)
            tokens))).mapError CommandError.unplaced := by
  intro tokens
  have hrun : (paint.build >>= fun c =>
      (Schema.Vocabulary.layout ⟨painting.resolvers, painting.conditions⟩ c.root
        [c.toCommandInfo] []).map fun _ =>
          (Route.consuming painting.resolvers c.toCommandInfo).length) = .ok 3 := rfl
  obtain ⟨c, hbuild, hlaid⟩ := bind_eq_ok.mp hrun
  obtain ⟨t, hlayout, hconsuming⟩ := map_eq_ok.mp hlaid
  have hwords : ∀ token ∈ tokens, Text.IsWord token.text := by decide +kernel
  have hlength : tokens.length ≤ (Route.consuming painting.resolvers c.toCommandInfo).length := by
    rw [hconsuming]
    exact Nat.le_refl 3
  exact ⟨c, t, hbuild, hlayout, hwords, hlength,
    resolve_text_eq_options rfl rfl (List.mem_singleton_self _) hlayout "12 green dots" hwords
      hlength⟩

end Environment

end ChatCommands
