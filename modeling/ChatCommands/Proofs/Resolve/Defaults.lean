import ChatCommands.Proofs.Resolve.FrontEnds

/-!
# Defaults as if they were typed

A default is put back in front of the input, where the choices, the resolver and the
conditions find it like a word that was typed.  Whoever types the default of the first
parameter that is left without a word changes nothing, provided that the permissions of
the parameter are granted, which are only asked for when there is input.

The two inputs differ in a word at the end.  The parameters before the default have a word
each, and none of them takes all that is left, since another parameter takes input behind
it.  At the default both inputs run out of words.
-/

namespace ChatCommands.Environment

variable {env : Environment} {invocation : Invocation} {p : Param} {r : Resolver}
  {isLast : Bool}

/-- With the permissions of a parameter, its default comes to the same as a word with the
same text. -/
theorem agree_resolveParam_of_default (ht : env.resolvers.IsStandard)
    (hr : env.resolvers.find? p.type = some r) (htakes : r.isIssuerOnly p = false)
    {text : String} (hdefault : p.default = some text)
    (hpermits : env.permits invocation p = true) (source source' : String) (span : Span) :
    Agree (Onward (.text source []) (.text source' []))
      (env.resolveParam invocation p r isLast (.text source []))
      (env.resolveParam invocation p r isLast (.text source' [⟨text, span⟩])) := by
  have hdefaults : Start env invocation p r (.text source [])
      (Supply.giveText { input := .text source [] } text) := .default htakes rfl hdefault
  have hgiven : Start env invocation p r (.text source' [⟨text, span⟩])
      { input := .text source' [⟨text, span⟩] } := .given htakes rfl hpermits
  rw [hdefaults.resolveParam_eq, hgiven.resolveParam_eq]
  have halike := Piece.Alike.word text Span.zero span
  exact agree_runChosen ht hr htakes (.giving (some Span.zero) (some span) (.inr halike) rfl rfl)
    fun _ _ => ⟨rfl, rfl⟩

/-- Without words all parameters come to the same, whatever the text was. -/
theorem agree_resolveParams_noWords (ht : env.resolvers.IsStandard) {declared : List Param}
    {params : List (Param × Resolver)}
    (hparams : List.Forall₂ (fun p found => env.withResolver p = .ok found) declared params)
    (source source' : String) :
    Agree Eq (env.resolveParams invocation params (.text source []))
      (env.resolveParams invocation params (.text source' [])) := by
  induction hparams with
  | nil => exact rfl
  | @cons _ found _ _ hfound _ ih =>
      obtain ⟨rfl, hr⟩ := withResolver_eq_ok hfound
      cases hissuer : found.2.isIssuerOnly found.1 with
      | true =>
          exact agree_resolveParams_cons (agree_resolveParam_of_isIssuerOnly ht hr hissuer _ _) ih
      | false =>
          exact agree_resolveParams_cons
            (agree_resolveParam ht hr hissuer (.lacking none none rfl rfl) fun _ _ => ⟨rfl, rfl⟩) ih

/-- Checked parameters resolve some words like the same words with the default of the next
parameter behind them. -/
theorem agree_resolveParams_of_default (ht : env.resolvers.IsStandard) {v : Schema.Vocabulary}
    {passed : Schema.Passed} {declared : List Param} {params : List (Param × Resolver)}
    (hall : env.Checked v passed declared params) {tokens : List Token} {text : String}
    (hp : (declared.filter fun q => !env.resolvers.isIssuerOnly q)[tokens.length]? = some p)
    (hdefault : p.default = some text) (hpermits : env.permits invocation p = true)
    (source source' : String) (span : Span) :
    Agree Eq (env.resolveParams invocation params (.text source tokens))
      (env.resolveParams invocation params (.text source' (tokens ++ [⟨text, span⟩]))) := by
  induction declared generalizing passed params tokens with
  | nil => cases hp
  | cons q others ih =>
      obtain ⟨r, rest, rfl, hr, ⟨honly, hrest⟩ | ⟨htakes, after, hadd, hrest⟩⟩ := hall.cons
      · simp only [isIssuerOnly_eq hr, honly, Bool.not_true, Bool.false_eq_true, not_false_eq_true,
          List.filter_cons_of_neg] at hp
        exact agree_resolveParams_cons (agree_resolveParam_of_isIssuerOnly ht hr honly _ _)
          (ih hrest hp)
      · simp only [isIssuerOnly_eq hr, htakes, Bool.not_false, List.filter_cons_of_pos] at hp
        cases tokens with
        | nil =>
            obtain rfl : q = p := by simpa using hp
            exact agree_resolveParams_cons
              (agree_resolveParam_of_default ht hr htakes hdefault hpermits source source' span)
              (agree_resolveParams_noWords ht hrest.resolved source source')
        | cons token tokens =>
            rw [List.length_cons, List.getElem?_cons_succ] at hp
            refine agree_resolveParams_cons
              (agree_resolveParam ht hr htakes (.giving _ _ (.inl rfl) rfl rfl) ?_) (ih hrest hp)
            intro judge hjudge
            -- The default is behind the parameter, which therefore does not take all input.
            have hline := (Slot.exists_reading_eq_all_iff _).mp ⟨judge, hjudge⟩
            rw [hrest.filter_eq_nil hadd hline] at hp
            cases hp

/-- A compiled command makes the same of some words as of these words followed by the
default of the first parameter that is left without one, if the permissions of that
parameter are granted: the same arguments, the same wish to show how it is used, or the
same error, perhaps at another place. -/
theorem resolve_append_default {enums : List (String × List String)}
    (hresolvers : env.resolvers = .withEnums enums) {v : Schema.Vocabulary}
    (hv : v.resolvers = env.resolvers) {commands : List CommandInfo} {groups : List Group}
    {c : CommandInfo} (hc : c ∈ commands) {t : Schema.Tree}
    (hlayout : v.layout c.root commands groups = .ok t) {tokens : List Token} {text : String}
    (hp : (Route.consuming env.resolvers c)[tokens.length]? = some p)
    (hdefault : p.default = some text) (hpermits : env.permits invocation p = true)
    (source source' : String) (span : Span) :
    (env.resolve invocation c (.text source tokens)).mapError CommandError.unplaced =
      (env.resolve invocation c (.text source' (tokens ++ [⟨text, span⟩]))).mapError
        CommandError.unplaced := by
  have ht : env.resolvers.IsStandard := hresolvers ▸ ResolverTable.isStandard_withEnums enums
  cases hparams : c.params.mapM env.withResolver with
  | error e => rw [resolve, resolve, hparams]; rfl
  | ok params =>
      have hagree := agree_resolveParams_of_default ht (checked_of_layout hv hc hlayout hparams)
        hp hdefault hpermits source source' span
      rw [resolve_of_mapM hparams, resolve_of_mapM hparams]
      refine Agree.mapError_unplaced (hagree.map ?_)
      intro found found' h
      rw [h]

/-- A command with a number, a text that has choices and a default, and a list. -/
def print : CommandDraft where
  path := "print"
  description := "Prints something"
  handler := some Handler.idle
  params :=
    [{ name := "copies", type := .integer .w8 },
      { name := "size", type := .string, choices := some "small=s,large=l", default := some "small" },
      { name := "notes", type := .strings, optional := true }]

/-- The default names a choice, and the value of the choice is what the call gets, typed or
not. -/
theorem resolve_print_append_default :
    let typed : List Token := [⟨"3", ⟨0, 1⟩⟩]
    ∃ c p t, print.build = .ok c ∧
      Schema.Vocabulary.layout ⟨painting.resolvers, painting.conditions⟩ c.root
        [c.toCommandInfo] [] = .ok t ∧
      (Route.consuming painting.resolvers c.toCommandInfo)[typed.length]? = some p ∧
      p.default = some "small" ∧ painting.permits aside p = true ∧
      (painting.resolve aside c.toCommandInfo (.text "3" typed)).mapError CommandError.unplaced =
        (painting.resolve aside c.toCommandInfo
          (.text "3 small" (typed ++ [⟨"small", ⟨2, 7⟩⟩]))).mapError CommandError.unplaced ∧
      painting.resolve aside c.toCommandInfo (.text "3" typed) =
        .ok (.resolved [("copies", .integer .w8 ⟨3, by decide, by decide⟩),
          ("size", .string "s"), ("notes", .absent)]) := by
  intro typed
  have hrun : (print.build >>= fun c =>
      (Schema.Vocabulary.layout ⟨painting.resolvers, painting.conditions⟩ c.root
        [c.toCommandInfo] []).map fun _ =>
          (((Route.consuming painting.resolvers c.toCommandInfo)[1]?).map
              fun p => (p.default, painting.permits aside p),
            painting.resolve aside c.toCommandInfo (.text "3" [⟨"3", ⟨0, 1⟩⟩]))) =
      .ok (some (some "small", true),
        .ok (.resolved [("copies", .integer .w8 ⟨3, by decide, by decide⟩),
          ("size", .string "s"), ("notes", .absent)])) := rfl
  obtain ⟨c, hbuild, hlaid⟩ := bind_eq_ok.mp hrun
  obtain ⟨t, hlayout, h⟩ := map_eq_ok.mp hlaid
  obtain ⟨hsecond, hresolved⟩ := Prod.mk.inj h
  obtain ⟨p, hp, hboth⟩ := Option.map_eq_some_iff.mp hsecond
  obtain ⟨hdefault, hpermits⟩ := Prod.mk.inj hboth
  exact ⟨c, p, t, hbuild, hlayout, hp, hdefault, hpermits,
    resolve_append_default rfl rfl (List.mem_singleton_self _) hlayout hp hdefault hpermits
      "3" "3 small" ⟨2, 7⟩, hresolved⟩

end ChatCommands.Environment
