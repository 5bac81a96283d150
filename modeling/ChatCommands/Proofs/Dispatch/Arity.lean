import ChatCommands.Proofs.Resolve.Intake

/-!
# Words that fit and words that are taken

A route takes the first overload that can use as many words as there are, going by the types
and flags of its parameters.  An overload that is resolved then leaves no word behind, unless
its last parameter is a string with choices.  Such a string counts as one for the rest of the
line and yet takes one word.
-/

namespace ChatCommands

/-- A string that would take the rest of the line if it had no choices. -/
def Param.isLineOfChoices (p : Param) : Bool :=
  p.type == .string && !p.hasFlag "single" && !p.hasFlag "raw" && !p.choices.isEmpty

namespace Route

theorem isGreedy_iff (p : Param) :
    isGreedy p = true ↔ p.takesAll true = true ∨ p.isLineOfChoices = true := by
  unfold isGreedy Param.takesAll Param.isLineOfChoices
  cases p.choices.isEmpty <;> simp [and_assoc]

theorem takesAll_of_isLineOfChoices {p : Param} (h : p.isLineOfChoices = true) :
    p.takesAll true = false := by
  simp only [Param.isLineOfChoices, Bool.and_eq_true, beq_iff_eq, Bool.not_eq_true'] at h
  simp [Param.takesAll, h, ParamType.isVariadic]

theorem fits_iff {table : ResolverTable} {available : Nat} {c : CommandInfo} :
    fits table available c = true ↔
      ((consuming table c).filter (·.requiresInput)).length ≤ available ∧
        ((consuming table c).getLast?.any (·.takesAll true) = true ∨
          (consuming table c).getLast?.any (·.isLineOfChoices) = true ∨
            available ≤ (consuming table c).length) := by
  have hlast : ∀ last : Option Param, last.any isGreedy = true ↔
      last.any (·.takesAll true) = true ∨ last.any (·.isLineOfChoices) = true := by
    intro last
    cases last with
    | none => simp
    | some p => exact isGreedy_iff p
  simp only [fits, Bool.and_eq_true, Bool.or_eq_true, decide_eq_true_eq, hlast, or_assoc]

end Route

namespace Environment

variable {env : Environment} {invocation : Invocation}

/-- A resolution that gets through all parameters of a command leaves some input behind. -/
def LeavesBehind (env : Environment) (invocation : Invocation) (c : CommandInfo)
    (input left : Input) : Prop :=
  ∃ params, c.params.mapM env.withResolver = .ok params ∧
    env.Reaches invocation params input [] left

/-- No word is left behind if the last parameter takes all, or if there are no more words than
parameters that take input. -/
theorem wordsBehind_eq_nil_iff {c : CommandInfo} {tokens : List Token} :
    env.wordsBehind c.params tokens = [] ↔
      (Route.consuming env.resolvers c).getLast?.any (·.takesAll true) = true ∨
        tokens.length ≤ (Route.consuming env.resolvers c).length := by
  unfold wordsBehind
  change (if (Route.consuming env.resolvers c).getLast?.any (·.takesAll true) then _ else
    tokens.drop (Route.consuming env.resolvers c).length) = [] ↔ _
  split
  next hall => simp [hall]
  next hword => simp [hword]

/-- Whether as many words fit a compiled command as a call gives tells whether the call leaves
none behind, unless the last parameter that takes input is a string with choices that could
take the rest of the line and there are words for the rest of the line. -/
theorem fits_iff_nothing_left_iff {enums : List (String × List String)}
    (hresolvers : env.resolvers = .withEnums enums) {v : Schema.Vocabulary}
    (hv : v.resolvers = env.resolvers) {commands : List CommandInfo} {groups : List Group}
    {c : CommandInfo} (hc : c ∈ commands) {t : Schema.Tree}
    (hlayout : v.layout c.root commands groups = .ok t) {source : String} {tokens : List Token}
    {args : Arguments}
    (h : env.resolve invocation c (.text source tokens) = .ok (.resolved args)) :
    ∃ rest, env.LeavesBehind invocation c (.text source tokens) (.text source rest) ∧
      (∀ left, env.LeavesBehind invocation c (.text source tokens) left →
        left = .text source rest) ∧
      ((Route.fits env.resolvers tokens.length c = true ↔ rest = []) ↔
        ¬ ((Route.consuming env.resolvers c).getLast?.any (·.isLineOfChoices) = true ∧
          (Route.consuming env.resolvers c).length < tokens.length)) := by
  have ht : env.resolvers.IsStandard := hresolvers ▸ ResolverTable.isStandard_withEnums enums
  have hunique : ∀ left, env.LeavesBehind invocation c (.text source tokens) left →
      left = .text source (env.wordsBehind c.params tokens) := by
    rintro left ⟨params, hparams, hreaches⟩
    exact (checked_of_layout hv hc hlayout hparams).left_eq ht hreaches
  obtain ⟨params, hparams, hresolved⟩ := resolve_eq_ok h
  obtain ⟨left, hreaches⟩ := exists_reaches_nil hresolved
  obtain rfl := hunique left ⟨params, hparams, hreaches⟩
  refine ⟨env.wordsBehind c.params tokens, ⟨params, hparams, hreaches⟩, hunique, ?_⟩
  have henough : ((Route.consuming env.resolvers c).filter (·.requiresInput)).length ≤
      tokens.length := by
    have hmissing := (checked_of_layout hv hc hlayout hparams).eq_none_iff ht hresolved
    exact Nat.not_lt.mp fun hfew => by cases hmissing.mpr hfew
  have hexclusive : (Route.consuming env.resolvers c).getLast?.any (·.isLineOfChoices) = true →
      ¬ (Route.consuming env.resolvers c).getLast?.any (·.takesAll true) = true := by
    cases (Route.consuming env.resolvers c).getLast? with
    | none => simp
    | some p => exact fun hline => Bool.eq_false_iff.mp (Route.takesAll_of_isLineOfChoices hline)
  rw [Route.fits_iff, wordsBehind_eq_nil_iff, and_iff_right henough, ← Nat.not_le]
  by_cases hline : (Route.consuming env.resolvers c).getLast?.any (·.isLineOfChoices) = true
  · simp [hline, hexclusive hline]
  · simp [hline]

/-- A list at the end takes the words beyond one for each of the others, and they fit. -/
theorem nothing_left_paint :
    let tokens : List Token :=
      [⟨"12", ⟨0, 2⟩⟩, ⟨"green", ⟨3, 8⟩⟩, ⟨"thin", ⟨9, 13⟩⟩, ⟨"dots", ⟨14, 18⟩⟩]
    let source := "12 green thin dots"
    ∃ c t args, paint.build = .ok c ∧
      Schema.Vocabulary.layout ⟨painting.resolvers, painting.conditions⟩ c.root
        [c.toCommandInfo] [] = .ok t ∧
      painting.resolve aside c.toCommandInfo (.text source tokens) = .ok (.resolved args) ∧
      Route.fits painting.resolvers tokens.length c.toCommandInfo = true ∧
      painting.LeavesBehind aside c.toCommandInfo (.text source tokens) (.text source []) := by
  intro tokens source
  have hrun : (paint.build >>= fun c =>
      (Schema.Vocabulary.layout ⟨painting.resolvers, painting.conditions⟩ c.root
        [c.toCommandInfo] []).map fun _ =>
          (painting.resolve aside c.toCommandInfo (.text "12 green thin dots"
            [⟨"12", ⟨0, 2⟩⟩, ⟨"green", ⟨3, 8⟩⟩, ⟨"thin", ⟨9, 13⟩⟩, ⟨"dots", ⟨14, 18⟩⟩]),
            Route.fits painting.resolvers 4 c.toCommandInfo,
            (Route.consuming painting.resolvers c.toCommandInfo).getLast?.any (·.isLineOfChoices))) =
      .ok (.ok (.resolved [("who", .user aside.issuer),
        ("count", .integer .w8 ⟨12, by decide, by decide⟩),
        ("color", .enumMember "Color" "Green"), ("notes", .strings ["thin", "dots"])]),
        true, false) := rfl
  obtain ⟨c, hbuild, hlaid⟩ := bind_eq_ok.mp hrun
  obtain ⟨t, hlayout, hresult⟩ := map_eq_ok.mp hlaid
  obtain ⟨hresolve, hresult⟩ := Prod.mk.inj hresult
  obtain ⟨hfits, hline⟩ := Prod.mk.inj hresult
  have hresolvers : painting.resolvers = .withEnums [("Color", ["Red", "Green"])] := rfl
  obtain ⟨rest, hleft, -, hagree⟩ :=
    fits_iff_nothing_left_iff hresolvers rfl List.mem_cons_self hlayout hresolve
  obtain rfl : rest = [] :=
    (hagree.mpr fun hchoices => Bool.eq_false_iff.mp hline hchoices.1).mp hfits
  exact ⟨c, t, _, hbuild, hlayout, hresolve, hfits, hleft⟩

/-- A command with one size out of two. -/
def shirt : CommandDraft where
  path := "shirt"
  description := "Orders a shirt"
  handler := some Handler.idle
  params := [{ name := "size", type := .string, choices := some "small=s,large=l" }]

/-- An overload with any size and a note. -/
def notedShirt : CommandDraft where
  path := "shirt"
  description := "Orders a shirt with a note"
  handler := some Handler.idle
  params :=
    [{ name := "size", type := .string, flags := ["single"] }, { name := "note", type := .string }]

/-- The first overload is chosen because two words fit it, and leaves the second behind. -/
theorem not_nothing_left_shirt :
    let tokens : List Token := [⟨"small", ⟨0, 5⟩⟩, ⟨"soft", ⟨6, 10⟩⟩]
    let input : Input := .text "small soft" tokens
    ∃ c d t args, shirt.build = .ok c ∧ notedShirt.build = .ok d ∧
      Schema.Vocabulary.layout ⟨painting.resolvers, painting.conditions⟩ "shirt"
        [c.toCommandInfo, d.toCommandInfo] [] = .ok t ∧
      Route.choose painting.resolvers [c, d] tokens = some (c, tokens) ∧
      Route.fits painting.resolvers tokens.length c.toCommandInfo = true ∧
      painting.resolve aside c.toCommandInfo input = .ok (.resolved args) ∧
      painting.LeavesBehind aside c.toCommandInfo input
        (.text "small soft" [⟨"soft", ⟨6, 10⟩⟩]) := by
  intro tokens input
  have hrun : (shirt.build >>= fun c => notedShirt.build >>= fun d =>
      (Schema.Vocabulary.layout ⟨painting.resolvers, painting.conditions⟩ "shirt"
        [c.toCommandInfo, d.toCommandInfo] []).map fun _ =>
          (painting.resolve aside c.toCommandInfo
            (.text "small soft" [⟨"small", ⟨0, 5⟩⟩, ⟨"soft", ⟨6, 10⟩⟩]),
            Route.fits painting.resolvers 2 c.toCommandInfo, c.root, c.sub, d.sub,
            painting.wordsBehind c.params [⟨"small", ⟨0, 5⟩⟩, ⟨"soft", ⟨6, 10⟩⟩])) =
      .ok (.ok (.resolved [("size", .string "s")]), true, "shirt", [], [],
        [⟨"soft", ⟨6, 10⟩⟩]) := rfl
  obtain ⟨c, hbuild, hlaid⟩ := bind_eq_ok.mp hrun
  obtain ⟨d, hbuild', hlaid⟩ := bind_eq_ok.mp hlaid
  obtain ⟨t, hlayout, hresult⟩ := map_eq_ok.mp hlaid
  simp only [Prod.mk.injEq] at hresult
  obtain ⟨hresolve, hfits, hroot, hsub, hsub', hwords⟩ := hresult
  have hchosen : Route.choose painting.resolvers [c, d] tokens = some (c, tokens) := by
    have hfits' : Route.fits painting.resolvers tokens.length c.toCommandInfo = true := hfits
    simp [Route.choose, Route.deepest, Route.spells, hsub, hsub', hfits']
  have hleaves : painting.LeavesBehind aside c.toCommandInfo input
      (.text "small soft" [⟨"soft", ⟨6, 10⟩⟩]) := by
    have ht : painting.resolvers.IsStandard := ResolverTable.isStandard_withEnums _
    obtain ⟨params, hparams, hresolved⟩ := resolve_eq_ok hresolve
    obtain ⟨left, hreaches⟩ := exists_reaches_nil hresolved
    have hchecked := checked_of_layout rfl List.mem_cons_self (hroot ▸ hlayout) hparams
    rw [← hwords, ← hchecked.left_eq ht hreaches]
    exact ⟨params, hparams, hreaches⟩
  exact ⟨c, d, t, _, hbuild, hbuild', hlayout, hchosen, hfits, hresolve, hleaves⟩

end Environment

end ChatCommands
