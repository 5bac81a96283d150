import ChatCommands.Proofs.Resolve.Alone
import ChatCommands.Proofs.Resolve.FrontEnds

/-!
# What a resolution takes of a text

A parameter that takes input takes the next word, or all that are left if it is made for the
rest of a line.  How many words a resolution takes, and whether it misses some, follows from
their number and the parameters alone, whatever the words are.
-/

namespace ChatCommands

/-- The words that a parameter leaves of those it finds. -/
def Param.leaves (p : Param) (r : Resolver) (isLast : Bool) (tokens : List Token) : List Token :=
  if r.isIssuerOnly p then tokens
  else if p.takesAll isLast then []
  else tokens.tail

namespace Environment

open Supply

variable {env : Environment} {invocation : Invocation} {p : Param} {r : Resolver}
  {isLast : Bool} {v : Value} {source : String} {tokens : List Token} {after left : Input}

/-! ## One parameter -/

theorem leads_of_applyChoices {s chosen : Supply} (h : s.Leads p.name source tokens)
    (hchosen : applyChoices p s = .ok chosen) : chosen.Leads p.name source tokens := by
  by_cases hchoices : p.choices = []
  · rw [applyChoices, hchoices] at hchosen
    exact Except.ok.inj hchosen ▸ h
  · obtain ⟨piece, span, hpop⟩ := h.pop
    rw [applyChoices_of_pop hchoices hpop] at hchosen
    split at hchosen
    next => cases hchosen
    next => exact Except.ok.inj hchosen ▸ leads_give rfl _

/-- A resolver that gives a value takes the piece that comes next, and all words behind it
if it takes the rest of a line. -/
theorem input_of_run_of_leads (ht : env.resolvers.IsStandard)
    (hr : env.resolvers.find? p.type = some r) (htakes : r.isIssuerOnly p = false)
    {s rest : Supply} (h : s.Leads p.name source tokens)
    (hrun : r.run (env.slot invocation p isLast) s = (.ok v, rest)) :
    rest.input = .text source (if p.takesAll isLast then [] else tokens) := by
  let slot := env.slot invocation p isLast
  have hslot : slot.param.name = p.name := rfl
  have hall := slot.exists_reading_eq_all_iff
  rw [ht.run_eq slot hr] at hrun
  cases hreading : slot.reading with rw [hreading] at hrun hall
  | unread result =>
      have hresult := mapError_eq_ok.mp (congrArg Prod.fst hrun)
      exact absurd (hresult ▸ hreading) (ht.reading_ne_unread slot hr rfl htakes v)
  | one missing judge =>
      have hword : ¬ p.takesAll isLast = true := fun hline => by
        obtain ⟨judge', hjudge⟩ := hall.mpr hline
        cases hjudge
      obtain ⟨piece, span, hpop⟩ := h.pop
      simp only [Reading.run, Slot.withPiece, hslot, hpop] at hrun
      obtain rfl : (⟨.text source tokens, none, span⟩ : Supply) = rest := congrArg Prod.snd hrun
      rw [if_neg hword]
  | all judge =>
      have hline : p.takesAll isLast = true := hall.mp ⟨judge, rfl⟩
      obtain rfl : (s.popRest p.name).2 = rest := congrArg Prod.snd hrun
      rw [if_pos hline, h.popRest]

theorem input_of_resolveParam_text (ht : env.resolvers.IsStandard)
    (hr : env.resolvers.find? p.type = some r)
    (h : env.resolveParam invocation p r isLast (.text source tokens) = .ok (some (v, after))) :
    after = .text source (p.leaves r isLast tokens) := by
  unfold Param.leaves
  by_cases hissuer : r.isIssuerOnly p = true
  · rw [if_pos hissuer]
    let slot := env.slot invocation p isLast
    obtain ⟨result, hunread⟩ := ht.reading_of_isIssuerOnly slot hr hissuer
    rw [(Entry.issuer hissuer).resolveParam_eq] at h
    obtain ⟨rest, hrun, rfl⟩ := accept_eq_some h
    rw [ht.run_eq slot hr, hunread] at hrun
    exact (congrArg (·.2.input) hrun).symm
  · rw [if_neg hissuer]
    have htakes : r.isIssuerOnly p = false := Bool.eq_false_iff.mpr hissuer
    cases tokens with
    | nil =>
        have hnone := keeps_of_resolveParam (keeps_noWords p.name source) ht hr rfl h
        simpa using hnone
    | cons token tokens =>
        rw [resolveParam_of_hasInput htakes rfl] at h
        split at h
        next =>
          obtain ⟨s, hs, haccept⟩ := bind_eq_ok.mp h
          obtain ⟨rest, hrun, rfl⟩ := accept_eq_some haccept
          have hleads := leads_of_applyChoices (leads_word p.name source token tokens) hs
          exact input_of_run_of_leads ht hr htakes hleads hrun
        next => cases h

/-! ## All parameters -/

/-- The parameters among some that take input. -/
def takers (env : Environment) (params : List Param) : List Param :=
  params.filter fun p => !env.resolvers.isIssuerOnly p

/-- How many words some parameters require. -/
def required (env : Environment) (params : List Param) : Nat :=
  ((env.takers params).filter (·.requiresInput)).length

variable {vocabulary : Schema.Vocabulary} {passed : Schema.Passed} {declared : List Param}
  {rest params : List (Param × Resolver)}

theorem takers_cons_of_issuer (hr : env.resolvers.find? p.type = some r)
    (hissuer : r.isIssuerOnly p = true) : env.takers (p :: declared) = env.takers declared :=
  List.filter_cons_of_neg (by simp [isIssuerOnly_eq hr, hissuer])

theorem takers_cons_of_takes (hr : env.resolvers.find? p.type = some r)
    (htakes : r.isIssuerOnly p = false) : env.takers (p :: declared) = p :: env.takers declared :=
  List.filter_cons_of_pos (by simp [isIssuerOnly_eq hr, htakes])

theorem required_cons_of_issuer (hr : env.resolvers.find? p.type = some r)
    (hissuer : r.isIssuerOnly p = true) : env.required (p :: declared) = env.required declared := by
  rw [required, takers_cons_of_issuer hr hissuer, required]

theorem required_cons_of_takes (hr : env.resolvers.find? p.type = some r)
    (htakes : r.isIssuerOnly p = false) :
    env.required (p :: declared) =
      if p.requiresInput then env.required declared + 1 else env.required declared := by
  rw [required, takers_cons_of_takes hr htakes, List.filter_cons]
  split
  next => exact List.length_cons
  next => rfl

namespace Checked

/-- Behind a parameter that can do without input, nothing requires any. -/
theorem required_eq_zero {after : Schema.Passed} (h : env.Checked vocabulary after declared rest)
    (hadd : passed.add p = .ok after) (hfree : p.requiresInput = false) :
    env.required declared = 0 := by
  obtain ⟨hoptional, -⟩ := Schema.Passed.optional_of_add hadd
  obtain ⟨-, hbehind⟩ := Schema.Vocabulary.pairwise_requiresInput h.checks
  rw [Schema.Vocabulary.filter_isShown h.checks, h.resolvers] at hbehind
  rw [required, List.length_eq_zero_iff, List.filter_eq_nil_iff]
  intro q hq
  simpa using hbehind (by simp [hoptional, hfree]) q hq

/-- A parameter that gets what it requires leaves too few words for the others exactly when
there are too few for all of them. -/
theorem length_leaves_lt_iff {after : Schema.Passed}
    (h : env.Checked vocabulary after declared rest) (hadd : passed.add p = .ok after)
    (hr : env.resolvers.find? p.type = some r) (htakes : r.isIssuerOnly p = false)
    (hgiven : p.requiresInput = true → tokens ≠ []) :
    (p.leaves r (isLastOf p r rest) tokens).length < env.required declared ↔
      tokens.length < env.required (p :: declared) := by
  rw [required_cons_of_takes hr htakes, Param.leaves, htakes, if_neg Bool.false_ne_true]
  by_cases hrequires : p.requiresInput = true
  · have hlength := List.length_pos_iff.mpr (hgiven hrequires)
    rw [if_pos hrequires]
    by_cases hall : p.takesAll (isLastOf p r rest) = true
    · have hzero : env.required declared = 0 := by
        rw [required, takers, h.filter_eq_nil hadd hall]
        rfl
      omega
    · rw [if_neg hall, List.length_tail]
      omega
  · have hzero := h.required_eq_zero hadd (Bool.eq_false_iff.mpr hrequires)
    rw [if_neg hrequires]
    omega

/-- A resolution without error misses input exactly when there are fewer words than
parameters that require one. -/
theorem eq_none_iff (h : env.Checked vocabulary passed declared params)
    (ht : env.resolvers.IsStandard) {found : Option Arguments}
    (hfound : env.resolveParams invocation params (.text source tokens) = .ok found) :
    found = none ↔ tokens.length < env.required declared := by
  -- Each parameter keeps the balance between the words that are left and those that are
  -- still required.
  induction declared generalizing passed params tokens found with
  | nil =>
      obtain rfl := h.nil
      obtain rfl := Except.ok.inj hfound
      simp [required, takers]
  | cons p declared ih =>
      obtain ⟨r, rest, rfl, hr, hcase⟩ := h.cons
      simp only [resolveParams] at hfound
      split at hfound
      next => cases hfound
      next hmissing =>
        obtain ⟨htakes, hempty, hrequires⟩ := resolveParam_eq_none_iff.mp hmissing
        obtain rfl : tokens = [] := by simpa [hasInput] using hempty
        rw [required_cons_of_takes hr htakes, if_pos hrequires]
        simpa using hfound.symm
      next v after hparam =>
        obtain ⟨others, hothers, rfl⟩ := map_eq_ok.mp hfound
        obtain rfl := input_of_resolveParam_text ht hr hparam
        rw [Option.map_eq_none_iff]
        rcases hcase with ⟨hissuer, hrest⟩ | ⟨htakes, after, hadd, hrest⟩
        · rw [ih hrest hothers, required_cons_of_issuer hr hissuer, Param.leaves, if_pos hissuer]
        · rw [ih hrest hothers]
          refine hrest.length_leaves_lt_iff hadd hr htakes fun hrequires hempty => ?_
          rw [hempty, resolveParam_eq_none_iff.mpr ⟨htakes, rfl, hrequires⟩] at hparam
          cases hparam

end Checked

/-! ## What is left behind -/

/-- The words that parameters leave behind: none if the last that takes input takes all, and
else those beyond one for each that takes input. -/
def wordsBehind (env : Environment) (params : List Param) (tokens : List Token) : List Token :=
  if (env.takers params).getLast?.any (·.takesAll true) then []
  else tokens.drop (env.takers params).length

theorem wordsBehind_cons_of_issuer (hr : env.resolvers.find? p.type = some r)
    (hissuer : r.isIssuerOnly p = true) :
    env.wordsBehind (p :: declared) tokens = env.wordsBehind declared tokens := by
  rw [wordsBehind, takers_cons_of_issuer hr hissuer, wordsBehind]

namespace Checked

theorem isLastOf_eq (h : env.Checked vocabulary passed declared rest)
    (htakes : r.isIssuerOnly p = false) (hnone : env.takers declared = []) :
    isLastOf p r rest = true := by
  rw [isLastOf, htakes, Bool.not_false, Bool.true_and]
  induction declared generalizing passed rest with
  | nil =>
      obtain rfl := h.nil
      rfl
  | cons q declared ih =>
      obtain ⟨s, rest, rfl, hs, ⟨hissuer, hrest⟩ | ⟨htakes, after, hadd, hrest⟩⟩ := h.cons
      · rw [takers_cons_of_issuer hs hissuer] at hnone
        rw [List.all_cons, ih hrest hnone, Bool.and_true]
        exact hissuer
      · rw [takers_cons_of_takes hs htakes] at hnone
        cases hnone

theorem wordsBehind_cons {after : Schema.Passed} (h : env.Checked vocabulary after declared rest)
    (hadd : passed.add p = .ok after) (hr : env.resolvers.find? p.type = some r)
    (htakes : r.isIssuerOnly p = false) :
    env.wordsBehind (p :: declared) tokens =
      env.wordsBehind declared (p.leaves r (isLastOf p r rest) tokens) := by
  rw [wordsBehind, takers_cons_of_takes hr htakes, wordsBehind, Param.leaves, htakes,
    if_neg Bool.false_ne_true]
  cases hnone : env.takers declared with
  | nil =>
      rw [h.isLastOf_eq htakes hnone]
      simp
  | cons q others =>
      have hword : ¬ p.takesAll (isLastOf p r rest) = true := by
        intro hall
        have hnil := h.filter_eq_nil hadd hall
        rw [← takers, hnone] at hnil
        cases hnil
      rw [if_neg hword, List.getLast?_cons_cons, List.drop_tail]
      rfl

/-- A resolution that gets through leaves behind what its parameters do not take. -/
theorem left_eq (h : env.Checked vocabulary passed declared params)
    (ht : env.resolvers.IsStandard)
    (hreaches : env.Reaches invocation params (.text source tokens) [] left) :
    left = .text source (env.wordsBehind declared tokens) := by
  induction declared generalizing passed params tokens with
  | nil =>
      obtain rfl := h.nil
      cases hreaches
      rfl
  | cons p declared ih =>
      obtain ⟨r, rest, rfl, hr, hcase⟩ := h.cons
      cases hreaches with
      | later hparam hbehind =>
          obtain rfl := input_of_resolveParam_text ht hr hparam
          rcases hcase with ⟨hissuer, hrest⟩ | ⟨htakes, after, hadd, hrest⟩
          · rw [ih hrest hbehind, wordsBehind_cons_of_issuer hr hissuer, Param.leaves,
              if_pos hissuer]
          · rw [ih hrest hbehind, hrest.wordsBehind_cons hadd hr htakes]

end Checked

theorem exists_reaches_nil {input : Input} {args : Arguments}
    (h : env.resolveParams invocation params input = .ok (some args)) :
    ∃ left, env.Reaches invocation params input [] left := by
  induction params generalizing input args with
  | nil => exact ⟨input, .here _ _⟩
  | cons found rest ih =>
      obtain ⟨p, r⟩ := found
      obtain ⟨v, after, others, hparam, hrest, -⟩ := resolveParams_cons_eq_ok h
      obtain ⟨left, hreaches⟩ := ih hrest
      exact ⟨left, .later hparam hreaches⟩

end Environment

end ChatCommands
