import ChatCommands.Proofs.Dispatch.Arity
import ChatCommands.Proofs.Dispatch.Spans
import ChatCommands.Proofs.Resolve.Choices
import ChatCommands.Proofs.Resolve.Judgement
import ChatCommands.Proofs.Text.WordList

/-!
# Shares of a line

Strings and lists of strings share the words of a message.  What such a parameter makes of its
words has these words again, and with the words that it leaves they are those that it found.
So the shares of all parameters, one behind the other, are the words of the message up to those
that are left behind.
-/

namespace ChatCommands

/-- The words of a value: those of a string, or the items of a list. -/
def Value.words : Value → List String
  | .string s => Text.words s
  | .strings items => items
  | _ => []

/-- A string or a list of strings that takes its words as they are: it has no choices and no
default, and it is not cut anew. -/
structure Param.IsPlain (p : Param) : Prop where
  type : p.type = .string ∨ p.type = .strings
  choices : p.choices = []
  default : p.default = none
  split : p.hasFlag "split" = false

theorem Param.isPlain_iff (p : Param) :
    p.IsPlain ↔ (p.type = .string ∨ p.type = .strings) ∧ p.choices = [] ∧ p.default = none ∧
      p.hasFlag "split" = false :=
  ⟨fun h => ⟨h.type, h.choices, h.default, h.split⟩,
    fun ⟨htype, hchoices, hdefault, hsplit⟩ => ⟨htype, hchoices, hdefault, hsplit⟩⟩

instance (p : Param) : Decidable p.IsPlain :=
  decidable_of_iff _ p.isPlain_iff.symm

theorem Param.leaves_subset (p : Param) (r : Resolver) (isLast : Bool) (tokens : List Token) :
    p.leaves r isLast tokens ⊆ tokens := by
  unfold leaves
  split
  next => exact List.Subset.refl tokens
  next =>
    split
    next => exact List.nil_subset tokens
    next => exact (List.tail_sublist tokens).subset

namespace Resolve

variable {p : Param} {v : Value} {tokens : List Token}

theorem words_of_judgeLine (hwords : ∀ t ∈ tokens, Text.IsWord t.text)
    (h : judgeLine p (tokens.map .word) = .ok v) : v.words = tokens.map (·.text) := by
  unfold judgeLine at h
  split at h
  next hempty =>
    obtain rfl : tokens = [] := by simpa using hempty
    obtain rfl := Except.ok.inj h
    rfl
  next =>
    have htrimmed : (tokens.map Piece.word).map (fun piece => Text.trim piece.text) =
        tokens.map (·.text) := by
      rw [List.map_map]
      exact List.map_congr_left fun t ht => Text.trim_of_not_blank (hwords t ht).not_blank
    rw [htrimmed] at h
    rw [judgeLength_eq_ok h, Value.words, Text.words_join]
    exact List.forall_mem_map.mpr hwords

theorem items_of_words (hsplit : p.hasFlag "split" = false) :
    items p (tokens.map .word) = tokens.map (·.text) := by
  rw [items, hsplit, if_neg Bool.false_ne_true, List.flatMap_map]
  exact (List.map_eq_flatMap (f := fun t : Token => t.text)).symm

end Resolve

namespace Environment

variable {env : Environment} {invocation : Invocation} {p : Param} {r : Resolver}
  {isLast : Bool} {v : Value} {source : String} {token : Token} {tokens : List Token}
  {after : Input}

/-! ## One parameter -/

theorem judge_of_run_one {slot : Slot} {missing : Value} {judge : Piece → Except Refusal Value}
    {rest : Supply}
    (h : (Reading.one missing judge).run slot { input := .text source (token :: tokens) } =
      (.ok v, rest)) : judge (.word token) = .ok v :=
  mapError_eq_ok.mp (congrArg Prod.fst h)

theorem judge_of_run_all {slot : Slot} {judge : List Piece → Except Refusal Value} {rest : Supply}
    (h : (Reading.all judge).run slot { input := .text source tokens } = (.ok v, rest)) :
    judge (tokens.map .word) = .ok v :=
  mapError_eq_ok.mp (congrArg Prod.fst h)

/-- The words of a string that is read and those that are left are the words there were. -/
theorem words_append_of_stringReading (slot : Slot) (hstring : slot.param.type = .string)
    (hwords : ∀ t ∈ token :: tokens, Text.IsWord t.text) {rest : Supply}
    (hrun : slot.stringReading.run slot { input := .text source (token :: tokens) } =
      (.ok v, rest)) :
    v.words ++ (if slot.param.takesAll slot.isLast then [] else tokens).map (·.text) =
      (token :: tokens).map (·.text) := by
  have hword := hwords token List.mem_cons_self
  have hall := slot.exists_stringReading_eq_all_iff
  have htakesAll : slot.param.takesAll slot.isLast = true ↔
      (slot.isLast && !slot.param.hasFlag "single" && !slot.param.hasFlag "raw" &&
        slot.param.choices.isEmpty) = true := by
    simp [Param.takesAll, hstring, ParamType.isVariadic]
  rw [← htakesAll] at hall
  unfold Slot.stringReading at hrun hall
  split at hrun
  next hraw =>
    have hone : ¬ slot.param.takesAll slot.isLast = true := by simp [← hall, hraw]
    rw [if_neg hone, Resolve.judgeLength_eq_ok (judge_of_run_one hrun), Value.words]
    rw [Piece.text, Text.words_of_isWord hword]
    rfl
  next hraw =>
    split at hrun
    next hline =>
      have hmany : slot.param.takesAll slot.isLast = true := by simp [← hall, hraw, hline]
      rw [if_pos hmany, Resolve.words_of_judgeLine hwords (judge_of_run_all hrun)]
      exact List.append_nil _
    next hline =>
      have hone : ¬ slot.param.takesAll slot.isLast = true := by simp [← hall, hraw, hline]
      rw [if_neg hone, Resolve.judgeLength_eq_ok (judge_of_run_one hrun), Value.words]
      rw [Piece.text, Text.trim_of_not_blank hword.not_blank, Text.words_of_isWord hword]
      rfl

theorem words_append_of_run (ht : env.resolvers.IsStandard)
    (hr : env.resolvers.find? p.type = some r) (hp : p.IsPlain)
    (hwords : ∀ t ∈ token :: tokens, Text.IsWord t.text) {rest : Supply}
    (hrun : r.run (env.slot invocation p isLast) { input := .text source (token :: tokens) } =
      (.ok v, rest)) :
    v.words ++ (if p.takesAll isLast then [] else tokens).map (·.text) =
      (token :: tokens).map (·.text) := by
  let slot := env.slot invocation p isLast
  rw [ht.run_eq slot hr] at hrun
  rcases hp.type with htype | htype
  · have hreading : slot.reading = slot.stringReading := by
      rw [Slot.reading, show slot.param.type = .string from htype]
    rw [hreading] at hrun
    exact words_append_of_stringReading slot htype hwords hrun
  · have hreading : slot.reading =
        .all fun pieces => .ok (.strings (Resolve.items p pieces)) := by
      rw [Slot.reading, show slot.param.type = .strings from htype]
      rfl
    have hmany : p.takesAll isLast = true := by simp [Param.takesAll, htype, ParamType.isVariadic]
    rw [hreading] at hrun
    have hjudged := Except.ok.inj (judge_of_run_all hrun)
    rw [if_pos hmany, ← hjudged, Value.words, Resolve.items_of_words hp.split]
    exact List.append_nil _

/-- Without words a string or a list of strings is absent. -/
theorem eq_absent_of_noWords (ht : env.resolvers.IsStandard)
    (hr : env.resolvers.find? p.type = some r) (hp : p.IsPlain)
    (htakes : r.isIssuerOnly p = false)
    (h : env.resolveParam invocation p r isLast (.text source []) = .ok (some (v, after))) :
    v = .absent := by
  cases way_of_resolveParam h with
  | absent => rfl
  | entered hentry =>
      cases hentry with
      | issuer hissuer => cases htakes.symm.trans hissuer
      | chosen hstart =>
          cases hstart with
          | given _ hinput => cases hinput
          | default _ _ hdefault => cases hp.default.symm.trans hdefault
      | bare _ _ _ _ habsent =>
          -- The resolvers that run without input are those of entities.
          rcases eq_of_acceptsAbsent ht hr habsent with ⟨-, hentity⟩ | ⟨-, hentity⟩ | horigin
          · rcases hp.type with htype | htype <;> simp [htype] at hentity
          · rcases hp.type with htype | htype <;> simp [htype] at hentity
          · rw [Resolver.isIssuerOnly, horigin] at htakes
            cases htakes

/-- The words of the value of a parameter and those that it leaves are those that it finds. -/
theorem words_append_leaves (ht : env.resolvers.IsStandard)
    (hr : env.resolvers.find? p.type = some r) (hp : p.IsPlain)
    (htakes : r.isIssuerOnly p = false) (hwords : ∀ t ∈ tokens, Text.IsWord t.text)
    (h : env.resolveParam invocation p r isLast (.text source tokens) = .ok (some (v, after))) :
    v.words ++ (p.leaves r isLast tokens).map (·.text) = tokens.map (·.text) := by
  rw [Param.leaves, htakes, if_neg Bool.false_ne_true]
  cases tokens with
  | nil =>
      rw [eq_absent_of_noWords ht hr hp htakes h, List.tail_nil, ite_self]
      rfl
  | cons token tokens =>
      have hpermits : env.permits invocation p = true := by
        by_contra hdenied
        rw [resolveParam_of_hasInput htakes rfl, if_neg hdenied] at h
        cases h
      rw [resolveParam_eq_accept hp.choices hpermits htakes rfl] at h
      obtain ⟨rest, hrun, -⟩ := accept_eq_some h
      exact words_append_of_run ht hr hp hwords hrun

/-! ## All parameters -/

/-- The words of the arguments that were taken from input, in the order of the parameters. -/
def wordsTaken (env : Environment) (params : List Param) (args : Arguments) : List String :=
  ((params.zip args).filter fun (p, _) => !env.resolvers.isIssuerOnly p).flatMap
    fun (_, arg) => arg.2.words

variable {declared : List Param} {others args : Arguments} {name : String}
  {vocabulary : Schema.Vocabulary} {passed : Schema.Passed} {params : List (Param × Resolver)}

theorem wordsTaken_cons_of_issuer (hr : env.resolvers.find? p.type = some r)
    (hissuer : r.isIssuerOnly p = true) :
    env.wordsTaken (p :: declared) ((name, v) :: others) = env.wordsTaken declared others := by
  rw [wordsTaken, List.zip_cons_cons, List.filter_cons_of_neg, wordsTaken]
  simp [isIssuerOnly_eq hr, hissuer]

theorem wordsTaken_cons_of_takes (hr : env.resolvers.find? p.type = some r)
    (htakes : r.isIssuerOnly p = false) :
    env.wordsTaken (p :: declared) ((name, v) :: others) =
      v.words ++ env.wordsTaken declared others := by
  rw [wordsTaken, List.zip_cons_cons, List.filter_cons_of_pos, List.flatMap_cons, wordsTaken]
  simp [isIssuerOnly_eq hr, htakes]

/-- What plain parameters take and what they leave behind are all words, in order. -/
theorem Checked.wordsTaken_append (h : env.Checked vocabulary passed declared params)
    (ht : env.resolvers.IsStandard) (hplain : ∀ p ∈ env.takers declared, p.IsPlain)
    (hwords : ∀ t ∈ tokens, Text.IsWord t.text)
    (hresolved : env.resolveParams invocation params (.text source tokens) = .ok (some args)) :
    env.wordsTaken declared args ++ (env.wordsBehind declared tokens).map (·.text) =
      tokens.map (·.text) := by
  -- Each parameter hands on what it leaves, and puts its own share in front.
  induction declared generalizing passed params tokens args with
  | nil => rfl
  | cons p declared ih =>
      obtain ⟨r, rest, rfl, hr, hcase⟩ := h.cons
      obtain ⟨v, after, others, hparam, hothers, rfl⟩ := resolveParams_cons_eq_ok hresolved
      obtain rfl := input_of_resolveParam_text ht hr hparam
      rcases hcase with ⟨hissuer, hrest⟩ | ⟨htakes, after, hadd, hrest⟩
      · rw [takers_cons_of_issuer hr hissuer] at hplain
        rw [Param.leaves, if_pos hissuer] at hothers
        rw [wordsTaken_cons_of_issuer hr hissuer, wordsBehind_cons_of_issuer hr hissuer]
        exact ih hrest hplain hwords hothers
      · rw [takers_cons_of_takes hr htakes] at hplain
        obtain ⟨hp, hplain⟩ := List.forall_mem_cons.mp hplain
        have hleft : ∀ t ∈ p.leaves r (isLastOf p r rest) tokens, Text.IsWord t.text :=
          fun t hmem => hwords t (p.leaves_subset r _ tokens hmem)
        rw [wordsTaken_cons_of_takes hr htakes, hrest.wordsBehind_cons hadd hr htakes,
          List.append_assoc, ih hrest hplain hleft hothers]
        exact words_append_leaves ht hr hp htakes hwords hparam

theorem isGreedy_of_isPlain (hp : p.IsPlain) : Route.isGreedy p = p.takesAll true := by
  simp [Route.isGreedy, Param.takesAll, hp.choices]

/-- Where every parameter of a compiled command that takes input is a string or a list of
strings, without choices and without a default, and not cut anew, the words of the arguments in
the order of the parameters are the words of the message: all of them if the last parameter can
take any number of words, and else the first ones, one for each parameter as far as they go. -/
theorem wordsTaken_eq {enums : List (String × List String)}
    (hresolvers : env.resolvers = .withEnums enums) {v : Schema.Vocabulary}
    (hv : v.resolvers = env.resolvers) {commands : List CommandInfo} {groups : List Group}
    {c : CommandInfo} (hc : c ∈ commands) {t : Schema.Tree}
    (hlayout : v.layout c.root commands groups = .ok t)
    (hplain : ∀ p ∈ Route.consuming env.resolvers c, p.IsPlain)
    (hwords : ∀ token ∈ tokens, Text.IsWord token.text)
    (h : env.resolve invocation c (.text source tokens) = .ok (.resolved args)) :
    env.wordsTaken c.params args =
      if (Route.consuming env.resolvers c).getLast?.any Route.isGreedy then
        tokens.map (·.text)
      else
        (tokens.map (·.text)).take
          (min tokens.length (Route.consuming env.resolvers c).length) := by
  have ht : env.resolvers.IsStandard := hresolvers ▸ ResolverTable.isStandard_withEnums enums
  obtain ⟨params, hparams, hresolved⟩ := resolve_eq_ok h
  have hall : env.wordsTaken c.params args ++ (env.wordsBehind c.params tokens).map (·.text) =
      tokens.map (·.text) :=
    (checked_of_layout hv hc hlayout hparams).wordsTaken_append ht hplain hwords hresolved
  have hgreedy : (env.takers c.params).getLast?.any (·.takesAll true) =
      (Route.consuming env.resolvers c).getLast?.any Route.isGreedy := by
    rw [Route.consuming, ← takers]
    cases hlast : (env.takers c.params).getLast? with
    | none => rfl
    | some last => exact (isGreedy_of_isPlain (hplain last (List.mem_of_getLast? hlast))).symm
  rw [wordsBehind, hgreedy] at hall
  split at hall
  next hall' =>
    rw [if_pos hall', ← hall]
    exact (List.append_nil _).symm
  next hfew =>
    have hcut : (tokens.map (·.text)).take (env.takers c.params).length ++
        (tokens.drop (env.takers c.params).length).map (·.text) = tokens.map (·.text) := by
      rw [List.map_drop, List.take_append_drop]
    have hleast : (tokens.map (·.text)).take
        (min tokens.length (Route.consuming env.resolvers c).length) =
          (tokens.map (·.text)).take (env.takers c.params).length := by
      rw [List.take_eq_take_min (i := (env.takers c.params).length), List.length_map,
        Nat.min_comm]
      rfl
    rw [if_neg hfew, hleast]
    exact List.append_cancel_right (hall.trans hcut.symm)

/-- A command that takes a title and a text, with the issuer behind them. -/
def note : CommandDraft where
  path := "note"
  description := "Leaves a note"
  handler := some Handler.idle
  params :=
    [{ name := "title", type := .string }, { name := "body", type := .string },
      { name := "by", type := .user }]

/-- The text takes all words behind the title. -/
theorem wordsTaken_note :
    let source := "wall \u3000wet paint\nhere"
    ∃ c t args, note.build = .ok c ∧
      Schema.Vocabulary.layout ⟨painting.resolvers, painting.conditions⟩ c.root
        [c.toCommandInfo] [] = .ok t ∧
      (∀ p ∈ Route.consuming painting.resolvers c.toCommandInfo, p.IsPlain) ∧
      painting.resolve aside c.toCommandInfo (.text source (Tokens.ofText source)) =
        .ok (.resolved args) ∧
      painting.wordsTaken c.params args = ["wall", "wet", "paint", "here"] := by
  intro source
  have hrun : (note.build >>= fun c =>
      (Schema.Vocabulary.layout ⟨painting.resolvers, painting.conditions⟩ c.root
        [c.toCommandInfo] []).map fun _ =>
          (painting.resolve aside c.toCommandInfo
            (.text "wall \u3000wet paint\nhere" (Tokens.ofText "wall \u3000wet paint\nhere")),
            decide (∀ p ∈ Route.consuming painting.resolvers c.toCommandInfo, p.IsPlain),
            (Route.consuming painting.resolvers c.toCommandInfo).getLast?.any Route.isGreedy)) =
      .ok (.ok (.resolved [("title", .string "wall"), ("body", .string "wet paint here"),
        ("by", .user aside.issuer)]), true, true) := rfl
  obtain ⟨c, hbuild, hlaid⟩ := bind_eq_ok.mp hrun
  obtain ⟨t, hlayout, hresult⟩ := map_eq_ok.mp hlaid
  obtain ⟨hresolve, hresult⟩ := Prod.mk.inj hresult
  obtain ⟨hdecided, hgreedy⟩ := Prod.mk.inj hresult
  have hplain := of_decide_eq_true hdecided
  have hresolvers : painting.resolvers = .withEnums [("Color", ["Red", "Green"])] := rfl
  have htaken := wordsTaken_eq hresolvers rfl List.mem_cons_self hlayout hplain
    (fun t ht => Tokens.isWord_of_mem_scan ht) hresolve
  rw [if_pos hgreedy] at htaken
  exact ⟨c, t, _, hbuild, hlayout, hplain, hresolve, htaken⟩

end Environment

end ChatCommands
