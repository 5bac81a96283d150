import ChatCommands.Proofs.Catalog.Isolation
import ChatCommands.Proofs.Text.FileName

/-!
# Paths as they were declared

A command is declared under a path in any spelling and kept under the lowercase of its words.
Both ways into a dispatcher turn the first word they are given into lowercase again and compare
the words behind it without regard to the case of ASCII letters.  So a command answers to the
spelling it was declared with exactly when lowercase changes nothing but ASCII letters behind
the first word.
-/

namespace ChatCommands

/-! ## The words of a message -/

namespace Tokens

/-- The words of a message are those of its text, whatever is in front of it. -/
theorem texts_scan (offset : Nat) {word : List Char} (hword : ∀ c ∈ word, Text.isBlank c = false)
    (cs : List Char) :
    (scan offset word cs).map (·.text) =
      ((Text.pieces Text.isBlank (word.reverse ++ cs)).filter (!·.isEmpty)).map String.ofList := by
  have hwhole : ∀ stop (word : List Char), (∀ c ∈ word, Text.isBlank c = false) →
      (wordBefore stop word).map (·.text) =
        ((Text.pieces Text.isBlank word.reverse).filter (!·.isEmpty)).map String.ofList := by
    intro stop word hword
    rw [Text.pieces_of_not_cut fun c hc => hword c (List.mem_reverse.mp hc)]
    cases word with
    | nil => rfl
    | cons c rest => simp [wordBefore]
  induction cs generalizing offset word with
  | nil => rw [List.append_nil, scan, hwhole offset word hword]
  | cons c rest ih =>
      rw [scan]
      split
      next hblank =>
        rw [Text.pieces_append_cons hblank, List.map_append, hwhole offset word hword, ih]
        · simp
        · exact fun _ hc => absurd hc List.not_mem_nil
      next hblank =>
        rw [ih, List.reverse_cons, List.append_assoc, List.singleton_append]
        exact List.forall_mem_cons.mpr ⟨Bool.eq_false_iff.mpr hblank, hword⟩

theorem texts_scan_nil (offset : Nat) (s : String) :
    (scan offset [] s.toList).map (·.text) = Text.words s :=
  texts_scan offset (fun _ hc => absurd hc List.not_mem_nil) s.toList

end Tokens

namespace Triggers

theorem behindMention?_bang (id : Snowflake) (rest : List Char) {mention : String}
    (h : mention ∈ mentionForms id) : behindMention? ('!' :: rest) mention = none := by
  obtain ⟨others, hfirst⟩ : ∃ others, mention.toList = '<' :: others := by
    simp only [mentionForms, List.mem_cons, List.not_mem_nil, or_false] at h
    rcases h with rfl | rfl
    · exact ⟨'@' :: (id.text.toList ++ ['>']), by simp [String.toList_append]⟩
    · exact ⟨'@' :: '!' :: (id.text.toList ++ ['>']), by simp [String.toList_append]⟩
  rw [behindMention?, behind?, hfirst, Text.dropLead, if_neg (by decide)]
  rfl

/-- Behind the only trigger stands the command. -/
theorem exists_strip?_bang (mentioned : Option Snowflake) (s : String) :
    ∃ offset, strip? ⟨["!"], mentioned⟩ ("!" ++ s) = some (offset, s.toList) := by
  have hlist : ("!" ++ s).toList = '!' :: s.toList := by simp [String.toList_append]
  have hspan : ('!' :: s.toList).span Text.isBlank = ([], '!' :: s.toList) := by
    rfl
  have hmention : (mentioned.toList.flatMap mentionForms).findSome?
      (behindMention? ('!' :: s.toList)) = none := by
    rw [List.findSome?_eq_none_iff]
    intro mention hmem
    obtain ⟨id, -, hform⟩ := List.mem_flatMap.mp hmem
    exact behindMention?_bang id _ hform
  have hfind : find? ⟨["!"], mentioned⟩ ('!' :: s.toList) = some ("!", s.toList) := by
    rw [find?, hmention, Option.none_or]
    rfl
  rw [strip?, hlist, hspan]
  simp only [hfind, Option.map_some]
  exact ⟨_, rfl⟩

end Triggers

/-! ## Words in the case in which they were written -/

namespace Text

theorem asciiLower_of_isLower {s : String} (h : IsLower s) : asciiLower s = s := by
  rw [asciiLower, map_toLower_of_isLower h, String.ofList_toList]

theorem asciiEq_iff {a b : String} : asciiEq a b = true ↔ asciiLower a = asciiLower b := by
  rw [asciiEq, beq_iff_eq, asciiLower, asciiLower, ← String.toList_inj, String.toList_ofList,
    String.toList_ofList]

/-- Lowercase changes nothing but the letters of ASCII. -/
def LowersInAscii (word : String) : Prop :=
  lower word = asciiLower word

instance (word : String) : Decidable (LowersInAscii word) :=
  inferInstanceAs (Decidable (_ = _))

end Text

namespace Routes

theorem sameWords_iff_map {a b : List String} :
    sameWords a b = true ↔ a.map Text.asciiLower = b.map Text.asciiLower := by
  induction a generalizing b with
  | nil => cases b <;> simp [sameWords]
  | cons word rest ih =>
      cases b with
      | nil => simp [sameWords]
      | cons other others =>
          have hcons : sameWords (word :: rest) (other :: others) =
              (Text.asciiEq word other && sameWords rest others) := by
            simp only [sameWords, List.length_cons, List.zip_cons_cons, List.all_cons]
            rw [Bool.and_left_comm]
            simp
          rw [hcons, Bool.and_eq_true, ih, Text.asciiEq_iff, List.map_cons, List.map_cons,
            List.cons.injEq]

/-- Words are their own lowercase, up to the case of ASCII letters, if lowercase changes only
that. -/
theorem sameWords_map_lower_iff {words : List String} :
    sameWords (words.map Text.lower) words = true ↔ ∀ word ∈ words, Text.LowersInAscii word := by
  rw [sameWords_iff_map, List.map_map, List.map_inj_left]
  refine forall₂_congr fun word _ => ?_
  rw [Function.comp_apply, Text.asciiLower_of_isLower (Text.isLower_lower word)]
  rfl

end Routes

/-! ## The command of a path -/

namespace Route

variable {candidates : List Command} {tokens rest : List Token} {table : ResolverTable}
  {c found : Command}

/-- Words beyond the path aside, a command is spelled out by the words of its path. -/
theorem spells_iff (h : c.sub.length = tokens.length) :
    spells tokens c.toCommandInfo = true ↔ Routes.sameWords c.sub (tokens.map (·.text)) = true := by
  rw [spells, Routes.sameWords, List.zip_map_right, List.all_map, List.length_map, h]
  simp

theorem mem_of_choose (h : choose table candidates tokens = some (found, rest)) :
    found ∈ deepest candidates tokens := by
  obtain ⟨c, hc, hpair⟩ := Option.map_eq_some_iff.mp h
  obtain rfl : c = found := (Prod.mk.inj hpair).1
  rcases Option.or_eq_some_iff.mp hc with hfits | ⟨-, hfirst⟩
  · exact List.mem_of_find?_eq_some hfits
  · exact List.mem_of_mem_head? hfirst

theorem exists_choose (table : ResolverTable) (h : c ∈ deepest candidates tokens) :
    ∃ found rest, choose table candidates tokens = some (found, rest) := by
  obtain ⟨first, others, hcons⟩ := List.exists_cons_of_ne_nil (List.ne_nil_of_mem h)
  rw [choose, hcons, List.head?_cons, Option.or_some]
  exact ⟨_, _, rfl⟩

theorem mem_deepest :
    c ∈ deepest candidates tokens ↔
      (c ∈ candidates ∧ spells tokens c.toCommandInfo = true) ∧
        ∀ other ∈ candidates, spells tokens other.toCommandInfo = true →
          other.sub.length ≤ c.sub.length := by
  simp only [deepest, List.mem_filter, List.all_eq_true, decide_eq_true_eq, and_imp]

/-- If the words spell out the whole path of a command, a command of that path is chosen. -/
theorem choose_of_sameWords (hc : c ∈ candidates)
    (hsame : Routes.sameWords c.sub (tokens.map (·.text)) = true) :
    ∃ found rest, choose table candidates tokens = some (found, rest) ∧ found ∈ candidates ∧
      Routes.sameWords found.sub (tokens.map (·.text)) = true := by
  have hlength : c.sub.length = tokens.length := by
    simp only [Routes.sameWords, Bool.and_eq_true, beq_iff_eq, List.length_map] at hsame
    exact hsame.1
  have hdeepest : c ∈ deepest candidates tokens := by
    refine mem_deepest.mpr ⟨⟨hc, (spells_iff hlength).mpr hsame⟩, ?_⟩
    intro other _ hspells
    simp only [spells, Bool.and_eq_true, decide_eq_true_eq] at hspells
    exact hlength ▸ hspells.1
  obtain ⟨found, rest, hchoose⟩ := exists_choose table hdeepest
  obtain ⟨⟨hfound, hspells⟩, hmost⟩ := mem_deepest.mp (mem_of_choose hchoose)
  have hspelled : found.sub.length = tokens.length := by
    have hleast := hmost c hc ((spells_iff hlength).mpr hsame)
    simp only [spells, Bool.and_eq_true, decide_eq_true_eq] at hspells
    omega
  exact ⟨found, rest, hchoose, hfound, (spells_iff hspelled).mp hspells⟩

theorem sameWords_of_choose (h : choose table candidates tokens = some (found, rest))
    (hlength : found.sub.length = tokens.length) :
    found ∈ candidates ∧ Routes.sameWords found.sub (tokens.map (·.text)) = true := by
  obtain ⟨⟨hfound, hspells⟩, -⟩ := mem_deepest.mp (mem_of_choose h)
  exact ⟨hfound, (spells_iff hlength).mp hspells⟩

end Route

namespace Dispatcher

/-- A message of the trigger `!` and a path leads to a command of the given path. -/
def AnswersText (d : Dispatcher) (spelling : String) (path : List String) : Prop :=
  ∃ c rest, d.route ("!" ++ spelling) = .matched c rest ∧ c.path = path

/-- A structured call under a path finds a command of the given path. -/
def AnswersOptions (d : Dispatcher) (spelling : String) (path : List String) : Prop :=
  ∃ c, d.catalog.routes.find? (Text.words spelling) = some c ∧ c.path = path

variable {d : Dispatcher} {spelling first : String} {words : List String}
  {candidates : List Command}

/-- A message of the trigger and of words leads where the words behind the first choose. -/
theorem exists_route (htriggers : d.config.triggers = ["!"])
    (hwords : Text.words spelling = first :: words)
    (hget : d.catalog.routes.get? first = some candidates) :
    ∃ tokens : List Token, tokens.map (·.text) = words ∧
      d.route ("!" ++ spelling) =
        match Route.choose d.environment.resolvers candidates tokens with
        | some (c, rest) => .matched c rest
        | none => .unknown (Text.lower first) := by
  obtain ⟨offset, hstrip⟩ :=
    Triggers.exists_strip?_bang (if d.config.mentionTrigger then d.config.botId else none) spelling
  have htexts := Tokens.texts_scan_nil offset spelling
  rw [hwords] at htexts
  obtain ⟨token, tokens, hscan, rfl, hrest⟩ := List.map_eq_cons_iff.mp htexts
  refine ⟨tokens, hrest, ?_⟩
  rw [route, Route.ofText, Config.activeTriggers, htriggers, hstrip]
  cases hchoose : Route.choose d.environment.resolvers candidates tokens with
  | none => simp only [hscan, Route.ofTokens, hget, hchoose, Option.bind_some]
  | some chosen => simp only [hscan, Route.ofTokens, hget, hchoose, Option.bind_some]

theorem answersText_iff {c : Command} (hc : c ∈ candidates)
    (hpath : ∀ found ∈ candidates, found.path = c.path ↔ Routes.sameWords found.sub c.sub = true)
    (htriggers : d.config.triggers = ["!"]) (hwords : Text.words spelling = first :: words)
    (hget : d.catalog.routes.get? first = some candidates) (hlength : c.sub.length = words.length) :
    d.AnswersText spelling c.path ↔ Routes.sameWords c.sub words = true := by
  obtain ⟨tokens, rfl, hroute⟩ := exists_route htriggers hwords hget
  rw [AnswersText, hroute]
  constructor
  · rintro ⟨found, rest, hmatched, hsame⟩
    split at hmatched
    next c' rest' hchoose =>
      obtain ⟨rfl, rfl⟩ : c' = found ∧ rest' = rest := by simpa using hmatched
      have hsub : c'.sub = c.sub := (List.cons.inj hsame).2
      rw [← hsub]
      exact (Route.sameWords_of_choose hchoose (by rw [hsub, hlength, List.length_map])).2
    next => cases hmatched
  · intro hsame
    obtain ⟨found, rest, hchoose, hfound, hspelled⟩ := Route.choose_of_sameWords hc hsame
    refine ⟨found, rest, by rw [hchoose], (hpath found hfound).mpr ?_⟩
    rw [Routes.sameWords_iff_map] at hsame hspelled ⊢
    rw [hspelled, hsame]

theorem answersOptions_iff {c : Command} (hc : c ∈ candidates)
    (hpath : ∀ found ∈ candidates, found.path = c.path ↔ Routes.sameWords found.sub c.sub = true)
    (hwords : Text.words spelling = first :: words)
    (hget : d.catalog.routes.get? first = some candidates) :
    d.AnswersOptions spelling c.path ↔ Routes.sameWords c.sub words = true := by
  rw [AnswersOptions, hwords, Routes.find?, hget, Option.bind_some]
  constructor
  · rintro ⟨found, hfound, hsame⟩
    have hsub : found.sub = c.sub := (List.cons.inj hsame).2
    rw [← hsub]
    exact List.find?_some (p := fun other : Command => Routes.sameWords other.sub words) hfound
  · intro hsame
    have hsome : (candidates.find? (Routes.sameWords ·.sub words)).isSome = true := by
      rw [List.find?_isSome]
      exact ⟨c, hc, hsame⟩
    obtain ⟨found, hfound⟩ := Option.isSome_iff_exists.mp hsome
    refine ⟨found, hfound, (hpath found (List.mem_of_find?_eq_some hfound)).mpr ?_⟩
    have hspelled : Routes.sameWords found.sub words = true :=
      List.find?_some (p := fun other : Command => Routes.sameWords other.sub words) hfound
    rw [Routes.sameWords_iff_map] at hsame hspelled ⊢
    rw [hspelled, hsame]

end Dispatcher

namespace Application

variable {app : Application} {d : Dispatcher} {draft : CommandDraft} {c : Command}

theorem build_eq_ok (h : app.build = .ok d) :
    d = ⟨app.config, app.environment, app.catalog⟩ := by
  obtain ⟨⟨⟩, -, hd⟩ := map_eq_ok.mp h
  exact hd.symm

theorem isDeclared_of_mem_kept {drafts : List CommandDraft} (h : c ∈ kept drafts) :
    c.IsDeclared := by
  obtain ⟨⟨draft, -, hbuild⟩, -⟩ := mem_kept h
  exact ⟨draft, hbuild⟩

/-- A command whose root has a tree is one of those that were kept. -/
theorem mem_kept_of_mem_trees (hdraft : draft ∈ app.commands) (hc : draft.build = .ok c)
    (htree : ∃ t ∈ app.catalog.trees, t.name = c.root) : c ∈ kept app.commands := by
  obtain ⟨t, ht, hname⟩ := htree
  obtain ⟨hroot, -⟩ := Catalog.mem_trees_compile ht
  obtain ⟨other, hother, hroot⟩ := Catalog.mem_rootsOf.mp hroot
  refine List.mem_filter.mpr ⟨?_, ?_⟩
  · exact List.mem_filterMap.mpr ⟨draft, hdraft, by rw [hc]; rfl⟩
  · rw [List.all_eq_true]
    intro f hf
    rw [← hname, ← hroot, bne_iff_ne]
    exact (mem_kept hother).2 f hf

/-- The root of a tree leads to its commands, unless another root has taken its name. -/
theorem get?_catalog_of_not_captured (htree : ∃ t ∈ app.catalog.trees, t.name = c.root)
    (hfree : ¬ Catalog.Captured app.vocabulary (kept app.commands) app.groups c.root) :
    app.catalog.routes.get? c.root = some (Catalog.membersOf c.root (kept app.commands)) := by
  obtain ⟨t, ht, hname⟩ := htree
  rw [← hname] at hfree ⊢
  exact Catalog.get?_of_not_captured (fun _ h => isDeclared_of_mem_kept h) ht hfree

/-- Without further names, the root of a tree leads to its commands. -/
theorem get?_catalog (haliases : ∀ g ∈ app.groups, g.aliases = [])
    (htree : ∃ t ∈ app.catalog.trees, t.name = c.root) :
    app.catalog.routes.get? c.root = some (Catalog.membersOf c.root (kept app.commands)) := by
  refine get?_catalog_of_not_captured htree ?_
  rintro ⟨earlier, -, -, word, hword, -⟩
  obtain ⟨g, hg, hword⟩ := List.mem_flatMap.mp hword
  rw [haliases g (List.mem_filter.mp hg).1] at hword
  exact List.not_mem_nil hword

/-- Commands of one root have the same path if the words behind it are the same. -/
theorem path_eq_iff_sameWords {drafts : List CommandDraft} (hc : c ∈ kept drafts) :
    ∀ found ∈ Catalog.membersOf c.root (kept drafts),
      found.path = c.path ↔ Routes.sameWords found.sub c.sub = true := by
  intro found hfound
  obtain ⟨hfound, hroot⟩ := List.mem_filter.mp hfound
  rw [Routes.sameWords_iff
    (fun _ hword => (isDeclared_of_mem_kept hfound).isLower_of_mem_sub hword)
    (fun _ hword => (isDeclared_of_mem_kept hc).isLower_of_mem_sub hword)]
  rw [CommandInfo.path, CommandInfo.path, beq_iff_eq.mp hroot, List.cons.injEq]
  exact and_iff_right rfl

/-- In an application whose only trigger text is `!` and whose scopes give no further names, a
command that is compiled answers to the spelling of its declaration, in messages as well as in
structured calls, exactly when lowercase changes nothing but letters of ASCII in the words
behind the first. -/
theorem answers_iff_lowersInAscii (hbuild : app.build = .ok d)
    (htriggers : app.config.triggers = ["!"]) (haliases : ∀ g ∈ app.groups, g.aliases = [])
    (hdraft : draft ∈ app.commands) (hc : draft.build = .ok c)
    (htree : ∃ t ∈ d.catalog.trees, t.name = c.root) :
    (d.AnswersText draft.path c.path ↔
        ∀ word ∈ (Text.words draft.path).tail, Text.LowersInAscii word) ∧
      (d.AnswersOptions draft.path c.path ↔
        ∀ word ∈ (Text.words draft.path).tail, Text.LowersInAscii word) := by
  obtain rfl := build_eq_ok hbuild
  have hkept := mem_kept_of_mem_trees hdraft hc htree
  obtain ⟨-, hpath, -⟩ := CommandDraft.build_eq_ok hc
  obtain ⟨first, words, hwords, hroot, hsub⟩ := List.map_eq_cons_iff.mp hpath
  have hget : app.catalog.routes.get? first =
      some (Catalog.membersOf c.root (kept app.commands)) := by
    rw [← get?_catalog haliases htree, Routes.get?, Routes.get?, ← hroot, Text.lower_lower]
  have hmem : c ∈ Catalog.membersOf c.root (kept app.commands) :=
    List.mem_filter.mpr ⟨hkept, beq_self_eq_true _⟩
  have hcondition : Routes.sameWords c.sub words = true ↔
      ∀ word ∈ (Text.words draft.path).tail, Text.LowersInAscii word := by
    rw [hwords, List.tail_cons, ← hsub]
    exact Routes.sameWords_map_lower_iff
  have hlength : c.sub.length = words.length := by rw [← hsub, List.length_map]
  rw [← hcondition]
  have hpaths := path_eq_iff_sameWords hkept
  exact ⟨Dispatcher.answersText_iff hmem hpaths htriggers hwords hget hlength,
    Dispatcher.answersOptions_iff hmem hpaths hwords hget⟩

/-- The draft of a command that does nothing. -/
def idle (path : String) : CommandDraft where
  path
  description := "Does nothing"
  handler := some Handler.idle

/-- An application with one command that does nothing. -/
def declaring (path : String) : Application where
  config := {}
  environment := ⟨.standard, .standard, World.empty.directory, .all⟩
  groups := []
  commands := [idle path]

/-- Any letters may be in capitals in the first word, and those of ASCII behind it. -/
theorem answers_capitals :
    ∃ d, (declaring "ÄRGER Melden").build = .ok d ∧
      (∃ t ∈ d.catalog.trees, t.name = "ärger") ∧
      d.AnswersText "ÄRGER Melden" ["ärger", "melden"] ∧
      d.AnswersOptions "ÄRGER Melden" ["ärger", "melden"] := by
  let app := declaring "ÄRGER Melden"
  have hbuild : app.build = .ok ⟨app.config, app.environment, app.catalog⟩ := rfl
  have hc : (idle "ÄRGER Melden").build = .ok (Catalog.plain "ärger" ["melden"]) := rfl
  have htree : ∃ t ∈ app.catalog.trees, t.name = "ärger" := by decide +kernel
  have hascii : ∀ word ∈ (Text.words "ÄRGER Melden").tail, Text.LowersInAscii word := by
    decide +kernel
  obtain ⟨htext, hoptions⟩ := answers_iff_lowersInAscii hbuild rfl
    (fun g hg => absurd hg List.not_mem_nil) (List.mem_singleton_self _) hc htree
  exact ⟨_, hbuild, htree, htext.mpr hascii, hoptions.mpr hascii⟩

/-- A capital that is not one of ASCII stands behind the first word: the command is compiled and
yet neither way leads to it under the spelling of its declaration. -/
theorem not_answers_capital :
    ∃ d, (declaring "role Ändern").build = .ok d ∧
      (idle "role Ändern").build = .ok (Catalog.plain "role" ["ändern"]) ∧
      (∃ t ∈ d.catalog.trees, t.name = "role") ∧
      ¬ d.AnswersText "role Ändern" ["role", "ändern"] ∧
      ¬ d.AnswersOptions "role Ändern" ["role", "ändern"] := by
  let app := declaring "role Ändern"
  have hbuild : app.build = .ok ⟨app.config, app.environment, app.catalog⟩ := rfl
  have htree : ∃ t ∈ app.catalog.trees, t.name = "role" := by decide +kernel
  refine ⟨_, hbuild, rfl, htree, ?_, ?_⟩
  · rintro ⟨c, rest, hroute, -⟩
    have hunmatched :
        (match Dispatcher.route ⟨app.config, app.environment, app.catalog⟩ "!role Ändern" with
          | .matched _ _ => true
          | _ => false) = false := by decide +kernel
    have hraw : "!" ++ "role Ändern" = "!role Ändern" := by decide +kernel
    rw [← hraw, hroute] at hunmatched
    cases hunmatched
  · rintro ⟨c, hfound, -⟩
    have hnone : (app.catalog.routes.find? (Text.words "role Ändern")).isSome = false := by
      decide +kernel
    rw [hfound] at hnone
    cases hnone

end Application

end ChatCommands
