import ChatCommands.Proofs.Dispatch.LongestPath
import ChatCommands.Proofs.Text.WordList

/-!
# Texts in front of commands

A message is read behind its leading blanks and cut behind the first trigger that stands there.
So a text of the settings in front of the name of a command calls it if the message is cut at
that text, up to blanks at its ends.  It is cut elsewhere if the text begins with a blank that is
passed over before, or if a trigger that is tried earlier stands at the front too.  Counting the
characters that are not blank shows that no words are then left that spell out the command,
unless they begin with a further name of its root.
-/

namespace ChatCommands

/-! ## Blanks at the ends of a text -/

namespace Text

variable {front rest rest' : List Char} {a b : String}

theorem trim_dropStart (s : String) : trim (dropStart isBlank s) = trim s := by
  simp only [trim, trimChars, dropAround, dropStart, String.toList_ofList,
    List.dropWhile_idempotent]

/-- Behind its leading blanks, a text goes on with what is left of it when it is trimmed, and
with blanks. -/
theorem exists_dropWhile_eq (s : String) :
    ∃ blanks, (∀ c ∈ blanks, isBlank c = true) ∧
      s.toList.dropWhile isBlank = (trim s).toList ++ blanks := by
  refine ⟨(s.toList.dropWhile isBlank).rtakeWhile isBlank, fun c hc => ?_, ?_⟩
  · exact List.mem_rtakeWhile_imp hc
  · rw [trim, String.toList_ofList, trimChars, dropAround, dropEndWhile_eq,
      List.rdropWhile_append_rtakeWhile]

/-- What is at the front of a text without leading blanks has none either. -/
theorem dropWhile_front (h : (front ++ rest).dropWhile isBlank = front ++ rest) :
    front.dropWhile isBlank = front := by
  cases front with
  | nil => rfl
  | cons c front =>
      rw [List.dropWhile_eq_self_iff] at h ⊢
      exact fun _ => h (Nat.succ_pos _)

/-- A text that is cut behind two fronts goes on with the same words, if the fronts are the same
up to blanks. -/
theorem words_eq_of_trim_eq (htrim : trim a = trim b)
    (h : a.toList.dropWhile isBlank ++ rest = b.toList.dropWhile isBlank ++ rest') :
    words (String.ofList rest) = words (String.ofList rest') := by
  obtain ⟨blanks, hblanks, hfront⟩ := exists_dropWhile_eq a
  obtain ⟨blanks', hblanks', hfront'⟩ := exists_dropWhile_eq b
  rw [hfront, hfront', htrim, List.append_assoc, List.append_assoc,
    List.append_cancel_left_eq] at h
  rw [← words_blanks_append hblanks rest, h, words_blanks_append hblanks' rest']

/-- Only blanks are in front of what ends a text, if it has all characters of the text that are
not blank. -/
theorem isBlank_of_countP_append
    (h : (front ++ rest).countP (!isBlank ·) = rest.countP (!isBlank ·)) :
    ∀ c ∈ front, isBlank c = true := by
  intro c hc
  rw [List.countP_append, Nat.add_eq_right, List.countP_eq_zero] at h
  simpa using h c hc

/-- A text that is cut behind two fronts has as many characters that are not blank behind the
one as behind the other only if the fronts are the same up to blanks. -/
theorem trim_eq_of_countP_eq
    (h : a.toList.dropWhile isBlank ++ rest = b.toList.dropWhile isBlank ++ rest')
    (hcount : rest.countP (!isBlank ·) = rest'.countP (!isBlank ·)) : trim a = trim b := by
  rw [← trim_dropStart a, ← trim_dropStart b, dropStart, dropStart]
  rcases List.append_eq_append_iff.mp h with ⟨between, hfront, rfl⟩ | ⟨between, hfront, rfl⟩
  · rw [hfront, trim_append_blank (isBlank_of_countP_append hcount)]
  · rw [hfront, trim_append_blank (isBlank_of_countP_append hcount.symm)]

/-- The characters of a text that are not blank are those of its words. -/
theorem countP_eq_length_words (s : String) :
    s.toList.countP (!isBlank ·) = ((words s).flatMap String.toList).length := by
  rw [List.countP_eq_length_filter, flatMap_words]

end Text

/-! ## The words of a name -/

theorem Routes.length_flatMap_of_sameWords {a b : List String} (h : sameWords a b = true) :
    (a.flatMap String.toList).length = (b.flatMap String.toList).length := by
  have hlower : ∀ words : List String, (words.flatMap String.toList).length =
      ((words.map Text.asciiLower).flatMap String.toList).length := by
    intro words
    simp [Text.asciiLower, List.flatMap_map, List.length_flatMap]
  rw [hlower a, hlower b, sameWords_iff_map.mp h]

theorem Routes.sameWords_refl (words : List String) : sameWords words words = true :=
  sameWords_iff_map.mpr rfl

namespace Command.IsDeclared

variable {c : Command} {rest : List Char} {first : String} {words : List String}

theorem words_qualifiedName (h : c.IsDeclared) : Text.words c.qualifiedName = c.path := by
  refine Text.words_join fun word hword => ?_
  obtain ⟨draft, h⟩ := h
  obtain ⟨-, hpath, -⟩ := CommandDraft.build_eq_ok h
  rw [← hpath, CommandDraft.pathWords] at hword
  obtain ⟨written, hwritten, rfl⟩ := List.mem_map.mp hword
  exact (Text.isWord_of_mem_words hwritten).lower

/-- Words that spell out a command have as many characters as its name, if one of both ends with
the other. -/
theorem countP_eq_qualifiedName (h : c.IsDeclared)
    (hwords : Text.words (String.ofList rest) = first :: words)
    (hroot : Text.lower first = c.root) (hsame : Routes.sameWords c.sub words = true)
    (hends : c.qualifiedName.toList <:+ rest ∨ rest <:+ c.qualifiedName.toList) :
    rest.countP (!Text.isBlank ·) = c.qualifiedName.toList.countP (!Text.isBlank ·) := by
  have hrest : rest.countP (!Text.isBlank ·) =
      first.toList.length + (c.sub.flatMap String.toList).length := by
    have hcount := Text.countP_eq_length_words (String.ofList rest)
    rwa [String.toList_ofList, hwords, List.flatMap_cons, List.length_append,
      ← Routes.length_flatMap_of_sameWords hsame] at hcount
  have hname : c.qualifiedName.toList.countP (!Text.isBlank ·) =
      c.root.toList.length + (c.sub.flatMap String.toList).length := by
    rw [Text.countP_eq_length_words, h.words_qualifiedName, CommandInfo.path, List.flatMap_cons,
      List.length_append]
  rcases hends with hends | hends
  · have hfewer := hends.sublist.countP_le (p := (!Text.isBlank ·))
    have hlonger : first.toList.length ≤ c.root.toList.length := by
      rw [← hroot, Text.lower, String.toList_ofList]
      exact Text.length_le_length_lowerFrom [] first.toList
    omega
  · -- The first word has only characters of the name, and so is in lowercase.
    have hlower : Text.IsLower first := by
      intro d hd
      have hmem : d ∈ rest.filter (!Text.isBlank ·) := by
        rw [← String.toList_ofList (l := rest), ← Text.flatMap_words, hwords]
        exact List.mem_append_left _ hd
      have hpath : d ∈ c.path.flatMap String.toList := by
        rw [← h.words_qualifiedName, Text.flatMap_words]
        exact hends.sublist.filter _ |>.mem hmem
      obtain ⟨word, hword, hd⟩ := List.mem_flatMap.mp hpath
      exact h.isLower_of_mem_path hword d hd
    rw [hrest, hname, ← hroot, Text.lower_of_isLower hlower]

end Command.IsDeclared

/-! ## Where a message is cut -/

/-- What is left of a message is what the trigger behind its leading blanks leaves. -/
theorem Triggers.exists_strip?_iff {t : Triggers} {raw : String} {rest : List Char} :
    (∃ offset, t.strip? raw = some (offset, rest)) ↔
      ∃ trigger, t.find? (raw.toList.dropWhile Text.isBlank) = some (trigger, rest) := by
  rw [strip?, List.span_eq_takeWhile_dropWhile]
  constructor
  · rintro ⟨offset, hstrip⟩
    obtain ⟨⟨trigger, rest⟩, hfind, hpair⟩ := Option.map_eq_some_iff.mp hstrip
    obtain ⟨-, rfl⟩ := Prod.mk.inj hpair
    exact ⟨trigger, hfind⟩
  · rintro ⟨trigger, hfind⟩
    simp only [hfind, Option.map_some]
    exact ⟨_, rfl⟩

theorem Triggers.behind?_eq_none {body : List Char} {text : String}
    (h : ¬ text.toList <+: body) : behind? body text = none := by
  rw [Option.eq_none_iff_forall_ne_some]
  rintro ⟨trigger, rest⟩ hbehind
  obtain ⟨-, hsplit⟩ := behind?_eq_some_iff.mp hbehind
  exact h ⟨rest, hsplit.symm⟩

/-- Without a mention in front, a message is cut behind the first of the texts that it begins
with. -/
theorem Triggers.find?_of_first {t : Triggers} {before after : List String} {text : String}
    {rest : List Char} (htexts : t.texts = before ++ text :: after) (hne : text ≠ "")
    (hmention : ∀ id ∈ t.mentioned, ∀ mention ∈ mentionForms id,
      ¬ mention.toList <+: text.toList ++ rest)
    (hbefore : ∀ other ∈ before, other ≠ "" → ¬ other.toList <+: text.toList ++ rest) :
    t.find? (text.toList ++ rest) = some (text, rest) := by
  have hmentions : (t.mentioned.toList.flatMap mentionForms).findSome?
      (behindMention? (text.toList ++ rest)) = none := by
    rw [List.findSome?_eq_none_iff]
    intro mention hmem
    obtain ⟨id, hid, hform⟩ := List.mem_flatMap.mp hmem
    rw [behindMention?, behind?_eq_none (hmention id (Option.mem_toList.mp hid) mention hform)]
    rfl
  have hearlier : (before.filter (· != "")).findSome? (behind? (text.toList ++ rest)) = none := by
    rw [List.findSome?_eq_none_iff]
    intro other hmem
    obtain ⟨hmem, hfilled⟩ := List.mem_filter.mp hmem
    exact behind?_eq_none (hbefore other hmem (bne_iff_ne.mp hfilled))
  have hown : behind? (text.toList ++ rest) text = some (text, rest) :=
    behind?_eq_some_iff.mpr ⟨rfl, rfl⟩
  have hfilled : (text != "") = true := bne_iff_ne.mpr hne
  rw [find?, hmentions, Option.none_or, htexts, List.filter_append, List.findSome?_append,
    hearlier, Option.none_or, List.filter_cons_of_pos (p := (· != "")) hfilled,
    List.findSome?_cons, hown]

namespace Dispatcher

/-- A message leads to a command of a path, and no words are left for its parameters.

A match alone says less.  Behind the texts `!` and `!ping `, the message `!ping ping` is cut at
the first one.  It is then the second text that spells out the command, and the name behind that
text is left over as a word.  `Route.Leads` says where a message leads that leaves words. -/
def Calls (d : Dispatcher) (raw : String) (path : List String) : Prop :=
  ∃ c, d.route raw = .matched c [] ∧ c.path = path

/-- The trigger behind which a message is cut, and what is left of the message. -/
def cut? (d : Dispatcher) (raw : String) : Option (String × List Char) :=
  d.config.activeTriggers.find? (raw.toList.dropWhile Text.isBlank)

/-- What is left of a message spells out a command behind a further name of its root. -/
def SpellsRenamed (d : Dispatcher) (c : Command) (rest : List Char) : Prop :=
  ∃ first words, Text.words (String.ofList rest) = first :: words ∧ Text.lower first ≠ c.root ∧
    d.catalog.routes.get? first = d.catalog.routes.get? c.root ∧
    Routes.sameWords c.sub words = true

variable {d : Dispatcher} {raw : String} {path : List String} {c : Command}
  {trigger first : String} {rest : List Char} {words : List String} {candidates : List Command}

/-- A message is cut into its leading blanks, a trigger without any and the rest. -/
theorem append_of_cut? (hcut : d.cut? raw = some (trigger, rest)) :
    trigger.toList.dropWhile Text.isBlank ++ rest = raw.toList.dropWhile Text.isBlank := by
  have hsplit := Triggers.append_of_find? hcut
  have hbody : (trigger.toList ++ rest).dropWhile Text.isBlank = trigger.toList ++ rest := by
    rw [← hsplit, List.dropWhile_idempotent]
  rw [Text.dropWhile_front hbody, hsplit]

/-- The words behind a trigger are those of what is left behind the cut. -/
theorem exists_behind_iff :
    (∃ tokens, Route.Behind d.config.activeTriggers raw tokens ∧ tokens.map (·.text) = words) ↔
      ∃ trigger rest, d.cut? raw = some (trigger, rest) ∧
        Text.words (String.ofList rest) = words := by
  constructor
  · rintro ⟨tokens, ⟨offset, rest, hstrip, rfl⟩, rfl⟩
    obtain ⟨trigger, hcut⟩ := Triggers.exists_strip?_iff.mp ⟨offset, hstrip⟩
    refine ⟨trigger, rest, hcut, ?_⟩
    rw [← Tokens.texts_scan_nil offset, String.toList_ofList]
  · rintro ⟨trigger, rest, hcut, rfl⟩
    obtain ⟨offset, hstrip⟩ := Triggers.exists_strip?_iff.mpr ⟨trigger, hcut⟩
    refine ⟨_, ⟨offset, rest, hstrip, rfl⟩, ?_⟩
    rw [← Tokens.texts_scan_nil offset, String.toList_ofList]

/-- A message that calls a command spells it out behind the cut. -/
theorem Calls.exists_cut? (h : d.Calls raw path) :
    ∃ trigger rest first words candidates found, d.cut? raw = some (trigger, rest) ∧
      Text.words (String.ofList rest) = first :: words ∧
      d.catalog.routes.get? first = some candidates ∧ found ∈ candidates ∧
      Routes.sameWords found.sub words = true ∧ found.path = path := by
  obtain ⟨found, hroute, hpath⟩ := h
  have hleads := Route.leads_ofText d.config.activeTriggers d.catalog.routes
    d.environment.resolvers raw
  rw [← route, hroute] at hleads
  cases hleads with
  | @matched first tokens _ candidates _ hbehind hget hpicks =>
      obtain ⟨trigger, rest, hcut, hwords⟩ := exists_behind_iff.mp ⟨_, hbehind, List.map_cons⟩
      obtain ⟨hmem, hsame⟩ := Route.sameWords_of_choose (Route.choose_eq_some_iff.mpr hpicks)
        hpicks.spelled.length_eq.symm
      exact ⟨trigger, rest, first.text, _, candidates, found, hcut, hwords, hget, hmem, hsame,
        hpath⟩

/-- A message that spells out a command behind the cut calls it. -/
theorem calls_of_cut? (hcut : d.cut? raw = some (trigger, rest))
    (hwords : Text.words (String.ofList rest) = first :: words)
    (hget : d.catalog.routes.get? first = some candidates) (hc : c ∈ candidates)
    (hpath : ∀ found ∈ candidates, found.path = c.path ↔ Routes.sameWords found.sub c.sub = true)
    (hsame : Routes.sameWords c.sub words = true) : d.Calls raw c.path := by
  obtain ⟨tokens, hbehind, htexts⟩ := exists_behind_iff.mpr ⟨trigger, rest, hcut, hwords⟩
  obtain ⟨token, tokens, rfl, rfl, rfl⟩ := List.map_eq_cons_iff.mp htexts
  obtain ⟨found, left, hchoose, hfound, hspelled⟩ :
      ∃ found left, Route.choose d.environment.resolvers candidates tokens = some (found, left) ∧
        found ∈ candidates ∧ Routes.sameWords found.sub (tokens.map (·.text)) = true :=
    Route.choose_of_sameWords hc hsame
  obtain rfl : left = [] := by
    have hlength := (Route.choose_eq_some_iff.mp hchoose).spelled.length_eq
    have hsub := congrArg List.length (Routes.sameWords_iff_map.mp hspelled)
    rw [List.length_map, List.length_map, List.length_map] at hsub
    exact List.length_eq_zero_iff.mp (by omega)
  refine ⟨found, ?_, (hpath found hfound).mpr ?_⟩
  · rw [route, Route.ofText_of_behind hbehind, Route.ofTokens, hget, Option.bind_some, hchoose]
  · rw [Routes.sameWords_iff_map] at hsame hspelled ⊢
    rw [hspelled, hsame]

end Dispatcher

namespace Application

variable {app : Application} {d : Dispatcher} {draft : CommandDraft} {c : Command}
  {text : String}

theorem not_isBlankText_of_build (hbuild : app.build = .ok d) (htext : text ∈ app.config.triggers) :
    Text.isBlankText text = false := by
  obtain ⟨⟨⟩, hcheck, -⟩ := map_eq_ok.mp hbuild
  rw [Config.check] at hcheck
  split at hcheck
  next => cases hcheck
  next hfault =>
    rw [Config.fault?] at hfault
    split at hfault
    next => cases hfault
    next hblank =>
      exact Bool.eq_false_iff.mpr fun h => hblank (List.any_eq_true.mpr ⟨text, htext, h⟩)

/-- Behind its leading blanks, a message goes on with those of a text that is not blank. -/
theorem dropWhile_append_of_not_blank (h : Text.isBlankText text = false) (name : String) :
    (text ++ name).toList.dropWhile Text.isBlank =
      text.toList.dropWhile Text.isBlank ++ name.toList := by
  rw [String.toList_append, List.dropWhile_append, if_neg]
  rw [List.isEmpty_iff, List.dropWhile_eq_nil_iff, ← List.all_eq_true]
  exact Bool.eq_false_iff.mp h

/-- Cut behind a text that is the same up to blanks, a message calls the command whose name
follows. -/
theorem calls_of_trim_eq {trigger : String} {rest : List Char} (hkept : c ∈ kept app.commands)
    (hget : app.catalog.routes.get? c.root = some (Catalog.membersOf c.root (kept app.commands)))
    (hfilled : Text.isBlankText text = false)
    (hcut : Dispatcher.cut? ⟨app.config, app.environment, app.catalog⟩ (text ++ c.qualifiedName) =
      some (trigger, rest))
    (htrim : Text.trim trigger = Text.trim text) :
    Dispatcher.Calls ⟨app.config, app.environment, app.catalog⟩ (text ++ c.qualifiedName)
      c.path := by
  have hmem : c ∈ Catalog.membersOf c.root (kept app.commands) :=
    List.mem_filter.mpr ⟨hkept, beq_self_eq_true _⟩
  have hsplit := (Dispatcher.append_of_cut? hcut).trans
    (dropWhile_append_of_not_blank hfilled c.qualifiedName)
  have hwords : Text.words (String.ofList rest) = c.root :: c.sub := by
    rw [Text.words_eq_of_trim_eq htrim hsplit, String.ofList_toList,
      (isDeclared_of_mem_kept hkept).words_qualifiedName, CommandInfo.path]
  exact Dispatcher.calls_of_cut? hcut hwords hget hmem (path_eq_iff_sameWords hkept)
    (Routes.sameWords_refl _)

/-- A text that starts with no blank calls the command whose name follows, if the message begins
neither with a mention nor with a text that is tried before. -/
theorem calls_of_first {before after : List String} (hbuild : app.build = .ok d)
    (htexts : app.config.triggers = before ++ text :: after)
    (hstart : text.toList.dropWhile Text.isBlank = text.toList)
    (hdraft : draft ∈ app.commands) (hc : draft.build = .ok c)
    (htree : ∃ t ∈ d.catalog.trees, t.name = c.root)
    (hfree : ¬ Catalog.Captured app.vocabulary (kept app.commands) app.groups c.root)
    (hmention : ∀ id ∈ app.config.activeTriggers.mentioned, ∀ mention ∈ Triggers.mentionForms id,
      ¬ mention.toList <+: (text ++ c.qualifiedName).toList)
    (hbefore : ∀ other ∈ before, ¬ other.toList <+: (text ++ c.qualifiedName).toList) :
    d.Calls (text ++ c.qualifiedName) c.path := by
  have htext : text ∈ app.config.triggers := by
    rw [htexts]
    exact List.mem_append_right _ List.mem_cons_self
  have hfilled := not_isBlankText_of_build hbuild htext
  have hne : text ≠ "" := by
    rintro rfl
    cases hfilled
  obtain rfl := build_eq_ok hbuild
  rw [String.toList_append] at hmention hbefore
  have hcut : Dispatcher.cut? ⟨app.config, app.environment, app.catalog⟩
      (text ++ c.qualifiedName) = some (text, c.qualifiedName.toList) := by
    rw [Dispatcher.cut?, dropWhile_append_of_not_blank hfilled, hstart]
    exact Triggers.find?_of_first htexts hne hmention fun other hother _ => hbefore other hother
  exact calls_of_trim_eq (mem_kept_of_mem_trees hdraft hc htree)
    (get?_catalog_of_not_captured htree hfree) hfilled hcut rfl

/-- A text of the settings in front of the name of a command, whose root is compiled and has
not lost its name, calls the command exactly when the message is cut behind that text, up to
blanks at its ends, or what is left behind another trigger spells the command out behind a
further name of its root. -/
theorem calls_iff_cut_at_text (hbuild : app.build = .ok d) (htext : text ∈ app.config.triggers)
    (hdraft : draft ∈ app.commands) (hc : draft.build = .ok c)
    (htree : ∃ t ∈ d.catalog.trees, t.name = c.root)
    (hfree : ¬ Catalog.Captured app.vocabulary (kept app.commands) app.groups c.root) :
    d.Calls (text ++ c.qualifiedName) c.path ↔
      ∃ trigger rest, d.cut? (text ++ c.qualifiedName) = some (trigger, rest) ∧
        (Text.trim trigger = Text.trim text ∨ d.SpellsRenamed c rest) := by
  have hfilled := not_isBlankText_of_build hbuild htext
  have hbody := dropWhile_append_of_not_blank hfilled c.qualifiedName
  obtain rfl := build_eq_ok hbuild
  have hdeclared : c.IsDeclared := ⟨draft, hc⟩
  have hkept := mem_kept_of_mem_trees hdraft hc htree
  have hget := get?_catalog_of_not_captured htree hfree
  have hmem : c ∈ Catalog.membersOf c.root (kept app.commands) :=
    List.mem_filter.mpr ⟨hkept, beq_self_eq_true _⟩
  have hpaths := path_eq_iff_sameWords hkept
  constructor
  · intro hcalls
    obtain ⟨trigger, rest, first, words, candidates, found, hcut, hwords, hfirst, hfound, hsame,
      hpath⟩ := hcalls.exists_cut?
    obtain ⟨hroot, hsub⟩ := List.cons.inj hpath
    rw [hsub] at hsame
    refine ⟨trigger, rest, hcut, ?_⟩
    by_cases hname : Text.lower first = c.root
    · left
      have hsplit := (Dispatcher.append_of_cut? hcut).trans hbody
      have hends := List.suffix_or_suffix_of_suffix ⟨_, rfl⟩ ⟨_, hsplit.symm⟩
      exact Text.trim_eq_of_countP_eq hsplit
        (hdeclared.countP_eq_qualifiedName hwords hname hsame hends.symm)
    · right
      -- Another name leads to members of one root, and that of the command is among them.
      obtain ⟨t, -, rfl⟩ := Catalog.exists_tree_of_get? hfirst
      have hmembers : t.name = c.root :=
        (beq_iff_eq.mp (List.mem_filter.mp hfound).2).symm.trans hroot
      rw [hmembers] at hfirst
      exact ⟨first, words, hwords, hname, hfirst.trans hget.symm, hsame⟩
  · rintro ⟨trigger, rest, hcut, htrim | ⟨first, words, hwords, -, hfirst, hsame⟩⟩
    · exact calls_of_trim_eq hkept hget hfilled hcut htrim
    · exact Dispatcher.calls_of_cut? hcut hwords (hfirst.trans hget) hmem hpaths hsame

/-- An application with one command that does nothing and is called behind given texts. -/
def declaringBehind (triggers : List String) (path : String) : Application :=
  { declaring path with config := { triggers } }

/-- A text may end with a blank, behind which the words of the command begin. -/
theorem calls_bot :
    ∃ d, (declaringBehind ["!", "bot "] "role add").build = .ok d ∧
      d.cut? "bot role add" = some ("bot ", "role add".toList) ∧
      d.Calls "bot role add" ["role", "add"] := by
  let app := declaringBehind ["!", "bot "] "role add"
  have hbuild : app.build = .ok ⟨app.config, app.environment, app.catalog⟩ := rfl
  have hc : (idle "role add").build = .ok (Catalog.plain "role" ["add"]) := rfl
  have htree : ∃ t ∈ app.catalog.trees, t.name = "role" := by decide +kernel
  have hfree : ¬ Catalog.Captured app.vocabulary (kept app.commands) app.groups "role" := by
    rw [Catalog.Captured]
    decide +kernel
  have hcut : Dispatcher.cut? ⟨app.config, app.environment, app.catalog⟩ "bot role add" =
      some ("bot ", "role add".toList) := by decide +kernel
  have hname : "bot " ++ (Catalog.plain "role" ["add"]).qualifiedName = "bot role add" := by
    decide +kernel
  have htext : "bot " ∈ app.config.triggers := by decide
  have hcalls := calls_iff_cut_at_text hbuild htext (List.mem_singleton_self _) hc htree hfree
  rw [hname] at hcalls
  exact ⟨_, hbuild, hcut, hcalls.mpr ⟨_, _, hcut, .inl rfl⟩⟩

/-- The name behind a text is left over where a shorter text is tried first and the longer one
spells out the command. -/
example :
    ((declaringBehind ["!", "!ping "] "ping").build.map fun d => d.route "!ping ping") =
      .ok (.matched (Catalog.plain "ping" []) [⟨"ping", ⟨6, 10⟩⟩]) := rfl

/-- A text that begins with a blank is accepted by the settings, and no message is ever cut
behind it. -/
theorem not_matched_behind_blank :
    ∃ d, (declaringBehind [" !"] "ping").build = .ok d ∧
      (idle "ping").build = .ok (Catalog.plain "ping" []) ∧
      (∃ t ∈ d.catalog.trees, t.name = "ping") ∧
      ¬ Catalog.Captured (declaringBehind [" !"] "ping").vocabulary
        (kept (declaringBehind [" !"] "ping").commands) (declaringBehind [" !"] "ping").groups
        "ping" ∧
      d.route (" !" ++ (Catalog.plain "ping" []).qualifiedName) = .notACommand := by
  let app := declaringBehind [" !"] "ping"
  have hbuild : app.build = .ok ⟨app.config, app.environment, app.catalog⟩ := rfl
  have htree : ∃ t ∈ app.catalog.trees, t.name = "ping" := by decide +kernel
  have hfree : ¬ Catalog.Captured app.vocabulary (kept app.commands) app.groups "ping" := by
    rw [Catalog.Captured]
    decide +kernel
  have hname : " !" ++ (Catalog.plain "ping" []).qualifiedName = " !ping" := by decide +kernel
  have hstrip : app.config.activeTriggers.strip? " !ping" = none := by decide +kernel
  refine ⟨_, hbuild, rfl, htree, hfree, ?_⟩
  rw [hname, Dispatcher.route, Route.ofText, hstrip]

end Application

end ChatCommands
