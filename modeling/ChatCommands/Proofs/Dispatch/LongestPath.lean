import Mathlib.Data.List.Forall2
import Mathlib.Data.List.MinMax
import ChatCommands.Proofs.Dispatch.Answering
import ChatCommands.Proofs.Dispatch.Places

/-!
# The longest path and the first overload

A message without a trigger or without a word behind it is no command.  Otherwise its first word
gives the candidates, of which those count whose path is spelled out by the words that follow.
Among the longest of these paths the first one is taken whose parameters fit the words that are
left, or the first one of all when there is none.  No message leads anywhere else.
-/

namespace ChatCommands

/-! ## Triggers at the front -/

theorem Text.dropLead_eq_some_iff {lead cs rest : List Char} :
    dropLead lead cs = some rest ↔ cs = lead ++ rest := by
  refine ⟨append_of_dropLead, ?_⟩
  rintro rfl
  induction lead with
  | nil => rfl
  | cons c lead ih => rw [List.cons_append, dropLead, if_pos BEq.rfl, ih]

namespace Triggers

/-- A trigger stands at the front of a message without leading blanks, and the rest behind it.
What follows a mention starts with a blank, if anything follows. -/
inductive Opens (t : Triggers) : List Char → List Char → Prop
  | mention {id : Snowflake} {mention : String} {rest : List Char} :
      t.mentioned = some id → mention ∈ mentionForms id →
      (∀ c ∈ rest.head?, Text.isBlank c = true) → Opens t (mention.toList ++ rest) rest
  | text {text : String} {rest : List Char} :
      text ∈ t.texts → text ≠ "" → Opens t (text.toList ++ rest) rest

variable {t : Triggers} {body rest : List Char} {trigger : String}

theorem behind?_eq_some_iff {text : String} :
    behind? body text = some (trigger, rest) ↔ trigger = text ∧ body = text.toList ++ rest := by
  rw [behind?, Option.map_eq_some_iff]
  constructor
  · rintro ⟨rest', hdrop, hpair⟩
    obtain ⟨rfl, rfl⟩ := Prod.mk.inj hpair
    exact ⟨rfl, Text.dropLead_eq_some_iff.mp hdrop⟩
  · rintro ⟨rfl, hbody⟩
    exact ⟨rest, Text.dropLead_eq_some_iff.mpr hbody, rfl⟩

theorem behindMention?_eq_some_iff {mention : String} :
    behindMention? body mention = some (trigger, rest) ↔
      (trigger = mention ∧ body = mention.toList ++ rest) ∧
        ∀ c ∈ rest.head?, Text.isBlank c = true := by
  rw [behindMention?, Option.filter_eq_some_iff, behind?_eq_some_iff]
  cases rest <;> simp

theorem opens_of_find? (h : t.find? body = some (trigger, rest)) : t.Opens body rest := by
  rcases Option.or_eq_some_iff.mp h with hmention | ⟨-, htext⟩
  · obtain ⟨mention, hmem, hbehind⟩ := List.exists_of_findSome?_eq_some hmention
    obtain ⟨id, hid, hform⟩ := List.mem_flatMap.mp hmem
    obtain ⟨⟨-, rfl⟩, hblank⟩ := behindMention?_eq_some_iff.mp hbehind
    exact .mention (Option.mem_toList.mp hid) hform hblank
  · obtain ⟨text, hmem, hbehind⟩ := List.exists_of_findSome?_eq_some htext
    obtain ⟨hmem, hne⟩ := List.mem_filter.mp hmem
    obtain ⟨-, rfl⟩ := behind?_eq_some_iff.mp hbehind
    exact .text hmem (bne_iff_ne.mp hne)

theorem find?_ne_none_of_opens (h : t.Opens body rest) : t.find? body ≠ none := by
  rw [find?, ne_eq, Option.or_eq_none_iff, List.findSome?_eq_none_iff, List.findSome?_eq_none_iff]
  rintro ⟨hmentions, htexts⟩
  cases h with
  | @mention id mention _ hid hform hblank =>
      have hbehind : behindMention? (mention.toList ++ rest) mention = some (mention, rest) :=
        behindMention?_eq_some_iff.mpr ⟨⟨rfl, rfl⟩, hblank⟩
      have hmem : mention ∈ t.mentioned.toList.flatMap mentionForms :=
        List.mem_flatMap.mpr ⟨id, Option.mem_toList.mpr hid, hform⟩
      rw [hmentions mention hmem] at hbehind
      cases hbehind
  | @text text _ hmem hne =>
      have hbehind : behind? (text.toList ++ rest) text = some (text, rest) :=
        behind?_eq_some_iff.mpr ⟨rfl, rfl⟩
      rw [htexts text (List.mem_filter.mpr ⟨hmem, bne_iff_ne.mpr hne⟩)] at hbehind
      cases hbehind

/-- What is left of a message is behind one of the triggers. -/
theorem opens_of_strip? {raw : String} {offset : Nat} (h : t.strip? raw = some (offset, rest)) :
    t.Opens (raw.toList.dropWhile Text.isBlank) rest := by
  rw [strip?, List.span_eq_takeWhile_dropWhile] at h
  obtain ⟨⟨trigger, rest'⟩, hfind, hpair⟩ := Option.map_eq_some_iff.mp h
  obtain ⟨-, rfl⟩ := Prod.mk.inj hpair
  exact opens_of_find? hfind

/-- A message has no trigger exactly when none stands at its front. -/
theorem strip?_eq_none_iff {raw : String} :
    t.strip? raw = none ↔ ∀ rest, ¬ t.Opens (raw.toList.dropWhile Text.isBlank) rest := by
  rw [strip?, List.span_eq_takeWhile_dropWhile, Option.map_eq_none_iff]
  constructor
  · exact fun hnone rest hopens => find?_ne_none_of_opens hopens hnone
  · intro hopens
    rw [Option.eq_none_iff_forall_ne_some]
    rintro ⟨trigger, rest⟩ hfind
    exact hopens rest (opens_of_find? hfind)

end Triggers

/-! ## Paths that are spelled out -/

/-- Words begin with those of a path behind its root, in any case of ASCII letters, and go on
with the rest. -/
def CommandInfo.SpelledBy (c : CommandInfo) (tokens rest : List Token) : Prop :=
  ∃ front, tokens = front ++ rest ∧
    List.Forall₂ (fun word token => Text.asciiEq word token.text = true) c.sub front

namespace CommandInfo

variable {c d : CommandInfo} {tokens rest left : List Token}

theorem SpelledBy.length_eq (h : c.SpelledBy tokens rest) :
    tokens.length = c.sub.length + rest.length := by
  obtain ⟨front, rfl, hfront⟩ := h
  rw [List.length_append, hfront.length_eq]

theorem SpelledBy.eq_drop (h : c.SpelledBy tokens rest) : rest = tokens.drop c.sub.length := by
  obtain ⟨front, rfl, hfront⟩ := h
  rw [hfront.length_eq, List.drop_left]

/-- Paths that leave the same rest are equally long. -/
theorem SpelledBy.length_sub_eq (hc : c.SpelledBy tokens rest) (hd : d.SpelledBy tokens rest) :
    d.sub.length = c.sub.length := by
  have hlength := hc.length_eq.symm.trans hd.length_eq
  omega

theorem SpelledBy.rest_eq (hc : c.SpelledBy tokens rest) (hd : d.SpelledBy tokens left)
    (hlength : d.sub.length = c.sub.length) : left = rest := by
  rw [hd.eq_drop, hc.eq_drop, hlength]

theorem spells_iff_exists :
    Route.spells tokens c = true ↔ ∃ rest, c.SpelledBy tokens rest := by
  rw [Route.spells, Bool.and_eq_true, decide_eq_true_eq, List.all_eq_true]
  constructor
  · rintro ⟨hlength, hwords⟩
    refine ⟨tokens.drop c.sub.length, tokens.take c.sub.length,
      (List.take_append_drop _ _).symm, List.forall₂_iff_zip.mpr ⟨?_, ?_⟩⟩
    · rw [List.length_take, Nat.min_eq_left hlength]
    · intro word token hmem
      refine hwords (word, token) ?_
      rwa [List.zip_eq_zip_take_min, Nat.min_eq_left hlength, List.take_length]
  · rintro ⟨rest, front, rfl, hfront⟩
    refine ⟨?_, ?_⟩
    · rw [List.length_append, hfront.length_eq]
      exact Nat.le_add_right _ _
    · rintro ⟨word, token⟩ hmem
      refine List.forall₂_zip hfront ?_
      rwa [← List.append_nil c.sub, List.zip_append hfront.length_eq, List.zip_nil_left,
        List.append_nil] at hmem

end CommandInfo

/-! ## The command that is picked -/

namespace Route

/-- The first element of a kind that fits, or the first of that kind if none of them does. -/
def IsFirstFit {α : Type} (kind fit : α → Prop) (xs : List α) (x : α) : Prop :=
  ∃ before after, xs = before ++ x :: after ∧ kind x ∧
    (fit x ∧ (∀ y ∈ before, kind y → ¬ fit y) ∨
      (∀ y ∈ xs, kind y → ¬ fit y) ∧ ∀ y ∈ before, ¬ kind y)

section FirstFit

variable {α : Type} {kind kind' fit fit' : α → Prop} {xs : List α} {x : α}

theorem IsFirstFit.mem (h : IsFirstFit kind fit xs x) : x ∈ xs := by
  obtain ⟨before, after, rfl, -⟩ := h
  exact List.mem_append_right _ List.mem_cons_self

theorem IsFirstFit.of_kind (h : IsFirstFit kind fit xs x) : kind x := by
  obtain ⟨-, -, -, hkind, -⟩ := h
  exact hkind

theorem IsFirstFit.congr (h : IsFirstFit kind fit xs x) (hkind : ∀ y ∈ xs, (kind y ↔ kind' y))
    (hfit : ∀ y ∈ xs, kind y → (fit y ↔ fit' y)) : IsFirstFit kind' fit' xs x := by
  obtain ⟨before, after, rfl, hx, hcases⟩ := h
  have hmem : x ∈ before ++ x :: after := List.mem_append_right _ List.mem_cons_self
  have hunfit : ∀ y ∈ before ++ x :: after, (kind y → ¬ fit y) → kind' y → ¬ fit' y := by
    intro y hy hrefused hy' hfits
    have hyk := (hkind y hy).mpr hy'
    exact hrefused hyk ((hfit y hy hyk).mpr hfits)
  refine ⟨before, after, rfl, (hkind x hmem).mp hx, ?_⟩
  rcases hcases with ⟨hfits, hbefore⟩ | ⟨hnone, hbefore⟩
  · refine .inl ⟨(hfit x hmem hx).mp hfits, fun y hy => ?_⟩
    exact hunfit y (List.mem_append_left _ hy) (hbefore y hy)
  · refine .inr ⟨fun y hy => hunfit y hy (hnone y hy), fun y hy hy' => ?_⟩
    exact hbefore y hy ((hkind y (List.mem_append_left _ hy)).mpr hy')

/-- Searching for both and else for the kind alone finds the first fit. -/
theorem find?_or_find?_eq_some_iff {p q : α → Bool} :
    (xs.find? fun y => p y && q y).or (xs.find? p) = some x ↔
      IsFirstFit (p · = true) (q · = true) xs x := by
  have hboth : ∀ ys : List α, (∀ y ∈ ys, !(p y && q y)) ↔ ∀ y ∈ ys, p y = true → ¬ q y = true := by
    intro ys
    refine forall₂_congr fun y _ => ?_
    rw [Bool.not_eq_true', Bool.and_eq_false_imp, Bool.not_eq_true]
  have hkind : ∀ ys : List α, (∀ y ∈ ys, !p y) ↔ ∀ y ∈ ys, ¬ p y = true := by
    simp
  simp only [Option.or_eq_some_iff, List.find?_eq_none, List.find?_eq_some_iff_append,
    Bool.and_eq_true, hboth, hkind, IsFirstFit]
  constructor
  · rintro (⟨⟨hp, hq⟩, hfirst⟩ | ⟨hnone, hp, hfirst⟩)
    · obtain ⟨before, after, hsplit, hbefore⟩ := hfirst
      exact ⟨before, after, hsplit, hp, .inl ⟨hq, hbefore⟩⟩
    · obtain ⟨before, after, hsplit, hbefore⟩ := hfirst
      exact ⟨before, after, hsplit, hp, .inr ⟨by simpa using hnone, hbefore⟩⟩
  · rintro ⟨before, after, hsplit, hp, ⟨hq, hbefore⟩ | ⟨hnone, hbefore⟩⟩
    · exact .inl ⟨⟨hp, hq⟩, before, after, hsplit, hbefore⟩
    · exact .inr ⟨by simpa using hnone, hp, before, after, hsplit, hbefore⟩

end FirstFit

/-- The words spell out the path of a command and go on with the rest, and no path that they
spell out is longer.  Of the commands with a path of that length, which leave the same rest, it
is the first that fits it, or the first of them if none fits. -/
structure Picks (table : ResolverTable) (candidates : List Command) (tokens : List Token)
    (c : Command) (rest : List Token) : Prop where
  spelled : c.SpelledBy tokens rest
  longest : ∀ d ∈ candidates, ∀ left, d.SpelledBy tokens left → d.sub.length ≤ c.sub.length
  foremost : IsFirstFit (fun d : Command => d.SpelledBy tokens rest)
    (fun d => fits table rest.length d.toCommandInfo = true) candidates c

variable {table : ResolverTable} {candidates : List Command} {tokens rest : List Token}
  {c d : Command}

/-- Whether a command has a longest path among the candidates that are spelled out. -/
def isDeepest (candidates : List Command) (tokens : List Token) (c : Command) : Bool :=
  spells tokens c.toCommandInfo &&
    (candidates.filter (spells tokens ·.toCommandInfo)).all (·.sub.length ≤ c.sub.length)

theorem deepest_eq_filter (candidates : List Command) (tokens : List Token) :
    deepest candidates tokens = candidates.filter (isDeepest candidates tokens) := by
  rw [deepest, List.filter_filter]
  refine List.filter_congr fun c _ => ?_
  rw [isDeepest, Bool.and_comm]

theorem isDeepest_iff :
    isDeepest candidates tokens c = true ↔
      (∃ rest, c.SpelledBy tokens rest) ∧
        ∀ d ∈ candidates, ∀ left, d.SpelledBy tokens left → d.sub.length ≤ c.sub.length := by
  simp only [isDeepest, Bool.and_eq_true, List.all_eq_true, List.mem_filter, decide_eq_true_eq,
    CommandInfo.spells_iff_exists, and_imp, forall_exists_index]

/-- Beside one longest path, the longest paths are those that leave the same rest. -/
theorem isDeepest_iff_spelledBy (hc : isDeepest candidates tokens c = true)
    (hmem : c ∈ candidates) (hspelled : c.SpelledBy tokens rest) (hd : d ∈ candidates) :
    isDeepest candidates tokens d = true ↔ d.SpelledBy tokens rest := by
  have hlongest := (isDeepest_iff.mp hc).2
  constructor
  · intro hdeepest
    obtain ⟨⟨left, hleft⟩, hmost⟩ := isDeepest_iff.mp hdeepest
    have hlength : d.sub.length = c.sub.length :=
      Nat.le_antisymm (hlongest d hd left hleft) (hmost c hmem rest hspelled)
    rwa [← hspelled.rest_eq hleft hlength]
  · intro hsame
    refine isDeepest_iff.mpr ⟨⟨rest, hsame⟩, ?_⟩
    intro other hother left hleft
    rw [hspelled.length_sub_eq hsame]
    exact hlongest other hother left hleft

/-- The first longest path that fits is chosen, or else the first longest path. -/
theorem choose_eq (table : ResolverTable) (candidates : List Command) (tokens : List Token) :
    choose table candidates tokens =
      ((candidates.find? fun c =>
          isDeepest candidates tokens c &&
            fits table (tokens.length - c.sub.length) c.toCommandInfo).or
        (candidates.find? (isDeepest candidates tokens))).map fun c =>
          (c, tokens.drop c.sub.length) := by
  simp only [choose, deepest_eq_filter, List.find?_filter, List.head?_filter, Bool.decide_and,
    Bool.decide_eq_true]

/-- Some path is the longest of those that are spelled out. -/
theorem exists_isDeepest (hc : c ∈ candidates) (hspelled : c.SpelledBy tokens rest) :
    ∃ d ∈ candidates, isDeepest candidates tokens d = true := by
  have hmem : c ∈ candidates.filter (spells tokens ·.toCommandInfo) :=
    List.mem_filter.mpr ⟨hc, CommandInfo.spells_iff_exists.mpr ⟨rest, hspelled⟩⟩
  obtain ⟨d, hd⟩ := Option.ne_none_iff_exists'.mp
    (mt List.argmax_eq_none.mp (List.ne_nil_of_mem hmem) :
      List.argmax (fun d : Command => d.sub.length) _ ≠ none)
  obtain ⟨hcandidate, hspells⟩ := List.mem_filter.mp (List.argmax_mem hd)
  refine ⟨d, hcandidate, isDeepest_iff.mpr ⟨CommandInfo.spells_iff_exists.mp hspells, ?_⟩⟩
  intro other hother left hleft
  have hmost : other ∈ candidates.filter (spells tokens ·.toCommandInfo) :=
    List.mem_filter.mpr ⟨hother, CommandInfo.spells_iff_exists.mpr ⟨left, hleft⟩⟩
  exact List.le_of_mem_argmax (f := fun d : Command => d.sub.length) hmost hd

/-- Nothing is chosen exactly when no candidate is spelled out. -/
theorem choose_eq_none_iff :
    choose table candidates tokens = none ↔
      ∀ c ∈ candidates, ∀ rest, ¬ c.SpelledBy tokens rest := by
  rw [choose_eq, Option.map_eq_none_iff, Option.or_eq_none_iff, List.find?_eq_none,
    List.find?_eq_none]
  constructor
  · rintro ⟨-, hnone⟩ c hc rest hspelled
    obtain ⟨d, hd, hdeepest⟩ := exists_isDeepest hc hspelled
    exact hnone d hd hdeepest
  · intro hnone
    have hshallow : ∀ c ∈ candidates, ¬ isDeepest candidates tokens c = true := by
      intro c hc hdeepest
      obtain ⟨⟨rest, hspelled⟩, -⟩ := isDeepest_iff.mp hdeepest
      exact hnone c hc rest hspelled
    refine ⟨fun c hc hboth => ?_, hshallow⟩
    exact hshallow c hc (Bool.and_eq_true_iff.mp hboth).1

/-- What is chosen is what the rule picks. -/
theorem choose_eq_some_iff :
    choose table candidates tokens = some (c, rest) ↔ Picks table candidates tokens c rest := by
  have havailable : ∀ d : Command, d.SpelledBy tokens rest →
      tokens.length - d.sub.length = rest.length := by
    intro d hspelled
    rw [hspelled.length_eq, Nat.add_sub_cancel_left]
  rw [choose_eq, Option.map_eq_some_iff]
  constructor
  · rintro ⟨c', hfound, hpair⟩
    obtain ⟨rfl, hrest⟩ := Prod.mk.inj hpair
    have hfirst := find?_or_find?_eq_some_iff.mp hfound
    obtain ⟨⟨left, hleft⟩, hlongest⟩ := isDeepest_iff.mp hfirst.of_kind
    have hspelled : c'.SpelledBy tokens rest := by rwa [← hrest, ← hleft.eq_drop]
    have hkind := fun d (hd : d ∈ candidates) =>
      isDeepest_iff_spelledBy hfirst.of_kind hfirst.mem hspelled hd
    refine ⟨hspelled, hlongest, hfirst.congr hkind fun d hd hdeepest => ?_⟩
    rw [havailable d ((hkind d hd).mp hdeepest)]
  · rintro ⟨hspelled, hlongest, hfirst⟩
    have hdeepest := isDeepest_iff.mpr ⟨⟨rest, hspelled⟩, hlongest⟩
    have hkind := fun d (hd : d ∈ candidates) =>
      isDeepest_iff_spelledBy hdeepest hfirst.mem hspelled hd
    refine ⟨c, find?_or_find?_eq_some_iff.mpr ?_, by rw [hspelled.eq_drop]⟩
    refine hfirst.congr (fun d hd => (hkind d hd).symm) fun d hd hsame => ?_
    rw [havailable d hsame]

/-! ## Where a message leads -/

/-- The words behind the trigger of a message. -/
def Behind (triggers : Triggers) (raw : String) (tokens : List Token) : Prop :=
  ∃ offset body, triggers.strip? raw = some (offset, body) ∧ Tokens.scan offset [] body = tokens

/-- Where messages lead, by the rules. -/
inductive Leads (triggers : Triggers) (routes : Routes) (table : ResolverTable) (raw : String) :
    Route → Prop
  | untriggered :
      (∀ rest, ¬ triggers.Opens (raw.toList.dropWhile Text.isBlank) rest) →
        Leads triggers routes table raw .notACommand
  | wordless : Behind triggers raw [] → Leads triggers routes table raw .notACommand
  | unknownWord {first : Token} {tokens : List Token} :
      Behind triggers raw (first :: tokens) → routes.get? first.text = none →
        Leads triggers routes table raw (.unknown (Text.lower first.text))
  | unspelled {first : Token} {tokens : List Token} {candidates : List Command} :
      Behind triggers raw (first :: tokens) → routes.get? first.text = some candidates →
      (∀ c ∈ candidates, ∀ rest, ¬ c.SpelledBy tokens rest) →
        Leads triggers routes table raw (.unknown (Text.lower first.text))
  | matched {first : Token} {tokens rest : List Token} {candidates : List Command} {c : Command} :
      Behind triggers raw (first :: tokens) → routes.get? first.text = some candidates →
      Picks table candidates tokens c rest → Leads triggers routes table raw (.matched c rest)

variable {triggers : Triggers} {routes : Routes} {raw : String} {route : Route}

/-- The words behind a trigger are those of the text that the trigger opens, in their places. -/
theorem Behind.exists_opens (h : Behind triggers raw tokens) :
    ∃ rest, triggers.Opens (raw.toList.dropWhile Text.isBlank) rest ∧
      tokens.map (·.text) = Text.words (String.ofList rest) ∧ Tokens.Placed raw tokens := by
  obtain ⟨offset, body, hstrip, rfl⟩ := h
  refine ⟨body, Triggers.opens_of_strip? hstrip, ?_, Tokens.placed_of_strip? hstrip⟩
  rw [← Tokens.texts_scan_nil offset, String.toList_ofList]

theorem ofText_of_behind (h : Behind triggers raw tokens) :
    ofText triggers routes table raw = ofTokens routes table tokens := by
  obtain ⟨offset, body, hstrip, rfl⟩ := h
  rw [ofText, hstrip]

theorem leads_ofText (triggers : Triggers) (routes : Routes) (table : ResolverTable)
    (raw : String) : Leads triggers routes table raw (ofText triggers routes table raw) := by
  cases hstrip : triggers.strip? raw with
  | none =>
      rw [ofText, hstrip]
      exact .untriggered (Triggers.strip?_eq_none_iff.mp hstrip)
  | some stripped =>
      have hbehind : Behind triggers raw (Tokens.scan stripped.1 [] stripped.2) :=
        ⟨stripped.1, stripped.2, hstrip, rfl⟩
      rw [ofText_of_behind hbehind]
      cases hwords : Tokens.scan stripped.1 [] stripped.2 with
      | nil =>
          rw [hwords] at hbehind
          exact .wordless hbehind
      | cons first tokens =>
          rw [hwords] at hbehind
          rw [ofTokens]
          cases hget : routes.get? first.text with
          | none => exact .unknownWord hbehind hget
          | some candidates =>
              rw [Option.bind_some]
              cases hchoose : choose table candidates tokens with
              | none => exact .unspelled hbehind hget (choose_eq_none_iff.mp hchoose)
              | some chosen => exact .matched hbehind hget (choose_eq_some_iff.mp hchoose)

/-- A message leads where the rules say, and nowhere else. -/
theorem ofText_eq_iff_leads :
    ofText triggers routes table raw = route ↔ Leads triggers routes table raw route := by
  constructor
  · rintro rfl
    exact leads_ofText triggers routes table raw
  · intro h
    cases h with
    | untriggered hopens => rw [ofText, Triggers.strip?_eq_none_iff.mpr hopens]
    | wordless hbehind => rw [ofText_of_behind hbehind, ofTokens]
    | unknownWord hbehind hget => rw [ofText_of_behind hbehind, ofTokens, hget, Option.bind_none]
    | unspelled hbehind hget hunspelled =>
        rw [ofText_of_behind hbehind, ofTokens, hget, Option.bind_some,
          choose_eq_none_iff.mpr hunspelled]
    | matched hbehind hget hpicks =>
        rw [ofText_of_behind hbehind, ofTokens, hget, Option.bind_some,
          choose_eq_some_iff.mpr hpicks]

end Route

end ChatCommands
