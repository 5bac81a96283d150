import Mathlib.Data.String.Basic
import ChatCommands.Proofs.Catalog.Routing
import ChatCommands.Proofs.Dispatch.Places

/-!
# Spans tell where words stand

The words of a text are its longest stretches of characters that are not blank.  A text is read
from front to back: a blank is passed over, and a word ends where a blank or the end of the text
follows.  So each stretch is found once, in order and with the bytes that it covers, and only
blanks are outside.  Behind a trigger the bytes go on from those in front, so that the words of
a command still stand where their spans tell in the whole message.
-/

namespace ChatCommands

/-! ## Bytes of a string -/

/-- A span begins and ends between characters of a text, and has a given text in between. -/
structure Span.Slices (span : Span) (raw text : String) : Prop where
  start_valid : String.Pos.Raw.IsValid raw ⟨span.start⟩
  stop_valid : String.Pos.Raw.IsValid raw ⟨span.stop⟩
  extract_eq : String.Pos.Raw.extract raw ⟨span.start⟩ ⟨span.stop⟩ = text

namespace Text

theorem byteLength_eq_utf8Len (cs : List Char) : byteLength cs = String.utf8Len cs := by
  induction cs with
  | nil => rfl
  | cons c rest ih => rw [byteLength, ih, String.utf8Len_cons, Nat.add_comm]

/-- A text can be cut behind any of its characters. -/
theorem isValid_byteLength {raw : String} {front rest : List Char}
    (h : raw.toList = front ++ rest) : String.Pos.Raw.IsValid raw ⟨byteLength front⟩ := by
  rw [String.Pos.Raw.isValid_iff_exists_append]
  refine ⟨String.ofList front, String.ofList rest, ?_, ?_⟩
  · rw [← String.toList_inj, h, String.toList_append, String.toList_ofList, String.toList_ofList]
  · rw [byteLength_eq_utf8Len, String.rawEndPos_ofList]

theorem extract_byteLength {raw : String} {front cs rest : List Char}
    (h : raw.toList = front ++ cs ++ rest) :
    String.Pos.Raw.extract raw ⟨byteLength front⟩ ⟨byteLength (front ++ cs)⟩ =
      String.ofList cs := by
  rw [← String.ofList_toList (s := raw), h, byteLength_eq_utf8Len, byteLength_eq_utf8Len,
    String.utf8Len_append]
  exact String.extract_of_valid front cs rest

end Text

theorem Span.Cuts.slices {span : Span} {raw : String} {cs : List Char} (h : span.Cuts raw cs) :
    span.Slices raw (String.ofList cs) := by
  obtain ⟨before, after, hraw, hstart, hstop⟩ := h
  refine ⟨?_, ?_, ?_⟩
  · rw [← hstart]
    rw [List.append_assoc] at hraw
    exact Text.isValid_byteLength hraw
  · rw [← hstop]
    exact Text.isValid_byteLength hraw
  · rw [← hstart, ← hstop]
    exact Text.extract_byteLength hraw

/-! ## Words that go on on neither side -/

namespace Text

/-- Some characters without blanks, with blanks or the ends of a text on both sides. -/
structure Isolates (before word after : List Char) : Prop where
  ne_nil : word ≠ []
  not_blank : ∀ c ∈ word, isBlank c = false
  blank_before : ∀ c ∈ before.getLast?, isBlank c = true
  blank_behind : ∀ c ∈ after.head?, isBlank c = true

variable {before word after front rest : List Char} {c : Char}

/-- A word does not begin with the blank at the front of a text. -/
theorem Isolates.exists_cons (h : Isolates before word after) (hc : isBlank c = true)
    (hsplit : c :: rest = before ++ word ++ after) :
    ∃ before', before = c :: before' ∧ rest = before' ++ word ++ after ∧
      Isolates before' word after := by
  cases before with
  | nil =>
      obtain ⟨d, others, rfl⟩ := List.exists_cons_of_ne_nil h.ne_nil
      obtain rfl : c = d := (List.cons.inj hsplit).1
      rw [h.not_blank c List.mem_cons_self] at hc
      cases hc
  | cons d before =>
      obtain ⟨rfl, hrest⟩ := List.cons.inj hsplit
      refine ⟨before, rfl, hrest, h.ne_nil, h.not_blank, fun e he => h.blank_before e ?_,
        h.blank_behind⟩
      cases before with
      | nil => cases he
      | cons f before => rwa [List.getLast?_cons_cons]

theorem Isolates.cons (h : Isolates before word after) (hc : isBlank c = true) :
    Isolates (c :: before) word after := by
  refine ⟨h.ne_nil, h.not_blank, fun d hd => ?_, h.blank_behind⟩
  cases before with
  | nil =>
      obtain rfl : c = d := Option.some.inj hd
      exact hc
  | cons e before => exact h.blank_before d (by rwa [List.getLast?_cons_cons] at hd)

/-- A word of a text that begins with one is that one or stands behind it. -/
theorem Isolates.eq_or_append (h : Isolates before word after) (hfront : Isolates [] front rest)
    (hsplit : front ++ rest = before ++ word ++ after) :
    (before = [] ∧ word = front) ∨
      ∃ before', before = front ++ before' ∧ rest = before' ++ word ++ after ∧
        Isolates before' word after := by
  obtain rfl | hne := eq_or_ne before []
  · left
    have hspan : ∀ {run behind : List Char}, Isolates [] run behind →
        (run ++ behind).span (!isBlank ·) = (run, behind) := fun hrun =>
      span_append (fun c hc => by rw [hrun.not_blank c hc]; rfl)
        (fun c hc => by rw [hrun.blank_behind c hc]; rfl)
    have hword := hspan h
    rw [List.nil_append] at hsplit
    rw [← hsplit, hspan hfront] at hword
    exact ⟨rfl, (Prod.mk.inj hword).1.symm⟩
  · right
    have hlast : before.getLast hne ∉ front := by
      intro hmem
      have hblank := h.blank_before _ (List.getLast?_eq_some_getLast hne)
      rw [hfront.not_blank _ hmem] at hblank
      cases hblank
    have hlead : front <+: before := by
      rcases List.prefix_or_prefix_of_prefix (⟨rest, rfl⟩ : front <+: front ++ rest)
        ⟨word ++ after, by rw [hsplit, ← List.append_assoc]⟩ with hle | hle
      · exact hle
      · exact absurd (hle.mem (List.getLast_mem hne)) hlast
    obtain ⟨before', rfl⟩ := hlead
    refine ⟨before', rfl, ?_, h.ne_nil, h.not_blank, fun c hc => h.blank_before c ?_,
      h.blank_behind⟩
    · simpa only [List.append_assoc, List.append_cancel_left_eq] using hsplit
    · rw [List.getLast?_append, Option.mem_def.mp hc, Option.some_or]
      rfl

theorem Isolates.append (h : Isolates before word after) (hfront : Isolates [] front rest)
    (hsplit : rest = before ++ word ++ after) : Isolates (front ++ before) word after := by
  refine ⟨h.ne_nil, h.not_blank, fun c hc => ?_, h.blank_behind⟩
  cases before with
  | nil =>
      -- What is behind the front begins with a blank, and the word does not.
      obtain ⟨d, others, rfl⟩ := List.exists_cons_of_ne_nil h.ne_nil
      have hblank := hfront.blank_behind d (by rw [hsplit]; rfl)
      rw [h.not_blank d List.mem_cons_self] at hblank
      cases hblank
  | cons d before =>
      rw [List.getLast?_append, List.getLast?_cons, Option.some_or] at hc
      exact h.blank_before c (by rwa [List.getLast?_cons])

end Text

/-! ## The words of a text in their places -/

namespace Tokens

/-- A word of some characters that stand behind `offset` bytes, and that goes on on neither
side. -/
def IsRun (offset : Nat) (cs : List Char) (t : Token) : Prop :=
  ∃ before after, Text.Isolates before t.text.toList after ∧
    cs = before ++ t.text.toList ++ after ∧
    t.span = ⟨offset + Text.byteLength before,
      offset + Text.byteLength (before ++ t.text.toList)⟩

/-- The words that are met when some characters behind `offset` bytes are read. -/
inductive Reads : Nat → List Char → List Token → Prop
  | nil (offset : Nat) : Reads offset [] []
  | blank {offset : Nat} {c : Char} {cs : List Char} {tokens : List Token}
      (hc : Text.isBlank c = true) (hrest : Reads (offset + c.utf8Size) cs tokens) :
      Reads offset (c :: cs) tokens
  | word {offset : Nat} {front rest : List Char} {tokens : List Token}
      (hfront : Text.Isolates [] front rest)
      (hrest : Reads (offset + Text.byteLength front) rest tokens) :
      Reads offset (front ++ rest)
        (⟨String.ofList front, ⟨offset, offset + Text.byteLength front⟩⟩ :: tokens)

variable {offset : Nat} {front rest cs : List Char} {c : Char} {t : Token} {tokens : List Token}

theorem isRun_cons_iff (hc : Text.isBlank c = true) :
    IsRun offset (c :: cs) t ↔ IsRun (offset + c.utf8Size) cs t := by
  constructor
  · rintro ⟨before, after, hisolates, hsplit, hspan⟩
    obtain ⟨before', rfl, hrest, hisolates'⟩ := hisolates.exists_cons hc hsplit
    refine ⟨before', after, hisolates', hrest, ?_⟩
    rw [hspan, List.cons_append, Text.byteLength, Text.byteLength, Nat.add_assoc, Nat.add_assoc]
  · rintro ⟨before, after, hisolates, rfl, hspan⟩
    refine ⟨c :: before, after, hisolates.cons hc, rfl, ?_⟩
    rw [hspan, List.cons_append, Text.byteLength, Text.byteLength, Nat.add_assoc, Nat.add_assoc]

theorem isRun_append_iff (hfront : Text.Isolates [] front rest) :
    IsRun offset (front ++ rest) t ↔
      t = ⟨String.ofList front, ⟨offset, offset + Text.byteLength front⟩⟩ ∨
        IsRun (offset + Text.byteLength front) rest t := by
  constructor
  · rintro ⟨before, after, hisolates, hsplit, hspan⟩
    rcases hisolates.eq_or_append hfront hsplit with
      ⟨rfl, hword⟩ | ⟨before', rfl, hrest, hisolates'⟩
    · left
      rw [List.nil_append, hword] at hspan
      rw [← hword, String.ofList_toList, hword]
      cases t
      congr
    · right
      refine ⟨before', after, hisolates', hrest, ?_⟩
      rw [hspan, List.append_assoc, Text.byteLength_append, Text.byteLength_append,
        Nat.add_assoc, Nat.add_assoc]
  · rintro (rfl | ⟨before, after, hisolates, hsplit, hspan⟩)
    · refine ⟨[], rest, ?_, ?_, ?_⟩
      · rwa [String.toList_ofList]
      · rw [String.toList_ofList, List.nil_append]
      · rw [String.toList_ofList, List.nil_append, Text.byteLength, Nat.add_zero]
    · refine ⟨front ++ before, after, hisolates.append hfront hsplit, ?_, ?_⟩
      · rw [hsplit, List.append_assoc, List.append_assoc, List.append_assoc]
      · rw [hspan, List.append_assoc, Text.byteLength_append front, Text.byteLength_append front,
          Nat.add_assoc, Nat.add_assoc]

/-- What is read is every word that goes on on neither side, and nothing else. -/
theorem Reads.mem_iff (h : Reads offset cs tokens) : t ∈ tokens ↔ IsRun offset cs t := by
  induction h with
  | nil offset =>
      refine iff_of_false List.not_mem_nil ?_
      rintro ⟨before, after, hisolates, hsplit, -⟩
      obtain ⟨hboth, -⟩ := List.append_eq_nil_iff.mp hsplit.symm
      exact hisolates.ne_nil (List.append_eq_nil_iff.mp hboth).2
  | blank hc hrest ih => rw [ih, isRun_cons_iff hc]
  | word hfront hrest ih => rw [List.mem_cons, ih, isRun_append_iff hfront]

theorem IsRun.offset_le (h : IsRun offset cs t) : offset ≤ t.span.start := by
  obtain ⟨before, after, -, -, hspan⟩ := h
  rw [hspan]
  exact Nat.le_add_right _ _

/-- Behind a word that has ended the next one starts later. -/
theorem IsRun.offset_lt (h : IsRun offset rest t) (hfront : Text.Isolates [] front rest) :
    offset < t.span.start := by
  cases rest with
  | nil => exact absurd h (by rw [← (Reads.nil offset).mem_iff]; exact List.not_mem_nil)
  | cons c rest =>
      have hblank := hfront.blank_behind c rfl
      have hpos := c.utf8Size_pos
      have hle := ((isRun_cons_iff hblank).mp h).offset_le
      omega

/-- Every word starts behind the end of those before. -/
theorem Reads.apart (h : Reads offset cs tokens) :
    tokens.Pairwise fun t u => t.span.stop < u.span.start := by
  induction h with
  | nil offset => exact .nil
  | blank hc hrest ih => exact ih
  | word hfront hrest ih =>
      exact List.pairwise_cons.mpr ⟨fun u hu => (hrest.mem_iff.mp hu).offset_lt hfront, ih⟩

/-- A character outside of all words is a blank. -/
theorem Reads.isBlank_of_outside (h : Reads offset cs tokens) {before after : List Char}
    (hsplit : cs = before ++ c :: after)
    (houtside : ∀ t ∈ tokens, offset + Text.byteLength before < t.span.start ∨
      t.span.stop ≤ offset + Text.byteLength before) : Text.isBlank c = true := by
  induction h generalizing before with
  | nil offset => exact absurd hsplit (by simp)
  | @blank offset d cs tokens hd hrest ih =>
      cases before with
      | nil =>
          obtain rfl := (List.cons.inj hsplit).1
          exact hd
      | cons e before =>
          obtain ⟨rfl, hrest⟩ := List.cons.inj hsplit
          refine ih hrest fun t ht => ?_
          simpa only [Text.byteLength, Nat.add_assoc] using houtside t ht
  | @word offset front rest tokens hfront hrest ih =>
      have hfar : front <+: before := by
        rcases List.prefix_or_prefix_of_prefix (⟨rest, rfl⟩ : front <+: front ++ rest)
          ⟨c :: after, hsplit.symm⟩ with hle | ⟨gap, hgap⟩
        · exact hle
        · have hlength := congrArg Text.byteLength hgap
          rw [Text.byteLength_append] at hlength
          rcases houtside _ List.mem_cons_self with hlt | hle
          · exact absurd hlt (Nat.not_lt.mpr (Nat.le_add_right _ _))
          · have hle : offset + Text.byteLength front ≤ offset + Text.byteLength before := hle
            have hempty : gap = [] := Text.eq_nil_of_byteLength_eq_zero (by omega)
            exact ⟨[], by rw [← hgap, hempty, List.append_nil, List.append_nil]⟩
      obtain ⟨before', rfl⟩ := hfar
      rw [List.append_assoc, List.append_cancel_left_eq] at hsplit
      refine ih hsplit fun t ht => ?_
      simpa only [Text.byteLength_append, Nat.add_assoc] using
        houtside t (List.mem_cons_of_mem _ ht)

/-- A pending word ends where a blank or the end of the text follows. -/
theorem Reads.wordBefore_append {word : List Char} (hword : ∀ c ∈ word, Text.isBlank c = false)
    (hbehind : ∀ c ∈ rest.head?, Text.isBlank c = true)
    (hrest : Reads (offset + Text.byteLength word) rest tokens) :
    Reads offset (word.reverse ++ rest)
      (wordBefore (offset + Text.byteLength word) word ++ tokens) := by
  cases word with
  | nil => exact hrest
  | cons c word =>
      have hpending : wordBefore (offset + Text.byteLength (c :: word)) (c :: word) =
          [⟨String.ofList (c :: word).reverse,
            ⟨offset, offset + Text.byteLength (c :: word).reverse⟩⟩] := by
        simp only [wordBefore, Nat.add_sub_cancel, Text.byteLength_reverse]
      rw [← Text.byteLength_reverse] at hrest
      rw [hpending]
      refine .word ⟨?_, fun d hd => hword d (List.mem_reverse.mp hd), ?_, hbehind⟩ hrest
      · rw [List.reverse_ne_nil_iff]
        exact List.cons_ne_nil c word
      · exact fun d hd => absurd hd (Option.not_mem_none d)

/-- The scanner reads the word that is pending and all that is left. -/
theorem reads_scan {word : List Char} (hword : ∀ c ∈ word, Text.isBlank c = false) :
    Reads offset (word.reverse ++ cs) (scan (offset + Text.byteLength word) word cs) := by
  induction cs generalizing offset word with
  | nil =>
      have hend : Reads offset (word.reverse ++ [])
          (wordBefore (offset + Text.byteLength word) word ++ []) :=
        .wordBefore_append hword (fun c hc => absurd hc (Option.not_mem_none c)) (.nil _)
      rwa [List.append_nil (wordBefore _ _)] at hend
  | cons c cs ih =>
      rw [scan]
      split
      next hblank =>
        have hrest : Reads (offset + Text.byteLength word + c.utf8Size) cs
            (scan (offset + Text.byteLength word + c.utf8Size) [] cs) :=
          ih (List.forall_mem_nil _)
        refine .wordBefore_append hword (fun d hd => ?_) (.blank hblank hrest)
        obtain rfl : c = d := Option.some.inj hd
        exact hblank
      next hblank =>
        have hlonger : ∀ d ∈ c :: word, Text.isBlank d = false :=
          List.forall_mem_cons.mpr ⟨Bool.eq_false_iff.mpr hblank, hword⟩
        have hmore : Reads offset ((c :: word).reverse ++ cs)
            (scan (offset + Text.byteLength (c :: word)) (c :: word) cs) := ih hlonger
        rw [List.reverse_cons, List.append_assoc, List.singleton_append, Text.byteLength,
          Nat.add_comm c.utf8Size, ← Nat.add_assoc] at hmore
        exact hmore

theorem reads_ofText (s : String) : Reads 0 s.toList (ofText s) :=
  reads_scan (List.forall_mem_nil _)

/-- The words of a message are texts without blanks that are not empty. -/
theorem isWord_of_mem_scan (h : t ∈ scan offset [] cs) : Text.IsWord t.text := by
  have hreads : Reads offset cs (scan offset [] cs) := reads_scan (List.forall_mem_nil _)
  obtain ⟨before, after, hisolates, -, -⟩ := hreads.mem_iff.mp h
  exact ⟨hisolates.ne_nil, hisolates.not_blank⟩

theorem IsRun.slices {s : String} (h : IsRun 0 s.toList t) :
    t.span.start < t.span.stop ∧ t.span.Slices s t.text := by
  obtain ⟨before, after, hisolates, hsplit, hspan⟩ := h
  rw [Nat.zero_add, Nat.zero_add] at hspan
  constructor
  · have hpos : Text.byteLength t.text.toList ≠ 0 := fun hzero =>
      hisolates.ne_nil (Text.eq_nil_of_byteLength_eq_zero hzero)
    rw [hspan, Text.byteLength_append]
    exact Nat.lt_add_of_pos_right (Nat.pos_of_ne_zero hpos)
  · have hcuts : t.span.Cuts s t.text.toList :=
      ⟨before, after, hsplit, by rw [hspan], by rw [hspan]⟩
    rw [← String.ofList_toList (s := t.text)]
    exact hcuts.slices

end Tokens

/-! ## Messages -/

theorem Triggers.isValid_of_strip? {triggers : Triggers} {raw : String} {offset : Nat}
    {body : List Char} (h : triggers.strip? raw = some (offset, body)) :
    String.Pos.Raw.IsValid raw ⟨offset⟩ ∧
      String.Pos.Raw.extract raw ⟨offset⟩ raw.rawEndPos = String.ofList body := by
  obtain ⟨front, hraw, rfl⟩ := exists_front_of_strip? h
  refine ⟨Text.isValid_byteLength hraw, ?_⟩
  have hend : raw.rawEndPos = ⟨Text.byteLength (front ++ body)⟩ := by
    rw [← hraw, Text.byteLength_eq_utf8Len, String.utf8Len_toList]
    rfl
  rw [← List.append_nil (front ++ body)] at hraw
  rw [hend]
  exact Text.extract_byteLength hraw

theorem Route.slices_of_ofText {triggers : Triggers} {routes : Routes} {table : ResolverTable}
    {raw : String} {c : Command} {rest : List Token}
    (h : ofText triggers routes table raw = .matched c rest) {t : Token} (ht : t ∈ rest) :
    t.span.Slices raw t.text := by
  have hcuts := ((placed_of_ofText h).cuts t ht).slices
  rwa [String.ofList_toList] at hcuts

namespace Tokens

/-- The words of a text are its longest stretches of characters that are not blank: each covers
at least one byte from one boundary of characters to another, where the text has this word, the
next one starts behind it, and blanks are outside of all.  What is behind the trigger of a
message starts at a boundary of characters, and the words that a route leaves stand in the
message where their spans tell. -/
theorem spans_faithful :
    (∀ s : String,
      (∀ t, t ∈ ofText s ↔ IsRun 0 s.toList t) ∧
      (∀ t ∈ ofText s, t.span.start < t.span.stop ∧ t.span.Slices s t.text) ∧
      (ofText s).Pairwise (fun t u => t.span.stop < u.span.start) ∧
      ∀ before c after, s.toList = before ++ c :: after →
        (∀ t ∈ ofText s, Text.byteLength before < t.span.start ∨
          t.span.stop ≤ Text.byteLength before) → Text.isBlank c = true) ∧
    (∀ (triggers : Triggers) (raw : String) offset body,
      triggers.strip? raw = some (offset, body) →
        String.Pos.Raw.IsValid raw ⟨offset⟩ ∧
          String.Pos.Raw.extract raw ⟨offset⟩ raw.rawEndPos = String.ofList body) ∧
    ∀ (triggers : Triggers) (routes : Routes) (table : ResolverTable) (raw : String) c rest,
      Route.ofText triggers routes table raw = .matched c rest →
        ∀ t ∈ rest, t.span.Slices raw t.text := by
  refine ⟨fun s => ?_, ?_, ?_⟩
  · have hreads := reads_ofText s
    refine ⟨fun t => hreads.mem_iff, fun t ht => (hreads.mem_iff.mp ht).slices, hreads.apart, ?_⟩
    intro before c after hsplit houtside
    refine hreads.isBlank_of_outside hsplit fun t ht => ?_
    rw [Nat.zero_add]
    exact houtside t ht
  · exact fun triggers raw offset body h => Triggers.isValid_of_strip? h
  · exact fun triggers routes table raw c rest h t ht => Route.slices_of_ofText h ht

/-- Blanks, a trigger and a word of characters of two and three bytes. -/
theorem spans_faithful_wide :
    let raw := "\u3000«list\u2003grüße"
    let triggers : Triggers := ⟨["«"], none⟩
    let routes := Routes.empty.add "list" [Catalog.plain "list" []]
    triggers.strip? raw = some (5, "list\u2003grüße".toList) ∧
      String.Pos.Raw.IsValid raw ⟨5⟩ ∧
      Route.ofText triggers routes .standard raw =
        .matched (Catalog.plain "list" []) [⟨"grüße", ⟨12, 19⟩⟩] ∧
      (⟨12, 19⟩ : Span).Slices raw "grüße" ∧
      Text.isBlank '\u2003' = true := by
  have hroute : Route.ofText ⟨["«"], none⟩ (Routes.empty.add "list" [Catalog.plain "list" []])
      .standard "\u3000«list\u2003grüße" =
      .matched (Catalog.plain "list" []) [⟨"grüße", ⟨12, 19⟩⟩] := rfl
  intro raw triggers routes
  obtain ⟨htexts, hstrips, hroutes⟩ := spans_faithful
  have hstrip : triggers.strip? raw = some (5, "list\u2003grüße".toList) := by decide +kernel
  have hblank : Text.isBlank '\u2003' = true := by
    obtain ⟨-, -, -, houtside⟩ := htexts raw
    refine houtside "\u3000«list".toList '\u2003' "grüße".toList ?_ ?_
    · decide +kernel
    · decide +kernel
  exact ⟨hstrip, (hstrips triggers raw 5 _ hstrip).1, hroute,
    hroutes triggers routes .standard raw _ _ hroute _ (List.mem_singleton_self _), hblank⟩

end Tokens

end ChatCommands
