import ChatCommands.Dispatch.Route
import ChatCommands.Proofs.Text.FileName

/-!
# Words in their places

A word of a message keeps the bytes at which it stands in the raw text.  The words that are
left when a command was found still stand there, one behind the other, so that the stretch from
the first of some words to the last begins with the one and ends with the other.
-/

namespace ChatCommands

/-! ## Spans of a text -/

/-- The bytes of a span are the given characters of a text. -/
def Span.Cuts (span : Span) (raw : String) (slice : List Char) : Prop :=
  ∃ before after, raw.toList = before ++ slice ++ after ∧
    Text.byteLength before = span.start ∧ Text.byteLength (before ++ slice) = span.stop

namespace Text

theorem byteLength_reverse (cs : List Char) : byteLength cs.reverse = byteLength cs := by
  induction cs with
  | nil => rfl
  | cons c rest ih =>
      rw [List.reverse_cons, byteLength_append, ih, byteLength, byteLength, byteLength]
      omega

theorem eq_nil_of_byteLength_eq_zero {cs : List Char} (h : byteLength cs = 0) : cs = [] := by
  cases cs with
  | nil => rfl
  | cons c rest =>
      have hpos := c.utf8Size_pos
      rw [byteLength] at h
      omega

theorem append_of_dropLead {lead cs rest : List Char} (h : dropLead lead cs = some rest) :
    cs = lead ++ rest := by
  induction lead generalizing cs with
  | nil => exact Option.some.inj h
  | cons p ps ih =>
      cases cs with
      | nil => cases h
      | cons c cs =>
          rw [dropLead] at h
          split at h
          next heq => rw [ih h, beq_iff_eq.mp heq, List.cons_append]
          next => cases h

end Text

namespace Span

variable {raw : String} {a b : Span} {cs ds : List Char}

theorem Cuts.start_le_stop (h : a.Cuts raw cs) : a.start ≤ a.stop := by
  obtain ⟨before, -, -, hstart, hstop⟩ := h
  rw [← hstart, ← hstop, Text.byteLength_append]
  exact Nat.le_add_right _ _

/-- From the start of one slice to the end of a later one, a text begins with the one and ends
with the other. -/
theorem Cuts.stretch (ha : a.Cuts raw cs) (hb : b.Cuts raw ds) (h : a.stop ≤ b.start) :
    ∃ slice, (⟨a.start, b.stop⟩ : Span).Cuts raw slice ∧ cs <+: slice ∧ ds <:+ slice := by
  obtain ⟨before, after, hraw, hstart, hstop⟩ := ha
  obtain ⟨before', after', hraw', hstart', hstop'⟩ := hb
  have hbetween : before ++ cs <+: before' := by
    rcases List.prefix_or_prefix_of_prefix (⟨after, hraw.symm⟩ : before ++ cs <+: raw.toList)
      ⟨ds ++ after', by rw [← List.append_assoc, hraw']⟩ with hle | ⟨rest, hrest⟩
    · exact hle
    · have hlength := congrArg Text.byteLength hrest
      rw [Text.byteLength_append, hstart', hstop] at hlength
      have hempty : rest = [] := Text.eq_nil_of_byteLength_eq_zero (by omega)
      exact ⟨[], by rw [← hrest, hempty, List.append_nil, List.append_nil]⟩
  obtain ⟨gap, rfl⟩ := hbetween
  refine ⟨cs ++ gap ++ ds, ⟨before, after', ?_, hstart, ?_⟩, ?_, List.suffix_append _ _⟩
  · rw [hraw']
    simp only [List.append_assoc]
  · rw [← hstop']
    simp only [List.append_assoc]
  · rw [List.append_assoc]
    exact List.prefix_append _ _

end Span

/-! ## Words one behind the other -/

namespace Tokens

/-- Words that stand in a text where their spans tell, one behind the other. -/
structure Placed (raw : String) (tokens : List Token) : Prop where
  cuts : ∀ t ∈ tokens, t.span.Cuts raw t.text.toList
  apart : tokens.Pairwise fun t u => t.span.stop ≤ u.span.start

/-- The bytes from the first to the last of some words. -/
def stretch? : List Token → Option Span
  | [] => none
  | first :: rest => some ⟨first.span.start, (rest.getLastD first).span.stop⟩

variable {raw : String} {first : Token} {tokens rest : List Token}

theorem Placed.sublist (h : Placed raw tokens) (hsub : rest.Sublist tokens) : Placed raw rest :=
  ⟨fun t ht => h.cuts t (hsub.mem ht), h.apart.sublist hsub⟩

/-- The stretch of some words begins with the first and ends with the last. -/
theorem Placed.exists_slice (h : Placed raw (first :: rest)) :
    ∃ slice, (⟨first.span.start, (rest.getLastD first).span.stop⟩ : Span).Cuts raw slice ∧
      first.text.toList <+: slice ∧ (rest.getLastD first).text.toList <:+ slice := by
  have hfirst := h.cuts first List.mem_cons_self
  have hlast := h.cuts _ List.getLastD_mem_cons
  obtain rfl | hne := eq_or_ne rest []
  · exact ⟨first.text.toList, hfirst, List.prefix_rfl, List.suffix_rfl⟩
  · have hmem : rest.getLastD first ∈ rest := by
      rw [List.getLastD_eq_getLast?, List.getLast?_eq_some_getLast hne]
      exact List.getLast_mem hne
    exact hfirst.stretch hlast ((List.pairwise_cons.mp h.apart).1 _ hmem)

/-- Joined one by one, the spans of words grow to the end of the last. -/
theorem Placed.foldl_join (h : Placed raw (first :: rest)) {start : Nat}
    (hstart : start ≤ first.span.start) :
    (rest.map (·.span)).foldl (fun joined span => some (joined.elim span (·.join span)))
      (some ⟨start, first.span.stop⟩) = some ⟨start, (rest.getLastD first).span.stop⟩ := by
  induction rest generalizing first with
  | nil => rfl
  | cons second rest ih =>
      have hwidth := (h.cuts first List.mem_cons_self).start_le_stop
      have hnext := (List.pairwise_cons.mp h.apart).1 second List.mem_cons_self
      have hwidth' := (h.cuts second (List.mem_cons_of_mem _ List.mem_cons_self)).start_le_stop
      have hjoin : (⟨start, first.span.stop⟩ : Span).join second.span =
          ⟨start, second.span.stop⟩ := by
        simp only [Span.join, Span.mk.injEq]
        omega
      have hrest : Placed raw (second :: rest) := h.sublist (List.sublist_cons_self _ _)
      rw [List.map_cons, List.foldl_cons, Option.elim_some, hjoin, List.getLastD_cons,
        ih hrest (by omega)]

/-- Around words that stand one behind the other there is their stretch. -/
theorem Placed.spanOf_words (h : Placed raw tokens) :
    Supply.spanOf (tokens.map .word) = stretch? tokens := by
  have hspans : (tokens.map Piece.word).filterMap Piece.span? = tokens.map (·.span) := by
    rw [List.filterMap_map, ← List.filterMap_eq_map]
    rfl
  rw [Supply.spanOf, hspans]
  cases tokens with
  | nil => rfl
  | cons first rest => exact h.foldl_join (Nat.le_refl _)

/-! ## The words of a message -/

theorem mem_wordBefore {front word after : List Char}
    (h : raw.toList = front ++ word.reverse ++ after) {t : Token}
    (ht : t ∈ wordBefore (Text.byteLength (front ++ word.reverse)) word) :
    t.span.Cuts raw t.text.toList ∧ t.span.start = Text.byteLength front ∧
      t.span.stop = Text.byteLength (front ++ word.reverse) := by
  have hstart : Text.byteLength (front ++ word.reverse) - Text.byteLength word =
      Text.byteLength front := by
    rw [Text.byteLength_append, Text.byteLength_reverse, Nat.add_sub_cancel]
  cases word with
  | nil => cases ht
  | cons c word =>
      obtain rfl : t = ⟨String.ofList (c :: word).reverse,
          ⟨Text.byteLength front, Text.byteLength (front ++ (c :: word).reverse)⟩⟩ := by
        rw [← hstart]
        exact List.mem_singleton.mp ht
      refine ⟨⟨front, after, ?_, rfl, ?_⟩, rfl, rfl⟩
      · rw [String.toList_ofList, h]
      · rw [String.toList_ofList]

/-- A pending word comes to stand in front of the words behind it. -/
theorem Placed.wordBefore_append {front word after : List Char}
    (h : raw.toList = front ++ word.reverse ++ after) (hrest : Placed raw rest)
    (hbehind : ∀ t ∈ rest, Text.byteLength (front ++ word.reverse) ≤ t.span.start) :
    Placed raw (wordBefore (Text.byteLength (front ++ word.reverse)) word ++ rest) ∧
      ∀ t ∈ wordBefore (Text.byteLength (front ++ word.reverse)) word ++ rest,
        Text.byteLength front ≤ t.span.start := by
  have hword := fun t ht => mem_wordBefore (t := t) h ht
  refine ⟨⟨?_, List.pairwise_append.mpr ⟨?_, hrest.apart, ?_⟩⟩, ?_⟩
  · intro t ht
    rcases List.mem_append.mp ht with ht | ht
    · exact (hword t ht).1
    · exact hrest.cuts t ht
  · cases word with
    | nil => exact .nil
    | cons c word => exact List.pairwise_singleton _ _
  · intro t ht u hu
    rw [(hword t ht).2.2]
    exact hbehind u hu
  · intro t ht
    rcases List.mem_append.mp ht with ht | ht
    · exact Nat.le_of_eq (hword t ht).2.1.symm
    · have hle := hbehind t ht
      rw [Text.byteLength_append] at hle
      omega

/-- The words of a text behind some characters stand behind these. -/
theorem placed_scan {front word cs : List Char} (h : raw.toList = front ++ word.reverse ++ cs) :
    Placed raw (scan (Text.byteLength (front ++ word.reverse)) word cs) ∧
      ∀ t ∈ scan (Text.byteLength (front ++ word.reverse)) word cs,
        Text.byteLength front ≤ t.span.start := by
  -- The pending word goes on, or it ends and the front grows by it and the blank behind it.
  induction cs generalizing front word with
  | nil =>
      have hword := Placed.wordBefore_append h ⟨List.forall_mem_nil _, .nil⟩ (List.forall_mem_nil _)
      rwa [List.append_nil] at hword
  | cons c cs ih =>
      rw [scan]
      split
      next hblank =>
        have hfront : raw.toList = (front ++ word.reverse ++ [c]) ++ [].reverse ++ cs := by
          rw [h]
          simp
        have hbytes : Text.byteLength (front ++ word.reverse ++ [c] ++ [].reverse) =
            Text.byteLength (front ++ word.reverse) + c.utf8Size := by
          rw [List.reverse_nil, List.append_nil, Text.byteLength_append, Text.byteLength,
            Text.byteLength, Nat.add_zero]
        obtain ⟨hrest, hbehind⟩ := ih hfront
        rw [hbytes] at hrest hbehind
        rw [Text.byteLength_append _ [c]] at hbehind
        exact hrest.wordBefore_append h fun t ht =>
          Nat.le_trans (Nat.le_add_right _ _) (hbehind t ht)
      next =>
        have hword : raw.toList = front ++ (c :: word).reverse ++ cs := by
          rw [h]
          simp
        have hbytes : Text.byteLength (front ++ (c :: word).reverse) =
            Text.byteLength (front ++ word.reverse) + c.utf8Size := by
          rw [List.reverse_cons, ← List.append_assoc, Text.byteLength_append, Text.byteLength,
            Text.byteLength, Nat.add_zero]
        have hscan := ih hword
        rwa [hbytes] at hscan

end Tokens

namespace Triggers

variable {t : Triggers} {body rest : List Char} {trigger : String}

theorem append_of_behind? {text : String} (h : behind? body text = some (trigger, rest)) :
    body = trigger.toList ++ rest := by
  obtain ⟨rest', hdrop, hpair⟩ := Option.map_eq_some_iff.mp h
  obtain ⟨rfl, rfl⟩ := Prod.mk.inj hpair
  exact Text.append_of_dropLead hdrop

theorem append_of_find? (h : t.find? body = some (trigger, rest)) :
    body = trigger.toList ++ rest := by
  rcases Option.or_eq_some_iff.mp h with hmention | ⟨-, htext⟩
  · obtain ⟨mention, -, hbehind⟩ := List.exists_of_findSome?_eq_some hmention
    exact append_of_behind? (Option.filter_eq_some_iff.mp hbehind).1
  · obtain ⟨text, -, hbehind⟩ := List.exists_of_findSome?_eq_some htext
    exact append_of_behind? hbehind

/-- What is left of a message behind its trigger, and the bytes in front of it. -/
theorem exists_front_of_strip? {raw : String} {offset : Nat}
    (h : t.strip? raw = some (offset, rest)) :
    ∃ front, raw.toList = front ++ rest ∧ Text.byteLength front = offset := by
  obtain ⟨⟨trigger, rest'⟩, hfind, hpair⟩ := Option.map_eq_some_iff.mp h
  obtain ⟨rfl, rfl⟩ := Prod.mk.inj hpair
  refine ⟨(raw.toList.span Text.isBlank).1 ++ trigger.toList, ?_, Text.byteLength_append _ _⟩
  rw [List.append_assoc, ← append_of_find? hfind]
  exact (Text.span_eq_iff.mp rfl).1

end Triggers

/-- The words behind a trigger stand in the message. -/
theorem Tokens.placed_of_strip? {triggers : Triggers} {raw : String} {offset : Nat}
    {body : List Char} (h : triggers.strip? raw = some (offset, body)) :
    Placed raw (scan offset [] body) := by
  obtain ⟨front, hraw, rfl⟩ := Triggers.exists_front_of_strip? h
  have hfront : raw.toList = front ++ [].reverse ++ body := by simpa using hraw
  have hplaced := (placed_scan hfront).1
  rwa [List.reverse_nil, List.append_nil] at hplaced

/-- The words that are left for a command stand in the message. -/
theorem Route.placed_of_ofText {triggers : Triggers} {routes : Routes} {table : ResolverTable}
    {raw : String} {c : Command} {rest : List Token}
    (h : ofText triggers routes table raw = .matched c rest) : Tokens.Placed raw rest := by
  unfold ofText at h
  split at h
  next => cases h
  next offset body hstrip =>
    have hplaced := Tokens.placed_of_strip? hstrip
    unfold ofTokens at h
    split at h
    next => cases h
    next first tokens hscan =>
      rw [hscan] at hplaced
      split at h
      next command left hchosen =>
        obtain ⟨rfl, rfl⟩ := Route.matched.inj h
        obtain ⟨candidates, -, hchoose⟩ := Option.bind_eq_some_iff.mp hchosen
        obtain ⟨found, -, hpair⟩ := Option.map_eq_some_iff.mp hchoose
        obtain rfl := (Prod.mk.inj hpair).2
        exact hplaced.sublist ((List.drop_sublist _ _).trans (List.sublist_cons_self _ _))
      next => cases h

end ChatCommands
