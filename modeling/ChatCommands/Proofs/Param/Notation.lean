import Mathlib.Data.List.TakeDrop
import Mathlib.Data.List.TakeWhile
import ChatCommands.Param.Signature
import ChatCommands.Proofs.Outcome
import ChatCommands.Proofs.Text.Words

/-!
# The notation of signatures

A signature is written parameter by parameter, with a gap of spaces and tabs wherever two parts
meet.  No part takes anything of the next one: a name and a keyword end at a mark, a default at
the dots or at the bracket, and the gap behind a default is trimmed off.  So reading gives back
what was written, whatever the gaps are, and refuses exactly the dots behind a type that cannot
be repeated.
-/

namespace ChatCommands.Signature

/-! ## What is written -/

/-- A name has at least one character. -/
structure IsName (s : String) : Prop where
  ne_nil : s.toList ≠ []
  isNameChar : ∀ c ∈ s.toList, isNameChar c = true

/-- The keyword of a type starts with a letter. -/
def IsTypeName (s : String) : Prop :=
  ∃ c cs, s.toList = c :: cs ∧ c.isAlpha = true ∧ ∀ d ∈ cs, isTypeChar d = true

/-- A default has no blanks at its ends, and nothing in it that could end it. -/
structure IsDefault (s : String) : Prop where
  ne_nil : s.toList ≠ []
  trim_eq : Text.trim s = s
  plain : ∀ c ∈ s.toList, c ≠ '.' ∧ c ≠ ']' ∧ c ≠ '>'

/-- A parameter that can be written down. -/
structure Spec extends Item where
  isName : IsName name
  isTypeName : ∀ keyword, type = some keyword → IsTypeName keyword
  isDefault : ∀ value, default = some value → IsDefault value

/-- Spaces and tabs between two parts, or nothing. -/
def Gap : Type :=
  { cs : List Char // ∀ c ∈ cs, isGap c = true }

/-- No gap. -/
def Gap.none : Gap :=
  ⟨[], fun _ h => absurd h List.not_mem_nil⟩

/-- The gaps of a parameter: the one in front of it, and those behind its parts. -/
structure Spacing where
  before : Gap
  opening : Gap
  name : Gap
  colon : Gap
  type : Gap
  equals : Gap
  default : Gap
  dots : Gap

namespace Item

variable (item : Item) (s : Spacing)

/-- The bracket in front. -/
def opening : Char :=
  if item.optional then '[' else '<'

/-- The bracket at the end. -/
def closing : Char :=
  if item.optional then ']' else '>'

/-- What is written behind the default. -/
def behindDefault : List Char :=
  if item.variadic then ['.', '.', '.'] ++ s.dots.val ++ [item.closing] else [item.closing]

/-- What is written behind the type. -/
def behindType : List Char :=
  match item.default with
  | some value =>
    ['='] ++ s.equals.val ++ value.toList ++ s.default.val ++ item.behindDefault s
  | none => item.behindDefault s

/-- What is written behind the name. -/
def behindName : List Char :=
  match item.type with
  | some keyword => [':'] ++ s.colon.val ++ keyword.toList ++ s.type.val ++ item.behindType s
  | none => item.behindType s

/-- What is written for a parameter. -/
def write : List Char :=
  s.before.val ++ [item.opening] ++ s.opening.val ++ item.name.toList ++ s.name.val ++
    item.behindName s

end Item

/-- The text of a signature. -/
def write (specs : List (Spec × Spacing)) (last : Gap) : String :=
  String.ofList (specs.flatMap (fun w => w.1.write w.2) ++ last.val)

/-! ## What it means -/

namespace Item

variable (item : Item)

/-- The type that is written down, or that of texts. -/
def declared : ParamType :=
  item.type.elim .string ParamType.ofKeyword

/-- Dots stand behind no type but that of texts and that of lists of texts. -/
def Repeatable : Prop :=
  item.variadic = true → item.declared = .string ∨ item.declared = .strings

/-- The draft that is written down. -/
def meaning : ParamDraft where
  name := item.name
  type := if item.variadic then .strings else item.declared
  optional := item.optional
  default := item.default

variable {item}

theorem type?_eq : item.type? =
    if item.variadic then
      if item.declared = .string ∨ item.declared = .strings then .ok .strings
      else .error (.notVariadic item.name item.declared.keyword)
    else .ok item.declared := by
  have hdeclared : (item.type.map ParamType.ofKeyword).getD .string = item.declared := by
    cases h : item.type <;> simp [declared, h]
  simp only [type?, hdeclared]
  cases item.variadic with
  | false => rfl
  | true => cases item.declared <;> rfl

theorem draft_of_repeatable (h : item.Repeatable) : item.draft = .ok item.meaning := by
  rw [draft, type?_eq, meaning]
  cases hvariadic : item.variadic with
  | false => rfl
  | true =>
      rw [if_pos rfl, if_pos (h hvariadic)]
      rfl

theorem draft_of_not_repeatable (h : ¬ item.Repeatable) :
    item.draft = .error (.notVariadic item.name item.declared.keyword) := by
  obtain ⟨hvariadic, htype⟩ := Classical.not_imp.mp h
  rw [draft, type?_eq, if_pos hvariadic, if_neg htype]
  rfl

end Item

/-! ## Reading the parts -/

section Parts

variable {c : Char} {cs rest : List Char} {s : String}

theorem skip_gap (g : Gap) (cs : List Char) : skip (g.val ++ cs) = skip cs :=
  List.dropWhile_append_of_pos g.property

theorem skip_cons (h : isGap c = false) : skip (c :: cs) = c :: cs := by
  rw [skip, List.dropWhile_cons, h]
  rfl

/-- A blank, or the first character of a part behind a name. -/
def isMark (c : Char) : Bool :=
  isGap c || c == ':' || c == '=' || c == '.' || c == ']' || c == '>'

/-- A text that starts with a mark, if with anything. -/
def Marked (cs : List Char) : Prop :=
  ∀ c ∈ cs.head?, isMark c = true

theorem marked_cons (h : isMark c = true) : Marked (c :: cs) := by
  intro d hd
  rw [List.head?_cons, Option.mem_some] at hd
  exact hd ▸ h

theorem marked_gap (g : Gap) (h : Marked rest) : Marked (g.val ++ rest) := by
  obtain ⟨cs, hgap⟩ := g
  cases cs with
  | nil => exact h
  | cons c cs =>
      apply marked_cons
      simp [isMark, hgap c List.mem_cons_self]

theorem isMark_cases (h : isMark c = true) :
    c = ' ' ∨ c = '\t' ∨ c = ':' ∨ c = '=' ∨ c = '.' ∨ c = ']' ∨ c = '>' := by
  simpa [isMark, isGap, or_assoc] using h

theorem isNameChar_of_isMark (h : isMark c = true) : isNameChar c = false := by
  rcases isMark_cases h with rfl | rfl | rfl | rfl | rfl | rfl | rfl <;> decide

theorem isTypeChar_of_isMark (h : isMark c = true) : isTypeChar c = false := by
  rcases isMark_cases h with rfl | rfl | rfl | rfl | rfl | rfl | rfl <;> decide

theorem isGap_of_isNameChar (h : isNameChar c = true) : isGap c = false := by
  rw [Bool.eq_false_iff]
  intro hgap
  have hmark : isMark c = true := by simp [isMark, hgap]
  rw [isNameChar_of_isMark hmark] at h
  cases h

theorem readName?_append (h : IsName s) (hrest : Marked rest) :
    readName? (s.toList ++ rest) = some (s, rest) := by
  have hspan := Text.span_append h.isNameChar fun c hc => isNameChar_of_isMark (hrest c hc)
  have hempty : s.toList.isEmpty = false := by simpa using h.ne_nil
  simp only [readName?, hspan, hempty, String.ofList_toList]
  rfl

theorem readType?_colon (h : IsTypeName s) (g : Gap) (hrest : Marked rest) :
    readType? ([':'] ++ g.val ++ s.toList ++ rest) = some (s, rest) := by
  obtain ⟨c, cs, hs, hc, hcs⟩ := h
  have hgap : isGap c = false := by
    apply isGap_of_isNameChar
    simp [isNameChar, Char.isAlphanum, hc]
  have hspan := Text.span_append hcs fun d hd => isTypeChar_of_isMark (hrest d hd)
  have hskip : skip (g.val ++ (c :: (cs ++ rest))) = c :: (cs ++ rest) := by
    rw [skip_gap, skip_cons hgap]
  simp only [List.append_assoc, hs, List.cons_append, List.nil_append, readType?, hskip, hc,
    if_true, hspan]
  rw [← hs, String.ofList_toList]

theorem spanDefault_append (h : ∀ c ∈ cs, c ≠ '.' ∧ c ≠ ']' ∧ c ≠ '>')
    (hrest : spanDefault rest = ([], rest)) : spanDefault (cs ++ rest) = (cs, rest) := by
  induction cs with
  | nil => exact hrest
  | cons c cs ih =>
      obtain ⟨hdot, hsquare, hangle⟩ := h c List.mem_cons_self
      have ih := ih fun d hd => h d (List.mem_cons_of_mem c hd)
      rw [List.cons_append, spanDefault]
      · simp [hsquare, hangle, ih]
      · rintro _ rfl
        exact absurd rfl hdot

theorem not_isBlank_of_isDefault (h : IsDefault s) (hs : s.toList = c :: cs) :
    Text.isBlank c = false := by
  apply Text.not_isBlank_of_trimChars_eq
  rw [← hs, ← String.toList_ofList (l := Text.trimChars s.toList)]
  exact congrArg String.toList h.trim_eq

theorem isBlank_of_isGap (h : isGap c = true) : Text.isBlank c = true := by
  simp only [isGap, Bool.or_eq_true, beq_iff_eq] at h
  rcases h with rfl | rfl <;> decide

theorem readDefault?_equals (h : IsDefault s) (before behind : Gap)
    (hrest : spanDefault rest = ([], rest)) :
    readDefault? (['='] ++ before.val ++ s.toList ++ behind.val ++ rest) = some (s, rest) := by
  have hplain : ∀ c ∈ s.toList ++ behind.val, c ≠ '.' ∧ c ≠ ']' ∧ c ≠ '>' := by
    intro c hc
    rcases List.mem_append.mp hc with hc | hc
    · exact h.plain c hc
    · have hgap := behind.property c hc
      refine ⟨?_, ?_, ?_⟩ <;> rintro rfl <;> exact absurd hgap (by decide)
  have hskip : skip (before.val ++ (s.toList ++ behind.val ++ rest)) =
      s.toList ++ behind.val ++ rest := by
    rw [skip_gap]
    obtain ⟨c, cs, hs⟩ := List.exists_cons_of_ne_nil h.ne_nil
    rw [hs, List.cons_append, List.cons_append, skip_cons]
    rw [Bool.eq_false_iff]
    intro hgap
    have hblank := not_isBlank_of_isDefault h hs
    rw [isBlank_of_isGap hgap] at hblank
    cases hblank
  have htrim : Text.trim (String.ofList (s.toList ++ behind.val)) = s := by
    rw [Text.trim_append_blank fun c hc => isBlank_of_isGap (behind.property c hc),
      String.ofList_toList, h.trim_eq]
  have hempty : (s.toList ++ behind.val).isEmpty = false := by simp [h.ne_nil]
  have hshape : ['='] ++ before.val ++ s.toList ++ behind.val ++ rest =
      '=' :: (before.val ++ (s.toList ++ behind.val ++ rest)) := by simp
  rw [hshape]
  simp only [readDefault?, hskip, spanDefault_append hplain hrest, hempty, htrim]
  rfl

end Parts

/-! ## Reading a parameter -/

section Reading

variable {α : Type} {read? : List Char → Option (α × List Char)} {cs rest : List Char}

/-- A part that is not there leaves the text as it is. -/
theorem optionally_none (h : read? cs = none) : optionally read? cs = (none, cs) := by
  rw [optionally, h]

theorem optionally_some {a : α} (h : read? cs = some (a, rest)) :
    optionally read? cs = (some a, rest) := by
  rw [optionally, h]

variable (item : Item) (spec : Spec) (s : Spacing) (rest : List Char)

theorem Item.closing_cases : item.closing = ']' ∨ item.closing = '>' := by
  unfold closing
  split
  · exact .inl rfl
  · exact .inr rfl

/-- Behind the default there are the dots or the bracket. -/
theorem Item.exists_behindDefault :
    ∃ c cs, item.behindDefault s = c :: cs ∧ (c = '.' ∨ c = ']' ∨ c = '>') := by
  unfold behindDefault
  split
  · exact ⟨_, _, rfl, .inl rfl⟩
  · exact ⟨_, _, rfl, .inr item.closing_cases⟩

/-- Behind the type there is an equals sign, or what is behind the default. -/
theorem Item.exists_behindType :
    ∃ c cs, item.behindType s = c :: cs ∧ (c = '=' ∨ c = '.' ∨ c = ']' ∨ c = '>') := by
  unfold behindType
  split
  · exact ⟨_, _, rfl, .inl rfl⟩
  · obtain ⟨c, cs, heq, hc⟩ := item.exists_behindDefault s
    exact ⟨c, cs, heq, .inr hc⟩

theorem Item.marked_behindType : Marked (item.behindType s ++ rest) := by
  obtain ⟨c, cs, heq, hc⟩ := item.exists_behindType s
  rw [heq]
  apply marked_cons
  rcases hc with rfl | rfl | rfl | rfl <;> rfl

theorem Item.marked_behindName : Marked (item.behindName s ++ rest) := by
  unfold behindName
  split
  · exact marked_cons rfl
  · exact item.marked_behindType s rest

theorem Item.spanDefault_behindDefault :
    spanDefault (item.behindDefault s ++ rest) = ([], item.behindDefault s ++ rest) := by
  unfold behindDefault
  split
  · simp [spanDefault]
  · rcases item.closing_cases with h | h <;> simp [h, spanDefault]

theorem optionally_readType? (g : Gap) :
    ∃ g' : Gap, optionally readType? (skip (g.val ++ (spec.behindName s ++ rest))) =
      (spec.type, g'.val ++ (spec.behindType s ++ rest)) := by
  cases htype : spec.type with
  | some keyword =>
      refine ⟨s.type, ?_⟩
      have hmarked : Marked (s.type.val ++ (spec.behindType s ++ rest)) :=
        marked_gap s.type (spec.marked_behindType s rest)
      have hread := readType?_colon (spec.isTypeName keyword htype) s.colon hmarked
      have hshape : spec.behindName s ++ rest =
          [':'] ++ s.colon.val ++ keyword.toList ++ (s.type.val ++ (spec.behindType s ++ rest)) := by
        simp [Item.behindName, htype]
      rw [skip_gap, hshape]
      exact optionally_some hread
  | none =>
      refine ⟨.none, ?_⟩
      have hshape : spec.behindName s = spec.behindType s := by simp [Item.behindName, htype]
      obtain ⟨c, cs, heq, hc⟩ := spec.exists_behindType s
      rw [hshape, skip_gap, heq, List.cons_append]
      rcases hc with rfl | rfl | rfl | rfl <;> exact optionally_none rfl

theorem optionally_readDefault? (g : Gap) :
    ∃ g' : Gap, optionally readDefault? (skip (g.val ++ (spec.behindType s ++ rest))) =
      (spec.default, g'.val ++ (spec.behindDefault s ++ rest)) := by
  refine ⟨.none, ?_⟩
  cases hdefault : spec.default with
  | some value =>
      have hread := readDefault?_equals (spec.isDefault value hdefault) s.equals s.default
        (spec.spanDefault_behindDefault s rest)
      have hshape : spec.behindType s ++ rest =
          ['='] ++ s.equals.val ++ value.toList ++ s.default.val ++
            (spec.behindDefault s ++ rest) := by
        simp [Item.behindType, hdefault]
      rw [skip_gap, hshape]
      exact optionally_some hread
  | none =>
      have hshape : spec.behindType s = spec.behindDefault s := by simp [Item.behindType, hdefault]
      obtain ⟨c, cs, heq, hc⟩ := spec.exists_behindDefault s
      rw [hshape, skip_gap, heq, List.cons_append]
      rcases hc with rfl | rfl | rfl <;> exact optionally_none rfl

theorem readDots_behindDefault (g : Gap) :
    ∃ g' : Gap, readDots (skip (g.val ++ (item.behindDefault s ++ rest))) =
      (item.variadic, g'.val ++ (item.closing :: rest)) := by
  rw [skip_gap, Item.behindDefault]
  cases item.variadic with
  | true => exact ⟨s.dots, by simp [skip, isGap, readDots]⟩
  | false =>
      refine ⟨.none, ?_⟩
      rcases item.closing_cases with h | h <;> rw [h] <;> rfl

/-- A parameter is read behind its opening bracket. -/
theorem readItem?_write :
    readItem? spec.optional
        (s.opening.val ++ (spec.name.toList ++ (s.name.val ++ (spec.behindName s ++ rest)))) =
      some (spec.toItem, rest) := by
  obtain ⟨c, cs, hname⟩ := List.exists_cons_of_ne_nil spec.isName.ne_nil
  have hgap : isGap c = false :=
    isGap_of_isNameChar (spec.isName.isNameChar c (hname ▸ List.mem_cons_self))
  have hskip : skip (s.opening.val ++
      (spec.name.toList ++ (s.name.val ++ (spec.behindName s ++ rest)))) =
        spec.name.toList ++ (s.name.val ++ (spec.behindName s ++ rest)) := by
    rw [skip_gap, hname, List.cons_append, skip_cons hgap]
  have hread := readName?_append spec.isName (marked_gap s.name (spec.marked_behindName s rest))
  obtain ⟨gtype, htype⟩ := optionally_readType? spec s rest s.name
  obtain ⟨gdefault, hdefault⟩ := optionally_readDefault? spec s rest gtype
  obtain ⟨gdots, hdots⟩ := readDots_behindDefault spec.toItem s rest gdefault
  have hclosing : skip (gdots.val ++ (spec.closing :: rest)) = spec.closing :: rest := by
    rw [skip_gap]
    rcases spec.closing_cases with h | h <;> rw [h] <;> rfl
  simp only [readItem?, hskip, hread, htype, hdefault, hdots, hclosing, Option.bind_eq_bind,
    Option.bind_some]
  exact if_pos (beq_iff_eq.mpr rfl)

end Reading

/-! ## Reading a signature -/

section Signature

variable (spec : Spec) (s : Spacing) (specs : List (Spec × Spacing)) (last : Gap)
  (rest : List Char)

theorem Item.write_append (item : Item) :
    item.write s ++ rest = s.before.val ++ (item.opening ::
      (s.opening.val ++ (item.name.toList ++ (s.name.val ++ (item.behindName s ++ rest))))) := by
  simp [write]

/-- The first parameter is taken off the front, with the gap before it. -/
theorem readItems?_write_append (fuel : Nat) :
    readItems? (fuel + 1) (spec.write s ++ rest) =
      (readItems? fuel rest).map (spec.toItem :: ·) := by
  have hitem := readItem?_write spec s rest
  have hopening : isGap spec.opening = false := by
    unfold Item.opening
    split <;> rfl
  rw [Item.write_append, readItems?, skip_gap, skip_cons hopening]
  cases hoptional : spec.optional with
  | false =>
      have hbracket : spec.opening = '<' := by simp [Item.opening, hoptional]
      rw [hoptional] at hitem
      simp only [hbracket, hitem, Option.bind_eq_bind, Option.bind_some]
      cases readItems? fuel rest <;> rfl
  | true =>
      have hbracket : spec.opening = '[' := by simp [Item.opening, hoptional]
      rw [hoptional] at hitem
      simp only [hbracket, hitem, Option.bind_eq_bind, Option.bind_some]
      cases readItems? fuel rest <;> rfl

theorem readItems?_write {fuel : Nat} (h : specs.length < fuel) :
    readItems? fuel (specs.flatMap (fun w => w.1.write w.2) ++ last.val) =
      some (specs.map (·.1.toItem)) := by
  induction specs generalizing fuel with
  | nil =>
      obtain ⟨fuel, rfl⟩ := Nat.exists_eq_succ_of_ne_zero (Nat.ne_zero_of_lt h)
      have hskip : skip last.val = [] := List.dropWhile_eq_nil_iff.mpr last.property
      simp [readItems?, hskip]
  | cons w specs ih =>
      obtain ⟨fuel, rfl⟩ := Nat.exists_eq_succ_of_ne_zero (Nat.ne_zero_of_lt h)
      rw [List.flatMap_cons, List.append_assoc, readItems?_write_append,
        ih (Nat.lt_of_succ_lt_succ h)]
      rfl

/-- Every parameter takes up room, if only for its brackets. -/
theorem length_le_length_write : specs.length ≤ (write specs last).length := by
  rw [write, String.length_ofList, List.length_append]
  induction specs with
  | nil => exact Nat.zero_le _
  | cons w specs ih =>
      have hbracket : 0 < (w.1.write w.2).length := by
        simp only [Item.write, List.length_append, List.length_singleton]
        omega
      rw [List.flatMap_cons, List.length_append, List.length_cons]
      omega

/-- A text is blank only if no parameter is written in it. -/
theorem isBlankText_write : Text.isBlankText (write specs last) = specs.isEmpty := by
  rw [Text.isBlankText, write, String.toList_ofList]
  cases specs with
  | nil =>
      rw [List.flatMap_nil, List.nil_append]
      exact List.all_eq_true.mpr fun c hc => isBlank_of_isGap (last.property c hc)
  | cons w specs =>
      rw [List.isEmpty_cons, List.all_eq_false]
      refine ⟨w.1.opening, by simp [Item.write], ?_⟩
      unfold Item.opening
      split <;> decide

theorem read_write_eq_mapM :
    read (write specs last) = (specs.map (·.1.toItem)).mapM Item.draft := by
  rw [read, isBlankText_write]
  cases specs with
  | nil => rfl
  | cons w specs =>
      have hfuel := Nat.lt_succ_of_le (length_le_length_write (w :: specs) last)
      have hitems := readItems?_write (w :: specs) last hfuel
      rw [write, String.toList_ofList] at *
      simp only [List.isEmpty_cons, Bool.false_eq_true, if_false, hitems]

end Signature

/-- Reading gives back the parameters that are written, in order, whatever gaps are between
their parts; the first parameter whose type cannot be repeated, and has dots behind it all the
same, is told as the mistake of the declaration. -/
theorem read_write (specs : List (Spec × Spacing)) (last : Gap) :
    ((∀ w ∈ specs, w.1.Repeatable) →
      read (write specs last) = .ok (specs.map (·.1.meaning))) ∧
    ∀ before w after, specs = before ++ w :: after → (∀ v ∈ before, v.1.Repeatable) →
      ¬ w.1.Repeatable →
        read (write specs last) = .error (.notVariadic w.1.name w.1.declared.keyword) := by
  rw [read_write_eq_mapM]
  constructor
  · intro h
    rw [mapM_eq_ok_map (g := Item.meaning), List.map_map]
    · rfl
    · intro item hitem
      obtain ⟨w, hw, rfl⟩ := List.mem_map.mp hitem
      exact Item.draft_of_repeatable (h w hw)
  · rintro before w after rfl hbefore hw
    rw [List.map_append, List.map_cons, mapM_append_cons_eq_error (g := Item.meaning)]
    · intro item hitem
      obtain ⟨v, hv, rfl⟩ := List.mem_map.mp hitem
      exact Item.draft_of_repeatable (hbefore v hv)
    · exact Item.draft_of_not_repeatable hw

/-- A space. -/
def Gap.space : Gap :=
  ⟨[' '], fun _ h => List.mem_singleton.mp h ▸ rfl⟩

/-- No gaps. -/
def Spacing.tight : Spacing :=
  ⟨.none, .none, .none, .none, .none, .none, .none, .none⟩

/-- A space wherever two parts meet. -/
def Spacing.wide : Spacing :=
  ⟨.space, .space, .space, .space, .space, .space, .space, .space⟩

theorem isName_of_all {s : String} (hempty : s.toList ≠ []) (h : s.toList.all isNameChar = true) :
    IsName s :=
  ⟨hempty, List.all_eq_true.mp h⟩

theorem isTypeName_of_all {s : String} {c : Char} {cs : List Char} (hs : s.toList = c :: cs)
    (hc : c.isAlpha = true) (h : cs.all isTypeChar = true) : IsTypeName s :=
  ⟨c, cs, hs, hc, List.all_eq_true.mp h⟩

theorem isDefault_of_all {s : String} (hempty : s.toList ≠ []) (htrim : Text.trim s = s)
    (h : (s.toList.all fun c => c != '.' && c != ']' && c != '>') = true) : IsDefault s := by
  refine ⟨hempty, htrim, fun c hc => ?_⟩
  simpa [and_assoc] using List.all_eq_true.mp h c hc

/-- A required member. -/
def who : Spec where
  optional := false
  name := "Who"
  type := some "member"
  default := none
  variadic := false
  isName := isName_of_all (by decide +kernel) (by decide +kernel)
  isTypeName := fun _ h => Option.some.inj h ▸ isTypeName_of_all rfl rfl (by decide +kernel)
  isDefault := fun _ h => by cases h

/-- An optional list of texts with a default of two words. -/
def notes : Spec where
  optional := true
  name := "notes-1"
  type := some "Text"
  default := some "to do"
  variadic := true
  isName := isName_of_all (by decide +kernel) (by decide +kernel)
  isTypeName := fun _ h => Option.some.inj h ▸ isTypeName_of_all rfl rfl (by decide +kernel)
  isDefault := fun _ h => Option.some.inj h ▸
    isDefault_of_all (by decide +kernel) (by decide +kernel) (by decide +kernel)

/-- An integer with dots behind its type. -/
def counts : Spec where
  optional := false
  name := "counts"
  type := some "int"
  default := none
  variadic := true
  isName := isName_of_all (by decide +kernel) (by decide +kernel)
  isTypeName := fun _ h => Option.some.inj h ▸ isTypeName_of_all rfl rfl (by decide +kernel)
  isDefault := fun _ h => by cases h

/-- Two parameters are read back from a text with gaps and from one without, and the dots behind
an integer are told. -/
theorem read_write_notes :
    who.Repeatable ∧ notes.Repeatable ∧ ¬ counts.Repeatable ∧
      read "<Who:member> [ notes-1 : Text = to do ... ] " =
        .ok [{ name := "Who", type := .member },
          { name := "notes-1", type := .strings, optional := true, default := some "to do" }] ∧
      read "<Who:member><counts:int...>" = .error (.notVariadic "counts" "i32") := by
  have hwho : who.Repeatable := fun h => by cases h
  have hnotes : notes.Repeatable := fun _ => .inl (by decide +kernel)
  have hcounts : ¬ counts.Repeatable := by
    intro h
    have htypes : counts.declared ≠ .string ∧ counts.declared ≠ .strings := by decide +kernel
    exact (h rfl).elim htypes.1 htypes.2
  have htext : write [(who, .tight), (notes, .wide)] .space =
      "<Who:member> [ notes-1 : Text = to do ... ] " := by decide +kernel
  have htext' : write [(who, .tight), (counts, .tight)] .none = "<Who:member><counts:int...>" := by
    decide +kernel
  refine ⟨hwho, hnotes, hcounts, ?_, ?_⟩
  · rw [← htext]
    refine ((read_write [(who, .tight), (notes, .wide)] .space).1 ?_).trans (by rfl)
    simp only [List.forall_mem_cons]
    exact ⟨hwho, hnotes, fun w hw => absurd hw List.not_mem_nil⟩
  · rw [← htext']
    refine ((read_write [(who, .tight), (counts, .tight)] .none).2 [(who, .tight)] _ [] rfl ?_
      hcounts).trans (by rfl)
    intro w hw
    rw [List.mem_singleton.mp hw]
    exact hwho

end ChatCommands.Signature
