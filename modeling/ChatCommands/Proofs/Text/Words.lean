import Mathlib.Data.List.DropRight
import Mathlib.Data.List.TakeDrop
import Mathlib.Data.List.TakeWhile
import ChatCommands.Text.Blank

/-!
# Words

A word is a text without blanks that is not empty.  It is its own only word, and
trimming leaves it as it is.  Within a text, characters of one kind run up to the first of
another.
-/

namespace ChatCommands.Text

/-- A text without blanks that is not empty. -/
structure IsWord (s : String) : Prop where
  ne_nil : s.toList ≠ []
  not_blank : ∀ c ∈ s.toList, isBlank c = false

theorem isWord_iff (s : String) :
    IsWord s ↔ s.toList ≠ [] ∧ (s.toList.all fun c => !isBlank c) = true := by
  constructor
  · intro h
    exact ⟨h.ne_nil, by simpa using h.not_blank⟩
  · rintro ⟨hne, hall⟩
    exact ⟨hne, by simpa using hall⟩

instance (s : String) : Decidable (IsWord s) :=
  decidable_of_iff _ (isWord_iff s).symm

theorem pieces_of_not_cut {cut : Char → Bool} {cs : List Char} (h : ∀ c ∈ cs, cut c = false) :
    pieces cut cs = [cs] := by
  induction cs with
  | nil => rfl
  | cons c rest ih =>
      have hc : cut c = false := h c List.mem_cons_self
      have hrest : pieces cut rest = [rest] := ih fun d hd => h d (List.mem_cons_of_mem c hd)
      simp [pieces, hc, hrest]

theorem words_of_isWord {s : String} (h : IsWord s) : words s = [s] := by
  have hempty : s.toList.isEmpty = false := by
    rw [Bool.eq_false_iff, ne_eq, List.isEmpty_iff]
    exact h.ne_nil
  rw [words, pieces_of_not_cut h.not_blank]
  simp [hempty]

theorem dropWhile_of_not {drop : Char → Bool} {cs : List Char}
    (h : ∀ c ∈ cs, drop c = false) : cs.dropWhile drop = cs := by
  cases cs with
  | nil => rfl
  | cons c rest => simp [h c List.mem_cons_self]

theorem dropStart_of_not {drop : Char → Bool} {s : String}
    (h : ∀ c ∈ s.toList, drop c = false) : dropStart drop s = s := by
  rw [dropStart, dropWhile_of_not h, String.ofList_toList]

theorem trim_of_not_blank {s : String} (h : ∀ c ∈ s.toList, isBlank c = false) : trim s = s := by
  have hreverse : ∀ c ∈ s.toList.reverse, isBlank c = false :=
    fun c hc => h c (List.mem_reverse.mp hc)
  rw [trim, trimChars, dropAround, dropWhile_of_not h, dropEndWhile, dropWhile_of_not hreverse,
    List.reverse_reverse, String.ofList_toList]

theorem isBlank_of_isDigit {c : Char} (h : c.isDigit = true) : isBlank c = false := by
  rw [Char.isDigit, Bool.and_eq_true, decide_eq_true_eq, decide_eq_true_eq] at h
  have hlow : 48 ≤ c.toNat := UInt32.le_iff_toNat_le.mp h.1
  have hhigh : c.toNat ≤ 57 := UInt32.le_iff_toNat_le.mp h.2
  simp only [isBlank, Bool.or_eq_false_iff, Bool.and_eq_false_iff, decide_eq_false_iff_not,
    beq_eq_false_iff_ne]
  omega

theorem dropEndWhile_eq (drop : Char → Bool) (cs : List Char) :
    dropEndWhile drop cs = cs.rdropWhile drop := rfl

/-- Dropping at both ends leaves nothing more to drop. -/
theorem dropAround_dropAround (drop : Char → Bool) (cs : List Char) :
    dropAround drop (dropAround drop cs) = dropAround drop cs := by
  simp only [dropAround, dropEndWhile_eq]
  have hstart : ((cs.dropWhile drop).rdropWhile drop).dropWhile drop =
      (cs.dropWhile drop).rdropWhile drop := by
    -- What is left begins like the text without its leading characters.
    rw [List.dropWhile_eq_self_iff]
    intro hpos
    have hinitial := List.rdropWhile_prefix drop (cs.dropWhile drop)
    have hlength := Nat.lt_of_lt_of_le hpos hinitial.length_le
    rw [hinitial.getElem hpos]
    exact List.dropWhile_get_zero_not drop cs hlength
  rw [hstart, List.rdropWhile_idempotent]

@[simp] theorem trim_trim (s : String) : trim (trim s) = trim s := by
  simp only [trim, trimChars, String.toList_ofList, dropAround_dropAround]

/-- Blanks behind a text are trimmed off. -/
theorem trim_append_blank {cs blanks : List Char} (h : ∀ c ∈ blanks, isBlank c = true) :
    trim (String.ofList (cs ++ blanks)) = trim (String.ofList cs) := by
  have hend : ∀ ds : List Char, dropEndWhile isBlank (ds ++ blanks) = dropEndWhile isBlank ds := by
    intro ds
    rw [dropEndWhile, List.reverse_append,
      List.dropWhile_append_of_pos fun c hc => h c (List.mem_reverse.mp hc), dropEndWhile]
  simp only [trim, trimChars, dropAround, String.toList_ofList]
  rw [List.dropWhile_append]
  split
  next hempty =>
    rw [List.isEmpty_iff.mp hempty, List.dropWhile_eq_nil_iff.mpr h]
  next => rw [hend]

/-- What is trimmed already does not start with a blank. -/
theorem not_isBlank_of_trimChars_eq {c : Char} {cs : List Char}
    (h : trimChars (c :: cs) = c :: cs) : isBlank c = false := by
  rw [Bool.eq_false_iff]
  intro hblank
  have hshorter : (trimChars (c :: cs)).length ≤ cs.length := by
    calc (trimChars (c :: cs)).length
      _ = (dropEndWhile isBlank (cs.dropWhile isBlank)).length := by
        rw [trimChars, dropAround, List.dropWhile_cons, if_pos hblank]
      _ ≤ (cs.dropWhile isBlank).length := (List.rdropWhile_prefix _ _).length_le
      _ ≤ cs.length := (List.dropWhile_suffix _).length_le
  rw [h, List.length_cons] at hshorter
  exact absurd hshorter (Nat.not_succ_le_self _)

/-- Joined texts are the first one, and the others with the separator in front of each. -/
theorem join_cons (separator x : String) (xs : List String) :
    join separator (x :: xs) =
      x ++ String.ofList (xs.flatMap fun y => separator.toList ++ y.toList) := by
  rw [← String.toList_inj, String.toList_append, join, String.toList_ofList, String.toList_ofList]
  induction xs generalizing x with
  | nil => simp
  | cons y ys ih =>
      have ih := ih y
      rw [List.map_cons] at ih
      rw [List.map_cons, List.map_cons, List.intersperse_cons_cons, List.flatten_cons,
        List.flatten_cons, ih, List.flatMap_cons, List.append_assoc]

/-! ## Runs of characters -/

/-- A run of characters ends where a character of another kind follows. -/
theorem span_append {p : Char → Bool} {cs rest : List Char} (h : ∀ c ∈ cs, p c = true)
    (hrest : ∀ c ∈ rest.head?, p c = false) : (cs ++ rest).span p = (cs, rest) := by
  have htake : rest.takeWhile p = [] := by
    cases rest with
    | nil => rfl
    | cons d rest => simp [hrest d (by simp)]
  have hdrop : rest.dropWhile p = rest := by
    cases rest with
    | nil => rfl
    | cons d rest => simp [hrest d (by simp)]
  rw [List.span_eq_takeWhile_dropWhile, List.takeWhile_append_of_pos h,
    List.dropWhile_append_of_pos h, htake, hdrop, List.append_nil]

theorem span_eq_iff {p : Char → Bool} {cs run rest : List Char} :
    cs.span p = (run, rest) ↔
      cs = run ++ rest ∧ (∀ c ∈ run, p c = true) ∧ ∀ c ∈ rest.head?, p c = false := by
  constructor
  · intro h
    rw [List.span_eq_takeWhile_dropWhile] at h
    obtain ⟨rfl, rfl⟩ := Prod.mk.inj h
    refine ⟨List.takeWhile_append_dropWhile.symm, fun c => List.mem_takeWhile_imp, ?_⟩
    intro c hc
    have hfirst := List.head?_dropWhile_not p cs
    rwa [Option.mem_def.mp hc] at hfirst
  · rintro ⟨rfl, hrun, hrest⟩
    exact span_append hrun hrest

end ChatCommands.Text
