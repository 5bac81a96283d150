import ChatCommands.Proofs.Text.FileName
import ChatCommands.Proofs.Text.Lowercase

/-!
# The words of a text

The words of a text do not depend on how many blanks are between them, and words with one space
between neighbours are read back as they are.  Together they have all characters of the text
that are not blank.  A lowercase form is never blank, so that a word is still one in lowercase.
-/

namespace ChatCommands.Text

variable {s : String} {c : Char} {cs blanks : List Char}

/-! ## Cutting at blanks -/

/-- The words of a text are those before and those behind a blank. -/
theorem words_append_cons (hc : isBlank c = true) (front rest : List Char) :
    words (String.ofList (front ++ c :: rest)) =
      words (String.ofList front) ++ words (String.ofList rest) := by
  simp only [words, String.toList_ofList, pieces_append_cons hc, List.filter_append,
    List.map_append]

theorem words_blanks_append (h : ∀ c ∈ blanks, isBlank c = true) (cs : List Char) :
    words (String.ofList (blanks ++ cs)) = words (String.ofList cs) := by
  induction blanks with
  | nil => rfl
  | cons c blanks ih =>
      have hcut := words_append_cons (h c List.mem_cons_self) [] (blanks ++ cs)
      rw [List.nil_append] at hcut
      rw [List.cons_append, hcut, ih fun d hd => h d (List.mem_cons_of_mem c hd)]
      rfl

theorem words_join {ws : List String} (h : ∀ word ∈ ws, IsWord word) :
    words (join " " ws) = ws := by
  cases ws with
  | nil => rfl
  | cons first others =>
      obtain ⟨hfirst, hothers⟩ := List.forall_mem_cons.mp h
      rw [join_cons]
      clear h
      induction others generalizing first with
      | nil => rw [List.flatMap_nil, String.ofList_nil, String.append_empty, words_of_isWord hfirst]
      | cons second others ih =>
          obtain ⟨hsecond, hothers⟩ := List.forall_mem_cons.mp hothers
          have hsplit : first ++ String.ofList ((second :: others).flatMap fun y =>
                " ".toList ++ y.toList) =
              String.ofList (first.toList ++ ' ' :: (second ++ String.ofList
                (others.flatMap fun y => " ".toList ++ y.toList)).toList) := by
            rw [← String.toList_inj]
            simp
          rw [hsplit, words_append_cons rfl, String.ofList_toList, String.ofList_toList,
            words_of_isWord hfirst, ih second hsecond hothers]
          rfl

theorem not_cut_of_mem_pieces {cut : Char → Bool} {piece : List Char} (h : piece ∈ pieces cut cs) :
    ∀ c ∈ piece, cut c = false := by
  induction cs generalizing piece with
  | nil =>
      obtain rfl := List.mem_singleton.mp h
      exact List.forall_mem_nil _
  | cons d rest ih =>
      rw [pieces] at h
      split at h
      next =>
        rcases List.mem_cons.mp h with rfl | hrest
        · exact List.forall_mem_nil _
        · exact ih hrest
      next hcut =>
        obtain ⟨first, others, hpieces⟩ := List.exists_cons_of_ne_nil (pieces_ne_nil cut rest)
        rw [hpieces] at h ih
        rcases List.mem_cons.mp h with rfl | hother
        · exact List.forall_mem_cons.mpr ⟨Bool.eq_false_iff.mpr hcut, ih List.mem_cons_self⟩
        · exact ih (List.mem_cons_of_mem first hother)

theorem isWord_of_mem_words {word : String} (h : word ∈ words s) : IsWord word := by
  obtain ⟨piece, hpiece, rfl⟩ := List.mem_map.mp h
  obtain ⟨hmem, hne⟩ := List.mem_filter.mp hpiece
  refine ⟨?_, ?_⟩
  · rw [String.toList_ofList]
    rintro rfl
    cases hne
  · rw [String.toList_ofList]
    exact not_cut_of_mem_pieces hmem

theorem flatten_pieces (cut : Char → Bool) (cs : List Char) :
    (pieces cut cs).flatten = cs.filter (!cut ·) := by
  induction cs with
  | nil => rfl
  | cons c rest ih =>
      obtain ⟨first, others, hpieces⟩ := List.exists_cons_of_ne_nil (pieces_ne_nil cut rest)
      rw [pieces]
      by_cases hcut : cut c = true
      · rw [if_pos hcut, List.flatten_cons, List.nil_append, ih, List.filter_cons_of_neg]
        simp [hcut]
      · rw [if_neg hcut, List.filter_cons_of_pos (by simp [hcut]), ← ih, hpieces]
        rfl

/-- The words of a text have all of its characters that are not blank. -/
theorem flatMap_words (s : String) :
    (words s).flatMap String.toList = s.toList.filter (!isBlank ·) := by
  rw [← flatten_pieces, words, List.flatMap_map]
  induction pieces isBlank s.toList with
  | nil => rfl
  | cons piece others ih =>
      cases piece with
      | nil => exact ih
      | cons c piece =>
          rw [List.filter_cons_of_pos rfl, List.flatMap_cons, ih, String.toList_ofList,
            List.flatten_cons]

/-! ## Words in lowercase -/

/-- Stretches of code points without blanks. -/
def blankless : List (Int × Int) :=
  [(0x21, 0x84), (0xa1, 0x167f), (0x1681, 0x1fff), (0x2060, 0x2fff), (0x3001, 0x10ffff)]

theorem lowerRuns_blankless : ∀ run ∈ lowerRuns, ∃ stretch ∈ blankless,
    stretch.1 ≤ (run.first : Int) + run.shift ∧ (run.last : Int) + run.shift ≤ stretch.2 := by
  decide +kernel

theorem not_isBlank_of_blankless {stretch : Int × Int} (h : stretch ∈ blankless)
    (hlow : stretch.1 ≤ c.toNat) (hhigh : (c.toNat : Int) ≤ stretch.2) : isBlank c = false := by
  simp only [isBlank, Bool.or_eq_false_iff, Bool.and_eq_false_iff, decide_eq_false_iff_not,
    beq_eq_false_iff_ne]
  simp only [blankless, List.mem_cons, List.not_mem_nil, or_false] at h
  rcases h with rfl | rfl | rfl | rfl | rfl <;> omega

theorem not_isBlank_lowerChar (h : isBlank c = false) : isBlank (lowerChar c) = false := by
  unfold lowerChar
  split
  next hsmall =>
    by_cases hcapital : 65 ≤ c.toNat ∧ c.toNat ≤ 90
    · have hcode := toNat_toLower c
      rw [if_pos hcapital] at hcode
      have hascii : ((0x21, 0x84) : Int × Int) ∈ blankless := List.mem_cons_self
      exact not_isBlank_of_blankless hascii (by omega) (by omega)
    · have hcode := toNat_toLower c
      rw [if_neg hcapital] at hcode
      rwa [Char.toNat_inj.mp hcode]
  next =>
    split
    next run hfound =>
      have hcovers : run.covers c.toNat = true := by simpa using List.find?_some hfound
      obtain ⟨stretch, hstretch, hlow, hhigh⟩ :=
        lowerRuns_blankless run (List.mem_of_find?_eq_some hfound)
      simp only [CaseRun.covers, Bool.and_eq_true, decide_eq_true_eq] at hcovers
      have hcode := toNat_ofNat_of_find? hfound
      have hpos : 0 < stretch.1 := by
        simp only [blankless, List.mem_cons, List.not_mem_nil, or_false] at hstretch
        rcases hstretch with rfl | rfl | rfl | rfl | rfl <;> decide
      exact not_isBlank_of_blankless hstretch (by omega) (by omega)
    next => exact h

theorem not_isBlank_of_mem_lowerFrom {before : List Char} (h : ∀ c ∈ cs, isBlank c = false) :
    ∀ d ∈ lowerFrom before cs, isBlank d = false := by
  induction cs generalizing before with
  | nil => exact List.forall_mem_nil _
  | cons c rest ih =>
      obtain ⟨hc, hrest⟩ := List.forall_mem_cons.mp h
      intro d hd
      rw [lowerFrom, List.mem_append] at hd
      rcases hd with hd | hd
      · split at hd
        next =>
          rw [List.mem_singleton] at hd
          rw [hd]
          split
          · decide
          · decide
        next =>
          unfold lowerForm at hd
          split at hd
          next =>
            simp only [List.mem_cons, List.not_mem_nil, or_false] at hd
            rcases hd with rfl | rfl
            · decide
            · decide
          next =>
            rw [List.mem_singleton.mp hd]
            exact not_isBlank_lowerChar hc
      · exact ih hrest d hd

theorem IsWord.lower (h : IsWord s) : IsWord (lower s) := by
  rw [Text.lower]
  refine ⟨?_, ?_⟩
  · rw [String.toList_ofList]
    exact lowerFrom_ne_nil h.ne_nil
  · rw [String.toList_ofList]
    exact not_isBlank_of_mem_lowerFrom h.not_blank

theorem length_le_length_lowerFrom (before cs : List Char) :
    cs.length ≤ (lowerFrom before cs).length := by
  induction cs generalizing before with
  | nil => exact Nat.le_refl 0
  | cons c rest ih =>
      have hrest := ih (c :: before)
      rw [lowerFrom, List.length_append, List.length_cons]
      have hfirst : 1 ≤ (if c == Char.ofNat 0x3a3 then
          [if facesLetter before && !facesLetter rest then Char.ofNat 0x3c2 else Char.ofNat 0x3c3]
          else lowerForm c).length := by
        split
        next => exact Nat.le_refl 1
        next =>
          unfold lowerForm
          split
          next => exact Nat.le_succ 1
          next => exact Nat.le_refl 1
      omega

end ChatCommands.Text
