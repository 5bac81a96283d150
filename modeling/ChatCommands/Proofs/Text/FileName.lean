import ChatCommands.Proofs.Text.Lowercase
import ChatCommands.Proofs.Text.Words
import ChatCommands.Text.FileName

/-!
# Names that files can have

A name without slashes that is not too long leads to a file of that very name.  Lowercase
brings in no slash, and no character of it takes more than four bytes.
-/

namespace ChatCommands.Text

/-! ## Pieces -/

theorem pieces_ne_nil (cut : Char → Bool) (cs : List Char) : pieces cut cs ≠ [] := by
  cases cs with
  | nil => simp [pieces]
  | cons c rest =>
      simp only [pieces]
      split
      · simp
      · split <;> simp

/-- A text is cut at each character that is one to cut at. -/
theorem pieces_append_cons {cut : Char → Bool} {c : Char} (hc : cut c = true)
    (front rest : List Char) :
    pieces cut (front ++ c :: rest) = pieces cut front ++ pieces cut rest := by
  induction front with
  | nil => simp [pieces, hc]
  | cons d front ih =>
      rw [List.cons_append, pieces, pieces, ih]
      split
      · rfl
      · obtain ⟨first, others, hfront⟩ := List.exists_cons_of_ne_nil (pieces_ne_nil cut front)
        rw [hfront]
        rfl

theorem eq_nil_of_pieces {cut : Char → Bool} {cs : List Char} (h : pieces cut cs = [[]]) :
    cs = [] := by
  cases cs with
  | nil => rfl
  | cons c rest =>
      simp only [pieces] at h
      split at h
      · simp [pieces_ne_nil] at h
      · split at h <;> simp at h

/-! ## Extensions -/

/-- What stands behind the last point of a name is its extension, if anything stands before
the point. -/
theorem extension?_append {stem ext : String} (hstem : stem.toList ≠ [])
    (hext : '.' ∉ ext.toList) : extension? (stem ++ "." ++ ext) = some ext := by
  have hpieces : pieces (· == '.') (stem ++ "." ++ ext).toList =
      pieces (· == '.') stem.toList ++ [ext.toList] := by
    have hcut : ∀ c ∈ ext.toList, (c == '.') = false := by
      intro c hc
      rw [beq_eq_false_iff_ne]
      rintro rfl
      exact hext hc
    rw [String.toList_append, String.toList_append, List.append_assoc, ← pieces_of_not_cut hcut]
    exact pieces_append_cons rfl _ _
  have hlast : (pieces (· == '.') stem.toList ++ [ext.toList]).getLast? = some ext.toList := by simp
  rw [extension?, hpieces]
  split
  next part hone =>
    have hlength := congrArg List.length hone
    have hpos := List.length_pos_iff.mpr (pieces_ne_nil (· == '.') stem.toList)
    rw [List.length_append, List.length_singleton, List.length_singleton] at hlength
    omega
  next part hhidden =>
    obtain ⟨hfront, -⟩ : pieces (· == '.') stem.toList = [[]] ∧ [ext.toList] = [part] :=
      List.append_inj' hhidden rfl
    exact absurd (eq_nil_of_pieces hfront) hstem
  next => rw [hlast, Option.map_some, String.ofList_toList]

/-! ## Paths -/

/-- The name of a file is a path to it. -/
theorem ownFile?_of_isFileName {name : String} (h : isFileName name = true)
    (hlong : 2 < name.toList.length) : ownFile? name = some name := by
  have hname := h
  simp only [isFileName, Bool.and_eq_true, List.all_eq_true] at hname
  have hslash : ∀ c ∈ name.toList, (c == '/') = false := by
    intro c hc
    simpa using (hname.1 c hc).1
  have hparts : (splitOn '/' name).reverse = [name] := by
    rw [splitOn, pieces_of_not_cut hslash, List.map_singleton, String.ofList_toList,
      List.reverse_singleton]
  have hstart : (name.toList.head? != some '/') = true := by
    rw [bne_iff_ne]
    intro hhead
    have := hslash '/' (List.mem_of_head? hhead)
    simp at this
  have hother : ∀ other : String, other.toList.length ≤ 2 → name ≠ other := by
    rintro other hother rfl
    omega
  have hnamed : ["", ".", ".."].contains name = false := by
    rw [List.contains_eq_mem, decide_eq_false_iff_not]
    simp only [List.mem_cons, List.not_mem_nil, or_false, not_or]
    exact ⟨hother _ (by decide), hother _ (by decide), hother _ (by decide)⟩
  rw [ownFile?, hparts]
  simp only [List.all_nil, hstart, h, hnamed, Bool.not_false, Bool.and_true,
    if_true]

/-! ## Lowercase names -/

theorem lowerRuns_letters : ∀ run ∈ lowerRuns, 97 ≤ (run.first : Int) + run.shift := by
  decide +kernel

/-- Nothing is moved to a place before the letters. -/
theorem lowerChar_eq_self {c : Char} (h : (lowerChar c).toNat < 97) : lowerChar c = c := by
  unfold lowerChar at h ⊢
  split
  next hsmall =>
    rw [if_pos hsmall, toNat_toLower] at h
    split at h
    · omega
    next hcapital =>
      rw [← Char.ofNat_toNat c.toLower, toNat_toLower, if_neg hcapital, Char.ofNat_toNat]
  next hlarge =>
    rw [if_neg hlarge] at h
    split
    next run hfound =>
      simp only [hfound, toNat_ofNat_of_find? hfound] at h
      have hletters := lowerRuns_letters run (List.mem_of_find?_eq_some hfound)
      have hcovers : run.covers c.toNat = true := by simpa using List.find?_some hfound
      simp only [CaseRun.covers, Bool.and_eq_true, decide_eq_true_eq] at hcovers
      omega
    next => rfl

theorem eq_of_mem_lowerForm {c d : Char} (h : d ∈ lowerForm c) (hd : d.toNat < 97) : d = c := by
  rw [lowerForm] at h
  split at h
  next =>
    simp only [List.mem_cons, List.not_mem_nil, or_false] at h
    rcases h with rfl | rfl <;> exact absurd hd (by decide)
  next =>
    obtain rfl := List.mem_singleton.mp h
    exact lowerChar_eq_self hd

theorem mem_of_mem_lowerFrom {before cs : List Char} {d : Char} (h : d ∈ lowerFrom before cs)
    (hd : d.toNat < 97) : d ∈ cs := by
  induction cs generalizing before with
  | nil => exact h
  | cons c rest ih =>
      rw [lowerFrom, List.mem_append] at h
      rcases h with h | h
      · split at h
        · obtain rfl := List.mem_singleton.mp h
          split at hd <;> exact absurd hd (by decide)
        · rw [eq_of_mem_lowerForm h hd]
          exact List.mem_cons_self
      · exact List.mem_cons_of_mem c (ih h)

theorem lowerFrom_ne_nil {before cs : List Char} (h : cs ≠ []) : lowerFrom before cs ≠ [] := by
  cases cs with
  | nil => exact absurd rfl h
  | cons c rest =>
      have hform : lowerForm c ≠ [] := by
        rw [lowerForm]
        split <;> simp
      rw [lowerFrom]
      split <;> simp [hform]

theorem byteLength_append (cs ds : List Char) :
    byteLength (cs ++ ds) = byteLength cs + byteLength ds := by
  induction cs with
  | nil => simp [byteLength]
  | cons c cs ih => rw [List.cons_append, byteLength, byteLength, ih, Nat.add_assoc]

theorem byteLength_lowerForm_le (c : Char) : byteLength (lowerForm c) ≤ 4 := by
  rw [lowerForm]
  split
  · decide
  · simpa [byteLength] using (lowerChar c).utf8Size_le_four

/-- Lowercase takes four bytes at most for each character. -/
theorem byteLength_lowerFrom_le (before cs : List Char) :
    byteLength (lowerFrom before cs) ≤ 4 * cs.length := by
  induction cs generalizing before with
  | nil => exact Nat.le_refl 0
  | cons c rest ih =>
      have hrest := ih (c :: before)
      have hfirst : byteLength (if c == Char.ofNat 0x3a3 then
          [if facesLetter before && !facesLetter rest then Char.ofNat 0x3c2 else Char.ofNat 0x3c3]
          else lowerForm c) ≤ 4 := by
        split
        · simpa [byteLength] using Char.utf8Size_le_four _
        · exact byteLength_lowerForm_le c
      rw [lowerFrom, byteLength_append, List.length_cons]
      omega

end ChatCommands.Text
