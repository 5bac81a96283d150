import ChatCommands.Text.Case

/-!
# Lowercase texts stay as they are

No lowercase form has a lowercase form of its own.  This is a fact about the
table of runs: the code points that a run leads to lie apart from every run.
Hence `lower` is idempotent, and on its results the two ways of comparing names
without regard to case are plain equality.
-/

namespace ChatCommands.Text

/-! ## The table of runs -/

/-- The code points that have a lowercase form, and those that are no
characters. -/
def movedRuns : List CaseRun :=
  ⟨0x130, 0x130, 1, 0⟩ :: ⟨0xd800, 0xdfff, 1, 0⟩ :: ⟨0x110000, 0xffffffff, 1, 0⟩ :: lowerRuns

/-- Whether the code points from `low` to `high` at the given stride lie apart
from a run: before it, behind it, or between its points. -/
def CaseRun.apartFrom (run : CaseRun) (low high stride : Nat) : Bool :=
  Nat.blt high run.first || Nat.blt run.last low ||
    (Nat.beq ((low + run.first) % 2) 1 && Nat.beq run.stride 2 &&
      (Nat.beq stride 2 || Nat.beq low high))

/-- Whether the code points to which a run leads lie apart from every run. -/
def CaseRun.isFinal (run : CaseRun) : Bool :=
  match (run.first : Int) + run.shift, (run.last : Int) + run.shift with
  | .ofNat low, .ofNat high =>
      movedRuns.all fun other => other.apartFrom low high run.stride
  | _, _ => false

theorem lowerRuns_isFinal : lowerRuns.all CaseRun.isFinal = true := by
  decide +kernel

/-- A code point that no run covers. -/
def Unmoved (code : Nat) : Prop :=
  ∀ run ∈ movedRuns, run.covers code = false

instance (code : Nat) : Decidable (Unmoved code) :=
  inferInstanceAs (Decidable (∀ run ∈ movedRuns, run.covers code = false))

theorem CaseRun.not_covers_of_apartFrom
    {run : CaseRun} {low high stride code : Nat}
    (hapart : run.apartFrom low high stride = true)
    (hlow : low ≤ code) (hhigh : code ≤ high)
    (hstride : (code - low) % stride = 0) :
    run.covers code = false := by
  rw [Bool.eq_false_iff]
  intro hcovers
  simp only [CaseRun.covers, Bool.and_eq_true, decide_eq_true_eq, beq_iff_eq] at hcovers
  obtain ⟨⟨hfirst, hlast⟩, hmember⟩ := hcovers
  simp only [CaseRun.apartFrom, Bool.or_eq_true, Nat.blt_eq, Bool.and_eq_true,
    Nat.beq_eq] at hapart
  rcases hapart with (hbefore | hbehind) | ⟨⟨hodd, htwo⟩, hsteps⟩
  · omega
  · omega
  · rw [htwo] at hmember
    rcases hsteps with hsteps | hsingle
    · rw [hsteps] at hstride
      omega
    · omega

/-- The code point to which a run leads is covered by no run. -/
theorem CaseRun.unmoved_of_covers
    {run : CaseRun} (hrun : run ∈ lowerRuns) {code : Nat}
    (hcovers : run.covers code = true) :
    Unmoved ((code : Int) + run.shift).toNat := by
  intro other hother
  have hfinal : run.isFinal = true := List.all_eq_true.mp lowerRuns_isFinal run hrun
  simp only [CaseRun.covers, Bool.and_eq_true, decide_eq_true_eq, beq_iff_eq] at hcovers
  obtain ⟨⟨hfirst, hlast⟩, hmember⟩ := hcovers
  simp only [CaseRun.isFinal] at hfinal
  split at hfinal
  next low high hlow hhigh =>
    have hapart := List.all_eq_true.mp hfinal other hother
    have hlow' : (run.first : Int) + run.shift = (low : Int) := hlow
    have hhigh' : (run.last : Int) + run.shift = (high : Int) := hhigh
    apply CaseRun.not_covers_of_apartFrom hapart
    · omega
    · omega
    · have hsame : ((code : Int) + run.shift).toNat - low = code - run.first := by omega
      rw [hsame]
      exact hmember
  next => exact absurd hfinal (by simp)

/-! ## Characters -/

theorem lowerRuns_eq : lowerRuns = ⟨0x41, 0x5a, 1, 32⟩ :: lowerRuns.tail := rfl

theorem lowerRuns_tail_first : ∀ run ∈ lowerRuns.tail, 128 ≤ run.first := by
  decide +kernel

theorem unmoved_of_lt {code : Nat} (hcode : code < 128) (hsmall : code < 65 ∨ 90 < code) :
    Unmoved code := by
  intro run hrun
  rw [Bool.eq_false_iff]
  intro hcovers
  simp only [CaseRun.covers, Bool.and_eq_true, decide_eq_true_eq] at hcovers
  obtain ⟨⟨hfirst, hlast⟩, -⟩ := hcovers
  rw [movedRuns, lowerRuns_eq] at hrun
  simp only [List.mem_cons] at hrun
  rcases hrun with rfl | rfl | rfl | rfl | htail
  · simp at hfirst
    omega
  · simp at hfirst
    omega
  · simp at hfirst
    omega
  · simp at hfirst hlast
    omega
  · have := lowerRuns_tail_first run htail
    omega

theorem Unmoved.not_capital {code : Nat} (h : Unmoved code) : code < 65 ∨ 90 < code := by
  have hrun : CaseRun.covers ⟨0x41, 0x5a, 1, 32⟩ code = false := by
    apply h
    rw [movedRuns, lowerRuns_eq]
    simp
  rw [Bool.eq_false_iff] at hrun
  by_cases hsmall : code < 65
  · exact .inl hsmall
  · refine .inr (Nat.lt_of_not_le fun hlarge => hrun ?_)
    simp only [CaseRun.covers, Bool.and_eq_true, decide_eq_true_eq, beq_iff_eq]
    omega

theorem Unmoved.ne_of_any {code other : Nat} (h : Unmoved code)
    (hother : movedRuns.any (·.covers other) = true) : code ≠ other := by
  rintro rfl
  obtain ⟨run, hrun, hcovers⟩ := List.any_eq_true.mp hother
  rw [h run hrun] at hcovers
  contradiction

theorem toNat_toLower (c : Char) :
    c.toLower.toNat = if 65 ≤ c.toNat ∧ c.toNat ≤ 90 then c.toNat + 32 else c.toNat := by
  have hcond : (c.val ≥ 'A'.val ∧ c.val ≤ 'Z'.val) ↔ 65 ≤ c.toNat ∧ c.toNat ≤ 90 := Iff.rfl
  unfold Char.toLower
  by_cases h : c.val ≥ 'A'.val ∧ c.val ≤ 'Z'.val
  · rw [dif_pos h, if_pos (hcond.mp h)]
    have hle : c.toNat ≤ 90 := (hcond.mp h).2
    show (c.val + ('a'.val - 'A'.val)).toNat = c.toNat + 32
    rw [UInt32.toNat_add]
    show (c.toNat + 32) % 4294967296 = c.toNat + 32
    omega
  · rw [dif_neg h, if_neg fun h' => h (hcond.mpr h')]

theorem toNat_ofNat_of_isValidChar {code : Nat} (h : code.isValidChar) :
    (Char.ofNat code).toNat = code := by
  rw [Char.ofNat, dif_pos h]
  show (UInt32.ofNatLT code _).toNat = code
  exact UInt32.toNat_ofNatLT ..

theorem isValidChar_of_unmoved {code : Nat} (h : Unmoved code) (hsmall : code ≤ 0xffffffff) :
    code.isValidChar := by
  have hsurrogate : CaseRun.covers ⟨0xd800, 0xdfff, 1, 0⟩ code = false :=
    h _ (by simp [movedRuns])
  have hbeyond : CaseRun.covers ⟨0x110000, 0xffffffff, 1, 0⟩ code = false :=
    h _ (by simp [movedRuns])
  simp only [CaseRun.covers, Nat.mod_one, beq_self_eq_true, Bool.and_true,
    Bool.and_eq_false_iff, decide_eq_false_iff_not] at hsurrogate hbeyond
  simp only [Nat.isValidChar]
  omega

theorem lowerRuns_bounded :
    ∀ run ∈ lowerRuns, run.last ≤ 0x1ffff ∧ run.shift ≤ 0xffff := by
  decide +kernel

/-- A run leads from a character to a character. -/
theorem toNat_ofNat_of_find? {c : Char} {run : CaseRun}
    (hfound : lowerRuns.find? (·.covers c.toNat) = some run) :
    (Char.ofNat ((c.toNat : Int) + run.shift).toNat).toNat =
      ((c.toNat : Int) + run.shift).toNat := by
  have hrun := List.mem_of_find?_eq_some hfound
  have hcovers : run.covers c.toNat = true := by simpa using List.find?_some hfound
  have hmoved := CaseRun.unmoved_of_covers hrun hcovers
  have hbound := lowerRuns_bounded run hrun
  simp only [CaseRun.covers, Bool.and_eq_true, decide_eq_true_eq] at hcovers
  exact toNat_ofNat_of_isValidChar (isValidChar_of_unmoved hmoved (by omega))

/-- The lowercase form of a character has no further lowercase form. -/
theorem unmoved_lowerChar {c : Char} (hc : c ≠ Char.ofNat 0x130) :
    Unmoved (lowerChar c).toNat := by
  unfold lowerChar
  split
  next hsmall =>
    apply unmoved_of_lt
    · rw [toNat_toLower]
      split <;> omega
    · rw [toNat_toLower]
      split <;> omega
  next hlarge =>
    split
    next run hfound =>
      have hcovers : run.covers c.toNat = true := by simpa using List.find?_some hfound
      rw [toNat_ofNat_of_find? hfound]
      exact CaseRun.unmoved_of_covers (List.mem_of_find?_eq_some hfound) hcovers
    next hnone =>
      intro run hrun
      rw [List.find?_eq_none] at hnone
      have hvalid : c.toNat.isValidChar := c.valid
      simp only [movedRuns, List.mem_cons] at hrun
      rw [Bool.eq_false_iff]
      rcases hrun with rfl | rfl | rfl | hrun
      · intro hcovers
        simp only [CaseRun.covers, Bool.and_eq_true, decide_eq_true_eq] at hcovers
        apply hc
        rw [← Char.ofNat_toNat c]
        congr 1
        omega
      · intro hcovers
        simp only [CaseRun.covers, Bool.and_eq_true, decide_eq_true_eq] at hcovers
        simp only [Nat.isValidChar] at hvalid
        omega
      · intro hcovers
        simp only [CaseRun.covers, Bool.and_eq_true, decide_eq_true_eq] at hcovers
        simp only [Nat.isValidChar] at hvalid
        omega
      · exact hnone run hrun

theorem unmoved_of_mem_lowerForm {c d : Char} (h : d ∈ lowerForm c) : Unmoved d.toNat := by
  unfold lowerForm at h
  split at h
  next =>
    simp only [List.mem_cons, List.not_mem_nil, or_false] at h
    rcases h with rfl | rfl
    · exact unmoved_of_lt (by decide) (by decide)
    · decide +kernel
  next hc =>
    rw [List.mem_singleton] at h
    rw [h]
    exact unmoved_lowerChar fun heq => hc (by simp [heq])

theorem toLower_of_unmoved {c : Char} (h : Unmoved c.toNat) : c.toLower = c := by
  have hcapital := h.not_capital
  rw [← Char.ofNat_toNat c.toLower, toNat_toLower, if_neg (by omega), Char.ofNat_toNat]

theorem lowerForm_of_unmoved {c : Char} (h : Unmoved c.toNat) : lowerForm c = [c] := by
  have hdotted : c ≠ Char.ofNat 0x130 := by
    rintro rfl
    exact h.ne_of_any (by decide) rfl
  have hlower : lowerChar c = c := by
    unfold lowerChar
    split
    next => exact toLower_of_unmoved h
    next =>
      have hnone : lowerRuns.find? (·.covers c.toNat) = none := by
        rw [List.find?_eq_none]
        intro run hrun
        simp [h run (by simp [movedRuns, hrun])]
      rw [hnone]
  simp [lowerForm, hdotted, hlower]

/-! ## Texts -/

/-- A text of which no character has a lowercase form besides itself. -/
def IsLower (s : String) : Prop :=
  ∀ c ∈ s.toList, Unmoved c.toNat

theorem unmoved_of_mem_lowerFrom {before cs : List Char} {d : Char}
    (h : d ∈ lowerFrom before cs) : Unmoved d.toNat := by
  induction cs generalizing before with
  | nil => simp [lowerFrom] at h
  | cons c rest ih =>
      rw [lowerFrom, List.mem_append] at h
      rcases h with h | h
      · split at h
        · rw [List.mem_singleton] at h
          rw [h]
          split
          · decide +kernel
          · decide +kernel
        · exact unmoved_of_mem_lowerForm h
      · exact ih h

theorem lowerFrom_of_unmoved {before cs : List Char} (h : ∀ c ∈ cs, Unmoved c.toNat) :
    lowerFrom before cs = cs := by
  induction cs generalizing before with
  | nil => rfl
  | cons c rest ih =>
      have hc : Unmoved c.toNat := h c List.mem_cons_self
      have hsigma : c ≠ Char.ofNat 0x3a3 := by
        rintro rfl
        exact hc.ne_of_any (by decide +kernel) rfl
      rw [lowerFrom, ih fun d hd => h d (List.mem_cons_of_mem c hd)]
      simp [hsigma, lowerForm_of_unmoved hc]

theorem isLower_lower (s : String) : IsLower (lower s) := by
  intro c hc
  rw [lower, String.toList_ofList] at hc
  exact unmoved_of_mem_lowerFrom hc

theorem lower_of_isLower {s : String} (h : IsLower s) : lower s = s := by
  rw [lower, lowerFrom_of_unmoved h, String.ofList_toList]

@[simp] theorem lower_lower (s : String) : lower (lower s) = lower s :=
  lower_of_isLower (isLower_lower s)

theorem lowerForm_of_ascii {c : Char} (h : c.toNat < 128) : lowerForm c = [c.toLower] := by
  have hdotted : c ≠ Char.ofNat 0x130 := by
    rintro rfl
    exact absurd h (by decide)
  simp [lowerForm, hdotted, lowerChar, h]

theorem lowerFrom_of_ascii {before cs : List Char} (h : ∀ c ∈ cs, c.toNat < 128) :
    lowerFrom before cs = cs.map Char.toLower := by
  induction cs generalizing before with
  | nil => rfl
  | cons c rest ih =>
      have hc : c.toNat < 128 := h c List.mem_cons_self
      have hsigma : c ≠ Char.ofNat 0x3a3 := by
        rintro rfl
        exact absurd hc (by decide)
      rw [lowerFrom, ih fun d hd => h d (List.mem_cons_of_mem c hd)]
      simp [hsigma, lowerForm_of_ascii hc]

/-- The two lowercase forms of a text of ASCII are one. -/
theorem lower_of_ascii {s : String} (h : ∀ c ∈ s.toList, c.toNat < 128) :
    lower s = asciiLower s := by
  rw [lower, lowerFrom_of_ascii h, asciiLower]

theorem map_toLower_of_isLower {s : String} (h : IsLower s) :
    s.toList.map Char.toLower = s.toList := by
  calc
    s.toList.map Char.toLower = s.toList.map id :=
      List.map_congr_left fun c hc => toLower_of_unmoved (h c hc)
    _ = s.toList := List.map_id _

theorem asciiEq_refl (a : String) : asciiEq a a = true := by
  simp [asciiEq]

theorem asciiEq_symm {a b : String} (h : asciiEq a b = true) : asciiEq b a = true := by
  simp only [asciiEq, beq_iff_eq] at h ⊢
  exact h.symm

theorem asciiEq_trans {a b c : String} (hab : asciiEq a b = true) (hbc : asciiEq b c = true) :
    asciiEq a c = true := by
  simp only [asciiEq, beq_iff_eq] at hab hbc ⊢
  exact hab.trans hbc

/-- On texts in lowercase, case makes no difference any more. -/
theorem asciiEq_iff_of_isLower {a b : String} (ha : IsLower a) (hb : IsLower b) :
    asciiEq a b = true ↔ a = b := by
  rw [asciiEq, map_toLower_of_isLower ha, map_toLower_of_isLower hb, beq_iff_eq,
    String.toList_inj]

end ChatCommands.Text
