import Mathlib.Data.List.TakeDrop
import Mathlib.Data.List.TakeWhile
import ChatCommands.Number.Decimal
import ChatCommands.Number.SizedInt
import ChatCommands.Proofs.Number.Numeral

/-!
# Whole numbers as fractions

The numeral of an integer that fits into a word is read as that integer by the readers
of decimals and of doubles too.  A double keeps the sign of a zero that is written with
one.
-/

namespace ChatCommands

namespace Numeral

theorem readInt?_minus (rest : List Char) :
    readInt? ('-' :: rest) = (read? rest).map fun (n : Nat) => -(n : Int) := by
  rw [readInt?]
  cases read? rest <;> rfl

theorem readInt?_plus (rest : List Char) :
    readInt? ('+' :: rest) = (read? rest).map fun (n : Nat) => (n : Int) := by
  rw [readInt?]
  cases read? rest <;> rfl

theorem readInt?_unsigned {cs : List Char} (hminus : ∀ rest, cs ≠ '-' :: rest)
    (hplus : ∀ rest, cs ≠ '+' :: rest) :
    readInt? cs = (read? cs).map fun (n : Nat) => (n : Int) := by
  unfold readInt?
  split
  next rest => exact absurd rfl (hminus rest)
  next rest => exact absurd rfl (hplus rest)
  next => cases read? cs <;> rfl

theorem read?_eq_some {ds : List Char} {m : Nat} (h : read? ds = some m) :
    ds ≠ [] ∧ (∀ c ∈ ds, c.isDigit = true) ∧ m = value ds := by
  unfold read? at h
  split at h
  next => cases h
  next hdigits =>
    simp only [Bool.or_eq_true, List.isEmpty_iff, Bool.not_eq_true', not_or,
      Bool.not_eq_false, List.all_eq_true] at hdigits
    exact ⟨hdigits.1, hdigits.2, (Option.some.inj h).symm⟩

/-- What a numeral looks like: digits with an optional sign. -/
theorem readInt?_eq_some {cs : List Char} {n : Int} (h : readInt? cs = some n) :
    ∃ ds : List Char, ds ≠ [] ∧ (∀ c ∈ ds, c.isDigit = true) ∧
      ((cs = '-' :: ds ∧ n = -(value ds : Int)) ∨
        ((cs = '+' :: ds ∨ cs = ds) ∧ n = (value ds : Int))) := by
  by_cases hminus : ∃ rest, cs = '-' :: rest
  · obtain ⟨rest, rfl⟩ := hminus
    rw [readInt?_minus, Option.map_eq_some_iff] at h
    obtain ⟨m, hm, rfl⟩ := h
    obtain ⟨hne, hall, rfl⟩ := read?_eq_some hm
    exact ⟨rest, hne, hall, .inl ⟨rfl, rfl⟩⟩
  · by_cases hplus : ∃ rest, cs = '+' :: rest
    · obtain ⟨rest, rfl⟩ := hplus
      rw [readInt?_plus, Option.map_eq_some_iff] at h
      obtain ⟨m, hm, rfl⟩ := h
      obtain ⟨hne, hall, rfl⟩ := read?_eq_some hm
      exact ⟨rest, hne, hall, .inr ⟨.inl rfl, rfl⟩⟩
    · rw [readInt?_unsigned (not_exists.mp hminus) (not_exists.mp hplus),
        Option.map_eq_some_iff] at h
      obtain ⟨m, hm, rfl⟩ := h
      obtain ⟨hne, hall, rfl⟩ := read?_eq_some hm
      exact ⟨cs, hne, hall, .inr ⟨.inr rfl, rfl⟩⟩

/-- The first character of digits is no sign. -/
theorem ne_cons_of_isDigit {c : Char} {ds : List Char} (hall : ∀ d ∈ ds, d.isDigit = true)
    (hc : c.isDigit = false) (rest : List Char) : ds ≠ c :: rest := by
  rintro rfl
  rw [hall c List.mem_cons_self] at hc
  cases hc

theorem readInt?_intText (n : Int) : readInt? (intText n).toList = some n := by
  cases n with
  | ofNat m =>
      have hall : ∀ c ∈ digits m, c.isDigit = true := fun c => isDigit_of_mem_digits
      rw [intText, text, String.toList_ofList,
        readInt?_unsigned (ne_cons_of_isDigit hall (by decide))
          (ne_cons_of_isDigit hall (by decide)), read?_digits]
      rfl
  | negSucc m =>
      have hminus : "-".toList = ['-'] := rfl
      rw [intText, text, String.toList_append, hminus, List.singleton_append, readInt?_minus,
        String.toList_ofList, read?_digits]
      rfl

end Numeral

namespace SizedInt

variable {w : Width} {n : SizedInt w}

theorem readInt?_of_read? {cs : List Char} (h : read? w cs = some n) :
    Numeral.readInt? cs = some n.val := by
  obtain ⟨m, hm, hn⟩ := Option.bind_eq_some_iff.mp h
  unfold of? at hn
  split at hn
  next => rw [hm, ← Option.some.inj hn]
  next => cases hn

theorem of?_val (n : SizedInt w) : of? w n.val = some n := by
  rw [of?, dif_pos ⟨n.low_le, n.le_high⟩]

theorem read?_intText (n : SizedInt w) : read? w (Numeral.intText n.val).toList = some n := by
  rw [read?, Numeral.readInt?_intText]
  exact n.of?_val

theorem natAbs_le (n : SizedInt .w64) : n.val.natAbs ≤ 0x8000000000000000 := by
  have hlow := n.low_le
  have hhigh := n.le_high
  simp only [Width.low, Width.high, Numeral.maxInt64] at hlow hhigh
  omega

end SizedInt

/-! ## Decimals -/

namespace Decimal

theorem le_foldl_digits (ds : List Char) (start : Nat) :
    start ≤ ds.foldl (fun n c => 10 * n + (c.toNat - '0'.toNat)) start := by
  induction ds generalizing start with
  | nil => exact Nat.le_refl _
  | cons c rest ih =>
      have hrest := ih (10 * start + (c.toNat - '0'.toNat))
      rw [List.foldl_cons]
      omega

/-- Digits before the point add up to their number, as long as it has room. -/
theorem scan_digits {negative seen : Bool} {ds : List Char}
    (hall : ∀ c ∈ ds, c.isDigit = true) (hseen : seen = true ∨ ds ≠ []) {start : Nat}
    (hroom : ds.foldl (fun n c => 10 * n + (c.toNat - '0'.toNat)) start < coefficientCount) :
    scan negative false seen start 0 ds =
      ofReading negative (ds.foldl (fun n c => 10 * n + (c.toNat - '0'.toNat)) start) 0 := by
  induction ds generalizing seen start with
  | nil =>
      rw [scan, hseen.resolve_right (by simp)]
      rfl
  | cons c rest ih =>
      have hdigit : c.isDigit = true := hall c List.mem_cons_self
      have hvalue : Numeral.value [c] = c.toNat - '0'.toNat := by simp [Numeral.value]
      rw [List.foldl_cons] at hroom ⊢
      have hnext := Nat.lt_of_le_of_lt (le_foldl_digits rest _) hroom
      rw [scan]
      simp only [Bool.false_and, hdigit, if_true, hvalue, hnext, Bool.not_false, Bool.true_and,
        decide_true, Bool.false_eq_true, if_false]
      exact ih (fun d hd => hall d (List.mem_cons_of_mem c hd)) (.inl rfl) hroom

/-- The numeral of an integer is the decimal of the integer. -/
theorem read?_of_sizedInt {s : String} {n : SizedInt .w64}
    (h : SizedInt.read? .w64 s.toList = some n) : read? s = ofInt? n.val := by
  obtain ⟨ds, hne, hall, hcases⟩ := Numeral.readInt?_eq_some (SizedInt.readInt?_of_read? h)
  have hbound := n.natAbs_le
  have hroom : Numeral.value ds < coefficientCount := by
    simp only [coefficientCount]
    omega
  have hscan : ∀ negative, scan negative false false 0 0 ds =
      ofReading negative (Numeral.value ds) 0 := fun negative =>
    scan_digits hall (.inr hne) hroom
  have hunsigned : ofReading false (Numeral.value ds) 0 = ofInt? (Numeral.value ds : Int) := by
    have hnot : decide ((Numeral.value ds : Int) < 0) = false := decide_eq_false (by omega)
    rw [ofReading, ofInt?, hnot, Bool.false_and, Int.natAbs_natCast]
  have hplain : readPlain? s.toList = ofInt? n.val := by
    rcases hcases with ⟨hs, hn⟩ | ⟨hs | hs, hn⟩
    · have hsign : (true && Numeral.value ds != 0) = decide (-(Numeral.value ds : Int) < 0) := by
        rw [Bool.true_and, Bool.eq_iff_iff, bne_iff_ne, decide_eq_true_iff]
        omega
      rw [hs, readPlain?, hscan, hn, ofReading, ofInt?, hsign, Int.natAbs_neg, Int.natAbs_natCast]
    · rw [hs, readPlain?, hscan, hn, hunsigned]
    · rw [hs, hn, ← hunsigned, ← hscan]
      unfold readPlain?
      split
      next => exact absurd rfl hne
      next rest => exact absurd rfl (Numeral.ne_cons_of_isDigit hall (by decide) rest)
      next rest => exact absurd rfl (Numeral.ne_cons_of_isDigit hall (by decide) rest)
      next => rfl
  obtain ⟨d, hd⟩ : ∃ d, ofInt? n.val = some d := by
    have hfits : n.val.natAbs < coefficientCount := by
      simp only [coefficientCount]
      omega
    exact ⟨_, by rw [ofInt?, ofParts?, dif_pos ⟨hfits, by decide⟩]⟩
  rw [read?, hplain, hd]
  rfl

end Decimal

/-! ## Doubles -/

namespace Double

theorem readScientific?_digits {ds : List Char} (hne : ds ≠ [])
    (hall : ∀ c ∈ ds, c.isDigit = true) :
    readScientific? ds = some ⟨Numeral.value ds, 0⟩ := by
  have htake : ds.takeWhile Char.isDigit = ds := List.takeWhile_eq_self_iff.mpr hall
  have hdrop : ds.dropWhile Char.isDigit = [] := List.dropWhile_eq_nil_iff.mpr hall
  have hspan : ds.span Char.isDigit = (ds, []) := by
    rw [List.span_eq_takeWhile_dropWhile, htake, hdrop]
  rw [readScientific?, hspan]
  simp [hne]

/-- A whole number of no more digits than a double may have is rounded as it is. -/
theorem ofScientific_whole {negative : Bool} {m : Nat} (h : (Numeral.digits m).length ≤ 400) :
    ofScientific negative ⟨m, 0⟩ = .round .double negative m 1 := by
  unfold ofScientific
  by_cases hm : m = 0
  · simp [hm]
  · have hleast : ¬ ((0 : Int) + ((Numeral.digits m).length : Int) < -400) := by omega
    have hgreatest : ¬ (400 < (0 : Int) + ((Numeral.digits m).length : Int)) := by omega
    simp only [hm, hleast, or_self, if_false, hgreatest]
    simp [Scientific.numerator, Scientific.denominator]

theorem toLower_of_isDigit {c : Char} (h : c.isDigit = true) : c.toLower = c := by
  have hlow : ¬ (c.val ≥ 'A'.val ∧ c.val ≤ 'Z'.val) := by
    simp only [Char.isDigit, Bool.and_eq_true, decide_eq_true_eq, ge_iff_le,
      UInt32.le_iff_toNat_le] at h ⊢
    have hnine : '9'.val.toNat = 57 := rfl
    have hletter : 'A'.val.toNat = 65 := rfl
    omega
  exact dif_neg hlow

/-- What starts with a digit behind an optional sign is no word, and so it is read as a
decimal. -/
theorem read?_signed {s : String} {c : Char} {cs : List Char} {negative : Bool}
    (hc : c.isDigit = true)
    (hs : (s.toList = '-' :: c :: cs ∧ negative = true) ∨
      ((s.toList = '+' :: c :: cs ∨ s.toList = c :: cs) ∧ negative = false)) :
    read? s = (readScientific? (c :: cs)).map (ofScientific negative) := by
  have hne : ∀ {letter : Char}, letter.isDigit = false → c ≠ letter := by
    rintro letter hletter rfl
    rw [hc] at hletter
    cases hletter
  have hword : ∀ {letter : Char} {rest : List Char}, letter.isDigit = false →
      ((c :: cs).map Char.toLower == letter :: rest) = false := by
    intro letter rest hletter
    rw [List.map_cons, toLower_of_isDigit hc, beq_eq_false_iff_ne]
    intro heq
    exact hne hletter (List.cons.inj heq).1
  have hnone : ∀ sign, (if (c :: cs).map Char.toLower == "inf".toList ||
        (c :: cs).map Char.toLower == "infinity".toList then some (.infinite sign)
      else if (c :: cs).map Char.toLower == "nan".toList then some .nan
      else (readScientific? (c :: cs)).map (ofScientific sign) : Option Double) =
      (readScientific? (c :: cs)).map (ofScientific sign) := by
    intro sign
    have hinf : ((c :: cs).map Char.toLower == "inf".toList) = false := hword (by decide)
    have hinfinity : ((c :: cs).map Char.toLower == "infinity".toList) = false :=
      hword (by decide)
    have hnan : ((c :: cs).map Char.toLower == "nan".toList) = false := hword (by decide)
    rw [hinf, hinfinity, hnan]
    rfl
  rcases hs with ⟨hs, rfl⟩ | ⟨hs | hs, rfl⟩
  · rw [read?, hs]
    exact hnone true
  · rw [read?, hs]
    exact hnone false
  · rw [read?, hs]
    split
    next negative cs heq =>
      split at heq
      next rest hcons => exact absurd (List.cons.inj hcons).1 (hne (by decide))
      next rest hcons => exact absurd (List.cons.inj hcons).1 (hne (by decide))
      next =>
        cases heq
        exact hnone false

/-- The numeral of an integer is the double nearest to it.  Only a zero may have a sign
that the integer has not. -/
theorem read?_of_sizedInt {s : String} {n : SizedInt .w64}
    (h : SizedInt.read? .w64 s.toList = some n) :
    ∃ negative, read? s = some (.round .double negative n.val.natAbs 1) ∧
      (n.val ≠ 0 → negative = decide (n.val < 0)) ∧
      (s.toList.head? ≠ some '-' → negative = false) := by
  obtain ⟨ds, hne, hall, hcases⟩ := Numeral.readInt?_eq_some (SizedInt.readInt?_of_read? h)
  have hbound := n.natAbs_le
  have hread : ∀ negative, n.val.natAbs = Numeral.value ds →
      (readScientific? ds).map (ofScientific negative) =
        some (.round .double negative n.val.natAbs 1) := by
    intro negative hvalue
    have hlength : (Numeral.digits (Numeral.value ds)).length ≤ 400 := by
      have htwenty : (Numeral.digits (Numeral.value ds)).length ≤ 20 :=
        (Nat.length_toDigits_le_iff (by decide) (by decide)).mpr (by omega)
      omega
    rw [readScientific?_digits hne hall, Option.map_some, ofScientific_whole hlength, hvalue]
  obtain ⟨c, cs, rfl⟩ := List.exists_cons_of_ne_nil hne
  have hc : c.isDigit = true := hall c List.mem_cons_self
  rcases hcases with ⟨hs, hn⟩ | ⟨hs, hn⟩
  · refine ⟨true, ?_, ?_, ?_⟩
    · rw [read?_signed hc (.inl ⟨hs, rfl⟩), hread true (by omega)]
    · intro hzero
      exact (decide_eq_true (by omega)).symm
    · intro hhead
      exact absurd (by rw [hs]; rfl) hhead
  · refine ⟨false, ?_, ?_, fun _ => rfl⟩
    · rw [read?_signed hc (.inr ⟨hs, rfl⟩), hread false (by omega)]
    · intro _
      exact (decide_eq_false (by omega)).symm

end Double

end ChatCommands
