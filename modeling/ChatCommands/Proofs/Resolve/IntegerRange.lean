import Mathlib.Algebra.Order.Ring.Int
import ChatCommands.Proofs.Resolve.Parameter
import ChatCommands.Proofs.Resolve.Refusals

/-!
# The range of an integer parameter

An integer is compared with two ends, which are the ends of the width moved inwards by the
bounds of the parameter.  Between them it is the value, exactly; below and above them the
refusal tells the end that was missed.  The bounds may contradict each other or lie outside of
the width, and then no integer is left between the ends.
-/

namespace ChatCommands

namespace Width

/-- The number of bits. -/
def bits : Width → Nat
  | w8 => 8
  | w16 => 16
  | w32 => 32
  | w64 => 64

variable (w : Width)

theorem high_eq : w.high = 2 ^ (w.bits - 1) - 1 := by
  cases w <;> rfl

theorem low_eq : w.low = -2 ^ (w.bits - 1) := by
  rw [low, high_eq]
  omega

end Width

namespace Param

variable (p : Param) (w : Width)

/-- The lower end of the integers of a width that a parameter accepts. -/
def lowerEnd : Int :=
  p.minBound.elim (-2 ^ (w.bits - 1)) fun bound => max (-2 ^ (w.bits - 1)) bound.ceil

/-- The upper end of the integers of a width that a parameter accepts. -/
def upperEnd : Int :=
  p.maxBound.elim (2 ^ (w.bits - 1) - 1) fun bound => min (2 ^ (w.bits - 1) - 1) bound.floor

end Param

/-- A piece of input denotes an integer.  A number does if it is whole, and is brought into 128
bits; anything else does if its text without the blanks around it is a numeral of 128 bits. -/
inductive Piece.Denotes : Piece → Int → Prop
  | integer (n : SizedInt .w64) : Denotes (.typed (.integer n)) n.val
  | number {x : FiniteFloat .double} {k : Int} (hwhole : x.units = k * FloatFormat.double.unitScale) :
      Denotes (.typed (.number (.finite x)))
        (Numeral.clamp Numeral.minInt128 Numeral.maxInt128 k)
  | text {piece : Piece} {n : Int} (hinteger : ∀ n, piece ≠ .typed (.integer n))
      (hnumber : ∀ x, piece ≠ .typed (.number x))
      (hread : Numeral.readSigned? Numeral.minInt128 Numeral.maxInt128
        (Text.trim piece.text).toList = some n) : Denotes piece n

namespace FiniteFloat

variable {f : FloatFormat} {x : FiniteFloat f} {k : Int}

theorem natAbs_units (x : FiniteFloat f) : x.units.natAbs = x.magnitude := by
  unfold units
  split <;> omega

theorem isWhole_of_units_eq (h : x.units = k * f.unitScale) : x.isWhole = true := by
  have hmagnitude : x.magnitude = k.natAbs * f.unitScale := by
    rw [← x.natAbs_units, h, Int.natAbs_mul, Int.natAbs_natCast]
  rw [isWhole, hmagnitude, Nat.mul_mod_left]
  rfl

theorem floor_of_units_eq (h : x.units = k * f.unitScale) : x.floor = k := by
  have hpos : (f.unitScale : Int) ≠ 0 := Int.natCast_ne_zero.mpr (Nat.ne_of_gt (Nat.two_pow_pos _))
  rw [floor, h, Int.mul_fdiv_cancel _ hpos]

end FiniteFloat

namespace Resolve

variable {p : Param} {w : Width} {piece : Piece} {n : Int}

theorem leastInteger_eq (htype : p.type = .integer w) : leastInteger p = p.lowerEnd w := by
  rw [leastInteger, Param.lowerEnd, htype, widthOf, w.low_eq]
  cases p.minBound with
  | none => rfl
  | some bound => exact Int.max_comm _ _

theorem greatestInteger_eq (htype : p.type = .integer w) : greatestInteger p = p.upperEnd w := by
  rw [greatestInteger, Param.upperEnd, htype, widthOf, w.high_eq]
  cases p.maxBound with
  | none => rfl
  | some bound => exact Int.min_comm _ _

theorem integerOf_of_denotes (h : piece.Denotes n) : integerOf piece = .ok n := by
  cases h with
  | integer n => rfl
  | number hwhole =>
      simp only [integerOf, FiniteFloat.isWhole_of_units_eq hwhole,
        FiniteFloat.floor_of_units_eq hwhole, if_true]
  | text hinteger hnumber hread =>
      have htext : integerOf piece = integerOfText piece.text := by
        unfold integerOf
        split
        next m => exact absurd rfl (hinteger m)
        next x => exact absurd rfl (hnumber (.finite x))
        next => rfl
      rw [htext, integerOfText, hread]

/-! ## Judging an integer -/

theorem judgeInteger_below (hn : integerOf piece = .ok n) (h : n < leastInteger p) :
    judgeInteger p piece =
      .error (.argument (.belowMinimum piece.text (Numeral.intText (leastInteger p)))) := by
  rw [judgeInteger, hn]
  exact if_pos h

theorem judgeInteger_above (hn : integerOf piece = .ok n) (hleast : leastInteger p ≤ n)
    (h : greatestInteger p < n) :
    judgeInteger p piece =
      .error (.argument (.aboveMaximum piece.text (Numeral.intText (greatestInteger p)))) := by
  rw [judgeInteger, hn]
  exact (if_neg (Int.not_lt.mpr hleast)).trans (if_pos h)

/-- Between the ends the integer fits the width, since the bounds only move the ends inwards. -/
theorem judgeInteger_within (hn : integerOf piece = .ok n) (hleast : leastInteger p ≤ n)
    (hgreatest : n ≤ greatestInteger p) :
    ∃ m : SizedInt (widthOf p.type), m.val = n ∧
      judgeInteger p piece = .ok (.integer (widthOf p.type) m) := by
  have hfits : (widthOf p.type).low ≤ n ∧ n ≤ (widthOf p.type).high :=
    ⟨Int.le_trans (low_le_leastInteger p) hleast,
      Int.le_trans hgreatest (greatestInteger_le_high p)⟩
  have hsized : SizedInt.of? (widthOf p.type) n = some ⟨n, hfits.1, hfits.2⟩ := dif_pos hfits
  refine ⟨⟨n, hfits.1, hfits.2⟩, rfl, ?_⟩
  rw [judgeInteger, hn]
  refine (if_neg (Int.not_lt.mpr hleast)).trans ((if_neg (Int.not_lt.mpr hgreatest)).trans ?_)
  rw [hsized]
  rfl

end Resolve

namespace Slot

variable {slot : Slot} {supply rest : Supply} {w : Width} {piece : Piece} {n : Int}

theorem integer_eq (hpop : supply.pop slot.param.name = (some piece, rest)) :
    Resolve.integer slot supply = slot.settle rest (Resolve.judgeInteger slot.param piece) := by
  rw [Resolve.integer, withPiece, hpop]

/-- What becomes of an integer that was taken for an integer parameter. -/
structure JudgesExactly (slot : Slot) (w : Width) (supply : Supply) (piece : Piece)
    (rest : Supply) (n : Int) : Prop where
  within : slot.param.lowerEnd w ≤ n → n ≤ slot.param.upperEnd w →
    ∃ m : SizedInt w, m.val = n ∧ Resolve.integer slot supply = (.ok (.integer w m), rest)
  below : n < slot.param.lowerEnd w →
    Resolve.integer slot supply =
      (.error (rest.refuse slot.param.name
        (.belowMinimum piece.text (Numeral.intText (slot.param.lowerEnd w)))), rest)
  above : slot.param.lowerEnd w ≤ n → slot.param.upperEnd w < n →
    Resolve.integer slot supply =
      (.error (rest.refuse slot.param.name
        (.aboveMaximum piece.text (Numeral.intText (slot.param.upperEnd w)))), rest)

theorem judgesExactly_of_denotes (htype : slot.param.type = .integer w)
    (hpop : supply.pop slot.param.name = (some piece, rest)) (h : piece.Denotes n) :
    slot.JudgesExactly w supply piece rest n := by
  have hn := Resolve.integerOf_of_denotes h
  have hleast := Resolve.leastInteger_eq htype
  have hgreatest := Resolve.greatestInteger_eq htype
  constructor
  case within =>
    intro hlow hhigh
    rw [← hleast] at hlow
    rw [← hgreatest] at hhigh
    have hwithin := Resolve.judgeInteger_within hn hlow hhigh
    rw [htype] at hwithin
    obtain ⟨m, hm, hjudge⟩ := hwithin
    refine ⟨m, hm, ?_⟩
    rw [integer_eq hpop, hjudge]
    rfl
  case below =>
    intro hlow
    rw [← hleast] at hlow ⊢
    rw [integer_eq hpop, Resolve.judgeInteger_below hn hlow]
    rfl
  case above =>
    intro hlow hhigh
    rw [← hleast] at hlow
    rw [← hgreatest] at hhigh ⊢
    rw [integer_eq hpop, Resolve.judgeInteger_above hn hlow hhigh]
    rfl

/-- An integer parameter takes the integers between its ends for what they are, refuses the
others with the end that they miss, and never blames the library, whatever it is given. -/
theorem integer_exact (htype : slot.param.type = .integer w) (supply : Supply) :
    (∀ piece rest n, supply.pop slot.param.name = (some piece, rest) → piece.Denotes n →
      slot.JudgesExactly w supply piece rest n) ∧
    ∀ e, (Resolve.integer slot supply).1 = .error e → ¬ e.IsInternal := by
  constructor
  · intro piece rest n hpop hdenotes
    exact judgesExactly_of_denotes htype hpop hdenotes
  · intro e he
    have hplain : (Reading.one .absent (Resolve.judgeInteger slot.param)).IsPlain :=
      Resolve.plain_judgeInteger slot.param
    exact hplain.not_isInternal he

/-- A byte with a lower bound between two integers and an upper bound beyond the byte. -/
def offset : Param :=
  ⟨"offset", .integer .w8, false, none, Dict.ofList [("min", "-2.5"), ("max", "1e30")], Dict.empty,
    [], [], none, none, none, none, none⟩

/-- The slot of the byte. -/
def offsetSlot : Slot :=
  Environment.painting.slot Environment.aside offset true

/-- One option for the byte. -/
def offering (value : OptionValue) : Supply :=
  { input := .options [⟨"offset", value⟩] }

theorem ends_offset :
    offsetSlot.param.lowerEnd .w8 = -2 ∧ offsetSlot.param.upperEnd .w8 = 127 := by
  decide +kernel

/-- The number 128. -/
def overByte : FiniteFloat .double :=
  ⟨false, ⟨1030, by decide⟩, ⟨0, FloatFormat.double.fractionCount_pos⟩⟩

/-- The lower bound is rounded up and the upper one gives way to the width. -/
theorem integer_exact_offset :
    (∃ m : SizedInt .w8, m.val = -2 ∧
      (Resolve.integer offsetSlot (offering (.string " -2 "))).1 = .ok (.integer .w8 m)) ∧
    (Resolve.integer offsetSlot (offering (.integer ⟨-3, by decide, by decide⟩))).1 =
      .error (.invalidArgument "offset" (.belowMinimum "-3" "-2")) ∧
    (Resolve.integer offsetSlot (offering (.number (.finite overByte)))).1 =
      .error (.invalidArgument "offset" (.aboveMaximum "128" "127")) ∧
    ∀ value e, (Resolve.integer offsetSlot (offering value)).1 = .error e → ¬ e.IsInternal := by
  obtain ⟨hlower, hupper⟩ := ends_offset
  have htype : offsetSlot.param.type = .integer .w8 := rfl
  refine ⟨?_, ?_, ?_, fun value => (integer_exact htype (offering value)).2⟩
  · have hdenotes : (Piece.typed (.string " -2 ")).Denotes (-2) :=
      .text (fun _ => by simp) (fun _ => by simp) (by decide +kernel)
    have hexact := (integer_exact htype (offering (.string " -2 "))).1 _ _ _ rfl hdenotes
    obtain ⟨m, hm, hvalue⟩ := hexact.within (Int.le_of_eq hlower) (by rw [hupper]; decide)
    exact ⟨m, hm, congrArg Prod.fst hvalue⟩
  · have hexact := (integer_exact htype (offering (.integer ⟨-3, by decide, by decide⟩))).1 _ _ _ rfl
      (.integer _)
    rw [hexact.below (by rw [hlower]; decide), hlower]
    rfl
  · have hwhole : overByte.units = 128 * FloatFormat.double.unitScale := by decide +kernel
    have hexact := (integer_exact htype (offering (.number (.finite overByte)))).1 _ _ _ rfl
      (.number hwhole)
    rw [hexact.above (by rw [hlower]; decide) (by rw [hupper]; decide), hupper]
    have htext : (Piece.typed (.number (.finite overByte))).text = "128" := by decide +kernel
    rw [htext]
    rfl

end Slot

end ChatCommands
