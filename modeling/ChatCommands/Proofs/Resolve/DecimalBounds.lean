import ChatCommands.Proofs.Number.DecimalOrder
import ChatCommands.Proofs.Resolve.Alone

/-!
# The bounds of a decimal parameter

A decimal is compared with the decimals that stand for the bounds of its parameter, and it keeps
these bounds if it is accepted.  A bound so large that no decimal stands for it is passed over.
That does no harm on the side of zero from which every decimal keeps it anyway.  On the other
side no decimal keeps it, and yet decimals are accepted.
-/

namespace ChatCommands

/-- The number that limits decimals for the sake of a bound: the integer, the decimal that stands
for the double, or the double itself where no decimal does. -/
def Bound.limit? : Bound → Option ℚ
  | .integer n => some n.val
  | .float (.finite x) => some ((Decimal.ofFinite? x).elim x.toRat Decimal.toRat)
  | .float _ => none

namespace Bound

variable {bound : Bound} {d : Decimal} {q : ℚ}

theorem limit?_of_toDecimal? (h : bound.toDecimal? = some d) : bound.limit? = some d.toRat := by
  cases bound with
  | integer n =>
      obtain ⟨e, he, hvalue⟩ := Decimal.exists_ofInt? n
      obtain rfl : e = d := Option.some.inj (he.symm.trans h)
      rw [limit?, hvalue]
  | float x =>
      cases x with
      | finite x =>
          have hx : Decimal.ofFinite? x = some d := h
          rw [limit?, hx, Option.elim_some]
      | infinite negative => cases h
      | nan => cases h

/-- A limit for which no decimal stands is beyond all decimals. -/
theorem le_abs_of_toDecimal?_eq_none (h : bound.toDecimal? = none) (hq : bound.limit? = some q) :
    2 ^ 96 ≤ |q| := by
  cases bound with
  | integer n =>
      obtain ⟨d, hd, -⟩ := Decimal.exists_ofInt? n
      cases hd.symm.trans h
  | float x =>
      cases x with
      | finite x =>
          have hx : Decimal.ofFinite? x = none := h
          rw [limit?, hx, Option.elim_none] at hq
          exact Option.some.inj hq ▸ Decimal.ofFinite?_eq_none_iff.mp hx
      | infinite negative => cases hq
      | nan => cases hq

variable {bound? : Option Bound}

theorem limit?_of_bind_toDecimal? (h : bound?.bind toDecimal? = some d) :
    bound?.bind limit? = some d.toRat := by
  obtain ⟨bound, rfl, hbound⟩ := Option.bind_eq_some_iff.mp h
  exact limit?_of_toDecimal? hbound

theorem le_abs_of_bind_toDecimal? (h : bound?.bind toDecimal? = none)
    (hq : bound?.bind limit? = some q) : 2 ^ 96 ≤ |q| := by
  obtain ⟨bound, rfl, hbound⟩ := Option.bind_eq_some_iff.mp hq
  exact le_abs_of_toDecimal?_eq_none h hbound

end Bound

/-- A decimal keeps the bounds of a parameter. -/
structure Param.Keeps (p : Param) (d : Decimal) : Prop where
  least : ∀ q, p.minBound.bind Bound.limit? = some q → q ≤ d.toRat
  greatest : ∀ q, p.maxBound.bind Bound.limit? = some q → d.toRat ≤ q

/-- A bound that no decimal keeps: a lower one above all decimals, or an upper one below. -/
def Param.ExcludesDecimals (p : Param) : Prop :=
  (∃ q, p.minBound.bind Bound.limit? = some q ∧ 2 ^ 96 ≤ q) ∨
    ∃ q, p.maxBound.bind Bound.limit? = some q ∧ q ≤ -2 ^ 96

namespace Resolve

variable {p : Param} {piece : Piece} {v : Value}

/-- A decimal keeps the bounds for which decimals stand. -/
structure KeepsDecimals (p : Param) (d : Decimal) : Prop where
  least : ∀ l, p.minBound.bind Bound.toDecimal? = some l → l.toRat ≤ d.toRat
  greatest : ∀ g, p.maxBound.bind Bound.toDecimal? = some g → d.toRat ≤ g.toRat

theorem keepsDecimals_iff {d : Decimal} {least greatest : Option Decimal}
    (hleast : p.minBound.bind (·.toDecimal?) = least)
    (hgreatest : p.maxBound.bind (·.toDecimal?) = greatest) :
    KeepsDecimals p d ↔
      (∀ l ∈ least, ¬ d.lt l = true) ∧ ∀ g ∈ greatest, ¬ g.lt d = true := by
  subst hleast hgreatest
  simp only [Decimal.lt_iff, not_lt]
  exact ⟨fun h => ⟨h.least, h.greatest⟩, fun h => ⟨h.1, h.2⟩⟩

/-- What is accepted is the decimal that was given, and it keeps the bounds that are enforced. -/
theorem judgeDecimal_eq_ok_iff {d : Decimal} (hd : decimalOf piece = some d) :
    judgeDecimal p piece = .ok v ↔ v = .decimal d ∧ KeepsDecimals p d := by
  rw [judgeDecimal, hd]
  cases hleast : p.minBound.bind (·.toDecimal?) <;>
    cases hgreatest : p.maxBound.bind (·.toDecimal?) <;>
    rw [keepsDecimals_iff hleast hgreatest, eq_comm (a := v)] <;>
    simp only [check_eq_ok, pure, Except.pure, Except.ok.injEq, Option.mem_def, Option.some.injEq,
      forall_eq', reduceCtorEq, IsEmpty.forall_iff, implies_true, and_true, true_and]
  case none.some | some.none => exact and_comm
  case some.some => rw [← and_assoc, and_comm]

/-- A decimal that keeps the bounds that are enforced keeps the others too, unless they exclude
all decimals. -/
theorem KeepsDecimals.keeps {d : Decimal} (h : KeepsDecimals p d) (hopen : ¬ p.ExcludesDecimals) :
    p.Keeps d := by
  constructor
  case least =>
    intro q hq
    cases hl : p.minBound.bind Bound.toDecimal? with
    | some l =>
        obtain rfl := Option.some.inj (hq.symm.trans (Bound.limit?_of_bind_toDecimal? hl))
        exact h.least l hl
    | none =>
        rcases le_abs'.mp (Bound.le_abs_of_bind_toDecimal? hl hq) with hbelow | habove
        · exact le_trans hbelow (le_of_lt d.lt_toRat)
        · exact absurd (.inl ⟨q, hq, habove⟩) hopen
  case greatest =>
    intro q hq
    cases hg : p.maxBound.bind Bound.toDecimal? with
    | some g =>
        obtain rfl := Option.some.inj (hq.symm.trans (Bound.limit?_of_bind_toDecimal? hg))
        exact h.greatest g hg
    | none =>
        rcases le_abs'.mp (Bound.le_abs_of_bind_toDecimal? hg hq) with hbelow | habove
        · exact absurd (.inr ⟨q, hq, hbelow⟩) hopen
        · exact le_trans (le_of_lt d.toRat_lt) habove

/-- No decimal stands for a lower bound above all decimals, so that the least decimal keeps
the bounds that are enforced. -/
theorem keepsDecimals_of_least {q : ℚ} (hq : p.minBound.bind Bound.limit? = some q)
    (hbeyond : 2 ^ 96 ≤ q) : KeepsDecimals p (.extreme true) := by
  refine ⟨fun l hl => ?_, fun g _ => g.extreme_le⟩
  obtain rfl := Option.some.inj (hq.symm.trans (Bound.limit?_of_bind_toDecimal? hl))
  exact absurd hbeyond (not_le.mpr l.toRat_lt)

theorem keepsDecimals_of_greatest {q : ℚ} (hq : p.maxBound.bind Bound.limit? = some q)
    (hbeyond : q ≤ -2 ^ 96) : KeepsDecimals p (.extreme false) := by
  refine ⟨fun l _ => l.le_extreme, fun g hg => ?_⟩
  obtain rfl := Option.some.inj (hq.symm.trans (Bound.limit?_of_bind_toDecimal? hg))
  exact absurd hbeyond (not_le.mpr g.lt_toRat)

end Resolve

namespace Slot

open Resolve

variable {slot : Slot} {supply rest : Supply} {d : Decimal}

theorem decimal_eq_ok (h : Resolve.decimal slot supply = (.ok (.decimal d), rest)) :
    KeepsDecimals slot.param d := by
  rw [Resolve.decimal, withPiece] at h
  split at h
  next => cases congrArg Prod.fst h
  next piece left hpop =>
    have hjudge := mapError_eq_ok.mp (congrArg Prod.fst h)
    obtain ⟨e, he⟩ : ∃ e, decimalOf piece = some e := by
      cases hpiece : decimalOf piece with
      | none =>
          rw [judgeDecimal, hpiece] at hjudge
          cases hjudge
      | some e => exact ⟨e, rfl⟩
    obtain ⟨hvalue, hkeeps⟩ := (judgeDecimal_eq_ok_iff he).mp hjudge
    obtain rfl : d = e := by simpa using hvalue
    exact hkeeps

/-- A decimal that was given is accepted if it keeps the bounds that are enforced. -/
theorem exists_decimal_of_keeps {piece : Piece} (hd : decimalOf piece = some d)
    (h : KeepsDecimals slot.param d) :
    ∃ rest, Resolve.decimal slot { input := piece.asInput slot.param.name } =
      (.ok (.decimal d), rest) := by
  have hjudge := (judgeDecimal_eq_ok_iff hd).mpr ⟨rfl, h⟩
  have hpop := (Supply.holds_asInput slot.param.name piece).pop
  rw [Resolve.decimal, withPiece]
  split
  next hnone =>
    rw [hnone] at hpop
    cases hpop
  next found rest hfound =>
    rw [hfound] at hpop
    obtain rfl := Option.some.inj hpop
    exact ⟨rest, by rw [settle, hjudge, mapError_ok]⟩

/-- A word with the digits of the decimal that is farthest from zero. -/
def extremeWord (negative : Bool) : Piece :=
  .word ⟨signed negative "79228162514264337593543950335".toList, ⟨0, 30⟩⟩

theorem decimalOf_extremeWord (negative : Bool) :
    decimalOf (extremeWord negative) = some (.extreme negative) := by
  cases negative <;> decide +kernel

/-- The decimals that a parameter accepts keep its bounds, exactly if it has no bound that
excludes all decimals. -/
theorem keeps_of_decimal_iff (slot : Slot) :
    (∀ supply rest d, Resolve.decimal slot supply = (.ok (.decimal d), rest) →
      slot.param.Keeps d) ↔ ¬ slot.param.ExcludesDecimals := by
  constructor
  · -- A bound that excludes all decimals is not enforced, and the decimal that is farthest
    -- from it is accepted.
    rintro h (⟨q, hq, hbeyond⟩ | ⟨q, hq, hbeyond⟩)
    · obtain ⟨rest, hrun⟩ := exists_decimal_of_keeps (decimalOf_extremeWord _)
        (keepsDecimals_of_least hq hbeyond)
      have hleast := (h _ _ _ hrun).least q hq
      exact absurd hbeyond (not_le.mpr (lt_of_le_of_lt hleast (Decimal.toRat_lt _)))
    · obtain ⟨rest, hrun⟩ := exists_decimal_of_keeps (decimalOf_extremeWord _)
        (keepsDecimals_of_greatest hq hbeyond)
      have hgreatest := (h _ _ _ hrun).greatest q hq
      exact absurd hbeyond (not_le.mpr (lt_of_lt_of_le (Decimal.lt_toRat _) hgreatest))
  · exact fun hopen supply rest d h => (decimal_eq_ok h).keeps hopen

/-- A decimal with a bound that is a fraction. -/
def price : Param :=
  ⟨"price", .decimal, false, none, Dict.ofList [("max", "10.5")], Dict.empty, [], [], none, none,
    none, none, none⟩

/-- The decimal 9.99. -/
def nineNinetyNine : Decimal :=
  ⟨false, ⟨999, by decide⟩, ⟨2, by decide⟩⟩

/-- A price in a text is accepted and keeps the bound. -/
theorem keeps_price :
    price.type = .decimal ∧ ¬ price.ExcludesDecimals ∧
      price.maxBound.bind Bound.limit? = some (21 / 2) ∧
      ∃ supply rest,
        Resolve.decimal (Environment.painting.slot Environment.aside price true) supply =
          (.ok (.decimal nineNinetyNine), rest) ∧
        price.Keeps nineNinetyNine := by
  let slot := Environment.painting.slot Environment.aside price true
  have hmin : slot.param.minBound = none := by decide +kernel
  have hmax : price.maxBound.bind Bound.toDecimal? = some ⟨false, ⟨105, by decide⟩, ⟨1, by decide⟩⟩ := by
    decide +kernel
  have hlimit := Bound.limit?_of_bind_toDecimal? hmax
  have hopen : ¬ slot.param.ExcludesDecimals := by
    rintro (⟨q, hq, -⟩ | ⟨q, hq, hbelow⟩)
    · rw [hmin] at hq
      cases hq
    · obtain rfl := Option.some.inj (hq.symm.trans hlimit)
      exact absurd hbelow (not_le.mpr (Decimal.lt_toRat _))
  have hkeeps : KeepsDecimals slot.param nineNinetyNine := by
    refine ⟨fun l hl => ?_, fun g hg => ?_⟩
    · rw [hmin] at hl
      cases hl
    · obtain rfl := Option.some.inj (hg.symm.trans hmax)
      rw [← not_lt, ← Decimal.lt_iff]
      decide
  have hgiven : decimalOf (.word ⟨"9.99", ⟨0, 4⟩⟩) = some nineNinetyNine := by decide +kernel
  obtain ⟨rest, hrun⟩ := exists_decimal_of_keeps hgiven hkeeps
  refine ⟨rfl, hopen, ?_, _, rest, hrun, (keeps_of_decimal_iff slot).mpr hopen _ _ _ hrun⟩
  rw [hlimit]
  norm_num [Decimal.toRat, Decimal.signedCoefficient]

/-- The double nearest to the thirtieth power of ten. -/
def steepBound : FiniteFloat .double :=
  ⟨false, ⟨1122, by decide⟩, ⟨2601827730230506, by decide⟩⟩

/-- A decimal with a lower bound that no decimal reaches. -/
def steep : Param :=
  ⟨"d", .decimal, false, none, Dict.empty, Dict.empty, [], [], none, none,
    some (.float (.finite steepBound)), none, none⟩

/-- The decimal one. -/
def decimalOne : Decimal :=
  .whole false ⟨1, by decide⟩

/-- One is accepted, although the lower bound is above all decimals. -/
theorem not_keeps_steep :
    steep.type = .decimal ∧ steep.minBound = some (.float (.finite steepBound)) ∧
      2 ^ 96 ≤ steepBound.toRat ∧
      (∃ rest, Resolve.decimal (Environment.painting.slot Environment.aside steep true)
        { input := .text "1" [⟨"1", ⟨0, 1⟩⟩] } = (.ok (.decimal decimalOne), rest)) ∧
      ¬ steep.Keeps decimalOne := by
  let slot := Environment.painting.slot Environment.aside steep true
  have hmin : steep.minBound = some (.float (.finite steepBound)) := rfl
  have hnone : Decimal.ofFinite? steepBound = none := by decide +kernel
  have hlimit : steep.minBound.bind Bound.limit? = some steepBound.toRat := by
    rw [hmin, Option.bind_some, Bound.limit?, hnone, Option.elim_none]
  have hbeyond : 2 ^ 96 ≤ steepBound.toRat := by
    rw [← abs_of_nonneg (FiniteFloat.toRat_nonneg (x := steepBound) rfl)]
    exact Decimal.ofFinite?_eq_none_iff.mp hnone
  have hpassed : slot.param.minBound.bind Bound.toDecimal? = none := by decide +kernel
  have hkeeps : KeepsDecimals slot.param decimalOne := by
    refine ⟨fun l hl => ?_, fun g hg => by cases hg⟩
    rw [hpassed] at hl
    cases hl
  have hgiven : decimalOf (.word ⟨"1", ⟨0, 1⟩⟩) = some decimalOne := by decide +kernel
  have hrun := exists_decimal_of_keeps hgiven hkeeps
  refine ⟨rfl, hmin, hbeyond, hrun, fun h => ?_⟩
  exact absurd hbeyond (not_le.mpr (lt_of_le_of_lt (h.least _ hlimit) decimalOne.toRat_lt))

end Slot

end ChatCommands
