import ChatCommands.Json.Reader
import ChatCommands.Proofs.Json.NumberText
import ChatCommands.Proofs.Json.Scan

/-!
# Numbers in texts

A number is read in the same way alone and in front of what follows a value in an array or an
object.
-/

namespace ChatCommands.Json

/-- A text that does not go on with a number. -/
def Ends (rest : List Char) : Prop :=
  ∀ c ∈ rest.head?, c.isDigit = false ∧ c ≠ '.' ∧ c ≠ 'e' ∧ c ≠ 'E'

variable {blanks rest : List Char}

namespace NumberText

/-- The parts of a number. -/
def numerals (t : NumberText) : Scan.Numerals :=
  ⟨t.whole, t.places,
    t.power.map fun p => if p.1 then -(Numeral.value p.2 : Int) else Numeral.value p.2⟩

/-- A power of ten stays within a bound. -/
def Fits (limit : Option Nat) (p : Bool × List Char) : Prop :=
  p.1 ≠ true → p.2.length ≤ limit.elim p.2.length fun limit => Scan.digitsWithin limit 0 p.2

/-- The power of ten of a number stays within the bound that its digits give. -/
def FitsIn (limit : List Char → Option Nat) (t : NumberText) : Prop :=
  ∀ p ∈ t.power, Fits (limit (t.whole ++ t.places.getD [])) p

end NumberText

theorem ends_nil : Ends [] := by
  rintro c ⟨⟩

theorem ends_gap_append (hblanks : IsGap blanks) (hrest : Ends rest) : Ends (blanks ++ rest) := by
  cases blanks with
  | nil => exact hrest
  | cons c blanks =>
      rintro x ⟨⟩
      have hc := hblanks c List.mem_cons_self
      simp only [isGap, Bool.or_eq_true, beq_iff_eq] at hc
      rcases hc with ((rfl | rfl) | rfl) | rfl
      all_goals decide

namespace Scan

variable {α β : Type} {scan : Scan α} {next : α → Scan β} {room : Nat} {a : α} {c : Char}
  {text between rest blanks ds : List Char}

/-! ## Digits -/

theorem exists_cons_of_isDigits (h : IsDigits ds) :
    ∃ c rest, ds = c :: rest ∧ c.isDigit = true := by
  obtain ⟨c, rest, rfl⟩ := List.exists_cons_of_ne_nil h.1
  exact ⟨c, rest, rfl, h.2 c List.mem_cons_self⟩

theorem reads_digits (hds : ∀ c ∈ ds, c.isDigit = true)
    (hrest : ∀ c ∈ rest.head?, c.isDigit = false) (room : Nat) :
    digits.Reads room (ds ++ rest) ds rest := by
  intro place
  obtain ⟨place', h⟩ := exists_skip_append ds rest place room
  refine ⟨place', ?_⟩
  simp only [digits, takeWhile_append_of_head? hds hrest, h]

theorem reads_wholeDigits (hds : IsDigits ds) (hleading : ds.head? = some '0' → ds = ['0'])
    (hrest : ∀ c ∈ rest.head?, c.isDigit = false) (atEnd : Fault) (room : Nat) :
    (wholeDigits atEnd).Reads room (ds ++ rest) ds rest := by
  obtain ⟨c, others, rfl, hc⟩ := exists_cons_of_isDigits hds
  refine (reads_next? room _).bind ?_
  rw [List.cons_append, List.head?_cons]
  by_cases hzero : c = '0'
  · subst hzero
    obtain rfl : others = [] := by simpa using hleading rfl
    have hnone : rest.head?.any Char.isDigit = false := by
      cases hhead : rest.head? with
      | none => rfl
      | some d => exact hrest d hhead
    refine (reads_skip '0' rest room).bind ((reads_next? room rest).bind ?_)
    rw [hnone]
    exact reads_pure _ _ _
  · simp only [beq_iff_eq, hzero, if_false, hc, if_true]
    exact reads_digits hds.2 hrest room

theorem reads_placeDigits (hds : IsDigits ds) (hrest : ∀ c ∈ rest.head?, c.isDigit = false)
    (atEnd : Fault) (room : Nat) : (placeDigits atEnd).Reads room (ds ++ rest) ds rest := by
  refine (reads_digits hds.2 hrest room).bind ?_
  have hempty : ds.isEmpty = false := by simpa using hds.1
  rw [hempty]
  exact reads_pure _ _ _

/-! ## Powers -/

/-- The sign of a power. -/
def powerSign (negative : Bool) : Char :=
  if negative then '-' else '+'

theorem powerSign_eq_minus (negative : Bool) : (some (powerSign negative) == some '-') = negative := by
  cases negative <;> rfl

/-- The digits behind the sign of a power are taken as far as the bound allows. -/
theorem reads_power_or_refuses {negative : Bool} (hds : IsDigits ds)
    (hrest : ∀ c ∈ rest.head?, c.isDigit = false) (atEnd : Fault) (limit : Option Nat)
    (room : Nat) :
    (NumberText.Fits limit (negative, ds) →
      (power atEnd limit).Reads room (powerSign negative :: (ds ++ rest))
        (if negative then -(Numeral.value ds : Int) else Numeral.value ds) rest) ∧
    (¬ NumberText.Fits limit (negative, ds) →
      (power atEnd limit).Refuses room (powerSign negative :: (ds ++ rest))) := by
  have htake := takeWhile_append_of_head? hds.2 hrest
  have hdigits := reads_digits hds.2 hrest room
  obtain ⟨c, others, hcons, hc⟩ := exists_cons_of_isDigits hds
  have hhead : (ds ++ rest).head? = some c := by rw [hcons, List.cons_append, List.head?_cons]
  have hsign : (some (powerSign negative) == some '+' || some (powerSign negative) == some '-') = true := by
    cases negative <;> rfl
  have hbeyond : NumberText.Fits limit (negative, ds) ↔
      ¬ (some (powerSign negative) != some '-' &&
        decide (limit.elim ds.length (digitsWithin · 0 ds) < ds.length)) = true := by
    rw [bne, powerSign_eq_minus, NumberText.Fits, Bool.and_eq_true, decide_eq_true_eq, not_and,
      Nat.not_lt, Bool.not_eq_true', Bool.eq_false_iff]
  constructor
  · intro hfits
    refine (reads_next? room _).bind ?_
    simp only [List.head?_cons, hsign, if_true]
    refine (reads_skip _ _ room).bind ((reads_next? room _).bind ?_)
    simp only [hhead, hc, if_true]
    apply reads_get
    intro place
    simp only [htake, hbeyond.mp hfits, powerSign_eq_minus]
    exact hdigits.map
  · intro hfits
    refine (reads_next? room _).bind_refuses ?_
    simp only [List.head?_cons, hsign, if_true]
    refine (reads_skip _ _ room).bind_refuses ((reads_next? room _).bind_refuses ?_)
    simp only [hhead, hc, if_true]
    apply refuses_get
    intro place
    rw [hbeyond, not_not] at hfits
    simp only [htake, hfits, if_true]
    exact fun place => ⟨_, _, rfl⟩

/-! ## Parts of numbers -/

/-- The point and the digits behind it, if there is a point. -/
def placesPart (atEnd : Fault) : Scan (Option (List Char)) := do
  if (← next?) == some '.' then
    skip 1
    return some (← placeDigits atEnd)
  else return none

/-- The power, if there is a mark of it. -/
def powerPart (atEnd : Fault) (limit : Option Nat) : Scan (Option Int) := do
  if (← next?).any fun c => c == 'e' || c == 'E' then
    skip 1
    return some (← power atEnd limit)
  else return none

theorem ite_bind (p : Prop) [Decidable p] (first second : Scan α) (next : α → Scan β) :
    (if p then first else second) >>= next = if p then first >>= next else second >>= next := by
  split
  · rfl
  · rfl

theorem numerals_eq (atEnd : Fault) (limit : List Char → Option Nat) :
    numerals atEnd limit = do
      let whole ← wholeDigits atEnd
      let places ← placesPart atEnd
      let power ← powerPart atEnd (limit (whole ++ places.getD []))
      return ⟨whole, places, power⟩ := by
  simp only [numerals, placesPart, powerPart, bind_assoc, ite_bind, pure_bind]

variable {t : NumberText}

theorem reads_placesPart (ht : t.InOrder) (hrest : ∀ c ∈ rest.head?, c.isDigit = false ∧ c ≠ '.')
    (atEnd : Fault) (room : Nat) :
    (placesPart atEnd).Reads room (t.placesText ++ rest) t.places rest := by
  refine (reads_next? room _).bind ?_
  rw [NumberText.placesText]
  cases hplaces : t.places with
  | none =>
      have hpoint : (rest.head? == some '.') = false := by
        rw [beq_eq_false_iff_ne]
        exact fun heq => (hrest '.' heq).2 rfl
      simp only [Option.elim_none, List.nil_append, hpoint]
      exact reads_pure _ _ _
  | some ds =>
      have hds := ht.places ds hplaces
      refine (reads_skip '.' _ room).bind ?_
      exact (reads_placeDigits hds (fun c hc => (hrest c hc).1) atEnd room).map

theorem reads_powerPart (ht : t.InOrder) (hrest : Ends rest) (atEnd : Fault) {limit : Option Nat}
    (hfits : ∀ p ∈ t.power, NumberText.Fits limit p) (room : Nat) :
    (powerPart atEnd limit).Reads room (t.powerText ++ rest) t.numerals.power rest := by
  refine (reads_next? room _).bind ?_
  rw [NumberText.powerText, NumberText.numerals]
  cases hpower : t.power with
  | none =>
      have hmark : (rest.head?.any fun c => c == 'e' || c == 'E') = false := by
        rw [Option.any_eq_false]
        intro c hc
        simp [(hrest c hc).2.2]
      simp only [Option.elim_none, List.nil_append, hmark]
      exact reads_pure _ _ _
  | some p =>
      obtain ⟨negative, ds⟩ := p
      have hds := ht.power _ hpower
      refine (reads_skip 'e' _ room).bind ?_
      exact ((reads_power_or_refuses hds (fun c hc => (hrest c hc).1) atEnd limit room).1 (hfits _ hpower)).map

theorem refuses_powerPart (ht : t.InOrder) (hrest : Ends rest) (atEnd : Fault)
    {limit : Option Nat} (hfits : ¬ ∀ p ∈ t.power, NumberText.Fits limit p) (room : Nat) :
    (powerPart atEnd limit).Refuses room (t.powerText ++ rest) := by
  push Not at hfits
  obtain ⟨⟨negative, ds⟩, hpower, hbeyond⟩ := hfits
  have hds := ht.power _ hpower
  refine (reads_next? room _).bind_refuses ?_
  rw [NumberText.powerText, Option.mem_def.mp hpower]
  refine (reads_skip 'e' _ room).bind_refuses ?_
  exact ((reads_power_or_refuses hds (fun c hc => (hrest c hc).1) atEnd limit room).2 hbeyond).bind _

/-- What stands behind the digits of a number is not a digit. -/
theorem isDigit_head?_powerText (hrest : Ends rest) (t : NumberText) :
    ∀ c ∈ (t.powerText ++ rest).head?, c.isDigit = false ∧ c ≠ '.' := by
  rw [NumberText.powerText]
  cases t.power with
  | none => exact fun c hc => ⟨(hrest c hc).1, (hrest c hc).2.1⟩
  | some p =>
      rintro c ⟨⟩
      decide

theorem isDigit_head?_placesText (hrest : Ends rest) (t : NumberText) :
    ∀ c ∈ (t.placesText ++ (t.powerText ++ rest)).head?, c.isDigit = false := by
  rw [NumberText.placesText]
  cases t.places with
  | none => exact fun c hc => (isDigit_head?_powerText hrest t c hc).1
  | some ds =>
      rintro c ⟨⟩
      rfl

theorem chars_append (t : NumberText) (rest : List Char) :
    t.chars ++ rest = t.whole ++ (t.placesText ++ (t.powerText ++ rest)) := by
  simp only [NumberText.chars, List.append_assoc]

/-- A number is read as its parts. -/
theorem reads_numerals (ht : t.InOrder) (hrest : Ends rest) (atEnd : Fault)
    {limit : List Char → Option Nat} (hfits : t.FitsIn limit) (room : Nat) :
    (numerals atEnd limit).Reads room (t.chars ++ rest) t.numerals rest := by
  have hwhole := reads_wholeDigits ht.whole ht.leading (isDigit_head?_placesText hrest t) atEnd room
  have hplaces := reads_placesPart ht (isDigit_head?_powerText hrest t) atEnd room
  have hpower := reads_powerPart ht hrest atEnd hfits room
  rw [numerals_eq, chars_append]
  exact hwhole.bind (hplaces.bind hpower.map)

/-- A number whose power is beyond the bound is refused. -/
theorem refuses_numerals (ht : t.InOrder) (hrest : Ends rest) (atEnd : Fault)
    {limit : List Char → Option Nat} (hfits : ¬ t.FitsIn limit) (room : Nat) :
    (numerals atEnd limit).Refuses room (t.chars ++ rest) := by
  have hwhole := reads_wholeDigits ht.whole ht.leading (isDigit_head?_placesText hrest t) atEnd room
  have hplaces := reads_placesPart ht (isDigit_head?_powerText hrest t) atEnd room
  have hpower := refuses_powerPart ht hrest atEnd hfits room
  rw [numerals_eq, chars_append]
  exact hwhole.bind_refuses (hplaces.bind_refuses (hpower.bind _))

/-! ## Values of numbers -/

/-- What a number is read as, whatever stands behind it. -/
def Denotes (negative : Bool) (t : NumberText) (v : Json) : Prop :=
  t.FitsIn powerLimit ∧ ofNumerals? negative t.numerals = some v

theorem reads_number {negative : Bool} {v : Json} (ht : t.InOrder) (hv : Denotes negative t v)
    (hrest : Ends rest) (room : Nat) : (number negative).Reads room (t.chars ++ rest) v rest := by
  refine (reads_numerals ht hrest .endInValue hv.1 room).bind ?_
  simp only [hv.2]
  exact reads_pure _ _ _

theorem refuses_number {negative : Bool} (ht : t.InOrder) (hnone : ∀ v, ¬ Denotes negative t v)
    (hrest : Ends rest) (room : Nat) : (number negative).Refuses room (t.chars ++ rest) := by
  by_cases hfits : t.FitsIn powerLimit
  · refine (reads_numerals ht hrest .endInValue hfits room).bind_refuses ?_
    have hvalue : ofNumerals? negative t.numerals = none := by
      rw [Option.eq_none_iff_forall_not_mem]
      exact fun v hv => hnone v ⟨hfits, hv⟩
    simp only [hvalue]
    exact fun place => ⟨_, _, rfl⟩
  · exact (refuses_numerals ht hrest .endInValue hfits room).bind _

theorem ne_of_isDigit {x : Char} (hc : c.isDigit = true) (hx : x.isDigit = false) : c ≠ x := by
  rintro rfl
  rw [hc] at hx
  cases hx

theorem isGap_of_isDigit (hc : c.isDigit = true) : isGap c = false := by
  simp only [isGap, Bool.or_eq_false_iff, beq_eq_false_iff_ne]
  exact ⟨⟨⟨ne_of_isDigit hc rfl, ne_of_isDigit hc rfl⟩, ne_of_isDigit hc rfl⟩, ne_of_isDigit hc rfl⟩

/-- A value that starts with a digit is a number. -/
theorem reads_valueWithin_digit {v : Json} (hc : c.isDigit = true)
    (hblanks : IsGap blanks) (h : (number false).Reads room (c :: text) v rest) (fuel : Nat) :
    (valueWithin (fuel + 1)).Reads room (blanks ++ c :: text) v rest := by
  rw [valueWithin]
  refine (reads_start hblanks (isGap_of_isDigit hc) text room).bind ?_
  split <;> first | exact absurd rfl (ne_of_isDigit hc rfl) | skip
  rw [if_pos hc]
  exact h

theorem refuses_valueWithin_digit (hc : c.isDigit = true)
    (hblanks : IsGap blanks) (h : (number false).Refuses room (c :: text)) (fuel : Nat) :
    (valueWithin (fuel + 1)).Refuses room (blanks ++ c :: text) := by
  rw [valueWithin]
  refine (reads_start hblanks (isGap_of_isDigit hc) text room).bind_refuses ?_
  split <;> first | exact absurd rfl (ne_of_isDigit hc rfl) | skip
  rw [if_pos hc]
  exact h

theorem toList_signed (negative : Bool) (cs : List Char) :
    (signed negative cs).toList = if negative then '-' :: cs else cs :=
  String.toList_ofList

theorem exists_chars_eq_cons (ht : t.InOrder) :
    ∃ c cs, t.chars = c :: cs ∧ c.isDigit = true := by
  obtain ⟨c, others, hwhole, hc⟩ := exists_cons_of_isDigits ht.whole
  exact ⟨c, others ++ (t.placesText ++ t.powerText), by rw [NumberText.chars, hwhole]; rfl, hc⟩

/-- A number is read as what it denotes. -/
theorem reads_signed {negative : Bool} {v : Json} (ht : t.InOrder) (hv : Denotes negative t v)
    (hblanks : IsGap blanks) (hrest : Ends rest) (fuel room : Nat) :
    (valueWithin (fuel + 1)).Reads room (blanks ++ ((signed negative t.chars).toList ++ rest)) v
      rest := by
  have hnumber := reads_number ht hv hrest room
  rw [toList_signed]
  cases negative with
  | true =>
      rw [valueWithin]
      exact (reads_start hblanks (by decide) _ room).bind ((reads_skip '-' _ room).bind hnumber)
  | false =>
      obtain ⟨c, cs, hcons, hc⟩ := exists_chars_eq_cons ht
      rw [hcons] at hnumber
      simp only [hcons, Bool.false_eq_true, if_false]
      exact reads_valueWithin_digit hc hblanks hnumber fuel

theorem refuses_signed {negative : Bool} (ht : t.InOrder) (hnone : ∀ v, ¬ Denotes negative t v)
    (hblanks : IsGap blanks) (hrest : Ends rest) (fuel room : Nat) :
    (valueWithin (fuel + 1)).Refuses room
      (blanks ++ ((signed negative t.chars).toList ++ rest)) := by
  have hnumber := refuses_number ht hnone hrest room
  rw [toList_signed]
  cases negative with
  | true =>
      rw [valueWithin]
      exact (reads_start hblanks (by decide) _ room).bind_refuses
        ((reads_skip '-' _ room).bind_refuses hnumber)
  | false =>
      obtain ⟨c, cs, hcons, hc⟩ := exists_chars_eq_cons ht
      rw [hcons] at hnumber
      simp only [hcons, Bool.false_eq_true, if_false]
      exact refuses_valueWithin_digit hc hblanks hnumber fuel

/-! ## Whole texts -/

theorem reads_value {v : Json} (h : (valueWithin (2 * text.length + 2)).Reads room text v rest) :
    value.Reads room text v rest :=
  reads_get fun _ => h

theorem whole_of_reads {s : String} (h : scan.Reads maxDepth s.toList a rest) (hrest : IsGap rest) :
    scan.whole s = .ok a := by
  have hgap : gap.Reads maxDepth rest none [] := by
    have hread : gap.Reads maxDepth (rest ++ []) none [] :=
      reads_gap hrest (by rintro c ⟨⟩) maxDepth
    rwa [List.append_nil] at hread
  have hall : Reads (do
      let a ← scan
      if (← gap).isSome then failNext .trailingCharacters
      return a) maxDepth s.toList a [] :=
    h.bind (hgap.bind (reads_pure _ _ _))
  obtain ⟨place, hok⟩ := hall {}
  rw [whole]
  simp only [hok]

theorem whole_of_refuses {s : String} (h : scan.Refuses maxDepth s.toList) :
    ∃ refusal, scan.whole s = .error refusal := by
  have hall : Refuses (do
      let a ← scan
      if (← gap).isSome then failNext .trailingCharacters
      return a) maxDepth s.toList := h.bind _
  obtain ⟨refusal, state, herror⟩ := hall {}
  refine ⟨refusal, ?_⟩
  rw [whole]
  simp only [herror]

/-- A number that is read back alone denotes what it is read as. -/
theorem denotes_iff_read? {negative : Bool} {v : Json} (ht : t.InOrder) :
    Denotes negative t v ↔ read? (signed negative t.chars) = some v := by
  have hread : ∀ {w : Json}, Denotes negative t w → read? (signed negative t.chars) = some w := by
    intro w hw
    have hsigned := reads_signed ht hw isGap_nil ends_nil
      (2 * (signed negative t.chars).toList.length + 1) maxDepth
    rw [List.nil_append, List.append_nil] at hsigned
    rw [read?, read, whole_of_reads (reads_value hsigned) isGap_nil]
    rfl
  constructor
  · exact hread
  · intro h
    by_cases hsome : ∃ w, Denotes negative t w
    · obtain ⟨w, hw⟩ := hsome
      have heq := (hread hw).symm.trans h
      rwa [← Option.some.inj heq]
    · have hrefuse := refuses_signed ht (not_exists.mp hsome) isGap_nil ends_nil
        (2 * (signed negative t.chars).toList.length + 1) maxDepth
      rw [List.nil_append, List.append_nil] at hrefuse
      have hvalue : value.Refuses maxDepth (signed negative t.chars).toList :=
        refuses_get fun _ => hrefuse
      obtain ⟨refusal, herror⟩ := whole_of_refuses hvalue
      rw [read?, read, herror] at h
      cases h

end Scan

end ChatCommands.Json
