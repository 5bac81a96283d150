import ChatCommands.Json.Record
import ChatCommands.Proofs.Json.Value

/-!
# Records are read back

Lists, dictionaries and records that are written in the indented form are read back, if their
parts are.
-/

namespace ChatCommands.Json.Scan

variable {α β π : Type} {scan : Scan α} {room : Nat} {v : Json} {a : α}
  {text blanks rest : List Char}

/-- A step reads a value that stands in an indented text as something of its own. -/
def ReadsAs (scan : Scan α) (room : Nat) (v : Json) (a : α) : Prop :=
  ∀ (level : Nat) {blanks rest : List Char}, IsGap blanks → Ends rest →
    scan.Reads room (blanks ++ ((indented level v).toList ++ rest)) a rest

/-- A step that is followed by nothing but a change of its result. -/
theorem ReadsAs.map {f : α → β} (h : scan.ReadsAs room v a) :
    ReadsAs (scan >>= fun a => pure (f a)) room v (f a) :=
  fun level _ _ hblanks hends => (h level hblanks hends).map

theorem readsAs_value (h : Readable room v) : value.ReadsAs room v v := by
  intro level blanks rest hblanks hends
  apply reads_value
  apply h.readsBack level _ hblanks hends
  simp only [List.length_append]
  omega

theorem Reads.placed (h : scan.Reads room text a rest) : (placed scan).Reads room text a rest := by
  intro place
  obtain ⟨place', hscan⟩ := h place
  exact ⟨place', by simp only [Scan.placed, hscan]⟩

/-- What is read behind an opening bracket leaves the closing one. -/
theorem Reads.closed {close : Scan Unit} {between : List Char}
    (h : scan.Reads room text a between) (hclose : close.Reads room between () rest) :
    (closed close scan).Reads room text a rest := by
  intro place
  obtain ⟨place', hscan⟩ := h place
  obtain ⟨place'', hend⟩ := hclose place'
  exact ⟨place'', by simp only [Scan.closed, hscan, hend]⟩

/-! ## Scalars -/

theorem readsAs_text (s : String) : Scan.text.ReadsAs room (.string s) s := by
  intro level blanks rest hblanks hends
  have htext : (indented level (.string s)).toList =
      '"' :: (s.toList.flatMap Json.escape ++ ['"']) := toList_quote s
  rw [htext, List.cons_append, List.append_assoc]
  refine (reads_start hblanks (by decide) _ room).bind ((reads_skip '"' _ room).bind ?_)
  exact reads_string s rest room

theorem readsAs_flag (b : Bool) : flag.ReadsAs room (.bool b) b := by
  intro level blanks rest hblanks hends
  cases b with
  | true =>
      rw [toList_true]
      refine (reads_start hblanks (by decide) _ room).bind ((reads_skip 't' _ room).bind ?_)
      exact (reads_word ['r', 'u', 'e'] rest room).bind (reads_pure _ _ _)
  | false =>
      rw [toList_false]
      refine (reads_start hblanks (by decide) _ room).bind ((reads_skip 'f' _ room).bind ?_)
      exact (reads_word ['a', 'l', 's', 'e'] rest room).bind (reads_pure _ _ _)

/-- A whole number of 64 bits is read back. -/
theorem read?_pretty_natural {n : Nat} (h : n ≤ Numeral.max64) :
    read? (pretty (.integer n)) = some (.integer n) := by
  have htext : pretty (.integer n) =
      signed false (NumberText.mk (Numeral.digits n) none none).chars := text_eq_signed n
  rw [htext, ← denotes_iff_read? (inOrder_digits n)]
  constructor
  · rintro p ⟨⟩
  · simp [ofNumerals?, NumberText.numerals, Numeral.value_digits, h]

theorem exists_natural_eq_cons (n level : Nat) : ∃ c cs,
    (indented level (.integer n)).toList = c :: cs ∧ c.isDigit = true := by
  have htext : (indented level (.integer n)).toList = Numeral.digits n := String.toList_ofList
  obtain ⟨c, cs, hcons, hc⟩ := exists_cons_of_isDigits (isDigits_digits n)
  exact ⟨c, cs, htext.trans hcons, hc⟩

theorem readsAs_count {n : Nat} (h : n ≤ Numeral.max64) : count.ReadsAs room (.integer n) n := by
  intro level blanks rest hblanks hends
  have hnumber : Readable room (.integer n) := .integer (read?_pretty_natural h)
  have hvalue := readsAs_value hnumber level isGap_nil hends
  obtain ⟨c, cs, hcons, hc⟩ := exists_natural_eq_cons n level
  have hdigit : (c == '-' || c.isDigit) = true := by rw [hc, Bool.or_true]
  rw [List.nil_append, hcons] at hvalue
  rw [hcons]
  refine (reads_start hblanks (isGap_of_isDigit hc) _ room).bind ?_
  rw [if_pos hdigit]
  exact Reads.placed (hvalue.bind (reads_pure _ _ _))

theorem readsAs_orNothing_null (item : Scan α) : (orNothing item).ReadsAs room .null none := by
  intro level blanks rest hblanks hends
  rw [toList_null]
  have hnothing : nothing.Reads room (['n', 'u', 'l', 'l'] ++ rest) () rest := by
    refine (reads_start isGap_nil (by decide) _ room).bind ((reads_skip 'n' _ room).bind ?_)
    exact reads_word ['u', 'l', 'l'] rest room
  refine (reads_gap_cons hblanks (by decide) _ room).bind ?_
  exact hnothing.bind (reads_pure _ _ _)

/-- A value that is something is told from nothing by its first character. -/
theorem readsAs_orNothing {item : Scan α} (h : item.ReadsAs room v a)
    (hsome : ∀ level, ∃ c cs, (indented level v).toList = c :: cs ∧ isGap c = false ∧ c ≠ 'n') :
    (orNothing item).ReadsAs room v (some a) := by
  intro level blanks rest hblanks hends
  obtain ⟨c, cs, hcons, hgap, hc⟩ := hsome level
  have hitem := h level isGap_nil hends
  rw [List.nil_append, hcons] at hitem
  rw [hcons]
  refine (reads_gap_cons hblanks hgap _ room).bind ?_
  split
  next heq => exact absurd (Option.some.inj heq) hc
  next => exact hitem.map

theorem readsAs_oneOf {known : List (String × α)} {s name : String}
    (h : known.find? (·.1 == s) = some (name, a)) : (oneOf known).ReadsAs room (.string s) a := by
  intro level blanks rest hblanks hends
  have htext : (indented level (.string s)).toList =
      '"' :: (s.toList.flatMap Json.escape ++ ['"']) := toList_quote s
  rw [htext, List.cons_append, List.append_assoc]
  refine (reads_start hblanks (by decide) _ room).bind (Reads.placed ?_)
  refine (reads_skip '"' _ room).bind ((reads_string s rest room).bind ?_)
  simp only [h]
  exact reads_pure _ _ _

/-! ## Lists -/

/-- The items of a list up to its closing bracket. -/
theorem reads_listWithin {item : Scan α} {items : List Json} {as : List α}
    (h : List.Forall₂ (item.ReadsAs room) items as) (level : Nat) (first : Bool)
    (hblanks : IsGap blanks) (rest : List Char) {fuel : Nat} (hfuel : items.length < fuel) :
    (listWithin item first fuel).Reads room
      (itemsText level first items ++ (blanks ++ ']' :: rest)) as (']' :: rest) := by
  induction h generalizing fuel first with
  | nil =>
      obtain ⟨fuel, rfl⟩ := Nat.exists_eq_add_one.mpr hfuel
      exact (reads_nextItem_end hblanks first rest room).bind (reads_pure _ _ _)
  | @cons v a items as hitem _ ih =>
      obtain ⟨fuel, rfl⟩ := Nat.exists_eq_add_one.mpr (Nat.zero_lt_of_lt hfuel)
      obtain ⟨c, cs, hcons, hgap, hc⟩ := exists_indented_eq_cons level v
      have hread := hitem level isGap_nil
        (ends_itemsText level items (ends_close hblanks (.inl rfl) rest))
      have hrest := ih false (Nat.lt_of_succ_lt_succ hfuel)
      simp only [itemsText, List.append_assoc]
      refine Reads.bind (a := true) ?_ (hread.bind hrest.map)
      rw [List.nil_append, hcons]
      exact reads_nextItem first (isGap_newline level) hgap hc _ room

theorem readsAs_list {item : Scan α} {items : List Json} {as : List α}
    (h : List.Forall₂ (item.ReadsAs room) items as) :
    (list item).ReadsAs (room + 1) (.array items) as := by
  intro level blanks rest hblanks hends
  obtain ⟨before, hbefore, htext⟩ := exists_toList_array level items
  have hlength := length_le_itemsText (level + 1) true items
  rw [htext]
  simp only [List.cons_append, List.append_assoc]
  apply reads_get
  intro place
  refine (reads_start hblanks (by decide) _ _).bind (Reads.placed ?_)
  refine Reads.closed (Reads.nested ?_ '[') (reads_closeList rest _)
  apply reads_listWithin h (level + 1) true hbefore rest
  simp only [List.length_append, List.length_cons]
  omega

/-! ## Dictionaries -/

/-- A field whose value is read as that of an entry with the same key. -/
def FieldReadsAs (item : Scan α) (room : Nat) (field : String × Json) (entry : String × α) : Prop :=
  field.1 = entry.1 ∧ item.ReadsAs room field.2 entry.2

/-- The entries of a dictionary up to its closing bracket. -/
theorem reads_dictWithin {item : Scan α} {fields : List (String × Json)}
    {entries : List (String × α)} (h : List.Forall₂ (FieldReadsAs item room) fields entries)
    (level : Nat) (first : Bool) (hblanks : IsGap blanks) (rest : List Char) {fuel : Nat}
    (hfuel : fields.length < fuel) :
    (dictWithin item first fuel).Reads room
      (fieldsText level first fields ++ (blanks ++ '\x7d' :: rest)) entries ('\x7d' :: rest) := by
  induction h generalizing fuel first with
  | nil =>
      obtain ⟨fuel, rfl⟩ := Nat.exists_eq_add_one.mpr hfuel
      exact (reads_nextKey_end hblanks first rest room).bind (reads_pure _ _ _)
  | @cons field entry fields entries hfield _ ih =>
      obtain ⟨key, v⟩ := field
      obtain ⟨key', a⟩ := entry
      obtain ⟨rfl, hitem⟩ := hfield
      obtain ⟨fuel, rfl⟩ := Nat.exists_eq_add_one.mpr (Nat.zero_lt_of_lt hfuel)
      have hread := hitem level isGap_space
        (ends_fieldsText level fields (ends_close hblanks (.inr rfl) rest))
      have hrest := ih false (Nat.lt_of_succ_lt_succ hfuel)
      simp only [fieldsText, List.append_assoc, List.cons_append]
      refine (reads_nextKey first (isGap_newline level) key _ room).bind ?_
      exact (reads_colon _ room).bind (hread.bind hrest.map)

theorem readsAs_dict {item : Scan α} {fields : List (String × Json)} {entries : List (String × α)}
    (h : List.Forall₂ (FieldReadsAs item room) fields entries) :
    (dict item).ReadsAs (room + 1) (.object fields) (.ofList entries) := by
  intro level blanks rest hblanks hends
  obtain ⟨before, hbefore, htext⟩ := exists_toList_object level fields
  have hlength := length_le_fieldsText (level + 1) true fields
  rw [htext]
  simp only [List.cons_append, List.append_assoc]
  apply reads_get
  intro place
  refine (reads_start hblanks (by decide) _ _).bind (Reads.map (Reads.placed ?_))
  refine Reads.closed (Reads.nested ?_ '\x7b') (reads_closeObject rest _)
  apply reads_dictWithin h (level + 1) true hbefore rest
  simp only [List.length_append, List.length_cons]
  omega

/-! ## Records -/

/-- Fields that fill the parts of a record one after another. -/
inductive Fills (known : List (Field π)) (room : Nat) : π → List (String × Json) → π → Prop
  | nil (parts : π) : Fills known room parts [] parts
  | cons {parts next final : π} {name : String} {v : Json} {rest : List (String × Json)}
      {field : Field π} (hfield : known.find? (·.name == name) = some field)
      (hnew : field.isGiven parts = false) (hread : (field.read parts).ReadsAs room v next)
      (hrest : Fills known room next rest final) : Fills known room parts ((name, v) :: rest) final

theorem reads_fields {known : List (Field π)} {parts final : π} {values : List (String × Json)}
    (h : Fills known room parts values final) (level : Nat) (first : Bool)
    (hblanks : IsGap blanks) (rest : List Char) {fuel : Nat} (hfuel : values.length < fuel) :
    (fields known first fuel parts).Reads room
      (fieldsText level first values ++ (blanks ++ '\x7d' :: rest)) final ('\x7d' :: rest) := by
  induction h generalizing fuel first with
  | nil parts =>
      obtain ⟨fuel, rfl⟩ := Nat.exists_eq_add_one.mpr hfuel
      exact (reads_nextKey_end hblanks first rest room).bind (reads_pure _ _ _)
  | @cons parts next final name v values field hfield hnew hread _ ih =>
      obtain ⟨fuel, rfl⟩ := Nat.exists_eq_add_one.mpr (Nat.zero_lt_of_lt hfuel)
      have hvalue := hread level isGap_space
        (ends_fieldsText level values (ends_close hblanks (.inr rfl) rest))
      have hrest := ih false (Nat.lt_of_succ_lt_succ hfuel)
      simp only [fieldsText, List.append_assoc, List.cons_append]
      refine (reads_nextKey first (isGap_newline level) name _ room).bind ?_
      simp only [hfield, hnew, Bool.false_eq_true, if_false]
      exact (reads_colon _ room).bind (hvalue.bind hrest)

/-- A record whose fields give all of its parts is read back. -/
theorem readsAs_record (title : String) {known : List (Field π)} {none : π} (final : π)
    {finish : π → Except String α} {values : List (String × Json)}
    (h : Fills known room none values final) (hfinish : finish final = .ok a) :
    (record title known none finish).ReadsAs (room + 1) (.object values) a := by
  intro level blanks rest hblanks hends
  obtain ⟨before, hbefore, htext⟩ := exists_toList_object level values
  have hlength := length_le_fieldsText (level + 1) true values
  rw [htext]
  simp only [List.cons_append, List.append_assoc]
  apply reads_get
  intro place
  refine (reads_start hblanks (by decide) _ _).bind (Reads.placed ?_)
  refine Reads.closed (Reads.nested ?_ '\x7b') (reads_closeObject rest _)
  refine (reads_fields h (level + 1) true hbefore rest ?_).bind ?_
  · simp only [List.length_append, List.length_cons]
    omega
  · rw [hfinish]
    exact reads_pure _ _ _

end ChatCommands.Json.Scan
