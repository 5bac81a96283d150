import ChatCommands.Proofs.Dict
import ChatCommands.Proofs.Json.Nesting
import ChatCommands.Proofs.Json.Number

/-!
# Values are read back

A value that is written in the indented form is read back, if its numbers are read back and it
is not nested too deeply.
-/

namespace ChatCommands.Json

/-- A value that is read back where some levels of nesting are left: every number in it is read
back alone, and objects list their fields in order. -/
inductive Readable : Nat → Json → Prop
  | null {room : Nat} : Readable room .null
  | bool {room : Nat} (b : Bool) : Readable room (.bool b)
  | integer {room : Nat} {n : Int} (h : read? (pretty (.integer n)) = some (.integer n)) :
      Readable room (.integer n)
  | float {room : Nat} {x : FiniteFloat .double} (h : read? (pretty (.float x)) = some (.float x)) :
      Readable room (.float x)
  | string {room : Nat} (s : String) : Readable room (.string s)
  | array {room : Nat} {items : List Json} (h : ∀ item ∈ items, Readable room item) :
      Readable (room + 1) (.array items)
  | object {room : Nat} {fields : List (String × Json)}
      (horder : fields.Pairwise fun a b => a.1 < b.1)
      (h : ∀ field ∈ fields, Readable room field.2) : Readable (room + 1) (.object fields)

/-! ## Indented texts -/

theorem toList_null (level : Nat) : (indented level .null).toList = ['n', 'u', 'l', 'l'] :=
  String.toList_ofList

theorem toList_true (level : Nat) : (indented level (.bool true)).toList = ['t', 'r', 'u', 'e'] :=
  String.toList_ofList

theorem toList_false (level : Nat) :
    (indented level (.bool false)).toList = ['f', 'a', 'l', 's', 'e'] :=
  String.toList_ofList

/-- The items of an array in an indented text. -/
def itemsText (level : Nat) (first : Bool) : List Json → List Char
  | [] => []
  | item :: items =>
    Scan.lead first ++ ((newline level).toList ++
      ((indented level item).toList ++ itemsText level false items))

/-- The fields of an object in an indented text. -/
def fieldsText (level : Nat) (first : Bool) : List (String × Json) → List Char
  | [] => []
  | (key, value) :: fields =>
    Scan.lead first ++ ((newline level).toList ++ ((quote key).toList ++
      (':' :: ([' '] ++ ((indented level value).toList ++ fieldsText level false fields)))))

theorem toList_indentedItems (level : Nat) (items : List Json) :
    (indentedItems level items).toList = itemsText level false items := by
  induction items with
  | nil =>
      rw [indentedItems]
      rfl
  | cons item items ih =>
      rw [indentedItems, itemsText, ← ih]
      simp only [String.toList_append, List.append_assoc]
      rfl

theorem toList_indentedFields (level : Nat) (fields : List (String × Json)) :
    (indentedFields level fields).toList = fieldsText level false fields := by
  induction fields with
  | nil =>
      rw [indentedFields]
      rfl
  | cons field fields ih =>
      rw [indentedFields, fieldsText, ← ih]
      simp only [String.toList_append, List.append_assoc]
      rfl

theorem exists_toList_array (level : Nat) (items : List Json) : ∃ blanks, IsGap blanks ∧
    (indented level (.array items)).toList =
      '[' :: (itemsText (level + 1) true items ++ (blanks ++ [']'])) := by
  cases items with
  | nil => exact ⟨[], isGap_nil, by simp [indented, openArray, closeArray, itemsText]⟩
  | cons item items =>
      refine ⟨_, isGap_newline level, ?_⟩
      rw [indented, itemsText, ← toList_indentedItems]
      simp only [String.toList_append, List.append_assoc]
      rfl

theorem exists_toList_object (level : Nat) (fields : List (String × Json)) :
    ∃ blanks, IsGap blanks ∧ (indented level (.object fields)).toList =
      '\x7b' :: (fieldsText (level + 1) true fields ++ (blanks ++ ['\x7d'])) := by
  cases fields with
  | nil => exact ⟨[], isGap_nil, by simp [indented, openObject, closeObject, fieldsText]⟩
  | cons field fields =>
      refine ⟨_, isGap_newline level, ?_⟩
      rw [indented, fieldsText, ← toList_indentedFields]
      simp only [String.toList_append, List.append_assoc, List.cons_append]
      rfl

theorem length_newline_pos (level : Nat) : 0 < (newline level).toList.length := by
  rw [newline, String.toList_ofList]
  exact Nat.succ_pos _

theorem length_le_itemsText (level : Nat) (first : Bool) (items : List Json) :
    items.length ≤ (itemsText level first items).length := by
  induction items generalizing first with
  | nil => exact Nat.zero_le _
  | cons item items ih =>
      have hline := length_newline_pos level
      have hrest := ih false
      simp only [itemsText, List.length_cons, List.length_append]
      omega

theorem length_le_fieldsText (level : Nat) (first : Bool) (fields : List (String × Json)) :
    fields.length ≤ (fieldsText level first fields).length := by
  induction fields generalizing first with
  | nil => exact Nat.zero_le _
  | cons field fields ih =>
      have hrest := ih false
      simp only [fieldsText, List.length_cons, List.length_append]
      omega

theorem exists_signed_eq_cons {t : NumberText} (ht : t.InOrder) (negative : Bool) :
    ∃ c cs, (signed negative t.chars).toList = c :: cs ∧ isGap c = false ∧ c ≠ ']' := by
  rw [Scan.toList_signed]
  cases negative with
  | true => exact ⟨'-', _, rfl, by decide, by decide⟩
  | false =>
      obtain ⟨c, cs, hcons, hc⟩ := Scan.exists_chars_eq_cons ht
      exact ⟨c, cs, hcons, Scan.isGap_of_isDigit hc, Scan.ne_of_isDigit hc rfl⟩

/-- The text of a value starts with a character that is no blank and closes no array. -/
theorem exists_indented_eq_cons (level : Nat) (v : Json) :
    ∃ c cs, (indented level v).toList = c :: cs ∧ isGap c = false ∧ c ≠ ']' := by
  cases v with
  | null => exact ⟨'n', _, toList_null level, by decide, by decide⟩
  | bool b =>
      cases b with
      | true => exact ⟨'t', _, toList_true level, by decide, by decide⟩
      | false => exact ⟨'f', _, toList_false level, by decide, by decide⟩
  | integer n =>
      obtain ⟨negative, t, ht, htext⟩ := exists_text_integer n
      have hindented : indented level (.integer n) = signed negative t.chars := htext
      rw [hindented]
      exact exists_signed_eq_cons ht negative
  | float x =>
      obtain ⟨t, ht, htext⟩ := exists_text_float x
      have hindented : indented level (.float x) = signed x.negative t.chars := htext
      rw [hindented]
      exact exists_signed_eq_cons ht x.negative
  | string s => exact ⟨'"', _, Scan.toList_quote s, by decide, by decide⟩
  | array items =>
      obtain ⟨blanks, -, htext⟩ := exists_toList_array level items
      exact ⟨'[', _, htext, by decide, by decide⟩
  | object fields =>
      obtain ⟨blanks, -, htext⟩ := exists_toList_object level fields
      exact ⟨'\x7b', _, htext, by decide, by decide⟩

namespace Scan

variable {room : Nat} {blanks rest : List Char}

/-- A value is read wherever it stands in an indented text. -/
def ReadsBack (room : Nat) (v : Json) : Prop :=
  ∀ (level fuel : Nat) {blanks rest : List Char}, IsGap blanks → Ends rest →
    (indented level v).toList.length ≤ fuel →
    (valueWithin fuel).Reads room (blanks ++ ((indented level v).toList ++ rest)) v rest

theorem ends_itemsText (level : Nat) (items : List Json) (hends : Ends rest) :
    Ends (itemsText level false items ++ rest) := by
  cases items with
  | nil => exact hends
  | cons item items =>
      rintro c ⟨⟩
      decide

theorem ends_fieldsText (level : Nat) (fields : List (String × Json)) (hends : Ends rest) :
    Ends (fieldsText level false fields ++ rest) := by
  cases fields with
  | nil => exact hends
  | cons field fields =>
      rintro c ⟨⟩
      decide

theorem ends_close {c : Char} (hblanks : IsGap blanks) (hc : c = ']' ∨ c = '\x7d')
    (rest : List Char) : Ends (blanks ++ c :: rest) := by
  apply ends_gap_append hblanks
  rintro x ⟨⟩
  rcases hc with rfl | rfl
  · decide
  · decide

/-- The items of an array up to its closing bracket. -/
theorem reads_itemsWithin {items : List Json} (hitems : ∀ item ∈ items, ReadsBack room item)
    (level : Nat) (first : Bool) (hblanks : IsGap blanks) (rest : List Char) {fuel : Nat}
    (hfuel : (itemsText level first items).length < fuel) :
    (itemsWithin first fuel).Reads room (itemsText level first items ++ (blanks ++ ']' :: rest))
      items (']' :: rest) := by
  induction items generalizing fuel first with
  | nil =>
      obtain ⟨fuel, rfl⟩ := Nat.exists_eq_add_one.mpr hfuel
      rw [itemsWithin]
      exact (reads_nextItem_end hblanks first rest room).bind (reads_pure _ _ _)
  | cons item items ih =>
      obtain ⟨fuel, rfl⟩ := Nat.exists_eq_add_one.mpr (Nat.zero_lt_of_lt hfuel)
      obtain ⟨c, cs, hcons, hgap, hc⟩ := exists_indented_eq_cons level item
      have hline := length_newline_pos level
      simp only [itemsText, List.length_append] at hfuel
      have hmore : (itemsText level false items).length < fuel := by omega
      have hitem := hitems item List.mem_cons_self level fuel isGap_nil
        (ends_itemsText level items (ends_close hblanks (.inl rfl) rest)) (by omega)
      have hrest := ih (fun item h => hitems item (List.mem_cons_of_mem _ h)) false hmore
      rw [itemsWithin]
      simp only [itemsText, List.append_assoc]
      refine Reads.bind (a := true) ?_ (hitem.bind hrest.map)
      rw [List.nil_append, hcons]
      exact reads_nextItem first (isGap_newline level) hgap hc _ room

/-- The fields of an object up to its closing bracket. -/
theorem reads_fieldsWithin {fields : List (String × Json)}
    (hfields : ∀ field ∈ fields, ReadsBack room field.2) (level : Nat) (first : Bool)
    (hblanks : IsGap blanks) (rest : List Char) {fuel : Nat}
    (hfuel : (fieldsText level first fields).length < fuel) :
    (fieldsWithin first fuel).Reads room
      (fieldsText level first fields ++ (blanks ++ '\x7d' :: rest)) fields ('\x7d' :: rest) := by
  induction fields generalizing fuel first with
  | nil =>
      obtain ⟨fuel, rfl⟩ := Nat.exists_eq_add_one.mpr hfuel
      rw [fieldsWithin]
      exact (reads_nextKey_end hblanks first rest room).bind (reads_pure _ _ _)
  | cons field fields ih =>
      obtain ⟨key, value⟩ := field
      obtain ⟨fuel, rfl⟩ := Nat.exists_eq_add_one.mpr (Nat.zero_lt_of_lt hfuel)
      simp only [fieldsText, List.length_append, List.length_cons] at hfuel
      have hvalue : ReadsBack room value := hfields (key, value) List.mem_cons_self
      have hmore : (fieldsText level false fields).length < fuel := by omega
      have hread := hvalue level fuel isGap_space
        (ends_fieldsText level fields (ends_close hblanks (.inr rfl) rest)) (by omega)
      have hrest := ih (fun field h => hfields field (List.mem_cons_of_mem _ h)) false hmore
      rw [fieldsWithin]
      simp only [fieldsText, List.append_assoc, List.cons_append]
      refine (reads_nextKey first (isGap_newline level) key _ room).bind ?_
      exact (reads_colon _ room).bind (hread.bind hrest.map)

/-! ## Values of every kind -/

/-- A text of a value leaves one step to read it. -/
theorem readsBack_intro {v : Json} (h : ∀ (level fuel : Nat) {blanks rest : List Char},
    IsGap blanks → Ends rest → (indented level v).toList.length ≤ fuel + 1 →
    (valueWithin (fuel + 1)).Reads room (blanks ++ ((indented level v).toList ++ rest)) v rest) :
    ReadsBack room v := by
  intro level fuel blanks rest hblanks hends hfuel
  obtain ⟨c, cs, hcons, -⟩ := exists_indented_eq_cons level v
  have hpos : 0 < fuel := by
    rw [hcons, List.length_cons] at hfuel
    omega
  obtain ⟨fuel, rfl⟩ := Nat.exists_eq_add_one.mpr hpos
  exact h level fuel hblanks hends hfuel

theorem readsBack_null : ReadsBack room .null := by
  apply readsBack_intro
  intro level fuel blanks rest hblanks hends hfuel
  rw [toList_null, valueWithin]
  refine (reads_start hblanks (by decide) _ room).bind ((reads_skip 'n' _ room).bind ?_)
  exact (reads_word ['u', 'l', 'l'] rest room).bind (reads_pure _ _ _)

theorem readsBack_bool (b : Bool) : ReadsBack room (.bool b) := by
  apply readsBack_intro
  intro level fuel blanks rest hblanks hends hfuel
  cases b with
  | true =>
      rw [toList_true, valueWithin]
      refine (reads_start hblanks (by decide) _ room).bind ((reads_skip 't' _ room).bind ?_)
      exact (reads_word ['r', 'u', 'e'] rest room).bind (reads_pure _ _ _)
  | false =>
      rw [toList_false, valueWithin]
      refine (reads_start hblanks (by decide) _ room).bind ((reads_skip 'f' _ room).bind ?_)
      exact (reads_word ['a', 'l', 's', 'e'] rest room).bind (reads_pure _ _ _)

/-- A number that is read back alone is read back wherever it stands. -/
theorem readsBack_number {v : Json} {negative : Bool} {t : NumberText} (ht : t.InOrder)
    (htext : ∀ level, indented level v = signed negative t.chars)
    (h : read? (pretty v) = some v) : ReadsBack room v := by
  rw [pretty, htext, ← denotes_iff_read? ht] at h
  apply readsBack_intro
  intro level fuel blanks rest hblanks hends hfuel
  rw [htext]
  exact reads_signed ht h hblanks hends fuel room

theorem readsBack_string (s : String) : ReadsBack room (.string s) := by
  apply readsBack_intro
  intro level fuel blanks rest hblanks hends hfuel
  have htext : (indented level (.string s)).toList =
      '"' :: (s.toList.flatMap Json.escape ++ ['"']) := toList_quote s
  rw [htext, valueWithin, List.cons_append, List.append_assoc]
  refine (reads_start hblanks (by decide) _ room).bind ((reads_skip '"' _ room).bind ?_)
  exact (reads_string s rest room).map

theorem readsBack_array {items : List Json} (h : ∀ item ∈ items, ReadsBack room item) :
    ReadsBack (room + 1) (.array items) := by
  apply readsBack_intro
  intro level fuel blanks rest hblanks hends hfuel
  obtain ⟨before, hbefore, htext⟩ := exists_toList_array level items
  rw [htext] at hfuel
  simp only [List.length_cons, List.length_append] at hfuel
  have hlength : (itemsText (level + 1) true items).length < fuel := by omega
  have hitems := reads_itemsWithin h (level + 1) true hbefore rest hlength
  rw [htext, valueWithin]
  simp only [List.cons_append, List.append_assoc]
  refine (reads_start hblanks (by decide) _ _).bind ((hitems.nested '[').bind ?_)
  exact (reads_closeList rest _).bind (reads_pure _ _ _)

theorem readsBack_object {fields : List (String × Json)}
    (horder : fields.Pairwise fun a b => a.1 < b.1)
    (h : ∀ field ∈ fields, ReadsBack room field.2) : ReadsBack (room + 1) (.object fields) := by
  apply readsBack_intro
  intro level fuel blanks rest hblanks hends hfuel
  obtain ⟨before, hbefore, htext⟩ := exists_toList_object level fields
  have hvalue : ofFields fields = .object fields := by rw [ofFields, Dict.entries_ofList horder]
  rw [htext] at hfuel
  simp only [List.length_cons, List.length_append] at hfuel
  have hlength : (fieldsText (level + 1) true fields).length < fuel := by omega
  have hfields := reads_fieldsWithin h (level + 1) true hbefore rest hlength
  rw [htext, valueWithin, ← hvalue]
  simp only [List.cons_append, List.append_assoc]
  refine (reads_start hblanks (by decide) _ _).bind ((hfields.nested '\x7b').bind ?_)
  exact (reads_closeObject rest _).bind (reads_pure _ _ _)

end Scan

open Scan in
/-- A readable value is read wherever it stands in an indented text. -/
theorem Readable.readsBack {room : Nat} {v : Json} (h : Readable room v) : ReadsBack room v := by
  induction h with
  | null => exact readsBack_null
  | bool b => exact readsBack_bool b
  | @integer room n h =>
      obtain ⟨negative, t, ht, htext⟩ := exists_text_integer n
      exact readsBack_number (v := .integer n) ht (fun _ => htext) h
  | @float room x h =>
      obtain ⟨t, ht, htext⟩ := exists_text_float x
      exact readsBack_number (v := .float x) ht (fun _ => htext) h
  | string s => exact readsBack_string s
  | array h ih => exact readsBack_array ih
  | object horder h ih => exact readsBack_object horder ih

/-! ## Numbers that are read back -/

/-- A value that is a number. -/
def IsNumber : Json → Prop
  | .integer _ | .float _ => True
  | _ => False

/-- A value that holds no others. -/
def IsScalar : Json → Prop
  | .array _ | .object _ => False
  | _ => True

/-- A value occurs in another. -/
inductive Within (v : Json) : Json → Prop
  | self : Within v v
  | item {items : List Json} {item : Json} (hitem : item ∈ items) (h : Within v item) :
      Within v (.array items)
  | field {fields : List (String × Json)} {field : String × Json} (hfield : field ∈ fields)
      (h : Within v field.2) : Within v (.object fields)

/-- Every number in a value is read back when it is written alone. -/
def NumbersReadBack (v : Json) : Prop :=
  ∀ n : Json, n.IsNumber → n.Within v → read? (pretty n) = some n

theorem NumbersReadBack.item {items : List Json} (h : (Json.array items).NumbersReadBack)
    {item : Json} (hitem : item ∈ items) : item.NumbersReadBack :=
  fun n hn hwithin => h n hn (.item hitem hwithin)

theorem NumbersReadBack.field {fields : List (String × Json)}
    (h : (Json.object fields).NumbersReadBack) {field : String × Json} (hfield : field ∈ fields) :
    field.2.NumbersReadBack :=
  fun n hn hwithin => h n hn (.field hfield hwithin)

theorem NumbersReadBack.readable {v : Json} (h : v.NumbersReadBack) (hv : v.IsScalar) (room : Nat) :
    Readable room v := by
  cases v with
  | null => exact .null
  | bool b => exact .bool b
  | integer n => exact .integer (h (.integer n) trivial .self)
  | float x => exact .float (h (.float x) trivial .self)
  | string s => exact .string s
  | array items => cases hv
  | object fields => cases hv

/-- A readable value is read back. -/
theorem read?_pretty {v : Json} (h : Readable maxDepth v) : read? (pretty v) = some v := by
  have hread := h.readsBack 0 (2 * (pretty v).toList.length + 2) isGap_nil ends_nil (by rw [pretty]; omega)
  rw [List.nil_append, List.append_nil] at hread
  rw [read?, read, Scan.whole_of_reads (Scan.reads_value hread) isGap_nil]
  rfl

end ChatCommands.Json
