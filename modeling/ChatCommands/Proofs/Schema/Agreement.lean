import Mathlib.Logic.Basic
import Mathlib.Tactic.ByContra
import ChatCommands.Proofs.Dict
import ChatCommands.Proofs.Json.Same
import ChatCommands.Schema.Difference

/-!
# Nodes that say the same

What two nodes say is compared in two ways: field by field until one differs, and as a
whole.  Properties are compared entry by entry in the one, and key by key over the keys of
both sides in the other.
-/

namespace ChatCommands

namespace Dict

variable {α : Type}

theorem mem_keys_iff {d : Dict α} {key : String} : key ∈ d.keys ↔ d.get? key ≠ none := by
  rw [keys, get?, ne_eq, Option.map_eq_none_iff, List.find?_eq_none, List.mem_map]
  constructor
  · rintro ⟨entry, hentry, rfl⟩ hnone
    exact hnone entry hentry (by simp)
  · intro hsome
    by_contra hmissing
    apply hsome
    intro entry hentry hkey
    exact hmissing ⟨entry, hentry, by simpa using hkey⟩

theorem mem_keys_insert {d : Dict α} {key wanted : String} {value : α} :
    wanted ∈ (d.insert key value).keys ↔ wanted = key ∨ wanted ∈ d.keys := by
  rw [mem_keys_iff, mem_keys_iff, get?_insert]
  by_cases h : key = wanted
  · simp [h]
  · simp [h, Ne.symm h]

theorem mem_keys_insertAll {d : Dict α} {entries : List (String × α)} {key : String} :
    key ∈ (d.insertAll entries).keys ↔ key ∈ d.keys ∨ key ∈ entries.map (·.1) := by
  induction entries generalizing d with
  | nil => simp [insertAll]
  | cons entry rest ih =>
      rw [insertAll_cons, ih, mem_keys_insert, List.map_cons, List.mem_cons, or_comm (a := key = _),
        or_assoc]

theorem get?_eq_none_of_lt {d : Dict α} {key : String} (h : ∀ entry ∈ d.entries, key < entry.1) :
    d.get? key = none := by
  rw [get?, Option.map_eq_none_iff, List.find?_eq_none]
  intro entry hentry hkey
  have hlt := h entry hentry
  rw [eq_of_beq hkey] at hlt
  exact String.lt_irrefl key hlt

/-- The dictionary behind its first entry. -/
def tail (d : Dict α) : Dict α :=
  ⟨d.entries.tail, d.increasing.tail⟩

theorem entries_tail (d : Dict α) : d.tail.entries = d.entries.tail := rfl

theorem get?_of_cons {d : Dict α} {entry : String × α} {rest : List (String × α)}
    (h : d.entries = entry :: rest) (key : String) :
    d.get? key = if entry.1 = key then some entry.2 else d.tail.get? key := by
  rw [get?, get?, entries_tail, h, List.find?_cons, List.tail_cons]
  by_cases hkey : entry.1 = key
  · simp [hkey]
  · simp [hkey, beq_eq_false_iff_ne.mpr hkey]

theorem lt_of_mem_tail {d : Dict α} {entry other : String × α} {rest : List (String × α)}
    (h : d.entries = entry :: rest) (hother : other ∈ d.tail.entries) : entry.1 < other.1 := by
  have hincreasing := d.increasing
  rw [h, List.pairwise_cons] at hincreasing
  rw [entries_tail, h] at hother
  exact hincreasing.1 other hother

end Dict

namespace Schema

/-! ## Properties -/

theorem sameValue_refl (a : Option Json) : sameValue a a = true := by
  cases a with
  | none => rfl
  | some a => exact Json.same_refl a

theorem sameValue_symm {a b : Option Json} (h : sameValue a b = true) : sameValue b a = true := by
  cases a with
  | none =>
      cases b with
      | none => rfl
      | some b => cases h
  | some a =>
      cases b with
      | none => cases h
      | some b => exact Json.same_symm h

theorem sameValue_trans {a b c : Option Json} (hab : sameValue a b = true)
    (hbc : sameValue b c = true) : sameValue a c = true := by
  cases b with
  | none =>
      cases a with
      | none => exact hbc
      | some a => cases hab
  | some b =>
      cases a with
      | none => cases hab
      | some a =>
          cases c with
          | none => cases hbc
          | some c => exact Json.same_trans hab hbc

namespace Properties

variable {a b : Properties}

theorem same_of_cons {j k : String} {x y : Json} {as bs : List (String × Json)}
    (ha : a.entries = (j, x) :: as) (hb : b.entries = (k, y) :: bs) :
    a.same b = (j == k && x.same y && Properties.same a.tail b.tail) := by
  rw [same, same, Dict.entries_tail, Dict.entries_tail, ha, hb, Json.sameFields, List.tail_cons,
    List.tail_cons]

/-- The first key is missing on the other side if that one starts behind it. -/
theorem get?_of_lt {j k : String} {y : Json} {bs : List (String × Json)}
    (hb : b.entries = (k, y) :: bs) (hlt : j < k) : b.get? j = none := by
  apply Dict.get?_eq_none_of_lt
  intro entry hentry
  rw [hb, List.mem_cons] at hentry
  rcases hentry with rfl | hentry
  · exact hlt
  · have htail : entry ∈ b.tail.entries := by
      rw [Dict.entries_tail, hb]
      exact hentry
    exact String.lt_trans hlt (Dict.lt_of_mem_tail hb htail)

theorem get?_tail {j : String} {x : Json} {as : List (String × Json)}
    (ha : a.entries = (j, x) :: as) : a.tail.get? j = none :=
  Dict.get?_eq_none_of_lt fun _ hentry => Dict.lt_of_mem_tail ha hentry

theorem get?_head {j : String} {x : Json} {as : List (String × Json)}
    (ha : a.entries = (j, x) :: as) : a.get? j = some x := by
  rw [Dict.get?_of_cons ha, if_pos rfl]

/-- Properties that give the same values start with the same key. -/
theorem head_eq {j k : String} {x y : Json} {as bs : List (String × Json)}
    (ha : a.entries = (j, x) :: as) (hb : b.entries = (k, y) :: bs)
    (hall : ∀ key, sameValue (a.get? key) (b.get? key) = true) : j = k := by
  apply String.le_antisymm
  · apply String.not_lt.mp
    intro hlt
    have hk := hall k
    rw [get?_head hb, get?_of_lt ha hlt] at hk
    cases hk
  · apply String.not_lt.mp
    intro hlt
    have hj := hall j
    rw [get?_head ha, get?_of_lt hb hlt] at hj
    cases hj

theorem get?_eq_none_of_nil (ha : a.entries = []) (key : String) : a.get? key = none := by
  rw [Dict.get?, ha]
  rfl

/-- Properties are the same if they give the same values for every key. -/
theorem same_iff : a.same b = true ↔ ∀ key, sameValue (a.get? key) (b.get? key) = true := by
  induction ha : a.entries generalizing a b with
  | nil =>
      cases hb : b.entries with
      | nil =>
          simp [same, ha, hb, Json.sameFields, get?_eq_none_of_nil, sameValue]
      | cons entry bs =>
          simp only [same, ha, hb, Json.sameFields, Bool.false_eq_true, false_iff, not_forall]
          exact ⟨entry.1, by simp [get?_eq_none_of_nil ha, get?_head hb, sameValue]⟩
  | cons entry as ih =>
      obtain ⟨j, x⟩ := entry
      cases hb : b.entries with
      | nil =>
          simp only [same, ha, hb, Json.sameFields, Bool.false_eq_true, false_iff, not_forall]
          exact ⟨j, by simp [get?_eq_none_of_nil hb, get?_head ha, sameValue]⟩
      | cons entry bs =>
          obtain ⟨k, y⟩ := entry
          have htail : a.tail.entries = as := by rw [Dict.entries_tail, ha, List.tail_cons]
          rw [same_of_cons ha hb, Bool.and_eq_true, Bool.and_eq_true, beq_iff_eq, ih htail]
          constructor
          · rintro ⟨⟨rfl, hvalue⟩, hrest⟩ key
            rw [Dict.get?_of_cons ha, Dict.get?_of_cons hb]
            by_cases hkey : j = key
            · rw [if_pos hkey, if_pos hkey]
              exact hvalue
            · rw [if_neg hkey, if_neg hkey]
              exact hrest key
          · intro hall
            obtain rfl := head_eq ha hb hall
            have hvalue := hall j
            rw [get?_head ha, get?_head hb] at hvalue
            refine ⟨⟨rfl, hvalue⟩, fun key => ?_⟩
            by_cases hkey : j = key
            · rw [← hkey, get?_tail ha, get?_tail hb]
              rfl
            · have hother := hall key
              rw [Dict.get?_of_cons ha, Dict.get?_of_cons hb, if_neg hkey, if_neg hkey] at hother
              exact hother

/-- Of two sets of properties that are not the same, the first key that differs is
reported. -/
theorem difference?_eq_none_iff : a.difference? b = none ↔ a.same b = true := by
  rw [difference?, Option.map_eq_none_iff, List.find?_eq_none, same_iff]
  constructor
  · intro h key
    by_cases hkey : key ∈ (a.insertAll b.entries).keys
    · simpa using h key hkey
    · rw [Dict.mem_keys_insertAll, not_or] at hkey
      have hleft : a.get? key = none := by simpa [Dict.mem_keys_iff] using hkey.1
      have hright : b.get? key = none := by
        simpa [Dict.mem_keys_iff] using (show key ∉ b.keys from hkey.2)
      rw [hleft, hright]
      rfl
  · intro h key _
    simp [h key]

end Properties

/-! ## Nodes -/

/-- Two nodes agree in everything apart from their links and the mark of
confirmation. -/
structure Node.Agrees (x y : Node) : Prop where
  kind : x.kind = y.kind
  name : x.name = y.name
  description : x.description = y.description
  property : ∀ key, sameValue (x.properties.get? key) (y.properties.get? key) = true

namespace Node

variable {x y z : Node}

theorem agrees_iff : x.Agrees y ↔ x.kind = y.kind ∧ x.name = y.name ∧
    x.description = y.description ∧ x.properties.same y.properties = true := by
  rw [Properties.same_iff]
  constructor
  · exact fun h => ⟨h.kind, h.name, h.description, h.property⟩
  · rintro ⟨hkind, hname, hdescription, hproperty⟩
    exact ⟨hkind, hname, hdescription, hproperty⟩

theorem sameFields_iff : x.sameFields y = true ↔ x.Agrees y := by
  rw [agrees_iff, sameFields]
  simp only [Bool.and_eq_true, beq_iff_eq, and_assoc]

theorem difference?_eq_none_iff : x.difference? y = none ↔ x.Agrees y := by
  rw [agrees_iff, difference?]
  split
  next hkind => simp [hkind]
  next hkind =>
    split
    next hname => simp [hname]
    next hname =>
      split
      next hdescription => simp [hdescription]
      next hdescription =>
        rw [Properties.difference?_eq_none_iff]
        simp [not_not.mp hkind, not_not.mp hname, not_not.mp hdescription]

theorem agrees_refl (x : Node) : x.Agrees x :=
  ⟨rfl, rfl, rfl, fun key => sameValue_refl (x.properties.get? key)⟩

theorem Agrees.symm (h : x.Agrees y) : y.Agrees x :=
  ⟨h.kind.symm, h.name.symm, h.description.symm, fun key => sameValue_symm (h.property key)⟩

theorem Agrees.trans (hxy : x.Agrees y) (hyz : y.Agrees z) : x.Agrees z :=
  ⟨hxy.kind.trans hyz.kind, hxy.name.trans hyz.name, hxy.description.trans hyz.description,
    fun key => sameValue_trans (hxy.property key) (hyz.property key)⟩

end Node

end Schema

end ChatCommands
