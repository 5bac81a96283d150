import Mathlib.Data.List.Induction
import Mathlib.Data.List.Nodup
import ChatCommands.Dict

/-!
# Dictionaries as maps

A dictionary is known by what it gives for each key.
-/

namespace ChatCommands.Dict

variable {α : Type}

@[simp]
theorem get?_empty (key : String) : (empty : Dict α).get? key = none := rfl

theorem find?_setEntry (key wanted : String) (value : α) (entries : List (String × α)) :
    ((setEntry key value entries).find? (·.1 == wanted)).map (·.2) =
      if key = wanted then some value
      else (entries.find? (·.1 == wanted)).map (·.2) := by
  induction entries with
  | nil => by_cases h : key = wanted <;> simp [setEntry, h]
  | cons entry rest ih =>
      obtain ⟨k, v⟩ := entry
      simp only [setEntry]
      split
      · by_cases h : key = wanted <;> simp [h]
      · split
        next hkey =>
          subst hkey
          by_cases h : key = wanted <;> simp [h]
        next hkey =>
          by_cases hk : k = wanted
          · have hne : ¬ key = wanted := fun h => hkey (h.trans hk.symm)
            simp [hk, hne]
          · simpa [hk] using ih

/-- A key that was set has its value, and every other key what it had. -/
theorem get?_insert (d : Dict α) (key wanted : String) (value : α) :
    (d.insert key value).get? wanted = if key = wanted then some value else d.get? wanted :=
  find?_setEntry key wanted value d.entries

theorem nodup_keys (d : Dict α) : (d.entries.map Prod.fst).Nodup :=
  List.pairwise_map.mpr (d.increasing.imp fun hlt => Std.ne_of_lt hlt)

/-- A dictionary gives the values of its entries and no others. -/
theorem get?_eq_some_iff {d : Dict α} {key : String} {value : α} :
    d.get? key = some value ↔ (key, value) ∈ d.entries := by
  rw [get?, Option.map_eq_some_iff]
  constructor
  · rintro ⟨entry, hfound, rfl⟩
    have hkey : entry.1 = key := by simpa using List.find?_some hfound
    rw [← hkey]
    exact List.mem_of_find?_eq_some hfound
  · intro hmem
    cases hfound : d.entries.find? (·.1 == key) with
    | none =>
        have hother := List.find?_eq_none.mp hfound _ hmem
        simp at hother
    | some entry =>
        have hkey : entry.1 = key := by simpa using List.find?_some hfound
        have hentry :=
          List.inj_on_of_nodup_map d.nodup_keys (List.mem_of_find?_eq_some hfound) hmem hkey
        exact ⟨entry, rfl, congrArg Prod.snd hentry⟩

theorem insertAll_cons (d : Dict α) (entry : String × α) (entries : List (String × α)) :
    d.insertAll (entry :: entries) = (d.insert entry.1 entry.2).insertAll entries := rfl

@[simp]
theorem insertAll_nil (d : Dict α) : d.insertAll [] = d := rfl

theorem insertAll_append (d : Dict α) (as bs : List (String × α)) :
    d.insertAll (as ++ bs) = (d.insertAll as).insertAll bs :=
  List.foldl_append

/-- A key that is not among the entries keeps what it had. -/
theorem get?_insertAll_of_ne {d : Dict α} {entries : List (String × α)} {key : String}
    (h : ∀ entry ∈ entries, entry.1 ≠ key) : (d.insertAll entries).get? key = d.get? key := by
  induction entries generalizing d with
  | nil => rfl
  | cons entry rest ih =>
      have hentry : entry.1 ≠ key := h entry List.mem_cons_self
      rw [insertAll_cons, ih fun e he => h e (List.mem_cons_of_mem _ he), get?_insert,
        if_neg hentry]

theorem setEntry_of_lt {key : String} {value : α} {entries : List (String × α)}
    (h : ∀ entry ∈ entries, entry.1 < key) : setEntry key value entries = entries ++ [(key, value)] := by
  induction entries with
  | nil => rfl
  | cons entry rest ih =>
      obtain ⟨k, v⟩ := entry
      have hk : k < key := h _ List.mem_cons_self
      have hlt : ¬ key < k := String.lt_asymm hk
      have hne : key ≠ k := fun heq => String.lt_irrefl k (heq ▸ hk)
      rw [setEntry, if_neg hlt, if_neg hne, ih fun e he => h e (List.mem_cons_of_mem _ he),
        List.cons_append]

/-- Entries in order that are added behind smaller ones stay as they are. -/
theorem entries_insertAll {d : Dict α} {entries : List (String × α)}
    (h : (d.entries ++ entries).Pairwise fun a b => a.1 < b.1) :
    (d.insertAll entries).entries = d.entries ++ entries := by
  induction entries generalizing d with
  | nil => exact (List.append_nil _).symm
  | cons entry rest ih =>
      obtain ⟨-, -, hless⟩ := List.pairwise_append.mp h
      have hset : (d.insert entry.1 entry.2).entries = d.entries ++ [entry] :=
        setEntry_of_lt fun e he => hless e he entry List.mem_cons_self
      rw [insertAll_cons, ih, hset, List.append_assoc, List.singleton_append]
      rwa [hset, List.append_assoc, List.singleton_append]

/-- Entries in order make a dictionary as they are. -/
theorem entries_ofList {entries : List (String × α)}
    (h : entries.Pairwise fun a b => a.1 < b.1) : (ofList entries).entries = entries :=
  entries_insertAll h

theorem ofList_entries (d : Dict α) : ofList d.entries = d :=
  ext_entries (entries_ofList d.increasing)

theorem mem_of_mem_insertAll {d : Dict α} {entries : List (String × α)} {entry : String × α}
    (h : entry ∈ (d.insertAll entries).entries) : entry ∈ d.entries ∨ entry ∈ entries := by
  induction entries generalizing d with
  | nil => exact .inl h
  | cons first rest ih =>
      rcases ih (insertAll_cons d first rest ▸ h) with h | h
      · rcases mem_setEntry h with rfl | h
        · exact .inr List.mem_cons_self
        · exact .inl h
      · exact .inr (List.mem_cons_of_mem _ h)

theorem mem_of_mem_ofList {entries : List (String × α)} {entry : String × α}
    (h : entry ∈ (ofList entries).entries) : entry ∈ entries :=
  (mem_of_mem_insertAll h).resolve_left List.not_mem_nil

/-! ## Dictionaries put over each other -/

/-- Dictionaries that give the same for every key are equal. -/
theorem ext_get? {d e : Dict α} (h : ∀ key, d.get? key = e.get? key) : d = e := by
  have hmem : ∀ entry, entry ∈ d.entries ↔ entry ∈ e.entries := by
    rintro ⟨key, value⟩
    rw [← get?_eq_some_iff, ← get?_eq_some_iff, h]
  have hperm : d.entries.Perm e.entries :=
    (List.perm_ext_iff_of_nodup d.nodup_keys.of_map e.nodup_keys.of_map).mpr hmem
  exact ext_entries <| hperm.eq_of_pairwise
    (fun _ _ _ _ hlt hgt => absurd hgt (String.lt_asymm hlt)) d.increasing e.increasing

/-- A key has the last value that was set for it, if there is one, and else what it had. -/
theorem get?_insertAll (d : Dict α) (entries : List (String × α)) (key : String) :
    (d.insertAll entries).get? key = ((ofList entries).get? key).or (d.get? key) := by
  induction entries using List.reverseRecOn with
  | nil => rfl
  | append_singleton entries entry ih =>
      rw [ofList, insertAll_append, insertAll_append, ← ofList, insertAll_cons, insertAll_cons,
        insertAll_nil, insertAll_nil, get?_insert, get?_insert, ih]
      split
      · rfl
      · rfl

theorem get?_insertAll_entries (d e : Dict α) (key : String) :
    (d.insertAll e.entries).get? key = (e.get? key).or (d.get? key) := by
  rw [get?_insertAll, ofList_entries]

theorem insertAll_ofList (d : Dict α) (entries : List (String × α)) :
    d.insertAll (ofList entries).entries = d.insertAll entries :=
  ext_get? fun key => by rw [get?_insertAll_entries, get?_insertAll]

theorem insertAll_insertAll (c d e : Dict α) :
    (c.insertAll d.entries).insertAll e.entries = c.insertAll (d.insertAll e.entries).entries :=
  ext_get? fun key => by simp only [get?_insertAll_entries, Option.or_assoc]

end ChatCommands.Dict
