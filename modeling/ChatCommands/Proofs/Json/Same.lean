import ChatCommands.Json.Basic

/-!
# Equality of values

Equality of values is an equivalence.  It is coarser than being the same value, since the
two floating-point zeros are equal.
-/

namespace ChatCommands.Json

mutual

theorem same_refl : ∀ a : Json, a.same a = true
  | .null => rfl
  | .bool b => by rw [same, beq_self_eq_true]
  | .integer n => by rw [same, beq_self_eq_true]
  | .float x => by rw [same, FiniteFloat.numericEq, beq_self_eq_true]
  | .string s => by rw [same, beq_self_eq_true]
  | .array items => by rw [same, sameItems_refl items]
  | .object fields => by rw [same, sameFields_refl fields]

theorem sameItems_refl : ∀ items : List Json, sameItems items items = true
  | [] => rfl
  | a :: rest => by rw [sameItems, same_refl a, sameItems_refl rest, Bool.and_self]

theorem sameFields_refl : ∀ fields : List (String × Json), sameFields fields fields = true
  | [] => rfl
  | (key, a) :: rest => by
      rw [sameFields, beq_self_eq_true, same_refl a, sameFields_refl rest, Bool.and_self,
        Bool.and_self]

end

/-- Equal values are equal to the same values. -/
theorem same_congr {a b : Json} (h : a.same b = true) (c : Json) : a.same c = b.same c := by
  revert h c
  -- Arrays and objects hand their items and fields over to the same recursion.
  refine (Json.same.mutual_induct
    (fun a b => a.same b = true → ∀ c : Json, a.same c = b.same c)
    (fun as bs => sameFields as bs = true → ∀ cs, sameFields as cs = sameFields bs cs)
    (fun as bs => sameItems as bs = true → ∀ cs, sameItems as cs = sameItems bs cs)
    ?null ?bool ?integer ?float ?string ?array ?object ?apart ?noItems ?items ?itemsApart
    ?noFields ?fields ?fieldsApart).1 a b
  case null => exact fun _ _ => rfl
  case bool | integer | string =>
    intro a b h c
    simp only [same, beq_iff_eq] at h
    rw [h]
  case float =>
    intro x y h c
    simp only [same, FiniteFloat.numericEq, beq_iff_eq] at h
    cases c with
    | float z => simp only [same, FiniteFloat.numericEq, h]
    | _ => rfl
  case array =>
    intro as bs ih h c
    cases c with
    | array cs => exact ih h cs
    | _ => rfl
  case object =>
    intro as bs ih h c
    cases c with
    | object cs => exact ih h cs
    | _ => rfl
  case items =>
    intro a as b bs iha ihas h cs
    rw [sameItems, Bool.and_eq_true] at h
    cases cs with
    | nil => rfl
    | cons c cs => rw [sameItems, sameItems, iha h.1, ihas h.2]
  case fields =>
    intro j a as k b bs iha ihas h cs
    rw [sameFields, Bool.and_eq_true, Bool.and_eq_true, beq_iff_eq] at h
    obtain ⟨⟨rfl, hvalue⟩, hrest⟩ := h
    cases cs with
    | nil => rfl
    | cons c cs => rw [sameFields, sameFields, iha hvalue, ihas hrest]
  case noItems => exact fun _ _ => rfl
  case noFields => exact fun _ _ => rfl
  case apart =>
    intro a b _ _ _ _ _ _ _ h
    simp [same, *] at h
  case itemsApart =>
    intro as bs _ _ h
    simp [sameItems, *] at h
  case fieldsApart =>
    intro as bs _ _ h
    simp [sameFields, *] at h

theorem same_symm {a b : Json} (h : a.same b = true) : b.same a = true :=
  (same_congr h a).symm.trans (same_refl a)

theorem same_trans {a b c : Json} (hab : a.same b = true) (hbc : b.same c = true) :
    a.same c = true :=
  (same_congr hab c).trans hbc

end ChatCommands.Json
