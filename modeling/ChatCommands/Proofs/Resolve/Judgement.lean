import ChatCommands.Resolve.Standard
import ChatCommands.Proofs.Outcome

/-!
# What the judgements give

A judgement that accepts its input gives a value of one form, which the lemmas
below tell for each of them.
-/

namespace ChatCommands.Resolve

variable {slot : Slot} {p : Param} {piece : Piece} {text : String} {v : Value}

/-! ## Plain values -/

theorem judgeBool_eq_ok (h : judgeBool piece = .ok v) : ∃ b, v = .bool b := by
  unfold judgeBool at h
  split at h
  next b => exact ⟨b, (Except.ok.inj h).symm⟩
  next =>
    simp only at h
    split at h
    next => exact ⟨true, (Except.ok.inj h).symm⟩
    next =>
      split at h
      next => exact ⟨false, (Except.ok.inj h).symm⟩
      next => cases h

theorem judgeInteger_eq_ok (h : judgeInteger p piece = .ok v) :
    ∃ n m, integerOf piece = .ok n ∧ leastInteger p ≤ n ∧ n ≤ greatestInteger p ∧
      SizedInt.of? (widthOf p.type) n = some m ∧ v = .integer (widthOf p.type) m := by
  rw [judgeInteger, bind_eq_ok] at h
  obtain ⟨n, hn, h⟩ := h
  simp only [check_eq_ok] at h
  obtain ⟨hleast, hgreatest, h⟩ := h
  split at h
  next m hm =>
    exact ⟨n, m, hn, Int.not_lt.mp hleast, Int.not_lt.mp hgreatest, hm, (Except.ok.inj h).symm⟩
  next => cases h

theorem judgeFloat_eq_ok (h : judgeFloat p piece = .ok v) :
    ∃ x : Double, v = match p.type with
      | .float32 => .float32 (x.convert .single)
      | _ => .float64 x := by
  unfold judgeFloat at h
  split at h
  next x hx =>
    simp only [check_eq_ok] at h
    obtain ⟨-, -, h⟩ := h
    refine ⟨.finite x, ?_⟩
    cases htype : p.type <;> simp only [htype] at h ⊢ <;> exact (Except.ok.inj h).symm
  next => cases h

theorem judgeDecimal_eq_ok (h : judgeDecimal p piece = .ok v) : ∃ d, v = .decimal d := by
  unfold judgeDecimal at h
  split at h
  next => cases h
  next d hd =>
    refine ⟨d, ?_⟩
    cases hleast : p.minBound.bind (·.toDecimal?) <;>
      cases hgreatest : p.maxBound.bind (·.toDecimal?) <;>
      simp only [hleast, hgreatest, check_eq_ok, pure, Except.pure, Except.ok.injEq] at h
    · exact h.symm
    · exact h.2.symm
    · exact h.2.symm
    · exact h.2.2.symm

theorem judgeLength_eq_ok (h : judgeLength p text = .ok v) : v = .string text := by
  unfold judgeLength at h
  cases hleast : p.minLength <;> cases hgreatest : p.maxLength <;>
    simp only [hleast, hgreatest, check_eq_ok, pure, Except.pure, Except.ok.injEq] at h
  · exact h.symm
  · exact h.2.symm
  · exact h.2.symm
  · exact h.2.2.symm

theorem judgeLine_eq_ok {pieces : List Piece} (h : judgeLine p pieces = .ok v) :
    (v = .absent ∧ pieces = []) ∨ ∃ s, v = .string s := by
  unfold judgeLine at h
  split at h
  next hempty => exact .inl ⟨(Except.ok.inj h).symm, List.isEmpty_iff.mp hempty⟩
  next => exact .inr ⟨_, judgeLength_eq_ok h⟩

theorem judgeMember_eq_ok {enumeration : Enumeration} (h : judgeMember enumeration piece = .ok v) :
    ∃ m ∈ enumeration.members, v = .enumMember enumeration.name m := by
  unfold judgeMember at h
  split at h
  next m hm => exact ⟨m, List.mem_of_find?_eq_some hm, (Except.ok.inj h).symm⟩
  next => cases h

/-! ## Entities -/

/-- Of several entities none is picked. -/
theorem Search.eq_singleton_of_pick {α : Type} {label : α → String} {named : List α} {entity : α}
    (h : Search.pick label named = .found entity) : named = [entity] := by
  cases named with
  | nil => cases h
  | cons only others =>
      cases others with
      | nil => rw [Search.found.inj h]
      | cons second rest => cases h

/-- A search gives the value of what it found, or nothing to a parameter that can
do without. -/
theorem toValue_eq_ok {α : Type} {entity input : String} {value : α → Value} {found : Search α}
    (h : found.toValue p entity input value = .ok v) :
    (∃ e, found = .found e ∧ v = value e) ∨
      (found = .missing ∧ p.optional = true ∧ v = .absent) := by
  cases found with
  | found e => exact .inl ⟨e, rfl, (Except.ok.inj h).symm⟩
  | ambiguous candidates => cases h
  | missing =>
      unfold Search.toValue at h
      simp only at h
      split at h
      next hoptional => exact .inr ⟨rfl, hoptional, (Except.ok.inj h).symm⟩
      next => cases h

/-- What an entity judgement may give: the value of an entity, or nothing to a
parameter that can do without. -/
def OfEntity {α : Type} (p : Param) (value : α → Value) (v : Value) : Prop :=
  (∃ e, v = value e) ∨ (p.optional = true ∧ v = .absent)

theorem ofEntity_toValue {α : Type} {entity input : String} {value : α → Value}
    {found : Search α} (h : found.toValue p entity input value = .ok v) : OfEntity p value v := by
  rcases toValue_eq_ok h with ⟨e, -, hv⟩ | ⟨-, hoptional, hv⟩
  · exact .inl ⟨e, hv⟩
  · exact .inr ⟨hoptional, hv⟩

theorem ofEntity_judgeUser (h : judgeUser slot text = .ok v) : OfEntity slot.param .user v :=
  ofEntity_toValue h

theorem ofEntity_judgeMemberOf (h : judgeMemberOf slot text = .ok v) :
    OfEntity slot.param .member v := by
  unfold judgeMemberOf at h
  split at h
  next => cases h
  next guild hguild => exact ofEntity_toValue h

/-- The judgements that search in a scope. -/
theorem ofEntity_scoped {α : Type} {entity input : String} {value : α → Value}
    {find : Scope → Search α}
    (h : (searchScope slot entity >>= fun scope =>
      (find scope).toValue slot.param entity input value) = .ok v) :
    OfEntity slot.param value v := by
  obtain ⟨scope, -, h⟩ := bind_eq_ok.mp h
  exact ofEntity_toValue h

end ChatCommands.Resolve
