import ChatCommands.Proofs.Json.Scan

/-!
# Arrays and objects in texts

An array or an object is read on one level deeper, item by item or field by field.
-/

namespace ChatCommands.Json.Scan

variable {α : Type} {scan : Scan α} {room : Nat} {a : α} {c : Char} {text rest blanks : List Char}

theorem Reads.nested (h : scan.Reads room text a rest) (c : Char) :
    (nested scan).Reads (room + 1) (c :: text) a rest := by
  intro place
  obtain ⟨place', hscan⟩ := h (place.past c)
  let close (a : α) : Scan α := do
    modify fun s => { s with room := room + 1 }
    return a
  have hopen : Scan.nested scan ⟨c :: text, place, room + 1⟩ =
      (scan >>= close) ⟨text, place.past c, room⟩ := rfl
  refine ⟨place', ?_⟩
  rw [hopen, run_bind hscan]
  rfl

/-! ## Items -/

theorem reads_nextItem_end (hblanks : IsGap blanks) (first : Bool) (rest : List Char)
    (room : Nat) : (nextItem first).Reads room (blanks ++ ']' :: rest) false (']' :: rest) := by
  refine (reads_gap_cons hblanks (by decide) rest room).bind ?_
  exact reads_pure _ _ _

/-- What stands in front of an item or a field. -/
def lead (first : Bool) : List Char :=
  if first then [] else [',']

theorem reads_nextItem (first : Bool) (hblanks : IsGap blanks) (hgap : isGap c = false)
    (hc : c ≠ ']') (rest : List Char) (room : Nat) :
    (nextItem first).Reads room (lead first ++ (blanks ++ c :: rest)) true (c :: rest) := by
  cases first with
  | true =>
      refine (reads_gap_cons hblanks hgap rest room).bind ?_
      simp only [beq_iff_eq, hc, if_false, if_true]
      exact reads_pure _ _ _
  | false =>
      refine (reads_gap_cons isGap_nil (by decide) _ room).bind ?_
      refine (reads_skip ',' _ room).bind ((reads_gap_cons hblanks hgap rest room).bind ?_)
      split
      next heq => exact absurd (Option.some.inj heq) hc
      next => exact reads_pure _ _ _
      next heq => cases heq

theorem reads_closeList (rest : List Char) (room : Nat) :
    closeList.Reads room (']' :: rest) () rest :=
  (reads_gap_cons isGap_nil (by decide) rest room).bind (reads_skip ']' rest room)

/-! ## Fields -/

theorem reads_nextKey_end (hblanks : IsGap blanks) (first : Bool) (rest : List Char)
    (room : Nat) : (nextKey first).Reads room (blanks ++ '\x7d' :: rest) none ('\x7d' :: rest) := by
  refine (reads_gap_cons hblanks (by decide) rest room).bind ?_
  exact reads_pure _ _ _

theorem reads_nextKey (first : Bool) (hblanks : IsGap blanks) (key : String) (rest : List Char)
    (room : Nat) :
    (nextKey first).Reads room (lead first ++ (blanks ++ ((quote key).toList ++ rest))) (some key)
      rest := by
  have hstring := (reads_string key rest room).map (f := some)
  rw [toList_quote, List.cons_append, List.append_assoc]
  cases first with
  | true =>
      refine (reads_gap_cons hblanks (by decide) _ room).bind ?_
      exact (reads_next? room _).bind ((reads_skip '"' _ room).bind hstring)
  | false =>
      refine (reads_gap_cons isGap_nil (by decide) _ room).bind ?_
      refine (reads_skip ',' _ room).bind ((reads_gap_cons hblanks (by decide) _ room).bind ?_)
      exact (reads_next? room _).bind ((reads_skip '"' _ room).bind hstring)

theorem reads_colon (rest : List Char) (room : Nat) : colon.Reads room (':' :: rest) () rest :=
  (reads_gap_cons isGap_nil (by decide) rest room).bind (reads_skip ':' rest room)

theorem reads_closeObject (rest : List Char) (room : Nat) :
    closeObject.Reads room ('\x7d' :: rest) () rest :=
  (reads_gap_cons isGap_nil (by decide) rest room).bind (reads_skip '\x7d' rest room)

end ChatCommands.Json.Scan
