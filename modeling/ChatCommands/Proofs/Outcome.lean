import Mathlib.Data.List.Forall2

/-!
# Outcomes that may be errors

When a sequence of steps succeeds, each of its steps has.  The lemmas take a
successful computation apart, and carry a property along a fold of steps.
-/

namespace ChatCommands

variable {ε ε' α β : Type}

theorem bind_eq_ok {x : Except ε α} {f : α → Except ε β} {b : β} :
    (x >>= f) = .ok b ↔ ∃ a, x = .ok a ∧ f a = .ok b := by
  cases x with
  | error e => simp [bind, Except.bind]
  | ok a => simp [bind, Except.bind]

theorem exists_eq_ok {x : Except ε α} (h : x.isOk = true) : ∃ a, x = .ok a := by
  cases x with
  | error e => cases h
  | ok a => exact ⟨a, rfl⟩

theorem toOption_eq_some_iff {x : Except ε α} {a : α} : x.toOption = some a ↔ x = .ok a := by
  cases x with
  | error e => simp [Except.toOption]
  | ok b => simp [Except.toOption]

theorem map_eq_ok {x : Except ε α} {f : α → β} {b : β} :
    x.map f = .ok b ↔ ∃ a, x = .ok a ∧ f a = b := by
  cases x with
  | error e => simp [Except.map]
  | ok a => simp [Except.map]

@[simp]
theorem mapError_ok {f : ε → ε'} (a : α) : (Except.ok a).mapError f = .ok a := rfl

theorem mapError_eq_ok {x : Except ε α} {f : ε → ε'} {a : α} :
    x.mapError f = .ok a ↔ x = .ok a := by
  cases x with
  | error e =>
      constructor
      · intro h
        cases h
      · intro h
        cases h
  | ok b => rw [mapError_ok]; simp

/-- A check that throws, and what comes after it. -/
theorem check_eq_ok {c : Prop} [Decidable c] {e : ε} {rest : Unit → Except ε β} {b : β} :
    (if c then throw e >>= rest else rest ()) = .ok b ↔ ¬ c ∧ rest () = .ok b := by
  by_cases h : c
  · simp [h, bind, Except.bind, throw, throwThe, MonadExceptOf.throw]
  · simp [h]

/-- A check that throws, with nothing behind it. -/
theorem ite_throw_eq_ok {c : Prop} [Decidable c] {e : ε} :
    (if c then throw e else pure () : Except ε Unit) = .ok () ↔ ¬ c := by
  by_cases h : c
  · simp [h, throw, throwThe, MonadExceptOf.throw]
  · simp [h, pure, Except.pure]

theorem forM_eq_ok {xs : List α} {f : α → Except ε Unit} :
    xs.forM f = .ok () ↔ ∀ x ∈ xs, f x = .ok () := by
  induction xs with
  | nil => simp [pure, Except.pure]
  | cons x rest ih =>
      have hcons : (x :: rest).forM f = (f x >>= fun _ => rest.forM f) := rfl
      rw [hcons, bind_eq_ok]
      constructor
      · rintro ⟨⟨⟩, hx, hrest⟩ y hy
        rcases List.mem_cons.mp hy with rfl | hy
        · exact hx
        · exact ih.mp hrest y hy
      · intro h
        exact ⟨(), h x List.mem_cons_self, ih.mpr fun y hy => h y (List.mem_cons_of_mem x hy)⟩

/-- What every successful step preserves, a successful fold preserves. -/
theorem foldlM_induction {f : β → α → Except ε β} {xs : List α} {start result : β}
    (P : β → Prop) (hstart : P start)
    (hstep : ∀ x ∈ xs, ∀ b b', P b → f b x = .ok b' → P b')
    (h : xs.foldlM f start = .ok result) : P result := by
  induction xs generalizing start with
  | nil =>
      simp only [List.foldlM_nil, pure, Except.pure, Except.ok.injEq] at h
      exact h ▸ hstart
  | cons x rest ih =>
      rw [List.foldlM_cons, bind_eq_ok] at h
      obtain ⟨next, hnext, hrest⟩ := h
      exact ih (hstep x List.mem_cons_self _ _ hstart hnext)
        (fun y hy => hstep y (List.mem_cons_of_mem x hy)) hrest

/-- What is done to the errors of the steps makes no difference to a fold that succeeds. -/
theorem foldlM_mapError_eq_ok {f : β → α → Except ε β} {g : α → ε → ε'} {xs : List α}
    {start result : β} :
    xs.foldlM (fun b x => (f b x).mapError (g x)) start = .ok result ↔
      xs.foldlM f start = .ok result := by
  induction xs generalizing start with
  | nil => simp [pure, Except.pure]
  | cons x rest ih => simp only [List.foldlM_cons, bind_eq_ok, mapError_eq_ok, ih]

/-- A fold succeeds when every step does. -/
theorem exists_foldlM_eq_ok {f : β → α → Except ε β} {xs : List α}
    (h : ∀ x ∈ xs, ∀ b, ∃ b', f b x = .ok b') (start : β) :
    ∃ result, xs.foldlM f start = .ok result := by
  induction xs generalizing start with
  | nil => exact ⟨start, rfl⟩
  | cons x rest ih =>
      obtain ⟨next, hnext⟩ := h x List.mem_cons_self start
      obtain ⟨result, hresult⟩ := ih (fun y hy => h y (List.mem_cons_of_mem x hy)) next
      refine ⟨result, ?_⟩
      rw [List.foldlM_cons, hnext]
      exact hresult

/-- A successful traversal relates every element to its image. -/
theorem mapM_forall₂ {f : α → Except ε β} {xs : List α} {ys : List β}
    (h : xs.mapM f = .ok ys) : List.Forall₂ (fun x y => f x = .ok y) xs ys := by
  induction xs generalizing ys with
  | nil =>
      simp only [List.mapM_nil, pure, Except.pure, Except.ok.injEq] at h
      exact h ▸ .nil
  | cons x rest ih =>
      rw [List.mapM_cons, bind_eq_ok] at h
      obtain ⟨y, hy, h⟩ := h
      rw [bind_eq_ok] at h
      obtain ⟨zs, hzs, h⟩ := h
      simp only [pure, Except.pure, Except.ok.injEq] at h
      exact h ▸ .cons hy (ih hzs)

/-- A traversal succeeds when every step does. -/
theorem exists_mapM_eq_ok {f : α → Except ε β} {xs : List α} (h : ∀ x ∈ xs, ∃ y, f x = .ok y) :
    ∃ ys, xs.mapM f = .ok ys := by
  induction xs with
  | nil => exact ⟨[], rfl⟩
  | cons x rest ih =>
      obtain ⟨y, hy⟩ := h x List.mem_cons_self
      obtain ⟨ys, hys⟩ := ih fun z hz => h z (List.mem_cons_of_mem x hz)
      refine ⟨y :: ys, ?_⟩
      rw [List.mapM_cons, hy, hys]
      rfl

/-- A traversal of which every step succeeds is a map. -/
theorem mapM_eq_ok_map {f : α → Except ε β} {g : α → β} {xs : List α}
    (h : ∀ x ∈ xs, f x = .ok (g x)) : xs.mapM f = .ok (xs.map g) := by
  induction xs with
  | nil => rfl
  | cons x rest ih =>
      rw [List.mapM_cons, h x List.mem_cons_self, ih fun y hy => h y (List.mem_cons_of_mem x hy)]
      rfl

/-- A traversal fails like the first of its steps that fails. -/
theorem mapM_append_cons_eq_error {f : α → Except ε β} {g : α → β} {before after : List α} {x : α}
    {e : ε} (hbefore : ∀ y ∈ before, f y = .ok (g y)) (hx : f x = .error e) :
    (before ++ x :: after).mapM f = .error e := by
  rw [List.mapM_append, mapM_eq_ok_map hbefore, List.mapM_cons, hx]
  rfl

/-- A traversal of two lists, one behind the other, is one of the first and one of the second. -/
theorem mapM_append_eq_ok {f : α → Except ε β} {xs ys : List α} {zs : List β} :
    (xs ++ ys).mapM f = .ok zs ↔
      ∃ first second, xs.mapM f = .ok first ∧ ys.mapM f = .ok second ∧ zs = first ++ second := by
  simp only [List.mapM_append, bind_eq_ok, pure, Except.pure, Except.ok.injEq]
  constructor
  · rintro ⟨first, hfirst, second, hsecond, rfl⟩
    exact ⟨first, second, hfirst, hsecond, rfl⟩
  · rintro ⟨first, second, hfirst, hsecond, rfl⟩
    exact ⟨first, hfirst, second, hsecond, rfl⟩

/-- What a traversal gives in a place comes from the element in that place. -/
theorem exists_of_getElem?_mapM {f : α → Except ε β} {xs : List α} {ys : List β}
    (h : xs.mapM f = .ok ys) {k : Nat} {x : α} (hx : xs[k]? = some x) :
    ∃ y, ys[k]? = some y ∧ f x = .ok y := by
  have hall := mapM_forall₂ h
  clear h
  induction hall generalizing k with
  | nil => cases hx
  | @cons z y zs ys hfirst _ ih =>
      cases k with
      | zero =>
          obtain rfl : z = x := Option.some.inj hx
          exact ⟨y, rfl, hfirst⟩
      | succ k => exact ih hx

/-- What a traversal gives comes from one of its elements. -/
theorem exists_of_mem_mapM {f : α → Except ε β} {xs : List α} {ys : List β}
    (h : xs.mapM f = .ok ys) {y : β} (hy : y ∈ ys) : ∃ x ∈ xs, f x = .ok y := by
  have hall := mapM_forall₂ h
  clear h
  induction hall with
  | nil => cases hy
  | cons hfirst _ ih =>
      rcases List.mem_cons.mp hy with rfl | hy
      · exact ⟨_, List.mem_cons_self, hfirst⟩
      · obtain ⟨x, hx, hxy⟩ := ih hy
        exact ⟨x, List.mem_cons_of_mem _ hx, hxy⟩

end ChatCommands
