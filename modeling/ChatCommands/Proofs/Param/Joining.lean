import ChatCommands.Proofs.Dict
import ChatCommands.Proofs.Param.Declared
import ChatCommands.Proofs.Text.FileName

/-!
# Joined declaration strings

Two declaration strings with the separator between them are read entry by entry, first those of
the one and then those of the other.  So flags and conditions may be declared in one string or in
several.  Choices may as long as no label is declared on both sides.
-/

namespace ChatCommands

theorem Text.splitOn_append {separator : Char} {joint : String}
    (hjoint : joint.toList = [separator]) (a b : String) :
    splitOn separator (a ++ joint ++ b) = splitOn separator a ++ splitOn separator b := by
  have hpieces : pieces (· == separator) (a.toList ++ separator :: b.toList) =
      pieces (· == separator) a.toList ++ pieces (· == separator) b.toList := by
    apply pieces_append_cons
    exact beq_self_eq_true separator
  rw [splitOn, String.toList_append, String.toList_append, hjoint, List.append_assoc,
    List.singleton_append, hpieces, List.map_append, ← splitOn, ← splitOn]

namespace Declaration

variable {spec entry : String}

theorem entries_append {separator : Char} {joint : String} (hjoint : joint.toList = [separator])
    (a b : String) :
    entries separator (a ++ joint ++ b) = entries separator a ++ entries separator b := by
  rw [entries, Text.splitOn_append hjoint, List.map_append, List.filter_append, ← entries,
    ← entries]

/-! ## Flags -/

/-- The flags of a joined string are those of the first part under those of the second.  An error
of the first part goes before one of the second. -/
theorem readFlags_append (a b : String) :
    readFlags (a ++ "," ++ b) = do
      let first ← readFlags a
      let second ← readFlags b
      return first.insertAll second.entries := by
  rw [readFlags, entries_append rfl, List.mapM_append, readFlags, readFlags]
  cases (entries ',' a).mapM readFlag with
  | error fault => rfl
  | ok as =>
      cases (entries ',' b).mapM readFlag with
      | error fault => rfl
      | ok bs =>
          have hover : Dict.ofList (as ++ bs) =
              (Dict.ofList as).insertAll (Dict.ofList bs).entries := by
            rw [Dict.insertAll_ofList, Dict.ofList, Dict.insertAll_append]
            rfl
          exact congrArg Except.ok hover

/-- The keys of the second part have the values that it gives them, and the others those that the
first part does. -/
theorem readFlags_append_eq_ok_iff {a b : String} {flags : Dict String} :
    readFlags (a ++ "," ++ b) = .ok flags ↔
      ∃ first second, readFlags a = .ok first ∧ readFlags b = .ok second ∧
        flags = first.insertAll second.entries ∧
        ∀ key, flags.get? key = (second.get? key).or (first.get? key) := by
  simp only [readFlags_append, bind_eq_ok, pure, Except.pure, Except.ok.injEq]
  constructor
  · rintro ⟨first, hfirst, second, hsecond, rfl⟩
    exact ⟨first, second, hfirst, hsecond, rfl, first.get?_insertAll_entries second⟩
  · rintro ⟨first, second, hfirst, hsecond, rfl, -⟩
    exact ⟨first, hfirst, second, hsecond, rfl⟩

/-! ## Conditions -/

theorem readConditions_append_eq_ok_iff {a b : String} {conditions : List ConditionUse} :
    readConditions (a ++ "|" ++ b) = .ok conditions ↔
      ∃ first second, readConditions a = .ok first ∧ readConditions b = .ok second ∧
        conditions = first ++ second := by
  rw [readConditions, entries_append rfl, mapM_append_eq_ok]
  rfl

/-! ## Choices -/

/-- Choices that may be declared together: their labels differ in more than case. -/
def Apart (x y : Choice) : Prop :=
  Text.caselessEq x.label y.label = false

theorem addChoice_eq_ok_iff {before after : List Choice} :
    addChoice before entry = .ok after ↔
      ∃ choice, readChoice entry = .ok choice ∧ (∀ x ∈ before, Apart x choice) ∧
        after = before ++ [choice] := by
  rw [addChoice, bind_eq_ok]
  refine exists_congr fun choice => and_congr_right fun _ => ?_
  have hapart : (¬ (before.any fun other => Text.caselessEq other.label choice.label) = true) ↔
      ∀ x ∈ before, Apart x choice := by
    simp [Apart]
  have hadded : (pure (before ++ [choice]) : Except DeclarationFault (List Choice)) = .ok after ↔
      after = before ++ [choice] :=
    ⟨fun h => (Except.ok.inj h).symm, fun h => congrArg Except.ok h.symm⟩
  rw [check_eq_ok, hapart, hadded]

/-- Choices are added behind others if every entry is one and no label is declared twice. -/
theorem foldlM_addChoice_eq_ok_iff {es : List String} {before after : List Choice} :
    es.foldlM addChoice before = .ok after ↔
      ∃ added, es.mapM readChoice = .ok added ∧ added.Pairwise Apart ∧
        (∀ x ∈ before, ∀ y ∈ added, Apart x y) ∧ after = before ++ added := by
  induction es generalizing before with
  | nil => simp [pure, Except.pure, eq_comm]
  | cons entry es ih =>
      simp only [List.foldlM_cons, bind_eq_ok, addChoice_eq_ok_iff, ih, List.mapM_cons, pure,
        Except.pure, Except.ok.injEq]
      constructor
      · rintro ⟨_, ⟨choice, hchoice, hbefore, rfl⟩, added, hadded, hpairs, hapart, rfl⟩
        obtain ⟨hothers, hfirst⟩ := List.forall_mem_append.mp hapart
        refine ⟨choice :: added, ⟨choice, hchoice, added, hadded, rfl⟩, ?_, ?_, ?_⟩
        · exact hpairs.cons (List.forall_mem_singleton.mp hfirst)
        · exact fun x hx => List.forall_mem_cons.mpr ⟨hbefore x hx, hothers x hx⟩
        · rw [List.append_assoc, List.singleton_append]
      · rintro ⟨_, ⟨choice, hchoice, added, hadded, rfl⟩, hpairs, hapart, rfl⟩
        obtain ⟨hfirst, hpairs⟩ := List.pairwise_cons.mp hpairs
        have hbefore : ∀ x ∈ before, Apart x choice ∧ ∀ y ∈ added, Apart x y :=
          fun x hx => List.forall_mem_cons.mp (hapart x hx)
        refine ⟨before ++ [choice], ⟨choice, hchoice, fun x hx => (hbefore x hx).1, rfl⟩,
          added, hadded, hpairs, ?_, ?_⟩
        · exact List.forall_mem_append.mpr
            ⟨fun x hx => (hbefore x hx).2, List.forall_mem_singleton.mpr hfirst⟩
        · rw [List.append_assoc, List.singleton_append]

theorem readChoices_eq_ok_iff {choices : List Choice} :
    readChoices spec = .ok choices ↔
      (entries ',' spec).mapM readChoice = .ok choices ∧ choices.Pairwise Apart := by
  rw [readChoices, foldlM_addChoice_eq_ok_iff]
  constructor
  · rintro ⟨added, hadded, hpairs, -, rfl⟩
    exact ⟨hadded, hpairs⟩
  · rintro ⟨hchoices, hpairs⟩
    exact ⟨choices, hchoices, hpairs, List.forall_mem_nil _, rfl⟩

theorem readChoices_append_eq_ok_iff {a b : String} {choices : List Choice} :
    readChoices (a ++ "," ++ b) = .ok choices ↔
      ∃ first second, readChoices a = .ok first ∧ readChoices b = .ok second ∧
        (∀ x ∈ first, ∀ y ∈ second, Apart x y) ∧ choices = first ++ second := by
  rw [readChoices_eq_ok_iff, entries_append rfl, mapM_append_eq_ok]
  simp only [readChoices_eq_ok_iff]
  constructor
  · rintro ⟨⟨first, second, hfirst, hsecond, rfl⟩, hpairs⟩
    obtain ⟨hpairs, hpairs', hapart⟩ := List.pairwise_append.mp hpairs
    exact ⟨first, second, ⟨hfirst, hpairs⟩, ⟨hsecond, hpairs'⟩, hapart, rfl⟩
  · rintro ⟨first, second, ⟨hfirst, hpairs⟩, ⟨hsecond, hpairs'⟩, hapart, rfl⟩
    exact ⟨⟨first, second, hfirst, hsecond, rfl⟩,
      List.pairwise_append.mpr ⟨hpairs, hpairs', hapart⟩⟩

end Declaration

namespace ParamDraft

/-- Reads a string of flags over those that were read before. -/
def overlay (flags : Dict String) (spec : String) : Except DeclarationFault (Dict String) := do
  return flags.insertAll (← Declaration.readFlags spec).entries

theorem readFlags_eq (d : ParamDraft) : d.readFlags = d.flags.foldlM overlay Dict.empty := rfl

/-- A joined string of flags is read like its parts, one after the other. -/
theorem overlay_append (flags : Dict String) (a b : String) :
    overlay flags (a ++ "," ++ b) = overlay flags a >>= fun flags => overlay flags b := by
  rw [overlay, overlay, Declaration.readFlags_append]
  cases Declaration.readFlags a with
  | error fault => rfl
  | ok first =>
      simp only [overlay]
      cases Declaration.readFlags b with
      | error fault => rfl
      | ok second => exact congrArg Except.ok (flags.insertAll_insertAll first second).symm

theorem foldl_withFlags (d : ParamDraft) (specs : List String) :
    specs.foldl withFlags d = { d with flags := d.flags ++ specs } := by
  induction specs generalizing d with
  | nil => rw [List.append_nil, List.foldl_nil]
  | cons spec specs ih =>
      rw [List.foldl_cons, ih, withFlags, List.append_assoc, List.singleton_append]

/-- Only what is read from the strings of flags makes a difference to what is built. -/
theorem build_congr {d : ParamDraft} {specs specs' : List String}
    (h : specs.foldlM overlay Dict.empty = specs'.foldlM overlay Dict.empty) :
    { d with flags := specs }.build = { d with flags := specs' }.build := by
  rw [build, build, readFlags_eq, readFlags_eq, h]

/-- Two strings of flags that are declared one after the other are as good as the joined one. -/
theorem build_withFlags_withFlags (d : ParamDraft) (a b : String) (later : List String) :
    (later.foldl withFlags ((d.withFlags a).withFlags b)).build =
      (later.foldl withFlags (d.withFlags (a ++ "," ++ b))).build := by
  rw [foldl_withFlags, foldl_withFlags]
  apply build_congr
  simp only [withFlags, List.foldlM_append, List.foldlM_cons, List.foldlM_nil, overlay_append,
    bind_assoc, bind_pure]

end ParamDraft

/-- Reading commutes with joining: flags of the second string go before those of the first, as if
they were declared by a further call; conditions and choices of the second stand behind those of
the first, and no label of a choice stands on both sides. -/
theorem Declaration.reads_joined_iff (a b : String) :
    (∀ flags, readFlags (a ++ "," ++ b) = .ok flags ↔
      ∃ first second, readFlags a = .ok first ∧ readFlags b = .ok second ∧
        flags = first.insertAll second.entries ∧
        ∀ key, flags.get? key = (second.get? key).or (first.get? key)) ∧
    (∀ (d : ParamDraft) (later : List String),
      (later.foldl ParamDraft.withFlags ((d.withFlags a).withFlags b)).build =
        (later.foldl ParamDraft.withFlags (d.withFlags (a ++ "," ++ b))).build) ∧
    (∀ conditions, readConditions (a ++ "|" ++ b) = .ok conditions ↔
      ∃ first second, readConditions a = .ok first ∧ readConditions b = .ok second ∧
        conditions = first ++ second) ∧
    ∀ choices, readChoices (a ++ "," ++ b) = .ok choices ↔
      ∃ first second, readChoices a = .ok first ∧ readChoices b = .ok second ∧
        (∀ x ∈ first, ∀ y ∈ second, Text.caselessEq x.label y.label = false) ∧
        choices = first ++ second :=
  ⟨fun _ => readFlags_append_eq_ok_iff, fun d later => d.build_withFlags_withFlags a b later,
    fun _ => readConditions_append_eq_ok_iff, fun _ => readChoices_append_eq_ok_iff⟩

end ChatCommands
