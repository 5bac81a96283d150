import ChatCommands.Dispatch.Reply
import ChatCommands.Proofs.Command.Declared
import ChatCommands.Proofs.Param.Notation
import ChatCommands.Resolve.Standard

/-!
# Usage lines are signatures

A usage line shows the parameters of a command in the notation in which they can be declared.
Types and defaults are left out, and a parameter with a default is shown as an optional one; what
is left is written like any other signature, with one space in front of each parameter, and so
it is read back.
-/

namespace ChatCommands

namespace Signature

/-! ## Names that are read -/

section Names

variable {c : Char} {cs rest : List Char} {s : String} {item : Item} {items : List Item}

theorem isNameChar_iff : isNameChar c = true ↔
    (48 ≤ c.toNat ∧ c.toNat ≤ 57) ∨ (65 ≤ c.toNat ∧ c.toNat ≤ 90) ∨
      (97 ≤ c.toNat ∧ c.toNat ≤ 122) ∨ c.toNat = 95 ∨ c.toNat = 45 := by
  have hupper : c.isUpper = true ↔ 65 ≤ c.toNat ∧ c.toNat ≤ 90 := decide_eq_true_iff
  have hlower : c.isLower = true ↔ 97 ≤ c.toNat ∧ c.toNat ≤ 122 :=
    Bool.and_eq_true_iff.trans (and_congr decide_eq_true_iff decide_eq_true_iff)
  have hdigit : c.isDigit = true ↔ 48 ≤ c.toNat ∧ c.toNat ≤ 57 :=
    Bool.and_eq_true_iff.trans (and_congr decide_eq_true_iff decide_eq_true_iff)
  have hchar : ∀ d : Char, (c == d) = true ↔ c.toNat = d.toNat := fun d =>
    beq_iff_eq.trans ⟨congrArg Char.toNat, fun h => Char.ext (UInt32.toNat_inj.mp h)⟩
  have hline : (c == '_') = true ↔ c.toNat = 95 := hchar '_'
  have hdash : (c == '-') = true ↔ c.toNat = 45 := hchar '-'
  have hsplit : isNameChar c =
      (((c.isUpper || c.isLower) || c.isDigit) || c == '_' || c == '-') := rfl
  rw [hsplit, Bool.or_eq_true, Bool.or_eq_true, Bool.or_eq_true, Bool.or_eq_true, hupper, hlower,
    hdigit, hline, hdash]
  omega

theorem isName_of_readName? (h : readName? cs = some (s, rest)) : IsName s := by
  simp only [readName?] at h
  split at h
  next => cases h
  next hempty =>
    obtain ⟨rfl, -⟩ := Prod.mk.inj (Option.some.inj h)
    rw [List.span_eq_takeWhile_dropWhile] at hempty ⊢
    constructor
    · simpa using hempty
    · intro c hc
      rw [String.toList_ofList] at hc
      exact List.mem_takeWhile_imp hc

theorem isName_of_readItem? {optional : Bool} (h : readItem? optional cs = some (item, rest)) :
    IsName item.name := by
  simp only [readItem?, Option.bind_eq_bind, Option.bind_eq_some_iff] at h
  obtain ⟨⟨name, behind⟩, hname, h⟩ := h
  split at h
  next =>
    simp only [pure, Option.ite_none_right_eq_some, Option.some.injEq, Prod.mk.injEq] at h
    obtain ⟨-, rfl, -⟩ := h
    exact isName_of_readName? hname
  next => cases h

theorem isName_of_readItems? {fuel : Nat} (h : readItems? fuel cs = some items) :
    ∀ item ∈ items, IsName item.name := by
  induction fuel generalizing cs items with
  | zero => cases h
  | succ fuel ih =>
      have hcons : ∀ {optional rest}, (readItem? optional rest).bind (fun found =>
          (readItems? fuel found.2).bind fun items => some (found.1 :: items)) = some items →
            ∀ item ∈ items, IsName item.name := by
        intro optional rest h
        simp only [Option.bind_eq_some_iff] at h
        obtain ⟨⟨first, behind⟩, hfirst, others, hothers, h⟩ := h
        rw [← Option.some.inj h]
        simp only [List.forall_mem_cons]
        exact ⟨isName_of_readItem? hfirst, ih hothers⟩
      rw [readItems?] at h
      split at h
      next =>
        rw [← Option.some.inj h]
        exact fun item hitem => absurd hitem List.not_mem_nil
      next => exact hcons h
      next => exact hcons h
      next => cases h

theorem Item.name_draft {draft : ParamDraft} (h : item.draft = .ok draft) :
    draft.name = item.name := by
  rw [Item.draft, bind_eq_ok] at h
  obtain ⟨type, -, h⟩ := h
  exact (congrArg ParamDraft.name (Except.ok.inj h)).symm

/-- Every parameter of a signature has a name in the notation of signatures. -/
theorem isName_of_read {signature : String} {drafts : List ParamDraft}
    (h : read signature = .ok drafts) : ∀ draft ∈ drafts, IsName draft.name := by
  rw [read] at h
  split at h
  next =>
    rw [← Except.ok.inj h]
    exact fun draft hdraft => absurd hdraft List.not_mem_nil
  next =>
    split at h
    next items hitems =>
      intro draft hdraft
      obtain ⟨item, hitem, hread⟩ := exists_of_mem_mapM h hdraft
      rw [Item.name_draft hread]
      exact isName_of_readItems? hitems item hitem
    next => cases h

/-- A name stays one in lowercase. -/
theorem IsName.lower (h : IsName s) : IsName (Text.lower s) := by
  have hascii : ∀ c ∈ s.toList, c.toNat < 128 := by
    intro c hc
    have hcases := isNameChar_iff.mp (h.isNameChar c hc)
    omega
  rw [Text.lower_of_ascii hascii, Text.asciiLower]
  constructor
  · simpa using h.ne_nil
  · intro d hd
    rw [String.toList_ofList] at hd
    obtain ⟨c, hc, rfl⟩ := List.mem_map.mp hd
    have hcases := isNameChar_iff.mp (h.isNameChar c hc)
    rw [isNameChar_iff, Text.toNat_toLower]
    split <;> omega

end Names

end Signature

/-! ## Parameters that are shown -/

namespace Param

variable (p : Param)

/-- What a usage line says of a parameter. -/
def shown : Signature.Item where
  optional := !p.requiresInput
  name := p.name
  type := none
  default := none
  variadic := p.type.isVariadic

/-- A draft that says the same of a parameter as its entry in a usage line. -/
structure IsRetoldBy (draft : ParamDraft) : Prop where
  name : draft.name = p.name
  optional : draft.optional = true ↔ p.requiresInput = false
  strings : draft.type = .strings ↔ p.type = .strings

variable {p}

theorem isRetoldBy_meaning : p.IsRetoldBy p.shown.meaning := by
  refine ⟨rfl, by simp [shown, Signature.Item.meaning], ?_⟩
  cases htype : p.type <;> simp [shown, Signature.Item.meaning, Signature.Item.declared, htype,
    ParamType.isVariadic]

theorem draft_shown : p.shown.draft = .ok p.shown.meaning :=
  Signature.Item.draft_of_repeatable fun _ => .inl rfl

end Param

namespace Signature

/-- A parameter of a usage line, as one that can be written down. -/
def Spec.shown (p : Param) (h : IsName p.name) : Spec where
  toItem := p.shown
  isName := h
  isTypeName := fun _ h => by cases h
  isDefault := fun _ h => by cases h

/-- A space before the parameter, and no other gaps. -/
def Spacing.apart : Spacing :=
  { Spacing.tight with before := .space }

theorem write_shown (p : Param) :
    p.shown.write .apart = " ".toList ++ (Reply.paramUsage p).toList := by
  simp only [Item.write, Item.behindName, Item.behindType, Item.behindDefault, Item.opening,
    Item.closing, Param.shown, Spacing.apart, Spacing.tight, Gap.space, Gap.none,
    Reply.paramUsage]
  by_cases hrequired : p.requiresInput = true <;> by_cases hvariadic : p.type.isVariadic = true <;>
    simp [hrequired, hvariadic]

/-- The parameters of a usage line are written down one by one. -/
theorem exists_write_shown {params : List Param} (h : ∀ p ∈ params, IsName p.name) :
    ∃ specs : List (Spec × Spacing), specs.map (·.1.toItem) = params.map Param.shown ∧
      specs.flatMap (fun w => w.1.write w.2) =
        params.flatMap fun p => " ".toList ++ (Reply.paramUsage p).toList := by
  induction params with
  | nil => exact ⟨[], rfl, rfl⟩
  | cons p params ih =>
      obtain ⟨hname, hnames⟩ := List.forall_mem_cons.mp h
      obtain ⟨specs, hitems, hwrite⟩ := ih hnames
      refine ⟨(Spec.shown p hname, .apart) :: specs, ?_, ?_⟩
      · rw [List.map_cons, List.map_cons, hitems]
        rfl
      · rw [List.flatMap_cons, List.flatMap_cons, hwrite, ← write_shown]
        rfl

theorem read_shown {params : List Param} (h : ∀ p ∈ params, IsName p.name) :
    read (String.ofList (params.flatMap fun p => " ".toList ++ (Reply.paramUsage p).toList)) =
      .ok (params.map (·.shown.meaning)) := by
  obtain ⟨specs, hitems, hwrite⟩ := exists_write_shown h
  have htext := read_write_eq_mapM specs .none
  rw [hitems, List.mapM_map, mapM_eq_ok_map fun p _ => p.draft_shown] at htext
  rw [← hwrite, ← htext, write, Gap.none, List.append_nil]

end Signature

/-- Behind its path, a usage line is a signature: it is read as parameters of the same names, of
which those are optional that require no input, and those are lists of texts that were. -/
theorem Reply.read_usageLine {signature : String} {drafts : List ParamDraft}
    (hread : Signature.read signature = .ok drafts) {draft : CommandDraft}
    (hparams : draft.params = []) {c : Command}
    (hbuild : (draft.withSignature signature).build = .ok c) {table : ResolverTable}
    (hinput : ∀ p ∈ c.params, table.isIssuerOnly p = false) (trigger : String) :
    ∃ rest again, usageLine trigger table c.toCommandInfo = trigger ++ c.qualifiedName ++ rest ∧
      Signature.read rest = .ok again ∧ List.Forall₂ Param.IsRetoldBy c.params again ∧
      c.params.map (·.name) = drafts.map fun d => Text.lower d.name := by
  have hdrafts : (draft.withSignature signature).params = drafts := by
    simp [CommandDraft.withSignature, hread, hparams]
  obtain ⟨-, -, -, hfold, -⟩ := CommandDraft.build_eq_ok hbuild
  rw [hdrafts] at hfold
  obtain ⟨added, hadded, hbuilt⟩ := CommandDraft.exists_of_foldlM_addParam hfold
  rw [List.nil_append] at hadded
  subst hadded
  have hnames : c.params.map (·.name) = drafts.map fun d => Text.lower d.name := by
    rw [← List.forall₂_eq_eq_eq, List.forall₂_map_left_iff, List.forall₂_map_right_iff]
    exact hbuilt.flip.imp fun _ _ h => ParamDraft.name_build h
  have hnotation : ∀ p ∈ c.params, Signature.IsName p.name := by
    intro p hp
    have hmem : p.name ∈ drafts.map fun d => Text.lower d.name := hnames ▸ List.mem_map_of_mem hp
    obtain ⟨d, hd, hname⟩ := List.mem_map.mp hmem
    rw [← hname]
    exact (Signature.isName_of_read hread d hd).lower
  refine ⟨_, _, ?_, Signature.read_shown hnotation, ?_, hnames⟩
  · rw [usageLine, List.filter_eq_self.mpr fun p hp => by simp [hinput p hp], Text.join_cons,
      List.flatMap_map]
  · rw [List.forall₂_map_right_iff]
    exact List.forall₂_same.mpr fun p _ => p.isRetoldBy_meaning

/-- The draft of a command without parameters. -/
def mix : CommandDraft where
  path := "paint mix"
  description := "Mixes"
  handler := some Handler.idle

/-- Defaults and types do not come back; the dots do. -/
theorem Reply.read_usageLine_mix :
    ∃ c, (mix.withSignature "<Amount:int=1> [unit = kg] <paint:Color> <Words...>").build = .ok c ∧
      usageLine "!" (.withEnums [("Color", ["Red", "Green"])]) c.toCommandInfo =
        "!paint mix [amount] [unit] <paint> <words...>" ∧
      ∃ again, Signature.read " [amount] [unit] <paint> <words...>" = .ok again ∧
        List.Forall₂ Param.IsRetoldBy c.params again ∧
        c.params.map (·.name) = ["amount", "unit", "paint", "words"] := by
  let signature := "<Amount:int=1> [unit = kg] <paint:Color> <Words...>"
  let table := ResolverTable.withEnums [("Color", ["Red", "Green"])]
  have hok : ((mix.withSignature signature).build.toOption.map fun c =>
      (c.qualifiedName, usageLine "!" table c.toCommandInfo, c.params.map (·.name),
        c.params.all fun p => !table.isIssuerOnly p)) =
    some ("paint mix", "!paint mix [amount] [unit] <paint> <words...>",
      ["amount", "unit", "paint", "words"], true) := by decide +kernel
  obtain ⟨c, hbuild, h⟩ := Option.map_eq_some_iff.mp hok
  have hbuild := toOption_eq_some_iff.mp hbuild
  simp only [Prod.mk.injEq] at h
  obtain ⟨hname, hline, hnames, hall⟩ := h
  have hinput : ∀ p ∈ c.params, table.isIssuerOnly p = false := by simpa using hall
  have hread : (Signature.read signature).isOk = true := by decide +kernel
  obtain ⟨drafts, hdrafts⟩ := exists_eq_ok hread
  obtain ⟨rest, again, husage, hagain, hsame, -⟩ :=
    read_usageLine hdrafts rfl hbuild hinput "!"
  have hrest : "!" ++ "paint mix" ++ rest =
      "!" ++ "paint mix" ++ " [amount] [unit] <paint> <words...>" := by
    rw [← hname, ← husage, hline, hname]
    rfl
  obtain rfl := (String.append_right_inj _).mp hrest
  exact ⟨c, hbuild, hline, again, hagain, hsame, hnames⟩

end ChatCommands
