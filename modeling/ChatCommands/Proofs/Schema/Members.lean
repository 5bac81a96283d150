import ChatCommands.Dispatch.Tokens
import ChatCommands.Proofs.Schema.Returned
import ChatCommands.Proofs.Text.Lowercase

/-!
# Members on offer

The members of an enumeration are published as they were declared, and input is compared with
them without regard to case and separators.  So a member can be picked from the published ones
and can be typed as a word in many spellings, as long as no member before it has the same normal
form.  A member of several words cannot be typed with its blanks, since a parameter takes one
word.
-/

namespace ChatCommands

/-! ## Respellings -/

namespace Text

/-- Lowering the letters of ASCII leaves other characters as they are. -/
theorem toLower_of_not_ascii {c : Char} (h : 128 ≤ c.toNat) : c.toLower = c := by
  rw [← Char.ofNat_toNat c.toLower, toNat_toLower, if_neg (by omega), Char.ofNat_toNat]

theorem lowerForm_eq_of_toLower_eq {c d : Char} (h : c.toLower = d.toLower) :
    lowerForm c = lowerForm d := by
  have hcode := congrArg Char.toNat h
  rw [toNat_toLower, toNat_toLower] at hcode
  by_cases hascii : c.toNat < 128
  · have hascii' : d.toNat < 128 := by
      split at hcode <;> split at hcode <;> omega
    rw [lowerForm_of_ascii hascii, lowerForm_of_ascii hascii', h]
  · have hforeign : 128 ≤ d.toNat := by
      split at hcode <;> split at hcode <;> omega
    rw [toLower_of_not_ascii (Nat.not_lt.mp hascii), toLower_of_not_ascii hforeign] at h
    rw [h]

end Text

namespace Resolve

/-- A text is spelled in another way: with letters of ASCII in another case, and with underscores
and hyphens that come in or are left out. -/
inductive Respells : List Char → List Char → Prop
  | nil : Respells [] []
  | letter {c d : Char} {cs ds : List Char} :
      c.toLower = d.toLower → Respells cs ds → Respells (c :: cs) (d :: ds)
  | comesIn {joint : Char} {cs ds : List Char} :
      joint = '_' ∨ joint = '-' → Respells cs ds → Respells cs (joint :: ds)
  | leftOut {joint : Char} {cs ds : List Char} :
      joint = '_' ∨ joint = '-' → Respells cs ds → Respells (joint :: cs) ds

theorem isJoint_iff {c : Char} :
    isJoint c = true ↔ c.toNat = 95 ∨ c.toNat = 45 ∨ c.toNat = 32 := by
  have hcode : ∀ d : Char, c = d ↔ c.toNat = d.toNat := fun d => Char.toNat_inj.symm
  simp only [isJoint, Bool.or_eq_true, beq_iff_eq, hcode, or_assoc]
  rfl

theorem isJoint_eq_of_toLower_eq {c d : Char} (h : c.toLower = d.toLower) :
    isJoint c = isJoint d := by
  have hcode := congrArg Char.toNat h
  rw [Text.toNat_toLower, Text.toNat_toLower] at hcode
  rw [Bool.eq_iff_iff, isJoint_iff, isJoint_iff]
  split at hcode <;> split at hcode <;> omega

theorem isJoint_of_mark {joint : Char} (h : joint = '_' ∨ joint = '-') : isJoint joint = true := by
  rcases h with rfl | rfl <;> rfl

theorem Respells.lowerForms_eq {cs ds : List Char} (h : Respells cs ds) :
    (cs.filter fun c => !isJoint c).flatMap Text.lowerForm =
      (ds.filter fun c => !isJoint c).flatMap Text.lowerForm := by
  induction h with
  | nil => rfl
  | letter hletter _ ih =>
      rw [List.filter_cons, List.filter_cons, isJoint_eq_of_toLower_eq hletter]
      split
      · rw [List.flatMap_cons, List.flatMap_cons, ih, Text.lowerForm_eq_of_toLower_eq hletter]
      · exact ih
  | comesIn hjoint _ ih => rw [List.filter_cons_of_neg (by simp [isJoint_of_mark hjoint]), ih]
  | leftOut hjoint _ ih => rw [List.filter_cons_of_neg (by simp [isJoint_of_mark hjoint]), ih]

/-- Another spelling has the same normal form. -/
theorem normalForm_eq_of_respells {a b : String} (h : Respells a.toList b.toList) :
    normalForm a = normalForm b := by
  rw [normalForm, normalForm, h.lowerForms_eq]

/-- A text is judged to be the first member of its normal form. -/
theorem judgeMember_eq_ok_of_first {found : Enumeration} {piece : Piece} {i : Nat} {m : String}
    (hm : found.members[i]? = some m) (hform : normalForm m = normalForm piece.text)
    (hfirst : ∀ j < i, ∀ other, found.members[j]? = some other →
      normalForm other = normalForm m → other = m) :
    judgeMember found piece = .ok (.enumMember found.name m) := by
  have hsome : (found.members.find? (normalForm · == normalForm piece.text)).isSome = true :=
    List.find?_isSome.mpr ⟨m, List.mem_of_getElem? hm, beq_iff_eq.mpr hform⟩
  obtain ⟨first, hfound⟩ := Option.isSome_iff_exists.mp hsome
  obtain ⟨hsame, j, hj, hget, hbefore⟩ := List.find?_eq_some_iff_getElem.mp hfound
  -- The first of the form does not come after `m`, and before `m` there is none but `m` itself.
  obtain rfl : first = m := by
    rcases Nat.lt_trichotomy j i with hlt | rfl | hgt
    · refine hfirst j hlt first (List.getElem?_eq_some_iff.mpr ⟨hj, hget⟩) ?_
      rw [beq_iff_eq.mp hsame, hform]
    · exact hget.symm.trans (List.getElem?_eq_some_iff.mp hm).2
    · obtain ⟨hi, hget'⟩ := List.getElem?_eq_some_iff.mp hm
      have hrefused := hbefore i hgt
      rw [hget', hform] at hrefused
      simp at hrefused
  rw [judgeMember, hfound]

end Resolve

/-! ## What is published -/

namespace Schema

variable {table : ResolverTable} {p : Param} {name m : String} {i : Nat}

/-- Without choices of its own, a parameter offers the members of its enumeration. -/
theorem publishedValue?_named (htype : p.type = .named name) (hchoices : p.choices = []) (i : Nat) :
    publishedValue? table p i = ((table.members? name).getD [])[i]?.map Json.string := by
  have hoffered : offeredChoices table p = ((table.members? name).getD []).map fun m => ⟨m, m⟩ := by
    simp [offeredChoices, hchoices, htype]
  rw [publishedValue?_eq_offered, hoffered, List.getElem?_map, Option.map_map, htype]
  rfl

/-- A published text is a member in its place. -/
theorem publishedValue?_eq_string_iff (htype : p.type = .named name) (hchoices : p.choices = []) :
    publishedValue? table p i = some (.string m) ↔
      ∃ found, table.enums.find? name = some found ∧ found.members[i]? = some m := by
  rw [publishedValue?_named htype hchoices, ResolverTable.members?]
  cases table.enums.find? name with
  | none => simp
  | some found => simp

end Schema

/-! ## Picking a member -/

theorem ResolverTable.IsStandard.find?_named {t : ResolverTable} (ht : t.IsStandard) {name : String}
    {found : Enumeration} (hfound : t.enums.find? name = some found) :
    t.find? (.named name) = some (Resolve.fromInput Resolve.enumeration) := by
  simp [find?, ht.own?_eq, standard?, hfound]

/-- The input of a parameter is a member: sent back as it was published, or typed as one word in
some spelling. -/
inductive Input.Gives (name m : String) : Input → Prop
  | sent {given : List TypedOption} {option : TypedOption} :
      (Input.options given).Offers name option → option.value = .string m →
        Gives name m (.options given)
  | typed {source : String} {token : Token} {tokens : List Token} :
      Resolve.Respells m.toList token.text.toList → Gives name m (.text source (token :: tokens))

namespace Environment

open Supply Resolve Schema

variable {env : Environment} {invocation : Invocation} {p : Param} {r : Resolver} {isLast : Bool}
  {input : Input} {name m : String} {i : Nat}

theorem exists_pop_of_gives (h : input.Gives name m) :
    ∃ piece rest, pop { input } name = (some piece, rest) ∧
      normalForm m = normalForm piece.text := by
  cases h with
  | sent hoffers hvalue =>
      obtain ⟨rest, hpop⟩ := pop_of_offers hoffers
      rw [hvalue] at hpop
      exact ⟨_, rest, hpop, rfl⟩
  | typed hspelled => exact ⟨_, _, rfl, normalForm_eq_of_respells hspelled⟩

/-- A published member is what its parameter gets from it, sent back or typed as a word in some
spelling, if no member before it has the same normal form. -/
theorem selects_of_gives {enums : List (String × List String)}
    (hresolvers : env.resolvers = .withEnums enums) (htype : p.type = .named name)
    (hchoices : p.choices = [])
    (hm : publishedValue? env.resolvers p i = some (.string m))
    (hfirst : ∀ j < i, ∀ other, publishedValue? env.resolvers p j = some (.string other) →
      normalForm other = normalForm m → other = m)
    (hinput : input.Gives p.name m) (invocation : Invocation) (isLast : Bool) :
    ∃ found r rest, env.resolvers.enums.find? name = some found ∧
      env.resolvers.find? p.type = some r ∧
      r.run (env.slot invocation p isLast) { input } = (.ok (.enumMember found.name m), rest) ∧
      (p.conditions = [] → env.permits invocation p = true →
        env.resolveParam invocation p r isLast input =
          .ok (some (.enumMember found.name m, rest.input))) := by
  have ht : env.resolvers.IsStandard := hresolvers ▸ ResolverTable.isStandard_withEnums enums
  obtain ⟨found, hfound, hmember⟩ := (publishedValue?_eq_string_iff htype hchoices).mp hm
  obtain ⟨piece, rest, hpop, hform⟩ := exists_pop_of_gives hinput
  have hr : env.resolvers.find? p.type = some (fromInput enumeration) :=
    htype ▸ ht.find?_named hfound
  have hjudged : judgeMember found piece = .ok (.enumMember found.name m) := by
    refine judgeMember_eq_ok_of_first hmember hform fun j hj other hother => hfirst j hj other ?_
    exact (publishedValue?_eq_string_iff htype hchoices).mpr ⟨found, hfound, hother⟩
  have hrun : (fromInput enumeration).run (env.slot invocation p isLast) { input } =
      (.ok (.enumMember found.name m), rest) := by
    simp only [fromInput, enumeration, slot, htype, hfound, Slot.withPiece, hpop, hjudged]
    rfl
  refine ⟨found, _, rest, hfound, hr, hrun, fun hconditions hpermits => ?_⟩
  have hgiven : hasInput { input } p.name = true := by
    rw [← pop_fst_isSome, hpop]
    rfl
  rw [resolveParam_eq_accept hchoices hpermits rfl hgiven, hrun,
    accept_of_unconditional hconditions]

/-- A color. -/
def color : Param :=
  ⟨"color", .named "color", false, none, Dict.empty, Dict.empty, [], [], none, none, none, none,
    none⟩

/-- The draft of the color. -/
def colorDraft : ParamDraft where
  name := "color"
  type := .named "color"

/-- A member is typed with a hyphen, and in another case. -/
theorem selects_green :
    color.IsDeclared ∧ publishedValue? painting.resolvers color 1 = some (.string "Green") ∧
      ∃ found rest, painting.resolvers.enums.find? "color" = some found ∧
        painting.resolveParam aside color (fromInput enumeration) true
            (.text "g-REEN" [⟨"g-REEN", ⟨0, 6⟩⟩]) =
          .ok (some (.enumMember found.name "Green", rest)) := by
  have hresolvers : painting.resolvers = .withEnums [("Color", ["Red", "Green"])] := rfl
  have hm : publishedValue? painting.resolvers color 1 = some (.string "Green") := rfl
  have hfirst : ∀ j < 1, ∀ other,
      publishedValue? painting.resolvers color j = some (.string other) →
        normalForm other = normalForm "Green" → other = "Green" := by
    intro j hj other hother hform
    obtain rfl : j = 0 := Nat.lt_one_iff.mp hj
    have hred : publishedValue? painting.resolvers color 0 = some (.string "Red") := rfl
    obtain rfl : "Red" = other := Json.string.inj (Option.some.inj (hred.symm.trans hother))
    exact absurd hform (by decide +kernel)
  have hspelled : Respells "Green".toList "g-REEN".toList :=
    .letter rfl (.comesIn (.inr rfl) (.letter rfl (.letter rfl (.letter rfl (.letter rfl .nil)))))
  have hgives : Input.Gives color.name "Green" (.text "g-REEN" [⟨"g-REEN", ⟨0, 6⟩⟩]) :=
    .typed hspelled
  obtain ⟨found, r, rest, hfound, hr, -, hresolved⟩ :=
    selects_of_gives hresolvers rfl rfl hm hfirst hgives aside true
  obtain rfl : fromInput enumeration = r := Option.some.inj hr
  exact ⟨⟨colorDraft, rfl⟩, hm, found, rest.input, hfound, hresolved rfl rfl⟩

/-- An enumeration with a member of two words, and with another that reads the same. -/
def shades : Environment :=
  ofWorld .empty [("Color", ["dark blue", "DarkBlue"])]

/-- A member of two words is refused when it is typed, since only the first word is taken, and the
second of two members that read the same gives the first. -/
theorem not_selects_shades :
    color.IsDeclared ∧ color.choices = [] ∧
      publishedValue? shades.resolvers color 0 = some (.string "dark blue") ∧
      publishedValue? shades.resolvers color 1 = some (.string "DarkBlue") ∧
      (∃ e, (enumeration (shades.slot aside color true)
        { input := .text "dark blue" (Tokens.ofText "dark blue") }).1 = .error e ∧
          e.cause = .invalidArgument "color" (.notAChoice "dark" ["dark blue", "DarkBlue"])) ∧
      (enumeration (shades.slot aside color true)
          { input := .options [⟨"color", .string "DarkBlue"⟩] }).1 =
        .ok (.enumMember "Color" "dark blue") := by
  refine ⟨⟨colorDraft, rfl⟩, rfl, rfl, rfl, ⟨_, rfl, ?_⟩, rfl⟩
  exact cause_refuse _ _ _

end Environment

end ChatCommands
