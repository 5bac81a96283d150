import ChatCommands.Proofs.Param.Declared
import ChatCommands.Proofs.Resolve.Refusals
import ChatCommands.Proofs.Resolve.TypedEntity
import ChatCommands.Proofs.Schema.Shape

/-!
# Published limits of integers

The limits that are published for an integer parameter are those that its resolver keeps,
as far as they fit into a 64-bit word.  A limit beyond is brought into the word before it is
published, and the resolver does without that.  So it refuses the word at the end of the
range although nothing that is published speaks against it.
-/

namespace ChatCommands

/-- The limits of a parameter, rounded to the inside, let an integer pass. -/
def Param.InBounds (p : Param) (n : Int) : Prop :=
  (∀ b, p.minBound = some b → b.ceil ≤ n) ∧ ∀ b, p.maxBound = some b → n ≤ b.floor

/-- A limit shuts out all 64-bit words, the integer is the word next to it, and the other
limit has nothing against this word. -/
def Param.Overshoots (p : Param) (n : Int) : Prop :=
  p.type = .integer .w64 ∧
    ((n = Numeral.maxInt64 ∧ (∃ b, p.minBound = some b ∧ Numeral.maxInt64 < b.ceil) ∧
        ∀ b, p.maxBound = some b → Numeral.maxInt64 ≤ b.floor) ∨
      (n = Numeral.minInt64 ∧ (∃ b, p.maxBound = some b ∧ b.floor < Numeral.minInt64) ∧
        ∀ b, p.minBound = some b → b.ceil ≤ Numeral.minInt64))

namespace Numeral

variable {n : Int}

theorem clampInt64_le_iff (h : minInt64 ≤ n ∧ n ≤ maxInt64) (limit : Int) :
    clamp minInt64 maxInt64 limit ≤ n ↔
      limit ≤ n ∨ (n = maxInt64 ∧ maxInt64 < limit) := by
  simp only [clamp, minInt64, maxInt64] at h ⊢
  omega

theorem le_clampInt64_iff (h : minInt64 ≤ n ∧ n ≤ maxInt64) (limit : Int) :
    n ≤ clamp minInt64 maxInt64 limit ↔
      n ≤ limit ∨ (n = minInt64 ∧ limit < minInt64) := by
  simp only [clamp, minInt64, maxInt64] at h ⊢
  omega

end Numeral

namespace Width

variable {w : Width} {n : Int}

theorem le_w64 (h : w.low ≤ n ∧ n ≤ w.high) :
    Numeral.minInt64 ≤ n ∧ n ≤ Numeral.maxInt64 := by
  cases w <;> simp only [low, high, Numeral.minInt64, Numeral.maxInt64] at h ⊢ <;> omega

/-- Only the widest integers get to an end of the 64-bit range. -/
theorem eq_w64 (h : w.low ≤ n ∧ n ≤ w.high)
    (hend : n = Numeral.maxInt64 ∨ n = Numeral.minInt64) : w = .w64 := by
  cases w <;>
    simp only [low, high, Numeral.minInt64, Numeral.maxInt64, reduceCtorEq] at h hend ⊢ <;>
    omega

end Width

/-! ## What the resolver keeps -/

namespace Resolve

variable {p : Param} {w : Width} {piece : Piece} {n : Int}

theorem leastInteger_le_iff (htype : p.type = .integer w) :
    leastInteger p ≤ n ↔ w.low ≤ n ∧ ∀ b, p.minBound = some b → b.ceil ≤ n := by
  rw [leastInteger, htype, widthOf]
  cases p.minBound with
  | none => simp
  | some b => simp only [Option.some.injEq, forall_eq', Int.max_le, and_comm]

theorem le_greatestInteger_iff (htype : p.type = .integer w) :
    n ≤ greatestInteger p ↔ n ≤ w.high ∧ ∀ b, p.maxBound = some b → n ≤ b.floor := by
  rw [greatestInteger, htype, widthOf]
  cases p.maxBound with
  | none => simp
  | some b => simp only [Option.some.injEq, forall_eq', Int.le_min, and_comm]

/-- An integer is accepted if it fits the type and keeps the limits. -/
theorem exists_judgeInteger_iff (htype : p.type = .integer w) (hn : integerOf piece = .ok n) :
    (∃ v, judgeInteger p piece = .ok v) ↔ (w.low ≤ n ∧ n ≤ w.high) ∧ p.InBounds n := by
  have hkept : leastInteger p ≤ n ∧ n ≤ greatestInteger p ↔
      (w.low ≤ n ∧ n ≤ w.high) ∧ p.InBounds n := by
    rw [leastInteger_le_iff htype, le_greatestInteger_iff htype, Param.InBounds]
    exact and_and_and_comm
  rw [← hkept]
  constructor
  · rintro ⟨v, hv⟩
    obtain ⟨m, -, hm, hleast, hgreatest, -, -⟩ := judgeInteger_eq_ok hv
    obtain rfl := Except.ok.inj (hn.symm.trans hm)
    exact ⟨hleast, hgreatest⟩
  · rintro ⟨hleast, hgreatest⟩
    have hfits : (widthOf p.type).low ≤ n ∧ n ≤ (widthOf p.type).high :=
      ⟨Int.le_trans (low_le_leastInteger p) hleast,
        Int.le_trans hgreatest (greatestInteger_le_high p)⟩
    have hsized : SizedInt.of? (widthOf p.type) n = some ⟨n, hfits.1, hfits.2⟩ := dif_pos hfits
    refine ⟨.integer (widthOf p.type) ⟨n, hfits.1, hfits.2⟩, ?_⟩
    simp only [judgeInteger, hn, bind_eq_ok, check_eq_ok]
    exact ⟨n, rfl, Int.not_lt.mpr hleast, Int.not_lt.mpr hgreatest, by rw [hsized]; rfl⟩

end Resolve

/-! ## What is published -/

namespace Schema

/-- No limit among the properties speaks against an integer. -/
def Properties.Admits (properties : Properties) (n : Int) : Prop :=
  (∀ value, properties.get? "min_value" = some value →
      ∃ least, value = .integer least ∧ least ≤ n) ∧
    ∀ value, properties.get? "max_value" = some value →
      ∃ greatest, value = .integer greatest ∧ n ≤ greatest

variable {table : ResolverTable} {p : Param} {w : Width} {n : Int}

theorem admits_iff (htype : p.type = .integer w) :
    (parameterProperties table p).Admits n ↔
      (∀ b, p.minBound = some b →
          Numeral.clamp Numeral.minInt64 Numeral.maxInt64 b.ceil ≤ n) ∧
        ∀ b, p.maxBound = some b →
          n ≤ Numeral.clamp Numeral.minInt64 Numeral.maxInt64 b.floor := by
  rw [Properties.Admits, get?_min_value, get?_max_value, leastValue, greatestValue, htype]
  simp [ParamType.optionType, integerLimit]

/-- The limits that the resolver keeps are not wider than those that are published. -/
theorem admits_of_inBounds (htype : p.type = .integer w) (h : w.low ≤ n ∧ n ≤ w.high)
    (hbounds : p.InBounds n) : (parameterProperties table p).Admits n := by
  have hwide := Width.le_w64 h
  rw [admits_iff htype]
  constructor
  · intro b hb
    exact (Numeral.clampInt64_le_iff hwide b.ceil).mpr (.inl (hbounds.1 b hb))
  · intro b hb
    exact (Numeral.le_clampInt64_iff hwide b.floor).mpr (.inl (hbounds.2 b hb))

theorem not_inBounds_of_overshoots (h : p.Overshoots n) : ¬ p.InBounds n := by
  rintro ⟨hleast, hgreatest⟩
  rcases h with ⟨-, ⟨rfl, ⟨b, hb, hbeyond⟩, -⟩ | ⟨rfl, ⟨b, hb, hbeyond⟩, -⟩⟩
  · exact absurd (hleast b hb) (Int.not_le.mpr hbeyond)
  · exact absurd (hgreatest b hb) (Int.not_le.mpr hbeyond)

theorem admits_of_overshoots (h : p.Overshoots n) : (parameterProperties table p).Admits n := by
  obtain ⟨htype, hend⟩ := h
  rw [admits_iff htype]
  rcases hend with ⟨rfl, ⟨b, hb, hbeyond⟩, hother⟩ | ⟨rfl, ⟨b, hb, hbeyond⟩, hother⟩
  · have hwide : Numeral.minInt64 ≤ Numeral.maxInt64 ∧ Numeral.maxInt64 ≤ Numeral.maxInt64 := by
      decide
    constructor
    · intro c hc
      obtain rfl : b = c := Option.some.inj (hb.symm.trans hc)
      exact (Numeral.clampInt64_le_iff hwide _).mpr (.inr ⟨rfl, hbeyond⟩)
    · intro c hc
      exact (Numeral.le_clampInt64_iff hwide _).mpr (.inl (hother c hc))
  · have hwide : Numeral.minInt64 ≤ Numeral.minInt64 ∧ Numeral.minInt64 ≤ Numeral.maxInt64 := by
      decide
    constructor
    · intro c hc
      exact (Numeral.clampInt64_le_iff hwide _).mpr (.inl (hother c hc))
    · intro c hc
      obtain rfl : b = c := Option.some.inj (hb.symm.trans hc)
      exact (Numeral.le_clampInt64_iff hwide _).mpr (.inr ⟨rfl, hbeyond⟩)

/-- An integer that only the resolver refuses is one that a limit overshoots. -/
theorem overshoots_of_admits (htype : p.type = .integer w) (h : w.low ≤ n ∧ n ≤ w.high)
    (hadmits : (parameterProperties table p).Admits n) (hbounds : ¬ p.InBounds n) :
    p.Overshoots n := by
  have hwide := Width.le_w64 h
  obtain ⟨hleast, hgreatest⟩ := (admits_iff htype).mp hadmits
  simp only [Numeral.clampInt64_le_iff hwide, Numeral.le_clampInt64_iff hwide] at hleast hgreatest
  have hends : Numeral.maxInt64 ≠ Numeral.minInt64 := by decide
  by_cases hlow : ∀ b, p.minBound = some b → b.ceil ≤ n
  · have hhigh : ¬ ∀ b, p.maxBound = some b → n ≤ b.floor := fun hhigh => hbounds ⟨hlow, hhigh⟩
    obtain ⟨b, hfails⟩ := not_forall.mp hhigh
    obtain ⟨hb, hnot⟩ := Classical.not_imp.mp hfails
    obtain ⟨rfl, hbeyond⟩ := (hgreatest b hb).resolve_left hnot
    rw [Width.eq_w64 h (.inr rfl)] at htype
    exact ⟨htype, .inr ⟨rfl, ⟨b, hb, hbeyond⟩, hlow⟩⟩
  · obtain ⟨b, hfails⟩ := not_forall.mp hlow
    obtain ⟨hb, hnot⟩ := Classical.not_imp.mp hfails
    obtain ⟨rfl, hbeyond⟩ := (hleast b hb).resolve_left hnot
    rw [Width.eq_w64 h (.inl rfl)] at htype
    refine ⟨htype, .inl ⟨rfl, ⟨b, hb, hbeyond⟩, fun c hc => ?_⟩⟩
    exact (hgreatest c hc).resolve_right fun hleft => hends hleft.1

end Schema

/-! ## Integers as options -/

theorem ResolverTable.IsStandard.find?_integer {t : ResolverTable} (ht : t.IsStandard) (w : Width) :
    t.find? (.integer w) = some (Resolve.fromInput Resolve.integer) :=
  ht.find?_of_standard? rfl

namespace Environment

open Supply Resolve Schema

variable {env : Environment} {invocation : Invocation} {p : Param} {r : Resolver}
  {isLast : Bool} {input : Input} {option : TypedOption} {w : Width} {n : SizedInt .w64}

/-- The resolver of a parameter makes a value of the input. -/
def Accepts (env : Environment) (invocation : Invocation) (p : Param) (r : Resolver)
    (isLast : Bool) (input : Input) : Prop :=
  ∃ v, (r.run (env.slot invocation p isLast) { input }).1 = .ok v

/-- Where nothing else restricts a parameter that has input, its resolver decides. -/
theorem exists_resolveParam_iff (hchoices : p.choices = []) (hconditions : p.conditions = [])
    (hpermits : env.permits invocation p = true) (htakes : r.isIssuerOnly p = false)
    (hinput : hasInput { input } p.name = true) :
    (∃ found, env.resolveParam invocation p r isLast input = .ok found) ↔
      env.Accepts invocation p r isLast input := by
  rw [resolveParam_eq_accept hchoices hpermits htakes hinput, Accepts]
  obtain ⟨result, rest⟩ := r.run (env.slot invocation p isLast) { input }
  cases result with
  | error e => simp [accept]
  | ok v => simp [accept_of_unconditional hconditions]

/-- An integer option is accepted if it fits the type and keeps the limits. -/
theorem accepts_iff (htype : p.type = .integer w) (hoffers : input.Offers p.name option)
    (hvalue : option.value = .integer n) :
    env.Accepts invocation p (fromInput integer) isLast input ↔
      (w.low ≤ n.val ∧ n.val ≤ w.high) ∧ p.InBounds n.val := by
  let slot := env.slot invocation p isLast
  obtain ⟨rest, hpop⟩ := pop_of_offers hoffers
  rw [hvalue] at hpop
  have hrun : (fromInput integer).run slot { input } =
      slot.settle rest (judgeInteger p (.typed (.integer n))) := by
    have hslot : slot.param.name = p.name := rfl
    simp only [fromInput, integer, Slot.withPiece, hslot, hpop]
    rfl
  rw [← exists_judgeInteger_iff htype (rfl : integerOf (.typed (.integer n)) = .ok n.val), Accepts,
    hrun]
  simp only [Slot.settle, mapError_eq_ok]

/-- The published limits of an integer parameter tell which integers are accepted, unless a
limit overshoots the integer. -/
theorem accepts_iff_admits_iff_not_overshoots {enums : List (String × List String)}
    (hresolvers : env.resolvers = .withEnums enums) (htype : p.type = .integer w)
    (hchoices : p.choices = []) (hoffers : input.Offers p.name option)
    (hvalue : option.value = .integer n) (invocation : Invocation) (isLast : Bool) :
    ∃ r, env.resolvers.find? p.type = some r ∧
      ((env.Accepts invocation p r isLast input ↔
          (w.low ≤ n.val ∧ n.val ≤ w.high) ∧ (parameterProperties env.resolvers p).Admits n.val) ↔
        ¬ p.Overshoots n.val) ∧
      (p.conditions = [] → env.permits invocation p = true →
        ((∃ found, env.resolveParam invocation p r isLast input = .ok found) ↔
          env.Accepts invocation p r isLast input)) := by
  have ht : env.resolvers.IsStandard := hresolvers ▸ ResolverTable.isStandard_withEnums enums
  refine ⟨fromInput integer, htype ▸ ht.find?_integer w, ?_, fun hconditions hpermits =>
    exists_resolveParam_iff hchoices hconditions hpermits rfl (hasInput_of_offers hoffers)⟩
  rw [accepts_iff htype hoffers hvalue]
  constructor
  · intro hagree hover
    obtain rfl : w = .w64 := ParamType.integer.inj (htype.symm.trans hover.1)
    have hadmitted := hagree.mpr ⟨⟨n.low_le, n.le_high⟩, admits_of_overshoots hover⟩
    exact not_inBounds_of_overshoots hover hadmitted.2
  · intro hnot
    refine and_congr_right fun hfits => ⟨admits_of_inBounds htype hfits, fun hadmits => ?_⟩
    by_contra hbounds
    exact hnot (overshoots_of_admits htype hfits hadmits hbounds)

/-- A share in bytes, between limits with places. -/
def share : Param :=
  ⟨"share", .integer .w8, false, none, Dict.ofList [("min", "1.5"), ("max", "4.5")], Dict.empty,
    [], [], none, none, none, none, none⟩

/-- The draft of the share. -/
def shareDraft : ParamDraft where
  name := "share"
  type := .integer .w8
  flags := ["min=1.5,max=4.5"]

/-- Two as an option. -/
def twoShares : TypedOption :=
  ⟨"share", .integer ⟨2, by decide, by decide⟩⟩

/-- Limits with places are rounded to the inside, and two lies between them. -/
theorem accepts_share :
    share.IsDeclared ∧ share.type = .integer .w8 ∧ share.choices = [] ∧
      (Input.options [twoShares]).Offers share.name twoShares ∧
      ∃ r, painting.resolvers.find? share.type = some r ∧
        painting.Accepts aside share r true (.options [twoShares]) := by
  have hoffers : (Input.options [twoShares]).Offers share.name twoShares :=
    Input.offers_own twoShares.value []
  have hresolvers : painting.resolvers = .withEnums [("Color", ["Red", "Green"])] := rfl
  obtain ⟨r, hr, hagree, -⟩ :=
    accepts_iff_admits_iff_not_overshoots hresolvers rfl rfl hoffers rfl aside true
  have hleast : share.minBound.map (·.ceil) = some 2 := by decide +kernel
  have hgreatest : share.maxBound.map (·.floor) = some 4 := by decide +kernel
  have hadmits : (parameterProperties painting.resolvers share).Admits 2 := by
    refine admits_of_inBounds rfl (by decide) ⟨fun b hb => ?_, fun b hb => ?_⟩
    · rw [hb, Option.map_some, Option.some.injEq] at hleast
      exact Int.le_of_eq hleast
    · rw [hb, Option.map_some, Option.some.injEq] at hgreatest
      rw [hgreatest]
      decide
  have hwithin : ¬ share.Overshoots 2 := fun hover => by cases hover.1
  exact ⟨⟨shareDraft, rfl⟩, rfl, rfl, hoffers, r, hr,
    (hagree.mpr hwithin).mpr ⟨by decide, hadmits⟩⟩

/-- A number that is at least a number without a word. -/
def vast : Param :=
  ⟨"n", .integer .w64, false, none, Dict.ofList [("min", "1e30")], Dict.empty, [], [], none, none,
    none, none, none⟩

/-- The draft of the vast number. -/
def vastDraft : ParamDraft where
  name := "n"
  type := .integer .w64
  flags := ["min=1e30"]

/-- The greatest word as an option. -/
def greatestWord : TypedOption :=
  ⟨"n", .integer ⟨Numeral.maxInt64, by decide, by decide⟩⟩

/-- The greatest word is published as the least that is allowed, and refused. -/
theorem not_accepts_vast :
    vast.IsDeclared ∧ vast.type = .integer .w64 ∧ vast.choices = [] ∧
      (Input.options [greatestWord]).Offers vast.name greatestWord ∧
      (Width.w64.low ≤ Numeral.maxInt64 ∧ Numeral.maxInt64 ≤ Width.w64.high) ∧
      (parameterProperties painting.resolvers vast).Admits Numeral.maxInt64 ∧
      ∃ r, painting.resolvers.find? vast.type = some r ∧
        ¬ painting.Accepts aside vast r true (.options [greatestWord]) := by
  have ht : painting.resolvers.IsStandard := ResolverTable.isStandard_withEnums _
  have hoffers : (Input.options [greatestWord]).Offers vast.name greatestWord :=
    Input.offers_own greatestWord.value []
  have hover : vast.Overshoots Numeral.maxInt64 := by
    refine ⟨rfl, .inl ⟨rfl, ?_, fun b hb => by cases hb⟩⟩
    have hleast : vast.minBound.any (Numeral.maxInt64 < ·.ceil) = true := by decide +kernel
    obtain ⟨b, hb, hbeyond⟩ := (Option.any_eq_true _ _).mp hleast
    exact ⟨b, hb, of_decide_eq_true hbeyond⟩
  refine ⟨⟨vastDraft, rfl⟩, rfl, rfl, hoffers, by decide, admits_of_overshoots hover, _,
    ht.find?_integer .w64, ?_⟩
  rw [accepts_iff rfl hoffers rfl]
  exact fun haccepted => not_inBounds_of_overshoots hover haccepted.2

end Environment

end ChatCommands
