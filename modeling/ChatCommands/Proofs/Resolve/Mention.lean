import ChatCommands.Proofs.Number.Numeral
import ChatCommands.Proofs.Text.Words
import ChatCommands.Resolve.Mention

/-!
# The forms of mentions

A mention is a lead that tells the kind of entity, the digits of an identifier with any number of
zeros in front, and a closing bracket.  Readers of mentions read exactly these texts, as long as
the identifier fits its word.
-/

namespace ChatCommands

/-- Digits that denote an identifier. -/
structure Snowflake.IsWrittenAs (id : Snowflake) (digits : List Char) : Prop where
  ne_nil : digits ≠ []
  isDigit : ∀ c ∈ digits, c.isDigit = true
  value_eq : Numeral.value digits = id.toNat

/-- Without a sign, digits are read as their number, if that is within the limit. -/
theorem Numeral.readUnsigned?_of_isDigit {digits : List Char} (limit : Nat) (hne : digits ≠ [])
    (hdigits : ∀ c ∈ digits, c.isDigit = true) :
    readUnsigned? limit digits = (some (value digits)).filter (· ≤ limit) := by
  have hread : read? digits = some (value digits) := by
    have hall : digits.all Char.isDigit = true := List.all_eq_true.mpr hdigits
    simp [read?, hne, hall]
  unfold readUnsigned?
  split
  next rest =>
    have hplus := hdigits '+' List.mem_cons_self
    contradiction
  next => simp only [hread]

theorem Snowflake.read?_eq_some_iff {id : Snowflake} {digits : List Char} (hne : digits ≠ [])
    (hdigits : ∀ c ∈ digits, c.isDigit = true) :
    Snowflake.read? digits = some id ↔ Numeral.value digits = id.toNat := by
  have hlimit : id.toNat ≤ Numeral.max64 := Nat.le_of_lt_succ id.toNat_lt
  rw [read?, Numeral.readUnsigned?_of_isDigit _ hne hdigits, Option.map_eq_some_iff]
  constructor
  · rintro ⟨n, hn, rfl⟩
    obtain ⟨hvalue, hfits⟩ := Option.filter_eq_some_iff.mp hn
    obtain rfl := Option.some.inj hvalue
    have hsize : Numeral.value digits < UInt64.size := Nat.lt_succ_of_le (of_decide_eq_true hfits)
    exact (UInt64.toNat_ofNat_of_lt' hsize).symm
  · intro hvalue
    refine ⟨id.toNat, Option.filter_eq_some_iff.mpr ⟨by rw [hvalue], by simpa using hlimit⟩, ?_⟩
    exact UInt64.ofNat_toNat

namespace Mention

variable {id : Snowflake} {cs : List Char} {text : String}

theorem closeId?_eq_some_iff :
    closeId? cs = some id ↔ ∃ digits, id.IsWrittenAs digits ∧ cs = digits ++ ['>'] := by
  constructor
  · intro h
    unfold closeId? at h
    split at h
    next digits hspan =>
      obtain ⟨hcs, hdigits, -⟩ := Text.span_eq_iff.mp hspan
      split at h
      next => cases h
      next hempty =>
        have hne : digits ≠ [] := by simpa using hempty
        exact ⟨digits, ⟨hne, hdigits, (Snowflake.read?_eq_some_iff hne hdigits).mp h⟩, hcs⟩
    next => cases h
  · rintro ⟨digits, hid, rfl⟩
    have hspan : (digits ++ ['>']).span Char.isDigit = (digits, ['>']) :=
      Text.span_append hid.isDigit (by simp)
    simp only [closeId?, hspan, List.isEmpty_iff, hid.ne_nil, if_false]
    exact (Snowflake.read?_eq_some_iff hid.ne_nil hid.isDigit).mpr hid.value_eq

/-- What stands in front of an identifier begins with a digit. -/
theorem isDigit_of_closeId? {c : Char} (h : closeId? (c :: cs) = some id) : c.isDigit = true := by
  obtain ⟨digits, hid, heq⟩ := closeId?_eq_some_iff.mp h
  cases digits with
  | nil => exact absurd rfl hid.ne_nil
  | cons d ds =>
      obtain ⟨rfl, -⟩ := List.cons.inj heq
      exact hid.isDigit c List.mem_cons_self

/-- The forms in which entities are mentioned. -/
inductive Kind where
  | user
  | channel
  | role
  | emoji
deriving DecidableEq

namespace Kind

/-- Reads a mention of a kind. -/
def read? : Kind → String → Option Snowflake
  | user => user?
  | channel => channel?
  | role => role?
  | emoji => emoji?

/-- What stands in front of the identifier in a mention of a kind.  Emojis have a name there,
which may be any. -/
inductive HasLead : Kind → List Char → Prop where
  | user : HasLead user ['<', '@']
  | nickname : HasLead user ['<', '@', '!']
  | channel : HasLead channel ['<', '#']
  | role : HasLead role ['<', '@', '&']
  | emoji {word : List Char} (hne : word ≠ []) (hword : ∀ c ∈ word, Text.isWordChar c = true) :
      HasLead emoji ('<' :: ':' :: word ++ [':'])
  | animated {word : List Char} (hne : word ≠ []) (hword : ∀ c ∈ word, Text.isWordChar c = true) :
      HasLead emoji ('<' :: 'a' :: ':' :: word ++ [':'])

/-- A text mentions an identifier in the form of a kind. -/
def Mentions (kind : Kind) (id : Snowflake) (text : String) : Prop :=
  ∃ lead digits, kind.HasLead lead ∧ id.IsWrittenAs digits ∧
    text.toList = lead ++ digits ++ ['>']

end Kind

/-! ## Readers -/

theorem user?_eq_some_iff : user? text = some id ↔ Kind.user.Mentions id text := by
  constructor
  · intro h
    unfold user? at h
    split at h
    next rest htext =>
      obtain ⟨digits, hid, rfl⟩ := closeId?_eq_some_iff.mp h
      exact ⟨_, digits, .nickname, hid, htext⟩
    next rest _ htext =>
      obtain ⟨digits, hid, rfl⟩ := closeId?_eq_some_iff.mp h
      exact ⟨_, digits, .user, hid, htext⟩
    next => cases h
  · rintro ⟨lead, digits, hlead, hid, htext⟩
    have hclose : closeId? (digits ++ ['>']) = some id :=
      closeId?_eq_some_iff.mpr ⟨digits, hid, rfl⟩
    cases hlead with
    | nickname => simp [user?, htext, hclose]
    | user =>
        unfold user?
        split
        next rest heq =>
          -- The identifier would have to begin with the exclamation mark.
          have hdigits : digits ++ ['>'] = '!' :: rest := by simpa [htext] using heq
          have hdigit := isDigit_of_closeId? (hdigits ▸ hclose)
          contradiction
        next rest _ heq =>
          have hdigits : digits ++ ['>'] = rest := by simpa [htext] using heq
          rw [← hdigits, hclose]
        next hother => exact absurd htext (hother _)

theorem channel?_eq_some_iff : channel? text = some id ↔ Kind.channel.Mentions id text := by
  constructor
  · intro h
    unfold channel? at h
    split at h
    next rest htext =>
      obtain ⟨digits, hid, rfl⟩ := closeId?_eq_some_iff.mp h
      exact ⟨_, digits, .channel, hid, htext⟩
    next => cases h
  · rintro ⟨lead, digits, hlead, hid, htext⟩
    cases hlead
    simp [channel?, htext, closeId?_eq_some_iff.mpr ⟨digits, hid, rfl⟩]

theorem role?_eq_some_iff : role? text = some id ↔ Kind.role.Mentions id text := by
  constructor
  · intro h
    unfold role? at h
    split at h
    next rest htext =>
      obtain ⟨digits, hid, rfl⟩ := closeId?_eq_some_iff.mp h
      exact ⟨_, digits, .role, hid, htext⟩
    next => cases h
  · rintro ⟨lead, digits, hlead, hid, htext⟩
    cases hlead
    simp [role?, htext, closeId?_eq_some_iff.mpr ⟨digits, hid, rfl⟩]

theorem namedId?_eq_some_iff :
    namedId? cs = some id ↔ ∃ word digits, word ≠ [] ∧ (∀ c ∈ word, Text.isWordChar c = true) ∧
      id.IsWrittenAs digits ∧ cs = ':' :: (word ++ ':' :: (digits ++ ['>'])) := by
  constructor
  · intro h
    unfold namedId? at h
    split at h
    next rest =>
      split at h
      next word behind hspan =>
        obtain ⟨rfl, hword, -⟩ := Text.span_eq_iff.mp hspan
        split at h
        next => cases h
        next hempty =>
          obtain ⟨digits, hid, rfl⟩ := closeId?_eq_some_iff.mp h
          exact ⟨word, digits, by simpa using hempty, hword, hid, rfl⟩
      next => cases h
    next => cases h
  · rintro ⟨word, digits, hne, hword, hid, rfl⟩
    have hspan : (word ++ ':' :: (digits ++ ['>'])).span Text.isWordChar =
        (word, ':' :: (digits ++ ['>'])) := by
      refine Text.span_append hword fun c hc => ?_
      obtain rfl : ':' = c := by simpa using hc
      decide
    simp only [namedId?, hspan, List.isEmpty_iff, hne, if_false]
    exact closeId?_eq_some_iff.mpr ⟨digits, hid, rfl⟩

theorem emoji?_eq_some_iff : emoji? text = some id ↔ Kind.emoji.Mentions id text := by
  constructor
  · intro h
    unfold emoji? at h
    split at h
    next rest htext =>
      obtain ⟨word, digits, hne, hword, hid, rfl⟩ := namedId?_eq_some_iff.mp h
      exact ⟨_, digits, .animated hne hword, hid, by simp [htext]⟩
    next rest _ htext =>
      obtain ⟨word, digits, hne, hword, hid, rfl⟩ := namedId?_eq_some_iff.mp h
      exact ⟨_, digits, .emoji hne hword, hid, by simp [htext]⟩
    next => cases h
  · rintro ⟨lead, digits, hlead, hid, htext⟩
    cases hlead with
    | animated hne hword | emoji hne hword =>
      have hnamed := namedId?_eq_some_iff.mpr ⟨_, digits, hne, hword, hid, rfl⟩
      simpa [emoji?, htext] using hnamed

/-- The reader of a kind reads the mentions of its form. -/
theorem Kind.read?_eq_some_iff {kind : Kind} :
    kind.read? text = some id ↔ kind.Mentions id text := by
  cases kind with
  | user => exact user?_eq_some_iff
  | channel => exact channel?_eq_some_iff
  | role => exact role?_eq_some_iff
  | emoji => exact emoji?_eq_some_iff

end Mention

end ChatCommands
