import ChatCommands.Json.Printer
import ChatCommands.Json.Scanner

/-!
# What steps of reading accept

A step reads a value from the front of a text if it ends behind it, wherever the text stands.
Steps are put together as in the reader, so that what a step reads follows from what its parts
read.
-/

namespace ChatCommands.Json

/-- A text of nothing but blanks. -/
def IsGap (blanks : List Char) : Prop :=
  ∀ c ∈ blanks, isGap c = true

theorem isGap_nil : IsGap [] :=
  fun _ h => absurd h List.not_mem_nil

theorem isGap_space : IsGap [' '] := by
  intro c hc
  rw [List.mem_singleton.mp hc]
  rfl

theorem isGap_newline (level : Nat) : IsGap (newline level).toList := by
  intro c hc
  rw [newline, String.toList_ofList, List.mem_cons] at hc
  rcases hc with rfl | hc
  · rfl
  · rw [List.eq_of_mem_replicate hc]
    rfl

namespace Scan

variable {α β : Type} {scan : Scan α} {next : α → Scan β} {room : Nat} {a : α} {b : β} {c : Char}
  {text between rest blanks cs : List Char}

/-- A step reads a value from a text and leaves the rest of it, wherever the text stands and
with the given levels of nesting left. -/
def Reads (scan : Scan α) (room : Nat) (text : List Char) (a : α) (rest : List Char) : Prop :=
  ∀ place, ∃ place', scan ⟨text, place, room⟩ = .ok a ⟨rest, place', room⟩

theorem reads_pure (a : α) (room : Nat) (text : List Char) :
    Reads (pure a) room text a text :=
  fun place => ⟨place, rfl⟩

/-- A step that succeeds hands its result and its state on to the next one. -/
theorem run_bind {s s' : Scanner} (h : scan s = .ok a s') (next : α → Scan β) :
    (scan >>= next) s = next a s' := by
  simp only [Bind.bind, EStateM.bind, h]

theorem Reads.bind (h : scan.Reads room text a between)
    (hnext : (next a).Reads room between b rest) : Reads (scan >>= next) room text b rest := by
  intro place
  obtain ⟨place', hscan⟩ := h place
  obtain ⟨place'', hrest⟩ := hnext place'
  exact ⟨place'', (run_bind hscan next).trans hrest⟩

/-- A step that is followed by nothing but a change of its result. -/
theorem Reads.map {f : α → β} (h : scan.Reads room text a rest) :
    Reads (scan >>= fun a => pure (f a)) room text (f a) rest :=
  h.bind (reads_pure _ _ _)

/-- A step may ask for the state from which it goes on. -/
theorem reads_get {next : Scanner → Scan β}
    (h : ∀ place, (next ⟨text, place, room⟩).Reads room text b rest) :
    Reads (get >>= next) room text b rest :=
  fun place => h place place

theorem reads_next? (room : Nat) (text : List Char) :
    next?.Reads room text text.head? text :=
  fun place => ⟨place, rfl⟩

/-- A step refuses a text wherever it stands. -/
def Refuses (scan : Scan α) (room : Nat) (text : List Char) : Prop :=
  ∀ place, ∃ refusal s, scan ⟨text, place, room⟩ = .error refusal s

theorem Refuses.bind (h : scan.Refuses room text) (next : α → Scan β) :
    Refuses (scan >>= next) room text := by
  intro place
  obtain ⟨refusal, s, hscan⟩ := h place
  exact ⟨refusal, s, by simp only [Bind.bind, EStateM.bind, hscan]⟩

theorem Reads.bind_refuses (h : scan.Reads room text a between)
    (hnext : (next a).Refuses room between) : Refuses (scan >>= next) room text := by
  intro place
  obtain ⟨place', hscan⟩ := h place
  obtain ⟨refusal, s, hrest⟩ := hnext place'
  exact ⟨refusal, s, (run_bind hscan next).trans hrest⟩

theorem refuses_get {next : Scanner → Scan β}
    (h : ∀ place, (next ⟨text, place, room⟩).Refuses room text) :
    Refuses (get >>= next) room text :=
  fun place => h place place

/-! ## Going past characters -/

theorem exists_skip_append (cs rest : List Char) (place : Place) (room : Nat) :
    ∃ place', Scanner.skip cs.length ⟨cs ++ rest, place, room⟩ = ⟨rest, place', room⟩ := by
  induction cs generalizing place with
  | nil => exact ⟨place, rfl⟩
  | cons c cs ih =>
      obtain ⟨place', h⟩ := ih (place.past c)
      exact ⟨place', h⟩

theorem reads_skip (c : Char) (rest : List Char) (room : Nat) :
    (skip 1).Reads room (c :: rest) () rest :=
  fun place => ⟨place.past c, rfl⟩

theorem takeWhile_append_of_head? {test : Char → Bool} (h : ∀ c ∈ cs, test c = true)
    (hrest : ∀ c ∈ rest.head?, test c = false) : (cs ++ rest).takeWhile test = cs := by
  rw [List.takeWhile_append_of_pos h]
  cases rest with
  | nil => simp
  | cons c rest => simp [hrest c rfl]

theorem reads_gap (hblanks : IsGap blanks) (hrest : ∀ c ∈ rest.head?, isGap c = false)
    (room : Nat) : gap.Reads room (blanks ++ rest) rest.head? rest := by
  intro place
  obtain ⟨place', h⟩ := exists_skip_append blanks rest place room
  refine ⟨place', ?_⟩
  simp only [gap, Scanner.skipWhile, takeWhile_append_of_head? hblanks hrest, h]

theorem reads_gap_cons (hblanks : IsGap blanks) (hc : isGap c = false) (rest : List Char)
    (room : Nat) : gap.Reads room (blanks ++ c :: rest) (some c) (c :: rest) := by
  apply reads_gap hblanks
  rintro x ⟨⟩
  exact hc

theorem reads_start (hblanks : IsGap blanks) (hc : isGap c = false) (rest : List Char)
    (room : Nat) : start.Reads room (blanks ++ c :: rest) c (c :: rest) :=
  (reads_gap_cons hblanks hc rest room).bind (reads_pure _ _ _)

theorem reads_word (cs rest : List Char) (room : Nat) : (word cs).Reads room (cs ++ rest) () rest := by
  induction cs with
  | nil => exact reads_pure _ _ _
  | cons c cs ih =>
      refine (reads_next? room _).bind ?_
      simp only [List.cons_append, List.head?_cons, beq_self_eq_true, if_true]
      exact (reads_skip c _ room).bind ih

/-! ## Strings -/

theorem hexFour_control : ∀ n < 32, Text.byteLength ['0', '0', hexDigit (n / 16), hexDigit (n % 16)] = 4 ∧
    Numeral.readIn? 16 ['0', '0', hexDigit (n / 16), hexDigit (n % 16)] = some n := by
  decide

theorem reads_hexFour {n : Nat} (hn : n < 32) (rest : List Char) (room : Nat) :
    hexFour.Reads room (['0', '0', hexDigit (n / 16), hexDigit (n % 16)] ++ rest) n rest := by
  obtain ⟨hbytes, hvalue⟩ := hexFour_control n hn
  intro place
  obtain ⟨place', h⟩ := exists_skip_append ['0', '0', hexDigit (n / 16), hexDigit (n % 16)] rest place room
  refine ⟨place', ?_⟩
  rw [hexFour]
  simp only [List.cons_append, List.nil_append, List.take_succ_cons, List.take_zero, hbytes,
    Nat.lt_irrefl, if_false, hvalue]
  exact congrArg _ h

theorem reads_numbered {n : Nat} (hn : n < 32) (rest : List Char) (room : Nat) :
    numbered.Reads room (['0', '0', hexDigit (n / 16), hexDigit (n % 16)] ++ rest) (Char.ofNat n)
      rest := by
  refine (reads_hexFour hn rest room).bind ?_
  have hlow : isLowSurrogate n = false := by simp [isLowSurrogate]; omega
  have hhigh : isHighSurrogate n = false := by simp [isHighSurrogate]; omega
  simp only [hlow, hhigh, Bool.false_eq_true, if_false]
  exact reads_pure _ _ _

/-- A letter behind a backslash stands for a character. -/
theorem reads_escape {letter x : Char} (h : escaped? letter = some x) (rest : List Char) (room : Nat) :
    (escape numbered).Reads room (letter :: rest) x rest := by
  refine (reads_next? room _).bind ?_
  simp only [List.head?_cons, h]
  exact (reads_skip letter rest room).bind (reads_pure _ _ _)

theorem reads_escape_numbered {n : Nat} (hn : n < 32) (rest : List Char) (room : Nat) :
    (escape numbered).Reads room ('u' :: (['0', '0', hexDigit (n / 16), hexDigit (n % 16)] ++ rest))
      (Char.ofNat n) rest := by
  refine (reads_next? room _).bind ?_
  exact (reads_skip 'u' _ room).bind (reads_numbered hn rest room)

/-- The ways in which a character stands inside of quotes. -/
theorem escape_cases (c : Char) :
    (Json.escape c = [c] ∧ c ≠ '"' ∧ c ≠ '\\' ∧ ¬ c.toNat < 32) ∨
    (∃ letter, Json.escape c = ['\\', letter] ∧ escaped? letter = some c) ∨
    (Json.escape c =
        '\\' :: 'u' :: ['0', '0', hexDigit (c.toNat / 16), hexDigit (c.toNat % 16)] ∧
      c.toNat < 32) := by
  have hof : ∀ n, c.toNat = n → Char.ofNat n = c := by
    rintro n rfl
    exact Char.ofNat_toNat c
  by_cases hquote : c = '"'
  · subst hquote
    exact .inr (.inl ⟨'"', rfl, rfl⟩)
  by_cases hslash : c = '\\'
  · subst hslash
    exact .inr (.inl ⟨'\\', rfl, rfl⟩)
  by_cases hline : c = '\n'
  · subst hline
    exact .inr (.inl ⟨'n', rfl, rfl⟩)
  by_cases hreturn : c = '\r'
  · subst hreturn
    exact .inr (.inl ⟨'r', rfl, rfl⟩)
  by_cases htab : c = '\t'
  · subst htab
    exact .inr (.inl ⟨'t', rfl, rfl⟩)
  by_cases hback : c.toNat = 8
  · exact .inr (.inl ⟨'b', by simp [Json.escape, *], by rw [← hof 8 hback]; rfl⟩)
  by_cases hfeed : c.toNat = 12
  · exact .inr (.inl ⟨'f', by simp [Json.escape, *], by rw [← hof 12 hfeed]; rfl⟩)
  by_cases hcontrol : c.toNat < 32
  · exact .inr (.inr ⟨by simp [Json.escape, *], hcontrol⟩)
  · exact .inl ⟨by simp [Json.escape, *], hquote, hslash, hcontrol⟩

theorem reads_stringRest_nil (control : Scan Char) (fuel : Nat) (rest : List Char) (room : Nat) :
    (stringRest control numbered (fuel + 1)).Reads room ('"' :: rest) [] rest := by
  refine (reads_next? room _).bind ?_
  exact (reads_skip '"' rest room).bind (reads_pure _ _ _)

/-- One more character in quotes. -/
theorem Reads.stringRest_cons {control : Scan Char} {fuel : Nat}
    (h : (stringRest control numbered fuel).Reads room text cs rest) (c : Char) :
    (stringRest control numbered (fuel + 1)).Reads room (Json.escape c ++ text) (c :: cs) rest := by
  have hrest : Reads (stringRest control numbered fuel >>= fun cs => pure (c :: cs)) room text
      (c :: cs) rest := h.map
  have hbackslash : ∀ {text' : List Char}, (escape numbered).Reads room text' c text →
      (stringRest control numbered (fuel + 1)).Reads room ('\\' :: text') (c :: cs) rest := by
    intro text' hescape
    refine (reads_next? room _).bind ?_
    exact (reads_skip '\\' _ room).bind (hescape.bind hrest)
  rcases escape_cases c with ⟨heq, hquote, hslash, hcontrol⟩ | ⟨letter, heq, hletter⟩ | ⟨heq, hn⟩
  · rw [heq, List.singleton_append]
    refine (reads_next? room _).bind ?_
    simp only [List.head?_cons, beq_iff_eq, hquote, hslash, hcontrol, if_false]
    exact (reads_skip c text room).bind ((reads_pure c room text).bind hrest)
  · rw [heq]
    exact hbackslash (reads_escape hletter text room)
  · rw [heq]
    have hnumber := reads_escape_numbered hn text room
    rw [Char.ofNat_toNat] at hnumber
    exact hbackslash hnumber

theorem reads_stringRest (control : Scan Char) (cs rest : List Char) (room : Nat) {fuel : Nat}
    (hfuel : cs.length < fuel) :
    (stringRest control numbered fuel).Reads room (cs.flatMap Json.escape ++ '"' :: rest) cs rest := by
  induction cs generalizing fuel with
  | nil =>
      obtain ⟨fuel, rfl⟩ := Nat.exists_eq_add_one.mpr hfuel
      exact reads_stringRest_nil control fuel rest room
  | cons c cs ih =>
      rw [List.length_cons] at hfuel
      obtain ⟨fuel, rfl⟩ := Nat.exists_eq_add_one.mpr (Nat.zero_lt_of_lt hfuel)
      rw [List.flatMap_cons, List.append_assoc]
      exact (ih (Nat.lt_of_succ_lt_succ hfuel)).stringRest_cons c

theorem length_le_length_flatMap_escape (cs : List Char) :
    cs.length ≤ (cs.flatMap Json.escape).length := by
  induction cs with
  | nil => exact Nat.le_refl _
  | cons c cs ih =>
      have hone : 1 ≤ (Json.escape c).length := by
        rcases escape_cases c with ⟨heq, -⟩ | ⟨letter, heq, -⟩ | ⟨heq, -⟩ <;> simp [heq]
      rw [List.flatMap_cons, List.length_append, List.length_cons]
      omega

theorem toList_quote (s : String) : (quote s).toList = '"' :: (s.toList.flatMap Json.escape ++ ['"']) :=
  String.toList_ofList

/-- A text in quotes is read behind its opening quote. -/
theorem reads_string (s : String) (rest : List Char) (room : Nat) :
    string.Reads room (s.toList.flatMap Json.escape ++ '"' :: rest) s rest := by
  apply reads_get
  intro place
  have hlength := length_le_length_flatMap_escape s.toList
  have hfuel : s.toList.length < (s.toList.flatMap Json.escape ++ '"' :: rest).length + 1 := by
    rw [List.length_append]
    omega
  have hread := Reads.map (f := String.ofList)
    (reads_stringRest (failNext .controlCharacter) s.toList rest room hfuel)
  rw [String.ofList_toList] at hread
  exact hread

end Scan

end ChatCommands.Json
