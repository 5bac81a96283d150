import Mathlib.Data.List.Nodup
import ChatCommands.Proofs.Resolve.Choices
import ChatCommands.Proofs.Resolve.Masking

/-!
# What a missing permission keeps out

A parameter whose permissions are not all granted gets nothing from the input.  Either
there is none for it, or the call is refused before its input is looked at.
-/

namespace ChatCommands

/-- There is no input for the parameter of a name: no word, or no option of that name in
any case. -/
def Input.Lacks (name : String) : Input → Prop
  | text _ tokens => tokens = []
  | options given => ∀ option ∈ given, Text.asciiEq option.name name = false

theorem Input.lacks_iff {name : String} {input : Input} :
    input.Lacks name ↔ Supply.hasInput { input } name = false := by
  cases input with
  | text source tokens => simp [Lacks, Supply.hasInput]
  | options given => simp [Lacks, Supply.hasInput, Supply.isNamed]

theorem Supply.mem_of_takeNamed {name : String} {given rest : List TypedOption}
    {value : OptionValue} (h : takeNamed name given = some (value, rest)) :
    ∀ option ∈ rest, option ∈ given := by
  induction given generalizing rest with
  | nil => cases h
  | cons first others ih =>
      intro option hoption
      by_cases hfirst : isNamed name first = true
      · rw [takeNamed, if_pos hfirst] at h
        cases h
        exact List.mem_cons_of_mem _ hoption
      · rw [takeNamed, if_neg hfirst, Option.map_eq_some_iff] at h
        obtain ⟨⟨taken, left⟩, hleft, heq⟩ := h
        cases heq
        rcases List.mem_cons.mp hoption with rfl | hoption
        · exact List.mem_cons_self
        · exact List.mem_cons_of_mem _ (ih hleft option hoption)

/-- Whoever takes input does not bring any in. -/
theorem Supply.keeps_lacks (other name : String) : Keeps other (Input.Lacks name) := by
  refine keeps_of_leaves ?_
  intro i j hleaves hi
  cases hleaves with
  | untouched => exact hi
  | word => cases hi
  | words => rfl
  | option htaken => exact fun option hoption => hi option (mem_of_takeNamed htaken option hoption)

theorem Input.mask_of_lacks {name : String} {input : Input} (h : input.Lacks name) :
    input.mask name = input := by
  cases input with
  | text source tokens => rfl
  | options given =>
      have hsame : given.map (TypedOption.mask name) = given.map id :=
        List.map_congr_left fun option hoption =>
          TypedOption.mask_of_isNamed_eq_false (h option hoption)
      rw [List.map_id] at hsame
      exact congrArg Input.options hsame

namespace Environment

variable {env : Environment} {invocation : Invocation} {p : Param} {r : Resolver}
  {isLast : Bool} {v : Value} {input left after : Input}

/-- Some permission of a parameter is not granted. -/
def Denies (env : Environment) (invocation : Invocation) (p : Param) : Prop :=
  ∃ permission ∈ p.permissions.toList, env.permissions invocation permission = false

theorem permits_of_denies (h : env.Denies invocation p) : env.permits invocation p = false := by
  rw [permits, List.all_eq_false]
  obtain ⟨permission, hmem, hfalse⟩ := h
  exact ⟨permission, hmem, by rw [hfalse]; exact Bool.false_ne_true⟩

theorem resolveParam_of_denies (h : env.Denies invocation p) (htakes : r.isIssuerOnly p = false)
    (hinput : Supply.hasInput { input } p.name = true) :
    env.resolveParam invocation p r isLast input = .error (.permissionDenied p.name) :=
  (Way.denied htakes hinput (permits_of_denies h)).resolveParam_eq

/-! ## What a parameter gets -/

/-- What the default of a parameter resolves to: the value of the choice that it names, or
of itself if there are no choices, as if it were the only word. -/
def IsOfDefault (env : Environment) (invocation : Invocation) (p : Param) (r : Resolver)
    (isLast : Bool) (v : Value) : Prop :=
  ∃ text, p.default = some text ∧
    ((p.choices = [] ∧ env.aloneText invocation p r isLast text = .ok v) ∨
      ∃ choice, p.choices.find? (·.answersTo (Text.trim text)) = some choice ∧
        env.aloneText invocation p r isLast choice.value = .ok v)

/-- A text that is put back without further input is resolved as if it were the only
word. -/
theorem aloneText_of_run_give (ht : env.resolvers.IsStandard)
    (hr : env.resolvers.find? p.type = some r) {s : Supply} (hlacks : s.input.Lacks p.name)
    {text : String} {span : Span}
    (h : (r.run (env.slot invocation p isLast) (s.give (.word ⟨text, span⟩))).1 = .ok v) :
    env.aloneText invocation p r isLast text = .ok v := by
  let slot := env.slot invocation p isLast
  have hrest : ∀ judge, slot.reading = .all judge →
      ∀ source tokens, s.input = .text source tokens → tokens = [] := by
    intro judge _ source tokens hinput
    rw [hinput] at hlacks
    exact hlacks
  obtain ⟨after, heq⟩ := Reading.run_give slot slot.reading hrest (.word ⟨text, span⟩)
  have hrun : r.run slot (s.give (.word ⟨text, span⟩)) =
      slot.reading.run slot (s.give (.word ⟨text, span⟩)) := ht.run_eq slot hr _
  rw [hrun, heq, mapError_eq_ok, Reading.judgeOne_word _ _ span .zero] at h
  exact (alone_eq_ok_iff ht hr).mpr h

/-- Without the permissions, a parameter that gets a value had no input, and is absent or
has the value of its default. -/
theorem absent_or_default (ht : env.resolvers.IsStandard)
    (hr : env.resolvers.find? p.type = some r) (htakes : r.isIssuerOnly p = false)
    (hdenies : env.Denies invocation p)
    (h : env.resolveParam invocation p r isLast left = .ok (some (v, after))) :
    left.Lacks p.name ∧ (v = .absent ∨ env.IsOfDefault invocation p r isLast v) := by
  have hforbids : env.permits invocation p ≠ true :=
    Bool.eq_false_iff.mp (permits_of_denies hdenies)
  cases way_of_resolveParam h with
  | absent _ hinput => exact ⟨Input.lacks_iff.mpr hinput, .inl rfl⟩
  | entered hentry haccept =>
      cases hentry with
      | issuer hissuer => exact absurd hissuer (Bool.eq_false_iff.mp htakes)
      | bare _ _ _ _ _ hpermits => exact absurd hpermits hforbids
      | chosen hstart hchosen =>
          cases hstart with
          | given _ _ hpermits => exact absurd hpermits hforbids
          | default _ hinput hdefault =>
              have hlacks : left.Lacks p.name := Input.lacks_iff.mpr hinput
              obtain ⟨rest, hrun, -⟩ := accept_eq_some haccept
              have hvalue := congrArg Prod.fst hrun
              refine ⟨hlacks, .inr ⟨_, hdefault, ?_⟩⟩
              by_cases hchoices : p.choices = []
              · rw [applyChoices, hchoices] at hchosen
                obtain rfl := Except.ok.inj hchosen
                exact .inl ⟨hchoices, aloneText_of_run_give ht hr hlacks hvalue⟩
              · obtain ⟨piece, rest, choice, hpop, hchoice, rfl⟩ :=
                  applyChoices_eq_ok hchoices (Supply.hasInput_give _) hchosen
                cases hpop
                exact .inr ⟨choice, hchoice, aloneText_of_run_give ht hr hlacks hvalue⟩

/-! ## What a call makes of hidden options -/

/-- Another parameter of a command than the one whose permissions are missing, or this
one. -/
def StandsBeside (env : Environment) (p : Param) (found : Param × Resolver) : Prop :=
  env.resolvers.find? found.1.type = some found.2 ∧
    (found.1 = p ∨ Text.asciiEq found.1.name p.name = false)

theorem resolveParams_mask (ht : env.resolvers.IsStandard) (hdenies : env.Denies invocation p)
    (htakes : env.resolvers.isIssuerOnly p = false) {params : List (Param × Resolver)}
    (hparams : ∀ found ∈ params, env.StandsBeside p found) (input : Input) :
    env.resolveParams invocation params (input.mask p.name) =
      env.resolveParams invocation params input := by
  induction params generalizing input with
  | nil => rfl
  | cons found rest ih =>
      obtain ⟨q, r⟩ := found
      obtain ⟨hr, hapart⟩ := hparams (q, r) List.mem_cons_self
      have hrest := fun found hfound => hparams found (List.mem_cons_of_mem _ hfound)
      rcases hapart with rfl | hne
      · have hissuer : r.isIssuerOnly q = false := by
          simpa only [ResolverTable.isIssuerOnly, hr] using htakes
        by_cases hinput : Supply.hasInput { input } q.name = true
        · have hmasked : Supply.hasInput { input := input.mask q.name } q.name = true :=
            (Supply.hasInput_mask q.name q.name { input }).trans hinput
          simp only [resolveParams, resolveParam_of_denies hdenies hissuer hinput,
            resolveParam_of_denies hdenies hissuer hmasked]
        · rw [Bool.not_eq_true] at hinput
          rw [Input.mask_of_lacks (Input.lacks_iff.mpr hinput)]
      · simp only [resolveParams]
        rw [resolveParam_mask ht hr hne]
        cases env.resolveParam invocation q r _ input with
        | error e => rfl
        | ok found =>
            cases found with
            | none => rfl
            | some found => simp only [Except.map, maskFound, Option.map_some, ih hrest]

theorem find?_of_mapM {declared : List Param} {params : List (Param × Resolver)}
    (hparams : declared.mapM env.withResolver = .ok params) :
    ∀ found ∈ params, env.resolvers.find? found.1.type = some found.2 := by
  intro found hfound
  obtain ⟨q, -, hresolver⟩ := exists_of_mem_mapM hparams hfound
  obtain ⟨rfl, hr⟩ := withResolver_eq_ok hresolver
  exact hr

theorem asciiEq_eq_false_of_mapM {c : Command} (hc : c.IsDeclared)
    {params : List (Param × Resolver)} (hparams : c.params.mapM env.withResolver = .ok params) :
    params.Pairwise fun f g => Text.asciiEq f.1.name g.1.name = false := by
  have hnames := hc.apartByName.asciiEq_eq_false
  rw [← map_fst_of_mapM hparams, List.pairwise_map] at hnames
  exact hnames

theorem standsBeside_of_mem {c : Command} (hc : c.IsDeclared) (hp : p ∈ c.params)
    {params : List (Param × Resolver)} (hparams : c.params.mapM env.withResolver = .ok params) :
    ∀ found ∈ params, env.StandsBeside p found := by
  intro found hfound
  obtain ⟨q, hq, hresolver⟩ := exists_of_mem_mapM hparams hfound
  obtain ⟨rfl, hr⟩ := withResolver_eq_ok hresolver
  refine ⟨hr, ?_⟩
  have hlower := hc.apartByName.isLower
  have hdistinct : (c.params.map (·.name)).Nodup := by
    rw [List.Nodup, List.pairwise_map]
    exact hc.apartByName.distinct
  by_cases hname : found.1.name = p.name
  · exact .inl (List.inj_on_of_nodup_map hdistinct hq hp hname)
  · right
    rw [← Bool.not_eq_true, Text.asciiEq_iff_of_isLower (hlower _ hq) (hlower p hp)]
    exact hname

/-- Whatever the options of a parameter are worth, a call comes to the same without the
permissions of the parameter. -/
theorem resolve_mask (ht : env.resolvers.IsStandard) {c : Command} (hc : c.IsDeclared)
    (hp : p ∈ c.params) (htakes : env.resolvers.isIssuerOnly p = false)
    (hdenies : env.Denies invocation p) (input : Input) :
    env.resolve invocation c.toCommandInfo (input.mask p.name) =
      env.resolve invocation c.toCommandInfo input := by
  cases hparams : c.params.mapM env.withResolver with
  | error e => rw [resolve, resolve, hparams]; rfl
  | ok params =>
      have hbeside := standsBeside_of_mem hc hp hparams
      rw [resolve_of_mapM hparams, resolve_of_mapM hparams,
        resolveParams_mask ht hdenies htakes hbeside]

/-- Parameters of other names leave the first option of a name alone. -/
theorem Reaches.offers (ht : env.resolvers.IsStandard) {option : TypedOption}
    {params rest : List (Param × Resolver)}
    (hreaches : env.Reaches invocation params input ((p, r) :: rest) left)
    (hresolvers : ∀ found ∈ params, env.resolvers.find? found.1.type = some found.2)
    (happart : params.Pairwise fun f g => Text.asciiEq f.1.name g.1.name = false)
    (h : input.Offers p.name option) : left.Offers p.name option := by
  generalize hremaining : (p, r) :: rest = remaining at hreaches
  induction hreaches with
  | here params input => exact h
  | @later q s others _ _ _ _ _ hparam hrest ih =>
      obtain ⟨hhead, htail⟩ := List.pairwise_cons.mp happart
      have hp : (p, r) ∈ others := hrest.mem _ (hremaining ▸ List.mem_cons_self)
      have hoffers := keeps_of_resolveParam (Supply.keeps_offers (hhead (p, r) hp)) ht
        (hresolvers (q, s) List.mem_cons_self) h hparam
      exact ih (fun found hfound => hresolvers found (List.mem_cons_of_mem _ hfound)) htail
        hoffers hremaining

/-- A parameter that is reached without options of its name was given none. -/
theorem Reaches.lacks (ht : env.resolvers.IsStandard) {params rest : List (Param × Resolver)}
    {given : List TypedOption}
    (hreaches : env.Reaches invocation params (.options given) ((p, r) :: rest) left)
    (hresolvers : ∀ found ∈ params, env.resolvers.find? found.1.type = some found.2)
    (happart : params.Pairwise fun f g => Text.asciiEq f.1.name g.1.name = false)
    (hlacks : left.Lacks p.name) : (Input.options given).Lacks p.name := by
  intro option hoption
  by_contra hnamed
  have hsome : (given.find? (Supply.isNamed p.name)).isSome = true :=
    List.find?_isSome.mpr ⟨option, hoption, by simpa [Supply.isNamed] using hnamed⟩
  obtain ⟨first, hfirst⟩ := Option.isSome_iff_exists.mp hsome
  have hoffers : left.Offers p.name first := hreaches.offers ht hresolvers happart hfirst
  cases left with
  | text source tokens => exact hoffers
  | options given' =>
      have hfalse := hlacks first (List.mem_of_find?_eq_some hoffers)
      have htrue := List.find?_some hoffers
      rw [Supply.isNamed, hfalse] at htrue
      cases htrue

/-- Of a command that is resolved without the permissions of a parameter, the parameter
was reached without input. -/
theorem exists_turn_of_denies (ht : env.resolvers.IsStandard) {c : Command} (hc : c.IsDeclared)
    {args : Arguments} {k : Nat} (hp : c.params[k]? = some p)
    (htakes : env.resolvers.isIssuerOnly p = false) (hdenies : env.Denies invocation p)
    (h : env.resolve invocation c.toCommandInfo input = .ok (.resolved args)) :
    ∃ r isLast left v, env.TurnOf invocation c.toCommandInfo input k p r isLast left ∧
      left.Lacks p.name ∧ (∀ given, input = .options given → input.Lacks p.name) ∧
      args[k]? = some (p.name, v) ∧ (v = .absent ∨ env.IsOfDefault invocation p r isLast v) := by
  obtain ⟨params, hparams, hresolved⟩ := resolve_eq_ok h
  obtain ⟨⟨q, r⟩, hk, hfound⟩ := exists_of_getElem?_mapM hparams hp
  obtain ⟨rfl, hr⟩ := withResolver_eq_ok hfound
  have hissuer : r.isIssuerOnly q = false := by
    simpa only [ResolverTable.isIssuerOnly, hr] using htakes
  obtain ⟨rest, left, v, after, hdrop, hreaches, hvalue, harg⟩ :=
    exists_reaches_of_resolveParams hresolved hk
  obtain ⟨hlacks, hv⟩ := absent_or_default ht hr hissuer hdenies hvalue
  refine ⟨r, isLastOf q r rest, left, v, ⟨params, rest, hparams, hdrop, hreaches, rfl⟩, hlacks,
    ?_, harg, hv⟩
  rintro given rfl
  exact (hdrop ▸ hreaches).lacks ht (find?_of_mapM hparams) (asciiEq_eq_false_of_mapM hc hparams)
    hlacks

end Environment

end ChatCommands
