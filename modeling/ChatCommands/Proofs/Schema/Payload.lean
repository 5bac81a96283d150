import Mathlib.Data.List.Forall2
import ChatCommands.Proofs.Schema.Bounds
import ChatCommands.Proofs.Schema.Kept

/-!
# Payloads and equality

Two trees that were laid out have equal payloads exactly when they are the same, and exactly
then the platform is sent equal records.  A payload takes the option type of a parameter out
of its properties.  Nothing gets lost on the way, because every parameter that is laid out has
a text for its option type.
-/

namespace ChatCommands

theorem Dict.get?_erase_self {α : Type} (d : Dict α) (key : String) :
    (d.erase key).get? key = none := by
  rw [get?, erase, List.find?_filter, Option.map_eq_none_iff, List.find?_eq_none]
  simp

namespace Schema

/-- Properties are the same when they agree in one key and are the same apart from it. -/
theorem Properties.same_iff_erase {a b : Properties} (key : String) :
    a.same b = true ↔
      sameValue (a.get? key) (b.get? key) = true ∧ Properties.same (a.erase key) (b.erase key) = true := by
  rw [same_iff, same_iff]
  constructor
  · intro h
    refine ⟨h key, fun other => ?_⟩
    by_cases hother : other = key
    · rw [hother, Dict.get?_erase_self, Dict.get?_erase_self]
      rfl
    · rw [Dict.get?_erase_of_ne a hother, Dict.get?_erase_of_ne b hother]
      exact h other
  · rintro ⟨hkey, hrest⟩ other
    by_cases hother : other = key
    · rw [hother]
      exact hkey
    · have h := hrest other
      rwa [Dict.get?_erase_of_ne a hother, Dict.get?_erase_of_ne b hother] at h

/-! ## Records -/

theorem NodeKind.name_inj {j k : NodeKind} : j.name = k.name ↔ j = k := by
  cases j <;> cases k <;> simp [name]

/-- Records that start with a field, which may be missing, and do not have it behind that. -/
theorem sameFields_property {key : String} {a b : Option Json} {as bs : List (String × Json)}
    (ha : ∀ field ∈ as, field.1 ≠ key) (hb : ∀ field ∈ bs, field.1 ≠ key) :
    Json.sameFields (property key a ++ as) (property key b ++ bs) =
      (sameValue a b && Json.sameFields as bs) := by
  cases a with
  | none =>
      cases b with
      | none => rfl
      | some b =>
          cases as with
          | nil => rfl
          | cons first rest =>
              have hne : (first.1 == key) = false := beq_eq_false_iff_ne.mpr (ha first List.mem_cons_self)
              simp [property, sameValue, Json.sameFields, hne]
  | some a =>
      cases b with
      | none =>
          cases bs with
          | nil => rfl
          | cons first rest =>
              have hne : (key == first.1) = false :=
                beq_eq_false_iff_ne.mpr (hb first List.mem_cons_self).symm
              simp [property, sameValue, Json.sameFields, hne]
      | some b => simp [property, sameValue, Json.sameFields]

theorem sameFields_property_alone (key : String) (a b : Option Json) :
    Json.sameFields (property key a) (property key b) = sameValue a b := by
  cases a <;> cases b <;> simp [property, sameValue, Json.sameFields]

namespace Payload

variable {p q : Payload} {ps qs : List Payload}

/-- The fields of a record behind its kind, its name and its description. -/
def furtherFields : Payload → List (String × Json)
  | node _ _ _ optionType options constraints =>
    property "option_type" (optionType.map .string) ++
      (property "options" (if options.isEmpty then none else some (.array (toJsonAll options))) ++
        property "constraints"
          (if constraints.entries.isEmpty then none else some (.object constraints.entries)))

theorem toJson_eq (p : Payload) :
    p.toJson = .object
      (("type", .string p.kind.name) :: ("name", .string p.name) ::
        ("description", .string p.description) :: p.furtherFields) := by
  obtain ⟨kind, name, description, optionType, options, constraints⟩ := p
  cases optionType <;> cases options <;> cases hentries : constraints.entries <;>
    simp [toJson, furtherFields, property, hentries, Payload.kind, Payload.name,
      Payload.description]

theorem key_ne_of_mem_property {key other : String} {value : Option Json} (h : other ≠ key) :
    ∀ field ∈ property other value, field.1 ≠ key := by
  intro field hfield
  rwa [fst_of_mem_property hfield]

theorem sameValue_optionType (s t : Option String) :
    sameValue (s.map .string) (t.map .string) = (s == t) := by
  cases s <;> cases t <;> rfl

theorem sameValue_constraints (a b : Properties) :
    sameValue (if a.entries.isEmpty then none else some (.object a.entries))
      (if b.entries.isEmpty then none else some (.object b.entries)) = a.same b := by
  rw [Properties.same]
  cases a.entries <;> cases b.entries <;> simp [sameValue, Json.same, Json.sameFields]

theorem sameValue_options (ps qs : List Payload) :
    sameValue (if ps.isEmpty then none else some (.array (toJsonAll ps)))
      (if qs.isEmpty then none else some (.array (toJsonAll qs))) =
        Json.sameItems (toJsonAll ps) (toJsonAll qs) := by
  cases ps <;> cases qs <;> simp [sameValue, Json.same, toJsonAll, Json.sameItems]

theorem sameFields_furtherFields (p q : Payload) :
    Json.sameFields p.furtherFields q.furtherFields =
      (p.optionType == q.optionType &&
        (Json.sameItems (toJsonAll p.options) (toJsonAll q.options) &&
          p.constraints.same q.constraints)) := by
  obtain ⟨j, m, d, s, ps, a⟩ := p
  obtain ⟨k, n, e, t, qs, b⟩ := q
  have hconstraints : ∀ c : Properties, ∀ field ∈ property "constraints"
      (if c.entries.isEmpty then none else some (.object c.entries)), field.1 ≠ "options" :=
    fun c => key_ne_of_mem_property (by decide)
  have hbehind : ∀ (rs : List Payload) (c : Properties),
      ∀ field ∈ property "options" (if rs.isEmpty then none else some (.array (toJsonAll rs))) ++
        property "constraints" (if c.entries.isEmpty then none else some (.object c.entries)),
          field.1 ≠ "option_type" := by
    intro rs c field hfield
    rcases List.mem_append.mp hfield with hfield | hfield
    · exact key_ne_of_mem_property (by decide) field hfield
    · exact key_ne_of_mem_property (by decide) field hfield
  rw [furtherFields, furtherFields, sameFields_property (hbehind ps a) (hbehind qs b),
    sameFields_property (hconstraints a) (hconstraints b), sameFields_property_alone,
    sameValue_optionType, sameValue_options, sameValue_constraints]
  rfl

mutual

/-- Records are equal when the payloads are. -/
theorem same_toJson : ∀ p q : Payload, p.toJson.same q.toJson = p.same q
  | node j m d s ps a, node k n e t qs b => by
      have hkind : (j.name == k.name) = (j == k) := by
        rw [Bool.eq_iff_iff, beq_iff_eq, beq_iff_eq, NodeKind.name_inj]
      simp only [toJson_eq, Json.same, Json.sameFields, sameFields_furtherFields, same,
        beq_self_eq_true, Bool.true_and, optionType, options, constraints, kind, name, description,
        sameItems_toJsonAll ps qs, hkind, Bool.and_assoc]

theorem sameItems_toJsonAll : ∀ ps qs : List Payload,
    Json.sameItems (toJsonAll ps) (toJsonAll qs) = sameAll ps qs
  | [], [] => rfl
  | [], q :: qs => rfl
  | p :: ps, [] => rfl
  | p :: ps, q :: qs => by
      rw [toJsonAll, toJsonAll, Json.sameItems, sameAll, same_toJson p q,
        sameItems_toJsonAll ps qs]

end

theorem sameAll_iff : sameAll ps qs = true ↔ List.Forall₂ (fun p q => p.same q = true) ps qs := by
  induction ps generalizing qs with
  | nil => cases qs <;> simp [sameAll]
  | cons p ps ih => cases qs <;> simp [sameAll, ih]

theorem same_iff : p.same q = true ↔
    p.kind = q.kind ∧ p.name = q.name ∧ p.description = q.description ∧
      (p.optionType = q.optionType ∧ p.constraints.same q.constraints = true) ∧
        sameAll p.options q.options = true := by
  obtain ⟨j, m, d, s, ps, a⟩ := p
  obtain ⟨k, n, e, t, qs, b⟩ := q
  simp only [same, Bool.and_eq_true, beq_iff_eq, kind, name, description, optionType, options,
    constraints]
  tauto

end Payload

/-! ## Nodes -/

namespace Node

variable {x y : Node} {ps qs : List Payload}

/-- If a node is a parameter, a text is published as its option type. -/
def TypedIfParameter (n : Node) : Prop :=
  n.kind = .parameter → ∃ s, n.properties.get? "type" = some (.string s)

theorem kind_payload : (x.payload ps).kind = x.kind := by
  unfold payload
  split <;> rfl

theorem name_payload : (x.payload ps).name = x.name := by
  unfold payload
  split <;> rfl

theorem description_payload : (x.payload ps).description = x.description := by
  unfold payload
  split <;> rfl

/-- The option type and the other properties of two nodes of one kind are together as good as
all their properties. -/
theorem same_properties_iff (hx : x.TypedIfParameter) (hy : y.TypedIfParameter)
    (hkind : x.kind = y.kind) :
    ((x.payload ps).optionType = (y.payload qs).optionType ∧
        (x.payload ps).constraints.same (y.payload qs).constraints = true) ↔
      x.properties.same y.properties = true := by
  by_cases hparameter : x.kind = .parameter
  · obtain ⟨s, hs⟩ := hx hparameter
    obtain ⟨t, ht⟩ := hy (hkind ▸ hparameter)
    have htype : sameValue (some (.string s)) (some (.string t)) = (s == t) := rfl
    simp only [payload, ← hkind, hparameter, hs, ht, Option.bind_some, Json.string?,
      Payload.optionType, Payload.constraints, Option.some.injEq]
    rw [Properties.same_iff_erase "type" (a := x.properties), hs, ht, htype, beq_iff_eq]
  · have hpayload : ∀ {n : Node} (os : List Payload), n.kind ≠ .parameter →
        n.payload os = .node n.kind n.name n.description none os n.properties := by
      intro n os hother
      unfold payload
      split
      next heq => exact absurd heq hother
      next => rfl
    rw [hpayload ps hparameter, hpayload qs (hkind ▸ hparameter)]
    simp only [Payload.optionType, Payload.constraints, true_and]

/-- The payloads of two nodes are the same if the nodes agree and what hangs below them has the
same payloads. -/
theorem same_payload_iff (hx : x.TypedIfParameter) (hy : y.TypedIfParameter) :
    (x.payload ps).same (y.payload qs) = true ↔
      x.Agrees y ∧ List.Forall₂ (fun p q => p.same q = true) ps qs := by
  rw [agrees_iff, Payload.same_iff, kind_payload, kind_payload, name_payload, name_payload,
    description_payload, description_payload, options_payload, options_payload,
    Payload.sameAll_iff]
  constructor
  · rintro ⟨hkind, hname, hdescription, hproperties, hbelow⟩
    exact ⟨⟨hkind, hname, hdescription, (same_properties_iff hx hy hkind).mp hproperties⟩, hbelow⟩
  · rintro ⟨⟨hkind, hname, hdescription, hproperties⟩, hbelow⟩
    exact ⟨hkind, hname, hdescription, (same_properties_iff hx hy hkind).mpr hproperties, hbelow⟩

end Node

/-! ## Trees -/

namespace Tree

variable {a b t : Tree} {i j fuel fuel' : Nat} {x y : Node}

/-- The payload of a node has those of its children below it. -/
theorem IsLinked.payloadFrom_succ (ht : t.IsLinked) (hx : t.node? i = some x) :
    t.payloadFrom (fuel + 1) i = x.payload (x.children.map (t.payloadFrom fuel)) := by
  rw [Tree.payloadFrom_succ hx, ← ht.map_fst_childrenOf hx, List.map_map]
  rfl

/-- With enough fuel, payloads are the same if the nodes and all that hangs below them are. -/
theorem same_payloadFrom_iff (ha : a.IsLinked) (hb : b.IsLinked)
    (hta : ∀ n ∈ a.nodes, n.TypedIfParameter) (htb : ∀ n ∈ b.nodes, n.TypedIfParameter)
    (hx : a.node? i = some x) (hy : b.node? j = some y) (hfuel : a.size < i + fuel)
    (hfuel' : b.size < j + fuel') :
    (a.payloadFrom fuel i).same (b.payloadFrom fuel' j) = true ↔
      a.sameBelow b fuel i j = true := by
  -- Children have greater numbers than their parents, and so neither fuel runs out first.
  induction fuel generalizing i j x y fuel' with
  | zero =>
      have hi := lt_size_of_node? hx
      omega
  | succ fuel ih =>
      obtain ⟨rest, rfl⟩ : ∃ rest, fuel' = rest + 1 := by
        have hj := lt_size_of_node? hy
        exact Nat.exists_eq_add_one.mpr (by omega)
      have hchild : ∀ c d, (c, d) ∈ x.children.zip y.children →
          ((a.payloadFrom fuel c).same (b.payloadFrom rest d) = true ↔
            a.sameBelow b fuel c d = true) := by
        intro c d hpair
        obtain ⟨hc, hd⟩ := List.of_mem_zip hpair
        obtain ⟨m, hm, hup⟩ := ha.child hx hc
        obtain ⟨n, hn, hup'⟩ := hb.child hy hd
        have hlt := ha.lt_of_parent hm hup
        have hlt' := hb.lt_of_parent hn hup'
        exact ih hm hn (by omega) (by omega)
      rw [ha.payloadFrom_succ hx, hb.payloadFrom_succ hy,
        Node.same_payload_iff (hta x (List.mem_of_getElem? hx)) (htb y (List.mem_of_getElem? hy)),
        sameBelow_succ hx hy, List.forall₂_map_left_iff, List.forall₂_map_right_iff,
        List.forall₂_iff_zip]
      refine and_congr_right fun _ => and_congr_right fun _ => ?_
      exact ⟨fun h pair hpair => (hchild _ _ hpair).mp (h hpair),
        fun h c d hpair => (hchild c d hpair).mpr (h (c, d) hpair)⟩

/-- Every parameter that is laid out has a text for its option type. -/
theorem IsLaidOut.typedIfParameter (h : t.IsLaidOut) : ∀ n ∈ t.nodes, n.TypedIfParameter := by
  obtain ⟨v, root, commands, groups, h⟩ := h
  intro n hn hkind
  obtain ⟨i, hi⟩ := List.getElem?_of_mem hn
  obtain ⟨c, j, p, -, -, -, rfl⟩ := Vocabulary.published_of_parameter h hi hkind
  exact ⟨p.type.optionType.name, get?_type v.resolvers p⟩

/-- Two trees that were laid out are the same exactly when they have the same payload, and then
exactly when the records of their payloads are equal. -/
theorem same_iff_payload (ha : a.IsLaidOut) (hb : b.IsLaidOut) :
    (a.same b = true ↔ a.payload.same b.payload = true) ∧
      (a.same b = true ↔ a.payload.toJson.same b.payload.toJson = true) := by
  have hpayload : a.payload.same b.payload = true ↔ a.same b = true := by
    apply same_payloadFrom_iff ha.isLinked hb.isLinked ha.typedIfParameter hb.typedIfParameter
      a.node?_root b.node?_root
    · omega
    · omega
  rw [Payload.same_toJson]
  exact ⟨hpayload.symm, hpayload.symm⟩

/-- A group is added to before and after another subcommand; in a third tree a parameter has
another type. -/
theorem same_iff_payload_role :
    let param (type : ParamType) : Param :=
      ⟨"who", type, false, none, Dict.empty, Dict.empty, [], [], none, none, none, none, none⟩
    let info (sub : List String) (params : List Param) : CommandInfo :=
      ⟨"role", sub, params, "Roles", "", Dict.empty⟩
    let v : Vocabulary := ⟨.standard, .standard⟩
    let set (type : ParamType) : CommandInfo := info ["color", "set"] [param type]
    let drop : CommandInfo := info ["color", "drop"] []
    let give : CommandInfo := info ["give"] [param .role]
    ∃ a b c, v.layout "role" [set .role, give, drop] [] = .ok a ∧
      v.layout "role" [set .role, drop, give] [] = .ok b ∧
      v.layout "role" [set .string, drop, give] [] = .ok c ∧
      a.nodes.map (·.name) ≠ b.nodes.map (·.name) ∧
      a.payload.same b.payload = true ∧ a.payload.toJson.same b.payload.toJson = true ∧
      ¬ a.payload.same c.payload = true ∧ ¬ a.payload.toJson.same c.payload.toJson = true := by
  intro param info v set drop give
  have hrun : (v.layout "role" [set .role, give, drop] [] >>= fun a =>
      v.layout "role" [set .role, drop, give] [] >>= fun b =>
        (v.layout "role" [set .string, drop, give] []).map fun c =>
          (a.nodes.map (·.name) == b.nodes.map (·.name), a.same b, a.same c)).toOption =
      some (false, true, false) := by decide +kernel
  obtain ⟨a, ha, hrun⟩ := bind_eq_ok.mp (toOption_eq_some_iff.mp hrun)
  obtain ⟨b, hb, hrun⟩ := bind_eq_ok.mp hrun
  obtain ⟨c, hc, hrun⟩ := map_eq_ok.mp hrun
  simp only [Prod.mk.injEq, beq_eq_false_iff_ne] at hrun
  obtain ⟨hnumbers, hsame, hother⟩ := hrun
  have hlaid : a.IsLaidOut := ⟨v, "role", _, _, ha⟩
  have hab := same_iff_payload hlaid ⟨v, "role", _, _, hb⟩
  have hac := same_iff_payload hlaid ⟨v, "role", _, _, hc⟩
  have hne : ¬ a.same c = true := by rw [hother]; exact Bool.false_ne_true
  exact ⟨a, b, c, ha, hb, hc, hnumbers, hab.1.mp hsame, hab.2.mp hsame,
    fun h => hne (hac.1.mpr h), fun h => hne (hac.2.mpr h)⟩

end Tree

end Schema

end ChatCommands
