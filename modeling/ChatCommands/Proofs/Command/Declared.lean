import ChatCommands.Command.Basic
import ChatCommands.Proofs.Outcome
import ChatCommands.Proofs.Text.Lowercase

/-!
# Declared commands

What building a draft guarantees: the words of the path and the names of the
parameters are in lowercase, and no two parameters go by one name, in any case.
The words of declared groups are in lowercase too.
-/

namespace ChatCommands

theorem ParamDraft.name_build {draft : ParamDraft} {p : Param} (h : draft.build = .ok p) :
    p.name = Text.lower draft.name := by
  rw [build, bind_eq_ok] at h
  obtain ⟨flags, -, h⟩ := h
  rw [bind_eq_ok] at h
  obtain ⟨choices, -, h⟩ := h
  rw [bind_eq_ok] at h
  obtain ⟨conditions, -, h⟩ := h
  simp only [pure, Except.pure, Except.ok.injEq] at h
  rw [← h]

/-- Names of parameters that a command may declare together. -/
structure Param.ApartByName (params : List Param) : Prop where
  isLower : ∀ p ∈ params, Text.IsLower p.name
  distinct : params.Pairwise fun p q => p.name ≠ q.name

theorem CommandDraft.apartByName_addParam
    {params params' : List Param} {draft : ParamDraft}
    (hparams : Param.ApartByName params) (h : addParam params draft = .ok params') :
    Param.ApartByName params' := by
  unfold addParam at h
  split at h
  next => contradiction
  next param hbuild =>
    split at h
    next => contradiction
    next hfresh =>
      rw [Except.ok.injEq] at h
      subst h
      have hname := ParamDraft.name_build hbuild
      constructor
      · intro p hp
        rcases List.mem_append.mp hp with hp | hp
        · exact hparams.isLower p hp
        · rw [List.mem_singleton.mp hp, hname]
          exact Text.isLower_lower draft.name
      · rw [List.pairwise_append]
        refine ⟨hparams.distinct, List.pairwise_singleton _ _, ?_⟩
        intro p hp q hq heq
        rw [List.mem_singleton.mp hq] at heq
        exact hfresh (List.any_eq_true.mpr ⟨p, hp, by simp [heq]⟩)

/-- Adding parameters builds each of their drafts, in order. -/
theorem CommandDraft.exists_of_foldlM_addParam {before after : List Param}
    {drafts : List ParamDraft} (h : drafts.foldlM addParam before = .ok after) :
    ∃ added, after = before ++ added ∧
      List.Forall₂ (fun draft p => draft.build = .ok p) drafts added := by
  induction drafts generalizing before with
  | nil =>
      simp only [List.foldlM_nil, pure, Except.pure, Except.ok.injEq] at h
      exact ⟨[], by rw [List.append_nil, h], .nil⟩
  | cons draft drafts ih =>
      rw [List.foldlM_cons, bind_eq_ok] at h
      obtain ⟨between, hstep, hrest⟩ := h
      obtain ⟨added, rfl, hadded⟩ := ih hrest
      unfold addParam at hstep
      split at hstep
      next => cases hstep
      next p hbuild =>
        split at hstep
        next => cases hstep
        next =>
          rw [← Except.ok.inj hstep]
          exact ⟨p :: added, by simp, .cons hbuild hadded⟩

/-- All that building a draft takes over into the command. -/
theorem CommandDraft.build_eq_ok {draft : CommandDraft} {c : Command}
    (h : draft.build = .ok c) :
    draft.fault = none ∧ pathWords draft.path = c.path ∧ draft.handler = some c.handler ∧
      draft.params.foldlM addParam [] = .ok c.params ∧ c.description = draft.description ∧
      c.help = draft.help ∧ c.permissions = draft.permissions := by
  simp only [build] at h
  split at h
  next => contradiction
  next => contradiction
  next => contradiction
  next root sub handler hfault hwords hhandler =>
    split at h
    next => contradiction
    next params hparams =>
      rw [Except.ok.injEq] at h
      subst h
      exact ⟨hfault, hwords, hhandler, hparams, rfl, rfl, rfl⟩

/-- A command that some draft builds. -/
def Command.IsDeclared (c : Command) : Prop :=
  ∃ draft : CommandDraft, draft.build = .ok c

namespace Command.IsDeclared

variable {c : Command}

theorem isLower_of_mem_path (h : c.IsDeclared) {word : String} (hword : word ∈ c.path) :
    Text.IsLower word := by
  obtain ⟨draft, h⟩ := h
  obtain ⟨-, hpath, -⟩ := CommandDraft.build_eq_ok h
  rw [← hpath, CommandDraft.pathWords, List.mem_map] at hword
  obtain ⟨written, -, rfl⟩ := hword
  exact Text.isLower_lower written

theorem lower_root (h : c.IsDeclared) : Text.lower c.root = c.root :=
  Text.lower_of_isLower (h.isLower_of_mem_path List.mem_cons_self)

theorem isLower_of_mem_sub (h : c.IsDeclared) {word : String} (hword : word ∈ c.sub) :
    Text.IsLower word :=
  h.isLower_of_mem_path (List.mem_cons_of_mem c.root hword)

theorem apartByName (h : c.IsDeclared) : Param.ApartByName c.params := by
  obtain ⟨draft, h⟩ := h
  obtain ⟨-, -, -, hparams, -⟩ := CommandDraft.build_eq_ok h
  refine foldlM_induction Param.ApartByName ⟨by simp, .nil⟩ ?_ hparams
  intro paramDraft _ before after hbefore hstep
  exact CommandDraft.apartByName_addParam hbefore hstep

end Command.IsDeclared

theorem isLower_of_mem_map_toCommandInfo {commands : List Command}
    (h : ∀ c ∈ commands, c.IsDeclared) :
    ∀ c ∈ commands.map (·.toCommandInfo), ∀ word ∈ c.path, Text.IsLower word := by
  intro c hc word hword
  obtain ⟨d, hd, rfl⟩ := List.mem_map.mp hc
  exact (h d hd).isLower_of_mem_path hword

/-- A group whose path is written in some case. -/
def Group.IsDeclared (g : Group) : Prop :=
  ∃ path description aliases, g = Group.declare path description aliases

theorem Group.IsDeclared.isLower_of_mem_path {g : Group} (h : g.IsDeclared) {word : String}
    (hword : word ∈ g.path) : Text.IsLower word := by
  obtain ⟨path, description, aliases, rfl⟩ := h
  rw [declare, CommandDraft.pathWords, List.mem_map] at hword
  obtain ⟨written, -, rfl⟩ := hword
  exact Text.isLower_lower written

theorem Param.ApartByName.asciiEq_eq_false
    {params : List Param} (h : Param.ApartByName params) :
    params.Pairwise fun p q => Text.asciiEq p.name q.name = false := by
  refine h.distinct.imp_of_mem ?_
  intro p q hp hq hne
  rw [Bool.eq_false_iff]
  intro heq
  exact hne ((Text.asciiEq_iff_of_isLower (h.isLower p hp) (h.isLower q hq)).mp heq)

end ChatCommands
