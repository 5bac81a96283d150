import ChatCommands.Param.Basic
import ChatCommands.Proofs.Outcome
import ChatCommands.Proofs.Text.Words

/-!
# Declared choices

What reading a declaration guarantees for the choices of a parameter: their values have
no blanks at their ends.
-/

namespace ChatCommands

namespace Declaration

theorem trim_of_mem_entries {separator : Char} {spec entry : String}
    (h : entry ∈ entries separator spec) : Text.trim entry = entry := by
  obtain ⟨hmem, -⟩ := List.mem_filter.mp h
  obtain ⟨written, -, rfl⟩ := List.mem_map.mp hmem
  exact Text.trim_trim written

theorem trim_value_of_readChoice {entry : String} {choice : Choice}
    (hentry : Text.trim entry = entry) (h : readChoice entry = .ok choice) :
    Text.trim choice.value = choice.value := by
  simp only [readChoice] at h
  split at h
  next => cases h
  next =>
    rw [← Except.ok.inj h, parts]
    split
    next before after hparts => exact Text.trim_trim after
    next => exact hentry

/-- Choices whose values have no blanks at their ends. -/
def AreTrimmed (choices : List Choice) : Prop :=
  ∀ choice ∈ choices, Text.trim choice.value = choice.value

theorem areTrimmed_of_addChoice {before after : List Choice} {entry : String}
    (hentry : Text.trim entry = entry) (hbefore : AreTrimmed before)
    (h : addChoice before entry = .ok after) : AreTrimmed after := by
  obtain ⟨added, hadded, h⟩ := bind_eq_ok.mp h
  split at h
  next => cases h
  next =>
    intro choice hchoice
    rw [← Except.ok.inj h] at hchoice
    rcases List.mem_append.mp hchoice with hchoice | hchoice
    · exact hbefore choice hchoice
    · rw [List.mem_singleton.mp hchoice]
      exact trim_value_of_readChoice hentry hadded

theorem areTrimmed_of_readChoices {spec : String} {choices : List Choice}
    (h : readChoices spec = .ok choices) : AreTrimmed choices := by
  have hnil : AreTrimmed [] := fun _ hchoice => absurd hchoice List.not_mem_nil
  refine foldlM_induction AreTrimmed hnil ?_ h
  intro entry hentry before after hbefore hstep
  exact areTrimmed_of_addChoice (trim_of_mem_entries hentry) hbefore hstep

end Declaration

/-- A parameter that some draft builds. -/
def Param.IsDeclared (p : Param) : Prop :=
  ∃ draft : ParamDraft, draft.build = .ok p

theorem Param.IsDeclared.trim_value {p : Param} (h : p.IsDeclared) {choice : Choice}
    (hchoice : choice ∈ p.choices) : Text.trim choice.value = choice.value := by
  obtain ⟨draft, h⟩ := h
  obtain ⟨flags, -, h⟩ := bind_eq_ok.mp h
  obtain ⟨choices, hchoices, h⟩ := bind_eq_ok.mp h
  obtain ⟨conditions, -, h⟩ := bind_eq_ok.mp h
  simp only [pure, Except.pure, Except.ok.injEq] at h
  subst h
  exact Declaration.areTrimmed_of_readChoices hchoices choice hchoice

end ChatCommands
