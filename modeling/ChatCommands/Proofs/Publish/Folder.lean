import ChatCommands.Proofs.Publish.Protocol
import ChatCommands.Proofs.Schema.Snapshot
import ChatCommands.Proofs.Text.FileName

/-!
# What a folder holds

A snapshot that is kept stands in the file of its root, and every other file stays as it was.
When the folder is opened, a root is found in its own file, unless it has none that is read or
another root is kept there.
-/

namespace ChatCommands.Folder

open Schema
open Session (noted)

variable {f : Folder} {root other name : String} {s x : Snapshot}

/-! ## Files of roots -/

/-- The file in which the tree of a root is kept, if there is one. -/
def file? (root : String) : Option String :=
  Text.ownFile? (filePath root)

/-- Whether a file is read when the folder is opened. -/
def IsSeen (name : String) : Prop :=
  Text.extension? name = some "json"

theorem file?_eq_of_lower (h : Text.lower root = Text.lower other) : file? root = file? other := by
  rw [file?, filePath, h, file?, filePath]

theorem file?_of_isOf (h : s.isOf root = true) : file? s.tree.name = file? root := by
  rw [Snapshot.isOf, beq_iff_eq] at h
  exact file?_eq_of_lower h

/-- A name that can be the name of a file: it has no slash and no null character. -/
def IsPlain (root : String) : Prop :=
  ∀ c ∈ root.toList, c ≠ '/' ∧ c.toNat ≠ 0

theorem isPlain_iff :
    IsPlain root ↔ (root.toList.all fun c => c != '/' && c.toNat != 0) = true := by
  rw [List.all_eq_true]
  simp only [IsPlain, Bool.and_eq_true, bne_iff_ne]

instance (root : String) : Decidable (IsPlain root) :=
  decidable_of_iff _ isPlain_iff.symm

theorem IsPlain.lower (h : IsPlain root) : IsPlain (Text.lower root) := by
  intro c hc
  rw [Text.lower, String.toList_ofList] at hc
  by_cases hletter : c.toNat < 97
  · exact h c (Text.mem_of_mem_lowerFrom hc hletter)
  · constructor
    · rintro rfl
      exact hletter (by decide)
    · omega

/-- A plain root of at most 32 characters is kept in the file of its name. -/
theorem file?_of_isPlain (hplain : IsPlain root) (hlength : root.toList.length ≤ 32) :
    file? root = some (filePath root) := by
  have hpath : (filePath root).toList = (Text.lower root).toList ++ ".json".toList :=
    String.toList_append
  apply Text.ownFile?_of_isFileName
  · have hend : (".json".toList.all fun c => c != '/' && c.toNat != 0) = true := by decide
    rw [Text.isFileName, hpath, Bool.and_eq_true, List.all_append, isPlain_iff.mp hplain.lower, hend]
    constructor
    · rfl
    · have hbytes := Text.byteLength_lowerFrom_le [] root.toList
      have hend : Text.byteLength ".json".toList = 5 := by decide
      rw [decide_eq_true_eq, Text.byteLength_append, Text.lower, String.toList_ofList, hend,
        Text.maxNameBytes]
      omega
  · have hend : ".json".toList.length = 5 := by decide
    rw [hpath, List.length_append, hend]
    omega

example : file? "a/b" = none ∧ file? "./x" = file? "x" := by
  decide +kernel

/-- The file of a root is read, if the root has a name. -/
theorem isSeen_filePath (hroot : root.toList ≠ []) : IsSeen (filePath root) := by
  have hstem : (Text.lower root).toList ≠ [] := by
    rw [Text.lower, String.toList_ofList]
    exact Text.lowerFrom_ne_nil hroot
  have hend : "." ++ "json" = ".json" := by decide
  have hpath : filePath root = Text.lower root ++ "." ++ "json" := by
    rw [filePath, String.append_assoc, hend]
  rw [IsSeen, hpath]
  exact Text.extension?_append hstem (by decide)

theorem filePath_inj : filePath root = filePath other ↔ Text.lower root = Text.lower other := by
  rw [filePath, filePath, ← String.toList_inj, String.toList_append, String.toList_append,
    List.append_cancel_right_eq, String.toList_inj]

/-! ## Keeping snapshots -/

/-- The snapshot that a file holds. -/
def held? (f : Folder) (name : String) : Option Snapshot :=
  (f.get? name).bind fun text => (Snapshot.read text).toOption

theorem save_eq (f : Folder) (s : Snapshot) :
    f.save s = (file? s.tree.name).elim f (f.insert · s.toJson.pretty) := rfl

theorem get?_save (f : Folder) (s : Snapshot) (name : String) :
    (f.save s).get? name =
      if file? s.tree.name = some name then some s.toJson.pretty else f.get? name := by
  rw [save_eq]
  cases file? s.tree.name with
  | none => simp
  | some own => simp [Dict.get?_insert]

/-- A snapshot that is kept is held by the file of its root, and the other files hold what they
held. -/
theorem held?_save (hs : s.tree.IsKept) (f : Folder) (name : String) :
    (f.save s).held? name = if file? s.tree.name = some name then some s else f.held? name := by
  rw [held?, get?_save]
  split
  · rw [Option.bind_some, Snapshot.read_pretty hs]
    rfl
  · rfl

/-- The snapshots that the platform confirmed are kept one after another. -/
def saveAll (f : Folder) (confirmed : List Snapshot) : Folder :=
  confirmed.foldl (fun f x => f.save (noted x)) f

theorem saveAll_concat (f : Folder) (confirmed : List Snapshot) (x : Snapshot) :
    f.saveAll (confirmed ++ [x]) = (f.saveAll confirmed).save (noted x) :=
  List.foldl_concat _ _ _ _

theorem map_saveAll_concat (folder : Option Folder) (confirmed : List Snapshot) (x : Snapshot) :
    folder.map (·.saveAll (confirmed ++ [x])) =
      (folder.map (·.saveAll confirmed)).map (·.save (noted x)) := by
  cases folder with
  | none => simp only [Option.map_none]
  | some f => simp only [Option.map_some, saveAll_concat]

/-- The last of some snapshots that is kept in a file. -/
def lastIn? (confirmed : List Snapshot) (name : String) : Option Snapshot :=
  confirmed.reverse.find? fun x => file? x.tree.name == some name

theorem lastIn?_concat (confirmed : List Snapshot) (x : Snapshot) (name : String) :
    lastIn? (confirmed ++ [x]) name =
      if file? x.tree.name = some name then some x else lastIn? confirmed name := by
  rw [lastIn?, find?_reverse_concat, lastIn?]
  simp only [beq_iff_eq]

/-- A file holds what was kept there last, or else what it held before. -/
theorem held?_saveAll {confirmed : List Snapshot} (h : ∀ x ∈ confirmed, x.tree.IsKept)
    (f : Folder) (name : String) :
    (f.saveAll confirmed).held? name = ((lastIn? confirmed name).map noted).or (f.held? name) := by
  induction confirmed using List.reverseRecOn with
  | nil => rfl
  | append_singleton confirmed x ih =>
      have hx : (noted x).tree.IsKept := (h x (by simp)).markRegistered
      have hname : (noted x).tree.name = x.tree.name := x.tree.name_markRegistered
      rw [saveAll_concat, held?_save hx, hname, lastIn?_concat]
      split
      · rfl
      · exact ih fun y hy => h y (List.mem_append_left _ hy)

/-! ## Opening a folder -/

/-- A root is found in no other file than its own. -/
def KeepsApart (f : Folder) (root : String) : Prop :=
  ∀ name s, IsSeen name → f.held? name = some s → s.isOf root = true → file? root = some name

theorem keepsApart_empty (root : String) : KeepsApart Dict.empty root := by
  intro name s _ hheld
  cases hheld

theorem KeepsApart.save (h : f.KeepsApart root) (hs : s.tree.IsKept) : (f.save s).KeepsApart root := by
  intro name x hseen hheld hof
  rw [held?_save hs] at hheld
  split at hheld
  next hfile =>
    obtain rfl := Option.some.inj hheld
    rw [← file?_of_isOf hof]
    exact hfile
  next => exact h name x hseen hheld hof

theorem KeepsApart.saveAll (h : f.KeepsApart root) {confirmed : List Snapshot}
    (hkept : ∀ x ∈ confirmed, x.tree.IsKept) : (f.saveAll confirmed).KeepsApart root := by
  induction confirmed using List.reverseRecOn with
  | nil => exact h
  | append_singleton confirmed x ih =>
      have hx : (noted x).tree.IsKept := (hkept x (by simp)).markRegistered
      rw [saveAll_concat]
      exact (ih fun y hy => hkept y (List.mem_append_left _ hy)).save hx

theorem mem_snapshots :
    x ∈ f.snapshots ↔ ∃ name s, IsSeen name ∧ f.held? name = some s ∧ noted s = x := by
  simp only [snapshots, List.mem_filterMap, List.mem_filter, beq_iff_eq, held?, noted,
    Option.bind_eq_some_iff, Option.map_eq_some_iff, Dict.get?_eq_some_iff, Prod.exists, IsSeen]
  constructor
  · rintro ⟨name, text, ⟨hfile, hseen⟩, s, hread, rfl⟩
    exact ⟨name, s, hseen, ⟨text, hfile, hread⟩, rfl⟩
  · rintro ⟨name, s, hseen, ⟨text, hfile, hread⟩, rfl⟩
    exact ⟨name, text, ⟨hfile, hseen⟩, s, hread, rfl⟩

/-- The snapshot of a root is found in the file of the root. -/
theorem last?_snapshots (h : f.KeepsApart root) :
    Snapshot.last? f.snapshots root = some x ↔
      ∃ name s, file? root = some name ∧ IsSeen name ∧ f.held? name = some s ∧
        s.isOf root = true ∧ noted s = x := by
  have hfound : ∀ {y}, Snapshot.last? f.snapshots root = some y →
      ∃ name s, file? root = some name ∧ IsSeen name ∧ f.held? name = some s ∧
        s.isOf root = true ∧ noted s = y := by
    intro y hy
    obtain ⟨name, s, hseen, hheld, rfl⟩ := mem_snapshots.mp (Snapshot.mem_of_last? hy)
    have hof : s.isOf root = true := by
      rw [← Session.isOf_noted]
      exact List.find?_some hy
    exact ⟨name, s, h name s hseen hheld hof, hseen, hheld, hof, rfl⟩
  refine ⟨hfound, ?_⟩
  rintro ⟨name, s, hfile, hseen, hheld, hof, rfl⟩
  cases hlast : Snapshot.last? f.snapshots root with
  | none =>
      have hmem : noted s ∈ f.snapshots := mem_snapshots.mpr ⟨name, s, hseen, hheld, rfl⟩
      have hnot := List.find?_eq_none.mp hlast _ (List.mem_reverse.mpr hmem)
      rw [Session.isOf_noted] at hnot
      exact absurd hof hnot
  | some y =>
      obtain ⟨name', s', hfile', -, hheld', -, rfl⟩ := hfound hlast
      obtain rfl := Option.some.inj (hfile.symm.trans hfile')
      obtain rfl := Option.some.inj (hheld.symm.trans hheld')
      rfl

end ChatCommands.Folder
