import ChatCommands.Proofs.Publish.Folder
import ChatCommands.Proofs.Schema.Kept

/-!
# Starting again

A publisher that starts from the folder of another one knows the trees that the platform
confirmed to the other one, as far as the files of their roots are read and were not used for
other roots in the meantime.  Roots with plain names never share a file.
-/

namespace ChatCommands

open Schema

/-- The tree of a task that is not done. -/
def Task.tree? : Task → Option Tree
  | waiting tree | asked tree _ => some tree
  | done _ => none

/-- A tree that is the one the platform confirmed is not sent again. -/
theorem Publisher.publish_of_settled {p : Publisher} {tree : Tree} {id : String}
    (platform : Platform) (hfree : (p.registry.slot tree.name).pending = none)
    (h : p.registry.IsSettled tree id) :
    p.publish platform tree = ([.ok (.unchanged id)], p) := by
  have hround : p.round platform [.waiting tree] = ([.done (.ok (.unchanged id))], p) := by
    rw [round, turn, Registry.offer_of_settled hfree h]
    rfl
  have hrounds : rounds platform 2 p [.waiting tree] = ([.done (.ok (.unchanged id))], p) := by
    rw [rounds, if_neg (by simp [Task.isDone]), hround]
    rfl
  have hone : [tree].length ≤ maxTogether := Nat.one_le_ofNat
  rw [publish, publishAll, if_pos hone]
  simp only [List.length_singleton, List.map_singleton, Nat.mul_one, hrounds]
  rfl

namespace Session

variable {platform : Platform} {s t : Session} {folder : Option Folder} {f : Folder}
  {P : Tree → Prop} {confirmed : List Snapshot} {x : Snapshot} {root name : String} {i : Nat}

/-! ## The folder after a run -/

/-- The trees of a session are all of some kind, and its folder holds what was there before and
what the platform confirmed since. -/
structure Records (P : Tree → Prop) (folder : Option Folder) (s : Session) : Prop where
  tasks : ∀ task ∈ s.tasks, ∀ tree, task.tree? = some tree → P tree
  confirmed : ∀ x ∈ s.confirmed, P x.tree
  folder : s.publisher.folder = folder.map (·.saveAll s.confirmed)

theorem records_start (folder : Option Folder) (sent : List Payload) {trees : List Tree}
    (h : ∀ tree ∈ trees, P tree) : (start folder sent trees).Records P folder := by
  constructor
  case tasks =>
    intro task htask tree htree
    obtain ⟨other, hother, rfl⟩ := List.mem_map.mp htask
    exact Option.some.inj htree ▸ h other hother
  case confirmed => exact fun x hx => absurd hx List.not_mem_nil
  case folder => exact (Option.map_id' (x := folder)).symm

namespace Records

variable (h : s.Records P folder)

include h

theorem of_getElem? {task : Task} {tree : Tree} (htask : s.tasks[i]? = some task)
    (htree : task.tree? = some tree) : P tree :=
  h.tasks task (List.mem_of_getElem? htask) tree htree

theorem set {next : Task} (hnext : ∀ tree, next.tree? = some tree → P tree) :
    ∀ task ∈ s.tasks.set i next, ∀ tree, task.tree? = some tree → P tree := by
  intro task htask tree htree
  rcases List.mem_or_eq_of_mem_set htask with hold | rfl
  · exact h.tasks task hold tree htree
  · exact hnext tree htree

/-- A task that is done publishes nothing more. -/
theorem set_done (i : Nat) (outcome : Except CommandError Publication) :
    ∀ task ∈ s.tasks.set i (.done outcome), ∀ tree, task.tree? = some tree → P tree :=
  h.set fun _ htree => nomatch htree

theorem step (hstep : Step platform s i t) : t.Records P folder := by
  cases hstep with
  | idle => exact h
  | settled => exact ⟨h.set_done i _, h.confirmed, h.folder⟩
  | refused => exact ⟨h.set_done i _, h.confirmed, h.folder⟩
  | asks htask =>
      have htree := h.of_getElem? htask rfl
      exact ⟨h.set fun _ hnext => Option.some.inj hnext ▸ htree, h.confirmed, h.folder⟩
  | @confirmed tree id htask =>
      have htree : P tree := h.of_getElem? htask rfl
      refine ⟨h.set_done i _, ?_, ?_⟩
      · intro x hx
        rcases List.mem_append.mp hx with hx | hx
        · exact h.confirmed x hx
        · rw [List.mem_singleton.mp hx]
          exact htree
      · change s.publisher.folder.map (·.save (noted ⟨id, tree⟩)) =
          folder.map (·.saveAll (s.confirmed ++ [⟨id, tree⟩]))
        rw [Folder.map_saveAll_concat, h.folder]

theorem run (platform : Platform) (schedule : List Nat) :
    (s.run platform schedule).Records P folder := by
  induction schedule generalizing s with
  | nil => exact h
  | cons i rest ih => exact ih (h.step (step_turn platform s i))

end Records

/-! ## What is found after a restart -/

/-- The file of a root is read when the folder is opened, and the last tree that was kept there
is one of that root. -/
def Stays (confirmed : List Snapshot) (root : String) : Prop :=
  ∃ name, Folder.file? root = some name ∧ Folder.IsSeen name ∧
    ∀ x, Folder.lastIn? confirmed name = some x → x.isOf root = true

/-- The first of some values that satisfies a condition is also the first that satisfies a
stronger one, if it does. -/
theorem find?_eq_of_imp {α : Type} {p q : α → Bool} {l : List α} {a : α}
    (himp : ∀ b, p b = true → q b = true) (h : l.find? q = some a) (ha : p a = true) :
    l.find? p = some a := by
  obtain ⟨-, front, rest, rfl, hnot⟩ := List.find?_eq_some_iff_append.mp h
  refine List.find?_eq_some_iff_append.mpr ⟨ha, front, rest, rfl, fun b hb => ?_⟩
  have hb' := hnot b hb
  simp only [Bool.not_eq_true'] at hb' ⊢
  by_contra hp
  rw [himp b (by simpa using hp)] at hb'
  cases hb'

theorem exists_lastIn? (hx : Snapshot.last? confirmed root = some x)
    (hfile : Folder.file? root = some name) : ∃ z, Folder.lastIn? confirmed name = some z := by
  have hof : x.isOf root = true := List.find?_some hx
  cases hlast : Folder.lastIn? confirmed name with
  | some z => exact ⟨z, rfl⟩
  | none =>
      have hnot := List.find?_eq_none.mp hlast x (List.mem_reverse.mpr (Snapshot.mem_of_last? hx))
      simp [Folder.file?_of_isOf hof, hfile] at hnot

theorem last?_of_lastIn? (hfile : Folder.file? root = some name)
    (hx : Folder.lastIn? confirmed name = some x) (hof : x.isOf root = true) :
    Snapshot.last? confirmed root = some x := by
  apply find?_eq_of_imp _ hx hof
  intro y hy
  rw [Folder.file?_of_isOf hy, hfile, beq_self_eq_true]

variable (hkept : ∀ x ∈ confirmed, x.tree.IsKept) (hapart : f.KeepsApart root)
  (hx : Snapshot.last? confirmed root = some x)

include hkept hapart hx

theorem stays_of_last? (h : Snapshot.last? (f.saveAll confirmed).snapshots root ≠ none) :
    Stays confirmed root := by
  obtain ⟨y, hy⟩ := Option.ne_none_iff_exists'.mp h
  obtain ⟨name, s, hfile, hseen, hheld, hof, rfl⟩ :=
    (Folder.last?_snapshots (hapart.saveAll hkept)).mp hy
  obtain ⟨z, hz⟩ := exists_lastIn? hx hfile
  rw [Folder.held?_saveAll hkept, hz] at hheld
  obtain rfl : noted z = s := Option.some.inj hheld
  rw [isOf_noted] at hof
  refine ⟨name, hfile, hseen, fun z' hz' => ?_⟩
  obtain rfl := Option.some.inj (hz.symm.trans hz')
  exact hof

/-- The tree of a root that was confirmed last is found again. -/
theorem last?_of_stays (h : Stays confirmed root) :
    Snapshot.last? (f.saveAll confirmed).snapshots root = some (noted (noted x)) := by
  obtain ⟨name, hfile, hseen, hof⟩ := h
  obtain ⟨z, hz⟩ := exists_lastIn? hx hfile
  obtain rfl := Option.some.inj (hx.symm.trans (last?_of_lastIn? hfile hz (hof z hz)))
  have hheld : (f.saveAll confirmed).held? name = some (noted x) := by
    rw [Folder.held?_saveAll hkept, hz]
    rfl
  apply (Folder.last?_snapshots (hapart.saveAll hkept)).mpr
  exact ⟨name, noted x, hfile, hseen, hheld, (isOf_noted x root).trans (hof x hz), rfl⟩

/-- A publisher that starts from the folder answers for the tree that was confirmed last, if and
only if the file of its root still holds it. -/
theorem unchanged_iff_stays (hlinked : x.tree.IsLinked) (platform : Platform) (sent : List Payload) :
    let p := Publisher.start (some (f.saveAll confirmed)) sent
    p.registry.isRegistered root = true ∧
        p.publish platform x.tree = ([.ok (.unchanged x.externalId)], p) ↔
      Stays confirmed root := by
  intro p
  have hslot : p.registry.slot root =
      { confirmed := Snapshot.last? (f.saveAll confirmed).snapshots root } :=
    Registry.slot_ofSnapshots _ root
  constructor
  · rintro ⟨hregistered, -⟩
    apply stays_of_last? hkept hapart hx
    intro hnone
    rw [Registry.isRegistered, hslot, hnone] at hregistered
    cases hregistered
  · intro hstays
    rw [last?_of_stays hkept hapart hx hstays] at hslot
    constructor
    · rw [Registry.isRegistered, hslot]
      exact (noted x).tree.isRegistered_markRegistered
    · have hof : x.isOf root = true := List.find?_some hx
      have hroot : Text.lower x.tree.name = Text.lower root := beq_iff_eq.mp hof
      rw [← p.registry.slot_eq_of_lower hroot] at hslot
      have hsettled : p.registry.IsSettled x.tree x.externalId := by
        refine ⟨noted (noted x), congrArg RootState.confirmed hslot, ?_, rfl⟩
        rw [noted, noted, Tree.same_markRegistered_left, Tree.same_markRegistered_left]
        exact hlinked.same_refl
      exact Publisher.publish_of_settled platform (congrArg RootState.pending hslot) hsettled

omit hkept hapart hx

/-! ## Plain names -/

/-- A plain root is kept in the file of its name, and the file is read. -/
theorem file?_of_isLaidOut {tree : Tree} (h : tree.IsLaidOut) (hplain : Folder.IsPlain tree.name) :
    Folder.file? tree.name = some (Folder.filePath tree.name) ∧
      Folder.IsSeen (Folder.filePath tree.name) := by
  obtain ⟨hpos, hlength⟩ := h.length_name
  rw [← String.length_toList] at hpos hlength
  exact ⟨Folder.file?_of_isPlain hplain hlength,
    Folder.isSeen_filePath (List.ne_nil_of_length_pos hpos)⟩

theorem stays_of_isPlain (hlaid : ∀ x ∈ confirmed, x.tree.IsLaidOut)
    (hplain : ∀ x ∈ confirmed, Folder.IsPlain x.tree.name)
    (hx : Snapshot.last? confirmed root = some x) : Stays confirmed root := by
  have hof : x.isOf root = true := List.find?_some hx
  have hroot : Text.lower x.tree.name = Text.lower root := beq_iff_eq.mp hof
  have hmem := Snapshot.mem_of_last? hx
  obtain ⟨hfile, hseen⟩ := file?_of_isLaidOut (hlaid x hmem) (hplain x hmem)
  refine ⟨_, (Folder.file?_of_isOf hof).symm.trans hfile, hseen, fun z hz => ?_⟩
  have hmem' : z ∈ confirmed := List.mem_reverse.mp (List.mem_of_find?_eq_some hz)
  have hfile' : Folder.file? z.tree.name = some (Folder.filePath x.tree.name) := by
    simpa using List.find?_some hz
  rw [(file?_of_isLaidOut (hlaid z hmem') (hplain z hmem')).1, Option.some.injEq,
    Folder.filePath_inj] at hfile'
  exact beq_iff_eq.mpr (hfile'.trans hroot)

/-- A plain root is not kept in the file of another plain root. -/
theorem get?_save_of_isPlain {a b : Tree} (ha : a.IsLaidOut) (hb : b.IsLaidOut)
    (hplain : Folder.IsPlain a.name) (hplain' : Folder.IsPlain b.name)
    (hne : Text.lower a.name ≠ Text.lower b.name) (f : Folder) (id : String)
    (hfile : Folder.file? a.name = some name) : (f.save ⟨id, b⟩).get? name = f.get? name := by
  rw [(file?_of_isLaidOut ha hplain).1] at hfile
  have hother : Folder.file? b.name ≠ some name := by
    rw [(file?_of_isLaidOut hb hplain').1, ← hfile, ne_eq, Option.some.injEq, Folder.filePath_inj]
    exact hne.symm
  rw [Folder.get?_save, if_neg hother]

/-! ## After a session -/

/-- After whatever trees were published in whatever order of turns, a publisher that starts
again answers for the tree of a root that was confirmed last, if and only if the file of the
root still holds it.  That is so if all names are plain, and then no root ever touches the
file of another one. -/
theorem unchanged_after_restart_iff {trees : List Tree} (hlaid : ∀ tree ∈ trees, tree.IsLaidOut)
    (hnumbers : ∀ tree ∈ trees, tree.NumbersReadBack) (hapart : f.KeepsApart root)
    (platform platform' : Platform) (sent sent' : List Payload) (schedule : List Nat)
    (hx : Snapshot.last? ((start (some f) sent trees).run platform schedule).confirmed root =
      some x) :
    let s := (start (some f) sent trees).run platform schedule
    let p := Publisher.start s.publisher.folder sent'
    (p.registry.isRegistered root = true ∧
        p.publish platform' x.tree = ([.ok (.unchanged x.externalId)], p) ↔
      Stays s.confirmed root) ∧
    ((∀ tree ∈ trees, Folder.IsPlain tree.name) → Stays s.confirmed root) ∧
    ∀ a ∈ trees, ∀ b ∈ trees, Folder.IsPlain a.name → Folder.IsPlain b.name →
      Text.lower a.name ≠ Text.lower b.name → ∀ (g : Folder) (id name : String),
        Folder.file? a.name = some name → (g.save ⟨id, b⟩).get? name = g.get? name := by
  have hrecords := (records_start (some f) sent (P := (· ∈ trees)) fun _ h => h).run platform schedule
  intro s
  have hlaid' : ∀ y ∈ s.confirmed, y.tree.IsLaidOut :=
    fun y hy => hlaid _ (hrecords.confirmed y hy)
  have hkept : ∀ y ∈ s.confirmed, y.tree.IsKept :=
    fun y hy => (hlaid' y hy).isKept (hnumbers _ (hrecords.confirmed y hy))
  have hfolder : s.publisher.folder = some (f.saveAll s.confirmed) := hrecords.folder
  rw [hfolder]
  refine ⟨?_, ?_, ?_⟩
  · exact unchanged_iff_stays hkept hapart hx (hlaid' x (Snapshot.mem_of_last? hx)).isLinked _ _
  · exact fun hplain =>
      stays_of_isPlain hlaid' (fun y hy => hplain _ (hrecords.confirmed y hy)) hx
  · exact fun a ha b hb hplain hplain' hne g id name hfile =>
      get?_save_of_isPlain (hlaid a ha) (hlaid b hb) hplain hplain' hne g id hfile

/-- A command that is a root alone. -/
def loneRoot (root : String) : CommandInfo :=
  ⟨root, [], [], "does it", "", Dict.empty⟩

theorem params_loneRoot (root : String) : ∀ c ∈ [loneRoot root], c.params = [] := by
  intro c hc
  rw [List.mem_singleton.mp hc]
  rfl

/-- Two roots that are published at once. -/
def pingPong : Session :=
  (start (some Dict.empty) [] [.new "ping" "does it", .new "Pong" "does it"]).run
    (fun _ _ => .ok "7") [0, 1, 0, 1]

theorem confirmed_pingPong :
    pingPong.confirmed = [⟨"7", .new "ping" "does it"⟩, ⟨"7", .new "Pong" "does it"⟩] := by
  rfl

/-- Of two roots that were published at once the first one is known after a restart. -/
theorem unchanged_after_restart_ping :
    let v : Vocabulary := ⟨.withEnums [], .standard⟩
    let p := Publisher.start pingPong.publisher.folder []
    v.layout "ping" [loneRoot "ping"] [] = .ok (.new "ping" "does it") ∧
      v.layout "Pong" [loneRoot "Pong"] [] = .ok (.new "Pong" "does it") ∧
      Snapshot.last? pingPong.confirmed "ping" = some ⟨"7", .new "ping" "does it"⟩ ∧
      p.registry.isRegistered "ping" = true ∧
      p.publish (fun _ _ => .error "offline") (.new "ping" "does it") =
        ([.ok (.unchanged "7")], p) := by
  intro v
  have hping : v.layout "ping" [loneRoot "ping"] [] = .ok (.new "ping" "does it") := rfl
  have hpong : v.layout "Pong" [loneRoot "Pong"] [] = .ok (.new "Pong" "does it") := rfl
  have hlast : Snapshot.last? pingPong.confirmed "ping" = some ⟨"7", .new "ping" "does it"⟩ := by
    rw [confirmed_pingPong]
    rfl
  have hlaid : ∀ tree ∈ [Tree.new "ping" "does it", .new "Pong" "does it"], tree.IsLaidOut := by
    simp only [List.forall_mem_cons]
    exact ⟨⟨v, _, _, _, hping⟩, ⟨v, _, _, _, hpong⟩, fun _ h => absurd h List.not_mem_nil⟩
  have hnumbers : ∀ tree ∈ [Tree.new "ping" "does it", .new "Pong" "does it"],
      tree.NumbersReadBack := by
    simp only [List.forall_mem_cons]
    exact ⟨Vocabulary.numbersReadBack_of_layout hping (params_loneRoot _),
      Vocabulary.numbersReadBack_of_layout hpong (params_loneRoot _),
      fun _ h => absurd h List.not_mem_nil⟩
  have hplain : ∀ tree ∈ [Tree.new "ping" "does it", .new "Pong" "does it"],
      Folder.IsPlain tree.name := by
    simp only [List.forall_mem_cons]
    exact ⟨by decide +kernel, by decide +kernel, fun _ h => absurd h List.not_mem_nil⟩
  obtain ⟨hiff, hstays, -⟩ := unchanged_after_restart_iff hlaid hnumbers
    (Folder.keepsApart_empty "ping") (fun _ _ => .ok "7") (fun _ _ => .error "offline") [] []
    [0, 1, 0, 1] hlast
  exact ⟨hping, hpong, hlast, hiff.mpr (hstays hplain)⟩

/-- A root with a slash in its name is confirmed, but no file is kept for it: it is unknown after
a restart, and the platform is asked again. -/
theorem not_unchanged_after_restart_slash :
    let v : Vocabulary := ⟨.withEnums [], .standard⟩
    let t := Tree.new "a/b" "does it"
    let platform : Platform := fun _ _ => .ok "7"
    let s := (start (some Dict.empty) [] [t]).run platform [0, 0]
    let p := Publisher.start s.publisher.folder []
    v.layout "a/b" [loneRoot "a/b"] [] = .ok t ∧ t.NumbersReadBack ∧
      s.confirmed = [⟨"7", t⟩] ∧
      p.registry.isRegistered "a/b" = false ∧
      (p.publish platform t).1 = [.ok (.registered "7")] ∧
      (p.publish platform t).2.sent = [t.payload] := by
  intro v t platform s p
  have hlaid : v.layout "a/b" [loneRoot "a/b"] [] = .ok t := rfl
  have hfolder : s.publisher.folder = some Dict.empty := by decide +kernel
  have hp : p = Publisher.start (some Dict.empty) [] := congrArg (Publisher.start · []) hfolder
  rw [hp]
  exact ⟨hlaid, Vocabulary.numbersReadBack_of_layout hlaid (params_loneRoot _), rfl, rfl, rfl, rfl⟩

end Session

end ChatCommands
