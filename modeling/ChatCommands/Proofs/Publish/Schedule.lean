import ChatCommands.Proofs.Publish.Protocol

/-!
# The orders in which trees are published

Trees are published in rounds or from a line.  Both are runs of a session, so that the
protocol is obeyed by either.
-/

namespace ChatCommands

open Schema

namespace Session

variable {platform : Platform} {s t u : Session} {p q : Publisher} {confirmed : List Snapshot}

/-- Some turns lead from one session to another. -/
def LeadsTo (platform : Platform) (s t : Session) : Prop :=
  ∃ schedule, s.run platform schedule = t

theorem LeadsTo.refl (s : Session) : LeadsTo platform s s :=
  ⟨[], rfl⟩

theorem LeadsTo.trans (hst : LeadsTo platform s t) (htu : LeadsTo platform t u) :
    LeadsTo platform s u := by
  obtain ⟨first, rfl⟩ := hst
  obtain ⟨second, rfl⟩ := htu
  exact ⟨first ++ second, List.foldl_append⟩

theorem leadsTo_turn (platform : Platform) (s : Session) (i : Nat) :
    LeadsTo platform s (s.turn platform i) :=
  ⟨[i], rfl⟩

/-! ## Rounds -/

theorem leadsTo_round {rest done : List Task} (h : p.round platform rest = (done, q))
    (front : List Task) (confirmed : List Snapshot) :
    ∃ confirmed', LeadsTo platform ⟨p, front ++ rest, confirmed⟩ ⟨q, front ++ done, confirmed'⟩ := by
  induction rest generalizing p front done confirmed with
  | nil =>
      cases h
      exact ⟨confirmed, .refl _⟩
  | cons task rest ih =>
      obtain ⟨next, p', hturn⟩ : ∃ next p', p.turn platform task = (next, p') := ⟨_, _, rfl⟩
      obtain ⟨later, q', hrest⟩ : ∃ later q', p'.round platform rest = (later, q') := ⟨_, _, rfl⟩
      rw [Publisher.round, hturn] at h
      simp only [hrest, Prod.mk.injEq] at h
      obtain ⟨rfl, rfl⟩ := h
      have htask : (front ++ task :: rest)[front.length]? = some task := by simp
      have hset : (front ++ task :: rest).set front.length next = (front ++ [next]) ++ rest := by
        simp
      have hfirst := leadsTo_turn platform ⟨p, front ++ task :: rest, confirmed⟩ front.length
      rw [turn_eq htask hturn, hset] at hfirst
      obtain ⟨confirmed', hrun⟩ := ih hrest (front ++ [next]) _
      rw [List.append_assoc front [next] later, List.singleton_append] at hrun
      exact ⟨confirmed', hfirst.trans hrun⟩

theorem leadsTo_rounds {fuel : Nat} {tasks done : List Task}
    (h : Publisher.rounds platform fuel p tasks = (done, q)) (confirmed : List Snapshot) :
    ∃ confirmed', LeadsTo platform ⟨p, tasks, confirmed⟩ ⟨q, done, confirmed'⟩ := by
  induction fuel generalizing p tasks confirmed with
  | zero =>
      cases h
      exact ⟨confirmed, .refl _⟩
  | succ fuel ih =>
      rw [Publisher.rounds] at h
      by_cases hdone : tasks.all Task.isDone = true
      · rw [if_pos hdone] at h
        cases h
        exact ⟨confirmed, .refl _⟩
      · rw [if_neg hdone] at h
        obtain ⟨next, p', hround⟩ : ∃ next p', p.round platform tasks = (next, p') := ⟨_, _, rfl⟩
        simp only [hround] at h
        obtain ⟨between, hfirst⟩ := leadsTo_round hround [] confirmed
        obtain ⟨confirmed', hrest⟩ := ih h between
        exact ⟨confirmed', hfirst.trans hrest⟩

/-! ## Lines -/

/-- The tasks of a line with its publisher. -/
def ofLine (l : Line) (confirmed : List Snapshot) : Session :=
  ⟨l.publisher, l.tasks, confirmed⟩

theorem ofLine_pause (l : Line) : ofLine l.pause confirmed = ofLine l confirmed := rfl

theorem ofLine_settle (pace : Pace) (l : Line) (i : Nat) (root : Option String) (task : Task) :
    ofLine (l.settle pace i root task) confirmed = ofLine l confirmed := by
  cases task with
  | waiting tree => rfl
  | asked tree answer => rfl
  | done outcome => cases root <;> rfl

theorem leadsTo_advance (platform : Platform) (pace : Pace) (l : Line) (confirmed : List Snapshot) :
    ∃ confirmed', LeadsTo platform (ofLine l confirmed)
      (ofLine (l.advance platform pace) confirmed') := by
  rw [Line.advance]
  split
  next => exact ⟨confirmed, .refl _⟩
  next i ready hready =>
    cases htask : l.tasks[i]? with
    | none =>
        simp only [htask]
        exact ⟨confirmed, .refl _⟩
    | some task =>
        obtain ⟨next, p', hturn⟩ : ∃ next p', l.publisher.turn platform task = (next, p') :=
          ⟨_, _, rfl⟩
        have hone := leadsTo_turn platform (ofLine l confirmed) i
        rw [turn_eq htask hturn] at hone
        refine ⟨confirmed ++ (confirms? task).toList, ?_⟩
        simp only [htask, hturn]
        split
        · rw [ofLine_pause, ofLine_settle]
          exact hone
        · rw [ofLine_settle]
          exact hone

theorem leadsTo_line (platform : Platform) (pace : Pace) (fuel : Nat) (l : Line) (confirmed : List Snapshot) :
    ∃ confirmed', LeadsTo platform (ofLine l confirmed)
      (ofLine (l.run platform pace fuel) confirmed') := by
  induction fuel generalizing l confirmed with
  | zero => exact ⟨confirmed, .refl _⟩
  | succ fuel ih =>
      rw [Line.run]
      by_cases hdone : l.tasks.all Task.isDone = true
      · rw [if_pos hdone]
        exact ⟨confirmed, .refl _⟩
      · rw [if_neg hdone]
        obtain ⟨between, hfirst⟩ := leadsTo_advance platform pace l confirmed
        obtain ⟨confirmed', hrest⟩ := ih (l.advance platform pace) between
        exact ⟨confirmed', hfirst.trans hrest⟩

theorem exists_schedule_publishInLine (pace : Pace) (p : Publisher) (trees : List Tree) :
    ∃ schedule, let s := (⟨p, trees.map .waiting, []⟩ : Session).run platform schedule
      p.publishInLine platform pace trees = (Publisher.outcomes s.tasks, s.publisher) := by
  obtain ⟨confirmed, schedule, hrun⟩ :=
    leadsTo_line platform pace (4 * trees.length) (Line.ofTrees p trees) []
  refine ⟨schedule, ?_⟩
  have hstart : (⟨p, trees.map .waiting, []⟩ : Session) = ofLine (Line.ofTrees p trees) [] := rfl
  simp only [hstart, hrun]
  rfl

/-- Trees that are published together take their turns in some order. -/
theorem exists_schedule_publishAll (p : Publisher) (trees : List Tree) :
    ∃ schedule, let s := (⟨p, trees.map .waiting, []⟩ : Session).run platform schedule
      p.publishAll platform trees = (Publisher.outcomes s.tasks, s.publisher) := by
  rw [Publisher.publishAll]
  by_cases htogether : trees.length ≤ Publisher.maxTogether
  · obtain ⟨done, q, hrounds⟩ : ∃ done q, Publisher.rounds platform (2 * trees.length) p
        (trees.map .waiting) = (done, q) := ⟨_, _, rfl⟩
    obtain ⟨confirmed, schedule, hrun⟩ := leadsTo_rounds hrounds []
    refine ⟨schedule, ?_⟩
    rw [if_pos htogether]
    simp only [hrounds, hrun]
  · rw [if_neg htogether]
    exact exists_schedule_publishInLine .byRound p trees

end Session

end ChatCommands
