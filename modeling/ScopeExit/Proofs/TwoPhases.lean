import ScopeExit.Cleanup.Run

/-!
# The two phases of a list

A guard runs its action when what it guards has ended, so a list with guards is
one nested computation.  The same list can be described without any guard, in
two phases.  The first runs the ordinary statements in order up to the first
that leaves the list, and only records the registrations that it reaches.  The
second runs the recorded actions, the newest first, and nothing that an action
does can change how the list ends.

With the standard library the two descriptions agree.
-/

namespace ScopeExit
namespace Cleanup

/-- What the first phase of a list leaves to the second: how the ordinary
statements ended, and the recorded actions, the newest first. -/
structure FirstPhase where
  ending : Ending
  actions : List (Machine -> Ending)

/-- The machine behind an action that ran by itself.  A panic is logged, and
any other way to leave the action has no effect. -/
def Ending.isolated : Ending -> Machine
  | ⟨m, .panicked payload⟩ => m.emit (.discarded payload)
  | ⟨m, _⟩ => m

namespace FirstPhase

/-- The phase with one more action, which was recorded before all others. -/
def record (p : FirstPhase) (action : Machine -> Ending) : FirstPhase :=
  { p with actions := p.actions ++ [action] }

/-- The machine behind the recorded actions, each of which runs once. -/
def cleanUp (actions : List (Machine -> Ending)) (m : Machine) : Machine :=
  actions.foldl (fun m action => (action m).isolated) m

/-- The second phase.  The list ends as its ordinary statements did. -/
def finish (p : FirstPhase) : Ending :=
  ⟨cleanUp p.actions p.ending.machine, p.ending.flow⟩

@[simp] theorem flow_finish (p : FirstPhase) :
    p.finish.flow = p.ending.flow := rfl

@[simp] theorem ending_record (p : FirstPhase)
    (action : Machine -> Ending) :
    (p.record action).ending = p.ending := rfl

theorem finish_record (p : FirstPhase) (action : Machine -> Ending) :
    (p.record action).finish =
      ⟨(action p.finish.machine).isolated, p.finish.flow⟩ := by
  simp [finish, record, cleanUp]

end FirstPhase

mutual

/-- An ordinary statement, run by itself.  The lists inside it go through both
phases before it ends.  A registration does nothing where it stands. -/
def Command.exec : Command -> Machine -> Ending
  | .log text, m => ⟨m.emit (.logged text), .done⟩
  | .showCounter, m => ⟨m.emit (.shown m.counter), .done⟩
  | .set value, m => ⟨{ m with counter := value }, .done⟩
  | .add value, m => ⟨{ m with counter := m.counter + value }, .done⟩
  | .defer _, m => ⟨m, .done⟩
  | .sentinel _, m => ⟨m, .done⟩
  | .block body, m => (firstPhase body m).finish
  | .loop times body, m =>
      Ending.ofLoop (fun m => (firstPhase body m).finish) times m
  | .branch counter same different, m =>
      if m.counter = counter then (firstPhase same m).finish
      else (firstPhase different m).finish
  | .call body, m => (firstPhase body m).finish.ofCall
  | .attempt body, m => (firstPhase body m).finish.ofAttempt
  | .ret value, m => ⟨m, .returned (value.getD m.counter)⟩
  | .breakLoop, m => ⟨m, .broke⟩
  | .continueLoop, m => ⟨m, .continued⟩
  | .panic payload, m => ⟨m, .panicked payload⟩
  | .nothing, m => ⟨m, .done⟩

/-- The first phase of a list.  It stops at the first statement that leaves the
list; a registration is recorded as what its action does to a machine. -/
def firstPhase : List Command -> Machine -> FirstPhase
  | [], m => ⟨⟨m, .done⟩, []⟩
  | .defer action :: rest, m =>
      (firstPhase rest m).record fun m => (firstPhase action m).finish
  | c :: rest, m =>
      match c.exec m with
      | ⟨m, .done⟩ => firstPhase rest m
      | e => ⟨e, []⟩

end

/-- A list, run in two phases. -/
def twoPhases (body : List Command) (m : Machine) : Ending :=
  (firstPhase body m).finish

/-!
## Nothing is aborted

A script is aborted only where a panic goes past a guard, which no list of the
two phases has.  The first phase has to be known not to abort, since a dropped
guard would not run its action then.
-/

namespace Ending

theorem ofLoop_not_aborted {body : Machine -> Ending}
    (hbody : forall m, (body m).flow ≠ .aborted) (times : Nat)
    (m : Machine) :
    (ofLoop body times m).flow ≠ .aborted := by
  induction times generalizing m with
  | zero =>
      simp [ofLoop]
  | succ n ih =>
      rw [ofLoop]
      split
      · exact ih _
      · exact ih _
      · simp
      · exact hbody m

theorem ofCall_not_aborted {e : Ending} (h : e.flow ≠ .aborted) :
    e.ofCall.flow ≠ .aborted := by
  rcases e with ⟨m, flow⟩
  cases flow with
  | aborted => exact h
  | panicked payload => exact h
  | _ => exact nofun

theorem ofAttempt_not_aborted {e : Ending} (h : e.flow ≠ .aborted) :
    e.ofAttempt.flow ≠ .aborted := by
  rcases e with ⟨m, flow⟩
  cases flow <;> simp_all [ofAttempt]

end Ending

theorem firstPhase_cons {c : Command} (rest : List Command) (m : Machine)
    (hordinary : forall action, c ≠ .defer action) :
    firstPhase (c :: rest) m =
      match c.exec m with
      | ⟨m, .done⟩ => firstPhase rest m
      | e => ⟨e, []⟩ := by
  rw [firstPhase]
  intro action h
  exact hordinary action h

mutual

theorem Command.exec_not_aborted (c : Command) (m : Machine) :
    (c.exec m).flow ≠ .aborted := by
  cases c with
  | block body =>
      exact firstPhase_not_aborted body m
  | loop times body =>
      have hbody : forall m, (firstPhase body m).finish.flow ≠ .aborted :=
        fun m => firstPhase_not_aborted body m
      exact Ending.ofLoop_not_aborted hbody times m
  | branch counter same different =>
      rw [Command.exec]
      split
      · exact firstPhase_not_aborted same m
      · exact firstPhase_not_aborted different m
  | call body =>
      exact Ending.ofCall_not_aborted (firstPhase_not_aborted body m)
  | attempt body =>
      exact Ending.ofAttempt_not_aborted (firstPhase_not_aborted body m)
  | _ =>
      simp [Command.exec]

theorem firstPhase_not_aborted (body : List Command) (m : Machine) :
    (firstPhase body m).ending.flow ≠ .aborted := by
  cases body with
  | nil =>
      simp [firstPhase]
  | cons c rest =>
      cases c with
      | defer action =>
          exact firstPhase_not_aborted rest m
      | _ =>
          rw [firstPhase_cons rest m (by simp)]
          split
          · exact firstPhase_not_aborted rest _
          · exact Command.exec_not_aborted _ m

end

/-!
## Both runs agree

A dropped guard is the last step of the second phase: it runs the action that
was recorded first, on what the guarded statements and their own guards left.
-/

theorem drop_finish (p : FirstPhase) (action : Machine -> Ending)
    (hp : p.ending.flow ≠ .aborted)
    (haction : forall m, (action m).flow ≠ .aborted) :
    Build.std.drop action p.finish = (p.record action).finish := by
  rw [FirstPhase.finish_record]
  rcases hend : p.finish with ⟨m, flow⟩
  have hflow : flow ≠ .aborted := by
    have h := congrArg Ending.flow hend
    simp only [FirstPhase.flow_finish] at h
    rw [← h]
    exact hp
  have hdrop : Build.std.drop action ⟨m, flow⟩ =
      Build.std.settle flow (action m) := by
    cases flow with
    | aborted => exact absurd rfl hflow
    | _ => rfl
  rw [hdrop]
  rcases hact : action m with ⟨after, left⟩
  cases left with
  | aborted =>
      exact absurd (congrArg Ending.flow hact) (haction m)
  | _ => rfl

theorem andThen_finish (e : Ending) (rest : List Command)
    (next : Machine -> Ending)
    (hnext : forall m, next m = (firstPhase rest m).finish) :
    e.andThen next =
      (match e with
        | ⟨m, .done⟩ => firstPhase rest m
        | e => ⟨e, []⟩ : FirstPhase).finish := by
  rcases e with ⟨m, flow⟩
  cases flow with
  | done => exact hnext m
  | _ => rfl

mutual

theorem Command.run_std (c : Command) (next : Machine -> Ending)
    (m : Machine) (hordinary : forall action, c ≠ .defer action) :
    c.run .std next m = (c.exec m).andThen next := by
  cases c with
  | defer action =>
      exact absurd rfl (hordinary action)
  | block body =>
      rw [Command.run, runAll_std, Command.exec]
  | loop times body =>
      have hbody : runAll .std body = fun m => (firstPhase body m).finish :=
        funext fun m => runAll_std body m
      rw [Command.run, hbody, Command.exec]
  | branch counter same different =>
      rw [Command.run, Command.exec, runAll_std, runAll_std]
      split <;> rfl
  | call body =>
      rw [Command.run, runAll_std, Command.exec]
  | attempt body =>
      rw [Command.run, runAll_std, Command.exec]
  | _ => rfl

theorem runAll_std (body : List Command) (m : Machine) :
    runAll .std body m = (firstPhase body m).finish := by
  cases body with
  | nil => rfl
  | cons c rest =>
      have hrest : forall m, runAll .std rest m = (firstPhase rest m).finish :=
        fun m => runAll_std rest m
      cases c with
      | defer action =>
          have haction : runAll .std action =
              fun m => (firstPhase action m).finish :=
            funext fun m => runAll_std action m
          rw [runAll, Command.run, haction, hrest, firstPhase]
          exact drop_finish _ _ (firstPhase_not_aborted rest m)
            (fun m => firstPhase_not_aborted action m)
      | _ =>
          rw [runAll, firstPhase_cons rest m (by simp),
            Command.run_std _ _ m (by simp)]
          exact andThen_finish _ rest _ hrest

end

/-- Nothing behind the statement that leaves a list has a part in its first
phase. -/
theorem firstPhase_append_of_left {body : List Command} {m : Machine}
    (h : (firstPhase body m).ending.flow ≠ .done) (later : List Command) :
    firstPhase (body ++ later) m = firstPhase body m := by
  induction body generalizing m with
  | nil =>
      exact absurd rfl h
  | cons c rest ih =>
      cases c with
      | defer action =>
          have hrest : (firstPhase rest m).ending.flow ≠ .done := h
          rw [List.cons_append, firstPhase, firstPhase, ih hrest]
      | _ =>
          rw [firstPhase_cons rest m (by simp)] at h
          rw [List.cons_append, firstPhase_cons rest m (by simp),
            firstPhase_cons (rest ++ later) m (by simp)]
          split at h
          · exact ih h
          · rfl

/-- A list with guards, run with the standard library, ends with the machine
and the flow of its two phases; and registrations behind the statement that
leaves it run nothing. -/
theorem runAll_std_eq_twoPhases (body : List Command) (m : Machine) :
    runAll .std body m = twoPhases body m ∧
      forall later, (twoPhases body m).flow ≠ .done ->
        runAll .std (body ++ later) m = twoPhases body m := by
  constructor
  · exact runAll_std body m
  · intro later hleft
    rw [runAll_std, firstPhase_append_of_left hleft, twoPhases]

/-- The actions of a list that panics run while the panic is under way.  The
panic of one of them is logged, and what was not reached is not registered. -/
theorem runAll_std_panicking_action :
    runAll .std
        ([.defer [.log "first", .panic (.owned "lost")],
          .defer [.defer [.log "inner"], .ret none],
          .panic (.fixed "body")] ++ [.defer [.log "unreached"]])
        (.start 0) =
      ⟨⟨0, [.logged "inner", .logged "first", .discarded (.owned "lost")]⟩,
        .panicked (.fixed "body")⟩ := by
  rw [(runAll_std_eq_twoPhases _ _).2 _ (by decide)]
  decide

end Cleanup
end ScopeExit
