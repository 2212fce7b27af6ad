import ScopeExit.Proofs.TwoPhases

/-!
# The two builds of a guard

The builds differ in what becomes of a panic that leaves an action: with the
standard library it is caught and logged, without it goes on.  As long as no
action panics there is nothing to tell them apart by.

What has to be quiet are the actions that run with the standard library, at any
depth: those of inner lists, of every round of a loop, and those that an action
registers itself.  Their endings are listed in the order in which they end.
-/

namespace ScopeExit
namespace Cleanup

/-!
## How actions end
-/

/-- The endings of the actions that run in the rounds of a loop, given those of
one round and what a round does. -/
def roundEndings (endings : Machine -> List Flow)
    (body : Machine -> Ending) : Nat -> Machine -> List Flow
  | 0, _ => []
  | n + 1, m =>
      endings m ++
        match body m with
        | ⟨m, .done⟩ => roundEndings endings body n m
        | ⟨m, .continued⟩ => roundEndings endings body n m
        | _ => []

def Command.alone (build : Build) (c : Command) (m : Machine) : Ending :=
  c.run build (fun m => ⟨m, .done⟩) m

mutual

/-- The endings of the actions that run before an ordinary statement ends. -/
def Command.actionEndings : Command -> Machine -> List Flow
  | .block body, m => actionEndings body m
  | .loop times body, m =>
      roundEndings (actionEndings body) (runAll .std body) times m
  | .branch counter same different, m =>
      if m.counter = counter then actionEndings same m
      else actionEndings different m
  | .call body, m => actionEndings body m
  | .attempt body, m => actionEndings body m
  | _, _ => []

/-- The endings of the actions that run before a list ends.  An action starts
where the guarded rest of the list left the machine, and those that it registers
end before it does. -/
def actionEndings : List Command -> Machine -> List Flow
  | [], _ => []
  | .defer action :: rest, m =>
      let start := (runAll .std rest m).machine
      actionEndings rest m ++ actionEndings action start ++
        [(runAll .std action start).flow]
  | c :: rest, m =>
      c.actionEndings m ++
        match c.alone .std m with
        | ⟨m, .done⟩ => actionEndings rest m
        | _ => []

end

def Flow.isPanic : Flow -> Bool
  | .panicked _ => true
  | _ => false

def Quiet (flows : List Flow) : Prop :=
  forall flow, flow ∈ flows -> flow.isPanic = false

theorem quiet_append_iff (a b : List Flow) :
    Quiet (a ++ b) ↔ Quiet a ∧ Quiet b :=
  List.forall_mem_append

/-!
## Statements one by one

An ordinary statement does the same whatever stands behind it, so a list is its
first statement and then the rest.
-/

namespace Ending

theorem andThen_nothing (e : Ending) :
    (e.andThen fun m => ⟨m, .done⟩) = e := by
  rcases e with ⟨m, flow⟩
  cases flow <;> rfl

end Ending

namespace Command

theorem run_eq_andThen (build : Build) {c : Command}
    (hordinary : forall action, c ≠ .defer action)
    (rest : Machine -> Ending) (m : Machine) :
    c.run build rest m = (c.alone build m).andThen rest := by
  cases c with
  | defer action =>
      exact absurd rfl (hordinary action)
  | branch counter same different =>
      rw [alone, run, run]
      split
      · exact congrArg (·.andThen rest) (Ending.andThen_nothing _).symm
      · exact congrArg (·.andThen rest) (Ending.andThen_nothing _).symm
  | block body =>
      exact congrArg (·.andThen rest) (Ending.andThen_nothing _).symm
  | loop times body =>
      exact congrArg (·.andThen rest) (Ending.andThen_nothing _).symm
  | call body =>
      exact congrArg (·.andThen rest) (Ending.andThen_nothing _).symm
  | attempt body =>
      exact congrArg (·.andThen rest) (Ending.andThen_nothing _).symm
  | _ => rfl

theorem alone_block (build : Build) (body : List Command) (m : Machine) :
    (Command.block body).alone build m = runAll build body m :=
  Ending.andThen_nothing _

theorem alone_loop (build : Build) (times : Nat) (body : List Command)
    (m : Machine) :
    (Command.loop times body).alone build m =
      Ending.ofLoop (runAll build body) times m :=
  Ending.andThen_nothing _

theorem alone_branch (build : Build) (counter : Int64)
    (same different : List Command) (m : Machine) :
    (Command.branch counter same different).alone build m =
      if m.counter = counter then runAll build same m
      else runAll build different m := by
  rw [alone, run, Ending.andThen_nothing, Ending.andThen_nothing]

theorem alone_call (build : Build) (body : List Command) (m : Machine) :
    (Command.call body).alone build m = (runAll build body m).ofCall :=
  Ending.andThen_nothing _

theorem alone_attempt (build : Build) (body : List Command) (m : Machine) :
    (Command.attempt body).alone build m = (runAll build body m).ofAttempt :=
  Ending.andThen_nothing _

end Command

theorem runAll_cons (build : Build) {c : Command}
    (hordinary : forall action, c ≠ .defer action) (rest : List Command)
    (m : Machine) :
    runAll build (c :: rest) m =
      (c.alone build m).andThen (runAll build rest) := by
  rw [runAll]
  exact Command.run_eq_andThen build hordinary _ m

theorem runAll_defer (build : Build) (action rest : List Command)
    (m : Machine) :
    runAll build (.defer action :: rest) m =
      build.drop (runAll build action) (runAll build rest m) := rfl

theorem actionEndings_cons {c : Command}
    (hordinary : forall action, c ≠ .defer action) (rest : List Command)
    (m : Machine) :
    actionEndings (c :: rest) m =
      c.actionEndings m ++
        match c.alone .std m with
        | ⟨m, .done⟩ => actionEndings rest m
        | _ => [] := by
  rw [actionEndings]
  intro action h
  exact hordinary action h

/-!
## Quiet actions

Both builds do the same with an action that does not panic, and what they run
inside it and before it is the same by induction.
-/

theorem ofLoop_bare_of_quiet {endings : Machine -> List Flow}
    {bare std : Machine -> Ending}
    (hbody : forall m, Quiet (endings m) -> bare m = std m) (times : Nat)
    (m : Machine) (hquiet : Quiet (roundEndings endings std times m)) :
    Ending.ofLoop bare times m = Ending.ofLoop std times m := by
  induction times generalizing m with
  | zero =>
      rfl
  | succ n ih =>
      rw [roundEndings, quiet_append_iff] at hquiet
      rcases hquiet with ⟨hround, hlater⟩
      rw [Ending.ofLoop, Ending.ofLoop, hbody m hround]
      rcases hend : std m with ⟨after, flow⟩
      rw [hend] at hlater
      cases flow with
      | done => exact ih after hlater
      | continued => exact ih after hlater
      | _ => rfl

theorem settle_bare_of_not_panic {e : Ending}
    (hquiet : e.flow.isPanic = false) (flow : Flow) :
    Build.bare.settle flow e = Build.std.settle flow e := by
  rcases e with ⟨m, left⟩
  cases left with
  | panicked payload => exact absurd hquiet (by simp [Flow.isPanic])
  | _ => rfl

theorem drop_bare_of_quiet {bare std : Machine -> Ending} {e : Ending}
    (haction : bare e.machine = std e.machine)
    (hquiet : (std e.machine).flow.isPanic = false) :
    Build.bare.drop bare e = Build.std.drop std e := by
  rcases e with ⟨m, flow⟩
  cases flow with
  | aborted => rfl
  | _ =>
      rw [Build.drop, Build.drop, haction]
      · exact settle_bare_of_not_panic hquiet _
      · exact nofun
      · exact nofun

mutual

theorem Command.alone_bare_of_quiet {c : Command} {m : Machine}
    (hquiet : Quiet (c.actionEndings m))
    (hordinary : forall action, c ≠ .defer action) :
    c.alone .bare m = c.alone .std m := by
  cases c with
  | defer action =>
      exact absurd rfl (hordinary action)
  | block body =>
      rw [Command.alone_block, Command.alone_block]
      exact runAll_bare_of_quiet hquiet
  | loop times body =>
      rw [Command.alone_loop, Command.alone_loop]
      have hbody : forall m, Quiet (Cleanup.actionEndings body m) ->
          runAll .bare body m = runAll .std body m :=
        fun m hround => runAll_bare_of_quiet hround
      exact ofLoop_bare_of_quiet hbody times m hquiet
  | branch counter same different =>
      rw [Command.alone_branch, Command.alone_branch]
      rw [Command.actionEndings] at hquiet
      split
      · rename_i hsame
        rw [if_pos hsame] at hquiet
        exact runAll_bare_of_quiet hquiet
      · rename_i hdifferent
        rw [if_neg hdifferent] at hquiet
        exact runAll_bare_of_quiet hquiet
  | call body =>
      rw [Command.alone_call, Command.alone_call]
      exact congrArg Ending.ofCall (runAll_bare_of_quiet hquiet)
  | attempt body =>
      rw [Command.alone_attempt, Command.alone_attempt]
      exact congrArg Ending.ofAttempt (runAll_bare_of_quiet hquiet)
  | _ => rfl

theorem runAll_bare_of_quiet {body : List Command} {m : Machine}
    (hquiet : Quiet (actionEndings body m)) :
    runAll .bare body m = runAll .std body m := by
  cases body with
  | nil => rfl
  | cons c rest =>
      cases c with
      | defer action =>
          simp only [actionEndings, quiet_append_iff] at hquiet
          rcases hquiet with ⟨⟨hrest, haction⟩, hlast⟩
          rw [runAll_defer, runAll_defer, runAll_bare_of_quiet hrest]
          exact drop_bare_of_quiet (runAll_bare_of_quiet haction)
            (hlast _ (List.mem_singleton_self _))
      | _ =>
          rw [actionEndings_cons (by simp), quiet_append_iff] at hquiet
          rcases hquiet with ⟨hfirst, hlater⟩
          rw [runAll_cons _ (by simp), runAll_cons _ (by simp),
            Command.alone_bare_of_quiet hfirst (by simp)]
          split at hlater
          · rename_i after hend
            rw [hend]
            exact runAll_bare_of_quiet hlater
          · rename_i hleft
            generalize Command.alone Build.std _ m = e at hleft
            rcases e with ⟨after, flow⟩
            cases flow with
            | done => exact absurd rfl (hleft after)
            | _ => rfl

end

/-!
## Actions that panic

Each panic of an action leaves one event behind with the standard library, and
none without it.  So the builds differ as soon as one action panics.
-/

def Event.isDiscarded : Event -> Bool
  | .discarded _ => true
  | _ => false

def Machine.discards (m : Machine) : Nat :=
  m.events.countP Event.isDiscarded

def panics (flows : List Flow) : Nat :=
  flows.countP Flow.isPanic

theorem panics_append (a b : List Flow) :
    panics (a ++ b) = panics a + panics b :=
  List.countP_append

theorem panics_eq_zero_iff (flows : List Flow) :
    panics flows = 0 ↔ Quiet flows := by
  simp [panics, Quiet, List.countP_eq_zero]

theorem discards_emit (m : Machine) {e : Event}
    (h : e.isDiscarded = false) : (m.emit e).discards = m.discards := by
  simp [Machine.discards, h]

theorem discards_emit_discarded (m : Machine) (payload : Payload) :
    (m.emit (.discarded payload)).discards = m.discards + 1 := by
  simp [Machine.discards, Event.isDiscarded]

theorem roundEndings_nil (body : Machine -> Ending) (times : Nat)
    (m : Machine) :
    roundEndings (fun _ => []) body times m = [] := by
  induction times generalizing m with
  | zero =>
      rfl
  | succ n ih =>
      rw [roundEndings]
      split
      · exact ih _
      · exact ih _
      · rfl

namespace Ending

theorem discards_andThen {rest : Machine -> Ending}
    (hrest : forall m, (rest m).machine.discards = m.discards)
    (e : Ending) :
    (e.andThen rest).machine.discards = e.machine.discards := by
  rcases e with ⟨m, flow⟩
  cases flow with
  | done => exact hrest m
  | _ => rfl

theorem discards_ofCall (e : Ending) :
    e.ofCall.machine.discards = e.machine.discards := by
  rcases e with ⟨m, flow⟩
  cases flow with
  | returned value => exact discards_emit m rfl
  | _ => rfl

theorem discards_ofAttempt (e : Ending) :
    e.ofAttempt.machine.discards = e.machine.discards := by
  rcases e with ⟨m, flow⟩
  cases flow with
  | panicked payload => exact discards_emit m rfl
  | _ => rfl

theorem discards_ofLoop {endings : Machine -> List Flow}
    {body : Machine -> Ending}
    (hbody : forall m,
      (body m).machine.discards = m.discards + panics (endings m))
    (times : Nat) (m : Machine) :
    (ofLoop body times m).machine.discards =
      m.discards + panics (roundEndings endings body times m) := by
  induction times generalizing m with
  | zero =>
      rfl
  | succ n ih =>
      have hround := hbody m
      rw [ofLoop, roundEndings, panics_append]
      rcases hend : body m with ⟨after, flow⟩
      rw [hend] at hround
      cases flow with
      | done =>
          have hlater := ih after
          simp only at hround ⊢
          omega
      | continued =>
          have hlater := ih after
          simp only at hround ⊢
          omega
      | _ => exact hround

end Ending

theorem machine_settle_bare (flow : Flow) (e : Ending) :
    (Build.bare.settle flow e).machine = e.machine := by
  rcases e with ⟨m, left⟩
  cases left with
  | panicked payload => cases flow <;> rfl
  | _ => rfl

theorem discards_settle_std (flow : Flow) (e : Ending) :
    (Build.std.settle flow e).machine.discards =
      e.machine.discards + panics [e.flow] := by
  rcases e with ⟨m, left⟩
  cases left with
  | panicked payload => exact discards_emit_discarded m payload
  | _ => rfl

theorem drop_eq_settle (build : Build) (action : Machine -> Ending)
    {e : Ending} (h : e.flow ≠ .aborted) :
    build.drop action e = build.settle e.flow (action e.machine) := by
  rcases e with ⟨m, flow⟩
  cases flow with
  | aborted => exact absurd rfl h
  | _ => rfl

mutual

theorem Command.discards_alone_std (c : Command) (m : Machine)
    (hordinary : forall action, c ≠ .defer action) :
    (c.alone .std m).machine.discards =
      m.discards + panics (c.actionEndings m) := by
  cases c with
  | defer action =>
      exact absurd rfl (hordinary action)
  | log text =>
      exact discards_emit m rfl
  | showCounter =>
      exact discards_emit m rfl
  | block body =>
      rw [Command.alone_block]
      exact discards_runAll_std body m
  | loop times body =>
      rw [Command.alone_loop]
      have hbody := fun m => discards_runAll_std body m
      exact Ending.discards_ofLoop hbody times m
  | branch counter same different =>
      rw [Command.alone_branch, Command.actionEndings]
      split
      · exact discards_runAll_std same m
      · exact discards_runAll_std different m
  | call body =>
      rw [Command.alone_call, Ending.discards_ofCall]
      exact discards_runAll_std body m
  | attempt body =>
      rw [Command.alone_attempt, Ending.discards_ofAttempt]
      exact discards_runAll_std body m
  | _ => rfl

theorem discards_runAll_std (body : List Command) (m : Machine) :
    (runAll .std body m).machine.discards =
      m.discards + panics (actionEndings body m) := by
  cases body with
  | nil => rfl
  | cons c rest =>
      cases c with
      | defer action =>
          have hflow : (runAll .std rest m).flow ≠ .aborted := by
            rw [runAll_std]
            exact firstPhase_not_aborted rest m
          have hrest := discards_runAll_std rest m
          have haction :=
            discards_runAll_std action (runAll .std rest m).machine
          rw [runAll_defer, drop_eq_settle _ _ hflow, discards_settle_std,
            haction, hrest, actionEndings, panics_append, panics_append]
          omega
      | _ =>
          rw [runAll_cons _ (by simp), actionEndings_cons (by simp),
            panics_append, ← Nat.add_assoc,
            ← Command.discards_alone_std _ m (by simp)]
          generalize Command.alone Build.std _ m = e
          rcases e with ⟨after, flow⟩
          cases flow with
          | done => exact discards_runAll_std rest after
          | _ => rfl

end

mutual

theorem Command.discards_run_bare (c : Command) {rest : Machine -> Ending}
    (hrest : forall m, (rest m).machine.discards = m.discards)
    (m : Machine) :
    (c.run .bare rest m).machine.discards = m.discards := by
  cases c with
  | defer action =>
      rw [Command.run]
      by_cases hflow : (rest m).flow = .aborted
      · rcases hend : rest m with ⟨after, flow⟩
        rw [hend] at hflow
        rw [show flow = .aborted from hflow, Build.drop, ← hrest m, hend]
      · rw [drop_eq_settle _ _ hflow, machine_settle_bare,
          discards_runAll_bare action, hrest m]
  | log text =>
      exact (hrest _).trans (discards_emit m rfl)
  | showCounter =>
      exact (hrest _).trans (discards_emit m rfl)
  | set value =>
      exact hrest _
  | add value =>
      exact hrest _
  | block body =>
      rw [Command.run, Ending.discards_andThen hrest]
      exact discards_runAll_bare body m
  | loop times body =>
      have hbody : forall m,
          (runAll .bare body m).machine.discards = m.discards + panics [] :=
        fun m => discards_runAll_bare body m
      rw [Command.run, Ending.discards_andThen hrest,
        Ending.discards_ofLoop hbody, roundEndings_nil]
      rfl
  | branch counter same different =>
      rw [Command.run]
      split
      · rw [Ending.discards_andThen hrest]
        exact discards_runAll_bare same m
      · rw [Ending.discards_andThen hrest]
        exact discards_runAll_bare different m
  | call body =>
      rw [Command.run, Ending.discards_andThen hrest, Ending.discards_ofCall]
      exact discards_runAll_bare body m
  | attempt body =>
      rw [Command.run, Ending.discards_andThen hrest,
        Ending.discards_ofAttempt]
      exact discards_runAll_bare body m
  | sentinel action =>
      exact hrest m
  | nothing =>
      exact hrest m
  | _ => rfl

theorem discards_runAll_bare (body : List Command) (m : Machine) :
    (runAll .bare body m).machine.discards = m.discards := by
  cases body with
  | nil => rfl
  | cons c rest =>
      rw [runAll]
      exact Command.discards_run_bare c
        (fun m => discards_runAll_bare rest m) m

end

/-- The builds agree on a list, in the counter, the events and the flow, if and
only if no action that runs with the standard library panics. -/
theorem runAll_bare_eq_std_iff (body : List Command) (m : Machine) :
    runAll .bare body m = runAll .std body m ↔
      forall flow, flow ∈ actionEndings body m -> flow.isPanic = false := by
  constructor
  · intro heq
    have hbare := discards_runAll_bare body m
    rw [heq, discards_runAll_std] at hbare
    exact (panics_eq_zero_iff _).mp (by omega)
  · intro hquiet
    exact runAll_bare_of_quiet hquiet

/-- An action that is registered by an action ends first, and a panic that an
action catches is not one of its own. -/
example :
    actionEndings
        [.defer [.defer [.panic (.fixed "inner")],
            .attempt [.panic (.fixed "kept")], .ret none],
          .panic (.fixed "body")]
        (.start 0) =
      [.panicked (.fixed "inner"), .returned 0] := by
  decide

end Cleanup
end ScopeExit
