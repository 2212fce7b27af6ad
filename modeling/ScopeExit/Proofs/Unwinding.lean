import ScopeExit.Proofs.TwoBuilds

/-!
# Panics of actions without the standard library

Without the standard library nothing catches the panic of an action.  It starts
while the guards of a list are dropped, takes the place of whatever ended the
list, and goes on outwards.  No other guard is passed over on its way: those of
the list that are left are dropped first, and then those of every list that the
panic leaves.

A list is described by what its ordinary statements did and by the actions that
are registered then.  How a list is reached from another one is a relation,
which collects the actions that are registered on the way and have not run.
-/

namespace ScopeExit
namespace Cleanup

/-!
## The actions of one list
-/

/-- What the ordinary statements of a list have done when they have ended: the
machine and the flow that they leave, and the registered actions, the newest
first. -/
structure Progress where
  ending : Ending
  actions : List (List Command)

/-- Run the ordinary statements of a list, up to the first that leaves it. -/
def ordinaryPart : List Command -> Machine -> Progress
  | [], m => ⟨⟨m, .done⟩, []⟩
  | .defer action :: rest, m =>
      let later := ordinaryPart rest m
      ⟨later.ending, later.actions ++ [action]⟩
  | c :: rest, m =>
      match c.alone .bare m with
      | ⟨m, .done⟩ => ordinaryPart rest m
      | e => ⟨e, []⟩

def dropEach (actions : List (List Command)) (e : Ending) : Ending :=
  actions.foldl (fun e action => Build.bare.drop (runAll .bare action) e) e

/-- The machine behind some actions, each of which is run once, on what the one
before has left. -/
def runEach (actions : List (List Command)) (m : Machine) : Machine :=
  actions.foldl (fun m action => (runAll .bare action m).machine) m

/-- No action of these ends in a panic when they are run one after the other. -/
def NonePanics : List (List Command) -> Machine -> Prop
  | [], _ => True
  | action :: rest, m =>
      (runAll .bare action m).flow.isPanic = false ∧
        NonePanics rest (runAll .bare action m).machine

@[simp] theorem dropEach_cons (action : List Command)
    (rest : List (List Command)) (e : Ending) :
    dropEach (action :: rest) e =
      dropEach rest (Build.bare.drop (runAll .bare action) e) := rfl

theorem dropEach_append (before behind : List (List Command)) (e : Ending) :
    dropEach (before ++ behind) e = dropEach behind (dropEach before e) :=
  List.foldl_append

@[simp] theorem runEach_nil (m : Machine) : runEach [] m = m := rfl

@[simp] theorem runEach_cons (action : List Command)
    (rest : List (List Command)) (m : Machine) :
    runEach (action :: rest) m =
      runEach rest (runAll .bare action m).machine := rfl

theorem runEach_append (before behind : List (List Command)) (m : Machine) :
    runEach (before ++ behind) m = runEach behind (runEach before m) :=
  List.foldl_append

theorem nonePanics_append_iff (before behind : List (List Command))
    (m : Machine) :
    NonePanics (before ++ behind) m ↔
      NonePanics before m ∧ NonePanics behind (runEach before m) := by
  induction before generalizing m with
  | nil => simp [NonePanics]
  | cons action rest ih => simp [NonePanics, ih, and_assoc]

theorem ordinaryPart_cons {c : Command}
    (hordinary : forall action, c ≠ .defer action) (rest : List Command)
    (m : Machine) :
    ordinaryPart (c :: rest) m =
      match c.alone .bare m with
      | ⟨m, .done⟩ => ordinaryPart rest m
      | e => ⟨e, []⟩ := by
  rw [ordinaryPart]
  intro action h
  exact hordinary action h

/-- A list runs its ordinary statements and then drops the guards of what they
have registered. -/
theorem runAll_bare_eq_dropEach (body : List Command) (m : Machine) :
    runAll .bare body m =
      dropEach (ordinaryPart body m).actions (ordinaryPart body m).ending := by
  induction body generalizing m with
  | nil => rfl
  | cons c rest ih =>
      cases c with
      | defer action =>
          rw [runAll_defer, ih, ordinaryPart, dropEach_append]
          rfl
      | _ =>
          rw [runAll_cons _ (by simp), ordinaryPart_cons (by simp)]
          generalize Command.alone Build.bare _ m = e
          rcases e with ⟨after, flow⟩
          cases flow with
          | done => exact ih after
          | _ => rfl

/-!
## Dropping guards

A script that is aborted stays so.  Otherwise every action has been run.
-/

theorem dropEach_aborted (actions : List (List Command)) (m : Machine) :
    dropEach actions ⟨m, .aborted⟩ = ⟨m, .aborted⟩ := by
  induction actions with
  | nil => rfl
  | cons action rest ih => exact ih

theorem not_aborted_of_dropEach {actions : List (List Command)} {e : Ending}
    (h : (dropEach actions e).flow ≠ .aborted) : e.flow ≠ .aborted := by
  intro haborted
  rcases e with ⟨m, flow⟩
  cases haborted
  exact h (congrArg Ending.flow (dropEach_aborted actions m))

theorem machine_drop {action : Machine -> Ending} {e : Ending}
    (h : e.flow ≠ .aborted) :
    (Build.bare.drop action e).machine = (action e.machine).machine := by
  rw [drop_eq_settle _ _ h, machine_settle_bare]

theorem drop_of_aborted (action : Machine -> Ending) {e : Ending}
    (h : e.flow = .aborted) :
    (Build.bare.drop action e).flow = .aborted := by
  rcases e with ⟨m, flow⟩
  cases h
  rfl

theorem not_aborted_of_drop {action : Machine -> Ending} {e : Ending}
    (h : (Build.bare.drop action e).flow ≠ .aborted) : e.flow ≠ .aborted :=
  fun haborted => h (drop_of_aborted action haborted)

theorem not_aborted_of_action {action : Machine -> Ending} {e : Ending}
    (h : (Build.bare.drop action e).flow ≠ .aborted) :
    (action e.machine).flow ≠ .aborted := by
  intro haborted
  rw [drop_eq_settle _ _ (not_aborted_of_drop h)] at h
  rcases hend : action e.machine with ⟨after, left⟩
  rw [hend] at h haborted
  cases haborted
  exact h rfl

theorem machine_dropEach {actions : List (List Command)} {e : Ending}
    (h : (dropEach actions e).flow ≠ .aborted) :
    (dropEach actions e).machine = runEach actions e.machine := by
  induction actions generalizing e with
  | nil => rfl
  | cons action rest ih =>
      rw [dropEach_cons] at h ⊢
      rw [ih h, runEach_cons,
        machine_drop (not_aborted_of_drop (not_aborted_of_dropEach h))]

/-- The panic of an action takes the place of the flow that its guard
interrupts, which is not that of another panic. -/
theorem drop_of_panic {action : Machine -> Ending} {e : Ending}
    {m : Machine} {payload : Payload}
    (haction : action e.machine = ⟨m, .panicked payload⟩)
    (h : (Build.bare.drop action e).flow ≠ .aborted) :
    Build.bare.drop action e = ⟨m, .panicked payload⟩ ∧
      e.flow.isPanic = false := by
  have hsettle := drop_eq_settle .bare action (not_aborted_of_drop h)
  rw [hsettle, haction] at h ⊢
  cases hflow : e.flow with
  | panicked earlier =>
      rw [hflow] at h
      exact absurd rfl h
  | _ => exact ⟨rfl, rfl⟩

/-- A panic goes past a guard.  The action of the guard is run, and does not
panic. -/
theorem drop_behind_panic {action : Machine -> Ending} {m : Machine}
    {payload : Payload}
    (h : (Build.bare.drop action ⟨m, .panicked payload⟩).flow ≠ .aborted) :
    Build.bare.drop action ⟨m, .panicked payload⟩ =
        ⟨(action m).machine, .panicked payload⟩ ∧
      (action m).flow.isPanic = false := by
  have hsettle := drop_eq_settle .bare action (not_aborted_of_drop h)
  rw [hsettle] at h ⊢
  rcases hend : action m with ⟨after, left⟩
  rw [hend] at h
  cases left with
  | aborted => exact absurd rfl h
  | panicked later => exact absurd rfl h
  | _ => exact ⟨rfl, rfl⟩

theorem dropEach_behind_panic {actions : List (List Command)} {m : Machine}
    {payload : Payload}
    (h : (dropEach actions ⟨m, .panicked payload⟩).flow ≠ .aborted) :
    dropEach actions ⟨m, .panicked payload⟩ =
        ⟨runEach actions m, .panicked payload⟩ ∧
      NonePanics actions m := by
  induction actions generalizing m with
  | nil => exact ⟨rfl, trivial⟩
  | cons action rest ih =>
      rw [dropEach_cons] at h ⊢
      rcases drop_behind_panic (not_aborted_of_dropEach h) with ⟨heq, hquiet⟩
      rw [heq] at h ⊢
      rcases ih h with ⟨hrest, hnone⟩
      exact ⟨hrest, hquiet, hnone⟩

/-!
## Two panics at once

A script is aborted exactly when an action panics while another panic is under
way, at any depth.
-/

/-- Whether actions panic while another panic is under way in the rounds of a
loop, given the same for one round and what a round does. -/
def roundsClash (clash : Machine -> Bool) (body : Machine -> Ending) :
    Nat -> Machine -> Bool
  | 0, _ => false
  | n + 1, m =>
      clash m ||
        match body m with
        | ⟨m, .done⟩ => roundsClash clash body n m
        | ⟨m, .continued⟩ => roundsClash clash body n m
        | _ => false

mutual

/-- Whether an action panics while another panic is under way before an ordinary
statement ends. -/
def Command.clashes : Command -> Machine -> Bool
  | .block body, m => clashes body m
  | .loop times body, m =>
      roundsClash (clashes body) (runAll .bare body) times m
  | .branch counter same different, m =>
      if m.counter = counter then clashes same m else clashes different m
  | .call body, m => clashes body m
  | .attempt body, m => clashes body m
  | _, _ => false

/-- Whether an action panics while another panic is under way before a list
ends. -/
def clashes : List Command -> Machine -> Bool
  | [], _ => false
  | .defer action :: rest, m =>
      let left := runAll .bare rest m
      clashes rest m || clashes action left.machine ||
        (left.flow.isPanic && (runAll .bare action left.machine).flow.isPanic)
  | c :: rest, m =>
      c.clashes m ||
        match c.alone .bare m with
        | ⟨m, .done⟩ => clashes rest m
        | _ => false

end

theorem clashes_cons {c : Command}
    (hordinary : forall action, c ≠ .defer action) (rest : List Command)
    (m : Machine) :
    clashes (c :: rest) m =
      (c.clashes m ||
        match c.alone .bare m with
        | ⟨m, .done⟩ => clashes rest m
        | _ => false) := by
  rw [clashes]
  intro action h
  exact hordinary action h

namespace Ending

theorem ofCall_aborted_iff (e : Ending) :
    e.ofCall.flow = .aborted ↔ e.flow = .aborted := by
  rcases e with ⟨m, flow⟩
  cases flow with
  | aborted => exact Iff.rfl
  | _ => exact iff_of_false nofun nofun

theorem ofAttempt_aborted_iff (e : Ending) :
    e.ofAttempt.flow = .aborted ↔ e.flow = .aborted := by
  rcases e with ⟨m, flow⟩
  cases flow with
  | aborted => exact Iff.rfl
  | _ => exact iff_of_false nofun nofun

theorem andThen_aborted_iff (e : Ending) {rest : Machine -> Ending}
    {clash : Machine -> Bool}
    (hrest : forall m, (rest m).flow = .aborted ↔ clash m = true) :
    (e.andThen rest).flow = .aborted ↔
      e.flow = .aborted ∨
        (match e with
          | ⟨m, .done⟩ => clash m
          | _ => false) = true := by
  rcases e with ⟨m, flow⟩
  cases flow <;> simp [andThen, hrest]

theorem ofLoop_aborted_iff {body : Machine -> Ending}
    {clash : Machine -> Bool}
    (hbody : forall m, (body m).flow = .aborted ↔ clash m = true)
    (times : Nat) (m : Machine) :
    (ofLoop body times m).flow = .aborted ↔
      roundsClash clash body times m = true := by
  induction times generalizing m with
  | zero => simp [ofLoop, roundsClash]
  | succ n ih =>
      rw [ofLoop, roundsClash, Bool.or_eq_true, ← hbody m]
      rcases body m with ⟨after, flow⟩
      cases flow <;> simp [ih]

end Ending

/-- A guard aborts the script if its action is aborted, or if it panics while
the guard is dropped by a panic. -/
theorem drop_aborted_iff (action : Machine -> Ending) {e : Ending}
    (h : e.flow ≠ .aborted) :
    (Build.bare.drop action e).flow = .aborted ↔
      (action e.machine).flow = .aborted ∨
        (e.flow.isPanic && (action e.machine).flow.isPanic) = true := by
  rw [drop_eq_settle .bare action h]
  rcases action e.machine with ⟨after, left⟩
  generalize e.flow = flow at h ⊢
  cases left <;> cases flow <;> simp_all [Build.settle, Flow.isPanic]

mutual

theorem Command.alone_aborted_iff {c : Command} (m : Machine)
    (hordinary : forall action, c ≠ .defer action) :
    (c.alone .bare m).flow = .aborted ↔ c.clashes m = true := by
  cases c with
  | defer action => exact absurd rfl (hordinary action)
  | block body =>
      rw [Command.alone_block]
      exact runAll_aborted_iff body m
  | loop times body =>
      rw [Command.alone_loop]
      have hbody := fun m => runAll_aborted_iff body m
      exact Ending.ofLoop_aborted_iff hbody times m
  | branch counter same different =>
      rw [Command.alone_branch, Command.clashes]
      split
      · exact runAll_aborted_iff same m
      · exact runAll_aborted_iff different m
  | call body =>
      rw [Command.alone_call, Ending.ofCall_aborted_iff]
      exact runAll_aborted_iff body m
  | attempt body =>
      rw [Command.alone_attempt, Ending.ofAttempt_aborted_iff]
      exact runAll_aborted_iff body m
  | _ => exact iff_of_false nofun nofun

theorem runAll_aborted_iff (body : List Command) (m : Machine) :
    (runAll .bare body m).flow = .aborted ↔ clashes body m = true := by
  cases body with
  | nil => exact iff_of_false nofun nofun
  | cons c rest =>
      have hrest := fun m => runAll_aborted_iff rest m
      cases c with
      | defer action =>
          rw [runAll_defer, clashes, Bool.or_eq_true, Bool.or_eq_true, ← hrest,
            ← runAll_aborted_iff action]
          by_cases haborted : (runAll .bare rest m).flow = .aborted
          · exact iff_of_true (drop_of_aborted _ haborted)
              (.inl (.inl haborted))
          · rw [drop_aborted_iff _ haborted, or_assoc]
            simp only [haborted, false_or]
      | _ =>
          rw [runAll_cons _ (by simp), clashes_cons (by simp),
            Bool.or_eq_true, Ending.andThen_aborted_iff _ hrest,
            Command.alone_aborted_iff m (by simp)]

end

/-!
## From one list to another

Code that catches panics is no step of the way, since no panic leaves it.
-/

/-- Whether a list, run on a machine, comes to run another list, so that a panic
of the second one leaves the first one too.  The actions are those that are
registered on the way, the newest and innermost first, and have not been run
when the second list starts. -/
inductive Reaches : List Command -> Machine -> List (List Command) ->
    List Command -> Machine -> Prop
  | here (body : List Command) (m : Machine) : Reaches body m [] body m
  | behind {c : Command} {rest inner : List Command} {m after start : Machine}
      {pending : List (List Command)}
      (hordinary : forall action, c ≠ .defer action)
      (hdone : c.alone .bare m = ⟨after, .done⟩)
      (hrest : Reaches rest after pending inner start) :
      Reaches (c :: rest) m pending inner start
  | registered (action : List Command) {rest inner : List Command}
      {m start : Machine} {pending : List (List Command)}
      (hrest : Reaches rest m pending inner start) :
      Reaches (.defer action :: rest) m (pending ++ [action]) inner start
  | action {action rest inner : List Command} {m start : Machine}
      {pending : List (List Command)}
      (hrest : clashes rest m = false)
      (haction : Reaches action (runAll .bare rest m).machine pending inner
        start) :
      Reaches (.defer action :: rest) m pending inner start
  | block {body rest inner : List Command} {m start : Machine}
      {pending : List (List Command)}
      (hbody : Reaches body m pending inner start) :
      Reaches (.block body :: rest) m pending inner start
  | firstRound {times : Nat} {body rest inner : List Command}
      {m start : Machine} {pending : List (List Command)}
      (hbody : Reaches body m pending inner start) :
      Reaches (.loop (times + 1) body :: rest) m pending inner start
  | nextRound {times : Nat} {body rest inner : List Command}
      {m after start : Machine} {flow : Flow} {pending : List (List Command)}
      (hround : runAll .bare body m = ⟨after, flow⟩)
      (hflow : flow = .done ∨ flow = .continued)
      (hlater : Reaches (.loop times body :: rest) after pending inner start) :
      Reaches (.loop (times + 1) body :: rest) m pending inner start
  | same {counter : Int64} {body other rest inner : List Command}
      {m start : Machine} {pending : List (List Command)}
      (hcounter : m.counter = counter)
      (hbody : Reaches body m pending inner start) :
      Reaches (.branch counter body other :: rest) m pending inner start
  | different {counter : Int64} {body other rest inner : List Command}
      {m start : Machine} {pending : List (List Command)}
      (hcounter : m.counter ≠ counter)
      (hbody : Reaches body m pending inner start) :
      Reaches (.branch counter other body :: rest) m pending inner start
  | call {body rest inner : List Command} {m start : Machine}
      {pending : List (List Command)}
      (hbody : Reaches body m pending inner start) :
      Reaches (.call body :: rest) m pending inner start

/-- What becomes of an ending on its way out of an enclosing statement, where
neither a panic nor an abort is held up. -/
structure LetsPass (way : Ending -> Ending) : Prop where
  aborted : forall m, (way ⟨m, .aborted⟩).flow = .aborted
  panicked : forall m payload,
    way ⟨m, .panicked payload⟩ = ⟨m, .panicked payload⟩

theorem LetsPass.not_aborted {way : Ending -> Ending} (hway : LetsPass way)
    {e : Ending} (h : (way e).flow ≠ .aborted) : e.flow ≠ .aborted := by
  intro haborted
  rcases e with ⟨after, flow⟩
  cases haborted
  exact h (hway.aborted after)

theorem LetsPass.of_panicked {way : Ending -> Ending} (hway : LetsPass way)
    {e : Ending} {m : Machine} {payload : Payload} {quiet : Prop}
    (he : e.flow ≠ .aborted -> e = ⟨m, .panicked payload⟩ ∧ quiet)
    (h : (way e).flow ≠ .aborted) :
    way e = ⟨m, .panicked payload⟩ ∧ quiet := by
  rcases he (hway.not_aborted h) with ⟨heq, hnone⟩
  rw [heq]
  exact ⟨hway.panicked m payload, hnone⟩

theorem letsPass_andThen (rest : Machine -> Ending) :
    LetsPass fun e => e.andThen rest :=
  ⟨fun _ => rfl, fun _ _ => rfl⟩

theorem letsPass_ofCall (rest : Machine -> Ending) :
    LetsPass fun e => e.ofCall.andThen rest :=
  ⟨fun _ => rfl, fun _ _ => rfl⟩

theorem letsPass_ofLoop (body : Machine -> Ending) (times : Nat)
    (rest : Machine -> Ending) :
    LetsPass fun e =>
      Ending.andThen
        (match e with
          | ⟨m, .done⟩ => Ending.ofLoop body times m
          | ⟨m, .continued⟩ => Ending.ofLoop body times m
          | ⟨m, .broke⟩ => ⟨m, .done⟩
          | e => e) rest :=
  ⟨fun _ => rfl, fun _ _ => rfl⟩

theorem runAll_loop_succ {times : Nat} {body rest : List Command}
    {m next : Machine} {flow : Flow}
    (hround : runAll .bare body m = ⟨next, flow⟩)
    (hflow : flow = .done ∨ flow = .continued) :
    runAll .bare (.loop (times + 1) body :: rest) m =
      runAll .bare (.loop times body :: rest) next := by
  rw [runAll, Command.run, Ending.ofLoop, hround]
  rcases hflow with rfl | rfl <;> rfl

theorem Reaches.not_aborted {body inner : List Command} {m start : Machine}
    {pending : List (List Command)}
    (hreaches : Reaches body m pending inner start)
    (h : (runAll .bare body m).flow ≠ .aborted) :
    (runAll .bare inner start).flow ≠ .aborted := by
  induction hreaches with
  | here body m => exact h
  | behind hordinary hdone hrest ih =>
      rw [runAll_cons _ hordinary, hdone] at h
      exact ih h
  | registered action hrest ih => exact ih (not_aborted_of_drop h)
  | action hrest haction ih => exact ih (not_aborted_of_action h)
  | block hbody ih => exact ih ((letsPass_andThen _).not_aborted h)
  | firstRound hbody ih => exact ih ((letsPass_ofLoop _ _ _).not_aborted h)
  | nextRound hround hflow hlater ih =>
      rw [runAll_loop_succ hround hflow] at h
      exact ih h
  | same hcounter hbody ih =>
      rw [runAll, Command.run, if_pos hcounter] at h
      exact ih ((letsPass_andThen _).not_aborted h)
  | different hcounter hbody ih =>
      rw [runAll, Command.run, if_neg hcounter] at h
      exact ih ((letsPass_andThen _).not_aborted h)
  | call hbody ih => exact ih ((letsPass_ofCall _).not_aborted h)

/-- The panic of a list that is run inside another one becomes the outcome of
that one, once each action that is registered on the way has been run.  The
induction is on the way, from the outer list to the inner one. -/
theorem Reaches.runAll_panicked {body inner : List Command}
    {m start after : Machine} {pending : List (List Command)}
    {payload : Payload} (hreaches : Reaches body m pending inner start)
    (hinner : runAll .bare inner start = ⟨after, .panicked payload⟩)
    (h : (runAll .bare body m).flow ≠ .aborted) :
    runAll .bare body m = ⟨runEach pending after, .panicked payload⟩ ∧
      NonePanics pending after := by
  induction hreaches with
  | here body m => exact ⟨hinner, trivial⟩
  | behind hordinary hdone hrest ih =>
      rw [runAll_cons _ hordinary, hdone] at h ⊢
      exact ih hinner h
  | registered action hrest ih =>
      rw [runAll_defer] at h ⊢
      rcases ih hinner (not_aborted_of_drop h) with ⟨heq, hnone⟩
      rw [heq] at h ⊢
      rcases drop_behind_panic h with ⟨hdrop, haction⟩
      rw [runEach_append, nonePanics_append_iff]
      exact ⟨hdrop, hnone, haction, trivial⟩
  | action hrest haction ih =>
      rw [runAll_defer] at h ⊢
      rcases ih hinner (not_aborted_of_action h) with ⟨heq, hnone⟩
      exact ⟨(drop_of_panic heq h).1, hnone⟩
  | block hbody ih => exact (letsPass_andThen _).of_panicked (ih hinner) h
  | firstRound hbody ih =>
      exact (letsPass_ofLoop _ _ _).of_panicked (ih hinner) h
  | nextRound hround hflow hlater ih =>
      rw [runAll_loop_succ hround hflow] at h ⊢
      exact ih hinner h
  | same hcounter hbody ih =>
      rw [runAll, Command.run, if_pos hcounter] at h ⊢
      exact (letsPass_andThen _).of_panicked (ih hinner) h
  | different hcounter hbody ih =>
      rw [runAll, Command.run, if_neg hcounter] at h ⊢
      exact (letsPass_andThen _).of_panicked (ih hinner) h
  | call hbody ih => exact (letsPass_ofCall _).of_panicked (ih hinner) h

/-!
## The panic of an action
-/

/-- An action of a list panics, in a script where none does so while another
panic is under way.  Its payload takes the place of the flow of the list,
whatever that was.  The actions that were registered before it in the list, and
then those of all lists that the panic leaves, are run once each, the newest and
innermost first, before the panic is the outcome; and none of them panics. -/
theorem runAll_bare_panicking_action {body inner action : List Command}
    {m start after : Machine} {pending newer older : List (List Command)}
    {payload : Payload} (hreaches : Reaches body m pending inner start)
    (hactions : (ordinaryPart inner start).actions = newer ++ action :: older)
    (hpanic :
      runAll .bare action
          (runEach newer (ordinaryPart inner start).ending.machine) =
        ⟨after, .panicked payload⟩)
    (hclash : clashes body m = false) :
    runAll .bare inner start = ⟨runEach older after, .panicked payload⟩ ∧
      runAll .bare body m =
        ⟨runEach (older ++ pending) after, .panicked payload⟩ ∧
      NonePanics (older ++ pending) after := by
  have h : (runAll .bare body m).flow ≠ .aborted := by
    rw [ne_eq, runAll_aborted_iff, hclash]
    exact nofun
  have hinner := hreaches.not_aborted h
  have hsplit : runAll .bare inner start =
      dropEach older (Build.bare.drop (runAll .bare action)
        (dropEach newer (ordinaryPart inner start).ending)) := by
    rw [runAll_bare_eq_dropEach, hactions, dropEach_append, dropEach_cons]
  rw [hsplit] at hinner
  have hdropped := not_aborted_of_dropEach hinner
  have hnewer := machine_dropEach (not_aborted_of_drop hdropped)
  rw [← hnewer] at hpanic
  have hdrop := (drop_of_panic hpanic hdropped).1
  rw [hdrop] at hinner hsplit
  rcases dropEach_behind_panic hinner with ⟨holder, hnone⟩
  rw [holder] at hsplit
  rcases hreaches.runAll_panicked hsplit h with ⟨hbody, hpending⟩
  rw [runEach_append, nonePanics_append_iff]
  exact ⟨hsplit, hbody, hnone, hpending⟩

/-- The second of three actions of an inner list panics.  The list was about to
return; the oldest action still runs, and so does that of the outer list. -/
theorem runAll_bare_second_of_three :
    let inner : List Command :=
      [.defer [.log "first"],
        .defer [.log "second", .panic (.owned "lost")],
        .defer [.log "third"], .ret (some 7)]
    runAll .bare
        [.defer [.log "outer"], .block inner, .log "unreached"] (.start 0) =
      ⟨⟨0, [.logged "third", .logged "second", .logged "first",
        .logged "outer"]⟩, .panicked (.owned "lost")⟩ := by
  intro inner
  have hreaches : Reaches
      [.defer [.log "outer"], .block inner, .log "unreached"] (.start 0)
      [[.log "outer"]] inner (.start 0) :=
    .registered [.log "outer"] (.block (.here inner (.start 0)))
  have hactions : (ordinaryPart inner (.start 0)).actions =
      [[.log "third"]] ++
        [.log "second", .panic (.owned "lost")] :: [[.log "first"]] := rfl
  have h := runAll_bare_panicking_action hreaches hactions rfl (by decide)
  exact h.2.1

end Cleanup
end ScopeExit
