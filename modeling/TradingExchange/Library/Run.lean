/-
**Runs of a machine that replies.**

A machine takes a state and an action to a reply and a state, or faults. `Run` is a finite run of
legal actions with the replies given on the way.

* `Run.invariant`, `Run.recorded`: what every legal step keeps, a run keeps, of the state alone or
  together with notes taken on the way;
* `Run.unmarked_iff`: a measure that grows at certain steps only tells whether there was one;
* `Run.refines`: if every legal step returns what a specification's step returns, and keeps a
  relation to it, then a run replies as the specification does (`replay`);
* `Run.lockstep`: if every legal step of one machine can be followed by a legal step of another with
  the same reply, a run can be followed by a run;
* `Run.alongside`: the same for actions that agree in some respect with those of the run;
* `Run.beside`: what a pair of steps keeps, a pair of runs keeps;
* `Run.agree`: if related states give the same replies to an action and stay related, so they do over
  a run.
-/

import TradingExchange.Library.Loop

namespace TradingExchange

variable {State Action Reply : Type}

/-- A run of legal actions, with the replies. -/
inductive Run (step : State → Action → Except Fault (Reply × State))
    (legal : State → Action → Prop) : State → List Action → List Reply → State → Prop where
  | nil (state : State) : Run step legal state [] [] state
  | cons {state next last : State} {action : Action} {actions : List Action} {reply : Reply}
      {replies : List Reply} (permitted : legal state action)
      (done : step state action = .ok (reply, next))
      (rest : Run step legal next actions replies last) :
      Run step legal state (action :: actions) (reply :: replies) last

/-- Run a list of actions, if each is legal in its turn and none faults. -/
def execute (step : State → Action → Except Fault (Reply × State))
    (legal : State → Action → Prop) [∀ state, DecidablePred (legal state)] :
    State → List Action → Option (List Reply × State)
  | state, [] => some ([], state)
  | state, action :: actions =>
    if legal state action then
      match step state action with
      | .error _ => none
      | .ok (reply, next) =>
        (execute step legal next actions).map fun (replies, last) => (reply :: replies, last)
    else none

/-- The replies and the last state of a specification. -/
def replay {Spec : Type} (step : Spec → Action → Reply × Spec) :
    Spec → List Action → List Reply × Spec
  | spec, [] => ([], spec)
  | spec, action :: actions =>
    let (reply, next) := step spec action
    let (replies, last) := replay step next actions
    (reply :: replies, last)

/-- What is noted of the actions and their replies. -/
def record {Notes : Type} (note : Notes → Action → Reply → Notes) :
    Notes → List Action → List Reply → Notes
  | notes, action :: actions, reply :: replies =>
    record note (note notes action reply) actions replies
  | notes, _, _ => notes

namespace Run

variable {step : State → Action → Except Fault (Reply × State)} {legal : State → Action → Prop}
  {state last : State} {actions : List Action} {replies : List Reply}

theorem of_execute [∀ state, DecidablePred (legal state)]
    (ran : execute step legal state actions = some (replies, last)) :
    Run step legal state actions replies last := by
  induction actions generalizing state replies with
  | nil =>
    obtain ⟨rfl, rfl⟩ := Prod.mk.inj (Option.some.inj ran)
    exact .nil state
  | cons action actions ih =>
    rw [execute] at ran
    split at ran
    · next permitted =>
      cases done : step state action with
      | error fault =>
        rw [done] at ran
        exact absurd ran (Option.some_ne_none _).symm
      | ok result =>
        rw [done] at ran
        obtain ⟨⟨replies', last'⟩, rest, same⟩ := Option.map_eq_some_iff.mp ran
        obtain ⟨rfl, rfl⟩ := Prod.mk.inj same
        exact .cons permitted done (ih rest)
    · exact absurd ran (Option.some_ne_none _).symm

theorem execute_eq [∀ state, DecidablePred (legal state)]
    (run : Run step legal state actions replies last) :
    execute step legal state actions = some (replies, last) := by
  induction run with
  | nil => rfl
  | cons permitted done _ ih =>
    rw [execute, if_pos permitted, done]
    simp only [ih, Option.map_some]

theorem append {middle : State} {actions' : List Action} {replies' : List Reply}
    (first : Run step legal state actions replies middle)
    (second : Run step legal middle actions' replies' last) :
    Run step legal state (actions ++ actions') (replies ++ replies') last := by
  induction first with
  | nil => exact second
  | cons permitted done _ ih => exact .cons permitted done (ih second)

/-- The actions of a run determine its replies and where it ends. -/
theorem unique {last' : State} {replies' : List Reply}
    (run : Run step legal state actions replies last)
    (other : Run step legal state actions replies' last') : replies' = replies ∧ last' = last := by
  induction run generalizing replies' with
  | nil =>
    cases other
    exact ⟨rfl, rfl⟩
  | cons _ done _ ih =>
    cases other with
    | cons _ done' rest =>
      obtain ⟨rfl, rfl⟩ := Prod.mk.inj (Except.ok.inj (done'.symm.trans done))
      obtain ⟨rfl, rfl⟩ := ih rest
      exact ⟨rfl, rfl⟩

/-- A run may be made with weaker permissions. -/
theorem mono {legal' : State → Action → Prop}
    (weaker : ∀ state action, legal state action → legal' state action)
    (run : Run step legal state actions replies last) :
    Run step legal' state actions replies last := by
  induction run with
  | nil state => exact .nil state
  | cons permitted done _ ih => exact .cons (weaker _ _ permitted) done ih

/-- **What every legal step keeps, a run keeps.** -/
theorem invariant (holds : State → Prop)
    (kept : ∀ state action reply next, holds state → legal state action →
      step state action = .ok (reply, next) → holds next)
    (run : Run step legal state actions replies last) (start : holds state) : holds last := by
  induction run with
  | nil => exact start
  | cons permitted done _ ih => exact ih (kept _ _ _ _ start permitted done)

/-- **What every legal step keeps of a state and its notes, a run keeps.** -/
theorem recorded {Notes : Type} {note : Notes → Action → Reply → Notes} {notes : Notes}
    (holds : State → Notes → Prop)
    (kept : ∀ state notes action reply next, holds state notes → legal state action →
      step state action = .ok (reply, next) → holds next (note notes action reply))
    (run : Run step legal state actions replies last) (start : holds state notes) :
    holds last (record note notes actions replies) := by
  induction run generalizing notes with
  | nil => exact start
  | cons permitted done _ ih => exact ih (kept _ _ _ _ _ start permitted done)

/-- **A measure that grows at certain steps only, and at each of them, is the same at the end of a
run exactly if the run has no such step.** -/
theorem unmarked_iff (holds : State → Prop) (measure : State → Nat)
    {marked : State → Action → Prop}
    (counted : ∀ state action reply next, holds state → legal state action →
      step state action = .ok (reply, next) → holds next ∧
        (marked state action ∧ measure state < measure next ∨
          ¬ marked state action ∧ measure next = measure state))
    (run : Run step legal state actions replies last) (start : holds state) :
    measure state ≤ measure last ∧ (measure last = measure state ↔
      Run step (fun state action => legal state action ∧ ¬ marked state action) state actions replies
        last) := by
  induction run with
  | nil state => exact ⟨Nat.le_refl _, iff_of_true rfl (.nil state)⟩
  | cons permitted done rest ih =>
    obtain ⟨holds, step⟩ := counted _ _ _ _ start permitted done
    obtain ⟨grown, same⟩ := ih holds
    rcases step with ⟨marks, less⟩ | ⟨unmarked, equal⟩
    · refine ⟨Nat.le_of_lt (Nat.lt_of_lt_of_le less grown), iff_of_false ?_ fun clean => ?_⟩
      · exact Nat.ne_of_gt (Nat.lt_of_lt_of_le less grown)
      · cases clean with
        | cons allowed _ _ => exact allowed.2 marks
    · rw [← equal]
      refine ⟨grown, same.trans ⟨fun clean => .cons ⟨permitted, unmarked⟩ done clean, fun clean => ?_⟩⟩
      cases clean with
      | cons _ done' clean =>
        obtain ⟨-, rfl⟩ := Prod.mk.inj (Except.ok.inj (done.symm.trans done'))
        exact clean

/-- **A run replies as the specification it refines.** -/
theorem refines {Spec : Type} {spec : Spec} {relation : State → Spec → Prop}
    {specStep : Spec → Action → Reply × Spec}
    (simulates : ∀ state spec action, relation state spec → legal state action →
      ∃ next, step state action = .ok ((specStep spec action).1, next) ∧
        relation next (specStep spec action).2)
    (run : Run step legal state actions replies last) (start : relation state spec) :
    replies = (replay specStep spec actions).1 ∧ relation last (replay specStep spec actions).2 := by
  induction run generalizing spec with
  | nil => exact ⟨rfl, start⟩
  | cons permitted done _ ih =>
    obtain ⟨next, done', related⟩ := simulates _ _ _ start permitted
    obtain ⟨rfl, rfl⟩ := Prod.mk.inj (Except.ok.inj (done.symm.trans done'))
    obtain ⟨replies, related⟩ := ih related
    exact ⟨by rw [replay, replies], related⟩

/-- **A run can be followed on other actions** that agree with its own in some respect. -/
theorem alongside {State' Action' Key : Type} {state' : State'} {actions' : List Action'}
    {step' : State' → Action' → Except Fault (Reply × State')} {legal' : State' → Action' → Prop}
    {key : Action → Key} {key' : Action' → Key} (relation : State → State' → Prop)
    (follows : ∀ state state' action action' reply next, relation state state' →
      key' action' = key action → legal state action → step state action = .ok (reply, next) →
      ∃ next', legal' state' action' ∧ step' state' action' = .ok (reply, next') ∧
        relation next next')
    (run : Run step legal state actions replies last)
    (same : actions'.map key' = actions.map key) (start : relation state state') :
    ∃ last', Run step' legal' state' actions' replies last' ∧ relation last last' := by
  induction run generalizing state' actions' with
  | nil =>
    obtain rfl := List.map_eq_nil_iff.mp same
    exact ⟨state', .nil state', start⟩
  | cons permitted done _ ih =>
    obtain ⟨action', later', rfl, one, rest⟩ := List.map_eq_cons_iff.mp same
    obtain ⟨next', permitted', done', related⟩ := follows _ _ _ _ _ _ start one permitted done
    obtain ⟨last', rest, related⟩ := ih rest related
    exact ⟨last', .cons permitted' done' rest, related⟩

/-- **A run can be followed step by step.** -/
theorem lockstep {State' Action' : Type} {state' : State'}
    {step' : State' → Action' → Except Fault (Reply × State')} {legal' : State' → Action' → Prop}
    (relation : State → State' → Prop) (translate : Action → Action')
    (follows : ∀ state state' action reply next, relation state state' → legal state action →
      step state action = .ok (reply, next) →
      ∃ next', legal' state' (translate action) ∧
        step' state' (translate action) = .ok (reply, next') ∧ relation next next')
    (run : Run step legal state actions replies last) (start : relation state state') :
    ∃ last', Run step' legal' state' (actions.map translate) replies last' ∧ relation last last' := by
  have same : (actions.map translate).map id = actions.map translate := List.map_id _
  refine run.alongside relation
    (fun state state' action action' reply next related same permitted done => ?_) same start
  obtain rfl : action' = translate action := same
  exact follows state state' action reply next related permitted done

/-- **Two runs on related actions end in related states**, if every pair of steps keeps the relation
where the second replies as it should. -/
theorem beside {State' Action' Reply' : Type} {state' last' : State'} {actions' : List Action'}
    {replies' : List Reply'} {step' : State' → Action' → Except Fault (Reply' × State')}
    {legal' : State' → Action' → Prop} {paired : Action → Action' → Prop} {good : Reply' → Prop}
    (relation : State → State' → Prop)
    (kept : ∀ state state' action action' reply next reply' next', relation state state' →
      paired action action' → legal state action → step state action = .ok (reply, next) →
      legal' state' action' → step' state' action' = .ok (reply', next') → good reply' →
      relation next next')
    (run : Run step legal state actions replies last)
    (run' : Run step' legal' state' actions' replies' last')
    (length : actions'.length = actions.length)
    (pairs : ∀ pair ∈ actions.zip actions', paired pair.1 pair.2)
    (replied : ∀ reply ∈ replies', good reply) (start : relation state state') :
    relation last last' := by
  induction run generalizing state' actions' replies' with
  | nil =>
    obtain rfl := List.length_eq_zero_iff.mp length
    cases run'
    exact start
  | cons permitted done _ ih =>
    cases run' with
    | nil => cases length
    | cons permitted' done' rest =>
      obtain ⟨pair, pairs⟩ := List.forall_mem_cons.mp pairs
      obtain ⟨one, later⟩ := List.forall_mem_cons.mp replied
      exact ih rest (Nat.succ.inj length) pairs later
        (kept _ _ _ _ _ _ _ _ start pair permitted done permitted' done' one)

/-- **Two runs on the same actions agree**, if their states are related and every step agrees. -/
theorem agree {State' : Type} {state' last' : State'} {replies' : List Reply}
    {step' : State' → Action → Except Fault (Reply × State')} {legal' : State' → Action → Prop}
    (relation : State → State' → Prop)
    (agrees : ∀ state state' action reply next reply' next', relation state state' →
      legal state action → step state action = .ok (reply, next) →
      legal' state' action → step' state' action = .ok (reply', next') →
      reply' = reply ∧ relation next next')
    (run : Run step legal state actions replies last)
    (run' : Run step' legal' state' actions replies' last') (start : relation state state') :
    replies' = replies ∧ relation last last' := by
  induction run generalizing state' replies' with
  | nil =>
    cases run'
    exact ⟨rfl, start⟩
  | cons permitted done _ ih =>
    cases run' with
    | cons permitted' done' rest =>
      obtain ⟨rfl, related⟩ := agrees _ _ _ _ _ _ _ start permitted done permitted' done'
      obtain ⟨rfl, ends⟩ := ih rest related
      exact ⟨rfl, ends⟩

end Run

end TradingExchange
