/-
**Machines whose replies are events, and readers of the events.**

A machine that replies with a list of events leaves a tape: the events of all steps, one after the
other. A reader takes in one event after the other and may refuse one. If every legal step's events
take a reader from one that agrees with the state to one that agrees with the next state, then so
does the tape of a run (`Run.tape`).

What a reader's invariant tells of every event that it accepts, it tells of every event of an
accepted tape (`accepted_all`). Two tapes of such events are the same if they print alike, where
single events are (`tape_of_printed`).
-/

import TradingExchange.Library.Run

namespace TradingExchange

variable {State Action Event Reader : Type}
  {step : State → Action → Except Fault (List Event × State)} {legal : State → Action → Prop}
  {read : Reader → Event → Option Reader} {state last : State} {actions : List Action}
  {tapes : List (List Event)}

/-- **The tape of a run is read as the steps are.** -/
theorem Run.tape {reader : Reader} (agrees : State → Reader → Prop)
    (follows : ∀ state reader action events next, agrees state reader → legal state action →
      step state action = .ok (events, next) →
      ∃ reader', events.foldlM read reader = some reader' ∧ agrees next reader')
    (run : Run step legal state actions tapes last) (start : agrees state reader) :
    ∃ reader', tapes.flatten.foldlM read reader = some reader' ∧ agrees last reader' := by
  induction run generalizing reader with
  | nil => exact ⟨reader, rfl, start⟩
  | cons permitted done _ ih =>
    obtain ⟨next, first, agreed⟩ := follows _ _ _ _ _ start permitted done
    obtain ⟨reader', later, agreed⟩ := ih agreed
    refine ⟨reader', ?_, agreed⟩
    rw [List.flatten_cons, List.foldlM_append, first]
    exact later

/-- An event of the tape is one of some step of the run. -/
theorem Run.of_mem_tape {event : Event} (run : Run step legal state actions tapes last)
    (member : event ∈ tapes.flatten) :
    ∃ before action events after, action ∈ actions ∧
      step before action = .ok (events, after) ∧ event ∈ events := by
  induction run with
  | nil => exact absurd member List.not_mem_nil
  | cons _ done _ ih =>
    rw [List.flatten_cons] at member
    rcases List.mem_append.mp member with first | later
    · exact ⟨_, _, _, _, List.mem_cons_self, done, first⟩
    · obtain ⟨before, action, events, after, inside, done, here⟩ := ih later
      exact ⟨before, action, events, after, List.mem_cons_of_mem _ inside, done, here⟩

/-- **What is known of every accepted event is known of an accepted tape.** -/
theorem accepted_all {reader last : Reader} {events : List Event} (holds : Reader → Prop)
    {given known : Event → Prop}
    (kept : ∀ reader event next, holds reader → given event → read reader event = some next →
      known event ∧ holds next)
    (start : holds reader) (all : ∀ event ∈ events, given event)
    (accepted : events.foldlM read reader = some last) : ∀ event ∈ events, known event := by
  induction events generalizing reader with
  | nil => exact fun _ member => absurd member List.not_mem_nil
  | cons first later ih =>
    rw [List.foldlM_cons] at accepted
    obtain ⟨next, done, rest⟩ := Option.bind_eq_some_iff.mp accepted
    obtain ⟨knows, holds⟩ := kept _ _ _ start (all first List.mem_cons_self) done
    have tail := ih holds (fun event member => all event (List.mem_cons_of_mem _ member)) rest
    exact List.forall_mem_cons.mpr ⟨knows, tail⟩

/-- **A tape can be read from print**, if each of its events can. -/
theorem tape_of_printed {Text : Type} {print : Event → Text} {known : Event → Prop}
    (single : ∀ event other, known event → known other → print event = print other → event = other)
    {events others : List Event} (all : ∀ event ∈ events, known event)
    (all' : ∀ event ∈ others, known event) (same : events.map print = others.map print) :
    events = others := by
  induction events generalizing others with
  | nil => exact (List.map_eq_nil_iff.mp same.symm).symm
  | cons first later ih =>
    cases others with
    | nil => exact absurd same (List.cons_ne_nil _ _)
    | cons first' later' =>
      obtain ⟨one, rest⟩ := List.cons.inj same
      have heads := single _ _ (all first List.mem_cons_self) (all' first' List.mem_cons_self) one
      have tails := ih (fun event member => all event (List.mem_cons_of_mem _ member))
        (fun event member => all' event (List.mem_cons_of_mem _ member)) rest
      rw [heads, tails]

end TradingExchange
