/-
**A session follows a view.**

`Follows session view`: the book represents the view, and the history agrees with it. Every resting
order has a valid handle, each line is in order of arrival, and the record behind a valid handle of
an order that rests no more has size zero.

One lemma a kind of command: `Follows.accept` for an accepted order, `Follows.cancel`, and
`Follows.keep` for the commands after which every handle shows the same order as before.
-/

import TradingExchange.Model.Session
import TradingExchange.Refinement.Runs

namespace TradingExchange

open Lots Ladder

variable {poolSize : UInt64}

namespace Session

variable {session : Session poolSize} {label : Nat} {slot : Slot poolSize}

theorem slotOf_eq_some : session.slotOf label = some slot ↔
    session.handle label = some slot ∧ session.owner slot = label := by
  rw [slotOf, Option.filter_eq_some_iff, decide_eq_true_iff]

theorem remaining_of_slotOf (valid : session.slotOf label = some slot) :
    session.remaining label = (session.book.order slot).size.toNat := by
  rw [remaining, valid]

theorem remaining_of_none (invalid : session.slotOf label = none) :
    session.remaining label = 0 := by
  rw [remaining, invalid]

section Step

variable {after : Session poolSize}

/-- The clock after a command. -/
theorem clock_step {command : Command} {observation : Observation}
    (ran : session.step command = .ok (observation, after)) :
    after.clock = match command with
      | .addOrder label _ => label + 1
      | _ => session.clock := by
  cases command with
  | addOrder label request =>
    rw [Session.step] at ran
    split at ran
    · cases ran
    · obtain ⟨-, rfl⟩ := Prod.mk.inj (Except.ok.inj ran)
      rfl
    · obtain ⟨-, rfl⟩ := Prod.mk.inj (Except.ok.inj ran)
      rfl
  | cancelOrder label =>
    obtain ⟨-, rfl⟩ := Prod.mk.inj (Except.ok.inj ran)
    rfl
  | matchOrder =>
    rw [Session.step] at ran
    split at ran
    · cases ran
    · obtain ⟨-, rfl⟩ := Prod.mk.inj (Except.ok.inj ran)
      rfl

/-- What is observed of an accepted order is what its handle shows. -/
theorem observed_of_added {remainder : Nat} {request : Request} {against : Nat → Int}
    (ran : session.step (.addOrder label request) = .ok (.added remainder against, after)) :
    after.remaining label = remainder ∧
      against = reductions session.remaining after.remaining (some label) := by
  rw [Session.step] at ran
  split at ran
  · cases ran
  · cases (Prod.mk.inj (Except.ok.inj ran)).1
  · obtain ⟨observed, rfl⟩ := Prod.mk.inj (Except.ok.inj ran)
    exact (Observation.added.inj observed).imp_right Eq.symm

end Step

section Accept

variable {book : OrderBook poolSize} {other : Slot poolSize}

theorem owner_accept_self : (session.accept label slot book).owner slot = label :=
  Function.update_self ..

theorem owner_accept_of_ne (different : other ≠ slot) :
    (session.accept label slot book).owner other = session.owner other :=
  Function.update_of_ne different ..

theorem handle_accept_self : (session.accept label slot book).handle label = some slot :=
  Function.update_self ..

theorem handle_accept_of_ne {older : Nat} (different : older ≠ label) :
    (session.accept label slot book).handle older = session.handle older :=
  Function.update_of_ne different ..

theorem slotOf_accept_self : (session.accept label slot book).slotOf label = some slot :=
  slotOf_eq_some.mpr ⟨handle_accept_self, owner_accept_self⟩

/-- Another order keeps its handle, unless it loses its slot to the new one. -/
theorem slotOf_accept_of_ne {older : Nat} (different : older ≠ label) :
    (session.accept label slot book).slotOf older = some other ↔
      other ≠ slot ∧ session.slotOf older = some other := by
  rw [slotOf_eq_some, slotOf_eq_some, handle_accept_of_ne different]
  by_cases same : other = slot
  · subst same
    rw [owner_accept_self]
    exact iff_of_false (fun valid => different valid.2.symm) fun valid => valid.1 rfl
  · rw [owner_accept_of_ne same]
    exact (and_iff_right same).symm

/-- Only the order that is cancelled loses its handle. -/
theorem slotOf_release {older : Nat} :
    (session.release label book).slotOf older = some other ↔
      older ≠ label ∧ session.slotOf older = some other := by
  rw [slotOf_eq_some, slotOf_eq_some]
  by_cases same : older = label
  · subst same
    have absent : (session.release older book).handle older = none := Function.update_self ..
    rw [absent]
    exact iff_of_false (fun valid => Option.some_ne_none _ valid.1.symm) fun valid => valid.1 rfl
  · have kept : (session.release label book).handle older = session.handle older :=
      Function.update_of_ne same ..
    rw [kept]
    exact (and_iff_right same).symm

end Accept

end Session

/-- The history of a session agrees with a view of its book. -/
structure Session.Follows (session : Session poolSize) (view : View poolSize) : Prop where
  represents : Represents session.book view
  dated : ∀ slot ∈ view.linked, session.owner slot < session.clock
  held : ∀ slot ∈ view.linked, session.handle (session.owner slot) = some slot
  spent : ∀ label slot, session.slotOf label = some slot → slot ∉ view.linked →
    (session.book.order slot).size = 0
  inOrder : ∀ isBuySide price, (refs (lotsAt (view.book.levels isBuySide) price)).Pairwise
    fun earlier later => session.owner earlier < session.owner later

/-- What a command does, call by call: the effect on the book, and the history after it. -/
structure Session.Served (session after : Session poolSize) (view : View poolSize)
    (call : Call poolSize) : Prop where
  effect : Effect session.book after.book view call
  follows : after.Follows (view.step call).2
  owners : ∀ slot ∈ view.linked, after.owner slot = session.owner slot

/-- The call behind a command. -/
def Session.callOf (session : Session poolSize) : Command → Option (Call poolSize)
  | .addOrder _ request => some (.addOrder request)
  | .cancelOrder label => (session.slotOf label).map .cancelOrder
  | .matchOrder isBuySide price size type totalMatched =>
    some (.matchOrder isBuySide price size type totalMatched)

namespace Session.Follows

variable {session : Session poolSize} {view : View poolSize} {after : OrderBook poolSize}
  {slot : Slot poolSize} {label : Nat}

theorem slotOf_owner (follows : session.Follows view) (member : slot ∈ view.linked) :
    session.slotOf (session.owner slot) = some slot :=
  slotOf_eq_some.mpr ⟨follows.held slot member, rfl⟩

/-- **A call that hands out no slot and takes none back by cancelling keeps every handle.** -/
theorem keep (follows : session.Follows view) {call : Call poolSize} {clock : Nat}
    (effect : Effect session.book after view call) (unadded : view.addedBy call = none)
    (kept : ∀ slot, call ≠ .cancelOrder slot) (later : session.clock ≤ clock) :
    ({ session with book := after, clock := clock } : Session poolSize).Follows
      (view.step call).2 := by
  have before : ∀ slot ∈ (view.step call).2.linked, slot ∈ view.linked := fun slot member =>
    (View.mem_linked_of_step member).resolve_right (by rw [unadded]; exact (Option.some_ne_none _).symm)
  refine ⟨effect.represents, fun slot member => ?_, fun slot member =>
    follows.held slot (before slot member), fun label slot valid gone => ?_, fun side price => ?_⟩
  · exact Nat.lt_of_lt_of_le (follows.dated slot (before slot member)) later
  · by_cases member : slot ∈ view.linked
    · exact effect.size_closed member gone (kept slot)
    · have idle := effect.order_idle member (by rw [unadded]; exact (Option.some_ne_none _).symm)
      show (after.order slot).size = 0
      rw [idle]
      exact follows.spent label slot valid member
  · have lines := view.refs_step call side price
    rw [unadded, Option.toList_none, List.append_nil] at lines
    exact (follows.inOrder side price).sublist lines

/-- **An accepted order is the last at its price**, and its handle shows what is left of it. -/
theorem accept (follows : session.Follows view) {request : Request}
    (effect : Effect session.book after view (.addOrder request))
    (added : view.addedBy (.addOrder request) = some slot) (later : session.clock ≤ label) :
    (session.accept label slot after).Follows (view.step (.addOrder request)).2 := by
  have apart := View.addedBy_apart follows.represents added
  have older : ∀ other ∈ view.linked, other ≠ slot := fun other member =>
    ne_of_mem_of_not_mem member apart
  have before : ∀ other ∈ (view.step (.addOrder request)).2.linked, other ≠ slot →
      other ∈ view.linked := fun other member different =>
    (View.mem_linked_of_step member).resolve_right
      (by rw [added]; exact fun same => different (Option.some.inj same).symm)
  have earlier : ∀ other ∈ view.linked, session.owner other < label := fun other member =>
    Nat.lt_of_lt_of_le (follows.dated other member) later
  refine ⟨effect.represents, fun other member => ?_, fun other member => ?_,
    fun older' other valid gone => ?_, fun side price => ?_⟩
  · by_cases same : other = slot
    · rw [same, owner_accept_self]
      exact Nat.lt_succ_self label
    · rw [owner_accept_of_ne same]
      exact Nat.lt_succ_of_lt (earlier other (before other member same))
  · by_cases same : other = slot
    · rw [same, owner_accept_self, handle_accept_self]
    · have member := before other member same
      rw [owner_accept_of_ne same, handle_accept_of_ne (Nat.ne_of_lt (earlier other member))]
      exact follows.held other member
  · by_cases new : older' = label
    · -- the new order leaves no remainder
      subst new
      obtain rfl := Option.some.inj (valid.symm.trans slotOf_accept_self)
      have nothing : view.remainder (.addOrder request) = 0 :=
        Nat.eq_zero_of_not_pos fun left => gone (View.rests_of_remainder added left)
      exact UInt32.toNat_inj.mp ((effect.added other added).trans nothing)
    · obtain ⟨different, valid⟩ := (slotOf_accept_of_ne new).mp valid
      by_cases member : other ∈ view.linked
      · exact effect.size_closed member gone nofun
      · have idle := effect.order_idle member
          (by rw [added]; exact fun same => different (Option.some.inj same).symm)
        show (after.order other).size = 0
        rw [idle]
        exact follows.spent older' other valid member
  · refine List.Pairwise.sublist (view.refs_step _ side price) ?_
    rw [added]
    refine List.pairwise_append.mpr ⟨?_, List.pairwise_singleton _ _, ?_⟩
    · refine (follows.inOrder side price).imp_of_mem fun member member' sooner => ?_
      rwa [owner_accept_of_ne (older _ (View.mem_linked_of_lotsAt member)),
        owner_accept_of_ne (older _ (View.mem_linked_of_lotsAt member'))]
    · intro other member new inside
      obtain rfl := List.mem_singleton.mp inside
      have member := View.mem_linked_of_lotsAt member
      rw [owner_accept_self, owner_accept_of_ne (older other member)]
      exact earlier other member

/-- **A cancelled order is gone**, and no other handle changes. -/
theorem cancel (follows : session.Follows view) (valid : session.slotOf label = some slot)
    (resting : slot ∈ view.linked) :
    (session.release label (session.book.cancelOrder (some slot))).Follows (view.cancel slot) := by
  have effect := follows.represents.cancel resting
  have before : ∀ other ∈ (view.cancel slot).linked, other ∈ view.linked ∧ other ≠ slot := by
    intro other member
    rw [View.linked_cancel] at member
    exact ⟨(List.mem_filter.mp member).1, of_decide_eq_true (List.mem_filter.mp member).2⟩
  refine ⟨effect.represents, fun other member => follows.dated other (before other member).1,
    fun other member => ?_, fun older other valid' gone => ?_, fun side price => ?_⟩
  · obtain ⟨member, different⟩ := before other member
    have apart : session.owner other ≠ label := fun same => different
      (Option.some.inj ((follows.slotOf_owner member).symm.trans (same ▸ valid)))
    exact (slotOf_eq_some.mp (slotOf_release.mpr ⟨apart, follows.slotOf_owner member⟩)).1
  · obtain ⟨different, valid'⟩ := slotOf_release.mp valid'
    have away : other ≠ slot := by
      rintro rfl
      exact different ((slotOf_eq_some.mp valid').2.symm.trans (slotOf_eq_some.mp valid).2)
    by_cases member : other ∈ view.linked
    · exact effect.size_closed member gone fun same => away (Call.cancelOrder.inj same).symm
    · have idle := effect.order_idle member (Option.some_ne_none _).symm
      show ((session.book.cancelOrder (some slot)).order other).size = 0
      rw [idle]
      exact follows.spent older other valid' member
  · have lines := view.refs_step (.cancelOrder slot) side price
    rw [show view.addedBy (.cancelOrder slot) = none from rfl, Option.toList_none,
      List.append_nil] at lines
    exact (follows.inOrder side price).sublist lines

/-! ### Commands -/

theorem addOrder_refused (follows : session.Follows view) (request : Request)
    (later : session.clock ≤ label) (full : view.free = []) :
    ∃ after, session.step (.addOrder label request) = .ok (.refused, after) ∧
      Served session after view (.addOrder request) ∧ after.owner = session.owner := by
  obtain ⟨book, ran, effect⟩ := follows.represents.addTo request
  have refused : (view.add request).1 = none := by rw [View.add_nil full]
  rw [refused] at ran
  refine ⟨{ session with book := book, clock := label + 1 }, ?_, ⟨effect, ?_, fun _ _ => rfl⟩, rfl⟩
  · rw [Session.step, ran]
  · exact follows.keep effect refused nofun (Nat.le_succ_of_le later)

theorem addOrder_accepted (follows : session.Follows view) (request : Request)
    (later : session.clock ≤ label) {free : List (Slot poolSize)}
    (found : view.free = slot :: free) :
    ∃ after, session.step (.addOrder label request) =
        .ok (.added (request.size.toNat - view.available request)
          (reductions session.remaining after.remaining (some label)), after) ∧
      Served session after view (.addOrder request) ∧ after.owner slot = label := by
  obtain ⟨book, ran, effect⟩ := follows.represents.addTo request
  have added : view.addedBy (.addOrder request) = some slot := by
    rw [View.addedBy, View.add_cons found]
  rw [show (view.add request).1 = some slot from added] at ran
  have apart := View.addedBy_apart follows.represents added
  refine ⟨session.accept label slot book, ?_, ⟨effect, follows.accept effect added later,
    fun other member => owner_accept_of_ne (ne_of_mem_of_not_mem member apart)⟩, owner_accept_self⟩
  have size : (book.order slot).size.toNat = request.size.toNat - view.available request :=
    effect.added slot added
  have left : (session.accept label slot book).remaining label =
      request.size.toNat - view.available request :=
    (remaining_of_slotOf slotOf_accept_self).trans size
  rw [Session.step, ran, ← left]

theorem cancelOrder (follows : session.Follows view) (valid : session.slotOf label = some slot)
    (resting : slot ∈ view.linked) :
    ∃ after, session.step (.cancelOrder label) = .ok (.cancelled (session.remaining label), after) ∧
      Served session after view (.cancelOrder slot) ∧ after.owner = session.owner := by
  refine ⟨session.release label (session.book.cancelOrder (some slot)), ?_,
    ⟨follows.represents.cancel resting, follows.cancel valid resting, fun _ _ => rfl⟩, rfl⟩
  rw [Session.step, (slotOf_eq_some.mp valid).1]

theorem matchOrder (follows : session.Follows view) (isBuySide : Bool) (price : UInt64)
    (size : UInt32) (type : OrderType) (totalMatched : UInt32) :
    ∃ after, session.step (.matchOrder isBuySide price size type totalMatched) =
        .ok (.matched (totalMatched.toNat + min (size.toNat - totalMatched.toNat)
            (view.book.available isBuySide price type))
          (reductions session.remaining after.remaining none), after) ∧
      Served session after view (.matchOrder isBuySide price size type totalMatched) ∧
      after.owner = session.owner := by
  obtain ⟨result, ran, total, effect⟩ :=
    follows.represents.matching isBuySide price size type totalMatched
  refine ⟨{ session with book := result.book }, ?_,
    ⟨effect, follows.keep effect rfl nofun (Nat.le_refl _), fun _ _ => rfl⟩, rfl⟩
  rw [Session.step, ran, ← total]

/-- **Every legal command returns**, with the effect of a legal call. -/
theorem step (follows : session.Follows view) {command : Command}
    (legal : command.Legal session) :
    ∃ observation after call, session.step command = .ok (observation, after) ∧
      session.callOf command = some call ∧ view.Legal call ∧ Served session after view call := by
  cases command with
  | addOrder label request =>
    cases found : view.free with
    | nil =>
      obtain ⟨after, ran, served, -⟩ := follows.addOrder_refused request legal found
      exact ⟨_, after, _, ran, rfl, trivial, served⟩
    | cons slot free =>
      obtain ⟨after, ran, served, -⟩ := follows.addOrder_accepted request legal found
      exact ⟨_, after, _, ran, rfl, trivial, served⟩
  | cancelOrder label =>
    obtain ⟨slot, valid, resting⟩ := legal
    have linked := (follows.represents.mem_resting slot).mp resting
    obtain ⟨after, ran, served, -⟩ := follows.cancelOrder valid linked
    exact ⟨_, after, .cancelOrder slot, ran, by rw [callOf, valid]; rfl, linked, served⟩
  | matchOrder isBuySide price size type totalMatched =>
    obtain ⟨after, ran, served, -⟩ :=
      follows.matchOrder isBuySide price size type totalMatched
    exact ⟨_, after, _, ran, rfl, trivial, served⟩

/-- A fresh session follows the fresh view. -/
theorem fresh {symbol : String} (created : Session.new symbol poolSize = some session) :
    session.Follows (View.fresh poolSize) := by
  obtain ⟨book, new, rfl⟩ := Option.map_eq_some_iff.mp created
  have empty : ∀ slot, slot ∉ (View.fresh poolSize).linked := fun slot => List.not_mem_nil
  exact ⟨represents_new new, fun slot member => absurd member (empty slot),
    fun slot member => absurd member (empty slot),
    fun label slot valid => absurd (slotOf_eq_some.mp valid).1 (Option.some_ne_none _).symm,
    fun _ _ => List.Pairwise.nil⟩

end Session.Follows

open Session.Follows in
/-- **Every reachable session follows a view.** -/
theorem Session.Reachable.follows {session : Session poolSize} (reachable : session.Reachable) :
    ∃ view, session.Follows view := by
  obtain ⟨symbol, start, commands, observations, new, run⟩ := reachable
  refine run.invariant (fun session => ∃ view, session.Follows view) ?_ ⟨_, fresh new⟩
  rintro session command observation next ⟨view, follows⟩ legal ran
  obtain ⟨observation', after, call, ran', -, -, served⟩ := follows.step legal
  obtain ⟨-, rfl⟩ := Prod.mk.inj (Except.ok.inj (ran.symm.trans ran'))
  exact ⟨_, served.follows⟩

end TradingExchange
