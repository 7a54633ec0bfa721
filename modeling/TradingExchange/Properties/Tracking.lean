/-
**The loop of `main` tracks the book.**

After `addOrder` the vector may hold orders that the new one closed: their slots are free, and
nothing but their size tells them apart (`Driver.Covers`). The cancel looks at the size first, and
the clean-up comes before the next `addOrder` can hand a free slot out again. So no pointer is ever
used for another order than the one it was stored for, and after each iteration the vector holds
exactly the resting orders (`main_tracks`).
-/

import TradingExchange.Model.Driver
import TradingExchange.Refinement.Closing

namespace TradingExchange

variable {poolSize : UInt64} {driver : Driver poolSize} {view : View poolSize}

namespace Driver

/-- **The vector holds exactly the resting orders**, each once. -/
structure Tracks (driver : Driver poolSize) : Prop where
  nodup : driver.orders.Nodup
  resting : ∀ slot, slot ∈ driver.orders ↔ slot ∈ driver.orderBook.resting

/-- In the middle of an iteration, the vector may hold other orders too, of size zero. -/
structure Covers (driver : Driver poolSize) (view : View poolSize) : Prop where
  represents : Represents driver.orderBook view
  nodup : driver.orders.Nodup
  resting : ∀ slot ∈ view.linked, slot ∈ driver.orders
  stale : ∀ slot ∈ driver.orders, slot ∉ view.linked → (driver.orderBook.order slot).size = 0

/-- An order of the vector with a positive size rests. -/
theorem Covers.linked (covers : driver.Covers view) {slot : Slot poolSize}
    (member : slot ∈ driver.orders) (positive : (driver.orderBook.order slot).size > 0) :
    slot ∈ view.linked := by
  by_contra idle
  rw [covers.stale slot member idle] at positive
  exact UInt32.lt_irrefl _ positive

/-- The vector after `addOrder` covers the book. -/
theorem Covers.push (covers : driver.Covers view)
    (exact : ∀ slot ∈ driver.orders, slot ∈ view.linked) {request : Request}
    {book : OrderBook poolSize} (effect : Effect driver.orderBook book view (.addOrder request)) :
    (({ driver with orderBook := book } : Driver poolSize).push (view.add request).1).Covers
      (view.add request).2 := by
  have gone : ∀ slot ∈ driver.orders, slot ∉ (view.add request).2.linked →
      (book.order slot).size = 0 := fun slot member idle =>
    effect.size_closed (exact slot member) idle fun same => by cases same
  have old : ∀ slot ∈ (view.add request).2.linked, (view.add request).1 ≠ some slot →
      slot ∈ driver.orders := by
    intro slot member other
    have before : slot ∈ view.linked ∨ view.addedBy (.addOrder request) = some slot :=
      View.mem_linked_of_step member
    exact covers.resting slot (before.resolve_right other)
  cases added : (view.add request).1 with
  | none =>
    refine ⟨effect.represents, covers.nodup, fun slot member => old slot member ?_, gone⟩
    rw [added]
    exact (Option.some_ne_none slot).symm
  | some new =>
    have addedBy : view.addedBy (.addOrder request) = some new := added
    have apart : new ∉ driver.orders := fun member =>
      View.addedBy_apart covers.represents addedBy (exact new member)
    have left : (book.order new).size.toNat = view.remainder (.addOrder request) :=
      effect.added new added
    rw [Driver.push]
    split
    · next positive =>
      have rests : new ∈ (view.add request).2.linked := by
        refine View.rests_of_remainder addedBy ?_
        rw [← left]
        exact UInt32.lt_iff_toNat_lt.mp positive
      refine ⟨effect.represents, ?_, fun slot member => ?_, fun slot member idle => ?_⟩
      · exact List.nodup_append.mpr ⟨covers.nodup, List.nodup_singleton _,
          fun slot member other here => by
            rw [List.mem_singleton.mp here]
            exact ne_of_mem_of_not_mem member apart⟩
      · by_cases same : slot = new
        · exact List.mem_append_right _ (List.mem_singleton.mpr same)
        · refine List.mem_append_left _ (old slot member ?_)
          rw [added]
          exact fun equal => same (Option.some.inj equal).symm
      · rcases List.mem_append.mp member with earlier | here
        · exact gone slot earlier idle
        · exact absurd (List.mem_singleton.mp here ▸ rests) idle
    · next exhausted =>
      refine ⟨effect.represents, covers.nodup, fun slot member => old slot member ?_, gone⟩
      rw [added]
      intro equal
      obtain rfl := Option.some.inj equal
      exact exhausted (UInt32.lt_iff_toNat_lt.mpr (effect.represents.size_pos member))

/-- The random cancel is one of a resting order, and leaves the book covered. -/
theorem Covers.cancelAt (covers : driver.Covers view) (index : Nat) :
    (∃ view, (driver.cancelAt index).2.Covers view) ∧
      ∀ call ∈ (driver.cancelAt index).1, call.order ∈ call.book.resting := by
  rw [Driver.cancelAt]
  cases found : driver.orders[index]? with
  | none => exact ⟨⟨view, covers⟩, fun _ member => absurd member List.not_mem_nil⟩
  | some order =>
    obtain ⟨inside, rfl⟩ := List.getElem?_eq_some_iff.mp found
    have member : driver.orders[index] ∈ driver.orders := List.getElem_mem inside
    have erased : ∀ slot, slot ∈ driver.orders.eraseIdx index ↔
        slot ≠ driver.orders[index] ∧ slot ∈ driver.orders := fun slot => by
      rw [← covers.nodup.erase_getElem index inside, covers.nodup.mem_erase_iff]
    have nodup : (driver.orders.eraseIdx index).Nodup :=
      covers.nodup.sublist (List.eraseIdx_sublist ..)
    simp only
    split
    · next positive =>
      have linked := covers.linked member positive
      have effect := covers.represents.cancel linked
      refine ⟨⟨_, effect.represents, nodup, fun slot resting => ?_, fun slot stays idle => ?_⟩, ?_⟩
      · rw [View.step, View.linked_cancel, List.mem_filter] at resting
        exact (erased slot).mpr ⟨of_decide_eq_true resting.2, covers.resting slot resting.1⟩
      · obtain ⟨other, stays⟩ := (erased slot).mp stays
        have before : slot ∉ view.linked := fun resting => idle (by
          rw [View.step, View.linked_cancel, List.mem_filter]
          exact ⟨resting, decide_eq_true other⟩)
        have same := effect.order_idle before (Option.some_ne_none slot).symm
        exact (congrArg Order.size same).trans (covers.stale slot stays before)
      · intro call made
        obtain rfl := List.mem_singleton.mp made
        exact (covers.represents.mem_resting _).mpr linked
    · next zero =>
      refine ⟨⟨view, covers.represents, nodup, fun slot resting => ?_, fun slot stays =>
        covers.stale slot ((erased slot).mp stays).2⟩, fun _ made => absurd made List.not_mem_nil⟩
      refine (erased slot).mpr ⟨fun same => zero ?_, covers.resting slot resting⟩
      rw [← same]
      exact UInt32.lt_iff_toNat_lt.mpr (covers.represents.size_pos resting)

/-- The clean-up leaves the resting orders. -/
theorem Covers.cleanUp (covers : driver.Covers view) :
    driver.cleanUp.Covers view ∧ ∀ slot ∈ driver.cleanUp.orders, slot ∈ view.linked := by
  have kept : ∀ slot, slot ∈ driver.cleanUp.orders ↔
      slot ∈ driver.orders ∧ (driver.orderBook.order slot).size ≠ 0 := fun slot => by
    rw [Driver.cleanUp, List.mem_filter, bne_iff_ne]
  refine ⟨⟨covers.represents, covers.nodup.filter _, fun slot resting => ?_, fun slot member =>
    covers.stale slot ((kept slot).mp member).1⟩, fun slot member => ?_⟩
  · refine (kept slot).mpr ⟨covers.resting slot resting, fun zero => ?_⟩
    have positive := covers.represents.size_pos resting
    rw [zero] at positive
    exact Nat.lt_irrefl 0 positive
  · obtain ⟨member, remains⟩ := (kept slot).mp member
    by_contra idle
    exact remains (covers.stale slot member idle)

/-- What holds between two iterations. -/
def Settled (driver : Driver poolSize) : Prop :=
  ∃ view, driver.Covers view ∧ ∀ slot ∈ driver.orders, slot ∈ view.linked

theorem Settled.tracks (settled : driver.Settled) : driver.Tracks := by
  obtain ⟨view, covers, linked⟩ := settled
  refine ⟨covers.nodup, fun slot => ?_⟩
  rw [covers.represents.mem_resting]
  exact ⟨linked slot, covers.resting slot⟩

theorem settled_new {symbol : String} (new : Driver.new symbol poolSize = some driver) :
    driver.Settled := by
  obtain ⟨book, created, rfl⟩ := Option.map_eq_some_iff.mp new
  exact ⟨View.fresh poolSize, ⟨represents_new created, List.nodup_nil,
    fun _ member => absurd member List.not_mem_nil, fun _ member => absurd member List.not_mem_nil⟩,
    fun _ member => absurd member List.not_mem_nil⟩

/-- **Every iteration returns, and cancels resting orders only.** -/
theorem Settled.iterate (settled : driver.Settled) (draw : Draw) :
    ∃ calls next, driver.iterate draw = .ok (calls, next) ∧ next.Settled ∧
      ∀ call ∈ calls, call.order ∈ call.book.resting := by
  obtain ⟨view, covers, exact⟩ := settled
  obtain ⟨book, ran, effect⟩ := covers.represents.addTo draw.request
  have pushed := covers.push exact effect
  rw [Driver.iterate, ran]
  cases chosen : draw.indexToCancel with
  | none =>
    exact ⟨_, _, rfl, ⟨_, pushed.cleanUp⟩, fun _ made => absurd made List.not_mem_nil⟩
  | some index =>
    obtain ⟨⟨view', cancelled⟩, legal⟩ := pushed.cancelAt index
    exact ⟨_, _, rfl, ⟨_, cancelled.cleanUp⟩, legal⟩

end Driver

/-- **After each iteration of `main` the vector holds exactly the resting orders**, and every order
it cancels is resting at that moment. -/
theorem main_tracks {symbol : String} (new : Driver.new symbol poolSize = some driver)
    (draws : List Draw) :
    ∃ calls last, Run Driver.iterate (fun _ _ => True) driver draws calls last ∧ last.Tracks ∧
      ∀ made ∈ calls, ∀ call ∈ made, call.order ∈ call.book.resting := by
  have settled := Driver.settled_new new
  clear new
  induction draws generalizing driver with
  | nil =>
    exact ⟨[], driver, .nil driver, settled.tracks, fun _ member => absurd member List.not_mem_nil⟩
  | cons draw draws ih =>
    obtain ⟨made, next, done, settled, legal⟩ := settled.iterate draw
    obtain ⟨calls, last, run, tracks, rest⟩ := ih settled
    refine ⟨_, last, .cons trivial done run, tracks, fun other member => ?_⟩
    rcases List.mem_cons.mp member with rfl | behind
    · exact legal
    · exact rest other behind

/-- A bid is closed by an ask, what is left of the ask is cancelled, and a bid rests in its slot. -/
theorem main_tracks_sample : ∃ driver : Driver 4, ∃ calls last,
    Run Driver.iterate (fun _ _ => True) driver
      [⟨⟨1, 1, 5, 10, true, .limit⟩, none⟩, ⟨⟨2, 2, 9, 10, false, .limit⟩, some 1⟩,
        ⟨⟨3, 3, 7, 8, true, .limit⟩, none⟩] calls last ∧
      calls.map (List.map fun call => call.order) = [[], [⟨1, by decide⟩], []] ∧
      last.orders = [⟨1, by decide⟩] ∧ last.orderBook.ordersAt true 8 = [⟨1, by decide⟩] ∧
      last.Tracks ∧ ∀ made ∈ calls, ∀ call ∈ made, call.order ∈ call.book.resting := by
  let draws : List Draw := [⟨⟨1, 1, 5, 10, true, .limit⟩, none⟩,
    ⟨⟨2, 2, 9, 10, false, .limit⟩, some 1⟩, ⟨⟨3, 3, 7, 8, true, .limit⟩, none⟩]
  have played : ((Driver.new "X" 4).bind fun driver =>
      execute Driver.iterate (fun _ _ => True) driver draws).map (fun result =>
        (result.1.map (List.map fun call => call.order), result.2.orders,
          result.2.orderBook.ordersAt true 8)) =
      some ([[], [⟨1, by decide⟩], []], [⟨1, by decide⟩], [⟨1, by decide⟩]) := by
    decide +kernel
  obtain ⟨⟨calls, last⟩, ran, shown⟩ := Option.map_eq_some_iff.mp played
  obtain ⟨driver, new, executed⟩ := Option.bind_eq_some_iff.mp ran
  obtain ⟨cancelled, rest⟩ := Prod.mk.inj shown
  obtain ⟨tracked, here⟩ := Prod.mk.inj rest
  obtain ⟨calls', last', run, tracks, legal⟩ := main_tracks new draws
  rw [run.execute_eq] at executed
  obtain ⟨rfl, rfl⟩ := Prod.mk.inj (Option.some.inj executed)
  exact ⟨driver, calls', last', run, cancelled, tracked, here, tracks, legal⟩

end TradingExchange
