/-
**The market: the pure book as its clients see it.**

Orders are known by label, and the book is a `PureBook` of tickets. `PureBook.step` is the whole
interface without memory: an order takes what is within its limit and its remainder rests, a cancel
deletes one order. A `Market` is such a book with room for so many more orders, as long as each
order that is closed or cancelled gives its room back. An order that leaves no remainder does not.

An order that no command touches is not missed: the market without it takes the same steps, with the
same observations (`Market.step_without`).
-/

import Mathlib.Algebra.BigOperators.Ring.Finset
import TradingExchange.Abstract.Laws
import TradingExchange.Model.Session

namespace TradingExchange

open Lots Ladder

/-- The ticket is the order's. -/
def Ticket.isOf (label : Nat) (ticket : Ticket Nat) : Bool := ticket.ref = label

namespace PureBook

/-- The size of an order, if it rests. -/
def remaining (book : PureBook (Ticket Nat)) (label : Nat) : Nat := book.quantity (Ticket.isOf label)

/-- `addOrder` without memory. -/
def submit (book : PureBook (Ticket Nat)) (label : Nat) (request : Request) :
    PureBook (Ticket Nat) :=
  book.add (request.ticket label) request.size.toNat request.price request.isBuySide
    request.orderType

/-- One command. -/
def step (book : PureBook (Ticket Nat)) : Command → Observation × PureBook (Ticket Nat)
  | .addOrder label request =>
    let after := book.submit label request
    (.added (request.size.toNat - book.available request.isBuySide request.price request.orderType)
      (reductions book.remaining after.remaining (some label)), after)
  | .cancelOrder label => (.cancelled (book.remaining label), book.cancel (Ticket.isOf label))
  | .matchOrder isBuySide price size type totalMatched =>
    let amount := size.toNat - totalMatched.toNat
    let after := book.matchOrder isBuySide price amount type
    (.matched (totalMatched.toNat + min amount (book.available isBuySide price type))
      (reductions book.remaining after.remaining none), after)

/-! ### An order that is not touched -/

section Without

variable {book : PureBook (Ticket Nat)} {label : Nat} {command : Command}

/-- The book without an order. -/
def without (book : PureBook (Ticket Nat)) (label : Nat) : PureBook (Ticket Nat) :=
  book.cancel (Ticket.isOf label)

theorem remaining_without_self : (book.without label).remaining label = 0 := by
  rw [remaining, quantity, without, line, line, levels_cancel, levels_cancel, Ladder.flat_withdraw,
    Ladder.flat_withdraw, Lots.quantity_keep_self, Lots.quantity_keep_self]

theorem remaining_without {other : Nat} (different : other ≠ label) :
    (book.without label).remaining other = book.remaining other := by
  have apart : ∀ ticket, Ticket.isOf other ticket = true → Ticket.isOf label ticket = false :=
    fun ticket own =>
    decide_eq_false fun same => different ((of_decide_eq_true own).symm.trans same)
  rw [remaining, quantity, without, line, line, levels_cancel, levels_cancel, Ladder.flat_withdraw,
    Ladder.flat_withdraw, Lots.quantity_keep apart, Lots.quantity_keep apart]
  rfl

/-- The other orders are reduced by the same, and this one is not reduced. -/
theorem reductions_without {after : PureBook (Ticket Nat)}
    (untouched : after.remaining label = book.remaining label) (new : Option Nat) :
    reductions (book.without label).remaining (after.without label).remaining new =
      reductions book.remaining after.remaining new := by
  funext other
  rw [reductions, reductions]
  by_cases same : other = label
  · rw [same, remaining_without_self, remaining_without_self, untouched, Int.sub_self, Int.sub_self]
  · rw [remaining_without same, remaining_without same]

theorem submit_without {new : Nat} {request : Request} (other : new ≠ label)
    (untouched : (book.submit new request).remaining label = book.remaining label) :
    (book.without label).submit new request = (book.submit new request).without label ∧
      min request.size.toNat ((book.without label).available request.isBuySide request.price
          request.orderType) =
        min request.size.toNat (book.available request.isBuySide request.price request.orderType) ∧
      (book.without label).closes request.isBuySide request.price request.size.toNat
          request.orderType =
        book.closes request.isBuySide request.price request.size.toNat request.orderType :=
  have apart : Ticket.isOf label (request.ticket new) = false := decide_eq_false other
  add_cancel apart untouched

theorem matchOrder_without {isBuySide : Bool} {price : UInt64} {amount : Nat} {type : OrderType}
    (untouched : (book.matchOrder isBuySide price amount type).remaining label =
      book.remaining label) :
    (book.without label).matchOrder isBuySide price amount type =
        (book.matchOrder isBuySide price amount type).without label ∧
      min amount ((book.without label).available isBuySide price type) =
        min amount (book.available isBuySide price type) ∧
      (book.without label).closes isBuySide price amount type =
        book.closes isBuySide price amount type :=
  matchOrder_cancel untouched

/-- **An order that a command does not touch makes no difference to it.** -/
theorem step_without (other : command.label ≠ some label)
    (untouched : (book.step command).2.remaining label = book.remaining label) :
    (book.without label).step command =
      ((book.step command).1, (book.step command).2.without label) := by
  cases command with
  | addOrder new request =>
    obtain ⟨same, taken, -⟩ := submit_without (fun same => other (congrArg some same)) untouched
    have left : request.size.toNat - (book.without label).available request.isBuySide request.price
        request.orderType =
        request.size.toNat - book.available request.isBuySide request.price request.orderType := by
      omega
    simp only [step, same, left]
    exact Prod.ext (congrArg (Observation.added _) (reductions_without untouched _)) rfl
  | cancelOrder gone =>
    have left : (book.without label).remaining gone = book.remaining gone :=
      remaining_without fun same => other (congrArg some same)
    exact Prod.ext (congrArg Observation.cancelled left) (cancel_comm _)
  | matchOrder isBuySide price size type totalMatched =>
    obtain ⟨same, taken, -⟩ := matchOrder_without untouched
    simp only [step, same, taken]
    exact Prod.ext (congrArg (Observation.matched _) (reductions_without untouched _)) rfl

end Without

/-! ### What a new order takes -/

section Taking

variable {book : PureBook (Ticket Nat)} {label : Nat} {request : Request}

/-- Every order's reduction is what the other side lost of it. -/
theorem reductions_submit (new : ∀ side, ∀ lot ∈ book.line side, lot.tag.ref ≠ label)
    (other : Nat) :
    reductions book.remaining (book.submit label request).remaining (some label) other =
      (Lots.quantity (Ticket.isOf other) (book.line !request.isBuySide) : Int) -
        Lots.quantity (Ticket.isOf other) ((book.submit label request).line !request.isBuySide) := by
  have less : Lots.quantity (Ticket.isOf other)
      ((book.submit label request).line !request.isBuySide) ≤
      Lots.quantity (Ticket.isOf other) (book.line !request.isBuySide) := quantity_add_not_le _
  rw [reductions]
  by_cases same : label = other
  · subst same
    have nothing : Lots.quantity (Ticket.isOf label) (book.line !request.isBuySide) = 0 :=
      quantity_eq_zero fun lot member => decide_eq_false (new _ lot member)
    rw [if_pos rfl]
    omega
  · have apart : Ticket.isOf other (request.ticket label) = false := decide_eq_false same
    have own : Lots.quantity (Ticket.isOf other) ((book.submit label request).line request.isBuySide) =
        Lots.quantity (Ticket.isOf other) (book.line request.isBuySide) := quantity_add_self apart
    rw [if_neg fun equal => same (Option.some.inj equal), remaining, remaining,
      quantity_sides _ request.isBuySide, quantity_sides _ request.isBuySide, own]
    omega

/-- A reduction is at most what there was, and nothing that is not on the other side is reduced. -/
theorem reductions_submit_bounds (request : Request)
    (new : ∀ side, ∀ lot ∈ book.line side, lot.tag.ref ≠ label) (other : Nat) :
    0 ≤ reductions book.remaining (book.submit label request).remaining (some label) other ∧
      reductions book.remaining (book.submit label request).remaining (some label) other ≤
        Lots.quantity (Ticket.isOf other) (book.line !request.isBuySide) := by
  have less : Lots.quantity (Ticket.isOf other)
      ((book.submit label request).line !request.isBuySide) ≤
      Lots.quantity (Ticket.isOf other) (book.line !request.isBuySide) := quantity_add_not_le _
  rw [reductions_submit new]
  omega

/-- **What a new order takes is the sum of the reductions it makes on the other side.** -/
theorem sum_reductions_submit (new : ∀ side, ∀ lot ∈ book.line side, lot.tag.ref ≠ label)
    {labels : List Nat} (nodup : labels.Nodup)
    (covered : ∀ lot ∈ book.line !request.isBuySide, lot.tag.ref ∈ labels) :
    (labels.map (reductions book.remaining (book.submit label request).remaining
      (some label))).sum =
        min request.size.toNat (book.available request.isBuySide request.price
          request.orderType) := by
  have covered' : ∀ lot ∈ (book.submit label request).line !request.isBuySide,
      lot.tag.ref ∈ labels := by
    intro lot member
    rcases mem_line_add member with ⟨own, -⟩ | ⟨earlier, there, same⟩
    · exact absurd own (Bool.not_ne_self _)
    · exact same ▸ covered earlier there
  have before : (labels.map fun other =>
      Lots.quantity (Ticket.isOf other) (book.line !request.isBuySide)).sum =
      total (book.line !request.isBuySide) := sum_quantity nodup covered
  have after : (labels.map fun other =>
      Lots.quantity (Ticket.isOf other) ((book.submit label request).line !request.isBuySide)).sum =
      total ((book.submit label request).line !request.isBuySide) := sum_quantity nodup covered'
  have taken : total ((book.submit label request).line !request.isBuySide) +
      min request.size.toNat (book.available request.isBuySide request.price request.orderType) =
      total (book.line !request.isBuySide) := total_add_not _
  have parts : labels.map (fun other =>
      ((Lots.quantity (Ticket.isOf other) (book.line !request.isBuySide) : Nat) : Int)) =
      labels.map fun other =>
        reductions book.remaining (book.submit label request).remaining (some label) other +
          Lots.quantity (Ticket.isOf other)
            ((book.submit label request).line !request.isBuySide) := by
    refine List.map_congr_left fun other _ => ?_
    rw [reductions_submit new, Int.sub_add_cancel]
  have whole := congrArg List.sum parts
  rw [List.sum_map_add] at whole
  have cast : ∀ size : Nat → Nat, (labels.map fun other => (size other : Int)).sum =
      ((labels.map size).sum : Nat) := fun size => by
    rw [Nat.cast_list_sum, List.map_map]
    rfl
  rw [cast, cast] at whole
  omega

end Taking

end PureBook

/-- A book with room for so many more orders. -/
@[ext]
structure Market where
  book : PureBook (Ticket Nat)
  room : Nat

namespace Market

/-- The room after a command that is not refused. -/
def roomAfter (market : Market) : Command → Nat
  | .addOrder _ request => (market.book.closes request.isBuySide request.price request.size.toNat
      request.orderType).length + (market.room - 1)
  | .cancelOrder _ => market.room + 1
  | .matchOrder isBuySide price size type totalMatched =>
    (market.book.closes isBuySide price (size.toNat - totalMatched.toNat) type).length + market.room

/-- A command is refused if it adds an order and there is no room. -/
def Refuses (market : Market) : Command → Prop
  | .addOrder .. => market.room = 0
  | _ => False

instance (market : Market) : DecidablePred market.Refuses
  | .addOrder .. => inferInstanceAs (Decidable (market.room = 0))
  | .cancelOrder _ => inferInstanceAs (Decidable False)
  | .matchOrder .. => inferInstanceAs (Decidable False)

/-- One command. -/
def step (market : Market) (command : Command) : Observation × Market :=
  if market.Refuses command then (.refused, market)
  else ((market.book.step command).1, ⟨(market.book.step command).2, market.roomAfter command⟩)

theorem step_of_accepted {market : Market} {command : Command}
    (accepted : ¬ market.Refuses command) : market.step command =
      ((market.book.step command).1, ⟨(market.book.step command).2, market.roomAfter command⟩) :=
  if_neg accepted

/-- **If no order is refused, the room makes no difference.** -/
theorem replay_book {market : Market} {commands : List Command}
    (accepted : ∀ observation ∈ (replay step market commands).1, observation.accepted = true) :
    (replay step market commands).1 = (replay PureBook.step market.book commands).1 ∧
      (replay step market commands).2.book = (replay PureBook.step market.book commands).2 := by
  induction commands generalizing market with
  | nil => exact ⟨rfl, rfl⟩
  | cons command commands ih =>
    rw [replay] at accepted ⊢
    by_cases refused : market.Refuses command
    · rw [step, if_pos refused] at accepted
      exact absurd (accepted _ List.mem_cons_self) Bool.false_ne_true
    · rw [step_of_accepted refused] at accepted ⊢
      obtain ⟨observations, book⟩ := ih fun observation member =>
        accepted observation (List.mem_cons_of_mem _ member)
      exact ⟨congrArg _ observations, book⟩

/-- The market without an order, which had room for one more. -/
def without (market : Market) (label : Nat) : Market := ⟨market.book.without label, market.room + 1⟩

/-- **An order that a command does not touch makes no difference to it**, unless it was refused. -/
theorem step_without {market : Market} {label : Nat} {command : Command}
    (other : command.label ≠ some label) (accepted : ¬ market.Refuses command)
    (untouched : (market.step command).2.book.remaining label = market.book.remaining label) :
    (market.without label).step command =
      ((market.step command).1, (market.step command).2.without label) := by
  rw [step_of_accepted accepted] at untouched ⊢
  have same := PureBook.step_without other untouched
  have room : ¬ (market.without label).Refuses command := by
    cases command with
    | addOrder => exact Nat.succ_ne_zero _
    | cancelOrder => exact id
    | matchOrder => exact id
  rw [step_of_accepted room, show (market.without label).book = market.book.without label from rfl,
    same]
  refine Prod.ext rfl (Market.ext rfl ?_)
  cases command with
  | addOrder new request =>
    have closed := (PureBook.submit_without (fun same => other (congrArg some same)) untouched).2.2
    have roomy : market.room ≠ 0 := accepted
    simp only [roomAfter, without, closed]
    omega
  | cancelOrder => rfl
  | matchOrder isBuySide price size type totalMatched =>
    simp only [roomAfter, without, (PureBook.matchOrder_without untouched).2.2]
    omega

end Market

end TradingExchange
