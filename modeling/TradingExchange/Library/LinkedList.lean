/-
**Lists threaded through memory by links.**

A list in memory is given by link functions on its items. `Chain` reads a singly linked list from a
start link to a stop link: the addresses are an arbitrary type, so that pointers which end in null
and indices which end in a sentinel are both chains. `Linked` is a segment of a doubly linked list,
with the neighbours on its two sides.

* `Chain.unique`, `Chain.nodup`: a chain is determined by its start, and visits no item twice;
* `Chain.follow`: the executable walk `follow` reads a null-ended chain back;
* `linked_append`: a segment splits anywhere, each half seeing the other's end;
* `Linked.redirect_last`, `Linked.redirect_first`: writing one boundary link moves one end;
* `Linked.unlink`, `Linked.link_last`: removal from the middle and appending, as what the writes
  leave in the links;
* `Linked.forward`, `Linked.backward`: the two walks of a whole list are reverses of each other.
-/

import Mathlib.Data.List.Induction

namespace TradingExchange

variable {Item : Type}

section Chain

variable {Address : Type}

/-- The list read from `start` along `link`, up to `stop`. -/
def Chain (address link : Item → Address) (stop : Address) : Address → List Item → Prop
  | start, [] => start = stop
  | start, item :: items => start = address item ∧ Chain address link stop (link item) items

namespace Chain

variable {address link : Item → Address} {stop start : Address}

theorem congr {link' : Item → Address} {items : List Item}
    (same : ∀ item ∈ items, link' item = link item) (chain : Chain address link stop start items) :
    Chain address link' stop start items := by
  induction items generalizing start with
  | nil => exact chain
  | cons item items ih =>
    obtain ⟨here, rest⟩ := chain
    refine ⟨here, ?_⟩
    rw [same item List.mem_cons_self]
    exact ih (fun other member => same other (List.mem_cons_of_mem _ member)) rest

/-- **A chain is determined by its start.** -/
theorem unique (injective : Function.Injective address) (apart : ∀ item, address item ≠ stop)
    {first second : List Item} (one : Chain address link stop start first)
    (two : Chain address link stop start second) : first = second := by
  induction first generalizing start second with
  | nil =>
    cases second with
    | nil => rfl
    | cons item items => exact absurd (two.1.symm.trans one) (apart item)
  | cons item items ih =>
    cases second with
    | nil => exact absurd (one.1.symm.trans two) (apart item)
    | cons item' items' =>
      obtain rfl : item = item' := injective (one.1.symm.trans two.1)
      rw [ih one.2 two.2]

/-- **The links of a chain are determined by its items.** -/
theorem link_eq {link' : Item → Address} {start' : Address} {items : List Item}
    (one : Chain address link stop start items) (two : Chain address link' stop start' items) :
    start = start' ∧ ∀ item ∈ items, link item = link' item := by
  induction items generalizing start start' with
  | nil => exact ⟨one.trans two.symm, fun _ member => absurd member List.not_mem_nil⟩
  | cons item items ih =>
    obtain ⟨next, rest⟩ := ih one.2 two.2
    refine ⟨one.1.trans two.1.symm, fun other member => ?_⟩
    rcases List.mem_cons.mp member with rfl | behind
    · exact next
    · exact rest other behind

theorem append_right {before after : List Item}
    (chain : Chain address link stop start (before ++ after)) :
    ∃ middle, Chain address link stop middle after := by
  induction before generalizing start with
  | nil => exact ⟨start, chain⟩
  | cons item items ih => exact ih chain.2

/-- **A chain visits no item twice**: from a repeated item on, it would be its own proper tail. -/
theorem nodup (injective : Function.Injective address) (apart : ∀ item, address item ≠ stop)
    {items : List Item} (chain : Chain address link stop start items) : items.Nodup := by
  induction items generalizing start with
  | nil => exact List.nodup_nil
  | cons item items ih =>
    refine List.nodup_cons.mpr ⟨fun member => ?_, ih chain.2⟩
    obtain ⟨before, after, split⟩ := List.append_of_mem member
    obtain ⟨middle, here, rest⟩ := append_right (split ▸ chain.2)
    have same : items = after := unique injective apart chain.2 rest
    have lengths := congrArg List.length split
    rw [same, List.length_append, List.length_cons] at lengths
    omega

end Chain

/-- Read at most `fuel` items from `start` on. -/
def follow (next : Item → Option Item) : Nat → Option Item → List Item
  | fuel + 1, some item => item :: follow next fuel (next item)
  | _, _ => []

theorem Chain.follow {next : Item → Option Item} {start : Option Item} {items : List Item}
    {fuel : Nat} (chain : Chain some next none start items) (enough : items.length ≤ fuel) :
    TradingExchange.follow next fuel start = items := by
  induction items generalizing start fuel with
  | nil =>
    obtain rfl : start = none := chain
    cases fuel <;> rfl
  | cons item items ih =>
    obtain ⟨rfl, rest⟩ := chain
    cases fuel with
    | zero => exact absurd enough (Nat.not_succ_le_zero _)
    | succ fuel =>
      rw [TradingExchange.follow, ih rest (Nat.le_of_succ_le_succ enough)]

end Chain

/-- A segment of a doubly linked list between the neighbours `before` and `after`. -/
def Linked (next prev : Item → Option Item) (after : Option Item) : Option Item → List Item → Prop
  | _, [] => True
  | before, item :: items =>
    prev item = before ∧ next item = items.head?.or after ∧
      Linked next prev after (some item) items

variable {next prev next' prev' : Item → Option Item} {before after : Option Item}

theorem getLast?_cons_or (item : Item) (items : List Item) (other : Option Item) :
    (item :: items).getLast?.or other = items.getLast?.or (some item) := by
  rw [List.getLast?_cons]
  cases items.getLast? <;> rfl

/-- **A segment splits anywhere.** -/
theorem linked_append {first second : List Item} :
    Linked next prev after before (first ++ second) ↔
      Linked next prev (second.head?.or after) before first ∧
        Linked next prev after (first.getLast?.or before) second := by
  induction first generalizing before with
  | nil => simp only [List.nil_append, Linked, true_and, List.getLast?_nil, Option.none_or]
  | cons item items ih =>
    have heads : (items ++ second).head?.or after = items.head?.or (second.head?.or after) := by
      rw [List.head?_append, Option.or_assoc]
    rw [List.cons_append, Linked, Linked, ih, getLast?_cons_or, heads]
    simp only [and_assoc]

namespace Linked

theorem congr {items : List Item}
    (same : ∀ item ∈ items, next' item = next item ∧ prev' item = prev item)
    (linked : Linked next prev after before items) : Linked next' prev' after before items := by
  induction items generalizing before with
  | nil => trivial
  | cons item items ih =>
    obtain ⟨back, front, rest⟩ := linked
    have here := same item List.mem_cons_self
    exact ⟨here.2.trans back, here.1.trans front,
      ih (fun other member => same other (List.mem_cons_of_mem _ member)) rest⟩

/-- Writing the last item's `next` moves the end of the segment. -/
theorem redirect_last [DecidableEq Item] {after' : Option Item} {items : List Item}
    (nodup : items.Nodup) (backs : ∀ item ∈ items, prev' item = prev item)
    (fronts : ∀ item ∈ items, next' item = if items.getLast? = some item then after' else next item)
    (linked : Linked next prev after before items) : Linked next' prev' after' before items := by
  induction items generalizing before with
  | nil => trivial
  | cons item items ih =>
    obtain ⟨back, front, rest⟩ := linked
    obtain ⟨fresh, nodup⟩ := List.nodup_cons.mp nodup
    refine ⟨(backs item List.mem_cons_self).trans back, ?_, ih nodup
      (fun other member => backs other (List.mem_cons_of_mem _ member)) (fun other member => ?_)
      rest⟩
    · rw [fronts item List.mem_cons_self]
      cases items with
      | nil => rw [if_pos List.getLast?_singleton]; rfl
      | cons second more =>
        rw [if_neg, front]
        · rfl
        · rw [List.getLast?_cons_cons]
          exact fun last => fresh (List.mem_of_getLast? last)
    · rw [fronts other (List.mem_cons_of_mem _ member)]
      cases items with
      | nil => exact absurd member List.not_mem_nil
      | cons second more => rw [List.getLast?_cons_cons]

/-- Writing the first item's `prev` moves the start of the segment. -/
theorem redirect_first [DecidableEq Item] {before' : Option Item} {items : List Item}
    (nodup : items.Nodup) (fronts : ∀ item ∈ items, next' item = next item)
    (backs : ∀ item ∈ items, prev' item = if items.head? = some item then before' else prev item)
    (linked : Linked next prev after before items) : Linked next' prev' after before' items := by
  cases items with
  | nil => trivial
  | cons item items =>
    obtain ⟨-, front, rest⟩ := linked
    obtain ⟨fresh, -⟩ := List.nodup_cons.mp nodup
    refine ⟨?_, (fronts item List.mem_cons_self).trans front, rest.congr fun other member => ?_⟩
    · rw [backs item List.mem_cons_self, if_pos List.head?_cons]
    · have different : (item :: items).head? ≠ some other := by
        rintro ⟨⟩
        exact fresh member
      exact ⟨fronts other (List.mem_cons_of_mem _ member),
        by rw [backs other (List.mem_cons_of_mem _ member), if_neg different]⟩

/-- The links of an item inside a list. -/
theorem node {items later : List Item} {item : Item}
    (linked : Linked next prev none none (items ++ item :: later)) :
    prev item = items.getLast? ∧ next item = later.head? := by
  obtain ⟨-, back, front, -⟩ := linked_append.mp linked
  exact ⟨by rw [back, Option.or_none], by rw [front, Option.or_none]⟩

/-- **Unlinking**: if the neighbours of `item` are written to skip it, the rest is linked. -/
theorem unlink [DecidableEq Item] {items later : List Item} {item : Item}
    (nodup : (items ++ item :: later).Nodup)
    (linked : Linked next prev none none (items ++ item :: later))
    (fronts : ∀ other, other ≠ item →
      next' other = if prev item = some other then next item else next other)
    (backs : ∀ other, other ≠ item →
      prev' other = if next item = some other then prev item else prev other) :
    Linked next' prev' none none (items ++ later) := by
  obtain ⟨back, front⟩ := node linked
  rw [back, front] at fronts backs
  obtain ⟨first, -, -, second⟩ := linked_append.mp linked
  obtain ⟨nodupFirst, nodupRest, disjoint⟩ := List.nodup_append.mp nodup
  obtain ⟨fresh, nodupSecond⟩ := List.nodup_cons.mp nodupRest
  have inFirst : ∀ other ∈ items, other ≠ item := fun other member =>
    disjoint other member item List.mem_cons_self
  have inSecond : ∀ other ∈ later, other ≠ item := fun other member same =>
    fresh (same ▸ member)
  refine linked_append.mpr ⟨?_, ?_⟩
  · refine redirect_last nodupFirst (fun other member => ?_) (fun other member => ?_) first
    · rw [backs other (inFirst other member), if_neg]
      exact fun head => disjoint other member other
        (List.mem_cons_of_mem _ (List.mem_of_head? head)) rfl
    · rw [fronts other (inFirst other member), Option.or_none]
  · refine redirect_first nodupSecond (fun other member => ?_) (fun other member => ?_) second
    · rw [fronts other (inSecond other member), if_neg]
      exact fun last => disjoint other (List.mem_of_getLast? last) other
        (List.mem_cons_of_mem _ member) rfl
    · rw [backs other (inSecond other member), Option.or_none]

/-- **Appending**: if the last item is written to point to `item`, which points back to it, the
longer list is linked. -/
theorem link_last [DecidableEq Item] {items : List Item} {item : Item} (nodup : items.Nodup)
    (linked : Linked next prev none none items)
    (fronts : ∀ other ∈ items,
      next' other = if items.getLast? = some other then some item else next other)
    (backs : ∀ other ∈ items, prev' other = prev other)
    (front : next' item = none) (back : prev' item = items.getLast?) :
    Linked next' prev' none none (items ++ [item]) := by
  refine linked_append.mpr ⟨redirect_last nodup backs fronts linked, ?_⟩
  exact ⟨by rw [back, Option.or_none], front, trivial⟩

theorem forward {items : List Item} (linked : Linked next prev none before items) :
    Chain some next none items.head? items := by
  induction items generalizing before with
  | nil => rfl
  | cons item items ih =>
    obtain ⟨-, front, rest⟩ := linked
    rw [Option.or_none] at front
    exact ⟨rfl, front ▸ ih rest⟩

theorem backward {items : List Item} (linked : Linked next prev after none items) :
    Chain some prev none items.getLast? items.reverse := by
  induction items using List.reverseRecOn generalizing after with
  | nil => rfl
  | append_singleton items item ih =>
    obtain ⟨first, back, -⟩ := linked_append.mp linked
    rw [Option.or_none] at back
    rw [List.getLast?_concat, List.reverse_append]
    exact ⟨rfl, back ▸ ih first⟩

end Linked

end TradingExchange
