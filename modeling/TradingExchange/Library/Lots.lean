/-
**A line of lots, served from the front.**

A `Lot` is a positive quantity with a tag. Serving `amount` from a line of lots consumes whole lots
from the front and then part of one: `fill` is what is left of the line, `spent` the tags of the
lots that are gone, in the order they went. Quantities are natural numbers, so nothing here rounds
or wraps.

* `total_fill`: serving takes the amount, or everything;
* `fill_append`: a later part of the line is touched only by what the earlier part cannot serve;
* `fill_fill`: serving in two parts is serving the sum;
* `tags_eq`: the lots that are gone are the first ones;
* `fill_relabel`, `fill_keep`: serving does not look at the tags, and does not miss a lot that it
  would not have reached.
-/

import Mathlib.Algebra.GroupWithZero.Nat
import Mathlib.Data.List.Nodup
import Mathlib.Algebra.BigOperators.Group.List.Basic

namespace TradingExchange

/-- A positive quantity under a tag. -/
@[ext]
structure Lot (Tag : Type) where
  tag : Tag
  size : Nat
  positive : 0 < size

namespace Lot

variable {Tag Other : Type}

/-- The same quantity under another tag. -/
def relabel (label : Tag → Other) (lot : Lot Tag) : Lot Other :=
  ⟨label lot.tag, lot.size, lot.positive⟩

end Lot

namespace Lots

variable {Tag Other : Type}

def tags (lots : List (Lot Tag)) : List Tag := lots.map Lot.tag

/-- The quantity of a line. -/
def total (lots : List (Lot Tag)) : Nat := (lots.map Lot.size).sum

/-- What is left of a line after serving `amount`. -/
def fill : Nat → List (Lot Tag) → List (Lot Tag)
  | _, [] => []
  | amount, lot :: later =>
    if short : amount < lot.size then ⟨lot.tag, lot.size - amount, by omega⟩ :: later
    else fill (amount - lot.size) later

/-- The lots that are gone after serving `amount`. -/
def spent : Nat → List (Lot Tag) → List Tag
  | _, [] => []
  | amount, lot :: later =>
    if amount < lot.size then [] else lot.tag :: spent (amount - lot.size) later

/-- The line without the lots whose tag is `gone`. -/
def keep (gone : Tag → Bool) (lots : List (Lot Tag)) : List (Lot Tag) :=
  lots.filter fun lot => !gone lot.tag

/-- The quantity of the lots whose tag is `mine`. -/
def quantity (mine : Tag → Bool) (lots : List (Lot Tag)) : Nat :=
  total (lots.filter fun lot => mine lot.tag)

@[simp] theorem tags_nil : tags ([] : List (Lot Tag)) = [] := rfl

@[simp] theorem tags_cons (lot : Lot Tag) (later : List (Lot Tag)) :
    tags (lot :: later) = lot.tag :: tags later := rfl

@[simp] theorem tags_append (first second : List (Lot Tag)) :
    tags (first ++ second) = tags first ++ tags second := List.map_append

@[simp] theorem total_nil : total ([] : List (Lot Tag)) = 0 := rfl

@[simp] theorem total_cons (lot : Lot Tag) (later : List (Lot Tag)) :
    total (lot :: later) = lot.size + total later := List.sum_cons

@[simp] theorem total_append (first second : List (Lot Tag)) :
    total (first ++ second) = total first + total second := by
  rw [total, List.map_append, List.sum_append]
  rfl

theorem total_pos {lots : List (Lot Tag)} (inhabited : lots ≠ []) : 0 < total lots := by
  cases lots with
  | nil => exact absurd rfl inhabited
  | cons lot later =>
    rw [total_cons]
    exact Nat.add_pos_left lot.positive _

/-! ### Serving -/

section Serving

variable {amount : Nat} {lot : Lot Tag} {lots later first second : List (Lot Tag)}

theorem fill_short (short : amount < lot.size) :
    fill amount (lot :: later) = ⟨lot.tag, lot.size - amount, by omega⟩ :: later := by
  rw [fill, dif_pos short]

theorem fill_whole (whole : lot.size ≤ amount) :
    fill amount (lot :: later) = fill (amount - lot.size) later := by
  rw [fill, dif_neg (Nat.not_lt.mpr whole)]

theorem spent_short (short : amount < lot.size) : spent amount (lot :: later) = [] := by
  rw [spent, if_pos short]

theorem spent_whole (whole : lot.size ≤ amount) :
    spent amount (lot :: later) = lot.tag :: spent (amount - lot.size) later := by
  rw [spent, if_neg (Nat.not_lt.mpr whole)]

@[simp] theorem fill_zero (lots : List (Lot Tag)) : fill 0 lots = lots := by
  cases lots with
  | nil => rfl
  | cons lot later => exact fill_short lot.positive

@[simp] theorem spent_zero (lots : List (Lot Tag)) : spent 0 lots = [] := by
  cases lots with
  | nil => rfl
  | cons lot later => exact spent_short lot.positive

/-- **Serving takes the amount, or everything.** -/
theorem total_fill (amount : Nat) (lots : List (Lot Tag)) :
    total (fill amount lots) = total lots - amount := by
  induction lots generalizing amount with
  | nil => simp only [fill, total_nil, Nat.zero_sub]
  | cons lot later ih =>
    by_cases short : amount < lot.size
    · rw [fill_short short, total_cons, total_cons]
      simp only
      omega
    · have whole := Nat.not_lt.mp short
      rw [fill_whole whole, ih, total_cons]
      omega

theorem fill_eq_nil : fill amount lots = [] ↔ total lots ≤ amount := by
  constructor
  · intro empty
    have := total_fill amount lots
    rw [empty, total_nil] at this
    omega
  · intro enough
    by_contra inhabited
    have := total_pos inhabited
    rw [total_fill] at this
    omega

/-- **The earlier part of a line is served first.** -/
theorem fill_append (amount : Nat) (first second : List (Lot Tag)) :
    fill amount (first ++ second) = fill amount first ++ fill (amount - total first) second := by
  induction first generalizing amount with
  | nil => rfl
  | cons lot later ih =>
    by_cases short : amount < lot.size
    · have nothing : amount - total (lot :: later) = 0 := by
        rw [total_cons]
        omega
      rw [List.cons_append, fill_short short, fill_short short, nothing, fill_zero, List.cons_append]
    · have whole := Nat.not_lt.mp short
      rw [List.cons_append, fill_whole whole, fill_whole whole, ih, total_cons, Nat.sub_sub]

theorem spent_append (amount : Nat) (first second : List (Lot Tag)) :
    spent amount (first ++ second) =
      spent amount first ++ spent (amount - total first) second := by
  induction first generalizing amount with
  | nil => rfl
  | cons lot later ih =>
    by_cases short : amount < lot.size
    · have nothing : amount - total (lot :: later) = 0 := by
        rw [total_cons]
        omega
      rw [List.cons_append, spent_short short, spent_short short, nothing, spent_zero]
      rfl
    · have whole := Nat.not_lt.mp short
      rw [List.cons_append, spent_whole whole, spent_whole whole, ih, total_cons, Nat.sub_sub]
      rfl

/-- **The lots that are gone are the first ones.** -/
theorem tags_eq (amount : Nat) (lots : List (Lot Tag)) :
    tags lots = spent amount lots ++ tags (fill amount lots) := by
  induction lots generalizing amount with
  | nil => rfl
  | cons lot later ih =>
    by_cases short : amount < lot.size
    · rw [fill_short short, spent_short short]
      rfl
    · have whole := Nat.not_lt.mp short
      rw [fill_whole whole, spent_whole whole, tags_cons, ih (amount - lot.size)]
      rfl

theorem spent_all (enough : total lots ≤ amount) : spent amount lots = tags lots := by
  rw [tags_eq amount lots, fill_eq_nil.mpr enough, tags_nil, List.append_nil]

/-- **Serving in two parts is serving the sum.** -/
theorem fill_fill (amount more : Nat) (lots : List (Lot Tag)) :
    fill more (fill amount lots) = fill (amount + more) lots := by
  induction lots generalizing amount with
  | nil => rfl
  | cons lot later ih =>
    by_cases short : amount < lot.size
    · let left : Lot Tag := ⟨lot.tag, lot.size - amount, Nat.sub_pos_of_lt short⟩
      have size : left.size = lot.size - amount := rfl
      rw [fill_short short]
      by_cases rest : more < left.size
      · rw [fill_short rest, fill_short (by omega)]
        exact congrArg (· :: later) (Lot.ext rfl (Nat.sub_sub ..))
      · rw [fill_whole (Nat.not_lt.mp rest), fill_whole (by omega)]
        exact congrArg (fill · later) (by omega)
    · have whole := Nat.not_lt.mp short
      rw [fill_whole whole, ih, fill_whole (Nat.le_add_right_of_le whole)]
      exact congrArg (fill · later) (by omega)

theorem spent_add (amount more : Nat) (lots : List (Lot Tag)) :
    spent (amount + more) lots = spent amount lots ++ spent more (fill amount lots) := by
  induction lots generalizing amount with
  | nil => rfl
  | cons lot later ih =>
    by_cases short : amount < lot.size
    · let left : Lot Tag := ⟨lot.tag, lot.size - amount, Nat.sub_pos_of_lt short⟩
      have size : left.size = lot.size - amount := rfl
      rw [fill_short short, spent_short short, List.nil_append]
      by_cases rest : more < left.size
      · rw [spent_short rest, spent_short (by omega)]
      · rw [spent_whole (Nat.not_lt.mp rest), spent_whole (by omega)]
        exact congrArg (lot.tag :: spent · later) (by omega)
    · have whole := Nat.not_lt.mp short
      have left : amount + more - lot.size = amount - lot.size + more := by omega
      rw [fill_whole whole, spent_whole whole, spent_whole (Nat.le_add_right_of_le whole), left, ih,
        List.cons_append]

theorem fill_min (amount : Nat) (lots : List (Lot Tag)) :
    fill (min amount (total lots)) lots = fill amount lots := by
  rcases Nat.le_total amount (total lots) with less | enough
  · rw [Nat.min_eq_left less]
  · rw [Nat.min_eq_right enough, fill_eq_nil.mpr (Nat.le_refl _), fill_eq_nil.mpr enough]

theorem spent_min (amount : Nat) (lots : List (Lot Tag)) :
    spent (min amount (total lots)) lots = spent amount lots := by
  rcases Nat.le_total amount (total lots) with less | enough
  · rw [Nat.min_eq_left less]
  · rw [Nat.min_eq_right enough, spent_all (Nat.le_refl _), spent_all enough]

/-- **A line splits where serving it stops**: at most one lot is served in part. -/
theorem fill_split (amount : Nat) (lots : List (Lot Tag)) :
    ∃ done part left rest, lots = done ++ part ++ rest ∧ spent amount lots = tags done ∧
      fill amount lots = left ++ rest ∧ part.length ≤ 1 ∧
      ∀ was ∈ part, ∃ now ∈ left, now.tag = was.tag ∧ now.size < was.size := by
  induction lots generalizing amount with
  | nil =>
    exact ⟨[], [], [], [], rfl, rfl, rfl, Nat.zero_le _,
      fun _ member => absurd member List.not_mem_nil⟩
  | cons lot later ih =>
    rcases Nat.eq_zero_or_pos amount with rfl | positive
    · exact ⟨[], [], [], lot :: later, rfl, spent_zero _, fill_zero _, Nat.zero_le _,
        fun _ member => absurd member List.not_mem_nil⟩
    · by_cases short : amount < lot.size
      · refine ⟨[], [lot], [_], later, rfl, spent_short short, fill_short short, Nat.le_refl _,
          fun was member => ⟨_, List.mem_cons_self, ?_⟩⟩
        rw [List.mem_singleton.mp member]
        exact ⟨rfl, Nat.sub_lt lot.positive positive⟩
      · have whole := Nat.not_lt.mp short
        obtain ⟨done, part, left, rest, split, gone, remains, few, served⟩ := ih (amount - lot.size)
        refine ⟨lot :: done, part, left, rest, by rw [split]; rfl, ?_, ?_, few, served⟩
        · rw [spent_whole whole, gone, tags_cons]
        · rw [fill_whole whole, remains]

/-- What is left of a line is served at its head only. -/
theorem head_of_mem_fill (member : lot ∈ fill amount lots) :
    (fill amount lots).head? = some lot ∨ lot ∈ lots := by
  induction lots generalizing amount with
  | nil => exact absurd member List.not_mem_nil
  | cons head later ih =>
    by_cases short : amount < head.size
    · rw [fill_short short] at member ⊢
      rcases List.mem_cons.mp member with rfl | behind
      · exact .inl rfl
      · exact .inr (List.mem_cons_of_mem _ behind)
    · rw [fill_whole (Nat.not_lt.mp short)] at member ⊢
      exact (ih member).imp_right (List.mem_cons_of_mem _)

/-- A lot that is left was there before, with at least its quantity. -/
theorem mem_fill (member : lot ∈ fill amount lots) :
    ∃ earlier ∈ lots, earlier.tag = lot.tag ∧ lot.size ≤ earlier.size := by
  induction lots generalizing amount with
  | nil => exact absurd member List.not_mem_nil
  | cons head later ih =>
    by_cases short : amount < head.size
    · rw [fill_short short] at member
      rcases List.mem_cons.mp member with rfl | behind
      · exact ⟨head, List.mem_cons_self, rfl, Nat.sub_le _ _⟩
      · exact ⟨lot, List.mem_cons_of_mem _ behind, rfl, Nat.le_refl _⟩
    · rw [fill_whole (Nat.not_lt.mp short)] at member
      obtain ⟨earlier, found, same⟩ := ih member
      exact ⟨earlier, List.mem_cons_of_mem _ found, same⟩

/-- **A lot is touched only after every lot before it is gone.** -/
theorem fill_of_touched
    (touched : fill amount (first ++ lot :: later) ≠ fill amount first ++ lot :: later) :
    fill amount first = [] := by
  refine fill_eq_nil.mpr (Nat.le_of_not_lt fun early => touched ?_)
  rw [fill_append, Nat.sub_eq_zero_of_le (Nat.le_of_lt early), fill_zero]

end Serving

/-! ### Tags -/

section Tags

variable {label : Tag → Other} {gone : Tag → Bool}

@[simp] theorem total_relabel (lots : List (Lot Tag)) :
    total (lots.map (Lot.relabel label)) = total lots := by
  rw [total, List.map_map]
  rfl

/-- **Serving does not look at the tags.** -/
theorem fill_relabel (amount : Nat) (lots : List (Lot Tag)) :
    fill amount (lots.map (Lot.relabel label)) = (fill amount lots).map (Lot.relabel label) := by
  induction lots generalizing amount with
  | nil => rfl
  | cons lot later ih =>
    rw [List.map_cons, fill, fill]
    simp only [Lot.relabel, ih]
    split <;> rfl

theorem spent_relabel (amount : Nat) (lots : List (Lot Tag)) :
    spent amount (lots.map (Lot.relabel label)) = (spent amount lots).map label := by
  induction lots generalizing amount with
  | nil => rfl
  | cons lot later ih =>
    rw [List.map_cons, spent, spent]
    simp only [Lot.relabel, ih]
    split <;> rfl

@[simp] theorem tags_keep (lots : List (Lot Tag)) :
    tags (keep gone lots) = (tags lots).filter fun tag => !gone tag := by
  rw [tags, tags, keep, List.filter_map]
  rfl

theorem keep_append (first second : List (Lot Tag)) :
    keep gone (first ++ second) = keep gone first ++ keep gone second := List.filter_append ..

theorem keep_eq_self {lots : List (Lot Tag)} (staying : ∀ lot ∈ lots, gone lot.tag = false) :
    keep gone lots = lots :=
  List.filter_eq_self.mpr fun lot member => by rw [staying lot member]; rfl

end Tags

/-! ### Quantities -/

section Quantities

variable {mine gone : Tag → Bool} {amount : Nat} {lot : Lot Tag} {lots later : List (Lot Tag)}

@[simp] theorem quantity_append (first second : List (Lot Tag)) :
    quantity mine (first ++ second) = quantity mine first + quantity mine second := by
  rw [quantity, List.filter_append, total_append]
  rfl

theorem quantity_cons (lot : Lot Tag) (later : List (Lot Tag)) :
    quantity mine (lot :: later) =
      (if mine lot.tag = true then lot.size else 0) + quantity mine later := by
  rw [quantity, List.filter_cons]
  split
  · exact total_cons ..
  · exact (Nat.zero_add _).symm

theorem quantity_perm {lots lots' : List (Lot Tag)} (perm : lots.Perm lots') :
    quantity mine lots = quantity mine lots' :=
  ((perm.filter _).map _).sum_eq

theorem quantity_eq_zero (absent : ∀ lot ∈ lots, mine lot.tag = false) : quantity mine lots = 0 := by
  have empty : lots.filter (fun lot => mine lot.tag) = [] :=
    List.filter_eq_nil_iff.mpr fun lot member => Bool.eq_false_iff.mp (absent lot member)
  rw [quantity, empty, total_nil]

theorem quantity_pos (member : lot ∈ lots) (own : mine lot.tag = true) : 0 < quantity mine lots :=
  total_pos (List.ne_nil_of_mem (List.mem_filter.mpr ⟨member, own⟩))

/-- The quantity under a tag that only one lot has. -/
theorem quantity_eq_size (nodup : lots.Nodup) (member : lot ∈ lots) (own : mine lot.tag = true)
    (only : ∀ other ∈ lots, mine other.tag = true → other = lot) : quantity mine lots = lot.size := by
  obtain ⟨front, later, rfl⟩ := List.append_of_mem member
  rw [List.nodup_middle, List.nodup_cons, List.mem_append, not_or] at nodup
  obtain ⟨⟨ahead, behind⟩, -⟩ := nodup
  rw [quantity_append, quantity_cons, if_pos own, quantity_eq_zero, quantity_eq_zero, Nat.zero_add,
    Nat.add_zero]
  · refine fun other inside => Bool.eq_false_iff.mpr fun there => behind ?_
    rwa [← only other (List.mem_append_right _ (List.mem_cons_of_mem _ inside)) there]
  · refine fun other inside => Bool.eq_false_iff.mpr fun there => ahead ?_
    rwa [← only other (List.mem_append_left _ inside) there]

theorem quantity_all (lots : List (Lot Tag)) : quantity (fun _ => true) lots = total lots := by
  rw [quantity, List.filter_true]

theorem keep_eq_self_of_quantity (nothing : quantity gone lots = 0) : keep gone lots = lots :=
  keep_eq_self fun _ member => Bool.eq_false_iff.mpr fun there =>
    absurd nothing (Nat.ne_of_gt (quantity_pos member there))

theorem quantity_relabel (label : Other → Tag) (lots : List (Lot Other)) :
    quantity mine (lots.map (Lot.relabel label)) = quantity (mine ∘ label) lots := by
  rw [quantity, List.filter_map, total_relabel]
  rfl

theorem keep_cons_of_gone (there : gone lot.tag = true) :
    keep gone (lot :: later) = keep gone later :=
  List.filter_cons_of_neg (by rw [there]; exact Bool.false_ne_true)

theorem keep_cons_of_not (elsewhere : gone lot.tag = false) :
    keep gone (lot :: later) = lot :: keep gone later :=
  List.filter_cons_of_pos (by rw [elsewhere]; rfl)

/-- What is kept and what is not make up the whole. -/
theorem quantity_add_total_keep (gone : Tag → Bool) (lots : List (Lot Tag)) :
    quantity gone lots + total (keep gone lots) = total lots := by
  induction lots with
  | nil => rfl
  | cons lot later ih =>
    rw [quantity_cons, total_cons, ← ih]
    cases there : gone lot.tag with
    | true =>
      rw [keep_cons_of_gone there, if_pos rfl]
      omega
    | false =>
      rw [keep_cons_of_not there, if_neg Bool.false_ne_true, total_cons]
      omega

/-- **Serving adds to no lot.** -/
theorem quantity_fill_le (mine : Tag → Bool) (amount : Nat) (lots : List (Lot Tag)) :
    quantity mine (fill amount lots) ≤ quantity mine lots := by
  induction lots generalizing amount with
  | nil => exact Nat.le_refl _
  | cons lot later ih =>
    by_cases short : amount < lot.size
    · rw [fill_short short, quantity_cons, quantity_cons]
      simp only
      split <;> omega
    · rw [fill_whole (Nat.not_lt.mp short), quantity_cons]
      exact Nat.le_add_left_of_le (ih _)

/-- **Lots that serving does not reach are not missed**: what remains is the same with and without
them, and without them there is still enough. -/
theorem fill_keep (untouched : quantity gone (fill amount lots) = quantity gone lots) :
    keep gone (fill amount lots) = fill amount (keep gone lots) ∧
      (quantity gone lots = 0 ∨ amount ≤ total (keep gone lots)) := by
  induction lots generalizing amount with
  | nil => exact ⟨rfl, .inl rfl⟩
  | cons lot later ih =>
    have positive := lot.positive
    rw [quantity_cons] at untouched
    cases there : gone lot.tag with
    | true =>
      -- the head is untouched, so nothing was served
      have zero : amount = 0 := by
        rw [there, if_pos rfl] at untouched
        by_cases short : amount < lot.size
        · rw [fill_short short, quantity_cons] at untouched
          simp only [there, if_true] at untouched
          omega
        · rw [fill_whole (Nat.not_lt.mp short)] at untouched
          have less := quantity_fill_le gone (amount - lot.size) later
          omega
      subst zero
      exact ⟨by rw [fill_zero, fill_zero], .inr (Nat.zero_le _)⟩
    | false =>
      rw [there, if_neg Bool.false_ne_true, Nat.zero_add] at untouched
      rw [keep_cons_of_not there, total_cons, quantity_cons, there,
        if_neg Bool.false_ne_true, Nat.zero_add]
      by_cases short : amount < lot.size
      · rw [fill_short short, fill_short short]
        refine ⟨keep_cons_of_not there, .inr ?_⟩
        exact Nat.le_add_right_of_le (Nat.le_of_lt short)
      · have whole := Nat.not_lt.mp short
        rw [fill_whole whole] at untouched ⊢
        rw [fill_whole whole]
        obtain ⟨same, enough⟩ := ih untouched
        exact ⟨same, enough.imp_right fun enough => by omega⟩

/-- Lots that serving does not reach are not used up. -/
theorem spent_untouched (untouched : quantity gone (fill amount lots) = quantity gone lots) :
    ∀ tag ∈ spent amount lots, gone tag = false := by
  induction lots generalizing amount with
  | nil => exact fun _ member => absurd member List.not_mem_nil
  | cons lot later ih =>
    by_cases short : amount < lot.size
    · rw [spent_short short]
      exact fun _ member => absurd member List.not_mem_nil
    · have whole := Nat.not_lt.mp short
      rw [fill_whole whole, quantity_cons] at untouched
      have less := quantity_fill_le gone (amount - lot.size) later
      have positive := lot.positive
      have other : gone lot.tag = false := by
        refine Bool.eq_false_iff.mpr fun there => ?_
        rw [if_pos there] at untouched
        omega
      rw [other, if_neg Bool.false_ne_true, Nat.zero_add] at untouched
      rw [spent_whole whole]
      intro tag member
      rcases List.mem_cons.mp member with rfl | behind
      · exact other
      · exact ih untouched tag behind

/-- **If every lot has its key among `keys`, the quantities of the keys make up the whole.** -/
theorem sum_quantity [DecidableEq Other] {key : Tag → Other} {keys : List Other}
    (nodup : keys.Nodup) (covered : ∀ lot ∈ lots, key lot.tag ∈ keys) :
    (keys.map fun k => quantity (fun tag => key tag = k) lots).sum = total lots := by
  induction lots with
  | nil => exact List.sum_map_zero
  | cons lot later ih =>
    have head : (keys.map fun k =>
        if decide (key lot.tag = k) = true then lot.size else 0).sum = lot.size := by
      rw [List.sum_map_eq_nsmul_single (key lot.tag),
        List.count_eq_one_of_mem nodup (covered lot List.mem_cons_self), one_nsmul,
        if_pos (decide_eq_true rfl)]
      exact fun k other _ => if_neg fun same => other (of_decide_eq_true same).symm
    simp only [quantity_cons, List.sum_map_add, head, total_cons]
    rw [ih fun lot member => covered lot (List.mem_cons_of_mem _ member)]

/-- Nothing is left of the lots that are not kept. -/
theorem quantity_keep_self (lots : List (Lot Tag)) : quantity gone (keep gone lots) = 0 :=
  quantity_eq_zero fun lot member => by
    cases there : gone lot.tag with
    | false => rfl
    | true =>
      have kept := (List.mem_filter.mp member).2
      rw [there] at kept
      exact kept.symm

/-- The other lots are all kept. -/
theorem quantity_keep (apart : ∀ tag, mine tag = true → gone tag = false) (lots : List (Lot Tag)) :
    quantity mine (keep gone lots) = quantity mine lots := by
  rw [quantity, keep, List.filter_filter, quantity]
  refine congrArg total (List.filter_congr fun lot _ => ?_)
  cases own : mine lot.tag with
  | true => rw [apart lot.tag own]; rfl
  | false => rfl

end Quantities

end Lots

end TradingExchange
