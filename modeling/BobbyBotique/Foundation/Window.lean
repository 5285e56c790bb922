import Mathlib.Algebra.Order.Group.Defs
import Mathlib.Data.List.Nodup
import Mathlib.Data.List.Perm.Subperm

/-!
# Sliding windows

Dated uses of named slots, newest first.  A budget of uses holds in every
window of one span when, at each use, the uses of the last span have pairwise
distinct names among a bounded number of live slots.
-/

namespace BobbyBotique

namespace Window

variable {Token Time : Type} [LinearOrder Time]

/-- Every use names a slot of its own and lies in the past. -/
structure Dated (now : Time) (spent : List (Token × Time)) : Prop where
  apart : (spent.map Prod.fst).Nodup
  past : ∀ use ∈ spent, use.2 ≤ now

theorem dated_nil (now : Time) : Dated now ([] : List (Token × Time)) :=
  ⟨List.nodup_nil, fun _ member => absurd member List.not_mem_nil⟩

theorem Dated.later {now later : Time} {spent : List (Token × Time)} (dated : Dated now spent)
    (le : now ≤ later) : Dated later spent :=
  ⟨dated.apart, fun use member => (dated.past use member).trans le⟩

theorem Dated.spend {now : Time} {spent : List (Token × Time)} {token : Token}
    (dated : Dated now spent) (fresh : token ∉ spent.map Prod.fst) :
    Dated now ((token, now) :: spent) := by
  constructor
  · exact List.nodup_cons.mpr ⟨fresh, dated.apart⟩
  · intro use member
    rcases List.mem_cons.mp member with rfl | earlier
    · exact le_rfl
    · exact dated.past use earlier

variable [AddCommGroup Time]

/-- The uses in the window of the given span from `start` on. -/
def count (span start : Time) (spent : List (Token × Time)) : Nat :=
  (spent.filter fun use => decide (start ≤ use.2) && decide (use.2 < start + span)).length

/-- No window holds more uses than the limit. -/
def Bounded (span : Time) (limit : Nat) (spent : List (Token × Time)) : Prop :=
  ∀ start, count span start spent ≤ limit

theorem bounded_nil (span : Time) (limit : Nat) :
    Bounded span limit ([] : List (Token × Time)) :=
  fun _ => Nat.zero_le limit

variable [IsOrderedAddMonoid Time]

/-- Uses whose slots are live are at most the live slots. -/
theorem count_le_live {span start now : Time} {spent : List (Token × Time)} {live : List Token}
    (dated : Dated now spent) (current : now < start + span)
    (covered : ∀ use ∈ spent, now < use.2 + span → use.1 ∈ live) :
    count span start spent ≤ live.length := by
  have names : ((spent.filter fun use =>
      decide (start ≤ use.2) && decide (use.2 < start + span)).map Prod.fst).Nodup :=
    dated.apart.sublist (List.filter_sublist.map Prod.fst)
  have contained : (spent.filter fun use =>
      decide (start ≤ use.2) && decide (use.2 < start + span)).map Prod.fst ⊆ live := by
    intro token member
    obtain ⟨use, counted, rfl⟩ := List.mem_map.mp member
    obtain ⟨listed, inside⟩ := List.mem_filter.mp counted
    have begun : start ≤ use.2 := of_decide_eq_true (Bool.and_eq_true_iff.mp inside).1
    exact covered use listed (current.trans_le (add_le_add_left begun span))
  have le := (List.subperm_of_subset names contained).length_le
  rwa [List.length_map] at le

/-- A use keeps every window within the limit when the slots of the last span
are live and the live slots are within the limit. -/
theorem Bounded.spend {span now : Time} {limit : Nat} {spent : List (Token × Time)}
    {live : List Token} {token : Token} (bounded : Bounded span limit spent)
    (dated : Dated now ((token, now) :: spent))
    (covered : ∀ use ∈ (token, now) :: spent, now < use.2 + span → use.1 ∈ live)
    (room : live.length ≤ limit) : Bounded span limit ((token, now) :: spent) := by
  intro start
  by_cases current : now < start + span
  · exact (count_le_live dated current covered).trans room
  · have outside : count span start ((token, now) :: spent) = count span start spent := by
      rw [count, List.filter_cons_of_neg, count]
      simp only [Bool.and_eq_true, decide_eq_true_eq, not_and]
      exact fun _ => current
    rw [outside]
    exact bounded start

end Window

end BobbyBotique
