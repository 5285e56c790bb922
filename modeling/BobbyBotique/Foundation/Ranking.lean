import Mathlib.Order.Basic
import Mathlib.Data.List.Nodup
import Mathlib.Order.Lattice

/-!
# Stable ranking

A stable sort by a key, read as an order of the places of a list: keys go down, and
places of the same key go up.
-/

namespace BobbyBotique

variable {Item Key : Type} [LinearOrder Key]

/-- Items with the higher key come first. -/
def ranksBefore (key : Item → Key) (first second : Item) : Bool := decide (key second ≤ key first)

/-- The place `first` stands before `second` in a ranking of the items. -/
def Outranks (key : Item → Key) (items : List Item) (first second : Nat) : Prop :=
  ∃ a ∈ items[first]?, ∃ b ∈ items[second]?, key b < key a ∨ key a = key b ∧ first < second

theorem mergeSort_ranks (key : Item → Key) (items : List Item) :
    ∃ order : List Nat, order.Perm (List.range items.length) ∧ order.Pairwise (Outranks key items) ∧
      items.mergeSort (ranksBefore key) = order.filterMap fun place => items[place]? := by
  have trans : ∀ a b c, ranksBefore key a b = true → ranksBefore key b c = true →
      ranksBefore key a c = true := by
    intro a b c first second
    exact decide_eq_true ((of_decide_eq_true second).trans (of_decide_eq_true first))
  have total : ∀ a b, (ranksBefore key a b || ranksBefore key b a) = true := by
    intro a b
    rcases le_total (key b) (key a) with le | le
    · simp [ranksBefore, le]
    · simp [ranksBefore, le]
  have perm := List.mergeSort_perm items.zipIdx (List.zipIdxLE (ranksBefore key))
  have places : ∀ pair ∈ items.zipIdx.mergeSort (List.zipIdxLE (ranksBefore key)),
      items[pair.2]? = some pair.1 := by
    intro pair member
    exact List.mk_mem_zipIdx_iff_getElem?.mp (perm.mem_iff.mp member)
  have order : ((items.zipIdx.mergeSort (List.zipIdxLE (ranksBefore key))).map Prod.snd).Perm
      (List.range items.length) := by
    have mapped := perm.map Prod.snd
    rwa [List.zipIdx_map_snd, ← List.range_eq_range'] at mapped
  refine ⟨_, order, ?_, ?_⟩
  · have sorted := List.pairwise_mergeSort (List.zipIdxLE_trans trans)
      (List.zipIdxLE_total total) items.zipIdx
    have distinct : (items.zipIdx.mergeSort (List.zipIdxLE (ranksBefore key))).Pairwise
        fun first second => first.2 ≠ second.2 :=
      List.pairwise_map.mp (order.nodup_iff.mpr List.nodup_range)
    refine List.pairwise_map.mpr ((sorted.and distinct).imp_of_mem ?_)
    rintro ⟨a, i⟩ ⟨b, j⟩ first second ⟨before, apart⟩
    refine ⟨a, places _ first, b, places _ second, ?_⟩
    simp only [List.zipIdxLE, ranksBefore, decide_eq_true_eq] at before
    split at before
    · next le =>
      split at before
      · next ge =>
        exact .inr ⟨le_antisymm ge le, Nat.lt_of_le_of_ne (of_decide_eq_true before) apart⟩
      · next lt => exact .inl (lt_of_not_ge lt)
    · cases before
  · rw [← List.mergeSort_zipIdx, List.filterMap_map]
    symm
    refine List.filterMap_eq_map_iff_forall_eq_some.mpr ?_
    exact places

end BobbyBotique
