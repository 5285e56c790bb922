import Mathlib.Data.List.Sort

/-!
# Listings by offset

A listing is read page by page; the cursor of the next page is an offset into a
sequence of entries that may be another one at every page.  A key is returned
once when no change of the sequence moves it across the cursor.
-/

namespace BobbyBotique

/-- One page: the sequence its cursor counts, and the keys it returns. -/
structure Page (K : Type) where
  entries : List K
  cursor : Nat
  items : List K
  next : Option Nat

namespace Page

variable {K : Type} [DecidableEq K] {key : K}

def position (page : Page K) (key : K) : Nat := page.entries.idxOf key

/-- The page returns the key exactly if it stands between the cursor and the
offset where the page stops, which is the next cursor or past the end. -/
def Covers (page : Page K) (key : K) : Prop :=
  ∃ stop, page.cursor ≤ stop ∧
    (page.next = some stop ∨ page.next = none ∧ page.entries.length ≤ stop) ∧
    page.items.count key =
      if page.cursor ≤ page.position key ∧ page.position key < stop then 1 else 0

/-- The pages of a listing that is read to its end. -/
inductive Follows : Nat → List (Page K) → Prop where
  | last {page : Page K} (end_ : page.next = none) : Follows page.cursor [page]
  | more {page : Page K} {rest : List (Page K)} {cursor : Nat} (next : page.next = some cursor)
      (follows : Follows cursor rest) : Follows page.cursor (page :: rest)

/-- From one page to the next the key does not cross the cursor. -/
def Steady (key : K) : List (Page K) → Prop
  | first :: second :: rest =>
    (first.position key < second.cursor ↔ second.position key < second.cursor) ∧
      Steady key (second :: rest)
  | _ => True

instance decidableSteady (key : K) : (pages : List (Page K)) → Decidable (Steady key pages)
  | [] => .isTrue trivial
  | [_] => .isTrue trivial
  | first :: second :: rest =>
    have := decidableSteady key (second :: rest)
    inferInstanceAs (Decidable
      ((first.position key < second.cursor ↔ second.position key < second.cursor) ∧
        Steady key (second :: rest)))

theorem Follows.count {cursor : Nat} {pages : List (Page K)} (follows : Follows cursor pages)
    (covers : ∀ page ∈ pages, page.Covers key) (listed : ∀ page ∈ pages, key ∈ page.entries)
    (steady : Steady key pages) :
    ∃ first rest, pages = first :: rest ∧ first.cursor = cursor ∧
      (pages.flatMap Page.items).count key =
        if first.position key < cursor then 0 else 1 := by
  induction follows with
  | @last page end_ =>
    refine ⟨page, [], rfl, rfl, ?_⟩
    obtain ⟨stop, _, stops, counted⟩ := covers page List.mem_cons_self
    have within : page.position key < page.entries.length :=
      List.idxOf_lt_length_of_mem (listed page List.mem_cons_self)
    have past : page.entries.length ≤ stop := by
      rcases stops with next | ⟨_, past⟩
      · cases end_.symm.trans next
      · exact past
    simp only [List.flatMap_cons, List.flatMap_nil, List.append_nil, counted]
    split_ifs <;> omega
  | @more page rest next found follows ih =>
    obtain ⟨stop, ahead, stops, counted⟩ := covers page List.mem_cons_self
    have same : stop = next := by
      rcases stops with next | ⟨none, _⟩
      · exact Option.some_injective _ (next.symm.trans found)
      · cases none.symm.trans found
    cases same
    cases rest with
    | nil => cases follows
    | cons second others =>
      obtain ⟨first, tail, shape, start, remaining⟩ := ih
        (fun page member => covers page (List.mem_cons_of_mem _ member))
        (fun page member => listed page (List.mem_cons_of_mem _ member)) steady.2
      cases shape
      have kept := steady.1
      rw [start] at kept
      refine ⟨page, _, rfl, rfl, ?_⟩
      rw [List.flatMap_cons, List.count_append, counted, remaining]
      split_ifs <;> omega

end Page

/-- How often a key is among the first entries of a list without repetitions. -/
theorem count_take {K : Type} [DecidableEq K] {key : K} {list : List K} (apart : list.Nodup)
    (member : key ∈ list) (limit : Nat) :
    (list.take limit).count key = if list.idxOf key < limit then 1 else 0 := by
  induction list generalizing limit with
  | nil => cases member
  | cons first rest ih =>
    obtain ⟨fresh, apart⟩ := List.nodup_cons.mp apart
    cases limit with
    | zero => rfl
    | succ limit =>
      rw [List.take_succ_cons, List.count_cons]
      by_cases same : first = key
      · subst same
        have none : (rest.take limit).count first = 0 :=
          List.count_eq_zero_of_not_mem fun found => fresh (List.mem_of_mem_take found)
        simp [none]
      · have later : key ∈ rest := (List.mem_cons.mp member).resolve_left fun other =>
          same other.symm
        have tail := ih apart later limit
        rw [List.idxOf_cons_ne _ same, tail]
        simp [same]

/-- How often a key is in a window of a list without repetitions. -/
theorem count_window {K : Type} [DecidableEq K] {key : K} {list : List K} (apart : list.Nodup)
    (member : key ∈ list) (start limit : Nat) :
    ((list.drop start).take limit).count key =
      if start ≤ list.idxOf key ∧ list.idxOf key < start + limit then 1 else 0 := by
  have whole := count_take apart member (start + limit)
  have before := count_take apart member start
  have split := List.take_append_drop start (list.take (start + limit))
  have parts := congrArg (List.count key) split
  rw [List.count_append, List.take_take, Nat.min_eq_left (Nat.le_add_right start limit), before,
    whole, List.drop_take, Nat.add_sub_cancel_left] at parts
  split_ifs at parts ⊢ <;> omega

end BobbyBotique
