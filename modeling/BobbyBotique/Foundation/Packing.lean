import Mathlib.Data.List.Chain
import Mathlib.Algebra.GroupWithZero.Nat

/-!
# Greedy packing

Items are packed in their order into groups of bounded size, and a group is closed
only by an item that does not fit into it.  A list can be packed so in one way, and a
packer that closes a group as soon as it is full does it.
-/

namespace BobbyBotique

variable {Item : Type}

structure Packed (size : Item → Nat) (limit : Nat) (groups : List (List Item)) : Prop where
  full : ∀ group ∈ groups, group ≠ []
  fits : ∀ group ∈ groups, (group.map size).sum ≤ limit
  /-- The first item of a group does not fit into the group before. -/
  greedy : groups.IsChain fun group next =>
    ∀ first ∈ next.head?, limit < (group.map size).sum + size first

namespace Packed

variable {size : Item → Nat} {limit : Nat} {groups : List (List Item)}

theorem nil : Packed size limit [] := ⟨nofun, nofun, .nil⟩

theorem tail {group : List Item} (packed : Packed size limit (group :: groups)) :
    Packed size limit groups :=
  ⟨(List.forall_mem_cons.mp packed.full).2, (List.forall_mem_cons.mp packed.fits).2,
    packed.greedy.tail⟩

theorem append_one {group : List Item} (packed : Packed size limit groups) (full : group ≠ [])
    (fits : (group.map size).sum ≤ limit)
    (greedy : ∀ last ∈ groups.getLast?, ∀ first ∈ group.head?,
      limit < (last.map size).sum + size first) :
    Packed size limit (groups ++ [group]) := by
  refine ⟨?_, ?_, ?_⟩
  · exact List.forall_mem_append.mpr ⟨packed.full, List.forall_mem_singleton.mpr full⟩
  · exact List.forall_mem_append.mpr ⟨packed.fits, List.forall_mem_singleton.mpr fits⟩
  · refine List.isChain_append.mpr ⟨packed.greedy, List.isChain_singleton _, ?_⟩
    intro last member next among
    cases among
    exact greedy last member

/-- A group does not reach beyond where the other packing closes its first group. -/
theorem first_le {first second : List Item} {later more : List (List Item)}
    (packed : Packed size limit (first :: later)) (packed' : Packed size limit (second :: more))
    (same : (first :: later).flatten = (second :: more).flatten) :
    second.length ≤ first.length := by
  by_contra longer
  rw [List.flatten_cons, List.flatten_cons] at same
  obtain ⟨item, rest, split⟩ : ∃ item rest, second = first ++ item :: rest := by
    have cut := (List.prefix_of_prefix_length_le ⟨later.flatten, same⟩
      (List.prefix_append second more.flatten) (by omega))
    obtain ⟨behind, whole⟩ := cut
    cases behind with
    | nil =>
      rw [← whole, List.append_nil] at longer
      exact absurd (le_refl _) longer
    | cons item rest => exact ⟨item, rest, whole.symm⟩
  rw [split, List.append_assoc] at same
  have next := List.append_cancel_left same
  cases later with
  | nil => cases next
  | cons group others =>
    have some := packed.full group (List.mem_cons_of_mem _ List.mem_cons_self)
    cases group with
    | nil => exact absurd rfl some
    | cons head behind =>
      rw [List.flatten_cons, List.cons_append] at next
      have closed := (List.isChain_cons_cons.mp packed.greedy).1 head rfl
      have fits := packed'.fits second List.mem_cons_self
      rw [split, ← (List.cons.inj next).1, List.map_append, List.sum_append, List.map_cons,
        List.sum_cons] at fits
      omega

theorem unique {groups' : List (List Item)} (packed : Packed size limit groups)
    (packed' : Packed size limit groups') (same : groups.flatten = groups'.flatten) :
    groups = groups' := by
  induction groups generalizing groups' with
  | nil =>
    cases groups' with
    | nil => rfl
    | cons group others =>
      have some := packed'.full group List.mem_cons_self
      cases group with
      | nil => exact absurd rfl some
      | cons head behind => cases same
  | cons group others ih =>
    cases groups' with
    | nil =>
      have some := packed.full group List.mem_cons_self
      cases group with
      | nil => exact absurd rfl some
      | cons head behind => cases same
    | cons group' others' =>
      have length := Nat.le_antisymm (packed'.first_le packed same.symm)
        (packed.first_le packed' same)
      rw [List.flatten_cons, List.flatten_cons] at same
      obtain ⟨rfl, rest⟩ := List.append_inj same length
      rw [ih packed.tail packed'.tail rest]

end Packed

/-! ## The packer -/

/-- The closed groups, and the one that is being filled. -/
structure Packer (Item : Type) where
  done : List (List Item)
  filling : List Item

namespace Packer

variable {size : Item → Nat} {limit : Nat} {packer : Packer Item}

def empty : Packer Item := ⟨[], []⟩

def weight (size : Item → Nat) (packer : Packer Item) : Nat := (packer.filling.map size).sum

def groups (packer : Packer Item) : List (List Item) :=
  if packer.filling = [] then packer.done else packer.done ++ [packer.filling]

/-- The item does not fit into the group that is being filled. -/
def Overflows (size : Item → Nat) (limit : Nat) (packer : Packer Item) (item : Item) : Prop :=
  packer.filling ≠ [] ∧ limit < packer.weight size + size item

instance (packer : Packer Item) (item : Item) :
    Decidable (packer.Overflows size limit item) := inferInstanceAs (Decidable (_ ∧ _))

/-- What no longer takes an item is closed before it comes. -/
def close (packer : Packer Item) : Packer Item := ⟨packer.done ++ [packer.filling], []⟩

/-- An item that fills its group closes it. -/
def fill (size : Item → Nat) (limit : Nat) (packer : Packer Item) (item : Item) : Packer Item :=
  if limit ≤ packer.weight size + size item then ⟨packer.done ++ [packer.filling ++ [item]], []⟩
  else ⟨packer.done, packer.filling ++ [item]⟩

def push (size : Item → Nat) (limit : Nat) (packer : Packer Item) (item : Item) : Packer Item :=
  fill size limit (if packer.Overflows size limit item then packer.close else packer) item

theorem fill_groups (item : Item) :
    (packer.fill size limit item).groups = packer.done ++ [packer.filling ++ [item]] := by
  unfold fill groups
  split
  · rfl
  · exact if_neg (List.append_ne_nil_of_right_ne_nil _ (List.cons_ne_nil item []))

theorem push_groups (item : Item) :
    (packer.push size limit item).groups =
      if packer.filling = [] ∨ packer.Overflows size limit item then packer.groups ++ [[item]]
      else packer.done ++ [packer.filling ++ [item]] := by
  rw [push, fill_groups]
  by_cases empty : packer.filling = []
  · have fits : ¬packer.Overflows size limit item := fun overflows => overflows.1 empty
    rw [if_neg fits, if_pos (.inl empty), empty, groups, if_pos empty]
    rfl
  · by_cases overflows : packer.Overflows size limit item
    · rw [if_pos overflows, if_pos (.inr overflows), groups, if_neg empty]
      rfl
    · rw [if_neg overflows, if_neg (by simp [empty, overflows])]

theorem groups_flatten (packer : Packer Item) :
    packer.groups.flatten = packer.done.flatten ++ packer.filling := by
  unfold groups
  split
  · next empty => rw [empty, List.append_nil]
  · rw [List.flatten_append, List.flatten_singleton]

theorem push_flatten (item : Item) :
    (packer.push size limit item).groups.flatten = packer.groups.flatten ++ [item] := by
  rw [push_groups]
  split
  · rw [List.flatten_append, List.flatten_singleton]
  · rw [List.flatten_append, List.flatten_singleton, groups_flatten, List.append_assoc]

/-- Items never take a group away. -/
theorem push_length (item : Item) :
    packer.groups.length ≤ (packer.push size limit item).groups.length := by
  rw [push_groups]
  split
  · rw [List.length_append]
    exact Nat.le_add_right _ _
  · unfold groups
    split
    · rw [List.length_append]
      exact Nat.le_add_right _ _
    · rw [List.length_append, List.length_append]
      exact Nat.le_refl _

theorem foldl_length (items : List Item) (packer : Packer Item) :
    packer.groups.length ≤ (items.foldl (push size limit) packer).groups.length := by
  induction items generalizing packer with
  | nil => exact Nat.le_refl _
  | cons item rest ih => exact Nat.le_trans (push_length item) (ih _)

theorem foldl_flatten (items : List Item) (packer : Packer Item) :
    (items.foldl (push size limit) packer).groups.flatten = packer.groups.flatten ++ items := by
  induction items generalizing packer with
  | nil => rw [List.foldl_nil, List.append_nil]
  | cons item rest ih =>
    rw [List.foldl_cons, ih, push_flatten, List.append_assoc]
    rfl

/-- The groups are packed, and a closed group before an empty one is full. -/
structure Sound (size : Item → Nat) (limit : Nat) (packer : Packer Item) : Prop where
  packed : Packed size limit packer.groups
  closed : packer.filling = [] → ∀ last ∈ packer.done.getLast?, limit ≤ (last.map size).sum

theorem sound_empty : Sound size limit (empty : Packer Item) := ⟨.nil, nofun⟩

/-- The first item of a group that is begun did not fit before. -/
theorem Sound.begins (sound : packer.Sound size limit) {item : Item} (positive : 0 < size item)
    (new : packer.filling = [] ∨ packer.Overflows size limit item) :
    ∀ last ∈ packer.groups.getLast?, ∀ first ∈ [item].head?,
      limit < (last.map size).sum + size first := by
  intro last member first among
  cases among
  by_cases empty : packer.filling = []
  · rw [groups, if_pos empty] at member
    have full := sound.closed empty last member
    omega
  · obtain none | overflows := new
    · exact absurd none empty
    · rw [groups, if_neg empty, List.getLast?_concat] at member
      cases member
      exact overflows.2

theorem Sound.push (sound : packer.Sound size limit) {item : Item} (positive : 0 < size item)
    (fits : size item ≤ limit) : (packer.push size limit item).Sound size limit := by
  refine ⟨?_, ?_⟩
  · rw [push_groups]
    split
    · next new =>
      refine sound.packed.append_one (List.cons_ne_nil item []) ?_ (sound.begins positive new)
      simpa using fits
    · next same =>
      obtain ⟨some, room⟩ := not_or.mp same
      have packed := sound.packed
      rw [groups, if_neg some] at packed
      have kept : Packed size limit packer.done :=
        ⟨fun group member => packed.full group (List.mem_append_left _ member),
          fun group member => packed.fits group (List.mem_append_left _ member),
          (List.isChain_append.mp packed.greedy).1⟩
      refine kept.append_one (List.append_ne_nil_of_left_ne_nil some _) ?_ ?_
      · have under : ¬limit < packer.weight size + size item := fun over' => room ⟨some, over'⟩
        rw [weight] at under
        simp only [List.map_append, List.sum_append, List.map_singleton, List.sum_singleton]
        omega
      · intro last member first among
        refine (List.isChain_append.mp packed.greedy).2.2 last member packer.filling rfl first ?_
        rwa [List.head?_append_of_ne_nil _ some] at among
  · intro empty last member
    rw [Packer.push, fill] at empty member
    generalize (if packer.Overflows size limit item then packer.close else packer) = room at *
    split at empty
    · next full =>
      rw [if_pos full, List.getLast?_concat] at member
      cases member
      simpa [weight] using full
    · exact absurd empty (List.append_ne_nil_of_right_ne_nil _ (List.cons_ne_nil item []))

theorem Sound.foldl {items : List Item} (sound : packer.Sound size limit)
    (each : ∀ item ∈ items, 0 < size item ∧ size item ≤ limit) :
    (items.foldl (Packer.push size limit) packer).Sound size limit := by
  induction items generalizing packer with
  | nil => exact sound
  | cons item rest ih =>
    obtain ⟨⟨positive, fits⟩, later⟩ := List.forall_mem_cons.mp each
    exact ih (sound.push positive fits) later

end Packer

end BobbyBotique
