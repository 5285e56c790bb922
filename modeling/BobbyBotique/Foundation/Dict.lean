import Mathlib.Data.List.AList
import Mathlib.Algebra.BigOperators.Group.Finset.Basic
import Mathlib.Algebra.Order.BigOperators.Group.Finset

/-!
# Finite dictionaries

A dictionary is an association list in which every key occurs once.  Reads are
total and return an option.  Totals over the entries do not depend on the
order in which the keys were inserted, so they are compared key by key.
-/

namespace BobbyBotique

/-- A finite dictionary from `K` to `V`. -/
structure Dict (K V : Type) where
  table : AList fun _ : K => V

namespace Dict

variable {K V W : Type}

def empty : Dict K V := ⟨∅⟩

instance : Inhabited (Dict K V) := ⟨empty⟩

def keys (d : Dict K V) : List K := d.table.keys

def items (d : Dict K V) : List (K × V) :=
  d.table.entries.map fun entry => (entry.1, entry.2)

def values (d : Dict K V) : List V := d.table.entries.map fun entry => entry.2

/-- Keep the entries whose key and value pass the test. -/
def retain (d : Dict K V) (keep : K → V → Bool) : Dict K V :=
  ⟨d.table.entries.filter fun entry => keep entry.1 entry.2,
    List.Nodup.sublist (List.filter_sublist.map Sigma.fst) d.table.nodupKeys⟩

/-- The total of a quantity over the entries. -/
def total {M : Type} [AddCommMonoid M] (d : Dict K V) (weight : K → V → M) : M :=
  (d.items.map fun item => weight item.1 item.2).sum

/-- Change every value. -/
def map (d : Dict K V) (change : V → W) : Dict K W :=
  ⟨d.table.entries.map fun entry => ⟨entry.1, change entry.2⟩, by
    have keys : (d.table.entries.map fun entry => (⟨entry.1, change entry.2⟩ : Σ _ : K, W)).keys =
        d.table.entries.keys := by
      simp only [List.keys, List.map_map, Function.comp_def]
    rw [List.NodupKeys, keys]
    exact d.table.nodupKeys⟩

/-- Change every value in the light of its key. -/
def adjust (d : Dict K V) (change : K → V → V) : Dict K V :=
  ⟨d.table.entries.map fun entry => ⟨entry.1, change entry.1 entry.2⟩, by
    have keys : (d.table.entries.map fun entry =>
        (⟨entry.1, change entry.1 entry.2⟩ : Σ _ : K, V)).keys = d.table.entries.keys := by
      simp only [List.keys, List.map_map, Function.comp_def]
    rw [List.NodupKeys, keys]
    exact d.table.nodupKeys⟩

theorem total_adjust {M : Type} [AddCommMonoid M] (d : Dict K V) (change : K → V → V)
    (weight : K → V → M) :
    (d.adjust change).total weight = d.total fun key value => weight key (change key value) := by
  simp only [total, items, adjust, List.map_map, Function.comp_def]

theorem total_add {M : Type} [AddCommMonoid M] (d : Dict K V) (first second : K → V → M) :
    (d.total fun key value => first key value + second key value) =
      d.total first + d.total second :=
  List.sum_map_add

theorem keys_nodup (d : Dict K V) : d.keys.Nodup := d.table.keys_nodup

variable [DecidableEq K]

def get? (d : Dict K V) (key : K) : Option V := d.table.lookup key

def set (d : Dict K V) (key : K) (value : V) : Dict K V := ⟨d.table.insert key value⟩

def del (d : Dict K V) (key : K) : Dict K V := ⟨d.table.erase key⟩

def contains (d : Dict K V) (key : K) : Bool := (d.get? key).isSome

/-- Change the value of a key that is present. -/
def modify (d : Dict K V) (key : K) (change : V → V) : Dict K V :=
  match d.get? key with
  | none => d
  | some value => d.set key (change value)

/-- The value of a key, with a default where the key is absent. -/
def getD (d : Dict K V) (key : K) (default : V) : V := (d.get? key).getD default

/-! ## Reads after writes -/

@[simp] theorem get?_empty (key : K) : (empty : Dict K V).get? key = none :=
  AList.lookup_empty key

@[simp] theorem get?_set_self (d : Dict K V) (key : K) (value : V) :
    (d.set key value).get? key = some value :=
  AList.lookup_insert d.table

theorem get?_set_ne (d : Dict K V) {key other : K} (value : V) (ne : other ≠ key) :
    (d.set key value).get? other = d.get? other :=
  AList.lookup_insert_ne ne

theorem get?_set (d : Dict K V) (key other : K) (value : V) :
    (d.set key value).get? other = if other = key then some value else d.get? other := by
  by_cases same : other = key
  · rw [if_pos same, same, get?_set_self]
  · rw [if_neg same, get?_set_ne d value same]

@[simp] theorem get?_del_self (d : Dict K V) (key : K) : (d.del key).get? key = none :=
  AList.lookup_erase key d.table

theorem get?_del_ne (d : Dict K V) {key other : K} (ne : other ≠ key) :
    (d.del key).get? other = d.get? other :=
  AList.lookup_erase_ne ne

theorem get?_del (d : Dict K V) (key other : K) :
    (d.del key).get? other = if other = key then none else d.get? other := by
  by_cases same : other = key
  · rw [if_pos same, same, get?_del_self]
  · rw [if_neg same, get?_del_ne d same]

theorem get?_del_eq_some {d : Dict K V} {key other : K} {value : V} :
    (d.del key).get? other = some value ↔ other ≠ key ∧ d.get? other = some value := by
  rw [get?_del]
  by_cases same : other = key
  · simp only [same, if_true, reduceCtorEq, ne_eq, not_true_eq_false, false_and]
  · simp only [same, if_false, ne_eq, not_false_eq_true, true_and]

theorem get?_modify (d : Dict K V) (key other : K) (change : V → V) :
    (d.modify key change).get? other =
      if other = key then (d.get? other).map change else d.get? other := by
  cases found : d.get? key with
  | none =>
    simp only [modify, found]
    split
    · next same => rw [same, found, Option.map_none]
    · rfl
  | some value =>
    simp only [modify, found, get?_set]
    split
    · next same => rw [same, found, Option.map_some]
    · rfl

/-- Deleting a list of keys. -/
theorem get?_foldl_del {A : Type} (keys : List A) (name : A → K) (d : Dict K V) (key : K) :
    (keys.foldl (fun table each => table.del (name each)) d).get? key =
      if key ∈ keys.map name then none else d.get? key := by
  induction keys generalizing d with
  | nil => simp only [List.foldl_nil, List.map_nil, List.not_mem_nil, if_false]
  | cons first rest ih =>
    rw [List.foldl_cons, ih, get?_del, List.map_cons]
    by_cases same : key = name first
    · rw [if_pos same, if_pos (List.mem_cons.mpr (.inl same)), ite_self]
    · simp only [List.mem_cons, same, false_or, if_false]

theorem mem_entries_iff (d : Dict K V) (key : K) (value : V) :
    (⟨key, value⟩ : Σ _ : K, V) ∈ d.table.entries ↔ d.get? key = some value :=
  AList.mem_lookup_iff.symm

theorem mem_items_iff (d : Dict K V) (key : K) (value : V) :
    (key, value) ∈ d.items ↔ d.get? key = some value := by
  rw [← d.mem_entries_iff, items, List.mem_map]
  constructor
  · rintro ⟨⟨_, _⟩, member, same⟩
    cases same
    exact member
  · exact fun member => ⟨_, member, rfl⟩

theorem mem_keys_iff (d : Dict K V) (key : K) :
    key ∈ d.keys ↔ ∃ value, d.get? key = some value := by
  rw [← Option.isSome_iff_exists]
  exact AList.lookup_isSome.symm

theorem mem_keys_of_get? {d : Dict K V} {key : K} {value : V}
    (found : d.get? key = some value) : key ∈ d.keys :=
  (d.mem_keys_iff key).mpr ⟨value, found⟩

/-- A dictionary has keys exactly when something is stored. -/
theorem keys_nonempty_iff (d : Dict K V) :
    (!d.keys.isEmpty) = true ↔ ∃ key value, d.get? key = some value := by
  rw [Bool.not_eq_true', List.isEmpty_eq_false_iff_exists_mem]
  constructor
  · rintro ⟨key, member⟩
    exact ⟨key, (d.mem_keys_iff key).mp member⟩
  · rintro ⟨key, found⟩
    exact ⟨key, (d.mem_keys_iff key).mpr found⟩

theorem mem_values_iff (d : Dict K V) (value : V) :
    value ∈ d.values ↔ ∃ key, d.get? key = some value := by
  constructor
  · intro member
    obtain ⟨⟨key, stored⟩, listed, rfl⟩ := List.mem_map.mp member
    exact ⟨key, (d.mem_entries_iff key stored).mp listed⟩
  · rintro ⟨key, found⟩
    exact List.mem_map.mpr ⟨⟨key, value⟩, (d.mem_entries_iff key value).mpr found, rfl⟩

/-- Values that carry their own key are pairwise apart. -/
theorem values_apart (d : Dict K V) (name : V → K)
    (named : ∀ key value, d.get? key = some value → name value = key) :
    d.values.Pairwise fun first second => name first ≠ name second := by
  have keys : d.table.entries.Pairwise fun first second => first.1 ≠ second.1 :=
    List.pairwise_map.mp d.keys_nodup
  refine List.pairwise_map.mpr (keys.imp_of_mem fun {first second} left right apart => ?_)
  rw [named _ _ ((d.mem_entries_iff first.1 first.2).mp left),
    named _ _ ((d.mem_entries_iff second.1 second.2).mp right)]
  exact apart

theorem get?_retain_eq_some (d : Dict K V) (keep : K → V → Bool) (key : K) (value : V) :
    (d.retain keep).get? key = some value ↔
      d.get? key = some value ∧ keep key value = true := by
  rw [← mem_entries_iff, ← mem_entries_iff]
  exact List.mem_filter

theorem get?_retain (d : Dict K V) (keep : K → V → Bool) (key : K) :
    (d.retain keep).get? key = (d.get? key).filter (keep key) := by
  ext value
  rw [get?_retain_eq_some, Option.filter_eq_some_iff]

theorem get?_of_entries {d : Dict K V} {e : Dict K W} (change : K → V → W)
    (entries : e.table.entries =
      d.table.entries.map fun entry => ⟨entry.1, change entry.1 entry.2⟩)
    (key : K) : e.get? key = (d.get? key).map (change key) := by
  ext value
  rw [Option.map_eq_some_iff, ← mem_entries_iff, entries]
  constructor
  · intro member
    obtain ⟨entry, listed, same⟩ := List.mem_map.mp member
    cases same
    exact ⟨entry.2, (d.mem_entries_iff entry.1 entry.2).mp listed, rfl⟩
  · rintro ⟨old, found, rfl⟩
    exact List.mem_map.mpr ⟨⟨key, old⟩, (d.mem_entries_iff key old).mpr found, rfl⟩

theorem get?_map (d : Dict K V) (change : V → W) (key : K) :
    (d.map change).get? key = (d.get? key).map change :=
  get?_of_entries (fun _ => change) rfl key

theorem get?_adjust (d : Dict K V) (change : K → V → V) (key : K) :
    (d.adjust change).get? key = (d.get? key).map (change key) :=
  get?_of_entries change rfl key

/-! ## Related dictionaries -/

/-- Two dictionaries with the same keys, whose values are related key by key. -/
def Related (relation : V → W → Prop) (d : Dict K V) (e : Dict K W) : Prop :=
  ∀ key, Option.Rel relation (d.get? key) (e.get? key)

namespace Related

variable {relation : V → W → Prop} {d : Dict K V} {e : Dict K W} {key : K}

theorem refl {same : V → V → Prop} (reflexive : ∀ value, same value value) (d : Dict K V) :
    Related same d d := by
  intro key
  cases d.get? key with
  | none => exact .none
  | some value => exact .some (reflexive value)

theorem forth (related : Related relation d e) {value : V} (found : d.get? key = some value) :
    ∃ other, e.get? key = some other ∧ relation value other := by
  have pair := related key
  rw [found] at pair
  generalize e.get? key = other at pair
  cases pair with
  | some holds => exact ⟨_, rfl, holds⟩

theorem back (related : Related relation d e) {other : W} (found : e.get? key = some other) :
    ∃ value, d.get? key = some value ∧ relation value other := by
  have pair := related key
  rw [found] at pair
  generalize d.get? key = value at pair
  cases pair with
  | some holds => exact ⟨_, rfl, holds⟩

theorem trans {within : V → V → Prop} {first second third : Dict K V}
    (transitive : ∀ {old middle new}, within old middle → within middle new → within old new)
    (before : Related within first second) (after : Related within second third) :
    Related within first third := by
  intro key
  cases found : first.get? key with
  | some value =>
    obtain ⟨middle, there, left⟩ := before.forth found
    obtain ⟨last, kept, right⟩ := after.forth there
    rw [kept]
    exact .some (transitive left right)
  | none =>
    cases last : third.get? key with
    | none => exact .none
    | some value =>
      obtain ⟨middle, there, _⟩ := after.back last
      obtain ⟨source, present, _⟩ := before.back there
      cases found.symm.trans present

/-- Replacing a value that is there. -/
theorem set {within : V → V → Prop} (reflexive : ∀ value, within value value) {d : Dict K V}
    {old new : V} (found : d.get? key = some old) (replaces : within old new) :
    Related within d (d.set key new) := by
  intro other
  rw [get?_set]
  split
  · rename_i same
    rw [same, found]
    exact .some replaces
  · exact refl reflexive d other

theorem adjust {within : V → V → Prop} {d : Dict K V} {change : K → V → V}
    (replaces : ∀ key value, within value (change key value)) :
    Related within d (d.adjust change) := by
  intro key
  rw [get?_adjust]
  cases d.get? key with
  | none => exact .none
  | some value => exact .some (replaces key value)

end Related

/-! ## The number of keys -/

theorem keys_set_le (d : Dict K V) (key : K) (value : V) :
    (d.set key value).keys.length ≤ d.keys.length + 1 := by
  show (d.table.insert key value).keys.length ≤ d.table.keys.length + 1
  rw [AList.keys_insert, List.length_cons]
  exact Nat.succ_le_succ List.length_erase_le

theorem keys_set_of_get? {d : Dict K V} {key : K} {old : V} (found : d.get? key = some old)
    (value : V) : (d.set key value).keys.length = d.keys.length := by
  have member : key ∈ d.table.keys := mem_keys_of_get? found
  show (d.table.insert key value).keys.length = d.table.keys.length
  rw [AList.keys_insert, List.length_cons, List.length_erase_of_mem member]
  exact Nat.succ_pred_eq_of_pos (List.length_pos_of_mem member)

theorem keys_del_le (d : Dict K V) (key : K) : (d.del key).keys.length ≤ d.keys.length := by
  show (d.table.erase key).keys.length ≤ d.table.keys.length
  rw [AList.keys_erase]
  exact List.length_erase_le

omit [DecidableEq K] in
theorem keys_retain_le (d : Dict K V) (keep : K → V → Bool) :
    (d.retain keep).keys.length ≤ d.keys.length :=
  (List.filter_sublist.map Sigma.fst).length_le

/-- A dictionary whose keys all occur in another has no more of them. -/
theorem keys_le_of_subset {d : Dict K V} {e : Dict K W}
    (subset : ∀ key value, d.get? key = some value → ∃ other, e.get? key = some other) :
    d.keys.length ≤ e.keys.length := by
  have contained : d.keys ⊆ e.keys := by
    intro key member
    obtain ⟨value, found⟩ := (d.mem_keys_iff key).mp member
    exact (e.mem_keys_iff key).mpr (subset key value found)
  exact (List.subperm_of_subset d.keys_nodup contained).length_le

/-! ## Totals -/

section Totals

variable {M : Type} [AddCommMonoid M]

/-- The weight of one key, zero where the dictionary has no entry. -/
def weightAt (d : Dict K V) (weight : K → V → M) (key : K) : M :=
  (d.get? key).elim 0 (weight key)

theorem total_eq_sum_keys (d : Dict K V) (weight : K → V → M) :
    d.total weight = ∑ key ∈ d.keys.toFinset, d.weightAt weight key := by
  have listed : (d.items.map fun item => weight item.1 item.2) =
      d.keys.map (d.weightAt weight) := by
    change List.map _ (List.map _ d.table.entries) = List.map _ (List.map Sigma.fst d.table.entries)
    rw [List.map_map, List.map_map]
    refine List.map_congr_left fun entry member => ?_
    have found := (d.mem_entries_iff entry.1 entry.2).mp member
    simp only [Function.comp_apply, weightAt, found, Option.elim_some]
  rw [total, listed, List.sum_toFinset _ d.keys_nodup]

/-- Any finite set of keys that covers the dictionary gives the same total. -/
theorem total_eq_sum (d : Dict K V) (weight : K → V → M) (cover : Finset K)
    (covers : ∀ key ∈ d.keys, key ∈ cover) :
    d.total weight = ∑ key ∈ cover, d.weightAt weight key := by
  rw [total_eq_sum_keys]
  refine Finset.sum_subset (fun key member => covers key (List.mem_toFinset.mp member)) ?_
  intro key _ absent
  have missing : d.get? key = none := by
    rw [← Option.not_isSome_iff_eq_none, Option.isSome_iff_exists, ← d.mem_keys_iff]
    exact fun member => absent (List.mem_toFinset.mpr member)
  simp only [weightAt, missing, Option.elim_none]

/-- Two dictionaries have the same total when their weights agree key by key. -/
theorem total_congr {d : Dict K V} {e : Dict K W} {weight : K → V → M} {other : K → W → M}
    (same : ∀ key, d.weightAt weight key = e.weightAt other key) :
    d.total weight = e.total other := by
  rw [d.total_eq_sum weight (d.keys.toFinset ∪ e.keys.toFinset)
      (fun key member => Finset.mem_union_left _ (List.mem_toFinset.mpr member)),
    e.total_eq_sum other (d.keys.toFinset ∪ e.keys.toFinset)
      (fun key member => Finset.mem_union_right _ (List.mem_toFinset.mpr member))]
  exact Finset.sum_congr rfl fun key _ => same key

/-- Changing the weight of one key moves the total by the change at that key. -/
theorem total_change (d : Dict K V) (e : Dict K W) (weight : K → V → M) (other : K → W → M)
    (key : K) (same : ∀ rest, rest ≠ key → d.weightAt weight rest = e.weightAt other rest) :
    d.total weight + e.weightAt other key = e.total other + d.weightAt weight key := by
  let cover := insert key (d.keys.toFinset ∪ e.keys.toFinset)
  have coversLeft : ∀ k ∈ d.keys, k ∈ cover := fun k member =>
    Finset.mem_insert_of_mem (Finset.mem_union_left _ (List.mem_toFinset.mpr member))
  have coversRight : ∀ k ∈ e.keys, k ∈ cover := fun k member =>
    Finset.mem_insert_of_mem (Finset.mem_union_right _ (List.mem_toFinset.mpr member))
  have focus : key ∈ cover := Finset.mem_insert_self _ _
  rw [d.total_eq_sum weight cover coversLeft, e.total_eq_sum other cover coversRight,
    ← Finset.add_sum_erase _ _ focus, ← Finset.add_sum_erase cover (e.weightAt other) focus,
    Finset.sum_congr rfl fun k member => same k (Finset.ne_of_mem_erase member)]
  rw [add_right_comm, add_comm (d.weightAt weight key), add_right_comm, add_assoc]

theorem total_set (d : Dict K V) (weight : K → V → M) (key : K) (value : V) :
    (d.set key value).total weight + d.weightAt weight key =
      d.total weight + weight key value := by
  have moved := total_change (d.set key value) d weight weight key fun rest ne => by
    simp only [weightAt, get?_set_ne d value ne]
  rw [moved]
  simp only [weightAt, get?_set_self, Option.elim_some]

theorem total_del (d : Dict K V) (weight : K → V → M) (key : K) :
    (d.del key).total weight + d.weightAt weight key = d.total weight := by
  have moved := total_change (d.del key) d weight weight key fun rest ne => by
    simp only [weightAt, get?_del_ne d ne]
  rw [moved]
  simp only [weightAt, get?_del_self, Option.elim_none, add_zero]

end Totals

section Order

variable {M : Type} [AddCommMonoid M] [PartialOrder M] [IsOrderedAddMonoid M]

/-- A total grows when every key's weight grows. -/
theorem total_le_total {d : Dict K V} {e : Dict K W} {weight : K → V → M}
    {other : K → W → M} (below : ∀ key, d.weightAt weight key ≤ e.weightAt other key) :
    d.total weight ≤ e.total other := by
  rw [d.total_eq_sum weight (d.keys.toFinset ∪ e.keys.toFinset)
      (fun key member => Finset.mem_union_left _ (List.mem_toFinset.mpr member)),
    e.total_eq_sum other (d.keys.toFinset ∪ e.keys.toFinset)
      (fun key member => Finset.mem_union_right _ (List.mem_toFinset.mpr member))]
  exact Finset.sum_le_sum fun key _ => below key

end Order

/-- What is dropped without weight leaves the total. -/
theorem total_retain {M : Type} [AddCommMonoid M] (d : Dict K V) (keep : K → V → Bool)
    {weight : K → V → M}
    (weightless : ∀ key value, d.get? key = some value → keep key value = false →
      weight key value = 0) : (d.retain keep).total weight = d.total weight := by
  apply total_congr
  intro key
  simp only [weightAt, get?_retain]
  cases found : d.get? key with
  | none => rfl
  | some value =>
    rw [Option.filter_some]
    split
    · rfl
    · next dropped =>
        exact (weightless key value found (Bool.eq_false_iff.mpr dropped)).symm

omit [DecidableEq K] in
/-- The entries that are kept, counted. -/
theorem keys_retain_eq_total (d : Dict K V) (keep : K → V → Bool) :
    (d.retain keep).keys.length = d.total fun key value => if keep key value then 1 else 0 := by
  change ((d.table.entries.filter fun entry => keep entry.1 entry.2).map Sigma.fst).length =
    ((d.table.entries.map fun entry => (entry.1, entry.2)).map fun item =>
      if keep item.1 item.2 then 1 else 0).sum
  rw [List.length_map]
  induction d.table.entries with
  | nil => rfl
  | cons entry rest ih =>
    simp only [List.filter_cons, List.map_cons, List.sum_cons, ← ih]
    cases keep entry.1 entry.2 with
    | false => exact (Nat.zero_add _).symm
    | true => exact Nat.succ_eq_one_add _

/-- At most one entry passes a test that no two keys pass. -/
theorem total_le_one (d : Dict K V) (test : K → V → Bool)
    (unique : ∀ key value other second, d.get? key = some value → d.get? other = some second →
      test key value = true → test other second = true → key = other) :
    (d.total fun key value => if test key value then 1 else 0) ≤ 1 := by
  rw [← keys_retain_eq_total]
  cases shape : (d.retain test).keys with
  | nil => exact Nat.zero_le 1
  | cons first rest =>
    obtain ⟨value, found⟩ :=
      ((d.retain test).mem_keys_iff first).mp (shape ▸ List.mem_cons_self)
    obtain ⟨there, passes⟩ := (d.get?_retain_eq_some test first value).mp found
    rw [← shape]
    refine (keys_le_of_subset (e := (Dict.empty : Dict K V).set first value) ?_).trans
      (keys_set_le Dict.empty first value)
    intro key second also
    obtain ⟨present, too⟩ := (d.get?_retain_eq_some test key second).mp also
    rw [unique key second first value present there too passes]
    exact ⟨value, get?_set_self _ _ _⟩

end Dict

end BobbyBotique
