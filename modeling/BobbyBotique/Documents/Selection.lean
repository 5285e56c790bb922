import BobbyBotique.Documents.Chunking
import BobbyBotique.Foundation.Ranking
import Mathlib.Data.List.Dedup

/-!
# The part of a document for a prompt

A document that does not fit is represented by whole parents, the best first: each
one that still fits into the rest of the budget is taken, and only a first parent
that is too long is cut.
-/

namespace BobbyBotique.Documents

/-- What the interpreter knows of letters: `str.lower`, and `\w` of one character. -/
structure QueryReader where
  lower : Text → Text
  isWord : Char → Bool

/-- `set(_QUERY_WORD_RE.findall(query.lower()))`. -/
def queryWords (reader : QueryReader) (query : Text) : List Text :=
  (((reader.lower query).splitOnP fun c => !reader.isWord c).filter fun word =>
    decide (3 ≤ word.length)).dedup

def scoreChunkWords (reader : QueryReader) (chunk : Text) (words : List Text) : ℚ :=
  if words = [] then 1 / 2
  else (words.filter fun word => decide (word <:+: reader.lower chunk)).length / words.length

/-- The score of a parent: its best child's. -/
def scoreParent (reader : QueryReader) (query : Text) (chunk : HierarchicalChunk) : ℚ :=
  if query = [] then 1 / 2
  else
    match chunk.children.map fun child => scoreChunkWords reader child (queryWords reader query) with
    | [] => 0
    | first :: others => others.foldl max first

def joinParents (parents : List Text) : Text := "\n\n".toList.intercalate parents

/-- The loop over the scored parents. -/
def selectParents (maxChars : Nat) (selected : List Text) (charsUsed : Nat) :
    List Text → List Text
  | [] => selected
  | parent :: others =>
    let separatorLen := if selected = [] then 0 else 2
    if maxChars < charsUsed + parent.length + separatorLen then
      if selected = [] then [parent.take maxChars]
      else selectParents maxChars selected charsUsed others
    else
      selectParents maxChars (selected ++ [parent])
        (charsUsed + (parent.length + separatorLen)) others

def chunkForContext (reader : QueryReader) (text query : Text) (maxContextTokens : Int) :
    Except ChunkingError Text :=
  if maxContextTokens < 0 then
    .error (.valueError "max_context_tokens must not be negative")
  else if maxContextTokens = 0 then .ok []
  else if strip text = [] then .ok []
  else if estimateTokens (strip text) ≤ maxContextTokens then .ok (strip text)
  else
    let maxChars := charsOf maxContextTokens.toNat
    let chunks := hierarchicalChunk (strip text)
    if chunks = [] then .ok (strip ((strip text).take maxChars))
    else
      let scored := chunks.mergeSort (ranksBefore (scoreParent reader query))
      let selected := selectParents maxChars [] 0 (scored.map HierarchicalChunk.parent)
      let selected :=
        if selected = [] then
          [(scored.head?.map fun top => top.parent.take maxChars).getD []]
        else selected
      .ok (joinParents selected)

/-! ## The loop -/

theorem joinParents_append {selected : List Text} (some : selected ≠ []) (parent : Text) :
    (joinParents (selected ++ [parent])).length =
      (joinParents selected).length + (parent.length + 2) := by
  induction selected with
  | nil => exact absurd rfl some
  | cons first others ih =>
    cases others with
    | nil => simp [joinParents, List.intercalate]
    | cons second more =>
      have later := ih (List.cons_ne_nil second more)
      simp only [joinParents, List.intercalate, List.cons_append, List.intersperse_cons_cons,
        List.flatten_cons, List.length_append] at later ⊢
      omega

/-- The parents that were taken, each by its place. -/
def kept (parentAt : Nat → Text) (picked : List (Nat × Bool)) : List Text :=
  (picked.filter Prod.snd).map fun pick => parentAt pick.1

/-- A parent is taken exactly when it fits behind those taken before it. -/
def FillsGreedily (maxChars : Nat) (parentAt : Nat → Text) (selected : List Text)
    (picked : List (Nat × Bool)) : Prop :=
  ∀ before place taken after, picked = before ++ (place, taken) :: after → (taken = true ↔
      (joinParents (selected ++ kept parentAt before)).length + 2 + (parentAt place).length ≤
        maxChars)

theorem selectParents_fills {maxChars : Nat} (parentAt : Nat → Text) (places : List Nat)
    {selected : List Text} (some : selected ≠ [])
    (fits : (joinParents selected).length ≤ maxChars) :
    ∃ picked : List (Nat × Bool), picked.map Prod.fst = places ∧
      selectParents maxChars selected (joinParents selected).length (places.map parentAt) =
        selected ++ kept parentAt picked ∧
      FillsGreedily maxChars parentAt selected picked ∧
      (joinParents (selected ++ kept parentAt picked)).length ≤ maxChars := by
  induction places generalizing selected with
  | nil =>
    refine ⟨[], rfl, (List.append_nil selected).symm, ?_, ?_⟩
    · intro before place taken after split
      cases before with
      | nil | cons => cases split
    · rw [kept, List.filter_nil, List.map_nil, List.append_nil]
      exact fits
  | cons place others ih =>
    rw [List.map_cons, selectParents]
    simp only [if_neg some]
    have longer := joinParents_append some (parentAt place)
    by_cases room : maxChars < (joinParents selected).length + (parentAt place).length + 2
    · rw [if_pos room]
      obtain ⟨picked, same, result, greedy, short⟩ := ih some fits
      refine ⟨(place, false) :: picked, by rw [List.map_cons, same], result, ?_, short⟩
      intro before other taken after split
      cases before with
      | nil =>
        cases split
        rw [kept, List.filter_nil, List.map_nil, List.append_nil]
        exact ⟨nofun, fun enough => absurd enough (by omega)⟩
      | cons head behind =>
        obtain ⟨rfl, rest⟩ := List.cons.inj split
        exact greedy behind other taken after rest
    · rw [if_neg room]
      have grown : (joinParents selected).length + ((parentAt place).length + 2) =
          (joinParents (selected ++ [parentAt place])).length := longer.symm
      rw [grown]
      obtain ⟨picked, same, result, greedy, short⟩ :=
        ih (List.append_ne_nil_of_left_ne_nil some [parentAt place]) (by omega)
      have gathered : ∀ picks : List (Nat × Bool),
          selected ++ kept parentAt ((place, true) :: picks) =
            selected ++ [parentAt place] ++ kept parentAt picks := by
        intro picks
        rw [List.append_assoc]
        rfl
      refine ⟨(place, true) :: picked, by rw [List.map_cons, same], ?_, ?_, ?_⟩
      · rw [result, gathered]
      · intro before other taken after split
        cases before with
        | nil =>
          cases split
          rw [kept, List.filter_nil, List.map_nil, List.append_nil]
          exact ⟨fun _ => by omega, fun _ => rfl⟩
        | cons head behind =>
          obtain ⟨rfl, rest⟩ := List.cons.inj split
          rw [gathered]
          exact greedy behind other taken after rest
      · rw [gathered]
        exact short

/-- What is selected from the parents, the first of which is the best. -/
theorem selectParents_spec {maxChars : Nat} (parentAt : Nat → Text) (first : Nat)
    (others : List Nat) :
    if maxChars < (parentAt first).length then
      selectParents maxChars [] 0 ((first :: others).map parentAt) =
        [(parentAt first).take maxChars]
    else ∃ picked : List (Nat × Bool), picked.map Prod.fst = others ∧
      selectParents maxChars [] 0 ((first :: others).map parentAt) =
        parentAt first :: kept parentAt picked ∧
      FillsGreedily maxChars parentAt [parentAt first] picked ∧
      (joinParents (parentAt first :: kept parentAt picked)).length ≤ maxChars := by
  rw [List.map_cons, selectParents]
  simp only [if_true, Nat.zero_add, Nat.add_zero, List.nil_append]
  split
  · rfl
  · next fits =>
    have alone : joinParents [parentAt first] = parentAt first := by
      simp [joinParents, List.intercalate]
    have within : (joinParents [parentAt first]).length ≤ maxChars := by
      rw [alone]
      exact Nat.le_of_not_lt fits
    have filled := selectParents_fills parentAt others (List.cons_ne_nil (parentAt first) []) within
    rw [alone] at filled
    exact filled

theorem estimateTokens_le {text : Text} {tokens : Nat} :
    estimateTokens text ≤ tokens ↔ text.length ≤ charsOf tokens := by
  unfold estimateTokens charsOf
  omega

/-- What the best-ranked parents leave of a document that is too long. -/
def SelectedContext (reader : QueryReader) (query : Text) (parents : List HierarchicalChunk)
    (maxChars : Nat) (result : Text) : Prop :=
  ∃ (parentAt : Nat → Text) (first : Nat) (others : List Nat),
    (∀ (place : Nat) (chunk : HierarchicalChunk), parents[place]? = some chunk →
      parentAt place = chunk.parent) ∧
    (first :: others).Perm (List.range parents.length) ∧
    (first :: others).Pairwise (Outranks (scoreParent reader query) parents) ∧
    if maxChars < (parentAt first).length then result = (parentAt first).take maxChars
    else ∃ picked : List (Nat × Bool), picked.map Prod.fst = others ∧
      result = joinParents (parentAt first :: kept parentAt picked) ∧
      FillsGreedily maxChars parentAt [parentAt first] picked

theorem ranked_parents (reader : QueryReader) (query : Text) {parents : List HierarchicalChunk}
    (some : parents ≠ []) :
    ∃ (parentAt : Nat → Text) (first : Nat) (others : List Nat),
      (∀ (place : Nat) (chunk : HierarchicalChunk), parents[place]? = Option.some chunk →
        parentAt place = chunk.parent) ∧
      (first :: others).Perm (List.range parents.length) ∧
      (first :: others).Pairwise (Outranks (scoreParent reader query) parents) ∧
      (parents.mergeSort (ranksBefore (scoreParent reader query))).map HierarchicalChunk.parent =
        (first :: others).map parentAt := by
  obtain ⟨order, perm, ranked, sorted⟩ := mergeSort_ranks (scoreParent reader query) parents
  let parentAt : Nat → Text := fun place =>
    ((parents[place]?).map HierarchicalChunk.parent).getD []
  have places : (order.filterMap fun place => parents[place]?).map HierarchicalChunk.parent =
      order.map parentAt := by
    rw [List.map_filterMap]
    refine List.filterMap_eq_map_iff_forall_eq_some.mpr fun place member => ?_
    have inside := List.mem_range.mp (perm.mem_iff.mp member)
    simp [parentAt, inside]
  cases order with
  | nil =>
    have none := perm.length_eq
    rw [List.length_nil, List.length_range] at none
    exact absurd (List.length_eq_zero_iff.mp none.symm) some
  | cons first others =>
    refine ⟨parentAt, first, others, fun place chunk found => ?_, perm, ranked, ?_⟩
    · simp [parentAt, found]
    · rw [sorted, places]

/-- The text for the prompt stays within its budget and is the whole document or the best
of its parents. -/
theorem chunkForContext_selects (reader : QueryReader) (text query : Text)
    (maxContextTokens : Nat) (positive : 0 < maxContextTokens) :
    ∃ result, chunkForContext reader text query maxContextTokens = .ok result ∧
      result.length ≤ charsOf maxContextTokens ∧ estimateTokens result ≤ maxContextTokens ∧
      if estimateTokens (strip text) ≤ maxContextTokens then result = strip text
      else SelectedContext reader query (hierarchicalChunk (strip text))
        (charsOf maxContextTokens) result := by
  rw [chunkForContext, if_neg (by omega), if_neg (by omega)]
  by_cases blank : strip text = []
  · have none : estimateTokens ([] : Text) ≤ maxContextTokens := Nat.zero_le _
    rw [if_pos blank]
    refine ⟨[], rfl, Nat.zero_le _, none, ?_⟩
    rw [blank, if_pos none]
  · rw [if_neg blank]
    by_cases short : estimateTokens (strip text) ≤ maxContextTokens
    · rw [if_pos (by omega)]
      refine ⟨strip text, rfl, estimateTokens_le.mp short, short, ?_⟩
      rw [if_pos short]
    · rw [if_neg (by omega)]
      have visible : strip (strip text) ≠ [] := by
        obtain ⟨c, member, shown⟩ := strip_ne_nil.mp blank
        exact strip_ne_nil.mpr ⟨c, mem_strip shown member, shown⟩
      have some := hierarchicalChunk_ne_nil visible
      simp only [if_neg some, Int.toNat_natCast]
      obtain ⟨parentAt, first, others, stands, perm, ranked, sorted⟩ :=
        ranked_parents reader query some
      have spec := @selectParents_spec (charsOf maxContextTokens) parentAt first others
      rw [sorted]
      by_cases long : charsOf maxContextTokens < (parentAt first).length
      · rw [if_pos long] at spec
        have cut : ((parentAt first).take (charsOf maxContextTokens)).length ≤
            charsOf maxContextTokens := List.length_take_le _ _
        refine ⟨(parentAt first).take (charsOf maxContextTokens), ?_, cut,
          estimateTokens_le.mpr cut, ?_⟩
        · rw [spec, if_neg (List.cons_ne_nil _ _)]
          simp [joinParents, List.intercalate]
        · rw [if_neg short]
          refine ⟨parentAt, first, others, stands, perm, ranked, ?_⟩
          rw [if_pos long]
      · rw [if_neg long] at spec
        obtain ⟨picked, same, result, greedy, fits⟩ := spec
        refine ⟨_, ?_, fits, estimateTokens_le.mpr fits, ?_⟩
        · rw [result, if_neg (List.cons_ne_nil _ _)]
        · rw [if_neg short]
          refine ⟨parentAt, first, others, stands, perm, ranked, ?_⟩
          rw [if_neg long]
          exact ⟨picked, same, rfl, greedy⟩

def asciiReader : QueryReader := ⟨fun text => text.map Char.toLower, Char.isAlphanum⟩

theorem chunkForContext_selects_short :
    ∃ result, chunkForContext asciiReader " ab ".toList "ab".toList 1 = .ok result ∧
      result = "ab".toList := by
  obtain ⟨result, ok, _, _, whole⟩ :=
    chunkForContext_selects asciiReader " ab ".toList "ab".toList 1 (by decide)
  have stripped : strip " ab ".toList = "ab".toList := by decide
  rw [stripped, if_pos (by decide)] at whole
  exact ⟨result, ok, whole⟩

end BobbyBotique.Documents
