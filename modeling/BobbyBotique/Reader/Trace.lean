import BobbyBotique.Delivery.Markup
import BobbyBotique.Reader.Page

/-!
# Where rewritten text comes from

The inline patterns put tags in the place of marks and leave every other letter
where it is.  So the text between two letters comes from one piece of the text
that was rewritten, and a piece without tags is that piece, escaped.
-/

namespace BobbyBotique.Reader

open Delivery

/-- The first text is the second one escaped, with tags in the place of marks. -/
inductive Traces : Text → Text → Prop where
  | nil : Traces [] []
  | char {c : Char} {out source : Text} (plain : entity? c = none)
      (behind : Traces out source) : Traces (c :: out) (c :: source)
  | entity {c : Char} {out source : Text} (special : (entity? c).isSome = true)
      (behind : Traces out source) : Traces (escapeChar c ++ out) (c :: source)
  | tag {text mark out source : Text} (listed : text ∈ inlineTags)
      (behind : Traces out source) : Traces (text ++ out) (mark ++ source)

theorem traces_escape (text : Text) : Traces (escape text) text := by
  induction text with
  | nil => exact .nil
  | cons c rest ih =>
    change Traces (escapeChar c ++ escape rest) (c :: rest)
    cases found : entity? c with
    | none =>
      rw [escapeChar, found]
      exact .char found ih
    | some written => exact .entity (by rw [found]; rfl) ih

theorem mem_entities_of_isSome {c : Char} (special : (entity? c).isSome = true) :
    escapeChar c ∈ entities := by
  obtain ⟨written, found⟩ := Option.isSome_iff_exists.mp special
  rw [escapeChar, found, Option.getD_some]
  exact entity?_mem found

theorem mark_not_mem_entity {c : Char} (mark : c ∈ marks) : ∀ text ∈ entities, c ∉ text := by
  have entity : ∀ c ∈ marks, ∀ text ∈ entities, c ∉ text :=
    forall_mem_of_all (by decide +kernel)
  exact entity c mark

theorem mark_not_mem_tag {c : Char} (mark : c ∈ marks) : ∀ text ∈ inlineTags, c ∉ text := by
  have tag : ∀ c ∈ marks, ∀ text ∈ inlineTags, c ∉ text :=
    forall_mem_of_all (by decide +kernel)
  exact tag c mark

/-- A letter that is not in the front piece stands behind it. -/
theorem append_split {piece out first second : Text} {letter : Char} (absent : letter ∉ piece)
    (same : piece ++ out = first ++ letter :: second) :
    ∃ behind, first = piece ++ behind ∧ out = behind ++ letter :: second := by
  rcases List.append_eq_append_iff.mp same with ⟨middle, inside, outside⟩ | ⟨middle, inside, split⟩
  · exact ⟨middle, inside, outside⟩
  · cases middle with
    | nil =>
      rw [List.append_nil] at inside
      exact ⟨[], by rw [inside, List.append_nil], split.symm⟩
    | cons head middle =>
      obtain ⟨rfl, _⟩ := List.cons.inj split
      exact absurd (inside ▸ List.mem_append_right _ List.mem_cons_self) absent

namespace Traces

variable {out source first second : Text}

theorem append {more behind : Text} (front : Traces out source) (back : Traces more behind) :
    Traces (out ++ more) (source ++ behind) := by
  induction front with
  | nil => exact back
  | char plain _ ih => exact .char plain ih
  | entity special _ ih =>
    rw [List.append_assoc]
    exact .entity special ih
  | tag listed _ ih =>
    rw [List.append_assoc, List.append_assoc]
    exact .tag listed ih

/-- A mark is a letter of the source and cuts the text there. -/
theorem split {letter : Char} (mark : letter ∈ marks)
    (traces : Traces (first ++ letter :: second) source) :
    ∃ front back, source = front ++ letter :: back ∧ Traces first front ∧ Traces second back := by
  generalize same : first ++ letter :: second = word at traces
  induction traces generalizing first with
  | nil => exact absurd same (by simp)
  | @char c out source plain behind ih =>
    cases first with
    | nil =>
      obtain ⟨rfl, rfl⟩ := List.cons.inj same
      exact ⟨[], source, rfl, .nil, behind⟩
    | cons head tail =>
      obtain ⟨rfl, later⟩ := List.cons.inj same
      obtain ⟨front, back, rfl, left, right⟩ := ih later
      exact ⟨head :: front, back, rfl, .char plain left, right⟩
  | @entity c out source special behind ih =>
    have absent := mark_not_mem_entity mark _ (mem_entities_of_isSome special)
    obtain ⟨tail, rfl, later⟩ := append_split absent same.symm
    obtain ⟨front, back, rfl, left, right⟩ := ih later.symm
    exact ⟨c :: front, back, rfl, .entity special left, right⟩
  | @tag text written out source listed behind ih =>
    obtain ⟨tail, rfl, later⟩ := append_split (mark_not_mem_tag mark text listed) same.symm
    obtain ⟨front, back, rfl, left, right⟩ := ih later.symm
    exact ⟨written ++ front, back, by rw [List.append_assoc], .tag listed left, right⟩

theorem source_nil (traces : Traces [] source) : source = [] := by
  generalize same : ([] : Text) = word at traces
  cases traces with
  | nil => rfl
  | char plain behind => cases same
  | @entity c out source special behind =>
    have long : ∀ text ∈ entities, text ≠ [] := by decide +kernel
    exact absurd (List.append_eq_nil_iff.mp same.symm).1
      (long _ (mem_entities_of_isSome special))
  | @tag text mark out source listed behind =>
    have long : ∀ text ∈ inlineTags, text ≠ [] := by decide +kernel
    exact absurd (List.append_eq_nil_iff.mp same.symm).1 (long text listed)

/-- Marks at the front of the text are at the front of the source. -/
theorem front {letters : Text} (all : ∀ letter ∈ letters, letter ∈ marks)
    (traces : Traces (letters ++ second) source) :
    ∃ back, source = letters ++ back ∧ Traces second back := by
  induction letters generalizing source with
  | nil => exact ⟨source, rfl, traces⟩
  | cons letter rest ih =>
    obtain ⟨nothing, back, rfl, empty, right⟩ :=
      @split source [] (rest ++ second) letter (all letter List.mem_cons_self) traces
    obtain rfl := source_nil empty
    obtain ⟨behind, rfl, left⟩ := ih
      (fun other among => all other (List.mem_cons_of_mem letter among)) right
    exact ⟨behind, rfl, left⟩

/-- Marks cut the text where they cut the source. -/
theorem peel {letters : Text} (all : ∀ letter ∈ letters, letter ∈ marks) (one : letters ≠ [])
    (traces : Traces (first ++ (letters ++ second)) source) :
    ∃ front back, source = front ++ (letters ++ back) ∧ Traces first front ∧
      Traces second back := by
  cases letters with
  | nil => exact absurd rfl one
  | cons letter rest =>
    obtain ⟨start, back, rfl, left, right⟩ := split (all letter List.mem_cons_self) traces
    obtain ⟨behind, rfl, last⟩ := right.front
      fun other among => all other (List.mem_cons_of_mem letter among)
    exact ⟨start, behind, rfl, left, last⟩

/-- Text without a tag is its source, escaped. -/
theorem eq_escape (traces : Traces out source) (plain : '<' ∉ out) : out = escape source := by
  induction traces with
  | nil => rfl
  | @char c out source known _ ih =>
    have same := ih fun among => plain (List.mem_cons_of_mem c among)
    change c :: out = escapeChar c ++ escape source
    rw [escapeChar, known, same]
    rfl
  | @entity c out source _ _ ih =>
    have same := ih fun among => plain (List.mem_append_right _ among)
    rw [same]
    rfl
  | @tag text mark out source listed _ _ =>
    have opens : ∀ text ∈ inlineTags, '<' ∈ text := by decide +kernel
    exact absurd (List.mem_append_left _ (opens text listed)) plain

end Traces

/-! ## The patterns -/

/-- A substitution that starts at marks keeps the pieces between them. -/
theorem traces_keeps (matchAt : Option Char → Text → Option (Nat × Text))
    (starts : ∀ before letter rest found, matchAt before (letter :: rest) = some found →
      letter ∈ marks) {letter : Char} {rest source : Text}
    (traces : Traces (letter :: rest) source) :
    ∃ piece behind source' origin, letter :: rest = piece ++ behind ∧ piece ≠ [] ∧
      Traces behind source' ∧ source = origin ++ source' ∧
      (piece = [letter] ∨ ∀ other ∈ piece, ∀ last tail, matchAt last (other :: tail) = none) ∧
      Traces piece origin := by
  have quiet : ∀ {piece : Text}, (∀ mark ∈ marks, mark ∉ piece) →
      ∀ other ∈ piece, ∀ last tail, matchAt last (other :: tail) = none := by
    intro piece absent other among last tail
    cases found : matchAt last (other :: tail) with
    | none => rfl
    | some result => exact absurd among (absent other (starts last other tail result found))
  generalize same : letter :: rest = word at traces
  cases traces with
  | nil => cases same
  | @char c out source plain behind =>
    obtain ⟨rfl, rfl⟩ := List.cons.inj same
    exact ⟨[letter], rest, source, [letter], rfl, List.cons_ne_nil _ _, behind, rfl, .inl rfl,
      .char plain .nil⟩
  | @entity c out source special behind =>
    have listed := mem_entities_of_isSome special
    have long : ∀ text ∈ entities, text ≠ [] := by decide +kernel
    refine ⟨escapeChar c, out, source, [c], rfl, long _ listed, behind, rfl, .inr (quiet ?_), ?_⟩
    · exact fun mark among => mark_not_mem_entity among _ listed
    · exact List.append_nil (escapeChar c) ▸ Traces.entity special .nil
  | @tag text mark out source listed behind =>
    have long : ∀ text ∈ inlineTags, text ≠ [] := by decide +kernel
    refine ⟨text, out, source, mark, rfl, long text listed, behind, rfl, .inr (quiet ?_), ?_⟩
    · exact fun letter among => mark_not_mem_tag among text listed
    · have traces : Traces (text ++ []) (mark ++ []) := .tag listed .nil
      simpa only [List.append_nil] using traces

theorem tagged_starts {pattern : Enclosure} {tag : Text} (marked : ∀ c ∈ pattern.mark, c ∈ marks)
    (nonempty : pattern.mark ≠ []) {keeps : Text → Bool} {before : Option Char} {letter : Char}
    {rest : Text} {found : Nat × Text}
    (match' : pattern.tagged tag keeps before (letter :: rest) = some found) :
    letter ∈ marks := by
  unfold Enclosure.tagged at match'
  obtain ⟨group, grouped, _⟩ := Option.map_eq_some_iff.mp match'
  obtain ⟨behind, same⟩ := Enclosure.group_spec grouped
  cases shape : pattern.mark with
  | nil => exact absurd shape nonempty
  | cons first others =>
    rw [shape] at same marked
    obtain ⟨rfl, _⟩ := List.cons.inj same
    exact marked letter List.mem_cons_self

/-- An enclosing pattern puts its tags in the place of its marks. -/
theorem traces_tagged (pattern : Enclosure) (tag : Text)
    (marked : ∀ c ∈ pattern.mark, c ∈ marks)
    (nonempty : pattern.mark ≠ []) (opening : ('<' :: (tag ++ ['>'])) ∈ inlineTags)
    (closes : ('<' :: '/' :: (tag ++ ['>'])) ∈ inlineTags) {text source : Text}
    (traces : Traces text source) :
    Traces (resub (pattern.tagged tag never) 0 none text) source := by
  refine @resub_rule Char (pattern.tagged tag never) Text Traces Traces (fun _ known => known)
    ?_ ?_ text source traces none
  · intro before letter rest source known _
    obtain ⟨piece, behind, source', origin, same, long, left, rfl, quiet, kept⟩ :=
      traces_keeps (pattern.tagged tag never)
        (fun _ _ _ _ found => tagged_starts marked nonempty found) known
    exact ⟨piece, behind, source', same, long, left, quiet, fun out given => kept.append given⟩
  · intro before letter rest source length replacement known found
    unfold Enclosure.tagged at found
    obtain ⟨group, grouped, same⟩ := Option.map_eq_some_iff.mp found
    obtain ⟨behind, shape⟩ := Enclosure.group_spec grouped
    obtain ⟨lengths, written⟩ := Prod.mk.inj same
    rw [shape] at known ⊢
    obtain ⟨inner, rfl, traced⟩ := known.front marked
    obtain ⟨origin, back, rfl, middle, left⟩ := traced.peel marked nonempty
    have positive := List.length_pos_iff.mpr nonempty
    have dropped : (pattern.mark ++ (group ++ (pattern.mark ++ behind))).drop length = behind := by
      have whole : pattern.mark ++ (group ++ (pattern.mark ++ behind)) =
          (pattern.mark ++ group ++ pattern.mark) ++ behind := by
        simp only [List.append_assoc]
      rw [whole, ← lengths, List.drop_left]
    refine ⟨?_, back, by rwa [dropped], fun out given => ?_⟩
    · rw [← lengths]
      simp only [List.length_append]
      omega
    · have kept : never (pattern.mark ++ group ++ pattern.mark) ≠ true := Bool.false_ne_true
      rw [← written, if_neg kept, List.append_assoc, List.append_assoc]
      exact .tag opening (middle.append (.tag closes given))

theorem traces_emphasised (python : Interpreter) (text : Text) :
    Traces (emphasised python (escape text)) text := by
  unfold emphasised
  have coded := traces_tagged inlineCode "code".toList (forall_mem_of_all (by decide +kernel))
    (by decide) (by decide +kernel) (by decide +kernel) (traces_escape text)
  have bolded := traces_tagged bold "b".toList (forall_mem_of_all (by decide +kernel))
    (by decide) (by decide +kernel) (by decide +kernel) coded
  have starred := traces_tagged italicStar "i".toList (forall_mem_of_all (by decide +kernel))
    (by decide) (by decide +kernel) (by decide +kernel) bolded
  have underlined := traces_tagged (italicUnder python) "i".toList
    (show ∀ c ∈ ['_'], c ∈ marks from forall_mem_of_all (by decide +kernel)) (List.cons_ne_nil _ _)
    (by decide +kernel) (by decide +kernel) starred
  exact traces_tagged strike "s".toList (forall_mem_of_all (by decide +kernel))
    (by decide) (by decide +kernel) (by decide +kernel) underlined

end BobbyBotique.Reader
