import BobbyBotique.Reader.Contents
import BobbyBotique.Reader.Inert

/-!
# Where the links of the contents land

The lines of the entries count up, and so do those of the headings.  An entry whose
line is a heading with the same slug lands there when no other heading has that slug.
-/

namespace BobbyBotique.Reader

open Delivery

/-! ## Lines count up -/

/-- A letter and one behind it: the lines count up, and a newline ends its line. -/
def Before (first second : Nat × Char) : Prop :=
  first.1 ≤ second.1 ∧ (first.2 = '\n' → first.1 < second.1)

theorem placed_rising (line : Nat) (text : Text) :
    (placed line text).Pairwise Before ∧ ∀ letter ∈ placed line text, line ≤ letter.1 := by
  induction text generalizing line with
  | nil => exact ⟨.nil, fun _ absurd => (List.not_mem_nil absurd).elim⟩
  | cons c rest ih =>
    obtain ⟨rising, bound⟩ := ih (if c = '\n' then line + 1 else line)
    constructor
    · refine List.pairwise_cons.mpr ⟨fun later member => ?_, rising⟩
      have least := bound later member
      constructor
      · refine Nat.le_trans ?_ least
        split <;> omega
      · intro newline
        rw [if_pos newline] at least
        exact least
    · intro letter member
      rcases List.mem_cons.mp member with rfl | later
      · exact Nat.le_refl _
      · refine Nat.le_trans ?_ (bound letter later)
        split <;> omega

theorem outsideFences_sublist (skip : Nat) (text : Placed) :
    (outsideFences skip text).Sublist text := by
  induction text generalizing skip with
  | nil => cases skip <;> exact .slnil
  | cons letter rest ih =>
    cases skip with
    | succ skip => exact (ih skip).cons letter
    | zero =>
      rw [outsideFences]
      split
      · exact (ih _).cons letter
      · exact (ih 0).cons_cons letter

section

variable {python : Interpreter}

/-- The markers stand on lines of the source. -/
theorem mem_protectPlaced {skip index : Nat} {before : Option Char} {text : Placed}
    {letter : Nat × Char} (member : letter ∈ protectPlaced python skip before index text) :
    ∃ other ∈ text, other.1 = letter.1 := by
  induction text generalizing skip index before with
  | nil => cases skip <;> exact absurd member List.not_mem_nil
  | cons first rest ih =>
    have later : (∃ other ∈ rest, other.1 = letter.1) →
        ∃ other ∈ first :: rest, other.1 = letter.1 :=
      fun ⟨other, listed, same⟩ => ⟨other, List.mem_cons_of_mem _ listed, same⟩
    cases skip with
    | succ skip => exact later (ih member)
    | zero =>
      rw [protectPlaced] at member
      split at member
      · rcases List.mem_append.mp member with marked | behind
        · obtain ⟨c, _, rfl⟩ := List.mem_map.mp marked
          exact ⟨first, List.mem_cons_self, rfl⟩
        · exact later (ih behind)
      · rcases List.mem_cons.mp member with rfl | behind
        · exact ⟨letter, List.mem_cons_self, rfl⟩
        · exact later (ih behind)

theorem protectPlaced_rising {skip index : Nat} {before : Option Char} {text : Placed}
    (rising : text.Pairwise Before) :
    (protectPlaced python skip before index text).Pairwise Before := by
  induction text generalizing skip index before with
  | nil => cases skip <;> exact .nil
  | cons first rest ih =>
    obtain ⟨ahead, rising⟩ := List.pairwise_cons.mp rising
    cases skip with
    | succ skip => exact ih rising
    | zero =>
      rw [protectPlaced]
      split
      · refine List.pairwise_append.mpr ⟨List.pairwise_map.mpr ?_, ih rising, ?_⟩
        · refine List.pairwise_of_forall_mem_list fun c member _ _ => ?_
          exact ⟨Nat.le_refl _, fun newline =>
            absurd (newline ▸ member) (newline_not_mem_marker index)⟩
        · intro letter marked later behind
          obtain ⟨c, member, rfl⟩ := List.mem_map.mp marked
          obtain ⟨other, listed, same⟩ := mem_protectPlaced behind
          exact ⟨same ▸ (ahead other listed).1, fun newline =>
            absurd (newline ▸ member) (newline_not_mem_marker index)⟩
      · refine List.pairwise_cons.mpr ⟨fun later behind => ?_, ih rising⟩
        obtain ⟨other, listed, same⟩ := mem_protectPlaced behind
        exact ⟨same ▸ (ahead other listed).1,
          fun newline => same ▸ (ahead other listed).2 newline⟩

end

theorem mem_placedLines {text line : Placed} {letter : Nat × Char}
    (listed : line ∈ placedLines text) (member : letter ∈ line) : letter ∈ text := by
  induction text generalizing line with
  | nil =>
    cases List.mem_singleton.mp listed
    exact absurd member List.not_mem_nil
  | cons first rest ih =>
    rw [placedLines] at listed
    split at listed
    · rcases List.mem_cons.mp listed with rfl | later
      · exact absurd member List.not_mem_nil
      · exact List.mem_cons_of_mem _ (ih later member)
    · split at listed
      · cases List.mem_singleton.mp listed
        cases List.mem_singleton.mp member
        exact List.mem_cons_self
      · next front more shape =>
          rw [shape] at ih
          rcases List.mem_cons.mp listed with rfl | later
          · rcases List.mem_cons.mp member with rfl | inner
            · exact List.mem_cons_self
            · exact List.mem_cons_of_mem _ (ih List.mem_cons_self inner)
          · exact List.mem_cons_of_mem _ (ih (List.mem_cons_of_mem _ later) member)

/-- Behind the first newline the lines have greater numbers. -/
theorem later_lines {number : Nat} {text : Placed} (rising : text.Pairwise Before)
    (bound : ∀ letter ∈ text, number ≤ letter.1) :
    ∀ line ∈ (placedLines text).tail, ∀ letter ∈ line, number < letter.1 := by
  induction text with
  | nil => exact fun _ absurd => (List.not_mem_nil absurd).elim
  | cons first rest ih =>
    obtain ⟨ahead, rising⟩ := List.pairwise_cons.mp rising
    intro line listed letter member
    rw [placedLines] at listed
    split at listed
    · next newline =>
        exact Nat.lt_of_le_of_lt (bound first List.mem_cons_self)
          ((ahead letter (mem_placedLines listed member)).2 newline)
    · have later := ih rising (fun other among => bound other (List.mem_cons_of_mem _ among))
      split at listed
      · exact absurd listed List.not_mem_nil
      · next front more shape =>
          rw [shape] at later
          exact later line listed letter member

theorem placedLines_rising {text : Placed} (rising : text.Pairwise Before) :
    (placedLines text).Pairwise fun first second =>
      ∀ letter ∈ first, ∀ later ∈ second, letter.1 < later.1 := by
  induction text with
  | nil => exact List.pairwise_singleton _ _
  | cons first rest ih =>
    obtain ⟨ahead, rising⟩ := List.pairwise_cons.mp rising
    rw [placedLines]
    split
    · exact List.pairwise_cons.mpr
        ⟨fun _ _ _ absurd => (List.not_mem_nil absurd).elim, ih rising⟩
    · have below := later_lines rising fun other among => (ahead other among).1
      have lines := ih rising
      split
      · exact List.pairwise_singleton _ _
      · next front more shape =>
          rw [shape] at below lines
          obtain ⟨start, lines⟩ := List.pairwise_cons.mp lines
          refine List.pairwise_cons.mpr ⟨fun line listed letter member => ?_, lines⟩
          rcases List.mem_cons.mp member with rfl | inner
          · exact below line listed
          · exact start line listed letter inner

section

variable {lib : Library} {source : Text}

theorem pageHeadings_rising :
    (pageHeadings lib source).Pairwise fun first second => first.1 < second.1 := by
  refine List.pairwise_filterMap.mpr (List.Pairwise.imp ?_
    (placedLines_rising (protectPlaced_rising (placed_rising 0 source).1)))
  intro first second lines heading found later behind
  cases first with
  | nil => cases found
  | cons letter front =>
    cases second with
    | nil => cases behind
    | cons other back =>
      dsimp only [List.head?_cons] at found behind
      split at found
      · next same _ =>
          cases same
          cases found
          split at behind
          · next same _ =>
              cases same
              cases behind
              exact lines letter List.mem_cons_self other List.mem_cons_self
          · cases behind
      · cases found

theorem headingAt_head {c : Char} {rest : Text} {found : Nat × Nat × Text}
    (matched : headingAt (c :: rest) = some found) : c = '#' := by
  refine Decidable.byContradiction fun differs => ?_
  have front : (c :: rest).takeWhile (· = '#') = [] :=
    List.takeWhile_cons_of_neg (by simpa using differs)
  unfold headingAt at matched
  rw [front] at matched
  cases matched

theorem mem_entriesFrom {skip : Nat} {lineStart : Bool} {text : Placed} {entry : Entry}
    (member : entry ∈ entriesFrom lib skip lineStart text) :
    ∃ letter ∈ text, letter.1 = entry.line := by
  induction text generalizing skip lineStart with
  | nil => cases skip <;> exact absurd member List.not_mem_nil
  | cons first rest ih =>
    have later : (∃ letter ∈ rest, letter.1 = entry.line) →
        ∃ letter ∈ first :: rest, letter.1 = entry.line :=
      fun ⟨letter, listed, same⟩ => ⟨letter, List.mem_cons_of_mem _ listed, same⟩
    cases skip with
    | succ skip => exact later (ih member)
    | zero =>
      rw [entriesFrom] at member
      split at member
      · rcases List.mem_cons.mp member with rfl | behind
        · exact ⟨first, List.mem_cons_self, rfl⟩
        · exact later (ih behind)
      · exact later (ih member)

/-- Inside of a line the next match is on a later one. -/
theorem later_entries {number skip : Nat} {text : Placed} (rising : text.Pairwise Before)
    (bound : ∀ letter ∈ text, number ≤ letter.1) :
    ∀ entry ∈ entriesFrom lib skip false text, number < entry.line := by
  induction text generalizing skip with
  | nil => cases skip <;> exact fun _ absurd => (List.not_mem_nil absurd).elim
  | cons first rest ih =>
    obtain ⟨ahead, rising⟩ := List.pairwise_cons.mp rising
    have after : ∀ skip, ∀ entry ∈ entriesFrom lib skip (first.2 = '\n') rest,
        number < entry.line := by
      intro skip entry member
      by_cases newline : first.2 = '\n'
      · obtain ⟨letter, listed, same⟩ := mem_entriesFrom member
        exact same ▸ Nat.lt_of_le_of_lt (bound first List.mem_cons_self)
          ((ahead letter listed).2 newline)
      · rw [decide_eq_false newline] at member
        exact ih rising (fun other among => bound other (List.mem_cons_of_mem _ among))
          entry member
    cases skip with
    | succ skip => exact after skip
    | zero => exact after 0

theorem entriesFrom_rising {skip : Nat} {lineStart : Bool} {text : Placed}
    (rising : text.Pairwise Before) :
    (entriesFrom lib skip lineStart text).Pairwise fun first second =>
      first.line < second.line := by
  induction text generalizing skip lineStart with
  | nil => cases skip <;> exact .nil
  | cons first rest ih =>
    obtain ⟨ahead, rising⟩ := List.pairwise_cons.mp rising
    cases skip with
    | succ skip => exact ih rising
    | zero =>
      rw [entriesFrom]
      split
      · next length level content found =>
          have sign : first.2 = '#' := by
            split at found
            · exact headingAt_head found
            · cases found
          refine List.pairwise_cons.mpr ⟨?_, ih rising⟩
          have inside : decide (first.2 = '\n') = false := by
            rw [sign]
            decide
          rw [inside]
          exact later_entries rising fun other among => (ahead other among).1
      · exact ih rising

theorem taken_rising :
    (taken lib source).Pairwise fun first second => first.line < second.line :=
  entriesFrom_rising ((placed_rising 0 source).1.sublist (outsideFences_sublist 0 _))

end

/-! ## Numbering -/

theorem numbered_length (seen : Dict Text Nat) (entries : List Entry) :
    (numbered seen entries).length = entries.length := by
  induction entries generalizing seen with
  | nil => rfl
  | cons entry rest ih =>
    rw [numbered]
    split <;> exact congrArg (· + 1) (ih _)

/-- The numbering keeps the lines. -/
theorem numbered_lines (seen : Dict Text Nat) (entries : List Entry) :
    (numbered seen entries).map Entry.line = entries.map Entry.line := by
  induction entries generalizing seen with
  | nil => rfl
  | cons entry rest ih =>
    rw [numbered]
    split <;> exact congrArg (entry.line :: ·) (ih _)

/-- A slug behind which the number of its earlier headings stands. -/
def suffixed (slug : Text) : Nat → Text
  | 0 => slug
  | count + 1 => slug ++ '-' :: Nat.toDigits 10 (count + 1)

/-- The lines of headings with their slugs, numbered by the headings before them. -/
def anchored : List Text → List Entry → List (Nat × Text)
  | _, [] => []
  | earlier, entry :: rest =>
    (entry.line, suffixed entry.anchor (earlier.count entry.anchor)) ::
      anchored (entry.anchor :: earlier) rest

/-- What `seen_anchors` holds is one less than the number of earlier headings. -/
theorem numbered_anchored {seen : Dict Text Nat} {earlier : List Text} (entries : List Entry)
    (counts : ∀ anchor, seen.get? anchor =
      if earlier.count anchor = 0 then none else some (earlier.count anchor - 1)) :
    (numbered seen entries).map (fun entry => (entry.line, entry.anchor)) =
      anchored earlier entries := by
  induction entries generalizing seen earlier with
  | nil => rfl
  | cons entry rest ih =>
    have further : ∀ anchor, (seen.set entry.anchor (earlier.count entry.anchor)).get? anchor =
        if (entry.anchor :: earlier).count anchor = 0 then none
        else some ((entry.anchor :: earlier).count anchor - 1) := by
      intro anchor
      rw [Dict.get?_set]
      split
      · next same =>
          subst same
          rw [List.count_cons_self, if_neg (Nat.succ_ne_zero _)]
          rfl
      · next ne => rw [counts, List.count_cons_of_ne fun same => ne same.symm]
    have held := counts entry.anchor
    rw [numbered, anchored, held]
    cases number : earlier.count entry.anchor with
    | zero =>
      rw [number] at further
      exact congrArg ((entry.line, entry.anchor) :: ·) (ih further)
    | succ count =>
      rw [number] at further
      exact congrArg (_ :: ·) (ih further)

/-- Anchors that differ are not numbered. -/
theorem numbered_distinct {seen : Dict Text Nat} {entries : List Entry}
    (fresh : ∀ entry ∈ entries, seen.get? entry.anchor = none)
    (distinct : (entries.map Entry.anchor).Nodup) : numbered seen entries = entries := by
  induction entries generalizing seen with
  | nil => rfl
  | cons entry rest ih =>
    obtain ⟨unlisted, distinct⟩ := List.nodup_cons.mp distinct
    rw [numbered, fresh entry List.mem_cons_self]
    refine congrArg (entry :: ·) (ih (fun other member => ?_) distinct)
    rw [Dict.get?_set_ne]
    · exact fresh other (List.mem_cons_of_mem _ member)
    · exact fun same => unlisted (same ▸ List.mem_map_of_mem member)

/-! ## The links -/

/-- Every entry has an anchor of its own, and it is the id of the heading on its line
and of no other; the headings stand in the order of the entries. -/
structure Lands (entries : List Entry) (headings : List (Nat × Text)) : Prop where
  distinct : (entries.map Entry.anchor).Nodup
  ordered : (entries.map fun entry => (entry.line, entry.anchor)).Sublist headings
  once : ∀ entry ∈ entries, headings.filter (fun heading => heading.2 = entry.anchor) =
    [(entry.line, entry.anchor)]

/-- The line of every entry is a heading with the same slug, and no other line is one. -/
structure Matched (entries : List Entry) (headings : List (Nat × Text)) : Prop where
  shown : ∀ entry ∈ entries, (entry.line, entry.anchor) ∈ headings
  apart : ∀ entry ∈ entries, ∀ heading ∈ headings, heading.2 = entry.anchor → heading.1 = entry.line

instance : Std.Antisymm fun first second : Nat × Text => first.1 < second.1 :=
  ⟨fun _ _ less greater => absurd less (Nat.lt_asymm greater)⟩

theorem lands_of_matched {entries : List Entry} {headings : List (Nat × Text)}
    (lines : entries.Pairwise fun first second => first.line < second.line)
    (rising : headings.Pairwise fun first second => first.1 < second.1)
    (matched : Matched entries headings) : Lands entries headings := by
  have nodup : headings.Nodup :=
    rising.imp fun less same => absurd (same ▸ less) (Nat.lt_irrefl _)
  refine ⟨?_, ?_, fun entry member => ?_⟩
  · refine List.pairwise_map.mpr (lines.imp_of_mem fun {first second} front back less same => ?_)
    have line := matched.apart first front _ (matched.shown second back) same.symm
    exact absurd less (Nat.not_lt_of_le (Nat.le_of_eq line))
  · have pairs : (entries.map fun entry => (entry.line, entry.anchor)).Pairwise
        fun first second => first.1 < second.1 := List.pairwise_map.mpr lines
    have known : (entries.map fun entry => (entry.line, entry.anchor)) ⊆ headings := by
      intro pair member
      obtain ⟨entry, listed, rfl⟩ := List.mem_map.mp member
      exact matched.shown entry listed
    have apart : (entries.map fun entry => (entry.line, entry.anchor)).Nodup :=
      pairs.imp fun less same => absurd (same ▸ less) (Nat.lt_irrefl _)
    exact List.sublist_of_subperm_of_pairwise (List.subperm_of_subset apart known) pairs rising
  · refine List.perm_singleton.mp ((List.perm_ext_iff_of_nodup (nodup.filter _)
      (List.nodup_singleton _)).mpr fun heading => ?_)
    rw [List.mem_filter, List.mem_singleton, decide_eq_true_eq]
    constructor
    · rintro ⟨listed, same⟩
      exact Prod.ext (matched.apart entry member heading listed same) same
    · rintro rfl
      exact ⟨matched.shown entry member, rfl⟩

theorem lands_iff {entries : List Entry} {headings : List (Nat × Text)}
    (lines : entries.Pairwise fun first second => first.line < second.line)
    (rising : headings.Pairwise fun first second => first.1 < second.1) :
    Lands entries headings ↔ Matched entries headings := by
  refine ⟨fun lands => ⟨fun entry member => ?_, fun entry member heading listed same => ?_⟩,
    lands_of_matched lines rising⟩
  · exact lands.ordered.subset (List.mem_map_of_mem member)
  · have found : heading ∈ headings.filter fun heading => heading.2 = entry.anchor :=
      List.mem_filter.mpr ⟨listed, decide_eq_true same⟩
    rw [lands.once entry member] at found
    cases List.mem_singleton.mp found
    rfl

section

variable (lib : Library) (source : Text)

/-- The contents are too short to be shown, or the page has each slug that they take, with
the number of its earlier headings, on the same line and on no other. -/
def Answered : Prop :=
  (taken lib source).length < 2 ∨ ∀ wanted ∈ anchored [] (taken lib source),
    wanted ∈ pageHeadings lib source ∧
      ∀ heading ∈ pageHeadings lib source, heading.2 = wanted.2 → heading.1 = wanted.1

/-- The contents are too short to be shown, or every heading that they take is one of the
page with the same slug, and no other heading of the page has it. -/
def Clear : Prop :=
  (taken lib source).length < 2 ∨ Matched (taken lib source) (pageHeadings lib source)

/-- The contents and the page make the same slug of a line. -/
def Agree : Prop :=
  ∀ entry ∈ taken lib source, ∀ heading ∈ pageHeadings lib source,
    heading.1 = entry.line → heading.2 = entry.anchor

end

section

variable {lib : Library} {source : Text}

theorem numbered_taken :
    (numbered .empty (taken lib source)).map (fun entry => (entry.line, entry.anchor)) =
      anchored [] (taken lib source) :=
  numbered_anchored _ fun _ => Dict.get?_empty _

theorem numbered_rising : (numbered .empty (taken lib source)).Pairwise
    fun first second => first.line < second.line := by
  have lines : ((taken lib source).map Entry.line).Pairwise (· < ·) :=
    List.pairwise_map.mpr taken_rising
  rw [← numbered_lines .empty] at lines
  exact List.pairwise_map.mp lines

/-- The links land when the numbered slugs are those of the page. -/
theorem matched_numbered :
    Matched (numbered .empty (taken lib source)) (pageHeadings lib source) ↔
      ∀ wanted ∈ anchored [] (taken lib source), wanted ∈ pageHeadings lib source ∧
        ∀ heading ∈ pageHeadings lib source, heading.2 = wanted.2 → heading.1 = wanted.1 := by
  rw [← numbered_taken, List.forall_mem_map]
  exact ⟨fun matched entry member => ⟨matched.shown entry member, matched.apart entry member⟩,
    fun all => ⟨fun entry member => (all entry member).1, fun entry member => (all entry member).2⟩⟩

theorem lands_iff_answered :
    Lands (extractToc lib source) (pageHeadings lib source) ↔ Answered lib source := by
  unfold extractToc Answered
  dsimp only
  rw [numbered_length]
  split
  · next long =>
      rw [lands_iff numbered_rising pageHeadings_rising, matched_numbered]
      exact (or_iff_right (Nat.not_lt_of_le long)).symm
  · next short =>
      exact ⟨fun _ => .inl (Nat.lt_of_not_le short), fun _ =>
        ⟨.nil, List.nil_sublist _, fun _ absurd => (List.not_mem_nil absurd).elim⟩⟩

theorem Clear.answered (clear : Clear lib source) : Answered lib source := by
  refine clear.imp id fun matched => ?_
  have distinct := (lands_of_matched taken_rising pageHeadings_rising matched).distinct
  rw [← matched_numbered, numbered_distinct (fun _ _ => Dict.get?_empty _) distinct]
  exact matched

/-- An anchor that is the slug of its line has no number. -/
theorem Answered.clear (answered : Answered lib source) (agree : Agree lib source) :
    Clear lib source := by
  refine answered.imp id fun all => ?_
  have matched := matched_numbered.mpr all
  have own : ∀ entry ∈ taken lib source, ∃ other ∈ numbered .empty (taken lib source),
      other.line = entry.line ∧ other.anchor = entry.anchor := by
    intro entry member
    have line := @List.mem_map_of_mem _ _ _ _ Entry.line member
    rw [← numbered_lines .empty] at line
    obtain ⟨other, listed, same⟩ := List.mem_map.mp line
    exact ⟨other, listed, same, agree entry member _ (matched.shown other listed) same⟩
  constructor
  · intro entry member
    obtain ⟨other, listed, line, anchor⟩ := own entry member
    exact line ▸ anchor ▸ matched.shown other listed
  · intro entry member heading shown same
    obtain ⟨other, listed, line, anchor⟩ := own entry member
    exact (matched.apart other listed heading shown (same.trans anchor.symm)).trans line

end

end BobbyBotique.Reader
