import BobbyBotique.Reader.Trace

/-!
# The tags of the reader

What the renderer writes is made of plain letters, entities and tags of its own.
An attribute holds a text of the renderer, or a piece of the source, escaped.
-/

namespace BobbyBotique.Reader

open Delivery

/-! ## The tags -/

/-- The tags without a piece of the source, beside the inline ones. -/
def blockTags : List Text :=
  ["<p>", "</p>", "<hr>", "<br>", "<ul>", "</ul>", "<ol>", "</ol>", "<li>", "</li>", "</a>",
    "<pre>", "</pre>", "</div>", "</span>", "</button>",
    "<div class=\"code-header\">", "<span class=\"code-lang\">", "<div class=\"code-actions\">",
    "<button class=\"code-action\" onclick=\"expandCode(this)\" title=\"Развернуть\">",
    "<button class=\"code-action\" onclick=\"copyCode(this)\">"].map String.toList

/-- The language of a fence as it is shown. -/
def Fence.lang (block : Fence) : Text :=
  if block.word = [] then "plaintext".toList else block.word

/-- A tag of the reader, for these inline texts and these fences of the source. -/
inductive ReaderTag (texts : List Text) (fences : List Fence) : Text → Prop where
  | inline {text : Text} (listed : text ∈ inlineTags) : ReaderTag texts fences text
  | block {text : Text} (listed : text ∈ blockTags) : ReaderTag texts fences text
  /-- The name of a heading is percent-encoded. -/
  | heading (level : Nat) (small : level ≤ 3) (name : Text)
      (encoded : ∀ c ∈ name, unreserved c = true ∨ c = '%') :
      ReaderTag texts fences
        ('<' :: 'h' :: Nat.toDigits 10 level ++ " id=\"".toList ++ name ++ "\">".toList)
  | endHeading (level : Nat) (small : level ≤ 3) :
      ReaderTag texts fences ("</".toList ++ 'h' :: Nat.toDigits 10 level ++ ">".toList)
  /-- The address of a link is a piece of an inline text and has a safe scheme. -/
  | anchor (url text : Text) (rendered : text ∈ texts) (piece : url <:+: text)
      (safe : urlScheme url ∈ safeSchemes) :
      ReaderTag texts fences ("<a href=\"".toList ++ escape url ++
        "\" target=\"_blank\" rel=\"noopener noreferrer\">".toList)
  | codeBlock (block : Fence) (fenced : block ∈ fences) :
      ReaderTag texts fences
        ("<div class=\"code-block\" data-lang=\"".toList ++ escape block.lang ++ "\">".toList)
  | download (block : Fence) (fenced : block ∈ fences) :
      ReaderTag texts fences
        ("<button class=\"code-action\" onclick=\"downloadCode(this)\" data-lang=\"".toList ++
          escape block.lang ++ "\">".toList)
  | code (block : Fence) (fenced : block ∈ fences) :
      ReaderTag texts fences
        ("<code class=\"language-".toList ++ escape block.lang ++ "\" data-code=\"".toList ++
          escape block.code ++ "\">".toList)

/-! ## Links -/

/-- The destinations of the links that become anchors. -/
def addresses (lib : Library) : Nat → Text → List Text
  | _, [] => []
  | skip + 1, _ :: rest => addresses lib skip rest
  | 0, c :: rest =>
    match linkParts (c :: rest) with
    | some (label, url) =>
      (if (address lib url).isSome then [url] else []) ++
        addresses lib (label.length + url.length + 3) rest
    | none => addresses lib 0 rest

/-- No tag of the inline patterns stands in the destination of an anchor. -/
def CleanLinks (lib : Library) (text : Text) : Prop :=
  ∀ url ∈ addresses lib 0 (emphasised lib.python (escape text)), '<' ∉ url

theorem addresses_skip (lib : Library) (skip : Nat) (word : Text) :
    addresses lib skip word = addresses lib 0 (word.drop skip) := by
  induction skip generalizing word with
  | zero => rfl
  | succ skip ih =>
    cases word with
    | nil => rfl
    | cons letter rest => exact ih rest

theorem addresses_pass (lib : Library) {piece : Text}
    (quiet : ∀ letter ∈ piece, ∀ rest, linkParts (letter :: rest) = none) (word : Text) :
    addresses lib 0 (piece ++ word) = addresses lib 0 word := by
  induction piece with
  | nil => rfl
  | cons letter rest ih =>
    rw [List.cons_append, addresses, quiet letter List.mem_cons_self]
    exact ih fun other among => quiet other (List.mem_cons_of_mem letter among)

/-- The parts of a link. -/
theorem linkParts_spec {text label url : Text} (found : linkParts text = some (label, url)) :
    ∃ rest, text = '[' :: (label ++ ']' :: '(' :: (url ++ ')' :: rest)) := by
  unfold linkParts at found
  split at found
  · next rest =>
      split at found
      · next behind shape =>
          dsimp only at found
          split at found
          · next parts =>
              obtain ⟨front, _⟩ := dropWhile_cons shape
              cases closed : behind.dropWhile (· ≠ ')') with
              | nil => exact absurd closed parts.2.2
              | cons c after =>
                obtain ⟨back, ended⟩ := dropWhile_cons closed
                have close : c = ')' := by simpa using ended
                cases found
                subst close
                refine ⟨after, ?_⟩
                rw [← back, ← front]
          · cases found
      · cases found
  · cases found

theorem link_starts {lib : Library} {before : Option Char} {letter : Char} {rest : Text}
    {found : Nat × Text} (match' : link lib before (letter :: rest) = some found) :
    letter ∈ marks := by
  unfold link at match'
  obtain ⟨⟨label, url⟩, parts, _⟩ := Option.map_eq_some_iff.mp match'
  obtain ⟨behind, same⟩ := linkParts_spec parts
  obtain ⟨rfl, _⟩ := List.cons.inj same
  decide

section

variable {lib : Library} {allowed : Char → Prop} {texts : List Text} {fences : List Fence}

/-- Traced text is made of letters of its source and tags. -/
theorem composed_traces {out source : Text} (traces : Traces out source)
    (known : ∀ c ∈ source, allowed c) :
    Composed (Rendered allowed (ReaderTag texts fences)) out := by
  induction traces with
  | nil => exact .nil
  | @char c out source plain _ ih =>
    exact .cons (.char plain (known c List.mem_cons_self))
      (ih fun other among => known other (List.mem_cons_of_mem c among))
  | @entity c out source special _ ih =>
    exact .cons ⟨.entity c, ⟨special, known c List.mem_cons_self⟩, rfl⟩
      (ih fun other among => known other (List.mem_cons_of_mem c among))
  | @tag text mark out source listed _ ih =>
    exact .cons (.tag (.inline listed))
      (ih fun other among => known other (List.mem_append_right mark among))

/-- An accepted destination without a tag is written as a piece of its source. -/
theorem address_spec {escapedUrl source url : Text} (traces : Traces escapedUrl source)
    (plain : '<' ∉ escapedUrl) (found : address lib escapedUrl = some url) :
    url <:+: source ∧ urlScheme url ∈ safeSchemes := by
  unfold address at found
  dsimp only at found
  split at found
  · next accepted =>
      obtain ⟨_, safe⟩ := Bool.and_eq_true_iff.mp accepted
      cases found
      refine ⟨?_, of_decide_eq_true safe⟩
      rw [traces.eq_escape plain, lib.unescape_escape]
      exact strip_isInfix source
  · cases found

theorem mem_blockTags_a : "</a>".toList ∈ blockTags := by decide +kernel

/-- A link is its label, or an anchor around it. -/
theorem composed_renderLink {label escapedUrl name origin line : Text}
    (shown : Traces label name) (traces : Traces escapedUrl origin)
    (known : ∀ c ∈ name, allowed c) (listed : line ∈ texts) (piece : origin <:+: line)
    (plain : (address lib escapedUrl).isSome = true → '<' ∉ escapedUrl) :
    Composed (Rendered allowed (ReaderTag texts fences)) (renderLink lib label escapedUrl) := by
  have label : Composed (Rendered allowed (ReaderTag texts fences)) label :=
    composed_traces shown known
  unfold renderLink
  cases found : address lib escapedUrl with
  | none => exact label
  | some url =>
    obtain ⟨inside, safe⟩ := address_spec traces (plain (by rw [found]; rfl)) found
    exact ((Composed.single (.tag (.anchor url line listed (inside.trans piece) safe))).append
      label).append (.single (.tag (.block mem_blockTags_a)))

/-- The inline markup of a text whose links are clean. -/
theorem composed_inline {text : Text} (clean : CleanLinks lib text)
    (known : ∀ c ∈ text, allowed c) (listed : text ∈ texts) :
    Composed (Rendered allowed (ReaderTag texts fences)) (inline lib text) := by
  refine @resub_rule Char (link lib) Text
    (fun word source => Traces word source ∧ source <:+ text ∧
      ∀ url ∈ addresses lib 0 word, '<' ∉ url)
    (fun out _ => Composed (Rendered allowed (ReaderTag texts fences)) out)
    (fun _ _ => .nil) ?_ ?_ (emphasised lib.python (escape text)) text
    ⟨traces_emphasised lib.python text, List.suffix_refl text, clean⟩ none
  · rintro before letter rest source ⟨traces, inside, clean⟩ unmatched
    obtain ⟨piece, behind, source', origin, same, long, left, rfl, quiet, kept⟩ :=
      traces_keeps (link lib) (fun _ _ _ _ found => link_starts found) traces
    have silent : ∀ letter ∈ piece, ∀ rest, piece ≠ [letter] →
        linkParts (letter :: rest) = none := by
      intro other among tail several
      rcases quiet with single | quiet
      · rw [single] at among
        obtain rfl := List.mem_singleton.mp among
        exact absurd single several
      · exact Option.map_eq_none_iff.mp (quiet other among none tail)
    have fewer : addresses lib 0 (letter :: rest) = addresses lib 0 behind := by
      by_cases single : piece = [letter]
      · subst single
        obtain ⟨_, rfl⟩ := List.cons.inj same
        rw [addresses, Option.map_eq_none_iff.mp unmatched]
      · rw [same]
        apply addresses_pass
        intro other among tail
        apply silent other among tail
        rintro rfl
        obtain ⟨rfl, _⟩ := List.cons.inj same
        exact single rfl
    refine ⟨piece, behind, source', same, long, ⟨left, ?_, fewer ▸ clean⟩, quiet, ?_⟩
    · exact (List.suffix_append origin source').trans inside
    · intro out given
      refine (composed_traces kept fun c among => ?_).append given
      exact known c (inside.subset (List.mem_append_left source' among))
  · rintro before letter rest source length replacement ⟨traces, inside, clean⟩ found
    unfold link at found
    obtain ⟨⟨label, url⟩, parts, same⟩ := Option.map_eq_some_iff.mp found
    obtain ⟨lengths, written⟩ := Prod.mk.inj same
    rw [addresses, parts] at clean
    dsimp only at clean lengths written
    obtain ⟨behind, shape⟩ := linkParts_spec parts
    rw [shape] at traces
    obtain ⟨_, opened, rfl, empty, labelled⟩ :=
      @Traces.split source [] (label ++ ']' :: '(' :: (url ++ ')' :: behind)) '[' (by decide) traces
    obtain rfl := empty.source_nil
    obtain ⟨name, named, rfl, shown, between⟩ :=
      @Traces.split opened label ('(' :: (url ++ ')' :: behind)) ']' (by decide) labelled
    obtain ⟨_, addressed, rfl, nothing, inner⟩ :=
      @Traces.split named [] (url ++ ')' :: behind) '(' (by decide) between
    obtain rfl := nothing.source_nil
    obtain ⟨origin, left, rfl, destination, last⟩ :=
      @Traces.split addressed url behind ')' (by decide) inner
    have dropped : (letter :: rest).drop length = behind := by
      have whole : '[' :: (label ++ ']' :: '(' :: (url ++ ')' :: behind)) =
          ('[' :: (label ++ ']' :: '(' :: (url ++ [')']))) ++ behind := by
        simp
      rw [shape, whole, List.drop_left' (by simp; omega)]
    have piece : origin <:+: text := by
      refine List.IsInfix.trans ?_ inside.isInfix
      exact ⟨'[' :: (name ++ ']' :: ['(']), ')' :: left, by simp⟩
    refine ⟨by omega, left, ⟨by rwa [dropped], ?_, ?_⟩, ?_⟩
    · refine List.IsSuffix.trans ?_ inside
      exact ⟨'[' :: (name ++ ']' :: '(' :: (origin ++ [')'])), by simp⟩
    · intro other among
      apply clean
      apply List.mem_append_right
      rw [addresses_skip]
      rw [← lengths] at among
      exact among
    · intro out given
      rw [← written]
      refine (composed_renderLink shown destination ?_ listed piece ?_).append given
      · intro c among
        exact known c (inside.subset (by simp [among]))
      · intro accepted
        apply clean
        rw [if_pos accepted]
        exact List.mem_append_left _ List.mem_cons_self

end

end BobbyBotique.Reader
