import Mathlib.Data.List.Nodup
import Mathlib.Algebra.GroupWithZero.Nat

/-!
# Nodes that share tokens

A search over nodes and tokens with two visited sets: a token is taken from the pending
ones, and the tokens of each node that it leads to are pending from then on.  It ends, and
it selects the nodes that are linked to the first ones.
-/

namespace BobbyBotique.Worklist

variable {Node Token : Type}

section

variable (tokensOf : Node → List Token) (nodesOf : Token → List Node)

/-- A node is reached from the first ones over tokens. -/
inductive Linked (first : List Node) : Node → Prop where
  | first {node : Node} (member : node ∈ first) : Linked first node
  | share {node other : Node} {token : Token} (linked : Linked first node)
      (has : token ∈ tokensOf node) (leads : other ∈ nodesOf token) : Linked first other

/-- A set with every node that a token of one of its nodes leads to. -/
def Closed (nodes : Node → Prop) : Prop :=
  ∀ node token other, nodes node → token ∈ tokensOf node → other ∈ nodesOf token → nodes other

/-- The linked nodes are the least closed set around the first ones. -/
theorem linked_least (first : List Node) :
    Closed tokensOf nodesOf (Linked tokensOf nodesOf first) ∧
      ∀ nodes : Node → Prop, (∀ node ∈ first, nodes node) → Closed tokensOf nodesOf nodes →
        ∀ node, Linked tokensOf nodesOf first node → nodes node := by
  refine ⟨fun node token other linked has leads => linked.share has leads, ?_⟩
  intro nodes around closed node linked
  induction linked with
  | first member => exact around _ member
  | share _ has leads ih => exact closed _ _ _ ih has leads

end

/-- The state of a search. -/
structure Search (Node Token : Type) where
  pending : List Token
  visited : List Token
  selected : List Node

variable [DecidableEq Node] [DecidableEq Token]
  (tokensOf : Node → List Token) (nodesOf : Token → List Node)

/-- A node that a token leads to. -/
def visit (search : Search Node Token) (node : Node) : Search Node Token :=
  if node ∈ search.selected then search
  else
    { search with
      selected := node :: search.selected
      pending := (tokensOf node).filter (fun token => token ∉ search.visited) ++ search.pending }

/-- One round of the search. -/
def round (search : Search Node Token) : Search Node Token :=
  match search.pending with
  | [] => search
  | token :: rest =>
    if token ∈ search.visited then { search with pending := rest }
    else (nodesOf token).foldl (visit tokensOf)
      { search with pending := rest, visited := token :: search.visited }

def rounds : Nat → Search Node Token → Search Node Token
  | 0, search => search
  | count + 1, search => rounds count (round tokensOf nodesOf search)

/-- The search from the first nodes. -/
def start (first : List Node) : Search Node Token := ⟨first.flatMap tokensOf, [], first⟩

/-! ## What the search keeps -/

/-- Every token of a selected node is visited or pending, and where a finished one leads is
selected. -/
structure Sound (first : List Node) (finished : List Token) (search : Search Node Token) :
    Prop where
  started : ∀ node ∈ first, node ∈ search.selected
  linked : ∀ node ∈ search.selected, Linked tokensOf nodesOf first node
  distinct : search.selected.Nodup
  origin : ∀ token ∈ search.pending, ∃ node ∈ search.selected, token ∈ tokensOf node
  covered : ∀ node ∈ search.selected, ∀ token ∈ tokensOf node,
    token ∈ search.visited ∨ token ∈ search.pending
  closed : ∀ token ∈ finished, ∀ node ∈ nodesOf token, node ∈ search.selected

section

variable {tokensOf : Node → List Token} {nodesOf : Token → List Node} {first : List Node}
  {finished : List Token} {search : Search Node Token}

omit [DecidableEq Node] [DecidableEq Token] in
theorem start_sound (distinct : first.Nodup) :
    Sound tokensOf nodesOf first [] (start tokensOf first) where
  started _ member := member
  linked _ member := .first member
  distinct := distinct
  origin _ member := List.mem_flatMap.mp member
  covered node member _ has := .inr (List.mem_flatMap.mpr ⟨node, member, has⟩)
  closed _ absurd := (List.not_mem_nil absurd).elim

theorem visit_keeps (node : Node) :
    (visit tokensOf search node).visited = search.visited ∧
      search.selected ⊆ (visit tokensOf search node).selected ∧
      node ∈ (visit tokensOf search node).selected := by
  unfold visit
  split
  · next known => exact ⟨rfl, fun _ member => member, known⟩
  · exact ⟨rfl, fun _ member => List.mem_cons_of_mem _ member, List.mem_cons_self⟩

theorem Sound.visit (sound : Sound tokensOf nodesOf first finished search) {node : Node}
    (linked : Linked tokensOf nodesOf first node) :
    Sound tokensOf nodesOf first finished (visit tokensOf search node) := by
  unfold Worklist.visit
  split
  · exact sound
  · next unknown =>
      constructor
      · exact fun other member => List.mem_cons_of_mem _ (sound.started other member)
      · intro other member
        rcases List.mem_cons.mp member with rfl | old
        · exact linked
        · exact sound.linked other old
      · exact List.nodup_cons.mpr ⟨unknown, sound.distinct⟩
      · intro token member
        rcases List.mem_append.mp member with new | old
        · exact ⟨node, List.mem_cons_self, List.mem_of_mem_filter new⟩
        · obtain ⟨other, selected, has⟩ := sound.origin token old
          exact ⟨other, List.mem_cons_of_mem _ selected, has⟩
      · intro other member token has
        rcases List.mem_cons.mp member with rfl | old
        · by_cases visited : token ∈ search.visited
          · exact .inl visited
          · exact .inr (List.mem_append_left _
              (List.mem_filter.mpr ⟨has, decide_eq_true visited⟩))
        · exact (sound.covered other old token has).imp id (List.mem_append_right _)
      · exact fun token done other leads => List.mem_cons_of_mem _
          (sound.closed token done other leads)

theorem Sound.visits (sound : Sound tokensOf nodesOf first finished search) {nodes : List Node}
    (linked : ∀ node ∈ nodes, Linked tokensOf nodesOf first node) :
    Sound tokensOf nodesOf first finished (nodes.foldl (Worklist.visit tokensOf) search) ∧
      (nodes.foldl (Worklist.visit tokensOf) search).visited = search.visited ∧
      search.selected ⊆ (nodes.foldl (Worklist.visit tokensOf) search).selected ∧
      ∀ node ∈ nodes, node ∈ (nodes.foldl (Worklist.visit tokensOf) search).selected := by
  induction nodes generalizing search with
  | nil => exact ⟨sound, rfl, fun _ member => member, fun _ absurd =>
    (List.not_mem_nil absurd).elim⟩
  | cons node rest ih =>
    obtain ⟨visited, more, here⟩ := @visit_keeps _ _ _ _ tokensOf search node
    obtain ⟨after, same, further, all⟩ := ih (sound.visit (linked node List.mem_cons_self))
      fun other member => linked other (List.mem_cons_of_mem _ member)
    refine ⟨after, same.trans visited, fun _ member => further (more member), ?_⟩
    intro other member
    rcases List.mem_cons.mp member with rfl | later
    · exact further here
    · exact all other later

theorem Sound.round (sound : Sound tokensOf nodesOf first search.visited search) :
    Sound tokensOf nodesOf first (round tokensOf nodesOf search).visited
      (round tokensOf nodesOf search) := by
  unfold Worklist.round
  split
  · exact sound
  · next token rest shape =>
      have origin := sound.origin token (shape ▸ List.mem_cons_self)
      split
      · next known =>
          refine { sound with origin := ?_, covered := ?_ }
          · exact fun other member => sound.origin other (shape ▸ List.mem_cons_of_mem _ member)
          · intro node member other has
            rcases sound.covered node member other has with visited | waits
            · exact .inl visited
            · rw [shape] at waits
              rcases List.mem_cons.mp waits with rfl | behind
              · exact .inl known
              · exact .inr behind
      · obtain ⟨node, member, has⟩ := origin
        have begun : Sound tokensOf nodesOf first search.visited
            { search with pending := rest, visited := token :: search.visited } := by
          refine { sound with origin := ?_, covered := ?_ }
          · exact fun other member => sound.origin other (shape ▸ List.mem_cons_of_mem _ member)
          · intro node member other has
            rcases sound.covered node member other has with visited | waits
            · exact .inl (List.mem_cons_of_mem _ visited)
            · rw [shape] at waits
              rcases List.mem_cons.mp waits with rfl | behind
              · exact .inl List.mem_cons_self
              · exact .inr behind
        obtain ⟨after, visited, _, all⟩ := begun.visits fun other leads =>
          (sound.linked node member).share has leads
        refine { after with closed := ?_ }
        rw [visited]
        intro other done leading leads
        rcases List.mem_cons.mp done with rfl | old
        · exact all leading leads
        · exact after.closed other old leading leads

theorem Sound.rounds (sound : Sound tokensOf nodesOf first search.visited search) (count : Nat) :
    Sound tokensOf nodesOf first (rounds tokensOf nodesOf count search).visited
      (rounds tokensOf nodesOf count search) := by
  induction count generalizing search with
  | zero => exact sound
  | succ count ih => exact ih sound.round

omit [DecidableEq Node] [DecidableEq Token] in
/-- Without pending tokens the selected nodes are the linked ones. -/
theorem Sound.selects (sound : Sound tokensOf nodesOf first search.visited search)
    (ended : search.pending = []) (node : Node) :
    node ∈ search.selected ↔ Linked tokensOf nodesOf first node := by
  refine ⟨sound.linked node, fun linked => ?_⟩
  induction linked with
  | first member => exact sound.started _ member
  | @share node other token _ has leads ih =>
    rcases sound.covered node ih token has with visited | waits
    · exact sound.closed token visited other leads
    · rw [ended] at waits
      exact absurd waits List.not_mem_nil

/-! ## The search ends -/

/-- The tokens that can still become pending. -/
def unseen (tokensOf : Node → List Token) (nodes selected : List Node) : Nat :=
  ((nodes.filter (fun node => node ∉ selected)).map fun node => (tokensOf node).length).sum

omit [DecidableEq Token] in
theorem unseen_cons_le (nodes selected : List Node) (node : Node) :
    unseen tokensOf nodes (node :: selected) ≤ unseen tokensOf nodes selected := by
  induction nodes with
  | nil => exact Nat.le_refl _
  | cons other rest ih =>
    unfold unseen at ih ⊢
    simp only [List.filter_cons, List.mem_cons, not_or, decide_eq_true_eq] at ih ⊢
    by_cases known : other ∈ selected
    · simp only [known, not_true, and_false, if_false]
      exact ih
    · by_cases same : other = node
      · simp only [same, not_true, false_and, if_false]
        split
        · rw [List.map_cons, List.sum_cons]
          omega
        · exact ih
      · simp only [known, same, not_false_eq_true, and_self, if_true, List.map_cons, List.sum_cons]
        omega

omit [DecidableEq Token] in
theorem unseen_cons {nodes selected : List Node} {node : Node} (member : node ∈ nodes)
    (unknown : node ∉ selected) : unseen tokensOf nodes (node :: selected) +
      (tokensOf node).length ≤ unseen tokensOf nodes selected := by
  induction nodes with
  | nil => exact absurd member List.not_mem_nil
  | cons other rest ih =>
    have less : unseen tokensOf rest (node :: selected) ≤ unseen tokensOf rest selected :=
      unseen_cons_le ..
    unfold unseen at ih less ⊢
    simp only [List.filter_cons, List.mem_cons, not_or, decide_eq_true_eq] at ih less ⊢
    rcases List.mem_cons.mp member with rfl | later
    · simp only [unknown, not_true, false_and, if_false, not_false_eq_true, if_true,
        List.map_cons, List.sum_cons]
      omega
    · have shorter := ih later
      by_cases known : other ∈ selected
      · simp only [known, not_true, and_false, if_false]
        exact shorter
      · by_cases same : other = node
        · simp only [same, not_true, false_and, if_false, unknown, not_false_eq_true, if_true,
            List.map_cons, List.sum_cons]
          omega
        · simp only [known, same, not_false_eq_true, and_self, if_true, List.map_cons,
            List.sum_cons]
          omega

/-- The rounds that a search needs at most. -/
def weight (tokensOf : Node → List Token) (nodes : List Node) (search : Search Node Token) : Nat :=
  search.pending.length + unseen tokensOf nodes search.selected

theorem visits_weight {nodes : List Node} (inside : List Node) (known : inside ⊆ nodes)
    (search : Search Node Token) :
    weight tokensOf nodes (inside.foldl (visit tokensOf) search) ≤
      weight tokensOf nodes search := by
  induction inside generalizing search with
  | nil => exact Nat.le_refl _
  | cons node rest ih =>
    refine Nat.le_trans (ih (fun _ member => known (List.mem_cons_of_mem _ member)) _) ?_
    unfold visit
    split
    · exact Nat.le_refl _
    · next unknown =>
        have less : unseen tokensOf nodes (node :: search.selected) +
            (tokensOf node).length ≤ unseen tokensOf nodes search.selected :=
          unseen_cons (known List.mem_cons_self) unknown
        have few := List.length_filter_le (fun token => decide (token ∉ search.visited))
          (tokensOf node)
        unfold weight
        dsimp only
        rw [List.length_append]
        omega

theorem round_weight {nodes : List Node} (inside : ∀ token, nodesOf token ⊆ nodes)
    (search : Search Node Token) :
    search.pending = [] ∨ weight tokensOf nodes (round tokensOf nodesOf search) <
      weight tokensOf nodes search := by
  unfold round
  split
  · next none => exact .inl none
  · next token rest shape =>
      right
      have shorter : ∀ visited, weight tokensOf nodes ⟨rest, visited, search.selected⟩ <
          weight tokensOf nodes search := by
        intro visited
        unfold weight
        rw [shape, List.length_cons]
        dsimp only
        omega
      split
      · exact shorter _
      · exact Nat.lt_of_le_of_lt (visits_weight _ (inside token) _) (shorter _)

theorem round_ended (ended : search.pending = []) : round tokensOf nodesOf search = search := by
  unfold round
  rw [ended]

theorem rounds_ended (ended : search.pending = []) (count : Nat) :
    rounds tokensOf nodesOf count search = search := by
  induction count with
  | zero => rfl
  | succ count ih => rw [rounds, round_ended ended, ih]

/-- As many rounds as the weight are enough. -/
theorem rounds_end {nodes : List Node} (inside : ∀ token, nodesOf token ⊆ nodes) {count : Nat}
    (search : Search Node Token) (enough : weight tokensOf nodes search ≤ count) :
    (rounds tokensOf nodesOf count search).pending = [] := by
  induction count generalizing search with
  | zero =>
    unfold weight at enough
    exact List.length_eq_zero_iff.mp (Nat.le_zero.mp (Nat.le_trans (Nat.le_add_right ..) enough))
  | succ count ih =>
    rcases @round_weight _ _ _ _ tokensOf nodesOf nodes inside search with ended | less
    · rw [rounds_ended ended]
      exact ended
    · exact ih _ (by omega)

end

end BobbyBotique.Worklist
