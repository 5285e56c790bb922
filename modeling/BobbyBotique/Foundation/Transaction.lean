import Mathlib.Tactic.TypeStar

/-!
# Transactions

A transaction either raises an error, and nothing happened, or ends in a
result.  `Ends` says of both outcomes what may come out; its rules follow the
shape of the program.
-/

namespace BobbyBotique

/-- The transaction raises only errors that may happen, and what it ends in
meets the postcondition. -/
def Ends {E A : Type} (mayFail : E → Prop) (post : A → Prop) : Except E A → Prop
  | .ok result => post result
  | .error failure => mayFail failure

namespace Ends

variable {E A B : Type} {mayFail : E → Prop} {post : A → Prop}

theorem mono {weaker : A → Prop} {outcome : Except E A} (ends : Ends mayFail post outcome)
    (implies : ∀ result, post result → weaker result) : Ends mayFail weaker outcome := by
  cases outcome with
  | ok result => exact implies result ends
  | error failure => exact ends

theorem map {final : B → Prop} {outcome : Except E A} {change : A → B}
    (ends : Ends mayFail (fun result => final (change result)) outcome) :
    Ends mayFail final (change <$> outcome) := by
  cases outcome with
  | ok | error => exact ends

theorem bind {final : B → Prop} {first : Except E A} {rest : A → Except E B}
    (ends : Ends mayFail post first)
    (next : ∀ result, post result → Ends mayFail final (rest result)) :
    Ends mayFail final (first >>= rest) := by
  cases first with
  | ok result => exact next result ends
  | error failure => exact ends

/-- A loop over a list keeps an invariant indexed by what is left of the list. -/
theorem foldlM {invariant : List B → A → Prop} {body : A → B → Except E A}
    (step : ∀ state item rest, invariant (item :: rest) state →
      Ends mayFail (invariant rest) (body state item)) (items : List B) {state : A}
    (initial : invariant items state) :
    Ends mayFail (invariant []) (items.foldlM body state) := by
  induction items generalizing state with
  | nil => exact initial
  | cons item rest ih =>
    rw [List.foldlM_cons]
    exact bind (step state item rest initial) fun _ held => ih held

end Ends

end BobbyBotique
