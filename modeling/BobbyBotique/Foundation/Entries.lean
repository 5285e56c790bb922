/-!
# Entries of a list

What an index reads behind the replacement of an entry and behind a new last entry.
-/

namespace BobbyBotique.Entries

variable {A : Type} {entries : List A} {index other : Nat} {value last found : A}

theorem getElem?_set_cases (read : (entries.set index value)[other]? = some found) :
    (other = index ∧ found = value) ∨ (other ≠ index ∧ entries[other]? = some found) := by
  rw [List.getElem?_set] at read
  split at read
  · rename_i same
    split at read
    · exact .inl ⟨same.symm, (Option.some.inj read).symm⟩
    · cases read
  · rename_i ne
    exact .inr ⟨fun same => ne same.symm, read⟩

theorem getElem?_concat_cases (read : (entries ++ [last])[index]? = some found) :
    (index < entries.length ∧ entries[index]? = some found) ∨
      (index = entries.length ∧ found = last) := by
  rcases Nat.lt_trichotomy index entries.length with before | here | after
  · exact .inl ⟨before, (List.getElem?_append_left before).symm.trans read⟩
  · subst here
    rw [List.getElem?_concat_length] at read
    cases read
    exact .inr ⟨rfl, rfl⟩
  · rw [List.getElem?_eq_none (by simp; omega)] at read
    cases read

end BobbyBotique.Entries
