import Mathlib

/-!
# Secondary indexes

A table maps identities to rows, and an index key is a partial function of the row.  An
index is a relation between keys and identities; it *agrees* with the table when it
relates exactly the key of every row that has one to that row's identity.

A write changes one row and the entries of that row: `replace` takes the row's entry under
its old key away and adds one under its new key.  Agreement is kept when the two keys are
the keys of the old and of the new row, and the index stays single-valued when the new key
is free.
-/

namespace SecondaryIndex

variable {ι ρ ε : Type*}

/-- The index relates the key of each row to the row. -/
def Agrees (key : ρ → Option ε) (rows : ι → ρ) (entries : ε → ι → Prop) : Prop :=
  ∀ e i, entries e i ↔ key (rows i) = some e

/-- No key is shared by two rows. -/
def SingleValued (entries : ε → ι → Prop) : Prop :=
  ∀ e i j, entries e i → entries e j → i = j

/-- The entries after the row `i` has moved from one key to another. -/
def replace (entries : ε → ι → Prop) (i : ι) (old new : Option ε) : ε → ι → Prop :=
  fun e j => (j = i ∧ new = some e) ∨ (entries e j ∧ ¬ (j = i ∧ old = some e))

variable {key : ρ → Option ε} {rows rows' : ι → ρ} {entries : ε → ι → Prop}

/-- Rewriting one row and moving its entry from the old row's key to the new row's; a row
without a key may name any old one. -/
theorem Agrees.replace (h : Agrees key rows entries) {i : ι} {old new : Option ε}
    (ho : ∀ j, j ≠ i → rows' j = rows j) (hold : ∀ e, key (rows i) = some e → old = some e)
    (hnew : key (rows' i) = new) : Agrees key rows' (replace entries i old new) := by
  intro e j
  by_cases hj : j = i
  · subst hj
    rw [hnew]
    constructor
    · rintro (⟨-, h'⟩ | ⟨he, hne⟩)
      · exact h'
      · exact absurd ⟨rfl, hold e ((h e j).mp he)⟩ hne
    · intro h'
      exact .inl ⟨rfl, h'⟩
  · rw [ho j hj, ← h e j]
    constructor
    · rintro (⟨h', -⟩ | ⟨he, -⟩)
      · exact absurd h' hj
      · exact he
    · intro he
      exact .inr ⟨he, fun h' => hj h'.1⟩

/-- Moving an entry to a key that no other row holds. -/
theorem SingleValued.replace (h : SingleValued entries) {i : ι} {old new : Option ε}
    (hf : ∀ e, new = some e → ∀ j, entries e j → j = i) :
    SingleValued (replace entries i old new) := by
  intro e j k hj hk
  rcases hj with ⟨rfl, hj⟩ | ⟨hj, -⟩
  · rcases hk with ⟨rfl, -⟩ | ⟨hk, -⟩
    · rfl
    · exact (hf e hj k hk).symm
  · rcases hk with ⟨rfl, hk⟩ | ⟨hk, -⟩
    · exact hf e hk j hj
    · exact h e j k hj hk

end SecondaryIndex
