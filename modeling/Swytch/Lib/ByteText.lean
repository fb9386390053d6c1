import Mathlib

/-!
# Text as bytes

A string of the source is a sequence of bytes, not necessarily valid UTF-8.  This file has
the few text operations a line-oriented format needs: splitting at white space, and changing
letter case for comparison with ASCII words.

White space is the Unicode class, so a separator is one, two or three bytes long.  Its first
byte never continues another character, which is why looking for the encodings in the byte
sequence finds the same separators as decoding it would.
-/

namespace Swytch.ByteText

open List

variable {bs : List UInt8} {b : UInt8}

/-! ## 1.  White space and the words of a text -/

/-- The encodings of the characters that are white space. -/
def spaces : List (List UInt8) :=
  [[0x09], [0x0a], [0x0b], [0x0c], [0x0d], [0x20], [0xc2, 0x85], [0xc2, 0xa0],
    [0xe1, 0x9a, 0x80], [0xe2, 0x80, 0x80], [0xe2, 0x80, 0x81], [0xe2, 0x80, 0x82],
    [0xe2, 0x80, 0x83], [0xe2, 0x80, 0x84], [0xe2, 0x80, 0x85], [0xe2, 0x80, 0x86],
    [0xe2, 0x80, 0x87], [0xe2, 0x80, 0x88], [0xe2, 0x80, 0x89], [0xe2, 0x80, 0x8a],
    [0xe2, 0x80, 0xa8], [0xe2, 0x80, 0xa9], [0xe2, 0x80, 0xaf], [0xe2, 0x81, 0x9f],
    [0xe3, 0x80, 0x80]]

/-- The width of the white space a text begins with, `0` when it begins with none. -/
def spaceWidth (bs : List UInt8) : ℕ :=
  ((spaces.find? fun space => space.isPrefixOf bs).map List.length).getD 0

/-- Puts a field that is not empty in front. -/
def close (field : List UInt8) (rest : List (List UInt8)) : List (List UInt8) :=
  if field = [] then rest else field :: rest

/-- The fields of a text whose first bytes still belong to a separator, after an open
field. -/
def fieldsFrom : ℕ → List UInt8 → List UInt8 → List (List UInt8)
  | _, field, [] => close field []
  | skip + 1, field, _ :: bs => fieldsFrom skip field bs
  | 0, field, b :: bs =>
    match spaceWidth (b :: bs) with
    | 0 => fieldsFrom 0 (field ++ [b]) bs
    | width + 1 => close field (fieldsFrom width [] bs)

/-- The maximal stretches without white space. -/
def fields (bs : List UInt8) : List (List UInt8) := fieldsFrom 0 [] bs

/-- No white space begins anywhere in the text. -/
def NoSpace (bs : List UInt8) : Prop := ∀ u, u <:+ bs → spaceWidth u = 0

theorem spaceWidth_eq_zero_iff :
    spaceWidth bs = 0 ↔ ∀ space ∈ spaces, ¬ space <+: bs := by
  have hne : ∀ space ∈ spaces, space.length ≠ 0 := by decide
  constructor
  · intro h space hspace hbs
    cases hf : spaces.find? fun space => space.isPrefixOf bs with
    | none =>
      have := find?_eq_none.mp hf space hspace
      exact this (List.isPrefixOf_iff_prefix.mpr hbs)
    | some found =>
      rw [spaceWidth, hf] at h
      exact hne found (mem_of_find?_eq_some hf) h
  · intro h
    have hf : spaces.find? (fun space => space.isPrefixOf bs) = none := by
      refine find?_eq_none.mpr fun space hspace hbs => ?_
      exact h space hspace (List.isPrefixOf_iff_prefix.mp hbs)
    rw [spaceWidth, hf]
    rfl

theorem noSpace_nil : NoSpace [] := by
  intro u hu
  rw [suffix_nil.mp hu]
  decide

theorem NoSpace.tail (h : NoSpace (b :: bs)) : NoSpace bs :=
  fun u hu => h u (hu.trans (suffix_cons b bs))

theorem noSpace_cons_iff :
    NoSpace (b :: bs) ↔ spaceWidth (b :: bs) = 0 ∧ NoSpace bs := by
  constructor
  · exact fun h => ⟨h _ (suffix_refl _), h.tail⟩
  · rintro ⟨hh, ht⟩ u hu
    rcases suffix_cons_iff.mp hu with rfl | hu
    · exact hh
    · exact ht u hu

theorem NoSpace.notMem (h : NoSpace bs) (hb : [b] ∈ spaces) :
    b ∉ bs := by
  intro hmem
  obtain ⟨before, after, rfl⟩ := append_of_mem hmem
  refine spaceWidth_eq_zero_iff.mp (h (b :: after) (suffix_append _ _)) [b] hb ?_
  exact prefix_append [b] after

/-- A byte that begins no separator. -/
def Plain (b : UInt8) : Prop := ∀ space ∈ spaces, space.head? ≠ some b

instance (b : UInt8) : Decidable (Plain b) := by
  unfold Plain
  infer_instance

/-- An ASCII byte after the blank. -/
def visible (b : UInt8) : Bool := Nat.blt 0x20 b.toNat && Nat.blt b.toNat 0x80

theorem plain_of_visible (hb : visible b = true) : Plain b := by
  have hspaces : ∀ space ∈ spaces, (space.head?.all fun b => !visible b) = true := by decide
  intro space hspace hh
  simpa [hh, hb] using hspaces space hspace

theorem spaceWidth_cons_of_plain (hb : Plain b) (bs : List UInt8) :
    spaceWidth (b :: bs) = 0 := by
  have hne : ∀ space ∈ spaces, space ≠ [] := by decide
  refine spaceWidth_eq_zero_iff.mpr fun space hspace hbs => ?_
  obtain ⟨c, cs, rfl⟩ := exists_cons_of_ne_nil (hne space hspace)
  obtain ⟨rfl, -⟩ := cons_prefix_cons.mp hbs
  exact hb _ hspace rfl

theorem NoSpace.cons (hb : Plain b) (h : NoSpace bs) :
    NoSpace (b :: bs) :=
  noSpace_cons_iff.mpr ⟨spaceWidth_cons_of_plain hb bs, h⟩

theorem noSpace_of_plain (h : ∀ b ∈ bs, Plain b) : NoSpace bs := by
  induction bs with
  | nil => exact noSpace_nil
  | cons b bs ih =>
    exact (ih fun c hc => h c (mem_cons_of_mem _ hc)).cons (h b mem_cons_self)

/-- A blank after a text does not complete a separator begun in it: no encoding has a blank
but the blank itself. -/
theorem spaceWidth_append_blank (h : spaceWidth (b :: bs) = 0) (rest : List UInt8) :
    spaceWidth (b :: bs ++ 0x20 :: rest) = 0 := by
  have hbl : ∀ space ∈ spaces, 0x20 ∉ space.tail := by decide
  refine spaceWidth_eq_zero_iff.mpr fun space hspace hbs => ?_
  obtain ⟨tail, ht⟩ := hbs
  rcases append_eq_append_iff.mp ht with ⟨cs, hcs, -⟩ | ⟨cs, rfl, hcs⟩
  · exact spaceWidth_eq_zero_iff.mp h space hspace ⟨cs, hcs.symm⟩
  · cases cs with
    | nil =>
      refine spaceWidth_eq_zero_iff.mp h _ hspace ?_
      rw [append_nil]
    | cons c cs =>
      cases hcs
      refine hbl _ hspace ?_
      simp

variable {word : List UInt8} {words : List (List UInt8)} {x : UInt8}

theorem fieldsFrom_append_blank (hw : NoSpace word) (field rest : List UInt8) :
    fieldsFrom 0 field (word ++ 0x20 :: rest) =
      close (field ++ word) (fieldsFrom 0 [] rest) := by
  induction word generalizing field with
  | nil =>
    have hwidth : spaceWidth (0x20 :: rest) = 1 := by
      simp [spaceWidth, spaces]
    rw [nil_append, fieldsFrom, hwidth, append_nil]
  | cons b bs ih =>
    have hwidth := spaceWidth_append_blank (hw _ (suffix_refl _)) rest
    rw [cons_append] at hwidth
    rw [cons_append, fieldsFrom, hwidth]
    refine (ih hw.tail (field ++ [b])).trans ?_
    rw [append_assoc, singleton_append]

theorem fieldsFrom_word (hw : NoSpace word) (field : List UInt8) :
    fieldsFrom 0 field word = close (field ++ word) [] := by
  induction word generalizing field with
  | nil => rw [fieldsFrom, append_nil]
  | cons b bs ih =>
    rw [fieldsFrom, hw _ (suffix_refl _)]
    refine (ih hw.tail (field ++ [b])).trans ?_
    rw [append_assoc, singleton_append]

theorem fields_intercalate (h : ∀ word ∈ words, word ≠ [] ∧ NoSpace word) :
    fields ([0x20].intercalate words) = words := by
  induction words with
  | nil => rfl
  | cons word words ih =>
    obtain ⟨hne, hwd⟩ := h word mem_cons_self
    have ht := ih fun word hw => h word (mem_cons_of_mem _ hw)
    cases words with
    | nil =>
      rw [intercalate_singleton, fields, fieldsFrom_word hwd, nil_append, close,
        if_neg hne]
    | cons next words =>
      rw [intercalate_cons_cons, append_assoc, singleton_append, fields,
        fieldsFrom_append_blank hwd, nil_append, close, if_neg hne]
      exact congrArg (word :: ·) ht

theorem mem_of_mem_intercalate {sep : UInt8} (h : b ∈ [sep].intercalate words) :
    b = sep ∨ ∃ word ∈ words, b ∈ word := by
  induction words with
  | nil => simp at h
  | cons word words ih =>
    cases words with
    | nil =>
      rw [intercalate_singleton] at h
      exact .inr ⟨word, mem_cons_self, h⟩
    | cons next words =>
      rw [intercalate_cons_cons, mem_append, mem_append,
        mem_singleton] at h
      rcases h with (h | h) | h
      · exact .inr ⟨word, mem_cons_self, h⟩
      · exact .inl h
      · obtain hsep | ⟨other, ho, hb⟩ := ih h
        · exact .inl hsep
        · exact .inr ⟨other, mem_cons_of_mem _ ho, hb⟩

/-! ## 2.  Letter case

Only comparison with ASCII words follows, so a character without an ASCII letter of the
other case is left as it is. -/

/-- The lower-case letter of an ASCII capital. -/
def lowerByte (b : UInt8) : UInt8 := if 0x41 ≤ b ∧ b ≤ 0x5a then b + 0x20 else b

/-- The capital of an ASCII letter. -/
def upperByte (b : UInt8) : UInt8 := if 0x61 ≤ b ∧ b ≤ 0x7a then b - 0x20 else b

/-- Lower case: besides the ASCII capitals, the Kelvin sign becomes `k` and the dotted
capital `I` becomes `i`. -/
def toLower : List UInt8 → List UInt8
  | [] => []
  | b :: bs =>
    match b, bs with
    | 0xe2, 0x84 :: 0xaa :: rest => 0x6b :: toLower rest
    | 0xc4, 0xb0 :: rest => 0x69 :: toLower rest
    | b, bs => lowerByte b :: toLower bs

/-- Upper case: besides the ASCII letters, the dotless `i` becomes `I` and the long `s`
becomes `S`. -/
def toUpper : List UInt8 → List UInt8
  | [] => []
  | b :: bs =>
    match b, bs with
    | 0xc4, 0xb1 :: rest => 0x49 :: toUpper rest
    | 0xc5, 0xbf :: rest => 0x53 :: toUpper rest
    | b, bs => upperByte b :: toUpper bs

/-- An ASCII byte stands for itself. -/
theorem toLower_cons_of_ascii (hb : b < 0x80) (bs : List UInt8) :
    toLower (b :: bs) = lowerByte b :: toLower bs := by
  rw [toLower]
  all_goals
    rintro rest rfl -
    exact absurd hb (by decide)

theorem toLower_eq_nil (h : toLower bs = []) : bs = [] := by
  cases bs with
  | nil => rfl
  | cons b bs =>
    unfold toLower at h
    split at h <;> simp at h

theorem eq_of_lowerByte_eq (h : lowerByte b = x) (hx : ¬ (0x61 ≤ x ∧ x ≤ 0x7a)) : b = x := by
  rw [lowerByte] at h
  split at h
  · rename_i hcapital
    refine absurd ?_ hx
    have hlow : 0x41 ≤ b.toNat := UInt8.le_iff_toNat_le.mp hcapital.1
    have hhi : b.toNat ≤ 0x5a := UInt8.le_iff_toNat_le.mp hcapital.2
    have hsum : x.toNat = b.toNat + 0x20 := by
      rw [← h]
      exact Nat.mod_eq_of_lt (by change b.toNat + 32 < 256; omega)
    exact ⟨UInt8.le_iff_toNat_le.mpr (by change 97 ≤ x.toNat; omega),
      UInt8.le_iff_toNat_le.mpr (by change x.toNat ≤ 122; omega)⟩
  · exact h

theorem exists_of_toLower_eq_cons {l : List UInt8} (h : toLower bs = x :: l)
    (hx : ¬ (0x61 ≤ x ∧ x ≤ 0x7a)) : ∃ rest, bs = x :: rest ∧ l = toLower rest := by
  cases bs with
  | nil => simp [toLower] at h
  | cons b bs =>
    unfold toLower at h
    split at h
    · cases h
      exact absurd (by decide) hx
    · cases h
      exact absurd (by decide) hx
    · obtain ⟨hb, hl⟩ := cons.inj h
      exact ⟨bs, by rw [eq_of_lowerByte_eq hb hx], hl.symm⟩

end Swytch.ByteText
