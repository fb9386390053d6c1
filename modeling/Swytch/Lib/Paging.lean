import Mathlib

/-!
# Reading a sorted list page by page

A list that is sorted without repetitions is read in pages of at most `n` entries.  A page is asked
for by the entry after which it starts, so that nobody has to remember where a reader is: the next
page starts after the last entry of this one.

The end is told by a mark.  When the mark is an entry itself, a page that ends with it looks like
the last one, and what comes after it is not read.  `pages_iff` says exactly what is read.
-/

namespace Swytch.Paging

open List
open Std

variable {α : Type} [Ord α]

/-- Sorted, without repetitions. -/
def Ascending (xs : List α) : Prop := xs.Pairwise fun a b => compare a b = .lt

/-! ## 1.  The entries after a given one -/

variable {xs front back read entries : List α} {a : α}

section Above

def above (a : α) (xs : List α) : List α := xs.filter fun x => compare a x == .lt

def upTo (a : α) (xs : List α) : List α := xs.filter fun x => compare x a != .gt

theorem ascending_above (h : Ascending xs) (a : α) : Ascending (above a xs) :=
  h.sublist filter_sublist

theorem mem_above {x : α} : x ∈ above a xs ↔ x ∈ xs ∧ compare a x = .lt := by
  simp [above]

variable [TransOrd α]

theorem compare_self (a : α) : compare a a = .eq := ReflCmp.compare_self

theorem Ascending.nodup (h : Ascending xs) : xs.Nodup := by
  refine h.imp fun {a b} hlt heq => ?_
  rw [heq, compare_self] at hlt
  cases hlt

theorem above_of_split (h : Ascending (front ++ a :: back)) :
    above a (front ++ a :: back) = back := by
  obtain ⟨-, hb, hcr⟩ := pairwise_append.mp h
  have hfr : front.filter (fun x => compare a x == .lt) = [] := by
    refine filter_eq_nil_iff.mpr fun x hx => ?_
    have hlt := hcr x hx a mem_cons_self
    rw [OrientedCmp.gt_of_lt hlt]
    exact nofun
  have ha : back.filter (fun x => compare a x == .lt) = back := by
    refine filter_eq_self.mpr fun x hx => ?_
    rw [rel_of_pairwise_cons hb hx]
    rfl
  unfold above
  rw [filter_append, hfr, nil_append, filter_cons_of_neg, ha]
  rw [compare_self]
  exact nofun

theorem upTo_of_split (h : Ascending (front ++ a :: back)) :
    upTo a (front ++ a :: back) = front ++ [a] := by
  obtain ⟨-, hb, hcr⟩ := pairwise_append.mp h
  have hfr : front.filter (fun x => compare x a != .gt) = front := by
    refine filter_eq_self.mpr fun x hx => ?_
    rw [hcr x hx a mem_cons_self]
    rfl
  have ha : back.filter (fun x => compare x a != .gt) = [] := by
    refine filter_eq_nil_iff.mpr fun x hx => ?_
    rw [OrientedCmp.gt_of_lt (rel_of_pairwise_cons hb hx)]
    exact nofun
  unfold upTo
  rw [filter_append, hfr, filter_cons_of_pos, ha]
  rw [compare_self]
  rfl

theorem above_of_above {b : α} (h : Ascending xs) (hsp : above a xs = front ++ b :: back) :
    above b xs = back := by
  have hab : compare a b = .lt := by
    have hb : b ∈ above a xs := by
      rw [hsp]
      simp
    exact (mem_above.mp hb).2
  have hagain : above b xs = above b (above a xs) := by
    unfold above
    rw [filter_filter]
    refine filter_congr fun x _ => ?_
    cases hbx : compare b x with
    | lt =>
      rw [TransCmp.lt_trans hab hbx]
      rfl
    | eq | gt => rfl
  have hso := ascending_above h a
  rw [hsp] at hso
  rw [hagain, hsp, above_of_split hso]

end Above

/-! ## 2.  Pages, and what is read -/

section Pages

variable (xs : List α) (n : ℕ) (mark : α)

def page (a : α) : List α := (above a xs).take n

/-- After a full page its last entry is where to go on, otherwise the mark is given. -/
def next (entries : List α) : α := if entries.length = n then entries.getLastD mark else mark

/-- The entries that are read from `a` on until the mark is given. -/
inductive Pages : α → List α → Prop
  | last {a : α} : next n mark (page xs n a) = mark → Pages a (page xs n a)
  | more {a : α} {rest : List α} : next n mark (page xs n a) ≠ mark →
      Pages (next n mark (page xs n a)) rest → Pages a (page xs n a ++ rest)

variable {xs n mark} in
theorem Pages.unique {other : List α} (h : Pages xs n mark a read)
    (ho : Pages xs n mark a other) : read = other := by
  induction h generalizing other with
  | last hnext =>
    cases ho with
    | last => rfl
    | more hne => exact absurd hnext hne
  | more hne _ ih =>
    cases ho with
    | last hnext => exact absurd hnext hne
    | more _ hr => rw [ih hr]

variable [DecidableEq α]

/-- The mark ends a page. -/
def Cuts (entries : List α) : Prop := mark ∈ entries ∧ n ∣ (upTo mark entries).length

instance (entries : List α) : Decidable (Cuts n mark entries) :=
  inferInstanceAs (Decidable (_ ∧ _))

def reads (entries : List α) : List α :=
  if Cuts n mark entries then upTo mark entries else entries

variable {xs n mark}

theorem mem_reads {x : α} :
    x ∈ reads n mark entries ↔
      x ∈ entries ∧ (Cuts n mark entries → compare x mark ≠ .gt) := by
  unfold reads
  by_cases h : Cuts n mark entries
  · simp [upTo, h]
  · simp [h]

theorem nodup_reads (h : entries.Nodup) : (reads n mark entries).Nodup := by
  unfold reads
  split
  · exact h.filter _
  · exact h

variable [TransOrd α]

theorem reads_of_short (h : entries.length < n) : reads n mark entries = entries := by
  unfold reads
  rw [if_neg]
  rintro ⟨hmem, hdvd⟩
  have hpos : 0 < (upTo mark entries).length := by
    refine length_pos_of_mem (a := mark) (mem_filter.mpr ⟨hmem, ?_⟩)
    rw [compare_self]
    rfl
  have hle : (upTo mark entries).length ≤ entries.length := length_filter_le ..
  have := Nat.le_of_dvd hpos hdvd
  omega

theorem reads_of_mark (hso : Ascending (front ++ mark :: back))
    (hlen : front.length + 1 = n) : reads n mark (front ++ mark :: back) = front ++ [mark] := by
  have hcuts : Cuts n mark (front ++ mark :: back) := by
    refine ⟨by simp, ?_⟩
    rw [upTo_of_split hso, length_append, length_singleton, hlen]
  unfold reads
  rw [if_pos hcuts, upTo_of_split hso]

/-- After a full page that does not end with the mark, the rest is read. -/
theorem reads_of_full {b : α} (hso : Ascending (front ++ b :: back))
    (hlen : front.length + 1 = n) (hne : b ≠ mark) :
    reads n mark (front ++ b :: back) = front ++ [b] ++ reads n mark back := by
  have happend : front ++ b :: back = (front ++ [b]) ++ back := by simp
  rw [happend] at hso ⊢
  obtain ⟨-, -, hcr⟩ := pairwise_append.mp hso
  have hupTo : upTo mark (front ++ [b] ++ back) = upTo mark (front ++ [b]) ++ upTo mark back :=
    filter_append ..
  have hf : (front ++ [b]).length = n := by
    rw [length_append, length_singleton, hlen]
  by_cases hb : mark ∈ back
  · -- The page is below the mark.
    have hpg : upTo mark (front ++ [b]) = front ++ [b] := by
      refine filter_eq_self.mpr fun x hx => ?_
      rw [hcr x hx mark hb]
      rfl
    have hcuts : Cuts n mark (front ++ [b] ++ back) ↔ Cuts n mark back := by
      unfold Cuts
      rw [hupTo, hpg, length_append, hf, Nat.dvd_add_right (dvd_refl n)]
      exact and_congr_left fun _ => iff_of_true (mem_append_right _ hb) hb
    unfold reads
    by_cases h : Cuts n mark back
    · rw [if_pos h, if_pos (hcuts.mpr h), hupTo, hpg]
    · rw [if_neg h, if_neg fun h' => h (hcuts.mp h')]
  · -- The mark is in the page but not at its end, or nowhere.
    have hnot : ¬ Cuts n mark (front ++ [b] ++ back) := by
      rintro ⟨hmem, hdvd⟩
      have hfr : mark ∈ front := by
        rcases mem_append.mp hmem with hpg | h
        · rcases mem_append.mp hpg with h | h
          · exact h
          · exact absurd (mem_singleton.mp h).symm hne
        · exact absurd h hb
      obtain ⟨before, after, rfl⟩ := append_of_mem hfr
      have hshape : before ++ mark :: after ++ [b] ++ back =
          before ++ mark :: (after ++ [b] ++ back) := by simp
      rw [hshape] at hso hdvd
      rw [upTo_of_split hso] at hdvd
      simp only [length_append, length_cons, length_nil] at hdvd hlen
      have := Nat.le_of_dvd (by omega) hdvd
      omega
    unfold reads
    rw [if_neg hnot, if_neg fun h => hb h.1]

/-- Reading comes to an end, with the entries that `reads` says. -/
theorem pages_reads (hn : 0 < n) (hso : Ascending xs) (a : α) :
    Pages xs n mark a (reads n mark (above a xs)) := by
  -- By induction on the number of entries that are still to come.
  induction hlen : (above a xs).length using Nat.strong_induction_on generalizing a with
  | _ k ih =>
    by_cases hsh : (above a xs).length < n
    · have hpg : page xs n a = above a xs := take_of_length_le (by omega)
      have hnext : next n mark (page xs n a) = mark := by
        unfold next
        rw [hpg, if_neg (by omega)]
      rw [reads_of_short hsh, ← hpg]
      exact .last hnext
    · obtain ⟨front, b, back, hsp, hfr⟩ : ∃ front b back,
          above a xs = front ++ b :: back ∧ front.length + 1 = n := by
        refine ⟨(above a xs).take (n - 1), (above a xs)[n - 1], (above a xs).drop (n - 1 + 1), ?_, ?_⟩
        · rw [getElem_cons_drop, take_append_drop]
        · rw [length_take]
          omega
      have hpg : page xs n a = front ++ [b] := by
        unfold page
        rw [hsp, ← hfr, take_append]
        simp
      have hnext : next n mark (page xs n a) = b := by
        unfold next
        rw [hpg, if_pos (by rw [length_append, length_singleton, hfr])]
        simp
      have hascending := ascending_above hso a
      rw [hsp] at hascending ⊢
      by_cases hmark : b = mark
      · subst hmark
        rw [reads_of_mark hascending hfr, ← hpg]
        exact .last hnext
      · rw [reads_of_full hascending hfr hmark, ← hpg,
          ← above_of_above hso hsp]
        have hless : (above b xs).length < k := by
          rw [above_of_above hso hsp, ← hlen, hsp, length_append,
            length_cons]
          omega
        have hr : Pages xs n mark (next n mark (page xs n a)) (reads n mark (above b xs)) := by
          rw [hnext]
          exact ih _ hless b rfl
        exact .more (hnext ▸ hmark) hr

/-- What is read from `a` on. -/
theorem pages_iff (hn : 0 < n) (hso : Ascending xs) :
    Pages xs n mark a read ↔ read = reads n mark (above a xs) := by
  constructor
  · intro h
    exact h.unique (pages_reads hn hso a)
  · rintro rfl
    exact pages_reads hn hso a

end Pages

end Swytch.Paging
