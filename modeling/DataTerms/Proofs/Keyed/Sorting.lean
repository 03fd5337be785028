/-
# A map as a sorted list

The map of a list of entries is the list itself, when of the entries with one key all but the
last are left out and the others are sorted by their keys. Both steps are defined for lists of
anything with a key, and change nothing where the keys ascend already.

Key definitions: `Keyed.lastOfEach`, `Keyed.sortOn`.
Key theorems: `Keyed.mem_lastOfEach_iff`, `Keyed.pairwise_lt_sortOn`, `Keyed.ofList_eq_sortOn`.
-/
import DataTerms.Proofs.Keyed

namespace DataTerms
namespace Keyed

variable {α β : Type} {key : α → String} {key' : β → String}

/-! ### The last of each key -/

/-- Leaves out what has its key again further on. -/
def lastOfEach (key : α → String) : List α → List α
  | [] => []
  | a :: rest =>
    if key a ∈ rest.map key then lastOfEach key rest else a :: lastOfEach key rest

theorem lastOfEach_map {f : α → β} (hf : ∀ a, key' (f a) = key a) : ∀ xs : List α,
    lastOfEach key' (xs.map f) = (lastOfEach key xs).map f
  | [] => rfl
  | a :: rest => by
    have hkeys : (rest.map f).map key' = rest.map key := by
      rw [List.map_map]
      exact List.map_congr_left fun b _ => hf b
    rw [List.map_cons, lastOfEach, lastOfEach, hkeys, hf, lastOfEach_map hf rest]
    by_cases hlater : key a ∈ rest.map key
    · rw [if_pos hlater, if_pos hlater]
    · rw [if_neg hlater, if_neg hlater, List.map_cons]

theorem lastOfEach_sublist : ∀ xs : List α, (lastOfEach key xs).Sublist xs
  | [] => List.Sublist.refl []
  | a :: rest => by
    rw [lastOfEach]
    split
    · exact (lastOfEach_sublist rest).cons a
    · exact (lastOfEach_sublist rest).cons_cons a

/-- No key is there twice. -/
theorem pairwise_ne_lastOfEach : ∀ xs : List α,
    (lastOfEach key xs).Pairwise fun a b => key a ≠ key b
  | [] => List.Pairwise.nil
  | a :: rest => by
    rw [lastOfEach]
    split
    · exact pairwise_ne_lastOfEach rest
    · next hlast =>
      refine List.pairwise_cons.mpr ⟨fun b hb heq => hlast ?_, pairwise_ne_lastOfEach rest⟩
      have hmem : b ∈ rest := (lastOfEach_sublist rest).subset hb
      exact heq ▸ List.mem_map_of_mem hmem

theorem lastOfEach_eq_self : ∀ {xs : List α}, xs.Pairwise (fun a b => key a ≠ key b) →
    lastOfEach key xs = xs
  | [], _ => rfl
  | a :: rest, h => by
    obtain ⟨hne, hrest⟩ := List.pairwise_cons.mp h
    have hlast : key a ∉ rest.map key := by
      intro hmem
      obtain ⟨b, hb, heq⟩ := List.mem_map.mp hmem
      exact hne b hb heq.symm
    rw [lastOfEach, if_neg hlast, lastOfEach_eq_self hrest]

theorem pairwise_ne_of_lt {xs : List α} (h : xs.Pairwise fun a b => key a < key b) :
    xs.Pairwise fun a b => key a ≠ key b := by
  refine h.imp ?_
  intro a b hlt heq
  rw [heq] at hlt
  exact String.lt_irrefl _ hlt

/-! ### Sorting -/

/-- The list in ascending order of the keys. -/
def sortOn (key : α → String) (xs : List α) : List α := xs.mergeSort fun a b => key a ≤ key b

@[simp] theorem mem_sortOn {a : α} {xs : List α} : a ∈ sortOn key xs ↔ a ∈ xs := List.mem_mergeSort

theorem sortOn_map {f : α → β} (hf : ∀ a, key' (f a) = key a) (xs : List α) :
    sortOn key' (xs.map f) = (sortOn key xs).map f := by
  refine (List.map_mergeSort fun a _ b _ => ?_).symm
  rw [hf, hf]

theorem pairwise_le_sortOn (xs : List α) : (sortOn key xs).Pairwise fun a b => key a ≤ key b := by
  have htrans : ∀ a b c : α, decide (key a ≤ key b) → decide (key b ≤ key c) →
      decide (key a ≤ key c) := by
    simp only [decide_eq_true_eq]
    exact fun a b c => String.le_trans
  have htotal : ∀ a b : α, (decide (key a ≤ key b) || decide (key b ≤ key a)) := by
    simp only [Bool.or_eq_true, decide_eq_true_eq]
    exact fun a b => String.le_total (key a) (key b)
  exact (List.pairwise_mergeSort htrans htotal xs).imp of_decide_eq_true

/-- With no key twice, the keys ascend strictly when they are sorted. -/
theorem pairwise_lt_sortOn {xs : List α} (h : xs.Pairwise fun a b => key a ≠ key b) :
    (sortOn key xs).Pairwise fun a b => key a < key b := by
  have hperm : (sortOn key xs).Perm xs := List.mergeSort_perm xs _
  have hne : (sortOn key xs).Pairwise fun a b => key a ≠ key b :=
    hperm.symm.pairwise h fun hab => hab.symm
  refine (pairwise_le_sortOn xs).imp₂ (fun a b hle hne => ?_) hne
  by_cases hlt : key a < key b
  · exact hlt
  · exact absurd (String.le_antisymm hle (String.not_lt.mp hlt)) hne

theorem sortOn_eq_self {xs : List α} (h : xs.Pairwise fun a b => key a < key b) :
    sortOn key xs = xs := by
  refine List.mergeSort_of_pairwise (h.imp fun hlt => decide_eq_true ?_)
  exact String.not_lt.mp fun hgt => String.lt_irrefl _ (String.lt_trans hlt hgt)

/-- Where the keys ascend, each is there once and in its place. -/
theorem sortOn_lastOfEach_eq_self {xs : List α} (h : xs.Pairwise fun a b => key a < key b) :
    sortOn key (lastOfEach key xs) = xs := by
  rw [lastOfEach_eq_self (pairwise_ne_of_lt h), sortOn_eq_self h]

/-- A list with another one's elements and the same keys in the same places is that list, if no
key is there twice. -/
theorem eq_of_perm_of_keys_eq {key : α → String} : ∀ {xs ys : List α},
    xs.Perm ys → xs.map key = ys.map key → (ys.map key).Nodup → xs = ys
  | [], _, hperm, _, _ => hperm.nil_eq
  | x :: xs, [], hperm, _, _ => absurd hperm.length_eq (Nat.succ_ne_zero _)
  | x :: xs, y :: ys, hperm, hkeys, hnodup => by
    obtain ⟨hkey, hkeysRest⟩ := List.cons.inj hkeys
    obtain ⟨hnew, hrest⟩ := List.nodup_cons.mp hnodup
    have hmem : x ∈ y :: ys := hperm.subset List.mem_cons_self
    rcases List.mem_cons.mp hmem with heq | hmem
    · subst heq
      exact congrArg (x :: ·) (eq_of_perm_of_keys_eq hperm.cons_inv hkeysRest hrest)
    · -- the key of `x` would be there twice
      have hagain : key x ∈ ys.map key := List.mem_map_of_mem hmem
      exact absurd (hkey ▸ hagain) hnew

/-! ### Maps -/

/-- Where no key is there twice, each entry is found by its key. -/
theorem find?_eq_some_iff {k : String} {value : α} : ∀ {entries : List (String × α)},
    entries.Pairwise (fun a b => a.1 ≠ b.1) →
      (find? k entries = some value ↔ (k, value) ∈ entries)
  | [], _ => by simp [find?]
  | first :: rest, h => by
    obtain ⟨hne, hrest⟩ := List.pairwise_cons.mp h
    rw [find?, List.mem_cons]
    by_cases hkey : k = first.1
    · have hnot : (k, value) ∉ rest := fun hmem => hne _ hmem hkey.symm
      rw [if_pos hkey]
      constructor
      · intro hvalue
        exact .inl (Prod.ext hkey (Option.some.inj hvalue).symm)
      · rintro (heq | hmem)
        · rw [← heq]
        · exact absurd hmem hnot
    · rw [if_neg hkey, find?_eq_some_iff hrest]
      constructor
      · exact .inr
      · rintro (heq | hmem)
        · exact absurd (congrArg Prod.fst heq) hkey
        · exact hmem

/-- The keys without a last value are those that no entry has. -/
theorem last?_eq_none_iff {k : String} : ∀ {entries : List (String × α)},
    last? k entries = none ↔ k ∉ entries.map Prod.fst
  | [] => by simp [last?, find?]
  | first :: rest => by
    rw [last?_cons, Option.or_eq_none_iff, last?_eq_none_iff, List.map_cons, List.mem_cons, not_or]
    by_cases hkey : k = first.1
    · simp [hkey]
    · simp [hkey]

/-- The entries that are left are those with the last values. -/
theorem mem_lastOfEach_iff {k : String} {value : α} : ∀ {entries : List (String × α)},
    (k, value) ∈ lastOfEach Prod.fst entries ↔ last? k entries = some value
  | [] => by simp [lastOfEach, last?, find?]
  | first :: rest => by
    rw [last?_cons, lastOfEach]
    by_cases hlater : first.1 ∈ rest.map Prod.fst
    · rw [if_pos hlater, mem_lastOfEach_iff]
      by_cases hkey : k = first.1
      · -- the value of this entry is hidden by a later one
        rcases hlast : last? k rest with _ | later
        · exact absurd (hkey ▸ hlater) (last?_eq_none_iff.mp hlast)
        · rfl
      · rw [if_neg hkey, Option.or_none]
    · rw [if_neg hlater, List.mem_cons, mem_lastOfEach_iff, Prod.ext_iff]
      by_cases hkey : k = first.1
      · subst hkey
        have hnone : last? first.1 rest = none := last?_eq_none_iff.mpr hlater
        simp [hnone, eq_comm]
      · simp [hkey]

/-- **A map is its entries sorted**, with the last one of each key. -/
theorem ofList_eq_sortOn (entries : List (String × α)) :
    ofList entries = sortOn Prod.fst (lastOfEach Prod.fst entries) := by
  have hne : (lastOfEach Prod.fst entries).Pairwise fun a b => a.1 ≠ b.1 :=
    pairwise_ne_lastOfEach entries
  have hlt := pairwise_lt_sortOn hne
  refine eq_of_find?_eq (ascending_ofList entries) hlt fun k => Option.ext fun value => ?_
  rw [find?_ofList, find?_eq_some_iff (pairwise_ne_of_lt hlt), mem_sortOn, mem_lastOfEach_iff]

end Keyed
end DataTerms
