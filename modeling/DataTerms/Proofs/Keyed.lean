/-
# What a map depends on

A map is made by entering its entries one after the other, and holds for each key the value
entered last. Since its keys ascend, it is nothing more than that: two ways of entering make
the same map just when they agree on the last value of every key. So entries with two keys may
change places, and one that is replaced later leaves no trace. The entries of a map, entered in
their order, make the map again.

Key definitions: `Keyed.last?`.
Key theorems: `Keyed.find?_ofList`, `Keyed.eq_of_find?_eq`, `Keyed.ofList_eq_ofList_iff`,
`Keyed.insert_eq_append`, `Keyed.ofList_eq_self`.
-/
import DataTerms.Keyed

namespace DataTerms
namespace Keyed

variable {α β : Type} {key : String} {value : α}

/-! ### Entries in their order -/

/-- Whether the keys ascend depends on nothing but the keys. -/
theorem ascending_of_keys_eq {xs : List (String × α)} {ys : List (String × β)}
    (hkeys : ys.map (·.1) = xs.map (·.1)) (h : Ascending xs) : Ascending ys := by
  have hxs : (xs.map (·.1)).Pairwise (· < ·) := List.pairwise_map.mpr h
  rw [← hkeys] at hxs
  exact List.pairwise_map.mp hxs

/-- A key after all keys there are is entered at the end. -/
theorem insert_eq_append : ∀ {entries : List (String × α)}, (∀ entry ∈ entries, entry.1 < key) →
    insert key value entries = entries ++ [(key, value)]
  | [], _ => rfl
  | first :: rest, h => by
    obtain ⟨hfirst, hrest⟩ := List.forall_mem_cons.mp h
    have hlt : ¬ key < first.1 := fun hlt => String.lt_irrefl _ (String.lt_trans hlt hfirst)
    have hne : key ≠ first.1 := fun heq => String.lt_irrefl _ (heq ▸ hfirst)
    rw [insert, if_neg hlt, if_neg hne, insert_eq_append hrest, List.cons_append]

/-- In a map every key is after those before it. -/
theorem forall_lt_of_ascending {before rest : List (String × α)}
    (h : Ascending (before ++ (key, value) :: rest)) : ∀ entry ∈ before, entry.1 < key := by
  intro entry hmem
  exact (List.pairwise_append.mp h).2.2 entry hmem (key, value) List.mem_cons_self

/-- Entries whose keys are after those entered before them are entered behind them. -/
theorem foldl_insert_eq_append : ∀ {entries map : List (String × α)}, Ascending (map ++ entries) →
    entries.foldl (fun map entry => insert entry.1 entry.2 map) map = map ++ entries
  | [], map, _ => (List.append_nil map).symm
  | (key, value) :: rest, map, h => by
    have hinsert : insert key value map = map ++ [(key, value)] :=
      insert_eq_append (forall_lt_of_ascending h)
    have h' : Ascending (map ++ [(key, value)] ++ rest) := by rwa [List.append_assoc]
    rw [List.foldl_cons, hinsert, foldl_insert_eq_append h', List.append_assoc,
      List.singleton_append]

/-- The entries of a map make the map again. -/
theorem ofList_eq_self {entries : List (String × α)} (h : Ascending entries) :
    ofList entries = entries :=
  foldl_insert_eq_append h

theorem mem_foldl_insert {entry : String × α} : ∀ (entries map : List (String × α)),
    entry ∈ entries.foldl (fun map entry => insert entry.1 entry.2 map) map →
      entry ∈ entries ∨ entry ∈ map
  | [], _, h => .inr h
  | first :: rest, map, h => by
    rcases mem_foldl_insert rest (insert first.1 first.2 map) h with hrest | hmap
    · exact .inl (List.mem_cons_of_mem _ hrest)
    · rcases mem_insert hmap with rfl | hmap
      · exact .inl List.mem_cons_self
      · exact .inr hmap

theorem mem_ofList {entry : String × α} {entries : List (String × α)} (h : entry ∈ ofList entries) :
    entry ∈ entries := by
  rcases mem_foldl_insert entries [] h with hmem | hmem
  · exact hmem
  · cases hmem

/-! ### The values of keys -/

theorem find?_eq_none_of_ne : ∀ {entries : List (String × α)}, (∀ entry ∈ entries, key ≠ entry.1) →
    find? key entries = none
  | [], _ => rfl
  | first :: rest, h => by
    obtain ⟨hfirst, hrest⟩ := List.forall_mem_cons.mp h
    rw [find?, if_neg hfirst, find?_eq_none_of_ne hrest]

theorem find?_eq_none {entries : List (String × α)} (h : ∀ entry ∈ entries, entry.1 < key) :
    find? key entries = none :=
  find?_eq_none_of_ne fun entry hmem heq => String.lt_irrefl _ (heq ▸ h entry hmem)

theorem find?_eq_none_of_lt {entries : List (String × α)} (h : ∀ entry ∈ entries, key < entry.1) :
    find? key entries = none :=
  find?_eq_none_of_ne fun entry hmem heq => String.lt_irrefl _ (heq ▸ h entry hmem)

/-- A key that is not there is entered as one entry more. -/
theorem perm_insert : ∀ {entries : List (String × α)}, find? key entries = none →
    (insert key value entries).Perm ((key, value) :: entries)
  | [], _ => List.Perm.refl _
  | first :: rest, h => by
    rw [find?] at h
    split at h
    · cases h
    · next hne =>
      rw [insert, if_neg hne]
      split
      · exact List.Perm.refl _
      · exact ((perm_insert h).cons first).trans (List.Perm.swap _ _ _)

theorem mem_of_find?_eq_some : ∀ {entries : List (String × α)}, find? key entries = some value →
    (key, value) ∈ entries
  | first :: rest, h => by
    rw [find?] at h
    split at h
    · next heq =>
      subst heq
      rw [← Option.some.inj h]
      exact List.mem_cons_self
    · exact List.mem_cons_of_mem _ (mem_of_find?_eq_some h)

theorem find?_append (key : String) (back : List (String × α)) : ∀ front : List (String × α),
    find? key (front ++ back) = (find? key front).or (find? key back)
  | [] => rfl
  | first :: rest => by
    rw [List.cons_append, find?, find?, find?_append key back rest]
    split <;> rfl

/-- The order of entries does not matter to a key that no two of them have. -/
theorem find?_eq_of_perm {xs ys : List (String × α)} (h : xs.Perm ys)
    (hone : ∀ a ∈ xs, ∀ b ∈ xs, a.1 = key → b.1 = key → a = b) : find? key xs = find? key ys := by
  induction h with
  | nil => rfl
  | cons first _ ih =>
    have hrest := ih fun a ha b hb => hone a (List.mem_cons_of_mem _ ha) b (List.mem_cons_of_mem _ hb)
    rw [find?, find?, hrest]
  | swap first second rest =>
    by_cases hfirst : key = first.1
    · by_cases hsecond : key = second.1
      · rw [hone first (by simp) second (by simp) hfirst.symm hsecond.symm]
      · simp [find?, hsecond]
    · simp [find?, hfirst]
  | trans hfirst _ ih ih' =>
    rw [ih hone, ih' fun a ha b hb => hone a (hfirst.mem_iff.mpr ha) b (hfirst.mem_iff.mpr hb)]

theorem find?_map (key : String) (f : α → β) : ∀ entries : List (String × α),
    find? key (entries.map fun entry => (entry.1, f entry.2)) = (find? key entries).map f
  | [] => rfl
  | first :: rest => by
    rw [List.map_cons, find?, find?, find?_map key f rest]
    split <;> rfl

/-- The value that is entered last under a key. -/
def last? (key : String) (entries : List (String × α)) : Option α := find? key entries.reverse

theorem last?_cons (key : String) (entry : String × α) (rest : List (String × α)) :
    last? key (entry :: rest) =
      (last? key rest).or (if key = entry.1 then some entry.2 else none) := by
  rw [last?, List.reverse_cons, find?_append]
  rfl

theorem last?_append (key : String) (front back : List (String × α)) :
    last? key (front ++ back) = (last? key back).or (last? key front) := by
  rw [last?, List.reverse_append, find?_append]
  rfl

theorem last?_map (key : String) (f : α → β) (entries : List (String × α)) :
    last? key (entries.map fun entry => (entry.1, f entry.2)) = (last? key entries).map f := by
  rw [last?, ← List.map_reverse, find?_map]
  rfl

theorem mem_of_last?_eq_some {entries : List (String × α)} (h : last? key entries = some value) :
    (key, value) ∈ entries :=
  List.mem_reverse.mp (mem_of_find?_eq_some h)

/-- What is entered into a map hides the values that the map had. -/
theorem find?_foldl_insert (key : String) : ∀ entries map : List (String × α),
    find? key (entries.foldl (fun map entry => insert entry.1 entry.2 map) map) =
      (last? key entries).or (find? key map)
  | [], _ => rfl
  | entry :: rest, map => by
    rw [List.foldl_cons, find?_foldl_insert key rest, find?_insert, last?_cons, Option.or_assoc]
    split <;> rfl

theorem find?_ofList (key : String) (entries : List (String × α)) :
    find? key (ofList entries) = last? key entries := by
  rw [ofList, find?_foldl_insert]
  exact Option.or_none

/-- The first key of a map is found in another one with the same values, so it is not before
all keys there. -/
theorem not_lt_of_find?_eq {x y : String × α} {xs ys : List (String × α)}
    (hys : ∀ entry ∈ ys, y.1 < entry.1)
    (h : ∀ key, find? key (x :: xs) = find? key (y :: ys)) : ¬ x.1 < y.1 := by
  intro hlt
  have hnone : find? x.1 (y :: ys) = none := by
    refine find?_eq_none_of_lt (List.forall_mem_cons.mpr ⟨hlt, fun entry hmem => ?_⟩)
    exact String.lt_trans hlt (hys entry hmem)
  rw [← h, find?, if_pos rfl] at hnone
  cases hnone

/-- Two maps with the same values of the same keys are the same. -/
theorem eq_of_find?_eq : ∀ {xs ys : List (String × α)}, Ascending xs → Ascending ys →
    (∀ key, find? key xs = find? key ys) → xs = ys
  | [], [], _, _, _ => rfl
  | [], y :: ys, _, _, h => by simpa [find?] using h y.1
  | x :: xs, [], _, _, h => by simpa [find?] using h x.1
  | x :: xs, y :: ys, hx, hy, h => by
    obtain ⟨hx, hxs⟩ := List.pairwise_cons.mp hx
    obtain ⟨hy, hys⟩ := List.pairwise_cons.mp hy
    have hkey : x.1 = y.1 :=
      eq_of_not_lt (not_lt_of_find?_eq hy h) (not_lt_of_find?_eq hx fun key => (h key).symm)
    have hvalue : some x.2 = some y.2 := by
      have hfirst := h x.1
      rwa [find?, if_pos rfl, find?, if_pos hkey] at hfirst
    have hrest : ∀ key, find? key xs = find? key ys := by
      intro key
      by_cases hfirst : key = x.1
      · rw [hfirst, find?_eq_none_of_lt hx, hkey, find?_eq_none_of_lt hy]
      · have hfound := h key
        rwa [find?, if_neg hfirst, find?, if_neg (hkey ▸ hfirst)] at hfound
    rw [eq_of_find?_eq hxs hys hrest, Prod.ext hkey (Option.some.inj hvalue)]

/-- **A map is the last values that were entered**, whatever the order and whatever was entered
under the same keys before. -/
theorem ofList_eq_ofList_iff {xs ys : List (String × α)} :
    ofList xs = ofList ys ↔ ∀ key, last? key xs = last? key ys := by
  constructor
  · intro h key
    rw [← find?_ofList, h, find?_ofList]
  · intro h
    refine eq_of_find?_eq (ascending_ofList xs) (ascending_ofList ys) fun key => ?_
    rw [find?_ofList, find?_ofList, h]

/-- Two neighbours with two keys may change places. -/
theorem ofList_swap {a b : String × α} (h : a.1 ≠ b.1) (before after : List (String × α)) :
    ofList (before ++ a :: b :: after) = ofList (before ++ b :: a :: after) := by
  refine ofList_eq_ofList_iff.mpr fun key => ?_
  simp only [last?_append, last?_cons, Option.or_assoc]
  congr 1
  by_cases ha : key = a.1
  · have hb : key ≠ b.1 := fun heq => h (ha.symm.trans heq)
    rw [if_neg hb]
    simp
  · rw [if_neg ha]
    simp

end Keyed
end DataTerms
