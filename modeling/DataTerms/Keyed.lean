/-
# Keyed lists

A finite map from texts to values, held as a list of pairs in ascending order of
the keys, each key once. Texts are ordered by their characters' code points, which
is also the order of their UTF-8 bytes. Entering a key that is there already
replaces its value, so the entries of a map depend only on the last value given
for each key.

Key definitions: `Keyed.insert`, `Keyed.ofList`, `Keyed.find?`, `Keyed.Ascending`.
Key theorems: `Keyed.ascending_insert`, `Keyed.ascending_ofList`, `Keyed.find?_insert`.
-/
namespace DataTerms
namespace Keyed

variable {α : Type}

/-- Enters a value under a key, replacing the value that key had. -/
def insert (key : String) (value : α) : List (String × α) → List (String × α)
  | [] => [(key, value)]
  | entry :: rest =>
    if key < entry.1 then (key, value) :: entry :: rest
    else if key = entry.1 then (key, value) :: rest
    else entry :: insert key value rest

/-- The map of a list of entries: of two entries with one key the later counts. -/
def ofList (entries : List (String × α)) : List (String × α) :=
  entries.foldl (fun map entry => insert entry.1 entry.2 map) []

/-- The value of a key. -/
def find? (key : String) : List (String × α) → Option α
  | [] => none
  | entry :: rest => if key = entry.1 then some entry.2 else find? key rest

/-- The keys strictly ascend. -/
def Ascending (entries : List (String × α)) : Prop :=
  entries.Pairwise fun a b => a.1 < b.1

theorem mem_insert {key : String} {value : α} {entry : String × α} :
    ∀ {entries : List (String × α)}, entry ∈ insert key value entries →
      entry = (key, value) ∨ entry ∈ entries
  | [], h => by simpa [insert] using h
  | first :: rest, h => by
    unfold insert at h
    split at h
    · simpa using h
    · split at h
      · rcases List.mem_cons.mp h with h | h
        · exact Or.inl h
        · exact Or.inr (List.mem_cons_of_mem _ h)
      · rcases List.mem_cons.mp h with h | h
        · exact Or.inr (h ▸ List.mem_cons_self)
        · rcases mem_insert h with h | h
          · exact Or.inl h
          · exact Or.inr (List.mem_cons_of_mem _ h)

/-- Of two texts neither of which comes first, both are the same. -/
theorem eq_of_not_lt {a b : String} (h : ¬ a < b) (h' : ¬ b < a) : a = b :=
  String.le_antisymm (String.not_lt.mp h') (String.not_lt.mp h)

theorem ascending_insert {key : String} {value : α} :
    ∀ {entries : List (String × α)}, Ascending entries → Ascending (insert key value entries)
  | [], _ => by simp [insert, Ascending]
  | first :: rest, h => by
    obtain ⟨hfirst, hrest⟩ := List.pairwise_cons.mp h
    unfold insert
    split
    · next hlt =>
      refine List.pairwise_cons.mpr ⟨fun entry hmem => ?_, h⟩
      rcases List.mem_cons.mp hmem with rfl | hmem
      · exact hlt
      · exact String.lt_trans hlt (hfirst entry hmem)
    · next hlt =>
      split
      · next heq => exact List.pairwise_cons.mpr ⟨heq ▸ hfirst, hrest⟩
      · next hne =>
        refine List.pairwise_cons.mpr ⟨fun entry hmem => ?_, ascending_insert hrest⟩
        rcases mem_insert hmem with rfl | hmem
        · rcases Decidable.em (first.1 < key) with h' | h'
          · exact h'
          · exact absurd (eq_of_not_lt hlt h') hne
        · exact hfirst entry hmem

theorem ascending_foldl :
    ∀ (entries map : List (String × α)), Ascending map →
      Ascending (entries.foldl (fun map entry => insert entry.1 entry.2 map) map)
  | [], _, h => h
  | entry :: rest, map, h =>
    ascending_foldl rest (insert entry.1 entry.2 map) (ascending_insert h)

theorem ascending_ofList (entries : List (String × α)) : Ascending (ofList entries) :=
  ascending_foldl entries [] List.Pairwise.nil

/-- A key entered reads back as its value, and the other keys read as before. -/
theorem find?_insert (key key' : String) (value : α) :
    ∀ entries : List (String × α),
      find? key' (insert key value entries) = if key' = key then some value else find? key' entries
  | [] => by simp [insert, find?]
  | entry :: rest => by
    unfold insert
    split
    · simp [find?]
    · split
      · next heq =>
        subst heq
        by_cases h : key' = entry.1 <;> simp [find?, h]
      · next hne =>
        simp only [find?, find?_insert key key' value rest]
        by_cases h : key' = entry.1
        · simp [h, Ne.symm hne]
        · simp [h]

end Keyed
end DataTerms
