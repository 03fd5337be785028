/-
# Numbers in JSON and their places

A number stands in JSON at a place: the indices of items and the names of members that lead to it.
`numbers` goes through JSON in the order in which it is written, and comes to each number once, at
its place, and to the places in their order. So the first number that is not whole or has not 64
bits with a sign is known by its place: no other such number has a place before it.

Key definitions: `Json.at?`, `Json.numbers`, `Json.Number.IsInt64`, `Json.FirstMisfit`.
Key theorems: `Json.mem_numbers`, `Json.pairwise_numbers`, `Json.misfit?_eq_some`.
-/
import DataTerms.Json.Basic
import DataTerms.Proofs.Keyed.Sorting
import DataTerms.Proofs.Path

namespace DataTerms
namespace Json

open DataTerms.Path (Step)

/-! ### Places -/

/-- What a step from JSON leads to. -/
def step? : Step → Json → Option Json
  | .index i, .array items => items[i]?
  | .key name, .object members => Keyed.find? name members
  | _, _ => none

/-- What is at a place in JSON. -/
def at? : List Step → Json → Option Json
  | [], json => some json
  | step :: rest, json => (json.step? step).bind (at? rest)

theorem at?_index {items : List Json} {i : Nat} {rest : List Step} {value : Json} :
    (array items).at? (.index i :: rest) = some value ↔
      ∃ item, items[i]? = some item ∧ item.at? rest = some value :=
  Option.bind_eq_some_iff

theorem at?_key {members : List (String × Json)} (h : Keyed.Ascending members) {name : String}
    {rest : List Step} {value : Json} :
    (object members).at? (.key name :: rest) = some value ↔
      ∃ member, (name, member) ∈ members ∧ member.at? rest = some value := by
  have hfind : ∀ member, Keyed.find? name members = some member ↔ (name, member) ∈ members :=
    fun _ => Keyed.find?_eq_some_iff (Keyed.pairwise_ne_of_lt h)
  simp only [at?, step?, Option.bind_eq_some_iff, hfind]

/-! ### Numbers -/

/-- A number below a step. -/
def beneath (step : Step) (found : List Step × Number) : List Step × Number :=
  (step :: found.1, found.2)

mutual

/-- The numbers in JSON with their places, in the order in which they are written. -/
def numbers : Json → List (List Step × Number)
  | .null | .bool _ | .string _ => []
  | .number value => [([], value)]
  | .array items => numbersInItems 0 items
  | .object members => numbersInMembers members

/-- The numbers in the items of an array, from the one with the index `i` on. -/
def numbersInItems (i : Nat) : List Json → List (List Step × Number)
  | [] => []
  | item :: rest => item.numbers.map (beneath (.index i)) ++ numbersInItems (i + 1) rest

/-- The numbers in the members of an object. -/
def numbersInMembers : List (String × Json) → List (List Step × Number)
  | [] => []
  | (name, member) :: rest => member.numbers.map (beneath (.key name)) ++ numbersInMembers rest

end

theorem mem_map_beneath {step : Step} {place : List Step} {number : Number}
    {found : List (List Step × Number)} :
    (place, number) ∈ found.map (beneath step) ↔
      ∃ rest, place = step :: rest ∧ (rest, number) ∈ found := by
  rw [List.mem_map]
  constructor
  · rintro ⟨⟨rest, _⟩, hmem, heq⟩
    obtain ⟨rfl, rfl⟩ := Prod.mk.inj heq
    exact ⟨rest, rfl, hmem⟩
  · rintro ⟨rest, rfl, hmem⟩
    exact ⟨(rest, number), hmem, rfl⟩

mutual

/-- The numbers in JSON are those that are at some place. -/
theorem mem_numbers {number : Number} : ∀ {json : Json}, json.Ordered → ∀ {place : List Step},
    (place, number) ∈ json.numbers ↔ json.at? place = some (.number number)
  | .null, _, place | .bool _, _, place | .string _, _, place => by
    cases place <;> simp [numbers, at?, step?]
  | .number value, _, place => by
    cases place <;> simp [numbers, at?, step?, eq_comm]
  | .array items, h, place => by
    rw [numbers, mem_numbersInItems h]
    cases place with
    | nil => simp [at?]
    | cons step rest =>
      cases step with
      | key name => simp [at?, step?]
      | index i =>
        simp only [at?_index, Nat.zero_add, List.cons.injEq, Step.index.injEq]
        constructor
        · rintro ⟨_, _, ⟨rfl, rfl⟩, hitem⟩
          exact hitem
        · exact fun hitem => ⟨i, rest, ⟨rfl, rfl⟩, hitem⟩
  | .object members, h, place => by
    rw [numbers, mem_numbersInMembers h.2]
    cases place with
    | nil => simp [at?]
    | cons step rest =>
      cases step with
      | index i => simp [at?, step?]
      | key name =>
        simp only [at?_key h.1, List.cons.injEq, Step.key.injEq]
        constructor
        · rintro ⟨_, _, ⟨rfl, rfl⟩, hmember⟩
          exact hmember
        · exact fun hmember => ⟨name, rest, ⟨rfl, rfl⟩, hmember⟩

theorem mem_numbersInItems {number : Number} : ∀ {items : List Json}, OrderedItems items →
    ∀ {i : Nat} {place : List Step}, (place, number) ∈ numbersInItems i items ↔
      ∃ k rest, place = .index (i + k) :: rest ∧
        ∃ item, items[k]? = some item ∧ item.at? rest = some (.number number)
  | [], _, i, place => by simp [numbersInItems]
  | first :: items, h, i, place => by
    have hfirst : ∀ rest, (rest, number) ∈ first.numbers ↔ first.at? rest = some (.number number) :=
      fun _ => mem_numbers h.1
    rw [numbersInItems, List.mem_append, mem_map_beneath, mem_numbersInItems h.2]
    simp only [hfirst]
    constructor
    · rintro (⟨rest, rfl, hat⟩ | ⟨k, rest, rfl, item, hitem, hat⟩)
      · exact ⟨0, rest, rfl, first, rfl, hat⟩
      · exact ⟨k + 1, rest, by rw [Nat.add_right_comm, Nat.add_assoc], item, hitem, hat⟩
    · rintro ⟨k, rest, rfl, item, hitem, hat⟩
      cases k with
      | zero =>
        obtain rfl : first = item := Option.some.inj hitem
        exact .inl ⟨rest, rfl, hat⟩
      | succ k => exact .inr ⟨k, rest, by rw [Nat.add_right_comm, Nat.add_assoc], item, hitem, hat⟩

theorem mem_numbersInMembers {number : Number} : ∀ {members : List (String × Json)},
    OrderedMembers members → ∀ {place : List Step}, (place, number) ∈ numbersInMembers members ↔
      ∃ name rest, place = .key name :: rest ∧
        ∃ member, (name, member) ∈ members ∧ member.at? rest = some (.number number)
  | [], _, place => by simp [numbersInMembers]
  | (name, first) :: members, h, place => by
    have hfirst : ∀ rest, (rest, number) ∈ first.numbers ↔ first.at? rest = some (.number number) :=
      fun _ => mem_numbers h.1
    rw [numbersInMembers, List.mem_append, mem_map_beneath, mem_numbersInMembers h.2]
    simp only [hfirst]
    constructor
    · rintro (⟨rest, rfl, hat⟩ | ⟨name, rest, rfl, member, hmem, hat⟩)
      · exact ⟨name, rest, rfl, first, List.mem_cons_self, hat⟩
      · exact ⟨name, rest, rfl, member, List.mem_cons_of_mem _ hmem, hat⟩
    · rintro ⟨name', rest, rfl, member, hmem, hat⟩
      rcases List.mem_cons.mp hmem with heq | hmem
      · obtain ⟨rfl, rfl⟩ := Prod.mk.inj heq
        exact .inl ⟨rest, rfl, hat⟩
      · exact .inr ⟨name', rest, rfl, member, hmem, hat⟩

end

/-! ### The order of places -/

theorem pairwise_map_beneath {step : Step} {found : List (List Step × Number)}
    (h : found.Pairwise fun a b => a.1 < b.1) :
    (found.map (beneath step)).Pairwise fun a b => a.1 < b.1 :=
  List.pairwise_map.mpr (h.imp fun hlt => List.cons_lt_cons_iff.mpr (.inr ⟨rfl, hlt⟩))

mutual

/-- The numbers in JSON come in the order of their places. -/
theorem pairwise_numbers : ∀ {json : Json}, json.Ordered →
    json.numbers.Pairwise fun a b => a.1 < b.1
  | .null, _ | .bool _, _ | .string _, _ => .nil
  | .number _, _ => List.pairwise_singleton _ _
  | .array _, h => pairwise_numbersInItems 0 h
  | .object _, h => pairwise_numbersInMembers h.1 h.2

theorem pairwise_numbersInItems (i : Nat) : ∀ {items : List Json}, OrderedItems items →
    (numbersInItems i items).Pairwise fun a b => a.1 < b.1
  | [], _ => .nil
  | item :: rest, h => by
    rw [numbersInItems, List.pairwise_append]
    refine ⟨pairwise_map_beneath (pairwise_numbers h.1), pairwise_numbersInItems (i + 1) h.2, ?_⟩
    rintro ⟨place, number⟩ hmem ⟨place', number'⟩ hmem'
    obtain ⟨below, rfl, -⟩ := mem_map_beneath.mp hmem
    obtain ⟨k, below', rfl, -⟩ := (mem_numbersInItems h.2).mp hmem'
    have hstep : Step.index i < .index (i + 1 + k) := (by omega : i < i + 1 + k)
    exact List.cons_lt_cons_iff.mpr (.inl hstep)

theorem pairwise_numbersInMembers : ∀ {members : List (String × Json)},
    Keyed.Ascending members → OrderedMembers members →
    (numbersInMembers members).Pairwise fun a b => a.1 < b.1
  | [], _, _ => .nil
  | (name, member) :: rest, hnames, h => by
    obtain ⟨hfirst, hnames⟩ := List.pairwise_cons.mp hnames
    rw [numbersInMembers, List.pairwise_append]
    refine ⟨pairwise_map_beneath (pairwise_numbers h.1), pairwise_numbersInMembers hnames h.2, ?_⟩
    rintro ⟨place, number⟩ hmem ⟨place', number'⟩ hmem'
    obtain ⟨below, rfl, -⟩ := mem_map_beneath.mp hmem
    obtain ⟨name', below', rfl, member', hmember', -⟩ := (mem_numbersInMembers h.2).mp hmem'
    have hstep : Step.key name < .key name' := hfirst _ hmember'
    exact List.cons_lt_cons_iff.mpr (.inl hstep)

end

/-! ### Numbers that are not whole or too great -/

/-- A number is whole and has 64 bits with a sign. A binary number is not whole, and neither is
`-0`, which is held as one. -/
def Number.IsInt64 : Number → Prop
  | .int value => Int64.minValue.toInt ≤ value ∧ value ≤ Int64.maxValue.toInt
  | .float _ => False

instance : DecidablePred Number.IsInt64
  | .int _ => inferInstanceAs (Decidable (_ ∧ _))
  | .float _ => inferInstanceAs (Decidable False)

/-- The number at a place is not whole or has not 64 bits with a sign. -/
def Misfit (json : Json) (place : List Step) (number : Number) : Prop :=
  json.at? place = some (.number number) ∧ ¬ number.IsInt64

/-- The number at a place is the first that is not whole or has not 64 bits with a sign. -/
def FirstMisfit (json : Json) (place : List Step) (number : Number) : Prop :=
  json.Misfit place number ∧
    ∀ other number', json.Misfit other number' → other = place ∨ place < other

/-- The first of some numbers that is not whole or has not 64 bits with a sign. -/
def misfit? (found : List (List Step × Number)) : Option (List Step × Number) :=
  found.find? fun each => ¬ each.2.IsInt64

theorem misfit?_append (front back : List (List Step × Number)) :
    misfit? (front ++ back) = (misfit? front).or (misfit? back) :=
  List.find?_append

/-- A step before the places makes no difference to what is found. -/
theorem misfit?_map_beneath (step : Step) (found : List (List Step × Number)) :
    misfit? (found.map (beneath step)) = (misfit? found).map (beneath step) :=
  List.find?_map

variable {json : Json} {place other : List Step} {number number' : Number}

theorem misfit?_eq_none (h : json.Ordered) :
    misfit? json.numbers = none ↔ ∀ place number, ¬ json.Misfit place number := by
  simp [misfit?, Misfit, mem_numbers h]

/-- The first of them is found. -/
theorem firstMisfit_of_eq_some (h : json.Ordered)
    (hfound : misfit? json.numbers = some (place, number)) :
    json.FirstMisfit place number := by
  obtain ⟨hmisfit, before, after, hnumbers, hbefore⟩ := List.find?_eq_some_iff_append.mp hfound
  have hmem : (place, number) ∈ json.numbers := by simp [hnumbers]
  refine ⟨⟨(mem_numbers h).mp hmem, of_decide_eq_true hmisfit⟩, ?_⟩
  rintro other number' ⟨hat, hmisfit'⟩
  have hmem' := (mem_numbers h).mpr hat
  have hpairwise := pairwise_numbers h
  rw [hnumbers] at hmem' hpairwise
  rcases List.mem_append.mp hmem' with hmem' | hmem'
  · exact absurd (hbefore _ hmem') (by simpa using hmisfit')
  · rcases List.mem_cons.mp hmem' with heq | hmem'
    · exact .inl (Prod.mk.inj heq).1
    · have hafter := (List.pairwise_cons.mp (List.pairwise_append.mp hpairwise).2.1).1
      exact .inr (hafter _ hmem')

/-- There is no more than one first number of a sort. -/
theorem FirstMisfit.unique (h : json.FirstMisfit place number)
    (h' : json.FirstMisfit other number') : place = other ∧ number = number' := by
  have hplace : place = other := by
    rcases h'.2 place number h.1 with heq | hlt
    · exact heq
    · rcases h.2 other number' h'.1 with heq | hlt'
      · exact heq.symm
      · exact absurd hlt (List.lt_asymm hlt')
  subst hplace
  have hat := h.1.1.symm.trans h'.1.1
  exact ⟨rfl, Json.number.inj (Option.some.inj hat)⟩

theorem misfit?_eq_some (h : json.Ordered) :
    misfit? json.numbers = some (place, number) ↔ json.FirstMisfit place number := by
  constructor
  · exact firstMisfit_of_eq_some h
  · intro hfirst
    cases hfound : misfit? json.numbers with
    | none => exact absurd hfirst.1 ((misfit?_eq_none h).mp hfound place number)
    | some found =>
      obtain ⟨hplace, hnumber⟩ := hfirst.unique (firstMisfit_of_eq_some h hfound)
      rw [hplace, hnumber]

end Json
end DataTerms
