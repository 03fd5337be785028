/-
# Bytes that end too early

What is read of a message whose bytes are cut off. A number is not read without its last byte,
since every byte before that says that another follows; a message within a message is not read
without all its bytes, since their number is held against all that is left. So a cut within a
field is found at that field, however deep in it the bytes end, and the only cuts that are not
found are those between two fields.

Key definitions: `Wire.IsCut`.
Key theorems: `Wire.IsCut.append`, `Wire.IsCut.flatMap`, `Wire.Varint.readGroups_cut`,
`Wire.mergeMessage_cut`, `Wire.Par.decode_append_cut`.
-/
import DataTerms.Proofs.Wire.Budget

namespace DataTerms
namespace Wire

open Outcomes

variable {α β : Type}

/-- The bytes `cut` are what is left of `whole` when bytes are missing at its end. -/
def IsCut (cut whole : List UInt8) : Prop := ∃ missing, missing ≠ [] ∧ cut ++ missing = whole

namespace IsCut

variable {cut whole front back : List UInt8}

theorem of_isPrefix (h : cut <+: whole) (hne : cut ≠ whole) : IsCut cut whole := by
  obtain ⟨missing, rfl⟩ := h
  refine ⟨missing, ?_, rfl⟩
  rintro rfl
  exact hne (List.append_nil cut).symm

theorem not_nil : ¬ IsCut cut [] := by
  rintro ⟨missing, hne, heq⟩
  exact hne (List.append_eq_nil_iff.mp heq).2

theorem cons {b : UInt8} (h : IsCut cut (b :: whole)) :
    cut = [] ∨ ∃ cut', IsCut cut' whole ∧ cut = b :: cut' := by
  obtain ⟨missing, hne, heq⟩ := h
  rcases List.append_eq_cons_iff.mp heq with ⟨rfl, -⟩ | ⟨cut', rfl, rfl⟩
  · exact .inl rfl
  · exact .inr ⟨cut', ⟨missing, hne, rfl⟩, rfl⟩

/-- The front is cut, or it is whole and the back is cut. -/
theorem append (h : IsCut cut (front ++ back)) :
    IsCut cut front ∨ ∃ cut', IsCut cut' back ∧ cut = front ++ cut' := by
  obtain ⟨missing, hne, heq⟩ := h
  rcases List.append_eq_append_iff.mp heq with ⟨left, rfl, rfl⟩ | ⟨cut', rfl, rfl⟩
  · by_cases hleft : left = []
    · subst hleft
      refine .inr ⟨[], ⟨back, hne, rfl⟩, ?_⟩
      rw [List.append_nil, List.append_nil]
    · exact .inl ⟨left, hleft, rfl⟩
  · exact .inr ⟨cut', ⟨missing, hne, rfl⟩, rfl⟩

/-- Of pieces one after the other some are whole, and the one after them is cut. -/
theorem flatMap {f : α → List UInt8} : ∀ {items : List α} {cut : List UInt8},
    IsCut cut (items.flatMap f) → ∃ (j : Nat) (h : j < items.length) (cut' : List UInt8),
      IsCut cut' (f items[j]) ∧ cut = (items.take j).flatMap f ++ cut'
  | [], _, h => absurd h not_nil
  | item :: items, cut, h => by
    rw [List.flatMap_cons] at h
    rcases h.append with hfirst | ⟨rest, hrest, rfl⟩
    · exact ⟨0, Nat.succ_pos _, cut, hfirst, rfl⟩
    · obtain ⟨j, hj, cut', hcut', rfl⟩ := hrest.flatMap
      refine ⟨j + 1, Nat.succ_lt_succ hj, cut', hcut', ?_⟩
      rw [List.take_succ_cons, List.flatMap_cons, List.append_assoc]

end IsCut

/-- Where the last byte of a number is missing, the number is refused: all bytes before it say
that another follows. -/
theorem Varint.readGroups_cut : ∀ (groups n : Nat) {cut : List UInt8}, IsCut cut (encode n) →
    readGroups groups (.ofList cut) = .error Reason.invalidVarint.fault
  | 0, _, _, _ => rfl
  | groups + 1, n, cut, h => by
    unfold encode at h
    split at h
    · rcases h.cons with rfl | ⟨_, hcut', -⟩
      · rfl
      · exact absurd hcut' IsCut.not_nil
    · rcases h.cons with rfl | ⟨cut', hcut', rfl⟩
      · rfl
      · have hb : (UInt8.ofNat (n % 128 + 128)).toNat = n % 128 + 128 := by
          simp only [UInt8.toNat_ofNat']
          omega
        have ih := readGroups_cut groups (n / 128) hcut'
        rw [readGroups, Input.next?_ofList_cons]
        simp only [hb, if_neg (by omega : ¬ n % 128 + 128 < 128), ih, error_bind]

theorem Key.read_cut {key : Key} {cut : List UInt8} (h : IsCut cut key.encode) :
    Key.read (.ofList cut) = .error Reason.invalidVarint.fault := by
  rw [Key.read, Varint.read, Varint.readGroups_cut 10 _ h, error_bind]

theorem mergeMessage_cut (merge : Option (Merge α)) (key : Key) (message : α)
    {bytes cut : List UInt8} (h : IsCut cut (delimited bytes)) (r : α × Input) :
    mergeMessage merge key message (.ofList cut) ≠ .ok r := by
  intro hread
  obtain ⟨-, hread⟩ := check_bind_eq_ok.mp hread
  cases merge with
  | none => cases hread
  | some merge =>
    obtain ⟨length, hlength, hrest⟩ := bind_eq_ok.mp hread
    rcases h.append with hcut | ⟨cut', ⟨missing, hne, hbytes⟩, rfl⟩
    · rw [Varint.read, Varint.readGroups_cut 10 _ hcut] at hlength
      cases hlength
    · obtain ⟨-, rfl⟩ := (Varint.gives_read bytes.length cut' length).mp hlength
      -- more bytes are announced than are left
      have hshort : (Input.ofList cut').size < bytes.length := by
        have hpos := List.length_pos_iff.mpr hne
        rw [Input.size_ofList, ← hbytes, List.length_append]
        omega
      simp only [if_pos hshort] at hrest
      cases hrest

/-- A field is refused where bytes of it are missing, if some are there and its value is refused
where bytes of that are missing. -/
theorem mergeFields_cut {merge : Merge α} {key : Key} {value cut : List UInt8} {message : α}
    (hkey : key.Valid) (hmerge : ∀ cut', IsCut cut' value → ∀ r,
      merge key message (.ofList cut') ≠ .ok r) (h : IsCut cut (key.encode ++ value))
    {steps : Nat} (hsteps : cut.length ≤ steps) (hne : cut ≠ []) (r : α × Input) :
    mergeFields merge 0 steps message (.ofList cut) ≠ .ok r := by
  intro hread
  have hpos := List.length_pos_iff.mpr hne
  obtain ⟨steps, rfl⟩ : ∃ left, steps = left + 1 := ⟨steps - 1, by omega⟩
  rw [mergeFields, if_neg (by rw [Input.size_ofList]; omega)] at hread
  obtain ⟨read, hread, hrest⟩ := bind_eq_ok.mp hread
  rcases h.append with hcut | ⟨cut', hcut', rfl⟩
  · rw [Key.read_cut hcut] at hread
    cases hread
  · obtain ⟨-, rfl⟩ := (Key.gives_read hkey cut' read).mp hread
    obtain ⟨merged, hmerged, -⟩ := bind_eq_ok.mp hrest
    exact hmerge cut' hcut' merged hmerged

/-- Sends and expressions are messages within a process, so they are refused where bytes are
missing. -/
theorem Par.merge_cut (budget : Nat) (inner : Option Merges) (par : Par) {n : Nat}
    (hn : n = 1 ∨ n = 5) {bytes cut : List UInt8} (h : IsCut cut (delimited bytes))
    (r : Par × Input) : Par.merge budget inner ⟨n, .lengthDelimited⟩ par (.ofList cut) ≠ .ok r := by
  intro hread
  rcases hn with rfl | rfl
  · change inField "Par.sends" (mergeMessage (inner.map (·.send)) ⟨1, .lengthDelimited⟩ {}
      (.ofList cut) >>= fun r => .ok ({ par with sends := par.sends ++ [r.1] }, r.2)) = .ok r at hread
    obtain ⟨send, hsend, -⟩ :=
      (inField_bind_eq_ok fun send => { par with sends := par.sends ++ [send] }).mp hread
    exact mergeMessage_cut _ _ _ h _ hsend
  · change inField "Par.exprs" (mergeMessage (inner.map (·.expr)) ⟨5, .lengthDelimited⟩ {}
      (.ofList cut) >>= fun r => .ok ({ par with exprs := par.exprs ++ [r.1] }, r.2)) = .ok r at hread
    obtain ⟨expr, hexpr, -⟩ :=
      (inField_bind_eq_ok fun expr => { par with exprs := par.exprs ++ [expr] }).mp hread
    exact mergeMessage_cut _ _ _ h _ hexpr

theorem Par.decode_append_cut (par : Par) {n : Nat} (hn : n = 1 ∨ n = 5)
    {bytes cut : List UInt8} (h : IsCut cut (bytesField n bytes)) (hne : cut ≠ []) (par' : Par) :
    Par.decode (par.encode ++ cut) ≠ .ok par' := by
  intro hread
  obtain ⟨read, hread, -⟩ := bind_eq_ok.mp hread
  rw [List.length_append] at hread
  obtain ⟨left, hleft, hrow⟩ := Par.isRow nestingBudget par 0
    (par.encode.length + cut.length) cut (Nat.zero_le _) (Nat.le_add_right _ _)
  obtain ⟨-, hrest⟩ := (hrow read).mp hread
  have hkey : (⟨n, .lengthDelimited⟩ : Key).Valid := by
    unfold Key.Valid
    rcases hn with rfl | rfl <;> decide
  have hmerge : ∀ cut', IsCut cut' (delimited bytes) → ∀ r,
      (merges nestingBudget).par ⟨n, .lengthDelimited⟩ par (.ofList cut') ≠ .ok r := by
    rw [merges_eq]
    exact fun cut' hcut' r => Par.merge_cut _ _ par hn hcut' r
  exact mergeFields_cut hkey hmerge h (by omega) hne read hrest

end Wire
end DataTerms
