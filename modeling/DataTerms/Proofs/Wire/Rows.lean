/-
# Rows of fields

What reading gives on bytes that were written. A field that was written is read back
whatever follows it, so a row of fields is read one after the other, and what it does to a
message is what its fields do. Reading can fail on written bytes in two ways only: a length
has more than 64 bits, or messages nest beyond the budget. So each statement comes with the
condition `sure`, and reading succeeds exactly under it.

Key definitions: `Wire.Gives`, `Wire.IsField`, `Wire.IsRow`.
Key theorems: `Wire.IsRow.append`, `Wire.IsRow.repeated`, `Wire.IsRow.mergeMessage`.
-/
import DataTerms.Proofs.Outcomes
import DataTerms.Wire.Reading
import Mathlib.Algebra.Group.Nat.Defs

namespace DataTerms
namespace Wire

open Outcomes

variable {α β : Type}

/-- Reading succeeds just when `sure`, and then gives the value with `rest` left. -/
def Gives (result : Except Fault (α × Input)) (sure : Prop) (value : α)
    (rest : List UInt8) : Prop :=
  ∀ r, result = .ok r ↔ sure ∧ r = (value, .ofList rest)

namespace Gives

variable {result : Except Fault (α × Input)} {sure sure' : Prop} {value : α} {rest : List UInt8}

theorem of_eq_ok (h : result = .ok (value, .ofList rest)) : Gives result True value rest := by
  intro r
  rw [h]
  simp [eq_comm]

theorem of_eq_error {fault : Fault} (h : result = .error fault) : Gives result False value rest := by
  intro r
  simp [h]

theorem congr (h : Gives result sure value rest) (hs : sure ↔ sure') :
    Gives result sure' value rest :=
  fun r => (h r).trans (and_congr hs Iff.rfl)

/-- One reading after another succeeds when both do. -/
theorem bind {value' : β} {rest' : List UInt8} {next : α × Input → Except Fault (β × Input)}
    (h : Gives result sure value rest)
    (h' : Gives (next (value, .ofList rest)) sure' value' rest') :
    Gives (result >>= next) (sure ∧ sure') value' rest' := by
  intro r
  rw [bind_eq_ok]
  constructor
  · rintro ⟨first, hfirst, hnext⟩
    obtain ⟨hs, rfl⟩ := (h first).mp hfirst
    obtain ⟨hs', hr⟩ := (h' r).mp hnext
    exact ⟨⟨hs, hs'⟩, hr⟩
  · rintro ⟨⟨hs, hs'⟩, hr⟩
    exact ⟨_, (h _).mpr ⟨hs, rfl⟩, (h' r).mpr ⟨hs', hr⟩⟩

/-- What is read may be made into something else. -/
theorem map (h : Gives result sure value rest) (f : α → β) :
    Gives (result >>= fun r => .ok (f r.1, r.2)) sure (f value) rest := by
  have hf : Gives (.ok (f value, .ofList rest)) True (f value) rest := of_eq_ok rfl
  exact (h.bind hf).congr (and_iff_left trivial)

theorem inField (h : Gives result sure value rest) (name : String) :
    Gives (inField name result) sure value rest := by
  intro r
  rw [← h r]
  cases result <;> simp [Wire.inField]

end Gives

/-! ### Values -/

/-- The number of the bytes has no more than 64 bits. -/
def Short (bytes : List UInt8) : Prop := bytes.length < 2 ^ 64

/-- Every row of bytes is short. -/
def AllShort (rows : List (List UInt8)) : Prop := ∀ bytes ∈ rows, Short bytes

theorem Varint.room_pos : ∀ groups : Nat, 0 < room groups
  | 0 => by decide
  | groups + 1 => by
    have ih := room_pos groups
    rw [room]
    omega

/-- A number beyond what a row of groups has room for is refused. -/
theorem Varint.readGroups_encode_beyond (rest : List UInt8) :
    ∀ (groups n : Nat), room groups ≤ n →
      readGroups (groups + 1) (.ofList (encode n ++ rest)) = .error Reason.invalidVarint.fault
  | groups, n, h => by
    unfold encode
    split
    · next hn =>
      have hb : (UInt8.ofNat n).toNat = n := by
        simp only [UInt8.toNat_ofNat']
        omega
      cases groups with
      | zero => simp [readGroups, hb, hn, show 2 ≤ n from h]
      | succ groups =>
        have hroom := room_pos groups
        rw [room] at h
        omega
    · next hn =>
      have hb : (UInt8.ofNat (n % 128 + 128)).toNat = n % 128 + 128 := by
        simp only [UInt8.toNat_ofNat']
        omega
      rw [List.cons_append, readGroups]
      simp only [Input.next?_ofList_cons, hb, if_neg (by omega : ¬ n % 128 + 128 < 128)]
      cases groups with
      | zero => rfl
      | succ groups =>
        rw [room] at h
        rw [readGroups_encode_beyond rest groups (n / 128) (by omega)]
        rfl

/-- A number that was written is read back if it has no more than 64 bits. -/
theorem Varint.gives_read (n : Nat) (rest : List UInt8) :
    Gives (Varint.read (.ofList (Varint.encode n ++ rest))) (n < 2 ^ 64) n rest := by
  by_cases h : n < 2 ^ 64
  · exact (Gives.of_eq_ok (read_encode h rest)).congr (iff_of_true trivial h)
  · have hbeyond := readGroups_encode_beyond rest 9 n (Nat.not_lt.mp h)
    exact (Gives.of_eq_error hbeyond).congr (iff_of_false not_false h)

/-- The key of a field can be written and read: its number is from 1 on and has 29 bits. -/
def Key.Valid (key : Key) : Prop := 0 < key.field ∧ key.field < 2 ^ 29

theorem WireType.number_lt (layout : WireType) : layout.number < 8 := by
  cases layout <;> decide

theorem Key.gives_read {key : Key} (h : key.Valid) (rest : List UInt8) :
    Gives (Key.read (.ofList (key.encode ++ rest))) True key rest := by
  obtain ⟨field, layout⟩ := key
  obtain ⟨hpos, hlt⟩ := h
  simp only at hpos hlt
  have hnum := layout.number_lt
  refine .of_eq_ok ?_
  have hbits : 8 * field + layout.number < 2 ^ 64 := by omega
  have hsize : ¬ UInt32.size ≤ 8 * field + layout.number := by
    unfold UInt32.size
    omega
  rw [Key.read, Key.encode, Varint.read_encode hbits rest, ok_bind]
  have hmod : (8 * field + layout.number) % 8 = layout.number := by omega
  have hdiv : (8 * field + layout.number) / 8 = field := by omega
  simp only [if_neg hsize, hmod, hdiv, WireType.ofNat?_number, if_neg (by omega : ¬ field = 0),
    pure_eq]

theorem gives_readBool (n : Nat) (value : Bool) (rest : List UInt8) :
    Gives (readBool ⟨n, .varint⟩ (.ofList (Varint.encode value.toNat ++ rest))) True value rest := by
  have hlt : value.toNat < 2 ^ 64 := by cases value <;> decide
  have hne : (value.toNat != 0) = value := by cases value <;> rfl
  refine .of_eq_ok ?_
  rw [readBool, Key.expect, if_pos rfl, ok_bind, Varint.read_encode hlt rest, ok_bind]
  simp only [hne, pure_eq]

/-- Every signed number of 64 bits is one of 64 bits when it is folded. -/
theorem Varint.fold_toInt_lt (value : Int64) : fold value.toInt < 2 ^ 64 := by
  have hle := value.le_toInt
  have hlt := value.toInt_lt
  unfold fold
  split <;> omega

theorem gives_readSigned (n : Nat) (value : Int64) (rest : List UInt8) :
    Gives (readSigned ⟨n, .varint⟩ (.ofList (Varint.encode (Varint.fold value.toInt) ++ rest)))
      True value rest := by
  refine .of_eq_ok ?_
  rw [readSigned, Key.expect, if_pos rfl, ok_bind,
    Varint.read_encode (Varint.fold_toInt_lt value) rest, ok_bind]
  simp only [Varint.unfold_fold, Int64.ofInt_toInt, pure_eq]

theorem gives_readDelimited (bytes rest : List UInt8) :
    Gives (readDelimited (.ofList (delimited bytes ++ rest))) (Short bytes) bytes rest := by
  rw [readDelimited, delimited, List.append_assoc]
  refine ((Varint.gives_read bytes.length (bytes ++ rest)).bind (.of_eq_ok ?_)).congr
    (and_iff_left trivial)
  simp only [Input.take?_ofList_append, pure_eq]

theorem gives_readBytes (n : Nat) (bytes rest : List UInt8) :
    Gives (readBytes ⟨n, .lengthDelimited⟩ (.ofList (delimited bytes ++ rest)))
      (Short bytes) bytes rest := by
  rw [readBytes, Key.expect, if_pos rfl, ok_bind]
  exact gives_readDelimited bytes rest

theorem gives_readText (n : Nat) (text : String) (rest : List UInt8) :
    Gives (readText ⟨n, .lengthDelimited⟩ (.ofList (delimited (Utf8.encode text) ++ rest)))
      (Short (Utf8.encode text)) text rest := by
  rw [readText]
  refine ((gives_readBytes n (Utf8.encode text) rest).bind (.of_eq_ok ?_)).congr
    (and_iff_left trivial)
  simp only [Utf8.decode_encode, pure_eq]

/-! ### Fields and rows -/

/-- The bytes are one field, with which `merge` takes the message `a` to `b` just when
`sure`, whatever follows. -/
def IsField (merge : Merge α) (sure : Prop) (bytes : List UInt8) (a b : α) : Prop :=
  ∃ (key : Key) (value : List UInt8), key.Valid ∧ bytes = key.encode ++ value ∧
    ∀ rest, Gives (merge key a (.ofList (value ++ rest))) sure b rest

/-- A field is what `merge` reads its value by and makes of the message with it. -/
theorem IsField.of_gives {merge : Merge α} {sure : Prop} {n : Nat} {layout : WireType}
    {value : List UInt8} {a : α} {x : β} {name : String} {read : Input → Except Fault (β × Input)}
    (put : β → α) (hn : 0 < n ∧ n < 2 ^ 29)
    (hread : ∀ rest, Gives (read (.ofList (value ++ rest))) sure x rest)
    (hmerge : ∀ input, merge ⟨n, layout⟩ a input =
      inField name (read input >>= fun r => .ok (put r.1, r.2))) :
    IsField merge sure (Key.encode ⟨n, layout⟩ ++ value) a (put x) := by
  refine ⟨⟨n, layout⟩, value, hn, rfl, fun rest => ?_⟩
  rw [hmerge]
  exact ((hread rest).map put).inField name

/-- The bytes are a row of fields, with which `merge` takes the message `a` to `b` just when
`sure`, whatever follows: reading on from there has the steps that the row leaves. -/
def IsRow (merge : Merge α) (sure : Prop) (bytes : List UInt8) (a b : α) : Prop :=
  ∀ stop steps rest, stop ≤ rest.length → bytes.length ≤ steps →
    ∃ left, steps ≤ bytes.length + left ∧
      ∀ r, mergeFields merge stop steps a (.ofList (bytes ++ rest)) = .ok r ↔
        sure ∧ mergeFields merge stop left b (.ofList rest) = .ok r

theorem Varint.length_encode_pos (n : Nat) : 0 < (encode n).length := by
  unfold encode
  split <;> simp

/-- A number takes no more bytes than there are groups of seven bits with room for it. -/
theorem Varint.length_encode_le : ∀ (groups : Nat) {n : Nat}, n < 128 ^ (groups + 1) →
    (encode n).length ≤ groups + 1
  | 0, n, h => by
    have hn : n < 128 := h
    rw [encode, if_pos hn]
    exact Nat.le_refl 1
  | groups + 1, n, h => by
    rw [encode]
    split
    · exact Nat.le_add_left 1 (groups + 1)
    · have hhigh : n / 128 < 128 ^ (groups + 1) :=
        Nat.div_lt_of_lt_mul (by rwa [Nat.pow_succ, Nat.mul_comm] at h)
      exact Nat.succ_le_succ (length_encode_le groups hhigh)

/-- A field takes four bytes more than what it holds, if that is little. -/
theorem length_bytesField_le {field : Nat} {bytes : List UInt8} (hfield : field < 2000)
    (hlen : bytes.length < 128 ^ 2) : (bytesField field bytes).length ≤ bytes.length + 4 := by
  have hkey : (Key.encode ⟨field, .lengthDelimited⟩).length ≤ 2 :=
    Varint.length_encode_le 1 (show 8 * field + 2 < 128 ^ 2 by omega)
  have hcount : (Varint.encode bytes.length).length ≤ 2 := Varint.length_encode_le 1 hlen
  rw [bytesField, delimited, List.length_append, List.length_append]
  omega

/-- Where no bytes are left but those after the message, it is finished. -/
theorem mergeFields_of_size_le {merge : Merge α} {stop : Nat} {input : Input}
    (h : input.size ≤ stop) (steps : Nat) (a : α) :
    mergeFields merge stop steps a input = .ok (a, input) := by
  cases steps with
  | zero => rfl
  | succ steps => rw [mergeFields, if_pos h]

namespace IsRow

variable {merge : Merge α} {sure sure' : Prop} {bytes bytes' : List UInt8} {a b c : α}

theorem congr (h : IsRow merge sure bytes a b) (hs : sure ↔ sure') : IsRow merge sure' bytes a b :=
  propext hs ▸ h

/-- No fields change nothing. -/
theorem nil (merge : Merge α) (a : α) : IsRow merge True [] a a := by
  intro stop steps rest _ _
  exact ⟨steps, by simp, fun r => by simp⟩

theorem of_isField (h : IsField merge sure bytes a b) : IsRow merge sure bytes a b := by
  obtain ⟨key, value, hkey, rfl, hvalue⟩ := h
  intro stop steps rest hstop hsteps
  have hpos : 0 < key.encode.length := Varint.length_encode_pos _
  rw [List.length_append] at hsteps
  obtain ⟨left, rfl⟩ : ∃ left, steps = left + 1 := ⟨steps - 1, by omega⟩
  refine ⟨left, by rw [List.length_append]; omega, fun r => ?_⟩
  have hsize : ¬ (Input.ofList (key.encode ++ value ++ rest)).size ≤ stop := by
    simp only [Input.size_ofList, List.length_append]
    omega
  rw [mergeFields, if_neg hsize, List.append_assoc, bind_eq_ok]
  -- one step reads the key and then the value, and leaves the rest
  constructor
  · rintro ⟨read, hread, hmerge⟩
    obtain ⟨-, rfl⟩ := (Key.gives_read hkey (value ++ rest) read).mp hread
    obtain ⟨merged, hmerged, hrest⟩ := bind_eq_ok.mp hmerge
    obtain ⟨hs, rfl⟩ := (hvalue rest merged).mp hmerged
    exact ⟨hs, hrest⟩
  · rintro ⟨hs, hrest⟩
    refine ⟨_, (Key.gives_read hkey (value ++ rest) _).mpr ⟨trivial, rfl⟩, ?_⟩
    exact bind_eq_ok.mpr ⟨_, (hvalue rest _).mpr ⟨hs, rfl⟩, hrest⟩

/-- A row after a row is a row. -/
theorem append (h : IsRow merge sure bytes a b) (h' : IsRow merge sure' bytes' b c) :
    IsRow merge (sure ∧ sure') (bytes ++ bytes') a c := by
  intro stop steps rest hstop hsteps
  rw [List.length_append] at hsteps
  obtain ⟨left, hleft, hfirst⟩ :=
    h stop steps (bytes' ++ rest) (by rw [List.length_append]; omega) (by omega)
  obtain ⟨left', hleft', hsecond⟩ := h' stop left rest hstop (by omega)
  refine ⟨left', by rw [List.length_append]; omega, fun r => ?_⟩
  rw [List.append_assoc, hfirst r, hsecond r, and_assoc]

/-- A row that fills a message is read as the message. -/
theorem gives_mergeFields (h : IsRow merge sure bytes a b) (rest : List UInt8) (steps : Nat)
    (hsteps : bytes.length ≤ steps) :
    Gives (mergeFields merge rest.length steps a (.ofList (bytes ++ rest))) sure b rest := by
  intro r
  obtain ⟨left, -, hrow⟩ := h rest.length steps rest (Nat.le_refl _) hsteps
  have hdone : mergeFields merge rest.length left b (.ofList rest) = .ok (b, .ofList rest) :=
    mergeFields_of_size_le (Nat.le_of_eq (Input.size_ofList rest)) left b
  rw [hrow r, hdone, Except.ok.injEq, eq_comm]

/-- A message within a message is read if its length has no more than 64 bits. -/
theorem gives_mergeMessage (h : IsRow merge sure bytes a b) (n : Nat) (rest : List UInt8) :
    Gives (mergeMessage (some merge) ⟨n, .lengthDelimited⟩ a (.ofList (delimited bytes ++ rest)))
      (Short bytes ∧ sure) b rest := by
  have hsize : (Input.ofList (bytes ++ rest)).size = bytes.length + rest.length := by
    rw [Input.size_ofList, List.length_append]
  have hfields := h.gives_mergeFields rest (bytes.length + rest.length) (by omega)
  -- the row ends where the length says, so the message does not run over
  have hend : Gives (if (Input.ofList rest).size = rest.length then .ok (b, .ofList rest)
      else .error Reason.overrun.fault) True b rest := by
    rw [if_pos (Input.size_ofList rest)]
    exact .of_eq_ok rfl
  rw [mergeMessage, Key.expect, if_pos rfl, ok_bind, delimited, List.append_assoc]
  refine (Varint.gives_read bytes.length (bytes ++ rest)).bind ?_
  simp only [hsize, if_neg (by omega : ¬ bytes.length + rest.length < bytes.length),
    Nat.add_sub_cancel_left]
  exact (hfields.bind hend).congr (and_iff_left trivial)

section Parts

variable {n : Nat} {name : String}

/-- Fields with one number, each of which adds the item that `read` gives to a list. -/
theorem repeated (put : List β → α) {read : Input → Except Fault (β × Input)}
    {encode : β → List UInt8} {sure : β → Prop} (hn : 0 < n ∧ n < 2 ^ 29)
    (hmerge : ∀ before input, merge ⟨n, .lengthDelimited⟩ (put before) input =
      inField name (read input >>= fun r => .ok (put (before ++ [r.1]), r.2))) :
    ∀ {items : List β}, (∀ item ∈ items, ∀ rest,
        Gives (read (.ofList (delimited (encode item) ++ rest))) (sure item) item rest) →
      ∀ before, IsRow merge (∀ item ∈ items, sure item)
        (items.flatMap fun item => bytesField n (encode item)) (put before) (put (before ++ items))
  | [], _, before => by
    rw [List.append_nil]
    exact (nil merge (put before)).congr (by simp)
  | item :: items, h, before => by
    obtain ⟨hitem, hitems⟩ := List.forall_mem_cons.mp h
    have hfirst := IsField.of_gives (fun item => put (before ++ [item])) hn hitem (hmerge before)
    have hrest := repeated put hn hmerge hitems (before ++ [item])
    rw [List.append_assoc] at hrest
    exact ((of_isField hfirst).append hrest).congr List.forall_mem_cons.symm

/-- Fields with one number, each of which adds a row of bytes. -/
theorem repeatedBytes (put : List (List UInt8) → α) (hn : 0 < n ∧ n < 2 ^ 29)
    (hmerge : ∀ before input, merge ⟨n, .lengthDelimited⟩ (put before) input =
      inField name (readBytes ⟨n, .lengthDelimited⟩ input >>= fun r =>
        .ok (put (before ++ [r.1]), r.2))) (rows : List (List UInt8)) :
    IsRow merge (AllShort rows) (repeatedBytesField n rows) (put []) (put rows) :=
  repeated put hn hmerge (fun bytes _ => gives_readBytes n bytes) []

/-- A truth value that is left out where it is false. -/
theorem flag (put : Bool → α) (hn : 0 < n ∧ n < 2 ^ 29)
    (hmerge : ∀ input, merge ⟨n, .varint⟩ (put false) input =
      inField name (readBool ⟨n, .varint⟩ input >>= fun r => .ok (put r.1, r.2))) (value : Bool) :
    IsRow merge True (flagField n value) (put false) (put value) := by
  cases value with
  | false => exact nil merge (put false)
  | true => exact of_isField (IsField.of_gives put hn (gives_readBool n true) hmerge)

/-- Bytes that are left out where there are none. -/
theorem implicitBytes (put : List UInt8 → α) (hn : 0 < n ∧ n < 2 ^ 29)
    (hmerge : ∀ input, merge ⟨n, .lengthDelimited⟩ (put []) input =
      inField name (readBytes ⟨n, .lengthDelimited⟩ input >>= fun r => .ok (put r.1, r.2)))
    (bytes : List UInt8) :
    IsRow merge (Short bytes) (implicitBytesField n bytes) (put []) (put bytes) := by
  unfold implicitBytesField
  split
  · next hnil =>
    subst hnil
    exact (nil merge (put [])).congr (iff_of_true trivial (Nat.two_pow_pos 64))
  · exact of_isField (IsField.of_gives put hn (gives_readBytes n bytes) hmerge)

end Parts

end IsRow
end Wire
end DataTerms
