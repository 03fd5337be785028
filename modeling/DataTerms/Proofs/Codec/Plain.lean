/-
# Bytes in their plain form

Reading is laxer than writing. A truth value may be any number but zero, a number may end in
groups of zeros, a field may come twice or out of its place, it may hold its default, and one
that is not known is passed over, at every level of a message. Bytes with any of this are read
as a term and are not the bytes of that term.

The plain bytes are those without: every field known, in its place, once, and in its shortest
form. They are laid down here as a grammar, without reference to terms or to writing. Bytes
that are read come back when the term is written just when they are plain.

Key definitions: `Wire.Plain.Process`.
Key theorems: `Term.process_encode`, `Term.exists_of_process`, `Codec.toBytes_ofBytes`.
-/
import DataTerms.Proofs.Codec.Acceptance
import DataTerms.Proofs.Term.Bytes
import DataTerms.Proofs.Wire.ReadBack

namespace DataTerms
namespace Wire
namespace Plain

mutual

/-- The plain bytes of a process. -/
inductive Process : List UInt8 → Prop where
  | bool (value : Bool) : Process (bytesField 5 (boolField 1 value))
  | int {n : Nat} : n < 2 ^ 64 → Process (bytesField 5 (numberField 2 n))
  | text (value : String) : Process (bytesField 5 (bytesField 3 (Utf8.encode value)))
  | list {bytes : List UInt8} : Items bytes → Process (bytesField 5 (bytesField 20 bytes))
  | sends {bytes : List UInt8} : Sends bytes → Process bytes

/-- The plain bytes of the items of a list. -/
inductive Items : List UInt8 → Prop where
  | nil : Items []
  | cons {item rest : List UInt8} : Process item → Items rest → Items (bytesField 1 item ++ rest)

/-- The plain bytes of sends, each on a text. -/
inductive Sends : List UInt8 → Prop where
  | nil : Sends []
  | cons (key : String) {value rest : List UInt8} : Process value → Sends rest →
    Sends (bytesField 1 (bytesField 1 (bytesField 5 (bytesField 3 (Utf8.encode key))) ++
      bytesField 2 value) ++ rest)

end

end Plain

/-- Every number of 64 bits is a signed one folded. -/
theorem Varint.exists_fold_toInt {n : Nat} (h : n < 2 ^ 64) :
    ∃ value : Int64, fold value.toInt = n := by
  have hrange : -2 ^ 63 ≤ unfold n ∧ unfold n < 2 ^ 63 := by
    unfold Varint.unfold
    split <;> omega
  exact ⟨.ofInt (unfold n), by rw [Int64.toInt_ofInt_of_le hrange.1 hrange.2, fold_unfold]⟩

end Wire

namespace Term

open Wire Wire.Plain

mutual

/-- A well-formed term is written in plain bytes. -/
theorem process_encode : ∀ {t : Term}, t.WellFormed → Process t.toPar.encode
  | .literal (.bool value), _ => by
    rw [encode_literal]
    exact .bool value
  | .literal (.int value), _ => by
    rw [encode_literal]
    exact .int (Varint.fold_toInt_lt value)
  | .literal (.str value), _ => by
    rw [encode_literal]
    exact .text value
  | .list items, h => by
    rw [encode_list]
    exact .list (items_encode h)
  | .sends entries, h => by
    rw [encode_sends]
    exact .sends (sends_encode h)
  | .nil, _ => by
    rw [encode_nil]
    exact .sends .nil

theorem items_encode :
    ∀ {items : List Term}, WellFormedItems items → Items (encodePars 1 (itemsToPar items))
  | [], _ => .nil
  | _ :: _, h => .cons (process_encode h.1) (items_encode h.2)

theorem sends_encode :
    ∀ {entries : List Send}, WellFormedEntries entries → Sends (encodeSends (entriesToPar entries))
  | [], _ => .nil
  | ⟨.literal (.str key), [value]⟩ :: rest, h => by
    have hentry := encodeSends_entry key value rest
    rw [Send.entry, str] at hentry
    rw [hentry]
    exact .cons key (process_encode h.1) (sends_encode h.2)

end

mutual

/-- Plain bytes are those of a well-formed term. -/
theorem exists_of_process : ∀ {bytes : List UInt8}, Process bytes →
    ∃ t : Term, t.WellFormed ∧ t.toPar.encode = bytes
  | _, .bool value => ⟨.literal (.bool value), trivial, encode_literal _⟩
  | _, .int h => by
    obtain ⟨value, rfl⟩ := Varint.exists_fold_toInt h
    exact ⟨.literal (.int value), trivial, encode_literal _⟩
  | _, .text value => ⟨.literal (.str value), trivial, encode_literal _⟩
  | _, .list h => by
    obtain ⟨items, hwf, rfl⟩ := exists_of_items h
    exact ⟨.list items, hwf, encode_list items⟩
  | _, .sends h => by
    obtain ⟨entries, hwf, rfl⟩ := exists_of_sends h
    exact ⟨.sends entries, hwf, encode_sends entries⟩

theorem exists_of_items : ∀ {bytes : List UInt8}, Items bytes →
    ∃ items : List Term, WellFormedItems items ∧ encodePars 1 (itemsToPar items) = bytes
  | _, .nil => ⟨[], trivial, rfl⟩
  | _, .cons h h' => by
    obtain ⟨item, hwf, rfl⟩ := exists_of_process h
    obtain ⟨items, hwf', rfl⟩ := exists_of_items h'
    exact ⟨item :: items, ⟨hwf, hwf'⟩, rfl⟩

theorem exists_of_sends : ∀ {bytes : List UInt8}, Sends bytes →
    ∃ entries : List Send, WellFormedEntries entries ∧ encodeSends (entriesToPar entries) = bytes
  | _, .nil => ⟨[], trivial, rfl⟩
  | _, .cons key h h' => by
    obtain ⟨value, hwf, rfl⟩ := exists_of_process h
    obtain ⟨entries, hwf', rfl⟩ := exists_of_sends h'
    exact ⟨.entry key value :: entries, ⟨hwf, hwf'⟩, encodeSends_entry key value entries⟩

end

end Term

namespace Codec

variable {codec : Codec} {t : Term} {bytes : List UInt8}

theorem encode_of_plain (hread : (codec.ofBytes bytes).result = .ok t)
    (hplain : Wire.Plain.Process bytes) : t.toPar.encode = bytes := by
  obtain ⟨-, -, hpar⟩ := ofBytes_eq_ok.mp hread
  -- some term has these bytes, and reading gives its message back, which is that of `t`
  obtain ⟨t', -, rfl⟩ := Term.exists_of_process hplain
  obtain ⟨-, heq⟩ := (Wire.Par.decode_encode_eq_ok t'.toPar t.toPar).mp hpar
  rw [heq]

/-- **Plain bytes come back.** Whatever bytes a codec reads, it writes the term that it reads
from them, in plain bytes. These are the bytes read just when those are plain; so of all the
bytes that are read as one term, one row at most is plain. -/
theorem toBytes_ofBytes (hread : (codec.ofBytes bytes).result = .ok t) :
    (∃ written, (codec.toBytes t).result = .ok written ∧ Wire.Plain.Process written) ∧
      ((codec.toBytes t).result = .ok bytes ↔ Wire.Plain.Process bytes) ∧
      ∀ bytes', (codec.ofBytes bytes').result = .ok t → Wire.Plain.Process bytes →
        Wire.Plain.Process bytes' → bytes' = bytes := by
  obtain ⟨hvalid, -, -⟩ := ofBytes_eq_ok.mp hread
  have hwritten := Term.process_encode hvalid.1
  refine ⟨⟨_, toBytes_eq_ok.mpr ⟨hvalid, rfl⟩, hwritten⟩, ⟨fun hbytes => ?_, fun hplain => ?_⟩, ?_⟩
  · obtain ⟨-, rfl⟩ := toBytes_eq_ok.mp hbytes
    exact hwritten
  · exact toBytes_eq_ok.mpr ⟨hvalid, encode_of_plain hread hplain⟩
  · intro bytes' hread' hplain hplain'
    rw [← encode_of_plain hread hplain, encode_of_plain hread' hplain']

/-- A list of two texts, one of them empty, in plain bytes. -/
theorem toBytes_ofBytes_list :
    (Codec.toBytes {} (.list [.str "", .str "a"])).result =
        .ok [42, 16, 162, 1, 13, 10, 4, 42, 2, 26, 0, 10, 5, 42, 3, 26, 1, 97] ∧
      Wire.Plain.Process [42, 16, 162, 1, 13, 10, 4, 42, 2, 26, 0, 10, 5, 42, 3, 26, 1, 97] := by
  have hread : (Codec.ofBytes {} [42, 16, 162, 1, 13, 10, 4, 42, 2, 26, 0, 10, 5, 42, 3, 26, 1,
      97]).result = .ok (.list [.str "", .str "a"]) := rfl
  have hbytes : (Codec.toBytes {} (.list [.str "", .str "a"])).result =
      .ok [42, 16, 162, 1, 13, 10, 4, 42, 2, 26, 0, 10, 5, 42, 3, 26, 1, 97] :=
    toBytes_eq_ok.mpr ⟨⟨⟨trivial, trivial, trivial⟩, by decide⟩, by decide +kernel⟩
  obtain ⟨-, hplain, -⟩ := toBytes_ofBytes hread
  exact ⟨hbytes, hplain.mp hbytes⟩

/-- A truth value that is given as the number two is read, and written as one. -/
theorem toBytes_ne_of_bool_two :
    (Codec.ofBytes {} [42, 2, 8, 2]).result = .ok (.literal (.bool true)) ∧
      (Codec.toBytes {} (.literal (.bool true))).result = .ok [42, 2, 8, 1] :=
  ⟨rfl, toBytes_eq_ok.mpr ⟨⟨trivial, by decide⟩, by decide +kernel⟩⟩

end Codec
end DataTerms
