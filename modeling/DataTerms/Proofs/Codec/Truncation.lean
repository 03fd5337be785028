/-
# Bytes of a term that end too early

What becomes of the bytes of a term when bytes are missing at their end. A term that is no map
has one field, so nothing but its absence goes unnoticed: no bytes at all are the empty process.
The bytes of a map are those of its entries one after the other, and a cut between two of them
leaves the bytes of a shorter map. These are all the cuts that a codec takes for a term; every
other one it refuses, wherever in an entry the bytes end.

Key definitions: `Send.frame`.
Key theorems: `Term.encode_sends_eq_flatMap`, `Codec.ofBytes_failsBy`, `Codec.ofBytes_cut`.
-/
import DataTerms.Proofs.Codec.RoundTrip
import DataTerms.Proofs.Term.Bytes
import DataTerms.Proofs.Wire.Cuts

namespace DataTerms

open Outcomes Wire

/-- The bytes of a send in the message it is in: its key and its length, and then its own. -/
def Send.frame (entry : Send) : List UInt8 :=
  bytesField 1 (Wire.Send.encode
    { chan := some entry.channel.toPar, data := Term.itemsToPar entry.payload })

namespace Term

theorem encode_sends_eq_flatMap (entries : List Send) :
    (sends entries).toPar.encode = entries.flatMap Send.frame := by
  rw [encode_sends]
  induction entries with
  | nil => rfl
  | cons entry rest ih =>
    obtain ⟨channel, payload⟩ := entry
    rw [entriesToPar, encodeSends, ih, List.flatMap_cons, Send.frame]

theorem wellFormedEntries_take : ∀ {entries : List Send}, WellFormedEntries entries →
    ∀ j : Nat, WellFormedEntries (entries.take j)
  | [], _, j => by rw [List.take_nil]; trivial
  | _ :: _, _, 0 => trivial
  | ⟨.literal (.str _), [_]⟩ :: _, h, j + 1 => ⟨h.1, wellFormedEntries_take h.2 j⟩

theorem depthEntries_take_le : ∀ (entries : List Send) (j : Nat),
    depthEntries (entries.take j) ≤ depthEntries entries
  | [], _ => Nat.le_of_eq (congrArg depthEntries List.take_nil)
  | _ :: _, 0 => Nat.zero_le _
  | ⟨channel, payload⟩ :: rest, j + 1 => by
    have ih := depthEntries_take_le rest j
    rw [List.take_succ_cons, depthEntries, depthEntries]
    omega

/-- A term that is no composition of sends has one field, the one with the number 5, or none. -/
theorem encode_eq_field_or_nil {t : Term} (h : ∀ entries, t ≠ .sends entries) :
    t.toPar.encode = [] ∨ ∃ bytes, t.toPar.encode = bytesField 5 bytes := by
  cases t with
  | literal value => exact .inr ⟨_, encode_literal value⟩
  | list items => exact .inr ⟨_, encode_list items⟩
  | sends entries => exact absurd rfl (h entries)
  | nil => exact .inl encode_nil

end Term

namespace Codec

variable {codec : Codec} {t : Term} {bytes cut : List UInt8}

theorem ofBytes_failsBy (codec : Codec) (bytes : List UInt8) :
    FailsBy (fun error => error.kind = .decodeFailure) (codec.ofBytes bytes).result := by
  have hmessage : FailsBy (fun error => error.kind = .decodeFailure) (message bytes).result := by
    unfold message
    split
    · next par _ => exact FailsBy.of_ok par
    · next fault _ =>
      rintro error heq
      obtain rfl := Except.error.inj heq
      rfl
  have hkind : ∀ error : TermError, error.asDecodeFailure.kind = .decodeFailure := fun _ => rfl
  simp only [ofBytes, Report.result_bind, Report.result_ofExcept, Report.result_log,
    Report.result_pure]
  refine hmessage.bind fun par _ => ?_
  refine (FailsBy.mapError hkind _).bind fun t _ => ?_
  refine (FailsBy.mapError hkind _).bind fun _ _ => ?_
  exact FailsBy.of_ok t

theorem toBytes_take {entries : List Send}
    (hbytes : (codec.toBytes (.sends entries)).result = .ok bytes) (j : Nat) :
    (codec.toBytes (.sends (entries.take j))).result = .ok ((entries.take j).flatMap Send.frame) := by
  obtain ⟨⟨hwf, hdepth⟩, -⟩ := toBytes_eq_ok.mp hbytes
  have hle := Term.depthEntries_take_le entries j
  rw [Term.depth] at hdepth
  refine toBytes_eq_ok.mpr ⟨⟨Term.wellFormedEntries_take hwf j, ?_⟩, ?_⟩
  · rw [Term.depth]
    omega
  · exact Term.encode_sends_eq_flatMap _

/-- A cut that ends with an entry is read as the entries before it. -/
theorem ofBytes_take {entries : List Send} (hlimit : codec.maxDepth ≤ 33)
    (hbytes : (codec.toBytes (.sends entries)).result = .ok bytes) (hlen : bytes.length < 2 ^ 63)
    (hcut : cut <+: bytes) {j : Nat} (hj : cut = (entries.take j).flatMap Send.frame) :
    (codec.ofBytes cut).result = .ok (Term.sends (entries.take j)).canon := by
  subst hj
  have hle := hcut.length_le
  exact ofBytes_eq_canon hlimit (toBytes_take hbytes j) (by omega)

theorem ofBytes_nil (hbytes : (codec.toBytes t).result = .ok bytes) :
    (codec.ofBytes []).result = .ok .nil := by
  obtain ⟨⟨-, hdepth⟩, -⟩ := toBytes_eq_ok.mp hbytes
  have hone := t.depth_pos
  have hroom : Term.nil.depth ≤ codec.maxDepth := by
    rw [Term.depth]
    omega
  exact ofBytes_eq_ok.mpr ⟨⟨trivial, hroom⟩, trivial, rfl⟩

/-- A cut of a term's bytes that is read ends between two entries, or nothing is left. -/
theorem eq_take_of_ofBytes {t' : Term} (hbytes : (codec.toBytes t).result = .ok bytes)
    (hcut : IsCut cut bytes) (hread : (codec.ofBytes cut).result = .ok t') :
    cut = [] ∨ ∃ entries j, t = .sends entries ∧ j < entries.length ∧
      cut = (entries.take j).flatMap Send.frame := by
  obtain ⟨-, rfl⟩ := toBytes_eq_ok.mp hbytes
  obtain ⟨-, -, hpar⟩ := ofBytes_eq_ok.mp hread
  by_cases hsends : ∃ entries, t = .sends entries
  · obtain ⟨entries, rfl⟩ := hsends
    rw [Term.encode_sends_eq_flatMap] at hcut
    obtain ⟨j, hj, part, hpart, rfl⟩ := hcut.flatMap
    by_cases hne : part = []
    · subst hne
      exact .inr ⟨entries, j, rfl, hj, List.append_nil _⟩
    · -- the entries before are read, and then the one that is cut
      rw [← Term.encode_sends_eq_flatMap] at hpar
      exact absurd hpar (Par.decode_append_cut _ (.inl rfl) hpart hne _)
  · by_cases hne : cut = []
    · exact .inl hne
    · rcases Term.encode_eq_field_or_nil (not_exists.mp hsends) with hnil | ⟨field, hfield⟩
      · rw [hnil] at hcut
        exact absurd hcut IsCut.not_nil
      · rw [hfield] at hcut
        have hempty : Par.decode (Term.nil.toPar.encode ++ cut) = .ok t'.toPar := by
          rw [Term.encode_nil]
          exact hpar
        exact absurd hempty (Par.decode_append_cut _ (.inr rfl) hcut hne _)

/-- **What is read of bytes that end too early.** Let bytes be missing at the end of a term's
bytes, for a limit of up to 33. What is left is read just when nothing is left, or the term is a
map and its first `j` entries are left, each of them whole: as the empty process, and as the map
of these entries. All else is refused as bytes that are no data. -/
theorem ofBytes_cut (hlimit : codec.maxDepth ≤ 33)
    (hbytes : (codec.toBytes t).result = .ok bytes) (hlen : bytes.length < 2 ^ 63)
    (hcut : cut <+: bytes) (hproper : cut ≠ bytes) :
    ((∃ t', (codec.ofBytes cut).result = .ok t') ↔
        cut = [] ∨ ∃ entries j, t = .sends entries ∧ j < entries.length ∧
          cut = (entries.take j).flatMap Send.frame) ∧
      (cut = [] → (codec.ofBytes cut).result = .ok .nil) ∧
      (∀ entries j, t = .sends entries → j < entries.length →
        cut = (entries.take j).flatMap Send.frame →
        (codec.ofBytes cut).result = .ok (Term.sends (entries.take j)).canon) ∧
      ∀ error, (codec.ofBytes cut).result = .error error → error.kind = .decodeFailure := by
  have hnone : cut = [] → (codec.ofBytes cut).result = .ok .nil := by
    rintro rfl
    exact ofBytes_nil hbytes
  have htake : ∀ entries j, t = .sends entries → j < entries.length →
      cut = (entries.take j).flatMap Send.frame →
      (codec.ofBytes cut).result = .ok (Term.sends (entries.take j)).canon := by
    rintro entries j rfl - hj
    exact ofBytes_take hlimit hbytes hlen hcut hj
  refine ⟨⟨?_, ?_⟩, hnone, htake, codec.ofBytes_failsBy cut⟩
  · rintro ⟨t', hread⟩
    exact eq_take_of_ofBytes hbytes (.of_isPrefix hcut hproper) hread
  · rintro (hnil | ⟨entries, j, hsends, hj, heq⟩)
    · exact ⟨_, hnone hnil⟩
    · exact ⟨_, htake entries j hsends hj heq⟩

/-- Of a map with two entries the first is left whole, and then without its last byte. -/
theorem ofBytes_cut_entry :
    (Codec.ofBytes ⟨33⟩ [10, 9, 10, 5, 42, 3, 26, 1, 97, 18, 0]).result =
        .ok (.sends [.entry "a" .nil]) ∧
      ∀ t, (Codec.ofBytes ⟨33⟩ [10, 9, 10, 5, 42, 3, 26, 1, 97, 18]).result ≠ .ok t := by
  have hbytes : (Codec.toBytes ⟨33⟩ (.sends [.entry "a" .nil, .entry "b" .nil])).result =
      .ok [10, 9, 10, 5, 42, 3, 26, 1, 97, 18, 0, 10, 9, 10, 5, 42, 3, 26, 1, 98, 18, 0] :=
    toBytes_eq_ok.mpr ⟨⟨⟨trivial, trivial, trivial⟩, by decide⟩, by decide +kernel⟩
  constructor
  · have hcut : ([10, 9, 10, 5, 42, 3, 26, 1, 97, 18, 0] : List UInt8) <+:
        [10, 9, 10, 5, 42, 3, 26, 1, 97, 18, 0, 10, 9, 10, 5, 42, 3, 26, 1, 98, 18, 0] := by decide
    obtain ⟨-, -, htake, -⟩ := ofBytes_cut (by decide) hbytes (by decide) hcut (by decide)
    exact htake _ 1 rfl (by decide) (by decide +kernel)
  · have hcut : ([10, 9, 10, 5, 42, 3, 26, 1, 97, 18] : List UInt8) <+:
        [10, 9, 10, 5, 42, 3, 26, 1, 97, 18, 0, 10, 9, 10, 5, 42, 3, 26, 1, 98, 18, 0] := by decide
    obtain ⟨hread, -⟩ := ofBytes_cut (by decide) hbytes (by decide) hcut (by decide)
    have hinside : ∀ j < 2, [10, 9, 10, 5, 42, 3, 26, 1, 97, 18] ≠
        ([Send.entry "a" .nil, .entry "b" .nil].take j).flatMap Send.frame := by
      decide +kernel
    intro t ht
    rcases hread.mp ⟨t, ht⟩ with hnil | ⟨entries, j, hsends, hj, heq⟩
    · cases hnil
    · cases hsends
      exact hinside j hj heq

end Codec
end DataTerms
