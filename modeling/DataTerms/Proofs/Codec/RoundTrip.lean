/-
# Terms survive their bytes

What a codec writes it reads back, as the term without its empty sends, for every limit up
to 33. The one thing that could go wrong is the nesting: a level of a term costs up to three
messages within each other, and a reader goes a hundred deep. A list costs three for each
level (a process, an expression, a list), a send two (a process, a send), and a channel
three more that no payload is below. So a term of 33 levels nests 98 messages at most.

Key theorems: `Term.nesting_toPar_lt`, `Codec.ofBytes_eq_canon`, `Codec.ofBytes_toBytes`.
-/
import DataTerms.Proofs.Codec.Acceptance
import DataTerms.Proofs.Wire.Nesting

namespace DataTerms
namespace Term

/-- A list is an expression with a body, and its items are in that. -/
theorem nesting_toPar_list (items : List Term) :
    (list items).toPar.nesting = Wire.parsNesting (itemsToPar items) + 2 := by
  simp [toPar, parOfInstance, Wire.Par.nesting, Wire.sendsNesting, Wire.exprsNesting,
    Wire.Expr.nesting, Wire.kindNesting, Wire.Instance.nesting, Wire.EList.nesting]

theorem nesting_toPar_sends (entries : List Send) :
    (sends entries).toPar.nesting = Wire.sendsNesting (entriesToPar entries) := by
  simp [toPar, Wire.Par.nesting, Wire.exprsNesting]

mutual

/-- The messages of a well-formed term nest fewer than three deep for each level. -/
theorem nesting_toPar_lt : ∀ {t : Term}, t.WellFormed → t.toPar.nesting < 3 * t.depth
  | .literal (.bool _), _ | .literal (.int _), _ | .literal (.str _), _ => by
    show 1 < 3 * 1
    decide
  | .nil, _ => by decide
  | .list items, h => by
    have hitems := parsNesting_itemsToPar_le h
    rw [nesting_toPar_list, depth]
    omega
  | .sends entries, h => by
    have hentries := sendsNesting_entriesToPar_le h
    rw [nesting_toPar_sends, depth]
    omega

theorem parsNesting_itemsToPar_le : ∀ {items : List Term}, WellFormedItems items →
    Wire.parsNesting (itemsToPar items) ≤ 3 * depthItems items
  | [], _ => Nat.le_refl 0
  | item :: rest, h => by
    have hitem := nesting_toPar_lt h.1
    have hrest := parsNesting_itemsToPar_le h.2
    rw [itemsToPar, Wire.parsNesting, depthItems]
    omega

theorem sendsNesting_entriesToPar_le : ∀ {entries : List Send}, WellFormedEntries entries →
    Wire.sendsNesting (entriesToPar entries) ≤ 3 * depthEntries entries + 1
  | [], _ => Nat.zero_le 1
  | ⟨.literal (.str key), [value]⟩ :: rest, h => by
    have hvalue := nesting_toPar_lt h.1
    have hrest := sendsNesting_entriesToPar_le h.2
    have hkey : (str key).toPar.nesting = 1 := rfl
    have hpos : (str key).depth = 1 := rfl
    rw [str] at hkey hpos
    rw [entriesToPar, itemsToPar, itemsToPar, Wire.sendsNesting, Wire.Send.nesting,
      Wire.chanNesting, hkey, Wire.parsNesting, Wire.parsNesting, depthEntries, hpos, depthItems,
      depthItems]
    omega

end

end Term

namespace Codec

variable {codec : Codec} {t : Term} {bytes : List UInt8}

theorem decode_of_toBytes (hlimit : codec.maxDepth ≤ 33)
    (hbytes : (codec.toBytes t).result = .ok bytes) (hlen : bytes.length < 2 ^ 63) :
    Wire.Par.decode bytes = .ok t.toPar := by
  obtain ⟨⟨hwf, hdepth⟩, rfl⟩ := toBytes_eq_ok.mp hbytes
  have hnest := Term.nesting_toPar_lt hwf
  have hshort : Wire.Short t.toPar.encode := by
    unfold Wire.Short
    omega
  have hbudget : t.toPar.nesting ≤ Wire.nestingBudget := by
    unfold Wire.nestingBudget
    omega
  exact (Wire.Par.decode_encode_eq_ok _ _).mpr ⟨Wire.Par.fits_of_nesting_le hbudget hshort, rfl⟩

theorem toBytes_canon (hbytes : (codec.toBytes t).result = .ok bytes) :
    (codec.toBytes t.canon).result = .ok bytes := by
  obtain ⟨⟨hwf, hdepth⟩, hencode⟩ := toBytes_eq_ok.mp hbytes
  rw [toBytes_eq_ok, Term.depth_canon, Term.toPar_canon]
  exact ⟨⟨Term.wellFormed_canon hwf, hdepth⟩, hencode⟩

theorem ofBytes_eq_canon (hlimit : codec.maxDepth ≤ 33)
    (hbytes : (codec.toBytes t).result = .ok bytes) (hlen : bytes.length < 2 ^ 63) :
    (codec.ofBytes bytes).result = .ok t.canon := by
  obtain ⟨hvalid, -⟩ := toBytes_eq_ok.mp (toBytes_canon hbytes)
  refine ofBytes_eq_ok.mpr ⟨hvalid, Term.noEmptySends_canon t, ?_⟩
  rw [Term.toPar_canon]
  exact decode_of_toBytes hlimit hbytes hlen

/-- **Terms survive their bytes.** With a limit of up to 33 every term that is written is
read back without its empty sends. The message is read whole, so no reader's limit is met;
the term read has the levels of the one written and is written as the same bytes. -/
theorem ofBytes_toBytes (hlimit : codec.maxDepth ≤ 33)
    (hbytes : (codec.toBytes t).result = .ok bytes) (hlen : bytes.length < 2 ^ 63) :
    Wire.Par.decode bytes = .ok t.toPar ∧ (codec.ofBytes bytes).result = .ok t.canon ∧
      t.canon.depth = t.depth ∧ (codec.toBytes t.canon).result = .ok bytes :=
  ⟨decode_of_toBytes hlimit hbytes hlen, ofBytes_eq_canon hlimit hbytes hlen, t.depth_canon,
    toBytes_canon hbytes⟩

/-- A map to a list that holds an empty map and a number. -/
theorem ofBytes_toBytes_entry :
    (Codec.toBytes ⟨33⟩ (.sends [.entry "a" (.list [.sends [], .literal (.int (-1))])])).result =
        .ok [10, 22, 10, 5, 42, 3, 26, 1, 97, 18, 13, 42, 11, 162, 1, 8, 10, 0, 10, 4, 42, 2, 16, 1] ∧
      (Codec.ofBytes ⟨33⟩ [10, 22, 10, 5, 42, 3, 26, 1, 97, 18, 13, 42, 11, 162, 1, 8, 10, 0, 10, 4,
        42, 2, 16, 1]).result = .ok (.sends [.entry "a" (.list [.nil, .literal (.int (-1))])]) := by
  have hbytes : (Codec.toBytes ⟨33⟩
      (.sends [.entry "a" (.list [.sends [], .literal (.int (-1))])])).result = .ok [10, 22, 10, 5, 42,
        3, 26, 1, 97, 18, 13, 42, 11, 162, 1, 8, 10, 0, 10, 4, 42, 2, 16, 1] :=
    toBytes_eq_ok.mpr ⟨⟨⟨⟨trivial, trivial, trivial⟩, trivial⟩, by decide⟩, by decide +kernel⟩
  obtain ⟨-, hread, -, -⟩ := ofBytes_toBytes (by decide) hbytes (by decide)
  exact ⟨hbytes, hread⟩

end Codec
end DataTerms
