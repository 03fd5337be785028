/-
# How many levels there is room for

A reader goes a hundred messages deep. A level of a term takes two messages at least, those of a
map, and below the innermost map there are three for its key; it takes three at most, those of a
list. So with a limit of 33 there is room for whatever is written, and with any greater limit
there is not: 34 lists within each other nest 101 messages. And whatever the limit, no term of
more than 50 levels is read, which is what 49 maps within each other have; with one more the key
of the innermost one is 101 deep.

Key definitions: `Term.lists`, `Term.maps`.
Key theorems: `Term.two_mul_depth_le_nesting`, `Codec.nesting_ceiling`.
-/
import DataTerms.Proofs.Codec.RoundTrip
import DataTerms.Proofs.Wire.Budget

namespace DataTerms
namespace Term

mutual

/-- The messages of a well-formed term with parts nest two deep for each level, but for one. -/
theorem two_mul_depth_le_nesting : ∀ {t : Term}, t.WellFormed →
    t.depth = 1 ∨ 2 * t.depth ≤ t.toPar.nesting + 1
  | .literal _, _ | .nil, _ => .inl rfl
  | .list items, h => by
    have hitems := two_mul_depthItems_le_nesting h
    rw [nesting_toPar_list, depth]
    omega
  | .sends entries, h => by
    have hentries := two_mul_depthEntries_lt_nesting h
    rw [nesting_toPar_sends, depth]
    rcases hentries with rfl | hentries
    · exact .inl rfl
    · omega

theorem two_mul_depthItems_le_nesting : ∀ {items : List Term}, WellFormedItems items →
    2 * depthItems items ≤ Wire.parsNesting (itemsToPar items) + 1
  | [], _ => Nat.zero_le _
  | item :: rest, h => by
    have hitem := two_mul_depth_le_nesting h.1
    have hrest := two_mul_depthItems_le_nesting h.2
    rw [itemsToPar, Wire.parsNesting, depthItems]
    omega

/-- A map has its keys, three messages deep, and its values two messages deep. -/
theorem two_mul_depthEntries_lt_nesting : ∀ {entries : List Send}, WellFormedEntries entries →
    entries = [] ∨ 2 * depthEntries entries < Wire.sendsNesting (entriesToPar entries)
  | [], _ => .inl rfl
  | ⟨.literal (.str key), [value]⟩ :: rest, h => by
    have hvalue := two_mul_depth_le_nesting h.1
    have hrest := two_mul_depthEntries_lt_nesting h.2
    have hnest : (str key).toPar.nesting = 1 := rfl
    have hdepth : (str key).depth = 1 := rfl
    rw [str] at hnest hdepth
    rw [entriesToPar, itemsToPar, itemsToPar, Wire.sendsNesting, Wire.Send.nesting,
      Wire.chanNesting, hnest, Wire.parsNesting, Wire.parsNesting, depthEntries, hdepth, depthItems,
      depthItems]
    rcases hrest with rfl | hrest
    · simp only [depthEntries, entriesToPar, Wire.sendsNesting]
      omega
    · omega

end

/-! ### Lists and maps within each other -/

/-- An empty list within so many lists. -/
def lists : Nat → Term
  | 0 => .list []
  | n + 1 => .list [lists n]

/-- The empty process within so many maps. -/
def maps : Nat → Term
  | 0 => .nil
  | n + 1 => .sends [.entry "" (maps n)]

open Wire

theorem wellFormed_lists : ∀ n : Nat, (lists n).WellFormed
  | 0 => trivial
  | n + 1 => ⟨wellFormed_lists n, trivial⟩

theorem depth_lists : ∀ n : Nat, (lists n).depth = n + 1
  | 0 => rfl
  | n + 1 => by
    rw [lists, depth, depthItems, depthItems, depth_lists n]
    omega

theorem nesting_lists : ∀ n : Nat, (lists n).toPar.nesting = 3 * n + 2
  | 0 => rfl
  | n + 1 => by
    rw [lists, nesting_toPar_list, itemsToPar, itemsToPar, Wire.parsNesting, Wire.parsNesting,
      nesting_lists n]
    omega

/-- A list within a list is three messages within each other. -/
theorem encode_toPar_lists (n : Nat) : (lists (n + 1)).toPar.encode =
    bytesField 5 (bytesField 20 (bytesField 1 (lists n).toPar.encode)) := by
  simp [lists, toPar, itemsToPar, parOfInstance, Par.encode, encodeSends, encodeExprs, Expr.encode,
    encodeKind, Instance.encode, EList.encode, encodePars, repeatedBytesField, implicitBytesField,
    flagField]

theorem length_encode_lists_le : ∀ {n : Nat}, n ≤ 1000 →
    (lists n).toPar.encode.length ≤ 12 * n + 8
  | 0, _ => by decide +kernel
  | n + 1, h => by
    have hwithin := length_encode_lists_le (Nat.le_of_succ_le h)
    have hitem := length_bytesField_le (show 1 < 2000 by decide)
      (show (lists n).toPar.encode.length < 128 ^ 2 by omega)
    have hbody := length_bytesField_le (show 20 < 2000 by decide)
      (show (bytesField 1 (lists n).toPar.encode).length < 128 ^ 2 by omega)
    have hexpr := length_bytesField_le (show 5 < 2000 by decide)
      (show (bytesField 20 (bytesField 1 (lists n).toPar.encode)).length < 128 ^ 2 by omega)
    rw [encode_toPar_lists]
    omega

theorem wellFormed_maps : ∀ n : Nat, (maps n).WellFormed
  | 0 => trivial
  | n + 1 => ⟨wellFormed_maps n, trivial⟩

theorem noEmptySends_maps : ∀ n : Nat, (maps n).NoEmptySends
  | 0 => trivial
  | n + 1 => ⟨List.cons_ne_nil _ _, trivial, ⟨noEmptySends_maps n, trivial⟩, trivial⟩

theorem depth_maps : ∀ n : Nat, (maps n).depth = n + 1
  | 0 => rfl
  | n + 1 => by
    have hkey : (str "").depth = 1 := rfl
    rw [maps, Send.entry, depth, depthEntries, depthEntries, depthItems, depthItems, hkey,
      depth_maps n]
    omega

theorem nesting_maps_le : ∀ n : Nat, (maps n).toPar.nesting ≤ 2 * n + 1
  | 0 => Nat.zero_le _
  | n + 1 => by
    have hkey : (str "").toPar.nesting = 1 := rfl
    have hvalue := nesting_maps_le n
    rw [maps, Send.entry, nesting_toPar_sends, entriesToPar, entriesToPar, itemsToPar, itemsToPar,
      Wire.sendsNesting, Wire.sendsNesting, Wire.Send.nesting, Wire.chanNesting, hkey,
      Wire.parsNesting, Wire.parsNesting]
    omega

/-- A map within a map is two messages within each other, the inner one after the key. -/
theorem encode_toPar_maps (n : Nat) : (maps (n + 1)).toPar.encode =
    bytesField 1 (bytesField 1 (str "").toPar.encode ++
      bytesField 2 (maps n).toPar.encode) := by
  simp [maps, Send.entry, toPar, itemsToPar, entriesToPar, Par.encode, encodeSends,
    Wire.Send.encode, encodeChan, encodePars, encodeExprs, repeatedBytesField, implicitBytesField,
    flagField]

theorem length_encode_maps_le : ∀ {n : Nat}, n ≤ 500 →
    (maps n).toPar.encode.length ≤ 20 * n
  | 0, _ => by decide +kernel
  | n + 1, h => by
    have hkey : (bytesField 1 (str "").toPar.encode).length ≤ 12 := by decide +kernel
    have hwithin := length_encode_maps_le (Nat.le_of_succ_le h)
    have hvalue := length_bytesField_le (show 2 < 2000 by decide)
      (show (maps n).toPar.encode.length < 128 ^ 2 by omega)
    have hsend := length_bytesField_le (show 1 < 2000 by decide)
      (show (bytesField 1 (str "").toPar.encode ++
          bytesField 2 (maps n).toPar.encode).length < 128 ^ 2 by
        rw [List.length_append]
        omega)
    rw [encode_toPar_maps]
    rw [List.length_append] at hsend
    omega

end Term

namespace Codec

open Term

variable {codec : Codec} {t : Term} {bytes : List UInt8}

/-- A message that nests too deep is written all the same, and is not read. -/
theorem ofBytes_ne_ok_of_nesting (h : Wire.nestingBudget < t.toPar.nesting) (t' : Term) :
    (codec.ofBytes t.toPar.encode).result ≠ .ok t' := by
  intro hread
  obtain ⟨-, -, hpar⟩ := ofBytes_eq_ok.mp hread
  have hnest := Wire.Par.nesting_le_of_decode hpar
  obtain ⟨-, hsame⟩ := (Wire.Par.decode_encode_eq_ok _ _).mp hpar
  rw [hsame] at hnest
  omega

/-- Whatever the limit, what is read has no more than 50 levels. -/
theorem depth_le_of_ofBytes (h : (codec.ofBytes bytes).result = .ok t) : t.depth ≤ 50 := by
  obtain ⟨⟨hwf, -⟩, -, hpar⟩ := ofBytes_eq_ok.mp h
  have hnest : t.toPar.nesting ≤ 100 := Wire.Par.nesting_le_of_decode hpar
  have hdepth := two_mul_depth_le_nesting hwf
  omega

/-- With a limit beyond 33 there is a term that is written and not read. -/
theorem exists_unread (h : 34 ≤ codec.maxDepth) : ∃ t bytes, (codec.toBytes t).result = .ok bytes ∧
    bytes.length < 2 ^ 63 ∧ ∀ t', (codec.ofBytes bytes).result ≠ .ok t' := by
  have hdepth : (lists 33).depth = 34 := depth_lists 33
  have hnest : (lists 33).toPar.nesting = 101 := nesting_lists 33
  have hbytes : (codec.toBytes (lists 33)).result = .ok (lists 33).toPar.encode :=
    toBytes_eq_ok.mpr ⟨⟨wellFormed_lists 33, by omega⟩, rfl⟩
  have hlen : (lists 33).toPar.encode.length ≤ 404 := length_encode_lists_le (by decide)
  have hbudget : Wire.nestingBudget < (lists 33).toPar.nesting := by
    rw [hnest]
    decide
  exact ⟨lists 33, _, hbytes, by omega, ofBytes_ne_ok_of_nesting hbudget⟩

/-- With a limit of 50 or more a term of 50 levels is read. -/
theorem exists_depth_eq (h : 50 ≤ codec.maxDepth) :
    ∃ bytes t, (codec.ofBytes bytes).result = .ok t ∧ t.depth = 50 := by
  have hdepth : (maps 49).depth = 50 := depth_maps 49
  have hnest : (maps 49).toPar.nesting ≤ Wire.nestingBudget := by
    have hle : (maps 49).toPar.nesting ≤ 99 := nesting_maps_le 49
    unfold Wire.nestingBudget
    omega
  have hlen : (maps 49).toPar.encode.length ≤ 980 := length_encode_maps_le (by decide)
  have hdecode := Wire.Par.decode_encode_of_nesting_le hnest (by omega)
  have hread : (codec.ofBytes (maps 49).toPar.encode).result = .ok (maps 49) :=
    ofBytes_eq_ok.mpr ⟨⟨wellFormed_maps 49, by omega⟩, noEmptySends_maps 49, hdecode⟩
  exact ⟨_, _, hread, hdepth⟩

/-- **The ceiling of nesting.** The limits with which whatever is written is read are those up to
33, and with each one beyond that a term is written whose bytes are refused. With every limit and
for all bytes, a term that is read has no more than 50 levels, and a limit of 50 or more lets one
with 50 levels be read. -/
theorem nesting_ceiling :
    (∀ codec : Codec, (∀ (t : Term) (bytes : List UInt8), (codec.toBytes t).result = .ok bytes →
        bytes.length < 2 ^ 63 → ∃ t', (codec.ofBytes bytes).result = .ok t') ↔
      codec.maxDepth ≤ 33) ∧
    (∀ codec : Codec, 34 ≤ codec.maxDepth → ∃ t bytes, (codec.toBytes t).result = .ok bytes ∧
      bytes.length < 2 ^ 63 ∧ ∃ error, (codec.ofBytes bytes).result = .error error) ∧
    (∀ (codec : Codec) (bytes : List UInt8) (t : Term), (codec.ofBytes bytes).result = .ok t →
      t.depth ≤ 50) ∧
    ∀ codec : Codec, 50 ≤ codec.maxDepth →
      ∃ bytes t, (codec.ofBytes bytes).result = .ok t ∧ t.depth = 50 := by
  refine ⟨fun codec => ⟨fun hagree => ?_, fun hlimit t bytes hbytes hlen => ?_⟩, ?_,
    fun _ _ _ => depth_le_of_ofBytes, fun _ => exists_depth_eq⟩
  · rcases Nat.lt_or_ge 33 codec.maxDepth with hbeyond | hlimit
    · obtain ⟨t, bytes, hbytes, hlen, hunread⟩ := exists_unread hbeyond
      obtain ⟨t', hread⟩ := hagree t bytes hbytes hlen
      exact absurd hread (hunread t')
    · exact hlimit
  · exact ⟨t.canon, ofBytes_eq_canon hlimit hbytes hlen⟩
  · intro codec hlimit
    obtain ⟨t, bytes, hbytes, hlen, hunread⟩ := exists_unread hlimit
    refine ⟨t, bytes, hbytes, hlen, ?_⟩
    cases hread : (codec.ofBytes bytes).result with
    | error error => exact ⟨error, rfl⟩
    | ok t' => exact absurd hread (hunread t')

/-- The least limit that is too great, and the greatest of 64 bits. -/
theorem nesting_ceiling_least :
    (∃ t bytes, (Codec.toBytes ⟨34⟩ t).result = .ok bytes ∧ bytes.length < 2 ^ 63 ∧
        ∃ error, (Codec.ofBytes ⟨34⟩ bytes).result = .error error) ∧
      ∃ bytes t, (Codec.ofBytes ⟨UInt64.size - 1⟩ bytes).result = .ok t ∧ t.depth = 50 := by
  obtain ⟨-, hunread, -, hdeep⟩ := nesting_ceiling
  exact ⟨hunread ⟨34⟩ (by decide), hdeep ⟨UInt64.size - 1⟩ (by decide)⟩

end Codec
end DataTerms
