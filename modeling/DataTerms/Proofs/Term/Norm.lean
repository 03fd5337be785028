/-
# The normal form of a term

Reading a term as a value forgets in which order the sends of a map stand and which of them are
replaced by later ones; nothing else. `norm` forgets the same without reading: it leaves out every
send whose key comes again further on and sorts the rest, in every composition of sends and in
their payloads. So the term of the value that is read is `norm`, two terms carry one value just
when `norm` makes them the same, and the terms that come back as they are have their keys in
strictly ascending order everywhere.

Key definitions: `Send.keyText`, `Term.norm`, `Term.KeysAscend`.
Key theorems: `Term.norm_eq_self_iff`, `Term.norm_norm`, `Term.toValueAt_norm`,
`Term.decode_normalises`.
-/
import DataTerms.Proofs.Keyed.Sorting
import DataTerms.Proofs.Term.Defects
import DataTerms.Proofs.Term.Stops
import DataTerms.Proofs.Value.Building
import DataTerms.Proofs.Value.ReadBack

namespace DataTerms

/-- The key that a send stands for, or no text. -/
def Send.keyText (send : Send) : String := send.key?.getD ""

namespace Term

open Keyed

mutual

/-- The term with the last send of each key only, the sends in the order of their keys. -/
def norm : Term → Term
  | .literal value => .literal value
  | .list items => .list (normItems items)
  | .sends entries => .sends (sortOn Send.keyText (lastOfEach Send.keyText (normEntries entries)))
  | .nil => .nil

/-- The terms in their normal forms. -/
def normItems : List Term → List Term
  | [] => []
  | item :: rest => item.norm :: normItems rest

/-- The sends with their payloads in their normal forms. -/
def normEntries : List Send → List Send
  | [] => []
  | ⟨channel, payload⟩ :: rest => ⟨channel, normItems payload⟩ :: normEntries rest

end

mutual

/-- The keys of every composition of sends in a term ascend strictly. -/
def KeysAscend : Term → Prop
  | .literal _ | .nil => True
  | .list items => KeysAscendItems items
  | .sends entries =>
    (entries.Pairwise fun a b => a.keyText < b.keyText) ∧ KeysAscendEntries entries

/-- The keys of every composition of sends in terms ascend strictly. -/
def KeysAscendItems : List Term → Prop
  | [] => True
  | item :: rest => item.KeysAscend ∧ KeysAscendItems rest

/-- The keys of every composition of sends in the payloads of sends ascend strictly. -/
def KeysAscendEntries : List Send → Prop
  | [] => True
  | ⟨_, payload⟩ :: rest => KeysAscendItems payload ∧ KeysAscendEntries rest

end

theorem keysAscendEntries_iff {entries : List Send} :
    KeysAscendEntries entries ↔ ∀ send ∈ entries, KeysAscendItems send.payload := by
  induction entries with
  | nil => simp [KeysAscendEntries]
  | cons send rest ih =>
    obtain ⟨_, _⟩ := send
    rw [KeysAscendEntries, ih, List.forall_mem_cons]

mutual

/-- A term whose keys ascend is its own normal form. -/
theorem norm_eq_self : ∀ {t : Term}, t.KeysAscend → t.norm = t
  | .literal _, _ | .nil, _ => rfl
  | .list _, h => by rw [norm, normItems_eq_self h]
  | .sends _, h => by rw [norm, normEntries_eq_self h.2, sortOn_lastOfEach_eq_self h.1]

theorem normItems_eq_self : ∀ {items : List Term}, KeysAscendItems items → normItems items = items
  | [], _ => rfl
  | _ :: _, h => by rw [normItems, norm_eq_self h.1, normItems_eq_self h.2]

theorem normEntries_eq_self : ∀ {entries : List Send}, KeysAscendEntries entries →
    normEntries entries = entries
  | [], _ => rfl
  | ⟨_, _⟩ :: _, h => by rw [normEntries, normItems_eq_self h.1, normEntries_eq_self h.2]

end

mutual

/-- The keys of a normal form ascend. -/
theorem keysAscend_norm : ∀ t : Term, t.norm.KeysAscend
  | .literal _ | .nil => trivial
  | .list items => keysAscendItems_normItems items
  | .sends entries => by
    have hentries := keysAscendEntries_iff.mp (keysAscendEntries_normEntries entries)
    refine ⟨pairwise_lt_sortOn (pairwise_ne_lastOfEach _), keysAscendEntries_iff.mpr ?_⟩
    intro send hmem
    exact hentries send ((lastOfEach_sublist _).subset (mem_sortOn.mp hmem))

theorem keysAscendItems_normItems : ∀ items : List Term, KeysAscendItems (normItems items)
  | [] => trivial
  | item :: rest => ⟨keysAscend_norm item, keysAscendItems_normItems rest⟩

theorem keysAscendEntries_normEntries : ∀ entries : List Send,
    KeysAscendEntries (normEntries entries)
  | [] => trivial
  | ⟨_, payload⟩ :: rest => ⟨keysAscendItems_normItems payload, keysAscendEntries_normEntries rest⟩

end

/-- The terms that are their own normal forms are those whose keys ascend. -/
theorem norm_eq_self_iff {t : Term} : t.norm = t ↔ t.KeysAscend := by
  constructor
  · intro h
    rw [← h]
    exact keysAscend_norm t
  · exact norm_eq_self

theorem norm_norm (t : Term) : t.norm.norm = t.norm := norm_eq_self (keysAscend_norm t)

end Term

/-! ### Reading -/

namespace Value

/-- The term of a map has the last of the entries for each key, sorted. -/
theorem toTerm_ofEntries (entries : List (String × Value)) : (ofEntries entries).toTerm =
    .sends (Keyed.sortOn Send.keyText
      (Keyed.lastOfEach Send.keyText (entriesToTerm entries))) := by
  have hkey : ∀ entry : String × Value,
      (Send.entry entry.1 entry.2.toTerm).keyText = entry.1 := fun _ => rfl
  rw [ofEntries, toTerm, Keyed.ofList_eq_sortOn, entriesToTerm_eq_map, entriesToTerm_eq_map,
    Keyed.lastOfEach_map hkey, Keyed.sortOn_map hkey]

/-- Two values with one term are the same. -/
theorem eq_of_toTerm_eq {a b : Value} (ha : a.Ordered) (hb : b.Ordered)
    (h : a.toTerm = b.toTerm) : a = b := by
  have hread := decode_toTerm ha
  rw [h, decode_toTerm hb] at hread
  exact (Except.ok.inj hread).symm

end Value

namespace Term

open Value

mutual

/-- The value that is read has the normal form as its term. -/
theorem toValueAt_norm (path : Path) : ∀ {t : Term}, t.WellFormed →
    ∃ value, (t.toValueAt path).result = .ok value ∧ value.Ordered ∧ value.toTerm = t.norm
  | .literal (.bool value), _ => ⟨.bool value, rfl, trivial, rfl⟩
  | .literal (.int value), _ => ⟨.int value, rfl, trivial, rfl⟩
  | .literal (.str value), _ => ⟨.str value, rfl, trivial, rfl⟩
  | .nil, _ => ⟨.null, rfl, trivial, rfl⟩
  | .list _, h => by
    obtain ⟨values, hread, hordered, hterm⟩ := itemsToValue_norm path 0 h
    refine ⟨.list values, ?_, hordered, ?_⟩
    · rw [toValueAt, Report.result_bind, hread]
      rfl
    · rw [toTerm, norm, hterm]
  | .sends _, h => by
    obtain ⟨read, hread, hordered, hterm⟩ := entriesToValue_norm path 0 [] h
    refine ⟨ofEntries read, ?_, ordered_ofEntries hordered, ?_⟩
    · rw [toValueAt, Report.result_bind, hread]
      rfl
    · rw [toTerm_ofEntries, norm, hterm]

theorem itemsToValue_norm (path : Path) (i : Nat) : ∀ {items : List Term}, WellFormedItems items →
    ∃ values, (itemsToValue path i items).result = .ok values ∧ OrderedItems values ∧
      itemsToTerm values = normItems items
  | [], _ => ⟨[], rfl, trivial, rfl⟩
  | item :: rest, h => by
    obtain ⟨value, hvalue, hordered, hterm⟩ := toValueAt_norm (path.index i) h.1
    obtain ⟨values, hvalues, hordereds, hterms⟩ := itemsToValue_norm path (i + 1) h.2
    refine ⟨value :: values, ?_, ⟨hordered, hordereds⟩, ?_⟩
    · simp only [itemsToValue, Report.result_bind, hvalue, hvalues]
      rfl
    · rw [itemsToTerm, normItems, hterm, hterms]

/-- The sends are read as entries that are entered one after the other, in any map. -/
theorem entriesToValue_norm (path : Path) (i : Nat) (map : List (String × Value)) :
    ∀ {entries : List Send}, WellFormedEntries entries →
      ∃ read, (entriesToValue path i map entries).result =
          .ok (read.foldl (fun map entry => Keyed.insert entry.1 entry.2 map) map) ∧
        OrderedEntries read ∧ entriesToTerm read = normEntries entries
  | [], _ => ⟨[], rfl, trivial, rfl⟩
  | ⟨.literal (.str key), [single]⟩ :: rest, h => by
    have hkey : ((str key).toValueAt (path.index i)).result = .ok (.str key) := rfl
    obtain ⟨value, hvalue, hordered, hterm⟩ := toValueAt_norm (path.key key) h.1
    obtain ⟨read, hread, hordereds, hterms⟩ :=
      entriesToValue_norm path (i + 1) (Keyed.insert key value map) h.2
    refine ⟨(key, value) :: read, ?_, ⟨hordered, hordereds⟩, ?_⟩
    · rw [str] at hkey
      simp only [entriesToValue, keyOfValue, payloadToValue, Report.result_bind,
        Report.result_pure, result_enter, hkey, hvalue, Outcomes.ok_bind]
      exact hread
    · rw [entriesToTerm, normEntries, normItems, normItems, hterm, hterms]
      rfl

end

/-- A well-formed term has a value, whose term is the normal form. -/
theorem exists_decode_norm {t : Term} (h : t.WellFormed) :
    ∃ value, t.decode.result = .ok value ∧ value.Ordered ∧ value.toTerm = t.norm :=
  toValueAt_norm .root h

/-- **Reading and writing a term again makes its normal form**, with the last send of each key in
the order of the keys. It makes the term itself just when the keys ascend strictly everywhere; the
normal form is its own; and two terms are read as one value just when they have one normal form. -/
theorem decode_normalises {t : Term} (h : AreEntries t.allSends) :
    (∃ value, t.decode.result = .ok value ∧ value.encode.result = .ok t.norm) ∧
    ((∃ value, t.decode.result = .ok value ∧ value.encode.result = .ok t) ↔ t.KeysAscend) ∧
    t.norm.norm = t.norm ∧
    ∀ {t' : Term}, AreEntries t'.allSends →
      ((∃ value, t.decode.result = .ok value ∧ t'.decode.result = .ok value) ↔
        t.norm = t'.norm) := by
  obtain ⟨value, hread, hordered, hterm⟩ := exists_decode_norm (t.wellFormed_iff_allSends.mpr h)
  have hencode : value.encode.result = .ok t.norm := by rw [← hterm]; rfl
  refine ⟨⟨value, hread, hencode⟩, ?_, norm_norm t, fun {t'} h' => ?_⟩
  · rw [← norm_eq_self_iff]
    constructor
    · rintro ⟨value', hread', hencode'⟩
      obtain rfl : value = value' := Except.ok.inj (hread.symm.trans hread')
      exact Except.ok.inj (hencode.symm.trans hencode')
    · intro hself
      rw [hself] at hencode
      exact ⟨value, hread, hencode⟩
  · obtain ⟨value', hread', hordered', hterm'⟩ :=
      exists_decode_norm (t'.wellFormed_iff_allSends.mpr h')
    constructor
    · rintro ⟨common, hcommon, hcommon'⟩
      obtain rfl : value = common := Except.ok.inj (hread.symm.trans hcommon)
      obtain rfl : value' = value := Except.ok.inj (hread'.symm.trans hcommon')
      rw [← hterm, ← hterm']
    · -- the values keep their keys in order, so their terms tell them apart
      intro hnorm
      have hsame : value = value' := by
        apply eq_of_toTerm_eq hordered hordered'
        rw [hterm, hterm', hnorm]
      exact ⟨value, hread, hsame ▸ hread'⟩

/-- A send that a later one replaces, and one out of its place. -/
theorem decode_normalises_replaced :
    let t := sends [.entry "b" .nil, .entry "a" (.list []), .entry "b" (str "x")]
    let t' := sends [.entry "a" (.list []), .entry "b" (str "x")]
    AreEntries t.allSends ∧ AreEntries t'.allSends ∧ t.norm = t' ∧ ¬ t.KeysAscend ∧
      ∃ value, t.decode.result = .ok value ∧ t'.decode.result = .ok value := by
  intro t t'
  have hentries : AreEntries t.allSends :=
    t.wellFormed_iff_allSends.mp ⟨trivial, trivial, trivial, trivial⟩
  have hentries' : AreEntries t'.allSends :=
    t'.wellFormed_iff_allSends.mp ⟨trivial, trivial, trivial⟩
  obtain ⟨⟨value, hread, hencode⟩, -, hnorm_norm, hsame⟩ := decode_normalises hentries
  have hvalue : t.decode.result = .ok (.map [("a", .list []), ("b", .str "x")]) := rfl
  obtain rfl : value = _ := Except.ok.inj (hread.symm.trans hvalue)
  have hnorm : t.norm = t' := (Except.ok.inj hencode).symm
  have hascend : ¬ t.KeysAscend := by
    intro hascend
    rw [norm_eq_self hascend] at hnorm
    exact absurd hnorm (by decide +kernel)
  refine ⟨hentries, hentries', hnorm, hascend, (hsame hentries').mpr ?_⟩
  rw [hnorm] at hnorm_norm ⊢
  exact hnorm_norm.symm

end Term
end DataTerms
