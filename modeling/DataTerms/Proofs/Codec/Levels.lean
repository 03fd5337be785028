/-
# The limit is a gate at the depth of a term

A term has a node for each value in it: itself, the items of its lists and the payloads of its
sends, each one level below the node it is in. A channel is no value, and in a term all of whose
sends are entries it is no deeper than the payload beside it. So such a term has a node at every
level up to its depth and none beyond, and a codec whose limit is less than that stops at the
first node, in the order in which a term is written down, that is one level beyond the limit.
With any greater limit it writes the same bytes.

Nothing else depends on the limit, so bytes that are read with one limit are read with every
limit from the depth of their term on, and are refused at that node with the others.

Key definitions: `Node`, `Term.nodes`, `Term.firstAt?`.
Key theorems: `Codec.validateAt_tracks_nodes`, `Codec.limit_gates`.
-/
import DataTerms.Proofs.Codec.RoundTrip
import DataTerms.Proofs.Term.Defects

namespace DataTerms

/-- The place of a value in a term, and the number of its level. -/
structure Node where
  path : Path
  level : Nat

namespace Term

mutual

/-- The nodes of the term at a path and a level, the node of the term itself first. -/
def nodesAt (path : Path) (level : Nat) : Term → List Node
  | .literal _ | .nil => [⟨path, level⟩]
  | .list items => ⟨path, level⟩ :: nodesInItems path 0 (level + 1) items
  | .sends entries => ⟨path, level⟩ :: nodesInEntries path (level + 1) entries

/-- The nodes of the items of the list at a path, from the one with the index `i` on. -/
def nodesInItems (path : Path) (i level : Nat) : List Term → List Node
  | [] => []
  | item :: rest => item.nodesAt (path.index i) level ++ nodesInItems path (i + 1) level rest

/-- The nodes of the payloads of the sends at a path. Where a channel is no text the payload has
no place. -/
def nodesInEntries (path : Path) (level : Nat) : List Send → List Node
  | [] => []
  | ⟨.literal (.str key), payload⟩ :: rest =>
    nodesInPayload (path.key key) level payload ++ nodesInEntries path level rest
  | ⟨_, _⟩ :: rest => nodesInEntries path level rest

/-- The nodes of the terms of a payload, all of which have its path. -/
def nodesInPayload (path : Path) (level : Nat) : List Term → List Node
  | [] => []
  | value :: rest => value.nodesAt path level ++ nodesInPayload path level rest

end

/-- The nodes of a term, in the order in which it is written down; the term itself is at the
first level. -/
def nodes (t : Term) : List Node := t.nodesAt .root 1

/-- The first node of a term at a level. -/
def firstAt? (t : Term) (level : Nat) : Option Node := t.nodes.find? fun node => node.level = level

end Term

namespace Codec

open Outcomes Term

variable {limit level : Nat} {path : Path}

/-- The error of a check that stops at a node beyond the limit. -/
def TooDeep (limit : Nat) (node : Node) (error : TermError) : Prop :=
  error = .schema node.path (.tooDeep limit)

/-- A check of a node stops there if the node is one level beyond the limit, and otherwise goes on
to the nodes below. -/
theorem checkLevel_tracks {below : List Node} {next : Except TermError Unit}
    (hlevel : level ≤ limit + 1)
    (h : level ≤ limit → Tracks (TooDeep limit) (below.find? fun node => node.level = limit + 1) next) :
    Tracks (TooDeep limit) ((⟨path, level⟩ :: below).find? fun node => node.level = limit + 1)
      (checkLevel limit path level >>= fun _ => next) := by
  by_cases hbeyond : level = limit + 1
  · have hfirst : ((⟨path, level⟩ :: below).find? fun node => node.level = limit + 1) =
        some ⟨path, level⟩ := by
      simp [hbeyond]
    have hcheck : checkLevel limit path level = .error (.schema path (.tooDeep limit)) := by
      rw [checkLevel, if_pos (by omega)]
    rw [hfirst, hcheck]
    exact ⟨_, rfl, rfl⟩
  · have hbelow : ((⟨path, level⟩ :: below).find? fun node => node.level = limit + 1) =
        below.find? fun node => node.level = limit + 1 := by
      simp [hbeyond]
    have hcheck : checkLevel limit path level = .ok () := checkLevel_eq_ok.mpr (by omega)
    rw [hbelow, hcheck]
    exact h (by omega)

mutual

/-- Checking a well-formed term stops at its first node beyond the limit. -/
theorem validateAt_tracks_nodes (path : Path) {level : Nat} (hlevel : level ≤ limit + 1) :
    ∀ {t : Term}, t.WellFormed → Tracks (TooDeep limit)
      ((t.nodesAt path level).find? fun node => node.level = limit + 1)
      (validateAt limit path level t)
  | .literal _, _ | .nil, _ => by
    have hleaf : Tracks (TooDeep limit) ([⟨path, level⟩].find? fun node => node.level = limit + 1)
        (checkLevel limit path level >>= fun _ => pure ()) := checkLevel_tracks hlevel fun _ => rfl
    rwa [bind_pure_unit] at hleaf
  | .list items, h =>
    checkLevel_tracks hlevel fun hle => validateItems_tracks_nodes path 0 (by omega) h
  | .sends entries, h =>
    checkLevel_tracks hlevel fun hle => validateEntries_tracks_nodes path 0 (by omega) h

theorem validateItems_tracks_nodes (path : Path) (i : Nat) {level : Nat}
    (hlevel : level ≤ limit + 1) : ∀ {items : List Term}, WellFormedItems items →
      Tracks (TooDeep limit)
        ((nodesInItems path i level items).find? fun node => node.level = limit + 1)
        (validateItems limit path i level items)
  | [], _ => rfl
  | item :: rest, h => by
    have hitem := validateAt_tracks_nodes (path.index i) hlevel h.1
    have hrest := validateItems_tracks_nodes path (i + 1) hlevel h.2
    rw [nodesInItems, List.find?_append]
    exact hitem.bind fun _ => hrest

theorem validateEntries_tracks_nodes (path : Path) (i : Nat) {level : Nat}
    (hlevel : level ≤ limit + 1) : ∀ {entries : List Send}, WellFormedEntries entries →
      Tracks (TooDeep limit)
        ((nodesInEntries path level entries).find? fun node => node.level = limit + 1)
        (validateEntries limit path i level entries)
  | [], _ => rfl
  | ⟨.literal (.str key), [value]⟩ :: rest, h => by
    have hvalue := validateAt_tracks_nodes (path.key key) hlevel h.1
    have hrest := validateEntries_tracks_nodes path (i + 1) hlevel h.2
    rw [nodesInEntries, nodesInPayload, nodesInPayload, List.append_nil, List.find?_append]
    exact hvalue.bind fun _ => hrest

end

variable {codec : Codec} {t : Term}

theorem validate_tracks_nodes (hwf : t.WellFormed) :
    Tracks (TooDeep codec.maxDepth) (t.firstAt? (codec.maxDepth + 1)) (codec.validate t) :=
  validateAt_tracks_nodes .root (Nat.succ_le_succ (Nat.zero_le _)) hwf

theorem firstAt?_eq_none_iff (hwf : t.WellFormed) (level : Nat) :
    t.firstAt? (level + 1) = none ↔ t.depth ≤ level := by
  have htracks : Tracks (TooDeep level) (t.firstAt? (level + 1)) (Codec.validate ⟨level⟩ t) :=
    validate_tracks_nodes hwf
  constructor
  · intro hnone
    rw [hnone] at htracks
    obtain ⟨_, hvalid⟩ := htracks.exists_ok
    exact (validate_eq_ok.mp hvalid).2
  · intro hdepth
    have hvalid : Codec.validate ⟨level⟩ t = .ok () := validate_eq_ok.mpr ⟨hwf, hdepth⟩
    rw [hvalid] at htracks
    exact htracks

/-- Checking a well-formed term beyond the limit stops at its first node beyond the limit. -/
theorem validate_of_lt_depth (hwf : t.WellFormed) (h : codec.maxDepth < t.depth) :
    ∃ node, t.firstAt? (codec.maxDepth + 1) = some node ∧
      codec.validate t = .error (.schema node.path (.tooDeep codec.maxDepth)) := by
  have hsome : t.firstAt? (codec.maxDepth + 1) ≠ none := by
    intro hnone
    have hle := (firstAt?_eq_none_iff hwf codec.maxDepth).mp hnone
    omega
  obtain ⟨node, hnode⟩ := Option.ne_none_iff_exists'.mp hsome
  have htracks : Tracks (TooDeep codec.maxDepth) (t.firstAt? (codec.maxDepth + 1))
      (codec.validate t) := validate_tracks_nodes hwf
  rw [hnode] at htracks
  obtain ⟨error, hvalid, rfl⟩ := htracks.exists_error
  exact ⟨node, hnode, hvalid⟩

/-- **The limit is a gate at the depth of a term.** Of a term all of whose sends are entries a
codec writes the same bytes with every limit from the depth of the term on, and with a lesser one
it fails at the first node that is one level beyond the limit. Bytes that are read with some limit
are read as the same term with just these limits, and are refused at that node with the others. -/
theorem limit_gates :
    (∀ {t : Term}, AreEntries t.allSends → ∀ codec : Codec,
      (∀ bytes, (codec.toBytes t).result = .ok bytes ↔
        t.depth ≤ codec.maxDepth ∧ bytes = t.toPar.encode) ∧
      (codec.maxDepth < t.depth → ∃ node, t.firstAt? (codec.maxDepth + 1) = some node ∧
        (codec.toBytes t).result = .error (.schema node.path (.tooDeep codec.maxDepth)))) ∧
    ∀ {reader : Codec} {bytes : List UInt8} {t : Term}, (reader.ofBytes bytes).result = .ok t →
      ∀ codec : Codec, ((codec.ofBytes bytes).result = .ok t ↔ t.depth ≤ codec.maxDepth) ∧
        (codec.maxDepth < t.depth → ∃ node, t.firstAt? (codec.maxDepth + 1) = some node ∧
          (codec.ofBytes bytes).result =
            .error ⟨.decodeFailure, node.path, .tooDeep codec.maxDepth⟩) := by
  constructor
  · intro t hentries codec
    have hwf := (wellFormed_iff_allSends t).mpr hentries
    constructor
    · intro bytes
      rw [toBytes_eq_ok, eq_comm (a := t.toPar.encode)]
      exact ⟨fun h => ⟨h.1.2, h.2⟩, fun h => ⟨⟨hwf, h.1⟩, h.2⟩⟩
    · intro hdeep
      obtain ⟨node, hnode, hvalid⟩ := validate_of_lt_depth hwf hdeep
      refine ⟨node, hnode, ?_⟩
      rw [toBytes, Report.result_bind, Report.result_ofExcept, hvalid]
      rfl
  · intro reader bytes t hread codec
    obtain ⟨⟨hwf, -⟩, hne, hpar⟩ := ofBytes_eq_ok.mp hread
    constructor
    · rw [ofBytes_eq_ok]
      exact ⟨fun h => h.1.2, fun hdepth => ⟨⟨hwf, hdepth⟩, hne, hpar⟩⟩
    · intro hdeep
      obtain ⟨node, hnode, hvalid⟩ := validate_of_lt_depth hwf hdeep
      have hlift : ofPar? t.toPar = .ok t := (ofParAt_eq_ok .root t.toPar t).mpr ⟨hne, (fill_toPar t).symm⟩
      refine ⟨node, hnode, ?_⟩
      rw [result_ofBytes_of_decode hpar, hlift]
      show ((codec.validate t).mapError TermError.asDecodeFailure >>= fun _ => .ok t) = _
      rw [hvalid]
      rfl

/-- A map to a list that holds a number, with a limit of three and of two. -/
theorem limit_gates_list :
    let t : Term := .sends [.entry "a" (.list [.literal (.int 0)]), .entry "b" (.list [.nil])]
    let place : Path := .index (.key .root "a") 0
    (Codec.toBytes ⟨3⟩ t).result = .ok t.toPar.encode ∧
      (Codec.toBytes ⟨2⟩ t).result = .error (.schema place (.tooDeep 2)) ∧
      (Codec.ofBytes ⟨2⟩ t.toPar.encode).result = .error ⟨.decodeFailure, place, .tooDeep 2⟩ := by
  intro t place
  have hentries : AreEntries t.allSends :=
    (wellFormed_iff_allSends t).mp ⟨⟨trivial, trivial⟩, ⟨trivial, trivial⟩, trivial⟩
  obtain ⟨hwrite, -⟩ := limit_gates.1 hentries ⟨3⟩
  obtain ⟨-, hwriteDeep⟩ := limit_gates.1 hentries ⟨2⟩
  have hbytes : (Codec.toBytes ⟨3⟩ t).result = .ok t.toPar.encode :=
    (hwrite _).mpr ⟨(by decide : t.depth ≤ 3), rfl⟩
  have hread : (Codec.ofBytes ⟨3⟩ t.toPar.encode).result = .ok t :=
    ofBytes_eq_canon (by decide) hbytes (by decide +kernel)
  obtain ⟨-, hreadDeep⟩ := limit_gates.2 hread ⟨2⟩
  obtain ⟨node, hnode, hwriteError⟩ := hwriteDeep (by decide : 2 < t.depth)
  obtain ⟨node', hnode', hreadError⟩ := hreadDeep (by decide : 2 < t.depth)
  cases hnode
  cases hnode'
  exact ⟨hbytes, hwriteError, hreadError⟩

end Codec
end DataTerms
