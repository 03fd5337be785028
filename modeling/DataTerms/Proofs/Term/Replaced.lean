/-
# Entries that are replaced

Reading a term leaves a warning for each entry whose key an earlier send of the same composition
has, since the earlier value is lost then. The warning follows those of the entry's own value, so
the warnings are the `replacements` of the term: its values whose keys are there already, in the
order in which they end. A composition warns once for every send it has more than keys, whatever
becomes of the composition itself later on. So reading is silent just when no key comes again in
any of them, which is to say that nothing is lost but the order of the sends.

Key definitions: `Report.warnings`, `Term.replacements`, `Term.repeats`, `Term.Reordered`.
Key theorems: `Term.events_toValueAt`, `Term.length_replacements`, `Term.reordered_norm_iff`,
`Term.decode_warns`.
-/
import DataTerms.Proofs.Term.Norm
import DataTerms.Proofs.Value.Encoding
import Mathlib

namespace DataTerms

/-- The events of a report that matter as warnings. -/
def Report.warnings {ε α : Type} (report : Report ε α) : List Event :=
  report.events.filter fun event => event.level = .warn

namespace Term

open Keyed

/-! ### The values that replace others -/

mutual

/-- The paths of the values in the term at a path whose keys earlier sends have, a value after
those within it. -/
def replacementsAt (path : Path) : Term → List Path
  | .literal _ | .nil => []
  | .list items => replacementsInItems path 0 items
  | .sends entries => replacementsInEntries path [] entries

/-- Those in the items of the list at a path, from the one with the index `i` on. -/
def replacementsInItems (path : Path) (i : Nat) : List Term → List Path
  | [] => []
  | item :: rest => item.replacementsAt (path.index i) ++ replacementsInItems path (i + 1) rest

/-- Those in sends at a path and among their values, after sends with the keys `before`. -/
def replacementsInEntries (path : Path) (before : List String) : List Send → List Path
  | [] => []
  | ⟨channel, payload⟩ :: rest =>
    let key := Send.keyText ⟨channel, payload⟩
    replacementsInPayload (path.key key) payload ++
      (if key ∈ before then [path.key key] else []) ++
      replacementsInEntries path (key :: before) rest

/-- Those in the terms of the payload at a path. -/
def replacementsInPayload (path : Path) : List Term → List Path
  | [] => []
  | value :: rest => value.replacementsAt path ++ replacementsInPayload path rest

end

/-- The paths of the values in a term whose keys earlier sends have. -/
def replacements (t : Term) : List Path := t.replacementsAt .root

/-! ### Their events -/

theorem events_enter (path : Path) (key : String) (value : Value) (map : List (String × Value)) :
    (enter path key value map).events =
      if (find? key map).isSome then [.duplicate path] else [] := by
  unfold enter
  split <;> rfl

/-- A map holds the keys of the sends that were entered. -/
def Entered (map : List (String × Value)) (keys : List String) : Prop :=
  ∀ key, (find? key map).isSome = true ↔ key ∈ keys

theorem Entered.insert {map : List (String × Value)} {keys : List String} (h : Entered map keys)
    (key : String) (value : Value) : Entered (Keyed.insert key value map) (key :: keys) := by
  intro key'
  rw [find?_insert, List.mem_cons]
  by_cases heq : key' = key
  · simp [heq]
  · simp [heq, h key']

mutual

/-- Reading a well-formed term has the events of its replacements, in their order. -/
theorem events_toValueAt (path : Path) : ∀ {t : Term}, t.WellFormed →
    (t.toValueAt path).events = (t.replacementsAt path).map .duplicate
  | .literal (.bool _), _ | .literal (.int _), _ | .literal (.str _), _ | .nil, _ => rfl
  | .list items, h => by
    obtain ⟨values, hread, -⟩ := itemsToValue_norm path 0 h
    have hevents := events_itemsToValue path 0 h
    rw [toValueAt, Report.events_bind_of_ok hread, hevents, Report.events_pure, List.append_nil,
      replacementsAt]
  | .sends entries, h => by
    obtain ⟨read, hread, -⟩ := entriesToValue_norm path 0 [] h
    have hnone : Entered [] [] := fun key => by simp [find?]
    have hevents := events_entriesToValue path 0 hnone h
    rw [toValueAt, Report.events_bind_of_ok hread, hevents, Report.events_pure, List.append_nil,
      replacementsAt]

theorem events_itemsToValue (path : Path) (i : Nat) : ∀ {items : List Term},
    WellFormedItems items →
      (itemsToValue path i items).events = (replacementsInItems path i items).map .duplicate
  | [], _ => rfl
  | item :: rest, h => by
    obtain ⟨value, hvalue, -⟩ := toValueAt_norm (path.index i) h.1
    obtain ⟨values, hvalues, -⟩ := itemsToValue_norm path (i + 1) h.2
    have hitem := events_toValueAt (path.index i) h.1
    have hrest := events_itemsToValue path (i + 1) h.2
    rw [itemsToValue, Report.events_bind_of_ok hvalue, Report.events_bind_of_ok hvalues, hitem,
      hrest, Report.events_pure, List.append_nil, replacementsInItems, List.map_append]

/-- A key is there when a send is entered just when an earlier send has it. -/
theorem events_entriesToValue (path : Path) (i : Nat) : ∀ {map : List (String × Value)}
    {before : List String}, Entered map before → ∀ {entries : List Send},
      WellFormedEntries entries → (entriesToValue path i map entries).events =
        (replacementsInEntries path before entries).map .duplicate
  | _, _, _, [], _ => rfl
  | map, before, hmap, ⟨.literal (.str key), [single]⟩ :: rest, h => by
    obtain ⟨value, hvalue, -⟩ := toValueAt_norm (path.key key) h.1
    have hsingle := events_toValueAt (path.key key) h.1
    have hrest := events_entriesToValue path (i + 1) (hmap.insert key value) h.2
    have henter : (enter (path.key key) key value map).events =
        (if key ∈ before then [path.key key] else []).map .duplicate := by
      rw [events_enter]
      by_cases hkey : key ∈ before
      · rw [if_pos ((hmap key).mpr hkey), if_pos hkey]
        rfl
      · rw [if_neg fun hthere => hkey ((hmap key).mp hthere), if_neg hkey]
        rfl
    have hchannel : (literal (.str key)).toValueAt (path.index i) = pure (.str key) := rfl
    have hkey : Send.keyText ⟨.literal (.str key), [single]⟩ = key := rfl
    rw [entriesToValue, hchannel, Report.pure_bind, keyOfValue, Report.pure_bind, payloadToValue,
      Report.events_bind_of_ok hvalue, Report.events_bind_of_ok (result_enter _ _ _ _), hsingle,
      henter, hrest, replacementsInEntries, replacementsInPayload, replacementsInPayload,
      List.append_nil, hkey, List.map_append, List.map_append, List.append_assoc]

end

/-! ### Their number -/

/-- The number of sends that a composition has more than keys. -/
def repeats (sends : List Send) : Nat :=
  sends.length - (sends.map Send.keyText).dedup.length

/-- The number of keys that come after themselves, or after the keys `before`. -/
def timesAgain (before : List String) : List String → Nat
  | [] => 0
  | key :: rest => (if key ∈ before then 1 else 0) + timesAgain (key :: before) rest

/-- Every key is new or comes again. -/
theorem timesAgain_add_dedup : ∀ before keys : List String,
    timesAgain before keys + (keys.reverse ++ before).dedup.length =
      keys.length + before.dedup.length
  | before, [] => by simp [timesAgain]
  | before, key :: rest => by
    have ih := timesAgain_add_dedup (key :: before) rest
    rw [timesAgain, List.reverse_cons, List.append_assoc, List.singleton_append, List.length_cons]
    by_cases hkey : key ∈ before
    · rw [List.dedup_cons_of_mem hkey] at ih
      rw [if_pos hkey]
      omega
    · rw [List.dedup_cons_of_notMem hkey, List.length_cons] at ih
      rw [if_neg hkey]
      omega

theorem timesAgain_eq_repeats (sends : List Send) :
    timesAgain [] (sends.map Send.keyText) = repeats sends := by
  have hkeys := timesAgain_add_dedup [] (sends.map Send.keyText)
  have hreverse := (List.reverse_perm (sends.map Send.keyText)).dedup.length_eq
  rw [List.append_nil, List.length_map, hreverse] at hkeys
  simp only [List.dedup_nil, List.length_nil] at hkeys
  rw [repeats]
  omega

/-- A well-formed send has no compositions but those of its value. -/
theorem compositionsInEntries_cons (key : String) (value : Term) (rest : List Send) :
    compositionsInEntries (⟨.literal (.str key), [value]⟩ :: rest) =
      value.compositions ++ compositionsInEntries rest := by
  simp [compositionsInEntries, compositionsInItems, compositions]

mutual

/-- A well-formed term has as many replacements as its compositions have sends more than keys. -/
theorem length_replacementsAt (path : Path) : ∀ {t : Term}, t.WellFormed →
    (t.replacementsAt path).length = (t.compositions.map repeats).sum
  | .literal _, _ | .nil, _ => rfl
  | .list _, h => length_replacementsInItems path 0 h
  | .sends entries, h => by
    have hentries := length_replacementsInEntries path [] h
    rw [replacementsAt, hentries, timesAgain_eq_repeats, compositions, List.map_cons, List.sum_cons]

theorem length_replacementsInItems (path : Path) (i : Nat) : ∀ {items : List Term},
    WellFormedItems items →
      (replacementsInItems path i items).length = ((compositionsInItems items).map repeats).sum
  | [], _ => rfl
  | item :: rest, h => by
    have hitem := length_replacementsAt (path.index i) h.1
    have hrest := length_replacementsInItems path (i + 1) h.2
    rw [replacementsInItems, compositionsInItems, List.length_append, List.map_append,
      List.sum_append, hitem, hrest]

theorem length_replacementsInEntries (path : Path) (before : List String) :
    ∀ {entries : List Send}, WellFormedEntries entries →
      (replacementsInEntries path before entries).length =
        timesAgain before (entries.map Send.keyText) +
          ((compositionsInEntries entries).map repeats).sum
  | [], _ => rfl
  | ⟨.literal (.str key), [value]⟩ :: rest, h => by
    have hvalue := length_replacementsAt (path.key key) h.1
    have hrest := length_replacementsInEntries path (key :: before) h.2
    have hkey : Send.keyText ⟨.literal (.str key), [value]⟩ = key := rfl
    have honce : (if key ∈ before then [path.key key] else []).length =
        if key ∈ before then 1 else 0 := by
      split <;> rfl
    rw [compositionsInEntries_cons, replacementsInEntries, replacementsInPayload,
      replacementsInPayload, List.append_nil, List.map_cons, hkey, timesAgain, List.length_append,
      List.length_append, List.map_append, List.sum_append, hvalue, hrest, honce]
    omega

end

theorem repeats_eq_zero_iff (sends : List Send) :
    repeats sends = 0 ↔ (sends.map Send.keyText).Nodup := by
  have hsub := List.dedup_sublist (sends.map Send.keyText)
  have hle := hsub.length_le
  rw [List.length_map] at hle
  rw [repeats, ← List.dedup_eq_self]
  constructor
  · intro hzero
    refine hsub.eq_of_length ?_
    rw [List.length_map]
    omega
  · intro heq
    rw [heq, List.length_map, Nat.sub_self]

/-- No key comes again just when there is no replacement. -/
theorem replacements_eq_nil_iff {t : Term} (h : t.WellFormed) :
    t.replacements = [] ↔ ∀ sends ∈ t.compositions, (sends.map Send.keyText).Nodup := by
  rw [← List.length_eq_zero_iff, replacements, length_replacementsAt .root h, List.sum_eq_zero_iff]
  simp only [List.mem_map, forall_exists_index, and_imp, forall_apply_eq_imp_iff₂,
    repeats_eq_zero_iff]

/-! ### Terms whose sends are in another order -/

mutual

/-- The second term is the first with the sends of every composition in some order. -/
inductive Reordered : Term → Term → Prop
  | literal (value : Literal) : Reordered (.literal value) (.literal value)
  | list {items items' : List Term} : ReorderedItems items items' →
      Reordered (.list items) (.list items')
  | sends {entries entries' entries'' : List Send} : ReorderedEntries entries entries' →
      entries'.Perm entries'' → Reordered (.sends entries) (.sends entries'')
  | nil : Reordered .nil .nil

/-- The second terms are the first ones with their sends in some order. -/
inductive ReorderedItems : List Term → List Term → Prop
  | nil : ReorderedItems [] []
  | cons {item item' : Term} {rest rest' : List Term} : Reordered item item' →
      ReorderedItems rest rest' → ReorderedItems (item :: rest) (item' :: rest')

/-- The second sends are the first ones, with the sends in their channels and payloads in some
order. -/
inductive ReorderedEntries : List Send → List Send → Prop
  | nil : ReorderedEntries [] []
  | cons {channel channel' : Term} {payload payload' : List Term} {rest rest' : List Send} :
      Reordered channel channel' → ReorderedItems payload payload' → ReorderedEntries rest rest' →
      ReorderedEntries (⟨channel, payload⟩ :: rest) (⟨channel', payload'⟩ :: rest')

end

/-- A send keeps its key when its payload is replaced. -/
theorem keyText_eq (channel : Term) (payload payload' : List Term) :
    Send.keyText ⟨channel, payload⟩ = Send.keyText ⟨channel, payload'⟩ := by
  unfold Send.keyText Send.key?
  rcases channel with (_ | _ | _) | _ | _ | _ <;> rfl

theorem map_keyText_normEntries (entries : List Send) :
    (normEntries entries).map Send.keyText = entries.map Send.keyText := by
  induction entries with
  | nil => rfl
  | cons entry rest ih =>
    obtain ⟨channel, payload⟩ := entry
    rw [normEntries, List.map_cons, List.map_cons, keyText_eq channel (normItems payload) payload,
      ih]

/-- Sends on texts keep their keys, one by one. -/
theorem ReorderedEntries.map_keyText : ∀ {entries entries' : List Send},
    ReorderedEntries entries entries' → WellFormedEntries entries →
      entries'.map Send.keyText = entries.map Send.keyText
  | [], [], .nil, _ => rfl
  | ⟨.literal (.str key), [single]⟩ :: _, ⟨_, payload'⟩ :: _, .cons (.literal _) _ hrest, h => by
    rw [List.map_cons, List.map_cons, keyText_eq _ payload' [single], hrest.map_keyText h.2]

mutual

/-- Where no key comes again, the normal form has the sends in another order. -/
theorem reordered_norm : ∀ {t : Term}, t.WellFormed →
    (∀ sends ∈ t.compositions, (sends.map Send.keyText).Nodup) → t.Reordered t.norm
  | .literal value, _, _ => .literal value
  | .nil, _, _ => .nil
  | .list _, h, hkeys => .list (reorderedItems_norm h hkeys)
  | .sends entries, h, hkeys => by
    obtain ⟨hnodup, hbelow⟩ := List.forall_mem_cons.mp hkeys
    rw [← map_keyText_normEntries] at hnodup
    have hall : lastOfEach Send.keyText (normEntries entries) = normEntries entries :=
      lastOfEach_eq_self (List.pairwise_map.mp hnodup)
    rw [norm, hall]
    exact .sends (reorderedEntries_norm h hbelow) (List.mergeSort_perm _ _).symm

theorem reorderedItems_norm : ∀ {items : List Term}, WellFormedItems items →
    (∀ sends ∈ compositionsInItems items, (sends.map Send.keyText).Nodup) →
      ReorderedItems items (normItems items)
  | [], _, _ => .nil
  | item :: rest, h, hkeys => by
    obtain ⟨hitem, hrest⟩ := List.forall_mem_append.mp hkeys
    exact .cons (reordered_norm h.1 hitem) (reorderedItems_norm h.2 hrest)

theorem reorderedEntries_norm : ∀ {entries : List Send}, WellFormedEntries entries →
    (∀ sends ∈ compositionsInEntries entries, (sends.map Send.keyText).Nodup) →
      ReorderedEntries entries (normEntries entries)
  | [], _, _ => .nil
  | ⟨.literal (.str key), [value]⟩ :: rest, h, hkeys => by
    rw [compositionsInEntries_cons] at hkeys
    obtain ⟨hvalue, hrest⟩ := List.forall_mem_append.mp hkeys
    exact .cons (.literal _) (.cons (reordered_norm h.1 hvalue) .nil)
      (reorderedEntries_norm h.2 hrest)

end

theorem ReorderedEntries.length_eq : ∀ {entries entries' : List Send},
    ReorderedEntries entries entries' → entries'.length = entries.length
  | [], [], .nil => rfl
  | _ :: _, _ :: _, .cons _ _ hrest => congrArg Nat.succ hrest.length_eq

/-- Sends that are all there, in some order, in a normal form are left out by none of its steps,
so no key comes again, and before they were sorted each was in its place. -/
theorem eq_normEntries_of_perm {entries entries' : List Send} (h : WellFormedEntries entries)
    (hentries : ReorderedEntries entries entries')
    (hperm : entries'.Perm (sortOn Send.keyText (lastOfEach Send.keyText (normEntries entries)))) :
    (entries.map Send.keyText).Nodup ∧ entries' = normEntries entries := by
  have hkeys := map_keyText_normEntries entries
  have hperm' := hperm.trans (List.mergeSort_perm _ _)
  have hlength : (lastOfEach Send.keyText (normEntries entries)).length =
      (normEntries entries).length := by
    have hsame := congrArg List.length hkeys
    rw [List.length_map, List.length_map] at hsame
    rw [← hperm'.length_eq, hentries.length_eq, hsame]
  have hall := (lastOfEach_sublist (normEntries entries)).eq_of_length hlength
  have hnodup : ((normEntries entries).map Send.keyText).Nodup := by
    have hne : (lastOfEach Send.keyText (normEntries entries)).Pairwise
        fun a b => a.keyText ≠ b.keyText := pairwise_ne_lastOfEach _
    rw [hall] at hne
    exact List.pairwise_map.mpr hne
  rw [hall] at hperm'
  have hkeys' : entries'.map Send.keyText = (normEntries entries).map Send.keyText := by
    rw [hkeys, hentries.map_keyText h]
  exact ⟨hkeys ▸ hnodup, eq_of_perm_of_keys_eq hperm' hkeys' hnodup⟩

mutual

/-- Where the normal form has the sends in another order, no key comes again. -/
theorem nodup_of_reordered_norm : ∀ {t : Term}, t.WellFormed → t.Reordered t.norm →
    ∀ sends ∈ t.compositions, (sends.map Send.keyText).Nodup
  | .literal _, _, _ | .nil, _, _ => nofun
  | .list _, h, .list hitems => nodup_of_reorderedItems_norm h hitems
  | .sends entries, h, .sends hentries hperm => by
    obtain ⟨hnodup, rfl⟩ := eq_normEntries_of_perm h hentries hperm
    exact List.forall_mem_cons.mpr ⟨hnodup, nodup_of_reorderedEntries_norm h hentries⟩

theorem nodup_of_reorderedItems_norm : ∀ {items : List Term}, WellFormedItems items →
    ReorderedItems items (normItems items) →
      ∀ sends ∈ compositionsInItems items, (sends.map Send.keyText).Nodup
  | [], _, _ => nofun
  | _ :: _, h, .cons hitem hrest =>
    List.forall_mem_append.mpr ⟨nodup_of_reordered_norm h.1 hitem,
      nodup_of_reorderedItems_norm h.2 hrest⟩

theorem nodup_of_reorderedEntries_norm : ∀ {entries : List Send}, WellFormedEntries entries →
    ReorderedEntries entries (normEntries entries) →
      ∀ sends ∈ compositionsInEntries entries, (sends.map Send.keyText).Nodup
  | [], _, _ => nofun
  | ⟨.literal (.str key), [value]⟩ :: rest, h, .cons _ (.cons hvalue _) hrest => by
    rw [compositionsInEntries_cons]
    exact List.forall_mem_append.mpr ⟨nodup_of_reordered_norm h.1 hvalue,
      nodup_of_reorderedEntries_norm h.2 hrest⟩

end

/-- The normal form is the term in another order just when no key comes again. -/
theorem reordered_norm_iff {t : Term} (h : t.WellFormed) :
    t.Reordered t.norm ↔ ∀ sends ∈ t.compositions, (sends.map Send.keyText).Nodup :=
  ⟨nodup_of_reordered_norm h, reordered_norm h⟩

/-! ### Reading whole terms -/

theorem warnings_decode {t : Term} (h : t.WellFormed) :
    t.decode.warnings = t.replacements.map .duplicate := by
  have hall : (t.replacements.map Event.duplicate).filter (fun event => event.level = .warn) =
      t.replacements.map Event.duplicate := by
    refine List.filter_eq_self.mpr fun event hmem => ?_
    obtain ⟨path, -, rfl⟩ := List.mem_map.mp hmem
    rfl
  have hevents : t.decode.events = .decoding t.kind :: t.replacements.map .duplicate := by
    rw [decode, Report.events_bind_of_ok rfl, Report.events_log, events_toValueAt .root h]
    rfl
  rw [Report.warnings, hevents, List.filter_cons_of_neg (by simp [Event.level]), hall]

/-- **Every entry that is lost is warned of, and nothing else is.** The warnings of reading a term
all of whose sends are entries are those of its replacements, in their order; there are as many as
its compositions have sends more than keys. Reading is silent just when no composition has a key
twice, and just when the term of the value that is read is the term with its sends in another
order. -/
theorem decode_warns {t : Term} (h : AreEntries t.allSends) :
    t.decode.warnings = t.replacements.map .duplicate ∧
    t.decode.warnings.length = (t.compositions.map repeats).sum ∧
    (t.decode.warnings = [] ↔ ∀ sends ∈ t.compositions, (sends.map Send.keyText).Nodup) ∧
    ∃ value t', t.decode.result = .ok value ∧ value.encode.result = .ok t' ∧
      (t.decode.warnings = [] ↔ t.Reordered t') := by
  have hwf := t.wellFormed_iff_allSends.mpr h
  have hwarnings := warnings_decode hwf
  have hsilent : t.decode.warnings = [] ↔
      ∀ sends ∈ t.compositions, (sends.map Send.keyText).Nodup := by
    rw [hwarnings, List.map_eq_nil_iff, replacements_eq_nil_iff hwf]
  obtain ⟨value, hread, -, hterm⟩ := exists_decode_norm hwf
  refine ⟨hwarnings, ?_, hsilent, value, t.norm, hread, hterm ▸ rfl, ?_⟩
  · rw [hwarnings, List.length_map, replacements, length_replacementsAt .root hwf]
  · rw [hsilent, reordered_norm_iff hwf]

/-- A key that comes three times, and below the second of these a map that warns, though it is
replaced. -/
theorem decode_warns_nested :
    let inner := sends [.entry "k" .nil, .entry "k" .nil]
    let t := sends [.entry "a" .nil, .entry "a" (.list [inner]), .entry "b" .nil, .entry "a" .nil]
    let a : Path := .key .root "a"
    t.decode.warnings = [.duplicate (.key (.index a 0) "k"), .duplicate a, .duplicate a] ∧
      (t.compositions.map repeats) = [2, 1] := by
  intro inner t a
  have hentries : AreEntries t.allSends :=
    t.wellFormed_iff_allSends.mp
      ⟨trivial, ⟨⟨trivial, trivial, trivial⟩, trivial⟩, trivial, trivial, trivial⟩
  have hplaces : t.replacements = [.key (.index a 0) "k", a, a] := by decide +kernel
  obtain ⟨hwarnings, -⟩ := decode_warns hentries
  rw [hplaces] at hwarnings
  exact ⟨hwarnings, by decide +kernel⟩

end Term
end DataTerms
