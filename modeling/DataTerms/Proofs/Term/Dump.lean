/-
# Terms and the JSON that shows them

The JSON of a term shows its shape, and is read as this term. It is read so too where the members
of its objects stand in another order, where others stand among them with names that their objects
do not use, and where the empty process has no value as its content. So terms are told apart by
their JSON, and by its text.

Every object is read by the names it uses, and what stands under such a name does not depend on
the other members (`Json.Holds.find?_eq`); so only the names of an object matter, at each level.

Key definitions: `Json.Holds`, `Json.Shows`, `Term.ShownBy`, `Term.dump`.
Key theorems: `Json.Holds.find?_eq`, `Term.shownBy_toJson`, `Term.ofJsonTree?_of_shownBy`,
`Term.toJson_faithful`.
-/
import DataTerms.Proofs.Json.ReadBack
import DataTerms.Proofs.Keyed.Sorting
import DataTerms.Term.Json
import Mathlib.Data.List.Nodup

namespace DataTerms
namespace Json

/-- The members are the given ones and others with names that are not used, in any order. -/
def Holds (used : List String) (given members : List (String × Json)) : Prop :=
  ∃ others, members.Perm (given ++ others) ∧ ∀ member ∈ others, member.1 ∉ used

theorem holds_self (used : List String) (given : List (String × Json)) : Holds used given given :=
  ⟨[], by rw [List.append_nil], nofun⟩

/-- Under a name that is used stands what is given, if no name is given twice. -/
theorem Holds.find?_eq {used : List String} {given members : List (String × Json)}
    (h : Holds used given members) (hnodup : (given.map Prod.fst).Nodup) {name : String}
    (hname : name ∈ used) : Keyed.find? name members = Keyed.find? name given := by
  obtain ⟨others, hperm, hothers⟩ := h
  have hnone : Keyed.find? name others = none :=
    Keyed.find?_eq_none_of_ne fun member hmem heq => hothers member hmem (heq ▸ hname)
  have hgiven : ∀ member ∈ members, member.1 = name → member ∈ given := by
    intro member hmem heq
    rcases List.mem_append.mp (hperm.mem_iff.mp hmem) with hgiven | hother
    · exact hgiven
    · exact absurd (heq ▸ hname) (hothers member hother)
  have hone : ∀ a ∈ members, ∀ b ∈ members, a.1 = name → b.1 = name → a = b := by
    intro a ha b hb haname hbname
    exact List.inj_on_of_nodup_map hnodup (hgiven a ha haname) (hgiven b hb hbname)
      (haname.trans hbname.symm)
  rw [Keyed.find?_eq_of_perm hperm hone, Keyed.find?_append, hnone, Option.or_none]

/-- JSON is an object that names a kind and holds a content, if there is one. -/
def Shows (kind : String) (content : Option Json) : Json → Prop
  | .object members => Holds ["kind", "value"]
      (("kind", .string kind) :: (content.map (Prod.mk "value")).toList) members
  | _ => False

theorem exists_members_of_shows {kind : String} {content : Option Json} : ∀ {json : Json},
    json.Shows kind content → ∃ members, json = .object members
  | .object members, _ => ⟨members, rfl⟩

theorem shows_tagged (kind : String) (content : Json) :
    (Term.tagged kind content).Shows kind (some content) :=
  holds_self _ _

/-- The kind and the content are found where they are shown. -/
theorem find?_of_shows {kind : String} {content : Option Json} {members : List (String × Json)}
    (h : Shows kind content (.object members)) :
    Keyed.find? "kind" members = some (.string kind) ∧ Keyed.find? "value" members = content := by
  have hnodup : ((("kind", Json.string kind) ::
      (content.map (Prod.mk "value")).toList).map Prod.fst).Nodup := by
    cases content with
    | none => exact (by decide : ["kind"].Nodup)
    | some value => exact (by decide : ["kind", "value"].Nodup)
  rw [h.find?_eq hnodup (by decide), h.find?_eq hnodup (by decide)]
  cases content <;> exact ⟨rfl, rfl⟩

end Json

namespace Term

open Json (Shows Holds)

/-! ### JSON that shows a term -/

/-- JSON shows a literal: its kind and its value. -/
def literalShownBy : Literal → Json → Prop
  | .bool value => Shows "Bool" (some (.bool value))
  | .int value => Shows "Int" (some (.int value.toInt))
  | .str value => Shows "Str" (some (.string value))

mutual

/-- JSON shows a term: its kind and, but for the empty process, what shows what is in it. -/
def ShownBy : Term → Json → Prop
  | .literal value, json => ∃ content, json.Shows "Literal" (some content) ∧
      literalShownBy value content
  | .list items, json => ∃ jsons, json.Shows "ListLiteral" (some (.array jsons)) ∧
      ItemsShownBy items jsons
  | .sends entries, json => ∃ jsons, json.Shows "ParallelSends" (some (.array jsons)) ∧
      EntriesShownBy entries jsons
  | .nil, json => json.Shows "Nil" none ∨ json.Shows "Nil" (some .null)

/-- JSON values show terms, one by one. -/
def ItemsShownBy : List Term → List Json → Prop
  | [], [] => True
  | item :: rest, json :: jsons => item.ShownBy json ∧ ItemsShownBy rest jsons
  | _, _ => False

/-- JSON values show sends, one by one: their channels and their payloads. -/
def EntriesShownBy : List Send → List Json → Prop
  | [], [] => True
  | ⟨channel, payload⟩ :: rest, .object members :: jsons =>
    (∃ json items, Holds ["channel", "payload"] [("channel", json), ("payload", .array items)]
        members ∧ channel.ShownBy json ∧ ItemsShownBy payload items) ∧
      EntriesShownBy rest jsons
  | _, _ => False

end

theorem literalShownBy_literalToJson : ∀ value : Literal,
    literalShownBy value (literalToJson value)
  | .bool _ | .int _ | .str _ => Json.shows_tagged _ _

mutual

/-- The JSON of a term shows it. -/
theorem shownBy_toJson : ∀ t : Term, t.ShownBy t.toJson
  | .literal value => ⟨_, Json.shows_tagged _ _, literalShownBy_literalToJson value⟩
  | .list items => ⟨_, Json.shows_tagged _ _, itemsShownBy_itemsToJson items⟩
  | .sends entries => ⟨_, Json.shows_tagged _ _, entriesShownBy_entriesToJson entries⟩
  | .nil => .inl (Json.holds_self _ _)

theorem itemsShownBy_itemsToJson : ∀ items : List Term, ItemsShownBy items (itemsToJson items)
  | [] => trivial
  | item :: rest => ⟨shownBy_toJson item, itemsShownBy_itemsToJson rest⟩

theorem entriesShownBy_entriesToJson : ∀ entries : List Send,
    EntriesShownBy entries (entriesToJson entries)
  | [] => trivial
  | ⟨channel, payload⟩ :: rest =>
    ⟨⟨_, _, Json.holds_self _ _, shownBy_toJson channel, itemsShownBy_itemsToJson payload⟩,
      entriesShownBy_entriesToJson rest⟩

end

/-! ### Reading -/

/-- The term of a kind with a content, if there is one. -/
def ofContent? (kind : String) : Option Json → Option Term
  | some content => ofParts? kind content
  | none => if kind = "Nil" then some .nil else none

/-- The content of a kind is what stands under its name. -/
theorem ofMembers?_eq (kind : String) (members : List (String × Json)) :
    ofMembers? kind members = ofContent? kind (Keyed.find? "value" members) := by
  induction members with
  | nil => rw [ofMembers?, Keyed.find?, ofContent?]
  | cons member rest ih =>
    obtain ⟨name, content⟩ := member
    rw [ofMembers?, Keyed.find?, ih]
    by_cases h : name = "value"
    · rw [if_pos h, if_pos h.symm, ofContent?]
    · rw [if_neg h, if_neg (Ne.symm h)]

theorem termIn?_eq (name : String) (members : List (String × Json)) :
    termIn? name members = (Keyed.find? name members).bind ofJsonTree? := by
  induction members with
  | nil => rw [termIn?]; rfl
  | cons member rest ih =>
    obtain ⟨name', content⟩ := member
    rw [termIn?, Keyed.find?, ih]
    split <;> rfl

theorem itemsIn?_eq (name : String) (members : List (String × Json)) :
    itemsIn? name members = (Keyed.find? name members).bind itemsOfJson? := by
  induction members with
  | nil => rw [itemsIn?]; rfl
  | cons member rest ih =>
    obtain ⟨name', content⟩ := member
    rw [itemsIn?, Keyed.find?, ih]
    split <;> rfl

/-- JSON that shows a kind and a content is read by them. -/
theorem ofJsonTree?_of_shows {kind : String} {content : Option Json} : ∀ {json : Json},
    json.Shows kind content → ofJsonTree? json = ofContent? kind content
  | .object members, h => by
    obtain ⟨hkind, hvalue⟩ := Json.find?_of_shows h
    rw [ofJsonTree?, kindIn?, hkind]
    show ofMembers? kind members = _
    rw [ofMembers?_eq, hvalue]

theorem literalOfJson?_of_shows {kind : String} {content : Json} : ∀ {json : Json},
    json.Shows kind (some content) → literalOfJson? json = literalOfParts? kind content
  | .object members, h => by
    obtain ⟨hkind, hvalue⟩ := Json.find?_of_shows h
    rw [literalOfJson?, kindIn?, hkind, hvalue]
    rfl

/-- What shows a literal is an object. -/
theorem exists_members_of_literalShownBy : ∀ {value : Literal} {json : Json},
    literalShownBy value json → ∃ members, json = .object members
  | .bool _, _, h | .int _, _, h | .str _, _, h => Json.exists_members_of_shows h

/-- A literal is read from JSON that shows it; an integer has 64 bits, so it is not refused. -/
theorem literalOfJson?_of_shownBy : ∀ {value : Literal} {json : Json},
    literalShownBy value json → literalOfJson? json = some value
  | .bool _, _, h | .str _, _, h => literalOfJson?_of_shows h
  | .int value, _, h => by
    have hrange : Int64.minValue.toInt ≤ value.toInt ∧ value.toInt ≤ Int64.maxValue.toInt :=
      ⟨value.le_toInt, Int.lt_add_one_iff.mp value.toInt_lt⟩
    rw [literalOfJson?_of_shows h, Json.int, literalOfParts?, if_pos hrange, Int64.ofInt_toInt]

mutual

/-- JSON that shows a term is read as the term. -/
theorem ofJsonTree?_of_shownBy : ∀ {t : Term} {json : Json}, t.ShownBy json →
    ofJsonTree? json = some t
  | .literal value, json, ⟨content, hshows, hvalue⟩ => by
    obtain ⟨members, rfl⟩ := exists_members_of_literalShownBy hvalue
    rw [ofJsonTree?_of_shows hshows]
    show ofParts? "Literal" (.object members) = _
    rw [ofParts?, if_pos rfl, literalOfJson?_of_shownBy hvalue]
    · rfl
    · nofun
    · nofun
  | .list items, json, ⟨jsons, hshows, hitems⟩ => by
    rw [ofJsonTree?_of_shows hshows]
    show ofParts? "ListLiteral" (.array jsons) = _
    rw [ofParts?, if_pos rfl, itemsOfJsons?_of_shownBy hitems]
    rfl
  | .sends entries, json, ⟨jsons, hshows, hentries⟩ => by
    rw [ofJsonTree?_of_shows hshows]
    show ofParts? "ParallelSends" (.array jsons) = _
    rw [ofParts?, if_neg (by decide), if_pos rfl, entriesOfJsons?_of_shownBy hentries]
    rfl
  | .nil, _, .inl h => ofJsonTree?_of_shows h
  | .nil, _, .inr h => by
    rw [ofJsonTree?_of_shows h]
    show ofParts? "Nil" .null = _
    rw [ofParts?, if_pos rfl]

theorem itemsOfJsons?_of_shownBy : ∀ {items : List Term} {jsons : List Json},
    ItemsShownBy items jsons → itemsOfJsons? jsons = some items
  | [], [], _ => by rw [itemsOfJsons?]
  | item :: rest, json :: jsons, ⟨hitem, hrest⟩ => by
    rw [itemsOfJsons?, ofJsonTree?_of_shownBy hitem, itemsOfJsons?_of_shownBy hrest]
    rfl

theorem entriesOfJsons?_of_shownBy : ∀ {entries : List Send} {jsons : List Json},
    EntriesShownBy entries jsons → entriesOfJsons? jsons = some entries
  | [], [], _ => by rw [entriesOfJsons?]
  | ⟨channel, payload⟩ :: rest, .object members :: jsons,
      ⟨⟨json, items, hholds, hchannel, hpayload⟩, hrest⟩ => by
    have hnodup : ([("channel", json), ("payload", .array items)].map Prod.fst).Nodup :=
      (by decide : ["channel", "payload"].Nodup)
    have hentry : entryOfJson? (.object members) = some ⟨channel, payload⟩ := by
      rw [entryOfJson?, termIn?_eq, itemsIn?_eq, hholds.find?_eq hnodup (by decide),
        hholds.find?_eq hnodup (by decide)]
      show (do return (⟨← ofJsonTree? json, ← itemsOfJson? (.array items)⟩ : Send)) = _
      rw [ofJsonTree?_of_shownBy hchannel, itemsOfJson?, itemsOfJsons?_of_shownBy hpayload]
      rfl
    rw [entriesOfJsons?, hentry, entriesOfJsons?_of_shownBy hrest]
    rfl

end

/-! ### The text -/

/-- The value of the JSON that names a kind and holds a content. -/
def dumpTagged (kind : String) (content : Value) : Value :=
  .map [("kind", .str kind), ("value", content)]

/-- The value of a literal's JSON. -/
def dumpLiteral : Literal → Value
  | .bool value => dumpTagged "Bool" (.bool value)
  | .int value => dumpTagged "Int" (.int value)
  | .str value => dumpTagged "Str" (.str value)

mutual

/-- The value of a term's JSON. -/
def dump : Term → Value
  | .literal value => dumpTagged "Literal" (dumpLiteral value)
  | .list items => dumpTagged "ListLiteral" (.list (dumpItems items))
  | .sends entries => dumpTagged "ParallelSends" (.list (dumpEntries entries))
  | .nil => .map [("kind", .str "Nil")]

/-- The values of terms' JSON. -/
def dumpItems : List Term → List Value
  | [] => []
  | item :: rest => item.dump :: dumpItems rest

/-- The values of sends' JSON. -/
def dumpEntries : List Send → List Value
  | [] => []
  | ⟨channel, payload⟩ :: rest =>
    .map [("channel", channel.dump), ("payload", .list (dumpItems payload))] :: dumpEntries rest

end

theorem ordered_dumpTagged (kind : String) {content : Value} (h : content.Ordered) :
    (dumpTagged kind content).Ordered := by
  have hnames : Keyed.Ascending [("kind", Value.str kind), ("value", content)] :=
    List.pairwise_map.mp (by decide : ["kind", "value"].Pairwise (· < ·))
  exact ⟨hnames, trivial, h, trivial⟩

theorem depth_dumpTagged (kind : String) (content : Value) :
    (dumpTagged kind content).toTerm.depth = content.toTerm.depth + 1 := by
  have hpos := content.toTerm.depth_pos
  rw [dumpTagged, Value.toTerm, depth, Json.depthEntries_cons, Json.depthEntries_cons,
    Value.toTerm, depth, Value.entriesToTerm, depthEntries]
  omega

theorem toJson_dumpLiteral : ∀ value : Literal, (dumpLiteral value).toJson = literalToJson value
  | .bool _ | .int _ | .str _ => rfl

theorem ordered_dumpLiteral : ∀ value : Literal, (dumpLiteral value).Ordered
  | .bool _ | .int _ | .str _ => ordered_dumpTagged _ trivial

theorem depth_dumpLiteral : ∀ value : Literal, (dumpLiteral value).toTerm.depth = 2
  | .bool _ | .int _ | .str _ => depth_dumpTagged _ _

mutual

theorem toJson_dump : ∀ t : Term, t.dump.toJson = t.toJson
  | .literal value => congrArg (tagged "Literal") (toJson_dumpLiteral value)
  | .list items =>
    congrArg (fun jsons => tagged "ListLiteral" (.array jsons)) (itemsToJson_dumpItems items)
  | .sends entries =>
    congrArg (fun jsons => tagged "ParallelSends" (.array jsons)) (itemsToJson_dumpEntries entries)
  | .nil => rfl

theorem itemsToJson_dumpItems : ∀ items : List Term,
    Value.itemsToJson (dumpItems items) = itemsToJson items
  | [] => rfl
  | item :: rest => by
    rw [dumpItems, Value.itemsToJson, itemsToJson, toJson_dump item, itemsToJson_dumpItems rest]

theorem itemsToJson_dumpEntries : ∀ entries : List Send,
    Value.itemsToJson (dumpEntries entries) = entriesToJson entries
  | [] => rfl
  | ⟨channel, payload⟩ :: rest => by
    simp only [dumpEntries, Value.itemsToJson, Value.toJson, Value.entriesToJson, entriesToJson,
      toJson_dump channel, itemsToJson_dumpItems payload, itemsToJson_dumpEntries rest]

end

mutual

/-- The names in the JSON of a term are in order. -/
theorem ordered_dump : ∀ t : Term, t.dump.Ordered
  | .literal value => ordered_dumpTagged _ (ordered_dumpLiteral value)
  | .list items => ordered_dumpTagged _ (orderedItems_dumpItems items)
  | .sends entries => ordered_dumpTagged _ (orderedItems_dumpEntries entries)
  | .nil => ⟨List.pairwise_singleton _ _, trivial, trivial⟩

theorem orderedItems_dumpItems : ∀ items : List Term, Value.OrderedItems (dumpItems items)
  | [] => trivial
  | item :: rest => ⟨ordered_dump item, orderedItems_dumpItems rest⟩

theorem orderedItems_dumpEntries : ∀ entries : List Send,
    Value.OrderedItems (dumpEntries entries)
  | [] => trivial
  | ⟨channel, payload⟩ :: rest => by
    have hnames : Keyed.Ascending
        [("channel", channel.dump), ("payload", Value.list (dumpItems payload))] :=
      List.pairwise_map.mp (by decide : ["channel", "payload"].Pairwise (· < ·))
    have hitems := orderedItems_dumpItems payload
    exact ⟨⟨hnames, ordered_dump channel, hitems, trivial⟩, orderedItems_dumpEntries rest⟩

end

mutual

/-- The JSON of a term takes up to four containers for a level: two for a term with parts, and two
more for a send and its payload. -/
theorem depth_dump_le : ∀ t : Term, t.dump.toTerm.depth ≤ 4 * t.depth
  | .literal value => by
    rw [dump, depth_dumpTagged, depth_dumpLiteral, depth]
    omega
  | .list items => by
    have hitems := depth_dumpItems_le items
    rw [dump, depth_dumpTagged, Value.toTerm, depth, depth]
    omega
  | .sends entries => by
    have hentries := depth_dumpEntries_le entries
    rw [dump, depth_dumpTagged, Value.toTerm, depth, depth]
    omega
  | .nil => by decide

theorem depth_dumpItems_le : ∀ items : List Term,
    depthItems (Value.itemsToTerm (dumpItems items)) ≤ 4 * depthItems items
  | [] => Nat.le_refl 0
  | item :: rest => by
    have hitem := depth_dump_le item
    have hrest := depth_dumpItems_le rest
    rw [dumpItems, Value.itemsToTerm, depthItems, depthItems]
    omega

theorem depth_dumpEntries_le : ∀ entries : List Send,
    depthItems (Value.itemsToTerm (dumpEntries entries)) ≤ 4 * depthEntries entries + 2
  | [] => Nat.zero_le _
  | ⟨channel, payload⟩ :: rest => by
    have hchannel := depth_dump_le channel
    have hpayload := depth_dumpItems_le payload
    have hrest := depth_dumpEntries_le rest
    rw [dumpEntries, Value.itemsToTerm, depthItems, Value.toTerm, depth, Json.depthEntries_cons,
      Json.depthEntries_cons, Value.toTerm, depth, Value.entriesToTerm, depthEntries, depthEntries]
    omega

end

/-- The text of a term's JSON is read as the JSON. -/
theorem parse?_render_toJson (settings : Settings) (t : Term) {nesting : Nat}
    (h : 4 * t.depth ≤ nesting) :
    Json.parse? nesting (settings.render t.toJson) = some t.toJson := by
  have hdepth := Nat.le_trans t.depth_dump_le h
  have hblanks : Json.AreBlanks [] := nofun
  have hread := Json.parse?_render settings t.ordered_dump hdepth hblanks
  rwa [toJson_dump, String.ofList_nil, String.append_empty] at hread

/-- **The JSON of a term is faithful.** The JSON of a term shows it, and whatever shows a term is
read as the term: its JSON with the members of objects in another order, with others that have
names their objects do not use, and with no value as the content of the empty process. Its text is
read as the term too, if as many containers are let be within each other as it takes. So terms that
differ have different JSON, and different texts of it in whatever layout. -/
theorem toJson_faithful :
    (∀ t : Term, t.ShownBy t.toJson) ∧
    (∀ (t : Term) (json : Json), t.ShownBy json → ofJsonTree? json = some t) ∧
    (∀ (settings : Settings) (t : Term) (nesting : Nat), 4 * t.depth ≤ nesting →
      (Json.parse? nesting (settings.render t.toJson)).bind ofJsonTree? = some t) ∧
    (∀ t t' : Term, t.toJson = t'.toJson → t = t') ∧
    ∀ (settings settings' : Settings) (t t' : Term),
      settings.render t.toJson = settings'.render t'.toJson → t = t' := by
  have hread (t : Term) : ofJsonTree? t.toJson = some t := ofJsonTree?_of_shownBy t.shownBy_toJson
  have hinj (t t' : Term) (h : t.toJson = t'.toJson) : t = t' := by
    have hsome := hread t
    rw [h, hread t'] at hsome
    exact (Option.some.inj hsome).symm
  refine ⟨shownBy_toJson, fun t json => ofJsonTree?_of_shownBy, ?_, hinj, ?_⟩
  · intro settings t nesting h
    rw [parse?_render_toJson settings t h, Option.bind_some, hread t]
  · intro settings settings' t t' h
    have hleft := parse?_render_toJson settings t (Nat.le_max_left _ (4 * t'.depth))
    have hright := parse?_render_toJson settings' t' (Nat.le_max_right (4 * t.depth) _)
    rw [h, hright] at hleft
    exact hinj t t' (Option.some.inj hleft).symm

/-- A send of the least integer and an empty list on nothing, with the kinds behind what they hold,
with names that are not used, and with no value as the content of its channel. -/
theorem toJson_faithful_reordered :
    let t : Term := .sends [⟨.nil, [.literal (.int Int64.minValue), .list []]⟩]
    let least : Json := .object [("value", .int (-9223372036854775808)), ("kind", .string "Int")]
    let payload : Json := .array [tagged "Literal" least, tagged "ListLiteral" (.array [])]
    let channel : Json := .object [("value", .null), ("kind", .string "Nil"), ("kinds", .null)]
    let send : Json := .object [("kind", .bool true), ("channel", channel), ("payload", payload)]
    let json : Json := .object [("value", .array [send]), ("kind", .string "ParallelSends")]
    t.ShownBy json ∧ ofJsonTree? json = some t ∧
      4 * t.depth ≤ 8 ∧ ∀ settings : Settings,
        (Json.parse? 8 (settings.render t.toJson)).bind ofJsonTree? = some t := by
  intro t least payload channel send json
  obtain ⟨-, hread, htext, -⟩ := toJson_faithful
  have hleast : (Term.literal (.int Int64.minValue)).ShownBy (tagged "Literal" least) :=
    ⟨least, Json.shows_tagged _ _, [], .swap _ _ _, nofun⟩
  have hchannel : Term.nil.ShownBy channel := by
    refine .inr ⟨[("kinds", .null)], .swap _ _ _, ?_⟩
    exact List.forall_mem_singleton.mpr (by decide : "kinds" ∉ ["kind", "value"])
  have hsend : Holds ["channel", "payload"] [("channel", channel), ("payload", payload)]
      [("kind", .bool true), ("channel", channel), ("payload", payload)] := by
    refine ⟨[("kind", .bool true)], (List.perm_append_singleton _ _).symm, ?_⟩
    exact List.forall_mem_singleton.mpr (by decide : "kind" ∉ ["channel", "payload"])
  have hshown : t.ShownBy json :=
    ⟨[send], ⟨[], .swap _ _ _, nofun⟩, ⟨channel, _, hsend, hchannel, hleast,
      shownBy_toJson (.list []), trivial⟩, trivial⟩
  have hdepth : 4 * t.depth ≤ 8 := by decide
  exact ⟨hshown, hread t json hshown, hdepth, fun settings => htext settings t 8 hdepth⟩

end Term
end DataTerms
