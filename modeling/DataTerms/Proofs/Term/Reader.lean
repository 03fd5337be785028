/-
# Reading the text of a term

The text of a term can be read back. Its first characters tell what it is, a list and a payload
end with a bracket of their own, and no bar, blank or digit can follow the text of a term, so it
is known where a composition of sends or a number ends. What is read is the term without empty
sends, whose text is that of the empty process. So two terms have one text just when they are
the same without empty sends.

Key definitions: `Term.reader`, `Term.parse?`, `Term.Spells`.
Key theorems: `Term.spells_charsAt`, `Term.parse?_text`, `Term.text?_canon`,
`Term.text_eq_iff_canon_eq`.
-/
import DataTerms.Proofs.Json.Tokens
import DataTerms.Proofs.Term.Canon
import DataTerms.Proofs.Term.Stops

namespace DataTerms
namespace Term

open Outcomes Text

/-! ### The reader -/

section Parts

variable (term : Reader Term)

/-- The items that follow the first item of a list, to its closing bracket. -/
def readMoreItems : Nat → Reader (List Term)
  | _, ']' :: rest => some ([], rest)
  | steps + 1, ',' :: ' ' :: rest => do
    let (item, rest) ← term rest
    let (items, rest) ← readMoreItems steps rest
    return (item :: items, rest)
  | _, _ => none

/-- The items of a list after its opening bracket. -/
def readItems (steps : Nat) : Reader (List Term)
  | ']' :: rest => some ([], rest)
  | start => do
    let (item, rest) ← term start
    let (items, rest) ← readMoreItems term steps rest
    return (item :: items, rest)

/-- A send after the quote mark that opens its channel. -/
def readSend : Reader Send := fun start => do
  let (key, rest) ← Json.readString start
  match rest with
  | '!' :: '(' :: rest => do
    let (value, rest) ← term rest
    match rest with
    | ')' :: rest => return (.entry key value, rest)
    | _ => none
  | _ => none

/-- The sends that follow a send, as long as there is a bar. -/
def readMoreSends : Nat → Reader (List Send)
  | steps + 1, ' ' :: '|' :: ' ' :: '@' :: '"' :: rest => do
    let (entry, rest) ← readSend term rest
    let (entries, rest) ← readMoreSends steps rest
    return (entry :: entries, rest)
  | _, rest => some ([], rest)

/-- An integer. -/
def readInt : Reader Term := fun start => do
  match ← Json.readNumber start with
  | (.number (.int value), rest) => return (.literal (.int (Int64.ofInt value)), rest)
  | _ => none

/-- A term whose parts are read by `term`. -/
def readTerm (steps : Nat) : Reader Term
  | 'N' :: 'i' :: 'l' :: rest => some (.nil, rest)
  | 't' :: 'r' :: 'u' :: 'e' :: rest => some (.literal (.bool true), rest)
  | 'f' :: 'a' :: 'l' :: 's' :: 'e' :: rest => some (.literal (.bool false), rest)
  | '"' :: rest => do
    let (value, rest) ← Json.readString rest
    return (str value, rest)
  | '[' :: rest => do
    let (items, rest) ← readItems term steps rest
    return (.list items, rest)
  | '@' :: '"' :: rest => do
    let (entry, rest) ← readSend term rest
    let (entries, rest) ← readMoreSends term steps rest
    return (.sends (entry :: entries), rest)
  | start => readInt start

end Parts

/-- Reads the term that a text starts with. Each step takes at least one character, so one step
more than there are characters suffices. -/
def reader : Nat → Reader Term
  | 0 => fun _ => none
  | steps + 1 => readTerm (reader steps) steps

/-- The term that a text is. -/
def parse? (text : String) : Option Term := do
  let (term, rest) ← reader (text.length + 1) text.toList
  if rest = [] then return term else none

/-! ### Reading back -/

/-- What can follow the text of a term, within another term or at its end. -/
def Ends : List Char → Prop
  | [] => True
  | c :: _ => c = ',' ∨ c = ']' ∨ c = ')'

variable {path : Path} {steps : Nat} {cs rest : List Char}

theorem Ends.endsNumeral : ∀ {rest : List Char}, Ends rest → Json.EndsNumeral rest
  | [], _ => trivial
  | _ :: _, h => by
    rcases h with rfl | rfl | rfl <;> exact ⟨by decide, by decide, by decide, by decide⟩

/-- The characters of a text that are read as a term whatever follows. -/
def Spells (cs : List Char) (t : Term) : Prop :=
  ∀ (steps : Nat) (rest : List Char), cs.length < steps → Ends rest →
    reader steps (cs ++ rest) = some (t, rest)

/-- No term begins with a closing bracket. -/
theorem reader_bracket (steps : Nat) (rest : List Char) : reader steps (']' :: rest) = none := by
  cases steps <;> rfl

theorem spells_nil : Spells nilChars .nil := by
  intro steps rest hsteps hends
  obtain ⟨steps, rfl⟩ := Nat.exists_eq_add_of_lt hsteps
  rfl

theorem spells_int (value : Int64) :
    Spells (toString value.toInt).toList (.literal (.int value)) := by
  intro steps rest hsteps hends
  have hread := Json.readNumber_int value hends.endsNumeral
  obtain ⟨steps, rfl⟩ : ∃ n, steps = n + 1 := ⟨steps - 1, by omega⟩
  have hint : readInt ((toString value.toInt).toList ++ rest) =
      some (.literal (.int value), rest) := by
    rw [readInt, hread]
    show some (literal (.int (Int64.ofInt value.toInt)), rest) = _
    rw [Int64.ofInt_toInt]
  show readTerm (reader steps) steps _ = _
  unfold readTerm
  split
  -- a number begins like no other term
  iterate 6
    · next heq =>
      rw [heq] at hread
      cases hread
  exact hint

theorem spells_literal : ∀ value : Literal, Spells (literalChars value) (.literal value)
  | .bool true, steps + 1, rest, _, _ => rfl
  | .bool false, steps + 1, rest, _, _ => rfl
  | .int value, steps, rest, hsteps, hends => spells_int value steps rest hsteps hends
  | .str value, steps + 1, rest, _, _ => by
    have hread := Json.readString_quote value rest
    show readTerm (reader steps) steps (Json.quote value.toList ++ rest) = _
    simp [Json.quote, readTerm, hread, str]

/-- The characters of a send, with those that follow it. -/
theorem sendChars_append (key : String) (cs rest : List Char) :
    sendChars key cs ++ rest = '@' :: '"' ::
      (key.toList.flatMap Json.escape ++ '"' :: '!' :: '(' :: (cs ++ ')' :: rest)) := by
  simp [sendChars, Json.quote]

/-- A send is read back if its value is. -/
theorem readSend_eq {term : Reader Term} {key : String} {value : Term}
    (h : term (cs ++ ')' :: rest) = some (value, ')' :: rest)) :
    readSend term (key.toList.flatMap Json.escape ++ '"' :: '!' :: '(' :: (cs ++ ')' :: rest)) =
      some (.entry key value, rest) := by
  rw [readSend, Json.readString_quote]
  simp [h]

/-- Where the text of a term can end, no bar follows. -/
theorem readMoreSends_of_ends {term : Reader Term} (steps : Nat) (h : Ends rest) :
    readMoreSends term steps rest = some ([], rest) := by
  unfold readMoreSends
  split
  · rcases h with h | h | h <;> cases h
  · rfl

/-- The items of a list are read if the first is, and then those that follow it. -/
theorem readItems_eq {levels : Nat} {start next : List Char} {item : Term} {items : List Term}
    (hitem : reader levels start = some (item, next))
    (hitems : readMoreItems (reader levels) steps next = some (items, rest)) :
    readItems (reader levels) steps start = some (item :: items, rest) := by
  unfold readItems
  split
  · next heq =>
    rw [reader_bracket] at hitem
    cases hitem
  · simp [hitem, hitems]

theorem length_lt_length_sendChars (key : String) (cs : List Char) :
    cs.length < (sendChars key cs).length := by
  simp only [sendChars, List.length_append, List.length_cons]
  omega

/-- What follows an item of a list is a comma or the closing bracket. -/
theorem ends_itemsChars {i : Nat} (rest : List Char) : ∀ {items : List Term} {cs : List Char},
    itemsChars path (i + 1) items = .ok cs → Ends (cs ++ ']' :: rest)
  | [], _, h => by
    obtain rfl := Except.ok.inj h
    exact Or.inr (Or.inl rfl)
  | item :: items, _, h => by
    simp only [itemsChars, bind_eq_ok, pure_eq, Except.ok.injEq] at h
    obtain ⟨first, -, others, -, rfl⟩ := h
    exact Or.inl rfl

mutual

/-- The characters of a well-formed term are read as the term without empty sends. -/
theorem spells_charsAt (path : Path) : ∀ {t : Term} {cs : List Char}, t.WellFormed →
    t.charsAt path = .ok cs → Spells cs t.canon
  | .literal value, _, _, h => by
    obtain rfl := Except.ok.inj h
    exact spells_literal value
  | .nil, _, _, h | .sends [], _, _, h => by
    obtain rfl := Except.ok.inj h
    exact spells_nil
  | .list [], _, _, h => by
    obtain rfl := Except.ok.inj h
    intro steps rest hsteps hends
    obtain ⟨steps, rfl⟩ := Nat.exists_eq_add_of_lt hsteps
    rfl
  -- a bracket or a send takes a step, and its parts have fewer characters than are left
  | .list (item :: items), _, hwf, h => by
    simp only [charsAt, itemsChars, bind_eq_ok, pure_eq, Except.ok.injEq] at h
    obtain ⟨_, ⟨first, hfirst, others, hothers, rfl⟩, rfl⟩ := h
    intro steps rest hsteps hends
    simp only [if_true, List.nil_append, List.length_append, List.length_cons] at hsteps
    obtain ⟨steps, rfl⟩ : ∃ n, steps = n + 1 := ⟨steps - 1, by omega⟩
    have hitem := spells_charsAt _ hwf.1 hfirst steps (others ++ ']' :: rest) (by omega)
      (ends_itemsChars rest hothers)
    have hitems := readMoreItems_itemsChars path 0 hwf.2 hothers steps steps rest (by omega) (by omega)
    show readTerm (reader steps) steps _ = _
    simp [readTerm, readItems_eq hitem hitems, canon, canonItems]
  | .sends (⟨.literal (.str key), [value]⟩ :: entries), _, hwf, h => by
    simp only [charsAt, entriesChars, keyOfChannel, payloadChars, bind_eq_ok, pure_eq,
      Except.ok.injEq] at h
    obtain ⟨_, rfl, first, hfirst, others, hothers, rfl⟩ := h
    intro steps rest hsteps hends
    have hlt := length_lt_length_sendChars key first
    simp only [if_true, List.nil_append, List.length_append] at hsteps
    obtain ⟨steps, rfl⟩ : ∃ n, steps = n + 1 := ⟨steps - 1, by omega⟩
    -- the payload ends at its own bracket, so the sends after it are this term's
    have hvalue := spells_charsAt _ hwf.1 hfirst steps (')' :: (others ++ rest)) (by omega)
      (Or.inr (Or.inr rfl))
    have hentries := readMoreSends_entriesChars path 0 hwf.2 hothers steps steps rest
      (by omega) (by omega) hends
    show readTerm (reader steps) steps (sendChars key first ++ others ++ rest) = _
    rw [List.append_assoc, sendChars_append, readTerm, readSend_eq hvalue]
    simp [hentries, canon, canonItems, Send.entry, str]

/-- The characters of the items after the first are read back, to the closing bracket. -/
theorem readMoreItems_itemsChars (path : Path) (i : Nat) : ∀ {items : List Term} {cs : List Char},
    WellFormedItems items → itemsChars path (i + 1) items = .ok cs →
    ∀ (levels steps : Nat) (rest : List Char), cs.length < levels → cs.length < steps →
      readMoreItems (reader levels) steps (cs ++ ']' :: rest) = some (canonItems items, rest)
  | [], _, _, h, levels, steps + 1, rest, _, _ => by
    obtain rfl := Except.ok.inj h
    rfl
  | item :: items, _, hwf, h, levels, steps + 1, rest, hlevels, hsteps => by
    simp only [itemsChars, bind_eq_ok, pure_eq, Except.ok.injEq] at h
    obtain ⟨first, hfirst, others, hothers, rfl⟩ := h
    simp only [if_neg (Nat.succ_ne_zero i), List.length_append, List.length_cons] at hlevels hsteps
    have hitem := spells_charsAt _ hwf.1 hfirst levels (others ++ ']' :: rest) (by omega)
      (ends_itemsChars rest hothers)
    have hitems := readMoreItems_itemsChars path (i + 1) hwf.2 hothers levels steps rest
      (by omega) (by omega)
    simp [readMoreItems, hitem, hitems, canonItems]

/-- The characters of the sends after the first are read back. -/
theorem readMoreSends_entriesChars (path : Path) (i : Nat) :
    ∀ {entries : List Send} {cs : List Char}, WellFormedEntries entries →
    entriesChars path (i + 1) entries = .ok cs →
    ∀ (levels steps : Nat) (rest : List Char), cs.length < levels → cs.length < steps → Ends rest →
      readMoreSends (reader levels) steps (cs ++ rest) = some (canonEntries entries, rest)
  | [], _, _, h, levels, steps, rest, _, _, hends => by
    obtain rfl := Except.ok.inj h
    exact readMoreSends_of_ends steps hends
  | ⟨.literal (.str key), [value]⟩ :: entries, _, hwf, h, levels, steps + 1, rest, hlevels, hsteps,
      hends => by
    simp only [entriesChars, keyOfChannel, payloadChars, bind_eq_ok, pure_eq, Except.ok.injEq] at h
    obtain ⟨_, rfl, first, hfirst, others, hothers, rfl⟩ := h
    have hlt := length_lt_length_sendChars key first
    simp only [if_neg (Nat.succ_ne_zero i), List.length_append, List.length_cons] at hlevels hsteps
    have hvalue := spells_charsAt _ hwf.1 hfirst levels (')' :: (others ++ rest)) (by omega)
      (Or.inr (Or.inr rfl))
    have hentries := readMoreSends_entriesChars path (i + 1) hwf.2 hothers levels steps rest
      (by omega) (by omega) hends
    rw [if_neg (Nat.succ_ne_zero i), List.append_assoc, List.append_assoc, sendChars_append]
    show readMoreSends (reader levels) (steps + 1) (' ' :: '|' :: ' ' :: '@' :: '"' :: _) = _
    rw [readMoreSends, readSend_eq hvalue]
    simp [hentries, canon, canonItems, canonEntries, Send.entry, str]

end

/-- The text of a well-formed term is read as the term without empty sends. -/
theorem parse?_text {t : Term} {text : String} (h : t.text? = .ok text) :
    parse? text = some t.canon := by
  have hwf := wellFormed_of_text? h
  simp only [text?, bind_eq_ok, pure_eq, Except.ok.injEq] at h
  obtain ⟨cs, hcs, rfl⟩ := h
  have hread := spells_charsAt .root hwf hcs (cs.length + 1) [] (Nat.lt_succ_self _) trivial
  rw [List.append_nil] at hread
  simp [parse?, hread]

/-! ### Empty sends -/

mutual

/-- The empty process and empty sends have the same characters. -/
theorem charsAt_canon (path : Path) : ∀ {t : Term}, t.WellFormed →
    t.canon.charsAt path = t.charsAt path
  | .literal _, _ | .nil, _ | .sends [], _ => rfl
  | .list items, h => by rw [canon, charsAt, charsAt, itemsChars_canonItems path 0 h]
  | .sends (⟨channel, payload⟩ :: rest), h => by
    rw [canon_sends_cons, charsAt, ← entriesChars_canonEntries path 0 h]
    rfl

theorem itemsChars_canonItems (path : Path) (i : Nat) : ∀ {items : List Term},
    WellFormedItems items → itemsChars path i (canonItems items) = itemsChars path i items
  | [], _ => rfl
  | item :: rest, h => by
    rw [canonItems, itemsChars, itemsChars, charsAt_canon (path.index i) h.1,
      itemsChars_canonItems path (i + 1) h.2]

theorem entriesChars_canonEntries (path : Path) (i : Nat) : ∀ {entries : List Send},
    WellFormedEntries entries → entriesChars path i (canonEntries entries) = entriesChars path i entries
  | [], _ => rfl
  | ⟨.literal (.str key), [value]⟩ :: rest, h => by
    have hvalue := charsAt_canon (path.key key) h.1
    have hrest := entriesChars_canonEntries path (i + 1) h.2
    simp only [canonEntries, canon, canonItems, entriesChars, keyOfChannel, payloadChars, ok_bind,
      hvalue, hrest]

end

theorem text?_canon {t : Term} (h : t.WellFormed) : t.canon.text? = t.text? := by
  rw [text?, charsAt_canon .root h, text?]

/-- Terms that have a text have the same one just when they are the same without empty sends. -/
theorem text_eq_iff_canon_eq {a b : Term} {text text' : String} (ha : a.text? = .ok text)
    (hb : b.text? = .ok text') : text = text' ↔ a.canon = b.canon := by
  constructor
  · rintro rfl
    exact Option.some.inj ((parse?_text ha).symm.trans (parse?_text hb))
  · intro h
    have ha' := text?_canon (wellFormed_of_text? ha)
    have hb' := text?_canon (wellFormed_of_text? hb)
    rw [h, hb', ha, hb] at ha'
    exact (Except.ok.inj ha').symm

end Term
end DataTerms
