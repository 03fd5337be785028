/-
# The bytes of two terms, one after the other

A message's fields come in any number, and what follows a message is more fields of it. So the
bytes of two terms, one after the other, are the bytes of one message, with the sends and the
expressions of both. With two maps that is the map with the entries of both, in parallel as
before; where one of the terms has no bytes it is the other; and all else is a message that is no
term, since it has two expressions, or an expression beside sends.

Key theorems: `Wire.Par.isRow_sends_exprs`, `Term.ofPar?_of_blended`, `Codec.decode_append`,
`Codec.ofBytes_append`.
-/
import DataTerms.Proofs.Codec.Truncation

namespace DataTerms

open Outcomes

namespace Wire

/-- Sends and expressions after a message are added to those it has. -/
theorem Par.isRow_sends_exprs (budget : Nat) (sends : List Send) (exprs : List Expr) (par : Par) :
    IsRow (merges budget).par (SendsFit budget sends ∧ ExprsFit budget exprs)
      (encodeSends sends ++ encodeExprs exprs) par
      { par with sends := par.sends ++ sends, exprs := par.exprs ++ exprs } := by
  obtain ⟨sends₀, receives, news, exprs₀, matchers, unforgeables, connectives, locallyFree,
    connectiveUsed, bundles⟩ := par
  rw [merges_eq]
  -- what is added to, as a function of the field that is filled
  let withSends : List Send → Par := fun sends => ⟨sends, receives, news, exprs₀, matchers,
    unforgeables, connectives, locallyFree, connectiveUsed, bundles⟩
  let withExprs : List Expr → Par := fun exprs => ⟨sends₀ ++ sends, receives, news, exprs, matchers,
    unforgeables, connectives, locallyFree, connectiveUsed, bundles⟩
  have hsends : IsRow (Par.merge budget (innerMerges budget)) (SendsFit budget sends)
      (encodeSends sends) (withSends sends₀) (withSends (sends₀ ++ sends)) := by
    rw [encodeSends_eq, sendsFit_iff]
    exact .repeated withSends (by decide) (fun _ _ => by rfl)
      (fun send hmem => gives_inner (sends_isRow (budget - 1) sends send hmem) 1) sends₀
  have hexprs : IsRow (Par.merge budget (innerMerges budget)) (ExprsFit budget exprs)
      (encodeExprs exprs) (withExprs exprs₀) (withExprs (exprs₀ ++ exprs)) := by
    rw [encodeExprs_eq, exprsFit_iff]
    exact .repeated withExprs (by decide) (fun _ _ => by rfl)
      (fun expr hmem => gives_inner (exprs_isRow (budget - 1) exprs expr hmem) 5) exprs₀
  exact hsends.append hexprs

theorem Par.Fits.parts {budget : Nat} : ∀ {par : Par}, par.Fits budget →
    SendsFit budget par.sends ∧ ExprsFit budget par.exprs
  | ⟨_, _, _, _, _, _, _, _, _, _⟩, h => ⟨h.1, h.2.2.2.1⟩

theorem Par.decode_of_isRow {sure : Prop} {bytes : List UInt8} {par : Par}
    (hrow : IsRow (merges nestingBudget).par sure bytes {} par) (hsure : sure) :
    Par.decode bytes = .ok par := by
  have hread := hrow.gives_mergeFields [] bytes.length (Nat.le_refl _)
  rw [List.append_nil, List.length_nil] at hread
  rw [Par.decode, (hread _).mpr ⟨hsure, rfl⟩]
  rfl

theorem bytesField_ne_nil (n : Nat) (bytes : List UInt8) : bytesField n bytes ≠ [] := by
  intro hnil
  have hkey : (Key.encode ⟨n, .lengthDelimited⟩) = [] := (List.append_eq_nil_iff.mp hnil).1
  exact absurd hkey (List.ne_nil_of_length_pos (Varint.length_encode_pos _))

end Wire

namespace Term

theorem wellFormedEntries_append : ∀ {front back : List Send},
    WellFormedEntries front → WellFormedEntries back → WellFormedEntries (front ++ back)
  | [], _, _, hback => hback
  | ⟨.literal (.str _), [_]⟩ :: _, _, hfront, hback =>
    ⟨hfront.1, wellFormedEntries_append hfront.2 hback⟩

theorem depthEntries_append : ∀ front back : List Send,
    depthEntries (front ++ back) = max (depthEntries front) (depthEntries back)
  | [], back => by simp [depthEntries]
  | ⟨channel, payload⟩ :: rest, back => by
    rw [List.cons_append, depthEntries, depthEntries, depthEntries_append rest back]
    omega

theorem encode_sends_append (front back : List Send) :
    (sends (front ++ back)).toPar.encode =
      (sends front).toPar.encode ++ (sends back).toPar.encode := by
  rw [encode_sends_eq_flatMap, encode_sends_eq_flatMap, encode_sends_eq_flatMap,
    List.flatMap_append]

theorem encode_toPar (t : Term) :
    t.toPar.encode = Wire.encodeSends t.toPar.sends ++ Wire.encodeExprs t.toPar.exprs := by
  cases t <;> simp [toPar, parOfInstance, Wire.Par.encode, Wire.repeatedBytesField,
    Wire.implicitBytesField, Wire.flagField]

/-- The message of a term that has bytes holds sends only, or one expression. -/
theorem parts_of_encode_ne_nil {t : Term} (h : t.toPar.encode ≠ []) :
    (∃ entries, t = .sends entries ∧ t.toPar.sends ≠ [] ∧ t.toPar.exprs = []) ∨
      t.toPar.sends = [] ∧ ∃ expr, t.toPar.exprs = [expr] := by
  cases t with
  | literal value => exact .inr ⟨rfl, _, rfl⟩
  | list items => exact .inr ⟨rfl, _, rfl⟩
  | nil => exact absurd encode_nil h
  | sends entries =>
    have hsends : entriesToPar entries ≠ [] := by
      intro hnil
      rw [encode_sends, hnil] at h
      exact h rfl
    exact .inl ⟨entries, rfl, hsends, rfl⟩

theorem encode_eq_nil_iff {t : Term} : t.toPar.encode = [] ↔ t = .nil ∨ t = .sends [] := by
  constructor
  · intro h
    cases t with
    | literal value => simp [encode_literal, Wire.bytesField_ne_nil] at h
    | list items => simp [encode_list, Wire.bytesField_ne_nil] at h
    | nil => exact .inl rfl
    | sends entries =>
      cases entries with
      | nil => exact .inr rfl
      | cons entry rest =>
        rw [encode_sends_eq_flatMap, List.flatMap_cons] at h
        exact absurd (List.append_eq_nil_iff.mp h).1 (Wire.bytesField_ne_nil 1 _)
  · intro h
    rcases h with rfl | rfl
    · exact encode_nil
    · exact encode_sends []

/-- A message with sends and expressions is no term. -/
theorem ofPar?_of_blended : ∀ {messages : List Wire.Send} {exprs : List Wire.Expr},
    messages ≠ [] → exprs ≠ [] → ofPar? { sends := messages, exprs } =
      .error (.malformed .root (.blended exprs.length messages.length))
  | [], _, h, _ => absurd rfl h
  | _ :: _, [], _, h => absurd rfl h
  | _ :: _, _ :: _, _, _ => rfl

end Term

namespace Codec

variable {codec : Codec} {a b : Term} {x y : List UInt8}

theorem decode_append (hlimit : codec.maxDepth ≤ 33) (hx : (codec.toBytes a).result = .ok x)
    (hy : (codec.toBytes b).result = .ok y) (hlen : (x ++ y).length < 2 ^ 63) :
    Wire.Par.decode (x ++ y) = .ok
      { sends := a.toPar.sends ++ b.toPar.sends, exprs := a.toPar.exprs ++ b.toPar.exprs } := by
  rw [List.length_append] at hlen
  have ha := decode_of_toBytes hlimit hx (by omega)
  have hb := decode_of_toBytes hlimit hy (by omega)
  obtain ⟨-, rfl⟩ := toBytes_eq_ok.mp hx
  obtain ⟨-, rfl⟩ := toBytes_eq_ok.mp hy
  obtain ⟨hfits, -⟩ := (Wire.Par.decode_encode_eq_ok _ _).mp ha
  obtain ⟨hfits', -⟩ := (Wire.Par.decode_encode_eq_ok _ _).mp hb
  have hfirst := Wire.Par.isRow Wire.nestingBudget a.toPar
  have hsecond := Wire.Par.isRow_sends_exprs Wire.nestingBudget b.toPar.sends b.toPar.exprs a.toPar
  rw [← Term.encode_toPar] at hsecond
  rw [Wire.Par.decode_of_isRow (hfirst.append hsecond) ⟨hfits, hfits'.parts⟩]
  -- the message of a term has no other fields
  cases a <;> rfl

theorem toBytes_append {entries entries' : List Send}
    (hx : (codec.toBytes (.sends entries)).result = .ok x)
    (hy : (codec.toBytes (.sends entries')).result = .ok y) :
    (codec.toBytes (.sends (entries ++ entries'))).result = .ok (x ++ y) := by
  obtain ⟨⟨hwf, hdepth⟩, rfl⟩ := toBytes_eq_ok.mp hx
  obtain ⟨⟨hwf', hdepth'⟩, rfl⟩ := toBytes_eq_ok.mp hy
  rw [Term.depth] at hdepth hdepth'
  refine toBytes_eq_ok.mpr ⟨⟨Term.wellFormedEntries_append hwf hwf', ?_⟩, ?_⟩
  · rw [Term.depth, Term.depthEntries_append]
    omega
  · exact Term.encode_sends_append entries entries'

theorem ofBytes_of_not_term {bytes : List UInt8} {par : Wire.Par} {cause : TermError.Cause}
    (hdecode : Wire.Par.decode bytes = .ok par)
    (hlift : Term.ofPar? par = .error (.malformed .root cause)) :
    (codec.ofBytes bytes).result = .error ⟨.decodeFailure, .root, cause⟩ := by
  rw [result_ofBytes_of_decode hdecode, hlift]
  rfl

/-- The bytes of two terms that both have some are refused if the terms are not both maps. -/
theorem ofBytes_append_of_mixed (hlimit : codec.maxDepth ≤ 33)
    (hx : (codec.toBytes a).result = .ok x) (hy : (codec.toBytes b).result = .ok y)
    (hlen : (x ++ y).length < 2 ^ 63) (hxne : x ≠ []) (hyne : y ≠ [])
    (hmixed : ¬ ∃ entries entries', a = .sends entries ∧ b = .sends entries') :
    ∃ cause, (codec.ofBytes (x ++ y)).result = .error ⟨.decodeFailure, .root, cause⟩ ∧
      (cause = .manyExpressions 2 ∨ ∃ sends, cause = .blended 1 sends) := by
  have hdecode := decode_append hlimit hx hy hlen
  obtain ⟨-, rfl⟩ := toBytes_eq_ok.mp hx
  obtain ⟨-, rfl⟩ := toBytes_eq_ok.mp hy
  rcases Term.parts_of_encode_ne_nil hxne with ⟨entries, hentries, ha, ha'⟩ | ⟨ha, expr, ha'⟩
  · rcases Term.parts_of_encode_ne_nil hyne with ⟨entries', hentries', -, -⟩ | ⟨hb, expr', hb'⟩
    · exact absurd ⟨entries, entries', hentries, hentries'⟩ hmixed
    · rw [ha', hb, hb', List.nil_append, List.append_nil] at hdecode
      have hlift := Term.ofPar?_of_blended ha (List.cons_ne_nil expr' [])
      exact ⟨_, ofBytes_of_not_term hdecode hlift, .inr ⟨_, rfl⟩⟩
  · rcases Term.parts_of_encode_ne_nil hyne with ⟨entries', -, hb, hb'⟩ | ⟨hb, expr', hb'⟩
    · rw [ha, ha', hb', List.nil_append, List.append_nil] at hdecode
      have hlift := Term.ofPar?_of_blended hb (List.cons_ne_nil expr [])
      exact ⟨_, ofBytes_of_not_term hdecode hlift, .inr ⟨_, rfl⟩⟩
    · rw [ha, ha', hb, hb', List.nil_append] at hdecode
      have hlift : Term.ofPar? { exprs := [expr, expr'] } =
          .error (.malformed .root (.manyExpressions 2)) := rfl
      exact ⟨_, ofBytes_of_not_term hdecode hlift, .inl rfl⟩

/-- **Bytes one after the other are terms in parallel, or refused.** Let two terms be written,
for a limit of up to 33. Where one of them has no bytes, and these are the empty process and the
composition of no sends, the bytes of both are read as the other. Where both are maps with
entries, they are the bytes of the map with the entries of both, and are read as that. In every
other case they are refused at the root: there are two expressions, or one and sends. -/
theorem ofBytes_append (hlimit : codec.maxDepth ≤ 33) (hx : (codec.toBytes a).result = .ok x)
    (hy : (codec.toBytes b).result = .ok y) (hlen : (x ++ y).length < 2 ^ 63) :
    ((x = [] ↔ a = .nil ∨ a = .sends []) ∧ (y = [] ↔ b = .nil ∨ b = .sends [])) ∧
      (y = [] → (codec.ofBytes (x ++ y)).result = .ok a.canon) ∧
      (x = [] → (codec.ofBytes (x ++ y)).result = .ok b.canon) ∧
      (∀ entries entries', a = .sends entries → b = .sends entries' →
        (codec.toBytes (.sends (entries ++ entries'))).result = .ok (x ++ y) ∧
        (codec.ofBytes (x ++ y)).result = .ok (Term.sends (entries ++ entries')).canon) ∧
      (x ≠ [] → y ≠ [] → (¬ ∃ entries entries', a = .sends entries ∧ b = .sends entries') →
        ∃ cause, (codec.ofBytes (x ++ y)).result = .error ⟨.decodeFailure, .root, cause⟩ ∧
          (cause = .manyExpressions 2 ∨ ∃ sends, cause = .blended 1 sends)) := by
  have hnone : ∀ {t : Term} {bytes : List UInt8}, (codec.toBytes t).result = .ok bytes →
      (bytes = [] ↔ t = .nil ∨ t = .sends []) := by
    intro t bytes hbytes
    obtain ⟨-, rfl⟩ := toBytes_eq_ok.mp hbytes
    exact Term.encode_eq_nil_iff
  refine ⟨⟨hnone hx, hnone hy⟩, ?_, ?_, ?_, ofBytes_append_of_mixed hlimit hx hy hlen⟩
  · rintro rfl
    rw [List.append_nil] at hlen ⊢
    exact ofBytes_eq_canon hlimit hx hlen
  · rintro rfl
    exact ofBytes_eq_canon hlimit hy hlen
  · rintro entries entries' rfl rfl
    have hjoined := toBytes_append hx hy
    exact ⟨hjoined, ofBytes_eq_canon hlimit hjoined hlen⟩

/-- The bytes of a map with one entry, twice, and after those of a truth value. -/
theorem ofBytes_append_entry :
    (Codec.ofBytes ⟨33⟩ [10, 9, 10, 5, 42, 3, 26, 1, 97, 18, 0, 10, 9, 10, 5, 42, 3, 26, 1, 97, 18,
        0]).result = .ok (.sends [.entry "a" .nil, .entry "a" .nil]) ∧
      ∃ cause, (Codec.ofBytes ⟨33⟩ [42, 2, 8, 1, 10, 9, 10, 5, 42, 3, 26, 1, 97, 18, 0]).result =
        .error ⟨.decodeFailure, .root, cause⟩ := by
  have hmap : (Codec.toBytes ⟨33⟩ (.sends [.entry "a" .nil])).result =
      .ok [10, 9, 10, 5, 42, 3, 26, 1, 97, 18, 0] :=
    toBytes_eq_ok.mpr ⟨⟨⟨trivial, trivial⟩, by decide⟩, by decide +kernel⟩
  have hbool : (Codec.toBytes ⟨33⟩ (.literal (.bool true))).result = .ok [42, 2, 8, 1] :=
    toBytes_eq_ok.mpr ⟨⟨trivial, by decide⟩, by decide +kernel⟩
  constructor
  · obtain ⟨-, -, -, hmaps, -⟩ := ofBytes_append (by decide) hmap hmap (by decide)
    exact (hmaps _ _ rfl rfl).2
  · obtain ⟨-, -, -, -, hmixed⟩ := ofBytes_append (by decide) hbool hmap (by decide)
    obtain ⟨cause, hrefused, -⟩ := hmixed (by decide) (by decide) (by simp)
    exact ⟨cause, hrefused⟩

end Codec
end DataTerms
