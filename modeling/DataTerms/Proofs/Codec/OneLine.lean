/-
# Outputs that stay on one line

The text of a term and what is said of an error stay on one line, whatever strings and keys the
input has: both are shown between quote marks, in a text as in JSON and in a path in their own
way. Of the causes with words of their own reading and writing meet two, with names of kinds and
of fields.

Key theorems: `Term.charsAt_oneLine`, `Term.toValueAt_failsBy`, `Codec.validateAt_failsBy`,
`Codec.output_oneLine`.
-/
import DataTerms.Proofs.Error
import DataTerms.Proofs.Term.Locating
import DataTerms.Proofs.Term.Stops
import DataTerms.Proofs.Value.Rejection

namespace DataTerms

open Outcomes
open Text (OneLine oneLine_ofList)

/-! ### Errors -/

namespace Term

/-- JSON is refused for a number. -/
theorem ofJson?_failsBy (json : Json) : FailsBy TermError.Settled (ofJson? json).result := by
  intro error herror
  have htracks := Value.ofJson?_tracks json
  rw [herror] at htracks
  obtain ⟨⟨_, number⟩, -, rfl⟩ := htracks
  cases number <;> trivial

mutual

/-- A term has no value for the kind of a channel or the size of a payload. -/
theorem toValueAt_failsBy (path : Path) : ∀ t : Term,
    FailsBy TermError.Settled (t.toValueAt path).result
  | .literal (.bool _) | .literal (.int _) | .literal (.str _) | .nil => FailsBy.of_ok _
  | .list items => by
    rw [toValueAt, Report.result_bind]
    exact (itemsToValue_failsBy path 0 items).bind fun _ _ => FailsBy.of_ok _
  | .sends entries => by
    rw [toValueAt, Report.result_bind]
    exact (entriesToValue_failsBy path 0 [] entries).bind fun _ _ => FailsBy.of_ok _

theorem itemsToValue_failsBy (path : Path) (i : Nat) : ∀ items : List Term,
    FailsBy TermError.Settled (itemsToValue path i items).result
  | [] => FailsBy.of_ok _
  | item :: rest => by
    simp only [itemsToValue, Report.result_bind]
    refine (toValueAt_failsBy (path.index i) item).bind fun _ _ => ?_
    exact (itemsToValue_failsBy path (i + 1) rest).bind fun _ _ => FailsBy.of_ok _

theorem entriesToValue_failsBy (path : Path) (i : Nat) (map : List (String × Value)) :
    ∀ entries : List Send, FailsBy TermError.Settled (entriesToValue path i map entries).result
  | [] => FailsBy.of_ok _
  | ⟨channel, payload⟩ :: rest => by
    simp only [entriesToValue, Report.result_bind, result_enter, ok_bind]
    refine (toValueAt_failsBy (path.index i) channel).bind fun name _ => ?_
    have hkey : FailsBy TermError.Settled (keyOfValue (path.index i) name).result := by
      unfold keyOfValue
      split
      · exact FailsBy.of_ok _
      · exact FailsBy.of_error trivial
    refine hkey.bind fun key _ => ?_
    refine (payloadToValue_failsBy (path.key key) payload).bind fun value _ => ?_
    exact entriesToValue_failsBy path (i + 1) (Keyed.insert key value map) rest

theorem payloadToValue_failsBy (path : Path) : ∀ payload : List Term,
    FailsBy TermError.Settled (payloadToValue path payload).result
  | [single] => toValueAt_failsBy path single
  | [] | _ :: _ :: _ => FailsBy.of_error trivial

end

/-- A term has no text for the kind of a channel or the size of a payload. -/
theorem text?_failsBy (t : Term) : FailsBy TermError.Settled t.text? := by
  intro error herror
  have htracks := t.text?_tracks
  rw [herror] at htracks
  obtain ⟨defect, -, rfl⟩ := htracks
  cases defect <;> trivial

end Term

namespace Wire

/-- The kinds of process in a message that carry no data have names on one line. -/
theorem Par.oneLine_unsupportedKinds (par : Par) :
    ∀ name ∈ par.unsupportedKinds, OneLine name.toList := by
  have hall : ∀ name ∈ ["receives", "news", "matches", "unforgeables", "connectives", "bundles"],
      OneLine name.toList := by
    iterate 6
      refine List.forall_mem_cons.mpr ⟨oneLine_ofList (by decide), ?_⟩
    nofun
  intro name hmem
  obtain ⟨kind, hkind, hname⟩ := List.mem_filterMap.mp hmem
  have hword : kind.1 ∈
      ["receives", "news", "matches", "unforgeables", "connectives", "bundles"] := by
    simpa using List.mem_map_of_mem (f := Prod.fst) hkind
  split at hname
  · cases hname
  · obtain rfl := Option.some.inj hname
    exact hall kind.1 hword

theorem settled_of_markFault? {part : TermError.Part} {connectiveUsed : Bool}
    {locallyFree : List UInt8} {cause : TermError.Cause}
    (h : markFault? part connectiveUsed locallyFree = some cause) : cause.Settled := by
  unfold markFault? at h
  split at h
  · exact Option.some.inj h ▸ trivial
  · split at h
    · exact Option.some.inj h ▸ trivial
    · cases h

theorem Expr.settled_of_fault? {expr : Expr} {cause : TermError.Cause}
    (h : expr.fault? = some cause) : cause.Settled := by
  unfold fault? at h
  split at h
  · exact Option.some.inj h ▸ trivial
  · exact Option.some.inj h ▸ trivial
  · exact Option.some.inj h ▸ trivial
  · split at h
    · exact Option.some.inj h ▸ trivial
    · exact settled_of_markFault? h
  · cases h

theorem settled_of_shapeFault? {sends : List Send} {exprs : List Expr} {cause : TermError.Cause}
    (h : shapeFault? sends exprs = some cause) : cause.Settled := by
  unfold shapeFault? at h
  split at h
  · exact Expr.settled_of_fault? h
  · cases h
  · exact Option.some.inj h ▸ trivial
  · exact Option.some.inj h ▸ trivial

theorem Par.settled_of_fault? {par : Par} {cause : TermError.Cause}
    (h : par.fault? = some cause) : cause.Settled := by
  rw [fault?, Option.or_eq_some_iff, Option.or_eq_some_iff] at h
  rcases h with h | ⟨-, h | ⟨-, h⟩⟩
  · unfold kindsFault? at h
    split at h
    · cases h
    · exact Option.some.inj h ▸ par.oneLine_unsupportedKinds
  · exact settled_of_markFault? h
  · exact settled_of_shapeFault? h

theorem Send.settled_of_fault? {send : Send} {cause : TermError.Cause}
    (h : send.fault? = some cause) : cause.Settled := by
  unfold fault? at h
  split at h
  · exact Option.some.inj h ▸ trivial
  · exact settled_of_markFault? h

/-- Whatever a message is refused for, the words of it are the names of kinds. -/
theorem Par.Refused.settled {par : Par} {steps : List Step} {cause : TermError.Cause}
    (h : par.Refused steps cause) : cause.Settled := by
  induction h with
  | node hfault => exact Par.settled_of_fault? hfault
  | send _ _ hfault => exact Send.settled_of_fault? hfault
  | within _ _ ih => exact ih

end Wire

theorem Term.ofPar?_failsBy (par : Wire.Par) : FailsBy TermError.Settled (ofPar? par) := by
  rintro error herror
  obtain ⟨steps, cause, hrefused, rfl⟩ := ofParAt_refused .root par error herror
  exact hrefused.settled

namespace Codec

theorem checkLevel_failsBy (limit : Nat) (path : Path) (level : Nat) :
    FailsBy TermError.Settled (checkLevel limit path level) := by
  unfold checkLevel
  split
  · exact FailsBy.of_error trivial
  · exact FailsBy.of_ok _

section Validating

variable {limit : Nat}

mutual

/-- A term is refused for the limit, the kind of a channel or the size of a payload. -/
theorem validateAt_failsBy (path : Path) (level : Nat) : ∀ t : Term,
    FailsBy TermError.Settled (validateAt limit path level t)
  | .literal _ | .nil => checkLevel_failsBy limit path level
  | .list items => (checkLevel_failsBy limit path level).bind fun _ _ =>
    validateItems_failsBy path 0 (level + 1) items
  | .sends entries => (checkLevel_failsBy limit path level).bind fun _ _ =>
    validateEntries_failsBy path 0 (level + 1) entries

theorem validateItems_failsBy (path : Path) (i level : Nat) : ∀ items : List Term,
    FailsBy TermError.Settled (validateItems limit path i level items)
  | [] => FailsBy.of_ok _
  | item :: rest => (validateAt_failsBy (path.index i) level item).bind fun _ _ =>
    validateItems_failsBy path (i + 1) level rest

theorem validateEntries_failsBy (path : Path) (i level : Nat) : ∀ entries : List Send,
    FailsBy TermError.Settled (validateEntries limit path i level entries)
  | [] => FailsBy.of_ok _
  | ⟨channel, payload⟩ :: rest => by
    have hkey : FailsBy TermError.Settled (keyOfChannel (path.index i) channel) := by
      unfold keyOfChannel
      split
      · exact FailsBy.of_ok _
      · exact FailsBy.of_error trivial
    rw [validateEntries]
    refine hkey.bind fun key _ => ?_
    refine (validatePayload_failsBy (path.key key) level payload).bind fun _ _ => ?_
    exact validateEntries_failsBy path (i + 1) level rest

theorem validatePayload_failsBy (path : Path) (level : Nat) : ∀ payload : List Term,
    FailsBy TermError.Settled (validatePayload limit path level payload)
  | [single] => validateAt_failsBy path level single
  | [] | _ :: _ :: _ => FailsBy.of_error trivial

end

end Validating

theorem validate_failsBy (codec : Codec) (t : Term) :
    FailsBy TermError.Settled (codec.validate t) :=
  validateAt_failsBy .root 1 t

theorem toBytes_failsBy (codec : Codec) (t : Term) :
    FailsBy TermError.Settled (codec.toBytes t).result := by
  rw [toBytes, Report.result_bind]
  exact (codec.validate_failsBy t).bind fun _ _ => FailsBy.of_ok _

theorem ofBytes_settled (codec : Codec) (bytes : List UInt8) :
    FailsBy TermError.Settled (codec.ofBytes bytes).result := by
  have hmessage : FailsBy TermError.Settled (message bytes).result := by
    unfold message
    split
    · exact FailsBy.of_ok _
    · next fault hfault => exact FailsBy.of_error (Wire.Par.decode_failsBy bytes fault hfault)
  have hkept : ∀ error : TermError, error.Settled → error.asDecodeFailure.Settled := fun _ h => h
  simp only [ofBytes, Report.result_bind, Report.result_ofExcept, Report.result_log,
    Report.result_pure]
  refine hmessage.bind fun par _ => ?_
  refine ((Term.ofPar?_failsBy par).mapError_of hkept).bind fun t _ => ?_
  exact ((codec.validate_failsBy t).mapError_of hkept).bind fun _ _ => FailsBy.of_ok _

end Codec

/-! ### The text of a term -/

namespace Term

theorem oneLine_literalChars : ∀ value : Literal, OneLine (literalChars value)
  | .bool true | .bool false => by decide
  | .int value => Text.oneLine_int value.toInt
  | .str value => Json.oneLine_quote value.toList

/-- What is written of a list or a map between two of its parts stays on one line. -/
theorem oneLine_separated {i : Nat} {bar cs : List Char} (hbar : OneLine bar) (hcs : OneLine cs) :
    OneLine ((if i = 0 then [] else bar) ++ cs) := by
  split <;> simp [hbar, hcs]

mutual

/-- The characters of a term stay on one line, whatever its strings and keys are. -/
theorem charsAt_oneLine {path : Path} : ∀ {t : Term} {cs : List Char},
    t.charsAt path = .ok cs → OneLine cs
  | .literal value, _, h => Except.ok.inj h ▸ oneLine_literalChars value
  | .nil, _, h | .sends [], _, h => Except.ok.inj h ▸ (by decide : OneLine nilChars)
  | .list items, _, h => by
    obtain ⟨inner, hinner, heq⟩ := bind_eq_ok.mp h
    obtain rfl := Except.ok.inj heq
    have hitems := itemsChars_oneLine hinner
    simp [hitems]
  | .sends (send :: rest), _, h => by
    rw [charsAt] at h
    exact entriesChars_oneLine h

theorem itemsChars_oneLine {path : Path} {i : Nat} : ∀ {items : List Term} {cs : List Char},
    itemsChars path i items = .ok cs → OneLine cs
  | [], _, h => Except.ok.inj h ▸ Text.oneLine_nil
  | item :: rest, _, h => by
    obtain ⟨first, hfirst, h⟩ := bind_eq_ok.mp h
    obtain ⟨others, hothers, heq⟩ := bind_eq_ok.mp h
    obtain rfl := Except.ok.inj heq
    have hbar : OneLine [',', ' '] := by decide
    have hitem := oneLine_separated (i := i) hbar (charsAt_oneLine hfirst)
    exact Text.oneLine_append.mpr ⟨hitem, itemsChars_oneLine hothers⟩

theorem entriesChars_oneLine {path : Path} {i : Nat} : ∀ {entries : List Send} {cs : List Char},
    entriesChars path i entries = .ok cs → OneLine cs
  | [], _, h => Except.ok.inj h ▸ Text.oneLine_nil
  | ⟨channel, payload⟩ :: rest, _, h => by
    obtain ⟨key, -, h⟩ := bind_eq_ok.mp h
    obtain ⟨value, hvalue, h⟩ := bind_eq_ok.mp h
    obtain ⟨others, hothers, heq⟩ := bind_eq_ok.mp h
    obtain rfl := Except.ok.inj heq
    have hpayload := payloadChars_oneLine hvalue
    have hsend : OneLine (sendChars key value) := by simp [sendChars, hpayload]
    have hbar : OneLine [' ', '|', ' '] := by decide
    have hentry := oneLine_separated (i := i) hbar hsend
    exact Text.oneLine_append.mpr ⟨hentry, entriesChars_oneLine hothers⟩

theorem payloadChars_oneLine {path : Path} : ∀ {payload : List Term} {cs : List Char},
    payloadChars path payload = .ok cs → OneLine cs
  | [_], _, h => charsAt_oneLine h

end

theorem text?_oneLine {t : Term} {text : String} (h : t.text? = .ok text) :
    OneLine text.toList := by
  obtain ⟨cs, hcs, heq⟩ := bind_eq_ok.mp h
  obtain rfl := Except.ok.inj heq
  exact oneLine_ofList (charsAt_oneLine hcs)

end Term

namespace Codec

/-- **What is said stays on one line.** The text of a term has no character below the space, and
neither has what is said of an error, where JSON is made a term, a term is read as a value or
written as a text, a message is taken up as a term, or a codec writes or reads bytes: whatever the
strings, the keys, the bytes and the limit are. -/
theorem output_oneLine :
    (∀ (t : Term) text, t.text? = .ok text → OneLine text.toList) ∧
    (∀ (json : Json) error, (Term.ofJson? json).result = .error error →
      OneLine error.message.toList) ∧
    (∀ (t : Term) error, t.decode.result = .error error → OneLine error.message.toList) ∧
    (∀ (t : Term) error, t.text? = .error error → OneLine error.message.toList) ∧
    (∀ (par : Wire.Par) error, Term.ofPar? par = .error error → OneLine error.message.toList) ∧
    (∀ (codec : Codec) (t : Term) error, (codec.toBytes t).result = .error error →
      OneLine error.message.toList) ∧
    ∀ (codec : Codec) bytes error, (codec.ofBytes bytes).result = .error error →
      OneLine error.message.toList := by
  refine ⟨fun t text => Term.text?_oneLine, fun json error h => ?_, fun t error h => ?_,
    fun t error h => ?_, fun par error h => ?_, fun codec t error h => ?_,
    fun codec bytes error h => ?_⟩
  · exact TermError.oneLine_message (Term.ofJson?_failsBy json error h)
  · exact TermError.oneLine_message (Term.toValueAt_failsBy .root t error h)
  · exact TermError.oneLine_message (t.text?_failsBy error h)
  · exact TermError.oneLine_message (Term.ofPar?_failsBy par error h)
  · exact TermError.oneLine_message (codec.toBytes_failsBy t error h)
  · exact TermError.oneLine_message (codec.ofBytes_settled bytes error h)

/-- A key with a line feed, a quote mark and an escape character, in a text and in the paths of
errors, a message of a kind that carries no data, and bytes that end within a channel. -/
theorem output_oneLine_hostile :
    let key := "a\n\"]\x1b"
    let place := Path.key .root key
    let json : Json := .object [(key, .number (.int 9223372036854775808))]
    let bare : Term := .sends [⟨.str key, []⟩]
    let written := "@\"a\\n\\\"]\\u001b\"!(\"a\\n\\\"]\\u001b\")"
    let fault : Wire.Fault := ⟨["Send.chan", "Par.sends"], .underflow⟩
    ((Term.sends [.entry key (.str key)]).text? = .ok written ∧ OneLine written.toList) ∧
      ((Term.ofJson? json).result = .error (.unsupported place (.tooGreat 9223372036854775808)) ∧
        OneLine (TermError.unsupported place (.tooGreat 9223372036854775808)).message.toList) ∧
      (bare.decode.result = .error (.malformed place (.payloadSize 0)) ∧
        bare.text? = .error (.malformed place (.payloadSize 0)) ∧
        OneLine (TermError.malformed place (.payloadSize 0)).message.toList) ∧
      (Term.ofPar? { news := [[10]] } = .error (.malformed .root (.unsupportedKinds ["news"])) ∧
        OneLine (TermError.malformed .root (.unsupportedKinds ["news"])).message.toList) ∧
      ((Codec.toBytes {} bare).result = .error (.schema place (.payloadSize 0)) ∧
        OneLine (TermError.schema place (.payloadSize 0)).message.toList) ∧
      (Codec.ofBytes {} [10, 2, 10, 5]).result = .error (.ofFault fault) ∧
      OneLine (TermError.ofFault fault).message.toList := by
  intro key place json bare written fault
  obtain ⟨htext, hjson, hdecode, -, hlift, hto, hof⟩ := output_oneLine
  have hwritten : (Term.sends [.entry key (.str key)]).text? = .ok written :=
    eq_ok_of_toOption (by decide +kernel)
  have hgreat : (Term.ofJson? json).result =
      .error (.unsupported place (.tooGreat 9223372036854775808)) := rfl
  exact ⟨⟨hwritten, htext _ _ hwritten⟩, ⟨hgreat, hjson _ _ hgreat⟩,
    ⟨rfl, rfl, hdecode bare _ rfl⟩, ⟨rfl, hlift { news := [[10]] } _ rfl⟩, ⟨rfl, hto {} bare _ rfl⟩,
    rfl, hof {} [10, 2, 10, 5] _ rfl⟩

end Codec
end DataTerms
