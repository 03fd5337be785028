/-
# The command's own output leads back to it

JSON that is encoded to digits can be decoded again from these digits: to JSON, which is that of
the value without its empty maps, and which is encoded to the same digits; and to the text of the
term, which is the one that the first JSON is encoded to. So the command, fed with what it wrote
itself, goes round in a circle. Nothing of this depends on the settings, as long as they are the
same in all runs, nor on how the JSON is laid out.

Key definitions: `Surroundings.Finds`, `Machine.Prints`, `Machine.Yields`.
Key theorems: `Machine.prints_encode_iff`, `Machine.prints_decode_iff`,
`Machine.Yields.encode_render`, `Machine.hex_loop`.
-/
import DataTerms.Proofs.Codec.Pipeline
import DataTerms.Proofs.Codec.Text
import DataTerms.Proofs.Command.Digits
import DataTerms.Proofs.Command.Words
import DataTerms.Proofs.Json.Members
import DataTerms.Proofs.Json.ReadBack
import DataTerms.Proofs.Value.Json

namespace DataTerms

open Outcomes

/-! ### Settings -/

namespace Settings

variable {settings : Settings}

/-- Settings that a text gives keep the codec's limit below the ceiling. -/
theorem maxDepth_le_of_parse {text : String} (h : parse text = .ok settings) :
    settings.codec.maxDepth ≤ Codec.ceiling := by
  unfold parse at h
  split at h
  · cases h
  · next given _ =>
    split at h
    · next hcheck =>
      obtain rfl := Except.ok.inj h
      unfold Codec.check at hcheck
      split at hcheck
      · cases hcheck
      · split at hcheck
        · cases hcheck
        · next hle => exact Nat.not_lt.mp hle
    · cases h

theorem maxDepth_le_of_loadOrCommon {surroundings : Surroundings} {path : String}
    (h : (loadOrCommon surroundings path).result = .ok settings) :
    settings.codec.maxDepth ≤ Codec.ceiling := by
  unfold loadOrCommon at h
  split at h
  · simp only [load, Report.result_bind, Report.result_ofExcept, Report.result_log,
      Report.result_pure] at h
    obtain ⟨text, -, h⟩ := bind_eq_ok.mp h
    obtain ⟨given, hgiven, h⟩ := bind_eq_ok.mp h
    obtain rfl := Except.ok.inj h
    exact maxDepth_le_of_parse (mapError_eq_ok.mp hgiven)
  · obtain rfl := Except.ok.inj h
    exact Nat.le_refl Codec.ceiling

end Settings

/-! ### What a run prints -/

namespace Surroundings

/-- The JSON found at a source is that of a value. -/
def Finds (surroundings : Surroundings) (source : Source) (value : Value) : Prop :=
  ∃ json, surroundings.readJson source = .ok json ∧ Value.ofJson? json = .ok value

theorem Finds.ordered {surroundings : Surroundings} {source : Source} {value : Value}
    (h : surroundings.Finds source value) : value.Ordered := by
  obtain ⟨json, hread, hvalue⟩ := h
  obtain ⟨text, -, hread⟩ := bind_eq_ok.mp hread
  split at hread
  · next found hparse =>
    obtain rfl := Except.ok.inj hread
    exact Value.ordered_of_ofJson? (Json.ordered_of_parse? hparse) hvalue
  · cases hread

end Surroundings

theorem Outcome.ofReport_prints_iff {report : Report Failure String} {line : String} :
    (ofReport report).code = 0 ∧ (ofReport report).output = line ++ "\n" ↔
      report.result = .ok line := by
  unfold ofReport
  split
  · next text hresult =>
    rw [hresult]
    simp [← String.toList_inj]
  · next failure hresult =>
    rw [hresult]
    simp [failed]

namespace Machine

variable {machine : Machine} {settings : Settings} {words : List String} {input : List UInt8}
  {source : Source} {line : String}

/-- A run on a machine ends well and prints a line. -/
def Prints (machine : Machine) (words : List String) (input : List UInt8) (line : String) :
    Prop :=
  (machine.run words input).1.code = 0 ∧ (machine.run words input).1.output = line ++ "\n"

theorem prints_encode_iff {format : EncodeFormat}
    (h : machine.Asks words input settings (.encode source format)) :
    machine.Prints words input line ↔ ∃ value : Value,
      (machine.surroundings input).Finds source value ∧
        (Surroundings.writeEncoded settings value.toTerm format).result = .ok line := by
  obtain ⟨path, log, hwords, hsettings⟩ := h
  unfold Prints run
  rw [hwords]
  refine Outcome.ofReport_prints_iff.trans ?_
  unfold Surroundings.encode Surroundings.Finds
  simp only [Report.result_bind, hsettings, ok_bind, Report.result_ofExcept, Report.result_mapError,
    Term.ofJson?, Value.encode, Report.result_log, Report.result_pure, bind_eq_ok, mapError_eq_ok]
  constructor
  · rintro ⟨json, hread, term, ⟨value, hvalue, hterm⟩, hwrite⟩
    obtain rfl := Except.ok.inj hterm
    exact ⟨value, ⟨json, hread, hvalue⟩, hwrite⟩
  · rintro ⟨value, ⟨json, hread, hvalue⟩, hwrite⟩
    exact ⟨json, hread, value.toTerm, ⟨value, hvalue, rfl⟩, hwrite⟩

theorem prints_decode_iff {format : DecodeFormat}
    (h : machine.Asks words input settings (.decode source format)) :
    machine.Prints words input line ↔ ∃ bytes term,
      (machine.surroundings input).readBytes source = .ok bytes ∧
        (settings.codec.ofBytes bytes).result = .ok term ∧
        (Surroundings.writeDecoded settings term format).result = .ok line := by
  obtain ⟨path, log, hwords, hsettings⟩ := h
  unfold Prints run
  rw [hwords]
  refine Outcome.ofReport_prints_iff.trans ?_
  unfold Surroundings.decode
  simp only [Report.result_bind, hsettings, ok_bind, Report.result_ofExcept, Report.result_mapError,
    bind_eq_ok, mapError_eq_ok]
  constructor
  · rintro ⟨bytes, hread, term, hterm, hwrite⟩
    exact ⟨bytes, term, hread, hterm, hwrite⟩
  · rintro ⟨bytes, term, hread, hterm, hwrite⟩
    exact ⟨bytes, hread, term, hterm, hwrite⟩

/-- Whatever words ask for a command with some settings, the run prints a line. -/
def Yields (machine : Machine) (settings : Settings) (input : List UInt8) (command : Command)
    (line : String) : Prop :=
  ∀ words, machine.Asks words input settings command → machine.Prints words input line

/-! ### Round the circle -/

variable {value : Value} {bytes : List UInt8} {plain word : String}

/-- What is printed as digits are the bytes of the term of a value that is found. -/
theorem exists_of_prints_hex (h : machine.Asks words input settings (.encode source .hex))
    (hprints : machine.Prints words input line) : ∃ value bytes,
      (machine.surroundings input).Finds source value ∧
        (settings.codec.toBytes value.toTerm).result = .ok bytes ∧ line = Hex.encode bytes := by
  obtain ⟨value, hfinds, hwrite⟩ := (prints_encode_iff h).mp hprints
  simp only [Surroundings.writeEncoded, Report.result_bind, Report.result_mapError,
    Report.result_pure] at hwrite
  obtain ⟨bytes, hbytes, hline⟩ := bind_eq_ok.mp hwrite
  exact ⟨value, bytes, hfinds, mapError_eq_ok.mp hbytes, (Except.ok.inj hline).symm⟩

theorem yields_encode_hex (hfinds : (machine.surroundings input).Finds source value)
    (hbytes : (settings.codec.toBytes value.toTerm).result = .ok bytes) :
    machine.Yields settings input (.encode source .hex) (Hex.encode bytes) := by
  intro words h
  refine (prints_encode_iff h).mpr ⟨value, hfinds, ?_⟩
  simp only [Surroundings.writeEncoded, Report.result_bind, Report.result_mapError,
    Report.result_pure]
  exact bind_eq_ok.mpr ⟨bytes, mapError_eq_ok.mpr hbytes, rfl⟩

theorem yields_encode_text (hfinds : (machine.surroundings input).Finds source value)
    (hplain : value.toTerm.text? = .ok plain) :
    machine.Yields settings input (.encode source .text) plain := by
  intro words h
  refine (prints_encode_iff h).mpr ⟨value, hfinds, ?_⟩
  rw [Surroundings.writeEncoded, Report.result_ofExcept]
  exact mapError_eq_ok.mpr hplain

section Decoding

variable (hbytes : (settings.codec.toBytes value.toTerm).result = .ok bytes)
  (hlimit : settings.codec.maxDepth ≤ Codec.ceiling) (hlen : bytes.length < 2 ^ 63)
  (hword : Hex.SpelledBy word (Hex.encode bytes))

include hbytes hlimit hlen

theorem ofBytes_eq_blank : (settings.codec.ofBytes bytes).result = .ok value.blank.toTerm := by
  have hlimit' : settings.codec.maxDepth ≤ 33 := Nat.le_succ_of_le hlimit
  rw [Value.toTerm_blank]
  exact Codec.ofBytes_eq_canon hlimit' hbytes hlen

include hword

theorem yields_decode_json (hvalue : value.Ordered) (input : List UInt8) :
    machine.Yields settings input (.decode (.word word) .json)
      (settings.render value.blank.toJson) := by
  intro words h
  have hread := Hex.readBytes_word hword (machine.surroundings input)
  have hterm := ofBytes_eq_blank hbytes hlimit hlen
  refine (prints_decode_iff h).mpr ⟨bytes, value.blank.toTerm, hread, hterm, ?_⟩
  simp only [Surroundings.writeDecoded, Report.result_bind, Report.result_mapError,
    Report.result_pure]
  have hdecode := Value.decode_toTerm (Value.ordered_blank hvalue)
  exact bind_eq_ok.mpr ⟨value.blank, mapError_eq_ok.mpr hdecode, rfl⟩

theorem yields_decode_text (hplain : value.toTerm.text? = .ok plain) (input : List UInt8) :
    machine.Yields settings input (.decode (.word word) .text) plain := by
  intro words h
  have hread := Hex.readBytes_word hword (machine.surroundings input)
  have hterm := ofBytes_eq_blank hbytes hlimit hlen
  obtain ⟨⟨hwf, -⟩, -⟩ := Codec.toBytes_eq_ok.mp hbytes
  refine (prints_decode_iff h).mpr ⟨bytes, value.blank.toTerm, hread, hterm, ?_⟩
  rw [Surroundings.writeDecoded, Report.result_ofExcept, Value.toTerm_blank, Term.text?_canon hwf]
  exact mapError_eq_ok.mpr hplain

end Decoding

theorem finds_of_parse? {text : String} {json : Json}
    (hparse : Json.parse? Json.nestingLimit text = some json)
    (hvalue : Value.ofJson? json = .ok value) :
    (machine.surroundings (Utf8.encode text)).Finds .input value := by
  have htext : (machine.surroundings (Utf8.encode text)).readJsonText .input = .ok text := by
    rw [Surroundings.readJsonText, surroundings, Utf8.decode_encode]
    rfl
  refine ⟨json, ?_, hvalue⟩
  rw [Surroundings.readJson, htext, ok_bind, hparse]
  rfl

/-- JSON that was printed is found again where it is fed to the command, with the value without
its empty maps. -/
theorem finds_render {blanks : String} (hvalue : value.Ordered)
    (hdepth : value.toTerm.depth ≤ Json.nestingLimit) (hblanks : Json.AreBlanks blanks.toList) :
    (machine.surroundings (Utf8.encode (settings.render value.blank.toJson ++ blanks))).Finds
      .input value.blank := by
  have hdepth' : value.blank.toTerm.depth ≤ Json.nestingLimit := by
    rw [Value.toTerm_blank, Term.depth_canon]
    exact hdepth
  have hparse := Json.parse?_render settings (Value.ordered_blank hvalue) hdepth' hblanks
  rw [String.ofList_toList] at hparse
  exact finds_of_parse? hparse value.blank.ofJson?_toJson

theorem yields_encode_render {blanks : String} (hvalue : value.Ordered)
    (hlimit : settings.codec.maxDepth ≤ Codec.ceiling)
    (hbytes : (settings.codec.toBytes value.toTerm).result = .ok bytes)
    (hblanks : Json.AreBlanks blanks.toList) :
    machine.Yields settings (Utf8.encode (settings.render value.blank.toJson ++ blanks))
      (.encode .input .hex) (Hex.encode bytes) := by
  obtain ⟨⟨-, hdepth⟩, -⟩ := Codec.toBytes_eq_ok.mp hbytes
  have hdepth' : value.toTerm.depth ≤ Json.nestingLimit := by
    have hceiling : Codec.ceiling ≤ Json.nestingLimit := by decide
    omega
  have hbytes' : (settings.codec.toBytes value.blank.toTerm).result = .ok bytes := by
    rw [Value.toTerm_blank]
    exact Codec.toBytes_canon hbytes
  exact yields_encode_hex (finds_render hvalue hdepth' hblanks) hbytes'

/-- Digits that a run printed lead to JSON and a text, whatever words ask for the runs. -/
theorem exists_yields (h : machine.Asks words input settings (.encode source .hex))
    (hprints : machine.Prints words input line) (hlen : line.length < 2 ^ 63) :
    ∃ json plain : String,
      machine.Yields settings input (.encode source .text) plain ∧
      (∀ word, Hex.SpelledBy word line → word.toList.head? ≠ some '-' ∧ ∀ input',
        machine.Yields settings input' (.decode (.word word) .json) json ∧
          machine.Yields settings input' (.decode (.word word) .text) plain) ∧
      ∀ blanks : String, Json.AreBlanks blanks.toList →
        machine.Yields settings (Utf8.encode (json ++ blanks)) (.encode .input .hex) line := by
  obtain ⟨value, bytes, hfinds, hbytes, rfl⟩ := exists_of_prints_hex h hprints
  obtain ⟨path, log, -, hsettings⟩ := h
  have hlimit := Settings.maxDepth_le_of_loadOrCommon hsettings
  have hlen' : bytes.length < 2 ^ 63 := by
    rw [Hex.length_encode] at hlen
    omega
  obtain ⟨⟨hwf, -⟩, -⟩ := Codec.toBytes_eq_ok.mp hbytes
  obtain ⟨plain, hplain⟩ := Term.exists_text_of_wellFormed hwf
  refine ⟨settings.render value.blank.toJson, plain, yields_encode_text hfinds hplain, ?_, ?_⟩
  · intro word hword
    refine ⟨Hex.head?_word hword, fun input' => ⟨?_, ?_⟩⟩
    · exact yields_decode_json hbytes hlimit hlen' hword hfinds.ordered input'
    · exact yields_decode_text hbytes hlimit hlen' hword hplain input'
  · intro blanks hblanks
    exact yields_encode_render hfinds.ordered hlimit hbytes hblanks

/-- **The command's own output leads back to it.** Where a run that encodes prints digits, fewer
than `2 ^ 63`, there are JSON and a text such that with the same settings every run that decodes
these digits, with `0x` before them or not and between white space or not, prints this JSON, or
this text if that is asked for; every run that encodes the same to a text prints the same text; and
every run that is fed with this JSON, blanks behind it or not, prints the same digits. In particular
so do the plain words on a machine whose settings file is not there, or has a text that gives
settings. -/
theorem hex_loop :
    (∀ {machine : Machine} {settings : Settings} {words : List String} {input : List UInt8}
      {source : Source} {hex : String},
      machine.Asks words input settings (.encode source .hex) →
      machine.Prints words input hex → hex.length < 2 ^ 63 →
      ∃ json plain : String,
        machine.Yields settings input (.encode source .text) plain ∧
        (∀ word, Hex.SpelledBy word hex → ∀ input',
          machine.Yields settings input' (.decode (.word word) .json) json ∧
            machine.Yields settings input' (.decode (.word word) .text) plain) ∧
        ∀ blanks : String, Json.AreBlanks blanks.toList →
          machine.Yields settings (Utf8.encode (json ++ blanks)) (.encode .input .hex) hex) ∧
    ∀ {machine : Machine} {settings : Settings} {input : List UInt8} {hex : String},
      machine.Configured settings →
      machine.Prints ["encode", "--format", "hex"] input hex → hex.length < 2 ^ 63 →
      ∃ json plain : String,
        machine.Prints ["encode", "--format", "rholang"] input plain ∧
        (∀ word, Hex.SpelledBy word hex → ∀ input',
          machine.Prints ["decode", word] input' json ∧
            machine.Prints ["decode", word, "--format", "rholang"] input' plain) ∧
        machine.Prints ["encode", "--format", "hex"] (Utf8.encode json) hex ∧
        machine.Prints ["encode", "--format", "hex"] (Utf8.encode (json ++ "\n")) hex := by
  constructor
  · intro machine settings words input source hex h hprints hlen
    obtain ⟨json, plain, htext, hword, hagain⟩ := exists_yields h hprints hlen
    exact ⟨json, plain, htext, fun word hspelled => (hword word hspelled).2, hagain⟩
  · intro machine settings input hex hsettings hprints hlen
    have hload := result_loadOrCommon hsettings
    have hencode : ∀ input, machine.Asks ["encode", "--format", "hex"] input settings
        (.encode .input .hex) := fun input => ⟨Request.commonSettings, {}, rfl, hload input⟩
    obtain ⟨json, plain, htext, hword, hagain⟩ := exists_yields (hencode input) hprints hlen
    refine ⟨json, plain, ?_, fun word hspelled input' => ?_, ?_, ?_⟩
    · exact htext _ ⟨Request.commonSettings, {}, rfl, hload input⟩
    · obtain ⟨hdash, hyields⟩ := hword word hspelled
      obtain ⟨hjson, hplain⟩ := hyields input'
      exact ⟨hjson _ ⟨Request.commonSettings, {}, Request.ofWords_decode hdash, hload input'⟩,
        hplain _ ⟨Request.commonSettings, {}, Request.ofWords_decode_text hdash, hload input'⟩⟩
    · have hprints' := hagain "" Json.areBlanks_nil _ (hencode _)
      rwa [String.append_empty] at hprints'
    · have hblanks : Json.AreBlanks "\n".toList := List.forall_mem_singleton.mpr rfl
      exact hagain "\n" hblanks _ (hencode _)

/-- The settings ask for one line; an object holds an empty one, and its digits are decoded from a
word with the mark and blanks about it. -/
theorem hex_loop_emptyMap :
    let file := (["w", "rho.toml"], Utf8.encode "[output]\npretty = false\n")
    let machine : Machine := ⟨["w"], [], [file]⟩
    let input := Utf8.encode "\x7b\"b\":\x7b\x7d\x7d"
    let hex := "0a090a052a031a01621200"
    let word := " 0x0a090a052a031a01621200\n"
    machine.Configured ⟨{}, false⟩ ∧
      machine.Prints ["encode", "--format", "hex"] input hex ∧
      ∃ json plain : String, machine.Prints ["encode", "--format", "rholang"] input plain ∧
        machine.Prints ["decode", word] [] json ∧
        machine.Prints ["decode", word, "--format", "rholang"] [] plain ∧
        machine.Prints ["encode", "--format", "hex"] (Utf8.encode (json ++ "\n")) hex := by
  intro file machine input hex word
  have hparse : Settings.parse "[output]\npretty = false\n" = .ok ⟨{}, false⟩ :=
    eq_ok_of_toOption (by decide +kernel)
  have hfolder : machine.isFolder machine.commonRow = false := by decide +kernel
  have hsettings : machine.Configured ⟨{}, false⟩ := ⟨hfolder, _, Utf8.decode_encode _, hparse⟩
  have hordered : (Value.map [("b", .map [])]).Ordered :=
    ⟨List.pairwise_singleton _ _, ⟨List.Pairwise.nil, trivial⟩, trivial⟩
  have hrender : Settings.render ⟨{}, false⟩ (Value.map [("b", .map [])]).toJson ++ .ofList [] =
      "\x7b\"b\":\x7b\x7d\x7d" := by decide +kernel
  have hjson := Json.parse?_render (n := Json.nestingLimit) ⟨{}, false⟩ hordered (by decide)
    Json.areBlanks_nil
  rw [hrender] at hjson
  have hfinds : (machine.surroundings input).Finds .input (.map [("b", .map [])]) :=
    finds_of_parse? hjson (Value.ofJson?_toJson _)
  have hbytes : (Codec.toBytes {} (Value.map [("b", .map [])]).toTerm).result =
      .ok [10, 9, 10, 5, 42, 3, 26, 1, 98, 18, 0] :=
    Codec.toBytes_eq_ok.mpr ⟨⟨⟨trivial, trivial⟩, by decide⟩, by decide +kernel⟩
  have hasks : machine.Asks ["encode", "--format", "hex"] input ⟨{}, false⟩
      (.encode .input .hex) := ⟨Request.commonSettings, {}, rfl, result_loadOrCommon hsettings input⟩
  have hhex : Hex.encode [10, 9, 10, 5, 42, 3, 26, 1, 98, 18, 0] = hex := by decide
  have hprints : machine.Prints ["encode", "--format", "hex"] input hex := by
    rw [← hhex]
    exact yields_encode_hex hfinds hbytes _ hasks
  have hchars : word.toList = [' '] ++ (['0', 'x'] ++ hex.toList) ++ ['\n'] := by decide
  have hword : Hex.SpelledBy word hex :=
    ⟨[' '], ['0', 'x'], ['\n'], hchars, .inr rfl, List.forall_mem_singleton.mpr rfl,
      List.forall_mem_singleton.mpr rfl⟩
  obtain ⟨json, plain, hplain, hdecode, -, hagain⟩ := hex_loop.2 hsettings hprints (by decide)
  obtain ⟨hdecoded, htext⟩ := hdecode word hword []
  exact ⟨hsettings, hprints, json, plain, hplain, hdecoded, htext, hagain⟩

end Machine
end DataTerms
