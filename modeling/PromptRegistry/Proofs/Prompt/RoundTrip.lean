import PromptRegistry.Console.Command
import PromptRegistry.Proofs.Prompt.Wire
import PromptRegistry.Session.Service

/-! # Round trips -/

namespace PromptRegistry

open Json

/-- A value is read back from its text, and is then written as the same text again. -/
structure RoundTrips {α : Type} (decoder : Decoder α) (json : α → Json) (a : α) : Prop where
  compact : decoder.run (json a).compact = .ok a
  pretty : decoder.run (json a).pretty = .ok a
  compact_again : (decoder.run (json a).compact).map (fun b => (json b).compact) =
    .ok (json a).compact
  pretty_again : (decoder.run (json a).pretty).map (fun b => (json b).pretty) = .ok (json a).pretty

section

variable {α : Type} {decoder : Decoder α} {json : α → Json} {a : α}

theorem Json.Decoder.run_print {layout : Layout} (hlayout : layout.IsBlank) {value : Json}
    (hvalue : value.isExact = true) {blanks : List Char} (hblanks : ∀ c ∈ blanks, isBlank c = true)
    (hdecoder : decoder (.ofValue value) = .ok a) :
    decoder.run (String.ofList (value.print layout 0 ++ blanks)) = .ok a := by
  rw [Decoder.run_eq_ok_iff, String.toList_ofList, ofText_print hlayout hvalue hblanks]
  exact ⟨hdecoder, rfl⟩

theorem Json.Decoder.run_compact {value : Json} (hvalue : value.isExact = true)
    (hdecoder : decoder (.ofValue value) = .ok a) : decoder.run value.compact = .ok a := by
  rw [Json.compact, ← List.append_nil (print _ _ _)]
  exact run_print Layout.compact_isBlank hvalue (by simp) hdecoder

theorem Json.Decoder.run_pretty {value : Json} (hvalue : value.isExact = true)
    (hdecoder : decoder (.ofValue value) = .ok a) : decoder.run value.pretty = .ok a := by
  rw [Json.pretty, ← List.append_nil (print _ _ _)]
  exact run_print Layout.pretty_isBlank hvalue (by simp) hdecoder

theorem RoundTrips.of_decoder (hdecoder : decoder (.ofValue (json a)) = .ok a)
    (hexact : (json a).isExact = true) : RoundTrips decoder json a := by
  have hcompact := Decoder.run_compact hexact hdecoder
  have hpretty := Decoder.run_pretty hexact hdecoder
  exact ⟨hcompact, hpretty, by rw [hcompact]; rfl, by rw [hpretty]; rfl⟩

end

theorem Record.decoder_json_of_run {text : String} {record : Record}
    (h : Record.decoder.run text = .ok record) :
    Record.decoder (.ofValue record.json) = .ok record :=
  decoder_json (hasReadConfig_of_decoder (Decoder.run_eq_ok_iff.mp h).1)

theorem Record.json_isExact_of_run {text : String} {record : Record}
    (h : Record.decoder.run text = .ok record) (hconfig : record.config.isExact = true) :
    record.json.isExact = true :=
  json_isExact (version_le_of_decoder (Tree.ofText_worded _) (Decoder.run_eq_ok_iff.mp h).1) hconfig

theorem Served.outcome?_cons (task : Nat) (outcome : Outcome) (effects : List Session.Effect) :
    outcome? task (.finished task outcome :: effects) = some outcome := by
  simp [outcome?]

theorem Served.service_createPrompt (served : Served) (spec : Spec) :
    (Served.service.createPrompt spec served).1 =
      within (Session.createContext spec.name) (served.runner.source.create spec) := by
  have houtcome : (Served.perform (.create spec) served).1 = some (.created
      (within (Session.createContext spec.name) (served.runner.source.create spec))) :=
    outcome?_cons _ _ _
  obtain ⟨⟨outcome, after⟩, hperform⟩ : ∃ result, Served.perform (.create spec) served = result :=
    ⟨_, rfl⟩
  rw [hperform] at houtcome
  obtain rfl := houtcome
  simp only [Served.service, PromptService.ofPerform, bind, StateT.bind, hperform]
  rfl

theorem Command.run_create {served : Served} {files : String → Option String} {path : String}
    {spec : Spec} {record : Record} (hspec : readSpec path (files path) = .ok spec)
    (hrecord : served.runner.source.create spec = .ok record) :
    ((create path).run Served.service (fun path => pure (files path)) served).1 =
      .success (record.json.pretty ++ "\n") [.created record.name record.version] := by
  have hcreated := Served.service_createPrompt served spec
  obtain ⟨⟨created, after⟩, hservice⟩ :
      ∃ result, Served.service.createPrompt spec served = result := ⟨_, rfl⟩
  rw [hservice, hrecord] at hcreated
  obtain rfl := hcreated
  have hfile : (pure (files path) : StateM Served (Option String)) served =
      (files path, served) := rfl
  simp only [run, runCreate, bind, StateT.bind, hfile, hspec, hservice]
  rfl

/-- Reading undoes writing. What is printed for a created prompt is read as the record that the
source returned. -/
theorem written_text_is_read_back :
    (∀ message, RoundTrips Message.decoder Message.json message) ∧
      (∀ messages, RoundTrips messagesDecoder messagesJson messages) ∧
      (∀ body, RoundTrips (Body.decoder nestingLimit) Body.json body) ∧
      (∀ bindings, RoundTrips Bindings.decoder Bindings.json bindings) ∧
      (∀ spec, RoundTrips Spec.decoder Spec.json spec) ∧
      ∀ text record, Record.decoder.run text = .ok record → record.config.isExact = true →
        RoundTrips Record.decoder Record.json record ∧
          ∀ (served : Served) (files : String → Option String) (path : String) (spec : Spec),
            Command.readSpec path (files path) = .ok spec →
            served.runner.source.create spec = .ok record →
              Record.decoder.run ((Command.create path).run Served.service
                (fun path => pure (files path)) served).1.output = .ok record := by
  refine ⟨fun message => ?_, fun messages => ?_, fun body => ?_, fun bindings => ?_,
    fun spec => ?_, fun text record hread hconfig => ?_⟩
  · exact .of_decoder message.decoder_json (by simp [Message.json, isExact, membersExact])
  · exact .of_decoder (messagesDecoder_json messages) (messagesJson_isExact messages)
  · exact .of_decoder (body.decoder_json (by decide)) body.json_isExact
  · exact .of_decoder bindings.decoder_json bindings.json_isExact
  · exact .of_decoder spec.decoder_json spec.json_isExact
  · have hdecoder := Record.decoder_json_of_run hread
    have hexact := Record.json_isExact_of_run hread hconfig
    refine ⟨.of_decoder hdecoder hexact, fun served files path spec hspec hrecord => ?_⟩
    have houtput : record.json.pretty ++ "\n" =
        String.ofList (record.json.print .pretty 0 ++ ['\n']) := by
      rw [String.ofList_append]
      rfl
    rw [Command.run_create hspec hrecord, Report.success, houtput]
    exact Decoder.run_print Layout.pretty_isBlank hexact (by simp [isBlank]) hdecoder

/-- Here the source returns a record with a configuration, which was read from an array, for the
specification in a file. -/
theorem printed_record_is_read_back :
    let text := "[\"\",\"n\",1,\"text\",\"x\",[],[],null,[2,-3]]"
    let spec := Spec.ofBody "n" (.text "x")
    let record := spec.record "" 1 (.array [.number (.integer 2), .number (.integer (-3))])
    let served : Served := ⟨.ofSource ⟨fun _ => .error .transport, fun _ => .ok record⟩, []⟩
    let files : String → Option String := fun _ => some spec.json.compact
    Record.decoder.run text = .ok record ∧ record.config.isExact = true ∧
      RoundTrips Record.decoder Record.json record ∧
      Command.readSpec "path" (files "path") = .ok spec ∧
      served.runner.source.create spec = .ok record ∧
      Record.decoder.run ((Command.create "path").run Served.service
        (fun path => pure (files path)) served).1.output = .ok record := by
  intro text spec record served files
  have htext : text = (Json.array [.string "", .string "n", .number (.integer 1), .string "text",
      .string "x", .array [], .array [], .null, record.config]).compact := by decide
  have hread : Record.decoder.run text = .ok record := by
    rw [htext]
    exact Decoder.run_compact (by decide) rfl
  obtain ⟨-, -, -, -, hspecs, hrecords⟩ := written_text_is_read_back
  have hspec : Command.readSpec "path" (files "path") = .ok spec := by
    simp only [Command.readSpec, files, (hspecs spec).compact]
    rfl
  obtain ⟨hround, hprinted⟩ := hrecords text record hread rfl
  exact ⟨hread, rfl, hround, hspec, rfl, hprinted served files "path" spec hspec rfl⟩

end PromptRegistry
