import PromptRegistry.Console.Command
import PromptRegistry.Proofs.Prompt.Messages
import PromptRegistry.Proofs.Prompt.RoundTrip

/-! # Kinds of specifications -/

namespace PromptRegistry

open Json

namespace Spec

/-- A specification that is made by the constructor and changed by setters. -/
inductive Built : Spec → Prop
  | ofBody (name : String) (prompt : Body) : Built (.ofBody name prompt)
  | commitMessage {spec : Spec} (text : String) (h : Built spec) :
      Built { spec with commitMessage := some text }
  | labels {spec : Spec} (labels : List String) (h : Built spec) :
      Built { spec with labels := labels }
  | tags {spec : Spec} (tags : List String) (h : Built spec) : Built { spec with tags := tags }

theorem Built.kind_eq {spec : Spec} (h : spec.Built) : spec.kind = spec.prompt.kind := by
  induction h with
  | ofBody name prompt => rfl
  | commitMessage text h ih => exact ih
  | labels labels h ih => exact ih
  | tags tags h ih => exact ih

def statedKind? (document : Tree) : Option Kind :=
  (fields.found? "type" document).bind fun tree => (Kind.decoder tree).toOption

def HasTextPrompt (document : Tree) : Prop :=
  ∃ template, fields.found? "prompt" document = some (.string template)

theorem found_of_decoder {document : Tree} {spec : Spec} (h : Spec.decoder document = .ok spec) :
    (∃ tree, fields.found? "type" document = some tree ∧ Kind.decoder tree = .ok spec.kind) ∧
      ∃ tree, fields.found? "prompt" document = some tree ∧
        Body.decoder (nestingLimit - 1) tree = .ok spec.prompt := by
  obtain ⟨missing, h⟩ := Fields.make_of_decoder h
  obtain ⟨_, tags, h₁, -, rfl⟩ := Fields.make_and.mp h
  obtain ⟨_, labels, h₂, -, rfl⟩ := Fields.make_and.mp h₁
  obtain ⟨_, commitMessage, h₃, -, rfl⟩ := Fields.make_and.mp h₂
  obtain ⟨_, prompt, h₄, hprompt, rfl⟩ := Fields.make_and.mp h₃
  obtain ⟨_, kind, h₅, hkind, rfl⟩ := Fields.make_and.mp h₄
  obtain ⟨_, name, h₆, -, rfl⟩ := Fields.make_and.mp h₅
  obtain rfl := Except.ok.inj h₆
  exact ⟨Fields.make_required.mp hkind, Fields.make_required.mp hprompt⟩

theorem statedKind?_of_decoder {document : Tree} {spec : Spec}
    (h : Spec.decoder document = .ok spec) : statedKind? document = some spec.kind := by
  obtain ⟨⟨tree, hfound, hkind⟩, -⟩ := found_of_decoder h
  rw [statedKind?, hfound, Option.bind_some, hkind]
  rfl

end Spec

theorem Body.kind_eq_text_iff {levels : Nat} {tree : Tree} {body : Body}
    (h : Body.decoder levels tree = .ok body) :
    body.kind = .text ↔ ∃ template, tree = .string template := by
  obtain ⟨-, hread⟩ := Body.decoder_eq_ok_iff.mp h
  cases hread with
  | @text template htext => exact ⟨fun _ => ⟨template, htext⟩, fun _ => rfl⟩
  | chat hmessages =>
      constructor
      · intro hkind
        cases hkind
      · intro htext
        obtain ⟨template, rfl⟩ := htext
        cases hmessages

namespace Spec

theorem prompt_kind_eq_text_iff {document : Tree} {spec : Spec}
    (h : Spec.decoder document = .ok spec) :
    spec.prompt.kind = .text ↔ HasTextPrompt document := by
  obtain ⟨-, tree, hfound, hprompt⟩ := found_of_decoder h
  rw [Body.kind_eq_text_iff hprompt, HasTextPrompt, hfound]
  simp

/-- A built specification has the kind of its body. One that is read has the kind that its document
states, which is that of its body exactly when it is the kind for a text and the prompt is one text,
or neither. The command line takes what is read, and every specification can be read. -/
theorem kind_matches_prompt_iff (spec : Spec) :
    (spec.Built → spec.kind = spec.prompt.kind) ∧
      (∀ text, Spec.decoder.run text = .ok spec →
        statedKind? (Tree.ofText text.toList).1 = some spec.kind ∧
          (spec.kind = spec.prompt.kind ↔
            (spec.kind = .text ↔ HasTextPrompt (Tree.ofText text.toList).1))) ∧
      (∀ path content, Command.readSpec path content = .ok spec ↔
        ∃ text, content = some text ∧ Spec.decoder.run text = .ok spec) ∧
      Spec.decoder.run spec.json.compact = .ok spec := by
  refine ⟨fun h => h.kind_eq, fun text hread => ?_, fun path content => ?_, ?_⟩
  · have hdocument := (Decoder.run_eq_ok_iff.mp hread).1
    refine ⟨statedKind?_of_decoder hdocument, ?_⟩
    rw [← prompt_kind_eq_text_iff hdocument]
    cases spec.kind <;> cases spec.prompt.kind <;> simp
  · cases content with
    | none => simp [Command.readSpec]
    | some text =>
        cases hread : Spec.decoder.run text <;>
          simp [Command.readSpec, hread, within, Except.mapError]
  · exact Decoder.run_compact spec.json_isExact spec.decoder_json

/-- Here an array of the fields is read whose kind is not that of its prompt, while the constructor
makes the kind that of the same prompt. -/
theorem kind_differs_from_prompt_in_array :
    let text := "[\"n\",\"text\",[]]"
    let spec : Spec := ⟨"n", .text, .chat [], none, [], []⟩
    let built := { Spec.ofBody "n" (.chat []) with tags := ["t"] }
    built.Built ∧ built.kind = built.prompt.kind ∧ Spec.decoder.run text = .ok spec ∧
      ¬(spec.kind = .text ↔ HasTextPrompt (Tree.ofText text.toList).1) := by
  intro text spec built
  have hbuilt : built.Built := .tags ["t"] (.ofBody "n" (.chat []))
  have htext : text = (Json.array [.string "n", .string "text", .array []]).compact := by decide
  have hread : Spec.decoder.run text = .ok spec := by
    rw [htext]
    exact Decoder.run_compact (by decide) rfl
  have hiff := ((kind_matches_prompt_iff spec).2.1 text hread).2
  have hne : spec.kind ≠ spec.prompt.kind := by decide
  exact ⟨hbuilt, (kind_matches_prompt_iff built).1 hbuilt, hread, fun h => hne (hiff.mpr h)⟩

/-- The command line takes a document that states one kind and has a prompt of the other. -/
theorem mismatched_document_is_read :
    ∃ text spec, Command.readSpec "spec.json" (some text) = .ok spec ∧
      Spec.decoder.run text = .ok spec ∧ spec.kind ≠ spec.prompt.kind := by
  let document : Json :=
    .object [("name", .string "n"), ("type", .string "chat"), ("prompt", .string "x")]
  have hdocument : document.compact =
      "\x7b\"name\":\"n\",\"type\":\"chat\",\"prompt\":\"x\"\x7d" := by decide
  have hread : Spec.decoder.run document.compact =
      .ok ⟨"n", .chat, .text "x", none, [], []⟩ := Decoder.run_compact rfl rfl
  rw [hdocument] at hread
  refine ⟨_, _, ?_, hread, ?_⟩
  · rw [Command.readSpec, hread]
    rfl
  · decide

end Spec

end PromptRegistry
