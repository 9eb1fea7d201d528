import PromptRegistry.Prompt.Wire
import PromptRegistry.Proofs.Json.Fields
import PromptRegistry.Proofs.Json.Printed
import PromptRegistry.Proofs.Json.Word

namespace PromptRegistry

open Json

namespace Json

variable {α : Type}

theorem Decoder.list_ofValue {decoder : Decoder α} {json : α → Json} {values : List α}
    (h : ∀ value ∈ values, decoder (.ofValue (json value)) = .ok value) :
    Decoder.list decoder (.ofValue (.array (values.map json))) = .ok values := by
  have hitems : ((values.map json).map Tree.ofValue).mapM decoder = .ok values := by
    induction values with
    | nil => rfl
    | cons value values ih =>
        obtain ⟨hvalue, hvalues⟩ := List.forall_mem_cons.mp h
        rw [List.map_cons, List.map_cons, List.mapM_cons, hvalue, ih hvalues]
        rfl
  rw [Tree.ofValue, Tree.ofItems_eq_map, Decoder.list, hitems]
  rfl

@[simp] theorem Decoder.list_ofStrings (texts : List String) :
    Decoder.list Decoder.text (.ofValue (.ofStrings texts)) = .ok texts :=
  Decoder.list_ofValue fun _ _ => rfl

@[simp] theorem Decoder.optional_ofOption (text : Option String) :
    Decoder.optional Decoder.text (.ofValue (.ofOption text)) = .ok text := by
  cases text <;> rfl

@[simp] theorem ofStrings_isExact (texts : List String) : (ofStrings texts).isExact = true := by
  simp [ofStrings, isExact, itemsExact_iff]

@[simp] theorem ofOption_isExact (text : Option String) : (ofOption text).isExact = true := by
  cases text <;> rfl

end Json

@[simp] theorem Kind.decoder_json (kind : Kind) : Kind.decoder (.ofValue kind.json) = .ok kind := by
  rw [Kind.json, Tree.ofValue, Kind.decoder, Kind.decoder.ofName, Kind.ofName?_name]

@[simp] theorem Kind.json_isExact (kind : Kind) : kind.json.isExact = true := rfl

theorem Message.decoder_of_members {message : Message} {members : List (String × Json)}
    (hnodup : (members.map Prod.fst).Nodup)
    (hrole : valueAt? "role" members = some (.string message.role))
    (hcontent : valueAt? "content" members = some (.string message.content)) :
    Message.decoder (.ofValue (.object members)) = .ok message := by
  have hrole : (Fields.required "role" Decoder.text).Reads members message.role :=
    .required hnodup hrole rfl
  have hcontent : (Fields.required "content" Decoder.text).Reads members message.content :=
    .required hnodup hcontent rfl
  exact ((Fields.Reads.pure.and hrole).and hcontent).decoder_eq_ok _ hnodup

@[simp] theorem Message.decoder_json (message : Message) :
    Message.decoder (.ofValue message.json) = .ok message :=
  decoder_of_members (by simp) (by simp [valueAt?]) (by simp [valueAt?])

@[simp] theorem messagesDecoder_json (messages : List Message) :
    messagesDecoder (.ofValue (messagesJson messages)) = .ok messages :=
  Decoder.list_ofValue fun message _ => message.decoder_json

@[simp] theorem messagesJson_isExact (messages : List Message) :
    (messagesJson messages).isExact = true := by
  simp [messagesJson, isExact, itemsExact_iff, Message.json, membersExact_iff]

namespace Body

@[simp] theorem json_isExact (body : Body) : body.json.isExact = true := by
  cases body with
  | text template => rfl
  | chat messages => exact messagesJson_isExact messages

theorem json_depth_le (body : Body) : body.json.depth ≤ 2 := by
  cases body with
  | text template => exact Nat.zero_le 2
  | chat messages =>
      rw [json, messagesJson, depth]
      apply Nat.succ_le_succ
      rw [itemsDepth_le_iff]
      intro item hitem
      obtain ⟨message, -, rfl⟩ := List.mem_map.mp hitem
      simp [Message.json, depth, membersDepth]

@[simp] theorem ofValue?_json (body : Body) : ofValue? body.json = some body := by
  cases body with
  | text template => rfl
  | chat messages =>
      have hmessages := messagesDecoder_json messages
      rw [messagesJson] at hmessages
      rw [json, messagesJson, ofValue?, hmessages]
      · rfl
      · intro template h
        cases h

theorem decoder_json {levels : Nat} (h : 2 ≤ levels) (body : Body) :
    Body.decoder levels (.ofValue body.json) = .ok body := by
  simp [Body.decoder, Tree.value?_ofValue levels _ (le_trans body.json_depth_le h)]

end Body

namespace Bindings

theorem decodeMembers_of_ascending {entries : List (String × String)} {bindings : Bindings}
    (h : (bindings.entries ++ entries).Pairwise (·.1 < ·.1)) :
    decodeMembers (Tree.ofMembers (entries.map fun entry => (entry.1, .string entry.2))) bindings =
      .ok ⟨bindings.entries ++ entries, h⟩ := by
  induction entries generalizing bindings with
  | nil =>
      simp only [List.append_nil]
      rfl
  | cons entry entries ih =>
      have hgreater : ∀ other ∈ bindings.entries, other.1 < entry.1 := fun other hother =>
        (List.pairwise_append.mp h).2.2 other hother entry List.mem_cons_self
      have hinsert : (bindings.insert entry.1 entry.2).entries = bindings.entries ++ [entry] :=
        insertEntry_of_greater entry.2 hgreater
      have hrest : ((bindings.insert entry.1 entry.2).entries ++ entries).Pairwise
          (·.1 < ·.1) := by
        rw [hinsert, ← List.append_cons]
        exact h
      rw [List.map_cons, Tree.ofMembers, decodeMembers]
      change decodeMembers _ (bindings.insert entry.1 entry.2) = _
      rw [ih hrest]
      simp [hinsert]

@[simp] theorem decoder_json (bindings : Bindings) :
    Bindings.decoder (.ofValue bindings.json) = .ok bindings := by
  have hascending : ((Index.empty : Bindings).entries ++ bindings.entries).Pairwise
      (·.1 < ·.1) := bindings.ascending
  have hmembers := decodeMembers_of_ascending hascending
  rw [json, Tree.ofValue, decoder, hmembers]
  rfl

@[simp] theorem json_isExact (bindings : Bindings) : bindings.json.isExact = true := by
  rw [json, isExact, membersExact_iff]
  intro member hmember
  obtain ⟨entry, -, rfl⟩ := List.mem_map.mp hmember
  rfl

end Bindings

namespace Spec

def members (spec : Spec) : List (String × Json) :=
  [("name", .string spec.name), ("type", spec.kind.json), ("prompt", spec.prompt.json)] ++
    (spec.commitMessage.toList.map fun text => ("commitMessage", .string text)) ++
    (if spec.labels.isEmpty then [] else [("labels", .ofStrings spec.labels)]) ++
    (if spec.tags.isEmpty then [] else [("tags", .ofStrings spec.tags)])

theorem json_eq (spec : Spec) : spec.json = .object spec.members := rfl

theorem members_nodup (spec : Spec) : (spec.members.map Prod.fst).Nodup := by
  rw [members]
  cases spec.commitMessage <;> split <;> split <;> simp

theorem valueAt?_members (spec : Spec) (name : String) :
    valueAt? name spec.members =
      if name = "name" then some (.string spec.name)
      else if name = "type" then some spec.kind.json
      else if name = "prompt" then some spec.prompt.json
      else if name = "commitMessage" then spec.commitMessage.map .string
      else if name = "labels" then
        if spec.labels.isEmpty then none else some (.ofStrings spec.labels)
      else if name = "tags" then
        if spec.tags.isEmpty then none else some (.ofStrings spec.tags)
      else none := by
  simp only [members, valueAt?_append, valueAt?]
  cases spec.commitMessage <;> split_ifs <;> simp_all [valueAt?]

variable (spec : Spec)

theorem reads_name : (Fields.required "name" Decoder.text).Reads spec.members spec.name :=
  .required spec.members_nodup (spec.valueAt?_members _) rfl

theorem reads_kind : (Fields.required "type" Kind.decoder).Reads spec.members spec.kind :=
  .required spec.members_nodup (spec.valueAt?_members _) spec.kind.decoder_json

theorem reads_prompt : (Fields.required "prompt" (Body.decoder (nestingLimit - 1))).Reads
    spec.members spec.prompt :=
  .required spec.members_nodup (spec.valueAt?_members _) (Body.decoder_json (by decide) spec.prompt)

theorem reads_commitMessage :
    (Fields.withDefault "commitMessage" none (Decoder.optional Decoder.text)).Reads spec.members
      spec.commitMessage := by
  apply Fields.Reads.withDefault spec.members_nodup
  simp only [valueAt?_members, String.reduceEq, if_false, if_true]
  cases spec.commitMessage <;> rfl

theorem reads_labels : (Fields.withDefault "labels" [] (Decoder.list Decoder.text)).Reads
    spec.members spec.labels := by
  apply Fields.Reads.withDefault spec.members_nodup
  simp only [valueAt?_members, String.reduceEq, if_false, if_true]
  split <;> simp_all

theorem reads_tags : (Fields.withDefault "tags" [] (Decoder.list Decoder.text)).Reads
    spec.members spec.tags := by
  apply Fields.Reads.withDefault spec.members_nodup
  simp only [valueAt?_members, String.reduceEq, if_false, if_true]
  split <;> simp_all

@[simp] theorem decoder_json : Spec.decoder (.ofValue spec.json) = .ok spec := by
  have hreads : fields.Reads spec.members spec :=
    (((((Fields.Reads.pure.and spec.reads_name).and spec.reads_kind).and spec.reads_prompt).and
      spec.reads_commitMessage).and spec.reads_labels).and spec.reads_tags
  exact hreads.decoder_eq_ok _ spec.members_nodup

@[simp] theorem json_isExact : spec.json.isExact = true := by
  rw [json_eq, isExact, membersExact_iff, members]
  cases spec.commitMessage <;> split_ifs <;> simp [isExact]

end Spec

namespace Record

variable {record : Record}

def members (record : Record) : List (String × Json) :=
  [("id", .string record.id), ("name", .string record.name),
    ("version", .number (.integer record.version)), ("type", record.kind.json),
    ("prompt", record.prompt.json), ("labels", .ofStrings record.labels),
    ("tags", .ofStrings record.tags), ("commitMessage", .ofOption record.commitMessage),
    ("config", record.config), ("createdAt", .ofOption record.createdAt),
    ("updatedAt", .ofOption record.updatedAt), ("projectId", .ofOption record.projectId),
    ("createdBy", .ofOption record.createdBy)]

theorem json_eq (record : Record) : record.json = .object record.members := rfl

theorem members_nodup (record : Record) : (record.members.map Prod.fst).Nodup := by
  simp [members]

theorem reads_member {α : Type} {name : String} {default a : α} {decoder : Decoder α}
    (value : Json) (hmember : (name, value) ∈ record.members)
    (hdecoder : decoder (.ofValue value) = .ok a) :
    (Fields.withDefault name default decoder).Reads record.members a := by
  apply Fields.Reads.withDefault record.members_nodup
  rw [valueAt?_eq_some_of_mem record.members_nodup hmember]
  exact hdecoder

theorem reads_required {α : Type} {name : String} {a : α} {decoder : Decoder α}
    (value : Json) (hmember : (name, value) ∈ record.members)
    (hdecoder : decoder (.ofValue value) = .ok a) :
    (Fields.required name decoder).Reads record.members a :=
  .required record.members_nodup (valueAt?_eq_some_of_mem record.members_nodup hmember) hdecoder

/-- A configuration that the decoder of records gives. -/
structure HasReadConfig (record : Record) : Prop where
  depth : record.config.depth ≤ nestingLimit - 1
  canonical : record.config.canonical = record.config

theorem configDecoder_config (h : record.HasReadConfig) :
    fields.configDecoder (.ofValue record.config) = .ok record.config := by
  rw [fields.configDecoder, Decoder.value, Tree.value?_ofValue _ _ h.depth]
  exact congrArg Except.ok h.canonical

theorem decoder_json (h : record.HasReadConfig) :
    Record.decoder (.ofValue record.json) = .ok record := by
  have hid : (Fields.withDefault "id" "" Decoder.text).Reads record.members record.id :=
    reads_member (.string record.id) (by simp [members]) rfl
  have hname : (Fields.required "name" Decoder.text).Reads record.members record.name :=
    reads_required (.string record.name) (by simp [members]) rfl
  have hversion : (Fields.withDefault "version" 0 Decoder.word).Reads record.members
      record.version :=
    reads_member (.number (.integer record.version)) (by simp [members])
      (by simp [Tree.ofValue, Decoder.word])
  have hkind : (Fields.required "type" Kind.decoder).Reads record.members record.kind :=
    reads_required record.kind.json (by simp [members]) record.kind.decoder_json
  have hprompt : (Fields.required "prompt" (Body.decoder (nestingLimit - 1))).Reads
      record.members record.prompt :=
    reads_required record.prompt.json (by simp [members])
      (Body.decoder_json (by decide) record.prompt)
  have hlabels : (Fields.withDefault "labels" [] (Decoder.list Decoder.text)).Reads
      record.members record.labels :=
    reads_member _ (by simp [members]) (Decoder.list_ofStrings record.labels)
  have htags : (Fields.withDefault "tags" [] (Decoder.list Decoder.text)).Reads
      record.members record.tags :=
    reads_member _ (by simp [members]) (Decoder.list_ofStrings record.tags)
  have hconfig : (Fields.withDefault "config" .null fields.configDecoder).Reads
      record.members record.config :=
    reads_member record.config (by simp [members]) (configDecoder_config h)
  have htext {name : String} {text : Option String}
      (hmember : (name, Json.ofOption text) ∈ record.members) :
      (optionalText name).Reads record.members text :=
    reads_member _ hmember (Decoder.optional_ofOption text)
  have hreads : fields.Reads record.members record :=
    ((((((((((((Fields.Reads.pure.and hid).and hname).and hversion).and hkind).and hprompt).and
      hlabels).and htags).and (htext (by simp [members]))).and hconfig).and
      (htext (by simp [members]))).and (htext (by simp [members]))).and
      (htext (by simp [members]))).and (htext (by simp [members]))
  exact hreads.decoder_eq_ok _ record.members_nodup

theorem json_isExact (hversion : record.version ≤ maxWord)
    (hconfig : record.config.isExact = true) : record.json.isExact = true := by
  have hword : IsWord record.version := ⟨by omega, Int.ofNat_le.mpr hversion⟩
  simp [json_eq, members, isExact, membersExact, hword, hconfig]

theorem found_of_decoder {tree : Tree} (h : Record.decoder tree = .ok record) :
    (fields.found? "version" tree).elim (.ok 0) Decoder.word = .ok record.version ∧
      (fields.found? "config" tree).elim (.ok .null) fields.configDecoder = .ok record.config := by
  obtain ⟨missing, h⟩ := Fields.make_of_decoder h
  obtain ⟨_, createdBy, h₁, -, rfl⟩ := Fields.make_and.mp h
  obtain ⟨_, projectId, h₂, -, rfl⟩ := Fields.make_and.mp h₁
  obtain ⟨_, updatedAt, h₃, -, rfl⟩ := Fields.make_and.mp h₂
  obtain ⟨_, createdAt, h₄, -, rfl⟩ := Fields.make_and.mp h₃
  obtain ⟨_, config, h₅, hconfig, rfl⟩ := Fields.make_and.mp h₄
  obtain ⟨_, commitMessage, h₆, -, rfl⟩ := Fields.make_and.mp h₅
  obtain ⟨_, tags, h₇, -, rfl⟩ := Fields.make_and.mp h₆
  obtain ⟨_, labels, h₈, -, rfl⟩ := Fields.make_and.mp h₇
  obtain ⟨_, prompt, h₉, -, rfl⟩ := Fields.make_and.mp h₈
  obtain ⟨_, kind, h₁₀, -, rfl⟩ := Fields.make_and.mp h₉
  obtain ⟨_, version, h₁₁, hversion, rfl⟩ := Fields.make_and.mp h₁₀
  obtain ⟨_, name, h₁₂, -, rfl⟩ := Fields.make_and.mp h₁₁
  obtain ⟨_, id, h₁₃, -, rfl⟩ := Fields.make_and.mp h₁₂
  obtain rfl := Except.ok.inj h₁₃
  exact ⟨Fields.make_withDefault.symm.trans hversion, Fields.make_withDefault.symm.trans hconfig⟩

theorem hasReadConfig_of_decoder {tree : Tree} (h : Record.decoder tree = .ok record) :
    record.HasReadConfig := by
  have hconfig := (found_of_decoder h).2
  cases hfound : fields.found? "config" tree with
  | none =>
      rw [hfound] at hconfig
      obtain heq : Json.null = record.config := Except.ok.inj hconfig
      exact ⟨heq ▸ Nat.zero_le _, heq ▸ rfl⟩
  | some configTree =>
      rw [hfound, Option.elim_some, fields.configDecoder, Decoder.value] at hconfig
      cases hvalue : configTree.value? (nestingLimit - 1) with
      | none => simp [hvalue, Except.map] at hconfig
      | some value =>
          rw [hvalue] at hconfig
          obtain heq : value.canonical = record.config := Except.ok.inj hconfig
          have hdepth := Tree.depth_le_of_value? _ configTree hvalue
          exact ⟨heq ▸ canonical_depth_le _ value hdepth, heq ▸ canonical_canonical value⟩

theorem version_le_of_decoder {tree : Tree} (htree : tree.IsWorded)
    (h : Record.decoder tree = .ok record) : record.version ≤ maxWord := by
  have hversion := (found_of_decoder h).1
  cases hfound : fields.found? "version" tree with
  | none =>
      rw [hfound] at hversion
      obtain heq : 0 = record.version := Except.ok.inj hversion
      exact heq ▸ Nat.zero_le _
  | some versionTree =>
      rw [hfound, Option.elim_some] at hversion
      have hworded := Fields.found?_worded htree hfound
      unfold Decoder.word at hversion
      split at hversion
      case h_1 value =>
        have hword : IsWord value := hworded
        split at hversion
        case isTrue =>
          obtain heq : value.toNat = record.version := Except.ok.inj hversion
          have := hword.2
          omega
        case isFalse => cases hversion
      case h_2 => cases hversion

end Record

end PromptRegistry
