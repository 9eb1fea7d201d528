import PromptRegistry.Proofs.Prompt.Messages
import PromptRegistry.Remote.Client

namespace PromptRegistry

open Json

theorem Message.isSpelledBy_canonical_iff {value : Json} (h : value.hasDistinctNames = true)
    {message : Message} : message.IsSpelledBy value.canonical ↔ message.IsSpelledBy value := by
  have hmember (members : List (String × Json)) (name text : String)
      (hnodup : (members.map Prod.fst).Nodup) :
      valueAt? name (canonicalMembers members []) = some (.string text) ↔
        valueAt? name members = some (.string text) := by
    rw [valueAt?_canonicalMembers_of_nodup hnodup, Option.map_eq_some_iff]
    simp only [canonical_eq_string_iff, exists_eq_right]
  constructor
  · intro hspelled
    cases value with
    | object members =>
        have hnodup := names_nodup_of_distinct h
        rw [canonical] at hspelled
        cases hspelled with
        | object hrole hcontent =>
            exact .object ((hmember members _ _ hnodup).mp hrole)
              ((hmember members _ _ hnodup).mp hcontent)
    | array items =>
        rw [canonical, canonicalItems_eq_map] at hspelled
        generalize hitems : items.map canonical = sorted at hspelled
        cases hspelled with
        | array =>
            obtain ⟨role, rest, rfl, hrole, hrest⟩ := List.map_eq_cons_iff.mp hitems
            obtain ⟨content, rest, rfl, hcontent, hnone⟩ := List.map_eq_cons_iff.mp hrest
            obtain rfl := List.map_eq_nil_iff.mp hnone
            obtain rfl := canonical_eq_string_iff.mp hrole
            obtain rfl := canonical_eq_string_iff.mp hcontent
            exact .array
    | _ => cases hspelled
  · intro hspelled
    cases hspelled with
    | @object members hrole hcontent =>
        have hnodup := names_nodup_of_distinct h
        exact .object ((hmember members _ _ hnodup).mpr hrole)
          ((hmember members _ _ hnodup).mpr hcontent)
    | array => exact .array

theorem Message.decoder_canonical_iff {value : Json} (h : value.hasDistinctNames = true)
    {message : Message} : Message.decoder (.ofValue value.canonical) = .ok message ↔
      message.IsSpelledBy value := by
  rw [← isSpelledBy_canonical_iff h]
  apply decoder_ofValue_eq_ok_iff
  intro members hmembers
  cases value with
  | object members' =>
      obtain rfl := Json.object.inj hmembers
      exact canonicalMembers_nodup members'
  | _ => cases hmembers

theorem Message.decoder_distinct_iff {value : Json} (h : value.hasDistinctNames = true)
    {message : Message} : Message.decoder (.ofValue value) = .ok message ↔
      message.IsSpelledBy value := by
  apply decoder_ofValue_eq_ok_iff
  intro members hmembers
  subst hmembers
  exact names_nodup_of_distinct h

theorem forall₂_congr_of_mem {α β : Type} {r q : α → β → Prop} {items : List α}
    {values : List β} (h : ∀ item ∈ items, ∀ value, r item value ↔ q item value) :
    List.Forall₂ r items values ↔ List.Forall₂ q items values := by
  induction items generalizing values with
  | nil => cases values <;> simp
  | cons item items ih =>
      obtain ⟨hitem, hitems⟩ := List.forall_mem_cons.mp h
      cases values with
      | nil => simp
      | cons value values => rw [List.forall₂_cons, List.forall₂_cons, hitem, ih hitems]

theorem messagesDecoder_canonical_iff {value : Json} (h : value.hasDistinctNames = true)
    {messages : List Message} : messagesDecoder (.ofValue value.canonical) = .ok messages ↔
      messagesDecoder (.ofValue value) = .ok messages := by
  cases value with
  | array items =>
      have hitems := itemsHaveDistinctNames_iff.mp h
      have hread : List.Forall₂ (fun tree message => Message.decoder tree = .ok message)
            ((items.map canonical).map Tree.ofValue) messages ↔
          List.Forall₂ (fun tree message => Message.decoder tree = .ok message)
            (items.map Tree.ofValue) messages := by
        rw [List.map_map, List.forall₂_map_left_iff, List.forall₂_map_left_iff]
        apply forall₂_congr_of_mem
        intro item hitem message
        rw [Message.decoder_distinct_iff (hitems item hitem)]
        exact Message.decoder_canonical_iff (hitems item hitem)
      rw [canonical, canonicalItems_eq_map, messagesDecoder, Tree.ofValue, Tree.ofValue,
        Tree.ofItems_eq_map, Tree.ofItems_eq_map, Decoder.list_eq_ok_iff, Decoder.list_eq_ok_iff]
      simp only [Tree.array.injEq, and_true, exists_eq_left', hread]
  | _ => rfl

theorem Body.isReadFrom_canonical_iff {value : Json} (h : value.hasDistinctNames = true)
    {body : Body} :
    body.IsReadFrom (.ofValue value.canonical) ↔ body.IsReadFrom (.ofValue value) := by
  have hstring (template : String) :
      Tree.ofValue value.canonical = .string template ↔ Tree.ofValue value = .string template := by
    rw [Tree.ofValue_eq_string_iff, Tree.ofValue_eq_string_iff, canonical_eq_string_iff]
  constructor
  · intro hread
    cases hread with
    | text htext => exact .text ((hstring _).mp htext)
    | chat hmessages => exact .chat ((messagesDecoder_canonical_iff h).mp hmessages)
  · intro hread
    cases hread with
    | text htext => exact .text ((hstring _).mpr htext)
    | chat hmessages => exact .chat ((messagesDecoder_canonical_iff h).mpr hmessages)

namespace Remote.Envelope

private theorem within_eq_ok_iff {α β : Type} {title : String} {result : Except Fault α}
    {f : α → β} {b : β} : within title ((result.map f).mapError .json) = .ok b ↔
      ∃ a, result = .ok a ∧ f a = b := by
  cases result <;> simp [within, Except.map, Except.mapError]

/-- An envelope gives a body of its own type only. -/
theorem body_eq_ok_iff {kind : Kind} {value : Json} {body : Body} :
    Envelope.body ⟨kind.name, value⟩ = .ok body ↔
      body.IsReadFrom (.ofValue value) ∧ body.kind = kind := by
  unfold Envelope.body
  rw [Kind.ofName?_name]
  constructor
  · intro h
    cases kind with
    | text =>
        obtain ⟨template, htemplate, rfl⟩ := within_eq_ok_iff.mp h
        exact ⟨.text (Decoder.text_eq_ok_iff.mp htemplate), rfl⟩
    | chat =>
        obtain ⟨messages, hmessages, rfl⟩ := within_eq_ok_iff.mp h
        exact ⟨.chat hmessages, rfl⟩
  · intro h
    obtain ⟨hread, hkind⟩ := h
    subst hkind
    cases hread with
    | text htext => exact within_eq_ok_iff.mpr ⟨_, Decoder.text_eq_ok_iff.mpr htext, rfl⟩
    | chat hmessages => exact within_eq_ok_iff.mpr ⟨_, hmessages, rfl⟩

theorem body_canonical_iff {kind : Kind} {value : Json} {body : Body}
    (h : value.hasDistinctNames = true) :
    Envelope.body ⟨kind.name, value.canonical⟩ = .ok body ↔
      Body.ofValue? value = some body ∧ body.kind = kind := by
  rw [body_eq_ok_iff, Body.isReadFrom_canonical_iff h, Body.ofValue?_eq_some_iff]

theorem decoder_of_members {members : List (String × Json)} {kind : String} {value : Json}
    (hnodup : (members.map Prod.fst).Nodup) (hkind : valueAt? "type" members = some (.string kind))
    (hprompt : valueAt? "prompt" members = some value) (hdepth : value.depth < nestingLimit) :
    Envelope.decoder (.ofValue (.object members)) = .ok ⟨kind, value.canonical⟩ := by
  have hvalue : fields.promptDecoder (.ofValue value) = .ok value.canonical := by
    rw [fields.promptDecoder, Decoder.value,
      Tree.value?_ofValue (nestingLimit - 1) value (Nat.le_sub_one_of_lt hdepth)]
    rfl
  have hkind' : (Fields.required "type" Decoder.text).Reads members kind :=
    .required hnodup hkind rfl
  have hprompt' : (Fields.required "prompt" fields.promptDecoder).Reads members value.canonical :=
    .required hnodup hprompt hvalue
  exact ((Fields.Reads.pure.and hkind').and hprompt').decoder_eq_ok _ hnodup

/-- An envelope gives the body that its prompt is without an envelope, if that is of its type. So
no prompt has both types, and what is no body has none. Messages are spelled alike in both. -/
theorem envelope_gives_body_of_prompt (value : Json) (h : value.hasDistinctNames = true) :
    (∀ (kind : Kind) (body : Body), Envelope.body ⟨kind.name, value.canonical⟩ = .ok body ↔
      Body.ofValue? value = some body ∧ body.kind = kind) ∧
      (∀ first second : Body, Envelope.body ⟨Kind.text.name, value.canonical⟩ = .ok first →
        Envelope.body ⟨Kind.chat.name, value.canonical⟩ ≠ .ok second) ∧
      (Body.ofValue? value = none →
        ∀ kind : Kind, ∃ failure, Envelope.body ⟨kind.name, value.canonical⟩ = .error failure) ∧
      (∀ message : Message,
        (Message.decoder (.ofValue value) = .ok message ↔ message.IsSpelledBy value) ∧
          (Message.decoder (.ofValue value.canonical) = .ok message ↔
            message.IsSpelledBy value)) ∧
      (value.depth < nestingLimit →
        (∀ kind : Kind, Envelope.decoder
          (.ofValue (.object [("type", .string kind.name), ("prompt", value)])) =
            .ok ⟨kind.name, value.canonical⟩) ∧
        ∀ body : Body, Body.decoder (nestingLimit - 1) (.ofValue value) = .ok body ↔
          Body.ofValue? value = some body) := by
  refine ⟨fun kind body => body_canonical_iff h, fun first second hfirst hsecond => ?_,
    fun hnone kind => ?_,
    fun message => ⟨Message.decoder_distinct_iff h, Message.decoder_canonical_iff h⟩,
    fun hdepth => ⟨fun kind => decoder_of_members (by simp) rfl rfl hdepth, fun body => ?_⟩⟩
  · obtain ⟨hbody, htext⟩ := (body_canonical_iff h).mp hfirst
    obtain ⟨hbody', hchat⟩ := (body_canonical_iff h).mp hsecond
    obtain rfl : first = second := Option.some.inj (hbody.symm.trans hbody')
    rw [htext] at hchat
    cases hchat
  · cases hbody : Envelope.body ⟨kind.name, value.canonical⟩ with
    | error failure => exact ⟨failure, rfl⟩
    | ok body =>
        have hvalue := ((body_canonical_iff h).mp hbody).1
        rw [hnone] at hvalue
        cases hvalue
  · rw [Body.decoder_eq_ok_iff, Body.ofValue?_eq_some_iff, and_iff_right]
    exact Tree.isReadable_ofValue (Nat.le_sub_one_of_lt hdepth)

theorem odd_spellings_are_messages :
    let value : Json := .array
      [.object [("content", .string "x"), ("name", .array [.object []]), ("role", .string "r")],
        .array [.string "s", .string "y"]]
    let body : Body := .chat [⟨"r", "x"⟩, ⟨"s", "y"⟩]
    value.hasDistinctNames = true ∧ Body.ofValue? value = some body ∧
      Envelope.body ⟨Kind.chat.name, value.canonical⟩ = .ok body ∧
      value.depth < nestingLimit ∧
      Body.decoder (nestingLimit - 1) (.ofValue value) = .ok body := by
  intro value body
  have hnames : value.hasDistinctNames = true := by decide +kernel
  have hbody : Body.ofValue? value = some body := by decide +kernel
  have hdepth : value.depth < nestingLimit := by decide +kernel
  obtain ⟨hgives, -, -, -, hdecoders⟩ := envelope_gives_body_of_prompt value hnames
  exact ⟨hnames, hbody, (hgives .chat body).mpr ⟨hbody, rfl⟩, hdepth,
    ((hdecoders hdepth).2 body).mpr hbody⟩

end Remote.Envelope

end PromptRegistry
