import PromptRegistry.Proofs.Prompt.Consistency
import PromptRegistry.Proofs.Remote.Address
import PromptRegistry.Proofs.Remote.Credentials
import PromptRegistry.Proofs.Remote.Payload

/-! # What is posted can be fetched -/

namespace PromptRegistry

open Json

theorem Message.decoder_canonical (message : Message) :
    Message.decoder (.ofValue message.json.canonical) = .ok message := by
  have hcanonical : message.json.canonical =
      .object [("content", .string message.content), ("role", .string message.role)] := by
    have hlt : "content" < "role" := by decide
    simp only [Message.json, canonical, canonicalMembers, insertEntry, if_pos hlt]
  rw [hcanonical]
  exact decoder_of_members (by simp) (by simp [valueAt?]) (by simp [valueAt?])

theorem messagesDecoder_canonical (messages : List Message) :
    messagesDecoder (.ofValue (messagesJson messages).canonical) = .ok messages := by
  rw [messagesJson, canonical, canonicalItems_eq_map, List.map_map]
  exact Decoder.list_ofValue fun message _ => message.decoder_canonical

namespace Remote

theorem Envelope.decoder_json (spec : Spec) :
    Envelope.decoder (.ofValue spec.json) = .ok ⟨spec.kind.name, spec.prompt.json.canonical⟩ :=
  Envelope.decoder_of_members spec.members_nodup (spec.valueAt?_members _)
    (spec.valueAt?_members _) (spec.prompt.json_depth_le.trans_lt (by decide))

/-- Why a body is not read as one of the other kind. -/
def misread : Body → Failure
  | .text template =>
      .context "Chat prompt is not a list of messages"
        (.json (.wrongType (.string template) "a sequence"))
  | .chat _ => .context "Text prompt is not a string" (.json (.wrongType .sequence "a string"))

theorem Envelope.body_json (kind : Kind) (body : Body) :
    Envelope.body ⟨kind.name, body.json.canonical⟩ =
      if kind = body.kind then .ok body else .error (misread body) := by
  unfold Envelope.body
  rw [Kind.ofName?_name]
  cases body with
  | text template => cases kind <;> rfl
  | chat messages =>
      cases kind with
      | text => rfl
      | chat =>
          simp only [Body.json, messagesDecoder_canonical]
          rfl

theorem record_decoder_json (spec : Spec) :
    Record.decoder (.ofValue spec.json) = .ok (spec.record "" 0 .null) := by
  have habsent {α : Type} (name : String) (default : α) (decoder : Decoder α)
      (h : valueAt? name spec.members = none) :
      (Fields.withDefault name default decoder).Reads spec.members default :=
    .withDefault spec.members_nodup (by rw [h]; rfl)
  have hid := habsent "id" "" Decoder.text (spec.valueAt?_members _)
  have hversion := habsent "version" 0 Decoder.word (spec.valueAt?_members _)
  have hconfig := habsent "config" .null Record.fields.configDecoder (spec.valueAt?_members _)
  have htext (name : String) (h : valueAt? name spec.members = none) :
      (Record.optionalText name).Reads spec.members none := habsent _ _ _ h
  have hreads : Record.fields.Reads spec.members (spec.record "" 0 .null) :=
    ((((((((((((Fields.Reads.pure.and hid).and spec.reads_name).and hversion).and
      spec.reads_kind).and spec.reads_prompt).and spec.reads_labels).and spec.reads_tags).and
      spec.reads_commitMessage).and hconfig).and
      (htext "createdAt" (spec.valueAt?_members _))).and
      (htext "updatedAt" (spec.valueAt?_members _))).and
      (htext "projectId" (spec.valueAt?_members _))).and
      (htext "createdBy" (spec.valueAt?_members _))
  exact hreads.decoder_eq_ok _ spec.members_nodup

theorem exists_fetchRequest {settings : Settings} {spec : Spec} {posted : HttpRequest}
    (h : createRequest settings spec = .ok posted) (name : String) :
    ∃ fetched, fetchRequest settings name = .ok fetched := by
  obtain ⟨url, value, hurl, hvalue, -⟩ := createRequest_eq_ok_iff.mp h
  exact ⟨_, fetchRequest_eq_ok_iff.mpr ⟨url, value, hurl, hvalue, rfl⟩⟩

theorem readReply_of_text (request : HttpRequest) {status : Nat} (h : isSuccess status = true)
    (text : String) :
    readReply request (.answered status (Utf8.encode text.toList) true) = .ok text := by
  simp [readReply, h]

theorem readPrompt_of_envelope {name text : String} {envelope : Envelope} {body : Body}
    (henvelope : Envelope.decoder.run text = .ok envelope) (hbody : envelope.body = .ok body) :
    readPrompt name text = .ok body := by
  rw [readPrompt, henvelope]
  change within _ envelope.body = _
  rw [hbody]
  rfl

theorem fetch_of_reply {settings : Settings} {exchange : HttpRequest → Reply} {name text : String}
    {request : HttpRequest} {status : Nat} {envelope : Envelope} {body : Body}
    (hrequest : fetchRequest settings name = .ok request) (hstatus : isSuccess status = true)
    (hreply : exchange request = .answered status (Utf8.encode text.toList) true)
    (henvelope : Envelope.decoder.run text = .ok envelope) (hbody : envelope.body = .ok body) :
    fetch settings exchange name = .ok body := by
  have htext : readReply request (exchange request) = .ok text := by
    rw [hreply, readReply_of_text request hstatus]
  simp only [fetch, hrequest, bind, Except.bind, htext, readPrompt_of_envelope henvelope hbody]

/-- What is posted for a specification is read as its record, and as an envelope that gives its body
exactly when its kind is that of the body. A specification that was built is therefore fetched once
a service answers with what was posted. -/
theorem posted_spec_is_readable (spec : Spec) :
    ∃ text,
      (∀ settings posted, createRequest settings spec = .ok posted → posted.body = some text) ∧
      (∃ envelope, Envelope.decoder.run text = .ok envelope ∧
        (envelope.body = .ok spec.prompt ↔ spec.kind = spec.prompt.kind) ∧
        (spec.kind ≠ spec.prompt.kind → envelope.body = .error (misread spec.prompt))) ∧
      Record.decoder.run text = .ok (spec.record "" 0 .null) ∧
      ∀ settings posted exchange status, spec.Built → createRequest settings spec = .ok posted →
        isSuccess status = true →
        (∀ fetched, fetchRequest settings spec.name = .ok fetched →
          exchange fetched = .answered status (Utf8.encode text.toList) true) →
        fetch settings exchange spec.name = .ok spec.prompt := by
  have henvelope := Decoder.run_compact spec.json_isExact (Envelope.decoder_json spec)
  have hrecord := Decoder.run_compact spec.json_isExact (record_decoder_json spec)
  have hbody := Envelope.body_json spec.kind spec.prompt
  refine ⟨spec.json.compact, fun settings posted h => ?_, ⟨_, henvelope, ⟨fun h => ?_, fun h => ?_⟩,
    fun h => ?_⟩, hrecord, ?_⟩
  · obtain ⟨_, _, -, -, rfl⟩ := createRequest_eq_ok_iff.mp h
    rfl
  · by_contra hne
    rw [hbody, if_neg hne] at h
    cases h
  · rw [hbody, if_pos h]
  · rw [hbody, if_neg h]
  · intro settings posted exchange status hbuilt hposted hstatus hechoes
    obtain ⟨fetched, hfetched⟩ := exists_fetchRequest hposted spec.name
    exact fetch_of_reply hfetched hstatus (hechoes fetched hfetched) henvelope
      (hbody.trans (if_pos hbuilt.kind_eq))

/-- Here the service answers every fetch with the messages that were posted. -/
theorem posted_messages_are_fetched :
    let spec := Spec.ofBody "n" (.chat [⟨"user", "x"⟩])
    let baseUrl : Url :=
      ⟨"http".toList, [], [], some "host".toList, none, .segments [[]], none, none⟩
    let settings : Settings := ⟨baseUrl, "public", "secret", 10, 30⟩
    ∃ posted text, createRequest settings spec = .ok posted ∧ posted.body = some text ∧
      spec.Built ∧ isSuccess 200 = true ∧
      fetch settings (fun _ => .answered 200 (Utf8.encode text.toList) true) "n" =
        .ok spec.prompt := by
  intro spec baseUrl settings
  obtain ⟨text, hbody, -, -, hfetch⟩ := posted_spec_is_readable spec
  obtain ⟨posted, hposted⟩ : ∃ posted, createRequest settings spec = .ok posted :=
    ⟨_, createRequest_eq_ok_iff.mpr ⟨_, _, rfl, authorization_eq settings, rfl⟩⟩
  have hbuilt : spec.Built := .ofBody "n" _
  exact ⟨posted, text, hposted, hbody settings posted hposted, hbuilt, rfl,
    hfetch settings posted _ 200 hbuilt hposted rfl fun _ _ => rfl⟩

end Remote

end PromptRegistry
