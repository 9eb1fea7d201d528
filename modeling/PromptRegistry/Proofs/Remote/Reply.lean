import PromptRegistry.Proofs.Remote.Credentials
import PromptRegistry.Proofs.Remote.Echo
import PromptRegistry.Proofs.Session.Reads

/-! # What a reply gives -/

namespace PromptRegistry

open Json

theorem Json.names_nodup_of_canonical {members : List (String × Json)}
    (h : (Json.object members).canonical = .object members) : (members.map Prod.fst).Nodup := by
  have hmembers : canonicalMembers members [] = members := Json.object.inj h
  rw [← hmembers]
  exact canonicalMembers_nodup members

theorem messagesDecoder_of_canonical_iff {value : Json} (h : value.canonical = value)
    {messages : List Message} : messagesDecoder (.ofValue value) = .ok messages ↔
      ∃ items, value = .array items ∧
        List.Forall₂ (fun item (message : Message) => message.IsSpelledBy item) items messages := by
  rw [messagesDecoder, Decoder.list_eq_ok_iff]
  cases value with
  | array items =>
      have hitems : items.map canonical = items.map id := by
        rw [List.map_id, ← canonicalItems_eq_map]
        exact Json.array.inj h
      have hread : List.Forall₂ (fun tree message => Message.decoder tree = .ok message)
            (items.map Tree.ofValue) messages ↔
          List.Forall₂ (fun item (message : Message) => message.IsSpelledBy item)
            items messages := by
        rw [List.forall₂_map_left_iff]
        apply forall₂_congr_of_mem
        intro item hitem message
        apply Message.decoder_ofValue_eq_ok_iff
        rintro members rfl
        exact names_nodup_of_canonical (List.map_inj_left.mp hitems _ hitem)
      simp only [Tree.ofValue, Tree.ofItems_eq_map, Tree.array.injEq, and_true, exists_eq_left',
        Json.array.injEq, hread]
  | _ => simp [Tree.ofValue]

namespace Remote

namespace Envelope

/-- The body that an envelope holds: a text, or messages in any of their spellings, where the type
says so. -/
inductive Holds (envelope : Envelope) : Body → Prop
  | text {template : String} (hkind : envelope.kind = "text")
      (hprompt : envelope.prompt = .string template) : Holds envelope (.text template)
  | chat {items : List Json} {messages : List Message} (hkind : envelope.kind = "chat")
      (hprompt : envelope.prompt = .array items)
      (hmessages : List.Forall₂ (fun item (message : Message) => message.IsSpelledBy item) items
        messages) : Holds envelope (.chat messages)

variable {envelope : Envelope} {body : Body}

/-- The documents that are envelopes: an object with one type, one prompt and any members of other
names, or an array of both. The type is a text, and the prompt can be read as a value. -/
theorem decoder_eq_ok_iff {tree : Tree} : decoder tree = .ok envelope ↔
    ∃ prompt value, Fields.HoldsPair "type" "prompt" (.string envelope.kind) prompt tree ∧
      prompt.value? (nestingLimit - 1) = some value ∧ value.canonical = envelope.prompt := by
  have hpair : decoder = (Fields.pair Envelope.mk "type" Decoder.text "prompt"
      fields.promptDecoder).decoder "PromptResponse" := rfl
  have hprompt {tree : Tree} {prompt : Json} : fields.promptDecoder tree = .ok prompt ↔
      ∃ value, tree.value? (nestingLimit - 1) = some value ∧ value.canonical = prompt := by
    rw [fields.promptDecoder, Decoder.value]
    cases tree.value? (nestingLimit - 1) <;> simp [Except.map]
  rw [hpair, Fields.decoder_pair_eq_ok_iff (by decide)]
  simp only [Decoder.text_eq_ok_iff, hprompt]
  constructor
  · rintro ⟨_, prompt, kind, _, hholds, rfl, ⟨value, hvalue, rfl⟩, rfl⟩
    exact ⟨prompt, value, hholds, hvalue, rfl⟩
  · rintro ⟨prompt, value, hholds, hvalue, hcanonical⟩
    exact ⟨_, prompt, _, _, hholds, rfl, ⟨value, hvalue, hcanonical⟩, rfl⟩

theorem prompt_canonical {text : String} (h : decoder.run text = .ok envelope) :
    envelope.prompt.canonical = envelope.prompt := by
  obtain ⟨_, value, -, -, hvalue⟩ := decoder_eq_ok_iff.mp (Decoder.run_eq_ok_iff.mp h).1
  rw [← hvalue, canonical_canonical]

theorem body_eq_ok_iff_holds (h : envelope.prompt.canonical = envelope.prompt) :
    envelope.body = .ok body ↔ envelope.Holds body := by
  obtain ⟨kind, prompt⟩ := envelope
  constructor
  · intro hbody
    cases hkind : Kind.ofName? kind with
    | none => simp [Envelope.body, hkind] at hbody
    | some known =>
        obtain rfl := Kind.ofName?_eq_some_iff.mp hkind
        obtain ⟨hread, rfl⟩ := body_eq_ok_iff.mp hbody
        cases hread with
        | text htext => exact .text rfl (Tree.ofValue_eq_string_iff.mp htext)
        | chat hmessages =>
            obtain ⟨items, hitems, hspelled⟩ := (messagesDecoder_of_canonical_iff h).mp hmessages
            exact .chat rfl hitems hspelled
  · intro hholds
    cases hholds with
    | text hkind hprompt =>
        obtain rfl : kind = Kind.text.name := hkind
        exact body_eq_ok_iff.mpr ⟨.text (Tree.ofValue_eq_string_iff.mpr hprompt), rfl⟩
    | chat hkind hprompt hmessages =>
        obtain rfl : kind = Kind.chat.name := hkind
        exact body_eq_ok_iff.mpr
          ⟨.chat ((messagesDecoder_of_canonical_iff h).mpr ⟨_, hprompt, hmessages⟩), rfl⟩

theorem body_of_unknown_kind (htext : envelope.kind ≠ "text") (hchat : envelope.kind ≠ "chat") :
    envelope.body = .error (.unknownType envelope.kind) := by
  have hkind : Kind.ofName? envelope.kind = none := by simp [Kind.ofName?, htext, hchat]
  rw [Envelope.body, hkind]

theorem body_of_misfit (hkind : envelope.kind = "text" ∨ envelope.kind = "chat")
    (hnone : ∀ body, envelope.body ≠ .ok body) :
    ∃ title fault, envelope.body = .error (.context title (.json fault)) := by
  have hwithin {α : Type} {title : String} {result : Except Fault α} {f : α → Body}
      (h : ∀ body, within title ((result.map f).mapError .json) ≠ .ok body) :
      ∃ fault, within title ((result.map f).mapError .json) =
        .error (.context title (.json fault)) := by
    cases result with
    | error fault => exact ⟨fault, rfl⟩
    | ok value => exact absurd rfl (h (f value))
  unfold Envelope.body at hnone ⊢
  rcases hkind with hkind | hkind
  · rw [hkind] at hnone ⊢
    exact ⟨_, hwithin hnone⟩
  · rw [hkind] at hnone ⊢
    exact ⟨_, hwithin hnone⟩

end Envelope

/-- How a call comes out whose request is answered: a text is read only where the status is one of
success and the body is complete. -/
structure Judged {α : Type} (request : HttpRequest) (status : Nat) (complete : Bool)
    (result read : Except Failure α) : Prop where
  refused : ¬(200 ≤ status ∧ status ≤ 299) →
    result = .error (.context (request.titleWithStatus status) (.status status))
  cut : 200 ≤ status ∧ status ≤ 299 → complete = false →
    result = .error (.context (request.titleWithStatus status) .transport)
  read : 200 ≤ status ∧ status ≤ 299 → complete = true → result = read

theorem isSuccess_iff {status : Nat} : isSuccess status = true ↔ 200 ≤ status ∧ status ≤ 299 := by
  simp [isSuccess, Nat.lt_succ_iff]

theorem judged_of_reply {α : Type} (request : HttpRequest) (status : Nat) (bytes : List UInt8)
    (complete : Bool) (read : String → Except Failure α) :
    Judged request status complete
      ((readReply request (.answered status bytes complete)).bind read)
      (read (String.ofList (Utf8.decode bytes))) where
  refused h := by
    have hstatus : isSuccess status = false := Bool.eq_false_of_not_eq_true (mt isSuccess_iff.mp h)
    simp [readReply, hstatus, Except.bind]
  cut h hcomplete := by simp [readReply, isSuccess_iff.mpr h, hcomplete, Except.bind]
  read h hcomplete := by simp [readReply, isSuccess_iff.mpr h, hcomplete, Except.bind]

section

variable {settings : Settings} {exchange : HttpRequest → Reply} {url : Url}

theorem fetch_of_url {name : String} (hurl : promptUrl settings name = .ok url) :
    let request : HttpRequest := ⟨.get, url, credentials settings, none⟩
    fetch settings exchange name =
      (readReply request (exchange request)).bind (readPrompt name) := by
  simp only [fetch, fetchRequest, hurl, authorization_eq, bind, Except.bind, pure, Except.pure]

theorem create_of_url {spec : Spec} (hurl : promptsUrl settings = .ok url) :
    let request : HttpRequest := ⟨.post, url, credentials settings, some spec.json.compact⟩
    create settings exchange spec =
      (readReply request (exchange request)).bind fun text =>
        within ("Failed to decode created prompt '" ++ spec.name ++ "'")
          ((Record.decoder.run text).mapError .json) := by
  simp only [create, createRequest, hurl, authorization_eq, bind, Except.bind, pure, Except.pure]

end

section

variable {name text : String} {envelope : Envelope}

theorem readPrompt_of_fault {fault : Fault} (h : Envelope.decoder.run text = .error fault) :
    readPrompt name text =
      .error (.context ("Failed to decode prompt '" ++ name ++ "'") (.json fault)) := by
  rw [readPrompt, h]
  rfl

theorem readPrompt_of_ok (h : Envelope.decoder.run text = .ok envelope) :
    readPrompt name text = within ("Failed to read prompt '" ++ name ++ "'") envelope.body := by
  rw [readPrompt, h]
  rfl

theorem readPrompt_eq_ok_iff {body : Body} : readPrompt name text = .ok body ↔
    ∃ envelope, Envelope.decoder.run text = .ok envelope ∧ envelope.Holds body := by
  cases henvelope : Envelope.decoder.run text with
  | error fault => simp [readPrompt_of_fault henvelope]
  | ok envelope =>
      have hholds : envelope.body = .ok body ↔ envelope.Holds body :=
        Envelope.body_eq_ok_iff_holds (Envelope.prompt_canonical henvelope)
      rw [readPrompt_of_ok henvelope]
      cases hbody : envelope.body <;> simp [within, Except.mapError, ← hholds, hbody]

end

/-- A read of a name that is not cached stores what its fetch gives, if that is a body. -/
theorem after_miss {prior : List Session.Event} {name : String}
    (h : (Session.after prior).cache.lookup? name = none) (answer : Answer) :
    (Session.after
        (prior ++ [.get name answer, .complete ((Session.after prior).fetches + 1)])).cache =
      (Session.after prior).cache.written (answer.toOption.map (name, ·)) := by
  have hfetch := Session.readFetch_mem answer h
  have hended : (Session.after (prior ++ [.get name answer])).ended?
      (.complete ((Session.after prior).fetches + 1)) =
        some ((Session.after prior).readFetch name answer) := Session.find?_inFlight hfetch
  have hcache : (Session.after (prior ++ [.get name answer])).cache =
      (Session.after prior).cache := by
    rw [Session.after_concat, Session.step_session]
    rfl
  rw [List.append_cons, Session.after_concat, Session.step_session, Session.write?, hended, hcache]
  cases answer <;> rfl

/-- A fetch gives a body exactly where its reply has a status of success and is complete, and its
text is an envelope that holds the body. Any other status is reported whatever the body is. Then a
body that was cut short, a text that is no envelope, a type that is not known and a prompt of
another form are reported, in this order. What a fetch gives a read that needs it is cached if it is
a body. A prompt that is created is judged alike. -/
theorem reply_decides_answer (settings : Settings) (exchange : HttpRequest → Reply) (status : Nat)
    (bytes : List UInt8) (complete : Bool) :
    let text := String.ofList (Utf8.decode bytes)
    (∀ name url, promptUrl settings name = .ok url →
      let request : HttpRequest := ⟨.get, url, credentials settings, none⟩
      let answer := fetch settings exchange name
      exchange request = .answered status bytes complete →
      (∀ body, answer = .ok body ↔ (200 ≤ status ∧ status ≤ 299) ∧ complete = true ∧
        ∃ envelope, Envelope.decoder.run text = .ok envelope ∧ envelope.Holds body) ∧
      Judged request status complete answer (readPrompt name text) ∧
      (200 ≤ status ∧ status ≤ 299 → complete = true →
        (∀ fault, Envelope.decoder.run text = .error fault → answer =
          .error (.context ("Failed to decode prompt '" ++ name ++ "'") (.json fault))) ∧
        ∀ envelope, Envelope.decoder.run text = .ok envelope →
          (envelope.kind ≠ "text" → envelope.kind ≠ "chat" → answer =
            .error (.context ("Failed to read prompt '" ++ name ++ "'")
              (.unknownType envelope.kind))) ∧
          (envelope.kind = "text" ∨ envelope.kind = "chat" → (∀ body, ¬envelope.Holds body) →
            ∃ title fault, answer = .error (.context ("Failed to read prompt '" ++ name ++ "'")
              (.context title (.json fault))))) ∧
      ∀ prior : List Session.Event, (Session.after prior).cache.lookup? name = none →
        (Session.after
            (prior ++ [.get name answer, .complete ((Session.after prior).fetches + 1)])).cache =
          (Session.after prior).cache.written (answer.toOption.map (name, ·))) ∧
    ∀ (spec : Spec) (url : Url), promptsUrl settings = .ok url →
      let request : HttpRequest := ⟨.post, url, credentials settings, some spec.json.compact⟩
      exchange request = .answered status bytes complete →
      Judged request status complete (create settings exchange spec)
        (within ("Failed to decode created prompt '" ++ spec.name ++ "'")
          ((Record.decoder.run text).mapError .json)) := by
  intro text
  refine ⟨?_, ?_⟩
  · intro name url hurl request answer hreply
    have hjudged : Judged request status complete answer (readPrompt name text) := by
      simp only [answer, fetch_of_url hurl]
      rw [hreply]
      exact judged_of_reply request status bytes complete (readPrompt name)
    refine ⟨fun body => ?_, hjudged, fun hstatus hcomplete => ?_,
      fun prior hmiss => after_miss hmiss answer⟩
    · by_cases hstatus : 200 ≤ status ∧ status ≤ 299
      · cases complete with
        | true => simp [hjudged.read hstatus rfl, readPrompt_eq_ok_iff, hstatus]
        | false => simp [hjudged.cut hstatus rfl]
      · simp [hjudged.refused hstatus, hstatus]
    · rw [hjudged.read hstatus hcomplete]
      refine ⟨fun fault => readPrompt_of_fault, fun envelope henvelope => ?_⟩
      rw [readPrompt_of_ok henvelope]
      refine ⟨fun htext hchat => ?_, fun hkind hnone => ?_⟩
      · rw [Envelope.body_of_unknown_kind htext hchat]
        rfl
      · have hmisfit : ∀ body, envelope.body ≠ .ok body := fun body hbody => hnone body
          ((Envelope.body_eq_ok_iff_holds (Envelope.prompt_canonical henvelope)).mp hbody)
        obtain ⟨title, fault, hbody⟩ := Envelope.body_of_misfit hkind hmisfit
        exact ⟨title, fault, by rw [hbody]; rfl⟩
  · intro spec url hurl request hreply
    simp only [create_of_url hurl]
    rw [hreply]
    exact judged_of_reply request status bytes complete _

/-- Here a text that holds a prompt comes under a status of success, cut short and under a status of
failure. Only the first of these answers is stored. -/
theorem readable_text_is_refused :
    let baseUrl : Url :=
      ⟨"http".toList, [], [], some "host".toList, none, .segments [[]], none, none⟩
    let settings : Settings := ⟨baseUrl, "public", "secret", 10, 30⟩
    let spec := Spec.ofBody "n" (.text "x")
    let bytes := Utf8.encode spec.json.compact.toList
    let answer status complete := fetch settings (fun _ => .answered status bytes complete) "n"
    ∃ url created, promptUrl settings "n" = .ok url ∧ promptsUrl settings = .ok created ∧
      let fetched : HttpRequest := ⟨.get, url, credentials settings, none⟩
      let posted : HttpRequest := ⟨.post, created, credentials settings, some spec.json.compact⟩
      answer 200 true = .ok (.text "x") ∧
      answer 200 false = .error (.context (fetched.titleWithStatus 200) .transport) ∧
      answer 404 true = .error (.context (fetched.titleWithStatus 404) (.status 404)) ∧
      create settings (fun _ => .answered 404 bytes true) spec =
        .error (.context (posted.titleWithStatus 404) (.status 404)) ∧
      (Session.after [.get "n" (answer 200 true), .complete 1]).cache =
        Cache.empty.written (some ("n", .text "x")) ∧
      (Session.after [.get "n" (answer 404 true), .complete 1]).cache = Cache.empty := by
  intro baseUrl settings spec bytes answer
  obtain ⟨url, hurl⟩ : ∃ url, promptUrl settings "n" = .ok url := ⟨_, rfl⟩
  obtain ⟨created, hcreated⟩ : ∃ created, promptsUrl settings = .ok created := ⟨_, rfl⟩
  have hresult (status : Nat) (complete : Bool) :=
    reply_decides_answer settings (fun _ => .answered status bytes complete) status bytes complete
  have hrefused : ¬(200 ≤ 404 ∧ 404 ≤ 299) := by decide
  obtain ⟨hok, -, -, hstored⟩ := (hresult 200 true).1 "n" url hurl rfl
  obtain ⟨-, hcut, -⟩ := (hresult 200 false).1 "n" url hurl rfl
  obtain ⟨-, hfailed, -, hkept⟩ := (hresult 404 true).1 "n" url hurl rfl
  have hposted := (hresult 404 true).2 spec created hcreated rfl
  have henvelope : Envelope.decoder.run (String.ofList (Utf8.decode bytes)) =
      .ok ⟨"text", .string "x"⟩ := by
    rw [Utf8.decode_encode, String.ofList_toList]
    exact Decoder.run_compact spec.json_isExact (Envelope.decoder_json spec)
  have hread : fetch settings (fun _ => .answered 200 bytes true) "n" = .ok (.text "x") :=
    (hok _).mpr ⟨by decide, rfl, _, henvelope, .text rfl rfl⟩
  have hfailure := hfailed.refused hrefused
  refine ⟨url, created, hurl, hcreated, hread, hcut.cut (by decide) rfl, hfailure,
    hposted.refused hrefused, ?_, ?_⟩
  · refine (hstored [] rfl).trans ?_
    rw [hread]
    rfl
  · refine (hkept [] rfl).trans ?_
    rw [hfailure]
    rfl

end Remote

end PromptRegistry
