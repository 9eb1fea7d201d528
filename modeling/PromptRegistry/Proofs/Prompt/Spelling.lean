import Mathlib.Logic.Relation
import PromptRegistry.Proofs.Json.Spelling
import PromptRegistry.Proofs.Prompt.Messages

/-!
# Spellings of specifications

The messages are read as values first, so a member that has no value, or is nested too deep, may
stand in the document but not in a message.
-/

namespace PromptRegistry

open Json

namespace Message

/-- Another spelling of a message. A member that is put in has to be readable with the body. -/
inductive Respells : Tree → Tree → Prop
  | members {first second : List (Option String × Tree)} {complete : Bool}
      (h : first.Perm second) : Respells (.object first complete) (.object second complete)
  | unknown {members : List (Option String × Tree)} {complete : Bool} {name : String} {value : Tree}
      (hname : name ∉ fields.names) (hvalue : value.IsReadable (nestingLimit - 3)) :
      Respells (.object members complete) (.object ((some name, value) :: members) complete)

namespace Respells

variable {first second : Tree}

theorem decoder_eq_ok_iff (h : Respells first second) {message : Message} :
    decoder first = .ok message ↔ decoder second = .ok message := by
  cases h with
  | members hperm => exact toOption_eq_iff.mp (Fields.decoder_perm hperm) message
  | unknown hname hvalue => rw [decoder, Fields.decoder_unknown _ hname hvalue.isWhole]

theorem isReadable_iff (h : Respells first second) :
    first.IsReadable (nestingLimit - 2) ↔ second.IsReadable (nestingLimit - 2) := by
  cases h with
  | members hperm =>
      rw [Tree.isReadable_object_iff, Tree.isReadable_object_iff]
      simp only [hperm.mem_iff]
  | @unknown members complete name value hname hvalue =>
      have hmember : some name ≠ none ∧ value.IsReadable (nestingLimit - 2 - 1) :=
        ⟨Option.some_ne_none name, hvalue⟩
      rw [Tree.isReadable_object_iff, Tree.isReadable_object_iff, List.forall_mem_cons]
      simp only [hmember, ne_eq, not_false_eq_true, and_self, true_and]

end Respells

end Message

namespace Body

theorem decoder_array_eq_ok_iff {levels : Nat} {items : List Tree} {complete : Bool} {body : Body} :
    Body.decoder levels (.array items complete) = .ok body ↔
      levels ≠ 0 ∧ complete = true ∧ (∀ item ∈ items, item.IsReadable (levels - 1)) ∧
        ∃ messages, body = .chat messages ∧
          List.Forall₂ (fun item message => Message.decoder item = .ok message) items messages := by
  rw [decoder_eq_ok_iff, Tree.isReadable_array_iff, and_assoc, and_assoc]
  refine and_congr_right fun _ => and_congr_right fun hcomplete => and_congr_right fun _ => ?_
  subst hcomplete
  constructor
  · intro h
    cases h with
    | text htext => cases htext
    | chat hmessages =>
        obtain ⟨items', hitems, hread⟩ := Decoder.list_eq_ok_iff.mp hmessages
        obtain rfl : items = items' := (Tree.array.inj hitems).1
        exact ⟨_, rfl, hread⟩
  · intro h
    obtain ⟨messages, rfl, hread⟩ := h
    exact .chat (Decoder.list_eq_ok_iff.mpr ⟨items, rfl, hread⟩)

private theorem forall₂_replace_iff {α β : Type} {r : α → β → Prop} {first second : α}
    (h : ∀ b, r first b ↔ r second b) (earlier later : List α) {values : List β} :
    List.Forall₂ r (earlier ++ first :: later) values ↔
      List.Forall₂ r (earlier ++ second :: later) values := by
  induction earlier generalizing values with
  | nil => cases values <;> simp [h]
  | cons head earlier ih => cases values <;> simp [ih]

theorem decoder_respelled_iff {first second : Tree} (h : Message.Respells first second)
    (earlier later : List Tree) (complete : Bool) {body : Body} :
    Body.decoder (nestingLimit - 1) (.array (earlier ++ first :: later) complete) = .ok body ↔
      Body.decoder (nestingLimit - 1) (.array (earlier ++ second :: later) complete) =
        .ok body := by
  have hreadable : first.IsReadable (nestingLimit - 1 - 1) ↔
      second.IsReadable (nestingLimit - 1 - 1) := h.isReadable_iff
  have hread (messages : List Message) :
      List.Forall₂ (fun item message => Message.decoder item = .ok message)
          (earlier ++ first :: later) messages ↔
        List.Forall₂ (fun item message => Message.decoder item = .ok message)
          (earlier ++ second :: later) messages := by
    apply forall₂_replace_iff
    intro message
    exact h.decoder_eq_ok_iff
  simp only [decoder_array_eq_ok_iff, List.forall_mem_append, List.forall_mem_cons, hreadable,
    hread]

end Body

namespace Spec

/-- Another spelling of a document. Members are put in at the front and moved from there. -/
inductive Respells : Tree → Tree → Prop
  | members {first second : List (Option String × Tree)} {complete : Bool}
      (h : first.Perm second) : Respells (.object first complete) (.object second complete)
  | unknown {members : List (Option String × Tree)} {complete : Bool} {name : String} {value : Tree}
      (hname : name ∉ fields.names) (hvalue : value.isWhole = true) :
      Respells (.object members complete) (.object ((some name, value) :: members) complete)
  | noCommitMessage {members : List (Option String × Tree)} {complete : Bool}
      (habsent : ∀ member ∈ members, member.1 ≠ some "commitMessage") :
      Respells (.object members complete)
        (.object ((some "commitMessage", .null) :: members) complete)
  | messageInObject {first second : Tree} (h : Message.Respells first second)
      (earlier later : List Tree) {ended : Bool} {members : List (Option String × Tree)}
      {complete : Bool} :
      Respells
        (.object ((some "prompt", .array (earlier ++ first :: later) ended) :: members) complete)
        (.object ((some "prompt", .array (earlier ++ second :: later) ended) :: members) complete)
  | messageInArray {first second : Tree} (h : Message.Respells first second)
      (earlier later : List Tree) {ended : Bool} {name kind : Tree} {rest : List Tree}
      {complete : Bool} :
      Respells (.array (name :: kind :: .array (earlier ++ first :: later) ended :: rest) complete)
        (.array (name :: kind :: .array (earlier ++ second :: later) ended :: rest) complete)

theorem readsAlike_prompt {tree other : Tree}
    (h : ∀ body, Body.decoder (nestingLimit - 1) tree = .ok body →
      Body.decoder (nestingLimit - 1) other = .ok body) :
    fields.ReadsAlike "prompt" (some tree) (some other) :=
  ((((((.pure : Fields.ReadsAlike (Fields.pure Spec.mk) _ _ _).and
    (.required_of_ne (by decide))).and (.required_of_ne (by decide))).and (.required h)).and
    (.withDefault_of_ne (by decide))).and (.withDefault_of_ne (by decide))).and
    (.withDefault_of_ne (by decide))

theorem readsAlike_respelled {first second : Tree} (h : Message.Respells first second)
    (earlier later : List Tree) (complete : Bool) :
    fields.ReadsAlike "prompt" (some (.array (earlier ++ first :: later) complete))
        (some (.array (earlier ++ second :: later) complete)) ∧
      fields.ReadsAlike "prompt" (some (.array (earlier ++ second :: later) complete))
        (some (.array (earlier ++ first :: later) complete)) :=
  ⟨readsAlike_prompt fun _ => (Body.decoder_respelled_iff h earlier later complete).mp,
    readsAlike_prompt fun _ => (Body.decoder_respelled_iff h earlier later complete).mpr⟩

theorem readsAlike_commitMessage {first second : Option Tree}
    (h : ∀ text, first.elim (.ok none) (Decoder.optional Decoder.text) = .ok text →
      second.elim (.ok none) (Decoder.optional Decoder.text) = .ok text) :
    fields.ReadsAlike "commitMessage" first second :=
  ((((((.pure : Fields.ReadsAlike (Fields.pure Spec.mk) _ _ _).and
    (.required_of_ne (by decide))).and (.required_of_ne (by decide))).and
    (.required_of_ne (by decide))).and (.withDefault h)).and
    (.withDefault_of_ne (by decide))).and (.withDefault_of_ne (by decide))

theorem Respells.toOption_decoder {first second : Tree} (h : Respells first second) :
    (decoder first).toOption = (decoder second).toOption := by
  cases h with
  | members hperm => exact Fields.decoder_perm hperm
  | unknown hname hvalue => rw [decoder, Fields.decoder_unknown _ hname hvalue]
  | @noCommitMessage members complete habsent =>
      -- null is read as no text, which is also the default
      have hput : fields.ReadsAlike "commitMessage" none (some .null) :=
        readsAlike_commitMessage fun _ htext => htext
      have hdrop : fields.ReadsAlike "commitMessage" (some .null) none :=
        readsAlike_commitMessage fun _ htext => htext
      apply toOption_eq_iff.mpr
      intro spec
      exact ⟨hput.decoder_object (by decide) [] members fun _ => habsent,
        hdrop.decoder_object (by decide) [] members nofun⟩
  | @messageInObject _ _ hmessage earlier later ended members complete =>
      obtain ⟨hto, hfrom⟩ := readsAlike_respelled hmessage earlier later ended
      apply toOption_eq_iff.mpr
      intro spec
      exact ⟨hto.decoder_object (by decide) [] members nofun,
        hfrom.decoder_object (by decide) [] members nofun⟩
  | @messageInArray _ _ hmessage earlier later ended name kind rest complete =>
      obtain ⟨hto, hfrom⟩ := readsAlike_respelled hmessage earlier later ended
      apply toOption_eq_iff.mpr
      intro spec
      exact ⟨hto.decoder_array (by decide) [name, kind] rest rfl,
        hfrom.decoder_array (by decide) [name, kind] rest rfl⟩

theorem toOption_decoder_of_eqvGen {first second : Tree}
    (h : Relation.EqvGen Respells first second) :
    (decoder first).toOption = (decoder second).toOption := by
  induction h with
  | rel first second hrespells => exact hrespells.toOption_decoder
  | refl document => rfl
  | symm first second _ ih => exact ih.symm
  | trans first second third _ _ ihfirst ihsecond => exact ihfirst.trans ihsecond

variable {document : Tree} {messages : List Tree} {ended : Bool}

theorem prompt_of_decoder {spec : Spec} {tree : Tree} (h : decoder document = .ok spec)
    (hprompt : fields.Holds "prompt" tree document) :
    ∃ body, Body.decoder (nestingLimit - 1) tree = .ok body := by
  have hcheck : Fields.checkOnly (Body.decoder (nestingLimit - 1)) tree = .ok () :=
    Fields.check_of_decoder h (by decide) hprompt
  cases hbody : Body.decoder (nestingLimit - 1) tree with
  | error fault => simp [Fields.checkOnly, hbody, Except.map] at hcheck
  | ok body => exact ⟨body, rfl⟩

theorem message_of_decoder {spec : Spec} {item : Tree} (h : decoder document = .ok spec)
    (hprompt : fields.Holds "prompt" (.array messages ended) document) (hitem : item ∈ messages) :
    item.IsReadable (nestingLimit - 2) ∧ ∃ message, Message.decoder item = .ok message := by
  obtain ⟨body, hbody⟩ := prompt_of_decoder h hprompt
  obtain ⟨-, -, hreadable, values, -, hread⟩ := Body.decoder_array_eq_ok_iff.mp hbody
  obtain ⟨position, hposition, rfl⟩ := List.getElem_of_mem hitem
  have hvalue := hread.get hposition (hread.length_eq ▸ hposition)
  exact ⟨hreadable _ hitem, _, hvalue⟩

theorem refuses_repeated_member (h : Fields.Repeats fields.names document) :
    (decoder document).toOption = none :=
  toOption_eq_none_iff.mpr (Fields.decoder_repeats h)

theorem refuses_repeated_message_member {message : Tree}
    (hprompt : fields.Holds "prompt" (.array messages ended) document) (hmem : message ∈ messages)
    (h : Fields.Repeats Message.fields.names message) : (decoder document).toOption = none := by
  apply toOption_eq_none_iff.mpr
  intro spec hspec
  obtain ⟨-, value, hvalue⟩ := message_of_decoder hspec hprompt hmem
  exact Fields.decoder_repeats h value hvalue

theorem refuses_null_list {name : String} (hname : name = "labels" ∨ name = "tags")
    (h : fields.Holds name .null document) : (decoder document).toOption = none := by
  apply toOption_eq_none_iff.mpr
  intro spec hspec
  rcases hname with rfl | rfl
  · have hcheck := Fields.check_of_decoder hspec (by decide) h
    cases hcheck
  · have hcheck := Fields.check_of_decoder hspec (by decide) h
    cases hcheck

/-- What cannot be read as a value cannot stand in a message, whatever its name. -/
theorem refuses_unreadable_message_member {members : List (Option String × Tree)} {whole : Bool}
    {member : Option String × Tree}
    (hprompt : fields.Holds "prompt" (.array messages ended) document)
    (hmessage : .object members whole ∈ messages) (hmember : member ∈ members)
    (h : ¬member.2.IsReadable (nestingLimit - 3)) : (decoder document).toOption = none := by
  apply toOption_eq_none_iff.mpr
  intro spec hspec
  obtain ⟨hreadable, -⟩ := message_of_decoder hspec hprompt hmessage
  obtain ⟨-, -, hmembers⟩ := Tree.isReadable_object_iff.mp hreadable
  exact h (hmembers member hmember).2

/-- The values of all fields in the order of declaration. -/
def values (spec : Spec) : List Json :=
  [.string spec.name, spec.kind.json, spec.prompt.json, .ofOption spec.commitMessage,
    .ofStrings spec.labels, .ofStrings spec.tags]

/-- The values of so many fields, under the names of the fields. -/
def positional (spec : Spec) (count : Nat) : List (String × Json) :=
  fields.names.zip (spec.values.take count)

theorem names_nodup : fields.names.Nodup := by decide

theorem positional_nodup (spec : Spec) (count : Nat) :
    ((spec.positional count).map Prod.fst).Nodup :=
  zip_keys_nodup names_nodup _

theorem valueAt?_positional (spec : Spec) (count position : Nat) {name : String}
    (hname : fields.names[position]? = some name) :
    valueAt? name (spec.positional count) =
      if position < count then spec.values[position]? else none := by
  rw [positional, valueAt?_zip names_nodup hname, List.getElem?_take]

/-- A field with a default is read from its value, or has its default where that is left out. -/
theorem reads_positional {α : Type} {spec : Spec} {count : Nat} (position : Nat) {name : String}
    {default a : α} {decoder : Decoder α} {value : Json}
    (hname : fields.names[position]? = some name) (hvalue : spec.values[position]? = some value)
    (hdecoder : decoder (.ofValue value) = .ok a) (hunset : count ≤ position → a = default) :
    (Fields.withDefault name default decoder).Reads (spec.positional count) a := by
  apply Fields.Reads.withDefault (spec.positional_nodup count)
  rw [valueAt?_positional spec count position hname]
  split
  case isTrue =>
    rw [hvalue]
    exact hdecoder
  case isFalse hleft =>
    rw [hunset (Nat.not_lt.mp hleft)]
    rfl

theorem decoder_values (spec : Spec) {count : Nat} (hcount : 3 ≤ count)
    (hcommitMessage : count ≤ 3 → spec.commitMessage = none)
    (hlabels : count ≤ 4 → spec.labels = []) (htags : count ≤ 5 → spec.tags = []) :
    decoder (.ofValue (.array (spec.values.take count))) = .ok spec := by
  have hnodup := spec.positional_nodup count
  have hvalue (position : Nat) {name : String} (hposition : position < 3)
      (hname : fields.names[position]? = some name) :
      valueAt? name (spec.positional count) = spec.values[position]? := by
    rw [valueAt?_positional spec count position hname, if_pos (hposition.trans_le hcount)]
  have hname : (Fields.required "name" Decoder.text).Reads (spec.positional count) spec.name :=
    .required hnodup (hvalue 0 (by decide) rfl) rfl
  have hkind : (Fields.required "type" Kind.decoder).Reads (spec.positional count) spec.kind :=
    .required hnodup (hvalue 1 (by decide) rfl) spec.kind.decoder_json
  have hprompt : (Fields.required "prompt" (Body.decoder (nestingLimit - 1))).Reads
      (spec.positional count) spec.prompt :=
    .required hnodup (hvalue 2 (by decide) rfl) (Body.decoder_json (by decide) spec.prompt)
  have hreads : fields.Reads (spec.positional count) spec :=
    (((((Fields.Reads.pure.and hname).and hkind).and hprompt).and
      (reads_positional 3 rfl rfl (Decoder.optional_ofOption _) hcommitMessage)).and
      (reads_positional 4 rfl rfl (Decoder.list_ofStrings _) hlabels)).and
      (reads_positional 5 rfl rfl (Decoder.list_ofStrings _) htags)
  exact hreads.decoder_array_eq_ok "PromptSpec" (List.length_take_le' count spec.values)

/-- Spellings of one document are read as the same specification, or none is read. A document with
a repeated member, null for a list or an unreadable member in a message is refused. The field values
in an array are read as the specification, also without those at the end that are unset. -/
theorem spellings_are_read_alike :
    (∀ first second : Tree, Relation.EqvGen Respells first second →
      (Spec.decoder first).toOption = (Spec.decoder second).toOption) ∧
      (∀ document : Tree, Fields.Repeats fields.names document →
        (Spec.decoder document).toOption = none) ∧
      (∀ (document message : Tree) (messages : List Tree) (ended : Bool),
        fields.Holds "prompt" (.array messages ended) document → message ∈ messages →
          Fields.Repeats Message.fields.names message → (Spec.decoder document).toOption = none) ∧
      (∀ (document : Tree) (name : String), name = "labels" ∨ name = "tags" →
        fields.Holds name .null document → (Spec.decoder document).toOption = none) ∧
      (∀ (document : Tree) (messages : List Tree) (ended : Bool)
        (members : List (Option String × Tree)) (whole : Bool) (member : Option String × Tree),
        fields.Holds "prompt" (.array messages ended) document →
          .object members whole ∈ messages → member ∈ members →
            ¬member.2.IsReadable (nestingLimit - 3) → (Spec.decoder document).toOption = none) ∧
      ∀ (spec : Spec) (count : Nat), 3 ≤ count → (count ≤ 3 → spec.commitMessage = none) →
        (count ≤ 4 → spec.labels = []) → (count ≤ 5 → spec.tags = []) →
          Spec.decoder (.ofValue (.array (spec.values.take count))) = .ok spec := by
  refine ⟨fun first second h => toOption_decoder_of_eqvGen h,
    fun document h => refuses_repeated_member h,
    fun document message messages ended hprompt hmem h => ?_,
    fun document name hname h => refuses_null_list hname h,
    fun document messages ended members whole member hprompt hmessage hmember h => ?_,
    fun spec count hcount hcommitMessage hlabels htags => ?_⟩
  · exact refuses_repeated_message_member hprompt hmem h
  · exact refuses_unreadable_message_member hprompt hmessage hmember h
  · exact spec.decoder_values hcount hcommitMessage hlabels htags

theorem odd_documents_are_read_alike :
    let message : Tree :=
      .object [(some "role", .string "r"), (some "content", .string "x")] true
    let odd : Tree := .object
      [(some "content", .string "x"), (some "name", .null), (some "role", .string "r")] true
    let twice : Tree := .object
      [(some "role", .string "r"), (some "content", .string "x"), (some "role", .null)] true
    let broken : Tree := .object
      [(some "role", .string "r"), (some "content", .string "x"), (some "name", .unusable)] true
    let document (message : Tree) : List (Option String × Tree) :=
      [(some "prompt", .array [message] true), (some "type", .string "chat"),
        (some "name", .string "n")]
    let spec : Spec := ⟨"n", .chat, .chat [⟨"r", "x"⟩], none, ["l"], []⟩
    (Spec.decoder (.object (document message) true)).toOption =
        (Spec.decoder
          (.object ((some "commitMessage", .null) :: document odd) true)).toOption ∧
      (Spec.decoder (.object ((some "name", .null) :: document message) true)).toOption = none ∧
      (Spec.decoder (.object (document twice) true)).toOption = none ∧
      (Spec.decoder (.object ((some "tags", .null) :: document message) true)).toOption = none ∧
      (Spec.decoder (.object (document broken) true)).toOption = none ∧
      Spec.decoder (.ofValue (.array (spec.values.take 5))) = .ok spec := by
  intro message odd twice broken document spec
  obtain ⟨halike, hrepeats, htwice, hnull, hunreadable, hvalues⟩ := spellings_are_read_alike
  have hholds (message : Tree) : fields.Holds "prompt" (.array [message] true)
      (.object (document message) true) := .object List.mem_cons_self
  refine ⟨halike _ _ ?_, hrepeats _ ?_, htwice _ twice [twice] true (hholds twice) (by simp) ?_,
    hnull _ "tags" (.inr rfl) (.object List.mem_cons_self),
    hunreadable _ [broken] true _ true (some "name", .unusable) (hholds broken)
      List.mem_cons_self (by simp) (by simp [Tree.IsReadable, Tree.value?]),
    hvalues spec 5 (by decide) (by decide) (by decide) (by decide)⟩
  · let longer : Tree := .object
      [(some "name", .null), (some "role", .string "r"), (some "content", .string "x")] true
    have hlonger : Message.Respells message longer := .unknown (by decide) rfl
    have hodd : Message.Respells longer odd :=
      .members (List.perm_append_comm : ([_, _] ++ [_]).Perm ([_] ++ [_, _]))
    have hlonger' : Respells (.object (document message) true) (.object (document longer) true) :=
      .messageInObject hlonger [] []
    have hodd' : Respells (.object (document longer) true) (.object (document odd) true) :=
      .messageInObject hodd [] []
    have hput : Respells (.object (document odd) true)
        (.object ((some "commitMessage", .null) :: document odd) true) :=
      .noCommitMessage (by simp [document])
    exact .trans _ _ _ (.rel _ _ hlonger') (.trans _ _ _ (.rel _ _ hodd') (.rel _ _ hput))
  · exact ⟨"name", by decide, [], .null, [_, _], .string "n", [], true, rfl⟩
  · exact ⟨"role", by decide, [], .string "r", [_], .null, [], true, rfl⟩

/-- A member that a message does not know makes a document unreadable when it is nested too deep. -/
theorem deep_message_member_is_refused :
    let deep : Json := (fun value => Json.array [value])^[125] .null
    let document (members : List (String × Json)) : Json := .object
      [("name", .string "n"), ("type", .string "chat"),
        ("prompt", .array [.object
          (members ++ [("role", .string "r"), ("content", .string "x")])])]
    "x" ∉ Message.fields.names ∧
      Spec.decoder (.ofValue (document [])) = .ok ⟨"n", .chat, .chat [⟨"r", "x"⟩], none, [], []⟩ ∧
      (Spec.decoder (.ofValue (document [("x", deep)]))).toOption = none := by
  intro deep document
  refine ⟨by decide, by rfl, ?_⟩
  have hdepth : nestingLimit - 3 < deep.depth := by decide +kernel
  have hunreadable : ¬(Tree.ofValue deep).IsReadable (nestingLimit - 3) :=
    Tree.not_isReadable_ofValue hdepth
  have hmember : (some "x", Tree.ofValue deep) ∈ Tree.ofMembers
      [("x", deep), ("role", .string "r"), ("content", .string "x")] := List.mem_cons_self
  have hprompt : fields.Holds "prompt"
      (.ofValue (.array [.object [("x", deep), ("role", .string "r"), ("content", .string "x")]]))
      (.ofValue (document [("x", deep)])) :=
    .object (List.mem_cons_of_mem _ (List.mem_cons_of_mem _ List.mem_cons_self))
  exact refuses_unreadable_message_member hprompt List.mem_cons_self hmember hunreadable

end Spec

end PromptRegistry
