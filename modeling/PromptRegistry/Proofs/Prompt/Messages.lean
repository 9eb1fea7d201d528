import PromptRegistry.Prompt.Wire
import PromptRegistry.Proofs.Json.Canonical
import PromptRegistry.Proofs.Json.Readable
import PromptRegistry.Proofs.Json.Spelling
import PromptRegistry.Proofs.Prompt.Wire

namespace PromptRegistry

open Json

namespace Json.Decoder

theorem text_eq_ok_iff {tree : Tree} {value : String} :
    text tree = .ok value ↔ tree = .string value := by
  cases tree <;> simp [text]

private theorem mapM_eq_ok_iff {α : Type} {decoder : Decoder α} {items : List Tree}
    {values : List α} : items.mapM decoder = .ok values ↔
      List.Forall₂ (fun item value => decoder item = .ok value) items values := by
  induction items generalizing values with
  | nil => cases values <;> simp [pure, Except.pure]
  | cons item items ih =>
      rw [List.mapM_cons]
      cases hitem : decoder item with
      | error fault => cases values <;> simp [bind, Except.bind, hitem]
      | ok value =>
          cases hitems : items.mapM decoder <;> cases values <;>
            simp [bind, Except.bind, pure, Except.pure, ← ih, hitems, hitem]

theorem list_eq_ok_iff {α : Type} {decoder : Decoder α} {tree : Tree} {values : List α} :
    list decoder tree = .ok values ↔ ∃ items, tree = .array items true ∧
      List.Forall₂ (fun item value => decoder item = .ok value) items values := by
  cases tree with
  | array items complete =>
      simp only [← mapM_eq_ok_iff, list]
      cases hitems : items.mapM decoder <;> cases complete <;>
        simp [bind, Except.bind, pure, Except.pure, throw, throwThe, MonadExceptOf.throw, hitems]
  | _ => simp [list]

end Json.Decoder

namespace Message

/-- The values that are read as a message: the order of the members and other members do not
matter. -/
inductive IsSpelledBy (message : Message) : Json → Prop
  | object {members : List (String × Json)}
      (hrole : valueAt? "role" members = some (.string message.role))
      (hcontent : valueAt? "content" members = some (.string message.content)) :
      IsSpelledBy message (.object members)
  | array : IsSpelledBy message (.array [.string message.role, .string message.content])

theorem decoder_eq_ok_iff {tree : Tree} {message : Message} : decoder tree = .ok message ↔
    Fields.HoldsPair "role" "content" (.string message.role) (.string message.content) tree := by
  have hpair : decoder = (Fields.pair Message.mk "role" Decoder.text "content"
      Decoder.text).decoder "ChatMessage" := rfl
  rw [hpair, Fields.decoder_pair_eq_ok_iff (by decide)]
  simp only [Decoder.text_eq_ok_iff]
  constructor
  · rintro ⟨_, _, role, content, hholds, rfl, rfl, rfl⟩
    exact hholds
  · intro hholds
    exact ⟨_, _, _, _, hholds, rfl, rfl, rfl⟩

/-- Where names are not repeated, the values that are read as a message are its spellings. -/
theorem decoder_ofValue_eq_ok_iff {value : Json} {message : Message}
    (h : ∀ members, value = .object members → (members.map Prod.fst).Nodup) :
    decoder (.ofValue value) = .ok message ↔ message.IsSpelledBy value := by
  constructor
  · intro hok
    cases value with
    | object members =>
        rw [Tree.ofValue, decoder_eq_ok_iff] at hok
        generalize htrees : Tree.ofMembers members = trees at hok
        cases hok with
        | object hmembers =>
            have hmember {name text : String} (hname : (some name, Tree.string text) ∈ trees) :
                valueAt? name members = some (.string text) := by
              rw [← htrees, Tree.ofMembers_eq_map] at hname
              obtain ⟨⟨_, value⟩, hmember, hpair⟩ := List.mem_map.mp hname
              obtain ⟨hkey, hvalue⟩ := Prod.mk.inj hpair
              obtain rfl := Option.some.inj hkey
              obtain rfl := Tree.ofValue_eq_string_iff.mp hvalue
              exact valueAt?_eq_some_of_mem (h members rfl) hmember
            exact .object (hmember (hmembers.mem_iff.mpr (by simp)))
              (hmember (hmembers.mem_iff.mpr (by simp)))
    | array items =>
        rw [Tree.ofValue, decoder_eq_ok_iff] at hok
        generalize htrees : Tree.ofItems items = trees at hok
        cases hok with
        | array =>
            have hvalues : Tree.ofValue (.array items) =
                Tree.ofValue (.array [.string message.role, .string message.content]) := by
              rw [Tree.ofValue, htrees]
              rfl
            obtain rfl := Json.array.inj (Tree.ofValue_injective hvalues)
            exact .array
    | _ => cases hok
  · intro hspelled
    cases hspelled with
    | object hrole hcontent => exact decoder_of_members (h _ rfl) hrole hcontent
    | array => exact decoder_eq_ok_iff.mpr .array

end Message

namespace Body

/-- The body that a tree is when it is taken as a text or as messages. -/
inductive IsReadFrom (tree : Tree) : Body → Prop
  | text {template : String} (h : tree = .string template) : IsReadFrom tree (.text template)
  | chat {messages : List Message} (h : messagesDecoder tree = .ok messages) :
      IsReadFrom tree (.chat messages)

theorem ofValue?_eq_some_iff {value : Json} {body : Body} :
    ofValue? value = some body ↔ body.IsReadFrom (.ofValue value) := by
  unfold ofValue?
  split
  case h_1 template =>
    constructor
    · intro h
      obtain rfl := Option.some.inj h
      exact .text rfl
    · intro h
      cases h with
      | text htext =>
          obtain rfl := Json.string.inj (Tree.ofValue_eq_string_iff.mp htext)
          rfl
      | chat hmessages => cases hmessages
  case h_2 hstring =>
    constructor
    · intro h
      cases hmessages : messagesDecoder (Tree.ofValue _) with
      | error fault =>
          rw [hmessages] at h
          cases h
      | ok messages =>
          rw [hmessages] at h
          obtain rfl := Option.some.inj h
          exact .chat hmessages
    · intro h
      cases h with
      | text htext => exact absurd (Tree.ofValue_eq_string_iff.mp htext) (hstring _)
      | chat hmessages => rw [hmessages]; rfl

theorem decoder_eq_ok_iff {levels : Nat} {tree : Tree} {body : Body} :
    Body.decoder levels tree = .ok body ↔ tree.IsReadable levels ∧ body.IsReadFrom tree := by
  unfold Body.decoder
  split
  case h_1 hnone => simp [Tree.IsReadable, hnone]
  case h_2 value hvalue =>
    have hreadable : tree.IsReadable levels := by rw [Tree.IsReadable, hvalue]; rfl
    rw [← Tree.ofValue_of_value? levels tree hvalue, ← ofValue?_eq_some_iff] at *
    split
    case h_1 body' hbody => simp [hbody, hreadable]
    case h_2 hnone => simp [hnone]

end Body

end PromptRegistry
