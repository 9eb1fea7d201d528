import PromptRegistry.Json.Decoder
import PromptRegistry.Proofs.Json.Canonical

namespace PromptRegistry.Json.Tree

/-- A tree that has a value whose containers nest at most so many levels deep. -/
def IsReadable (levels : Nat) (tree : Tree) : Prop := (tree.value? levels).isSome = true

variable {levels : Nat}

mutual

theorem ofValue_of_value? (levels : Nat) : ∀ (tree : Tree) {value : Json},
    tree.value? levels = some value → ofValue value = tree
  | .fault, _, h => by cases h
  | .unusable, _, h => by cases h
  | .null, _, h => by cases h; rfl
  | .bool _, _, h => by cases h; rfl
  | .number _, _, h => by cases h; rfl
  | .string _, _, h => by cases h; rfl
  | .array trees complete, value, h => by
      rw [value?] at h
      split at h
      case isTrue => cases h
      case isFalse hlevels =>
        obtain ⟨items, hitems, rfl⟩ := Option.map_eq_some_iff.mp h
        have hcomplete : complete = true := by simpa using (not_or.mp hlevels).2
        rw [ofValue, ofItems_of_items? (levels - 1) trees hitems, hcomplete]
  | .object trees complete, value, h => by
      rw [value?] at h
      split at h
      case isTrue => cases h
      case isFalse hlevels =>
        obtain ⟨members, hmembers, rfl⟩ := Option.map_eq_some_iff.mp h
        have hcomplete : complete = true := by simpa using (not_or.mp hlevels).2
        rw [ofValue, ofMembers_of_members? (levels - 1) trees hmembers, hcomplete]

theorem ofItems_of_items? (levels : Nat) : ∀ (trees : List Tree) {items : List Json},
    items? levels trees = some items → ofItems items = trees
  | [], _, h => by cases h; rfl
  | tree :: trees, items, h => by
      obtain ⟨item, hitem, h⟩ := Option.bind_eq_some_iff.mp h
      obtain ⟨items, hitems, h⟩ := Option.bind_eq_some_iff.mp h
      cases h
      rw [ofItems, ofValue_of_value? levels tree hitem, ofItems_of_items? levels trees hitems]

theorem ofMembers_of_members? (levels : Nat) : ∀ (trees : List (Option String × Tree))
    {members : List (String × Json)}, members? levels trees = some members →
      ofMembers members = trees
  | [], _, h => by cases h; rfl
  | (name, tree) :: trees, members, h => by
      obtain ⟨name', hname, h⟩ := Option.bind_eq_some_iff.mp h
      obtain ⟨value, hvalue, h⟩ := Option.bind_eq_some_iff.mp h
      obtain ⟨members, hmembers, h⟩ := Option.bind_eq_some_iff.mp h
      cases h
      rw [ofMembers, ofValue_of_value? levels tree hvalue,
        ofMembers_of_members? levels trees hmembers, hname]

end

theorem isReadable_iff {tree : Tree} :
    tree.IsReadable levels ↔ ∃ value, tree.value? levels = some value ∧ ofValue value = tree := by
  rw [IsReadable, Option.isSome_iff_exists]
  constructor
  · intro h
    obtain ⟨value, hvalue⟩ := h
    exact ⟨value, hvalue, ofValue_of_value? levels tree hvalue⟩
  · intro h
    obtain ⟨value, hvalue, -⟩ := h
    exact ⟨value, hvalue⟩

theorem IsReadable.isWhole {tree : Tree} (h : tree.IsReadable levels) : tree.isWhole = true := by
  obtain ⟨value, -, rfl⟩ := isReadable_iff.mp h
  exact ofValue_isWhole value

theorem ofValue_injective {first second : Json} (h : ofValue first = ofValue second) :
    first = second := by
  have hread := value?_ofValue (max first.depth second.depth) first (le_max_left _ _)
  rw [h, value?_ofValue _ second (le_max_right _ _)] at hread
  exact (Option.some.inj hread).symm

theorem ofValue_eq_string_iff {value : Json} {text : String} :
    ofValue value = .string text ↔ value = .string text := by
  cases value <;> simp [ofValue]

theorem isReadable_ofValue {value : Json} (h : value.depth ≤ levels) :
    (ofValue value).IsReadable levels := by
  rw [IsReadable, value?_ofValue levels value h]
  rfl

theorem not_isReadable_ofValue {value : Json} (h : levels < value.depth) :
    ¬(ofValue value).IsReadable levels := by
  intro hreadable
  obtain ⟨read, hread, hvalue⟩ := isReadable_iff.mp hreadable
  have hdepth := depth_le_of_value? levels _ hread
  rw [ofValue_injective hvalue] at hdepth
  omega

private theorem items?_isSome_iff {items : List Tree} :
    (items? levels items).isSome = true ↔ ∀ item ∈ items, item.IsReadable levels := by
  induction items with
  | nil => simp [items?]
  | cons item items ih =>
      rw [List.forall_mem_cons, ← ih, items?, IsReadable]
      cases item.value? levels <;> cases items? levels items <;> simp

private theorem members?_isSome_iff {members : List (Option String × Tree)} :
    (members? levels members).isSome = true ↔
      ∀ member ∈ members, member.1 ≠ none ∧ member.2.IsReadable levels := by
  induction members with
  | nil => simp [members?]
  | cons member members ih =>
      obtain ⟨name, value⟩ := member
      rw [List.forall_mem_cons, ← ih, members?, IsReadable]
      cases name <;> cases value.value? levels <;> cases members? levels members <;> simp

theorem isReadable_array_iff {items : List Tree} {complete : Bool} :
    (Tree.array items complete).IsReadable levels ↔
      levels ≠ 0 ∧ complete = true ∧ ∀ item ∈ items, item.IsReadable (levels - 1) := by
  rw [← items?_isSome_iff, IsReadable, value?]
  split
  case isTrue h => rcases h with h | h <;> simp [h]
  case isFalse h =>
    rw [not_or] at h
    simp [h.1, h.2]

theorem isReadable_object_iff {members : List (Option String × Tree)} {complete : Bool} :
    (Tree.object members complete).IsReadable levels ↔
      levels ≠ 0 ∧ complete = true ∧
        ∀ member ∈ members, member.1 ≠ none ∧ member.2.IsReadable (levels - 1) := by
  rw [← members?_isSome_iff, IsReadable, value?]
  split
  case isTrue h => rcases h with h | h <;> simp [h]
  case isFalse h =>
    rw [not_or] at h
    simp [h.1, h.2]

end PromptRegistry.Json.Tree
