import PromptRegistry.Proofs.Json.Fields
import PromptRegistry.Proofs.Json.Token

/-! # Integers that are read -/

namespace PromptRegistry.Json

/-- A number that is an integer is one of 64 bits. -/
def Number.IsWorded : Number → Prop
  | .integer value => IsWord value
  | .real _ => True

theorem appendDigits_le {value : Nat} (digits : List Nat) (h : value ≤ maxWord) :
    (appendDigits value digits).1 ≤ maxWord := by
  induction digits generalizing value with
  | nil => exact h
  | cons d digits ih =>
      rw [appendDigits]
      split
      case isTrue => exact h
      case isFalse hd => exact ih (Nat.not_lt.mp hd)

theorem Literal.value?_worded {literal : Literal} {number : Number}
    (h : literal.value? = some number) : number.IsWorded := by
  have hword := appendDigits_le literal.whole (Nat.zero_le maxWord)
  obtain ⟨⟨significand, taken⟩, hread⟩ : ∃ result, appendDigits 0 literal.whole = result :=
    ⟨_, rfl⟩
  rw [hread] at hword
  rw [Literal.value?, hread] at h
  dsimp only at h
  split at h
  case isTrue =>
    split at h
    case isTrue =>
      obtain rfl := Option.some.inj h
      exact ⟨by omega, Int.ofNat_le.mpr hword⟩
    case isFalse =>
      split at h
      case isTrue hnegative =>
        obtain rfl := Option.some.inj h
        exact ⟨by omega, by omega⟩
      case isFalse =>
        obtain ⟨value, -, rfl⟩ := Option.map_eq_some_iff.mp h
        trivial
  case isFalse =>
    obtain ⟨value, -, rfl⟩ := Option.map_eq_some_iff.mp h
    trivial

def Token.IsWorded : Token → Prop
  | .number value => ∀ number ∈ value, number.IsWorded
  | _ => True

theorem Token.read?_worded {text : List Char} {token : Token} {length : Nat}
    (h : Token.read? text = some (token, length)) : token.IsWorded := by
  unfold Token.read? at h
  split at h
  all_goals first
    | (cases h; trivial)
    | skip
  · obtain ⟨_, -, h⟩ := Option.map_eq_some_iff.mp h
    cases h
    trivial
  · obtain ⟨_, -, h⟩ := Option.map_eq_some_iff.mp h
    cases h
    exact fun number hnumber => Literal.value?_worded hnumber

theorem Token.scanAfter_worded (skip : Nat) (text : List Char) :
    ∀ token ∈ Token.scanAfter skip text, token.IsWorded := by
  induction text generalizing skip with
  | nil => simp [scanAfter]
  | cons c cs ih =>
      cases skip with
      | succ skip => exact ih skip
      | zero =>
          rw [scanAfter]
          split
          case isTrue => exact ih 0
          case isFalse =>
            split
            case h_1 token length hread =>
              exact List.forall_mem_cons.mpr ⟨read?_worded hread, ih _⟩
            case h_2 => exact List.forall_mem_singleton.mpr trivial

namespace Tree

mutual

/-- All integers in a tree are of 64 bits. -/
def IsWorded : Tree → Prop
  | .number value => value.IsWorded
  | .array items _ => ItemsWorded items
  | .object members _ => MembersWorded members
  | _ => True

def ItemsWorded : List Tree → Prop
  | [] => True
  | item :: items => item.IsWorded ∧ ItemsWorded items

def MembersWorded : List (Option String × Tree) → Prop
  | [] => True
  | (_, value) :: members => value.IsWorded ∧ MembersWorded members

end

theorem itemsWorded_iff {items : List Tree} :
    ItemsWorded items ↔ ∀ item ∈ items, item.IsWorded := by
  induction items with
  | nil => simp [ItemsWorded]
  | cons item items ih => simp [ItemsWorded, ih]

theorem membersWorded_iff {members : List (Option String × Tree)} :
    MembersWorded members ↔ ∀ member ∈ members, member.2.IsWorded := by
  induction members with
  | nil => simp [MembersWorded]
  | cons member members ih => rw [MembersWorded, ih, List.forall_mem_cons]

def Frame.IsWorded : Frame → Prop
  | .array items => ∀ item ∈ items, item.IsWorded
  | .object members => ∀ member ∈ members, member.2.IsWorded
  | .member members _ => ∀ member ∈ members, member.2.IsWorded

def Progress.IsWorded : Progress → Prop
  | .reading frames _ => ∀ frame ∈ frames, frame.IsWorded
  | .finished tree => tree.IsWorded

theorem member_worded {name : Option String} {value : Tree} (h : value.IsWorded) :
    (member name value).2.IsWorded := by
  cases name with
  | none => trivial
  | some name => exact h

theorem abandon_worded {frames : List Frame} {last : Option Tree}
    (hframes : ∀ frame ∈ frames, frame.IsWorded) (hlast : ∀ tree ∈ last, tree.IsWorded) :
    (abandon frames last).IsWorded := by
  induction frames generalizing last with
  | nil =>
      cases last with
      | none => trivial
      | some tree => exact hlast tree rfl
  | cons frame frames ih =>
      obtain ⟨hframe, hrest⟩ := List.forall_mem_cons.mp hframes
      have hclosed {tree : Tree} (h : tree.IsWorded) : (abandon frames (some tree)).IsWorded := by
        apply ih hrest
        rintro _ ⟨⟩
        exact h
      cases frame with
      | array items =>
          apply hclosed
          rw [IsWorded, itemsWorded_iff]
          intro item hitem
          rcases List.mem_append.mp (List.mem_reverse.mp hitem) with hitem | hitem
          · exact hlast item (Option.mem_toList.mp hitem)
          · exact hframe item hitem
      | object members =>
          apply hclosed
          rw [IsWorded, membersWorded_iff]
          exact fun member hmember => hframe member (List.mem_reverse.mp hmember)
      | member members name =>
          apply hclosed
          rw [IsWorded, membersWorded_iff]
          intro member hmember
          rcases List.mem_cons.mp (List.mem_reverse.mp hmember) with rfl | hmember
          · apply member_worded
            cases last with
            | none => trivial
            | some tree => exact hlast tree rfl
          · exact hframe member hmember

theorem settle_worded {frames : List Frame} {value : Tree}
    (hframes : ∀ frame ∈ frames, frame.IsWorded) (hvalue : value.IsWorded) :
    (settle frames value).IsWorded := by
  cases frames with
  | nil => exact hvalue
  | cons frame frames =>
      obtain ⟨hframe, hrest⟩ := List.forall_mem_cons.mp hframes
      cases frame with
      | array items =>
          exact List.forall_mem_cons.mpr ⟨List.forall_mem_cons.mpr ⟨hvalue, hframe⟩, hrest⟩
      | object members => exact abandon_worded hframes (by simp)
      | member members name =>
          exact List.forall_mem_cons.mpr
            ⟨List.forall_mem_cons.mpr ⟨member_worded hvalue, hframe⟩, hrest⟩

theorem ofToken?_worded {token : Token} {tree : Tree} (htoken : token.IsWorded)
    (h : ofToken? token = some tree) : tree.IsWorded := by
  cases token with
  | number value =>
      cases value with
      | none => cases h; trivial
      | some number => cases h; exact htoken number rfl
  | string value => cases value <;> (cases h; trivial)
  | null => cases h; trivial
  | bool value => cases h; trivial
  | _ => cases h

theorem beginValue_worded {token : Token} {frames : List Frame} (htoken : token.IsWorded)
    (hframes : ∀ frame ∈ frames, frame.IsWorded) : (beginValue token frames).IsWorded := by
  unfold beginValue
  split
  · exact List.forall_mem_cons.mpr ⟨by simp [Frame.IsWorded], hframes⟩
  · exact List.forall_mem_cons.mpr ⟨by simp [Frame.IsWorded], hframes⟩
  · split
    case h_1 value hvalue => exact settle_worded hframes (ofToken?_worded htoken hvalue)
    case h_2 => exact abandon_worded hframes (by simp [IsWorded])

theorem beginName_worded {frames : List Frame} (token : Token)
    (hframes : ∀ frame ∈ frames, frame.IsWorded) : (beginName token frames).IsWorded := by
  unfold beginName
  split
  · obtain ⟨hmembers, hrest⟩ := List.forall_mem_cons.mp hframes
    exact List.forall_mem_cons.mpr ⟨hmembers, hrest⟩
  · exact abandon_worded hframes (by simp)

theorem endContainer?_worded {token : Token} {frames : List Frame} {progress : Progress}
    (hframes : ∀ frame ∈ frames, frame.IsWorded) (h : endContainer? token frames = some progress) :
    progress.IsWorded := by
  unfold endContainer? at h
  split at h
  · cases h
    obtain ⟨hitems, hrest⟩ := List.forall_mem_cons.mp hframes
    apply settle_worded hrest
    rw [IsWorded, itemsWorded_iff]
    exact fun item hitem => hitems item (List.mem_reverse.mp hitem)
  · cases h
    obtain ⟨hmembers, hrest⟩ := List.forall_mem_cons.mp hframes
    apply settle_worded hrest
    rw [IsWorded, membersWorded_iff]
    exact fun member hmember => hmembers member (List.mem_reverse.mp hmember)
  · cases h

theorem step_worded {token : Token} {frames : List Frame} (awaiting : Awaiting)
    (htoken : token.IsWorded) (hframes : ∀ frame ∈ frames, frame.IsWorded) :
    (step token frames awaiting).IsWorded := by
  have hend {other : Progress} (hother : other.IsWorded) :
      ((endContainer? token frames).getD other).IsWorded := by
    cases h : endContainer? token frames with
    | none => exact hother
    | some progress => exact endContainer?_worded hframes h
  have habandon : (Progress.finished (abandon frames none)).IsWorded :=
    abandon_worded hframes (by simp)
  cases awaiting with
  | value => exact beginValue_worded htoken hframes
  | firstItem => exact hend (beginValue_worded htoken hframes)
  | name => exact beginName_worded token hframes
  | firstName => exact hend (beginName_worded token hframes)
  | colon =>
      rw [step]
      split
      · exact hframes
      · exact habandon
  | separator =>
      rw [step.eq_def]
      dsimp only
      split
      · exact hframes
      · exact hframes
      · exact hend habandon

theorem build_worded {progress : Progress} {tokens : List Token} (hprogress : progress.IsWorded)
    (htokens : ∀ token ∈ tokens, token.IsWorded) : (build progress tokens).1.IsWorded := by
  induction tokens generalizing progress with
  | nil =>
      cases progress with
      | finished tree => exact hprogress
      | reading frames awaiting => exact abandon_worded hprogress (by simp)
  | cons token tokens ih =>
      obtain ⟨htoken, hrest⟩ := List.forall_mem_cons.mp htokens
      cases progress with
      | finished tree => exact hprogress
      | reading frames awaiting => exact ih (step_worded awaiting htoken hprogress) hrest

/-- All integers in the tree of a text are of 64 bits. -/
theorem ofText_worded (text : List Char) : (ofText text).1.IsWorded := by
  have hstart : (Progress.reading [] .value).IsWorded := fun _ h => (List.not_mem_nil h).elim
  exact build_worded hstart (Token.scanAfter_worded 0 text)

end Tree

theorem Fields.found?_worded {α : Type} {fields : Fields α} {name : String} {tree child : Tree}
    (htree : tree.IsWorded) (h : fields.found? name tree = some child) : child.IsWorded := by
  cases tree with
  | object members complete =>
      rw [Tree.IsWorded, Tree.membersWorded_iff] at htree
      obtain ⟨member, hmember, hchild⟩ := List.mem_filterMap.mp (mem_of_valueAt?_eq_some h)
      obtain ⟨other, -, hother⟩ := Option.bind_eq_some_iff.mp hchild
      split at hother
      · cases hother
        exact htree member hmember
      · cases hother
  | array items complete =>
      rw [Tree.IsWorded, Tree.itemsWorded_iff] at htree
      exact htree child (List.of_mem_zip (mem_of_valueAt?_eq_some h)).2
  | _ => cases h

end PromptRegistry.Json
