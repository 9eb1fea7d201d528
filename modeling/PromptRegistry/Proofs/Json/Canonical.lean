import PromptRegistry.Json.Tree
import PromptRegistry.Proofs.Index.Lookup

namespace PromptRegistry.Json

mutual

def depth : Json → Nat
  | .array items => itemsDepth items + 1
  | .object members => membersDepth members + 1
  | _ => 0

def itemsDepth : List Json → Nat
  | [] => 0
  | item :: items => max item.depth (itemsDepth items)

def membersDepth : List (String × Json) → Nat
  | [] => 0
  | (_, value) :: members => max value.depth (membersDepth members)

end

theorem itemsDepth_le_iff {items : List Json} {levels : Nat} :
    itemsDepth items ≤ levels ↔ ∀ item ∈ items, item.depth ≤ levels := by
  induction items with
  | nil => simp [itemsDepth]
  | cons item items ih => simp [itemsDepth, ih]

theorem membersDepth_le_iff {members : List (String × Json)} {levels : Nat} :
    membersDepth members ≤ levels ↔ ∀ member ∈ members, member.2.depth ≤ levels := by
  induction members with
  | nil => simp [membersDepth]
  | cons member members ih => simp [membersDepth, ih]

namespace Tree

theorem ofItems_eq_map (items : List Json) : ofItems items = items.map ofValue := by
  induction items with
  | nil => rfl
  | cons item items ih => rw [ofItems, ih, List.map_cons]

theorem ofMembers_eq_map (members : List (String × Json)) :
    ofMembers members = members.map fun member => (some member.1, ofValue member.2) := by
  induction members with
  | nil => rfl
  | cons member members ih => rw [ofMembers, ih, List.map_cons]

theorem ofValue_isWhole (value : Json) : (ofValue value).isWhole = true := by
  cases value <;> rfl

mutual

theorem value?_ofValue (levels : Nat) : ∀ value : Json, value.depth ≤ levels →
    (ofValue value).value? levels = some value
  | .null, _ => rfl
  | .bool _, _ => rfl
  | .number _, _ => rfl
  | .string _, _ => rfl
  | .array items, h => by
      rw [depth] at h
      rw [ofValue, value?, items?_ofItems (levels - 1) items (by omega)]
      simp
      omega
  | .object members, h => by
      rw [depth] at h
      rw [ofValue, value?, members?_ofMembers (levels - 1) members (by omega)]
      simp
      omega

theorem items?_ofItems (levels : Nat) : ∀ items : List Json, itemsDepth items ≤ levels →
    items? levels (ofItems items) = some items
  | [], _ => rfl
  | item :: items, h => by
      rw [itemsDepth] at h
      rw [ofItems, items?, value?_ofValue levels item (by omega),
        items?_ofItems levels items (by omega)]
      rfl

theorem members?_ofMembers (levels : Nat) : ∀ members : List (String × Json),
    membersDepth members ≤ levels → members? levels (ofMembers members) = some members
  | [], _ => rfl
  | (name, value) :: members, h => by
      rw [membersDepth] at h
      rw [ofMembers, members?, value?_ofValue levels value (by omega),
        members?_ofMembers levels members (by omega)]
      rfl

end

mutual

theorem depth_le_of_value? (levels : Nat) : ∀ (tree : Tree) {value : Json},
    tree.value? levels = some value → value.depth ≤ levels
  | .fault, _, h => by cases h
  | .unusable, _, h => by cases h
  | .null, _, h => by cases h; exact Nat.zero_le _
  | .bool _, _, h => by cases h; exact Nat.zero_le _
  | .number _, _, h => by cases h; exact Nat.zero_le _
  | .string _, _, h => by cases h; exact Nat.zero_le _
  | .array trees complete, value, h => by
      rw [value?] at h
      split at h
      case isTrue => cases h
      case isFalse hlevels =>
        obtain ⟨items, hitems, rfl⟩ := Option.map_eq_some_iff.mp h
        have hdepth := depth_le_of_items? (levels - 1) trees hitems
        rw [depth]
        omega
  | .object trees complete, value, h => by
      rw [value?] at h
      split at h
      case isTrue => cases h
      case isFalse hlevels =>
        obtain ⟨members, hmembers, rfl⟩ := Option.map_eq_some_iff.mp h
        have hdepth := depth_le_of_members? (levels - 1) trees hmembers
        rw [depth]
        omega

theorem depth_le_of_items? (levels : Nat) : ∀ (trees : List Tree) {items : List Json},
    items? levels trees = some items → itemsDepth items ≤ levels
  | [], _, h => by cases h; exact Nat.zero_le _
  | tree :: trees, items, h => by
      obtain ⟨item, hitem, h⟩ := Option.bind_eq_some_iff.mp h
      obtain ⟨items, hitems, h⟩ := Option.bind_eq_some_iff.mp h
      cases h
      exact Nat.max_le.mpr ⟨depth_le_of_value? levels tree hitem,
        depth_le_of_items? levels trees hitems⟩

theorem depth_le_of_members? (levels : Nat) : ∀ (trees : List (Option String × Tree))
    {members : List (String × Json)}, members? levels trees = some members →
      membersDepth members ≤ levels
  | [], _, h => by cases h; exact Nat.zero_le _
  | (name, tree) :: trees, members, h => by
      obtain ⟨name, -, h⟩ := Option.bind_eq_some_iff.mp h
      obtain ⟨value, hvalue, h⟩ := Option.bind_eq_some_iff.mp h
      obtain ⟨members, hmembers, h⟩ := Option.bind_eq_some_iff.mp h
      cases h
      exact Nat.max_le.mpr ⟨depth_le_of_value? levels tree hvalue,
        depth_le_of_members? levels trees hmembers⟩

end

end Tree

theorem canonicalItems_eq_map (items : List Json) :
    canonicalItems items = items.map canonical := by
  induction items with
  | nil => rfl
  | cons item items ih => rw [canonicalItems, ih, List.map_cons]

theorem canonicalMembers_ascending (members : List (String × Json))
    {sorted : List (String × Json)} (h : sorted.Pairwise (·.1 < ·.1)) :
    (canonicalMembers members sorted).Pairwise (·.1 < ·.1) := by
  induction members generalizing sorted with
  | nil => exact h
  | cons member members ih => exact ih (insertEntry_ascending _ _ h)

/-- Members that are canonical and follow an ascending list are put behind it. -/
theorem canonicalMembers_of_sorted {members sorted : List (String × Json)}
    (hascending : (sorted ++ members).Pairwise (·.1 < ·.1))
    (hcanonical : ∀ member ∈ members, member.2.canonical = member.2) :
    canonicalMembers members sorted = sorted ++ members := by
  induction members generalizing sorted with
  | nil => simp [canonicalMembers]
  | cons member members ih =>
      obtain ⟨name, value⟩ := member
      have hgreater : ∀ entry ∈ sorted, entry.1 < name := fun entry hentry =>
        (List.pairwise_append.mp hascending).2.2 entry hentry (name, value) List.mem_cons_self
      rw [List.append_cons] at hascending
      rw [canonicalMembers, hcanonical _ List.mem_cons_self, insertEntry_of_greater value hgreater,
        ih hascending fun member hmember => hcanonical member (List.mem_cons_of_mem _ hmember)]
      simp

mutual

@[simp] theorem canonical_canonical : ∀ value : Json, value.canonical.canonical = value.canonical
  | .null => rfl
  | .bool _ => rfl
  | .number _ => rfl
  | .string _ => rfl
  | .array items => by
      rw [canonical, canonical, canonicalItems_canonicalItems items]
  | .object members => by
      have hascending : (canonicalMembers members []).Pairwise (·.1 < ·.1) :=
        canonicalMembers_ascending members .nil
      have hcanonical := canonical_of_mem_canonicalMembers members []
        fun _ hmember => (List.not_mem_nil hmember).elim
      rw [canonical, canonical, canonicalMembers_of_sorted hascending hcanonical,
        List.nil_append]

theorem canonicalItems_canonicalItems : ∀ items : List Json,
    canonicalItems (canonicalItems items) = canonicalItems items
  | [] => rfl
  | item :: items => by
      rw [canonicalItems, canonicalItems, canonical_canonical item,
        canonicalItems_canonicalItems items]

theorem canonical_of_mem_canonicalMembers : ∀ members sorted : List (String × Json),
    (∀ member ∈ sorted, member.2.canonical = member.2) →
      ∀ member ∈ canonicalMembers members sorted, member.2.canonical = member.2
  | [], _, h => h
  | (name, value) :: members, sorted, h => by
      rw [canonicalMembers]
      apply canonical_of_mem_canonicalMembers members
      intro member hmember
      rcases mem_insertEntry hmember with rfl | hmember
      · exact canonical_canonical value
      · exact h member hmember

end

mutual

theorem canonical_depth_le (levels : Nat) : ∀ value : Json, value.depth ≤ levels →
    value.canonical.depth ≤ levels
  | .null, h => h
  | .bool _, h => h
  | .number _, h => h
  | .string _, h => h
  | .array items, h => by
      rw [depth] at h
      rw [canonical, depth]
      have hitems := canonicalItems_depth_le (levels - 1) items (by omega)
      omega
  | .object members, h => by
      rw [depth] at h
      rw [canonical, depth]
      have hmembers := canonicalMembers_depth_le (levels - 1) members [] (by omega)
        (Nat.zero_le _)
      omega

theorem canonicalItems_depth_le (levels : Nat) : ∀ items : List Json,
    itemsDepth items ≤ levels → itemsDepth (canonicalItems items) ≤ levels
  | [], h => h
  | item :: items, h => by
      rw [itemsDepth] at h
      have hitem := canonical_depth_le levels item (by omega)
      have hitems := canonicalItems_depth_le levels items (by omega)
      rw [canonicalItems, itemsDepth]
      omega

theorem canonicalMembers_depth_le (levels : Nat) : ∀ members sorted : List (String × Json),
    membersDepth members ≤ levels → membersDepth sorted ≤ levels →
      membersDepth (canonicalMembers members sorted) ≤ levels
  | [], _, _, hsorted => hsorted
  | (name, value) :: members, sorted, h, hsorted => by
      rw [membersDepth] at h
      rw [canonicalMembers]
      apply canonicalMembers_depth_le levels members _ (by omega)
      rw [membersDepth_le_iff] at hsorted ⊢
      intro member hmember
      rcases mem_insertEntry hmember with rfl | hmember
      · exact canonical_depth_le levels value (by omega)
      · exact hsorted member hmember

end

mutual

/-- No object in a value has two members of one name. -/
def hasDistinctNames : Json → Bool
  | .array items => itemsHaveDistinctNames items
  | .object members => decide (members.map Prod.fst).Nodup && membersHaveDistinctNames members
  | _ => true

def itemsHaveDistinctNames : List Json → Bool
  | [] => true
  | item :: items => item.hasDistinctNames && itemsHaveDistinctNames items

def membersHaveDistinctNames : List (String × Json) → Bool
  | [] => true
  | member :: members => member.2.hasDistinctNames && membersHaveDistinctNames members

end

theorem itemsHaveDistinctNames_iff {items : List Json} :
    itemsHaveDistinctNames items = true ↔ ∀ item ∈ items, item.hasDistinctNames = true := by
  induction items with
  | nil => simp [itemsHaveDistinctNames]
  | cons item items ih => simp [itemsHaveDistinctNames, ih]

theorem names_nodup_of_distinct {members : List (String × Json)}
    (h : (Json.object members).hasDistinctNames = true) : (members.map Prod.fst).Nodup := by
  rw [hasDistinctNames, Bool.and_eq_true, decide_eq_true_iff] at h
  exact h.1

/-- The last member with a name decides, or else what was there before. -/
theorem valueAt?_canonicalMembers (name : String) (members sorted : List (String × Json)) :
    valueAt? name (canonicalMembers members sorted) =
      ((valueAt? name members.reverse).map canonical).or (valueAt? name sorted) := by
  induction members generalizing sorted with
  | nil => simp [canonicalMembers, valueAt?]
  | cons member members ih =>
      obtain ⟨key, value⟩ := member
      rw [canonicalMembers, ih, List.reverse_cons, valueAt?_append]
      by_cases hkey : name = key
      · subst hkey
        rw [valueAt?_insertEntry_self]
        cases valueAt? name members.reverse <;> simp [valueAt?]
      · rw [valueAt?_insertEntry_of_ne _ _ hkey]
        simp [valueAt?, hkey]

theorem valueAt?_canonicalMembers_of_nodup {members : List (String × Json)}
    (h : (members.map Prod.fst).Nodup) (name : String) :
    valueAt? name (canonicalMembers members []) = (valueAt? name members).map canonical := by
  have hreverse := valueAt?_perm (List.reverse_perm members).symm h name
  rw [valueAt?_canonicalMembers, ← hreverse]
  simp [valueAt?]

theorem canonicalMembers_nodup (members : List (String × Json)) :
    ((canonicalMembers members []).map Prod.fst).Nodup := by
  have hnames : ((canonicalMembers members []).map Prod.fst).Pairwise (· < ·) :=
    List.pairwise_map.mpr (canonicalMembers_ascending members .nil)
  exact hnames.nodup

theorem canonical_eq_string_iff {value : Json} {text : String} :
    value.canonical = .string text ↔ value = .string text := by
  cases value <;> simp [canonical]

end PromptRegistry.Json
