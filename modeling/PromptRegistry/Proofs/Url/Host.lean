import PromptRegistry.Proofs.Url.Path
import PromptRegistry.Url.Parser

/-!
# Plain host names

How names are turned into ASCII is left open, apart from plain names, which are only put in lower
case.
-/

namespace PromptRegistry.Url

/-- A name of allowed ASCII characters in which no label is encoded. -/
structure IsPlainName (name : List Char) : Prop where
  allowed : name.any forbiddenInName = false
  unencoded : ∀ label ∈ splitParts (· == '.') name, ¬"xn--".toList <+: label.map Char.toLower

theorem IsPlainName.forbidden_eq_false {name : List Char} (h : IsPlainName name) {c : Char}
    (hc : c ∈ name) : forbiddenInName c = false :=
  eq_false_of_ne_true (List.any_eq_false.mp h.allowed c hc)

def KeepsPlainNames (toAscii : ToAscii) : Prop :=
  ∀ name, IsPlainName name → toAscii (Utf8.encode name) = some (name.map Char.toLower)

/-- What holds of the first characters holds of all that may stand in a name. -/
theorem forall_allowed (p : Char → Prop) (h : ∀ n < 0x7F, p (Char.ofNat n)) (c : Char)
    (hc : forbiddenInName c = false) : p c := by
  unfold forbiddenInName at hc
  simp only [Bool.or_eq_false_iff, decide_eq_false_iff_not] at hc
  have hp := h c.toNat (by omega)
  rwa [Char.ofNat_toNat] at hp

theorem forbiddenInName_toLower {c : Char} (h : forbiddenInName c = false) :
    forbiddenInName c.toLower = false := by
  have hall := forall_allowed
    (fun c => forbiddenInName c = false → forbiddenInName c.toLower = false) (by decide)
  exact hall c h h

theorem utf8EncodeChar_of_allowed {c : Char} (h : forbiddenInName c = false) :
    (String.utf8EncodeChar c).map (fun byte => Char.ofNat byte.toNat) = [c] := by
  have hall := forall_allowed
    (fun c => (String.utf8EncodeChar c).map (fun byte => Char.ofNat byte.toNat) = [c]) (by decide)
  exact hall c h

theorem map_encode_of_allowed {name : List Char} (h : ∀ c ∈ name, forbiddenInName c = false) :
    (Utf8.encode name).map (fun byte => Char.ofNat byte.toNat) = name := by
  induction name with
  | nil => rfl
  | cons c name ih =>
      obtain ⟨hc, hname⟩ := List.forall_mem_cons.mp h
      have hencode : Utf8.encode (c :: name) = String.utf8EncodeChar c ++ Utf8.encode name := rfl
      rw [hencode, List.map_append, utf8EncodeChar_of_allowed hc, ih hname]
      rfl

theorem asciiNames_keepsPlainNames : KeepsPlainNames asciiNames := by
  intro name hname
  have hmap : (Utf8.encode name).map (fun byte => (Char.ofNat byte.toNat).toLower) =
      name.map Char.toLower := by
    conv_rhs => rw [← map_encode_of_allowed fun c => hname.forbidden_eq_false]
    rw [List.map_map]
    rfl
  have hallowed : (name.map Char.toLower).any forbiddenInName = false := by
    rw [List.any_eq_false]
    intro c hc
    obtain ⟨d, hd, rfl⟩ := List.mem_map.mp hc
    rw [forbiddenInName_toLower (hname.forbidden_eq_false hd)]
    exact Bool.false_ne_true
  rw [asciiNames, hmap, hallowed]
  rfl

/-- Knows the ASCII form of one name more. -/
def withName (name ascii : String) (toAscii : ToAscii) : ToAscii := fun bytes =>
  if bytes = Utf8.encode name.toList then some ascii.toList else toAscii bytes

theorem KeepsPlainNames.withName {toAscii : ToAscii} (h : KeepsPlainNames toAscii)
    {name ascii : String} (hname : name.toList.any forbiddenInName = true) :
    KeepsPlainNames (withName name ascii toAscii) := by
  intro plain hplain
  have hne : Utf8.encode plain ≠ Utf8.encode name.toList := by
    intro heq
    obtain ⟨c, hc, hforbidden⟩ := List.any_eq_true.mp hname
    rw [← Utf8.encode_injective heq] at hc
    rw [hplain.forbidden_eq_false hc] at hforbidden
    cases hforbidden
  rw [Url.withName, if_neg hne]
  exact h plain hplain

theorem percentDecode_of_allowed {name : List Char} (h : ∀ c ∈ name, forbiddenInName c = false) :
    percentDecode name = Utf8.encode name := by
  induction name with
  | nil => rfl
  | cons c name ih =>
      obtain ⟨hc, hname⟩ := List.forall_mem_cons.mp h
      have hpercent : c ≠ '%' := by
        rintro rfl
        exact absurd hc (by decide)
      rw [percentDecode_cons hpercent, ih hname]
      rfl

theorem readHost_of_plain {toAscii : ToAscii} (h : KeepsPlainNames toAscii) {name : List Char}
    (hname : IsPlainName name) : readHost toAscii name = readHost asciiNames name := by
  have hdecode := percentDecode_of_allowed fun c => hname.forbidden_eq_false
  unfold readHost
  split
  case h_1 => rfl
  case h_2 => rw [hdecode, h name hname, asciiNames_keepsPlainNames name hname]

def hostText (special : Bool) (text : List Char) : List Char :=
  (splitHost false (splitUserInfo (splitFirst (endsAuthority special) text).1).2).1

theorem readAuthority_of_plain {toAscii : ToAscii} (h : KeepsPlainNames toAscii)
    {scheme text : List Char}
    (hname : IsPlainName (hostText (specialSchemes.contains scheme) text)) :
    readAuthority toAscii scheme text = readAuthority asciiNames scheme text := by
  have hhost := readHost_of_plain h hname
  unfold hostText at hhost
  simp only [readAuthority, hhost]

theorem parse_of_special {toAscii : ToAscii} {text : String} {scheme rest : List Char}
    (hscheme : readScheme? (withoutBreaks (trimBoth (·.toNat ≤ 0x20) text.toList)) =
      some (scheme, rest))
    (hfile : scheme ≠ fileScheme) (hspecial : specialSchemes.contains scheme = true) :
    parse text toAscii = readAuthority toAscii scheme (rest.dropWhile (isSlash true)) := by
  rw [parse]
  simp only [hscheme]
  rw [if_neg hfile, if_pos hspecial]

end PromptRegistry.Url
