import Mathlib.Control.Monad.Basic
import PromptRegistry.Proofs.Url.Path
import PromptRegistry.Remote.Client

/-! # Addresses of prompts -/

namespace PromptRegistry.Remote

open Url (isBreak percentDecode withoutBreaks)

/-- Names that are kept as they are when they are pushed. -/
structure IsPlain (name : String) : Prop where
  dot : name ≠ "."
  dots : name ≠ ".."
  breaks : ∀ c ∈ name.toList, isBreak c = false

/-- A URL is that of a collection with one segment more, which stands for a name. -/
def Addresses (collection url : Url) (name : String) : Prop :=
  ∃ segment : List Char, url.text = collection.text ++ "/" ++ String.ofList segment ∧
    (∀ c ∈ segment, c ≠ '/' ∧ c ≠ '\\' ∧ c ≠ '?' ∧ c ≠ '#') ∧
    percentDecode segment = Utf8.encode name.toList

/-- What the URL of a collection has to be, so that names can be pushed. -/
structure IsCollection (url : Url) : Prop where
  special : url.isSpecial = true
  host : ∃ host, url.host = some host
  path : ∃ path, url.path = .segments (path ++ ["prompts".toList])
  query : url.query = none
  fragment : url.fragment = none

theorem promptsUrl_ofUrl {base : Url} (hspecial : base.isSpecial = true)
    (hhost : ∃ host, base.host = some host) (hpath : ∃ path, base.path = .segments path)
    (publicKey secretKey : String) :
    ∃ collection, promptsUrl (.ofUrl base publicKey secretKey) = .ok collection ∧
      IsCollection collection := by
  obtain ⟨host, hhost⟩ := hhost
  obtain ⟨path, hpath⟩ := hpath
  obtain ⟨directory, hdirectory⟩ := Url.asDirectory_eq hpath
  have hnames : ∀ segment ∈ endpoint,
      Url.isSingleDot segment = false ∧ Url.isDoubleDot segment = false := by decide
  have hpath' : base.asDirectory.path = .segments directory := by rw [hdirectory]
  have hend : directory.dropLast ++ endpoint =
      directory.dropLast ++ ["api".toList, "public".toList, "v2".toList] ++ ["prompts".toList] := by
    simp [endpoint]
  refine ⟨_, by rw [promptsUrl, Settings.ofUrl, Url.join_eq hpath' hnames], ?_⟩
  rw [hdirectory]
  exact ⟨hspecial, ⟨host, hhost⟩, ⟨_, congrArg Url.Path.segments hend⟩, rfl, rfl⟩

section

variable {collection : Url} {path : List (List Char)} {name : String}

theorem IsCollection.chars_withPath (h : IsCollection collection) (path : List (List Char)) :
    ({ collection with path := .segments path } : Url).chars =
      collection.scheme ++ ':' :: collection.authorityText ++ path.flatMap ('/' :: ·) := by
  obtain ⟨host, hhost⟩ := h.host
  simp [Url.chars, Url.authorityText, hhost, h.query, h.fragment, Url.Path.text, Url.userInfoText]

/-- Only the paths matter when the text of one URL goes on where that of the collection ends. -/
theorem IsCollection.text_eq_iff (h : IsCollection collection)
    (hpath : collection.path = .segments path) (other : List (List Char)) (segment : List Char) :
    ({ collection with path := .segments other } : Url).text =
        collection.text ++ "/" ++ String.ofList segment ↔
      other.flatMap ('/' :: ·) = path.flatMap ('/' :: ·) ++ '/' :: segment := by
  have hcollection : collection.chars =
      collection.scheme ++ ':' :: collection.authorityText ++ path.flatMap ('/' :: ·) := by
    rw [← h.chars_withPath, ← hpath]
  have hslash : "/" = String.ofList ['/'] := rfl
  rw [Url.text, Url.text, h.chars_withPath, hcollection, hslash, ← String.ofList_append,
    ← String.ofList_append, String.ofList_inj]
  simp only [List.append_assoc, List.cons_append, List.nil_append, List.append_cancel_left_eq,
    List.cons.injEq, true_and]

theorem IsCollection.not_addresses_of_length_le (h : IsCollection collection)
    (hpath : collection.path = .segments path) {other : List (List Char)}
    (hlength : (other.flatMap ('/' :: ·)).length ≤ (path.flatMap ('/' :: ·)).length) :
    ¬Addresses collection { collection with path := .segments other } name := by
  rintro ⟨segment, htext, -⟩
  have heq := congrArg List.length ((h.text_eq_iff hpath other segment).mp htext)
  simp only [List.length_append, List.length_cons] at heq
  omega

theorem IsCollection.addresses_append_iff (h : IsCollection collection)
    (hpath : collection.path = .segments path) (segment : List Char) :
    Addresses collection { collection with path := .segments (path ++ [segment]) } name ↔
      (∀ c ∈ segment, c ≠ '/' ∧ c ≠ '\\' ∧ c ≠ '?' ∧ c ≠ '#') ∧
        percentDecode segment = Utf8.encode name.toList := by
  have htext (other : List Char) := h.text_eq_iff hpath (path ++ [segment]) other
  simp only [List.flatMap_append, List.flatMap_singleton, List.append_cancel_left_eq,
    List.cons.injEq, true_and] at htext
  constructor
  · rintro ⟨other, hother, hsafe, hdecode⟩
    obtain rfl := (htext other).mp hother
    exact ⟨hsafe, hdecode⟩
  · rintro ⟨hsafe, hdecode⟩
    exact ⟨segment, (htext segment).mpr rfl, hsafe, hdecode⟩

end

theorem withoutBreaks_eq_iff {text : List Char} :
    withoutBreaks text = text ↔ ∀ c ∈ text, isBreak c = false := by
  simp [withoutBreaks, List.filter_eq_self]

theorem not_isPlain_of_dots {name : String} (h : name.toList = ['.'] ∨ name.toList = ['.', '.']) :
    ¬IsPlain name := by
  intro hplain
  rcases h with h | h
  · exact hplain.dot (String.toList_inj.mp h)
  · exact hplain.dots (String.toList_inj.mp h)

theorem isPlain_iff {name : String} (h : ¬(name.toList = ['.'] ∨ name.toList = ['.', '.'])) :
    IsPlain name ↔ withoutBreaks name.toList = name.toList := by
  rw [withoutBreaks_eq_iff]
  constructor
  · exact IsPlain.breaks
  · intro hbreaks
    refine ⟨?_, ?_, hbreaks⟩
    · rintro rfl
      exact h (.inl rfl)
    · rintro rfl
      exact h (.inr rfl)

theorem nameSet_safe {url : Url} (h : url.isSpecial = true) (text : List Char) :
    ∀ c ∈ Url.encode url.nameSet text, c ≠ '/' ∧ c ≠ '\\' ∧ c ≠ '?' ∧ c ≠ '#' := by
  have hset : url.nameSet = Url.specialSegmentSet := if_pos h
  have habsent (d : Char) (hd : Url.specialSegmentSet d = true) (hpercent : d ≠ '%')
      (hdigit : ∀ n < 16, Url.upperHexChar n ≠ d) : d ∉ Url.encode url.nameSet text := by
    rw [hset]
    exact Url.not_mem_encode hd hpercent hdigit text
  intro c hc
  refine ⟨?_, ?_, ?_, ?_⟩
  all_goals
    rintro rfl
    exact habsent _ (by decide) (by decide) (by decide) hc

theorem IsCollection.push_dots {collection : Url} (h : IsCollection collection) {name : List Char}
    (hname : name = ['.'] ∨ name = ['.', '.']) : collection.push name = collection := by
  obtain ⟨path, hpath⟩ := h.path
  rw [Url.push_eq hpath (by decide) (by decide), if_pos hname]

/-- Pushing a name onto the URL of a collection gives its address exactly when the name is plain. -/
theorem IsCollection.addresses_push_iff {collection : Url} (h : IsCollection collection)
    (name : String) : Addresses collection (collection.push name.toList) name ↔ IsPlain name := by
  obtain ⟨path, hpath⟩ := h.path
  by_cases hname : name.toList = ['.'] ∨ name.toList = ['.', '.']
  · have hself : { collection with path := .segments (path ++ ["prompts".toList]) } =
        collection := by
      rw [← hpath]
    rw [h.push_dots hname]
    exact iff_of_false (hself ▸ h.not_addresses_of_length_le hpath (Nat.le_refl _))
      (not_isPlain_of_dots hname)
  · rw [Url.push_eq hpath (by decide) (by decide), if_neg hname, isPlain_iff hname]
    split
    case isTrue hdots =>
      refine iff_of_false (h.not_addresses_of_length_le hpath (by simp)) ?_
      rw [hdots]
      exact fun heq => hname (.inr heq.symm)
    case isFalse =>
      split
      case isTrue hdot =>
        rw [h.addresses_append_iff hpath, hdot]
        refine iff_of_false ?_ fun heq => hname (.inl heq.symm)
        rintro ⟨-, hdecode⟩
        have hempty : [] = name.toList := Utf8.encode_injective hdecode
        rw [← hempty] at hdot
        cases hdot
      case isFalse =>
        have hpercent : collection.nameSet '%' = true := by
          rw [Url.nameSet, if_pos h.special]
          decide
        rw [h.addresses_append_iff hpath, Url.percentDecode_encode hpercent]
        exact ⟨fun heq => Utf8.encode_injective heq.2,
          fun heq => ⟨nameSet_safe h.special _, congrArg Utf8.encode heq⟩⟩

theorem createRequest_eq_ok_iff {settings : Settings} {spec : Spec} {request : HttpRequest} :
    createRequest settings spec = .ok request ↔
      ∃ url value, promptsUrl settings = .ok url ∧ authorization settings = .ok value ∧
        ⟨.post, url, value, some spec.json.compact⟩ = request := by
  cases hurl : promptsUrl settings with
  | error failure => simp [createRequest, hurl, bind, Except.bind]
  | ok url =>
      cases hvalue : authorization settings <;>
        simp [createRequest, hurl, hvalue, bind, Except.bind, pure, Except.pure]

theorem fetchRequest_eq_ok_iff {settings : Settings} {name : String} {request : HttpRequest} :
    fetchRequest settings name = .ok request ↔
      ∃ url value, promptsUrl settings = .ok url ∧ authorization settings = .ok value ∧
        ⟨.get, url.push name.toList, value, none⟩ = request := by
  cases hurl : promptsUrl settings with
  | error failure => simp [fetchRequest, promptUrl, hurl, bind, Except.bind, Except.map]
  | ok url =>
      cases hvalue : authorization settings <;>
        simp [fetchRequest, promptUrl, hurl, hvalue, bind, Except.bind, Except.map, pure,
          Except.pure]

theorem promptUrl_eq {settings : Settings} {collection : Url}
    (h : promptsUrl settings = .ok collection) (name : String) :
    promptUrl settings name = .ok (collection.push name.toList) := by
  rw [promptUrl, h]
  rfl

/-- A segment stands for one name. -/
theorem Addresses.name_eq {collection url other : Url} {first second : String}
    (hfirst : Addresses collection url first) (hsecond : Addresses collection other second)
    (htext : url.text = other.text) : first = second := by
  obtain ⟨segment, hurl, -, hdecode⟩ := hfirst
  obtain ⟨segment', hother, -, hdecode'⟩ := hsecond
  have hsegments : String.ofList segment = String.ofList segment' := by
    rw [hurl, hother] at htext
    simpa using htext
  obtain rfl := String.ofList_injective hsegments
  exact String.toList_inj.mp (Utf8.encode_injective (hdecode.symm.trans hdecode'))

theorem isSpecial_of_web {url : Url}
    (h : url.scheme = "http".toList ∨ url.scheme = "https".toList) :
    url.isSpecial = true ∧ url.scheme ≠ Url.fileScheme := by
  unfold Url.isSpecial
  rcases h with h | h <;> (rw [h]; decide)

/-- Under every base URL that is read with a scheme of the web, there is one collection. A request
for a name goes to the address of the name in it if and only if the name is plain. Different plain
names have different addresses, and a dot and two dots have that of the collection itself. -/
theorem promptUrl_addresses_iff {toAscii : Url.ToAscii} {text : String} {base : Url}
    (hbase : Url.parse text toAscii = .ok base)
    (hscheme : base.scheme = "http".toList ∨ base.scheme = "https".toList)
    (publicKey secretKey : String) :
    ∃ collection, promptsUrl (.ofUrl base publicKey secretKey) = .ok collection ∧
      (∀ name, ∃ url, promptUrl (.ofUrl base publicKey secretKey) name = .ok url ∧
        (Addresses collection url name ↔ IsPlain name)) ∧
      (∀ first second url other, IsPlain first → IsPlain second →
        promptUrl (.ofUrl base publicKey secretKey) first = .ok url →
        promptUrl (.ofUrl base publicKey secretKey) second = .ok other →
        url.text = other.text → first = second) ∧
      (∀ name request, fetchRequest (.ofUrl base publicKey secretKey) name = .ok request →
        promptUrl (.ofUrl base publicKey secretKey) name = .ok request.url) ∧
      promptUrl (.ofUrl base publicKey secretKey) "." = .ok collection ∧
      promptUrl (.ofUrl base publicKey secretKey) ".." = .ok collection := by
  have hspecial := isSpecial_of_web hscheme
  obtain ⟨hhost, hpath⟩ := Url.parse_eq_ok hbase hspecial.1 hspecial.2
  obtain ⟨collection, hcollection, hshape⟩ :=
    promptsUrl_ofUrl hspecial.1 hhost hpath publicKey secretKey
  have hurl := promptUrl_eq hcollection
  refine ⟨collection, hcollection, fun name => ⟨_, hurl name, hshape.addresses_push_iff name⟩,
    fun first second url other hfirst hsecond hurl₁ hurl₂ htext => ?_, fun name request h => ?_,
    ?_, ?_⟩
  · obtain rfl := Except.ok.inj ((hurl first).symm.trans hurl₁)
    obtain rfl := Except.ok.inj ((hurl second).symm.trans hurl₂)
    exact ((hshape.addresses_push_iff first).mpr hfirst).name_eq
      ((hshape.addresses_push_iff second).mpr hsecond) htext
  · obtain ⟨url, value, hurl', -, rfl⟩ := fetchRequest_eq_ok_iff.mp h
    exact promptUrl_eq hurl' name
  · exact (hurl ".").trans (congrArg Except.ok (hshape.push_dots (.inl rfl)))
  · exact (hurl "..").trans (congrArg Except.ok (hshape.push_dots (.inr rfl)))

/-- Here the names have slashes, a percent sign, a character of three bytes, or no characters. -/
theorem plain_names_are_addressed :
    ∃ base, Url.parse "https://lf.test/base" = .ok base ∧
      (base.scheme = "http".toList ∨ base.scheme = "https".toList) ∧
      ∃ collection, promptsUrl (.ofUrl base "pk" "sk") = .ok collection ∧
        ∀ name ∈ ["team/greeting", "50%", "\u20ac", ""],
          IsPlain name ∧ ∃ url, promptUrl (.ofUrl base "pk" "sk") name = .ok url ∧
            Addresses collection url name := by
  have hbase : Url.parse "https://lf.test/base" = .ok ⟨"https".toList, [], [],
      some "lf.test".toList, none, .segments ["base".toList], none, none⟩ := by decide +kernel
  obtain ⟨collection, hcollection, hnames, -⟩ :=
    promptUrl_addresses_iff hbase (.inr rfl) "pk" "sk"
  refine ⟨_, hbase, .inr rfl, collection, hcollection, fun name hname => ?_⟩
  have hplain : IsPlain name := by
    simp only [List.mem_cons, List.not_mem_nil, or_false] at hname
    rcases hname with rfl | rfl | rfl | rfl <;>
      exact ⟨by decide, by decide, withoutBreaks_eq_iff.mp (by decide)⟩
  obtain ⟨url, hurl, haddresses⟩ := hnames name
  exact ⟨hplain, url, hurl, haddresses.mpr hplain⟩

/-- The name of one dot has the URL of the collection, and a tab in a name is lost. -/
theorem dot_and_tab_are_lost :
    ∃ base, Url.parse "http://lf.test" = .ok base ∧ base.scheme = "http".toList ∧
      promptUrl (.ofUrl base "pk" "sk") "." = promptsUrl (.ofUrl base "pk" "sk") ∧
      promptUrl (.ofUrl base "pk" "sk") "a\tb" = promptUrl (.ofUrl base "pk" "sk") "ab" := by
  have hbase : Url.parse "http://lf.test" = .ok ⟨"http".toList, [], [],
      some "lf.test".toList, none, .segments [[]], none, none⟩ := by decide +kernel
  exact ⟨_, hbase, rfl, by rfl, by rfl⟩

end PromptRegistry.Remote
