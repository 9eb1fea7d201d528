import PromptRegistry.Proofs.Remote.Address
import PromptRegistry.Proofs.Url.Directory

namespace PromptRegistry.Remote

open Url (withSlash)

/-- URLs that differ at most in a slash at the end of the path, in the query and in the fragment. -/
structure SameDirectory (base other : Url) : Prop where
  place : { other with path := base.path, query := base.query, fragment := base.fragment } = base
  path : withSlash other.path.text = withSlash base.path.text

section

variable {toAscii : Url.ToAscii} {text : String} {base : Url}
  (hbase : Url.parse text toAscii = .ok base)
  (hweb : base.scheme = "http".toList ∨ base.scheme = "https".toList)

include hbase hweb

theorem promptsUrl_of_web (publicKey secretKey : String) :
    ∃ parent, base.asDirectory = { base with path := .segments (parent ++ [[]]) } ∧
      base.asDirectory.path.text = withSlash base.path.text ∧
      (∀ segment ∈ parent ++ [[]], Url.IsSettled segment) ∧
      promptsUrl (.ofUrl base publicKey secretKey) = .ok { base with
        path := .segments (parent ++ endpoint), query := none, fragment := none } := by
  obtain ⟨hspecial, hfile⟩ := isSpecial_of_web hweb
  obtain ⟨segments, hpath, hne, hsettled⟩ := Url.parse_settled hbase hspecial hfile
  obtain ⟨parent, hdirectory, htext, hparent⟩ :=
    Url.asDirectory_of_settled hspecial hfile hpath hne hsettled
  have hnames : ∀ segment ∈ endpoint,
      Url.isSingleDot segment = false ∧ Url.isDoubleDot segment = false := by decide
  have hpath' : base.asDirectory.path = .segments (parent ++ [[]]) := by rw [hdirectory]
  refine ⟨parent, hdirectory, by rw [hpath', htext], hparent, ?_⟩
  rw [promptsUrl, Settings.ofUrl, Url.join_eq hpath' hnames, List.dropLast_concat, hdirectory]

theorem promptsUrl_of_sameDirectory {otherText : String} {other : Url}
    (hother : Url.parse otherText toAscii = .ok other) (hsame : SameDirectory base other)
    (publicKey secretKey : String) :
    promptsUrl (.ofUrl other publicKey secretKey) =
      promptsUrl (.ofUrl base publicKey secretKey) := by
  have hscheme : other.scheme = base.scheme := (congrArg Url.scheme hsame.place :)
  obtain ⟨hspecial, hfile⟩ := isSpecial_of_web hweb
  obtain ⟨parent, hdirectory, htext, hparent, hurl⟩ :=
    promptsUrl_of_web hbase hweb publicKey secretKey
  obtain ⟨parent', hdirectory', htext', hparent', hurl'⟩ :=
    promptsUrl_of_web hother (hscheme ▸ hweb) publicKey secretKey
  have hsegments : parent' ++ [[]] = parent ++ [[]] := by
    rw [hdirectory] at htext
    rw [hdirectory', hsame.path, ← htext] at htext'
    rw [← Url.readPath_text hspecial hfile (by simp) hparent', htext',
      Url.readPath_text hspecial hfile (by simp) hparent]
  obtain rfl := (List.append_left_inj [[]]).mp hsegments
  have hplace := congrArg (fun url : Url => { url with
    path := .segments (parent' ++ endpoint), query := none, fragment := none }) hsame.place
  rw [hurl', hurl]
  exact congrArg Except.ok hplace

end

theorem promptsUrl_of_rigid {base : Url} {rigid : List Char} (hpath : base.path = .rigid rigid)
    (publicKey secretKey : String) :
    promptsUrl (.ofUrl base publicKey secretKey) =
      .error (.context ("Invalid prompts endpoint under " ++ base.asDirectory.text)
        (.url .relativeWithRigidBase)) := by
  obtain ⟨text, hdirectory⟩ := Url.asDirectory_of_rigid hpath
  rw [promptsUrl, Settings.ofUrl, Url.join, hdirectory]

section

variable {settings : Settings} {failure : Failure} (h : promptsUrl settings = .error failure)

include h

theorem fetchRequest_of_error (name : String) : fetchRequest settings name = .error failure := by
  rw [fetchRequest, promptUrl, h]
  rfl

theorem createRequest_of_error (spec : Spec) : createRequest settings spec = .error failure := by
  rw [createRequest, h]
  rfl

end

/-- A base URL of the web is changed in nothing but a slash at the end of its path, and the
collection lies right behind that path. So base URLs with and without the slash have the same URLs
for all names. Under a base URL with a rigid path no request is made at all. -/
theorem base_path_is_kept {toAscii : Url.ToAscii} {text : String} {base : Url}
    (hbase : Url.parse text toAscii = .ok base) (publicKey secretKey : String) :
    let settings := Settings.ofUrl base publicKey secretKey
    (base.scheme = "http".toList ∨ base.scheme = "https".toList →
      (settings.baseUrl = { base with path := settings.baseUrl.path } ∧
        settings.baseUrl.path.text = withSlash base.path.text ∧
        Settings.ofUrl settings.baseUrl publicKey secretKey = settings) ∧
      (∃ url, promptsUrl settings = .ok url ∧
        url = { base with path := url.path, query := none, fragment := none } ∧
        url.path.text = settings.baseUrl.path.text ++ "api/public/v2/prompts".toList) ∧
      ∀ otherText other, Url.parse otherText toAscii = .ok other → SameDirectory base other →
        promptsUrl (.ofUrl other publicKey secretKey) = promptsUrl settings ∧
        ∀ name, promptUrl (.ofUrl other publicKey secretKey) name = promptUrl settings name) ∧
    ∀ rigid, base.path = .rigid rigid →
      ∃ failure, promptsUrl settings = .error failure ∧
        ∀ exchange,
          (∀ name, fetchRequest settings name = .error failure ∧
            fetch settings exchange name = .error failure) ∧
          ∀ spec, createRequest settings spec = .error failure ∧
            create settings exchange spec = .error failure := by
  intro settings
  constructor
  · intro hweb
    obtain ⟨parent, hdirectory, htext, -, hurl⟩ :=
      promptsUrl_of_web hbase hweb publicKey secretKey
    have hbaseUrl : settings.baseUrl = { base with path := .segments (parent ++ [[]]) } :=
      hdirectory
    refine ⟨⟨by rw [hbaseUrl], htext, ?_⟩, ⟨_, hurl, rfl, ?_⟩,
      fun otherText other hother hsame => ?_⟩
    · have hspecial := isSpecial_of_web hweb
      obtain ⟨segments, hpath, -⟩ := Url.parse_settled hbase hspecial.1 hspecial.2
      exact congrArg (fun url => (⟨url, publicKey, secretKey, 10, 30⟩ : Settings))
        (Url.asDirectory_asDirectory hpath)
    · have hendpoint : endpoint.flatMap ('/' :: ·) = '/' :: "api/public/v2/prompts".toList := rfl
      rw [hbaseUrl, Url.text_concat_nil, Url.Path.text, List.flatMap_append, hendpoint,
        List.append_assoc]
      rfl
    · have hsame' := promptsUrl_of_sameDirectory hbase hweb hother hsame publicKey secretKey
      refine ⟨hsame', fun name => ?_⟩
      rw [promptUrl, promptUrl, hsame']
  · intro rigid hpath
    have hfailure := promptsUrl_of_rigid hpath publicKey secretKey
    refine ⟨_, hfailure, fun exchange => ⟨fun name => ?_, fun spec => ?_⟩⟩
    · have hrequest := fetchRequest_of_error hfailure name
      exact ⟨hrequest, by rw [fetch, hrequest]; rfl⟩
    · have hrequest := createRequest_of_error hfailure spec
      exact ⟨hrequest, by rw [create, hrequest]; rfl⟩

theorem prefixed_base_path_is_kept :
    let base : Url := ⟨"https".toList, ['u'], [], some "lf.test".toList, none,
      .segments [['a'], [], "b%2F".toList], some ['x'], none⟩
    let other : Url := ⟨"https".toList, ['u'], [], some "lf.test".toList, none,
      .segments [['a'], [], "b%2F".toList, []], none, none⟩
    let mail : Url := ⟨"mailto".toList, [], [], none, none, .rigid ['x'], none, none⟩
    (Url.parse "https://u@lf.test/a//b%2F?x" = .ok base ∧
      Url.parse "https://u@lf.test/a//b%2F/" = .ok other ∧ SameDirectory base other ∧
      (Settings.ofUrl base "pk" "sk").baseUrl.path.text = "/a//b%2F/".toList ∧
      promptUrl (.ofUrl other "pk" "sk") "n" = promptUrl (.ofUrl base "pk" "sk") "n") ∧
    Url.parse "mailto:x" = .ok mail ∧
      ∃ failure, promptsUrl (.ofUrl mail "pk" "sk") = .error failure ∧
        fetch (.ofUrl mail "pk" "sk") (fun _ => .closed) "n" = .error failure := by
  intro base other mail
  constructor
  · have hbase : Url.parse "https://u@lf.test/a//b%2F?x" = .ok base := by decide +kernel
    have hother : Url.parse "https://u@lf.test/a//b%2F/" = .ok other := by decide +kernel
    have hsame : SameDirectory base other := ⟨rfl, by decide⟩
    have htext : withSlash base.path.text = "/a//b%2F/".toList := by decide
    obtain ⟨⟨-, hpath, -⟩, -, hall⟩ := (base_path_is_kept hbase "pk" "sk").1 (.inr rfl)
    exact ⟨hbase, hother, hsame, hpath.trans htext, (hall _ other hother hsame).2 "n"⟩
  · have hmail : Url.parse "mailto:x" = .ok mail := by decide +kernel
    obtain ⟨failure, hfailure, hall⟩ := (base_path_is_kept hmail "pk" "sk").2 _ rfl
    exact ⟨hmail, failure, hfailure, ((hall fun _ => .closed).1 "n").2⟩

end PromptRegistry.Remote
