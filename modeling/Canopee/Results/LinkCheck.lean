import Canopee.Cli.Publish
import Canopee.Results.LocalServing

/-!
This module contains when the link check at publish time says of a reference what the servers do with
it: they also answer routes, which the check knows nothing of.
-/

namespace Canopee

variable [Primitives]

namespace Http

theorem respond_notFound_iff {gzip : Bytes → Option Bytes} {contentType method : String}
    {acceptsGzip : Bool} {matched : Bytes → Bool} {range : Nat → Except Panic (Option RangeSpec)}
    {found : Option Bytes} :
    (∃ response, respond gzip contentType method acceptsGzip matched range found = .ok response ∧
      response.status = "404 Not Found") ↔ found = none := by
  cases found with
  | none => exact ⟨fun _ => rfl, fun _ => ⟨notFound contentType, rfl, rfl⟩⟩
  | some body =>
    simp only [reduceCtorEq, iff_false]
    rintro ⟨response, hrespond, hstatus⟩
    simp only [respond] at hrespond
    split at hrespond
    . cases hrespond
      simp [notModified] at hstatus
    . generalize (if method = "GET" then range body.length else .ok none) = spec at hrespond
      cases spec with
      | error panic => cases hrespond
      | ok spec =>
        cases hrespond
        cases spec with
        | none => simp [sent, full] at hstatus
        | some spec =>
          cases spec with
          | unsatisfiable => simp [sent, unsatisfiable] at hstatus
          | bytes first last => simp [sent, partialContent] at hstatus

omit [Primitives] in
theorem resolve_eq_none_iff {files : Files} {path : String} :
    (resolve files path).2 = none ↔
      files.lookup path = none ∧ (isAssetRequest path = true ∨ files.lookup "/" = none) := by
  unfold resolve
  cases files.lookup path with
  | some body => simp
  | none =>
    by_cases hasset : isAssetRequest path = true
    . simp [hasset]
    . cases files.lookup "/" with
      | some entrypoint => simp [hasset]
      | none => simp [hasset]

end Http

namespace Cli

/--
The publisher answers 404 to a `GET` of this path.
-/
def RenderedNotFound (gzip : Bytes → Option Bytes) (files : Files) (path : String)
    (headers : List (String × String)) : Prop :=
  ∃ response, Http.renderResponse gzip files "GET" path headers = .ok response ∧
    response.status = "404 Not Found"

/--
The local server answers 404, as far as a client can read what it writes.
-/
def PreparedNotFound (gzip : Bytes → Option Bytes) (files : Files) (request : Request) : Prop :=
  ∃ written view, prepareResponse gzip request files (computeEtags files) = .ok written ∧
    Http.readView written = some view ∧ view.status = "404 Not Found".toList

theorem renderedNotFound_iff {gzip : Bytes → Option Bytes} {files : Files} {path : String}
    {headers : List (String × String)} :
    RenderedNotFound gzip files path headers ↔ (Http.resolve files path).2 = none := by
  unfold RenderedNotFound
  rw [Http.renderResponse_eq]
  exact Http.respond_notFound_iff

theorem preparedNotFound_iff {gzip : Bytes → Option Bytes} {files : Files} {request : Request} :
    PreparedNotFound gzip files request ↔ (Http.resolve files request.path).2 = none := by
  have hprepare := Http.prepareResponse_eq gzip request files
  have hnotFound : (∃ response, Http.respond gzip
      (Http.guessContentType (Http.resolve files request.path).1) request.method request.acceptsGzip
      (fun body => matchesEtag request.ifNoneMatch (Http.etag body)) (parseRange request.range)
      (Http.resolve files request.path).2 = .ok response ∧ response.status = "404 Not Found") ↔
        (Http.resolve files request.path).2 = none := Http.respond_notFound_iff
  rw [← hnotFound]
  unfold PreparedNotFound
  generalize Http.respond gzip _ _ _ _ _ _ = answer at hprepare ⊢
  generalize prepareResponse gzip request files (computeEtags files) = written at hprepare ⊢
  constructor
  . rintro ⟨read, view, rfl, hread, hstatus⟩
    cases answer with
    | error panic => cases hprepare
    | ok response =>
      have hview := Except.ok.inj hprepare
      rw [hread, Function.comp_apply, Option.some.injEq] at hview
      refine ⟨response, rfl, ?_⟩
      rw [hview] at hstatus
      exact String.toList_inj.mp hstatus
  . rintro ⟨response, rfl, hstatus⟩
    cases written with
    | error panic => cases hprepare
    | ok read =>
      refine ⟨read, Http.view response, rfl, Except.ok.inj hprepare, ?_⟩
      exact congrArg String.toList hstatus

section Links

variable {html : String} {assets : Assets} {p : String}

/--
The absolute paths that `html` refers to.
-/
def references (html : String) : List String :=
  (findAbsoluteUrls html.toList).map referencedPath

omit [Primitives] in
theorem mem_unpublishedAssetReferences :
    p ∈ unpublishedAssetReferences html assets ↔ p ∈ references html ∧ p ∉ assets := by
  have hfold (values : List (List Char)) (missing : List String) (h : ∀ q ∈ missing, q ∉ assets) :
      p ∈ values.foldl (fun missing value =>
          let key := referencedPath value
          if key ∈ assets ∨ key ∈ missing then missing else missing ++ [key]) missing ↔
        p ∈ missing ∨ p ∈ values.map referencedPath ∧ p ∉ assets := by
    induction values generalizing missing with
    | nil => simp
    | cons value values ih =>
      rw [List.foldl_cons, List.map_cons, List.mem_cons]
      dsimp only
      split
      . next hknown =>
        rw [ih missing h]
        grind
      . next hnew =>
        rw [not_or] at hnew
        rw [ih]
        . simp only [List.mem_append, List.mem_singleton]
          grind
        . simp only [List.mem_append, List.mem_singleton]
          rintro q (hq | rfl)
          . exact h q hq
          . exact hnew.1
  have hall := hfold (findAbsoluteUrls html.toList) [] (by simp)
  simpa [unpublishedAssetReferences, references] using hall

omit [Primitives] in
theorem checkLinks_refuses_iff :
    (∃ e, checkLinks (Codec.utf8 html) assets = .error e) ↔ ∃ p ∈ references html, p ∉ assets := by
  unfold checkLinks
  rw [Codec.ofUtf8_utf8]
  dsimp only
  have hmissing : (unpublishedAssetReferences html assets).isEmpty = false ↔
      ∃ p ∈ references html, p ∉ assets := by
    rw [List.isEmpty_eq_false_iff_exists_mem]
    simp only [mem_unpublishedAssetReferences]
  rw [← hmissing]
  cases (unpublishedAssetReferences html assets).isEmpty with
  | true => simp
  | false => simp

omit [Primitives] in
theorem mem_appFiles {entrypoint : Bytes} {contents : ObjectId → Bytes} :
    p ∈ appFiles entrypoint assets contents ↔ p = "/" ∨ p ∈ assets := by
  have hfold (entries : List ((_ : String) × ObjectId)) (files : Files) :
      p ∈ entries.foldl (fun files asset => files.insert asset.1 (contents asset.2)) files ↔
        p ∈ files ∨ p ∈ entries.map Sigma.fst := by
    induction entries generalizing files with
    | nil => simp
    | cons asset entries ih =>
      rw [List.foldl_cons, ih, AList.mem_insert, List.map_cons, List.mem_cons]
      tauto
  unfold appFiles
  rw [hfold, AList.mem_insert]
  have hempty : p ∉ (∅ : Files) := AList.notMem_empty p
  have hkeys : p ∈ assets.entries.map Sigma.fst ↔ p ∈ assets := Iff.rfl
  rw [hkeys]
  tauto

omit [Primitives] in
theorem resolve_appFiles_eq_none_iff {entrypoint : Bytes} {contents : ObjectId → Bytes} :
    (Http.resolve (appFiles entrypoint assets contents) p).2 = none ↔
      p ∉ assets ∧ Http.isAssetRequest p = true := by
  have hindex : (appFiles entrypoint assets contents).lookup "/" ≠ none := by
    rw [ne_eq, AList.lookup_eq_none, not_not]
    exact mem_appFiles.mpr (.inl rfl)
  have hslash : Http.isAssetRequest "/" = false := by decide
  rw [Http.resolve_eq_none_iff, AList.lookup_eq_none, mem_appFiles, not_or]
  constructor
  . rintro ⟨⟨_, hasset⟩, hrequest | hnone⟩
    . exact ⟨hasset, hrequest⟩
    . exact absurd hnone hindex
  . rintro ⟨hasset, hrequest⟩
    refine ⟨⟨?_, hasset⟩, .inl hrequest⟩
    rintro rfl
    rw [hslash] at hrequest
    cases hrequest

/--
The check reports those paths of `index.html` to which the servers of the app answer 404, and it
refuses an app only if there is one.
-/
structure LinksAgree (gzip : Bytes → Option Bytes) (html : String) (assets : Assets)
    (entrypoint : Bytes) (contents : ObjectId → Bytes) : Prop where
  rendered : ∀ p ∈ references html, ∀ headers, p ∈ unpublishedAssetReferences html assets ↔
    RenderedNotFound gzip (appFiles entrypoint assets contents) p headers
  prepared : ∀ request : Request, request.method = "GET" → request.path ∈ references html →
    (request.path ∈ unpublishedAssetReferences html assets ↔
      PreparedNotFound gzip (appFiles entrypoint assets contents) request)
  refused : ∀ e, checkLinks (Codec.utf8 html) assets = .error e → ∃ p ∈ references html,
    ∀ headers, RenderedNotFound gzip (appFiles entrypoint assets contents) p headers

/--
The check agrees with the servers exactly when every path that `index.html` refers to is an asset or
looks like one.
-/
theorem linksAgree_iff (gzip : Bytes → Option Bytes) (html : String) (assets : Assets)
    (entrypoint : Bytes) (contents : ObjectId → Bytes) :
    LinksAgree gzip html assets entrypoint contents ↔
      ∀ p ∈ references html, p ∈ assets ∨ Http.isAssetRequest p = true := by
  constructor
  . intro h p hp
    have hreported := h.rendered p hp []
    rw [mem_unpublishedAssetReferences, renderedNotFound_iff,
      resolve_appFiles_eq_none_iff] at hreported
    by_cases hasset : p ∈ assets
    . exact .inl hasset
    . exact .inr (hreported.mp ⟨hp, hasset⟩).2
  . intro h
    have hagree {p : String} (hp : p ∈ references html) :
        p ∈ unpublishedAssetReferences html assets ↔
          (Http.resolve (appFiles entrypoint assets contents) p).2 = none := by
      rw [mem_unpublishedAssetReferences, resolve_appFiles_eq_none_iff]
      constructor
      . rintro ⟨_, hasset⟩
        exact ⟨hasset, (h p hp).resolve_left hasset⟩
      . rintro ⟨hasset, _⟩
        exact ⟨hp, hasset⟩
    constructor
    . intro p hp headers
      rw [renderedNotFound_iff]
      exact hagree hp
    . intro request _ hp
      rw [preparedNotFound_iff]
      exact hagree hp
    . intro e hrefused
      obtain ⟨p, hp, hasset⟩ := checkLinks_refuses_iff.mp ⟨e, hrefused⟩
      refine ⟨p, hp, ?_⟩
      intro headers
      rw [renderedNotFound_iff, ← hagree hp, mem_unpublishedAssetReferences]
      exact ⟨hp, hasset⟩

end Links

end Cli

end Canopee

namespace Canopee.Cli

section Counterexample

open Canopee.Transparent

/--
A page that links to itself and to a route.
-/
def homePage : String :=
  "<a href=\"/\">Home</a><a href='/about'>About</a>"

theorem homePage_refused :
    references homePage = ["/", "/about"] ∧
      (∃ e, checkLinks (Codec.utf8 homePage) ∅ = .error e) ∧
      (∀ p ∈ references homePage, ¬ RenderedNotFound some
        (appFiles (Codec.utf8 homePage) ∅ fun _ => []) p []) ∧
      ¬ LinksAgree some homePage ∅ (Codec.utf8 homePage) fun _ => [] := by
  have hreferences : references homePage = ["/", "/about"] := by decide +kernel
  have hserved : ∀ p ∈ references homePage, ¬ RenderedNotFound some
      (appFiles (Codec.utf8 homePage) ∅ fun _ => []) p [] := by
    rw [hreferences]
    intro p hp
    rw [renderedNotFound_iff, resolve_appFiles_eq_none_iff]
    rintro ⟨_, hasset⟩
    simp only [List.mem_cons, List.not_mem_nil, or_false] at hp
    rcases hp with rfl | rfl
    . exact absurd hasset (by decide)
    . exact absurd hasset (by decide)
  have hrefused : ∃ e, checkLinks (Codec.utf8 homePage) ∅ = .error e := by
    rw [checkLinks_refuses_iff, hreferences]
    exact ⟨"/", by simp, AList.notMem_empty _⟩
  refine ⟨hreferences, hrefused, hserved, ?_⟩
  intro h
  obtain ⟨e, he⟩ := hrefused
  obtain ⟨p, hp, hnotFound⟩ := h.refused e he
  exact hserved p hp (hnotFound [])

end Counterexample

end Canopee.Cli
