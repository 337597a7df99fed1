import Canopee.Cli.App
import Canopee.Cli.Uri
import Canopee.Sdk.Client

/-!
This module contains how the command line tool publishes a directory as an app: the walk that uploads
the files, the check of the links in `index.html`, the manifest and the pointer to it, and how such an
app is opened by its name.
-/

namespace Canopee

open Canopee.Runtime (announce nextTick publishPointer putObjectPublic)

variable [Primitives]

namespace Cli

section Links

/--
The quotes of an attribute value.
-/
def quotes : List Char := "\"'".toList

/--
The value behind an attribute's name.
-/
def attributeValue (afterAttr : List Char) : List Char :=
  let afterQuote :=
    match afterAttr with
    | c :: rest => if c ∈ quotes then rest else afterAttr
    | [] => []
  afterQuote.takeWhile fun c => c ∉ quotes && c ≠ '>' && !isWhitespace c

/--
`find_absolute_urls`
-/
def findAbsoluteUrls (html : List Char) : List (List Char) :=
  ["src=", "href="].flatMap fun attr =>
    ((Text.afterEach attr.toList 0 html).map attributeValue).filter fun value =>
      "/".toList.isPrefixOf value && !"//".toList.isPrefixOf value

/--
The path of a reference, without a query and a fragment.
-/
def referencedPath (value : List Char) : String :=
  String.ofList (value.takeWhile fun c => c ≠ '?' && c ≠ '#')

abbrev Assets := AList fun _ : String => ObjectId

/--
`unpublished_asset_references`
-/
def unpublishedAssetReferences (html : String) (assets : Assets) : List String :=
  (findAbsoluteUrls html.toList).foldl
    (fun missing value =>
      let key := referencedPath value
      if key ∈ assets ∨ key ∈ missing then missing else missing ++ [key])
    []

/--
The end of `publish_directory`: what is said about the links of `index.html`.
-/
def checkLinks (html : Bytes) (assets : Assets) : Except String Unit :=
  match Codec.ofUtf8 html with
  | none => .ok ()
  | some html =>
    let missing := unpublishedAssetReferences html assets
    if missing.isEmpty then
      .ok ()
    else
      .error ("index.html references paths that were not published (maybe a non-root build base?): " ++
        ", ".intercalate missing ++ " — rebuild with `base: '/'` (Vite) or unset `homepage` (CRA) so " ++
        "assets are referenced from the repository root")

end Links

section Directory

/--
A directory to publish.
-/
structure Site where
  directory : String
  -- the files below it, by the names that lead to them, in the order of the walk
  files : List (List String × Bytes)

/--
`Path::file_name`
-/
def fileName (path : List Char) : Option (List Char) :=
  match ((Text.splitBy (· = '/') path).filter (· ≠ ".".toList)).getLast? with
  | none => none
  | some name => if name = "..".toList then none else some name

/--
The walk leaves out what has a name that starts with a dot, the directory itself included.
-/
def Site.visible (site : Site) : List (List String × Bytes) :=
  let root := (fileName site.directory.toList).getD site.directory.toList
  site.files.filter fun (names, _) =>
    (root :: names.map String.toList).all fun name => name.head? ≠ some '.'

/--
What `publish_directory` has uploaded so far.
-/
structure Uploaded where
  entrypoint : Option ObjectId
  html : Bytes
  assets : Assets

/--
Upload one file.
-/
def upload (uploaded : Uploaded) (relative : String) (data : Bytes) : RunM Uploaded := do
  let id ← CanopeeClient.putPublicFile relative data
  if relative = "index.html" then
    pure { uploaded with entrypoint := some id, html := data }
  else
    pure { uploaded with assets := uploaded.assets.insert ("/" ++ relative) id }

def uploadAll (uploaded : Uploaded) : List (List String × Bytes) → RunM Uploaded
  | [] => pure uploaded
  | (names, data) :: files => do
    let uploaded ← upload uploaded ("/".intercalate names) data
    uploadAll uploaded files

/--
`publish_directory`
-/
def publishDirectory (site : Site) : RunM (ObjectId × Assets) := do
  let uploaded ← uploadAll ⟨none, [], ∅⟩ site.visible
  match uploaded.entrypoint with
  | none => throw "portfolio has no index.html"
  | some entrypoint =>
    Runtime.ofExcept (checkLinks uploaded.html uploaded.assets)
    pure (entrypoint, uploaded.assets)

end Directory

section Commands

/--
Lowercasing as far as a name can tell: of the characters beyond ASCII only the Kelvin sign and the
dotted capital I have lowercase forms with ASCII in them.
-/
def toLowercase (c : Char) : List Char :=
  if c.toNat = 0x130 then ['i', Char.ofNat 0x307] else [Canopee.toLowercase c]

/--
`app_name_from_directory`
-/
def appNameFromDirectory (directory : String) : String :=
  let name := (fileName directory.toList).getD "app".toList
  String.ofList ((name.flatMap toLowercase).map fun c =>
    if c.isAlphanum || c = '-' || c = '_' || c = '.' then c else '-')

/--
The hash map of assets, iterated.
-/
def iterated (assets : Assets) : RunM (List (String × ObjectId)) := do
  let t ← nextTick
  let env ← read
  pure ((env.iteration t assets.keys).filterMap fun path => (assets.lookup path).map (path, ·))

/--
Store the manifest of an app.
-/
def putManifest (name : String) (entrypoint : ObjectId) (assets : Assets) :
    RunM (ObjectId × AppManifest) := do
  let w ← get
  let manifest : AppManifest :=
    { name := name, owner := w.identity.id, entrypoint := entrypoint, assets := ← iterated assets }
  let object ← putObjectPublic (AppManifest.codec.serialize manifest) .appManifest (some name)
  pure (object.id, manifest)

def announceAll (one : ObjectId → RunM Unit) : List ObjectId → RunM Unit
  | [] => pure ()
  | id :: ids => do
    one id
    announceAll one ids

/--
`canopee publish`, up to the serve session. A failure to announce or to publish the pointer is only
reported.
-/
def publish (site : Site) : RunM ObjectId := do
  let (entrypoint, assets) ← publishDirectory site
  let appName := appNameFromDirectory site.directory
  let (manifestId, manifest) ← putManifest appName entrypoint assets
  announceAll (fun id => do let _ ← Prog.attempt (announce id))
    (manifestId :: manifest.entrypoint :: manifest.assets.map Prod.snd)
  let _ ← Prog.attempt (publishPointer ("app:" ++ appName) manifestId)
  pure manifestId

/--
`canopee app-manifest`, which ends at the first failure.
-/
def appManifest (site : Site) (name : String) : RunM ObjectId := do
  let (entrypoint, assets) ← publishDirectory site
  let (manifestId, manifest) ← putManifest name entrypoint assets
  announceAll announce (manifestId :: manifest.entrypoint :: manifest.assets.map Prod.snd)
  CanopeeClient.publishAppPointer manifest.name manifestId
  pure manifestId

/--
`canopee open --owner o --name n`, as far as the manifest.
-/
def openByName (owner name : String) : RunM ObjectId := do
  match ← CanopeeClient.resolveAppPointer ⟨owner⟩ name with
  | some id => pure id
  | none => throw ("no app pointer found for \"" ++ name ++ "\"")

/--
The owner and the name that `canopee handle` reads from an address.
-/
def handledAddress (path : String) (aliases : Except String Aliases) (uri : String) :
    Except String (String × String) := do
  let (owner, name) ← splitUri uri
  pure (← resolveOwner path aliases owner, name)

/--
`canopee handle`, as far as the manifest.
-/
def handle (path : String) (aliases : Except String Aliases) (uri : String) : RunM ObjectId := do
  let (owner, name) ← Runtime.ofExcept (handledAddress path aliases uri)
  openByName owner name

end Commands

/--
The files of an app, as `fetch_app` gets them: the entrypoint and the assets.
-/
def appFiles (entrypoint : Bytes) (assets : Assets) (contents : ObjectId → Bytes) : Files :=
  assets.entries.foldl (fun files asset => files.insert asset.1 (contents asset.2))
    ((∅ : Files).insert "/" entrypoint)

end Cli

end Canopee
