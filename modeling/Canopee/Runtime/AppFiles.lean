import Canopee.Lib.Latest
import Canopee.Runtime.Records

/-!
This module contains how a node loads the files of a published app before it serves them.
-/

namespace Canopee

variable [Primitives]

namespace Runtime

/--
The hash map with these entries, iterated. Of the entries for a key the last one counts.
-/
def iterate {α : Type} (entries : List (String × α)) : RunM (List (String × α)) := do
  let t ← nextTick
  let env ← read
  let map := Latest.insertAll ∅ entries
  pure (Latest.entriesAt map (env.iteration t map.keys))

/--
A failure of `m`, as its caller words it.
-/
def mapErr {α : Type} (why : String → String) (m : RunM α) : RunM α := do
  match ← Prog.attempt m with
  | .ok a => pure a
  | .error e => throw (why e)

/--
The loop of `Runtime::load_app_files` over the assets. One that is missing is skipped.
-/
def loadAssets (files : Files) : List (String × ObjectId) → RunM Files
  | [] => pure files
  | (path, assetId) :: assets => do
    match ← Prog.attempt (getVerified assetId) with
    | .ok asset => do
      let opened ← openObject asset
      loadAssets (files.insert path opened.payload.data) assets
    | .error _ => loadAssets files assets

/--
`Runtime::load_app_files`
-/
def loadAppFiles (appId : ObjectId) : RunM Files := do
  let manifestObject ← mapErr
    (fun e => "app manifest " ++ appId.text ++ " is not stored here: " ++ e) (getVerified appId)
  let w ← get
  if manifestObject.payload.owner ≠ w.identity.id then
    throw ("app manifest " ++ appId.text ++ " belongs to another identity")
  else if appId.text ∉ w.shared then
    throw ("app manifest " ++ appId.text ++
      " is not shared; publish it first so the edge can verify it")
  else
    let stored ← mapErr (fun e => "app manifest " ++ appId.text ++ " missing: " ++ e)
      (getVerified appId)
    let manifestObject ← openObject stored
    let manifest ← decodeObject AppManifest.codec manifestObject
    let stored ← mapErr (fun e => "entrypoint for app " ++ appId.text ++ " missing: " ++ e)
      (getVerified manifest.entrypoint)
    let entrypoint ← openObject stored
    let assets ← iterate manifest.assets
    loadAssets ((∅ : Files).insert "/" entrypoint.payload.data) assets

theorem exec_iterate {α : Type} (entries : List (String × α)) (env : Env) (w : Runtime) :
    ∃ iterated, Prog.exec (iterate entries) env w = (.ok iterated, { w with tick := w.tick + 1 }) ∧
      (iterated.map Prod.fst).Nodup ∧
      ∀ key, Latest.latest key iterated = Latest.latest key entries := by
  refine ⟨_, rfl, ?_, ?_⟩
  . exact Latest.nodup_entriesAt _ (env.iteration_perm _ _)
  . intro key
    rw [Latest.latest_entriesAt _ (env.iteration_perm _ _), Latest.lookup_insertAll_empty]

end Runtime

end Canopee
