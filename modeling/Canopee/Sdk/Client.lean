import Canopee.Runtime.Records

/-!
This module contains the client's way to publish and to resolve an app pointer: what the node answers
to `PublishAppPointer` and `ResolveAppPointer`, and what the client makes of the answers.
-/

namespace Canopee

variable [Primitives]

/--
The part of `NodeResponse` that answers `ResolveAppPointer`.
-/
inductive AppPointerResponse where
  | appPointer (record : Option AppPointerRecord)
  | error (message : String)

open Canopee.Runtime (getRecord log now settle)

/--
`NodeCommand::ResolveAppPointer`
-/
def Node.resolveAppPointer (owner : IdentityId) (name : String) : RunM AppPointerResponse := do
  let key := AppPointerRecord.key owner name
  match ← Prog.attempt (getRecord key) with
  | .ok (some bytes) =>
    match AppPointerRecord.codec.deserialize bytes with
    | some record => pure (.appPointer (some record))
    -- the text of the source goes on with the decoder's own
    | none => pure (.error "Corrupt app pointer record: ")
  | .ok none => pure (.appPointer none)
  | .error e => pure (.error e)

/--
`NodeCommand::PublishAppPointer`, which waits for the outcome of the put.
-/
def Node.publishAppPointer (name : String) (manifest : ObjectId) : RunM Unit := do
  let time ← now
  let w ← get
  let record := AppPointerRecord.sign w.identity time name manifest
  let key := AppPointerRecord.key record.owner name
  let value := AppPointerRecord.codec.serialize record
  let t ← settle
  let env ← read
  if env.accepts t then
    modify (log (.putRecord key value))
  else
    -- the text of the source goes on with the reason
    throw "Failed to put record: "

namespace CanopeeClient

/--
`CanopeeClient::publish_app_pointer`
-/
def publishAppPointer (name : String) (manifest : ObjectId) : RunM Unit :=
  Node.publishAppPointer name manifest

/--
`CanopeeClient::put_public_file`
-/
def putPublicFile (name : String) (data : Bytes) : RunM ObjectId := do
  let object ← Runtime.putObjectPublic data .blob (some name)
  pure object.id

/--
`CanopeeClient::resolve_app_pointer`
-/
def resolveAppPointer (owner : IdentityId) (name : String) : RunM (Option ObjectId) := do
  match ← Node.resolveAppPointer owner name with
  | .appPointer (some record) =>
    if record.verify = true then
      pure (some record.manifest)
    else
      pure none
  | .appPointer none => pure none
  -- `CanopeeClient::unexpected`
  | .error message => throw message

end CanopeeClient

end Canopee
