import Canopee.Lib.Text
import Mathlib.Data.List.AList

/-!
This module contains the `canopee://` addresses of the command line tool: how an address is split into
an owner and the name of an app, and how an owner is resolved.
-/

namespace Canopee

namespace Cli

/--
`split_uri`: the owner and the name.
-/
def splitUri (uri : String) : Except String (String × String) :=
  match Text.stripPrefix "canopee://".toList uri.toList with
  | none => .error ("not a canopee:// URI: " ++ uri)
  | some rest =>
    let segments := Text.splitBy (· = '/') rest
    match segments.getLast? with
    | none => .error ("missing app name in " ++ uri)
    | some name =>
      let segments := segments.dropLast
      if segments.head? = some "identity".toList ∧ 2 ≤ segments.length then
        .ok ("canopee://" ++ String.ofList (['/'].intercalate segments), String.ofList name)
      else
        match segments with
        | [shortName] => .ok (String.ofList shortName, String.ofList name)
        | _ => .error ("malformed canopee:// URI: " ++ uri)

/--
The aliases file, from short names to owners.
-/
abbrev Aliases := AList fun _ : String => String

/--
`resolve_owner`. The aliases are read from `path`, which may fail.
-/
def resolveOwner (path : String) (aliases : Except String Aliases) (owner : String) :
    Except String String :=
  if "canopee://identity/".toList.isPrefixOf owner.toList then
    .ok owner
  else
    match aliases with
    | .error e => .error e
    | .ok aliases =>
      match aliases.lookup owner with
      | some resolved => .ok resolved
      | none =>
        .error ("no alias \"" ++ owner ++ "\" in " ++ path ++ " (set one with `canopee alias set " ++
          owner ++ " <owner>`, or use the canonical canopee://identity/<peer-id> form)")

section Segments

/--
What a segment of an address is made of.
-/
def Segment (s : List Char) : Prop :=
  s ≠ [] ∧ '/' ∉ s

instance (s : List Char) : Decidable (Segment s) :=
  inferInstanceAs (Decidable (_ ∧ _))

/--
`uri` is `canopee://` and these segments, up to empty segments.
-/
def HasSegments (uri : String) (segments : List (List Char)) : Prop :=
  ∃ rest, uri.toList = "canopee://".toList ++ rest ∧ Text.splitBy (· = '/') rest = segments

theorem HasSegments.unique {uri : String} {segments segments' : List (List Char)}
    (h : HasSegments uri segments) (h' : HasSegments uri segments') : segments = segments' := by
  obtain ⟨rest, huri, rfl⟩ := h
  obtain ⟨rest', huri', rfl⟩ := h'
  rw [huri, List.append_cancel_left_eq] at huri'
  rw [huri']

theorem HasSegments.segment {uri : String} {segments : List (List Char)}
    (h : HasSegments uri segments) : ∀ s ∈ segments, Segment s := by
  obtain ⟨rest, _, rfl⟩ := h
  intro s hs
  obtain ⟨hne, hnot⟩ := Text.mem_splitBy hs
  refine ⟨hne, ?_⟩
  intro hmem
  simpa using hnot _ hmem

theorem hasSegments_join {segments : List (List Char)} (h : ∀ s ∈ segments, Segment s) :
    HasSegments ("canopee://" ++ String.ofList (['/'].intercalate segments)) segments := by
  refine ⟨['/'].intercalate segments, by simp, ?_⟩
  apply Text.splitBy_intercalate (by simp)
  intro s hs
  refine ⟨(h s hs).1, ?_⟩
  intro a ha
  rw [decide_eq_false_iff_not]
  rintro rfl
  exact (h s hs).2 ha

end Segments

end Cli

end Canopee
