import Canopee.Cli.Uri

/-!
This module contains which addresses are accepted: those of the two documented forms, and besides them
those that start with `identity` and have the wrong number of segments.
-/

namespace Canopee

namespace Cli

/--
The segments of the two documented forms of an address, with the owner and the name they stand for.
-/
inductive Documented : List (List Char) → String × String → Prop where
  | canonical (peer name : List Char) :
    Documented ["identity".toList, peer, name]
      ("canopee://identity/" ++ String.ofList peer, String.ofList name)
  | shortName (owner name : List Char) (h : owner ≠ "identity".toList) :
    Documented [owner, name] (String.ofList owner, String.ofList name)

theorem Documented.length_le {segments : List (List Char)} {address : String × String}
    (h : Documented segments address) : segments.length ≤ 3 := by
  cases h with
  | canonical peer name => simp
  | shortName owner name h => simp

/--
A short name, or the canonical owner with exactly one segment behind `identity`.
-/
inductive Owner : String → Prop where
  | canonical {peer : String} (h : Segment peer.toList) : Owner ("canopee://identity/" ++ peer)
  | shortName {owner : String} (h : Segment owner.toList) : Owner owner

/--
What the segments of an address come to.
-/
theorem splitUri_eq_ok_iff {uri : String} {address : String × String} :
    splitUri uri = .ok address ↔
      ∃ segments name, HasSegments uri (segments ++ [name]) ∧ address.2 = String.ofList name ∧
        ((∃ peer more, segments = "identity".toList :: peer :: more ∧
            address.1 = "canopee://" ++ String.ofList (['/'].intercalate segments)) ∨
          ∃ owner, segments = [owner] ∧ address.1 = String.ofList owner) := by
  obtain ⟨owner, name⟩ := address
  unfold splitUri HasSegments
  constructor
  . intro h
    split at h
    . cases h
    . next rest hrest =>
      dsimp only at h
      split at h
      . cases h
      . next last hlast =>
        have hsegments := List.dropLast_append_getLast? last hlast
        generalize (Text.splitBy (· = '/') rest).dropLast = segments at h hsegments
        refine ⟨segments, last, ⟨rest, Text.stripPrefix_eq_some_iff.mp hrest, hsegments.symm⟩, ?_⟩
        split at h
        . next hcanonical =>
          cases h
          obtain ⟨hhead, hlength⟩ := hcanonical
          refine ⟨rfl, .inl ?_⟩
          match segments with
          | first :: peer :: more =>
            cases hhead
            exact ⟨peer, more, rfl, rfl⟩
        . split at h
          . cases h
            exact ⟨rfl, .inr ⟨_, rfl, rfl⟩⟩
          . cases h
  . rintro ⟨segments, last, ⟨rest, huri, hsplit⟩, hname, howner⟩
    dsimp only at hname howner
    rw [Text.stripPrefix_eq_some_iff.mpr huri]
    dsimp only
    rw [hsplit, List.getLast?_concat, List.dropLast_concat, hname]
    dsimp only
    rcases howner with ⟨peer, more, rfl, rfl⟩ | ⟨shortName, rfl, rfl⟩
    . rw [if_pos (by simp)]
    . rw [if_neg (by simp)]

/--
What is documented of `uri`: the two forms are split into the owner and the name, nothing else is
accepted, and an owner has one of its two forms.
-/
structure SplitExactly (uri : String) : Prop where
  canonical : ∀ peer name : String, Segment peer.toList → Segment name.toList →
    uri = "canopee://identity/" ++ peer ++ "/" ++ name →
      splitUri uri = .ok ("canopee://identity/" ++ peer, name)
  shortName : ∀ owner name : String, Segment owner.toList → owner ≠ "identity" →
    Segment name.toList → uri = "canopee://" ++ owner ++ "/" ++ name →
      splitUri uri = .ok (owner, name)
  accepted : ∀ address, splitUri uri = .ok address →
    ∃ segments, HasSegments uri segments ∧ Documented segments address
  owner : ∀ address, splitUri uri = .ok address → Owner address.1

/--
The segments of `uri` start with `identity`, and they are two or more than three.
-/
def Overlapping (uri : String) : Prop :=
  ∃ segments, HasSegments uri ("identity".toList :: segments) ∧
    (segments.length = 1 ∨ 3 ≤ segments.length)

theorem splitUri_canonical {peer name : String} (hpeer : Segment peer.toList)
    (hname : Segment name.toList) :
    splitUri ("canopee://identity/" ++ peer ++ "/" ++ name) =
      .ok ("canopee://identity/" ++ peer, name) := by
  have hall : ∀ s ∈ ["identity".toList, peer.toList, name.toList], Segment s := by
    simp only [List.mem_cons, List.not_mem_nil, or_false, forall_eq_or_imp, forall_eq]
    exact ⟨by decide, hpeer, hname⟩
  have hsegments := hasSegments_join hall
  apply splitUri_eq_ok_iff.mpr
  refine ⟨["identity".toList, peer.toList], name.toList, ?_, by simp, .inl ⟨peer.toList, [], rfl, ?_⟩⟩
  . have huri : "canopee://identity/" ++ peer ++ "/" ++ name = "canopee://" ++
        String.ofList (['/'].intercalate ["identity".toList, peer.toList, name.toList]) := by
      apply String.toList_inj.mp
      simp
    rw [huri]
    exact hsegments
  . apply String.toList_inj.mp
    simp

theorem splitUri_shortName {owner name : String} (howner : Segment owner.toList)
    (hname : Segment name.toList) :
    splitUri ("canopee://" ++ owner ++ "/" ++ name) = .ok (owner, name) := by
  have hall : ∀ s ∈ [owner.toList, name.toList], Segment s := by
    simp only [List.mem_cons, List.not_mem_nil, or_false, forall_eq_or_imp, forall_eq]
    exact ⟨howner, hname⟩
  have hsegments := hasSegments_join hall
  apply splitUri_eq_ok_iff.mpr
  refine ⟨[owner.toList], name.toList, ?_, by simp, .inr ⟨owner.toList, rfl, by simp⟩⟩
  have huri : "canopee://" ++ owner ++ "/" ++ name =
      "canopee://" ++ String.ofList (['/'].intercalate [owner.toList, name.toList]) := by
    apply String.toList_inj.mp
    simp
  rw [huri]
  exact hsegments

theorem accepted_of_not_overlapping {uri : String} (h : ¬ Overlapping uri)
    {address : String × String} (haddress : splitUri uri = .ok address) :
    ∃ segments, HasSegments uri segments ∧ Documented segments address := by
  obtain ⟨owner, name⟩ := address
  obtain ⟨segments, last, hsegments, hname, howner⟩ := splitUri_eq_ok_iff.mp haddress
  dsimp only at hname howner
  refine ⟨segments ++ [last], hsegments, ?_⟩
  rcases howner with ⟨peer, more, rfl, howner⟩ | ⟨shortName, rfl, howner⟩
  . cases more with
    | nil =>
      have hcanonical : "canopee://" ++ String.ofList (['/'].intercalate ["identity".toList, peer]) =
          "canopee://identity/" ++ String.ofList peer := by
        apply String.toList_inj.mp
        simp
      rw [howner, hname, hcanonical]
      exact .canonical peer last
    | cons third more =>
      exfalso
      exact h ⟨_, hsegments, .inr (by simp)⟩
  . rw [howner, hname]
    apply Documented.shortName
    rintro rfl
    exact h ⟨_, hsegments, .inl rfl⟩

theorem owner_of_documented {uri : String} {segments : List (List Char)}
    {address : String × String} (hsegments : HasSegments uri segments)
    (h : Documented segments address) : Owner address.1 := by
  have hsegment := hsegments.segment
  cases h with
  | canonical peer name =>
    apply Owner.canonical
    simpa using hsegment peer (by simp)
  | shortName owner name =>
    apply Owner.shortName
    simpa using hsegment owner (by simp)

theorem not_documented_of_overlapping {uri : String} (h : Overlapping uri) :
    ∃ address, splitUri uri = .ok address ∧
      ∀ segments, HasSegments uri segments → ¬ Documented segments address := by
  obtain ⟨rest, hrest, hlength⟩ := h
  obtain ⟨before, name, rfl⟩ : ∃ before name, rest = before ++ [name] := by
    have hne : rest ≠ [] := by
      rintro rfl
      simp at hlength
    exact ⟨_, _, (List.dropLast_append_getLast hne).symm⟩
  rw [List.length_append, List.length_singleton] at hlength
  cases before with
  | nil =>
    refine ⟨("identity", String.ofList name), ?_, ?_⟩
    . apply splitUri_eq_ok_iff.mpr
      exact ⟨["identity".toList], name, hrest, rfl, .inr ⟨_, rfl, by simp⟩⟩
    . intro segments hsegments hdocumented
      rw [hsegments.unique hrest] at hdocumented
      cases hdocumented with
      | shortName owner name h => exact h rfl
  | cons peer more =>
    refine ⟨("canopee://" ++ String.ofList (['/'].intercalate ("identity".toList :: peer :: more)),
      String.ofList name), ?_, ?_⟩
    . apply splitUri_eq_ok_iff.mpr
      exact ⟨"identity".toList :: peer :: more, name, hrest, rfl, .inl ⟨peer, more, rfl, rfl⟩⟩
    . intro segments hsegments hdocumented
      rw [hsegments.unique hrest] at hdocumented
      have hshort := hdocumented.length_le
      simp only [List.length_cons, List.length_append, List.length_nil] at hlength hshort
      omega

theorem not_splitExactly {uri : String} (h : Overlapping uri) : ¬ SplitExactly uri := by
  intro hexactly
  obtain ⟨address, haddress, hnot⟩ := not_documented_of_overlapping h
  obtain ⟨segments, hsegments, hdocumented⟩ := hexactly.accepted address haddress
  exact hnot segments hsegments hdocumented

/--
An address is split as documented exactly when `identity` does not stand in it as a short name or
before more than a peer id and a name.
-/
theorem splitExactly_iff (uri : String) : SplitExactly uri ↔ ¬ Overlapping uri := by
  constructor
  . intro h hoverlapping
    exact not_splitExactly hoverlapping h
  . intro h
    constructor
    . rintro peer name hpeer hname rfl
      exact splitUri_canonical hpeer hname
    . rintro owner name howner _ hname rfl
      exact splitUri_shortName howner hname
    . intro address haddress
      exact accepted_of_not_overlapping h haddress
    . intro address haddress
      obtain ⟨segments, hsegments, hdocumented⟩ := accepted_of_not_overlapping h haddress
      exact owner_of_documented hsegments hdocumented

/--
Two segments stand between `identity` and the name.
-/
theorem splitUri_long :
    splitUri "canopee://identity/a/b/n" = .ok ("canopee://identity/a/b", "n") ∧
      ¬ SplitExactly "canopee://identity/a/b/n" := by
  refine ⟨by decide, ?_⟩
  apply not_splitExactly
  exact ⟨["a".toList, "b".toList, "n".toList],
    ⟨"identity/a/b/n".toList, by decide, by decide⟩, .inr (by simp)⟩

end Cli

end Canopee
