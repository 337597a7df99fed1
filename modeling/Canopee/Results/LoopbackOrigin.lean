import Canopee.Gateway.Handshake
import Canopee.Lib.Origin

/-!
This module contains which origins pass as served from a loopback address: those whose host is one, and
besides them texts that are no origins and origins that have such a name in front of the host.
-/

namespace Canopee

namespace Gateway

open Origin (Parts Ends isScheme isUserInfo isRegName isDelimiter IsHost)

/--
The two names of this machine, in whatever case.
-/
def Loopback (host : List Char) : Prop :=
  Text.lower host ∈ ["127.0.0.1".toList, "localhost".toList]

instance (host : List Char) : Decidable (Loopback host) :=
  inferInstanceAs (Decidable (_ ∈ _))

/--
The text is that of an origin with this host.
-/
def HasHost (origin host : List Char) : Prop :=
  ∃ p : Parts, p.Valid ∧ p.text = origin ∧ p.host = host

theorem HasHost.unique {origin host host' : List Char} (h : HasHost origin host)
    (h' : HasHost origin host') : host = host' := by
  obtain ⟨p, hp, htext, rfl⟩ := h
  obtain ⟨q, hq, htext', rfl⟩ := h'
  rw [Origin.text_inj hp hq (htext.trans htext'.symm)]

/--
What is asked of the check of `origin`: it passes only with a loopback host, and passes if it is the
serialization of such an origin.
-/
structure ChecksOrigin (origin : String) : Prop where
  sound : isLoopbackOrigin (some origin) = true → ∃ host, HasHost origin.toList host ∧ Loopback host
  complete : ∀ p : Parts, p.Valid → p.Serialized → Loopback p.host → p.text = origin.toList →
    isLoopbackOrigin (some origin) = true

/--
Behind the colon there is a port, or the colon was in a userinfo with a loopback host behind it.
-/
inductive PortOrPassword : List Char → Prop where
  | port (digits rest : List Char) (hdigits : ∀ c ∈ digits, c.isDigit = true) (hrest : Ends rest) :
    PortOrPassword (digits ++ rest)
  | password (password host rest : List Char) (port : Option (List Char))
      (hpassword : isUserInfo password = true) (hhost : Loopback host)
      (hport : ∀ digits ∈ port, ∀ c ∈ digits, c.isDigit = true) (hrest : Ends rest) :
    PortOrPassword (password ++ '@' :: (host ++ Parts.portText port ++ rest))

/--
The end of what `is_loopback_origin` takes for the host.
-/
def HostEnds (s : List Char) : Prop :=
  ∀ c, s.head? = some c → c = ':' ∨ c = '/'

/--
A loopback name stands where the check looks for the host, and it is not the host: there is no scheme in
front of it, or what follows it is not a port.
-/
inductive Misread (origin : List Char) : Prop where
  | bare (name rest : List Char) (hnone : Text.splitOnceOn "://".toList origin = none)
    (horigin : origin = name ++ rest) (hname : Loopback name) (hends : HostEnds rest)
  | schemeless (before name rest : List Char)
    (hfirst : Text.splitOnceOn "://".toList origin = some (before, name ++ rest))
    (hscheme : isScheme before = false) (hname : Loopback name) (hends : HostEnds rest)
  | colon (scheme name rest : List Char)
    (hfirst : Text.splitOnceOn "://".toList origin = some (scheme, name ++ ':' :: rest))
    (hscheme : isScheme scheme = true) (hname : Loopback name) (hrest : ¬ PortOrPassword rest)

section Check

/--
Where the check looks for the host.
-/
def behindScheme (origin : List Char) : List Char :=
  match Text.splitOnceOn "://".toList origin with
  | none => origin
  | some (_, rest) => rest

def endsHost (c : Char) : Bool :=
  c = ':' || c = '/'

theorem endsHost_iff {c : Char} : endsHost c = true ↔ c = ':' ∨ c = '/' := by
  simp [endsHost]

theorem firstPiece_firstPiece (s : List Char) :
    Text.firstPiece ':' (Text.firstPiece '/' s) = s.takeWhile fun c => !endsHost c := by
  unfold Text.firstPiece
  rw [List.takeWhile_takeWhile]
  congr 1
  funext c
  simp [endsHost]

theorem originHost_eq (origin : List Char) :
    originHost origin = (behindScheme origin).takeWhile fun c => !endsHost c := by
  unfold originHost behindScheme
  rw [firstPiece_firstPiece]
  cases Text.splitOnceOn "://".toList origin with
  | none => rfl
  | some pieces =>
    obtain ⟨before, rest⟩ := pieces
    dsimp only
    cases hsecond : Text.splitOnceOn "://".toList rest with
    | none => rfl
    | some pieces =>
      obtain ⟨piece, after⟩ := pieces
      have hcolon : rest = piece ++ ':' :: ("//".toList ++ after) := by
        simpa using Text.splitOnceOn_eq_some hsecond
      dsimp only
      rw [hcolon, List.takeWhile_append]
      split
      . next hwhole =>
        rw [List.takeWhile_cons_of_neg (by decide), List.append_nil]
        exact (List.takeWhile_prefix _).eq_of_length hwhole
      . rfl

theorem char_of_loopback {name : List Char} (h : Loopback name) :
    ∀ c ∈ name, c.isAlphanum = true ∨ c = '.' := by
  intro c hc
  by_cases hupper : c.isUpper = true
  . left
    change (c.isUpper || c.isLower || c.isDigit) = true
    rw [hupper, Bool.true_or, Bool.true_or]
  . have hlower : c ∈ Text.lower name := by
      rw [← Text.toLower_of_not_isUpper (Bool.eq_false_iff.mpr hupper)]
      exact List.mem_map_of_mem hc
    have hchars : ∀ host ∈ ["127.0.0.1".toList, "localhost".toList],
        host.all (fun c => c.isAlphanum || c = '.') = true := by
      decide
    simpa using List.all_eq_true.mp (hchars _ h) c hlower

theorem not_mem_of_loopback {name : List Char} (h : Loopback name) {c : Char}
    (hc : c.isAlphanum = false ∧ c ≠ '.') : c ∉ name := by
  intro hmem
  rcases char_of_loopback h c hmem with hchar | hchar
  . rw [hc.1] at hchar
    cases hchar
  . exact hc.2 hchar

theorem isLoopbackOrigin_iff {origin : String} :
    isLoopbackOrigin (some origin) = true ↔
      ∃ name rest, behindScheme origin.toList = name ++ rest ∧ Loopback name ∧ HostEnds rest := by
  have hloopback : isLoopbackOrigin (some origin) = true ↔ Loopback (originHost origin.toList) := by
    have hfour : "127.0.0.1".toList.map Char.toLower = "127.0.0.1".toList := by decide
    have hname : "localhost".toList.map Char.toLower = "localhost".toList := by decide
    unfold isLoopbackOrigin Text.eqIgnoreCase Loopback Text.lower
    dsimp only
    rw [hfour, hname, Bool.or_eq_true, decide_eq_true_iff, decide_eq_true_iff, List.mem_cons,
      List.mem_singleton]
  rw [hloopback, originHost_eq]
  constructor
  . intro h
    refine ⟨_, _, List.takeWhile_append_dropWhile.symm, h, ?_⟩
    intro c hc
    apply endsHost_iff.mp
    simpa using Text.head?_dropWhile hc
  . rintro ⟨name, rest, hbehind, hname, hends⟩
    rw [hbehind, Origin.takeWhile_append_eq]
    . exact hname
    . intro c hc
      have hcolon := not_mem_of_loopback hname (c := ':') (by decide)
      have hslash := not_mem_of_loopback hname (c := '/') (by decide)
      have hne : c ≠ ':' ∧ c ≠ '/' := by
        constructor
        . rintro rfl
          exact hcolon hc
        . rintro rfl
          exact hslash hc
      simp [endsHost, hne]
    . intro c hc
      simpa using endsHost_iff.mpr (hends c hc)

end Check

section Hosts

theorem isHost_of_loopback {name : List Char} (h : Loopback name) : IsHost name := by
  left
  unfold isRegName
  rw [← List.append_nil name, Origin.isEncoded_append [] (not_mem_of_loopback h (by decide)),
    Bool.and_eq_true]
  refine ⟨?_, rfl⟩
  rw [List.all_eq_true]
  intro c hc
  rcases char_of_loopback h c hc with hchar | rfl
  . simp [Origin.isUnreserved, hchar]
  . decide

theorem isUserInfo_append {name password : List Char} (h : Loopback name) :
    isUserInfo (name ++ ':' :: password) = isUserInfo password := by
  unfold isUserInfo
  rw [Origin.isEncoded_append _ (not_mem_of_loopback h (by decide)), Origin.isEncoded,
    if_neg (by decide)]
  have hall : (name.all fun c => Origin.isUnreserved c || Origin.isSubDelim c || c = ':') = true := by
    rw [List.all_eq_true]
    intro c hc
    rcases char_of_loopback h c hc with hchar | rfl
    . simp [Origin.isUnreserved, hchar]
    . decide
  rw [hall]
  simp

def isNameChar (c : Char) : Bool :=
  c.isAlphanum || c = '.'

theorem isNameChar_of_delimiter {c : Char} (h : isDelimiter c = true) : isNameChar c = false := by
  have hall : "/?#".toList.all (fun c => !isNameChar c) = true := by decide
  simpa using List.all_eq_true.mp hall c (by simpa [isDelimiter] using h)

theorem takeWhile_name {name rest : List Char} (h : Loopback name)
    (hends : ∀ c, rest.head? = some c → isNameChar c = false) :
    (name ++ rest).takeWhile isNameChar = name := by
  apply Origin.takeWhile_append_eq _ hends
  intro c hc
  simpa [isNameChar] using char_of_loopback h c hc

theorem password_of_append {userinfo host name rest : List Char} (hat : '@' ∉ name)
    (h : userinfo ++ '@' :: host = name ++ ':' :: rest) :
    ∃ password, userinfo = name ++ ':' :: password ∧ rest = password ++ '@' :: host := by
  rcases List.append_eq_append_iff.mp h with ⟨more, hname, hmore⟩ | ⟨more, huserinfo, hmore⟩
  . cases more with
    | nil => cases hmore
    | cons c more =>
      cases hmore
      exact absurd (by simp [hname]) hat
  . cases more with
    | nil => cases hmore
    | cons c more =>
      cases hmore
      exact ⟨more, huserinfo, rfl⟩

theorem portOrPassword_of_text {p : Parts} (hp : p.Valid) (hhost : Loopback p.host)
    {name rest : List Char} (hname : Loopback name)
    (h : p.authority ++ p.rest = name ++ ':' :: rest) : PortOrPassword rest := by
  unfold Parts.authority at h
  cases huser : p.userinfo with
  | none =>
    rw [huser, List.append_assoc] at h
    have hends : ∀ c, (Parts.portText p.port ++ p.rest).head? = some c →
        isNameChar c = false := by
      intro c hc
      cases hport : p.port with
      | none =>
        rw [hport] at hc
        exact isNameChar_of_delimiter (hp.rest c hc)
      | some digits =>
        rw [hport] at hc
        cases hc
        decide
    have hbehind : p.host = name := by
      rw [← takeWhile_name hhost hends, h]
      apply takeWhile_name hname
      intro c hc
      cases hc
      decide
    rw [hbehind] at h
    have hrest := List.append_cancel_left h
    cases hport : p.port with
    | none =>
      rw [hport] at hrest
      have hdelimiter := hp.rest ':' (congrArg List.head? hrest)
      exact absurd hdelimiter (by decide)
    | some digits =>
      rw [hport] at hrest
      cases hrest
      exact .port digits p.rest (hp.port digits hport) hp.rest
  | some userinfo =>
    rw [huser, List.append_assoc, List.cons_append] at h
    have hat : '@' ∉ name := not_mem_of_loopback hname (by decide)
    obtain ⟨password, huserinfo, hrest⟩ := password_of_append hat h
    have hpassword := hp.userinfo userinfo huser
    rw [huserinfo, isUserInfo_append hname] at hpassword
    rw [hrest]
    exact .password password p.host p.rest p.port hpassword hhost hp.port hp.rest

theorem hasHost_of_not_misread {origin : List Char} (h : ¬ Misread origin) {name rest : List Char}
    (hbehind : behindScheme origin = name ++ rest) (hname : Loopback name) (hends : HostEnds rest) :
    ∃ host, HasHost origin host ∧ Loopback host := by
  unfold behindScheme at hbehind
  cases hfirst : Text.splitOnceOn "://".toList origin with
  | none =>
    rw [hfirst] at hbehind
    exact absurd (.bare name rest hfirst hbehind hname hends) h
  | some pieces =>
    obtain ⟨scheme, behind⟩ := pieces
    rw [hfirst] at hbehind
    dsimp only at hbehind
    subst hbehind
    have horigin : origin = scheme ++ ("://".toList ++ (name ++ rest)) := by
      simpa using Text.splitOnceOn_eq_some hfirst
    have hscheme : isScheme scheme = true := by
      by_contra hnot
      exact h (.schemeless scheme name rest hfirst (Bool.eq_false_iff.mpr hnot) hname hends)
    have hhost := isHost_of_loopback hname
    cases rest with
    | nil =>
      refine ⟨name, ⟨⟨scheme, none, name, none, []⟩, ?_, ?_, rfl⟩, hname⟩
      . exact ⟨hscheme, by simp, hhost, by simp, by simp [Ends]⟩
      . simp [horigin, Parts.text, Parts.authority, Parts.portText]
    | cons c rest =>
      rcases hends c rfl with rfl | rfl
      . have hport : PortOrPassword rest := by
          by_contra hnot
          exact h (.colon scheme name rest hfirst hscheme hname hnot)
        cases hport with
        | port digits rest hdigits hrest =>
          refine ⟨name, ⟨⟨scheme, none, name, some digits, rest⟩, ?_, ?_, rfl⟩, hname⟩
          . exact ⟨hscheme, by simp, hhost, by simpa using hdigits, hrest⟩
          . simp [horigin, Parts.text, Parts.authority, Parts.portText]
        | password password host rest port hpassword hloopback hport hrest =>
          refine ⟨host, ⟨⟨scheme, some (name ++ ':' :: password), host, port, rest⟩, ?_, ?_, rfl⟩,
            hloopback⟩
          . refine ⟨hscheme, ?_, isHost_of_loopback hloopback, hport, hrest⟩
            simpa using (isUserInfo_append hname).trans hpassword
          . simp [horigin, Parts.text, Parts.authority]
      . refine ⟨name, ⟨⟨scheme, none, name, none, '/' :: rest⟩, ?_, ?_, rfl⟩, hname⟩
        . refine ⟨hscheme, by simp, hhost, by simp, ?_⟩
          intro c hc
          cases hc
          decide
        . simp [horigin, Parts.text, Parts.authority, Parts.portText]

end Hosts

theorem not_sound_of_misread {origin : String} (h : Misread origin.toList) :
    isLoopbackOrigin (some origin) = true ∧
      ¬ ∃ host, HasHost origin.toList host ∧ Loopback host := by
  rw [isLoopbackOrigin_iff]
  unfold behindScheme
  constructor
  . cases h with
    | bare name rest hnone horigin hname hends =>
      rw [hnone]
      exact ⟨name, rest, horigin, hname, hends⟩
    | schemeless before name rest hfirst hscheme hname hends =>
      rw [hfirst]
      exact ⟨name, rest, rfl, hname, hends⟩
    | colon scheme name rest hfirst hscheme hname hrest =>
      rw [hfirst]
      refine ⟨name, ':' :: rest, rfl, hname, ?_⟩
      intro c hc
      cases hc
      exact .inl rfl
  . rintro ⟨host, ⟨p, hp, htext, rfl⟩, hhost⟩
    have hsplit := Origin.splitOnceOn_text hp
    rw [htext] at hsplit
    cases h with
    | bare name rest hnone horigin hname hends =>
      rw [hnone] at hsplit
      cases hsplit
    | schemeless before name rest hfirst hscheme hname hends =>
      rw [hfirst, Option.some.injEq, Prod.mk.injEq] at hsplit
      rw [hsplit.1, hp.scheme] at hscheme
      cases hscheme
    | colon scheme name rest hfirst hscheme hname hrest =>
      rw [hfirst, Option.some.injEq, Prod.mk.injEq] at hsplit
      exact hrest (portOrPassword_of_text hp hhost hname hsplit.2.symm)

/--
The check does what is asked of it exactly when no loopback name is misread for the host.
-/
theorem checksOrigin_iff (origin : String) : ChecksOrigin origin ↔ ¬ Misread origin.toList := by
  constructor
  . intro h hmisread
    obtain ⟨haccepted, hnot⟩ := not_sound_of_misread hmisread
    exact hnot (h.sound haccepted)
  . intro h
    constructor
    . intro haccepted
      obtain ⟨name, rest, hbehind, hname, hends⟩ := isLoopbackOrigin_iff.mp haccepted
      exact hasHost_of_not_misread h hbehind hname hends
    . intro p hp hserialized hhost htext
      apply isLoopbackOrigin_iff.mpr
      refine ⟨p.host, Parts.portText p.port, ?_, hhost, ?_⟩
      . unfold behindScheme
        rw [← htext, Origin.splitOnceOn_text hp]
        simp [Parts.authority, hserialized.userinfo, hserialized.rest]
      . intro c hc
        exact .inl (Origin.portText_head p.port c hc)

section Counterexample

/--
The name in front of the at sign is a userinfo, and the host is somebody else's.
-/
theorem userinfo_passes :
    isLoopbackOrigin (some "http://localhost:x@evil.com") = true ∧
      HasHost "http://localhost:x@evil.com".toList "evil.com".toList ∧
      ¬ ChecksOrigin "http://localhost:x@evil.com" := by
  have haccepted : isLoopbackOrigin (some "http://localhost:x@evil.com") = true := by
    decide
  have hhost : HasHost "http://localhost:x@evil.com".toList "evil.com".toList := by
    refine ⟨⟨"http".toList, some "localhost:x".toList, "evil.com".toList, none, []⟩, ?_, ?_, rfl⟩
    . exact ⟨by decide, by decide, .inl (by decide), by simp, by simp [Ends]⟩
    . decide
  refine ⟨haccepted, hhost, ?_⟩
  intro h
  obtain ⟨host, hhost', hloopback⟩ := h.sound haccepted
  rw [hhost'.unique hhost] at hloopback
  exact absurd hloopback (by decide)

end Counterexample

end Gateway

end Canopee
