import Canopee.Lib.Text

/-!
This module contains origins as RFC 6454 and RFC 3986 have them: their parts, how they are put together,
and that the text of an origin determines its parts.
-/

namespace Origin

section Characters

def isUnreserved (c : Char) : Bool :=
  c.isAlphanum || "-._~".toList.contains c

def isSubDelim (c : Char) : Bool :=
  "!$&'()*+,;=".toList.contains c

def isHexDigit (c : Char) : Bool :=
  c.isDigit || "abcdefABCDEF".toList.contains c

/--
A text of characters that `p` holds of and of percent-encoded bytes. The first `due` characters are
digits of such a byte.
-/
def isEncoded (p : Char → Bool) (due : Nat) : List Char → Bool
  | [] => due = 0
  | c :: s =>
    match due with
    | due + 1 => isHexDigit c && isEncoded p due s
    | 0 => if c = '%' then isEncoded p 2 s else p c && isEncoded p 0 s

def isScheme : List Char → Bool
  | [] => false
  | c :: s => c.isAlpha && s.all fun c => c.isAlphanum || "+-.".toList.contains c

def isUserInfo (s : List Char) : Bool :=
  isEncoded (fun c => isUnreserved c || isSubDelim c || c = ':') 0 s

def isRegName (s : List Char) : Bool :=
  isEncoded (fun c => isUnreserved c || isSubDelim c) 0 s

/--
What can stand between the brackets of an address, as far as its characters go.
-/
def isAddress (s : List Char) : Bool :=
  s.all fun c => isUnreserved c || isSubDelim c || c = ':'

/--
A registered name, which an IPv4 address is too, or an address in brackets.
-/
def IsHost (s : List Char) : Prop :=
  isRegName s = true ∨ ∃ address, isAddress address = true ∧ s = '[' :: (address ++ [']'])

def isDelimiter (c : Char) : Bool :=
  "/?#".toList.contains c

/--
Where an authority ends: there is nothing more, or a path, a query or a fragment.
-/
def Ends (s : List Char) : Prop :=
  ∀ c, s.head? = some c → isDelimiter c = true

end Characters

/--
The parts of an origin. A serialized one has no userinfo and nothing behind the port.
-/
@[ext]
structure Parts where
  scheme : List Char
  userinfo : Option (List Char)
  host : List Char
  port : Option (List Char)
  rest : List Char

namespace Parts

def portText (port : Option (List Char)) : List Char :=
  match port with
  | some digits => ':' :: digits
  | none => []

def authority (p : Parts) : List Char :=
  match p.userinfo with
  | some userinfo => userinfo ++ '@' :: (p.host ++ portText p.port)
  | none => p.host ++ portText p.port

def text (p : Parts) : List Char :=
  p.scheme ++ ("://".toList ++ (p.authority ++ p.rest))

structure Valid (p : Parts) : Prop where
  scheme : isScheme p.scheme = true
  userinfo : ∀ userinfo ∈ p.userinfo, isUserInfo userinfo = true
  host : IsHost p.host
  port : ∀ digits ∈ p.port, ∀ c ∈ digits, c.isDigit = true
  rest : Ends p.rest

structure Serialized (p : Parts) : Prop where
  userinfo : p.userinfo = none
  rest : p.rest = []

end Parts

section Characters

theorem mem_isEncoded {p : Char → Bool} {due : Nat} {s : List Char}
    (h : isEncoded p due s = true) : ∀ c ∈ s, c = '%' ∨ isHexDigit c = true ∨ p c = true := by
  induction s generalizing due with
  | nil => simp
  | cons c s ih =>
    rw [List.forall_mem_cons]
    cases due with
    | succ due =>
      rw [isEncoded, Bool.and_eq_true] at h
      exact ⟨.inr (.inl h.1), ih h.2⟩
    | zero =>
      rw [isEncoded] at h
      split at h
      . next hc => exact ⟨.inl hc, ih h⟩
      . rw [Bool.and_eq_true] at h
        exact ⟨.inr (.inr h.1), ih h.2⟩

/--
What has no percent sign is checked on its own.
-/
theorem isEncoded_append {p : Char → Bool} {s : List Char} (t : List Char) (h : '%' ∉ s) :
    isEncoded p 0 (s ++ t) = (s.all p && isEncoded p 0 t) := by
  induction s with
  | nil => rfl
  | cons c s ih =>
    rw [List.mem_cons, not_or] at h
    rw [List.cons_append, isEncoded, if_neg (Ne.symm h.1), ih h.2, List.all_cons, Bool.and_assoc]

theorem not_mem_of_isEncoded {p : Char → Bool} {s : List Char} (h : isEncoded p 0 s = true) {c : Char}
    (hc : c ≠ '%' ∧ isHexDigit c = false ∧ p c = false) : c ∉ s := by
  intro hmem
  rcases mem_isEncoded h c hmem with heq | hhex | hp
  . exact hc.1 heq
  . rw [hc.2.1] at hhex
    cases hhex
  . rw [hc.2.2] at hp
    cases hp

theorem not_mem_scheme {s : List Char} (h : isScheme s = true) : ':' ∉ s := by
  cases s with
  | nil => simp
  | cons c s =>
    simp only [isScheme, Bool.and_eq_true, List.all_eq_true] at h
    intro hmem
    rcases List.mem_cons.mp hmem with rfl | hmem
    . exact absurd h.1 (by decide)
    . exact absurd (h.2 ':' hmem) (by decide)

/--
What separates an authority from the rest, or a userinfo from a host, is in neither of them.
-/
theorem separator : ∀ c ∈ "/?#@".toList, c ≠ '%' ∧ isHexDigit c = false ∧ isUnreserved c = false ∧
    isSubDelim c = false ∧ c ≠ ':' ∧ c ≠ '[' ∧ c ≠ ']' ∧ c.isDigit = false := by
  rw [show "/?#@".toList = ['/', '?', '#', '@'] by rfl]
  simp only [List.forall_mem_cons, List.not_mem_nil, false_imp_iff, implies_true, and_true]
  decide

theorem not_mem_userInfo {s : List Char} (h : isUserInfo s = true) {c : Char}
    (hc : c ∈ "/?#@".toList) : c ∉ s := by
  have hsep := separator c hc
  exact not_mem_of_isEncoded h ⟨hsep.1, hsep.2.1, by simp [hsep]⟩

theorem not_mem_host {s : List Char} (h : IsHost s) {c : Char} (hc : c ∈ "/?#@".toList) : c ∉ s := by
  have hsep := separator c hc
  rcases h with hreg | ⟨address, haddress, rfl⟩
  . exact not_mem_of_isEncoded hreg ⟨hsep.1, hsep.2.1, by simp [hsep]⟩
  . simp only [List.mem_cons, List.mem_append, List.not_mem_nil, or_false, not_or]
    refine ⟨hsep.2.2.2.2.2.1, ?_, hsep.2.2.2.2.2.2.1⟩
    intro hmem
    have hchar := List.all_eq_true.mp haddress c hmem
    simp [hsep] at hchar

end Characters

section Uniqueness

/--
Up to an end, what `q` holds of is taken whole.
-/
theorem takeWhile_append_eq {q : Char → Bool} {s t : List Char} (hs : ∀ c ∈ s, q c = true)
    (ht : ∀ c, t.head? = some c → q c = false) : (s ++ t).takeWhile q = s := by
  rw [List.takeWhile_append_of_pos hs]
  cases t with
  | nil => simp
  | cons c t => rw [List.takeWhile_cons_of_neg (by simp [ht c rfl]), List.append_nil]

/--
The host in front of a port.
-/
def hostPart (s : List Char) : List Char :=
  if s.head? = some '[' then s.takeWhile (· ≠ ']') ++ [']'] else s.takeWhile (· ≠ ':')

theorem portText_head (port : Option (List Char)) :
    ∀ c, (Parts.portText port).head? = some c → c = ':' := by
  cases port with
  | none => simp [Parts.portText]
  | some digits => simp [Parts.portText]

theorem hostPart_append {host : List Char} (h : IsHost host) (port : Option (List Char)) :
    hostPart (host ++ Parts.portText port) = host := by
  have hport := portText_head port
  unfold hostPart
  rcases h with hreg | ⟨address, haddress, rfl⟩
  . have hbracket : '[' ∉ host := not_mem_of_isEncoded hreg (by decide)
    have hcolon : ':' ∉ host := not_mem_of_isEncoded hreg (by decide)
    rw [if_neg]
    . apply takeWhile_append_eq
      . intro c hc
        rw [decide_eq_true_eq]
        rintro rfl
        exact hcolon hc
      . intro c hc
        rw [hport c hc]
        rfl
    . intro hhead
      cases host with
      | nil => exact absurd (hport _ hhead) (by decide)
      | cons c host =>
        cases hhead
        exact hbracket List.mem_cons_self
  . have hclose : ']' ∉ address := by
      intro hmem
      exact absurd (List.all_eq_true.mp haddress _ hmem) (by decide)
    have hassoc : '[' :: (address ++ [']']) ++ Parts.portText port =
        '[' :: address ++ ']' :: Parts.portText port := by
      simp
    have htake : ('[' :: address ++ ']' :: Parts.portText port).takeWhile (· ≠ ']') =
        '[' :: address := by
      apply takeWhile_append_eq
      . intro c hc
        rw [decide_eq_true_eq]
        rintro rfl
        rcases List.mem_cons.mp hc with heq | hmem
        . exact absurd heq (by decide)
        . exact hclose hmem
      . simp
    have hhead : ('[' :: address ++ ']' :: Parts.portText port).head? = some '[' := rfl
    rw [hassoc, if_pos hhead, htake, List.cons_append]

variable {p q : Parts}

theorem not_mem_hostPort (hp : p.Valid) {c : Char} (hc : c ∈ "/?#@".toList) :
    c ∉ p.host ++ Parts.portText p.port := by
  have hsep := separator c hc
  rw [List.mem_append, not_or]
  refine ⟨not_mem_host hp.host hc, ?_⟩
  cases hport : p.port with
  | none => simp [Parts.portText]
  | some digits =>
    intro hmem
    rcases List.mem_cons.mp hmem with heq | hmem
    . exact hsep.2.2.2.2.1 heq
    . have hdigit := hp.port digits hport c hmem
      rw [hsep.2.2.2.2.2.2.2] at hdigit
      cases hdigit

theorem splitOnce_authority (hp : p.Valid) :
    Text.splitOnce '@' p.authority =
      p.userinfo.map fun userinfo => (userinfo, p.host ++ Parts.portText p.port) := by
  unfold Parts.authority
  cases huser : p.userinfo with
  | none => exact Text.splitOnce_eq_none_iff.mpr (not_mem_hostPort hp (by decide))
  | some userinfo =>
    exact Text.splitOnce_append _ (not_mem_userInfo (hp.userinfo userinfo huser) (by decide))

theorem authority_no_delimiter (hp : p.Valid) : ∀ c ∈ p.authority, isDelimiter c = false := by
  intro c hmem
  unfold isDelimiter
  rw [List.contains_eq_mem, decide_eq_false_iff_not]
  intro hc
  have hsep : c ∈ "/?#@".toList := by
    have hsub : "/?#".toList ⊆ "/?#@".toList := by decide
    exact hsub (by simpa using hc)
  have hhost := not_mem_hostPort hp hsep
  unfold Parts.authority at hmem
  cases huser : p.userinfo with
  | none =>
    rw [huser] at hmem
    exact hhost hmem
  | some userinfo =>
    rw [huser] at hmem
    rcases List.mem_append.mp hmem with hmem | hmem
    . exact not_mem_userInfo (hp.userinfo userinfo huser) hsep hmem
    . rcases List.mem_cons.mp hmem with rfl | hmem
      . exact absurd hc (by decide)
      . exact hhost hmem

theorem splitOnceOn_text (hp : p.Valid) :
    Text.splitOnceOn "://".toList p.text = some (p.scheme, p.authority ++ p.rest) :=
  Text.splitOnceOn_append _ (not_mem_scheme hp.scheme)

theorem takeWhile_authority (hp : p.Valid) :
    (p.authority ++ p.rest).takeWhile (fun c => !isDelimiter c) = p.authority := by
  apply takeWhile_append_eq
  . intro c hc
    rw [authority_no_delimiter hp c hc]
    rfl
  . intro c hc
    rw [hp.rest c hc]
    rfl

/--
The text of an origin determines its parts.
-/
theorem text_inj (hp : p.Valid) (hq : q.Valid) (h : p.text = q.text) : p = q := by
  have hsplit := splitOnceOn_text hp
  rw [h, splitOnceOn_text hq] at hsplit
  obtain ⟨hscheme, hbehind⟩ : q.scheme = p.scheme ∧ q.authority ++ q.rest = p.authority ++ p.rest := by
    simpa using hsplit
  have hauthority : q.authority = p.authority := by
    rw [← takeWhile_authority hp, ← takeWhile_authority hq, hbehind]
  have hrest : q.rest = p.rest := by
    rw [hauthority] at hbehind
    exact List.append_cancel_left hbehind
  have huser := splitOnce_authority hp
  rw [← hauthority, splitOnce_authority hq] at huser
  obtain ⟨huserinfo, hhostPort⟩ : q.userinfo = p.userinfo ∧
      q.host ++ Parts.portText q.port = p.host ++ Parts.portText p.port := by
    unfold Parts.authority at hauthority
    cases hpu : p.userinfo with
    | none =>
      cases hqu : q.userinfo with
      | none =>
        rw [hpu, hqu] at hauthority
        exact ⟨rfl, hauthority⟩
      | some userinfo =>
        rw [hpu, hqu] at huser
        cases huser
    | some userinfo =>
      cases hqu : q.userinfo with
      | none =>
        rw [hpu, hqu] at huser
        cases huser
      | some userinfo' =>
        rw [hpu, hqu] at huser
        simpa using huser
  have hhost : q.host = p.host := by
    rw [← hostPart_append hp.host p.port, ← hostPart_append hq.host q.port, hhostPort]
  have hport : q.port = p.port := by
    rw [hhost] at hhostPort
    have htext := List.append_cancel_left hhostPort
    cases hpp : p.port with
    | none =>
      cases hqp : q.port with
      | none => rfl
      | some digits =>
        rw [hpp, hqp] at htext
        cases htext
    | some digits =>
      cases hqp : q.port with
      | none =>
        rw [hpp, hqp] at htext
        cases htext
      | some digits' =>
        rw [hpp, hqp] at htext
        cases htext
        rfl
  exact Parts.ext hscheme.symm huserinfo.symm hhost.symm hport.symm hrest.symm

end Uniqueness

end Origin
