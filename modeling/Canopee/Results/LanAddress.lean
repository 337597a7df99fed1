import Canopee.Network.Listen

/-!
This module contains when the address in a pairing code is one of the device itself: when no circuit
through a foreign relay stands in front of the addresses that it may advertise.
-/

namespace Canopee

open Segments (Plain join_cons join_append takeWhile_append append_join_inj prefix_join_iff
  splitOnceOn_join splitOnceOn_join_cons)

namespace Protocol

def isIp : Protocol → Bool
  | ip4 _ _ _ _ => true
  | ip6 _ => true
  | _ => false

/--
An address that only the device itself can dial.
-/
def isLoopback : Protocol → Bool
  | ip4 a _ _ _ => a == 127
  | ip6 addr => addr.text == "::1"
  | _ => false

def isP2p : Protocol → Bool
  | p2p _ => true
  | _ => false

end Protocol

namespace Multiaddr

variable (addr : Multiaddr)

/--
Not a circuit through a relay.
-/
def isDirect : Bool :=
  !addr.contains .p2pCircuit

def isIp : Bool :=
  addr.head?.any Protocol.isIp

def isLoopback : Bool :=
  addr.head?.any Protocol.isLoopback

/--
The address without a peer id and what follows it.
-/
def host : Multiaddr :=
  addr.takeWhile fun protocol => !protocol.isP2p

end Multiaddr

section Texts

variable {protocol : Protocol} {addr other : Multiaddr}

theorem slash_not_mem_repr (n : Nat) : '/' ∉ n.repr.toList := by
  intro h
  exact absurd (Text.isDigit_of_mem_repr h) (by decide)

theorem plain_segments (h : protocol.isP2p = false) : Plain '/' protocol.segments := by
  cases protocol with
  | ip4 a b c d =>
    intro segment hsegment
    rcases List.mem_pair.mp hsegment with rfl | rfl
    . decide
    . simp only [List.mem_append, List.mem_cons, slash_not_mem_repr, false_or, or_false]
      decide
  | ip6 addr =>
    intro segment hsegment
    rcases List.mem_pair.mp hsegment with rfl | rfl
    . decide
    . exact addr.plain
  | p2p peer => cases h
  | p2pCircuit =>
    intro segment hsegment
    rw [List.mem_singleton.mp hsegment]
    decide
  | other protocol =>
    intro segment hsegment
    obtain ⟨text, htext, rfl⟩ := List.mem_map.mp hsegment
    exact protocol.plain text htext

theorem p2p_not_mem_segments (h : protocol.isP2p = false) : "p2p".toList ∉ protocol.segments := by
  intro hmem
  cases protocol with
  | ip4 a b c d =>
    rcases List.mem_pair.mp hmem with heq | heq
    . exact absurd heq (by decide)
    . have hdot : '.' ∈ "p2p".toList := by
        rw [heq]
        simp
      exact absurd hdot (by decide)
  | ip6 addr =>
    rcases List.mem_pair.mp hmem with heq | heq
    . exact absurd heq (by decide)
    . have hcolon := addr.colon
      rw [← heq] at hcolon
      exact absurd hcolon (by decide)
  | p2p peer => cases h
  | p2pCircuit => exact absurd (List.mem_singleton.mp hmem) (by decide)
  | other protocol =>
    obtain ⟨text, htext, heq⟩ := List.mem_map.mp hmem
    rw [String.toList_inj] at heq
    subst heq
    rcases List.mem_cons.mp htext with hname | hvalue
    . exact protocol.name_not_mem (by simp [← hname])
    . exact protocol.value_ne (Option.mem_toList.mp hvalue)

/--
The text is cut in front of the first peer id.
-/
theorem base_text (addr : Multiaddr) : Lan.base addr.text = addr.host.text := by
  have hhost (protocol : Protocol) (h : protocol ∈ addr.host) : protocol.isP2p = false := by
    have hp2p := List.mem_takeWhile_imp h
    simpa using hp2p
  have hplain : Plain '/' (addr.host.flatMap Protocol.segments) := by
    intro segment hsegment
    obtain ⟨protocol, hprotocol, hmem⟩ := List.mem_flatMap.mp hsegment
    exact plain_segments (hhost protocol hprotocol) segment hmem
  have hnot : "p2p".toList ∉ addr.host.flatMap Protocol.segments := by
    intro hmem
    obtain ⟨protocol, hprotocol, hmem⟩ := List.mem_flatMap.mp hmem
    exact p2p_not_mem_segments (hhost protocol hprotocol) hmem
  obtain ⟨rest, hrest⟩ : ∃ rest, addr.dropWhile (fun protocol => !protocol.isP2p) = rest := ⟨_, rfl⟩
  have htext : addr.text =
      Segments.join '/' (addr.host.flatMap Protocol.segments ++ rest.flatMap Protocol.segments) := by
    rw [← List.flatMap_append, ← hrest]
    exact congrArg Multiaddr.text List.takeWhile_append_dropWhile.symm
  unfold Lan.base
  rw [htext, show "/p2p/".toList = '/' :: ("p2p".toList ++ ['/']) by rfl]
  cases rest with
  | nil =>
    rw [List.flatMap_nil, List.append_nil, splitOnceOn_join hplain (by decide) hnot]
    rfl
  | cons protocol rest =>
    have hp2p : (!protocol.isP2p) = false := by
      have hhead := List.head?_dropWhile_not (fun protocol => !Protocol.isP2p protocol) addr
      rw [hrest] at hhead
      exact hhead
    cases protocol with
    | p2p peer =>
      change (Option.map Prod.fst (Text.splitOnceOn _ (Segments.join '/' (_ ++ "p2p".toList ::
        peer.base58.toList :: rest.flatMap Protocol.segments)))).getD _ = _
      rw [splitOnceOn_join_cons hplain (by decide) hnot]
      rfl
    | _ => cases hp2p

theorem isIp_text (addr : Multiaddr) : Lan.isIp addr.text = addr.isIp := by
  cases addr with
  | nil => rfl
  | cons protocol rest =>
    cases protocol with
    | ip4 a b c d => rfl
    | ip6 addr => rfl
    | p2p peer => rfl
    | p2pCircuit => rfl
    | other protocol =>
      have hnot (first : List Char) (hfirst : '/' ∉ first) (hname : protocol.name.toList ≠ first) :
          ('/' :: (first ++ ['/'])).isPrefixOf (Multiaddr.text (.other protocol :: rest)) = false := by
        rw [Bool.eq_false_iff, Ne, List.isPrefixOf_iff_prefix]
        intro hprefix
        obtain ⟨next, more, heq, _⟩ := (prefix_join_iff (by
          intro segment hsegment
          cases hsegment
          exact protocol.plain _ List.mem_cons_self) hfirst List.not_mem_nil).mp hprefix
        exact hname (List.cons.inj heq).1
      have hmem := protocol.name_not_mem
      have hip4 := hnot "ip4".toList (by decide) (by
        rw [Ne, String.toList_inj]
        intro heq
        simp [heq] at hmem)
      have hip6 := hnot "ip6".toList (by decide) (by
        rw [Ne, String.toList_inj]
        intro heq
        simp [heq] at hmem)
      exact congrArg₂ (· || ·) hip4 hip6

theorem isLoopback_text (h : addr.isLoopback = true) : Lan.isLoopback addr.text = true := by
  cases addr with
  | nil => cases h
  | cons protocol rest =>
    cases protocol with
    | ip4 a b c d =>
      have ha : a = 127 := beq_iff_eq.mp h
      subst ha
      rfl
    | ip6 addr =>
      have htext : addr.text = "::1" := beq_iff_eq.mp h
      change ("/ip4/127.".toList.isPrefixOf _ || "/ip6/::1".toList.isPrefixOf
        ('/' :: ("ip6".toList ++ '/' :: (addr.text.toList ++ _)))) = true
      rw [htext]
      rfl
    | p2p peer => cases h
    | p2pCircuit => cases h
    | other protocol => cases h

/--
IP addresses with the same text are on the same side of the loopback.
-/
theorem isLoopback_eq_of_text (h : addr.isIp = true) (hother : other.isIp = true)
    (htext : addr.text = other.text) : addr.isLoopback = other.isLoopback := by
  cases addr with
  | nil => cases h
  | cons protocol rest =>
    cases other with
    | nil => cases hother
    | cons protocol' rest' =>
      cases protocol with
      | ip4 a b c d =>
        cases protocol' with
        | ip4 a' b' c' d' =>
          have hvalue : a.toNat.repr.toList ++ '.' :: _ = a'.toNat.repr.toList ++ '.' :: _ :=
            (List.append_assoc ..).symm.trans
              ((congrArg (List.drop 5) htext).trans (List.append_assoc ..))
          have hdot (n : Nat) : '.' ∉ n.repr.toList := by
            intro hmem
            exact absurd (Text.isDigit_of_mem_repr hmem) (by decide)
          have hfirst := congrArg (List.takeWhile (· ≠ '.')) hvalue
          rw [takeWhile_append (hdot _) (.inr ⟨_, rfl⟩), takeWhile_append (hdot _) (.inr ⟨_, rfl⟩),
            Text.repr_toList_inj, UInt8.toNat_inj] at hfirst
          rw [hfirst]
          rfl
        | ip6 addr' => cases htext
        | _ => cases hother
      | ip6 addr =>
        cases protocol' with
        | ip6 addr' =>
          have hvalue : addr.text.toList ++ _ = addr'.text.toList ++ _ := congrArg (List.drop 5) htext
          have hsame := append_join_inj addr.plain addr'.plain hvalue
          exact congrArg (· == "::1") (String.toList_inj.mp hsame)
        | ip4 a' b' c' d' => cases htext
        | _ => cases hother
      | _ => cases h

end Texts

namespace Lan

variable {addrs : List Multiaddr} {peerId : PeerId} {addr c : Multiaddr}

/--
An IP address without a loopback prefix.
-/
def usable (addr : Multiaddr) : Bool :=
  isIp addr.text && !isLoopback addr.text

/--
What is advertised is an address of the device itself with its peer id, one that others can dial where
there is one, and it is nothing where there are only circuits.
-/
structure Advertises (addrs : List Multiaddr) (peerId : PeerId) : Prop where
  own : ∀ a, dialableLanAddr addrs peerId = .ok a →
    ∃ d ∈ addrs, d.isDirect = true ∧ d.isIp = true ∧
      a = d.host.text ++ "/p2p/".toList ++ peerId.base58.toList ∧
      ((∃ d' ∈ addrs, d'.isDirect = true ∧ d'.isIp = true ∧ d'.isLoopback = false) →
        d.isLoopback = false)
  circuits : (∀ d ∈ addrs, d.isDirect = false) → ∃ e, dialableLanAddr addrs peerId = .error e

/--
The address is a direct one, or a circuit through a relay where the device itself listens.
-/
def Own (addrs : List Multiaddr) (addr : Multiaddr) : Prop :=
  ∃ d ∈ addrs, d.isDirect = true ∧ d.host.text = addr.host.text

/--
The first IP address without a loopback prefix is the device's own. Where all have such a prefix the
first one is, and it is no loopback address unless all the direct ones are.
-/
structure OwnFirst (addrs : List Multiaddr) : Prop where
  first : ∀ addr, addrs.find? usable = some addr → Own addrs addr
  fallback : addrs.find? usable = none → ∀ addr, addrs.find? Multiaddr.isIp = some addr →
    Own addrs addr ∧ (addr.isLoopback = true →
      ∀ d ∈ addrs, d.isDirect = true → d.isIp = true → d.isLoopback = true)

section Host

theorem isIp_host (addr : Multiaddr) : addr.host.isIp = addr.isIp := by
  cases addr with
  | nil => rfl
  | cons protocol rest =>
    cases protocol with
    | p2p peer => rfl
    | _ => rfl

theorem isLoopback_host (addr : Multiaddr) : addr.host.isLoopback = addr.isLoopback := by
  cases addr with
  | nil => rfl
  | cons protocol rest =>
    cases protocol with
    | p2p peer => rfl
    | _ => rfl

theorem same_of_host_text (h : addr.host.text = c.host.text) (hip : c.isIp = true) :
    addr.isIp = true ∧ addr.isLoopback = c.isLoopback := by
  have haddr : addr.isIp = true := by
    rw [← isIp_host, ← isIp_text, h, isIp_text, isIp_host, hip]
  refine ⟨haddr, ?_⟩
  rw [← isLoopback_host addr, ← isLoopback_host c]
  exact isLoopback_eq_of_text ((isIp_host addr).trans haddr) ((isIp_host c).trans hip) h

theorem isIp_of_usable (h : usable addr = true) : addr.isIp = true := by
  rw [← isIp_text]
  exact (Bool.and_eq_true_iff.mp h).1

theorem isLoopback_of_usable (h : usable addr = true) : addr.isLoopback = false := by
  by_contra hloopback
  rw [Bool.not_eq_false] at hloopback
  have hnot := (Bool.and_eq_true_iff.mp h).2
  rw [isLoopback_text hloopback] at hnot
  cases hnot

end Host

theorem dialableLanAddr_eq (addrs : List Multiaddr) (peerId : PeerId) :
    dialableLanAddr addrs peerId =
      match (addrs.find? usable).or (addrs.find? Multiaddr.isIp) with
      | none => .error "no listen address available to pair over"
      | some addr => .ok (addr.host.text ++ "/p2p/".toList ++ peerId.base58.toList) := by
  have hpick : ((addrs.map Multiaddr.text).find? fun s => isIp s && !isLoopback s).or
      ((addrs.map Multiaddr.text).find? isIp) =
        ((addrs.find? usable).or (addrs.find? Multiaddr.isIp)).map Multiaddr.text := by
    have hip : isIp ∘ Multiaddr.text = Multiaddr.isIp := funext isIp_text
    rw [List.find?_map, List.find?_map, hip, Option.map_or]
    rfl
  unfold dialableLanAddr
  dsimp only
  rw [hpick]
  cases hfound : (addrs.find? usable).or (addrs.find? Multiaddr.isIp) with
  | none => rfl
  | some addr =>
    have hip : addr.isIp = true := by
      rcases Option.or_eq_some_iff.mp hfound with h | ⟨_, h⟩
      . exact isIp_of_usable (List.find?_some h)
      . exact List.find?_some h
    rw [Option.map_some]
    dsimp only
    rw [base_text, isIp_text, isIp_host, hip]
    rfl

/--
The pairing code of a device advertises an address of its own just when it has one of them first.
-/
theorem advertises_iff (events : List Multiaddr) (peerId : PeerId) :
    Advertises (listenAddrs events) peerId ↔ OwnFirst (listenAddrs events) := by
  generalize listenAddrs events = addrs
  have hread := dialableLanAddr_eq addrs peerId
  constructor
  . intro hadvertises
    constructor
    . intro addr hfirst
      rw [hfirst] at hread
      obtain ⟨d, hd, hdirect, _, htext, _⟩ := hadvertises.own _ hread
      rw [List.append_cancel_right_eq, List.append_cancel_right_eq] at htext
      exact ⟨d, hd, hdirect, htext.symm⟩
    . intro hnone addr hfirst
      rw [hnone, hfirst] at hread
      obtain ⟨d, hd, hdirect, hip, htext, hdialable⟩ := hadvertises.own _ hread
      rw [List.append_cancel_right_eq, List.append_cancel_right_eq] at htext
      refine ⟨⟨d, hd, hdirect, htext.symm⟩, fun hloopback d' hd' hdirect' hip' => ?_⟩
      by_contra hnot
      rw [Bool.not_eq_true] at hnot
      have hsame := (same_of_host_text htext.symm (List.find?_some hfirst)).2
      rw [hdialable ⟨d', hd', hdirect', hip', hnot⟩, hloopback] at hsame
      cases hsame
  . intro hown
    constructor
    . intro a ha
      rw [hread] at ha
      cases hfirst : addrs.find? usable with
      | some addr =>
        rw [hfirst] at ha
        obtain ⟨d, hd, hdirect, htext⟩ := hown.first addr hfirst
        have husable : usable addr = true := List.find?_some hfirst
        have hsame := same_of_host_text htext (isIp_of_usable husable)
        refine ⟨d, hd, hdirect, hsame.1, ?_, fun _ => ?_⟩
        . rw [htext]
          exact (Except.ok.inj ha).symm
        . rw [hsame.2, isLoopback_of_usable husable]
      | none =>
        cases hip : addrs.find? Multiaddr.isIp with
        | none =>
          rw [hfirst, hip] at ha
          cases ha
        | some addr =>
          rw [hfirst, hip] at ha
          obtain ⟨⟨d, hd, hdirect, htext⟩, hloopback⟩ := hown.fallback hfirst addr hip
          have hsame := same_of_host_text htext (List.find?_some hip)
          refine ⟨d, hd, hdirect, hsame.1, ?_, ?_⟩
          . rw [htext]
            exact (Except.ok.inj ha).symm
          . intro ⟨d', hd', hdirect', hip', hnot⟩
            rw [hsame.2, ← Bool.not_eq_true]
            intro hall
            rw [hloopback hall d' hd' hdirect' hip'] at hnot
            cases hnot
    . intro hcircuits
      have hnot {addr : Multiaddr} : ¬ Own addrs addr := by
        intro ⟨d, hd, hdirect, _⟩
        rw [hcircuits d hd] at hdirect
        cases hdirect
      cases hfirst : addrs.find? usable with
      | some addr => exact absurd (hown.first addr hfirst) hnot
      | none =>
        cases hip : addrs.find? Multiaddr.isIp with
        | some addr => exact absurd (hown.fallback hfirst addr hip).1 hnot
        | none =>
          rw [hfirst, hip] at hread
          exact ⟨_, hread⟩

section Counterexample

def tcp (port : String) (h : '/' ∉ port.toList) (hne : port ≠ "p2p") : Protocol :=
  .other ⟨"tcp", some port, by simp [h], by decide, by simpa using hne⟩

/--
The node listens on the loopback interface, and then behind its relay.
-/
def behindRelay : List Multiaddr :=
  [[.ip4 127 0 0 1, tcp "5000" (by decide) (by decide)],
    [.ip4 89 127 234 35, tcp "4001" (by decide) (by decide), .p2p ⟨"relay"⟩, .p2pCircuit]]

theorem behindRelay_advertised :
    dialableLanAddr (listenAddrs behindRelay) ⟨"own"⟩ =
        .ok "/ip4/89.127.234.35/tcp/4001/p2p/own".toList ∧
      ¬ Advertises (listenAddrs behindRelay) ⟨"own"⟩ := by
  have hread : dialableLanAddr (listenAddrs behindRelay) ⟨"own"⟩ =
      .ok "/ip4/89.127.234.35/tcp/4001/p2p/own".toList := by
    decide +kernel
  refine ⟨hread, fun hadvertises => ?_⟩
  obtain ⟨d, hd, hdirect, _, htext, _⟩ := hadvertises.own _ hread
  have hother : ∀ d ∈ listenAddrs behindRelay, d.isDirect = true →
      "/ip4/89.127.234.35/tcp/4001/p2p/own".toList ≠
        d.host.text ++ "/p2p/".toList ++ "own".toList := by
    decide +kernel
  exact hother d hd hdirect htext

end Counterexample

end Lan

end Canopee
