import Canopee.Gateway.Session

/-!
This module contains when the session of a gateway runs the commands that a browser sends: when no
event is taken while a part of a frame has been read.
-/

namespace Canopee

namespace Gateway

open Incremental

section Frames

variable {Request : Type} (decode : Bytes → Option (GatewayCommand Request))

/--
The command that a frame carries.
-/
def commandOf (f : ClientFrame) : Option (GatewayCommand Request) :=
  match f.frame with
  | .data payload => decode payload
  | _ => none

def commandsOf (frames : List ClientFrame) : List (GatewayCommand Request) :=
  frames.filterMap (commandOf decode)

def encodeAll (frames : List ClientFrame) : Bytes :=
  (frames.map ClientFrame.encode).flatten

/--
Every message is a command.
-/
def Speaks (f : ClientFrame) : Prop :=
  ∀ payload, f.frame = .data payload → (decode payload).isSome = true

theorem commandsOf_append (fs gs : List ClientFrame) :
    commandsOf decode (fs ++ gs) = commandsOf decode fs ++ commandsOf decode gs := by
  simp [commandsOf]

theorem encodeAll_cons (f : ClientFrame) (fs : List ClientFrame) :
    encodeAll (f :: fs) = f.encode ++ encodeAll fs := rfl

theorem encodeAll_append (fs gs : List ClientFrame) :
    encodeAll (fs ++ gs) = encodeAll fs ++ encodeAll gs := by
  simp [encodeAll]

theorem readCommand_of_wait {bytes : Bytes} (h : readFrame.run bytes = .wait) :
    readCommand decode bytes = .pending bytes := by
  rw [readCommand]
  split
  . rfl
  all_goals
    next heq =>
      rw [h] at heq
      cases heq

theorem readCommand_of_done {bytes rest : Bytes} {frame : Frame}
    (h : readFrame.run bytes = .done frame rest) :
    readCommand decode bytes =
      match frame with
      | .data payload =>
        match decode payload with
        | some command => .command command rest
        | none => .failed
      | .ping _ => readCommand decode rest
      | .pong _ => readCommand decode rest
      | .close _ => .closed := by
  rw [readCommand]
  split
  all_goals
    next heq =>
      rw [h] at heq
      cases heq
      try rfl

theorem readFrame_wait {bytes t : Bytes} {f : ClientFrame} (h : f.encode = bytes ++ t) (ht : t ≠ []) :
    readFrame.run bytes = .wait := by
  have hread := readFrame_encode f []
  rw [List.append_nil, h] at hread
  exact stable_readFrame.wait hread (List.length_pos_of_ne_nil ht)

theorem cases_of_encodeAll {bytes wire : Bytes} {f : ClientFrame} {fs : List ClientFrame}
    (h : bytes ++ wire = encodeAll (f :: fs)) :
    (bytes.length < f.encode.length ∧ readFrame.run bytes = .wait) ∨
      ∃ rest, bytes = f.encode ++ rest ∧ rest ++ wire = encodeAll fs := by
  rw [encodeAll_cons] at h
  rcases List.append_eq_append_iff.mp h with ⟨t, hf, hwire⟩ | ⟨rest, hbytes, hrest⟩
  . by_cases ht : t = []
    . subst ht
      rw [List.append_nil] at hf
      exact .inr ⟨[], by simp [hf], by simpa using hwire⟩
    . have hlength := congrArg List.length hf
      rw [List.length_append] at hlength
      have hpos := List.length_pos_of_ne_nil ht
      exact .inl ⟨by omega, readFrame_wait hf ht⟩
  . exact .inr ⟨rest, hbytes, hrest.symm⟩

theorem readCommand_of_encodeAll {frames : List ClientFrame} (hspeaks : ∀ f ∈ frames, Speaks decode f)
    {bytes wire : Bytes} (h : bytes ++ wire = encodeAll frames) :
    ∃ read left, frames = read ++ left ∧
      ((∃ taken, commandsOf decode read = [] ∧ readCommand decode bytes = .pending taken ∧
          taken ++ wire = encodeAll left ∧ readFrame.run taken = .wait) ∨
        ∃ command rest, commandsOf decode read = [command] ∧
          readCommand decode bytes = .command command rest ∧ rest ++ wire = encodeAll left) := by
  induction frames generalizing bytes with
  | nil =>
    have hbytes : bytes = [] := (List.append_eq_nil_iff.mp h).1
    have hwait : readFrame.run bytes = .wait := by
      rw [hbytes]
      rfl
    exact ⟨[], [], rfl, .inl ⟨bytes, rfl, readCommand_of_wait decode hwait, h, hwait⟩⟩
  | cons f fs ih =>
    rw [List.forall_mem_cons] at hspeaks
    rcases cases_of_encodeAll h with ⟨_, hwait⟩ | ⟨rest, hbytes, hrest⟩
    . exact ⟨[], f :: fs, rfl, .inl ⟨bytes, rfl, readCommand_of_wait decode hwait, h, hwait⟩⟩
    . have hread := readFrame_encode f rest
      rw [← hbytes] at hread
      have hlater (hnone : commandOf decode f = none)
          (hsame : readCommand decode bytes = readCommand decode rest) :
          ∃ read left, f :: fs = read ++ left ∧
            ((∃ taken, commandsOf decode read = [] ∧ readCommand decode bytes = .pending taken ∧
                taken ++ wire = encodeAll left ∧ readFrame.run taken = .wait) ∨
              ∃ command rest, commandsOf decode read = [command] ∧
                readCommand decode bytes = .command command rest ∧
                rest ++ wire = encodeAll left) := by
        obtain ⟨read, left, hsplit, hcases⟩ := ih hspeaks.2 hrest
        have hnames : commandsOf decode (f :: read) = commandsOf decode read := by
          unfold commandsOf
          rw [List.filterMap_cons_none hnone]
        refine ⟨f :: read, left, by rw [hsplit, List.cons_append], ?_⟩
        rw [hnames, hsame]
        exact hcases
      cases hframe : f.frame with
      | data payload =>
        obtain ⟨command, hdecode⟩ := Option.isSome_iff_exists.mp (hspeaks.1 payload hframe)
        rw [hframe] at hread
        have hcommand := readCommand_of_done decode hread
        simp only [hdecode] at hcommand
        have hone : commandsOf decode [f] = [command] := by
          simp [commandsOf, commandOf, hframe, hdecode]
        exact ⟨[f], fs, rfl, .inr ⟨command, rest, hone, hcommand, hrest⟩⟩
      | ping payload =>
        rw [hframe] at hread
        exact hlater (by simp [commandOf, hframe]) (readCommand_of_done decode hread)
      | pong payload =>
        rw [hframe] at hread
        exact hlater (by simp [commandOf, hframe]) (readCommand_of_done decode hread)
      | close reason =>
        unfold ClientFrame.frame at hframe
        split at hframe
        . cases hframe
        . split at hframe
          . cases hframe
          . cases hframe

end Frames

section Sessions

variable {Event Request : Type} (decode : Bytes → Option (GatewayCommand Request))
  (frames : List ClientFrame)

/--
The session runs; it has handled the commands of the first frames, and what it has not consumed are
the bytes of the others.
-/
def Intact (s : Session Event Request) : Prop :=
  s.ended = none ∧ ∃ read left, frames = read ++ left ∧ s.handled = commandsOf decode read ∧
    s.taken ++ (s.buffer ++ s.wire) = encodeAll left

def HasEvent (s : Session Event Request) : Prop :=
  ∃ event events ended, s.subscription = some ⟨event :: events, ended⟩

/--
The select does not take an event while its `read_command` holds a part of a frame, and not the end
of the subscription.
-/
def Calm (l : Label Event) (s : Session Event Request) : Prop :=
  match l with
  | .poll true => s.ready = true → s.taken = [] ∧ HasEvent s
  | .poll false => s.ready = true → ∀ taken,
      readCommand decode (s.taken ++ s.buffer) = .pending taken → taken = [] ∧ HasEvent s
  | _ => True

/--
Intact, and nothing of a whole frame is held.
-/
structure Steady (s : Session Event Request) : Prop where
  intact : Intact decode frames s
  waits : readFrame.run s.taken = .wait

variable {decode frames}

theorem takeEvent_of_hasEvent {s : Session Event Request} (h : HasEvent s) :
    s.takeEvent.ended = s.ended ∧ s.takeEvent.taken = [] ∧ s.takeEvent.handled = s.handled ∧
      s.takeEvent.buffer = s.buffer ∧ s.takeEvent.wire = s.wire := by
  obtain ⟨event, events, ended, hsubscription⟩ := h
  unfold Session.takeEvent
  rw [hsubscription]
  exact ⟨rfl, rfl, rfl, rfl, rfl⟩

theorem takeEvent_of_not_hasEvent {s : Session Event Request} (h : ¬ HasEvent s) :
    s.takeEvent.ended = some .subscriptionEnded := by
  unfold Session.takeEvent
  split
  . next event events ended hsubscription => exact absurd ⟨event, events, ended, hsubscription⟩ h
  . rfl

theorem length_encode_pos (f : ClientFrame) : 0 < f.encode.length := by
  simp [ClientFrame.encode]

theorem length_encodeAll_le_of_suffix {fs gs : List ClientFrame} (h : fs <:+ gs) :
    (encodeAll fs).length ≤ (encodeAll gs).length := by
  obtain ⟨hs, rfl⟩ := h
  rw [encodeAll_append, List.length_append]
  omega

/--
An event is taken without harm just when no part of a frame is held.
-/
theorem intact_takeEvent_iff {s : Session Event Request} (h : Steady decode frames s) :
    Intact decode frames s.takeEvent ↔ s.taken = [] ∧ HasEvent s := by
  obtain ⟨hended, read, left, hsplit, hhandled, hbytes⟩ := h.intact
  by_cases hevent : HasEvent s
  . obtain ⟨hended', htaken, hhandled', hbuffer, hwire⟩ := takeEvent_of_hasEvent hevent
    unfold Intact
    rw [hended', htaken, hhandled', hbuffer, hwire, and_iff_left hevent, and_iff_right hended]
    constructor
    . rintro ⟨read', left', hsplit', _, hbytes'⟩
      by_contra hne
      have hsuffix : left <:+ frames := ⟨read, hsplit.symm⟩
      have hsuffix' : left' <:+ frames := ⟨read', hsplit'.symm⟩
      have hpos := List.length_pos_of_ne_nil hne
      have hlength := congrArg List.length hbytes
      have hlength' := congrArg List.length hbytes'
      rw [List.length_append] at hlength
      rw [List.nil_append] at hlength'
      cases left with
      | nil => exact hne (List.append_eq_nil_iff.mp hbytes).1
      | cons f fs =>
        rcases cases_of_encodeAll hbytes with ⟨hpart, _⟩ | ⟨rest, htaken, hrest⟩
        . rcases List.suffix_or_suffix_of_suffix hsuffix hsuffix' with hle | hle
          . have hmore := length_encodeAll_le_of_suffix hle
            omega
          . rcases List.suffix_cons_iff.mp hle with heq | hle
            . rw [heq] at hlength'
              omega
            . have hless := length_encodeAll_le_of_suffix hle
              have hfirst := congrArg List.length (encodeAll_cons f fs)
              rw [List.length_append] at hfirst
              omega
        . have hread := readFrame_encode f rest
          rw [← htaken, h.waits] at hread
          cases hread
    . intro hnil
      rw [hnil] at hbytes
      exact ⟨read, left, hsplit, hhandled, hbytes⟩
  . have hend := takeEvent_of_not_hasEvent hevent
    apply iff_of_false
    . intro hintact
      rw [hintact.1] at hend
      cases hend
    . exact fun hboth => hevent hboth.2

theorem steady_start :
    Steady decode frames (Session.start (encodeAll frames) : Session Event Request) where
  intact := ⟨rfl, [], frames, rfl, rfl, rfl⟩
  waits := rfl

theorem Steady.takeEvent {s : Session Event Request} (h : Steady decode frames s) (hnil : s.taken = [])
    (hevent : HasEvent s) : Steady decode frames s.takeEvent where
  intact := (intact_takeEvent_iff h).mpr ⟨hnil, hevent⟩
  waits := by
    rw [(takeEvent_of_hasEvent hevent).2.1]
    rfl

theorem Steady.handle {s : Session Event Request} (h : Steady decode frames s)
    {read left : List ClientFrame} {command : GatewayCommand Request} {rest : Bytes}
    (hsplit : frames = read ++ left) (hhandled : s.handled ++ [command] = commandsOf decode read)
    (hrest : rest ++ s.wire = encodeAll left) : Steady decode frames (s.handle command rest) where
  intact := ⟨h.intact.1, read, left, hsplit, hhandled, hrest⟩
  waits := rfl

/--
What a turn does in a steady session: it takes from the channel, it waits, or it runs a command.
-/
theorem poll_cases (hspeaks : ∀ f ∈ frames, Speaks decode f) {s : Session Event Request}
    (h : Steady decode frames s) (channelFirst : Bool) :
    (channelFirst = true ∧ s.ready = true ∧ s.poll decode channelFirst = s.takeEvent) ∨
      (channelFirst = true → s.ready = false) ∧
        ((∃ taken, readCommand decode (s.taken ++ s.buffer) = .pending taken ∧
          Steady decode frames { s with taken := taken, buffer := [] } ∧
          s.poll decode channelFirst =
            if s.ready then
              ({ s with taken := taken, buffer := [] } : Session Event Request).takeEvent
            else
              { s with taken := taken, buffer := [] }) ∨
        ∃ command rest, readCommand decode (s.taken ++ s.buffer) = .command command rest ∧
          Steady decode frames (s.handle command rest) ∧
          s.poll decode channelFirst = s.handle command rest) := by
  obtain ⟨hended, read, left, hsplit, hhandled, hbytes⟩ := h.intact
  have hrunning : ¬ s.ended.isSome = true := by
    simp [hended]
  unfold Session.poll
  rw [if_neg hrunning]
  by_cases hfirst : (channelFirst && s.ready) = true
  . rw [if_pos hfirst]
    rw [Bool.and_eq_true] at hfirst
    exact .inl ⟨hfirst.1, hfirst.2, rfl⟩
  . rw [if_neg hfirst]
    right
    constructor
    . intro htrue
      simpa [htrue] using hfirst
    . rw [← List.append_assoc] at hbytes
      have hleft : ∀ f ∈ left, Speaks decode f := by
        intro f hf
        apply hspeaks f
        rw [hsplit]
        exact List.mem_append_right read hf
      obtain ⟨read', left', hsplit', hcases⟩ := readCommand_of_encodeAll decode hleft hbytes
      have hframes : frames = (read ++ read') ++ left' := by
        rw [hsplit, hsplit', List.append_assoc]
      rcases hcases with ⟨taken, hnone, hread, hrest, hwait⟩ | ⟨command, rest, hone, hread, hrest⟩
      . left
        refine ⟨taken, hread, ⟨⟨hended, read ++ read', left', hframes, ?_, hrest⟩, hwait⟩, ?_⟩
        . rw [commandsOf_append, hnone, List.append_nil]
          exact hhandled
        . rw [hread]
          rfl
      . right
        have hmore : s.handled ++ [command] = commandsOf decode (read ++ read') := by
          rw [commandsOf_append, hone, hhandled]
        exact ⟨command, rest, hread, h.handle hframes hmore hrest, by rw [hread]⟩

/--
One step keeps a session steady just when it is calm.
-/
theorem intact_step_iff (hspeaks : ∀ f ∈ frames, Speaks decode f) {l : Label Event}
    {s : Session Event Request} (h : Steady decode frames s) :
    (Intact decode frames (step decode l s) ↔ Calm decode l s) ∧
      (Calm decode l s → Steady decode frames (step decode l s)) := by
  obtain ⟨hended, read, left, hsplit, hhandled, hbytes⟩ := h.intact
  cases l with
  | arrive n =>
    have hsteady : Steady decode frames (step decode (.arrive n : Label Event) s) := by
      refine ⟨⟨hended, read, left, hsplit, hhandled, ?_⟩, h.waits⟩
      simp only [step, List.append_assoc, List.take_append_drop]
      exact hbytes
    exact ⟨iff_of_true hsteady.intact trivial, fun _ => hsteady⟩
  | push event =>
    have hsteady : Steady decode frames (step decode (.push event) s) :=
      ⟨⟨hended, read, left, hsplit, hhandled, hbytes⟩, h.waits⟩
    exact ⟨iff_of_true hsteady.intact trivial, fun _ => hsteady⟩
  | finish =>
    have hsteady : Steady decode frames (step decode (.finish : Label Event) s) :=
      ⟨⟨hended, read, left, hsplit, hhandled, hbytes⟩, h.waits⟩
    exact ⟨iff_of_true hsteady.intact trivial, fun _ => hsteady⟩
  | poll channelFirst =>
    simp only [step]
    rcases poll_cases hspeaks h channelFirst with
      ⟨rfl, hready, hpoll⟩ |
        ⟨hfirst, ⟨taken, hread, hsteady, hpoll⟩ | ⟨command, rest, hread, hsteady, hpoll⟩⟩
    . have hcalm : Calm decode (.poll true) s ↔ s.taken = [] ∧ HasEvent s :=
        ⟨fun hcalm => hcalm hready, fun hboth _ => hboth⟩
      rw [hpoll, hcalm]
      exact ⟨intact_takeEvent_iff h, fun hboth => h.takeEvent hboth.1 hboth.2⟩
    . rw [hpoll]
      by_cases hready : s.ready = true
      . have hcalm : Calm decode (.poll channelFirst) s ↔ taken = [] ∧ HasEvent s := by
          cases channelFirst with
          | true =>
            rw [hfirst rfl] at hready
            cases hready
          | false =>
            constructor
            . intro hcalm
              exact hcalm hready taken hread
            . intro hboth _ taken' hread'
              rw [hread] at hread'
              cases hread'
              exact hboth
        rw [if_pos hready, hcalm]
        exact ⟨intact_takeEvent_iff hsteady, fun hboth => hsteady.takeEvent hboth.1 hboth.2⟩
      . have hcalm : Calm decode (.poll channelFirst) s := by
          cases channelFirst with
          | true => exact fun htrue => absurd htrue hready
          | false => exact fun htrue => absurd htrue hready
        rw [if_neg hready]
        exact ⟨iff_of_true hsteady.intact hcalm, fun _ => hsteady⟩
    . have hcalm : Calm decode (.poll channelFirst) s := by
        cases channelFirst with
        | true =>
          intro hready
          rw [hfirst rfl] at hready
          cases hready
        | false =>
          intro _ taken hread'
          rw [hread] at hread'
          cases hread'
      rw [hpoll]
      exact ⟨iff_of_true hsteady.intact hcalm, fun _ => hsteady⟩

/--
A session runs the commands that the browser sends, however their bytes arrive and whatever events
there are, just when no event is taken while a part of a frame is held.
-/
theorem intact_always_iff (hspeaks : ∀ f ∈ frames, Speaks decode f) (ls : List (Label Event)) :
    Run.Always (step decode) (Intact decode frames) (Session.start (encodeAll frames)) ls ↔
      Run.Along (step decode) (Calm decode) (Session.start (encodeAll frames)) ls := by
  have hstart : Steady decode frames (Session.start (encodeAll frames) : Session Event Request) :=
    steady_start
  rw [Run.always_iff, and_iff_right hstart.intact]
  apply Run.along_iff (A := fun _ _ => True) _ hstart
  . intro l t _ ht
    exact (intact_step_iff hspeaks ht).1
  . intro l t _ ht hcalm
    exact (intact_step_iff hspeaks ht).2 hcalm
  . apply Run.along_of_forall
    intro l _ t
    trivial

theorem Intact.handled {s : Session Event Request} (h : Intact decode frames s)
    (hread : s.taken = [] ∧ s.buffer = [] ∧ s.wire = []) : s.handled = commandsOf decode frames := by
  obtain ⟨_, read, left, hsplit, hhandled, hbytes⟩ := h
  rw [hread.1, hread.2.1, hread.2.2] at hbytes
  cases left with
  | nil => rw [hhandled, hsplit, List.append_nil]
  | cons f fs =>
    have hpos := length_encode_pos f
    have hlength := congrArg List.length hbytes
    have hfirst := congrArg List.length (encodeAll_cons f fs)
    rw [List.length_append] at hfirst
    simp only [List.append_nil, List.length_nil] at hlength
    omega

end Sessions

section Browser

/--
The commands of the page below.
-/
inductive Request where
  | identity
deriving DecidableEq

def subscribeText : Bytes :=
  Codec.utf8 "\x7b\"op\":\"subscribe\",\"topic\":\"news\"\x7d"

def identityText : Bytes :=
  Codec.utf8 "\x7b\"op\":\"identity\"\x7d"

/--
What `serde_json` makes of the messages of the page.
-/
def decodeJson (payload : Bytes) : Option (GatewayCommand Request) :=
  if payload = subscribeText then
    some (.subscribe "news")
  else if payload = identityText then
    some (.request .identity)
  else
    none

def subscribe : ClientFrame where
  opcode := OP_TEXT
  known := by decide
  mask := some [1, 2, 3, 4]
  mask_length := by decide
  payload := subscribeText
  payload_length := by decide

def identity : ClientFrame where
  opcode := OP_TEXT
  known := by decide
  mask := some [5, 6, 7, 8]
  mask_length := by decide
  payload := identityText
  payload_length := by decide

theorem speaks_browser : ∀ f ∈ [subscribe, identity], Speaks decodeJson f := by
  have hsubscribe : (commandOf decodeJson subscribe).isSome = true := by decide
  have hidentity : (commandOf decodeJson identity).isSome = true := by decide
  intro f hf payload hframe
  simp only [List.mem_cons, List.not_mem_nil, or_false] at hf
  rcases hf with rfl | rfl
  . simpa only [commandOf, hframe] using hsubscribe
  . simpa only [commandOf, hframe] using hidentity

/--
An event arrives between the two frames, the second of which arrives in two pieces.
-/
theorem intact_always_iff_between :
    Run.Always (step decodeJson) (Intact decodeJson [subscribe, identity])
        (Session.start (encodeAll [subscribe, identity]) : Session String Request)
        [.arrive 39, .poll false, .push "hello", .poll true, .arrive 9, .poll false, .arrive 100,
          .poll false] ↔
      Run.Along (step decodeJson) (Calm decodeJson)
        (Session.start (encodeAll [subscribe, identity]) : Session String Request)
        [.arrive 39, .poll false, .push "hello", .poll true, .arrive 9, .poll false, .arrive 100,
          .poll false] :=
  intact_always_iff speaks_browser _

/--
An event arrives when three bytes of the second frame have.
-/
def interrupted : List (Label String) :=
  [.arrive 39, .poll false, .arrive 3, .push "hello", .poll false, .arrive 100, .poll false]

/--
The bytes are lost, and what follows them is not a frame.
-/
theorem loses_command :
    let s := Run.run (step decodeJson) (Session.start (encodeAll [subscribe, identity])) interrupted
    s.handled = [.subscribe "news"] ∧ s.replied = ["hello"] ∧ s.ended = some .failed ∧
      commandsOf decodeJson [subscribe, identity] = [.subscribe "news", .request .identity] ∧
      ¬ Run.Always (step decodeJson) (Intact decodeJson [subscribe, identity])
        (Session.start (encodeAll [subscribe, identity])) interrupted := by
  intro s
  have hended : s.ended = some .failed := by decide +kernel
  refine ⟨by decide +kernel, by decide +kernel, hended, by decide +kernel, ?_⟩
  intro h
  have hrunning : s.ended = none := h.last.1
  rw [hended] at hrunning
  cases hrunning

end Browser

end Gateway

end Canopee
