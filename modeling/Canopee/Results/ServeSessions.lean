import Canopee.Lib.Run
import Canopee.Runtime.Serve

/-!
This module contains what is left of a serve session once it has been stopped.
-/

namespace Canopee

namespace ServeState

variable {ι : Type} {s : ServeState ι}

/--
The later one of two events of the log does not belong to a session that was stopped before, nor does
it register one that was deregistered before.
-/
def Proper : ServeEvent ι → ServeEvent ι → Prop
  | .stopped k, .answered j _ _ => j ≠ k
  | .stopped k, .registered j _ _ => j ≠ k
  | .deregistered k _ _, .registered j _ _ => j ≠ k
  | _, _ => True

/--
The handler of the session receives forwarded requests.
-/
def Serving (s : ServeState ι) (k : ι) : Prop :=
  ∃ session, s.sessions k = some session ∧ session.handler.isServing = true

/--
Stopped sessions are silent, deregistered ones are not registered again, and one handler at most
receives forwarded requests.
-/
structure Stops (s : ServeState ι) : Prop where
  proper : s.log.Pairwise Proper
  single : ∀ j k, Serving s j → Serving s k → j = k

def Stopped (s : ServeState ι) (k : ι) : Prop :=
  .stopped k ∈ s.log

def Deregistered (s : ServeState ι) (k : ι) : Prop :=
  ∃ edgePeerId registration, .deregistered k edgePeerId registration ∈ s.log

/--
The heartbeat of the session has looked at `running` and has not sent its registration yet.
-/
def Signed (s : ServeState ι) (k : ι) : Prop :=
  ∃ session registration, s.sessions k = some session ∧ session.heartbeat = .signed registration

section Invariant

/--
The call has started its session and has put it into the slot.
-/
def Launched : ServeCall ι → Prop
  | .returned | .done => True
  | _ => False

structure Sound (s : ServeState ι) : Prop where
  stops : Stops s
  deregistered_of_stopped : ∀ k, Stopped s k → Deregistered s k
  deregistered_of_stopping : ∀ i restart k progress,
    s.calls i = .stopping restart k progress → progress ≠ .taken → Deregistered s k
  launched_of_slot : ∀ k, s.slot = some k → Launched (s.calls k)
  launched_of_stopping : ∀ i restart k progress,
    s.calls i = .stopping restart k progress → Launched (s.calls k)
  launched_of_deregistered : ∀ k, Deregistered s k → Launched (s.calls k)
  not_deregistered_of_signed : ∀ k, Signed s k → ¬ Deregistered s k

variable [DecidableEq ι]

theorem Sound.setCall (h : Sound s) (i : ι) {call : ServeCall ι}
    (hlaunched : Launched (s.calls i) → Launched call)
    (hstopping : ∀ restart k progress, call = .stopping restart k progress →
      Launched (s.calls k) ∧ (progress ≠ .taken → Deregistered s k)) :
    Sound (s.setCall i call) := by
  have hself : (s.setCall i call).calls i = call := by simp [ServeState.setCall]
  have hother {j : ι} (hj : j ≠ i) : (s.setCall i call).calls j = s.calls j := by
    simp [ServeState.setCall, hj]
  have hkept {k : ι} (hk : Launched (s.calls k)) : Launched ((s.setCall i call).calls k) := by
    by_cases hki : k = i
    . rw [hki, hself]
      exact hlaunched (hki ▸ hk)
    . rw [hother hki]
      exact hk
  constructor
  . exact ⟨h.stops.proper, h.stops.single⟩
  . exact h.deregistered_of_stopped
  . intro j restart k progress hj hprogress
    by_cases hji : j = i
    . rw [hji, hself] at hj
      exact (hstopping restart k progress hj).2 hprogress
    . rw [hother hji] at hj
      exact h.deregistered_of_stopping j restart k progress hj hprogress
  . intro k hk
    exact hkept (h.launched_of_slot k hk)
  . intro j restart k progress hj
    by_cases hji : j = i
    . rw [hji, hself] at hj
      exact hkept (hstopping restart k progress hj).1
    . rw [hother hji] at hj
      exact hkept (h.launched_of_stopping j restart k progress hj)
  . intro k hk
    exact hkept (h.launched_of_deregistered k hk)
  . exact h.not_deregistered_of_signed

omit [DecidableEq ι] in
theorem Sound.setSlot (h : Sound s) {slot : Option ι}
    (hslot : ∀ k, slot = some k → Launched (s.calls k)) : Sound { s with slot := slot } where
  stops := ⟨h.stops.proper, h.stops.single⟩
  deregistered_of_stopped := h.deregistered_of_stopped
  deregistered_of_stopping := h.deregistered_of_stopping
  launched_of_slot := hslot
  launched_of_stopping := h.launched_of_stopping
  launched_of_deregistered := h.launched_of_deregistered
  not_deregistered_of_signed := h.not_deregistered_of_signed

omit [DecidableEq ι] in
theorem Sound.record (h : Sound s) {event : ServeEvent ι} (hproper : ∀ e ∈ s.log, Proper e event)
    (hstopped : ∀ k, event = .stopped k → Deregistered s k)
    (hderegistered : ∀ k edgePeerId registration,
      event = .deregistered k edgePeerId registration → Launched (s.calls k) ∧ ¬ Signed s k) :
    Sound (s.record event) := by
  have hmem {e : ServeEvent ι} : e ∈ (s.record event).log ↔ e ∈ s.log ∨ e = event := by
    simp [ServeState.record]
  have hkept {k : ι} (hk : Deregistered s k) : Deregistered (s.record event) k := by
    obtain ⟨edgePeerId, registration, hk⟩ := hk
    exact ⟨edgePeerId, registration, hmem.mpr (.inl hk)⟩
  have hnew {k : ι} (hk : Deregistered (s.record event) k) :
      Deregistered s k ∨ Launched (s.calls k) ∧ ¬ Signed s k := by
    obtain ⟨edgePeerId, registration, hk⟩ := hk
    rcases hmem.mp hk with hk | hk
    . exact .inl ⟨edgePeerId, registration, hk⟩
    . exact .inr (hderegistered k edgePeerId registration hk.symm)
  constructor
  . constructor
    . apply List.pairwise_append.mpr
      refine ⟨h.stops.proper, List.pairwise_singleton _ _, ?_⟩
      intro e he f hf
      rw [List.mem_singleton] at hf
      rw [hf]
      exact hproper e he
    . exact h.stops.single
  . intro k hk
    rcases hmem.mp hk with hk | hk
    . exact hkept (h.deregistered_of_stopped k hk)
    . exact hkept (hstopped k hk.symm)
  . intro i restart k progress hi hprogress
    exact hkept (h.deregistered_of_stopping i restart k progress hi hprogress)
  . exact h.launched_of_slot
  . exact h.launched_of_stopping
  . intro k hk
    rcases hnew hk with hk | hk
    . exact h.launched_of_deregistered k hk
    . exact hk.1
  . intro k hsigned hk
    rcases hnew hk with hk | hk
    . exact h.not_deregistered_of_signed k hsigned hk
    . exact hk.2 hsigned

omit [DecidableEq ι] in
theorem Sound.sessions (h : Sound s) {sessions : ι → Option ServeSession}
    (hsingle : ∀ j k, Serving { s with sessions := sessions } j →
      Serving { s with sessions := sessions } k → j = k)
    (hsigned : ∀ k, Signed { s with sessions := sessions } k → ¬ Deregistered s k) :
    Sound { s with sessions := sessions } where
  stops := ⟨h.stops.proper, hsingle⟩
  deregistered_of_stopped := h.deregistered_of_stopped
  deregistered_of_stopping := h.deregistered_of_stopping
  launched_of_slot := h.launched_of_slot
  launched_of_stopping := h.launched_of_stopping
  launched_of_deregistered := h.launched_of_deregistered
  not_deregistered_of_signed := hsigned

theorem Sound.setSession (h : Sound s) (k : ι) {session : ServeSession}
    (hserving : session.handler.isServing = true → ∀ j, Serving s j → j = k)
    (hsigned : ∀ registration, session.heartbeat = .signed registration → ¬ Deregistered s k) :
    Sound (s.setSession k session) := by
  have hself : (s.setSession k session).sessions k = some session := by
    simp [ServeState.setSession]
  have hother {j : ι} (hj : j ≠ k) : (s.setSession k session).sessions j = s.sessions j := by
    simp [ServeState.setSession, hj]
  apply h.sessions
  . have hcases {j : ι} (hj : Serving (s.setSession k session) j) :
        j = k ∧ session.handler.isServing = true ∨ j ≠ k ∧ Serving s j := by
      obtain ⟨a, ha, hserves⟩ := hj
      by_cases hjk : j = k
      . rw [hjk, hself, Option.some.injEq] at ha
        exact .inl ⟨hjk, ha ▸ hserves⟩
      . rw [hother hjk] at ha
        exact .inr ⟨hjk, a, ha, hserves⟩
    intro i j hi hj
    rcases hcases hi with ⟨hik, hserves⟩ | ⟨hik, hi⟩
    . rcases hcases hj with ⟨hjk, _⟩ | ⟨hjk, hj⟩
      . rw [hik, hjk]
      . exact absurd (hserving hserves j hj) hjk
    . rcases hcases hj with ⟨hjk, hserves⟩ | ⟨hjk, hj⟩
      . exact absurd (hserving hserves i hi) hik
      . exact h.stops.single i j hi hj
  . intro j ⟨a, registration, ha, hsign⟩
    by_cases hjk : j = k
    . have ha : (s.setSession k session).sessions j = some a := ha
      rw [hjk, hself, Option.some.injEq] at ha
      rw [hjk]
      exact hsigned registration (ha ▸ hsign)
    . have ha : (s.setSession k session).sessions j = some a := ha
      rw [hother hjk] at ha
      exact h.not_deregistered_of_signed j ⟨a, registration, ha, hsign⟩

theorem Sound.setHandler (h : Sound s) {k : ι} {session : ServeSession}
    (hsession : s.sessions k = some session) {handler : ServeHandler} (running : Bool)
    (hserving : handler.isServing = true → ∀ j, Serving s j → j = k) :
    Sound (s.setSession k { session with handler := handler, running := running }) := by
  apply h.setSession k hserving
  intro registration hsigned
  exact h.not_deregistered_of_signed k ⟨session, registration, hsession, hsigned⟩

theorem Sound.setHeartbeat (h : Sound s) {k : ι} {session : ServeSession}
    (hsession : s.sessions k = some session) {heartbeat : Heartbeat}
    (hsigned : ∀ registration, heartbeat = .signed registration → ¬ Deregistered s k) :
    Sound (s.setSession k { session with heartbeat := heartbeat }) := by
  refine h.setSession k ?_ hsigned
  intro hserving j hj
  exact h.stops.single j k hj ⟨session, hsession, hserving⟩

theorem Sound.update (h : Sound s) (k : ι) {f : ServeSession → ServeSession}
    (hhandler : ∀ a, (f a).handler = a.handler) (hheartbeat : ∀ a, (f a).heartbeat = a.heartbeat) :
    Sound (s.update k f) := by
  unfold ServeState.update
  split
  . next session hsession =>
    apply h.setSession
    . intro hserving j hj
      rw [hhandler] at hserving
      exact h.stops.single j k hj ⟨session, hsession, hserving⟩
    . intro registration hsigned
      rw [hheartbeat] at hsigned
      exact h.not_deregistered_of_signed k ⟨session, registration, hsession, hsigned⟩
  . exact h

theorem Sound.clone (h : Sound s) (k : ι) : Sound (s.clone k) :=
  h.update k (fun _ => rfl) (fun _ => rfl)

theorem Sound.release (h : Sound s) (k : ι) : Sound (s.release k) :=
  h.update k (fun _ => rfl) (fun _ => rfl)

theorem Sound.releaseSlot (h : Sound s) : Sound s.releaseSlot := by
  unfold ServeState.releaseSlot
  split
  . exact h.release _
  . exact h

end Invariant

section Runs

variable [Primitives] [DecidableEq ι] {p : ServingNode ι}

/--
A request is there for the handler of the session, and the app can answer it.
-/
def AtHand (p : ServingNode ι) (s : ServeState ι) (k : ι) : Prop :=
  ∃ session events incoming rest response, s.sessions k = some session ∧
    session.handler = .serving events ∧ events.missed = 0 ∧ events.unread = incoming :: rest ∧
    Runtime.serveRequest p.gzip (p.apps k).files incoming.request = .ok response

/--
No heartbeat stands between its look at `running` and its sending when the deregistration of its
session is sent, and afterwards none comes to look at `running` before it is cleared. No request is
there for the handler of a session whose stop has returned. A handler starts to receive requests only
when there is no other that does.
-/
def Timely (p : ServingNode ι) : ServeLabel ι → ServeState ι → Prop
  | .call i _ _, s => ∀ restart k, s.calls i = .stopping restart k .taken → ¬ Signed s k
  | .inbound _, _ => True
  | .handler k shutdown, s =>
    (∀ session, s.sessions k = some session → session.handler = .spawned → ∀ j, ¬ Serving s j) ∧
      (shutdown = false → AtHand p s k → ¬ Stopped s k)
  | .heartbeat k shutdown _, s => shutdown = false → ∀ session, s.sessions k = some session →
    session.heartbeat = .sleeping → session.running = true → ¬ Deregistered s k

omit [Primitives] [DecidableEq ι] in
theorem Sound.recordRegistered (h : Sound s) {k : ι} (hfresh : ¬ Deregistered s k)
    (edgePeerId : PeerId) (registration : ServeRegistration) :
    Sound (s.record (.registered k edgePeerId registration)) := by
  apply h.record
  . intro e he
    cases e with
    | stopped j =>
      intro hkj
      exact hfresh (h.deregistered_of_stopped k (hkj ▸ he))
    | deregistered j edgePeerId registration =>
      intro hkj
      exact hfresh ⟨edgePeerId, registration, hkj ▸ he⟩
    | registered j edgePeerId registration => trivial
    | answered j reply response => trivial
  . intro j heq
    cases heq
  . intro j edgePeerId registration heq
    cases heq

omit [Primitives] [DecidableEq ι] in
theorem Sound.recordAnswered (h : Sound s) {k : ι} (hsilent : ¬ Stopped s k) (reply : Nat)
    (response : ServeResponse) : Sound (s.record (.answered k reply response)) := by
  apply h.record
  . intro e he
    cases e with
    | stopped j =>
      intro hkj
      exact hsilent (hkj ▸ he)
    | deregistered j edgePeerId registration => trivial
    | registered j edgePeerId registration => trivial
    | answered j reply response => trivial
  . intro j heq
    cases heq
  . intro j edgePeerId registration heq
    cases heq

omit [Primitives] [DecidableEq ι] in
theorem not_stopping_afterStop {P : Prop} {restart restart' : Bool} {k : ι} {progress : Stopping}
    (h : (.afterStop restart : ServeCall ι) = .stopping restart' k progress) : P := by
  cases restart with
  | false => cases h
  | true => cases h

omit [DecidableEq ι] in
theorem timely_of_not_stopping {p : ServingNode ι} {i : ι} {good : Bool} {now : UInt64}
    (h : ∀ restart k, s.calls i ≠ .stopping restart k .taken) : Timely p (.call i good now) s := by
  intro restart k hcall
  exact absurd hcall (h restart k)

theorem Sound.stopSession (h : Sound s) {i k : ι} {restart : Bool} {progress : Stopping}
    (good : Bool) (hcall : s.calls i = .stopping restart k progress)
    (htimely : progress = .taken → ¬ Signed s k) :
    Sound (s.stopSession p i restart k good progress) := by
  have hlaunched := h.launched_of_stopping i restart k progress hcall
  have hidle : ¬ Launched (s.calls i) := by
    rw [hcall]
    exact id
  have hgoes {t : ServeState ι} (ht : Sound t) (hcalls : t.calls = s.calls)
      (hderegistered : Deregistered t k) (next : Stopping) :
      Sound (t.setCall i (.stopping restart k next)) := by
    apply ht.setCall
    . rw [hcalls]
      intro hi
      exact absurd hi hidle
    . intro restart' k' progress' heq
      cases heq
      rw [hcalls]
      exact ⟨hlaunched, fun _ => hderegistered⟩
  cases progress with
  | taken =>
    -- from here on the session may not be registered again, so no heartbeat may hold a registration
    unfold ServeState.stopSession
    dsimp only
    apply hgoes
    . apply h.record
      . intro e _
        cases e with
        | _ => trivial
      . intro j heq
        cases heq
      . intro j edgePeerId registration heq
        cases heq
        exact ⟨hlaunched, htimely rfl⟩
    . rfl
    . exact ⟨_, _, List.mem_append_right _ (List.mem_singleton_self _)⟩
  | deregistering =>
    exact hgoes h rfl (h.deregistered_of_stopping i restart k _ hcall nofun) _
  | awaitingHandler =>
    unfold ServeState.stopSession
    dsimp only
    split
    . exact hgoes h rfl (h.deregistered_of_stopping i restart k _ hcall nofun) _
    . exact h
  | awaitingHeartbeat =>
    have hderegistered := h.deregistered_of_stopping i restart k _ hcall nofun
    unfold ServeState.stopSession
    dsimp only
    split
    . apply hgoes
      . exact h.update k (fun _ => rfl) (fun _ => rfl)
      . exact calls_update s k _
      . unfold Deregistered
        rw [log_update]
        exact hderegistered
    . exact h
  | terminated =>
    have hderegistered := h.deregistered_of_stopping i restart k _ hcall nofun
    apply Sound.setCall
    . apply Sound.release
      apply h.record
      . intro e _
        cases e with
        | _ => trivial
      . intro j heq
        cases heq
        exact hderegistered
      . intro j edgePeerId registration heq
        cases heq
    . intro hi
      have hi : Launched (s.calls i) := by simpa [ServeState.release, ServeState.record] using hi
      exact absurd hi hidle
    . intro restart' k' progress' heq
      exact not_stopping_afterStop heq

theorem Sound.callStep (h : Sound s) {i : ι} (good : Bool) (now : UInt64)
    (htimely : Timely p (.call i good now) s) : Sound (s.callStep p i good now) := by
  unfold ServeState.callStep
  cases hcall : s.calls i with
  | start =>
    apply h.setCall
    . rw [hcall]
      exact False.elim
    . intro restart k progress heq
      split at heq
      . cases heq
      . cases heq
  | stop restart =>
    dsimp only
    split
    . apply h.setCall
      . rw [hcall]
        exact False.elim
      . intro restart' k progress heq
        exact not_stopping_afterStop heq
    . next k hslot =>
      have hcleared : Sound { s with slot := none } := h.setSlot nofun
      apply hcleared.setCall
      . dsimp only
        rw [hcall]
        exact False.elim
      . intro restart' k' progress heq
        cases heq
        exact ⟨h.launched_of_slot k hslot, fun hne => absurd rfl hne⟩
  | stopping restart k progress =>
    apply h.stopSession good hcall
    intro hprogress
    exact htimely restart k (hprogress ▸ hcall)
  | connecting =>
    -- only what is in the slot is deregistered, and this session has not got there yet
    have hfresh : ¬ Deregistered s i := by
      intro hderegistered
      have hlaunched := h.launched_of_deregistered i hderegistered
      rw [hcall] at hlaunched
      exact hlaunched
    dsimp only
    split
    . apply Sound.setCall
      . exact h.recordRegistered hfresh _ _
      . intro hlaunched
        have hlaunched : Launched (s.calls i) := hlaunched
        rw [hcall] at hlaunched
        exact hlaunched.elim
      . intro restart k progress heq
        cases heq
    . exact h.setCall i (fun _ => trivial) nofun
  | registering =>
    dsimp only
    split
    . apply Sound.setCall
      . exact h.setSession i nofun nofun
      . intro hlaunched
        have hlaunched : Launched (s.calls i) := hlaunched
        rw [hcall] at hlaunched
        exact hlaunched.elim
      . intro restart k progress heq
        cases heq
    . exact h.setCall i (fun _ => trivial) nofun
  | spawned =>
    have hreturned : Sound ((s.clone i).releaseSlot.setCall i .returned) :=
      (h.clone i).releaseSlot.setCall i (fun _ => trivial) nofun
    apply hreturned.setSlot
    intro k hk
    rw [Option.some.injEq] at hk
    rw [← hk]
    simp [ServeState.setCall, Launched]
  | returned => exact (h.release i).setCall i (fun _ => trivial) nofun
  | done => exact h

omit [DecidableEq ι] [Primitives] in
theorem serving_inboundStep {incoming : InboundServe} {k : ι}
    (h : Serving (s.inboundStep incoming) k) : Serving s k := by
  obtain ⟨session, hsession, hserving⟩ := h
  obtain ⟨a, ha, rfl⟩ := Option.map_eq_some_iff.mp hsession
  refine ⟨a, ha, ?_⟩
  cases hhandler : a.handler with
  | serving events => rfl
  | spawned =>
    dsimp only at hserving
    rw [hhandler] at hserving
    exact hserving
  | ended =>
    dsimp only at hserving
    rw [hhandler] at hserving
    exact hserving

omit [DecidableEq ι] [Primitives] in
theorem Sound.inboundStep (h : Sound s) (incoming : InboundServe) :
    Sound (s.inboundStep incoming) := by
  apply h.sessions
  . intro j k hj hk
    exact h.stops.single j k (serving_inboundStep hj) (serving_inboundStep hk)
  . intro k ⟨session, registration, hsession, hsigned⟩
    obtain ⟨a, ha, rfl⟩ := Option.map_eq_some_iff.mp hsession
    exact h.not_deregistered_of_signed k ⟨a, registration, ha, hsigned⟩

theorem Sound.handlerStep (h : Sound s) {k : ι} {shutdown : Bool}
    (htimely : Timely p (.handler k shutdown) s) : Sound (s.handlerStep p k shutdown) := by
  obtain ⟨hsubscribes, hanswers⟩ := htimely
  unfold ServeState.handlerStep
  split
  . exact h
  . next session hsession =>
    cases hhandler : session.handler with
    | spawned =>
      -- the step by which one more handler begins to listen
      apply h.setHandler hsession
      intro _ j hj
      exact absurd hj (hsubscribes session hsession hhandler j)
    | serving events =>
      have hsingle (j : ι) (hj : Serving s j) : j = k := by
        apply h.stops.single j k hj
        exact ⟨session, hsession, by rw [hhandler]; rfl⟩
      dsimp only
      split
      . split
        . exact h.setHandler hsession _ nofun
        . exact h
      . next hshutdown =>
        split
        . exact h
        . exact h.setHandler hsession _ fun _ => hsingle
        . next incoming events' hrecv =>
          split
          . next response hresponse =>
            have hset : Sound (s.setSession k { session with handler := .serving events' }) :=
              h.setHandler hsession _ fun _ => hsingle
            have hsilent : ¬ Stopped s k := by
              apply hanswers (Bool.eq_false_iff.mpr hshutdown)
              obtain ⟨hmissed, rest, hunread⟩ := Broadcast.recv_eq_value hrecv
              exact ⟨session, events, incoming, rest, response, hsession, hhandler, hmissed, hunread,
                hresponse⟩
            exact hset.recordAnswered hsilent _ _
          . exact h.setHandler hsession _ nofun
    | ended => exact h

theorem Sound.heartbeatStep (h : Sound s) {k : ι} {shutdown : Bool} {now : UInt64}
    (htimely : Timely p (.heartbeat k shutdown now) s) :
    Sound (s.heartbeatStep p k shutdown now) := by
  unfold ServeState.heartbeatStep
  split
  . exact h
  . next session hsession =>
    cases hheartbeat : session.heartbeat with
    | sleeping =>
      -- `running` is read here, and the registration is sent by a later step
      dsimp only
      split
      . split
        . exact h.setHeartbeat hsession nofun
        . exact h
      . next hshutdown =>
        split
        . next hrunning =>
          apply h.setHeartbeat hsession
          intro _ _
          exact htimely (Bool.eq_false_iff.mpr hshutdown) session hsession hheartbeat hrunning
        . exact h.setHeartbeat hsession nofun
    | signed registration =>
      have hfresh := h.not_deregistered_of_signed k ⟨session, registration, hsession, hheartbeat⟩
      have hset : Sound (s.setSession k { session with heartbeat := .sent }) :=
        h.setHeartbeat hsession nofun
      exact hset.recordRegistered hfresh _ _
    | sent => exact h.setHeartbeat hsession nofun
    | ended => exact h

theorem Sound.step (h : Sound s) {l : ServeLabel ι} (htimely : Timely p l s) :
    Sound (step p l s) := by
  cases l with
  | call i good now => exact h.callStep good now htimely
  | inbound incoming => exact h.inboundStep incoming
  | handler k shutdown => exact h.handlerStep htimely
  | heartbeat k shutdown now => exact h.heartbeatStep htimely

omit [Primitives] [DecidableEq ι] in
theorem Sound.begin {starts : ι → Bool} : Sound (begin starts) := by
  have hstopping {i : ι} {restart : Bool} {k : ι} {progress : Stopping}
      (hcall : (ServeState.begin starts).calls i = .stopping restart k progress) : False := by
    unfold ServeState.begin at hcall
    dsimp only at hcall
    split at hcall
    . cases hcall
    . cases hcall
  constructor
  . exact ⟨.nil, fun j k ⟨_, hj, _⟩ => by cases hj⟩
  . intro k hk
    cases hk
  . intro i restart k progress hcall
    exact (hstopping hcall).elim
  . intro k hk
    cases hk
  . intro i restart k progress hcall
    exact (hstopping hcall).elim
  . intro k ⟨_, _, hk⟩
    cases hk
  . intro k ⟨_, _, hk, _⟩
    cases hk

theorem run_stops (p : ServingNode ι) {starts : ι → Bool} {ls : List (ServeLabel ι)}
    (htimely : Run.Along (step p) (Timely p) (begin starts) ls) :
    Run.Always (step p) Stops (begin starts) ls := by
  apply (htimely.always Sound.begin ?_).mono
  . intro s h
    exact h.stops
  . intro l s htimely h
    exact h.step htimely

end Runs

end ServeState

end Canopee

namespace Canopee.ServeState

open Canopee.Compact

/--
Alice's node, with an app of one page.
-/
def aliceServing : ServingNode Bool where
  identity := alice
  gzip _ := none
  apps _ := {
    appId := "00"
    files := (∅ : Files).insert "/" [7]
    edgePeerId := ⟨"ee"⟩ }

def getPage : InboundServe where
  request := { method := "GET", path := "/", headers := [] }
  reply := 0

/--
The session is started, and its handler listens.
-/
def started : List (ServeLabel Bool) :=
  [.call true true 100, .call true true 100, .call true true 100, .call true true 100,
    .handler true false]

/--
The caller drops its session, a request is answered, and the heartbeat has registered the session
once more when it is stopped.
-/
def stoppedBetween : List (ServeLabel Bool) :=
  started ++ [.call true true 100, .inbound getPage, .handler true false, .heartbeat true false 130,
    .heartbeat true false 130, .call false true 140, .call false true 140, .call false true 140,
    .call false false 145, .call false false 150, .call false true 150, .handler true true]

theorem run_stops_stoppedBetween :
    Run.Always (step aliceServing) Stops (begin id) stoppedBetween := by
  apply run_stops
  refine ⟨?_, ?_, ?_, ?_, ?_, ?_, ?_, ?_, ?_, ?_, ?_, ?_, ?_, ?_, ?_, ?_, ?_, trivial⟩
  . exact timely_of_not_stopping nofun
  . exact timely_of_not_stopping nofun
  . exact timely_of_not_stopping nofun
  . exact timely_of_not_stopping nofun
  . refine ⟨?_, ?_⟩
    . intro _ _ _ j ⟨session, hsession, hserving⟩
      cases j with
      | true =>
        cases hsession
        cases hserving
      | false => cases hsession
    . intro _ ⟨session, events, _, _, _, hsession, hevents, _⟩
      cases hsession
      cases hevents
  . exact timely_of_not_stopping nofun
  . trivial
  . refine ⟨?_, ?_⟩
    . intro session hsession hspawned
      cases hsession
      cases hspawned
    . intro _ _ hstopped
      rcases hstopped with _ | ⟨_, hstopped⟩
      cases hstopped
  . intro _ session hsession _ _ ⟨_, _, hmem⟩
    rcases hmem with _ | ⟨_, hmem⟩
    rcases hmem with _ | ⟨_, hmem⟩
    cases hmem
  . intro _ session hsession hsleeping
    cases hsession
    cases hsleeping
  . exact timely_of_not_stopping nofun
  . intro restart k hcall
    cases hcall
    intro ⟨session, _, hsession, hsigned⟩
    cases hsession
    cases hsigned
  . exact timely_of_not_stopping nofun
  . exact timely_of_not_stopping nofun
  . exact timely_of_not_stopping nofun
  . exact timely_of_not_stopping nofun
  . refine ⟨?_, ?_⟩
    . intro session hsession hspawned
      cases hsession
      cases hspawned
    . intro hshutdown
      cases hshutdown

/--
The heartbeat is due while the stop waits for the handler, and a request comes in after it has
returned.
-/
def stoppedMeanwhile : List (ServeLabel Bool) :=
  started ++ [.call false true 120, .call false true 120, .call false true 120,
    .heartbeat true false 130, .heartbeat true false 130, .call false false 125,
    .call false false 130, .call false true 130, .inbound getPage, .handler true false]

theorem not_stops_stoppedMeanwhile :
    ¬ Run.Always (step aliceServing) Stops (begin id) stoppedMeanwhile := by
  intro halways
  have hproper := halways.last.proper
  rcases hproper with _ | ⟨_, hproper⟩
  rcases hproper with _ | ⟨hderegistered, _⟩
  exact hderegistered _ List.mem_cons_self rfl

end Canopee.ServeState
