import OpenMso.Cpp.Plugins.CaptureClient

/-! # What a call does to the plugin -/

namespace OpenMso.Cpp.Plugins

open Foundation OpenMso.Transport
open Foundation.Program
open OpenMso.Client (Call Calling perform)
open Cpp.Client (Runtime)

set_option autoImplicit false

/-! ## Requests -/

/-- A request leaves the plugin where it is. -/
def Requests : OpenMso.Client.Op → Prop
  | .send _ | .recv => True
  | _ => False

def SamePlugin (session session' : Client.CaptureClient) : Prop :=
  session'.pid = session.pid ∧ session'.stdinFd = session.stdinFd

section
variable {Config Description : Type} (runtime : Runtime Config Description)
  (session : Client.CaptureClient)

theorem samePlugin_check {α : Type} (context : String) (answer : Except NngError α)
    (s : Client.CaptureClient) (h : SamePlugin session s) :
    Finishes Requests (fun outcome => SamePlugin session outcome.2)
      ((Client.CaptureClient.check runtime context answer).run.run s) := by
  cases answer <;> exact .done _ h

theorem samePlugin_send (message : Proto.Request Config) (s : Client.CaptureClient)
    (h : SamePlugin session s) :
    Finishes Requests (fun outcome => SamePlugin session outcome.2)
      ((Client.CaptureClient.send runtime message).run.run s) := by
  unfold Client.CaptureClient.send
  split
  · exact .done _ h
  · exact .ask _ _ trivial fun sent => samePlugin_check runtime session "send" sent s h

theorem samePlugin_recv (s : Client.CaptureClient) (h : SamePlugin session s) :
    Finishes Requests (fun outcome => SamePlugin session outcome.2)
      ((Client.CaptureClient.recv runtime).run.run s) := by
  refine .ask _ _ trivial fun received => ?_
  refine (samePlugin_check runtime session "recv" received s h).bindState fun data s' h' => ?_
  split <;> exact .done _ h'

theorem samePlugin_request (arm : Proto.Request.Arm Config) :
    Finishes Requests (fun outcome => SamePlugin session outcome.2)
      ((Client.CaptureClient.request runtime arm).run.run session) := by
  refine (samePlugin_send runtime session _ { session with seq := session.seq + 1 }
    ⟨rfl, rfl⟩).bindState fun _ s h => ?_
  refine (samePlugin_recv runtime session s h).bindState fun response s' h' => ?_
  split
  · exact .done _ h'
  · split <;> exact .done _ h'

theorem samePlugin_expect {α : Type} (name : String) (arm : Proto.Request.Arm Config)
    (pick : Proto.Response.Arm Config Description → Option α) :
    Finishes Requests (fun outcome => SamePlugin session outcome.2)
      ((Client.CaptureClient.expect runtime name arm pick).run.run session) := by
  refine (samePlugin_request runtime session arm).bindState fun r s h => ?_
  cases r.response.bind pick <;> exact .done _ h

end

/-! ## What is given up -/

/-- The plugin that a client has, and its stdin. -/
def ownPlugin (session : Client.CaptureClient) : Finset Resource :=
  (if 0 ≤ session.stdinFd then {.fd session.stdinFd.toNat} else ∅) ∪
    if 0 < session.pid then {.pid session.pid.toNat} else ∅

/-- Of what something owned in a state, this is what it still owns in a later one; the frontend
gave up the rest, and nothing else. -/
structure Yields (k : Kernel) (held own : Finset Resource) (k' : Kernel) (own₁ : Finset Resource) :
    Prop where
  sub : own₁ ⊆ own
  calm : Calm k held k' (held \ (own \ own₁))

namespace Yields

variable {k k' k₂ : Kernel} {held own own₁ own₂ : Finset Resource}

theorem of_calm (h : Calm k held k' held) : Yields k held own k' own := by
  refine ⟨Finset.Subset.refl own, ?_⟩
  rw [Finset.sdiff_self, Finset.sdiff_empty]
  exact h

theorem all (h : Calm k held k' (held \ own)) : Yields k held own k' ∅ := by
  refine ⟨Finset.empty_subset own, ?_⟩
  rw [Finset.sdiff_empty]
  exact h

theorem calm_all (h : Yields k held own k' ∅) : Calm k held k' (held \ own) := by
  have hCalm := h.calm
  rw [Finset.sdiff_empty] at hCalm
  exact hCalm

theorem own_subset (h : Yields k held own k' own₁) (hOwn : own ⊆ held) :
    own₁ ⊆ held \ (own \ own₁) := by
  intro r hr
  have hThere := hOwn (h.sub hr)
  grind

theorem trans (h : Yields k held own k' own₁)
    (h' : Yields k' (held \ (own \ own₁)) own₁ k₂ own₂) : Yields k held own k₂ own₂ := by
  refine ⟨h'.sub.trans h.sub, ?_⟩
  have hHeld : (held \ (own \ own₁)) \ (own₁ \ own₂) = held \ (own \ own₂) := by
    have hSub := h.sub
    have hSub' := h'.sub
    grind
  rw [← hHeld]
  exact h.calm.trans h'.calm

end Yields

/-! ## The handles -/

namespace Handles

/-- As long as the plugin is there these are its handles. -/
def Points (handles : Handles) (session : Client.CaptureClient) : Prop :=
  (0 ≤ session.stdinFd → session.stdinFd.toNat = handles.stdinFd) ∧
    (0 < session.pid → session.pid.toNat = handles.pid)

variable {α β : Type} (handles : Handles) {session : Client.CaptureClient} {k : Kernel}

theorem ensures_serve_bind {code : Calling Client.CaptureClient Error α}
    {next : α → Calling Client.CaptureClient Error β}
    {Q : Except Error α × Client.CaptureClient → Kernel → Prop}
    {R : Except Error β × Client.CaptureClient → Kernel → Prop}
    (h : host.Ensures (handles.serve code session) Q k)
    (hError : ∀ e s k', Q (.error e, s) k' → R (.error e, s) k')
    (hOk : ∀ a s k', Q (.ok a, s) k' → host.Ensures (handles.serve (next a) s) R k') :
    host.Ensures (handles.serve (code >>= next) session) R k := by
  change host.Ensures ((Program.bind (code.run.run session) _).relabel _ _) R k
  rw [relabel_bind]
  refine Host.Ensures.bind h fun outcome k' hOutcome => ?_
  obtain ⟨result, s⟩ := outcome
  cases result with
  | error e => exact hError e s k' hOutcome
  | ok a => exact hOk a s k' hOutcome

theorem ensures_serve_tryCatch {code : Calling Client.CaptureClient Error α}
    {handler : Error → Calling Client.CaptureClient Error α}
    {Q R : Except Error α × Client.CaptureClient → Kernel → Prop}
    (h : host.Ensures (handles.serve code session) Q k)
    (hError : ∀ e s k', Q (.error e, s) k' → host.Ensures (handles.serve (handler e) s) R k')
    (hOk : ∀ a s k', Q (.ok a, s) k' → R (.ok a, s) k') :
    host.Ensures (handles.serve (tryCatch code handler) session) R k := by
  change host.Ensures ((Program.bind (code.run.run session) _).relabel _ _) R k
  rw [relabel_bind]
  refine Host.Ensures.bind h fun outcome k' hOutcome => ?_
  obtain ⟨result, s⟩ := outcome
  cases result with
  | error e => exact hError e s k' hOutcome
  | ok a => exact hOk a s k' hOutcome

end Handles

/-! ## The calls -/

theorem ownPlugin_of_closed {session : Client.CaptureClient} (h : session.stdinFd < 0) :
    ownPlugin session = if 0 < session.pid then {.pid session.pid.toNat} else ∅ := by
  rw [ownPlugin, if_neg (Int.not_le.mpr h), Finset.empty_union]

theorem SamePlugin.ownPlugin_eq {session session' : Client.CaptureClient}
    (h : SamePlugin session session') : ownPlugin session' = ownPlugin session := by
  rw [ownPlugin, ownPlugin, h.1, h.2]

/-- Nothing is left of the plugin. -/
structure Gone (k : Kernel) (held : Finset Resource) (session : Client.CaptureClient)
    (session' : Client.CaptureClient) (k' : Kernel) : Prop where
  stdinFd : session'.stdinFd < 0
  pid : session'.pid ≤ 0
  calm : Calm k held k' (held \ ownPlugin session)

theorem Gone.ownPlugin_eq {k k' : Kernel} {held : Finset Resource}
    {session session' : Client.CaptureClient} (h : Gone k held session session' k') :
    ownPlugin session' = ∅ := by
  rw [ownPlugin_of_closed h.stdinFd, if_neg (Int.not_lt.mpr h.pid)]

theorem Gone.of_yields {k k' k₂ : Kernel} {held : Finset Resource}
    {session s s' : Client.CaptureClient}
    (h : Yields k held (ownPlugin session) k' (ownPlugin s))
    (hGone : Gone k' (held \ (ownPlugin session \ ownPlugin s)) s s' k₂) :
    Gone k held session s' k₂ :=
  ⟨hGone.stdinFd, hGone.pid, (h.trans (.all hGone.calm)).calm_all⟩

theorem Gone.of_calm {k k' k₂ : Kernel} {held : Finset Resource}
    {session s s' : Client.CaptureClient} (h : Calm k held k' held) (hSame : SamePlugin session s)
    (hGone : Gone k' held s s' k₂) : Gone k held session s' k₂ :=
  ⟨hGone.stdinFd, hGone.pid, hSame.ownPlugin_eq ▸ h.trans hGone.calm⟩

/-- With its stdin closed a plugin has the handles that it had. -/
theorem Handles.Points.of_closed {handles : Handles} {session s : Client.CaptureClient}
    (h : handles.Points session) (hClosed : s.stdinFd < 0) (hSame : s.pid = session.pid) :
    handles.Points s := by
  refine ⟨fun hOpen => absurd hOpen (Int.not_le.mpr hClosed), ?_⟩
  rw [hSame]
  exact h.2

section
variable {handles : Handles} {session : Client.CaptureClient} {k : Kernel} {held : Finset Resource}
  (hPoints : handles.Points session) (h : Owns k held) (hOwn : ownPlugin session ⊆ held)
include hPoints h hOwn

theorem ensures_closeStdin :
    host.Ensures (handles.serve Client.CaptureClient.closeStdin session) (fun outcome k' =>
      outcome.1 = .ok () ∧ outcome.2.stdinFd < 0 ∧ outcome.2.pid = session.pid ∧
        Yields k held (ownPlugin session) k' (ownPlugin outcome.2)) k := by
  change host.Ensures (((if 0 ≤ session.stdinFd then _ else _ :
    Calling Client.CaptureClient Error Unit).run.run session).relabel _ _) _ k
  by_cases hOpen : 0 ≤ session.stdinFd
  · rw [if_pos hOpen]
    intro _ _
    have hFd : session.stdinFd.toNat = handles.stdinFd := hPoints.1 hOpen
    let closed : Client.CaptureClient := { session with stdinFd := -1 }
    have hMinus : closed.stdinFd < 0 := Int.negSucc_lt_zero 0
    have hOwned : ownPlugin session = {.fd handles.stdinFd} ∪ ownPlugin closed := by
      rw [ownPlugin_of_closed hMinus, ownPlugin, if_pos hOpen, hFd]
    have hNotMem : .fd handles.stdinFd ∉ ownPlugin closed := by
      rw [ownPlugin_of_closed hMinus]
      split <;> simp
    have hCalm := Calm.close h handles.stdinFd (hOwn (hOwned ▸ by simp))
    refine ⟨rfl, hMinus, rfl, hOwned ▸ Finset.subset_union_right, ?_⟩
    rw [hOwned, Finset.union_sdiff_cancel_right (Finset.disjoint_singleton_left.mpr hNotMem)]
    exact hCalm
  · rw [if_neg hOpen]
    exact ⟨rfl, Int.not_le.mp hOpen, rfl, .of_calm (.of_owns h)⟩

theorem ensures_reap (hClosed : session.stdinFd < 0) (hPid : 0 < session.pid) :
    host.Ensures (handles.serve Client.CaptureClient.reap session) (fun outcome k' =>
      outcome.1 = .ok () ∧ Gone k held session outcome.2 k') k := by
  intro _ _
  have hOwned : ownPlugin session = {.pid handles.pid} := by
    rw [ownPlugin_of_closed hClosed, if_pos hPid, hPoints.2 hPid]
  refine ⟨rfl, hClosed, (Int.negSucc_lt_zero 0).le, ?_⟩
  rw [hOwned] at hOwn ⊢
  exact Calm.waitpid h handles.pid (Finset.singleton_subset_iff.mp hOwn)

theorem ensures_terminate :
    host.Ensures (handles.serve Client.CaptureClient.terminate session) (fun outcome k' =>
      outcome.1 = .ok () ∧ Gone k held session outcome.2 k') k := by
  refine handles.ensures_serve_bind (ensures_closeStdin hPoints h hOwn) ?_ ?_
  · rintro e s k' ⟨⟨⟩, -⟩
  · rintro ⟨⟩ s k' ⟨-, hClosed, hSame, hYields⟩
    change host.Ensures (((if 0 < s.pid then _ else _ :
      Calling Client.CaptureClient Error Unit).run.run s).relabel _ _) _ k'
    by_cases hPid : 0 < s.pid
    · rw [if_pos hPid]
      intro _ _
      have hPoints' := hPoints.of_closed hClosed hSame
      have hOwned := hYields.own_subset hOwn
      have hMem : .pid handles.pid ∈ ownPlugin s := by
        rw [ownPlugin_of_closed hClosed, if_pos hPid, hPoints'.2 hPid]
        exact Finset.mem_singleton_self _
      have hKill := Calm.kill hYields.calm.owns handles.pid (hOwned hMem)
      refine (ensures_reap hPoints' hKill.owns hOwned hClosed hPid).mono ?_
      rintro outcome k₂ ⟨hOk, hGone⟩
      refine ⟨hOk, Gone.of_yields hYields ?_⟩
      exact ⟨hGone.stdinFd, hGone.pid, hKill.trans hGone.calm⟩
    · rw [if_neg hPid]
      refine ⟨rfl, hClosed, Int.not_lt.mp hPid, ?_⟩
      have hNone : ownPlugin s = ∅ := by
        rw [ownPlugin_of_closed hClosed, if_neg hPid]
      rw [hNone] at hYields
      exact hYields.calm_all

end

section
variable {Config Description : Type} (runtime : Runtime Config Description) {handles : Handles}
  {session : Client.CaptureClient} {k : Kernel} {held : Finset Resource}

theorem ensures_expect (h : Owns k held) {α : Type} (name : String)
    (arm : Proto.Request.Arm Config) (pick : Proto.Response.Arm Config Description → Option α) :
    host.Ensures (handles.serve (Client.CaptureClient.expect runtime name arm pick) session)
      (fun outcome k' => SamePlugin session outcome.2 ∧ Calm k held k' held) k := by
  refine ensures_calm h ((samePlugin_expect runtime session name arm pick).relabel fun op hOp => ?_)
  cases op with
  | send bytes => rfl
  | recv => rfl
  | _ => exact hOp.elim

theorem SamePlugin.points {session' : Client.CaptureClient} (h : SamePlugin session session')
    (hPoints : handles.Points session) : handles.Points session' := by
  rw [Handles.Points, h.1, h.2]
  exact hPoints

/-- How the request to shut down ends, with what a failure entails. -/
inductive RequestEnds (k : Kernel) (held : Finset Resource) (session : Client.CaptureClient) :
    Except Error Unit × Client.CaptureClient → Kernel → Prop
  | failed (e : Error) (s : Client.CaptureClient) (k' : Kernel) (h : Gone k held session s k') :
      RequestEnds k held session (.error e, s) k'
  | answered (s : Client.CaptureClient) (k' : Kernel) (hSame : SamePlugin session s)
      (h : Calm k held k' held) : RequestEnds k held session (.ok (), s) k'

section
variable (hPoints : handles.Points session) (h : Owns k held) (hOwn : ownPlugin session ⊆ held)
include hPoints h hOwn

theorem ensures_requestShutdown (name : String) (arm : Proto.Request.Arm Config)
    (pick : Proto.Response.Arm Config Description → Option Unit) :
    host.Ensures (handles.serve (tryCatch (Client.CaptureClient.expect runtime name arm pick)
      fun e => do
        Client.CaptureClient.terminate
        throw e) session) (RequestEnds k held session) k := by
  refine handles.ensures_serve_tryCatch (ensures_expect runtime h name arm pick) ?_ ?_
  · rintro e s k' ⟨hSame, hCalm⟩
    have hTerminate := ensures_terminate (hSame.points hPoints) hCalm.owns
      (hSame.ownPlugin_eq ▸ hOwn)
    refine handles.ensures_serve_bind hTerminate ?_ ?_
    · rintro e s k' ⟨⟨⟩, -⟩
    · rintro ⟨⟩ s' k₂ ⟨-, hGone⟩
      exact .failed e s' k₂ (.of_calm hCalm hSame hGone)
  · rintro ⟨⟩ s k' ⟨hSame, hCalm⟩
    exact .answered s k' hSame hCalm

omit runtime in
/-- A plugin that has agreed to exit is waited for. -/
theorem ensures_closeStdin_reap (hPid : 0 < session.pid) :
    host.Ensures (handles.serve (do
      Client.CaptureClient.closeStdin
      Client.CaptureClient.reap) session)
      (fun outcome k' => outcome.1 = .ok () ∧ Gone k held session outcome.2 k') k := by
  refine handles.ensures_serve_bind (ensures_closeStdin hPoints h hOwn) ?_ ?_
  · rintro e s k' ⟨⟨⟩, -⟩
  · rintro ⟨⟩ s k' ⟨-, hClosed, hSame, hYields⟩
    have hReap := ensures_reap (hPoints.of_closed hClosed hSame) hYields.calm.owns
      (hYields.own_subset hOwn) hClosed (hSame ▸ hPid)
    refine hReap.mono ?_
    rintro outcome k₂ ⟨hOk, hGone⟩
    exact ⟨hOk, .of_yields hYields hGone⟩

theorem ensures_shutdown :
    host.Ensures (handles.serve (Client.CaptureClient.shutdown runtime) session)
      (fun outcome k' => outcome.2 = session ∧ session.pid ≤ 0 ∧ Calm k held k' held ∨
        Gone k held session outcome.2 k') k := by
  change host.Ensures (((if session.pid ≤ 0 then _ else _ :
    Calling Client.CaptureClient Error Unit).run.run session).relabel _ _) _ k
  by_cases hPid : session.pid ≤ 0
  · rw [if_pos hPid]
    exact .inl ⟨rfl, hPid, .of_owns h⟩
  · rw [if_neg hPid]
    refine handles.ensures_serve_bind
      (ensures_requestShutdown runtime hPoints h hOwn "Shutdown" .shutdown _) ?_ ?_
    · intro e s k' hFailed
      cases hFailed with
      | failed _ _ _ hGone => exact .inr hGone
    · intro a s k' hAnswered
      cases hAnswered with
      | answered _ _ hSame hCalm =>
        refine (ensures_closeStdin_reap (hSame.points hPoints) hCalm.owns
          (hSame.ownPlugin_eq ▸ hOwn) (hSame.1 ▸ Int.not_le.mp hPid)).mono ?_
        rintro outcome k₂ ⟨-, hGone⟩
        exact .inr (.of_calm hCalm hSame hGone)

end

end

end OpenMso.Cpp.Plugins
