import Blackswan.Fix.Adapter

/-!
# The FIX fault injector

`FixFaultInjector` wraps a proxy as a fault injector: the proxy starts on the first `arm` and
keeps running, only its `enabled` flag toggles.
-/

namespace Blackswan.Fix

/-- What a call meets outside the process: how binding the listener ends. -/
structure FixEnv where
  bind : String → Except String Unit

/-- `FixProxy`. `running` says that `handle` is set; the adapter is the one its threads share. -/
structure FixProxy (A : Type) where
  listenAddr : String
  upstreamAddr : String
  adapter : A
  enabled : Bool
  running : Bool

variable {A : Type}

def FixProxy.new (listenAddr upstreamAddr : String) (adapter : A) : FixProxy A :=
  ⟨listenAddr, upstreamAddr, adapter, false, false⟩

/-- `FixProxy::start`; spawning the accept thread is assumed to succeed. -/
def FixProxy.start (self : FixProxy A) (env : FixEnv) : Except HarnessError Unit × FixProxy A :=
  if self.running then (.ok (), self)
  else
    match env.bind self.listenAddr with
    | .error e =>
      (.error (.armFailed "fix-proxy" s!"binding {self.listenAddr}: {e}"), self)
    | .ok () => (.ok (), { self with running := true })

structure FixFaultInjector (A : Type) where
  id : String
  proxy : FixProxy A
  armed : Bool

namespace FixFaultInjector

def new (id listenAddr upstreamAddr : String) (adapter : A) : FixFaultInjector A :=
  ⟨id, .new listenAddr upstreamAddr adapter, false⟩

def arm (self : FixFaultInjector A) (env : FixEnv) :
    Except HarnessError Unit × FixFaultInjector A :=
  match self.proxy.start env with
  | (.error e, proxy) => (.error e, { self with proxy := proxy })
  | (.ok (), proxy) =>
    (.ok (), { self with proxy := { proxy with enabled := true }, armed := true })

def disarm (self : FixFaultInjector A) : Except HarnessError Unit × FixFaultInjector A :=
  (.ok (), { self with proxy := { self.proxy with enabled := false }, armed := false })

def isArmed (self : FixFaultInjector A) : Bool := self.armed

/-- `arm` succeeds and arms, or fails and changes nothing. -/
theorem arm_cases (self : FixFaultInjector A) (env : FixEnv) :
    (self.arm env = (.ok (),
      { self with proxy := { self.proxy with enabled := true, running := true }, armed := true })) ∨
    ∃ e, self.arm env = (.error e, self) := by
  unfold arm FixProxy.start
  by_cases hrun : self.proxy.running = true
  · left
    rw [if_pos hrun, ← hrun]
  · rw [if_neg hrun]
    rcases env.bind self.proxy.listenAddr with e | ⟨⟩
    · exact Or.inr ⟨_, rfl⟩
    · exact Or.inl rfl

theorem arm_of_bind (self : FixFaultInjector A) {env : FixEnv}
    (h : ∀ addr, env.bind addr = .ok ()) :
    self.arm env = (.ok (), { self with
      proxy := { self.proxy with enabled := true, running := true }, armed := true }) := by
  unfold arm FixProxy.start
  by_cases hrun : self.proxy.running = true
  · rw [if_pos hrun, ← hrun]
  · rw [if_neg hrun, h]

end FixFaultInjector

end Blackswan.Fix
