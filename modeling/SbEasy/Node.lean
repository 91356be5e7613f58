import SbEasy.Manager
import SbEasy.RuntimeChecks

/-!
A node: the C runtime of `proxy_runtime.c` driving the engine's manager.

`sb_proxy_runtime_step` is cut where other threads may run in between: at every call into the
engine and at the exchange with the center. The phase says how far the running step has come.
Traffic of the engine, its timer and a stop from elsewhere may happen in every phase.
-/

namespace SbEasy

open JsonParse

/-- `SB_PROXY_REQUEST_LIMIT` and `SB_PROXY_POLICY_LIMIT` -/
def proxyRequestLimit : ℕ := 512 * 1024
def proxyPolicyLimit : ℕ := 4 * 1024 * 1024

/-- How far a step has come. -/
inductive Phase
  | idle
  | prepared
  | exchanging
  | accepted (raw : Bytes)
  | serving (node : GoNode) (replace : Bool)
  | settled
  deriving DecidableEq

/-- A payload between `reserve` and `finish`. -/
structure Payload where
  conn : ℕ
  allowed : ℤ
  deriving DecidableEq

structure Node where
  rt : Runtime
  mgr : Manager
  phase : Phase := .idle
  payloads : List Payload := []
  deriving DecidableEq

/-- What happens at a node, with what its clocks and its surroundings say. -/
inductive NodeEvent
  /-- A step begins; whether the runtime is stopping. -/
  | start (stopping : Bool)
  /-- The request goes to the engine; the readings of both clocks. -/
  | begin (ms now : ℤ)
  /-- The exchange returns, with a response or without. -/
  | response (raw : Option Bytes) (stopping : Bool) (ms : ℤ)
  | apply (now : ℤ)
  | serve (listener : Manager.Listener)
  | acknowledge
  | attach (token : Bytes) (ingress : Option ℕ) (now : ℤ)
  | close (conn : ℕ)
  | reserve (conn : ℕ) (want : ℕ) (whole : Bool) (now : ℤ)
  | finish (payload : ℕ) (written : ℤ) (failed : Bool)
  | expire (now : ℤ)
  | stop
  deriving DecidableEq

namespace Node

/-- `sb_proxy_runtime_new`, over an engine that has been reset. -/
def new (host boot : Bytes) (mgr : Manager) : Node := { rt := { host := host, boot := boot }, mgr := mgr }

/-- The request of `pending_request`. -/
def requestJson (boot : Bytes) (sequence : ℤ) (reports : Sbj) : Sbj :=
  ((((Sbj.obj []).set (lit "version") (.int 1)).set (lit "boot_id") (.str boot)).set
    (lit "request_seq") (.int sequence)).set (lit "reports") reports

variable [Platform]

/-- The counters of the engine, as `pending_request` reads them. -/
def counters (stats : Bytes) : Option Sbj :=
  if stats.length ≤ proxyRequestLimit then (sbjParseStrict stats).toOption else none

/-- `pending_request` -/
def pendingRequest (n : Node) : Node :=
  if n.rt.pending.isSome then { n with phase := .prepared }
  else if n.rt.sequence > safeInteger then n
  else
    match counters n.mgr.stats with
    | none => { n with mgr := n.mgr.stop }
    | some reports =>
      if !reportsValid (some reports) then { n with mgr := n.mgr.stop }
      else
        let pending : Pending :=
          ⟨dump (requestJson n.rt.boot n.rt.sequence reports) (-1), dump reports (-1)⟩
        if pending.request.length > proxyRequestLimit then n
        else { n with rt := { n.rt with pending := some pending }, phase := .prepared }

def start (n : Node) (stopping : Bool) : Node :=
  match n.phase with
  | .idle => if stopping then n else n.pendingRequest
  | _ => n

def begin (n : Node) (ms now : ℤ) : Node :=
  match n.phase, n.rt.pending with
  | .prepared, some pending =>
    if n.rt.begun then { n with phase := .exchanging }
    else
      let rt := { n.rt with beganMs := ms }
      if ms < 0 then { n with rt := rt, mgr := n.mgr.stop, phase := .idle }
      else
        match n.mgr.begin (goString pending.request) now with
        | (m, some _) => { n with rt := rt, mgr := m, phase := .idle }
        | (m, none) => { n with rt := { rt with begun := true }, mgr := m, phase := .exchanging }
  | _, _ => n

def response (n : Node) (raw : Option Bytes) (stopping : Bool) (ms : ℤ) : Node :=
  match n.phase, raw with
  | .exchanging, none => { n with phase := .idle }
  | .exchanging, some raw =>
    if stopping then { n with phase := .idle }
    else
      let policy := if raw.length ≤ proxyPolicyLimit then (sbjParseStrict raw).toOption else none
      if !policyValid n.rt policy then { n with mgr := n.mgr.stop, phase := .idle }
      else
        let host := if n.rt.host.isEmpty then Sbj.getStr policy (lit "host_id") [] else n.rt.host
        let rt := { n.rt with host := host }
        if ms < n.rt.beganMs then { n with rt := rt, mgr := n.mgr.stop, phase := .idle }
        else { n with rt := rt, phase := .accepted raw }
  | _, _ => n

def apply (n : Node) (now : ℤ) : Node :=
  match n.phase with
  | .accepted raw =>
    match n.mgr.apply (goString raw) now with
    | (m, .serving node replace) => { n with mgr := m, phase := .serving node replace }
    | (m, _) => { n with mgr := m, phase := .settled }
  | _ => n

def serve (n : Node) (listener : Manager.Listener) : Node :=
  match n.phase with
  | .serving node replace => { n with mgr := (n.mgr.serve node replace listener).1, phase := .settled }
  | _ => n

/-- The engine is told which reports the center has; the sequence number is used up. -/
def acknowledge (n : Node) : Node :=
  match n.phase, n.rt.pending with
  | .settled, some pending =>
    { n with
      mgr := (n.mgr.acknowledge (goString pending.reports)).1
      rt := { n.rt with sequence := n.rt.sequence + 1, begun := false, beganMs := 0, pending := none }
      phase := .idle }
  | _, _ => n

def reserve (n : Node) (conn want : ℕ) (whole : Bool) (now : ℤ) : Node :=
  match n.mgr.reserve conn want whole now with
  | (m, allowed) =>
    if allowed = 0 then { n with mgr := m }
    else { n with mgr := m, payloads := n.payloads ++ [⟨conn, allowed⟩] }

def finish (n : Node) (payload : ℕ) (written : ℤ) (failed : Bool) : Node :=
  match n.payloads[payload]? with
  | none => n
  | some p =>
    { n with
      mgr := n.mgr.finish p.conn p.allowed (chargedBytes p.allowed written failed)
      payloads := n.payloads.eraseIdx payload }

def step (n : Node) : NodeEvent → Node
  | .start stopping => n.start stopping
  | .begin ms now => n.begin ms now
  | .response raw stopping ms => n.response raw stopping ms
  | .apply now => n.apply now
  | .serve listener => n.serve listener
  | .acknowledge => n.acknowledge
  | .attach token ingress now => { n with mgr := (n.mgr.attach token ingress now).1 }
  | .close conn => { n with mgr := n.mgr.close conn }
  | .reserve conn want whole now => n.reserve conn want whole now
  | .finish payload written failed => n.finish payload written failed
  | .expire now => { n with mgr := n.mgr.expire now }
  | .stop => { n with mgr := n.mgr.stop }

def run (n : Node) (events : List NodeEvent) : Node := events.foldl step n

end Node
end SbEasy
