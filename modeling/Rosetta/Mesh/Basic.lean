import Mathlib.Data.Finset.Prod
import Rosetta.Server.Accept
import Rosetta.Server.Listener

/-!
# All nodes create their channel

Any number of nodes call `BasicIO::init` for one task. Each of them starts its server, and then a
thread for each peer: it connects to the peer (`TCPClient::connect`), or waits until the peer has
connected (`TCPServer::put_connection`). The epoll thread of a node accepts one peer at a time and
waits in `handle_accept` for the hello of that peer.

The sockets are those of `TCPServer` and `TCPClient`, without SSL, and no call times out or fails.
A `::connect` that is refused is made again; it is no step here. Of a hello `handle_accept` may get
a part only.

* `Roster` — who connects to whom
* `Mesh` — how far the threads of all nodes have come, and what is in their sockets
* `Mesh.step` — a call of the system by one of the threads
-/

namespace Rosetta

open Lib

deriving instance DecidableEq for ClientId

/-- The connection that the first node has made to the second one. -/
abbrev Edge := ClientId × ClientId

/-- `ip_` and `port_` of a `TCPClient`, which make up its `node_address`. -/
abbrev NodeAddress := Bytes × Int

/-- Which peers the nodes have, when they all have read one configuration. -/
structure Roster where
  nodes : Finset ClientId
  /-- the ids in `server_infos_` -/
  dials : ClientId → List ClientId
  /-- the ids in `client_infos_` -/
  expects : ClientId → List ClientId
  /-- No peer is listed twice. -/
  nodup : ∀ a, (dials a ++ expects a).Nodup
  peers : ∀ a b, b ∈ dials a → a ∈ nodes ∧ b ∈ nodes
  /-- A node is expected where it connects. -/
  agree : ∀ a b, b ∈ dials a ↔ a ∈ expects b
  /-- where a node connects to a peer -/
  address : ClientId → ClientId → NodeAddress
  /-- The nodes that are connected to have addresses of their own. -/
  apart : ∀ a b c d, b ∈ dials a → d ∈ dials c → address a b = address c d → b = d

/-- `listen(fd, 20)`. -/
def listenBacklog : Nat := 20

/-- How far a thread has come that connects to a peer. -/
inductive Dialed where
  /-- `::connect` has not returned -/
  | idle
  | connected
  /-- it has the ack -/
  | acked
  /-- it has written its hello -/
  | greeted
  /-- the connection is in `connection_map` -/
  | mapped
  deriving DecidableEq, Repr

/-- Where the epoll thread of a node is. -/
inductive MeshLoop where
  | polling
  /-- `epoll_wait` has reported the listening socket -/
  | reported
  | accepted (a : ClientId)
  /-- it has written the ack, and reads the hello -/
  | acked (a : ClientId)
  /-- the peer is in `connections_`, and `epoll_mod` comes next -/
  | registered
  deriving DecidableEq

/-- For each node, or for each node and peer: -/
structure Mesh where
  /-- `listen` has returned -/
  listening : ClientId → Bool := fun _ => false
  /-- the listening socket is in the epoll set, and the threads run -/
  started : ClientId → Bool := fun _ => false
  /-- who has connected and has not been accepted -/
  pending : ClientId → List ClientId := fun _ => []
  /-- the next `epoll_wait` reports the listening socket -/
  ready : ClientId → Bool := fun _ => false
  loop : ClientId → MeshLoop := fun _ => .polling
  /-- `connections_` of the server: whose connection is kept under an id -/
  connections : ClientId × Bytes → Option ClientId := fun _ => none
  /-- `to_connect_set_` and `connections_` of the clients: for which peer a node has connected to an
  address -/
  dialing : ClientId × NodeAddress → Option ClientId := fun _ => none
  dialed : Edge → Dialed := fun _ => .idle
  /-- the ack is in the socket -/
  ack : Edge → Bool := fun _ => false
  /-- the hello that is in the socket -/
  hello : Edge → Option Bytes := fun _ => none
  /-- `handle_accept` has closed the socket -/
  closed : Edge → Bool := fun _ => false
  /-- `connection_map` of a node at a peer -/
  connectionMap : Edge → Option Edge := fun _ => none

inductive MeshAct where
  | listen (a : ClientId)
  /-- `epoll_add` of the listening socket; `TCPServer::start` returns -/
  | start (a : ClientId)
  /-- `::connect` of `a` to `b` returns -/
  | connect (a b : ClientId)
  /-- `a` has a connection to the address of `b`, and takes that one -/
  | reuse (a b : ClientId)
  | readAck (a b : ClientId)
  | writeHello (a b : ClientId)
  /-- `TCPClient::connect` returns, and the connection goes into `connection_map` -/
  | publish (a b : ClientId)
  | epollWait (b : ClientId)
  | accept (b : ClientId)
  | writeAck (b : ClientId)
  /-- `handle_accept` reads a hello: all of it, or only so many bytes -/
  | greet (b : ClientId) (cut : Option Nat)
  | epollMod (b : ClientId)
  /-- `put_connection` at `a` finds the connection of `b` -/
  | put (a b : ClientId)
  deriving DecidableEq

/-- Whose thread takes the step. -/
def MeshAct.node : MeshAct → ClientId
  | .listen a | .start a | .connect a _ | .reuse a _ | .readAck a _ | .writeHello a _
  | .publish a _ | .epollWait a | .accept a | .writeAck a | .greet a _ | .epollMod a
  | .put a _ => a

/-- If it reads a hello, it reads all of it. -/
def MeshAct.whole : MeshAct → Bool
  | .greet _ cut => cut.isNone
  | _ => true

/-- What `handle_accept` gets of a hello. After the `read` that gets less than it asks for there is
no other one. -/
def arrived (hello : Bytes) : Option Nat → Bytes
  | none => hello
  | some n => hello.take n

namespace Mesh

open Function

/-- A call of the system by one of the threads. None of them fails or times out, but the reads of
`handle_accept` may get less than they ask for. -/
def step (r : Roster) (m : Mesh) : MeshAct → Option Mesh
  | .listen a =>
    if a ∈ r.nodes ∧ m.listening a = false then
      some { m with listening := update m.listening a true }
    else none
  | .start a =>
    if m.listening a ∧ m.started a = false then some { m with started := update m.started a true }
    else none
  | .connect a b =>
    if m.started a ∧ b ∈ r.dials a ∧ m.dialed (a, b) = .idle ∧
        m.dialing (a, r.address a b) = none ∧ m.listening b ∧
        (m.pending b).length < listenBacklog then
      some { m with
        dialing := update m.dialing (a, r.address a b) (some b)
        dialed := update m.dialed (a, b) .connected
        pending := update m.pending b (m.pending b ++ [a])
        ready := update m.ready b true }
    else none
  | .reuse a b =>
    if m.started a ∧ b ∈ r.dials a ∧ m.dialed (a, b) = .idle then
      match m.dialing (a, r.address a b) with
      | some c =>
        if m.dialed (a, c) = .mapped then
          some { m with
            dialed := update m.dialed (a, b) .mapped
            connectionMap := update m.connectionMap (a, b) (some (a, c)) }
        -- `task_cv_.wait`
        else none
      | none => none
    else none
  | .readAck a b =>
    if m.dialed (a, b) = .connected ∧ m.ack (a, b) then
      some { m with dialed := update m.dialed (a, b) .acked }
    else none
  | .writeHello a b =>
    if m.dialed (a, b) = .acked then
      some { m with
        dialed := update m.dialed (a, b) .greeted
        hello := update m.hello (a, b) (some a.hello) }
    else none
  | .publish a b =>
    if m.dialed (a, b) = .greeted then
      some { m with
        dialed := update m.dialed (a, b) .mapped
        connectionMap := update m.connectionMap (a, b) (some (a, b)) }
    else none
  | .epollWait b =>
    if m.started b ∧ m.loop b = .polling ∧ m.ready b then
      some { m with ready := update m.ready b false, loop := update m.loop b .reported }
    else none
  | .accept b =>
    match m.loop b, m.pending b with
    | .reported, a :: rest =>
      some { m with pending := update m.pending b rest, loop := update m.loop b (.accepted a) }
    | _, _ => none
  | .writeAck b =>
    match m.loop b with
    | .accepted a =>
      some { m with ack := update m.ack (a, b) true, loop := update m.loop b (.acked a) }
    | _ => none
  | .greet b cut =>
    match m.loop b with
    | .acked a =>
      match m.hello (a, b) with
      | some hello =>
        match Rosetta.greet (r.expects b) (.ofHello (arrived hello cut)) with
        | .ok (.registered cid) =>
          some { m with
            connections := update m.connections (b, cid) (some a)
            loop := update m.loop b .registered }
        -- the client is not told, and `epoll_mod` is left out
        | .ok _ =>
          some { m with
            closed := update m.closed (a, b) true
            loop := update m.loop b .polling }
        | .error _ => none
      -- `read` waits
      | none => none
    | _ => none
  | .epollMod b =>
    if m.loop b = .registered then
      some { m with
        loop := update m.loop b .polling
        ready := update m.ready b (m.ready b || !(m.pending b).isEmpty) }
    else none
  | .put a b =>
    if m.started a ∧ b ∈ r.expects a ∧ m.connectionMap (a, b) = none then
      (m.connections (a, b.bytes)).map fun d =>
        { m with connectionMap := update m.connectionMap (a, b) (some (d, a)) }
    else none

/-! ## What a step can do -/

inductive Does (r : Roster) (m : Mesh) : MeshAct → Mesh → Prop where
  | listen {a : ClientId} (ha : a ∈ r.nodes) (hnot : m.listening a = false) :
    Does r m (.listen a) { m with listening := update m.listening a true }
  | start {a : ClientId} (hlistening : m.listening a = true) (hnot : m.started a = false) :
    Does r m (.start a) { m with started := update m.started a true }
  | connect {a b : ClientId} (hdials : b ∈ r.dials a) (hd : m.dialed (a, b) = .idle) :
    Does r m (.connect a b) { m with
      dialing := update m.dialing (a, r.address a b) (some b)
      dialed := update m.dialed (a, b) .connected
      pending := update m.pending b (m.pending b ++ [a])
      ready := update m.ready b true }
  | reuse {a b c : ClientId} (hdials : b ∈ r.dials a) (hd : m.dialed (a, b) = .idle)
    (hc : m.dialing (a, r.address a b) = some c) :
    Does r m (.reuse a b) { m with
      dialed := update m.dialed (a, b) .mapped
      connectionMap := update m.connectionMap (a, b) (some (a, c)) }
  | readAck {a b : ClientId} (hd : m.dialed (a, b) = .connected) (hack : m.ack (a, b) = true) :
    Does r m (.readAck a b) { m with dialed := update m.dialed (a, b) .acked }
  | writeHello {a b : ClientId} (hd : m.dialed (a, b) = .acked) :
    Does r m (.writeHello a b) { m with
      dialed := update m.dialed (a, b) .greeted
      hello := update m.hello (a, b) (some a.hello) }
  | publish {a b : ClientId} (hd : m.dialed (a, b) = .greeted) :
    Does r m (.publish a b) { m with
      dialed := update m.dialed (a, b) .mapped
      connectionMap := update m.connectionMap (a, b) (some (a, b)) }
  | epollWait {b : ClientId} (hstarted : m.started b = true) (hloop : m.loop b = .polling)
    (hready : m.ready b = true) : Does r m (.epollWait b) { m with
      ready := update m.ready b false
      loop := update m.loop b .reported }
  | accept {a b : ClientId} {rest : List ClientId} (hloop : m.loop b = .reported)
    (hpending : m.pending b = a :: rest) : Does r m (.accept b) { m with
      pending := update m.pending b rest
      loop := update m.loop b (.accepted a) }
  | writeAck {a b : ClientId} (hloop : m.loop b = .accepted a) :
    Does r m (.writeAck b) { m with
      ack := update m.ack (a, b) true
      loop := update m.loop b (.acked a) }
  | register {a b : ClientId} {cut : Option Nat} {hello cid : Bytes} (hloop : m.loop b = .acked a)
    (hhello : m.hello (a, b) = some hello)
    (hgreet : Rosetta.greet (r.expects b) (.ofHello (arrived hello cut)) = .ok (.registered cid)) :
    Does r m (.greet b cut) { m with
      connections := update m.connections (b, cid) (some a)
      loop := update m.loop b .registered }
  | refuse {a b : ClientId} {cut : Option Nat} {hello : Bytes} (hloop : m.loop b = .acked a)
    (hhello : m.hello (a, b) = some hello)
    (hgreet : ∀ cid,
      Rosetta.greet (r.expects b) (.ofHello (arrived hello cut)) ≠ .ok (.registered cid)) :
    Does r m (.greet b cut) { m with
      closed := update m.closed (a, b) true
      loop := update m.loop b .polling }
  | epollMod {b : ClientId} (hloop : m.loop b = .registered) : Does r m (.epollMod b) { m with
      loop := update m.loop b .polling
      ready := update m.ready b (m.ready b || !(m.pending b).isEmpty) }
  | put {a b d : ClientId} (hexpects : b ∈ r.expects a) (hnone : m.connectionMap (a, b) = none)
    (hd : m.connections (a, b.bytes) = some d) :
    Does r m (.put a b) { m with
      connectionMap := update m.connectionMap (a, b) (some (d, a)) }

theorem does_of_step {r : Roster} {m m' : Mesh} {act : MeshAct} (h : m.step r act = some m') :
    Does r m act m' := by
  cases act with
  | listen a =>
    simp only [step, Option.ite_none_right_eq_some, Option.some.injEq] at h
    obtain ⟨⟨ha, hnot⟩, rfl⟩ := h
    exact .listen ha hnot
  | start a =>
    simp only [step, Option.ite_none_right_eq_some, Option.some.injEq] at h
    obtain ⟨⟨hlistening, hnot⟩, rfl⟩ := h
    exact .start hlistening hnot
  | connect a b =>
    simp only [step, Option.ite_none_right_eq_some, Option.some.injEq] at h
    obtain ⟨⟨-, hdials, hd, -⟩, rfl⟩ := h
    exact .connect hdials hd
  | reuse a b =>
    simp only [step, Option.ite_none_right_eq_some] at h
    obtain ⟨⟨-, hdials, hd⟩, h⟩ := h
    split at h
    · next c hc =>
      simp only [Option.ite_none_right_eq_some, Option.some.injEq] at h
      obtain ⟨-, rfl⟩ := h
      exact .reuse hdials hd hc
    · cases h
  | readAck a b =>
    simp only [step, Option.ite_none_right_eq_some, Option.some.injEq] at h
    obtain ⟨⟨hd, hack⟩, rfl⟩ := h
    exact .readAck hd hack
  | writeHello a b =>
    simp only [step, Option.ite_none_right_eq_some, Option.some.injEq] at h
    obtain ⟨hd, rfl⟩ := h
    exact .writeHello hd
  | publish a b =>
    simp only [step, Option.ite_none_right_eq_some, Option.some.injEq] at h
    obtain ⟨hd, rfl⟩ := h
    exact .publish hd
  | epollWait b =>
    simp only [step, Option.ite_none_right_eq_some, Option.some.injEq] at h
    obtain ⟨⟨hstarted, hloop, hready⟩, rfl⟩ := h
    exact .epollWait hstarted hloop hready
  | accept b =>
    simp only [step] at h
    split at h
    · next a rest hloop hpending =>
      obtain rfl := Option.some.inj h
      exact .accept hloop hpending
    · cases h
  | writeAck b =>
    simp only [step] at h
    split at h
    · next a hloop =>
      obtain rfl := Option.some.inj h
      exact .writeAck hloop
    · cases h
  | greet b cut =>
    simp only [step] at h
    split at h
    · next a hloop =>
      split at h
      · next hello hhello =>
        split at h
        · next cid hgreet =>
          obtain rfl := Option.some.inj h
          exact .register hloop hhello hgreet
        · next answer hnot hgreet =>
          obtain rfl := Option.some.inj h
          exact .refuse hloop hhello fun cid he => hnot cid (Except.ok.inj (hgreet.symm.trans he))
        · cases h
      · cases h
    · cases h
  | epollMod b =>
    simp only [step, Option.ite_none_right_eq_some, Option.some.injEq] at h
    obtain ⟨hloop, rfl⟩ := h
    exact .epollMod hloop
  | put a b =>
    simp only [step, Option.ite_none_right_eq_some] at h
    obtain ⟨⟨-, hexpects, hnone⟩, h⟩ := h
    obtain ⟨d, hd, rfl⟩ := Option.map_eq_some_iff.mp h
    exact .put hexpects hnone hd

/-! ## What becomes of a hello -/

theorem greet_hello (expected : List ClientId) (cid : ClientId) :
    greet expected (.ofHello cid.hello) =
      .ok (if (expected.any fun e => e.bytes == cid.bytes) = true then .registered cid.bytes
        else .notReallyClient cid.bytes) := by
  have hhead : cid.hello.take 8 = toBytes64 (8 + cid.bytes.length) :=
    List.take_left' (length_toBytes64 _)
  have htail : cid.hello.drop 8 = cid.bytes := List.drop_left' (length_toBytes64 _)
  simp only [greet, Greeting.ofHello, hhead, htail, Option.getD_some, length_toBytes64,
    cid.size_hello, resize_of_le cid.fits, List.take_length, Exec.ok_bind,
    ne_eq, not_true_eq_false, if_false]
  split <;> rfl

theorem greet_of_mem {expected : List ClientId} {cid : ClientId} (h : cid ∈ expected) :
    greet expected (.ofHello cid.hello) = .ok (.registered cid.bytes) := by
  have hany : (expected.any fun e => e.bytes == cid.bytes) = true :=
    List.any_eq_true.mpr ⟨cid, h, beq_self_eq_true _⟩
  rw [greet_hello, if_pos hany]

/-- A hello that is cut short is an error of the first `read` or of the second. -/
theorem greet_take (expected : List ClientId) {cid : ClientId} {n : Nat}
    (h : n < cid.hello.length) : greet expected (.ofHello (cid.hello.take n)) =
      .ok (if n < 8 then .lenError else .cidError) := by
  by_cases hn : n < 8
  · have hshort : ((cid.hello.take n).take 8).length ≠ 8 := by
      rw [List.length_take, List.length_take]
      omega
    simp only [greet, Greeting.ofHello, Option.getD_some, hshort, ne_eq, not_true_eq_false,
      not_false_eq_true, if_false, if_true, if_pos hn]
  · have hhead : (cid.hello.take n).take 8 = toBytes64 (8 + cid.bytes.length) := by
      rw [List.take_take, min_eq_left (by omega)]
      exact List.take_left' (length_toBytes64 _)
    have htail : (cid.hello.take n).drop 8 = cid.bytes.take (n - 8) := by
      rw [List.drop_take, ClientId.hello, List.drop_left' (length_toBytes64 _)]
    have hlen : cid.hello.length = 8 + cid.bytes.length := by
      rw [ClientId.hello, List.length_append, length_toBytes64]
    have hshort : ((cid.bytes.take (n - 8)).take cid.bytes.length).length ≠ cid.bytes.length := by
      rw [List.length_take, List.length_take]
      omega
    simp only [greet, Greeting.ofHello, hhead, htail, Option.getD_some, length_toBytes64,
      cid.size_hello, resize_of_le cid.fits, Exec.ok_bind, hshort, ne_eq, not_true_eq_false,
      not_false_eq_true, if_false, if_true, if_neg hn]

/-- A client is let in under its own id. -/
theorem eq_of_greet {expected : List ClientId} {cid : ClientId} {cut : Option Nat} {id : Bytes}
    (hgreet : greet expected (.ofHello (arrived cid.hello cut)) = .ok (.registered id)) :
    id = cid.bytes := by
  have hwhole : greet expected (.ofHello cid.hello) = .ok (.registered id) → id = cid.bytes := by
    intro hgreet
    rw [greet_hello] at hgreet
    split at hgreet <;> cases hgreet
    rfl
  cases cut with
  | none => exact hwhole hgreet
  | some n =>
    by_cases hn : n < cid.hello.length
    · have herror := hgreet.symm.trans (greet_take expected hn)
      split at herror <;> cases herror
    · have hall : arrived cid.hello (some n) = cid.hello := List.take_of_length_le (by omega)
      rw [hall] at hgreet
      exact hwhole hgreet

end Mesh

end Rosetta
