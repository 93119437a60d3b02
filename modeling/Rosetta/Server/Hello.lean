import Rosetta.Client.Dial
import Rosetta.Server.Accept
import Rosetta.Server.Listener

/-!
# What a peer can do to the server

`handle_accept` runs in the one thread that serves all tasks, and everything in it depends on the
peer: whether there is still somebody to accept, how much each `read` gets, what the length says.

* `Peer` — what the calls of the system return
* `AcceptState.handleAccept` — all of `handle_accept`
* `tolerates_iff` — the peers that it is prepared for, and the memory
* `Delivery` — a hello that arrives in pieces
* `bothRegistered_iff` — when both ends have a connection
-/

namespace Rosetta

/-! ## `handle_accept` -/

/-- What `read` on the socket of a peer returns. -/
inductive ReadRet where
  /-- none at the end of the stream -/
  | bytes (b : Bytes)
  | failed
  /-- nothing comes, and the connection stays open -/
  | blocks
  deriving DecidableEq

/-- What `handle_accept` gets from the system: from `accept` and the socket, and from `new`. -/
structure Peer where
  /-- what `accept` returns -/
  cfd : Int
  /-- the write of the ack raises `SIGPIPE` -/
  pipe : Bool := false
  /-- what the write of the ack returns -/
  ackRet : Int := 1
  lenRead : ReadRet
  cidRead : ReadRet
  /-- how long a string there is room for -/
  room : Nat := maxAlloc
  /-- `new Connection` finds room for its buffers, which have 138 MB -/
  newConnection : Bool := true
  deriving DecidableEq

/-- How `handle_accept` is left other than by a `return`. -/
inductive Escape where
  /-- `socket_exp("accept failed")` -/
  | acceptFailed
  /-- the signal ends the process -/
  | sigpipe
  | fault (f : Fault)
  deriving DecidableEq

/-- The bytes of a `read`, `none` when it fails. -/
def ReadRet.get : ReadRet → Except Escape (Option Bytes)
  | .bytes b => .ok (some b)
  | .failed => .ok none
  | .blocks => .error (.fault .blocked)

/-- A `read` of `n` bytes does not wait for anything when `n` is `0`. -/
def ReadRet.upTo (r : ReadRet) (n : Nat) : ReadRet := if n = 0 then .bytes [] else r

/-- A size that is computed from a length. -/
structure CidSize where
  cidLen : Nat
  size : Nat
  deriving DecidableEq

/-- `cid_len - sizeof(uint64_t)`. -/
def cidSize (cidLen : Nat) : CidSize := ⟨cidLen, wrapSub64 cidLen 8⟩

/-- `connections_`, `recycle_connections_` and the descriptors that have been closed; a connection
is known by its descriptor. -/
structure AcceptState where
  connections : AList fun _ : Bytes => Int := ∅
  recycleConnections : List Int := []
  closed : List Int := []
  /-- a record of the sizes that have been computed -/
  sizes : List CidSize := []

namespace AcceptState

def close (s : AcceptState) (cfd : Int) : AcceptState := { s with closed := s.closed ++ [cfd] }

/-- The connection is kept under the id, and the one that was there is recycled. -/
def register (s : AcceptState) (cid : Bytes) (cfd : Int) : AcceptState :=
  { s with
    recycleConnections := s.recycleConnections ++ (s.connections.lookup cid).toList
    connections := (s.connections.erase cid).insert cid cfd }

def record (s : AcceptState) (z : CidSize) : AcceptState := { s with sizes := s.sizes ++ [z] }

/-- `handle_accept` from `cid.resize` on. -/
def handleCid (s : AcceptState) (expectedCids : List ClientId) (p : Peer) (size : Nat) :
    Except Escape AcceptState := do
  (resizeIn p.room size).mapError .fault
  match ← (p.cidRead.upTo size).get with
  | some cid =>
    if cid.length ≠ size then .ok (s.close p.cfd)
    else if expectedCids.any fun e => e.bytes == cid then
      if p.newConnection then .ok (s.register cid p.cfd) else .error (.fault .badAlloc)
    else .ok (s.close p.cfd)
  | none => .ok (s.close p.cfd)

/-- `handle_accept`, when the ack has been written. -/
def handleHello (s : AcceptState) (expectedCids : List ClientId) (p : Peer) :
    Except Escape AcceptState := do
  match ← p.lenRead.get with
  | some lenBytes =>
    if lenBytes.length ≠ 8 then .ok (s.close p.cfd)
    else
      let z := cidSize (ofBytes64 lenBytes)
      (s.record z).handleCid expectedCids p z.size
  | none => .ok (s.close p.cfd)

def handleAccept (s : AcceptState) (ignoresPipe : Bool) (expectedCids : List ClientId) (p : Peer) :
    Except Escape AcceptState :=
  if p.cfd = -1 then .error .acceptFailed
  else if p.pipe && !ignoresPipe then .error .sigpipe
  else if p.pipe ∨ p.ackRet ≠ 1 then .ok (s.close p.cfd)
  else s.handleHello expectedCids p

end AcceptState

namespace Peer

/-- The ack has been written. -/
def Acked (p : Peer) : Prop := p.pipe = false ∧ p.ackRet = 1

/-- `cid_len` is read in full, and this is its value. -/
def SendsLength (p : Peer) (n : Nat) : Prop :=
  p.Acked ∧ ∃ b, p.lenRead = .bytes b ∧ b.length = 8 ∧ ofBytes64 b = n

/-- The id that is read in full. -/
def Received (p : Peer) (cid : Bytes) : Prop :=
  ∃ n, p.SendsLength n ∧ p.cidRead.upTo (wrapSub64 n 8) = .bytes cid ∧ cid.length = wrapSub64 n 8

/-- There is a peer; it is not gone when the ack is written, or `SIGPIPE` is ignored; it sends
something whenever it is waited for; its length is at least that of the length itself, and there is
room for the rest; and if it is expected, there is room for a connection. -/
structure Behaves (p : Peer) (ignoresPipe : Bool) (expectedCids : List ClientId) : Prop where
  accepted : p.cfd ≠ -1
  pipe : p.pipe = true → ignoresPipe = true
  sendsLen : p.Acked → p.lenRead ≠ .blocks
  bounded : ∀ n, p.SendsLength n → 8 ≤ n ∧ n ≤ 8 + min p.room maxString
  sendsCid : ∀ n, p.SendsLength n → n ≠ 8 → p.cidRead ≠ .blocks
  newConnection : ∀ cid, p.Received cid → (∃ e ∈ expectedCids, e.bytes = cid) →
    p.newConnection = true

end Peer

namespace AcceptState

variable {s s' : AcceptState} {ignoresPipe : Bool} {expectedCids : List ClientId} {p : Peer}

/-- The connection of `cid` is the only new one, and the one before it is recycled. -/
structure Registers (s s' : AcceptState) (cid : Bytes) (cfd : Int) : Prop where
  connections : s'.connections = (s.connections.erase cid).insert cid cfd
  recycled : s'.recycleConnections = s.recycleConnections ++ (s.connections.lookup cid).toList
  closed : s'.closed = s.closed

/-- The descriptor is closed, and nothing else has changed. -/
structure Rejects (s s' : AcceptState) (cfd : Int) : Prop where
  connections : s'.connections = s.connections
  recycled : s'.recycleConnections = s.recycleConnections
  closed : s'.closed = s.closed ++ [cfd]

/-- No size that has been computed since `s` has wrapped, and there was room for each of them. -/
def SizesFit (s s' : AcceptState) (room : Nat) : Prop :=
  ∃ sizes, s'.sizes = s.sizes ++ sizes ∧
    ∀ z ∈ sizes, z.size + 8 = z.cidLen ∧ z.size ≤ room

/-- The client is in, under the id that was received and is expected, or it is out. -/
def Settles (s s' : AcceptState) (expectedCids : List ClientId) (p : Peer) : Prop :=
  (∃ cid, p.Received cid ∧ (∃ e ∈ expectedCids, e.bytes = cid) ∧ s.Registers s' cid p.cfd) ∨
    s.Rejects s' p.cfd

/-- The call returns, it computes no size that wraps or that there is no room for, and the client is
in or out. -/
def Tolerates (s : AcceptState) (ignoresPipe : Bool) (expectedCids : List ClientId) (p : Peer) :
    Prop :=
  ∃ s', s.handleAccept ignoresPipe expectedCids p = .ok s' ∧ s.SizesFit s' p.room ∧
    s.Settles s' expectedCids p

theorem sizesFit_of_eq (h : s'.sizes = s.sizes) (room : Nat) : s.SizesFit s' room :=
  ⟨[], by rw [h, List.append_nil], fun _ hz => absurd hz List.not_mem_nil⟩

/-! ### The ways through the function -/

theorem handleAccept_of_not_acked (haccepted : p.cfd ≠ -1)
    (hpipe : p.pipe = true → ignoresPipe = true) (hacked : ¬ p.Acked) :
    s.handleAccept ignoresPipe expectedCids p = .ok (s.close p.cfd) := by
  have hlost : ¬ (p.pipe && !ignoresPipe) = true := by
    cases hp : p.pipe with
    | false => simp
    | true => simp [hpipe hp]
  have hgone : p.pipe = true ∨ p.ackRet ≠ 1 := by
    by_contra hnot
    obtain ⟨hp, hret⟩ := not_or.mp hnot
    exact hacked ⟨Bool.eq_false_of_not_eq_true hp, not_not.mp hret⟩
  rw [handleAccept, if_neg haccepted, if_neg hlost, if_pos hgone]

theorem handleAccept_of_acked (haccepted : p.cfd ≠ -1) (hacked : p.Acked) :
    s.handleAccept ignoresPipe expectedCids p = s.handleHello expectedCids p := by
  obtain ⟨hpipe, hret⟩ := hacked
  rw [handleAccept, if_neg haccepted, if_neg (by simp [hpipe]), if_neg (by simp [hpipe, hret])]

theorem handleHello_of_sendsLength {n : Nat} (h : p.SendsLength n) :
    s.handleHello expectedCids p =
      (s.record (cidSize n)).handleCid expectedCids p (wrapSub64 n 8) := by
  obtain ⟨-, b, hread, hlen, rfl⟩ := h
  rw [handleHello, hread]
  exact if_neg (not_not.mpr hlen)

/-- The length is not read in full. -/
theorem handleHello_of_short (hblocks : p.lenRead ≠ .blocks)
    (hshort : ∀ b, p.lenRead = .bytes b → b.length ≠ 8) :
    s.handleHello expectedCids p = .ok (s.close p.cfd) := by
  rw [handleHello]
  cases hread : p.lenRead with
  | bytes b => exact if_pos (hshort b hread)
  | failed => rfl
  | blocks => exact absurd hread hblocks

theorem handleCid_bytes {size : Nat} (hroom : size ≤ p.room) (hstring : size ≤ maxString)
    {cid : Bytes} (hread : p.cidRead.upTo size = .bytes cid) : s.handleCid expectedCids p size =
      if cid.length ≠ size then .ok (s.close p.cfd)
      else if expectedCids.any fun e => e.bytes == cid then
        if p.newConnection then .ok (s.register cid p.cfd) else .error (.fault .badAlloc)
      else .ok (s.close p.cfd) := by
  rw [handleCid, resizeIn_of_le hroom hstring, hread]
  rfl

/-- There is room for the id and for the connection, and the second `read` returns. -/
theorem handleCid_ok {size : Nat} (hroom : size ≤ p.room) (hstring : size ≤ maxString)
    (hblocks : size ≠ 0 → p.cidRead ≠ .blocks)
    (hconn : ∀ cid, p.cidRead.upTo size = .bytes cid → cid.length = size →
      (∃ e ∈ expectedCids, e.bytes = cid) → p.newConnection = true) :
    ∃ s', s.handleCid expectedCids p size = .ok s' ∧ s'.sizes = s.sizes ∧
      ((∃ cid, (p.cidRead.upTo size = .bytes cid ∧ cid.length = size) ∧
        (∃ e ∈ expectedCids, e.bytes = cid) ∧ s.Registers s' cid p.cfd) ∨ s.Rejects s' p.cfd) := by
  have hclosed : s.Rejects (s.close p.cfd) p.cfd := ⟨rfl, rfl, rfl⟩
  cases hread : p.cidRead.upTo size with
  | bytes cid =>
    rw [handleCid_bytes hroom hstring hread]
    by_cases hlen : cid.length = size
    · rw [if_neg (not_not.mpr hlen)]
      by_cases hexpected : (expectedCids.any fun e => e.bytes == cid) = true
      · have hmem : ∃ e ∈ expectedCids, e.bytes = cid := by simpa using hexpected
        rw [if_pos hexpected, if_pos (hconn cid hread hlen hmem)]
        exact ⟨_, rfl, rfl, .inl ⟨cid, ⟨rfl, hlen⟩, hmem, rfl, rfl, rfl⟩⟩
      · rw [if_neg hexpected]
        exact ⟨_, rfl, rfl, .inr hclosed⟩
    · rw [if_pos hlen]
      exact ⟨_, rfl, rfl, .inr hclosed⟩
  | failed =>
    rw [handleCid, resizeIn_of_le hroom hstring, hread]
    exact ⟨_, rfl, rfl, .inr hclosed⟩
  | blocks =>
    unfold ReadRet.upTo at hread
    split at hread
    · cases hread
    · next hne => exact absurd hread (hblocks hne)

/-- A call that returns has found room for the id. -/
theorem le_of_handleCid {size : Nat} (h : s.handleCid expectedCids p size = .ok s') :
    size ≤ p.room ∧ size ≤ maxString := by
  cases hresize : resizeIn p.room size with
  | error f =>
    rw [handleCid, hresize] at h
    cases h
  | ok u => exact le_of_resizeIn hresize

theorem handleCid_of_blocks {size : Nat} (hsize : size ≠ 0) (hblocks : p.cidRead = .blocks)
    (s' : AcceptState) : s.handleCid expectedCids p size ≠ .ok s' := by
  rw [handleCid, hblocks, ReadRet.upTo, if_neg hsize]
  cases resizeIn p.room size with
  | error f => exact fun h => by cases h
  | ok u => exact fun h => by cases h

/-! ### The peers that are tolerated -/

theorem tolerates_close (h : s.handleAccept ignoresPipe expectedCids p = .ok (s.close p.cfd)) :
    s.Tolerates ignoresPipe expectedCids p :=
  ⟨_, h, sizesFit_of_eq rfl _, .inr ⟨rfl, rfl, rfl⟩⟩

/-- The size that such a length gives. -/
theorem size_of_bounded {n room : Nat} (hle : 8 ≤ n) (hle' : n ≤ 8 + min room maxString) :
    wrapSub64 n 8 = n - 8 ∧ n - 8 ≤ room ∧ n - 8 ≤ maxString := by
  have hroom := Nat.min_le_left room maxString
  have hstring := Nat.min_le_right room maxString
  have hlt : n < 2 ^ 64 := by
    unfold maxString at hstring hle'
    omega
  exact ⟨wrapSub64_of_le hle hlt, by omega, by omega⟩

theorem tolerates_of_behaves (h : p.Behaves ignoresPipe expectedCids) :
    s.Tolerates ignoresPipe expectedCids p := by
  by_cases hacked : p.Acked
  · by_cases hlen : ∃ n, p.SendsLength n
    · obtain ⟨n, hn⟩ := hlen
      obtain ⟨hle, hle'⟩ := h.bounded n hn
      obtain ⟨hwrap, hroom, hstring⟩ := size_of_bounded hle hle'
      rw [← hwrap] at hroom hstring
      have hblocks : wrapSub64 n 8 ≠ 0 → p.cidRead ≠ .blocks := by
        intro hne
        refine h.sendsCid n hn ?_
        rw [hwrap] at hne
        omega
      obtain ⟨s', hok, hsizes, hsettled⟩ := handleCid_ok (s := s.record (cidSize n)) hroom hstring
        hblocks fun cid hread hlen hmem => h.newConnection cid ⟨n, hn, hread, hlen⟩ hmem
      refine ⟨s', ?_, ⟨[cidSize n], hsizes, ?_⟩, ?_⟩
      · rw [handleAccept_of_acked h.accepted hacked, handleHello_of_sendsLength hn, hok]
      · intro z hz
        obtain rfl := List.mem_singleton.mp hz
        refine ⟨?_, hroom⟩
        show wrapSub64 n 8 + 8 = n
        rw [hwrap]
        exact Nat.sub_add_cancel hle
      · rcases hsettled with ⟨cid, hread, hmem, hreg⟩ | hrej
        · exact .inl ⟨cid, ⟨n, hn, hread⟩, hmem, ⟨hreg.connections, hreg.recycled, hreg.closed⟩⟩
        · exact .inr ⟨hrej.connections, hrej.recycled, hrej.closed⟩
    · have hshort : ∀ b, p.lenRead = .bytes b → b.length ≠ 8 :=
        fun b hb hb' => hlen ⟨_, hacked, b, hb, hb', rfl⟩
      refine tolerates_close ?_
      rw [handleAccept_of_acked h.accepted hacked,
        handleHello_of_short (h.sendsLen hacked) hshort]
  · exact tolerates_close (handleAccept_of_not_acked h.accepted h.pipe hacked)

/-- **The size is what the call stands or falls with**: a length below `8` wraps, and asks for more
than a `string` can have. -/
theorem bounded_of_handleCid {n : Nat} (hn : p.SendsLength n)
    (h : s.handleCid expectedCids p (wrapSub64 n 8) = .ok s') :
    8 ≤ n ∧ n ≤ 8 + min p.room maxString := by
  obtain ⟨hroom, hstring⟩ := le_of_handleCid h
  have hlt : n < 2 ^ 64 := by
    obtain ⟨-, b, -, hlen, rfl⟩ := hn
    have hb := ofBytes64_lt b
    rw [hlen] at hb
    exact hb
  by_cases hle : 8 ≤ n
  · rw [wrapSub64_of_le hle hlt] at hroom hstring
    omega
  · rw [wrapSub64_of_lt (by omega) (by decide)] at hstring
    unfold maxString at hstring
    omega

theorem Tolerates.behaves (h : s.Tolerates ignoresPipe expectedCids p) :
    p.Behaves ignoresPipe expectedCids := by
  obtain ⟨s', hok, -, -⟩ := h
  have haccepted : p.cfd ≠ -1 := by
    intro hcfd
    rw [handleAccept, if_pos hcfd] at hok
    cases hok
  have hcid : ∀ n, p.SendsLength n →
      (s.record (cidSize n)).handleCid expectedCids p (wrapSub64 n 8) = .ok s' := by
    intro n hn
    rw [handleAccept_of_acked haccepted hn.1, handleHello_of_sendsLength hn] at hok
    exact hok
  refine ⟨haccepted, fun hpipe => ?_, fun hacked hblocks => ?_,
    fun n hn => bounded_of_handleCid hn (hcid n hn), fun n hn hne hblocks => ?_, ?_⟩
  · by_contra hnot
    have hlost : (p.pipe && !ignoresPipe) = true := by
      simp [hpipe, Bool.eq_false_of_not_eq_true hnot]
    rw [handleAccept, if_neg haccepted, if_pos hlost] at hok
    cases hok
  · rw [handleAccept_of_acked haccepted hacked, handleHello, hblocks] at hok
    cases hok
  · obtain ⟨hle, hle'⟩ := bounded_of_handleCid hn (hcid n hn)
    obtain ⟨hwrap, -⟩ := size_of_bounded hle hle'
    have hpos : wrapSub64 n 8 ≠ 0 := by
      rw [hwrap]
      omega
    exact handleCid_of_blocks hpos hblocks s' (hcid n hn)
  · rintro cid ⟨n, hn, hread, hlen⟩ hmem
    by_contra hnone
    obtain ⟨hroom, hstring⟩ := le_of_handleCid (hcid n hn)
    have hexpected : (expectedCids.any fun e => e.bytes == cid) = true := by simpa using hmem
    have hthrows := hcid n hn
    rw [handleCid_bytes hroom hstring hread, if_neg (not_not.mpr hlen), if_pos hexpected,
      if_neg hnone] at hthrows
    cases hthrows

/-- **The peers that `handle_accept` is prepared for**, whatever the state of the server is and
whomever it expects. -/
theorem tolerates_iff (s : AcceptState) (ignoresPipe : Bool) (expectedCids : List ClientId)
    (p : Peer) :
    s.Tolerates ignoresPipe expectedCids p ↔ p.Behaves ignoresPipe expectedCids :=
  ⟨Tolerates.behaves, tolerates_of_behaves⟩

/-- A peer that `[7]` is expected of, and that sends it. -/
theorem tolerates_iff_small : ({} : AcceptState).Tolerates false [⟨[7], by decide⟩]
    { cfd := 5, lenRead := .bytes [9, 0, 0, 0, 0, 0, 0, 0], cidRead := .bytes [7], room := 15 } := by
  refine (tolerates_iff _ _ _ _).mpr ⟨by decide, by decide, by simp, ?_, by simp, by simp⟩
  rintro n ⟨-, b, hb, -, rfl⟩
  obtain rfl := ReadRet.bytes.inj hb
  decide

/-- A peer that sends a length shorter than the length itself. -/
def shortLength : Peer where
  cfd := 5
  lenRead := .bytes [7, 0, 0, 0, 0, 0, 0, 0]
  cidRead := .failed

/-- A peer that announces an id of `2 ^ 40` bytes. -/
def longLength : Peer where
  cfd := 5
  lenRead := .bytes [8, 0, 0, 0, 0, 1, 0, 0]
  cidRead := .failed

/-- **Not every peer is tolerated.** A length of `7` asks for a `string` of `2 ^ 64 - 1` bytes,
however much room there is; a length of `2 ^ 40 + 8` for one of `2 ^ 40`; and a client may be gone
before it is accepted. -/
theorem not_tolerates :
    (∀ room, ({} : AcceptState).handleAccept true [] { shortLength with room } =
        .error (.fault .lengthError) ∧
      ¬ ({} : AcceptState).Tolerates true [] { shortLength with room }) ∧
    (∀ room < 2 ^ 40, ({} : AcceptState).handleAccept true [] { longLength with room } =
      .error (.fault .badAlloc)) ∧
    ({} : AcceptState).handleAccept true [] { shortLength with cfd := -1 } =
      .error .acceptFailed := by
  have haccepted : (5 : Int) ≠ -1 := by decide
  refine ⟨fun room => ?_, fun room hroom => ?_, rfl⟩
  · have hlen : { shortLength with room }.SendsLength 7 := ⟨⟨rfl, rfl⟩, _, rfl, rfl, rfl⟩
    have hthrows : ({} : AcceptState).handleAccept true [] { shortLength with room } =
        .error (.fault .lengthError) := by
      rw [handleAccept_of_acked haccepted hlen.1, handleHello_of_sendsLength hlen, handleCid,
        wrapSub64_of_lt (by decide) (by decide), resizeIn_of_lt (by decide)]
      rfl
    refine ⟨hthrows, ?_⟩
    rintro ⟨s', hok, -⟩
    cases hthrows.symm.trans hok
  · have hlen : { longLength with room }.SendsLength (2 ^ 40 + 8) :=
      ⟨⟨rfl, rfl⟩, _, rfl, rfl, by decide⟩
    have hresize : resizeIn room (2 ^ 40) = .error .badAlloc := by
      rw [resizeIn, if_neg (by decide), newCharIn, if_neg (Nat.not_le.mpr hroom)]
    rw [handleAccept_of_acked haccepted hlen.1, handleHello_of_sendsLength hlen, handleCid,
      wrapSub64_of_le (by decide) (by decide), Nat.add_sub_cancel]
    simp only [hresize]
    rfl

end AcceptState

/-! ### Behind the queue of the listening socket -/

def ReadRet.toOption : ReadRet → Option Bytes
  | .bytes b => some b
  | _ => none

/-- What `greet` gets from a peer. -/
def Peer.greeting (p : Peer) : Greeting where
  ackRet := if p.pipe then -1 else p.ackRet
  lenRead := p.lenRead.toOption
  cidRead :=
    (p.cidRead.upTo (wrapSub64 (ofBytes64 (p.lenRead.toOption.getD [])) 8)).toOption

theorem Peer.greeting_ackRet (p : Peer) :
    p.greeting.ackRet = if p.pipe then -1 else p.ackRet := rfl

theorem Peer.greeting_lenRead (p : Peer) : p.greeting.lenRead = p.lenRead.toOption := rfl

theorem Peer.greeting_cidRead {p : Peer} {b : Bytes} (h : p.lenRead = .bytes b) :
    p.greeting.cidRead = (p.cidRead.upTo (wrapSub64 (ofBytes64 b) 8)).toOption := by
  have hbytes : p.lenRead.toOption.getD [] = b := by
    rw [h]
    rfl
  rw [Peer.greeting, hbytes]

namespace AcceptState

variable {s : AcceptState} {ignoresPipe : Bool} {expectedCids : List ClientId} {p : Peer}

/-- What becomes of a client when `greet` has decided about it. -/
def settle (s : AcceptState) (cfd : Int) : Accepted → AcceptState
  | .registered cid => s.register cid cfd
  | _ => s.close cfd

/-- Without the record of the sizes. -/
def unrecorded (s : AcceptState) : AcceptState := { s with sizes := [] }

theorem unrecorded_settle (s : AcceptState) (z : CidSize) (cfd : Int) (answer : Accepted) :
    ((s.record z).settle cfd answer).unrecorded = (s.settle cfd answer).unrecorded := by
  cases answer <;> rfl

theorem map_unrecorded (s : AcceptState) (z : CidSize) (cfd : Int) (x : Except Escape Accepted) :
    (x.map ((s.record z).settle cfd)).map unrecorded =
      x.map fun answer => (s.settle cfd answer).unrecorded := by
  cases x with
  | error e => rfl
  | ok answer => exact congrArg _ (unrecorded_settle s z cfd answer)

/-- There is room for whatever the targets can have. -/
structure Roomy (p : Peer) : Prop where
  room : p.room = maxAlloc
  newConnection : p.newConnection = true

theorem handleCid_eq_greet {size : Nat} (hroom : Roomy p) (hblocks : p.cidRead.upTo size ≠ .blocks) :
    s.handleCid expectedCids p size =
      (Except.mapError .fault (do
        resize size
        match (p.cidRead.upTo size).toOption with
        | some cid =>
          if cid.length ≠ size then .ok .cidError
          else if expectedCids.any fun e => e.bytes == cid then .ok (.registered cid)
          else .ok (.notReallyClient cid)
        | none => .ok .cidError)).map (s.settle p.cfd) := by
  have hresize : resizeIn p.room size = resize size := by
    rw [hroom.room]
    rfl
  rw [handleCid, hresize]
  cases resize size with
  | error f => rfl
  | ok u =>
    cases hread : p.cidRead.upTo size with
    | bytes cid =>
      show (if cid.length ≠ size then _ else _) =
        Except.map _ (Except.mapError _ (if cid.length ≠ size then _ else _))
      split
      · rfl
      · split
        · rw [if_pos hroom.newConnection]
          rfl
        · rfl
    | failed => rfl
    | blocks => exact absurd hread hblocks

/-- For a peer that is there and does not keep the server waiting, `handle_accept` does what `greet`
says. -/
theorem handleAccept_eq_greet (haccepted : p.cfd ≠ -1) (hpipe : p.pipe = true → ignoresPipe = true)
    (hroom : Roomy p) (hlen : p.lenRead ≠ .blocks) (hcid : p.cidRead ≠ .blocks) :
    (s.handleAccept ignoresPipe expectedCids p).map unrecorded =
      ((greet expectedCids p.greeting).mapError .fault).map
        fun answer => (s.settle p.cfd answer).unrecorded := by
  unfold greet
  by_cases hacked : p.Acked
  · have hret : ¬ p.greeting.ackRet ≠ 1 := by simp [Peer.greeting, hacked.1, hacked.2]
    rw [handleAccept_of_acked haccepted hacked, if_neg hret]
    by_cases hfull : ∃ n, p.SendsLength n
    · obtain ⟨n, hn⟩ := hfull
      obtain ⟨-, b, hread, hb, rfl⟩ := id hn
      obtain ⟨size, hsize⟩ : ∃ size, wrapSub64 (ofBytes64 b) 8 = size := ⟨_, rfl⟩
      have hget : p.greeting.lenRead = some b := by
        rw [Peer.greeting_lenRead, hread]
        rfl
      have hget' : p.greeting.cidRead = (p.cidRead.upTo size).toOption := by
        rw [Peer.greeting_cidRead hread, hsize]
      have hblocks : p.cidRead.upTo size ≠ .blocks := by
        unfold ReadRet.upTo
        split
        · simp
        · exact hcid
      rw [handleHello_of_sendsLength hn, hsize]
      rw [hget, Option.getD_some, if_neg (not_not.mpr hb)]
      simp only [hsize, hget']
      exact (congrArg _ (handleCid_eq_greet hroom hblocks)).trans (map_unrecorded _ _ _ _)
    · have hshort : ∀ b, p.lenRead = .bytes b → b.length ≠ 8 :=
        fun b hb hb' => hfull ⟨_, hacked, b, hb, hb', rfl⟩
      have hget : (p.greeting.lenRead.getD []).length ≠ 8 := by
        rw [Peer.greeting_lenRead]
        cases hread : p.lenRead with
        | bytes b => exact hshort b hread
        | _ => simp [ReadRet.toOption]
      rw [handleHello_of_short hlen hshort, if_pos hget]
      rfl
  · have hret : p.greeting.ackRet ≠ 1 := by
      intro hret
      refine hacked ?_
      rw [Peer.greeting_ackRet] at hret
      cases hp : p.pipe with
      | false => exact ⟨hp, by simpa [hp] using hret⟩
      | true => simp [hp] at hret
    rw [handleAccept_of_not_acked haccepted hpipe hacked, if_pos hret]
    rfl

end AcceptState

/-! ## A hello that arrives in pieces -/

/-- The pieces in which a stream arrives, and how many of them are there when each `read` returns.
The first `read` waits for some bytes, and the second one for some behind those of the length. -/
structure Delivery (stream : Bytes) where
  segments : List Bytes
  whole : segments.flatten = stream
  first : Nat
  second : Nat
  le : first ≤ second
  some_first : (segments.take first).flatten ≠ []
  some_second : 8 < stream.length → 8 < (segments.take second).flatten.length

namespace Delivery

variable {stream : Bytes}

/-- What has arrived when the first `read` returns. -/
def atFirst (d : Delivery stream) : Bytes := (d.segments.take d.first).flatten

def atSecond (d : Delivery stream) : Bytes := (d.segments.take d.second).flatten

/-- The peer that sends the stream, as `handle_accept` sees it: each `read` gets what is there, up to
the size it asks for. -/
def peer (d : Delivery stream) (cfd : Int) (size : Nat) : Peer where
  cfd := cfd
  lenRead := .bytes (d.atFirst.take 8)
  cidRead := .bytes ((d.atSecond.drop 8).take size)

theorem flatten_take_prefix (segments : List Bytes) (k : Nat) :
    (segments.take k).flatten <+: segments.flatten := by
  refine ⟨(segments.drop k).flatten, ?_⟩
  rw [← List.flatten_append, List.take_append_drop]

/-- What has arrived is the beginning of the stream. -/
theorem atFirst_eq_take (d : Delivery stream) : d.atFirst = stream.take d.atFirst.length := by
  have h := flatten_take_prefix d.segments d.first
  rw [d.whole] at h
  exact List.prefix_iff_eq_take.mp h

theorem atSecond_eq_take (d : Delivery stream) : d.atSecond = stream.take d.atSecond.length := by
  have h := flatten_take_prefix d.segments d.second
  rw [d.whole] at h
  exact List.prefix_iff_eq_take.mp h

theorem length_atFirst_le (d : Delivery stream) : d.atFirst.length ≤ d.atSecond.length := by
  have h := flatten_take_prefix (d.segments.take d.second) d.first
  rw [List.take_take, Nat.min_eq_left d.le] at h
  exact h.length_le

variable {cid : ClientId} {rest : Bytes}

/-- All of the length is there when the first `read` returns. -/
theorem sendsLength (d : Delivery (cid.hello ++ rest)) (cfd : Int) (h : 8 ≤ d.atFirst.length) :
    (d.peer cfd cid.bytes.length).SendsLength (8 + cid.bytes.length) := by
  have hfits := cid.fits
  have hlt : 8 + cid.bytes.length < 2 ^ 64 := by
    unfold maxAlloc at hfits
    omega
  have htake : d.atFirst.take 8 = toBytes64 (8 + cid.bytes.length) := by
    rw [d.atFirst_eq_take, List.take_take, Nat.min_eq_left h, ClientId.hello, List.append_assoc,
      List.take_left' (length_toBytes64 _)]
  refine ⟨⟨rfl, rfl⟩, _, rfl, ?_, ?_⟩
  · rw [htake, length_toBytes64]
  · rw [htake, ofBytes64_toBytes64 hlt]

/-- What the second `read` gets of the id. -/
theorem cidRead_eq (d : Delivery (cid.hello ++ rest)) :
    (d.atSecond.drop 8).take cid.bytes.length = cid.bytes.take (d.atSecond.length - 8) := by
  have hdrop : (cid.hello ++ rest).drop 8 = cid.bytes ++ rest := by
    rw [ClientId.hello, List.append_assoc, List.drop_left' (length_toBytes64 _)]
  obtain ⟨k, hk⟩ : ∃ k, d.atSecond.length = k := ⟨_, rfl⟩
  have hsecond := d.atSecond_eq_take
  rw [hk] at hsecond
  have hlen : (cid.bytes.take (k - 8)).length ≤ cid.bytes.length := by
    rw [List.length_take]
    exact Nat.min_le_right _ _
  rw [hk, hsecond, List.drop_take, hdrop, List.take_take,
    List.take_append_of_le_length (Nat.min_le_left _ _), ← List.take_take,
    List.take_of_length_le hlen]

/-- The second `read`, for the size of the id. -/
theorem cidRead_upTo (d : Delivery (cid.hello ++ rest)) (cfd : Int) :
    (d.peer cfd cid.bytes.length).cidRead.upTo cid.bytes.length =
      .bytes (cid.bytes.take (d.atSecond.length - 8)) := by
  rw [← d.cidRead_eq]
  unfold ReadRet.upTo
  split
  · next hzero => rw [hzero, List.take_zero]
  · rfl

end Delivery

namespace AcceptState

variable {s s' : AcceptState} {ignoresPipe : Bool} {expectedCids : List ClientId} {cid : ClientId}
  {rest : Bytes} {cfd : Int}

/-- The client counts the dial as successful, and the server has a connection for its id. -/
structure BothRegistered (s : AcceptState) (ignoresPipe : Bool) (expectedCids : List ClientId)
    (cid : ClientId) (timeout : Int) (a : Attempt) (p : Peer) : Prop where
  client : dialOnce false timeout cid.bytes a = some ⟨.connected, 0⟩
  server : ∃ s', s.handleAccept ignoresPipe expectedCids p = .ok s' ∧
    s.Registers s' cid.bytes p.cfd

/-- A client that is turned away has no connection. -/
theorem not_registers_close (hsame : s'.closed = s.closed) (cid : Bytes) (cfd : Int) :
    ¬ ∃ t, (.ok (s'.close cfd) : Except Escape AcceptState) = .ok t ∧ s.Registers t cid cfd := by
  rintro ⟨t, hok, h⟩
  obtain rfl := Except.ok.inj hok
  have hclosed : s'.closed ++ [cfd] = s.closed := h.closed
  rw [hsame] at hclosed
  simp at hclosed

/-- The server has a connection for the id of the client, if each `read` gets all that it asks
for. -/
theorem registers_iff (hcfd : cfd ≠ -1) (hexpected : ∃ e ∈ expectedCids, e.bytes = cid.bytes)
    (s : AcceptState) (ignoresPipe : Bool) (d : Delivery (cid.hello ++ rest)) :
    (∃ s', s.handleAccept ignoresPipe expectedCids (d.peer cfd cid.bytes.length) = .ok s' ∧
      s.Registers s' cid.bytes cfd) ↔
      8 ≤ d.atFirst.length ∧ 8 + cid.bytes.length ≤ d.atSecond.length := by
  have hfits := cid.fits
  have hacked : (d.peer cfd cid.bytes.length).Acked := ⟨rfl, rfl⟩
  rw [handleAccept_of_acked hcfd hacked]
  by_cases hfirst : 8 ≤ d.atFirst.length
  · have hsize : wrapSub64 (8 + cid.bytes.length) 8 = cid.bytes.length := by
      rw [wrapSub64_of_le (by omega) (by unfold maxAlloc at hfits; omega)]
      omega
    rw [handleHello_of_sendsLength (d.sendsLength cfd hfirst), hsize,
      handleCid_bytes hfits (le_maxString hfits) (d.cidRead_upTo cfd)]
    by_cases hsecond : 8 + cid.bytes.length ≤ d.atSecond.length
    · have hall : cid.bytes.take (d.atSecond.length - 8) = cid.bytes :=
        List.take_of_length_le (by omega)
      rw [hall, if_neg (not_not.mpr rfl), if_pos (by simpa using hexpected)]
      exact iff_of_true ⟨_, rfl, rfl, rfl, rfl⟩ ⟨hfirst, hsecond⟩
    · have hshort : (cid.bytes.take (d.atSecond.length - 8)).length ≠ cid.bytes.length := by
        have hle := d.length_atFirst_le
        rw [List.length_take]
        omega
      rw [if_pos hshort]
      have hclosed : (s.record (cidSize (8 + cid.bytes.length))).closed = s.closed := rfl
      exact iff_of_false (not_registers_close hclosed _ _) fun h => hsecond h.2
  · have hshort : ∀ b, (d.peer cfd cid.bytes.length).lenRead = .bytes b → b.length ≠ 8 := by
      intro b hb
      obtain rfl := ReadRet.bytes.inj hb
      rw [List.length_take]
      omega
    rw [handleHello_of_short (by simp [Delivery.peer]) hshort]
    exact iff_of_false (not_registers_close rfl _ _) fun h => hfirst h.1

/-- **When both ends have a connection.** The client has written its hello, and the server expects
it: all of the length must be there at the first `read`, and all of the id at the second one. -/
theorem bothRegistered_iff {timeout : Int} {a : Attempt}
    (hdial : dialOnce false timeout cid.bytes a = some ⟨.connected, 0⟩) (hcfd : cfd ≠ -1)
    (hexpected : ∃ e ∈ expectedCids, e.bytes = cid.bytes) (s : AcceptState) (ignoresPipe : Bool)
    (d : Delivery (cid.hello ++ rest)) :
    s.BothRegistered ignoresPipe expectedCids cid timeout a (d.peer cfd cid.bytes.length) ↔
      8 ≤ d.atFirst.length ∧ 8 + cid.bytes.length ≤ d.atSecond.length := by
  have hserver := registers_iff hcfd hexpected s ignoresPipe d
  exact ⟨fun h => hserver.mp h.server, fun h => ⟨hdial, hserver.mpr h⟩⟩

/-- The hello of `[7]` arrives in two pieces, and the first one has the length. -/
theorem bothRegistered_iff_small : ∃ d : Delivery (ClientId.hello ⟨[7], by decide⟩ ++ []),
    d.segments = [[9, 0, 0, 0, 0, 0, 0, 0], [7]] ∧
    ({} : AcceptState).BothRegistered false [⟨[7], by decide⟩] ⟨[7], by decide⟩ 1000
      { socketFd := 4, connects := [(.ok, 1)], cidRet := 9 } (d.peer 5 1) := by
  let d : Delivery (ClientId.hello ⟨[7], by decide⟩ ++ []) :=
    ⟨[[9, 0, 0, 0, 0, 0, 0, 0], [7]], by decide, 1, 2, by decide, by decide, by decide⟩
  exact ⟨d, rfl, (bothRegistered_iff (by decide) (by decide) (by decide) _ _ d).mpr (by decide)⟩

/-- **The server may not understand it.** Three bytes of the hello are there at the first `read`; the
client counts the dial as successful. -/
theorem not_bothRegistered : ∃ d : Delivery (ClientId.hello ⟨[7], by decide⟩ ++ []),
    dialOnce false 1000 [7] { socketFd := 4, connects := [(.ok, 1)], cidRet := 9 } =
      some ⟨.connected, 0⟩ ∧
    ¬ ({} : AcceptState).BothRegistered false [⟨[7], by decide⟩] ⟨[7], by decide⟩ 1000
      { socketFd := 4, connects := [(.ok, 1)], cidRet := 9 } (d.peer 5 1) := by
  let d : Delivery (ClientId.hello ⟨[7], by decide⟩ ++ []) :=
    ⟨[[9, 0, 0], [0, 0, 0, 0, 0, 7]], by decide, 1, 2, by decide, by decide, by decide⟩
  refine ⟨d, by decide, ?_⟩
  rintro ⟨-, s', hok, hregisters⟩
  have hclose : ({} : AcceptState).handleAccept false [⟨[7], by decide⟩] (d.peer 5 1) =
      .ok (AcceptState.close {} 5) := rfl
  exact not_registers_close rfl [7] 5 ⟨s', hclose.symm.trans hok, hregisters⟩

end AcceptState

end Rosetta
