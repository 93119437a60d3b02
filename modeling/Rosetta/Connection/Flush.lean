import Rosetta.Connection.Receive
import Rosetta.Connection.Writen

/-!
# Two readers of `send_buffer_`

`loop_send` asks for the size and reads with `send_buffer_mtx_` locked, as `put_into_send_buffer`
writes. `flush_send_buffer`, which `close` calls in the epoll thread, does the same without the
mutex.

* `Taker` — which of the two
* `SendPath` — the ring, the senders and the two takers, with what has gone where
* `Apart` — no step in which they get into each other's way
* `Orderly` — the invariant, which holds as long as all steps are `Apart`
-/

namespace Rosetta

open Lib CycleBuffer

inductive Taker where
  /-- `loop_send` -/
  | loop
  /-- `flush_send_buffer` -/
  | flush
  deriving DecidableEq, Repr

def Taker.other : Taker → Taker
  | .loop => .flush
  | .flush => .loop

/-- Where one of the two is. -/
inductive TakerAt where
  | idle
  /-- the predicate of the wait in `loop_send` is true -/
  | woken
  /-- it has asked for the size and calls `read` -/
  | sized (n : Nat)
  /-- the wait of `read` is over -/
  | waited (n : Nat)
  /-- it calls `writen`; `start` is the place of the first byte in the queue -/
  | holding (start : Nat) (data : Bytes)
  /-- in `writen` of `n` bytes, with `mtx_send_` locked and these left -/
  | writing (n start : Nat) (left : Bytes)
  /-- `flush_send_buffer` has returned -/
  | ended
  deriving DecidableEq

/-- Between the size and the copy. -/
def TakerAt.taking : TakerAt → Bool
  | .sized _ | .waited _ => true
  | _ => false

/-- A stretch of the queue, if there is a byte in it. -/
def stretch (start : Nat) (data : Bytes) : Option (Nat × Bytes) :=
  if data = [] then none else some (start, data)

theorem stretch_eq_some {start start' : Nat} {data data' : Bytes} :
    stretch start data = some (start', data') ↔ data ≠ [] ∧ start' = start ∧ data' = data := by
  unfold stretch
  split
  · next h => simp [h]
  · next h => simp [h, eq_comm]

/-- The bytes that it has still to write, and the place of the first one. -/
def TakerAt.rest : TakerAt → Option (Nat × Bytes)
  | .holding start data | .writing _ start data => stretch start data
  | _ => none

def TakerAt.isWriting : TakerAt → Bool
  | .writing _ _ _ => true
  | _ => false

/-- Behind `writen`. -/
def Taker.next : Taker → TakerAt
  | .loop => .idle
  | .flush => .ended

structure SendPath where
  buffer : CycleBuffer
  /-- the `put_into_send_buffer` that holds `send_buffer_mtx_` -/
  sender : WriterAt := .idle
  taker : Taker → TakerAt := fun _ => .idle
  /-- `::close(fd_)` was called -/
  closed : Bool := false
  /-- what was put into the ring -/
  queued : Bytes := []
  /-- what was copied out, and by whom -/
  takes : List (Taker × Bytes) := []
  /-- the bytes that the socket has accepted, each with its place in the queue -/
  socket : List (UInt8 × Nat) := []

inductive SendPathAct where
  /-- the critical section of `realloc`, in a call of `put_into_send_buffer` -/
  | realloc (data : Bytes)
  | space
  | copy
  /-- the notification, and the end of the call -/
  | notify
  /-- the predicate of the wait in `loop_send` -/
  | test
  | size (who : Taker)
  /-- the wait in `read` -/
  | await (who : Taker)
  /-- the copy in `read` -/
  | take (who : Taker)
  /-- `writen` locks `mtx_send_` -/
  | begin (who : Taker)
  /-- one call of `writeImpl` -/
  | turn (who : Taker) (o : Outcome)
  /-- `nleft` is `0` -/
  | finish (who : Taker)
  | closeFd

namespace SendPath

def setTaker (s : SendPath) (who : Taker) (t : TakerAt) : SendPath :=
  { s with taker := Function.update s.taker who t }

/-- The number of bytes that were copied out. -/
def taken (s : SendPath) : Nat := (s.takes.map Prod.snd).flatten.length

/-- Nobody has locked `send_buffer_mtx_`. -/
def Free (s : SendPath) : Prop :=
  s.sender = .idle ∧ s.taker .loop ≠ .woken ∧ (s.taker .loop).taking = false

instance (s : SendPath) : Decidable s.Free := inferInstanceAs (Decidable (_ ∧ _ ∧ _))

/-- The buffer of `new char[n]` that `read` has copied `data` into. -/
def filled (n : Nat) (data : Bytes) : Bytes := data ++ List.replicate (n - data.length) 0

def step (s : SendPath) : SendPathAct → Option SendPath
  | .realloc data =>
    -- the message is in memory
    if s.Free ∧ data.length ≤ maxAlloc then
      match s.buffer.realloc data.length with
      | .ok b => some { s with buffer := b, sender := .grown data }
      | .error _ => none
    else none
  | .space =>
    match s.sender with
    | .grown data =>
      if data.length ≤ s.buffer.remainSpace then some { s with sender := .spaced data } else none
    | _ => none
  | .copy =>
    match s.sender with
    | .spaced data =>
      match s.buffer.writeCopy data with
      | .ok b => some { s with buffer := b, sender := .copied, queued := s.queued ++ data }
      | .error _ => none
    | _ => none
  | .notify => if s.sender = .copied then some { s with sender := .idle } else none
  | .test =>
    if s.taker .loop = .idle ∧ s.Free ∧ 0 < s.buffer.size then some (s.setTaker .loop .woken)
    else none
  | .size .loop =>
    if s.taker .loop = .woken then some (s.setTaker .loop (.sized s.buffer.size)) else none
  | .size .flush =>
    if s.taker .flush = .idle then
      some (s.setTaker .flush (if 0 < s.buffer.size then .sized s.buffer.size else .ended))
    else none
  | .await who =>
    match s.taker who with
    | .sized n => if n ≤ s.buffer.size then some (s.setTaker who (.waited n)) else none
    | _ => none
  | .take who =>
    match s.taker who with
    | .waited n =>
      match s.buffer.readTake n with
      | .ok (data, b) =>
        some { s.setTaker who (.holding s.taken (filled n data)) with
          buffer := b
          takes := s.takes ++ [(who, data)] }
      | .error _ => none
    | _ => none
  | .begin who =>
    match s.taker who with
    | .holding start data =>
      if (s.taker who.other).isWriting then none
      else some (s.setTaker who (.writing data.length start data))
    | _ => none
  | .turn who o =>
    match s.taker who with
    | .writing n start left =>
      if left = [] ∨ (left.length : Int) < o.ret ∨ (s.closed ∧ 0 ≤ o.ret) then none
      else
        match writenTurn n left o with
        | .again left' =>
          some { s.setTaker who (.writing n (start + o.ret.toNat) left') with
            socket := s.socket ++ (left.take o.ret.toNat).zipIdx start }
        | .done _ => some (s.setTaker who who.next)
    | _ => none
  | .finish who =>
    match s.taker who with
    | .writing _ _ [] => some (s.setTaker who who.next)
    | _ => none
  | .closeFd =>
    if s.taker .flush = .ended ∧ s.closed = false then some { s with closed := true } else none

/-- The other taker still holds bytes that come earlier in the queue. -/
def Overtakes (s : SendPath) (who : Taker) : Bool :=
  match (s.taker who).rest, (s.taker who.other).rest with
  | some (start, _), some (start', _) => start' < start
  | _, _ => false

/-- Neither taker copies while the other one is between its size and its copy, or begins to write
while the other one holds what comes earlier. -/
def Apart (s : SendPath) : SendPathAct → Prop
  | .take who => (s.taker who.other).taking = false
  | .begin who => s.Overtakes who = false
  | _ => True

instance (s : SendPath) : DecidablePred s.Apart
  | .take who => inferInstanceAs (Decidable ((s.taker who.other).taking = false))
  | .begin who => inferInstanceAs (Decidable (s.Overtakes who = false))
  | .realloc _ | .space | .copy | .notify | .test | .size _ | .await _ | .turn _ _ | .finish _ | .closeFd =>
    isTrue trivial

/-! ## The invariant -/

structure Orderly (s : SendPath) : Prop where
  ring : Inv s.buffer
  queue : (s.takes.map Prod.snd).flatten ++ s.buffer.contents = s.queued
  room : ∀ data, s.sender.chunk = some data → data.length ≤ s.buffer.remainSpace
  /-- what a taker has seen is there -/
  enough : ∀ who n, s.taker who = .sized n ∨ s.taker who = .waited n → n ≤ s.buffer.size
  /-- what a taker holds is a stretch of the queue -/
  held : ∀ who start left, (s.taker who).rest = some (start, left) →
    start + left.length ≤ s.taken ∧ (s.queued.drop start).take left.length = left
  disjoint : ∀ who start left start' left', (s.taker who).rest = some (start, left) →
    (s.taker who.other).rest = some (start', left') →
    start + left.length ≤ start' ∨ start' + left'.length ≤ start
  /-- what the other one holds comes later than what is being written -/
  first : ∀ who start left start' left', (s.taker who).isWriting = true →
    (s.taker who).rest = some (start, left) → (s.taker who.other).rest = some (start', left') →
    start + left.length ≤ start'
  order : (s.socket.map Prod.snd).Pairwise (· < ·)
  value : ∀ x i, (x, i) ∈ s.socket → s.queued[i]? = some x ∧ i < s.taken
  front : ∀ x i, (x, i) ∈ s.socket →
    ∀ who start left, (s.taker who).rest = some (start, left) → i < start

theorem orderly_start {n : Nat} (hn : 1 ≤ n) {b : CycleBuffer} (hnew : new n = .ok b) :
    Orderly { buffer := b } := by
  obtain ⟨hring, hempty⟩ := inv_new hn hnew
  constructor <;> simp_all [WriterAt.chunk, TakerAt.rest]

variable {s s' : SendPath} {who : Taker}

@[simp] theorem Taker.other_ne (who : Taker) : who.other ≠ who := by cases who <;> simp [Taker.other]

theorem taker_setTaker (t : TakerAt) (who' : Taker) :
    (s.setTaker who t).taker who' = if who' = who then t else s.taker who' := by
  by_cases h : who' = who
  · subst h
    simp [setTaker]
  · simp [setTaker, h]

/-- The sender goes on, and the ring stays the same queue. -/
theorem Orderly.senderTo (h : s.Orderly) {b : CycleBuffer} {w : WriterAt} (hring : Inv b)
    (hcontents : b.contents = s.buffer.contents)
    (hroom : ∀ data, w.chunk = some data → data.length ≤ b.remainSpace) :
    Orderly { s with buffer := b, sender := w } := by
  have hsize : b.size = s.buffer.size := by
    rw [← length_contents, hcontents, length_contents]
  refine ⟨hring, ?_, hroom, ?_, h.held, h.disjoint, h.first, h.order, h.value, h.front⟩
  · rw [hcontents]
    exact h.queue
  · rw [hsize]
    exact h.enough

theorem Orderly.taken_le (h : s.Orderly) : s.taken ≤ s.queued.length := by
  rw [← h.queue, List.length_append]
  exact Nat.le_add_right _ _

theorem Orderly.copy (h : s.Orderly) {data : Bytes} (hsender : s.sender = .spaced data)
    {b : CycleBuffer} (hb : s.buffer.writeCopy data = .ok b) :
    Orderly { s with buffer := b, sender := .copied, queued := s.queued ++ data } := by
  have hroom := h.room data (by rw [hsender]; rfl)
  obtain ⟨b', hb', hring, hcontents, -⟩ := writeCopy_eq h.ring data hroom
  obtain rfl := Except.ok.inj (hb'.symm.trans hb)
  have htaken := h.taken_le
  refine ⟨hring, ?_, by simp [WriterAt.chunk], ?_, ?_, h.disjoint, h.first, h.order, ?_, h.front⟩
  · simp only [hcontents, ← List.append_assoc, h.queue]
  · intro who n hn
    have hle := h.enough who n hn
    rw [← length_contents, hcontents, List.length_append, length_contents]
    omega
  · intro who start left hleft
    obtain ⟨hle, hstretch⟩ := h.held who start left hleft
    refine ⟨hle, ?_⟩
    rw [List.drop_append_of_le_length (by omega), List.take_append_of_le_length, hstretch]
    rw [List.length_drop]
    have hle' : start + left.length ≤ s.taken := hle
    omega
  · intro x i hmem
    obtain ⟨hget, hlt⟩ := h.value x i hmem
    exact ⟨by rw [List.getElem?_append_left (by omega), hget], hlt⟩

/-- A taker goes on, and holds no other bytes than it did. -/
theorem Orderly.takerTo (h : s.Orderly) {t : TakerAt}
    (hrest : ∀ p, t.rest = some p → (s.taker who).rest = some p)
    (henough : ∀ n, t = .sized n ∨ t = .waited n → n ≤ s.buffer.size)
    (hfirst : ∀ start left start' left', t.isWriting = true → t.rest = some (start, left) →
      (s.taker who.other).rest = some (start', left') → start + left.length ≤ start') :
    (s.setTaker who t).Orderly := by
  have hold : ∀ {who' p}, ((s.setTaker who t).taker who').rest = some p →
      (s.taker who').rest = some p := by
    intro who' p hp
    rw [taker_setTaker] at hp
    split at hp
    · next hwho =>
      rw [hwho]
      exact hrest p hp
    · exact hp
  refine ⟨h.ring, h.queue, h.room, ?_, ?_, ?_, ?_, h.order, h.value, ?_⟩
  · intro who' n hn
    rw [taker_setTaker] at hn
    split at hn
    · exact henough n hn
    · exact h.enough who' n hn
  · intro who' start left hleft
    exact h.held who' start left (hold hleft)
  · intro who' start left start' left' hleft hleft'
    exact h.disjoint who' start left start' left' (hold hleft) (hold hleft')
  · intro who' start left start' left' hw hleft hleft'
    rw [taker_setTaker] at hw hleft
    split at hw
    · next hwho =>
      subst hwho
      exact hfirst start left start' left' hw (by rwa [if_pos rfl] at hleft) (hold hleft')
    · next hwho =>
      rw [if_neg hwho] at hleft
      exact h.first who' start left start' left' hw hleft (hold hleft')
  · intro x i hmem who' start left hleft
    exact h.front x i hmem who' start left (hold hleft)

/-- A taker goes on to a place where it holds nothing. -/
theorem Orderly.takerIdle (h : s.Orderly) {t : TakerAt} (hrest : t.rest = none)
    (henough : ∀ n, t = .sized n ∨ t = .waited n → n ≤ s.buffer.size) :
    (s.setTaker who t).Orderly :=
  h.takerTo (by simp [hrest]) henough (by simp [hrest])

theorem Taker.eq_other {who who' : Taker} (h : who' ≠ who) : who' = who.other := by
  cases who <;> cases who' <;> simp_all [Taker.other]

@[simp] theorem Taker.other_other (who : Taker) : who.other.other = who := by cases who <;> rfl

theorem filled_of_length {n : Nat} {data : Bytes} (h : data.length = n) : filled n data = data := by
  simp [filled, h]

/-- One taker copies out what it has seen, while the other one is not about to. -/
theorem Orderly.take (h : s.Orderly) {n : Nat} (hwaited : s.taker who = .waited n)
    (hother : (s.taker who.other).taking = false) {data : Bytes} {b : CycleBuffer}
    (hread : s.buffer.readTake n = .ok (data, b)) :
    Orderly { s.setTaker who (.holding s.taken (filled n data)) with
      buffer := b
      takes := s.takes ++ [(who, data)] } := by
  have hle := h.enough who n (.inr hwaited)
  obtain ⟨rfl, rfl⟩ := Prod.mk.inj (Except.ok.inj ((readTake_eq h.ring hle).symm.trans hread))
  have hlen : (s.buffer.contents.take n).length = n := by
    rw [List.length_take, length_contents]
    omega
  have hdrop : s.queued.drop s.taken = s.buffer.contents := by
    rw [← h.queue]
    exact List.drop_left
  rw [filled_of_length hlen]
  have htaken : SendPath.taken { s.setTaker who (.holding s.taken (s.buffer.contents.take n)) with
      buffer := s.buffer.removed n
      takes := s.takes ++ [(who, s.buffer.contents.take n)] } = s.taken + n := by
    simp [SendPath.taken, hlen]
  have hcases : ∀ {who' start left},
      ((s.setTaker who (.holding s.taken (s.buffer.contents.take n))).taker who').rest =
          some (start, left) →
        (who' = who ∧ start = s.taken ∧ left = s.buffer.contents.take n) ∨
          (who' = who.other ∧ (s.taker who').rest = some (start, left)) := by
    intro who' start left hrest
    rw [taker_setTaker] at hrest
    split at hrest
    · next hwho =>
      exact .inl ⟨hwho, (stretch_eq_some.mp hrest).2⟩
    · next hwho => exact .inr ⟨Taker.eq_other hwho, hrest⟩
  refine ⟨h.ring.removed hle, ?_, ?_, ?_, ?_, ?_, ?_, h.order, ?_, ?_⟩
  · simp only [List.map_append, List.map_cons, List.map_nil, List.flatten_append, List.flatten_cons,
      List.flatten_nil, List.append_nil, contents_removed h.ring hle, List.append_assoc,
      List.take_append_drop]
    exact h.queue
  · intro d hd
    have hroom := h.room d hd
    simp only [CycleBuffer.removed]
    omega
  · intro who' m hm
    rw [taker_setTaker] at hm
    split at hm
    · simp at hm
    · next hwho =>
      rw [← Taker.eq_other hwho] at hother
      rcases hm with hm | hm <;> simp [hm, TakerAt.taking] at hother
  · intro who' start left hleft
    rw [htaken]
    rcases hcases hleft with ⟨-, rfl, rfl⟩ | ⟨-, hold⟩
    · simp only [hlen]
      exact ⟨Nat.le_refl _, by rw [setTaker, hdrop]⟩
    · obtain ⟨hend, hstretch⟩ := h.held who' start left hold
      exact ⟨by omega, hstretch⟩
  · intro who' start left start' left' hleft hleft'
    rcases hcases hleft with ⟨rfl, rfl, rfl⟩ | ⟨rfl, hold⟩
    · rcases hcases hleft' with ⟨hself, -, -⟩ | ⟨-, hold'⟩
      · exact absurd hself (Taker.other_ne _)
      · exact .inr (h.held _ start' left' hold').1
    · rcases hcases hleft' with ⟨-, rfl, rfl⟩ | ⟨hself, -⟩
      · exact .inl (h.held _ start left hold).1
      · rw [Taker.other_other] at hself
        exact absurd hself.symm (Taker.other_ne who)
  · intro who' start left start' left' hw hleft hleft'
    rw [taker_setTaker] at hw hleft
    split at hw
    · cases hw
    · next hwho =>
      rw [if_neg hwho] at hleft
      rcases hcases hleft' with ⟨-, rfl, -⟩ | ⟨hself, -⟩
      · exact (h.held who' start left hleft).1
      · rw [Taker.eq_other hwho, Taker.other_other] at hself
        exact absurd hself.symm (Taker.other_ne who)
  · intro x i hmem
    obtain ⟨hget, hlt⟩ := h.value x i hmem
    exact ⟨hget, by rw [htaken]; omega⟩
  · intro x i hmem who' start left hleft
    rcases hcases hleft with ⟨-, rfl, -⟩ | ⟨-, hold⟩
    · exact (h.value x i hmem).2
    · exact h.front x i hmem who' start left hold

/-- One taker begins to write, and the other one holds nothing that comes earlier. -/
theorem Orderly.begin (h : s.Orderly) {start : Nat} {data : Bytes}
    (hholding : s.taker who = .holding start data) (hfirst : s.Overtakes who = false) :
    (s.setTaker who (.writing data.length start data)).Orderly := by
  have hown : (s.taker who).rest = stretch start data := by rw [hholding]; rfl
  refine h.takerTo (fun p hp => by rw [hown]; exact hp) (by simp) ?_
  intro st left st' left' _ hleft hleft'
  have hleft : stretch start data = some (st, left) := hleft
  rw [hleft] at hown
  have hlater : ¬ st' < st := by simpa [Overtakes, hown, hleft'] using hfirst
  rcases h.disjoint who st left st' left' hown hleft' with hbefore | hbehind
  · exact hbefore
  · -- what the other one holds is not empty
    have hpos : 0 < left'.length := by
      cases hat : s.taker who.other with
      | holding st₁ d₁ | writing _ st₁ d₁ =>
        rw [hat] at hleft'
        obtain ⟨hne, -, rfl⟩ := stretch_eq_some.mp hleft'
        exact List.length_pos_iff.mpr hne
      | idle | woken | sized _ | waited _ | ended =>
        rw [hat] at hleft'
        cases hleft'
    omega

/-- The socket accepts the first bytes of a stretch of the queue. -/
theorem getElem?_of_mem_zipIdx {q left : Bytes} {start k : Nat}
    (hstretch : (q.drop start).take left.length = left) {x : UInt8} {i : Nat}
    (hmem : (x, i) ∈ (left.take k).zipIdx start) :
    q[i]? = some x ∧ start ≤ i ∧ i < start + min k left.length := by
  obtain ⟨hle, hget⟩ := List.mk_mem_zipIdx_iff_le_and_getElem?_sub.mp hmem
  have hlt := (List.getElem?_eq_some_iff.mp hget).1
  rw [List.length_take] at hlt
  refine ⟨?_, hle, by omega⟩
  rw [List.getElem?_take_of_lt (by omega), ← hstretch, List.getElem?_take_of_lt (by omega),
    List.getElem?_drop, Nat.add_sub_cancel' hle] at hget
  exact hget

/-- One taker writes on. -/
theorem Orderly.turn (h : s.Orderly) {n start : Nat} {left left' : Bytes} {o : Outcome}
    (hw : s.taker who = .writing n start left) (hne : left ≠ []) (hret : o.ret ≤ left.length)
    (hagain : writenTurn n left o = .again left') :
    Orderly { s.setTaker who (.writing n (start + o.ret.toNat) left') with
      socket := s.socket ++ (left.take o.ret.toNat).zipIdx start } := by
  have hown : (s.taker who).rest = some (start, left) := by
    rw [hw]
    exact stretch_eq_some.mpr ⟨hne, rfl, rfl⟩
  obtain ⟨hend, hstretch⟩ := h.held who start left hown
  have happ := Line.take_append_of_again hagain
  have hk : o.ret.toNat ≤ left.length := by omega
  have hlen : left'.length = left.length - o.ret.toNat := by
    have hsum := congrArg List.length happ
    rw [List.length_append, List.length_take] at hsum
    omega
  have hdrop : left' = left.drop o.ret.toNat := by
    rw [← happ, List.drop_left' (by rw [List.length_take]; omega)]
  have hcases : ∀ {who' st l},
      ((s.setTaker who (.writing n (start + o.ret.toNat) left')).taker who').rest = some (st, l) →
        (who' = who ∧ st = start + o.ret.toNat ∧ l = left') ∨
          (who' = who.other ∧ (s.taker who').rest = some (st, l)) := by
    intro who' st l hrest
    rw [taker_setTaker] at hrest
    split at hrest
    · next hwho =>
      exact .inl ⟨hwho, (stretch_eq_some.mp hrest).2⟩
    · next hwho => exact .inr ⟨Taker.eq_other hwho, hrest⟩
  refine ⟨h.ring, h.queue, h.room, ?_, ?_, ?_, ?_, ?_, ?_, ?_⟩
  · intro who' m hm
    rw [taker_setTaker] at hm
    split at hm
    · simp at hm
    · exact h.enough who' m hm
  · intro who' st l hleft
    rcases hcases hleft with ⟨-, rfl, rfl⟩ | ⟨-, hold⟩
    · refine ⟨?_, ?_⟩
      · show start + o.ret.toNat + l.length ≤ s.taken
        omega
      · show (s.queued.drop (start + o.ret.toNat)).take l.length = l
        rw [← List.drop_drop, hlen, hdrop, ← List.drop_take, hstretch]
    · exact h.held who' st l hold
  · intro who' st l st' l' hleft hleft'
    rcases hcases hleft with ⟨rfl, rfl, rfl⟩ | ⟨rfl, hold⟩
    · rcases hcases hleft' with ⟨hself, -, -⟩ | ⟨-, hold'⟩
      · exact absurd hself (Taker.other_ne _)
      · rcases h.disjoint who' start left st' l' hown hold' with hd | hd
        · exact .inl (by omega)
        · exact .inr (by omega)
    · rcases hcases hleft' with ⟨-, rfl, rfl⟩ | ⟨hself, -⟩
      · rcases h.disjoint who start left st l hown hold with hd | hd
        · exact .inr (by omega)
        · exact .inl (by omega)
      · rw [Taker.other_other] at hself
        exact absurd hself.symm (Taker.other_ne who)
  · intro who' st l st' l' hw' hleft hleft'
    rcases hcases hleft with ⟨rfl, rfl, rfl⟩ | ⟨rfl, hold⟩
    · rcases hcases hleft' with ⟨hself, -, -⟩ | ⟨-, hold'⟩
      · exact absurd hself (Taker.other_ne _)
      · have hlater := h.first who' start left st' l' (by rw [hw]; rfl) hown hold'
        omega
    · -- `mtx_send_` is locked by one of them
      rw [taker_setTaker, if_neg (Taker.other_ne who)] at hw'
      have hbefore := h.first who.other st l start left hw' hold (by rw [Taker.other_other, hown])
      have hbehind := h.first who start left st l (by rw [hw]; rfl) hown hold
      have hpos := List.length_pos_iff.mpr hne
      omega
  · rw [List.map_append, List.pairwise_append, List.zipIdx_map_snd]
    refine ⟨h.order, List.pairwise_lt_range', ?_⟩
    intro i hi j hj
    obtain ⟨⟨x, i'⟩, hmem, rfl⟩ := List.mem_map.mp hi
    have hstart := h.front x i' hmem who start left hown
    have hle := (List.mem_range'_1.mp hj).1
    show i' < j
    omega
  · intro x i hmem
    rcases List.mem_append.mp hmem with hmem | hmem
    · exact h.value x i hmem
    · obtain ⟨hget, -, hlt⟩ := getElem?_of_mem_zipIdx hstretch hmem
      refine ⟨hget, ?_⟩
      show i < s.taken
      omega
  · intro x i hmem who' st l hleft
    rcases List.mem_append.mp hmem with hmem | hmem
    · rcases hcases hleft with ⟨-, rfl, -⟩ | ⟨-, hold⟩
      · exact Nat.lt_add_right _ (h.front x i hmem who start left hown)
      · exact h.front x i hmem who' st l hold
    · obtain ⟨-, -, hlt⟩ := getElem?_of_mem_zipIdx hstretch hmem
      rcases hcases hleft with ⟨-, rfl, -⟩ | ⟨rfl, hold⟩
      · omega
      · have hlater := h.first who start left st l (by rw [hw]; rfl) hown hold
        omega

/-- **One step** that keeps the two takers apart. -/
theorem orderly_step {a : SendPathAct} (h : s.Orderly) (hapart : s.Apart a)
    (hstep : s.step a = some s') : s'.Orderly := by
  cases a with
  | realloc data =>
    simp only [step] at hstep
    split at hstep
    · next hguard =>
      split at hstep
      · next b hb =>
        obtain rfl := Option.some.inj hstep
        obtain ⟨hring, hcontents, hroom⟩ := realloc_ok h.ring hguard.2 hb
        refine h.senderTo hring hcontents fun d hd => ?_
        rwa [← Option.some.inj hd]
      · cases hstep
    · cases hstep
  | space =>
    simp only [step] at hstep
    split at hstep
    · next data hsender =>
      split at hstep
      · next hroom =>
        obtain rfl := Option.some.inj hstep
        refine h.senderTo h.ring rfl fun d hd => ?_
        rwa [← Option.some.inj hd]
      · cases hstep
    · cases hstep
  | copy =>
    simp only [step] at hstep
    split at hstep
    · next data hsender =>
      split at hstep
      · next b hb =>
        obtain rfl := Option.some.inj hstep
        exact h.copy hsender hb
      · cases hstep
    · cases hstep
  | notify =>
    simp only [step, Option.ite_none_right_eq_some, Option.some.injEq] at hstep
    obtain ⟨-, rfl⟩ := hstep
    exact h.senderTo h.ring rfl (by simp [WriterAt.chunk])
  | test =>
    simp only [step, Option.ite_none_right_eq_some, Option.some.injEq] at hstep
    obtain ⟨-, rfl⟩ := hstep
    exact h.takerIdle rfl (by simp)
  | size who =>
    cases who with
    | loop =>
      simp only [step, Option.ite_none_right_eq_some, Option.some.injEq] at hstep
      obtain ⟨-, rfl⟩ := hstep
      exact h.takerIdle rfl (by simp)
    | flush =>
      simp only [step, Option.ite_none_right_eq_some, Option.some.injEq] at hstep
      obtain ⟨-, rfl⟩ := hstep
      by_cases hpos : 0 < s.buffer.size
      · rw [if_pos hpos]
        exact h.takerIdle rfl (by simp)
      · rw [if_neg hpos]
        exact h.takerIdle rfl (by simp)
  | await who =>
    simp only [step] at hstep
    split at hstep
    · next n hsized =>
      simp only [Option.ite_none_right_eq_some, Option.some.injEq] at hstep
      obtain ⟨hle, rfl⟩ := hstep
      refine h.takerIdle rfl fun m hm => ?_
      obtain rfl : n = m := by simpa using hm
      exact hle
    · cases hstep
  | take who =>
    simp only [step] at hstep
    split at hstep
    · next n hwaited =>
      split at hstep
      · next data b hread =>
        obtain rfl := Option.some.inj hstep
        exact h.take hwaited hapart hread
      · cases hstep
    · cases hstep
  | begin who =>
    simp only [step] at hstep
    split at hstep
    · next start data hholding =>
      split at hstep
      · cases hstep
      · obtain rfl := Option.some.inj hstep
        exact h.begin hholding hapart
    · cases hstep
  | turn who o =>
    simp only [step] at hstep
    split at hstep
    · next n start left hw =>
      split at hstep
      · cases hstep
      · next hguard =>
        obtain ⟨hne, hguard⟩ := not_or.mp hguard
        have hret := Int.not_lt.mp (not_or.mp hguard).1
        split at hstep
        · next left' hagain =>
          obtain rfl := Option.some.inj hstep
          exact h.turn hw hne hret hagain
        · obtain rfl := Option.some.inj hstep
          cases who with
          | loop => exact h.takerIdle rfl (by simp [Taker.next])
          | flush => exact h.takerIdle rfl (by simp [Taker.next])
    · cases hstep
  | finish who =>
    simp only [step] at hstep
    split at hstep
    · obtain rfl := Option.some.inj hstep
      cases who with
      | loop => exact h.takerIdle rfl (by simp [Taker.next])
      | flush => exact h.takerIdle rfl (by simp [Taker.next])
    · cases hstep
  | closeFd =>
    simp only [step, Option.ite_none_right_eq_some, Option.some.injEq] at hstep
    obtain ⟨-, rfl⟩ := hstep
    exact ⟨h.1, h.2, h.3, h.4, h.5, h.6, h.7, h.8, h.9, h.10⟩

/-! ## Closing a connection -/

/-- What closing a connection does to the bytes in `send_buffer_`. -/
structure CleanClose (s : SendPath) : Prop where
  /-- nobody waits in `read` for more than there is -/
  noWait : ∀ who n, s.taker who = .sized n → n ≤ s.buffer.size
  /-- each byte is taken once, or still there -/
  once : (s.takes.map Prod.snd).flatten ++ s.buffer.contents = s.queued
  space : s.buffer.remainSpace ≤ s.buffer.n
  /-- the socket gets bytes of the queue, in the order of the queue -/
  order : (s.socket.map Prod.snd).Pairwise (· < ·)
  value : ∀ x i, (x, i) ∈ s.socket → s.queued[i]? = some x

theorem Orderly.cleanClose (h : s.Orderly) : s.CleanClose where
  noWait who n hn := h.enough who n (.inl hn)
  once := h.queue
  space := h.ring.remain_le
  order := h.order
  value x i hmem := (h.value x i hmem).1

/-- **Closing neither blocks nor steals bytes as long as the two takers stay apart.** -/
theorem clean_close {n : Nat} (hn : 1 ≤ n) {b : CycleBuffer} (hnew : new n = .ok b)
    {acts : List SendPathAct} (hapart : AllSteps step Apart { buffer := b } acts)
    (hrun : run step { buffer := b } acts = some s) : s.CleanClose :=
  (run_invariant_of (fun _ _ _ => orderly_step) (orderly_start hn hnew) hapart hrun).cleanClose

/-- `loop_send` has taken two bytes and writes the first one when the connection is closed. A third
byte has come in, which `flush_send_buffer` takes and writes behind the other two. -/
theorem clean_close_small : ∃ b acts s, new (1024 * 1024 * 128) = .ok b ∧
    AllSteps step Apart { buffer := b } acts ∧ run step { buffer := b } acts = some s ∧
    s.closed = true ∧ s.socket = [(1, 0), (2, 1), (3, 2)] ∧ s.CleanClose := by
  obtain ⟨b, hb⟩ : ∃ b, new (1024 * 1024 * 128) = .ok b := ⟨_, rfl⟩
  obtain ⟨acts, s, hapart, hrun, hclosed, hsocket⟩ : ∃ acts s,
      AllSteps step Apart { buffer := b } acts ∧ run step { buffer := b } acts = some s ∧
      s.closed = true ∧ s.socket = [(1, 0), (2, 1), (3, 2)] := by
    obtain rfl := Except.ok.inj hb
    exact ⟨[.realloc [1, 2], .space, .copy, .notify, .test, .size .loop, .await .loop, .take .loop,
      .realloc [3], .space, .copy, .notify, .begin .loop, .turn .loop { ret := 1 }, .size .flush,
      .await .flush, .take .flush, .turn .loop { ret := 1 }, .finish .loop, .begin .flush,
      .turn .flush { ret := 1 }, .finish .flush, .closeFd], _, by decide, rfl, rfl, rfl⟩
  exact ⟨b, acts, s, hb, hapart, hrun, hclosed, hsocket,
    clean_close (by decide) hb hapart hrun⟩

/-- `flush_send_buffer` sees a byte, `loop_send` takes it, and `flush_send_buffer` waits for it. If it
is in `read` already, and another byte comes in, it takes more than there is. -/
theorem not_clean_close : ∃ b, new (1024 * 1024 * 128) = .ok b ∧
    (∃ acts s, run step { buffer := b } acts = some s ∧ s.taker .flush = .sized 1 ∧
      s.buffer.size = 0 ∧ s.step (.await .flush) = none ∧ ¬ s.CleanClose) ∧
    ∃ acts s, run step { buffer := b } acts = some s ∧ s.buffer.n < s.buffer.remainSpace ∧
      ¬ s.CleanClose := by
  refine ⟨_, rfl, ⟨[.realloc [1], .space, .copy, .notify, .size .flush, .test, .size .loop,
    .await .loop, .take .loop], _, rfl, rfl, rfl, rfl, fun h => ?_⟩, [.realloc [1, 2], .space,
    .copy, .notify, .size .flush, .await .flush, .test, .size .loop, .await .loop, .take .loop,
    .realloc [3], .space, .copy, .take .flush], _, rfl, by decide, fun h => ?_⟩
  · exact absurd (h.noWait .flush 1 rfl) (by decide)
  · exact absurd h.space (by decide)

end SendPath

end Rosetta
