import Rosetta.Connection.Halves

/-!
# Frames that are not read back

`send` packs every id and every data, also those that do not come back out of the frame. A `Packet`
is any frame that `send` can have put on the way.

* an id of more than 255 bytes comes back cut: its rest is in front of the data
* with an id of 255 bytes `read` does not return
* a frame of nine bytes stays in the buffer, and `read` returns an empty id and no data
-/

namespace Rosetta

open Lib CycleBuffer

theorem idLenByte_frameBytes_mod (id data : Bytes) :
    idLenByte (frameBytes id data) = (1 + id.length) % 256 := by
  have hget : (frameBytes id data).getD 8 0 = UInt8.ofNat (1 + id.length) := by
    rw [frameBytes, List.getD_eq_getElem?_getD,
      List.getElem?_append_right (by rw [length_toBytes64]), length_toBytes64]
    rfl
  rw [idLenByte, hget, UInt8.toNat_ofNat']

theorem drop_frameBytes (id data : Bytes) (k : Nat) :
    (frameBytes id data).drop (9 + k) = (id ++ data).drop k := by
  have hfront : (toBytes64 (frameLen id data) ++ [UInt8.ofNat (1 + id.length)]).length = 9 := by
    simp
  have hcut : frameBytes id data
      = (toBytes64 (frameLen id data) ++ [UInt8.ofNat (1 + id.length)]) ++ (id ++ data) := by
    simp [frameBytes]
  rw [← List.drop_drop, hcut, List.drop_left' hfront]

/-- Any id and data that `new char[]` has room for. -/
structure Packet where
  id : Bytes
  data : Bytes
  fits : frameLen id data ≤ maxAlloc

namespace Packet

def bytes (p : Packet) : Bytes := frameBytes p.id p.data

def len (p : Packet) : Nat := frameLen p.id p.data

@[simp] theorem length_bytes (p : Packet) : p.bytes.length = p.len := length_frameBytes _ _

/-- The id and the data that `read` finds in the frame. -/
def message (p : Packet) : Bytes × Bytes :=
  (p.id.take (p.id.length % 256), p.id.drop (p.id.length % 256) ++ p.data)

theorem message_of_short {p : Packet} (h : p.id.length ≤ 254) : p.message = (p.id, p.data) := by
  have hmod : p.id.length % 256 = p.id.length := Nat.mod_eq_of_lt (by omega)
  simp [message, hmod]

theorem length_message_le (p : Packet) : p.message.2.length ≤ maxAlloc := by
  have hfits := p.fits
  have hmod := Nat.mod_le p.id.length 256
  unfold frameLen at hfits
  simp only [message, List.length_append, List.length_drop]
  omega

/-- **What `read` finds in a frame.** -/
theorem split_ok {p : Packet} {x : Bytes × Bytes} (h9 : 9 < p.len)
    (h : splitFrame p.len p.bytes = .ok x) : x = p.message := by
  have hbyte : idLenByte p.bytes = (1 + p.id.length) % 256 := idLenByte_frameBytes_mod _ _
  by_cases hs : Splits p.len p.bytes
  · have hpos := hs.1
    rw [splitFrame_of_splits p.length_bytes h9 p.fits hs] at h
    have hlen : idLenByte p.bytes - 1 = p.id.length % 256 := by omega
    have hmod := Nat.mod_le p.id.length 256
    have hid : (p.bytes.drop 9).take (idLenByte p.bytes - 1) = p.message.1 := by
      rw [hlen, bytes, show (9 : Nat) = 9 + 0 from rfl, drop_frameBytes, List.drop_zero,
        List.take_append_of_le_length hmod]
      rfl
    have hdata : p.bytes.drop (8 + idLenByte p.bytes) = p.message.2 := by
      rw [show 8 + idLenByte p.bytes = 9 + p.id.length % 256 by omega, bytes, drop_frameBytes,
        List.drop_append_of_le_length hmod]
      rfl
    rw [hid, hdata] at h
    exact (Except.ok.inj h).symm
  · obtain ⟨e, he⟩ := splitFrame_of_not p.length_bytes h9 hs
    rw [he] at h
    cases h

theorem headLen_take (s : Bytes) : headLen (s.take 8) = headLen s := by
  rw [headLen, headLen, List.take_take, Nat.min_self]

theorem headLen_bytes (p : Packet) : headLen p.bytes = p.bytes.length := by
  have hlt : frameLen p.id p.data < 2 ^ 64 := by
    have hfits := p.fits
    unfold maxAlloc at hfits
    omega
  have h := headLen_frameBytes_append hlt []
  rwa [List.append_nil, ← length_frameBytes] at h

theorem eight_le (p : Packet) : 8 ≤ p.bytes.length := by
  rw [length_bytes, len, frameLen]
  omega

/-- The packets of a connection, as messages in a byte stream. -/
def framing : Framing UInt8 Packet where
  encode := bytes
  head := 8
  len := headLen
  head_pos := Nat.succ_pos 7
  head_le := eight_le
  len_take := headLen_take
  len_encode := headLen_bytes

end Packet

/-- **An iteration of `loop_recv`** takes the first packet, or it takes nothing and has an empty
message in its hand. -/
theorem RecvHalf.loopRecvTake_packet {r r' : RecvHalf} (hi : Inv r.buffer) {rest : Bytes}
    {ps : List Packet} (hstream : r.buffer.contents ++ rest = Packet.framing.stream ps)
    (h : r.loopRecvTake = .ok r') :
    ∃ task ps', r.loop = .wait task ∧ Inv r'.buffer ∧
      r'.buffer.contents ++ rest = Packet.framing.stream ps' ∧
      r' = { r with buffer := r'.buffer, loop := r'.loop } ∧
      ((∃ p, ps = p :: ps' ∧ r'.loop = .busy task p.message) ∨
        (ps = ps' ∧ r'.loop = .busy task ([], []))) := by
  obtain ⟨task, f, hloop, hread, hf, rfl⟩ := loopRecvTake_read h
  obtain ⟨h9, hlen⟩ := canRead_eq_true hi hread
  by_cases hframe : HasFrame r.buffer.contents
  · have hcomplete : Packet.framing.Complete r.buffer.contents :=
      ⟨by rw [length_contents]; exact Nat.le_of_lt (Nat.lt_of_succ_lt h9), hframe.2⟩
    obtain ⟨p, ps', rfl, hsplit, hplen, hrest⟩ := Packet.framing.exists_cons hstream hcomplete
    have hhead : headLen r.buffer.contents = p.len := hplen.trans p.length_bytes
    have htake : r.buffer.contents.take (headLen r.buffer.contents) = p.bytes := by
      rw [hhead, ← p.length_bytes, hsplit]
      exact List.take_left
    rw [readFrame_of_frame hi hframe, htake, hhead] at hf
    obtain ⟨x, hx, hf⟩ := Exec.bind_eq_ok.mp hf
    have hxm := p.split_ok (hhead ▸ hframe.1) hx
    obtain rfl := Except.ok.inj hf
    have hsize : p.len ≤ r.buffer.size := hhead ▸ hlen
    refine ⟨task, ps', hloop, hi.removed hsize, ?_, rfl, .inl ⟨p, rfl, ?_⟩⟩
    · rw [contents_removed hi hsize, ← hhead]
      exact hrest
    · rw [← hxm]
  · rw [readFrame_of_not hi hframe] at hf
    obtain rfl := Except.ok.inj hf
    exact ⟨task, ps, hloop, hi, hstream, rfl, .inr ⟨rfl, rfl⟩⟩

end Rosetta
