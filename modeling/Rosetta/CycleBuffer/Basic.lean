import Rosetta.Lib.Window
import Rosetta.Machine

/-!
# `cycle_buffer`

The ring buffer behind `buffer_`, `send_buffer_` and every entry of `mapbuffer_`
(`cycle_buffer.h`, `cycle_buffer.cpp`).

Each function follows its C++ body branch by branch. A `memcpy` is checked against the block it
touches, and a position or length obtained by subtraction is checked for underflow, so a run that
would leave the block ends in a `Fault` instead of a value.

`read(char*, length)`, `peek` and `write` take `mtx_` twice, once to wait and once to copy. The
second part is a definition of its own (`readTake`, `peekCopy`, `writeCopy`).
-/

namespace Rosetta

open Lib

structure CycleBuffer where
  /-- read position -/
  rPos : Nat := 0
  /-- write position -/
  wPos : Nat := 0
  /-- buffer size -/
  n : Nat
  remainSpace : Nat
  /-- the block; cells from `n` on are not part of it -/
  buffer : Nat → UInt8

namespace CycleBuffer

/-- `cycle_buffer(n)`. The cells of a fresh block are indeterminate; here they are `0`. -/
def new (n : Nat) : Exec CycleBuffer := do
  newChar n
  .ok { n := n, remainSpace := n, buffer := fun _ => 0 }

def size (b : CycleBuffer) : Nat := wrapSub64 b.n b.remainSpace

/-- `memcpy(_, buffer_ + pos, len)`. -/
def copyOut (b : CycleBuffer) (pos len : Nat) : Exec Bytes :=
  if pos + len ≤ b.n then .ok (cells b.buffer pos len) else .error .outOfBounds

/-- `memcpy(buffer_ + pos, data, data.size())`. -/
def copyIn (b : CycleBuffer) (pos : Nat) (data : Bytes) : Exec CycleBuffer :=
  if pos + data.length ≤ b.n then .ok { b with buffer := overwrite b.buffer pos data }
  else .error .outOfBounds

/-! ## Looking at the head -/

/-- `can_read(length)`. -/
def canReadLen (b : CycleBuffer) (length : Nat) : Bool := decide (length ≤ b.size)

/-- The copying half of `peek`. -/
def peekCopy (b : CycleBuffer) (length : Nat) : Exec Bytes :=
  if b.wPos ≤ b.rPos ∧ 0 < b.size then do
    let last ← sub64 b.n length
    if b.rPos ≤ last then
      b.copyOut b.rPos length
    else do
      let first ← sub64 b.n b.rPos
      let rest ← sub64 length first
      let data₁ ← b.copyOut b.rPos first
      let data₂ ← b.copyOut 0 rest
      .ok (data₁ ++ data₂)
  else if b.rPos < b.wPos then
    b.copyOut b.rPos length
  else
    .ok []

def peek (b : CycleBuffer) (length : Nat) : Exec Bytes :=
  if length ≤ b.size then b.peekCopy length else .error .blocked

/-- The eight bytes at the head when they may wrap, as `can_read()` and `read` both fetch them. -/
def lenBytes (b : CycleBuffer) : Exec Bytes := do
  let last ← sub64 b.n 8
  if b.rPos ≤ last then
    b.copyOut b.rPos 8
  else do
    let remainLen ← sub64 b.n b.rPos
    let rest ← sub64 8 remainLen
    let dlen₁ ← b.copyOut b.rPos remainLen
    let dlen₂ ← b.copyOut 0 rest
    .ok (dlen₁ ++ dlen₂)

/-- `can_read()`: is a whole frame there? -/
def canRead (b : CycleBuffer) : Exec Bool :=
  if 9 < b.size then
    if b.rPos < b.wPos then do
      let len := ofBytes64 (← b.copyOut b.rPos 8)
      .ok (decide (len ≤ b.size))
    else if 0 < b.size then do
      let len := ofBytes64 (← b.lenBytes)
      .ok (decide (len ≤ b.size))
    else
      .ok false
  else
    .ok false

/-! ## Reading a frame -/

/-- The locals `len` and `tmp` of the frame reader: the length prefix, and the frame if it is there. -/
def fetchFrame (b : CycleBuffer) : Exec (Nat × Bytes) :=
  if b.rPos < b.wPos then do
    let len := ofBytes64 (← b.copyOut b.rPos 8)
    if len ≤ b.size then do
      resize len
      let tmp ← b.copyOut b.rPos len
      .ok (len, tmp)
    else
      .ok (len, [])
  else if 0 < b.size then do
    let len := ofBytes64 (← b.lenBytes)
    if len ≤ b.size then do
      resize len
      let first ← sub64 b.n b.rPos
      if len ≤ first then do
        let tmp ← b.copyOut b.rPos len
        .ok (len, tmp)
      else do
        let rest ← sub64 len first
        let tmp₁ ← b.copyOut b.rPos first
        let tmp₂ ← b.copyOut 0 rest
        .ok (len, tmp₁ ++ tmp₂)
    else
      .ok (len, [])
  else
    .ok (0, [])

/-- `memcpy(&s[0], &tmp[0] + pos, len)` out of the local string `tmp`. -/
def substr (tmp : Bytes) (pos len : Nat) : Exec Bytes :=
  if pos + len ≤ tmp.length then .ok ((tmp.drop pos).take len) else .error .outOfBounds

/--
Takes the id and the data out of `tmp`.

`len2 - sizeof(uint8_t)` and `len - sizeof(uint64_t) - len2` are `size_t` subtractions: they wrap,
and `resize` then throws.
-/
def splitFrame (len : Nat) (tmp : Bytes) : Exec (Bytes × Bytes) :=
  match tmp[8]? with
  | none => .error .outOfBounds
  | some len2 => do
    let idSize := wrapSub64 len2.toNat 1
    resize idSize
    let id ← substr tmp 9 idSize
    let dataSize := wrapSub64 (wrapSub64 len 8) len2.toNat
    resize dataSize
    let data ← substr tmp (8 + len2.toNat) dataSize
    .ok (id, data)

/-- What `read(id, data, node_id)` returns and leaves behind. -/
structure FrameRead where
  ret : Nat
  id : Bytes
  data : Bytes
  buf : CycleBuffer

/-- `read(id, data, node_id)`. -/
def readFrame (b : CycleBuffer) : Exec FrameRead :=
  if 9 < b.size then do
    let (len, tmp) ← b.fetchFrame
    if 9 < tmp.length then do
      let (id, data) ← splitFrame len tmp
      .ok ⟨tmp.length, id, data, { b with
        rPos := add64 b.rPos len % b.n, remainSpace := add64 b.remainSpace len }⟩
    else
      .ok ⟨0, [], [], b⟩
  else
    .ok ⟨0, [], [], b⟩

/-! ## Reading bytes -/

/-- The copying half of `read(data, length)`. -/
def readTake (b : CycleBuffer) (length : Nat) : Exec (Bytes × CycleBuffer) :=
  if b.wPos ≤ b.rPos ∧ 0 < b.size then do
    let last ← sub64 b.n length
    if b.rPos ≤ last then do
      let data ← b.copyOut b.rPos length
      .ok (data, { b with
        rPos := add64 b.rPos length % b.n, remainSpace := add64 b.remainSpace length })
    else do
      let first ← sub64 b.n b.rPos
      let rest ← sub64 length first
      let data₁ ← b.copyOut b.rPos first
      let data₂ ← b.copyOut 0 rest
      .ok (data₁ ++ data₂, { b with
        rPos := rest, remainSpace := add64 b.remainSpace length })
  else if b.rPos < b.wPos then do
    let data ← b.copyOut b.rPos length
    .ok (data, { b with
      rPos := add64 b.rPos length, remainSpace := add64 b.remainSpace length })
  else
    .ok ([], b)

/-- `read(data, length)`. -/
def read (b : CycleBuffer) (length : Nat) : Exec (Bytes × CycleBuffer) :=
  if length ≤ b.size then b.readTake length else .error .blocked

/-! ## Writing -/

/-- The capacity that `realloc(length)` asks for. -/
def newCapacity (b : CycleBuffer) (length : Nat) : Nat :=
  mul64 b.n (add64 (length / b.n) 2)

/-- The new block gets the queued bytes at its start. -/
def realloc (b : CycleBuffer) (length : Nat) : Exec CycleBuffer :=
  if length ≤ b.remainSpace then
    .ok b
  else do
    let newN := b.newCapacity length
    newChar newN
    let havesize := b.size
    let remain ← sub64 newN havesize
    let fresh : CycleBuffer :=
      { rPos := 0, wPos := havesize, n := newN, remainSpace := remain, buffer := fun _ => 0 }
    if b.rPos < b.wPos then do
      let data ← b.copyOut b.rPos havesize
      fresh.copyIn 0 data
    else if 0 < havesize then do
      let first ← sub64 b.n b.rPos
      let data₁ ← b.copyOut b.rPos first
      let fresh ← fresh.copyIn 0 data₁
      if first < havesize then do
        let rest ← sub64 havesize first
        let data₂ ← b.copyOut 0 rest
        fresh.copyIn first data₂
      else
        .ok fresh
    else
      .ok fresh

/-- Where `write` puts the bytes, and the write position it leaves. -/
def writePlace (b : CycleBuffer) (data : Bytes) : Exec CycleBuffer :=
  if b.rPos ≤ b.wPos ∧ 0 < b.remainSpace then do
    let last ← sub64 b.n data.length
    if b.wPos ≤ last then do
      let b' ← b.copyIn b.wPos data
      .ok { b' with wPos := add64 b.wPos data.length % b.n }
    else do
      let first ← sub64 b.n b.wPos
      let rest ← sub64 data.length first
      let b₁ ← b.copyIn b.wPos (data.take first)
      let b₂ ← b₁.copyIn 0 (data.drop first)
      .ok { b₂ with wPos := rest }
  else if b.wPos < b.rPos then do
    let b' ← b.copyIn b.wPos data
    .ok { b' with wPos := add64 b.wPos data.length }
  else
    -- "buffer is full"
    .ok b

/-- The copying half of `write`. -/
def writeCopy (b : CycleBuffer) (data : Bytes) : Exec CycleBuffer := do
  let b' ← b.writePlace data
  let remain ← sub64 b'.remainSpace data.length
  .ok { b' with remainSpace := remain }

/-- `write(data, length)`. -/
def write (b : CycleBuffer) (data : Bytes) : Exec CycleBuffer := do
  let b ← b.realloc data.length
  if data.length ≤ b.remainSpace then b.writeCopy data else .error .blocked

end CycleBuffer

end Rosetta
