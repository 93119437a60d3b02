import Rosetta.Lib.Heap
import Rosetta.Machine

/-!
# The memory behind the C structures

The getters of a channel hand out pointers to what they have allocated. A pointer is followed only
to a block that is there and that has been written.

* `Block` — what one `new` allocates
* `Writing` — a computation that allocates and writes
* `Table` — a structure and its array of pointers
-/

namespace Rosetta

open Lib

/-- What one `new` allocates. A cell of an array is `none` as long as nothing was written to it. -/
inductive Block where
  /-- `char[]` -/
  | chars (cells : List (Option UInt8))
  /-- `char*[]`, `NodeIDPair*[]` -/
  | pointers (cells : List (Option Nat))
  /-- `NodeIDVec`, `NodeIDMap`: the count, and `node_ids` or `pairs` -/
  | nodes (nodeCount : Int) (elements : Option Nat)
  /-- `NodeIDPair` -/
  | pair (nodeId : Option Nat) (partyId : Int)

abbrev Memory := Heap Block

abbrev Writing := StateT Memory Exec

/-- The value of something that may not have been written. -/
def written {α : Type} : Option α → Exec α
  | some x => .ok x
  | none => .error .outOfBounds

namespace Memory

def chars (m : Memory) (p : Nat) : Exec (List (Option UInt8)) :=
  match m.get p with
  | some (.chars cells) => .ok cells
  | _ => .error .outOfBounds

def nodeCount (m : Memory) (p : Nat) : Exec Int :=
  match m.get p with
  | some (.nodes nodeCount _) => .ok nodeCount
  | _ => .error .outOfBounds

/-- `p->node_ids`, `p->pairs`. -/
def elements (m : Memory) (p : Nat) : Exec Nat :=
  match m.get p with
  | some (.nodes _ elements) => written elements
  | _ => .error .outOfBounds

/-- `p->node_ids[i]`, `p->pairs[i]`. -/
def element (m : Memory) (p i : Nat) : Exec Nat := do
  match m.get (← m.elements p) with
  | some (.pointers cells) => written cells[i]?.join
  | _ => .error .outOfBounds

def nodeId (m : Memory) (p : Nat) : Exec Nat :=
  match m.get p with
  | some (.pair nodeId _) => written nodeId
  | _ => .error .outOfBounds

def partyId (m : Memory) (p : Nat) : Exec Int :=
  match m.get p with
  | some (.pair _ partyId) => .ok partyId
  | _ => .error .outOfBounds

end Memory

namespace Writing

def reading {α : Type} (f : Memory → Exec α) : Writing α := fun m => do .ok (← f m, m)

/-- `new`, which returns. -/
def new (b : Block) : Writing Nat := fun m => .ok (m.next, m.alloc b)

def store (p : Nat) (f : Block → Option Block) : Writing Unit := fun m =>
  match m.modify p f with
  | some m' => .ok ((), m')
  | none => .error .outOfBounds

def memset (p : Nat) (c : UInt8) (n : Nat) : Writing Unit := store p fun
  | .chars cells =>
    if n ≤ cells.length then some (.chars (List.replicate n (some c) ++ cells.drop n)) else none
  | _ => none

def memcpy (p : Nat) (src : Bytes) : Writing Unit := store p fun
  | .chars cells =>
    if src.length ≤ cells.length then some (.chars (src.map some ++ cells.drop src.length))
    else none
  | _ => none

/-- `p->node_count = n`: a `size_t` becomes an `int`. -/
def setNodeCount (p n : Nat) : Writing Unit := store p fun
  | .nodes _ elements => some (.nodes ((n : Int).bmod (2 ^ 32)) elements)
  | _ => none

def setElements (p q : Nat) : Writing Unit := store p fun
  | .nodes nodeCount _ => some (.nodes nodeCount (some q))
  | _ => none

/-- `p->node_ids[i] = q`, `p->pairs[i] = q`. -/
def setElement (p i q : Nat) : Writing Unit := do
  store (← reading (·.elements p)) fun
    | .pointers cells =>
      if i < cells.length then some (.pointers (cells.set i (some q))) else none
    | _ => none

def setNodeId (p q : Nat) : Writing Unit := store p fun
  | .pair _ partyId => some (.pair (some q) partyId)
  | _ => none

def setPartyId (p : Nat) (n : Int) : Writing Unit := store p fun
  | .pair nodeId _ => some (.pair nodeId n)
  | _ => none

/-! ## What the operations do -/

theorem bind_of_ok {α β : Type} {x : Writing α} {f : α → Writing β} {m m' : Memory} {a : α}
    (hx : x m = .ok (a, m')) : (x >>= f) m = f a m' := by
  show (x m >>= fun r => f r.1 r.2) = f a m'
  rw [hx]
  rfl

theorem bind_eq_ok {α β : Type} {x : Writing α} {f : α → Writing β} {m : Memory}
    {r : β × Memory} : (x >>= f) m = .ok r ↔ ∃ a m', x m = .ok (a, m') ∧ f a m' = .ok r := by
  show (x m >>= fun r => f r.1 r.2) = .ok r ↔ _
  rw [Exec.bind_eq_ok, Prod.exists]

section Operations

variable {m : Memory} {p q array i n : Nat} {count party : Int} {str : Bytes}

theorem reading_ok {α : Type} {f : Memory → Exec α} {x : α} (h : f m = .ok x) :
    reading f m = .ok (x, m) := by
  rw [reading, h]
  rfl

theorem store_ok {f : Block → Option Block} {b b' : Block} (hp : m.get p = some b)
    (hf : f b = some b') : store p f m = .ok ((), m.set p b') := by
  rw [store, Heap.modify_eq_some hp hf]

theorem setNodeCount_ok {elements : Option Nat} (hp : m.get p = some (.nodes count elements))
    (hn : n < 2 ^ 31) : setNodeCount p n m = .ok ((), m.set p (.nodes n elements)) := by
  have hint : (n : Int).bmod (2 ^ 32) = n := Int.bmod_eq_of_le (by omega) (by omega)
  exact store_ok hp (by rw [hint])

theorem setElements_ok {elements : Option Nat} (hp : m.get p = some (.nodes count elements))
    (q : Nat) : setElements p q m = .ok ((), m.set p (.nodes count (some q))) :=
  store_ok hp rfl

theorem nodeId_eq (hp : m.get p = some (.pair (some q) party)) : m.nodeId p = .ok q := by
  rw [Memory.nodeId, hp]
  rfl

theorem setNodeId_ok {nodeId : Option Nat} (hp : m.get p = some (.pair nodeId party)) (q : Nat) :
    setNodeId p q m = .ok ((), m.set p (.pair (some q) party)) :=
  store_ok hp rfl

theorem setPartyId_ok {nodeId : Option Nat} (hp : m.get p = some (.pair nodeId count))
    (party : Int) : setPartyId p party m = .ok ((), m.set p (.pair nodeId party)) :=
  store_ok hp rfl

/-- The cells of a C string. -/
def terminated (str : Bytes) : List (Option UInt8) := str.map some ++ [some 0]

theorem memset_ok (hp : m.get p = some (.chars (List.replicate n none))) :
    memset p 0 n m = .ok ((), m.set p (.chars (List.replicate n (some 0)))) := by
  refine store_ok hp ?_
  simp

theorem memcpy_ok (hp : m.get p = some (.chars (List.replicate (str.length + 1) (some 0)))) :
    memcpy p str m = .ok ((), m.set p (.chars (terminated str))) := by
  refine store_ok hp ?_
  simp [terminated]

end Operations

end Writing

open Writing

/-- A structure at `p` and its array, with these pointers in it. -/
structure Table (m : Memory) (p array count : Nat) (cells : List (Option Nat)) : Prop where
  head : m.get p = some (.nodes count (some array))
  cells : m.get array = some (.pointers cells)

namespace Table

variable {m : Memory} {p array count i q a : Nat} {cells : List (Option Nat)}

theorem elements_eq (ht : Table m p array count cells) : m.elements p = .ok array := by
  rw [Memory.elements, ht.head]
  rfl

theorem element_eq (ht : Table m p array count cells) (hi : cells[i]? = some (some q)) :
    m.element p i = .ok q := by
  rw [Memory.element, ht.elements_eq, Exec.ok_bind, ht.cells]
  show written cells[i]?.join = .ok q
  rw [hi]
  rfl

theorem setElement_ok (ht : Table m p array count cells) (hi : i < cells.length) (q : Nat) :
    setElement p i q m = .ok ((), m.set array (.pointers (cells.set i (some q)))) := by
  rw [setElement, bind_of_ok (reading_ok ht.elements_eq)]
  exact store_ok ht.cells (if_pos hi)

theorem ne (ht : Table m p array count cells) : array ≠ p := by
  rintro rfl
  have hcells := ht.cells
  rw [ht.head] at hcells
  cases hcells

protected theorem alloc (ht : Table m p array count cells) (b : Block) :
    Table (Heap.alloc m b) p array count cells where
  head := by rw [Heap.get_alloc_of_lt _ (Heap.lt_next ht.head), ht.head]
  cells := by rw [Heap.get_alloc_of_lt _ (Heap.lt_next ht.cells), ht.cells]

/-- Another block is written. -/
protected theorem set (ht : Table m p array count cells) (hp : a ≠ p) (harray : a ≠ array)
    (b : Block) : Table (Heap.set m a b) p array count cells where
  head := by rw [Heap.get_set_of_ne _ hp.symm, ht.head]
  cells := by rw [Heap.get_set_of_ne _ harray.symm, ht.cells]

/-- The array is written. -/
theorem setCells (ht : Table m p array count cells) (cells' : List (Option Nat)) :
    Table (Heap.set m array (.pointers cells')) p array count cells' where
  head := by rw [Heap.get_set_of_ne _ ht.ne.symm, ht.head]
  cells := Heap.get_set_self _ ht.cells

end Table

end Rosetta
