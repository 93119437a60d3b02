import Mathlib.Data.Finset.Basic
import Mathlib.Data.List.AList
import Mathlib.Logic.Function.Basic
import Rosetta.Lib.Run
import Rosetta.Machine

/-!
# Creating and destroying channels

`channel.cpp` keeps the channels of a process in `g_channel2task`. `CreateChannel` hands out the
channel that is there for the task, or makes one; `g_creating_task` keeps a second call away
meanwhile. `DestroyInternalChannel` takes the channel out of the map and then deletes it.

A channel is its address. An address is used again when its object has been deleted.

* `CreateCall` — how far a call of `CreateChannel` has come
* `Channels` — the two globals, and the objects that exist
* `exec` — one action for each critical section, and one for what `BasicIO::init` brings
-/

namespace Rosetta

open Lib

inductive CreateCall where
  | idle
  /-- at the wait on `g_channel2task_cv` -/
  | waiting (task : Bytes)
  /-- behind the check: `BasicIO::init` runs -/
  | creating (task : Bytes)
  /-- `init` has succeeded, and the channel object is made -/
  | ready (task : Bytes) (channel : Nat)
  deriving DecidableEq

/-- The task of a call that is between its check and its return. -/
def CreateCall.inProgress : CreateCall → Option Bytes
  | .creating task => some task
  | .ready task _ => some task
  | _ => none

@[simp] theorem CreateCall.inProgress_idle : CreateCall.idle.inProgress = none := rfl

@[simp] theorem CreateCall.inProgress_creating (task : Bytes) :
    (CreateCall.creating task).inProgress = some task := rfl

@[simp] theorem CreateCall.inProgress_ready (task : Bytes) (channel : Nat) :
    (CreateCall.ready task channel).inProgress = some task := rfl

structure Channels where
  /-- `g_channel2task` -/
  channel2task : AList fun _ : Nat => Bytes := ∅
  /-- `g_creating_task` -/
  creatingTask : Finset Bytes := ∅
  /-- the calls of `CreateChannel`, by a number -/
  creates : Nat → CreateCall := fun _ => .idle
  /-- taken out of the map, and not yet deleted -/
  deleting : AList fun _ : Nat => Bytes := ∅
  /-- the addresses of all channel objects -/
  allocated : Finset Nat := ∅
  /-- how often a handle was returned, less how often it was destroyed -/
  outstanding : Nat → Nat := fun _ => 0

inductive ChannelAct where
  /-- `CreateInternalChannel(task)` is called -/
  | create (k : Nat) (task : Bytes)
  /-- first critical section of `CreateChannel`, behind its wait -/
  | check (k : Nat)
  /-- `init` returns `true`, and `new TCPChannel` returns `channel` -/
  | initOk (k : Nat) (channel : Nat)
  /-- `init` returns `false`, and `CreateChannel` returns `nullptr` -/
  | initFail (k : Nat)
  /-- second critical section, and the return -/
  | publish (k : Nat)
  /-- `DestroyInternalChannel(channel)`: the critical section -/
  | destroy (channel : Nat)
  /-- `delete channel` returns -/
  | deleted (channel : Nat)

namespace Channels

/-- The first entry of `g_channel2task` with this task; `std::map` orders them by address. -/
def channelOf (n : Channels) (task : Bytes) : Option Nat :=
  ((n.channel2task.entries.filter fun e => e.2 = task).map Sigma.fst).min?

def setCall (n : Channels) (k : Nat) (c : CreateCall) : Channels :=
  { n with creates := Function.update n.creates k c }

/-- A call returns `channel`. -/
def hand (n : Channels) (channel : Nat) : Channels :=
  { n with outstanding := Function.update n.outstanding channel (n.outstanding channel + 1) }

section Fields

variable (n : Channels) (k channel : Nat) (c : CreateCall)

@[simp, grind =] theorem channel2task_setCall : (n.setCall k c).channel2task = n.channel2task := rfl

@[simp, grind =] theorem creatingTask_setCall : (n.setCall k c).creatingTask = n.creatingTask := rfl

@[simp, grind =] theorem deleting_setCall : (n.setCall k c).deleting = n.deleting := rfl

@[simp, grind =] theorem allocated_setCall : (n.setCall k c).allocated = n.allocated := rfl

@[simp, grind =] theorem outstanding_setCall : (n.setCall k c).outstanding = n.outstanding := rfl

@[simp, grind =] theorem channel2task_hand : (n.hand channel).channel2task = n.channel2task := rfl

@[simp, grind =] theorem creatingTask_hand : (n.hand channel).creatingTask = n.creatingTask := rfl

@[simp, grind =] theorem creates_hand : (n.hand channel).creates = n.creates := rfl

@[simp, grind =] theorem deleting_hand : (n.hand channel).deleting = n.deleting := rfl

@[simp, grind =] theorem allocated_hand : (n.hand channel).allocated = n.allocated := rfl

end Fields

def exec (n : Channels) : ChannelAct → Exec Channels
  | .create k task =>
    match n.creates k with
    | .idle => .ok (n.setCall k (.waiting task))
    | _ => .error .blocked
  | .check k =>
    match n.creates k with
    | .waiting task =>
      if task ∈ n.creatingTask then .error .blocked
      else
        match n.channelOf task with
        | some channel => .ok ((n.setCall k .idle).hand channel)
        | none => .ok { n.setCall k (.creating task) with
            creatingTask := insert task n.creatingTask }
    | _ => .error .blocked
  | .initOk k channel =>
    match n.creates k with
    | .creating task =>
      if channel ∈ n.allocated then .error .blocked
      else .ok { n.setCall k (.ready task channel) with allocated := insert channel n.allocated }
    | _ => .error .blocked
  | .initFail k =>
    match n.creates k with
    -- the task stays in `g_creating_task`
    | .creating _ => .ok (n.setCall k .idle)
    | _ => .error .blocked
  | .publish k =>
    match n.creates k with
    | .ready task channel => .ok { (n.setCall k .idle).hand channel with
        channel2task :=
          if (n.channel2task.lookup channel).isSome then n.channel2task
          else n.channel2task.insert channel task
        creatingTask := n.creatingTask.erase task }
    | _ => .error .blocked
  | .destroy channel =>
    match n.channel2task.lookup channel with
    | some task => .ok { n with
        channel2task := n.channel2task.erase channel
        deleting := n.deleting.insert channel task
        outstanding := Function.update n.outstanding channel (n.outstanding channel - 1) }
    -- the error is logged, and then `iter->second` reads behind the map
    | none => .error .outOfBounds
  | .deleted channel =>
    match n.deleting.lookup channel with
    | some _ => .ok { n with
        deleting := n.deleting.erase channel
        allocated := n.allocated.erase channel }
    | none => .error .blocked

def step (n : Channels) (a : ChannelAct) : Option Channels := (n.exec a).toOption

end Channels

end Rosetta
