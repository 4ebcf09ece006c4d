import Mathlib.Logic.Function.Basic

/-!
# The Read-Write Mutex

Threads call the four functions of a read-write mutex in any order. A call goes through a number of
places at which it waits for a semaphore or a mutex or changes a count, and between any two of them
the other threads may do anything. What a thread does to its own nesting counts, which no other
thread reads, is part of the step in front of it.

Calls may be nested in any way, and out of step. A call that has nothing to end is ignored, so
nothing is assumed about the threads.

## Main definitions

* `Place`: Where a thread is in the code.
* `Shared`: The semaphores, mutexes and counts.
* `advance`: The next step of a call.
* `step`: A step of one thread.
* `Reachable`: What any interleaving leads to.
-/

namespace CryptoOpal

namespace Sync

open Function (update)

/-- What a thread is about to do. -/
inductive Place where
  | client
  -- `InternalStartRead`
  | startReadPreventer
  | startReadSemaphore
  | startReadMutex
  | startReadCount
  | startReadWriters
  | startReadMutexSignal
  | startReadSemaphoreSignal
  | startReadPreventerSignal
  -- `InternalEndRead`, called by `StartWrite` or by `EndRead`
  | endReadMutex (inStartWrite : Bool)
  | endReadCount (inStartWrite : Bool)
  | endReadWriters (inStartWrite : Bool)
  | endReadMutexSignal (inStartWrite : Bool)
  -- `StartWrite`
  | startWriteMutex
  | startWriteCount
  | startWriteReaders
  | startWriteMutexSignal
  | startWriteSemaphore
  -- `EndWrite`
  | endWriteSemaphoreSignal
  | endWriteMutex
  | endWriteCount
  | endWriteReaders
  | endWriteMutexSignal
  deriving DecidableEq

/-- `Nest`. A thread that is not in the map has none of either. -/
structure Nest where
  readerCount : Nat
  writerCount : Nat
  deriving DecidableEq

/-- A thread: where it is, and its nested calls. -/
structure Thread where
  place : Place
  nest : Nest
  deriving DecidableEq

/-- The members of `PReadWriteMutex`. A semaphore is its count, a mutex whether a thread has it. -/
@[ext] structure Shared where
  readerSemaphore : Nat
  readerMutex : Bool
  readerCount : Nat
  starvationPreventer : Bool
  writerSemaphore : Nat
  writerMutex : Bool
  writerCount : Nat
  deriving DecidableEq

structure State (ι : Type) where
  shared : Shared
  threads : ι → Thread

/-- What a thread that is not in a call may call. -/
inductive Call where
  | startRead
  | endRead
  | startWrite
  | endWrite
  deriving DecidableEq

/-- A thread calls, or goes on with its call. -/
inductive Action where
  | call (c : Call)
  | go
  deriving DecidableEq

/-- `Wait` of a semaphore. -/
def semaphoreWait (count : Nat) : Option Nat := if 0 < count then some (count - 1) else none

/-- `Signal` of a semaphore whose maximum is one. -/
def semaphoreSignal (count : Nat) : Nat := if count < 1 then count + 1 else count

/-- `Wait` of a mutex. A thread that has it goes on to its `Signal` and waits only for others, so it
does not matter that the mutexes are recursive. -/
def mutexWait (mutex : Bool) : Option Bool := if mutex then none else some true

/-- `StartRead`, `EndRead`, `StartWrite` and `EndWrite` up to the first place that is shared. -/
def enter (nest : Nest) : Call → Thread
  | .startRead =>
    let nest' := { nest with readerCount := nest.readerCount + 1 }
    if nest'.readerCount = 1 ∧ nest'.writerCount = 0 then ⟨.startReadPreventer, nest'⟩
    else ⟨.client, nest'⟩
  | .endRead =>
    if nest.readerCount = 0 then ⟨.client, nest⟩
    else
      let nest' := { nest with readerCount := nest.readerCount - 1 }
      if nest'.readerCount > 0 ∨ nest'.writerCount > 0 then ⟨.client, nest'⟩
      else ⟨.endReadMutex false, nest'⟩
  | .startWrite =>
    let nest' := { nest with writerCount := nest.writerCount + 1 }
    if nest'.writerCount > 1 then ⟨.client, nest'⟩
    else if nest'.readerCount > 0 then ⟨.endReadMutex true, nest'⟩
    else ⟨.startWriteMutex, nest'⟩
  | .endWrite =>
    if nest.writerCount = 0 then ⟨.client, nest⟩
    else
      let nest' := { nest with writerCount := nest.writerCount - 1 }
      if nest'.writerCount > 0 then ⟨.client, nest'⟩
      else ⟨.endWriteSemaphoreSignal, nest'⟩

/-- The next step of a call, if the thread does not have to wait. -/
def advance (s : Shared) (nest : Nest) : Place → Option (Shared × Thread)
  | .client => none
  | .startReadPreventer => (mutexWait s.starvationPreventer).map fun m =>
      ({ s with starvationPreventer := m }, ⟨.startReadSemaphore, nest⟩)
  | .startReadSemaphore => (semaphoreWait s.readerSemaphore).map fun n =>
      ({ s with readerSemaphore := n }, ⟨.startReadMutex, nest⟩)
  | .startReadMutex => (mutexWait s.readerMutex).map fun m =>
      ({ s with readerMutex := m }, ⟨.startReadCount, nest⟩)
  | .startReadCount =>
    some ({ s with readerCount := s.readerCount + 1 },
      ⟨if s.readerCount + 1 = 1 then .startReadWriters else .startReadMutexSignal, nest⟩)
  | .startReadWriters => (semaphoreWait s.writerSemaphore).map fun n =>
      ({ s with writerSemaphore := n }, ⟨.startReadMutexSignal, nest⟩)
  | .startReadMutexSignal =>
    some ({ s with readerMutex := false }, ⟨.startReadSemaphoreSignal, nest⟩)
  | .startReadSemaphoreSignal =>
    some ({ s with readerSemaphore := semaphoreSignal s.readerSemaphore },
      ⟨.startReadPreventerSignal, nest⟩)
  | .startReadPreventerSignal =>
    some ({ s with starvationPreventer := false }, ⟨.client, nest⟩)
  | .endReadMutex inStartWrite => (mutexWait s.readerMutex).map fun m =>
      ({ s with readerMutex := m }, ⟨.endReadCount inStartWrite, nest⟩)
  | .endReadCount inStartWrite =>
    some ({ s with readerCount := s.readerCount - 1 },
      ⟨if s.readerCount - 1 = 0 then .endReadWriters inStartWrite
        else .endReadMutexSignal inStartWrite, nest⟩)
  | .endReadWriters inStartWrite =>
    some ({ s with writerSemaphore := semaphoreSignal s.writerSemaphore },
      ⟨.endReadMutexSignal inStartWrite, nest⟩)
  | .endReadMutexSignal inStartWrite =>
    -- `EndRead` forgets the thread, `StartWrite` goes on.
    some ({ s with readerMutex := false },
      if inStartWrite then ⟨.startWriteMutex, nest⟩ else ⟨.client, ⟨0, 0⟩⟩)
  | .startWriteMutex => (mutexWait s.writerMutex).map fun m =>
      ({ s with writerMutex := m }, ⟨.startWriteCount, nest⟩)
  | .startWriteCount =>
    some ({ s with writerCount := s.writerCount + 1 },
      ⟨if s.writerCount + 1 = 1 then .startWriteReaders else .startWriteMutexSignal, nest⟩)
  | .startWriteReaders => (semaphoreWait s.readerSemaphore).map fun n =>
      ({ s with readerSemaphore := n }, ⟨.startWriteMutexSignal, nest⟩)
  | .startWriteMutexSignal =>
    some ({ s with writerMutex := false }, ⟨.startWriteSemaphore, nest⟩)
  | .startWriteSemaphore => (semaphoreWait s.writerSemaphore).map fun n =>
      ({ s with writerSemaphore := n }, ⟨.client, nest⟩)
  | .endWriteSemaphoreSignal =>
    some ({ s with writerSemaphore := semaphoreSignal s.writerSemaphore },
      ⟨.endWriteMutex, nest⟩)
  | .endWriteMutex => (mutexWait s.writerMutex).map fun m =>
      ({ s with writerMutex := m }, ⟨.endWriteCount, nest⟩)
  | .endWriteCount =>
    some ({ s with writerCount := s.writerCount - 1 },
      ⟨if s.writerCount - 1 = 0 then .endWriteReaders else .endWriteMutexSignal, nest⟩)
  | .endWriteReaders =>
    some ({ s with readerSemaphore := semaphoreSignal s.readerSemaphore },
      ⟨.endWriteMutexSignal, nest⟩)
  | .endWriteMutexSignal =>
    some ({ s with writerMutex := false },
      if nest.readerCount > 0 then ⟨.startReadPreventer, nest⟩ else ⟨.client, ⟨0, 0⟩⟩)

variable {ι : Type}

/-- A step of one thread. -/
def step [DecidableEq ι] (s : State ι) (t : ι) : Action → Option (State ι)
  | .call c =>
    if (s.threads t).place = .client then
      some ⟨s.shared, update s.threads t (enter (s.threads t).nest c)⟩
    else none
  | .go => (advance s.shared (s.threads t).nest (s.threads t).place).map fun next =>
      ⟨next.1, update s.threads t next.2⟩

/-- The constructor. -/
def State.init : State ι :=
  { shared :=
      { readerSemaphore := 1
        readerMutex := false
        readerCount := 0
        starvationPreventer := false
        writerSemaphore := 1
        writerMutex := false
        writerCount := 0 }
    threads := fun _ => ⟨.client, ⟨0, 0⟩⟩ }

/-- What any interleaving of the threads leads to. -/
inductive Reachable [DecidableEq ι] : State ι → Prop where
  | init : Reachable .init
  | step {s s' : State ι} (t : ι) (a : Action) (h : Reachable s) (hstep : step s t a = some s') :
      Reachable s'

namespace Thread

/-- The thread may rely on nobody writing but itself. -/
def Reading (x : Thread) : Prop := x.place = .client ∧ 0 < x.nest.readerCount

/-- The thread may rely on nobody else reading or writing. -/
def Writing (x : Thread) : Prop := x.place = .client ∧ 0 < x.nest.writerCount

end Thread

end Sync

end CryptoOpal
