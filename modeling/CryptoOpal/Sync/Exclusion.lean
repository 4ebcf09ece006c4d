import CryptoOpal.Lib.Census
import CryptoOpal.Sync.ReadWriteMutex

/-!
# Exclusion

The read-write mutex has two light switches: the first reader takes the semaphore of the writers
and the last gives it back, and the threads that write or wait to write do the same with the
semaphore of the readers. What a thread is to the switches follows from its place in the code and
its nested calls, and every member of the mutex follows from how many threads are what.

## Main definitions

* `Role`, `Thread.roles`: What a thread is to the mutex.
* `Switch`, `Balance`: The members and the numbers of threads agree.
* `Inv`: What holds in every reachable state.

## Theorems

* `inv_step`: Every step keeps it.
* `excluded`: A thread that writes is alone.
* `restored`: The members are as before when all is done.
* `not_stuck`: Threads that wait for each other do not wait forever.
-/

namespace CryptoOpal

namespace Sync

open Function (update)

open Lib (census others)

/-- What a thread may be to the mutex. -/
inductive Role where
  -- Has the mutex in front of the readers.
  | turn
  -- Has the mutex of a count.
  | readersCounting
  | writersCounting
  -- Is counted.
  | reader
  | writer
  -- Is counted, and has still to take the semaphore for all that will be.
  | firstReader
  | firstWriter
  -- Is no longer counted, and has still to give the semaphore back.
  | lastReader
  | lastWriter
  -- Has a semaphore on its own.
  | hasReaders
  | hasWriters
  deriving DecidableEq

/-- What a thread is at its place. Within nested calls of both kinds it has left the readers. -/
def Thread.roles (x : Thread) : List Role :=
  match x.place with
  | .client =>
    if 0 < x.nest.writerCount then [.writer, .hasWriters]
    else if 0 < x.nest.readerCount then [.reader] else []
  | .startReadPreventer => []
  | .startReadSemaphore => [.turn]
  | .startReadMutex => [.turn, .hasReaders]
  | .startReadCount => [.turn, .hasReaders, .readersCounting]
  | .startReadWriters => [.turn, .hasReaders, .firstReader]
  | .startReadMutexSignal => [.turn, .hasReaders, .readersCounting, .reader]
  | .startReadSemaphoreSignal => [.turn, .hasReaders, .reader]
  | .startReadPreventerSignal => [.turn, .reader]
  | .endReadMutex _ => [.reader]
  | .endReadCount _ => [.reader, .readersCounting]
  | .endReadWriters _ => [.lastReader]
  | .endReadMutexSignal _ => [.readersCounting]
  | .startWriteMutex => []
  | .startWriteCount => [.writersCounting]
  | .startWriteReaders => [.firstWriter]
  | .startWriteMutexSignal => [.writersCounting, .writer]
  | .startWriteSemaphore => [.writer]
  | .endWriteSemaphoreSignal => [.writer, .hasWriters]
  | .endWriteMutex => [.writer]
  | .endWriteCount => [.writer, .writersCounting]
  | .endWriteReaders => [.lastWriter]
  | .endWriteMutexSignal => [.writersCounting]

/-- The nested calls fit to the place. -/
def Thread.Nested (x : Thread) : Prop :=
  match x.place with
  | .client => True
  | .endReadMutex inStartWrite | .endReadCount inStartWrite | .endReadWriters inStartWrite
  | .endReadMutexSignal inStartWrite =>
    if inStartWrite then x.nest.writerCount = 1 else x.nest = ⟨0, 0⟩
  | .startWriteMutex | .startWriteCount | .startWriteReaders | .startWriteMutexSignal
  | .startWriteSemaphore => x.nest.writerCount = 1
  | .endWriteSemaphoreSignal | .endWriteMutex | .endWriteCount | .endWriteReaders
  | .endWriteMutexSignal => x.nest.writerCount = 0
  | _ => 0 < x.nest.readerCount ∧ x.nest.writerCount = 0

section Members

/-- One of the switches: its mutex, its count and the semaphore that it takes, with how many threads
    have the mutex to count, are counted, have still to take the semaphore, have still to give it
    back, and have it on their own. -/
structure Switch (mutex : Bool) (count semaphore counting counted first last held : Nat) :
    Prop where
  mutex_eq : mutex.toNat = counting + first + last
  count_eq : count = counted + first
  first_alone : first = 0 ∨ counted = 0
  semaphore_eq : semaphore + held + min count 1 + last = 1 + first

/-- The members of the mutex agree with how many threads are what. -/
structure Balance (n : Role → Nat) (s : Shared) : Prop where
  turn : s.starvationPreventer.toNat = n .turn
  readers : Switch s.readerMutex s.readerCount s.writerSemaphore (n .readersCounting) (n .reader)
    (n .firstReader) (n .lastReader) (n .hasWriters)
  writers : Switch s.writerMutex s.writerCount s.readerSemaphore (n .writersCounting) (n .writer)
    (n .firstWriter) (n .lastWriter) (n .hasReaders)

namespace Switch

variable {m : Bool} {c k counting counted first last held : Nat}

theorem lock (h : Switch m c k counting counted first last held) (hfree : m = false) :
    Switch true c k (counting + 1) counted first last held := by
  subst hfree
  exact ⟨by have := h.1; simp at this ⊢; omega, h.2, h.3, h.4⟩

theorem unlock (h : Switch m c k (counting + 1) counted first last held) :
    Switch false c k counting counted first last held := by
  have hle := Bool.toNat_le m
  exact ⟨by have := h.1; simp; omega, h.2, h.3, h.4⟩

theorem enterFirst (h : Switch m c k (counting + 1) counted first last held) (hcount : c + 1 = 1) :
    Switch m (c + 1) k counting counted (first + 1) last held := by
  rcases h with ⟨h1, h2, h3, h4⟩
  constructor <;> omega

theorem enter (h : Switch m c k (counting + 1) counted first last held) (hcount : ¬ c + 1 = 1) :
    Switch m (c + 1) k (counting + 1) (counted + 1) first last held := by
  rcases h with ⟨h1, h2, h3, h4⟩
  have hle := Bool.toNat_le m
  constructor <;> omega

theorem take (h : Switch m c k counting counted (first + 1) last held) (hpos : 0 < k) :
    Switch m c (k - 1) (counting + 1) (counted + 1) first last held := by
  rcases h with ⟨h1, h2, h3, h4⟩
  have hle := Bool.toNat_le m
  constructor <;> omega

theorem leaveLast (h : Switch m c k (counting + 1) (counted + 1) first last held)
    (hcount : c - 1 = 0) : Switch m (c - 1) k counting counted first (last + 1) held := by
  rcases h with ⟨h1, h2, h3, h4⟩
  constructor <;> omega

theorem leave (h : Switch m c k (counting + 1) (counted + 1) first last held)
    (hcount : ¬ c - 1 = 0) : Switch m (c - 1) k (counting + 1) counted first last held := by
  rcases h with ⟨h1, h2, h3, h4⟩
  constructor <;> omega

theorem give (h : Switch m c k counting counted first (last + 1) held) :
    Switch m c (semaphoreSignal k) (counting + 1) counted first last held := by
  rcases h with ⟨h1, h2, h3, h4⟩
  have hle := Bool.toNat_le m
  have hzero : k = 0 := by omega
  subst hzero
  exact ⟨by omega, h2, h3, by change 1 + _ + _ + _ = _; omega⟩

theorem hold (h : Switch m c k counting counted first last held) (hpos : 0 < k) :
    Switch m c (k - 1) counting counted first last (held + 1) :=
  ⟨h.1, h.2, h.3, by have := h.4; omega⟩

theorem release (h : Switch m c k counting counted first last (held + 1)) :
    Switch m c (semaphoreSignal k) counting counted first last held := by
  rcases h with ⟨h1, h2, h3, h4⟩
  have hle := Bool.toNat_le m
  have hzero : k = 0 := by omega
  subst hzero
  exact ⟨h1, h2, h3, by change 1 + _ + _ + _ = _; omega⟩

/-- A thread that has the semaphore on its own is the only one, and none is counted. -/
theorem alone (h : Switch m c k counting counted first last held) : held + min counted 1 ≤ 1 := by
  rcases h with ⟨h1, h2, h3, h4⟩
  have hle := Bool.toNat_le m
  omega

theorem idle (h : Switch m c k 0 0 0 0 0) : m = false ∧ c = 0 ∧ k = 1 := by
  rcases h with ⟨h1, rfl, -, h4⟩
  exact ⟨Bool.toNat_eq_zero.mp h1, rfl, h4⟩

/-- If the first one could take the semaphore, there is none. -/
theorem free (h : Switch m c k 0 counted first 0 0) (hfirst : k ≠ 0 → first = 0) :
    m = false ∧ (counted = 0 → k ≠ 0) := by
  rcases h with ⟨h1, h2, h3, h4⟩
  have hzero : first = 0 := by
    by_contra hpos
    exact hpos (hfirst (by omega))
  exact ⟨Bool.toNat_eq_zero.mp (by omega), by omega⟩

end Switch

variable {s : Shared} {nest : Nest} {p : Place} {next : Shared × Thread} {rest : Role → Nat}

theorem semaphoreWait_map {α : Type} {n : Nat} {f : Nat → α} {x : α}
    (h : (semaphoreWait n).map f = some x) : 0 < n ∧ f (n - 1) = x := by
  rw [semaphoreWait] at h
  split at h
  next hpos => exact ⟨hpos, Option.some.inj h⟩
  next => cases h

theorem mutexWait_map {α : Type} {mutex : Bool} {f : Bool → α} {x : α}
    (h : (mutexWait mutex).map f = some x) : mutex = false ∧ f true = x := by
  cases mutex with
  | false => exact ⟨rfl, Option.some.inj h⟩
  | true => cases h

theorem roles_of_writing {x : Thread} (h : x.Writing) : x.roles = [.writer, .hasWriters] := by
  rw [Thread.roles, h.1]
  exact if_pos h.2

theorem roles_of_reading {x : Thread} (h : x.Reading) (hnot : ¬ x.Writing) :
    x.roles = [.reader] := by
  rw [Thread.roles, h.1]
  exact (if_neg fun hpos => hnot ⟨h.1, hpos⟩).trans (if_pos h.2)

/-- A step changes the members as it changes what the thread is. -/
theorem Balance.advance (h : Balance (fun r => rest r + (Thread.roles ⟨p, nest⟩).count r) s)
    (hfit : Thread.Nested ⟨p, nest⟩) (hstep : advance s nest p = some next) :
    Balance (fun r => rest r + next.2.roles.count r) next.1 ∧ next.2.Nested := by
  rcases h with ⟨hturn, hr, hw⟩
  cases p with
  | client => cases hstep
  | startReadPreventer =>
      rcases mutexWait_map hstep with ⟨hfree, rfl⟩
      rw [hfree] at hturn
      exact ⟨⟨congrArg (· + 1) hturn, hr, hw⟩, hfit⟩
  | startReadSemaphore =>
      rcases semaphoreWait_map hstep with ⟨hpos, rfl⟩
      exact ⟨⟨hturn, hr, hw.hold hpos⟩, hfit⟩
  | startReadMutex | endReadMutex _ =>
      rcases mutexWait_map hstep with ⟨hfree, rfl⟩
      exact ⟨⟨hturn, hr.lock hfree, hw⟩, hfit⟩
  | startReadCount =>
      cases hstep
      dsimp only
      split
      next hcount => exact ⟨⟨hturn, hr.enterFirst hcount, hw⟩, hfit⟩
      next hcount => exact ⟨⟨hturn, hr.enter hcount, hw⟩, hfit⟩
  | startReadWriters =>
      rcases semaphoreWait_map hstep with ⟨hpos, rfl⟩
      exact ⟨⟨hturn, hr.take hpos, hw⟩, hfit⟩
  | startReadMutexSignal =>
      cases hstep
      exact ⟨⟨hturn, hr.unlock, hw⟩, hfit⟩
  | startReadSemaphoreSignal =>
      cases hstep
      exact ⟨⟨hturn, hr, hw.release⟩, hfit⟩
  | startReadPreventerSignal =>
      cases hstep
      have hread : 0 < nest.readerCount ∧ nest.writerCount = 0 := hfit
      have hroles : Thread.roles ⟨.client, nest⟩ = [.reader] :=
        roles_of_reading ⟨rfl, hread.1⟩ fun hwrite => hwrite.2.ne' hread.2
      have hle := Bool.toNat_le s.starvationPreventer
      change _ = rest .turn + 1 at hturn
      dsimp only
      rw [hroles]
      exact ⟨⟨by change 0 = rest .turn; omega, hr, hw⟩, trivial⟩
  | endReadCount _ =>
      cases hstep
      dsimp only
      split
      next hcount => exact ⟨⟨hturn, hr.leaveLast hcount, hw⟩, hfit⟩
      next hcount => exact ⟨⟨hturn, hr.leave hcount, hw⟩, hfit⟩
  | endReadWriters _ =>
      cases hstep
      exact ⟨⟨hturn, hr.give, hw⟩, hfit⟩
  | endReadMutexSignal b =>
      cases hstep
      cases b with
      | false => exact ⟨⟨hturn, hr.unlock, hw⟩, trivial⟩
      | true => exact ⟨⟨hturn, hr.unlock, hw⟩, hfit⟩
  | startWriteMutex | endWriteMutex =>
      rcases mutexWait_map hstep with ⟨hfree, rfl⟩
      exact ⟨⟨hturn, hr, hw.lock hfree⟩, hfit⟩
  | startWriteCount =>
      cases hstep
      dsimp only
      split
      next hcount => exact ⟨⟨hturn, hr, hw.enterFirst hcount⟩, hfit⟩
      next hcount => exact ⟨⟨hturn, hr, hw.enter hcount⟩, hfit⟩
  | startWriteReaders =>
      rcases semaphoreWait_map hstep with ⟨hpos, rfl⟩
      exact ⟨⟨hturn, hr, hw.take hpos⟩, hfit⟩
  | startWriteMutexSignal =>
      cases hstep
      exact ⟨⟨hturn, hr, hw.unlock⟩, hfit⟩
  | startWriteSemaphore =>
      rcases semaphoreWait_map hstep with ⟨hpos, rfl⟩
      have hwrite : nest.writerCount = 1 := hfit
      rw [roles_of_writing ⟨rfl, hwrite ▸ Nat.one_pos⟩]
      exact ⟨⟨hturn, hr.hold hpos, hw⟩, trivial⟩
  | endWriteSemaphoreSignal =>
      cases hstep
      exact ⟨⟨hturn, hr.release, hw⟩, hfit⟩
  | endWriteCount =>
      cases hstep
      dsimp only
      split
      next hcount => exact ⟨⟨hturn, hr, hw.leaveLast hcount⟩, hfit⟩
      next hcount => exact ⟨⟨hturn, hr, hw.leave hcount⟩, hfit⟩
  | endWriteReaders =>
      cases hstep
      exact ⟨⟨hturn, hr, hw.give⟩, hfit⟩
  | endWriteMutexSignal =>
      cases hstep
      dsimp only
      split
      next hread => exact ⟨⟨hturn, hr, hw.unlock⟩, hread, hfit⟩
      next => exact ⟨⟨hturn, hr, hw.unlock⟩, trivial⟩

/-- A call does not change what the thread is before the first place that is shared. -/
theorem roles_enter (nest : Nest) (c : Call) :
    (enter nest c).roles = Thread.roles ⟨.client, nest⟩ ∧ (enter nest c).Nested := by
  rcases nest with ⟨r, w⟩
  -- None, one or several nested calls of either kind.
  rcases r with _ | _ | r <;> rcases w with _ | _ | w <;> cases c <;>
    simp [enter, Thread.roles, Thread.Nested]

end Members

variable {ι : Type} [Fintype ι] [DecidableEq ι] {s s' : State ι} {t u : ι}

/-- What holds in every reachable state. -/
structure Inv (s : State ι) : Prop where
  nested : ∀ t, (s.threads t).Nested
  balance : Balance (census Thread.roles s.threads) s.shared

omit [DecidableEq ι] in
theorem inv_init : Inv (State.init : State ι) := by
  have hzero : ∀ r, census Thread.roles (State.init : State ι).threads r = 0 :=
    fun r => Lib.census_eq_zero fun _ => List.not_mem_nil
  refine ⟨fun _ => trivial, ?_⟩
  constructor <;> simp only [hzero]
  · rfl
  all_goals exact ⟨rfl, rfl, .inl rfl, rfl⟩

/-- One thread is at another place now, and the members have changed with it. -/
theorem Inv.moved (h : Inv s) {shared : Shared} {x : Thread} (hnested : x.Nested)
    (hbalance : Balance (fun r => others Thread.roles s.threads t r + x.roles.count r) shared) :
    Inv ⟨shared, update s.threads t x⟩ := by
  refine ⟨fun u => ?_, ?_⟩
  · dsimp only
    rcases eq_or_ne u t with rfl | hne
    · rwa [Function.update_self]
    · rw [Function.update_of_ne hne]
      exact h.nested u
  · dsimp only
    rwa [Lib.census_update]

theorem inv_step (h : Inv s) {a : Action} (hstep : step s t a = some s') : Inv s' := by
  have hbalance := h.balance
  rw [Lib.census_eq _ _ t] at hbalance
  cases a with
  | call c =>
      rw [step] at hstep
      split at hstep
      next hplace =>
        cases hstep
        have hold : s.threads t = ⟨.client, (s.threads t).nest⟩ := by rw [← hplace]
        rcases roles_enter (s.threads t).nest c with ⟨hroles, hnested⟩
        rw [← hold] at hroles
        refine h.moved hnested ?_
        rwa [hroles]
      next => cases hstep
  | go =>
      rcases Option.map_eq_some_iff.mp hstep with ⟨next, hnext, rfl⟩
      rcases hbalance.advance (h.nested t) hnext with ⟨hnew, hnested⟩
      exact h.moved hnested hnew

theorem inv_reachable (h : Reachable s) : Inv s := by
  induction h with
  | init => exact inv_init
  | step t a _ hstep ih => exact inv_step ih hstep

/-- A thread that writes is alone: no other thread reads or writes, whatever the threads have called
    in whatever order. -/
theorem excluded (h : Reachable s) {t u : ι} (ht : (s.threads t).Writing) (hne : u ≠ t) :
    ¬ (s.threads u).Writing ∧ ¬ (s.threads u).Reading := by
  have halone := (inv_reachable h).balance.readers.alone
  have hhas := Lib.count_add_le_census Thread.roles s.threads hne .hasWriters
  simp [roles_of_writing ht] at hhas
  have hwriting : ¬ (s.threads u).Writing := by
    intro hu
    simp [roles_of_writing hu] at hhas
    omega
  refine ⟨hwriting, fun hu => ?_⟩
  -- A thread that only reads is counted, and the readers have the semaphore.
  have hreader := Lib.count_le_census Thread.roles s.threads u .reader
  simp [roles_of_reading hu hwriting] at hreader hhas
  omega

/-- One of two threads writes, and the other has begun to read. -/
theorem excluded_second : ∃ s : State Bool, (s.threads false).Writing ∧
    (s.threads true).place = .startReadPreventer ∧
    ¬ (s.threads true).Writing ∧ ¬ (s.threads true).Reading := by
  have h := ((((((Reachable.init (ι := Bool)).step false (.call .startWrite) rfl).step false .go
    rfl).step false .go rfl).step false .go rfl).step false .go rfl).step false .go rfl
  have h' := h.step true (.call .startRead) rfl
  exact ⟨_, ⟨rfl, Nat.one_pos⟩, rfl, excluded h' (t := false) ⟨rfl, Nat.one_pos⟩ nofun⟩

/-- Nothing is lost: when no thread is within a call, reads or writes, the members are as they were
    constructed. -/
theorem restored (h : Reachable s) (hclient : ∀ t, (s.threads t).place = .client)
    (hreading : ∀ t, ¬ (s.threads t).Reading) (hwriting : ∀ t, ¬ (s.threads t).Writing) :
    s.shared = (State.init : State ι).shared := by
  have hzero : ∀ r, census Thread.roles s.threads r = 0 := by
    refine fun r => Lib.census_eq_zero fun t => ?_
    rw [Thread.roles, hclient t]
    dsimp only
    rw [if_neg fun hpos => hwriting t ⟨hclient t, hpos⟩,
      if_neg fun hpos => hreading t ⟨hclient t, hpos⟩]
    exact List.not_mem_nil
  rcases (inv_reachable h).balance with ⟨hturn, hr, hw⟩
  simp only [hzero] at hturn hr hw
  rcases hr.idle with ⟨h1, h2, h3⟩
  rcases hw.idle with ⟨h4, h5, h6⟩
  exact Shared.ext h6 h1 h2 (Bool.toNat_eq_zero.mp hturn) h3 h4 h5

/-- A thread has read. -/
theorem restored_read : ∃ s : State Unit, s.threads () = ⟨.client, ⟨0, 0⟩⟩ ∧
    s.shared = (State.init : State Unit).shared := by
  have h := (((((Reachable.init (ι := Unit)).step () (.call .startRead) rfl).step () .go
    rfl).step () .go rfl).step () .go rfl).step () .go rfl
  have h' := (((h.step () .go rfl).step () .go rfl).step () .go rfl).step () .go rfl
  have h'' := (((h'.step () (.call .endRead) rfl).step () .go rfl).step () .go rfl).step () .go rfl
  exact ⟨_, rfl, restored (h''.step () .go rfl) (fun _ => rfl)
    (fun _ hread => absurd hread.2 (Nat.lt_irrefl 0))
    fun _ hwrite => absurd hwrite.2 (Nat.lt_irrefl 0)⟩

section Progress

/-- What a thread at this place waits for. At all other places it can go on. -/
def Waits (s : Shared) : Place → Prop
  | .client => True
  | .startReadPreventer => s.starvationPreventer = true
  | .startReadSemaphore | .startWriteReaders => s.readerSemaphore = 0
  | .startReadMutex | .endReadMutex _ => s.readerMutex = true
  | .startReadWriters | .startWriteSemaphore => s.writerSemaphore = 0
  | .startWriteMutex | .endWriteMutex => s.writerMutex = true
  | _ => False

theorem mutexWait_none {mutex : Bool} (h : mutexWait mutex = none) : mutex = true := by
  cases mutex with
  | false => cases h
  | true => rfl

theorem semaphoreWait_none {n : Nat} (h : semaphoreWait n = none) : n = 0 := by
  rw [semaphoreWait] at h
  split at h
  next => cases h
  next hpos => exact Nat.eq_zero_of_not_pos hpos

theorem waits_of_none {shared : Shared} {nest : Nest} {p : Place}
    (h : advance shared nest p = none) : Waits shared p := by
  cases p with
  | client => trivial
  | startReadPreventer | startReadMutex | endReadMutex _ | startWriteMutex | endWriteMutex =>
      exact mutexWait_none (Option.map_eq_none_iff.mp h)
  | startReadSemaphore | startWriteReaders | startReadWriters | startWriteSemaphore =>
      exact semaphoreWait_none (Option.map_eq_none_iff.mp h)
  | _ => cases h

/-- Threads do not wait for each other: if a thread is within a call, one of them can go on, or a
    thread reads or writes and may end that. -/
theorem not_stuck (h : Reachable s) {t : ι} (hwithin : (s.threads t).place ≠ .client) :
    (∃ u, (step s u .go).isSome) ∨
      ∃ u, (s.threads u).Reading ∨ (s.threads u).Writing := by
  have hbalance := (inv_reachable h).balance
  by_contra hstuck
  rw [not_or, not_exists, not_exists] at hstuck
  have hwaits : ∀ u, Waits s.shared (s.threads u).place := by
    intro u
    have hnone := hstuck.1 u
    rw [step, Option.isSome_map, Option.not_isSome_iff_eq_none] at hnone
    exact waits_of_none hnone
  have hidle : ∀ u, (s.threads u).place = .client → (s.threads u).roles = [] := by
    intro u hclient
    rw [Thread.roles, hclient]
    exact (if_neg fun hpos => hstuck.2 u (.inr ⟨hclient, hpos⟩)).trans
      (if_neg fun hpos => hstuck.2 u (.inl ⟨hclient, hpos⟩))
  -- Nobody has a role that goes only with places at which there is nothing to wait for.
  have hnone : ∀ {r}, (∀ p, Waits s.shared p →
      p = .client ∨ ∀ nest, r ∉ Thread.roles ⟨p, nest⟩) → census Thread.roles s.threads r = 0 := by
    intro r hr
    refine Lib.census_eq_zero fun u => ?_
    rcases hr _ (hwaits u) with hclient | hnot
    · rw [hidle u hclient]
      exact List.not_mem_nil
    · exact hnot (s.threads u).nest
  have hrc := hnone (r := .readersCounting) fun p => by cases p <;> simp [Thread.roles, Waits]
  have hlr := hnone (r := .lastReader) fun p => by cases p <;> simp [Thread.roles, Waits]
  have hhw := hnone (r := .hasWriters) fun p => by cases p <;> simp [Thread.roles, Waits]
  have hwc := hnone (r := .writersCounting) fun p => by cases p <;> simp [Thread.roles, Waits]
  have hlw := hnone (r := .lastWriter) fun p => by cases p <;> simp [Thread.roles, Waits]
  -- The first reader would wait for a semaphore that nobody has, so the readers' mutex is free.
  have hr := hbalance.readers
  rw [hrc, hlr, hhw] at hr
  rcases hr.free fun hnot => hnone fun p => by cases p <;> simp [Thread.roles, Waits, hnot]
    with ⟨hreaderMutex, hsemaphore⟩
  have hwriterSemaphore := hsemaphore
    (hnone fun p => by cases p <;> simp [Thread.roles, Waits, hreaderMutex])
  -- The same for the first of those that write or wait to write.
  have hhr := hnone (r := .hasReaders) fun p => by
    cases p <;> simp [Thread.roles, Waits, hreaderMutex, hwriterSemaphore]
  have hw := hbalance.writers
  rw [hwc, hlw, hhr] at hw
  rcases hw.free fun hnot => hnone fun p => by cases p <;> simp [Thread.roles, Waits, hnot]
    with ⟨hwriterMutex, hsemaphore'⟩
  have hreaderSemaphore := hsemaphore'
    (hnone fun p => by cases p <;> simp [Thread.roles, Waits, hwriterMutex, hwriterSemaphore])
  -- The mutex in front of the readers is all that is left to wait for, and nobody has it.
  have hturn := hnone (r := .turn) fun p => by
    cases p <;> simp [Thread.roles, Waits, hreaderMutex, hwriterSemaphore, hreaderSemaphore]
  have hpreventer : s.shared.starvationPreventer = false :=
    Bool.toNat_eq_zero.mp (by rw [hbalance.turn, hturn])
  have hlast := hwaits t
  cases hplace : (s.threads t).place with
  | client => exact hwithin hplace
  | _ => simp [hplace, Waits, hpreventer, hreaderMutex, hwriterMutex, hwriterSemaphore,
      hreaderSemaphore] at hlast

/-- The second of two threads waits for the first. -/
theorem not_stuck_second : ∃ s : State Bool, (s.threads true).place = .startReadPreventer ∧
    ((∃ u, (step s u .go).isSome) ∨
      ∃ u, (s.threads u).Reading ∨ (s.threads u).Writing) := by
  have h := ((Reachable.init (ι := Bool)).step false (.call .startRead) rfl).step false .go rfl
  have h' := h.step true (.call .startRead) rfl
  exact ⟨_, rfl, not_stuck h' (t := true) nofun⟩

end Progress

end Sync

end CryptoOpal
