import CryptoOpal.Lib.KeyedList
import CryptoOpal.Lib.Octets
import CryptoOpal.Lib.Transducer

/-!
# The Streams That a Mixer Has

An audio mixer keeps its streams under keys. A stereo mixer has two, and also points to them
as the left and the right one. Streams are created and deleted, and every operation that finds
a key goes to the stream that the key has.

A stereo mixer does not create a third stream. The key is put into the map all the same,
without a stream, and is reported as added.

When all streams are removed the mutex is given back before the left and the right pointer are
cleared, so that the push thread, if it waits for the mutex then, mixes once more.

What mixing takes out of the queues is left out, and so are the samples.

## Main definitions

* `AudioMixer`: The map, the two pointers and the streams that exist.
* `AudioMixer.operate`: One operation, and what it dereferences.
* `Sound`, `AllSound`: What an operation dereferences exists.
* `Careful`: An operation that neither adds a third stream nor is overtaken by the thread.

## Theorems

* `sane_operate`: What one operation leaves.
* `streams_usable`: The operations of a run.
-/

namespace CryptoOpal

namespace Mixer

open Lib (Octets findKey eraseFirst Step run Along)

/-- A stream that exists: what waits in its queue, and in its jitter buffer if it has one. -/
structure StreamObject where
  id : Nat
  queue : List Octets
  jitter : Option (List Octets)
  deriving DecidableEq

/-- `AudioStream::QueuePacket`. -/
def StreamObject.queuePacket (o : StreamObject) (payload : Octets) : StreamObject :=
  match o.jitter with
  | none => { o with queue := o.queue ++ [payload] }
  | some buffer => { o with jitter := some (buffer ++ [payload]) }

/-- A pointer that is dereferenced, and the streams that exist then. -/
structure Use where
  pointer : Option Nat
  live : List Nat
  deriving DecidableEq

/-- The pointer is not null, and the stream exists. -/
def Use.Usable (u : Use) : Prop := ∃ id ∈ u.live, u.pointer = some id

instance (u : Use) : Decidable u.Usable :=
  inferInstanceAs (Decidable (∃ id ∈ u.live, u.pointer = some id))

/-- What an operation returns and dereferences. -/
structure Outcome where
  returned : Bool
  uses : List Use
  deriving DecidableEq

/-- `OpalAudioMixer`. A pointer is the number of a stream, or null. -/
structure AudioMixer (κ : Type) where
  stereo : Bool
  pushThread : Bool
  workerThread : Bool
  sampleRate : Nat
  inputStreams : List (κ × Option Nat)
  left : Option Nat
  right : Option Nat
  objects : List StreamObject
  nextId : Nat
  deriving DecidableEq

/-- The operations, with whether the push thread waits for the mutex when all streams are
removed. -/
inductive Operation (κ : Type) where
  | addStream (key : κ)
  | removeStream (key : κ)
  | removeAllStreams (waiting : Bool)
  | writeStream (key : κ) (payload : Octets)
  | setJitterBufferSize (key : κ) (minJitterDelay maxJitterDelay : Nat)
  | setSampleRate (rate : Nat)
  | mixStreams
  deriving DecidableEq

variable {κ : Type} [DecidableEq κ]

namespace AudioMixer

variable (s : AudioMixer κ)

/-- A mixer that was just created. -/
def created (κ : Type) (stereo pushThread : Bool) (sampleRate : Nat) : AudioMixer κ :=
  ⟨stereo, pushThread, false, sampleRate, [], none, none, [], 0⟩

/-- The streams that were created and not deleted. -/
def live : List Nat := s.objects.map StreamObject.id

/-- `OpalAudioMixer::CreateStream`. -/
def createStream : Option Nat × AudioMixer κ :=
  if s.stereo then
    if s.left = none then
      (some s.nextId, { s with
        objects := s.objects ++ [⟨s.nextId, [], none⟩], nextId := s.nextId + 1
        left := some s.nextId })
    else if s.right = none then
      (some s.nextId, { s with
        objects := s.objects ++ [⟨s.nextId, [], none⟩], nextId := s.nextId + 1
        right := some s.nextId })
    else
      -- the stream is deleted again
      (none, { s with nextId := s.nextId + 1 })
  else
    (some s.nextId, { s with
      objects := s.objects ++ [⟨s.nextId, [], none⟩], nextId := s.nextId + 1 })

/-- The new entry of the map, and `StartPushThread`. -/
def enter (key : κ) (stream : Option Nat) : AudioMixer κ :=
  { s with
    inputStreams := s.inputStreams ++ [(key, stream)]
    workerThread := s.workerThread || s.pushThread }

/-- `AddStream`. -/
def addStream (key : κ) : AudioMixer κ × Outcome :=
  match findKey Prod.fst s.inputStreams key with
  | some _ => (s, ⟨false, []⟩)
  | none => (s.createStream.2.enter key s.createStream.1, ⟨true, []⟩)

/-- What is left when the stream is deleted. A null pointer is no stream. -/
def deleted (objects : List StreamObject) (stream : Option Nat) : List StreamObject :=
  objects.filter fun o => some o.id ≠ stream

/-- The pointer that is deleted is dereferenced if it is not null. -/
def deleteUses (objects : List StreamObject) : Option Nat → List Use
  | none => []
  | some id => [⟨some id, objects.map StreamObject.id⟩]

/-- `StopPushThread` if there is no stream left. -/
def stopIfEmpty : AudioMixer κ :=
  if s.inputStreams = [] then { s with workerThread := false } else s

/-- The entry leaves the map, and its stream is deleted. -/
def drop (key : κ) (stream : Option Nat) : AudioMixer κ :=
  { s with
    inputStreams := eraseFirst Prod.fst key s.inputStreams
    objects := deleted s.objects stream }

/-- `OpalBaseMixer::RemoveStream`. -/
def baseRemoveStream (key : κ) : AudioMixer κ × Outcome :=
  match findKey Prod.fst s.inputStreams key with
  | none => (s.stopIfEmpty, ⟨true, []⟩)
  | some entry => ((s.drop key entry.2).stopIfEmpty, ⟨true, deleteUses s.objects entry.2⟩)

/-- The pointer of a side that is to the stream is cleared. -/
def clearSide (stream : Option Nat) : AudioMixer κ :=
  if s.left = stream then { s with left := none }
  else if s.right = stream then { s with right := none }
  else s

/-- `OpalAudioMixer::RemoveStream`. -/
def removeStream (key : κ) : AudioMixer κ × Outcome :=
  if s.stereo then
    match findKey Prod.fst s.inputStreams key with
    | none => (s, ⟨true, []⟩)
    | some entry => (s.clearSide entry.2).baseRemoveStream key
  else
    s.baseRemoveStream key

/-- What mixing dereferences: the sides that are not null, or every stream of the map. -/
def mixUses : List Use :=
  if s.stereo then
    ([s.left, s.right].filter (· ≠ none)).map fun side => ⟨side, s.live⟩
  else
    s.inputStreams.map fun entry => ⟨entry.2, s.live⟩

/-- The streams of the map are deleted, one by one. -/
def deleteAll : List (Option Nat) → List StreamObject → List Use × List StreamObject
  | [], objects => ([], objects)
  | stream :: rest, objects =>
    (deleteUses objects stream ++ (deleteAll rest (deleted objects stream)).1,
      (deleteAll rest (deleted objects stream)).2)

/-- `OpalBaseMixer::RemoveAllStreams`. -/
def baseRemoveAllStreams : AudioMixer κ :=
  { s with
    inputStreams := []
    objects := (deleteAll (s.inputStreams.map Prod.snd) s.objects).2
    workerThread := false }

/-- `OpalAudioMixer::RemoveAllStreams`, with what the push thread does before the pointers are
cleared. -/
def removeAllStreams (waiting : Bool) : AudioMixer κ × Outcome :=
  ({ s with
      inputStreams := []
      objects := (deleteAll (s.inputStreams.map Prod.snd) s.objects).2
      workerThread := false
      left := none
      right := none },
    ⟨true, (deleteAll (s.inputStreams.map Prod.snd) s.objects).1 ++
      if waiting && s.workerThread then s.baseRemoveAllStreams.mixUses else []⟩)

/-- The stream of a pointer is changed. -/
def change (stream : Option Nat) (f : StreamObject → StreamObject) : AudioMixer κ :=
  { s with objects := s.objects.map fun o => if some o.id = stream then f o else o }

/-- `WriteStream`. -/
def writeStream (key : κ) (payload : Octets) : AudioMixer κ × Outcome :=
  if payload = [] then (s, ⟨true, []⟩)
  else
    match findKey Prod.fst s.inputStreams key with
    | none => (s, ⟨true, []⟩)
    | some entry =>
      (s.change entry.2 (·.queuePacket payload), ⟨true, [⟨entry.2, s.live⟩]⟩)

/-- What `SetJitterBufferSize` makes of a stream. -/
def withJitter (minJitterDelay maxJitterDelay : Nat) (o : StreamObject) : StreamObject :=
  match o.jitter with
  | some _ =>
    if minJitterDelay ≠ 0 ∧ maxJitterDelay ≠ 0 then o else { o with jitter := none }
  | none =>
    if minJitterDelay ≠ 0 ∧ maxJitterDelay ≠ 0 then { o with jitter := some [] } else o

/-- `SetJitterBufferSize`. -/
def setJitterBufferSize (key : κ) (minJitterDelay maxJitterDelay : Nat) :
    AudioMixer κ × Outcome :=
  match findKey Prod.fst s.inputStreams key with
  | none => (s, ⟨false, []⟩)
  | some entry =>
    (s.change entry.2 (withJitter minJitterDelay maxJitterDelay), ⟨true, [⟨entry.2, s.live⟩]⟩)

/-- `SetSampleRate`. -/
def setSampleRate (rate : Nat) : AudioMixer κ × Outcome :=
  if s.inputStreams = [] then ({ s with sampleRate := rate }, ⟨true, []⟩)
  else (s, ⟨rate = s.sampleRate, []⟩)

/-- One operation. -/
def operate (s : AudioMixer κ) : Operation κ → AudioMixer κ × Outcome
  | .addStream key => s.addStream key
  | .removeStream key => s.removeStream key
  | .removeAllStreams waiting => s.removeAllStreams waiting
  | .writeStream key payload => s.writeStream key payload
  | .setJitterBufferSize key minJitterDelay maxJitterDelay =>
    s.setJitterBufferSize key minJitterDelay maxJitterDelay
  | .setSampleRate rate => s.setSampleRate rate
  | .mixStreams => (s, ⟨true, s.mixUses⟩)

/-- The key has a stream, and what is written to the key is queued there. -/
def QueuesTo (key : κ) : Prop :=
  ∃ o ∈ s.objects, findKey Prod.fst s.inputStreams key = some (key, some o.id) ∧
    ∀ payload ≠ [], o.queuePacket payload ∈ (s.writeStream key payload).1.objects

/-- Every entry of the map has a stream of its own, and the sides are in the map. -/
structure Sane : Prop where
  keys : (s.inputStreams.map Prod.fst).Nodup
  pointers : ∀ p ∈ s.inputStreams.map Prod.snd, ∃ id ∈ s.live, p = some id
  distinct : (s.inputStreams.map Prod.snd).Nodup
  fresh : ∀ id ∈ s.live, id < s.nextId
  mono : s.stereo = false → s.left = none ∧ s.right = none
  sides : ∀ id, s.left = some id ∨ s.right = some id → some id ∈ s.inputStreams.map Prod.snd
  apart : ∀ id, s.left = some id → s.right ≠ some id

/-- The operation does not add a third stream to a stereo mixer, and does not remove all
streams of one while the push thread waits. -/
def Careful (s : AudioMixer κ) : Operation κ → Prop
  | .addStream key => s.stereo = true → findKey Prod.fst s.inputStreams key = none →
      s.left = none ∨ s.right = none
  | .removeAllStreams waiting => s.stereo = true → waiting = true → s.workerThread = true →
      s.left = none ∧ s.right = none
  | _ => True

instance (s : AudioMixer κ) (op : Operation κ) : Decidable (Careful s op) :=
  match op with
  | .addStream key => inferInstanceAs (Decidable (s.stereo = true →
      findKey Prod.fst s.inputStreams key = none → s.left = none ∨ s.right = none))
  | .removeAllStreams waiting => inferInstanceAs (Decidable (s.stereo = true →
      waiting = true → s.workerThread = true → s.left = none ∧ s.right = none))
  | .removeStream _ => isTrue trivial
  | .writeStream _ _ => isTrue trivial
  | .setJitterBufferSize _ _ _ => isTrue trivial
  | .setSampleRate _ => isTrue trivial
  | .mixStreams => isTrue trivial

end AudioMixer

/-- What an operation dereferences exists, and a key that it adds has a stream. -/
def Sound (x : Step (AudioMixer κ) (Operation κ) Outcome) : Prop :=
  (∀ u ∈ x.output.uses, u.Usable) ∧
    ∀ key, x.input = .addStream key → x.output.returned = true → x.after.QueuesTo key

/-- All operations of a run of a new mixer are sound. -/
def AllSound (stereo pushThread : Bool) (sampleRate : Nat) (ops : List (Operation κ)) : Prop :=
  ∀ x ∈ run AudioMixer.operate (AudioMixer.created κ stereo pushThread sampleRate) ops, Sound x

namespace AudioMixer

variable {s : AudioMixer κ} {key : κ}

section Map

/-- A stream that is found is one of those in the map. -/
theorem mem_of_find {entry : κ × Option Nat} (h : findKey Prod.fst s.inputStreams key = some entry) :
    entry.2 ∈ s.inputStreams.map Prod.snd :=
  List.mem_map_of_mem (Lib.mem_of_findKey h)

/-- A stream that is found exists. -/
theorem usable_of_find (h : s.Sane) {entry : κ × Option Nat}
    (hfind : findKey Prod.fst s.inputStreams key = some entry) :
    ∃ id ∈ s.live, entry = (key, some id) := by
  rcases h.pointers _ (mem_of_find hfind) with ⟨id, hid, hp⟩
  exact ⟨id, hid, Prod.ext (Lib.key_of_findKey hfind) hp⟩

omit [DecidableEq κ] in
theorem live_change {f : StreamObject → StreamObject} (hf : ∀ o, (f o).id = o.id)
    (p : Option Nat) : (s.change p f).live = s.live := by
  rw [live, live, change, List.map_map]
  refine List.map_congr_left fun o _ => ?_
  rw [Function.comp_apply]
  split
  · exact hf o
  · rfl

/-- A change of what a stream holds. -/
theorem Sane.change (h : s.Sane) {f : StreamObject → StreamObject} (hf : ∀ o, (f o).id = o.id)
    (p : Option Nat) : (s.change p f).Sane where
  keys := h.keys
  pointers q hq := by
    rw [live_change hf]
    exact h.pointers q hq
  distinct := h.distinct
  fresh id hid := h.fresh id (by rwa [live_change hf] at hid)
  mono := h.mono
  sides := h.sides
  apart := h.apart

theorem id_queuePacket (payload : Octets) (o : StreamObject) :
    (o.queuePacket payload).id = o.id := by
  unfold StreamObject.queuePacket
  split <;> rfl

theorem id_withJitter (minJitterDelay maxJitterDelay : Nat) (o : StreamObject) :
    (withJitter minJitterDelay maxJitterDelay o).id = o.id := by
  unfold withJitter
  split <;> split <;> rfl

omit [DecidableEq κ] in
theorem Sane.stopIfEmpty (h : s.Sane) : s.stopIfEmpty.Sane := by
  unfold AudioMixer.stopIfEmpty
  split
  · exact { h with }
  · exact h

end Map

section Adding

/-- What a stream that is created changes. -/
structure Grown (s t : AudioMixer κ) : Prop where
  objects : t.objects = s.objects ++ [⟨s.nextId, [], none⟩]
  nextId : t.nextId = s.nextId + 1
  inputStreams : t.inputStreams = s.inputStreams
  stereo : t.stereo = s.stereo
  sides : (t.left = s.left ∧ t.right = s.right) ∨
    (s.stereo = true ∧ s.left = none ∧ t.left = some s.nextId ∧ t.right = s.right) ∨
    (s.stereo = true ∧ s.right = none ∧ t.left = s.left ∧ t.right = some s.nextId)

omit [DecidableEq κ] in
theorem createStream_grown (h : s.stereo = true → s.left = none ∨ s.right = none) :
    s.createStream.1 = some s.nextId ∧ Grown s s.createStream.2 := by
  unfold createStream
  by_cases hstereo : s.stereo = true
  · rw [if_pos hstereo]
    by_cases hleft : s.left = none
    · rw [if_pos hleft]
      exact ⟨rfl, rfl, rfl, rfl, rfl, .inr (.inl ⟨hstereo, hleft, rfl, rfl⟩)⟩
    · have hright := (h hstereo).resolve_left hleft
      rw [if_neg hleft, if_pos hright]
      exact ⟨rfl, rfl, rfl, rfl, rfl, .inr (.inr ⟨hstereo, hright, rfl, rfl⟩)⟩
  · rw [if_neg hstereo]
    exact ⟨rfl, rfl, rfl, rfl, rfl, .inl ⟨rfl, rfl⟩⟩

/-- The number of the next stream is not in the map. -/
theorem Sane.next_notMem (h : s.Sane) : some s.nextId ∉ s.inputStreams.map Prod.snd := by
  intro hmem
  rcases h.pointers _ hmem with ⟨id, hid, heq⟩
  cases heq
  exact Nat.lt_irrefl _ (h.fresh _ hid)

/-- A stream is added. -/
theorem sane_enter (h : s.Sane) (hnew : findKey Prod.fst s.inputStreams key = none)
    {t : AudioMixer κ} (hgrown : Grown s t) : (t.enter key (some s.nextId)).Sane := by
  have hlive : (t.enter key (some s.nextId)).live = s.live ++ [s.nextId] := by
    rw [live, enter, hgrown.objects, List.map_append]
    rfl
  have hinput : (t.enter key (some s.nextId)).inputStreams =
      s.inputStreams ++ [(key, some s.nextId)] := by rw [enter, hgrown.inputStreams]
  refine ⟨?_, ?_, ?_, ?_, ?_, ?_, ?_⟩
  · rw [hinput, List.map_append]
    exact h.keys.append (List.nodup_singleton _)
      (List.disjoint_singleton.mpr (Lib.findKey_eq_none.mp hnew))
  · intro p hp
    rw [hinput, List.map_append, List.mem_append] at hp
    rw [hlive]
    rcases hp with hp | hp
    · rcases h.pointers p hp with ⟨id, hid, heq⟩
      exact ⟨id, List.mem_append_left _ hid, heq⟩
    · exact ⟨s.nextId, List.mem_append_right _ List.mem_cons_self, List.mem_singleton.mp hp⟩
  · rw [hinput, List.map_append]
    exact h.distinct.append (List.nodup_singleton _) (List.disjoint_singleton.mpr h.next_notMem)
  · intro id hid
    rw [hlive, List.mem_append, List.mem_singleton] at hid
    show id < t.nextId
    rw [hgrown.nextId]
    rcases hid with hid | hid
    · exact Nat.lt_succ_of_lt (h.fresh id hid)
    · omega
  · intro hmono
    have hmono' : s.stereo = false := hgrown.stereo ▸ hmono
    rcases hgrown.sides with ⟨hl, hr⟩ | ⟨hstereo, -⟩ | ⟨hstereo, -⟩
    · show t.left = none ∧ t.right = none
      rw [hl, hr]
      exact h.mono hmono'
    · rw [hmono'] at hstereo
      cases hstereo
    · rw [hmono'] at hstereo
      cases hstereo
  · intro id hside
    rw [hinput, List.map_append, List.mem_append]
    have hside' : t.left = some id ∨ t.right = some id := hside
    rcases hgrown.sides with ⟨hl, hr⟩ | ⟨-, -, hl, hr⟩ | ⟨-, -, hl, hr⟩ <;> rw [hl, hr] at hside'
    · exact .inl (h.sides id hside')
    · rcases hside' with heq | hr'
      · exact .inr (List.mem_singleton.mpr heq.symm)
      · exact .inl (h.sides id (.inr hr'))
    · rcases hside' with hl' | heq
      · exact .inl (h.sides id (.inl hl'))
      · exact .inr (List.mem_singleton.mpr heq.symm)
  · intro id hleft hright
    have hleft' : t.left = some id := hleft
    have hright' : t.right = some id := hright
    rcases hgrown.sides with ⟨hl, hr⟩ | ⟨-, -, hl, hr⟩ | ⟨-, -, hl, hr⟩ <;>
      rw [hl] at hleft' <;> rw [hr] at hright'
    · exact h.apart id hleft' hright'
    · rw [← hleft'] at hright'
      exact h.next_notMem (h.sides _ (.inr hright'))
    · rw [← hright'] at hleft'
      exact h.next_notMem (h.sides _ (.inl hleft'))

end Adding

section Removing

theorem clearSide_eq (p : Option Nat) : (s.clearSide p).inputStreams = s.inputStreams ∧
    (s.clearSide p).objects = s.objects ∧ (s.clearSide p).nextId = s.nextId ∧
    (s.clearSide p).stereo = s.stereo := by
  unfold clearSide
  split
  · exact ⟨rfl, rfl, rfl, rfl⟩
  · split <;> exact ⟨rfl, rfl, rfl, rfl⟩

omit [DecidableEq κ] in
/-- Once a side is cleared, neither side is to the stream. -/
theorem clearSide_sides (h : s.Sane) (id : Nat) :
    (∀ other, (s.clearSide (some id)).left = some other → s.left = some other ∧ other ≠ id) ∧
      ∀ other, (s.clearSide (some id)).right = some other → s.right = some other ∧ other ≠ id := by
  unfold clearSide
  by_cases hleft : s.left = some id
  · rw [if_pos hleft]
    refine ⟨fun other hother => (nomatch hother), fun other hother => ⟨hother, fun heq => ?_⟩⟩
    exact h.apart id hleft (heq ▸ hother)
  · rw [if_neg hleft]
    by_cases hright : s.right = some id
    · rw [if_pos hright]
      exact ⟨fun other hother => ⟨hother, fun heq => hleft (heq ▸ hother)⟩,
        fun other hother => (nomatch hother)⟩
    · rw [if_neg hright]
      exact ⟨fun other hother => ⟨hother, fun heq => hleft (heq ▸ hother)⟩,
        fun other hother => ⟨hother, fun heq => hright (heq ▸ hother)⟩⟩

/-- An entry and its stream go. -/
theorem sane_drop (h : s.Sane) {id : Nat} {t : AudioMixer κ}
    (hfind : findKey Prod.fst s.inputStreams key = some (key, some id))
    (hinput : t.inputStreams = s.inputStreams) (hobjects : t.objects = s.objects)
    (hnext : t.nextId = s.nextId) (hstereo : t.stereo = s.stereo)
    (hleft : ∀ other, t.left = some other → s.left = some other ∧ other ≠ id)
    (hright : ∀ other, t.right = some other → s.right = some other ∧ other ≠ id) :
    (t.drop key (some id)).Sane := by
  have hperm : s.inputStreams.Perm ((key, some id) :: eraseFirst Prod.fst key s.inputStreams) :=
    (Lib.perm_eraseFirst hfind).symm
  have hvalues := hperm.map Prod.snd
  have hnodup : some id ∉ (eraseFirst Prod.fst key s.inputStreams).map Prod.snd ∧
      ((eraseFirst Prod.fst key s.inputStreams).map Prod.snd).Nodup := by
    rw [← List.nodup_cons]
    exact hvalues.nodup_iff.mp h.distinct
  have hsub := @Lib.eraseFirst_sublist _ _ _ Prod.fst s.inputStreams key
  have hlive : ∀ other, other ∈ (t.drop key (some id)).live ↔ other ∈ s.live ∧ other ≠ id := by
    intro other
    rw [live, drop, deleted, hobjects, live, List.mem_map, List.mem_map]
    constructor
    · rintro ⟨o, ho, rfl⟩
      rw [List.mem_filter, decide_eq_true_iff] at ho
      exact ⟨⟨o, ho.1, rfl⟩, fun heq => ho.2 (congrArg some heq)⟩
    · rintro ⟨⟨o, ho, rfl⟩, hne⟩
      refine ⟨o, List.mem_filter.mpr ⟨ho, decide_eq_true fun heq => hne ?_⟩, rfl⟩
      exact Option.some.inj heq
  refine ⟨?_, ?_, ?_, ?_, ?_, ?_, ?_⟩
  · rw [drop, hinput]
    exact (hsub.map Prod.fst).nodup h.keys
  · intro p hp
    rw [drop, hinput] at hp
    rcases h.pointers p ((hsub.map Prod.snd).subset hp) with ⟨other, hother, rfl⟩
    exact ⟨other, (hlive other).mpr ⟨hother, fun heq => hnodup.1 (heq ▸ hp)⟩, rfl⟩
  · rw [drop, hinput]
    exact hnodup.2
  · intro other hother
    show other < t.nextId
    rw [hnext]
    exact h.fresh other ((hlive other).mp hother).1
  · intro hmono
    have hnone := h.mono (hstereo ▸ hmono)
    show t.left = none ∧ t.right = none
    refine ⟨?_, ?_⟩
    · cases hl : t.left with
      | none => rfl
      | some other =>
          have hsome := (hleft other hl).1
          rw [hnone.1] at hsome
          cases hsome
    · cases hr : t.right with
      | none => rfl
      | some other =>
          have hsome := (hright other hr).1
          rw [hnone.2] at hsome
          cases hsome
  · intro other hside
    have hmem : some other ∈ s.inputStreams.map Prod.snd ∧ other ≠ id := by
      rcases hside with hside | hside
      · exact ⟨h.sides other (.inl (hleft other hside).1), (hleft other hside).2⟩
      · exact ⟨h.sides other (.inr (hright other hside).1), (hright other hside).2⟩
    rw [drop, hinput]
    rcases List.mem_cons.mp (hvalues.mem_iff.mp hmem.1) with heq | hin
    · exact absurd (Option.some.inj heq) hmem.2
    · exact hin
  · intro other hl hr
    exact h.apart other (hleft other hl).1 (hright other hr).1

/-- A stream that is deleted exists. -/
theorem sane_baseRemoveStream (h : s.Sane) {t : AudioMixer κ} (key : κ)
    (hinput : t.inputStreams = s.inputStreams) (hobjects : t.objects = s.objects)
    (hnext : t.nextId = s.nextId) (hstereo : t.stereo = s.stereo)
    (hleft : ∀ id, findKey Prod.fst s.inputStreams key = some (key, some id) →
      ∀ other, t.left = some other → s.left = some other ∧ other ≠ id)
    (hright : ∀ id, findKey Prod.fst s.inputStreams key = some (key, some id) →
      ∀ other, t.right = some other → s.right = some other ∧ other ≠ id)
    (hnone : findKey Prod.fst s.inputStreams key = none → t.Sane) :
    (t.baseRemoveStream key).1.Sane ∧
      ∀ u ∈ (t.baseRemoveStream key).2.uses, u.Usable := by
  unfold baseRemoveStream
  cases hfind : findKey Prod.fst s.inputStreams key with
  | none =>
      rw [hinput, hfind]
      exact ⟨(hnone hfind).stopIfEmpty, fun u hu => absurd hu List.not_mem_nil⟩
  | some entry =>
      rcases usable_of_find h hfind with ⟨id, hid, rfl⟩
      rw [hinput, hfind]
      simp only
      refine ⟨(sane_drop h hfind hinput hobjects hnext hstereo (hleft id hfind)
        (hright id hfind)).stopIfEmpty, fun u hu => ?_⟩
      rw [deleteUses, List.mem_singleton, hobjects] at hu
      rw [hu]
      exact ⟨id, hid, rfl⟩

/-- All streams of the map are deleted, each one once. -/
theorem deleteAll_usable {ps : List (Option Nat)} {objects : List StreamObject}
    (hlive : ∀ p ∈ ps, ∃ o ∈ objects, p = some o.id) (hnodup : ps.Nodup) :
    (∀ u ∈ (deleteAll ps objects).1, u.Usable) ∧
      (deleteAll ps objects).2.Sublist objects := by
  induction ps generalizing objects with
  | nil => exact ⟨fun u hu => absurd hu List.not_mem_nil, List.Sublist.refl _⟩
  | cons p ps ih =>
      rw [List.nodup_cons] at hnodup
      rcases hlive p List.mem_cons_self with ⟨o, ho, rfl⟩
      have hrest : ∀ q ∈ ps, ∃ o' ∈ deleted objects (some o.id), q = some o'.id := by
        intro q hq
        rcases hlive q (List.mem_cons_of_mem _ hq) with ⟨o', ho', rfl⟩
        refine ⟨o', List.mem_filter.mpr ⟨ho', decide_eq_true fun heq => hnodup.1 ?_⟩, rfl⟩
        exact heq ▸ hq
      obtain ⟨huses, hsub⟩ := ih hrest hnodup.2
      rw [deleteAll]
      refine ⟨fun u hu => ?_, hsub.trans List.filter_sublist⟩
      rcases List.mem_append.mp hu with hu | hu
      · rw [deleteUses, List.mem_singleton] at hu
        rw [hu]
        exact ⟨o.id, List.mem_map_of_mem ho, rfl⟩
      · exact huses u hu

end Removing

section Steps

/-- What mixing dereferences exists. -/
theorem mixUses_usable (h : s.Sane) : ∀ u ∈ s.mixUses, u.Usable := by
  unfold mixUses
  intro u hu
  split at hu
  · rcases List.mem_map.mp hu with ⟨side, hside, rfl⟩
    rw [List.mem_filter, decide_eq_true_iff] at hside
    cases hp : side with
    | none => exact absurd hp hside.2
    | some id =>
        have hboth : s.left = some id ∨ s.right = some id := by
          rcases List.mem_cons.mp hside.1 with heq | hmem
          · exact .inl (heq.symm.trans hp)
          · exact .inr ((List.mem_singleton.mp hmem).symm.trans hp)
        rcases h.pointers _ (h.sides id hboth) with ⟨id', hlive, heq⟩
        exact ⟨id', hlive, heq⟩
  · rcases List.mem_map.mp hu with ⟨entry, hentry, rfl⟩
    exact h.pointers _ (List.mem_map_of_mem hentry)

/-- What is written to a key that has a stream is queued there. -/
theorem queuesTo_of_find {o : StreamObject} (ho : o ∈ s.objects)
    (hfind : findKey Prod.fst s.inputStreams key = some (key, some o.id)) : s.QueuesTo key := by
  refine ⟨o, ho, hfind, fun payload hpayload => ?_⟩
  rw [writeStream, if_neg hpayload, hfind]
  exact List.mem_map.mpr ⟨o, ho, if_pos rfl⟩

theorem addStream_spec (h : s.Sane) (hcareful : Careful s (.addStream key)) :
    (s.addStream key).1.Sane ∧ (s.addStream key).2.uses = [] ∧
      ((s.addStream key).2.returned = true → (s.addStream key).1.QueuesTo key) := by
  unfold addStream
  cases hfind : findKey Prod.fst s.inputStreams key with
  | some entry => exact ⟨h, rfl, fun hfalse => (nomatch hfalse)⟩
  | none =>
      obtain ⟨hp, hgrown⟩ := createStream_grown fun hstereo => hcareful hstereo hfind
      rw [hp]
      refine ⟨sane_enter h hfind hgrown, rfl, fun _ =>
        @queuesTo_of_find _ _ _ _ ⟨s.nextId, [], none⟩ ?_ ?_⟩
      · show _ ∈ s.createStream.2.objects
        rw [hgrown.objects]
        exact List.mem_append_right _ List.mem_cons_self
      · show findKey Prod.fst (s.createStream.2.inputStreams ++ _) key = _
        rw [hgrown.inputStreams, Lib.findKey_append, hfind, Option.none_or, Lib.findKey_cons,
          if_pos rfl]

theorem removeStream_spec (h : s.Sane) (key : κ) :
    (s.removeStream key).1.Sane ∧ ∀ u ∈ (s.removeStream key).2.uses, u.Usable := by
  unfold removeStream
  by_cases hstereo : s.stereo = true
  · rw [if_pos hstereo]
    cases hfind : findKey Prod.fst s.inputStreams key with
    | none => exact ⟨h, fun u hu => absurd hu List.not_mem_nil⟩
    | some entry =>
        rcases usable_of_find h hfind with ⟨id, -, rfl⟩
        obtain ⟨hinput, hobjects, hnext, hsame⟩ := @clearSide_eq _ _ s (some id)
        have hsides := clearSide_sides h id
        refine sane_baseRemoveStream h key hinput hobjects hnext hsame ?_ ?_ ?_
        · intro id' hfind'
          rw [hfind] at hfind'
          cases hfind'
          exact hsides.1
        · intro id' hfind'
          rw [hfind] at hfind'
          cases hfind'
          exact hsides.2
        · intro hnone
          rw [hfind] at hnone
          cases hnone
  · rw [if_neg hstereo]
    have hnone := h.mono (Bool.not_eq_true _ ▸ hstereo)
    refine sane_baseRemoveStream h key rfl rfl rfl rfl ?_ ?_ fun _ => h
    · intro _ _ other hother
      rw [hnone.1] at hother
      cases hother
    · intro _ _ other hother
      rw [hnone.2] at hother
      cases hother

theorem removeAllStreams_spec (h : s.Sane) {waiting : Bool}
    (hcareful : Careful s (.removeAllStreams waiting)) :
    (s.removeAllStreams waiting).1.Sane ∧
      ∀ u ∈ (s.removeAllStreams waiting).2.uses, u.Usable := by
  have hlive : ∀ p ∈ s.inputStreams.map Prod.snd, ∃ o ∈ s.objects, p = some o.id := by
    intro p hp
    rcases h.pointers p hp with ⟨id, hid, rfl⟩
    rcases List.mem_map.mp hid with ⟨o, ho, rfl⟩
    exact ⟨o, ho, rfl⟩
  obtain ⟨huses, hsub⟩ := deleteAll_usable hlive h.distinct
  refine ⟨⟨List.nodup_nil, fun p hp => absurd hp List.not_mem_nil, List.nodup_nil,
    fun id hid => h.fresh id ((hsub.map StreamObject.id).subset hid), fun _ => ⟨rfl, rfl⟩,
    fun id hside => ?_, fun id hleft => (nomatch hleft)⟩, fun u hu => ?_⟩
  · rcases hside with hside | hside <;> cases hside
  · rcases List.mem_append.mp hu with hu | hu
    · exact huses u hu
    · -- the thread mixes what is left: no entry of the map, and no side
      split at hu
      · rename_i hwaiting
        rw [Bool.and_eq_true] at hwaiting
        unfold mixUses at hu
        split at hu
        · rename_i hstereo
          obtain ⟨hleft, hright⟩ := hcareful hstereo hwaiting.1 hwaiting.2
          rcases List.mem_map.mp hu with ⟨side, hside, -⟩
          rw [List.mem_filter, decide_eq_true_iff] at hside
          refine absurd ?_ hside.2
          rcases List.mem_cons.mp hside.1 with heq | hmem
          · exact heq.trans hleft
          · exact (List.mem_singleton.mp hmem).trans hright
        · exact absurd hu List.not_mem_nil
      · exact absurd hu List.not_mem_nil

/-- A stream that is found is changed, and nothing else. -/
theorem change_spec (h : s.Sane) {entry : κ × Option Nat} {f : StreamObject → StreamObject}
    (hf : ∀ o, (f o).id = o.id) (hfind : findKey Prod.fst s.inputStreams key = some entry) :
    (s.change entry.2 f).Sane ∧ ∀ u ∈ [(⟨entry.2, s.live⟩ : Use)], u.Usable := by
  refine ⟨h.change hf _, fun u hu => ?_⟩
  rw [List.mem_singleton] at hu
  rw [hu]
  rcases usable_of_find h hfind with ⟨id, hid, rfl⟩
  exact ⟨id, hid, rfl⟩

/-- What one operation leaves, and what it dereferences. -/
theorem sane_operate (h : s.Sane) {op : Operation κ} (hcareful : Careful s op) :
    (s.operate op).1.Sane ∧ ∀ u ∈ (s.operate op).2.uses, u.Usable := by
  have hnil : ∀ u ∈ ([] : List Use), u.Usable := fun u hu => absurd hu List.not_mem_nil
  cases op with
  | addStream key =>
      obtain ⟨hsane, huses, -⟩ := addStream_spec h hcareful
      refine ⟨hsane, ?_⟩
      show ∀ u ∈ (s.addStream key).2.uses, u.Usable
      rw [huses]
      exact hnil
  | removeStream key => exact removeStream_spec h key
  | removeAllStreams waiting => exact removeAllStreams_spec h hcareful
  | writeStream key payload =>
      show (s.writeStream key payload).1.Sane ∧ ∀ u ∈ (s.writeStream key payload).2.uses, _
      unfold writeStream
      split
      · exact ⟨h, hnil⟩
      · split
        · exact ⟨h, hnil⟩
        · exact change_spec h (id_queuePacket payload) ‹_›
  | setJitterBufferSize key minJitterDelay maxJitterDelay =>
      show (s.setJitterBufferSize key minJitterDelay maxJitterDelay).1.Sane ∧
        ∀ u ∈ (s.setJitterBufferSize key minJitterDelay maxJitterDelay).2.uses, _
      unfold setJitterBufferSize
      split
      · exact ⟨h, hnil⟩
      · exact change_spec h (id_withJitter minJitterDelay maxJitterDelay) ‹_›
  | setSampleRate rate =>
      show (s.setSampleRate rate).1.Sane ∧ ∀ u ∈ (s.setSampleRate rate).2.uses, _
      unfold setSampleRate
      split
      · exact ⟨{ h with }, hnil⟩
      · exact ⟨h, hnil⟩
  | mixStreams => exact ⟨h, mixUses_usable h⟩

theorem sane_created (stereo pushThread : Bool) (sampleRate : Nat) :
    (created κ stereo pushThread sampleRate).Sane where
  keys := List.nodup_nil
  pointers _ hp := absurd hp List.not_mem_nil
  distinct := List.nodup_nil
  fresh _ hid := absurd hid List.not_mem_nil
  mono _ := ⟨rfl, rfl⟩
  sides _ hside := by rcases hside with hside | hside <;> cases hside
  apart _ hleft := (nomatch hleft)

end Steps

/-- In a run whose operations are careful, whatever an operation dereferences exists, and a key
that is added has a stream. -/
theorem streams_usable (stereo pushThread : Bool) (sampleRate : Nat) (ops : List (Operation κ))
    (h : Along operate Careful (created κ stereo pushThread sampleRate) ops) :
    AllSound stereo pushThread sampleRate ops := by
  refine Lib.run_invariant Sane (fun s op hs hop => (sane_operate hs hop).1)
    (fun s op hs hop => ⟨(sane_operate hs hop).2, ?_⟩) _ ops
    (sane_created stereo pushThread sampleRate) h
  intro key hinput hreturned
  have hop' : op = .addStream key := hinput
  subst hop'
  exact (addStream_spec hs hop).2.2 hreturned

/-- Two streams of a stereo mixer, one of which is removed and added again. -/
theorem streams_usable_stereo :
    @AllSound Nat _ true true 8000
      [.addStream 1, .addStream 2, .writeStream 2 [1, 2], .mixStreams, .removeStream 1,
        .addStream 3, .setJitterBufferSize 3 20 60, .mixStreams] :=
  streams_usable true true 8000 _ (by decide)

/-- A third stream of a stereo mixer is reported as added, and what is written to it goes to a null
pointer. -/
theorem not_allSound_third :
    ¬∀ (stereo pushThread : Bool) (sampleRate : Nat) (ops : List (Operation Nat)),
      AllSound stereo pushThread sampleRate ops := by
  intro h
  have hthird := h true true 8000
    [.addStream 1, .addStream 2, .addStream 3, .writeStream 3 [1, 2]]
  have hwrite := (hthird _ (List.mem_cons_of_mem _ (List.mem_cons_of_mem _
    (List.mem_cons_of_mem _ List.mem_cons_self)))).1 ⟨none, [0, 1]⟩
    (by exact List.mem_cons_self)
  revert hwrite
  decide

end AudioMixer

end Mixer

end CryptoOpal
