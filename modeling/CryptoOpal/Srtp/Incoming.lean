import CryptoOpal.Srtp.Estimate
import CryptoOpal.Srtp.Header

/-!
# The Stream of a Received Packet

The two ends of the receive functions, which the paths between them share.
At the start a packet finds its stream and its index, and the replay check
is made unless the index is far ahead. At the end, once the packet has
authenticated, the stream claims the direction and records the index.

A packet whose SSRC has no stream goes by the template. It is then the last
step that makes a stream of its own for it, so a packet that fails leaves no
stream behind.

`getStream_accept` says what the list of streams holds after the last step,
and the keying that packets go by never changes on the way
(`keyingOn_incoming`, `keyingOn_accept`).

## Main definitions

* `Incoming`, `Session.incoming`: Stream and index of a packet.
* `Session.accept`: Direction, new stream and replay database.

## Theorems

* `incoming_cases`: Where the stream and the index come from.
* `getStream_accept`: The streams once a packet is accepted.
* `keyingOn_accept`: The keying packets go by stays the same.
-/

namespace CryptoOpal

namespace Srtp

open Lib (Octets)

variable {C A : Type}

/-- What `srtp_unprotect_mki` knows of a packet once it has looked up its
    stream: the stream, whether it is the template, and the index. -/
structure Incoming (C A : Type) where
  stream : Stream C A
  provisional : Bool
  advance : Bool
  est : Nat
  delta : Int

/-- Look up the stream and estimate the index; the replay check is part of it
    unless the index is far ahead. A packet without a stream goes by the
    template, with its sequence number as its index. -/
def Session.incoming (s : Session C A) (pkt : Octets) : Except SrtpErrStatus (Incoming C A) :=
  match s.getStream (hdrSsrc pkt) with
  | none =>
    match s.streamTemplate with
    | none => .error .noCtx
    | some template =>
      .ok { stream := template, provisional := true, advance := false
            est := (hdrSeq pkt).toNat, delta := (hdrSeq pkt).toNat }
  | some stream =>
    match stream.getEstPktIndex (hdrSeq pkt) with
    | (.pktIdxAdv, est, delta) =>
      .ok { stream := stream, provisional := false, advance := true, est := est, delta := delta }
    | (.ok, est, delta) =>
      match stream.rtpRdbx.check delta with
      | .error e => .error e
      | .ok _ =>
        .ok { stream := stream, provisional := false, advance := false, est := est, delta := delta }
    | (e, _, _) => .error e

/-- The end of both paths: claim the direction, make a stream of its own for a
    packet that went by the template, and record the index. -/
def Session.accept (s : Session C A) (inc : Incoming C A) (pkt : Octets) (advance : Bool) :
    Session C A :=
  let stream := inc.stream.claimDirection .srtpReceiver
  if inc.provisional then
    (s.putTemplate stream).insertStream
      ((stream.clone (hdrSsrc pkt)).record advance inc.est inc.delta)
  else s.putStream (stream.record advance inc.est inc.delta)

/-- A packet goes by its stream, which admits its index, or by the template
    with the index that a new stream starts at. -/
theorem incoming_cases {s : Session C A} {pkt : Octets} {inc : Incoming C A}
    (h : s.incoming pkt = .ok inc) :
    (inc.provisional = false ∧ s.getStream (hdrSsrc pkt) = some inc.stream ∧
        inc.stream.Admits (hdrSeq pkt) inc.advance inc.est inc.delta) ∨
      (inc.provisional = true ∧ s.getStream (hdrSsrc pkt) = none ∧
        s.streamTemplate = some inc.stream ∧ inc.advance = false ∧
        inc.est = (hdrSeq pkt).toNat ∧ inc.delta = (hdrSeq pkt).toNat) := by
  rw [Session.incoming] at h
  cases hget : s.getStream (hdrSsrc pkt) with
  | none =>
      cases htemplate : s.streamTemplate with
      | none => simp only [hget, htemplate, reduceCtorEq] at h
      | some template =>
          simp only [hget, htemplate, Except.ok.injEq] at h
          rw [← h]
          exact Or.inr ⟨rfl, rfl, rfl, rfl, rfl, rfl⟩
  | some stream =>
      rcases hest : stream.getEstPktIndex (hdrSeq pkt) with ⟨status, est, delta⟩
      simp only [hget, hest] at h
      split at h
      · rename_i heq
        rw [Prod.mk.injEq, Prod.mk.injEq] at heq
        rw [Except.ok.injEq] at h
        rw [← h, ← heq.2.1, ← heq.2.2]
        exact Or.inl ⟨rfl, rfl, .ahead _ _ (by rw [hest, heq.1])⟩
      · rename_i heq
        rw [Prod.mk.injEq, Prod.mk.injEq] at heq
        rw [← heq.2.1, ← heq.2.2] at h
        cases hcheck : stream.rtpRdbx.check delta with
        | error e => simp only [hcheck, reduceCtorEq] at h
        | ok u =>
            simp only [hcheck, Except.ok.injEq] at h
            rw [← h]
            exact Or.inl ⟨rfl, rfl, .checked _ _ (by rw [hest, heq.1]) hcheck⟩
      · exact absurd h (by simp only [reduceCtorEq, not_false_eq_true])

/-- The stream that an accepted packet leaves for its SSRC. -/
def Incoming.recorded (inc : Incoming C A) (ssrc : UInt32) (advance : Bool) : Stream C A :=
  let stream := inc.stream.claimDirection .srtpReceiver
  if inc.provisional then (stream.clone ssrc).record advance inc.est inc.delta
  else stream.record advance inc.est inc.delta

/-- After a packet is accepted, its SSRC has the recorded stream, and every
    other SSRC the stream it had. -/
theorem getStream_accept {s : Session C A} {pkt : Octets} {inc : Incoming C A}
    (hinc : s.incoming pkt = .ok inc) (advance : Bool) (ssrc : UInt32) :
    (s.accept inc pkt advance).getStream ssrc =
      if hdrSsrc pkt = ssrc then some (inc.recorded (hdrSsrc pkt) advance)
      else s.getStream ssrc := by
  rcases incoming_cases hinc with ⟨hprov, hget, -⟩ | ⟨hprov, hget, -⟩
  · have hkey := Session.ssrc_of_getStream hget
    have hold : s.getStream ((inc.stream.claimDirection .srtpReceiver).record advance inc.est
        inc.delta).ssrc = some inc.stream := by
      rw [Stream.ssrc_record, Stream.ssrc_claimDirection, hkey, hget]
    simp only [Session.accept, Incoming.recorded, hprov, Bool.false_eq_true, if_false]
    rw [Session.getStream_putStream_of_some s _ hold, Stream.ssrc_record,
      Stream.ssrc_claimDirection, hkey]
  · simp only [Session.accept, Incoming.recorded, hprov, if_true]
    rw [Session.getStream_insertStream, Stream.ssrc_record, Stream.ssrc_clone,
      Session.getStream_putTemplate]

@[simp] theorem Incoming.keying_recorded (inc : Incoming C A) (ssrc : UInt32) (advance : Bool) :
    (inc.recorded ssrc advance).keying = inc.stream.keying := by
  simp only [recorded]
  split
  · rw [Stream.keying_record, Stream.keying_clone, Stream.keying_claimDirection]
  · rw [Stream.keying_record, Stream.keying_claimDirection]

/-- A packet goes by the keying of its SSRC. -/
theorem keyingOn_incoming {s : Session C A} {pkt : Octets} {inc : Incoming C A}
    (hinc : s.incoming pkt = .ok inc) : s.keyingOn (hdrSsrc pkt) = some inc.stream.keying := by
  rcases incoming_cases hinc with ⟨-, hget, -⟩ | ⟨-, hget, htemplate, -⟩
  · exact Session.keyingOn_of_getStream hget
  · rw [Session.keyingOn, hget, htemplate, Option.map_some]

/-- Accepting a packet changes the keying of no SSRC. -/
theorem keyingOn_accept {s : Session C A} {pkt : Octets} {inc : Incoming C A}
    (hinc : s.incoming pkt = .ok inc) (advance : Bool) (ssrc : UInt32) :
    (s.accept inc pkt advance).keyingOn ssrc = s.keyingOn ssrc := by
  have hget := getStream_accept hinc advance ssrc
  by_cases hssrc : hdrSsrc pkt = ssrc
  · rw [if_pos hssrc] at hget
    rw [Session.keyingOn_of_getStream hget, Incoming.keying_recorded, ← hssrc,
      keyingOn_incoming hinc]
  · rw [if_neg hssrc] at hget
    have htemplate : (s.accept inc pkt advance).streamTemplate.map Stream.keying =
        s.streamTemplate.map Stream.keying := by
      rcases incoming_cases hinc with ⟨hprov, -⟩ | ⟨hprov, -, htemplate, -⟩
      · simp only [Session.accept, hprov, Bool.false_eq_true, if_false, Session.putStream]
      · simp only [Session.accept, hprov, if_true, Session.insertStream, Session.putTemplate,
          htemplate, Option.map_some, Stream.keying_claimDirection]
    rw [Session.keyingOn, Session.keyingOn, hget, htemplate]

end Srtp

end CryptoOpal
