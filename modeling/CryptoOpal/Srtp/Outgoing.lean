import CryptoOpal.Srtp.Estimate
import CryptoOpal.Srtp.Header

/-!
# The Stream of a Packet to Send

What the send functions do to a session before they build a packet: find the
packet's stream, or make one from the template, and take the packet's index.

Unlike a received packet, a packet to send gets its new stream at once, and
keeps it even if it is then refused.

There are two ways to take an index. On the counter mode path a pending
rollover counter is honoured, and the index is marked even for a repeated
packet. The AEAD path looks at neither. Where repeats are not allowed, both
only take an index the database takes for a new one.

## Main definitions

* `Session.outgoing`: The stream of a packet to send.
* `Stream.takeIndex`, `Stream.takeIndexAead`: The index of the two paths.
* `Stream.AeadInRange`: The AEAD path's index stays within 48 bits.

## Theorems

* `getStream_outgoing`, `keyingOn_outgoing`: The session with the stream.
* `fresh_takeIndex`, `fresh_takeIndexAead`: An index that is taken is new.
* `remembers_takeIndex`, `remembers_takeIndexAead`: It is remembered.
-/

namespace CryptoOpal

namespace Srtp

open Lib (Octets)

variable {C A : Type}

/-- Look up the stream of a packet to send, or make one from the template, and
    claim its direction. Only RTP sets the direction of a new stream. -/
def Session.outgoing (s : Session C A) (ssrc : UInt32) (rtp : Bool) :
    Except SrtpErrStatus (Session C A × Stream C A) :=
  match s.getStream ssrc with
  | some stream =>
    let stream := stream.claimDirection .srtpSender
    .ok (s.putStream stream, stream)
  | none =>
    match s.streamTemplate with
    | none => .error .noCtx
    | some template =>
      let new := template.clone ssrc
      let stream :=
        (if rtp then { new with direction := .srtpSender } else new).claimDirection .srtpSender
      .ok (s.insertStream stream, stream)

/-- The index of a packet on the counter mode path, and the stream with it
    added. A repeated index is refused unless repeats are allowed. -/
def Stream.takeIndex (stream : Stream C A) (seq : UInt16) :
    Except SrtpErrStatus (Stream C A × Nat) :=
  match stream.getEstPktIndex seq with
  | (.pktIdxAdv, est, delta) => .ok (stream.record true est delta, est)
  | (.ok, est, delta) =>
    match stream.rtpRdbx.check delta with
    | .ok _ => .ok (stream.addIndex delta, est)
    | .error e =>
      -- we've been asked to reuse an index
      if e ≠ .replayFail ∨ stream.allowRepeatTx = false then .error e
      else .ok (stream.addIndex delta, est)
  | (e, _, _) => .error e

/-- The index of a packet on the AEAD path. -/
def Stream.takeIndexAead (stream : Stream C A) (seq : UInt16) :
    Except SrtpErrStatus (Stream C A × Nat) :=
  let (est, delta) := stream.rtpRdbx.estimateIndex seq
  match stream.rtpRdbx.check delta with
  | .ok _ => .ok (stream.addIndex delta, est)
  | .error e =>
    -- we've been asked to reuse an index
    if e ≠ .replayFail ∨ stream.allowRepeatTx = false then .error e else .ok (stream, est)

section Streams

variable {s s₁ : Session C A} {stream : Stream C A} {ssrc : UInt32} {rtp : Bool}

/-- A packet to send goes by its stream, or by a new one that is a copy of the
    template; only the direction may change. -/
theorem outgoing_cases (h : s.outgoing ssrc rtp = .ok (s₁, stream)) :
    (∃ old, s.getStream ssrc = some old ∧ stream = old.claimDirection .srtpSender ∧
        s₁ = s.putStream stream) ∨
      (∃ template dir, s.getStream ssrc = none ∧ s.streamTemplate = some template ∧
        stream = { template.clone ssrc with direction := dir } ∧ s₁ = s.insertStream stream) := by
  rw [Session.outgoing] at h
  cases hget : s.getStream ssrc with
  | some old =>
      simp only [hget, Except.ok.injEq, Prod.mk.injEq] at h
      exact Or.inl ⟨old, rfl, h.2.symm, by rw [← h.1, h.2]⟩
  | none =>
      cases htemplate : s.streamTemplate with
      | none => simp only [hget, htemplate, reduceCtorEq] at h
      | some template =>
          simp only [hget, htemplate, Except.ok.injEq, Prod.mk.injEq] at h
          rcases Stream.claimDirection_eq
            (if rtp then { template.clone ssrc with direction := .srtpSender }
              else template.clone ssrc) .srtpSender with ⟨dir, hdir⟩
          refine Or.inr ⟨template, dir, rfl, rfl, ?_, by rw [← h.1, h.2]⟩
          rw [← h.2, hdir]
          cases rtp <;> rfl

theorem getStream_outgoing (h : s.outgoing ssrc rtp = .ok (s₁, stream)) (ssrc' : UInt32) :
    s₁.getStream ssrc' = if ssrc = ssrc' then some stream else s.getStream ssrc' := by
  rcases outgoing_cases h with ⟨old, hget, hstream, hs₁⟩ | ⟨template, dir, hget, -, hstream, hs₁⟩
  · have hkey := Session.ssrc_of_getStream hget
    have hssrc : stream.ssrc = ssrc := by rw [hstream, Stream.ssrc_claimDirection, hkey]
    have hold : s.getStream stream.ssrc = some old := by rw [hssrc, hget]
    rw [hs₁, Session.getStream_putStream_of_some s stream hold, hssrc]
  · have hssrc : stream.ssrc = ssrc := by rw [hstream, Stream.ssrc_clone]
    rw [hs₁, Session.getStream_insertStream, hssrc]

theorem ssrc_outgoing (h : s.outgoing ssrc rtp = .ok (s₁, stream)) : stream.ssrc = ssrc := by
  rcases outgoing_cases h with ⟨old, hget, hstream, -⟩ | ⟨template, dir, -, -, hstream, -⟩
  · rw [hstream, Stream.ssrc_claimDirection, Session.ssrc_of_getStream hget]
  · rw [hstream, Stream.ssrc_clone]

theorem streamTemplate_outgoing (h : s.outgoing ssrc rtp = .ok (s₁, stream)) :
    s₁.streamTemplate = s.streamTemplate := by
  rcases outgoing_cases h with ⟨old, -, -, hs₁⟩ | ⟨template, dir, -, -, -, hs₁⟩ <;> rw [hs₁] <;> rfl

/-- A packet to send goes by the keying of its SSRC. -/
theorem keying_outgoing (h : s.outgoing ssrc rtp = .ok (s₁, stream)) :
    s.keyingOn ssrc = some stream.keying := by
  rcases outgoing_cases h with ⟨old, hget, hstream, -⟩ | ⟨template, dir, hget, htemplate, hstream, -⟩
  · rw [Session.keyingOn_of_getStream hget, hstream, Stream.keying_claimDirection]
  · rw [Session.keyingOn, hget, htemplate, Option.map_some, hstream]
    rfl

/-- Finding the stream to send on changes no keying. -/
theorem keyingOn_outgoing (h : s.outgoing ssrc rtp = .ok (s₁, stream)) (ssrc' : UInt32) :
    s₁.keyingOn ssrc' = s.keyingOn ssrc' := by
  have hget := getStream_outgoing h ssrc'
  by_cases hssrc : ssrc = ssrc'
  · rw [if_pos hssrc] at hget
    rw [Session.keyingOn_of_getStream hget, ← hssrc, keying_outgoing h]
  · rw [if_neg hssrc] at hget
    rw [Session.keyingOn, Session.keyingOn, hget, streamTemplate_outgoing h]

end Streams

section Indices

variable {stream stream' : Stream C A} {seq : UInt16} {est : Nat} {acc : Set Nat}

/-- The AEAD path's estimate stays within 48 bits. -/
def Stream.AeadInRange (stream : Stream C A) (seq : UInt16) : Prop :=
  stream.rtpRdbx.index + (stream.rtpRdbx.estimateIndex seq).2 < 2 ^ 48

instance (stream : Stream C A) (seq : UInt16) : Decidable (stream.AeadInRange seq) :=
  inferInstanceAs (Decidable (_ < _))

/-- Without repeats, the counter mode path takes an index that the database
    admits, and records it like a received one. -/
theorem takeIndex_admits (hrep : stream.allowRepeatTx = false)
    (h : stream.takeIndex seq = .ok (stream', est)) :
    ∃ advance delta, stream.Admits seq advance est delta ∧
      stream' = stream.record advance est delta := by
  rw [Stream.takeIndex] at h
  split at h
  · rename_i hest
    rw [Except.ok.injEq, Prod.mk.injEq] at h
    rw [← h.2, ← h.1]
    exact ⟨true, _, .ahead _ _ hest, rfl⟩
  · rename_i est' delta hest
    cases hcheck : stream.rtpRdbx.check delta with
    | error e => simp only [hcheck, hrep, or_true, if_true, reduceCtorEq] at h
    | ok u =>
        simp only [hcheck, Except.ok.injEq, Prod.mk.injEq] at h
        rw [← h.2, ← h.1]
        exact ⟨false, delta, .checked _ _ hest hcheck, rfl⟩
  · exact absurd h (by simp only [reduceCtorEq, not_false_eq_true])

/-- Without repeats, the AEAD path takes the database's own guess, and only
    when its check passes. -/
theorem takeIndexAead_checked (hrep : stream.allowRepeatTx = false)
    (h : stream.takeIndexAead seq = .ok (stream', est)) :
    (stream.rtpRdbx.estimateIndex seq).1 = est ∧
      stream.rtpRdbx.check (stream.rtpRdbx.estimateIndex seq).2 = .ok () ∧
      stream' = stream.addIndex (stream.rtpRdbx.estimateIndex seq).2 := by
  simp only [Stream.takeIndexAead] at h
  cases hcheck : stream.rtpRdbx.check (stream.rtpRdbx.estimateIndex seq).2 with
  | error e => simp only [hcheck, hrep, or_true, if_true, reduceCtorEq] at h
  | ok u =>
      simp only [hcheck, Except.ok.injEq, Prod.mk.injEq] at h
      exact ⟨h.2, rfl, h.1.symm⟩

theorem fresh_takeIndex (hrep : stream.allowRepeatTx = false) (hrange : stream.InRange seq)
    (hmem : stream.rtpRdbx.Remembers acc) (h : stream.takeIndex seq = .ok (stream', est)) :
    est ∉ acc := by
  rcases takeIndex_admits hrep h with ⟨advance, delta, hadmits, -⟩
  exact Stream.fresh_of_admits hmem hrange hadmits

/-- An index that is taken is remembered, a repeated one included. -/
theorem remembers_takeIndex (hrange : stream.InRange seq) (hmem : stream.rtpRdbx.Remembers acc)
    (h : stream.takeIndex seq = .ok (stream', est)) :
    stream'.rtpRdbx.Remembers (insert est acc) := by
  rw [Stream.takeIndex] at h
  split at h
  · rename_i hest
    rw [Except.ok.injEq, Prod.mk.injEq] at h
    rw [← h.2, ← h.1]
    exact Stream.remembers_record_ahead hmem hest
  · rename_i est' delta hest
    have hadd := Stream.remembers_addIndex hmem hrange hest
    split at h
    · rename_i hcheck
      rw [Except.ok.injEq, Prod.mk.injEq] at h
      rw [← h.2, ← h.1]
      exact hadd (Rdbx.window_of_check hcheck)
    split at h
    · exact absurd h (by simp only [reduceCtorEq, not_false_eq_true])
    · rename_i e hcheck hrepeat
      rw [Except.ok.injEq, Prod.mk.injEq] at h
      have he : e = .replayFail := by
        by_contra hne
        exact hrepeat (Or.inl hne)
      rw [he] at hcheck
      rw [← h.2, ← h.1]
      exact hadd (Rdbx.marked_of_replayFail hcheck).2.1
  · exact absurd h (by simp only [reduceCtorEq, not_false_eq_true])

theorem fresh_takeIndexAead (hrep : stream.allowRepeatTx = false)
    (hrange : stream.AeadInRange seq) (hmem : stream.rtpRdbx.Remembers acc)
    (h : stream.takeIndexAead seq = .ok (stream', est)) : est ∉ acc := by
  rcases takeIndexAead_checked hrep h with ⟨hest, hcheck, -⟩
  rw [← hest]
  exact Rdbx.fresh_of_check hmem (Rdbx.estimateIndex_eq _ _ hrange) hcheck

theorem remembers_takeIndexAead (hrange : stream.AeadInRange seq)
    (hmem : stream.rtpRdbx.Remembers acc) (h : stream.takeIndexAead seq = .ok (stream', est)) :
    stream'.rtpRdbx.Remembers (insert est acc) := by
  have heq := Rdbx.estimateIndex_eq _ _ hrange
  simp only [Stream.takeIndexAead] at h
  split at h
  · rename_i hcheck
    rw [Except.ok.injEq, Prod.mk.injEq] at h
    rw [← h.2, ← h.1]
    exact Rdbx.remembers_addIndex hmem heq (Rdbx.estimateIndex_range _ _).2
      (Rdbx.estimateIndex_lt _ _) (Rdbx.window_of_check hcheck)
  split at h
  · exact absurd h (by simp only [reduceCtorEq, not_false_eq_true])
  · rename_i e hcheck hrepeat
    rw [Except.ok.injEq, Prod.mk.injEq] at h
    have he : e = .replayFail := by
      by_contra hne
      exact hrepeat (Or.inl hne)
    rw [he] at hcheck
    rw [← h.2, ← h.1]
    exact Rdbx.remembers_replayFail hmem heq hcheck

/-- Taking an index leaves SSRC and keying of the stream as they were. -/
theorem frame_takeIndex (h : stream.takeIndex seq = .ok (stream', est)) :
    stream'.ssrc = stream.ssrc ∧ stream'.keying = stream.keying := by
  rw [Stream.takeIndex] at h
  split at h
  · rw [Except.ok.injEq, Prod.mk.injEq] at h
    rw [← h.1, Stream.ssrc_record, Stream.keying_record]
    exact ⟨rfl, rfl⟩
  · split at h
    · rw [Except.ok.injEq, Prod.mk.injEq] at h
      rw [← h.1, Stream.ssrc_addIndex, Stream.keying_addIndex]
      exact ⟨rfl, rfl⟩
    split at h
    · exact absurd h (by simp only [reduceCtorEq, not_false_eq_true])
    · rw [Except.ok.injEq, Prod.mk.injEq] at h
      rw [← h.1, Stream.ssrc_addIndex, Stream.keying_addIndex]
      exact ⟨rfl, rfl⟩
  · exact absurd h (by simp only [reduceCtorEq, not_false_eq_true])

theorem frame_takeIndexAead (h : stream.takeIndexAead seq = .ok (stream', est)) :
    stream'.ssrc = stream.ssrc ∧ stream'.keying = stream.keying := by
  simp only [Stream.takeIndexAead] at h
  split at h
  · rw [Except.ok.injEq, Prod.mk.injEq] at h
    rw [← h.1, Stream.ssrc_addIndex, Stream.keying_addIndex]
    exact ⟨rfl, rfl⟩
  split at h
  · exact absurd h (by simp only [reduceCtorEq, not_false_eq_true])
  · rw [Except.ok.injEq, Prod.mk.injEq] at h
    rw [h.1]
    exact ⟨rfl, rfl⟩

end Indices

end Srtp

end CryptoOpal
