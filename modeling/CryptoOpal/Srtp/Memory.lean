import CryptoOpal.Srtp.Protect

/-!
# What a Session Remembers

A session against the packet indices it has used so far on one SSRC.
`Session.Remembers` says that the replay database of the SSRC's stream
remembers them, and that nothing has been used while there is no stream. The
list of indices used is a fact about the run; the session does not store it.

A policy update makes a database forget. The relation therefore has a floor
and promises to remember indices from the floor on only. For a session that
is not updated the floor is zero.

Receiving and sending each come with two facts. The index of a packet that
went through is new, and the session remembers it afterwards. Both need the
index to stay within its 48 bits, and the receiver needs one more thing: the
AEAD path records a packet far ahead of its stream as if it were not, so a
session that is to remember its packets must not meet one
(`Session.aeadJump`).

## Main definitions

* `Session.Remembers`: The stream's database knows the indices used so far.
* `Session.InRange`, `Session.SendInRange`: The packet's index stays within
  48 bits.
* `Session.aeadJump`: AES-GCM keys meet a packet far ahead.
* `Keying.OpensAt`: A packet opens under a keying and an index.
* `received`, `sent`: The index a call used on an SSRC.

## Theorems

* `fresh_unprotect`, `remembers_unprotect`: Receiving a packet.
* `fresh_protect`, `remembers_protect`: Sending a packet.
* `keyingOn_unprotect`, `keyingOn_protect`: Neither changes a keying.
-/

namespace CryptoOpal

namespace Srtp

open Lib (Octets)

variable {C A : Type}

/-- The stream of an SSRC remembers the indices used on it, from a floor on,
    and without a stream none have been used. -/
structure Session.Remembers (s : Session C A) (ssrc : UInt32) (floor : Nat) (H : List Nat) :
    Prop where
  unused : s.getStream ssrc = none → H = []
  window : ∀ str, s.getStream ssrc = some str →
    str.rtpRdbx.Remembers {a | a ∈ H ∧ floor ≤ a}

/-- The index estimate of a received packet stays within its 48 bits. -/
def Session.InRange (s : Session C A) (pkt : Octets) : Prop :=
  ∀ str, s.getStream (hdrSsrc pkt) = some str → str.InRange (hdrSeq pkt)

instance (s : Session C A) (pkt : Octets) : Decidable (s.InRange pkt) :=
  inferInstanceAs (Decidable (∀ str ∈ s.getStream (hdrSsrc pkt), str.InRange (hdrSeq pkt)))

/-- The stream of an SSRC, or the template without one, does not repeat an
    index. -/
def Session.NoRepeat (s : Session C A) (ssrc : UInt32) : Prop :=
  ∀ keying, s.keyingOn ssrc = some keying → keying.allowRepeatTx = false

/-- The index a received packet used on an SSRC. -/
def received (ssrc : UInt32) (pkt : Octets) (result : Except Stop Unprotected) : Option Nat :=
  if hdrSsrc pkt = ssrc then result.toOption.map Unprotected.est else none

/-- The index a sent packet used on an SSRC. -/
def sent (ssrc : UInt32) (pkt : Octets) (result : Except SrtpErrStatus (Protected C)) :
    Option Nat :=
  if hdrSsrc pkt = ssrc then result.toOption.map Protected.est else none

section Streams

variable {s s' : Session C A} {ssrc : UInt32} {floor : Nat} {H : List Nat}

theorem Session.Remembers.of_getStream (h : s.Remembers ssrc floor H)
    (hget : s'.getStream ssrc = s.getStream ssrc) : s'.Remembers ssrc floor H :=
  ⟨by rw [hget]; exact h.unused, by rw [hget]; exact h.window⟩

theorem remembers_of_stream {str : Stream C A} (hget : s.getStream ssrc = some str)
    (hmem : str.rtpRdbx.Remembers {a | a ∈ H ∧ floor ≤ a}) : s.Remembers ssrc floor H := by
  refine ⟨?_, ?_⟩
  · intro hnone
    rw [hget] at hnone
    exact absurd hnone (by simp only [reduceCtorEq, not_false_eq_true])
  · intro str' hstr
    rw [hget, Option.some.injEq] at hstr
    rw [← hstr]
    exact hmem

/-- A session that has used nothing remembers nothing. -/
theorem remembers_nil (s : Session C A) (ssrc : UInt32) : s.Remembers ssrc 0 [] := by
  refine ⟨fun _ => rfl, ?_⟩
  intro str hget
  refine Lib.Remembers.mono Lib.Remembers.empty ?_
  rintro a ⟨hmem, -⟩
  exact absurd hmem List.not_mem_nil

theorem used_append (H : List Nat) (est floor : Nat) :
    {a | a ∈ H ++ [est] ∧ floor ≤ a} ⊆ insert est {a | a ∈ H ∧ floor ≤ a} := by
  rintro a ⟨hmem, hle⟩
  rcases List.mem_append.mp hmem with hmem | hmem
  · exact Set.mem_insert_of_mem _ ⟨hmem, hle⟩
  · rw [List.mem_singleton] at hmem
    rw [hmem]
    exact Set.mem_insert _ _

/-- Setting a rollover counter moves no database. -/
theorem remembers_setStreamRoc (h : s.Remembers ssrc floor H) (ssrc' roc : UInt32) :
    (s.setStreamRoc ssrc' roc).1.Remembers ssrc floor H := by
  have hget := Session.getStream_setStreamRoc s ssrc' roc ssrc
  by_cases hssrc : ssrc' = ssrc
  · rw [if_pos hssrc] at hget
    cases hold : s.getStream ssrc with
    | none => exact h.of_getStream (by rw [hget, hold, Option.map_none])
    | some str =>
        rw [hold, Option.map_some] at hget
        exact remembers_of_stream hget (h.window str hold)
  · rw [if_neg hssrc] at hget
    exact h.of_getStream hget

theorem keyingOn_setStreamRoc (s : Session C A) (ssrc' roc ssrc : UInt32) :
    (s.setStreamRoc ssrc' roc).1.keyingOn ssrc = s.keyingOn ssrc := by
  have hget := Session.getStream_setStreamRoc s ssrc' roc ssrc
  have htemplate : (s.setStreamRoc ssrc' roc).1.streamTemplate = s.streamTemplate := by
    rw [Session.setStreamRoc]
    split <;> rfl
  by_cases hssrc : ssrc' = ssrc
  · rw [if_pos hssrc] at hget
    cases hold : s.getStream ssrc with
    | none =>
        rw [hold, Option.map_none] at hget
        rw [Session.keyingOn, Session.keyingOn, hget, hold, htemplate]
    | some str =>
        rw [hold, Option.map_some] at hget
        rw [Session.keyingOn_of_getStream hget, Session.keyingOn_of_getStream hold]
        rfl
  · rw [if_neg hssrc] at hget
    rw [Session.keyingOn, Session.keyingOn, hget, htemplate]

/-- A new stream takes any first index. -/
theorem remembers_clone (template : Stream C A) (ssrc : UInt32) (seq : UInt16) :
    ((template.clone ssrc).record false seq.toNat seq.toNat).rtpRdbx.Remembers
      (insert seq.toNat ∅) := by
  have hseq := seq.toNat_lt
  have hpos := (template.clone ssrc).rtpRdbx.pos
  have hest : (seq.toNat : Int) = (template.clone ssrc).rtpRdbx.index + (seq.toNat : Int) := by
    simp only [Stream.clone, Nat.cast_zero, Int.zero_add]
  exact Rdbx.remembers_addIndex Lib.Remembers.empty hest (by omega) (by omega) (by omega)

/-- The index of an accepted packet is a new one, if it is not below the
    floor. -/
theorem fresh_incoming {pkt : Octets} {inc : Incoming C A} (h : s.Remembers (hdrSsrc pkt) floor H)
    (hinc : s.incoming pkt = .ok inc) (hrange : s.InRange pkt) (hfloor : floor ≤ inc.est) :
    inc.est ∉ H := by
  intro hmem
  rcases incoming_cases hinc with ⟨-, hget, hadmits⟩ | ⟨-, hget, -⟩
  · exact Stream.fresh_of_admits (h.window _ hget) (hrange _ hget) hadmits ⟨hmem, hfloor⟩
  · rw [h.unused hget] at hmem
    exact absurd hmem List.not_mem_nil

/-- Accepting a packet leaves its index remembered. -/
theorem remembers_accept {pkt : Octets} {inc : Incoming C A}
    (h : s.Remembers (hdrSsrc pkt) floor H) (hinc : s.incoming pkt = .ok inc)
    (hrange : s.InRange pkt) :
    (s.accept inc pkt inc.advance).Remembers (hdrSsrc pkt) floor (H ++ [inc.est]) := by
  have hstream := getStream_accept hinc inc.advance (hdrSsrc pkt)
  rw [if_pos rfl] at hstream
  refine remembers_of_stream hstream ?_
  rcases incoming_cases hinc with ⟨hprov, hget, hadmits⟩ | ⟨hprov, hget, -, hadv, hest, hdelta⟩
  · refine Lib.Remembers.mono ?_ (used_append H inc.est floor)
    simp only [Incoming.recorded, hprov, Bool.false_eq_true, if_false]
    refine Stream.remembers_record ?_ ((hrange _ hget).claimDirection _)
      (hadmits.claimDirection _)
    rw [Stream.rtpRdbx_claimDirection]
    exact h.window _ hget
  · simp only [Incoming.recorded, hprov, if_true, hadv, hest, hdelta]
    refine Lib.Remembers.mono (remembers_clone _ _ (hdrSeq pkt)) ?_
    rw [h.unused hget]
    refine (used_append [] _ floor).trans (Set.insert_subset_insert ?_)
    rintro a ⟨hmem, -⟩
    exact absurd hmem List.not_mem_nil

theorem remembers_accept_ne {pkt : Octets} {inc : Incoming C A} (h : s.Remembers ssrc floor H)
    (hinc : s.incoming pkt = .ok inc) (advance : Bool) (hne : hdrSsrc pkt ≠ ssrc) :
    (s.accept inc pkt advance).Remembers ssrc floor H := by
  refine h.of_getStream ?_
  rw [getStream_accept hinc, if_neg hne]

/-- Finding the stream to send on changes nothing that is remembered. -/
theorem remembers_outgoing {ssrc' : UInt32} {stream : Stream C A} (h : s.Remembers ssrc floor H)
    (hout : s.outgoing ssrc' true = .ok (s', stream)) : s'.Remembers ssrc floor H := by
  have hget := getStream_outgoing hout ssrc
  by_cases hssrc : ssrc' = ssrc
  · rw [if_pos hssrc] at hget
    subst hssrc
    refine remembers_of_stream hget ?_
    rcases outgoing_cases hout with ⟨old, hold, hstream, -⟩ | ⟨template, dir, hnone, -, -, -⟩
    · rw [hstream, Stream.rtpRdbx_claimDirection]
      exact h.window _ hold
    · rw [h.unused hnone]
      refine Lib.Remembers.mono Lib.Remembers.empty ?_
      rintro a ⟨hmem, -⟩
      exact absurd hmem List.not_mem_nil
  · rw [if_neg hssrc] at hget
    exact h.of_getStream hget

theorem Session.Remembers.of_append {est : Nat} (h : s.Remembers ssrc floor (H ++ [est])) :
    s.Remembers ssrc floor H := by
  refine ⟨?_, ?_⟩
  · intro hnone
    have := h.unused hnone
    simp only [List.append_eq_nil_iff] at this
    exact this.1
  · intro str hget
    refine Lib.Remembers.mono (h.window str hget) ?_
    rintro a ⟨hmem, hle⟩
    exact ⟨List.mem_append_left _ hmem, hle⟩

theorem allowRepeatTx_outgoing {ssrc' : UInt32} {stream : Stream C A} (hrep : s.NoRepeat ssrc')
    (hout : s.outgoing ssrc' true = .ok (s', stream)) : stream.allowRepeatTx = false :=
  hrep stream.keying (keying_outgoing hout)

end Streams

variable [CipherType C]

/-- The index a packet to send takes stays within its 48 bits. -/
def Session.SendInRange (s : Session C A) (pkt : Octets) (useMki : Bool) (mkiIndex : Nat) : Prop :=
  ∀ str, s.getStream (hdrSsrc pkt) = some str →
    if (str.keysAt useMki mkiIndex).isGcm then str.AeadInRange (hdrSeq pkt)
    else str.InRange (hdrSeq pkt)

instance (s : Session C A) (pkt : Octets) (useMki : Bool) (mkiIndex : Nat) :
    Decidable (s.SendInRange pkt useMki mkiIndex) :=
  inferInstanceAs (Decidable (∀ str ∈ s.getStream (hdrSsrc pkt),
    if (str.keysAt useMki mkiIndex).isGcm then str.AeadInRange (hdrSeq pkt)
    else str.InRange (hdrSeq pkt)))

section TakingIndices

variable {s s₁ : Session C A} {stream stream' : Stream C A} {ssrc : UInt32} {floor : Nat}
  {H : List Nat} {pkt : Octets} {useMki : Bool} {mkiIndex : Nat}

/-- A new stream's first index is in range on either path, so the range of a
    packet to send is that of the stream it goes by. -/
theorem range_outgoing (hrange : s.SendInRange pkt useMki mkiIndex)
    (hout : s.outgoing (hdrSsrc pkt) true = .ok (s₁, stream)) :
    if (stream.keysAt useMki mkiIndex).isGcm then stream.AeadInRange (hdrSeq pkt)
    else stream.InRange (hdrSeq pkt) := by
  rcases outgoing_cases hout with ⟨old, hget, hstream, -⟩ | ⟨template, dir, -, -, hstream, -⟩
  · rcases Stream.claimDirection_eq old .srtpSender with ⟨dir, hdir⟩
    rw [hstream, hdir]
    exact hrange old hget
  · have hseq := (hdrSeq pkt).toNat_lt
    have hzero : stream.rtpRdbx.index = 0 ∧ stream.pendingRoc = 0 := by
      rw [hstream]
      exact ⟨rfl, rfl⟩
    have hest := (Rdbx.estimateIndex_range stream.rtpRdbx (hdrSeq pkt)).2
    split
    · rw [Stream.AeadInRange, hzero.1]
      omega
    · rw [Stream.InRange, Stream.getEstPktIndex, if_neg (by rw [hzero.2]; decide), hzero.1]
      simp only
      omega

/-- Without repeats, an index taken on either path is new. -/
theorem fresh_takesIndex {seq : UInt16} {keys : SessionKeys C A} {est : Nat} {acc : Set Nat}
    (hrep : stream.allowRepeatTx = false)
    (hrange : if keys.isGcm then stream.AeadInRange seq else stream.InRange seq)
    (hmem : stream.rtpRdbx.Remembers acc) (h : stream.TakesIndex keys seq stream' est) :
    est ∉ acc := by
  rw [Stream.TakesIndex] at h
  cases hgcm : keys.isGcm with
  | true =>
      rw [hgcm, if_pos rfl] at h hrange
      exact fresh_takeIndexAead hrep hrange hmem h
  | false =>
      rw [hgcm, if_neg (by decide)] at h hrange
      exact fresh_takeIndex hrep hrange hmem h

/-- An index taken on either path is remembered. -/
theorem remembers_takesIndex {seq : UInt16} {keys : SessionKeys C A} {est : Nat} {acc : Set Nat}
    (hrange : if keys.isGcm then stream.AeadInRange seq else stream.InRange seq)
    (hmem : stream.rtpRdbx.Remembers acc) (h : stream.TakesIndex keys seq stream' est) :
    stream'.rtpRdbx.Remembers (insert est acc) := by
  rw [Stream.TakesIndex] at h
  cases hgcm : keys.isGcm with
  | true =>
      rw [hgcm, if_pos rfl] at h hrange
      exact remembers_takeIndexAead hrange hmem h
  | false =>
      rw [hgcm, if_neg (by decide)] at h hrange
      exact remembers_takeIndex hrange hmem h

theorem takesIndex_frame {seq : UInt16} {keys : SessionKeys C A} {est : Nat}
    (h : stream.TakesIndex keys seq stream' est) :
    stream'.ssrc = stream.ssrc ∧ stream'.keying = stream.keying := by
  rw [Stream.TakesIndex] at h
  cases hgcm : keys.isGcm with
  | true =>
      rw [hgcm, if_pos rfl] at h
      exact frame_takeIndexAead h
  | false =>
      rw [hgcm, if_neg (by decide)] at h
      exact frame_takeIndex h

/-- The stream an index was taken on is put back into the session. -/
theorem getStream_taken {keys : SessionKeys C A} {est : Nat}
    (hout : s.outgoing (hdrSsrc pkt) true = .ok (s₁, stream))
    (h : stream.TakesIndex keys (hdrSeq pkt) stream' est) (ssrc : UInt32) :
    ((s₁.useKey keys).1.putStream stream').getStream ssrc =
      if hdrSsrc pkt = ssrc then some stream' else s.getStream ssrc := by
  have hssrc : stream'.ssrc = hdrSsrc pkt := by rw [(takesIndex_frame h).1, ssrc_outgoing hout]
  have hget := getStream_outgoing hout (hdrSsrc pkt)
  rw [if_pos rfl] at hget
  have hold : (s₁.useKey keys).1.getStream stream'.ssrc = some stream := by
    rw [hssrc, Session.getStream_useKey, hget]
  rw [Session.getStream_putStream_of_some _ stream' hold, hssrc, Session.getStream_useKey,
    getStream_outgoing hout]
  split <;> rfl

/-- Taking an index leaves it remembered, whether or not it is then sent. -/
theorem remembers_taken {keys : SessionKeys C A} {est : Nat}
    (h : s.Remembers (hdrSsrc pkt) floor H)
    (hrange : if keys.isGcm then stream.AeadInRange (hdrSeq pkt) else stream.InRange (hdrSeq pkt))
    (hout : s.outgoing (hdrSsrc pkt) true = .ok (s₁, stream))
    (htake : stream.TakesIndex keys (hdrSeq pkt) stream' est) :
    ((s₁.useKey keys).1.putStream stream').Remembers (hdrSsrc pkt) floor (H ++ [est]) := by
  have hget := getStream_outgoing hout (hdrSsrc pkt)
  have hput := getStream_taken hout htake (hdrSsrc pkt)
  rw [if_pos rfl] at hget hput
  have hmem := (remembers_outgoing h hout).window stream hget
  exact remembers_of_stream hput
    (Lib.Remembers.mono (remembers_takesIndex hrange hmem htake) (used_append H est floor))

/-- Taking an index changes no keying. -/
theorem keyingOn_taken {keys : SessionKeys C A} {est : Nat}
    (hout : s.outgoing (hdrSsrc pkt) true = .ok (s₁, stream))
    (htake : stream.TakesIndex keys (hdrSeq pkt) stream' est) (ssrc : UInt32) :
    ((s₁.useKey keys).1.putStream stream').keyingOn ssrc = s.keyingOn ssrc := by
  have hput := getStream_taken hout htake ssrc
  by_cases hssrc : hdrSsrc pkt = ssrc
  · rw [if_pos hssrc] at hput
    rw [Session.keyingOn_of_getStream hput, (takesIndex_frame htake).2, ← hssrc,
      keying_outgoing hout]
  · rw [if_neg hssrc] at hput
    rw [Session.keyingOn, Session.keyingOn, hput, ← streamTemplate_outgoing hout]
    rfl

end TakingIndices

variable [AuthType A]

/-- The packet is far ahead of its stream, and its keys are for AES-GCM: the
    one case that the two paths record differently. -/
def Session.aeadJump (s : Session C A) (pkt : Octets) (useMki : Bool) : Bool :=
  match s.incoming pkt with
  | .error _ => false
  | .ok inc =>
    match selectKeys inc.stream pkt useMki with
    | .error _ => false
    | .ok (keys, _) => inc.advance && keys.isGcm

/-- A packet opens under a keying and an index, with some keys of the keying
    and with their MKI or none. -/
def Keying.OpensAt (keying : Keying C A) (pkt : Octets) (est : Nat) : Prop :=
  ∃ keys ∈ keying.sessionKeys, ∃ mkiSize body,
    (mkiSize = 0 ∨ mkiSize = keys.mkiId.length) ∧ Opens keying keys pkt est mkiSize body

section Receiving

variable {s : Session C A} {ssrc : UInt32} {floor : Nat} {H : List Nat} {pkt : Octets}

/-- Where there is no jump on the AEAD path, both paths record the packet as
    it came. -/
theorem advance_of_aeadJump {useMki : Bool} {inc : Incoming C A} {keys : SessionKeys C A}
    {mkiSize : Nat} (hjump : s.aeadJump pkt useMki = false) (hinc : s.incoming pkt = .ok inc)
    (hkeys : selectKeys inc.stream pkt useMki = .ok (keys, mkiSize)) :
    (inc.advance && !keys.isGcm) = inc.advance := by
  simp only [Session.aeadJump, hinc, hkeys] at hjump
  cases hadv : inc.advance with
  | false => rfl
  | true =>
      rw [hadv, Bool.true_and] at hjump
      rw [hjump]
      rfl

/-- Receiving a packet leaves its index remembered, if it used one. -/
theorem remembers_unprotect (h : s.Remembers ssrc floor H) (hrange : s.InRange pkt)
    {useMki : Bool} (hjump : s.aeadJump pkt useMki = false) :
    (srtpUnprotectMki s pkt useMki).1.Remembers ssrc floor
      (H ++ (received ssrc pkt (srtpUnprotectMki s pkt useMki).2).toList) := by
  have hstep := unprotect_cases s pkt useMki
  have herror : ∀ stop, H ++ (received ssrc pkt (.error stop)).toList = H := by
    intro stop
    simp only [received, Except.toOption, Option.map_none, ite_self, Option.toList_none,
      List.append_nil]
  generalize srtpUnprotectMki s pkt useMki = r at hstep ⊢
  rcases r with ⟨s', result⟩
  cases hstep with
  | refused stop =>
      rw [herror]
      exact h
  | counted inc keys mkiSize stop hinc hkeys =>
      rw [herror]
      exact h.of_getStream rfl
  | accepted inc keys mkiSize body hinc hkeys hlimit hopens =>
      have hused : (s.useKey keys).1.Remembers ssrc floor H := h.of_getStream rfl
      rw [advance_of_aeadJump hjump hinc hkeys]
      by_cases hssrc : hdrSsrc pkt = ssrc
      · subst hssrc
        simp only [received, if_true, Except.toOption, Option.map_some, Option.toList_some]
        exact remembers_accept hused hinc hrange
      · simp only [received, if_neg hssrc, Option.toList_none, List.append_nil]
        exact remembers_accept_ne hused hinc _ hssrc

/-- A packet that is received uses a new index. -/
theorem fresh_unprotect {useMki : Bool} {u : Unprotected} (h : s.Remembers ssrc floor H)
    (hrange : s.InRange pkt) (hok : (srtpUnprotectMki s pkt useMki).2 = .ok u)
    (hssrc : hdrSsrc pkt = ssrc) (hfloor : floor ≤ u.est) : u.est ∉ H := by
  rcases unprotect_ok hok with ⟨inc, keys, mkiSize, body, hinc, hkeys, -, -, rfl, -⟩
  subst hssrc
  exact fresh_incoming h hinc hrange hfloor

/-- Receiving a packet changes no keying. -/
theorem keyingOn_unprotect (s : Session C A) (pkt : Octets) (useMki : Bool) (ssrc : UInt32) :
    (srtpUnprotectMki s pkt useMki).1.keyingOn ssrc = s.keyingOn ssrc := by
  have hstep := unprotect_cases s pkt useMki
  generalize srtpUnprotectMki s pkt useMki = r at hstep ⊢
  rcases r with ⟨s', result⟩
  cases hstep with
  | refused stop => rfl
  | counted inc keys mkiSize stop hinc hkeys => rfl
  | accepted inc keys mkiSize body hinc hkeys hlimit hopens =>
      exact keyingOn_accept (s := (s.useKey keys).1) hinc _ ssrc

/-- A packet that is received opens under the keying of its SSRC and the index
    that is reported, which ends with its sequence number. -/
theorem opensAt_of_unprotect {useMki : Bool} {u : Unprotected}
    (hok : (srtpUnprotectMki s pkt useMki).2 = .ok u) :
    ∃ keying, s.keyingOn (hdrSsrc pkt) = some keying ∧ keying.OpensAt pkt u.est ∧
      u.est < 2 ^ 48 ∧ u.est % 2 ^ 16 = (hdrSeq pkt).toNat := by
  rcases unprotect_ok hok with ⟨inc, keys, mkiSize, body, hinc, hkeys, -, hopens, rfl, -⟩
  have hsel := mem_of_selectKeys hkeys
  refine ⟨_, keyingOn_incoming hinc, ⟨keys, hsel.1, mkiSize, body, hsel.2, hopens⟩, ?_⟩
  have hseq := (hdrSeq pkt).toNat_lt
  simp only [unprotected]
  rcases incoming_cases hinc with ⟨-, -, hadmits⟩ | ⟨-, -, -, -, hest, -⟩
  · exact ⟨hadmits.est_lt, hadmits.est_low⟩
  · omega

end Receiving

section Sending

variable {s : Session C A} {ssrc : UInt32} {floor : Nat} {H : List Nat} {pkt : Octets}
  {useMki : Bool} {mkiIndex : Nat}

/-- Sending a packet leaves its index remembered, if it used one. -/
theorem remembers_protect (h : s.Remembers ssrc floor H)
    (hrange : s.SendInRange pkt useMki mkiIndex) :
    (srtpProtectMki s pkt useMki mkiIndex).1.Remembers ssrc floor
      (H ++ (sent ssrc pkt (srtpProtectMki s pkt useMki mkiIndex).2).toList) := by
  have hstep := protect_cases s pkt useMki mkiIndex
  have herror : ∀ e, H ++ (sent (C := C) ssrc pkt (.error e)).toList = H := by
    intro e
    simp only [sent, Except.toOption, Option.map_none, ite_self, Option.toList_none,
      List.append_nil]
  -- A stream of another SSRC is not touched by taking an index.
  have hother : ∀ s₁ stream stream' est, hdrSsrc pkt ≠ ssrc →
      s.outgoing (hdrSsrc pkt) true = .ok (s₁, stream) →
      stream.TakesIndex (stream.keysAt useMki mkiIndex) (hdrSeq pkt) stream' est →
      ((s₁.useKey (stream.keysAt useMki mkiIndex)).1.putStream stream').Remembers ssrc floor H := by
    intro s₁ stream stream' est hne hout htake
    refine h.of_getStream ?_
    rw [getStream_taken hout htake, if_neg hne]
  generalize srtpProtectMki s pkt useMki mkiIndex = r at hstep ⊢
  rcases r with ⟨s', result⟩
  cases hstep with
  | refused e =>
      rw [herror]
      exact h
  | counted s₁ stream e hout =>
      rw [herror]
      exact (remembers_outgoing h hout).of_getStream rfl
  | taken s₁ stream stream' est e hout htake =>
      rw [herror]
      by_cases hssrc : hdrSsrc pkt = ssrc
      · subst hssrc
        exact (remembers_taken h (range_outgoing hrange hout) hout htake).of_append
      · exact hother s₁ stream stream' est hssrc hout htake
  | sent s₁ stream stream' est o hout hlimit htake hseal =>
      by_cases hssrc : hdrSsrc pkt = ssrc
      · subst hssrc
        simp only [sent, if_true, Except.toOption, Option.map_some, Option.toList_some]
        exact remembers_taken h (range_outgoing hrange hout) hout htake
      · simp only [sent, if_neg hssrc, Option.toList_none, List.append_nil]
        exact hother s₁ stream stream' est hssrc hout htake

/-- A packet that is sent uses a new index, if it is not below the floor. -/
theorem fresh_protect {o : Protected C} (h : s.Remembers ssrc floor H)
    (hrep : s.NoRepeat (hdrSsrc pkt)) (hrange : s.SendInRange pkt useMki mkiIndex)
    (hok : (srtpProtectMki s pkt useMki mkiIndex).2 = .ok o) (hssrc : hdrSsrc pkt = ssrc)
    (hfloor : floor ≤ o.est) : o.est ∉ H := by
  rcases protect_ok hok with ⟨s₁, stream, stream', est, b, hout, -, htake, -, rfl, -⟩
  subst hssrc
  have hget := getStream_outgoing hout (hdrSsrc pkt)
  rw [if_pos rfl] at hget
  have hmem := (remembers_outgoing h hout).window stream hget
  intro hin
  exact fresh_takesIndex (allowRepeatTx_outgoing hrep hout) (range_outgoing hrange hout) hmem htake
    ⟨hin, hfloor⟩

/-- Sending a packet changes no keying. -/
theorem keyingOn_protect (s : Session C A) (pkt : Octets) (useMki : Bool) (mkiIndex : Nat)
    (ssrc : UInt32) : (srtpProtectMki s pkt useMki mkiIndex).1.keyingOn ssrc = s.keyingOn ssrc := by
  have hstep := protect_cases s pkt useMki mkiIndex
  generalize srtpProtectMki s pkt useMki mkiIndex = r at hstep ⊢
  rcases r with ⟨s', result⟩
  cases hstep with
  | refused e => rfl
  | counted s₁ stream e hout => exact keyingOn_outgoing hout ssrc
  | taken s₁ stream stream' est e hout htake => exact keyingOn_taken hout htake ssrc
  | sent s₁ stream stream' est o hout hlimit htake hseal => exact keyingOn_taken hout htake ssrc

end Sending

end Srtp

end CryptoOpal
