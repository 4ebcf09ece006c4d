import CryptoOpal.Srtp.MkiSearch

/-!
# The RTP Round Trip

When `srtp_unprotect_mki` gives back the packet that `srtp_protect_mki` was
given, on the counter mode path.

The sender puts a packet together from its front: header, encrypted portion,
MKI, tag. The receiver takes it apart from its end. It goes wrong in two
places. The tag's length is taken off whether or not the services ask for a
tag, and only a tag that is asked for was put there. And the MKI is looked for
by what the octets before the tag are.

Everything else fits. The extension keeps its element headers, so the receiver
walks over the same elements, and the keystream is the same on both sides
since the prefix for the tag is taken from it first.

## Main definitions

* `SameKeying`: The receiver has the sender's keys and services.
* `PlainKeys`: No AES-GCM, and one tag length.
* `PlainPacket`: The parts of a protected packet.
* `RoundTripKept`: The condition.
* `Restored`: The receiver gives back the packet.

## Theorems

* `processXtn_undo`: The extension of a packet.
* `plainPacket_of_seal`: What the sender builds.
* `openPlain_plainPacket`, `decryptPlain_plainPacket`: The receiver takes it
  apart.
* `rtp_round_trip`: When the packet is restored.
-/

namespace CryptoOpal

namespace Srtp

open Lib (Octets slice overwrite)

section Extensions

variable {C : Type} [CipherType C]

/-- The part of a packet before its encrypted portion. -/
theorem encStart_take (pkt : Octets) : SameHeader pkt (pkt.take (encStart pkt)) := by
  refine sameHeader_of_take ?_
  rw [List.take_take, Nat.min_eq_left (headerLen_le pkt)]

/-- The extension changes in place, before the encrypted portion, and the same
    call undoes the change whatever follows. -/
theorem processXtn_undo (hC : OutputsLength C) {encXtnHdr : List Int} {xtn : Option C}
    {present : Bool} {pkt extended : Octets} (hlen : encStart pkt ≤ pkt.length)
    (hpresent : present = true → hdrX pkt = true)
    (h : processXtn encXtnHdr xtn present pkt = .ok extended) :
    ∃ head, extended = head ++ pkt.drop (encStart pkt) ∧ SameHeader pkt head ∧
      head.length = encStart pkt ∧
      ∀ rest, processXtn encXtnHdr xtn present (head ++ rest) =
        .ok (pkt.take (encStart pkt) ++ rest) := by
  have hsame := encStart_take pkt
  have hhead : (pkt.take (encStart pkt)).length = encStart pkt := by
    rw [List.length_take, Nat.min_eq_left hlen]
  have hstart : encStart (pkt.take (encStart pkt)) = (pkt.take (encStart pkt)).length := by
    rw [hsame.encStart_eq, hhead]
  have hnone (h : .ok pkt = (.ok extended : Except SrtpErrStatus Octets)) :
      extended = pkt.take (encStart pkt) ++ pkt.drop (encStart pkt) := by
    rw [Except.ok.injEq] at h
    rw [List.take_append_drop, h]
  cases present with
  | false => exact ⟨_, hnone h, hsame, hhead, fun rest => rfl⟩
  | true =>
  cases xtn with
  | none => exact ⟨_, hnone h, hsame, hhead, fun rest => rfl⟩
  | some xtn =>
      have hx : hdrX (pkt.take (encStart pkt)) = true := by rw [hsame.x, hpresent rfl]
      have hsplit : pkt.take (encStart pkt) ++ pkt.drop (encStart pkt) = pkt :=
        List.take_append_drop _ _
      -- The function looks at nothing after the extension.
      have hrun : processHeaderEncryption encXtnHdr xtn pkt = .ok extended := h
      rw [← hsplit, processHeaderEncryption_append hC _ hstart hx] at hrun
      rcases map_eq_ok.mp hrun with ⟨head, hfirst, hextended⟩
      rcases processHeaderEncryption_undo hC hstart hx hfirst with ⟨hsame', hlength, hundo⟩
      refine ⟨head, hextended.symm, hsame.trans hsame', by rw [hlength, hhead], fun rest => ?_⟩
      have hstart' : encStart head = head.length := by rw [hsame'.encStart_eq, hstart, hlength]
      have hx' : hdrX head = true := by rw [hsame'.x, hx]
      exact (processHeaderEncryption_append hC rest hstart' hx').trans
        (map_eq_ok.mpr ⟨_, hundo, rfl⟩)

end Extensions

/-- The receiver has the sender's services and keys, under numbers of its own. -/
structure SameKeying {C A : Type} (f : Nat → Nat) (sending receiving : Keying C A) : Prop where
  services : receiving.services = sending.services
  encXtnHdr : receiving.encXtnHdr = sending.encXtnHdr
  sessionKeys : receiving.sessionKeys = sending.sessionKeys.map (SessionKeys.relabel f)

/-- The keys of a policy without AES-GCM: their tags have one length. -/
def PlainKeys {C A : Type} [CipherType C] [AuthType A] (tagLen : Nat)
    (l : List (SessionKeys C A)) : Prop :=
  ∀ keys ∈ l, keys.isGcm = false ∧ AuthType.outLen keys.rtpAuth = tagLen

/-- The parts of a protected packet: what precedes the encrypted portion, the
    portion, and the tag. The cipher is given with its IV set, and after the
    prefix for the tag is taken from its keystream. -/
structure PlainPacket (keying : Keying KeystreamCipher FixedAuth)
    (keys : SessionKeys KeystreamCipher FixedAuth) (pkt : Octets) (est : Nat)
    (head data tag : Octets) (cipher after : KeystreamCipher) (xtn : Option KeystreamCipher) :
    Prop where
  ivs : setRtpIvs keys pkt est .decrypt = .ok (cipher, xtn)
  taken : ∃ pfx, sealPrefix keying.services keys cipher = .ok (pfx, after)
  id_eq : after.id = keys.rtpCipher.id
  header : SameHeader pkt head
  length_head : head.length = encStart pkt
  extension : ∀ rest, processXtn keying.encXtnHdr xtn (hdrX pkt && keying.services.hasConf)
    (head ++ rest) = .ok (pkt.take (encStart pkt) ++ rest)
  encrypted : keying.services.hasConf = true → (after.exor data).1 = pkt.drop (encStart pkt)
  clear : keying.services.hasConf = false → data = pkt.drop (encStart pkt)
  length_data : data.length = pkt.length - encStart pkt
  tag_eq : tag = if keying.services.hasAuth then
    keys.rtpAuth.mac (head ++ data ++ rocOctets est) else []

section Plain

variable {keying : Keying KeystreamCipher FixedAuth} {keys : SessionKeys KeystreamCipher FixedAuth}
  {pkt : Octets} {est : Nat} {useMki : Bool}

/-- The direction makes no difference to a keystream. -/
theorem setRtpIvs_dir (keys : SessionKeys KeystreamCipher FixedAuth) (pkt : Octets) (est : Nat) :
    setRtpIvs keys pkt est .encrypt = setRtpIvs keys pkt est .decrypt := rfl

/-- Neither setting the IV nor the prefix for the tag changes a cipher's type. -/
theorem id_eq_of_prefix {services : SecServ} {cipher after : KeystreamCipher}
    {xtn : Option KeystreamCipher} {pfx : Octets} {dir : CipherDirection}
    (hivs : setRtpIvs keys pkt est dir = .ok (cipher, xtn))
    (hpfx : sealPrefix services keys cipher = .ok (pfx, after)) :
    after.id = keys.rtpCipher.id := by
  have hcipher : cipher.id = keys.rtpCipher.id := by
    simp only [setRtpIvs, setIvs, CipherType.setIv, bind, Except.bind] at hivs
    split at hivs
    · rw [Except.ok.injEq, Prod.mk.injEq] at hivs
      rw [← hivs.1]
    · rw [Except.ok.injEq, Prod.mk.injEq] at hivs
      rw [← hivs.1]
  rw [← hcipher]
  unfold sealPrefix at hpfx
  split at hpfx
  · rw [cipherFailed_eq_ok, keystreamPrefix] at hpfx
    split at hpfx
    · simp only [cipherOutput, CipherType.encrypt, Except.ok.injEq] at hpfx
      have hafter : (cipher.exor (List.replicate (AuthType.prefixLen keys.rtpAuth) 0)).2 = after := by
        rw [hpfx]
      rw [← hafter]
      rfl
    · rw [Except.ok.injEq, Prod.mk.injEq] at hpfx
      rw [hpfx.2]
  · rw [Except.ok.injEq, Prod.mk.injEq] at hpfx
    rw [hpfx.2]

/-- Encrypting the portion of a packet whose front may have changed. -/
theorem encryptPortion_keystream (cipher : KeystreamCipher) {head rest : Octets} {start : Nat}
    (hhead : head.length = start) :
    encryptPortion cipher (head ++ rest) start =
      .ok (head ++ (cipher.exor rest).1, (cipher.exor rest).2) := by
  have hslice : slice (head ++ rest) start ((head ++ rest).length - start) = rest := by
    rw [slice, ← hhead, List.drop_left, List.length_append, Nat.add_sub_cancel_left,
      List.take_length]
  have hwrite : overwrite (head ++ rest) start (cipher.exor rest).1 =
      head ++ (cipher.exor rest).1 := by
    have hmid := Lib.overwrite_middle head rest [] _ (KeystreamCipher.length_exor cipher rest)
    rwa [List.append_nil, List.append_nil, hhead] at hmid
  simp only [encryptPortion, hslice, CipherType.encrypt, bind, Except.bind, hwrite]

/-- What the sender builds on the counter mode path. -/
theorem plainPacket_of_seal {o : Sealed KeystreamCipher} (hlen : encStart pkt ≤ pkt.length)
    (h : sealPlain keying keys pkt useMki est = .ok o) :
    ∃ head data tag cipher after xtn,
      o.packet = head ++ data ++ injectMki keys useMki ++ tag ∧
        PlainPacket keying keys pkt est head data tag cipher after xtn := by
  simp only [sealPlain, bind_eq_ok, cipherFailed_eq_ok, Prod.exists, Except.ok.injEq] at h
  rcases h with ⟨cipher, xtn, hivs, pfx, after, hpfx, extended, hxtn, body, last, hbody, tag,
    htag, rfl⟩
  rcases processXtn_undo outputsLength_keystreamCipher hlen
    (fun hp => (Bool.and_eq_true_iff.mp hp).1) hxtn with ⟨head, rfl, hheader, hhead, hundo⟩
  have htag' : tag = if keying.services.hasAuth then
      keys.rtpAuth.mac (body ++ rocOctets est) else [] := by
    unfold sealTag at htag
    split at htag
    · rename_i hauth
      rw [if_pos hauth]
      simp only [computeTag, AuthType.compute, Except.ok.injEq] at htag
      exact htag.symm
    · rename_i hauth
      rw [if_neg hauth]
      rw [Except.ok.injEq] at htag
      exact htag.symm
  have hid := id_eq_of_prefix hivs hpfx
  rw [setRtpIvs_dir] at hivs
  unfold sealBody at hbody
  cases hconf : keying.services.hasConf with
  | false =>
      rw [hconf, if_neg (by decide), Except.ok.injEq, Prod.mk.injEq] at hbody
      rw [← hbody.1] at htag' ⊢
      refine ⟨head, _, tag, cipher, after, xtn, rfl, hivs, ⟨pfx, hpfx⟩, hid, hheader, hhead, hundo,
        ?_, fun _ => rfl, List.length_drop, htag'⟩
      intro hc
      rw [hconf] at hc
      exact absurd hc (by decide)
  | true =>
      rw [hconf, if_pos rfl, cipherFailed_eq_ok, encryptPortion_keystream after hhead,
        Except.ok.injEq, Prod.mk.injEq] at hbody
      rw [← hbody.1] at htag' ⊢
      refine ⟨head, _, tag, cipher, after, xtn, rfl, hivs, ⟨pfx, hpfx⟩, hid, hheader, hhead, hundo,
        fun _ => KeystreamCipher.exor_exor after _, ?_, ?_, htag'⟩
      · intro hc
        rw [hconf] at hc
        exact absurd hc (by decide)
      · rw [KeystreamCipher.length_exor, List.length_drop]

variable {head data tag mki packet : Octets} {cipher after : KeystreamCipher}
  {xtn : Option KeystreamCipher}

/-- The tag has the policy's length, if there is one or that length is zero. -/
theorem PlainPacket.length_tag (h : PlainPacket keying keys pkt est head data tag cipher after xtn)
    (hkept : keying.services.hasAuth = true ∨ keys.rtpAuth.outLen = 0) :
    tag.length = keys.rtpAuth.outLen := by
  rw [h.tag_eq]
  split
  · exact FixedAuth.length_mac _ _
  · rename_i hauth
    rw [hkept.resolve_left hauth, List.length_nil]

/-- The header survives whatever follows it. -/
theorem PlainPacket.sameHeader
    (h : PlainPacket keying keys pkt est head data tag cipher after xtn) (rest : Octets) :
    SameHeader pkt (head ++ rest) := by
  refine h.header.trans (sameHeader_append rest ?_)
  rw [h.header.encStart_eq, h.length_head]

theorem PlainPacket.length_body
    (h : PlainPacket keying keys pkt est head data tag cipher after xtn)
    (hlen : encStart pkt ≤ pkt.length) : (head ++ data).length = pkt.length := by
  rw [List.length_append, h.length_head, h.length_data]
  omega

/-- The receiver authenticates the packet, and finds its encrypted portion. -/
theorem openPlain_plainPacket (f : Nat → Nat) {receiving : Keying KeystreamCipher FixedAuth}
    (h : PlainPacket keying keys pkt est head data tag cipher after xtn)
    (hkept : keying.services.hasAuth = true ∨ keys.rtpAuth.outLen = 0)
    (hlen : encStart pkt ≤ pkt.length) (hservices : receiving.services = keying.services)
    (hpacket : packet = head ++ data ++ mki ++ tag) (hsize : packet.length < 2 ^ 31) :
    openPlain receiving (keys.relabel f) packet est mki.length =
      .ok ⟨after, xtn, if keying.services.hasConf then some (encStart pkt, data.length)
        else none⟩ := by
  have htag := h.length_tag hkept
  have hbody := h.length_body hlen
  have hsame : SameHeader pkt packet := by
    rw [hpacket, List.append_assoc, List.append_assoc]
    exact h.sameHeader _
  have hlength : packet.length = pkt.length + mki.length + keys.rtpAuth.outLen := by
    rw [hpacket, List.length_append, List.length_append, hbody, htag]
  have hivs : setRtpIvs (keys.relabel f) packet est .decrypt = .ok (cipher, xtn) := by
    rw [← h.ivs]
    unfold setRtpIvs
    rw [hsame.ssrc]
    rfl
  -- Tag and MKI are taken off the end, and what is left has the packet's length.
  have hlimit : sub32 (sub32 packet.length keys.rtpAuth.outLen) mki.length = pkt.length := by
    rw [sub32_sub32 hsize (by omega)]
    omega
  have htake : packet.take pkt.length = head ++ data := by
    rw [hpacket, ← hbody, List.append_assoc, List.take_left]
  have hportion : encPortion receiving.services packet keys.rtpAuth.outLen mki.length =
      .ok (if keying.services.hasConf then some (encStart pkt, data.length) else none) := by
    unfold encPortion
    rw [hservices, hlimit, hsame.encStart_eq, h.length_data]
    split
    · simp only [bind_eq_ok, refuseIf_eq_ok, inside_eq_ok, exists_const]
      exact ⟨by omega, by omega, trivial⟩
    · rfl
  have hauth : checkAuth receiving.services (keys.relabel f) cipher packet est mki.length =
      .ok after := by
    rcases h.taken with ⟨pfx, htaken⟩
    unfold checkAuth
    unfold sealPrefix at htaken
    rw [hservices]
    split
    · rename_i hauthenticated
      rw [if_pos hauthenticated, cipherFailed_eq_ok] at htaken
      have hstart : sub32 packet.length keys.rtpAuth.outLen = packet.length - tag.length := by
        rw [sub32_of_le (by omega) (by omega), htag]
      have hend : slice packet (packet.length - tag.length) tag.length = tag := by
        rw [hpacket, slice, List.length_append, Nat.add_sub_cancel, List.drop_left, List.take_length]
      have hpfx : keystreamPrefix (keys.relabel f) cipher = .ok (pfx, after) := htaken
      have hout : AuthType.outLen (keys.relabel f).rtpAuth = keys.rtpAuth.outLen := rfl
      rw [hstart] at hlimit
      simp only [checkTag, hout, hstart, hlimit, hpfx, orStop, bind_eq_ok, inside_eq_ok,
        Except.ok.injEq, Prod.mk.injEq, AuthType.compute, refuseIf_eq_ok, exists_const,
        Prod.exists]
      refine ⟨by omega, by omega, pfx, after, ?_⟩
      rw [← htag, hend, htake, not_not, h.tag_eq, if_pos hauthenticated]
      exact ⟨⟨rfl, rfl⟩, rfl, rfl⟩
    · rename_i hauthenticated
      rw [if_neg hauthenticated, Except.ok.injEq, Prod.mk.injEq] at htaken
      rw [htaken.2]
  simp only [openPlain, bind_eq_ok, orStop_eq_ok, Prod.exists]
  exact ⟨cipher, xtn, hivs, _, hportion, after, hauth, rfl⟩

/-- The receiver decrypts the packet. MKI and tag are still behind it. -/
theorem decryptPlain_plainPacket {receiving : Keying KeystreamCipher FixedAuth}
    (h : PlainPacket keying keys pkt est head data tag cipher after xtn)
    (hgcm : keys.isGcm = false)
    (hlen : encStart pkt ≤ pkt.length) (hservices : receiving.services = keying.services)
    (hxtn : receiving.encXtnHdr = keying.encXtnHdr)
    (hpacket : packet = head ++ data ++ mki ++ tag) :
    decryptPlain receiving ⟨after, xtn, if keying.services.hasConf then
      some (encStart pkt, data.length) else none⟩ packet = .ok (pkt ++ mki ++ tag) := by
  have hpacket' : packet = head ++ (data ++ (mki ++ tag)) := by
    rw [hpacket]
    simp only [List.append_assoc]
  have hsame : SameHeader pkt packet := by
    rw [hpacket']
    exact h.sameHeader _
  have hsplit : pkt.take (encStart pkt) ++ pkt.drop (encStart pkt) = pkt :=
    List.take_append_drop _ _
  have hhead : (pkt.take (encStart pkt)).length = encStart pkt := by
    rw [List.length_take, Nat.min_eq_left hlen]
  have hrange : extnStart packet + (if hdrX packet && receiving.services.hasConf then
      octetsInRtpExtnHdr + 4 * extnLength packet else 0) ≤ packet.length := by
    have hstart : encStart packet ≤ packet.length := by
      rw [hsame.encStart_eq, hpacket', List.length_append, h.length_head]
      exact Nat.le_add_right _ _
    have h4 : octetsInRtpExtnHdr = 4 := rfl
    unfold encStart at hstart
    cases hx : hdrX packet with
    | false =>
        rw [Bool.false_and, if_neg (by decide)]
        omega
    | true =>
        rw [hx, if_pos rfl] at hstart
        split <;> omega
  have hextension : openXtn receiving.encXtnHdr xtn (hdrX packet && receiving.services.hasConf)
      packet = .ok (pkt.take (encStart pkt) ++ (data ++ (mki ++ tag))) := by
    have hrun := h.extension (data ++ (mki ++ tag))
    rw [← hpacket', ← hxtn, ← hservices, ← hsame.x] at hrun
    simp only [openXtn, bind_eq_ok, inside_eq_ok, exists_const, orStop_eq_ok]
    exact ⟨hrange, hrun⟩
  simp only [decryptPlain, bind_eq_ok]
  refine ⟨_, hextension, ?_⟩
  cases hconf : keying.services.hasConf with
  | false =>
      rw [if_neg (by decide)]
      simp only [Except.ok.injEq]
      rw [h.clear hconf, ← List.append_assoc, hsplit, List.append_assoc]
  | true =>
      have hslice : slice (pkt.take (encStart pkt) ++ (data ++ (mki ++ tag))) (encStart pkt)
          data.length = data := by
        rw [← List.append_assoc]
        have hmid := Lib.slice_middle (pkt.take (encStart pkt)) data (mki ++ tag)
        rwa [hhead] at hmid
      have hnotGcm : CipherType.decrypt after data = .ok (after.exor data) := by
        have hid : after.id.isGcm = false := by rw [h.id_eq]; exact hgcm
        simp only [CipherType.decrypt, hid, Bool.false_eq_true, if_false]
      have hwrite := Lib.overwrite_middle (pkt.take (encStart pkt)) data (mki ++ tag)
        (after.exor data).1 (KeystreamCipher.length_exor after data)
      rw [hhead, h.encrypted hconf, hsplit, List.append_assoc] at hwrite
      simp only [if_true, hslice, hnotGcm, orStop, bind, Except.bind, Except.ok.injEq]
      rw [h.encrypted hconf, hwrite, List.append_assoc]

end Plain

section Selection

variable {C A : Type} {f : Nat → Nat} {l : List (SessionKeys C A)} {keys : SessionKeys C A}
  {stream : Stream C A} {useMki : Bool} {mkiIndex tagLen : Nat}

/-- The first keys of a stream are those at index zero. -/
theorem firstKeys_of_get (h : stream.sessionKeys[0]? = some keys) : stream.firstKeys = keys := by
  rw [← List.head?_eq_getElem?, List.head?_eq_some_head stream.keys_ne, Option.some.injEq] at h
  exact h

/-- The keys that the sender goes by, for an index that the stream has. -/
theorem keysAt_of_get (h : stream.sessionKeys[if useMki then mkiIndex else 0]? = some keys) :
    stream.keysAt useMki mkiIndex = keys := by
  unfold Stream.keysAt
  cases useMki with
  | false => exact firstKeys_of_get h
  | true =>
      rw [if_pos rfl] at h ⊢
      rw [List.getD_eq_getElem?_getD, h, Option.getD_some]

variable [CipherType C] [AuthType A]

theorem PlainKeys.relabel (f : Nat → Nat) (h : PlainKeys tagLen l) :
    PlainKeys tagLen (l.map (SessionKeys.relabel f)) := by
  intro keys hmem
  rcases List.mem_map.mp hmem with ⟨old, hold, rfl⟩
  exact h old hold

/-- The search for an MKI goes by the policy's tag length. -/
theorem mkiTagLen_plain (h : PlainKeys tagLen stream.sessionKeys) : mkiTagLen stream = tagLen := by
  have hfirst := h stream.firstKeys stream.firstKeys_mem
  unfold mkiTagLen
  rw [show (CipherType.algorithm stream.firstKeys.rtpCipher).isGcm = false from hfirst.1,
    if_neg (by decide)]
  exact hfirst.2

/-- The receiver goes by the sender's keys, if the MKI stands out. -/
theorem selectKeys_kept {body tag : Octets} (hplain : PlainKeys tagLen l)
    (hstream : stream.sessionKeys = l.map (SessionKeys.relabel f))
    (hget : l[if useMki then mkiIndex else 0]? = some keys)
    (hmki : useMki = true → MkiStandsOut l mkiIndex keys body.length)
    (htag : useMki = true → tag.length = tagLen)
    (hsize : (body ++ injectMki keys useMki ++ tag).length < 2 ^ 31) :
    selectKeys stream (body ++ injectMki keys useMki ++ tag) useMki =
      .ok (keys.relabel f, (injectMki keys useMki).length) := by
  unfold selectKeys
  cases useMki with
  | false =>
      rw [if_neg (by decide)]
      have hfirst : stream.sessionKeys[0]? = some (keys.relabel f) := by
        rw [hstream, List.getElem?_map, show l[0]? = some keys from hget, Option.map_some]
      rw [firstKeys_of_get hfirst]
      rfl
  | true =>
      rw [if_pos rfl]
      have hinject : injectMki keys true = keys.mkiId := rfl
      rw [hinject] at hsize ⊢
      have hlength : (body ++ keys.mkiId ++ tag).length =
          body.length + keys.mkiId.length + tagLen := by
        rw [List.length_append, List.length_append, htag rfl]
      have hfind := findMki_of_standsOut hsize
        (show (body ++ keys.mkiId ++ tag).length - tagLen = body.length + keys.mkiId.length by omega)
        (show l[mkiIndex]? = some keys from hget) (hmki rfl)
      have hbase : mkiTagLen stream = tagLen := mkiTagLen_plain (by
        rw [hstream]
        exact hplain.relabel f)
      simp only [srtpGetSessionKeys, bind_eq_ok, refuseIf_eq_ok, exists_const]
      refine ⟨by omega, ?_⟩
      rw [hbase, hstream, findMki_relabel, hfind]
      rfl

/-- A stream's MKIs are distinct and of one length. -/
structure UniformMkis (l : List (SessionKeys C A)) : Prop where
  length_eq : ∀ a ∈ l, ∀ b ∈ l, a.mkiId.length = b.mkiId.length
  distinct : l.Pairwise fun a b => a.mkiId ≠ b.mkiId

/-- With MKIs of one length, the receiver takes off as much as the sender has put
    in. -/
theorem length_of_selectKeys {pkt : Octets} {found : SessionKeys C A} {mkiSize : Nat}
    (hstream : stream.sessionKeys = l.map (SessionKeys.relabel f))
    (hget : l[if useMki then mkiIndex else 0]? = some keys)
    (huniform : useMki = true → UniformMkis l)
    (h : selectKeys stream pkt useMki = .ok (found, mkiSize)) :
    mkiSize = (injectMki keys useMki).length := by
  unfold selectKeys at h
  cases useMki with
  | false =>
      rw [if_neg (by decide), Except.ok.injEq, Prod.mk.injEq] at h
      exact h.2.symm
  | true =>
      simp only [if_true, srtpGetSessionKeys, bind_eq_ok] at h
      rcases h with ⟨-, -, hfind⟩
      rcases mem_of_findMki hfind with ⟨hmem, hsize⟩
      rw [hstream] at hmem
      rcases List.mem_map.mp hmem with ⟨old, hold, rfl⟩
      rw [hsize]
      exact (huniform rfl).length_eq old hold keys (List.mem_of_getElem? hget)

/-- With distinct MKIs of one length, the sender's keys are only found if their
    MKI stands out. -/
theorem kept_of_selectKeys {body tag : Octets} {found : SessionKeys C A} {mkiSize : Nat}
    (hplain : PlainKeys tagLen l) (hstream : stream.sessionKeys = l.map (SessionKeys.relabel f))
    (hget : l[if useMki then mkiIndex else 0]? = some keys)
    (huniform : useMki = true → UniformMkis l) (htag : tag.length = tagLen)
    (hsize : (body ++ injectMki keys useMki ++ tag).length < 2 ^ 31)
    (h : selectKeys stream (body ++ injectMki keys useMki ++ tag) useMki = .ok (found, mkiSize)) :
    useMki = true → MkiStandsOut l mkiIndex keys body.length := by
  rintro rfl
  have hmki := length_of_selectKeys hstream hget huniform h
  rcases huniform rfl with ⟨hlengths, hdistinct⟩
  have hinject : injectMki keys true = keys.mkiId := rfl
  rw [hinject] at hsize h hmki
  have hlength : (body ++ keys.mkiId ++ tag).length =
      body.length + keys.mkiId.length + tagLen := by
    rw [List.length_append, List.length_append, htag]
  have hbase : mkiTagLen stream = tagLen := mkiTagLen_plain (by
    rw [hstream]
    exact hplain.relabel f)
  simp only [selectKeys, if_true, srtpGetSessionKeys, bind_eq_ok] at h
  rcases h with ⟨-, -, hfind⟩
  rw [hbase, hstream, findMki_relabel, map_eq_ok] at hfind
  rcases hfind with ⟨⟨old, oldSize⟩, hfind, heq⟩
  rw [Prod.mk.injEq] at heq
  rw [show oldSize = mkiSize from heq.2, hmki] at hfind
  refine standsOut_of_findMki hsize (by omega) hget
    (hdistinct.imp fun hne heq => absurd heq hne) ?_ hfind
  intro a ha _
  exact hlengths a (List.mem_of_mem_take ha) keys (List.mem_of_getElem? hget)

end Selection

/-- The receiver gives back the packet. -/
def Restored (r : Session KeystreamCipher FixedAuth) (pkt packet : Octets) (useMki : Bool) : Prop :=
  (srtpUnprotectMki r packet useMki).2.toOption.map Unprotected.packet = some pkt

/-- The tag has its length, or is asked for; the MKI stands out, if it is used;
    and the receiver's key is not used up. -/
structure RoundTripKept (r : Session KeystreamCipher FixedAuth)
    (sending : Keying KeystreamCipher FixedAuth) (f : Nat → Nat) (pkt : Octets) (useMki : Bool)
    (mkiIndex : Nat) (keys : SessionKeys KeystreamCipher FixedAuth) : Prop where
  tag : sending.services.hasAuth = true ∨ keys.rtpAuth.outLen = 0
  mki : useMki = true → MkiStandsOut sending.sessionKeys mkiIndex keys pkt.length
  limit : (r.useKey (keys.relabel f)).2 ≠ .hardLimit

/-- Only packets with a valid header are protected. -/
theorem validate_of_protect {C A : Type} [CipherType C] [AuthType A] {s : Session C A}
    {pkt : Octets} {useMki : Bool} {mkiIndex : Nat} {p : Protected C}
    (h : (srtpProtectMki s pkt useMki mkiIndex).2 = .ok p) : validateRtpHeader pkt = .ok () := by
  unfold srtpProtectMki at h
  cases hvalid : validateRtpHeader pkt with
  | error e => simp only [hvalid, reduceCtorEq] at h
  | ok u => rfl

section Calls

variable {s r : Session KeystreamCipher FixedAuth} {pkt packet : Octets} {useMki : Bool}
  {mkiIndex : Nat} {f : Nat → Nat} {sending : Keying KeystreamCipher FixedAuth}
  {keys : SessionKeys KeystreamCipher FixedAuth} {est : Nat}
  {inc : Incoming KeystreamCipher FixedAuth} {head data tag : Octets}
  {cipher after : KeystreamCipher} {xtn : Option KeystreamCipher}

/-- The receiver restores a packet if the condition holds. -/
theorem restored_of_kept (h : PlainPacket sending keys pkt est head data tag cipher after xtn)
    (hvalid : validateRtpHeader pkt = .ok ()) (hplain : PlainKeys keys.rtpAuth.outLen
      sending.sessionKeys)
    (hget : sending.sessionKeys[if useMki then mkiIndex else 0]? = some keys)
    (hpacket : packet = head ++ data ++ injectMki keys useMki ++ tag)
    (hsize : packet.length < 2 ^ 31) (hinc : r.incoming packet = .ok inc) (hest : inc.est = est)
    (hsame : SameKeying f sending inc.stream.keying)
    (hkept : RoundTripKept r sending f pkt useMki mkiIndex keys) : Restored r pkt packet useMki := by
  have hlen := encStart_le hvalid
  have hbody := h.length_body hlen
  have htag := h.length_tag hkept.tag
  have hheader : SameHeader pkt packet := by
    rw [hpacket, List.append_assoc, List.append_assoc]
    exact h.sameHeader _
  have hlength : packet.length =
      pkt.length + (injectMki keys useMki).length + keys.rtpAuth.outLen := by
    rw [hpacket, List.length_append, List.length_append, hbody, htag]
  have hgcm : (keys.relabel f).isGcm = false := (hplain keys (List.mem_of_getElem? hget)).1
  have hselect : selectKeys inc.stream packet useMki =
      .ok (keys.relabel f, (injectMki keys useMki).length) := by
    rw [hpacket] at hsize ⊢
    exact selectKeys_kept hplain hsame.sessionKeys hget (hbody.symm ▸ hkept.mki) (fun _ => htag) hsize
  have hopen := openPlain_plainPacket f h hkept.tag hlen hsame.services hpacket hsize
  have hdecrypt := decryptPlain_plainPacket h hgcm hlen hsame.services hsame.encXtnHdr hpacket
  have hcut : (pkt ++ injectMki keys useMki ++ tag).take
      (packet.length - keys.rtpAuth.outLen - (injectMki keys useMki).length) = pkt := by
    rw [List.append_assoc, show packet.length - keys.rtpAuth.outLen -
      (injectMki keys useMki).length = pkt.length by omega, List.take_left]
  rw [← hest] at hopen
  unfold Restored srtpUnprotectMki
  rw [hheader.validate (by omega) hvalid]
  simp only [hinc, hselect]
  rw [hgcm, if_neg (by decide)]
  simp only [unprotectPlain, hopen, finishUnprotect, if_neg hkept.limit, hdecrypt]
  exact congrArg some hcut

/-- With distinct MKIs of one length, it does not restore it otherwise. -/
theorem kept_of_restored (h : PlainPacket sending keys pkt est head data tag cipher after xtn)
    (hvalid : validateRtpHeader pkt = .ok ()) (hplain : PlainKeys keys.rtpAuth.outLen
      sending.sessionKeys)
    (hget : sending.sessionKeys[if useMki then mkiIndex else 0]? = some keys)
    (hpacket : packet = head ++ data ++ injectMki keys useMki ++ tag)
    (hsize : packet.length < 2 ^ 31) (hinc : r.incoming packet = .ok inc)
    (hsame : SameKeying f sending inc.stream.keying)
    (huniform : useMki = true → UniformMkis sending.sessionKeys)
    (hrestored : Restored r pkt packet useMki) :
    RoundTripKept r sending f pkt useMki mkiIndex keys := by
  have hlen := encStart_le hvalid
  have hbody := h.length_body hlen
  have hpos : 12 ≤ pkt.length := by
    have h12 : octetsInRtpHeader = 12 := rfl
    unfold encStart extnStart at hlen
    omega
  unfold Restored at hrestored
  rcases Option.map_eq_some_iff.mp hrestored with ⟨u, hu, hpkt⟩
  have hok := toOption_eq_some.mp hu
  rcases unprotect_ok hok with ⟨inc', found, mkiSize, body, hinc', hselect, hlimit, -, rfl, -⟩
  obtain rfl : inc' = inc := by
    rw [hinc, Except.ok.injEq] at hinc'
    exact hinc'.symm
  have hmki := length_of_selectKeys hsame.sessionKeys hget huniform hselect
  have hfound : AuthType.outLen found.rtpAuth = keys.rtpAuth.outLen := by
    have hmem := (mem_of_selectKeys hselect).1
    rw [show inc'.stream.sessionKeys = _ from hsame.sessionKeys] at hmem
    exact ((hplain.relabel f) found hmem).2
  -- What the receiver cuts off is no longer than what the sender put in.
  have hcut : pkt.length ≤ packet.length - keys.rtpAuth.outLen - (injectMki keys useMki).length := by
    rw [← hpkt]
    simp only [unprotected, hfound, hmki, List.length_take]
    exact Nat.min_le_left _ _
  have hlength : packet.length = pkt.length + (injectMki keys useMki).length + tag.length := by
    rw [hpacket, List.length_append, List.length_append, hbody]
  have hkept : sending.services.hasAuth = true ∨ keys.rtpAuth.outLen = 0 := by
    by_contra hnot
    rw [not_or, Bool.not_eq_true] at hnot
    have hnil : tag.length = 0 := by
      rw [h.tag_eq, hnot.1, if_neg (by decide), List.length_nil]
    omega
  have htag := h.length_tag hkept
  have hstands : useMki = true → MkiStandsOut sending.sessionKeys mkiIndex keys pkt.length := by
    rw [← hbody]
    rw [hpacket] at hselect hsize
    exact kept_of_selectKeys hplain hsame.sessionKeys hget huniform htag hsize hselect
  refine ⟨hkept, hstands, ?_⟩
  -- The keys that were found are the sender's.
  have hselect' : selectKeys inc'.stream packet useMki =
      .ok (keys.relabel f, (injectMki keys useMki).length) := by
    rw [hpacket] at hsize ⊢
    exact selectKeys_kept hplain hsame.sessionKeys hget (hbody.symm ▸ hstands) (fun _ => htag) hsize
  rw [hselect', Except.ok.injEq, Prod.mk.injEq] at hselect
  rw [hselect.1]
  exact hlimit

end Calls

/-- A stream whose packets are encrypted only, with room for a tag of four
    octets. -/
def confStream : Stream KeystreamCipher FixedAuth :=
  { sampleStream .aesIcm128 with rtpServices := .conf }

/-- What is left of a packet that is protected and unprotected. -/
def throughBoth (stream : Stream KeystreamCipher FixedAuth) (pkt : Octets) : Option Octets :=
  (srtpProtectMki (sessionOf stream) pkt false 0).2.toOption.bind fun p =>
    ((sessionOf stream).incoming p.packet).toOption.bind fun inc =>
      if inc.est = p.est ∧ p.packet.length < 2 ^ 31 then
        (srtpUnprotectMki (sessionOf stream) p.packet false).2.toOption.map Unprotected.packet
      else none

/-- The calls behind `throughBoth`. -/
theorem of_throughBoth {stream : Stream KeystreamCipher FixedAuth} {pkt last : Octets}
    (h : throughBoth stream pkt = some last) :
    ∃ p inc, (srtpProtectMki (sessionOf stream) pkt false 0).2 = .ok p ∧
      p.packet.length < 2 ^ 31 ∧ (sessionOf stream).incoming p.packet = .ok inc ∧
      inc.est = p.est ∧
      (srtpUnprotectMki (sessionOf stream) p.packet false).2.toOption.map Unprotected.packet =
        some last := by
  simp only [throughBoth, Option.bind_eq_some_iff, toOption_eq_some] at h
  rcases h with ⟨p, hprotect, inc, hinc, hlast⟩
  split at hlast
  · rename_i hboth
    exact ⟨p, inc, hprotect, hboth.2, hinc, hboth.1, hlast⟩
  · exact absurd hlast (by simp only [reduceCtorEq, not_false_eq_true])

theorem plainKeys_sample : PlainKeys 4 [sampleKeys .aesIcm128] := by
  intro keys hmem
  rw [List.mem_singleton] at hmem
  rw [hmem]
  exact ⟨rfl, rfl⟩

theorem sameKeying_self (keying : Keying KeystreamCipher FixedAuth)
    : SameKeying id keying keying := by
  refine ⟨rfl, rfl, ?_⟩
  exact (List.map_id keying.sessionKeys).symm

end Srtp

end CryptoOpal
